/-
A port next to others. The timer functions of all ports count their attempts in
one variable, so a round on one port can be cut short or drawn out by another.
`aloneOk_iff` says in which runs each port does what it would do alone, and
sends three frames before it reports failure.
-/
import TsnSwitch.Preempt.Verified

namespace TsnSwitch.Preempt

open Lib

/-! ## The property -/

/-- What each port does is what it does in the run of its own events. -/
def SameAlone (nrQueues : Nat) (link : Nat → Bool) (es : List (Nat × Event)) : Prop :=
  ∀ p, (outs (step nrQueues) (probed link) es).filter (fun o => o.1.1 == p) =
    outs (step nrQueues) (probed link) (es.filter fun e => e.1 == p)

/-- The timer function has given up. -/
def Out.reportsFailure (out : Out) : Bool := out.restart && out.verState == .failed

/-- The verify frames of a port in the round that is under way, event by event. A
round ends where the timer is stopped or reports failure. -/
def roundFrames (p n : Nat) (o : (Nat × Event) × Out) : Nat :=
  match o with
  | ((q, .timer _), out) =>
    if q ≠ p then n
    else if !out.restart || out.reportsFailure then 0
    else if out.frame = some COM_FLAG_SMD_V then n + 1
    else n
  | _ => n

/-- A failure is reported only after three frames of the round. -/
def ThreeFrames (frames : Nat → Nat) (os : List ((Nat × Event) × Out)) : Prop :=
  ∀ pre p mem out suf, os = pre ++ ((p, .timer mem), out) :: suf → out.reportsFailure = true →
    pre.foldl (roundFrames p) (frames p) = 3

/-! ## The condition -/

/-- The attempts of a port in its round, and those for which there was no memory. -/
structure Round where
  tried : Nat := 0
  lost : Nat := 0

def Round.next (pmt : EdgxPreempt) (r : Round) : Event → Round
  | .timer mem =>
    if pmt.timer.isNone then r
    else if stopTimer pmt then {}
    else if r.tried < 3 then { tried := r.tried + 1, lost := if mem then r.lost else r.lost + 1 }
    else {}
  | _ => r

/-- When the timer of a port expires in a verification, the shared counter says
what the port's own attempts say, and no frame of a round that fails was lost. -/
def Event.OwnCount (pmt : EdgxPreempt) (verCnt : BitVec 8) (r : Round) : Event → Prop
  | .timer _ =>
    pmt.timer.isNone = false → stopTimer pmt = false →
      (verCnt < PMT_VERIFY_LIMIT ↔ r.tried < 3) ∧ (r.tried = 3 → r.lost = 0)
  | _ => True

/-- The ports with the rounds of each. -/
structure Rounds where
  ports : Ports
  round : Nat → Round := fun _ => {}

def roundStep (nrQueues : Nat) (w : Rounds) (e : Nat × Event) : Out × Rounds :=
  let (out, ports) := step nrQueues w.ports e
  (out, { ports, round := Function.update w.round e.1 ((w.round e.1).next (w.ports.pmt e.1) e.2) })

def OwnCount (w : Rounds) (e : Nat × Event) : Prop :=
  e.2.OwnCount (w.ports.pmt e.1) w.ports.verCnt (w.round e.1)

/-! ## One port -/

/-- A round with the counter of the port alone, and with the frames sent. -/
structure Round.Counts (r : Round) (pmt : EdgxPreempt) (verCnt : BitVec 8) (frames : Nat) : Prop where
  verCnt : verCnt.toNat = r.tried
  le : r.tried ≤ 3
  frames : frames + r.lost = r.tried
  off : pmt.timer = none → r.tried = 0

/-- Only the timer stops itself, and only it looks at the counter. -/
theorem portStep_other (nrQueues : Nat) (pmt : EdgxPreempt) (c c' : BitVec 8) {e : Event} (h : ∀ mem, e ≠ .timer mem) :
    (portStep nrQueues (pmt, c) e).1 = (portStep nrQueues (pmt, c') e).1 ∧
    (portStep nrQueues (pmt, c) e).2.1 = (portStep nrQueues (pmt, c') e).2.1 ∧
    (portStep nrQueues (pmt, c) e).2.2 = c := by
  cases e with
  | timer mem => exact absurd rfl (h mem)
  | _ => exact ⟨rfl, rfl, rfl⟩

theorem setTx_timer (pmt : EdgxPreempt) : (preemptSetTx pmt).timer = pmt.timer := by
  unfold preemptSetTx
  split <;> rfl

theorem updateSm_timer {pmt : EdgxPreempt} (h : (preemptUpdateSm pmt).timer = none) : pmt.timer = none := by
  rw [preemptUpdateSm, setTx_timer] at h
  unfold smSwitch preemptStartVer at h
  dsimp only at h
  split at h
  · exact h
  · split at h
    · exact h
    · split at h
      · exact h
      · split at h
        · split at h
          · exact nomatch h
          · exact h
        · exact h

theorem portStep_timer (nrQueues : Nat) {pmt : EdgxPreempt} {c : BitVec 8} {e : Event} (h : ∀ mem, e ≠ .timer mem)
    (ht : (portStep nrQueues (pmt, c) e).2.1.timer = none) : pmt.timer = none := by
  cases e with
  | timer mem => exact absurd rfl (h mem)
  | verDisTx disableVer =>
    have hp := updateSm_timer ht
    split at hp <;> exact hp
  | enableTx pEnable =>
    have hp := updateSm_timer ht
    split at hp <;> exact hp
  | verTime verTime =>
    simp only [portStep, verTimeStore] at ht
    split at ht
    · exact ht
    · split at ht <;> exact ht
  | preemptStatus idx val =>
    simp only [portStep, framePreemptStatusWrite] at ht
    split at ht
    · exact ht
    · rw [setTx_timer] at ht
      exact ht
  | linkChng link =>
    have hp := updateSm_timer ht
    split at hp <;> exact hp
  | rcv flags mem =>
    simp only [portStep, edgxPreemptRcv] at ht
    split at ht
    · exact ht
    · split at ht
      · have hp : (preemptUpdateSm { pmt with verified := true }).timer = none := ht
        have hoff := updateSm_timer hp
        exact hoff
      · exact ht

section Timer

variable (nrQueues : Nat) {pmt : EdgxPreempt} {c : BitVec 8} (mem : Bool)

theorem timer_off (h : pmt.timer.isNone = true) :
    portStep nrQueues (pmt, c) (.timer mem) = ({ verState := pmt.verState }, pmt, c) := if_pos h

theorem timer_stopped (h : pmt.timer.isNone = false) (hs : stopTimer pmt = true) :
    portStep nrQueues (pmt, c) (.timer mem) = ({ verState := pmt.verState }, { pmt with timer := none }, 0) := by
  simp only [portStep, preemptVerificationFn, h, hs, Bool.false_eq_true, if_false, if_true]

theorem timer_tries (h : pmt.timer.isNone = false) (hs : stopTimer pmt = false) (hc : c < PMT_VERIFY_LIMIT) :
    portStep nrQueues (pmt, c) (.timer mem) =
      ({ restart := true, verState := .inprocess, frame := preemptSendFrame mem COM_FLAG_SMD_V },
        { pmt with verState := .inprocess, timer := some (pmt.verTime.toNat * NSEC_PER_MSEC) }, c + 1) := by
  simp only [portStep, preemptVerificationFn, h, hs, hc, Bool.false_eq_true, if_false, if_true]

theorem timer_fails (h : pmt.timer.isNone = false) (hs : stopTimer pmt = false) (hc : ¬ c < PMT_VERIFY_LIMIT) :
    portStep nrQueues (pmt, c) (.timer mem) =
      ({ restart := true, verState := .failed },
        { pmt with verified := false, verState := .failed, timer := some (pmt.verTime.toNat * NSEC_PER_MSEC * 100) }, 0) := by
  simp only [portStep, preemptVerificationFn, h, hs, hc, Bool.false_eq_true, if_false]

end Timer

/-- **The counter rule.** A port does what it does alone, and does not fail
early, exactly if the shared counter is as its own. -/
theorem portStep_own (nrQueues : Nat) {pmt : EdgxPreempt} {c c' : BitVec 8} {r : Round} {frames : Nat} (e : Event)
    (h : r.Counts pmt c' frames) :
    ((portStep nrQueues (pmt, c) e).1 = (portStep nrQueues (pmt, c') e).1 ∧
      ∀ mem, e = .timer mem → (portStep nrQueues (pmt, c) e).1.reportsFailure = true → frames = 3) ↔
      e.OwnCount pmt c r := by
  by_cases htimer : ∃ mem, e = .timer mem
  · obtain ⟨mem, rfl⟩ := htimer
    cases hoff : pmt.timer.isNone with
    | true =>
      refine iff_of_true ⟨by rw [timer_off _ _ hoff, timer_off _ _ hoff], fun _ _ hf => ?_⟩ fun ht => ?_
      · rw [timer_off _ _ hoff] at hf
        exact nomatch hf
      · exact absurd (hoff.symm.trans ht) (by decide)
    | false =>
      cases hs : stopTimer pmt with
      | true =>
        refine iff_of_true ⟨by rw [timer_stopped _ _ hoff hs, timer_stopped _ _ hoff hs], fun _ _ hf => ?_⟩ fun _ ht => ?_
        · rw [timer_stopped _ _ hoff hs] at hf
          exact nomatch hf
        · exact absurd (hs.symm.trans ht) (by decide)
      | false =>
        have hlt : c' < PMT_VERIFY_LIMIT ↔ r.tried < 3 := by
          rw [← h.verCnt, BitVec.lt_def]
          rfl
        have hle := h.le
        have hframes := h.frames
        unfold Event.OwnCount
        rw [forall_prop_of_true hoff, forall_prop_of_true hs]
        by_cases hc : c < PMT_VERIFY_LIMIT
        · by_cases hc' : c' < PMT_VERIFY_LIMIT
          · have hr := hlt.1 hc'
            rw [timer_tries _ _ hoff hs hc, timer_tries _ _ hoff hs hc']
            exact iff_of_true ⟨rfl, fun _ _ hf => nomatch hf⟩ ⟨iff_of_true hc hr, fun he => by omega⟩
          · have hr := mt hlt.2 hc'
            rw [timer_tries _ _ hoff hs hc, timer_fails _ _ hoff hs hc']
            exact iff_of_false (fun hn => nomatch congrArg Out.verState hn.1) fun hn => hr (hn.1.1 hc)
        · by_cases hc' : c' < PMT_VERIFY_LIMIT
          · have hr := hlt.1 hc'
            rw [timer_fails _ _ hoff hs hc, timer_tries _ _ hoff hs hc']
            exact iff_of_false (fun hn => nomatch congrArg Out.verState hn.1) fun hn => hc (hn.1.2 hr)
          · have hr := mt hlt.2 hc'
            rw [timer_fails _ _ hoff hs hc, timer_fails _ _ hoff hs hc']
            refine ⟨fun hn => ⟨iff_of_false hc hr, fun he => ?_⟩, fun hn => ⟨rfl, fun _ _ _ => ?_⟩⟩
            · have h3 := hn.2 mem rfl rfl
              omega
            · have h0 := hn.2 (by omega)
              omega
  · have hne : ∀ mem, e ≠ .timer mem := fun mem he => htimer ⟨mem, he⟩
    refine iff_of_true ⟨(portStep_other nrQueues pmt c c' hne).1, fun mem he => absurd he (hne mem)⟩ ?_
    cases e with
    | timer mem => exact absurd rfl (hne mem)
    | _ => exact True.intro

/-- What the counter rule rests on is kept where the counter is right. -/
theorem Round.Counts.next (nrQueues : Nat) {pmt : EdgxPreempt} {c c' : BitVec 8} {r : Round} {frames : Nat}
    (h : r.Counts pmt c' frames) (p : Nat) (e : Event) (hown : e.OwnCount pmt c r) :
    (portStep nrQueues (pmt, c) e).2.1 = (portStep nrQueues (pmt, c') e).2.1 ∧
    (r.next pmt e).Counts (portStep nrQueues (pmt, c') e).2.1 (portStep nrQueues (pmt, c') e).2.2
      (roundFrames p frames ((p, e), (portStep nrQueues (pmt, c) e).1)) := by
  obtain ⟨hcnt, hle, hframes, hoff0⟩ := h
  by_cases htimer : ∃ mem, e = .timer mem
  · obtain ⟨mem, rfl⟩ := htimer
    simp only [roundFrames, ne_eq, not_true_eq_false, if_false]
    cases hoff : pmt.timer.isNone with
    | true =>
      have ht0 := hoff0 (Option.isNone_iff_eq_none.1 hoff)
      simp only [timer_off nrQueues mem hoff, Round.next, hoff, if_true]
      exact ⟨trivial, hcnt, hle, by simp only [Bool.not_false, Bool.true_or, if_true]; omega, hoff0⟩
    | false =>
      cases hs : stopTimer pmt with
      | true =>
        simp only [timer_stopped nrQueues mem hoff hs, Round.next, hoff, hs, Bool.false_eq_true, if_false, if_true]
        exact ⟨trivial, rfl, by decide, rfl, fun _ => rfl⟩
      | false =>
        obtain ⟨hsame, -⟩ := hown hoff hs
        have hlt : c' < PMT_VERIFY_LIMIT ↔ r.tried < 3 := by
          rw [← hcnt, BitVec.lt_def]
          rfl
        by_cases hr : r.tried < 3
        · have hnext : r.next pmt (.timer mem) = { tried := r.tried + 1, lost := if mem then r.lost else r.lost + 1 } := by
            simp only [Round.next, hoff, hs, hr, Bool.false_eq_true, if_false, if_true]
          rw [hnext, timer_tries nrQueues mem hoff hs (hsame.2 hr), timer_tries nrQueues mem hoff hs (hlt.2 hr)]
          refine ⟨rfl, ?_, by change r.tried + 1 ≤ 3; omega, ?_, fun he => nomatch he⟩
          · change (c' + 1).toNat = r.tried + 1
            rw [BitVec.toNat_add, hcnt]
            exact Nat.mod_eq_of_lt (by change r.tried + 1 < 2 ^ 8; omega)
          · cases mem with
            | true =>
              change frames + 1 + r.lost = r.tried + 1
              omega
            | false =>
              change frames + (r.lost + 1) = r.tried + 1
              omega
        · have hnext : r.next pmt (.timer mem) = {} := by
            simp only [Round.next, hoff, hs, hr, Bool.false_eq_true, if_false]
          rw [hnext, timer_fails nrQueues mem hoff hs (mt hsame.1 hr), timer_fails nrQueues mem hoff hs (mt hlt.1 hr)]
          exact ⟨rfl, rfl, by decide, rfl, fun _ => rfl⟩
  · have hne : ∀ mem, e ≠ .timer mem := fun mem he => htimer ⟨mem, he⟩
    obtain ⟨-, hpmt, -⟩ := portStep_other nrQueues pmt c c' hne
    obtain ⟨-, -, hc⟩ := portStep_other nrQueues pmt c' c hne
    have hnext : r.next pmt e = r := by
      cases e with
      | timer mem => exact absurd rfl (hne mem)
      | _ => rfl
    have hfr : roundFrames p frames ((p, e), (portStep nrQueues (pmt, c) e).1) = frames := by
      cases e with
      | timer mem => exact absurd rfl (hne mem)
      | _ => rfl
    rw [hnext, hfr, hc]
    exact ⟨hpmt, hcnt, hle, hframes, fun ht => hoff0 (portStep_timer nrQueues hne ht)⟩

/-! ## Runs -/

/-- The ports together, each port alone, and the frames of the rounds. -/
structure Related (w : Rounds) (alone : Nat → Ports) (frames : Nat → Nat) : Prop where
  pmt : ∀ p, (alone p).pmt p = w.ports.pmt p
  counts : ∀ p, (w.round p).Counts (w.ports.pmt p) (alone p).verCnt (frames p)

theorem threeFrames_cons {frames : Nat → Nat} {o : (Nat × Event) × Out} {os : List ((Nat × Event) × Out)} :
    ThreeFrames frames (o :: os) ↔
      (∀ mem, o.1.2 = .timer mem → o.2.reportsFailure = true → frames o.1.1 = 3) ∧
      ThreeFrames (fun p => roundFrames p (frames p) o) os := by
  constructor
  · refine fun h => ⟨fun mem he hf => ?_, fun pre p mem out suf he hf => ?_⟩
    · exact h [] o.1.1 mem o.2 os (by rw [← he]; rfl) hf
    · exact h (o :: pre) p mem out suf (by rw [he]; rfl) hf
  · rintro ⟨h0, h⟩ pre p mem out suf he hf
    cases pre with
    | nil =>
      obtain ⟨rfl, rfl⟩ := List.cons.inj he
      exact h0 mem rfl hf
    | cons o' pre =>
      obtain ⟨rfl, rfl⟩ := List.cons.inj he
      exact h pre p mem out suf rfl hf

/-- One event: the port does what it does alone, if the counter is right, and the
others are not touched. -/
theorem related_step (nrQueues : Nat) {w : Rounds} {alone : Nat → Ports} {frames : Nat → Nat} (e : Nat × Event)
    (h : Related w alone frames) (hown : OwnCount w e) :
    Related (roundStep nrQueues w e).2 (Function.update alone e.1 (step nrQueues (alone e.1) e).2)
      (fun p => roundFrames p (frames p) (e, (step nrQueues w.ports e).1)) := by
  obtain ⟨p, e⟩ := e
  have hown' : e.OwnCount (w.ports.pmt p) w.ports.verCnt (w.round p) := hown
  obtain ⟨hpmt, hcounts⟩ := (h.counts p).next nrQueues p e hown'
  have halone : (step nrQueues (alone p) (p, e)).2.pmt p = (portStep nrQueues (w.ports.pmt p, (alone p).verCnt) e).2.1 := by
    rw [← h.pmt p]
    exact Function.update_self ..
  have hcnt : (step nrQueues (alone p) (p, e)).2.verCnt = (portStep nrQueues (w.ports.pmt p, (alone p).verCnt) e).2.2 := by
    rw [← h.pmt p]
    rfl
  have hw : (roundStep nrQueues w (p, e)).2.ports.pmt =
      Function.update w.ports.pmt p (portStep nrQueues (w.ports.pmt p, w.ports.verCnt) e).2.1 := rfl
  have hr : (roundStep nrQueues w (p, e)).2.round = Function.update w.round p ((w.round p).next (w.ports.pmt p) e) := rfl
  refine ⟨fun q => ?_, fun q => ?_⟩
  · rw [hw]
    rcases eq_or_ne q p with rfl | hne
    · rw [Function.update_self, Function.update_self, halone, hpmt]
    · rw [Function.update_of_ne hne, Function.update_of_ne hne]
      exact h.pmt q
  · rw [hw, hr]
    rcases eq_or_ne q p with rfl | hne
    · rw [Function.update_self, Function.update_self, Function.update_self, hcnt, hpmt]
      exact hcounts
    · have hfr : roundFrames q (frames q) ((p, e), (step nrQueues w.ports (p, e)).1) = frames q := by
        cases e with
        | timer mem => exact if_pos hne.symm
        | _ => rfl
      simp only [Function.update_of_ne hne, hfr]
      exact h.counts q

/-- The run of a port alone goes on only with its own events. -/
theorem sameAlone_cons (nrQueues : Nat) {s : Ports} {alone : Nat → Ports} (e : Nat × Event) (es : List (Nat × Event)) :
    (∀ p, (outs (step nrQueues) s (e :: es)).filter (fun o => o.1.1 == p) =
      outs (step nrQueues) (alone p) ((e :: es).filter fun e => e.1 == p)) ↔
    (step nrQueues s e).1 = (step nrQueues (alone e.1) e).1 ∧
    ∀ p, (outs (step nrQueues) (step nrQueues s e).2 es).filter (fun o => o.1.1 == p) =
      outs (step nrQueues) (Function.update alone e.1 (step nrQueues (alone e.1) e).2 p) (es.filter fun e => e.1 == p) := by
  have hself : ∀ p, e.1 = p →
      ((outs (step nrQueues) s (e :: es)).filter (fun o => o.1.1 == p) =
        outs (step nrQueues) (alone p) ((e :: es).filter fun e => e.1 == p) ↔
      (step nrQueues s e).1 = (step nrQueues (alone e.1) e).1 ∧
      (outs (step nrQueues) (step nrQueues s e).2 es).filter (fun o => o.1.1 == p) =
        outs (step nrQueues) (Function.update alone e.1 (step nrQueues (alone e.1) e).2 p) (es.filter fun e => e.1 == p)) := by
    rintro p rfl
    simp only [outs, List.filter_cons, beq_self_eq_true, if_true, Function.update_self, List.cons.injEq, Prod.mk.injEq,
      true_and]
  have hother : ∀ p, e.1 ≠ p →
      ((outs (step nrQueues) s (e :: es)).filter (fun o => o.1.1 == p) =
        outs (step nrQueues) (alone p) ((e :: es).filter fun e => e.1 == p) ↔
      (outs (step nrQueues) (step nrQueues s e).2 es).filter (fun o => o.1.1 == p) =
        outs (step nrQueues) (Function.update alone e.1 (step nrQueues (alone e.1) e).2 p) (es.filter fun e => e.1 == p)) := by
    intro p hne
    have hb : (e.1 == p) = false := beq_eq_false_iff_ne.2 hne
    simp only [outs, List.filter_cons, hb, Bool.false_eq_true, if_false, Function.update_of_ne hne.symm]
  constructor
  · refine fun h => ⟨((hself e.1 rfl).1 (h e.1)).1, fun p => ?_⟩
    by_cases hp : e.1 = p
    · exact ((hself p hp).1 (h p)).2
    · exact (hother p hp).1 (h p)
  · rintro ⟨h0, h⟩ p
    by_cases hp : e.1 = p
    · exact (hself p hp).2 ⟨h0, h p⟩
    · exact (hother p hp).2 (h p)

theorem aloneOk_run (nrQueues : Nat) {w : Rounds} {alone : Nat → Ports} {frames : Nat → Nat} (es : List (Nat × Event))
    (h : Related w alone frames) :
    ((∀ p, (outs (step nrQueues) w.ports es).filter (fun o => o.1.1 == p) =
        outs (step nrQueues) (alone p) (es.filter fun e => e.1 == p)) ∧
      ThreeFrames frames (outs (step nrQueues) w.ports es)) ↔
    Guarded (roundStep nrQueues) OwnCount w es := by
  induction es generalizing w alone frames with
  | nil => exact iff_of_true ⟨fun _ => rfl, fun pre _ _ _ _ he => by cases pre <;> exact nomatch he⟩ True.intro
  | cons e es ih =>
    have hstep : ((step nrQueues w.ports e).1 = (step nrQueues (alone e.1) e).1 ∧
        ∀ mem, e.2 = .timer mem → (step nrQueues w.ports e).1.reportsFailure = true → frames e.1 = 3) ↔ OwnCount w e := by
      have hport := portStep_own (c := w.ports.verCnt) nrQueues e.2 (h.counts e.1)
      have halone : (step nrQueues (alone e.1) e).1 = (portStep nrQueues (w.ports.pmt e.1, (alone e.1).verCnt) e.2).1 := by
        rw [← h.pmt e.1]
        rfl
      rw [halone]
      exact hport
    rw [sameAlone_cons, outs, threeFrames_cons, and_and_and_comm]
    constructor
    · rintro ⟨hnow, hlater⟩
      have hown := hstep.1 hnow
      exact ⟨hown, (ih (related_step nrQueues e h hown)).1 hlater⟩
    · rintro ⟨hown, hlater⟩
      exact ⟨hstep.2 hown, (ih (related_step nrQueues e h hown)).2 hlater⟩

/-- **Ports do not interfere, and each round has three frames, exactly in the
runs in which the counter is right whenever a timer expires.** -/
theorem aloneOk_iff (nrQueues : Nat) (link : Nat → Bool) (es : List (Nat × Event)) :
    (SameAlone nrQueues link es ∧ ThreeFrames (fun _ => 0) (outs (step nrQueues) (probed link) es)) ↔
      Guarded (roundStep nrQueues) OwnCount { ports := probed link } es := by
  have hstart : Related { ports := probed link } (fun _ => probed link) (fun _ => 0) :=
    ⟨fun _ => rfl, fun _ => ⟨rfl, Nat.zero_le 3, rfl, fun _ => rfl⟩⟩
  exact aloneOk_run nrQueues es hstart

/-- Two ports verify at a time. Each has sent one frame when the second of port 0
brings the counter to its limit, and port 1 reports failure. -/
def overlappingRun : List (Nat × Event) :=
  [(0, .enableTx (some true)), (1, .enableTx (some true)), (0, .timer true), (1, .timer true), (0, .timer true),
    (1, .timer true)]

theorem not_aloneOk_overlapping :
    ¬ (SameAlone 8 (fun _ => true) overlappingRun ∧
      ThreeFrames (fun _ => 0) (outs (step 8) (probed fun _ => true) overlappingRun)) := fun h =>
  absurd (h.2 (outs (step 8) (probed fun _ => true) (overlappingRun.take 5)) 1 true
    { restart := true, verState := .failed } [] rfl rfl) (by decide)

end TsnSwitch.Preempt
