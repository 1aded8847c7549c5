/-
When a port is verified. Preemption is enabled, verification is not disabled,
the link is up and a verify frame was sent since: every handler sees to it but
the one for received frames, which takes any response (`verifiedOk_iff`). The
queue register always follows (`regOk_step`).
-/
import TsnSwitch.Preempt.Machine

namespace TsnSwitch.Preempt

open Lib

/-- Preemption is enabled, verification is not disabled, and the link is up. -/
def Verifying (pmt : EdgxPreempt) : Bool := pmt.pEnable && !pmt.disableVer && !pmt.linkFail

/-- A port with whether a verify frame was sent since it is `Verifying`. -/
def VerifiedOk (pmt : EdgxPreempt) (sent : Bool) : Prop := pmt.verified = true → Verifying pmt = true ∧ sent = true

/-- The register is the configured status while preemption is active, and zero
otherwise. -/
def RegOk (pmt : EdgxPreempt) : Prop := pmt.txPree0 = if preemptCalcPActive pmt then pmt.pmtStatus else 0

/-- The ports with the history of their verify frames. -/
structure Watch where
  ports : Ports
  sent : Nat → Bool := fun _ => false

def sentNow (pmt : EdgxPreempt) (sent : Bool) (out : Out) : Bool :=
  Verifying pmt && (sent || out.frame == some COM_FLAG_SMD_V)

def watchStep (nrQueues : Nat) (w : Watch) (e : Nat × Event) : Out × Watch :=
  let (out, ports) := step nrQueues w.ports e
  (out, { ports, sent := Function.update w.sent e.1 (sentNow (ports.pmt e.1) (w.sent e.1) out) })

/-- A response is received only after a verify frame, with verification still
under way. -/
def Event.Solicited (pmt : EdgxPreempt) (sent : Bool) : Event → Prop
  | .rcv flags _ => flags = COM_FLAG_SMD_R → Verifying pmt = true ∧ sent = true
  | _ => True

/-! ## The handlers -/

/-- The parts of a port on which the verification depends. -/
structure SameFlags (pmt pmt' : EdgxPreempt) : Prop where
  pEnable : pmt'.pEnable = pmt.pEnable
  disableVer : pmt'.disableVer = pmt.disableVer
  linkFail : pmt'.linkFail = pmt.linkFail
  verified : pmt'.verified = pmt.verified

theorem SameFlags.verifying {pmt pmt' : EdgxPreempt} (h : SameFlags pmt pmt') : Verifying pmt' = Verifying pmt := by
  unfold Verifying
  rw [h.pEnable, h.disableVer, h.linkFail]

theorem setTx_same (pmt : EdgxPreempt) : SameFlags pmt (preemptSetTx pmt) := by
  unfold preemptSetTx
  split <;> exact ⟨rfl, rfl, rfl, rfl⟩

theorem setTx_regOk (pmt : EdgxPreempt) : RegOk (preemptSetTx pmt) := by
  unfold preemptSetTx RegOk
  cases h : preemptCalcPActive pmt with
  | false =>
    have h' : preemptCalcPActive { pmt with txPree0 := 0 } = false := h
    simp only [Bool.not_false, if_true]
    rw [h']
    rfl
  | true =>
    have h' : preemptCalcPActive { pmt with txPree0 := pmt.pmtStatus } = true := h
    simp only [Bool.not_true, Bool.false_eq_true, if_false]
    rw [h']
    rfl

theorem startVer_same (pmt : EdgxPreempt) : SameFlags pmt (preemptStartVer pmt) := by
  unfold preemptStartVer
  split <;> exact ⟨rfl, rfl, rfl, rfl⟩

theorem smSwitch_same (pmt : EdgxPreempt) : SameFlags pmt (smSwitch pmt) := by
  unfold smSwitch
  dsimp only
  split
  · exact ⟨rfl, rfl, rfl, rfl⟩
  · split
    · exact ⟨rfl, rfl, rfl, rfl⟩
    · split
      · exact ⟨rfl, rfl, rfl, rfl⟩
      · split
        · exact startVer_same pmt
        · exact ⟨rfl, rfl, rfl, rfl⟩

theorem SameFlags.trans {pmt pmt' pmt'' : EdgxPreempt} (h : SameFlags pmt pmt') (h' : SameFlags pmt' pmt'') :
    SameFlags pmt pmt'' where
  pEnable := h'.pEnable.trans h.pEnable
  disableVer := h'.disableVer.trans h.disableVer
  linkFail := h'.linkFail.trans h.linkFail
  verified := h'.verified.trans h.verified

theorem updateSm_same (pmt : EdgxPreempt) : SameFlags pmt (preemptUpdateSm pmt) :=
  (smSwitch_same pmt).trans (setTx_same _)

theorem updateSm_regOk (pmt : EdgxPreempt) : RegOk (preemptUpdateSm pmt) := setTx_regOk _

/-- The register depends on what preemption is active for, and on the status. -/
theorem RegOk.keep {pmt pmt' : EdgxPreempt} (h : RegOk pmt) (hs : SameFlags pmt pmt') (hr : pmt'.txPree0 = pmt.txPree0)
    (ht : pmt'.pmtStatus = pmt.pmtStatus) : RegOk pmt' := by
  unfold RegOk preemptCalcPActive at h ⊢
  rw [hr, h, hs.pEnable, hs.verified, hs.disableVer, ht]

/-- **The register rule.** -/
theorem regOk_step (nrQueues : Nat) {s : EdgxPreempt × BitVec 8} (e : Event) (h : RegOk s.1) :
    RegOk (portStep nrQueues s e).2.1 := by
  cases e with
  | verDisTx disableVer => exact updateSm_regOk _
  | enableTx pEnable => exact updateSm_regOk _
  | verTime verTime =>
    simp only [portStep, verTimeStore]
    split
    · exact h
    · split
      · exact h
      · exact h.keep ⟨rfl, rfl, rfl, rfl⟩ rfl rfl
  | preemptStatus idx val =>
    simp only [portStep, framePreemptStatusWrite]
    split
    · exact h
    · exact setTx_regOk _
  | linkChng link => exact updateSm_regOk _
  | timer mem =>
    simp only [portStep]
    split
    · exact h
    · simp only [preemptVerificationFn]
      split
      · exact h.keep ⟨rfl, rfl, rfl, rfl⟩ rfl rfl
      · rename_i hstop
        split
        · exact h.keep ⟨rfl, rfl, rfl, rfl⟩ rfl rfl
        · have hver : s.1.verified = false := by simp_all [stopTimer]
          exact h.keep ⟨rfl, rfl, rfl, hver.symm⟩ rfl rfl
  | rcv flags mem =>
    simp only [portStep, edgxPreemptRcv]
    split
    · exact h
    · split
      · exact updateSm_regOk _
      · exact h

theorem VerifiedOk.keep {pmt pmt' : EdgxPreempt} {sent : Bool} (h : VerifiedOk pmt sent) (hs : SameFlags pmt pmt')
    (out : Out) : VerifiedOk pmt' (sentNow pmt' sent out) := by
  intro hv
  rw [hs.verified] at hv
  obtain ⟨hon, rfl⟩ := h hv
  unfold sentNow
  rw [hs.verifying, hon]
  exact ⟨rfl, rfl⟩

/-- A write or a link event takes the result away where it ends what the result
rests on. -/
theorem VerifiedOk.withdraw {pmt pmt' p : EdgxPreempt} {sent : Bool} (h : VerifiedOk pmt sent) (hs : SameFlags p pmt')
    (out : Out) (hp : p.verified = true → pmt.verified = true ∧ (Verifying pmt = true → Verifying p = true)) :
    VerifiedOk pmt' (sentNow pmt' sent out) := by
  intro hv
  rw [hs.verified] at hv
  obtain ⟨hver, hon⟩ := hp hv
  obtain ⟨honp, rfl⟩ := h hver
  unfold sentNow
  rw [hs.verifying, hon honp]
  exact ⟨rfl, rfl⟩

/-- **Only a response can leave a port wrongly verified.** -/
theorem verifiedOk_step (nrQueues : Nat) {s : EdgxPreempt × BitVec 8} {sent : Bool} (e : Event) (h : VerifiedOk s.1 sent) :
    VerifiedOk (portStep nrQueues s e).2.1 (sentNow (portStep nrQueues s e).2.1 sent (portStep nrQueues s e).1) ↔
      e.Solicited s.1 sent := by
  cases e with
  | verDisTx disableVer =>
    refine iff_of_true ?_ True.intro
    refine h.withdraw (updateSm_same _) _ ?_
    generalize disableVer.getD s.1.disableVer = d
    cases d <;> simp +contextual [Verifying]
  | enableTx pEnable =>
    refine iff_of_true ?_ True.intro
    refine h.withdraw (updateSm_same _) _ ?_
    generalize pEnable.getD s.1.pEnable = d
    cases d <;> simp +contextual [Verifying]
  | verTime verTime =>
    refine iff_of_true (h.keep ?_ _) True.intro
    simp only [portStep, verTimeStore]
    split
    · exact ⟨rfl, rfl, rfl, rfl⟩
    · split <;> exact ⟨rfl, rfl, rfl, rfl⟩
  | preemptStatus idx val =>
    refine iff_of_true (h.keep ?_ _) True.intro
    simp only [portStep, framePreemptStatusWrite]
    split
    · exact ⟨rfl, rfl, rfl, rfl⟩
    · have hs := setTx_same
        { s.1 with pmtStatus := if val = PMT_PREEMPT then s.1.pmtStatus ||| 1#16 <<< idx else s.1.pmtStatus &&& ~~~(1#16 <<< idx) }
      exact ⟨hs.pEnable, hs.disableVer, hs.linkFail, hs.verified⟩
  | linkChng link =>
    refine iff_of_true ?_ True.intro
    refine h.withdraw (updateSm_same _) _ ?_
    cases link <;> simp +contextual [Verifying]
  | timer mem =>
    refine iff_of_true (h.keep ?_ _) True.intro
    simp only [portStep]
    split
    · exact ⟨rfl, rfl, rfl, rfl⟩
    · simp only [preemptVerificationFn]
      split
      · exact ⟨rfl, rfl, rfl, rfl⟩
      · rename_i hstop
        split
        · exact ⟨rfl, rfl, rfl, rfl⟩
        · have hver : s.1.verified = false := by simp_all [stopTimer]
          exact ⟨rfl, rfl, rfl, hver.symm⟩
  | rcv flags mem =>
    simp only [portStep, edgxPreemptRcv, Event.Solicited]
    by_cases hr : flags = COM_FLAG_SMD_R
    · subst hr
      have hne : COM_FLAG_SMD_R ≠ COM_FLAG_SMD_V := by decide
      simp only [if_neg hne, if_true, forall_const]
      generalize hp : ({ s.1 with verified := true } : EdgxPreempt) = p
      have hs := updateSm_same p
      have hver : p.verified = true := by rw [← hp]
      have hon : Verifying p = Verifying s.1 := by rw [← hp]; rfl
      unfold VerifiedOk sentNow
      rw [hs.verified, hs.verifying, hver, hon]
      simp
    · refine iff_of_true ?_ fun he => absurd he hr
      split
      · exact h.keep ⟨rfl, rfl, rfl, rfl⟩ _
      · exact h.keep ⟨rfl, rfl, rfl, rfl⟩ _

/-! ## Runs -/

/-- Every port is as it should be. -/
def AllOk (w : Watch) : Prop := ∀ p, VerifiedOk (w.ports.pmt p) (w.sent p) ∧ RegOk (w.ports.pmt p)

def Solicited (w : Watch) (e : Nat × Event) : Prop := e.2.Solicited (w.ports.pmt e.1) (w.sent e.1)

theorem watchStep_port (nrQueues : Nat) (w : Watch) (e : Nat × Event) :
    let r := portStep nrQueues (w.ports.pmt e.1, w.ports.verCnt) e.2
    (watchStep nrQueues w e).2.ports.pmt = Function.update w.ports.pmt e.1 r.2.1 ∧
    (watchStep nrQueues w e).2.sent = Function.update w.sent e.1 (sentNow r.2.1 (w.sent e.1) r.1) := by
  refine ⟨rfl, ?_⟩
  simp only [watchStep, step, Function.update_self]

theorem allOk_step (nrQueues : Nat) {w : Watch} (e : Nat × Event) (h : AllOk w) :
    AllOk (watchStep nrQueues w e).2 ↔ Solicited w e := by
  obtain ⟨hp, hs⟩ := watchStep_port nrQueues w e
  unfold AllOk Solicited
  rw [hp, hs, ← verifiedOk_step nrQueues (s := (w.ports.pmt e.1, w.ports.verCnt)) e.2 (h e.1).1]
  refine ⟨fun hall => ?_, fun hver p => ?_⟩
  · have := (hall e.1).1
    rwa [Function.update_self, Function.update_self] at this
  · rcases eq_or_ne p e.1 with rfl | hne
    · rw [Function.update_self, Function.update_self]
      exact ⟨hver, regOk_step nrQueues e.2 (h e.1).2⟩
    · rw [Function.update_of_ne hne, Function.update_of_ne hne]
      exact h p

def watched (link : Nat → Bool) : Watch := { ports := probed link }

theorem watched_ok (link : Nat → Bool) : AllOk (watched link) := fun p =>
  ⟨fun h => absurd ((setTx_same { linkFail := !link p }).verified.symm.trans h) Bool.false_ne_true, setTx_regOk _⟩

/-- **Verification: in every state of a run each port is verified only with a
verify frame sent since preemption is enabled, verification is not disabled and
the link is up, and the register follows, exactly if all responses that are
received are solicited.** -/
theorem verifiedOk_iff (nrQueues : Nat) (link : Nat → Bool) (es : List (Nat × Event)) :
    (∀ pre suf, es = pre ++ suf → AllOk (after (watchStep nrQueues) (watched link) pre)) ↔
      Guarded (watchStep nrQueues) Solicited (watched link) es := by
  refine (and_iff_left fun _ _ => True.intro).symm.trans
    (holds_iff_guarded (I := AllOk) (J := fun _ => True) (G := fun _ => True) (fun _ _ _ => True.intro)
      (fun w e _ h => (and_iff_left True.intro).trans (allOk_step nrQueues e h)) True.intro (watched_ok link) es)

/-- A response on a port on which preemption is not even enabled. -/
theorem not_verifiedOk_unsolicited :
    ¬ ∀ pre suf, [(0, Event.rcv COM_FLAG_SMD_R true)] = pre ++ suf →
      AllOk (after (watchStep 8) (watched fun _ => true) pre) := fun h =>
  absurd ((h [(0, .rcv COM_FLAG_SMD_R true)] [] rfl 0).1 (by decide)).1 (by decide)

end TsnSwitch.Preempt
