/-
Double buffering of the schedule tables. The driver writes only a table that
the hardware does not use, at most one table is submitted and only while the
machine is PENDING, and `op_tabs` describes what the hardware executes.

This holds in every run of the shared scheduler, and in the runs of the FSC
variant in which each submission finds a free table
(`buffersKept_of_finds`): the FSC variant uses the result of the lookup as
an index without looking whether it is an error.
-/
import TsnSwitch.Sched.Delayed
import TsnSwitch.Sched.Submit

namespace TsnSwitch.Sched

open Lib

/-- Table `t` and its copy in `op_tabs` are those of the admin table `a`, as
it was last submitted to `t`. -/
structure Executes (u : User) (com : Com) (s : EdgxSched) (t : Tab) (a : SchedTable) : Prop where
  submitted : s.submitted t.idx = some a
  opTab : s.opTabs t.idx = { a with entries := none }
  cycle : (s.hw.tabs t).cycNsec = a.cycleReg
  rows : ∃ rows, (s.hw.tabs t).rows = applyRows (u.plan com a.list) rows

/-- The state of the two tables between calls. -/
structure DoubleBuffered (u : User) (com : Com) (s : EdgxSched) : Prop where
  wroteInUse : s.hw.wroteInUse = false
  stray : s.hw.stray = false
  pending : ∀ t, (s.hw.tabs t).canUse = true → s.state = .pending
  one : ∀ t t', (s.hw.tabs t).canUse = true → (s.hw.tabs t').canUse = true → t = t'
  executes : ∀ t, (s.hw.tabs t).inUse = true → ∃ a, Executes u com s t a
  outside : ∀ i, tab? i = none → s.opTabs i = {}

/-- A step that asks for a table while both are in use fails, and touches
neither table. -/
def FailsClean (u : User) (com : Com) (s : EdgxSched) (op : Op) : Prop :=
  ∀ s₁, op.submits u.variant com s = some s₁ → (edgxSchedGetFreeTab s₁.hw).1 < 0 →
    let r := step u.variant com s op
    r.1 ≠ 0 ∧ r.2.opTabs = s.opTabs ∧ NoCan r.2.hw ∧
      (∀ t, (r.2.hw.tabs t).content = (s.hw.tabs t).content) ∧ r.2.hw.stray = s.hw.stray

/-- What double buffering says about a run. -/
structure BuffersKept (u : User) (com : Com) (s : EdgxSched) (ops : List Op) : Prop where
  state : ∀ pre suf, ops = pre ++ suf → DoubleBuffered u com (after (step u.variant com) s pre)
  fails : ∀ pre op suf, ops = pre ++ op :: suf → FailsClean u com (after (step u.variant com) s pre) op

/-- A submission of the FSC variant finds a free table. -/
def Finds (u : User) (com : Com) (s : EdgxSched) (op : Op) : Prop :=
  u = .fsc → ∀ s₁ ∈ op.submits u.variant com s, 0 ≤ (edgxSchedGetFreeTab s₁.hw).1

instance (u : User) (com : Com) (s : EdgxSched) (op : Op) : Decidable (Finds u com s op) := by
  unfold Finds; infer_instance

/-- The invariant: `DoubleBuffered` with the description holding from the
submission on. -/
structure BufInv (u : User) (com : Com) (s : EdgxSched) : Prop where
  wroteInUse : s.hw.wroteInUse = false
  stray : s.hw.stray = false
  noCan : s.state ≠ .pending → NoCan s.hw
  one : ∀ t t', (s.hw.tabs t).canUse = true → (s.hw.tabs t').canUse = true → t = t'
  executes : ∀ t, (s.hw.tabs t).live = true → ∃ a, Executes u com s t a
  outside : ∀ i, tab? i = none → s.opTabs i = {}
  armed : ArmedInv s

namespace BufInv

variable {u : User} {com : Com} {s : EdgxSched}

theorem settled (h : BufInv u com s) : Settled s := ⟨h.noCan, fun ha => (h.armed ha).1⟩

theorem doubleBuffered (h : BufInv u com s) : DoubleBuffered u com s where
  wroteInUse := h.wroteInUse
  stray := h.stray
  pending t ht := by
    by_contra hne
    exact Bool.false_ne_true ((h.noCan hne t).symm.trans ht)
  one := h.one
  executes t ht := h.executes t (by simp [HwTab.live, ht])
  outside := h.outside

theorem init (u : User) (com : Com) (gateStates : BitVec 8) : BufInv u com (init gateStates) where
  wroteInUse := rfl
  stray := rfl
  noCan _ _ := rfl
  one _ _ h := nomatch h
  executes _ h := nomatch h
  outside _ _ := rfl
  armed h := nomatch h

end BufInv

section Executes

variable {u : User} {com : Com} {s s' : EdgxSched} {t : Tab} {a : SchedTable}

/-- What is executed depends on the copy in `op_tabs` and the table's
contents only. -/
theorem Executes.congr (h : Executes u com s t a) (hs : s'.submitted t.idx = s.submitted t.idx)
    (ho : s'.opTabs t.idx = s.opTabs t.idx) (hc : (s'.hw.tabs t).content = (s.hw.tabs t).content) :
    Executes u com s' t a := by
  simp only [HwTab.content, Prod.mk.injEq] at hc
  exact ⟨hs.trans h.submitted, ho.trans h.opTab, hc.1.trans h.cycle, by rw [hc.2]; exact h.rows⟩

/-- A step that does not submit keeps the invariant. -/
theorem BufInv.passes (h : BufInv u com s) (hp : Passes s s') (ha : ArmedInv s') : BufInv u com s' where
  wroteInUse := hp.quiet.wroteInUse.trans h.wroteInUse
  stray := hp.quiet.stray.trans h.stray
  noCan := hp.noCan
  one t t' ht ht' := h.one t t' (hp.quiet.canUse t ht) (hp.quiet.canUse t' ht')
  executes t ht := by
    obtain ⟨a, he⟩ := h.executes t (hp.quiet.live t ht)
    exact ⟨a, he.congr (by rw [hp.submitted]) (by rw [hp.opTabs]) (hp.quiet.content t)⟩
  outside i hi := by rw [hp.opTabs]; exact h.outside i hi
  armed := ha

/-- The table a submission took was not in use, so nothing was executing it. -/
theorem Submitted.not_live {plan : Plan} {r : Int × EdgxSched} {hw : Hw} (h : Submitted plan s r t hw) :
    (hw.tabs t).live = false := by
  simp [HwTab.live, h.free.free, h.free.noCan t]

end Executes

section Submits

variable {u : User} {com : Com} {s s₁ : EdgxSched}

/-- A submission that fails, after it may have written rows of the free
table. -/
theorem BufInv.failed (h : BufInv u com s) (hr : Ready s s₁) {c : Int × EdgxSched} {t : Tab} {hw : Hw}
    (hc : Submitted (u.plan com s₁.adminTab.list) s₁ c t hw) (hne : c.1 ≠ 0)
    (ha : ArmedInv (afterSubmit c).2) : BufInv u com (afterSubmit c).2 := by
  obtain ⟨hsub, done, _, hw'⟩ := hc.failed hne
  have hq := hr.quiet.trans hc.quiet
  have hres : afterSubmit c = (c.1, { c.2 with confChange := false }) := by rw [afterSubmit, if_neg hne]
  -- table `t` keeps its flags, the other one is as it was
  have hcan : NoCan c.2.hw := fun v => by
    rw [hw'.tabs]
    by_cases hv : v = t
    · subst hv; simpa using hc.free.noCan v
    · simpa [hv] using hc.free.noCan v
  rw [hres] at ha ⊢
  refine ⟨hw'.wroteInUse.trans (hq.wroteInUse.trans h.wroteInUse), hw'.stray.trans (hq.stray.trans h.stray),
    fun _ => hcan, fun v _ hv => absurd hv (by rw [hcan v]; exact Bool.false_ne_true), fun v hv => ?_,
    fun i hi => ?_, ha⟩
  · have hvt : v ≠ t := by
      rintro rfl
      change (c.2.hw.tabs v).live = true at hv
      rw [hw'.tabs, Function.update_self] at hv
      exact Bool.false_ne_true (hc.not_live.symm.trans hv)
    have htab : c.2.hw.tabs v = hw.tabs v := by rw [hw'.tabs, Function.update_of_ne hvt]
    have hlive : (s.hw.tabs v).live = true := hq.live v (by rw [← htab]; exact hv)
    obtain ⟨a, he⟩ := h.executes v hlive
    refine ⟨a, he.congr ?_ ?_ ?_⟩
    · rw [hsub, hr.submitted]
    · dsimp only
      rw [hc.opTabs, Function.update_of_ne fun hi => hvt (Tab.idx_inj hi), hr.opTabs]
    · dsimp only
      rw [htab]; exact hq.content v
  · have hi' : i ≠ t.idx := by rintro rfl; simp at hi
    dsimp only
    rw [hc.opTabs, Function.update_of_ne hi', hr.opTabs]
    exact h.outside i hi

/-- A submission that succeeds. -/
theorem BufInv.done (h : BufInv u com s) (hr : Ready s s₁) {c : Int × EdgxSched} {t : Tab} {hw : Hw}
    (hc : Submitted (u.plan com s₁.adminTab.list) s₁ c t hw) (h0 : c.1 = 0)
    (ha : ArmedInv (afterSubmit c).2) : BufInv u com (afterSubmit c).2 := by
  obtain ⟨hsub, tab, hw', hp⟩ := hc.done h0
  have hq := hr.quiet.trans hc.quiet
  have hres : afterSubmit c = (c.1, { c.2 with state := .pending, confChange := false }) := by
    rw [afterSubmit, if_pos h0]
  have hother : ∀ v, v ≠ t → c.2.hw.tabs v = hw.tabs v := fun v hv => by
    rw [hw'.tabs, Function.update_of_ne hv]
  have hone : ∀ v, (c.2.hw.tabs v).canUse = true → v = t := fun v hv => by
    by_contra hvt
    rw [hother v hvt, hc.free.noCan v] at hv
    exact Bool.false_ne_true hv
  rw [hres] at ha ⊢
  refine ⟨hw'.wroteInUse.trans (hq.wroteInUse.trans h.wroteInUse), hw'.stray.trans (hq.stray.trans h.stray),
    fun hne => absurd rfl hne, fun v v' hv hv' => (hone v hv).trans (hone v' hv').symm, fun v hv => ?_,
    fun i hi => ?_, ha⟩
  · by_cases hvt : v = t
    · subst hvt
      have hcont := hp.content
      simp only [HwTab.content, Prod.mk.injEq] at hcont
      have htab : c.2.hw.tabs v = tab := by rw [hw'.tabs, Function.update_self]
      refine ⟨s₁.adminTab, ?_, ?_, ?_, ?_⟩
      · dsimp only; rw [hsub, Function.update_self]
      · dsimp only; rw [hc.opTabs, Function.update_self]
      · dsimp only; rw [htab]; exact hcont.1
      · dsimp only; rw [htab]; exact ⟨_, hcont.2⟩
    · have hlive : (s.hw.tabs v).live = true := hq.live v (by rw [← hother v hvt]; exact hv)
      obtain ⟨a, he⟩ := h.executes v hlive
      have hidx : v.idx ≠ t.idx := fun hi => hvt (Tab.idx_inj hi)
      refine ⟨a, he.congr ?_ ?_ ?_⟩
      · dsimp only; rw [hsub, Function.update_of_ne hidx, hr.submitted]
      · dsimp only; rw [hc.opTabs, Function.update_of_ne hidx, hr.opTabs]
      · dsimp only; rw [hother v hvt]; exact hq.content v
  · have hi' : i ≠ t.idx := by rintro rfl; simp at hi
    dsimp only
    rw [hc.opTabs, Function.update_of_ne hi', hr.opTabs]
    exact h.outside i hi

/-- Every step keeps the invariant, if a submission of the FSC variant finds
a free table. -/
theorem BufInv.step (h : BufInv u com s) (op : Op) (hf : Finds u com s op) :
    BufInv u com (step u.variant com s op).2 := by
  have ha := armedInv_step u.lawful com op h.armed
  rcases step_submits u.lawful com h.settled op with ⟨_, hp⟩ | ⟨s₁, hsub, hr, heq⟩
  · exact h.passes hp ha
  · rw [heq] at ha ⊢
    rcases configChange_cases u com hr.noCan (fun hu => hf hu s₁ hsub) with ⟨hne, hw, hq, hc⟩ | ⟨t, hw, hc⟩
    · refine h.passes ?_ ha
      rw [afterSubmit, if_neg hne, hc]
      exact ⟨hr.quiet.trans hq, hr.opTabs, hr.submitted, fun _ => hr.noCan.quieter hq⟩
    · by_cases h0 : (u.variant.configChange com s₁).1 = 0
      · exact h.done hr hc h0 ha
      · exact h.failed hr hc h0 ha

end Submits

/-- The shared scheduler gives up when it finds no table. -/
theorem configChange_none (prepareConfig : Com → Hw → List TabEntry → Int × Hw) (com : Com) {s : EdgxSched}
    (h : (edgxSchedGetFreeTab s.hw).1 < 0) :
    edgxSchedConfigChange prepareConfig com s =
      ((edgxSchedGetFreeTab s.hw).1, { s with hw := (edgxSchedGetFreeTab s.hw).2 }) := by
  simp only [edgxSchedConfigChange, if_pos h]

theorem failsClean_of_finds {u : User} {com : Com} {s : EdgxSched} (h : Settled s) {op : Op}
    (hf : Finds u com s op) : FailsClean u com s op := by
  intro s₁ hs hneg
  rcases step_submits u.lawful com h op with ⟨hn, _⟩ | ⟨s₂, hs', hr, heq⟩
  · rw [hs] at hn; cases hn
  rw [hs] at hs'
  cases hs'
  have hc : u.variant.configChange com s₁ =
      ((edgxSchedGetFreeTab s₁.hw).1, { s₁ with hw := (edgxSchedGetFreeTab s₁.hw).2 }) := by
    cases u with
    | portGates => exact configChange_none edgxStPrepareConfig com hneg
    | streamGates => exact configChange_none edgxPsfpGtPrepareConfig com hneg
    | fsc => exact absurd hneg (Int.not_lt.2 (hf rfl s₁ hs))
  have hq := Quieter.getFreeTab s₁.hw
  dsimp only
  rw [heq, hc, afterSubmit, if_neg (Int.ne_of_lt hneg)]
  exact ⟨Int.ne_of_lt hneg, hr.opTabs, hr.noCan.quieter hq, fun t => (hr.quiet.trans hq).content t,
    (hr.quiet.trans hq).stray⟩

/-- **Double buffering.** It is kept in every run in which the submissions of
the FSC variant find a free table; the shared scheduler needs no condition. -/
theorem buffersKept_of_finds (u : User) (com : Com) (gateStates : BitVec 8) {ops : List Op}
    (h : Guarded (step u.variant com) (Finds u com) (init gateStates) ops) :
    BuffersKept u com (init gateStates) ops := by
  have hinv : ∀ pre, Guarded (step u.variant com) (Finds u com) (init gateStates) pre →
      BufInv u com (after (step u.variant com) (init gateStates) pre) := fun pre hp =>
    hp.inv_after (BufInv.init u com gateStates) fun s op hs hf => hs.step op hf
  refine ⟨?_, ?_⟩
  · rintro pre suf rfl
    exact (hinv pre h.of_append).doubleBuffered
  · rintro pre op suf rfl
    exact failsClean_of_finds (hinv pre h.of_append).settled h.at_step

/-- A list, a cycle of a millisecond, an enabled gate, and a first change
that the hardware has taken. -/
def runningOps : List Op :=
  [.setEntries 0 [⟨3200, 0, 0xff⟩] true, .setCtrlListLen 1, .setCycleTime ⟨1, 1000⟩, .setBaseTime ⟨10, 0⟩,
    .setGateEnabled true {}, .setConfigChange true {}, .hwEvents [.switch 0 none], .cctHandler {}]

theorem buffersKept_of_finds_runningOps : BuffersKept .fsc someCom (init 0xff)
    (runningOps ++ [.setConfigChange true {}, .hwEvents [.switch 1 none, .retire 0], .setConfigChange true {}]) :=
  buffersKept_of_finds .fsc someCom 0xff (by decide)

/-- The hardware has switched to table 1 and not yet retired table 0 when the
next change is requested: the FSC variant writes rows of table 0. -/
theorem not_buffersKept_both_in_use : ¬ BuffersKept .fsc someCom (init 0xff)
    (runningOps ++ [.setConfigChange true {}, .hwEvents [.switch 1 none], .setConfigChange true {}]) := fun h =>
  absurd (h.state _ [] (List.append_nil _).symm).wroteInUse (by decide)

end TsnSwitch.Sched
