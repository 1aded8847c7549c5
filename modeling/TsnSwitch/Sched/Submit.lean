/-
What a submission does, for all three users of the state machine
(`Submitted`): it copies the admin table into `op_tabs`, writes its plan into
the rows of one free table and, if all went well, the cycle and start time,
and sets CAN_USE. The shared scheduler fails without touching anything when
both tables are in use; the FSC variant does not look.
-/
import TsnSwitch.Sched.Rows
import TsnSwitch.Sched.Steps

namespace TsnSwitch.Sched

/-! ## Registers of a free table -/

theorem Free.of_update {hw hw' : Hw} {t : Tab} (h : Free hw t) {tab : HwTab}
    (ht : hw'.tabs = Function.update hw.tabs t tab) (hc : tab.canUse = false) (hu : tab.inUse = false) :
    Free hw' t := by
  refine ⟨fun u => ?_, by rw [ht, Function.update_self]; exact hu⟩
  rw [ht]
  by_cases hut : u = t
  · rw [hut, Function.update_self]; exact hc
  · rw [Function.update_of_ne hut]; exact h.noCan u

/-- From `hw` to `hw'` only the free table `t` was written. -/
structure Wrote (hw hw' : Hw) (t : Tab) (tab : HwTab) : Prop where
  tabs : hw'.tabs = Function.update hw.tabs t tab
  wroteInUse : hw'.wroteInUse = hw.wroteInUse
  stray : hw'.stray = hw.stray

theorem Wrote.trans {hw hw' hw'' : Hw} {t : Tab} {tab tab' : HwTab} (h : Wrote hw hw' t tab)
    (h' : Wrote hw' hw'' t tab') : Wrote hw hw'' t tab' := by
  refine ⟨?_, h'.wroteInUse.trans h.wroteInUse, h'.stray.trans h.stray⟩
  rw [h'.tabs, h.tabs, Function.update_idem]

theorem wrTime_free {hw : Hw} {t : Tab} (h : Free hw t) (f : HwTab → HwTab) :
    Wrote hw (hw.wrTime t.idx f) t (f (hw.tabs t)) := by
  simp only [Hw.wrTime, tab?_idx]
  refine ⟨by dsimp only; rw [h.tick], ?_, tick_stray hw⟩
  dsimp only
  rw [h.tick, h.free, Bool.or_false, tick_wroteInUse]

theorem Free.wrTime {hw : Hw} {t : Tab} (h : Free hw t) {f : HwTab → HwTab}
    (hc : ∀ tab, (f tab).canUse = tab.canUse) (hu : ∀ tab, (f tab).inUse = tab.inUse) :
    Free (hw.wrTime t.idx f) t :=
  h.of_update (wrTime_free h f).tabs ((hc _).trans (h.noCan t)) ((hu _).trans h.free)

/-- A write that leaves the flags alone can be followed by the next one. -/
theorem Free.write {hw : Hw} {t : Tab} (h : Free hw t) (f : HwTab → HwTab)
    (hc : ∀ tab, (f tab).canUse = tab.canUse) (hu : ∀ tab, (f tab).inUse = tab.inUse) :
    Wrote hw (hw.wrTime t.idx f) t (f (hw.tabs t)) ∧ Free (hw.wrTime t.idx f) t :=
  ⟨wrTime_free h f, h.wrTime hc hu⟩

theorem Free.tick_free {hw : Hw} {t : Tab} (h : Free hw t) : Free hw.tick t :=
  ⟨fun u => by rw [h.tick]; exact h.noCan u, by rw [h.tick]; exact h.free⟩

theorem wrTblGen_free {hw : Hw} {t : Tab} (h : Free hw t) (canUse stopLast : Bool) :
    Wrote hw (hw.wrTblGen t.idx canUse stopLast) t { hw.tabs t with canUse, stopLast } := by
  simp only [Hw.wrTblGen, tab?_idx]
  exact ⟨by dsimp only; rw [h.tick], tick_wroteInUse hw, tick_stray hw⟩

theorem tick_wrote {hw : Hw} {t : Tab} (h : Free hw t) : Wrote hw hw.tick t (hw.tabs t) :=
  ⟨by rw [h.tick, Function.update_eq_self], tick_wroteInUse hw, tick_stray hw⟩

/-- Submission sets CAN_USE and the cycle time, and leaves the rows. -/
structure PendingTab (old tab : HwTab) (cycleNsec : BitVec 32) : Prop where
  canUse : tab.canUse = true
  inUse : tab.inUse = false
  content : tab.content = (cycleNsec, old.rows)

theorem setPending_free {hw : Hw} {t : Tab} (h : Free hw t) (baseTime : Timespec) (cycleNsec : BitVec 32) :
    ∃ tab, Wrote hw (edgxSchedHwSetPending hw t.idx baseTime cycleNsec) t tab ∧
      PendingTab (hw.tabs t) tab cycleNsec := by
  unfold edgxSchedHwSetPending
  dsimp only
  obtain ⟨w1, h1⟩ := h.write (fun tab => { tab with cycNsec := cycleNsec }) (fun _ => rfl) fun _ => rfl
  generalize hw.wrTime t.idx _ = hw1 at w1 h1 ⊢
  obtain ⟨w2, h2⟩ := h1.write (fun tab => { tab with startSec := BitVec.ofInt 16 (baseTime.sec % (EDGX_SCHED_START_TIME_SEC_MASK + 1)) })
    (fun _ => rfl) fun _ => rfl
  generalize hw1.wrTime t.idx _ = hw2 at w2 h2 ⊢
  obtain ⟨w3, h3⟩ := h2.write (fun tab => { tab with startNsec := BitVec.ofInt 32 baseTime.nsec })
    (fun _ => rfl) fun _ => rfl
  generalize hw2.wrTime t.idx _ = hw3 at w3 h3 ⊢
  have w4 := (tick_wrote h3).trans (wrTblGen_free h3.tick_free true false)
  refine ⟨_, w1.trans (w2.trans (w3.trans w4)), rfl, ?_, ?_⟩
  · exact h3.tick_free.free
  · rw [h3.tick, w3.tabs, w2.tabs, w1.tabs]
    simp [HwTab.content]

theorem Fsc.setPending_wrote {hw : Hw} {t : Tab} (h : Free hw t) (baseTime : Timespec)
    (cycleNsec cycleSubnsec : BitVec 32) :
    ∃ tab, Wrote hw (Fsc.edgxSchedHwSetPending hw t.idx baseTime cycleNsec cycleSubnsec) t tab ∧
      PendingTab (hw.tabs t) tab cycleNsec ∧ tab.cycSubns = cycleSubnsec := by
  unfold Fsc.edgxSchedHwSetPending
  dsimp only
  obtain ⟨w1, h1⟩ := h.write (fun tab => { tab with cycNsec := cycleNsec }) (fun _ => rfl) fun _ => rfl
  generalize hw.wrTime t.idx _ = hw1 at w1 h1 ⊢
  obtain ⟨w2, h2⟩ := h1.write (fun tab => { tab with cycSubns := cycleSubnsec }) (fun _ => rfl) fun _ => rfl
  generalize hw1.wrTime t.idx _ = hw2 at w2 h2 ⊢
  obtain ⟨w3, h3⟩ := h2.write (fun tab => { tab with startSec := BitVec.ofInt 16 (baseTime.sec % (EDGX_SCHED_START_TIME_SEC_MASK + 1)) })
    (fun _ => rfl) fun _ => rfl
  generalize hw2.wrTime t.idx _ = hw3 at w3 h3 ⊢
  obtain ⟨w4, h4⟩ := h3.write (fun tab => { tab with startNsec := BitVec.ofInt 32 baseTime.nsec })
    (fun _ => rfl) fun _ => rfl
  generalize hw3.wrTime t.idx _ = hw4 at w4 h4 ⊢
  have w5 := (tick_wrote h4).trans (wrTblGen_free h4.tick_free true false)
  refine ⟨_, w1.trans (w2.trans (w3.trans (w4.trans w5))), ⟨rfl, ?_, ?_⟩, ?_⟩
  · exact h4.tick_free.free
  · rw [h4.tick, w4.tabs, w3.tabs, w2.tabs, w1.tabs]
    simp [HwTab.content]
  · rw [h4.tick, w4.tabs, w3.tabs, w2.tabs]
    simp

theorem Fsc.setPending_free {hw : Hw} {t : Tab} (h : Free hw t) (baseTime : Timespec)
    (cycleNsec cycleSubnsec : BitVec 32) :
    ∃ tab, Wrote hw (Fsc.edgxSchedHwSetPending hw t.idx baseTime cycleNsec cycleSubnsec) t tab ∧
      PendingTab (hw.tabs t) tab cycleNsec := by
  obtain ⟨tab, hw₂, hp, _⟩ := Fsc.setPending_wrote h baseTime cycleNsec cycleSubnsec
  exact ⟨tab, hw₂, hp⟩

/-! ## The submission -/

/-- The entries a configuration change compiles. -/
def SchedTable.list (a : SchedTable) : List TabEntry := (a.entries.getD []).take a.listLen

/-- The cycle time register for the admin cycle time. -/
def SchedTable.cycleReg (a : SchedTable) : BitVec 32 := BitVec.ofNat 32 (edgxSchedRationalToNsec a.cycleTime).1

/-- The row writes of a user's configuration change. -/
def User.plan : User → Com → List TabEntry → Plan
  | .portGates => stPlan
  | .streamGates => psfpPlan
  | .fsc => fscPlan

/-- The configuration change from `s` that ended as `r` took table `t`, free
in `hw`, and wrote `plan` into it. -/
structure Submitted (plan : Plan) (s : EdgxSched) (r : Int × EdgxSched) (t : Tab) (hw : Hw) : Prop where
  quiet : Quieter s.hw hw
  free : Free hw t
  opTabs : r.2.opTabs = Function.update s.opTabs t.idx { s.adminTab with entries := none }
  failed : r.1 ≠ 0 → r.2.submitted = s.submitted ∧
    ∃ done, done <+: plan ∧ Wrote hw r.2.hw t { hw.tabs t with rows := applyRows done (hw.tabs t).rows }
  done : r.1 = 0 → r.2.submitted = Function.update s.submitted t.idx (some s.adminTab) ∧
    ∃ tab, Wrote hw r.2.hw t tab ∧
      PendingTab { hw.tabs t with rows := applyRows plan (hw.tabs t).rows } tab s.adminTab.cycleReg

theorem writePlan_wrote {hw : Hw} {t : Tab} (h : Free hw t) (plan : Plan) :
    ∃ done, done <+: plan ∧ ((writePlan t.idx plan hw).1 = 0 → done = plan) ∧
      Wrote hw (writePlan t.idx plan hw).2 t { hw.tabs t with rows := applyRows done (hw.tabs t).rows } := by
  obtain ⟨done, hpre, htabs, hwrote, hstray, hret⟩ := writePlan_free h plan
  exact ⟨done, hpre, hret, htabs, hwrote, hstray⟩

/-- The shared scheduler submits to a free table, or fails and touches
nothing. -/
theorem configChange_shared {prepareConfig : Com → Hw → List TabEntry → Int × Hw}
    {plan : Com → List TabEntry → Plan}
    (hprep : ∀ com hw es, prepareConfig com hw es =
      if (edgxSchedGetFreeTab hw).1 < 0 then edgxSchedGetFreeTab hw
      else writePlan (edgxSchedGetFreeTab hw).1 (plan com es) (edgxSchedGetFreeTab hw).2)
    (com : Com) {s : EdgxSched} (h : NoCan s.hw) :
    let r := edgxSchedConfigChange prepareConfig com s
    (r.1 ≠ 0 ∧ ∃ hw, Quieter s.hw hw ∧ r.2 = { s with hw := hw }) ∨
      ∃ t hw, Submitted (plan com s.adminTab.list) s r t hw := by
  intro r
  have hquiet := Quieter.getFreeTab s.hw
  rcases getFreeTab_cases h with ⟨t, hidx, hfree, h0⟩ | herr
  · right
    obtain ⟨hidx', hfree', htabs'⟩ := hfree.getFreeTab h0
    have hquiet' := Quieter.getFreeTab (edgxSchedGetFreeTab s.hw).2
    obtain ⟨done, hpre, hret, hwrote⟩ := writePlan_wrote hfree' (plan com s.adminTab.list)
    have hr : r = edgxSchedConfigChange prepareConfig com s := rfl
    unfold edgxSchedConfigChange at hr
    simp only [hidx, if_neg t.idx_nonneg, hprep, hidx'] at hr
    refine ⟨t, (edgxSchedGetFreeTab (edgxSchedGetFreeTab s.hw).2).2, hquiet.trans hquiet', hfree', ?_, ?_, ?_⟩
    · rw [hr]; split <;> rfl
    · intro hne
      split at hr
      · rw [hr]; exact ⟨rfl, done, hpre, hwrote⟩
      · rw [hr] at hne; exact absurd rfl hne
    · intro heq
      split at hr
      · rename_i hne
        rw [hr] at heq; exact absurd heq hne
      · rename_i hok
        rw [not_not] at hok
        rw [hret hok] at hwrote
        have hfree'' := hfree'.of_update hwrote.tabs (hfree'.noCan t) hfree'.free
        obtain ⟨tab, hw₂, hp⟩ := setPending_free hfree'' s.startTime s.adminTab.cycleReg
        rw [hr]
        simp only [Function.update_self]
        refine ⟨trivial, tab, hwrote.trans hw₂, hp.canUse, hp.inUse, ?_⟩
        rw [hp.content, hwrote.tabs, Function.update_self]
  · left
    have hr : r = (-EINVAL, { s with hw := (edgxSchedGetFreeTab s.hw).2 }) := by
      simp only [r, edgxSchedConfigChange, herr, if_pos EINVAL_neg]
    rw [hr]
    exact ⟨(by decide : -EINVAL ≠ 0), _, hquiet, rfl⟩

/-- The FSC variant submits to a free table when there is one. -/
theorem configChange_fsc (com : Com) {s : EdgxSched} (h : NoCan s.hw)
    (hfound : 0 ≤ (edgxSchedGetFreeTab s.hw).1) :
    ∃ t hw, Submitted (fscPlan com s.adminTab.list) s (Fsc.edgxSchedConfigChange com s) t hw := by
  have hquiet := Quieter.getFreeTab s.hw
  rcases getFreeTab_cases h with ⟨t, hidx, hfree, _⟩ | herr
  · obtain ⟨done, hpre, hret, hwrote⟩ := writePlan_wrote hfree (fscPlan com s.adminTab.list)
    generalize hr : Fsc.edgxSchedConfigChange com s = r
    unfold Fsc.edgxSchedConfigChange at hr
    simp only [hidx, Function.update_self, Fsc.edgxSchedWriteTable_eq] at hr
    change (_, _) = r at hr
    refine ⟨t, (edgxSchedGetFreeTab s.hw).2, hquiet, hfree, ?_, ?_, ?_⟩
    · rw [← hr]
      dsimp only
      split <;> simp
    · intro hne
      split at hr
      · rename_i hok
        rw [← hr] at hne; exact absurd hok hne
      · rw [← hr]; exact ⟨rfl, done, hpre, hwrote⟩
    · intro heq
      split at hr
      · rename_i hok
        rw [hret hok] at hwrote
        have hfree' := hfree.of_update hwrote.tabs (hfree.noCan t) hfree.free
        obtain ⟨tab, hw₂, hp⟩ := Fsc.setPending_free hfree' s.startTime s.adminTab.cycleReg
          (BitVec.ofNat 32 (edgxSchedRationalToNsec s.adminTab.cycleTime).2)
        rw [← hr]
        refine ⟨rfl, tab, hwrote.trans hw₂, hp.canUse, hp.inUse, ?_⟩
        rw [hp.content, hwrote.tabs, Function.update_self]
      · rename_i hne
        rw [← hr] at heq; exact absurd heq hne
  · rw [herr] at hfound
    exact absurd hfound (by decide)

/-- **A submission by any of the three users**: it takes a free table, or it
fails and touches nothing. The FSC variant needs a free table. -/
theorem configChange_cases (u : User) (com : Com) {s : EdgxSched} (h : NoCan s.hw)
    (hfound : u = .fsc → 0 ≤ (edgxSchedGetFreeTab s.hw).1) :
    let r := u.variant.configChange com s
    (r.1 ≠ 0 ∧ ∃ hw, Quieter s.hw hw ∧ r.2 = { s with hw := hw }) ∨
      ∃ t hw, Submitted (u.plan com s.adminTab.list) s r t hw := by
  cases u with
  | portGates => exact configChange_shared (fun com hw es => edgxStPrepareConfig_eq com hw es) com h
  | streamGates => exact configChange_shared (fun com hw es => edgxPsfpGtPrepareConfig_eq com hw es) com h
  | fsc => exact .inr (configChange_fsc com h (hfound rfl))

end TsnSwitch.Sched
