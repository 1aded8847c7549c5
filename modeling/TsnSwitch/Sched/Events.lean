/-
What the hardware can do to the schedule tables on its own, and the driver by
cancelling: `Quieter`. No table becomes submitted or starts to live, and the
contents of both stay. A table that is free while none is submitted stays as
it is whatever the hardware does (`Free.tick`).
-/
import TsnSwitch.Sched.Hw

namespace TsnSwitch.Sched

theorem Tab.cases : ∀ t : Tab, t = 0 ∨ t = 1 := by decide

theorem Tab.other_ne : ∀ t : Tab, 1 - t ≠ t := by decide

@[simp] theorem tab?_idx (t : Tab) : tab? t.idx = some t := by
  rcases Tab.cases t with rfl | rfl <;> rfl

@[simp] theorem cmdTab_idx (t : Tab) : cmdTab t.idx = t := by
  rcases Tab.cases t with rfl | rfl <;> rfl

theorem Tab.idx_inj {t u : Tab} (h : t.idx = u.idx) : t = u := by
  have ht := tab?_idx t
  rw [h, tab?_idx] at ht
  exact (Option.some.inj ht).symm

/-- The table is submitted or in use. -/
def HwTab.live (h : HwTab) : Bool := h.inUse || h.canUse

/-- What the driver writes before it submits and the hardware keeps. -/
def HwTab.content (h : HwTab) : BitVec 32 × (Nat → Row) := (h.cycNsec, h.rows)

/-- From `hw` to `hw'` tables were switched, retired or cancelled. -/
structure Quieter (hw hw' : Hw) : Prop where
  canUse : ∀ t, (hw'.tabs t).canUse = true → (hw.tabs t).canUse = true
  live : ∀ t, (hw'.tabs t).live = true → (hw.tabs t).live = true
  content : ∀ t, (hw'.tabs t).content = (hw.tabs t).content
  wroteInUse : hw'.wroteInUse = hw.wroteInUse
  stray : hw'.stray = hw.stray

namespace Quieter

variable {hw hw' hw'' : Hw}

theorem refl (hw : Hw) : Quieter hw hw := ⟨fun _ h => h, fun _ h => h, fun _ => rfl, rfl, rfl⟩

theorem trans (h : Quieter hw hw') (h' : Quieter hw' hw'') : Quieter hw hw'' where
  canUse t ht := h.canUse t (h'.canUse t ht)
  live t ht := h.live t (h'.live t ht)
  content t := (h'.content t).trans (h.content t)
  wroteInUse := h'.wroteInUse.trans h.wroteInUse
  stray := h'.stray.trans h.stray

/-- An update of one table that does not wake it. -/
theorem update (hw : Hw) (t : Tab) (h : HwTab) (hcan : h.canUse = true → (hw.tabs t).canUse = true)
    (hlive : h.live = true → (hw.tabs t).live = true) (hcont : h.content = (hw.tabs t).content) :
    Quieter hw { hw with tabs := Function.update hw.tabs t h } := by
  refine ⟨?_, ?_, ?_, rfl, rfl⟩ <;> intro u <;> by_cases hu : u = t
  · subst hu; simpa using hcan
  · simp [hu]
  · subst hu; simpa using hlive
  · simp [hu]
  · subst hu; simpa using hcont
  · simp [hu]

theorem event (hw : Hw) (ev : HwEv) : Quieter hw { hw with tabs := ev.apply hw.tabs } := by
  cases ev with
  | switch t start =>
    unfold HwEv.apply
    dsimp only
    split
    · rename_i hc
      refine update hw t _ ?_ ?_ ?_
      · intro; exact hc
      · intro; simp [HwTab.live, hc]
      · cases start <;> rfl
    · exact refl hw
  | retire t =>
    unfold HwEv.apply
    dsimp only
    split
    · rename_i hc
      rw [Bool.and_eq_true] at hc
      exact update hw t _ (fun h => h) (fun _ => by simp [HwTab.live, hc.1]) rfl
    · exact refl hw

theorem events (hw : Hw) (evs : List HwEv) : Quieter hw { hw with tabs := evs.foldl HwEv.apply hw.tabs } := by
  induction evs generalizing hw with
  | nil => exact refl hw
  | cons e es ih => exact (event hw e).trans (ih { hw with tabs := e.apply hw.tabs })

/-- What the hardware will do and how transfers end is not part of the
relation. -/
theorem of_tabs (ht : hw'.tabs = hw.tabs) (hw₁ : hw'.wroteInUse = hw.wroteInUse) (hs : hw'.stray = hw.stray) :
    Quieter hw hw' := by
  refine ⟨?_, ?_, ?_, hw₁, hs⟩ <;> intro t <;> rw [ht] <;> exact id

theorem tick (hw : Hw) : Quieter hw hw.tick := by
  unfold Hw.tick
  split
  · exact refl hw
  · rename_i e es _
    have h := events hw e
    exact ⟨h.canUse, h.live, h.content, rfl, rfl⟩

theorem rdTblGen (hw : Hw) (t : Tab) : Quieter hw (hw.rdTblGen t).2 := tick hw

/-- Clearing CAN_USE of a table. -/
theorem clear (hw : Hw) (t : Tab) (stopLast : Bool) : Quieter hw (hw.wrTblGen t.idx false stopLast) := by
  refine (tick hw).trans ?_
  rw [Hw.wrTblGen]
  simp only [tab?_idx]
  refine update hw.tick t _ (fun h => nomatch h) (fun h => ?_) rfl
  simp only [HwTab.live, Bool.or_false] at h
  simp [HwTab.live, h]

theorem wrEme (hw : Hw) (dis : Bool) (gateStates : BitVec 8) : Quieter hw (hw.wrEme dis gateStates) :=
  (tick hw).trans (of_tabs rfl rfl rfl)

theorem isPending (hw : Hw) : Quieter hw (edgxSchedHwIsPending hw).2 :=
  (rdTblGen hw 0).trans (rdTblGen _ 1)

theorem getFreeTab (hw : Hw) : Quieter hw (edgxSchedGetFreeTab hw).2 := by
  unfold edgxSchedGetFreeTab
  dsimp only
  split
  · exact rdTblGen hw 0
  · split <;> exact (rdTblGen hw 0).trans (rdTblGen _ 1)

theorem getUsedTab (hw : Hw) : Quieter hw (edgxSchedGetUsedTab hw).2 := by
  unfold edgxSchedGetUsedTab
  dsimp only
  split
  · exact rdTblGen hw 0
  · split <;> exact (rdTblGen hw 0).trans (rdTblGen _ 1)

theorem cancel (hw : Hw) : Quieter hw (edgxSchedHwCancelPending hw) :=
  ((rdTblGen hw 0).trans (clear _ 0 _)).trans ((rdTblGen _ 1).trans (clear _ 1 _))

end Quieter

/-! ## No table is submitted -/

/-- No table is submitted, so the hardware will not switch. -/
def NoCan (hw : Hw) : Prop := ∀ t, (hw.tabs t).canUse = false

theorem NoCan.quieter {hw hw' : Hw} (h : NoCan hw) (hq : Quieter hw hw') : NoCan hw' := fun t => by
  by_contra hc
  rw [Bool.not_eq_false] at hc
  exact Bool.false_ne_true ((h t).symm.trans (hq.canUse t hc))

theorem wrTblGen_canUse (hw : Hw) (t : Tab) (stopLast : Bool) :
    ((hw.wrTblGen t.idx false stopLast).tabs t).canUse = false := by
  rw [Hw.wrTblGen]
  simp only [tab?_idx, Function.update_self]

/-- **After a cancel no table is submitted**, whatever the hardware did
between its register accesses. -/
theorem noCan_cancel (hw : Hw) : NoCan (edgxSchedHwCancelPending hw) := by
  intro t
  rcases Tab.cases t with rfl | rfl
  · -- cleared by the first write; the rest of the cancel does not set it
    have hq : Quieter ((hw.rdTblGen 0).2.wrTblGen 0 false (hw.rdTblGen 0).1.stopLast)
        (edgxSchedHwCancelPending hw) := (Quieter.rdTblGen _ 1).trans (Quieter.clear _ 1 _)
    by_contra hc
    rw [Bool.not_eq_false] at hc
    exact Bool.false_ne_true ((wrTblGen_canUse (hw.rdTblGen 0).2 0 _).symm.trans (hq.canUse 0 hc))
  · exact wrTblGen_canUse _ 1 _

/-- Table `t` is free and nothing can happen to it. -/
structure Free (hw : Hw) (t : Tab) : Prop where
  noCan : NoCan hw
  free : (hw.tabs t).inUse = false

theorem Free.event {hw : Hw} {t : Tab} (h : Free hw t) (ev : HwEv) : ev.apply hw.tabs = hw.tabs := by
  cases ev with
  | switch u start => simp [HwEv.apply, h.noCan u]
  | retire u =>
    -- a table is retired only while the other is in use too
    have hnot : ((hw.tabs u).inUse && (hw.tabs (1 - u)).inUse) = false := by
      have hf := h.free
      rcases Tab.cases t with rfl | rfl <;> rcases Tab.cases u with rfl | rfl <;> simp_all
    simp [HwEv.apply, hnot]

theorem Free.events {hw : Hw} {t : Tab} (h : Free hw t) (evs : List HwEv) :
    evs.foldl HwEv.apply hw.tabs = hw.tabs := by
  induction evs with
  | nil => rfl
  | cons ev evs ih => rw [List.foldl_cons, h.event ev, ih]

/-- The hardware leaves both tables as they are. -/
theorem Free.tick {hw : Hw} {t : Tab} (h : Free hw t) : hw.tick.tabs = hw.tabs := by
  unfold Hw.tick
  split
  · rfl
  · rename_i e es _
    exact h.events e

theorem tick_wroteInUse (hw : Hw) : hw.tick.wroteInUse = hw.wroteInUse := (Quieter.tick hw).wroteInUse

theorem tick_rows (hw : Hw) (t : Tab) : (hw.tick.tabs t).rows = (hw.tabs t).rows :=
  congrArg Prod.snd ((Quieter.tick hw).content t)

theorem tick_xfers (hw : Hw) : hw.tick.xfers = hw.xfers := by
  unfold Hw.tick
  split <;> rfl

/-- Only the queue of the transfers is shorter then. -/
theorem nextXfer_eq (hw : Hw) : ∃ x xs, hw.nextXfer = (x, { hw with xfers := xs }) := by
  unfold Hw.nextXfer
  split <;> exact ⟨_, _, rfl⟩

theorem tick_stray (hw : Hw) : hw.tick.stray = hw.stray := (Quieter.tick hw).stray

/-- Some table is in use. The hardware keeps it so. -/
def SomeUse (tabs : Tab → HwTab) : Prop := ∃ t, (tabs t).inUse = true

theorem SomeUse.event {tabs : Tab → HwTab} (h : SomeUse tabs) (ev : HwEv) : SomeUse (ev.apply tabs) := by
  cases ev with
  | switch t start =>
    unfold HwEv.apply
    dsimp only
    split
    · refine ⟨t, ?_⟩
      rw [Function.update_self]
      cases start <;> rfl
    · exact h
  | retire t =>
    unfold HwEv.apply
    dsimp only
    split
    · rename_i hc
      rw [Bool.and_eq_true] at hc
      refine ⟨1 - t, ?_⟩
      rw [Function.update_of_ne (Tab.other_ne t)]
      exact hc.2
    · exact h

theorem SomeUse.events {tabs : Tab → HwTab} (h : SomeUse tabs) (evs : List HwEv) :
    SomeUse (evs.foldl HwEv.apply tabs) := by
  induction evs generalizing tabs with
  | nil => exact h
  | cons ev evs ih => exact ih (h.event ev)

theorem SomeUse.tick {hw : Hw} (h : SomeUse hw.tabs) : SomeUse hw.tick.tabs := by
  unfold Hw.tick
  split
  · exact h
  · exact h.events _

theorem EINVAL_neg : -EINVAL < 0 := by decide

theorem Tab.idx_nonneg (t : Tab) : ¬ t.idx < 0 := by
  rcases Tab.cases t with rfl | rfl <;> decide

/-- The free table that the lookup finds is free, and nothing can happen to
it: it is the first one, or the first one is in use. -/
theorem getFreeTab_cases {hw : Hw} (h : NoCan hw) :
    (∃ t : Tab, (edgxSchedGetFreeTab hw).1 = t.idx ∧ Free (edgxSchedGetFreeTab hw).2 t ∧
      (((edgxSchedGetFreeTab hw).2.tabs 0).inUse = true ∨ t = 0)) ∨
      (edgxSchedGetFreeTab hw).1 = -EINVAL := by
  have h0 := h.quieter (Quieter.tick hw)
  have h1 := h0.quieter (Quieter.tick hw.tick)
  unfold edgxSchedGetFreeTab Hw.rdTblGen
  dsimp only
  cases hu : (hw.tick.tabs 0).inUse with
  | false => exact .inl ⟨0, rfl, ⟨h0, hu⟩, .inr rfl⟩
  | true =>
    simp only [Bool.not_true, Bool.false_eq_true, if_false]
    cases hu' : (hw.tick.tick.tabs 1).inUse with
    | false =>
      simp only [Bool.not_false, if_true]
      refine .inl ⟨1, rfl, ⟨h1, hu'⟩, .inl ?_⟩
      obtain ⟨u, hin⟩ := SomeUse.tick ⟨0, hu⟩
      rcases Tab.cases u with rfl | rfl
      · exact hin
      · exact absurd (hu'.symm.trans hin) Bool.false_ne_true
    | true => exact .inr rfl

/-- A free table found again is the same one. -/
theorem Free.getFreeTab {hw : Hw} {t : Tab} (h : Free hw t) (h' : (hw.tabs 0).inUse = true ∨ t = 0) :
    (edgxSchedGetFreeTab hw).1 = t.idx ∧ Free (edgxSchedGetFreeTab hw).2 t ∧
      (edgxSchedGetFreeTab hw).2.tabs = hw.tabs := by
  have ht := h.tick
  have hfree : Free hw.tick t := ⟨by intro u; rw [ht]; exact h.noCan u, by rw [ht]; exact h.free⟩
  unfold edgxSchedGetFreeTab Hw.rdTblGen
  dsimp only
  rcases Tab.cases t with rfl | rfl
  · have hf : (hw.tick.tabs 0).inUse = false := hfree.free
    simp only [hf, Bool.not_false, if_true]
    exact ⟨rfl, hfree, ht⟩
  · have hu : (hw.tick.tabs 0).inUse = true := by
      rw [ht]
      rcases h' with h' | h'
      · exact h'
      · exact absurd h' (by decide)
    have hfree' : Free hw.tick.tick 1 := by
      refine ⟨fun u => ?_, ?_⟩
      · rw [hfree.tick]; exact hfree.noCan u
      · rw [hfree.tick]; exact hfree.free
    simp only [hu, Bool.not_true, Bool.false_eq_true, if_false, hfree'.free, Bool.not_false, if_true]
    exact ⟨rfl, hfree', hfree.tick.trans ht⟩

/-- When no change was found pending, no table is submitted any more. -/
theorem noCan_isPending {hw : Hw} (h : (edgxSchedHwIsPending hw).1 = false) : NoCan (edgxSchedHwIsPending hw).2 := by
  unfold edgxSchedHwIsPending Hw.rdTblGen at h ⊢
  dsimp only at h ⊢
  rw [Bool.or_eq_false_iff] at h
  intro t
  rcases Tab.cases t with rfl | rfl
  · by_contra hc
    rw [Bool.not_eq_false] at hc
    exact Bool.false_ne_true (h.1.symm.trans ((Quieter.tick hw.tick).canUse 0 hc))
  · exact h.2

end TsnSwitch.Sched
