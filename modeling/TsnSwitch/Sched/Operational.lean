/-
From the admin list to the operational one, over whole runs of the two drivers of
port gates.

What the operational list tells of a table that the hardware executes is the admin list
as it was when that table was last submitted, whatever has been written since
(`oper_is_admin`). Operations come back as changes of the hold level: a list with a hold
that nothing releases may come back as another one, and `told_says_iff` says when.
-/
import TsnSwitch.Lib.LastWrite
import TsnSwitch.Sched.AdminList
import TsnSwitch.Sched.Buffers
import TsnSwitch.Sched.ReadBack

namespace TsnSwitch.Sched

open Lib

/-! ## The last submission -/

/-- The step submits the admin table, to table `t`. -/
def Takes (u : User) (com : Com) (s : EdgxSched) (op : Op) (t : Tab) : Prop :=
  (op.submits u.variant com s).isSome ∧ (step u.variant com s op).1 = 0 ∧
    ((step u.variant com s op).2.hw.tabs t).canUse = true

instance (u : User) (com : Com) (s : EdgxSched) (op : Op) (t : Tab) : Decidable (Takes u com s op t) :=
  inferInstanceAs (Decidable (_ ∧ _))

/-- What the step leaves as last submitted to table `t`. -/
def takenBy (u : User) (com : Com) (t : Tab) (s : EdgxSched) (op : Op) : Option (Option SchedTable) :=
  if Takes u com s op t then some (some s.adminTab) else none

/-- **A step and the submissions.** The admin table is the last submitted one of the table
that a submission takes, and the other one keeps its own. -/
theorem submitted_step (u : User) (com : Com) {s : EdgxSched} (h : BufInv u com s) {op : Op} (hf : Finds u com s op)
    (t : Tab) : (step u.variant com s op).2.submitted t.idx = (takenBy u com t s op).getD (s.submitted t.idx) := by
  unfold takenBy
  rcases step_submits u.lawful com h.settled op with ⟨hnone, hp⟩ | ⟨s₁, hsub, hr, heq⟩
  · have hnot : ¬Takes u com s op t := fun ht => by
      have := ht.1
      rw [hnone] at this
      exact Bool.false_ne_true this
    rw [if_neg hnot, hp.submitted]
    rfl
  · rcases configChange_cases u com hr.noCan (fun hu => hf hu s₁ hsub) with ⟨hne, hw, _, hc⟩ | ⟨v, hw, hc⟩
    · have hnot : ¬Takes u com s op t := fun ht => by
        have := ht.2.1
        rw [heq] at this
        exact hne this
      rw [if_neg hnot, heq, afterSubmit, if_neg hne, hc]
      exact congrFun hr.submitted _
    · by_cases h0 : (u.variant.configChange com s₁).1 = 0
      · obtain ⟨hsub', tab, hw', hp⟩ := hc.done h0
        have hcan : ((step u.variant com s op).2.hw.tabs t).canUse = true ↔ t = v := by
          rw [heq, afterSubmit_hw, hw'.tabs]
          by_cases htv : t = v
          · subst htv
            rw [Function.update_self, hp.canUse]
            exact iff_of_true rfl rfl
          · rw [Function.update_of_ne htv, hc.free.noCan t]
            exact iff_of_false Bool.false_ne_true htv
        have hres : (step u.variant com s op).2.submitted = Function.update s₁.submitted v.idx (some s₁.adminTab) := by
          rw [heq, afterSubmit, if_pos h0]
          exact hsub'
        rw [hres]
        by_cases htv : t = v
        · have ht : Takes u com s op t := ⟨by rw [hsub]; rfl, by rw [heq]; exact h0, hcan.2 htv⟩
          rw [if_pos ht, htv, Function.update_self, hr.adminTab]
          rfl
        · have hnot : ¬Takes u com s op t := fun ht => htv (hcan.1 ht.2.2)
          rw [if_neg hnot, Function.update_of_ne fun hi => htv (Tab.idx_inj hi), hr.submitted]
          rfl
      · have hnot : ¬Takes u com s op t := fun ht => by
          have := ht.2.1
          rw [heq] at this
          exact h0 this
        rw [if_neg hnot, heq, afterSubmit, if_neg h0]
        exact (congrFun (hc.failed h0).1 _).trans (congrFun hr.submitted _)

/-! ## What is told -/

/-- The operation that takes the hold level from `b` to `b'`. -/
def opBetween (b b' : Bool) : BitVec 8 :=
  if b = b' then EDGX_SCHED_OP_SET_GSTATES else if b' then EDGX_SCHED_OP_HOLD_MAC else EDGX_SCHED_OP_REL_MAC

/-- The level before entry `k` for one who starts low. -/
def levelFrom (es : List TabEntry) (k : Nat) : Bool := if k = 0 then false else effLevel es (k - 1)

/-- The list with the changes of its effective hold level as operations. -/
def told (es : List TabEntry) : List TabEntry :=
  es.mapIdx fun k e => { e with operationName := opBetween (levelFrom es k) (effLevel es k) }

theorem length_told (es : List TabEntry) : (told es).length = es.length := List.length_mapIdx

theorem told_get {es : List TabEntry} {k : Nat} {e : TabEntry} (h : es[k]? = some e) :
    (told es)[k]? = some { e with operationName := opBetween (levelFrom es k) (effLevel es k) } := by
  rw [told, List.getElem?_mapIdx, h]
  rfl

theorem level_opBetween (e : TabEntry) (b b' c : Bool) :
    ({ e with operationName := opBetween b b' } : TabEntry).level c = if b = b' then c else b' := by
  unfold TabEntry.level opBetween
  cases b <;> cases b' <;> rfl

/-- Who starts low and follows what is told has the effective level after each entry. -/
theorem endLevel_take_told {es : List TabEntry} {k : Nat} (hk : k < es.length) :
    endLevel ((told es).take (k + 1)) = effLevel es k := by
  induction k with
  | zero =>
    have h0 := told_get (List.getElem?_eq_getElem hk)
    rw [List.take_add_one, h0, endLevel]
    refine (level_opBetween _ _ _ _).trans ?_
    change (if false = effLevel es 0 then false else effLevel es 0) = effLevel es 0
    cases effLevel es 0 <;> rfl
  | succ k ih =>
    have hsucc := told_get (List.getElem?_eq_getElem hk)
    rw [List.take_add_one, hsucc, endLevel, List.foldl_append]
    refine (level_opBetween _ _ _ _).trans ?_
    have hbefore : levelFrom es (k + 1) = effLevel es k := rfl
    rw [hbefore]
    change (if effLevel es k = effLevel es (k + 1) then endLevel ((told es).take (k + 1)) else effLevel es (k + 1)) = _
    rw [ih (Nat.lt_of_succ_lt hk)]
    by_cases hsame : effLevel es k = effLevel es (k + 1)
    · rw [if_pos hsame, hsame]
    · rw [if_neg hsame]

theorem endLevel_told {es : List TabEntry} (hne : es ≠ []) : endLevel (told es) = endLevel es := by
  have hpos : 0 < es.length := List.length_pos_iff.2 hne
  have h := endLevel_take_told (Nat.sub_lt hpos Nat.one_pos)
  rwa [Nat.sub_add_cancel hpos, effLevel_last (Nat.sub_add_cancel hpos).ge,
    List.take_of_length_le (length_told es).le] at h

/-- Up to the first change the level is low, but told as that of the end. -/
theorem effLevel_of_keeps {es : List TabEntry} {k : Nat} (hk : k < es.length)
    (h : ∀ e ∈ (told es).take (k + 1), e.keepsHold = true) :
    effLevel es k = false ∧ effLevel (told es) k = endLevel es := by
  refine ⟨(endLevel_take_told hk).symm.trans (foldl_level_keeps h false), ?_⟩
  exact (effLevel_keeps h).trans (endLevel_told (List.ne_nil_of_length_pos (Nat.zero_lt_of_lt hk)))

/-- **What is told says the same** of the hold levels just when a list that ends high
starts high. -/
theorem told_says_iff {es : List TabEntry} (hne : es ≠ []) :
    (∀ i < es.length, effLevel (told es) i = effLevel es i) ↔ (endLevel es = true → effLevel es 0 = true) := by
  have hpos : 0 < es.length := List.length_pos_iff.2 hne
  constructor
  · intro h hend
    by_contra hlow
    have hkeeps : ∀ e ∈ (told es).take 1, e.keepsHold = true := by
      have hget := told_get (List.getElem?_eq_getElem hpos)
      rw [Bool.eq_false_iff.2 hlow] at hget
      intro e he
      rw [List.take_add_one, hget] at he
      rw [List.mem_singleton.1 he]
      rfl
    obtain ⟨_, htold⟩ := effLevel_of_keeps hpos hkeeps
    exact hlow ((h 0 hpos).symm.trans (htold.trans hend))
  · intro h i hi
    by_cases hkeeps : ∀ e ∈ (told es).take (i + 1), e.keepsHold = true
    · obtain ⟨hlow, htold⟩ := effLevel_of_keeps hi hkeeps
      have hfirst : ∀ e ∈ (told es).take 1, e.keepsHold = true := fun e he =>
        hkeeps e (List.take_subset_take_left _ (Nat.succ_le_succ (Nat.zero_le i)) he)
      obtain ⟨hlow0, _⟩ := effLevel_of_keeps hpos hfirst
      rw [htold, hlow]
      by_contra hend
      exact Bool.false_ne_true (hlow0.symm.trans (h (Bool.not_eq_false _ ▸ hend)))
    · simp only [not_forall, Bool.not_eq_true] at hkeeps
      obtain ⟨e, he, hset⟩ := hkeeps
      exact (effLevel_sets ⟨e, he, hset⟩).trans (endLevel_take_told hi)

/-- A list that ends with a hold: what is told never releases. -/
example : told [⟨3200, EDGX_SCHED_OP_REL_MAC, 0x0f⟩, ⟨6400, EDGX_SCHED_OP_HOLD_MAC, 0xf0⟩] =
    [⟨3200, EDGX_SCHED_OP_SET_GSTATES, 0x0f⟩, ⟨6400, EDGX_SCHED_OP_HOLD_MAC, 0xf0⟩] := by decide

/-! ## Reading -/

/-- **Reading the whole list** of a table that was written for `es`. -/
theorem readOper_told (d : Driver) {com : Com} {hw : Hw} {listLens : Int → Nat} {t : Tab} {es : List TabEntry}
    {old : Nat → Row} (hrun : Running hw listLens t (applyRows (d.user.plan com es) old) es.length) (hne : es ≠ [])
    (hlen : es.length < 1024) (hs : ∀ e ∈ es, Stored d.user com e) (hf : Fits d.user com es) {buf : List TabEntry}
    (hbuf : buf.length = es.length) (vars : BitVec 16 × BitVec 32) :
    d.readOper com hw listLens 0 buf vars = (d.okCode buf.length, told es) := by
  obtain ⟨hrow, _⟩ := driver_rows com d hlen old
  generalize applyRows (d.user.plan com es) old = rows at hrun hrow
  have hpos : 0 < es.length := List.length_pos_iff.2 hne
  obtain ⟨_, hlength, hget⟩ := readOper_get d hrun (Nat.le_of_lt hlen) hpos buf vars
  have hcode : (d.readOper com hw listLens 0 buf vars).1 = d.okCode buf.length := by
    have hneg := t.idx_nonneg
    cases d with
    | fscr => simp only [Driver.readOper, edgxStGetOperCtrlList, hrun.used, if_neg hneg, if_true, Driver.okCode]
    | fsc =>
      have hor : ¬(t.idx < 0 ∨ es.length = 0) := by omega
      simp only [Driver.readOper, Fsc.edgxSchedGetOpEntry, hrun.used, hrun.listLen, if_neg hor,
        Fsc.edgxSchedReadRows_ok hrun.reads.getUsedTab, if_true, Driver.okCode]
  refine Prod.ext hcode (List.ext_getElem? fun k => ?_)
  by_cases hk : k < es.length
  · have he := List.getElem?_eq_getElem hk
    have hbits : ∀ j < es.length, (rows j).gates &&& com.hold = com.holdBits (effLevel es j) := fun j hj => by
      have hj' := List.getElem?_eq_getElem hj
      rw [hrow j _ hj']
      exact hold_of_row (stored_mask (hs _ (List.mem_of_getElem? hj'))) _
    have hcyc : ∀ j < es.length, (rows j).cycles = d.rowCycles com es j := fun j hj => by
      rw [hrow j _ (List.getElem?_eq_getElem hj)]
    have hbefore : (if k = 0 then (0 : BitVec 16) else (rows (0 + k - 1)).gates &&& com.hold) =
        com.holdBits (levelFrom es k) := by
      unfold levelFrom
      by_cases h0 : k = 0
      · rw [if_pos h0, if_pos h0]
        rfl
      · rw [if_neg h0, if_neg h0, Nat.zero_add]
        exact hbits _ (by omega)
    have hgates : (rows k).gates &&& com.gateMask.setWidth 16 = es[k].gates := by
      rw [hrow k _ he]
      exact gates_of_row (stored_mask (hs _ (List.mem_of_getElem? he))) _
    have hinterval : d.readInterval com rows k = es[k].timeInterval :=
      readInterval_eq d ((fits_iff d hs hcyc).1 hf k _ he)
    rw [hget k (by omega) (by omega), told_get he, hbefore, Nat.zero_add, readEntry, hbits k hk, readOp_bits, hgates,
      hinterval]
    exact congrArg some (congrArg (TabEntry.mk _ _) (BitVec.setWidth_setWidth_of_le _ (by decide)))
  · rw [List.getElem?_eq_none (by omega), List.getElem?_eq_none (by rw [length_told]; omega)]

/-! ## Runs -/

/-- A submission of the FSC variant finds a table, and lists are proper. -/
def Sound (u : User) (com : Com) (s : EdgxSched) (op : Op) : Prop := Finds u com s op ∧ Proper u com s op

instance (u : User) (com : Com) (s : EdgxSched) (op : Op) : Decidable (Sound u com s op) :=
  inferInstanceAs (Decidable (_ ∧ _))

theorem used_live {hw : Hw} {t : Tab} (h : (edgxSchedGetUsedTab hw).1 = t.idx) : (hw.tabs t).live = true := by
  have hlive {v : Tab} {hw' : Hw} (hq : Quieter hw hw') (hv : (hw'.tabs v).inUse = true) : (hw.tabs v).live = true :=
    hq.live v (by rw [HwTab.live, hv, Bool.true_or])
  unfold edgxSchedGetUsedTab at h
  dsimp only at h
  split at h
  · rename_i huse
    obtain rfl : 0 = t := Tab.idx_inj (t := 0) h
    exact hlive (Quieter.rdTblGen hw 0) huse
  · split at h
    · rename_i huse
      obtain rfl : 1 = t := Tab.idx_inj (t := 1) h
      exact hlive ((Quieter.rdTblGen hw 0).trans (Quieter.rdTblGen _ 1)) huse
    · exact absurd (show -EINVAL = t.idx from h) fun hidx => t.idx_nonneg (by rw [← hidx]; decide)

/-- What a call that reads the operational list finds of `s`. -/
def EdgxSched.operLens (s : EdgxSched) (i : Int) : Nat := (s.opTabs i).listLen

/-- **The operational list is the admin list of the last change** that took the table in
use, with its operations told as changes of the hold level. -/
theorem oper_is_admin (d : Driver) (com : Com) (gateStates : BitVec 8) {ops : List Op}
    (h : Guarded (step d.user.variant com) (Sound d.user com) (init gateStates) ops) (env : Env)
    (henv : ∀ x ∈ env.xfers, x = .ok) {t : Tab} :
    let s := after (step d.user.variant com) (init gateStates) ops
    let hw := (s.withEnv env).hw
    (edgxSchedGetUsedTab hw).1 = t.idx → ∀ buf : List TabEntry, buf.length = s.operLens t.idx →
      ∀ vars, ∃ pre op suf, ops = pre ++ op :: suf ∧
        (let a := (after (step d.user.variant com) (init gateStates) pre).adminTab
        LastWrite (step d.user.variant com) (takenBy d.user com t) (init gateStates) pre op suf (some a) ∧
          (s.hw.tabs t).cycNsec = a.cycleReg ∧
          d.readOper com hw s.operLens 0 buf vars = (d.okCode buf.length, told a.list) ∧
          ((∀ i < a.list.length, effLevel (told a.list) i = effLevel a.list i) ↔
            (endLevel a.list = true → effLevel a.list 0 = true))) := by
  intro s hw hused buf hbuf vars
  have hkeep : ∀ s op, BufInv d.user com s → Sound d.user com s op → BufInv d.user com (step d.user.variant com s op).2 :=
    fun s op hs hf => hs.step op hf.1
  have hbufs : BufInv d.user com s := h.inv_after (BufInv.init ..) hkeep
  have hlive : (hw.tabs t).live = true := used_live hused
  obtain ⟨a, hex⟩ := hbufs.executes t hlive
  obtain hnone | ⟨pre, op, suf, rfl, hlast⟩ := last_write (fun s => s.submitted t.idx) h (BufInv.init ..) hkeep
    fun s op hs hf => submitted_step d.user com hs hf.1 t
  · exact nomatch hnone.symm.trans hex.submitted
  have hlast : LastWrite (step d.user.variant com) (takenBy d.user com t) (init gateStates) pre op suf (some a) :=
    hex.submitted ▸ hlast
  refine ⟨pre, op, suf, rfl, ?_⟩
  have hsound := h.at_step
  have hadmin : AdminInv d.user com (after (step d.user.variant com) (init gateStates) pre) :=
    h.of_append.inv_after (AdminInv.init ..) fun s op hs hp => hs.step op hp.2
  obtain ⟨htakes, rfl⟩ : Takes d.user com _ op t ∧ _ = a := by
    have hwrote := hlast.wrote
    unfold takenBy at hwrote
    split at hwrote
    · exact ⟨‹_›, Option.some.inj (Option.some.inj hwrote)⟩
    · exact nomatch hwrote
  have hsubmits := htakes.1
  obtain ⟨hne, hle⟩ := submits_checked hsubmits
  obtain ⟨hlen, hlt⟩ := hadmin.list_length hle
  have hfits : Fits d.user com (after (step d.user.variant com) (init gateStates) pre).adminTab.list := by
    have hp := hsound.2
    cases op with
    | setEntries first entries allocOk => exact nomatch hsubmits
    | _ => exact hp hsubmits
  have hnil : (after (step d.user.variant com) (init gateStates) pre).adminTab.list ≠ [] :=
    fun hnil => hne (by rw [← hlen, hnil]; rfl)
  obtain ⟨old, hrows⟩ := hex.rows
  have hlens : s.operLens t.idx = _ := congrArg SchedTable.listLen hex.opTab
  have hrun : Running hw s.operLens t (applyRows (d.user.plan com _) old) _ :=
    ⟨hused, ⟨hrows, henv⟩, hlens.trans hlen.symm⟩
  exact ⟨hlast, hex.cycle,
    readOper_told d hrun hnil (hlen.trans_lt hlt) hadmin.list_stored hfits (hbuf.trans (hlens.trans hlen.symm)) vars,
    told_says_iff hnil⟩

/-- A list is submitted, and written over before the hardware takes it. -/
def writtenOver : List Op :=
  [.setEntries 0 [⟨3200, EDGX_SCHED_OP_HOLD_MAC, 0x0f⟩, ⟨6400, EDGX_SCHED_OP_REL_MAC, 0xf0⟩] true, .setCtrlListLen 2,
    .setCycleTime ⟨1, 1000⟩, .setBaseTime ⟨10, 0⟩, .setGateEnabled true {}, .setConfigChange true {},
    .setEntries 0 [⟨3200, 0, 0xff⟩] true, .setCtrlListLen 1, .hwEvents [.switch 0 none]]

theorem oper_is_admin_writtenOver :
    let s := after (step Driver.fscr.user.variant someCom) (init 0xff) writtenOver
    ∃ pre op suf, writtenOver = pre ++ op :: suf ∧
      (let a := (after (step Driver.fscr.user.variant someCom) (init 0xff) pre).adminTab
      LastWrite (step Driver.fscr.user.variant someCom) (takenBy Driver.fscr.user someCom 0) (init 0xff) pre op suf
          (some a) ∧
        (s.hw.tabs 0).cycNsec = a.cycleReg ∧
        Driver.fscr.readOper someCom (s.withEnv {}).hw s.operLens 0 [edgxSchedUndefEntry, edgxSchedUndefEntry] (0, 0) =
          (Driver.fscr.okCode 2, told a.list) ∧
        ((∀ i < a.list.length, effLevel (told a.list) i = effLevel a.list i) ↔
          (endLevel a.list = true → effLevel a.list 0 = true))) :=
  oper_is_admin .fscr someCom 0xff (by decide +kernel) {} (fun _ hx => nomatch hx) (by decide +kernel) _
    (by decide +kernel) (0, 0)

end TsnSwitch.Sched
