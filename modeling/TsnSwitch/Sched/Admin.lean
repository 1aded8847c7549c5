/-
The admin control list and the rows compiled from it, over runs: each row a
configuration change writes is exact, and a rejected write of the list
changes nothing (`adminExact_of_proper`).

Both fail in the code when a write is rejected after its entries have been
stored, and the rows also when the total of the intervals does not fit a row:
each interval is checked, their sum is not.
-/
import TsnSwitch.Sched.Buffers
import TsnSwitch.Sched.Encode

namespace TsnSwitch.Sched

open Lib

/-! ## Rows written by any submission -/

/-- From `hw` to `hw'` rows were only written as `plan` has them, and no
table was submitted. -/
structure WroteRows (plan : Plan) (hw hw' : Hw) : Prop where
  canUse : ∀ t, (hw'.tabs t).canUse = true → (hw.tabs t).canUse = true
  rows : ∀ t j, (hw'.tabs t).rows j = (hw.tabs t).rows j ∨
    ∃ p ∈ plan, cmdRow p.1 = j ∧ (hw'.tabs t).rows j = p.2

theorem Quieter.rows {hw hw' : Hw} (h : Quieter hw hw') (t : Tab) : (hw'.tabs t).rows = (hw.tabs t).rows :=
  congrArg Prod.snd (h.content t)

namespace WroteRows

variable {plan : Plan} {hw hw' hw'' : Hw}

theorem of_quiet (h : Quieter hw hw') : WroteRows plan hw hw' :=
  ⟨h.canUse, fun t j => .inl (congrFun (h.rows t) j)⟩

theorem trans (h : WroteRows plan hw hw') (h' : WroteRows plan hw' hw'') : WroteRows plan hw hw'' where
  canUse t ht := h.canUse t (h'.canUse t ht)
  rows t j := by
    rcases h'.rows t j with heq | hp
    · rw [heq]; exact h.rows t j
    · exact .inr hp

theorem mono {plan' : Plan} (h : WroteRows plan hw hw') (hsub : ∀ p ∈ plan, p ∈ plan') :
    WroteRows plan' hw hw' where
  canUse := h.canUse
  rows t j := by
    rcases h.rows t j with heq | ⟨p, hp, hj⟩
    · exact .inl heq
    · exact .inr ⟨p, hsub p hp, hj⟩

theorem setRow (hw : Hw) (t : Tab) (i : Nat) (r : Row) : WroteRows [(i, r)] hw (hw.setRow t (cmdRow i) r) := by
  refine ⟨fun u => ?_, fun u j => ?_⟩ <;> unfold Hw.setRow <;> dsimp only <;> by_cases hu : u = t
  · subst hu; simp
  · simp [hu]
  · subst hu
    rw [Function.update_self]
    by_cases hj : j = cmdRow i
    · subst hj
      exact .inr ⟨(i, r), List.mem_singleton_self _, rfl, Function.update_self ..⟩
    · exact .inl (Function.update_of_ne hj ..)
  · exact .inl (by rw [Function.update_of_ne hu])

theorem writeRow (hw : Hw) (idx : Int) (i : Nat) (r : Row) : WroteRows [(i, r)] hw (hw.writeRow idx i r).2 := by
  have hx : Quieter hw hw.tick.nextXfer.2 := by
    refine (Quieter.tick hw).trans ?_
    unfold Hw.nextXfer
    split <;> exact Quieter.of_tabs rfl rfl rfl
  unfold Hw.writeRow
  generalize hw.tick.nextXfer = x at hx ⊢
  obtain ⟨x, hw₁⟩ := x
  cases x with
  | ok => exact (of_quiet hx).trans (setRow hw₁ _ i r)
  | err done =>
    cases done with
    | true => exact (of_quiet hx).trans (setRow hw₁ _ i r)
    | false => exact of_quiet hx

theorem writePlan (idx : Int) (plan : Plan) (hw : Hw) : WroteRows plan hw (writePlan idx plan hw).2 := by
  induction plan generalizing hw with
  | nil => exact of_quiet (Quieter.refl hw)
  | cons p ps ih =>
    obtain ⟨i, r⟩ := p
    have hrow : WroteRows ((i, r) :: ps) hw (hw.writeRow idx i r).2 := (writeRow hw idx i r).mono fun q hq => by
      rw [List.mem_singleton.1 hq]; exact List.mem_cons_self
    simp only [Sched.writePlan]
    split
    · exact hrow.trans ((ih _).mono fun q hq => List.mem_cons_of_mem _ hq)
    · exact hrow

theorem wrTime {idx : Int} (h : tab? idx = none) (hw : Hw) (f : HwTab → HwTab) : WroteRows plan hw (hw.wrTime idx f) := by
  have hq := Quieter.tick hw
  simp only [Hw.wrTime, h]
  exact ⟨hq.canUse, fun t j => .inl (congrFun (hq.rows t) j)⟩

theorem wrTblGen {idx : Int} (h : tab? idx = none) (hw : Hw) (canUse stopLast : Bool) :
    WroteRows plan hw (hw.wrTblGen idx canUse stopLast) := by
  have hq := Quieter.tick hw
  simp only [Hw.wrTblGen, h]
  exact ⟨hq.canUse, fun t j => .inl (congrFun (hq.rows t) j)⟩

/-- The time registers of no table. -/
theorem setPending {idx : Int} (h : tab? idx = none) (hw : Hw) (baseTime : Timespec) (cyc sub : BitVec 32) :
    WroteRows plan hw (Fsc.edgxSchedHwSetPending hw idx baseTime cyc sub) :=
  ((((wrTime h hw _).trans (wrTime h _ _)).trans (wrTime h _ _)).trans (wrTime h _ _)).trans
    ((of_quiet (Quieter.tick _)).trans (wrTblGen h _ _ _))

end WroteRows

/-- What any submission does to the rows, also one that found no table. -/
structure Writes (plan : Plan) (hw : Hw) (r : Int × EdgxSched) : Prop where
  rows : ∀ t j, (r.2.hw.tabs t).rows j = (hw.tabs t).rows j ∨
    ∃ p ∈ plan, cmdRow p.1 = j ∧ (r.2.hw.tabs t).rows j = p.2
  failed : r.1 ≠ 0 → NoCan r.2.hw
  done : r.1 = 0 → ∀ t, (r.2.hw.tabs t).canUse = true → ∃ rows, (r.2.hw.tabs t).rows = applyRows plan rows

theorem WroteRows.writes {plan : Plan} {hw : Hw} {r : Int × EdgxSched} (h : WroteRows plan hw r.2.hw)
    (hno : NoCan hw) : Writes plan hw r := by
  have hcan : ∀ t, (r.2.hw.tabs t).canUse ≠ true := fun t ht =>
    Bool.false_ne_true ((hno t).symm.trans (h.canUse t ht))
  exact ⟨h.rows, fun _ t => Bool.not_eq_true _ ▸ hcan t, fun _ t ht => absurd ht (hcan t)⟩

theorem Submitted.writes {plan : Plan} {s : EdgxSched} {r : Int × EdgxSched} {t : Tab} {hw : Hw}
    (h : Submitted plan s r t hw) : Writes plan s.hw r := by
  have hold : ∀ v, (hw.tabs v).rows = (s.hw.tabs v).rows := fun v => h.quiet.rows v
  by_cases h0 : r.1 = 0
  · obtain ⟨_, tab, hw', hp⟩ := h.done h0
    have hrows : tab.rows = applyRows plan (hw.tabs t).rows := congrArg Prod.snd hp.content
    refine ⟨fun v j => ?_, fun hne => absurd h0 hne, fun _ v hv => ?_⟩ <;> rw [hw'.tabs] at * <;>
      by_cases hvt : v = t
    · subst hvt
      rw [Function.update_self, hrows, ← hold]
      exact applyRows_cases plan _ j
    · rw [Function.update_of_ne hvt, hold]
      exact .inl rfl
    · subst hvt
      rw [Function.update_self, hrows]
      exact ⟨_, rfl⟩
    · rw [Function.update_of_ne hvt, h.free.noCan v] at hv
      cases hv
  · obtain ⟨_, done, hpre, hw'⟩ := h.failed h0
    refine ⟨fun v j => ?_, fun _ v => ?_, fun h => absurd h h0⟩ <;> rw [hw'.tabs] <;> by_cases hvt : v = t
    · subst hvt
      rw [Function.update_self, ← hold]
      rcases applyRows_cases done (hw.tabs v).rows j with heq | ⟨p, hp, hj⟩
      · exact .inl heq
      · exact .inr ⟨p, hpre.subset hp, hj⟩
    · rw [Function.update_of_ne hvt, hold]
      exact .inl rfl
    · subst hvt
      rw [Function.update_self]
      exact h.free.noCan v
    · rw [Function.update_of_ne hvt]
      exact h.free.noCan v

/-- The FSC variant without a table: rows go to a table all the same. -/
theorem configChange_fsc_none (com : Com) {s : EdgxSched} (herr : (edgxSchedGetFreeTab s.hw).1 = -EINVAL) :
    WroteRows (fscPlan com s.adminTab.list) s.hw (Fsc.edgxSchedConfigChange com s).2.hw := by
  have hfree : WroteRows (fscPlan com s.adminTab.list) s.hw (edgxSchedGetFreeTab s.hw).2 :=
    .of_quiet (Quieter.getFreeTab s.hw)
  have hrows := hfree.trans (.writePlan (-EINVAL) (fscPlan com s.adminTab.list) (edgxSchedGetFreeTab s.hw).2)
  have hnone : tab? (-EINVAL) = none := rfl
  unfold Fsc.edgxSchedConfigChange
  simp only [herr, Function.update_self, Fsc.edgxSchedWriteTable_eq]
  split
  · exact hrows.trans (.setPending hnone _ _ _ _)
  · exact hrows

theorem configChange_writes (u : User) (com : Com) {s : EdgxSched} (h : NoCan s.hw) :
    Writes (u.plan com s.adminTab.list) s.hw (u.variant.configChange com s) := by
  by_cases hfound : u = .fsc → 0 ≤ (edgxSchedGetFreeTab s.hw).1
  · rcases configChange_cases u com h hfound with ⟨_, hw, hq, heq⟩ | ⟨t, hw, hs⟩
    · refine WroteRows.writes (.of_quiet ?_) h
      rw [heq]; exact hq
    · exact hs.writes
  · rw [Classical.not_imp] at hfound
    obtain ⟨rfl, hneg⟩ := hfound
    rcases getFreeTab_cases h with ⟨t, hidx, _⟩ | herr
    · rw [hidx] at hneg
      exact absurd (Int.not_lt.1 t.idx_nonneg) hneg
    · exact (configChange_fsc_none com herr).writes h

/-! ## Exact rows -/

/-- Each index up to the terminal row is written. -/
theorem plan_covers (u : User) (com : Com) {es : List TabEntry} {j : Nat} (h : j ≤ es.length) :
    ∃ p ∈ u.plan com es, p.1 = j := by
  rcases Nat.lt_or_eq_of_le h with hlt | rfl
  · cases u with
    | portGates | streamGates | fsc =>
      obtain ⟨p, hp, hj⟩ := scanPlan_covers 0 _ hlt
      exact ⟨p, List.mem_append_left _ hp, hj.trans (Nat.zero_add j)⟩
  · cases u with
    | portGates | streamGates | fsc => exact ⟨_, List.mem_append_right _ List.mem_cons_self, rfl⟩

/-- A change of a row is exact, and so are all rows of a table that gets
submitted: those of the entries and the terminal row. -/
structure RowsExact (u : User) (com : Com) (s : EdgxSched) (op : Op) : Prop where
  changed : ∀ t j, ((step u.variant com s op).2.hw.tabs t).rows j ≠ (s.hw.tabs t).rows j →
    Encodes u com s.adminTab.list j (((step u.variant com s op).2.hw.tabs t).rows j)
  submitted : (op.submits u.variant com s).isSome → (step u.variant com s op).1 = 0 →
    ∀ t, ((step u.variant com s op).2.hw.tabs t).canUse = true → ∀ j ≤ s.adminTab.list.length,
      Encodes u com s.adminTab.list j (((step u.variant com s op).2.hw.tabs t).rows j)

/-- A rejected write of the admin list leaves the admin table and the
operational schedule as they were. -/
def RejectKeeps (u : User) (com : Com) (s : EdgxSched) : Op → Prop
  | .setEntries first entries allocOk =>
    let r := step u.variant com s (.setEntries first entries allocOk)
    r.1 ≠ 0 → r.2.adminTab = s.adminTab ∧ r.2.opTabs = s.opTabs ∧ r.2.hw = s.hw
  | _ => True

/-- Along the run rows are exact, and rejected writes change nothing. -/
def AdminExact (u : User) (com : Com) (s : EdgxSched) (ops : List Op) : Prop :=
  ∀ pre op suf, ops = pre ++ op :: suf →
    let s' := after (step u.variant com) s pre
    RowsExact u com s' op ∧ RejectKeeps u com s' op

/-- A write of the list that gets as far as storing its entries stores valid
ones, and one that runs out of memory has no table to lose. A change that is
submitted has a list whose times fit the rows. -/
def Proper (u : User) (com : Com) (s : EdgxSched) : Op → Prop
  | .setEntries first entries allocOk =>
    Placed com s first entries →
      if allocOk then ∀ e ∈ entries, Valid u com e
      else first = 0 → s.adminTab.entries = none ∧ s.adminTab.entryCnt = 0
  | op => (op.submits u.variant com s).isSome → Fits u com s.adminTab.list

instance (com : Com) (s : EdgxSched) (first : Nat) (entries : List TabEntry) : Decidable (Placed com s first entries) :=
  inferInstanceAs (Decidable (_ ∧ _))

instance (u : User) (com : Com) (s : EdgxSched) : (op : Op) → Decidable (Proper u com s op)
  | .setEntries .. => by unfold Proper; infer_instance
  | .setCtrlListLen _ | .setCycleTime _ | .setBaseTime _ | .setAdminGateStates .. | .setConfigChange ..
  | .setGateEnabled .. | .pendingDelayed _ | .cctHandler _ | .hwEvents _ => by unfold Proper; infer_instance

/-- The invariant: what the admin table holds is valid. -/
structure AdminInv (u : User) (com : Com) (s : EdgxSched) : Prop where
  noCan : s.state ≠ .pending → NoCan s.hw
  armed : ArmedInv s
  stored : ∀ e ∈ s.adminTab.entries.getD [], Stored u com e
  length : (s.adminTab.entries.getD []).length = s.adminTab.entryCnt
  bound : s.adminTab.entryCnt ≤ com.maxEntryCnt

/-! ## Validation -/

theorem adjust_shared {com : Com} {es : List TabEntry} (h : ∀ e ∈ es, Valid .portGates com e) :
    edgxSchedAdjustAdminTab com es = 0 := by
  induction es with
  | nil => rfl
  | cons e es ih =>
    obtain ⟨hdvd, hmax⟩ := h e List.mem_cons_self
    rw [edgxSchedAdjustAdminTab, if_neg (not_not.2 (Nat.mod_eq_zero_of_dvd hdvd)), if_neg (Nat.not_lt.2 hmax)]
    exact ih fun a ha => h a (List.mem_cons_of_mem e ha)

/-- An entry as the FSC variant stores it. -/
def Fsc.masked (com : Com) (e : TabEntry) : TabEntry := { e with gateStates := e.gateStates &&& com.gateMask }

theorem adjust_fsc {com : Com} {es : List TabEntry} (h : ∀ e ∈ es, Valid .fsc com e) :
    Fsc.edgxSchedAdjustAdminTab com es = (0, es.map (Fsc.masked com)) := by
  induction es with
  | nil => rfl
  | cons e es ih =>
    obtain ⟨hmin, hmax⟩ := h e List.mem_cons_self
    have hok : ¬ (e.timeInterval.toNat / com.hwGranularityNs < Fsc.EDGX_SCHED_INTERVAL_MIN ∨
        e.timeInterval.toNat / com.hwGranularityNs > EDGX_SCHED_INTERVAL_MAX) := by omega
    simp only [Fsc.edgxSchedAdjustAdminTab, if_neg hok, ih fun a ha => h a (List.mem_cons_of_mem e ha)]
    rfl

theorem gates_masked (com : Com) (e : TabEntry) :
    (Fsc.masked com e).gates &&& com.gateMask.setWidth 16 = (Fsc.masked com e).gates := by
  simp [TabEntry.gates, Fsc.masked, BitVec.setWidth_and, BitVec.and_assoc]

/-- **What a write of valid entries stores**, after entries stored before. -/
theorem adjust_stored (u : User) {com : Com} {old entries : List TabEntry} (hold : ∀ e ∈ old, Stored u com e)
    (h : ∀ e ∈ entries, Valid u com e) :
    let r := u.variant.adjustAdminTab com (old ++ entries.map (u.variant.importEntry com))
    r.1 = 0 ∧ r.2.length = old.length + entries.length ∧ ∀ e ∈ r.2, Stored u com e := by
  have hvalid : ∀ e ∈ old ++ entries.map (u.variant.importEntry com), Valid u com e := by
    intro e he
    rcases List.mem_append.1 he with he | he
    · exact (hold e he).valid
    · obtain ⟨a, ha, rfl⟩ := List.mem_map.1 he
      cases u <;> exact h a ha
  have hlen : (old ++ entries.map (u.variant.importEntry com)).length = old.length + entries.length := by
    rw [List.length_append, List.length_map]
  cases u with
  | portGates =>
    refine ⟨adjust_shared hvalid, hlen, fun e he => ?_⟩
    rcases List.mem_append.1 he with he | he
    · exact hold e he
    · obtain ⟨a, ha, rfl⟩ := List.mem_map.1 he
      exact ⟨h a ha, gates_masked com a⟩
  | streamGates =>
    exact ⟨adjust_shared hvalid, hlen, fun e he => ⟨hvalid e he, BitVec.and_allOnes⟩⟩
  | fsc =>
    have hadj := adjust_fsc hvalid
    have hstored := (congrArg (fun r => r.2.length) hadj).trans (List.length_map _)
    refine ⟨congrArg Prod.fst hadj, hstored.trans hlen, fun e he => ?_⟩
    change e ∈ (Fsc.edgxSchedAdjustAdminTab com _).2 at he
    rw [hadj] at he
    obtain ⟨a, ha, rfl⟩ := List.mem_map.1 he
    exact ⟨hvalid a ha, gates_masked com a⟩

/-! ## Steps -/

theorem cfgChange_adminTab {V : Variant} (hV : V.Lawful) (com : Com) (env : Env) (s : EdgxSched) :
    (edgxSchedStmCfgChange V com env s).2.adminTab = s.adminTab := by
  obtain ⟨o, l, hchecked⟩ := checked_eq hV env s
  obtain ⟨o', l', c, t, e, hready⟩ := ready_eq hV com env s
  have hcancel : (edgxSchedStmCancel s).adminTab = s.adminTab := by rw [cancel_eq]
  rcases cfgChange_cases V com env s with ⟨_, h⟩ | ⟨_, _, h⟩ | ⟨_, _, h⟩ | ⟨_, _, h⟩ | ⟨_, h⟩ <;> rw [h]
  · exact hcancel
  · rw [hchecked]; exact hcancel
  · rw [hready]; exact hcancel
  · obtain ⟨hw, op, hs, hcfg⟩ := hV.config com (ready V com env s)
    unfold submit
    dsimp only
    rw [hcfg, hready]
    split <;> exact hcancel

/-- Only writes of admin parameters change the admin table. -/
theorem step_adminTab {V : Variant} (hV : V.Lawful) (com : Com) (s : EdgxSched) {op : Op} (h : op.isAdmin = false) :
    (step V com s op).2.adminTab = s.adminTab := by
  cases op with
  | setEntries first entries allocOk => cases h
  | setCtrlListLen listLen => cases h
  | setCycleTime ct => cases h
  | setBaseTime baseTime => cases h
  | setAdminGateStates gateStates mask => cases h
  | setConfigChange b env => exact cfgChange_adminTab hV com env _
  | setGateEnabled b env =>
    cases b with
    | true =>
      simp only [step, edgxSchedSetGateEnabled, if_true, edgxSchedStmGateEnable]
      split
      · split
        · exact cfgChange_adminTab hV com env _
        · rfl
      · rfl
    | false =>
      simp only [step, edgxSchedSetGateEnabled, Bool.false_eq_true, if_false, edgxSchedStmGateDisable]
      split
      · rfl
      · split <;> rfl
  | pendingDelayed env =>
    simp only [step, edgxSchedStmPendingDelayed]
    split
    · rfl
    · exact cfgChange_adminTab hV com env _
  | cctHandler env =>
    simp only [step, edgxSchedStmCctHandler]
    split
    · split
      · obtain ⟨c, t, e, hw, _, hfix⟩ := hV.fix com env
          { s.withEnv env with hw := (edgxSchedHwIsPending (s.withEnv env).hw).2 }
        rw [hfix]
        rfl
      · rfl
    · rfl
  | hwEvents evs => rfl

/-- A change that is submitted has passed the parameter check. -/
theorem submits_checked {V : Variant} {com : Com} {s : EdgxSched} {op : Op}
    (h : (op.submits V com s).isSome = true) : s.adminTab.listLen ≠ 0 ∧ s.adminTab.listLen ≤ s.adminTab.entryCnt := by
  have hfrom : ∀ env s', (submitFrom V com env s').isSome = true → s'.adminTab = s.adminTab →
      s.adminTab.listLen ≠ 0 ∧ s.adminTab.listLen ≤ s.adminTab.entryCnt := by
    intro env s' hs ha
    unfold submitFrom at hs
    split at hs
    · rename_i hsub
      have hok := hsub.2.2.1
      have hcancel : (edgxSchedStmCancel s').adminTab = s.adminTab := by rw [cancel_eq]; exact ha
      unfold checked edgxSchedCheckCcParams at hok
      rw [hcancel] at hok
      split at hok
      · exact absurd hok (by decide : -EFAULT ≠ 0)
      · omega
    · cases hs
  cases op with
  | setConfigChange b env => exact hfrom env _ h rfl
  | setGateEnabled b env =>
    simp only [Op.submits] at h
    split at h
    · exact hfrom env _ h rfl
    · cases h
  | pendingDelayed env =>
    simp only [Op.submits] at h
    split at h
    · exact hfrom env _ h rfl
    · cases h
  | _ => cases h

@[simp] theorem afterSubmit_hw (c : Int × EdgxSched) : (afterSubmit c).2.hw = c.2.hw := by
  unfold afterSubmit
  split <;> rfl

namespace AdminInv

variable {u : User} {com : Com} {s : EdgxSched}

theorem init (u : User) (com : Com) (gateStates : BitVec 8) : AdminInv u com (init gateStates) where
  noCan _ _ := rfl
  armed h := nomatch h
  stored _ h := nomatch h
  length := rfl
  bound := Nat.zero_le _

theorem settled (h : AdminInv u com s) : Settled s := ⟨h.noCan, fun ha => (h.armed ha).1⟩

/-- Everything a change compiles is valid, and there is at least one entry. -/
theorem list_stored (h : AdminInv u com s) : ∀ e ∈ s.adminTab.list, Stored u com e := fun e he =>
  h.stored e (List.mem_of_mem_take he)

theorem list_length (h : AdminInv u com s) (hc : s.adminTab.listLen ≤ s.adminTab.entryCnt) :
    s.adminTab.list.length = s.adminTab.listLen ∧ s.adminTab.listLen < 1024 := by
  have hmax := com.max_lt
  have hb := h.bound
  rw [SchedTable.list, List.length_take, h.length]
  omega

/-- A write of the admin list that is proper: it is accepted, or nothing
changes. -/
theorem setEntries (h : AdminInv u com s) {first : Nat} {entries : List TabEntry} {allocOk : Bool}
    (hp : Proper u com s (.setEntries first entries allocOk)) :
    AdminInv u com (step u.variant com s (.setEntries first entries allocOk)).2 ∧
      RejectKeeps u com s (.setEntries first entries allocOk) := by
  rcases setEntries_cases u.variant com s first entries allocOk with
    ⟨_, _, heq⟩ | ⟨hpl, ha, _, heq⟩ | ⟨hpl, ha, hret, e, heq⟩
  · refine ⟨?_, fun _ => ?_⟩ <;> simp only [step, heq]
    · exact h
    · exact ⟨trivial, trivial, trivial⟩
  · -- out of memory: there was nothing to clear
    have hkeep := hp hpl
    rw [ha, if_neg Bool.false_ne_true] at hkeep
    have hsame : (if first = 0 then s.adminTab.clear else s.adminTab) = s.adminTab := by
      split
      · rename_i h0
        obtain ⟨hent, hcnt⟩ := hkeep h0
        unfold SchedTable.clear
        rw [← hent, ← hcnt]
      · rfl
    rw [hsame] at heq
    refine ⟨?_, fun _ => ?_⟩ <;> simp only [step, heq]
    · exact h
    · exact ⟨trivial, trivial, trivial⟩
  · have hvalid := hp hpl
    rw [ha, if_pos rfl] at hvalid
    have hold : ∀ e ∈ s.adminTab.kept first, Stored u com e := by
      unfold SchedTable.kept
      split
      · exact fun e he => absurd he List.not_mem_nil
      · exact h.stored
    have hlen : (s.adminTab.kept first).length = first := by
      unfold SchedTable.kept
      split
      · rename_i h0; exact h0.symm
      · rename_i h0; exact h.length.trans (hpl.2.resolve_left h0).symm
    obtain ⟨h0, hl, hs⟩ := adjust_stored u hold hvalid
    refine ⟨?_, fun hne => absurd (hret.trans h0) hne⟩
    simp only [step, heq]
    exact ⟨h.noCan, h.armed, hs, hl.trans (by rw [hlen]), hpl.1⟩

/-- **What one step does to the rows.** -/
theorem rowsExact (h : AdminInv u com s) {op : Op}
    (hf : (op.submits u.variant com s).isSome → Fits u com s.adminTab.list) : RowsExact u com s op := by
  rcases step_submits u.lawful com h.settled op with ⟨hn, hp⟩ | ⟨s₁, hsub, hr, heq⟩
  · refine ⟨fun t j hne => absurd (congrFun (hp.quiet.rows t) j) hne, fun hs => ?_⟩
    rw [hn] at hs
    cases hs
  · have hsome : (op.submits u.variant com s).isSome = true := by rw [hsub]; rfl
    obtain ⟨hne, hle⟩ := submits_checked hsome
    obtain ⟨hlen, hlt⟩ := h.list_length hle
    have hnil : s.adminTab.list ≠ [] := by
      intro hnil
      rw [hnil] at hlen
      exact hne hlen.symm
    have henc := plan_encodes u hnil h.list_stored (hf hsome)
    have hrow : ∀ p ∈ u.plan com s.adminTab.list, cmdRow p.1 = p.1 := fun p hp =>
      cmdRow_of_lt (by have := (henc p hp).1; omega)
    have hw := configChange_writes u com hr.noCan
    rw [hr.adminTab] at hw
    refine ⟨fun t j hchg => ?_, fun _ h0 t ht j hj => ?_⟩ <;> rw [heq, afterSubmit_hw] at *
    · rcases hw.rows t j with hsame | ⟨p, hp, hpj, hval⟩
      · exact absurd (hsame.trans (congrFun (hr.quiet.rows t) j)) hchg
      · rw [hval, ← hpj, hrow p hp]
        exact (henc p hp).2
    · obtain ⟨rows, hrows⟩ := hw.done h0 t ht
      obtain ⟨q, hq, rfl⟩ := plan_covers u com hj
      obtain ⟨p, hp, hpj, hval⟩ := applyRows_written rows ⟨q, hq, hrow q hq⟩
      rw [hrows, hval, ← hpj, hrow p hp]
      exact (henc p hp).2

/-- A step that leaves the admin table alone keeps the invariant. -/
theorem other (h : AdminInv u com s) (op : Op) (hop : op.isAdmin = false) :
    AdminInv u com (step u.variant com s op).2 := by
  have hadm := step_adminTab u.lawful com s hop
  refine ⟨?_, armedInv_step u.lawful com op h.armed, by rw [hadm]; exact h.stored,
    by rw [hadm]; exact h.length, by rw [hadm]; exact h.bound⟩
  rcases step_submits u.lawful com h.settled op with ⟨_, hp⟩ | ⟨s₁, _, hr, heq⟩
  · exact hp.noCan
  · rw [heq, afterSubmit_hw]
    intro hst
    refine (configChange_writes u com hr.noCan).failed fun h0 => hst ?_
    rw [afterSubmit, if_pos h0]

/-- Every proper step keeps the invariant. -/
theorem step (h : AdminInv u com s) (op : Op) (hp : Proper u com s op) :
    AdminInv u com (step u.variant com s op).2 := by
  cases op with
  | setEntries first entries allocOk => exact (h.setEntries hp).1
  | setCtrlListLen listLen =>
    simp only [Sched.step, edgxSchedSetCtrlListLen]
    split
    · exact h
    · exact ⟨h.noCan, h.armed, h.stored, h.length, h.bound⟩
  | setCycleTime ct =>
    simp only [Sched.step, edgxSchedSetCycleTime]
    split
    · exact h
    · split <;> exact ⟨h.noCan, h.armed, h.stored, h.length, h.bound⟩
  | setBaseTime baseTime => exact ⟨h.noCan, h.armed, h.stored, h.length, h.bound⟩
  | setAdminGateStates gateStates mask => exact ⟨h.noCan, h.armed, h.stored, h.length, h.bound⟩
  | setConfigChange b env => exact h.other (.setConfigChange b env) rfl
  | setGateEnabled b env => exact h.other (.setGateEnabled b env) rfl
  | pendingDelayed env => exact h.other (.pendingDelayed env) rfl
  | cctHandler env => exact h.other (.cctHandler env) rfl
  | hwEvents evs => exact h.other (.hwEvents evs) rfl

/-- What a proper step does. -/
theorem exact_step (h : AdminInv u com s) {op : Op} (hp : Proper u com s op) :
    RowsExact u com s op ∧ RejectKeeps u com s op := by
  cases op with
  | setEntries first entries allocOk => exact ⟨h.rowsExact (fun hs => nomatch hs), (h.setEntries hp).2⟩
  | _ => exact ⟨h.rowsExact hp, trivial⟩

end AdminInv

/-- **Rows are exact and rejected writes change nothing** in every run whose
steps are proper. -/
theorem adminExact_of_proper (u : User) (com : Com) (gateStates : BitVec 8) {ops : List Op}
    (h : Guarded (step u.variant com) (Proper u com) (init gateStates) ops) :
    AdminExact u com (init gateStates) ops := by
  rintro pre op suf rfl
  have hinv : AdminInv u com (after (step u.variant com) (init gateStates) pre) :=
    h.of_append.inv_after (AdminInv.init u com gateStates) fun s op hs hp => hs.step op hp
  exact hinv.exact_step h.at_step

/-- A list written in two parts, and submitted. -/
theorem adminExact_of_proper_twoWrites : AdminExact .portGates someCom (init 0xff)
    [.setEntries 0 [⟨3200, 0, 0x0f⟩] true, .setEntries 1 [⟨6400, 0, 0xf0⟩] true, .setEntries 5 [] true,
      .setCtrlListLen 2, .setCycleTime ⟨1, 1000⟩, .setBaseTime ⟨10, 0⟩, .setGateEnabled true {},
      .setConfigChange true {}] :=
  adminExact_of_proper .portGates someCom 0xff (by decide)

/-- An interval of 100 ns is no multiple of 320 ns: the write is rejected
after the entry has been stored. -/
theorem not_adminExact_rejected : ¬ AdminExact .portGates someCom (init 0xff) [.setEntries 0 [⟨100, 0, 0xff⟩] true] :=
  fun h => by
    have hkeep := ((h [] (.setEntries 0 [⟨100, 0, 0xff⟩] true) [] rfl).2 (by decide)).1
    exact absurd (congrArg SchedTable.entryCnt hkeep) (by decide)

end TsnSwitch.Sched
