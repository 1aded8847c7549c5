/-
What a call of the scheduler can do: the fields each function leaves alone,
and the ways a configuration change can end (`cfgChange_cases`). The results
about runs use these and do not unfold the handlers.
-/
import TsnSwitch.Sched.Events
import TsnSwitch.Sched.Machine

namespace TsnSwitch.Sched

/-- A configuration change up to the parameter check. -/
def checked (V : Variant) (env : Env) (s : EdgxSched) : Int × EdgxSched :=
  edgxSchedCheckCcParams V env (edgxSchedStmCancel s)

/-- Up to the computation of the start time. -/
def timed (V : Variant) (com : Com) (env : Env) (s : EdgxSched) : (Int × Bool) × EdgxSched :=
  edgxSchedCalcCcTime V com env (checked V env s).2

/-- The state in which the schedule is delayed or submitted. -/
def ready (V : Variant) (com : Com) (env : Env) (s : EdgxSched) : EdgxSched :=
  let t := timed V com env s
  if t.1.2 then { t.2 with confChangeErr := t.2.confChangeErr + 1 } else t.2

/-- A configuration change from `s` gets as far as choosing a table. -/
def Submits (V : Variant) (com : Com) (env : Env) (s : EdgxSched) : Prop :=
  s.confChange = true ∧ s.gateEnabled = true ∧ (checked V env s).1 = 0 ∧ (timed V com env s).1.1 = 0

instance (V : Variant) (com : Com) (env : Env) (s : EdgxSched) : Decidable (Submits V com env s) :=
  inferInstanceAs (Decidable (_ ∧ _))

theorem cancel_gateEnabled (s : EdgxSched) : (edgxSchedStmCancel s).gateEnabled = s.gateEnabled := by
  unfold edgxSchedStmCancel; dsimp only; split <;> split <;> rfl

/-- The end of a configuration change that submits. -/
def submit (V : Variant) (com : Com) (env : Env) (s : EdgxSched) : Int × EdgxSched :=
  let c := V.configChange com (ready V com env s)
  (c.1, { (if c.1 = 0 then { c.2 with state := .pending } else c.2) with confChange := false })

/-- The handler after its guards. -/
theorem cfgChange_of_gate {V : Variant} {com : Com} {env : Env} {s : EdgxSched} (hc : s.confChange = true)
    (hg : s.gateEnabled = true) :
    edgxSchedStmCfgChange V com env s =
      if (checked V env s).1 ≠ 0 then
        ((checked V env s).1, { (checked V env s).2 with confChange := false })
      else if (timed V com env s).1.1 ≠ 0 then
        (0, { ready V com env s with state := .pendingDelayed, armed := true, confChange := false })
      else submit V com env s := by
  unfold edgxSchedStmCfgChange
  rw [hc, Bool.not_true, if_neg Bool.false_ne_true]
  dsimp only
  rw [cancel_gateEnabled, hg, Bool.not_true, if_neg Bool.false_ne_true]
  rfl

/-- The five ways a configuration change can end. -/
theorem cfgChange_cases (V : Variant) (com : Com) (env : Env) (s : EdgxSched) :
    let r := edgxSchedStmCfgChange V com env s
    (s.confChange = false ∧ r = (0, s)) ∨
    (s.confChange = true ∧ s.gateEnabled = false ∧ r = (0, edgxSchedStmCancel s)) ∨
    (s.confChange = true ∧ (checked V env s).1 ≠ 0 ∧
      r = ((checked V env s).1, { (checked V env s).2 with confChange := false })) ∨
    (s.confChange = true ∧ s.gateEnabled = true ∧
      r = (0, { ready V com env s with state := .pendingDelayed, armed := true, confChange := false })) ∨
    (Submits V com env s ∧ r = submit V com env s) := by
  intro r
  cases hc : s.confChange with
  | false => exact .inl ⟨rfl, by simp [r, edgxSchedStmCfgChange, hc]⟩
  | true =>
    right
    cases hg : s.gateEnabled with
    | false => exact .inl ⟨rfl, rfl, by simp [r, edgxSchedStmCfgChange, hc, cancel_gateEnabled, hg]⟩
    | true =>
      right
      have hr : r = _ := cfgChange_of_gate hc hg
      by_cases hchk : (checked V env s).1 = 0
      · rw [if_neg (not_not.2 hchk)] at hr
        by_cases hd : (timed V com env s).1.1 = 0
        · exact .inr (.inr ⟨⟨hc, hg, hchk, hd⟩, hr.trans (if_neg (not_not.2 hd))⟩)
        · exact .inr (.inl ⟨rfl, rfl, hr.trans (if_pos hd)⟩)
      · exact .inl ⟨rfl, hchk, hr.trans (if_pos hchk)⟩

/-! ## What the functions leave alone -/

theorem cancel_eq (s : EdgxSched) :
    edgxSchedStmCancel s =
      { s with hw := if s.state = .pending then edgxSchedHwCancelPending s.hw else s.hw
               armed := if s.state = .pendingDelayed then false else s.armed
               state := .idle } := by
  obtain ⟨_, _, _, _, _, _, _, state, _, _, _, _, _⟩ := s
  cases state <;> rfl

/-- The fields the functions of a variant may change. -/
structure Variant.Lawful (V : Variant) : Prop where
  offset : ∀ env s, ∃ o l, (V.getSchedOffset env s).2 = { s with offsetNs := o, linkMode := l }
  fix : ∀ com env s, ∃ c t e hw, Quieter s.hw hw ∧
    V.fixCcTime com env s = { s with confChangeTime := c, startTime := t, confChangeErr := e, hw := hw }
  config : ∀ com s, ∃ hw o h, (V.configChange com s).2 = { s with hw := hw, opTabs := o, submitted := h }

theorem fixCcTime_eq (s : EdgxSched) : ∃ c t e hw, Quieter s.hw hw ∧
    edgxSchedFixCcTime s = { s with confChangeTime := c, startTime := t, confChangeErr := e, hw := hw } := by
  have hu := Quieter.getUsedTab s.hw
  unfold edgxSchedFixCcTime
  dsimp only
  split
  · exact ⟨_, _, _, _, hu, rfl⟩
  · have hq := hu.trans (Quieter.tick (edgxSchedGetUsedTab s.hw).2)
    split
    · exact ⟨_, _, _, _, hq, rfl⟩
    · exact ⟨_, _, _, _, hq, rfl⟩

theorem Fsc.fixCcTime_eq (com : Com) (env : Env) (s : EdgxSched) : ∃ c t e hw, Quieter s.hw hw ∧
    Fsc.edgxSchedFixCcTime com env s =
      { s with confChangeTime := c, startTime := t, confChangeErr := e, hw := hw } := by
  have hu := Quieter.getUsedTab s.hw
  unfold Fsc.edgxSchedFixCcTime
  dsimp only
  split
  · exact ⟨_, _, _, _, hu, rfl⟩
  · have hq := hu.trans (Quieter.tick (edgxSchedGetUsedTab s.hw).2)
    split
    · exact ⟨_, _, _, _, hq, rfl⟩
    · exact ⟨_, _, _, _, hq, rfl⟩

theorem configChange_eq (prepareConfig : Com → Hw → List TabEntry → Int × Hw) (com : Com) (s : EdgxSched) :
    ∃ hw o h, (edgxSchedConfigChange prepareConfig com s).2 =
      { s with hw := hw, opTabs := o, submitted := h } := by
  unfold edgxSchedConfigChange
  dsimp only
  split
  · exact ⟨_, _, _, rfl⟩
  · split <;> exact ⟨_, _, _, rfl⟩

theorem Fsc.configChange_eq (com : Com) (s : EdgxSched) :
    ∃ hw o h, (Fsc.edgxSchedConfigChange com s).2 = { s with hw := hw, opTabs := o, submitted := h } := by
  unfold Fsc.edgxSchedConfigChange
  dsimp only
  split <;> exact ⟨_, _, _, rfl⟩

theorem shared_lawful (importEntry prepareConfig) : (shared importEntry prepareConfig).Lawful where
  offset env s := by
    change ∃ o l, (edgxSchedGetSchedOffset env s).2 = _
    unfold edgxSchedGetSchedOffset
    split <;> exact ⟨_, _, rfl⟩
  fix _ _ s := fixCcTime_eq s
  config com s := configChange_eq prepareConfig com s

theorem fsc_lawful : fsc.Lawful where
  offset _ _ := ⟨_, _, rfl⟩
  fix := Fsc.fixCcTime_eq
  config := Fsc.configChange_eq

theorem User.lawful (u : User) : u.variant.Lawful := by
  cases u with
  | portGates => exact shared_lawful _ _
  | streamGates => exact shared_lawful _ _
  | fsc => exact fsc_lawful

section Lawful

variable {V : Variant} (hV : V.Lawful) (com : Com) (env : Env) (s : EdgxSched)
include hV

theorem checked_eq : ∃ o l, (checked V env s).2 =
    { edgxSchedStmCancel s with offsetNs := o, linkMode := l } := by
  unfold checked edgxSchedCheckCcParams
  split
  · exact ⟨_, _, rfl⟩
  · exact hV.offset env _

theorem ready_eq : ∃ o l c t e, ready V com env s =
    { edgxSchedStmCancel s with
      offsetNs := o, linkMode := l, confChangeTime := c, startTime := t, confChangeErr := e } := by
  obtain ⟨o, l, h⟩ := checked_eq hV env s
  unfold ready timed edgxSchedCalcCcTime
  rw [h]
  dsimp only
  split <;> exact ⟨_, _, _, _, _, rfl⟩

end Lawful

/-! ## Admin parameters -/

/-- The admin table without its entries. -/
def SchedTable.clear (a : SchedTable) : SchedTable := { a with entries := none, entryCnt := 0 }

/-- The entries a write at `first` is appended to. -/
def SchedTable.kept (a : SchedTable) (first : Nat) : List TabEntry :=
  if first = 0 then [] else a.entries.getD []

/-- The list a write stores, and what its validation returns. -/
def storeList (V : Variant) (com : Com) (s : EdgxSched) (first : Nat) (entries : List TabEntry) :
    Int × List TabEntry :=
  V.adjustAdminTab com (s.adminTab.kept first ++ entries.map (V.importEntry com))

/-- A write at `first` passes the checks made before the table is touched. -/
def Placed (com : Com) (s : EdgxSched) (first : Nat) (entries : List TabEntry) : Prop :=
  first + entries.length ≤ com.maxEntryCnt ∧ (first = 0 ∨ first = s.adminTab.entryCnt)

/-- The three ways a write of the admin list can end. -/
theorem setEntries_cases (V : Variant) (com : Com) (s : EdgxSched) (first : Nat) (entries : List TabEntry)
    (allocOk : Bool) :
    let r := edgxSchedSetEntries V com s first entries allocOk
    (¬ Placed com s first entries ∧ r.1 < 0 ∧ r.2 = s) ∨
    (Placed com s first entries ∧ allocOk = false ∧ r.1 < 0 ∧
      r.2 = { s with adminTab := if first = 0 then s.adminTab.clear else s.adminTab }) ∨
    (Placed com s first entries ∧ allocOk = true ∧ r.1 = (storeList V com s first entries).1 ∧
      ∃ e, r.2 = { s with
        adminTab := { s.adminTab with entries := some (storeList V com s first entries).2
                                      entryCnt := first + entries.length }
        confChangeErr := e }) := by
  intro r
  simp only [r, edgxSchedSetEntries]
  by_cases hbig : first + entries.length > com.maxEntryCnt
  · rw [if_pos hbig]
    exact .inl ⟨fun h => absurd h.1 (Nat.not_le.2 hbig), (by decide : -EFBIG < 0), rfl⟩
  rw [if_neg hbig]
  by_cases h0 : first = 0
  · subst h0
    have hp : Placed com s 0 entries := ⟨Nat.not_lt.1 hbig, .inl rfl⟩
    simp only [if_true, ne_eq, not_true_eq_false, if_false]
    cases allocOk with
    | false => exact .inr (.inl ⟨hp, rfl, (by decide : -ENOMEM < 0), rfl⟩)
    | true =>
      right; right
      refine ⟨hp, rfl, ?_⟩
      simp only [Bool.not_true, Bool.false_eq_true, if_false, storeList, SchedTable.kept, if_true]
      split
      · exact ⟨rfl, _, rfl⟩
      · rename_i hr
        exact ⟨(not_not.1 hr).symm, _, rfl⟩
  · simp only [if_neg h0]
    by_cases hc : first = s.adminTab.entryCnt
    · have hp : Placed com s first entries := ⟨Nat.not_lt.1 hbig, .inr hc⟩
      rw [if_neg (not_not.2 hc)]
      cases allocOk with
      | false => exact .inr (.inl ⟨hp, rfl, (by decide : -ENOMEM < 0), rfl⟩)
      | true =>
        right; right
        refine ⟨hp, rfl, ?_⟩
        simp only [Bool.not_true, Bool.false_eq_true, if_false, storeList, SchedTable.kept, if_neg h0]
        split
        · exact ⟨rfl, _, rfl⟩
        · rename_i hr
          exact ⟨(not_not.1 hr).symm, _, rfl⟩
    · rw [if_pos hc]
      refine .inl ⟨fun h => ?_, EINVAL_neg, rfl⟩
      rcases h.2 with h' | h'
      · exact h0 h'
      · exact hc h'

/-- A write of admin parameters. -/
def Op.isAdmin : Op → Bool
  | .setEntries .. | .setCtrlListLen _ | .setCycleTime _ | .setBaseTime _ | .setAdminGateStates .. => true
  | .setConfigChange .. | .setGateEnabled .. | .pendingDelayed _ | .cctHandler _ | .hwEvents _ => false

/-- A write of admin parameters touches nothing else but the error count. -/
theorem admin_eq (V : Variant) (com : Com) (s : EdgxSched) {op : Op} (h : op.isAdmin = true) :
    ∃ a e, (step V com s op).2 = { s with adminTab := a, confChangeErr := e } := by
  cases op with
  | setEntries first entries allocOk =>
    simp only [step]
    rcases setEntries_cases V com s first entries allocOk with ⟨_, _, h⟩ | ⟨_, _, _, h⟩ | ⟨_, _, _, _, h⟩ <;>
      exact ⟨_, _, h⟩
  | setCtrlListLen listLen =>
    simp only [step, edgxSchedSetCtrlListLen]
    split <;> exact ⟨_, _, rfl⟩
  | setCycleTime ct =>
    simp only [step, edgxSchedSetCycleTime]
    split
    · exact ⟨_, _, rfl⟩
    · split <;> exact ⟨_, _, rfl⟩
  | setBaseTime baseTime => exact ⟨_, _, rfl⟩
  | setAdminGateStates gateStates mask => exact ⟨_, _, rfl⟩
  | setConfigChange b env => cases h
  | setGateEnabled b env => cases h
  | pendingDelayed env => cases h
  | cctHandler env => cases h
  | hwEvents evs => cases h

/-! ## Where a step submits -/

/-- The state from which a configuration change submits, if it does. -/
def submitFrom (V : Variant) (com : Com) (env : Env) (s : EdgxSched) : Option EdgxSched :=
  if Submits V com env s then some (ready V com env s) else none

/-- The gate enable handler up to the configuration change. -/
def enabled (s : EdgxSched) : EdgxSched :=
  let s := { s with hw := s.hw.wrEme false s.adminTab.gateStates }
  { s with hw := (edgxSchedGetUsedTab s.hw).2 }

/-- The state in which a step calls `config_change`, if it does. -/
def Op.submits (V : Variant) (com : Com) (s : EdgxSched) : Op → Option EdgxSched
  | .setConfigChange b env => submitFrom V com env { s.withEnv env with confChange := b }
  | .setGateEnabled b env =>
    if b && s.state = .idle then submitFrom V com env (enabled { s.withEnv env with gateEnabled := b }) else none
  | .pendingDelayed env =>
    if s.armed then submitFrom V com env { s.withEnv env with armed := false, state := .idle } else none
  | .setEntries .. | .setCtrlListLen _ | .setCycleTime _ | .setBaseTime _ | .setAdminGateStates .. => none
  | .cctHandler _ | .hwEvents _ => none

/-- How a step goes on after `config_change` returned `c`. -/
def afterSubmit (c : Int × EdgxSched) : Int × EdgxSched :=
  (c.1, { (if c.1 = 0 then { c.2 with state := .pending } else c.2) with confChange := false })

/-- The tables and control state between calls: only a pending change is
submitted, and only a delayed one has scheduled work. -/
structure Settled (s : EdgxSched) : Prop where
  noCan : s.state ≠ .pending → NoCan s.hw
  armed : s.armed = true → s.state = .pendingDelayed

/-- What a step that does not submit leaves alone. -/
structure Passes (s s' : EdgxSched) : Prop where
  quiet : Quieter s.hw s'.hw
  opTabs : s'.opTabs = s.opTabs
  submitted : s'.submitted = s.submitted
  noCan : s'.state ≠ .pending → NoCan s'.hw

/-- The state in which `config_change` is called. -/
structure Ready (s s' : EdgxSched) : Prop where
  quiet : Quieter s.hw s'.hw
  adminTab : s'.adminTab = s.adminTab
  opTabs : s'.opTabs = s.opTabs
  submitted : s'.submitted = s.submitted
  noCan : NoCan s'.hw
  state : s'.state = .idle

theorem Ready.of_quiet {s s' s'' : EdgxSched} (h : Ready s' s'') (hq : Quieter s.hw s'.hw)
    (ha : s'.adminTab = s.adminTab) (ho : s'.opTabs = s.opTabs) (hs : s'.submitted = s.submitted) : Ready s s'' :=
  ⟨hq.trans h.quiet, h.adminTab.trans ha, h.opTabs.trans ho, h.submitted.trans hs, h.noCan, h.state⟩

theorem Passes.of_quiet {s s' s'' : EdgxSched} (h : Passes s' s'') (hq : Quieter s.hw s'.hw)
    (ho : s'.opTabs = s.opTabs) (hs : s'.submitted = s.submitted) : Passes s s'' :=
  ⟨hq.trans h.quiet, h.opTabs.trans ho, h.submitted.trans hs, h.noCan⟩

/-- A configuration change from a settled state passes, or submits. -/
theorem cfgChange_submits {V : Variant} (hV : V.Lawful) (com : Com) (env : Env) {s : EdgxSched}
    (hcan : s.state ≠ .pending → NoCan s.hw) :
    let r := edgxSchedStmCfgChange V com env s
    (submitFrom V com env s = none ∧ Passes s r.2) ∨
      ∃ s₁, submitFrom V com env s = some s₁ ∧ Ready s s₁ ∧ r = afterSubmit (V.configChange com s₁) := by
  intro r
  have hquiet : Quieter s.hw (edgxSchedStmCancel s).hw := by
    rw [cancel_eq]
    dsimp only
    split
    · exact Quieter.cancel s.hw
    · exact Quieter.refl s.hw
  have hno : NoCan (edgxSchedStmCancel s).hw := by
    rw [cancel_eq]
    dsimp only
    split
    · exact noCan_cancel s.hw
    · rename_i h; exact hcan h
  obtain ⟨o, l, hchecked⟩ := checked_eq hV env s
  obtain ⟨o', l', c, t, e, hready⟩ := ready_eq hV com env s
  have hopt : (edgxSchedStmCancel s).opTabs = s.opTabs := by rw [cancel_eq]
  have hsub : (edgxSchedStmCancel s).submitted = s.submitted := by rw [cancel_eq]
  have hadm : (edgxSchedStmCancel s).adminTab = s.adminTab := by rw [cancel_eq]
  have hidle : (edgxSchedStmCancel s).state = .idle := by rw [cancel_eq]
  have hr : r = edgxSchedStmCfgChange V com env s := rfl
  by_cases hs : Submits V com env s
  · right
    refine ⟨ready V com env s, if_pos hs, ?_, ?_⟩
    · rw [hready]; exact ⟨hquiet, hadm, hopt, hsub, hno, hidle⟩
    · rw [hr, cfgChange_of_gate hs.1 hs.2.1, if_neg (not_not.2 hs.2.2.1), if_neg (not_not.2 hs.2.2.2)]
      rfl
  · left
    refine ⟨if_neg hs, ?_⟩
    rcases cfgChange_cases V com env s with ⟨_, h⟩ | ⟨_, _, h⟩ | ⟨_, _, h⟩ | ⟨_, _, h⟩ | ⟨h', _⟩
    · rw [hr, h]; exact ⟨Quieter.refl _, rfl, rfl, hcan⟩
    · rw [hr, h]; exact ⟨hquiet, hopt, hsub, fun _ => hno⟩
    · rw [hr, h, hchecked]; exact ⟨hquiet, hopt, hsub, fun _ => hno⟩
    · rw [hr, h, hready]; exact ⟨hquiet, hopt, hsub, fun _ => hno⟩
    · exact absurd h' hs

/-- The same after a part of a step that leaves the tables alone. -/
theorem cfgChange_submits_from {V : Variant} (hV : V.Lawful) (com : Com) (env : Env) {s s' : EdgxSched}
    (hq : Quieter s.hw s'.hw) (ha : s'.adminTab = s.adminTab) (ho : s'.opTabs = s.opTabs) (hs : s'.submitted = s.submitted)
    (hcan : s'.state ≠ .pending → NoCan s'.hw) :
    let r := edgxSchedStmCfgChange V com env s'
    (submitFrom V com env s' = none ∧ Passes s r.2) ∨
      ∃ s₁, submitFrom V com env s' = some s₁ ∧ Ready s s₁ ∧ r = afterSubmit (V.configChange com s₁) := by
  rcases cfgChange_submits hV com env hcan with ⟨hn, hp⟩ | ⟨s₁, hs₁, hr, heq⟩
  · exact .inl ⟨hn, hp.of_quiet hq ho hs⟩
  · exact .inr ⟨s₁, hs₁, hr.of_quiet hq ha ho hs, heq⟩

theorem quieter_withEnv (s : EdgxSched) (env : Env) : Quieter s.hw (s.withEnv env).hw := Quieter.of_tabs rfl rfl rfl

/-- Gates are disabled. -/
theorem gateDisable_passes (V : Variant) (com : Com) {s : EdgxSched} (h : Settled s) (env : Env) :
    Passes s (step V com s (.setGateEnabled false env)).2 := by
  have henv := quieter_withEnv s env
  simp only [step, edgxSchedSetGateEnabled, Bool.false_eq_true, if_false, edgxSchedStmGateDisable]
  split
  · have hq := henv.trans (Quieter.cancel (s.withEnv env).hw)
    exact ⟨hq.trans (Quieter.wrEme _ _ _), rfl, rfl,
      fun _ => (noCan_cancel (s.withEnv env).hw).quieter (Quieter.wrEme _ _ _)⟩
  · rename_i hne
    have hno : NoCan (s.withEnv env).hw := h.noCan hne
    split
    · exact ⟨henv.trans (Quieter.wrEme _ _ _), rfl, rfl, fun _ => hno.quieter (Quieter.wrEme _ _ _)⟩
    · exact ⟨henv.trans (Quieter.wrEme _ _ _), rfl, rfl, fun _ => hno.quieter (Quieter.wrEme _ _ _)⟩

/-- The interrupt handler may fix the time of a table, and ends what is pending. -/
theorem cctHandler_passes {V : Variant} (hV : V.Lawful) (com : Com) {s : EdgxSched} (h : Settled s) (env : Env) :
    Passes s (step V com s (.cctHandler env)).2 := by
  have henv := quieter_withEnv s env
  simp only [step, edgxSchedStmCctHandler]
  split
  · have hq := henv.trans (Quieter.isPending (s.withEnv env).hw)
    split
    · rename_i hp
      obtain ⟨c, t, e, hw, hfq, hfix⟩ := hV.fix com env
        { s.withEnv env with hw := (edgxSchedHwIsPending (s.withEnv env).hw).2 }
      rw [hfix]
      exact ⟨hq.trans hfq, rfl, rfl,
        fun _ => (noCan_isPending (Bool.not_eq_true' _ ▸ hp)).quieter hfq⟩
    · rename_i hst _
      exact ⟨hq, rfl, rfl, fun hne => absurd hst hne⟩
  · exact ⟨henv, rfl, rfl, h.noCan⟩

/-- **A step passes, or submits** from a state in which no table is
submitted. -/
theorem step_submits {V : Variant} (hV : V.Lawful) (com : Com) {s : EdgxSched} (h : Settled s) (op : Op) :
    let r := step V com s op
    (op.submits V com s = none ∧ Passes s r.2) ∨
      ∃ s₁, op.submits V com s = some s₁ ∧ Ready s s₁ ∧ r = afterSubmit (V.configChange com s₁) := by
  intro r
  have henv := quieter_withEnv s
  have hcan : ∀ env, s.state ≠ .pending → NoCan (s.withEnv env).hw := fun env => h.noCan
  cases hop : op.isAdmin with
  | true =>
    left
    obtain ⟨a, e, heq⟩ := admin_eq V com s hop
    refine ⟨?_, by rw [show r.2 = _ from heq]; exact ⟨Quieter.refl _, rfl, rfl, h.noCan⟩⟩
    cases op <;> first | rfl | cases hop
  | false =>
    cases op with
    | setEntries first entries allocOk => cases hop
    | setCtrlListLen listLen => cases hop
    | setCycleTime ct => cases hop
    | setBaseTime baseTime => cases hop
    | setAdminGateStates gateStates mask => cases hop
    | setConfigChange b env =>
      have hq : Quieter s.hw ({ s.withEnv env with confChange := b } : EdgxSched).hw := henv env
      exact cfgChange_submits_from hV com env hq rfl rfl rfl (hcan env)
    | setGateEnabled b env =>
      cases b with
      | false => exact .inl ⟨rfl, gateDisable_passes V com h env⟩
      | true =>
        by_cases hidle : s.state = .idle
        · have hq : Quieter s.hw (enabled { s.withEnv env with gateEnabled := true }).hw :=
            (henv env).trans ((Quieter.wrEme _ _ _).trans (Quieter.getUsedTab _))
          have hno : NoCan (enabled { s.withEnv env with gateEnabled := true }).hw :=
            (h.noCan (by rw [hidle]; decide)).quieter hq
          have hsub : (Op.setGateEnabled true env).submits V com s =
              submitFrom V com env (enabled { s.withEnv env with gateEnabled := true }) := by
            simp [Op.submits, hidle]
          rw [hsub]
          have hr : r = if s.confChange then
              edgxSchedStmCfgChange V com env (enabled { s.withEnv env with gateEnabled := true })
              else (0, enabled { s.withEnv env with gateEnabled := true }) := by
            simp only [r, step, edgxSchedSetGateEnabled, if_true, edgxSchedStmGateEnable]
            exact if_pos hidle
          cases hc : s.confChange with
          | true =>
            rw [hc, if_pos rfl] at hr
            rw [hr]
            exact cfgChange_submits_from hV com env hq rfl rfl rfl fun _ => hno
          | false =>
            rw [hc, if_neg Bool.false_ne_true] at hr
            rw [hr]
            refine .inl ⟨if_neg fun hs => ?_, hq, rfl, rfl, fun _ => hno⟩
            exact absurd (hc.symm.trans hs.1) Bool.false_ne_true
        · left
          refine ⟨by simp [Op.submits, hidle], ?_⟩
          have hr : r = (0, { s.withEnv env with gateEnabled := true }) := by
            simp only [r, step, edgxSchedSetGateEnabled, if_true, edgxSchedStmGateEnable]
            exact if_neg hidle
          rw [hr]
          exact ⟨henv env, rfl, rfl, hcan env⟩
    | pendingDelayed env =>
      cases ha : s.armed with
      | false =>
        left
        refine ⟨by simp [Op.submits, ha], ?_⟩
        have ha' : (s.withEnv env).armed = false := ha
        simp only [r, step, edgxSchedStmPendingDelayed, ha', Bool.not_false, if_true]
        exact ⟨henv env, rfl, rfl, hcan env⟩
      | true =>
        have ha' : (s.withEnv env).armed = true := ha
        have hno : NoCan (s.withEnv env).hw := hcan env (by rw [h.armed ha]; decide)
        have hsub : (Op.pendingDelayed env).submits V com s =
            submitFrom V com env { s.withEnv env with armed := false, state := .idle } := by
          simp [Op.submits, ha]
        have hr : r = edgxSchedStmCfgChange V com env { s.withEnv env with armed := false, state := .idle } := by
          simp only [r, step, edgxSchedStmPendingDelayed, ha', Bool.not_true, Bool.false_eq_true, if_false]
        rw [hsub, hr]
        exact cfgChange_submits_from hV com env (henv env) rfl rfl rfl fun _ => hno
    | cctHandler env => exact .inl ⟨rfl, cctHandler_passes hV com h env⟩
    | hwEvents evs =>
      have hq := Quieter.events s.hw evs
      exact .inl ⟨rfl, hq, rfl, rfl, fun hne => (h.noCan hne).quieter hq⟩

end TsnSwitch.Sched
