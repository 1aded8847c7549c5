/-
No computation of the scheduler divides by zero, and no rate it computes has a
denominator of zero, as long as no open time is cut to nothing in 32 bits and
no slope is scaled by a rate below 1 without whole parts
(`divisorsOk_iff_guarded`).

The setter of the cycle time keeps the denominator, and a configuration change
checks the numerator. Both are known where a step divides, so a step can only
fail where it notifies the shapers (`schedStep?_eq`).
-/
import TsnSwitch.Lib.Run
import TsnSwitch.Sched.AdminList
import TsnSwitch.Sched.Checked

namespace TsnSwitch.Sched

open Lib
open Fqtss (TrRate EdgxFqtss Params SlopeFault)

/-! ## What a step does besides -/

/-- The rates after a step that calls `config_change` in the state `s`. -/
def ratesAfter (u : User) (com : Com) (s : Option EdgxSched) (trRate : Nat → TrRate) : Nat → TrRate :=
  match u, s with
  | .streamGates, _ | _, none => trRate
  | .portGates, some s | .fsc, some s =>
    if (u.variant.configChange com s).1 = 0 then fun queue =>
      if queue < com.nrQueues then
        edgxStCalcTransRate s.adminTab.cycleTime ((s.adminTab.entries.getD []).take s.adminTab.listLen) queue
      else trRate queue
    else trRate

/-- The rates that a step notifies the shapers of, if it does. A gate that is
disabled has the rate 1. -/
def Op.notifies (m : Machine) : Op → Option (Nat → TrRate)
  | .setGateEnabled true env =>
    if m.sched.state = .idle ∧ 0 ≤ (edgxSchedGetUsedTab ((m.sched.withEnv env).hw.wrEme false m.sched.adminTab.gateStates)).1
    then some m.trRate else none
  | .setGateEnabled false _ => some fun _ => ⟨1, 1⟩
  | .cctHandler env =>
    if m.sched.state = .pending ∧ (edgxSchedHwIsPending (m.sched.withEnv env).hw).1 = false then some m.lockedRate else none
  | .setEntries .. | .setCtrlListLen _ | .setCycleTime _ | .setBaseTime _ | .setAdminGateStates .. => none
  | .setConfigChange .. | .pendingDelayed _ | .hwEvents _ => none

/-- The shapers after a notification. -/
def notified? (u : User) (par : Params) (linkSpeed : BitVec 32) (fqtss : EdgxFqtss) (rates : Option (Nat → TrRate)) :
    Option EdgxFqtss :=
  match u, rates with
  | .streamGates, _ | _, none => some fqtss
  | .portGates, some rates | .fsc, some rates => par.stChange? fqtss linkSpeed rates

/-! ## The computations -/

section Computations

variable (u : User) (com : Com) {m : Machine}

@[simp] theorem ratesAfter_none (trRate : Nat → TrRate) : ratesAfter u com none trRate = trRate := by
  cases u <;> rfl

@[simp] theorem notified?_none (par : Params) (linkSpeed : BitVec 32) (fqtss : EdgxFqtss) :
    notified? u par linkSpeed fqtss none = some fqtss := by cases u <;> rfl

theorem notify?_eq (par : Params) (linkSpeed : BitVec 32) (m : Machine) :
    notify? u par linkSpeed m =
      (notified? u par linkSpeed m.fqtss (some m.lockedRate)).map fun fqtss => { m with fqtss } := by
  cases u with
  | streamGates => rfl
  | portGates | fsc =>
    simp only [notify?, notified?]
    cases par.stChange? m.fqtss linkSpeed m.lockedRate <;> rfl

theorem setCycleTime?_eq (V : Variant) (s : EdgxSched) (ct : Rational) :
    setCycleTime? V com s ct = some (edgxSchedSetCycleTime V com s ct) := by
  unfold setCycleTime? edgxSchedSetCycleTime
  by_cases hd : ct.denom = 0
  · rw [if_pos hd, if_pos hd]
  · rw [if_neg hd, if_neg hd, rationalToNsec?_eq hd, Option.bind_eq_bind, Option.bind_some]
    exact (apply_ite some ..).symm

theorem configChange?_eq (hd : m.sched.adminTab.cycleTime.denom ≠ 0) :
    configChange? u com m = some ((u.variant.configChange com m.sched).1,
      ⟨(u.variant.configChange com m.sched).2, ratesAfter u com (some m.sched) m.trRate, m.fqtss⟩) := by
  unfold configChange?
  by_cases hret : (u.variant.configChange com m.sched).1 = 0
  · simp only [hret, rationalToNsec?_eq hd]
    cases u <;> simp [calcRates?, ratesAfter, rationalToNsec?_eq hd, hret]
  · simp only [ne_eq, hret, not_false_eq_true, if_true]
    cases u <;> simp [ratesAfter, hret]

/-- A configuration change that is checked has a numerator. -/
theorem num_of_checked {V : Variant} {env : Env} {s : EdgxSched} (h : (edgxSchedCheckCcParams V env s).1 = 0) :
    s.adminTab.cycleTime.num ≠ 0 := by
  intro hn
  rw [edgxSchedCheckCcParams, if_pos (.inr (.inr (.inl hn)))] at h
  exact absurd h (by decide : -EFAULT ≠ 0)

theorem calcCcTime?_eq {V : Variant} {env : Env} {s : EdgxSched} (hn : s.adminTab.cycleTime.num ≠ 0)
    (hd : s.adminTab.cycleTime.denom ≠ 0) : calcCcTime? V com env s = some (edgxSchedCalcCcTime V com env s) := by
  unfold calcCcTime? edgxSchedCalcCcTime
  rw [calcFutureTime?_eq hn hd]
  cases s.adminTab.baseTime.past env.curTime <;> rfl

/-- A configuration change never fails, and computes the rates when it submits. -/
theorem stmCfgChange?_eq (env : Env) (hd : m.sched.adminTab.cycleTime.denom ≠ 0) :
    let r := edgxSchedStmCfgChange u.variant com env m.sched
    stmCfgChange? u com env m =
      some (r.1, ⟨r.2, ratesAfter u com (submitFrom u.variant com env m.sched) m.trRate, m.fqtss⟩) := by
  intro r
  have hskip : ¬ Submits u.variant com env m.sched →
      ratesAfter u com (submitFrom u.variant com env m.sched) m.trRate = m.trRate := fun hno => by
    rw [submitFrom, if_neg hno, ratesAfter_none]
  have hr : r = edgxSchedStmCfgChange u.variant com env m.sched := rfl
  cases hc : m.sched.confChange with
  | false =>
    rw [hskip fun h => absurd (hc.symm.trans h.1) Bool.false_ne_true, hr]
    simp [stmCfgChange?, edgxSchedStmCfgChange, hc]
  | true =>
    cases hg : m.sched.gateEnabled with
    | false =>
      rw [hskip fun h => absurd (hg.symm.trans h.2.1) Bool.false_ne_true, hr]
      simp [stmCfgChange?, edgxSchedStmCfgChange, hc, cancel_gateEnabled, hg]
    | true =>
      rw [cfgChange_of_gate hc hg] at hr
      obtain ⟨o, l, hchecked⟩ := checked_eq u.lawful env m.sched
      have hct : (checked u.variant env m.sched).2.adminTab.cycleTime = m.sched.adminTab.cycleTime := by
        rw [hchecked, cancel_eq]
      have hgate : (edgxSchedStmCancel m.sched).gateEnabled = true := (cancel_gateEnabled m.sched).trans hg
      simp only [stmCfgChange?, hc, hgate, Bool.not_true, Bool.false_eq_true, if_false]
      by_cases hchk : (checked u.variant env m.sched).1 = 0
      · have hn : (checked u.variant env m.sched).2.adminTab.cycleTime.num ≠ 0 := by
          have := num_of_checked hchk
          rwa [cancel_eq, ← hct] at this
        have htimed : calcCcTime? u.variant com env (checked u.variant env m.sched).2 = some (timed u.variant com env m.sched) :=
          calcCcTime?_eq com hn (by rwa [hct])
        change (if (checked u.variant env m.sched).1 ≠ 0 then _ else
          (calcCcTime? u.variant com env (checked u.variant env m.sched).2).bind _) = _
        rw [if_neg (not_not.2 hchk), htimed, Option.bind_some]
        rw [if_neg (not_not.2 hchk)] at hr
        by_cases hdelay : (timed u.variant com env m.sched).1.1 = 0
        · have hready : (ready u.variant com env m.sched).adminTab.cycleTime.denom ≠ 0 := by
            obtain ⟨o, l, c, t, e, h⟩ := ready_eq u.lawful com env m.sched
            rwa [h, cancel_eq]
          have hfrom : submitFrom u.variant com env m.sched = some (ready u.variant com env m.sched) :=
            if_pos ⟨hc, hg, hchk, hdelay⟩
          rw [if_neg (not_not.2 hdelay)] at hr
          rw [hfrom, hr]
          refine (if_neg (not_not.2 hdelay)).trans ?_
          change (configChange? u com { m with sched := ready u.variant com env m.sched }).bind _ = _
          rw [configChange?_eq u com hready]
          rfl
        · rw [if_pos hdelay] at hr
          rw [hskip fun h => hdelay h.2.2.2, hr]
          exact if_pos hdelay
      · rw [hskip fun h => hchk h.2.2.1, hr, if_pos hchk]
        exact if_pos hchk

end Computations

/-! ## A step -/

section Step

variable (u : User) (com : Com) (par : Params) (linkSpeed : BitVec 32) {m : Machine}

/-- The gate enable handler, in a state in which the gate is enabled. -/
theorem stmGateEnable?_eq (env : Env) (hd : m.sched.adminTab.cycleTime.denom ≠ 0) (hg : m.sched.gateEnabled = true) :
    let r := edgxSchedStmGateEnable u.variant com env m.sched
    stmGateEnable? u com par linkSpeed env m =
      (notified? u par linkSpeed m.fqtss
        (if m.sched.state = .idle ∧ 0 ≤ (edgxSchedGetUsedTab (m.sched.hw.wrEme false m.sched.adminTab.gateStates)).1
          then some m.trRate else none)).map fun fqtss =>
        (r.1, ⟨r.2, ratesAfter u com (if m.sched.state = .idle then submitFrom u.variant com env (enabled m.sched) else none)
          m.trRate, fqtss⟩) := by
  intro r
  have hr : r = edgxSchedStmGateEnable u.variant com env m.sched := rfl
  by_cases hidle : m.sched.state = .idle
  · have hlocked : ({ m with sched := enabled m.sched } : Machine).lockedRate = m.trRate := by
      funext queue
      simp [Machine.lockedRate, enabled, hg]
    have hchange : ∀ fqtss, (if m.sched.confChange then
        stmCfgChange? u com env { m with sched := enabled m.sched, fqtss } else some (0, { m with sched := enabled m.sched, fqtss })) =
        some (r.1, ⟨r.2, ratesAfter u com (submitFrom u.variant com env (enabled m.sched)) m.trRate, fqtss⟩) := by
      intro fqtss
      have hr' : r = if m.sched.confChange then edgxSchedStmCfgChange u.variant com env (enabled m.sched)
          else (0, enabled m.sched) := hr.trans (if_pos hidle)
      cases hc : m.sched.confChange with
      | true =>
        rw [hc, if_pos rfl] at hr'
        rw [if_pos rfl, hr']
        exact stmCfgChange?_eq u com (m := { m with sched := enabled m.sched, fqtss }) env hd
      | false =>
        have hno : ¬ Submits u.variant com env (enabled m.sched) := fun h => absurd (hc.symm.trans h.1) Bool.false_ne_true
        rw [hc, if_neg Bool.false_ne_true] at hr'
        rw [if_neg Bool.false_ne_true, hr', submitFrom, if_neg hno, ratesAfter_none]
    rw [stmGateEnable?, if_pos hidle, if_pos hidle]
    by_cases hused : 0 ≤ (edgxSchedGetUsedTab (m.sched.hw.wrEme false m.sched.adminTab.gateStates)).1
    · rw [if_pos ⟨hidle, hused⟩]
      refine (if_pos hused).trans ?_
      change (notify? u par linkSpeed { m with sched := enabled m.sched }).bind _ = _
      rw [notify?_eq, hlocked]
      cases notified? u par linkSpeed m.fqtss (some m.trRate) with
      | none => rfl
      | some fqtss => exact hchange fqtss
    · rw [if_neg fun h => hused h.2, notified?_none]
      refine (if_neg hused).trans ?_
      exact hchange m.fqtss
  · simp [stmGateEnable?, hidle, hr, edgxSchedStmGateEnable]

theorem stmCctHandler?_eq (env : Env) (m : Machine) :
    stmCctHandler? u com par linkSpeed env m =
      (notified? u par linkSpeed m.fqtss
        (if m.sched.state = .pending ∧ (edgxSchedHwIsPending m.sched.hw).1 = false then some m.lockedRate else none)).map
        fun fqtss => { m with sched := edgxSchedStmCctHandler u.variant com env m.sched, fqtss } := by
  unfold stmCctHandler? edgxSchedStmCctHandler
  by_cases hpending : m.sched.state = .pending
  · rw [if_pos hpending, if_pos hpending]
    cases hhw : (edgxSchedHwIsPending m.sched.hw).1 with
    | true =>
      rw [if_neg fun h => absurd h.2 (by decide), notified?_none]
      simp only [hhw, Bool.not_true, Bool.false_eq_true, if_false, Option.map_some]
    | false =>
      -- the handler leaves the gate as it is
      obtain ⟨c, t, e, hw, _, hfix⟩ := u.lawful.fix com env { m.sched with hw := (edgxSchedHwIsPending m.sched.hw).2 }
      have hlocked : ({ m with sched := { u.variant.fixCcTime com env
          { m.sched with hw := (edgxSchedHwIsPending m.sched.hw).2 } with state := .idle } } : Machine).lockedRate =
          m.lockedRate := by
        funext queue
        rw [hfix]
        rfl
      rw [if_pos ⟨hpending, rfl⟩]
      simp only [hhw, Bool.not_false, if_true]
      rw [notify?_eq, hlocked]
  · rw [if_neg hpending, if_neg hpending, if_neg fun h => hpending h.1, notified?_none]
    rfl

/-- **What a step does**: it fails just when its notification does, and else it
is a step of the scheduler that may compute rates and change the shapers. -/
theorem schedStep?_eq (hd : m.sched.adminTab.cycleTime.denom ≠ 0) (op : Op) :
    let r := step u.variant com m.sched op
    schedStep? u com par linkSpeed m op = (notified? u par linkSpeed m.fqtss (op.notifies m)).map fun fqtss =>
      (r.1, ⟨r.2, ratesAfter u com (op.submits u.variant com m.sched) m.trRate, fqtss⟩) := by
  intro r
  cases op with
  | setCycleTime ct => simp [schedStep?, setCycleTime?_eq, Op.notifies, Op.submits, r, step]
  | setConfigChange b env =>
    simp only [schedStep?, Op.notifies, notified?_none, Option.map_some]
    exact stmCfgChange?_eq u com (m := { m with sched := { m.sched.withEnv env with confChange := b } }) env hd
  | pendingDelayed env =>
    have hr : r = edgxSchedStmPendingDelayed u.variant com env (m.sched.withEnv env) := rfl
    rw [edgxSchedStmPendingDelayed] at hr
    simp only [schedStep?, Op.notifies, notified?_none, Option.map_some, stmPendingDelayed?, Op.submits]
    have harmed : (m.sched.withEnv env).armed = m.sched.armed := rfl
    cases ha : m.sched.armed with
    | false =>
      rw [harmed, ha] at hr ⊢
      simp [hr]
    | true =>
      rw [harmed, ha, Bool.not_true, if_neg Bool.false_ne_true] at hr
      rw [harmed, ha, Bool.not_true, if_neg Bool.false_ne_true, if_pos rfl, hr]
      exact stmCfgChange?_eq u com
        (m := { m with sched := { m.sched.withEnv env with armed := false, state := .idle } }) env hd
  | setGateEnabled b env =>
    cases b with
    | true =>
      have h := stmGateEnable?_eq u com par linkSpeed
        (m := { m with sched := { m.sched.withEnv env with gateEnabled := true } }) env hd rfl
      have hsub : (Op.setGateEnabled true env).submits u.variant com m.sched = if m.sched.state = .idle then
          submitFrom u.variant com env (enabled { m.sched.withEnv env with gateEnabled := true }) else none := by
        simp [Op.submits]
      rw [hsub]
      exact h
    | false =>
      have hlocked : ({ m with sched := edgxSchedStmGateDisable { m.sched.withEnv env with gateEnabled := false } } :
          Machine).lockedRate = fun _ => ⟨1, 1⟩ := by
        funext queue
        refine if_neg (Bool.not_eq_true _ ▸ ?_)
        unfold edgxSchedStmGateDisable
        dsimp only
        split
        · rfl
        · split <;> rfl
      change (notify? u par linkSpeed
        { m with sched := edgxSchedStmGateDisable { m.sched.withEnv env with gateEnabled := false } }).bind _ = _
      have hnotifies : (Op.setGateEnabled false env).notifies m = some fun _ => ⟨1, 1⟩ := rfl
      have hsub : (Op.setGateEnabled false env).submits u.variant com m.sched = none := rfl
      rw [notify?_eq, hlocked, hnotifies, hsub, ratesAfter_none]
      cases notified? u par linkSpeed m.fqtss (some fun _ => ⟨1, 1⟩) <;> rfl
  | cctHandler env =>
    have h := stmCctHandler?_eq u com par linkSpeed env { m with sched := m.sched.withEnv env }
    have hsub : (Op.cctHandler env).submits u.variant com m.sched = none := rfl
    have hnotifies : (Op.cctHandler env).notifies m =
        if m.sched.state = .pending ∧ (edgxSchedHwIsPending (m.sched.withEnv env).hw).1 = false then some m.lockedRate
        else none := rfl
    rw [hsub, ratesAfter_none, hnotifies]
    change (stmCctHandler? u com par linkSpeed env { m with sched := m.sched.withEnv env }).bind (fun m => some (0, m)) = _
    rw [h]
    change (Option.map _ (notified? u par linkSpeed m.fqtss (if m.sched.state = .pending ∧
      (edgxSchedHwIsPending (m.sched.withEnv env).hw).1 = false then some m.lockedRate else none))).bind _ = _
    cases notified? u par linkSpeed m.fqtss (if m.sched.state = .pending ∧
      (edgxSchedHwIsPending (m.sched.withEnv env).hw).1 = false then some m.lockedRate else none) <;> rfl
  | setEntries first entries allocOk => simp [schedStep?, Op.notifies, Op.submits, r]
  | setCtrlListLen listLen => simp [schedStep?, Op.notifies, Op.submits, r]
  | setBaseTime baseTime => simp [schedStep?, Op.notifies, Op.submits, r]
  | setAdminGateStates gateStates mask => simp [schedStep?, Op.notifies, Op.submits, r]
  | hwEvents evs => simp [schedStep?, Op.notifies, Op.submits, r]

end Step

/-! ## Denominators -/

/-- The open time is not zero, but in 32 bits it is. -/
def CutToZero (ct : Rational) (es : List TabEntry) (queue : Nat) : Prop :=
  exactOpenSum ct es queue ≠ 0 ∧ (2 ^ 32 : Int) ∣ exactOpenSum ct es queue

instance (ct : Rational) (es : List TabEntry) (queue : Nat) : Decidable (CutToZero ct es queue) :=
  inferInstanceAs (Decidable (_ ∧ _))

theorem rationalToNsec_lt {ct : Rational} (hd : ct.denom ≠ 0) : (edgxSchedRationalToNsec ct).1 < 2 ^ 62 := by
  have hn := ct.num.isLt
  rw [rationalToNsec_fst hd, floor_nsecs]
  exact (Nat.div_le_self _ _).trans_lt (by rw [NSEC_PER_SEC]; omega)

/-- A rate has a denominator unless its open time is cut to zero. -/
theorem calcTransRate_denom {ct : Rational} {es : List TabEntry} (queue : Nat) (hd : ct.denom ≠ 0)
    (hsum : sumTime es < 2 ^ 62) : (edgxStCalcTransRate ct es queue).denom ≠ 0 ↔ ¬ CutToZero ct es queue := by
  obtain ⟨hmod, hlow, hhigh⟩ := openSum_emod queue (rationalToNsec_lt hd) hsum
  have hdpos := denom_pos hd
  unfold edgxStCalcTransRate CutToZero
  by_cases h0 : openSum ct es queue = 0
  · rw [if_neg (not_not.2 h0)]
    rw [h0] at hmod
    change (0 : Int) = _ at hmod
    exact iff_of_true (by decide) fun h => h.1 (by omega)
  · rw [if_pos h0]
    have hne : (openSum ct es queue).toNat ≠ 0 := fun h => h0 (BitVec.eq_of_toNat_eq h)
    generalize openSum ct es queue = sum at hmod hne
    have hdenom : ((sum.setWidth 32).setWidth 64 * ct.denom.setWidth 64 : BitVec 64).toNat =
        sum.toNat % 2 ^ 32 * ct.denom.toNat := by
      have hdlt := ct.denom.isLt
      have hlt := Nat.mod_lt sum.toNat (show 0 < 2 ^ 32 by decide)
      have hmul : sum.toNat % 2 ^ 32 * ct.denom.toNat ≤ (2 ^ 32 - 1) * (2 ^ 32 - 1) :=
        Nat.mul_le_mul (by omega) (by omega)
      simp only [BitVec.toNat_mul, BitVec.toNat_setWidth]
      rw [Nat.mod_eq_of_lt (show sum.toNat % 2 ^ 32 < 2 ^ 64 by omega), Nat.mod_eq_of_lt (show ct.denom.toNat < 2 ^ 64 by omega),
        Nat.mod_eq_of_lt (by omega)]
    have hzero : ((sum.setWidth 32).setWidth 64 * ct.denom.setWidth 64 : BitVec 64) = 0 ↔ sum.toNat % 2 ^ 32 = 0 := by
      rw [← BitVec.toNat_inj, hdenom]
      change _ * _ = 0 ↔ _
      rw [Nat.mul_eq_zero]
      exact or_iff_left hdpos.ne'
    exact (not_congr hzero).trans (by omega)

/-! ## Runs -/

/-- The rates are there to divide by. -/
def RatesOk (m : Machine) : Prop := ∀ queue, (m.trRate queue).denom ≠ 0

/-- A step divides by no zero, and if it submits a table the cycle time is one
to divide by. -/
structure DivisorsOk (u : User) (com : Com) (par : Params) (m : Machine) (op : MachineOp) : Prop where
  divides : (machineStep? u com par m op).isSome
  submits : ∀ o linkSpeed s, op = .sched o linkSpeed → o.submits u.variant com m.sched = some s →
    s.adminTab.cycleTime.num ≠ 0 ∧ s.adminTab.cycleTime.denom ≠ 0

/-- The rates computed in the state `s` are not cut to zero. -/
def RatesGiven (u : User) (com : Com) (s : Option EdgxSched) : Prop :=
  ∀ s' ∈ s, u ≠ .streamGates → (u.variant.configChange com s').1 = 0 → ∀ queue < com.nrQueues,
    ¬ CutToZero s'.adminTab.cycleTime ((s'.adminTab.entries.getD []).take s'.adminTab.listLen) queue

/-- The slopes can be scaled by the rates notified. -/
def SlopesGiven (u : User) (par : Params) (fqtss : EdgxFqtss) (rates : Option (Nat → TrRate)) : Prop :=
  ∀ r ∈ rates, u ≠ .streamGates → ∀ i < par.nrQueues, ¬ SlopeFault (fqtss.adminidleslope i) (r i)

/-- When a step divides by what is not zero. -/
def DivisorsGiven (u : User) (com : Com) (par : Params) (m : Machine) : MachineOp → Prop
  | .sched op _ => RatesGiven u com (op.submits u.variant com m.sched) ∧ SlopesGiven u par m.fqtss (op.notifies m)
  | .adminSlopeTblWrite idx slope linkSpeed =>
    idx < par.nrQueues → Fqtss.Params.slopeAllowed linkSpeed slope → ¬ SlopeFault slope (m.lockedRate idx)
  | .tsaTblWrite .. => True

/-- What every step keeps. -/
structure Divisible (com : Com) (m : Machine) : Prop where
  sized : m.sched.adminTab.Sized com
  denom : m.sched.adminTab.cycleTime.denom ≠ 0

section Runs

variable {u : User} {com : Com} {par : Params} {m : Machine}

theorem denom_step (V : Variant) (hV : V.Lawful) (com : Com) {s : EdgxSched} (h : s.adminTab.cycleTime.denom ≠ 0) (op : Op) :
    (step V com s op).2.adminTab.cycleTime.denom ≠ 0 := by
  cases hadmin : op.isAdmin with
  | false => rw [step_adminTab hV com s hadmin]; exact h
  | true =>
    cases op with
    | setCycleTime ct =>
      simp only [step, edgxSchedSetCycleTime]
      split
      · exact h
      · split
        · assumption
        · exact h
    | setEntries first entries allocOk =>
      simp only [step]
      rcases setEntries_cases V com s first entries allocOk with ⟨_, _, heq⟩ | ⟨_, _, _, heq⟩ | ⟨_, _, _, _, heq⟩ <;> rw [heq]
      · exact h
      · dsimp only
        split <;> exact h
      · exact h
    | setCtrlListLen listLen =>
      simp only [step, edgxSchedSetCtrlListLen]
      split <;> exact h
    | setBaseTime baseTime => exact h
    | setAdminGateStates gateStates mask => exact h
    | setConfigChange b env => cases hadmin
    | setGateEnabled b env => cases hadmin
    | pendingDelayed env => cases hadmin
    | cctHandler env => cases hadmin
    | hwEvents evs => cases hadmin

theorem submitFrom_some {V : Variant} (hV : V.Lawful) {env : Env} {s s' : EdgxSched}
    (h : submitFrom V com env s = some s') : s'.adminTab = s.adminTab ∧ s.adminTab.cycleTime.num ≠ 0 := by
  by_cases hs : Submits V com env s
  · rw [submitFrom, if_pos hs, Option.some.injEq] at h
    obtain ⟨o, l, c, t, e, hready⟩ := ready_eq hV com env s
    have hnum := num_of_checked hs.2.2.1
    rw [cancel_eq] at hnum
    refine ⟨?_, hnum⟩
    rw [← h, hready, cancel_eq]
  · rw [submitFrom, if_neg hs] at h
    cases h

/-- The admin table that a step submits. -/
theorem submits_some {V : Variant} (hV : V.Lawful) {s s' : EdgxSched} {op : Op} (h : op.submits V com s = some s') :
    s'.adminTab = s.adminTab ∧ s.adminTab.cycleTime.num ≠ 0 := by
  have hfrom {env : Env} {s₁ : EdgxSched} (h₁ : submitFrom V com env s₁ = some s') (ha : s₁.adminTab = s.adminTab) :
      s'.adminTab = s.adminTab ∧ s.adminTab.cycleTime.num ≠ 0 := ha ▸ submitFrom_some hV h₁
  cases op with
  | setConfigChange b env => exact hfrom h rfl
  | setGateEnabled b env =>
    simp only [Op.submits] at h
    split at h
    · exact hfrom h rfl
    · cases h
  | pendingDelayed env =>
    simp only [Op.submits] at h
    split at h
    · exact hfrom h rfl
    · cases h
  | setEntries | setCtrlListLen | setCycleTime | setBaseTime | setAdminGateStates | cctHandler | hwEvents => cases h

theorem sumTime_le (es : List TabEntry) : sumTime es ≤ es.length * 2 ^ 32 := by
  induction es with
  | nil => exact le_rfl
  | cons e es ih =>
    have := e.timeInterval.isLt
    rw [sumTime_cons, List.length_cons]
    omega

/-- The rates after a step are there to divide by just when those it computes
are. -/
theorem ratesAfter_iff (h : Divisible com m) {sub : Option EdgxSched} (hsub : ∀ s ∈ sub, s.adminTab = m.sched.adminTab)
    (hrates : RatesOk m) :
    (∀ queue, (ratesAfter u com sub m.trRate queue).denom ≠ 0) ↔ RatesGiven u com sub := by
  cases sub with
  | none =>
    rw [ratesAfter_none]
    exact iff_of_true hrates fun s hs => nomatch hs
  | some s =>
    have htab : s.adminTab = m.sched.adminTab := hsub s rfl
    have hsum : sumTime ((s.adminTab.entries.getD []).take s.adminTab.listLen) < 2 ^ 62 := by
      have hlen := h.sized.length
      have hmax := h.sized.bound
      have hcom := com.max_lt
      have hle := sumTime_le ((s.adminTab.entries.getD []).take s.adminTab.listLen)
      have htake := List.length_take_le' s.adminTab.listLen (s.adminTab.entries.getD [])
      rw [htab] at *
      omega
    have hd : s.adminTab.cycleTime.denom ≠ 0 := by rw [htab]; exact h.denom
    have hiff : (∀ queue, (if queue < com.nrQueues then
        edgxStCalcTransRate s.adminTab.cycleTime ((s.adminTab.entries.getD []).take s.adminTab.listLen) queue
        else m.trRate queue).denom ≠ 0) ↔ ∀ queue < com.nrQueues,
          ¬ CutToZero s.adminTab.cycleTime ((s.adminTab.entries.getD []).take s.adminTab.listLen) queue := by
      refine forall_congr' fun queue => ?_
      by_cases hq : queue < com.nrQueues
      · rw [if_pos hq, calcTransRate_denom queue hd hsum]
        exact ⟨fun h _ => h, fun h => h hq⟩
      · rw [if_neg hq]
        exact iff_of_true (hrates queue) fun h => absurd h hq
    have hgiven : RatesGiven u com (some s) ↔ (u ≠ .streamGates → (u.variant.configChange com s).1 = 0 →
        ∀ queue < com.nrQueues,
          ¬ CutToZero s.adminTab.cycleTime ((s.adminTab.entries.getD []).take s.adminTab.listLen) queue) := by
      simp [RatesGiven]
    rw [hgiven]
    cases u with
    | streamGates => exact iff_of_true hrates fun hu => absurd rfl hu
    | portGates | fsc =>
      simp only [ratesAfter]
      split
      · rename_i hret
        rw [hiff]
        exact ⟨fun h _ _ => h, fun h => h (by decide) hret⟩
      · rename_i hret
        exact iff_of_true hrates fun _ hret' => absurd hret' hret

theorem notified?_isSome (u : User) (par : Params) (m : Machine) (linkSpeed : BitVec 32) (rates : Option (Nat → TrRate)) :
    (notified? u par linkSpeed m.fqtss rates).isSome ↔ SlopesGiven u par m.fqtss rates := by
  cases rates with
  | none => simp [SlopesGiven]
  | some r =>
    have hiff : (par.stChange? m.fqtss linkSpeed r).isSome ↔
        ∀ i < par.nrQueues, ¬ SlopeFault (m.fqtss.adminidleslope i) (r i) := by
      rw [Params.stChange?_eq]
      split
      · rename_i h
        obtain ⟨i, hi, hfault⟩ := h
        exact iff_of_false (by simp) fun h => h i (List.mem_range.1 hi) hfault
      · rename_i h
        exact iff_of_true rfl fun i hi hfault => h ⟨i, List.mem_range.2 hi, hfault⟩
    have hgiven : SlopesGiven u par m.fqtss (some r) ↔
        (u ≠ .streamGates → ∀ i < par.nrQueues, ¬ SlopeFault (m.fqtss.adminidleslope i) (r i)) := by
      simp [SlopesGiven]
    rw [hgiven]
    cases u with
    | streamGates => exact iff_of_true rfl fun hu => absurd rfl hu
    | portGates | fsc => exact hiff.trans ⟨fun h _ => h, fun h => h (by decide)⟩

theorem divisible_step (h : Divisible com m) (op : MachineOp) : Divisible com (machineStep u com par m op).2 := by
  unfold machineStep
  cases op with
  | sched op linkSpeed =>
    rw [machineStep?, schedStep?_eq u com par linkSpeed h.denom op]
    cases notified? u par linkSpeed m.fqtss (op.notifies m) with
    | none => exact h
    | some fqtss => exact ⟨sized_step u h.sized op, denom_step u.variant u.lawful com h.denom op⟩
  | adminSlopeTblWrite idx slope linkSpeed =>
    rw [machineStep?]
    cases par.adminSlopeTblWrite? m.fqtss idx slope linkSpeed (m.lockedRate idx) with
    | none => exact h
    | some r => exact ⟨h.sized, h.denom⟩
  | tsaTblWrite i tsa => exact ⟨h.sized, h.denom⟩

/-- A step. -/
theorem step_divisorsOk (h : Divisible com m) (hrates : RatesOk m) (op : MachineOp) :
    RatesOk (machineStep u com par m op).2 ∧ DivisorsOk u com par m op ↔ DivisorsGiven u com par m op := by
  cases op with
  | sched op linkSpeed =>
    have hsub : ∀ s ∈ op.submits u.variant com m.sched, s.adminTab = m.sched.adminTab := fun s hs =>
      (submits_some u.lawful hs).1
    have hcycle : ∀ o l s, MachineOp.sched op linkSpeed = .sched o l → o.submits u.variant com m.sched = some s →
        s.adminTab.cycleTime.num ≠ 0 ∧ s.adminTab.cycleTime.denom ≠ 0 := by
      intro o l s heq hs
      cases heq
      obtain ⟨htab, hnum⟩ := submits_some u.lawful hs
      rw [htab]
      exact ⟨hnum, h.denom⟩
    have hstep : machineStep? u com par m (.sched op linkSpeed) = _ := schedStep?_eq u com par linkSpeed h.denom op
    have hsome := notified?_isSome u par m linkSpeed (op.notifies m)
    simp only [DivisorsGiven, ← ratesAfter_iff h hsub hrates, ← hsome, machineStep, hstep]
    cases hn : notified? u par linkSpeed m.fqtss (op.notifies m) with
    | none =>
      refine iff_of_false (fun hc => ?_) fun hc => absurd hc.2 (by simp)
      have := hc.2.divides
      rw [hstep, hn] at this
      cases this
    | some fqtss =>
      refine ⟨fun hc => ⟨hc.1, rfl⟩, fun hc => ⟨hc.1, ?_, hcycle⟩⟩
      rw [hstep, hn]
      rfl
  | adminSlopeTblWrite idx slope linkSpeed =>
    have hstep : machineStep? u com par m (.adminSlopeTblWrite idx slope linkSpeed) =
        (par.adminSlopeTblWrite? m.fqtss idx slope linkSpeed (m.lockedRate idx)).bind fun r =>
          some (r.1, { m with fqtss := r.2 }) := rfl
    have hnone : ∀ o l s, MachineOp.adminSlopeTblWrite idx slope linkSpeed = .sched o l →
        o.submits u.variant com m.sched = some s → s.adminTab.cycleTime.num ≠ 0 ∧ s.adminTab.cycleTime.denom ≠ 0 :=
      fun o l s heq => nomatch heq
    rw [Params.adminSlopeTblWrite?_eq] at hstep
    by_cases hfault : idx < par.nrQueues ∧ Params.slopeAllowed linkSpeed slope ∧ SlopeFault slope (m.lockedRate idx)
    · rw [if_pos hfault, Option.bind_none] at hstep
      refine iff_of_false (fun hc => ?_) fun hc => hc hfault.1 hfault.2.1 hfault.2.2
      have := hc.2.divides
      rw [hstep] at this
      cases this
    · rw [if_neg hfault, Option.bind_some] at hstep
      refine iff_of_true ⟨?_, ?_, hnone⟩ fun hidx hallow hslope => hfault ⟨hidx, hallow, hslope⟩
      · rw [machineStep, hstep]
        exact hrates
      · rw [hstep]
        rfl
  | tsaTblWrite i tsa => exact iff_of_true ⟨hrates, rfl, fun o l s heq => nomatch heq⟩ True.intro

end Runs

/-- **Nothing is divided by zero, and the rates can be divided by, in every run
in which** no open time is cut to zero in 32 bits and no slope is scaled by a
rate below 1 without whole parts. -/
theorem divisorsOk_iff_guarded (u : User) (com : Com) (par : Params) (gateStates : BitVec 8) (shaper : Nat → BitVec 16)
    (ops : List MachineOp) :
    ((∀ pre suf, ops = pre ++ suf → RatesOk (after (machineStep u com par) (machineInit par gateStates shaper) pre)) ∧
        Guarded (machineStep u com par) (DivisorsOk u com par) (machineInit par gateStates shaper) ops) ↔
      Guarded (machineStep u com par) (DivisorsGiven u com par) (machineInit par gateStates shaper) ops :=
  steps_iff_guarded (I := RatesOk) (K := Divisible com) (fun _ op h _ _ => divisible_step h op)
    (fun _ op h hrates => step_divisorsOk h hrates op) ⟨⟨rfl, Nat.zero_le _⟩, (by decide : (1 : BitVec 32) ≠ 0)⟩
    (fun _ => (by decide : (1 : BitVec 64) ≠ 0)) ops

/-- A port with eight queues. -/
def somePar : Params := ⟨8, 8⟩

/-- A list is configured with a cycle time, and submitted. -/
def submitList (es : List TabEntry) (ct : Rational) : List MachineOp :=
  [.sched (.setEntries 0 es true) 1000, .sched (.setCtrlListLen es.length) 1000, .sched (.setCycleTime ct) 1000,
    .sched (.setBaseTime ⟨10, 0⟩) 1000, .sched (.setGateEnabled true {}) 1000, .sched (.setConfigChange true {}) 1000]

/-- The idle time of the first list wraps to minus `2 ^ 32`, so the rate of
queue 0 has no denominator. The second list is longer than its cycle, and a
slope cannot be scaled by the rate of queue 0. -/
theorem not_divisorsOk_cut :
    let cut := submitList (List.replicate 204 ⟨20971200, 0, 0⟩ ++ [⟨16844480, 0, 0⟩, ⟨320, 0, 1⟩]) ⟨1984, 1000000000⟩
    let longer := submitList [⟨20000000, 0, 1⟩, ⟨320, 0, 0⟩] ⟨68719476, 4294967295⟩
    (¬ RatesOk (after (machineStep .portGates someCom somePar) (machineInit somePar 0xff fun _ => 0) cut)) ∧
      ¬ DivisorsOk .portGates someCom somePar
        (after (machineStep .portGates someCom somePar) (machineInit somePar 0xff fun _ => 0) longer)
        (.adminSlopeTblWrite 0 100000000 1000) := by
  refine ⟨fun h => ?_, fun h => ?_⟩
  · exact absurd (h 0) (by decide +kernel)
  · exact absurd h.divides (by decide +kernel)

end TsnSwitch.Sched
