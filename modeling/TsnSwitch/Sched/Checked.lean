/-
The state machine with checked divisions: a step that divides by zero has no
result. The scheduler is taken together with the transmission rates it
computes and the shapers of its port, which it notifies and which divide by
the rates.

The functions are those of Time.lean and Machine.lean, with the rates computed
where a table is submitted and the shapers updated where they are notified.
-/
import TsnSwitch.Fqtss.Checked
import TsnSwitch.Lib.Divide
import TsnSwitch.Sched.Rates

namespace TsnSwitch.Sched

open Lib
open Fqtss (TrRate EdgxFqtss Params)

/-! ## Times -/

def rationalToNsec? (rat : Rational) : Option (Nat × Nat) := do
  let (num, rem) ← divMod? rat.num.toNat rat.denom.toNat
  let cycleSec := num
  let (num, rem) ← divMod? (u64 (rem * NSEC_PER_SEC)) rat.denom.toNat
  let nsec := u64 (num + cycleSec * NSEC_PER_SEC)
  let (num, _) ← divMod? (u64 (rem * 2 ^ 32)) rat.denom.toNat
  some (nsec, num % 2 ^ 32)

def diffToCycles? (beginTime endTime : Timespec) (ct : Rational) (roundUp : Bool) : Option Nat := do
  let delta := timespec64Sub endTime beginTime
  let (countSec, countSecRem) ← divMod? (u64OfInt (delta.sec * ct.denom.toNat)) ct.num.toNat
  let (countNsec, countNsecRem) ← divMod? (u64 (u64OfInt delta.nsec * ct.denom.toNat)) ct.num.toNat
  let countRes := u64 (countSecRem * NSEC_PER_SEC + countNsec * ct.num.toNat + countNsecRem)
  let countRes := if roundUp then u64 (countRes + ct.num.toNat * NSEC_PER_SEC - 1) else countRes
  let (countRes, _) ← divMod? countRes ct.num.toNat
  let (countRes, _) ← divMod? countRes NSEC_PER_SEC
  some (u64 (countSec + countRes))

def calcFutureTime? (inTime curTime : Timespec) (ct : Rational) : Option Timespec := do
  let count ← diffToCycles? inTime curTime ct true
  let (sec, rem) ← divMod? (u64 (count * ct.num.toNat)) ct.denom.toNat
  let (nsec, _) ← divMod? (u64 (rem * NSEC_PER_SEC)) ct.denom.toNat
  some (timespec64Add inTime ⟨(sec : Nat), (nsec : Nat)⟩)

section Times

variable {ct : Rational}

theorem rationalToNsec?_eq (hd : ct.denom ≠ 0) : rationalToNsec? ct = some (edgxSchedRationalToNsec ct) := by
  have hd' := (denom_pos hd).ne'
  simp only [rationalToNsec?, divMod?_of_ne hd', Option.bind_eq_bind, Option.bind_some]
  rfl

theorem diffToCycles?_eq (hn : ct.num ≠ 0) (b e : Timespec) (roundUp : Bool) :
    diffToCycles? b e ct roundUp = some (edgxSchedDiffToCycles b e ct roundUp) := by
  have hn' := (num_pos hn).ne'
  simp only [diffToCycles?, divMod?_of_ne hn', divMod?_of_ne (show NSEC_PER_SEC ≠ 0 by decide), Option.bind_eq_bind,
    Option.bind_some]
  rfl

theorem calcFutureTime?_eq (hn : ct.num ≠ 0) (hd : ct.denom ≠ 0) (inTime curTime : Timespec) :
    calcFutureTime? inTime curTime ct = some (edgxSchedCalcFutureTime inTime curTime ct) := by
  have hd' := (denom_pos hd).ne'
  simp only [calcFutureTime?, diffToCycles?_eq hn, divMod?_of_ne hd', Option.bind_eq_bind, Option.bind_some]
  rfl

end Times

/-! ## The machine -/

/-- The scheduler, the rate of each queue, and the shapers. -/
structure Machine where
  sched : EdgxSched
  trRate : Nat → TrRate := fun _ => ⟨1, 1⟩
  fqtss : EdgxFqtss

/-- `edgx_st_get_trans_rate_locked`. -/
def Machine.lockedRate (m : Machine) (queue : Nat) : TrRate := if m.sched.gateEnabled then m.trRate queue else ⟨1, 1⟩

/-- What the users notify: the shapers of the port, or nothing. -/
def notify? (u : User) (par : Params) (linkSpeed : BitVec 32) (m : Machine) : Option Machine :=
  match u with
  | .streamGates => some m
  | .portGates | .fsc => do
    let fqtss ← par.stChange? m.fqtss linkSpeed m.lockedRate
    some { m with fqtss }

/-- The rates for an admin table, computed by the users that have queues. -/
def calcRates? (u : User) (com : Com) (tab : SchedTable) (trRate : Nat → TrRate) : Option (Nat → TrRate) :=
  match u with
  | .streamGates => some trRate
  | .portGates | .fsc => do
    let _ ← rationalToNsec? tab.cycleTime
    some fun queue =>
      if queue < com.nrQueues then edgxStCalcTransRate tab.cycleTime ((tab.entries.getD []).take tab.listLen) queue
      else trRate queue

/-- `config_change`: the cycle time is converted, and the rates are computed,
when the rows have been written. -/
def configChange? (u : User) (com : Com) (m : Machine) : Option (Int × Machine) :=
  let (ret, s) := u.variant.configChange com m.sched
  if ret ≠ 0 then some (ret, { m with sched := s })
  else do
    let _ ← rationalToNsec? m.sched.adminTab.cycleTime
    let trRate ← calcRates? u com m.sched.adminTab m.trRate
    some (ret, { m with sched := s, trRate })

def setCycleTime? (V : Variant) (com : Com) (s : EdgxSched) (ct : Rational) : Option (Int × EdgxSched) :=
  if ct.denom = 0 then some (-EINVAL, s)
  else do
    let (nsec, _) ← rationalToNsec? ct
    if nsec ≤ V.maxCycNs com then some (0, { s with adminTab := { s.adminTab with cycleTime := ct } })
    else some (-ERANGE, { s with confChangeErr := s.confChangeErr + 1 })

def calcCcTime? (V : Variant) (com : Com) (env : Env) (s : EdgxSched) : Option ((Int × Bool) × EdgxSched) := do
  let timeInPast := s.adminTab.baseTime.past env.curTime
  let startTime ←
    if timeInPast then calcFutureTime? s.adminTab.baseTime env.curTime s.adminTab.cycleTime
    else some s.adminTab.baseTime
  let s := { s with confChangeTime := startTime
                    startTime := setNormalizedTimespec64 startTime.sec
                      (startTime.nsec + V.startOffset com env s) }
  some ((delaySec s.startTime env.curTime, timeInPast), s)

def stmCfgChange? (u : User) (com : Com) (env : Env) (m : Machine) : Option (Int × Machine) :=
  if !m.sched.confChange then some (0, m)
  else
    let s := edgxSchedStmCancel m.sched
    if !s.gateEnabled then some (0, { m with sched := s })
    else
      let (ret, s) := edgxSchedCheckCcParams u.variant env s
      if ret ≠ 0 then some (ret, { m with sched := { s with confChange := false } })
      else do
        let ((delay, timeInPast), s) ← calcCcTime? u.variant com env s
        let s := if timeInPast then { s with confChangeErr := s.confChangeErr + 1 } else s
        if delay ≠ 0 then
          some (0, { m with sched := { s with state := .pendingDelayed, armed := true, confChange := false } })
        else
          let (ret, m) ← configChange? u com { m with sched := s }
          let s := if ret = 0 then { m.sched with state := .pending } else m.sched
          some (ret, { m with sched := { s with confChange := false } })

/-- The shapers are notified when a schedule is running. -/
def stmGateEnable? (u : User) (com : Com) (par : Params) (linkSpeed : BitVec 32) (env : Env) (m : Machine) :
    Option (Int × Machine) :=
  if m.sched.state = .idle then do
    let s := { m.sched with hw := m.sched.hw.wrEme false m.sched.adminTab.gateStates }
    let (tabIdx, hw) := edgxSchedGetUsedTab s.hw
    let m := { m with sched := { s with hw } }
    let m ← if tabIdx ≥ 0 then notify? u par linkSpeed m else some m
    if m.sched.confChange then stmCfgChange? u com env m else some (0, m)
  else some (0, m)

def setGateEnabled? (u : User) (com : Com) (par : Params) (linkSpeed : BitVec 32) (env : Env) (m : Machine)
    (enabled : Bool) : Option (Int × Machine) :=
  let m := { m with sched := { m.sched with gateEnabled := enabled } }
  if enabled then stmGateEnable? u com par linkSpeed env m
  else do
    let m ← notify? u par linkSpeed { m with sched := edgxSchedStmGateDisable m.sched }
    some (0, m)

def stmPendingDelayed? (u : User) (com : Com) (env : Env) (m : Machine) : Option (Int × Machine) :=
  if !m.sched.armed then some (0, m)
  else stmCfgChange? u com env { m with sched := { m.sched with armed := false, state := .idle } }

def stmCctHandler? (u : User) (com : Com) (par : Params) (linkSpeed : BitVec 32) (env : Env) (m : Machine) :
    Option Machine :=
  if m.sched.state = .pending then
    let (isPending, hw) := edgxSchedHwIsPending m.sched.hw
    let s := { m.sched with hw }
    if !isPending then notify? u par linkSpeed { m with sched := { u.variant.fixCcTime com env s with state := .idle } }
    else some { m with sched := s }
  else some m

/-- A step of the scheduler, at a link speed, or a write to the tables of the
shapers. -/
inductive MachineOp where
  | sched (op : Op) (linkSpeed : BitVec 32)
  | adminSlopeTblWrite (idx : Nat) (slope linkSpeed : BitVec 32)
  | tsaTblWrite (i : Nat) (tsa : BitVec 8)

def schedStep? (u : User) (com : Com) (par : Params) (linkSpeed : BitVec 32) (m : Machine) : Op → Option (Int × Machine)
  | .setCycleTime ct => do
    let (ret, s) ← setCycleTime? u.variant com m.sched ct
    some (ret, { m with sched := s })
  | .setConfigChange b env =>
    stmCfgChange? u com env { m with sched := { m.sched.withEnv env with confChange := b } }
  | .setGateEnabled b env => setGateEnabled? u com par linkSpeed env { m with sched := m.sched.withEnv env } b
  | .pendingDelayed env => stmPendingDelayed? u com env { m with sched := m.sched.withEnv env }
  | .cctHandler env => do
    let m ← stmCctHandler? u com par linkSpeed env { m with sched := m.sched.withEnv env }
    some (0, m)
  | op =>
    let (ret, s) := step u.variant com m.sched op
    some (ret, { m with sched := s })

def machineStep? (u : User) (com : Com) (par : Params) (m : Machine) : MachineOp → Option (Int × Machine)
  | .sched op linkSpeed => schedStep? u com par linkSpeed m op
  | .adminSlopeTblWrite idx slope linkSpeed => do
    let (ret, fqtss) ← par.adminSlopeTblWrite? m.fqtss idx slope linkSpeed (m.lockedRate idx)
    some (ret, { m with fqtss })
  | .tsaTblWrite i tsa =>
    let (ret, fqtss) := par.tsaTblWrite m.fqtss i tsa
    some (ret, { m with fqtss })

/-- The machine stays where it is at a step that divides by zero. -/
def machineStep (u : User) (com : Com) (par : Params) (m : Machine) (op : MachineOp) : Int × Machine :=
  (machineStep? u com par m op).getD (0, m)

/-- After the probe. -/
def machineInit (par : Params) (gateStates : BitVec 8) (shaper : Nat → BitVec 16) : Machine where
  sched := init gateStates
  fqtss := par.edgxProbeFqtss shaper

end TsnSwitch.Sched
