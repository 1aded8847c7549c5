/-
The scheduler state machine: admin parameters, configuration changes, gate
enable and disable, the delayed work and the configuration change interrupt.

edge_sched.c is used for the gates of a port (edge_st_fscr.c) and for stream
gates (edge_psfp.c), which supply the functions that compile a list and give
the time offset. edge_st_fsc.c is a copy of the state machine with its own
versions of these functions. The handlers are the same text in both files, so
they are defined once, over a record of the functions that differ.

Notifications, the log and the transmission rates are not modelled.
-/
import TsnSwitch.Sched.Config

namespace TsnSwitch.Sched

/-- `struct edgx_sched_table`. -/
structure SchedTable where
  entries : Option (List TabEntry) := none
  entryCnt : Nat := 0
  listLen : Nat := 0
  baseTime : Timespec := {}
  cycleTime : Rational := { denom := 1 }
  gateStates : BitVec 8 := 0

/-- `enum edgx_sched_state`. -/
inductive State where
  /-- no pending schedule -/
  | idle
  /-- new schedule submitted and pending in hardware -/
  | pending
  /-- new schedule waiting to be submitted to hardware -/
  | pendingDelayed
  deriving DecidableEq

/-- `struct edgx_sched`. `opTabs` is memory: the array is the indices 0 and
1. `armed` says that the delayed work is scheduled, `submitted` is a history
variable: the admin table last submitted through each index. -/
structure EdgxSched where
  adminTab : SchedTable
  opTabs : Int → SchedTable := fun _ => {}
  gateEnabled : Bool := false
  confChange : Bool := false
  offsetNs : Int := 0
  confChangeTime : Timespec := {}
  startTime : Timespec := {}
  state : State := .idle
  armed : Bool := false
  confChangeErr : Nat := 0
  linkMode : Int := -1
  hw : Hw := {}
  submitted : Int → Option SchedTable := fun _ => none

/-- What a call gets from outside the scheduler: the working clock, the
result and value of the offset computation, the link speed and the delay to
the wire (both FSC), the row transfers and what the hardware does meanwhile. -/
structure Env where
  curTime : Timespec := {}
  offset : Int × Int := (0, 0)
  speed : Int := 1000
  txDelay : Int := 0
  xfers : List Xfer := []
  evs : List (List HwEv) := []

/-- The functions in which the three users of the state machine differ. -/
structure Variant where
  /-- what the admin list file does to an entry before it is stored -/
  importEntry : Com → TabEntry → TabEntry
  adjustAdminTab : Com → List TabEntry → Int × List TabEntry
  maxCycNs : Com → Nat
  setAdminGateStates : Com → BitVec 8 → BitVec 8 → BitVec 8 → BitVec 8
  /-- the last part of the parameter check -/
  getSchedOffset : Env → EdgxSched → Int × EdgxSched
  startOffset : Com → Env → EdgxSched → Int
  configChange : Com → EdgxSched → Int × EdgxSched
  fixCcTime : Com → Env → EdgxSched → EdgxSched

/-! ## Admin parameters -/

def EDGX_SCHED_INTERVAL_MAX : Nat := 0xffff

/-- `edgx_sched_set_entries`; `allocOk` is whether `krealloc` succeeds. -/
def edgxSchedSetEntries (V : Variant) (com : Com) (s : EdgxSched) (first : Nat) (entries : List TabEntry)
    (allocOk : Bool) : Int × EdgxSched :=
  if first + entries.length > com.maxEntryCnt then (-EFBIG, s)
  else
    -- clear the table on access to entry 0
    let s :=
      if first = 0 then { s with adminTab := { s.adminTab with entryCnt := 0, entries := none } } else s
    if first ≠ s.adminTab.entryCnt then (-EINVAL, s)
    else if !allocOk then (-ENOMEM, s)
    else
      let stored := (s.adminTab.entries.getD []) ++ entries.map (V.importEntry com)
      let (ret, stored) := V.adjustAdminTab com stored
      let s := { s with adminTab := { s.adminTab with entries := some stored
                                                      entryCnt := first + entries.length } }
      if ret ≠ 0 then (ret, { s with confChangeErr := s.confChangeErr + 1 }) else (0, s)

def edgxSchedSetCtrlListLen (com : Com) (s : EdgxSched) (listLen : Nat) : Int × EdgxSched :=
  if listLen > com.maxEntryCnt then (-ERANGE, s)
  else (0, { s with adminTab := { s.adminTab with listLen } })

def edgxSchedSetCycleTime (V : Variant) (com : Com) (s : EdgxSched) (ct : Rational) : Int × EdgxSched :=
  if ct.denom = 0 then (-EINVAL, s)
  else if (edgxSchedRationalToNsec ct).1 ≤ V.maxCycNs com then
    (0, { s with adminTab := { s.adminTab with cycleTime := ct } })
  else (-ERANGE, { s with confChangeErr := s.confChangeErr + 1 })

def edgxSchedSetBaseTime (s : EdgxSched) (baseTime : Timespec) : Int × EdgxSched :=
  (0, { s with adminTab := { s.adminTab with baseTime } })

def edgxSchedSetAdminGateStates (V : Variant) (com : Com) (s : EdgxSched) (gateStates mask : BitVec 8) :
    Int × EdgxSched :=
  (0, { s with adminTab := { s.adminTab with
                             gateStates := V.setAdminGateStates com s.adminTab.gateStates gateStates mask } })

/-! ## State machine request handlers -/

def edgxSchedCheckCcParams (V : Variant) (env : Env) (s : EdgxSched) : Int × EdgxSched :=
  if s.adminTab.entries.isNone ∨ s.adminTab.entryCnt = 0 ∨ s.adminTab.cycleTime.num = 0 ∨
      s.adminTab.listLen = 0 ∨ s.adminTab.entryCnt < s.adminTab.listLen then (-EFAULT, s)
  else V.getSchedOffset env s

/-- Returns how long to delay the submission, and whether the base time is in
the past. -/
def edgxSchedCalcCcTime (V : Variant) (com : Com) (env : Env) (s : EdgxSched) : (Int × Bool) × EdgxSched :=
  let timeInPast := s.adminTab.baseTime.past env.curTime
  let startTime :=
    if timeInPast then edgxSchedCalcFutureTime s.adminTab.baseTime env.curTime s.adminTab.cycleTime
    else s.adminTab.baseTime
  let s := { s with confChangeTime := startTime
                    startTime := setNormalizedTimespec64 startTime.sec
                      (startTime.nsec + V.startOffset com env s) }
  ((delaySec s.startTime env.curTime, timeInPast), s)

/-- The start of a configuration change: what is pending is cancelled. -/
def edgxSchedStmCancel (s : EdgxSched) : EdgxSched :=
  let s := if s.state = .pending then { s with hw := edgxSchedHwCancelPending s.hw } else s
  let s := if s.state = .pendingDelayed then { s with armed := false } else s
  { s with state := .idle }

def edgxSchedStmCfgChange (V : Variant) (com : Com) (env : Env) (s : EdgxSched) : Int × EdgxSched :=
  if !s.confChange then (0, s)
  else
    let s := edgxSchedStmCancel s
    if !s.gateEnabled then (0, s)
    else
      let (ret, s) := edgxSchedCheckCcParams V env s
      if ret ≠ 0 then (ret, { s with confChange := false })
      else
        let ((delay, timeInPast), s) := edgxSchedCalcCcTime V com env s
        let s := if timeInPast then { s with confChangeErr := s.confChangeErr + 1 } else s
        if delay ≠ 0 then (0, { s with state := .pendingDelayed, armed := true, confChange := false })
        else
          let (ret, s) := V.configChange com s
          let s := if ret = 0 then { s with state := .pending } else s
          (ret, { s with confChange := false })

def edgxSchedStmGateEnable (V : Variant) (com : Com) (env : Env) (s : EdgxSched) : Int × EdgxSched :=
  if s.state = .idle then
    let s := { s with hw := s.hw.wrEme false s.adminTab.gateStates }
    -- the table in use is looked up for the notification
    let s := { s with hw := (edgxSchedGetUsedTab s.hw).2 }
    if s.confChange then edgxSchedStmCfgChange V com env s else (0, s)
  else (0, s)

def edgxSchedStmGateDisable (s : EdgxSched) : EdgxSched :=
  let s := if s.state = .pending then { s with hw := edgxSchedHwCancelPending s.hw }
    else if s.state = .pendingDelayed then { s with armed := false } else s
  { s with hw := s.hw.wrEme true s.adminTab.gateStates, state := .idle }

/-- The delayed work runs when it has been scheduled and not cancelled. -/
def edgxSchedStmPendingDelayed (V : Variant) (com : Com) (env : Env) (s : EdgxSched) : Int × EdgxSched :=
  if !s.armed then (0, s)
  else edgxSchedStmCfgChange V com env { s with armed := false, state := .idle }

def edgxSchedStmCctHandler (V : Variant) (com : Com) (env : Env) (s : EdgxSched) : EdgxSched :=
  if s.state = .pending then
    let (isPending, hw) := edgxSchedHwIsPending s.hw
    let s := { s with hw }
    if !isPending then { V.fixCcTime com env s with state := .idle } else s
  else s

def edgxSchedSetGateEnabled (V : Variant) (com : Com) (env : Env) (s : EdgxSched) (enabled : Bool) :
    Int × EdgxSched :=
  let s := { s with gateEnabled := enabled }
  if enabled then edgxSchedStmGateEnable V com env s else (0, edgxSchedStmGateDisable s)

def edgxSchedSetConfigChange (V : Variant) (com : Com) (env : Env) (s : EdgxSched) (configChange : Bool) :
    Int × EdgxSched :=
  edgxSchedStmCfgChange V com env { s with confChange := configChange }

/-! ## Shared scheduler -/

/-- The validation of edge_sched.c leaves the entries as they are. -/
def edgxSchedAdjustAdminTab (com : Com) : List TabEntry → Int
  | [] => 0
  | e :: es =>
    if e.timeInterval.toNat % com.hwGranularityNs ≠ 0 then -EINVAL
    else if e.timeInterval.toNat / com.hwGranularityNs > EDGX_SCHED_INTERVAL_MAX then -EINVAL
    else edgxSchedAdjustAdminTab com es

def EDGX_SCHED_MAX_CYC_NS : Nat := 16 * 1000000

def EDGX_SCHED_DEF_START_TIME_ERR : Nat := 256

def edgxSchedConfigChange (prepareConfig : Com → Hw → List TabEntry → Int × Hw) (com : Com)
    (s : EdgxSched) : Int × EdgxSched :=
  let (tabIdx, hw) := edgxSchedGetFreeTab s.hw
  let s := { s with hw }
  if tabIdx < 0 then (tabIdx, s)
  else
    let entries := s.adminTab.entries.getD []
    let s := { s with opTabs := Function.update s.opTabs tabIdx { s.adminTab with entries := none } }
    let (ret, hw) := prepareConfig com s.hw (entries.take s.adminTab.listLen)
    let s := { s with hw }
    if ret ≠ 0 then (ret, s)
    else
      let ctNsec := (edgxSchedRationalToNsec (s.opTabs tabIdx).cycleTime).1
      (0, { s with hw := edgxSchedHwSetPending s.hw tabIdx s.startTime (BitVec.ofNat 32 ctNsec)
                   submitted := Function.update s.submitted tabIdx (some s.adminTab) })

def edgxSchedFixCcTime (s : EdgxSched) : EdgxSched :=
  let (tabIdx, hw) := edgxSchedGetUsedTab s.hw
  let s := { s with hw }
  match tab? tabIdx with
  | none => s
  | some t =>
    let (hwStartTime, hw) := edgxSchedHwGetCcTime s.hw t
    let s := { s with hw }
    -- the hardware keeps the low bits of the seconds
    let reduced := { s.startTime with sec := s.startTime.sec % (EDGX_SCHED_START_TIME_SEC_MASK + 1) }
    let delta := timespec64ToNs hwStartTime - timespec64ToNs reduced
    if delta.natAbs > EDGX_SCHED_DEF_START_TIME_ERR then
      let startTime := timespec64AddNs s.startTime (u64OfInt delta)
      { s with confChangeErr := s.confChangeErr + 1, startTime
               confChangeTime := setNormalizedTimespec64 startTime.sec (startTime.nsec - s.offsetNs) }
    else s

/-- The offset is stored when it could be computed. -/
def edgxSchedGetSchedOffset (env : Env) (s : EdgxSched) : Int × EdgxSched :=
  if env.offset.1 = 0 then (0, { s with offsetNs := env.offset.2 }) else (env.offset.1, s)

/-- edge_sched.c over a compiler of control lists. -/
def shared (importEntry : Com → TabEntry → TabEntry)
    (prepareConfig : Com → Hw → List TabEntry → Int × Hw) : Variant where
  importEntry
  adjustAdminTab com es := (edgxSchedAdjustAdminTab com es, es)
  maxCycNs _ := EDGX_SCHED_MAX_CYC_NS
  setAdminGateStates _ old gateStates mask := (old &&& ~~~mask) ||| (gateStates &&& mask)
  getSchedOffset := edgxSchedGetSchedOffset
  startOffset _ _ s := s.offsetNs
  configChange := edgxSchedConfigChange prepareConfig
  fixCcTime _ _ := edgxSchedFixCcTime

/-- The gates of a port (edge_st_fscr.c): `admin_ctrl_list_write` masks the
gates of each entry. -/
def portGates : Variant :=
  shared (fun com e => { e with gateStates := e.gateStates &&& com.gateMask }) edgxStPrepareConfig

/-- Stream gates (edge_psfp.c): the entries come with gate state and priority
already in the gates field. -/
def streamGates : Variant := shared (fun _ e => e) edgxPsfpGtPrepareConfig

/-! ## FSC variant -/

namespace Fsc

def EDGX_SCHED_INTERVAL_MIN : Nat := 8
def EDGX_SCHED_TIME_ADJ_DC : Nat := 1540
def EDGX_SCHED_HW_MAX_CT_NS : Nat := 999999999
def SPEED_UNKNOWN : Int := -1

/-- The gates are masked here, entry by entry up to the first invalid one. -/
def edgxSchedAdjustAdminTab (com : Com) : List TabEntry → Int × List TabEntry
  | [] => (0, [])
  | e :: es =>
    let e := { e with gateStates := e.gateStates &&& com.gateMask }
    let cycles := e.timeInterval.toNat / com.hwGranularityNs
    if cycles < EDGX_SCHED_INTERVAL_MIN ∨ cycles > EDGX_SCHED_INTERVAL_MAX then (-EINVAL, e :: es)
    else
      let (ret, es) := edgxSchedAdjustAdminTab com es
      (ret, e :: es)

/-- The down-counter delay that `edgx_sched_adjust_time` adds or subtracts. -/
def adjustDiff (com : Com) (env : Env) (linkMode : Int) : Int :=
  let adj := EDGX_SCHED_TIME_ADJ_DC * (if linkMode = 100 then 10 else if linkMode = 10 then 100 else 1)
  let adj := adj * com.hwGranularityNs
  let adj :=
    if com.hwGranularityNs = 10 then adj * 4 / 5
    else if com.hwGranularityNs = 5 then adj * 8 / 5
    else adj
  adj + 10 * com.hwGranularityNs + env.txDelay

def edgxSchedAdjustTime (com : Com) (env : Env) (linkMode : Int) (inTime : Timespec) (increase : Bool) :
    Timespec :=
  if increase then setNormalizedTimespec64 inTime.sec (inTime.nsec + adjustDiff com env linkMode)
  else setNormalizedTimespec64 inTime.sec (inTime.nsec - adjustDiff com env linkMode)

/-- The last check of `edgx_sched_check_cc_params`. -/
def checkLink (env : Env) (s : EdgxSched) : Int × EdgxSched :=
  (if env.speed = SPEED_UNKNOWN then - EIO else 0, { s with linkMode := env.speed })

/-- The result of the table lookup is used as an index before it is known
not to be an error. -/
def edgxSchedConfigChange (com : Com) (s : EdgxSched) : Int × EdgxSched :=
  let (tb, hw) := edgxSchedGetFreeTab s.hw
  let s := { s with hw, opTabs := Function.update s.opTabs tb s.adminTab }
  let entries := (s.opTabs tb).entries.getD []
  let (ret, hw) := edgxSchedWriteTable com s.hw tb (entries.take (s.opTabs tb).listLen)
  let s := { s with hw }
  let s :=
    if ret = 0 then
      let (ctNsec, ctSubnsec) := edgxSchedRationalToNsec (s.opTabs tb).cycleTime
      { s with hw := Fsc.edgxSchedHwSetPending s.hw tb s.startTime (BitVec.ofNat 32 ctNsec)
                 (BitVec.ofNat 32 ctSubnsec)
               submitted := Function.update s.submitted tb (some s.adminTab) }
    else s
  (ret, { s with opTabs := Function.update s.opTabs tb { s.opTabs tb with entries := none } })

def edgxSchedFixCcTime (com : Com) (env : Env) (s : EdgxSched) : EdgxSched :=
  let (tabIdx, hw) := edgxSchedGetUsedTab s.hw
  let s := { s with hw }
  match tab? tabIdx with
  | none => s
  | some t =>
    let (hwStartTime, hw) := edgxSchedHwGetCcTime s.hw t
    let s := { s with hw }
    let reduced := { s.startTime with sec := s.startTime.sec % (EDGX_SCHED_START_TIME_SEC_MASK + 1) }
    let delta := timespec64Sub hwStartTime reduced
    if delta.sec > 0 ∨ delta.nsec > 0 then
      let startTime := timespec64Add s.startTime delta
      { s with confChangeErr := s.confChangeErr + 1, startTime
               confChangeTime := edgxSchedAdjustTime com env s.linkMode startTime true }
    else s

end Fsc

/-- edge_st_fsc.c. -/
def fsc : Variant where
  importEntry _ e := e
  adjustAdminTab := Fsc.edgxSchedAdjustAdminTab
  maxCycNs com := min Fsc.EDGX_SCHED_HW_MAX_CT_NS
    (com.maxEntryCnt * com.hwGranularityNs * EDGX_SCHED_INTERVAL_MAX % 2 ^ 32)
  setAdminGateStates com _ gateStates _ := gateStates &&& com.gateMask
  getSchedOffset := Fsc.checkLink
  startOffset com env s := -Fsc.adjustDiff com env s.linkMode
  configChange := Fsc.edgxSchedConfigChange
  fixCcTime := Fsc.edgxSchedFixCcTime

/-- The three users of the state machine. -/
inductive User where
  | portGates
  | streamGates
  | fsc
  deriving DecidableEq

def User.variant : User → Variant
  | .portGates => Sched.portGates
  | .streamGates => Sched.streamGates
  | .fsc => Sched.fsc

/-! ## Runs -/

/-- A call, the firing of the delayed work, the interrupt, or the hardware
acting between calls. -/
inductive Op where
  | setEntries (first : Nat) (entries : List TabEntry) (allocOk : Bool)
  | setCtrlListLen (listLen : Nat)
  | setCycleTime (ct : Rational)
  | setBaseTime (baseTime : Timespec)
  | setAdminGateStates (gateStates mask : BitVec 8)
  | setConfigChange (configChange : Bool) (env : Env)
  | setGateEnabled (enabled : Bool) (env : Env)
  | pendingDelayed (env : Env)
  | cctHandler (env : Env)
  | hwEvents (evs : List HwEv)

def EdgxSched.withEnv (s : EdgxSched) (env : Env) : EdgxSched :=
  { s with hw := { s.hw with evs := env.evs, xfers := env.xfers } }

def step (V : Variant) (com : Com) (s : EdgxSched) : Op → Int × EdgxSched
  | .setEntries first entries allocOk => edgxSchedSetEntries V com s first entries allocOk
  | .setCtrlListLen listLen => edgxSchedSetCtrlListLen com s listLen
  | .setCycleTime ct => edgxSchedSetCycleTime V com s ct
  | .setBaseTime baseTime => edgxSchedSetBaseTime s baseTime
  | .setAdminGateStates gateStates mask => edgxSchedSetAdminGateStates V com s gateStates mask
  | .setConfigChange b env => edgxSchedSetConfigChange V com env (s.withEnv env) b
  | .setGateEnabled b env => edgxSchedSetGateEnabled V com env (s.withEnv env) b
  | .pendingDelayed env => edgxSchedStmPendingDelayed V com env (s.withEnv env)
  | .cctHandler env => (0, edgxSchedStmCctHandler V com env (s.withEnv env))
  | .hwEvents evs => (0, { s with hw := { s.hw with tabs := evs.foldl HwEv.apply s.hw.tabs } })

/-- The scheduler after the probe: `gateStates` are the initial gate states. -/
def init (gateStates : BitVec 8) : EdgxSched :=
  { adminTab := { gateStates }, hw := { emeStat := gateStates } }

end TsnSwitch.Sched
