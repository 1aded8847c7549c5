/-
Compiling an admin control list into the rows of a schedule table, and
reading the operational list back: edge_st_fscr.c (gates of a port, over
edge_sched.c), edge_psfp.c (stream gates, over edge_sched.c) and
edge_st_fsc.c (gates of a port, with its own scheduler).

The shared scheduler writes into row i the time from the cycle start to the
end of interval i; the FSC variant writes the interval itself.
-/
import TsnSwitch.Sched.Hw

namespace TsnSwitch.Sched

/-- `struct edgx_sched_tab_entry`. -/
structure TabEntry where
  timeInterval : BitVec 32
  operationName : BitVec 8
  gateStates : BitVec 8
  deriving DecidableEq

def edgxSchedUndefEntry : TabEntry := ⟨0, 0xff, 0⟩

def EDGX_SCHED_OP_SET_GSTATES : BitVec 8 := 0x00
def EDGX_SCHED_OP_HOLD_MAC : BitVec 8 := 0x01
def EDGX_SCHED_OP_REL_MAC : BitVec 8 := 0x02

/-- What the hardware and the probe fix: `hw_granularity_ns` (`ns_per_clk` in
the FSC variant), the number of rows for entries, the number of queues. -/
structure Com where
  hwGranularityNs : Nat
  maxEntryCnt : Nat
  nrQueues : Nat
  gran_pos : 0 < hwGranularityNs
  gran_le : hwGranularityNs ≤ 3200
  max_lt : maxEntryCnt < 1024
  queues_le : nrQueues ≤ 8

/-- A scheduler with eight queues, 320 ns ticks and 1023 entries. -/
def someCom : Com := ⟨320, 1023, 8, by decide, by decide, by decide, by decide⟩

/-- `edgx_st_get_hold`: the bit of a row above the gates. -/
def Com.hold (com : Com) : BitVec 16 := 1#16 <<< com.nrQueues

/-- `edgx_st_get_gate_mask`. -/
def Com.gateMask (com : Com) : BitVec 8 := BitVec.ofNat 8 (2 ^ com.nrQueues - 1)

/-- The gates of an entry in a row. -/
def TabEntry.gates (e : TabEntry) : BitVec 16 := e.gateStates.setWidth 16

/-- The entry neither holds nor releases. -/
def TabEntry.keepsHold (e : TabEntry) : Bool :=
  e.operationName != EDGX_SCHED_OP_HOLD_MAC && e.operationName != EDGX_SCHED_OP_REL_MAC

/-- The hold bits from an entry on. -/
def TabEntry.nextHold (com : Com) (hold : BitVec 16) (e : TabEntry) : BitVec 16 :=
  if e.operationName = EDGX_SCHED_OP_HOLD_MAC then com.hold
  else if e.operationName = EDGX_SCHED_OP_REL_MAC then 0
  else hold

def edgxSchedWriteEntry (com : Com) (hw : Hw) (tabIdx : Int) (rowIdx : Nat) (gateStates : BitVec 16)
    (timeNs : BitVec 32) : Int × Hw :=
  hw.writeRow tabIdx rowIdx ⟨gateStates, BitVec.ofNat 16 (timeNs.toNat / com.hwGranularityNs)⟩

/-- Reads a row of a list of `listLen` entries: the code, the row's gates and
its time, which are left as they were (`old`) on error. -/
def edgxSchedReadEntry (com : Com) (hw : Hw) (listLen : Nat) (tabIdx : Int) (rowIdx : Nat)
    (old : BitVec 16 × BitVec 32) : (Int × BitVec 16 × BitVec 32) × Hw :=
  if rowIdx ≥ listLen then ((-ENOENT, old), hw)
  else
    match hw.readRow tabIdx rowIdx with
    | (some r, hw) => ((0, r.gates, BitVec.ofNat 32 (r.cycles.toNat * com.hwGranularityNs)), hw)
    | (none, hw) => ((-EBUSY, old), hw)

/-- The operation read back from a row with hold bits `newHold` after one with
`hold`. -/
def readOp (hold newHold : BitVec 16) : BitVec 8 :=
  if hold = 0 ∧ newHold ≠ 0 then EDGX_SCHED_OP_HOLD_MAC
  else if hold ≠ 0 ∧ newHold = 0 then EDGX_SCHED_OP_REL_MAC
  else EDGX_SCHED_OP_SET_GSTATES

/-! ## Gates of a port, shared scheduler -/

/-- The first loop of `edgx_st_prepare_config`, from index `i` on: the code,
and the index, hold bits and time it ends with. -/
def edgxStWriteRows (com : Com) (tabIdx : Int) :
    List TabEntry → Nat → BitVec 16 → BitVec 32 → Hw → (Int × Nat × BitVec 16 × BitVec 32) × Hw
  | [], i, hold, time, hw => ((0, i, hold, time), hw)
  | e :: es, i, hold, time, hw =>
    let hold := e.nextHold com hold
    let time := time + e.timeInterval
    let (ret, hw) := edgxSchedWriteEntry com hw tabIdx i (e.gates ||| hold) time
    if ret = 0 then edgxStWriteRows com tabIdx es (i + 1) hold time hw else ((ret, i + 1, hold, time), hw)

/-- The second loop: the entries before the first hold or release take the
hold level the cycle ends with. -/
def edgxStPatchRows (com : Com) (tabIdx : Int) (hold : BitVec 16) :
    List TabEntry → Nat → BitVec 32 → Hw → Int × Hw
  | [], _, _, hw => (0, hw)
  | e :: es, i, time, hw =>
    if e.keepsHold then
      let time := time + e.timeInterval
      let (ret, hw) := edgxSchedWriteEntry com hw tabIdx i (e.gates ||| hold) time
      if ret = 0 then edgxStPatchRows com tabIdx hold es (i + 1) time hw else (ret, hw)
    else (0, hw)

/-- `entries` are the first `count` entries of the list, at least one. -/
def edgxStPrepareConfig (com : Com) (hw : Hw) (entries : List TabEntry) : Int × Hw :=
  let (tabIdx, hw) := edgxSchedGetFreeTab hw
  if tabIdx < 0 then (tabIdx, hw)
  else
    let ((ret, i, hold, time), hw) := edgxStWriteRows com tabIdx entries 0 0 0 hw
    if ret ≠ 0 then (ret, hw)
    else
      -- the last entry again: the hardware stops on this row
      let last := (entries.getLast?.map TabEntry.gates).getD 0
      let (ret, hw) := edgxSchedWriteEntry com hw tabIdx i last time
      if hold ≠ 0 ∧ ret = 0 then edgxStPatchRows com tabIdx hold entries.dropLast 0 0 hw
      else (ret, hw)

/-- The loop of `edgx_st_get_oper_ctrl_list` from slot `i` on. `vars` are
`gate_states` and `time_ns`, which keep their values when a read fails. The
rest of the caller's buffer is `buf`; the slot whose read says there is no
such row is left as it was. -/
def edgxStReadRows (com : Com) (listLen : Nat) (tabIdx : Int) (first : Nat) :
    List TabEntry → Nat → BitVec 16 × BitVec 32 → BitVec 32 → BitVec 16 → Hw →
      List TabEntry × Hw
  | [], _, _, _, _, hw => ([], hw)
  | slot :: buf, i, vars, prevTimeNs, hold, hw =>
    let ((ret, gateStates, timeNs), hw) := edgxSchedReadEntry com hw listLen tabIdx (first + i) vars
    if ret = -ENOENT then (slot :: buf.map fun _ => edgxSchedUndefEntry, hw)
    else
      let newHold := gateStates &&& com.hold
      let e : TabEntry :=
        ⟨timeNs - prevTimeNs, readOp hold newHold, (gateStates &&& com.gateMask.setWidth 16).setWidth 8⟩
      if ret ≠ 0 then (e :: buf.map fun _ => edgxSchedUndefEntry, hw)
      else
        let (es, hw) :=
          edgxStReadRows com listLen tabIdx first buf (i + 1) (gateStates, timeNs) timeNs newHold hw
        (e :: es, hw)

/-- Fills the caller's buffer `buf` from entry `first` on. `listLens` are the
list lengths in `op_tabs`; `vars` is what the uninitialised variables hold. -/
def edgxStGetOperCtrlList (com : Com) (hw : Hw) (listLens : Int → Nat) (first : Nat) (buf : List TabEntry)
    (vars : BitVec 16 × BitVec 32) : (Int × List TabEntry) × Hw :=
  let (tabIdx, hw) := edgxSchedGetUsedTab hw
  if tabIdx < 0 then ((tabIdx, buf), hw)
  else if first = 0 then
    let (es, hw) := edgxStReadRows com (listLens tabIdx) tabIdx first buf 0 vars 0 0 hw
    ((0, es), hw)
  else
    let ((ret, gateStates, prevTimeNs), hw) :=
      edgxSchedReadEntry com hw (listLens tabIdx) tabIdx (first - 1) (vars.1, 0)
    if ret ≠ 0 then ((ret, buf), hw)
    else
      let (es, hw) :=
        edgxStReadRows com (listLens tabIdx) tabIdx first buf 0 (gateStates, vars.2) prevTimeNs 0 hw
      ((0, es), hw)

/-! ## Stream gates, shared scheduler -/

def edgxPsfpGtWriteRows (com : Com) (tabIdx : Int) :
    List TabEntry → Nat → BitVec 32 → Hw → (Int × Nat × BitVec 32) × Hw
  | [], i, time, hw => ((0, i, time), hw)
  | e :: es, i, time, hw =>
    let time := time + e.timeInterval
    let (ret, hw) := edgxSchedWriteEntry com hw tabIdx i e.gates time
    if ret = 0 then edgxPsfpGtWriteRows com tabIdx es (i + 1) time hw else ((ret, i + 1, time), hw)

def edgxPsfpGtPrepareConfig (com : Com) (hw : Hw) (entries : List TabEntry) : Int × Hw :=
  let (tabIdx, hw) := edgxSchedGetFreeTab hw
  if tabIdx < 0 then (tabIdx, hw)
  else
    let ((ret, i, time), hw) := edgxPsfpGtWriteRows com tabIdx entries 0 0 hw
    if ret ≠ 0 then (ret, hw)
    else edgxSchedWriteEntry com hw tabIdx i ((entries.getLast?.map TabEntry.gates).getD 0) time

/-! ## Gates of a port, FSC variant -/

namespace Fsc

/-- The row the FSC variant writes for an entry. -/
def entryRow (com : Com) (hold : BitVec 16) (e : TabEntry) : Row :=
  ⟨e.gates ||| hold, BitVec.ofNat 16 (e.timeInterval.toNat / com.hwGranularityNs)⟩

def edgxSchedWriteRows (com : Com) (tb : Int) :
    List TabEntry → Nat → BitVec 16 → Hw → (Int × Nat × BitVec 16) × Hw
  | [], i, hold, hw => ((0, i, hold), hw)
  | e :: es, i, hold, hw =>
    let hold := e.nextHold com hold
    let (ret, hw) := hw.writeRow tb i (entryRow com hold e)
    if ret = 0 then edgxSchedWriteRows com tb es (i + 1) hold hw else ((ret, i + 1, hold), hw)

def edgxSchedPatchRows (com : Com) (tb : Int) (hold : BitVec 16) : List TabEntry → Nat → Hw → Int × Hw
  | [], _, hw => (0, hw)
  | e :: es, i, hw =>
    if e.keepsHold then
      let (ret, hw) := hw.writeRow tb i (entryRow com hold e)
      if ret = 0 then edgxSchedPatchRows com tb hold es (i + 1) hw else (ret, hw)
    else (0, hw)

/-- The row writes of `edgx_sched_config_change`. -/
def edgxSchedWriteTable (com : Com) (hw : Hw) (tb : Int) (entries : List TabEntry) : Int × Hw :=
  let ((ret, i, hold), hw) := edgxSchedWriteRows com tb entries 0 0 hw
  if ret ≠ 0 then (ret, hw)
  else
    let (ret, hw) := hw.writeRow tb i ⟨(entries.getLast?.map TabEntry.gates).getD 0, 0⟩
    if hold ≠ 0 ∧ ret = 0 then edgxSchedPatchRows com tb hold entries 0 hw else (ret, hw)

/-- The loop of `edgx_sched_get_op_entry` from row `idx` on. -/
def edgxSchedReadRows (com : Com) (listLen : Nat) (tabIdx : Int) :
    List TabEntry → Nat → BitVec 16 → Hw → (Int × List TabEntry) × Hw
  | [], _, _, hw => ((0, []), hw)
  | slot :: buf, idx, hold, hw =>
    if idx ≥ listLen then ((0, (slot :: buf).map fun _ => edgxSchedUndefEntry), hw)
    else
      match hw.readRow tabIdx idx with
      | (none, hw) => ((-EBUSY, slot :: buf), hw)
      | (some r, hw) =>
        let newHold := r.gates &&& com.hold
        let e : TabEntry := ⟨BitVec.ofNat 32 (r.cycles.toNat * com.hwGranularityNs), readOp hold newHold,
          (r.gates &&& com.gateMask.setWidth 16).setWidth 8⟩
        let ((ret, es), hw) := edgxSchedReadRows com listLen tabIdx buf (idx + 1) newHold hw
        ((ret, e :: es), hw)

/-- `sizeof(struct edgx_sched_tab_entry)`. -/
def entrySize : Nat := 8

/-- Fills the caller's buffer from entry `first` on; returns the bytes read. -/
def edgxSchedGetOpEntry (com : Com) (hw : Hw) (listLens : Int → Nat) (first : Nat) (buf : List TabEntry) :
    (Int × List TabEntry) × Hw :=
  let (tabIdx, hw) := edgxSchedGetUsedTab hw
  if tabIdx < 0 ∨ listLens tabIdx = 0 then ((-ENOENT, buf), hw)
  else
    let ((ret, es), hw) := edgxSchedReadRows com (listLens tabIdx) tabIdx buf first 0 hw
    ((if ret = 0 then (buf.length * entrySize : Nat) else ret, es), hw)

end Fsc

end TsnSwitch.Sched
