/-
The scheduler hardware of one port or stream gate: two schedule tables, each
with its rows, its start and cycle time registers and the two flags CAN_USE
(the driver has submitted it) and IN_USE (the hardware executes it).

The hardware acts on its own: it switches to a submitted table, and retires
the table it ran before. A call carries in `evs` what the hardware does just
before each register access of the call, so an interleaving at the level of
register accesses is a choice of these lists.
-/
import TsnSwitch.Errno
import TsnSwitch.Sched.Time

namespace TsnSwitch.Sched

/-- One of the two schedule tables. -/
abbrev Tab := Fin 2

instance twoTabs : NeZero 2 := ⟨two_ne_zero⟩

/-- The index of a table in `op_tabs` and in the register map. -/
def Tab.idx (t : Tab) : Int := t.val

/-- A row of a schedule table. -/
structure Row where
  gates : BitVec 16 := 0
  cycles : BitVec 16 := 0
  deriving DecidableEq

structure HwTab where
  canUse : Bool := false
  inUse : Bool := false
  stopLast : Bool := false
  cycNsec : BitVec 32 := 0
  cycSubns : BitVec 32 := 0
  startSec : BitVec 16 := 0
  startNsec : BitVec 32 := 0
  rows : Nat → Row := fun _ => {}

/-- What the hardware does on its own. It may adjust the start time of the
table it switches to. -/
inductive HwEv where
  | switch (t : Tab) (start : Option (BitVec 16 × BitVec 32))
  | retire (t : Tab)

/-- The outcome of a row transfer: an erroneous one may or may not have
reached the row. -/
inductive Xfer where
  | ok
  | err (done : Bool)

/-- The hardware with what it will do during the current call. The flags
`wroteInUse` and `stray` record a write of rows or time registers of a table
in use, and a register access outside both tables. -/
structure Hw where
  tabs : Tab → HwTab := fun _ => {}
  emeStat : BitVec 8 := 0
  emeDis : Bool := true
  wroteInUse : Bool := false
  stray : Bool := false
  evs : List (List HwEv) := []
  xfers : List Xfer := []

def HwEv.apply (tabs : Tab → HwTab) : HwEv → Tab → HwTab
  | .switch t start =>
    if (tabs t).canUse then
      let tab := { tabs t with canUse := false, inUse := true }
      Function.update tabs t (match start with
        | some (sec, nsec) => { tab with startSec := sec, startNsec := nsec }
        | none => tab)
    else tabs
  | .retire t =>
    if (tabs t).inUse && (tabs (1 - t)).inUse then Function.update tabs t { tabs t with inUse := false }
    else tabs

/-- The hardware just before the next register access. -/
def Hw.tick (hw : Hw) : Hw :=
  match hw.evs with
  | [] => hw
  | e :: es => { hw with tabs := e.foldl HwEv.apply hw.tabs, evs := es }

/-- The table a register index addresses. -/
def tab? (idx : Int) : Option Tab :=
  if idx = 0 then some 0 else if idx = 1 then some 1 else none

/-- Read `TBL_GEN` of a table. -/
def Hw.rdTblGen (hw : Hw) (t : Tab) : HwTab × Hw :=
  let hw := hw.tick
  (hw.tabs t, hw)

/-- Write `TBL_GEN` of a table. `IN_USE` belongs to the hardware. -/
def Hw.wrTblGen (hw : Hw) (idx : Int) (canUse stopLast : Bool) : Hw :=
  let hw := hw.tick
  match tab? idx with
  | some t => { hw with tabs := Function.update hw.tabs t { hw.tabs t with canUse, stopLast } }
  | none => { hw with stray := true }

/-- Write time registers of a table. -/
def Hw.wrTime (hw : Hw) (idx : Int) (f : HwTab → HwTab) : Hw :=
  let hw := hw.tick
  match tab? idx with
  | some t => { hw with tabs := Function.update hw.tabs t (f (hw.tabs t))
                        wroteInUse := hw.wroteInUse || (hw.tabs t).inUse }
  | none => { hw with stray := true }

def EDGX_SCHED_ROW_AC_CMD1_MASK : Nat := 0x3ff

/-- The table a row command addresses: one bit of the index. -/
def cmdTab (idx : Int) : Tab := if idx % 2 = 0 then 0 else 1

def cmdRow (row : Nat) : Nat := row % (EDGX_SCHED_ROW_AC_CMD1_MASK + 1)

/-- The outcome of the next row transfer. -/
def Hw.nextXfer (hw : Hw) : Xfer × Hw :=
  match hw.xfers with
  | [] => (.ok, hw)
  | x :: xs => (x, { hw with xfers := xs })

def Hw.setRow (hw : Hw) (t : Tab) (row : Nat) (r : Row) : Hw :=
  let rows := Function.update (hw.tabs t).rows row r
  { hw with tabs := Function.update hw.tabs t { hw.tabs t with rows }
            wroteInUse := hw.wroteInUse || (hw.tabs t).inUse }

/-- Write a row through the command registers. -/
def Hw.writeRow (hw : Hw) (idx : Int) (row : Nat) (r : Row) : Int × Hw :=
  let (x, hw) := hw.tick.nextXfer
  match x with
  | .ok => (0, hw.setRow (cmdTab idx) (cmdRow row) r)
  | .err done => (-EBUSY, if done then hw.setRow (cmdTab idx) (cmdRow row) r else hw)

/-- Read a row through the command registers; `none` when the transfer fails. -/
def Hw.readRow (hw : Hw) (idx : Int) (row : Nat) : Option Row × Hw :=
  let (x, hw) := hw.tick.nextXfer
  match x with
  | .ok => (some ((hw.tabs (cmdTab idx)).rows (cmdRow row)), hw)
  | .err _ => (none, hw)

def edgxSchedHwIsPending (hw : Hw) : Bool × Hw :=
  let (pending0, hw) := hw.rdTblGen 0
  let (pending1, hw) := hw.rdTblGen 1
  (pending0.canUse || pending1.canUse, hw)

def edgxSchedHwCancelPending (hw : Hw) : Hw :=
  let (tblGen, hw) := hw.rdTblGen 0
  let hw := hw.wrTblGen 0 false tblGen.stopLast
  let (tblGen, hw) := hw.rdTblGen 1
  hw.wrTblGen 1 false tblGen.stopLast

/-- The first free table index. -/
def edgxSchedGetFreeTab (hw : Hw) : Int × Hw :=
  let (tblGen, hw) := hw.rdTblGen 0
  if !tblGen.inUse then (0, hw)
  else
    let (tblGen, hw) := hw.rdTblGen 1
    if !tblGen.inUse then (1, hw) else (-EINVAL, hw)

/-- The first used table index. -/
def edgxSchedGetUsedTab (hw : Hw) : Int × Hw :=
  let (tblGen, hw) := hw.rdTblGen 0
  if tblGen.inUse then (0, hw)
  else
    let (tblGen, hw) := hw.rdTblGen 1
    if tblGen.inUse then (1, hw) else (-EINVAL, hw)

def EDGX_SCHED_START_TIME_SEC_MASK : Int := 0x00ff

/-- Submit a new configuration: cycle time, start time, then CAN_USE. The two
halves of a 32 bit register are one write here. -/
def edgxSchedHwSetPending (hw : Hw) (idx : Int) (baseTime : Timespec) (cycleNsec : BitVec 32) : Hw :=
  let hw := hw.wrTime idx fun t => { t with cycNsec := cycleNsec }
  let hw := hw.wrTime idx fun t =>
    { t with startSec := BitVec.ofInt 16 (baseTime.sec % (EDGX_SCHED_START_TIME_SEC_MASK + 1)) }
  let hw := hw.wrTime idx fun t => { t with startNsec := BitVec.ofInt 32 baseTime.nsec }
  -- the other bits of TBL_GEN are read back and kept
  let hw := hw.tick
  hw.wrTblGen idx true false

/-- The FSC variant has a sub-nanosecond register as well. -/
def Fsc.edgxSchedHwSetPending (hw : Hw) (idx : Int) (baseTime : Timespec)
    (cycleNsec cycleSubnsec : BitVec 32) : Hw :=
  let hw := hw.wrTime idx fun t => { t with cycNsec := cycleNsec }
  let hw := hw.wrTime idx fun t => { t with cycSubns := cycleSubnsec }
  let hw := hw.wrTime idx fun t =>
    { t with startSec := BitVec.ofInt 16 (baseTime.sec % (EDGX_SCHED_START_TIME_SEC_MASK + 1)) }
  let hw := hw.wrTime idx fun t => { t with startNsec := BitVec.ofInt 32 baseTime.nsec }
  let hw := hw.tick
  hw.wrTblGen idx true false

/-- The start time in the registers of a used table. -/
def edgxSchedHwGetCcTime (hw : Hw) (t : Tab) : Timespec × Hw :=
  let hw := hw.tick
  (⟨(hw.tabs t).startSec.toNat, (hw.tabs t).startNsec.toNat⟩, hw)

/-- `edgx_sched_hw_enable` and `edgx_sched_hw_disable`. -/
def Hw.wrEme (hw : Hw) (dis : Bool) (gateStates : BitVec 8) : Hw :=
  { hw.tick with emeStat := gateStates, emeDis := dis }

end TsnSwitch.Sched
