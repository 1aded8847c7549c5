/-
Changes of the leaves of entries that stay in an admin control list
(`interface_sched_acl_mod_cb` in sched.c).

A change is written by reading the list, setting the leaf, and writing the list
again. The comment there wants the lesser of two lengths, the code takes the
greater, and what it takes for the old length is that of the first changed
interface only. `ModChange.Fits` says where that is right.
-/
import TsnSwitch.Lib.EarlyExit
import TsnSwitch.Lib.Pool
import TsnSwitch.Sysrepo.AclEdit

namespace TsnSwitch.Sysrepo.Acl

open Lib

/-! ## Changes and answers -/

/-- The leaves that the callback is called for. -/
inductive AclLeaf where
  | operationName
  | gateStatesValue
  | timeIntervalValue
  deriving DecidableEq

def AclLeaf.name : AclLeaf → String
  | .operationName => "operation-name"
  | .gateStatesValue => "gate-states-value"
  | .timeIntervalValue => "time-interval-value"

/-- The union in `sr_val_t`, read as each of its members. No identity has an
empty name. -/
structure ModData where
  uint8Val : BitVec 8
  uint32Val : BitVec 32
  stringVal : String
  stringVal_ne : stringVal ≠ ""

/-- A tick granularity in tenths of a nanosecond, at least a nanosecond. -/
abbrev Granularity := { g : BitVec 32 // 10 ≤ g.toNat }

/-- A change of a leaf of an entry, and what is answered when it is handled;
`none` where there is no answer. -/
structure ModChange where
  op : ChangeOp
  interface : Option String
  leaf : AclLeaf
  data : ModData
  opens : Bool := true
  feat : Bool := true
  /-- The key of the entry. -/
  index : Option (BitVec 32)
  /-- `tsn_st_get_admin_control_list_length`. -/
  driverLength : Option (BitVec 32)
  /-- The configured admin-control-list-length of the interface. -/
  length : Option (BitVec 32)
  mallocOk : Bool := true
  /-- The rows that `tsn_st_get_admin_control_list` reads. -/
  rows : Option (Nat → StGateControlEntry)
  granularity : Option Granularity
  setOk : Bool := true

/-- A change of admin-control-list-length; `old` is `none` where the leaf is
created. -/
structure LengthChange where
  interface : Option String
  old : Option (BitVec 32)

/-! ## The lengths before the edit -/

/-- `struct pair`. -/
structure LengthPair where
  key : String
  val : BitVec 32
  deriving DecidableEq

def BASE_EIGHT : Nat := 8

structure Recorded where
  aclPair : List LengthPair
  lengthChanged : Bool

/-- How the loop over the changed lengths ends. -/
inductive RecordEnd where
  | recorded (r : Recorded)
  | missingKey
  /-- Written behind the end of `acl_pair`. -/
  | overrun

def recordLengths : List LengthChange → Nat → Recorded → RecordEnd
  | [], _, r => .recorded r
  | c :: cs, i, r =>
    match c.old with
    | none => .recorded r
    | some old =>
      match c.interface with
      | none => .missingKey
      | some interfaceName =>
        if BASE_EIGHT ≤ i then .overrun
        else recordLengths cs (i + 1) ⟨r.aclPair.set i ⟨interfaceName, old⟩, true⟩

/-- The loop that looks for the interface, with `acl_len` and
`tmp_length_changed` behind it. -/
def findAclLen (interfaceName : String) : List LengthPair → BitVec 32 → Bool → BitVec 32 × Bool
  | [], aclLen, tmpLengthChanged => (aclLen, tmpLengthChanged)
  | p :: ps, aclLen, tmpLengthChanged =>
    if interfaceName = p.key then (p.val, tmpLengthChanged) else findAclLen interfaceName ps aclLen false

/-- `acl_len` and `tmp_length_changed` behind the look at the changed lengths. -/
def Recorded.find (r : Recorded) (interfaceName : String) (aclLen : BitVec 32) : BitVec 32 × Bool :=
  if r.lengthChanged then findAclLen interfaceName r.aclPair aclLen true else (aclLen, true)

/-! ## A turn of the loop -/

/-- The names of the objects, in the order of their indices. -/
def schedMap : List String :=
  ["max-sdu-table", "traffic-class", "queue-max-sdu", "transmission-overrun", "gate-parameters", "gate-enabled",
    "admin-gate-states", "admin-control-list-length", "admin-control-list", "oper-gate-states",
    "oper-control-list-length", "oper-control-list", "index", "operation-name", "sgs-params", "gate-states-value",
    "time-interval-value", "admin-cycle-time", "oper-cycle-time", "numerator", "denominator",
    "admin-cycle-time-extension", "oper-cycle-time", "admin-base-time", "oper-base-time", "config-change-time",
    "seconds", "fractional-seconds", "tick-granularity", "current-time", "config-pending", "config-change-error",
    "supported-list-max", "config-change"]

def SCHED_OP_NAME : Nat := 13
def SCHED_GATE_STATES_VALUE : Nat := 15
def SCHED_TIME_INTERVAL_VALUE : Nat := 16

/-- The `switch` over the leaves, `none` with `ret` set. -/
def ModChange.modify (c : ModChange) (entry : StGateControlEntry) : Option StGateControlEntry :=
  let objIndex := findObjIndexByName c.leaf.name schedMap
  if objIndex = SCHED_GATE_STATES_VALUE then some { entry with gsv := c.data.uint8Val }
  else if objIndex = SCHED_TIME_INTERVAL_VALUE then
    match c.granularity with
    | none => none
    | some granularity =>
      if c.data.uint32Val.toNat % (granularity.1.toNat / 10) ≠ 0 then none
      else some { entry with interval := c.data.uint32Val }
  else if objIndex = SCHED_OP_NAME then
    (translateSingleStringUsingMap c.data.stringVal schedOpNameMap).map fun tmpOpName =>
      { entry with op := BitVec.ofInt 8 (strtolEnd 10 tmpOpName.toList).1 }
  else some entry

/-- What was done for a change. -/
structure Handled where
  change : ModChange
  read : Option (List StGateControlEntry) := none
  written : Option (List StGateControlEntry) := none
  /-- The callback returns an error. -/
  failed : Bool := false

/-- The variables that live through the loop, and what was done. -/
structure ModLocals where
  aclLen : BitVec 32 := 0
  port : Holder := .start
  gcl : Holder := .start
  log : List Handled := []

/-- What the inner loop leaves. -/
structure ModBody where
  ret : Bool
  aclLen : BitVec 32
  gcl : Holder
  read : Option (List StGateControlEntry) := none
  written : Option (List StGateControlEntry) := none

/-- From the lengths on. -/
def ModChange.body (c : ModChange) (r : Recorded) (s : ModLocals) (interfaceName : String) (schedIndex : BitVec 32) :
    ModBody :=
  match c.driverLength with
  | none => { ret := true, aclLen := s.aclLen, gcl := s.gcl }
  | some gclLen =>
    let found := r.find interfaceName s.aclLen
    match if found.2 = false then c.length else some found.1 with
    | none => { ret := true, aclLen := found.1, gcl := s.gcl }
    | some aclLen =>
      let gclLen := if gclLen < aclLen then aclLen else gclLen
      if gclLen = 0 then { ret := false, aclLen, gcl := s.gcl }
      else if !c.mallocOk then { ret := true, aclLen, gcl := s.gcl.clear }
      else
        match c.rows with
        -- left without free
        | none => { ret := true, aclLen, gcl := s.gcl.acquire }
        | some rows =>
          let gcl := (List.range gclLen.toNat).map rows
          if gclLen ≤ schedIndex then { ret := false, aclLen, gcl := s.gcl.acquire, read := some gcl }
          else
            match c.modify (rows schedIndex.toNat) with
            | none => { ret := true, aclLen, gcl := s.gcl.acquire.release, read := some gcl }
            | some entry =>
              if !c.setOk then { ret := true, aclLen, gcl := s.gcl.acquire.release, read := some gcl }
              else
                { ret := false, aclLen, gcl := s.gcl.acquire, read := some gcl,
                  written := some (gcl.set schedIndex.toNat entry) }

def ModLocals.fail (s : ModLocals) (c : ModChange) (read : Option (List StGateControlEntry)) : SrError × ModLocals :=
  (.operationFailed, { s with log := s.log ++ [{ change := c, read, failed := true }] })

def modTurn (r : Recorded) (s : ModLocals) (c : ModChange) : Except (SrError × ModLocals) ModLocals :=
  match c.interface with
  | none => .error (s.fail c none)
  | some interfaceName =>
    if c.op ≠ .modified then .ok { s with log := s.log ++ [{ change := c }] }
    else if !c.opens then .error ({ s with port := s.port.clear }.fail c none)
    else
      let s := { s with port := s.port.acquire }
      if !c.feat then .error ({ s with port := s.port.release }.fail c none)
      else
        match c.index with
        -- returned without closing the port
        | none => .error (s.fail c none)
        | some schedIndex =>
          let b := c.body r s interfaceName schedIndex
          let s := { s with aclLen := b.aclLen, gcl := b.gcl, port := s.port.release }
          if b.ret then .error (s.fail c b.read)
          else
            .ok { s with gcl := s.gcl.release, log := s.log ++ [{ change := c, read := b.read, written := b.written }] }

/-! ## The callback -/

/-- A call, with what is on the stack where `acl_pair` is put. -/
structure ModCall where
  event : SrEvent
  pluginInit : Bool
  lengthIterOk : Bool
  lengthChanges : List LengthChange
  iterOk : Bool
  changes : List ModChange
  stack : List LengthPair
  stack_length : stack.length = BASE_EIGHT

inductive ModEnd where
  | returned (rc : SrError) (s : ModLocals)
  | overrun

/-- The end of the loop over the changes. -/
def modEnd : Except (SrError × ModLocals) ModLocals → ModEnd
  | .ok s => .returned .ok s
  | .error e => .returned e.1 e.2

def interfaceSchedAclModCb (call : ModCall) : ModEnd :=
  if call.event = .done || !call.pluginInit then .returned .ok {}
  else if !call.lengthIterOk then .returned .other {}
  else
    match recordLengths call.lengthChanges 0 ⟨call.stack, false⟩ with
    | .overrun => .overrun
    | .missingKey => .returned .operationFailed {}
    | .recorded r =>
      if !call.iterOk then .returned .other {}
      else modEnd (call.changes.foldlM (modTurn r) {})

/-! ## What the callback is for -/

/-- The operations by their names in the data model. -/
def opOf (name : String) : Option (BitVec 8) :=
  if name = "ieee802-dot1q-sched:set-gate-states" then some 0
  else if name = "ieee802-dot1q-sched:set-and-hold-mac" then some 1
  else if name = "ieee802-dot1q-sched:set-and-release-mac" then some 2
  else none

/-- The row with one field changed. -/
def ModChange.Sets (c : ModChange) (old new : StGateControlEntry) : Prop :=
  match c.leaf with
  | .operationName => ∃ op ∈ opOf c.data.stringVal, new = { old with op }
  | .gateStatesValue => new = { old with gsv := c.data.uint8Val }
  | .timeIntervalValue => new = { old with interval := c.data.uint32Val }

/-- What the length of the interface is changed from, or else the configured one. -/
def ModChange.oldLength (c : ModChange) (lengthChanges : List LengthChange) : Option (BitVec 32) :=
  match lengthChanges.find? fun l => l.interface = c.interface ∧ l.old ≠ none with
  | some l => l.old
  | none => c.length

/-- The lesser of the old length, where there is one, and the driver's. -/
def ModChange.lesserLength (c : ModChange) (lengthChanges : List LengthChange) (driverLength : BitVec 32) : Nat :=
  match c.oldLength lengthChanges with
  | some old => min old.toNat driverLength.toNat
  | none => driverLength.toNat

/-- As many rows as the lesser length are read, and written back with one field
of one row changed; or an error is returned, and nothing is written. -/
def Handled.Ok (lengthChanges : List LengthChange) (h : Handled) : Prop :=
  if h.change.op = .modified then
    (∀ gcl ∈ h.read, ∃ d ∈ h.change.driverLength, gcl.length = h.change.lesserLength lengthChanges d) ∧
      match h.written with
      | some gcl' =>
        ∃ gcl ∈ h.read, ∃ index ∈ h.change.index, ∃ old new,
          gcl[index.toNat]? = some old ∧ h.change.Sets old new ∧ gcl' = gcl.set index.toNat new
      | none => h.failed = true
  else h.read = none ∧ h.written = none

/-- Changes are looked at in this call. -/
def ModCall.acts (call : ModCall) : Bool := call.event ≠ .done && call.pluginInit

/-- `acl_pair` is not left, every change that is handled is handled well, and all
are handled unless an error is returned. -/
def ModCall.EndsWell (call : ModCall) : ModEnd → Prop
  | .overrun => False
  | .returned rc s =>
    (∀ h ∈ s.log, h.Ok call.lengthChanges ∧ (h.failed = true → rc ≠ .ok)) ∧
      (call.acts = true → rc = .ok → s.log.map (·.change) = call.changes)

def SchedModOk (call : ModCall) : Prop := call.EndsWell (interfaceSchedAclModCb call)

/-! ## When it does that -/

/-- The old lengths up to the first change that has none. -/
def lengthPairs : List LengthChange → List LengthPair
  | [] => []
  | c :: cs =>
    match c.old, c.interface with
    | some old, some interfaceName => ⟨interfaceName, old⟩ :: lengthPairs cs
    | _, _ => []

/-- No key is missing up to there. -/
def keysFound : List LengthChange → Bool
  | [] => true
  | c :: cs =>
    match c.old, c.interface with
    | none, _ => true
    | some _, none => false
    | some _, some _ => keysFound cs

/-- What is known of a change when the list is about to be read: the entry, and
the lengths of the driver and of the edit. -/
structure Lengths where
  index : BitVec 32
  driver : BitVec 32
  used : BitVec 32

/-- The greater of the two. -/
def Lengths.taken (l : Lengths) : BitVec 32 := if l.driver < l.used then l.used else l.driver

/-- No length of the edit where none was changed, the old one of the interface
that was changed first, and the configured one of the others. -/
def ModChange.usedLength (c : ModChange) (pairs : List LengthPair) (interfaceName : String) : Option (BitVec 32) :=
  match pairs with
  | [] => some 0
  | p :: _ => if interfaceName = p.key then some p.val else c.length

def ModChange.lengths (c : ModChange) (pairs : List LengthPair) : Option Lengths :=
  match c.interface, c.index, c.driverLength with
  | some interfaceName, some index, some driver =>
    if c.opens && c.feat then (c.usedLength pairs interfaceName).map fun used => ⟨index, driver, used⟩ else none
  | _, _, _ => none

/-- The value has a meaning that the port supports. -/
def ModChange.Accepted (c : ModChange) : Prop :=
  match c.leaf with
  | .operationName => opOf c.data.stringVal ≠ none
  | .gateStatesValue => True
  | .timeIntervalValue => ∃ g ∈ c.granularity, c.data.uint32Val.toNat % (g.1.toNat / 10) = 0

/-- The callback goes on behind the change. -/
def ModChange.Passes (c : ModChange) (pairs : List LengthPair) : Prop :=
  c.interface ≠ none ∧
    (c.op = .modified → ∃ l ∈ c.lengths pairs, l.taken ≠ 0 →
      c.mallocOk = true ∧ c.rows ≠ none ∧ (l.index < l.taken → c.Accepted ∧ c.setOk = true))

/-- There is a length, and if the list is read it is the driver's that is the
greater of the two that are looked at, is not greater than the old one, and has
the entry. -/
def ModChange.Fits (c : ModChange) (lengthChanges : List LengthChange) : Prop :=
  c.op = .modified → ∀ l ∈ c.lengths (lengthPairs lengthChanges), l.taken ≠ 0 ∧
    (c.mallocOk = true → c.rows ≠ none →
      l.used ≤ l.driver ∧ (∀ old ∈ c.oldLength lengthChanges, l.driver ≤ old) ∧ l.index < l.driver)

end TsnSwitch.Sysrepo.Acl
