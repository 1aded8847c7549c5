/-
The callbacks for the admin control lists of the two plugins (sched.c and
stream_filter_gates.c): the length of a list, and its entries.

The session holds the new content of the edited lists. The driver is what the
library's calls store. The changes of the leaves of an entry that stays go to
other callbacks.
-/
import TsnSwitch.Sysrepo.Transaction
import TsnSwitch.Lib.Scan

namespace TsnSwitch.Sysrepo.Acl

open Lib

/-! ## The driver behind the library's calls -/

/-- `struct st_gate_control_entry`. -/
structure StGateControlEntry where
  op : BitVec 8
  gsv : BitVec 8
  interval : BitVec 32
  deriving DecidableEq

/-- `struct psfp_gate_control_entry`. -/
structure PsfpGateControlEntry where
  op : BitVec 8
  gsv : BitVec 8
  interval : BitVec 32
  ipv : BitVec 8
  deriving DecidableEq

/-- A port, or a stream gate of a bridge. -/
structure Port (ε : Type) where
  /-- `tsn_port_open_by_name` finds it. -/
  opens : Bool
  /-- `tsn_is_feat_supported`. -/
  feat : Bool
  hwGranularityNs : Nat
  hwGranularityNs_pos : 0 < hwGranularityNs
  adminControlListLength : Nat
  adminControlList : Nat → ε

abbrev Driver (κ ε : Type) := κ → Port ε

namespace Port

variable {ε : Type}

/-- In tenths of a nanosecond. -/
def tickGranularity (p : Port ε) : Nat := 10 * p.hwGranularityNs

def setLength (p : Port ε) (length : Nat) : Port ε := { p with adminControlListLength := length }

def getList (p : Port ε) (entries : Nat) : List ε := (List.range entries).map p.adminControlList

/-- The rows behind the written ones stay. -/
def setList (p : Port ε) (gcl : List ε) : Port ε :=
  { p with adminControlList := fun i => (gcl[i]?).getD (p.adminControlList i) }

/-- The admin list that a change of configuration would take. -/
def list (p : Port ε) : List ε := p.getList p.adminControlListLength

/-- A row is set by writing all up to it. -/
def setEntry (p : Port ε) (index : Nat) (entry : ε) : Port ε :=
  p.setList ((if index ≠ 0 then p.getList index else []) ++ [entry])

/-- `validate_sched_configuration`, and the end of `psfp_gcl_validation`. -/
def complete (p : Port ε) : Bool := p.adminControlListLength != 0

end Port

/-! ## The datastore -/

def MAX_NUMBER_OF_ACL : Nat := 2047

/-- An entry of a list, with the leaves below its key. -/
structure AclEntry (α : Type) where
  index : BitVec 32
  leaves : α

/-- `sgs-params`, `shm-params` or `srm-params`. -/
structure GateParams where
  gateStatesValue : Option (BitVec 8)
  timeIntervalValue : Option (BitVec 32)

structure SchedLeaves where
  operationName : Option String
  sgsParams : GateParams
  shmParams : GateParams
  srmParams : GateParams

structure PsfpLeaves where
  operationName : Option String
  gateStateValue : Option String
  timeIntervalValue : Option (BitVec 32)
  ipvSpec : Option String

/-- A list that is edited, before (`old`) and in the session. `sr_get_items`
gives the entries in the order of their indices. -/
structure EditedList (κ α : Type) where
  name : κ
  old : List (AclEntry α)
  entries : List (AclEntry α)
  configChange : Option Bool
  sorted : entries.Pairwise fun a b => a.index < b.index
  fits : entries.length < 2 ^ 31
  /-- The leaves of an entry that stays are not what these callbacks are called for. -/
  kept : ∀ e ∈ entries, ∀ o ∈ old, e.index = o.index → e = o

def indices {α : Type} (entries : List (AclEntry α)) : List (BitVec 32) := entries.map (·.index)

/-- The entry that an xpath with `[index='…']` names. -/
def lookup {α : Type} (entries : List (AclEntry α)) (index : BitVec 32) : Option α :=
  (entries.find? fun e => e.index = index).map (·.leaves)

structure SchedList extends EditedList String SchedLeaves where
  oldLength : Option (BitVec 32)
  length : Option (BitVec 32)

/-- The change of admin-control-list-length, if there is one, with the value of
its node. -/
def SchedList.lengthChange (l : SchedList) : Option (ChangeOp × BitVec 32) :=
  match l.oldLength, l.length with
  | none, none => none
  | none, some new => some (.created, new)
  | some old, none => some (.deleted, old)
  | some old, some new => if old = new then none else some (.modified, new)

/-- A bridge and a gate of it. -/
abbrev GateId := String × BitVec 32

abbrev GateList := EditedList GateId PsfpLeaves

/-- A change of an index leaf. -/
structure EntryChange (l : Type) where
  list : l
  op : ChangeOp
  index : BitVec 32

/-! ## Translations -/

/-- `translate_single_string_using_map`. An empty text is passed on. -/
def translateSingleStringUsingMap (value : String) (map : List (String × String)) : Option String :=
  if value = "" then some value else (map.find? fun pair => pair.1 = value).map (·.2)

/-- `find_obj_index_by_name`. A name that is not found has the first index. -/
def findObjIndexByName (objectName : String) (map : List String) : Nat := (map.findIdx? (· = objectName)).getD 0

/-- An index other than the first is that of the name. -/
theorem findObjIndexByName_iff {name : String} {i : Nat} {map : List String} (hi : i ≠ 0)
    (hname : map[i]? = some name) (hfirst : findObjIndexByName name map = i) (leaf : String) :
    findObjIndexByName leaf map = i ↔ leaf = name := by
  refine ⟨fun h => ?_, fun h => h ▸ hfirst⟩
  rw [findObjIndexByName] at h
  cases hfound : map.findIdx? (· = leaf) with
  | none =>
    rw [hfound] at h
    exact absurd h.symm hi
  | some j =>
    rw [hfound, Option.getD_some] at h
    subst h
    obtain ⟨hlt, heq, -⟩ := List.findIdx?_eq_some_iff_getElem.1 hfound
    rw [List.getElem?_eq_getElem hlt, Option.some.injEq] at hname
    rw [← hname]
    exact (of_decide_eq_true heq).symm

def schedGclMap : List (String × String) :=
  [("ieee802-dot1q-sched:set-gate-states", "sgs-params"), ("ieee802-dot1q-sched:set-and-hold-mac", "shm-params"),
    ("ieee802-dot1q-sched:set-and-release-mac", "srm-params")]

def schedOpNameMap : List (String × String) :=
  [("ieee802-dot1q-sched:set-gate-states", "0"), ("ieee802-dot1q-sched:set-and-hold-mac", "1"),
    ("ieee802-dot1q-sched:set-and-release-mac", "2")]

def psfpAgsReverseMap : List (String × String) := [("closed", "0"), ("open", "1")]

def sfgIpvSpecReverseMap : List (String × String) :=
  [("zero", "0"), ("one", "1"), ("two", "2"), ("three", "3"), ("four", "4"), ("five", "5"), ("six", "6"),
    ("seven", "7"), ("null", "-1")]

/-- `(uint8_t)strtoul(s, NULL, 10)`. -/
def octet (s : String) : BitVec 8 := (strtoulEnd 10 s.toList).1.setWidth 8

def TSN_PSFP_GT_OP_SET_GATE_AND_IPV : BitVec 8 := 0

/-! ## Reading an entry -/

/-- How reading an entry ends: with `ret` set, with a `break` that leaves `ret`
at 0, or with the row for the driver. -/
inductive Read (ε : Type) where
  | failed
  | skipped
  | row (entry : ε)

def SchedLeaves.params (leaves : SchedLeaves) (container : String) : GateParams :=
  if container = "sgs-params" then leaves.sgsParams
  else if container = "shm-params" then leaves.shmParams
  else if container = "srm-params" then leaves.srmParams
  else ⟨none, none⟩

def SchedLeaves.read (leaves : SchedLeaves) (granularity : Nat) : Read StGateControlEntry :=
  match leaves.operationName with
  | none => .failed
  | some name =>
    match translateSingleStringUsingMap name schedOpNameMap, translateSingleStringUsingMap name schedGclMap with
    | some opName, some container =>
      match (leaves.params container).gateStatesValue, (leaves.params container).timeIntervalValue with
      | some gsv, some interval =>
        if interval.toNat % (granularity / 10) ≠ 0 then .failed else .row ⟨octet opName, gsv, interval⟩
      | _, _ => .failed
    | _, _ => .failed

/-- Only what cannot be got, and a wrong interval, is an error. -/
def PsfpLeaves.read (leaves : PsfpLeaves) (granularity : Nat) : Read PsfpGateControlEntry :=
  match leaves.operationName with
  | none => .failed
  | some name =>
    if name ≠ "ieee802-dot1q-psfp:set-gate-and-ipv" then .skipped
    else
      match leaves.gateStateValue with
      | none => .failed
      | some gateState =>
        match translateSingleStringUsingMap gateState psfpAgsReverseMap with
        | none => .skipped
        | some gsv =>
          match leaves.timeIntervalValue with
          | none => .failed
          | some interval =>
            if interval.toNat % (granularity / 10) ≠ 0 then .failed
            else
              match leaves.ipvSpec with
              | none => .failed
              | some ipvSpec =>
                match translateSingleStringUsingMap ipvSpec sfgIpvSpecReverseMap with
                | none => .skipped
                | some ipv => .row ⟨TSN_PSFP_GT_OP_SET_GATE_AND_IPV, octet gsv, interval, octet ipv⟩

/-! ## The callbacks -/

/-- `sr_event_t`. -/
inductive SrEvent where
  | update
  | change
  | done
  | abort
  | enabled
  deriving DecidableEq

/-- How a callback ends. -/
inductive Ended (κ ε : Type) where
  | returned (rc : SrError) (driver : Driver κ ε)
  /-- The buffer of an earlier entry is freed once more. -/
  | doubleFree

/-- What is kept from one change to the next: the driver, and the variables that
a turn of the loop does not set. -/
structure Locals (κ ε : Type) where
  driver : Driver κ ε
  numAcl : Nat := 0
  validGclLen : Nat := 0
  /-- `gcl` is not NULL, and what it points to is freed. -/
  gcl : Bool := false

section

variable {κ ε α : Type} [DecidableEq κ]

def failed (driver : Driver κ ε) : Except (Ended κ ε) (Locals κ ε) := .error (.returned .operationFailed driver)

/-- Out of the turn with `ret` at 0. -/
def leaveTurn (s : Locals κ ε) : Except (Ended κ ε) (Locals κ ε) := if s.gcl then .error .doubleFree else .ok s

/-- The check of the indices: is it met, the list is counted as valid once its
last index is seen. -/
def scanIndices (gclLen : Nat) : BitVec 32 → Nat → List (BitVec 32) → Option Nat
  | _, validGclLen, [] => some validGclLen
  | oldSchedIndex, validGclLen, index :: rest =>
    if 1 < index - oldSchedIndex then none
    else if gclLen = (index + 1).toNat then some (validGclLen + 1)
    else scanIndices gclLen index validGclLen rest

/-- The block for a created entry, the same in both plugins. -/
def addEntry (read : α → Nat → Read ε) (s : Locals κ ε) (l : EditedList κ α) (gclLen : Nat) (op : ChangeOp)
    (index : BitVec 32) : Except (Ended κ ε) (Locals κ ε) :=
  if MAX_NUMBER_OF_ACL < gclLen then failed s.driver
  else if gclLen ≤ index.toNat then failed s.driver
  else
    let port := (s.driver l.name).setLength gclLen
    let driver := Function.update s.driver l.name port
    match l.configChange, lookup l.entries index with
    | some configChange, some leaves =>
      if configChange && !port.complete then failed driver
      else
        match read leaves port.tickGranularity with
        | .failed => failed driver
        | .skipped => leaveTurn { s with driver }
        | .row entry =>
          -- SR_OP_CREATED is 0, so that the length is not checked again
          if op.num &&& ChangeOp.created.num ≠ 0 ∧
              (port.adminControlListLength = 0 ∨ MAX_NUMBER_OF_ACL < port.adminControlListLength) then
            leaveTurn { s with driver }
          else .ok { s with driver := Function.update s.driver l.name (port.setEntry index.toNat entry), gcl := true }
    | _, _ => failed driver

/-- The end of a loop over changes. -/
def ended (r : Except (Ended κ ε) (Locals κ ε)) : Ended κ ε :=
  match r with
  | .ok s => .returned .ok s.driver
  | .error e => e

/-- All changes of a callback, unless there is nothing to do. -/
def callback {γ : Type} (event : SrEvent) (pluginInit : Bool) (driver : Driver κ ε)
    (turn : Locals κ ε → γ → Except (Ended κ ε) (Locals κ ε)) (changes : List γ) : Ended κ ε :=
  if event = .done ∨ pluginInit = false then .returned .ok driver else ended (changes.foldlM turn { driver })

end

/-! ### Interfaces -/

abbrev SchedDriver := Driver String StGateControlEntry
abbrev SchedLocals := Locals String StGateControlEntry

def interfaceSchedAclLengthTurn (event : SrEvent) (s : SchedLocals) (c : SchedList × ChangeOp × BitVec 32) :
    Except (Ended String StGateControlEntry) SchedLocals :=
  let l := c.1
  let gclLen := c.2.2
  let port := s.driver l.name
  if c.2.1 = .modified ∨ c.2.1 = .created then
    if gclLen.toNat ≠ (if event = .abort then gclLen.toNat else s.numAcl + l.entries.length) then failed s.driver
    else
      match scanIndices gclLen.toNat 0 s.validGclLen (indices l.entries) with
      | none => failed s.driver
      | some validGclLen =>
        if port.opens = false ∨ port.feat = false then failed s.driver
        else if validGclLen = 0 ∧ gclLen ≠ 0 then failed s.driver
        else
          .ok { s with driver := Function.update s.driver l.name (port.setLength gclLen.toNat), numAcl := 0, validGclLen }
  else if c.2.1 = .deleted then failed s.driver
  else .ok s

def lengthChanges (lists : List SchedList) : List (SchedList × ChangeOp × BitVec 32) :=
  lists.filterMap fun l => l.lengthChange.map fun c => (l, c)

def interfaceSchedAclLengthCb (event : SrEvent) (pluginInit : Bool) (driver : SchedDriver) (lists : List SchedList) :
    Ended String StGateControlEntry :=
  callback event pluginInit driver (interfaceSchedAclLengthTurn event) (lengthChanges lists)

def interfaceSchedAclTurn (s : SchedLocals) (c : EntryChange SchedList) :
    Except (Ended String StGateControlEntry) SchedLocals :=
  let port := s.driver c.list.name
  match c.list.length with
  -- a `break`: the callback returns what sr_get_changes_iter did
  | none => .error (.returned .ok s.driver)
  | some gclLen =>
    if c.op = .created then
      if port.opens = false ∨ port.feat = false then failed s.driver
      else addEntry SchedLeaves.read s c.list.toEditedList gclLen.toNat c.op c.index
    else if c.op = .deleted then
      if gclLen.toNat ≠ s.numAcl + c.list.entries.length then failed s.driver else .ok { s with numAcl := 0 }
    else .ok s

def interfaceSchedAclCb (event : SrEvent) (pluginInit : Bool) (driver : SchedDriver)
    (changes : List (EntryChange SchedList)) : Ended String StGateControlEntry :=
  callback event pluginInit driver interfaceSchedAclTurn changes

/-- The callbacks of an edit, by their priority. One that fails ends it. -/
def editSched (driver : SchedDriver) (lists : List SchedList) (changes : List (EntryChange SchedList)) :
    Ended String StGateControlEntry :=
  match interfaceSchedAclLengthCb .change true driver lists with
  | .returned .ok driver => interfaceSchedAclCb .change true driver changes
  | e => e

/-! ### Stream gates -/

abbrev PsfpDriver := Driver GateId PsfpGateControlEntry
abbrev PsfpLocals := Locals GateId PsfpGateControlEntry

def psfpAclTurn (s : PsfpLocals) (c : EntryChange GateList) :
    Except (Ended GateId PsfpGateControlEntry) PsfpLocals :=
  let l := c.list
  let port := s.driver l.name
  let gclLen := s.numAcl + l.entries.length
  if port.opens = false then failed s.driver
  else
    match scanIndices gclLen 0 s.validGclLen (indices l.entries) with
    | none => failed s.driver
    | some validGclLen =>
      if validGclLen = 0 ∧ gclLen ≠ 0 then failed s.driver
      else
        let driver := Function.update s.driver l.name (port.setLength gclLen)
        let s := { s with driver, numAcl := 0, validGclLen := 0 }
        if c.op = .created then addEntry PsfpLeaves.read s l gclLen c.op c.index else .ok s

def psfpAclCb (event : SrEvent) (pluginInit : Bool) (driver : PsfpDriver) (changes : List (EntryChange GateList)) :
    Ended GateId PsfpGateControlEntry :=
  callback event pluginInit driver psfpAclTurn changes

end TsnSwitch.Sysrepo.Acl
