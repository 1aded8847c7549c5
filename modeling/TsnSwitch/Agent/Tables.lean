/-
The tables of the SNMP agent for MST instances, bridge VLANs and bridge ports.

A load first goes over the rows of the table, which it drops or refreshes, and
then over the entries the system names, for which it adds the rows that are
missing. The three loads differ in what a row is filled with and in how it is
refreshed. What the system answers is a parameter.
-/
import TsnSwitch.Lib.CString

namespace TsnSwitch.Agent

open Lib

def MAX_NUM_OF_INTERFACES : Nat := 30

/-! ## Rows -/

/-- The index of a row: the component and the number within it. -/
abbrev Key := Nat × Nat

instance lawfulBEqKey : LawfulBEq Key := inferInstance

structure Entry (V : Type) where
  componentId : Nat
  index : Nat
  values : V

def Entry.key {V : Type} (e : Entry V) : Key := (e.componentId, e.index)

/-- The rows of a table in the order in which they are visited. A row is its
data, which may be NULL. -/
abbrev Rows (V : Type) := List (Option (Entry V))

def keys {V : Type} (rows : Rows V) : List Key := rows.filterMap fun row => row.map Entry.key

/-- A table has one row for an index. -/
structure Tdata (V : Type) where
  rows : Rows V
  unique : (keys rows).Nodup

/-! ## Loading -/

/-- What the load of one table does with a row and with a name. -/
structure Source (V : Type) where
  /-- The index of a named entry, and none where the load returns an error. -/
  locate : String → Option Key
  /-- The values of a new row. -/
  create : String → Key → V
  refresh : Key → V → V
  /-- A row can be allocated. Where it cannot the load follows a NULL pointer. -/
  alloc : Key → Bool

section Load

variable {V : Type}

/-- The loop over the rows of the table. A row without data is looked at again
and again. -/
def refreshLoop (src : Source V) : Nat → Rows V → Option (Rows V)
  | 0, _ => none
  | _ + 1, [] => some []
  | fuel + 1, none :: rows => refreshLoop src fuel (none :: rows)
  | fuel + 1, some e :: rows =>
    (refreshLoop src fuel rows).map fun rows =>
      -- there is no more agent_row, erase it from agent
      if e.componentId = 0 ∨ e.index = 0 then rows
      else some { e with values := src.refresh e.key e.values } :: rows

/-- The loop over the names the system gave, up to the first empty one. -/
def addLoop (src : Source V) : Nat → List String → Rows V → Option (Int × Rows V)
  | 0, _, rows => some (0, rows)
  | _ + 1, [], rows => some (0, rows)
  | i + 1, name :: names, rows =>
    if name = "" then some (0, rows)
    else
      match src.locate name with
      | none => some (1, rows)
      | some key =>
        if key ∈ keys rows then addLoop src i names rows
        else if src.alloc key then addLoop src i names (rows ++ [some ⟨key.1, key.2, src.create name key⟩])
        else none

def load (src : Source V) (fuel : Nat) (names : List String) (rows : Rows V) : Option (Int × Rows V) :=
  (refreshLoop src fuel rows).bind (addLoop src MAX_NUM_OF_INTERFACES names)

/-- The steps of a fillEntry function, up to the first that fails. -/
def fill : List (V → Option V) → V → Int × V
  | [], v => (0, v)
  | f :: fs, v =>
    match f v with
    | none => (1, v)
    | some v => fill fs v

end Load

/-! ## Numbers -/

def cLong (s : String) : Int := (strtol (s.toList ++ [NUL])).getD 0

def strtoul (s : String) : Nat := (cLong s % 2 ^ 64).toNat

def bridgeOf (names : List String) : String := names.headD ""

/-! ## MST instances -/

structure MstpValues where
  bridgeId : String := ""
  timeSinceTopologyChange : Nat := 0
  topologyChanges : Nat := 0
  designatedRoot : String := ""
  rootPathCost : Int := 0
  rootPort : Nat := 0
  bridgePriority : Int := 0
  deriving DecidableEq

/-- What mstpctl answers. `mstpIds` are all the instances of the bridge. -/
structure MstpSystem where
  bridgesName : Option (List String)
  mstpIds : String → Option (List String)
  named : ∀ bridge ids, mstpIds bridge = some ids → ∀ id ∈ ids, id ≠ ""
  bridgeId : String → String → Option String
  timeSinceTopChange : String → String → Option String
  topChanges : String → String → Option String
  designatedRoot : String → Option String
  rootPathCost : String → String → Option String
  rootPort : String → String → Option String
  bridgePriority : String → String → Option String

def MstpSystem.bridge (sys : MstpSystem) : String := bridgeOf (sys.bridgesName.getD [])

/-- The instance as it is printed into a buffer of `BASE_FIVE` characters. -/
def tmpMstpId (mstpId : Nat) : String := String.ofList ((Nat.toDigits 10 mstpId).take 4)

def ieee8021MstpTableFillEntry (sys : MstpSystem) (bridgeName : String) (mstpId : Nat) : MstpValues → Int × MstpValues :=
  let id := tmpMstpId mstpId
  fill [
    fun v => (sys.bridgeId bridgeName id).map fun r => { v with bridgeId := r },
    fun v => (sys.timeSinceTopChange bridgeName id).map fun r => { v with timeSinceTopologyChange := strtoul r },
    fun v => (sys.topChanges bridgeName id).map fun r => { v with topologyChanges := strtoul r },
    fun v => (sys.designatedRoot bridgeName).map fun r => { v with designatedRoot := r },
    fun v => (sys.rootPathCost bridgeName id).map fun r => { v with rootPathCost := cLong r },
    fun v => (sys.rootPort bridgeName id).map fun r => { v with rootPort := strtoul r },
    fun v => (sys.bridgePriority bridgeName id).map fun r => { v with bridgePriority := cLong r }]

def ieee8021MstpSource (sys : MstpSystem) (alloc : Key → Bool) : Source MstpValues where
  locate name := some (1, strtoul name)
  create _ key := (ieee8021MstpTableFillEntry sys sys.bridge key.2 {}).2
  refresh key v := (ieee8021MstpTableFillEntry sys sys.bridge key.2 v).2
  alloc

/-- The array for the instances has `MAX_NUM_OF_INTERFACES` rows. -/
def ieee8021MstpTableLoad (sys : MstpSystem) (alloc : Key → Bool) (fuel : Nat) (rows : Rows MstpValues) :
    Option (Int × Rows MstpValues) :=
  match sys.bridgesName with
  | none => some (1, rows)
  | some bridges =>
    match sys.mstpIds (bridgeOf bridges) with
    | none => some (1, rows)
    | some ids => load (ieee8021MstpSource sys alloc) fuel (ids.take MAX_NUM_OF_INTERFACES) rows

/-! ## Bridge VLANs -/

structure VlanValues where
  name : String := ""
  egressPorts : String := ""
  untaggedPorts : String := ""
  deriving DecidableEq

/-- What the bridge answers. The array for the VLAN ids is not cleared before
they are read into it, and `rest` is what it holds behind them. -/
structure VlanSystem where
  bridgeNames : Option (List String)
  vids : Option (List String)
  named : ∀ ids, vids = some ids → ∀ id ∈ ids, id ≠ ""
  rest : List String
  portNames : Option (List String)
  egress : String → String → Bool
  untagged : String → String → Bool

def VlanSystem.bridge (sys : VlanSystem) : String := bridgeOf (sys.bridgeNames.getD [])

/-- The rows of an array that a loop over it reads. -/
def visible (names : List String) : List String := (names.take MAX_NUM_OF_INTERFACES).takeWhile fun name => name ≠ ""

/-- The last port decides what is written. -/
def portBits (isMember : String → Bool) (ports : List String) (old : String) : String :=
  (visible ports).foldl (fun _ port => if isMember port then "1" else "0") old

def ieee8021QBridgeVlanStaticTableFillEntry (sys : VlanSystem) (bridgeName : String) (vlanIndex : Nat) :
    VlanValues → Int × VlanValues :=
  let vid := toString vlanIndex
  fill [
    fun v => some { v with name := bridgeName },
    fun v => sys.portNames.map fun ports =>
      { v with
        egressPorts := portBits (fun port => sys.egress port vid) ports v.egressPorts
        untaggedPorts := portBits (fun port => sys.untagged port vid) ports v.untaggedPorts }]

def ieee8021QBridgeVlanStaticSource (sys : VlanSystem) (alloc : Key → Bool) : Source VlanValues where
  locate name := some (1, strtoul name)
  create _ key := (ieee8021QBridgeVlanStaticTableFillEntry sys sys.bridge key.2 {}).2
  refresh key v := (ieee8021QBridgeVlanStaticTableFillEntry sys sys.bridge key.2 v).2
  alloc

def ieee8021QBridgeVlanStaticTableLoad (sys : VlanSystem) (alloc : Key → Bool) (fuel : Nat) (rows : Rows VlanValues) :
    Option (Int × Rows VlanValues) :=
  if sys.bridgeNames.isNone then some (1, rows)
  else
    match sys.vids with
    | none => some (1, rows)
    | some vids => load (ieee8021QBridgeVlanStaticSource sys alloc) fuel (vids ++ sys.rest) rows

/-! ## Bridge ports -/

structure PortValues where
  ifIndex : Int := 0
  name : String := ""
  adminPointToPoint : Int := 0
  operPointToPoint : Int := 0
  portType : Int := 0
  deriving DecidableEq

/-- What the bridge and the ports answer. `portId` has none where the port cannot
be opened or its id not be read, and no two ports have the same. -/
structure PortSystem where
  bridgesName : Option (List String)
  portsName : Option (List String)
  named : ∀ names, portsName = some names → ∀ name ∈ names, name ≠ ""
  portId : String → Option (BitVec 32)
  distinct : ∀ name name', portId name ≠ none → portId name = portId name' → name = name'
  /-- The name of the port that has an interface index. -/
  openByIndex : BitVec 32 → Option String
  ifIndex : String → Option String
  adminPointToPoint : String → String → Option String
  macEnabled : String → String → Option String
  portType : String → Option Int

def PortSystem.bridge (sys : PortSystem) : String := bridgeOf (sys.bridgesName.getD [])

/-- `p2p_map`, and the number of what it gives. An empty text is passed on. -/
def pointToPoint (value : String) : Option Int :=
  match value with
  | "" => some 0
  | "yes" => some 1
  | "no" => some 2
  | "auto" => some 3
  | _ => none

def ieee8021BridgeBasePortTableFillEntry (sys : PortSystem) (bridgeName portName : String) :
    PortValues → Int × PortValues :=
  fill [
    fun v => some { v with ifIndex := ((sys.ifIndex portName).map cLong).getD v.ifIndex },
    fun v => some { v with name := portName },
    fun v => some { v with
      adminPointToPoint := ((sys.adminPointToPoint bridgeName portName).bind pointToPoint).getD v.adminPointToPoint },
    fun v => some { v with
      operPointToPoint := ((sys.macEnabled bridgeName portName).bind pointToPoint).getD v.operPointToPoint },
    fun v => (sys.portType portName).map fun r => { v with portType := r }]

def PortSystem.key (sys : PortSystem) (name : String) : Option Key := (sys.portId name).map fun id => (1, (id + 1).toNat)

def ieee8021BridgeBasePortSource (sys : PortSystem) (alloc : Key → Bool) : Source PortValues where
  locate := sys.key
  create name _ := (ieee8021BridgeBasePortTableFillEntry sys sys.bridge name {}).2
  refresh _ v :=
    match sys.openByIndex (BitVec.ofInt 32 v.ifIndex) with
    | none => v
    | some name => (ieee8021BridgeBasePortTableFillEntry sys sys.bridge name v).2
  alloc

def ieee8021BridgeBasePortTableLoad (sys : PortSystem) (alloc : Key → Bool) (fuel : Nat) (rows : Rows PortValues) :
    Option (Int × Rows PortValues) :=
  if sys.bridgesName.isNone then some (1, rows)
  else
    match sys.portsName with
    | none => some (1, rows)
    | some names => load (ieee8021BridgeBasePortSource sys alloc) fuel (names.take MAX_NUM_OF_INTERFACES) rows

end TsnSwitch.Agent
