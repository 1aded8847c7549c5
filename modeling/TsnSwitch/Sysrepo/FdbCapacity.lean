/-
Is there room for the filtering entries of an edit, and does the port have
their VLANs? (`bridge_filtering_entry_port_map_cb` in
ieee802-dot1q-bridge-yang-module.c)

An entry is looked up on the board with its list of VIDs in the place of the
address, and every entry of the candidate counts for itself. The VIDs of a
created entry are written to rows of five characters and read from rows of
ten, so that every second one is not compared with those of the port
(`filterOk_iff`).
-/
import TsnSwitch.Lib.Strides
import TsnSwitch.Sysrepo.VlanCapacity
import TsnSwitch.Tools.FdbLookup

namespace TsnSwitch.Sysrepo.FilterEntry

open Base Tools Lib
open Acl (SrEvent)

def BASE_ONE_STR : String := "1"
def Q_BRIDGE_FILTER : String := "filter"
def Q_BRIDGE_FORWARD_FILTER : String := "forward-filter"

/-- The errors of the callback, and that it leaves its objects. -/
inductive FilterError where
  | getChangesIter
  | keyValue
  | portNotOpen
  | portName
  | descendingVids
  | invalidVid
  | remFiltEntry
  | missingElement
  | databaseId
  | entryType
  | controlElement
  | getItems
  | tooManyEntries
  | getPortVlans
  | noPvid
  | addFiltEntry
  | fault
  deriving DecidableEq

/-- `filtering_entry_t`: what is found for a created port map. -/
structure Leaves where
  databaseId : Option (BitVec 32)
  address : Option (List Char)
  vids : Option (List Char)
  entryType : Option String
  bridgeName : Option String
  controlElement : Option String

/-- A change, with its keys. -/
structure MapChange where
  isPortRef : Bool
  op : ChangeOp
  bridgeName : Option String
  databaseId : Option String
  vids : Option (List Char)
  address : Option (List Char)
  portRef : Option Nat
  leaves : Leaves

/-- An item of the filtering database, and whether its path has a filtering
entry and its VIDs. -/
structure DbItem where
  isVids : Bool
  stringVal : List Char

structure BridgeAttr where
  fdbSize : BitVec 32
  fdbStaticEntries : BitVec 32

/-- What the library and the tools answer. -/
structure FilterSystem where
  opens : String → Bool
  portName : String → Nat → Option (List Char)
  filteringDatabase : String → Option (List DbItem)
  bridgeAttr : String → Option BridgeAttr
  fdbShow : Option (List Char)
  vlanShow : List Char → Option (List Char)
  addFiltEntry : List Char → List Char → List Char → Bool
  remFiltEntry : List Char → List Char → List Char → Bool

/-! ## The callback -/

def checkVids (vids : List Char) : Except FilterError Unit :=
  match doesVidsStringContainsDescendingInterval (some vids) with
  | .error _ => .error .fault
  | .ok descending =>
    if descending ≠ EXIT_SUCCESS then .error .descendingVids
    else
      match doesVidsStringContainsInvalidVid (some vids) with
      | .error _ => .error .fault
      | .ok invalid => if invalid ≠ EXIT_SUCCESS then .error .invalidVid else .ok ()

/-- The address and the VIDs of a created port map. -/
def fillFilteringEntry (leaves : Leaves) : Except FilterError (List Char × List Char) :=
  match leaves.databaseId with
  | none => .error .missingElement
  | some databaseId =>
    -- Every number that begins with a one passes.
    if (decimal databaseId.toInt).take 1 ≠ BASE_ONE_STR.toList then .error .databaseId
    else
      match leaves.address, leaves.vids with
      | some address, some vids =>
        (checkVids vids).bind fun _ =>
          match leaves.entryType with
          | none => .error .missingElement
          | some entryType =>
            if entryType ≠ Q_BRIDGE_STATIC then .error .entryType
            else
              match leaves.bridgeName, leaves.controlElement with
              | some _, some controlElement =>
                if controlElement = Q_BRIDGE_FILTER ∨ controlElement = Q_BRIDGE_FORWARD_FILTER then
                  .error .controlElement
                else .ok (address, vids)
              | _, _ => .error .missingElement
      | _, _ => .error .missingElement

/-- Is a VID of an item not static on the board? The item's value stands in
the place of the address. -/
def isNew (fdbShow : Option (List Char)) (item : DbItem) (newVid : List Char) : Except FilterError Bool :=
  match doesStaticFdbEntryExist item.stringVal newVid fdbShow with
  | .error _ => .error .fault
  | .ok ret => .ok (ret == EXIT_FAILURE)

def countVids (fdbShow : Option (List Char)) (item : DbItem) :
    BitVec 32 → Base.Rows → Except FilterError (BitVec 32)
  | newFEntryCnt, [] => .ok newFEntryCnt
  | newFEntryCnt, newVid :: newVidsArray =>
    if newVid = [] then .ok newFEntryCnt
    else
      (isNew fdbShow item newVid).bind fun new =>
        countVids fdbShow item (if new then newFEntryCnt + 1 else newFEntryCnt) newVidsArray

def countItem (fdbShow : Option (List Char)) (newFEntryCnt : BitVec 32) (item : DbItem) :
    Except FilterError (BitVec 32) :=
  if item.isVids then
    match assembleVidsAsArray BASE_MAX_VID BASE_FIVE (some item.stringVal) with
    | .error _ => .error .fault
    | .ok newVidsArray => countVids fdbShow item newFEntryCnt newVidsArray
  else .ok newFEntryCnt

def checkFdbSize (sys : FilterSystem) (bridgeName : String) : Except FilterError Unit :=
  match sys.filteringDatabase bridgeName with
  | none => .error .getItems
  | some filteringDatabase =>
    (filteringDatabase.foldlM (countItem sys.fdbShow) 0).bind fun newFEntryCnt =>
      match sys.bridgeAttr bridgeName with
      | none => .ok ()
      | some attr =>
        if attr.fdbSize.slt (newFEntryCnt + attr.fdbStaticEntries) then .error .tooManyEntries else .ok ()

/-- The rows of `tmp_port_vlans` up to the first empty one. -/
def tmpPortVlans (rows : Base.Rows) : List (List Char) :=
  shownRows NUL BASE_TEN (storeRows NUL BASE_FIVE rows) BASE_MAX_VID

def checkPortVlans (sys : FilterSystem) (portName vids : List Char) : Except FilterError Unit :=
  match assembleVidsAsArray BASE_MAX_VID BASE_FIVE (some vids),
    getPortVlansByName vlansShape portName (sys.vlanShow portName) (zeros vlansShape) with
  | .error _, _ => .error .fault
  | _, .error _ => .error .fault
  | .ok rows, .ok (ret, portVlans) =>
    if ret = EXIT_FAILURE then .error .getPortVlans
    else if (tmpPortVlans rows).all fun vid => (portVlans.takeWhile (· ≠ [])).contains vid then .ok ()
    else .error .noPvid

/-- One turn of the loop over the changes. -/
def mapTurn (sys : FilterSystem) (checkDone : Bool) (change : MapChange) : Except FilterError Bool :=
  if change.isPortRef = true ∧ (change.op = .created ∨ change.op = .deleted) then
    match change.bridgeName, change.databaseId, change.vids, change.address, change.portRef with
    | some bridgeName, some _, some vids, some address, some portRef =>
      if !sys.opens bridgeName then .error .portNotOpen
      else
        match sys.portName bridgeName portRef with
        | none => .error .portName
        | some portName =>
          if change.op = .deleted then
            (checkVids vids).bind fun _ =>
              if sys.remFiltEntry portName address vids then .ok checkDone else .error .remFiltEntry
          else
            (fillFilteringEntry change.leaves).bind fun (address, vids) =>
              -- The room is looked at for the first created port map only.
              (if checkDone then .ok () else checkFdbSize sys bridgeName).bind fun _ =>
                (checkPortVlans sys portName vids).bind fun _ =>
                  if sys.addFiltEntry portName address vids then .ok true else .error .addFiltEntry
    | _, _, _, _, _ => .error .keyValue
  else .ok checkDone

def bridgeFilteringEntryPortMapCb (event : SrEvent) (pluginInit iterOk : Bool) (sys : FilterSystem)
    (changes : List MapChange) : Except FilterError Unit :=
  if event = .done || !pluginInit then .ok ()
  else if !iterOk then .error .getChangesIter
  else (changes.foldlM (mapTurn sys) false).map fun _ => ()

/-! ## What the callback is for -/

structure FilteringEntry where
  address : List Char
  vids : VidList

/-- What is found below the filtering database: the VIDs of an entry, or
something else. -/
inductive DbNode where
  | entry (e : FilteringEntry)
  | other (value : List Char)

def DbNode.item : DbNode → DbItem
  | entry e => ⟨true, e.vids.text⟩
  | other value => ⟨false, value⟩

def DbNode.entry? : DbNode → Option FilteringEntry
  | entry e => some e
  | other _ => none

/-- A port map that an edit creates or deletes. -/
structure PortMap where
  created : Bool
  entry : FilteringEntry
  portRef : Nat

/-- The leaves of a static entry that forwards. -/
def FilteringEntry.leaves (bridgeName : String) (e : FilteringEntry) : Leaves where
  databaseId := some 1
  address := some e.address
  vids := some e.vids.text
  entryType := some Q_BRIDGE_STATIC
  bridgeName := some bridgeName
  controlElement := some "forward"

def PortMap.change (bridgeName : String) (m : PortMap) : MapChange where
  isPortRef := true
  op := if m.created then .created else .deleted
  bridgeName := some bridgeName
  databaseId := some BASE_ONE_STR
  vids := some m.entry.vids.text
  address := some m.entry.address
  portRef := some m.portRef
  leaves := m.entry.leaves bridgeName

/-- The filtering database with an edit, in any order, and the port maps of
the edit. -/
structure Candidate where
  bridgeName : String
  nodes : List DbNode
  portMaps : List PortMap
  some_created : ∃ m ∈ portMaps, m.created = true
  listed : ∀ m ∈ portMaps, m.created = true → .entry m.entry ∈ nodes

def Candidate.entries (c : Candidate) : List FilteringEntry := c.nodes.filterMap DbNode.entry?

/-- The name of a port, not longer than a match case. -/
structure PortName where
  text : List Char
  ne_nil : text ≠ []
  fits : nameCase text = text

/-- A bridge: what `bridge fdb` prints, the size of its filtering database and
how many static entries that has, and the VLANs of its ports. -/
structure Board where
  fdb : List FdbEntry
  fdbSize : Nat
  staticEntries : Nat
  within : staticEntries ≤ fdbSize
  sized : fdbSize < 2 ^ 31
  portName : Nat → PortName
  report : (name : List Char) → VlanReport name
  plain : ∀ name, ∀ id ∈ (report name).ids, ∃ v, id = .vid v

namespace Board

def attr (b : Board) : BridgeAttr := ⟨BitVec.ofNat 32 b.fdbSize, BitVec.ofNat 32 b.staticEntries⟩

/-- The VLANs of a port. -/
def vids (b : Board) (portRef : Nat) : List Nat := (b.report (b.portName portRef).text).ids.flatMap VlanId.vids

/-- The tools do what they are asked for. -/
def system (b : Board) (c : Candidate) : FilterSystem where
  opens _ := true
  portName _ portRef := some (b.portName portRef).text
  filteringDatabase _ := some (c.nodes.map DbNode.item)
  bridgeAttr _ := some b.attr
  fdbShow := some (fdbOutput b.fdb)
  vlanShow name := some (vlanOutput (b.report name).rows)
  addFiltEntry _ _ _ := true
  remFiltEntry _ _ _ := true

end Board

/-- What an address is, however it is written. -/
def macOf (address : List Char) : List Char := (changeAddrDashesToColons address).map Char.toLower

/-- A pair of an address and a VID that is static on the board. -/
def Board.HasStatic (b : Board) (pair : List Char × Nat) : Prop :=
  ∃ f ∈ b.fdb, (∃ w ∈ f.state, w.text = Q_BRIDGE_STATIC.toList) ∧ macOf f.addr.text = pair.1 ∧ f.vid = pair.2

instance (b : Board) (pair : List Char × Nat) : Decidable (b.HasStatic pair) :=
  inferInstanceAs (Decidable (∃ f ∈ b.fdb, _ ∧ _ ∧ _))

def FilteringEntry.pairs (e : FilteringEntry) : List (List Char × Nat) := e.vids.vids.map fun v => (macOf e.address, v)

/-- The pairs of the candidate that are not yet static, each once. -/
def newPairs (b : Board) (c : Candidate) : Finset (List Char × Nat) :=
  (c.entries.flatMap FilteringEntry.pairs).toFinset.filter fun pair => ¬ b.HasStatic pair

def HasRoom (b : Board) (c : Candidate) : Prop := (newPairs b c).card + b.staticEntries ≤ b.fdbSize

/-- All VIDs of the created port maps are VLANs of their ports. -/
def OnPorts (b : Board) (c : Candidate) : Prop :=
  ∀ m ∈ c.portMaps, m.created = true → ∀ v ∈ m.entry.vids.vids, v ∈ b.vids m.portRef

/-- The callback with the change of an edit. -/
def answer (b : Board) (c : Candidate) : Except FilterError Unit :=
  bridgeFilteringEntryPortMapCb .change true true (b.system c) (c.portMaps.map (PortMap.change c.bridgeName))

/-- The callback accepts the edit exactly if there is room and all VIDs are
VLANs of the ports, and takes nothing that is static for new. -/
def FilterOk (b : Board) (c : Candidate) : Prop :=
  (answer b c = .ok () ↔ HasRoom b c ∧ OnPorts b c) ∧
    ∀ e ∈ c.entries, ∀ v ∈ e.vids.vids, b.HasStatic (macOf e.address, v) →
      isNew (b.system c).fdbShow (DbNode.entry e).item (Nat.toDigits 10 v) = .ok false

/-! ## What it does instead -/

/-- A static line of the board contains the list of VIDs and the digits of one. -/
def FilteringEntry.Shows (b : Board) (e : FilteringEntry) (v : Nat) : Prop := ∃ f ∈ b.fdb, f.Resembles e.vids.text v

instance (b : Board) (e : FilteringEntry) (v : Nat) : Decidable (e.Shows b v) :=
  inferInstanceAs (Decidable (∃ f ∈ b.fdb, _))

/-- How many VIDs of all entries do not show. -/
def unshown (b : Board) (c : Candidate) : Nat :=
  (c.entries.flatMap fun e => e.vids.vids.filter fun v => ¬ e.Shows b v).length

/-- The number is within the size, as integers of 32 bits. -/
def CountFits (b : Board) (c : Candidate) : Prop :=
  b.attr.fdbSize.slt (BitVec.ofNat 32 (unshown b c) + b.attr.fdbStaticEntries) = false

/-- Every second VID, from the first one on, is a VLAN of the port. -/
def PortMap.SecondsOnPort (b : Board) (m : PortMap) : Prop :=
  ∀ i v : Nat, m.entry.vids.vids[i * 2]? = some v → v ∈ b.vids m.portRef

/-- Where every second VID is on its port the others are as well, the numbers
are on the same side of the size, and what is static shows. -/
structure Told (b : Board) (c : Candidate) : Prop where
  others : CountFits b c → (∀ m ∈ c.portMaps, m.created = true → m.SecondsOnPort b) → OnPorts b c
  sameSide : OnPorts b c → (CountFits b c ↔ HasRoom b c)
  shown : ∀ e ∈ c.entries, ∀ v ∈ e.vids.vids, b.HasStatic (macOf e.address, v) → e.Shows b v

/-! ## Counting -/

theorem isNew_entry (fdb : List FdbEntry) (e : FilteringEntry) (v : Nat) :
    isNew (some (fdbOutput fdb)) (DbNode.entry e).item (Nat.toDigits 10 v) =
      .ok (decide ¬ ∃ f ∈ fdb, f.Resembles e.vids.text v) := by
  rw [isNew, DbNode.item, doesStaticFdbEntryExist_eq]
  by_cases h : ∃ f ∈ fdb, f.Resembles e.vids.text v
  · simp only [h, not_true_eq_false, decide_false]
    rfl
  · simp only [h, not_false_eq_true, decide_true]
    rfl

variable {b : Board} {c : Candidate}

theorem countVids_entry (e : FilteringEntry) (n : Nat) (vs : List Nat) :
    countVids (b.system c).fdbShow (DbNode.entry e).item (BitVec.ofNat 32 n) (numRows vs) =
      .ok (BitVec.ofNat 32 (n + (vs.filter fun v => ¬ e.Shows b v).length)) := by
  induction vs generalizing n with
  | nil => rfl
  | cons v vs ih =>
    have hnew : isNew (b.system c).fdbShow (DbNode.entry e).item (Nat.toDigits 10 v) = .ok (decide ¬ e.Shows b v) :=
      isNew_entry b.fdb e v
    rw [show numRows (v :: vs) = Nat.toDigits 10 v :: numRows vs from rfl, countVids, if_neg Nat.toDigits_ne_nil, hnew,
      Except.bind]
    by_cases h : e.Shows b v
    · rw [List.filter_cons_of_neg (by simpa using h), ← ih]
      simp only [h, not_true_eq_false, decide_false, Bool.false_eq_true, if_false]
    · rw [List.filter_cons_of_pos (by simpa using h), List.length_cons, ← Nat.add_assoc, Nat.add_right_comm, ← ih,
        BitVec.ofNat_add]
      simp only [h, not_false_eq_true, decide_true, if_true]
      rfl

/-- **What is counted is the VIDs that do not show, entry by entry.** -/
theorem foldlM_countItem (nodes : List DbNode) (n : Nat) :
    (nodes.map DbNode.item).foldlM (countItem (b.system c).fdbShow) (BitVec.ofNat 32 n) =
      .ok (BitVec.ofNat 32 (n +
        ((nodes.filterMap DbNode.entry?).flatMap fun e => e.vids.vids.filter fun v => ¬ e.Shows b v).length)) := by
  induction nodes generalizing n with
  | nil => rfl
  | cons node nodes ih =>
    rw [List.map_cons, List.foldlM_cons]
    cases node with
    | other value => exact ih n
    | entry e =>
      have hitem : countItem (b.system c).fdbShow (BitVec.ofNat 32 n) (DbNode.entry e).item =
          .ok (BitVec.ofNat 32 (n + (e.vids.vids.filter fun v => ¬ e.Shows b v).length)) := by
        have hassemble : assembleVidsAsArray BASE_MAX_VID BASE_FIVE (some (DbNode.entry e).item.stringVal) =
            .ok (numRows e.vids.vids) := e.vids.assemble_eq fiveWide
        rw [countItem, if_pos (show (DbNode.entry e).item.isVids = true from rfl), hassemble]
        exact countVids_entry e n e.vids.vids
      rw [hitem, List.filterMap_cons_some (show DbNode.entry? (.entry e) = some e from rfl), List.flatMap_cons,
        List.length_append, ← Nat.add_assoc]
      exact ih _

instance (b : Board) (c : Candidate) : Decidable (CountFits b c) := inferInstanceAs (Decidable (_ = false))

theorem checkFdbSize_eq (name : String) :
    checkFdbSize (b.system c) name = if CountFits b c then .ok () else .error .tooManyEntries := by
  have hcount := @foldlM_countItem b c c.nodes 0
  rw [Nat.zero_add] at hcount
  rw [checkFdbSize, show (b.system c).filteringDatabase name = some (c.nodes.map DbNode.item) from rfl]
  simp only [show (0 : BitVec 32) = BitVec.ofNat 32 0 from rfl, hcount, Except.bind,
    show (b.system c).bridgeAttr name = some b.attr from rfl]
  by_cases h : CountFits b c
  · rw [if_pos h]
    exact if_neg (Bool.eq_false_iff.1 h)
  · rw [if_neg h]
    exact if_pos (Bool.eq_true_of_not_eq_false h)

/-! ## Comparing -/

theorem mem_tmpPortVlans {l : VidList} {text : List Char} :
    text ∈ tmpPortVlans (numRows l.vids) ↔ ∃ i v : Nat, l.vids[i * 2]? = some v ∧ Nat.toDigits 10 v = text := by
  have hrow : ∀ t ∈ numRows l.vids, t.length < BASE_FIVE ∧ NUL ∉ t := by
    intro t ht
    obtain ⟨v, hv, rfl⟩ := List.mem_map.1 ht
    refine ⟨Nat.lt_succ_of_le (digits_of_small (l.mem_range hv).2), fun hnul => ?_⟩
    have := isDigit_toDigits v NUL hnul
    revert this
    decide
  have hlen : (numRows l.vids).length ≤ BASE_MAX_VID * 2 := by
    have := l.length_vids
    rw [length_numRows]
    omega
  have hwidth : BASE_TEN = 2 * BASE_FIVE := rfl
  rw [tmpPortVlans, hwidth, mem_shownRows hrow (numRows_ne_nil _) Nat.two_pos hlen]
  simp only [numRows, List.getElem?_map, Option.map_eq_some_iff]

/-- **Every second VID of a list is compared with the VLANs of the port.** -/
theorem checkPortVlans_iff (m : PortMap) :
    checkPortVlans (b.system c) (b.portName m.portRef).text m.entry.vids.text = .ok () ↔ m.SecondsOnPort b := by
  obtain ⟨port, hport⟩ : ∃ port, b.portName m.portRef = port := ⟨_, rfl⟩
  obtain ⟨vs, hvs⟩ := exists_vids (b.plain port.text)
  have hrows : (b.report port.text).ids.map VlanId.text = numRows vs := by
    rw [hvs, List.map_map]
    rfl
  have hlookup : getPortVlansByName vlansShape port.text ((b.system c).vlanShow port.text) (zeros vlansShape) =
      .ok (EXIT_SUCCESS, filled BASE_MAX_VID (numRows vs)) := by
    rw [← hrows]
    exact getPortVlansByName_eq port.ne_nil port.fits (b.report port.text) rfl (zeros vlansShape)
  have hassemble : assembleVidsAsArray BASE_MAX_VID BASE_FIVE (some m.entry.vids.text) =
      .ok (numRows m.entry.vids.vids) := m.entry.vids.assemble_eq fiveWide
  have hmem : ∀ v, Nat.toDigits 10 v ∈ numRows vs ↔ v ∈ b.vids m.portRef := by
    intro v
    rw [numRows, List.mem_map_of_injective fun _ _ h => toDigits_inj h, Board.vids, hport, hvs, flatMap_vids]
  have hall : ((tmpPortVlans (numRows m.entry.vids.vids)).all fun vid =>
      ((filled BASE_MAX_VID (numRows vs)).takeWhile (· ≠ [])).contains vid) = true ↔ m.SecondsOnPort b := by
    rw [takeWhile_filled (numRows_ne_nil vs), List.all_eq_true]
    simp only [List.contains_iff_mem, mem_tmpPortVlans]
    constructor
    · exact fun h i v hv => (hmem v).1 (h _ ⟨i, v, hv, rfl⟩)
    · rintro h - ⟨i, v, hv, rfl⟩
      exact (hmem v).2 (h i v hv)
  rw [hport, checkPortVlans, hassemble, hlookup, ← hall]
  simp only [show ¬ EXIT_SUCCESS = EXIT_FAILURE by decide, if_false]
  constructor
  · intro h
    by_contra hno
    rw [if_neg hno] at h
    cases h
  · exact fun h => if_pos h

/-! ## The turns -/

theorem checkVids_text (l : VidList) : checkVids l.text = .ok () := by
  rw [checkVids, l.not_descending, l.not_invalid]
  rfl

theorem fillFilteringEntry_leaves (name : String) (e : FilteringEntry) :
    fillFilteringEntry (e.leaves name) = .ok (e.address, e.vids.text) := by
  have hid : ¬ (decimal (1 : BitVec 32).toInt).take 1 ≠ BASE_ONE_STR.toList := by decide
  rw [fillFilteringEntry, FilteringEntry.leaves]
  simp only [if_neg hid, checkVids_text, Except.bind, ne_eq, not_true_eq_false, if_false]
  rfl

theorem mapTurn_deleted (name : String) (checkDone : Bool) {m : PortMap} (h : m.created = false) :
    mapTurn (b.system c) checkDone (m.change name) = .ok checkDone := by
  have hop : (m.change name).op = .deleted := by rw [PortMap.change, h]; rfl
  rw [mapTurn, if_pos ⟨rfl, .inr hop⟩]
  simp only [PortMap.change, h, Board.system, Bool.not_true, Bool.false_eq_true, if_false, if_true, checkVids_text,
    Except.bind]

theorem mapTurn_created (name : String) (checkDone : Bool) {m : PortMap} (h : m.created = true) :
    mapTurn (b.system c) checkDone (m.change name) =
      (if checkDone then .ok () else checkFdbSize (b.system c) name).bind fun _ =>
        (checkPortVlans (b.system c) (b.portName m.portRef).text m.entry.vids.text).map fun _ => true := by
  have hop : (m.change name).op = .created := by rw [PortMap.change, h]; rfl
  rw [mapTurn, if_pos ⟨rfl, .inl hop⟩]
  simp only [PortMap.change, h, if_true, reduceCtorEq, if_false, fillFilteringEntry_leaves, Except.bind]
  rfl

/-- What a created port map asks for: room, if it is the first one, and the
VLANs of its port. -/
def Passes (b : Board) (c : Candidate) (checkDone : Bool) (m : PortMap) : Prop :=
  (checkDone = false → CountFits b c) ∧ m.SecondsOnPort b

theorem mapTurn_cases (name : String) (checkDone : Bool) {m : PortMap} (h : m.created = true) :
    (mapTurn (b.system c) checkDone (m.change name) = .ok true ∧ Passes b c checkDone m) ∨
      ∃ e, mapTurn (b.system c) checkDone (m.change name) = .error e ∧ ¬ Passes b c checkDone m := by
  rw [mapTurn_created name checkDone h]
  have hroom : (if checkDone then .ok () else checkFdbSize (b.system c) name) =
      if checkDone = false → CountFits b c then .ok () else .error .tooManyEntries := by
    cases checkDone with
    | true => simp
    | false => simpa using checkFdbSize_eq name
  rw [hroom]
  by_cases hcount : checkDone = false → CountFits b c
  swap
  · rw [if_neg hcount]
    exact .inr ⟨_, rfl, fun hpass => hcount hpass.1⟩
  rw [if_pos hcount, Except.bind]
  have hports := @checkPortVlans_iff b c m
  cases hcheck : checkPortVlans (b.system c) (b.portName m.portRef).text m.entry.vids.text with
  | error e => exact .inr ⟨e, rfl, fun hpass => by have := hports.2 hpass.2; rw [hcheck] at this; cases this⟩
  | ok u => exact .inl ⟨rfl, hcount, hports.1 hcheck⟩

/-- **The loop comes through exactly if the room is there for the first
created port map and every second VID is on its port.** -/
theorem foldlM_mapTurn (name : String) (portMaps : List PortMap) (checkDone : Bool) :
    (∃ done, (portMaps.map (PortMap.change name)).foldlM (mapTurn (b.system c)) checkDone = .ok done) ↔
      (checkDone = false → (∃ m ∈ portMaps, m.created = true) → CountFits b c) ∧
        ∀ m ∈ portMaps, m.created = true → m.SecondsOnPort b := by
  induction portMaps generalizing checkDone with
  | nil =>
    refine iff_of_true ⟨checkDone, rfl⟩ ⟨fun _ h => ?_, fun _ h => absurd h List.not_mem_nil⟩
    obtain ⟨m, hm, -⟩ := h
    cases hm
  | cons m portMaps ih =>
    rw [List.map_cons, List.foldlM_cons]
    simp only [List.exists_mem_cons_iff, List.forall_mem_cons]
    by_cases hcreated : m.created = true
    · rcases @mapTurn_cases b c name checkDone m hcreated with ⟨hturn, hpass⟩ | ⟨e, hturn, hno⟩
      · rw [hturn]
        refine (ih true).trans ?_
        constructor
        · exact fun h => ⟨fun hd _ => hpass.1 hd, fun _ => hpass.2, h.2⟩
        · exact fun h => ⟨fun hd => absurd hd Bool.noConfusion, h.2.2⟩
      · rw [hturn]
        refine iff_of_false ?_ fun h => hno ⟨fun hd => h.1 hd (.inl hcreated), h.2.1 hcreated⟩
        rintro ⟨done, hdone⟩
        cases hdone
    · rw [mapTurn_deleted name checkDone (Bool.eq_false_iff.2 hcreated)]
      refine (ih checkDone).trans ?_
      simp only [hcreated, Bool.false_eq_true, false_or, false_implies, true_and]

/-- The callback, in terms of what it looks at. -/
theorem answer_iff : answer b c = .ok () ↔ CountFits b c ∧ ∀ m ∈ c.portMaps, m.created = true → m.SecondsOnPort b := by
  have hloop := @foldlM_mapTurn b c c.bridgeName c.portMaps false
  rw [answer, bridgeFilteringEntryPortMapCb, if_neg (by decide), if_neg (by decide)]
  simp only [true_implies, c.some_created] at hloop
  rw [← hloop]
  cases (c.portMaps.map (PortMap.change c.bridgeName)).foldlM (mapTurn (b.system c)) false with
  | error e => simp [Except.map]
  | ok done => simp [Except.map]

theorem OnPorts.seconds (h : OnPorts b c) : ∀ m ∈ c.portMaps, m.created = true → m.SecondsOnPort b :=
  fun m hm hcreated _ _ hv => h m hm hcreated _ (List.mem_of_getElem? hv)

/-- **The callback is right exactly if no other VIDs than those compared are
missing, what does not show is as good as what is new, and all that is static
shows.** -/
theorem filterOk_iff (b : Board) (c : Candidate) : FilterOk b c ↔ Told b c := by
  have hshown : (∀ e ∈ c.entries, ∀ v ∈ e.vids.vids, b.HasStatic (macOf e.address, v) →
      isNew (b.system c).fdbShow (DbNode.entry e).item (Nat.toDigits 10 v) = .ok false) ↔
        ∀ e ∈ c.entries, ∀ v ∈ e.vids.vids, b.HasStatic (macOf e.address, v) → e.Shows b v := by
    refine forall₂_congr fun e _ => forall₃_congr fun v _ _ => ?_
    rw [show (b.system c).fdbShow = some (fdbOutput b.fdb) from rfl, isNew_entry, Except.ok.injEq,
      decide_eq_false_iff_not, not_not, FilteringEntry.Shows]
  rw [FilterOk, hshown, answer_iff]
  constructor
  · rintro ⟨hiff, hall⟩
    refine ⟨fun hcount hseconds => (hiff.1 ⟨hcount, hseconds⟩).2, fun hports => ?_, hall⟩
    exact ⟨fun hcount => (hiff.1 ⟨hcount, hports.seconds⟩).1, fun hroom => (hiff.2 ⟨hroom, hports⟩).1⟩
  · intro told
    refine ⟨⟨fun h => ?_, fun h => ?_⟩, told.shown⟩
    · have hports := told.others h.1 h.2
      exact ⟨(told.sameSide hports).1 h.1, hports⟩
    · exact ⟨(told.sameSide h.2).2 h.1, h.2.seconds⟩

/-! ## A list of two VIDs -/

def link2Name : PortName where
  text := link2Row.name.text
  ne_nil := link2Row.name.ne_nil
  fits := link2Row.nameCase_name

theorem portBridge_single (name : List Char) :
    ∀ id ∈ (VlanReg.portBridge.report false name).ids, ∃ v, id = .vid v := by
  rw [VlanReg.portBridge_report]
  intro id hid
  split at hid
  · exact ⟨1, List.mem_singleton.1 hid⟩
  · cases hid

/-- All ports have VLAN 1 only, and there is room for 64 entries. -/
def vlan1Board : Board where
  fdb := []
  fdbSize := 64
  staticEntries := 0
  within := Nat.zero_le _
  sized := Nat.le_of_ble_eq_true rfl
  portName := fun _ => link2Name
  report := VlanReg.portBridge.report false
  plain := portBridge_single

def num1 : Base.Num := ⟨1, Nat.one_pos, Nat.le_of_ble_eq_true rfl⟩

theorem vids1And10_admitted : ∀ it ∈ [Item.vid num1, Item.vid num10], it.Admitted := by decide

theorem vids1And10_ordered : [Item.vid num1, Item.vid num10].Pairwise fun a b => a.last < b.first := by decide

theorem vids1And10_fits : (textOf [.vid num1, .vid num10]).length < MAX_STR_LEN := by decide

/-- VLANs 1 and 10. -/
def vids1And10 : VidList :=
  ⟨[.vid num1, .vid num10], List.cons_ne_nil _ _, vids1And10_admitted, vids1And10_ordered, vids1And10_fits⟩

def entry1And10 : FilteringEntry := ⟨"00-11-22-33-44-55".toList, vids1And10⟩

theorem entry1And10_created : ∃ m ∈ [PortMap.mk true entry1And10 2], m.created = true :=
  ⟨_, List.mem_singleton_self _, rfl⟩

theorem entry1And10_listed : ∀ m ∈ [PortMap.mk true entry1And10 2], m.created = true →
    DbNode.entry m.entry ∈ [DbNode.entry entry1And10] := by
  intro m hm _
  rw [List.mem_singleton.1 hm]
  exact List.mem_singleton_self _

def create1And10 : Candidate where
  bridgeName := "sw0"
  nodes := [.entry entry1And10]
  portMaps := [⟨true, entry1And10, 2⟩]
  some_created := entry1And10_created
  listed := entry1And10_listed

/-- The entry is accepted although VLAN 10 is not one of the port. -/
theorem not_filterOk_second : ¬ FilterOk vlan1Board create1And10 := by
  have hports : vlan1Board.vids 2 = [1] := by
    have hids : (VlanReg.portBridge.report false link2Name.text).ids = [.vid 1] := by
      rw [VlanReg.portBridge_report, if_pos (by decide)]
    exact congrArg (List.flatMap VlanId.vids) hids
  have hvids : entry1And10.vids.vids = [1, 10] := rfl
  have hseconds : ∀ m ∈ create1And10.portMaps, m.created = true → m.SecondsOnPort vlan1Board := by
    intro m hm _ i v hv
    obtain rfl := List.mem_singleton.1 hm
    rw [hports]
    cases i with
    | zero =>
      rw [← Option.some.inj hv]
      exact List.mem_singleton_self _
    | succ i =>
      rw [hvids, List.getElem?_eq_none (by simp only [List.length_cons, List.length_nil]; omega)] at hv
      cases hv
  intro h
  have hall := (h.1.1 (answer_iff.2 ⟨by decide, hseconds⟩)).2 _ (List.mem_singleton_self _) rfl 10
    (by rw [hvids]; decide)
  rw [hports] at hall
  revert hall
  decide

end TsnSwitch.Sysrepo.FilterEntry
