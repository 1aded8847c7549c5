/-
Is there room for the VLANs of an edit? (`bridge_vlan_reg_entry_cb` in
ieee802-dot1q-bridge-yang-module.c)

The VIDs of all entries of an edit are collected in one array, those of deleted
entries as well, and nothing bounds the array. What is added to the static
VLANs for the dynamic ones is the number of dynamic filtering entries
(`capacityOk_iff`).
-/
import TsnSwitch.Base.VidLists
import TsnSwitch.Sysrepo.AclEdit
import TsnSwitch.Tools.BridgeVlans

namespace TsnSwitch.Sysrepo.VlanReg

open Base Tools
open Acl (SrEvent)

/-- The errors of the callback, and that it leaves its objects. -/
inductive RegError where
  | getChangesIter
  | keyValue
  | descendingVids
  | invalidVid
  | getItems
  | portMapMissing
  | portNotOpen
  | getNumVlans
  | getMaxSupportedVlans
  | getDynamicEntries
  | getBridgeVlans
  | tooManyVids
  | fault
  deriving DecidableEq

/-- A change, with what is found for it: its keys and how many port maps the
entry has. -/
structure RegChange where
  isVids : Bool
  op : ChangeOp
  bridgeName : Option String
  vids : Option (List Char)
  databaseId : Option String
  portMaps : Option Nat

/-- What the library and the tools answer. -/
structure RegSystem where
  opens : String → Bool
  numVlans : Option (BitVec 32)
  maxSupportedVlans : Option (BitVec 32)
  dynamicEntries : Option (BitVec 32)
  linkShow : Option (List Char)
  vlanShow : Bool → List Char → Option (List Char)

/-- The locals that outlive a turn: the rows of `vids_array` up to `j`, the
others being zero. -/
structure Collected where
  bridgeName : String
  vidsArray : Base.Rows

/-- Put the rows of `tmp_vids_array` behind those that are there. -/
def collectVids : Base.Rows → Base.Rows → Except RegError Base.Rows
  | vidsArray, [] => .ok vidsArray
  | vidsArray, row :: tmpVids =>
    if row = [] then .ok vidsArray
    else if vidsArray.length < BASE_MAX_VID then collectVids (vidsArray ++ [row]) tmpVids
    else .error .fault

/-- One turn of the loop over the changes. -/
def regTurn (c : Collected) (change : RegChange) : Except RegError Collected :=
  if change.isVids = true ∧ (change.op = .created ∨ change.op = .deleted) then
    match change.bridgeName, change.vids, change.databaseId with
    | some bridgeName, some vids, some _ =>
      match doesVidsStringContainsDescendingInterval (some vids), doesVidsStringContainsInvalidVid (some vids) with
      | .error _, _ => .error .fault
      | .ok descending, invalid =>
        if descending ≠ EXIT_SUCCESS then .error .descendingVids
        else
          match invalid with
          | .error _ => .error .fault
          | .ok invalid =>
            if invalid ≠ EXIT_SUCCESS then .error .invalidVid
            else
              match change.portMaps with
              | none => .error .getItems
              | some counter =>
                -- A deleted entry needs no port map.
                if change.op = .created ∧ counter = 0 then .error .portMapMissing
                else
                  match assembleVidsAsArray BASE_MAX_VID BASE_TEN (some vids) with
                  | .error _ => .error .fault
                  | .ok tmpVids => (collectVids c.vidsArray tmpVids).map fun vidsArray => ⟨bridgeName, vidsArray⟩
    | _, _, _ => .error .keyValue
  else .ok c

/-- The VIDs that are not among the rows of `bridge_vlans`. -/
def newVidsCnt (vidsArray bridgeVlans : Matrix) : Nat :=
  ((vidsArray.takeWhile (· ≠ [])).filter fun vid => !(bridgeVlans.takeWhile (· ≠ [])).contains vid).length

/-- The check behind the loop. -/
def checkCapacity (sys : RegSystem) (c : Collected) : Except RegError Unit :=
  if !sys.opens c.bridgeName then .error .portNotOpen
  else
    match sys.numVlans, sys.maxSupportedVlans, sys.dynamicEntries with
    | none, _, _ => .error .getNumVlans
    | _, none, _ => .error .getMaxSupportedVlans
    | _, _, none => .error .getDynamicEntries
    | some numVlans, some maxSupportedVlans, some numDynamicVlans =>
      match getBridgeVlans vlansShape false sys.linkShow sys.vlanShow (zeros vlansShape) with
      | .error _ => .error .fault
      | .ok (ret, bridgeVlans) =>
        if ret ≠ EXIT_SUCCESS then .error .getBridgeVlans
        else
          match arrayUniqElements vlansShape (filled BASE_MAX_VID c.vidsArray) with
          | .error _ => .error .fault
          | .ok (_, vidsArray) =>
            if maxSupportedVlans < numVlans + numDynamicVlans + BitVec.ofNat 32 (newVidsCnt vidsArray bridgeVlans) then
              .error .tooManyVids
            else .ok ()

def bridgeVlanRegEntryCb (event : SrEvent) (pluginInit iterOk : Bool) (sys : RegSystem) (changes : List RegChange) :
    Except RegError Unit :=
  if event = .done || !pluginInit then .ok ()
  else if !iterOk then .error .getChangesIter
  else (changes.foldlM regTurn ⟨"", []⟩).bind (checkCapacity sys)

/-! ## What the check is for -/

/-- An entry of an edit. A created one has a port map, which the callback asks
for. -/
structure RegEntry where
  created : Bool
  vids : VidList
  databaseId : String
  portMaps : Nat
  mapped : created = true → portMaps ≠ 0

/-- The entries that an edit of a bridge creates and deletes, in any order. -/
structure Edit where
  bridgeName : String
  entries : List RegEntry
  nonempty : entries ≠ []

def RegEntry.change (bridgeName : String) (e : RegEntry) : RegChange where
  isVids := true
  op := if e.created then .created else .deleted
  bridgeName := some bridgeName
  vids := some e.vids.text
  databaseId := some e.databaseId
  portMaps := some e.portMaps

/-- The VIDs of all entries, as often as they come. -/
def Edit.vids (e : Edit) : List Nat := e.entries.flatMap (·.vids.vids)

def Edit.created (e : Edit) : Finset Nat := ((e.entries.filter (·.created)).flatMap (·.vids.vids)).toFinset

/-- A bridge with its VLANs, of which some are dynamic. The filtering database
has dynamic entries of its own, which an `int` counts. -/
structure Board where
  bridge : Bridge
  plain : ∀ id ∈ bridge.ids false, ∃ v, id = .vid v
  dynamicVids : Finset Nat
  dynamic_subset : dynamicVids ⊆ ((bridge.ids false).flatMap VlanId.vids).toFinset
  dynamicEntries : Nat
  counted : dynamicEntries < 2 ^ 31
  maxSupportedVlans : BitVec 32

namespace Board

/-- All VLANs of the bridge. -/
def vids (b : Board) : Finset Nat := ((b.bridge.ids false).flatMap VlanId.vids).toFinset

def system (b : Board) : RegSystem where
  opens _ := true
  numVlans := some (BitVec.ofNat 32 (b.vids \ b.dynamicVids).card)
  maxSupportedVlans := some b.maxSupportedVlans
  dynamicEntries := some (BitVec.ofNat 32 b.dynamicEntries)
  linkShow := some (linkOutput b.bridge.ports)
  vlanShow := b.bridge.vlanShow

/-- The lookups of the VLANs have room for those of all ports together. -/
def Fits (b : Board) : Prop :=
  b.bridge.ports.length ≤ MAX_NUM_OF_INTERFACES ∧ (b.bridge.ids false).length ≤ BASE_MAX_VID

end Board

/-- The callback with the change of an edit. -/
def answer (b : Board) (e : Edit) : Except RegError Unit :=
  bridgeVlanRegEntryCb .change true true b.system (e.entries.map (RegEntry.change e.bridgeName))

/-- The callback stays within its objects, and refuses the edit exactly if
there would be more VLANs than are supported. -/
def CapacityOk (b : Board) (e : Edit) : Prop :=
  answer b e ≠ .error .fault ∧
    (answer b e = .error .tooManyVids ↔ b.maxSupportedVlans.toNat < (b.vids ∪ e.created).card)

/-- The VIDs that are only deleted and that the bridge does not have. -/
def onlyDeleted (b : Board) (e : Edit) : Finset Nat := e.vids.toFinset \ (b.vids ∪ e.created)

/-- The limit does not lie between the number of VLANs and the number with
those that are only deleted, and with the dynamic filtering entries in place
of the dynamic VLANs. -/
def SameSide (b : Board) (e : Edit) : Prop :=
  let n := (b.vids ∪ e.created).card
  let limit := b.maxSupportedVlans.toNat
  if n ≤ limit then n + (onlyDeleted b e).card + b.dynamicEntries ≤ limit + b.dynamicVids.card
  else limit + b.dynamicVids.card < n + (onlyDeleted b e).card + b.dynamicEntries

/-! ## Collecting -/

theorem collectVids_eq {vidsArray tmpVids : Base.Rows} (hroom : vidsArray.length ≤ BASE_MAX_VID)
    (hne : ∀ row ∈ tmpVids, row ≠ []) :
    collectVids vidsArray tmpVids =
      if (vidsArray ++ tmpVids).length ≤ BASE_MAX_VID then .ok (vidsArray ++ tmpVids) else .error .fault := by
  induction tmpVids generalizing vidsArray with
  | nil => rw [List.append_nil, if_pos hroom, collectVids]
  | cons row tmpVids ih =>
    rw [List.forall_mem_cons] at hne
    rw [collectVids, if_neg hne.1]
    by_cases h : vidsArray.length < BASE_MAX_VID
    · have hroom' : (vidsArray ++ [row]).length ≤ BASE_MAX_VID := by
        rw [List.length_append]
        exact h
      rw [if_pos h, ih hroom' hne.2, List.append_assoc, List.singleton_append]
    · rw [if_neg h, if_neg (by rw [List.length_append, List.length_cons]; omega)]

def tenWide : Width := ⟨BASE_TEN, Nat.le_of_ble_eq_true rfl⟩

/-- An entry's VIDs are collected. -/
theorem regTurn_entry (c : Collected) (bridgeName : String) (e : RegEntry) :
    regTurn c (e.change bridgeName) =
      (collectVids c.vidsArray (numRows e.vids.vids)).map fun vidsArray => ⟨bridgeName, vidsArray⟩ := by
  have hop : (e.change bridgeName).isVids = true ∧
      ((e.change bridgeName).op = .created ∨ (e.change bridgeName).op = .deleted) := by
    refine ⟨rfl, ?_⟩
    rw [RegEntry.change]
    cases e.created with
    | true => exact .inl rfl
    | false => exact .inr rfl
  have hmapped : ¬ ((e.change bridgeName).op = .created ∧ e.portMaps = 0) := by
    rintro ⟨hcreated, hnone⟩
    refine e.mapped ?_ hnone
    by_contra h
    rw [RegEntry.change, if_neg h] at hcreated
    cases hcreated
  have hassemble : assembleVidsAsArray BASE_MAX_VID BASE_TEN (some e.vids.text) = .ok (numRows e.vids.vids) :=
    e.vids.assemble_eq tenWide
  rw [regTurn, if_pos hop]
  simp only [show (e.change bridgeName).bridgeName = some bridgeName from rfl,
    show (e.change bridgeName).vids = some e.vids.text from rfl,
    show (e.change bridgeName).databaseId = some e.databaseId from rfl,
    show (e.change bridgeName).portMaps = some e.portMaps from rfl,
    e.vids.not_descending, e.vids.not_invalid, ne_eq, not_true_eq_false, if_false, if_neg hmapped, hassemble]

/-- **The VIDs of all entries stand one behind the other, as long as there are
rows.** -/
theorem foldlM_regTurn (bridgeName : String) (entries : List RegEntry) {c : Collected}
    (hroom : c.vidsArray.length ≤ BASE_MAX_VID) :
    ∃ name, (entries.map (RegEntry.change bridgeName)).foldlM regTurn c =
      if (c.vidsArray ++ numRows (entries.flatMap (·.vids.vids))).length ≤ BASE_MAX_VID then
        .ok ⟨name, c.vidsArray ++ numRows (entries.flatMap (·.vids.vids))⟩
      else .error .fault := by
  induction entries generalizing c with
  | nil =>
    refine ⟨c.bridgeName, ?_⟩
    rw [List.flatMap_nil, show numRows [] = [] from rfl, List.append_nil, if_pos hroom]
    rfl
  | cons e entries ih =>
    rw [List.map_cons, List.foldlM_cons, regTurn_entry, collectVids_eq hroom (numRows_ne_nil _), List.flatMap_cons,
      numRows_append, ← List.append_assoc]
    by_cases h : (c.vidsArray ++ numRows e.vids.vids).length ≤ BASE_MAX_VID
    · rw [if_pos h]
      exact @ih ⟨bridgeName, _⟩ h
    · refine ⟨bridgeName, ?_⟩
      rw [if_neg h, if_neg (by rw [List.length_append]; omega)]
      rfl

/-! ## The VLANs of the bridge -/

theorem eraseDups_numRows (ns : List Nat) : (numRows ns).eraseDups = numRows ns.eraseDups :=
  Lib.eraseDups_map (fun _ _ h => Lib.toDigits_inj h) ns

theorem overwritten_zeros (texts : Matrix) : overwritten (zeros vlansShape) texts = filled BASE_MAX_VID texts := by
  rw [overwritten, zeros, List.drop_replicate]
  rfl

theorem uniq_numRows {ns : List Nat} (hns : ∀ n ∈ ns, n < 10 ^ 4) :
    arrayUniqElements vlansShape (filled BASE_MAX_VID (numRows ns)) =
      .ok (BASE_PARSING_SUCCEEDED, filled BASE_MAX_VID (numRows ns.eraseDups)) := by
  have hshort : ∀ row ∈ numRows ns.eraseDups, row.length ≤ vlansShape.colNum - 1 := by
    intro row hrow
    obtain ⟨n, hn, rfl⟩ := List.mem_map.1 hrow
    have h4 : (Nat.toDigits 10 n).length ≤ 4 :=
      (Nat.length_toDigits_le_iff (by decide) (by decide)).2 (hns n (List.mem_eraseDups.1 hn))
    exact h4.trans (by decide)
  rw [arrayUniqElements_eq vlansShape_copy, takeWhile_filled (numRows_ne_nil ns), eraseDups_numRows,
    Lib.map_take_of_short hshort]
  rfl

namespace Board

variable {b : Board}

theorem vid_lt {vs : List Nat} (hvs : b.bridge.ids false = vs.map VlanId.vid) : ∀ v ∈ vs, v < 10 ^ 4 := by
  intro v hv
  have hproper : (VlanId.vid v).Proper := Bridge.proper _ (hvs ▸ List.mem_map_of_mem hv)
  have := (hproper.2 v (List.mem_singleton_self v)).2
  omega

/-- What the lookup of the VLANs answers when there are rows for the ports. -/
theorem lookup_eq {vs : List Nat} (hvs : b.bridge.ids false = vs.map VlanId.vid)
    (hports : b.bridge.ports.length ≤ MAX_NUM_OF_INTERFACES) :
    getBridgeVlans vlansShape false b.system.linkShow b.system.vlanShow (zeros vlansShape) =
      if vs.length ≤ BASE_MAX_VID then .ok (EXIT_SUCCESS, filled BASE_MAX_VID (numRows vs.eraseDups))
      else .error .write := by
  have htexts : (b.bridge.ids false).map VlanId.text = numRows vs := by
    rw [hvs, List.map_map]
    rfl
  have hloop := @loop_ports b.bridge vlansShape false blankArray fun _ => rfl
  rw [htexts, blankArray, overwritten_zeros, hvs, List.length_map] at hloop
  refine (@getBridgeVlans_eq b.bridge vlansShape false blankArray hports _ hloop).trans ?_
  by_cases h : vs.length ≤ BASE_MAX_VID
  · rw [if_pos h, if_pos (show vs.length ≤ vlansShape.rowNum from h), Except.bind, uniq_numRows (vid_lt hvs)]
    rfl
  · rw [if_neg h, if_neg (show ¬ vs.length ≤ vlansShape.rowNum from h)]
    rfl

theorem lookup_error (hports : ¬ b.bridge.ports.length ≤ MAX_NUM_OF_INTERFACES) :
    getBridgeVlans vlansShape false b.system.linkShow b.system.vlanShow (zeros vlansShape) = .error .write := by
  rw [getBridgeVlans, show b.system.linkShow = some (linkOutput b.bridge.ports) from rfl, getBridgePortNames_eq,
    if_neg hports]
  rfl

theorem vids_eq {vs : List Nat} (hvs : b.bridge.ids false = vs.map VlanId.vid) : b.vids = vs.toFinset := by
  rw [vids, hvs, flatMap_vids]

theorem card_vids_le : b.vids.card ≤ 4094 := by
  have hsub : b.vids ⊆ Finset.Icc 1 4094 := by
    intro v hv
    rw [vids, List.mem_toFinset] at hv
    obtain ⟨id, hid, hv⟩ := List.mem_flatMap.1 hv
    exact Finset.mem_Icc.2 ((Bridge.proper id hid).2 v hv)
  exact (Finset.card_le_card hsub).trans (Nat.le_of_eq (Nat.card_Icc 1 4094))

/-- The static VLANs and the dynamic ones are all there are. -/
theorem card_static : (b.vids \ b.dynamicVids).card + b.dynamicVids.card = b.vids.card :=
  Finset.card_sdiff_add_card_eq_card b.dynamic_subset

end Board

/-! ## The check -/

/-- The VIDs counted are those of the entries that the bridge does not have. -/
theorem newVidsCnt_eq (ns vs : List Nat) :
    newVidsCnt (filled BASE_MAX_VID (numRows ns.eraseDups)) (filled BASE_MAX_VID (numRows vs.eraseDups)) =
      (ns.toFinset \ vs.toFinset).card := by
  have hcontains : ∀ n, (!(numRows vs.eraseDups).contains (Nat.toDigits 10 n)) = decide (n ∉ vs) := by
    intro n
    have hmem : Nat.toDigits 10 n ∈ numRows vs.eraseDups ↔ n ∈ vs := by
      rw [numRows, List.mem_map_of_injective fun _ _ h => Lib.toDigits_inj h, List.mem_eraseDups]
    rw [Bool.eq_iff_iff, decide_eq_true_iff, Bool.not_eq_true', ← Bool.not_eq_true, List.contains_iff_mem, hmem]
  have hfilter : (ns.eraseDups.filter fun n => decide (n ∉ vs)).toFinset = ns.toFinset \ vs.toFinset := by
    ext n
    simp
  have hrows : (numRows ns.eraseDups).filter (fun vid => !(numRows vs.eraseDups).contains vid) =
      numRows (ns.eraseDups.filter fun n => decide (n ∉ vs)) := by
    rw [show numRows ns.eraseDups = ns.eraseDups.map (Nat.toDigits 10) from rfl, List.filter_map]
    exact congrArg _ (List.filter_congr fun n _ => hcontains n)
  rw [newVidsCnt, takeWhile_filled (numRows_ne_nil _), takeWhile_filled (numRows_ne_nil _), hrows, length_numRows,
    ← hfilter, List.toFinset_card_of_nodup ((Lib.nodup_eraseDups ns).filter _)]

theorem Edit.length_vids (e : Edit) : e.vids.toFinset.card ≤ e.vids.length := List.toFinset_card_le _

theorem Edit.vid_lt (e : Edit) : ∀ v ∈ e.vids, v < 10 ^ 4 := by
  intro v hv
  obtain ⟨entry, -, hv⟩ := List.mem_flatMap.1 hv
  have := (entry.vids.mem_range hv).2
  omega

variable {b : Board} {e : Edit}

/-- Where the array takes the VIDs, the check decides. -/
theorem answer_eq : ∃ name, answer b e =
    if e.vids.length ≤ BASE_MAX_VID then checkCapacity b.system ⟨name, numRows e.vids⟩ else .error .fault := by
  obtain ⟨name, hloop⟩ := @foldlM_regTurn e.bridgeName e.entries ⟨"", []⟩ (Nat.zero_le _)
  simp only [List.nil_append, length_numRows] at hloop
  refine ⟨name, ?_⟩
  rw [answer, bridgeVlanRegEntryCb, if_neg (by decide), if_neg (by decide), hloop]
  by_cases h : e.vids.length ≤ BASE_MAX_VID
  · rw [if_pos h, if_pos (show (e.entries.flatMap (·.vids.vids)).length ≤ BASE_MAX_VID from h)]
    rfl
  · rw [if_neg h, if_neg (show ¬ (e.entries.flatMap (·.vids.vids)).length ≤ BASE_MAX_VID from h)]
    rfl

/-- The lookup of the VLANs leaves its objects where they do not fit. -/
theorem checkCapacity_of_not_fits (h : ¬ b.Fits) (c : Collected) : checkCapacity b.system c = .error .fault := by
  obtain ⟨vs, hvs⟩ := exists_vids b.plain
  have hlookup : getBridgeVlans vlansShape false b.system.linkShow b.system.vlanShow (zeros vlansShape) =
      .error .write := by
    by_cases hports : b.bridge.ports.length ≤ MAX_NUM_OF_INTERFACES
    · have hlong : ¬ vs.length ≤ BASE_MAX_VID := fun hlen => h ⟨hports, by rwa [hvs, List.length_map]⟩
      rw [Board.lookup_eq hvs hports, if_neg hlong]
    · exact Board.lookup_error hports
  rw [checkCapacity, if_neg (show ¬ (!b.system.opens c.bridgeName) = true from Bool.false_ne_true), hlookup]
  rfl

/-- The number the check compares with the limit. -/
def checkedNumber (b : Board) (e : Edit) : Nat :=
  (b.vids \ b.dynamicVids).card + b.dynamicEntries + (e.vids.toFinset \ b.vids).card

theorem checkCapacity_eq (hfits : b.Fits) (hroom : e.vids.length ≤ BASE_MAX_VID) (name : String) :
    checkCapacity b.system ⟨name, numRows e.vids⟩ =
      if b.maxSupportedVlans.toNat < checkedNumber b e then .error .tooManyVids else .ok () := by
  obtain ⟨vs, hvs⟩ := exists_vids b.plain
  have hlen : vs.length ≤ BASE_MAX_VID := by
    have := hfits.2
    rwa [hvs, List.length_map] at this
  have hstatic : (b.vids \ b.dynamicVids).card ≤ 4094 :=
    (Finset.card_le_card Finset.sdiff_subset).trans Board.card_vids_le
  have hnew : (e.vids.toFinset \ b.vids).card ≤ BASE_MAX_VID :=
    (Finset.card_le_card Finset.sdiff_subset).trans (e.length_vids.trans hroom)
  have hcounted := b.counted
  have hsum : (BitVec.ofNat 32 (b.vids \ b.dynamicVids).card + BitVec.ofNat 32 b.dynamicEntries +
      BitVec.ofNat 32 (e.vids.toFinset \ b.vids).card).toNat = checkedNumber b e := by
    simp only [BitVec.toNat_add, BitVec.toNat_ofNat, checkedNumber]
    simp only [BASE_MAX_VID] at hnew
    omega
  rw [checkCapacity, if_neg (show ¬ (!b.system.opens name) = true from Bool.false_ne_true),
    Board.lookup_eq hvs hfits.1, if_pos hlen, uniq_numRows e.vid_lt]
  simp only [Board.system, ne_eq, not_true_eq_false, if_false, newVidsCnt_eq, ← Board.vids_eq hvs, BitVec.lt_def, hsum]

/-- Both numbers, from what they have in common. -/
theorem checkedNumber_add : checkedNumber b e + b.dynamicVids.card =
    (b.vids ∪ e.created).card + (onlyDeleted b e).card + b.dynamicEntries := by
  have hcreated : e.created ⊆ e.vids.toFinset := by
    intro v hv
    rw [Edit.created, List.mem_toFinset, List.mem_flatMap] at hv
    obtain ⟨entry, hentry, hv⟩ := hv
    rw [List.mem_toFinset, Edit.vids, List.mem_flatMap]
    exact ⟨entry, (List.mem_filter.1 hentry).1, hv⟩
  have hsplit : (e.vids.toFinset \ b.vids).card + b.vids.card = (b.vids ∪ e.created).card + (onlyDeleted b e).card := by
    have hall : b.vids ∪ e.created ⊆ b.vids ∪ e.vids.toFinset := Finset.union_subset_union_right hcreated
    have hdiff : onlyDeleted b e = (b.vids ∪ e.vids.toFinset) \ (b.vids ∪ e.created) := by
      ext v
      simp only [onlyDeleted, Finset.mem_sdiff, Finset.mem_union]
      tauto
    rw [Finset.card_sdiff_add_card, Finset.union_comm e.vids.toFinset, hdiff, Nat.add_comm,
      Finset.card_sdiff_add_card_eq_card hall]
  have hstatic := @Board.card_static b
  rw [checkedNumber]
  omega

/-- **The check is right exactly if the array takes the VIDs of all entries,
the lookup takes those of all ports, and what is counted too much or too
little is on the same side of the limit.** -/
theorem capacityOk_iff (b : Board) (e : Edit) :
    CapacityOk b e ↔ b.Fits ∧ e.vids.length ≤ BASE_MAX_VID ∧ SameSide b e := by
  obtain ⟨name, hanswer⟩ := @answer_eq b e
  by_cases hroom : e.vids.length ≤ BASE_MAX_VID
  swap
  · exact iff_of_false (fun h => h.1 (hanswer.trans (if_neg hroom))) fun h => hroom h.2.1
  rw [if_pos hroom] at hanswer
  by_cases hfits : b.Fits
  swap
  · exact iff_of_false (fun h => h.1 (hanswer.trans (checkCapacity_of_not_fits hfits _))) fun h => hfits h.1
  rw [and_iff_right hfits, and_iff_right hroom, CapacityOk, hanswer, checkCapacity_eq hfits hroom]
  have hnumber := @checkedNumber_add b e
  by_cases hover : b.maxSupportedVlans.toNat < checkedNumber b e
  · simp only [if_pos hover, SameSide, ne_eq, Except.error.injEq, reduceCtorEq, not_false_eq_true, true_and, true_iff]
    split <;> omega
  · simp only [if_neg hover, SameSide, ne_eq, reduceCtorEq, not_false_eq_true, true_and, false_iff]
    split <;> omega

/-! ## An address for every VLAN -/

theorem portBridge_bare : ∀ r ∈ [link2Row], ∀ c ∈ r.name.text, isPunct c = false := bare_of_all (by decide)

/-- A bridge with one port, which has VLAN 1. -/
def portBridge : Bridge where
  ports := [link2Row]
  bare := portBridge_bare
  nodup := List.nodup_singleton _
  report := fun _ name => if h : TrunkName name then trunkReport (Nat.zero_le 4092) h else emptyReport name

theorem portBridge_report (name : List Char) :
    (portBridge.report false name).ids = if TrunkName name then [.vid 1] else [] := by
  by_cases h : TrunkName name
  · have hreport : portBridge.report false name = trunkReport (Nat.zero_le 4092) h := dif_pos h
    rw [if_pos h, hreport, VlanReport.ids, trunkReport, idsOf_trunkRows]
    rfl
  · have hreport : portBridge.report false name = emptyReport name := dif_neg h
    rw [if_neg h, hreport]
    rfl

theorem portBridge_ids : portBridge.ids false = [.vid 1] := by
  have hports : portBridge.ports = [link2Row] := rfl
  rw [Bridge.ids, hports, List.flatMap_singleton, portBridge_report, if_pos (by decide)]

theorem portBridge_plain : ∀ id ∈ portBridge.ids false, ∃ v, id = .vid v := by
  rw [portBridge_ids]
  exact fun id hid => ⟨1, List.mem_singleton.1 hid⟩

/-- It supports 64 VLANs, and has learned 70 addresses. -/
def learnedBoard : Board where
  bridge := portBridge
  plain := portBridge_plain
  dynamicVids := ∅
  dynamic_subset := Finset.empty_subset _
  dynamicEntries := 70
  counted := Nat.le_of_ble_eq_true rfl
  maxSupportedVlans := 64#32

theorem vid10_admitted : ∀ it ∈ [Item.vid num10], it.Admitted := by decide

theorem vid10_fits : (textOf [.vid num10]).length < MAX_STR_LEN := by decide

/-- VLAN 10. -/
def vid10 : VidList := ⟨[.vid num10], List.cons_ne_nil _ _, vid10_admitted, List.pairwise_singleton _ _, vid10_fits⟩

def createVid10 : Edit where
  bridgeName := "sw0"
  entries := [⟨true, vid10, "1", 1, fun _ => Nat.one_ne_zero⟩]
  nonempty := List.cons_ne_nil _ _

/-- VLAN 10 is refused although it would be the second one. -/
theorem not_capacityOk_learned : ¬ CapacityOk learnedBoard createVid10 := by
  have hvids : learnedBoard.vids = {1} := by
    rw [Board.vids, show learnedBoard.bridge = portBridge from rfl, portBridge_ids]
    rfl
  have hfits : learnedBoard.Fits := by
    rw [Board.Fits, show learnedBoard.bridge = portBridge from rfl, portBridge_ids]
    decide
  have hroom : createVid10.vids.length ≤ BASE_MAX_VID := by decide
  obtain ⟨name, hanswer⟩ := @answer_eq learnedBoard createVid10
  have hover : learnedBoard.maxSupportedVlans.toNat < checkedNumber learnedBoard createVid10 := by
    rw [checkedNumber, show learnedBoard.dynamicEntries = 70 from rfl,
      show learnedBoard.maxSupportedVlans.toNat = 64 from rfl]
    omega
  rw [if_pos hroom, checkCapacity_eq hfits hroom, if_pos hover] at hanswer
  intro h
  have hmany := h.2.1 hanswer
  rw [hvids] at hmany
  revert hmany
  decide

end TsnSwitch.Sysrepo.VlanReg
