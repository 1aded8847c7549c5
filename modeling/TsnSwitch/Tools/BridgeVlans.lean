/-
The VLANs of all ports of a bridge (`get_bridge_vlans` in
base_q_bridge_linux_tools.c).

The rows of the ports are put one behind the other and made unique in the end.
Before that nothing bounds them: what counts is the number of VLANs of all
ports together (`bridgeVlans_iff`).
-/
import TsnSwitch.Tools.VlanLookup

namespace TsnSwitch.Tools

open Lib
open Base (MAX_STR_LEN BASE_TEN BASE_MAX_VID EXIT_SUCCESS EXIT_FAILURE)

def BASE_PORT_STR : String := "port"

/-! ## The functions -/

def afterColon : ParserSpec := ⟨some .findAndGetNextWord, COLON_STR.toList⟩

def getBridgePortNames (sh : Shape) (output : Option (List Char)) : Except Overrun (Nat × Matrix) :=
  getObject [(some .repeatUntilNullWithCheck, [] ++ [afterColon]), (some .noCombinator, single .arrayDropPunctuation ""),
    (some .noCombinator, single .arrayUniqElements "")] sh output

/-- The match case for an interface. -/
def nameCase (interfaceName : List Char) : List Char := interfaceName.take (MAX_STR_LEN - 1)

def afterName (interfaceName : List Char) : ParserSpec := ⟨some .findAndGetNextWord, nameCase interfaceName⟩

def notOnLine (matchCase : List Char) : ParserSpec := ⟨some .isNotOnLine, matchCase⟩

def firstWord : ParserSpec := ⟨some .getFirstWord, []⟩

/-- `Q_BRIDGE_PORT_VLANS_BY_NAME`, and the same for compressed output. -/
def portVlansByName (interfaceName : List Char) : SysCallSpec :=
  [(some .repeatUntilNullWithCheck, [] ++ [afterName interfaceName]),
    (some .noCombinator, single .arrayUniqElements "")]

/-- `Q_BRIDGE_PORT_VLANS_WITHOUT_NAME`, and the same for compressed output. -/
def portVlansWithoutName (interfaceName : List Char) : SysCallSpec :=
  [(some .repeatUntilNullWithCheck,
      [notOnLine (nameCase interfaceName), notOnLine BASE_PORT_STR.toList] ++ [firstWord]),
    (some .noCombinator, single .arrayUniqElements "")]

/-- The arrays in the functions have this shape. -/
def vlansShape : Shape := ⟨BASE_MAX_VID, BASE_TEN, Nat.le_of_ble_eq_true rfl, Nat.le_of_ble_eq_true rfl⟩

/-- The tool is run twice, for the same output. -/
def getPortVlansByName (sh : Shape) (interfaceName : List Char) (output : Option (List Char)) (result : Matrix) :
    Except Overrun (Nat × Matrix) :=
  if BASE_MAX_VID ≤ sh.rowNum ∧ BASE_TEN ≤ sh.colNum then
    if vlansShape.rowNum * vlansShape.colNum < sh.rowNum * sh.colNum then .error .copy
    else do
      let (ret, vlans) ← getObject (portVlansByName interfaceName) sh output
      if ret = EXIT_SUCCESS then
        let (ret, tmpVlans) ← getObject (portVlansWithoutName interfaceName) sh output
        .ok (ret, vlans.headD [] :: tmpVlans.take (BASE_MAX_VID - 1))
      else .ok (ret, result)
  else .ok (EXIT_FAILURE, result)

/-- The rows of one port behind the `k` rows that are there. -/
def addPortVlans (sh : Shape) : Matrix → Nat → Matrix → Except Overrun (Nat × Matrix)
  | [], k, bridgeVlans => .ok (k, bridgeVlans)
  | vlan :: portVlans, k, bridgeVlans =>
    if vlan = [] then .ok (k, bridgeVlans)
    else if k < sh.rowNum then addPortVlans sh portVlans (k + 1) (bridgeVlans.set k vlan)
    else .error .write

def bridgeVlansLoop (sh : Shape) (vlanShow : List Char → Option (List Char)) :
    Matrix → Nat → Matrix → Except Overrun Matrix
  | [], _, bridgeVlans => .ok bridgeVlans
  | name :: portsName, k, bridgeVlans =>
    if name = [] then .ok bridgeVlans
    else do
      let (ret, portVlans) ← getPortVlansByName sh name (vlanShow name) (zeros vlansShape)
      if ret = EXIT_FAILURE then .ok (zeros sh)
      else
        let (k, bridgeVlans) ← addPortVlans sh portVlans k bridgeVlans
        bridgeVlansLoop sh vlanShow portsName k bridgeVlans

/-- `vlanShow` is the tool with and without compression. The failure of one
port is a success of the whole. -/
def getBridgeVlans (sh : Shape) (compressed : Bool) (linkShow : Option (List Char))
    (vlanShow : Bool → List Char → Option (List Char)) (bridgeVlans : Matrix) : Except Overrun (Nat × Matrix) := do
  let (ret, portsName) ← getBridgePortNames portsShape linkShow
  if ret = EXIT_SUCCESS then
    let rows ← bridgeVlansLoop sh (vlanShow compressed) portsName 0 bridgeVlans
    let (_, rows) ← arrayUniqElements sh rows
    .ok (EXIT_SUCCESS, rows)
  else .ok (EXIT_FAILURE, bridgeVlans)

/-! ## The bridge -/

deriving instance DecidableEq for VlanId

def VlanId.vids : VlanId → List Nat
  | .vid v => [v]
  | .interval first last => List.range' first (last + 1 - first)

/-- A VLAN that can exist, or an ascending interval of such. -/
def VlanId.Proper (id : VlanId) : Prop := id.vids ≠ [] ∧ ∀ v ∈ id.vids, 1 ≤ v ∧ v ≤ 4094

def idsOf (rows : List VlanRow) : List VlanId := rows.filterMap fun r => r.vlan.map (·.1)

def vlanRows (rows : List VlanRow) : List VlanRow := rows.filter (·.vlan.isSome)

/-- What the tool prints for an interface: its VLANs, the first one behind the
name, and titles or empty lines. -/
structure VlanReport (name : List Char) where
  rows : List VlanRow
  titles : ∀ r ∈ rows, r.vlan = none → ¬ r.line.Contains name ∧
    (r.line.Contains BASE_PORT_STR.toList ∨ ∀ c ∈ r.line.text, isBlank c = true)
  named : ∀ r ∈ (vlanRows rows).head?, ∃ gap, r.lead = name ++ gap ∧ ∀ c ∈ gap, isBlank c = true
  unnamed : ∀ r ∈ (vlanRows rows).tail, (∀ c ∈ r.lead, isBlank c = true) ∧ ¬ r.line.Contains name ∧
    ¬ r.line.Contains BASE_PORT_STR.toList
  proper : ∀ id ∈ idsOf rows, id.Proper
  nodup : ((idsOf rows).flatMap VlanId.vids).Nodup

def VlanReport.ids {name : List Char} (report : VlanReport name) : List VlanId := idsOf report.rows

/-- A bridge: its ports, and what the tool prints for an interface, with and
without compression. -/
structure Bridge where
  ports : List LinkRow
  bare : ∀ r ∈ ports, ∀ c ∈ r.name.text, isPunct c = false
  nodup : (ports.map (·.name.text)).Nodup
  report : Bool → (name : List Char) → VlanReport name

def Bridge.vlanShow (b : Bridge) (compressed : Bool) (name : List Char) : Option (List Char) :=
  some (vlanOutput (b.report compressed name).rows)

/-- The VLANs of all ports, port by port. -/
def Bridge.ids (b : Bridge) (compressed : Bool) : List VlanId :=
  b.ports.flatMap fun r => (b.report compressed r.name.text).ids

/-- The array of a caller, whose rows have room for a character and its NUL. -/
structure CallerArray (sh : Shape) where
  rows : Matrix
  length_rows : rows.length = sh.rowNum
  room : 1 < sh.colNum

/-- The array has each VLAN of the bridge exactly once and nothing else, in
the order of the first occurrences, and no row behind it has been written. -/
def BridgeVlansOk (b : Bridge) (sh : Shape) (compressed : Bool) (array : CallerArray sh) : Prop :=
  ∃ rows, getBridgeVlans sh compressed (some (linkOutput b.ports)) b.vlanShow array.rows = .ok (EXIT_SUCCESS, rows) ∧
    ∃ ids : List VlanId, (∀ id ∈ ids, id.Proper) ∧ rows.takeWhile (· ≠ []) = ids.map VlanId.text ∧
      ids.flatMap VlanId.vids = ((b.ids compressed).flatMap VlanId.vids).eraseDups

/-- The shapes the lookups of a port refuse. -/
def Shape.TooSmall (sh : Shape) : Prop := sh.rowNum < BASE_MAX_VID ∨ sh.colNum < BASE_TEN

instance (sh : Shape) : Decidable sh.TooSmall := inferInstanceAs (Decidable (_ ∨ _))

/-- There are rows for the VLANs of all ports together, what the array held
behind them is empty or a repetition, and compressed VLANs that differ do not
overlap. The lookups of ports work for one shape only. -/
def Bridge.Fits (b : Bridge) (sh : Shape) (compressed : Bool) (array : CallerArray sh) : Prop :=
  b.ports.length ≤ MAX_NUM_OF_INTERFACES ∧ sh.rowNum * sh.colNum ≤ BASE_MAX_ROW_NUM * BASE_MAX_COL_NUM ∧
    if b.ports ≠ [] ∧ sh.TooSmall then b.ids compressed = []
    else
      (b.ports ≠ [] → sh.rowNum * sh.colNum ≤ vlansShape.rowNum * vlansShape.colNum) ∧
        (b.ids compressed).length ≤ sh.rowNum ∧
        (∀ row ∈ (array.rows.drop (b.ids compressed).length).takeWhile (· ≠ []),
          row ∈ (b.ids compressed).map VlanId.text) ∧
        ((b.ids compressed).eraseDups.flatMap VlanId.vids).Nodup

/-! ## VLANs as texts -/

theorem digits_of_small {v : Nat} (h : v ≤ 4094) : (Nat.toDigits 10 v).length ≤ 4 :=
  (Nat.length_toDigits_le_iff (by decide) (by decide)).2 (h.trans_lt (by decide))

theorem dash_not_mem_digits (v : Nat) : '-' ∉ Nat.toDigits 10 v := fun h => by
  have := isDigit_toDigits v _ h
  revert this
  decide

theorem VlanId.text_injective : Function.Injective VlanId.text := by
  have hcut : ∀ first last, (VlanId.interval first last).text.takeWhile (· ≠ '-') = Nat.toDigits 10 first := by
    intro first last
    rw [VlanId.text, List.takeWhile_append_of_pos, List.takeWhile_cons_of_neg (by decide), List.append_nil]
    exact fun c hc => decide_eq_true fun h => dash_not_mem_digits first (h ▸ hc)
  have hdiff : ∀ v first last, (VlanId.vid v).text ≠ (VlanId.interval first last).text := fun v first last h =>
    dash_not_mem_digits v (by rw [← VlanId.text, h, VlanId.text]; simp)
  intro a b h
  cases a with
  | vid v =>
    cases b with
    | vid v' => rw [toDigits_inj h]
    | interval first last => exact absurd h (hdiff v first last)
  | interval first last =>
    cases b with
    | vid v => exact absurd h.symm (hdiff v first last)
    | interval first' last' =>
      have hfirst : first = first' := toDigits_inj (by rw [← hcut first last, h, hcut])
      subst hfirst
      have hlast := List.append_cancel_left h
      rw [toDigits_inj (List.cons.inj hlast).2]

theorem VlanId.text_ne_nil (id : VlanId) : id.text ≠ [] := by
  cases id with
  | vid v => exact Nat.toDigits_ne_nil
  | interval first last => exact List.append_ne_nil_of_right_ne_nil _ (List.cons_ne_nil _ _)

theorem VlanId.not_endsWord (id : VlanId) : ∀ c ∈ id.text, endsWord c = false := by
  have hdigits : ∀ n, ∀ c ∈ Nat.toDigits 10 n, endsWord c = false := by
    intro n c hc
    have h := isDigit_toDigits n c hc
    have h1 : c ≠ ' ' := by rintro rfl; revert h; decide
    have h2 : c ≠ '\t' := by rintro rfl; revert h; decide
    have h3 : c ≠ '\n' := by rintro rfl; revert h; decide
    simp [endsWord, isBlank, h1, h2, h3]
  cases id with
  | vid v => exact hdigits v
  | interval first last =>
    simp only [VlanId.text, List.forall_mem_append, List.forall_mem_cons]
    exact ⟨hdigits first, by decide, hdigits last⟩

/-- Rows of ten columns have room for every VLAN. -/
theorem VlanId.Proper.length_text {id : VlanId} (h : id.Proper) : id.text.length ≤ 9 := by
  cases id with
  | vid v => exact (digits_of_small (h.2 v (List.mem_singleton_self v)).2).trans (by decide)
  | interval first last =>
    have hne : first < last + 1 := by
      by_contra hle
      exact h.1 (by rw [VlanId.vids, show last + 1 - first = 0 by omega, List.range'_zero])
    have hfirst := digits_of_small (h.2 first (List.mem_range'_1.2 ⟨le_rfl, by omega⟩)).2
    have hlast := digits_of_small (h.2 last (List.mem_range'_1.2 ⟨by omega, by omega⟩)).2
    rw [VlanId.text, List.length_append, List.length_cons]
    omega

/-- There are not more VLANs in a report than VIDs. -/
theorem length_ids_le {ids : List VlanId} (hproper : ∀ id ∈ ids, id.Proper)
    (hnodup : (ids.flatMap VlanId.vids).Nodup) : ids.length ≤ 4094 := by
  have hcount : ids.length ≤ (ids.flatMap VlanId.vids).length := by
    clear hnodup
    induction ids with
    | nil => exact Nat.zero_le _
    | cons id ids ih =>
      rw [List.forall_mem_cons] at hproper
      have hpos := List.length_pos_iff.2 hproper.1.1
      have := ih hproper.2
      rw [List.flatMap_cons, List.length_append, List.length_cons]
      omega
  have hsub : ids.flatMap VlanId.vids ⊆ List.range' 1 4094 := by
    intro v hv
    obtain ⟨id, hid, hv⟩ := List.mem_flatMap.1 hv
    have := (hproper id hid).2 v hv
    exact List.mem_range'_1.2 ⟨this.1, by omega⟩
  have := (hnodup.subperm hsub).length_le
  rw [List.length_range'] at this
  omega

/-- Single VIDs, by their numbers. -/
theorem exists_vids {ids : List VlanId} (h : ∀ id ∈ ids, ∃ v, id = .vid v) :
    ∃ vs : List Nat, ids = vs.map VlanId.vid := by
  induction ids with
  | nil => exact ⟨[], rfl⟩
  | cons id ids ih =>
    rw [List.forall_mem_cons] at h
    obtain ⟨⟨v, rfl⟩, h⟩ := h
    obtain ⟨vs, rfl⟩ := ih h
    exact ⟨v :: vs, rfl⟩

theorem flatMap_vids (vs : List Nat) : (vs.map VlanId.vid).flatMap VlanId.vids = vs := by
  rw [List.flatMap_map]
  exact List.flatMap_singleton' vs

/-! ## The report of a port -/

/-- Behind the text of a VLAN there is a blank or nothing. -/
theorem nextWord_vlan {v : VlanId × List Word} {gap : List Char} (hgap : ∀ c ∈ gap, isBlank c = true) :
    Lib.nextWord (gap ++ ' ' :: (v.1.text ++ v.2.flatMap fun w => ' ' :: w.text)) = v.1.text := by
  have hgap' : ∀ c ∈ gap ++ [' '], isBlank c = true := by
    simp only [List.forall_mem_append, List.forall_mem_cons]
    exact ⟨hgap, by decide, fun _ h => absurd h List.not_mem_nil⟩
  rw [List.append_cons]
  refine nextWord_between hgap' v.1.text_ne_nil v.1.not_endsWord fun c hc => ?_
  cases hflags : v.2 with
  | nil => rw [hflags] at hc; cases hc
  | cons w flags =>
    rw [hflags, List.flatMap_cons, List.cons_append] at hc
    rw [← Option.some.inj hc]
    decide

/-- The line of a VLAN. -/
theorem VlanRow.text_of {r : VlanRow} {v : VlanId × List Word} (h : r.vlan = some v) :
    r.line.text = r.lead ++ ' ' :: (v.1.text ++ v.2.flatMap fun w => ' ' :: w.text) := by
  rw [r.printed, h, Option.elim_some]

theorem strstr_of_not_contains {l : Line} {pat : List Char} (hne : pat ≠ []) (h : ¬ l.Contains pat) :
    strstr pat l.text = none := strstr_eq_none.2 fun hin => h ⟨hne, hin⟩

@[simp] theorem notOnLine_passes_iff {pat : List Char} {l : Line} :
    (notOnLine pat).passes l.text = true ↔ ¬ l.Contains pat := by
  rw [← onLine_passes, Bool.not_eq_true, ← Bool.not_eq_true']
  rfl

theorem notOnLine_isFilter (pat : List Char) : (notOnLine pat).IsFilter := .inr rfl

/-- The word behind a pattern a line begins with. -/
theorem afterName_word {name : List Char} (hne : name ≠ []) (hname : nameCase name = name) {r : VlanRow}
    {v : VlanId × List Word} (hv : r.vlan = some v) {gap : List Char} (hlead : r.lead = name ++ gap)
    (hgap : ∀ c ∈ gap, isBlank c = true) : (afterName name).word r.line.text = some v.1.text := by
  have hfind : strstr name r.line.text =
      some (name ++ (gap ++ ' ' :: (v.1.text ++ v.2.flatMap fun w => ' ' :: w.text))) := by
    rw [VlanRow.text_of hv, hlead, List.append_assoc]
    exact strstr_append (s := []) fun t ht ht' => absurd (List.suffix_nil.1 ht) ht'
  rw [afterName, ParserSpec.word, hname]
  simp only [hne, if_false, hfind, Option.map_some, List.drop_left]
  rw [nextWord_vlan hgap]

theorem filterMap_vlanRows {β : Type} {rows : List VlanRow} {f : VlanRow → Option β}
    (h : ∀ r ∈ rows, r.vlan = none → f r = none) : rows.filterMap f = (vlanRows rows).filterMap f := by
  rw [vlanRows, List.filterMap_filter]
  refine List.filterMap_congr fun r hr => ?_
  cases hv : r.vlan with
  | none => exact h r hr hv
  | some v => rfl

theorem idsOf_vlanRows (rows : List VlanRow) : idsOf (vlanRows rows) = idsOf rows :=
  (filterMap_vlanRows fun r _ h => by rw [h]; rfl).symm

theorem nextWord_blanks {s : List Char} (h : ∀ c ∈ s, isBlank c = true) : nextWord s = [] := by
  rw [nextWord, List.dropWhile_eq_nil_iff.2 h, List.takeWhile_nil]

theorem vlan_of_mem_vlanRows {rows : List VlanRow} {r : VlanRow} (h : r ∈ vlanRows rows) : ∃ v, r.vlan = some v :=
  Option.isSome_iff_exists.1 (List.mem_filter.1 h).2

/-- All texts of some rows with VLANs. -/
theorem filterMap_texts {rows : List VlanRow} (hsome : ∀ r ∈ rows, ∃ v, r.vlan = some v)
    {f : VlanRow → Option (List Char)} (hf : ∀ r ∈ rows, ∀ v, r.vlan = some v → f r = some v.1.text) :
    rows.filterMap f = (idsOf rows).map VlanId.text := by
  rw [idsOf, List.map_filterMap]
  refine List.filterMap_congr fun r hr => ?_
  obtain ⟨v, hv⟩ := hsome r hr
  rw [hf r hr v hv, hv]
  rfl

/-- The lines with VLANs: none, or the one behind the name and then those behind blanks. -/
theorem VlanReport.lines_cases {name : List Char} (report : VlanReport name) :
    (vlanRows report.rows = [] ∧ report.ids = []) ∨
      ∃ r v gap rest, vlanRows report.rows = r :: rest ∧ report.ids = v.1 :: idsOf rest ∧ r.vlan = some v ∧
        (r.lead = name ++ gap ∧ ∀ c ∈ gap, isBlank c = true) ∧
        ∀ r' ∈ rest, (∃ v', r'.vlan = some v') ∧ (∀ c ∈ r'.lead, isBlank c = true) ∧ ¬ r'.line.Contains name ∧
          ¬ r'.line.Contains BASE_PORT_STR.toList := by
  have hnamed := report.named
  have hunnamed := report.unnamed
  have hsome : ∀ r ∈ vlanRows report.rows, ∃ v, r.vlan = some v := fun r => vlan_of_mem_vlanRows
  rw [VlanReport.ids, ← idsOf_vlanRows]
  cases hrows : vlanRows report.rows with
  | nil => exact .inl ⟨rfl, rfl⟩
  | cons r rest =>
    rw [hrows] at hnamed hunnamed hsome
    obtain ⟨gap, hlead⟩ := hnamed r rfl
    obtain ⟨⟨v, hv⟩, hsome⟩ := List.forall_mem_cons.1 hsome
    have hids : idsOf (r :: rest) = v.1 :: idsOf rest := List.filterMap_cons_some (by rw [hv]; rfl)
    exact .inr ⟨r, v, gap, rest, rfl, hids, hv, hlead, fun r' hr' => ⟨hsome r' hr', hunnamed r' hr'⟩⟩

section Report

variable {name : List Char} (hne : name ≠ []) (hname : nameCase name = name) (report : VlanReport name)
include hne hname

/-- The word behind the name is the first VLAN. -/
theorem VlanReport.captures_byName :
    captures [] (afterName name) (piecesOf (vlanOutput report.rows)) = (report.ids.take 1).map VlanId.text := by
  have hmiss : ∀ r : VlanRow, ¬ r.line.Contains name → capture [] (afterName name) r.line.text = none := by
    intro r hr
    rw [capture, afterName, ParserSpec.word, hname]
    simp only [strstr_of_not_contains hne hr, Option.map_none, ite_self, Option.filter_none]
  rw [vlanOutput, captures_outputOf, List.filterMap_map, Function.comp_def,
    filterMap_vlanRows fun r hr hv => hmiss r (report.titles r hr hv).1]
  rcases report.lines_cases with ⟨hrows, hids⟩ | ⟨r, v, gap, rest, hrows, hids, hv, ⟨hlead, hgap⟩, hrest⟩
  · rw [hrows, hids]
    rfl
  · have hfirst : capture [] (afterName name) r.line.text = some v.1.text := by
      rw [capture, List.all_nil, if_pos rfl, afterName_word hne hname hv hlead hgap,
        Option.filter_some_pos (by simpa using v.1.text_ne_nil)]
    have hothers : rest.filterMap (fun r => capture [] (afterName name) r.line.text) = [] :=
      List.filterMap_eq_nil_iff.2 fun r' hr' => hmiss r' (hrest r' hr').2.2.1
    rw [hrows, hids]
    simp only [List.filterMap_cons, hfirst, hothers]
    rfl

/-- The first words of the other lines are the other VLANs. -/
theorem VlanReport.captures_withoutName :
    captures [notOnLine (nameCase name), notOnLine BASE_PORT_STR.toList] firstWord (piecesOf (vlanOutput report.rows)) =
      (report.ids.drop 1).map VlanId.text := by
  have hskip : ∀ r : VlanRow, r.line.Contains name ∨ r.line.Contains BASE_PORT_STR.toList →
      capture [notOnLine name, notOnLine BASE_PORT_STR.toList] firstWord r.line.text = none := by
    intro r hr
    rw [capture, if_neg]
    simp only [List.all_cons, List.all_nil, Bool.and_true, Bool.and_eq_true, notOnLine_passes_iff]
    exact fun h => hr.elim h.1 h.2
  have hblank : ∀ r : VlanRow, (∀ c ∈ r.line.text, isBlank c = true) →
      capture [notOnLine name, notOnLine BASE_PORT_STR.toList] firstWord r.line.text = none := by
    intro r hr
    rw [capture, firstWord, ParserSpec.word, nextWord_blanks hr]
    exact ite_self _
  rw [hname, vlanOutput, captures_outputOf, List.filterMap_map, Function.comp_def,
    filterMap_vlanRows fun r hr hv => (report.titles r hr hv).2.elim (fun h => hskip r (.inr h)) (hblank r)]
  rcases report.lines_cases with ⟨hrows, hids⟩ | ⟨r, v, gap, rest, hrows, hids, hv, ⟨hlead, -⟩, hrest⟩
  · rw [hrows, hids]
    rfl
  · have hfirst : r.line.Contains name :=
      ⟨hne, by rw [VlanRow.text_of hv, hlead, List.append_assoc]; exact (List.prefix_append ..).isInfix⟩
    rw [hrows, hids]
    simp only [List.filterMap_cons, hskip r (.inl hfirst), List.drop_one, List.tail_cons]
    refine filterMap_texts (fun r' hr' => (hrest r' hr').1) fun r' hr' v' hv' => ?_
    obtain ⟨-, hblanks, hnoName, hnoPort⟩ := hrest r' hr'
    have hpass : [notOnLine name, notOnLine BASE_PORT_STR.toList].all (·.passes r'.line.text) = true := by
      simp only [List.all_cons, List.all_nil, Bool.and_true, Bool.and_eq_true, notOnLine_passes_iff]
      exact ⟨hnoName, hnoPort⟩
    rw [capture, if_pos hpass, firstWord, ParserSpec.word, VlanRow.text_of hv', nextWord_vlan hblanks,
      Option.filter_some_pos (by simpa using v'.1.text_ne_nil)]

end Report

/-! ## The VLANs of a port -/

/-- A lookup of words that are short enough. -/
theorem getObject_uniq_short {filters : List ParserSpec} {p : ParserSpec} (hf : ∀ f ∈ filters, f.IsFilter)
    (hp : p.TakesWord) {sh : Shape} (hcopy : sh.rowNum * sh.colNum ≤ BASE_MAX_ROW_NUM * BASE_MAX_COL_NUM)
    {text : List Char} {words : Matrix} (hwords : captures filters p (piecesOf text) = words)
    (hlen : ∀ w ∈ words, w.length < sh.colNum) (hfit : words.length ≤ sh.rowNum) :
    getObject [(some .repeatUntilNullWithCheck, filters ++ [p]), (some .noCombinator, single .arrayUniqElements "")]
        sh (some text) = .ok (EXIT_SUCCESS, filled sh.rowNum words.eraseDups) := by
  subst hwords
  obtain ⟨status, hst, heq⟩ := getObject_words hf hp hfit [(some .noCombinator, single .arrayUniqElements "")]
  rw [heq, map_take_of_short fun w hw => (hlen w hw).le]
  refine combinatorComb_last hst ?_
  rw [Callback.run, arrayUniqElements_eq hcopy, takeWhile_filled captures_ne_nil,
    map_take_of_short fun w hw => Nat.le_sub_one_of_lt (hlen w (List.mem_eraseDups.1 hw))]
  rfl

theorem headD_filled (n : Nat) (texts : Matrix) : (filled n texts).headD [] = texts.headD [] := by
  cases texts with
  | nil => cases n <;> rfl
  | cons t texts => rfl

theorem take_filled {m n : Nat} {texts : Matrix} (hroom : texts.length ≤ m) (hmn : m ≤ n) :
    (filled n texts).take m = filled m texts := by
  rw [filled, filled, List.take_append, List.take_of_length_le hroom, List.take_replicate]
  congr 2
  omega

theorem headD_cons_filled {n : Nat} (hpos : 0 < n) (texts : Matrix) :
    texts.headD [] :: filled (n - 1) texts.tail = filled n texts := by
  obtain ⟨n, rfl⟩ : ∃ k, n = k + 1 := ⟨n - 1, by omega⟩
  cases texts with
  | nil => exact List.replicate_succ.symm
  | cons t texts => exact (filled_cons (n + 1) t texts).symm

theorem vlansShape_copy :
    vlansShape.rowNum * vlansShape.colNum ≤ BASE_MAX_ROW_NUM * BASE_MAX_COL_NUM := by decide

theorem ids_nodup {ids : List VlanId} (hproper : ∀ id ∈ ids, id.Proper) (h : (ids.flatMap VlanId.vids).Nodup) :
    ids.Nodup := by
  induction ids with
  | nil => exact List.nodup_nil
  | cons id ids ih =>
    rw [List.forall_mem_cons] at hproper
    rw [List.flatMap_cons, List.nodup_append'] at h
    refine List.nodup_cons.2 ⟨fun hin => ?_, ih hproper.2 h.2.1⟩
    obtain ⟨v, hv⟩ := List.exists_mem_of_ne_nil _ hproper.1.1
    exact h.2.2 hv (List.mem_flatMap.2 ⟨id, hin, hv⟩)

/-- **A port's rows are its VLANs, in the order of the report.** -/
theorem getPortVlansByName_eq {name : List Char} (hne : name ≠ []) (hname : nameCase name = name)
    (report : VlanReport name) {sh : Shape} (hsh : sh = vlansShape) (result : Matrix) :
    getPortVlansByName sh name (some (vlanOutput report.rows)) result =
      .ok (EXIT_SUCCESS, filled BASE_MAX_VID (report.ids.map VlanId.text)) := by
  subst hsh
  have hcount : report.ids.length ≤ 4094 := length_ids_le report.proper report.nodup
  have hshort : ∀ ids, ids ⊆ report.ids → ∀ w ∈ ids.map VlanId.text, w.length < vlansShape.colNum := by
    intro ids hids w hw
    obtain ⟨id, hid, rfl⟩ := List.mem_map.1 hw
    exact Nat.lt_succ_of_le (report.proper id (hids hid)).length_text
  have hnodup : (report.ids.map VlanId.text).Nodup :=
    (ids_nodup report.proper report.nodup).map VlanId.text_injective
  have hrows : vlansShape.rowNum = BASE_MAX_VID := rfl
  have hvid : BASE_MAX_VID = 4096 := rfl
  have hnone : ∀ f ∈ ([] : List ParserSpec), f.IsFilter := fun _ h => absurd h List.not_mem_nil
  have hfirst := getObject_uniq_short hnone
    (.inr rfl : (afterName name).TakesWord) vlansShape_copy (report.captures_byName hne hname)
    (hshort _ (List.take_subset 1 _)) (by rw [List.length_map, List.length_take]; omega)
  have hrest := getObject_uniq_short
    (by simpa using ⟨notOnLine_isFilter (nameCase name), notOnLine_isFilter BASE_PORT_STR.toList⟩)
    (.inl rfl : firstWord.TakesWord) vlansShape_copy (report.captures_withoutName hne hname)
    (hshort _ (List.drop_subset 1 _)) (by rw [List.length_map, List.length_drop]; omega)
  rw [eraseDups_of_nodup (hnodup.sublist ((List.take_sublist 1 _).map _))] at hfirst
  rw [eraseDups_of_nodup (hnodup.sublist ((List.drop_sublist 1 _).map _))] at hrest
  rw [getPortVlansByName, if_pos ⟨le_rfl, le_rfl⟩, if_neg (Nat.lt_irrefl _), portVlansByName, hfirst,
    portVlansWithoutName, hrest]
  simp only [bind, Except.bind, if_true, hrows]
  have hhead : ((report.ids.take 1).map VlanId.text).headD [] = (report.ids.map VlanId.text).headD [] := by
    cases report.ids <;> rfl
  rw [headD_filled, take_filled (by rw [List.length_map, List.length_drop]; omega) (Nat.sub_le _ _), hhead,
    List.drop_one, List.map_tail, headD_cons_filled (by decide)]

/-! ## The rows of all ports -/

/-- The array when `texts` have been put to its first rows. -/
def overwritten (array texts : Matrix) : Matrix := texts ++ array.drop texts.length

theorem overwritten_set {array texts : Matrix} (hroom : texts.length < array.length) (t : List Char) :
    (overwritten array texts).set texts.length t = overwritten array (texts ++ [t]) := by
  obtain ⟨row, rest, hdrop⟩ : ∃ row rest, array.drop texts.length = row :: rest :=
    List.exists_cons_of_ne_nil (List.drop_eq_nil_iff.not.2 (Nat.not_le.2 hroom))
  have hrest : array.drop (texts.length + 1) = rest := by
    rw [← List.drop_drop, hdrop, List.drop_one, List.tail_cons]
  rw [overwritten, overwritten, hdrop, List.set_append_right _ _ le_rfl, Nat.sub_self, List.set_cons_zero,
    List.length_append, List.length_singleton, hrest, List.append_assoc, List.singleton_append]

theorem addPortVlans_filled {sh : Shape} {array : Matrix} (harray : array.length = sh.rowNum) (n : Nat)
    {texts new : Matrix} (hne : ∀ t ∈ new, t ≠ []) (hroom : texts.length ≤ sh.rowNum) :
    addPortVlans sh (filled n new) texts.length (overwritten array texts) =
      if (texts ++ new).length ≤ sh.rowNum then .ok ((texts ++ new).length, overwritten array (texts ++ new))
      else .error .write := by
  induction new generalizing n texts with
  | nil =>
    rw [List.append_nil, if_pos hroom]
    cases n with
    | zero => rfl
    | succ n => rw [filled, List.nil_append, List.length_nil, Nat.sub_zero, List.replicate_succ, addPortVlans, if_pos rfl]
  | cons t new ih =>
    rw [List.forall_mem_cons] at hne
    rw [filled_cons, addPortVlans, if_neg hne.1]
    by_cases h : texts.length < sh.rowNum
    · have hlen : (texts ++ [t]).length = texts.length + 1 := List.length_append
      have hroom' : (texts ++ [t]).length ≤ sh.rowNum := by omega
      have hstep := ih (n - 1) hne.2 hroom'
      rw [hlen] at hstep
      rw [if_pos h, overwritten_set (by omega), hstep, List.append_assoc, List.singleton_append]
    · rw [if_neg h, if_neg (by rw [List.length_append, List.length_cons]; omega)]

/-- **The rows of the ports stand one behind the other, as long as the array
has rows.** -/
theorem bridgeVlansLoop_filled {sh : Shape} {array : Matrix} (harray : array.length = sh.rowNum)
    {vlanShow : List Char → Option (List Char)} {vlans : List Char → Matrix} (n : Nat) {names texts : Matrix}
    (hport : ∀ name ∈ names, name ≠ [] ∧ (∀ t ∈ vlans name, t ≠ []) ∧
      getPortVlansByName sh name (vlanShow name) (zeros vlansShape) =
        .ok (EXIT_SUCCESS, filled BASE_MAX_VID (vlans name)))
    (hroom : texts.length ≤ sh.rowNum) :
    bridgeVlansLoop sh vlanShow (filled n names) texts.length (overwritten array texts) =
      if (texts ++ names.flatMap vlans).length ≤ sh.rowNum then .ok (overwritten array (texts ++ names.flatMap vlans))
      else .error .write := by
  induction names generalizing n texts with
  | nil =>
    rw [List.flatMap_nil, List.append_nil, if_pos hroom]
    cases n with
    | zero => rfl
    | succ n =>
      rw [filled, List.nil_append, List.length_nil, Nat.sub_zero, List.replicate_succ, bridgeVlansLoop, if_pos rfl]
  | cons name names ih =>
    rw [List.forall_mem_cons] at hport
    obtain ⟨⟨hname, hne, hget⟩, hport⟩ := hport
    have hdiff : ¬ EXIT_SUCCESS = EXIT_FAILURE := by decide
    rw [filled_cons, bridgeVlansLoop, if_neg hname, hget, List.flatMap_cons, ← List.append_assoc]
    simp only [bind, Except.bind, hdiff, if_false, addPortVlans_filled harray _ hne hroom]
    by_cases h : (texts ++ vlans name).length ≤ sh.rowNum
    · rw [if_pos h]
      exact ih (n - 1) hport h
    · rw [if_neg h, if_neg (by rw [List.length_append]; omega)]

/-! ## The names of the ports -/

theorem afterColon_word (r : LinkRow) : afterColon.word r.line.text = some r.label.text := by
  have htext : r.line.text = Nat.toDigits 10 r.index ++ (COLON_STR.toList ++ ' ' :: (r.label.text ++ ' ' :: r.rest)) := by
    rw [r.printed, LinkRow.label]
    simp [COLON_STR]
  have hfind : strstr COLON_STR.toList r.line.text =
      some (COLON_STR.toList ++ ' ' :: (r.label.text ++ ' ' :: r.rest)) := by
    rw [htext]
    refine strstr_append fun t ht hne hpre => ?_
    -- A number does not begin with a colon.
    obtain ⟨c, t, rfl⟩ := List.exists_cons_of_ne_nil hne
    obtain ⟨s, hs⟩ := hpre
    have hc : ':' = c := (List.cons.inj hs).1
    have hdigit := isDigit_toDigits r.index c (ht.subset (List.mem_cons_self ..))
    rw [← hc] at hdigit
    revert hdigit
    decide
  rw [afterColon, ParserSpec.word, hfind, Option.map_some, List.drop_left, nextWord_blank]
  rfl

theorem captures_afterColon (ports : List LinkRow) :
    captures [] afterColon (piecesOf (linkOutput ports)) = ports.map fun r => r.label.text := by
  rw [linkOutput, captures_outputOf, List.filterMap_map, ← List.filterMap_eq_map]
  refine List.filterMap_congr fun r _ => ?_
  rw [Function.comp, capture, List.all_nil, if_pos rfl, afterColon_word,
    Option.filter_some_pos (by simpa using r.label.ne_nil)]
  rfl

theorem LinkRow.shown_of_bare {r : LinkRow} (h : ∀ c ∈ r.name.text, isPunct c = false) : r.shown = r.name.text :=
  List.filter_eq_self.2 fun c hc => by rw [h c hc]; rfl

theorem portsShape_holds : portsShape.HoldsLines := ⟨le_rfl, by decide⟩

/-- The names without punctuation. -/
theorem getBridgePortNames_eq (b : Bridge) :
    getBridgePortNames portsShape (some (linkOutput b.ports)) =
      if b.ports.length ≤ MAX_NUM_OF_INTERFACES then
        .ok (EXIT_SUCCESS, filled MAX_NUM_OF_INTERFACES (b.ports.map (·.name.text)))
      else .error .write := by
  have hf : ∀ f ∈ ([] : List ParserSpec), f.IsFilter := fun _ h => absurd h List.not_mem_nil
  have hp : afterColon.TakesWord := .inr rfl
  have hcap := captures_afterColon b.ports
  have hlen : ∀ t ∈ b.ports.map fun r => r.label.text, t.length < MAX_STR_LEN := by
    rw [← hcap]
    exact captures_length
  rw [getBridgePortNames]
  by_cases hfit : b.ports.length ≤ MAX_NUM_OF_INTERFACES
  · have hroom : (captures [] afterColon (piecesOf (linkOutput b.ports))).length ≤ portsShape.rowNum := by
      rw [hcap, List.length_map]
      exact hfit
    obtain ⟨status, hst, heq⟩ := getObject_words hf hp hroom
      [(some .noCombinator, single .arrayDropPunctuation ""), (some .noCombinator, single .arrayUniqElements "")]
    rw [captures_take portsShape_holds.1, hcap] at heq
    have hne : ∀ t ∈ b.ports.map fun r => r.label.text, t ≠ [] := by
      simp only [List.forall_mem_map]
      exact fun r _ => r.label.ne_nil
    have hshown : (b.ports.map fun r => r.label.text).map (fun t => t.filter fun c => !isPunct c) =
        b.ports.map (·.name.text) := by
      rw [List.map_map]
      exact List.map_congr_left fun r hr => by rw [Function.comp, r.label_shown, LinkRow.shown_of_bare (b.bare r hr)]
    have hnames : ∀ t ∈ b.ports.map (·.name.text), t.length < portsShape.colNum := by
      rw [← hshown]
      simp only [List.forall_mem_map] at hlen ⊢
      exact fun r hr => (List.length_filter_le _ _).trans_lt (hlen r hr)
    have hwords : ∀ t ∈ b.ports.map (·.name.text), t ≠ [] := by
      simp only [List.forall_mem_map]
      exact fun r _ => r.name.ne_nil
    obtain ⟨status', hst', hdrop⟩ := arrayDropPunctuation_filled portsShape (n := portsShape.rowNum) hne hlen
    have hrun : Callback.run "".toList portsShape ⟨[], filled portsShape.rowNum (b.ports.map fun r => r.label.text)⟩
        .arrayDropPunctuation = .ok (status', ⟨[], filled portsShape.rowNum (b.ports.map (·.name.text))⟩) := by
      rw [Callback.run, hdrop, hshown]
      rfl
    have hjoin := hst.or hst'
    rw [if_pos hfit, heq, combinatorComb_single, hrun]
    simp only [Except.bind, hjoin.1, Bool.false_eq_true, if_false]
    refine combinatorComb_last hjoin ?_
    rw [Callback.run, arrayUniqElements_eq portsShape_holds.2, takeWhile_filled hwords, eraseDups_of_nodup b.nodup,
      map_take_of_short fun t ht => Nat.le_sub_one_of_lt (hnames t ht)]
    rfl
  · rw [if_neg hfit]
    refine getObject_overrun hf hp ?_ _
    rw [hcap, List.length_map]
    exact hfit

/-! ## All VLANs -/

/-- What is left when the rows have been made unique. -/
theorem uniq_overwritten {array texts : Matrix} (hne : ∀ t ∈ texts, t ≠ []) :
    ((overwritten array texts).takeWhile (· ≠ [])).eraseDups =
      texts.eraseDups ++ (((array.drop texts.length).takeWhile (· ≠ [])).removeAll texts).eraseDups := by
  rw [overwritten, List.takeWhile_append_of_pos (by simpa using hne), List.eraseDups_append]

/-- The texts of `ids` and more are those of all VLANs exactly if there are no
more, and the VLANs do not overlap. -/
theorem ids_of_texts {ids ids' : List VlanId} (hproper : ∀ id ∈ ids', id.Proper) {more : Matrix}
    (htexts : ids'.map VlanId.text = ids.eraseDups.map VlanId.text ++ more)
    (hvids : ids'.flatMap VlanId.vids = (ids.flatMap VlanId.vids).eraseDups) :
    more = [] ∧ (ids.eraseDups.flatMap VlanId.vids).Nodup := by
  obtain ⟨same, extra, rfl, hsame, rfl⟩ := List.map_eq_append_iff.1 htexts
  rw [(List.map_injective_iff.2 VlanId.text_injective) hsame, List.flatMap_append] at hvids
  have hnodup := nodup_eraseDups (ids.flatMap VlanId.vids)
  rw [← hvids, List.nodup_append'] at hnodup
  rw [eraseDups_flatMap, eraseDups_of_nodup hnodup.1, List.append_right_eq_self, List.flatMap_eq_nil_iff] at hvids
  refine ⟨?_, hnodup.1⟩
  cases extra with
  | nil => rfl
  | cons id extra =>
    exact absurd (hvids id (List.mem_cons_self ..)) (hproper id (List.mem_append_right _ (List.mem_cons_self ..))).1

theorem Bridge.proper {b : Bridge} {compressed : Bool} : ∀ id ∈ b.ids compressed, id.Proper := by
  intro id hid
  obtain ⟨r, -, hid⟩ := List.mem_flatMap.1 hid
  exact (b.report compressed r.name.text).proper id hid

/-- A VLAN stands for some VID. -/
theorem flatMap_vids_eq_nil {ids : List VlanId} (hproper : ∀ id ∈ ids, id.Proper) :
    ids.flatMap VlanId.vids = [] ↔ ids = [] := by
  refine ⟨fun h => List.eq_nil_iff_forall_not_mem.2 fun id hid => ?_, by rintro rfl; rfl⟩
  exact (hproper id hid).1 (List.flatMap_eq_nil_iff.1 h id hid)

/-- The names are short enough for a match case. -/
theorem LinkRow.nameCase_name (r : LinkRow) : nameCase r.name.text = r.name.text := by
  have hfits := r.line.fits
  simp only [r.printed, List.length_append, List.length_cons] at hfits
  exact List.take_of_length_le (by omega)

/-- The one shape that the lookups of ports neither refuse nor overrun. -/
theorem eq_vlansShape {sh : Shape} (hsmall : ¬ sh.TooSmall)
    (hcopy : sh.rowNum * sh.colNum ≤ vlansShape.rowNum * vlansShape.colNum) : sh = vlansShape := by
  obtain ⟨rowNum, colNum, hrow, hcol⟩ := sh
  rw [Shape.TooSmall, not_or, Nat.not_lt, Nat.not_lt] at hsmall
  simp only [vlansShape, BASE_MAX_VID, BASE_TEN] at hsmall hcopy ⊢
  have hc : colNum ≤ 10 := by
    have := Nat.mul_le_mul_right colNum hsmall.1
    omega
  have hr : rowNum ≤ 4096 := by
    have := Nat.mul_le_mul_left rowNum hsmall.2
    omega
  congr
  · omega
  · omega

section All

variable {b : Bridge} {sh : Shape} {compressed : Bool} {array : CallerArray sh}

theorem loop_ports (hsh : b.ports ≠ [] → sh = vlansShape) :
    bridgeVlansLoop sh (b.vlanShow compressed) (filled MAX_NUM_OF_INTERFACES (b.ports.map (·.name.text))) 0 array.rows =
      if (b.ids compressed).length ≤ sh.rowNum then
        .ok (overwritten array.rows ((b.ids compressed).map VlanId.text))
      else .error .write := by
  have hport : ∀ name ∈ b.ports.map (·.name.text), name ≠ [] ∧
      (∀ t ∈ (b.report compressed name).ids.map VlanId.text, t ≠ []) ∧
      getPortVlansByName sh name (b.vlanShow compressed name) (zeros vlansShape) =
        .ok (EXIT_SUCCESS, filled BASE_MAX_VID ((b.report compressed name).ids.map VlanId.text)) := by
    intro name hname
    obtain ⟨r, hr, rfl⟩ := List.mem_map.1 hname
    refine ⟨r.name.ne_nil, ?_, getPortVlansByName_eq r.name.ne_nil r.nameCase_name _ (hsh (List.ne_nil_of_mem hr)) _⟩
    simp only [List.forall_mem_map]
    exact fun id _ => id.text_ne_nil
  have hroom : ([] : Matrix).length ≤ sh.rowNum := Nat.zero_le _
  have h := bridgeVlansLoop_filled array.length_rows MAX_NUM_OF_INTERFACES hport hroom
  have hall : (b.ports.map (·.name.text)).flatMap (fun name => (b.report compressed name).ids.map VlanId.text) =
      (b.ids compressed).map VlanId.text := by
    rw [List.flatMap_map, Bridge.ids, List.map_flatMap]
  rw [List.nil_append, hall, List.length_map] at h
  exact h

/-- No port is looked at when the first one is refused. -/
theorem loop_tooSmall (hne : b.ports ≠ []) (hsmall : sh.TooSmall) :
    bridgeVlansLoop sh (b.vlanShow compressed) (filled MAX_NUM_OF_INTERFACES (b.ports.map (·.name.text))) 0 array.rows =
      .ok (zeros sh) := by
  obtain ⟨r, ports, hports⟩ := List.exists_cons_of_ne_nil hne
  have hno : ¬ (BASE_MAX_VID ≤ sh.rowNum ∧ BASE_TEN ≤ sh.colNum) := fun h =>
    hsmall.elim (Nat.not_lt.2 h.1) (Nat.not_lt.2 h.2)
  rw [hports, List.map_cons, filled_cons, bridgeVlansLoop, if_neg r.name.ne_nil, getPortVlansByName, if_neg hno]
  rfl

theorem loop_overrun (hne : b.ports ≠ []) (hsmall : ¬ sh.TooSmall)
    (hcopy : ¬ sh.rowNum * sh.colNum ≤ vlansShape.rowNum * vlansShape.colNum) :
    bridgeVlansLoop sh (b.vlanShow compressed) (filled MAX_NUM_OF_INTERFACES (b.ports.map (·.name.text))) 0 array.rows =
      .error .copy := by
  obtain ⟨r, ports, hports⟩ := List.exists_cons_of_ne_nil hne
  have hyes : BASE_MAX_VID ≤ sh.rowNum ∧ BASE_TEN ≤ sh.colNum := by
    rw [Shape.TooSmall, not_or, Nat.not_lt, Nat.not_lt] at hsmall
    exact hsmall
  rw [hports, List.map_cons, filled_cons, bridgeVlansLoop, if_neg r.name.ne_nil, getPortVlansByName, if_pos hyes,
    if_pos (Nat.not_le.1 hcopy)]
  rfl

/-- The whole, from the loop over the ports. -/
theorem getBridgeVlans_eq (hports : b.ports.length ≤ MAX_NUM_OF_INTERFACES) {loop : Except Overrun Matrix}
    (hloop : bridgeVlansLoop sh (b.vlanShow compressed)
      (filled MAX_NUM_OF_INTERFACES (b.ports.map (·.name.text))) 0 array.rows = loop) :
    getBridgeVlans sh compressed (some (linkOutput b.ports)) b.vlanShow array.rows =
      loop.bind fun rows => (arrayUniqElements sh rows).map fun r => (EXIT_SUCCESS, r.2) := by
  rw [getBridgeVlans, getBridgePortNames_eq, if_pos hports]
  simp only [bind, Except.bind, if_true, hloop]
  cases loop with
  | error e => rfl
  | ok rows => cases h : arrayUniqElements sh rows <;> simp [h, Except.map]

/-- What the array has to do with the VLANs when the loop has come through. -/
theorem ok_iff_of_overwritten (hports : b.ports.length ≤ MAX_NUM_OF_INTERFACES)
    (hcopy : sh.rowNum * sh.colNum ≤ BASE_MAX_ROW_NUM * BASE_MAX_COL_NUM)
    (hshort : ∀ t ∈ (b.ids compressed).map VlanId.text, t.length ≤ sh.colNum - 1)
    (hloop : bridgeVlansLoop sh (b.vlanShow compressed)
      (filled MAX_NUM_OF_INTERFACES (b.ports.map (·.name.text))) 0 array.rows =
        .ok (overwritten array.rows ((b.ids compressed).map VlanId.text))) :
    BridgeVlansOk b sh compressed array ↔
      (∀ row ∈ (array.rows.drop (b.ids compressed).length).takeWhile (· ≠ []),
          row ∈ (b.ids compressed).map VlanId.text) ∧
        ((b.ids compressed).eraseDups.flatMap VlanId.vids).Nodup := by
  obtain ⟨ids, hids⟩ : ∃ ids, b.ids compressed = ids := ⟨_, rfl⟩
  have hproper : ∀ id ∈ ids, id.Proper := hids ▸ Bridge.proper
  rw [hids] at hshort hloop ⊢
  obtain ⟨old, hold⟩ : ∃ old, (array.rows.drop ids.length).takeWhile (· ≠ []) = old := ⟨_, rfl⟩
  have holdNe : ∀ row ∈ old, row ≠ [] := by
    intro row hrow
    rw [← hold] at hrow
    simpa using List.mem_takeWhile_imp hrow
  have htextNe : ∀ t ∈ ids.map VlanId.text, t ≠ [] := by
    simp only [List.forall_mem_map]
    exact fun id _ => id.text_ne_nil
  obtain ⟨more, hmore⟩ : ∃ more, (old.removeAll (ids.map VlanId.text)).eraseDups.map (·.take (sh.colNum - 1)) = more :=
    ⟨_, rfl⟩
  have hmoreNe : ∀ row ∈ more, row ≠ [] := by
    rw [← hmore]
    simp only [List.forall_mem_map]
    intro row hrow
    have hroom := array.room
    rw [ne_eq, List.take_eq_nil_iff, not_or]
    exact ⟨by omega, holdNe row (List.mem_filter.1 (List.mem_eraseDups.1 hrow)).1⟩
  have hsame := eraseDups_map VlanId.text_injective ids
  have hcut : (ids.eraseDups.map VlanId.text).map (·.take (sh.colNum - 1)) = ids.eraseDups.map VlanId.text :=
    map_take_of_short fun t ht => hshort t (by rw [← hsame] at ht; exact List.mem_eraseDups.1 ht)
  have huniq : arrayUniqElements sh (overwritten array.rows (ids.map VlanId.text)) =
      .ok (BASE_PARSING_SUCCEEDED, filled sh.rowNum (ids.eraseDups.map VlanId.text ++ more)) := by
    rw [arrayUniqElements_eq hcopy, uniq_overwritten htextNe, List.length_map, hold, hsame, List.map_append, hcut, hmore]
  have hwhile : (filled sh.rowNum (ids.eraseDups.map VlanId.text ++ more)).takeWhile (· ≠ []) =
      ids.eraseDups.map VlanId.text ++ more := by
    refine takeWhile_filled ?_
    rw [List.forall_mem_append]
    exact ⟨fun t ht => htextNe t (by rw [← hsame] at ht; exact List.mem_eraseDups.1 ht), hmoreNe⟩
  have hnone : more = [] ↔ ∀ row ∈ old, row ∈ ids.map VlanId.text := by
    rw [← hmore, List.map_eq_nil_iff, eraseDups_eq_nil, removeAll_eq_nil]
  rw [hold, ← hnone, BridgeVlansOk, getBridgeVlans_eq hports hloop, hids]
  simp only [Except.bind, huniq, Except.map, Except.ok.injEq, Prod.mk.injEq, true_and, exists_eq_left', hwhile]
  constructor
  · rintro ⟨ids', hproper', htexts, hvids⟩
    exact ids_of_texts hproper' htexts.symm hvids
  · rintro ⟨rfl, hnodup⟩
    refine ⟨ids.eraseDups, fun id hid => hproper id (List.mem_eraseDups.1 hid), List.append_nil _, ?_⟩
    rw [eraseDups_flatMap, eraseDups_of_nodup hnodup]

end All

/-- **The VLANs of a bridge come out exactly if there are rows for those of
all ports together.** -/
theorem bridgeVlans_iff (b : Bridge) (sh : Shape) (compressed : Bool) (array : CallerArray sh) :
    BridgeVlansOk b sh compressed array ↔ b.Fits sh compressed array := by
  rw [Bridge.Fits]
  by_cases hports : b.ports.length ≤ MAX_NUM_OF_INTERFACES
  swap
  · refine iff_of_false ?_ fun h => hports h.1
    rintro ⟨rows, hrows, -⟩
    rw [getBridgeVlans, getBridgePortNames_eq, if_neg hports] at hrows
    cases hrows
  by_cases hcopy : sh.rowNum * sh.colNum ≤ BASE_MAX_ROW_NUM * BASE_MAX_COL_NUM
  swap
  · refine iff_of_false ?_ fun h => hcopy h.2.1
    rintro ⟨rows, hrows, -⟩
    rw [getBridgeVlans_eq hports rfl] at hrows
    cases hloop : bridgeVlansLoop sh (b.vlanShow compressed)
        (filled MAX_NUM_OF_INTERFACES (b.ports.map (·.name.text))) 0 array.rows with
    | error e => rw [hloop] at hrows; cases hrows
    | ok loop =>
      rw [hloop, Except.bind, arrayUniqElements, if_pos (Nat.not_le.1 hcopy)] at hrows
      cases hrows
  rw [and_iff_right hports, and_iff_right hcopy]
  by_cases hrefused : b.ports ≠ [] ∧ sh.TooSmall
  · rw [if_pos hrefused, BridgeVlansOk, getBridgeVlans_eq hports (loop_tooSmall hrefused.1 hrefused.2)]
    have hzeros : (zeros sh).takeWhile (· ≠ []) = [] := by
      rw [← filled_nil, takeWhile_filled_any, List.takeWhile_nil]
    simp only [Except.bind, arrayUniqElements_eq hcopy, hzeros, Except.map, Except.ok.injEq, Prod.mk.injEq, true_and,
      exists_eq_left', List.eraseDups_nil, List.map_nil, filled_nil]
    rw [← flatMap_vids_eq_nil Bridge.proper, ← eraseDups_eq_nil]
    constructor
    · rintro ⟨ids, -, htexts, hvids⟩
      rw [← hvids, List.map_eq_nil_iff.1 htexts.symm, List.flatMap_nil]
    · exact fun h => ⟨[], fun _ h => absurd h List.not_mem_nil, rfl, h.symm⟩
  rw [if_neg hrefused]
  by_cases hlocal : b.ports ≠ [] → sh.rowNum * sh.colNum ≤ vlansShape.rowNum * vlansShape.colNum
  swap
  · refine iff_of_false ?_ fun h => hlocal h.1
    rw [Classical.not_imp] at hlocal
    rintro ⟨rows, hrows, -⟩
    rw [getBridgeVlans_eq hports (loop_overrun hlocal.1 (fun h => hrefused ⟨hlocal.1, h⟩) hlocal.2)] at hrows
    cases hrows
  have hsh : b.ports ≠ [] → sh = vlansShape := fun hne => eq_vlansShape (fun h => hrefused ⟨hne, h⟩) (hlocal hne)
  rw [and_iff_right hlocal]
  have hloop := @loop_ports b sh compressed array hsh
  by_cases hfit : (b.ids compressed).length ≤ sh.rowNum
  · rw [if_pos hfit] at hloop
    rw [and_iff_right hfit]
    refine ok_iff_of_overwritten hports hcopy ?_ hloop
    intro t ht
    obtain ⟨id, hid, rfl⟩ := List.mem_map.1 ht
    have hne : b.ports ≠ [] := by
      rintro hnil
      rw [Bridge.ids, hnil] at hid
      cases hid
    rw [hsh hne]
    exact (Bridge.proper id hid).length_text
  · rw [if_neg hfit] at hloop
    refine iff_of_false ?_ fun h => hfit h.1
    rintro ⟨rows, hrows, -⟩
    rw [getBridgeVlans_eq hports hloop] at hrows
    cases hrows

/-! ## Two trunk ports -/

/-- A line for one VLAN without flags. -/
theorem plainRow_plain {lead : List Char} (hlead : ∀ c ∈ lead, c ≠ '\n' ∧ c ≠ NUL) (v : Nat) :
    ∀ c ∈ lead ++ ' ' :: Nat.toDigits 10 v, c ≠ '\n' ∧ c ≠ NUL := by
  have hdigits : ∀ c ∈ Nat.toDigits 10 v, c ≠ '\n' ∧ c ≠ NUL := by
    intro c hc
    have h := isDigit_toDigits v c hc
    constructor <;> rintro rfl <;> revert h <;> decide
  simp only [List.forall_mem_append, List.forall_mem_cons]
  exact ⟨hlead, by decide, hdigits⟩

theorem plainRow_fits {lead : List Char} (hlead : lead.length ≤ 16) {v : Nat} (hv : v ≤ 4094) :
    (lead ++ ' ' :: Nat.toDigits 10 v).length + 1 < MAX_STR_LEN := by
  have := digits_of_small hv
  rw [List.length_append, List.length_cons]
  exact lt_of_le_of_lt (by omega : _ ≤ 22) (by decide)

theorem plainRow_printed (lead : List Char) (v : Nat) :
    lead ++ ' ' :: Nat.toDigits 10 v = lead ++ (some (VlanId.vid v, ([] : List Word))).elim [] fun v =>
      ' ' :: (v.1.text ++ v.2.flatMap fun w => ' ' :: w.text) := by
  rw [Option.elim_some, VlanId.text, List.flatMap_nil, List.append_nil]

def plainRow (lead : List Char) (hlead : ∀ c ∈ lead, c ≠ '\n' ∧ c ≠ NUL) (hlen : lead.length ≤ 16) (v : Nat)
    (hv : v ≤ 4094) : VlanRow where
  line := ⟨lead ++ ' ' :: Nat.toDigits 10 v, plainRow_plain hlead v, plainRow_fits hlen hv⟩
  lead := lead
  vlan := some (.vid v, [])
  printed := plainRow_printed lead v

/-- A name that no line without it contains. -/
structure TrunkName (name : List Char) : Prop where
  letter : 's' ∈ name
  plain : (name.all fun c => c ≠ '\n' ∧ c ≠ NUL) = true
  short : name.length ≤ 16

theorem TrunkName.forall_plain {name : List Char} (h : TrunkName name) : ∀ c ∈ name, c ≠ '\n' ∧ c ≠ NUL :=
  fun c hc => of_decide_eq_true (List.all_eq_true.1 h.plain c hc)

theorem nil_plain : ∀ c ∈ ([] : List Char), c ≠ '\n' ∧ c ≠ NUL := fun _ h => absurd h List.not_mem_nil

section Trunk

variable {n : Nat} (hn : n ≤ 4092) {name : List Char} (h : TrunkName name)

theorem trunk_small {n : Nat} (hn : n ≤ 4092) (i : Fin n) : i.val + 2 ≤ 4094 := by omega

def trunkRest : List VlanRow :=
  (List.finRange n).map fun i => plainRow [] nil_plain (Nat.zero_le 16) (i.val + 2) (trunk_small hn i)

/-- The VLANs from 1 to `n + 1`. -/
def trunkRows : List VlanRow :=
  plainRow name h.forall_plain h.short 1 (Nat.le_of_ble_eq_true rfl) :: trunkRest hn

theorem vlan_trunkRows : ∀ r ∈ trunkRows hn h, r.vlan.isSome = true := by
  simp [trunkRows, trunkRest, plainRow]

theorem idsOf_trunkRows :
    idsOf (trunkRows hn h) = .vid 1 :: (List.finRange n).map fun i => .vid (i.val + 2) := by
  have hrest : idsOf (trunkRest hn) = (List.finRange n).map fun i => VlanId.vid (i.val + 2) := by
    rw [idsOf, trunkRest, List.filterMap_map, ← List.filterMap_eq_map]
    rfl
  rw [← hrest]
  rfl

/-- Such a line has digits only. -/
theorem not_contains_of_letter {r : VlanRow} (hr : r ∈ trunkRest hn) {pat : List Char} {c : Char} (hc : c ∈ pat)
    (hletter : c ≠ ' ' ∧ c.isDigit = false) : ¬ r.line.Contains pat := by
  obtain ⟨i, -, rfl⟩ := List.mem_map.1 hr
  rintro ⟨-, hin⟩
  rcases List.mem_cons.1 (hin.subset hc) with h | h
  · exact hletter.1 h
  · rw [isDigit_toDigits _ c h] at hletter
    exact absurd hletter.2 (by decide)

theorem trunkRows_titles : ∀ r ∈ trunkRows hn h, r.vlan = none →
    ¬ r.line.Contains name ∧ (r.line.Contains BASE_PORT_STR.toList ∨ ∀ c ∈ r.line.text, isBlank c = true) := by
  intro r hr hnone
  have hsome := vlan_trunkRows hn h r hr
  rw [hnone] at hsome
  cases hsome

theorem vlanRows_trunkRows : vlanRows (trunkRows hn h) = trunkRows hn h :=
  List.filter_eq_self.2 (vlan_trunkRows hn h)

theorem trunkRows_named : ∀ r ∈ (vlanRows (trunkRows hn h)).head?,
    ∃ gap, r.lead = name ++ gap ∧ ∀ c ∈ gap, isBlank c = true := by
  intro r hr
  rw [vlanRows_trunkRows] at hr
  rw [← Option.some.inj hr]
  exact ⟨[], (List.append_nil _).symm, fun _ h => absurd h List.not_mem_nil⟩

theorem trunkRows_unnamed : ∀ r ∈ (vlanRows (trunkRows hn h)).tail,
    (∀ c ∈ r.lead, isBlank c = true) ∧ ¬ r.line.Contains name ∧ ¬ r.line.Contains BASE_PORT_STR.toList := by
  intro r hr
  rw [vlanRows_trunkRows] at hr
  refine ⟨?_, not_contains_of_letter hn hr h.letter (by decide),
    not_contains_of_letter hn hr (show 'p' ∈ BASE_PORT_STR.toList by decide) (by decide)⟩
  obtain ⟨i, -, rfl⟩ := List.mem_map.1 hr
  exact fun _ h => absurd h List.not_mem_nil

theorem trunkRows_proper : ∀ id ∈ idsOf (trunkRows hn h), id.Proper := by
  rw [idsOf_trunkRows]
  simp only [List.forall_mem_cons, List.forall_mem_map, VlanId.Proper, VlanId.vids, List.mem_singleton,
    forall_eq]
  exact ⟨⟨List.cons_ne_nil _ _, by decide⟩, fun i _ => ⟨List.cons_ne_nil _ _, by omega⟩⟩

theorem trunkRows_nodup :
    ((idsOf (trunkRows hn h)).flatMap VlanId.vids).Nodup := by
  have hvids : (idsOf (trunkRows hn h)).flatMap VlanId.vids = 1 :: (List.finRange n).map fun i => i.val + 2 := by
    rw [idsOf_trunkRows, List.flatMap_cons, List.flatMap_map, List.map_eq_flatMap]
    rfl
  rw [hvids, List.nodup_cons]
  refine ⟨by simp, (List.nodup_finRange n).map fun i j hij => ?_⟩
  exact Fin.ext (by simpa using hij)

def trunkReport : VlanReport name where
  rows := trunkRows hn h
  titles := trunkRows_titles hn h
  named := trunkRows_named hn h
  unnamed := trunkRows_unnamed hn h
  proper := trunkRows_proper hn h
  nodup := trunkRows_nodup hn h

end Trunk

theorem no_rows {P : VlanRow → Prop} : ∀ r ∈ ([] : List VlanRow), P r := fun _ h => absurd h List.not_mem_nil

def emptyReport (name : List Char) : VlanReport name where
  rows := []
  titles := no_rows
  named := fun _ h => absurd h (Option.not_mem_none _)
  unnamed := no_rows
  proper := fun _ h => absurd h List.not_mem_nil
  nodup := List.nodup_nil

instance (name : List Char) : Decidable (TrunkName name) :=
  decidable_of_iff ('s' ∈ name ∧ (name.all fun c => c ≠ '\n' ∧ c ≠ NUL) = true ∧ name.length ≤ 16)
    ⟨fun h => ⟨h.1, h.2.1, h.2.2⟩, fun h => ⟨h.letter, h.plain, h.short⟩⟩

def link3Row : LinkRow where
  line := ⟨"3: sw0p1: <BROADCAST,MULTICAST> mtu 1500 master br0".toList, List.forall_iff_forall_mem.1 (by decide), by decide⟩
  index := 3
  name := ⟨"sw0p1".toList, by decide, List.forall_iff_forall_mem.1 (by decide)⟩
  rest := "<BROADCAST,MULTICAST> mtu 1500 master br0".toList
  printed := by decide

def trunkRestCount : Nat := 2048

theorem trunkRestCount_le : trunkRestCount ≤ 4092 := by decide

theorem bare_of_all {ports : List LinkRow} (h : (ports.all fun r => r.name.text.all fun c => !isPunct c) = true) :
    ∀ r ∈ ports, ∀ c ∈ r.name.text, isPunct c = false := by
  intro r hr c hc
  simpa using List.all_eq_true.1 (List.all_eq_true.1 h r hr) c hc

theorem trunkPorts_bare : ∀ r ∈ [link2Row, link3Row], ∀ c ∈ r.name.text, isPunct c = false :=
  bare_of_all (by decide)

theorem trunkPorts_nodup : ([link2Row, link3Row].map (·.name.text)).Nodup := by decide

/-- Two ports with the same 2049 VLANs. -/
def trunkBridge : Bridge where
  ports := [link2Row, link3Row]
  bare := trunkPorts_bare
  nodup := trunkPorts_nodup
  report := fun _ name => if h : TrunkName name then trunkReport trunkRestCount_le h else emptyReport name

def blankArray : CallerArray vlansShape := ⟨zeros vlansShape, List.length_replicate, Nat.le_of_ble_eq_true rfl⟩

theorem trunkBridge_ids (compressed : Bool) : (trunkBridge.ids compressed).length = 4098 := by
  have hport : ∀ r ∈ trunkBridge.ports, (trunkBridge.report compressed r.name.text).ids.length = 2049 := by
    intro r hr
    have hname : TrunkName r.name.text := (by decide : ∀ r ∈ trunkBridge.ports, TrunkName r.name.text) r hr
    have hreport : trunkBridge.report compressed r.name.text = trunkReport trunkRestCount_le hname := dif_pos hname
    rw [hreport, VlanReport.ids, trunkReport, idsOf_trunkRows, List.length_cons, List.length_map, List.length_finRange]
    rfl
  rw [Bridge.ids, List.length_flatMap, List.map_congr_left hport]
  rfl

/-- The array is overrun although the bridge has 2049 VLANs only. -/
theorem not_bridgeVlansOk_trunk : ¬ BridgeVlansOk trunkBridge vlansShape false blankArray := by
  rintro ⟨rows, hrows, -⟩
  have hports : trunkBridge.ports.length ≤ MAX_NUM_OF_INTERFACES := by decide
  have hfull : ¬ (trunkBridge.ids false).length ≤ vlansShape.rowNum := by rw [trunkBridge_ids]; decide
  have hloop := @loop_ports trunkBridge vlansShape false blankArray fun _ => rfl
  rw [if_neg hfull] at hloop
  rw [getBridgeVlans_eq hports hloop] at hrows
  cases hrows

end TsnSwitch.Tools
