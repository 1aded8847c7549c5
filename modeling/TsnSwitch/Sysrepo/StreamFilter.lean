/-
Changes of the leaves of stream filters (`sfg_stream_filters_mod_cb` in
stream_filter_gates.c).

The driver cannot change a filter, so it is read, deleted and created again
with the new value. What can fail behind the deletion leaves no filter
(`modOk_iff`).
-/
import TsnSwitch.Lib.EarlyExit
import TsnSwitch.Sysrepo.AclEdit

namespace TsnSwitch.Sysrepo.Filter

open Lib
open Acl (SrEvent translateSingleStringUsingMap findObjIndexByName findObjIndexByName_iff)

/-! ## The driver and the edit -/

/-- `struct psfp_flt_params`. -/
structure PsfpFltParams where
  strHdl : BitVec 32
  prio : BitVec 32
  maxSdu : BitVec 32
  blkOverszEna : Bool
  blkOversz : Bool
  gateId : BitVec 32
  fmtrId : BitVec 32
  deriving DecidableEq

/-- A bridge and the number of a filter. -/
abbrev FilterId := String × BitVec 32

/-- The filters of the driver. -/
abbrev Filters := FilterId → Option PsfpFltParams

/-- The union in `sr_val_t`, read as each of its members. No name of an
enumeration is empty. -/
structure SrData where
  int32Val : BitVec 32
  uint32Val : BitVec 32
  boolVal : Bool
  enumVal : String
  enumVal_ne : enumVal ≠ ""

/-- A change, with what is answered when it is handled. -/
structure FilterChange where
  op : ChangeOp
  filter : FilterId
  /-- `sr_xpath_node_name`. -/
  leaf : String
  data : SrData
  bridgeKeyOk : Bool := true
  filterKeyOk : Bool := true
  openOk : Bool := true
  getOk : Bool := true
  deleteOk : Bool := true
  createOk : Bool := true

/-! ## The callback -/

def sfgPrioSpecReverseMap : List (String × String) :=
  [("zero", "0"), ("one", "1"), ("two", "2"), ("three", "3"), ("four", "4"), ("five", "5"), ("six", "6"),
    ("seven", "7"), ("wildcard", "-1")]

/-- The names of the objects, in the order of their indices. -/
def psfpMap : List String :=
  ["operation-name", "time-interval-value", "gate-state-value", "ipv-spec", "gate-enable", "admin-gate-states",
    "admin-ipv", "stream-handle", "priority-spec", "max-sdu-size", "stream-blocked-due-to-oversize-frame-enabled",
    "stream-blocked-due-to-oversize-frame", "stream-gate-ref",
    "ieee802-dot1q-psfp:gate-closed-due-to-invalid-rx-enable",
    "ieee802-dot1q-psfp:gate-closed-due-to-invalid-rx"]

def PSFP_STREAM_HDL : Nat := 7
def PSFP_PRIO_SPEC : Nat := 8
def PSFP_MAX_SDU_SIZE : Nat := 9
def PSFP_STR_BLCKD_FRAME_ENBLD : Nat := 10
def PSFP_STR_BLCKD_FRAME : Nat := 11
def PSFP_STR_GATE_REF : Nat := 12

/-- `(int32_t)strtoul(s, NULL, 10)`. -/
def word32 (s : String) : BitVec 32 := (strtoulEnd 10 s.toList).1.setWidth 32

/-- The `switch` over the leaves and the check behind it, `none` for an error. -/
def setLeaf (objIndex : Nat) (data : SrData) (params : PsfpFltParams) : Option PsfpFltParams :=
  if objIndex = PSFP_STREAM_HDL then some { params with strHdl := data.int32Val }
  else if objIndex = PSFP_PRIO_SPEC then
    (translateSingleStringUsingMap data.enumVal sfgPrioSpecReverseMap).map fun tmpStr =>
      { params with prio := word32 tmpStr }
  else if objIndex = PSFP_MAX_SDU_SIZE then some { params with maxSdu := data.uint32Val }
  else if objIndex = PSFP_STR_BLCKD_FRAME_ENBLD then some { params with blkOverszEna := data.boolVal }
  else if objIndex = PSFP_STR_BLCKD_FRAME then some { params with blkOversz := data.boolVal }
  else if objIndex = PSFP_STR_GATE_REF then some { params with gateId := data.uint32Val }
  else none

/-- One turn of the loop, left with an error code and the filters there are. -/
def modifyFilter (filters : Filters) (c : FilterChange) : Except (SrError × Filters) Filters :=
  if c.op ≠ .modified then .ok filters
  else if !c.bridgeKeyOk || !c.filterKeyOk || !c.openOk then .error (.operationFailed, filters)
  else
    match if c.getOk then filters c.filter else none with
    | none => .error (.operationFailed, filters)
    | some params =>
      if !c.deleteOk then .error (.operationFailed, filters)
      else
        let filters := Function.update filters c.filter none
        match setLeaf (findObjIndexByName c.leaf psfpMap) c.data params with
        | none => .error (.operationFailed, filters)
        | some params =>
          if !c.createOk then .error (.operationFailed, filters)
          else .ok (Function.update filters c.filter (some params))

/-- What is given back to sysrepo, and the filters then. -/
def sfgStreamFiltersModCb (event : SrEvent) (pluginInit iterOk : Bool) (changes : List FilterChange)
    (filters : Filters) : SrError × Filters :=
  if event = .done || !pluginInit then (.ok, filters)
  else if !iterOk then (.other, filters)
  else
    match changes.foldlM modifyFilter filters with
    | .ok filters => (.ok, filters)
    | .error e => e

/-! ## What the callback is for -/

/-- The priorities by their names in the data model. -/
def prioOf (name : String) : Option (BitVec 32) :=
  if name = "zero" then some 0
  else if name = "one" then some 1
  else if name = "two" then some 2
  else if name = "three" then some 3
  else if name = "four" then some 4
  else if name = "five" then some 5
  else if name = "six" then some 6
  else if name = "seven" then some 7
  else if name = "wildcard" then some (-1)
  else none

/-- The parameters with one leaf changed. -/
def FilterChange.Sets (c : FilterChange) (old new : PsfpFltParams) : Prop :=
  (c.leaf = "stream-handle" ∧ new = { old with strHdl := c.data.int32Val }) ∨
    (c.leaf = "priority-spec" ∧ ∃ prio ∈ prioOf c.data.enumVal, new = { old with prio }) ∨
    (c.leaf = "max-sdu-size" ∧ new = { old with maxSdu := c.data.uint32Val }) ∨
    (c.leaf = "stream-blocked-due-to-oversize-frame-enabled" ∧ new = { old with blkOverszEna := c.data.boolVal }) ∨
    (c.leaf = "stream-blocked-due-to-oversize-frame" ∧ new = { old with blkOversz := c.data.boolVal }) ∨
    (c.leaf = "stream-gate-ref" ∧ new = { old with gateId := c.data.uint32Val })

/-- The filter that is changed carries the new value, and nothing else differs. -/
def FilterChange.Modifies (c : FilterChange) (filters filters' : Filters) : Prop :=
  if c.op = .modified then
    ∃ old new, filters c.filter = some old ∧ c.Sets old new ∧ filters' = Function.update filters c.filter (some new)
  else filters' = filters

/-- One change after the other. -/
def Modified : List FilterChange → Filters → Filters → Prop
  | [], filters, filters' => filters' = filters
  | c :: changes, filters, filters'' => ∃ filters', c.Modifies filters filters' ∧ Modified changes filters' filters''

/-- Modifications are looked at in this event. -/
def acts (event : SrEvent) (pluginInit : Bool) : Bool := event ≠ .done && pluginInit

/-- The filters carry what was modified, or an error is given back and they are
as they were; none has disappeared. -/
def ModOk (event : SrEvent) (pluginInit iterOk : Bool) (changes : List FilterChange) (filters : Filters) : Prop :=
  acts event pluginInit = true →
    let result := sfgStreamFiltersModCb event pluginInit iterOk changes filters
    (result.1 = .ok ∧ Modified changes filters result.2 ∨ result.1 ≠ .ok ∧ result.2 = filters) ∧
      ∀ id, filters id ≠ none → result.2 id ≠ none

/-- What comes before the deletion, and the deletion, succeed. -/
def FilterChange.Reads (c : FilterChange) (filters : Filters) : Prop :=
  c.bridgeKeyOk = true ∧ c.filterKeyOk = true ∧ c.openOk = true ∧ c.getOk = true ∧ c.deleteOk = true ∧
    filters c.filter ≠ none

instance (c : FilterChange) (filters : Filters) : Decidable (c.Reads filters) :=
  inferInstanceAs (Decidable (_ ∧ _ ∧ _ ∧ _ ∧ _ ∧ _))

/-- The leaf is known, its value has a meaning, and the driver takes the filter. -/
def FilterChange.Creates (c : FilterChange) : Prop :=
  (c.leaf = "priority-spec" ∧ prioOf c.data.enumVal ≠ none ∨
      c.leaf ∈ ["stream-handle", "max-sdu-size", "stream-blocked-due-to-oversize-frame-enabled",
        "stream-blocked-due-to-oversize-frame", "stream-gate-ref"]) ∧ c.createOk = true

def FilterChange.Goes (c : FilterChange) (filters : Filters) : Prop :=
  c.op = .modified → c.Reads filters ∧ c.Creates

/-- All changes go through, or the first one that does not fails before the
deletion, and those before it change nothing. -/
def Undamaged (changes : List FilterChange) (filters : Filters) : Prop :=
  (∀ c ∈ changes, c.Goes filters) ∨
    ∃ before c, before ++ [c] <+: changes ∧ (∀ b ∈ before, b.Goes filters) ∧ c.op = .modified ∧ ¬ c.Reads filters ∧
      Modified before filters filters

/-! ## Leaves -/

/-- A priority is translated as its name says. -/
theorem prioOf_eq {name : String} (hne : name ≠ "") :
    (translateSingleStringUsingMap name sfgPrioSpecReverseMap).map word32 = prioOf name := by
  rw [translateSingleStringUsingMap, if_neg hne]
  by_cases hkey : name ∈ sfgPrioSpecReverseMap.map Prod.fst
  · simp only [sfgPrioSpecReverseMap, List.map_cons, List.map_nil, List.mem_cons, List.not_mem_nil, or_false] at hkey
    rcases hkey with rfl | rfl | rfl | rfl | rfl | rfl | rfl | rfl | rfl <;> decide +kernel
  · have hnone : sfgPrioSpecReverseMap.find? (fun pair => pair.1 = name) = none := by
      rw [List.find?_eq_none]
      exact fun pair hpair h => hkey (List.mem_map.2 ⟨pair, hpair, of_decide_eq_true h⟩)
    simp only [sfgPrioSpecReverseMap, List.map_cons, List.map_nil, List.mem_cons, List.not_mem_nil, or_false,
      not_or] at hkey
    rw [hnone, prioOf]
    simp [hkey]

theorem FilterChange.setLeaf_iff (c : FilterChange) {old new : PsfpFltParams} :
    setLeaf (findObjIndexByName c.leaf psfpMap) c.data old = some new ↔ c.Sets old new := by
  have hhdl : findObjIndexByName c.leaf psfpMap = PSFP_STREAM_HDL ↔ c.leaf = "stream-handle" :=
    findObjIndexByName_iff (by decide) rfl (by decide +kernel) _
  have hprio : findObjIndexByName c.leaf psfpMap = PSFP_PRIO_SPEC ↔ c.leaf = "priority-spec" :=
    findObjIndexByName_iff (by decide) rfl (by decide +kernel) _
  have hsdu : findObjIndexByName c.leaf psfpMap = PSFP_MAX_SDU_SIZE ↔ c.leaf = "max-sdu-size" :=
    findObjIndexByName_iff (by decide) rfl (by decide +kernel) _
  have hena : findObjIndexByName c.leaf psfpMap = PSFP_STR_BLCKD_FRAME_ENBLD ↔
      c.leaf = "stream-blocked-due-to-oversize-frame-enabled" :=
    findObjIndexByName_iff (by decide) rfl (by decide +kernel) _
  have hblk : findObjIndexByName c.leaf psfpMap = PSFP_STR_BLCKD_FRAME ↔
      c.leaf = "stream-blocked-due-to-oversize-frame" :=
    findObjIndexByName_iff (by decide) rfl (by decide +kernel) _
  have hgate : findObjIndexByName c.leaf psfpMap = PSFP_STR_GATE_REF ↔ c.leaf = "stream-gate-ref" :=
    findObjIndexByName_iff (by decide) rfl (by decide +kernel) _
  have hvalue := prioOf_eq c.data.enumVal_ne
  simp only [setLeaf, hhdl, hprio, hsdu, hena, hblk, hgate, FilterChange.Sets, ← hvalue]
  by_cases h1 : c.leaf = "stream-handle"
  · simp [h1, eq_comm]
  by_cases h2 : c.leaf = "priority-spec"
  · cases translateSingleStringUsingMap c.data.enumVal sfgPrioSpecReverseMap <;> simp [h2, eq_comm]
  by_cases h3 : c.leaf = "max-sdu-size"
  · simp [h3, eq_comm]
  by_cases h4 : c.leaf = "stream-blocked-due-to-oversize-frame-enabled"
  · simp [h4, eq_comm]
  by_cases h5 : c.leaf = "stream-blocked-due-to-oversize-frame"
  · simp [h5, eq_comm]
  by_cases h6 : c.leaf = "stream-gate-ref"
  · simp [h6, eq_comm]
  simp [h1, h2, h3, h4, h5, h6]

theorem FilterChange.creates_iff (c : FilterChange) (old : PsfpFltParams) :
    c.Creates ↔ (∃ new, c.Sets old new) ∧ c.createOk = true := by
  refine and_congr_left fun _ => ?_
  simp only [FilterChange.Sets, exists_or, exists_and_left, exists_eq, and_true, List.mem_cons, List.not_mem_nil,
    or_false, Option.ne_none_iff_exists', Option.mem_def]
  constructor
  · rintro (⟨h, prio, hp⟩ | h | h | h | h | h)
    · exact .inr (.inl ⟨h, _, prio, hp, rfl⟩)
    all_goals simp [h]
  · rintro (h | ⟨h, -, prio, hp, -⟩ | h | h | h | h)
    · simp [h]
    · exact .inl ⟨h, prio, hp⟩
    all_goals simp [h]

/-! ## One change -/

/-- The same filters exist. -/
def SameFilters (filters filters' : Filters) : Prop := ∀ id, filters' id = none ↔ filters id = none

theorem SameFilters.update {filters filters' : Filters} (h : SameFilters filters filters') {id : FilterId}
    (hid : filters' id ≠ none) (new : PsfpFltParams) :
    SameFilters filters (Function.update filters' id (some new)) := by
  intro other
  by_cases ho : other = id
  · subst ho
    rw [Function.update_self]
    exact iff_of_false (Option.some_ne_none _) fun hn => hid ((h other).2 hn)
  · rw [Function.update_of_ne ho]
    exact h other

section Turn

variable {filters now : Filters} {c : FilterChange}

/-- What comes before the deletion fails. -/
theorem modifyFilter_of_not_reads (hsame : SameFilters filters now) (hop : c.op = .modified)
    (h : ¬ c.Reads filters) : modifyFilter now c = .error (.operationFailed, now) := by
  rw [modifyFilter, if_neg (not_not.2 hop)]
  by_cases hopen : (!c.bridgeKeyOk || !c.filterKeyOk || !c.openOk) = true
  · rw [if_pos hopen]
  rw [if_neg hopen]
  simp only [Bool.or_eq_true, Bool.not_eq_true', not_or, Bool.not_eq_false] at hopen
  cases hget : (if c.getOk then now c.filter else none) with
  | none => rfl
  | some params =>
    have hok : c.getOk = true := by
      by_contra hno
      rw [if_neg hno] at hget
      cases hget
    have hthere : filters c.filter ≠ none := fun hn => by
      rw [if_pos hok, (hsame c.filter).2 hn] at hget
      cases hget
    have hdelete : c.deleteOk = false := by
      by_contra hyes
      exact h ⟨hopen.1.1, hopen.1.2, hopen.2, hok, by simpa using hyes, hthere⟩
    simp [hdelete]

/-- The filter has been read and deleted. -/
theorem modifyFilter_of_reads (hsame : SameFilters filters now) (hop : c.op = .modified) (h : c.Reads filters) :
    ∃ old, now c.filter = some old ∧ modifyFilter now c =
      match setLeaf (findObjIndexByName c.leaf psfpMap) c.data old with
      | none => .error (.operationFailed, Function.update now c.filter none)
      | some new =>
        if c.createOk then .ok (Function.update now c.filter (some new))
        else .error (.operationFailed, Function.update now c.filter none) := by
  obtain ⟨hbridge, hfilter, hopen, hget, hdelete, hthere⟩ := h
  obtain ⟨old, hold⟩ := Option.ne_none_iff_exists'.1 fun hn => hthere ((hsame c.filter).1 hn)
  refine ⟨old, hold, ?_⟩
  have hclosed : (!c.bridgeKeyOk || !c.filterKeyOk || !c.openOk) = false := by rw [hbridge, hfilter, hopen]; rfl
  rw [modifyFilter, if_neg (not_not.2 hop), hclosed, if_neg Bool.false_ne_true, hget, if_pos rfl, hold]
  simp only [hdelete, Bool.not_true, Bool.false_eq_true, if_false]
  cases setLeaf (findObjIndexByName c.leaf psfpMap) c.data old with
  | none => rfl
  | some new => cases c.createOk <;> simp [Function.update_idem]

/-- A change that goes through. -/
theorem modifyFilter_of_goes (hsame : SameFilters filters now) (h : c.Goes filters) :
    ∃ now', modifyFilter now c = .ok now' ∧ c.Modifies now now' ∧ SameFilters filters now' := by
  by_cases hop : c.op = .modified
  · obtain ⟨hreads, hcreates⟩ := h hop
    obtain ⟨old, hold, hturn⟩ := modifyFilter_of_reads hsame hop hreads
    obtain ⟨⟨new, hsets⟩, hcreate⟩ := (c.creates_iff old).1 hcreates
    rw [c.setLeaf_iff.2 hsets] at hturn
    refine ⟨_, hturn.trans (if_pos hcreate), ?_, hsame.update (by rw [hold]; exact Option.some_ne_none _) new⟩
    rw [FilterChange.Modifies, if_pos hop]
    exact ⟨old, new, hold, hsets, rfl⟩
  · refine ⟨now, by rw [modifyFilter, if_pos hop], ?_, hsame⟩
    rw [FilterChange.Modifies, if_neg hop]

/-- The new filter is refused, and the old one is gone. -/
theorem modifyFilter_of_not_creates (hsame : SameFilters filters now) (hop : c.op = .modified)
    (hreads : c.Reads filters) (h : ¬ c.Creates) :
    modifyFilter now c = .error (.operationFailed, Function.update now c.filter none) := by
  obtain ⟨old, -, hturn⟩ := modifyFilter_of_reads hsame hop hreads
  rw [hturn]
  cases hset : setLeaf (findObjIndexByName c.leaf psfpMap) c.data old with
  | none => rfl
  | some new =>
    have hcreate : ¬ c.createOk = true := fun hyes => h ((c.creates_iff old).2 ⟨⟨new, c.setLeaf_iff.1 hset⟩, hyes⟩)
    simp only [hcreate]
    rfl

end Turn

/-! ## All changes -/

theorem Modified.concat {changes : List FilterChange} {c : FilterChange} {filters now now' : Filters}
    (h : Modified changes filters now) (hc : c.Modifies now now') : Modified (changes ++ [c]) filters now' := by
  induction changes generalizing filters with
  | nil => exact ⟨now', h ▸ hc, rfl⟩
  | cons b changes ih =>
    obtain ⟨mid, hb, h⟩ := h
    exact ⟨mid, hb, ih h⟩

theorem FilterChange.Sets.unique {c : FilterChange} {old new new' : PsfpFltParams} (h : c.Sets old new)
    (h' : c.Sets old new') : new = new' :=
  Option.some.inj ((c.setLeaf_iff.2 h).symm.trans (c.setLeaf_iff.2 h'))

theorem Modified.unique {changes : List FilterChange} {filters now now' : Filters} (h : Modified changes filters now)
    (h' : Modified changes filters now') : now = now' := by
  induction changes generalizing filters with
  | nil => exact h.trans h'.symm
  | cons c changes ih =>
    obtain ⟨mid, hc, h⟩ := h
    obtain ⟨mid', hc', h'⟩ := h'
    suffices hmid : mid = mid' from ih h (hmid ▸ h')
    rw [FilterChange.Modifies] at hc hc'
    split at hc
    · rename_i hop
      rw [if_pos hop] at hc'
      obtain ⟨old, new, hold, hsets, rfl⟩ := hc
      obtain ⟨old', new', hold', hsets', rfl⟩ := hc'
      obtain rfl := Option.some.inj (hold.symm.trans hold')
      rw [hsets.unique hsets']
    · rename_i hop
      rw [if_neg hop] at hc'
      exact hc.trans hc'.symm

/-- How the loop over the changes ends. -/
theorem foldlM_modifyFilter (changes : List FilterChange) (filters : Filters) :
    ((∀ c ∈ changes, c.Goes filters) ∧
        ∃ now, changes.foldlM modifyFilter filters = .ok now ∧ Modified changes filters now ∧ SameFilters filters now) ∨
      ∃ before c now, before ++ [c] <+: changes ∧ (∀ b ∈ before, b.Goes filters) ∧ ¬ c.Goes filters ∧
        Modified before filters now ∧ SameFilters filters now ∧
        changes.foldlM modifyFilter filters =
          .error (.operationFailed, if c.Reads filters then Function.update now c.filter none else now) := by
  let Goes : List FilterChange → FilterChange → Prop := fun _ c => c.Goes filters
  let Inv : List FilterChange → Filters → Prop := fun before now =>
    Modified before filters now ∧ SameFilters filters now
  let Ends : List FilterChange → FilterChange → SrError × Filters → Prop := fun before c e => ∃ now, Inv before now ∧
    e = (SrError.operationFailed, if c.Reads filters then Function.update now c.filter none else now)
  have hgo : ∀ before c now, before ++ [c] <+: changes → Inv before now → Goes before c →
      ∃ now', modifyFilter now c = .ok now' ∧ Inv (before ++ [c]) now' := by
    intro before c now _ hinv hc
    obtain ⟨now', hturn, hmod, hsame⟩ := modifyFilter_of_goes hinv.2 hc
    exact ⟨now', hturn, hinv.1.concat hmod, hsame⟩
  have hend : ∀ before c now, before ++ [c] <+: changes → Inv before now → ¬ Goes before c →
      ∃ e, modifyFilter now c = .error e ∧ Ends before c e := by
    intro before c now _ hinv hc
    obtain ⟨hop, hc⟩ := Classical.not_imp.1 hc
    by_cases hreads : c.Reads filters
    · refine ⟨_, modifyFilter_of_not_creates hinv.2 hop hreads fun h => hc ⟨hreads, h⟩, now, hinv, ?_⟩
      rw [if_pos hreads]
    · refine ⟨_, modifyFilter_of_not_reads hinv.2 hop hreads, now, hinv, ?_⟩
      rw [if_neg hreads]
  have hstart : Inv [] filters := ⟨rfl, fun _ => Iff.rfl⟩
  rcases foldlM_cases hgo hend hstart with
    ⟨hall, now, hrun, hmod, hsame⟩ | ⟨before, c, e, hpre, hall, hc, hrun, now, hinv, rfl⟩
  · exact .inl ⟨allGo_iff_forall.1 hall, now, hrun, hmod, hsame⟩
  · exact .inr ⟨before, c, now, hpre, allGo_iff_forall.1 hall, hc, hinv.1, hinv.2, hrun⟩

/-- What the first change that does not go through says of the edit. -/
theorem undamaged_iff {changes before : List FilterChange} {c : FilterChange} {filters now : Filters}
    (hpre : before ++ [c] <+: changes) (hall : ∀ b ∈ before, b.Goes filters) (hc : ¬ c.Goes filters)
    (hmod : Modified before filters now) : Undamaged changes filters ↔ ¬ c.Reads filters ∧ now = filters := by
  constructor
  · rintro (hgo | ⟨before', c', hpre', hall', hop', hreads', hmod'⟩)
    · exact absurd (hgo c (hpre.subset (List.mem_append_right _ (List.mem_singleton_self c)))) hc
    · have hc' : ¬ c'.Goes filters := fun h => hreads' (h hop').1
      rcases first_of_two hpre hpre' with hlt | hlt | ⟨rfl, rfl⟩
      · exact absurd (hall' c (hlt.subset (List.mem_append_right _ (List.mem_singleton_self c)))) hc
      · exact absurd (hall c' (hlt.subset (List.mem_append_right _ (List.mem_singleton_self c')))) hc'
      · exact ⟨hreads', hmod.unique hmod'⟩
  · rintro ⟨hreads, rfl⟩
    exact .inr ⟨before, c, hpre, hall, (Classical.not_imp.1 hc).1, hreads, hmod⟩

/-- **The filters carry what was modified or are as they were exactly if no
change fails behind the deletion of its filter, or behind another one.** -/
theorem modOk_iff (event : SrEvent) (pluginInit iterOk : Bool) (changes : List FilterChange) (filters : Filters) :
    ModOk event pluginInit iterOk changes filters ↔
      (acts event pluginInit = true → iterOk = true → Undamaged changes filters) := by
  rw [ModOk]
  refine imp_congr_right fun hacts => ?_
  have hevent : (decide (event = .done) || !pluginInit) = false := by
    cases event <;> cases pluginInit <;> first | rfl | exact absurd hacts (by decide)
  rw [sfgStreamFiltersModCb, hevent, if_neg Bool.false_ne_true]
  cases iterOk with
  | false =>
    have hother : SrError.other ≠ .ok := by decide
    exact iff_of_true ⟨.inr ⟨hother, rfl⟩, fun _ h => h⟩ fun h => absurd h Bool.false_ne_true
  | true =>
    rw [forall_prop_of_true rfl, Bool.not_true, if_neg Bool.false_ne_true]
    rcases foldlM_modifyFilter changes filters with
      ⟨hall, now, hrun, hmod, hsame⟩ | ⟨before, c, now, hpre, hall, hc, hmod, hsame, hrun⟩
    · rw [hrun]
      exact iff_of_true ⟨.inl ⟨rfl, hmod⟩, fun id h hn => h ((hsame id).1 hn)⟩ (.inl hall)
    · rw [hrun]
      rw [undamaged_iff hpre hall hc hmod]
      have hfailed : SrError.operationFailed ≠ .ok := by decide
      by_cases hreads : c.Reads filters
      · rw [if_pos hreads]
        refine iff_of_false (fun h => h.2 c.filter hreads.2.2.2.2.2 ?_) fun h => h.1 hreads
        exact Function.update_self ..
      · rw [if_neg hreads]
        constructor
        · rintro ⟨h | h, -⟩
          · exact absurd h.1 hfailed
          · exact ⟨hreads, h.2⟩
        · rintro ⟨-, rfl⟩
          exact ⟨.inr ⟨hfailed, rfl⟩, fun _ h => h⟩

/-- A filter of the first bridge. -/
def someFilter : PsfpFltParams :=
  { strHdl := 1, prio := 3, maxSdu := 1522, blkOverszEna := false, blkOversz := false, gateId := 1, fmtrId := 0 }

def oneFilter : Filters := Function.update (fun _ => none) ("sw0", 0) (some someFilter)

/-- The gate of a filter is changed to one that the driver does not take. -/
def refusedGate : FilterChange :=
  { op := .modified, filter := ("sw0", 0), leaf := "stream-gate-ref", createOk := false,
    data := { int32Val := 77, uint32Val := 77, boolVal := true, enumVal := "one", enumVal_ne := by decide } }

/-- The filter is gone. -/
theorem not_modOk_refusedGate : ¬ ModOk .change true true [refusedGate] oneFilter := by
  intro h
  have hthere : oneFilter ("sw0", 0) ≠ none := by
    rw [oneFilter, Function.update_self]
    exact Option.some_ne_none _
  have hturn := modifyFilter_of_not_creates (fun _ => Iff.rfl) (show refusedGate.op = .modified from rfl)
    ⟨rfl, rfl, rfl, rfl, rfl, hthere⟩ fun hcreates => Bool.false_ne_true hcreates.2
  refine (h rfl).2 ("sw0", 0) hthere ?_
  rw [sfgStreamFiltersModCb, List.foldlM_cons, hturn]
  exact Function.update_self refusedGate.filter none oneFilter

end TsnSwitch.Sysrepo.Filter
