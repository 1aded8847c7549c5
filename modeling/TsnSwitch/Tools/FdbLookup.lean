/-
Looking up static filtering entries in the output of `bridge fdb`
(base_q_bridge_linux_tools.c).

The address and the digits of the VID are looked for anywhere in a line. Every
entry asked for is found, unless the word for a VLAN occurs in another field
of an entry that has none; but other entries are found as well. `lookups_iff`
says when none of them shows.
-/
import TsnSwitch.Tools.Lines

namespace TsnSwitch.Tools

open Lib
open Base (MAX_STR_LEN BASE_FIVE EXIT_SUCCESS EXIT_FAILURE)

def Q_BRIDGE_STATIC : String := "static"
def Q_BRIDGE_COMP_VLAN : String := "vlan"
def BASE_DEV_STR : String := "dev"
def DEFAULT_VID : Nat := 4095

/-! ## The functions -/

def changeAddrDashesToColons (address : List Char) : List Char := address.map fun c => if c = '-' then ':' else c

/-- The match case for an address. -/
def addressCase (address : List Char) : List Char := changeAddrDashesToColons (address.take (MAX_STR_LEN - 1))

/-- `snprintf` of a VID into a match case, as long as a VID may be. -/
def vidCase (vid : List Char) : List Char := vid.take (BASE_FIVE - 1)

def portName : ParserSpec := ⟨some .findAndGetNextWord, BASE_DEV_STR.toList⟩

def fdbPortNamesFilters (address vid : List Char) : List ParserSpec :=
  [onLine (addressCase address), onLine (vidCase vid), onLine Q_BRIDGE_STATIC.toList]

def defaultFdbPortNamesFilters (address : List Char) : List ParserSpec :=
  [onLine (addressCase address), onLine Q_BRIDGE_STATIC.toList, ⟨some .isNotOnLine, Q_BRIDGE_COMP_VLAN.toList⟩]

def fdbExistsFilters (address vid : List Char) : List ParserSpec :=
  [onLine Q_BRIDGE_STATIC.toList, onLine (addressCase address), onLine (vidCase vid)]

/-- `Q_BRIDGE_FDB_PORT_NAMES` and `Q_BRIDGE_DEFAULT_FDB_PORT_NAMES`. -/
def portNamesSpec (filters : List ParserSpec) : SysCallSpec :=
  [(some .repeatUntilNullWithCheck, filters ++ [portName]), (some .noCombinator, single .arrayUniqElements "")]

def getFdbPortNamesByAddrAndVid (sh : Shape) (address vid : List Char) (output : Option (List Char)) :
    Except Overrun (Nat × Matrix) :=
  if vid.take BASE_FIVE = Nat.toDigits 10 DEFAULT_VID then
    getObject (portNamesSpec (defaultFdbPortNamesFilters address)) sh output
  else getObject (portNamesSpec (fdbPortNamesFilters address vid)) sh output

def dummyShape : Shape := ⟨2, 2, Nat.two_pos, Nat.two_pos⟩

def doesStaticFdbEntryExist (address vid : List Char) (output : Option (List Char)) : Except Overrun Nat :=
  (getObject [(some .andCombinator, fdbExistsFilters address vid)] dummyShape output).map (·.1)

/-! ## The output -/

/-- The characters of a printed address. -/
def isAddrChar (c : Char) : Bool := c.isDigit || ('a' ≤ c && c ≤ 'f') || ('A' ≤ c && c ≤ 'F') || c = ':'

/-- An entry as `bridge fdb` prints it: the address, the port, options such
as a destination, the VLAN, flags such as the bridge, and the state. -/
structure FdbFields where
  addr : Word
  isAddr : ∀ c ∈ addr.text, isAddrChar c = true
  dev : Word
  options : List Word
  vlan : Option Nat
  flags : List Word
  state : Option Word

def Word.field (w : Word) : List Char := w.text ++ [' ']

def FdbFields.rest (e : FdbFields) : List Char :=
  e.options.flatMap Word.field ++
    (e.vlan.elim [] fun v => Q_BRIDGE_COMP_VLAN.toList ++ ' ' :: (Nat.toDigits 10 v ++ [' '])) ++
    e.flags.flatMap Word.field ++ e.state.elim [] Word.text

def FdbFields.text (e : FdbFields) : List Char :=
  e.addr.text ++ ' ' :: (BASE_DEV_STR.toList ++ ' ' :: (e.dev.text ++ ' ' :: e.rest))

/-- Names have at most 15 characters, so that a line fits. -/
structure FdbEntry extends FdbFields where
  fits : toFdbFields.text.length + 1 < MAX_STR_LEN

theorem digits_plain (n : Nat) : ∀ c ∈ Nat.toDigits 10 n, c ≠ '\n' ∧ c ≠ NUL := by
  intro c hc
  have h := isDigit_toDigits n c hc
  constructor <;> rintro rfl <;> revert h <;> decide

theorem Word.text_plain (w : Word) : ∀ c ∈ w.text, c ≠ '\n' ∧ c ≠ NUL := fun c hc =>
  ⟨fun h => by have := (w.plain c hc).1; rw [h] at this; revert this; decide, (w.plain c hc).2⟩

theorem Word.fields_plain (ws : List Word) : ∀ c ∈ ws.flatMap Word.field, c ≠ '\n' ∧ c ≠ NUL := by
  intro c hc
  obtain ⟨w, -, hc⟩ := List.mem_flatMap.1 hc
  rcases List.mem_append.1 hc with hc | hc
  · exact w.text_plain c hc
  · rw [List.mem_singleton.1 hc]; decide

theorem FdbFields.text_plain (e : FdbFields) : ∀ c ∈ e.text, c ≠ '\n' ∧ c ≠ NUL := by
  have hsp : ' ' ≠ '\n' ∧ ' ' ≠ NUL := by decide
  have hdev : ∀ c ∈ BASE_DEV_STR.toList, c ≠ '\n' ∧ c ≠ NUL := List.forall_iff_forall_mem.1 (by decide)
  have hvl : ∀ c ∈ Q_BRIDGE_COMP_VLAN.toList, c ≠ '\n' ∧ c ≠ NUL := List.forall_iff_forall_mem.1 (by decide)
  have hvlan : ∀ c ∈ e.vlan.elim [] fun v => Q_BRIDGE_COMP_VLAN.toList ++ ' ' :: (Nat.toDigits 10 v ++ [' ']),
      c ≠ '\n' ∧ c ≠ NUL := by
    cases e.vlan with
    | none => exact fun c hc => absurd hc List.not_mem_nil
    | some v =>
      simp only [Option.elim_some, List.forall_mem_append, List.forall_mem_cons]
      exact ⟨hvl, hsp, digits_plain v, hsp, fun _ h => absurd h List.not_mem_nil⟩
  have hstate : ∀ c ∈ e.state.elim [] Word.text, c ≠ '\n' ∧ c ≠ NUL := by
    cases e.state with
    | none => exact fun c hc => absurd hc List.not_mem_nil
    | some w => exact w.text_plain
  simp only [FdbFields.text, FdbFields.rest, List.forall_mem_append, List.forall_mem_cons]
  exact ⟨e.addr.text_plain, hsp, hdev, hsp, e.dev.text_plain, hsp,
    ⟨⟨Word.fields_plain _, hvlan⟩, Word.fields_plain _⟩, hstate⟩

def FdbEntry.line (e : FdbEntry) : Line := ⟨e.text, e.text_plain, e.fits⟩

/-- The output of `bridge fdb`. -/
def fdbOutput (entries : List FdbEntry) : List Char := outputOf (entries.map FdbEntry.line)

/-! ## What a lookup is for -/

/-- An entry without a VLAN stands for the default VID. -/
def FdbFields.vid (e : FdbFields) : Nat := e.vlan.getD DEFAULT_VID

/-- A static entry with exactly this address and exactly this VID. -/
def FdbFields.Matches (e : FdbFields) (address : List Char) (vid : Nat) : Prop :=
  (∃ w ∈ e.state, w.text = Q_BRIDGE_STATIC.toList) ∧ e.addr.text = changeAddrDashesToColons address ∧ e.vid = vid

instance (e : FdbFields) (address : List Char) (vid : Nat) : Decidable (e.Matches address vid) :=
  inferInstanceAs (Decidable (_ ∧ _ ∧ _))

/-- Exactly the ports of the entries asked for are reported, and it is known
exactly whether there is one. -/
def LookupsExact (entries : List FdbEntry) (sh : Shape) (address : List Char) (vid : Nat) : Prop :=
  (∃ rows, getFdbPortNamesByAddrAndVid sh address (Nat.toDigits 10 vid) (some (fdbOutput entries)) =
      .ok (EXIT_SUCCESS, rows) ∧
    ∀ name, name ∈ rows.takeWhile (· ≠ []) ↔ ∃ e ∈ entries, e.Matches address vid ∧ e.dev.text = name) ∧
  ∃ ret, doesStaticFdbEntryExist address (Nat.toDigits 10 vid) (some (fdbOutput entries)) = .ok ret ∧
    (ret = EXIT_SUCCESS ↔ ∃ e ∈ entries, e.Matches address vid)

/-- A pattern occurs somewhere in the line of an entry. -/
def FdbFields.Contains (e : FdbFields) (pat : List Char) : Prop := pat ≠ [] ∧ pat <:+: e.text

instance (e : FdbFields) (pat : List Char) : Decidable (e.Contains pat) := inferInstanceAs (Decidable (_ ∧ _))

/-- The line of an entry contains the address, the digits and the word for a
static entry. -/
def FdbFields.Resembles (e : FdbFields) (address : List Char) (vid : Nat) : Prop :=
  e.Contains (addressCase address) ∧ e.Contains (vidCase (Nat.toDigits 10 vid)) ∧ e.Contains Q_BRIDGE_STATIC.toList

instance (e : FdbFields) (address : List Char) (vid : Nat) : Decidable (e.Resembles address vid) :=
  inferInstanceAs (Decidable (_ ∧ _ ∧ _))

/-- For the default VID the line must not contain the word for a VLAN. -/
def FdbFields.ResemblesDefault (e : FdbFields) (address : List Char) : Prop :=
  e.Contains (addressCase address) ∧ e.Contains Q_BRIDGE_STATIC.toList ∧ ¬ e.Contains Q_BRIDGE_COMP_VLAN.toList

instance (e : FdbFields) (address : List Char) : Decidable (e.ResemblesDefault address) :=
  inferInstanceAs (Decidable (_ ∧ _ ∧ _))

/-- The entries whose ports are reported. -/
def FdbFields.Reported (e : FdbFields) (address : List Char) (vid : Nat) : Prop :=
  if vid = DEFAULT_VID then e.ResemblesDefault address else e.Resembles address vid

instance (e : FdbFields) (address : List Char) (vid : Nat) : Decidable (e.Reported address vid) :=
  inferInstanceAs (Decidable (if vid = DEFAULT_VID then _ else _))

/-- No line that only resembles an entry asked for shows. For the default VID
the entries asked for must resemble themselves. -/
structure Told (entries : List FdbEntry) (sh : Shape) (address : List Char) (vid : Nat) : Prop where
  fits : (entries.filter (·.Reported address vid)).length ≤ sh.rowNum
  only : ∀ e ∈ entries, e.Reported address vid → ∃ e' ∈ entries, e'.Matches address vid ∧ e'.dev.text = e.dev.text
  default : vid = DEFAULT_VID →
    (∀ e ∈ entries, e.Matches address vid → ∃ e' ∈ entries, e'.Reported address vid ∧ e'.dev.text = e.dev.text) ∧
      ((∃ e ∈ entries, e.Resembles address vid) ↔ ∃ e ∈ entries, e.Matches address vid)

/-! ## Lines and patterns -/

@[simp] theorem line_contains {pat : List Char} {e : FdbEntry} : e.line.Contains pat ↔ e.Contains pat := Iff.rfl

@[simp] theorem notOnLine_passes {pat : List Char} {e : FdbEntry} :
    (ParserSpec.mk (some .isNotOnLine) pat).passes e.line.text = true ↔ ¬ e.Contains pat := by
  rw [← line_contains, ← onLine_passes, Bool.not_eq_true, ← Bool.not_eq_true']
  rfl

theorem fdbPortNamesFilters_passes (e : FdbEntry) (address : List Char) (vid : Nat) :
    (fdbPortNamesFilters address (Nat.toDigits 10 vid)).all (·.passes e.line.text) = true ↔
      e.Resembles address vid := by
  simp [fdbPortNamesFilters, FdbFields.Resembles]

theorem defaultFdbPortNamesFilters_passes (e : FdbEntry) (address : List Char) :
    (defaultFdbPortNamesFilters address).all (·.passes e.line.text) = true ↔ e.ResemblesDefault address := by
  simp [defaultFdbPortNamesFilters, FdbFields.ResemblesDefault]

theorem fdbExistsFilters_passes (e : FdbEntry) (address : List Char) (vid : Nat) :
    (fdbExistsFilters address (Nat.toDigits 10 vid)).all (·.passes e.line.text) = true ↔
      e.Resembles address vid := by
  simp only [fdbExistsFilters, List.all_cons, List.all_nil, Bool.and_true, Bool.and_eq_true, onLine_passes,
    line_contains, FdbFields.Resembles]
  exact ⟨fun h => ⟨h.2.1, h.2.2, h.1⟩, fun h => ⟨h.2.2, h.1, h.2.1⟩⟩

theorem isAddrChar_v : isAddrChar 'v' = false := by decide

/-- The first place of the word before the port is before the port. -/
theorem portName_word (e : FdbEntry) : portName.word e.line.text = some e.dev.text := by
  have hfind : strstr BASE_DEV_STR.toList e.text =
      some (BASE_DEV_STR.toList ++ ' ' :: (e.dev.text ++ ' ' :: e.rest)) := by
    have htext : e.text = (e.addr.text ++ [' ']) ++ (BASE_DEV_STR.toList ++ ' ' :: (e.dev.text ++ ' ' :: e.rest)) := by
      rw [FdbFields.text, List.append_assoc, List.singleton_append]
    rw [htext]
    refine strstr_append fun t ht hne hpre => ?_
    rcases List.prefix_or_prefix_of_prefix hpre (List.prefix_append ..) with h | h
    · -- The word would lie before the port.
      have hv : 'v' ∈ e.addr.text ++ [' '] := ht.subset (h.subset (by decide))
      rcases List.mem_append.1 hv with hv | hv
      · have := e.isAddr _ hv
        rw [isAddrChar_v] at this
        cases this
      · exact absurd hv (by decide)
    · -- The blank would be in the word.
      have hlast : ' ' ∈ t := by
        obtain ⟨s, hs⟩ := ht
        have hlast := congrArg List.getLast? hs
        rw [List.getLast?_append_of_ne_nil s hne, List.getLast?_concat] at hlast
        exact List.mem_of_getLast? hlast
      exact absurd (h.subset hlast) (by decide)
  have hline : e.line.text = e.text := rfl
  rw [hline, portName, ParserSpec.word]
  simp only [hfind, Option.map_some, List.drop_left, show BASE_DEV_STR.toList ≠ [] by decide, if_false]
  rw [nextWord_blank]

/-- The words of the lines that pass. -/
theorem captures_fdbOutput (filters : List ParserSpec) (entries : List FdbEntry) :
    captures filters portName (piecesOf (fdbOutput entries)) =
      (entries.filter fun e => filters.all (·.passes e.line.text)).map (·.dev.text) := by
  rw [fdbOutput, captures_outputOf, List.filterMap_map, ← List.filterMap_eq_map, List.filterMap_filter]
  refine List.filterMap_congr fun e _ => ?_
  rw [Function.comp, capture]
  split
  · rw [portName_word, Option.filter_some_pos (by simpa using e.dev.ne_nil)]
    rfl
  · rfl

theorem take_eq_default (vid : Nat) : (Nat.toDigits 10 vid).take BASE_FIVE = Nat.toDigits 10 DEFAULT_VID ↔
    vid = DEFAULT_VID := by
  constructor
  · intro h
    have hlen : (Nat.toDigits 10 vid).length ≤ BASE_FIVE := by
      by_contra hlong
      have := congrArg List.length h
      rw [List.length_take, Nat.min_eq_left (by omega)] at this
      revert this
      decide
    rw [List.take_of_length_le hlen] at h
    exact toDigits_inj h
  · rintro rfl
    decide

/-- The ports of all reported entries come out. -/
theorem getFdbPortNames_eq (entries : List FdbEntry) {sh : Shape} (hsh : sh.HoldsLines) (address : List Char)
    (vid : Nat) :
    getFdbPortNamesByAddrAndVid sh address (Nat.toDigits 10 vid) (some (fdbOutput entries)) =
      if (entries.filter (·.Reported address vid)).length ≤ sh.rowNum then
        .ok (EXIT_SUCCESS,
          filled sh.rowNum (uniqRows [] ((entries.filter (·.Reported address vid)).map (·.dev.text))))
      else .error .write := by
  have hp : portName.TakesWord := .inr rfl
  rw [getFdbPortNamesByAddrAndVid]
  simp only [take_eq_default]
  by_cases hv : vid = DEFAULT_VID
  · have hf : ∀ f ∈ defaultFdbPortNamesFilters address, f.IsFilter := by
      simp only [defaultFdbPortNamesFilters, List.forall_mem_cons]
      exact ⟨.inl rfl, .inl rfl, .inr rfl, fun _ h => absurd h List.not_mem_nil⟩
    have hrep : (entries.filter fun e => (defaultFdbPortNamesFilters address).all (·.passes e.line.text)) =
        entries.filter (·.Reported address vid) := by
      refine List.filter_congr fun e _ => ?_
      rw [Bool.eq_iff_iff, decide_eq_true_iff, defaultFdbPortNamesFilters_passes, FdbFields.Reported, if_pos hv]
    rw [if_pos hv, portNamesSpec, getObject_uniq hf hp hsh, captures_fdbOutput, hrep, List.length_map]
  · have hf : ∀ f ∈ fdbPortNamesFilters address (Nat.toDigits 10 vid), f.IsFilter := by
      simp only [fdbPortNamesFilters, List.forall_mem_cons]
      exact ⟨.inl rfl, .inl rfl, .inl rfl, fun _ h => absurd h List.not_mem_nil⟩
    have hrep : (entries.filter fun e =>
        (fdbPortNamesFilters address (Nat.toDigits 10 vid)).all (·.passes e.line.text)) =
          entries.filter (·.Reported address vid) := by
      refine List.filter_congr fun e _ => ?_
      rw [Bool.eq_iff_iff, decide_eq_true_iff, fdbPortNamesFilters_passes, FdbFields.Reported, if_neg hv]
    rw [if_neg hv, portNamesSpec, getObject_uniq hf hp hsh, captures_fdbOutput, hrep, List.length_map]

theorem doesStaticFdbEntryExist_eq (entries : List FdbEntry) (address : List Char) (vid : Nat) :
    doesStaticFdbEntryExist address (Nat.toDigits 10 vid) (some (fdbOutput entries)) =
      .ok (if ∃ e ∈ entries, e.Resembles address vid then EXIT_SUCCESS else EXIT_FAILURE) := by
  have hf : ∀ f ∈ fdbExistsFilters address (Nat.toDigits 10 vid), f.IsFilter := by
    simp only [fdbExistsFilters, List.forall_mem_cons]
    exact ⟨.inl rfl, .inl rfl, .inl rfl, fun _ h => absurd h List.not_mem_nil⟩
  have hex : (∃ l ∈ entries.map FdbEntry.line,
      (fdbExistsFilters address (Nat.toDigits 10 vid)).all (·.passes l.text) = true) ↔
        ∃ e ∈ entries, e.Resembles address vid := by
    simp only [List.mem_map, exists_exists_and_eq_and, fdbExistsFilters_passes]
  rw [doesStaticFdbEntryExist, fdbOutput, getObject_and hf (List.cons_ne_nil _ _)]
  simp only [hex]
  rfl

/-! ## Exactness -/

/-- An entry resembles what it is asked for with. -/
theorem FdbFields.Matches.resembles {e : FdbFields} {address : List Char} {vid : Nat} (h : e.Matches address vid)
    (hv : vid ≠ DEFAULT_VID) : e.Resembles address vid := by
  obtain ⟨⟨w, hw, hstatic⟩, haddr, hvid⟩ := h
  have hvlan : e.vlan = some vid := by
    rw [FdbFields.vid] at hvid
    cases hvl : e.vlan with
    | none => exact absurd (by rw [← hvid, hvl]; rfl) hv
    | some v => rw [hvl, Option.getD_some] at hvid; rw [hvid]
  have hcase : addressCase address = e.addr.text.take (MAX_STR_LEN - 1) := by
    rw [haddr, addressCase, changeAddrDashesToColons, changeAddrDashesToColons, List.map_take]
  refine ⟨⟨?_, ?_⟩, ⟨?_, ?_⟩, by decide, ?_⟩
  · rw [hcase, ne_eq, List.take_eq_nil_iff, not_or]
    exact ⟨by decide, e.addr.ne_nil⟩
  · rw [hcase]
    exact ((List.take_prefix _ _).trans (List.prefix_append ..)).isInfix
  · rw [vidCase, ne_eq, List.take_eq_nil_iff, not_or]
    exact ⟨by decide, Nat.toDigits_ne_nil⟩
  · refine (List.take_prefix _ _).isInfix.trans
      ⟨e.addr.text ++ ' ' :: (BASE_DEV_STR.toList ++ ' ' :: (e.dev.text ++ ' ' ::
          (e.options.flatMap Word.field ++ Q_BRIDGE_COMP_VLAN.toList ++ [' ']))),
        ' ' :: (e.flags.flatMap Word.field ++ e.state.elim [] Word.text), ?_⟩
    simp only [FdbFields.text, FdbFields.rest, hvlan, Option.elim_some, List.append_assoc, List.cons_append,
      List.nil_append]
  · have hstate : Q_BRIDGE_STATIC.toList = e.state.elim [] Word.text := by
      rw [Option.mem_def.1 hw, Option.elim_some, hstatic]
    rw [hstate]
    refine ⟨e.addr.text ++ ' ' :: (BASE_DEV_STR.toList ++ ' ' :: (e.dev.text ++ ' ' ::
        (e.options.flatMap Word.field ++ (e.vlan.elim [] fun v =>
          Q_BRIDGE_COMP_VLAN.toList ++ ' ' :: (Nat.toDigits 10 v ++ [' '])) ++ e.flags.flatMap Word.field))), [], ?_⟩
    simp only [FdbFields.text, FdbFields.rest, List.append_assoc, List.cons_append, List.append_nil]

/-- **The lookups are exact where no line shows that only resembles an entry
asked for.** -/
theorem lookups_iff (entries : List FdbEntry) {sh : Shape} (hsh : sh.HoldsLines) (address : List Char) (vid : Nat) :
    LookupsExact entries sh address vid ↔ Told entries sh address vid := by
  rw [LookupsExact, getFdbPortNames_eq entries hsh, doesStaticFdbEntryExist_eq]
  have hexists : ((if ∃ e ∈ entries, e.Resembles address vid then EXIT_SUCCESS else EXIT_FAILURE) = EXIT_SUCCESS) ↔
      ∃ e ∈ entries, e.Resembles address vid := by
    split <;> rename_i h
    · exact iff_of_true rfl h
    · exact iff_of_false (by decide) h
  have hsame : vid ≠ DEFAULT_VID → ∀ e : FdbEntry, e.Reported address vid ↔ e.Resembles address vid := fun hv e => by
    rw [FdbFields.Reported, if_neg hv]
  by_cases hfit : (entries.filter (·.Reported address vid)).length ≤ sh.rowNum
  · rw [if_pos hfit]
    have hnames : ∀ name, name ∈ (filled sh.rowNum
        (uniqRows [] ((entries.filter (·.Reported address vid)).map (·.dev.text)))).takeWhile (· ≠ []) ↔
          ∃ e ∈ entries, e.Reported address vid ∧ e.dev.text = name := by
      intro name
      rw [takeWhile_filled fun t ht => ?_]
      · simp [mem_uniqRows, and_assoc]
      · obtain ⟨e, -, rfl⟩ := List.mem_map.1 (mem_uniqRows.1 ht).1
        exact e.dev.ne_nil
    constructor
    · rintro ⟨⟨rows, hrows, hexact⟩, ret, hret, hfound⟩
      simp only [Except.ok.injEq, Prod.mk.injEq, true_and] at hrows hret
      subst hrows hret
      simp only [hnames] at hexact
      rw [hexists] at hfound
      exact ⟨hfit, fun e he hr => (hexact _).1 ⟨e, he, hr, rfl⟩,
        fun _ => ⟨fun e he hm => (hexact _).2 ⟨e, he, hm, rfl⟩, hfound⟩⟩
    · intro told
      refine ⟨⟨_, rfl, fun name => ?_⟩, _, rfl, ?_⟩
      · rw [hnames]
        constructor
        · rintro ⟨e, he, hr, rfl⟩
          exact told.only e he hr
        · rintro ⟨e, he, hm, rfl⟩
          by_cases hv : vid = DEFAULT_VID
          · exact (told.default hv).1 e he hm
          · exact ⟨e, he, (hsame hv e).2 (hm.resembles hv), rfl⟩
      · rw [hexists]
        by_cases hv : vid = DEFAULT_VID
        · exact (told.default hv).2
        · constructor
          · rintro ⟨e, he, hr⟩
            obtain ⟨e', he', hm, -⟩ := told.only e he ((hsame hv e).2 hr)
            exact ⟨e', he', hm⟩
          · rintro ⟨e, he, hm⟩
            exact ⟨e, he, hm.resembles hv⟩
  · rw [if_neg hfit]
    refine iff_of_false ?_ fun told => hfit told.fits
    rintro ⟨⟨rows, hrows, -⟩, -⟩
    cases hrows

/-- A static entry of VLAN 10. -/
def vlan10Entry : FdbEntry where
  addr := ⟨"00:11:22:33:44:55".toList, by decide, List.forall_iff_forall_mem.1 (by decide)⟩
  isAddr := List.forall_iff_forall_mem.1 (by decide)
  dev := ⟨"sw0p2".toList, by decide, List.forall_iff_forall_mem.1 (by decide)⟩
  options := []
  vlan := some 10
  flags := [⟨"master".toList, by decide, List.forall_iff_forall_mem.1 (by decide)⟩]
  state := some ⟨Q_BRIDGE_STATIC.toList, by decide, List.forall_iff_forall_mem.1 (by decide)⟩
  fits := by decide

/-- The array of a caller. -/
def staticFdbShape : Shape := ⟨BASE_MAX_NUM_OF_STATIC_FDB_ENTRIES, MAX_STR_LEN, by decide, MAX_STR_LEN_pos⟩

theorem lookups_iff_example : staticFdbShape.HoldsLines ∧
    (LookupsExact [vlan10Entry] staticFdbShape "00-11-22-33-44-55".toList 10 ↔
      Told [vlan10Entry] staticFdbShape "00-11-22-33-44-55".toList 10) :=
  have hsh : staticFdbShape.HoldsLines := ⟨by decide, by decide⟩
  ⟨hsh, lookups_iff _ hsh _ _⟩

/-- The entry is taken for one of VLAN 1. -/
theorem not_lookups_exact_vlan1 :
    ¬ LookupsExact [vlan10Entry] staticFdbShape "00-11-22-33-44-55".toList 1 := by
  rintro ⟨-, ret, hret, hfound⟩
  have hval : doesStaticFdbEntryExist "00-11-22-33-44-55".toList (Nat.toDigits 10 1)
      (some (fdbOutput [vlan10Entry])) = .ok EXIT_SUCCESS := by decide +kernel
  rw [hval, Except.ok.injEq] at hret
  have hno : ¬ ∃ e ∈ [vlan10Entry], e.Matches "00-11-22-33-44-55".toList 1 := by decide
  exact hno (hfound.1 hret.symm)

end TsnSwitch.Tools
