/-
Translating a text by a map of pairs (`translate_single_string_using_map` in
base_private_translators.c).

The search goes on until a pair has an empty text. Most maps are declared with
as many pairs as they have entries, so that a text which is no key of theirs is
searched for behind the map (`StringMap.translates_iff`).
-/
import TsnSwitch.Base.Vids
import TsnSwitch.Lib.Sentinel

namespace TsnSwitch.Base

open Lib

/-- A key and the new value. -/
abbrev StringPair := String × String

/-- `strncmp(a, b, MAX_STR_LEN) == 0`. -/
def sameText (a b : String) : Bool := a.toList.take MAX_STR_LEN = b.toList.take MAX_STR_LEN

/-- What `strncpy` makes of `MAX_STR_LEN` characters. -/
def copyText (s : String) : String := String.ofList (s.toList.take MAX_STR_LEN)

/-- A pair with an empty text ends the map. -/
def endsMap (pair : StringPair) : Bool := sameText pair.1 "" || sameText pair.2 ""

/-- A finished translation. -/
structure Translation where
  ret : Nat
  value : String
  /-- How many pairs were looked at, from the first of the map on. -/
  pairs : Nat
  deriving DecidableEq

/-- `map` is what memory holds from the map on, and `none` is a search that
leaves it. -/
def translateSingleStringUsingMap (value : String) (map : List StringPair) : Option Translation :=
  if sameText value "" then some ⟨EXIT_SUCCESS, value, 0⟩
  else
    match searchFrom endsMap (fun pair => sameText value pair.1) 0 map with
    | .hit pair i => some ⟨EXIT_SUCCESS, copyText pair.2, i + 1⟩
    | .ended i => some ⟨EXIT_FAILURE, value, i + 1⟩
    | .left => none

/-! ## Maps -/

/-- A map as it is declared: its entries, and for how many pairs. Only the
last entry may have the empty key. -/
structure StringMap where
  entries : List StringPair
  size : Nat
  fits : (entries.length ≤ size : Bool) = true
  short : (entries.all fun pair => pair.1.length < MAX_STR_LEN && pair.2.length < MAX_STR_LEN) = true
  valued : (entries.all fun pair => pair.2 != "") = true
  keyed : (entries.dropLast.all fun pair => pair.1 != "") = true

namespace StringMap

/-- The pairs of the map: what no entry is given for is zero. -/
def rows (m : StringMap) : List StringPair := m.entries ++ List.replicate (m.size - m.entries.length) ("", "")

def keys (m : StringMap) : List String := m.entries.map Prod.fst

/-- The value paired with a key, by the first of its entries. -/
def lookup (m : StringMap) (key : String) : Option String :=
  (m.entries.find? fun pair => pair.1 = key).map Prod.snd

/-- A pair of the map ends it. -/
def Ended (m : StringMap) : Prop := ∃ pair ∈ m.rows, endsMap pair = true

instance (m : StringMap) : Decidable m.Ended := inferInstanceAs (Decidable (∃ _ ∈ _, _))

/-- The translation by the map, whatever lies behind it in memory. -/
def translate (m : StringMap) (behind : List StringPair) (value : String) : Option Translation :=
  translateSingleStringUsingMap value (m.rows ++ behind)

/-- A key is translated, another text fails and stays as it is, and no pair is
looked at that is not the map's. -/
def Translates (m : StringMap) (behind : List StringPair) (value : String) : Prop :=
  ∃ t, m.translate behind value = some t ∧
    (t.ret = EXIT_SUCCESS ↔ value ∈ m.keys) ∧
    (t.ret = EXIT_SUCCESS → m.lookup value = some t.value) ∧
    (value ∉ m.keys → t.value = value) ∧
    t.pairs ≤ m.rows.length

/-- What the first map makes of a key of its, the second makes undone. -/
def Inverts (forward reverse : StringMap) : Prop :=
  ∀ behind behind' key, key ∈ forward.keys → ∃ t t',
    forward.translate behind key = some t ∧ t.ret = EXIT_SUCCESS ∧
    reverse.translate behind' t.value = some t' ∧ t'.ret = EXIT_SUCCESS ∧ t'.value = key

end StringMap

/-! ## Texts -/

theorem sameText_iff {a b : String} (hb : b.length < MAX_STR_LEN) : sameText a b = true ↔ a = b := by
  have hlen : b.toList.length < MAX_STR_LEN := hb
  rw [sameText, decide_eq_true_iff, List.take_of_length_le (Nat.le_of_lt hlen)]
  refine ⟨fun h => ?_, fun h => by rw [h, List.take_of_length_le (Nat.le_of_lt hlen)]⟩
  have ha : a.toList.length ≤ MAX_STR_LEN := by
    have := congrArg List.length h
    rw [List.length_take] at this
    omega
  rw [List.take_of_length_le ha] at h
  exact String.toList_inj.1 h

theorem sameText_empty {a : String} : sameText a "" = true ↔ a = "" :=
  sameText_iff (Nat.le_of_ble_eq_true rfl)

theorem copyText_eq {s : String} (hs : s.length < MAX_STR_LEN) : copyText s = s := by
  have hlen : s.toList.length < MAX_STR_LEN := hs
  rw [copyText, List.take_of_length_le (Nat.le_of_lt hlen), String.ofList_toList]

theorem short_of_all {entries : List StringPair}
    (h : (entries.all fun pair => pair.1.length < MAX_STR_LEN && pair.2.length < MAX_STR_LEN) = true)
    {pair : StringPair} (hmem : pair ∈ entries) :
    pair.1.length < MAX_STR_LEN ∧ pair.2.length < MAX_STR_LEN := by
  have hshort := List.all_eq_true.1 h pair hmem
  rw [Bool.and_eq_true, decide_eq_true_iff, decide_eq_true_iff] at hshort
  exact hshort

namespace StringMap

variable {m : StringMap}

theorem length_rows : m.rows.length = m.size := by
  have hfits := of_decide_eq_true m.fits
  rw [rows, List.length_append, List.length_replicate]
  omega

theorem short_of_mem {pair : StringPair} (h : pair ∈ m.entries) :
    pair.1.length < MAX_STR_LEN ∧ pair.2.length < MAX_STR_LEN := short_of_all m.short h

theorem endsMap_iff {pair : StringPair} (h : pair ∈ m.entries) : endsMap pair = true ↔ pair.1 = "" := by
  have hvalue : pair.2 ≠ "" := bne_iff_ne.1 (List.all_eq_true.1 m.valued pair h)
  rw [endsMap, Bool.or_eq_true, sameText_empty, sameText_empty, or_iff_left hvalue]

/-- A map ends where a key is empty. -/
theorem ended_iff_blank : m.Ended ↔ "" ∈ m.rows.map Prod.fst := by
  rw [Ended, List.mem_map]
  refine exists_congr fun pair => and_congr_right fun h => ?_
  rcases List.mem_append.1 h with hentry | hzero
  · exact endsMap_iff hentry
  · obtain rfl := List.eq_of_mem_replicate hzero
    exact iff_of_true (Bool.or_eq_true_iff.2 (.inl (sameText_empty.2 rfl))) rfl

/-- The entries before another one do not end the map. -/
theorem not_endsMap {pre post : List StringPair} {pair : StringPair} (h : m.entries = pre ++ pair :: post)
    {before : StringPair} (hbefore : before ∈ pre) : endsMap before = false := by
  have hkeyed := m.keyed
  rw [h, List.dropLast_append_cons, List.all_append, Bool.and_eq_true] at hkeyed
  have hmem : before ∈ m.entries := h ▸ List.mem_append_left _ hbefore
  exact Bool.eq_false_iff.2 fun hend =>
    bne_iff_ne.1 (List.all_eq_true.1 hkeyed.1 before hbefore) ((endsMap_iff hmem).1 hend)

/-- A pair of the map has the key that is searched for. -/
theorem sameText_row {value : String} (hvalue : value ≠ "") {pair : StringPair} (h : pair ∈ m.rows) :
    sameText value pair.1 = true ↔ pair ∈ m.entries ∧ pair.1 = value := by
  rcases List.mem_append.1 h with hentry | hzero
  · rw [sameText_iff (short_of_mem hentry).1, eq_comm]
    exact (and_iff_right hentry).symm
  · obtain rfl := List.eq_of_mem_replicate hzero
    rw [sameText_empty]
    exact iff_of_false hvalue fun h => hvalue h.2.symm

/-- **A key is found at its first entry.** -/
theorem translate_key {value : String} (hvalue : value ≠ "") (hkey : value ∈ m.keys) (behind : List StringPair) :
    ∃ new i, m.lookup value = some new ∧ i < m.rows.length ∧
      m.translate behind value = some ⟨EXIT_SUCCESS, new, i + 1⟩ := by
  obtain ⟨entry, hentry, hkey⟩ := List.mem_map.1 hkey
  obtain ⟨pair, hpair⟩ := Option.isSome_iff_exists.1
    ((List.find?_isSome (p := fun pair => decide (pair.1 = value))).2 ⟨entry, hentry, decide_eq_true hkey⟩)
  obtain ⟨heq, pre, post, hsplit, hpre⟩ := List.find?_eq_some_iff_append.1 hpair
  have hmem : pair ∈ m.entries := hsplit ▸ List.mem_append_right _ (List.mem_cons_self ..)
  have hne : endsMap pair = false :=
    Bool.eq_false_iff.2 fun hend => hvalue ((of_decide_eq_true heq).symm.trans ((endsMap_iff hmem).1 hend))
  have hrows : m.rows ++ behind =
      pre ++ pair :: (post ++ List.replicate (m.size - m.entries.length) ("", "") ++ behind) := by
    rw [rows, hsplit]
    simp only [List.append_assoc, List.cons_append]
  refine ⟨pair.2, pre.length, by rw [lookup, hpair]; rfl, ?_, ?_⟩
  · rw [rows, hsplit]
    simp only [List.length_append, List.length_cons]
    omega
  · rw [translate, translateSingleStringUsingMap, if_neg (fun h => hvalue (sameText_empty.1 h)), hrows,
      searchFrom_hit ?_ hne (by rw [sameText_iff (short_of_mem hmem).1, of_decide_eq_true heq])]
    · simp only [copyText_eq (short_of_mem hmem).2, Nat.zero_add]
    · intro before hbefore
      have hmem' : before ∈ m.entries := hsplit ▸ List.mem_append_left _ hbefore
      refine ⟨not_endsMap hsplit hbefore, Bool.eq_false_iff.2 fun h => ?_⟩
      rw [sameText_iff (short_of_mem hmem').1] at h
      simpa [h] using hpre before hbefore

/-- No pair of the map is the key of another text. -/
theorem not_sameText {value : String} (hvalue : value ≠ "") (hkey : value ∉ m.keys) :
    ∀ pair ∈ m.rows, sameText value pair.1 = false := by
  intro pair hpair
  refine Bool.eq_false_iff.2 fun h => ?_
  obtain ⟨hentry, heq⟩ := (sameText_row hvalue hpair).1 h
  exact hkey (List.mem_map.2 ⟨pair, hentry, heq⟩)

/-- **Another text fails where the map ends by a pair of its own.** -/
theorem translate_unknown {value : String} (hvalue : value ≠ "") (hkey : value ∉ m.keys) (hend : m.Ended)
    (behind : List StringPair) :
    ∃ i < m.rows.length, m.translate behind value = some ⟨EXIT_FAILURE, value, i + 1⟩ := by
  obtain ⟨i, hi, hsearch⟩ := searchFrom_of_not_hit (not_sameText hvalue hkey) hend 0 behind
  refine ⟨i, hi, ?_⟩
  rw [translate, translateSingleStringUsingMap, if_neg (fun h => hvalue (sameText_empty.1 h)), hsearch, Nat.zero_add]

/-- **Elsewhere the search goes on behind the map.** -/
theorem translate_behind {value : String} (hvalue : value ≠ "") (hkey : value ∉ m.keys) (hend : ¬ m.Ended)
    (behind : List StringPair) {t : Translation} (ht : m.translate behind value = some t) :
    m.rows.length < t.pairs := by
  have hpass : ∀ pair ∈ m.rows, endsMap pair = false ∧ sameText value pair.1 = false := fun pair hpair =>
    ⟨Bool.eq_false_iff.2 fun h => hend ⟨pair, hpair, h⟩, not_sameText hvalue hkey pair hpair⟩
  have hsearch := searchFrom_append hpass 0 behind
  rw [Nat.zero_add] at hsearch
  rw [translate, translateSingleStringUsingMap, if_neg (fun h => hvalue (sameText_empty.1 h)), hsearch] at ht
  split at ht
  · rename_i pair i hit
    obtain rfl := Option.some.inj ht
    exact Nat.lt_succ_of_le (le_of_searchFrom (.inl ⟨pair, hit⟩))
  · rename_i i hended
    obtain rfl := Option.some.inj ht
    exact Nat.lt_succ_of_le (le_of_searchFrom (.inr hended))
  · exact absurd ht (by simp)

theorem lookup_ne_empty {value new : String} (h : m.lookup value = some new) : new ≠ "" := by
  obtain ⟨pair, hpair, rfl⟩ := Option.map_eq_some_iff.1 h
  exact bne_iff_ne.1 (List.all_eq_true.1 m.valued pair (List.mem_of_find?_eq_some hpair))

theorem mem_keys_of_lookup {value new : String} (h : m.lookup value = some new) : value ∈ m.keys := by
  obtain ⟨pair, hpair, -⟩ := Option.map_eq_some_iff.1 h
  have heq := List.find?_some hpair
  exact List.mem_map.2 ⟨pair, List.mem_of_find?_eq_some hpair, of_decide_eq_true heq⟩

theorem translate_empty (behind : List StringPair) : m.translate behind "" = some ⟨EXIT_SUCCESS, "", 0⟩ := by
  rw [translate, translateSingleStringUsingMap, if_pos (sameText_empty.2 rfl)]

/-- **A map translates its keys, and other texts only where it ends by a pair
of its own. The empty text is never translated.** -/
theorem translates_iff_known (m : StringMap) (behind : List StringPair) (value : String) :
    m.Translates behind value ↔ value ≠ "" ∧ (value ∈ m.keys ∨ m.Ended) := by
  have hdiff : EXIT_FAILURE ≠ EXIT_SUCCESS := by decide
  constructor
  · rintro ⟨t, ht, hkey, hnew, -, hpairs⟩
    have hvalue : value ≠ "" := by
      rintro rfl
      obtain rfl := Option.some.inj ((translate_empty behind).symm.trans ht)
      exact lookup_ne_empty (hnew rfl) rfl
    refine ⟨hvalue, or_iff_not_imp_left.2 fun hunknown => ?_⟩
    by_contra hend
    exact Nat.not_lt.2 hpairs (translate_behind hvalue hunknown hend behind ht)
  · rintro ⟨hvalue, hknown⟩
    by_cases hkey : value ∈ m.keys
    · obtain ⟨new, i, hlookup, hi, ht⟩ := translate_key hvalue hkey behind
      exact ⟨_, ht, iff_of_true rfl hkey, fun _ => hlookup, fun h => absurd hkey h, hi⟩
    · obtain ⟨i, hi, ht⟩ := translate_unknown hvalue hkey (hknown.resolve_left hkey) behind
      exact ⟨_, ht, iff_of_false hdiff hkey, fun h => absurd h hdiff, fun _ => rfl, hi⟩

/-- Where every key's value is a key of the reverse map, paired with the key. -/
theorem inverts_of_lookup {forward reverse : StringMap} (hkeys : "" ∉ forward.keys)
    (h : ∀ key ∈ forward.keys, (forward.lookup key).bind reverse.lookup = some key) : forward.Inverts reverse := by
  intro behind behind' key hkey
  have hne : key ≠ "" := fun h => hkeys (h ▸ hkey)
  obtain ⟨new, i, hlookup, -, ht⟩ := translate_key hne hkey behind
  have hback := h key hkey
  rw [hlookup, Option.bind_some] at hback
  obtain ⟨new', i', hlookup', -, ht'⟩ :=
    translate_key (lookup_ne_empty hlookup) (mem_keys_of_lookup hback) behind'
  obtain rfl := Option.some.inj (hlookup'.symm.trans hback)
  exact ⟨_, _, ht, rfl, ht', rfl, rfl⟩

end StringMap

end TsnSwitch.Base
