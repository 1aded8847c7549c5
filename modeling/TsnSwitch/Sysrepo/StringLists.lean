/-
Translating a list of texts by a map (`translate_strings_using_map` in
common.c).

The place in the map is kept from one text to the next, so that only what
comes in the order of the map is translated (`translatesAll_iff`).
-/
import TsnSwitch.Base.Translators

namespace TsnSwitch.Sysrepo.Maps

open Base Lib

/-- What is returned, and the rows as they are left. -/
structure ListTranslation where
  ret : Nat
  values : List String
  deriving DecidableEq

/-- The outer loop at the pair `mapPair` of the map, with the rows from the
next value on. `none` is a loop that leaves the memory of the map or the
values. -/
def translateStringsFrom (map : List StringPair) : Nat → List String → Option ListTranslation
  | _, [] => none
  | mapPair, value :: values =>
    if sameText value "" then some ⟨EXIT_SUCCESS, value :: values⟩
    else
      match searchFrom endsMap (fun pair => sameText value pair.1) mapPair (map.drop mapPair) with
      | .hit pair i =>
        -- the next value is looked for from this pair on
        (translateStringsFrom map i values).map fun t => ⟨t.ret, copyText pair.2 :: t.values⟩
      | .ended _ => some ⟨EXIT_FAILURE, value :: values⟩
      | .left => none

def translateStringsUsingMap (values : List String) (map : List StringPair) : Option ListTranslation :=
  translateStringsFrom map 0 values

/-! ## What the translation is for -/

/-- A map that ends by a pair of its own, its keys distinct. -/
structure EndedMap where
  entries : List StringPair
  last : StringPair
  ends : endsMap last = true
  short : (entries.all fun pair => pair.1.length < MAX_STR_LEN && pair.2.length < MAX_STR_LEN) = true
  named : (entries.all fun pair => pair.1 != "" && pair.2 != "") = true
  distinct : (entries.map Prod.fst).Nodup

namespace EndedMap

/-- The map with what lies behind it in memory. -/
def memory (m : EndedMap) (behind : List StringPair) : List StringPair := m.entries ++ m.last :: behind

def keys (m : EndedMap) : List String := m.entries.map Prod.fst

/-- The place of a key. -/
def position (m : EndedMap) (key : String) : Nat := m.keys.idxOf key

/-- The value paired with a key. -/
def lookup (m : EndedMap) (key : String) : String :=
  ((m.entries.find? fun pair => pair.1 = key).map Prod.snd).getD ""

end EndedMap

/-- The values of a list, which an empty text ends. -/
structure ValueList where
  texts : List String
  filled : (texts.all fun text => text != "") = true

/-- The translation succeeds when all values are keys, and then replaces them
all. -/
def TranslatesAll (m : EndedMap) (behind : List StringPair) (values : ValueList) (rows : List String) : Prop :=
  ∃ t, translateStringsUsingMap (values.texts ++ "" :: rows) (m.memory behind) = some t ∧
    (t.ret = EXIT_SUCCESS ↔ ∀ value ∈ values.texts, value ∈ m.keys) ∧
    (t.ret = EXIT_SUCCESS → t.values = values.texts.map m.lookup ++ "" :: rows)

/-- The values come in the order of the map. -/
def InMapOrder (m : EndedMap) (values : List String) : Prop := (values.map m.position).Pairwise (· ≤ ·)

instance (m : EndedMap) (values : List String) : Decidable (InMapOrder m values) :=
  inferInstanceAs (Decidable (List.Pairwise _ _))

/-! ## One value -/

namespace EndedMap

variable {m : EndedMap}

theorem short_of_mem {pair : StringPair} (h : pair ∈ m.entries) :
    pair.1.length < MAX_STR_LEN ∧ pair.2.length < MAX_STR_LEN := short_of_all m.short h

theorem not_endsMap {pair : StringPair} (h : pair ∈ m.entries) : endsMap pair = false := by
  have hnamed := List.all_eq_true.1 m.named pair h
  rw [Bool.and_eq_true, bne_iff_ne, bne_iff_ne] at hnamed
  rw [endsMap, Bool.or_eq_false_iff, Bool.eq_false_iff, Bool.eq_false_iff, Ne, Ne, sameText_empty, sameText_empty]
  exact hnamed

/-- The entry of a key, with those before it. -/
theorem exists_entry {value : String} (hkey : value ∈ m.keys) :
    ∃ pre post, m.entries = pre ++ (value, m.lookup value) :: post ∧ pre.length = m.position value ∧
      ∀ pair ∈ pre ++ post, pair.1 ≠ value := by
  obtain ⟨⟨key, new⟩, hentry, rfl⟩ := List.mem_map.1 hkey
  obtain ⟨pre, post, hsplit⟩ := List.append_of_mem hentry
  have hdistinct := m.distinct
  rw [hsplit, List.map_append, List.map_cons, List.nodup_middle, List.nodup_cons, ← List.map_append] at hdistinct
  have hother : ∀ pair ∈ pre ++ post, pair.1 ≠ key := fun pair hpair heq =>
    hdistinct.1 (List.mem_map.2 ⟨pair, hpair, heq⟩)
  have hlookup : m.lookup key = new := by
    have hfind : m.entries.find? (fun pair => pair.1 = key) = some (key, new) := by
      rw [List.find?_eq_some_iff_append]
      refine ⟨decide_eq_true rfl, pre, post, hsplit, fun pair hpair => ?_⟩
      simpa using hother pair (List.mem_append_left _ hpair)
    rw [lookup, hfind]
    rfl
  refine ⟨pre, post, hlookup ▸ hsplit, ?_, hother⟩
  have hbefore : key ∉ pre.map Prod.fst := by
    intro h
    obtain ⟨pair, hpair, heq⟩ := List.mem_map.1 h
    exact hother pair (List.mem_append_left _ hpair) heq
  rw [position, keys, hsplit, List.map_append, List.idxOf_append_of_notMem hbefore, List.map_cons,
    List.idxOf_cons_self, List.length_map, Nat.add_zero]

/-- The search for a value from a place on. -/
theorem search_value {mapPair : Nat} (hplace : mapPair ≤ m.entries.length) (behind : List StringPair)
    (value : String) :
    searchFrom endsMap (fun pair => sameText value pair.1) mapPair ((m.memory behind).drop mapPair) =
      if value ∈ m.keys ∧ mapPair ≤ m.position value then .hit (value, m.lookup value) (m.position value)
      else .ended m.entries.length := by
  have hmiss : ∀ pair ∈ m.entries, pair.1 ≠ value → endsMap pair = false ∧ sameText value pair.1 = false :=
    fun pair hpair hne => ⟨not_endsMap hpair, Bool.eq_false_iff.2 fun h =>
      hne ((sameText_iff (short_of_mem hpair).1).1 h).symm⟩
  rw [memory, List.drop_append_of_le_length hplace]
  split
  · rename_i h
    obtain ⟨hkey, hle⟩ := h
    obtain ⟨pre, post, hsplit, hpos, hother⟩ := exists_entry hkey
    have hmem : (value, m.lookup value) ∈ m.entries := hsplit ▸ List.mem_append_right _ (List.mem_cons_self ..)
    have hdrop : m.entries.drop mapPair = pre.drop mapPair ++ (value, m.lookup value) :: post := by
      conv_lhs => rw [hsplit]
      exact List.drop_append_of_le_length (hpos ▸ hle)
    rw [hdrop, List.append_assoc, List.cons_append,
      searchFrom_hit ?_ (not_endsMap hmem) ((sameText_iff (short_of_mem hmem).1).2 rfl), List.length_drop, ← hpos]
    · congr 1
      omega
    · intro pair hpair
      have hpre := List.mem_of_mem_drop hpair
      exact hmiss pair (hsplit ▸ List.mem_append_left _ hpre) (hother pair (List.mem_append_left _ hpre))
  · rename_i h
    rw [searchFrom_ended ?_ m.ends, List.length_drop]
    · congr 1
      omega
    · intro pair hpair
      refine hmiss pair (List.mem_of_mem_drop hpair) fun heq => h ?_
      have hkey : value ∈ m.keys := List.mem_map.2 ⟨pair, List.mem_of_mem_drop hpair, heq⟩
      refine ⟨hkey, Nat.not_lt.1 fun hlt => ?_⟩
      -- the entries from the place on are all behind the value's own
      obtain ⟨pre, post, hsplit, hpos, hother⟩ := exists_entry hkey
      rw [hsplit, List.drop_append, List.drop_of_length_le (by omega), List.nil_append] at hpair
      obtain ⟨k, hk⟩ : ∃ k, mapPair - pre.length = k + 1 := ⟨mapPair - pre.length - 1, by omega⟩
      rw [hk, List.drop_succ_cons] at hpair
      exact hother pair (List.mem_append_right _ (List.mem_of_mem_drop hpair)) heq

theorem position_lt {value : String} (hkey : value ∈ m.keys) : m.position value < m.entries.length := by
  have h := List.idxOf_lt_length_iff.2 hkey
  rwa [keys, List.length_map] at h

end EndedMap

/-! ## All values -/

variable {m : EndedMap}

/-- From the place `mapPair` on, the values are met in the order they come. -/
def Follows (m : EndedMap) (mapPair : Nat) (values : List String) : Prop :=
  (∀ value ∈ values, value ∈ m.keys) ∧ (mapPair :: values.map m.position).Pairwise (· ≤ ·)

theorem follows_cons {mapPair : Nat} {value : String} {values : List String} :
    Follows m mapPair (value :: values) ↔
      (value ∈ m.keys ∧ mapPair ≤ m.position value) ∧ Follows m (m.position value) values := by
  rw [Follows, Follows, List.forall_mem_cons, List.map_cons, List.pairwise_cons, List.forall_mem_cons]
  constructor
  · rintro ⟨⟨hkey, hkeys⟩, ⟨hle, -⟩, hrest⟩
    exact ⟨⟨hkey, hle⟩, hkeys, hrest⟩
  · rintro ⟨⟨hkey, hle⟩, hkeys, hrest⟩
    exact ⟨⟨hkey, hkeys⟩, ⟨hle, fun i hi => Nat.le_trans hle ((List.pairwise_cons.1 hrest).1 i hi)⟩, hrest⟩

/-- **The loop succeeds for values that follow each other in the map.** -/
theorem translateStringsFrom_eq (behind : List StringPair) (rows : List String) {values : List String}
    (hfilled : ∀ value ∈ values, value ≠ "") {mapPair : Nat} (hplace : mapPair ≤ m.entries.length) :
    ∃ t, translateStringsFrom (m.memory behind) mapPair (values ++ "" :: rows) = some t ∧
      (t.ret = EXIT_SUCCESS ↔ Follows m mapPair values) ∧
      (t.ret = EXIT_SUCCESS → t.values = values.map m.lookup ++ "" :: rows) := by
  induction values generalizing mapPair with
  | nil =>
    rw [List.nil_append, translateStringsFrom, if_pos (sameText_empty.2 rfl)]
    exact ⟨_, rfl, iff_of_true rfl ⟨nofun, List.pairwise_singleton ..⟩, fun _ => rfl⟩
  | cons value values ih =>
    have hne : ¬ sameText value "" = true := fun h => hfilled value (List.mem_cons_self ..) (sameText_empty.1 h)
    rw [List.cons_append, translateStringsFrom, if_neg hne, EndedMap.search_value hplace]
    by_cases hnext : value ∈ m.keys ∧ mapPair ≤ m.position value
    · have hlt := EndedMap.position_lt hnext.1
      obtain ⟨t, ht, hret, hvalues⟩ := ih (fun v hv => hfilled v (List.mem_cons_of_mem _ hv)) (Nat.le_of_lt hlt)
      obtain ⟨pre, post, hsplit, -, -⟩ := EndedMap.exists_entry hnext.1
      have hmem : (value, m.lookup value) ∈ m.entries := hsplit ▸ List.mem_append_right _ (List.mem_cons_self ..)
      rw [if_pos hnext]
      refine ⟨⟨t.ret, copyText (m.lookup value) :: t.values⟩, by simp only [ht, Option.map_some], ?_, fun h => ?_⟩
      · rw [follows_cons, and_iff_right hnext]
        exact hret
      · rw [copyText_eq (EndedMap.short_of_mem hmem).2, hvalues h, List.map_cons, List.cons_append]
    · have hdiff : EXIT_FAILURE ≠ EXIT_SUCCESS := by decide
      rw [if_neg hnext]
      refine ⟨⟨EXIT_FAILURE, value :: (values ++ "" :: rows)⟩, rfl, ?_, fun h => absurd h hdiff⟩
      rw [follows_cons]
      exact iff_of_false hdiff fun h => hnext h.1

/-- **The values are translated as they should unless all of them are keys and
do not come in the order of the map.** -/
theorem translatesAll_iff (m : EndedMap) (behind : List StringPair) (values : ValueList) (rows : List String) :
    TranslatesAll m behind values rows ↔
      (∃ value ∈ values.texts, value ∉ m.keys) ∨ InMapOrder m values.texts := by
  have hfilled : ∀ value ∈ values.texts, value ≠ "" := fun value hvalue =>
    bne_iff_ne.1 (List.all_eq_true.1 values.filled value hvalue)
  obtain ⟨t, ht, hret, hvalues⟩ :=
    translateStringsFrom_eq (m := m) behind rows hfilled (Nat.zero_le _)
  have horder : Follows m 0 values.texts ↔ (∀ value ∈ values.texts, value ∈ m.keys) ∧ InMapOrder m values.texts := by
    rw [Follows, InMapOrder, List.pairwise_cons, and_iff_right fun _ _ => Nat.zero_le _]
  have hspec : TranslatesAll m behind values rows ↔
      (t.ret = EXIT_SUCCESS ↔ ∀ value ∈ values.texts, value ∈ m.keys) := by
    refine ⟨?_, fun h => ⟨t, ht, h, hvalues⟩⟩
    rintro ⟨t', ht', h, -⟩
    obtain rfl := Option.some.inj (ht.symm.trans ht')
    exact h
  rw [hspec, hret, horder]
  by_cases hkeys : ∀ value ∈ values.texts, value ∈ m.keys
  · have hnone : ¬ ∃ value ∈ values.texts, value ∉ m.keys := fun ⟨value, hvalue, h⟩ => h (hkeys value hvalue)
    rw [and_iff_right hkeys, or_iff_right hnone]
    exact ⟨fun h => h.2 hkeys, fun h => iff_of_true h hkeys⟩
  · obtain ⟨value, hvalue⟩ := not_forall.1 hkeys
    exact iff_of_true (iff_of_false (fun h => hkeys h.1) hkeys) (.inl ⟨value, Classical.not_imp.1 hvalue⟩)

/-- The map of `yes` and `no`, ended. -/
def yesNoMap : EndedMap :=
  ⟨[("yes", "true"), ("no", "false")], ("", ""), rfl, rfl, rfl,
    List.nodup_cons.2 ⟨fun h => absurd (List.mem_singleton.1 h) (ne_of_beq_false rfl), List.nodup_singleton _⟩⟩

/-- `no` before `yes` fails. -/
theorem not_translatesAll_noYes : ¬ TranslatesAll yesNoMap [] ⟨["no", "yes"], rfl⟩ [] := by
  have hrun : translateStringsUsingMap ["no", "yes", ""] (yesNoMap.memory []) =
      some ⟨EXIT_FAILURE, ["false", "yes", ""]⟩ := by decide
  rintro ⟨t, ht, h, -⟩
  obtain rfl := Option.some.inj (hrun.symm.trans ht)
  exact absurd (h.2 (by decide)) (by decide)

end TsnSwitch.Sysrepo.Maps
