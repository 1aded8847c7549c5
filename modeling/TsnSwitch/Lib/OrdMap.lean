/-
Search trees as lists in the order of their keys. `get?` is what a search
finds; a traversal visits `entries`, and `find?_eq_some_iff` says which entry
it meets first.
-/
import Mathlib.Tactic

namespace TsnSwitch.Lib

variable {κ α : Type*} [LinearOrder κ]

structure OrdMap (κ α : Type*) [LinearOrder κ] where
  entries : List (κ × α)
  sorted : entries.Pairwise fun a b => a.1 < b.1

namespace OrdMap

def empty : OrdMap κ α := ⟨[], .nil⟩

def get? (m : OrdMap κ α) (k : κ) : Option α := (m.entries.find? (·.1 = k)).map (·.2)

def erase (m : OrdMap κ α) (k : κ) : OrdMap κ α := ⟨m.entries.filter (·.1 ≠ k), m.sorted.filter _⟩

/-- Put an entry in its place, and another one with its key away. -/
def insert (m : OrdMap κ α) (k : κ) (v : α) : OrdMap κ α where
  entries := m.entries.filter (·.1 < k) ++ (k, v) :: m.entries.filter (k < ·.1)
  sorted := by
    refine List.pairwise_append.2 ⟨m.sorted.filter _, List.pairwise_cons.2 ⟨fun b hb => ?_, m.sorted.filter _⟩, ?_⟩
    · exact of_decide_eq_true (List.mem_filter.1 hb).2
    · intro a ha b hb
      have ha : a.1 < k := of_decide_eq_true (List.mem_filter.1 ha).2
      rcases List.mem_cons.1 hb with rfl | hb
      · exact ha
      · exact ha.trans (of_decide_eq_true (List.mem_filter.1 hb).2)

/-- Change the value of a key. -/
def modify (m : OrdMap κ α) (k : κ) (f : α → α) : OrdMap κ α where
  entries := m.entries.map fun e => if e.1 = k then (e.1, f e.2) else e
  sorted := by
    refine List.pairwise_map.2 (m.sorted.imp fun {a b} h => ?_)
    by_cases ha : a.1 = k <;> by_cases hb : b.1 = k <;> simpa only [ha, hb, if_true, if_false] using h

/-- Keys in a list in order are distinct. -/
theorem eq_of_fst_eq {l : List (κ × α)} (hs : l.Pairwise fun a b => a.1 < b.1) {a b : κ × α} (ha : a ∈ l)
    (hb : b ∈ l) (hk : a.1 = b.1) : a = b := by
  induction l with
  | nil => cases ha
  | cons e l ih =>
    rw [List.pairwise_cons] at hs
    rcases List.mem_cons.1 ha with rfl | ha'
    · rcases List.mem_cons.1 hb with rfl | hb'
      · rfl
      · exact absurd hk (hs.1 b hb').ne
    · rcases List.mem_cons.1 hb with rfl | hb'
      · exact absurd hk (hs.1 a ha').ne'
      · exact ih hs.2 ha' hb'

variable {m : OrdMap κ α} {k : κ} {v : α}

theorem get?_eq_some : m.get? k = some v ↔ (k, v) ∈ m.entries := by
  constructor
  · intro h
    obtain ⟨⟨k', v'⟩, hfind, rfl⟩ := Option.map_eq_some_iff.1 h
    have hk := List.find?_some hfind
    rw [decide_eq_true_iff] at hk
    exact hk ▸ List.mem_of_find?_eq_some hfind
  · intro h
    have hsome : (m.entries.find? (·.1 = k)).isSome := List.find?_isSome.2 ⟨_, h, decide_eq_true rfl⟩
    obtain ⟨e, he⟩ := Option.isSome_iff_exists.1 hsome
    have hk := List.find?_some he
    rw [decide_eq_true_iff] at hk
    rw [get?, he, eq_of_fst_eq m.sorted (List.mem_of_find?_eq_some he) h hk]
    rfl

@[simp] theorem get?_empty : (empty : OrdMap κ α).get? k = none := rfl

theorem get?_erase (k' : κ) : (m.erase k).get? k' = if k' = k then none else m.get? k' := by
  refine Option.ext fun v => ?_
  rw [get?_eq_some, erase, List.mem_filter, decide_eq_true_iff]
  split
  · rename_i h
    exact iff_of_false (fun hc => hc.2 h) fun hc => nomatch hc
  · rename_i h
    rw [get?_eq_some]
    exact and_iff_left h

theorem get?_insert (k' : κ) : (m.insert k v).get? k' = if k' = k then some v else m.get? k' := by
  refine Option.ext fun w => ?_
  rw [get?_eq_some, insert, List.mem_append, List.mem_cons, List.mem_filter, List.mem_filter, decide_eq_true_iff,
    decide_eq_true_iff, Prod.mk.injEq]
  split
  · rename_i h
    subst h
    simp only [lt_irrefl, and_false, true_and, or_false, false_or, Option.some.injEq]
    exact eq_comm
  · rename_i h
    rw [get?_eq_some]
    simp only [h, false_and, false_or, ← and_or_left]
    exact and_iff_left (lt_or_gt_of_ne h)

theorem get?_modify (f : α → α) (k' : κ) :
    (m.modify k f).get? k' = if k' = k then (m.get? k).map f else m.get? k' := by
  refine Option.ext fun w => ?_
  rw [get?_eq_some, modify, List.mem_map]
  split
  · rename_i h
    subst h
    rw [Option.map_eq_some_iff]
    constructor
    · rintro ⟨⟨k, v⟩, he, hk⟩
      split at hk
      · rename_i hk'
        obtain ⟨-, rfl⟩ := Prod.mk.inj hk
        obtain rfl : k = k' := hk'
        exact ⟨v, get?_eq_some.2 he, rfl⟩
      · rename_i hk'
        exact absurd (Prod.mk.inj hk).1 hk'
    · rintro ⟨v, hv, rfl⟩
      exact ⟨(k', v), get?_eq_some.1 hv, if_pos rfl⟩
  · rename_i h
    rw [get?_eq_some]
    constructor
    · rintro ⟨e, he, hk⟩
      split at hk
      · rename_i hk'
        exact absurd ((Prod.mk.inj hk).1.symm.trans hk') h
      · exact hk ▸ he
    · intro he
      exact ⟨_, he, if_neg h⟩

/-- The first entry with a property has the least key. -/
theorem find?_eq_some_iff {p : κ × α → Bool} : m.entries.find? p = some (k, v) ↔
    m.get? k = some v ∧ p (k, v) = true ∧ ∀ k' < k, ∀ v', m.get? k' = some v' → p (k', v') = false := by
  have hs := m.sorted
  simp only [get?_eq_some]
  constructor
  · intro h
    obtain ⟨hp, as, bs, heq, hno⟩ := List.find?_eq_some_iff_append.1 h
    rw [heq] at hs ⊢
    refine ⟨by simp, hp, fun k' hk v' hmem => ?_⟩
    rcases List.mem_append.1 hmem with hmem | hmem
    · simpa using hno _ hmem
    · rw [List.pairwise_append, List.pairwise_cons] at hs
      rcases List.mem_cons.1 hmem with he | hmem
      · exact absurd (congrArg Prod.fst he) hk.ne
      · exact absurd (hs.2.1.1 _ hmem) hk.asymm
  · rintro ⟨hmem, hp, hno⟩
    obtain ⟨as, bs, heq⟩ := List.append_of_mem hmem
    rw [List.find?_eq_some_iff_append]
    refine ⟨hp, as, bs, heq, fun a ha => ?_⟩
    rw [heq, List.pairwise_append] at hs
    have hlt : a.1 < k := hs.2.2 a ha _ (List.mem_cons_self ..)
    rw [hno a.1 hlt a.2 (by rw [heq]; exact List.mem_append_left _ ha)]
    rfl

/-- The place where a new entry is put. -/
theorem entries_split (h : m.get? k = none) :
    m.entries = m.entries.filter (·.1 < k) ++ m.entries.filter (k < ·.1) := by
  have hne : ∀ e ∈ m.entries, e.1 ≠ k := by
    rintro ⟨k', v⟩ he rfl
    rw [get?_eq_some.2 he] at h
    cases h
  obtain ⟨l, hs⟩ := m
  dsimp only at hne ⊢
  induction l with
  | nil => rfl
  | cons e l ih =>
    rw [List.forall_mem_cons] at hne
    rw [List.pairwise_cons] at hs
    rcases lt_or_gt_of_ne hne.1 with hlt | hgt
    · rw [List.filter_cons_of_pos (by simpa using hlt), List.filter_cons_of_neg (by simpa using hlt.le),
        List.cons_append, ← ih hs.2 ?_ hne.2]
      exact Option.eq_none_iff_forall_ne_some.2 fun v hv => hne.2 _ (get?_eq_some.1 hv) rfl
    · have hno : ∀ e' ∈ e :: l, ¬ decide (e'.1 < k) = true := by
        intro e' he'
        rw [decide_eq_true_iff]
        rcases List.mem_cons.1 he' with rfl | he'
        · exact hgt.not_gt
        · exact (hgt.trans (hs.1 e' he')).not_gt
      have hall : ∀ e' ∈ e :: l, decide (k < e'.1) = true := by
        intro e' he'
        rcases List.mem_cons.1 he' with rfl | he'
        · exact decide_eq_true hgt
        · exact decide_eq_true (hgt.trans (hs.1 e' he'))
      rw [List.filter_eq_nil_iff.2 hno, List.filter_eq_self.2 hall, List.nil_append]

theorem entries_eq_nil_iff : m.entries = [] ↔ ∀ k, m.get? k = none := by
  rw [List.eq_nil_iff_forall_not_mem]
  constructor
  · exact fun h k => Option.eq_none_iff_forall_ne_some.2 fun v hv => h _ (get?_eq_some.1 hv)
  · rintro h ⟨k, v⟩ he
    exact nomatch (get?_eq_some.2 he).symm.trans (h k)

end OrdMap

end TsnSwitch.Lib
