/-
Texts in memory, each in a row of its own that a zero ends.

Rows may be read with another width than they were written with. With a
multiple of the width only the first text of each wider row shows
(`loadRow_storeRows`), so that a loop up to the first empty row passes over
the others (`mem_shownRows`).
-/
import Mathlib.Tactic

namespace TsnSwitch.Lib

/-- Where nothing holds again once it has failed, the first failure ends what
holds. -/
theorem takeWhile_eq_filter {α : Type*} {p : α → Bool} {l : List α}
    (h : l.Pairwise fun a b => p b = true → p a = true) : l.takeWhile p = l.filter p := by
  induction l with
  | nil => rfl
  | cons a l ih =>
    obtain ⟨ha, hl⟩ := List.pairwise_cons.1 h
    by_cases hp : p a = true
    · rw [List.takeWhile_cons_of_pos hp, List.filter_cons_of_pos hp, ih hl]
    · have hnone : l.filter p = [] := List.filter_eq_nil_iff.2 fun b hb hpb => hp (ha b hb hpb)
      rw [List.takeWhile_cons_of_neg hp, List.filter_cons_of_neg hp, hnone]

variable {α : Type*} [DecidableEq α] (zero : α)

/-- A row that holds a text. -/
def paddedRow (w : Nat) (text : List α) : List α := text ++ List.replicate (w - text.length) zero

def storeRows (w : Nat) (texts : List (List α)) : List α := texts.flatMap (paddedRow zero w)

/-- The text in row `i`. What has not been stored is zero. -/
def loadRow (w : Nat) (mem : List α) (i : Nat) : List α := ((mem.drop (i * w)).take w).takeWhile (· ≠ zero)

/-- The texts that a loop over `n` rows finds before the first empty one. -/
def shownRows (w : Nat) (mem : List α) (n : Nat) : List (List α) :=
  ((List.range n).map (loadRow zero w mem)).takeWhile (· ≠ [])

variable {zero} {w : Nat} {texts : List (List α)}

omit [DecidableEq α] in
theorem length_paddedRow {text : List α} (h : text.length ≤ w) : (paddedRow zero w text).length = w := by
  rw [paddedRow, List.length_append, List.length_replicate]
  omega

omit [DecidableEq α] in
theorem drop_storeRows (h : ∀ t ∈ texts, t.length ≤ w) (n : Nat) :
    (storeRows zero w texts).drop (n * w) = storeRows zero w (texts.drop n) := by
  induction n generalizing texts with
  | zero => rw [Nat.zero_mul, List.drop_zero, List.drop_zero]
  | succ n ih =>
    cases texts with
    | nil => rw [storeRows, List.flatMap_nil, List.drop_nil, List.drop_nil, storeRows, List.flatMap_nil]
    | cons t texts =>
      rw [List.forall_mem_cons] at h
      have hrow : storeRows zero w (t :: texts) = paddedRow zero w t ++ storeRows zero w texts := List.flatMap_cons
      rw [hrow, List.drop_succ_cons, ← ih h.2, List.drop_append, length_paddedRow h.1,
        List.drop_eq_nil_of_le (by rw [length_paddedRow h.1, Nat.succ_mul]; omega), List.nil_append,
        Nat.succ_mul, Nat.add_sub_cancel]

/-- **A row of `k` rows shows the first of them.** -/
theorem loadRow_storeRows (h : ∀ t ∈ texts, t.length < w ∧ zero ∉ t) {k : Nat} (hk : 0 < k) (i : Nat) :
    loadRow zero (k * w) (storeRows zero w texts) i = texts[i * k]?.getD [] := by
  rw [loadRow, ← Nat.mul_assoc, drop_storeRows fun t ht => Nat.le_of_lt (h t ht).1, ← List.head?_drop]
  cases hdrop : texts.drop (i * k) with
  | nil => rw [storeRows, List.flatMap_nil, List.take_nil, List.takeWhile_nil]; rfl
  | cons t rest =>
    obtain ⟨hlen, hzero⟩ := h t (List.mem_of_mem_drop (hdrop ▸ List.mem_cons_self ..))
    have hwide : w ≤ k * w := Nat.le_mul_of_pos_left w hk
    have hplain : ∀ c ∈ t, decide (c ≠ zero) = true := by
      intro c hc
      rw [decide_eq_true_iff]
      rintro rfl
      exact hzero hc
    have hrow : storeRows zero w (t :: rest) =
        t ++ zero :: (List.replicate (w - t.length - 1) zero ++ storeRows zero w rest) := by
      rw [storeRows, List.flatMap_cons, paddedRow, show w - t.length = w - t.length - 1 + 1 by omega,
        List.replicate_succ, List.append_assoc, List.cons_append, Nat.add_sub_cancel]
      rfl
    rw [hrow, List.take_append, List.take_of_length_le (by omega),
      show k * w - t.length = k * w - t.length - 1 + 1 by omega, List.take_succ_cons,
      List.takeWhile_append_of_pos hplain,
      List.takeWhile_cons_of_neg (by simp), List.append_nil]
    rfl

/-- **Every `k`-th text is found, and no other.** -/
theorem mem_shownRows (h : ∀ t ∈ texts, t.length < w ∧ zero ∉ t) (hne : ∀ t ∈ texts, t ≠ []) {k : Nat} (hk : 0 < k)
    {n : Nat} (hn : texts.length ≤ n * k) {t : List α} :
    t ∈ shownRows zero (k * w) (storeRows zero w texts) n ↔ ∃ i : Nat, texts[i * k]? = some t := by
  have hempty : ∀ i, texts[i * k]?.getD [] ≠ [] ↔ i * k < texts.length := by
    intro i
    by_cases hi : i * k < texts.length
    · rw [List.getElem?_eq_getElem hi, Option.getD_some]
      exact iff_of_true (hne _ (List.getElem_mem hi)) hi
    · rw [List.getElem?_eq_none (Nat.not_lt.1 hi), Option.getD_none]
      exact iff_of_false (fun h => h rfl) hi
  have hpairs : ((List.range n).map (loadRow zero (k * w) (storeRows zero w texts))).Pairwise
      fun a b => decide (b ≠ []) = true → decide (a ≠ []) = true := by
    refine List.pairwise_map.2 (List.pairwise_lt_range.imp fun {i j} hij hj => ?_)
    rw [decide_eq_true_iff, loadRow_storeRows h hk, hempty] at hj ⊢
    exact Nat.lt_of_le_of_lt (Nat.mul_le_mul_right k (Nat.le_of_lt hij)) hj
  rw [shownRows, takeWhile_eq_filter hpairs, List.mem_filter, List.mem_map, decide_eq_true_iff]
  constructor
  · rintro ⟨⟨i, -, rfl⟩, hshown⟩
    rw [loadRow_storeRows h hk, hempty] at hshown
    refine ⟨i, ?_⟩
    rw [loadRow_storeRows h hk, List.getElem?_eq_getElem hshown, Option.getD_some]
  · rintro ⟨i, hi⟩
    obtain ⟨hlt, -⟩ := List.getElem?_eq_some_iff.1 hi
    refine ⟨⟨i, List.mem_range.2 ?_, ?_⟩, hne t (List.mem_of_getElem? hi)⟩
    · exact Nat.lt_of_mul_lt_mul_right (Nat.lt_of_lt_of_le hlt hn)
    · rw [loadRow_storeRows h hk, hi, Option.getD_some]

end TsnSwitch.Lib
