/-
Ring buffers: a list in an array of `n` slots, from slot `head` on and around
the end. A slot outside the list is empty.
-/
import Mathlib.Tactic

namespace TsnSwitch.Lib.Ring

variable {α : Type*} {slots : Nat → Option α} {n head : Nat} {xs : List α}

/-- The slots from `head` on hold `xs`, and the others nothing. -/
structure Holds (slots : Nat → Option α) (n head : Nat) (xs : List α) : Prop where
  head_lt : head < n
  length_le : xs.length ≤ n
  slot : ∀ k < n, slots ((head + k) % n) = xs[k]?

theorem add_mod_inj {a j k : Nat} (hj : j < n) (hk : k < n) (h : (a + j) % n = (a + k) % n) : j = k := by
  have hmod : Nat.ModEq n j k := Nat.ModEq.add_left_cancel' a h
  exact Nat.ModEq.eq_of_lt_of_lt hmod hj hk

/-- A slot is written, and the others of the round stay. -/
theorem update_add_mod {β : Type*} (f : Nat → β) {a j k : Nat} (hj : j < n) (hk : k < n) (b : β) :
    Function.update f ((a + j) % n) b ((a + k) % n) = if k = j then b else f ((a + k) % n) := by
  by_cases hkj : k = j
  · rw [if_pos hkj, hkj, Function.update_self]
  · rw [if_neg hkj, Function.update_of_ne fun he => hkj (add_mod_inj hk hj he)]

/-- Each slot is some steps from the head. -/
theorem exists_offset {a i : Nat} (ha : a < n) (hi : i < n) : ∃ k < n, (a + k) % n = i := by
  by_cases h : a ≤ i
  · refine ⟨i - a, by omega, ?_⟩
    rw [Nat.add_sub_cancel' h, Nat.mod_eq_of_lt hi]
  · refine ⟨n + i - a, by omega, ?_⟩
    rw [show a + (n + i - a) = n + i by omega, Nat.add_mod_left, Nat.mod_eq_of_lt hi]

namespace Holds

theorem empty (hn : 0 < n) : Holds (fun _ => none : Nat → Option α) n 0 [] :=
  ⟨hn, Nat.zero_le n, fun _ _ => rfl⟩

theorem front (h : Holds slots n head xs) : slots head = xs.head? := by
  have hslot := h.slot 0 (Nat.zero_lt_of_lt h.head_lt)
  rw [Nat.add_zero, Nat.mod_eq_of_lt h.head_lt] at hslot
  rw [hslot, List.head?_eq_getElem?]

/-- A value is put behind the list. -/
theorem push (h : Holds slots n head xs) (hroom : xs.length < n) (a : α) :
    Holds (Function.update slots ((head + xs.length) % n) (some a)) n head (xs ++ [a]) := by
  have hlen : (xs ++ [a]).length = xs.length + 1 := List.length_append
  refine ⟨h.head_lt, by omega, fun k hk => ?_⟩
  rw [update_add_mod slots hroom hk]
  by_cases hend : k = xs.length
  · subst hend
    rw [if_pos rfl, List.getElem?_append_right (Nat.le_refl _), Nat.sub_self]
    rfl
  · rw [if_neg hend, h.slot k hk]
    rcases Nat.lt_or_gt_of_ne hend with hlt | hgt
    · exact (List.getElem?_append_left hlt).symm
    · rw [List.getElem?_eq_none (by omega), List.getElem?_eq_none (by omega)]

/-- The first value is taken out. -/
theorem pop {x : α} (h : Holds slots n head (x :: xs)) :
    Holds (Function.update slots head none) n ((head + 1) % n) xs := by
  have hn : 0 < n := Nat.zero_lt_of_lt h.head_lt
  have hlen : xs.length + 1 ≤ n := h.length_le
  refine ⟨Nat.mod_lt _ hn, by omega, fun k hk => ?_⟩
  have hslot : ((head + 1) % n + k) % n = (head + (k + 1)) % n := by
    rw [Nat.mod_add_mod]
    congr 1
    omega
  rw [hslot]
  by_cases hlast : k + 1 = n
  · -- the slot behind all others is the head
    rw [hlast, Nat.add_mod_right, Nat.mod_eq_of_lt h.head_lt, Function.update_self]
    exact (List.getElem?_eq_none (by omega)).symm
  · have hk1 : k + 1 < n := by omega
    rw [Function.update_of_ne, h.slot (k + 1) hk1, List.getElem?_cons_succ]
    intro he
    have h0 : (head + (k + 1)) % n = (head + 0) % n := by rw [he, Nat.add_zero, Nat.mod_eq_of_lt h.head_lt]
    exact absurd (add_mod_inj hk1 hn h0) (Nat.succ_ne_zero k)

/-- A value of the list is replaced. -/
theorem set (h : Holds slots n head xs) {k : Nat} (hk : k < xs.length) (a : α) :
    Holds (Function.update slots ((head + k) % n) (some a)) n head (xs.set k a) := by
  have hkn : k < n := Nat.lt_of_lt_of_le hk h.length_le
  refine ⟨h.head_lt, by rw [List.length_set]; exact h.length_le, fun j hj => ?_⟩
  rw [update_add_mod slots hkn hj]
  by_cases hjk : j = k
  · subst hjk
    rw [if_pos rfl, List.getElem?_set_self hk]
  · rw [if_neg hjk, h.slot j hj, List.getElem?_set_ne (Ne.symm hjk)]

/-- The slots that hold something. -/
theorem isSome_iff (h : Holds slots n head xs) {i : Nat} (hi : i < n) :
    (slots i).isSome = true ↔ ∃ k < xs.length, i = (head + k) % n := by
  obtain ⟨j, hj, rfl⟩ := exists_offset h.head_lt hi
  rw [h.slot j hj]
  refine ⟨fun hs => ⟨j, ?_, rfl⟩, ?_⟩
  · by_contra hge
    rw [List.getElem?_eq_none (Nat.le_of_not_lt hge)] at hs
    exact Bool.false_ne_true hs
  · rintro ⟨k, hk, he⟩
    obtain rfl := add_mod_inj hj (Nat.lt_of_lt_of_le hk h.length_le) he
    rw [List.getElem?_eq_getElem hk]
    rfl

end Holds

end TsnSwitch.Lib.Ring
