/-
Division in two steps. A quotient of a sum `x * k + y` is taken part by part,
the remainder of the first quotient being carried into the second, and a
product with a rational is taken in whole units and parts of a unit. Division
with a check has no result for a divisor of zero.
-/
import Mathlib.Tactic
import Mathlib.Algebra.Order.Floor.Semifield

namespace TsnSwitch.Lib

/-- The remainder of `x / n`, in units of `1 / k`, is carried into the second division. -/
theorem div_carry {n k : Nat} (hn : 0 < n) (hk : 0 < k) (x y : Nat) :
    x / n + (x % n * k + y) / n / k = (x * k + y) / (n * k) := by
  have hsplit : x * k + y = (x % n * k + y) + x / n * (n * k) := by
    calc x * k + y = (x % n + n * (x / n)) * k + y := by rw [Nat.mod_add_div]
      _ = (x % n * k + y) + x / n * (n * k) := by ring
  rw [hsplit, Nat.add_mul_div_right _ _ (Nat.mul_pos hn hk), Nat.div_div_eq_div_mul, Nat.add_comm]

/-- A multiple of `x / n` in whole units and parts. -/
theorem div_parts {n : Nat} (hn : 0 < n) (x k : Nat) : x / n * k + x % n * k / n = x * k / n := by
  have hsplit : x * k = x % n * k + x / n * k * n := by
    calc x * k = (x % n + n * (x / n)) * k := by rw [Nat.mod_add_div]
      _ = x % n * k + x / n * k * n := by ring
  rw [hsplit, Nat.add_mul_div_right _ _ hn, Nat.add_comm]

/-- Rounding up with whole numbers only. -/
theorem ceil_div {n : Nat} (hn : 0 < n) (x : Nat) : ⌈(x : ℚ) / n⌉₊ = (x + (n - 1)) / n := by
  refine eq_of_forall_ge_iff fun c => ?_
  rw [Nat.ceil_le, div_le_iff₀ (by exact_mod_cast hn), Nat.div_le_iff_le_mul_add_pred hn]
  have hcast : (x : ℚ) ≤ (c : ℚ) * n ↔ x ≤ n * c := by rw [Nat.mul_comm]; exact_mod_cast Iff.rfl
  rw [hcast]
  omega

/-- The least multiple of a step that reaches a point is the rounded up quotient. -/
theorem isLeast_ceil {p : ℚ} (hp : 0 < p) (x y : ℚ) : IsLeast {n : ℕ | y ≤ x + n * p} ⌈(y - x) / p⌉₊ := by
  have hmem : ∀ n : ℕ, y ≤ x + n * p ↔ ⌈(y - x) / p⌉₊ ≤ n := fun n => by
    rw [Nat.ceil_le, div_le_iff₀ hp, sub_le_iff_le_add']
  exact ⟨(hmem _).2 le_rfl, fun n hn => (hmem n).1 hn⟩

/-- It is less than one step beyond. -/
theorem ceil_mul_lt {p : ℚ} (hp : 0 < p) {x y : ℚ} (h : x ≤ y) : x + ⌈(y - x) / p⌉₊ * p < y + p := by
  have hceil := Nat.ceil_lt_add_one (div_nonneg (sub_nonneg.2 h) hp.le)
  have hmul := mul_lt_mul_of_pos_right hceil hp
  rw [add_mul, div_mul_cancel₀ _ hp.ne', one_mul] at hmul
  linarith

/-- Quotient and remainder, if there is a divisor. -/
def divMod? (n d : Nat) : Option (Nat × Nat) := if d = 0 then none else some (n / d, n % d)

theorem divMod?_of_ne {d : Nat} (h : d ≠ 0) (n : Nat) : divMod? n d = some (n / d, n % d) := if_neg h

end TsnSwitch.Lib
