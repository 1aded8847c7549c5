/-
`edgx_set16` and `edgx_get16` of edge_util.h, on fields of a register: bits are from
`bitlo` to `bithi`, and those outside are kept.
-/
import TsnSwitch.Waits

namespace TsnSwitch.Port

open Waits

variable (c : CShift)

/-- The bits of `(1 << n) - 1`. -/
theorem getLsbD_ones {n : Nat} (hn : n < 32) (i : Nat) : (c.left 1 n - 1).getLsbD i = decide (i < n) := by
  have hpos : 0 < 2 ^ n := Nat.two_pow_pos n
  have hlt : 2 ^ n < 2 ^ 32 := Nat.pow_lt_pow_right (by decide) hn
  have hleft : c.left 1 (n : Int) = (1 : BitVec 32) <<< n := by
    rw [CShift.left, if_pos ⟨Int.natCast_nonneg n, by omega⟩, Int.toNat_natCast]
  have hnat : (c.left 1 (n : Int) - 1).toNat = 2 ^ n - 1 := by
    have hone : (1 : BitVec 32).toNat = 1 := rfl
    rw [hleft, BitVec.toNat_sub, BitVec.toNat_shiftLeft, hone, Nat.shiftLeft_eq, Nat.one_mul, Nat.mod_eq_of_lt hlt]
    omega
  rw [BitVec.getLsbD, hnat, Nat.testBit_two_pow_sub_one]

variable {bithi bitlo : Nat}

theorem getLsbD_edgxSet16 (hle : bitlo ≤ bithi) (hhi : bithi < 16) (word val : BitVec 16) {i : Nat} (hi : i < 16) :
    (edgxSet16 c word bithi bitlo val).getLsbD i =
      if bitlo ≤ i ∧ i ≤ bithi then val.getLsbD (i - bitlo) else word.getLsbD i := by
  have hcount : (bithi : Int) - bitlo + 1 = ((bithi - bitlo + 1 : Nat) : Int) := by omega
  have hshift (x : BitVec 32) : c.left x (bitlo : Int) = x <<< bitlo := by
    rw [CShift.left, if_pos ⟨Int.natCast_nonneg bitlo, by omega⟩, Int.toNat_natCast]
  rw [edgxSet16, hcount, hshift, hshift]
  simp only [BitVec.getLsbD_or, BitVec.getLsbD_and, BitVec.getLsbD_not, BitVec.getLsbD_setWidth, BitVec.getLsbD_shiftLeft,
    getLsbD_ones c (show bithi - bitlo + 1 < 32 by omega), hi]
  by_cases hlo : i < bitlo
  · simp [hlo, Nat.not_le_of_lt hlo]
  · by_cases hin : i ≤ bithi
    · have hones : i - bitlo < bithi - bitlo + 1 := by omega
      have hword' : i - bitlo < 32 := by omega
      have hi' : i < 32 := by omega
      simp [hlo, hin, Nat.le_of_not_lt hlo, hones, hi', hword']
    · have hones : ¬ i - bitlo < bithi - bitlo + 1 := by omega
      simp [hin, hones]

theorem getLsbD_edgxGet16 (hle : bitlo ≤ bithi) (hhi : bithi < 16) (word : BitVec 16) (i : Nat) :
    (edgxGet16 c word bithi bitlo).getLsbD i = (decide (i ≤ bithi - bitlo) && word.getLsbD (bitlo + i)) := by
  have hcount : (bithi : Int) - bitlo + 1 = ((bithi - bitlo + 1 : Nat) : Int) := by omega
  have hshift (x : BitVec 32) : c.right x (bitlo : Int) = x >>> bitlo := by
    rw [CShift.right, if_pos ⟨Int.natCast_nonneg bitlo, by omega⟩, Int.toNat_natCast]
  rw [edgxGet16, hcount, hshift]
  simp only [BitVec.getLsbD_and, BitVec.getLsbD_setWidth, BitVec.getLsbD_ushiftRight,
    getLsbD_ones c (show bithi - bitlo + 1 < 32 by omega)]
  by_cases hin : i ≤ bithi - bitlo
  · have hi : i < 16 := by omega
    have hi' : i < 32 := by omega
    have hbit : bitlo + i < 32 := by omega
    simp [hin, hi, hi', hbit, Nat.lt_succ_of_le hin]
  · have hones : ¬ i < bithi - bitlo + 1 := by omega
    simp [hin, hones]

end TsnSwitch.Port
