/-
The operational idle slope that `edgx_fqtss_calc_idle_slope` computes, against
the line rate and the exact product of the admin idle slope with the rate.

For a rate of at least 1 no divisor is zero. The product is kept in 32 bits,
and only then compared with the line rate, so a slope from 2^32 bits a second on
is cut to its low bits. Where the product has no 64 bits the rate is rounded
down to a whole number first (`idleSlopeOk_iff`). With a rate of 1/1 the
function returns before it has a slope, and the old one remains.
-/
import TsnSwitch.Fqtss.Checked
import TsnSwitch.Sched.Rates

namespace TsnSwitch.Fqtss

/-! ## What is asked -/

/-- The line rate in bits a second. -/
def lineRate (linkSpeed : BitVec 32) : Nat :=
  if linkSpeed = SPEED_UNKNOWN then 1000000000 else linkSpeed.toNat * 1000000

/-- The slope times the rate, rounded down. -/
def exactSlope (slope : BitVec 32) (rate : TrRate) : Nat := slope.toNat * rate.num.toNat / rate.denom.toNat

/-- Nothing is divided by zero, and the slope is the exact one up to the line rate. -/
def IdleSlopeOk (par : Params) (fqt : EdgxFqtss) (idx : Nat) (linkSpeed : BitVec 32) (rate : TrRate) : Prop :=
  ∃ addend fqt', par.calcIdleSlope? fqt idx linkSpeed rate = some (addend, fqt') ∧
    (fqt'.idleslope idx).toNat = min (lineRate linkSpeed) (exactSlope (fqt.adminidleslope idx) rate)

/-- The product of slope and rate has 64 bits. -/
def ProductFits (slope : BitVec 32) (rate : TrRate) : Prop := slope.toNat * rate.num.toNat < 2 ^ 64

instance decidableProductFits (slope : BitVec 32) (rate : TrRate) : Decidable (ProductFits slope rate) :=
  inferInstanceAs (Decidable (_ < _))

/-- Rounding the rate down first makes no difference. -/
def RoundsSame (slope : BitVec 32) (rate : TrRate) : Prop :=
  slope.toNat * (rate.num.toNat % rate.denom.toNat) < rate.denom.toNat

/-- The slope has 32 bits, and what it may be reduced to has too. -/
def SlopeFits (slope linkSpeed : BitVec 32) (rate : TrRate) : Prop :=
  (ProductFits slope rate ∨ RoundsSame slope rate) ∧ exactSlope slope rate < 2 ^ 32 ∧
    (lineRate linkSpeed < 2 ^ 32 ∨ exactSlope slope rate ≤ lineRate linkSpeed % 2 ^ 32)

/-- The line is slower than what remains of the slope in 32 bits. -/
def LineSlower (slope linkSpeed : BitVec 32) (rate : TrRate) : Prop :=
  lineRate linkSpeed < 2 ^ 32 ∧
    (ProductFits slope rate ∧ lineRate linkSpeed ≤ exactSlope slope rate % 2 ^ 32 ∨
      ¬ ProductFits slope rate ∧
        lineRate linkSpeed ≤ rate.num.toNat / rate.denom.toNat * slope.toNat % 2 ^ 32)

/-! ## In 32 bits -/

/-- A slope and a line rate are compared after both are cut to 32 bits. -/
theorem min_cut_iff {v q rate : Nat} (hv : v ≤ q) : min (v % 2 ^ 32) (rate % 2 ^ 32) = min rate q ↔
    (v = q ∧ q < 2 ^ 32 ∧ (rate < 2 ^ 32 ∨ q ≤ rate % 2 ^ 32)) ∨ (rate < 2 ^ 32 ∧ rate ≤ v % 2 ^ 32) := by
  by_cases hrate : rate < 2 ^ 32
  · rw [Nat.mod_eq_of_lt hrate]
    omega
  · omega

/-- Rounding down first loses the product with the remainder. -/
theorem div_mul_eq_iff {a n d : Nat} (hd : 0 < d) : n / d * a = a * n / d ↔ a * (n % d) < d := by
  have hsplit : a * n / d = n / d * a + a * (n % d) / d := by
    conv_lhs => rw [← Nat.div_add_mod n d]
    rw [Nat.mul_add, Nat.mul_left_comm, Nat.mul_add_div hd, Nat.mul_comm a]
  rw [hsplit, Nat.left_eq_add, Nat.div_eq_zero_iff_lt hd]

theorem div_mul_le (a n d : Nat) : n / d * a ≤ a * n / d := by
  rw [Nat.mul_comm]
  exact Nat.mul_div_le_mul_div_assoc ..

section Slope

variable {slope linkSpeed : BitVec 32} {rate : TrRate}

theorem room_iff (hn : rate.num ≠ 0) :
    slope.setWidth 64 > BitVec.allOnes 64 / rate.num ↔ ¬ ProductFits slope rate := by
  have hpos : 0 < rate.num.toNat := Nat.pos_of_ne_zero fun h => hn (BitVec.eq_of_toNat_eq h)
  have hslope : (slope.setWidth 64).toNat = slope.toNat := by
    rw [BitVec.toNat_setWidth, Nat.mod_eq_of_lt (by omega)]
  change (BitVec.allOnes 64 / rate.num).toNat < (slope.setWidth 64).toNat ↔ _
  rw [BitVec.toNat_udiv, hslope, BitVec.toNat_allOnes, Nat.div_lt_iff_lt_mul hpos, ProductFits]
  omega

/-- The scaled slope, for a rate of at least 1. -/
theorem scaleSlope_toNat (hd : 0 < rate.denom.toNat) (hle : rate.denom.toNat ≤ rate.num.toNat) :
    (Params.scaleSlope slope rate.num rate.denom).toNat =
      (if ProductFits slope rate then exactSlope slope rate
        else rate.num.toNat / rate.denom.toNat * slope.toNat) % 2 ^ 32 := by
  have hn : rate.num ≠ 0 := fun h => by simp [h] at hle; omega
  have hdz : rate.denom ≠ 0 := fun h => by simp [h] at hd
  have hq : rate.num / rate.denom > 0 := (div_pos_iff hdz).2 hle
  unfold Params.scaleSlope
  by_cases hfit : ProductFits slope rate
  · rw [if_neg (mt (room_iff hn).1 (not_not.2 hfit)), if_pos hfit, exactSlope, BitVec.toNat_setWidth,
      BitVec.toNat_udiv, BitVec.toNat_mul, BitVec.toNat_setWidth, Nat.mod_eq_of_lt (by omega : slope.toNat < 2 ^ 64),
      Nat.mod_eq_of_lt hfit]
  · rw [if_pos ((room_iff hn).2 hfit), if_pos hq, if_neg hfit, BitVec.toNat_mul, BitVec.toNat_setWidth,
      BitVec.toNat_udiv, Nat.mod_mul_mod]

theorem limitSlope_toNat (slope : BitVec 32) :
    (Params.limitSlope linkSpeed slope).toNat = min slope.toNat (lineRate linkSpeed % 2 ^ 32) := by
  unfold Params.limitSlope lineRate
  have hmega : (linkSpeed * MEGA_VAL).toNat = linkSpeed.toNat * 1000000 % 2 ^ 32 := BitVec.toNat_mul ..
  by_cases hunknown : linkSpeed = SPEED_UNKNOWN
  · have hlarge : (SPEED_UNKNOWN * MEGA_VAL).toNat = 4293967296 := by decide
    have hmax : MAX_LINE_SPEED.toNat = 1000000000 := by decide
    rw [if_pos hunknown, hunknown]
    by_cases habove : slope > MAX_LINE_SPEED
    · have hlt : MAX_LINE_SPEED.toNat < slope.toNat := habove
      rw [if_pos ⟨rfl, habove⟩]
      omega
    · have hle : ¬ MAX_LINE_SPEED.toNat < slope.toNat := habove
      have hnot : ¬ slope > SPEED_UNKNOWN * MEGA_VAL := fun h => by
        have hlt : (SPEED_UNKNOWN * MEGA_VAL).toNat < slope.toNat := h
        omega
      rw [if_neg fun h => habove h.2, if_neg hnot]
      omega
  · rw [if_neg fun h => hunknown h.1, if_neg hunknown]
    split
    · rename_i habove
      have hlt : (linkSpeed * MEGA_VAL).toNat < slope.toNat := habove
      omega
    · rename_i hle
      have hnot : ¬ (linkSpeed * MEGA_VAL).toNat < slope.toNat := hle
      omega

/-- The slope is exact up to the line rate. -/
theorem limited_iff (hd : 0 < rate.denom.toNat) (hle : rate.denom.toNat ≤ rate.num.toNat) :
    (Params.limitSlope linkSpeed (Params.scaleSlope slope rate.num rate.denom)).toNat =
      min (lineRate linkSpeed) (exactSlope slope rate) ↔
    SlopeFits slope linkSpeed rate ∨ LineSlower slope linkSpeed rate := by
  rw [limitSlope_toNat, scaleSlope_toNat hd hle]
  by_cases hfit : ProductFits slope rate
  · rw [if_pos hfit, min_cut_iff (Nat.le_refl _)]
    simp [SlopeFits, LineSlower, hfit]
  · have hle : rate.num.toNat / rate.denom.toNat * slope.toNat ≤ exactSlope slope rate := div_mul_le ..
    have hsame : rate.num.toNat / rate.denom.toNat * slope.toNat = exactSlope slope rate ↔ RoundsSame slope rate :=
      div_mul_eq_iff hd
    rw [if_neg hfit, min_cut_iff hle, hsame]
    simp [SlopeFits, LineSlower, hfit]

end Slope

/-! ## The function -/

/-- **The idle slope is the exact one up to the line rate** just when it fits
or the line is slower than what remains of it. A rate of 1/1 leaves the slope
that was there. -/
theorem idleSlopeOk_iff (par : Params) (fqt : EdgxFqtss) (idx : Nat) (linkSpeed : BitVec 32) {rate : TrRate}
    (hd : 0 < rate.denom.toNat) (hle : rate.denom.toNat ≤ rate.num.toNat) :
    IdleSlopeOk par fqt idx linkSpeed rate ↔
      if rate.num = 1 ∧ rate.denom = 1 then
        (fqt.idleslope idx).toNat = min (lineRate linkSpeed) (fqt.adminidleslope idx).toNat
      else SlopeFits (fqt.adminidleslope idx) linkSpeed rate ∨ LineSlower (fqt.adminidleslope idx) linkSpeed rate := by
  have hnofault : ¬ SlopeFault (fqt.adminidleslope idx) rate := fun h => absurd h.below (Nat.not_lt.2 hle)
  have hnz : ¬ (rate.num = 0 ∨ rate.denom = 0) := by
    rintro (h | h)
    · rw [h] at hle
      exact absurd hd (Nat.not_lt.2 hle)
    · rw [h] at hd
      exact absurd hd (Nat.lt_irrefl 0)
  have hcalc : IdleSlopeOk par fqt idx linkSpeed rate ↔
      ((par.edgxFqtssCalcIdleSlope fqt idx linkSpeed rate).2.idleslope idx).toNat =
        min (lineRate linkSpeed) (exactSlope (fqt.adminidleslope idx) rate) := by
    rw [IdleSlopeOk, par.calcIdleSlope?_eq, if_neg hnofault]
    constructor
    · rintro ⟨addend, fqt', heq, hslope⟩
      rw [Option.some.inj heq]
      exact hslope
    · exact fun h => ⟨_, _, rfl, h⟩
  rw [hcalc, Params.edgxFqtssCalcIdleSlope, if_neg hnz]
  by_cases hone : rate.num = 1 ∧ rate.denom = 1
  · rw [if_pos hone, if_pos hone]
    have hexact : exactSlope (fqt.adminidleslope idx) rate = (fqt.adminidleslope idx).toNat := by
      simp [exactSlope, hone]
    rw [hexact]
  · rw [if_neg hone, if_neg hone]
    simp only [Function.update_self]
    exact limited_iff hd hle

/-- Half the line rate, in a cycle whose second half the gate is closed. -/
theorem idleSlopeOk_iff_half :
    IdleSlopeOk ⟨8, 8⟩ { adminidleslope := fun _ => 500000000, shaper := fun _ => 0 } 0 1000 ⟨2, 1⟩ :=
  (idleSlopeOk_iff ⟨8, 8⟩ _ 0 1000 (by decide) (by decide)).2 (.inl ⟨.inl (by decide), by decide, .inl (by decide)⟩)

/-- The line rate as admin slope, in a cycle of a millisecond of which the gate is
open for a fifth: five times the line rate has 33 bits. -/
theorem not_idleSlopeOk :
    let es : List Sched.TabEntry := [⟨200000, 0, 1⟩, ⟨800000, 0, 0⟩]
    let fqt : EdgxFqtss := { adminidleslope := fun _ => 1000000000, shaper := fun _ => 0 }
    ¬ IdleSlopeOk ⟨8, 8⟩ fqt 0 1000 (Sched.edgxStCalcTransRate ⟨1, 1000⟩ es 0) ∧
      ((Params.edgxFqtssCalcIdleSlope ⟨8, 8⟩ fqt 0 1000 (Sched.edgxStCalcTransRate ⟨1, 1000⟩ es 0)).2.idleslope 0) =
        705032704 := by
  intro es fqt
  have hrate : Sched.edgxStCalcTransRate ⟨1, 1000⟩ es 0 = ⟨1000000000, 200000000⟩ := by decide
  have hslope : (Params.edgxFqtssCalcIdleSlope ⟨8, 8⟩ fqt 0 1000 ⟨1000000000, 200000000⟩).2.idleslope 0 = 705032704 := by
    decide
  rw [hrate]
  refine ⟨?_, hslope⟩
  rintro ⟨addend, fqt', heq, hok⟩
  rw [Params.calcIdleSlope?_eq, if_neg (by decide)] at heq
  have hfqt := congrArg (fun r => r.2.idleslope 0) (Option.some.inj heq)
  rw [← hfqt, hslope] at hok
  exact absurd hok (by decide)

end TsnSwitch.Fqtss
