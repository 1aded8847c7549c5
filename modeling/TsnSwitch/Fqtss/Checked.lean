/-
The slope computation of edge_fqtss.c with checked divisions: a division by
zero has no result. All divisors come from the transmission rate. One of them
is a quotient of it, which is zero when a rate below 1 has no whole number of
parts (`calcIdleSlope?_eq`).
-/
import TsnSwitch.Fqtss.Shaper

namespace TsnSwitch.Fqtss

/-- `div64_u64`. -/
def div64 (a b : BitVec 64) : Option (BitVec 64) := if b = 0 then none else some (a / b)

/-- The scaling in `edgx_fqtss_calc_idle_slope`. -/
def scaleSlope? (bitrate : BitVec 32) (num dnm : BitVec 64) : Option (BitVec 32) := do
  let limit ← div64 (BitVec.allOnes 64) num
  if bitrate.setWidth 64 > limit then
    let tmp ← div64 num dnm
    if tmp > 0 then some (tmp.setWidth 32 * bitrate)
    else
      let tmp ← div64 dnm num
      let tmp ← div64 (num * tmp) dnm
      let bitrate ← div64 ((tmp.setWidth 32 * bitrate).setWidth 64) tmp
      some (bitrate.setWidth 32)
  else
    let bitrate ← div64 (bitrate.setWidth 64 * num) dnm
    some (bitrate.setWidth 32)

namespace Params

variable (par : Params)

def calcIdleSlope? (fqt : EdgxFqtss) (idx : Nat) (linkSpeed : BitVec 32) (rate : TrRate) :
    Option (BitVec 16 × EdgxFqtss) :=
  if rate.num = 0 ∨ rate.denom = 0 then some (0, fqt)
  else if rate.num = 1 ∧ rate.denom = 1 then some (fqt.addend idx, fqt)
  else do
    let bitrate ← scaleSlope? (fqt.adminidleslope idx) rate.num rate.denom
    let bitrate := limitSlope linkSpeed bitrate
    some (edgxFqtssCalcAddend bitrate par.edgxFqtssGetClk,
      { fqt with idleslope := Function.update fqt.idleslope idx bitrate })

/-- The body of the loop of `edgx_fqtss_st_change`. -/
def stChangeQueue? (linkSpeed : BitVec 32) (rates : Nat → TrRate) (fqt : EdgxFqtss) (i : Nat) : Option EdgxFqtss := do
  let (addend, fqt) ← par.calcIdleSlope? fqt i linkSpeed (rates i)
  some (edgxFqtssWriteAddend fqt addend i)

def stChange? (fqt : EdgxFqtss) (linkSpeed : BitVec 32) (rates : Nat → TrRate) : Option EdgxFqtss :=
  (List.range par.nrQueues).foldlM (par.stChangeQueue? linkSpeed rates) fqt

def adminSlopeTblWrite? (fqtss : EdgxFqtss) (idx : Nat) (slope linkSpeed : BitVec 32) (rate : TrRate) :
    Option (Int × EdgxFqtss) :=
  if idx ≥ par.nrQueues then some (-EINVAL, fqtss)
  else if ¬ slopeAllowed linkSpeed slope then some (-EINVAL, fqtss)
  else do
    let addend := edgxFqtssCalcAddend slope par.edgxFqtssGetClk
    let fqtss := { fqtss with
      adminidleslope := Function.update fqtss.adminidleslope idx slope
      idleslope := Function.update fqtss.idleslope idx slope
      addend := Function.update fqtss.addend idx addend }
    let (addend, fqtss) ← par.calcIdleSlope? fqtss idx linkSpeed rate
    some (8, edgxFqtssWriteAddend fqtss addend idx)

end Params

/-- The product of slope and rate has no room, and the rate is below 1 and not
one over a whole number. -/
structure SlopeFault (bitrate : BitVec 32) (rate : TrRate) : Prop where
  num : rate.num ≠ 0
  room : BitVec.allOnes 64 / rate.num < bitrate.setWidth 64
  below : rate.num.toNat < rate.denom.toNat
  parts : ¬ rate.num.toNat ∣ rate.denom.toNat

instance (bitrate : BitVec 32) (rate : TrRate) : Decidable (SlopeFault bitrate rate) :=
  decidable_of_iff (rate.num ≠ 0 ∧ BitVec.allOnes 64 / rate.num < bitrate.setWidth 64 ∧
      rate.num.toNat < rate.denom.toNat ∧ ¬ rate.num.toNat ∣ rate.denom.toNat)
    ⟨fun ⟨hn, hr, hb, hp⟩ => ⟨hn, hr, hb, hp⟩, fun h => ⟨h.num, h.room, h.below, h.parts⟩⟩

theorem div64_of_ne {b : BitVec 64} (h : b ≠ 0) (a : BitVec 64) : div64 a b = some (a / b) := if_neg h

/-- The last divisor: it is zero just when the rate has no whole parts. -/
theorem parts_eq_zero_iff {num dnm : BitVec 64} (hn : num ≠ 0) (hlt : num.toNat < dnm.toNat) :
    num * (dnm / num) / dnm = 0 ↔ ¬ num.toNat ∣ dnm.toNat := by
  have hpos : 0 < num.toNat := Nat.pos_of_ne_zero fun h => hn (BitVec.eq_of_toNat_eq h)
  have hle : num.toNat * (dnm.toNat / num.toNat) ≤ dnm.toNat := Nat.mul_div_le ..
  have hmul : (num * (dnm / num)).toNat = num.toNat * (dnm.toNat / num.toNat) := by
    rw [BitVec.toNat_mul, BitVec.toNat_udiv, Nat.mod_eq_of_lt (hle.trans_lt dnm.isLt)]
  rw [← BitVec.toNat_inj, BitVec.toNat_udiv, hmul]
  change num.toNat * (dnm.toNat / num.toNat) / dnm.toNat = 0 ↔ _
  rw [Nat.div_eq_zero_iff_lt (by omega), ← Nat.mul_div_eq_iff_dvd]
  omega

theorem div_pos_iff {num dnm : BitVec 64} (hd : dnm ≠ 0) : num / dnm > 0 ↔ dnm.toNat ≤ num.toNat := by
  have hpos : 0 < dnm.toNat := Nat.pos_of_ne_zero fun h => hd (BitVec.eq_of_toNat_eq h)
  change 0 < (num / dnm).toNat ↔ _
  rw [BitVec.toNat_udiv, Nat.div_pos_iff]
  exact and_iff_right hpos

/-- The scaling fails just when its last divisor is zero. -/
theorem scaleSlope?_eq {bitrate : BitVec 32} {rate : TrRate} (hn : rate.num ≠ 0) (hd : rate.denom ≠ 0) :
    scaleSlope? bitrate rate.num rate.denom =
      if SlopeFault bitrate rate then none else some (Params.scaleSlope bitrate rate.num rate.denom) := by
  unfold scaleSlope? Params.scaleSlope
  simp only [div64_of_ne hn, div64_of_ne hd, Option.bind_eq_bind, Option.bind_some]
  by_cases hroom : bitrate.setWidth 64 > BitVec.allOnes 64 / rate.num
  · by_cases hq : rate.num / rate.denom > 0
    · have hno : ¬ SlopeFault bitrate rate := fun h => absurd h.below (Nat.not_lt.2 ((div_pos_iff hd).1 hq))
      simp only [if_pos hroom, if_pos hq, if_neg hno]
    · have hlt : rate.num.toNat < rate.denom.toNat := Nat.not_le.1 fun h => hq ((div_pos_iff hd).2 h)
      simp only [if_pos hroom, if_neg hq]
      by_cases hparts : rate.num.toNat ∣ rate.denom.toNat
      · have hne : rate.num * (rate.denom / rate.num) / rate.denom ≠ 0 := fun h0 =>
          (parts_eq_zero_iff hn hlt).1 h0 hparts
        rw [if_neg fun h => h.parts hparts, div64_of_ne hne, Option.bind_some]
      · rw [if_pos ⟨hn, hroom, hlt, hparts⟩, (parts_eq_zero_iff hn hlt).2 hparts, div64, if_pos rfl, Option.bind_none]
  · have hno : ¬ SlopeFault bitrate rate := fun h => hroom h.room
    simp only [if_neg hroom, if_neg hno]

namespace Params

variable (par : Params)

theorem calcIdleSlope?_eq (fqt : EdgxFqtss) (idx : Nat) (linkSpeed : BitVec 32) (rate : TrRate) :
    par.calcIdleSlope? fqt idx linkSpeed rate =
      if SlopeFault (fqt.adminidleslope idx) rate then none else some (par.edgxFqtssCalcIdleSlope fqt idx linkSpeed rate) := by
  unfold calcIdleSlope? edgxFqtssCalcIdleSlope
  by_cases hzero : rate.num = 0 ∨ rate.denom = 0
  · have hno : ¬ SlopeFault (fqt.adminidleslope idx) rate := by
      rcases hzero with h0 | h0
      · exact fun h => h.num h0
      · exact fun h => absurd h.below (by simp [h0])
    simp only [if_pos hzero, if_neg hno]
  · rw [if_neg hzero, if_neg hzero]
    obtain ⟨hn, hd⟩ := not_or.1 hzero
    by_cases hone : rate.num = 1 ∧ rate.denom = 1
    · have hno : ¬ SlopeFault (fqt.adminidleslope idx) rate := fun h => absurd h.below (by simp [hone])
      simp only [if_pos hone, if_neg hno]
    · rw [if_neg hone, if_neg hone, scaleSlope?_eq hn hd]
      split <;> rfl

@[simp] theorem calcIdleSlope_adminidleslope (fqt : EdgxFqtss) (idx : Nat) (linkSpeed : BitVec 32) (rate : TrRate) :
    (par.edgxFqtssCalcIdleSlope fqt idx linkSpeed rate).2.adminidleslope = fqt.adminidleslope := by
  unfold edgxFqtssCalcIdleSlope
  split
  · rfl
  · split <;> rfl

@[simp] theorem writeAddend_adminidleslope (fqt : EdgxFqtss) (addend : BitVec 16) (idx : Nat) :
    (edgxFqtssWriteAddend fqt addend idx).adminidleslope = fqt.adminidleslope := by
  unfold edgxFqtssWriteAddend
  dsimp only
  split
  · rfl
  · split <;> rfl

/-- A turn of the loop over the queues. -/
theorem stChangeQueue?_eq (linkSpeed : BitVec 32) (rates : Nat → TrRate) (fqt : EdgxFqtss) (i : Nat) :
    par.stChangeQueue? linkSpeed rates fqt i =
      if SlopeFault (fqt.adminidleslope i) (rates i) then none else some (par.stChangeQueue linkSpeed rates fqt i) := by
  rw [stChangeQueue?, calcIdleSlope?_eq]
  split <;> rfl

/-- The update of the shapers fails just when the slope of a queue does. -/
theorem stChange?_eq (fqt : EdgxFqtss) (linkSpeed : BitVec 32) (rates : Nat → TrRate) :
    par.stChange? fqt linkSpeed rates =
      if ∃ i ∈ List.range par.nrQueues, SlopeFault (fqt.adminidleslope i) (rates i) then none
      else some (par.edgxFqtssStChange fqt linkSpeed rates) := by
  unfold stChange? edgxFqtssStChange
  generalize List.range par.nrQueues = queues
  induction queues generalizing fqt with
  | nil => rfl
  | cons i queues ih =>
    rw [List.foldlM_cons, stChangeQueue?_eq, List.foldl_cons]
    by_cases hi : SlopeFault (fqt.adminidleslope i) (rates i)
    · rw [if_pos hi, if_pos ⟨i, List.mem_cons_self, hi⟩]
      rfl
    · have hslope : (par.stChangeQueue linkSpeed rates fqt i).adminidleslope = fqt.adminidleslope := by
        simp [stChangeQueue]
      rw [if_neg hi, Option.bind_eq_bind, Option.bind_some, ih, hslope]
      simp only [List.mem_cons, exists_eq_or_imp, hi, false_or]

theorem adminSlopeTblWrite?_eq (fqtss : EdgxFqtss) (idx : Nat) (slope linkSpeed : BitVec 32) (rate : TrRate) :
    par.adminSlopeTblWrite? fqtss idx slope linkSpeed rate =
      if idx < par.nrQueues ∧ slopeAllowed linkSpeed slope ∧ SlopeFault slope rate then none
      else some (par.adminSlopeTblWrite fqtss idx slope linkSpeed rate) := by
  unfold adminSlopeTblWrite? adminSlopeTblWrite
  by_cases hidx : idx ≥ par.nrQueues
  · rw [if_pos hidx, if_pos hidx, if_neg fun h => absurd h.1 (Nat.not_lt.2 hidx)]
  · rw [if_neg hidx, if_neg hidx]
    by_cases hallow : slopeAllowed linkSpeed slope
    · rw [if_neg (not_not.2 hallow), if_neg (not_not.2 hallow)]
      simp only [calcIdleSlope?_eq, Function.update_self, Nat.not_le.1 hidx, hallow, true_and]
      split <;> rfl
    · rw [if_pos hallow, if_pos hallow, if_neg fun h => hallow h.2.1]

end Params

end TsnSwitch.Fqtss
