/-
The cycle time as the driver accepts and programs it.

A cycle time is a rational number of seconds. Its whole nanoseconds are
compared with the limit and written to the table, the FSC variant writes the
rest of a nanosecond too. `NSEC_PER_SEC` is a `long`, so the product with the
whole seconds has the width of that type: with 32 bits it wraps from five
seconds on, and with 64 bits it never does (`cycleTimeOk_iff`). The setter
looks at the denominator only, so it takes a cycle time of zero, which the
configuration change refuses later.
-/
import TsnSwitch.Sched.Cycles
import TsnSwitch.Sched.Submit

namespace TsnSwitch.Sched

open Lib

/-! ## The conversion -/

/-- The width of `long`. -/
inductive LongWidth where
  | bits32
  | bits64
  deriving DecidableEq

/-- `cycle_sec * NSEC_PER_SEC` of a 32 bit unsigned number: it fits into 64
bits, and in 32 bits both factors are unsigned. -/
def LongWidth.mulNsecPerSec (w : LongWidth) (cycleSec : Nat) : Nat :=
  match w with
  | .bits32 => cycleSec * NSEC_PER_SEC % 2 ^ 32
  | .bits64 => cycleSec * NSEC_PER_SEC

/-- `edgx_sched_rational_to_nsec` with a `long` of either width. -/
def edgxSchedRationalToNsecOn (w : LongWidth) (rat : Rational) : Nat × Nat :=
  let num := rat.num.toNat / rat.denom.toNat
  let rem := rat.num.toNat % rat.denom.toNat
  let cycleSec := num
  let num := u64 (rem * NSEC_PER_SEC) / rat.denom.toNat
  let rem := u64 (rem * NSEC_PER_SEC) % rat.denom.toNat
  (u64 (num + w.mulNsecPerSec cycleSec), u64 (rem * 2 ^ 32) / rat.denom.toNat % 2 ^ 32)

/-- `edgx_sched_set_cycle_time` with a `long` of either width. -/
def edgxSchedSetCycleTimeOn (w : LongWidth) (V : Variant) (com : Com) (s : EdgxSched) (ct : Rational) :
    Int × EdgxSched :=
  if ct.denom = 0 then (-EINVAL, s)
  else if (edgxSchedRationalToNsecOn w ct).1 ≤ V.maxCycNs com then
    (0, { s with adminTab := { s.adminTab with cycleTime := ct } })
  else (-ERANGE, { s with confChangeErr := s.confChangeErr + 1 })

/-- The end of a configuration change, which submits the table with the cycle
time `ct` to hardware. -/
def User.setPending (u : User) (w : LongWidth) (hw : Hw) (idx : Int) (startTime : Timespec) (ct : Rational) : Hw :=
  let (ctNsec, ctSubnsec) := edgxSchedRationalToNsecOn w ct
  match u with
  | .fsc => Fsc.edgxSchedHwSetPending hw idx startTime (BitVec.ofNat 32 ctNsec) (BitVec.ofNat 32 ctSubnsec)
  | _ => edgxSchedHwSetPending hw idx startTime (BitVec.ofNat 32 ctNsec)

theorem rationalToNsecOn_bits64 (rat : Rational) :
    edgxSchedRationalToNsecOn .bits64 rat = edgxSchedRationalToNsec rat := rfl

theorem setCycleTimeOn_bits64 (V : Variant) (com : Com) (s : EdgxSched) (ct : Rational) :
    edgxSchedSetCycleTimeOn .bits64 V com s ct = edgxSchedSetCycleTime V com s ct := rfl

/-! ## What is meant -/

/-- A cycle time in nanoseconds. -/
def Rational.nsecs (ct : Rational) : ℚ := ct.secs * NSEC_PER_SEC

/-- Nanoseconds, and parts of a nanosecond in units of `2 ^ -32`. -/
def Rational.exactNsec (ct : Rational) : Nat × Nat := (⌊ct.nsecs⌋₊, ⌊Int.fract ct.nsecs * 2 ^ 32⌋₊)

/-- The conversion of `ct` is exact, the setter accepts it just when it is a
cycle time inside the limits, and if so it is the one that is programmed. -/
structure CycleTimeOk (w : LongWidth) (u : User) (com : Com) (s : EdgxSched) (ct : Rational) : Prop where
  pair : ct.denom ≠ 0 → edgxSchedRationalToNsecOn w ct = ct.exactNsec
  accepts : (edgxSchedSetCycleTimeOn w u.variant com s ct).1 = 0 ↔
    ct.denom ≠ 0 ∧ 0 < ct.nsecs ∧ ⌊ct.nsecs⌋₊ ≤ u.variant.maxCycNs com
  stores : (edgxSchedSetCycleTimeOn w u.variant com s ct).1 = 0 →
    (edgxSchedSetCycleTimeOn w u.variant com s ct).2.adminTab.cycleTime = ct
  programs : (edgxSchedSetCycleTimeOn w u.variant com s ct).1 = 0 → ∀ hw (t : Tab) startTime, Free hw t →
    let tab := (u.setPending w hw t.idx startTime ct).tabs t
    tab.cycNsec.toNat = ct.exactNsec.1 ∧ (u = .fsc → tab.cycSubns.toNat = ct.exactNsec.2)

/-- The product with the whole seconds fits. -/
def LongWidth.Fits (w : LongWidth) (ct : Rational) : Prop := w = .bits32 → ct.num.toNat / ct.denom.toNat < 5

instance LongWidth.decidableFits (w : LongWidth) (ct : Rational) : Decidable (w.Fits ct) := inferInstanceAs (Decidable (_ → _))

/-! ## The conversion is exact when the product fits -/

section Exact

variable {ct : Rational}

theorem denom_pos (h : ct.denom ≠ 0) : 0 < ct.denom.toNat :=
  Nat.pos_of_ne_zero fun h0 => h (BitVec.eq_of_toNat_eq h0)

theorem nsecs_eq (ct : Rational) : ct.nsecs = ((ct.num.toNat * NSEC_PER_SEC : Nat) : ℚ) / ct.denom.toNat := by
  rw [Rational.nsecs, Rational.secs]
  push_cast
  ring

theorem floor_nsecs (ct : Rational) : ⌊ct.nsecs⌋₊ = ct.num.toNat * NSEC_PER_SEC / ct.denom.toNat := by
  rw [nsecs_eq, Nat.floor_div_eq_div]

theorem fract_nsecs (ct : Rational) :
    ⌊Int.fract ct.nsecs * 2 ^ 32⌋₊ = ct.num.toNat * NSEC_PER_SEC % ct.denom.toNat * 2 ^ 32 / ct.denom.toNat := by
  have hmul (a d : Nat) : (a : ℚ) / d * 2 ^ 32 = ((a * 2 ^ 32 : Nat) : ℚ) / d := by
    push_cast
    ring
  rw [nsecs_eq, Int.fract_div_natCast_eq_div_natCast_mod, hmul, Nat.floor_div_eq_div]

theorem rem_mul_lt {n d : Nat} (hd : 0 < d) (hd32 : d < 2 ^ 32) : n % d * NSEC_PER_SEC < 2 ^ 64 := by
  have hrem := Nat.mod_lt n hd
  have hnsec : n % d * NSEC_PER_SEC ≤ (2 ^ 32 - 1) * NSEC_PER_SEC := Nat.mul_le_mul_right _ (by omega)
  rw [NSEC_PER_SEC] at *
  omega

/-- The parts of the conversion: the whole seconds are the only place where
the width of `long` matters. -/
theorem rationalToNsecOn_eq (w : LongWidth) (h : ct.denom ≠ 0) :
    edgxSchedRationalToNsecOn w ct =
      (u64 (ct.num.toNat % ct.denom.toNat * NSEC_PER_SEC / ct.denom.toNat +
          w.mulNsecPerSec (ct.num.toNat / ct.denom.toNat)), ct.exactNsec.2) := by
  have hd := denom_pos h
  have hd32 := ct.denom.isLt
  have hsub : ct.num.toNat * NSEC_PER_SEC % ct.denom.toNat < ct.denom.toNat := Nat.mod_lt _ hd
  have hnsec : ct.num.toNat % ct.denom.toNat * NSEC_PER_SEC < 2 ^ 64 := rem_mul_lt hd hd32
  have hcarry : ct.num.toNat % ct.denom.toNat * NSEC_PER_SEC % ct.denom.toNat =
      ct.num.toNat * NSEC_PER_SEC % ct.denom.toNat := Nat.mod_mul_mod ..
  have hlt : ct.num.toNat * NSEC_PER_SEC % ct.denom.toNat * 2 ^ 32 / ct.denom.toNat < 2 ^ 32 := by
    rw [Nat.div_lt_iff_lt_mul hd, Nat.mul_comm (2 ^ 32)]
    exact Nat.mul_lt_mul_of_pos_right hsub (by decide)
  have h64 : ct.num.toNat * NSEC_PER_SEC % ct.denom.toNat * 2 ^ 32 < 2 ^ 64 := by omega
  rw [edgxSchedRationalToNsecOn, Rational.exactNsec, fract_nsecs]
  simp only [u64_of_lt hnsec, hcarry, u64_of_lt h64, Nat.mod_eq_of_lt hlt]

theorem wholeSecs_lt (ct : Rational) : ct.num.toNat / ct.denom.toNat < 2 ^ 32 :=
  (Nat.div_le_self _ _).trans_lt ct.num.isLt

theorem mulNsecPerSec_of_fits {w : LongWidth} (h : w.Fits ct) :
    w.mulNsecPerSec (ct.num.toNat / ct.denom.toNat) = ct.num.toNat / ct.denom.toNat * NSEC_PER_SEC := by
  cases w with
  | bits32 =>
    have hlt := h rfl
    exact Nat.mod_eq_of_lt (by rw [NSEC_PER_SEC]; omega)
  | bits64 => rfl

theorem exact_of_fits {w : LongWidth} (hd : ct.denom ≠ 0) (h : w.Fits ct) :
    edgxSchedRationalToNsecOn w ct = ct.exactNsec := by
  have hsec := wholeSecs_lt ct
  have hrem := Nat.mod_lt ct.num.toNat (denom_pos hd)
  have hfrac : ct.num.toNat % ct.denom.toNat * NSEC_PER_SEC / ct.denom.toNat ≤ NSEC_PER_SEC :=
    Nat.div_le_of_le_mul (Nat.mul_le_mul_right _ hrem.le)
  rw [rationalToNsecOn_eq w hd, mulNsecPerSec_of_fits h, u64_of_lt (by rw [NSEC_PER_SEC] at *; omega),
    Nat.add_comm, div_parts (denom_pos hd), Rational.exactNsec, floor_nsecs]

/-- From five seconds on a product of 32 bits is too small. -/
theorem fits_of_exact {w : LongWidth} (hd : ct.denom ≠ 0) (h : edgxSchedRationalToNsecOn w ct = ct.exactNsec) :
    w.Fits ct := by
  intro hw
  subst hw
  by_contra hlong
  have hfst := congrArg Prod.fst h
  have hparts := div_parts (denom_pos hd) ct.num.toNat NSEC_PER_SEC
  rw [rationalToNsecOn_eq _ hd, Rational.exactNsec, floor_nsecs, ← hparts] at hfst
  have hwrap : ct.num.toNat / ct.denom.toNat * NSEC_PER_SEC % 2 ^ 32 <
      ct.num.toNat / ct.denom.toNat * NSEC_PER_SEC := by rw [NSEC_PER_SEC]; omega
  have hle : u64 (ct.num.toNat % ct.denom.toNat * NSEC_PER_SEC / ct.denom.toNat +
      LongWidth.bits32.mulNsecPerSec (ct.num.toNat / ct.denom.toNat)) ≤ _ := Nat.mod_le _ _
  rw [LongWidth.mulNsecPerSec] at hle hfst
  omega

end Exact

/-! ## Setting and programming -/

theorem maxCycNs_lt (u : User) (com : Com) : u.variant.maxCycNs com < 2 ^ 32 := by
  cases u with
  | portGates => exact (by decide : EDGX_SCHED_MAX_CYC_NS < 2 ^ 32)
  | streamGates => exact (by decide : EDGX_SCHED_MAX_CYC_NS < 2 ^ 32)
  | fsc => exact (Nat.min_le_left _ _).trans_lt (by decide : Fsc.EDGX_SCHED_HW_MAX_CT_NS < 2 ^ 32)

/-- The setter accepts by the whole nanoseconds, zero or not. -/
theorem setCycleTimeOn_ok (w : LongWidth) (V : Variant) (com : Com) (s : EdgxSched) (ct : Rational) :
    (edgxSchedSetCycleTimeOn w V com s ct).1 = 0 ↔
      ct.denom ≠ 0 ∧ (edgxSchedRationalToNsecOn w ct).1 ≤ V.maxCycNs com := by
  unfold edgxSchedSetCycleTimeOn
  by_cases hd : ct.denom = 0
  · rw [if_pos hd]
    exact ⟨fun h => absurd h (by decide : -EINVAL ≠ 0), fun h => absurd hd h.1⟩
  · rw [if_neg hd, and_iff_right hd]
    split
    · exact iff_of_true rfl ‹_›
    · exact iff_of_false (by decide : -ERANGE ≠ 0) ‹_›

theorem setCycleTimeOn_stores {w : LongWidth} {V : Variant} {com : Com} {s : EdgxSched} {ct : Rational}
    (h : (edgxSchedSetCycleTimeOn w V com s ct).1 = 0) :
    (edgxSchedSetCycleTimeOn w V com s ct).2.adminTab.cycleTime = ct := by
  rw [setCycleTimeOn_ok] at h
  rw [edgxSchedSetCycleTimeOn, if_neg h.1, if_pos h.2]

/-- The registers of the submitted table. -/
theorem setPending_regs (u : User) (w : LongWidth) {hw : Hw} {t : Tab} (h : Free hw t) (startTime : Timespec)
    (ct : Rational) :
    let tab := (u.setPending w hw t.idx startTime ct).tabs t
    tab.cycNsec = BitVec.ofNat 32 (edgxSchedRationalToNsecOn w ct).1 ∧
      (u = .fsc → tab.cycSubns = BitVec.ofNat 32 (edgxSchedRationalToNsecOn w ct).2) := by
  have hshared : ∀ cycleNsec, ((edgxSchedHwSetPending hw t.idx startTime cycleNsec).tabs t).cycNsec = cycleNsec := by
    intro cycleNsec
    obtain ⟨tab, hwrote, hp⟩ := setPending_free h startTime cycleNsec
    rw [hwrote.tabs, Function.update_self]
    exact congrArg Prod.fst hp.content
  cases u with
  | portGates => exact ⟨hshared _, fun hu => nomatch hu⟩
  | streamGates => exact ⟨hshared _, fun hu => nomatch hu⟩
  | fsc =>
    obtain ⟨tab, hwrote, hp, hsub⟩ := Fsc.setPending_wrote h startTime
      (BitVec.ofNat 32 (edgxSchedRationalToNsecOn w ct).1) (BitVec.ofNat 32 (edgxSchedRationalToNsecOn w ct).2)
    dsimp only [User.setPending]
    rw [hwrote.tabs, Function.update_self]
    exact ⟨congrArg Prod.fst hp.content, fun _ => hsub⟩

theorem exactNsec_snd_lt (ct : Rational) : ct.exactNsec.2 < 2 ^ 32 := by
  rw [Rational.exactNsec, Nat.floor_lt (mul_nonneg (Int.fract_nonneg _) (by norm_num))]
  have hlt := Int.fract_lt_one ct.nsecs
  push_cast
  linarith

theorem nsecs_pos {ct : Rational} (hd : ct.denom ≠ 0) (hn : ct.num ≠ 0) : 0 < ct.nsecs :=
  mul_pos (secs_pos hn hd) (by norm_num [NSEC_PER_SEC])

/-- **A cycle time is converted, accepted and programmed as it should be just
when it is not zero and the product with its whole seconds fits** into a
`long`: with 32 bits that is below five seconds. -/
theorem cycleTimeOk_iff (w : LongWidth) (u : User) (com : Com) (s : EdgxSched) (ct : Rational) :
    CycleTimeOk w u com s ct ↔ (ct.denom ≠ 0 → w.Fits ct ∧ ct.num ≠ 0) := by
  constructor
  · intro h hd
    refine ⟨fits_of_exact hd (h.pair hd), fun hn => ?_⟩
    -- zero is accepted, whatever the limit
    have hzero : ct.nsecs = 0 := by simp [nsecs_eq, hn]
    have haccepted := h.accepts.1 ((setCycleTimeOn_ok ..).2 ⟨hd, by simp [h.pair hd, Rational.exactNsec, hzero]⟩)
    exact haccepted.2.1.ne' hzero
  · intro h
    have hpair : ct.denom ≠ 0 → edgxSchedRationalToNsecOn w ct = ct.exactNsec := fun hd => exact_of_fits hd (h hd).1
    refine ⟨hpair, ?_, setCycleTimeOn_stores, ?_⟩
    · rw [setCycleTimeOn_ok]
      refine and_congr_right fun hd => ?_
      rw [hpair hd]
      exact (and_iff_right (nsecs_pos hd (h hd).2)).symm
    · intro hok hw t startTime hfree
      obtain ⟨hd, hle⟩ := (setCycleTimeOn_ok ..).1 hok
      obtain ⟨hnsec, hsub⟩ := setPending_regs u w hfree startTime ct
      rw [hpair hd] at hle hnsec hsub
      refine ⟨?_, fun hu => ?_⟩
      · rw [hnsec, BitVec.toNat_ofNat, Nat.mod_eq_of_lt (hle.trans_lt (maxCycNs_lt u com))]
      · rw [hsub hu, BitVec.toNat_ofNat, Nat.mod_eq_of_lt (exactNsec_snd_lt ct)]

/-- With 32 bits 262 seconds look like 7 milliseconds, and are accepted. -/
theorem not_cycleTimeOk_long :
    (edgxSchedSetCycleTimeOn .bits32 portGates someCom (init 0xff) ⟨262, 1⟩).1 = 0 ∧
      ¬ CycleTimeOk .bits32 .portGates someCom (init 0xff) ⟨262, 1⟩ := by
  refine ⟨by decide, fun h => ?_⟩
  have hpair := h.pair (by decide)
  have hfst : (edgxSchedRationalToNsecOn .bits32 ⟨262, 1⟩).1 = 6994944 := by decide
  rw [hpair, Rational.exactNsec, floor_nsecs] at hfst
  exact absurd hfst (by decide)

end TsnSwitch.Sched
