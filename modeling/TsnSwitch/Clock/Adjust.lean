/-
Adjusting a clock (edge_time.c): its step, by a share of the nominal one, and its
time, by a difference. The step is an unsigned 32.32 number of nanoseconds, the
difference a 48 bit number of seconds in two's complement with nanoseconds that
are not negative.

The arithmetic of the kernel is exact where its results have 64 bits
(`KernelMath`). The lock, and the other clocks, are left out.
-/
import Mathlib.Data.BitVec
import Mathlib.Tactic
import TsnSwitch.Errno

namespace TsnSwitch.Clock

def FRTC_STEP_NS_MAX : BitVec 64 := 63

def FRTC_CMD_ADJ_TIME : BitVec 16 := 1
def FRTC_CMD_ADJ_STEP : BitVec 16 := 2

def S32_MAX : Int := 2147483647

def NSEC_PER_SEC : Nat := 1000000000

/-- `struct timespec64`. -/
structure Timespec64 where
  tvSec : BitVec 64
  tvNsec : BitVec 64

/-- What the driver uses of the kernel. -/
structure KernelMath where
  mulU64U64DivU64 : BitVec 64 → BitVec 64 → BitVec 64 → BitVec 64
  nsToTimespec64 : BitVec 64 → Timespec64
  mul_div : ∀ a b c, c ≠ 0 → a.toNat * b.toNat / c.toNat < 2 ^ 64 →
    (mulU64U64DivU64 a b c).toNat = a.toNat * b.toNat / c.toNat
  sec : ∀ ns, (nsToTimespec64 ns).tvSec.toInt = ns.toInt / NSEC_PER_SEC
  nsec : ∀ ns, (nsToTimespec64 ns).tvNsec.toInt = ns.toInt % NSEC_PER_SEC

/-- The registers for adjustments, with the commands that were given. -/
structure FrtcRegs where
  stepNs : BitVec 32 := 0
  stepSns : BitVec 32 := 0
  adjSecHi : BitVec 32 := 0
  adjSecLo : BitVec 32 := 0
  adjNsec : BitVec 32 := 0
  cmds : List (BitVec 16) := []
  deriving DecidableEq

/-- `struct edgx_clk`: the nominal step and the registers. -/
structure EdgxClk where
  ns : BitVec 32
  sns : BitVec 32
  regs : FrtcRegs := {}
  deriving DecidableEq

def edgxClkCmd (regs : FrtcRegs) (cmd : BitVec 16) : FrtcRegs := { regs with cmds := regs.cmds ++ [cmd] }

/-- The register with the bits set. -/
def edgxSet32 (reg : BitVec 32) (bithi bitlo : Nat) (val : BitVec 32) : BitVec 32 :=
  let mask := ((1#32 <<< (bithi - bitlo + 1)) - 1) <<< bitlo
  let v := (val <<< bitlo) &&& mask
  (reg &&& ~~~mask) ||| v

variable (K : KernelMath)

/-- Returns whether the adjustment is negative, and the difference. -/
def diffByScaledPpm (base scaledPpm : BitVec 64) : Bool × BitVec 64 :=
  let negative := scaledPpm.slt 0
  let scaledPpm := if negative then -scaledPpm else scaledPpm
  (negative, K.mulU64U64DivU64 base scaledPpm (1000000#64 <<< 16))

def adjustByScaledPpm (base scaledPpm : BitVec 64) : BitVec 64 :=
  let (negative, diff) := diffByScaledPpm K base scaledPpm
  if negative then base - diff else base + diff

def edgxClkAdjfine (clk : EdgxClk) (scaledPpm : BitVec 64) : Int × EdgxClk :=
  let adj := (clk.ns.setWidth 64 <<< 32) ||| clk.sns.setWidth 64
  let adj := adjustByScaledPpm K adj scaledPpm
  if adj >>> 32 > FRTC_STEP_NS_MAX then (-EINVAL, clk)
  else
    let regs := { clk.regs with stepNs := (adj >>> 32).setWidth 32, stepSns := adj.setWidth 32 }
    (0, { clk with regs := edgxClkCmd regs FRTC_CMD_ADJ_STEP })

def edgxClkAdjtime (clk : EdgxClk) (delta : BitVec 64) : Int × EdgxClk :=
  let ts := K.nsToTimespec64 delta
  let adjNsec := ts.tvNsec.setWidth 32
  -- the two's complement of a negative number of seconds
  let adjSec := if delta.slt 0 then ~~~(-ts.tvSec) + 1 else ts.tvSec
  let regs := { clk.regs with
    adjSecHi := edgxSet32 clk.regs.adjSecHi 15 0 (((adjSec >>> 32) &&& 0xFFFF).setWidth 32)
    adjSecLo := (adjSec &&& 0xFFFFFFFF).setWidth 32
    adjNsec }
  (0, { clk with regs := edgxClkCmd regs FRTC_CMD_ADJ_TIME })

/-! ## Exact values -/

/-- The nominal step, in units of 2^-32 ns. -/
def EdgxClk.nominal (clk : EdgxClk) : Nat := clk.ns.toNat * 2 ^ 32 + clk.sns.toNat

/-- The part of the nominal step by which it changes. -/
def EdgxClk.diff (clk : EdgxClk) (scaledPpm : BitVec 64) : Nat :=
  clk.nominal * scaledPpm.toInt.natAbs / (65536 * 10 ^ 6)

/-- The step that is asked for. -/
def EdgxClk.adjusted (clk : EdgxClk) (scaledPpm : BitVec 64) : Int :=
  if scaledPpm.toInt < 0 then clk.nominal - clk.diff scaledPpm else clk.nominal + clk.diff scaledPpm

/-- The adjustment in parts per billion, as the clock's `max_adj` is given. -/
def scaledPpmToPpb (scaledPpm : BitVec 64) : Int := (1 + scaledPpm.toInt) * 125 / 2 ^ 13

/-- The adjustment is in the range that the clock names. -/
def Advertised (scaledPpm : BitVec 64) : Prop := -S32_MAX ≤ scaledPpmToPpb scaledPpm ∧ scaledPpmToPpb scaledPpm ≤ S32_MAX

/-- Step `t` is written, and nothing else but the command. -/
structure StepWritten (clk : EdgxClk) (t : Int) (r : Int × EdgxClk) : Prop where
  ret : r.1 = 0
  value : (r.2.regs.stepNs.toNat * 2 ^ 32 + r.2.regs.stepSns.toNat : Int) = t
  others : r.2 = { clk with
    regs := edgxClkCmd { clk.regs with stepNs := r.2.regs.stepNs, stepSns := r.2.regs.stepSns } FRTC_CMD_ADJ_STEP }

/-- The step is written, or refused with nothing written if it is one of
`refused`. -/
def AdjfineOk (clk : EdgxClk) (scaledPpm : BitVec 64) (refused : Int → Prop) : Prop :=
  (refused (clk.adjusted scaledPpm) → edgxClkAdjfine K clk scaledPpm = (-EINVAL, clk)) ∧
    (¬ refused (clk.adjusted scaledPpm) → StepWritten clk (clk.adjusted scaledPpm) (edgxClkAdjfine K clk scaledPpm))

/-- The integer part of the step exceeds the register's maximum. -/
def TooLong (t : Int) : Prop := FRTC_STEP_NS_MAX.toNat < t / 2 ^ 32

instance (t : Int) : Decidable (TooLong t) := inferInstanceAs (Decidable (_ < _))

/-- The seconds of the difference in the registers. -/
def FrtcRegs.adjSec (regs : FrtcRegs) : Int := (regs.adjSecHi.setWidth 16 ++ regs.adjSecLo : BitVec 48).toInt

/-- Difference `delta` is written, and nothing else but the command. -/
structure TimeWritten (clk : EdgxClk) (delta : Int) (r : Int × EdgxClk) : Prop where
  ret : r.1 = 0
  value : r.2.regs.adjSec * NSEC_PER_SEC + r.2.regs.adjNsec.toNat = delta
  nsec_lt : r.2.regs.adjNsec.toNat < NSEC_PER_SEC
  secHi : r.2.regs.adjSecHi >>> 16 = clk.regs.adjSecHi >>> 16
  others : r.2 = { clk with
    regs := edgxClkCmd { clk.regs with
      adjSecHi := r.2.regs.adjSecHi, adjSecLo := r.2.regs.adjSecLo, adjNsec := r.2.regs.adjNsec } FRTC_CMD_ADJ_TIME }

variable {K}

/-! ## The step -/

theorem nominal_toNat (clk : EdgxClk) : ((clk.ns.setWidth 64 <<< 32) ||| clk.sns.setWidth 64).toNat = clk.nominal := by
  have hlow : clk.sns.toNat < 2 ^ 32 := clk.sns.isLt
  have hhigh : clk.ns.toNat < 2 ^ 32 := clk.ns.isLt
  rw [BitVec.toNat_or, BitVec.toNat_shiftLeft, BitVec.toNat_setWidth, BitVec.toNat_setWidth, Nat.shiftLeft_eq,
    Nat.mod_eq_of_lt (by omega : clk.ns.toNat < 2 ^ 64), Nat.mod_eq_of_lt (by omega : clk.sns.toNat < 2 ^ 64),
    Nat.mod_eq_of_lt (by omega : clk.ns.toNat * 2 ^ 32 < 2 ^ 64), Nat.mul_comm, ← Nat.two_pow_add_eq_or_of_lt hlow,
    EdgxClk.nominal, Nat.mul_comm]

theorem abs_toNat (x : BitVec 64) : (if x.slt 0 then -x else x).toNat = x.toInt.natAbs := by
  have hx : x.toNat < 2 ^ 64 := x.isLt
  have hneg : x.slt 0 = decide (x.toInt < 0) := rfl
  rw [hneg, BitVec.toInt_eq_toNat_cond]
  by_cases h : 2 * x.toNat < 2 ^ 64
  · have hpos : ¬ ((x.toNat : Int) < 0) := by omega
    rw [if_pos h, decide_eq_false hpos]
    exact (Int.natAbs_natCast _).symm
  · have hlt : (x.toNat : Int) - (2 ^ 64 : Nat) < 0 := by omega
    rw [if_neg h, decide_eq_true hlt, if_pos rfl, BitVec.toNat_neg]
    omega

theorem adjusted_toNat (clk : EdgxClk) (scaledPpm : BitVec 64) (hfit : clk.diff scaledPpm < 2 ^ 64) :
    ∃ diff : BitVec 64, diff.toNat = clk.diff scaledPpm ∧
      adjustByScaledPpm K ((clk.ns.setWidth 64 <<< 32) ||| clk.sns.setWidth 64) scaledPpm =
        if scaledPpm.toInt < 0 then ((clk.ns.setWidth 64 <<< 32) ||| clk.sns.setWidth 64) - diff
        else ((clk.ns.setWidth 64 <<< 32) ||| clk.sns.setWidth 64) + diff := by
  have hneg : scaledPpm.slt 0 = decide (scaledPpm.toInt < 0) := rfl
  have hden : (1000000#64 <<< 16).toNat = 65536 * 10 ^ 6 := by decide
  refine ⟨_, ?_, by simp only [adjustByScaledPpm, diffByScaledPpm, hneg, decide_eq_true_eq]; rfl⟩
  have hexact : ((clk.ns.setWidth 64 <<< 32) ||| clk.sns.setWidth 64).toNat * (if scaledPpm.slt 0 then -scaledPpm else scaledPpm).toNat /
      (1000000#64 <<< 16).toNat = clk.diff scaledPpm := by
    rw [nominal_toNat, abs_toNat, hden, EdgxClk.diff]
  have := K.mul_div _ _ _ (by decide) (hexact ▸ hfit)
  rw [hexact] at this
  simpa only [hneg, decide_eq_true_eq] using this

/-- An adjustment in the range that is named is by less than three steps. -/
theorem diff_le {scaledPpm : BitVec 64} (h : Advertised scaledPpm) (clk : EdgxClk) :
    clk.diff scaledPpm ≤ 3 * clk.nominal := by
  have habs : scaledPpm.toInt.natAbs ≤ 65536 * 10 ^ 6 * 3 := by
    unfold Advertised scaledPpmToPpb S32_MAX at h
    omega
  refine Nat.div_le_of_le_mul ?_
  calc clk.nominal * scaledPpm.toInt.natAbs ≤ clk.nominal * (65536 * 10 ^ 6 * 3) := Nat.mul_le_mul_left _ habs
    _ = 65536 * 10 ^ 6 * (3 * clk.nominal) := by ring

/-- The step that is computed: refused exactly if the one asked for is negative
or too long, and otherwise that one. -/
theorem adj_spec (clk : EdgxClk) {scaledPpm : BitVec 64} (h : Advertised scaledPpm)
    (hfit : clk.nominal + clk.diff scaledPpm < 2 ^ 64) :
    let adj := adjustByScaledPpm K ((clk.ns.setWidth 64 <<< 32) ||| clk.sns.setWidth 64) scaledPpm
    (63 < adj.toNat / 2 ^ 32 ↔ clk.adjusted scaledPpm < 0 ∨ TooLong (clk.adjusted scaledPpm)) ∧
      (0 ≤ clk.adjusted scaledPpm → (adj.toNat : Int) = clk.adjusted scaledPpm) := by
  intro adj
  obtain ⟨diff, hdiff, hadj⟩ := adjusted_toNat (K := K) clk scaledPpm (by omega)
  have hle := diff_le h clk
  have hnom := nominal_toNat clk
  have hmax : FRTC_STEP_NS_MAX.toNat = 63 := rfl
  have hadj : adj = _ := hadj
  unfold EdgxClk.adjusted TooLong
  rw [hadj, hmax]
  generalize (clk.ns.setWidth 64 <<< 32) ||| clk.sns.setWidth 64 = base at hnom ⊢
  split
  · rw [BitVec.toNat_sub, hnom, hdiff]
    omega
  · rw [BitVec.toNat_add, hnom, hdiff, Nat.mod_eq_of_lt hfit]
    omega

theorem adjfine_ok (clk : EdgxClk) {scaledPpm : BitVec 64} (h : Advertised scaledPpm)
    (hfit : clk.nominal + clk.diff scaledPpm < 2 ^ 64) :
    AdjfineOk K clk scaledPpm fun t => t < 0 ∨ TooLong t := by
  obtain ⟨hrefused, hvalue⟩ := adj_spec (K := K) clk h hfit
  unfold AdjfineOk edgxClkAdjfine
  simp only []
  generalize adjustByScaledPpm K ((clk.ns.setWidth 64 <<< 32) ||| clk.sns.setWidth 64) scaledPpm = adj at hrefused hvalue ⊢
  have hmax : adj >>> 32 > FRTC_STEP_NS_MAX ↔ 63 < adj.toNat / 2 ^ 32 := by
    rw [gt_iff_lt, BitVec.lt_def, BitVec.toNat_ushiftRight, Nat.shiftRight_eq_div_pow]
    rfl
  refine ⟨fun hr => if_pos (hmax.2 (hrefused.2 hr)), fun hr => ?_⟩
  have hle := mt hrefused.1 hr
  rw [if_neg (mt hmax.1 hle)]
  refine ⟨rfl, ?_, rfl⟩
  have hlt := adj.isLt
  rw [← hvalue (by omega)]
  simp only [edgxClkCmd, BitVec.toNat_setWidth, BitVec.toNat_ushiftRight, Nat.shiftRight_eq_div_pow]
  omega

/-! ## The time -/

/-- Negating twice gives the seconds back. -/
theorem adjSec_eq (tvSec : BitVec 64) (negative : Bool) : (if negative then ~~~(-tvSec) + 1 else tvSec) = tvSec := by
  cases negative with
  | false => rfl
  | true =>
    have hneg : ~~~(-tvSec) + 1 = - -tvSec := (BitVec.neg_eq_not_add (-tvSec)).symm
    rw [if_pos rfl, hneg, BitVec.neg_neg]

theorem set32_low (reg val : BitVec 32) : (edgxSet32 reg 15 0 val).setWidth 16 = val.setWidth 16 := by
  unfold edgxSet32
  refine BitVec.eq_of_getLsbD_eq fun i hi => ?_
  have hmask : (((1#32 <<< (15 - 0 + 1)) - 1) <<< 0).getLsbD i = true := by interval_cases i <;> decide
  simp only [BitVec.getLsbD_setWidth, BitVec.getLsbD_or, BitVec.getLsbD_and, BitVec.getLsbD_not, hmask, hi, decide_true]
  simp

theorem set32_high (reg val : BitVec 32) : edgxSet32 reg 15 0 val >>> 16 = reg >>> 16 := by
  unfold edgxSet32
  refine BitVec.eq_of_getLsbD_eq fun i hi => ?_
  simp only [BitVec.getLsbD_ushiftRight, BitVec.getLsbD_or, BitVec.getLsbD_and, BitVec.getLsbD_not]
  by_cases hlt : 16 + i < 32
  · have hmask : (((1#32 <<< (15 - 0 + 1)) - 1) <<< 0).getLsbD (16 + i) = false := by
      have hi : i < 16 := by omega
      interval_cases i <;> decide
    simp only [hmask, Bool.not_false, Bool.and_true, Bool.and_false, Bool.or_false, hlt, decide_true]
  · simp [BitVec.getLsbD_of_ge _ _ (Nat.not_lt.1 hlt)]

/-- The 48 bits of the two registers are the low bits of the seconds. -/
theorem adjSec_regs (reg : BitVec 32) (sec : BitVec 64) :
    (edgxSet32 reg 15 0 (((sec >>> 32) &&& 0xFFFF).setWidth 32)).setWidth 16 ++ (sec &&& 0xFFFFFFFF).setWidth 32 =
      sec.setWidth 48 := by
  have hhi : ((((sec >>> 32) &&& 0xFFFF).setWidth 32).setWidth 16 : BitVec 16).toNat = sec.toNat / 2 ^ 32 % 2 ^ 16 := by
    have hmask : (0xFFFF : BitVec 64).toNat = 2 ^ 16 - 1 := rfl
    simp only [BitVec.toNat_setWidth, BitVec.toNat_and, hmask, Nat.and_two_pow_sub_one_eq_mod, BitVec.toNat_ushiftRight,
      Nat.shiftRight_eq_div_pow]
    omega
  have hlo : ((sec &&& 0xFFFFFFFF).setWidth 32 : BitVec 32).toNat = sec.toNat % 2 ^ 32 := by
    have hmask : (0xFFFFFFFF : BitVec 64).toNat = 2 ^ 32 - 1 := rfl
    simp only [BitVec.toNat_setWidth, BitVec.toNat_and, hmask, Nat.and_two_pow_sub_one_eq_mod]
    omega
  refine BitVec.eq_of_toNat_eq ?_
  rw [set32_low, BitVec.toNat_append, Nat.shiftLeft_eq, Nat.mul_comm, ← Nat.two_pow_add_eq_or_of_lt (BitVec.isLt _), hhi, hlo,
    BitVec.toNat_setWidth]
  omega

/-- 48 bits hold the seconds of every difference. -/
theorem toInt_setWidth48 {x : BitVec 64} (hlo : -2 ^ 47 ≤ x.toInt) (hhi : x.toInt < 2 ^ 47) :
    (x.setWidth 48).toInt = x.toInt := by
  have hx := x.isLt
  rw [BitVec.toInt_eq_toNat_cond] at hlo hhi ⊢
  rw [BitVec.toInt_eq_toNat_cond, BitVec.toNat_setWidth]
  split <;> split at hlo <;> omega

theorem adjtime_ok (clk : EdgxClk) (delta : BitVec 64) : TimeWritten clk delta.toInt (edgxClkAdjtime K clk delta) := by
  have hsec := K.sec delta
  have hnsec := K.nsec delta
  have hlo := BitVec.le_toInt delta
  have hhi := BitVec.toInt_lt (x := delta)
  simp only [NSEC_PER_SEC] at hsec hnsec
  have hns : ((K.nsToTimespec64 delta).tvNsec.setWidth 32 : BitVec 32).toNat = delta.toInt % 1000000000 := by
    rw [BitVec.toInt_eq_toNat_cond] at hnsec
    rw [BitVec.toNat_setWidth]
    split at hnsec <;> omega
  unfold edgxClkAdjtime
  simp only [adjSec_eq]
  refine ⟨rfl, ?_, ?_, ?_, rfl⟩
  · simp only [edgxClkCmd, FrtcRegs.adjSec]
    rw [adjSec_regs, toInt_setWidth48 (by omega) (by omega), hsec, hns]
    simp only [NSEC_PER_SEC]
    omega
  · simp only [edgxClkCmd, NSEC_PER_SEC]
    omega
  · exact set32_high _ _

/-! ## Both -/

/-- A step that its register can hold does not overflow. -/
theorem fits_of_register {clk : EdgxClk} (hns : clk.ns.toNat ≤ 63) {scaledPpm : BitVec 64} (h : Advertised scaledPpm) :
    clk.nominal + clk.diff scaledPpm < 2 ^ 64 := by
  have hle := diff_le h clk
  have hsns := clk.sns.isLt
  unfold EdgxClk.nominal at hle ⊢
  omega

/-- **An adjustment in the range that the clock names writes exactly the step
that is asked for, or is refused if that is negative or too long for the
register; and every difference is written exactly as seconds and nanoseconds.** -/
theorem adjust_ok (K : KernelMath) (clk : EdgxClk) :
    (∀ scaledPpm, Advertised scaledPpm → clk.nominal + clk.diff scaledPpm < 2 ^ 64 →
      AdjfineOk K clk scaledPpm fun t => t < 0 ∨ TooLong t) ∧
    ∀ delta, TimeWritten clk delta.toInt (edgxClkAdjtime K clk delta) :=
  ⟨fun _ h hfit => adjfine_ok clk h hfit, adjtime_ok clk⟩

section Example

/-- The kernel's functions. -/
def exactMath : KernelMath where
  mulU64U64DivU64 a b c := BitVec.ofNat 64 (a.toNat * b.toNat / c.toNat)
  nsToTimespec64 ns := ⟨BitVec.ofInt 64 (ns.toInt / NSEC_PER_SEC), BitVec.ofInt 64 (ns.toInt % NSEC_PER_SEC)⟩
  mul_div a b c _ h := by rw [BitVec.toNat_ofNat, Nat.mod_eq_of_lt h]
  sec ns := by
    have hlo := BitVec.le_toInt ns
    have hhi := BitVec.toInt_lt (x := ns)
    rw [BitVec.toInt_ofInt, NSEC_PER_SEC]
    exact Int.bmod_eq_of_le (by omega) (by omega)
  nsec ns := by
    rw [BitVec.toInt_ofInt, NSEC_PER_SEC]
    exact Int.bmod_eq_of_le (by omega) (by omega)

/-- A step of 8 ns is longer by 100 ppm, and the time earlier by 1.5 s. -/
theorem adjust_ok_eight :
    (AdjfineOk exactMath ⟨8, 0, {}⟩ 6553600 fun t => t < 0 ∨ TooLong t) ∧
      TimeWritten ⟨8, 0, {}⟩ (-1500000000 : BitVec 64).toInt (edgxClkAdjtime exactMath ⟨8, 0, {}⟩ (-1500000000)) :=
  ⟨(adjust_ok exactMath ⟨8, 0, {}⟩).1 6553600 ⟨by decide, by decide⟩ (by decide),
    (adjust_ok exactMath ⟨8, 0, {}⟩).2 (-1500000000)⟩

/-- A step of 8 ns, shorter by half more than it is; and one of 2^31 ns, twice as
long. -/
theorem not_adjust_ok :
    (¬ ∀ (K : KernelMath) (clk : EdgxClk) (scaledPpm : BitVec 64), Advertised scaledPpm → AdjfineOk K clk scaledPpm TooLong) ∧
    ¬ ∀ (K : KernelMath) (clk : EdgxClk) (scaledPpm : BitVec 64), Advertised scaledPpm →
      AdjfineOk K clk scaledPpm fun t => t < 0 ∨ TooLong t := by
  refine ⟨fun h => ?_, fun h => ?_⟩
  · have hshort := (h exactMath ⟨8, 0, {}⟩ (-98304000000) ⟨by decide, by decide⟩).2 (by decide)
    exact absurd hshort.ret (by decide)
  · have hlong := (h exactMath ⟨0x80000000, 0, {}⟩ 65536000000 ⟨by decide, by decide⟩).1 (.inr (by decide))
    exact absurd hlong (by decide)

end Example

end TsnSwitch.Clock
