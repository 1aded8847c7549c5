/-
The cycle arithmetic is exact.

`diffToCyclesChecked` and `calcFutureTimeChecked` are the computations of
Time.lean with a check in place of each reduction: they give no result when a
value does not fit its 64 bits. In the range the scheduler uses they do give
one, and it is the number of cycles between two points in time
(`diffToCycles_exact`), and the first cycle start that is not before the
current time (`calcFutureTime_exact`).
-/
import TsnSwitch.Lib.Divide
import TsnSwitch.Sched.Time

namespace TsnSwitch.Sched

open Lib

/-! ## Time in seconds -/

def Timespec.secs (t : Timespec) : ℚ := timespec64ToNs t / NSEC_PER_SEC

def Rational.secs (ct : Rational) : ℚ := ct.num.toNat / ct.denom.toNat

theorem toNs_setNormalized (sec nsec : Int) :
    timespec64ToNs (setNormalizedTimespec64 sec nsec) = sec * NSEC_PER_SEC + nsec := by
  have h := Int.mul_ediv_add_emod nsec NSEC_PER_SEC
  simp only [timespec64ToNs, setNormalizedTimespec64]
  linarith

theorem toNs_add (a b : Timespec) : timespec64ToNs (timespec64Add a b) = timespec64ToNs a + timespec64ToNs b := by
  rw [timespec64Add, toNs_setNormalized, timespec64ToNs, timespec64ToNs]
  ring

theorem toNs_sub (a b : Timespec) : timespec64ToNs (timespec64Sub a b) = timespec64ToNs a - timespec64ToNs b := by
  rw [timespec64Sub, toNs_setNormalized, timespec64ToNs, timespec64ToNs]
  ring

theorem nsec_sub_nonneg (a b : Timespec) : 0 ≤ (timespec64Sub a b).nsec := Int.emod_nonneg _ (by decide)

theorem nsec_sub_lt (a b : Timespec) : (timespec64Sub a b).nsec < NSEC_PER_SEC := Int.emod_lt_of_pos _ (by decide)

theorem secs_le_iff {a b : Timespec} : a.secs ≤ b.secs ↔ timespec64ToNs a ≤ timespec64ToNs b := by
  rw [Timespec.secs, Timespec.secs, div_le_div_iff_of_pos_right (by norm_num [NSEC_PER_SEC])]
  exact_mod_cast Iff.rfl

/-! ## 64 bits -/

/-- A value for an unsigned variable, if it fits. -/
def fitsU64 (n : Nat) : Option Nat := if n < 2 ^ 64 then some n else none

/-- A value for a signed variable, if it fits. -/
def fitsS64 (i : Int) : Option Int := if -2 ^ 63 ≤ i ∧ i < 2 ^ 63 then some i else none

theorem fitsU64_of_lt {n : Nat} (h : n < 2 ^ 64) : fitsU64 n = some n := if_pos h

theorem fitsS64_of_lt {n : Nat} (h : n < 2 ^ 63) : fitsS64 n = some (n : Int) := if_pos ⟨by omega, by omega⟩

theorem fitsU64_eq_some {n m : Nat} : fitsU64 n = some m ↔ n < 2 ^ 64 ∧ n = m := by
  rw [fitsU64]
  split <;> simp_all

theorem fitsS64_eq_some {i j : Int} : fitsS64 i = some j ↔ (-2 ^ 63 ≤ i ∧ i < 2 ^ 63) ∧ i = j := by
  rw [fitsS64]
  split <;> simp_all

theorem u64_of_lt {n : Nat} (h : n < 2 ^ 64) : u64 n = n := Nat.mod_eq_of_lt h

theorem u64OfInt_natCast {n : Nat} (h : n < 2 ^ 64) : u64OfInt n = n := by
  rw [u64OfInt, Int.emod_eq_of_lt (by omega) (by omega), Int.toNat_natCast]

/-- What rounding up adds. -/
def addUp (num countRes : Nat) (roundUp : Bool) : Option Nat :=
  if roundUp then (fitsU64 (num * NSEC_PER_SEC)).bind fun up => fitsU64 (countRes + (up - 1)) else some countRes

/-- `edgxSchedDiffToCycles`, as long as all values fit. -/
def diffToCyclesChecked (beginTime endTime : Timespec) (ct : Rational) (roundUp : Bool) : Option Nat := do
  let delta := timespec64Sub endTime beginTime
  let num := ct.num.toNat
  let denom := ct.denom.toNat
  let countSec ← fitsS64 (delta.sec * denom)
  let countSecRem := u64OfInt countSec % num
  let countSec := u64OfInt countSec / num
  let countNsec ← fitsU64 (u64OfInt delta.nsec * denom)
  let countNsecRem := countNsec % num
  let countNsec := countNsec / num
  let resSec ← fitsU64 (countSecRem * NSEC_PER_SEC)
  let resNsec ← fitsU64 (countNsec * num)
  let countRes ← fitsU64 (resSec + resNsec)
  let countRes ← fitsU64 (countRes + countNsecRem)
  let countRes ← addUp num countRes roundUp
  fitsU64 (countSec + countRes / num / NSEC_PER_SEC)

/-- `edgxSchedCalcFutureTime`, as long as all values fit. -/
def calcFutureTimeChecked (inTime curTime : Timespec) (ct : Rational) : Option Timespec := do
  let count ← diffToCyclesChecked inTime curTime ct true
  let total ← fitsU64 (count * ct.num.toNat)
  let sec ← fitsS64 (total / ct.denom.toNat : Nat)
  let nsec ← fitsU64 (total % ct.denom.toNat * NSEC_PER_SEC)
  some (timespec64Add inTime ⟨sec, (nsec / ct.denom.toNat : Nat)⟩)

/-! ## The number of cycles -/

section Cycles

variable {b e : Timespec} {ct : Rational}

/-- How large the values along the way are. -/
theorem diffToCycles_bounds {S n N D : Nat} (hS : S ≤ 2 ^ 31) (hn : n < NSEC_PER_SEC) (hN : 0 < N)
    (hN32 : N < 2 ^ 32) (hD : D < 2 ^ 32) :
    S * D < 2 ^ 63 ∧ S * D % N * NSEC_PER_SEC + n * D + N * NSEC_PER_SEC < 2 ^ 64 := by
  have hsec : S * D ≤ 2 ^ 31 * (2 ^ 32 - 1) := Nat.mul_le_mul hS (by omega)
  have hrem : S * D % N * NSEC_PER_SEC ≤ (2 ^ 32 - 1) * NSEC_PER_SEC :=
    Nat.mul_le_mul_right _ (by have := Nat.mod_lt (S * D) hN; omega)
  have hnsec : n * D ≤ NSEC_PER_SEC * (2 ^ 32 - 1) := Nat.mul_le_mul hn.le (by omega)
  have hup : N * NSEC_PER_SEC ≤ (2 ^ 32 - 1) * NSEC_PER_SEC := Nat.mul_le_mul_right _ (by omega)
  rw [NSEC_PER_SEC] at *
  omega

theorem num_pos (h : ct.num ≠ 0) : 0 < ct.num.toNat := Nat.pos_of_ne_zero fun h0 => h (BitVec.eq_of_toNat_eq h0)

/-- Where all values fit, no reduction changes one. -/
theorem diffToCycles_of_checked (hnum : ct.num ≠ 0) {roundUp : Bool} {count : Nat}
    (h : diffToCyclesChecked b e ct roundUp = some count) : edgxSchedDiffToCycles b e ct roundUp = count := by
  have hpos : 1 ≤ ct.num.toNat * NSEC_PER_SEC := Nat.mul_pos (num_pos hnum) (by decide)
  rw [diffToCyclesChecked] at h
  simp only [Option.bind_eq_bind, Option.bind_eq_some_iff, fitsU64_eq_some, fitsS64_eq_some] at h
  obtain ⟨_, ⟨-, rfl⟩, _, ⟨hnsec, rfl⟩, _, ⟨-, rfl⟩, _, ⟨-, rfl⟩, _, ⟨-, rfl⟩, _, ⟨hres, rfl⟩, res, hup, hcount, rfl⟩ := h
  rw [addUp] at hup
  rw [edgxSchedDiffToCycles]
  simp only [u64_of_lt hnsec, u64_of_lt hres]
  cases roundUp with
  | true =>
    simp only [if_true, Option.bind_eq_some_iff, fitsU64_eq_some] at hup
    obtain ⟨_, ⟨-, rfl⟩, hlt, rfl⟩ := hup
    rw [← Nat.add_sub_assoc hpos] at hlt hcount ⊢
    simp only [if_true, u64_of_lt hlt, u64_of_lt hcount]
  | false =>
    simp only [Bool.false_eq_true, if_false, Option.some.injEq] at hup ⊢
    rw [hup, u64_of_lt hcount]

/-- All values fit. `up` is what rounding up adds. -/
theorem diffToCyclesChecked_eq {S n : Nat} (hS : (timespec64Sub e b).sec = S) (hn : (timespec64Sub e b).nsec = n)
    (hS31 : S ≤ 2 ^ 31) (hnum : ct.num ≠ 0) (roundUp : Bool) :
    diffToCyclesChecked b e ct roundUp =
      some ((S * ct.denom.toNat * NSEC_PER_SEC + (n * ct.denom.toNat +
        if roundUp then ct.num.toNat * NSEC_PER_SEC - 1 else 0)) / (ct.num.toNat * NSEC_PER_SEC)) := by
  have hn9 : n < NSEC_PER_SEC := by
    have := nsec_sub_lt e b
    rw [hn] at this
    exact_mod_cast this
  have hN := num_pos hnum
  have hN32 := ct.num.isLt
  have hD32 := ct.denom.isLt
  rw [diffToCyclesChecked]
  simp only [hS, hn, ← div_carry hN (by decide : 0 < NSEC_PER_SEC)]
  generalize ct.num.toNat = N at *
  generalize ct.denom.toNat = D at *
  obtain ⟨hsec, hsum⟩ := diffToCycles_bounds hS31 hn9 hN hN32 hD32
  have hparts : n * D / N * N + n * D % N = n * D := by rw [Nat.mul_comm]; exact Nat.div_add_mod ..
  have hcast : (S : Int) * (D : Int) = ((S * D : Nat) : Int) := by push_cast; rfl
  have hcount : ∀ x, x < 2 ^ 64 → S * D / N + x / N / NSEC_PER_SEC < 2 ^ 64 := by
    intro x hx
    have h1 : S * D / N ≤ S * D := Nat.div_le_self ..
    have h2 : x / N / NSEC_PER_SEC ≤ x / NSEC_PER_SEC := Nat.div_le_div_right (Nat.div_le_self ..)
    rw [NSEC_PER_SEC] at *
    omega
  have hres : S * D % N * NSEC_PER_SEC + n * D / N * N + n * D % N = S * D % N * NSEC_PER_SEC + n * D := by omega
  have hn64 : n < 2 ^ 64 := hn9.trans (by norm_num [NSEC_PER_SEC])
  have hS64 : u64OfInt ((S : Int) * (D : Int)) = S * D := by rw [hcast, u64OfInt_natCast (by omega)]
  simp only [Option.bind_eq_bind, Option.bind_eq_some_iff, fitsU64_eq_some, fitsS64_eq_some, addUp]
  refine ⟨_, ⟨⟨by omega, by omega⟩, rfl⟩, _, ⟨?_, rfl⟩, _, ⟨?_, rfl⟩, _, ⟨?_, rfl⟩, _, ⟨?_, rfl⟩, _, ⟨?_, rfl⟩, ?_⟩ <;>
    simp only [hS64, u64OfInt_natCast hn64, hres]
  · omega
  · omega
  · omega
  · omega
  · omega
  · cases roundUp with
    | true =>
      refine ⟨_, if_pos rfl |>.trans (Option.bind_eq_some_iff.2 ⟨_, fitsU64_of_lt ?_, fitsU64_of_lt ?_⟩), hcount _ ?_, ?_⟩
      · omega
      · omega
      · omega
      · rw [if_pos rfl, Nat.add_assoc]
    | false => exact ⟨_, if_neg Bool.false_ne_true, hcount _ (by omega), by rw [if_neg Bool.false_ne_true]; rfl⟩

/-- The time difference in cycles. -/
theorem cycles_eq {S n : Nat} (hS : (timespec64Sub e b).sec = S) (hn : (timespec64Sub e b).nsec = n) :
    (e.secs - b.secs) * ct.denom.toNat / ct.num.toNat =
      (((S * NSEC_PER_SEC + n) * ct.denom.toNat : Nat) : ℚ) / (ct.num.toNat * NSEC_PER_SEC : Nat) := by
  have hns : timespec64ToNs e - timespec64ToNs b = ((S * NSEC_PER_SEC + n : Nat) : Int) := by
    rw [← toNs_sub, timespec64ToNs, hS, hn]
    push_cast
    rfl
  have hsecs : e.secs - b.secs = ((S * NSEC_PER_SEC + n : Nat) : ℚ) / NSEC_PER_SEC := by
    rw [Timespec.secs, Timespec.secs, ← sub_div, ← Int.cast_sub, hns, Int.cast_natCast]
  rw [hsecs]
  push_cast
  rw [div_mul_eq_mul_div, div_div, mul_comm (NSEC_PER_SEC : ℚ)]

/-- **The number of cycles in a time difference is exact, rounded up or down,
and no value on the way leaves its 64 bits.** -/
theorem diffToCycles_exact (hsec : 0 ≤ (timespec64Sub e b).sec) (hsec31 : (timespec64Sub e b).sec ≤ 2 ^ 31)
    (hnum : ct.num ≠ 0) :
    (edgxSchedDiffToCycles b e ct true = ⌈(e.secs - b.secs) * ct.denom.toNat / ct.num.toNat⌉₊ ∧
      diffToCyclesChecked b e ct true = some (edgxSchedDiffToCycles b e ct true)) ∧
    edgxSchedDiffToCycles b e ct false = ⌊(e.secs - b.secs) * ct.denom.toNat / ct.num.toNat⌋₊ ∧
      diffToCyclesChecked b e ct false = some (edgxSchedDiffToCycles b e ct false) := by
  obtain ⟨S, hS⟩ := Int.eq_ofNat_of_zero_le hsec
  obtain ⟨n, hn⟩ := Int.eq_ofNat_of_zero_le (nsec_sub_nonneg e b)
  have hchecked := diffToCyclesChecked_eq hS hn (by omega) hnum
  have hpos : 0 < ct.num.toNat * NSEC_PER_SEC := Nat.mul_pos (num_pos hnum) (by decide)
  have hprod : ∀ up, S * ct.denom.toNat * NSEC_PER_SEC + (n * ct.denom.toNat + up) =
      (S * NSEC_PER_SEC + n) * ct.denom.toNat + up := fun up => by ring
  rw [diffToCycles_of_checked hnum (hchecked true), diffToCycles_of_checked hnum (hchecked false), cycles_eq hS hn]
  refine ⟨⟨?_, hchecked true⟩, ?_, hchecked false⟩
  · rw [if_pos rfl, hprod, ceil_div hpos]
  · rw [if_neg Bool.false_ne_true, hprod, Nat.floor_div_eq_div, Nat.add_zero]

theorem diffToCycles_exact_half :
    (edgxSchedDiffToCycles ⟨7, 999999999⟩ ⟨9, 500000000⟩ ⟨1, 2⟩ true = 4 ∧
      edgxSchedDiffToCycles ⟨7, 999999999⟩ ⟨9, 500000000⟩ ⟨1, 2⟩ false = 3) ∧
    edgxSchedDiffToCycles ⟨7, 999999999⟩ ⟨9, 500000000⟩ ⟨1, 2⟩ true =
        ⌈(Timespec.secs ⟨9, 500000000⟩ - Timespec.secs ⟨7, 999999999⟩) * (2#32).toNat / (1#32).toNat⌉₊ ∧
      edgxSchedDiffToCycles ⟨7, 999999999⟩ ⟨9, 500000000⟩ ⟨1, 2⟩ false =
        ⌊(Timespec.secs ⟨9, 500000000⟩ - Timespec.secs ⟨7, 999999999⟩) * (2#32).toNat / (1#32).toNat⌋₊ :=
  have h := diffToCycles_exact (b := ⟨7, 999999999⟩) (e := ⟨9, 500000000⟩) (by decide) (by decide)
    (show (⟨1, 2⟩ : Rational).num ≠ 0 by decide)
  ⟨by decide, h.1.1, h.2.1⟩

end Cycles

/-! ## The next cycle start -/

section Future

variable {base cur : Timespec} {ct : Rational}

theorem secs_pos (hnum : ct.num ≠ 0) (hdenom : ct.denom ≠ 0) : 0 < ct.secs :=
  div_pos (by exact_mod_cast num_pos hnum)
    (by exact_mod_cast Nat.pos_of_ne_zero fun h => hdenom (BitVec.eq_of_toNat_eq h))

theorem calcFutureTime_of_checked (hnum : ct.num ≠ 0) {t : Timespec} (h : calcFutureTimeChecked base cur ct = some t) :
    edgxSchedCalcFutureTime base cur ct = t := by
  rw [calcFutureTimeChecked] at h
  simp only [Option.bind_eq_bind, Option.bind_eq_some_iff, fitsU64_eq_some, fitsS64_eq_some, Option.some.injEq] at h
  obtain ⟨count, hcount, _, ⟨htotal, rfl⟩, _, ⟨-, rfl⟩, _, ⟨hnsec, rfl⟩, rfl⟩ := h
  simp only [edgxSchedCalcFutureTime, diffToCycles_of_checked hnum hcount, u64_of_lt htotal, u64_of_lt hnsec]

theorem cycles_eq_div (base cur : Timespec) (ct : Rational) :
    (cur.secs - base.secs) * ct.denom.toNat / ct.num.toNat = (cur.secs - base.secs) / ct.secs := by
  rw [Rational.secs, div_div_eq_mul_div]

/-- The time of `N` cycles fits as well. -/
theorem mul_num_lt {N : ℕ} (hN : N = ⌈(cur.secs - base.secs) / ct.secs⌉₊) (hle : base.secs ≤ cur.secs)
    (h31 : cur.secs - base.secs ≤ 2 ^ 31) (hnum : ct.num ≠ 0) (hdenom : ct.denom ≠ 0) :
    N * ct.num.toNat < 2 ^ 31 * ct.denom.toNat + ct.num.toNat := by
  have hn : (0 : ℚ) < ct.num.toNat := by exact_mod_cast num_pos hnum
  have hceil := Nat.ceil_lt_add_one (div_nonneg (sub_nonneg.2 hle) (secs_pos hnum hdenom).le)
  rw [← hN, ← cycles_eq_div] at hceil
  have hmul := mul_lt_mul_of_pos_right hceil hn
  rw [add_mul, div_mul_cancel₀ _ hn.ne', one_mul] at hmul
  have hbound : (cur.secs - base.secs) * ct.denom.toNat ≤ 2 ^ 31 * ct.denom.toNat :=
    mul_le_mul_of_nonneg_right h31 (Nat.cast_nonneg _)
  have h : (N : ℚ) * ct.num.toNat < 2 ^ 31 * ct.denom.toNat + ct.num.toNat :=
    hmul.trans_le (add_le_add_left hbound _)
  exact_mod_cast h

/-- **The first cycle start is in phase with the base time, not before the
current time and less than one cycle after it; no value on the way leaves its
64 bits.** -/
theorem calcFutureTime_exact (hle : base.secs ≤ cur.secs) (h31 : cur.secs - base.secs ≤ 2 ^ 31) (hnum : ct.num ≠ 0)
    (hdenom : ct.denom ≠ 0) :
    ∃ N : ℕ, IsLeast {n : ℕ | cur.secs ≤ base.secs + n * ct.secs} N ∧ N * ct.num.toNat < 2 ^ 64 ∧
      calcFutureTimeChecked base cur ct = some (edgxSchedCalcFutureTime base cur ct) ∧
      timespec64ToNs (edgxSchedCalcFutureTime base cur ct) =
        timespec64ToNs base + ⌊(N * ct.num.toNat * NSEC_PER_SEC : ℚ) / ct.denom.toNat⌋₊ ∧
      cur.secs ≤ (edgxSchedCalcFutureTime base cur ct).secs ∧
      (edgxSchedCalcFutureTime base cur ct).secs < cur.secs + ct.secs := by
  have hns := secs_le_iff.1 hle
  have hcur : timespec64ToNs cur - timespec64ToNs base ≤ 2 ^ 31 * NSEC_PER_SEC := by
    have hK : (0 : ℚ) < NSEC_PER_SEC := by norm_num [NSEC_PER_SEC]
    rw [Timespec.secs, Timespec.secs, ← sub_div, div_le_iff₀ hK] at h31
    exact_mod_cast h31
  have hdelta := toNs_sub cur base
  have hn0 := nsec_sub_nonneg cur base
  have hn9 := nsec_sub_lt cur base
  have hsec : 0 ≤ (timespec64Sub cur base).sec ∧ (timespec64Sub cur base).sec ≤ 2 ^ 31 := by
    rw [timespec64ToNs] at hdelta
    rw [NSEC_PER_SEC] at *
    constructor <;> omega
  obtain ⟨⟨hcount, hchecked⟩, -⟩ := diffToCycles_exact hsec.1 hsec.2 hnum
  rw [cycles_eq_div] at hcount
  have hleast := isLeast_ceil (secs_pos hnum hdenom) base.secs cur.secs
  have hlt := ceil_mul_lt (secs_pos hnum hdenom) hle
  generalize hN : ⌈(cur.secs - base.secs) / ct.secs⌉₊ = N at hcount hleast hlt
  have hmul := mul_num_lt hN.symm hle h31 hnum hdenom
  have hnum32 := ct.num.isLt
  have hdenom32 := ct.denom.isLt
  have hD : 0 < ct.denom.toNat := Nat.pos_of_ne_zero fun h => hdenom (BitVec.eq_of_toNat_eq h)
  have hmod := Nat.mod_lt (N * ct.num.toNat) hD
  have hout : calcFutureTimeChecked base cur ct = some (timespec64Add base
      ⟨(N * ct.num.toNat / ct.denom.toNat : Nat),
        (N * ct.num.toNat % ct.denom.toNat * NSEC_PER_SEC / ct.denom.toNat : Nat)⟩) := by
    rw [calcFutureTimeChecked, hchecked, hcount]
    simp only [Option.bind_eq_bind, Option.bind_eq_some_iff, fitsU64_eq_some, fitsS64_eq_some, Option.some.injEq]
    have hdiv : N * ct.num.toNat / ct.denom.toNat < 2 ^ 63 := by
      have h : N * ct.num.toNat / ct.denom.toNat < 2 ^ 31 + ct.num.toNat :=
        Nat.div_lt_of_lt_mul (hmul.trans_le (by nlinarith))
      omega
    refine ⟨_, rfl, _, ⟨by omega, rfl⟩, _, fitsS64_eq_some.1 (fitsS64_of_lt hdiv), _, ⟨?_, rfl⟩, rfl⟩
    rw [NSEC_PER_SEC]
    omega
  rw [calcFutureTime_of_checked hnum hout]
  have hexact : timespec64ToNs (timespec64Add base ⟨(N * ct.num.toNat / ct.denom.toNat : Nat),
      (N * ct.num.toNat % ct.denom.toNat * NSEC_PER_SEC / ct.denom.toNat : Nat)⟩) =
      timespec64ToNs base + ⌊(N * ct.num.toNat * NSEC_PER_SEC : ℚ) / ct.denom.toNat⌋₊ := by
    rw [toNs_add, ← Nat.cast_mul, ← Nat.cast_mul, Nat.floor_div_eq_div, ← div_parts hD (N * ct.num.toNat)]
    exact congrArg (timespec64ToNs base + ·) (by rw [Nat.cast_add, Nat.cast_mul]; rfl)
  generalize timespec64Add base _ = out at hexact hout ⊢
  have hK : (0 : ℚ) < NSEC_PER_SEC := by norm_num [NSEC_PER_SEC]
  have hphase : (N * ct.num.toNat * NSEC_PER_SEC : ℚ) / ct.denom.toNat = N * ct.secs * NSEC_PER_SEC := by
    rw [Rational.secs]
    ring
  refine ⟨N, hleast, by omega, hout, hexact, ?_, ?_⟩ <;> rw [hphase] at hexact
  · obtain ⟨d, hd⟩ := Int.eq_ofNat_of_zero_le (sub_nonneg.2 hns)
    have hcast : (d : ℚ) = (cur.secs - base.secs) * NSEC_PER_SEC := by
      rw [Timespec.secs, Timespec.secs, ← sub_div, div_mul_cancel₀ _ hK.ne', ← Int.cast_sub, hd, Int.cast_natCast]
    have hfloor : d ≤ ⌊N * ct.secs * NSEC_PER_SEC⌋₊ := by
      refine Nat.le_floor (hcast ▸ mul_le_mul_of_nonneg_right ?_ hK.le)
      exact sub_le_iff_le_add'.2 hleast.1
    rw [secs_le_iff, hexact]
    omega
  · have hfloor : ((⌊N * ct.secs * NSEC_PER_SEC⌋₊ : ℕ) : ℚ) ≤ N * ct.secs * NSEC_PER_SEC :=
      Nat.floor_le (mul_nonneg (mul_nonneg (Nat.cast_nonneg _) (secs_pos hnum hdenom).le) hK.le)
    have hsecs : out.secs ≤ base.secs + N * ct.secs := by
      rw [Timespec.secs, Timespec.secs, hexact, div_le_iff₀ hK, add_mul, div_mul_cancel₀ _ hK.ne']
      push_cast
      linarith
    exact hsecs.trans_lt hlt

theorem calcFutureTime_exact_third :
    edgxSchedCalcFutureTime ⟨0, 0⟩ ⟨1, 1⟩ ⟨1, 3⟩ = ⟨1, 333333333⟩ ∧
      Timespec.secs ⟨1, 1⟩ ≤ (edgxSchedCalcFutureTime ⟨0, 0⟩ ⟨1, 1⟩ ⟨1, 3⟩).secs ∧
      (edgxSchedCalcFutureTime ⟨0, 0⟩ ⟨1, 1⟩ ⟨1, 3⟩).secs < Timespec.secs ⟨1, 1⟩ + Rational.secs ⟨1, 3⟩ := by
  have hapart : Timespec.secs ⟨1, 1⟩ - Timespec.secs ⟨0, 0⟩ ≤ 2 ^ 31 := by
    norm_num [Timespec.secs, timespec64ToNs, NSEC_PER_SEC]
  obtain ⟨N, -, -, -, -, hnot, hlt⟩ := calcFutureTime_exact (secs_le_iff.2 (by decide)) hapart
    (show (⟨1, 3⟩ : Rational).num ≠ 0 by decide) (by decide)
  exact ⟨by decide, hnot, hlt⟩

end Future

end TsnSwitch.Sched
