/-
The transmission rates of the queues: `edgx_st_calc_trans_rate` of
edge_st_fscr.c, which edge_st_fsc.c has a copy of.

The rate of a queue is the cycle time over the time its gate is open. The time
is added up over the list, and the last state goes on to the end of the cycle.
In 64 unsigned bits the time that is left is right only for a list that ends
in the cycle, and it is in whole nanoseconds (`transRateOk_iff`).
-/
import TsnSwitch.Fqtss.Shaper
import TsnSwitch.Sched.CycleTime
import TsnSwitch.Sched.Encode

namespace TsnSwitch.Sched

open Fqtss (TrRate)

/-! ## The computation -/

/-- The sub-nanoseconds are not used. -/
def edgxSchedNsecToRational (nsec : BitVec 64) : Rational := ⟨nsec.setWidth 32, BitVec.ofNat 32 NSEC_PER_SEC⟩

/-- The gate of the queue is open in this entry. -/
def TabEntry.opens (queue : Nat) (e : TabEntry) : Bool := e.gateStates.getLsbD queue

/-- `sum_total`, or `sum` when only some of the entries are given. -/
def addIntervals (es : List TabEntry) : BitVec 64 := es.foldl (fun sum e => sum + e.timeInterval.setWidth 64) 0

/-- The gate remains in the last state. -/
def opensLast (queue : Nat) (es : List TabEntry) : Bool := es.getLast?.any (·.opens queue)

/-- `sum` after the time that is left has been added. -/
def openSum (ct : Rational) (es : List TabEntry) (queue : Nat) : BitVec 64 :=
  let cycTimeNsec := BitVec.ofNat 64 (edgxSchedRationalToNsec ct).1
  let sum := addIntervals (es.filter (·.opens queue))
  let idleTime := cycTimeNsec - addIntervals es
  if opensLast queue es then sum + idleTime else sum

/-- `edgx_st_calc_trans_rate`: the rate of a queue for the list `es`. -/
def edgxStCalcTransRate (ct : Rational) (es : List TabEntry) (queue : Nat) : TrRate :=
  let sum := openSum ct es queue
  if sum ≠ 0 then
    let rate := edgxSchedNsecToRational sum
    ⟨rate.denom.setWidth 64 * ct.num.setWidth 64, rate.num.setWidth 64 * ct.denom.setWidth 64⟩
  else ⟨0, 1⟩

/-! ## What is meant -/

/-- The nanoseconds that the gate of a queue is open in one cycle of length
`cyc`, from `start` on. Each entry lasts for its interval and the last one to
the end of the cycle, which cuts off what is behind it. -/
def openTime (cyc : ℚ) (queue : Nat) : ℚ → List TabEntry → ℚ
  | _, [] => 0
  | start, [e] => if e.opens queue then cyc - min cyc start else 0
  | start, e :: e' :: es =>
    (if e.opens queue then min cyc (start + e.timeInterval.toNat) - min cyc start else 0) +
      openTime cyc queue (start + e.timeInterval.toNat) (e' :: es)

/-- A list and a cycle time that pass the checks of a user. -/
structure User.Accepts (u : User) (com : Com) (es : List TabEntry) (ct : Rational) : Prop where
  entries : u.variant.adjustAdminTab com es = (0, es)
  nonempty : es ≠ []
  length : es.length ≤ com.maxEntryCnt
  num : ct.num ≠ 0
  denom : ct.denom ≠ 0
  cycle : (edgxSchedRationalToNsec ct).1 ≤ u.variant.maxCycNs com

/-- The open time as the code means to add it up, without a bound. -/
def exactOpenSum (ct : Rational) (es : List TabEntry) (queue : Nat) : Int :=
  sumTime (es.filter (·.opens queue)) +
    if opensLast queue es then (edgxSchedRationalToNsec ct).1 - (sumTime es : Int) else 0

/-- The rate of the queue is the cycle time over its open time and at least 1.
The time that is left does not underflow, and the rate is not cut off. -/
structure TransRateOk (ct : Rational) (es : List TabEntry) (queue : Nat) : Prop where
  idle : sumTime es ≤ (edgxSchedRationalToNsec ct).1
  num : (edgxStCalcTransRate ct es queue).num.toNat = NSEC_PER_SEC * ct.num.toNat
  denom : ((edgxStCalcTransRate ct es queue).denom.toNat : Int) = exactOpenSum ct es queue * ct.denom.toNat
  rate : ((edgxStCalcTransRate ct es queue).num.toNat : ℚ) / (edgxStCalcTransRate ct es queue).denom.toNat =
    ct.nsecs / openTime ct.nsecs queue 0 es
  one_le : 1 ≤ ((edgxStCalcTransRate ct es queue).num.toNat : ℚ) / (edgxStCalcTransRate ct es queue).denom.toNat

/-! ## Sums -/

section Sums

variable {ct : Rational} {es : List TabEntry} {queue : Nat}

theorem addIntervals_toNat (es : List TabEntry) : (addIntervals es).toNat = sumTime es % 2 ^ 64 := by
  have hfold (sum : BitVec 64) : (es.foldl (fun sum e => sum + e.timeInterval.setWidth 64) sum).toNat =
      (sum.toNat + sumTime es) % 2 ^ 64 := by
    induction es generalizing sum with
    | nil => exact (Nat.mod_eq_of_lt sum.isLt).symm
    | cons e es ih =>
      rw [List.foldl_cons, ih, sumTime_cons, BitVec.toNat_add, BitVec.toNat_setWidth_of_le (by decide), Nat.mod_add_mod,
        Nat.add_assoc]
  rw [addIntervals, hfold]
  exact congrArg (· % 2 ^ 64) (Nat.zero_add _)

theorem sumTime_filter_le (p : TabEntry → Bool) (es : List TabEntry) : sumTime (es.filter p) ≤ sumTime es := by
  induction es with
  | nil => exact le_rfl
  | cons e es ih =>
    rw [List.filter_cons]
    split
    · simpa using ih
    · rw [sumTime_cons]
      omega

/-- The sum in 64 bits is the exact one, reduced. -/
theorem openSum_emod (queue : Nat) (hcyc : (edgxSchedRationalToNsec ct).1 < 2 ^ 62) (hsum : sumTime es < 2 ^ 62) :
    ((openSum ct es queue).toNat : Int) = exactOpenSum ct es queue % 2 ^ 64 ∧
      -2 ^ 63 < exactOpenSum ct es queue ∧ exactOpenSum ct es queue < 2 ^ 63 := by
  have hle := sumTime_filter_le (·.opens queue) es
  have hopen := addIntervals_toNat (es.filter (·.opens queue))
  have htotal := addIntervals_toNat es
  rw [Nat.mod_eq_of_lt (by omega)] at hopen htotal
  unfold openSum exactOpenSum
  dsimp only
  split
  · rw [BitVec.toNat_add, BitVec.toNat_sub, BitVec.toNat_ofNat, hopen, htotal]
    omega
  · rw [hopen]
    omega

/-- With a list that ends in the cycle nothing wraps. -/
theorem openSum_exact (queue : Nat) (hidle : sumTime es ≤ (edgxSchedRationalToNsec ct).1) (hcyc : (edgxSchedRationalToNsec ct).1 < 2 ^ 32) :
    ((openSum ct es queue).toNat : Int) = exactOpenSum ct es queue ∧ (openSum ct es queue).toNat < 2 ^ 32 := by
  have hle := sumTime_filter_le (·.opens queue) es
  have hmod : ((openSum ct es queue).toNat : Int) = exactOpenSum ct es queue % 2 ^ 64 :=
    (openSum_emod queue (by omega) (by omega)).1
  have hexact : 0 ≤ exactOpenSum ct es queue ∧ exactOpenSum ct es queue < 2 ^ 32 := by
    unfold exactOpenSum
    split <;> omega
  omega

/-- The parts of the rate when the open time fits 32 bits. -/
theorem calcTransRate_toNat (h0 : openSum ct es queue ≠ 0) (h : (openSum ct es queue).toNat < 2 ^ 32) :
    (edgxStCalcTransRate ct es queue).num.toNat = NSEC_PER_SEC * ct.num.toNat ∧
      (edgxStCalcTransRate ct es queue).denom.toNat = (openSum ct es queue).toNat * ct.denom.toNat := by
  have hn := ct.num.isLt
  have hd := ct.denom.isLt
  have hmul : (openSum ct es queue).toNat * ct.denom.toNat ≤ (2 ^ 32 - 1) * (2 ^ 32 - 1) :=
    Nat.mul_le_mul (by omega) (by omega)
  rw [edgxStCalcTransRate, if_pos h0]
  simp only [edgxSchedNsecToRational, BitVec.toNat_mul, BitVec.toNat_setWidth_of_le (show 32 ≤ 64 by decide),
    BitVec.toNat_setWidth, BitVec.toNat_ofNat, Nat.mod_eq_of_lt h]
  rw [Nat.mod_eq_of_lt (show NSEC_PER_SEC < 2 ^ 32 by decide)]
  exact ⟨Nat.mod_eq_of_lt (by rw [NSEC_PER_SEC]; omega), Nat.mod_eq_of_lt (by omega)⟩

theorem opensLast_cons (e e' : TabEntry) (es : List TabEntry) :
    opensLast queue (e :: e' :: es) = opensLast queue (e' :: es) := by
  rw [opensLast, List.getLast?_cons_cons, opensLast]

/-- The open time of a list that ends in the cycle. -/
theorem openTime_of_le {cyc : ℚ} {start : ℚ} (hne : es ≠ []) (h : start + sumTime es ≤ cyc) :
    openTime cyc queue start es =
      sumTime (es.filter (·.opens queue)) + if opensLast queue es then cyc - start - sumTime es else 0 := by
  induction es generalizing start with
  | nil => exact absurd rfl hne
  | cons e es ih =>
    rw [sumTime_cons] at h ⊢
    push_cast at h ⊢
    have hpos : (0 : ℚ) ≤ sumTime es := Nat.cast_nonneg _
    have hint : (0 : ℚ) ≤ e.timeInterval.toNat := Nat.cast_nonneg _
    cases es with
    | nil =>
      have hmin : min cyc start = start := min_eq_right (by linarith)
      cases hopen : e.opens queue <;> simp [openTime, opensLast, hopen, hmin]
    | cons e' es =>
      have hmin : min cyc start = start := min_eq_right (by linarith)
      have hmin' : min cyc (start + e.timeInterval.toNat) = start + e.timeInterval.toNat := min_eq_right (by linarith)
      rw [openTime, ih (by simp) (by linarith), opensLast_cons, hmin, hmin']
      generalize e' :: es = l at *
      cases hopen : e.opens queue <;> cases hlast : opensLast queue l <;> simp [hopen] <;> ring

end Sums

/-! ## The rate -/

theorem rationalToNsec_fst {ct : Rational} (hd : ct.denom ≠ 0) : (edgxSchedRationalToNsec ct).1 = ⌊ct.nsecs⌋₊ :=
  congrArg Prod.fst (exact_of_fits (w := .bits64) hd fun h => nomatch h)

/-- The exact sum is the open time, but for what a cycle has besides its whole
nanoseconds. -/
theorem exactOpenSum_eq_iff {ct : Rational} {es : List TabEntry} (queue : Nat) (hne : es ≠ []) (hd : ct.denom ≠ 0)
    (hle : (sumTime es : ℚ) ≤ ct.nsecs) :
    (exactOpenSum ct es queue : ℚ) = openTime ct.nsecs queue 0 es ↔
      (opensLast queue es = true → (⌊ct.nsecs⌋₊ : ℚ) = ct.nsecs) := by
  rw [openTime_of_le hne (by rwa [zero_add]), exactOpenSum, rationalToNsec_fst hd]
  cases opensLast queue es with
  | false => simp
  | true =>
    simp only [if_true]
    push_cast
    exact ⟨fun h _ => by linarith, fun h => by linarith [h trivial]⟩

theorem exactOpenSum_le {ct : Rational} {es : List TabEntry} (queue : Nat)
    (hidle : sumTime es ≤ (edgxSchedRationalToNsec ct).1) : exactOpenSum ct es queue ≤ (edgxSchedRationalToNsec ct).1 := by
  have hle := sumTime_filter_le (·.opens queue) es
  unfold exactOpenSum
  split <;> omega

/-- The quotient of the parts of a rate. -/
theorem rate_div (ct : Rational) (sum : Nat) :
    ((NSEC_PER_SEC * ct.num.toNat : Nat) : ℚ) / (sum * ct.denom.toNat : Nat) = ct.nsecs / sum := by
  rw [nsecs_eq]
  push_cast
  rw [div_div, mul_comm (NSEC_PER_SEC : ℚ), mul_comm (sum : ℚ)]

/-- **The rate of a queue that is open at some time is the cycle time over its
open time** just when the list ends in the cycle and, if the gate stays open
at the end, the cycle has whole nanoseconds. -/
theorem transRateOk_iff (u : User) {com : Com} {es : List TabEntry} {ct : Rational} (h : u.Accepts com es ct) {queue : Nat}
    (hopen : 0 < openTime ct.nsecs queue 0 es) :
    TransRateOk ct es queue ↔
      (sumTime es : ℚ) ≤ ct.nsecs ∧ (opensLast queue es = true → (⌊ct.nsecs⌋₊ : ℚ) = ct.nsecs) := by
  have hcyc : (edgxSchedRationalToNsec ct).1 < 2 ^ 32 := h.cycle.trans_lt (maxCycNs_lt u com)
  have hC := nsecs_pos h.denom h.num
  have hidle : sumTime es ≤ (edgxSchedRationalToNsec ct).1 ↔ (sumTime es : ℚ) ≤ ct.nsecs := by
    rw [rationalToNsec_fst h.denom, Nat.le_floor_iff hC.le]
  by_cases hle : (sumTime es : ℚ) ≤ ct.nsecs
  · obtain ⟨hsum, hsum32⟩ := openSum_exact queue (hidle.2 hle) hcyc
    have hsumQ : ((openSum ct es queue).toNat : ℚ) = exactOpenSum ct es queue := by exact_mod_cast hsum
    rw [and_iff_right hle, ← exactOpenSum_eq_iff queue h.nonempty h.denom hle, ← hsumQ]
    constructor
    · intro hok
      have h0 : openSum ct es queue ≠ 0 := by
        intro h0
        have hnum := hok.num
        rw [edgxStCalcTransRate, if_neg (not_not.2 h0)] at hnum
        have := num_pos h.num
        simp [NSEC_PER_SEC] at hnum
        omega
      obtain ⟨hnum, hdenom⟩ := calcTransRate_toNat h0 hsum32
      have hrate := hok.rate
      rw [hnum, hdenom, rate_div, div_eq_mul_inv, div_eq_mul_inv] at hrate
      exact inv_injective (mul_left_cancel₀ hC.ne' hrate)
    · intro heq
      have h0 : openSum ct es queue ≠ 0 := by
        intro h0
        rw [h0] at heq
        exact hopen.ne heq
      obtain ⟨hnum, hdenom⟩ := calcTransRate_toNat h0 hsum32
      refine ⟨hidle.2 hle, hnum, by rw [hdenom, ← hsum]; push_cast; ring, ?_, ?_⟩
      · rw [hnum, hdenom, rate_div, heq]
      · have hbound := exactOpenSum_le queue (hidle.2 hle)
        rw [← hsum, rationalToNsec_fst h.denom] at hbound
        rw [hnum, hdenom, rate_div, one_le_div (by rw [heq]; exact hopen)]
        exact (Nat.le_floor_iff hC.le).1 (by omega)
  · exact iff_of_false (fun hok => hle (hidle.1 hok.idle)) fun hc => hle hc.1

/-- A cycle of one microsecond, open for 640 of its nanoseconds. -/
theorem transRateOk_iff_micro : TransRateOk ⟨1, 1000000⟩ [⟨640, 0, 1⟩, ⟨320, 0, 0⟩] 0 :=
  have haccepts : User.portGates.Accepts someCom [⟨640, 0, 1⟩, ⟨320, 0, 0⟩] ⟨1, 1000000⟩ :=
    ⟨by decide, by decide, by decide, by decide, by decide, by decide⟩
  (transRateOk_iff .portGates haccepts (by decide +kernel)).2 (by decide +kernel)

/-- A list that is longer than the cycle: the rate is below 1. -/
theorem not_transRateOk_longer :
    let es : List TabEntry := [⟨1280, 0, 1⟩, ⟨320, 0, 0⟩]
    User.portGates.Accepts someCom es ⟨1, 1000000⟩ ∧ 0 < openTime (Rational.nsecs ⟨1, 1000000⟩) 0 0 es ∧
      edgxStCalcTransRate ⟨1, 1000000⟩ es 0 = ⟨1000000000, 1280000000⟩ ∧ ¬ TransRateOk ⟨1, 1000000⟩ es 0 := by
  intro es
  refine ⟨⟨by decide, by decide, by decide, by decide, by decide, by decide⟩, by decide +kernel, by decide, fun h => ?_⟩
  exact absurd h.idle (by decide)

end TsnSwitch.Sched
