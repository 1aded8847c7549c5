/-
The start time of a schedule that is submitted to hardware.

Cycles start at the base time and then once a cycle. The first of them that
is not before the current time is taken, and the offset of the gates is added
afterwards: the start is in time when that does not put it before the current
time again (`startsInTime_iff`). A start that is far ahead is not submitted
but waited for, and the work that waits does not submit it either.
-/
import TsnSwitch.Sched.Cycles
import TsnSwitch.Sched.Steps

namespace TsnSwitch.Sched

open Lib

/-! ## What the cycle start is for all base times -/

section Exact

variable {base cur : Timespec} {ct : Rational}

theorem u64OfInt_natCast_mod (n : Nat) : u64OfInt n = n % 2 ^ 64 := by
  rw [u64OfInt]
  exact_mod_cast Int.toNat_natCast _

/-- The count, whether its values fit or not. -/
theorem diffToCycles_up {S n : Nat} (hS : (timespec64Sub cur base).sec = S) (hn : (timespec64Sub cur base).nsec = n)
    (hnum : ct.num ≠ 0) :
    edgxSchedDiffToCycles base cur ct true =
      u64 ((S * ct.denom.toNat % 2 ^ 64 * NSEC_PER_SEC + (n * ct.denom.toNat + (ct.num.toNat * NSEC_PER_SEC - 1))) /
        (ct.num.toNat * NSEC_PER_SEC)) := by
  have hn9 : n < NSEC_PER_SEC := by
    have := nsec_sub_lt cur base
    rw [hn] at this
    exact_mod_cast this
  have hN := num_pos hnum
  have hN32 := ct.num.isLt
  have hD32 := ct.denom.isLt
  rw [edgxSchedDiffToCycles]
  simp only [hS, hn, if_true, ← div_carry hN (by decide : 0 < NSEC_PER_SEC)]
  generalize ct.num.toNat = N at *
  generalize ct.denom.toNat = D at *
  have hcast : (S : Int) * (D : Int) = ((S * D : Nat) : Int) := by push_cast; rfl
  rw [hcast, u64OfInt_natCast_mod, u64OfInt_natCast (hn9.trans (by norm_num [NSEC_PER_SEC]))]
  generalize S * D % 2 ^ 64 = p
  have hnsec : n * D ≤ NSEC_PER_SEC * (2 ^ 32 - 1) := Nat.mul_le_mul hn9.le (by omega)
  have hrem : p % N * NSEC_PER_SEC ≤ (2 ^ 32 - 1) * NSEC_PER_SEC :=
    Nat.mul_le_mul_right _ (by have := Nat.mod_lt p hN; omega)
  have hup : N * NSEC_PER_SEC ≤ (2 ^ 32 - 1) * NSEC_PER_SEC := Nat.mul_le_mul_right _ (by omega)
  have hpos : 1 ≤ N * NSEC_PER_SEC := Nat.mul_pos hN (by decide)
  have hparts : n * D / N * N + n * D % N = n * D := by rw [Nat.mul_comm]; exact Nat.div_add_mod ..
  have hK : NSEC_PER_SEC = 1000000000 := rfl
  rw [u64_of_lt (n := n * D) (by omega), Nat.add_assoc (_ * NSEC_PER_SEC), hparts,
    u64_of_lt (n := p % N * NSEC_PER_SEC + n * D) (by omega), u64_of_lt (n := _ - 1) (by omega),
    Nat.add_sub_assoc hpos, Nat.add_assoc (p % N * NSEC_PER_SEC)]

/-- The units of the cycle time that are added to the base time. -/
def advance (base cur : Timespec) (ct : Rational) : Nat := u64 (edgxSchedDiffToCycles base cur ct true * ct.num.toNat)

theorem toNs_calcFutureTime (hdenom : ct.denom ≠ 0) :
    timespec64ToNs (edgxSchedCalcFutureTime base cur ct) =
      timespec64ToNs base + (advance base cur ct * NSEC_PER_SEC / ct.denom.toNat : Nat) := by
  have hD : 0 < ct.denom.toNat := Nat.pos_of_ne_zero fun h => hdenom (BitVec.eq_of_toNat_eq h)
  have hmod := Nat.mod_lt (advance base cur ct) hD
  have hD32 := ct.denom.isLt
  have hK : NSEC_PER_SEC = 1000000000 := rfl
  have hfit : u64 (advance base cur ct % ct.denom.toNat * NSEC_PER_SEC) =
      advance base cur ct % ct.denom.toNat * NSEC_PER_SEC := u64_of_lt (by rw [hK]; omega)
  rw [edgxSchedCalcFutureTime, ← advance, hfit, toNs_add, ← div_parts hD (advance base cur ct)]
  exact congrArg (timespec64ToNs base + ·) (by rw [Nat.cast_add, Nat.cast_mul]; rfl)

/-- The first cycle start that is not before the current time. -/
def FirstCycle (base cur : Timespec) (ct : Rational) (N : Nat) : Prop :=
  IsLeast {n : ℕ | cur.secs ≤ base.secs + n * ct.secs} N

theorem FirstCycle.eq {S n N : Nat} (hN : FirstCycle base cur ct N) (hS : (timespec64Sub cur base).sec = S)
    (hn : (timespec64Sub cur base).nsec = n) (hnum : ct.num ≠ 0) (hdenom : ct.denom ≠ 0) :
    N = ((S * NSEC_PER_SEC + n) * ct.denom.toNat + (ct.num.toNat * NSEC_PER_SEC - 1)) /
      (ct.num.toNat * NSEC_PER_SEC) := by
  rw [hN.unique (isLeast_ceil (secs_pos hnum hdenom) base.secs cur.secs), ← cycles_eq_div, cycles_eq hS hn,
    ceil_div (Nat.mul_pos (num_pos hnum) (by decide))]

/-- The first cycle start is exact, or it is more than 2 ^ 32 s too early. -/
theorem advance_eq_or_lt {S n N : Nat} (hN : FirstCycle base cur ct N) (hS : (timespec64Sub cur base).sec = S)
    (hn : (timespec64Sub cur base).nsec = n) (hnum : ct.num ≠ 0) (hdenom : ct.denom ≠ 0) :
    (N * ct.num.toNat < 2 ^ 64 → advance base cur ct = N * ct.num.toNat) ∧
    (2 ^ 64 ≤ N * ct.num.toNat → (advance base cur ct + 2 ^ 64) * NSEC_PER_SEC <
      (S * NSEC_PER_SEC + n) * ct.denom.toNat + ct.num.toNat * NSEC_PER_SEC) := by
  have hpos := num_pos hnum
  have hNeq := hN.eq hS hn hnum hdenom
  rw [advance, diffToCycles_up hS hn hnum]
  generalize ct.num.toNat = num at *
  generalize ct.denom.toNat = D at *
  have hX : (S * NSEC_PER_SEC + n) * D = S * D * NSEC_PER_SEC + n * D := by ring
  rw [hX] at hNeq ⊢
  generalize hp : S * D = p at *
  generalize n * D = m at *
  have hdiv : ∀ p', (p' * NSEC_PER_SEC + (m + (num * NSEC_PER_SEC - 1))) / (num * NSEC_PER_SEC) * num * NSEC_PER_SEC ≤
      p' * NSEC_PER_SEC + (m + (num * NSEC_PER_SEC - 1)) := fun p' => by
    rw [Nat.mul_assoc]
    exact Nat.div_mul_le_self ..
  have hup : p * NSEC_PER_SEC + m ≤ N * num * NSEC_PER_SEC := by
    have h := Nat.lt_div_mul_add (a := p * NSEC_PER_SEC + m + (num * NSEC_PER_SEC - 1))
      (Nat.mul_pos hpos (by decide : 0 < NSEC_PER_SEC))
    rw [← hNeq, ← Nat.mul_assoc] at h
    have hone : 1 ≤ num * NSEC_PER_SEC := Nat.mul_pos hpos (by decide)
    omega
  have hmod : ∀ q : Nat, u64 (u64 q * num) = q * num % 2 ^ 64 := fun q => by rw [u64, u64, Nat.mod_mul_mod]
  rw [hmod]
  have hNX := hdiv p
  rw [← Nat.add_assoc (p * NSEC_PER_SEC), ← hNeq] at hNX
  have hK : NSEC_PER_SEC = 1000000000 := rfl
  have hq := hdiv (p % 2 ^ 64)
  have hfits : p < 2 ^ 64 → p % 2 ^ 64 * NSEC_PER_SEC + (m + (num * NSEC_PER_SEC - 1)) =
      p * NSEC_PER_SEC + m + (num * NSEC_PER_SEC - 1) := fun h => by rw [Nat.mod_eq_of_lt h, Nat.add_assoc]
  simp only [hK] at hNeq hup hNX hq hfits ⊢
  constructor
  · intro hlt
    rw [hfits (by omega), ← hNeq, Nat.mod_eq_of_lt hlt]
  · intro hge
    by_cases hp64 : p < 2 ^ 64
    · rw [hfits hp64, ← hNeq]
      omega
    · generalize (p % 2 ^ 64 * 1000000000 + (m + (num * 1000000000 - 1))) / (num * 1000000000) * num = c at hq ⊢
      have hc : c % 2 ^ 64 ≤ c := Nat.mod_le ..
      omega

/-- A time stamp as the kernel keeps it. -/
def Timespec.Normal (t : Timespec) : Prop := 0 ≤ t.nsec ∧ t.nsec < NSEC_PER_SEC

theorem past_iff (hb : base.Normal) (hc : cur.Normal) : base.past cur = true ↔ base.secs ≤ cur.secs := by
  obtain ⟨hb0, hb9⟩ := hb
  obtain ⟨hc0, hc9⟩ := hc
  rw [secs_le_iff, timespec64ToNs, timespec64ToNs, Timespec.past, Bool.or_eq_true, Bool.and_eq_true,
    decide_eq_true_iff, decide_eq_true_iff, beq_iff_eq]
  rw [show NSEC_PER_SEC = 1000000000 from rfl] at *
  omega

/-- The seconds of a time are its whole seconds. -/
theorem sec_eq {t : Timespec} (h : t.Normal) : t.sec = timespec64ToNs t / NSEC_PER_SEC := by
  obtain ⟨h0, h9⟩ := h
  rw [timespec64ToNs]
  rw [show NSEC_PER_SEC = 1000000000 from rfl] at *
  omega

/-- The start of cycle `N`, as the code rounds it, with the offset of the gates. -/
def cycleStart (base : Timespec) (ct : Rational) (offsetNs : Int) (N : Nat) : Int :=
  timespec64ToNs base + ⌊N * ct.secs * NSEC_PER_SEC⌋₊ + offsetNs

theorem floor_cycles (ct : Rational) (N : Nat) :
    ⌊N * ct.secs * NSEC_PER_SEC⌋₊ = N * ct.num.toNat * NSEC_PER_SEC / ct.denom.toNat := by
  have hsecs : (N * ct.secs * NSEC_PER_SEC : ℚ) = (N * ct.num.toNat * NSEC_PER_SEC : Nat) / (ct.denom.toNat : ℚ) := by
    rw [Rational.secs]
    push_cast
    ring
  rw [hsecs, Nat.floor_div_eq_div]

/-- The start that is taken, before the offset. -/
def firstStart (base cur : Timespec) (ct : Rational) : Timespec :=
  if base.past cur then edgxSchedCalcFutureTime base cur ct else base

/-- Where the cycles fit, the start that is taken is the first cycle start not
before the current time; where they do not, it is far before it. -/
theorem firstStart_eq {N : Nat} (hb : base.Normal) (hc : cur.Normal) (hN : FirstCycle base cur ct N)
    (hnum : ct.num ≠ 0) (hdenom : ct.denom ≠ 0) :
    (N * ct.num.toNat < 2 ^ 64 → timespec64ToNs (firstStart base cur ct) = cycleStart base ct 0 N) ∧
    (2 ^ 64 ≤ N * ct.num.toNat →
      timespec64ToNs (firstStart base cur ct) + 2 ^ 32 * NSEC_PER_SEC ≤ timespec64ToNs cur) := by
  have hD : 0 < ct.denom.toNat := Nat.pos_of_ne_zero fun h => hdenom (BitVec.eq_of_toNat_eq h)
  rw [firstStart, cycleStart, Int.add_zero, floor_cycles]
  by_cases hpast : base.past cur = true
  · rw [if_pos hpast, toNs_calcFutureTime hdenom]
    have hle := secs_le_iff.1 ((past_iff hb hc).1 hpast)
    have hdelta := toNs_sub cur base
    obtain ⟨n, hn⟩ := Int.eq_ofNat_of_zero_le (nsec_sub_nonneg cur base)
    have hsec : 0 ≤ (timespec64Sub cur base).sec := by
      have hn9 := nsec_sub_lt cur base
      rw [timespec64ToNs] at hdelta
      rw [show NSEC_PER_SEC = 1000000000 from rfl] at *
      omega
    obtain ⟨S, hS⟩ := Int.eq_ofNat_of_zero_le hsec
    obtain ⟨hfit, hwrap⟩ := advance_eq_or_lt hN hS hn hnum hdenom
    refine ⟨fun hlt => by rw [hfit hlt], fun hge => ?_⟩
    have hcur : timespec64ToNs cur = timespec64ToNs base + (S * NSEC_PER_SEC + n : Nat) := by
      rw [timespec64ToNs, hS, hn] at hdelta
      push_cast
      linarith
    have hdiv := Nat.div_mul_le_self (advance base cur ct * NSEC_PER_SEC) ct.denom.toNat
    have hnum32 := ct.num.isLt
    have hdenom32 := ct.denom.isLt
    have hle : advance base cur ct * NSEC_PER_SEC / ct.denom.toNat + 2 ^ 32 * NSEC_PER_SEC ≤ S * NSEC_PER_SEC + n := by
      refine Nat.le_of_mul_le_mul_right ?_ hD
      have h := hwrap hge
      rw [add_mul]
      rw [show NSEC_PER_SEC = 1000000000 from rfl] at *
      omega
    generalize advance base cur ct * NSEC_PER_SEC / ct.denom.toNat = a at hle ⊢
    generalize S * NSEC_PER_SEC + n = b at hle hcur
    rw [hcur]
    omega
  · have hzero : N = 0 := by
      refine Nat.le_zero.1 (hN.2 ?_)
      have hlt := lt_of_not_ge fun h => hpast ((past_iff hb hc).2 h)
      simpa using hlt.le
    subst hzero
    rw [if_neg hpast]
    exact ⟨fun _ => by simp, fun h => by simp at h⟩

end Exact

/-! ## A configuration change -/

/-- The delayed work runs, with what the clock shows each time. -/
def firings (V : Variant) (com : Com) (s : EdgxSched) (envs : List Env) : EdgxSched :=
  envs.foldl (fun s env => (edgxSchedStmPendingDelayed V com env s).2) s

/-- A start that is submitted is not before the current time, in phase with
the base time and offset, and told from others by the eight bits of seconds.
Where it is delayed, the work wakes before it with the least advance left, and
submits in the end. -/
structure StartsInTime (V : Variant) (com : Com) (env : Env) (s : EdgxSched) : Prop where
  submitted : (timed V com env s).1.1 = 0 →
    env.curTime.secs ≤ (timed V com env s).2.startTime.secs ∧
      (∃ N, timespec64ToNs (timed V com env s).2.startTime =
        cycleStart s.adminTab.baseTime s.adminTab.cycleTime env.offset.2 N) ∧
      (timed V com env s).2.startTime.secs < env.curTime.secs + 256
  delayed : (timed V com env s).1.1 ≠ 0 →
    env.curTime.secs + (timed V com env s).1.1 + EDGX_SCHED_MIN_ADVANCE ≤ (timed V com env s).2.startTime.secs ∧
      ∃ envs, (firings V com (edgxSchedStmCfgChange V com env s).2 envs).state = .pending

/-- The first cycle start not before the current time fits 64 bits, is still
not before it with the offset, and is at most 64 whole seconds ahead. -/
def FirstStartNear (base cur : Timespec) (ct : Rational) (offsetNs : Int) : Prop :=
  ∃ N, FirstCycle base cur ct N ∧ N * ct.num.toNat < 2 ^ 64 ∧
    timespec64ToNs cur ≤ cycleStart base ct offsetNs N ∧
    cycleStart base ct offsetNs N / NSEC_PER_SEC ≤ cur.sec + EDGX_SCHED_MAX_DELAY

theorem delaySec_eq_zero {start cur : Timespec} : delaySec start cur = 0 ↔ start.sec ≤ cur.sec + EDGX_SCHED_MAX_DELAY := by
  rw [delaySec]
  rw [show EDGX_SCHED_MAX_DELAY = 64 from rfl, show EDGX_SCHED_MIN_ADVANCE = 32 from rfl]
  split
  · split <;> omega
  · omega

/-- A delay leaves 32 whole seconds, and is at most 64 s. -/
theorem delaySec_le {start cur : Timespec} (h : delaySec start cur ≠ 0) :
    0 < delaySec start cur ∧ delaySec start cur ≤ EDGX_SCHED_MAX_DELAY ∧
      cur.sec + delaySec start cur + EDGX_SCHED_MIN_ADVANCE ≤ start.sec := by
  rw [delaySec] at h ⊢
  rw [show EDGX_SCHED_MAX_DELAY = 64 from rfl, show EDGX_SCHED_MIN_ADVANCE = 32 from rfl] at *
  split
  · split <;> omega
  · rename_i hle
    rw [if_neg hle] at h
    exact absurd rfl h

section Shared

variable {importEntry : Com → TabEntry → TabEntry} {prepareConfig : Com → Hw → List TabEntry → Int × Hw}
  {com : Com} {env : Env} {s : EdgxSched}

/-- The parameters that pass the check. -/
theorem checked_shared (h : (checked (shared importEntry prepareConfig) env s).1 = 0) :
    s.adminTab.cycleTime.num ≠ 0 ∧ (checked (shared importEntry prepareConfig) env s).2 =
      { edgxSchedStmCancel s with offsetNs := env.offset.2 } := by
  rw [checked, edgxSchedCheckCcParams] at h ⊢
  have hadmin : (edgxSchedStmCancel s).adminTab = s.adminTab := by rw [cancel_eq]
  split at h
  · exact absurd h (show -EFAULT ≠ 0 by decide)
  · rename_i hok
    rw [hadmin] at hok
    simp only [not_or] at hok
    refine ⟨hok.2.2.1, ?_⟩
    rw [hadmin, if_neg (by simp only [not_or]; exact hok)]
    change (edgxSchedGetSchedOffset env (edgxSchedStmCancel s)).1 = 0 at h
    change (edgxSchedGetSchedOffset env (edgxSchedStmCancel s)).2 = _
    rw [edgxSchedGetSchedOffset] at h ⊢
    split at h
    · rename_i hoff
      rw [if_pos hoff]
    · rename_i hoff
      exact absurd h hoff

/-- The start time of a change that passes the check. -/
theorem timed_shared (h : (checked (shared importEntry prepareConfig) env s).1 = 0) :
    (timed (shared importEntry prepareConfig) com env s).2.startTime =
        setNormalizedTimespec64 (firstStart s.adminTab.baseTime env.curTime s.adminTab.cycleTime).sec
          ((firstStart s.adminTab.baseTime env.curTime s.adminTab.cycleTime).nsec + env.offset.2) ∧
      (timed (shared importEntry prepareConfig) com env s).1.1 =
        delaySec (timed (shared importEntry prepareConfig) com env s).2.startTime env.curTime := by
  have hadmin : (edgxSchedStmCancel s).adminTab = s.adminTab := by rw [cancel_eq]
  refine ⟨?_, rfl⟩
  rw [timed, (checked_shared h).2, edgxSchedCalcCcTime]
  dsimp only
  rw [hadmin]
  rfl

/-- The work that waits finds no request, so it never submits. -/
theorem firings_not_pending {V : Variant} (envs : List Env) (hc : s.confChange = false) (hs : s.state ≠ .pending) :
    (firings V com s envs).state ≠ .pending := by
  induction envs generalizing s with
  | nil => exact hs
  | cons env envs ih =>
    rw [firings, List.foldl_cons, ← firings, edgxSchedStmPendingDelayed]
    split
    · exact ih hc hs
    · refine ih ?_ ?_ <;> simp [edgxSchedStmCfgChange, hc]

/-- **A start is in time exactly where the first cycle start not before the
current time is not before it with the offset either, and is submitted at
once.** -/
theorem startsInTime_iff (hc : s.confChange = true) (hg : s.gateEnabled = true)
    (hchk : (checked (shared importEntry prepareConfig) env s).1 = 0) (hdenom : s.adminTab.cycleTime.denom ≠ 0)
    (hbase : s.adminTab.baseTime.Normal) (hcur : env.curTime.Normal)
    (hoff : env.offset.2 < 2 ^ 32 * NSEC_PER_SEC) :
    StartsInTime (shared importEntry prepareConfig) com env s ↔
      FirstStartNear s.adminTab.baseTime env.curTime s.adminTab.cycleTime env.offset.2 := by
  have hnum := (checked_shared hchk).1
  have ⟨hstart, hdelay⟩ := @timed_shared importEntry prepareConfig com _ _ hchk
  have hnormal : (timed (shared importEntry prepareConfig) com env s).2.startTime.Normal := by
    rw [hstart]
    exact ⟨Int.emod_nonneg _ (by decide), Int.emod_lt_of_pos _ (by decide)⟩
  have hns : timespec64ToNs (timed (shared importEntry prepareConfig) com env s).2.startTime =
      timespec64ToNs (firstStart s.adminTab.baseTime env.curTime s.adminTab.cycleTime) + env.offset.2 := by
    rw [hstart, toNs_setNormalized, timespec64ToNs]
    ring
  have hpend : (timed (shared importEntry prepareConfig) com env s).1.1 ≠ 0 →
      ¬ ∃ envs, (firings (shared importEntry prepareConfig) com
        (edgxSchedStmCfgChange (shared importEntry prepareConfig) com env s).2 envs).state = .pending := by
    rintro hd ⟨envs, hstate⟩
    rw [cfgChange_of_gate hc hg, if_neg (not_not.2 hchk), if_pos hd] at hstate
    exact firings_not_pending envs rfl (show State.pendingDelayed ≠ .pending by decide) hstate
  obtain ⟨N, hN⟩ : ∃ N, FirstCycle s.adminTab.baseTime env.curTime s.adminTab.cycleTime N :=
    ⟨_, isLeast_ceil (secs_pos hnum hdenom) _ _⟩
  obtain ⟨hfit, hwrap⟩ := firstStart_eq hbase hcur hN hnum hdenom
  have hK : (0 : ℚ) < NSEC_PER_SEC := by norm_num [NSEC_PER_SEC]
  constructor
  · intro h
    have hd : (timed (shared importEntry prepareConfig) com env s).1.1 = 0 := by
      by_contra hd
      exact hpend hd (h.delayed hd).2
    obtain ⟨hnot, -, -⟩ := h.submitted hd
    have hlt : N * s.adminTab.cycleTime.num.toNat < 2 ^ 64 := by
      by_contra hge
      have hfar := hwrap (Nat.le_of_not_lt hge)
      rw [secs_le_iff, hns] at hnot
      omega
    rw [hfit hlt, cycleStart, Int.add_zero, ← cycleStart] at hns
    refine ⟨N, hN, hlt, ?_, ?_⟩
    · rw [← hns]
      exact secs_le_iff.1 hnot
    · rw [← hns, ← sec_eq hnormal]
      exact delaySec_eq_zero.1 (hdelay ▸ hd)
  · rintro ⟨N', hN', hlt, hnot, hnear⟩
    obtain rfl := hN.unique hN'
    rw [hfit hlt, cycleStart, Int.add_zero, ← cycleStart] at hns
    rw [← hns] at hnot hnear
    rw [← sec_eq hnormal] at hnear
    have hd : (timed (shared importEntry prepareConfig) com env s).1.1 = 0 := hdelay.trans (delaySec_eq_zero.2 hnear)
    refine ⟨fun _ => ⟨secs_le_iff.2 hnot, ⟨N, hns⟩, ?_⟩, fun h => absurd hd h⟩
    have hns256 : timespec64ToNs (timed (shared importEntry prepareConfig) com env s).2.startTime <
        timespec64ToNs env.curTime + 256 * NSEC_PER_SEC := by
      obtain ⟨-, h9⟩ := hnormal
      obtain ⟨h0, -⟩ := hcur
      rw [timespec64ToNs, timespec64ToNs]
      rw [show EDGX_SCHED_MAX_DELAY = 64 from rfl] at hnear
      rw [show NSEC_PER_SEC = 1000000000 from rfl] at *
      omega
    rw [Timespec.secs, Timespec.secs, div_lt_iff₀ hK, add_mul, div_mul_cancel₀ _ hK.ne']
    exact_mod_cast hns256

end Shared

/-- One entry of 3200 ns and a cycle of a millisecond from time 0 on, with a
change requested. -/
def millisecondCycles : EdgxSched :=
  { adminTab := { entries := some [⟨3200, 0, 0xff⟩], entryCnt := 1, listLen := 1, cycleTime := ⟨1, 1000⟩ }
    gateEnabled := true
    confChange := true }

theorem startsInTime_iff_midCycle :
    StartsInTime portGates someCom { curTime := ⟨1, 500000⟩, offset := (0, -1000) } millisecondCycles ↔
      FirstStartNear ⟨0, 0⟩ ⟨1, 500000⟩ ⟨1, 1000⟩ (-1000) :=
  startsInTime_iff rfl rfl (by decide) (by decide) ⟨by decide, by decide⟩ ⟨by decide, by decide⟩ (by decide)

/-- A cycle starts just now; a microsecond earlier it is too late. -/
theorem not_startsInTime_cycleStart :
    ¬ StartsInTime portGates someCom { curTime := ⟨1, 0⟩, offset := (0, -1000) } millisecondCycles := fun h =>
  absurd (secs_le_iff.1 (h.submitted (by decide)).1) (by decide)

end TsnSwitch.Sched
