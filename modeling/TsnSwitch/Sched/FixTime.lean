/-
The start time after the hardware has taken a table: `edgx_sched_fix_cc_time`
of edge_sched.c and of edge_st_fsc.c.

The hardware keeps the low 8 bits of the seconds. The code takes the
difference of two truncated times for the difference of the times, so it is
right only where both are in the same 256 seconds. The shared copy also adds a
negative difference as an unsigned one, and the other copy takes a negative
difference of whole seconds for none (`fixCcTimeOk_iff`).
-/
import TsnSwitch.Sched.StartTime

namespace TsnSwitch.Sched

/-- The used table has this start time, of which the hardware keeps the low
bits of the seconds. -/
def Reports (hw : Hw) (t : Tab) (hwStart : Timespec) : Prop :=
  (edgxSchedGetUsedTab hw).1 = t.idx ∧
    (edgxSchedHwGetCcTime (edgxSchedGetUsedTab hw).2 t).1 =
      ⟨hwStart.sec % (EDGX_SCHED_START_TIME_SEC_MASK + 1), hwStart.nsec⟩

/-- How far the hardware may be off. -/
def User.tolerance : User → Nat
  | .portGates | .streamGates => EDGX_SCHED_DEF_START_TIME_ERR
  | .fsc => 0

/-- Out of the tolerance the start time is that of the hardware, and the time
of the configuration change is the offset before it. -/
def FixCcTimeOk (u : User) (com : Com) (env : Env) (s : EdgxSched) (hwStart : Timespec) : Prop :=
  u.tolerance < (timespec64ToNs hwStart - timespec64ToNs s.startTime).natAbs →
    (u.variant.fixCcTime com env s).startTime = hwStart ∧
      (u.variant.fixCcTime com env s).confChangeTime =
        setNormalizedTimespec64 hwStart.sec (hwStart.nsec - u.variant.startOffset com env s)

/-- Both times are in the same 256 seconds, and the hardware is not in an
earlier second. The FSC copy only goes wrong when it is whole seconds early. -/
def FixGiven (u : User) (startTime hwStart : Timespec) : Prop :=
  startTime.sec / 256 = hwStart.sec / 256 ∧
    match u with
    | .portGates | .streamGates => startTime.sec ≤ hwStart.sec
    | .fsc => startTime.nsec = hwStart.nsec → startTime.sec ≤ hwStart.sec

/-! ## Time stamps -/

section Stamps

variable {a b : Timespec}

theorem normal_ext_iff (ha : a.Normal) (hb : b.Normal) : a = b ↔ timespec64ToNs a = timespec64ToNs b := by
  obtain ⟨sec, nsec⟩ := a
  obtain ⟨sec', nsec'⟩ := b
  simp only [Timespec.Normal, timespec64ToNs, Timespec.mk.injEq, NSEC_PER_SEC] at *
  omega

theorem setNormalized_normal (sec nsec : Int) : (setNormalizedTimespec64 sec nsec).Normal :=
  ⟨Int.emod_nonneg _ (by decide), Int.emod_lt_of_pos _ (by decide)⟩

/-- Adding a signed difference as an unsigned one is right just when no second
is borrowed. -/
theorem addNs_eq_iff (ha : a.Normal) (hb : b.Normal) (delta : Int) (hlow : -400000000000 < delta)
    (hhigh : delta < 400000000000) (hnear : b.sec < a.sec + 1000000000) :
    timespec64AddNs a (u64OfInt delta) = b ↔ 0 ≤ a.nsec + delta ∧ timespec64ToNs a + delta = timespec64ToNs b := by
  obtain ⟨sec, nsec⟩ := a
  obtain ⟨sec', nsec'⟩ := b
  simp only [Timespec.Normal, timespec64ToNs, timespec64AddNs, Timespec.mk.injEq, NSEC_PER_SEC, u64OfInt] at *
  by_cases h0 : 0 ≤ nsec + delta
  · have htotal : ((nsec + ((delta % 2 ^ 64).toNat : Nat)) % 2 ^ 64).toNat = (nsec + delta).toNat := by omega
    rw [htotal]
    omega
  · have htotal : ((nsec + ((delta % 2 ^ 64).toNat : Nat)) % 2 ^ 64).toNat = (2 ^ 64 + (nsec + delta)).toNat := by omega
    rw [htotal]
    omega

end Stamps

/-! ## The two copies -/

section Fix

variable {s : EdgxSched} {t : Tab} {hwStart : Timespec}

/-- The difference of the truncated times. -/
def truncatedDelta (startTime hwStart : Timespec) : Int :=
  timespec64ToNs ⟨hwStart.sec % (EDGX_SCHED_START_TIME_SEC_MASK + 1), hwStart.nsec⟩ -
    timespec64ToNs { startTime with sec := startTime.sec % (EDGX_SCHED_START_TIME_SEC_MASK + 1) }

/-- It is off by the 256 seconds that are not the same. -/
theorem truncatedDelta_eq (a b : Timespec) :
    truncatedDelta a b = timespec64ToNs b - timespec64ToNs a - 256000000000 * (b.sec / 256 - a.sec / 256) := by
  simp only [truncatedDelta, timespec64ToNs, EDGX_SCHED_START_TIME_SEC_MASK, NSEC_PER_SEC]
  omega

/-- The shared copy. -/
theorem fixCcTime_times (h : Reports s.hw t hwStart) :
    let delta := truncatedDelta s.startTime hwStart
    let startTime := timespec64AddNs s.startTime (u64OfInt delta)
    ((edgxSchedFixCcTime s).startTime, (edgxSchedFixCcTime s).confChangeTime) =
      if delta.natAbs > EDGX_SCHED_DEF_START_TIME_ERR then
        (startTime, setNormalizedTimespec64 startTime.sec (startTime.nsec - s.offsetNs))
      else (s.startTime, s.confChangeTime) := by
  intro delta startTime
  have hfix : edgxSchedFixCcTime s = if delta.natAbs > EDGX_SCHED_DEF_START_TIME_ERR then
      { s with
        hw := (edgxSchedHwGetCcTime (edgxSchedGetUsedTab s.hw).2 t).2, confChangeErr := s.confChangeErr + 1, startTime
        confChangeTime := setNormalizedTimespec64 startTime.sec (startTime.nsec - s.offsetNs) }
      else { s with hw := (edgxSchedHwGetCcTime (edgxSchedGetUsedTab s.hw).2 t).2 } := by
    simp only [edgxSchedFixCcTime, h.1, tab?_idx, h.2, delta, startTime, truncatedDelta]
  rw [hfix]
  split <;> rfl

/-- The FSC copy. -/
theorem Fsc.fixCcTime_times (com : Com) (env : Env) (h : Reports s.hw t hwStart) :
    let delta := timespec64Sub ⟨hwStart.sec % (EDGX_SCHED_START_TIME_SEC_MASK + 1), hwStart.nsec⟩
      { s.startTime with sec := s.startTime.sec % (EDGX_SCHED_START_TIME_SEC_MASK + 1) }
    let startTime := timespec64Add s.startTime delta
    ((Fsc.edgxSchedFixCcTime com env s).startTime, (Fsc.edgxSchedFixCcTime com env s).confChangeTime) =
      if delta.sec > 0 ∨ delta.nsec > 0 then (startTime, edgxSchedAdjustTime com env s.linkMode startTime true)
      else (s.startTime, s.confChangeTime) := by
  intro delta startTime
  have hfix : Fsc.edgxSchedFixCcTime com env s = if delta.sec > 0 ∨ delta.nsec > 0 then
      { s with
        hw := (edgxSchedHwGetCcTime (edgxSchedGetUsedTab s.hw).2 t).2, confChangeErr := s.confChangeErr + 1, startTime
        confChangeTime := edgxSchedAdjustTime com env s.linkMode startTime true }
      else { s with hw := (edgxSchedHwGetCcTime (edgxSchedGetUsedTab s.hw).2 t).2 } := by
    simp only [Fsc.edgxSchedFixCcTime, h.1, tab?_idx, h.2, delta, startTime]
  rw [hfix]
  split <;> rfl

/-- The shared copy outside of the tolerance. -/
theorem fixCcTime_startTime_iff (h : Reports s.hw t hwStart) (hs : s.startTime.Normal) (hh : hwStart.Normal)
    (hnear : (timespec64ToNs hwStart - timespec64ToNs s.startTime).natAbs ≤ 64 * NSEC_PER_SEC)
    (hout : EDGX_SCHED_DEF_START_TIME_ERR < (timespec64ToNs hwStart - timespec64ToNs s.startTime).natAbs) :
    ((edgxSchedFixCcTime s).startTime = hwStart ∧
      (edgxSchedFixCcTime s).confChangeTime = setNormalizedTimespec64 hwStart.sec (hwStart.nsec - s.offsetNs)) ↔
      s.startTime.sec / 256 = hwStart.sec / 256 ∧ s.startTime.sec ≤ hwStart.sec := by
  have htimes := fixCcTime_times h
  have hdelta := truncatedDelta_eq s.startTime hwStart
  have hs' := hs
  have hh' := hh
  simp only [Timespec.Normal, timespec64ToNs, NSEC_PER_SEC] at hs' hh' hnear hout hdelta
  have hout' : 256 < _ := hout
  generalize truncatedDelta s.startTime hwStart = delta at hdelta htimes
  have habs : delta.natAbs > EDGX_SCHED_DEF_START_TIME_ERR := by
    rw [EDGX_SCHED_DEF_START_TIME_ERR]
    omega
  have hadd := addNs_eq_iff hs hh delta (by omega) (by omega) (by omega)
  dsimp only at htimes
  rw [if_pos habs, Prod.mk.injEq] at htimes
  rw [htimes.1, htimes.2]
  simp only [timespec64ToNs, NSEC_PER_SEC] at hadd
  constructor
  · intro hc
    have := hadd.1 hc.1
    omega
  · intro hc
    rw [hadd.2 (by omega)]
    exact ⟨rfl, rfl⟩

/-- The FSC copy, which has no tolerance. -/
theorem Fsc.fixCcTime_startTime_iff (com : Com) (env : Env) (h : Reports s.hw t hwStart) (hs : s.startTime.Normal)
    (hh : hwStart.Normal) (hout : timespec64ToNs hwStart ≠ timespec64ToNs s.startTime) :
    ((Fsc.edgxSchedFixCcTime com env s).startTime = hwStart ∧
      (Fsc.edgxSchedFixCcTime com env s).confChangeTime =
        setNormalizedTimespec64 hwStart.sec (hwStart.nsec + Fsc.adjustDiff com env s.linkMode)) ↔
      s.startTime.sec / 256 = hwStart.sec / 256 ∧ (s.startTime.nsec = hwStart.nsec → s.startTime.sec ≤ hwStart.sec) := by
  have htimes := Fsc.fixCcTime_times com env h
  have hdelta := truncatedDelta_eq s.startTime hwStart
  have htoNs := toNs_sub ⟨hwStart.sec % (EDGX_SCHED_START_TIME_SEC_MASK + 1), hwStart.nsec⟩
    { s.startTime with sec := s.startTime.sec % (EDGX_SCHED_START_TIME_SEC_MASK + 1) }
  rw [← truncatedDelta, hdelta] at htoNs
  have hnonneg := nsec_sub_nonneg ⟨hwStart.sec % (EDGX_SCHED_START_TIME_SEC_MASK + 1), hwStart.nsec⟩
    { s.startTime with sec := s.startTime.sec % (EDGX_SCHED_START_TIME_SEC_MASK + 1) }
  have hlt := nsec_sub_lt ⟨hwStart.sec % (EDGX_SCHED_START_TIME_SEC_MASK + 1), hwStart.nsec⟩
    { s.startTime with sec := s.startTime.sec % (EDGX_SCHED_START_TIME_SEC_MASK + 1) }
  generalize timespec64Sub ⟨hwStart.sec % (EDGX_SCHED_START_TIME_SEC_MASK + 1), hwStart.nsec⟩
    { s.startTime with sec := s.startTime.sec % (EDGX_SCHED_START_TIME_SEC_MASK + 1) } = delta at *
  dsimp only at htimes
  have hadd : timespec64Add s.startTime delta = hwStart ↔ s.startTime.sec / 256 = hwStart.sec / 256 := by
    have hnormal : (timespec64Add s.startTime delta).Normal := setNormalized_normal _ _
    rw [normal_ext_iff hnormal hh, toNs_add, htoNs]
    omega
  simp only [Timespec.Normal, timespec64ToNs, NSEC_PER_SEC] at hs hh hlt hout htoNs
  by_cases hlater : delta.sec > 0 ∨ delta.nsec > 0
  · rw [if_pos hlater, Prod.mk.injEq] at htimes
    rw [htimes.1, htimes.2]
    constructor
    · intro hc
      have := hadd.1 hc.1
      omega
    · intro hc
      rw [hadd.2 hc.1]
      exact ⟨rfl, rfl⟩
  · -- whole seconds early
    rw [if_neg hlater, Prod.mk.injEq] at htimes
    rw [htimes.1]
    refine iff_of_false (fun hc => ?_) fun hc => ?_
    · rw [hc.1] at hout
      exact hout rfl
    · omega

end Fix

/-- **The times are those of the hardware** just when it starts in the same 256
seconds and not in an earlier second, in the FSC copy not whole seconds
earlier. -/
theorem fixCcTimeOk_iff (u : User) (com : Com) (env : Env) {s : EdgxSched} {t : Tab} {hwStart : Timespec}
    (h : Reports s.hw t hwStart) (hs : s.startTime.Normal) (hh : hwStart.Normal)
    (hnear : (timespec64ToNs hwStart - timespec64ToNs s.startTime).natAbs ≤ 64 * NSEC_PER_SEC) :
    FixCcTimeOk u com env s hwStart ↔
      (u.tolerance < (timespec64ToNs hwStart - timespec64ToNs s.startTime).natAbs → FixGiven u s.startTime hwStart) := by
  refine forall_congr' fun hout => ?_
  cases u with
  | portGates => exact fixCcTime_startTime_iff h hs hh hnear hout
  | streamGates => exact fixCcTime_startTime_iff h hs hh hnear hout
  | fsc =>
    have hsub : hwStart.nsec - User.fsc.variant.startOffset com env s = hwStart.nsec + Fsc.adjustDiff com env s.linkMode :=
      sub_neg_eq_add ..
    rw [hsub]
    exact Fsc.fixCcTime_startTime_iff com env h hs hh fun heq => absurd hout (by simp [heq])

/-- A schedule that was to start at `startTime`, and that the hardware uses
from these registers on. -/
def started (startTime : Timespec) (startSec : BitVec 16) (startNsec : BitVec 32) : EdgxSched :=
  { init 0xff with
    startTime
    hw := { tabs := Function.update (fun _ => {}) 0 { inUse := true, startSec, startNsec } } }

theorem fixCcTimeOk_iff_later : FixCcTimeOk .portGates someCom {} (started ⟨10, 0⟩ 10 1000) ⟨10, 1000⟩ :=
  have hreports : Reports (started ⟨10, 0⟩ 10 1000).hw 0 ⟨10, 1000⟩ := ⟨by decide, by decide⟩
  (fixCcTimeOk_iff .portGates someCom {} hreports ⟨by decide, by decide⟩ ⟨by decide, by decide⟩ (by decide)).2 fun _ =>
    ⟨by decide, by decide⟩

/-- Two microseconds later the seconds wrap: the start time is set back by
256 seconds, or to far in the future where the difference is added unsigned. -/
theorem not_fixCcTimeOk_wrap :
    (∀ u : User, Reports (started ⟨255, 999999000⟩ 0 1000).hw 0 ⟨256, 1000⟩ ∧
      ¬ FixCcTimeOk u someCom {} (started ⟨255, 999999000⟩ 0 1000) ⟨256, 1000⟩) ∧
    (edgxSchedFixCcTime (started ⟨255, 999999000⟩ 0 1000)).startTime = ⟨1266874889, 709552616⟩ ∧
    (Fsc.edgxSchedFixCcTime someCom {} (started ⟨255, 999999000⟩ 0 1000)).startTime = ⟨0, 1000⟩ := by
  refine ⟨fun u => ⟨⟨by decide, by decide⟩, fun h => ?_⟩, by decide, by decide⟩
  cases u with
  | portGates | streamGates | fsc => exact absurd (h (by decide)).1 (by decide)

end TsnSwitch.Sched
