/-
Time arithmetic of the scheduler (edge_sched.c; edge_st_fsc.c has a copy):
normalised time stamps, the conversion of a rational cycle time to
nanoseconds, and the first cycle start after the current time.

Seconds and nanoseconds of a time stamp are signed and far from the ends of
their 64 bits, so they are `Int`. The cycle count is computed in 64 unsigned
bits, and every step of it is reduced.
-/
import Mathlib.Tactic

namespace TsnSwitch.Sched

def NSEC_PER_SEC : Nat := 1000000000

/-- `struct timespec64`. -/
structure Timespec where
  sec : Int := 0
  nsec : Int := 0
  deriving DecidableEq

/-- `struct edgx_sched_rational`. -/
structure Rational where
  num : BitVec 32 := 0
  denom : BitVec 32 := 0
  deriving DecidableEq

/-- A value of a 64 bit unsigned variable. -/
def u64 (n : Nat) : Nat := n % 2 ^ 64

/-- The 64 bit unsigned reading of a signed value. -/
def u64OfInt (i : Int) : Nat := (i % 2 ^ 64).toNat

def setNormalizedTimespec64 (sec nsec : Int) : Timespec :=
  ⟨sec + nsec / NSEC_PER_SEC, nsec % NSEC_PER_SEC⟩

def timespec64Add (a b : Timespec) : Timespec :=
  setNormalizedTimespec64 (a.sec + b.sec) (a.nsec + b.nsec)

def timespec64Sub (a b : Timespec) : Timespec :=
  setNormalizedTimespec64 (a.sec - b.sec) (a.nsec - b.nsec)

def timespec64ToNs (t : Timespec) : Int := t.sec * NSEC_PER_SEC + t.nsec

/-- The amount is unsigned; the quotient of the division has 32 bits. -/
def timespec64AddNs (a : Timespec) (ns : Nat) : Timespec :=
  let total := u64OfInt (a.nsec + ns)
  ⟨a.sec + ((total / NSEC_PER_SEC) % 2 ^ 32 : Nat), (total % NSEC_PER_SEC : Nat)⟩

/-- Nanoseconds and sub-nanoseconds of a rational number of seconds. -/
def edgxSchedRationalToNsec (rat : Rational) : Nat × Nat :=
  let num := rat.num.toNat / rat.denom.toNat
  let rem := rat.num.toNat % rat.denom.toNat
  let cycleSec := num
  let num := u64 (rem * NSEC_PER_SEC) / rat.denom.toNat
  let rem := u64 (rem * NSEC_PER_SEC) % rat.denom.toNat
  (u64 (num + cycleSec * NSEC_PER_SEC), u64 (rem * 2 ^ 32) / rat.denom.toNat % 2 ^ 32)

/-- The number of cycles of length `ct` between two points in time. The mask
that the callers pass keeps all seconds. -/
def edgxSchedDiffToCycles (beginTime endTime : Timespec) (ct : Rational) (roundUp : Bool) : Nat :=
  let delta := timespec64Sub endTime beginTime
  let num := ct.num.toNat
  let denom := ct.denom.toNat
  let countSec := u64OfInt (delta.sec * denom)
  let countSecRem := countSec % num
  let countSec := countSec / num
  let countNsec := u64 (u64OfInt delta.nsec * denom)
  let countNsecRem := countNsec % num
  let countNsec := countNsec / num
  let countRes := u64 (countSecRem * NSEC_PER_SEC + countNsec * num + countNsecRem)
  let countRes := if roundUp then u64 (countRes + num * NSEC_PER_SEC - 1) else countRes
  u64 (countSec + countRes / num / NSEC_PER_SEC)

/-- The start of the first cycle, counted from `inTime`, not before `curTime`. -/
def edgxSchedCalcFutureTime (inTime curTime : Timespec) (ct : Rational) : Timespec :=
  let count := edgxSchedDiffToCycles inTime curTime ct true
  let total := u64 (count * ct.num.toNat)
  let rem := total % ct.denom.toNat
  let nsec := u64 (rem * NSEC_PER_SEC) / ct.denom.toNat
  timespec64Add inTime ⟨(total / ct.denom.toNat : Nat), nsec⟩

def EDGX_SCHED_MAX_DELAY : Int := 64
def EDGX_SCHED_MIN_ADVANCE : Int := 32

/-- How long to wait before a schedule that starts at `startTime` is
submitted: the hardware takes start times at most a little ahead. -/
def delaySec (startTime curTime : Timespec) : Int :=
  let diff := startTime.sec - curTime.sec
  if diff > EDGX_SCHED_MAX_DELAY then
    if diff - EDGX_SCHED_MIN_ADVANCE < EDGX_SCHED_MAX_DELAY then diff - EDGX_SCHED_MIN_ADVANCE
    else EDGX_SCHED_MAX_DELAY
  else 0

/-- The time stamp is not after the current time. -/
def Timespec.past (t cur : Timespec) : Bool :=
  t.sec < cur.sec || (t.sec == cur.sec && t.nsec ≤ cur.nsec)

end TsnSwitch.Sched
