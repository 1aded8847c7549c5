/-
The time of a timestamp: `edgx_com_ts_read` of edge_com_ts.c against the time
of the event.

The hardware captures its clock and adds the correction to the nanoseconds,
which have 30 bits. The two bits of the seconds stay as they were captured: the
driver carries a second when the nanoseconds are too many. It does so outside the
two bits, where no time matches a 4, and it takes a borrow for a carry
(`readsTime_iff`).
-/
import TsnSwitch.Com.TxTs

namespace TsnSwitch.Com

def KTIME_MAX : Int := 2 ^ 63 - 1
def KTIME_SEC_MAX : Int := KTIME_MAX / 1000000000

/-- `timespec64_to_ktime`, in nanoseconds. -/
def timespec64ToKtime (sec : BitVec 64) (nsec : BitVec 32) : Int :=
  if sec.toInt ≥ KTIME_SEC_MAX then KTIME_MAX else sec.toInt * 1000000000 + nsec.toNat

/-- The time that is read at the time `cur`, in nanoseconds. -/
def readKtime (cur : Nat) (r : TsRegs) : Option Int :=
  (edgxComTsRead (BitVec.ofNat 64 (cur / 1000000000)) r).map fun t => timespec64ToKtime t.1 t.2

/-! ## Events -/

/-- An event: the clock when it was captured, and the correction of its port. -/
structure Capture where
  sec : Nat
  nsec : Nat
  correction : Int
  nsec_lt : nsec < 1000000000

namespace Capture

variable (e : Capture)

/-- The nanoseconds after the correction, which may be more than a second or
less than none. -/
def sum : Int := e.nsec + e.correction

def time : Int := e.sec * 1000000000 + e.sum

/-- What 30 bits hold of the nanoseconds. -/
def rawNsec : Nat := (e.sum % 2 ^ 30).toNat

/-- The registers that the event is read from. -/
def regs (hdrMsg0 hdrMsg1 : BitVec 16) : TsRegs :=
  ⟨hdrMsg0, hdrMsg1, BitVec.ofNat 16 (e.sec % 4 * 2 ^ 14 + e.rawNsec / 2 ^ 16), BitVec.ofNat 16 (e.rawNsec % 2 ^ 16)⟩

end Capture

/-- The event is at most a second from `cur`, inside the times that the clocks of
the kernel have. -/
structure Near (e : Capture) (cur : Nat) : Prop where
  nonneg : 0 ≤ e.time
  near : |e.time - cur| ≤ 1000000000
  lt : (cur : Int) + 1000000000 < KTIME_SEC_MAX * 1000000000

/-- The time that is read is that of the event. -/
def ReadsTime (e : Capture) (cur : Nat) : Prop :=
  ∀ hdrMsg0 hdrMsg1, readKtime cur (e.regs hdrMsg0 hdrMsg1) = some e.time

/-! ## The parts of a timestamp -/

/-- The seconds and nanoseconds of the registers. -/
def TsRegs.sec (r : TsRegs) : Nat := r.timeHi.toNat / 2 ^ 14

def TsRegs.nsec (r : TsRegs) : Nat := r.timeHi.toNat % 2 ^ 14 * 2 ^ 16 + r.timeLo.toNat

theorem Capture.rawNsec_lt (e : Capture) : e.rawNsec < 2 ^ 30 := by
  unfold rawNsec
  omega

theorem Capture.regs_parts (e : Capture) (hdrMsg0 hdrMsg1 : BitVec 16) :
    (e.regs hdrMsg0 hdrMsg1).sec = e.sec % 4 ∧ (e.regs hdrMsg0 hdrMsg1).nsec = e.rawNsec := by
  have hlt := e.rawNsec_lt
  simp only [TsRegs.sec, TsRegs.nsec, Capture.regs, BitVec.toNat_ofNat]
  omega

section Read

variable {r : TsRegs}

theorem and_three (x : BitVec 64) : (x &&& 3).toNat = x.toNat % 4 := by
  rw [BitVec.toNat_and]
  exact Nat.and_two_pow_sub_one_eq_mod x.toNat 2

theorem regs_sec (r : TsRegs) : (((r.timeHi &&& 0xc000) >>> 14).setWidth 64).toNat = r.sec := by
  have hlt := r.timeHi.isLt
  rw [BitVec.toNat_setWidth, BitVec.toNat_ushiftRight, BitVec.toNat_and, Nat.shiftRight_and_distrib,
    show (0xc000 : BitVec 16).toNat >>> 14 = 2 ^ 2 - 1 from rfl, Nat.and_two_pow_sub_one_eq_mod, Nat.shiftRight_eq_div_pow,
    TsRegs.sec]
  omega

theorem regs_nsec (r : TsRegs) :
    ((r.timeHi &&& 0x3fff).setWidth 32 <<< 16 ||| r.timeLo.setWidth 32 : BitVec 32).toNat = r.nsec := by
  have hlo := r.timeLo.isLt
  have hhi : (r.timeHi &&& 0x3fff).toNat = r.timeHi.toNat % 2 ^ 14 := by
    rw [BitVec.toNat_and]
    exact Nat.and_two_pow_sub_one_eq_mod r.timeHi.toNat 14
  have hshift : (r.timeHi.toNat % 2 ^ 14) <<< 16 < 2 ^ 32 := by
    rw [Nat.shiftLeft_eq]
    omega
  rw [BitVec.toNat_or, BitVec.toNat_shiftLeft, BitVec.toNat_setWidth, BitVec.toNat_setWidth, hhi,
    Nat.mod_eq_of_lt (show r.timeHi.toNat % 2 ^ 14 < 2 ^ 32 by omega), Nat.mod_eq_of_lt hshift,
    Nat.mod_eq_of_lt (show r.timeLo.toNat < 2 ^ 32 by omega), ← Nat.shiftLeft_add_eq_or_of_lt hlo, Nat.shiftLeft_eq,
    TsRegs.nsec]

/-- The time of the registers after the carry. -/
def TsRegs.carried (r : TsRegs) : BitVec 64 × BitVec 32 :=
  let sec : BitVec 64 := ((r.timeHi &&& 0xc000) >>> 14).setWidth 64
  let nsec : BitVec 32 := ((r.timeHi &&& 0x3fff).setWidth 32 <<< 16) ||| r.timeLo.setWidth 32
  if nsec ≥ NSEC_PER_SEC then (sec + 1, nsec - NSEC_PER_SEC) else (sec, nsec)

theorem comTsRead_eq (curSec : BitVec 64) (r : TsRegs) :
    edgxComTsRead curSec r =
      let nsec := r.carried.2 &&& 0x3fffffff
      if curSec &&& 3 = r.carried.1 then some (curSec, nsec)
      else if (curSec - 1) &&& 3 = r.carried.1 then some (curSec - 1, nsec)
      else if (curSec + 1) &&& 3 = r.carried.1 then some (curSec + 1, nsec)
      else none := rfl

theorem carried_toNat (r : TsRegs) : r.carried.1.toNat = r.sec + r.nsec / 1000000000 ∧
    (r.carried.2 &&& 0x3fffffff).toNat = r.nsec % 1000000000 := by
  have hsec := regs_sec r
  have hnsec := regs_nsec r
  have hmax : NSEC_PER_SEC.toNat = 1000000000 := rfl
  have hslt : r.sec < 4 := by
    have := r.timeHi.isLt
    rw [TsRegs.sec]
    omega
  have hnlt : r.nsec < 2 ^ 30 := by
    have := r.timeLo.isLt
    rw [TsRegs.nsec]
    omega
  have hmask (x : BitVec 32) : (x &&& 0x3fffffff).toNat = x.toNat % 2 ^ 30 := by
    rw [BitVec.toNat_and]
    exact Nat.and_two_pow_sub_one_eq_mod x.toNat 30
  unfold TsRegs.carried
  dsimp only
  generalize (((r.timeHi &&& 0xc000) >>> 14).setWidth 64 : BitVec 64) = sec at hsec
  generalize ((r.timeHi &&& 0x3fff).setWidth 32 <<< 16 ||| r.timeLo.setWidth 32 : BitVec 32) = nsec at hnsec
  by_cases hcarry : nsec ≥ NSEC_PER_SEC
  · have hle : NSEC_PER_SEC.toNat ≤ nsec.toNat := hcarry
    have hone : (1 : BitVec 64).toNat = 1 := rfl
    rw [if_pos hcarry, hmask, BitVec.toNat_add, BitVec.toNat_sub_of_le hcarry, hone]
    omega
  · have hlt : ¬ NSEC_PER_SEC.toNat ≤ nsec.toNat := hcarry
    rw [if_neg hcarry, hmask]
    dsimp only
    omega

/-- The seconds that match, counted from those of `cur`. -/
theorem readKtime_eq {cur s : Nat} (hcur : cur / 1000000000 = s) (hmax : (s : Int) + 1 < KTIME_SEC_MAX) (r : TsRegs) :
    let sec := r.sec + r.nsec / 1000000000
    let nsec : Int := (r.nsec % 1000000000 : Nat)
    readKtime cur r =
      if s % 4 = sec then some ((s : Int) * 1000000000 + nsec)
      else if (s + 3) % 4 = sec then some (((s : Int) - 1) * 1000000000 + nsec)
      else if (s + 1) % 4 = sec then some (((s : Int) + 1) * 1000000000 + nsec)
      else none := by
  intro sec nsec
  have hktmax : KTIME_SEC_MAX = 9223372036 := rfl
  obtain ⟨hsec, hnsec⟩ := carried_toNat r
  have hmatch (x : BitVec 64) : x &&& 3 = r.carried.1 ↔ x.toNat % 4 = sec := by
    rw [← BitVec.toNat_inj, and_three, hsec]
  have hs : (BitVec.ofNat 64 s).toNat = s := by
    rw [BitVec.toNat_ofNat]
    omega
  have hone : (1 : BitVec 64).toNat = 1 := rfl
  have hsub : (BitVec.ofNat 64 s - 1).toNat = (s + (2 ^ 64 - 1)) % 2 ^ 64 := by
    rw [BitVec.toNat_sub, hs, hone, Nat.add_comm]
  have hadd : (BitVec.ofNat 64 s + 1).toNat = s + 1 := by
    rw [BitVec.toNat_add, hs, hone]
    omega
  have hktime {x : BitVec 64} {i : Int} (hi : x.toInt = i) (hlt : i < KTIME_SEC_MAX) :
      timespec64ToKtime x (r.carried.2 &&& 0x3fffffff) = i * 1000000000 + nsec := by
    rw [timespec64ToKtime, hi, if_neg (Int.not_le.2 hlt), hnsec]
  have hprev : (s + (2 ^ 64 - 1)) % 2 ^ 64 % 4 = (s + 3) % 4 := by omega
  rw [readKtime, comTsRead_eq, hcur]
  simp only [hmatch, hs, hsub, hadd, hprev]
  split
  · have hi : (BitVec.ofNat 64 s).toInt = s := by rw [BitVec.toInt_eq_toNat_of_lt (by omega), hs]
    rw [Option.map_some, hktime hi (by omega)]
  · split
    · have hi : (BitVec.ofNat 64 s - 1).toInt = (s : Int) - 1 := by
        rw [BitVec.toInt_eq_toNat_cond, hsub]
        split <;> omega
      rw [Option.map_some, hktime hi (by omega)]
    · split
      · have hi : (BitVec.ofNat 64 s + 1).toInt = (s : Int) + 1 := by
          rw [BitVec.toInt_eq_toNat_of_lt (by omega), hadd]
          rfl
        rw [Option.map_some, hktime hi (by omega)]
      · rfl

end Read

/-! ## Reading an event -/

/-- A time in the seconds around `cur` is read just when its parts are those of the
registers. -/
theorem readKtime_iff {cur time : Nat} (hnear : |(time : Int) - cur| ≤ 1000000000)
    (hcur : (cur : Int) + 1000000000 < KTIME_SEC_MAX * 1000000000) (r : TsRegs) :
    readKtime cur r = some (time : Int) ↔
      time / 1000000000 % 4 = r.sec + r.nsec / 1000000000 ∧ time % 1000000000 = r.nsec % 1000000000 := by
  rw [readKtime_eq rfl (by omega)]
  rw [abs_le] at hnear
  have hnsec : r.nsec % 1000000000 < 1000000000 := Nat.mod_lt _ (by decide)
  generalize r.nsec % 1000000000 = nsec at hnsec ⊢
  generalize r.sec + r.nsec / 1000000000 = sec
  split
  · rw [Option.some.injEq]
    omega
  · split
    · rw [Option.some.injEq]
      omega
    · split
      · rw [Option.some.injEq]
        omega
      · simp only [reduceCtorEq, false_iff]
        omega

/-- The nanoseconds with the correction, as their field and what it does not hold. -/
theorem Capture.sum_eq (e : Capture) : e.sum = e.rawNsec + e.sum / 2 ^ 30 * 2 ^ 30 := by
  unfold rawNsec
  omega

/-- The parts of a time, and those that are left of it in 30 bits of nanoseconds. -/
theorem parts_iff {time sec raw : Nat} {wraps : Int} (hraw : raw < 2 ^ 30)
    (htime : (time : Int) = sec * 1000000000 + raw + wraps * 1073741824) :
    time / 1000000000 % 4 = sec % 4 + raw / 1000000000 ∧ time % 1000000000 = raw % 1000000000 ↔
      1953125 ∣ wraps ∧ (raw < 1000000000 ∨ sec % 4 ≠ 3) := by
  constructor
  · rintro ⟨hsec, hnsec⟩
    refine ⟨?_, ?_⟩
    · have hmod : (1000000000 : Int) ∣ time - raw := (Nat.modEq_iff_dvd (a := raw)).1 (Eq.symm hnsec)
      have hmul : (1000000000 : Int) ∣ wraps * 1073741824 := by
        have heq : wraps * 1073741824 = (time - raw) - sec * 1000000000 := by
          rw [htime]
          ring
        rw [heq]
        exact dvd_sub hmod (Dvd.intro_left _ rfl)
      -- 10 ^ 9 is 1953125 times a power of 2
      exact Int.dvd_of_dvd_mul_left_of_gcd_one (dvd_trans ⟨512, by decide⟩ hmul) (by decide)
    · clear htime hnsec
      omega
  · rintro ⟨⟨k, rfl⟩, hcarry⟩
    have hsplit : (time : Int) = 1000000000 * (sec + 2097152 * k) + raw := by
      rw [htime]
      ring
    have hfour : ((sec : Int) + 2097152 * k) % 4 = sec % 4 := by omega
    clear htime
    generalize (sec : Int) + 2097152 * k = m at hsplit hfour
    omega

/-- **The time of an event is read** just when what its nanoseconds lack or have
beyond their 30 bits is whole multiples of four seconds, and no carry goes out
of the two bits of the seconds. -/
theorem readsTime_iff {e : Capture} {cur : Nat} (h : Near e cur) :
    ReadsTime e cur ↔ 1953125 ∣ e.sum / 2 ^ 30 ∧ (e.rawNsec < 1000000000 ∨ e.sec % 4 ≠ 3) := by
  obtain ⟨time, htime⟩ := Int.eq_ofNat_of_zero_le h.nonneg
  have hnear := h.near
  rw [htime] at hnear
  have hread (hdrMsg0 hdrMsg1 : BitVec 16) : readKtime cur (e.regs hdrMsg0 hdrMsg1) = some e.time ↔
      time / 1000000000 % 4 = e.sec % 4 + e.rawNsec / 1000000000 ∧ time % 1000000000 = e.rawNsec % 1000000000 := by
    obtain ⟨hsec, hnsec⟩ := e.regs_parts hdrMsg0 hdrMsg1
    rw [htime, ← hsec, ← hnsec]
    exact readKtime_iff hnear h.lt _
  have hsum : (time : Int) = e.sec * 1000000000 + e.rawNsec + e.sum / 2 ^ 30 * 1073741824 := by
    calc (time : Int) = e.sec * 1000000000 + e.sum := htime.symm
      _ = e.sec * 1000000000 + (e.rawNsec + e.sum / 2 ^ 30 * 2 ^ 30) := by rw [← e.sum_eq]
      _ = _ := by ring
  have hiff := parts_iff e.rawNsec_lt hsum
  exact ⟨fun hr => hiff.1 ((hread 0 0).1 (hr 0 0)), fun hp _ _ => (hread _ _).2 (hiff.2 hp)⟩

/-- An event at 3.9 s with 50 ms of correction, half a second later. -/
theorem readsTime_iff_ordinary : ReadsTime ⟨3, 900000000, 50000000, by decide⟩ 4450000000 :=
  (readsTime_iff ⟨by decide, by decide, by decide⟩).2 ⟨by decide, .inl (by decide)⟩

/-- The correction carries from the fourth second: there is no time. Or it borrows
from the first one: the time is more than a second late. -/
theorem not_readsTime :
    (¬ ReadsTime ⟨3, 999999990, 20, by decide⟩ 4000000500 ∧
      readKtime 4000000500 (Capture.regs ⟨3, 999999990, 20, by decide⟩ 0 0) = none) ∧
    (¬ ReadsTime ⟨1, 10, -20, by decide⟩ 1000000500 ∧
      readKtime 1000000500 (Capture.regs ⟨1, 10, -20, by decide⟩ 0 0) = some 2073741814) := by
  have hcarry : readKtime 4000000500 (Capture.regs ⟨3, 999999990, 20, by decide⟩ 0 0) = none := by decide
  have hborrow : readKtime 1000000500 (Capture.regs ⟨1, 10, -20, by decide⟩ 0 0) = some 2073741814 := by decide
  refine ⟨⟨fun h => ?_, hcarry⟩, fun h => ?_, hborrow⟩
  · exact nomatch hcarry.symm.trans (h 0 0)
  · exact absurd (hborrow.symm.trans (h 0 0)) (by decide)

end TsnSwitch.Com
