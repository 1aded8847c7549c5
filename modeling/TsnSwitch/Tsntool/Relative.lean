/-
`st configure` and `psfp gate configure` of tsntool (st.c, psfp.c) with a base time
relative to the current time.

The offset is added by hand. Which way the nanoseconds go is decided by `bt.sec > 0`,
where `bt.sec` is unsigned: it holds for every offset of a second or more, also
for a negative one, and for no offset below a second. The test for a time before
the epoch is made on the low 32 bits of the seconds.
-/
import TsnSwitch.Tsntool.PtpTime

namespace TsnSwitch.Tsntool

open Lib

/-! ## The functions -/

/-- What a command writes through the library. -/
inductive Call where
  | setAdminBaseTime (t : PtpTime)
  | setAdminCycleTime (numerator denominator : BitVec 32)
  | setAdminCycleTimeExtension (ext : BitVec 32)
  | setGateEnabled
  | setConfigChange
  deriving DecidableEq

/-- What a command meets: the answers of the library, and what is in its
variables before they are written. -/
structure Surroundings where
  cur : PtpTime
  bt : PtpTime
  basetime : PtpTime
  getListLength : Int × BitVec 32
  answer : Call → Int

/-- `(signed)t.sec`. -/
def PtpTime.signedSec (t : PtpTime) : Int := (t.sec.setWidth 32).toInt

/-- `(signed)cur.sec + (signed)bt.sec`; `none` where an `int` does not hold the sum. -/
def signedSum (cur bt : PtpTime) : Option Int :=
  let n := cur.signedSec + bt.signedSec
  if -2 ^ 31 ≤ n ∧ n < 2 ^ 31 then some n else none

/-- The test for a time before the beginning of the epoch. -/
def beforeEpoch (cur bt : PtpTime) : Option Bool :=
  (signedSum cur bt).map fun n => n < 0 ∨ (n ≤ 0 ∧ cur.nsec < bt.nsec)

def relativeTime (cur bt : PtpTime) : PtpTime :=
  let basetime : PtpTime := { sec := cur.sec + bt.sec }
  if 0#64 < bt.sec then
    let basetime := { basetime with nsec := cur.nsec + bt.nsec }
    if 1000000000#32 ≤ basetime.nsec then
      { sec := basetime.sec + 1, nsec := basetime.nsec - 1000000000#32 }
    else basetime
  else if bt.nsec < cur.nsec then { basetime with nsec := cur.nsec - bt.nsec }
  else { sec := basetime.sec - 1, nsec := cur.nsec + 1000000000#32 - bt.nsec }

/-- The base time with the items it counts for; an error leaves the command. -/
def resolveBaseTime (s : Surroundings) (arg : List Char) : Option (Except Int (PtpTime × Nat)) :=
  if arg.head? = some '+' ∨ arg.head? = some '-' then
    let (bt, items) := match strToPtpTime arg with
      | .ok bt => (bt, 2)
      | .error _ => (s.bt, 0)
    (beforeEpoch s.cur bt).map fun before =>
      if before then .error EPERM else .ok (relativeTime s.cur bt, items)
  else
    match strToPtpTime arg with
    | .ok basetime => some (.ok (basetime, 2))
    | .error _ => some (.ok (s.basetime, 0))

/-- A `long long` that is equal to its `uint32_t`. -/
def fitUint32 (n : Int) : Option (BitVec 32) :=
  if n = (BitVec.ofInt 32 n).toNat then some (BitVec.ofInt 32 n) else none

/-- `%lld/%lld`. -/
def scanCycleTime (arg : List Char) : Option (BitVec 32 × BitVec 32) :=
  match scan 10 arg with
  | some (numerator, '/' :: rest) =>
    match scan 10 rest with
    | some (denominator, _) =>
      match fitUint32 (long numerator), fitUint32 (long denominator) with
      | some numerator, some denominator => some (numerator, denominator)
      | _, _ => none
    | none => none
  | _ => none

/-- `%lld`. -/
def scanExtension (arg : List Char) : Option (BitVec 32) := (scan 10 arg).bind fun n => fitUint32 (long n.1)

/-- The calls up to the first that fails. -/
def runCalls (answer : Call → Int) : List Call → Int × List Call
  | [] => (0, [])
  | call :: calls =>
    if answer call ≠ 0 then (answer call, [call])
    else ((runCalls answer calls).1, call :: (runCalls answer calls).2)

/-- What both commands do from the base time on; `ret` is what they return if an
item is missing. -/
def configure (s : Surroundings) (basetime : PtpTime) (items : Nat) (argCycle argExt : List Char) (ret : Int) :
    Int × List Call :=
  match scanCycleTime argCycle, scanExtension argExt with
  | some (numerator, denominator), some ext =>
    if items + 3 ≠ 5 ∨ ret ≠ 0 then (ret, [])
    else runCalls s.answer
      [.setAdminBaseTime basetime, .setAdminCycleTime numerator denominator, .setAdminCycleTimeExtension ext,
        .setGateEnabled, .setConfigChange]
  | _, _ => (ret, [])

/-- `ret` is overwritten by what the length of the list returns. -/
def doStConfigure (s : Surroundings) (argTime argCycle argExt : List Char) : Option (Int × List Call) :=
  (resolveBaseTime s argTime).map fun
    | .error ret => (ret, [])
    | .ok (basetime, items) =>
      let ret := if s.getListLength.1 ≠ 0 ∨ s.getListLength.2 = 0 then EINVAL else s.getListLength.1
      configure s basetime items argCycle argExt ret

/-- Every call is made for the gate. -/
def doPsfpGateConfigure (s : Surroundings) (gate : BitVec 32) (argTime argCycle argExt : List Char) :
    Option (Int × List (BitVec 32 × Call)) :=
  (resolveBaseTime s argTime).map fun
    | .error ret => (ret, [])
    | .ok (basetime, items) =>
      let ret := if (scanCycleTime argCycle).isSome ∧ (scanExtension argExt).isSome then 0 else EINVAL
      ((configure s basetime items argCycle argExt ret).1,
        (configure s basetime items argCycle argExt ret).2.map fun call => (gate, call))

/-! ## What is asked -/

/-- A signed offset that `str_to_ptp_time` can read. -/
structure Offset where
  text : TimeText
  signed : text.sign ≠ []
  fits : text.chars.length < 64 ∧ text.seconds < 2 ^ 64 ∧ text.nanos.length ≤ 9

/-- A command with nothing amiss but for the base time. -/
structure Request where
  surroundings : Surroundings
  argCycle : List Char
  argExt : List Char
  /-- `nsec` is always below a second. -/
  cur_normal : surroundings.cur.nsec.toNat < 10 ^ 9
  cycle : (scanCycleTime argCycle).isSome
  ext : (scanExtension argExt).isSome
  list : surroundings.getListLength.1 = 0 ∧ surroundings.getListLength.2 ≠ 0

/-- The two commands. -/
inductive Command where
  | st
  | psfpGate (gate : BitVec 32)

/-- What a command returns and passes to the driver. -/
def Command.run (c : Command) (r : Request) (argTime : List Char) : Option (Int × List Call) :=
  match c with
  | .st => doStConfigure r.surroundings argTime r.argCycle r.argExt
  | .psfpGate gate =>
    (doPsfpGateConfigure r.surroundings gate argTime r.argCycle r.argExt).map fun p => (p.1, p.2.map Prod.snd)

def PtpTime.nanos (t : PtpTime) : Int := t.sec.toNat * 10 ^ 9 + t.nsec.toNat

def Offset.nanos (o : Offset) : Int :=
  if o.text.sign = ['-'] then -(o.text.seconds * 10 ^ 9 + o.text.nanoseconds : Int)
  else o.text.seconds * 10 ^ 9 + o.text.nanoseconds

/-- The command ends, and the base time that it passes is the current time and
the offset; it passes one unless that is before the epoch. -/
structure RelativeOk (c : Command) (r : Request) (o : Offset) : Prop where
  ends : ∃ p, c.run r o.text.chars = some p
  passed : ∀ p, c.run r o.text.chars = some p → ∀ t, Call.setAdminBaseTime t ∈ p.2 →
    t.nsec.toNat < 10 ^ 9 ∧ t.nanos = r.surroundings.cur.nanos + o.nanos
  given : ∀ p, c.run r o.text.chars = some p → 0 ≤ r.surroundings.cur.nanos + o.nanos →
    ∃ t, Call.setAdminBaseTime t ∈ p.2

/-- The test on 32 bits decides as one on the times would. -/
def EpochDecided (cur : PtpTime) (o : Offset) : Prop :=
  let n := cur.signedSec + o.text.time.signedSec
  (-2 ^ 31 ≤ n ∧ n < 2 ^ 31) ∧
    ((n < 0 ∨ (n ≤ 0 ∧ cur.nsec.toNat < o.text.nanoseconds)) ↔ cur.nanos + o.nanos < 0)

/-- The offsets whose nanoseconds go the right way, and do not make a whole second. -/
def RightWay (cur : PtpTime) (o : Offset) : Prop :=
  if o.text.sign = ['-'] then
    if o.text.seconds = 0 then cur.nsec.toNat ≠ o.text.nanoseconds else o.text.nanoseconds = 0
  else
    if o.text.seconds = 0 then o.text.nanoseconds = 0 ∧ cur.nsec.toNat ≠ 0
    else cur.nanos + o.nanos < 2 ^ 64 * 10 ^ 9

/-! ## Runs -/

section Runs

variable {answer : Call → Int}

theorem mem_runCalls {call : Call} {calls : List Call} (h : call ∈ (runCalls answer calls).2) : call ∈ calls := by
  induction calls with
  | nil => exact h
  | cons first calls ih =>
    rw [runCalls] at h
    split at h
    · rw [List.mem_singleton.1 h]
      exact List.mem_cons_self ..
    · rcases List.mem_cons.1 h with rfl | h
      · exact List.mem_cons_self ..
      · exact List.mem_cons_of_mem _ (ih h)

theorem head_mem_runCalls (call : Call) (calls : List Call) : call ∈ (runCalls answer (call :: calls)).2 := by
  rw [runCalls]
  split <;> exact List.mem_cons_self ..

/-- With all items there the base time that was resolved is passed, and no other. -/
theorem mem_configure {s : Surroundings} {basetime t : PtpTime} {argCycle argExt : List Char}
    (hcycle : (scanCycleTime argCycle).isSome) (hext : (scanExtension argExt).isSome) :
    Call.setAdminBaseTime t ∈ (configure s basetime 2 argCycle argExt 0).2 ↔ t = basetime := by
  obtain ⟨⟨numerator, denominator⟩, hcycle⟩ := Option.isSome_iff_exists.1 hcycle
  obtain ⟨ext, hext⟩ := Option.isSome_iff_exists.1 hext
  simp only [configure, hcycle, hext]
  rw [if_neg (by decide)]
  constructor
  · intro h
    simpa using mem_runCalls h
  · rintro rfl
    exact head_mem_runCalls _ _

theorem resolveBaseTime_offset (s : Surroundings) (o : Offset) : resolveBaseTime s o.text.chars =
    (beforeEpoch s.cur o.text.time).map fun before =>
      if before then .error EPERM else .ok (relativeTime s.cur o.text.time, 2) := by
  have hhead : o.text.chars.head? = some '+' ∨ o.text.chars.head? = some '-' := by
    rcases o.text.sign_mem with h | h | h
    · exact absurd h o.signed
    · exact .inl (by simp [TimeText.chars, h])
    · exact .inr (by simp [TimeText.chars, h])
  rw [resolveBaseTime, if_pos hhead, o.text.strToPtpTime_chars, if_pos o.fits]

/-- Where the test overflows there is no run; a time before the epoch, as the
test sees it, is not passed, and any other one is. -/
theorem run_offset (c : Command) (r : Request) (o : Offset) :
    match beforeEpoch r.surroundings.cur o.text.time with
    | none => c.run r o.text.chars = none
    | some true => c.run r o.text.chars = some (EPERM, [])
    | some false => ∃ p, c.run r o.text.chars = some p ∧
        ∀ t, Call.setAdminBaseTime t ∈ p.2 ↔ t = relativeTime r.surroundings.cur o.text.time := by
  have hresolve := resolveBaseTime_offset r.surroundings o
  cases hb : beforeEpoch r.surroundings.cur o.text.time with
  | none =>
    rw [hb] at hresolve
    cases c <;> simp [Command.run, doStConfigure, doPsfpGateConfigure, hresolve]
  | some before =>
    rw [hb] at hresolve
    cases before with
    | true => cases c <;> simp [Command.run, doStConfigure, doPsfpGateConfigure, hresolve]
    | false =>
      have hmem : ∀ t, Call.setAdminBaseTime t ∈ (configure r.surroundings
          (relativeTime r.surroundings.cur o.text.time) 2 r.argCycle r.argExt 0).2 ↔
            t = relativeTime r.surroundings.cur o.text.time := fun t => mem_configure r.cycle r.ext
      cases c with
      | st =>
        have hlist : (if r.surroundings.getListLength.1 ≠ 0 ∨ r.surroundings.getListLength.2 = 0 then EINVAL
            else r.surroundings.getListLength.1) = 0 := by
          rw [if_neg (not_or.2 ⟨not_not.2 r.list.1, r.list.2⟩), r.list.1]
        refine ⟨_, by simp only [Command.run, doStConfigure, hresolve]; rfl, fun t => ?_⟩
        simpa only [Bool.false_eq_true, if_false, hlist] using hmem t
      | psfpGate gate =>
        refine ⟨_, by simp only [Command.run, doPsfpGateConfigure, hresolve]; rfl, fun t => ?_⟩
        simpa [r.cycle, r.ext, List.map_map, Function.comp_def] using hmem t

end Runs

/-! ## Times -/

section Times

variable {cur : PtpTime} {o : Offset}

theorem time_nsec (o : Offset) : o.text.time.nsec.toNat = o.text.nanoseconds := by
  have hlt := o.text.nanoseconds_lt o.fits.2.2
  rw [TimeText.time, BitVec.toNat_ofNat, Nat.mod_eq_of_lt (by omega)]

/-- A minus takes the seconds from zero. -/
theorem time_sec (o : Offset) : o.text.time.sec.toNat =
    if o.text.sign = ['-'] ∧ o.text.seconds ≠ 0 then 2 ^ 64 - o.text.seconds else o.text.seconds := by
  have hlt := o.fits.2.1
  rw [TimeText.time]
  split
  · rename_i h
    simp only [h, true_and, BitVec.toNat_ofInt]
    split <;> omega
  · rename_i h
    rw [if_neg fun h' => h h'.1, BitVec.toNat_ofNat, Nat.mod_eq_of_lt hlt]

/-- The result in terms of the numbers that are added. -/
theorem relativeTime_toNat (bt : PtpTime) (hcur : cur.nsec.toNat < 10 ^ 9) (hbt : bt.nsec.toNat < 10 ^ 9) :
    let sec := (cur.sec.toNat + bt.sec.toNat) % 2 ^ 64
    let t := relativeTime cur bt
    if 0 < bt.sec.toNat then
      if 10 ^ 9 ≤ cur.nsec.toNat + bt.nsec.toNat then
        t.sec.toNat = (sec + 1) % 2 ^ 64 ∧ t.nsec.toNat = cur.nsec.toNat + bt.nsec.toNat - 10 ^ 9
      else t.sec.toNat = sec ∧ t.nsec.toNat = cur.nsec.toNat + bt.nsec.toNat
    else if bt.nsec.toNat < cur.nsec.toNat then t.sec.toNat = sec ∧ t.nsec.toNat = cur.nsec.toNat - bt.nsec.toNat
    else t.sec.toNat = (sec + (2 ^ 64 - 1)) % 2 ^ 64 ∧ t.nsec.toNat = cur.nsec.toNat + 10 ^ 9 - bt.nsec.toNat := by
  have hnsec : (cur.nsec + bt.nsec).toNat = cur.nsec.toNat + bt.nsec.toNat := by
    rw [BitVec.toNat_add, Nat.mod_eq_of_lt (by omega)]
  have hpos : 0#64 < bt.sec ↔ 0 < bt.sec.toNat := BitVec.lt_def
  have hcarry : 1000000000#32 ≤ cur.nsec + bt.nsec ↔ 10 ^ 9 ≤ cur.nsec.toNat + bt.nsec.toNat := by
    rw [BitVec.le_def, hnsec]
    rfl
  have hlt : bt.nsec < cur.nsec ↔ bt.nsec.toNat < cur.nsec.toNat := BitVec.lt_def
  simp only [relativeTime, hpos, hcarry, hlt]
  split_ifs with h₁ h₂ h₂
  · refine ⟨by simp, ?_⟩
    rw [BitVec.toNat_sub, hnsec]
    simp only [BitVec.toNat_ofNat]
    omega
  · exact ⟨by simp, hnsec⟩
  · refine ⟨by simp, ?_⟩
    rw [BitVec.toNat_sub]
    omega
  · rw [BitVec.toNat_sub, BitVec.toNat_sub, BitVec.toNat_add, BitVec.toNat_add]
    simp only [BitVec.ofNat_eq_ofNat, BitVec.toNat_ofNat]
    omega

/-- For a sum that is not before the epoch. -/
theorem relativeTime_iff (hcur : cur.nsec.toNat < 10 ^ 9) (hepoch : 0 ≤ cur.nanos + o.nanos) :
    ((relativeTime cur o.text.time).nsec.toNat < 10 ^ 9 ∧
      (relativeTime cur o.text.time).nanos = cur.nanos + o.nanos) ↔ RightWay cur o := by
  have hnanos := o.text.nanoseconds_lt o.fits.2.2
  have hseconds := o.fits.2.1
  have hsum := relativeTime_toNat o.text.time hcur (by rw [time_nsec]; exact hnanos)
  rw [time_nsec, time_sec] at hsum
  simp only [PtpTime.nanos, Offset.nanos, RightWay] at hepoch ⊢
  by_cases hminus : o.text.sign = ['-'] <;> by_cases hzero : o.text.seconds = 0
  · simp only [hminus, hzero, ne_eq, not_true_eq_false, and_false, if_false, if_true, Nat.lt_irrefl] at hsum hepoch ⊢
    split at hsum <;> omega
  · simp only [hminus, hzero, ne_eq, not_false_eq_true, and_self, if_false, if_true] at hsum hepoch ⊢
    rw [if_pos (by omega)] at hsum
    split at hsum <;> omega
  · simp only [hminus, hzero, false_and, if_false, if_true, Nat.lt_irrefl] at hsum hepoch ⊢
    split at hsum <;> omega
  · simp only [hminus, hzero, false_and, if_false] at hsum hepoch ⊢
    rw [if_pos (by omega)] at hsum
    split at hsum <;> omega

/-- What the test says where no `int` overflows. -/
theorem beforeEpoch_eq (cur : PtpTime) (o : Offset) : beforeEpoch cur o.text.time =
    let n := cur.signedSec + o.text.time.signedSec
    if -2 ^ 31 ≤ n ∧ n < 2 ^ 31 then
      some (decide (n < 0 ∨ (n ≤ 0 ∧ cur.nsec.toNat < o.text.nanoseconds)))
    else none := by
  simp only [beforeEpoch, signedSum, BitVec.lt_def, time_nsec]
  split <;> rfl

end Times

/-- **The base time that is passed** is the current time and the offset just when
the 32-bit test decides right and, unless the sum is before the epoch, the
nanoseconds go the right way. -/
theorem relativeOk_iff (c : Command) (r : Request) (o : Offset) : RelativeOk c r o ↔
    EpochDecided r.surroundings.cur o ∧
      (0 ≤ r.surroundings.cur.nanos + o.nanos → RightWay r.surroundings.cur o) := by
  have hrun := run_offset c r o
  rw [beforeEpoch_eq] at hrun
  simp only at hrun
  unfold EpochDecided
  simp only
  by_cases hint : -2 ^ 31 ≤ r.surroundings.cur.signedSec + o.text.time.signedSec ∧
      r.surroundings.cur.signedSec + o.text.time.signedSec < 2 ^ 31
  · rw [if_pos hint] at hrun
    by_cases hbefore : r.surroundings.cur.signedSec + o.text.time.signedSec < 0 ∨
        (r.surroundings.cur.signedSec + o.text.time.signedSec ≤ 0 ∧
          r.surroundings.cur.nsec.toNat < o.text.nanoseconds)
    · rw [decide_eq_true hbefore] at hrun
      constructor
      · intro h
        have hneg : r.surroundings.cur.nanos + o.nanos < 0 := by
          by_contra hpos
          obtain ⟨t, ht⟩ := h.given _ hrun (by omega)
          simp at ht
        exact ⟨⟨hint, iff_of_true hbefore hneg⟩, fun hpos => by omega⟩
      · intro ⟨⟨_, hdecided⟩, _⟩
        have hneg := hdecided.1 hbefore
        refine ⟨⟨_, hrun⟩, fun p hp t ht => ?_, fun p _ hpos => by omega⟩
        rw [hrun] at hp
        obtain rfl := Option.some.inj hp
        simp at ht
    · rw [decide_eq_false hbefore] at hrun
      obtain ⟨p, hp, hmem⟩ := hrun
      constructor
      · intro h
        have hpassed := h.passed p hp _ ((hmem _).2 rfl)
        have hpos : 0 ≤ r.surroundings.cur.nanos + o.nanos := by
          rw [← hpassed.2, PtpTime.nanos]
          omega
        exact ⟨⟨hint, iff_of_false hbefore (by omega)⟩, fun _ => (relativeTime_iff r.cur_normal hpos).1 hpassed⟩
      · intro ⟨⟨_, hdecided⟩, hright⟩
        have hpos : 0 ≤ r.surroundings.cur.nanos + o.nanos := by
          by_contra hneg
          exact hbefore (hdecided.2 (by omega))
        refine ⟨⟨p, hp⟩, fun p' hp' t ht => ?_, fun p' hp' _ => ?_⟩
        · obtain rfl := Option.some.inj (hp.symm.trans hp')
          rw [(hmem t).1 ht]
          exact (relativeTime_iff r.cur_normal hpos).2 (hright hpos)
        · obtain rfl := Option.some.inj (hp.symm.trans hp')
          exact ⟨_, (hmem _).2 rfl⟩
  · rw [if_neg hint] at hrun
    refine iff_of_false (fun h => ?_) fun h => hint h.1.1
    obtain ⟨p, hp⟩ := h.ends
    rw [hrun] at hp
    cases hp

def plusHalf : Offset where
  text := { sign := ['+'], secs := ['0'], fraction := some (['5'], []), sign_mem := by decide, secs_ne_nil := by decide,
            secs_digits := by simp [Digits], nanos_digits := by simp [Digits], rest_delim := by simp }
  signed := by decide
  fits := by decide

/-- A request at 100.7 s. -/
def lateRequest : Request where
  surroundings := { cur := ⟨100#64, 700000000#32⟩, bt := {}, basetime := {}, getListLength := (0, 1), answer := fun _ => 0 }
  argCycle := ['1', '/', '1', '0']
  argExt := ['0']
  cur_normal := by decide
  cycle := by decide
  ext := by decide
  list := by decide

/-- Half a second from 100.7 s on is 101.2 s, and 100.2 s is passed. -/
theorem plusHalf_passed (c : Command) : ∃ p, c.run lateRequest plusHalf.text.chars = some p ∧
    Call.setAdminBaseTime ⟨100#64, 200000000#32⟩ ∈ p.2 := by
  have hrun := run_offset c lateRequest plusHalf
  rw [show beforeEpoch lateRequest.surroundings.cur plusHalf.text.time = some false by decide] at hrun
  obtain ⟨p, hp, hmem⟩ := hrun
  exact ⟨p, hp, (hmem _).2 (by decide)⟩

theorem not_relativeOk_plusHalf :
    ¬ RelativeOk .st lateRequest plusHalf ∧ ¬ RelativeOk (.psfpGate 0#32) lateRequest plusHalf := by
  refine ⟨fun h => ?_, fun h => ?_⟩
  · obtain ⟨p, hp, hmem⟩ := plusHalf_passed .st
    exact absurd (h.passed p hp _ hmem).2 (by decide)
  · obtain ⟨p, hp, hmem⟩ := plusHalf_passed (.psfpGate 0#32)
    exact absurd (h.passed p hp _ hmem).2 (by decide)

end TsnSwitch.Tsntool
