/-
The base time on the command line of tsntool (`str_to_ptp_time`, util.c), and the
text `tsn_st_set_admin_base_time` and `tsn_psfp_gt_set_admin_base_time` write of it.

The seconds are what `strtoull` reads in front of the first point: a number of 64
bits, with a sign too. The nanoseconds can be missing, and are otherwise filled up
with zeros to nine characters.
-/
import TsnSwitch.Lib.Scan
import TsnSwitch.Sched.BaseTime

namespace TsnSwitch.Tsntool

open Lib

/-! ## The functions -/

/-- `struct tsn_st_ptp_time`. -/
structure PtpTime where
  sec : BitVec 64 := 0#64
  nsec : BitVec 32 := 0#32
  deriving DecidableEq

/-- The delimiters behind the nanoseconds. -/
def nsecDelims : List Char := ['\n', '\r', '\t', ' ']

/-- `memcpy(str_nsec, token, token_len)`. -/
def strNsec (token : List Char) : List Char := token ++ (List.replicate 9 '0').drop token.length

def strToPtpTime (buf : List Char) : Except Int PtpTime :=
  if 64 ≤ buf.length then .error EINVAL
  else match strtokSet ['.'] buf with
  | none => .error EINVAL
  | some (token, str) =>
    match strtoull token with
    | none => .error EINVAL
    | some sec =>
      match strtokSet nsecDelims str with
      | none => .ok { sec }
      | some (token, _) =>
        if 9 < token.length then .error EINVAL
        else match strtoull (strNsec token) with
        | none => .error EINVAL
        | some nsec => .ok { sec, nsec := nsec.setWidth 32 }

/-- What `%lu.%09u` prints. -/
def PtpTime.text (t : PtpTime) : List Char := decimal t.sec.toNat ++ '.' :: printWidth 9 t.nsec.toNat

/-! ## Texts of a time -/

/-- `[+|-]<seconds>[.<nanoseconds>]`, and anything after white space. -/
structure TimeText where
  sign : List Char
  secs : List Char
  fraction : Option (List Char × List Char)
  sign_mem : sign = [] ∨ sign = ['+'] ∨ sign = ['-']
  secs_ne_nil : secs ≠ []
  secs_digits : Digits secs
  nanos_digits : ∀ p, fraction = some p → Digits p.1
  rest_delim : ∀ p, fraction = some p → ∀ c, p.2.head? = some c → p.1 ≠ [] ∧ c ∈ nsecDelims

namespace TimeText

variable (s : TimeText)

def chars : List Char :=
  s.sign ++ s.secs ++ match s.fraction with
    | none => []
    | some (nanos, rest) => '.' :: (nanos ++ rest)

/-- The digits of the nanoseconds. -/
def nanos : List Char := (s.fraction.map Prod.fst).getD []

def seconds : Nat := Nat.ofDigitChars 10 s.secs 0

/-- The digits behind the point as a decimal fraction. -/
def nanoseconds : Nat := 10 ^ (9 - s.nanos.length) * Nat.ofDigitChars 10 s.nanos 0

/-- The time it stands for. A minus negates the seconds as `strtoull` does. -/
def time : PtpTime where
  sec := if s.sign = ['-'] then BitVec.ofInt 64 (-(s.seconds : Int)) else BitVec.ofNat 64 s.seconds
  nsec := BitVec.ofNat 32 s.nanoseconds

theorem digits_nanos : Digits s.nanos := by
  unfold nanos
  cases h : s.fraction with
  | none => exact fun c hc => nomatch hc
  | some p => exact s.nanos_digits p h

theorem nanoseconds_lt (h : s.nanos.length ≤ 9) : s.nanoseconds < 10 ^ 9 :=
  Sched.filled_lt s.digits_nanos (by omega)

/-! ## Reading -/

theorem digits_no_delim {ds : List Char} (hd : Digits ds) {c : Char} (hc : c ∈ ds) : c ∉ nsecDelims ∧ c ≠ '.' := by
  have hdigit := hd c hc
  constructor
  · intro hmem
    simp only [nsecDelims, List.mem_cons, List.not_mem_nil, or_false] at hmem
    rcases hmem with rfl | rfl | rfl | rfl <;> exact absurd hdigit (by decide)
  · intro hdot
    rw [hdot] at hdigit
    exact absurd hdigit (by decide)

/-- The first word is the seconds with their sign. -/
theorem strtokSet_chars : strtokSet ['.'] s.chars = some (s.sign ++ s.secs, match s.fraction with
    | none => []
    | some (nanos, rest) => nanos ++ rest) := by
  have hword : ∀ c ∈ s.sign ++ s.secs, c ∉ ['.'] := fun c hc hdot => by
    rw [List.mem_singleton.1 hdot] at hc
    rcases List.mem_append.1 hc with hc | hc
    · rcases s.sign_mem with h | h | h <;> rw [h] at hc <;> simp at hc
    · exact (digits_no_delim s.secs_digits hc).2 rfl
  have hne : s.sign ++ s.secs ≠ [] := by simp [s.secs_ne_nil]
  unfold chars
  cases s.fraction with
  | none => exact strtokSet_word hne hword (by simp)
  | some p => exact strtokSet_word hne hword (by simp)

theorem strtoull_secs : strtoull (s.sign ++ s.secs) = if s.seconds < 2 ^ 64 then some s.time.sec else none := by
  unfold strtoull time
  obtain ⟨hminus, hplus⟩ := scan_signed s.secs_ne_nil s.secs_digits
  rcases s.sign_mem with h | h | h <;> rw [h]
  · rw [List.nil_append, scan_digits s.secs_ne_nil s.secs_digits]
    simp [seconds]
  · rw [List.singleton_append, hplus]
    simp [seconds]
  · rw [List.singleton_append, hminus]
    simp [seconds]

theorem strtoull_strNsec (h : s.nanos.length ≤ 9) :
    strtoull (strNsec s.nanos) = some (BitVec.ofNat 64 s.nanoseconds) := by
  have hfill : strNsec s.nanos = s.nanos ++ List.replicate (9 - s.nanos.length) '0' := by
    rw [strNsec, List.drop_replicate]
  have hdigits : Digits (strNsec s.nanos) := fun c hc => by
    rw [hfill] at hc
    rcases List.mem_append.1 hc with hc | hc
    · exact s.digits_nanos c hc
    · rw [List.eq_of_mem_replicate hc]
      rfl
  have hne : strNsec s.nanos ≠ [] := List.ne_nil_of_length_pos (by simp [hfill]; omega)
  have hval : Nat.ofDigitChars 10 (strNsec s.nanos) 0 = s.nanoseconds := by
    rw [hfill, Sched.ofDigitChars_filled, nanoseconds]
  have hlt := s.nanoseconds_lt h
  rw [strtoull, scan_digits hne hdigits, hval]
  exact if_pos (by omega)

/-- What is behind the first word: no word where there are no nanoseconds. -/
theorem strtokSet_fraction : strtokSet nsecDelims (match s.fraction with
    | none => []
    | some (nanos, rest) => nanos ++ rest) = none ∧ s.nanos = [] ∨
    s.nanos ≠ [] ∧ ∃ rest, strtokSet nsecDelims (match s.fraction with
      | none => []
      | some (nanos, rest) => nanos ++ rest) = some (s.nanos, rest) := by
  unfold nanos
  cases h : s.fraction with
  | none => exact .inl ⟨rfl, rfl⟩
  | some p =>
    obtain ⟨nanos, rest⟩ := p
    have hdigits := s.nanos_digits _ h
    have hrest := s.rest_delim _ h
    by_cases hne : nanos = []
    · have hnil : rest = [] := by
        cases rest with
        | nil => rfl
        | cons c rest => exact absurd hne (hrest c rfl).1
      exact .inl ⟨by simp [hne, hnil, strtokSet], by simp [hne]⟩
    · refine .inr ⟨by simpa using hne, _, strtokSet_word hne (fun c hc => ?_) fun c hc => (hrest c hc).2⟩
      exact (digits_no_delim hdigits hc).1

/-- What becomes of a text of this form. -/
theorem strToPtpTime_chars : strToPtpTime s.chars =
    if s.chars.length < 64 ∧ s.seconds < 2 ^ 64 ∧ s.nanos.length ≤ 9 then .ok s.time else .error EINVAL := by
  rw [strToPtpTime, s.strtokSet_chars]
  by_cases hlen : s.chars.length < 64
  · rw [if_neg (by omega)]
    simp only [s.strtoull_secs]
    by_cases hsec : s.seconds < 2 ^ 64
    · rw [if_pos hsec]
      rcases s.strtokSet_fraction with ⟨hnone, hnil⟩ | ⟨hne, rest, hword⟩
      · simp only [hnone, hlen, hsec, hnil, true_and, List.length_nil, Nat.zero_le, if_true]
        simp [time, nanoseconds, hnil]
      · simp only [hword, hlen, hsec, true_and]
        by_cases hnanos : s.nanos.length ≤ 9
        · rw [if_neg (by omega), s.strtoull_strNsec hnanos, if_pos hnanos]
          simp [time]
        · rw [if_pos (by omega), if_neg hnanos]
    · rw [if_neg hsec, if_neg fun h => hsec h.2.1]
  · rw [if_pos (by omega), if_neg fun h => hlen h.1]

end TimeText

/-! ## What is asked -/

/-- The texts of this form that are taken, their time, and what the driver makes of
it: the same time, if its seconds are a number of a `time64_t`. -/
structure PtpTimeOk (s : TimeText) : Prop where
  accepted : (∃ t, strToPtpTime s.chars = .ok t) ↔ s.chars.length < 64 ∧ s.seconds < 2 ^ 64 ∧ s.nanos.length ≤ 9
  value : ∀ t, strToPtpTime s.chars = .ok t → t = s.time ∧ t.nsec.toNat = s.nanoseconds ∧ s.nanoseconds < 10 ^ 9
  roundTrip : ∀ t, strToPtpTime s.chars = .ok t → ∀ d : Sched.Driver,
    d.strtotimespec64 t.text =
      if t.sec.toNat < 2 ^ 63 then .ok ⟨t.sec.toNat, t.nsec.toNat⟩ else .error (-EINVAL)

/-- A time below a second is read back by both drivers. -/
theorem strtotimespec64_text (d : Sched.Driver) {t : PtpTime} (h : t.nsec.toNat < 10 ^ 9) :
    d.strtotimespec64 t.text = if t.sec.toNat < 2 ^ 63 then .ok ⟨t.sec.toNat, t.nsec.toNat⟩ else .error (-EINVAL) := by
  have hlen : t.text.length < 64 := by
    have hsec : (decimal t.sec.toNat).length ≤ 20 :=
      (Nat.length_toDigits_le_iff (by decide) (by decide)).2 (by omega)
    have hnsec := length_printWidth (by decide : 0 < 9) h
    simp only [PtpTime.text, List.length_append, List.length_cons]
    omega
  have hnul : NUL ∉ t.text := fun hmem => by
    rcases List.mem_append.1 hmem with hc | hc
    · exact absurd (isDigit_toDigits _ _ hc) (by decide)
    · rcases List.mem_cons.1 hc with hc | hc
      · exact absurd hc (by decide)
      · exact absurd (digits_printWidth 9 _ _ hc) (by decide)
  rw [d.strtotimespec64_of_str (d.str_short hlen hnul)]
  have hread := @Sched.strtotimespec64_printed t.sec.toNat _ h [] (by simp)
  rwa [List.append_nil] at hread

/-- **Every text of a time** is taken if its parts fit, for the time that it stands
for, and the driver reads that time from what the library writes. -/
theorem ptpTimeOk (s : TimeText) : PtpTimeOk s := by
  have hread := s.strToPtpTime_chars
  have hok : ∀ t, strToPtpTime s.chars = .ok t → t = s.time ∧ t.nsec.toNat = s.nanoseconds ∧ s.nanoseconds < 10 ^ 9 := by
    intro t ht
    rw [hread] at ht
    split at ht
    · rename_i h
      have hlt := s.nanoseconds_lt h.2.2
      obtain rfl := Except.ok.inj ht
      refine ⟨rfl, ?_, hlt⟩
      rw [TimeText.time, BitVec.toNat_ofNat, Nat.mod_eq_of_lt (by omega)]
    · exact nomatch ht
  refine ⟨?_, hok, fun t ht d => ?_⟩
  · rw [hread]
    split
    · rename_i h
      exact ⟨fun _ => h, fun _ => ⟨_, rfl⟩⟩
    · rename_i h
      exact iff_of_false (fun ⟨_, ht⟩ => by cases ht) h
  · obtain ⟨-, hnsec, hlt⟩ := hok t ht
    exact strtotimespec64_text d (by omega)

/-- `seconds.nanoseconds` with decimal digits only, the nanoseconds below a second. -/
def PlainTime (buf : List Char) : Prop :=
  ∃ secs nanos, buf = secs ++ '.' :: nanos ∧ secs ≠ [] ∧ nanos ≠ [] ∧ Digits secs ∧ Digits nanos ∧
    Nat.ofDigitChars 10 nanos 0 < 10 ^ 9

theorem PlainTime.mem {buf : List Char} (h : PlainTime buf) : '.' ∈ buf ∧ ∀ c ∈ buf, c.isDigit = true ∨ c = '.' := by
  obtain ⟨secs, nanos, rfl, -, -, hsecs, hnanos, -⟩ := h
  refine ⟨by simp, fun c hc => ?_⟩
  rcases List.mem_append.1 hc with hc | hc
  · exact .inl (hsecs c hc)
  · rcases List.mem_cons.1 hc with hc | hc
    · exact .inr hc
    · exact .inl (hnanos c hc)

/-- An offset to the current time and a time without nanoseconds are taken; a number of
seconds that no `uint64_t` holds is not, and one that no `time64_t` holds is not
read by the driver. -/
theorem not_only_plainTimes :
    (strToPtpTime "-1.5".toList = .ok ⟨-1#64, 500000000#32⟩ ∧ ¬ PlainTime "-1.5".toList) ∧
    (strToPtpTime "5".toList = .ok ⟨5#64, 0#32⟩ ∧ ¬ PlainTime "5".toList) ∧
    (strToPtpTime "18446744073709551616.0".toList = .error EINVAL ∧ PlainTime "18446744073709551616.0".toList) ∧
    (strToPtpTime "9223372036854775808.0".toList = .ok ⟨9223372036854775808#64, 0#32⟩ ∧
      ∀ d : Sched.Driver, d.strtotimespec64 (PtpTime.text ⟨9223372036854775808#64, 0#32⟩) = .error (-EINVAL)) := by
  refine ⟨⟨by decide, fun h => ?_⟩, ⟨by decide, fun h => ?_⟩, ⟨by decide, ?_⟩, by decide, fun d => ?_⟩
  · exact absurd (h.mem.2 '-' (by decide)) (by decide)
  · exact absurd h.mem.1 (by decide)
  · exact ⟨"18446744073709551616".toList, ['0'], by decide, by decide, by decide, by simp [Digits], by simp [Digits], by decide⟩
  · rw [strtotimespec64_text d (by decide)]
    rfl

end TsnSwitch.Tsntool
