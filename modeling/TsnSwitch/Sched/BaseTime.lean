/-
The text of a base time: `edgx_sched_strtotimespec64` of edge_st_fscr.c and its
copy in edge_st_fsc.c, with the attribute that shows and stores the admin base
time.

The nanoseconds are filled up with zeros to nine characters and then read as
any number, so they may have a sign: it takes the place of a digit, and a minus
gives negative nanoseconds (`baseTimeOk_iff`).
-/
import TsnSwitch.Lib.Kstrto
import TsnSwitch.Sched.Gates
import TsnSwitch.Sched.StartTime

namespace TsnSwitch.Sched

open Lib

/-! ## The functions -/

/-- The string in a buffer. -/
def cString (buf : List Char) : List Char := buf.takeWhile (· != NUL)

/-- `str_nsec`, which holds nine characters. At any precision a zero has a digit. -/
def strNsec (token : List Char) : List Char := (token ++ List.replicate (max 1 (9 - token.length)) '0').take 9

/-- What both copies do with the string. -/
def strtotimespec64 (str : List Char) : Except Int Timespec :=
  let (token, strP) := strsep ['.'] str
  match kstrtoll token with
  | none => .error (-EINVAL)
  | some sec =>
    match strP with
    | none => .ok ⟨sec, 0⟩
    | some strP =>
      let token := (strsep ['\n', '\r', '\t', ' '] strP).1
      if token.length > 9 then .error (-EINVAL)
      else match kstrtoll (strNsec token) with
      | none => .error (-EINVAL)
      | some nsec => .ok ⟨sec, nsec⟩

/-- `strscpy(str, buf, sizeof(str))`. -/
def strscpyStr (buf : List Char) : Option (List Char) :=
  if (cString buf).length < 64 then some (cString buf) else none

def edgxSchedStrtotimespec64 (buf : List Char) : Except Int Timespec :=
  match strscpyStr buf with
  | none => .error (-E2BIG)
  | some str => strtotimespec64 str

/-- This copy cuts a long text off. -/
def Fsc.strncpyStr (buf : List Char) : List Char := cString (buf.take (min 63 buf.length))

def Fsc.edgxSchedStrtotimespec64 (buf : List Char) : Except Int Timespec := strtotimespec64 (Fsc.strncpyStr buf)

def adminBaseTimeStore (s : EdgxSched) (buf : List Char) : Int × EdgxSched :=
  match edgxSchedStrtotimespec64 buf with
  | .error ret => (ret, s)
  | .ok baseTime =>
    let (ret, s) := edgxSchedSetBaseTime s baseTime
    (if ret ≠ 0 then ret else buf.length, s)

def Fsc.adminBaseTimeStore (s : EdgxSched) (buf : List Char) : Int × EdgxSched :=
  match Fsc.edgxSchedStrtotimespec64 buf with
  | .error ret => (ret, s)
  | .ok baseTime => (buf.length, { s with adminTab := { s.adminTab with baseTime } })

/-- The text `%lld.%09li` and a line end print. -/
def baseTimeText (t : Timespec) : List Char := decimal t.sec ++ '.' :: (printWidth 9 t.nsec ++ ['\n'])

def adminBaseTimeShow (s : EdgxSched) : List Char := baseTimeText s.adminTab.baseTime

namespace Driver

def strtotimespec64 : Driver → List Char → Except Int Timespec
  | .fscr => edgxSchedStrtotimespec64
  | .fsc => Fsc.edgxSchedStrtotimespec64

def adminBaseTimeStore : Driver → EdgxSched → List Char → Int × EdgxSched
  | .fscr => Sched.adminBaseTimeStore
  | .fsc => Fsc.adminBaseTimeStore

/-- The string that is read. -/
def str : Driver → List Char → Option (List Char)
  | .fscr, buf => strscpyStr buf
  | .fsc, buf => some (Fsc.strncpyStr buf)

end Driver

/-! ## What is asked -/

/-- The text of the nanoseconds, if there is one. -/
def nanosText (str : List Char) : Option (List Char) :=
  (strsep ['.'] str).2.map fun rest => (strsep ['\n', '\r', '\t', ' '] rest).1

/-- The printed text of every normalised time is read as that time. From this
buffer only a normalised time is read, and only from at most nine digits of
nanoseconds. -/
structure BaseTimeOk (d : Driver) (buf : List Char) : Prop where
  roundTrip : ∀ t : Timespec, t.Normal → 0 ≤ t.sec → t.sec < 2 ^ 63 → d.strtotimespec64 (baseTimeText t) = .ok t
  normal : ∀ t, d.strtotimespec64 buf = .ok t → t.Normal
  wellFormed : ∀ t, d.strtotimespec64 buf = .ok t → ∀ str, d.str buf = some str →
    ∀ nanos, nanosText str = some nanos → nanos.length ≤ 9 ∧ Digits nanos

/-- The seconds are a number, and the nanoseconds a sign with at most eight digits. -/
def SignedNanos (str : List Char) : Prop :=
  (kstrtoll (strsep ['.'] str).1).isSome ∧
    ∃ c ds, nanosText str = some (c :: ds) ∧ (c = '-' ∨ c = '+') ∧ ds.length ≤ 8 ∧ Digits ds

/-! ## The nanoseconds -/

section Nanos

variable {token ds : List Char}

theorem strNsec_eq (h : token.length ≤ 9) : strNsec token = token ++ List.replicate (9 - token.length) '0' := by
  rw [strNsec, List.take_append, List.take_of_length_le h, List.take_replicate]
  congr 2
  omega

theorem strNsec_cons {c : Char} (h : ds.length ≤ 8) : strNsec (c :: ds) = c :: (ds ++ List.replicate (8 - ds.length) '0') := by
  have hlen : 9 - (c :: ds).length = 8 - ds.length := by
    rw [List.length_cons]
    omega
  rw [strNsec_eq (by rw [List.length_cons]; omega), hlen, List.cons_append]

theorem ofDigitChars_filled (ds : List Char) (k : Nat) :
    Nat.ofDigitChars 10 (ds ++ List.replicate k '0') 0 = 10 ^ k * Nat.ofDigitChars 10 ds 0 := by
  rw [Nat.ofDigitChars_append, Nat.ofDigitChars_replicate_zero]

theorem filled_lt {k : Nat} (hd : Digits ds) (hmax : ds.length + k ≤ 9) : 10 ^ k * Nat.ofDigitChars 10 ds 0 < 10 ^ 9 := by
  calc 10 ^ k * Nat.ofDigitChars 10 ds 0 < 10 ^ k * 10 ^ ds.length :=
        Nat.mul_lt_mul_of_pos_left (ofDigitChars_lt hd) (Nat.pow_pos (by decide))
    _ = 10 ^ (ds.length + k) := by rw [Nat.add_comm, Nat.pow_add]
    _ ≤ 10 ^ 9 := Nat.pow_le_pow_right (by decide) hmax

/-- A text without a line end, filled up with zeros to at most nine characters. -/
theorem kstrtoDigits_filled {k : Nat} (hnl : '\n' ∉ ds) (hlen : 0 < ds.length + k) (hmax : ds.length + k ≤ 9) (n : Nat) :
    kstrtoDigits (ds ++ List.replicate k '0') = some n ↔ Digits ds ∧ n = 10 ^ k * Nat.ofDigitChars 10 ds 0 := by
  rw [kstrtoDigits_iff]
  constructor
  · intro ⟨es, hne, hd, hs, hn, _⟩
    have heq : ds ++ List.replicate k '0' = es := hs.resolve_right fun heq => by
      have hmem : '\n' ∈ ds ++ List.replicate k '0' := heq ▸ List.mem_append_right es (List.mem_singleton_self _)
      rcases List.mem_append.1 hmem with hm | hm
      · exact hnl hm
      · exact absurd (List.eq_of_mem_replicate hm) (by decide)
    rw [← heq, ofDigitChars_filled] at hn
    exact ⟨fun c hc => hd c (heq ▸ List.mem_append_left _ hc), hn⟩
  · intro ⟨hd, hn⟩
    have hlt := filled_lt hd hmax
    refine ⟨_, fun hnil => ?_, fun c hc => ?_, .inl rfl, hn.trans (ofDigitChars_filled ds k).symm, by omega⟩
    · have hzero := congrArg List.length hnil
      rw [List.length_append, List.length_replicate, List.length_nil] at hzero
      omega
    · rcases List.mem_append.1 hc with hc | hc
      · exact hd c hc
      · rw [List.eq_of_mem_replicate hc]
        rfl

/-- No check of the size fails for such a text. -/
theorem bind_filled {k : Nat} (hnl : '\n' ∉ ds) (hlen : 0 < ds.length + k) (hmax : ds.length + k ≤ 9)
    {f : Nat → Option Int} {g : Nat → Int} (hf : ∀ n < 10 ^ 9, f n = some (g n)) (i : Int) :
    (kstrtoDigits (ds ++ List.replicate k '0')).bind f = some i ↔
      Digits ds ∧ i = g (10 ^ k * Nat.ofDigitChars 10 ds 0) := by
  simp only [Option.bind_eq_some_iff, kstrtoDigits_filled hnl hlen hmax]
  constructor
  · intro ⟨n, ⟨hd, hn⟩, hi⟩
    rw [hn, hf _ (filled_lt hd hmax)] at hi
    exact ⟨hd, (Option.some.inj hi).symm⟩
  · intro ⟨hd, hi⟩
    exact ⟨_, ⟨hd, rfl⟩, hi ▸ hf _ (filled_lt hd hmax)⟩

theorem kstrtoll_nsec (hminus : token.head? ≠ some '-') (hplus : token.head? ≠ some '+') (hnl : '\n' ∉ token)
    (h : token.length ≤ 9) (n : Int) : kstrtoll (strNsec token) = some n ↔
      Digits token ∧ n = (10 ^ (9 - token.length) * Nat.ofDigitChars 10 token 0 : Nat) := by
  have hhead : ∀ c, c ≠ '0' → token.head? ≠ some c →
      (token ++ List.replicate (9 - token.length) '0').head? ≠ some c := fun c hc hne => by
    cases token with
    | nil => exact fun heq => hc (Option.some.inj heq).symm
    | cons d token => exact hne
  rw [strNsec_eq h, kstrtoll_unsigned (hhead _ (by decide) hminus) (hhead _ (by decide) hplus)]
  exact bind_filled hnl (by omega) (by omega) (fun n hn => if_neg (by omega)) n

/-- A sign takes the place of a digit. -/
theorem kstrtoll_nsec_minus (hnl : '\n' ∉ ds) (h : ds.length ≤ 8) (n : Int) : kstrtoll (strNsec ('-' :: ds)) = some n ↔
    Digits ds ∧ n = -(10 ^ (8 - ds.length) * Nat.ofDigitChars 10 ds 0 : Nat) := by
  rw [strNsec_cons h, kstrtoll_minus]
  exact bind_filled hnl (by omega) (by omega) (fun n hn => if_neg (by omega)) n

theorem kstrtoll_nsec_plus (hnl : '\n' ∉ ds) (h : ds.length ≤ 8) (n : Int) : kstrtoll (strNsec ('+' :: ds)) = some n ↔
    Digits ds ∧ n = (10 ^ (8 - ds.length) * Nat.ofDigitChars 10 ds 0 : Nat) := by
  rw [strNsec_cons h, kstrtoll_plus]
  exact bind_filled hnl (by omega) (by omega) (fun n hn => if_neg (by omega)) n

end Nanos

/-! ## Texts -/

section Texts

variable {str : List Char} {t : Timespec}

/-- Both parts are numbers. -/
theorem strtotimespec64_ok_iff : strtotimespec64 str = .ok t ↔
    kstrtoll (strsep ['.'] str).1 = some t.sec ∧
      match nanosText str with
      | none => t.nsec = 0
      | some nanos => nanos.length ≤ 9 ∧ kstrtoll (strNsec nanos) = some t.nsec := by
  rw [strtotimespec64, nanosText]
  obtain ⟨token, strP⟩ := strsep ['.'] str
  obtain ⟨sec', nsec'⟩ := t
  dsimp only
  cases kstrtoll token with
  | none => simp
  | some sec =>
  cases strP with
  | none => simp [eq_comm]
  | some strP =>
  simp only [Option.map_some, Option.some.injEq]
  generalize (strsep ['\n', '\r', '\t', ' '] strP).1 = nanos
  split
  · rename_i hlong
    simp [Nat.not_le_of_lt hlong]
  · rename_i hshort
    cases kstrtoll (strNsec nanos) <;> simp [Nat.le_of_not_lt hshort]

theorem newline_not_mem_nanos {nanos : List Char} (h : nanosText str = some nanos) : '\n' ∉ nanos := by
  obtain ⟨rest, -, rfl⟩ := Option.map_eq_some_iff.1 h
  exact fun hmem => not_mem_strsep hmem (List.mem_cons_self ..)

/-- What the nanoseconds are read as. -/
theorem nsec_cases (h : strtotimespec64 str = .ok t) {nanos : List Char} (hn : nanosText str = some nanos) :
    (nanos.length ≤ 9 ∧ Digits nanos ∧ t.nsec = (10 ^ (9 - nanos.length) * Nat.ofDigitChars 10 nanos 0 : Nat)) ∨
      ∃ c ds, nanos = c :: ds ∧ (c = '-' ∨ c = '+') ∧ ds.length ≤ 8 ∧ Digits ds ∧
        t.nsec = (if c = '-' then -1 else 1) * (10 ^ (8 - ds.length) * Nat.ofDigitChars 10 ds 0 : Nat) := by
  have hnl := newline_not_mem_nanos hn
  have hok := (strtotimespec64_ok_iff.1 h).2
  rw [hn] at hok
  obtain ⟨hlen, hnsec⟩ := hok
  by_cases hminus : nanos.head? = some '-'
  · obtain ⟨ds, rfl⟩ := List.head?_eq_some_iff.1 hminus
    rw [List.length_cons] at hlen
    obtain ⟨hd, hval⟩ := (kstrtoll_nsec_minus (fun hm => hnl (List.mem_cons_of_mem _ hm)) (by omega) _).1 hnsec
    exact .inr ⟨'-', ds, rfl, .inl rfl, by omega, hd, by rw [hval, if_pos rfl, neg_one_mul]⟩
  · by_cases hplus : nanos.head? = some '+'
    · obtain ⟨ds, rfl⟩ := List.head?_eq_some_iff.1 hplus
      rw [List.length_cons] at hlen
      obtain ⟨hd, hval⟩ := (kstrtoll_nsec_plus (fun hm => hnl (List.mem_cons_of_mem _ hm)) (by omega) _).1 hnsec
      exact .inr ⟨'+', ds, rfl, .inr rfl, by omega, hd, by rw [hval, if_neg (by decide), one_mul]⟩
    · obtain ⟨hd, hval⟩ := (kstrtoll_nsec hminus hplus hnl hlen _).1 hnsec
      exact .inl ⟨hlen, hd, hval⟩

/-- Signs are accepted. -/
theorem ok_of_signed (hs : SignedNanos str) : ∃ t, strtotimespec64 str = .ok t := by
  obtain ⟨hsec, c, ds, hn, hc, hlen, hd⟩ := hs
  obtain ⟨sec, hsec⟩ := Option.isSome_iff_exists.1 hsec
  have hnl : '\n' ∉ ds := fun hm => newline_not_mem_nanos hn (List.mem_cons_of_mem _ hm)
  have hnsec : ∃ nsec, kstrtoll (strNsec (c :: ds)) = some nsec := by
    rcases hc with rfl | rfl
    · exact ⟨_, (kstrtoll_nsec_minus hnl hlen _).2 ⟨hd, rfl⟩⟩
    · exact ⟨_, (kstrtoll_nsec_plus hnl hlen _).2 ⟨hd, rfl⟩⟩
  obtain ⟨nsec, hnsec⟩ := hnsec
  refine ⟨⟨sec, nsec⟩, strtotimespec64_ok_iff.2 ⟨hsec, ?_⟩⟩
  rw [hn]
  exact ⟨Nat.succ_le_succ hlen, hnsec⟩

/-- A time is not normalised just when a minus is before a number other than zero. -/
theorem normal_iff (h : strtotimespec64 str = .ok t) :
    t.Normal ↔ ∀ ds, nanosText str = some ('-' :: ds) → Nat.ofDigitChars 10 ds 0 = 0 := by
  constructor
  · intro hnormal ds hn
    rcases nsec_cases h hn with ⟨-, hd, -⟩ | ⟨c, ds', heq, -, -, -, hval⟩
    · exact absurd (hd '-' (List.mem_cons_self ..)) (by decide)
    · obtain ⟨rfl, rfl⟩ := List.cons.inj heq
      rw [if_pos rfl] at hval
      have h0 := hnormal.1
      refine (Nat.mul_eq_zero.1 (show 10 ^ (8 - ds.length) * Nat.ofDigitChars 10 ds 0 = 0 by omega)).resolve_left ?_
      exact (Nat.pow_pos (by decide)).ne'
  · intro hzero
    cases hn : nanosText str with
    | none =>
      have hok := (strtotimespec64_ok_iff.1 h).2
      rw [hn] at hok
      rw [Timespec.Normal, hok]
      decide
    | some nanos =>
      rcases nsec_cases h hn with ⟨hlen, hd, hval⟩ | ⟨c, ds, rfl, hc, hlen, hd, hval⟩
      · have hlt := filled_lt (k := 9 - nanos.length) hd (by omega)
        rw [Timespec.Normal, hval, NSEC_PER_SEC]
        omega
      · have hlt := filled_lt (k := 8 - ds.length) hd (by omega)
        rw [Timespec.Normal, hval, NSEC_PER_SEC]
        rcases hc with rfl | rfl
        · rw [hzero ds hn, Nat.mul_zero, Nat.cast_zero, mul_zero]
          decide
        · rw [if_neg (by decide)]
          omega

/-- Without a sign the nanoseconds are at most nine digits. -/
theorem digits_of_unsigned (h : strtotimespec64 str = .ok t) (hs : ¬ SignedNanos str) {nanos : List Char}
    (hn : nanosText str = some nanos) : nanos.length ≤ 9 ∧ Digits nanos := by
  rcases nsec_cases h hn with ⟨hlen, hd, -⟩ | ⟨c, ds, rfl, hc, hlen, hd, -⟩
  · exact ⟨hlen, hd⟩
  · exact absurd ⟨by rw [(strtotimespec64_ok_iff.1 h).1]; rfl, c, ds, hn, hc, hlen, hd⟩ hs

theorem not_digits_of_signed (hs : SignedNanos str) : ∃ nanos, nanosText str = some nanos ∧ ¬ Digits nanos := by
  obtain ⟨-, c, ds, hn, hc, -⟩ := hs
  refine ⟨_, hn, fun hd => ?_⟩
  have hdigit := hd c (List.mem_cons_self ..)
  rcases hc with rfl | rfl <;> exact absurd hdigit (by decide)

end Texts

/-! ## Round trip -/

section RoundTrip

/-- Digits, the separator and the line end. -/
theorem mem_baseTimeText {sec nsec : Nat} {c : Char} (h : c ∈ baseTimeText ⟨sec, nsec⟩) :
    c.isDigit = true ∨ c = '.' ∨ c = '\n' := by
  rcases List.mem_append.1 h with h | h
  · exact .inl (isDigit_toDigits sec c h)
  · rcases List.mem_cons.1 h with h | h
    · exact .inr (.inl h)
    · rcases List.mem_append.1 h with h | h
      · exact .inl (digits_printWidth 9 nsec c h)
      · exact .inr (.inr (List.mem_singleton.1 h))

theorem length_baseTimeText {sec nsec : Nat} (hsec : sec < 2 ^ 63) (hnsec : nsec < 10 ^ 9) :
    (baseTimeText ⟨sec, nsec⟩).length ≤ 30 := by
  have hlen : (decimal sec).length ≤ 19 := (Nat.length_toDigits_le_iff (by decide) (by decide)).2 (by omega)
  have hsplit : (baseTimeText ⟨sec, nsec⟩).length = (decimal sec).length + (printWidth 9 nsec).length + 2 := by
    simp only [baseTimeText, List.length_append, List.length_cons, List.length_nil]
    omega
  rw [hsplit, length_printWidth (by decide) hnsec]
  omega

/-- What is printed is read back, with a line end or without, if a `time64_t` can hold it. -/
theorem strtotimespec64_printed (sec : Nat) {nsec : Nat} (hnsec : nsec < 10 ^ 9) {rest : List Char}
    (hrest : ∀ c, rest.head? = some c → c ∈ ['\n', '\r', '\t', ' ']) :
    strtotimespec64 (decimal sec ++ '.' :: (printWidth 9 nsec ++ rest)) =
      if sec < 2 ^ 63 then .ok ⟨sec, nsec⟩ else .error (-EINVAL) := by
  have hdsec : Digits (decimal sec) := isDigit_toDigits sec
  have hdnsec := digits_printWidth 9 nsec
  have hlen := length_printWidth (by decide : 0 < 9) hnsec
  have hval : Nat.ofDigitChars 10 (decimal sec) 0 = sec := Nat.ofDigitChars_ten_toDigits
  have hcut : strsep ['.'] (decimal sec ++ '.' :: (printWidth 9 nsec ++ rest)) =
      (decimal sec, some (printWidth 9 nsec ++ rest)) :=
    strsep_append (fun c hc hdot => by
      have hdigit := hdsec c hc
      rw [List.mem_singleton.1 hdot] at hdigit
      exact absurd hdigit (by decide)) (List.mem_singleton_self _) _
  have hnanos : (strsep ['\n', '\r', '\t', ' '] (printWidth 9 nsec ++ rest)).1 = printWidth 9 nsec :=
    strsep_word (fun c hc hws => by
      have hdigit := hdnsec c hc
      simp only [List.mem_cons, List.not_mem_nil, or_false] at hws
      rcases hws with rfl | rfl | rfl | rfl <;> exact absurd hdigit (by decide)) hrest
  split
  · rename_i hsec
    have hsecs : kstrtoll (decimal sec) = some (sec : Int) := by
      have hne : decimal sec ≠ [] := Nat.toDigits_ne_nil
      rw [kstrtoll_digits hne hdsec (by rw [hval]; exact hsec), hval]
    have hnsecs : kstrtoll (strNsec (printWidth 9 nsec)) = some (nsec : Int) := by
      refine (kstrtoll_nsec (hdnsec.head? rfl) (hdnsec.head? rfl) (fun hm => ?_) hlen.le _).2 ⟨hdnsec, ?_⟩
      · exact absurd (hdnsec _ hm) (by decide)
      · rw [hlen, ofDigitChars_printWidth, Nat.sub_self, Nat.pow_zero, Nat.one_mul]
    refine strtotimespec64_ok_iff.2 ?_
    rw [nanosText, hcut, Option.map_some, hnanos]
    exact ⟨hsecs, hlen.le, hnsecs⟩
  · rename_i hsec
    simp only [strtotimespec64, hcut, kstrtoll_large hdsec (by rw [hval]; exact Nat.le_of_not_lt hsec)]

theorem strtotimespec64_baseTimeText {sec nsec : Nat} (hsec : sec < 2 ^ 63) (hnsec : nsec < 10 ^ 9) :
    strtotimespec64 (baseTimeText ⟨sec, nsec⟩) = .ok ⟨sec, nsec⟩ := by
  rw [baseTimeText, strtotimespec64_printed sec hnsec (by simp), if_pos hsec]

/-- Both drivers read all of a short text. -/
theorem Driver.str_short (d : Driver) {text : List Char} (hlen : text.length < 64) (hnul : NUL ∉ text) :
    d.str text = some text := by
  have hstr : cString text = text :=
    List.takeWhile_eq_self_iff.2 fun c hc => bne_iff_ne.2 fun h => hnul (h ▸ hc)
  cases d with
  | fscr => exact (if_pos (by rw [hstr]; exact hlen)).trans (congrArg some hstr)
  | fsc => rw [Driver.str, Fsc.strncpyStr, List.take_of_length_le (by omega), hstr]

theorem str_baseTimeText (d : Driver) {sec nsec : Nat} (hsec : sec < 2 ^ 63) (hnsec : nsec < 10 ^ 9) :
    d.str (baseTimeText ⟨sec, nsec⟩) = some (baseTimeText ⟨sec, nsec⟩) := by
  have hlen := length_baseTimeText hsec hnsec
  refine d.str_short (by omega) fun hmem => ?_
  rcases mem_baseTimeText hmem with h | h | h <;> exact absurd h (by decide)

end RoundTrip

/-! ## The drivers -/

theorem Driver.strtotimespec64_ok_iff (d : Driver) {buf : List Char} {t : Timespec} :
    d.strtotimespec64 buf = .ok t ↔ ∃ str, d.str buf = some str ∧ Sched.strtotimespec64 str = .ok t := by
  cases d with
  | fscr =>
    rw [Driver.strtotimespec64, edgxSchedStrtotimespec64, Driver.str]
    cases strscpyStr buf <;> simp
  | fsc => simp [Driver.strtotimespec64, Fsc.edgxSchedStrtotimespec64, Driver.str]

theorem Driver.strtotimespec64_of_str (d : Driver) {buf str : List Char} (h : d.str buf = some str) :
    d.strtotimespec64 buf = Sched.strtotimespec64 str := by
  cases d with
  | fscr =>
    rw [Driver.strtotimespec64, edgxSchedStrtotimespec64, show strscpyStr buf = some str from h]
  | fsc => rw [Driver.strtotimespec64, Fsc.edgxSchedStrtotimespec64, show Fsc.strncpyStr buf = str from Option.some.inj h]

/-- An accepted base time is stored, and nothing otherwise. -/
theorem Driver.adminBaseTimeStore_eq (d : Driver) (s : EdgxSched) (buf : List Char) :
    d.adminBaseTimeStore s buf = match d.strtotimespec64 buf with
      | .error ret => (ret, s)
      | .ok baseTime => (buf.length, { s with adminTab := { s.adminTab with baseTime } }) := by
  cases d <;> rfl

/-- **The text format is that of normalised times** just when no sign is read in
the nanoseconds: every printed time is read back, and only a sign lets a
malformed text, or one of a time that is not normalised, be accepted. -/
theorem baseTimeOk_iff (d : Driver) (buf : List Char) :
    BaseTimeOk d buf ↔ ∀ str, d.str buf = some str → ¬ SignedNanos str := by
  constructor
  · intro hc str hstr hs
    obtain ⟨t, ht⟩ := ok_of_signed hs
    obtain ⟨nanos, hn, hd⟩ := not_digits_of_signed hs
    exact hd (hc.wellFormed t (d.strtotimespec64_ok_iff.2 ⟨str, hstr, ht⟩) str hstr nanos hn).2
  · intro hc
    refine ⟨fun t ht h0 h63 => ?_, fun t ht => ?_, fun t ht str hstr nanos hn => ?_⟩
    · obtain ⟨sec, nsec⟩ := t
      obtain ⟨sec, rfl⟩ := Int.eq_ofNat_of_zero_le h0
      obtain ⟨nsec, rfl⟩ := Int.eq_ofNat_of_zero_le ht.1
      have hnsec : nsec < 10 ^ 9 := Int.ofNat_lt.1 ht.2
      have hsec : sec < 2 ^ 63 := Int.ofNat_lt.1 h63
      exact d.strtotimespec64_ok_iff.2 ⟨_, str_baseTimeText d hsec hnsec, strtotimespec64_baseTimeText hsec hnsec⟩
    · obtain ⟨str, hstr, hok⟩ := d.strtotimespec64_ok_iff.1 ht
      refine (normal_iff hok).2 fun ds hn => ?_
      have hd := (digits_of_unsigned hok (hc str hstr) hn).2
      exact absurd (hd '-' (List.mem_cons_self ..)) (by decide)
    · obtain ⟨str', hstr', hok⟩ := d.strtotimespec64_ok_iff.1 ht
      obtain rfl : str = str' := Option.some.inj (hstr.symm.trans hstr')
      exact digits_of_unsigned hok (hc str hstr) hn

/-- Fifty milliseconds before the second 1, and a nanosecond part that is no
more than a sign. -/
theorem signs_stored (d : Driver) :
    (¬ BaseTimeOk d ['1', '.', '-', '5', '\n'] ∧
      (d.adminBaseTimeStore (init 0xff) ['1', '.', '-', '5', '\n']).2.adminTab.baseTime = ⟨1, -50000000⟩) ∧
    (¬ BaseTimeOk d ['1', '.', '+', '\n'] ∧
      (d.adminBaseTimeStore (init 0xff) ['1', '.', '+', '\n']).2.adminTab.baseTime = ⟨1, 0⟩) := by
  refine ⟨⟨fun h => ?_, by cases d <;> decide⟩, fun h => ?_, by cases d <;> decide⟩
  · have hneg := (h.normal ⟨1, -50000000⟩ (by cases d <;> rfl)).1
    exact absurd hneg (by decide)
  · have hdigits := (h.wellFormed ⟨1, 0⟩ (by cases d <;> rfl) ['1', '.', '+', '\n'] (by cases d <;> rfl) ['+'] rfl).2
    exact absurd (hdigits '+' (List.mem_singleton_self _)) (by decide)

theorem not_baseTimeOk_signs :
    (¬ BaseTimeOk .fscr ['1', '.', '-', '5', '\n'] ∧ ¬ BaseTimeOk .fsc ['1', '.', '-', '5', '\n']) ∧
    (¬ BaseTimeOk .fscr ['1', '.', '+', '\n'] ∧ ¬ BaseTimeOk .fsc ['1', '.', '+', '\n']) :=
  have h := signs_stored
  ⟨⟨(h .fscr).1.1, (h .fsc).1.1⟩, (h .fscr).2.1, (h .fsc).2.1⟩

end TsnSwitch.Sched
