/-
Words and numbers in a text, as a C program takes and prints them.

A text is the list of its characters before the NUL. `strtok` cuts the next word
off and `words` are all of them. `strtoul` and `strtol` with an end pointer read
a number in a base and say where they stopped. The number itself, before it is
made to fit a type, is what the text `denotes`.
-/
import Mathlib.Data.List.DropRight
import TsnSwitch.Lib.CString

namespace TsnSwitch.Lib

/-! ## Words -/

/-- `strtok`: the next word and what is behind its delimiter. -/
def strtok (delim : Char) (s : List Char) : Option (List Char × List Char) :=
  match s.dropWhile (· == delim) with
  | [] => none
  | c :: t => some ((c :: t).takeWhile (· != delim), ((c :: t).dropWhile (· != delim)).drop 1)

/-- `strtok` with several delimiters. -/
def strtokSet (delims s : List Char) : Option (List Char × List Char) :=
  match s.dropWhile (· ∈ delims) with
  | [] => none
  | c :: t => some ((c :: t).takeWhile (· ∉ delims), ((c :: t).dropWhile (· ∉ delims)).drop 1)

/-- A word at the start, with a delimiter behind it or nothing. -/
theorem strtokSet_word {delims w rest : List Char} (hne : w ≠ []) (hw : ∀ c ∈ w, c ∉ delims)
    (hrest : ∀ c, rest.head? = some c → c ∈ delims) : strtokSet delims (w ++ rest) = some (w, rest.drop 1) := by
  have hdrop : rest.takeWhile (· ∉ delims) = [] ∧ rest.dropWhile (· ∉ delims) = rest := by
    cases rest with
    | nil => simp
    | cons c rest => simp [hrest c rfl]
  cases w with
  | nil => exact absurd rfl hne
  | cons c w =>
    have hc := hw c (List.mem_cons_self ..)
    have hcut : (c :: w ++ rest).dropWhile (· ∈ delims) = c :: (w ++ rest) := by simp [hc]
    have hword : ∀ x ∈ c :: w, decide (x ∉ delims) = true := fun x hx => decide_eq_true (hw x hx)
    rw [strtokSet, hcut]
    simp only [← List.cons_append]
    rw [List.takeWhile_append_of_pos hword, List.dropWhile_append_of_pos hword, hdrop.1, hdrop.2, List.append_nil]

def words (delim : Char) (s : List Char) : List (List Char) := (s.splitOn delim).filter (· ≠ [])

theorem words_delim (delim : Char) (s : List Char) : words delim (delim :: s) = words delim s := by
  rw [words, List.splitOn_cons_eq_if_modifyHead, if_pos (beq_self_eq_true delim), List.filter_cons_of_neg (by simp)]
  rfl

theorem words_dropWhile (delim : Char) (s : List Char) : words delim (s.dropWhile (· == delim)) = words delim s := by
  induction s with
  | nil => rfl
  | cons c s ih =>
    rw [List.dropWhile_cons]
    split
    · rename_i hc
      rw [ih, eq_of_beq hc, words_delim]
    · rfl

theorem words_word {delim : Char} {w : List Char} (hne : w ≠ []) (hw : delim ∉ w) : words delim w = [w] := by
  rw [words, List.splitOn_eq_singleton hw, List.filter_cons_of_pos (by simpa using hne)]
  rfl

theorem words_append {delim : Char} {w : List Char} (hne : w ≠ []) (hw : delim ∉ w) (s : List Char) :
    words delim (w ++ delim :: s) = w :: words delim s := by
  rw [words, List.splitOn_append_cons_self_of_not_mem hw, List.filter_cons_of_pos (by simpa using hne)]
  rfl

theorem words_of_strtok {delim : Char} {s w t : List Char} (h : strtok delim s = some (w, t)) :
    words delim s = w :: words delim t ∧ w ≠ [] := by
  rw [strtok] at h
  cases hs : s.dropWhile (· == delim) with
  | nil =>
    rw [hs] at h
    exact nomatch h
  | cons c r =>
    rw [hs] at h
    obtain ⟨rfl, rfl⟩ := Prod.mk.inj (Option.some.inj h)
    have hc : (c != delim) = true := by
      have hnot := List.head_dropWhile_not (· == delim) (l := s) (by rw [hs]; exact List.cons_ne_nil _ _)
      simp only [hs, List.head_cons] at hnot
      simpa using hnot
    have hne : (c :: r).takeWhile (· != delim) ≠ [] := by
      rw [List.takeWhile_cons, if_pos hc]
      exact List.cons_ne_nil _ _
    have hw : delim ∉ (c :: r).takeWhile (· != delim) := fun hm => by
      have hd := List.mem_takeWhile_imp hm
      simp at hd
    refine ⟨?_, hne⟩
    rw [← words_dropWhile, hs]
    conv_lhs => rw [← List.takeWhile_append_dropWhile (p := (· != delim)) (l := c :: r)]
    cases hd : (c :: r).dropWhile (· != delim) with
    | nil => rw [List.append_nil, words_word hne hw]; rfl
    | cons d t =>
      have hdelim : d = delim := by
        have hnot := List.head_dropWhile_not (· != delim) (l := c :: r) (by rw [hd]; exact List.cons_ne_nil _ _)
        simp only [hd, List.head_cons] at hnot
        simpa using hnot
      rw [hdelim, words_append hne hw]
      rfl

theorem words_of_strtok_none {delim : Char} {s : List Char} (h : strtok delim s = none) : words delim s = [] := by
  rw [strtok] at h
  cases hs : s.dropWhile (· == delim) with
  | nil =>
    rw [← words_dropWhile, hs]
    rfl
  | cons c r =>
    rw [hs] at h
    exact nomatch h

/-- **`strtok` gives the words one after the other.** -/
theorem strtok_iff {delim : Char} {s w : List Char} {ws : List (List Char)} :
    words delim s = w :: ws ↔ ∃ t, strtok delim s = some (w, t) ∧ words delim t = ws := by
  cases h : strtok delim s with
  | none =>
    rw [words_of_strtok_none h]
    exact iff_of_false (fun h => nomatch h) fun ⟨_, h, _⟩ => nomatch h
  | some p =>
    rw [(words_of_strtok h).1]
    constructor
    · intro he
      obtain ⟨rfl, rfl⟩ := List.cons.inj he
      exact ⟨p.2, rfl, rfl⟩
    · rintro ⟨t, he, rfl⟩
      obtain rfl := Option.some.inj he
      rfl

theorem strtok_none_iff {delim : Char} {s : List Char} : strtok delim s = none ↔ words delim s = [] := by
  refine ⟨words_of_strtok_none, fun h => ?_⟩
  cases hs : strtok delim s with
  | none => rfl
  | some p => exact absurd (h.symm.trans (words_of_strtok hs).1) (fun h => nomatch h)

theorem words_replicate (delim : Char) (k : Nat) (s : List Char) :
    words delim (List.replicate k delim ++ s) = words delim s := by
  induction k with
  | zero => rfl
  | succ k ih => rw [List.replicate_succ, List.cons_append, words_delim, ih]

/-- A word and further ones, each behind so many delimiters and one more. -/
def spaced (delim : Char) (w : List Char) : List (Nat × List Char) → List Char
  | [] => w
  | (k, v) :: rest => w ++ delim :: (List.replicate k delim ++ spaced delim v rest)

theorem words_spaced {delim : Char} {w : List Char} {rest : List (Nat × List Char)}
    (h : ∀ v ∈ w :: rest.map Prod.snd, v ≠ [] ∧ delim ∉ v) : words delim (spaced delim w rest) = w :: rest.map Prod.snd := by
  induction rest generalizing w with
  | nil => exact words_word (h w (List.mem_cons_self ..)).1 (h w (List.mem_cons_self ..)).2
  | cons p rest ih =>
    obtain ⟨hne, hw⟩ := h w (List.mem_cons_self ..)
    rw [spaced, words_append hne hw, words_replicate, ih fun v hv => h v (List.mem_cons_of_mem _ hv)]
    rfl

theorem mem_spaced {delim c : Char} {w : List Char} {rest : List (Nat × List Char)} (h : c ∈ spaced delim w rest) :
    c = delim ∨ ∃ v ∈ w :: rest.map Prod.snd, c ∈ v := by
  induction rest generalizing w with
  | nil => exact .inr ⟨w, List.mem_cons_self .., h⟩
  | cons p rest ih =>
    rw [spaced, List.mem_append, List.mem_cons, List.mem_append] at h
    rcases h with h | h | h | h
    · exact .inr ⟨w, List.mem_cons_self .., h⟩
    · exact .inl h
    · exact .inl (List.eq_of_mem_replicate h)
    · exact (ih h).imp_right fun ⟨v, hv, hc⟩ => ⟨v, List.mem_cons_of_mem _ hv, hc⟩

/-- A spaced text starts with its first word. -/
theorem spaced_eq_append (delim : Char) (w : List Char) (rest : List (Nat × List Char)) :
    ∃ t, spaced delim w rest = w ++ t := by
  cases rest with
  | nil => exact ⟨[], (List.append_nil w).symm⟩
  | cons p rest => exact ⟨_, rfl⟩

/-- A spaced text ends with its last word. -/
theorem spaced_eq_append_last (delim : Char) (w : List Char) (rest : List (Nat × List Char)) :
    ∃ t, ∃ v ∈ w :: rest.map Prod.snd, spaced delim w rest = t ++ v := by
  induction rest generalizing w with
  | nil => exact ⟨[], w, List.mem_cons_self .., rfl⟩
  | cons p rest ih =>
    obtain ⟨t, v, hv, ht⟩ := ih p.2
    refine ⟨w ++ delim :: (List.replicate p.1 delim ++ t), v, List.mem_cons_of_mem _ hv, ?_⟩
    rw [spaced, ht, List.append_assoc, List.cons_append, List.append_assoc]

/-! ## Numbers -/

/-- The value of a digit in a base up to 36. -/
def digitOf (base : Nat) (c : Char) : Option Nat :=
  let d := if c.isDigit then c.toNat - 48 else if c.isUpper then c.toNat - 55 else if c.isLower then c.toNat - 87 else base
  if d < base then some d else none

/-- The digits at the start of a text, after those of `acc`, and what is behind them. -/
def number (base : Nat) : Nat → List Char → Nat × List Char
  | acc, [] => (acc, [])
  | acc, c :: s =>
    match digitOf base c with
    | none => (acc, c :: s)
    | some d => number base (base * acc + d) s

def magnitude (base : Nat) (s : List Char) : Option (Nat × List Char) :=
  if (s.head?.bind (digitOf base)).isSome then some (number base 0 s) else none

/-- What is behind `0x`. -/
def hexDigits : List Char → Option (List Char)
  | '0' :: x :: s => if x = 'x' ∨ x = 'X' then some s else none
  | _ => none

/-- In base 0 the text says its base. With no digit behind it `0x` is read as `0`. -/
def based (base : Nat) (s : List Char) : Option (Nat × List Char) :=
  if base = 0 ∨ base = 16 then
    match hexDigits s with
    | some t => some ((magnitude 16 t).getD (0, s.drop 1))
    | none => magnitude (if base = 16 then 16 else if s.head? = some '0' then 8 else 10) s
  else magnitude base s

/-- A number with its sign, and what is behind it. -/
def scan (base : Nat) (s : List Char) : Option (Int × List Char) :=
  match s.dropWhile isSpace with
  | [] => none
  | c :: t =>
    if c = '-' then (based base t).map fun n => (-(n.1 : Int), n.2)
    else if c = '+' then (based base t).map fun n => ((n.1 : Int), n.2)
    else (based base (c :: t)).map fun n => ((n.1 : Int), n.2)

/-- The number a text is. -/
def denotes (base : Nat) (s : List Char) : Option Int := (scan base s).bind fun n => if n.2 = [] then some n.1 else none

/-- A number in an `unsigned long`: `ULONG_MAX` where it is too large, and taken
from zero where it is negative. -/
def ulong (n : Int) : BitVec 64 := if 2 ^ 64 ≤ n.natAbs then BitVec.allOnes 64 else BitVec.ofInt 64 n

/-- A number in a `long`: the nearest there is. -/
def long (n : Int) : Int := max (-2 ^ 63) (min (2 ^ 63 - 1) n)

/-- `strtoul(s, &endptr, base)`. -/
def strtoulEnd (base : Nat) (s : List Char) : BitVec 64 × List Char :=
  match scan base s with
  | none => (0, s)
  | some n => (ulong n.1, n.2)

/-- `strtol(s, &endptr, base)`. -/
def strtolEnd (base : Nat) (s : List Char) : Int × List Char :=
  match scan base s with
  | none => (0, s)
  | some n => (long n.1, n.2)

/-- A reader that stops where the number ends is at the end of a text just when that denotes a number. -/
theorem stops_iff {α : Type} (f : Int → α) (d : α) {base : Nat} {s : List Char} (hs : s ≠ []) {v : α} :
    (match scan base s with
      | none => (d, s)
      | some n => (f n.1, n.2)) = (v, []) ↔ ∃ n, denotes base s = some n ∧ v = f n := by
  unfold denotes
  cases scan base s with
  | none => exact iff_of_false (fun h => hs (Prod.mk.inj h).2) fun ⟨_, h, _⟩ => nomatch h
  | some n =>
    rw [Option.bind_some, Prod.mk.injEq]
    split
    · rename_i hrest
      exact ⟨fun h => ⟨n.1, rfl, h.1.symm⟩, fun ⟨_, h, hv⟩ => ⟨by rw [hv, ← Option.some.inj h], hrest⟩⟩
    · rename_i hrest
      exact iff_of_false (fun h => hrest h.2) fun ⟨_, h, _⟩ => nomatch h

theorem strtoulEnd_iff {base : Nat} {s : List Char} (hs : s ≠ []) {v : BitVec 64} :
    strtoulEnd base s = (v, []) ↔ ∃ n, denotes base s = some n ∧ v = ulong n := stops_iff ulong 0 hs

theorem strtolEnd_iff {base : Nat} {s : List Char} (hs : s ≠ []) {v : Int} :
    strtolEnd base s = (v, []) ↔ ∃ n, denotes base s = some n ∧ v = long n := stops_iff long 0 hs

/-- `strtoull(s, NULL, 10)`; `none` where it sets `errno`. -/
def strtoull (s : List Char) : Option (BitVec 64) :=
  match scan 10 s with
  | none => some 0
  | some n => if n.1.natAbs < 2 ^ 64 then some (BitVec.ofInt 64 n.1) else none

/-! ## Digits -/

theorem isDigit_ne_sign {c : Char} (hc : c.isDigit = true) : c ≠ '-' ∧ c ≠ '+' := by
  constructor <;> rintro rfl <;> revert hc <;> decide

section Digits

variable {ds : List Char}

theorem digitOf_of_isDigit {c : Char} (hc : c.isDigit = true) : digitOf 10 c = some (c.toNat - '0'.toNat) := by
  obtain ⟨h₁, h₂⟩ := isDigit_range hc
  rw [digitOf, if_pos hc]
  exact if_pos (by omega)

theorem number_digits (hd : ∀ c ∈ ds, c.isDigit = true) (acc : Nat) :
    number 10 acc ds = (Nat.ofDigitChars 10 ds acc, []) := by
  induction ds generalizing acc with
  | nil => simp [number]
  | cons c ds ih =>
    rw [List.forall_mem_cons] at hd
    rw [number, digitOf_of_isDigit hd.1, Nat.ofDigitChars_cons]
    exact ih hd.2 _

theorem magnitude_digits (hne : ds ≠ []) (hd : ∀ c ∈ ds, c.isDigit = true) :
    magnitude 10 ds = some (Nat.ofDigitChars 10 ds 0, []) := by
  cases ds with
  | nil => exact absurd rfl hne
  | cons c ds =>
    rw [magnitude, number_digits hd, if_pos]
    simp [digitOf_of_isDigit (hd c (List.mem_cons_self ..))]

theorem scan_digits (hne : ds ≠ []) (hd : ∀ c ∈ ds, c.isDigit = true) :
    scan 10 ds = some ((Nat.ofDigitChars 10 ds 0 : Int), []) := by
  have hmag := magnitude_digits hne hd
  cases ds with
  | nil => exact absurd rfl hne
  | cons c ds =>
    have hc := hd c (List.mem_cons_self ..)
    obtain ⟨hminus, hplus⟩ := isDigit_ne_sign hc
    rw [scan, List.dropWhile_cons_of_neg (by simp [isSpace_of_isDigit hc])]
    simp [hminus, hplus, based, hmag]

theorem scan_signed (hne : ds ≠ []) (hd : ∀ c ∈ ds, c.isDigit = true) :
    scan 10 ('-' :: ds) = some (-(Nat.ofDigitChars 10 ds 0 : Int), []) ∧
      scan 10 ('+' :: ds) = some ((Nat.ofDigitChars 10 ds 0 : Int), []) := by
  have hmag := magnitude_digits hne hd
  have hsign : isSpace '-' = false ∧ isSpace '+' = false := by decide
  constructor <;> simp [scan, hsign, based, hmag]

end Digits

/-! ## Printing -/

/-- The text `%02X` prints. -/
def printHex2 (n : Nat) : List Char :=
  let ds := (Nat.toDigits 16 n).map Char.toUpper
  List.replicate (2 - ds.length) '0' ++ ds

theorem number_digit {base d : Nat} {c : Char} (h : digitOf base c = some d) (acc : Nat) (s : List Char) :
    number base acc (c :: s) = number base (base * acc + d) s := by rw [number, h]

theorem number_append {base acc : Nat} {ds : List Char} (h : (number base acc ds).2 = []) (s : List Char) :
    number base acc (ds ++ s) = number base (number base acc ds).1 s := by
  induction ds generalizing acc with
  | nil => rfl
  | cons c ds ih =>
    cases hd : digitOf base c with
    | none =>
      rw [number, hd] at h
      exact nomatch h
    | some d =>
      rw [number_digit hd] at h
      rw [List.cons_append, number_digit hd, number_digit hd]
      exact ih h

/-- The digits that are printed are read as the number. -/
theorem number_toDigits {base : Nat} (hb : 1 < base) {f : Char → Char}
    (hf : ∀ d < base, digitOf base (f d.digitChar) = some d) (n : Nat) :
    number base 0 ((Nat.toDigits base n).map f) = (n, []) := by
  induction n using Nat.strongRecOn with
  | _ n ih =>
    rw [Nat.toDigits_eq_if hb]
    split
    · rename_i hlt
      rw [List.map_singleton, number_digit (hf n hlt), Nat.mul_zero, Nat.zero_add]
      rfl
    · rename_i hge
      have hrec := ih (n / base) (Nat.div_lt_self (by omega) hb)
      rw [List.map_append, number_append (by rw [hrec]), hrec, List.map_singleton,
        number_digit (hf _ (Nat.mod_lt n (by omega))), Nat.div_add_mod]
      rfl

theorem number_zeros {base : Nat} (hb : 0 < base) (k : Nat) (s : List Char) :
    number base 0 (List.replicate k '0' ++ s) = number base 0 s := by
  induction k with
  | zero => rfl
  | succ k ih =>
    have hzero : digitOf base '0' = some 0 := by
      rw [digitOf]
      exact if_pos hb
    rw [List.replicate_succ, List.cons_append, number_digit hzero, Nat.mul_zero, Nat.add_zero, ih]

/-- A text with a number and nothing behind it starts with a digit. -/
theorem magnitude_of_number {base n : Nat} {s : List Char} (hs : s ≠ []) (h : number base 0 s = (n, [])) :
    magnitude base s = some (n, []) := by
  cases s with
  | nil => exact absurd rfl hs
  | cons c s =>
    rw [magnitude, h, if_pos]
    rw [number] at h
    rw [List.head?_cons, Option.bind_some]
    cases hd : digitOf base c with
    | none =>
      rw [hd] at h
      exact nomatch (Prod.mk.inj h).2
    | some d => rfl

theorem mem_toDigits {base n : Nat} (hb : 1 < base) {c : Char} (h : c ∈ Nat.toDigits base n) :
    ∃ d < base, c = d.digitChar := by
  induction n using Nat.strongRecOn with
  | _ n ih =>
    rw [Nat.toDigits_eq_if hb] at h
    split at h
    · rename_i hlt
      exact ⟨n, hlt, List.mem_singleton.1 h⟩
    · rename_i hge
      rcases List.mem_append.1 h with h | h
      · exact ih (n / base) (Nat.div_lt_self (by omega) hb) h
      · exact ⟨n % base, Nat.mod_lt n (by omega), List.mem_singleton.1 h⟩

theorem length_printHex2 {n : Nat} (hn : n < 256) : (printHex2 n).length = 2 := by
  have hle : (Nat.toDigits 16 n).length ≤ 2 := (Nat.length_toDigits_le_iff (by decide) (by decide)).2 hn
  rw [printHex2, List.length_append, List.length_replicate, List.length_map]
  omega

/-- A text that starts with a digit has no sign. -/
theorem denotes_of_based {base n : Nat} {c : Char} {s : List Char} (hc : c.isDigit = true)
    (h : based base (c :: s) = some (n, [])) : denotes base (c :: s) = some (n : Int) := by
  obtain ⟨hminus, hplus⟩ := isDigit_ne_sign hc
  rw [denotes, scan, List.dropWhile_cons_of_neg (by rw [isSpace_of_isDigit hc]; decide)]
  simp only [hminus, hplus, if_false, h, Option.map_some, Option.bind_some, if_true]

theorem denotes_neg_of_based {base n : Nat} {s : List Char} (h : based base s = some (n, [])) :
    denotes base ('-' :: s) = some (-(n : Int)) := by
  rw [denotes, scan, List.dropWhile_cons_of_neg (by decide)]
  simp only [if_true, h, Option.map_some, Option.bind_some]

theorem digitOf_digitChar : ∀ d < 10, digitOf 10 d.digitChar = some d := by decide

theorem digitOf_upper : ∀ d < 16, digitOf 16 d.digitChar.toUpper = some d := by decide

theorem magnitude_toDigits (n : Nat) : magnitude 10 (Nat.toDigits 10 n) = some (n, []) := by
  refine magnitude_of_number Nat.toDigits_ne_nil ?_
  have h := @number_toDigits 10 (by decide) id digitOf_digitChar n
  rwa [List.map_id] at h

theorem printHex2_ne_nil (n : Nat) : printHex2 n ≠ [] := by
  rw [printHex2]
  exact List.append_ne_nil_of_right_ne_nil _ (mt List.map_eq_nil_iff.1 Nat.toDigits_ne_nil)

theorem magnitude_printHex2 (n : Nat) : magnitude 16 (printHex2 n) = some (n, []) := by
  refine magnitude_of_number (printHex2_ne_nil n) ?_
  rw [printHex2, number_zeros (by decide)]
  exact number_toDigits (by decide) digitOf_upper n

/-- Only zero is printed with a zero in front. -/
theorem toDigits_head {n : Nat} (h : (Nat.toDigits 10 n).head? = some '0') : n = 0 := by
  induction n using Nat.strongRecOn with
  | _ n ih =>
    rw [Nat.toDigits_eq_if (by decide)] at h
    split at h
    · rename_i hlt
      have hd := digitOf_digitChar n hlt
      rw [Option.some.inj h] at hd
      exact (Option.some.inj hd).symm
    · rename_i hge
      rw [List.head?_append_of_ne_nil _ Nat.toDigits_ne_nil] at h
      have hzero := ih (n / 10) (by omega) h
      omega

theorem based_toDigits (n : Nat) : based 0 (Nat.toDigits 10 n) = some (n, []) := by
  have hdigit := isDigit_toDigits n
  have hhex : hexDigits (Nat.toDigits 10 n) = none := by
    unfold hexDigits
    split
    · rename_i x s hs
      have hx := hdigit x (by rw [hs]; exact List.mem_cons_of_mem _ (List.mem_cons_self ..))
      rw [if_neg]
      rintro (rfl | rfl) <;> exact absurd hx (by decide)
    · rfl
  rw [based, if_pos (.inl rfl), hhex]
  by_cases hzero : (Nat.toDigits 10 n).head? = some '0'
  · obtain rfl := toDigits_head hzero
    rfl
  · simp only [hzero, if_false, show ¬ (0 : Nat) = 16 by decide]
    exact magnitude_toDigits n

theorem decimal_ne_nil (i : Int) : decimal i ≠ [] := by
  cases i with
  | ofNat n => exact Nat.toDigits_ne_nil
  | negSucc n => exact List.cons_ne_nil _ _

theorem toDigits_eq_cons (n : Nat) : ∃ c s, Nat.toDigits 10 n = c :: s ∧ c.isDigit = true := by
  obtain ⟨c, s, hs⟩ := List.exists_cons_of_ne_nil (Nat.toDigits_ne_nil (n := n) (b := 10))
  exact ⟨c, s, hs, isDigit_toDigits n c (by rw [hs]; exact List.mem_cons_self ..)⟩

/-- **What `%u` prints is read back as a decimal number.** -/
theorem denotes_toDigits (n : Nat) : denotes 10 (Nat.toDigits 10 n) = some (n : Int) := by
  obtain ⟨c, s, hs, hc⟩ := toDigits_eq_cons n
  rw [hs]
  refine denotes_of_based hc ?_
  rw [← hs]
  exact magnitude_toDigits n

/-- **What `%d` prints is read back as a number that says its base.** -/
theorem denotes_decimal (i : Int) : denotes 0 (decimal i) = some i := by
  cases i with
  | ofNat n =>
    obtain ⟨c, s, hs, hc⟩ := toDigits_eq_cons n
    rw [decimal, hs]
    refine denotes_of_based hc ?_
    rw [← hs]
    exact based_toDigits n
  | negSucc n =>
    rw [decimal, denotes_neg_of_based (based_toDigits (n + 1))]
    rfl

/-- **What `0x%02X` prints is read back as a number that says its base.** -/
theorem denotes_printHex2 (n : Nat) : denotes 0 ('0' :: 'x' :: printHex2 n) = some (n : Int) := by
  refine denotes_of_based (by decide) ?_
  have hhex : hexDigits ('0' :: 'x' :: printHex2 n) = some (printHex2 n) := by
    rw [hexDigits]
    exact if_pos (.inl rfl)
  rw [based, if_pos (.inl rfl), hhex]
  exact congrArg (fun m => some (Option.getD m _)) (magnitude_printHex2 n)

end TsnSwitch.Lib
