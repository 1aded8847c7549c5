/-
Numbers in the character buffers of a C program.

A buffer is the list of its characters. A text shorter than the buffer is
followed by NUL, and a copy that does not write the NUL leaves what the
buffer held behind the text: `strncpy_pad` says what is read then.
-/
import Mathlib.Tactic

namespace TsnSwitch.Lib

def NUL : Char := Char.ofNat 0

/-- `isspace`. -/
def isSpace (c : Char) : Bool := c == ' ' || (9 ≤ c.toNat && c.toNat ≤ 13)

/-- The number at the start of a buffer, and `none` when nothing in the
buffer ends it. -/
def numeral (buf : List Char) : Option Nat :=
  if buf.all Char.isDigit then none else some (Nat.ofDigitChars 10 (buf.takeWhile Char.isDigit) 0)

/-- `strtol(buf, NULL, 10)`. -/
def strtol (buf : List Char) : Option Int :=
  match buf.dropWhile isSpace with
  | [] => none
  | c :: s =>
    if c = '-' then (numeral s).map fun n => -(n : Int)
    else if c = '+' then (numeral s).map Int.ofNat
    else (numeral (c :: s)).map Int.ofNat

/-- `strncpy(buf, src, n)` of the `n` characters of `src`. -/
def strncpy (buf src : List Char) : List Char := src ++ buf.drop src.length

/-- A buffer of `n` characters that holds `text`. -/
def pad (n : Nat) (text : List Char) : List Char := text ++ List.replicate (n - text.length) NUL

/-- The text `%ld` prints. -/
def decimal : Int → List Char
  | .ofNat n => Nat.toDigits 10 n
  | .negSucc n => '-' :: Nat.toDigits 10 (n + 1)

/-- Texts that there is room for stay. -/
theorem map_take_of_short {n : Nat} {texts : List (List Char)} (h : ∀ t ∈ texts, t.length ≤ n) :
    texts.map (·.take n) = texts := by
  rw [List.map_congr_left fun t ht => List.take_of_length_le (h t ht), List.map_id']

/-! ## Reading -/

theorem numeral_append {ds : List Char} (hd : ∀ c ∈ ds, c.isDigit = true) (rest : List Char) :
    numeral (ds ++ NUL :: rest) = some (Nat.ofDigitChars 10 ds 0) := by
  have hall : (ds ++ NUL :: rest).all Char.isDigit = false := by
    rw [List.all_append, List.all_cons, show NUL.isDigit = false from rfl, Bool.false_and, Bool.and_false]
  rw [numeral, hall, List.takeWhile_append_of_pos hd, List.takeWhile_cons_of_neg (by decide), List.append_nil]
  rfl

/-- A NUL ends every number. -/
theorem numeral_isSome (text rest : List Char) : ∃ n, numeral (text ++ NUL :: rest) = some n := by
  rw [numeral, if_neg]
  · exact ⟨_, rfl⟩
  · rw [List.all_append, List.all_cons, show NUL.isDigit = false from rfl, Bool.false_and, Bool.and_false]
    decide

theorem strtol_isSome (text rest : List Char) : ∃ n, strtol (text ++ NUL :: rest) = some n := by
  have hdrop : (text ++ NUL :: rest).dropWhile isSpace = text.dropWhile isSpace ++ NUL :: rest := by
    rw [List.dropWhile_append]
    split
    · rename_i h
      rw [List.isEmpty_iff.1 h, List.dropWhile_cons_of_neg (by decide), List.nil_append]
    · rfl
  rw [strtol, hdrop]
  cases text.dropWhile isSpace with
  | nil =>
    obtain ⟨n, hn⟩ := numeral_isSome [] rest
    rw [List.nil_append] at hn ⊢
    simp only [show ¬ NUL = '-' by decide, show ¬ NUL = '+' by decide, if_false, hn]
    exact ⟨_, rfl⟩
  | cons c s =>
    obtain ⟨n, hn⟩ := numeral_isSome s rest
    obtain ⟨k, hk⟩ := numeral_isSome (c :: s) rest
    rw [List.cons_append] at hk ⊢
    simp only [hn, hk]
    split
    · exact ⟨_, rfl⟩
    · split <;> exact ⟨_, rfl⟩

theorem isDigit_range {c : Char} (hc : c.isDigit = true) : 48 ≤ c.toNat ∧ c.toNat ≤ 57 := by
  simpa [Char.isDigit, UInt32.le_iff_toNat_le] using hc

theorem isSpace_of_isDigit {c : Char} (hc : c.isDigit = true) : isSpace c = false := by
  obtain ⟨h1, h2⟩ := isDigit_range hc
  have hs : c ≠ ' ' := by rintro rfl; revert h1; decide
  simp only [isSpace, Bool.or_eq_false_iff, beq_eq_false_iff_ne, ne_eq, hs, not_false_eq_true, true_and,
    Bool.and_eq_false_iff, decide_eq_false_iff_not]
  omega

/-- A text of digits is read as its number. -/
theorem strtol_digits {ds : List Char} (hd : ∀ c ∈ ds, c.isDigit = true) (rest : List Char) :
    strtol (ds ++ NUL :: rest) = some (Nat.ofDigitChars 10 ds 0 : Int) := by
  have hnum := numeral_append hd rest
  cases ds with
  | nil =>
    rw [strtol, List.nil_append, List.dropWhile_cons_of_neg (by decide)]
    rfl
  | cons c ds =>
    have hc := hd c (List.mem_cons_self ..)
    have hminus : c ≠ '-' := by rintro rfl; revert hc; decide
    have hplus : c ≠ '+' := by rintro rfl; revert hc; decide
    rw [strtol, List.cons_append, List.dropWhile_cons_of_neg (by rw [isSpace_of_isDigit hc]; decide)]
    simp only [hminus, hplus, if_false]
    rw [← List.cons_append, hnum]
    rfl

theorem pad_eq {n : Nat} {text : List Char} (h : text.length < n) :
    pad n text = text ++ NUL :: List.replicate (n - text.length - 1) NUL := by
  rw [pad, ← List.replicate_succ, Nat.sub_add_cancel (by omega)]

/-- A copy into a buffer with a longer text leaves that text's end. -/
theorem strncpy_pad {n : Nat} {text src : List Char} (hs : src.length ≤ n) :
    strncpy (pad n text) src = pad n (src ++ text.drop src.length) := by
  rw [strncpy, pad, pad, List.drop_append, List.drop_replicate, List.append_assoc, List.length_append,
    List.length_drop]
  congr 3
  omega

/-! ## Digits -/

theorem isDigit_toDigits (n : Nat) : ∀ c ∈ Nat.toDigits 10 n, c.isDigit = true := fun _ hc =>
  Nat.isDigit_of_mem_toDigits (by decide) (by decide) hc

theorem toDigits_inj {m n : Nat} (h : Nat.toDigits 10 m = Nat.toDigits 10 n) : m = n := by
  rw [← Nat.ofDigitChars_ten_toDigits (n := m), h, Nat.ofDigitChars_ten_toDigits]

/-- A number followed by more digits is larger. -/
theorem ofDigitChars_longer {n : Nat} (hn : 0 < n) {ds : List Char} (hd : ds ≠ []) :
    n < Nat.ofDigitChars 10 (Nat.toDigits 10 n ++ ds) 0 := by
  rw [Nat.ofDigitChars_append, Nat.ofDigitChars_ten_toDigits, Nat.ofDigitChars_eq_ofDigitChars_zero]
  obtain ⟨k, hk⟩ := Nat.exists_eq_add_one_of_ne_zero (mt List.length_eq_zero_iff.1 hd)
  have hpow : 0 < 10 ^ k := Nat.pow_pos (by decide)
  rw [hk, Nat.pow_succ]
  calc n < 10 * n := by omega
    _ ≤ 10 ^ k * 10 * n := Nat.mul_le_mul_right n (by omega)
    _ ≤ 10 ^ k * 10 * n + Nat.ofDigitChars 10 ds 0 := Nat.le_add_right ..

theorem ofDigitChars_lt {ds : List Char} (hd : ∀ c ∈ ds, c.isDigit = true) :
    Nat.ofDigitChars 10 ds 0 < 10 ^ ds.length := by
  induction ds with
  | nil => decide
  | cons c ds ih =>
    rw [List.forall_mem_cons] at hd
    have hc := isDigit_range hd.1
    have hrest := ih hd.2
    have hpow : 0 < 10 ^ ds.length := Nat.pow_pos (by decide)
    rw [Nat.ofDigitChars_cons, Nat.mul_zero, Nat.zero_add, Nat.ofDigitChars_eq_ofDigitChars_zero, List.length_cons,
      Nat.pow_succ]
    calc 10 ^ ds.length * (c.toNat - '0'.toNat) + Nat.ofDigitChars 10 ds 0
        < 10 ^ ds.length * (c.toNat - '0'.toNat) + 10 ^ ds.length := by omega
      _ = 10 ^ ds.length * (c.toNat - '0'.toNat + 1) := (Nat.mul_succ _ _).symm
      _ ≤ 10 ^ ds.length * 10 := Nat.mul_le_mul_left _ (by rw [show '0'.toNat = 48 from rfl]; omega)

end TsnSwitch.Lib
