/-
Numbers as the kernel reads them from a text and prints them with a width.

`kstrtoll` takes a text for a number when all of it is one: digits, a sign
before them and a line end behind them. `sscanf` reads one from the start of a
text, of any size, and stores its low bits. `strsep` cuts a text at the first
delimiter.
-/
import Mathlib.Data.List.TakeWhile
import TsnSwitch.Lib.CString

namespace TsnSwitch.Lib

/-! ## Cutting -/

/-- `strsep`: the text before the first delimiter, and what is behind it. -/
def strsep (delims s : List Char) : List Char × Option (List Char) :=
  match s.dropWhile (· ∉ delims) with
  | [] => (s, none)
  | _ :: t => (s.takeWhile (· ∉ delims), some t)

section Strsep

variable {delims w : List Char}

theorem strsep_append (hw : ∀ c ∈ w, c ∉ delims) {d : Char} (hd : d ∈ delims) (t : List Char) :
    strsep delims (w ++ d :: t) = (w, some t) := by
  have hpos : ∀ c ∈ w, decide (c ∉ delims) = true := fun c hc => decide_eq_true (hw c hc)
  have hneg : ¬ decide (d ∉ delims) = true := by simpa using hd
  have hdrop : (w ++ d :: t).dropWhile (· ∉ delims) = d :: t := by
    rw [List.dropWhile_append_of_pos hpos, List.dropWhile_cons, if_neg hneg]
  have htake : (w ++ d :: t).takeWhile (· ∉ delims) = w := by
    rw [List.takeWhile_append_of_pos hpos, List.takeWhile_cons, if_neg hneg, List.append_nil]
  rw [strsep, hdrop, htake]

/-- A word at the start, with a delimiter behind it or nothing. -/
theorem strsep_word (hw : ∀ c ∈ w, c ∉ delims) {rest : List Char} (hrest : ∀ c, rest.head? = some c → c ∈ delims) :
    (strsep delims (w ++ rest)).1 = w := by
  cases rest with
  | nil =>
    rw [List.append_nil, strsep, List.dropWhile_eq_nil_iff.2 fun c hc => decide_eq_true (hw c hc)]
  | cons d t => rw [strsep_append hw (hrest d rfl)]

theorem not_mem_strsep {s : List Char} {c : Char} (h : c ∈ (strsep delims s).1) : c ∉ delims := by
  rw [strsep] at h
  split at h
  · rename_i hdrop
    exact of_decide_eq_true (List.dropWhile_eq_nil_iff.1 hdrop c h)
  · have hc := List.mem_takeWhile_imp (p := fun c => decide (c ∉ delims)) h
    exact of_decide_eq_true hc

end Strsep

/-! ## Reading -/

/-- A text of digits. -/
def Digits (ds : List Char) : Prop := ∀ c ∈ ds, c.isDigit = true

/-- `_kstrtoull(s, 10)`. -/
def kstrtoDigits (s : List Char) : Option Nat :=
  let ds := s.takeWhile Char.isDigit
  if ds = [] ∨ 2 ^ 64 ≤ Nat.ofDigitChars 10 ds 0 then none
  else match s.dropWhile Char.isDigit with
    | [] | ['\n'] => some (Nat.ofDigitChars 10 ds 0)
    | _ => none

/-- `kstrtoull(s, 10)`. -/
def kstrtoull (s : List Char) : Option Nat := kstrtoDigits (if s.head? = some '+' then s.tail else s)

/-- `kstrtoll(s, 10)`. -/
def kstrtoll (s : List Char) : Option Int :=
  if s.head? = some '-' then (kstrtoDigits s.tail).bind fun n => if 2 ^ 63 < n then none else some (-(n : Int))
  else (kstrtoull s).bind fun n => if 2 ^ 63 ≤ n then none else some (n : Int)

section Read

variable {s ds : List Char}

/-- The digits, with a line end or without. -/
theorem kstrtoDigits_iff {n : Nat} : kstrtoDigits s = some n ↔
    ∃ ds, ds ≠ [] ∧ Digits ds ∧ (s = ds ∨ s = ds ++ ['\n']) ∧ n = Nat.ofDigitChars 10 ds 0 ∧ n < 2 ^ 64 := by
  constructor
  · intro h
    rw [kstrtoDigits] at h
    split at h
    · exact nomatch h
    · rename_i hds
      obtain ⟨hne, hlt⟩ := not_or.1 hds
      have hsplit := List.takeWhile_append_dropWhile (p := Char.isDigit) (l := s)
      refine ⟨s.takeWhile Char.isDigit, hne, fun c hc => List.mem_takeWhile_imp hc, ?_⟩
      split at h
      · rename_i hdrop
        rw [hdrop, List.append_nil] at hsplit
        exact ⟨.inl hsplit.symm, (Option.some.inj h).symm, Option.some.inj h ▸ Nat.lt_of_not_le hlt⟩
      · rename_i hdrop
        rw [hdrop] at hsplit
        exact ⟨.inr hsplit.symm, (Option.some.inj h).symm, Option.some.inj h ▸ Nat.lt_of_not_le hlt⟩
      · exact nomatch h
  · intro ⟨ds, hne, hd, hs, hn, hlt⟩
    have htake : s.takeWhile Char.isDigit = ds := by
      rcases hs with rfl | rfl
      · exact List.takeWhile_eq_self_iff.2 hd
      · rw [List.takeWhile_append_of_pos hd, List.takeWhile_cons_of_neg (by decide), List.append_nil]
    have hdrop : s.dropWhile Char.isDigit = [] ∨ s.dropWhile Char.isDigit = ['\n'] := by
      rcases hs with rfl | rfl
      · exact .inl (List.dropWhile_eq_nil_iff.2 hd)
      · exact .inr (by rw [List.dropWhile_append_of_pos hd, List.dropWhile_cons_of_neg (by decide)])
    rw [kstrtoDigits, htake, ← hn, if_neg (not_or.2 ⟨hne, Nat.not_le_of_lt hlt⟩)]
    rcases hdrop with hdrop | hdrop
    · rw [hdrop]
    · rw [hdrop]
      rfl

theorem kstrtoDigits_digits (hne : ds ≠ []) (hd : Digits ds) (h : Nat.ofDigitChars 10 ds 0 < 2 ^ 64) :
    kstrtoDigits ds = some (Nat.ofDigitChars 10 ds 0) :=
  kstrtoDigits_iff.2 ⟨ds, hne, hd, .inl rfl, rfl, h⟩

theorem kstrtoll_minus (s : List Char) :
    kstrtoll ('-' :: s) = (kstrtoDigits s).bind fun n => if 2 ^ 63 < n then none else some (-(n : Int)) := rfl

theorem kstrtoll_plus (s : List Char) :
    kstrtoll ('+' :: s) = (kstrtoDigits s).bind fun n => if 2 ^ 63 ≤ n then none else some (n : Int) := rfl

theorem kstrtoll_unsigned (hminus : s.head? ≠ some '-') (hplus : s.head? ≠ some '+') :
    kstrtoll s = (kstrtoDigits s).bind fun n => if 2 ^ 63 ≤ n then none else some (n : Int) := by
  rw [kstrtoll, if_neg hminus, kstrtoull, if_neg hplus]

theorem Digits.head? (hd : Digits ds) {c : Char} (hc : c.isDigit = false) : ds.head? ≠ some c := fun h => by
  rw [hd c (List.mem_of_head? h)] at hc
  exact nomatch hc

theorem kstrtoll_digits (hne : ds ≠ []) (hd : Digits ds) (h : Nat.ofDigitChars 10 ds 0 < 2 ^ 63) :
    kstrtoll ds = some (Nat.ofDigitChars 10 ds 0 : Int) := by
  rw [kstrtoll_unsigned (hd.head? rfl) (hd.head? rfl), kstrtoDigits_digits hne hd (h.trans (by decide)), Option.bind_some,
    if_neg (Nat.not_le_of_lt h)]

theorem kstrtoll_large (hd : Digits ds) (h : 2 ^ 63 ≤ Nat.ofDigitChars 10 ds 0) : kstrtoll ds = none := by
  rw [kstrtoll_unsigned (hd.head? rfl) (hd.head? rfl), Option.bind_eq_none_iff]
  intro n hn
  obtain ⟨es, -, -, hs, hval, -⟩ := kstrtoDigits_iff.1 hn
  have heq : ds = es := hs.resolve_right fun heq => by
    have hmem := hd '\n' (by simp [heq])
    exact absurd hmem (by decide)
  rw [if_pos (by rw [hval, ← heq]; exact h)]

end Read

/-! ## Scanning -/

/-- `isspace` of the kernel, for which a no-break space is one too. -/
def isSpaceKernel (c : Char) : Bool := isSpace c || c.toNat == 0xA0

/-- The digits that `%u` of `sscanf` takes from the start of a text, as a
number of any size, and what is behind them. -/
def scanUnsigned (s : List Char) : Option (Nat × List Char) :=
  let s := s.dropWhile isSpaceKernel
  if s.takeWhile Char.isDigit = [] then none
  else some (Nat.ofDigitChars 10 (s.takeWhile Char.isDigit) 0, s.dropWhile Char.isDigit)

/-- The text is blanks, all the digits of the number, and the rest. -/
def StartsWith (s : List Char) (n : Nat) (rest : List Char) : Prop :=
  ∃ sp ds, s = sp ++ (ds ++ rest) ∧ (∀ c ∈ sp, isSpaceKernel c = true) ∧ ds ≠ [] ∧ Digits ds ∧
    n = Nat.ofDigitChars 10 ds 0 ∧ ∀ c, rest.head? = some c → c.isDigit = false

section Scan

variable {s rest : List Char} {n : Nat}

theorem isSpaceKernel_of_isDigit {c : Char} (hc : c.isDigit = true) : isSpaceKernel c = false := by
  have h := isDigit_range hc
  rw [isSpaceKernel, isSpace_of_isDigit hc, Bool.false_or, beq_eq_false_iff_ne]
  omega

theorem head?_dropWhile {p : Char → Bool} {c : Char} (h : (s.dropWhile p).head? = some c) : p c = false := by
  have hnot := List.head?_dropWhile_not p s
  rw [h] at hnot
  exact hnot

theorem scanUnsigned_iff : scanUnsigned s = some (n, rest) ↔ StartsWith s n rest := by
  have hsplit := List.takeWhile_append_dropWhile (p := isSpaceKernel) (l := s)
  constructor
  · intro h
    rw [scanUnsigned] at h
    split at h
    · exact nomatch h
    · rename_i hne
      obtain ⟨hn, hrest⟩ := Prod.mk.inj (Option.some.inj h)
      have hsplit' := List.takeWhile_append_dropWhile (p := Char.isDigit) (l := s.dropWhile isSpaceKernel)
      refine ⟨s.takeWhile isSpaceKernel, (s.dropWhile isSpaceKernel).takeWhile Char.isDigit, ?_,
        fun c hc => List.mem_takeWhile_imp hc, hne, fun c hc => List.mem_takeWhile_imp hc, hn.symm, fun c hc => ?_⟩
      · rw [← hrest, hsplit', hsplit]
      · rw [← hrest] at hc
        exact head?_dropWhile hc
  · rintro ⟨sp, ds, rfl, hsp, hne, hd, rfl, hrest⟩
    have hblank : (sp ++ (ds ++ rest)).dropWhile isSpaceKernel = ds ++ rest := by
      rw [List.dropWhile_append_of_pos hsp]
      cases ds with
      | nil => exact absurd rfl hne
      | cons c ds =>
        have hc := isSpaceKernel_of_isDigit (hd c (List.mem_cons_self ..))
        exact List.dropWhile_cons_of_neg (by rw [hc]; decide)
    have hends : rest.takeWhile Char.isDigit = [] ∧ rest.dropWhile Char.isDigit = rest := by
      cases rest with
      | nil => exact ⟨rfl, rfl⟩
      | cons c rest =>
        have hc : ¬ c.isDigit = true := by rw [hrest c rfl]; decide
        exact ⟨List.takeWhile_cons_of_neg hc, List.dropWhile_cons_of_neg hc⟩
    have htake : (ds ++ rest).takeWhile Char.isDigit = ds := by
      rw [List.takeWhile_append_of_pos hd, hends.1, List.append_nil]
    have hdrop : (ds ++ rest).dropWhile Char.isDigit = rest := by
      rw [List.dropWhile_append_of_pos hd, hends.2]
    rw [scanUnsigned]
    simp only [hblank, htake, hdrop, if_neg hne]

/-- A text starts with one number at most. -/
theorem StartsWith.unique {n' : Nat} {rest' : List Char} (h : StartsWith s n rest) (h' : StartsWith s n' rest') :
    n = n' ∧ rest = rest' := by
  have heq := (scanUnsigned_iff.2 h).symm.trans (scanUnsigned_iff.2 h')
  exact Prod.mk.inj (Option.some.inj heq)

end Scan

/-! ## Printing -/

/-- The text `%0*ld` prints. -/
def printWidth (width : Nat) : Int → List Char
  | .ofNat n => List.replicate (width - (Nat.toDigits 10 n).length) '0' ++ Nat.toDigits 10 n
  | .negSucc n =>
    '-' :: (List.replicate (width - 1 - (Nat.toDigits 10 (n + 1)).length) '0' ++ Nat.toDigits 10 (n + 1))

theorem digits_replicate (k : Nat) {ds : List Char} (hd : Digits ds) : Digits (List.replicate k '0' ++ ds) := by
  intro c hc
  rcases List.mem_append.1 hc with hc | hc
  · rw [List.eq_of_mem_replicate hc]
    rfl
  · exact hd c hc

theorem digits_printWidth (width n : Nat) : Digits (printWidth width n) := digits_replicate _ (isDigit_toDigits n)

theorem ofDigitChars_printWidth (width n : Nat) : Nat.ofDigitChars 10 (printWidth width n) 0 = n := by
  change Nat.ofDigitChars 10 (List.replicate _ '0' ++ Nat.toDigits 10 n) 0 = n
  rw [Nat.ofDigitChars_append, Nat.ofDigitChars_replicate_zero, Nat.mul_zero, Nat.ofDigitChars_ten_toDigits]

theorem length_printWidth {width n : Nat} (hw : 0 < width) (h : n < 10 ^ width) : (printWidth width n).length = width := by
  have hle : (Nat.toDigits 10 n).length ≤ width := (Nat.length_toDigits_le_iff (by decide) hw).2 h
  change (List.replicate _ '0' ++ Nat.toDigits 10 n).length = width
  rw [List.length_append, List.length_replicate]
  omega

end TsnSwitch.Lib
