/-
The numbers of a line (`parse_dec_values_separated_with_spaces`).

The line is checked for digits and white space, and the numbers are then taken with
`%u` as long as there are rows for them. A number is turned down if it is read as zero
from ten characters or more, the white space in front of it included; the leading
spaces of the line are skipped before.
-/
import TsnSwitch.Lib.Kstrto
import TsnSwitch.Tools.Parsers

namespace TsnSwitch.Tools

open Lib

/-! ## What is asked -/

/-- The words of a line. -/
def numbersOf (line : List Char) : List (List Char) := (line.splitOnP isSpace).filter (· ≠ [])

def numberOf (w : List Char) : Nat := Nat.ofDigitChars 10 w 0

/-- Digits and white space. -/
def Plain (line : List Char) : Prop := ∀ c ∈ line, c.isDigit = true ∨ isSpace c = true

/-- Decimal numbers separated by white space, each at most `UINT_MAX`. -/
structure Numbers (line : List Char) : Prop where
  plain : Plain line
  ne_nil : numbersOf line ≠ []
  small : ∀ w ∈ numbersOf line, numberOf w < 2 ^ 32

/-- The parser ends with as many rows as there were. It takes the lines of numbers, and
the first rows are then their first numbers. -/
structure DecValuesOk (sh : Shape) (s : Scan) : Prop where
  ends : ∃ status s', parseDecValuesSeparatedWithSpaces sh s = .ok (status, s') ∧ s'.rows.length = s.rows.length
  accepts : (∃ s', parseDecValuesSeparatedWithSpaces sh s = .ok (BASE_PARSING_SUCCEEDED, s')) ↔ Numbers s.line
  rows : Numbers s.line → ∀ s', parseDecValuesSeparatedWithSpaces sh s = .ok (BASE_PARSING_SUCCEEDED, s') →
    s'.rows = ((numbersOf s.line).take s.rows.length).map (fun w => Nat.toDigits 10 (numberOf w)) ++
      s.rows.drop (numbersOf s.line).length

/-- What `%u` makes of a number. -/
def wrapped (n : Nat) : Nat := min n (2 ^ 64 - 1) % 2 ^ 32

/-- The characters a number takes and its value; there is white space only before the first. -/
def taken (white : Nat) : List (List Char) → List (Nat × Nat)
  | [] => []
  | w :: ws => (white + w.length, numberOf w) :: ws.map fun w => (w.length, numberOf w)

def Rejected (p : Nat × Nat) : Prop := 10 ≤ p.1 ∧ wrapped p.2 = 0

/-- The white space before the first number, without the leading spaces. -/
def whiteOf (line : List Char) : Nat := ((line.dropWhile (· = ' ')).takeWhile isSpace).length

/-- There is a number. If all are small, no zero of the ones that have a row is read from ten
characters, and they fit their rows; otherwise one that has a row is read as zero. -/
def DecValuesRight (sh : Shape) (s : Scan) : Prop :=
  Plain s.line → s.line ≠ [] →
    numbersOf s.line ≠ [] ∧
    if ∀ w ∈ numbersOf s.line, numberOf w < 2 ^ 32 then
      (∀ p ∈ (taken (whiteOf s.line) (numbersOf s.line)).take s.rows.length, ¬ Rejected p) ∧
        ∀ w ∈ (numbersOf s.line).take s.rows.length, (Nat.toDigits 10 (numberOf w)).length < sh.colNum
    else ∃ p ∈ (taken (whiteOf s.line) (numbersOf s.line)).take s.rows.length, Rejected p

/-! ## Words -/

section Words

variable {line rest w : List Char}

theorem numbersOf_white (line : List Char) : numbersOf (line.dropWhile isSpace) = numbersOf line := by
  induction line with
  | nil => rfl
  | cons c line ih =>
    cases hc : isSpace c with
    | false => rw [List.dropWhile_cons_of_neg (by simp [hc])]
    | true =>
      rw [List.dropWhile_cons_of_pos hc, ih]
      simp [numbersOf, List.splitOnP_cons_eq_if_modifyHead, hc]

theorem numbersOf_word (hne : w ≠ []) (hw : ∀ c ∈ w, isSpace c = false)
    (hrest : ∀ c, rest.head? = some c → isSpace c = true) : numbersOf (w ++ rest) = w :: numbersOf rest := by
  cases rest with
  | nil => simp [numbersOf, List.splitOnP_eq_singleton hw, hne]
  | cons c rest =>
    rw [← numbersOf_white (c :: rest), List.dropWhile_cons_of_pos (hrest c rfl), numbersOf_white, numbersOf,
      List.splitOnP_append_cons_of_forall_mem hw c (hrest c rfl), List.filter_cons_of_pos (by simpa using hne)]
    rfl

theorem Plain.suffix {s : List Char} (h : Plain line) (hs : s <:+ line) : Plain s := fun c hc => h c (hs.subset hc)

/-- A number with the white space before it, or no number. -/
theorem scanUnsigned_plain {subStr : List Char} (h : Plain subStr) :
    (numbersOf subStr = [] ∧ scanUnsigned subStr = none) ∨
      ∃ w ws rest, numbersOf subStr = w :: ws ∧ rest <:+ subStr ∧ numbersOf rest = ws ∧
        scanUnsigned subStr = some (wrapped (numberOf w), (subStr.takeWhile isSpace).length + w.length, rest) := by
  have hlen : subStr.length - (subStr.dropWhile isSpace).length = (subStr.takeWhile isSpace).length := by
    have hsplit := congrArg List.length (List.takeWhile_append_dropWhile (p := isSpace) (l := subStr))
    rw [List.length_append] at hsplit
    omega
  have hsuffix := List.dropWhile_suffix (l := subStr) isSpace
  have hplain := h.suffix hsuffix
  rw [← numbersOf_white, scanUnsigned, hlen]
  cases hnumber : subStr.dropWhile isSpace with
  | nil => exact .inl ⟨rfl, rfl⟩
  | cons c t =>
    rw [hnumber] at hsuffix hplain
    have hc : isSpace c = false := by
      have hnot := List.head_dropWhile_not isSpace (l := subStr) (by rw [hnumber]; exact List.cons_ne_nil _ _)
      simpa only [hnumber, List.head_cons, Bool.not_eq_true] using hnot
    have hdigit : c.isDigit = true := (hplain c (List.mem_cons_self ..)).resolve_right (by simp [hc])
    have hne : (c :: t).takeWhile Char.isDigit ≠ [] := by simp [hdigit]
    have hcut := List.takeWhile_append_dropWhile (p := Char.isDigit) (l := c :: t)
    have hdrop : (c :: t).drop ((c :: t).takeWhile Char.isDigit).length = (c :: t).dropWhile Char.isDigit := by
      conv_lhs => rw [← hcut]
      rw [List.drop_append_of_le_length (by simp)]
      simp
    have hword : numbersOf (c :: t) = (c :: t).takeWhile Char.isDigit :: numbersOf ((c :: t).dropWhile Char.isDigit) := by
      conv_lhs => rw [← hcut]
      refine numbersOf_word hne (fun x hx => isSpace_of_isDigit (List.mem_takeWhile_imp hx)) fun x hx => ?_
      have hx' : x ∈ (c :: t).dropWhile Char.isDigit := List.mem_of_head? hx
      refine (hplain x ((List.dropWhile_suffix _).subset hx')).resolve_left fun hd => ?_
      rw [head?_dropWhile hx] at hd
      cases hd
    refine .inr ⟨_, _, _, hword, (List.dropWhile_suffix _).trans hsuffix, rfl, ?_⟩
    simp only [hne, if_false, hdrop]
    rfl

end Words

/-! ## The loop -/

section Loop

variable {sh : Shape}

theorem taken_zero (ws : List (List Char)) : taken 0 ws = ws.map fun w => (w.length, numberOf w) := by
  cases ws <;> simp [taken]

theorem takeWhile_dropWhile_space (s : List Char) : (s.dropWhile isSpace).takeWhile isSpace = [] := by
  cases hs : s.dropWhile isSpace with
  | nil => rfl
  | cons c t =>
    have hc := head?_dropWhile (p := isSpace) (s := s) (c := c) (by rw [hs]; rfl)
    rw [List.takeWhile_cons_of_neg (by simp [hc])]

/-- Each turn takes one number for one row. -/
theorem decValuesLoop_length (sh : Shape) (subStr : List Char) (rows : Matrix) :
    (decValuesLoop sh subStr rows).2.length = rows.length := by
  induction rows generalizing subStr with
  | nil => rfl
  | cons row rows ih =>
    rw [decValuesLoop]
    split
    · rfl
    · split
      · rfl
      · simp [ih]

theorem decValuesLoop_fst {subStr : List Char} (h : Plain subStr) (rows : Matrix) :
    (decValuesLoop sh subStr rows).1 = true ↔
      ∀ p ∈ (taken (subStr.takeWhile isSpace).length (numbersOf subStr)).take rows.length, ¬ Rejected p := by
  induction rows generalizing subStr with
  | nil => simp [decValuesLoop]
  | cons row rows ih =>
    rw [decValuesLoop]
    rcases scanUnsigned_plain h with ⟨hnil, hscan⟩ | ⟨w, ws, rest, hws, hrest, hnext, hscan⟩
    · simp [hscan, hnil, taken]
    · have hplain := (h.suffix hrest).suffix (List.dropWhile_suffix isSpace)
      have htail := ih hplain
      rw [takeWhile_dropWhile_space, numbersOf_white, hnext, List.length_nil, taken_zero] at htail
      rw [hscan, hws, taken, List.length_cons, List.take_succ_cons, List.forall_mem_cons, ← htail]
      simp only
      split
      · rename_i hbad
        exact iff_of_false (by simp) fun hall => hall.1 hbad
      · rename_i hgood
        exact (and_iff_right hgood).symm

/-- The rows of a loop that is not left. -/
theorem decValuesLoop_snd {subStr : List Char} (h : Plain subStr) {rows : Matrix}
    (hok : (decValuesLoop sh subStr rows).1 = true) :
    (decValuesLoop sh subStr rows).2 =
      ((numbersOf subStr).take rows.length).map (fun w => (Nat.toDigits 10 (wrapped (numberOf w))).take (sh.colNum - 1)) ++
        rows.drop (numbersOf subStr).length := by
  induction rows generalizing subStr with
  | nil => simp [decValuesLoop]
  | cons row rows ih =>
    rw [decValuesLoop] at hok ⊢
    rcases scanUnsigned_plain h with ⟨hnil, hscan⟩ | ⟨w, ws, rest, hws, hrest, hnext, hscan⟩
    · simp [hscan, hnil]
    · have hplain := (h.suffix hrest).suffix (List.dropWhile_suffix isSpace)
      have htail := @ih _ hplain
      rw [numbersOf_white, hnext] at htail
      rw [hscan] at hok ⊢
      simp only at hok ⊢
      split at hok
      · cases hok
      · rename_i hgood
        rw [if_neg hgood, hws, htail hok]
        simp

end Loop

/-! ## Lines -/

section Lines

variable {sh : Shape} {s : Scan}

/-- A line of digits and white space goes to the loop. -/
theorem parseDecValues_plain (h : Plain s.line) (hne : s.line ≠ []) :
    parseDecValuesSeparatedWithSpaces sh s =
      .ok (if (decValuesLoop sh (s.line.dropWhile (· = ' ')) s.rows).1 then BASE_PARSING_SUCCEEDED else BASE_PARSING_FAILED,
        ⟨s.line, (decValuesLoop sh (s.line.dropWhile (· = ' ')) s.rows).2⟩) := by
  have hany : (s.line.any fun c => !c.isDigit && !isSpace c) = false := by
    rw [List.any_eq_false]
    intro c hc
    rcases h c hc with hd | hd <;> simp [hd]
  rw [parseDecValuesSeparatedWithSpaces, if_neg hne, hany]
  rfl

theorem parseDecValues_other (h : ¬ Plain s.line ∨ s.line = []) :
    ∃ line, parseDecValuesSeparatedWithSpaces sh s = .ok (BASE_PARSING_FAILED, ⟨line, s.rows⟩) := by
  rw [parseDecValuesSeparatedWithSpaces]
  split
  · exact ⟨s.line, rfl⟩
  · rename_i hne
    have hplain := h.resolve_right hne
    simp only [Plain, not_forall, not_or, Bool.not_eq_true] at hplain
    obtain ⟨c, hc, hdigit, hspace⟩ := hplain
    rw [if_pos (List.any_eq_true.2 ⟨c, hc, by simp [hdigit, hspace]⟩)]
    exact ⟨[], rfl⟩

theorem numbersOf_spaces (line : List Char) : numbersOf (line.dropWhile (· = ' ')) = numbersOf line := by
  rw [← numbersOf_white, ← numbersOf_white line]
  congr 1
  induction line with
  | nil => rfl
  | cons c line ih =>
    by_cases hc : c = ' '
    · rw [List.dropWhile_cons_of_pos (by simpa using hc), ih, hc, List.dropWhile_cons_of_pos (by decide)]
    · rw [List.dropWhile_cons_of_neg (by simpa using hc)]

theorem wrapped_small {n : Nat} (h : n < 2 ^ 32) : wrapped n = n := by
  rw [wrapped]
  omega

theorem numbers_nil (h : ¬ Plain s.line ∨ s.line = []) : ¬ Numbers s.line := fun hn => by
  rcases h with h | h
  · exact h hn.plain
  · exact hn.ne_nil (by rw [h]; rfl)

/-- The texts of numbers that fit are not cut. -/
theorem map_take_iff {ws : List (List Char)} (hsmall : ∀ w ∈ ws, numberOf w < 2 ^ 32) :
    ws.map (fun w => (Nat.toDigits 10 (wrapped (numberOf w))).take (sh.colNum - 1)) =
        ws.map (fun w => Nat.toDigits 10 (numberOf w)) ↔
      ∀ w ∈ ws, (Nat.toDigits 10 (numberOf w)).length < sh.colNum := by
  have hcol := sh.colNum_pos
  rw [List.map_inj_left]
  refine forall₂_congr fun w hw => ?_
  rw [wrapped_small (hsmall w hw), List.take_eq_self_iff]
  omega

section Plain

variable (h : Plain s.line) (hne : s.line ≠ [])
include h hne

theorem parseDecValues_succeeds : (∃ s', parseDecValuesSeparatedWithSpaces sh s = .ok (BASE_PARSING_SUCCEEDED, s')) ↔
    ∀ p ∈ (taken (whiteOf s.line) (numbersOf s.line)).take s.rows.length, ¬ Rejected p := by
  have hfst := @decValuesLoop_fst sh _ (h.suffix (List.dropWhile_suffix (· = ' '))) s.rows
  rw [numbersOf_spaces] at hfst
  rw [parseDecValues_plain h hne, whiteOf, ← hfst]
  cases (decValuesLoop sh (s.line.dropWhile (· = ' ')) s.rows).1 <;> simp [BASE_PARSING_FAILED, BASE_PARSING_SUCCEEDED]

theorem parseDecValues_rows {s' : Scan} (hok : parseDecValuesSeparatedWithSpaces sh s = .ok (BASE_PARSING_SUCCEEDED, s')) :
    s'.rows = ((numbersOf s.line).take s.rows.length).map
        (fun w => (Nat.toDigits 10 (wrapped (numberOf w))).take (sh.colNum - 1)) ++
      s.rows.drop (numbersOf s.line).length := by
  rw [parseDecValues_plain h hne] at hok
  obtain ⟨hstatus, hscan⟩ := Prod.mk.inj (Except.ok.inj hok)
  have htrue : (decValuesLoop sh (s.line.dropWhile (· = ' ')) s.rows).1 = true := by
    by_contra hfalse
    rw [if_neg hfalse] at hstatus
    exact absurd hstatus (by decide)
  have hsnd := decValuesLoop_snd (h.suffix (List.dropWhile_suffix (· = ' '))) htrue
  rw [numbersOf_spaces] at hsnd
  rw [← hscan, hsnd]

end Plain

/-- **The numbers of a line** are taken as they are just if none of them is misread. -/
theorem decValuesOk_iff : DecValuesOk sh s ↔ DecValuesRight sh s := by
  unfold DecValuesRight
  by_cases hother : ¬ Plain s.line ∨ s.line = []
  · obtain ⟨line, hrun⟩ := @parseDecValues_other sh s hother
    have hnot := numbers_nil hother
    refine iff_of_true ⟨⟨_, _, hrun, rfl⟩, ?_, fun hn => absurd hn hnot⟩ fun h hne => ?_
    · refine iff_of_false (fun hok => ?_) hnot
      obtain ⟨s', h⟩ := hok
      rw [hrun] at h
      exact absurd (Prod.mk.inj (Except.ok.inj h)).1 (by decide)
    · exact (hother.elim (fun hn => hn h) hne).elim
  simp only [not_or, not_not] at hother
  obtain ⟨h, hne⟩ := hother
  rw [imp_iff_right h, imp_iff_right hne]
  have hsucc := @parseDecValues_succeeds sh s h hne
  have hnumbers : Numbers s.line ↔ numbersOf s.line ≠ [] ∧ ∀ w ∈ numbersOf s.line, numberOf w < 2 ^ 32 :=
    ⟨fun hn => ⟨hn.ne_nil, hn.small⟩, fun hn => ⟨h, hn.1, hn.2⟩⟩
  have hends : ∃ status s', parseDecValuesSeparatedWithSpaces sh s = .ok (status, s') ∧ s'.rows.length = s.rows.length :=
    ⟨_, _, parseDecValues_plain h hne, decValuesLoop_length ..⟩
  constructor
  · intro hok
    have haccepts := hok.accepts
    rw [hsucc, hnumbers] at haccepts
    have hwords : numbersOf s.line ≠ [] := fun hnil => (haccepts.1 (by simp [hnil, taken])).1 hnil
    refine ⟨hwords, ?_⟩
    split
    · rename_i hsmall
      have hnone := haccepts.2 ⟨hwords, hsmall⟩
      obtain ⟨s', hs'⟩ := hsucc.2 hnone
      have hrows := (parseDecValues_rows h hne hs').symm.trans (hok.rows (hnumbers.2 ⟨hwords, hsmall⟩) s' hs')
      exact ⟨hnone, (map_take_iff fun w hw => hsmall w (List.mem_of_mem_take hw)).1 (List.append_cancel_right hrows)⟩
    · rename_i hlarge
      have hsome := mt haccepts.1 fun hn => hlarge hn.2
      simpa using hsome
  · intro hright
    obtain ⟨hwords, hcond⟩ := hright
    refine ⟨hends, ?_, fun hn s' hs' => ?_⟩
    · rw [hsucc, hnumbers, and_iff_right hwords]
      split at hcond
      · rename_i hsmall
        exact iff_of_true hcond.1 hsmall
      · rename_i hlarge
        obtain ⟨p, hp, hbad⟩ := hcond
        exact iff_of_false (fun hnone => hnone p hp hbad) hlarge
    · rw [if_pos hn.small] at hcond
      rw [parseDecValues_rows h hne hs', (map_take_iff fun w hw => hn.small w (List.mem_of_mem_take hw)).2 hcond.2]

/-- 2^32 + 1 is taken for 1, a line of blanks for numbers, and a zero of ten digits for
none; behind the last row nothing is looked at. -/
theorem not_decValuesOk :
    (¬ DecValuesOk shortShape ⟨"4294967297".toList, [[], []]⟩ ∧
      parseDecValuesSeparatedWithSpaces shortShape ⟨"4294967297".toList, [[], []]⟩ =
        .ok (BASE_PARSING_SUCCEEDED, ⟨"4294967297".toList, [['1'], []]⟩)) ∧
    ¬ DecValuesOk shortShape ⟨[' '], [[], []]⟩ ∧
    ¬ DecValuesOk shortShape ⟨"0000000000".toList, [[], []]⟩ ∧
    ¬ DecValuesOk shortShape ⟨"1 2 4294967296".toList, [[], []]⟩ := by
  refine ⟨⟨fun h => ?_, by decide⟩, fun h => ?_, fun h => ?_, fun h => ?_⟩
  · have hn := h.accepts.1 ⟨⟨"4294967297".toList, [['1'], []]⟩, by decide⟩
    exact absurd (hn.small "4294967297".toList (by decide)) (by decide)
  · exact (h.accepts.1 ⟨⟨[' '], [[], []]⟩, by decide⟩).ne_nil (by decide)
  · have hdigits : ("0000000000".toList.all fun c => c.isDigit || isSpace c) = true := by decide
    have hplain : Plain "0000000000".toList := fun c hc => by simpa using List.all_eq_true.1 hdigits c hc
    obtain ⟨s', hs'⟩ := h.accepts.2 ⟨hplain, by decide, by decide⟩
    have hfails : parseDecValuesSeparatedWithSpaces shortShape ⟨"0000000000".toList, [[], []]⟩ =
        .ok (BASE_PARSING_FAILED, ⟨"0000000000".toList, [[], []]⟩) := by decide
    exact absurd (Prod.mk.inj (Except.ok.inj (hfails.symm.trans hs'))).1 (by decide)
  · have hn := h.accepts.1 ⟨⟨"1 2 4294967296".toList, [['1'], ['2']]⟩, by decide⟩
    exact absurd (hn.small "4294967296".toList (by decide)) (by decide)

end Lines

end TsnSwitch.Tools
