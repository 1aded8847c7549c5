/-
What one parser does to a whole array, and the runs that keep it whole.

For each parser `Safe` says when the rows stay whole. The words and lines that are
appended need a row and a column for their NUL, the rows that are cut in place
must not become empty before others.
-/
import TsnSwitch.Tools.Whole

namespace TsnSwitch.Tools

open Lib
open Base (MAX_STR_LEN)

/-! ## What a parser needs -/

/-- A word that is found needs a row and its NUL. -/
def WordFits (sh : Shape) (rows : Matrix) (w : List Char) : Prop :=
  w ≠ [] → (visible rows).length < sh.rowNum ∧ w.length < sh.colNum

/-- No row that is cut to nothing is before one that is not. -/
def NoGap (f : List Char → List Char) (rows : Matrix) : Prop := NoHole ((visible rows).map f)

def withoutPunct (t : List Char) : List Char := t.filter fun c => !isPunct c

def untilMatch (matchCase t : List Char) : List Char := t.takeWhile fun c => !matchCase.contains c

/-- The word before the match stands between blanks of the line. -/
def PreviousFits (sh : Shape) (s : Scan) (subStr : List Char) : Prop :=
  match (s.line.take (s.line.length - subStr.length)).reverse with
  | [] => False
  | delimiter :: before =>
    isSpace delimiter = true →
      match before.dropWhile fun c => !isSpace c with
      | [] => False
      | _ :: start => WordFits sh s.rows (nextWord (s.line.drop start.length))

/-- The column the NUL goes to is one of the rows. At the next row's first column it
must not leave rows behind that one. -/
def ShrinkFits (sh : Shape) (rows : Matrix) (value : Int) : Prop :=
  sh.colNum < value ∨ visible rows = [] ∨ (0 ≤ value ∧ value < sh.colNum) ∨
    (value = sh.colNum ∧ (visible rows).length ≤ 2 ∧ 1 < sh.rowNum)

/-- When a parser keeps the array whole. -/
def Safe (matchCase : List Char) (sh : Shape) (s : Scan) : Parser → Prop
  | .findOnLineAndFillResultArray =>
    findOnLineHelper matchCase s.line = BASE_PARSING_SUCCEEDED → matchCase.length < sh.colNum
  | .findAndGetNextWord =>
    matchCase ≠ [] → ∀ subStr, strstr matchCase s.line = some subStr →
      WordFits sh s.rows (nextWord (subStr.drop matchCase.length))
  | .findAndGetPreviousWord =>
    matchCase ≠ [] → ∀ subStr, strstr matchCase s.line = some subStr → PreviousFits sh s subStr
  | .getFirstWord => WordFits sh s.rows (nextWord s.line)
  | .getAllLines => (visible s.rows).length < sh.rowNum ∧ (lineValue s.line).length < sh.colNum
  | .arrayTakeValueAfter => NoGap (valueAfter matchCase) s.rows
  | .arrayDropPunctuation => NoGap withoutPunct s.rows
  | .arrayShrinkString => matchCase ≠ [] → ShrinkFits sh s.rows (strtolEnd 10 matchCase).1
  | .arrayUntilMatchCase =>
    sh.hasCopy = true → matchCase ≠ [] →
      (visible s.rows).length < sh.rowNum ∧ NoGap (untilMatch matchCase) s.rows
  | .arrayTakeValuesAfterMatchCase =>
    (visible s.rows).length < sh.rowNum ∨ ∀ t ∈ visible s.rows, strstr matchCase t = none
  | _ => True

/-- The parser stays in the array and leaves it whole. -/
def Keeps (sh : Shape) (r : Except Overrun (Status × Scan)) : Prop := ∃ status s, r = .ok (status, s) ∧ Whole sh s.rows

def KeepsRows (sh : Shape) (r : Except Overrun (Status × Matrix)) : Prop := ∃ status rows, r = .ok (status, rows) ∧ Whole sh rows

section Steps

variable {sh : Shape}

theorem keeps_ok {status : Status} {s : Scan} : Keeps sh (.ok (status, s)) ↔ Whole sh s.rows := by
  constructor
  · rintro ⟨_, _, h, hw⟩
    obtain ⟨-, rfl⟩ := Prod.mk.inj (Except.ok.inj h)
    exact hw
  · exact fun h => ⟨status, s, rfl, h⟩

theorem not_keeps_error {e : Overrun} : ¬ Keeps sh (.error e) := fun ⟨_, _, h, _⟩ => nomatch h

theorem keepsRows_ok {status : Status} {rows : Matrix} : KeepsRows sh (.ok (status, rows)) ↔ Whole sh rows := by
  constructor
  · rintro ⟨_, _, h, hw⟩
    obtain ⟨-, rfl⟩ := Prod.mk.inj (Except.ok.inj h)
    exact hw
  · exact fun h => ⟨status, rows, rfl, h⟩

theorem not_keepsRows_error {e : Overrun} : ¬ KeepsRows sh (.error e) := fun ⟨_, _, h, _⟩ => nomatch h

theorem keeps_onRows {s : Scan} {f : Matrix → Except Overrun (Status × Matrix)} :
    Keeps sh (onRows s f) ↔ KeepsRows sh (f s.rows) := by
  unfold onRows
  cases f s.rows with
  | error e => exact iff_of_false not_keeps_error not_keepsRows_error
  | ok r => exact keeps_ok.trans keepsRows_ok.symm

/-! ## Words -/

theorem keeps_fillRow {rows : Matrix} (h : Whole sh rows) {w : List Char} (status : Status) (line : List Char) :
    Keeps sh ((fillRow (w.take sh.colNum) rows).map fun rows => (status, ⟨line, rows⟩)) ↔
      (visible rows).length < sh.rowNum ∧ w.length < sh.colNum := by
  have ht := h.texts
  have hfill := fillRow_filled (n := sh.rowNum) ht.ne_nil (w.take sh.colNum)
  rw [← ht.eq] at hfill
  rw [hfill]
  split
  · rename_i hroom
    refine keeps_ok.trans (whole_filled_iff.trans ?_)
    have hlen : (w.take sh.colNum).length = min sh.colNum w.length := List.length_take
    constructor
    · rintro ⟨-, hterm, -⟩
      have hw := hterm _ (List.mem_append_right _ (List.mem_singleton_self _))
      exact ⟨hroom, by omega⟩
    · rintro ⟨-, hw⟩
      refine ⟨by rw [List.length_append, List.length_singleton]; omega, fun t ht' => ?_, ?_⟩
      · rcases List.mem_append.1 ht' with ht' | ht'
        · exact ht.terminated t ht'
        · rw [List.mem_singleton.1 ht']
          omega
      · refine List.pairwise_append.2 ⟨noHole_of_ne_nil ht.ne_nil, List.pairwise_singleton _ _, ?_⟩
        exact fun a ha _ _ he => absurd he (ht.ne_nil a ha)
  · rename_i hroom
    exact iff_of_false not_keeps_error fun h => hroom h.1

theorem keeps_word {s : Scan} (h : Whole sh s.rows) (sub : List Char) :
    Keeps sh (baseSetResultArray sh sub s) ↔ WordFits sh s.rows (nextWord sub) := by
  unfold baseSetResultArray WordFits
  dsimp only
  split
  · rename_i hw
    exact iff_of_true (keeps_ok.2 h) fun hne => absurd hw hne
  · rename_i hw
    rw [keeps_fillRow h]
    exact ⟨fun hf _ => hf, fun hf => hf hw⟩

theorem keeps_nextWord {s : Scan} (h : Whole sh s.rows) (matchCase : List Char) :
    Keeps sh (findAndGetNextWord matchCase sh s) ↔ Safe matchCase sh s .findAndGetNextWord := by
  unfold findAndGetNextWord Safe
  split
  · rename_i hm
    exact iff_of_true (keeps_ok.2 h) fun hne => absurd hm hne
  · rename_i hm
    cases strstr matchCase s.line with
    | none => exact iff_of_true (keeps_ok.2 h) fun _ _ h => nomatch h
    | some sub =>
      refine (keeps_word h _).trans ⟨fun hf _ sub' he => ?_, fun hf => hf hm sub rfl⟩
      obtain rfl := Option.some.inj he
      exact hf

theorem keeps_previousWord {s : Scan} (h : Whole sh s.rows) (matchCase : List Char) :
    Keeps sh (findAndGetPreviousWord matchCase sh s) ↔ Safe matchCase sh s .findAndGetPreviousWord := by
  unfold findAndGetPreviousWord Safe
  split
  · rename_i hm
    exact iff_of_true (keeps_ok.2 h) fun hne => absurd hm hne
  · rename_i hm
    cases strstr matchCase s.line with
    | none => exact iff_of_true (keeps_ok.2 h) (by simp)
    | some sub =>
      simp only [ne_eq, hm, not_false_eq_true, forall_const, Option.some.injEq, forall_eq', PreviousFits]
      cases (s.line.take (s.line.length - sub.length)).reverse with
      | nil => exact iff_of_false not_keeps_error id
      | cons delimiter before =>
        simp only
        cases hd : isSpace delimiter with
        | false => exact iff_of_true (keeps_ok.2 h) (by simp)
        | true =>
          simp only [Bool.not_true, Bool.false_eq_true, if_false, forall_const]
          cases before.dropWhile fun c => !isSpace c with
          | nil => exact iff_of_false not_keeps_error id
          | cons c start => exact keeps_word h _

theorem keeps_fillResult {s : Scan} (h : Whole sh s.rows) (matchCase : List Char) :
    Keeps sh (Callback.run matchCase sh s .findOnLineAndFillResultArray) ↔
      Safe matchCase sh s .findOnLineAndFillResultArray := by
  unfold Callback.run Safe
  dsimp only
  rw [keeps_ok]
  split
  · rename_i hfound
    have hm : matchCase ≠ [] := by
      rintro rfl
      have hne : BASE_PARSING_FAILED ≠ BASE_PARSING_SUCCEEDED := by decide
      exact hne hfound
    obtain ⟨row, rows, hrows⟩ := List.exists_cons_of_length_pos (h.length ▸ sh.rowNum_pos)
    have hset : s.rows.set 0 (matchCase.take sh.colNum) =
        [matchCase.take sh.colNum] ++ s.rows.drop [matchCase.take sh.colNum].length := by
      rw [hrows]
      rfl
    have hlen : (matchCase.take sh.colNum).length = min sh.colNum matchCase.length := List.length_take
    rw [hset]
    constructor
    · intro hw _
      have hrow := hw.terminated _ (List.mem_cons_self ..)
      omega
    · intro hf
      have hfit := hf hfound
      refine h.replace (by rw [h.length]; exact sh.rowNum_pos) (fun t ht => ?_) fun _ t ht => ?_
      · rw [List.mem_singleton.1 ht]
        omega
      · rw [List.mem_singleton.1 ht, List.take_of_length_le hfit.le]
        exact hm
  · rename_i hnot
    exact iff_of_true h fun hfound => absurd hfound hnot

/-! ## Lines and numbers -/

theorem keeps_allLines {s : Scan} (h : Whole sh s.rows) (matchCase : List Char) :
    Keeps sh (getAllLines sh s) ↔ Safe matchCase sh s .getAllLines := keeps_fillRow h _ _

/-- The numbers replace rows from the first one on. -/
theorem decValuesLoop_eq (sub : List Char) (rows : Matrix) :
    ∃ out, (decValuesLoop sh sub rows).2 = out ++ rows.drop out.length ∧ out.length ≤ rows.length ∧
      (∀ t ∈ out, t.length < sh.colNum) ∧ (1 < sh.colNum → ∀ t ∈ out, t ≠ []) := by
  have hstop : ∀ rows : Matrix, ∃ out, rows = out ++ rows.drop out.length ∧ out.length ≤ rows.length ∧
      (∀ t ∈ out, t.length < sh.colNum) ∧ (1 < sh.colNum → ∀ t ∈ out, t ≠ []) := fun rows =>
    ⟨[], rfl, Nat.zero_le _, (fun _ h => nomatch h), fun _ _ h => nomatch h⟩
  induction rows generalizing sub with
  | nil => exact hstop []
  | cons row rows ih =>
    rw [decValuesLoop]
    split
    · exact hstop _
    · rename_i value bytes rest _
      split
      · exact hstop _
      · obtain ⟨out, heq, hlen, hterm, hne⟩ := ih (rest.dropWhile isSpace)
        have hcol := sh.colNum_pos
        refine ⟨(Nat.toDigits 10 value).take (sh.colNum - 1) :: out, ?_, ?_, ?_, fun hc => ?_⟩
        · exact congrArg _ heq
        · rw [List.length_cons, List.length_cons]
          omega
        · rw [List.forall_mem_cons]
          refine ⟨?_, hterm⟩
          rw [List.length_take]
          omega
        · rw [List.forall_mem_cons]
          refine ⟨fun he => ?_, hne hc⟩
          rcases List.take_eq_nil_iff.1 he with he | he
          · omega
          · exact Nat.toDigits_ne_nil he

theorem keeps_decValues {s : Scan} (h : Whole sh s.rows) : Keeps sh (parseDecValuesSeparatedWithSpaces sh s) := by
  unfold parseDecValuesSeparatedWithSpaces
  split
  · exact keeps_ok.2 h
  split
  · exact keeps_ok.2 h
  obtain ⟨out, heq, hlen, hterm, hne⟩ := @decValuesLoop_eq sh (s.line.dropWhile (· = ' ')) s.rows
  refine keeps_ok.2 ?_
  rw [heq]
  exact h.replace hlen hterm hne

/-! ## Rows cut in place -/

theorem whole_map_iff {rows : Matrix} (h : Whole sh rows) {f : List Char → List Char}
    (hf : ∀ t, (f t).length ≤ t.length) : Whole sh (filled sh.rowNum ((visible rows).map f)) ↔ NoGap f rows := by
  have ht := h.texts
  rw [whole_filled_iff, List.length_map]
  refine ⟨fun h => h.2.2, fun h => ⟨ht.room, fun t hm => ?_, h⟩⟩
  obtain ⟨u, hu, rfl⟩ := List.mem_map.1 hm
  exact (hf u).trans_lt (ht.terminated u hu)

theorem takeValueAfterLoop_filled (matchCase : List Char) {n : Nat} {texts : List (List Char)} (hne : ∀ t ∈ texts, t ≠ [])
    (hlen : ∀ t ∈ texts, t.length < sh.colNum) :
    takeValueAfterLoop matchCase sh (filled n texts) = .ok (filled n (texts.map (valueAfter matchCase))) := by
  induction texts generalizing n with
  | nil => cases n <;> simp [filled, List.replicate_succ, takeValueAfterLoop]
  | cons t texts ih =>
    rw [List.forall_mem_cons] at hne hlen
    rw [filled_cons, takeValueAfterLoop, if_neg hne.1, if_neg (Nat.not_le.2 hlen.1), ih hne.2 hlen.2, List.map_cons,
      filled_cons]
    rfl

theorem valueAfter_length (matchCase t : List Char) : (valueAfter matchCase t).length ≤ t.length := by
  unfold valueAfter
  split
  · exact Nat.zero_le _
  · cases hs : strstr matchCase t with
    | none => exact Nat.zero_le _
    | some sub =>
      exact (List.takeWhile_prefix _).length_le.trans ((List.dropWhile_suffix _).length_le.trans
        ((List.drop_suffix _ _).length_le.trans (strstr_suffix hs).length_le))

theorem keeps_takeValueAfter {rows : Matrix} (h : Whole sh rows) (matchCase : List Char) :
    KeepsRows sh (arrayTakeValueAfter matchCase sh rows) ↔ NoGap (valueAfter matchCase) rows := by
  have ht := h.texts
  have hloop := takeValueAfterLoop_filled (n := sh.rowNum) matchCase ht.ne_nil ht.terminated
  rw [← ht.eq] at hloop
  rw [arrayTakeValueAfter, hloop]
  exact keepsRows_ok.trans (whole_map_iff h (valueAfter_length matchCase))

theorem keeps_dropPunctuation {rows : Matrix} (h : Whole sh rows) :
    KeepsRows sh (arrayDropPunctuation sh rows) ↔ NoGap withoutPunct rows := by
  have ht := h.texts
  have hloop := dropPunctuationLoop_filled (n := sh.rowNum) sh ht.ne_nil ht.terminated
  rw [← ht.eq] at hloop
  rw [arrayDropPunctuation, hloop]
  exact keepsRows_ok.trans (whole_map_iff h fun t => List.length_filter_le _ t)

theorem Whole.visible_full {rows : Matrix} (h : Whole sh rows) (hfull : ¬ (visible rows).length < sh.rowNum) :
    visible rows = rows := by
  have hroom := h.texts.room
  exact (List.takeWhile_prefix _).eq_of_length (by rw [h.length]; exact le_antisymm hroom (Nat.not_lt.1 hfull))

/-- A full array is read beyond its last row. -/
theorem untilMatchCaseLoop_full (sh : Shape) (matchCase : List Char) {texts : List (List Char)} (hne : ∀ t ∈ texts, t ≠ []) :
    untilMatchCaseLoop matchCase sh texts = .error .read := by
  induction texts with
  | nil => rfl
  | cons t texts ih =>
    rw [List.forall_mem_cons] at hne
    rw [untilMatchCaseLoop, if_neg hne.1, ih hne.2]
    rfl

theorem keeps_untilMatchCase {rows : Matrix} (h : Whole sh rows) (matchCase : List Char) :
    KeepsRows sh (arrayUntilMatchCase matchCase sh rows) ↔
      (sh.hasCopy = true → matchCase ≠ [] →
        (visible rows).length < sh.rowNum ∧ NoGap (untilMatch matchCase) rows) := by
  have ht := h.texts
  unfold arrayUntilMatchCase
  cases sh.hasCopy with
  | false => exact iff_of_true (keepsRows_ok.2 h) fun hc => absurd hc Bool.false_ne_true
  | true =>
    simp only [Bool.not_true, Bool.false_eq_true, if_false, forall_const]
    split
    · rename_i hm
      exact iff_of_true (keepsRows_ok.2 (whole_zeros sh)) fun hne => absurd hm hne
    · rename_i hm
      rw [imp_iff_right hm]
      by_cases hroom : (visible rows).length < sh.rowNum
      · have hloop := untilMatchCaseLoop_filled matchCase sh ht.ne_nil hroom
        rw [← ht.eq] at hloop
        have hcut : (visible rows).map (fun t => (t.takeWhile fun c => !matchCase.contains c).take (sh.colNum - 1)) =
            (visible rows).map (untilMatch matchCase) := by
          refine List.map_congr_left fun t hm => List.take_of_length_le ?_
          have hlt := ht.terminated t hm
          have hle := (List.takeWhile_prefix (l := t) fun c => !matchCase.contains c).length_le
          omega
        rw [hloop, hcut, and_iff_right hroom]
        exact keepsRows_ok.trans (whole_map_iff h fun t => (List.takeWhile_prefix _).length_le)
      · have hfull := untilMatchCaseLoop_full sh matchCase ht.ne_nil
        rw [h.visible_full hroom] at hfull
        rw [hfull]
        exact iff_of_false not_keepsRows_error fun h => hroom h.1

/-! ## Rows computed and shrunk -/

theorem maskLoop_filled (op : ParserOp) (base : Nat) (value : Int) {n : Nat} {texts : List (List Char)}
    (hne : ∀ t ∈ texts, t ≠ []) (hlen : ∀ t ∈ texts, t.length < sh.colNum) :
    ∃ processed out, maskLoop op base value sh (filled n texts) = .ok (processed, filled n out) ∧
      out.length = texts.length ∧ ∀ t ∈ out, t ≠ [] ∧ t.length < sh.colNum := by
  induction texts generalizing n with
  | nil =>
    refine ⟨false, [], ?_, rfl, fun _ h => nomatch h⟩
    cases n <;> simp [filled, List.replicate_succ, maskLoop]
  | cons t texts ih =>
    obtain ⟨⟨ht, hne'⟩, ⟨htlen, hlen'⟩⟩ := List.forall_mem_cons.1 hne, List.forall_mem_cons.1 hlen
    rw [filled_cons, maskLoop, if_neg ht, if_neg (Nat.not_le.2 htlen)]
    dsimp only
    split
    · refine ⟨false, t :: texts, by rw [filled_cons], rfl, fun u hu => ⟨hne u hu, hlen u hu⟩⟩
    · obtain ⟨processed, out, heq, hout, hterm⟩ := ih (n := n - 1) hne' hlen'
      have hpos := List.length_pos_iff.2 ht
      refine ⟨true, _ :: out, by rw [heq, filled_cons]; rfl, by rw [List.length_cons, hout, List.length_cons], ?_⟩
      rw [List.forall_mem_cons]
      refine ⟨⟨fun he => ?_, by rw [List.length_take]; omega⟩, hterm⟩
      rcases List.take_eq_nil_iff.1 he with he | he
      · omega
      · exact decimal_ne_nil _ he

theorem keeps_mask {rows : Matrix} (h : Whole sh rows) (matchCase : List Char) (op : ParserOp) (base : Nat) :
    KeepsRows sh (baseCheckMaskAndSetResultArray matchCase op base sh rows) := by
  have ht := h.texts
  unfold baseCheckMaskAndSetResultArray
  dsimp only
  split
  · exact keepsRows_ok.2 h
  · obtain ⟨processed, out, heq, hout, hterm⟩ :=
      maskLoop_filled (n := sh.rowNum) op base (strtolEnd base matchCase).1 ht.ne_nil ht.terminated
    rw [← ht.eq] at heq
    rw [heq]
    refine keepsRows_ok.2 (whole_filled_iff.2 ⟨hout ▸ ht.room, fun t hm => (hterm t hm).2, ?_⟩)
    exact noHole_of_ne_nil fun t hm => (hterm t hm).1

theorem shrinkLoop_filled {value : Nat} (hv : value < sh.colNum) {n : Nat} {texts : List (List Char)}
    (hne : ∀ t ∈ texts, t ≠ []) :
    ∃ i, shrinkLoop value sh (filled n texts) = .ok (i, filled n (texts.map (·.take value))) := by
  induction texts generalizing n with
  | nil =>
    refine ⟨0, ?_⟩
    cases n <;> simp [filled, List.replicate_succ, shrinkLoop]
  | cons t texts ih =>
    rw [List.forall_mem_cons] at hne
    obtain ⟨i, hi⟩ := ih (n := n - 1) hne.2
    refine ⟨i + 1, ?_⟩
    rw [filled_cons, shrinkLoop, if_neg hne.1, if_pos hv, hi, List.map_cons, filled_cons]
    rfl

/-- All rows are cut at one column, so none is empty before others. -/
theorem noGap_take {rows : Matrix} (value : Nat) : NoGap (·.take value) rows := by
  refine List.pairwise_map.2 (List.pairwise_of_forall_mem_list fun a ha b _ he => ?_)
  rcases List.take_eq_nil_iff.1 he with rfl | he
  · rfl
  · exact absurd he (mem_visible ha).2

theorem headD_eq_nil_iff {rows : Matrix} : rows.headD [] = [] ↔ visible rows = [] := by
  cases rows with
  | nil => exact iff_of_true rfl rfl
  | cons row rows =>
    by_cases he : row = []
    · rw [visible, List.takeWhile_cons_of_neg (by simpa using he)]
      exact iff_of_true he rfl
    · rw [visible, List.takeWhile_cons_of_pos (by simpa using he)]
      exact iff_of_false he (List.cons_ne_nil _ _)

/-- At most the first row is not empty. -/
theorem visible_le_one_iff {row : List Char} {rows : Matrix} (h : NoHole (row :: rows)) :
    (visible (row :: rows)).length ≤ 1 ↔ ∀ r ∈ rows, r = [] := by
  obtain ⟨hrow, hrows⟩ := List.pairwise_cons.1 h
  rw [h.visible_eq]
  by_cases he : row = []
  · have hall : ∀ r ∈ rows, r = [] := fun r hr => hrow r hr he
    refine iff_of_true ?_ hall
    rw [List.filter_eq_nil_iff.2 fun r hr => by simpa using (List.mem_cons.1 hr).elim (fun h => h ▸ he) (hall r)]
    exact Nat.zero_le _
  · rw [List.filter_cons_of_pos (by simpa using he), List.length_cons, Nat.succ_le_succ_iff, Nat.le_zero,
      List.length_eq_zero_iff, List.filter_eq_nil_iff]
    exact forall₂_congr fun r _ => by simp

/-- A row is cut at the column behind its last. -/
theorem keeps_shrinkLast {rows : Matrix} (h : Whole sh rows) :
    KeepsRows sh ((shrinkLoop sh.colNum sh rows).map fun (i, rows) =>
        (if 1 ≤ i then BASE_PARSING_SUCCEEDED else BASE_PARSING_FAILED, rows)) ↔
      visible rows = [] ∨ (visible rows).length ≤ 2 ∧ 1 < sh.rowNum := by
  have hrowNum := h.length
  cases rows with
  | nil => exact iff_of_true (keepsRows_ok.2 h) (.inl rfl)
  | cons row rows =>
    rw [List.length_cons] at hrowNum
    by_cases he : row = []
    · rw [shrinkLoop, if_pos he]
      exact iff_of_true (keepsRows_ok.2 h) (.inl (headD_eq_nil_iff.1 he))
    have hvis : visible (row :: rows) = row :: visible rows := List.takeWhile_cons_of_pos (by simpa using he)
    rw [shrinkLoop, if_neg he, if_neg (Nat.lt_irrefl _), hvis, List.length_cons]
    cases rows with
    | nil =>
      refine iff_of_false not_keepsRows_error ?_
      rintro (hnil | ⟨-, hrows⟩)
      · exact List.cons_ne_nil _ _ hnil
      · rw [List.length_nil] at hrowNum
        omega
    | cons next rest =>
      rw [if_neg (List.cons_ne_nil _ _)]
      rw [List.length_cons] at hrowNum
      refine keepsRows_ok.trans ?_
      obtain ⟨-, hnext⟩ := List.pairwise_cons.1 h.noHole
      have hrows : 1 < sh.rowNum := by omega
      rw [or_iff_right (List.cons_ne_nil _ _), and_iff_left hrows, Nat.succ_le_succ_iff, visible_le_one_iff hnext]
      constructor
      · intro hw r hr
        exact (List.pairwise_cons.1 (List.pairwise_cons.1 hw.noHole).2).1 r hr rfl
      · intro hempty
        have hterm := h.terminated
        rw [List.forall_mem_cons, List.forall_mem_cons] at hterm
        refine ⟨hrowNum, ?_, List.pairwise_cons.2 ⟨fun _ _ hr => absurd hr he, List.pairwise_cons.2 ⟨?_, ?_⟩⟩⟩
        · rw [List.forall_mem_cons, List.forall_mem_cons]
          exact ⟨hterm.1, sh.colNum_pos, hterm.2.2⟩
        · exact fun r hr _ => hempty r hr
        · exact (List.pairwise_cons.1 hnext).2

theorem keeps_shrink {rows : Matrix} (h : Whole sh rows) (matchCase : List Char) :
    KeepsRows sh (arrayShrinkString matchCase sh rows) ↔
      (matchCase ≠ [] → ShrinkFits sh rows (strtolEnd 10 matchCase).1) := by
  have ht := h.texts
  unfold arrayShrinkString ShrinkFits
  dsimp only
  split
  · rename_i hm
    exact iff_of_true (keepsRows_ok.2 h) fun hne => absurd hm hne
  rename_i hm
  rw [imp_iff_right hm]
  generalize (strtolEnd 10 matchCase).1 = value
  split
  · rename_i hlarge
    exact iff_of_true (keepsRows_ok.2 h) (.inl hlarge)
  rename_i hle
  split
  · rename_i hneg
    split
    · rename_i hempty
      exact iff_of_true (keepsRows_ok.2 h) (.inr (.inl (headD_eq_nil_iff.1 hempty)))
    · rename_i hempty
      rw [headD_eq_nil_iff] at hempty
      refine iff_of_false not_keepsRows_error ?_
      rintro (hlarge | he | ⟨hpos, -⟩ | ⟨hcol, -⟩)
      · exact hle hlarge
      · exact hempty he
      · omega
      · omega
  rename_i hpos
  by_cases hlt : value < sh.colNum
  · obtain ⟨i, hi⟩ := shrinkLoop_filled (n := sh.rowNum) (show value.toNat < sh.colNum by omega) ht.ne_nil
    rw [← ht.eq] at hi
    rw [hi]
    refine iff_of_true (keepsRows_ok.2 ?_) (.inr (.inr (.inl ⟨by omega, hlt⟩)))
    exact (whole_map_iff h fun t => List.length_take_le' value.toNat t).2 (noGap_take _)
  · have hval : value.toNat = sh.colNum := by omega
    rw [hval, keeps_shrinkLast h]
    constructor
    · rintro (he | hlast)
      · exact .inr (.inl he)
      · exact .inr (.inr (.inr ⟨by omega, hlast⟩))
    · rintro (hlarge | he | ⟨-, hin⟩ | ⟨-, hlast⟩)
      · exact absurd hlarge hle
      · exact .inl he
      · exact absurd hin hlt
      · exact .inr hlast

/-! ## Rows built anew -/

/-- The copy of the parser holds the array. -/
def Shape.Copied (sh : Shape) : Prop := sh.rowNum * sh.colNum ≤ BASE_MAX_ROW_NUM * BASE_MAX_COL_NUM

theorem keeps_copied (hsh : sh.Copied) {out : Matrix} : KeepsRows sh (copied sh (.ok out)) ↔ Whole sh (filled sh.rowNum out) := by
  rw [copied, if_neg (Nat.not_lt.2 hsh)]
  exact keepsRows_ok

/-- Some of the rows, each as it is. -/
theorem whole_of_sublist {rows : Matrix} (h : Whole sh rows) {out : Matrix} (hsub : out.Sublist rows) :
    Whole sh (filled sh.rowNum out) :=
  whole_filled_iff.2 ⟨h.length ▸ hsub.length_le, fun t hm => h.terminated t (hsub.subset hm), h.noHole.sublist hsub⟩

theorem visible_sublist (rows : Matrix) : (visible rows).Sublist rows := List.takeWhile_sublist _

theorem take_texts {rows : Matrix} (h : Whole sh rows) {out : Matrix} (hsub : ∀ t ∈ out, t ∈ rows) :
    out.map (·.take (sh.colNum - 1)) = out := by
  refine (List.map_congr_left fun t hm => ?_).trans (List.map_id' out)
  have hlt := h.terminated t (hsub t hm)
  exact List.take_of_length_le (by omega)

theorem keeps_delete (hsh : sh.Copied) {rows : Matrix} (h : Whole sh rows) (matchCase : List Char) :
    KeepsRows sh (arrayDeleteElement matchCase sh rows) :=
  (keeps_copied hsh).2 (whole_of_sublist h (List.filter_sublist.trans (visible_sublist rows)))

theorem keeps_count (hsh : sh.Copied) {rows : Matrix} : KeepsRows sh (arrayCountElements sh rows) := by
  refine (keeps_copied hsh).2 (whole_filled_iff.2 ⟨sh.rowNum_pos, fun t hm => ?_, List.pairwise_singleton _ _⟩)
  have hcol := sh.colNum_pos
  rw [List.mem_singleton.1 hm, List.length_take]
  omega

theorem uniqRows_sublist (seen rows : Matrix) : (uniqRows seen rows).Sublist rows := by
  induction rows generalizing seen with
  | nil => exact List.Sublist.refl _
  | cons row rows ih =>
    rw [uniqRows]
    split
    · exact (ih seen).cons row
    · exact (ih (row :: seen)).cons_cons row

theorem keeps_uniq (hsh : sh.Copied) {rows : Matrix} (h : Whole sh rows) : KeepsRows sh (arrayUniqElements sh rows) := by
  have hsub := (uniqRows_sublist [] (visible rows)).trans (visible_sublist rows)
  rw [arrayUniqElements, if_neg (Nat.not_lt.2 hsh)]
  refine keepsRows_ok.2 ?_
  have huniq := take_texts h fun t hm => hsub.subset hm
  unfold visible at huniq hsub
  rw [huniq]
  exact whole_of_sublist h hsub

theorem keeps_takeValuesBefore (hsh : sh.Copied) {rows : Matrix} (h : Whole sh rows) (matchCase : List Char) :
    KeepsRows sh (arrayTakeValuesBeforeMatchCase matchCase sh rows) := by
  have hloop : ∀ rows : Matrix, (∀ row ∈ rows, row.length < sh.colNum) →
      ∃ out, takeValuesBeforeLoop matchCase sh rows = .ok out ∧ out.Sublist (visible rows) := by
    intro rows hterm
    induction rows with
    | nil => exact ⟨[], rfl, List.Sublist.refl _⟩
    | cons row rows ih =>
      rw [List.forall_mem_cons] at hterm
      rw [takeValuesBeforeLoop]
      split
      · exact ⟨[], rfl, List.nil_sublist _⟩
      rename_i hne
      rw [if_neg (Nat.not_le.2 hterm.1)]
      split
      · exact ⟨[], rfl, List.nil_sublist _⟩
      · obtain ⟨out, hout, hsub⟩ := ih hterm.2
        refine ⟨row :: out, ?_, ?_⟩
        · rw [hout, List.take_of_length_le (by omega)]
          rfl
        · rw [visible, List.takeWhile_cons_of_pos (by simpa using hne)]
          exact hsub.cons_cons row
  obtain ⟨out, hout, hsub⟩ := hloop rows h.terminated
  rw [arrayTakeValuesBeforeMatchCase, hout]
  exact (keeps_copied hsh).2 (whole_of_sublist h (hsub.trans (visible_sublist rows)))

/-- Behind the match each row is followed by the next, and the last of a full array by
one of the stack. -/
theorem takeValuesAfterLoop_flag (matchCase : List Char) {rows : Matrix} (hterm : ∀ row ∈ rows, row.length < sh.colNum) :
    takeValuesAfterLoop matchCase sh true rows =
      if (visible rows).length < rows.length ∨ rows = [] then .ok ((rows.take ((visible rows).length + 1)).drop 1)
      else .error .read := by
  induction rows with
  | nil => rfl
  | cons row rows ih =>
    rw [List.forall_mem_cons] at hterm
    by_cases he : row = []
    · have hvis : visible (row :: rows) = [] := List.takeWhile_cons_of_neg (by simpa using he)
      rw [takeValuesAfterLoop, if_pos he, hvis, if_pos (.inl (Nat.succ_pos _))]
      rfl
    · have hvis : visible (row :: rows) = row :: visible rows := List.takeWhile_cons_of_pos (by simpa using he)
      rw [takeValuesAfterLoop, if_neg he, if_neg (Nat.not_le.2 hterm.1), if_pos (Bool.true_or _), ih hterm.2, hvis,
        List.length_cons, List.length_cons]
      cases rows with
      | nil => rfl
      | cons next rest =>
        have hnext := hterm.2 next (List.mem_cons_self ..)
        rw [if_neg (List.cons_ne_nil _ _)]
        by_cases hroom : (visible (next :: rest)).length < (next :: rest).length
        · rw [if_pos (.inl hroom), if_pos (.inl (Nat.succ_lt_succ hroom)), List.headD_cons,
            List.take_of_length_le (by omega)]
          rfl
        · rw [if_neg (not_or.2 ⟨hroom, List.cons_ne_nil _ _⟩),
            if_neg (not_or.2 ⟨fun h => hroom (Nat.lt_of_succ_lt_succ h), List.cons_ne_nil _ _⟩)]
          rfl

theorem takeValuesAfterLoop_none {matchCase : List Char} {rows : Matrix} (hterm : ∀ row ∈ rows, row.length < sh.colNum)
    (h : ∀ t ∈ visible rows, strstr matchCase t = none) : takeValuesAfterLoop matchCase sh false rows = .ok [] := by
  induction rows with
  | nil => rfl
  | cons row rows ih =>
    rw [List.forall_mem_cons] at hterm
    rw [takeValuesAfterLoop]
    split
    · rfl
    rename_i he
    rw [visible, List.takeWhile_cons_of_pos (by simpa using he), List.forall_mem_cons] at h
    rw [if_neg (Nat.not_le.2 hterm.1), h.1]
    exact ih hterm.2 h.2

/-- From the first row that matches. -/
theorem takeValuesAfterLoop_some {matchCase : List Char} {rows : Matrix} (hterm : ∀ row ∈ rows, row.length < sh.colNum)
    (h : ¬ ∀ t ∈ visible rows, strstr matchCase t = none) :
    ∃ suf, suf <:+ rows ∧ suf ≠ [] ∧ takeValuesAfterLoop matchCase sh false rows = takeValuesAfterLoop matchCase sh true suf ∧
      ((visible suf).length < suf.length ↔ (visible rows).length < rows.length) := by
  induction rows with
  | nil => exact absurd (List.forall_mem_nil _) h
  | cons row rows ih =>
    rw [List.forall_mem_cons] at hterm
    by_cases he : row = []
    · rw [visible, List.takeWhile_cons_of_neg (by simpa using he)] at h
      exact absurd (List.forall_mem_nil _) h
    · have hvis : visible (row :: rows) = row :: visible rows := List.takeWhile_cons_of_pos (by simpa using he)
      by_cases hm : (strstr matchCase row).isSome = true
      · refine ⟨row :: rows, List.suffix_refl _, List.cons_ne_nil _ _, ?_, Iff.rfl⟩
        rw [takeValuesAfterLoop, takeValuesAfterLoop, hm]
        rfl
      · rw [Bool.not_eq_true] at hm
        have hnone : strstr matchCase row = none := Option.isNone_iff_eq_none.1 (by rw [← Option.not_isSome, hm]; rfl)
        rw [hvis, List.forall_mem_cons, and_iff_right hnone] at h
        obtain ⟨suf, hsuf, hne, hloop, hlen⟩ := ih hterm.2 h
        refine ⟨suf, hsuf.trans (List.suffix_cons _ _), hne, ?_, ?_⟩
        · rw [takeValuesAfterLoop, if_neg he, if_neg (Nat.not_le.2 hterm.1), hm]
          exact hloop
        · rw [hlen, hvis, List.length_cons, List.length_cons, Nat.succ_lt_succ_iff]

theorem keeps_takeValuesAfter (hsh : sh.Copied) {rows : Matrix} (h : Whole sh rows) (matchCase : List Char) :
    KeepsRows sh (arrayTakeValuesAfterMatchCase matchCase sh rows) ↔
      (visible rows).length < sh.rowNum ∨ ∀ t ∈ visible rows, strstr matchCase t = none := by
  unfold arrayTakeValuesAfterMatchCase
  by_cases hnone : ∀ t ∈ visible rows, strstr matchCase t = none
  · rw [takeValuesAfterLoop_none h.terminated hnone]
    exact iff_of_true ((keeps_copied hsh).2 (whole_of_sublist h (List.nil_sublist rows))) (.inr hnone)
  · obtain ⟨suf, hsuf, hne, hloop, hlen⟩ := takeValuesAfterLoop_some h.terminated hnone
    rw [or_iff_left hnone, ← h.length, ← hlen, hloop,
      takeValuesAfterLoop_flag matchCase fun row hr => h.terminated row (hsuf.subset hr)]
    split
    · rename_i hroom
      refine iff_of_true ((keeps_copied hsh).2 (whole_of_sublist h ?_)) (hroom.resolve_right hne)
      exact (List.drop_sublist _ _).trans ((List.take_sublist _ _).trans hsuf.sublist)
    · rename_i hfull
      rw [copied, if_neg (Nat.not_lt.2 hsh)]
      exact iff_of_false not_keepsRows_error fun hroom => hfull (.inl hroom)

end Steps

/-! ## Runs -/

/-- **A parser keeps a whole array whole exactly when it is safe.** -/
theorem keeps_iff (sh : Target) {s : Scan} (h : Whole sh.toShape s.rows) (matchCase : List Char) (p : Parser) :
    Keeps sh.toShape (p.run matchCase sh.toShape s) ↔ Safe matchCase sh.toShape s p := by
  have hsh : sh.toShape.Copied := sh.bytes
  cases p with
  | findOnLine => exact iff_of_true (keeps_ok.2 h) True.intro
  | isNotOnLine => exact iff_of_true (keeps_ok.2 h) True.intro
  | findOnLineAndFillResultArray => exact keeps_fillResult h matchCase
  | findAndGetNextWord => exact keeps_nextWord h matchCase
  | findAndGetPreviousWord => exact keeps_previousWord h matchCase
  | getFirstWord => exact keeps_word h s.line
  | parseDecValuesSeparatedWithSpaces => exact iff_of_true (keeps_decValues h) True.intro
  | getAllLines => exact keeps_allLines h matchCase
  | arrayTakeValueAfter => exact keeps_onRows.trans (keeps_takeValueAfter h matchCase)
  | arrayDropPunctuation => exact keeps_onRows.trans (keeps_dropPunctuation h)
  | arrayDeleteElement => exact iff_of_true (keeps_onRows.2 (keeps_delete hsh h matchCase)) True.intro
  | arrayBitwiseAndMask => exact iff_of_true (keeps_onRows.2 (keeps_mask h matchCase _ _)) True.intro
  | arrayMultiplyLongIntWith => exact iff_of_true (keeps_onRows.2 (keeps_mask h matchCase _ _)) True.intro
  | arrayShiftRight => exact iff_of_true (keeps_onRows.2 (keeps_mask h matchCase _ _)) True.intro
  | arrayConvertHexStringToLongInt => exact iff_of_true (keeps_onRows.2 (keeps_mask h [] _ _)) True.intro
  | arrayShrinkString => exact keeps_onRows.trans (keeps_shrink h matchCase)
  | arrayUniqElements => exact iff_of_true (keeps_onRows.2 (keeps_uniq hsh h)) True.intro
  | arrayCountElements => exact iff_of_true (keeps_onRows.2 (keeps_count hsh)) True.intro
  | arrayUntilMatchCase => exact keeps_onRows.trans (keeps_untilMatchCase h matchCase)
  | arrayTakeValuesAfterMatchCase => exact keeps_onRows.trans (keeps_takeValuesAfter hsh h matchCase)
  | arrayTakeValuesBeforeMatchCase => exact iff_of_true (keeps_onRows.2 (keeps_takeValuesBefore hsh h matchCase)) True.intro
  | arrayWriteToFile opened => exact iff_of_true (keeps_ok.2 h) True.intro

/-- A parser with its match case, on a line. -/
structure Call where
  parser : Parser
  matchCase : List Char
  line : List Char

/-- The array after a call, if no call has left it. -/
def call (sh : Shape) (r : Except Overrun Matrix) (c : Call) : Unit × Except Overrun Matrix :=
  ((), r.bind fun rows => (c.parser.run c.matchCase sh ⟨c.line, rows⟩).map fun (_, s) => s.rows)

def Intact (sh : Shape) (r : Except Overrun Matrix) : Prop :=
  ∃ rows, r = .ok rows ∧ Whole sh rows ∧ visible rows = rows.filter (· ≠ [])

def CallSafe (sh : Shape) (r : Except Overrun Matrix) (c : Call) : Prop :=
  ∀ rows, r = .ok rows → Safe c.matchCase sh ⟨c.line, rows⟩ c.parser

/-- **In a run the array is whole after every call, and all its rows are seen, exactly
when every call is safe where it is made.** -/
theorem parsers_whole_iff (sh : Target) (calls : List Call) :
    (∀ pre suf, calls = pre ++ suf →
      Intact sh.toShape (after (call sh.toShape) (.ok (zeros sh.toShape)) pre)) ↔
        Guarded (call sh.toShape) (CallSafe sh.toShape) (.ok (zeros sh.toShape)) calls := by
  have hintact : ∀ {r}, Intact sh.toShape r ↔ ∃ rows, r = .ok rows ∧ Whole sh.toShape rows := fun {r} =>
    ⟨fun ⟨rows, hr, hw, _⟩ => ⟨rows, hr, hw⟩, fun ⟨rows, hr, hw⟩ => ⟨rows, hr, hw, hw.noHole.visible_eq⟩⟩
  have hstep : ∀ r c, True → Intact sh.toShape r →
      (Intact sh.toShape (call sh.toShape r c).2 ∧ True ↔ CallSafe sh.toShape r c) := by
    rintro r c - hr
    obtain ⟨rows, rfl, hw⟩ := hintact.1 hr
    have hsafe : CallSafe sh.toShape (.ok rows) c ↔ Safe c.matchCase sh.toShape ⟨c.line, rows⟩ c.parser :=
      ⟨fun h => h rows rfl, fun h _ he => Except.ok.inj he ▸ h⟩
    rw [and_true, hsafe, ← keeps_iff sh (s := ⟨c.line, rows⟩) hw, hintact]
    simp only [call, Except.bind, Keeps]
    cases c.parser.run c.matchCase sh.toShape ⟨c.line, rows⟩ with
    | error e => exact iff_of_false (fun ⟨_, h, _⟩ => nomatch h) fun ⟨_, _, h, _⟩ => nomatch h
    | ok r =>
      constructor
      · rintro ⟨_, he, hw⟩
        obtain rfl := Except.ok.inj he
        exact ⟨r.1, r.2, rfl, hw⟩
      · rintro ⟨status, s, he, hw⟩
        obtain rfl := Except.ok.inj he
        exact ⟨_, rfl, hw⟩
  have hrun := steps_iff_guarded (fun _ _ _ _ _ => True.intro) hstep True.intro
    (hintact.2 ⟨_, rfl, whole_zeros sh.toShape⟩) calls
  rwa [and_iff_left (Guarded.trivial calls)] at hrun

def twoRows : Target where
  rowNum := 2
  colNum := MAX_STR_LEN
  rowNum_pos := Nat.two_pos
  colNum_pos := MAX_STR_LEN_pos
  columns := by decide
  bytes := by decide

def takenAfterPoint : List Call :=
  [⟨.getFirstWord, [], "eth0".toList⟩, ⟨.getFirstWord, [], "8.002".toList⟩, ⟨.arrayTakeValueAfter, ".".toList, []⟩]

/-- The first row has no point and is left empty before the second. -/
theorem not_intact_takenAfterPoint :
    ¬ Intact twoRows.toShape (after (call twoRows.toShape) (.ok (zeros twoRows.toShape)) takenAfterPoint) := by
  rintro ⟨rows, hrows, hw, -⟩
  have hrun : after (call twoRows.toShape) (.ok (zeros twoRows.toShape)) takenAfterPoint = .ok [[], "002".toList] := by
    decide
  obtain rfl := Except.ok.inj (hrun.symm.trans hrows)
  exact absurd ((List.pairwise_cons.1 hw.noHole).1 _ (List.mem_singleton_self _) rfl) (by decide)

end TsnSwitch.Tools
