/-
Tool outputs made of whole lines, and chains that look lines up in them.

A lookup lets the lines pass that contain some patterns and either takes a
word from each (`getObject_uniq`) or asks for one such line (`getObject_and`).
-/
import TsnSwitch.Lib.Once
import TsnSwitch.Tools.Parsing

namespace TsnSwitch.Tools

open Lib
open Base (MAX_STR_LEN EXIT_SUCCESS EXIT_FAILURE)

/-! ## Lines and words -/

/-- A line that one `fgets` reads. -/
structure Line where
  text : List Char
  plain : ∀ c ∈ text, c ≠ '\n' ∧ c ≠ NUL
  fits : text.length + 1 < MAX_STR_LEN

def outputOf (lines : List Line) : List Char := lines.flatMap fun l => l.text ++ ['\n']

/-- A text between blanks. -/
structure Word where
  text : List Char
  ne_nil : text ≠ []
  plain : ∀ c ∈ text, isSpace c = false ∧ c ≠ NUL

theorem fgetsPieces_line {line : List Char} (hnl : '\n' ∉ line) (rest : List Char) {room : Nat} (piece : List Char)
    (hroom : line.length < room) :
    fgetsPieces room piece (line ++ '\n' :: rest) =
      (piece ++ line ++ ['\n']) :: fgetsPieces (MAX_STR_LEN - 1) [] rest := by
  induction line generalizing room piece with
  | nil => rw [List.nil_append, fgetsPieces, if_pos (.inl rfl), List.append_nil]
  | cons c line ih =>
    rw [List.mem_cons, not_or] at hnl
    rw [List.length_cons] at hroom
    have hc : ¬ (c = '\n' ∨ room ≤ 1) := by
      rintro (rfl | h)
      · exact hnl.1 rfl
      · omega
    rw [List.cons_append, fgetsPieces, if_neg hc, ih hnl.2 _ (by omega), List.append_assoc piece [c] line]
    rfl

theorem Line.newline_not_mem (l : Line) : '\n' ∉ l.text := fun h => (l.plain _ h).1 rfl

theorem piecesOf_outputOf (lines : List Line) : piecesOf (outputOf lines) = lines.map fun l => l.text ++ ['\n'] := by
  rw [piecesOf]
  induction lines with
  | nil => rfl
  | cons l lines ih =>
    have hfits := l.fits
    rw [outputOf, List.flatMap_cons, List.append_assoc, List.singleton_append,
      fgetsPieces_line l.newline_not_mem _ [] (by omega), List.nil_append, List.map_cons]
    exact congrArg _ ih

theorem terminateString_line (l : Line) : terminateString (l.text ++ ['\n']) = l.text := by
  have hnul : ∀ c ∈ l.text ++ ['\n'], decide (c ≠ NUL) = true := by
    intro c hc
    rcases List.mem_append.1 hc with hc | hc
    · exact decide_eq_true (l.plain c hc).2
    · rw [List.mem_singleton.1 hc]; decide
  rw [terminateString, cString, List.takeWhile_eq_self_iff.2 hnul,
    List.takeWhile_append_of_pos fun c hc => decide_eq_true (l.plain c hc).1, List.takeWhile_cons_of_neg (by decide),
    List.append_nil]

/-- The words taken from an output, line by line. -/
theorem captures_outputOf (filters : List ParserSpec) (p : ParserSpec) (lines : List Line) :
    captures filters p (piecesOf (outputOf lines)) = lines.filterMap fun l => capture filters p l.text := by
  rw [captures, piecesOf_outputOf, List.filterMap_map]
  exact List.filterMap_congr fun l _ => by rw [Function.comp, terminateString_line]

theorem Word.not_endsWord (w : Word) : ∀ c ∈ w.text, endsWord c = false := by
  intro c hc
  have h := (w.plain c hc).1
  have h1 : c ≠ ' ' := by rintro rfl; revert h; decide
  have h2 : c ≠ '\t' := by rintro rfl; revert h; decide
  have h3 : c ≠ '\n' := by rintro rfl; revert h; decide
  simp [endsWord, isBlank, h1, h2, h3]

/-- The word behind a blank. -/
theorem nextWord_blank (w : Word) (rest : List Char) : nextWord (' ' :: (w.text ++ ' ' :: rest)) = w.text := by
  have hblank : isBlank ' ' = true := by decide
  have hgap : ∀ c ∈ [' '], isBlank c = true := fun c hc => by rw [List.mem_singleton.1 hc, hblank]
  have htail : ∀ c, (' ' :: rest).head? = some c → isBlank c = true := fun c hc => by rw [← Option.some.inj hc, hblank]
  exact nextWord_between hgap w.ne_nil w.not_endsWord htail

/-! ## Words of all lines -/

theorem uniqRows_eq (seen rows : Matrix) : uniqRows seen rows = (rows.removeAll seen).eraseDups := by
  induction rows generalizing seen with
  | nil => rfl
  | cons row rows ih =>
    rw [uniqRows, List.cons_removeAll]
    by_cases h : row ∈ seen
    · rw [if_pos h, if_neg (by simpa using h), ih]
    · rw [if_neg h, if_pos (by simpa using h), ih, List.eraseDups_cons, List.removeAll, List.removeAll, List.filter_filter]
      congr 2
      refine List.filter_congr fun b _ => ?_
      by_cases hb : b = row <;> simp [hb]

theorem uniqRows_nil (rows : Matrix) : uniqRows [] rows = rows.eraseDups := by
  rw [uniqRows_eq]
  simp [List.removeAll]

theorem mem_uniqRows {w : List Char} {seen rows : Matrix} : w ∈ uniqRows seen rows ↔ w ∈ rows ∧ w ∉ seen := by
  rw [uniqRows_eq, List.mem_eraseDups, List.removeAll, List.mem_filter]
  simp

theorem arrayUniqElements_eq {sh : Shape} (hcopy : sh.rowNum * sh.colNum ≤ BASE_MAX_ROW_NUM * BASE_MAX_COL_NUM)
    (rows : Matrix) : arrayUniqElements sh rows =
      .ok (BASE_PARSING_SUCCEEDED,
        filled sh.rowNum ((rows.takeWhile (· ≠ [])).eraseDups.map (·.take (sh.colNum - 1)))) := by
  rw [arrayUniqElements, if_neg (Nat.not_lt.2 hcopy), uniqRows_nil]
  rfl

/-- The shapes with columns for a line that fit the copy of the array. -/
def Shape.HoldsLines (sh : Shape) : Prop :=
  MAX_STR_LEN ≤ sh.colNum ∧ sh.rowNum * sh.colNum ≤ BASE_MAX_ROW_NUM * BASE_MAX_COL_NUM

theorem arrayUniqElements_filled {sh : Shape} (hsh : sh.HoldsLines) {texts : List (List Char)}
    (hlen : ∀ t ∈ texts, t.length < MAX_STR_LEN) :
    arrayUniqElements sh (filled sh.rowNum texts) =
      .ok (BASE_PARSING_SUCCEEDED, filled sh.rowNum (uniqRows [] (texts.takeWhile (· ≠ [])))) := by
  have hcut : (uniqRows [] (texts.takeWhile (· ≠ []))).map (·.take (sh.colNum - 1)) =
      uniqRows [] (texts.takeWhile (· ≠ [])) := by
    refine map_take_of_short fun t ht => ?_
    have := hlen t ((List.takeWhile_prefix _).subset (mem_uniqRows.1 ht).1)
    have := hsh.1
    omega
  rw [arrayUniqElements, if_neg (Nat.not_lt.2 hsh.2)]
  simp only [takeWhile_filled_any, hcut]
  rfl

/-- A lookup of words leaves them in the array, and bits of parsers only. -/
theorem getObject_words {filters : List ParserSpec} {p : ParserSpec} (hf : ∀ f ∈ filters, f.IsFilter)
    (hp : p.TakesWord) {sh : Shape} {text : List Char} (hfit : (captures filters p (piecesOf text)).length ≤ sh.rowNum)
    (spec : SysCallSpec) :
    ∃ status : Status, status.OnlyParsing ∧
      getObject ((some .repeatUntilNullWithCheck, filters ++ [p]) :: spec) sh (some text) =
        (combinatorComb sh spec status
          ⟨[], filled sh.rowNum ((captures filters p (piecesOf text)).map (·.take sh.colNum))⟩).map fun r =>
            if r.1.rejected then (EXIT_FAILURE, zeros sh) else (EXIT_SUCCESS, r.2.rows) := by
  have hrun := repeatUntilNullWithCheck_eq hf hp sh (piecesOf text)
  rw [if_pos hfit] at hrun
  have hbits := linesStatus_onlyParsing filters p (piecesOf text)
  refine ⟨_, ?_, getObject_cons (c := .repeatUntilNullWithCheck) _ hrun ?_⟩
  · split <;> exact hbits
  · split <;> exact hbits.1

/-- A word for which there is no row is written behind the array. -/
theorem getObject_overrun {filters : List ParserSpec} {p : ParserSpec} (hf : ∀ f ∈ filters, f.IsFilter)
    (hp : p.TakesWord) {sh : Shape} {text : List Char}
    (hfit : ¬(captures filters p (piecesOf text)).length ≤ sh.rowNum) (spec : SysCallSpec) :
    getObject ((some .repeatUntilNullWithCheck, filters ++ [p]) :: spec) sh (some text) = .error .write := by
  have hrun := repeatUntilNullWithCheck_eq hf hp sh (piecesOf text)
  rw [if_neg hfit] at hrun
  rw [getObject, getStrSysCall]
  simp only [combinatorComb, Combinator.run, hrun]
  rfl

/-- A success of the last callback is one of the object. -/
theorem combinatorComb_last {sh : Shape} {cb : Callback} {matchCase : String} {status : Status}
    (hst : status.OnlyParsing) {output : List (List Char)} {rows rows' : Matrix}
    (hrun : cb.run matchCase.toList sh ⟨[], rows⟩ = .ok (BASE_PARSING_SUCCEEDED, ⟨[], rows'⟩)) :
    ((combinatorComb sh [(some .noCombinator, single cb matchCase)] status ⟨output, rows⟩).map fun r =>
      if r.1.rejected then (EXIT_FAILURE, zeros sh) else (EXIT_SUCCESS, r.2.rows)) = .ok (EXIT_SUCCESS, rows') := by
  have hok : (status ||| BASE_PARSING_SUCCEEDED).failed = false := by rw [or_failed, hst.1]; rfl
  have hno : (status ||| BASE_PARSING_SUCCEEDED).rejected = false := by
    rw [rejected_eq hok, or_validationFailed, hst.2.1, or_parsingSucceeded]
    simp [BASE_PARSING_SUCCEEDED]
  rw [combinatorComb_single, hrun]
  simp only [Except.bind, Except.map, hok, hno, combinatorComb, Bool.false_eq_true, if_false]

/-- **A lookup of words gives each word once, where there are rows for all of
them.** -/
theorem getObject_uniq {filters : List ParserSpec} {p : ParserSpec} (hf : ∀ f ∈ filters, f.IsFilter)
    (hp : p.TakesWord) {sh : Shape} (hsh : sh.HoldsLines) (text : List Char) :
    getObject [(some .repeatUntilNullWithCheck, filters ++ [p]), (some .noCombinator, single .arrayUniqElements "")]
        sh (some text) =
      if (captures filters p (piecesOf text)).length ≤ sh.rowNum then
        .ok (EXIT_SUCCESS, filled sh.rowNum (uniqRows [] (captures filters p (piecesOf text))))
      else .error .write := by
  by_cases hfit : (captures filters p (piecesOf text)).length ≤ sh.rowNum
  · obtain ⟨status, hst, heq⟩ := getObject_words hf hp hfit [(some .noCombinator, single .arrayUniqElements "")]
    rw [if_pos hfit, heq, captures_take hsh.1]
    refine combinatorComb_last hst ?_
    simp only [Callback.run, arrayUniqElements_filled hsh captures_length, Except.map]
    rw [List.takeWhile_eq_self_iff.2 (by simpa using captures_ne_nil)]
  · rw [if_neg hfit]
    exact getObject_overrun hf hp hfit _

/-! ## One such line -/

def onLine (matchCase : List Char) : ParserSpec := ⟨some .findOnLine, matchCase⟩

theorem onLine_isFilter (pat : List Char) : (onLine pat).IsFilter := .inl rfl

/-- A pattern occurs somewhere in a line. -/
def Line.Contains (l : Line) (pat : List Char) : Prop := pat ≠ [] ∧ pat <:+: l.text

instance (l : Line) (pat : List Char) : Decidable (l.Contains pat) := inferInstanceAs (Decidable (_ ∧ _))

@[simp] theorem onLine_passes {pat : List Char} {l : Line} :
    (onLine pat).passes l.text = true ↔ l.Contains pat := by
  simp only [onLine, ParserSpec.passes, Bool.and_eq_true, strstr_isSome]
  exact and_congr decide_eq_true_iff Iff.rfl

theorem andLine_filters (sh : Shape) {filters : List ParserSpec} (hf : ∀ f ∈ filters, f.IsFilter) {status : Status}
    (hst : status.failed = false) (s : Scan) :
    andLine sh filters status s =
      .ok (if filters.all (·.passes s.line) then
        some (if filters = [] then status else status ||| BASE_PARSING_SUCCEEDED) else none, s) := by
  induction filters generalizing status with
  | nil => rfl
  | cons f filters ih =>
    rw [List.forall_mem_cons] at hf
    obtain ⟨cb, hcb, hrun⟩ := run_filter hf.1 sh s
    simp only [andLine, hst, hcb, hrun, Bool.false_eq_true, if_false, List.all_cons, bind, Except.bind,
      List.cons_ne_nil]
    cases f.passes s.line with
    | false => rfl
    | true =>
      simp only [if_true, Bool.true_and, show BASE_PARSING_SUCCEEDED.parsingFailed = false from rfl,
        Bool.false_eq_true, if_false]
      rw [ih hf.2 (by rw [or_failed, hst]; rfl)]
      have htwice : status ||| BASE_PARSING_SUCCEEDED ||| BASE_PARSING_SUCCEEDED = status ||| BASE_PARSING_SUCCEEDED := by
        ext <;> simp
      rw [htwice, ite_self]

theorem andLines_filters (sh : Shape) {filters : List ParserSpec} (hf : ∀ f ∈ filters, f.IsFilter)
    (hne : filters ≠ []) (pieces : List (List Char)) (rows : Matrix) :
    ∃ rest, andLines sh filters pieces rows =
      .ok (if ∃ piece ∈ pieces, filters.all (·.passes (terminateString piece)) then BASE_PARSING_SUCCEEDED
        else BASE_FAILED, ⟨rest, rows⟩) := by
  induction pieces with
  | nil => exact ⟨[], by simp [andLines]⟩
  | cons piece pieces ih =>
    obtain ⟨rest, ih⟩ := ih
    rw [andLines, andLine_filters sh hf rfl]
    simp only [bind, Except.bind, hne, if_false, succeeded_or]
    cases h : filters.all (·.passes (terminateString piece)) with
    | true =>
      refine ⟨pieces, ?_⟩
      rw [if_pos rfl, if_pos ⟨piece, List.mem_cons_self .., h⟩]
      rfl
    | false =>
      refine ⟨rest, ?_⟩
      rw [if_neg (by decide)]
      simp only [ih, List.mem_cons, exists_eq_or_imp, h, Bool.false_eq_true, false_or]

/-- **A lookup of a line is successful where there is one that passes.** -/
theorem getObject_and {filters : List ParserSpec} (hf : ∀ f ∈ filters, f.IsFilter) (hne : filters ≠ []) (sh : Shape)
    (lines : List Line) :
    getObject [(some .andCombinator, filters)] sh (some (outputOf lines)) =
      .ok (if ∃ l ∈ lines, filters.all (·.passes l.text) then EXIT_SUCCESS else EXIT_FAILURE, zeros sh) := by
  obtain ⟨rest, hand⟩ := andLines_filters sh hf hne (piecesOf (outputOf lines)) (zeros sh)
  have hlines : (∃ piece ∈ piecesOf (outputOf lines), filters.all (·.passes (terminateString piece))) ↔
      ∃ l ∈ lines, filters.all (·.passes l.text) := by
    simp only [piecesOf_outputOf, List.mem_map, exists_exists_and_eq_and, terminateString_line]
  simp only [hlines] at hand
  rw [getObject, getStrSysCall]
  simp only [combinatorComb, Combinator.run, hand, bind, Except.bind, succeeded_or]
  by_cases h : ∃ l ∈ lines, filters.all (·.passes l.text)
  · simp only [h, if_true]
    rfl
  · simp only [h, if_false]
    rfl

/-! ## Any such line -/

/-- The bits of a filter on all lines. -/
def filterStatus (f : ParserSpec) (pieces : List (List Char)) : Status where
  failed := false
  validationFailed := false
  validationSucceeded := false
  parsingFailed := pieces.any fun piece => !f.passes (terminateString piece)
  parsingSucceeded := pieces.any fun piece => f.passes (terminateString piece)

theorem filterStatus_cons (f : ParserSpec) (piece : List Char) (pieces : List (List Char)) :
    filterStatus f (piece :: pieces) =
      (if f.passes (terminateString piece) then BASE_PARSING_SUCCEEDED else BASE_PARSING_FAILED) |||
        filterStatus f pieces := by
  cases h : f.passes (terminateString piece) <;> ext <;>
    simp [filterStatus, h, BASE_PARSING_SUCCEEDED, BASE_PARSING_FAILED]

theorem repeatLines_filter (sh : Shape) {f : ParserSpec} (hf : f.IsFilter) {status : Status}
    (hst : status.failed = false) (pieces : List (List Char)) (rows : Matrix) :
    repeatLines sh [f] pieces status rows = .ok (status ||| filterStatus f pieces, rows) := by
  induction pieces generalizing status with
  | nil =>
    have hnil : filterStatus f [] = BASE_SUCCEEDED := rfl
    rw [repeatLines, hnil, or_succeeded]
  | cons piece pieces ih =>
    obtain ⟨cb, hcb, hrun⟩ := run_filter hf sh ⟨terminateString piece, rows⟩
    rw [filterStatus_cons, ← or_assoc]
    simp only [repeatLines_cons, checkLine, hst, hcb, hrun, bind, Except.bind, Bool.false_eq_true, if_false]
    cases f.passes (terminateString piece) <;> exact ih (by rw [or_failed, hst]; rfl)

/-- What the combinator over all lines makes of the bits of a filter. -/
theorem filterStatus_rejected (f : ParserSpec) (pieces : List (List Char)) :
    (if (filterStatus f pieces).parsingSucceeded then { filterStatus f pieces with parsingFailed := false }
      else filterStatus f pieces).rejected = true ↔
        pieces ≠ [] ∧ ∀ piece ∈ pieces, f.passes (terminateString piece) = false := by
  by_cases hany : (filterStatus f pieces).parsingSucceeded = true
  · obtain ⟨piece, hp, hpass⟩ := List.any_eq_true.1 hany
    rw [if_pos hany, rejected_eq (by rfl)]
    refine iff_of_false (by simp [filterStatus]) fun h => ?_
    rw [h.2 piece hp] at hpass
    cases hpass
  · have hno : ∀ piece ∈ pieces, f.passes (terminateString piece) = false := by simpa [filterStatus] using hany
    rw [if_neg hany, rejected_eq (by rfl), (Bool.not_eq_true _).mp hany]
    cases pieces with
    | nil => simp [filterStatus]
    | cons piece pieces => simpa [filterStatus, hno piece] using hno

/-- **A check of all lines is successful where one passes, or where there are
none.** -/
theorem getObject_repeat {f : ParserSpec} (hf : f.IsFilter) (sh : Shape) (lines : List Line) :
    getObject [(some .repeatUntilNullWithCheck, [f])] sh (some (outputOf lines)) =
      .ok (if lines = [] ∨ ∃ l ∈ lines, f.passes l.text then EXIT_SUCCESS else EXIT_FAILURE, zeros sh) := by
  have hlines := repeatLines_filter sh hf (show BASE_SUCCEEDED.failed = false from rfl) (piecesOf (outputOf lines))
    (zeros sh)
  rw [succeeded_or] at hlines
  have hrun : Combinator.run sh [f] ⟨piecesOf (outputOf lines), zeros sh⟩ .repeatUntilNullWithCheck =
      .ok (if (filterStatus f (piecesOf (outputOf lines))).parsingSucceeded then
        { filterStatus f (piecesOf (outputOf lines)) with parsingFailed := false }
      else filterStatus f (piecesOf (outputOf lines)), ⟨[], zeros sh⟩) := by
    rw [Combinator.run, repeatUntilNullWithCheck, hlines]
    rfl
  rw [getObject_cons _ hrun (by split <;> rfl), combinatorComb]
  simp only [Except.map, filterStatus_rejected, piecesOf_outputOf, List.mem_map, forall_exists_index, and_imp,
    forall_apply_eq_imp_iff₂, terminateString_line, ne_eq, List.map_eq_nil_iff]
  by_cases h : lines = [] ∨ ∃ l ∈ lines, f.passes l.text
  · rw [if_pos h, if_neg (by simpa [or_iff_not_imp_left] using h)]
  · rw [if_neg h, if_pos (by simpa [or_iff_not_imp_left] using h)]

end TsnSwitch.Tools
