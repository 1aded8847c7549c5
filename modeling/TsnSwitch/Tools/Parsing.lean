/-
What the first combinators of a chain leave in the array.

A combinator over all lines whose last callback takes a word appends the
words it takes, in the order of the lines, as long as there are rows for them
(`repeatLines_filled`). Whether a line gives a word is decided on that line
alone (`capture`).
-/
import Mathlib.Data.List.TakeWhile
import TsnSwitch.Tools.Chain

namespace TsnSwitch.Tools

open Lib
open Base (MAX_STR_LEN EXIT_SUCCESS EXIT_FAILURE)

/-! ## Status -/

@[simp] theorem or_failed (s t : Status) : (s ||| t).failed = (s.failed || t.failed) := rfl
@[simp] theorem or_validationFailed (s t : Status) :
    (s ||| t).validationFailed = (s.validationFailed || t.validationFailed) := rfl
@[simp] theorem or_validationSucceeded (s t : Status) :
    (s ||| t).validationSucceeded = (s.validationSucceeded || t.validationSucceeded) := rfl
@[simp] theorem or_parsingFailed (s t : Status) :
    (s ||| t).parsingFailed = (s.parsingFailed || t.parsingFailed) := rfl
@[simp] theorem or_parsingSucceeded (s t : Status) :
    (s ||| t).parsingSucceeded = (s.parsingSucceeded || t.parsingSucceeded) := rfl

theorem or_assoc (s t u : Status) : s ||| t ||| u = s ||| (t ||| u) := by
  ext <;> simp [Bool.or_assoc]

@[simp] theorem or_succeeded (s : Status) : s ||| BASE_SUCCEEDED = s := by
  ext <;> simp [BASE_SUCCEEDED]

@[simp] theorem succeeded_or (s : Status) : BASE_SUCCEEDED ||| s = s := by
  ext <;> simp [BASE_SUCCEEDED]

/-- A status without the bits of validators. -/
def Status.OnlyParsing (s : Status) : Prop :=
  s.failed = false ∧ s.validationFailed = false ∧ s.validationSucceeded = false

theorem Status.OnlyParsing.or {s t : Status} (hs : s.OnlyParsing) (ht : t.OnlyParsing) : (s ||| t).OnlyParsing := by
  obtain ⟨h1, h2, h3⟩ := hs
  obtain ⟨k1, k2, k3⟩ := ht
  exact ⟨by rw [or_failed, h1, k1]; rfl, by rw [or_validationFailed, h2, k2]; rfl,
    by rw [or_validationSucceeded, h3, k3]; rfl⟩

/-! ## The array -/

/-- An array of `n` rows that begins with some texts. -/
def filled (n : Nat) (texts : List (List Char)) : Matrix := texts ++ List.replicate (n - texts.length) []

theorem filled_nil (sh : Shape) : filled sh.rowNum [] = zeros sh := rfl

theorem filled_cons (n : Nat) (t : List Char) (texts : List (List Char)) :
    filled n (t :: texts) = t :: filled (n - 1) texts := by
  simp only [filled, List.length_cons, List.cons_append, Nat.sub_sub, Nat.add_comm 1]

theorem fillRow_filled {n : Nat} {texts : List (List Char)} (hne : ∀ t ∈ texts, t ≠ []) (w : List Char) :
    fillRow w (filled n texts) = if texts.length < n then .ok (filled n (texts ++ [w])) else .error .write := by
  induction texts generalizing n with
  | nil =>
    cases n with
    | zero => rfl
    | succ n => simp [filled, fillRow, List.replicate_succ]
  | cons t texts ih =>
    rw [List.forall_mem_cons] at hne
    rw [filled_cons, fillRow, if_neg hne.1, ih hne.2]
    by_cases h : texts.length < n - 1
    · rw [if_pos h, if_pos (by rw [List.length_cons]; omega)]
      simp only [Except.map, filled, List.length_append, List.length_cons, List.length_nil, List.cons_append,
        Nat.sub_sub]
      congr 5
      omega
    · rw [if_neg h, if_neg (by rw [List.length_cons]; omega)]
      rfl

theorem takeWhile_filled_any {n : Nat} (texts : List (List Char)) :
    (filled n texts).takeWhile (· ≠ []) = texts.takeWhile (· ≠ []) := by
  have hempty : (List.replicate (n - texts.length) ([] : List Char)).takeWhile (· ≠ []) = [] := by
    cases n - texts.length <;> rfl
  rw [filled, List.takeWhile_append]
  split
  · rename_i h
    rw [hempty, List.append_nil, (List.takeWhile_prefix _).eq_of_length h]
  · rfl

theorem takeWhile_filled {n : Nat} {texts : List (List Char)} (hne : ∀ t ∈ texts, t ≠ []) :
    (filled n texts).takeWhile (· ≠ []) = texts := by
  rw [takeWhile_filled_any, List.takeWhile_eq_self_iff.2 (by simpa using hne)]

/-! ## Lines -/

theorem fgetsPieces_length {room : Nat} {piece text : List Char} (hroom : piece.length + room ≤ MAX_STR_LEN - 1)
    (hpos : 0 < room) : ∀ p ∈ fgetsPieces room piece text, p.length < MAX_STR_LEN := by
  induction text generalizing room piece with
  | nil =>
    intro p hp
    rw [fgetsPieces] at hp
    split at hp
    · cases hp
    · rw [List.mem_singleton.1 hp]
      exact lt_of_le_of_lt (Nat.le_add_right ..) (lt_of_le_of_lt hroom (by decide))
  | cons c text ih =>
    rw [fgetsPieces]
    split
    · rw [List.forall_mem_cons]
      refine ⟨?_, ih (by rw [List.length_nil, Nat.zero_add]) (by decide)⟩
      rw [List.length_append, List.length_singleton]
      exact lt_of_le_of_lt (by omega) (lt_of_le_of_lt hroom (by decide))
    · rename_i h
      rw [not_or] at h
      exact ih (by rw [List.length_append, List.length_singleton]; omega) (by omega)

theorem piecesOf_length (output : List Char) : ∀ p ∈ piecesOf output, p.length < MAX_STR_LEN :=
  fgetsPieces_length (by rw [List.length_nil, Nat.zero_add]) (by decide)

theorem terminateString_length (piece : List Char) : (terminateString piece).length ≤ piece.length :=
  ((List.takeWhile_prefix _).trans (List.takeWhile_prefix _)).length_le

theorem nextWord_length (s : List Char) : (nextWord s).length ≤ s.length :=
  ((List.takeWhile_prefix _).length_le).trans (List.dropWhile_suffix _).length_le

theorem strstr_suffix {pat s sub : List Char} (h : strstr pat s = some sub) : sub <:+ s := by
  induction s with
  | nil =>
    rw [strstr] at h
    split at h
    · rw [← Option.some.inj h]
    · cases h
  | cons c s ih =>
    rw [strstr] at h
    split at h
    · rw [← Option.some.inj h]
    · exact (ih h).trans (List.suffix_cons ..)

/-! ## Callbacks on one line -/

/-- The text a callback takes from a line for a row. -/
def ParserSpec.word (p : ParserSpec) (line : List Char) : Option (List Char) :=
  match p.callback with
  | some .getFirstWord => some (nextWord line)
  | some .findAndGetNextWord =>
    if p.matchCase = [] then none
    else (strstr p.matchCase line).map fun subStr => nextWord (subStr.drop p.matchCase.length)
  | _ => none

def ParserSpec.TakesWord (p : ParserSpec) : Prop :=
  p.callback = some .getFirstWord ∨ p.callback = some .findAndGetNextWord

/-- Whether a callback that only looks at a line lets it pass. -/
def ParserSpec.passes (p : ParserSpec) (line : List Char) : Bool :=
  match p.callback with
  | some .findOnLine => p.matchCase ≠ [] && (strstr p.matchCase line).isSome
  | some .isNotOnLine => !(p.matchCase ≠ [] && (strstr p.matchCase line).isSome)
  | _ => false

def ParserSpec.IsFilter (p : ParserSpec) : Prop :=
  p.callback = some .findOnLine ∨ p.callback = some .isNotOnLine

/-- The word a line gives, `none` when a callback stops at it. -/
def capture (filters : List ParserSpec) (p : ParserSpec) (line : List Char) : Option (List Char) :=
  if filters.all (·.passes line) then (p.word line).filter (· ≠ []) else none

theorem capture_ne_nil {filters : List ParserSpec} {p : ParserSpec} {line w : List Char}
    (h : capture filters p line = some w) : w ≠ [] := by
  rw [capture] at h
  split at h
  · simpa using (Option.filter_eq_some_iff.1 h).2
  · cases h

theorem word_length {p : ParserSpec} {line w : List Char} (h : p.word line = some w) : w.length ≤ line.length := by
  rw [ParserSpec.word] at h
  split at h
  · rw [← Option.some.inj h]
    exact nextWord_length line
  · split at h
    · cases h
    · obtain ⟨sub, hsub, rfl⟩ := Option.map_eq_some_iff.1 h
      exact (nextWord_length _).trans ((List.drop_suffix _ _).length_le.trans (strstr_suffix hsub).length_le)
  · cases h

theorem capture_length {filters : List ParserSpec} {p : ParserSpec} {line w : List Char}
    (h : capture filters p line = some w) : w.length ≤ line.length := by
  rw [capture] at h
  split at h
  · exact word_length (Option.filter_eq_some_iff.1 h).1
  · cases h

theorem baseSetResultArray_eq (sh : Shape) (sub line : List Char) (rows : Matrix) :
    ∃ line', baseSetResultArray sh sub ⟨line, rows⟩ =
      match (some (nextWord sub)).filter (· ≠ []) with
      | none => .ok (BASE_PARSING_FAILED, ⟨line', rows⟩)
      | some w => (fillRow (w.take sh.colNum) rows).map fun rows => (BASE_PARSING_SUCCEEDED, ⟨line', rows⟩) := by
  refine ⟨line.take (line.length - ((sub.dropWhile isBlank).length - (nextWord sub).length)), ?_⟩
  rw [baseSetResultArray]
  by_cases h : nextWord sub = []
  · simp only [h, Option.filter, if_true, ne_eq, not_true_eq_false, decide_false, Bool.false_eq_true, if_false]
  · simp only [h, Option.filter, if_false, ne_eq, not_false_eq_true, decide_true, if_true]

/-- A callback that takes a word. -/
theorem run_word {p : ParserSpec} (hp : p.TakesWord) (sh : Shape) (line : List Char) (rows : Matrix) :
    ∃ cb line', p.callback = some cb ∧ cb.run p.matchCase sh ⟨line, rows⟩ =
      match (p.word line).filter (· ≠ []) with
      | none => .ok (BASE_PARSING_FAILED, ⟨line', rows⟩)
      | some w => (fillRow (w.take sh.colNum) rows).map fun rows => (BASE_PARSING_SUCCEEDED, ⟨line', rows⟩) := by
  rcases hp with hp | hp
  · obtain ⟨line', h⟩ := baseSetResultArray_eq sh line line rows
    exact ⟨_, line', hp, by rw [ParserSpec.word, hp]; exact h⟩
  · refine ⟨.findAndGetNextWord, ?_⟩
    rw [ParserSpec.word, hp]
    simp only [Callback.run, findAndGetNextWord, true_and]
    by_cases hm : p.matchCase = []
    · exact ⟨line, by rw [if_pos hm, if_pos hm]; rfl⟩
    · cases hs : strstr p.matchCase line with
      | none => exact ⟨line, by rw [if_neg hm, if_neg hm]; rfl⟩
      | some sub =>
        obtain ⟨line', h⟩ := baseSetResultArray_eq sh (sub.drop p.matchCase.length) line rows
        exact ⟨line', by rw [if_neg hm, if_neg hm]; exact h⟩

/-- A callback that only looks. -/
theorem run_filter {f : ParserSpec} (hf : f.IsFilter) (sh : Shape) (s : Scan) :
    ∃ cb, f.callback = some cb ∧ cb.run f.matchCase sh s =
      .ok (if f.passes s.line then BASE_PARSING_SUCCEEDED else BASE_PARSING_FAILED, s) := by
  have hne : BASE_PARSING_FAILED ≠ BASE_PARSING_SUCCEEDED := by decide
  rcases hf with hf | hf <;> refine ⟨_, hf, ?_⟩ <;>
    simp only [Callback.run, findOnLineHelper, ParserSpec.passes, hf] <;>
    by_cases hm : f.matchCase = [] <;> by_cases hs : (strstr f.matchCase s.line).isSome <;>
    simp [hm, hs, hne]

/-- The bits of the callbacks on one line: the first one decides whether
there is a success. -/
def lineStatus (filters : List ParserSpec) (p : ParserSpec) (line : List Char) : Status where
  failed := false
  validationFailed := false
  validationSucceeded := false
  parsingFailed := (capture filters p line).isNone
  parsingSucceeded :=
    match filters with
    | [] => (capture [] p line).isSome
    | f :: _ => f.passes line

theorem lineStatus_nil (p : ParserSpec) (line : List Char) :
    lineStatus [] p line = if (capture [] p line).isSome then BASE_PARSING_SUCCEEDED else BASE_PARSING_FAILED := by
  cases h : capture [] p line <;> simp [lineStatus, h, BASE_PARSING_SUCCEEDED, BASE_PARSING_FAILED]

theorem capture_cons (f : ParserSpec) (filters : List ParserSpec) (p : ParserSpec) (line : List Char) :
    capture (f :: filters) p line = if f.passes line then capture filters p line else none := by
  cases h : f.passes line <;> simp [capture, h]

theorem lineStatus_cons (f : ParserSpec) (filters : List ParserSpec) (p : ParserSpec) (line : List Char) :
    lineStatus (f :: filters) p line =
      if f.passes line then BASE_PARSING_SUCCEEDED ||| lineStatus filters p line else BASE_PARSING_FAILED := by
  cases h : f.passes line with
  | false => simp [lineStatus, capture_cons, h, BASE_PARSING_FAILED]
  | true =>
    ext <;> simp [lineStatus, capture_cons, h, BASE_PARSING_SUCCEEDED]

/-- The callbacks on one line, the last of which takes a word. -/
theorem checkLine_eq {filters : List ParserSpec} {p : ParserSpec} (hf : ∀ f ∈ filters, f.IsFilter) (hp : p.TakesWord)
    (sh : Shape) {status : Status} (hst : status.failed = false) (line : List Char) (rows : Matrix) :
    ((checkLine sh (filters ++ [p]) status ⟨line, rows⟩).map fun r => (r.1, r.2.rows)) =
      match capture filters p line with
      | none => .ok (status ||| lineStatus filters p line, rows)
      | some w => (fillRow (w.take sh.colNum) rows).map fun rows => (status ||| lineStatus filters p line, rows) := by
  induction filters generalizing status with
  | nil =>
    obtain ⟨cb, line', hcb, hrun⟩ := run_word hp sh line rows
    have hcap : (p.word line).filter (· ≠ []) = capture [] p line := by rw [capture]; rfl
    rw [hcap] at hrun
    simp only [List.nil_append, checkLine, hst, Bool.false_eq_true, if_false, hcb, hrun, lineStatus_nil]
    cases capture [] p line with
    | none => rfl
    | some w =>
      simp only
      cases fillRow (w.take sh.colNum) rows <;> rfl
  | cons f filters ih =>
    rw [List.forall_mem_cons] at hf
    obtain ⟨cb, hcb, hrun⟩ := run_filter hf.1 sh ⟨line, rows⟩
    simp only [List.cons_append, checkLine, hst, Bool.false_eq_true, if_false, hcb, hrun, lineStatus_cons, capture_cons]
    cases f.passes line with
    | false => rfl
    | true =>
      simp only [if_true, ← or_assoc]
      exact ih hf.2 (by rw [or_failed, hst]; rfl)

/-! ## Over all lines -/

theorem repeatLines_cons (sh : Shape) (ps : List ParserSpec) (piece : List Char) (output : List (List Char))
    (status : Status) (rows : Matrix) :
    repeatLines sh ps (piece :: output) status rows =
      ((checkLine sh ps status ⟨terminateString piece, rows⟩).map fun r => (r.1, r.2.rows)).bind
        fun r => repeatLines sh ps output r.1 r.2 := by
  rw [repeatLines]
  cases checkLine sh ps status ⟨terminateString piece, rows⟩ <;> rfl

/-- The words of all lines. -/
def captures (filters : List ParserSpec) (p : ParserSpec) (pieces : List (List Char)) : List (List Char) :=
  pieces.filterMap fun piece => capture filters p (terminateString piece)

/-- The bits of all lines. -/
def linesStatus (filters : List ParserSpec) (p : ParserSpec) : List (List Char) → Status
  | [] => BASE_SUCCEEDED
  | piece :: pieces => lineStatus filters p (terminateString piece) ||| linesStatus filters p pieces

/-- **The words of the lines go to the rows in turn, and one for which there
is no row is written behind the array.** -/
theorem repeatLines_filled {filters : List ParserSpec} {p : ParserSpec} (hf : ∀ f ∈ filters, f.IsFilter)
    (hp : p.TakesWord) (sh : Shape) {status : Status} (hst : status.failed = false) {texts : List (List Char)}
    (hne : ∀ t ∈ texts, t ≠ []) (hroom : texts.length ≤ sh.rowNum) (pieces : List (List Char)) :
    repeatLines sh (filters ++ [p]) pieces status (filled sh.rowNum texts) =
      if texts.length + (captures filters p pieces).length ≤ sh.rowNum then
        .ok (status ||| linesStatus filters p pieces,
          filled sh.rowNum (texts ++ (captures filters p pieces).map (·.take sh.colNum)))
      else .error .write := by
  induction pieces generalizing status texts with
  | nil => simp [repeatLines, captures, linesStatus, hroom]
  | cons piece pieces ih =>
    have hst' : (status ||| lineStatus filters p (terminateString piece)).failed = false := by
      rw [or_failed, hst]; rfl
    rw [repeatLines_cons, checkLine_eq hf hp sh hst, linesStatus, ← or_assoc]
    cases hcap : capture filters p (terminateString piece) with
    | none =>
      rw [show captures filters p (piece :: pieces) = captures filters p pieces from List.filterMap_cons_none hcap]
      exact ih hst' hne hroom
    | some w =>
      rw [show captures filters p (piece :: pieces) = w :: captures filters p pieces from
        List.filterMap_cons_some hcap]
      simp only [fillRow_filled hne, List.length_cons]
      by_cases h : texts.length < sh.rowNum
      · rw [if_pos h]
        have hne' : ∀ t ∈ texts ++ [w.take sh.colNum], t ≠ [] := by
          have hw := capture_ne_nil hcap
          have hcol := sh.colNum_pos
          intro t ht
          rcases List.mem_append.1 ht with ht | ht
          · exact hne t ht
          · rw [List.mem_singleton.1 ht, ne_eq, List.take_eq_nil_iff, not_or]
            exact ⟨hcol.ne', hw⟩
        have hroom' : (texts ++ [w.take sh.colNum]).length ≤ sh.rowNum := by
          rw [List.length_append, List.length_singleton]; omega
        refine (ih hst' hne' hroom').trans ?_
        rw [List.length_append, List.length_singleton, List.map_cons, List.append_assoc, List.singleton_append,
          Nat.add_assoc, Nat.add_comm 1]
      · rw [if_neg h, if_neg (by omega)]
        rfl

theorem linesStatus_onlyParsing (filters : List ParserSpec) (p : ParserSpec) (pieces : List (List Char)) :
    (linesStatus filters p pieces).OnlyParsing := by
  induction pieces with
  | nil => exact ⟨rfl, rfl, rfl⟩
  | cons piece pieces ih => exact Status.OnlyParsing.or ⟨rfl, rfl, rfl⟩ ih

theorem lineStatus_of_capture {filters : List ParserSpec} {p : ParserSpec} {line w : List Char}
    (h : capture filters p line = some w) : (lineStatus filters p line).parsingSucceeded = true := by
  cases filters with
  | nil => rw [lineStatus_nil, h]; rfl
  | cons f filters =>
    rw [capture_cons] at h
    split at h
    · rename_i hf; exact hf
    · cases h

/-- A word is a success. -/
theorem linesStatus_of_captures {filters : List ParserSpec} {p : ParserSpec} {pieces : List (List Char)}
    (h : captures filters p pieces ≠ []) : (linesStatus filters p pieces).parsingSucceeded = true := by
  obtain ⟨w, hw⟩ := List.exists_mem_of_ne_nil _ h
  obtain ⟨piece, hp, hcap⟩ := List.mem_filterMap.1 hw
  induction pieces with
  | nil => cases hp
  | cons q pieces ih =>
    rw [linesStatus, or_parsingSucceeded, Bool.or_eq_true]
    rcases List.mem_cons.1 hp with rfl | hp
    · exact .inl (lineStatus_of_capture hcap)
    · have hmem : w ∈ captures filters p pieces := List.mem_filterMap.2 ⟨piece, hp, hcap⟩
      exact .inr (ih (List.ne_nil_of_mem hmem) hmem hp)

theorem captures_ne_nil {filters : List ParserSpec} {p : ParserSpec} {pieces : List (List Char)} :
    ∀ w ∈ captures filters p pieces, w ≠ [] := fun _ hw =>
  let ⟨_, _, hcap⟩ := List.mem_filterMap.1 hw
  capture_ne_nil hcap

theorem captures_length {filters : List ParserSpec} {p : ParserSpec} {output : List Char} :
    ∀ w ∈ captures filters p (piecesOf output), w.length < MAX_STR_LEN := by
  intro w hw
  obtain ⟨piece, hp, hcap⟩ := List.mem_filterMap.1 hw
  exact ((capture_length hcap).trans (terminateString_length piece)).trans_lt (piecesOf_length output piece hp)

/-- Columns for a whole line keep every word. -/
theorem captures_take {filters : List ParserSpec} {p : ParserSpec} {output : List Char} {n : Nat}
    (hn : MAX_STR_LEN ≤ n) :
    (captures filters p (piecesOf output)).map (·.take n) = captures filters p (piecesOf output) :=
  map_take_of_short fun w hw => ((captures_length w hw).le).trans hn

/-- The combinator over all lines, with the failures forgotten when there
was a success. -/
theorem repeatUntilNullWithCheck_eq {filters : List ParserSpec} {p : ParserSpec} (hf : ∀ f ∈ filters, f.IsFilter)
    (hp : p.TakesWord) (sh : Shape) (pieces : List (List Char)) :
    repeatUntilNullWithCheck sh (filters ++ [p]) ⟨pieces, zeros sh⟩ =
      if (captures filters p pieces).length ≤ sh.rowNum then
        let status := linesStatus filters p pieces
        .ok (if status.parsingSucceeded then { status with parsingFailed := false } else status,
          ⟨[], filled sh.rowNum ((captures filters p pieces).map (·.take sh.colNum))⟩)
      else .error .write := by
  have hnil : ∀ t ∈ ([] : List (List Char)), t ≠ [] := fun _ h => absurd h List.not_mem_nil
  have h := repeatLines_filled hf hp sh (show BASE_SUCCEEDED.failed = false from rfl) hnil (Nat.zero_le _) pieces
  rw [filled_nil, List.length_nil, Nat.zero_add, succeeded_or, List.nil_append] at h
  rw [repeatUntilNullWithCheck, h]
  split <;> rfl

/-! ## The chain -/

theorem rejected_eq {s : Status} (h : s.failed = false) :
    s.rejected = (s.validationFailed && !s.validationSucceeded || s.parsingFailed && !s.parsingSucceeded) := by
  have hne : s ≠ BASE_FAILED := by rintro rfl; cases h
  rw [Status.rejected, decide_eq_false hne, Bool.or_false]

theorem combinatorComb_single (sh : Shape) (cb : Callback) (matchCase : String) (spec : SysCallSpec) (status : Status)
    (s : Stream) :
    combinatorComb sh ((some .noCombinator, single cb matchCase) :: spec) status s =
      (cb.run matchCase.toList sh ⟨[], s.rows⟩).bind fun r =>
        if (status ||| r.1).failed then .ok (status ||| r.1, ⟨s.output, r.2.rows⟩)
        else combinatorComb sh spec (status ||| r.1) ⟨s.output, r.2.rows⟩ := by
  rw [combinatorComb]
  simp only [Combinator.run, noCombinator, single, List.head?_cons, Option.bind_some, Option.map_some, Option.getD_some]
  cases cb.run matchCase.toList sh ⟨[], s.rows⟩ <;> rfl

theorem getObject_cons {c : Combinator} {ps : List ParserSpec} (spec : SysCallSpec) {sh : Shape} {text : List Char}
    {status : Status} {s : Stream} (hrun : c.run sh ps ⟨piecesOf text, zeros sh⟩ = .ok (status, s))
    (hst : status.failed = false) : getObject ((some c, ps) :: spec) sh (some text) =
      (combinatorComb sh spec status s).map fun r =>
        if r.1.rejected then (EXIT_FAILURE, zeros sh) else (EXIT_SUCCESS, r.2.rows) := by
  rw [getObject, getStrSysCall]
  simp only [combinatorComb, hrun, bind, Except.bind, succeeded_or, hst, Bool.false_eq_true, if_false]
  cases combinatorComb sh spec status s <;> rfl

end TsnSwitch.Tools
