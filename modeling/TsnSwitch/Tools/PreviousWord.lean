/-
The word before a match (`find_and_get_previous_word`).

The code goes back from the match to the white space before it, and from there to the
next one. It stops there also where no word lies between them, and a word at the
start of the line has none.
-/
import TsnSwitch.Tools.Parsers

namespace TsnSwitch.Tools

open Lib

/-! ## What is asked -/

/-- What is before a place found in a line. -/
def textBefore (line subStr : List Char) : List Char := line.take (line.length - subStr.length)

/-- The last word of a text, whatever white space is behind it. -/
def lastWord (text : List Char) : List Char :=
  ((text.reverse.dropWhile isSpace).takeWhile fun c => !isSpace c).reverse

/-- The word before the first occurrence of the match, separated from it by white space. -/
def previousWord (matchCase line : List Char) : Option (List Char) :=
  (strstr matchCase line).bind fun subStr =>
    let before := textBefore line subStr
    if before.getLast?.any isSpace ∧ lastWord before ≠ [] then some (lastWord before) else none

/-- The word goes to the first empty row. Without one the parser fails and leaves
the rows alone. It reads nothing before the line either way. -/
def PreviousOk (matchCase : List Char) (sh : Shape) (s : Scan) : Prop :=
  match previousWord matchCase s.line with
  | some w => ∃ line rows, fillRow w s.rows = .ok rows ∧ w.length < sh.colNum ∧
      findAndGetPreviousWord matchCase sh s = .ok (BASE_PARSING_SUCCEEDED, ⟨line, rows⟩)
  | none => ∃ line, findAndGetPreviousWord matchCase sh s = .ok (BASE_PARSING_FAILED, ⟨line, s.rows⟩)

/-- There is an empty row, and the word has room in it. -/
def Room (sh : Shape) (rows : Matrix) (w : List Char) : Prop := [] ∈ rows ∧ w.length < sh.colNum

/-- The match is in the middle of a word; or one separator is between it and a word
with a blank before it; or, behind several separators, the word at the match is
the one before it. -/
def SingleSeparator (matchCase : List Char) (sh : Shape) (s : Scan) : Prop :=
  matchCase = [] ∨ ∀ subStr, strstr matchCase s.line = some subStr →
    (∃ b d, textBefore s.line subStr = b ++ [d] ∧ isSpace d = false) ∨
    (∃ start c w d, textBefore s.line subStr = start ++ c :: (w ++ [d]) ∧ isBlank c = true ∧ endsWord d = true ∧
      w ≠ [] ∧ (∀ x ∈ w, isSpace x = false) ∧ Room sh s.rows w) ∨
    (∃ start c d, textBefore s.line subStr = start ++ [c, d] ∧ isSpace c = true ∧ isSpace d = true ∧
      nextWord (c :: d :: subStr) = lastWord (start ++ [c, d]) ∧
      (lastWord (start ++ [c, d]) ≠ [] → Room sh s.rows (lastWord (start ++ [c, d]))))

/-! ## Words -/

section Words

variable {c d : Char} {w start : List Char}

theorem isSpace_of_isBlank (h : isBlank c = true) : isSpace c = true := by
  simp only [isBlank, Bool.or_eq_true, decide_eq_true_eq] at h
  rcases h with rfl | rfl <;> decide

theorem isSpace_of_endsWord (h : endsWord c = true) : isSpace c = true := by
  simp only [endsWord, Bool.or_eq_true, decide_eq_true_eq] at h
  rcases h with h | rfl
  · exact isSpace_of_isBlank h
  · decide

theorem lastWord_space (text : List Char) (h : isSpace c = true) : lastWord (text ++ [c]) = lastWord text := by
  simp [lastWord, h]

/-- A word that nothing but white space is directly before. -/
theorem lastWord_append (hw : ∀ x ∈ w, isSpace x = false) (hne : w ≠ [])
    (hstart : ∀ c, start.getLast? = some c → isSpace c = true) : lastWord (start ++ w) = w := by
  have hrev : ∀ x ∈ w.reverse, (!isSpace x) = true := fun x hx => by rw [hw x (List.mem_reverse.1 hx)]; rfl
  have hdrop : (w.reverse ++ start.reverse).dropWhile isSpace = w.reverse ++ start.reverse := by
    cases hr : w.reverse with
    | nil => exact absurd (List.reverse_eq_nil_iff.1 hr) hne
    | cons x r => simp [hw x (List.mem_reverse.1 (hr ▸ List.mem_cons_self ..))]
  have hstop : start.reverse.takeWhile (fun c => !isSpace c) = [] := by
    cases hr : start.reverse with
    | nil => rfl
    | cons c r => simp [hstart c (by rw [← List.head?_reverse, hr]; rfl)]
  rw [lastWord, List.reverse_append, hdrop, List.takeWhile_append_of_pos hrev, hstop, List.append_nil, List.reverse_reverse]

/-- A text has no white space, or a last one. -/
theorem last_space (b : List Char) : (∀ x ∈ b, isSpace x = false) ∨
    ∃ start c w, b = start ++ c :: w ∧ isSpace c = true ∧ ∀ x ∈ w, isSpace x = false := by
  induction b with
  | nil => exact .inl fun x hx => by cases hx
  | cons x b ih =>
    rcases ih with hb | ⟨start, c, w, rfl, hc, hw⟩
    · cases hx : isSpace x with
      | false => exact .inl (List.forall_mem_cons.2 ⟨hx, hb⟩)
      | true => exact .inr ⟨[], x, b, rfl, hx, hb⟩
    · exact .inr ⟨x :: start, c, w, rfl, hc, hw⟩

theorem spaced_concat : start ++ c :: (w ++ [d]) = (start ++ c :: w) ++ [d] := by simp

/-- A word between white space is at one place only. -/
theorem spaced_unique {start' w' : List Char} {c' d' : Char} (h : start ++ c :: (w ++ [d]) = start' ++ c' :: (w' ++ [d']))
    (hc : isSpace c = true) (hc' : isSpace c' = true) (hw : ∀ x ∈ w, isSpace x = false) (hw' : ∀ x ∈ w', isSpace x = false) :
    start = start' ∧ c = c' ∧ w = w' ∧ d = d' := by
  rw [spaced_concat, spaced_concat] at h
  obtain ⟨h, hd⟩ := List.append_inj' h rfl
  have hcut : ∀ {start w : List Char} {c : Char}, isSpace c = true → (∀ x ∈ w, isSpace x = false) →
      (start ++ c :: w).reverse.takeWhile (fun x => !isSpace x) = w.reverse := fun hc hw => by
    rw [List.reverse_append, List.reverse_cons, List.append_assoc,
      List.takeWhile_append_of_pos fun x hx => by rw [hw x (List.mem_reverse.1 hx)]; rfl]
    simp [hc]
  have hww : (start ++ c :: w).reverse.takeWhile (fun x => !isSpace x) = w.reverse := hcut hc hw
  rw [h, hcut hc' hw', List.reverse_inj] at hww
  rw [hww] at h
  obtain ⟨hs, he⟩ := List.append_inj' h rfl
  exact ⟨hs, (List.cons.inj he).1, hww.symm, (List.cons.inj hd).1⟩

theorem spaced_not_first {v : List Char} {e : Char} (h : v ++ [e] = start ++ c :: (w ++ [d]))
    (hv : ∀ x ∈ v, isSpace x = false) : isSpace c = false := by
  rw [spaced_concat] at h
  exact hv c (by rw [(List.append_inj' h rfl).1]; simp)

/-- What can be before the match: nothing, no separator, the first word of the line, or
a word, perhaps an empty one, behind white space. -/
theorem before_cases (before : List Char) : before = [] ∨
    (∃ b d, before = b ++ [d] ∧ isSpace d = false) ∨
    (∃ w d, before = w ++ [d] ∧ isSpace d = true ∧ ∀ x ∈ w, isSpace x = false) ∨
    (∃ start c w d, before = start ++ c :: (w ++ [d]) ∧ isSpace c = true ∧ (∀ x ∈ w, isSpace x = false) ∧ isSpace d = true) := by
  rcases List.eq_nil_or_concat before with h | ⟨b, d, h⟩
  · exact .inl h
  rw [List.concat_eq_append] at h
  cases hd : isSpace d with
  | false => exact .inr (.inl ⟨b, d, h, hd⟩)
  | true =>
    rcases last_space b with hb | ⟨start, c, w, rfl, hc, hw⟩
    · exact .inr (.inr (.inl ⟨b, d, h, hd, hb⟩))
    · exact .inr (.inr (.inr ⟨start, c, w, d, by rw [h]; simp, hc, hw, hd⟩))

end Words

/-! ## Going back -/

section Back

variable {matchCase subStr : List Char} {sh : Shape} {s : Scan}

theorem textBefore_append (h : strstr matchCase s.line = some subStr) : textBefore s.line subStr ++ subStr = s.line := by
  obtain ⟨before, hs⟩ := strstr_suffix h
  rw [textBefore, ← hs]
  simp

theorem textBefore_self (line : List Char) : textBefore line line = [] := by
  simp [textBefore]

/-- Nothing is before the match, or no white space before the separator: the code
reads before the line. -/
theorem findAndGetPreviousWord_read (hm : matchCase ≠ []) (h : strstr matchCase s.line = some subStr)
    (hb : textBefore s.line subStr = [] ∨
      ∃ w d, textBefore s.line subStr = w ++ [d] ∧ isSpace d = true ∧ ∀ x ∈ w, isSpace x = false) :
    findAndGetPreviousWord matchCase sh s = .error .read := by
  unfold textBefore at hb
  rw [findAndGetPreviousWord, if_neg hm, h]
  rcases hb with hb | ⟨w, d, hb, hd, hw⟩
  · simp [hb]
  · have hdrop : (w.reverse.dropWhile fun c => !isSpace c) = [] :=
      List.dropWhile_eq_nil_iff.2 fun x hx => by rw [hw x (List.mem_reverse.1 hx)]; rfl
    simp [hb, hd, hdrop]

theorem findAndGetPreviousWord_inside (hm : matchCase ≠ []) (h : strstr matchCase s.line = some subStr) {b : List Char}
    {d : Char} (hb : textBefore s.line subStr = b ++ [d]) (hd : isSpace d = false) :
    findAndGetPreviousWord matchCase sh s = .ok (BASE_PARSING_FAILED, s) := by
  unfold textBefore at hb
  rw [findAndGetPreviousWord, if_neg hm, h]
  simp [hb, hd]

/-- The next word from the white space on is taken. -/
theorem findAndGetPreviousWord_next (hm : matchCase ≠ []) (h : strstr matchCase s.line = some subStr)
    {start w : List Char} {c d : Char} (hb : textBefore s.line subStr = start ++ c :: (w ++ [d])) (hc : isSpace c = true)
    (hw : ∀ x ∈ w, isSpace x = false) (hd : isSpace d = true) :
    findAndGetPreviousWord matchCase sh s = baseSetResultArray sh (c :: (w ++ d :: subStr)) s := by
  have hline := textBefore_append h
  rw [hb] at hline
  have hdrop : ((w.reverse ++ c :: start.reverse).dropWhile fun c => !isSpace c) = c :: start.reverse := by
    rw [List.dropWhile_append_of_pos fun x hx => by rw [hw x (List.mem_reverse.1 hx)]; rfl]
    simp [hc]
  unfold textBefore at hb
  rw [findAndGetPreviousWord, if_neg hm, h]
  simp only [hb, List.reverse_append, List.reverse_cons, List.append_assoc, List.reverse_nil, List.nil_append,
    List.cons_append, hd, Bool.not_true, Bool.false_eq_true, if_false, hdrop, List.length_reverse]
  rw [← hline]
  simp

/-- White space that is no blank belongs to the word that is taken. -/
theorem nextWord_eq_iff {w : List Char} {c d : Char} (hc : isSpace c = true) (hw : ∀ x ∈ w, isSpace x = false) (hne : w ≠ []) :
    nextWord (c :: (w ++ d :: subStr)) = w ↔ isBlank c = true ∧ endsWord d = true := by
  have hends : ∀ x ∈ w, endsWord x = false := fun x hx => by
    cases he : endsWord x with
    | false => rfl
    | true => exact absurd ((hw x hx).symm.trans (isSpace_of_endsWord he)) (by decide)
  unfold nextWord
  cases hb : isBlank c with
  | true =>
    rw [List.dropWhile_cons_of_pos hb, dropWhile_isBlank hne hends,
      List.takeWhile_append_of_pos fun x hx => by rw [hends x hx]; rfl]
    cases hd : endsWord d <;> simp [hd]
  | false =>
    rw [List.dropWhile_cons_of_neg (by simp [hb])]
    refine iff_of_false (fun h => ?_) (by simp)
    rw [List.takeWhile_cons] at h
    split at h
    · exact absurd ((hw c (h ▸ List.mem_cons_self ..)).symm.trans hc) (by decide)
    · exact hne h.symm

/-! ## Rows -/

theorem fillRow_ok_iff {w : List Char} {rows : Matrix} : (∃ rows', fillRow w rows = .ok rows') ↔ [] ∈ rows := by
  induction rows with
  | nil => simp [fillRow]
  | cons row rows ih =>
    rw [fillRow]
    by_cases h : row = []
    · simp [h]
    · have h' : ¬ [] = row := fun he => h he.symm
      rw [if_neg h, List.mem_cons, or_iff_right h', ← ih]
      cases fillRow w rows <;> simp [Except.map]

theorem fillRow_inj {v w : List Char} {rows rows' : Matrix} (hv : fillRow v rows = .ok rows') (hw : fillRow w rows = .ok rows') :
    v = w := by
  induction rows generalizing rows' with
  | nil => cases hv
  | cons row rows ih =>
    rw [fillRow] at hv hw
    split at hv
    · rename_i h
      rw [if_pos h] at hw
      exact (List.cons.inj (Except.ok.inj (hv.trans hw.symm))).1
    · rename_i h
      rw [if_neg h] at hw
      cases hv' : fillRow v rows with
      | error e =>
        rw [hv'] at hv
        cases hv
      | ok r =>
        cases hw' : fillRow w rows with
        | error e =>
          rw [hw'] at hw
          cases hw
        | ok r' =>
          rw [hv'] at hv
          rw [hw'] at hw
          have hr := (List.cons.inj (Except.ok.inj (hv.trans hw.symm))).2
          exact ih hv' (hr ▸ hw')

/-- A word that is taken is the next one, and has its room. -/
theorem baseSetResultArray_takes (sub w : List Char) :
    (∃ line rows, fillRow w s.rows = .ok rows ∧ w.length < sh.colNum ∧
      baseSetResultArray sh sub s = .ok (BASE_PARSING_SUCCEEDED, ⟨line, rows⟩)) ↔
        nextWord sub = w ∧ w ≠ [] ∧ Room sh s.rows w := by
  unfold baseSetResultArray
  dsimp only
  by_cases hword : nextWord sub = []
  · rw [if_pos hword]
    refine iff_of_false (fun ⟨_, _, _, _, h⟩ => ?_) fun h => h.2.1 (h.1 ▸ hword)
    exact absurd (Prod.mk.inj (Except.ok.inj h)).1 (by decide)
  · rw [if_neg hword]
    constructor
    · intro ⟨line, rows, hfill, hlen, h⟩
      cases hcut : fillRow ((nextWord sub).take sh.colNum) s.rows with
      | error e =>
        rw [hcut] at h
        cases h
      | ok rows' =>
        rw [hcut] at h
        have hrows : rows' = rows := congrArg Scan.rows (Prod.mk.inj (Except.ok.inj h)).2
        have heq := fillRow_inj hcut (hrows ▸ hfill)
        have htake : (nextWord sub).length ≤ sh.colNum := by
          rw [← heq, List.length_take] at hlen
          omega
        rw [List.take_of_length_le htake] at heq
        exact ⟨heq, heq ▸ hword, fillRow_ok_iff.1 ⟨rows, hfill⟩, hlen⟩
    · intro ⟨heq, _, hroom, hlen⟩
      obtain ⟨rows, hfill⟩ := (fillRow_ok_iff (w := w)).2 hroom
      refine ⟨s.line.take (s.line.length - ((sub.dropWhile isBlank).length - (nextWord sub).length)), rows, hfill, hlen, ?_⟩
      have hcut : (nextWord sub).take sh.colNum = w := by rw [heq, List.take_of_length_le (by omega)]
      rw [hcut, hfill]
      rfl

theorem baseSetResultArray_fails (sub : List Char) :
    (∃ line, baseSetResultArray sh sub s = .ok (BASE_PARSING_FAILED, ⟨line, s.rows⟩)) ↔ nextWord sub = [] := by
  unfold baseSetResultArray
  dsimp only
  by_cases hword : nextWord sub = []
  · rw [if_pos hword]
    exact iff_of_true ⟨_, rfl⟩ hword
  · rw [if_neg hword]
    refine iff_of_false (fun ⟨_, h⟩ => ?_) hword
    cases hfill : fillRow ((nextWord sub).take sh.colNum) s.rows with
    | error e =>
      rw [hfill] at h
      cases h
    | ok rows =>
      rw [hfill] at h
      exact absurd (Prod.mk.inj (Except.ok.inj h)).1 (by decide)

/-! ## The result -/

/-- No text that ends in white space ends in another character. -/
theorem not_inside {before start : List Char} {d : Char} (hb : before = start ++ [d]) (hd : isSpace d = true) :
    ¬ ∃ b e, before = b ++ [e] ∧ isSpace e = false := fun ⟨b, e, he, hspace⟩ => by
  have hlast := (List.append_inj' (hb.symm.trans he) rfl).2
  rw [← (List.cons.inj hlast).1, hd] at hspace
  cases hspace

theorem previousWord_some (h : strstr matchCase s.line = some subStr) : previousWord matchCase s.line =
    if (textBefore s.line subStr).getLast?.any isSpace ∧ lastWord (textBefore s.line subStr) ≠ [] then
      some (lastWord (textBefore s.line subStr)) else none := by
  rw [previousWord, h]
  rfl

/-- The parser reads before the line: whatever is asked for is not there. -/
theorem not_previousOk_error {e : Overrun} (h : findAndGetPreviousWord matchCase sh s = .error e) :
    ¬ PreviousOk matchCase sh s := by
  unfold PreviousOk
  rw [h]
  split <;> simp

/-- One separator is between the match and a word behind white space. -/
theorem previousOk_word (hm : matchCase ≠ []) (h : strstr matchCase s.line = some subStr) {start w : List Char} {c d : Char}
    (hb : textBefore s.line subStr = start ++ c :: (w ++ [d])) (hc : isSpace c = true)
    (hw : ∀ x ∈ w, isSpace x = false) (hd : isSpace d = true) (hne : w ≠ []) :
    PreviousOk matchCase sh s ↔ (isBlank c = true ∧ endsWord d = true) ∧ Room sh s.rows w := by
  have happ : start ++ c :: (w ++ [d]) = (start ++ [c]) ++ w ++ [d] := by simp
  have hlast : lastWord (start ++ c :: (w ++ [d])) = w := by
    rw [happ, lastWord_space _ hd]
    exact lastWord_append hw hne (by simp [hc])
  unfold PreviousOk
  rw [previousWord_some h, hb, hlast, if_pos ⟨by rw [happ, List.getLast?_concat]; exact hd, hne⟩]
  simp only [findAndGetPreviousWord_next hm h hb hc hw hd]
  rw [baseSetResultArray_takes, nextWord_eq_iff hc hw hne]
  simp [hne]

/-- More than one separator is before the match. -/
theorem previousOk_spaces (hm : matchCase ≠ []) (h : strstr matchCase s.line = some subStr) {start : List Char} {c d : Char}
    (hb : textBefore s.line subStr = start ++ [c, d]) (hc : isSpace c = true) (hd : isSpace d = true) :
    PreviousOk matchCase sh s ↔ nextWord (c :: d :: subStr) = lastWord (start ++ [c, d]) ∧
      (lastWord (start ++ [c, d]) ≠ [] → Room sh s.rows (lastWord (start ++ [c, d]))) := by
  have hnext : findAndGetPreviousWord matchCase sh s = baseSetResultArray sh (c :: d :: subStr) s :=
    findAndGetPreviousWord_next (w := []) hm h hb hc (fun x hx => by cases hx) hd
  unfold PreviousOk
  rw [previousWord_some h, hb]
  by_cases hne : lastWord (start ++ [c, d]) = []
  · rw [if_neg fun h' => h'.2 hne]
    simp only [hnext]
    rw [baseSetResultArray_fails, hne]
    simp
  · rw [if_pos ⟨by simp [hd], hne⟩]
    simp only [hnext]
    rw [baseSetResultArray_takes]
    simp [hne]

/-- The alternatives of `SingleSeparator` for what is before the match. -/
def Separated (sh : Shape) (rows : Matrix) (subStr before : List Char) : Prop :=
  (∃ b d, before = b ++ [d] ∧ isSpace d = false) ∨
  (∃ start c w d, before = start ++ c :: (w ++ [d]) ∧ isBlank c = true ∧ endsWord d = true ∧
    w ≠ [] ∧ (∀ x ∈ w, isSpace x = false) ∧ Room sh rows w) ∨
  (∃ start c d, before = start ++ [c, d] ∧ isSpace c = true ∧ isSpace d = true ∧
    nextWord (c :: d :: subStr) = lastWord (start ++ [c, d]) ∧
    (lastWord (start ++ [c, d]) ≠ [] → Room sh rows (lastWord (start ++ [c, d]))))

section Separated

variable {rows : Matrix} {start w : List Char} {c d : Char}

/-- The first word of the line has no separator before it. -/
theorem not_separated_first (hd : isSpace d = true) (hw : ∀ x ∈ w, isSpace x = false) :
    ¬ Separated sh rows subStr (w ++ [d]) := by
  rintro (hinside | ⟨_, _, _, _, he, hc, _⟩ | ⟨_, _, _, he, hc, _⟩)
  · exact not_inside rfl hd hinside
  · exact absurd ((spaced_not_first he hw).symm.trans (isSpace_of_isBlank hc)) (by decide)
  · exact absurd ((spaced_not_first (w := []) he hw).symm.trans hc) (by decide)

/-- Between white space the last alternative is left. -/
theorem separated_spaces (hc : isSpace c = true) (hd : isSpace d = true) :
    Separated sh rows subStr (start ++ [c, d]) ↔ nextWord (c :: d :: subStr) = lastWord (start ++ [c, d]) ∧
      (lastWord (start ++ [c, d]) ≠ [] → Room sh rows (lastWord (start ++ [c, d]))) := by
  constructor
  · rintro (hinside | ⟨start', c', w', d', he, hc', _, hne', hw', _⟩ | ⟨start', c', d', he, hc', _, hok⟩)
    · exact absurd hinside (not_inside (spaced_concat (w := [])) hd)
    · exact absurd (spaced_unique (w := []) he hc (isSpace_of_isBlank hc') (by simp) hw').2.2.1.symm hne'
    · obtain ⟨rfl, htail⟩ := List.append_inj' he rfl
      obtain ⟨rfl, hd'⟩ := List.cons.inj htail
      obtain rfl := (List.cons.inj hd').1
      exact hok
  · exact fun hok => .inr (.inr ⟨start, c, d, rfl, hc, hd, hok⟩)

/-- Behind a word the alternative of one separator is left. -/
theorem separated_word (hc : isSpace c = true) (hw : ∀ x ∈ w, isSpace x = false) (hd : isSpace d = true) (hne : w ≠ []) :
    Separated sh rows subStr (start ++ c :: (w ++ [d])) ↔ (isBlank c = true ∧ endsWord d = true) ∧ Room sh rows w := by
  constructor
  · rintro (hinside | ⟨start', c', w', d', he, hblank, hends, _, hw', hroom⟩ | ⟨start', c', d', he, hc', _, _⟩)
    · exact absurd hinside (not_inside spaced_concat hd)
    · obtain ⟨rfl, rfl, rfl, rfl⟩ := spaced_unique he hc (isSpace_of_isBlank hblank) hw hw'
      exact ⟨⟨hblank, hends⟩, hroom⟩
    · exact absurd (spaced_unique (w := []) he.symm hc' hc (by simp) hw).2.2.1.symm hne
  · exact fun ⟨⟨hblank, hends⟩, hroom⟩ => .inr (.inl ⟨start, c, w, d, rfl, hblank, hends, hne, hw, hroom⟩)

end Separated

theorem previousOk_separated (hm : matchCase ≠ []) (h : strstr matchCase s.line = some subStr) :
    PreviousOk matchCase sh s ↔ Separated sh s.rows subStr (textBefore s.line subStr) := by
  rcases before_cases (textBefore s.line subStr) with hb | ⟨b, d, hb, hd⟩ | ⟨w, d, hb, hd, hw⟩ |
    ⟨start, c, w, d, hb, hc, hw, hd⟩
  · -- the match is at the start of the line
    refine iff_of_false (not_previousOk_error (findAndGetPreviousWord_read hm h (.inl hb))) ?_
    rw [hb]
    simp [Separated]
  · -- it is in a word
    refine iff_of_true ?_ (.inl ⟨b, d, hb, hd⟩)
    have hnone : previousWord matchCase s.line = none := by
      rw [previousWord_some h, hb, if_neg]
      simp [hd]
    rw [PreviousOk, hnone]
    exact ⟨s.line, findAndGetPreviousWord_inside hm h hb hd⟩
  · -- the word starts the line
    refine iff_of_false (not_previousOk_error (findAndGetPreviousWord_read hm h (.inr ⟨w, d, hb, hd, hw⟩))) ?_
    rw [hb]
    exact not_separated_first hd hw
  · -- white space, a word or none, and white space again
    by_cases hne : w = []
    · rw [hne, List.nil_append] at hb
      rw [previousOk_spaces hm h hb hc hd, hb, separated_spaces hc hd]
    · rw [previousOk_word hm h hb hc hw hd hne, hb, separated_word hc hw hd hne]

/-- **The word before the match** is what the parser gives just for a single separator:
otherwise it takes the word at the match, or reads before the line. -/
theorem previousOk_iff : PreviousOk matchCase sh s ↔ SingleSeparator matchCase sh s := by
  unfold SingleSeparator
  by_cases hm : matchCase = []
  · refine iff_of_true ?_ (.inl hm)
    have hnone : previousWord matchCase s.line = none := by
      rw [hm, previousWord_some (strstr_nil s.line), textBefore_self]
      rfl
    rw [PreviousOk, hnone, findAndGetPreviousWord, if_pos hm]
    exact ⟨s.line, rfl⟩
  rw [or_iff_right hm]
  cases h : strstr matchCase s.line with
  | none =>
    refine iff_of_true ?_ (by simp)
    have hnone : previousWord matchCase s.line = none := by rw [previousWord, h]; rfl
    rw [PreviousOk, hnone, findAndGetPreviousWord, if_neg hm, h]
    exact ⟨s.line, rfl⟩
  | some subStr =>
    simp only [Option.some.injEq, forall_eq']
    exact previousOk_separated hm h

/-- The match is returned for its previous word, and words before the line are looked for. -/
theorem not_previousOk :
    ¬ PreviousOk "PVID".toList shortShape ⟨"eth0 1  PVID".toList, [[], []]⟩ ∧
    findAndGetPreviousWord "PVID".toList shortShape ⟨"eth0 1  PVID".toList, [[], []]⟩ =
      .ok (BASE_PARSING_SUCCEEDED, ⟨"eth0 1  PVID".toList, ["PVID".toList, []]⟩) ∧
    ¬ PreviousOk "PVID".toList shortShape ⟨"1 PVID".toList, [[], []]⟩ ∧
    findAndGetPreviousWord "PVID".toList shortShape ⟨"1 PVID".toList, [[], []]⟩ = .error .read := by
  have htaken : findAndGetPreviousWord "PVID".toList shortShape ⟨"eth0 1  PVID".toList, [[], []]⟩ =
      .ok (BASE_PARSING_SUCCEEDED, ⟨"eth0 1  PVID".toList, ["PVID".toList, []]⟩) := by decide
  refine ⟨fun h => ?_, htaken, not_previousOk_error (e := .read) (by decide), by decide⟩
  unfold PreviousOk at h
  rw [show previousWord "PVID".toList "eth0 1  PVID".toList = some ['1'] by decide] at h
  obtain ⟨line, rows, hfill, -, hrun⟩ := h
  have hrows : ["PVID".toList, []] = rows := congrArg Scan.rows (Prod.mk.inj (Except.ok.inj (htaken.symm.trans hrun))).2
  rw [← hrows] at hfill
  exact absurd hfill (by decide)

end Back

end TsnSwitch.Tools
