/-
The combinator that counts lines (`repeat_until_eof_and_count`).

A line is counted when none of its callbacks reports a parsing failure. Validators have no say in
that, but where a parser has succeeded and a validator has failed, on the same
line or on different ones, the lines behind are not read.
-/
import TsnSwitch.Tools.Checked
import TsnSwitch.Tools.Combinators

namespace TsnSwitch.Tools.Callbacks

open Lib

/-! ## The code -/

/-- The flag of the line before stays where no callback is run. -/
def countLine : Callbacks → Bool → Status → Scan → Except Overrun (Bool × Status × Scan)
  | [], cntFlag, status, s => .ok (cntFlag, status, s)
  | call :: cs, cntFlag, status, s =>
    if status.failed then .ok (cntFlag, status, s)
    else
      match call with
      | none => .ok (cntFlag, status ||| BASE_FAILED, s)
      | some call => do
        let (callbackStatus, s) ← call s
        if callbackStatus.parsingFailed then .ok (false, status ||| callbackStatus, s)
        else countLine cs true (status ||| callbackStatus) s

/-- `cnt` is an `int`. -/
def countLines (cs : Callbacks) : List (List Char) → Bool → BitVec 32 → Status → Matrix →
    Except Overrun (BitVec 32 × Status × Stream)
  | [], _, cnt, status, rows => .ok (cnt, status, ⟨[], rows⟩)
  | line :: lines, cntFlag, cnt, status, rows => do
    let (cntFlag, status, s) ← countLine cs cntFlag status ⟨terminateString line, rows⟩
    let cnt := if cntFlag then cnt + 1 else cnt
    if status.parsingSucceeded && status.validationFailed then .ok (cnt, status, ⟨lines, s.rows⟩)
    else countLines cs lines cntFlag cnt status s.rows

/-- The number and the status of it, given the joined one of all callbacks. -/
def counted (sh : Shape) (cnt : BitVec 32) (status : Status) (s : Stream) : Status × Stream :=
  let status := if status.parsingSucceeded then { status with parsingFailed := false } else status
  (if cnt = 0 then BASE_PARSING_SUCCEEDED else status,
    { s with rows := s.rows.set 0 ((decimal cnt.toInt).take (sh.colNum - 1)) })

def repeatUntilEofAndCount (cs : Callbacks) (sh : Shape) (s : Stream) : Except Overrun (Status × Stream) := do
  let (cnt, status, s) ← countLines cs s.output false 0 BASE_SUCCEEDED s.rows
  .ok (counted sh cnt status s)

/-! ## What the callbacks report -/

/-- What the callbacks report of a line, up to the first parsing failure. -/
def reports : Callbacks → Scan → Except Overrun (List Status × Scan)
  | [], s => .ok ([], s)
  | none :: _, s => .ok ([BASE_FAILED], s)
  | some call :: cs, s => do
    let (status, s) ← call s
    if status.parsingFailed then .ok ([status], s)
    else (reports cs s).map fun (more, s) => (status :: more, s)

def joined (reported : List Status) : Status := reported.foldr (· ||| ·) BASE_SUCCEEDED

/-- A callback has run and none reports a parsing failure. -/
def parsed (reported : List Status) : Bool := reported ≠ [] && reported.all fun status => !status.parsingFailed

/-- All callbacks have run and none reports a failure. -/
def succeeded (cs : Callbacks) (reported : List Status) : Bool :=
  reported.length = cs.length && reported.all Status.good

/-- What is reported of the lines one after the other, each with the array the ones before have left. -/
def verdicts (cs : Callbacks) : List (List Char) → Matrix → Except Overrun (List (List Status))
  | [], _ => .ok []
  | line :: lines, rows => do
    let (reported, s) ← reports cs ⟨terminateString line, rows⟩
    (verdicts cs lines s.rows).map (reported :: ·)

/-- The first row has the number of the lines on which all callbacks succeed. -/
def CountOk (cs : Callbacks) (sh : Shape) (lines : List (List Char)) (rows : Matrix) : Prop :=
  ∃ reported status s, verdicts cs lines rows = .ok reported ∧
    repeatUntilEofAndCount cs sh ⟨lines, rows⟩ = .ok (status, s) ∧
    s.rows.head? = some ((decimal (reported.countP (succeeded cs))).take (sh.colNum - 1))

/-- The same up to the line after which a parser has succeeded and a validator has failed, with the
lines not read and the array in the end. -/
def history (cs : Callbacks) : Status → List (List Char) → Matrix → Except Overrun (List (List Status) × Stream)
  | _, [], rows => .ok ([], ⟨[], rows⟩)
  | status, line :: lines, rows => do
    let (reported, s) ← reports cs ⟨terminateString line, rows⟩
    let status := status ||| joined reported
    if status.parsingSucceeded && status.validationFailed then .ok ([reported], ⟨lines, s.rows⟩)
    else (history cs status lines s.rows).map fun (more, s) => (reported :: more, s)

/-- No callback is missing or fails altogether. -/
def Regular (cs : Callbacks) : Prop :=
  ∀ c ∈ cs, ∃ call, c = some call ∧ ∀ s status s', call s = .ok (status, s') → status.failed = false

/-- The callbacks go by the line alone, leave the array as it is, and none is a validator that fails. -/
def ByLine (cs : Callbacks) : Prop :=
  ∀ c ∈ cs, ∃ f : List Char → Status × List Char, (∀ line, (f line).1.validationFailed = false) ∧
    c = some fun s => .ok ((f s.line).1, ⟨(f s.line).2, s.rows⟩)

/-- Whether a line would be counted. -/
def parsesLine (cs : Callbacks) (rows : Matrix) (line : List Char) : Bool :=
  match reports cs ⟨terminateString line, rows⟩ with
  | .error _ => false
  | .ok (reported, _) => parsed reported

/-! ## One line -/

section Lines

variable {cs : Callbacks}

theorem Regular.tail {c : Option CallbackFn} (h : Regular (c :: cs)) : cs.Regular :=
  fun d hd => h d (List.mem_cons_of_mem _ hd)

/-- What is reported is no failure altogether, and something, if there are callbacks. -/
theorem reports_regular (h : cs.Regular) {s s' : Scan} {reported : List Status}
    (hreports : reports cs s = .ok (reported, s')) :
    (joined reported).failed = false ∧ (reported = [] ↔ cs = []) := by
  induction cs generalizing s s' reported with
  | nil =>
    obtain ⟨rfl, -⟩ := Prod.mk.inj (Except.ok.inj hreports)
    exact ⟨rfl, iff_of_true rfl rfl⟩
  | cons c cs ih =>
    obtain ⟨call, rfl, hfail⟩ := h c (List.mem_cons_self ..)
    rw [reports] at hreports
    cases hcall : call s with
    | error e => rw [hcall] at hreports; cases hreports
    | ok r =>
      obtain ⟨status, s1⟩ := r
      have hstatus := hfail s status s1 hcall
      simp only [hcall, bind, Except.bind] at hreports
      split at hreports
      · obtain ⟨rfl, -⟩ := Prod.mk.inj (Except.ok.inj hreports)
        exact ⟨by simpa [joined] using hstatus, by simp⟩
      · cases hmore : reports cs s1 with
        | error e => rw [hmore] at hreports; cases hreports
        | ok r =>
          rw [hmore] at hreports
          obtain ⟨rfl, -⟩ := Prod.mk.inj (Except.ok.inj hreports)
          have hrest := (ih h.tail hmore).1
          exact ⟨by rw [joined, List.foldr_cons, or_failed, hstatus]; exact hrest, by simp⟩

/-- The flag of a line is that of the line before only where no callback is run. -/
theorem countLine_eq (h : cs.Regular) (cntFlag : Bool) {status : Status} (hst : status.failed = false) (s : Scan) :
    countLine cs cntFlag status s = (reports cs s).map fun (reported, s) =>
      (if reported = [] then cntFlag else parsed reported, status ||| joined reported, s) := by
  induction cs generalizing cntFlag status s with
  | nil => simp [countLine, reports, joined, Except.map]
  | cons c cs ih =>
    obtain ⟨call, rfl, hfail⟩ := h c (List.mem_cons_self ..)
    simp only [countLine, reports, hst, Bool.false_eq_true, if_false]
    cases hcall : call s with
    | error e => rfl
    | ok r =>
      obtain ⟨first, s1⟩ := r
      have hboth : (status ||| first).failed = false := by rw [or_failed, hst, hfail s first s1 hcall]; rfl
      simp only [bind, Except.bind]
      cases hparse : first.parsingFailed with
      | true => simp [Except.map, parsed, joined, hparse]
      | false =>
        simp only [Bool.false_eq_true, if_false, ih h.tail true hboth s1]
        cases reports cs s1 with
        | error e => rfl
        | ok r =>
          obtain ⟨more, s2⟩ := r
          have hflag : (if more = [] then true else parsed more) = parsed (first :: more) := by
            cases more <;> simp [parsed, hparse]
          simp [Except.map, hflag, joined, or_assoc]

/-! ## The callbacks of the tables -/

theorem map_failed {α β : Type} {x : Except Overrun α} {f : α → Status × β} {b : β} {status : Status}
    (h : x.map f = .ok (status, b)) (hf : ∀ a, x = .ok a → (f a).1.failed = false) : status.failed = false := by
  cases x with
  | error e => cases h
  | ok a => simpa [Except.ok.inj h] using hf a rfl

theorem baseSetResultArray_failed {sh : Shape} {sub : List Char} {s s' : Scan} {status : Status}
    (h : baseSetResultArray sh sub s = .ok (status, s')) : status.failed = false := by
  simp only [baseSetResultArray] at h
  split at h
  · obtain ⟨rfl, -⟩ := Prod.mk.inj (Except.ok.inj h)
    rfl
  · exact map_failed h fun _ _ => rfl

theorem arrayValidateIntervalHelper_failed {lower : Bool} {bound : Int} {sh : Shape} {rows : Matrix} {status : Status}
    (h : arrayValidateIntervalHelper lower bound sh rows = .ok status) : status.failed = false := by
  induction rows with
  | nil => rw [← Except.ok.inj h]; rfl
  | cons row rows ih =>
    rw [arrayValidateIntervalHelper] at h
    split at h
    · rw [← Except.ok.inj h]; rfl
    · split at h
      · cases h
      · split_ifs at h
        · rw [← Except.ok.inj h]; rfl
        · exact ih h
        · rw [← Except.ok.inj h]; rfl
        · exact ih h

theorem arrayUniqElements_failed {sh : Shape} {rows : Matrix} {r : Status × Matrix}
    (h : arrayUniqElements sh rows = .ok r) : r.1.failed = false := by
  rw [arrayUniqElements] at h
  split at h
  · cases h
  · rw [← Except.ok.inj h]
    rfl

theorem arrayUntilMatchCase_failed {matchCase : List Char} {sh : Shape} {rows : Matrix} {r : Status × Matrix}
    (h : arrayUntilMatchCase matchCase sh rows = .ok r) : r.1.failed = false := by
  rw [arrayUntilMatchCase] at h
  split_ifs at h
  · rw [← Except.ok.inj h]
    rfl
  · rw [← Except.ok.inj h]
    rfl
  · exact map_failed h fun _ _ => rfl

theorem arrayDropPunctuation_failed {sh : Shape} {rows : Matrix} {r : Status × Matrix}
    (h : arrayDropPunctuation sh rows = .ok r) : r.1.failed = false := by
  refine map_failed h fun rows' _ => ?_
  simp only
  split_ifs <;> rfl

theorem callback_failed {matchCase : List Char} {sh : Shape} {cb : Callback} {s s' : Scan} {status : Status}
    (h : cb.run matchCase sh s = .ok (status, s')) : status.failed = false := by
  have hfind := (findOnLineHelper_onlyParsing matchCase s.line).1
  cases cb with
  | findOnLine | findOnLineAndFillResultArray =>
    rw [← (Prod.mk.inj (Except.ok.inj h)).1]
    exact hfind
  | isNotOnLine =>
    rw [← (Prod.mk.inj (Except.ok.inj h)).1]
    split_ifs <;> rfl
  | findAndGetNextWord =>
    simp only [Callback.run, Tools.findAndGetNextWord] at h
    split at h
    · rw [← (Prod.mk.inj (Except.ok.inj h)).1]
      rfl
    · split at h
      · rw [← (Prod.mk.inj (Except.ok.inj h)).1]
        rfl
      · exact baseSetResultArray_failed h
  | getFirstWord => exact baseSetResultArray_failed h
  | arrayUniqElements => exact map_failed h fun _ hr => arrayUniqElements_failed hr
  | arrayUntilMatchCase => exact map_failed h fun _ hr => arrayUntilMatchCase_failed hr
  | arrayDropPunctuation => exact map_failed h fun _ hr => arrayDropPunctuation_failed hr
  | validateStringContent =>
    rw [← (Prod.mk.inj (Except.ok.inj h)).1]
    exact (validateStringContent_bits matchCase sh s.rows).1
  | arrayValidateIntervalLowerBound | arrayValidateIntervalUpperBound =>
    exact map_failed h fun _ hr => arrayValidateIntervalHelper_failed hr

/-- No callback of a table fails altogether. -/
theorem regular_spec {ps : List ParserSpec} (hps : ∀ p ∈ ps, p.callback.isSome = true) (sh : Shape) :
    Regular (ps.map (·.call sh)) := by
  intro c hc
  obtain ⟨p, hp, rfl⟩ := List.mem_map.1 hc
  obtain ⟨cb, hcb⟩ := Option.isSome_iff_exists.1 (hps p hp)
  exact ⟨fun s => cb.run p.matchCase sh s, by rw [ParserSpec.call, hcb]; rfl,
    fun s status s' h => callback_failed h⟩

/-! ## All lines -/

theorem joined_append (a b : List Status) : joined (a ++ b) = joined a ||| joined b := by
  induction a with
  | nil => exact (succeeded_or _).symm
  | cons status a ih => rw [List.cons_append, joined, List.foldr_cons, ← joined, ih, ← or_assoc]; rfl

/-- The lines are counted on which a callback is run and none reports a parsing failure. -/
theorem countLines_eq (h : cs.Regular) (lines : List (List Char)) {cntFlag : Bool} (hflag : cs = [] → cntFlag = false)
    (cnt : BitVec 32) {status : Status} (hst : status.failed = false) (rows : Matrix) :
    countLines cs lines cntFlag cnt status rows = (history cs status lines rows).map fun (reported, s) =>
      (cnt + BitVec.ofNat 32 (reported.countP parsed), status ||| joined reported.flatten, s) := by
  induction lines generalizing cntFlag cnt status rows with
  | nil => simp [countLines, history, joined, Except.map]
  | cons line lines ih =>
    rw [countLines, history, countLine_eq h cntFlag hst]
    cases hreports : reports cs ⟨terminateString line, rows⟩ with
    | error e => rfl
    | ok r =>
      obtain ⟨reported, s⟩ := r
      obtain ⟨hfail, hnil⟩ := reports_regular h hreports
      have hparsed : (if reported = [] then cntFlag else parsed reported) = parsed reported := by
        by_cases hne : reported = []
        · rw [if_pos hne, hflag (hnil.1 hne), hne]; rfl
        · rw [if_neg hne]
      have hnext : cs = [] → parsed reported = false := fun hcs => by rw [hnil.2 hcs]; rfl
      simp only [bind, Except.bind, Except.map, hparsed]
      cases hstop : (status ||| joined reported).parsingSucceeded && (status ||| joined reported).validationFailed with
      | true =>
        simp only [if_true, List.flatten_singleton, List.countP_singleton]
        cases parsed reported <;> simp
      | false =>
        simp only [Bool.false_eq_true, if_false]
        rw [ih hnext _ (by rw [or_failed, hst, hfail]; rfl)]
        cases history cs (status ||| joined reported) lines s.rows with
        | error e => rfl
        | ok r =>
          obtain ⟨more, s'⟩ := r
          have hcnt : (if parsed reported then cnt + 1 else cnt) + BitVec.ofNat 32 (more.countP parsed) =
              cnt + BitVec.ofNat 32 ((reported :: more).countP parsed) := by
            rw [List.countP_cons]
            cases parsed reported
            · simp
            · simp only [if_true, BitVec.ofNat_add]
              rw [BitVec.add_assoc, BitVec.add_comm 1]
              rfl
          simp only [Except.map, hcnt, List.flatten_cons, joined_append, or_assoc]

/-! ## Callbacks of the line -/

/-- They report the same whatever is in the array, and no failed validator. -/
theorem ByLine.reports (h : cs.ByLine) (line : List Char) :
    ∃ reported line', (joined reported).validationFailed = false ∧
      ∀ rows, Callbacks.reports cs ⟨line, rows⟩ = .ok (reported, ⟨line', rows⟩) := by
  induction cs generalizing line with
  | nil => exact ⟨[], line, rfl, fun rows => rfl⟩
  | cons c cs ih =>
    obtain ⟨f, hvalid, rfl⟩ := h c (List.mem_cons_self ..)
    obtain ⟨more, line', hmore, hreports⟩ := ih (fun d hd => h d (List.mem_cons_of_mem _ hd)) (f line).2
    cases hparse : (f line).1.parsingFailed with
    | true =>
      refine ⟨[(f line).1], (f line).2, by simpa [joined] using hvalid line, fun rows => ?_⟩
      simp only [Callbacks.reports, bind, Except.bind, hparse, if_true]
    | false =>
      refine ⟨(f line).1 :: more, line', ?_, fun rows => ?_⟩
      · rw [joined, List.foldr_cons, or_validationFailed, hvalid]
        exact hmore
      · simp only [Callbacks.reports, bind, Except.bind, hparse, Bool.false_eq_true, if_false, hreports]
        rfl

/-- All lines are read, and those that would be counted alone are. -/
theorem ByLine.history (h : cs.ByLine) (lines : List (List Char)) (status : Status)
    (hst : status.validationFailed = false) (rows : Matrix) : ∃ reported,
      Callbacks.history cs status lines rows = .ok (reported, ⟨[], rows⟩) ∧
        reported.countP parsed = lines.countP (cs.parsesLine rows) := by
  induction lines generalizing status with
  | nil => exact ⟨[], rfl, rfl⟩
  | cons line lines ih =>
    obtain ⟨reported, line', hvalid, hreports⟩ := h.reports (terminateString line)
    have hboth : (status ||| joined reported).validationFailed = false := by rw [or_validationFailed, hst, hvalid]; rfl
    obtain ⟨more, hmore, hcount⟩ := ih _ hboth
    have hline : cs.parsesLine rows line = parsed reported := by rw [parsesLine, hreports]
    refine ⟨reported :: more, ?_, ?_⟩
    · simp only [Callbacks.history, hreports, bind, Except.bind, hboth, Bool.and_false, Bool.false_eq_true,
        if_false, hmore]
      rfl
    · rw [List.countP_cons, List.countP_cons, hcount, hline]

/-- **The number reported is that of the lines without a parsing failure**, up to the line after which a
parser has succeeded and a validator has failed. For callbacks that go by the line, that is the
number of all such lines, in whatever order. -/
theorem repeatUntilEofAndCount_eq (h : cs.Regular) (sh : Shape) (lines : List (List Char)) (rows : Matrix) :
    repeatUntilEofAndCount cs sh ⟨lines, rows⟩ = (history cs BASE_SUCCEEDED lines rows).map (fun (reported, s) =>
      counted sh (BitVec.ofNat 32 (reported.countP parsed)) (joined reported.flatten) s) ∧
    (cs.ByLine → ∀ lines', lines'.Perm lines → ∃ status, repeatUntilEofAndCount cs sh ⟨lines', rows⟩ =
      .ok (counted sh (BitVec.ofNat 32 (lines.countP (cs.parsesLine rows))) status ⟨[], rows⟩)) := by
  have hrun : ∀ lines, repeatUntilEofAndCount cs sh ⟨lines, rows⟩ =
      (history cs BASE_SUCCEEDED lines rows).map fun (reported, s) =>
        counted sh (BitVec.ofNat 32 (reported.countP parsed)) (joined reported.flatten) s := by
    intro lines
    have hzero : (0 : BitVec 32) = 0#32 := rfl
    rw [repeatUntilEofAndCount, countLines_eq h lines (fun _ => rfl) 0 rfl]
    cases history cs BASE_SUCCEEDED lines rows with
    | error e => rfl
    | ok r => simp only [Except.map, bind, Except.bind, succeeded_or, hzero, BitVec.zero_add]
  refine ⟨hrun lines, fun hline lines' hperm => ?_⟩
  obtain ⟨reported, hhistory, hcount⟩ := hline.history lines' BASE_SUCCEEDED rfl rows
  refine ⟨joined reported.flatten, ?_⟩
  rw [hrun, hhistory, ← hperm.countP_eq, ← hcount]
  rfl

/-- Bridge entries, some of them static. -/
def fdbLines : List (List Char) := ["dev sw0p2 static\n".toList, "dev sw0p3\n".toList, "dev sw0p4 static\n".toList]

def staticEntries : List ParserSpec := [⟨some .findOnLine, "static".toList⟩]

theorem repeatUntilEofAndCount_static :
    repeatUntilEofAndCount (staticEntries.map (·.call shortShape)) shortShape ⟨fdbLines, zeros shortShape⟩ =
      .ok (BASE_PARSING_SUCCEEDED, ⟨[], ["2".toList, []]⟩) ∧
    ∃ status, repeatUntilEofAndCount (staticEntries.map (·.call shortShape)) shortShape
      ⟨fdbLines.reverse, zeros shortShape⟩ = .ok (status, ⟨[], ["2".toList, []]⟩) := by
  have hps : ∀ p ∈ staticEntries, p.callback.isSome = true := by decide
  have hcount := repeatUntilEofAndCount_eq (regular_spec hps shortShape) shortShape fdbLines (zeros shortShape)
  have hline : ByLine (staticEntries.map (·.call shortShape)) := fun c hc => by
    obtain rfl := List.mem_singleton.1 hc
    refine ⟨fun line => (findOnLineHelper "static".toList line, line), fun line => ?_, rfl⟩
    simp only [findOnLineHelper]
    split_ifs <;> rfl
  refine ⟨hcount.1.trans (by decide), ?_⟩
  obtain ⟨status, hrun⟩ := hcount.2 hline fdbLines.reverse (List.reverse_perm _)
  have htwo : fdbLines.countP (parsesLine (staticEntries.map (·.call shortShape)) (zeros shortShape)) = 2 := by decide
  have hrows : (zeros shortShape).set 0 ((decimal (BitVec.ofNat 32 2).toInt).take (shortShape.colNum - 1)) =
      ["2".toList, []] := by decide
  simp only [counted, htwo, hrows] at hrun
  exact ⟨_, hrun⟩

/-- A line on which the validator has failed is counted, and the next one is not read. -/
theorem not_countOk : ¬ CountOk maxHopsCalls shortShape maxHopsLines (zeros shortShape) := by
  rintro ⟨reported, status, s, hverdicts, hrun, hrow⟩
  have hnone : (verdicts maxHopsCalls maxHopsLines (zeros shortShape)).map
      (fun reported => reported.countP (succeeded maxHopsCalls)) = .ok 0 := by decide
  have hone : (repeatUntilEofAndCount maxHopsCalls shortShape ⟨maxHopsLines, zeros shortShape⟩).map
      (fun r => r.2.rows.head?) = .ok (some "1".toList) := by decide
  rw [hverdicts] at hnone
  rw [hrun] at hone
  have hcount : reported.countP (succeeded maxHopsCalls) = 0 := Except.ok.inj hnone
  have hfirst : s.rows.head? = some "1".toList := Except.ok.inj hone
  rw [hcount, hfirst] at hrow
  exact absurd hrow (by decide)

end Lines

end TsnSwitch.Tools.Callbacks
