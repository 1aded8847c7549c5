/-
The combinators of libbase over any callbacks (base_private_combinators.c), and
what `AND_combinator` makes of the lines.

It takes the first line with no parsing failure. A failed validator does not turn a line
down, and what the callbacks have put into the array on lines before stays there.
-/
import TsnSwitch.Tools.Parsers

namespace TsnSwitch.Tools

open Lib
open Base (EXIT_SUCCESS EXIT_FAILURE)

/-! ## Callbacks -/

/-- A callback with its match case, on an array of some shape. -/
abbrev CallbackFn := Scan → Except Overrun (Status × Scan)

/-- The callbacks of a combinator, `none` for a missing one. -/
abbrev Callbacks := List (Option CallbackFn)

def ParserSpec.call (sh : Shape) (p : ParserSpec) : Option CallbackFn :=
  p.callback.map fun cb s => cb.run p.matchCase sh s

def Parser.call (matchCase : String) (sh : Shape) (p : Parser) : Option CallbackFn :=
  some fun s => p.run matchCase.toList sh s

/-- A status without a failure. -/
def Status.good (s : Status) : Bool := !s.failed && !s.validationFailed && !s.parsingFailed

namespace Callbacks

/-! ## Combinators -/

/-- The callbacks on one line of `AND_combinator`, `none` for a line that does not pass. The
status in which a failed validator is looked for at the end has been cleared after each
callback. -/
def andLine : Callbacks → Status → Scan → Except Overrun (Option Status × Scan)
  | [], status, s => .ok (some status, s)
  | call :: cs, status, s =>
    if status.failed then .ok (none, s)
    else
      match call with
      | none => .ok (none, s)
      | some call => do
        let (callbackStatus, s) ← call s
        if callbackStatus.parsingFailed then .ok (none, s)
        else andLine cs (status ||| callbackStatus) s

/-- A line is what one `fgets` reads. -/
def andCombinator (cs : Callbacks) : List (List Char) → Matrix → Except Overrun (Status × Stream)
  | [], rows => .ok (BASE_FAILED, ⟨[], rows⟩)
  | line :: lines, rows => do
    match ← andLine cs BASE_SUCCEEDED ⟨terminateString line, rows⟩ with
    | (some status, s) => .ok (if status = BASE_SUCCEEDED then BASE_FAILED else status, ⟨lines, s.rows⟩)
    | (none, s) => andCombinator cs lines s.rows

/-- One line of the combinators that read all of them. -/
def checkLine : Callbacks → Status → Scan → Except Overrun (Status × Scan)
  | [], status, s => .ok (status, s)
  | call :: cs, status, s =>
    if status.failed then .ok (status, s)
    else
      match call with
      | none => .ok (status ||| BASE_FAILED, s)
      | some call => do
        let (callbackStatus, s) ← call s
        if callbackStatus.parsingFailed then .ok (status ||| callbackStatus, s)
        else checkLine cs (status ||| callbackStatus) s

def repeatLines (cs : Callbacks) : List (List Char) → Status → Matrix → Except Overrun (Status × Matrix)
  | [], status, rows => .ok (status, rows)
  | line :: lines, status, rows => do
    let (status, s) ← checkLine cs status ⟨terminateString line, rows⟩
    repeatLines cs lines status s.rows

def repeatUntilNullWithCheck (cs : Callbacks) (s : Stream) : Except Overrun (Status × Stream) := do
  let (status, rows) ← repeatLines cs s.output BASE_SUCCEEDED s.rows
  .ok (if status.parsingSucceeded then { status with parsingFailed := false } else status, ⟨[], rows⟩)

def orLoop : Callbacks → Status → Scan → Except Overrun (Status × Scan)
  | [], status, s => .ok (status, s)
  | call :: cs, status, s =>
    if status.failed then .ok (status, s)
    else
      match call with
      | none => .ok (status ||| BASE_FAILED, s)
      | some call => do
        let (callbackStatus, s) ← call s
        let status := status ||| callbackStatus
        if status.parsingSucceeded || status.validationSucceeded then .ok (status, s) else orLoop cs status s

/-- One line is read. -/
def orCombinator (cs : Callbacks) (s : Stream) : Except Overrun (Status × Stream) := do
  let (status, scan) ← orLoop cs BASE_SUCCEEDED ⟨cString (s.output.headD []), s.rows⟩
  .ok (status, ⟨s.output.tail, scan.rows⟩)

/-- Always the first callback. -/
def noCombinator (cs : Callbacks) (s : Stream) : Except Overrun (Status × Stream) :=
  match cs.head?.bind id with
  | none => .ok (BASE_FAILED, s)
  | some call => do
    let (status, scan) ← call ⟨[], s.rows⟩
    .ok (status, { s with rows := scan.rows })

/-- A combinator with its callbacks. -/
abbrev Combined := Stream → Except Overrun (Status × Stream)

def combined (cs : Callbacks) : Combinator → Combined
  | .repeatUntilNullWithCheck => repeatUntilNullWithCheck cs
  | .andCombinator => fun s => andCombinator cs s.output s.rows
  | .orCombinator => orCombinator cs
  | .noCombinator => noCombinator cs

def combinatorComb : List Combined → Status → Stream → Except Overrun (Status × Stream)
  | [], status, s => .ok (status, s)
  | comb :: combs, status, s => do
    let (combStatus, s) ← comb s
    let status := status ||| combStatus
    if status.failed then .ok (status, s) else combinatorComb combs status s

/-- `get_object` on the output of a tool. -/
def getObject (combs : List Combined) (sh : Shape) (output : List Char) : Except Overrun (Nat × Matrix) :=
  (combinatorComb combs BASE_SUCCEEDED ⟨piecesOf output, zeros sh⟩).map fun (status, s) =>
    if status.rejected then (EXIT_FAILURE, zeros sh) else (EXIT_SUCCESS, s.rows)

section Spec

variable (sh : Shape)

theorem andLine_spec (ps : List ParserSpec) (status : Status) (s : Scan) :
    Tools.andLine sh ps status s = andLine (ps.map (·.call sh)) status s := by
  induction ps generalizing status s with
  | nil => rfl
  | cons p ps ih =>
    cases hcb : p.callback with
    | none => simp only [Tools.andLine, List.map_cons, ParserSpec.call, hcb, Option.map_none, andLine]
    | some cb => simp only [Tools.andLine, List.map_cons, ParserSpec.call, hcb, Option.map_some, andLine, ih]

theorem andCombinator_spec (ps : List ParserSpec) (lines : List (List Char)) (rows : Matrix) :
    andLines sh ps lines rows = andCombinator (ps.map (·.call sh)) lines rows := by
  induction lines generalizing rows with
  | nil => rfl
  | cons line lines ih =>
    rw [andLines, andCombinator, andLine_spec]
    congr 1
    funext r
    obtain ⟨status | status, s⟩ := r
    · exact ih s.rows
    · rfl

theorem checkLine_spec (ps : List ParserSpec) (status : Status) (s : Scan) :
    Tools.checkLine sh ps status s = checkLine (ps.map (·.call sh)) status s := by
  induction ps generalizing status s with
  | nil => rfl
  | cons p ps ih =>
    cases hcb : p.callback with
    | none => simp only [Tools.checkLine, List.map_cons, ParserSpec.call, hcb, Option.map_none, checkLine]
    | some cb => simp only [Tools.checkLine, List.map_cons, ParserSpec.call, hcb, Option.map_some, checkLine, ih]

theorem repeatLines_spec (ps : List ParserSpec) (lines : List (List Char)) (status : Status) (rows : Matrix) :
    Tools.repeatLines sh ps lines status rows = repeatLines (ps.map (·.call sh)) lines status rows := by
  induction lines generalizing status rows with
  | nil => rfl
  | cons line lines ih => simp only [Tools.repeatLines, repeatLines, checkLine_spec, ih]

theorem repeatUntilNullWithCheck_spec (ps : List ParserSpec) (s : Stream) :
    Tools.repeatUntilNullWithCheck sh ps s = repeatUntilNullWithCheck (ps.map (·.call sh)) s := by
  rw [Tools.repeatUntilNullWithCheck, repeatUntilNullWithCheck, repeatLines_spec]

theorem noCombinator_spec (ps : List ParserSpec) (s : Stream) :
    Tools.noCombinator sh ps s = noCombinator (ps.map (·.call sh)) s := by
  cases ps with
  | nil => rfl
  | cons p ps => cases hcb : p.callback <;> simp [Tools.noCombinator, noCombinator, ParserSpec.call, hcb]

theorem orLoop_spec (ps : List ParserSpec) (status : Status) (s : Scan) :
    Tools.orLoop sh ps status s = orLoop (ps.map (·.call sh)) status s := by
  induction ps generalizing status s with
  | nil => rfl
  | cons p ps ih =>
    cases hcb : p.callback with
    | none => simp only [Tools.orLoop, List.map_cons, ParserSpec.call, hcb, Option.map_none, orLoop]
    | some cb => simp only [Tools.orLoop, List.map_cons, ParserSpec.call, hcb, Option.map_some, orLoop, ih]

theorem run_spec (c : Combinator) (ps : List ParserSpec) (s : Stream) :
    c.run sh ps s = combined (ps.map (·.call sh)) c s := by
  cases c with
  | repeatUntilNullWithCheck => exact repeatUntilNullWithCheck_spec sh ps s
  | andCombinator => exact andCombinator_spec sh ps s.output s.rows
  | orCombinator => rw [Combinator.run, Tools.orCombinator, combined, orCombinator, orLoop_spec]
  | noCombinator => exact noCombinator_spec sh ps s

theorem combinatorComb_spec (spec : List (Combinator × List ParserSpec)) (status : Status) (s : Stream) :
    Tools.combinatorComb sh (spec.map fun c => (some c.1, c.2)) status s =
      combinatorComb (spec.map fun c => combined (c.2.map (·.call sh)) c.1) status s := by
  induction spec generalizing status s with
  | nil => rfl
  | cons c spec ih =>
    rw [List.map_cons, List.map_cons, Tools.combinatorComb, combinatorComb, run_spec]
    simp only [ih]

/-- **An object is read by the same combinators**, over the callbacks of its table. -/
theorem getObject_spec (spec : List (Combinator × List ParserSpec)) (output : List Char) :
    Tools.getObject (spec.map fun c => (some c.1, c.2)) sh (some output) =
      getObject (spec.map fun c => combined (c.2.map (·.call sh)) c.1) sh output := by
  rw [Tools.getObject, getStrSysCall, combinatorComb_spec, getObject]
  cases combinatorComb (spec.map fun c => combined (c.2.map (·.call sh)) c.1) BASE_SUCCEEDED
    ⟨piecesOf output, zeros sh⟩ <;> rfl

end Spec

/-! ## What is asked of `AND_combinator` -/

/-- The callbacks one after the other, for a line that all of them accept: what they report
together and what they leave. -/
def accept : Callbacks → Scan → Option (Status × Scan)
  | [], s => some (BASE_SUCCEEDED, s)
  | none :: _, _ => none
  | some call :: cs, s =>
    match call s with
    | .error _ => none
    | .ok (status, s) => if status.good then (accept cs s).map fun (more, s) => (status ||| more, s) else none

def acceptLine (cs : Callbacks) (rows : Matrix) (line : List Char) : Option (Status × Scan) :=
  accept cs ⟨terminateString line, rows⟩

/-- It returns what the callbacks make of the first line they all accept, the lines behind it are
still to be read, and there is no trace of the lines before. -/
structure AndOk (cs : Callbacks) (rows : Matrix) (lines : List (List Char)) : Prop where
  first : ∀ before line rest status s, lines = before ++ line :: rest →
    (∀ l ∈ before, cs.acceptLine rows l = none) → cs.acceptLine rows line = some (status, s) →
      cs.andCombinator lines rows = .ok (status, ⟨rest, s.rows⟩)
  fails : (∀ line ∈ lines, cs.acceptLine rows line = none) →
    ∃ s, cs.andCombinator lines rows = .ok (BASE_FAILED, s)
  noTrace : ∀ before others, before <+: lines → (∀ line ∈ before, cs.acceptLine rows line = none) →
    cs.andCombinator (before ++ others) rows = cs.andCombinator others rows

/-- A callback ends the line, and the array is then `rows`: it reports a parsing failure, or it is
missing, or the one before it has failed altogether. -/
def GivesUp (rows : Matrix) : Callbacks → Scan → Prop
  | [], _ => False
  | none :: _, s => s.rows = rows
  | some call :: cs, s =>
    match call s with
    | .error _ => False
    | .ok (status, s) =>
      if status.parsingFailed then s.rows = rows
      else if status.failed then cs ≠ [] ∧ s.rows = rows
      else GivesUp rows cs s

/-- The lines before the first that is accepted are given up with the array as it was, and on this
one a callback reports something. -/
structure AndRight (cs : Callbacks) (rows : Matrix) (lines : List (List Char)) : Prop where
  before : ∀ before line, before ++ [line] <+: lines → (∀ l ∈ before ++ [line], cs.acceptLine rows l = none) →
    GivesUp rows cs ⟨terminateString line, rows⟩
  reported : ∀ before line status s, before ++ [line] <+: lines →
    (∀ l ∈ before, cs.acceptLine rows l = none) → cs.acceptLine rows line = some (status, s) →
      status ≠ BASE_SUCCEEDED

section And

variable {cs : Callbacks} {rows : Matrix}

/-! ## One line -/

theorem accept_good {s s' : Scan} {status : Status} (h : accept cs s = some (status, s')) : status.good = true := by
  induction cs generalizing s status s' with
  | nil =>
    obtain ⟨rfl, -⟩ := Prod.mk.inj (Option.some.inj h)
    rfl
  | cons call cs ih =>
    cases call with
    | none => cases h
    | some call =>
      rw [accept] at h
      split at h
      · cases h
      · rename_i first s1 _
        split at h
        · rename_i hgood
          obtain ⟨⟨more, s2⟩, hmore, heq⟩ := Option.map_eq_some_iff.1 h
          obtain ⟨rfl, -⟩ := Prod.mk.inj heq
          have hrest := ih hmore
          simp only [Status.good, Bool.and_eq_true, Bool.not_eq_true'] at hgood hrest ⊢
          simp [hgood, hrest]
        · cases h

theorem andLine_accept {s s' : Scan} {more : Status} (status : Status) (hst : status.failed = false)
    (h : accept cs s = some (more, s')) : andLine cs status s = .ok (some (status ||| more), s') := by
  induction cs generalizing s status more with
  | nil =>
    obtain ⟨rfl, rfl⟩ := Prod.mk.inj (Option.some.inj h)
    rw [andLine, or_succeeded]
  | cons call cs ih =>
    cases call with
    | none => cases h
    | some call =>
      rw [accept] at h
      split at h
      · cases h
      · rename_i first s1 hcall
        split at h
        · rename_i hgood
          obtain ⟨⟨more', s2⟩, hmore, heq⟩ := Option.map_eq_some_iff.1 h
          obtain ⟨rfl, rfl⟩ := Prod.mk.inj heq
          simp only [Status.good, Bool.and_eq_true, Bool.not_eq_true'] at hgood
          have hrest := ih (status ||| first) (by rw [or_failed, hst, hgood.1.1]; rfl) hmore
          simp only [andLine, hst, hcall, hgood.2, bind, Except.bind, Bool.false_eq_true, if_false, hrest, or_assoc]
        · cases h

theorem andLine_givesUp {s : Scan} (status : Status) (hst : status.failed = false) :
    GivesUp rows cs s ↔ ∃ s', andLine cs status s = .ok (none, s') ∧ s'.rows = rows := by
  induction cs generalizing s status with
  | nil => simp [GivesUp, andLine]
  | cons call cs ih =>
    cases call with
    | none => simp [GivesUp, andLine, hst]
    | some call =>
      simp only [GivesUp, andLine, hst, bind, Except.bind, Bool.false_eq_true, if_false]
      cases call s with
      | error e => simp
      | ok r =>
        obtain ⟨first, s1⟩ := r
        cases hparse : first.parsingFailed with
        | true => simp [hparse]
        | false =>
          cases hfail : first.failed with
          | false =>
            simp only [hparse, hfail, Bool.false_eq_true, if_false]
            exact ih _ (by rw [or_failed, hst, hfail]; rfl)
          | true =>
            have hboth : (status ||| first).failed = true := by rw [or_failed, hfail, Bool.or_true]
            cases cs with
            | nil => simp [hparse, hfail, andLine]
            | cons call cs => simp [hparse, hfail, andLine, hboth]

/-! ## All lines -/

/-- A line that is given up with the array as it was is as if it had not been there. -/
theorem andCombinator_givesUp {line : List Char} (h : GivesUp rows cs ⟨terminateString line, rows⟩)
    (others : List (List Char)) : andCombinator cs (line :: others) rows = andCombinator cs others rows := by
  obtain ⟨s, hline, hrows⟩ := (andLine_givesUp BASE_SUCCEEDED rfl).1 h
  rw [andCombinator, hline]
  exact congrArg _ hrows

theorem andCombinator_accept {line : List Char} {status : Status} {s : Scan}
    (h : acceptLine cs rows line = some (status, s)) (rest : List (List Char)) :
    andCombinator cs (line :: rest) rows =
      .ok (if status = BASE_SUCCEEDED then BASE_FAILED else status, ⟨rest, s.rows⟩) := by
  rw [andCombinator, andLine_accept BASE_SUCCEEDED rfl h, succeeded_or]
  rfl

/-- At least one line is read, if there is one. -/
theorem andCombinator_length {lines : List (List Char)} {status : Status} {s : Stream}
    (h : andCombinator cs lines rows = .ok (status, s)) : s.output.length ≤ lines.length - 1 := by
  induction lines generalizing rows with
  | nil =>
    cases h
    exact Nat.le_refl _
  | cons line lines ih =>
    rw [andCombinator] at h
    cases hline : andLine cs BASE_SUCCEEDED ⟨terminateString line, rows⟩ with
    | error e => rw [hline] at h; cases h
    | ok r =>
      rw [hline] at h
      obtain ⟨_ | _, s1⟩ := r
      · exact (ih h).trans (Nat.sub_le ..)
      · cases h
        exact Nat.le_refl _

/-- A line that leaves no trace whatever is behind it is given up. -/
theorem givesUp_of_noTrace {line : List Char}
    (h : ∀ others, andCombinator cs (line :: others) rows = andCombinator cs others rows) :
    GivesUp rows cs ⟨terminateString line, rows⟩ := by
  rw [andLine_givesUp BASE_SUCCEEDED rfl]
  have hnil := h []
  have hone := h [[]]
  rw [andCombinator] at hnil hone
  cases hline : andLine cs BASE_SUCCEEDED ⟨terminateString line, rows⟩ with
  | error e => rw [hline] at hnil; cases hnil
  | ok r =>
    obtain ⟨_ | status, s⟩ := r
    · rw [hline] at hnil
      have hrows := congrArg Stream.rows (Prod.mk.inj (Except.ok.inj hnil)).2
      exact ⟨s, rfl, hrows⟩
    · rw [hline] at hone
      exact absurd (andCombinator_length hone.symm) (by simp)

/-- **The first line that all callbacks accept is taken** just when nothing is left of the ones
before and a callback says something about it. -/
theorem andOk_iff (cs : Callbacks) (rows : Matrix) (lines : List (List Char)) :
    AndOk cs rows lines ↔ AndRight cs rows lines := by
  constructor
  · intro h
    refine ⟨fun before line hpre hnone => givesUp_of_noTrace fun others => ?_,
      fun before line status s hpre hnone haccept => ?_⟩
    · have hall := h.noTrace (before ++ [line]) others hpre hnone
      have hbefore := h.noTrace before (line :: others) ((List.prefix_append ..).trans hpre)
        fun l hl => hnone l (List.mem_append_left _ hl)
      rw [List.append_assoc] at hall
      exact hbefore.symm.trans hall
    · obtain ⟨rest, hlines⟩ := hpre
      rw [List.append_assoc] at hlines
      have hfirst := h.first before line rest status s hlines.symm hnone haccept
      rw [← hlines, h.noTrace before ([line] ++ rest) ⟨_, hlines⟩ hnone, List.singleton_append,
        andCombinator_accept haccept] at hfirst
      rintro rfl
      cases (Prod.mk.inj (Except.ok.inj hfirst)).1
  · intro h
    have hnoTrace : ∀ before others, before <+: lines → (∀ line ∈ before, cs.acceptLine rows line = none) →
        cs.andCombinator (before ++ others) rows = cs.andCombinator others rows := by
      intro before
      induction before using List.reverseRecOn with
      | nil => exact fun others _ _ => rfl
      | append_singleton before line ih =>
        intro others hpre hnone
        have hbefore := fun l hl => hnone l (List.mem_append_left _ hl)
        rw [List.append_assoc, ih _ ((List.prefix_append ..).trans hpre) hbefore]
        exact andCombinator_givesUp (h.before before line hpre hnone) others
    refine ⟨fun before line rest status s hlines hnone haccept => ?_, fun hnone => ?_, hnoTrace⟩
    · rw [hlines, hnoTrace before (line :: rest) ⟨_, hlines.symm⟩ hnone, andCombinator_accept haccept,
        if_neg (h.reported before line status s ⟨rest, by rw [hlines, List.append_assoc]; rfl⟩ hnone haccept)]
    · have hrun := hnoTrace lines [] (List.prefix_refl _) hnone
      rw [List.append_nil] at hrun
      exact ⟨_, hrun⟩

/-- Bridges with few hops, then one with enough. -/
def maxHopsLines : List (List Char) := ["max hops 3\n".toList, "max hops 20\n".toList]

/-- The word behind the name, at least six. -/
def maxHopsCalls : Callbacks :=
  ([⟨some .findAndGetNextWord, "max hops".toList⟩, ⟨some .arrayValidateIntervalLowerBound, "6".toList⟩] :
    List ParserSpec).map (·.call shortShape)

/-- The first line is taken although the validator has failed on it. -/
theorem not_andOk : ¬ AndOk maxHopsCalls (zeros shortShape) maxHopsLines ∧
    andCombinator maxHopsCalls maxHopsLines (zeros shortShape) =
      .ok (BASE_PARSING_SUCCEEDED ||| (BASE_VALIDATION_SUCCEEDED ||| BASE_VALIDATION_FAILED),
        ⟨["max hops 20\n".toList], ["3".toList, []]⟩) := by
  have hrun : andCombinator maxHopsCalls maxHopsLines (zeros shortShape) =
      .ok (BASE_PARSING_SUCCEEDED ||| (BASE_VALIDATION_SUCCEEDED ||| BASE_VALIDATION_FAILED),
        ⟨["max hops 20\n".toList], ["3".toList, []]⟩) := by decide
  refine ⟨fun h => ?_, hrun⟩
  have hsecond : maxHopsCalls.acceptLine (zeros shortShape) "max hops 20\n".toList =
      some (BASE_PARSING_SUCCEEDED ||| BASE_VALIDATION_SUCCEEDED,
        ⟨"max hops 20".toList, ["20".toList, []]⟩) := by decide
  have hfirst := h.first ["max hops 3\n".toList] _ [] _ _ rfl (by decide) hsecond
  rw [hrun] at hfirst
  exact absurd hfirst (by decide)

end And

end Callbacks

end TsnSwitch.Tools
