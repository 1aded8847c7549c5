/-
The objects whose value is validated, and what their validation achieves.

The interval validators set the bit of a failure beside the bit of a success,
and `get_object` takes the two together for a success. So no value of
`MSTP_CIST_MAX_HOPS` is turned down (`not_checked_max_hops`). Of the other
objects, one of whose alternatives has to match, only the listed values come
out. `checked_iff` is the exact condition: the words of the output fit the
array, and each is within the bounds of the object if it has any.
-/
import TsnSwitch.Tools.Parsing

namespace TsnSwitch.Tools

open Lib
open Base (MAX_STR_LEN EXIT_SUCCESS EXIT_FAILURE)

/-! ## The descriptors -/

/-- One validator for each text the value may be. -/
def alternatives (allowed : List String) : SysCallSpec :=
  allowed.map fun text => (some .noCombinator, single .validateStringContent text)

def oneOf (parser : List ParserSpec) (allowed : List String) : SysCallSpec :=
  (some .repeatUntilNullWithCheck, parser) :: alternatives allowed

/-- The objects with an interval or a string validator. -/
inductive ValidatedObject where
  | mstpCistTopChange
  | mstpCistMaxHops
  | mstpCistPortTopChangeAck
  | mstpCistPortOperEdgePort
  | mstpCistPortDisputed
  | mstpCistPortAdminEdgePort
  | mstpCistPortMacEnabled
  | mstpCistPortRestrRole
  | mstpCistPortRestrTcn
  | mstpPortRole
  | mstpPortDisputed
  | mstpPortAdminP2p
  | ifEnabled
  | ethIfEnable
  | ethLinkDetected
  deriving DecidableEq

def mstpCistMaxHopsSpec : SysCallSpec :=
  [(some .repeatUntilNullWithCheck, single .findAndGetNextWord "max hops"),
    (some .noCombinator, single .arrayValidateIntervalLowerBound "10"),
    (some .noCombinator, single .arrayValidateIntervalUpperBound "255")]

def ifEnabledLine : List ParserSpec :=
  single .findOnLineAndFillResultArray "LOWER_UP" ++ single .findOnLineAndFillResultArray "NO-CARRIER"

def ifEnabledSpec : SysCallSpec :=
  (some .orCombinator, ifEnabledLine) :: alternatives ["LOWER_UP", "NO-CARRIER", ""]

def ValidatedObject.spec : ValidatedObject → SysCallSpec
  | .mstpCistTopChange => oneOf (single .getFirstWord "") ["yes", "no"]
  | .mstpCistMaxHops => mstpCistMaxHopsSpec
  | .mstpCistPortTopChangeAck => oneOf (single .getFirstWord "") ["yes", "no"]
  | .mstpCistPortOperEdgePort => oneOf (single .getFirstWord "") ["yes", "no"]
  | .mstpCistPortDisputed => oneOf (single .getFirstWord "") ["yes", "no"]
  | .mstpCistPortAdminEdgePort => oneOf (single .getFirstWord "") ["yes", "no"]
  | .mstpCistPortMacEnabled => oneOf (single .getFirstWord "") ["yes", "no"]
  | .mstpCistPortRestrRole => oneOf (single .getFirstWord "") ["yes", "no"]
  | .mstpCistPortRestrTcn => oneOf (single .getFirstWord "") ["yes", "no"]
  | .mstpPortRole =>
    oneOf (single .findAndGetNextWord "role") ["Root", "Alternate", "Designated", "Backup", "Disabled"]
  | .mstpPortDisputed => oneOf (single .findAndGetNextWord "disputed") ["yes", "no"]
  | .mstpPortAdminP2p => oneOf (single .getFirstWord "") ["yes", "no", "auto"]
  | .ifEnabled => ifEnabledSpec
  | .ethIfEnable => oneOf (single .findAndGetNextWord "Auto-negotiation:") ["on", "off"]
  | .ethLinkDetected => oneOf (single .findAndGetNextWord "Link detected:") ["yes", "no"]

/-! ## What a caller expects -/

/-- The match cases of all callbacks of a kind. -/
def matchCases (cb : Callback) (spec : SysCallSpec) : List (List Char) :=
  ((spec.flatMap (·.2)).filter (·.callback = some cb)).map (·.matchCase)

def Numeric (row : List Char) : Prop := row ≠ [] ∧ ∀ c ∈ row, c.isDigit = true

instance (row : List Char) : Decidable (Numeric row) :=
  @instDecidableAnd _ _ inferInstance (List.decidableBAll (fun c => c.isDigit = true) row)

def valueOf (row : List Char) : Int := Nat.ofDigitChars 10 row 0

/-- A text is a number between all bounds of an object. -/
def InBounds (spec : SysCallSpec) (row : List Char) : Prop :=
  (∀ b ∈ matchCases .arrayValidateIntervalLowerBound spec, Numeric row ∧ boundOf b ≤ valueOf row) ∧
    ∀ b ∈ matchCases .arrayValidateIntervalUpperBound spec, Numeric row ∧ valueOf row ≤ boundOf b

instance (spec : SysCallSpec) (row : List Char) : Decidable (InBounds spec row) :=
  inferInstanceAs (Decidable (_ ∧ _))

/-- All validated rows are what the validators of an object are for: every
text is within the bounds, and the first one is one of the alternatives. -/
def Accepts (spec : SysCallSpec) (rows : Matrix) : Prop :=
  (∀ row ∈ rows.takeWhile (· ≠ []), InBounds spec row) ∧
    (matchCases .validateStringContent spec ≠ [] → rows.headD [] ∈ matchCases .validateStringContent spec)

instance (spec : SysCallSpec) (rows : Matrix) : Decidable (Accepts spec rows) :=
  inferInstanceAs (Decidable (_ ∧ _))

/-- What the chain has done before the first validator. -/
def parse (spec : SysCallSpec) (sh : Shape) (output : Option (List Char)) : Except Overrun (Status × Matrix) :=
  getStrSysCall (spec.take 1) sh output (zeros sh)

/-- A check of the chain fails: the parsing, a bound, or all alternatives. -/
inductive CheckFails (spec : SysCallSpec) (sh : Shape) (status : Status) (rows : Matrix) : Prop where
  | parser (h : status.failed = true ∨ status.parsingFailed = true ∧ status.parsingSucceeded = false)
  | lower {b : List Char} {st : Status} (hb : b ∈ matchCases .arrayValidateIntervalLowerBound spec)
      (hrun : arrayValidateIntervalHelper true (boundOf b) sh rows = .ok st) (h : st.validationFailed = true)
  | upper {b : List Char} {st : Status} (hb : b ∈ matchCases .arrayValidateIntervalUpperBound spec)
      (hrun : arrayValidateIntervalHelper false (boundOf b) sh rows = .ok st) (h : st.validationFailed = true)
  | content (hne : matchCases .validateStringContent spec ≠ [])
      (h : ∀ t ∈ matchCases .validateStringContent spec, (validateStringContent t sh rows).validationFailed = true)

/-- `get_object` is successful only with a valid value, and gives nothing on
an invalid one or when a check fails. -/
def Checked (spec : SysCallSpec) (sh : Shape) (output : Option (List Char)) : Prop :=
  ∃ status rows ret result, parse spec sh output = .ok (status, rows) ∧
    getObject spec sh output = .ok (ret, result) ∧
    (ret = EXIT_SUCCESS → Accepts spec result) ∧
    (¬ Accepts spec rows → ret = EXIT_FAILURE ∧ result = zeros sh) ∧
    (CheckFails spec sh status rows → ret = EXIT_FAILURE ∧ result = zeros sh)

/-- The words the parser of an object takes from the lines of the output. -/
def words (spec : SysCallSpec) (output : Option (List Char)) : List (List Char) :=
  match spec, output with
  | (some .repeatUntilNullWithCheck, [p]) :: _, some text => captures [] p (piecesOf text)
  | _, _ => []

/-- There are rows for all words, and all words are within the bounds. -/
def Clean (spec : SysCallSpec) (sh : Shape) (output : Option (List Char)) : Prop :=
  (words spec output).length ≤ sh.rowNum ∧ ∀ w ∈ words spec output, InBounds spec w

/-! ## The chain behind the parser -/

/-- The bits of all alternatives. -/
def alternativesStatus (sh : Shape) (rows : Matrix) : List String → Status
  | [] => BASE_SUCCEEDED
  | text :: allowed => validateStringContent text.toList sh rows ||| alternativesStatus sh rows allowed

theorem validateStringContent_bits (matchCase : List Char) (sh : Shape) (rows : Matrix) :
    let st := validateStringContent matchCase sh rows
    st.failed = false ∧ st.parsingFailed = false ∧ st.parsingSucceeded = false ∧
      st.validationSucceeded = !st.validationFailed ∧
      (st.validationFailed = true ↔ matchCase.take sh.colNum ≠ rows.headD []) := by
  simp only [validateStringContent]
  split
  · rename_i h; exact ⟨rfl, rfl, rfl, rfl, iff_of_true rfl h⟩
  · rename_i h; exact ⟨rfl, rfl, rfl, rfl, iff_of_false (by decide) h⟩

theorem combinatorComb_alternatives (sh : Shape) (allowed : List String) {status : Status} (hst : status.failed = false)
    (s : Stream) :
    combinatorComb sh (alternatives allowed) status s = .ok (status ||| alternativesStatus sh s.rows allowed, s) := by
  induction allowed generalizing status with
  | nil => rw [alternativesStatus, or_succeeded]; rfl
  | cons text allowed ih =>
    have hbits := validateStringContent_bits text.toList sh s.rows
    have hst' : (status ||| validateStringContent text.toList sh s.rows).failed = false := by
      rw [or_failed, hst, hbits.1]; rfl
    rw [alternatives, List.map_cons, combinatorComb_single]
    simp only [Callback.run, Except.bind, hst', Bool.false_eq_true, if_false]
    refine (ih hst').trans ?_
    rw [alternativesStatus, or_assoc]

theorem alternativesStatus_bits (sh : Shape) (rows : Matrix) (allowed : List String) :
    let st := alternativesStatus sh rows allowed
    st.failed = false ∧ st.parsingFailed = false ∧ st.parsingSucceeded = false ∧
      (st.validationSucceeded = true ↔ ∃ text ∈ allowed, text.toList.take sh.colNum = rows.headD []) ∧
      (allowed ≠ [] → st.validationSucceeded = false → st.validationFailed = true) := by
  induction allowed with
  | nil => simp [alternativesStatus, BASE_SUCCEEDED]
  | cons text allowed ih =>
    obtain ⟨h1, h2, h3, h4, h5⟩ := validateStringContent_bits text.toList sh rows
    obtain ⟨i1, i2, i3, i4, -⟩ := ih
    refine ⟨?_, ?_, ?_, ?_, fun _ h => ?_⟩
    · simp [alternativesStatus, h1, i1]
    · simp [alternativesStatus, h2, i2]
    · simp [alternativesStatus, h3, i3]
    · rw [alternativesStatus, or_validationSucceeded, Bool.or_eq_true, i4, List.exists_mem_cons_iff, h4,
        Bool.not_eq_true', ← Bool.not_eq_true, h5, not_not]
    · rw [alternativesStatus, or_validationSucceeded, Bool.or_eq_false_iff, h4, Bool.not_eq_false'] at h
      rw [alternativesStatus, or_validationFailed, h.1, Bool.true_or]

section Head

variable {c : Combinator} {ps : List ParserSpec} {spec : SysCallSpec} {sh : Shape} {text : List Char}

theorem parse_cons : parse ((some c, ps) :: spec) sh (some text) =
    (c.run sh ps ⟨piecesOf text, zeros sh⟩).map fun r => (r.1, r.2.rows) := by
  rw [parse, List.take_succ_cons, List.take_zero, getStrSysCall]
  simp only [combinatorComb]
  cases c.run sh ps ⟨piecesOf text, zeros sh⟩ with
  | error e => rfl
  | ok r =>
    simp only [bind, Except.bind, succeeded_or]
    split <;> rfl

end Head

/-- The verdict on the rows the parser leaves decides. -/
theorem checked_iff_of_verdict {spec : SysCallSpec} {sh : Shape} {output : Option (List Char)} {status : Status}
    {rows : Matrix} {rejected : Bool} (hparse : parse spec sh output = .ok (status, rows))
    (hget : getObject spec sh output =
      .ok (if rejected then (EXIT_FAILURE, zeros sh) else (EXIT_SUCCESS, rows))) :
    Checked spec sh output ↔
      (rejected = false → Accepts spec rows) ∧ (CheckFails spec sh status rows → rejected = true) := by
  have hne : EXIT_SUCCESS ≠ EXIT_FAILURE := by decide
  constructor
  · rintro ⟨status', rows', ret, result, hp, hg, hok, -, hfail⟩
    obtain ⟨rfl, rfl⟩ : status = status' ∧ rows = rows' := by simpa [hparse] using hp
    rw [hget, Except.ok.injEq] at hg
    cases rejected with
    | false =>
      obtain ⟨rfl, rfl⟩ : EXIT_SUCCESS = ret ∧ rows = result := by simpa using hg
      exact ⟨fun _ => hok rfl, fun h => absurd (hfail h).1 hne⟩
    | true => exact ⟨fun h => absurd h (by decide), fun _ => rfl⟩
  · rintro ⟨hok, hfail⟩
    cases rejected with
    | false =>
      exact ⟨status, rows, _, _, hparse, hget, fun _ => hok rfl, fun h => absurd (hok rfl) h,
        fun h => absurd (hfail h) (by decide)⟩
    | true =>
      exact ⟨status, rows, _, _, hparse, hget, fun h => absurd h hne.symm, fun _ => ⟨rfl, rfl⟩, fun _ => ⟨rfl, rfl⟩⟩

/-- Without a pipe there is no value. -/
theorem checked_none (spec : SysCallSpec) (sh : Shape) : Checked spec sh none :=
  ⟨BASE_FAILED, zeros sh, EXIT_FAILURE, zeros sh, rfl, rfl, fun h => absurd h (by decide), fun _ => ⟨rfl, rfl⟩,
    fun _ => ⟨rfl, rfl⟩⟩

section Parser

variable {p : ParserSpec} {spec : SysCallSpec} {sh : Shape} {text : List Char}

/-- With a row for each word, the array holds the words. -/
theorem run_words (hp : p.TakesWord) (hw : MAX_STR_LEN ≤ sh.colNum)
    (hfit : (captures [] p (piecesOf text)).length ≤ sh.rowNum) :
    ∃ status, Combinator.repeatUntilNullWithCheck.run sh [p] ⟨piecesOf text, zeros sh⟩ =
        .ok (status, ⟨[], filled sh.rowNum (captures [] p (piecesOf text))⟩) ∧
      status.OnlyParsing ∧ (captures [] p (piecesOf text) ≠ [] → status.parsingSucceeded = true) := by
  have hrun := repeatUntilNullWithCheck_eq (fun _ h => absurd h List.not_mem_nil) hp sh (piecesOf text)
  rw [if_pos hfit, captures_take hw] at hrun
  refine ⟨_, hrun, ?_, fun hne => ?_⟩
  · have hbits := linesStatus_onlyParsing [] p (piecesOf text)
    split <;> exact hbits
  · have hsucc := linesStatus_of_captures hne
    rw [if_pos hsucc]
    exact hsucc

/-- Without one the array is left. -/
theorem not_checked_of_overrun (hp : p.TakesWord)
    (hfit : ¬ (captures [] p (piecesOf text)).length ≤ sh.rowNum) :
    ¬ Checked ((some .repeatUntilNullWithCheck, [p]) :: spec) sh (some text) := by
  have hrun := repeatUntilNullWithCheck_eq (fun _ h => absurd h List.not_mem_nil) hp sh (piecesOf text)
  rw [if_neg hfit] at hrun
  rintro ⟨status, rows, -, -, hparse, -⟩
  rw [parse_cons, Combinator.run, show [p] = [] ++ [p] from rfl, hrun] at hparse
  cases hparse

end Parser

/-! ## Alternatives -/

section Alternatives

variable {c : Combinator} {ps : List ParserSpec} {allowed : List String} {sh : Shape} {text : List Char}

/-- What holds of an object whose validators are alternatives. -/
structure HasAlternatives (spec : SysCallSpec) (allowed : List String) : Prop where
  lower : matchCases .arrayValidateIntervalLowerBound spec = []
  upper : matchCases .arrayValidateIntervalUpperBound spec = []
  content : matchCases .validateStringContent spec = allowed.map String.toList
  ne_nil : allowed ≠ []
  length_le : ∀ a ∈ allowed, a.toList.length ≤ MAX_STR_LEN

theorem HasAlternatives.accepts_iff {spec : SysCallSpec} (h : HasAlternatives spec allowed) (rows : Matrix) :
    Accepts spec rows ↔ rows.headD [] ∈ allowed.map String.toList := by
  simp only [Accepts, InBounds, h.lower, h.upper, h.content, List.not_mem_nil, false_imp_iff, implies_true, true_and,
    ne_eq, List.map_eq_nil_iff, h.ne_nil, not_false_eq_true, forall_const, and_self]

/-- **Alternatives let only their own texts through.** -/
theorem checked_of_alternatives (h : HasAlternatives ((some c, ps) :: alternatives allowed) allowed)
    (hw : MAX_STR_LEN ≤ sh.colNum) {status : Status} {s : Stream}
    (hrun : c.run sh ps ⟨piecesOf text, zeros sh⟩ = .ok (status, s)) (hbits : status.OnlyParsing) :
    Checked ((some c, ps) :: alternatives allowed) sh (some text) := by
  obtain ⟨hst, hvf, hvs⟩ := hbits
  obtain ⟨a1, a2, a3, a4, a5⟩ := alternativesStatus_bits sh s.rows allowed
  have hmatch : (alternativesStatus sh s.rows allowed).validationSucceeded = true ↔
      s.rows.headD [] ∈ allowed.map String.toList := by
    rw [a4, List.mem_map]
    refine exists_congr fun a => and_congr_right fun ha => ?_
    rw [List.take_of_length_le ((h.length_le a ha).trans hw)]
  have hrej : (status ||| alternativesStatus sh s.rows allowed).rejected = true ↔
      s.rows.headD [] ∉ allowed.map String.toList ∨
        status.parsingFailed = true ∧ status.parsingSucceeded = false := by
    rw [rejected_eq (by rw [or_failed, hst, a1]; rfl), ← hmatch]
    have h5 := a5 h.ne_nil
    simp only [or_validationFailed, or_validationSucceeded, or_parsingFailed, or_parsingSucceeded, hvf, hvs, a2, a3,
      Bool.false_or, Bool.or_false, Bool.or_eq_true, Bool.and_eq_true, Bool.not_eq_true']
    refine or_congr_left ⟨fun hv => by rw [hv.2]; decide, fun hv => ?_⟩
    rw [Bool.not_eq_true] at hv
    exact ⟨h5 hv, hv⟩
  have hget := getObject_cons (alternatives allowed) hrun hst
  rw [combinatorComb_alternatives sh allowed hst] at hget
  refine (checked_iff_of_verdict (by rw [parse_cons, hrun]; rfl) hget).2 ⟨fun hno => ?_, fun hfail => ?_⟩
  · rw [h.accepts_iff]
    by_contra hmem
    rw [hrej.2 (.inl hmem)] at hno
    cases hno
  · cases hfail with
    | parser hp => exact hrej.2 (.inr (hp.resolve_left (by rw [hst]; decide)))
    | lower hb => rw [h.lower] at hb; cases hb
    | upper hb => rw [h.upper] at hb; cases hb
    | content _ hall =>
      refine hrej.2 (.inl fun hmem => ?_)
      obtain ⟨a, ha, hrow⟩ := List.mem_map.1 hmem
      have hv := hall a.toList (by rw [h.content]; exact List.mem_map_of_mem ha)
      have hne := (validateStringContent_bits a.toList sh s.rows).2.2.2.2.1 hv
      exact hne (by rw [List.take_of_length_le ((h.length_le a ha).trans hw), hrow])

theorem HasAlternatives.clean_iff {spec : SysCallSpec} (h : HasAlternatives spec allowed)
    (output : Option (List Char)) : Clean spec sh output ↔ (words spec output).length ≤ sh.rowNum := by
  simp only [Clean, InBounds, h.lower, h.upper, List.not_mem_nil, false_imp_iff, implies_true, and_self, and_true]

theorem checked_oneOf_iff {p : ParserSpec} (hp : p.TakesWord) (h : HasAlternatives (oneOf [p] allowed) allowed)
    (hw : MAX_STR_LEN ≤ sh.colNum) (output : Option (List Char)) :
    Checked (oneOf [p] allowed) sh output ↔ Clean (oneOf [p] allowed) sh output := by
  rw [h.clean_iff]
  cases output with
  | none => exact iff_of_true (checked_none _ sh) (Nat.zero_le _)
  | some text =>
    by_cases hfit : (captures [] p (piecesOf text)).length ≤ sh.rowNum
    · obtain ⟨status, hrun, hbits, -⟩ := run_words hp hw hfit
      exact iff_of_true (checked_of_alternatives h hw hrun hbits) hfit
    · exact iff_of_false (not_checked_of_overrun hp hfit) hfit

end Alternatives

theorem findOnLineHelper_onlyParsing (matchCase line : List Char) : (findOnLineHelper matchCase line).OnlyParsing := by
  rw [findOnLineHelper]
  split
  · exact ⟨rfl, rfl, rfl⟩
  · split <;> exact ⟨rfl, rfl, rfl⟩

/-- Looking for alternatives on the one line that is read never leaves the
array. -/
theorem orLoop_fill (sh : Shape) {ps : List ParserSpec}
    (hps : ∀ p ∈ ps, p.callback = some .findOnLineAndFillResultArray) {status : Status} (hst : status.OnlyParsing)
    (s : Scan) : ∃ status' s', orLoop sh ps status s = .ok (status', s') ∧ status'.OnlyParsing := by
  induction ps generalizing status s with
  | nil => exact ⟨status, s, rfl, hst⟩
  | cons p ps ih =>
    rw [List.forall_mem_cons] at hps
    have hst' := hst.or (findOnLineHelper_onlyParsing p.matchCase s.line)
    simp only [orLoop, hst.1, hps.1, Callback.run, bind, Except.bind, Bool.false_eq_true, if_false]
    split
    · exact ⟨_, _, rfl, hst'⟩
    · exact ih hps.2 hst' _

theorem checked_ifEnabled {sh : Shape} (hw : MAX_STR_LEN ≤ sh.colNum) (output : Option (List Char)) :
    Checked ifEnabledSpec sh output := by
  cases output with
  | none => exact checked_none _ sh
  | some text =>
    have halt : HasAlternatives ifEnabledSpec ["LOWER_UP", "NO-CARRIER", ""] :=
      ⟨by decide, by decide, by decide, by decide, by decide⟩
    have hps : ∀ p ∈ ifEnabledLine, p.callback = some .findOnLineAndFillResultArray := by decide
    obtain ⟨status, s, hloop, hbits⟩ := orLoop_fill sh hps (show BASE_SUCCEEDED.OnlyParsing from ⟨rfl, rfl, rfl⟩)
      ⟨cString ((piecesOf text).headD []), zeros sh⟩
    have hrun : Combinator.orCombinator.run sh ifEnabledLine ⟨piecesOf text, zeros sh⟩ =
        .ok (status, ⟨(piecesOf text).tail, s.rows⟩) := by
      rw [Combinator.run, orCombinator, hloop]
      rfl
    exact checked_of_alternatives halt hw hrun hbits

/-! ## Bounds -/

/-- A bound is a success whatever it finds. -/
theorem arrayValidateIntervalHelper_bits (lower : Bool) (bound : Int) {sh : Shape} {rows : Matrix}
    (hlen : ∀ row ∈ rows, row.length < sh.colNum) :
    ∃ vf, arrayValidateIntervalHelper lower bound sh rows = .ok ⟨false, vf, true, false, false⟩ ∧
      ((∀ row ∈ rows.takeWhile (· ≠ []), Numeric row ∧ if lower then bound ≤ valueOf row else valueOf row ≤ bound) →
        vf = false) := by
  induction rows with
  | nil => exact ⟨false, rfl, fun _ => rfl⟩
  | cons row rows ih =>
    rw [List.forall_mem_cons] at hlen
    rw [arrayValidateIntervalHelper]
    by_cases hrow : row = []
    · exact ⟨false, by rw [if_pos hrow]; rfl, fun _ => rfl⟩
    · have hchars : chars sh (row :: rows) =
          row ++ NUL :: (List.replicate (sh.colNum - row.length - 1) NUL ++ chars sh rows) := by
        rw [chars, List.flatMap_cons, pad_eq hlen.1, List.append_assoc, List.cons_append]
        rfl
      obtain ⟨n, hn⟩ := strtol_isSome row (List.replicate (sh.colNum - row.length - 1) NUL ++ chars sh rows)
      rw [if_neg hrow, hchars, hn, List.takeWhile_cons_of_pos (by simpa using hrow)]
      simp only [List.forall_mem_cons]
      by_cases hbad : if lower then n < bound else bound < n
      · refine ⟨true, by rw [if_pos hbad]; rfl, fun hall => ?_⟩
        have hval := strtol_digits hall.1.1.2 (List.replicate (sh.colNum - row.length - 1) NUL ++ chars sh rows)
        rw [hn, Option.some.injEq] at hval
        have hin := hall.1.2
        rw [valueOf, ← hval] at hin
        cases lower <;> simp only [if_true, Bool.false_eq_true, if_false] at hbad hin <;> omega
      · obtain ⟨vf, hvf, hall⟩ := ih hlen.2
        exact ⟨vf, by rw [if_neg hbad]; exact hvf, fun h => hall h.2⟩

theorem bound_passes {lower : Bool} {bound : Int} {sh : Shape} {rows : Matrix} {st : Status}
    (hlen : ∀ row ∈ rows, row.length < sh.colNum) (hrun : arrayValidateIntervalHelper lower bound sh rows = .ok st)
    (hin : ∀ row ∈ rows.takeWhile (· ≠ []),
      Numeric row ∧ if lower then bound ≤ valueOf row else valueOf row ≤ bound) : st.validationFailed = false := by
  obtain ⟨vf, hvf, hall⟩ := arrayValidateIntervalHelper_bits lower bound hlen
  rw [hrun, Except.ok.injEq] at hvf
  rw [hvf]
  exact hall hin

theorem mem_filled_length {n m : Nat} (hm : 0 < m) {texts : List (List Char)} (h : ∀ t ∈ texts, t.length < m) :
    ∀ row ∈ filled n texts, row.length < m := by
  intro row hrow
  rcases List.mem_append.1 hrow with hrow | hrow
  · exact h row hrow
  · rw [List.eq_of_mem_replicate hrow]; exact hm

section MaxHops

def maxHopsParser : ParserSpec := ⟨some .findAndGetNextWord, "max hops".toList⟩

theorem matchCases_maxHops :
    matchCases .arrayValidateIntervalLowerBound mstpCistMaxHopsSpec = ["10".toList] ∧
      matchCases .arrayValidateIntervalUpperBound mstpCistMaxHopsSpec = ["255".toList] ∧
      matchCases .validateStringContent mstpCistMaxHopsSpec = [] := by
  decide

theorem accepts_maxHops (rows : Matrix) :
    Accepts mstpCistMaxHopsSpec rows ↔ ∀ row ∈ rows.takeWhile (· ≠ []), InBounds mstpCistMaxHopsSpec row := by
  rw [Accepts, matchCases_maxHops.2.2]
  exact and_iff_left fun h => absurd rfl h

/-- The bits of the two bounds. They add no failure of the parser. -/
theorem combinatorComb_bounds {sh : Shape} {status : Status} (hst : status.failed = false) {s : Stream}
    (hlen : ∀ row ∈ s.rows, row.length < sh.colNum) :
    ∃ st, combinatorComb sh (mstpCistMaxHopsSpec.drop 1) status s = .ok (st, s) ∧
      st.rejected = (status.parsingFailed && !status.parsingSucceeded) := by
  obtain ⟨vf, hlow, -⟩ := arrayValidateIntervalHelper_bits true (boundOf "10".toList) hlen
  obtain ⟨vf', hup, -⟩ := arrayValidateIntervalHelper_bits false (boundOf "255".toList) hlen
  refine ⟨status ||| ⟨false, vf, true, false, false⟩ ||| ⟨false, vf', true, false, false⟩, ?_, ?_⟩
  · rw [mstpCistMaxHopsSpec, List.drop_one, List.tail_cons, combinatorComb_single]
    simp only [Callback.run, hlow, Except.map, Except.bind, or_failed, hst, Bool.or_false, Bool.false_eq_true, if_false]
    rw [combinatorComb_single]
    simp only [Callback.run, hup, Except.map, Except.bind, or_failed, hst, Bool.or_false, Bool.false_eq_true, if_false]
    rfl
  · rw [rejected_eq (by simp [hst])]
    simp

/-- **No value is turned down, so the values of the output decide.** -/
theorem checked_maxHops_iff {sh : Shape} (hw : MAX_STR_LEN ≤ sh.colNum) (output : Option (List Char)) :
    Checked mstpCistMaxHopsSpec sh output ↔ Clean mstpCistMaxHopsSpec sh output := by
  cases output with
  | none => exact iff_of_true (checked_none _ sh) ⟨Nat.zero_le _, fun _ h => absurd h List.not_mem_nil⟩
  | some text =>
    have hp : maxHopsParser.TakesWord := .inr rfl
    rw [Clean, show words mstpCistMaxHopsSpec (some text) = captures [] maxHopsParser (piecesOf text) from rfl]
    by_cases hfit : (captures [] maxHopsParser (piecesOf text)).length ≤ sh.rowNum
    · obtain ⟨status, hrun, hbits, hsucc⟩ := run_words hp hw hfit
      have hne : ∀ w ∈ captures [] maxHopsParser (piecesOf text), w ≠ [] := captures_ne_nil
      have hshort : ∀ w ∈ captures [] maxHopsParser (piecesOf text), w.length < MAX_STR_LEN := captures_length
      have hlen := mem_filled_length (n := sh.rowNum) sh.colNum_pos fun w hmem => (hshort w hmem).trans_le hw
      obtain ⟨st, hcomb, hrej⟩ := combinatorComb_bounds hbits.1
        (s := ⟨[], filled sh.rowNum (captures [] maxHopsParser (piecesOf text))⟩) hlen
      have hget := getObject_cons (mstpCistMaxHopsSpec.drop 1) hrun hbits.1
      rw [hcomb] at hget
      have hparse : parse mstpCistMaxHopsSpec sh (some text) = .ok (status, _) :=
        parse_cons.trans (congrArg (Except.map _) hrun)
      rw [checked_iff_of_verdict hparse hget, hrej, accepts_maxHops, takeWhile_filled hne]
      refine ⟨fun h => ⟨hfit, fun w hmem => h.1 ?_ w hmem⟩, fun h => ⟨fun _ => h.2, fun hfail => ?_⟩⟩
      · rw [hsucc (List.ne_nil_of_mem hmem), Bool.not_true, Bool.and_false]
      · have hin : ∀ row ∈ (filled sh.rowNum (captures [] maxHopsParser (piecesOf text))).takeWhile (· ≠ []),
            InBounds mstpCistMaxHopsSpec row := by
          rw [takeWhile_filled hne]
          exact h.2
        cases hfail with
        | parser hp =>
          have hpars := hp.resolve_left (by rw [hbits.1]; decide)
          rw [hpars.1, hpars.2]
          rfl
        | lower hb hlow hvf =>
          rw [bound_passes hlen hlow fun row hrow => (hin row hrow).1 _ hb] at hvf
          cases hvf
        | upper hb hup hvf =>
          rw [bound_passes hlen hup fun row hrow => (hin row hrow).2 _ hb] at hvf
          cases hvf
        | content hcon => exact absurd matchCases_maxHops.2.2 hcon
    · exact iff_of_false (not_checked_of_overrun hp hfit) fun h => hfit h.1

end MaxHops

/-! ## All objects -/

def checkedShape : Shape := ⟨30, 255, by decide, by decide⟩

/-- The value 5 is below all bounds and comes out. -/
theorem not_checked_max_hops :
    ¬ Checked ValidatedObject.mstpCistMaxHops.spec checkedShape (some "br0 CIST info\n  max hops 5\n".toList) := by
  rintro ⟨-, -, ret, result, -, hget, hok, -⟩
  have hval : getObject ValidatedObject.mstpCistMaxHops.spec checkedShape
      (some "br0 CIST info\n  max hops 5\n".toList) = .ok (EXIT_SUCCESS, filled 30 [['5']]) := by decide +kernel
  rw [hval, Except.ok.injEq, Prod.mk.injEq] at hget
  obtain ⟨rfl, rfl⟩ := hget
  exact absurd (hok rfl) (by decide)

/-- **Validation does what it is for exactly where every word of the output
has a row and is within the bounds of the object.** -/
theorem checked_iff (o : ValidatedObject) {sh : Shape} (hw : MAX_STR_LEN ≤ sh.colNum) (output : Option (List Char)) :
    Checked o.spec sh output ↔ Clean o.spec sh output := by
  cases o
  case mstpCistMaxHops => exact checked_maxHops_iff hw output
  case ifEnabled =>
    exact iff_of_true (checked_ifEnabled hw output) ⟨Nat.zero_le _, fun _ h => absurd h List.not_mem_nil⟩
  all_goals
    refine checked_oneOf_iff (by first | exact .inl rfl | exact .inr rfl) ?_ hw output
    exact ⟨by decide, by decide, by decide, by decide, by decide⟩

theorem checked_iff_example :
    MAX_STR_LEN ≤ checkedShape.colNum ∧
      (Checked ValidatedObject.mstpCistMaxHops.spec checkedShape (some "  max hops 20\n".toList) ↔
        Clean ValidatedObject.mstpCistMaxHops.spec checkedShape (some "  max hops 20\n".toList)) :=
  ⟨by decide, checked_iff .mstpCistMaxHops (by decide) _⟩

end TsnSwitch.Tools
