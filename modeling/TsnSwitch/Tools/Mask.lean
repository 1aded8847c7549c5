/-
The rows of numbers of an array, each put through an operation with a mask
(`base_check_mask_and_set_result_array`).

A row is refused only where `strtol` gives zero and the row has something else than hexadecimal
digits. The first row that is refused ends the loop, and the status is the one of
the rows before.
-/
import TsnSwitch.Tools.WholeSteps

namespace TsnSwitch.Tools

open Lib

/-! ## What is asked -/

/-- An operation on an array with terminated rows. -/
structure MaskCall where
  sh : Shape
  rows : Matrix
  terminated : ∀ row ∈ rows, row.length < sh.colNum
  matchCase : List Char
  op : ParserOp
  base : Nat

namespace MaskCall

variable (c : MaskCall)

def run : Except Overrun (Status × Matrix) := baseCheckMaskAndSetResultArray c.matchCase c.op c.base c.sh c.rows

/-- The mask, which a conversion does not need, and all rows are numerals to the end. -/
def Numerals : Prop :=
  (c.op ≠ .convertHexToLongInt → (denotes c.base c.matchCase).isSome = true) ∧
    ∀ row ∈ visible c.rows, (denotes c.base row).isSome = true

/-- The text of a row after the operation. -/
def result (row : List Char) : List Char :=
  decimal (c.op.eval ((denotes c.base row).getD 0) ((denotes c.base c.matchCase).getD 0))

end MaskCall

/-- The operation succeeds just for rows that are numerals, and puts the results of all of them
in their place. -/
structure MaskOk (c : MaskCall) : Prop where
  ends : ∃ p, c.run = .ok p
  succeeds : (∃ rows, c.run = .ok (BASE_PARSING_SUCCEEDED, rows)) ↔ visible c.rows ≠ [] ∧ c.Numerals
  rows : visible c.rows ≠ [] ∧ c.Numerals → ∀ rows, c.run = .ok (BASE_PARSING_SUCCEEDED, rows) →
    rows = (visible c.rows).map c.result ++ c.rows.drop (visible c.rows).length

namespace MaskCall

variable (c : MaskCall)

/-- The test of the code: a text that `strtol` reads as zero has only hexadecimal digits. -/
def taken (t : List Char) : Bool := isStringValidHexOrInt (strtolEnd c.base t).1 t

def maskTaken : Bool := c.op = .convertHexToLongInt || (c.matchCase ≠ [] && c.taken c.matchCase)

/-- The result has room. For numbers beyond a `long` the code has the nearest there is. -/
def Fits (row : List Char) : Prop :=
  (decimal (c.op.eval (long ((denotes c.base row).getD 0)) (long ((denotes c.base c.matchCase).getD 0)))).take
    (c.sh.colNum - 1) = c.result row

theorem fits_iff {row : List Char} (hrow : long ((denotes c.base row).getD 0) = (denotes c.base row).getD 0)
    (hmask : long ((denotes c.base c.matchCase).getD 0) = (denotes c.base c.matchCase).getD 0) :
    c.Fits row ↔ (c.result row).length < c.sh.colNum := by
  have hcol := c.sh.colNum_pos
  rw [Fits, hrow, hmask, ← result, List.take_eq_self_iff]
  omega

end MaskCall

/-- There is no row; or mask and rows are numerals, no zero among them is refused, and the
results fit; or one is no numeral, and the code refuses the mask or the first row. -/
def MaskRight (c : MaskCall) : Prop :=
  visible c.rows = [] ∨
    (c.Numerals ∧ c.maskTaken = true ∧ ∀ row ∈ visible c.rows, c.taken row = true ∧ c.Fits row) ∨
    (¬ c.Numerals ∧ (c.maskTaken = false ∨ ∃ row, (visible c.rows).head? = some row ∧ c.taken row = false))

/-! ## The loop -/

section Loop

variable {sh : Shape} {op : ParserOp} {base : Nat} {mask : Int}

/-- The rows before the first that is refused are converted. -/
theorem maskLoop_eq (op : ParserOp) (base : Nat) (mask : Int) {rows : Matrix} (hterm : ∀ row ∈ rows, row.length < sh.colNum) :
    let converted := (visible rows).takeWhile fun row => isStringValidHexOrInt (strtolEnd base row).1 row
    maskLoop op base mask sh rows = .ok (!converted.isEmpty,
      converted.map (fun row => (decimal (op.eval (strtolEnd base row).1 mask)).take (sh.colNum - 1)) ++
        rows.drop converted.length) := by
  induction rows with
  | nil => rfl
  | cons row rows ih =>
    rw [List.forall_mem_cons] at hterm
    have htail := ih hterm.2
    by_cases he : row = []
    · rw [maskLoop, if_pos he, visible, List.takeWhile_cons_of_neg (by simpa using he)]
      rfl
    · have hvis : visible (row :: rows) = row :: visible rows := List.takeWhile_cons_of_pos (by simpa using he)
      rw [maskLoop, if_neg he, if_neg (Nat.not_le.2 hterm.1), hvis]
      simp only at htail ⊢
      cases hvalid : isStringValidHexOrInt (strtolEnd base row).1 row with
      | false => simp [hvalid]
      | true =>
        rw [htail, List.takeWhile_cons_of_pos (p := fun row => isStringValidHexOrInt (strtolEnd base row).1 row) hvalid]
        rfl

end Loop

/-! ## Calls -/

section Calls

variable {c : MaskCall}

/-- The rows the code converts. -/
def MaskCall.converted (c : MaskCall) : Matrix := (visible c.rows).takeWhile c.taken

theorem maskTaken_iff : c.maskTaken = false ↔ c.op ≠ .convertHexToLongInt ∧
    (c.matchCase = [] ∨ (!isStringValidHexOrInt (strtolEnd c.base c.matchCase).1 c.matchCase) = true) := by
  by_cases hm : c.matchCase = [] <;> simp [MaskCall.maskTaken, MaskCall.taken, hm]

theorem run_eq (c : MaskCall) : c.run =
    if c.maskTaken then
      .ok (if c.converted = [] then BASE_PARSING_FAILED else BASE_PARSING_SUCCEEDED,
        c.converted.map (fun row => (decimal (c.op.eval (strtolEnd c.base row).1 (strtolEnd c.base c.matchCase).1)).take
          (c.sh.colNum - 1)) ++ c.rows.drop c.converted.length)
    else .ok (BASE_PARSING_FAILED, c.rows) := by
  have hloop := maskLoop_eq c.op c.base (strtolEnd c.base c.matchCase).1 c.terminated
  rw [MaskCall.run, baseCheckMaskAndSetResultArray]
  simp only at hloop ⊢
  cases htaken : c.maskTaken with
  | false => rw [if_pos (maskTaken_iff.1 htaken), if_neg (by decide)]
  | true =>
    have hnot := mt maskTaken_iff.2 (by rw [htaken]; decide)
    rw [if_neg hnot, if_pos rfl, hloop]
    change _ = Except.ok (if c.converted = [] then _ else _, _)
    unfold MaskCall.converted MaskCall.taken
    generalize (visible c.rows).takeWhile (fun row => isStringValidHexOrInt (strtolEnd c.base row).1 row) = converted
    cases converted <;> rfl

/-- What is read of a numeral. -/
theorem strtolEnd_numeral {base : Nat} {t : List Char} (h : (denotes base t).isSome = true) :
    (strtolEnd base t).1 = long ((denotes base t).getD 0) := by
  unfold denotes at h ⊢
  unfold strtolEnd
  cases hscan : scan base t with
  | none => simp [hscan] at h
  | some n =>
    rw [hscan, Option.bind_some] at h
    by_cases hrest : n.2 = []
    · simp [hrest]
    · simp [hrest] at h

/-- The call succeeds if the mask and the first row are taken. -/
theorem succeeds_iff : (∃ rows, c.run = .ok (BASE_PARSING_SUCCEEDED, rows)) ↔ c.maskTaken = true ∧ c.converted ≠ [] := by
  have hne : BASE_PARSING_FAILED ≠ BASE_PARSING_SUCCEEDED := by decide
  rw [run_eq]
  cases c.maskTaken with
  | false => simp [hne]
  | true =>
    by_cases hconv : c.converted = []
    · simp [hconv, hne]
    · simp [hconv]

theorem converted_ne_nil_iff : c.converted ≠ [] ↔ ∃ row, (visible c.rows).head? = some row ∧ c.taken row = true := by
  unfold MaskCall.converted
  cases visible c.rows with
  | nil => simp
  | cons row rows =>
    cases h : c.taken row <;> simp [h]

theorem converted_eq_visible (hall : ∀ row ∈ visible c.rows, c.taken row = true) : c.converted = visible c.rows :=
  List.takeWhile_eq_self_iff.2 hall

/-- What is left of the mask where the operation does not use it makes no difference. -/
theorem eval_mask (hnum : c.Numerals) (value : Int) :
    c.op.eval value (strtolEnd c.base c.matchCase).1 = c.op.eval value (long ((denotes c.base c.matchCase).getD 0)) := by
  by_cases hop : c.op = .convertHexToLongInt
  · rw [hop]
    rfl
  · rw [strtolEnd_numeral (hnum.1 hop)]

/-- Each row has its result just if that fits. -/
theorem rows_iff (hnum : c.Numerals) :
    (visible c.rows).map (fun row => (decimal (c.op.eval (strtolEnd c.base row).1 (strtolEnd c.base c.matchCase).1)).take
        (c.sh.colNum - 1)) = (visible c.rows).map c.result ↔ ∀ row ∈ visible c.rows, c.Fits row := by
  rw [List.map_inj_left]
  refine forall₂_congr fun row hrow => ?_
  rw [eval_mask hnum, strtolEnd_numeral (hnum.2 row hrow), MaskCall.Fits]

theorem run_rows {rows : Matrix} (h : c.run = .ok (BASE_PARSING_SUCCEEDED, rows)) :
    rows = c.converted.map (fun row => (decimal (c.op.eval (strtolEnd c.base row).1 (strtolEnd c.base c.matchCase).1)).take
      (c.sh.colNum - 1)) ++ c.rows.drop c.converted.length := by
  obtain ⟨htaken, hconv⟩ := succeeds_iff.1 ⟨rows, h⟩
  rw [run_eq, if_pos htaken, if_neg hconv] at h
  exact (Prod.mk.inj (Except.ok.inj h)).2.symm

theorem eval_zero (op : ParserOp) (mask : Int) : op.eval 0 mask = 0 := by
  cases op <;> simp [ParserOp.eval]

/-- A numeral that is refused is zero, and is not written as its result would be. -/
theorem refused_ne_result {row : List Char} (hnum : (denotes c.base row).isSome = true) (hrow : c.taken row = false) :
    row ≠ c.result row := fun heq => by
  have hzero : (strtolEnd c.base row).1 = 0 := by
    simp only [MaskCall.taken, isStringValidHexOrInt, Bool.or_eq_false_iff, decide_eq_false_iff_not, not_not] at hrow
    exact hrow.1
  rw [strtolEnd_numeral hnum] at hzero
  have hvalue : (denotes c.base row).getD 0 = 0 := by
    unfold long at hzero
    omega
  rw [MaskCall.result, hvalue, eval_zero] at heq
  rw [heq] at hrow
  simp [MaskCall.taken, isStringValidHexOrInt, decimal, isHexDigit] at hrow

/-- Rows that all have their results have all been taken. -/
theorem converted_of_rows (hnum : ∀ row ∈ visible c.rows, (denotes c.base row).isSome = true) {f : List Char → List Char}
    (h : c.converted.map f ++ c.rows.drop c.converted.length =
      (visible c.rows).map c.result ++ c.rows.drop (visible c.rows).length) : ∀ row ∈ visible c.rows, c.taken row = true := by
  have hsplit := List.takeWhile_append_dropWhile (p := c.taken) (l := visible c.rows)
  have hrows := List.takeWhile_append_dropWhile (p := (· ≠ [])) (l := c.rows)
  cases hrest : (visible c.rows).dropWhile c.taken with
  | nil => exact List.dropWhile_eq_nil_iff.1 hrest
  | cons row more =>
    have hrefused : c.taken row = false := by
      have hnot := List.head?_dropWhile_not c.taken (visible c.rows)
      rwa [hrest] at hnot
    rw [hrest] at hsplit
    have hall : c.rows = c.converted ++ row :: (more ++ c.rows.dropWhile (· ≠ [])) := by
      conv_lhs => rw [← hrows]
      change visible c.rows ++ _ = _
      conv_lhs => rw [← hsplit]
      simp [MaskCall.converted]
    have hdrop : c.rows.drop c.converted.length = row :: (more ++ c.rows.dropWhile (· ≠ [])) :=
      (congrArg (List.drop c.converted.length) hall).trans List.drop_left
    have hmem : row ∈ visible c.rows := hsplit ▸ List.mem_append_right _ (List.mem_cons_self ..)
    have hmap : (visible c.rows).map c.result = c.converted.map c.result ++ c.result row :: more.map c.result :=
      (congrArg (List.map c.result) hsplit.symm).trans (by simp [MaskCall.converted])
    rw [hdrop, hmap, List.append_assoc] at h
    have htail := (List.append_inj h (by simp)).2
    exact absurd (List.cons.inj htail).1 (refused_ne_result (hnum row hmem) hrefused)

/-- **Every row is converted or none** just when no numeral is refused and nothing else is taken. -/
theorem maskOk_iff : MaskOk c ↔ MaskRight c := by
  have hends : ∃ p, c.run = .ok p := by
    rw [run_eq]
    split <;> exact ⟨_, rfl⟩
  unfold MaskRight
  by_cases hnil : visible c.rows = []
  · have hnone : c.converted = [] := by rw [MaskCall.converted, hnil]; rfl
    refine iff_of_true ⟨hends, ?_, fun h => absurd hnil h.1⟩ (.inl hnil)
    rw [succeeds_iff]
    exact iff_of_false (fun h => h.2 hnone) fun h => h.1 hnil
  rw [or_iff_right hnil]
  by_cases hnum : c.Numerals
  · rw [or_iff_left fun h => h.1 hnum, and_iff_right hnum]
    constructor
    · intro h
      obtain ⟨rows, hrows⟩ := h.succeeds.2 ⟨hnil, hnum⟩
      have heq := h.rows ⟨hnil, hnum⟩ rows hrows
      have hall := converted_of_rows hnum.2 ((run_rows hrows).symm.trans heq)
      rw [run_rows hrows, converted_eq_visible hall] at heq
      have hfits := (rows_iff hnum).1 (List.append_cancel_right heq)
      exact ⟨(succeeds_iff.1 ⟨rows, hrows⟩).1, fun row hrow => ⟨hall row hrow, hfits row hrow⟩⟩
    · intro ⟨htaken, hall⟩
      have hconv := converted_eq_visible fun row hrow => (hall row hrow).1
      refine ⟨hends, ?_, fun _ rows hrows => ?_⟩
      · rw [succeeds_iff, hconv]
        exact iff_of_true ⟨htaken, hnil⟩ ⟨hnil, hnum⟩
      · rw [run_rows hrows, hconv, (rows_iff hnum).2 fun row hrow => (hall row hrow).2]
  · rw [or_iff_right fun h => hnum h.1, and_iff_right hnum]
    have hsucc : (∃ rows, c.run = .ok (BASE_PARSING_SUCCEEDED, rows)) ↔
        ¬ (c.maskTaken = false ∨ ∃ row, (visible c.rows).head? = some row ∧ c.taken row = false) := by
      rw [succeeds_iff, converted_ne_nil_iff]
      obtain ⟨row, rows, hrows⟩ := List.exists_cons_of_ne_nil hnil
      cases c.maskTaken <;> simp [hrows]
    constructor
    · exact fun h => not_not.1 (mt hsucc.2 (mt h.succeeds.1 fun h' => hnum h'.2))
    · intro hrefused
      refine ⟨hends, ?_, fun h => absurd h.2 hnum⟩
      exact iff_of_false (fun h => hsucc.1 h hrefused) fun h => hnum h.2

/-- A good row before a bad one. -/
def mixedCall : MaskCall where
  sh := shortShape
  rows := ["0x1f".toList, "port".toList]
  terminated := by decide
  matchCase := "0x0F".toList
  op := .and
  base := 16

theorem not_maskOk_mixed : ¬ MaskOk mixedCall ∧
    mixedCall.run = .ok (BASE_PARSING_SUCCEEDED, ["15".toList, "port".toList]) := by
  have hrun : mixedCall.run = .ok (BASE_PARSING_SUCCEEDED, ["15".toList, "port".toList]) := by decide
  refine ⟨fun h => ?_, hrun⟩
  have hnum := (h.succeeds.1 ⟨_, hrun⟩).2
  exact absurd (hnum.2 "port".toList (by decide)) (by decide)

end Calls

end TsnSwitch.Tools
