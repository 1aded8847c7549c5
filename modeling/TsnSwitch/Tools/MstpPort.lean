/-
Number and priority of a port from the identifier that the spanning tree tool
prints (base_private_mstp_configuration.c).

An identifier has one hexadecimal digit for the priority and three for the number. The
mask of the number keeps only the last of the three.
-/
import TsnSwitch.Tools.Combinators
import TsnSwitch.Tools.WholeSteps

namespace TsnSwitch.Tools.Mstp

open Lib
open Callbacks (Combined)
open Base (MAX_STR_LEN EXIT_SUCCESS EXIT_FAILURE)

/-! ## The tables -/

def POINT_STR : String := "."
def X0F_MASK_STR : String := "0x0F"
def PORT_ID_STR : String := "port id"
def DSGN_PORT_STR : String := "designated port"
def BASE_ONE_STR : String := "1"

/-- The number of a port identifier in the array. -/
def numberOf (sh : Shape) : List Combined :=
  [Callbacks.noCombinator [Parser.arrayTakeValueAfter.call POINT_STR sh],
    Callbacks.noCombinator [Parser.arrayBitwiseAndMask.call X0F_MASK_STR sh]]

/-- `MSTP_PORT_NUM`. -/
def mstpPortNum (sh : Shape) : List Combined :=
  Callbacks.repeatUntilNullWithCheck [Parser.getFirstWord.call "" sh] :: numberOf sh

/-- `MSTP_PORT_DSGN_PORT`. -/
def mstpPortDsgnPort (sh : Shape) : List Combined :=
  Callbacks.repeatUntilNullWithCheck [Parser.findAndGetNextWord.call DSGN_PORT_STR sh] :: numberOf sh

/-- `MSTP_PORT_PRIORITY`. -/
def mstpPortPriority (sh : Shape) : List Combined :=
  [Callbacks.repeatUntilNullWithCheck [Parser.findAndGetNextWord.call PORT_ID_STR sh],
    Callbacks.noCombinator [Parser.arrayDropPunctuation.call "" sh],
    Callbacks.noCombinator [Parser.arrayShrinkString.call BASE_ONE_STR sh],
    Callbacks.noCombinator [Parser.arrayConvertHexStringToLongInt.call "" sh]]

/-! ## What the tool prints -/

structure PortId where
  priority : Fin 16
  number : Fin 4096

def hexDigit (upper : Bool) (d : Fin 16) : Char := if upper then d.val.digitChar.toUpper else d.val.digitChar

namespace PortId

variable (id : PortId)

/-- The three digits of the number. -/
def digits : List (Fin 16) :=
  [⟨id.number / 256, by omega⟩, ⟨id.number / 16 % 16, Nat.mod_lt _ (by omega)⟩,
    ⟨id.number % 16, Nat.mod_lt _ (by omega)⟩]

/-- `P.NNN`, in capitals or not. -/
def text (upper : Bool) : List Char := hexDigit upper id.priority :: '.' :: id.digits.map (hexDigit upper)

end PortId

/-- A report with a label on one of its lines, and behind it a word. -/
structure Labelled (label word : List Char) where
  before : List Line
  line : Line
  after : List Line
  gap : List Char
  tail : List Char
  found : strstr label line.text = some (label ++ (gap ++ (word ++ tail)))
  gap_blank : ∀ c ∈ gap, isBlank c = true
  tail_blank : ∀ c, tail.head? = some c → isBlank c = true
  alone : ∀ l ∈ before ++ after, ¬ label <:+: l.text

def Labelled.output {label word : List Char} (r : Labelled label word) : List Char :=
  outputOf (r.before ++ r.line :: r.after)

/-- What the tool shows of a port, in an array with columns for the identifier. -/
structure ShownPort where
  id : PortId
  upper : Bool
  sh : Shape
  columns : 5 < sh.colNum
  single : Labelled [] (id.text upper)
  port : Labelled PORT_ID_STR.toList (id.text upper)
  designated : Labelled DSGN_PORT_STR.toList (id.text upper)

namespace ShownPort

variable (p : ShownPort)

def portNum : Except Overrun (Nat × Matrix) := Callbacks.getObject (mstpPortNum p.sh) p.sh p.single.output

def portDsgnPort : Except Overrun (Nat × Matrix) :=
  Callbacks.getObject (mstpPortDsgnPort p.sh) p.sh p.designated.output

def portPriority : Except Overrun (Nat × Matrix) := Callbacks.getObject (mstpPortPriority p.sh) p.sh p.port.output

/-- The array has a number and nothing else. -/
def Returns (r : Except Overrun (Nat × Matrix)) (n : Nat) : Prop :=
  r = .ok (EXIT_SUCCESS, filled p.sh.rowNum [Nat.toDigits 10 n])

end ShownPort

/-- The number and the priority are the ones of the identifier. -/
structure PortOk (p : ShownPort) : Prop where
  number : p.Returns p.portNum p.id.number
  designated : p.Returns p.portDsgnPort p.id.number
  priority : p.Returns p.portPriority p.id.priority

/-- Two ports of a bridge, each with its own number. -/
structure PortsOk (p q : ShownPort) : Prop where
  fst : PortOk p
  snd : PortOk q
  distinct : p.id.number ≠ q.id.number → p.portNum.map (·.2.headD []) ≠ q.portNum.map (·.2.headD [])

/-! ## Digits -/

theorem hexDigit_facts (upper : Bool) (d : Fin 16) :
    digitOf 16 (hexDigit upper d) = some d.val ∧ isSpace (hexDigit upper d) = false ∧
      isPunct (hexDigit upper d) = false ∧ isHexDigit (hexDigit upper d) = true ∧
      hexDigit upper d ≠ 'x' ∧ hexDigit upper d ≠ 'X' ∧ hexDigit upper d ≠ '-' ∧ hexDigit upper d ≠ '+' ∧
      hexDigit upper d ≠ '.' ∧ endsWord (hexDigit upper d) = false := by
  revert upper d
  decide

/-- The value of some digits. -/
def value (ds : List (Fin 16)) : Nat := ds.foldl (fun n d => 16 * n + d.val) 0

theorem number_hexDigits (upper : Bool) (ds : List (Fin 16)) (n : Nat) :
    number 16 n (ds.map (hexDigit upper)) = (ds.foldl (fun n d => 16 * n + d.val) n, []) := by
  induction ds generalizing n with
  | nil => rfl
  | cons d ds ih =>
    rw [List.map_cons, number, (hexDigit_facts upper d).1]
    exact ih _

/-- Digits are read to the end, whatever the first of them are. -/
theorem strtolEnd_hexDigits (upper : Bool) {ds : List (Fin 16)} (hne : ds ≠ []) :
    strtolEnd 16 (ds.map (hexDigit upper)) = (long (value ds), []) := by
  have hmag : magnitude 16 (ds.map (hexDigit upper)) = some (value ds, []) :=
    magnitude_of_number (mt List.map_eq_nil_iff.1 hne) (number_hexDigits upper ds 0)
  have hprefix : hexDigits (ds.map (hexDigit upper)) = none := by
    unfold hexDigits
    split
    · rename_i x t ht
      have hmem : x ∈ ds.map (hexDigit upper) := ht ▸ List.mem_cons_of_mem _ (List.mem_cons_self ..)
      obtain ⟨d, -, hd⟩ := List.mem_map.1 hmem
      obtain ⟨-, -, -, -, hx, hX, -⟩ := hexDigit_facts upper d
      rw [if_neg (by rw [← hd]; exact not_or.2 ⟨hx, hX⟩)]
    · rfl
  have hbased : based 16 (ds.map (hexDigit upper)) = some (value ds, []) := by
    rw [based, if_pos (.inr rfl), hprefix]
    exact hmag
  cases ds with
  | nil => exact absurd rfl hne
  | cons d ds =>
    obtain ⟨-, hspace, -, -, -, -, hminus, hplus, -⟩ := hexDigit_facts upper d
    rw [List.map_cons] at hbased ⊢
    simp [strtolEnd, scan, hspace, hminus, hplus, hbased]

theorem valid_hexDigits (upper : Bool) (ds : List (Fin 16)) (n : Int) :
    isStringValidHexOrInt n (ds.map (hexDigit upper)) = true := by
  rw [isStringValidHexOrInt, Bool.or_eq_true, List.all_eq_true]
  refine .inr fun c hc => ?_
  obtain ⟨d, -, rfl⟩ := List.mem_map.1 hc
  exact (hexDigit_facts upper d).2.2.2.1

theorem PortId.value_digits (id : PortId) : value id.digits = id.number := by
  have := id.number.isLt
  simp only [value, PortId.digits, List.foldl_cons, List.foldl_nil]
  omega

/-! ## The word behind the label -/

section Word

variable {label word : List Char}

theorem captures_labelled (r : Labelled label word) (hne : word ≠ []) (hword : ∀ c ∈ word, endsWord c = false)
    {p : ParserSpec}
    (hp : ∀ line, p.word line = (strstr label line).map fun subStr => nextWord (subStr.drop label.length)) :
    captures [] p (piecesOf r.output) = [word] := by
  have hnone : ∀ l ∈ r.before ++ r.after, capture [] p l.text = none := fun l hl => by
    rw [capture, hp, strstr_eq_none.2 (r.alone l hl)]
    rfl
  have hline : capture [] p r.line.text = some word := by
    rw [capture, hp, r.found, Option.map_some, List.drop_left, nextWord_between r.gap_blank hne hword r.tail_blank]
    simp [hne]
  have hbefore : r.before.filterMap (fun l => capture [] p l.text) = [] :=
    List.filterMap_eq_nil_iff.2 fun l hl => hnone l (List.mem_append_left _ hl)
  have hafter : r.after.filterMap (fun l => capture [] p l.text) = [] :=
    List.filterMap_eq_nil_iff.2 fun l hl => hnone l (List.mem_append_right _ hl)
  rw [Labelled.output, captures_outputOf, List.filterMap_append, List.filterMap_cons, hline, hbefore, hafter]
  rfl

/-- The first combinator leaves the word in the first row. -/
theorem repeat_labelled (r : Labelled label word) (hne : word ≠ []) (hword : ∀ c ∈ word, endsWord c = false)
    {p : ParserSpec} (htakes : p.TakesWord)
    (hp : ∀ line, p.word line = (strstr label line).map fun subStr => nextWord (subStr.drop label.length))
    {sh : Shape} (hcol : word.length < sh.colNum) :
    Callbacks.repeatUntilNullWithCheck [p.call sh] ⟨piecesOf r.output, zeros sh⟩ =
      .ok (BASE_PARSING_SUCCEEDED, ⟨[], filled sh.rowNum [word]⟩) := by
  have hcap := captures_labelled r hne hword hp
  have hnil : ∀ f ∈ ([] : List ParserSpec), f.IsFilter := fun _ h => absurd h List.not_mem_nil
  have hrun := repeatUntilNullWithCheck_eq hnil htakes sh (piecesOf r.output)
  have hsucc : (linesStatus [] p (piecesOf r.output)).parsingSucceeded = true :=
    linesStatus_of_captures (by rw [hcap]; exact List.cons_ne_nil _ _)
  obtain ⟨hfail, hvalid, hvalid'⟩ := linesStatus_onlyParsing [] p (piecesOf r.output)
  have hroom : [word].length ≤ sh.rowNum := sh.rowNum_pos
  rw [hcap, if_pos hroom] at hrun
  simp only [hsucc, if_true, hfail, hvalid, hvalid', List.map_cons, List.map_nil,
    List.take_of_length_le hcol.le] at hrun
  exact (Callbacks.repeatUntilNullWithCheck_spec sh [p] _).symm.trans hrun

end Word

/-! ## The array afterwards -/

section Rows

variable {sh : Shape}

/-- A parser of the array behind the first combinator. -/
theorem combinatorComb_no {p : Parser} {matchCase : String} {f : Matrix → Except Overrun (Status × Matrix)}
    {rows rows' : Matrix} (h : f rows = .ok (BASE_PARSING_SUCCEEDED, rows')) (combs : List Combined)
    (hp : p.run matchCase.toList sh ⟨[], rows⟩ = onRows ⟨[], rows⟩ f) :
    Callbacks.combinatorComb (Callbacks.noCombinator [p.call matchCase sh] :: combs) BASE_PARSING_SUCCEEDED
      ⟨[], rows⟩ = Callbacks.combinatorComb combs BASE_PARSING_SUCCEEDED ⟨[], rows'⟩ := by
  have hno : Callbacks.noCombinator [p.call matchCase sh] ⟨[], rows⟩ = .ok (BASE_PARSING_SUCCEEDED, ⟨[], rows'⟩) := by
    simp only [Callbacks.noCombinator, Parser.call, List.head?_cons, Option.bind_some, id_eq, hp, onRows, h, Except.map,
      bind, Except.bind]
  rw [Callbacks.combinatorComb, hno]
  rfl

/-- An array of one row. -/
theorem filled_single (t : List Char) : filled sh.rowNum [t] = t :: List.replicate (sh.rowNum - 1) [] := rfl

/-- What is left in the row behind the point. -/
theorem arrayTakeValueAfter_single {matchCase t v : List Char} (hne : t ≠ []) (hcol : t.length < sh.colNum)
    (hv : valueAfter matchCase t = v) (hvne : v ≠ []) :
    Tools.arrayTakeValueAfter matchCase sh (filled sh.rowNum [t]) =
      .ok (BASE_PARSING_SUCCEEDED, filled sh.rowNum [v]) := by
  have hloop := takeValueAfterLoop_filled (n := sh.rowNum) matchCase (fun t' ht' => List.mem_singleton.1 ht' ▸ hne)
    (fun t' ht' => List.mem_singleton.1 ht' ▸ hcol)
  have hvisible : (filled sh.rowNum [t]).takeWhile (· ≠ []) = [t] :=
    takeWhile_filled fun t' ht' => List.mem_singleton.1 ht' ▸ hne
  rw [Tools.arrayTakeValueAfter, hloop, hvisible, List.map_singleton, hv]
  simp [Except.map, filled_single, hvne]

theorem arrayDropPunctuation_single {t v : List Char} (hne : t ≠ []) (hcol : t.length < sh.colNum)
    (hv : (t.filter fun c => !isPunct c) = v) (hvne : v ≠ []) :
    Tools.arrayDropPunctuation sh (filled sh.rowNum [t]) = .ok (BASE_PARSING_SUCCEEDED, filled sh.rowNum [v]) := by
  have hloop := dropPunctuationLoop_filled (n := sh.rowNum) sh (fun t' ht' => List.mem_singleton.1 ht' ▸ hne)
    (fun t' ht' => List.mem_singleton.1 ht' ▸ hcol)
  have hvisible : (filled sh.rowNum [t]).takeWhile (· ≠ []) = [t] :=
    takeWhile_filled fun t' ht' => List.mem_singleton.1 ht' ▸ hne
  rw [Tools.arrayDropPunctuation, hloop, hvisible, List.map_singleton, hv]
  simp [Except.map, filled_single, hvne]

theorem arrayShrinkString_single {t : List Char} (hne : t ≠ []) (hcol : 1 < sh.colNum) :
    Tools.arrayShrinkString BASE_ONE_STR.toList sh (filled sh.rowNum [t]) =
      .ok (BASE_PARSING_SUCCEEDED, filled sh.rowNum [t.take 1]) := by
  have hone : strtolEnd 10 BASE_ONE_STR.toList = (1, []) := by decide
  have hrest : ∀ n, shrinkLoop 1 sh (List.replicate n []) = .ok (0, List.replicate n []) := fun n => by cases n <;> rfl
  have hcols : ¬ (sh.colNum : Int) < 1 := by omega
  have hcase : BASE_ONE_STR.toList ≠ [] := by decide
  rw [Tools.arrayShrinkString, if_neg hcase, hone]
  simp only [hcols, if_false, filled_single, show ¬ (1 : Int) < 0 by decide, Int.toNat_one, shrinkLoop, hne, hcol,
    if_true, hrest]
  rfl

/-- A row of digits is put through the operation. -/
theorem mask_single {op : ParserOp} {matchCase t : List Char} {v mask : Int} (hne : t ≠ [])
    (hcol : t.length < sh.colNum)
    (hmask : op = .convertHexToLongInt ∨ (matchCase ≠ [] ∧ isStringValidHexOrInt mask matchCase = true))
    (hmaskValue : (strtolEnd 16 matchCase).1 = mask) (hvalue : (strtolEnd 16 t).1 = v)
    (hvalid : isStringValidHexOrInt v t = true) (hout : (decimal (op.eval v mask)).length < sh.colNum) :
    baseCheckMaskAndSetResultArray matchCase op 16 sh (filled sh.rowNum [t]) =
      .ok (BASE_PARSING_SUCCEEDED, filled sh.rowNum [decimal (op.eval v mask)]) := by
  have hrest : ∀ n, maskLoop op 16 mask sh (List.replicate n []) = .ok (false, List.replicate n []) :=
    fun n => by cases n <;> rfl
  have hgood : ¬ (op ≠ .convertHexToLongInt ∧ (matchCase = [] ∨ (!isStringValidHexOrInt mask matchCase) = true)) := by
    rintro ⟨hop, hbad⟩
    obtain ⟨hnil, hok⟩ := hmask.resolve_left hop
    rcases hbad with hbad | hbad
    · exact hnil hbad
    · rw [hok] at hbad
      cases hbad
  have htake : (decimal (op.eval v mask)).take (sh.colNum - 1) = decimal (op.eval v mask) :=
    List.take_of_length_le (by omega)
  rw [baseCheckMaskAndSetResultArray]
  simp only [hmaskValue, hgood, if_false, filled_single, maskLoop, hne, Nat.not_le.2 hcol, hvalue, hvalid, hrest,
    Bool.not_true, Bool.false_eq_true, Except.map, htake, if_true]

end Rows

/-! ## Ports -/

section Ports

variable (p : ShownPort)

theorem eval_and (n : Nat) : ParserOp.and.eval n 15 = (n % 16 : Nat) := by
  have hmask : n % 2 ^ 64 &&& 15 = n % 16 := by
    rw [Nat.and_two_pow_sub_one_eq_mod (n % 2 ^ 64) 4, Nat.mod_mod_of_dvd n (by decide)]
  have hnat : (BitVec.ofNat 64 n &&& BitVec.ofNat 64 15).toNat = n % 16 := hmask
  simp only [ParserOp.eval, BitVec.ofInt_natCast]
  rw [show BitVec.ofInt 64 15 = BitVec.ofNat 64 15 from rfl, BitVec.toInt_eq_toNat_of_lt (by rw [hnat]; omega), hnat]

theorem eval_convert (d : Fin 16) (mask : Int) : ParserOp.convertHexToLongInt.eval (d.val : Int) mask = d.val := by
  simp only [ParserOp.eval]
  revert d
  decide

namespace PortId

variable (id : PortId) (upper : Bool)

theorem text_endsWord : ∀ c ∈ id.text upper, endsWord c = false := by
  intro c hc
  rcases List.mem_cons.1 hc with rfl | hc
  · simp [hexDigit_facts]
  rcases List.mem_cons.1 hc with rfl | hc
  · rfl
  obtain ⟨d, -, rfl⟩ := List.mem_map.1 hc
  simp [hexDigit_facts]

theorem valueAfter_text : valueAfter POINT_STR.toList (id.text upper) = id.digits.map (hexDigit upper) := by
  have hpoint : POINT_STR.toList = ['.'] := rfl
  have hfirst := hexDigit_facts upper id.priority
  have hfound : strstr ['.'] (id.text upper) = some ('.' :: id.digits.map (hexDigit upper)) := by
    simp [text, strstr, hfirst.2.2.2.2.2.2.2.2.1.symm]
  simp [valueAfter, hpoint, hfound, digits, hexDigit_facts]

theorem withoutPunct_text : (id.text upper).filter (fun c => !isPunct c) =
    hexDigit upper id.priority :: id.digits.map (hexDigit upper) := by
  have hpoint : isPunct '.' = true := by decide
  simp [text, digits, hpoint, hexDigit_facts]

end PortId

theorem getObject_of {first : Combined} {combs : List Combined} {sh : Shape} {output : List Char} {rows rows' : Matrix}
    (hfirst : first ⟨piecesOf output, zeros sh⟩ = .ok (BASE_PARSING_SUCCEEDED, ⟨[], rows⟩))
    (hrest : Callbacks.combinatorComb combs BASE_PARSING_SUCCEEDED ⟨[], rows⟩ =
      .ok (BASE_PARSING_SUCCEEDED, ⟨[], rows'⟩)) :
    Callbacks.getObject (first :: combs) sh output = .ok (EXIT_SUCCESS, rows') := by
  rw [Callbacks.getObject, Callbacks.combinatorComb, hfirst]
  simp only [bind, Except.bind, succeeded_or, show BASE_PARSING_SUCCEEDED.failed = false from rfl, Bool.false_eq_true,
    if_false, hrest]
  rfl

theorem length_digit : ∀ d : Fin 16, (decimal (d.val : Int)).length ≤ 2 := by decide

theorem ShownPort.text_length : (p.id.text p.upper).length < p.sh.colNum := p.columns

/-- Of the number the last digit is kept. -/
theorem numberOf_eq : Callbacks.combinatorComb (numberOf p.sh) BASE_PARSING_SUCCEEDED
    ⟨[], filled p.sh.rowNum [p.id.text p.upper]⟩ =
      .ok (BASE_PARSING_SUCCEEDED, ⟨[], filled p.sh.rowNum [Nat.toDigits 10 (p.id.number % 16)]⟩) := by
  have hcol := p.columns
  have hne : p.id.digits.map (hexDigit p.upper) ≠ [] := List.cons_ne_nil _ _
  have hvalue : (strtolEnd 16 (p.id.digits.map (hexDigit p.upper))).1 = p.id.number.val := by
    have hlt := p.id.number.isLt
    rw [strtolEnd_hexDigits p.upper (mt List.map_eq_nil_iff.2 hne), PortId.value_digits, long]
    omega
  have hshort : (decimal ((p.id.number % 16 : Nat) : Int)).length < p.sh.colNum :=
    (length_digit ⟨p.id.number % 16, Nat.mod_lt _ (by omega)⟩).trans_lt (by omega)
  have htake := arrayTakeValueAfter_single (List.cons_ne_nil _ _) p.text_length (p.id.valueAfter_text p.upper) hne
  have hand : baseCheckMaskAndSetResultArray X0F_MASK_STR.toList .and 16 p.sh
      (filled p.sh.rowNum [p.id.digits.map (hexDigit p.upper)]) =
        .ok (BASE_PARSING_SUCCEEDED, filled p.sh.rowNum [decimal (ParserOp.and.eval p.id.number.val 15)]) :=
    mask_single hne (by change 3 < _; omega) (.inr ⟨by decide, by decide⟩) (by decide) hvalue
      (valid_hexDigits p.upper _ _) (by rwa [eval_and])
  rw [eval_and] at hand
  exact (combinatorComb_no htake _ rfl).trans (combinatorComb_no hand _ rfl)

/-- The priority is the digit before the point. -/
theorem priorityOf_eq : Callbacks.combinatorComb (mstpPortPriority p.sh).tail BASE_PARSING_SUCCEEDED
    ⟨[], filled p.sh.rowNum [p.id.text p.upper]⟩ =
      .ok (BASE_PARSING_SUCCEEDED, ⟨[], filled p.sh.rowNum [Nat.toDigits 10 p.id.priority]⟩) := by
  have hcol := p.columns
  have hvalue : (strtolEnd 16 ([p.id.priority].map (hexDigit p.upper))).1 = p.id.priority.val := by
    have hlt := p.id.priority.isLt
    rw [strtolEnd_hexDigits p.upper (List.cons_ne_nil _ _), value, List.foldl_cons, List.foldl_nil, long]
    omega
  have hshort := (length_digit p.id.priority).trans_lt (show 2 < p.sh.colNum by omega)
  have hdrop := arrayDropPunctuation_single (List.cons_ne_nil _ _) p.text_length (p.id.withoutPunct_text p.upper)
    (List.cons_ne_nil _ _)
  have hshrink := arrayShrinkString_single
    (List.cons_ne_nil (hexDigit p.upper p.id.priority) (p.id.digits.map (hexDigit p.upper)))
    (show 1 < p.sh.colNum by omega)
  have hconvert : baseCheckMaskAndSetResultArray [] .convertHexToLongInt 16 p.sh
      (filled p.sh.rowNum [[p.id.priority].map (hexDigit p.upper)]) =
        .ok (BASE_PARSING_SUCCEEDED,
          filled p.sh.rowNum [decimal (ParserOp.convertHexToLongInt.eval p.id.priority.val 0)]) :=
    mask_single (List.cons_ne_nil _ _) (by change 1 < _; omega) (.inl rfl) (by decide) hvalue
      (valid_hexDigits p.upper _ _) (by rwa [eval_convert])
  rw [eval_convert] at hconvert
  refine (combinatorComb_no hdrop _ rfl).trans ?_
  exact (combinatorComb_no hshrink _ rfl).trans (combinatorComb_no hconvert _ rfl)

/-- The word of a parser that takes what is behind a label. -/
theorem word_findAndGetNextWord {label : List Char} (hne : label ≠ []) (line : List Char) :
    ParserSpec.word ⟨some .findAndGetNextWord, label⟩ line =
      (strstr label line).map fun subStr => nextWord (subStr.drop label.length) := if_neg hne

theorem word_getFirstWord (line : List Char) : ParserSpec.word ⟨some .getFirstWord, []⟩ line =
    (strstr [] line).map fun subStr => nextWord (subStr.drop ([] : List Char).length) := by
  rw [strstr_nil]
  rfl

theorem portNum_eq : p.Returns p.portNum (p.id.number % 16) :=
  getObject_of (repeat_labelled p.single (List.cons_ne_nil _ _) (p.id.text_endsWord p.upper) (.inl rfl)
    word_getFirstWord p.text_length) (numberOf_eq p)

theorem portDsgnPort_eq : p.Returns p.portDsgnPort (p.id.number % 16) :=
  getObject_of (repeat_labelled p.designated (List.cons_ne_nil _ _) (p.id.text_endsWord p.upper) (.inr rfl)
    (word_findAndGetNextWord (by decide)) p.text_length) (numberOf_eq p)

theorem portPriority_eq : p.Returns p.portPriority p.id.priority :=
  getObject_of (repeat_labelled p.port (List.cons_ne_nil _ _) (p.id.text_endsWord p.upper) (.inr rfl)
    (word_findAndGetNextWord (by decide)) p.text_length) (priorityOf_eq p)

theorem returns_inj {p : ShownPort} {r : Except Overrun (Nat × Matrix)} {m n : Nat} (hm : p.Returns r m)
    (hn : p.Returns r n) : m = n := by
  have hrows := (Prod.mk.inj (Except.ok.inj (hm.symm.trans hn))).2
  exact toDigits_inj (List.cons.inj hrows).1

/-- The identifier is shown right just when its number has one digit. -/
theorem portOk_iff : PortOk p ↔ p.id.number.val < 16 := by
  constructor
  · intro h
    have hmod := returns_inj h.number (portNum_eq p)
    omega
  · intro h
    have hmod : p.id.number.val % 16 = p.id.number := Nat.mod_eq_of_lt h
    have hnum := portNum_eq p
    have hdsgn := portDsgnPort_eq p
    rw [hmod] at hnum hdsgn
    exact ⟨hnum, hdsgn, portPriority_eq p⟩

/-- **Number and priority of two ports are told right** just when both numbers have one digit. -/
theorem portsOk_iff (p q : ShownPort) : PortsOk p q ↔ p.id.number.val < 16 ∧ q.id.number.val < 16 := by
  constructor
  · exact fun h => ⟨(portOk_iff p).1 h.fst, (portOk_iff q).1 h.snd⟩
  · intro ⟨hp, hq⟩
    refine ⟨(portOk_iff p).2 hp, (portOk_iff q).2 hq, fun hne heq => hne ?_⟩
    have hpNum : p.portNum = _ := ((portOk_iff p).2 hp).number
    have hqNum : q.portNum = _ := ((portOk_iff q).2 hq).number
    rw [hpNum, hqNum] at heq
    exact Fin.ext (toDigits_inj (Except.ok.inj heq))

/-- A report of one line. -/
def oneLine (label word : List Char) (hplain : (label ++ (' ' :: word)).all (fun c => c ≠ '\n' && c ≠ NUL) = true)
    (hfits : (label ++ (' ' :: word)).length + 1 < MAX_STR_LEN) : Labelled label word where
  before := []
  line := ⟨label ++ (' ' :: word), fun c hc => by simpa using List.all_eq_true.1 hplain c hc, hfits⟩
  after := []
  gap := [' ']
  tail := []
  found := by
    have h := @strstr_append label [] (' ' :: word) fun t ht hne => absurd (List.suffix_nil.1 ht) hne
    simpa using h
  gap_blank := by simp [isBlank]
  tail_blank := by simp
  alone := by simp

/-- Port 1 of a bridge. -/
def port1 : ShownPort where
  id := ⟨⟨8, Nat.le_of_ble_eq_true rfl⟩, ⟨1, Nat.le_of_ble_eq_true rfl⟩⟩
  upper := false
  sh := shortShape
  columns := Nat.le_of_ble_eq_true rfl
  single := oneLine _ _ rfl (Nat.le_of_ble_eq_true rfl)
  port := oneLine _ _ rfl (Nat.le_of_ble_eq_true rfl)
  designated := oneLine _ _ rfl (Nat.le_of_ble_eq_true rfl)

def port17 : ShownPort where
  id := ⟨⟨8, Nat.le_of_ble_eq_true rfl⟩, ⟨17, Nat.le_of_ble_eq_true rfl⟩⟩
  upper := false
  sh := shortShape
  columns := Nat.le_of_ble_eq_true rfl
  single := oneLine _ _ rfl (Nat.le_of_ble_eq_true rfl)
  port := oneLine _ _ rfl (Nat.le_of_ble_eq_true rfl)
  designated := oneLine _ _ rfl (Nat.le_of_ble_eq_true rfl)

/-- `8.001` and `8.011` have the same number. -/
theorem not_portsOk : ¬ PortsOk port1 port17 ∧ port1.Returns port1.portNum 1 ∧ port17.Returns port17.portNum 1 :=
  ⟨fun h => absurd ((portOk_iff port17).1 h.snd) (by decide), portNum_eq port1, portNum_eq port17⟩

end Ports

end TsnSwitch.Tools.Mstp
