/-
The name of a bridge by its id (`find_bridge_name_by_id` in
base_mstp_linux_tools.c).

The ids count from one, the rows of the array from zero. The test of the index asks
for an index that is both below zero and above the last row, so that it turns down none:
an id that is no number is read as zero, and the row before the array is looked at.
-/
import TsnSwitch.Tools.BridgeVlans
import TsnSwitch.Tools.Uint32

namespace TsnSwitch.Tools

open Lib
open Base (MAX_STR_LEN EXIT_SUCCESS EXIT_FAILURE)

def CIST_INFO_STR : String := "CIST info"

/-! ## The functions -/

def getMstpBridgeNames (sh : Shape) (output : Option (List Char)) : Except Overrun (Nat × Matrix) :=
  getObject [(some .repeatUntilNullWithCheck, [onLine CIST_INFO_STR.toList] ++ [firstWord])] sh output

/-- `(int)strtol(s, NULL, 10)`. -/
def intOf (w : LongWidth) (s : List Char) : BitVec 32 := BitVec.ofInt 32 (w.saturate ((strtol (s ++ [NUL])).getD 0))

/-- The row at an index, if it is one of the array. -/
def rowAt (rows : Matrix) (i : Int) : Option (List Char) := if 0 ≤ i then rows[i.toNat]? else none

/-- What `result` holds is given. The names have their NUL within the columns. -/
def findBridgeNameById (w : LongWidth) (output : Option (List Char)) (bridgeId result : List Char) :
    Except Overrun (Nat × List Char) := do
  let (ret, bridgeNames) ← getMstpBridgeNames portsShape output
  if ret = EXIT_FAILURE then .ok (EXIT_FAILURE, result)
  else
    let moduleBridgeIndex := intOf w bridgeId
    let arrayBridgeIndex := (moduleBridgeIndex - 1).toInt
    if 0 > arrayBridgeIndex ∧ arrayBridgeIndex > MAX_NUM_OF_INTERFACES then .ok (EXIT_FAILURE, result)
    else
      match rowAt bridgeNames arrayBridgeIndex with
      | none => .error .read
      | some name => .ok (if name ≠ [] then (EXIT_SUCCESS, name) else (EXIT_FAILURE, result))

/-! ## What is asked -/

/-- A line of `mstpctl showbridge`: the first one of a bridge, or one that has
nothing of its pattern. -/
structure BridgeLine where
  line : Line
  bridge : Option Word
  first : ∀ name, bridge = some name → ∃ rest, line.text = name.text ++ ' ' :: (CIST_INFO_STR.toList ++ rest)
  other : bridge = none → ¬ line.Contains CIST_INFO_STR.toList

def bridgeOutput (lines : List BridgeLine) : List Char := outputOf (lines.map BridgeLine.line)

/-- The names of the bridges. -/
def bridgesOf (lines : List BridgeLine) : Matrix := lines.filterMap fun l => l.bridge.map Word.text

/-- A decimal number from 1 to `n`. -/
def IsBridgeId (n : Nat) (bridgeId : List Char) : Prop :=
  AllDigits bridgeId ∧ 1 ≤ valueOfDigits bridgeId ∧ valueOfDigits bridgeId ≤ n

/-- The ids of the bridges succeed and no others, each with the name of its
bridge, and no row outside the array is looked at. -/
def FindOk (w : LongWidth) (lines : List BridgeLine) (bridgeId result : List Char) : Prop :=
  ∃ ret name, findBridgeNameById w (some (bridgeOutput lines)) bridgeId result = .ok (ret, name) ∧
    (ret = EXIT_SUCCESS ↔ IsBridgeId (bridgesOf lines).length bridgeId) ∧
    (ret = EXIT_SUCCESS → (bridgesOf lines)[valueOfDigits bridgeId - 1]? = some name)

/-- No more bridges than rows; and if the tool does not just report that
there is none, what the id starts with is the number of a row, and where that
row has a bridge the id is that number. -/
structure Decided (w : LongWidth) (lines : List BridgeLine) (bridgeId : List Char) : Prop where
  room : (bridgesOf lines).length ≤ MAX_NUM_OF_INTERFACES
  row : lines = [] ∨ bridgesOf lines ≠ [] →
    ∃ k : Nat, (intOf w bridgeId).toInt = k ∧ 1 ≤ k ∧ k ≤ MAX_NUM_OF_INTERFACES ∧
      (k ≤ (bridgesOf lines).length → AllDigits bridgeId ∧ valueOfDigits bridgeId = k)

/-! ## The names -/

section

variable {l : BridgeLine}

theorem BridgeLine.passes_iff : (onLine CIST_INFO_STR.toList).passes l.line.text = true ↔ l.bridge.isSome = true := by
  rw [onLine_passes]
  cases h : l.bridge with
  | none => exact iff_of_false (l.other h) (by simp)
  | some name =>
    obtain ⟨rest, htext⟩ := l.first name h
    refine iff_of_true ⟨by decide, name.text ++ [' '], rest, ?_⟩ rfl
    rw [htext, List.append_assoc, List.append_assoc, List.singleton_append]

/-- The name is what the first line of a bridge begins with. -/
theorem BridgeLine.capture_eq :
    capture [onLine CIST_INFO_STR.toList] firstWord l.line.text = l.bridge.map Word.text := by
  rw [capture, List.all_cons, List.all_nil, Bool.and_true]
  cases h : l.bridge with
  | none =>
    have hno : (onLine CIST_INFO_STR.toList).passes l.line.text = false := by
      rw [← Bool.not_eq_true, BridgeLine.passes_iff, h]
      simp
    rw [hno]
    rfl
  | some name =>
    obtain ⟨rest, htext⟩ := l.first name h
    have hpass : (onLine CIST_INFO_STR.toList).passes l.line.text = true := by
      rw [BridgeLine.passes_iff, h]
      rfl
    have hblank : ∀ c, (' ' :: (CIST_INFO_STR.toList ++ rest)).head? = some c → isBlank c = true := fun c hc => by
      rw [← Option.some.inj hc]
      decide
    have hgap : ∀ c ∈ ([] : List Char), isBlank c = true := fun _ h => absurd h List.not_mem_nil
    have hword : nextWord l.line.text = name.text := by
      rw [htext]
      exact nextWord_between hgap name.ne_nil name.not_endsWord hblank
    rw [if_pos hpass, firstWord, ParserSpec.word, hword, Option.filter_some_pos (by simpa using name.ne_nil)]
    rfl

end

theorem captures_bridgeOutput (lines : List BridgeLine) :
    captures [onLine CIST_INFO_STR.toList] firstWord (piecesOf (bridgeOutput lines)) = bridgesOf lines := by
  rw [bridgeOutput, captures_outputOf, List.filterMap_map]
  exact List.filterMap_congr fun l _ => l.capture_eq

theorem passes_eq (l : BridgeLine) : (onLine CIST_INFO_STR.toList).passes l.line.text = l.bridge.isSome :=
  Bool.eq_iff_iff.2 l.passes_iff

theorem bridgesOf_eq_nil {lines : List BridgeLine} : bridgesOf lines = [] ↔ ∀ l ∈ lines, l.bridge = none := by
  simp [bridgesOf, List.filterMap_eq_nil_iff]

/-- The bits of all lines. -/
theorem linesStatus_bridges (lines : List BridgeLine) :
    linesStatus [onLine CIST_INFO_STR.toList] firstWord (piecesOf (bridgeOutput lines)) =
      ⟨false, false, false, lines.any (·.bridge.isNone), lines.any (·.bridge.isSome)⟩ := by
  rw [bridgeOutput, piecesOf_outputOf, List.map_map]
  induction lines with
  | nil => rfl
  | cons l lines ih =>
    have hone : lineStatus [onLine CIST_INFO_STR.toList] firstWord l.line.text =
        ⟨false, false, false, l.bridge.isNone, l.bridge.isSome⟩ := by
      simp only [lineStatus, l.capture_eq, passes_eq, Option.isNone_map]
    rw [List.map_cons, Function.comp, linesStatus, terminateString_line, hone]
    exact congrArg _ ih

/-- Lines without a bridge are a failure, and no lines are none. -/
theorem rejected_iff (lines : List BridgeLine) :
    (lines.any (·.bridge.isNone) && !lines.any (·.bridge.isSome)) = true ↔ ¬(lines = [] ∨ bridgesOf lines ≠ []) := by
  rw [Bool.and_eq_true, Bool.not_eq_true', List.any_eq_true, List.any_eq_false, not_or, not_not, bridgesOf_eq_nil]
  constructor
  · rintro ⟨⟨l, hl, -⟩, hall⟩
    exact ⟨List.ne_nil_of_mem hl, fun l hl => by simpa using hall l hl⟩
  · rintro ⟨hne, hall⟩
    obtain ⟨l, hl⟩ := List.exists_mem_of_ne_nil _ hne
    exact ⟨⟨l, hl, by rw [hall l hl]; rfl⟩, fun l hl => by simp [hall l hl]⟩

theorem getMstpBridgeNames_eq (lines : List BridgeLine) :
    getMstpBridgeNames portsShape (some (bridgeOutput lines)) =
      if (bridgesOf lines).length ≤ MAX_NUM_OF_INTERFACES then
        .ok (if lines = [] ∨ bridgesOf lines ≠ [] then (EXIT_SUCCESS, filled MAX_NUM_OF_INTERFACES (bridgesOf lines))
          else (EXIT_FAILURE, zeros portsShape))
      else .error .write := by
  have hf : ∀ f ∈ [onLine CIST_INFO_STR.toList], f.IsFilter := fun f hf => by
    rw [List.mem_singleton.1 hf]
    exact onLine_isFilter _
  have hp : firstWord.TakesWord := .inl rfl
  by_cases hfit : (bridgesOf lines).length ≤ MAX_NUM_OF_INTERFACES
  · have hrun := repeatUntilNullWithCheck_eq hf hp portsShape (piecesOf (bridgeOutput lines))
    have hrows : (bridgesOf lines).length ≤ portsShape.rowNum := hfit
    have hrej : ∀ a b : Bool, (if b then (⟨false, false, false, false, b⟩ : Status) else ⟨false, false, false, a, b⟩).rejected =
        (a && !b) := by decide
    rw [captures_take portsShape_holds.1, captures_bridgeOutput, linesStatus_bridges, if_pos hrows] at hrun
    rw [if_pos hfit, getMstpBridgeNames, getObject_cons (c := .repeatUntilNullWithCheck) _ hrun (by split <;> rfl),
      combinatorComb, Except.map, hrej]
    simp only [rejected_iff, ite_not]
    rfl
  · rw [if_neg hfit]
    refine getObject_overrun hf hp ?_ _
    rw [captures_bridgeOutput]
    exact hfit

/-! ## The index -/

theorem toInt_pred {x : BitVec 32} {k : Nat} (hk : k < 2 ^ 31 - 1) : (x - 1).toInt = k ↔ x.toInt = k + 1 := by
  have hx := x.isLt
  rw [BitVec.toInt_eq_toNat_cond, BitVec.toInt_eq_toNat_cond, BitVec.toNat_sub]
  have hone : (1 : BitVec 32).toNat = 1 := rfl
  rw [hone]
  omega

/-- The digits of a small number are read as it. -/
theorem intOf_digits {w : LongWidth} {s : List Char} (h : AllDigits s) (hsmall : valueOfDigits s ≤ MAX_NUM_OF_INTERFACES) :
    (intOf w s).toInt = valueOfDigits s := by
  have hmax : MAX_NUM_OF_INTERFACES = 30 := rfl
  have hsat : w.saturate (valueOfDigits s) = valueOfDigits s := by
    cases w <;> simp only [LongWidth.saturate, LongWidth.bits] <;> omega
  have hread : strtol (s ++ [NUL]) = some (valueOfDigits s : Int) := strtol_digits h.2 []
  rw [intOf, hread, Option.getD_some, hsat, BitVec.toInt_ofInt]
  exact Int.bmod_eq_of_le (by omega) (by omega)

theorem getElem?_filled {n k : Nat} {texts : Matrix} (hk : k < n) : (filled n texts)[k]? = some (texts.getD k []) := by
  rw [filled, List.getD_eq_getElem?_getD]
  by_cases hlt : k < texts.length
  · rw [List.getElem?_append_left hlt, List.getElem?_eq_getElem hlt, Option.getD_some]
  · rw [List.getElem?_append_right (Nat.not_lt.1 hlt), List.getElem?_replicate_of_lt (by omega),
      List.getElem?_eq_none (Nat.not_lt.1 hlt), Option.getD_none]

/-- The row before the number that is read, where there is one. -/
theorem rowAt_filled {names : Matrix} (hroom : names.length ≤ MAX_NUM_OF_INTERFACES) (x : BitVec 32) :
    rowAt (filled MAX_NUM_OF_INTERFACES names) (x - 1).toInt =
      if 1 ≤ x.toInt ∧ x.toInt ≤ MAX_NUM_OF_INTERFACES then some (names.getD (x.toInt.toNat - 1) []) else none := by
  have hmax : MAX_NUM_OF_INTERFACES = 30 := rfl
  have hlen : (filled MAX_NUM_OF_INTERFACES names).length = MAX_NUM_OF_INTERFACES := by
    rw [filled, List.length_append, List.length_replicate]
    omega
  rw [rowAt]
  by_cases h : 1 ≤ x.toInt ∧ x.toInt ≤ MAX_NUM_OF_INTERFACES
  · obtain ⟨k, hk⟩ : ∃ k : Nat, x.toInt = k + 1 := ⟨x.toInt.toNat - 1, by omega⟩
    have hpred : (x - 1).toInt = k := (toInt_pred (by omega)).2 hk
    rw [if_pos h, hpred, hk, if_pos (Int.natCast_nonneg k), Int.toNat_natCast, getElem?_filled (by omega)]
    rfl
  · rw [if_neg h]
    by_cases hneg : 0 ≤ (x - 1).toInt
    · rw [if_pos hneg, List.getElem?_eq_none]
      rw [hlen]
      by_contra hlt
      refine h ?_
      have hk := (toInt_pred (x := x) (k := (x - 1).toInt.toNat) (by omega)).1 (by omega)
      omega
    · rw [if_neg hneg]

/-! ## The name -/

section

variable {w : LongWidth} {lines : List BridgeLine} {bridgeId result : List Char}

theorem bridgesOf_ne_nil : ∀ name ∈ bridgesOf lines, name ≠ [] := by
  intro name h
  obtain ⟨l, -, hl⟩ := List.mem_filterMap.1 h
  obtain ⟨word, -, rfl⟩ := Option.map_eq_some_iff.1 hl
  exact word.ne_nil

/-- More bridges than rows are written behind the array. -/
theorem find_overrun (h : ¬(bridgesOf lines).length ≤ MAX_NUM_OF_INTERFACES) :
    findBridgeNameById w (some (bridgeOutput lines)) bridgeId result = .error .write := by
  rw [findBridgeNameById, getMstpBridgeNames_eq, if_neg h]
  rfl

theorem find_noBridge (hroom : (bridgesOf lines).length ≤ MAX_NUM_OF_INTERFACES)
    (h : ¬(lines = [] ∨ bridgesOf lines ≠ [])) :
    findBridgeNameById w (some (bridgeOutput lines)) bridgeId result = .ok (EXIT_FAILURE, result) := by
  rw [findBridgeNameById, getMstpBridgeNames_eq, if_pos hroom, if_neg h]
  rfl

/-- The test of the index turns nothing down. -/
theorem find_row (w : LongWidth) (bridgeId result : List Char)
    (hroom : (bridgesOf lines).length ≤ MAX_NUM_OF_INTERFACES) (h : lines = [] ∨ bridgesOf lines ≠ []) :
    findBridgeNameById w (some (bridgeOutput lines)) bridgeId result =
      if 1 ≤ (intOf w bridgeId).toInt ∧ (intOf w bridgeId).toInt ≤ MAX_NUM_OF_INTERFACES then
        match (bridgesOf lines)[(intOf w bridgeId).toInt.toNat - 1]? with
        | none => .ok (EXIT_FAILURE, result)
        | some name => .ok (EXIT_SUCCESS, name)
      else .error .read := by
  have hdiff : EXIT_SUCCESS ≠ EXIT_FAILURE := by decide
  rw [findBridgeNameById, getMstpBridgeNames_eq, if_pos hroom, if_pos h]
  simp only [bind, Except.bind, hdiff, if_false, rowAt_filled hroom]
  rw [if_neg (by omega)]
  by_cases hrow : 1 ≤ (intOf w bridgeId).toInt ∧ (intOf w bridgeId).toInt ≤ MAX_NUM_OF_INTERFACES
  · simp only [if_pos hrow, List.getD_eq_getElem?_getD]
    cases hname : (bridgesOf lines)[(intOf w bridgeId).toInt.toNat - 1]? with
    | none => rfl
    | some name =>
      have hne := bridgesOf_ne_nil name (List.mem_of_getElem? hname)
      simp only [Option.getD_some, hne, ne_eq, not_false_eq_true, if_true]
  · simp only [if_neg hrow]

theorem findOk_of_ok {ret : Nat} {name : List Char}
    (hrun : findBridgeNameById w (some (bridgeOutput lines)) bridgeId result = .ok (ret, name)) :
    FindOk w lines bridgeId result ↔ (ret = EXIT_SUCCESS ↔ IsBridgeId (bridgesOf lines).length bridgeId) ∧
      (ret = EXIT_SUCCESS → (bridgesOf lines)[valueOfDigits bridgeId - 1]? = some name) := by
  constructor
  · rintro ⟨ret', name', hrun', h⟩
    obtain ⟨rfl, rfl⟩ := Prod.mk.inj (Except.ok.inj (hrun.symm.trans hrun'))
    exact h
  · exact fun h => ⟨ret, name, hrun, h⟩

theorem not_findOk_of_error {e : Overrun}
    (hrun : findBridgeNameById w (some (bridgeOutput lines)) bridgeId result = .error e) :
    ¬ FindOk w lines bridgeId result := by
  rintro ⟨ret, name, hrun', -⟩
  rw [hrun] at hrun'
  cases hrun'

/-- The number of a bridge is read as it. -/
theorem IsBridgeId.toInt_intOf (hroom : (bridgesOf lines).length ≤ MAX_NUM_OF_INTERFACES)
    (h : IsBridgeId (bridgesOf lines).length bridgeId) : (intOf w bridgeId).toInt = valueOfDigits bridgeId :=
  intOf_digits h.1 (h.2.2.trans hroom)

theorem findOk_of_row (hroom : (bridgesOf lines).length ≤ MAX_NUM_OF_INTERFACES)
    (hany : lines = [] ∨ bridgesOf lines ≠ []) {k : Nat} (hk : (intOf w bridgeId).toInt = k) (hpos : 1 ≤ k)
    (hle : k ≤ MAX_NUM_OF_INTERFACES) : FindOk w lines bridgeId result ↔
      (k ≤ (bridgesOf lines).length → AllDigits bridgeId ∧ valueOfDigits bridgeId = k) := by
  have hdiff : EXIT_FAILURE ≠ EXIT_SUCCESS := by decide
  have hrun := find_row w bridgeId result hroom hany
  rw [if_pos (by omega), hk, Int.toNat_natCast] at hrun
  cases hname : (bridgesOf lines)[k - 1]? with
  | none =>
    rw [hname] at hrun
    have hlt := List.getElem?_eq_none_iff.1 hname
    rw [findOk_of_ok hrun]
    refine iff_of_true ⟨iff_of_false hdiff fun h => ?_, fun h => absurd h hdiff⟩ fun h => by omega
    have hval := h.toInt_intOf (w := w) hroom
    have hval' := h.2.2
    omega
  | some name =>
    rw [hname] at hrun
    obtain ⟨hlt, -⟩ := List.getElem?_eq_some_iff.1 hname
    rw [findOk_of_ok hrun]
    constructor
    · intro h _
      have hid := h.1.1 rfl
      have hval := hid.toInt_intOf (w := w) hroom
      exact ⟨hid.1, by omega⟩
    · intro h
      obtain ⟨hd, hval⟩ := h (by omega)
      refine ⟨iff_of_true rfl ⟨hd, by omega, by omega⟩, fun _ => ?_⟩
      rw [hval, hname]

end

/-- **The ids are decided right just where these numbers are rows.** -/
theorem findOk_iff (w : LongWidth) (lines : List BridgeLine) (bridgeId result : List Char) :
    FindOk w lines bridgeId result ↔ Decided w lines bridgeId := by
  have hdiff : EXIT_FAILURE ≠ EXIT_SUCCESS := by decide
  by_cases hroom : (bridgesOf lines).length ≤ MAX_NUM_OF_INTERFACES
  · by_cases hany : lines = [] ∨ bridgesOf lines ≠ []
    · by_cases hrow : 1 ≤ (intOf w bridgeId).toInt ∧ (intOf w bridgeId).toInt ≤ MAX_NUM_OF_INTERFACES
      · obtain ⟨k, hk⟩ := Int.eq_ofNat_of_zero_le (show 0 ≤ (intOf w bridgeId).toInt by omega)
        rw [findOk_of_row hroom hany hk (by omega) (by omega)]
        refine ⟨fun h => ⟨hroom, fun _ => ⟨k, hk, by omega, by omega, h⟩⟩, fun h => ?_⟩
        obtain ⟨k', hk', -, -, h⟩ := h.row hany
        obtain rfl : k = k' := by omega
        exact h
      · have hrun := find_row w bridgeId result hroom hany
        rw [if_neg hrow] at hrun
        refine iff_of_false (not_findOk_of_error hrun) fun h => hrow ?_
        obtain ⟨k, hk, hpos, hle, -⟩ := h.row hany
        omega
    · rw [findOk_of_ok (find_noBridge hroom hany)]
      refine iff_of_true ⟨iff_of_false hdiff fun h => ?_, fun h => absurd h hdiff⟩ ⟨hroom, fun h => absurd h hany⟩
      have hnone : bridgesOf lines = [] := by
        by_contra hne
        exact hany (.inr hne)
      have hpos := h.2.1
      have hle := h.2.2
      rw [hnone, List.length_nil] at hle
      omega
  · exact iff_of_false (not_findOk_of_error (find_overrun hroom)) fun h => hroom h.room

def br0Line : BridgeLine where
  line := ⟨"br0 CIST info".toList, List.forall_iff_forall_mem.1 (by decide), by decide⟩
  bridge := some ⟨"br0".toList, by decide, List.forall_iff_forall_mem.1 (by decide)⟩
  first := by
    rintro _ ⟨⟩
    exact ⟨[], rfl⟩
  other := fun h => nomatch h

/-- For 0 the row before the array is looked at, and `1x` is taken for 1. -/
theorem not_findOk_zero : ¬ FindOk .bits64 [br0Line] "0".toList [] ∧ ¬ FindOk .bits64 [br0Line] "1x".toList [] := by
  have hroom : (bridgesOf [br0Line]).length ≤ MAX_NUM_OF_INTERFACES := by decide
  have hany : [br0Line] = [] ∨ bridgesOf [br0Line] ≠ [] := .inr (by decide)
  constructor
  · refine not_findOk_of_error (e := .read) ?_
    rw [find_row _ _ _ hroom hany, if_neg (by decide +kernel)]
  · intro h
    have hone : (intOf .bits64 "1x".toList).toInt = 1 := by decide +kernel
    have hd := (findOk_of_row hroom hany (k := 1) hone le_rfl (by decide)).1 h le_rfl
    exact absurd (hd.1.2 'x' (by decide)) (by decide)

end TsnSwitch.Tools
