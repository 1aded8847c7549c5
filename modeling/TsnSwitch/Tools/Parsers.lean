/-
All the parsers of libbase (base_private_parsers.c).

A parser looks at a line or goes over the array up to its first empty row. The ones
that go over the array rewrite the rows in place or build them anew from a copy.
-/
import TsnSwitch.Lib.Scan
import TsnSwitch.Tools.Parsing

namespace TsnSwitch.Tools

open Lib

/-! ## Parsers of a line -/

/-- The delimiter before the match and the one before the previous word are looked
for backwards, beyond the start of the line where there is none. -/
def findAndGetPreviousWord (matchCase : List Char) (sh : Shape) (s : Scan) : Except Overrun (Status × Scan) :=
  if matchCase = [] then .ok (BASE_PARSING_FAILED, s)
  else
    match strstr matchCase s.line with
    | none => .ok (BASE_PARSING_FAILED, s)
    | some subStr =>
      match (s.line.take (s.line.length - subStr.length)).reverse with
      | [] => .error .read
      | delimiter :: before =>
        if !isSpace delimiter then .ok (BASE_PARSING_FAILED, s)
        else
          match before.dropWhile fun c => !isSpace c with
          | [] => .error .read
          | _ :: start => baseSetResultArray sh (s.line.drop start.length) s

/-- `sscanf(sub_str, "%u%n", ..)`: the number, the characters it took and what is behind. -/
def scanUnsigned (subStr : List Char) : Option (Nat × Nat × List Char) :=
  let number := subStr.dropWhile isSpace
  let digits := number.takeWhile Char.isDigit
  if digits = [] then none
  else some (min (Nat.ofDigitChars 10 digits 0) (2 ^ 64 - 1) % 2 ^ 32,
    subStr.length - number.length + digits.length, number.drop digits.length)

/-- The numbers go to the rows from the first one on. `false` is for a number of too
many digits. -/
def decValuesLoop (sh : Shape) : List Char → Matrix → Bool × Matrix
  | _, [] => (true, [])
  | subStr, row :: rows =>
    match scanUnsigned subStr with
    | none => (true, row :: rows)
    | some (numberValue, bytesRead, rest) =>
      if 10 ≤ bytesRead ∧ numberValue = 0 then (false, row :: rows)
      else
        let (inputFlag, rows) := decValuesLoop sh (rest.dropWhile isSpace) rows
        (inputFlag, (Nat.toDigits 10 numberValue).take (sh.colNum - 1) :: rows)

def parseDecValuesSeparatedWithSpaces (sh : Shape) (s : Scan) : Except Overrun (Status × Scan) :=
  if s.line = [] then .ok (BASE_PARSING_FAILED, s)
  else if s.line.any fun c => !c.isDigit && !isSpace c then .ok (BASE_PARSING_FAILED, ⟨[], s.rows⟩)
  else
    let (inputFlag, rows) := decValuesLoop sh (s.line.dropWhile (· = ' ')) s.rows
    .ok (if inputFlag then BASE_PARSING_SUCCEEDED else BASE_PARSING_FAILED, ⟨s.line, rows⟩)

/-- The line without its leading blanks and its newline. -/
def lineValue (line : List Char) : List Char := (line.dropWhile isBlank).takeWhile (· ≠ '\n')

def getAllLines (sh : Shape) (s : Scan) : Except Overrun (Status × Scan) :=
  let line := s.line.takeWhile isBlank ++ lineValue s.line
  (fillRow ((lineValue s.line).take sh.colNum) s.rows).map fun rows => (BASE_PARSING_SUCCEEDED, ⟨line, rows⟩)

/-! ## Parsers that rewrite rows -/

/-- The value behind the match in a row. -/
def valueAfter (matchCase row : List Char) : List Char :=
  if matchCase = [] then []
  else
    match strstr matchCase row with
    | none => []
    | some subStr =>
      ((subStr.drop matchCase.length).dropWhile fun c => isSpace c || isPunct c).takeWhile fun c =>
        !isSpace c && !isPunct c

/-- A row is cleared before its value is looked for. -/
def takeValueAfterLoop (matchCase : List Char) (sh : Shape) : Matrix → Except Overrun Matrix
  | [] => .ok []
  | row :: rows =>
    if row = [] then .ok (row :: rows)
    else if sh.colNum ≤ row.length then .error .read
    else (takeValueAfterLoop matchCase sh rows).map (valueAfter matchCase row :: ·)

def arrayTakeValueAfter (matchCase : List Char) (sh : Shape) (rows : Matrix) : Except Overrun (Status × Matrix) :=
  (takeValueAfterLoop matchCase sh rows).map fun rows' =>
    (if (rows'.take (rows.takeWhile (· ≠ [])).length).all (· = []) then BASE_PARSING_FAILED
      else BASE_PARSING_SUCCEEDED, rows')

/-- `base_parser_op_t` of the parsers here. -/
inductive ParserOp where
  | and
  | multiply
  | shiftRight
  | convertHexToLongInt
  deriving DecidableEq

/-- The operation in `long`. -/
def ParserOp.eval (op : ParserOp) (value matchCaseValue : Int) : Int :=
  let a := BitVec.ofInt 64 value
  let b := BitVec.ofInt 64 matchCaseValue
  match op with
  | .and => (a &&& b).toInt
  | .multiply => (a * b).toInt
  | .shiftRight => (a.sshiftRight (b.toNat % 64)).toInt
  | .convertHexToLongInt => a.toInt

def isHexDigit (c : Char) : Bool := c.isDigit || ('a' ≤ c && c ≤ 'f') || ('A' ≤ c && c ≤ 'F')

def isStringValidHexOrInt (value : Int) (string : List Char) : Bool := value ≠ 0 || string.all isHexDigit

/-- The rows, and whether one was converted. The first invalid row ends the loop. -/
def maskLoop (op : ParserOp) (base : Nat) (matchCaseValue : Int) (sh : Shape) : Matrix → Except Overrun (Bool × Matrix)
  | [] => .ok (false, [])
  | row :: rows =>
    if row = [] then .ok (false, row :: rows)
    else if sh.colNum ≤ row.length then .error .read
    else
      let value := (strtolEnd base row).1
      if !isStringValidHexOrInt value row then .ok (false, row :: rows)
      else
        (maskLoop op base matchCaseValue sh rows).map fun (_, rows) =>
          (true, (decimal (op.eval value matchCaseValue)).take (sh.colNum - 1) :: rows)

def baseCheckMaskAndSetResultArray (matchCase : List Char) (op : ParserOp) (base : Nat) (sh : Shape) (rows : Matrix) :
    Except Overrun (Status × Matrix) :=
  let matchCaseValue := (strtolEnd base matchCase).1
  if op ≠ .convertHexToLongInt ∧ (matchCase = [] ∨ !isStringValidHexOrInt matchCaseValue matchCase) then
    .ok (BASE_PARSING_FAILED, rows)
  else
    (maskLoop op base matchCaseValue sh rows).map fun (processed, rows) =>
      (if processed then BASE_PARSING_SUCCEEDED else BASE_PARSING_FAILED, rows)

/-- The NUL goes to the column `value`, which behind the last column is the next row's
first. The number of rows is counted. -/
def shrinkLoop (value : Nat) (sh : Shape) : Matrix → Except Overrun (Nat × Matrix)
  | [] => .ok (0, [])
  | row :: rows =>
    if row = [] then .ok (0, row :: rows)
    else if value < sh.colNum then (shrinkLoop value sh rows).map fun (i, rows) => (i + 1, row.take value :: rows)
    else if rows = [] then .error .write
    else .ok (1, row :: [] :: rows.tail)

def arrayShrinkString (matchCase : List Char) (sh : Shape) (rows : Matrix) : Except Overrun (Status × Matrix) :=
  if matchCase = [] then .ok (BASE_PARSING_FAILED, rows)
  else
    let value := (strtolEnd 10 matchCase).1
    if sh.colNum < value then .ok (BASE_PARSING_FAILED, rows)
    else if value < 0 then
      -- the NUL goes before the array, unless there is no row to shrink
      if rows.headD [] = [] then .ok (BASE_PARSING_FAILED, rows) else .error .write
    else
      (shrinkLoop value.toNat sh rows).map fun (i, rows) =>
        (if 1 ≤ i then BASE_PARSING_SUCCEEDED else BASE_PARSING_FAILED, rows)

/-! ## Parsers that build the rows anew -/

/-- The copy has room for the array. -/
def copied (sh : Shape) (f : Except Overrun Matrix) : Except Overrun (Status × Matrix) :=
  if BASE_MAX_ROW_NUM * BASE_MAX_COL_NUM < sh.rowNum * sh.colNum then .error .copy
  else f.map fun out => (BASE_PARSING_SUCCEEDED, filled sh.rowNum out)

def arrayDeleteElement (matchCase : List Char) (sh : Shape) (rows : Matrix) : Except Overrun (Status × Matrix) :=
  copied sh (.ok ((rows.takeWhile (· ≠ [])).filter fun row => matchCase.take sh.colNum ≠ row))

def arrayCountElements (sh : Shape) (rows : Matrix) : Except Overrun (Status × Matrix) :=
  copied sh (.ok [(Nat.toDigits 10 (rows.takeWhile (· ≠ [])).length).take (sh.colNum - 1)])

/-- The next row is looked at before it is known to be one of the array. -/
def takeValuesAfterLoop (matchCase : List Char) (sh : Shape) : Bool → Matrix → Except Overrun Matrix
  | _, [] => .ok []
  | matchCaseFlag, row :: rows =>
    if row = [] then .ok []
    else if sh.colNum ≤ row.length then .error .read
    else if matchCaseFlag || (strstr matchCase row).isSome then
      if rows = [] then .error .read
      else (takeValuesAfterLoop matchCase sh true rows).map ((rows.headD []).take (sh.colNum - 1) :: ·)
    else takeValuesAfterLoop matchCase sh false rows

def arrayTakeValuesAfterMatchCase (matchCase : List Char) (sh : Shape) (rows : Matrix) :
    Except Overrun (Status × Matrix) := copied sh (takeValuesAfterLoop matchCase sh false rows)

def takeValuesBeforeLoop (matchCase : List Char) (sh : Shape) : Matrix → Except Overrun Matrix
  | [] => .ok []
  | row :: rows =>
    if row = [] then .ok []
    else if sh.colNum ≤ row.length then .error .read
    else if (strstr matchCase row).isSome then .ok []
    else (takeValuesBeforeLoop matchCase sh rows).map (row.take (sh.colNum - 1) :: ·)

def arrayTakeValuesBeforeMatchCase (matchCase : List Char) (sh : Shape) (rows : Matrix) :
    Except Overrun (Status × Matrix) := copied sh (takeValuesBeforeLoop matchCase sh rows)

/-! ## All of them -/

/-- `arrayWriteToFile` has whether the file can be opened. -/
inductive Parser where
  | findOnLine
  | isNotOnLine
  | findOnLineAndFillResultArray
  | findAndGetNextWord
  | findAndGetPreviousWord
  | getFirstWord
  | parseDecValuesSeparatedWithSpaces
  | getAllLines
  | arrayTakeValueAfter
  | arrayDropPunctuation
  | arrayDeleteElement
  | arrayBitwiseAndMask
  | arrayMultiplyLongIntWith
  | arrayShiftRight
  | arrayConvertHexStringToLongInt
  | arrayShrinkString
  | arrayUniqElements
  | arrayCountElements
  | arrayUntilMatchCase
  | arrayTakeValuesAfterMatchCase
  | arrayTakeValuesBeforeMatchCase
  | arrayWriteToFile (opened : Bool)
  deriving DecidableEq

/-- A parser of the array leaves the line alone. -/
def onRows (s : Scan) (f : Matrix → Except Overrun (Status × Matrix)) : Except Overrun (Status × Scan) :=
  (f s.rows).map fun (status, rows) => (status, ⟨s.line, rows⟩)

def Parser.run (matchCase : List Char) (sh : Shape) (s : Scan) : Parser → Except Overrun (Status × Scan)
  | .findOnLine => Callback.run matchCase sh s .findOnLine
  | .isNotOnLine => Callback.run matchCase sh s .isNotOnLine
  | .findOnLineAndFillResultArray => Callback.run matchCase sh s .findOnLineAndFillResultArray
  | .findAndGetNextWord => Tools.findAndGetNextWord matchCase sh s
  | .findAndGetPreviousWord => Tools.findAndGetPreviousWord matchCase sh s
  | .getFirstWord => baseSetResultArray sh s.line s
  | .parseDecValuesSeparatedWithSpaces => Tools.parseDecValuesSeparatedWithSpaces sh s
  | .getAllLines => Tools.getAllLines sh s
  | .arrayTakeValueAfter => onRows s (Tools.arrayTakeValueAfter matchCase sh)
  | .arrayDropPunctuation => onRows s (Tools.arrayDropPunctuation sh)
  | .arrayDeleteElement => onRows s (Tools.arrayDeleteElement matchCase sh)
  | .arrayBitwiseAndMask => onRows s (baseCheckMaskAndSetResultArray matchCase .and 16 sh)
  | .arrayMultiplyLongIntWith => onRows s (baseCheckMaskAndSetResultArray matchCase .multiply 10 sh)
  | .arrayShiftRight => onRows s (baseCheckMaskAndSetResultArray matchCase .shiftRight 16 sh)
  | .arrayConvertHexStringToLongInt => onRows s (baseCheckMaskAndSetResultArray [] .convertHexToLongInt 16 sh)
  | .arrayShrinkString => onRows s (Tools.arrayShrinkString matchCase sh)
  | .arrayUniqElements => onRows s (Tools.arrayUniqElements sh)
  | .arrayCountElements => onRows s (Tools.arrayCountElements sh)
  | .arrayUntilMatchCase => onRows s (Tools.arrayUntilMatchCase matchCase sh)
  | .arrayTakeValuesAfterMatchCase => onRows s (Tools.arrayTakeValuesAfterMatchCase matchCase sh)
  | .arrayTakeValuesBeforeMatchCase => onRows s (Tools.arrayTakeValuesBeforeMatchCase matchCase sh)
  | .arrayWriteToFile opened => .ok (if opened then BASE_PARSING_SUCCEEDED else BASE_PARSING_FAILED, s)

/-- Two rows of ten columns. -/
def shortShape : Shape := ⟨2, 10, Nat.two_pos, Nat.succ_pos 9⟩

end TsnSwitch.Tools
