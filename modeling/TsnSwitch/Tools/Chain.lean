/-
How libbase reads the output of a command line tool into an array of texts
(base_linux_tools.c and the combinators, parsers and validators under it).

An object is described by a chain of combinators. The first ones take lines
from the output and run callbacks on each, the others run one callback on the
array. Every callback returns a set of status bits, the bits of the whole
chain are joined, and `get_object` decides from what they join to.
-/
import TsnSwitch.Base.Vids
import TsnSwitch.Lib.Search

namespace TsnSwitch.Tools

open Lib
open Base (MAX_STR_LEN BASE_FIVE BASE_TEN BASE_MAX_VID EXIT_SUCCESS EXIT_FAILURE)

def MAX_NUM_OF_INTERFACES : Nat := 30
def BASE_MAX_NUM_OF_STATIC_FDB_ENTRIES : Nat := 200
def BASE_MAX_ROW_NUM : Nat := max BASE_MAX_VID BASE_MAX_NUM_OF_STATIC_FDB_ENTRIES
def BASE_MAX_COL_NUM : Nat := max MAX_STR_LEN BASE_TEN

/-! ## Status -/

/-- `base_status_t`, bit by bit. -/
@[ext] structure Status where
  failed : Bool
  validationFailed : Bool
  validationSucceeded : Bool
  parsingFailed : Bool
  parsingSucceeded : Bool
  deriving DecidableEq

def BASE_SUCCEEDED : Status := ⟨false, false, false, false, false⟩
def BASE_FAILED : Status := ⟨true, false, false, false, false⟩
def BASE_VALIDATION_FAILED : Status := ⟨false, true, false, false, false⟩
def BASE_VALIDATION_SUCCEEDED : Status := ⟨false, false, true, false, false⟩
def BASE_PARSING_FAILED : Status := ⟨false, false, false, true, false⟩
def BASE_PARSING_SUCCEEDED : Status := ⟨false, false, false, false, true⟩

instance : OrOp Status where
  or s t := ⟨s.failed || t.failed, s.validationFailed || t.validationFailed,
    s.validationSucceeded || t.validationSucceeded, s.parsingFailed || t.parsingFailed,
    s.parsingSucceeded || t.parsingSucceeded⟩

/-- The status `get_object` turns down. -/
def Status.rejected (s : Status) : Bool :=
  (s.validationFailed && !s.validationSucceeded) || (s.parsingFailed && !s.parsingSucceeded) || s = BASE_FAILED

/-! ## The array -/

/-- The numbers of rows and columns the caller passes along. -/
structure Shape where
  rowNum : Nat
  colNum : Nat
  rowNum_pos : 0 < rowNum
  colNum_pos : 0 < colNum

theorem MAX_STR_LEN_pos : 0 < MAX_STR_LEN := by decide

/-- The texts of all rows. A text with `col_num` characters has no NUL. -/
abbrev Matrix := List (List Char)

def zeros (sh : Shape) : Matrix := List.replicate sh.rowNum []

/-- What the C program does outside its objects. -/
inductive Overrun where
  /-- A row at `row_num` is written. -/
  | write
  /-- A text is read beyond its array. -/
  | read
  /-- The copy of the array is too small for it. -/
  | copy
  deriving DecidableEq

/-- The characters of an array, from its first row on. -/
def chars (sh : Shape) (rows : Matrix) : List Char := rows.flatMap (pad sh.colNum)

/-- Write a text to the first empty row. -/
def fillRow (text : List Char) : Matrix → Except Overrun Matrix
  | [] => .error .write
  | row :: rows => if row = [] then .ok (text :: rows) else (fillRow text rows).map (row :: ·)

/-! ## Callbacks -/

inductive Callback where
  | findOnLine
  | isNotOnLine
  | findOnLineAndFillResultArray
  | findAndGetNextWord
  | getFirstWord
  | arrayUniqElements
  | arrayUntilMatchCase
  | arrayDropPunctuation
  | validateStringContent
  | arrayValidateIntervalLowerBound
  | arrayValidateIntervalUpperBound
  deriving DecidableEq

/-- `parser_spec_t`. -/
structure ParserSpec where
  callback : Option Callback
  matchCase : List Char
  deriving DecidableEq

/-- The callbacks of a combinator with one. -/
def single (cb : Callback) (matchCase : String) : List ParserSpec := [⟨some cb, matchCase.toList⟩]

/-- What a callback works on. The line is without the text behind its NUL. -/
structure Scan where
  line : List Char
  rows : Matrix
  deriving DecidableEq

def findOnLineHelper (matchCase line : List Char) : Status :=
  if matchCase = [] then BASE_PARSING_FAILED
  else if (strstr matchCase line).isSome then BASE_PARSING_SUCCEEDED
  else BASE_PARSING_FAILED

/-- The word is cut off where it ends in the line. -/
def baseSetResultArray (sh : Shape) (subStr : List Char) (s : Scan) : Except Overrun (Status × Scan) :=
  let parsedValue := nextWord subStr
  let behind := (subStr.dropWhile isBlank).length - parsedValue.length
  let line := s.line.take (s.line.length - behind)
  if parsedValue = [] then .ok (BASE_PARSING_FAILED, ⟨line, s.rows⟩)
  else (fillRow (parsedValue.take sh.colNum) s.rows).map fun rows => (BASE_PARSING_SUCCEEDED, ⟨line, rows⟩)

def findAndGetNextWord (matchCase : List Char) (sh : Shape) (s : Scan) : Except Overrun (Status × Scan) :=
  if matchCase = [] then .ok (BASE_PARSING_FAILED, s)
  else
    match strstr matchCase s.line with
    | none => .ok (BASE_PARSING_FAILED, s)
    | some subStr => baseSetResultArray sh (subStr.drop matchCase.length) s

/-- The rows that equal none before them. -/
def uniqRows : List (List Char) → Matrix → Matrix
  | _, [] => []
  | seen, row :: rows => if row ∈ seen then uniqRows seen rows else row :: uniqRows (row :: seen) rows

def arrayUniqElements (sh : Shape) (rows : Matrix) : Except Overrun (Status × Matrix) :=
  if BASE_MAX_ROW_NUM * BASE_MAX_COL_NUM < sh.rowNum * sh.colNum then .error .copy
  else
    let uniq := (uniqRows [] (rows.takeWhile (· ≠ []))).map (·.take (sh.colNum - 1))
    .ok (BASE_PARSING_SUCCEEDED, uniq ++ List.replicate (sh.rowNum - uniq.length) [])

/-- The loop has no bound but the first empty row. -/
def untilMatchCaseLoop (matchCase : List Char) (sh : Shape) : Matrix → Except Overrun Matrix
  | [] => .error .read
  | row :: rows =>
    if row = [] then .ok ([] :: rows.map fun _ => [])
    else (untilMatchCaseLoop matchCase sh rows).map
      ((row.takeWhile fun c => !matchCase.contains c).take (sh.colNum - 1) :: ·)

/-- The shapes for which `array_until_match_case` has a copy. -/
def Shape.hasCopy (sh : Shape) : Bool :=
  (sh.rowNum = MAX_NUM_OF_INTERFACES && sh.colNum = MAX_STR_LEN) ||
    (sh.rowNum = BASE_MAX_VID && (sh.colNum = BASE_TEN || sh.colNum = MAX_STR_LEN || sh.colNum = BASE_FIVE))

def arrayUntilMatchCase (matchCase : List Char) (sh : Shape) (rows : Matrix) : Except Overrun (Status × Matrix) :=
  if !sh.hasCopy then .ok (BASE_PARSING_FAILED, rows)
  else if matchCase = [] then .ok (BASE_PARSING_FAILED, zeros sh)
  else (untilMatchCaseLoop matchCase sh rows).map fun rows => (BASE_PARSING_SUCCEEDED, rows)

/-- `ispunct`. -/
def isPunct (c : Char) : Bool := (33 ≤ c.toNat && c.toNat ≤ 126) && !c.isAlphanum

def dropPunctuationLoop (sh : Shape) : Matrix → Except Overrun Matrix
  | [] => .ok []
  | row :: rows =>
    if row = [] then .ok (row :: rows)
    else if sh.colNum ≤ row.length then .error .read
    else (dropPunctuationLoop sh rows).map (row.filter (fun c => !isPunct c) :: ·)

def arrayDropPunctuation (sh : Shape) (rows : Matrix) : Except Overrun (Status × Matrix) :=
  (dropPunctuationLoop sh rows).map fun rows' =>
    (if (rows'.take (rows.takeWhile (· ≠ [])).length).all (· = []) then BASE_PARSING_FAILED
      else BASE_PARSING_SUCCEEDED, rows')

/-- Only the first row is looked at. -/
def validateStringContent (matchCase : List Char) (sh : Shape) (rows : Matrix) : Status :=
  if matchCase.take sh.colNum ≠ rows.headD [] then BASE_VALIDATION_FAILED else BASE_VALIDATION_SUCCEEDED

/-- The bits of a success are set first and stay. -/
def arrayValidateIntervalHelper (lower : Bool) (bound : Int) (sh : Shape) : Matrix → Except Overrun Status
  | [] => .ok BASE_VALIDATION_SUCCEEDED
  | row :: rows =>
    if row = [] then .ok BASE_VALIDATION_SUCCEEDED
    else
      match strtol (chars sh (row :: rows)) with
      | none => .error .read
      | some value =>
        if (if lower then value < bound else bound < value) then
          .ok (BASE_VALIDATION_SUCCEEDED ||| BASE_VALIDATION_FAILED)
        else arrayValidateIntervalHelper lower bound sh rows

/-- The value of the match case of a bound. -/
def boundOf (matchCase : List Char) : Int := (strtol (pad MAX_STR_LEN matchCase)).getD 0

def Callback.run (matchCase : List Char) (sh : Shape) (s : Scan) : Callback → Except Overrun (Status × Scan)
  | .findOnLine => .ok (findOnLineHelper matchCase s.line, s)
  | .isNotOnLine =>
    .ok (if findOnLineHelper matchCase s.line = BASE_PARSING_SUCCEEDED then BASE_PARSING_FAILED
      else BASE_PARSING_SUCCEEDED, s)
  | .findOnLineAndFillResultArray =>
    let status := findOnLineHelper matchCase s.line
    .ok (status, if status = BASE_PARSING_SUCCEEDED then ⟨s.line, s.rows.set 0 (matchCase.take sh.colNum)⟩ else s)
  | .findAndGetNextWord => Tools.findAndGetNextWord matchCase sh s
  | .getFirstWord => baseSetResultArray sh s.line s
  | .arrayUniqElements => (Tools.arrayUniqElements sh s.rows).map fun (status, rows) => (status, ⟨s.line, rows⟩)
  | .arrayUntilMatchCase =>
    (Tools.arrayUntilMatchCase matchCase sh s.rows).map fun (status, rows) => (status, ⟨s.line, rows⟩)
  | .arrayDropPunctuation =>
    (Tools.arrayDropPunctuation sh s.rows).map fun (status, rows) => (status, ⟨s.line, rows⟩)
  | .validateStringContent => .ok (Tools.validateStringContent matchCase sh s.rows, s)
  | .arrayValidateIntervalLowerBound =>
    (arrayValidateIntervalHelper true (boundOf matchCase) sh s.rows).map fun status => (status, s)
  | .arrayValidateIntervalUpperBound =>
    (arrayValidateIntervalHelper false (boundOf matchCase) sh s.rows).map fun status => (status, s)

/-! ## Lines -/

/-- What `fgets` reads, call after call: a line with its newline, or as much
of it as the buffer takes. `room` is left for the piece begun. -/
def fgetsPieces (room : Nat) (piece : List Char) : List Char → List (List Char)
  | [] => if piece = [] then [] else [piece]
  | c :: text =>
    if c = '\n' ∨ room ≤ 1 then (piece ++ [c]) :: fgetsPieces (MAX_STR_LEN - 1) [] text
    else fgetsPieces (room - 1) (piece ++ [c]) text

/-- A text up to its NUL. -/
def cString (buf : List Char) : List Char := buf.takeWhile (· ≠ NUL)

def terminateString (str : List Char) : List Char := (cString str).takeWhile (· ≠ '\n')

/-- All pieces of the output. -/
def piecesOf (output : List Char) : List (List Char) := fgetsPieces (MAX_STR_LEN - 1) [] output

/-! ## Combinators -/

/-- The pieces not read yet and the array. -/
structure Stream where
  output : List (List Char)
  rows : Matrix
  deriving DecidableEq

/-- The callbacks on one line, until one does not find what it looks for. -/
def checkLine (sh : Shape) : List ParserSpec → Status → Scan → Except Overrun (Status × Scan)
  | [], status, s => .ok (status, s)
  | p :: ps, status, s =>
    if status.failed then .ok (status, s)
    else
      match p.callback with
      | none => .ok (status ||| BASE_FAILED, s)
      | some cb => do
        let (callbackStatus, s) ← cb.run p.matchCase sh s
        if callbackStatus.parsingFailed then .ok (status ||| callbackStatus, s)
        else checkLine sh ps (status ||| callbackStatus) s

/-- The line loop of `base_combinator_helper`. A bad status of a validator
leaves a `switch`, not the loop. -/
def repeatLines (sh : Shape) (ps : List ParserSpec) : List (List Char) → Status → Matrix →
    Except Overrun (Status × Matrix)
  | [], status, rows => .ok (status, rows)
  | piece :: output, status, rows => do
    let (status, s) ← checkLine sh ps status ⟨terminateString piece, rows⟩
    repeatLines sh ps output status s.rows

def repeatUntilNullWithCheck (sh : Shape) (ps : List ParserSpec) (s : Stream) : Except Overrun (Status × Stream) := do
  let (status, rows) ← repeatLines sh ps s.output BASE_SUCCEEDED s.rows
  .ok (if status.parsingSucceeded then { status with parsingFailed := false } else status, ⟨[], rows⟩)

/-- The callbacks on one line of `AND_combinator`, `none` for a line that
does not pass all of them. -/
def andLine (sh : Shape) : List ParserSpec → Status → Scan → Except Overrun (Option Status × Scan)
  | [], status, s => .ok (some status, s)
  | p :: ps, status, s =>
    if status.failed then .ok (none, s)
    else
      match p.callback with
      | none => .ok (none, s)
      | some cb => do
        let (callbackStatus, s) ← cb.run p.matchCase sh s
        if callbackStatus.parsingFailed then .ok (none, s)
        else andLine sh ps (status ||| callbackStatus) s

/-- The first line that passes ends the loop. -/
def andLines (sh : Shape) (ps : List ParserSpec) : List (List Char) → Matrix → Except Overrun (Status × Stream)
  | [], rows => .ok (BASE_FAILED, ⟨[], rows⟩)
  | piece :: output, rows => do
    match ← andLine sh ps BASE_SUCCEEDED ⟨terminateString piece, rows⟩ with
    | (some status, s) => .ok (if status = BASE_SUCCEEDED then BASE_FAILED else status, ⟨output, s.rows⟩)
    | (none, s) => andLines sh ps output s.rows

def orLoop (sh : Shape) : List ParserSpec → Status → Scan → Except Overrun (Status × Scan)
  | [], status, s => .ok (status, s)
  | p :: ps, status, s =>
    if status.failed then .ok (status, s)
    else
      match p.callback with
      | none => .ok (status ||| BASE_FAILED, s)
      | some cb => do
        let (callbackStatus, s) ← cb.run p.matchCase sh s
        let status := status ||| callbackStatus
        if status.parsingSucceeded || status.validationSucceeded then .ok (status, s) else orLoop sh ps status s

/-- One line is read. The status of a missing one is overwritten before it is
looked at, and the line is empty then. -/
def orCombinator (sh : Shape) (ps : List ParserSpec) (s : Stream) : Except Overrun (Status × Stream) := do
  let (status, scan) ← orLoop sh ps BASE_SUCCEEDED ⟨cString (s.output.headD []), s.rows⟩
  .ok (status, ⟨s.output.tail, scan.rows⟩)

/-- Always the first callback. -/
def noCombinator (sh : Shape) (ps : List ParserSpec) (s : Stream) : Except Overrun (Status × Stream) :=
  match ps.head?.bind ParserSpec.callback with
  | none => .ok (BASE_FAILED, s)
  | some cb => do
    let (status, scan) ← cb.run ((ps.head?.map ParserSpec.matchCase).getD []) sh ⟨[], s.rows⟩
    .ok (status, { s with rows := scan.rows })

inductive Combinator where
  | repeatUntilNullWithCheck
  | andCombinator
  | orCombinator
  | noCombinator
  deriving DecidableEq

def Combinator.run (sh : Shape) (ps : List ParserSpec) (s : Stream) :
    Combinator → Except Overrun (Status × Stream)
  | .repeatUntilNullWithCheck => Tools.repeatUntilNullWithCheck sh ps s
  | .andCombinator => andLines sh ps s.output s.rows
  | .orCombinator => Tools.orCombinator sh ps s
  | .noCombinator => Tools.noCombinator sh ps s

/-- `sys_call_spec_t` without the command: the combinators behind
`combinator_comb`, which all objects have first, and the callbacks of each. -/
abbrev SysCallSpec := List (Option Combinator × List ParserSpec)

def combinatorComb (sh : Shape) : SysCallSpec → Status → Stream → Except Overrun (Status × Stream)
  | [], status, s => .ok (status, s)
  | (none, _) :: _, _, s => .ok (BASE_FAILED, s)
  | (some comb, ps) :: spec, status, s => do
    let (combStatus, s) ← comb.run sh ps s
    let status := status ||| combStatus
    if status.failed then .ok (status, s) else combinatorComb sh spec status s

/-! ## Objects -/

/-- There is no output when no pipe is opened. -/
def getStrSysCall (spec : SysCallSpec) (sh : Shape) (output : Option (List Char)) (rows : Matrix) :
    Except Overrun (Status × Matrix) :=
  match output with
  | none => .ok (BASE_FAILED, rows)
  | some text => (combinatorComb sh spec BASE_SUCCEEDED ⟨piecesOf text, rows⟩).map fun (status, s) => (status, s.rows)

/-- `get_object` on the descriptor of an object and the output of its tool. -/
def getObject (spec : SysCallSpec) (sh : Shape) (output : Option (List Char)) : Except Overrun (Nat × Matrix) :=
  (getStrSysCall spec sh output (zeros sh)).map fun (status, rows) =>
    if status.rejected then (EXIT_FAILURE, zeros sh) else (EXIT_SUCCESS, rows)

end TsnSwitch.Tools
