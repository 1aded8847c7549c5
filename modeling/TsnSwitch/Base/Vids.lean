/-
Lists of VLAN ids as text (base_linux_tool_helpers.c): numbers and intervals
separated by commas. One function writes the numbers to the rows of an array,
two others validate a list.

All three copy the bounds of an interval into two buffers of five characters
that they never clear. Pointers into the text are positions in it.
-/
import TsnSwitch.Lib.CString

namespace TsnSwitch.Base

open Lib

def MAX_STR_LEN : Nat := 255
def BASE_FIVE : Nat := 5
def BASE_TEN : Nat := 10
def BASE_MAX_VID : Nat := 4096
def BASE_MIN_VID : Int := 0
def EXIT_SUCCESS : Nat := 0
def EXIT_FAILURE : Nat := 1

/-- Where the C program leaves its objects. -/
inductive Fault where
  /-- The difference of a pointer and `NULL` is the length of a copy. -/
  | pointer
  /-- An element does not fit `sub_str` with its NUL. -/
  | subStr
  /-- A number runs over the end of `min_str` or `max_str`. -/
  | bound
  /-- A row at or beyond `row_num` is written. -/
  | row
  deriving DecidableEq

/-- `min_str` and `max_str`. -/
structure Bufs where
  minStr : List Char
  maxStr : List Char
  deriving DecidableEq

def Bufs.cleared : Bufs := ⟨pad BASE_FIVE [], pad BASE_FIVE []⟩

/-- The bounds of an interval. `none` where the caller gives up: a bound is
too long, or the upper one is lower than the lower one. -/
def intervalBounds (b : Bufs) (lo hi : List Char) : Except Fault (Option (Bufs × Int × Int)) :=
  if BASE_FIVE < lo.length ∨ BASE_FIVE < hi.length then .ok none
  else
    let b : Bufs := ⟨strncpy b.minStr lo, strncpy b.maxStr hi⟩
    match strtol b.minStr, strtol b.maxStr with
    | some min, some max => .ok (if max < min then none else some (b, min, max))
    | _, _ => .error .bound

/-! ## The array -/

/-- The rows written so far, the first first. `j` is their number; the other
rows are zero. -/
abbrev Rows := List (List Char)

/-- The locals of `assemble_vids_as_array` that outlive an element. -/
structure Locals where
  bufs : Bufs
  rows : Rows
  deriving DecidableEq

/-- Whether the loop over the elements goes on. -/
inductive Flow where
  | next (l : Locals)
  | done (rows : Rows)
  deriving DecidableEq

def Flow.rows : Flow → Rows
  | .next l => l.rows
  | .done rows => rows

def isSubInterval (s : List Char) : Bool := s.contains '-'

/-- The position of the last minus. -/
def lastMinus : List Char → Nat → Nat → Nat
  | [], _, minus => minus
  | c :: s, i, minus => lastMinus s (i + 1) (if c = '-' then i else minus)

/-- `for (i = min; i <= max; i++)`. -/
def vidRange (min max : Int) : List Int :=
  (List.range (max - min + 1).toNat).map fun k : Nat => min + k

/-- Write texts to the next rows. The row is written before its number is
compared with `row_num`. -/
def writeRows (rowNum colNum : Nat) : Rows → List (List Char) → Except Fault Rows
  | rows, [] => .ok rows
  | rows, text :: texts =>
    if rows.length < rowNum then writeRows rowNum colNum (rows ++ [text.take (colNum - 1)]) texts
    else .error .row

/-- One element, without the commas around it. -/
def takeElement (rowNum colNum : Nat) (l : Locals) (subStr : List Char) : Except Fault Flow :=
  if isSubInterval subStr then
    let minus := lastMinus subStr 0 0
    match intervalBounds l.bufs (subStr.take minus) (subStr.drop (minus + 1)) with
    | .error fault => .error fault
    | .ok none => .ok (.done l.rows)
    | .ok (some (bufs, min, max)) =>
      (writeRows rowNum colNum l.rows ((vidRange min max).map decimal)).map fun rows => .next ⟨bufs, rows⟩
  else (writeRows rowNum colNum l.rows [subStr]).map fun rows => .next { l with rows }

/-- The element between the positions, `subStrEnd` being `NULL` until one
character has been passed. -/
def takeSubStr (rowNum colNum : Nat) (vids : List Char) (subStrStart : Nat) (subStrEnd : Option Nat) (l : Locals) :
    Except Fault Flow :=
  match subStrEnd with
  | none => .error .pointer
  | some subStrEnd =>
    let n := subStrEnd + 1 - subStrStart
    if BASE_TEN ≤ n then .error .subStr
    else takeElement rowNum colNum l ((vids.drop subStrStart).take n)

/-- The loop over the characters, `ptr` being those from position
`subStrPtr` on. -/
def scan (rowNum colNum : Nat) (vids : List Char) :
    List Char → Nat → Nat → Option Nat → Locals → Except Fault Flow
  | [], _, subStrStart, subStrEnd, l => takeSubStr rowNum colNum vids subStrStart subStrEnd l
  | c :: ptr, subStrPtr, subStrStart, subStrEnd, l =>
    if c = ',' then
      match takeSubStr rowNum colNum vids subStrStart subStrEnd l with
      | .ok (.next l) => scan rowNum colNum vids ptr (subStrPtr + 1) (subStrPtr + 1) (some subStrPtr) l
      | r => r
    else scan rowNum colNum vids ptr (subStrPtr + 1) subStrStart (some subStrPtr) l

def Locals.initial : Locals := ⟨.cleared, []⟩

/-- `vids` is `none` for `NULL`. Nothing tells the caller that the function
gave up. -/
def assembleVidsAsArray (rowNum colNum : Nat) (vids : Option (List Char)) : Except Fault Rows :=
  match vids with
  | none => .ok []
  | some vids =>
    if MAX_STR_LEN < vids.length then .ok []
    else (scan rowNum colNum vids vids 0 0 none .initial).map Flow.rows

/-! ## Validation -/

/-- The text between two positions of a text, the second given by what
follows it. -/
def between (start follow : List Char) : List Char := start.take (start.length - follow.length)

mutual

/-- The loop of `does_vids_string_contains_descending_interval`. A position
is given by what follows it. -/
def descendingLoop : List Char → List Char → Bufs → Except Fault Nat
  | [], _, _ => .ok EXIT_SUCCESS
  | c :: tmpVids, minStart, b =>
    if c = '-' then
      if (tmpVids.head?.elim false Char.isDigit) = false then .ok EXIT_FAILURE
      else intervalLoop tmpVids (between minStart (c :: tmpVids)) tmpVids b
    else if c = ',' then descendingLoop tmpVids tmpVids b
    else descendingLoop tmpVids minStart b

/-- The local loop to the end of an interval whose lower bound is `lo`. -/
def intervalLoop : List Char → List Char → List Char → Bufs → Except Fault Nat
  | [], lo, maxStart, b =>
    match intervalBounds b lo maxStart with
    | .error fault => .error fault
    | .ok none => .ok EXIT_FAILURE
    | .ok (some _) => .ok EXIT_SUCCESS
  | c :: tmpVids, lo, maxStart, b =>
    if c = ',' then
      match intervalBounds b lo (between maxStart (c :: tmpVids)) with
      | .error fault => .error fault
      | .ok none => .ok EXIT_FAILURE
      | .ok (some (b, _)) => descendingLoop tmpVids tmpVids b
    else intervalLoop tmpVids lo maxStart b

end

def doesVidsStringContainsDescendingInterval (vids : Option (List Char)) : Except Fault Nat :=
  match vids with
  | none => .ok EXIT_FAILURE
  | some vids =>
    if (vids.head?.elim false Char.isDigit) = false then .ok EXIT_FAILURE
    else descendingLoop vids vids .cleared

/-- The rows up to the first empty one, each a number in range. -/
def checkRows : Rows → Nat
  | [] => EXIT_SUCCESS
  | row :: rows =>
    if row = [] then EXIT_SUCCESS
    else
      -- the NUL ends every number
      let vid := (strtol (row ++ [NUL])).getD 0
      if BASE_MAX_VID ≤ vid ∨ vid < BASE_MIN_VID then EXIT_FAILURE else checkRows rows

def doesVidsStringContainsInvalidVid (vids : Option (List Char)) : Except Fault Nat :=
  (assembleVidsAsArray BASE_MAX_VID BASE_FIVE vids).map checkRows

end TsnSwitch.Base
