/-
The gate control list files of the command line tool, with a record in a line.

The lists of the ports and those of the stream gates have files of their own. They
differ in the operations and in the numbers of a record, and are read and
written by the same loops.
-/
import TsnSwitch.Errno
import TsnSwitch.Lib.Scan

namespace TsnSwitch.Gcf

open Lib

def MAX_REC : Nat := 100 + 1

def UINT8_MAX : Nat := 255
def INT8_MIN : Int := -128
def INT8_MAX : Int := 127

def GCF_OP_UNKNOWN : List Char := "<unknown>".toList

/-! ## Records -/

/-- What `parse_record` does: fill the entry, return an error, or write to an entry
that is not in the array. -/
inductive Parsed (E : Type) where
  | stored (e : E)
  | error (errno : Int)
  | outside
  deriving DecidableEq

def parseInterval (tok : List Char) : Option (BitVec 32) :=
  let (interval, endptr) := strtoulEnd 10 tok
  if tok ≠ [] ∧ endptr ≠ [] then none else some (interval.setWidth 32)

def parseGsv (tok : List Char) : Option (BitVec 8) :=
  let (gsv, endptr) := strtoulEnd 0 tok
  if tok ≠ [] ∧ endptr ≠ [] then none
  else if gsv.toNat > UINT8_MAX then none
  else some (gsv.setWidth 8)

def parseIpv (tok : List Char) : Option (BitVec 8) :=
  let (ipv, endptr) := strtolEnd 0 tok
  if tok ≠ [] ∧ endptr ≠ [] then none
  else if ipv < INT8_MIN ∨ ipv > INT8_MAX then none
  else some (BitVec.ofInt 8 ipv)

/-- What the files of one kind have of their own. -/
structure Format (E : Type) where
  op : List Char → Option (BitVec 8)
  /-- The words behind the operation. -/
  entry : BitVec 8 → List Char → Option E

/-- `room` is whether the entry is in the array. -/
def parseRecord {E : Type} (fmt : Format E) (room : Bool) (s : List Char) : Parsed E :=
  match strtok ' ' s with
  | none => .error EINVAL
  | some (tok, s) =>
    match fmt.op tok with
    | some op =>
      if room then
        match fmt.entry op s with
        | none => .error EINVAL
        | some e => .stored e
      else .outside
    | none => if tok = GCF_OP_UNKNOWN then .error ENOENT else .error EINVAL

/-! ## Files -/

/-- What the calls of `fgets(gce, MAX_REC, fp)` give, with `room` left in the first. -/
def fgetsAll : Nat → List Char → List (List Char)
  | _, [] => []
  | room, c :: cs =>
    if c = '\n' ∨ room ≤ 1 then [c] :: fgetsAll (MAX_REC - 1) cs
    else
      match fgetsAll (room - 1) cs with
      | [] => [[c]]
      | l :: ls => (c :: l) :: ls

/-- The text in a buffer. -/
def cstr (buf : List Char) : List Char := buf.takeWhile (· ≠ NUL)

def trim (str : List Char) : List Char := (str.dropWhile isSpace).rdropWhile isSpace

/-- What `read_gcf` returns: the list, or NULL. -/
inductive Gcl (E : Type) where
  | gcl (es : List E)
  | null
  | outside
  deriving DecidableEq

def readLoop {E : Type} (fmt : Format E) (nlines : Nat) : List (List Char) → List E → Gcl E
  | [], gcl => .gcl gcl
  | gce :: gces, gcl =>
    let trimmedGce := trim (cstr gce)
    if trimmedGce = [] then readLoop fmt nlines gces gcl
    else if trimmedGce.head? = some '#' then readLoop fmt nlines gces gcl
    else
      match parseRecord fmt (gcl.length < nlines) trimmedGce with
      | .stored e => readLoop fmt nlines gces (gcl ++ [e])
      | .error errno => if errno = ENOENT then readLoop fmt nlines gces gcl else .null
      | .outside => .outside

/-- The lines of a file, and one more, as they are counted. -/
def countLines (file : List Char) : BitVec 32 := BitVec.ofNat 32 (file.count '\n' + 1)

def readGcf {E : Type} (fmt : Format E) (file : List Char) (maxLen : BitVec 32) : Gcl E :=
  let nlines := if countLines file > maxLen then maxLen else countLines file
  readLoop fmt nlines.toNat (fgetsAll (MAX_REC - 1) file) []

/-! ## Ports -/

def GCF_OP_SGS : List Char := "sgs".toList
def GCF_OP_SHM : List Char := "shm".toList
def GCF_OP_SRM : List Char := "srm".toList

def TSN_ST_OP_SET_GATE_STATES : BitVec 8 := 0
def TSN_ST_OP_SET_AND_HOLD_MAC : BitVec 8 := 1
def TSN_ST_OP_SET_AND_RELEASE_MAC : BitVec 8 := 2
def TSN_ST_OP_EXCESS : BitVec 8 := 0xff

structure StGateControlEntry where
  interval : BitVec 32
  op : BitVec 8
  gsv : BitVec 8
  deriving DecidableEq

def stFormat : Format StGateControlEntry where
  op tok :=
    if tok = GCF_OP_SGS then some TSN_ST_OP_SET_GATE_STATES
    else if tok = GCF_OP_SHM then some TSN_ST_OP_SET_AND_HOLD_MAC
    else if tok = GCF_OP_SRM then some TSN_ST_OP_SET_AND_RELEASE_MAC
    else none
  entry op s := do
    let (tok, s) ← strtok ' ' s
    let interval ← parseInterval tok
    let (tok, s) ← strtok ' ' s
    let gsv ← parseGsv tok
    -- excess record elements
    if (strtok ' ' s).isSome then none else some ⟨interval, op, gsv⟩

def stReadGcf (file : List Char) (maxLen : BitVec 32) : Gcl StGateControlEntry := readGcf stFormat file maxLen

def stGcfOp (op : BitVec 8) : List Char :=
  if op = TSN_ST_OP_SET_GATE_STATES then GCF_OP_SGS
  else if op = TSN_ST_OP_SET_AND_HOLD_MAC then GCF_OP_SHM
  else if op = TSN_ST_OP_SET_AND_RELEASE_MAC then GCF_OP_SRM
  else GCF_OP_UNKNOWN

def stWriteGcf (gcl : List StGateControlEntry) : List Char :=
  gcl.flatMap fun e =>
    if e.op = TSN_ST_OP_EXCESS then []
    else
      stGcfOp e.op ++ "  ".toList ++ Nat.toDigits 10 e.interval.toNat ++ "  0x".toList ++ printHex2 e.gsv.toNat ++ ['\n']

/-! ## Stream gates -/

def GCF_OP_SGI : List Char := "sgi".toList

def TSN_PSFP_GT_OP_SET_GATE_AND_IPV : BitVec 8 := 0

/-- `ipv` is signed. -/
structure PsfpGateControlEntry where
  interval : BitVec 32
  op : BitVec 8
  gsv : BitVec 8
  ipv : BitVec 8
  deriving DecidableEq

def psfpFormat : Format PsfpGateControlEntry where
  op tok := if tok = GCF_OP_SGI then some TSN_PSFP_GT_OP_SET_GATE_AND_IPV else none
  entry op s := do
    let (tok, s) ← strtok ' ' s
    let interval ← parseInterval tok
    let (tok, s) ← strtok ' ' s
    let gsv ← parseGsv tok
    let (tok, s) ← strtok ' ' s
    let ipv ← parseIpv tok
    -- excess record elements
    if (strtok ' ' s).isSome then none else some ⟨interval, op, gsv, ipv⟩

def psfpReadGcf (file : List Char) (maxLen : BitVec 32) : Gcl PsfpGateControlEntry := readGcf psfpFormat file maxLen

def psfpGcfOp (op : BitVec 8) : List Char :=
  if op = TSN_PSFP_GT_OP_SET_GATE_AND_IPV then GCF_OP_SGI else GCF_OP_UNKNOWN

def psfpWriteGcf (gcl : List PsfpGateControlEntry) : List Char :=
  gcl.flatMap fun e =>
    psfpGcfOp e.op ++ "  ".toList ++ Nat.toDigits 10 e.interval.toNat ++ "  0x".toList ++ printHex2 e.gsv.toNat ++
      " ".toList ++ decimal e.ipv.toInt ++ ['\n']

end TsnSwitch.Gcf
