/-
Stream identification over the FDB (edge_br_sid.c): the streams the driver
knows, kept in a tree by stream handle, and the four writes that change them.

A stream is put into the FDB when it has both its identification and a port.
`valid_fdb` remembers that this was done.
-/
import TsnSwitch.Fdb.Separate

namespace TsnSwitch.StreamId

open Fdb Lib

abbrev Handle := BitVec 16

def SID_VID_MAX : BitVec 16 := 4094
def SID_INVALID_RBT : BitVec 16 := 0xFFFF

/-- `enum sid_ident_type` and `enum sid_tag`, the values the driver names. -/
def SID_UNKNOWN : Nat := 0
def SID_NULL : Nat := 1
def SID_TAGGED : Nat := 1

/-- `enum sid_pos`, the one supported position. -/
def OUT_FAC_IN : Nat := 3

/-- `struct edgx_sid`. Its stream handle is the tree's key. -/
structure EdgxSid where
  addr : Mac
  vid : BitVec 16
  idType : Nat
  portMask : BitVec 16
  validFdb : Bool
  deriving DecidableEq

/-- `struct edgx_sid_br` with the bridge's number of ports and its FDB. -/
structure EdgxSidBr where
  maxStreams : BitVec 16
  numPorts : BitVec 16
  totalCnt : BitVec 16
  sidRoot : Handle → Option EdgxSid
  fdb : Brfdb

/-- `struct port_pos`. -/
structure PortPos where
  port : BitVec 16
  pos : Nat

/-- `struct ident_params`. Its stream handle is not read. -/
structure IdentParams where
  addr : Mac
  tag : Nat
  vid : BitVec 16
  idType : Nat

def EdgxSid.key (sid : EdgxSid) : Key := (sid.addr, sid.vid)

/-- What the FDB reads of a stream. -/
def EdgxSid.toSid (sid : EdgxSid) (strHdl : Handle) : Fdb.Sid := ⟨sid.addr, sid.vid, strHdl, sid.idType⟩

/-- `BIT(port)` of a port number, in a 16-bit mask. -/
def portBit (port : BitVec 16) : BitVec 16 := BIT (port.toNat % 64)

def edgxSidCheckAdd (s : EdgxSidBr) (strHdl : Handle) (add : PortPos) : Int :=
  if s.numPorts < add.port then -EINVAL
  else if add.pos ≠ OUT_FAC_IN then -EINVAL
  else if s.maxStreams ≤ strHdl then -EINVAL
  else 0

def edgxSidCheckIdent (s : EdgxSidBr) (strHdl : Handle) (id : IdentParams) : Int :=
  if id.idType ≠ SID_NULL then -EINVAL
  else if id.tag ≠ SID_TAGGED then -EINVAL
  else if id.vid = 0 ∨ SID_VID_MAX < id.vid then -EINVAL
  else if s.maxStreams ≤ strHdl then -EINVAL
  else 0

def edgxSidDelEntry (s : EdgxSidBr) (strHdl : Handle) (sid : EdgxSid) : Int × EdgxSidBr :=
  let (ret, fdb) := edgxBrfdbSidDel s.fdb sid.addr sid.vid
  if ret ≠ 0 then (-ENOENT, { s with fdb })
  else (0, { s with fdb, sidRoot := Function.update s.sidRoot strHdl none, totalCnt := s.totalCnt - 1 })

/-- Returns the error code, the stream as the call leaves it, and the FDB. -/
def edgxSidApplySid (fdb : Brfdb) (strHdl : Handle) (sid : EdgxSid) : (Int × EdgxSid) × Brfdb :=
  if sid.idType ≠ SID_UNKNOWN ∧ sid.portMask ≠ 0 then
    let ((ret, set), fdb) := edgxBrfdbSidAdd fdb (sid.toSid strHdl)
    let sid := { sid with validFdb := sid.validFdb || set }
    if ret = 0 then
      if sid.validFdb = false then ((-EINVAL, sid), fdb) else ((0, sid), fdb)
    else ((-ENOMEM, sid), fdb)
  else ((0, sid), fdb)

def edgxSidTryDelete (s : EdgxSidBr) (strHdl : Handle) : Int × EdgxSidBr :=
  if s.maxStreams ≤ strHdl then (-EINVAL, s)
  else
    match s.sidRoot strHdl with
    | some sid => edgxSidDelEntry s strHdl sid
    | none => (-ENOENT, s)

/-- The result of `edgx_sid_check_add` is not used. -/
def edgxSidTryDelPt (s : EdgxSidBr) (strHdl : Handle) (del : PortPos) : Int × EdgxSidBr :=
  match s.sidRoot strHdl with
  | some old =>
    let old := { old with portMask := old.portMask &&& ~~~portBit del.port }
    let s := { s with sidRoot := Function.update s.sidRoot strHdl (some old) }
    if old.portMask = 0 then edgxSidDelEntry s strHdl old else (0, s)
  | none => (-EINVAL, s)

def edgxSidTryPortAdd (s : EdgxSidBr) (strHdl : Handle) (add : PortPos) : Int × EdgxSidBr :=
  if edgxSidCheckAdd s strHdl add ≠ 0 then (-EINVAL, s)
  else
    match s.sidRoot strHdl with
    | some sid =>
      let sid := if sid.portMask = SID_INVALID_RBT then { sid with portMask := 0 } else sid
      let sid := { sid with portMask := sid.portMask ||| portBit add.port }
      -- a stream that is in the FDB already needs no update there
      let ((ret, sid), fdb) := if sid.validFdb then ((0, sid), s.fdb) else edgxSidApplySid s.fdb strHdl sid
      let sid := if ret ≠ 0 then { sid with portMask := sid.portMask &&& ~~~portBit add.port } else sid
      (ret, { s with fdb, sidRoot := Function.update s.sidRoot strHdl (some sid) })
    | none => (-ENOENT, s)

def edgxSidTryIdentAdd (s : EdgxSidBr) (strHdl : Handle) (id : IdentParams) : Int × EdgxSidBr :=
  if edgxSidCheckIdent s strHdl id ≠ 0 then (-EINVAL, s)
  else
    match s.sidRoot strHdl with
    | some sid =>
      if sid.validFdb then (-EBUSY, s)
      else
        let sid := { sid with vid := id.vid, idType := id.idType, addr := id.addr }
        let ((ret, sid), fdb) := edgxSidApplySid s.fdb strHdl sid
        let sid := if ret ≠ 0 then { sid with idType := SID_UNKNOWN } else sid
        (ret, { s with fdb, sidRoot := Function.update s.sidRoot strHdl (some sid) })
    | none => (-ENOENT, s)

/-- A stream as `kzalloc` and `edgx_sid_try_create` leave it. -/
def newSid : EdgxSid :=
  { addr := Vector.replicate 6 0, vid := 0, idType := SID_UNKNOWN, portMask := 0, validFdb := false }

/-- `mem` says whether the allocation succeeds. -/
def edgxSidTryCreate (s : EdgxSidBr) (strHdl : Handle) (mem : Bool) : Int × EdgxSidBr :=
  if s.maxStreams ≤ strHdl then (-EINVAL, s)
  else if (s.sidRoot strHdl).isSome then (-EEXIST, s)
  else if mem = false then (-ENOMEM, s)
  else (0, { s with sidRoot := Function.update s.sidRoot strHdl (some newSid), totalCnt := s.totalCnt + 1 })

/-- A write to one of the stream attributes, at the index of its handle. -/
inductive Op where
  | identParams (strHdl : Handle) (id : IdentParams) (mem : Bool)
  | delete (strHdl : Handle)
  | portPos (strHdl : Handle) (add : PortPos)
  | portPosDel (strHdl : Handle) (del : PortPos)

/-- The stream a write is about. -/
def Op.strHdl : Op → Handle
  | .identParams h _ _ | .delete h | .portPos h _ | .portPosDel h _ => h

/-- `sid_ident_params_write`: the stream is created and then identified. -/
def identParamsWrite (s : EdgxSidBr) (strHdl : Handle) (id : IdentParams) (mem : Bool) : Int × EdgxSidBr :=
  let r := edgxSidTryCreate s strHdl mem
  if r.1 = 0 then edgxSidTryIdentAdd r.2 strHdl id else r

def exec (s : EdgxSidBr) : Op → Int × EdgxSidBr
  | .identParams h id mem => identParamsWrite s h id mem
  | .delete h => edgxSidTryDelete s h
  | .portPos h add => edgxSidTryPortAdd s h add
  | .portPosDel h del => edgxSidTryDelPt s h del

/-- One write, under the lock. Each attribute checks its index first. -/
def step (s : EdgxSidBr) (op : Op) : Int × EdgxSidBr :=
  if s.maxStreams ≤ op.strHdl then (-EINVAL, s) else exec s op

/-- An FDB without stream identification entries. -/
structure NoSidFdb where
  fdb : Brfdb
  unused : ∀ c < NCOLS_VLAN, ∀ r, edgxBrfdbIsSidUsed (fdb.tbl c r) = false

/-- The component as probing leaves it. -/
def init (maxStreams numPorts : BitVec 16) (f : NoSidFdb) : EdgxSidBr :=
  { maxStreams, numPorts, totalCnt := 0, sidRoot := fun _ => none, fdb := f.fdb }

end TsnSwitch.StreamId
