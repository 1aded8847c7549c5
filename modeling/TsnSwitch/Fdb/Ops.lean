/-
The four operations on the static MAC table: adding and deleting a port of a
forwarding entry, adding and deleting a stream identification entry.
-/
import TsnSwitch.Errno
import TsnSwitch.Fdb.Smac

namespace TsnSwitch.Fdb

/-- The fields of `struct edgx_sid` that adding an entry reads. -/
structure Sid where
  addr : Mac
  vid : BitVec 16
  strHdl : BitVec 16
  idType : Nat

/-- The first of the read slots that satisfies `p`, with its column. -/
def findSlot (es : List (Nat × SmacEntry)) (p : Nat → SmacEntry → Bool) : Option (Nat × SmacEntry) :=
  es.find? fun (c, e) => p c e

/-- Returns the error code, `sid->valid_fdb` as the call leaves it when set,
and the table. -/
def edgxBrfdbSidAdd (b : Brfdb) (sid : Sid) : (Int × Bool) × Brfdb :=
  let row := edgxBrfdbCalcSmacRows b.nrows sid.addr sid.vid
  -- only the VLAN columns can hold a stream identification entry
  let (es, b) := getCols b row (List.range NCOLS_VLAN)
  match findSlot es fun _ e => edgxBrfdbIsFdbFit e sid.addr sid.vid &&
      (e.streamNo == sid.strHdl && edgxBrfdbIsSidUsed e) with
  | some _ => ((0, false), b)
  | none =>
    match findSlot es fun _ e => !edgxBrfdbIsSidUsed e with
    | some (i, e) =>
      let general := e.general ||| (BIT 6 ||| BIT 12)
      let e := { e with mac := sid.addr, vlan := sid.vid, streamNo := sid.strHdl
                        general := if sid.idType ≠ 0 then general ||| BIT 7 else general }
      let b := edgxBrfdbSmacSet b i (row i) e true
      ((0, true), { b with sents := b.sents + 1 })
    | none => ((-ENOMEM, false), b)

def edgxBrfdbAdd (b : Brfdb) (addr : Mac) (vid : BitVec 16) (ptid : Nat) : Int × Brfdb :=
  let row := edgxBrfdbCalcSmacRows b.nrows addr vid
  let (es, b) := getCols b row (List.range SMAC_NCOLS)
  match findSlot es fun _ e => edgxBrfdbIsFdbFit e addr vid with
  | some (i, e) =>
    let e := edgxBrfdbSetGeneral { e with fwdMask := e.fwdMask ||| BIT ptid }
    (0, edgxBrfdbSmacSet b i (row i) e (edgxBrfdbIsSidUsed e))
  | none =>
    match findSlot es fun i e => !edgxBrfdbIsFdbUsed e && edgxBrfdbColIsVid i vid with
    | some (i, e) =>
      let e := edgxBrfdbSetGeneral
        { e with mac := addr, fwdMask := BIT ptid, policedPts := 0, policer := 0, vlan := vid }
      let b := edgxBrfdbSmacSet b i (row i) e false
      (0, { b with sents := b.sents + 1 })
    | none => (-ENOMEM, b)

def edgxBrfdbSidDel (b : Brfdb) (addr : Mac) (vid : BitVec 16) : Int × Brfdb :=
  let row := edgxBrfdbCalcSmacRows b.nrows addr vid
  let (es, b) := getCols b row (List.range NCOLS_VLAN)
  match findSlot es fun _ e => edgxBrfdbIsSidFit e addr vid with
  | some (i, e) =>
    (0, edgxBrfdbSmacSet b i (row i) { e with general := e.general &&& ~~~BIT 6 } true)
  | none => (0, b)

def edgxBrfdbDel (b : Brfdb) (addr : Mac) (vid : BitVec 16) (ptid : Nat) : Int × Brfdb :=
  let row := edgxBrfdbCalcSmacRows b.nrows addr vid
  let (es, b) := getCols b row (List.range SMAC_NCOLS)
  match findSlot es fun _ e => edgxBrfdbIsFdbFit e addr vid with
  | some (i, e) =>
    let e := edgxBrfdbSetGeneral { e with fwdMask := e.fwdMask &&& ~~~BIT ptid }
    let b := edgxBrfdbSmacSet b i (row i) e (edgxBrfdbIsSidUsed e)
    (0, if e.fwdMask = 0 then { b with sents := b.sents - 1 } else b)
  | none => (0, b)

/-- A call of one of the four operations. -/
inductive Op where
  | add (k : Key) (ptid : Nat)
  | del (k : Key) (ptid : Nat)
  | sidAdd (sid : Sid)
  | sidDel (k : Key)

/-- One call, under the table's lock. -/
def step (b : Brfdb) : Op → Int × Brfdb
  | .add k ptid => edgxBrfdbAdd b k.1 k.2 ptid
  | .del k ptid => edgxBrfdbDel b k.1 k.2 ptid
  | .sidAdd sid => let r := edgxBrfdbSidAdd b sid; (r.1.1, r.2)
  | .sidDel k => edgxBrfdbSidDel b k.1 k.2

end TsnSwitch.Fdb
