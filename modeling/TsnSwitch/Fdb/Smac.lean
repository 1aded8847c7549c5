/-
The static MAC address table of the bridge (edge_br_fdb.c): its slots, the
row hash, and the register window the driver reads and writes slots through.

The window is one set of registers shared by all slots. A read command loads
it from the addressed slot; a write command stores all of it, so a register
the driver does not set before a write keeps what the last read left there.
-/
import Mathlib.Tactic

namespace TsnSwitch.Fdb

/-- A MAC address, first byte first. -/
abbrev Mac := Vector (BitVec 8) 6

/-- A key of the table: address and VLAN id. -/
abbrev Key := Mac × BitVec 16

/-- `struct smac_entry`. -/
structure SmacEntry where
  general : BitVec 16 := 0
  mac : Mac := #v[0, 0, 0, 0, 0, 0]
  fwdMask : BitVec 16 := 0
  policedPts : BitVec 16 := 0
  policer : BitVec 16 := 0
  vlan : BitVec 16 := 0
  streamNo : BitVec 16 := 0
  deriving DecidableEq

/-- `struct edgx_brfdb` with the table behind it: `tbl col row` is a slot,
`reg` the register window. -/
structure Brfdb where
  nrows : BitVec 16
  sents : Nat
  tbl : Nat → Nat → SmacEntry
  reg : SmacEntry

def SMAC_NCOLS : Nat := 4
def NCOLS_VLAN : Nat := 2
def COL_VLAN : Nat := 1
def COL_WILDCARD : Nat := 0
def VID_WILDCARD : BitVec 16 := 0

/-- The kind of each column. -/
def column : Vector Nat 4 := #v[COL_VLAN, COL_VLAN, COL_WILDCARD, COL_WILDCARD]

def BIT (n : Nat) : BitVec 16 := 1#16 <<< n

def crc40tbl : Vector (BitVec 64) 16 :=
  #v[0x000000000, 0x104c11db7, 0x209823b6e, 0x30d4326d9,
     0x4130476dc, 0x517c56b6b, 0x61a864db2, 0x71e475005,
     0x82608edb8, 0x922c9f00f, 0xa2f8ad6d6, 0xb2b4bcb61,
     0xc350c9b64, 0xd31cd86d3, 0xe3c8ea00a, 0xf384fbdbd]

/-- One step of the CRC over a nibble. The index is below 16. -/
def crcNibble (crc : BitVec 64) (nibble : Nat) : BitVec 64 :=
  (crc <<< 4) ^^^ (crc40tbl.toList.getD (((crc >>> 36).toNat &&& 0xf) ^^^ nibble) 0)

def crcByte (crc : BitVec 64) (b : BitVec 8) : BitVec 64 :=
  crcNibble (crcNibble crc (b.toNat >>> 4)) (b.toNat &&& 0xf)

/-- What goes with the bits of the CRC: the last bits of two bytes. -/
def extraBits (mac : Mac) : BitVec 64 := (((mac.get 3 ^^^ mac.get 4) &&& 0x3).setWidth 64) <<< 10

def edgxBrfdbCalcSmacRows (nrows : BitVec 16) (mac : Mac) (vid : BitVec 16) (col : Nat) : BitVec 16 :=
  let crc := mac.toList.foldl crcByte (~~~0#64) &&& 0xffffffffff#64
  let extra := extraBits mac
  let hash := (extra ||| ((crc >>> 0) &&& 0x3ff)) <<< 0
  let hash := hash ||| ((extra ||| ((crc >>> 10) &&& 0x3ff)) <<< 16)
  let hash := hash ||| ((extra ||| ((crc >>> 20) &&& 0x3ff)) <<< 32)
  let hash := hash ||| ((extra ||| ((crc >>> 30) &&& 0x3ff)) <<< 48)
  let v : BitVec 64 := vid.setWidth 64
  let hash := if vid ≠ VID_WILDCARD then
      hash ^^^ ((v <<< 48) ||| (v <<< 32) ||| (v <<< 16) ||| (v <<< 0))
    else hash
  ((hash >>> (16 * col)) &&& (nrows - 1).setWidth 64).setWidth 16

/-- The slot address a row and a column select: `SMAC_CTL_POS` carries 12
bits of the row. -/
def ctlRow (row : BitVec 16) : Nat := row.toNat % 4096

def edgxBrfdbIsFdbUsed (e : SmacEntry) : Bool := (e.general &&& BIT 15) != 0

def edgxBrfdbIsSidUsed (e : SmacEntry) : Bool := (e.general &&& BIT 6) != 0

def edgxBrfdbIsSmacMatch (e : SmacEntry) (mac : Mac) (vid : BitVec 16) : Bool :=
  mac == e.mac && vid == e.vlan

def edgxBrfdbIsSidFit (e : SmacEntry) (mac : Mac) (vid : BitVec 16) : Bool :=
  edgxBrfdbIsSidUsed e && edgxBrfdbIsSmacMatch e mac vid

def edgxBrfdbIsFdbFit (e : SmacEntry) (mac : Mac) (vid : BitVec 16) : Bool :=
  edgxBrfdbIsFdbUsed e && edgxBrfdbIsSmacMatch e mac vid

def edgxBrfdbColIsVid (col : Nat) (vid : BitVec 16) : Bool :=
  if vid == VID_WILDCARD then column.toList.getD col COL_VLAN == COL_WILDCARD
  else column.toList.getD col COL_WILDCARD == COL_VLAN

/-- Read a slot: the window is loaded from it, and the two policer fields
are not read back. -/
def edgxBrfdbSmacGet (b : Brfdb) (col : Nat) (row : BitVec 16) : SmacEntry × Brfdb :=
  let reg := b.tbl col (ctlRow row)
  ({ reg with policedPts := 0, policer := 0 }, { b with reg })

/-- Write a slot. Without `sid` the stream number register is not written,
and the slot takes what the window holds there. -/
def edgxBrfdbSmacSet (b : Brfdb) (col : Nat) (row : BitVec 16) (e : SmacEntry) (sid : Bool) : Brfdb :=
  let reg := { e with policedPts := 0, policer := 0
                      streamNo := if sid then e.streamNo else b.reg.streamNo }
  { b with reg, tbl := Function.update b.tbl col (Function.update (b.tbl col) (ctlRow row) reg) }

def edgxBrfdbSetGeneral (e : SmacEntry) : SmacEntry :=
  let general := if e.fwdMask ≠ 0 then e.general ||| BIT 15 else e.general &&& ~~~BIT 15
  { e with general := if e.vlan = VID_WILDCARD then general &&& ~~~BIT 12 else general ||| BIT 12 }

/-- Read the slots of `cols`, in that order. -/
def getCols (b : Brfdb) (row : Nat → BitVec 16) : List Nat → List (Nat × SmacEntry) × Brfdb
  | [] => ([], b)
  | c :: cs =>
    let (e, b) := edgxBrfdbSmacGet b c (row c)
    let (es, b) := getCols b row cs
    ((c, e) :: es, b)

end TsnSwitch.Fdb
