/-
Stream identification in a hash table of its own (edge_br_sid2.c): the four
trees that the driver keeps beside the table, and the writes that change them.

An entry, under its ordinal number, belongs to a class of entries with the
same address, tag and VID. A class owns one slot of the table, or two where
it is for all frames, and the slots hold for each port the stream handle of
one of its entries.
-/
import TsnSwitch.Errno
import TsnSwitch.Fdb.Smac
import TsnSwitch.Lib.OrdMap
import TsnSwitch.Lib.Run

namespace TsnSwitch.SidTab

open Fdb (Mac)
open Lib

abbrev Handle := BitVec 16

def SID_INVALID_STRHDL : Handle := 0xFFFF
def SID_MAX_ORD : Nat := 0xFFFF
def SID_TAB_INVALID : BitVec 16 := 0xFFFF
def SID_MAX_NPORTS : Nat := 12

/-- `enum sid_tag`. -/
def SID_TAGGED : BitVec 32 := 1
def SID_PRIORITY : BitVec 32 := 2
def SID_ALL : BitVec 32 := 3

/-- The one supported position and the one supported type. -/
def OUT_FAC_IN : BitVec 32 := 3
def SID_NULL : BitVec 32 := 1

/-- `struct ident_params`. Its stream handle is not read. -/
structure IdentParams where
  addr : Mac
  tag : BitVec 32
  vid : BitVec 16
  idType : BitVec 32

/-- `struct port_pos`. -/
structure PortPos where
  port : BitVec 16
  pos : BitVec 32

/-- The key of a class in its tree. -/
abbrev TmvtKey := BitVec 64

/-- The key of a slot in its tree, from which row and column are read back. -/
@[ext] structure HtKey where
  row : BitVec 16
  col : Fin 4
  deriving DecidableEq

/-- `struct sid_tmvt_o_entry`. -/
structure TmvtOEntry where
  strHdl : Handle
  portMask : BitVec 32

/-- `struct sid_tmvt_entry`. Slots are pointed to by their keys. -/
structure TmvtEntry where
  addr : Mac
  tag : BitVec 32
  vid : BitVec 16
  rbTmvtO : OrdMap Nat TmvtOEntry
  htEntry0 : Option HtKey
  htEntry1 : Option HtKey

/-- `struct sid_ht_entry`. -/
structure HtEntry where
  tmvtEntry : TmvtKey
  used : Bool

/-- `struct sid_tab_entry`. -/
structure TabEntry where
  used : Bool
  matchVlan : Bool
  mac : Mac
  vid : BitVec 16
  strHdl : Nat → Handle

def zeroTabEntry : TabEntry := ⟨false, false, Vector.replicate 6 0, 0, fun _ => 0⟩

/-- What probing reads from the hardware. The control register of the table
has 12 bits for a row. -/
structure Config where
  maxStreams : BitVec 16
  rowBits : Nat
  rowBits_le : rowBits ≤ 12
  portCnt : Nat
  portCnt_le : portCnt ≤ SID_MAX_NPORTS

def Config.tabRowCnt (c : Config) : BitVec 16 := BitVec.ofNat 16 (2 ^ c.rowBits)

/-- Row and column as the control register has them. -/
abbrev TabPos := BitVec 12 × Fin 4

def HtKey.pos (k : HtKey) : TabPos := (k.row.setWidth 12, k.col)

/-- `struct edgx_sid_br` and the table. An entry of the tree `rb_o_root`
points to its class, and to its part there by its ordinal number. -/
structure EdgxSidBr where
  cfg : Config
  totalCnt : BitVec 32
  rbO : Nat → Option TmvtKey
  rbTmvt : TmvtKey → Option TmvtEntry
  rbHt : HtKey → Option HtEntry
  tab : TabPos → TabEntry

/-! ## Rows of the table -/

def getMatchVlan (tag : BitVec 32) (vid : BitVec 16) : Bool := tag = SID_TAGGED && vid ≠ 0

/-- CRC40 lookup table for the polynomial 0x0104c11db7. -/
def crc40tbl : Vector (BitVec 64) 16 := Fdb.crc40tbl

/-- One step of the CRC, over four bits. -/
def crcNibble (crc : BitVec 64) (nibble : BitVec 8) : BitVec 64 :=
  (crc <<< 4) ^^^ crc40tbl[((crc >>> 36).setWidth 4 ^^^ nibble.setWidth 4).toFin]

def crc40 (mac : Mac) : BitVec 64 :=
  let crc := mac.toList.foldl (fun crc (b : BitVec 8) => crcNibble (crcNibble crc (b >>> 4)) (b &&& 0xF))
    (BitVec.allOnes 64)
  crc &&& 0xFFFFFFFFFF

/-- The column hashes, 16 bits each. -/
def rowHash (mac : Mac) (tag : BitVec 32) (vid : BitVec 16) (useSrcMatch : Bool) : BitVec 64 :=
  let crc := crc40 mac
  let extra := Fdb.extraBits mac
  let hash := ((extra ||| (crc &&& 0x3FF)) <<< 0) ||| ((extra ||| ((crc >>> 10) &&& 0x3FF)) <<< 16) |||
    ((extra ||| ((crc >>> 20) &&& 0x3FF)) <<< 32) ||| ((extra ||| ((crc >>> 30) &&& 0x3FF)) <<< 48)
  let tagged : BitVec 64 := if tag = SID_TAGGED then BitVec.twoPow 64 5 else 0
  let srcdst : BitVec 64 := if useSrcMatch then BitVec.twoPow 64 6 else 0
  let hash := hash ^^^ (vid.setWidth 64 <<< 16 ||| vid.setWidth 64)
  let hash := hash ^^^ (tagged <<< 48 ||| tagged <<< 32 ||| tagged <<< 16 ||| tagged)
  hash ^^^ (srcdst <<< 48 ||| srcdst <<< 32 ||| srcdst <<< 16 ||| srcdst)

/-- The first two columns are for frames with a VID only. -/
def edgxSidCalcTabRows (cfg : Config) (mac : Mac) (tag : BitVec 32) (vid : BitVec 16) (useSrcMatch : Bool)
    (col : Fin 4) : BitVec 16 :=
  let mask : BitVec 64 := cfg.tabRowCnt.setWidth 64 - 1
  if col < 2 && !getMatchVlan tag vid then SID_TAB_INVALID
  else ((rowHash mac tag vid useSrcMatch >>> (16 * col.val)) &&& mask).setWidth 16

/-- `params_to_tmvt_key`. The VID has 14 bits of the key. -/
def paramsToTmvtKey (addr : Mac) (tag : BitVec 32) (vid : BitVec 16) : TmvtKey :=
  (addr[0].setWidth 64 <<< 56) ||| (addr[1].setWidth 64 <<< 48) ||| (addr[2].setWidth 64 <<< 40) |||
    (addr[3].setWidth 64 <<< 32) ||| (addr[4].setWidth 64 <<< 24) ||| (addr[5].setWidth 64 <<< 16) |||
    ((tag &&& 3).setWidth 64 <<< 14) ||| (vid &&& 0x3FFF).setWidth 64

/-! ## The table -/

/-- The registers of `port_cnt` stream handles are written. -/
def edgxSidTabSet (s : EdgxSidBr) (k : HtKey) (e : TabEntry) : TabPos → TabEntry :=
  Function.update s.tab k.pos
    { e with strHdl := fun i => if i < s.cfg.portCnt then e.strHdl i else (s.tab k.pos).strHdl i }

/-- `sid_ht_create`: the first column where the slot is free. -/
def sidHtCreate (s : EdgxSidBr) (tmvtKey : TmvtKey) (addr : Mac) (subTag : BitVec 32) (vid : BitVec 16) (mem : Bool) :
    Except Int (HtKey × EdgxSidBr) :=
  let rows := edgxSidCalcTabRows s.cfg addr subTag vid false
  match (List.finRange 4).find? fun i => rows i ≠ SID_TAB_INVALID && (s.rbHt ⟨rows i, i⟩).isNone with
  | none => .error (-ENOSPC)
  | some i =>
    if mem then .ok (⟨rows i, i⟩, { s with rbHt := Function.update s.rbHt ⟨rows i, i⟩ (some ⟨tmvtKey, false⟩) })
    else .error (-ENOMEM)

def sidHtDeactivate (s : EdgxSidBr) (k : HtKey) : EdgxSidBr :=
  match s.rbHt k with
  | none => s
  | some hte =>
    if hte.used then
      { s with tab := edgxSidTabSet s k zeroTabEntry, rbHt := Function.update s.rbHt k (some { hte with used := false }) }
    else s

def sidHtActivate (s : EdgxSidBr) (k : HtKey) (tag : BitVec 32) (strHdl : Nat → Handle) : EdgxSidBr :=
  match s.rbHt k with
  | none => s
  | some hte =>
    match s.rbTmvt hte.tmvtEntry with
    | none => s
    | some tmvte =>
      { s with
        tab := edgxSidTabSet s k
          { used := true, vid := tmvte.vid, mac := tmvte.addr, matchVlan := getMatchVlan tag tmvte.vid, strHdl }
        rbHt := Function.update s.rbHt k (some { hte with used := true }) }

def sidHtRelease (s : EdgxSidBr) (k : HtKey) : EdgxSidBr :=
  let s := sidHtDeactivate s k
  { s with rbHt := Function.update s.rbHt k none }

/-! ## Classes -/

/-- Which of the allocations of a creation succeed. -/
structure Mem where
  tmvt : Bool
  ht0 : Bool
  ht1 : Bool
  o : Bool
  tmvtO : Bool

/-- `sid_tmvt_create`. Slots that were taken are released on an error. -/
def sidTmvtCreate (s : EdgxSidBr) (tmvtKey : TmvtKey) (tag : BitVec 32) (vid : BitVec 16) (addr : Mac) (mem : Mem) :
    Int × EdgxSidBr :=
  if !mem.tmvt then (-ENOMEM, s)
  else if tag = SID_ALL then
    match sidHtCreate s tmvtKey addr SID_TAGGED vid mem.ht0 with
    | .error ret => (ret, s)
    | .ok (k0, s) =>
      match sidHtCreate s tmvtKey addr SID_PRIORITY vid mem.ht1 with
      | .error ret => (ret, sidHtRelease s k0)
      | .ok (k1, s) =>
        if (s.rbTmvt tmvtKey).isSome then (-EEXIST, sidHtRelease (sidHtRelease s k1) k0)
        else (0, { s with rbTmvt := Function.update s.rbTmvt tmvtKey (some ⟨addr, tag, vid, .empty, some k0, some k1⟩) })
  else
    match sidHtCreate s tmvtKey addr tag vid mem.ht0 with
    | .error ret => (ret, s)
    | .ok (k0, s) =>
      if (s.rbTmvt tmvtKey).isSome then (-EEXIST, sidHtRelease s k0)
      else (0, { s with rbTmvt := Function.update s.rbTmvt tmvtKey (some ⟨addr, tag, vid, .empty, some k0, none⟩) })

/-- The slots of a class, if a pointer to one is set. -/
def onSlot (k : Option HtKey) (f : EdgxSidBr → HtKey → EdgxSidBr) (s : EdgxSidBr) : EdgxSidBr :=
  match k with
  | none => s
  | some k => f s k

def sidTmvtRelease (s : EdgxSidBr) (tmvtKey : TmvtKey) : EdgxSidBr :=
  match s.rbTmvt tmvtKey with
  | none => s
  | some tmvte =>
    let s := onSlot tmvte.htEntry0 sidHtRelease (onSlot tmvte.htEntry1 sidHtRelease s)
    { s with rbTmvt := Function.update s.rbTmvt tmvtKey none }

def sidTmvtIsEmpty (tmvte : TmvtEntry) : Bool := tmvte.rbTmvtO.entries.isEmpty

/-- An entry gives its handle to the port with a bit in its mask. -/
def TmvtOEntry.gives (toe : TmvtOEntry) (i : Nat) : Bool :=
  toe.strHdl ≠ SID_INVALID_STRHDL && toe.portMask.getLsbD (i + 1)

/-- The loops of `sid_gen_port_str_hdls`: from the last entry to the first,
each over the handles written before. -/
def portStrHdls (portCnt : Nat) (entries : List (Nat × TmvtOEntry)) : (Nat → Handle) × Bool :=
  entries.foldr (fun e acc =>
    (fun i => if i < portCnt ∧ e.2.gives i then e.2.strHdl else acc.1 i,
      acc.2 || (List.range portCnt).any fun i => e.2.gives i)) (fun _ => 0, false)

def sidGenPortStrHdls (s : EdgxSidBr) (tmvtKey : TmvtKey) : EdgxSidBr :=
  match s.rbTmvt tmvtKey with
  | none => s
  | some tmvte =>
    let (strHdl, strHdlFound) := portStrHdls s.cfg.portCnt tmvte.rbTmvtO.entries
    if strHdlFound then
      if tmvte.tag = SID_ALL then
        onSlot tmvte.htEntry1 (fun s k => sidHtActivate s k SID_PRIORITY strHdl)
          (onSlot tmvte.htEntry0 (fun s k => sidHtActivate s k SID_TAGGED strHdl) s)
      else onSlot tmvte.htEntry0 (fun s k => sidHtActivate s k tmvte.tag strHdl) s
    else
      let s := onSlot tmvte.htEntry0 sidHtDeactivate s
      if tmvte.tag = SID_ALL then onSlot tmvte.htEntry1 sidHtDeactivate s else s

/-! ## Entries -/

def newTmvtO : TmvtOEntry := ⟨SID_INVALID_STRHDL, 0⟩

def sidOCreate (s : EdgxSidBr) (ord : Nat) (tmvtKey : TmvtKey) (mem : Mem) : Int × EdgxSidBr :=
  if !mem.o then (-ENOMEM, s)
  else if !mem.tmvtO then (-ENOMEM, s)
  else if (s.rbO ord).isSome then (-EEXIST, s)
  else
    match s.rbTmvt tmvtKey with
    | none => (-EINVAL, s)
    | some tmvte =>
      if (tmvte.rbTmvtO.get? ord).isSome then (-EEXIST, s)
      else
        (0, { s with
          rbO := Function.update s.rbO ord (some tmvtKey)
          rbTmvt := Function.update s.rbTmvt tmvtKey
            (some { tmvte with rbTmvtO := tmvte.rbTmvtO.insert ord newTmvtO })
          totalCnt := s.totalCnt + 1 })

def sidORelease (s : EdgxSidBr) (ord : Nat) (tmvtKey : TmvtKey) : EdgxSidBr :=
  match s.rbTmvt tmvtKey with
  | none => s
  | some tmvte =>
    { s with
      rbO := Function.update s.rbO ord none
      rbTmvt := Function.update s.rbTmvt tmvtKey (some { tmvte with rbTmvtO := tmvte.rbTmvtO.erase ord })
      totalCnt := s.totalCnt - 1 }

/-! ## Writes -/

/-- The tags and VIDs that go together. -/
def tagVidOk (tag : BitVec 32) (vid : BitVec 16) : Bool :=
  tag = SID_TAGGED || (tag = SID_PRIORITY && vid = 0) || (tag = SID_ALL && vid = 0)

def sidIdentParamsWrite (s : EdgxSidBr) (ord : Nat) (params : IdentParams) (mem : Mem) : Int × EdgxSidBr :=
  if !tagVidOk params.tag params.vid then (-EINVAL, s)
  else if params.idType ≠ SID_NULL then (-EINVAL, s)
  else if (s.rbO ord).isSome then (-EEXIST, s)
  else
    let tmvtKey := paramsToTmvtKey params.addr params.tag params.vid
    match s.rbTmvt tmvtKey with
    | some _ => sidOCreate s ord tmvtKey mem
    | none =>
      let (ret, s) := sidTmvtCreate s tmvtKey params.tag params.vid params.addr mem
      if ret ≠ 0 then (ret, s)
      else
        let (ret, s) := sidOCreate s ord tmvtKey mem
        if ret ≠ 0 then (ret, sidTmvtRelease s tmvtKey) else (0, s)

def sidDeleteWrite (s : EdgxSidBr) (ord : Nat) : Int × EdgxSidBr :=
  match s.rbO ord with
  | none => (-ENOENT, s)
  | some tmvtKey =>
    let s := sidGenPortStrHdls (sidORelease s ord tmvtKey) tmvtKey
    match s.rbTmvt tmvtKey with
    | none => (0, s)
    | some tmvte => (0, if sidTmvtIsEmpty tmvte then sidTmvtRelease s tmvtKey else s)

/-- The entry of an ordinal number is changed in its class, and the slots are
made up again. -/
def changeEntry (s : EdgxSidBr) (ord : Nat) (tmvtKey : TmvtKey) (f : TmvtOEntry → TmvtOEntry) : EdgxSidBr :=
  match s.rbTmvt tmvtKey with
  | none => s
  | some tmvte =>
    sidGenPortStrHdls { s with
      rbTmvt := Function.update s.rbTmvt tmvtKey (some { tmvte with rbTmvtO := tmvte.rbTmvtO.modify ord f }) } tmvtKey

def sidSetStrhdlWrite (s : EdgxSidBr) (ord : Nat) (strHdl : Handle) : Int × EdgxSidBr :=
  match s.rbO ord with
  | none => (-ENOENT, s)
  | some tmvtKey =>
    if s.cfg.maxStreams ≤ strHdl then (-EINVAL, s)
    else (0, changeEntry s ord tmvtKey fun toe => { toe with strHdl })

def portBit (port : BitVec 16) : BitVec 32 := BitVec.twoPow 32 port.toNat

def sidPortPosSet (s : EdgxSidBr) (ord : Nat) (portPos : PortPos) (clear : Bool) : Int × EdgxSidBr :=
  if s.cfg.portCnt < portPos.port.toNat then (-EINVAL, s)
  else if portPos.pos ≠ OUT_FAC_IN then (-EINVAL, s)
  else
    match s.rbO ord with
    | none => (-ENOENT, s)
    | some tmvtKey =>
      (0, changeEntry s ord tmvtKey fun toe =>
        { toe with portMask :=
            if clear then toe.portMask &&& ~~~portBit portPos.port else toe.portMask ||| portBit portPos.port })

/-- A write to one of the attributes, at the index of an ordinal number. -/
inductive Op where
  | identParams (ord : Nat) (params : IdentParams) (mem : Mem)
  | delete (ord : Nat)
  | setStrhdl (ord : Nat) (strHdl : Handle)
  | portPos (ord : Nat) (portPos : PortPos)
  | portPosDel (ord : Nat) (portPos : PortPos)

def Op.ord : Op → Nat
  | .identParams o _ _ | .delete o | .setStrhdl o _ | .portPos o _ | .portPosDel o _ => o

def exec (s : EdgxSidBr) : Op → Int × EdgxSidBr
  | .identParams o params mem => sidIdentParamsWrite s o params mem
  | .delete o => sidDeleteWrite s o
  | .setStrhdl o h => sidSetStrhdlWrite s o h
  | .portPos o p => sidPortPosSet s o p false
  | .portPosDel o p => sidPortPosSet s o p true

/-- One write, under the lock. Each attribute checks its index first. -/
def step (s : EdgxSidBr) (op : Op) : Int × EdgxSidBr :=
  if SID_MAX_ORD < op.ord then (-EINVAL, s) else exec s op

/-- The driver as probing leaves it, and a table that has been reset. -/
def init (cfg : Config) : EdgxSidBr :=
  { cfg, totalCnt := 0, rbO := fun _ => none, rbTmvt := fun _ => none, rbHt := fun _ => none,
    tab := fun _ => zeroTabEntry }

end TsnSwitch.SidTab
