/-
The VLAN tables of the bridge (edge_br_vlan.c): VLANs, the filtering
databases (FIDs) they are mapped to and the spanning tree instances (MSTIs)
the FIDs are mapped to, with the registers of the hardware.

A slot with VID 0 is free, and so is an instance with EDGX_INVALID_MSTID.
-/
import TsnSwitch.Errno

namespace TsnSwitch.BrVlan

def EDGX_BR_MAX_PORTS : Nat := 16

abbrev Port := Fin EDGX_BR_MAX_PORTS

def INVALID_VID : BitVec 16 := 0
def CIST_IDX : Nat := 0
def TE_IDX : Nat := 1
def EDGX_CIST_MSTID : BitVec 16 := 0x0
def EDGX_TE_MSTID : BitVec 16 := 0xFFE
def EDGX_SPBM_MSTID : BitVec 16 := 0xFFC
def EDGX_SPBV_MSTID : BitVec 16 := 0xFFD
def EDGX_INVALID_MSTID : BitVec 16 := 0xFFF
def EDGX_MAX_MSTID : BitVec 16 := EDGX_INVALID_MSTID
def EDGX_MAX_SUPP_MSTI : Nat := 64

def EDGX_BR_VLAN_CMD_READ : BitVec 16 := 0 <<< 12
def EDGX_BR_VLAN_CMD_WRITE : BitVec 16 := 1 <<< 12
def EDGX_BR_VLAN_CMD_PORTS : BitVec 16 := 1 <<< 13
def EDGX_BR_VLAN_CMD_TAG : BitVec 16 := 1 <<< 14
def EDGX_BR_VLAN_CMD_FID : BitVec 16 := 1 <<< 15

def BR_STATE_DISABLED : BitVec 8 := 0
def BR_STATE_LISTENING : BitVec 8 := 1
def BR_STATE_LEARNING : BitVec 8 := 2
def BR_STATE_FORWARDING : BitVec 8 := 3
def BR_STATE_BLOCKING : BitVec 8 := 4

def PT_STP_FWD : BitVec 2 := 0
def PT_STP_LEARN : BitVec 2 := 1
def PT_STP_DISABLED : BitVec 2 := 2

def PVID_NONE : BitVec 12 := 0xFFF

def BIT (p : Port) : BitVec 32 := 1 <<< p.val

/-- `_ENGINEERED_TRAFFIC`. -/
def ENGINEERED_TRAFFIC (te : Bool) : BitVec 16 := (if te then 1 else 0) <<< 15

def isReservedMstid (mstid : BitVec 16) : Bool :=
  mstid = EDGX_CIST_MSTID || mstid = EDGX_TE_MSTID || mstid = EDGX_SPBM_MSTID || mstid = EDGX_SPBV_MSTID ||
    mstid = EDGX_INVALID_MSTID

/-- What is fixed when the bridge is probed. The chip's FID field has 6 bits. -/
structure Params where
  maxVlans : Nat
  /-- The ports of the bridge. -/
  brpt : Port → Bool
  two_le : 2 ≤ maxVlans
  le_64 : maxVlans ≤ 64

/-- As many FIDs as VLANs. -/
def Params.maxFids (par : Params) : Nat := par.maxVlans

def Params.maxMstis (par : Params) : Nat := min par.maxVlans EDGX_MAX_SUPP_MSTI

/-! ## Hardware -/

/-- The VLAN registers. A command is for the VLAN and the kinds of registers
in its word. -/
structure VlanRegs where
  ports : BitVec 12 → BitVec 16
  tag : BitVec 12 → BitVec 16
  fid : BitVec 12 → BitVec 16
  portsBase : BitVec 16 := 0
  tagBase : BitVec 16 := 0
  fidBase : BitVec 16 := 0

def VlanRegs.cmd (r : VlanRegs) (w : BitVec 16) : VlanRegs :=
  let vid := w.setWidth 12
  if w.getLsbD 12 then
    { r with
      ports := if w.getLsbD 13 then Function.update r.ports vid r.portsBase else r.ports
      tag := if w.getLsbD 14 then Function.update r.tag vid r.tagBase else r.tag
      fid := if w.getLsbD 15 then Function.update r.fid vid r.fidBase else r.fid }
  else
    { r with
      portsBase := if w.getLsbD 13 then r.ports vid else r.portsBase
      tagBase := if w.getLsbD 14 then r.tag vid else r.tagBase
      fidBase := if w.getLsbD 15 then r.fid vid else r.fidBase }

/-- `fidcfg` has two bits for each port and FID, `pvid` the port's VLAN. -/
structure VlanHw where
  regs : VlanRegs
  fidcfg : Port → Nat → BitVec 2
  pvid : Port → BitVec 12 := fun _ => PVID_NONE

/-- The state of the hardware for a port state. -/
def hwState (ptstate : BitVec 8) : Option (BitVec 2) :=
  if ptstate = BR_STATE_FORWARDING then some PT_STP_FWD
  else if ptstate = BR_STATE_LEARNING then some PT_STP_LEARN
  else if ptstate = BR_STATE_LISTENING ∨ ptstate = BR_STATE_DISABLED ∨ ptstate = BR_STATE_BLOCKING then
    some PT_STP_DISABLED
  else none

/-- An unknown state is not programmed. -/
def setFidcfg (fidcfg : Port → Nat → BitVec 2) (p : Port) (fid : Nat) (ptstate : BitVec 8) : Port → Nat → BitVec 2 :=
  match hwState ptstate with
  | none => fidcfg
  | some st => Function.update fidcfg p (Function.update (fidcfg p) fid st)

def edgxPtSetFidFwdState (hw : VlanHw) (p : Port) (fid : Nat) (ptstate : BitVec 8) : VlanHw :=
  { hw with fidcfg := setFidcfg hw.fidcfg p fid ptstate }

def edgxPtSetPvid (hw : VlanHw) (p : Port) (vid : BitVec 16) : VlanHw :=
  { hw with pvid := Function.update hw.pvid p (vid.setWidth 12) }

def edgxPtClearPvid (hw : VlanHw) (p : Port) : VlanHw := { hw with pvid := Function.update hw.pvid p PVID_NONE }

/-! ## Tables -/

/-- `struct _vlan`. The FID is an index. -/
structure Vlan where
  vid : BitVec 16 := INVALID_VID
  fid : Option Nat := none
  ptvec : BitVec 32 := 0

/-- `struct _fid`: its number is its index. -/
structure Fid where
  vlanlist : List Nat := []
  msti : Option Nat := none

/-- `struct _msti`. -/
structure Msti where
  mstid : BitVec 16 := EDGX_INVALID_MSTID
  fidlist : List Nat := []
  ptstate : Port → BitVec 8 := fun _ => 0

/-- `struct edgx_br_vlan`. -/
structure VlanTables where
  nvlans : BitVec 16 := 0
  vid : Nat → Vlan := fun _ => {}
  fid : Nat → Fid := fun _ => {}
  msti : Nat → Msti := fun _ => {}

/-- The tables and the hardware. -/
structure EdgxBrVlan extends VlanTables where
  hw : VlanHw

namespace EdgxBrVlan

/-- `list_del` of a VLAN's entry. -/
def delVlanEntry (s : EdgxBrVlan) (i : Nat) : EdgxBrVlan :=
  { s with fid := fun f => { s.fid f with vlanlist := (s.fid f).vlanlist.erase i } }

/-- `list_del` of a FID's entry. -/
def delFidEntry (s : EdgxBrVlan) (f : Nat) : EdgxBrVlan :=
  { s with msti := fun m => { s.msti m with fidlist := (s.msti m).fidlist.erase f } }

end EdgxBrVlan

end TsnSwitch.BrVlan
