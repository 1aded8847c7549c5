/-
The operations on the VLAN tables. `none` stands for a pointer that is
dereferenced and not there, or a list entry that is removed and in no list:
the call does not return.

Flushes of the dynamic forwarding table and the notifications for a VLAN that
changes its FID are left out, and so are the locks.
-/
import TsnSwitch.BrVlan.State

namespace TsnSwitch.BrVlan

variable (par : Params)

/-! ## Lookups -/

def edgxBrVlanGetVlan (s : EdgxBrVlan) (vid : BitVec 16) : Option Nat :=
  (List.range par.maxVlans).find? fun i => (s.vid i).vid == vid

def edgxBrVlanGetFreeVlan (s : EdgxBrVlan) : Option Nat := edgxBrVlanGetVlan par s INVALID_VID

def edgxBrVlanGetFid (fid : BitVec 16) : Option Nat := (List.range par.maxFids).find? fun i => i == fid.toNat

def edgxBrVlanGetFreeFid (s : EdgxBrVlan) : Option Nat :=
  (List.range par.maxFids).find? fun f => (s.fid f).vlanlist.isEmpty

def edgxBrVlanGetMsti (s : EdgxBrVlan) (mstid : BitVec 16) : Option Nat :=
  (List.range par.maxMstis).find? fun m => (s.msti m).mstid == mstid

def edgxBrVlanGetFreeMsti (s : EdgxBrVlan) : Option Nat := edgxBrVlanGetMsti par s EDGX_INVALID_MSTID

/-! ## FIDs and MSTIs -/

/-- The FID register of each VLAN of a list is written. -/
def writeTeFid (vid : Nat → Vlan) (f : Nat) (te : Bool) (regs : VlanRegs) (vlans : List Nat) : VlanRegs :=
  vlans.foldl (fun regs i =>
    { regs with fidBase := BitVec.ofNat 16 f ||| ENGINEERED_TRAFFIC te }.cmd
      ((vid i).vid ||| EDGX_BR_VLAN_CMD_WRITE ||| EDGX_BR_VLAN_CMD_FID)) regs

def edgxBrVlanSetTeFid (s : EdgxBrVlan) (f : Nat) (te : Bool) : EdgxBrVlan :=
  let hw := { s.hw with regs := writeTeFid s.vid f te s.hw.regs (s.fid f).vlanlist }
  if te then
    let ports := (List.finRange EDGX_BR_MAX_PORTS).filter par.brpt
    { s with hw := ports.foldl (fun hw p => edgxPtSetFidFwdState hw p f BR_STATE_FORWARDING) hw }
  else { s with hw }

def edgxBrMoveFid2msti (s : EdgxBrVlan) (f m : Nat) : EdgxBrVlan :=
  if (s.fid f).msti = some m then s
  else
    let s := if (s.fid f).msti.isSome then s.delFidEntry f else s
    let s := { s with fid := Function.update s.fid f { s.fid f with msti := some m } }
    let s := { s with msti := Function.update s.msti m { s.msti m with fidlist := (s.msti m).fidlist ++ [f] } }
    edgxBrVlanSetTeFid par s f ((s.msti m).mstid == EDGX_TE_MSTID)

def edgxBrSetFid2msti (s : EdgxBrVlan) (fid : Nat) (mstid : BitVec 16) : Int × EdgxBrVlan :=
  if fid ≥ par.maxVlans then (-EINVAL, s)
  else
    match edgxBrVlanGetMsti par s mstid with
    | some m => (0, edgxBrMoveFid2msti par s fid m)
    | none => (-EINVAL, s)

/-- The 6 bits of the FID are set in the VLAN's register. -/
def writeVid2fid (regs : VlanRegs) (vid : BitVec 16) (f : Nat) : VlanRegs :=
  let regs := regs.cmd (vid ||| EDGX_BR_VLAN_CMD_READ ||| EDGX_BR_VLAN_CMD_FID)
  let regs := { regs with fidBase := (regs.fidBase &&& ~~~0x3F) ||| (BitVec.ofNat 16 f &&& 0x3F) }
  regs.cmd (vid ||| EDGX_BR_VLAN_CMD_WRITE ||| EDGX_BR_VLAN_CMD_FID)

def edgxBrMoveVid2fid (s : EdgxBrVlan) (i f : Nat) : EdgxBrVlan :=
  if (s.vid i).fid = some f then s
  else
    let s := if (s.vid i).fid.isSome then s.delVlanEntry i else s
    let s := { s with fid := Function.update s.fid f { s.fid f with vlanlist := (s.fid f).vlanlist ++ [i] } }
    let s := { s with hw := { s.hw with regs := writeVid2fid s.hw.regs (s.vid i).vid f } }
    { s with vid := Function.update s.vid i { s.vid i with fid := some f } }

def edgxBrSetVid2fid (s : EdgxBrVlan) (vid fid : BitVec 16) : Int × EdgxBrVlan :=
  if fid.toNat ≥ par.maxFids then (-EINVAL, s)
  else
    match edgxBrVlanGetVlan par s vid with
    | some i => (0, edgxBrMoveVid2fid s i fid.toNat)
    | none => (-EINVAL, s)

def edgxBrGetVid2fid (s : EdgxBrVlan) (vid : BitVec 16) : Option (Int × Nat) :=
  match edgxBrVlanGetVlan par s vid with
  | none => some (-EINVAL, 0)
  | some i =>
    match (s.vid i).fid with
    | none => none
    | some f => some (0, f)

/-- The MSTI of a FID, as `fid2msti` is read. -/
def fid2mstiRead (s : EdgxBrVlan) (fid : BitVec 16) : Option (Int × Nat) :=
  match edgxBrVlanGetFid par fid with
  | none => some (0, 0)
  | some f =>
    match (s.fid f).msti with
    | none => none
    | some m => some (4, (s.msti m).mstid.toNat)

def edgxBrVlanCreateMsti (s : EdgxBrVlan) (mstid : BitVec 16) : Int × EdgxBrVlan :=
  if isReservedMstid mstid || (edgxBrVlanGetMsti par s mstid).isSome then (-EEXIST, s)
  else if mstid ≥ EDGX_MAX_MSTID then (-EINVAL, s)
  else
    match edgxBrVlanGetFreeMsti par s with
    | some m =>
      (0, { s with msti := Function.update s.msti m { s.msti m with mstid, ptstate := fun _ => BR_STATE_DISABLED } })
    | none => (-ENOMEM, s)

def edgxBrVlanDeleteMsti (s : EdgxBrVlan) (mstid : BitVec 16) : Int × EdgxBrVlan :=
  if isReservedMstid mstid then (-EACCES, s)
  else
    match edgxBrVlanGetMsti par s mstid with
    | some m =>
      if (s.msti m).fidlist.isEmpty then
        (0, { s with msti := Function.update s.msti m { s.msti m with mstid := EDGX_INVALID_MSTID } })
      else (-EBUSY, s)
    | none => (-EBUSY, s)

def edgxBrVlanGetMstptState (s : EdgxBrVlan) (mstid : BitVec 16) (p : Port) : Int × Nat :=
  match edgxBrVlanGetMsti par s mstid with
  | none => (-EINVAL, 0)
  | some m => (0, ((s.msti m).ptstate p).toNat)

def edgxBrVlanSetMstptState (s : EdgxBrVlan) (mstid : BitVec 16) (p : Port) (ptstate : BitVec 8) : Int × EdgxBrVlan :=
  match edgxBrVlanGetMsti par s mstid with
  | none => (-EINVAL, s)
  | some m =>
    let hw := (s.msti m).fidlist.foldl (fun hw f => edgxPtSetFidFwdState hw p f ptstate) s.hw
    (0, { s with
      hw
      msti := Function.update s.msti m { s.msti m with ptstate := Function.update (s.msti m).ptstate p ptstate } })

/-! ## Ports -/

/-- The ports of a VLAN and the tag of one of them are written. -/
def writePt (regs : VlanRegs) (v : Vlan) (untagged : Bool) (p : Port) : VlanRegs :=
  let regs := regs.cmd (v.vid ||| EDGX_BR_VLAN_CMD_READ ||| EDGX_BR_VLAN_CMD_TAG)
  let tagBase := if untagged then regs.tagBase ||| (BIT p).setWidth 16 else regs.tagBase &&& ~~~(BIT p).setWidth 16
  { regs with portsBase := v.ptvec.setWidth 16, tagBase }.cmd
    (v.vid ||| EDGX_BR_VLAN_CMD_WRITE ||| EDGX_BR_VLAN_CMD_PORTS ||| EDGX_BR_VLAN_CMD_TAG)

/-- The second half of `edgx_br_vlan_add_pt`: the VLAN in slot `i` and its
FID are there, and the hardware is told of the port. -/
def addPtFinish (s : EdgxBrVlan) (i : Nat) (fid : Option Nat) (untagged pvid : Bool) (p : Port) : Option EdgxBrVlan :=
  let s := { s with hw := { s.hw with regs := writePt s.hw.regs (s.vid i) untagged p } }
  match fid with
  | none => none
  | some f =>
    match (s.fid f).msti with
    | none => none
    | some m =>
      let hw := if (s.msti m).mstid ≠ EDGX_TE_MSTID then
          edgxPtSetFidFwdState s.hw p f ((s.msti CIST_IDX).ptstate p)
        else s.hw
      some { s with hw := if pvid then edgxPtSetPvid hw p (s.vid i).vid else hw }

def edgxBrVlanAddPt (s : EdgxBrVlan) (vid : BitVec 16) (untagged pvid : Bool) (p : Port) : Option (Int × EdgxBrVlan) :=
  if s.nvlans.toNat ≥ par.maxVlans then some (-ENOMEM, s)
  else if pvid && !untagged then some (-EINVAL, s)
  else
    match edgxBrVlanGetVlan par s vid with
    | some i =>
      let s := { s with vid := Function.update s.vid i { s.vid i with ptvec := (s.vid i).ptvec ||| BIT p } }
      let s := if vid = (s.hw.pvid p).setWidth 16 ∧ pvid = false then { s with hw := edgxPtClearPvid s.hw p } else s
      (addPtFinish s i (s.vid i).fid untagged pvid p).map fun s => (0, s)
    | none =>
      match edgxBrVlanGetFreeVlan par s, edgxBrVlanGetFreeFid par s with
      | some i, some f =>
        let s := { s with vid := Function.update s.vid i { s.vid i with vid, ptvec := BIT p } }
        -- to the CIST first, so that no port is taken from another tree
        let s := (edgxBrSetFid2msti par s f EDGX_CIST_MSTID).2
        let s := edgxBrMoveVid2fid s i f
        let s := { s with nvlans := s.nvlans + 1 }
        (addPtFinish s i (some f) untagged pvid p).map fun s => (0, s)
      | _, _ => some (-ENOMEM, s)

def edgxBrVlanDelPt (s : EdgxBrVlan) (vid : BitVec 16) (p : Port) : Option (Int × EdgxBrVlan) :=
  match edgxBrVlanGetVlan par s vid with
  | none => some (-EINVAL, s)
  | some i =>
    let s := { s with vid := Function.update s.vid i { s.vid i with ptvec := (s.vid i).ptvec &&& ~~~BIT p } }
    let regs := { s.hw.regs with portsBase := (s.vid i).ptvec.setWidth 16 }.cmd
      ((s.vid i).vid ||| EDGX_BR_VLAN_CMD_WRITE ||| EDGX_BR_VLAN_CMD_PORTS)
    let s := { s with hw := { s.hw with regs } }
    let clearPvid (s : EdgxBrVlan) : EdgxBrVlan :=
      if vid = (s.hw.pvid p).setWidth 16 then { s with hw := edgxPtClearPvid s.hw p } else s
    if (s.vid i).ptvec = 0 then
      let listed := (List.range par.maxFids).any fun f => decide (i ∈ (s.fid f).vlanlist)
      let s := { s with vid := Function.update s.vid i { s.vid i with vid := INVALID_VID, fid := none } }
      if listed then some (0, clearPvid { s.delVlanEntry i with nvlans := s.nvlans - 1 }) else none
    else some (0, clearPvid s)

/-- The loop of `edgx_br_vlan_purge_pt` over the slots. -/
def purgePt (p : Port) : List Nat → EdgxBrVlan → Option EdgxBrVlan
  | [], s => some s
  | i :: is, s =>
    if (s.vid i).ptvec &&& BIT p ≠ 0 then
      match edgxBrVlanDelPt par s (s.vid i).vid p with
      | none => none
      | some (_, s) => purgePt p is s
    else purgePt p is s

def edgxBrVlanPurgePt (s : EdgxBrVlan) (p : Port) : Option (Int × EdgxBrVlan) :=
  (purgePt par p (List.range par.maxVlans) s).map fun s => (0, s)

/-! ## Initialisation -/

/-- The tables at the start. `hw` is what the hardware has. -/
def edgxBrInitVlan (hw : VlanHw) : EdgxBrVlan :=
  let msti : Nat → Msti := fun m =>
    if m = CIST_IDX then { mstid := EDGX_CIST_MSTID, ptstate := fun _ => BR_STATE_DISABLED }
    else if m = TE_IDX then { mstid := EDGX_TE_MSTID, ptstate := fun _ => BR_STATE_FORWARDING }
    else {}
  let s := (List.range par.maxFids).foldl (fun s f => edgxBrMoveFid2msti par s f CIST_IDX) { msti, hw }
  { s with hw := { s.hw with regs := (List.range 4096).foldl (fun regs i =>
      { regs with portsBase := 0 }.cmd
        (BitVec.ofNat 16 i ||| EDGX_BR_VLAN_CMD_WRITE ||| EDGX_BR_VLAN_CMD_PORTS)) s.hw.regs } }

/-! ## The machine -/

inductive VlanOp where
  | addPt (vid : BitVec 16) (untagged pvid : Bool) (p : Port)
  | delPt (vid : BitVec 16) (p : Port)
  | setVid2fid (vid fid : BitVec 16)
  | getVid2fid (vid : BitVec 16)
  | setFid2msti (fid mstid : BitVec 16)
  | getFid2msti (fid : BitVec 16)
  | createMsti (mstid : BitVec 16)
  | deleteMsti (mstid : BitVec 16)
  | getMstptState (mstid : BitVec 16) (p : Port)
  | setMstptState (mstid : BitVec 16) (p : Port) (ptstate : BitVec 8)

inductive VlanRet where
  | ret (r : Int) (val : Nat)
  /-- The call does not return. -/
  | oops
  deriving DecidableEq

def finish (s : EdgxBrVlan) : Option (Int × EdgxBrVlan) → VlanRet × EdgxBrVlan
  | none => (.oops, s)
  | some (r, s) => (.ret r 0, s)

def VlanRet.ofRead : Option (Int × Nat) → VlanRet
  | none => .oops
  | some (r, val) => .ret r val

def vlanStep (s : EdgxBrVlan) : VlanOp → VlanRet × EdgxBrVlan
  | .addPt vid untagged pvid p => finish s (edgxBrVlanAddPt par s vid untagged pvid p)
  | .delPt vid p => finish s (edgxBrVlanDelPt par s vid p)
  | .setVid2fid vid fid => finish s (some (edgxBrSetVid2fid par s vid fid))
  | .getVid2fid vid => (.ofRead (edgxBrGetVid2fid par s vid), s)
  | .setFid2msti fid mstid => finish s (some (edgxBrSetFid2msti par s fid.toNat mstid))
  | .getFid2msti fid => (.ofRead (fid2mstiRead par s fid), s)
  | .createMsti mstid => finish s (some (edgxBrVlanCreateMsti par s mstid))
  | .deleteMsti mstid => finish s (some (edgxBrVlanDeleteMsti par s mstid))
  | .getMstptState mstid p => (.ofRead (some (edgxBrVlanGetMstptState par s mstid p)), s)
  | .setMstptState mstid p ptstate => finish s (some (edgxBrVlanSetMstptState par s mstid p ptstate))

end TsnSwitch.BrVlan
