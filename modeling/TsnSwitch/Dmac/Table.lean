/-
The dynamic address table and its synchronisation to the kernel's bridge
(edge_br_fdb.c, second half): the entries that were read from the hardware,
and the notifications that go to the bridge for the VLANs of their FIDs.

The tree of entries is a list in key order, and the detector one bit.
-/
import TsnSwitch.Lib.Run
import TsnSwitch.BrVlan.Ops

namespace TsnSwitch.Dmac

open Lib BrVlan

abbrev Mac := BitVec 48

/-- The MAC that ends a traversal of the table. -/
def macBcast : Mac := 0xFFFFFFFFFFFF

def DMAC_INV_FID : Nat := 0xFFFF

/-- What the hardware delivers for one entry, and whether there is memory for
it if it is new. -/
structure DmacRead where
  mac : Mac
  fid : BitVec 6
  ptid : Port
  mem : Bool := true

/-- `struct dmac_entry`. -/
structure DmacEntry where
  changeDetector : Bool
  fid : Nat
  mac : Mac
  ptid : Port
  ptidNew : Port

/-- `struct edgx_dmac`. -/
structure EdgxDmac where
  root : List DmacEntry := []
  detectorState : Bool := false

inductive NoticeKind where
  | addToBridge
  | delToBridge
  deriving DecidableEq

/-- A switchdev notification for a port. -/
structure Notice where
  kind : NoticeKind
  mac : Mac
  vid : BitVec 16
  ptid : Port
  deriving DecidableEq

/-! ## The tree -/

def edgxDmacCreate (mac : Mac) (fid : Nat) (ptid : Port) : DmacEntry :=
  { changeDetector := false, fid, mac, ptid, ptidNew := ptid }

def edgxDmacCmp (lfid : Nat) (lmac : Mac) (rfid : Nat) (rmac : Mac) : Ordering :=
  (compare lfid rfid).then (compare lmac.toNat rmac.toNat)

def edgxDmacInsert (new : DmacEntry) : List DmacEntry → Option (List DmacEntry)
  | [] => some [new]
  | e :: es =>
    match edgxDmacCmp new.fid new.mac e.fid e.mac with
    | .lt => some (new :: e :: es)
    | .gt => (edgxDmacInsert new es).map (e :: ·)
    | .eq => none

def edgxDmacSearch (root : List DmacEntry) (fid : Nat) (mac : Mac) : Option DmacEntry :=
  root.find? fun e => edgxDmacCmp fid mac e.fid e.mac == .eq

/-- The entry with a key is marked with the detector. -/
def refresh (root : List DmacEntry) (fid : Nat) (mac : Mac) (detector : Bool) : List DmacEntry :=
  root.map fun e => if edgxDmacCmp fid mac e.fid e.mac == .eq then { e with changeDetector := detector } else e

/-! ## Reading -/

def edgxDmacReadNext (d : EdgxDmac) (r : DmacRead) : Int × EdgxDmac :=
  if r.mac = macBcast then (-ENOENT, d)
  else
    let fid := r.fid.toNat
    match edgxDmacSearch d.root fid r.mac with
    | some _ => (0, { d with root := refresh d.root fid r.mac d.detectorState })
    | none =>
      if r.mem then
        match edgxDmacInsert (edgxDmacCreate r.mac fid r.ptid) d.root with
        | some root => (0, { d with root := refresh root fid r.mac d.detectorState })
        | none => (-EINVAL, d)
      else (-ENOMEM, d)

/-- The loop of `edgx_dmac_sync_work`: until the table is at its end. -/
def readTable (d : EdgxDmac) : List DmacRead → EdgxDmac
  | [] => d
  | r :: rs =>
    match edgxDmacReadNext d r with
    | (ret, d) => if ret = -ENOENT then d else readTable d rs

/-- The first half of `edgx_dmac_sync_work`. -/
def readRound (d : EdgxDmac) (reads : List DmacRead) : EdgxDmac :=
  readTable { d with detectorState := !d.detectorState } reads

/-! ## Notifications -/

section Notify

variable (par : Params) (s : EdgxBrVlan)

/-- The VIDs in a FID's list. -/
def vidsOf (f : Nat) : List (BitVec 16) := (s.fid f).vlanlist.map fun i => (s.vid i).vid

/-- `struct dmac_notify`: the FID of the last entry, with its VIDs if there is
such a FID. -/
structure DmacNotify where
  fid : Nat := DMAC_INV_FID
  vids : Option (List (BitVec 16)) := none

def edgxDmacUpdateFid (n : DmacNotify) (fid : Nat) : Bool × DmacNotify :=
  let n := if n.fid ≠ fid then { fid, vids := (edgxBrVlanGetFid par (BitVec.ofNat 16 fid)).map (vidsOf s) } else n
  (n.vids.any (!·.isEmpty), n)

/-- One notification for each VLAN, if there is such a port. -/
def edgxDmacNotifyFid (vids : List (BitVec 16)) (kind : NoticeKind) (mac : Mac) (ptid : Port) : List Notice :=
  if par.brpt ptid then vids.map fun vid => { kind, mac, vid, ptid } else []

/-- The loop over the tree: the entries that stay, and what is sent. -/
def edgxDmacCallNotifiers (detector : Bool) : DmacNotify → List DmacEntry → List DmacEntry × List Notice
  | _, [] => ([], [])
  | n, e :: es =>
    let (listed, n) := edgxDmacUpdateFid par s n e.fid
    let (root, sent) := edgxDmacCallNotifiers detector n es
    if listed then
      let vids := n.vids.getD []
      let aged := e.changeDetector != detector
      let dels := if aged || e.ptidNew != e.ptid then edgxDmacNotifyFid par vids .delToBridge e.mac e.ptid else []
      if aged then (root, dels ++ sent)
      else
        let e := { e with ptid := e.ptidNew }
        (e :: root, dels ++ edgxDmacNotifyFid par vids .addToBridge e.mac e.ptid ++ sent)
    else (e :: root, sent)

/-- The second half of `edgx_dmac_sync_work`. -/
def notifyRound (d : EdgxDmac) : EdgxDmac × List Notice :=
  let (root, sent) := edgxDmacCallNotifiers par s d.detectorState {} d.root
  ({ d with root }, sent)

/-- A VLAN leaves a FID: what is sent for the entries of the old FID. -/
def edgxBrfdbUpdateVid2fid (d : EdgxDmac) (vid : BitVec 16) (fidOld : Nat) : List Notice :=
  d.root.filterMap fun e =>
    if e.fid = fidOld ∧ par.brpt e.ptid then some { kind := .delToBridge, mac := e.mac, vid, ptid := e.ptid } else none

/-- The loop of `edgx_dmac_sync_disable`: what is sent while the tree is
emptied. -/
def syncDisable : DmacNotify → List DmacEntry → List Notice
  | _, [] => []
  | n, e :: es =>
    let (listed, n) := edgxDmacUpdateFid par s n e.fid
    (if listed then edgxDmacNotifyFid par (n.vids.getD []) .delToBridge e.mac e.ptid else []) ++ syncDisable n es

def edgxDmacSyncDisable (d : EdgxDmac) : EdgxDmac × List Notice := ({ d with root := [] }, syncDisable par s {} d.root)

/-- Where an operation on the VLAN tables gets to `edgx_br_move_vid2fid` for a
VLAN that has a FID: the VID and the old FID. -/
def vid2fidUpdate : VlanOp → Option (BitVec 16 × Nat)
  | .addPt vid untagged pvid _ =>
    if s.nvlans.toNat ≥ par.maxVlans ∨ (pvid && !untagged) ∨ (edgxBrVlanGetVlan par s vid).isSome then none
    else
      match edgxBrVlanGetFreeVlan par s, edgxBrVlanGetFreeFid par s with
      | some i, some f => if (s.vid i).fid = some f then none else (s.vid i).fid.map (vid, ·)
      | _, _ => none
  | .setVid2fid vid fid =>
    if fid.toNat ≥ par.maxFids then none
    else
      match edgxBrVlanGetVlan par s vid with
      | some i => if (s.vid i).fid = some fid.toNat then none else (s.vid i).fid.map (vid, ·)
      | none => none
  | _ => none

end Notify

/-! ## The machine -/

/-- The tables, and all that was sent to the bridge. -/
structure SyncState where
  vlan : EdgxBrVlan
  dmac : EdgxDmac := {}
  sent : List Notice := []

/-- One operation on the VLAN tables. -/
def vlanChange (par : Params) (s : SyncState) (op : VlanOp) : VlanRet × SyncState :=
  let sent := match vid2fidUpdate par s.vlan op with
    | some (vid, fidOld) => edgxBrfdbUpdateVid2fid par s.dmac vid fidOld
    | none => []
  let (ret, vlan) := vlanStep par s.vlan op
  (ret, { s with vlan, sent := s.sent ++ sent })

inductive SyncOp where
  | vlan (op : VlanOp)
  /-- A round, with what changes the VLAN tables between its two halves. -/
  | round (reads : List DmacRead) (mid : List VlanOp)
  | disable

def syncStep (par : Params) (s : SyncState) : SyncOp → Unit × SyncState
  | .vlan op => ((), (vlanChange par s op).2)
  | .round reads mid =>
    let s := after (vlanChange par) { s with dmac := readRound s.dmac reads } mid
    let (dmac, sent) := notifyRound par s.vlan s.dmac
    ((), { s with dmac, sent := s.sent ++ sent })
  | .disable =>
    let (dmac, sent) := edgxDmacSyncDisable par s.vlan s.dmac
    ((), { s with dmac, sent := s.sent ++ sent })

end TsnSwitch.Dmac
