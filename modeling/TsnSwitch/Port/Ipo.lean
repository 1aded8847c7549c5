/-
The rules of a port for what it receives (edge_port.c): which ports a frame goes to, and
which get a copy. There are 16 of them behind a window, which is used under `reg_lock`.

`BIT` shifts by a count that C does not define from 32 on.
-/
import TsnSwitch.Errno
import TsnSwitch.Fdb.Static
import TsnSwitch.Lib.Indirect
import TsnSwitch.Port.Fields

namespace TsnSwitch.Port

open Lib Fdb Waits

/-- A rule in its registers. -/
structure IpoRule where
  cfg0 : BitVec 16
  fwd : BitVec 16
  mirr : BitVec 16
  cfg1 : BitVec 16
  eth0 : BitVec 16 := 0
  eth1 : BitVec 16 := 0
  eth2 : BitVec 16 := 0

structure EdgxPtIpo where
  cfg0 : BitVec 16
  fwd : BitVec 16
  mirror : BitVec 16
  cfg1 : BitVec 16
  mac : Mac := Vector.replicate 6 0

/-- Byte `i` of an address. -/
def macByte (mac : Mac) (i : Nat) : BitVec 8 := mac.toList.getD i 0

abbrev IPO_NRULES : Nat := 16

instance ipoRules : NeZero IPO_NRULES := ⟨by decide⟩

def EADDRNOTAVAIL : Int := 99

def ipoMgmt : List EdgxPtIpo :=
  [{ cfg0 := 0xB1, fwd := 0x0, mirror := 0x0, cfg1 := 0xD000, mac := #v[0x01, 0x80, 0xC2, 0x00, 0x00, 0x00] },
    { cfg0 := 0xC1, fwd := 0x0, mirror := 0x0, cfg1 := 0xD000 }]

def ipoSelf : EdgxPtIpo := { cfg0 := 0x40C1, fwd := 0x0, mirror := 0x0, cfg1 := 0xD000 }
def ipoAll : EdgxPtIpo := { cfg0 := 0x4001, fwd := 0xFFFF, mirror := 0x0, cfg1 := 0xC000 }
def ipoNull : EdgxPtIpo := { cfg0 := 0x0, fwd := 0x0, mirror := 0x0, cfg1 := 0x0 }

def IPO_SELF_ENT : Fin IPO_NRULES := 2
def IPO_ALL_ENT : Fin IPO_NRULES := 3
def IPO_NONE_ENT_START : Nat := 4

structure Pt where
  ptid : Fin EDGX_BR_MAX_PORTS
  mgmtPtid : Fin EDGX_BR_MAX_PORTS
  /-- The traffic class for reserved addresses, as the module checks it. -/
  mtc : BitVec 16
  mtc_lt : mtc < 8

variable (c : CShift) (pt : Pt)

abbrev IpoAcc := Acc (Fin IPO_NRULES) IpoRule (BitVec 16)

def edgxPtIpoSetMac (mac : Mac) : List (IpoRule → IpoRule) :=
  [fun w => { w with eth0 := edgxSet16 c w.eth0 7 0 ((macByte mac 0).setWidth 16) },
    fun w => { w with eth0 := edgxSet16 c w.eth0 15 8 ((macByte mac 1).setWidth 16) },
    fun w => { w with eth1 := edgxSet16 c w.eth1 7 0 ((macByte mac 2).setWidth 16) },
    fun w => { w with eth1 := edgxSet16 c w.eth1 15 8 ((macByte mac 3).setWidth 16) },
    fun w => { w with eth2 := edgxSet16 c w.eth2 7 0 ((macByte mac 4).setWidth 16) },
    fun w => { w with eth2 := edgxSet16 c w.eth2 15 8 ((macByte mac 5).setWidth 16) }]

/-- What is written after the rule has been read. -/
def ipoWrites (ipo : EdgxPtIpo) : List (IpoRule → IpoRule) :=
  [fun w => { w with cfg0 := ipo.cfg0 }, fun w => { w with fwd := ipo.fwd },
    fun w => { w with mirr := ipo.mirror }, fun w => { w with cfg1 := ipo.cfg1 }] ++ edgxPtIpoSetMac c ipo.mac

def edgxPtIpoInitSingle (ipo : EdgxPtIpo) (entry : Fin IPO_NRULES) : List IpoAcc :=
  .transfer false entry :: (ipoWrites c ipo).map .set

def mgmtWrites : List (IpoRule → IpoRule) :=
  [fun w => { w with cfg0 := edgxSet16 c w.cfg0 15 15 (pt.mtc &&& 1) },
    fun w => { w with cfg0 := edgxSet16 c w.cfg0 13 12 (pt.mtc >>> 1) },
    fun w => { w with fwd := BIT pt.mgmtPtid.val }, fun w => { w with mirr := BIT pt.mgmtPtid.val }]

def selfWrites (devAddr : Mac) : List (IpoRule → IpoRule) :=
  edgxPtIpoSetMac c devAddr ++ [fun w => { w with fwd := BIT pt.mgmtPtid.val }, fun w => { w with mirr := BIT pt.mgmtPtid.val }]

def allWrites : List (IpoRule → IpoRule) :=
  [fun w => { w with fwd := edgxSet16 c w.fwd pt.ptid.val pt.ptid.val 0 }]

/-- The rules that are not used. -/
def noneEnts : List (Fin IPO_NRULES) := (List.finRange IPO_NRULES).filter (IPO_NONE_ENT_START ≤ ·.val)

/-- A rule is read, changed and written back. Most are read twice. -/
def edgxPtIpoInit (devAddr : Mac) : List IpoAcc :=
  (List.zip [0, 1] ipoMgmt).flatMap (fun (entry, ipo) =>
    edgxPtIpoInitSingle c ipo entry ++ (mgmtWrites c pt).map .set ++ [.transfer true entry]) ++
  (.transfer false IPO_SELF_ENT :: edgxPtIpoInitSingle c ipoSelf IPO_SELF_ENT ++
    (selfWrites c pt devAddr).map .set ++ [.transfer true IPO_SELF_ENT]) ++
  (.transfer false IPO_ALL_ENT :: edgxPtIpoInitSingle c ipoAll IPO_ALL_ENT ++
    (allWrites c pt).map .set ++ [.transfer true IPO_ALL_ENT]) ++
  noneEnts.flatMap fun entry =>
    .transfer false entry :: edgxPtIpoInitSingle c ipoNull entry ++ [.transfer true entry]

/-- What is done with the lock held. -/
inductive IpoSection where
  | init (devAddr : Mac)
  | setMac (mac : Mac)
  | setMirror (entry : Fin IPO_NRULES) (mirrCfg : BitVec 16)
  | getMirror

def ipoCode : IpoSection → List IpoAcc
  | .init devAddr => edgxPtIpoInit c pt devAddr
  | .setMac mac => updateOf IPO_SELF_ENT (edgxPtIpoSetMac c mac)
  | .setMirror entry mirrCfg => updateOf entry [fun w => { w with mirr := mirrCfg }]
  | .getMirror => [.transfer false IPO_SELF_ENT, .get (·.mirr)]

/-! ## Calls -/

def isValidEtherAddr (mac : Mac) : Bool := !(macByte mac 0).getLsbD 0 && mac != Vector.replicate 6 0

/-- Up to `eth_hw_addr_set`. -/
def edgxBrptSetMacAddr (mac : Mac) : Int × List IpoSection :=
  if isValidEtherAddr mac then (0, [.setMac mac]) else (-EADDRNOTAVAIL, [])

/-- `mirr_ptid` wraps. -/
def mirrPtidInt (mirrPtid : Int) : Int := (mirrPtid - 1).bmod (2 ^ 32)

def mirrCfgOf (mirrPtid : Int) : BitVec 16 :=
  BIT pt.mgmtPtid.val ||| if mirrPtidInt mirrPtid < 0 then 0 else (c.left 1 (mirrPtidInt mirrPtid)).setWidth 16

/-- The lock is released after each rule. -/
def edgxPtIpoSetMirror (mirrPtid : Int) : Int × List IpoSection :=
  if mirrPtidInt mirrPtid = pt.ptid.val ∨ mirrPtidInt mirrPtid = pt.mgmtPtid.val then (-EINVAL, [])
  else (0, ((List.finRange IPO_NRULES).filter (IPO_SELF_ENT ≤ ·)).map (.setMirror · (mirrCfgOf c pt mirrPtid)))

inductive IpoCall where
  | setMac (mac : Mac)
  | setMirror (mirrPtid : Int)
  | getMirror

def IpoCall.sections : IpoCall → Int × List IpoSection
  | .setMac mac => edgxBrptSetMacAddr mac
  | .setMirror mirrPtid => edgxPtIpoSetMirror c pt mirrPtid
  | .getMirror => (0, [.getMirror])

/-- A task calls the driver, goes on, or the hardware ends a transfer. -/
inductive IpoOp (T : Type*) where
  | call (t : T) (what : IpoCall)
  | run (t : T)
  | done

def IpoOp.toIndirect {T : Type*} : IpoOp T → IndirectOp T IpoSection
  | .call t what => .call t (what.sections c pt).2
  | .run t => .run t
  | .done => .done

abbrev Ipo (T : Type*) := Indirect T IpoSection (Fin IPO_NRULES) IpoRule (BitVec 16)

/-- The port is set up by `t` with whatever was in the rules. -/
def probed {T : Type*} (t : T) (bank : Bank (Fin IPO_NRULES) IpoRule) (devAddr : Mac) : Ipo T :=
  { bank, holder := some { task := t, left := ipoCode c pt (.init devAddr) } }

variable {T : Type*} [DecidableEq T]

def ipoStep (s : Ipo T) (op : IpoOp T) : Option (T × IpoSection) × Ipo T := Indirect.step (ipoCode c pt) s (op.toIndirect c pt)

end TsnSwitch.Port
