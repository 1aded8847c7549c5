/-
Transmit timestamps (edge_com_ts.c). A frame that is to be timestamped is put
into the fifo of its port and a clone of it is sent. A timestamp of the
hardware comes with some bytes of its frame's header. Frames are taken from
the fifo until one has the same bytes; the others are freed.

The frames are of any type `α`, and `skb` says what a frame is: frames with
the same content can be told apart. A clone is a header of the same frame.
-/
import TsnSwitch.Com.Skb

namespace TsnSwitch.Com

def EDGX_COM_TS_KFIFO_LEN : Nat := 8
def NSEC_PER_SEC : BitVec 32 := 1000000000

/-- `struct edgx_com_pts` of a port. -/
structure EdgxComPts (α : Type*) where
  txQueue : List α := []

/-- `struct edgx_com_ts`: the ports with timestamps. -/
abbrev EdgxComTs (α : Type*) := Fin EDGX_BR_MAX_PORTS → Option (EdgxComPts α)

/-- The registers of a timestamp. -/
structure TsRegs where
  hdrMsg0 : BitVec 16
  hdrMsg1 : BitVec 16
  timeHi : BitVec 16
  timeLo : BitVec 16

/-- What is sent: the frame itself or its clone. -/
inductive Sent (α : Type*) where
  | skb (a : α)
  | backup (a : α)

def Sent.frame {α : Type*} : Sent α → α
  | .skb a => a
  | .backup a => a

/-- `ffs(ptcom) - 1`: the lowest port of the mask. -/
def ptidOf (ptcom : BitVec 16) : Ptid := (List.finRange EDGX_BR_MAX_PORTS).find? fun p => ptcom.getLsbD p.val

section Read

variable {Dev : Type*}

def edgxComGetPtpHdr (skb : Skb Dev) : Option (List (BitVec 8)) :=
  if skb.hProto ≠ ETH_P_1588 then none
  else if skb.payload.getD 0 0 &&& 0x0F > 3 then none
  else some skb.payload

/-- The header bytes of a timestamp. -/
def TsRegs.hdr (r : TsRegs) : Nat → BitVec 8
  | 0 => r.hdrMsg0.setWidth 8
  | 4 => (r.hdrMsg0 >>> 8).setWidth 8
  | 30 => r.hdrMsg1.setWidth 8
  | 31 => (r.hdrMsg1 >>> 8).setWidth 8
  | _ => 0

/-- The bytes that are compared. -/
def hdrPosition : List Nat := [0, 4, 30, 31]

/-- The time of a timestamp: the registers have the two low bits of the
seconds, which are to be at most a second off. -/
def edgxComTsRead (curSec : BitVec 64) (r : TsRegs) : Option (BitVec 64 × BitVec 32) :=
  let sec : BitVec 64 := ((r.timeHi &&& 0xc000) >>> 14).setWidth 64
  let nsec : BitVec 32 := ((r.timeHi &&& 0x3fff).setWidth 32 <<< 16) ||| r.timeLo.setWidth 32
  let (sec, nsec) := if nsec ≥ NSEC_PER_SEC then (sec + 1, nsec - NSEC_PER_SEC) else (sec, nsec)
  let nsec := nsec &&& 0x3fffffff
  if curSec &&& 3 = sec then some (curSec, nsec)
  else if (curSec - 1) &&& 3 = sec then some (curSec - 1, nsec)
  else if (curSec + 1) &&& 3 = sec then some (curSec + 1, nsec)
  else none

/-- The frame has the header bytes of the timestamp. -/
def hdrMatch (skb : Skb Dev) (r : TsRegs) : Bool :=
  match edgxComGetPtpHdr skb with
  | none => false
  | some hdr => hdrPosition.all fun i => r.hdr i == hdr.getD i 0

end Read

section Match

variable {Dev α : Type*} (skb : α → Skb Dev)

/-- `clone` is whether the allocation succeeds. -/
def edgxComTsXmit (ts : EdgxComTs α) (a : α) (ptcom : BitVec 16) (clone : Bool) : Sent α × EdgxComTs α :=
  match ptidOf ptcom with
  | none => (.skb a, ts)
  | some ptid =>
    match ts ptid with
    | none => (.skb a, ts)
    | some pts =>
      if edgxComGetPtpHdr (skb a) = none then (.skb a, ts)
      else if clone = false then (.skb a, ts)
      else
        let (put, txQueue) := kfifoPut EDGX_COM_TS_KFIFO_LEN pts.txQueue a
        if put = false then (.skb a, ts)
        else (.backup a, Function.update ts ptid (some { pts with txQueue }))

/-- What is sent is a header of the frame. -/
theorem xmit_frame (ts : EdgxComTs α) (a : α) (ptcom : BitVec 16) (clone : Bool) :
    (edgxComTsXmit skb ts a ptcom clone).1.frame = a := by
  unfold edgxComTsXmit
  split
  · rfl
  · split
    · rfl
    · split
      · rfl
      · split
        · rfl
        · dsimp only
          split <;> rfl

/-- Take frames from the fifo until one has the bytes of the timestamp. -/
def findSkb (r : TsRegs) : List α → Option α × List α
  | [] => (none, [])
  | a :: q => if hdrMatch (skb a) r then (some a, q) else findSkb r q

/-- The loop of `edgx_com_ts_find_tx` over the timestamps that are there: the
frames that get theirs, and the fifo. -/
def edgxComTsFindTx (curSec : BitVec 64) : List TsRegs → List α → List (α × BitVec 64 × BitVec 32) × List α
  | [], q => ([], q)
  | r :: rs, q =>
    let time := edgxComTsRead curSec r
    let (found, q) := findSkb skb r q
    let (out, q) := edgxComTsFindTx curSec rs q
    match found, time with
    | some a, some t => ((a, t) :: out, q)
    | _, _ => (out, q)

end Match

end TsnSwitch.Com
