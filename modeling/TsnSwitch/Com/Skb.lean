/-
Frames and bounded fifos of the communication driver.
-/
import TsnSwitch.Errno

namespace TsnSwitch.Com

def EDGX_BR_MAX_PORTS : Nat := 16

def ETH_ZLEN : Nat := 60
def ETH_P_1588 : BitVec 16 := 0x88F7

theorem maxPorts_pos : 0 < EDGX_BR_MAX_PORTS := by decide

/-- A port of the bridge. `PT_EP_ID`, the end point, is none. -/
abbrev Ptid := Option (Fin EDGX_BR_MAX_PORTS)

/-- What the driver reads of a `struct sk_buff`. -/
structure Skb (Dev : Type*) where
  dev : Dev
  len : Nat
  queueMapping : Nat
  hProto : BitVec 16
  /-- The bytes after the Ethernet header. -/
  payload : List (BitVec 8)
  deriving DecidableEq

/-- `kfifo_put` and whether there was room. -/
def kfifoPut {α : Type*} (size : Nat) (q : List α) (a : α) : Bool × List α :=
  if q.length < size then (true, q ++ [a]) else (false, q)

def kfifoGet {α : Type*} : List α → Option α × List α
  | [] => (none, [])
  | a :: q => (some a, q)

end TsnSwitch.Com
