/-
Frame preemption (edge_preempt.c): for each port the parameters, the result of
the verification with the neighbour, the verification timer and the queue
register. The counter of the timer function is a static variable, so it belongs
to all ports.

Counters, the fragment size and the times that are only shown are left out, and
so is the slack of the timer.
-/
import Mathlib.Data.BitVec
import TsnSwitch.Errno
import TsnSwitch.Lib.Run

namespace TsnSwitch.Preempt

/-- `enum verif_status`. -/
inductive VerifStatus where
  | unknown
  | init
  | inprocess
  | success
  | failed
  | disabled
  deriving DecidableEq

/-- Max number of verification attempts. -/
def PMT_VERIFY_LIMIT : BitVec 8 := 0x3
def PMT_EXPRESS : BitVec 8 := 0x1
def PMT_PREEMPT : BitVec 8 := 0x2

def SM_VER_ENA : BitVec 8 := 0x9
def SM_LFAIL_DISVER_ENA : BitVec 8 := 0x7
def SM_DISVER_ENA : BitVec 8 := 0x3
def SM_LFAIL_DISVER : BitVec 8 := 0x6
def SM_DISVER : BitVec 8 := 0x2
def SM_LFAIL_ENA : BitVec 8 := 0x5
def SM_LFAIL : BitVec 8 := 0x4
def SM_ZERO : BitVec 8 := 0x0
def SM_ENA : BitVec 8 := 0x1

def COM_FLAG_SMD_R : BitVec 8 := 0x60
def COM_FLAG_SMD_V : BitVec 8 := 0x40

def NSEC_PER_MSEC : Nat := 1000000

/-- `struct edgx_preempt`. `timer` is the period of the timer while it is active,
`txPree0` the register for the preemption of the queues. -/
structure EdgxPreempt where
  timer : Option Nat := none
  verState : VerifStatus := .init
  disableVer : Bool := false
  pEnable : Bool := false
  linkFail : Bool
  verified : Bool := false
  verTime : BitVec 8 := 10
  pmtStatus : BitVec 16 := 0
  txPree0 : BitVec 16 := 0

def preemptCalcPActive (pmt : EdgxPreempt) : Bool := pmt.pEnable && (pmt.verified || pmt.disableVer)

def preemptSetTx (pmt : EdgxPreempt) : EdgxPreempt :=
  if !preemptCalcPActive pmt then { pmt with txPree0 := 0 } else { pmt with txPree0 := pmt.pmtStatus }

def preemptStartVer (pmt : EdgxPreempt) : EdgxPreempt :=
  if pmt.timer.isNone then { pmt with timer := some (pmt.verTime.toNat * NSEC_PER_MSEC) } else pmt

def bit (b : Bool) (n : Nat) : BitVec 8 := (if b then 1 else 0) <<< n

/-- The switch of `preempt_update_sm`. -/
def smSwitch (pmt : EdgxPreempt) : EdgxPreempt :=
  let result := bit pmt.verified 3 ||| bit pmt.linkFail 2 ||| bit pmt.disableVer 1 ||| bit pmt.pEnable 0
  if result = SM_VER_ENA then { pmt with verState := .success }
  else if result = SM_LFAIL_DISVER_ENA ∨ result = SM_DISVER_ENA ∨ result = SM_LFAIL_DISVER ∨ result = SM_DISVER then
    { pmt with verState := .disabled }
  else if result = SM_LFAIL_ENA ∨ result = SM_LFAIL ∨ result = SM_ZERO then { pmt with verState := .init }
  else if result = SM_ENA then preemptStartVer pmt
  else pmt

def preemptUpdateSm (pmt : EdgxPreempt) : EdgxPreempt := preemptSetTx (smSwitch pmt)

/-- What the caller of a handler gets: the result of a write, and for the timer
whether it is restarted; with the status and the frame that was sent. -/
structure Out where
  ret : Int := 0
  restart : Bool := false
  verState : VerifStatus
  frame : Option (BitVec 8) := none
  deriving DecidableEq

/-! ## Writes -/

/-- `none` is a text that is no truth value. -/
def verDisTxStore (pmt : EdgxPreempt) (disableVer : Option Bool) : Int × EdgxPreempt :=
  let pmt := { pmt with disableVer := disableVer.getD pmt.disableVer }
  let pmt := if pmt.disableVer then { pmt with verified := false } else pmt
  (if disableVer.isNone then -EINVAL else 0, preemptUpdateSm pmt)

def enableTxStore (pmt : EdgxPreempt) (pEnable : Option Bool) : Int × EdgxPreempt :=
  let pmt := { pmt with pEnable := pEnable.getD pmt.pEnable }
  let pmt := if !pmt.pEnable then { pmt with verified := false } else pmt
  (if pEnable.isNone then -EINVAL else 0, preemptUpdateSm pmt)

def verTimeStore (pmt : EdgxPreempt) (verTime : Option (BitVec 8)) : Int × EdgxPreempt :=
  match verTime with
  | none => (-EINVAL, pmt)
  | some verTime => if verTime < 1 ∨ verTime > 128 then (-EINVAL, pmt) else (0, { pmt with verTime })

def framePreemptStatusWrite (nrQueues : Nat) (pmt : EdgxPreempt) (idx : Nat) (val : BitVec 8) : Int × EdgxPreempt :=
  if idx ≥ nrQueues ∨ val < PMT_EXPRESS ∨ val > PMT_PREEMPT then (-EINVAL, pmt)
  else
    let queue := 1#16 <<< idx
    let pmtStatus := if val = PMT_PREEMPT then pmt.pmtStatus ||| queue else pmt.pmtStatus &&& ~~~queue
    (0, preemptSetTx { pmt with pmtStatus })

/-! ## Events -/

/-- A frame for which there is no memory is not sent. -/
def preemptSendFrame (mem : Bool) (flag : BitVec 8) : Option (BitVec 8) := if mem then some flag else none

/-- The condition for which the timer is stopped. -/
def stopTimer (pmt : EdgxPreempt) : Bool := pmt.disableVer || pmt.linkFail || !pmt.pEnable || pmt.verified

/-- Returns whether the timer is restarted and the frame that was sent. -/
def preemptVerificationFn (pmt : EdgxPreempt) (verCnt : BitVec 8) (mem : Bool) :
    (Bool × Option (BitVec 8)) × EdgxPreempt × BitVec 8 :=
  if stopTimer pmt then ((false, none), { pmt with timer := none }, 0)
  else
    let period := pmt.verTime.toNat * NSEC_PER_MSEC
    if verCnt < PMT_VERIFY_LIMIT then
      ((true, preemptSendFrame mem COM_FLAG_SMD_V), { pmt with verState := .inprocess, timer := some period }, verCnt + 1)
    else
      ((true, none), { pmt with verified := false, verState := .failed, timer := some (period * 100) }, 0)

def edgxPreemptLinkChng (pmt : EdgxPreempt) (link : Bool) : EdgxPreempt :=
  let pmt := { pmt with linkFail := !link }
  preemptUpdateSm (if pmt.linkFail then { pmt with verified := false } else pmt)

def edgxPreemptRcv (pmt : EdgxPreempt) (flags : BitVec 8) (mem : Bool) : Option (BitVec 8) × EdgxPreempt :=
  if flags = COM_FLAG_SMD_V then (preemptSendFrame mem COM_FLAG_SMD_R, pmt)
  else if flags = COM_FLAG_SMD_R then (none, preemptUpdateSm { pmt with verified := true })
  else (none, pmt)

def edgxProbePreempt (link : Bool) : EdgxPreempt := preemptSetTx { linkFail := !link }

/-! ## The machine -/

inductive Event where
  | verDisTx (disableVer : Option Bool)
  | enableTx (pEnable : Option Bool)
  | verTime (verTime : Option (BitVec 8))
  | preemptStatus (idx : Nat) (val : BitVec 8)
  | linkChng (link : Bool)
  /-- The timer expires, if it is active. -/
  | timer (mem : Bool)
  | rcv (flags : BitVec 8) (mem : Bool)

/-- An event of one port. The counter is that of the timer function. -/
def portStep (nrQueues : Nat) (s : EdgxPreempt × BitVec 8) : Event → Out × EdgxPreempt × BitVec 8
  | .verDisTx disableVer =>
    let (ret, pmt) := verDisTxStore s.1 disableVer
    ({ ret, verState := pmt.verState }, pmt, s.2)
  | .enableTx pEnable =>
    let (ret, pmt) := enableTxStore s.1 pEnable
    ({ ret, verState := pmt.verState }, pmt, s.2)
  | .verTime verTime =>
    let (ret, pmt) := verTimeStore s.1 verTime
    ({ ret, verState := pmt.verState }, pmt, s.2)
  | .preemptStatus idx val =>
    let (ret, pmt) := framePreemptStatusWrite nrQueues s.1 idx val
    ({ ret, verState := pmt.verState }, pmt, s.2)
  | .linkChng link =>
    let pmt := edgxPreemptLinkChng s.1 link
    ({ verState := pmt.verState }, pmt, s.2)
  | .timer mem =>
    if s.1.timer.isNone then ({ verState := s.1.verState }, s)
    else
      let ((restart, frame), pmt, verCnt) := preemptVerificationFn s.1 s.2 mem
      ({ restart, verState := pmt.verState, frame }, pmt, verCnt)
  | .rcv flags mem =>
    let (frame, pmt) := edgxPreemptRcv s.1 flags mem
    ({ verState := pmt.verState, frame }, pmt, s.2)

/-- All ports, and the counter they share. -/
structure Ports where
  pmt : Nat → EdgxPreempt
  verCnt : BitVec 8 := 0

def step (nrQueues : Nat) (s : Ports) (e : Nat × Event) : Out × Ports :=
  let (out, pmt, verCnt) := portStep nrQueues (s.pmt e.1, s.verCnt) e.2
  (out, { pmt := Function.update s.pmt e.1 pmt, verCnt })

/-- The ports after the probe, with the links that are up. -/
def probed (link : Nat → Bool) : Ports := { pmt := fun p => edgxProbePreempt (link p) }

end TsnSwitch.Preempt
