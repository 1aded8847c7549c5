/-
The interrupts of the switch and who serves them (edge_bridge.c, edge_com_dma.c,
edge_com_ts.c). The DMA has three sources and is polled, the timestamps have one
and a work item. Each source has a vector of its own, or all share one.

Everything runs at the same time: the handlers, one poll, the work, the ends of
polls on other processors, the threads that transmit, and the hardware. A step
accesses a register, or does what a lock keeps together.

The hardware raises the interrupt of a frame or a timestamp after it is there, and
may do so at the moment the bit is cleared (`again`). A vector that is shared is
taken to be triggered by its level. What comes before `edgx_irq_init` clears the
status has no interrupt, so the rings are empty at the start.
-/
import TsnSwitch.Lib.Irq
import TsnSwitch.Com.Dma
import TsnSwitch.Com.RxRing

namespace TsnSwitch.Com

open Lib

def EDGX_IRQ_NR_TS_TX : Nat := 0
def EDGX_IRQ_NR_DMA_TX : Nat := 4
def EDGX_IRQ_NR_DMA_RX : Nat := 5
def EDGX_IRQ_NR_DMA_ERR : Nat := 6

/-- `struct edgx_br_irq`. The vector of a source is its number. -/
structure EdgxBrIrq where
  trig : IrqTrig
  shared : Bool

/-- `BIT(irq)`. -/
def irqBit (nr : Nat) : BitVec 16 := BitVec.twoPow 16 nr

section Regs

variable (irq : EdgxBrIrq) (s : Irqs 16)

def edgxBrSetIntMask (mask : BitVec 16) : Irqs 16 := s.setMask mask
def edgxBrClrIntMask (mask : BitVec 16) : Irqs 16 := s.clrMask mask
def edgxBrGetIntMask : BitVec 16 := s.mask
def edgxBrClrIntStat (stat again : BitVec 16) : Irqs 16 := s.clear stat again
def edgxBrGetIntStat : BitVec 16 := s.stat

def edgxBrIrqEnable (nr : Nat) : Irqs 16 := if irq.trig = .level then edgxBrSetIntMask s (irqBit nr) else s
def edgxBrIrqDisable (nr : Nat) : Irqs 16 := if irq.trig = .level then edgxBrClrIntMask s (irqBit nr) else s

/-- The end of `edgx_irq_init`, when the vectors are requested. -/
def edgxIrqInit : Irqs 16 :=
  let intmask := irqBit EDGX_IRQ_NR_TS_TX ||| irqBit EDGX_IRQ_NR_DMA_TX ||| irqBit EDGX_IRQ_NR_DMA_RX |||
    irqBit EDGX_IRQ_NR_DMA_ERR
  edgxBrSetIntMask (edgxBrClrIntStat (edgxBrClrIntMask s (BitVec.allOnes 16)) intmask 0) intmask

end Regs

/-! ## Handlers -/

/-- What a handler has still to do. -/
inductive IsrAct where
  | readMask
  | readStat (intmask : BitVec 16)
  | disable (nr : Nat)
  | napiSchedule
  | queueWork
  | clrErr
  deriving DecidableEq

def edgxComTsIsr : List IsrAct := [.disable EDGX_IRQ_NR_TS_TX, .queueWork]
def edgxDmaTxIsr : List IsrAct := [.disable EDGX_IRQ_NR_DMA_TX, .napiSchedule]
def edgxDmaRxIsr : List IsrAct := [.disable EDGX_IRQ_NR_DMA_RX, .napiSchedule]
def edgxDmaErrIsr : List IsrAct := [.napiSchedule, .clrErr]

/-- The handlers that `edgx_br_single_isr` calls, for the bits of mask and status. -/
def singleIsrCalls (bits : BitVec 16) : List IsrAct :=
  (if bits.getLsbD EDGX_IRQ_NR_TS_TX then edgxComTsIsr else []) ++
  (if bits.getLsbD EDGX_IRQ_NR_DMA_TX then edgxDmaTxIsr else []) ++
  (if bits.getLsbD EDGX_IRQ_NR_DMA_RX then edgxDmaRxIsr else []) ++
  (if bits.getLsbD EDGX_IRQ_NR_DMA_ERR then edgxDmaErrIsr else [])

/-- The handler that is requested for a vector, if there is one. -/
def isrOf (irq : EdgxBrIrq) (v : Nat) : Option (List IsrAct) :=
  if irq.shared then if v = 0 then some [.readMask] else none
  else if v = EDGX_IRQ_NR_TS_TX then some edgxComTsIsr
  else if v = EDGX_IRQ_NR_DMA_TX then some edgxDmaTxIsr
  else if v = EDGX_IRQ_NR_DMA_RX then some edgxDmaRxIsr
  else if v = EDGX_IRQ_NR_DMA_ERR then some edgxDmaErrIsr
  else none

/-- The bits whose calls a vector answers. -/
def vecBits (irq : EdgxBrIrq) (v : Nat) : BitVec 16 := if irq.shared then BitVec.allOnes 16 else irqBit v

/-- The vector calls its handler. -/
def Called (irq : EdgxBrIrq) (s : Irqs 16) (v : Nat) : Prop :=
  (isrOf irq v).isSome ∧ s.calls irq.trig &&& vecBits irq v ≠ 0

instance (irq : EdgxBrIrq) (s : Irqs 16) (v : Nat) : Decidable (Called irq s v) := inferInstanceAs (Decidable (_ ∧ _))

/-! ## The driver -/

/-- Where a poll is. -/
inductive PollAt where
  /-- `edgx_dma_process_tx` with the budget: the frames so far and the queue. -/
  | processTx (i j : Nat)
  | clrTx
  /-- `edgx_dma_process_tx` for one frame. -/
  | postTx (j : Nat)
  | processRx (i : Nat)
  /-- A frame is passed up, and its buffer is to be replaced. -/
  | refillRx (i : Nat)
  | clrRx
  | postRx
  | postRefill
  | status
  | complete
  deriving DecidableEq

/-- A call of `edgx_dma_poll_rx`. -/
structure Poll where
  budget : Nat
  usedTx : Nat := 0
  postUsedTx : Nat := 0
  usedRx : Nat := 0
  postUsedRx : Nat := 0
  pc : PollAt := .processTx 0 0

/-- Where `edgx_com_ts_work_tx` is. -/
inductive WorkAt where
  | clr
  | find (ptid : Nat)
  | enable
  deriving DecidableEq

/-- A work item. -/
structure TsWork where
  pending : Bool := false
  running : Option WorkAt := none

/-- The driver. A poll that is complete has its lines still to open, on its own
processor. -/
structure ComState (Dev : Type*) where
  dma : EdgxComDma Dev
  rx : RxRing
  /-- The timestamps that the hardware has of each port. -/
  hwTs : Fin EDGX_BR_MAX_PORTS → List TsRegs := fun _ => []
  stamped : List (Skb Dev × BitVec 64 × BitVec 32) := []
  irqs : Irqs 16
  napi : Napi := {}
  poll : Option Poll := none
  ends : Nat → List Nat := fun _ => []
  work : TsWork := {}
  isr : Nat → List IsrAct := fun _ => []

inductive ComOp (Dev : Type*) where
  | dma (op : DmaOp Dev)
  | receive (f : RxFrame)
  | stamp (ptid : Fin EDGX_BR_MAX_PORTS) (r : TsRegs)
  | raise (bits : BitVec 16)
  | isrEnter (v : Nat)
  | isrStep (v : Nat) (again : BitVec 16)
  | poll (budget : Nat)
  | pollStep (cpu : Nat) (env : RxEnv) (again : BitVec 16) (goOn : Bool)
  | pollEnd (cpu : Nat)
  | work
  | workStep (curSec : BitVec 64) (again : BitVec 16)

section Steps

variable {Dev : Type*} [DecidableEq Dev] (nd : NetDevs Dev) (irq : EdgxBrIrq)

namespace ComState

variable (s : ComState Dev)

/-- Frames that are sent have an interrupt to come. -/
def dmaOp (op : DmaOp Dev) : ComState Dev :=
  { s with
    dma := (dmaStep nd s.dma op).2
    irqs := match op with
      | .hw _ _ => s.irqs.owe (irqBit EDGX_IRQ_NR_DMA_TX)
      | _ => s.irqs }

def receive (f : RxFrame) : ComState Dev :=
  { s with rx := s.rx.receive f, irqs := s.irqs.owe (irqBit EDGX_IRQ_NR_DMA_RX) }

def stamp (ptid : Fin EDGX_BR_MAX_PORTS) (r : TsRegs) : ComState Dev :=
  { s with
    hwTs := Function.update s.hwTs ptid (s.hwTs ptid ++ [r])
    irqs := s.irqs.owe (irqBit EDGX_IRQ_NR_TS_TX) }

/-- A handler is not entered again before it returns. -/
def isrEnter (v : Nat) : ComState Dev :=
  if s.isr v = [] ∧ Called irq s.irqs v then
    { s with
      irqs := s.irqs.take (vecBits irq v)
      isr := Function.update s.isr v ((isrOf irq v).getD []) }
  else s

def isrStep (v : Nat) (again : BitVec 16) : ComState Dev :=
  match s.isr v with
  | [] => s
  | .readMask :: rest =>
    let intmask := edgxBrGetIntMask s.irqs
    { s with isr := Function.update s.isr v (if intmask = 0 then rest else .readStat intmask :: rest) }
  | .readStat intmask :: rest =>
    { s with isr := Function.update s.isr v (singleIsrCalls (intmask &&& edgxBrGetIntStat s.irqs) ++ rest) }
  | .disable nr :: rest => { s with irqs := edgxBrIrqDisable irq s.irqs nr, isr := Function.update s.isr v rest }
  | .napiSchedule :: rest => { s with napi := s.napi.schedule, isr := Function.update s.isr v rest }
  | .queueWork :: rest =>
    { s with work := { s.work with pending := true }, isr := Function.update s.isr v rest }
  | .clrErr :: rest =>
    { s with
      irqs := edgxBrClrIntStat s.irqs (irqBit EDGX_IRQ_NR_DMA_ERR) again
      isr := Function.update s.isr v rest }

/-- A poller that is scheduled is polled. -/
def startPoll (budget : Nat) : ComState Dev :=
  if s.napi.sched ∧ s.poll.isNone then { s with poll := some { budget } } else s

/-- The next step of a poll. -/
def pollAt (p : Poll) (cpu : Nat) (env : RxEnv) (again : BitVec 16) (goOn : Bool) : ComState Dev :=
  match p.pc with
  | .processTx i j =>
    if i < p.budget ∧ j < s.dma.realNumTxQueues then
      let (skb, dma) := edgxDmaDeqTx nd s.dma j
      { s with dma, poll := some { p with pc := if skb.isSome then .processTx (i + 1) j else .processTx i (j + 1) } }
    else { s with poll := some { p with usedTx := i, pc := if i < p.budget then .clrTx else .processRx 0 } }
  | .clrTx =>
    { s with
      irqs := edgxBrClrIntStat s.irqs (irqBit EDGX_IRQ_NR_DMA_TX) again
      poll := some { p with pc := .postTx 0 } }
  | .postTx j =>
    if j < s.dma.realNumTxQueues then
      let (skb, dma) := edgxDmaDeqTx nd s.dma j
      { s with
        dma
        poll := some (if skb.isSome then { p with postUsedTx := 1, pc := .processRx 0 } else { p with pc := .postTx (j + 1) }) }
    else { s with poll := some { p with pc := .processRx 0 } }
  | .processRx i =>
    if i < p.budget then
      match edgxDmaDeq s.rx.q 0 with
      | (some frame, _, q) =>
        { s with rx := { s.rx with q, passed := s.rx.passed ++ [frame] }, poll := some { p with pc := .refillRx i } }
      | (none, _, _) => { s with poll := some { p with usedRx := i, pc := .clrRx } }
    else { s with poll := some { p with usedRx := i, pc := .status } }
  | .refillRx i =>
    { s with rx := { s.rx with q := (edgxDmaEnqRx s.rx.q env).2 }, poll := some { p with pc := .processRx (i + 1) } }
  | .clrRx =>
    { s with
      irqs := edgxBrClrIntStat s.irqs (irqBit EDGX_IRQ_NR_DMA_RX) again
      poll := some { p with pc := .postRx } }
  | .postRx =>
    match edgxDmaDeq s.rx.q 0 with
    | (some frame, _, q) =>
      { s with rx := { s.rx with q, passed := s.rx.passed ++ [frame] }, poll := some { p with pc := .postRefill } }
    | (none, _, _) => { s with poll := some { p with pc := .status } }
  | .postRefill =>
    { s with
      rx := { s.rx with q := (edgxDmaEnqRx s.rx.q env).2 }
      poll := some { p with postUsedRx := 1, pc := .status } }
  | .status =>
    if p.postUsedTx ≠ 0 ∨ p.postUsedRx ≠ 0 then { s with poll := none }
    else if max p.usedTx p.usedRx ≥ p.budget then { s with poll := none }
    else
      -- a bit that is set may have been set when it was cleared
      let status := edgxBrGetIntStat s.irqs
      if status.getLsbD EDGX_IRQ_NR_DMA_TX ∨ status.getLsbD EDGX_IRQ_NR_DMA_RX then { s with poll := none }
      else { s with poll := some { p with pc := .complete } }
  | .complete =>
    if s.ends cpu = [] then
      let (done, napi) := s.napi.completeDone goOn
      { s with
        napi
        poll := none
        ends := if done then Function.update s.ends cpu [EDGX_IRQ_NR_DMA_RX, EDGX_IRQ_NR_DMA_TX] else s.ends }
    else s

/-- A poll that was complete opens a line. -/
def pollEnd (cpu : Nat) : ComState Dev :=
  match s.ends cpu with
  | [] => s
  | nr :: rest => { s with irqs := edgxBrIrqEnable irq s.irqs nr, ends := Function.update s.ends cpu rest }

/-- Work that is pending starts when it does not run. -/
def startWork : ComState Dev :=
  if s.work.pending ∧ s.work.running.isNone then { s with work := { pending := false, running := some .clr } } else s

/-- `edgx_com_ts_find_tx` for a timestamp of the hardware. -/
def findTx (ptid : Fin EDGX_BR_MAX_PORTS) (pts : EdgxComPts (Skb Dev)) (curSec : BitVec 64) (r : TsRegs)
    (rs : List TsRegs) : ComState Dev :=
  let (found, txQueue) := findSkb id r pts.txQueue
  { s with
    dma := { s.dma with ts := Function.update s.dma.ts ptid (some { pts with txQueue }) }
    hwTs := Function.update s.hwTs ptid rs
    stamped := match found, edgxComTsRead curSec r with
      | some skb, some (sec, nsec) => s.stamped ++ [(skb, sec, nsec)]
      | _, _ => s.stamped }

/-- The next step of the work. -/
def workAt (pc : WorkAt) (curSec : BitVec 64) (again : BitVec 16) : ComState Dev :=
  match pc with
  | .clr =>
    { s with
      irqs := edgxBrClrIntStat s.irqs (irqBit EDGX_IRQ_NR_TS_TX) again
      work := { s.work with running := some (.find 0) } }
  | .find ptid =>
    if h : ptid < EDGX_BR_MAX_PORTS then
      match s.dma.ts ⟨ptid, h⟩, s.hwTs ⟨ptid, h⟩ with
      | some pts, r :: rs => s.findTx ⟨ptid, h⟩ pts curSec r rs
      | _, _ => { s with work := { s.work with running := some (.find (ptid + 1)) } }
    else { s with work := { s.work with running := some .enable } }
  | .enable =>
    { s with irqs := edgxBrIrqEnable irq s.irqs EDGX_IRQ_NR_TS_TX, work := { s.work with running := none } }

end ComState

def comStep (s : ComState Dev) : ComOp Dev → Unit × ComState Dev
  | .dma op => ((), s.dmaOp nd op)
  | .receive f => ((), s.receive f)
  | .stamp ptid r => ((), s.stamp ptid r)
  | .raise bits => ((), { s with irqs := s.irqs.raise bits })
  | .isrEnter v => ((), s.isrEnter irq v)
  | .isrStep v again => ((), s.isrStep irq v again)
  | .poll budget => ((), s.startPoll budget)
  | .pollStep cpu env again goOn =>
    match s.poll with
    | none => ((), s)
    | some p => ((), s.pollAt nd p cpu env again goOn)
  | .pollEnd cpu => ((), s.pollEnd irq cpu)
  | .work => ((), s.startWork)
  | .workStep curSec again =>
    match s.work.running with
    | none => ((), s)
    | some pc => ((), s.workAt irq pc curSec again)

/-- The driver when its interrupts are initialized. -/
def comStart (d : EdgxComDma Dev) (q : EdgxDmaQueue Unit) (irqs : Irqs 16) : ComState Dev :=
  { dma := d, rx := { q }, irqs := edgxIrqInit irqs }

end Steps

end TsnSwitch.Com
