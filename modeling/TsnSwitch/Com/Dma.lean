/-
The DMA driver (edge_com_dma.c) as the net devices see it: frames are sent on
one of several rings, and a net device's queue is stopped when the ring takes
no more. Each ring has a fifo of the devices to wake.

A transmission, a completion and the wake-up of a timeout each are one step,
since the first two hold the lock of their ring; `processTx_run` and
`txTimeout_run` say that the loops take such steps.
-/
import TsnSwitch.Com.Ring

namespace TsnSwitch.Com

open Lib

def EDGX_DMA_TX_WEIGHT : Nat := 64

/-- The net devices: the port of each and how many queues it has. -/
structure NetDevs (Dev : Type*) where
  edgxDev2ptid : Dev → Ptid
  realNumTxQueues : Dev → Nat

/-- `struct edgx_com_dma`, the timestamps and the queues of the devices. -/
structure EdgxComDma (Dev : Type*) where
  txQueue : Nat → EdgxDmaQueue Dev := fun _ => edgxDmaQueueInit
  realNumTxQueues : Nat
  qIdxBrpt : Nat
  ts : EdgxComTs (Skb Dev)
  /-- The queues of the net devices that are stopped. -/
  stopped : Dev → Nat → Bool := fun _ _ => false

inductive NetdevTx where
  | ok
  | busy
  deriving DecidableEq

section Dma

variable {Dev : Type*} [DecidableEq Dev] (nd : NetDevs Dev)

/-- The queue that is stopped for a frame, and woken after one. -/
def subqueueOf (dev : Dev) (queueMapping : Nat) : Nat := if nd.edgxDev2ptid dev = none then queueMapping else 0

def EdgxComDma.setStopped (d : EdgxComDma Dev) (dev : Dev) (i : Nat) (b : Bool) : EdgxComDma Dev :=
  { d with stopped := Function.update d.stopped dev (Function.update (d.stopped dev) i b) }

/-- The environment of a transmission: whether the frame can be padded and
cloned, and where it is mapped. -/
structure XmitEnv where
  pad : Bool := true
  clone : Bool := true
  physAddr : Option (BitVec 32) := some 0

def edgxDmaEnqTx (d : EdgxComDma Dev) (qIdx : Nat) (skb : Skb Dev) (portMask flags : BitVec 16) (env : XmitEnv) :
    Int × EdgxComDma Dev :=
  if skb.len < ETH_ZLEN ∧ env.pad = false then (-ENOMEM, d)
  else
    let skb := if skb.len < ETH_ZLEN then { skb with len := ETH_ZLEN } else skb
    let (ret, q, ts) := edgxDmaEnq (d.txQueue qIdx) skb portMask flags (some d.ts) env.clone env.physAddr
    let d := { d with ts := ts.getD d.ts }
    if ret ≠ 0 then
      let (_, pendingDevs) := kfifoPut EDGX_BR_MAX_PORTS q.pendingDevs skb.dev
      (ret, { d with txQueue := Function.update d.txQueue qIdx { q with pendingDevs } }.setStopped skb.dev
        (subqueueOf nd skb.dev skb.queueMapping) true)
    else (ret, { d with txQueue := Function.update d.txQueue qIdx q })

/-- Bridge ports share a ring. -/
def edgxComDmaXmit (d : EdgxComDma Dev) (skb : Skb Dev) (ptcom flags : BitVec 16) (env : XmitEnv) :
    NetdevTx × EdgxComDma Dev :=
  let skb := if nd.edgxDev2ptid skb.dev = none then skb else { skb with queueMapping := d.qIdxBrpt }
  let (ret, d) := edgxDmaEnqTx nd d skb.queueMapping skb ptcom flags env
  (if ret = -ENOMEM then .busy else .ok, d)

/-- One device is woken for each frame that was sent. -/
def edgxDmaDeqTx (d : EdgxComDma Dev) (j : Nat) : Option (Skb Dev) × EdgxComDma Dev :=
  match edgxDmaDeq (d.txQueue j) 0 with
  | (none, _, q) => (none, { d with txQueue := Function.update d.txQueue j q })
  | (some (skb, _, _), _, q) =>
    match kfifoGet q.pendingDevs with
    | (none, _) => (some skb, { d with txQueue := Function.update d.txQueue j q })
    | (some dev, pendingDevs) =>
      (some skb, { d with txQueue := Function.update d.txQueue j { q with pendingDevs } }.setStopped dev
        (subqueueOf nd dev skb.queueMapping) false)

/-- The inner loop of `edgx_dma_process_tx`, with what is left of the budget. -/
def processQueue (j : Nat) : Nat → EdgxComDma Dev → Nat × EdgxComDma Dev
  | 0, d => (0, d)
  | budget + 1, d =>
    match edgxDmaDeqTx nd d j with
    | (none, d) => (0, d)
    | (some _, d) =>
      let (n, d) := processQueue j budget d
      (n + 1, d)

def edgxDmaProcessTx (d : EdgxComDma Dev) (budget : Nat) : Nat × EdgxComDma Dev :=
  (List.range d.realNumTxQueues).foldl (fun (i, d) j =>
    let (n, d) := processQueue nd j (budget - i) d
    (i + n, d)) (0, d)

/-- One round of the loop of `edgx_com_dma_tx_timeout`. -/
def wakeStopped (d : EdgxComDma Dev) (dev : Dev) (i : Nat) : EdgxComDma Dev :=
  if d.stopped dev i then d.setStopped dev i false else d

def edgxComDmaTxTimeout (d : EdgxComDma Dev) (dev : Dev) : EdgxComDma Dev :=
  (List.range (nd.realNumTxQueues dev)).foldl (fun d i => wakeStopped d dev i)
    (edgxDmaProcessTx nd d EDGX_DMA_TX_WEIGHT).2

/-! ## Steps -/

/-- What happens to the driver, by any thread and by the hardware. -/
inductive DmaOp (Dev : Type*) where
  | xmit (skb : Skb Dev) (ptcom flags : BitVec 16) (env : XmitEnv)
  | deqTx (j : Nat)
  | wake (dev : Dev) (i : Nat)
  | hw (j : Nat) (desc : Nat → EdgxComDmaDesc)

inductive DmaRet (Dev : Type*) where
  | xmit (ret : NetdevTx)
  | deqTx (skb : Option (Skb Dev))
  | done

def dmaStep (d : EdgxComDma Dev) : DmaOp Dev → DmaRet Dev × EdgxComDma Dev
  | .xmit skb ptcom flags env =>
    let (ret, d) := edgxComDmaXmit nd d skb ptcom flags env
    (.xmit ret, d)
  | .deqTx j =>
    let (skb, d) := edgxDmaDeqTx nd d j
    (.deqTx skb, d)
  | .wake dev i => (.done, wakeStopped d dev i)
  | .hw j desc => (.done, { d with txQueue := Function.update d.txQueue j { d.txQueue j with desc } })

/-- The loop over a ring takes steps. -/
theorem processQueue_run (j budget : Nat) (d : EdgxComDma Dev) :
    ∃ n, (processQueue nd j budget d).2 = after (dmaStep nd) d (List.replicate n (.deqTx j)) := by
  induction budget generalizing d with
  | zero => exact ⟨0, rfl⟩
  | succ budget ih =>
    rw [processQueue]
    cases hret : edgxDmaDeqTx nd d j with
    | mk skb d' =>
      have hstep : (dmaStep nd d (.deqTx j)).2 = d' := congrArg Prod.snd hret
      cases skb with
      | none => exact ⟨1, hstep.symm⟩
      | some skb =>
        obtain ⟨n, hn⟩ := ih d'
        refine ⟨n + 1, ?_⟩
        rw [List.replicate_succ, after_cons, hstep]
        exact hn

/-- **Processing takes completions**, one after the other. -/
theorem processTx_run (d : EdgxComDma Dev) (budget : Nat) :
    ∃ ops, (∀ op ∈ ops, ∃ j, op = .deqTx j) ∧ (edgxDmaProcessTx nd d budget).2 = after (dmaStep nd) d ops := by
  unfold edgxDmaProcessTx
  generalize (0 : Nat) = i
  generalize List.range d.realNumTxQueues = js
  induction js generalizing d i with
  | nil => exact ⟨[], fun _ h => (nomatch h), rfl⟩
  | cons j js ih =>
    obtain ⟨n, hn⟩ := processQueue_run nd j (budget - i) d
    obtain ⟨ops, hops, hafter⟩ := ih (processQueue nd j (budget - i) d).2 (i + (processQueue nd j (budget - i) d).1)
    refine ⟨List.replicate n (.deqTx j) ++ ops, fun op hop => ?_, ?_⟩
    · rcases List.mem_append.1 hop with hop | hop
      · exact ⟨j, List.eq_of_mem_replicate hop⟩
      · exact hops op hop
    · rw [after_append, ← hn]
      exact hafter

/-- **A timeout takes completions and wakes queues.** -/
theorem txTimeout_run (d : EdgxComDma Dev) (dev : Dev) :
    ∃ ops, (∀ op ∈ ops, (∃ j, op = .deqTx j) ∨ ∃ i, op = .wake dev i) ∧
      edgxComDmaTxTimeout nd d dev = after (dmaStep nd) d ops := by
  obtain ⟨ops, hops, hafter⟩ := processTx_run nd d EDGX_DMA_TX_WEIGHT
  refine ⟨ops ++ (List.range (nd.realNumTxQueues dev)).map (.wake dev), fun op hop => ?_, ?_⟩
  · rcases List.mem_append.1 hop with hop | hop
    · exact .inl (hops op hop)
    · obtain ⟨i, _, rfl⟩ := List.mem_map.1 hop
      exact .inr ⟨i, rfl⟩
  · rw [after_append, ← hafter, edgxComDmaTxTimeout, after, List.foldl_map]
    rfl

end Dma

end TsnSwitch.Com
