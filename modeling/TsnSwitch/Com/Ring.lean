/-
A queue of the DMA (edge_com_dma.c): the ring of descriptors and the frames in
it. The hardware owns a descriptor while its bit 15 is set.
-/
import TsnSwitch.Lib.RingBuffer
import TsnSwitch.Lib.Run
import TsnSwitch.Com.TxTs

namespace TsnSwitch.Com

open Lib

def EDGX_DMA_DESC_CNT : Nat := 256
def EDGX_DMA_MAX_LEN : Nat := 0x7ff

/-- `struct edgx_com_dma_desc` without its time. -/
structure EdgxComDmaDesc where
  cfg : BitVec 16 := 0
  mgmt : BitVec 16 := 0
  pData : BitVec 32 := 0

namespace EdgxComDmaDesc

variable (d : EdgxComDmaDesc)

def getLen : BitVec 16 := d.cfg &&& 0x7ff
def getLerr : Bool := d.cfg.getLsbD 13
def getErr : Bool := d.cfg.getLsbD 14
def getInit : Bool := d.cfg.getLsbD 15
def getPort : BitVec 16 := d.mgmt &&& 0xfff
def getFlags : BitVec 16 := d.mgmt >>> 8

def clrLerr : EdgxComDmaDesc := { d with cfg := d.cfg &&& ~~~0x2000 }
def clrErr : EdgxComDmaDesc := { d with cfg := d.cfg &&& ~~~0x4000 }
def setPort (portMask flags : BitVec 16) : EdgxComDmaDesc := { d with mgmt := (flags <<< 8) ||| (portMask &&& 0xfff) }
def setInit : EdgxComDmaDesc := { d with cfg := d.cfg ||| 0x8000 }
def setLen (len : Nat) : EdgxComDmaDesc := { d with cfg := (d.cfg &&& ~~~0x7ff) ||| (BitVec.ofNat 16 len &&& 0x7ff) }
def setPdata (pData : BitVec 32) : EdgxComDmaDesc := { d with pData }

end EdgxComDmaDesc

/-- `struct edgx_dma_queue`. -/
structure EdgxDmaQueue (Dev : Type*) where
  toDevice : Bool
  desc : Nat → EdgxComDmaDesc := fun _ => {}
  enqPos : Nat := 0
  deqPos : Nat := 0
  cnt : Nat := 0
  skb : Nat → Option (Skb Dev) := fun _ => none
  pendingDevs : List Dev := []
  /-- The descriptor the hardware was told last, EDGX_DMA_DESC_P. -/
  descP : Nat := EDGX_DMA_DESC_CNT - 1

section Ring

variable {Dev : Type*}

/-- A queue to send, as it is probed. -/
def edgxDmaQueueInit : EdgxDmaQueue Dev := { toDevice := true }

/-- `physAddr` is the address the frame is mapped to, if it can be mapped. -/
def edgxDmaEnq (q : EdgxDmaQueue Dev) (skb : Skb Dev) (portMask flags : BitVec 16) (ts : Option (EdgxComTs (Skb Dev)))
    (clone : Bool) (physAddr : Option (BitVec 32)) : Int × EdgxDmaQueue Dev × Option (EdgxComTs (Skb Dev)) :=
  let len := if q.toDevice then skb.len else EDGX_DMA_MAX_LEN
  -- one descriptor stays empty
  if q.cnt < EDGX_DMA_DESC_CNT - 1 then
    let desc := q.desc q.enqPos
    if desc.getInit then (-ENOMEM, q, ts)
    else
      let (skb, ts) :=
        match ts with
        | none => (skb, none)
        | some ts =>
          let (sent, ts) := edgxComTsXmit id ts skb portMask clone
          (sent.frame, some ts)
      match physAddr with
      | none => (-ENOMEM, q, ts)
      | some physAddr =>
        let desc := (((desc.setLen len).setPort portMask flags).setPdata physAddr).setInit
        let q := { q with
          desc := Function.update q.desc q.enqPos desc
          skb := Function.update q.skb q.enqPos (some skb)
          descP := q.enqPos
          enqPos := (q.enqPos + 1) % EDGX_DMA_DESC_CNT
          cnt := q.cnt + 1 }
        (if q.cnt < EDGX_DMA_DESC_CNT - 1 then 0 else -ENOSPC, q, ts)
  else (-ENOMEM, q, ts)

/-- The frame, with the ports and flags of a frame that was received. -/
def edgxDmaDeq (q : EdgxDmaQueue Dev) (errorCnt : Nat) :
    Option (Skb Dev × BitVec 16 × BitVec 16) × Nat × EdgxDmaQueue Dev :=
  let desc := q.desc q.deqPos
  if q.cnt = 0 ∨ desc.getInit then (none, errorCnt, q)
  else
    match q.skb q.deqPos with
    -- a null pointer, which the invariant excludes
    | none => (none, errorCnt, q)
    | some skb =>
      let (errorCnt, desc) := if desc.getLerr then (errorCnt + 1, desc.clrLerr) else (errorCnt, desc)
      let (errorCnt, desc) := if desc.getErr then (errorCnt + 1, desc.clrErr) else (errorCnt, desc)
      let skb := if q.toDevice then skb else { skb with len := skb.len + desc.getLen.toNat }
      (some (skb, desc.getPort, desc.getFlags), errorCnt,
        { q with
          desc := Function.update q.desc q.deqPos desc
          skb := Function.update q.skb q.deqPos none
          deqPos := (q.deqPos + 1) % EDGX_DMA_DESC_CNT
          cnt := q.cnt - 1 })

/-! ## Runs of a queue to send -/

/-- What happens to a queue. The hardware may write anything to the
descriptors. -/
inductive RingOp (Dev : Type*) where
  | enq (skb : Skb Dev) (portMask flags : BitVec 16) (ts : Option (EdgxComTs (Skb Dev))) (clone : Bool)
      (physAddr : Option (BitVec 32))
  | deq
  | hw (desc : Nat → EdgxComDmaDesc)

inductive RingRet (Dev : Type*) where
  | enq (ret : Int)
  | deq (skb : Option (Skb Dev))
  | hw

/-- The frames that were completed. -/
def completed : List (RingOp Dev × RingRet Dev) → List (Skb Dev) :=
  List.filterMap fun
    | (_, .deq skb) => skb
    | _ => none

/-- The slots from `deq_pos` on, as many as `cnt`. -/
def EdgxDmaQueue.window (q : EdgxDmaQueue Dev) : List (Option (Skb Dev)) :=
  (List.range q.cnt).map fun k => q.skb ((q.deqPos + k) % EDGX_DMA_DESC_CNT)

/-- The positions, the count and the slots agree. -/
structure RingExact (q : EdgxDmaQueue Dev) : Prop where
  enqPos : q.enqPos = (q.deqPos + q.cnt) % EDGX_DMA_DESC_CNT
  cnt_le : q.cnt ≤ EDGX_DMA_DESC_CNT - 1
  skb_iff : ∀ i < EDGX_DMA_DESC_CNT, (q.skb i).isSome = true ↔ ∃ k < q.cnt, i = (q.deqPos + k) % EDGX_DMA_DESC_CNT

/-- The queue holds `xs`. -/
structure RingHolds (q : EdgxDmaQueue Dev) (xs : List (Skb Dev)) : Prop where
  holds : Ring.Holds q.skb EDGX_DMA_DESC_CNT q.deqPos xs
  cnt : q.cnt = xs.length
  enqPos : q.enqPos = (q.deqPos + q.cnt) % EDGX_DMA_DESC_CNT
  cnt_le : q.cnt ≤ EDGX_DMA_DESC_CNT - 1
  toDevice : q.toDevice = true

/-- A frame is refused although there is room: the descriptor is still the
hardware's, or the frame cannot be mapped. -/
def EdgxDmaQueue.refusesWithRoom (q : EdgxDmaQueue Dev) (physAddr : Option (BitVec 32)) : Prop :=
  q.cnt < EDGX_DMA_DESC_CNT - 1 ∧ ((q.desc q.enqPos).getInit = true ∨ physAddr = none)

instance (q : EdgxDmaQueue Dev) (physAddr : Option (BitVec 32)) : Decidable (q.refusesWithRoom physAddr) :=
  inferInstanceAs (Decidable (_ ∧ (_ ∨ _)))

namespace RingHolds

variable {q : EdgxDmaQueue Dev} {xs : List (Skb Dev)}

theorem init : RingHolds (edgxDmaQueueInit : EdgxDmaQueue Dev) [] :=
  ⟨Ring.Holds.empty (by decide), rfl, rfl, Nat.zero_le _, rfl⟩

theorem exact (h : RingHolds q xs) : RingExact q :=
  ⟨h.enqPos, h.cnt_le, fun i hi => by rw [h.cnt]; exact h.holds.isSome_iff hi⟩

/-- A frame is enqueued behind the others, or not at all: when the ring is
full, or for another reason. -/
theorem enq (h : RingHolds q xs) (skb : Skb Dev) (portMask flags : BitVec 16) (ts : Option (EdgxComTs (Skb Dev)))
    (clone : Bool) (physAddr : Option (BitVec 32)) :
    let r := edgxDmaEnq q skb portMask flags ts clone physAddr
    (q.cnt = EDGX_DMA_DESC_CNT - 1 ∨ q.refusesWithRoom physAddr) ∧ r.1 = -ENOMEM ∧ r.2.1 = q ∨
      q.cnt < EDGX_DMA_DESC_CNT - 1 ∧ ¬ q.refusesWithRoom physAddr ∧
        r.1 = (if q.cnt + 1 < EDGX_DMA_DESC_CNT - 1 then 0 else -ENOSPC) ∧
        r.2.1.pendingDevs = q.pendingDevs ∧ RingHolds r.2.1 (xs ++ [skb]) := by
  intro r
  have hr : r = edgxDmaEnq q skb portMask flags ts clone physAddr := rfl
  unfold edgxDmaEnq at hr
  dsimp only at hr
  split at hr
  · rename_i hroom
    split at hr
    · rename_i hinit
      exact .inl ⟨.inr ⟨hroom, .inl hinit⟩, by rw [hr], by rw [hr]⟩
    · rename_i hinit
      -- whatever is sent, it is a header of the frame
      have hsent : (match ts with
          | none => (skb, none)
          | some ts => ((edgxComTsXmit id ts skb portMask clone).1.frame,
            some (edgxComTsXmit id ts skb portMask clone).2)).1 = skb := by
        cases ts with
        | none => rfl
        | some ts => exact xmit_frame id ts skb portMask clone
      rw [hsent] at hr
      cases physAddr with
      | none => exact .inl ⟨.inr ⟨hroom, .inr rfl⟩, by rw [hr], by rw [hr]⟩
      | some physAddr =>
        refine .inr ⟨hroom, fun h => ?_, by rw [hr], by rw [hr], ?_⟩
        · exact h.2.elim hinit nofun
        · have hlen : (xs ++ [skb]).length = xs.length + 1 := List.length_append
          have hcnt := h.cnt
          rw [hr]
          refine ⟨?_, ?_, ?_, ?_, h.toDevice⟩
          · have hpush := h.holds.push (Nat.lt_of_lt_of_le (h.cnt ▸ hroom) (by decide)) skb
            rw [← h.cnt, ← h.enqPos] at hpush
            exact hpush
          · dsimp only
            omega
          · dsimp only
            rw [h.enqPos, Nat.mod_add_mod, Nat.add_assoc]
          · dsimp only
            omega
  · rename_i hfull
    have hle := h.cnt_le
    exact .inl ⟨.inl (by omega), by rw [hr], by rw [hr]⟩

/-- The oldest frame is dequeued once the hardware has done with it. -/
theorem deq (h : RingHolds q xs) (errorCnt : Nat) :
    let r := edgxDmaDeq q errorCnt
    (q.cnt = 0 ∨ (q.desc q.deqPos).getInit = true) ∧ r.1 = none ∧ r.2.2 = q ∨
      (q.desc q.deqPos).getInit = false ∧ ∃ skb rest, xs = skb :: rest ∧ r.1.map Prod.fst = some skb ∧
        r.2.2.pendingDevs = q.pendingDevs ∧ RingHolds r.2.2 rest := by
  intro r
  have hr : r = edgxDmaDeq q errorCnt := rfl
  unfold edgxDmaDeq at hr
  dsimp only at hr
  by_cases hwait : q.cnt = 0 ∨ (q.desc q.deqPos).getInit = true
  · rw [if_pos hwait] at hr
    exact .inl ⟨hwait, by rw [hr], by rw [hr]⟩
  · obtain ⟨hcnt, hinit⟩ := not_or.1 hwait
    refine .inr ⟨by simpa using hinit, ?_⟩
    cases xs with
    | nil => exact absurd h.cnt hcnt
    | cons skb rest =>
      have hfront : q.skb q.deqPos = some skb := h.holds.front
      rw [if_neg hwait, hfront, h.toDevice] at hr
      refine ⟨skb, rest, rfl, by rw [hr]; rfl, by rw [hr], ?_⟩
      have hlen : (skb :: rest).length = rest.length + 1 := rfl
      have hc := h.cnt
      have hle := h.cnt_le
      rw [hr]
      refine ⟨h.holds.pop, ?_, ?_, ?_, rfl⟩
      · dsimp only
        omega
      · dsimp only
        rw [h.enqPos, Nat.mod_add_mod]
        congr 1
        omega
      · dsimp only
        omega

theorem hw (h : RingHolds q xs) (desc : Nat → EdgxComDmaDesc) : RingHolds { q with desc } xs :=
  ⟨h.holds, h.cnt, h.enqPos, h.cnt_le, h.toDevice⟩

end RingHolds

end Ring

end TsnSwitch.Com
