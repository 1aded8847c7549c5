/-
Polling forgets no frame (edge_com_dma.c): whenever the driver rests, every frame
that was received has been passed up, and no ring has a frame that was sent and not
taken (`resting_done`). This is so for lines that are triggered by their level, where
a handler closes the line and the end of the poll opens it, and by an edge, where
nothing is closed and a poll looks at the status before it is complete.
-/
import TsnSwitch.Com.Irq
import TsnSwitch.Com.Wake

namespace TsnSwitch.Com

open Lib

/-! ## Rings to send -/

section Tx

variable {Dev : Type*}

/-- The oldest frame was sent. -/
def EdgxDmaQueue.Ready (q : EdgxDmaQueue Dev) : Prop := q.cnt ≠ 0 ∧ (q.desc q.deqPos).getInit = false

/-- What is done to the rings leaves them rings, and makes no frame ready. -/
structure TxKept (d d' : EdgxComDma Dev) : Prop where
  num : d'.realNumTxQueues = d.realNumTxQueues
  ring : ∀ j, ∃ xs, RingHolds (d'.txQueue j) xs
  ready : ∀ j, (d'.txQueue j).Ready → (d.txQueue j).Ready
  ts : ∀ ptid, (d'.ts ptid).isSome = (d.ts ptid).isSome

/-- A frame that is enqueued is the hardware's. -/
theorem RingHolds.ready_of_enq {q : EdgxDmaQueue Dev} {xs : List (Skb Dev)} (h : RingHolds q xs) (skb : Skb Dev)
    (portMask flags : BitVec 16) (ts : Option (EdgxComTs (Skb Dev))) (clone : Bool) (physAddr : Option (BitVec 32))
    (hready : (edgxDmaEnq q skb portMask flags ts clone physAddr).2.1.Ready) : q.Ready := by
  generalize hr : edgxDmaEnq q skb portMask flags ts clone physAddr = r at hready
  unfold edgxDmaEnq at hr
  dsimp only at hr
  split at hr
  · rename_i hroom
    split at hr
    · rw [← hr] at hready
      exact hready
    · cases physAddr with
      | none =>
        rw [← hr] at hready
        exact hready
      | some physAddr =>
        rw [← hr] at hready
        obtain ⟨_, hinit⟩ := hready
        dsimp only at hinit
        have hhead := h.holds.head_lt
        by_cases hcnt : q.cnt = 0
        · -- the ring was empty, and its oldest frame is the new one
          have hpos : q.enqPos = q.deqPos := by
            rw [h.enqPos, hcnt, Nat.add_zero, Nat.mod_eq_of_lt hhead]
          rw [hpos, Function.update_self] at hinit
          exact absurd hinit (by rw [EdgxComDmaDesc.getInit_setInit]; decide)
        · have hpos : q.deqPos ≠ q.enqPos := by
            rw [h.enqPos]
            simp only [EDGX_DMA_DESC_CNT] at hroom hhead ⊢
            omega
          rw [Function.update_of_ne hpos] at hinit
          exact ⟨hcnt, hinit⟩
  · rw [← hr] at hready
    exact hready

theorem xmit_isSome (ts : EdgxComTs (Skb Dev)) (skb : Skb Dev) (ptcom : BitVec 16) (clone : Bool)
    (ptid : Fin EDGX_BR_MAX_PORTS) : ((edgxComTsXmit id ts skb ptcom clone).2 ptid).isSome = (ts ptid).isSome := by
  unfold edgxComTsXmit
  split
  · rfl
  · rename_i p _
    split
    · rfl
    · rename_i pts hpts
      split
      · rfl
      · split
        · rfl
        · dsimp only
          split
          · rfl
          · by_cases hp : ptid = p
            · subst hp
              simp [hpts]
            · simp [hp]

theorem enq_isSome (q : EdgxDmaQueue Dev) (skb : Skb Dev) (portMask flags : BitVec 16) (ts : EdgxComTs (Skb Dev))
    (clone : Bool) (physAddr : Option (BitVec 32)) (ptid : Fin EDGX_BR_MAX_PORTS) :
    (((edgxDmaEnq q skb portMask flags (some ts) clone physAddr).2.2.getD ts) ptid).isSome = (ts ptid).isSome := by
  unfold edgxDmaEnq
  dsimp only
  split
  · split
    · rfl
    · cases physAddr with
      | none => exact xmit_isSome ts skb portMask clone ptid
      | some physAddr => exact xmit_isSome ts skb portMask clone ptid
  · rfl

namespace TxKept

variable {d d' : EdgxComDma Dev}

theorem refl (h : ∀ j, ∃ xs, RingHolds (d.txQueue j) xs) : TxKept d d := ⟨rfl, h, fun _ => id, fun _ => rfl⟩

/-- One ring is replaced. -/
theorem set (h : ∀ j, ∃ xs, RingHolds (d.txQueue j) xs) {j : Nat} {q : EdgxDmaQueue Dev}
    (hq : d'.txQueue = Function.update d.txQueue j q) (hnum : d'.realNumTxQueues = d.realNumTxQueues)
    (hring : ∃ xs, RingHolds q xs) (hready : q.Ready → (d.txQueue j).Ready)
    (hts : ∀ ptid, (d'.ts ptid).isSome = (d.ts ptid).isSome) : TxKept d d' := by
  refine ⟨hnum, fun k => ?_, fun k => ?_, hts⟩
  · rw [hq]
    by_cases hk : k = j
    · rw [hk, Function.update_self]
      exact hring
    · rw [Function.update_of_ne hk]
      exact h k
  · rw [hq]
    by_cases hk : k = j
    · rw [hk, Function.update_self]
      exact hready
    · rw [Function.update_of_ne hk]
      exact id

end TxKept

theorem txKept_setTs {d : EdgxComDma Dev} (h : ∀ j, ∃ xs, RingHolds (d.txQueue j) xs) {ptid : Fin EDGX_BR_MAX_PORTS}
    {pts : EdgxComPts (Skb Dev)} (hpts : d.ts ptid = some pts) (pts' : EdgxComPts (Skb Dev)) :
    TxKept d { d with ts := Function.update d.ts ptid (some pts') } := by
  refine ⟨rfl, h, fun _ => id, fun ptid' => ?_⟩
  dsimp only
  by_cases hp : ptid' = ptid
  · rw [hp, Function.update_self, hpts]
    rfl
  · rw [Function.update_of_ne hp]

variable [DecidableEq Dev] (nd : NetDevs Dev) {d : EdgxComDma Dev}

theorem txKept_enqTx (h : ∀ j, ∃ xs, RingHolds (d.txQueue j) xs) (j : Nat) (skb : Skb Dev) (portMask flags : BitVec 16)
    (env : XmitEnv) : TxKept d (edgxDmaEnqTx nd d j skb portMask flags env).2 := by
  unfold edgxDmaEnqTx
  split
  · exact .refl h
  · dsimp only
    generalize (if skb.len < ETH_ZLEN then { skb with len := ETH_ZLEN } else skb) = skb
    obtain ⟨xs, hx⟩ := h j
    have hready := hx.ready_of_enq skb portMask flags (some d.ts) env.clone env.physAddr
    have hts := enq_isSome (d.txQueue j) skb portMask flags d.ts env.clone env.physAddr
    have hring : ∃ xs, RingHolds (edgxDmaEnq (d.txQueue j) skb portMask flags (some d.ts) env.clone env.physAddr).2.1 xs := by
      obtain ⟨_, _, hq⟩ | ⟨_, _, _, _, hq⟩ := hx.enq skb portMask flags (some d.ts) env.clone env.physAddr
      · exact ⟨xs, by rw [hq]; exact hx⟩
      · exact ⟨_, hq⟩
    generalize edgxDmaEnq (d.txQueue j) skb portMask flags (some d.ts) env.clone env.physAddr = r at hready hts hring
    obtain ⟨ret, q, ts⟩ := r
    dsimp only at hready hts hring ⊢
    split
    · -- the ring records the device, and is the same otherwise
      refine .set h rfl rfl ?_ hready hts
      obtain ⟨xs, hx⟩ := hring
      exact ⟨xs, hx.holds, hx.cnt, hx.enqPos, hx.cnt_le, hx.toDevice⟩
    · exact .set h rfl rfl hring hready hts

/-- A frame is taken just when there is one that was sent. -/
theorem deqTx_isSome_iff (h : ∀ j, ∃ xs, RingHolds (d.txQueue j) xs) (j : Nat) :
    (edgxDmaDeqTx nd d j).1.isSome = true ↔ (d.txQueue j).Ready := by
  obtain ⟨xs, hx⟩ := h j
  have hcases := hx.deq 0
  unfold edgxDmaDeqTx EdgxDmaQueue.Ready
  obtain ⟨hwait, hnone, _⟩ | ⟨hinit, skb, rest, hxs, hsome, _⟩ := hcases
  · generalize edgxDmaDeq (d.txQueue j) 0 = r at hnone ⊢
    obtain ⟨out, e, q⟩ := r
    dsimp only at hnone
    subst hnone
    refine iff_of_false (by simp) fun ⟨hcnt, hinit⟩ => ?_
    exact hwait.elim hcnt fun hwait => absurd (hinit.symm.trans hwait) Bool.false_ne_true
  · generalize edgxDmaDeq (d.txQueue j) 0 = r at hsome ⊢
    obtain ⟨out, e, q⟩ := r
    dsimp only at hsome
    obtain ⟨⟨skb', ports⟩, rfl, _⟩ := Option.map_eq_some_iff.1 hsome
    refine iff_of_true ?_ ⟨?_, hinit⟩
    · dsimp only
      split <;> rfl
    · rw [hx.cnt, hxs]
      exact Nat.succ_ne_zero _

theorem txKept_deqTx (h : ∀ j, ∃ xs, RingHolds (d.txQueue j) xs) (j : Nat) : TxKept d (edgxDmaDeqTx nd d j).2 := by
  by_cases hsome : (edgxDmaDeqTx nd d j).1.isSome = true
  · have hready := (deqTx_isSome_iff nd h j).1 hsome
    obtain ⟨xs, hx⟩ := h j
    have hts : (edgxDmaDeqTx nd d j).2.ts = d.ts ∧
        (edgxDmaDeqTx nd d j).2.realNumTxQueues = d.realNumTxQueues := by
      unfold edgxDmaDeqTx
      split
      · exact ⟨rfl, rfl⟩
      · split <;> exact ⟨rfl, rfl⟩
    obtain ⟨hnone, _⟩ | ⟨skb, rest, q', _, _, _, hq, hx', _⟩ := WakeInv.deqTx_cases nd d hx
    · rw [hnone] at hsome
      exact absurd hsome Bool.false_ne_true
    · exact .set h hq hts.2 ⟨rest, hx'⟩ (fun _ => hready) fun ptid => by rw [hts.1]
  · obtain ⟨xs, hx⟩ := h j
    obtain ⟨_, hd⟩ | ⟨skb, rest, q', _, hskb, _⟩ := WakeInv.deqTx_cases nd d hx
    · rw [hd]
      exact .refl h
    · exact absurd (by rw [hskb]; rfl) hsome

/-- Whatever is done but by the hardware. -/
theorem txKept_dmaStep (h : ∀ j, ∃ xs, RingHolds (d.txQueue j) xs) (op : DmaOp Dev) (hop : ∀ j desc, op ≠ .hw j desc) :
    TxKept d (dmaStep nd d op).2 := by
  cases op with
  | xmit skb ptcom flags env => exact txKept_enqTx nd h _ _ ptcom flags env
  | deqTx j => exact txKept_deqTx nd h j
  | wake dev i =>
    dsimp only [dmaStep, wakeStopped]
    split
    · exact ⟨rfl, h, fun _ => id, fun _ => rfl⟩
    · exact .refl h
  | hw j desc => exact absurd rfl (hop j desc)

/-- Descriptors that are written leave the rings rings. -/
theorem ring_hw (h : ∀ j, ∃ xs, RingHolds (d.txQueue j) xs) (j : Nat) (desc : Nat → EdgxComDmaDesc) (k : Nat) :
    ∃ xs, RingHolds ((dmaStep nd d (.hw j desc)).2.txQueue k) xs := by
  dsimp only [dmaStep]
  by_cases hk : k = j
  · obtain ⟨xs, hx⟩ := h j
    rw [hk, Function.update_self]
    exact ⟨xs, hx.hw desc⟩
  · rw [Function.update_of_ne hk]
    exact h k

end Tx

/-! ## The ring to receive -/

/-- A frame was received and is not passed up. -/
def RxRing.Waits (s : RxRing) : Prop := s.passed ≠ s.received.map RxFrame.up

theorem RxInv.waits_iff_done {s : RxRing} {done : List RxFrame} {free : Nat} (h : RxInv s done free) :
    s.Waits ↔ done ≠ [] := by
  rw [RxRing.Waits, h.order, ne_eq, List.self_eq_append_right, List.map_eq_nil_iff]

/-- A frame is taken just when one waits, and there is room for a buffer then. -/
theorem rxInv_take {s : RxRing} (h : ∃ done free, RxInv s done free) :
    match edgxDmaDeq s.q 0 with
    | (some frame, _, q) => s.Waits ∧ q.cnt < EDGX_DMA_DESC_CNT - 1 ∧
        ∃ done free, RxInv { s with q, passed := s.passed ++ [frame] } done free
    | (none, _, _) => ¬ s.Waits := by
  obtain ⟨done, free, h⟩ := h
  cases done with
  | nil =>
    have hnone := h.ring.deq_nil.1
    generalize edgxDmaDeq s.q 0 = r at hnone ⊢
    obtain ⟨out, e, q⟩ := r
    dsimp only at hnone
    subst hnone
    exact fun hwaits => h.waits_iff_done.1 hwaits rfl
  | cons f done =>
    have hsome := h.ring.deq.1
    have hpass := h.pass
    have hcnt := h.ring.deq.2.cnt
    have hcnt' := h.ring.cnt
    have hle := h.ring.cnt_le
    rw [List.length_cons] at hcnt'
    generalize edgxDmaDeq s.q 0 = r at hsome hpass hcnt ⊢
    obtain ⟨out, e, q⟩ := r
    dsimp only at hsome hpass hcnt
    subst hsome
    exact ⟨h.waits_iff_done.2 (List.cons_ne_nil f done), by omega, done, free, hpass⟩

theorem rxInv_refill {s : RxRing} (h : ∃ done free, RxInv s done free) (hroom : s.q.cnt < EDGX_DMA_DESC_CNT - 1)
    (env : RxEnv) : ∃ done free, RxInv { s with q := (edgxDmaEnqRx s.q env).2 } done free := by
  obtain ⟨done, free, h⟩ := h
  obtain ⟨_, free, h⟩ := h.replace hroom env
  exact ⟨done, free, h⟩

/-! ## The invariant -/

/-- A buffer was taken out and not replaced. -/
def PollAt.Refills : PollAt → Prop
  | .refillRx _ | .postRefill => True
  | _ => False

/-- The poll has still to look at the ring, or is going to be called again. -/
def Poll.TodoTx (p : Poll) (j : Nat) : Prop :=
  match p.pc with
  | .processTx _ _ | .clrTx => True
  | .postTx k => k ≤ j
  | .complete => False
  | _ => p.budget ≤ p.usedTx ∨ p.postUsedTx ≠ 0

def Poll.TodoRx (p : Poll) : Prop :=
  match p.pc with
  | .status => p.budget ≤ p.usedRx ∨ p.postUsedRx ≠ 0
  | .complete => False
  | _ => True

/-- A handler that closes the line of a source in `P` does `a` after it. -/
def ClosesFor (P : Nat → Prop) (a : IsrAct) : List IsrAct → Prop
  | [] => True
  | .disable nr :: rest => (P nr → a ∈ rest) ∧ ClosesFor P a rest
  | _ :: rest => ClosesFor P a rest

/-- `a` is what the handlers of the sources in `P` do. -/
structure ServedBy (P : Nat → Prop) (a : IsrAct) : Prop where
  ts : P EDGX_IRQ_NR_TS_TX → a = .queueWork
  tx : P EDGX_IRQ_NR_DMA_TX → a = .napiSchedule
  rx : P EDGX_IRQ_NR_DMA_RX → a = .napiSchedule

section Inv

variable {Dev : Type*} [DecidableEq Dev] (nd : NetDevs Dev) (irq : EdgxBrIrq)

namespace ComState

variable (s : ComState Dev)

/-- A poll is to come, or runs and meets `P`. -/
def Todo (P : Poll → Prop) : Prop :=
  s.napi.sched = true ∧ (s.napi.missed = true ∨ ∀ p, s.poll = some p → P p)

/-- A handler is going to schedule the poll. -/
def Schedules : Prop := ∃ v, .napiSchedule ∈ s.isr v

/-- Somebody comes for the source, without being called. -/
def Busy (nr : Nat) : Prop :=
  s.Schedules ∨
    match irq.trig with
    | .level => s.napi.sched = true ∨ ∃ cpu, nr ∈ s.ends cpu
    | .edge => s.Todo fun p => p.pc ≠ .complete

end ComState

/-- `nr` is a source that the poll serves. -/
def OfPoll (nr : Nat) : Prop := nr = EDGX_IRQ_NR_DMA_TX ∨ nr = EDGX_IRQ_NR_DMA_RX

instance (nr : Nat) : Decidable (OfPoll nr) := inferInstanceAs (Decidable (_ ∨ _))

structure PollInv (n : Nat) (s : ComState Dev) : Prop where
  num : s.dma.realNumTxQueues = n
  tx : ∀ j, ∃ xs, RingHolds (s.dma.txQueue j) xs
  rx : ∃ done free, RxInv s.rx done free
  room : ∀ p, s.poll = some p → p.pc.Refills → s.rx.q.cnt < EDGX_DMA_DESC_CNT - 1
  owned : s.poll ≠ none → s.napi.sched = true
  missed : s.napi.missed = true → s.napi.sched = true
  isr : ∀ v, ClosesFor OfPoll .napiSchedule (s.isr v)
  watchedTx : ∀ j < n,
    s.irqs.Watched EDGX_IRQ_NR_DMA_TX (s.dma.txQueue j).Ready (s.Todo (·.TodoTx j))
  watchedRx : s.irqs.Watched EDGX_IRQ_NR_DMA_RX s.rx.Waits (s.Todo Poll.TodoRx)
  heard : ∀ nr, OfPoll nr → s.irqs.Heard irq.trig nr (s.Busy irq nr)

variable {nd irq} {n : Nat} {s : ComState Dev}

/-! ## Steps -/

theorem getLsbD_irqBit (nr i : Nat) : (irqBit nr).getLsbD i = decide (nr < 16 ∧ i = nr) := by
  rw [irqBit, BitVec.getLsbD_twoPow]
  by_cases hi : i = nr
  · subst hi
    simp
  · simp [hi, Ne.symm hi]

theorem eq_of_irqBit {nr i : Nat} (h : (irqBit nr).getLsbD i = true) : i = nr := by
  rw [getLsbD_irqBit, decide_eq_true_eq] at h
  exact h.2

/-- The lines of the sources are open at the start, and their bits cleared. -/
theorem edgxIrqInit_bit (t : Irqs 16) (nr : Nat) (hnr : (irqBit EDGX_IRQ_NR_TS_TX ||| irqBit EDGX_IRQ_NR_DMA_TX |||
    irqBit EDGX_IRQ_NR_DMA_RX ||| irqBit EDGX_IRQ_NR_DMA_ERR).getLsbD nr = true) :
    (edgxIrqInit t).mask.getLsbD nr = true ∧ (edgxIrqInit t).stat.getLsbD nr = false := by
  unfold edgxIrqInit
  dsimp only [edgxBrSetIntMask, edgxBrClrIntStat, edgxBrClrIntMask, Irqs.setMask, Irqs.clear, Irqs.clrMask, Irqs.write]
  generalize irqBit EDGX_IRQ_NR_TS_TX ||| irqBit EDGX_IRQ_NR_DMA_TX ||| irqBit EDGX_IRQ_NR_DMA_RX |||
    irqBit EDGX_IRQ_NR_DMA_ERR = intmask at hnr ⊢
  simp only [BitVec.getLsbD_or, BitVec.getLsbD_and, BitVec.getLsbD_not, hnr]
  simp

omit [DecidableEq Dev] in
theorem ComState.Todo.mono {P Q : Poll → Prop} (h : s.Todo P) (hpq : ∀ p, P p → Q p) : s.Todo Q :=
  ⟨h.1, h.2.imp_right fun hp p hpoll => hpq p (hp p hpoll)⟩

omit [DecidableEq Dev] in
/-- A handler loses what it does, unless it was to schedule the poll. -/
theorem ComState.Schedules.update (h : s.Schedules) {v : Nat} {prog : List IsrAct}
    (hprog : .napiSchedule ∈ s.isr v → .napiSchedule ∈ prog) : { s with isr := Function.update s.isr v prog }.Schedules := by
  obtain ⟨v', hv'⟩ := h
  refine ⟨v', ?_⟩
  dsimp only
  by_cases hv : v' = v
  · subst hv
    rw [Function.update_self]
    exact hprog hv'
  · rwa [Function.update_of_ne hv]

section Handlers

variable {P : Nat → Prop} {a : IsrAct}

theorem closesFor_append {as bs : List IsrAct} (ha : ClosesFor P a as) (hb : ClosesFor P a bs) :
    ClosesFor P a (as ++ bs) := by
  induction as with
  | nil => exact hb
  | cons a as ih =>
    cases a with
    | disable nr => exact ⟨fun hnr => List.mem_append_left _ (ha.1 hnr), ih ha.2⟩
    | readMask | readStat | napiSchedule | queueWork | clrErr => exact ih ha

namespace ServedBy

theorem ofPoll : ServedBy OfPoll .napiSchedule := ⟨fun h => absurd h (by decide), fun _ => rfl, fun _ => rfl⟩

variable (h : ServedBy P a)
include h

theorem closes_ts : ClosesFor P a edgxComTsIsr := ⟨fun hnr => List.mem_singleton.2 (h.ts hnr), True.intro⟩
theorem closes_tx : ClosesFor P a edgxDmaTxIsr := ⟨fun hnr => List.mem_singleton.2 (h.tx hnr), True.intro⟩
theorem closes_rx : ClosesFor P a edgxDmaRxIsr := ⟨fun hnr => List.mem_singleton.2 (h.rx hnr), True.intro⟩

theorem closes_single (bits : BitVec 16) : ClosesFor P a (singleIsrCalls bits) := by
  have hite (c : Bool) {prog : List IsrAct} (h : ClosesFor P a prog) : ClosesFor P a (if c then prog else []) := by
    cases c with
    | true => exact h
    | false => exact True.intro
  exact closesFor_append (closesFor_append (closesFor_append (hite _ h.closes_ts) (hite _ h.closes_tx))
    (hite _ h.closes_rx)) (hite _ True.intro)

theorem closes_isrOf {v : Nat} {prog : List IsrAct} (hprog : isrOf irq v = some prog) : ClosesFor P a prog := by
  unfold isrOf at hprog
  split_ifs at hprog
  · obtain rfl := Option.some.inj hprog
    exact True.intro
  · obtain rfl := Option.some.inj hprog
    exact h.closes_ts
  · obtain rfl := Option.some.inj hprog
    exact h.closes_tx
  · obtain rfl := Option.some.inj hprog
    exact h.closes_rx
  · obtain rfl := Option.some.inj hprog
    exact True.intro

end ServedBy

end Handlers

/-- The vector of a source of the DMA schedules the poll. -/
theorem napiSchedule_mem_isrOf (hshared : irq.shared = false) {nr : Nat} (hnr : OfPoll nr) :
    .napiSchedule ∈ (isrOf irq nr).getD [] := by
  obtain rfl | rfl := hnr <;> simp [isrOf, hshared, EDGX_IRQ_NR_TS_TX, EDGX_IRQ_NR_DMA_TX, EDGX_IRQ_NR_DMA_RX,
    edgxDmaTxIsr, edgxDmaRxIsr]

namespace PollInv

omit [DecidableEq Dev] in
/-- The registers change, and nothing is forgotten. -/
theorem setIrqs (h : PollInv irq n s) {t : Irqs 16}
    (hwatched : ∀ nr work todo, OfPoll nr → s.irqs.Watched nr work todo → t.Watched nr work todo)
    (hheard : ∀ nr, OfPoll nr → s.irqs.Heard irq.trig nr (s.Busy irq nr) → t.Heard irq.trig nr (s.Busy irq nr)) :
    PollInv irq n { s with irqs := t } where
  num := h.num
  tx := h.tx
  rx := h.rx
  room := h.room
  owned := h.owned
  missed := h.missed
  isr := h.isr
  watchedTx j hj := hwatched _ _ _ (.inl rfl) (h.watchedTx j hj)
  watchedRx := hwatched _ _ _ (.inr rfl) h.watchedRx
  heard nr hnr := hheard nr hnr (h.heard nr hnr)

omit [DecidableEq Dev] in
theorem owe (h : PollInv irq n s) (bits : BitVec 16) : PollInv irq n { s with irqs := s.irqs.owe bits } :=
  h.setIrqs (fun _ _ _ _ hw => hw.owe fun _ => id) fun _ _ hh => hh.owe bits

omit [DecidableEq Dev] in
theorem raise (h : PollInv irq n s) (bits : BitVec 16) : PollInv irq n { s with irqs := s.irqs.raise bits } :=
  h.setIrqs (fun _ _ _ _ hw => hw.raise bits) fun _ _ hh => hh.raise bits

omit [DecidableEq Dev] in
/-- The bit of another source is cleared. -/
theorem clearOther (h : PollInv irq n s) (nr : Nat) (hnr : ¬ OfPoll nr) (again : BitVec 16) :
    PollInv irq n { s with irqs := edgxBrClrIntStat s.irqs (irqBit nr) again } := by
  refine h.setIrqs (fun nr' work todo hnr' hw => hw.clear (fun hbit => ?_) again) fun _ _ hh => hh.clear _ again
  rw [eq_of_irqBit hbit] at hnr'
  exact absurd hnr' hnr

omit [DecidableEq Dev] in
theorem enable (h : PollInv irq n s) (nr : Nat) : PollInv irq n { s with irqs := edgxBrIrqEnable irq s.irqs nr } := by
  unfold edgxBrIrqEnable
  split
  · exact h.setIrqs (fun _ _ _ _ hw => hw.setMask _) fun _ _ hh => hh.setMask _
  · exact h

omit [DecidableEq Dev] in
theorem setDma (h : PollInv irq n s) {d : EdgxComDma Dev} (hd : TxKept s.dma d) : PollInv irq n { s with dma := d } where
  num := hd.num.trans h.num
  tx := hd.ring
  rx := h.rx
  room := h.room
  owned := h.owned
  missed := h.missed
  isr := h.isr
  watchedTx j hj := (h.watchedTx j hj).mono (hd.ready j) id
  watchedRx := h.watchedRx
  heard := h.heard

omit [DecidableEq Dev] in
/-- What the poll does not use changes. -/
theorem setRest (h : PollInv irq n s) (work : TsWork) (hwTs : Fin EDGX_BR_MAX_PORTS → List TsRegs)
    (stamped : List (Skb Dev × BitVec 64 × BitVec 32)) : PollInv irq n { s with work, hwTs, stamped } where
  num := h.num
  tx := h.tx
  rx := h.rx
  room := h.room
  owned := h.owned
  missed := h.missed
  isr := h.isr
  watchedTx := h.watchedTx
  watchedRx := h.watchedRx
  heard := h.heard

theorem dmaOp (h : PollInv irq n s) (op : DmaOp Dev) : PollInv irq n (s.dmaOp nd op) := by
  by_cases hop : ∃ j desc, op = .hw j desc
  · obtain ⟨j, desc, rfl⟩ := hop
    have ho := h.owe (irqBit EDGX_IRQ_NR_DMA_TX)
    exact {
      num := h.num
      tx := ring_hw nd h.tx j desc
      rx := ho.rx
      room := ho.room
      owned := ho.owned
      missed := ho.missed
      isr := ho.isr
      watchedTx := fun k hk => (h.watchedTx k hk).owe fun hbit => absurd hbit (by decide)
      watchedRx := ho.watchedRx
      heard := ho.heard }
  · have hd := h.setDma (txKept_dmaStep nd h.tx op fun j desc he => hop ⟨j, desc, he⟩)
    cases op with
    | xmit | deqTx | wake => exact hd
    | hw j desc => exact absurd ⟨j, desc, rfl⟩ hop

omit [DecidableEq Dev] in
theorem receive (h : PollInv irq n s) (f : RxFrame) : PollInv irq n (s.receive f) := by
  obtain ⟨done, free, hrx⟩ := h.rx
  obtain ⟨hcnt, hrx⟩ := hrx.receive f
  have ho := h.owe (irqBit EDGX_IRQ_NR_DMA_RX)
  exact {
    num := h.num
    tx := h.tx
    rx := hrx
    room := fun p hp hpc => lt_of_eq_of_lt hcnt (h.room p hp hpc)
    owned := h.owned
    missed := h.missed
    isr := h.isr
    watchedTx := ho.watchedTx
    watchedRx := h.watchedRx.owe fun hbit => absurd hbit (by decide)
    heard := ho.heard }

omit [DecidableEq Dev] in
theorem setIsr (h : PollInv irq n s) {v : Nat} {prog : List IsrAct} (hok : ClosesFor OfPoll .napiSchedule prog)
    (hprog : .napiSchedule ∈ s.isr v → .napiSchedule ∈ prog) :
    PollInv irq n { s with isr := Function.update s.isr v prog } where
  num := h.num
  tx := h.tx
  rx := h.rx
  room := h.room
  owned := h.owned
  missed := h.missed
  isr v' := by
    dsimp only
    by_cases hv : v' = v
    · rw [hv, Function.update_self]
      exact hok
    · rw [Function.update_of_ne hv]
      exact h.isr v'
  watchedTx := h.watchedTx
  watchedRx := h.watchedRx
  heard nr hnr := (h.heard nr hnr).mono (Or.imp_left fun hs => hs.update hprog)

omit [DecidableEq Dev] in
theorem isrEnter (h : PollInv irq n s) (htrig : irq.shared = true → irq.trig = .level) (v : Nat) :
    PollInv irq n (s.isrEnter irq v) := by
  unfold ComState.isrEnter
  split
  · rename_i hcalled
    obtain ⟨hidle, hreq, _⟩ := hcalled
    obtain ⟨prog, hprog⟩ := Option.isSome_iff_exists.1 hreq
    have hi : PollInv irq n { s with isr := Function.update s.isr v ((isrOf irq v).getD []) } :=
      h.setIsr (by rw [hprog]; exact ServedBy.ofPoll.closes_isrOf hprog) (by rw [hidle]; exact fun hmem => nomatch hmem)
    refine hi.setIrqs (fun _ _ _ _ hw => hw.take _) fun nr hnr hh => hh.take fun hedge hbit => .inl ⟨v, ?_⟩
    -- a call that is answered is that of a source with a vector of its own
    have hshared : irq.shared = false := by
      rw [Bool.eq_false_iff]
      intro hshared
      rw [htrig hshared] at hedge
      exact nomatch hedge
    rw [vecBits, hshared] at hbit
    obtain rfl := eq_of_irqBit hbit
    dsimp only
    rw [Function.update_self]
    exact napiSchedule_mem_isrOf hshared hnr
  · exact h

omit [DecidableEq Dev] in
/-- A poll that is scheduled is called again after what it does now. -/
theorem todo_schedule (h : PollInv irq n s) (P : Poll → Prop) : { s with napi := s.napi.schedule }.Todo P := by
  refine ⟨Napi.sched_schedule, ?_⟩
  dsimp only
  unfold Napi.schedule
  split
  · exact .inl rfl
  · rename_i hsched
    refine .inr fun p hp => absurd (h.owned ?_) hsched
    rw [hp]
    exact Option.some_ne_none p

omit [DecidableEq Dev] in
theorem schedule (h : PollInv irq n s) {v : Nat} {prog : List IsrAct} (hok : ClosesFor OfPoll .napiSchedule prog) :
    PollInv irq n { s with napi := s.napi.schedule, isr := Function.update s.isr v prog } where
  num := h.num
  tx := h.tx
  rx := h.rx
  room := h.room
  owned _ := Napi.sched_schedule
  missed _ := Napi.sched_schedule
  isr v' := by
    dsimp only
    by_cases hv : v' = v
    · rw [hv, Function.update_self]
      exact hok
    · rw [Function.update_of_ne hv]
      exact h.isr v'
  watchedTx j hj := (h.watchedTx j hj).mono id fun _ => h.todo_schedule _
  watchedRx := h.watchedRx.mono id fun _ => h.todo_schedule _
  heard nr hnr := by
    refine (h.heard nr hnr).mono fun _ => .inr ?_
    split
    · exact .inl Napi.sched_schedule
    · exact h.todo_schedule _

omit [DecidableEq Dev] in
/-- A handler has done something else than to schedule the poll. -/
theorem pop (h : PollInv irq n s) {v : Nat} {a : IsrAct} {rest : List IsrAct} (hprog : s.isr v = a :: rest)
    (hok : ClosesFor OfPoll .napiSchedule rest) (ha : a ≠ .napiSchedule) : PollInv irq n { s with isr := Function.update s.isr v rest } := by
  refine h.setIsr hok fun hmem => ?_
  rw [hprog] at hmem
  exact (List.mem_cons.1 hmem).resolve_left (Ne.symm ha)

omit [DecidableEq Dev] in
theorem isrStep (h : PollInv irq n s) (v : Nat) (again : BitVec 16) : PollInv irq n (s.isrStep irq v again) := by
  have hok := h.isr v
  unfold ComState.isrStep
  split
  · exact h
  · rename_i rest hprog
    rw [hprog] at hok
    dsimp only
    split
    · exact h.pop hprog hok nofun
    · refine h.setIsr hok fun hmem => ?_
      rw [hprog] at hmem
      exact List.mem_cons_of_mem _ ((List.mem_cons.1 hmem).resolve_left nofun)
  · rename_i intmask rest hprog
    rw [hprog] at hok
    refine h.setIsr (closesFor_append (ServedBy.ofPoll.closes_single _) hok) fun hmem => ?_
    rw [hprog] at hmem
    exact List.mem_append_right _ ((List.mem_cons.1 hmem).resolve_left nofun)
  · rename_i nr rest hprog
    rw [hprog] at hok
    have hi := h.pop hprog hok.2 nofun
    unfold edgxBrIrqDisable
    split
    · rename_i htrig
      refine hi.setIrqs (fun _ _ _ _ hw => hw.clrMask _) fun nr' hnr hh => ?_
      rw [htrig] at hh ⊢
      -- the handler that closes the line schedules the poll next
      refine hh.clrMask fun hbit => .inl ⟨v, ?_⟩
      obtain rfl := eq_of_irqBit hbit
      dsimp only
      rw [Function.update_self]
      exact hok.1 hnr
    · exact hi
  · rename_i rest hprog
    rw [hprog] at hok
    exact h.schedule hok
  · rename_i rest hprog
    rw [hprog] at hok
    exact (h.pop hprog hok nofun).setRest { s.work with pending := true } s.hwTs s.stamped
  · rename_i rest hprog
    rw [hprog] at hok
    exact (h.pop hprog hok nofun).clearOther EDGX_IRQ_NR_DMA_ERR (by decide) again

/-! ### The poll -/

omit [DecidableEq Dev] in
theorem startPoll (h : PollInv irq n s) (budget : Nat) : PollInv irq n (s.startPoll budget) := by
  unfold ComState.startPoll
  split
  · rename_i hsched
    have htodo (P : Poll → Prop) (hp : P { budget }) : { s with poll := some { budget } }.Todo P :=
      ⟨hsched.1, .inr fun p he => Option.some.inj he ▸ hp⟩
    exact {
      num := h.num
      tx := h.tx
      rx := h.rx
      room := fun p hp hpc => by
        obtain rfl := Option.some.inj hp
        exact hpc.elim
      owned := fun _ => hsched.1
      missed := h.missed
      isr := h.isr
      watchedTx := fun j hj => (h.watchedTx j hj).mono id fun _ => htodo _ True.intro
      watchedRx := h.watchedRx.mono id fun _ => htodo _ True.intro
      heard := fun nr hnr => (h.heard nr hnr).mono fun hbusy => by
        refine hbusy.imp_right fun hb => ?_
        split
        · rename_i htrig
          rw [htrig] at hb
          exact hb
        · exact htodo _ nofun }
  · exact h

omit [DecidableEq Dev] in
/-- A poll goes on: what it has still to look at is the same, but for what has been
looked at. -/
theorem move (h : PollInv irq n s) {p p' : Poll} (hp : s.poll = some p) {rx : RxRing}
    (hrx : ∃ done free, RxInv rx done free) (hwaits : rx.Waits → s.rx.Waits)
    (hroom : p'.pc.Refills → rx.q.cnt < EDGX_DMA_DESC_CNT - 1)
    (htx : ∀ j < n, (s.dma.txQueue j).Ready → p.TodoTx j → p'.TodoTx j)
    (hrecv : rx.Waits → p.TodoRx → p'.TodoRx)
    (hpc : p'.pc = .complete → ∀ nr, OfPoll nr → irq.trig = .edge → s.irqs.stat.getLsbD nr = false) :
    PollInv irq n { s with rx, poll := some p' } := by
  have htodo {P P' : Poll → Prop} (hpp : P p → P' p') (ht : s.Todo P) : { s with rx, poll := some p' }.Todo P' :=
    ⟨ht.1, ht.2.imp_right fun hall q hq => Option.some.inj hq ▸ hpp (hall p hp)⟩
  exact {
    num := h.num
    tx := h.tx
    rx := hrx
    room := fun q hq hpc => by
      obtain rfl := Option.some.inj hq
      exact hroom hpc
    owned := fun _ => h.owned (by rw [hp]; exact Option.some_ne_none p)
    missed := h.missed
    isr := h.isr
    watchedTx := fun j hj hready =>
      (h.watchedTx j hj hready).imp_left (htodo (htx j hj hready))
    watchedRx := fun hw => (h.watchedRx (hwaits hw)).imp_left (htodo (hrecv hw))
    heard := fun nr hnr => by
      have hh := h.heard nr hnr
      by_cases hc : p'.pc = .complete ∧ irq.trig = .edge
      · rw [hc.2] at hh ⊢
        exact ⟨hh.1, fun hstat => absurd (hpc hc.1 nr hnr hc.2 ▸ hstat) Bool.false_ne_true⟩
      · refine hh.mono fun hbusy => hbusy.imp_right fun hb => ?_
        split
        · rename_i htrig
          rw [htrig] at hb
          exact hb
        · rename_i htrig
          rw [htrig] at hb
          exact htodo (fun _ hcomplete => hc ⟨hcomplete, htrig⟩) hb }

omit [DecidableEq Dev] in
/-- A poll that returns and stays scheduled is called again. -/
theorem again (h : PollInv irq n s) {napi : Napi} (hsched : napi.sched = true) :
    PollInv irq n { s with napi, poll := none } := by
  have htodo (P : Poll → Prop) : { s with napi, poll := none }.Todo P := ⟨hsched, .inr fun p he => nomatch he⟩
  exact {
    num := h.num
    tx := h.tx
    rx := h.rx
    room := fun p hp => nomatch hp
    owned := fun _ => hsched
    missed := fun _ => hsched
    isr := h.isr
    watchedTx := fun j hj => (h.watchedTx j hj).mono id fun _ => htodo _
    watchedRx := h.watchedRx.mono id fun _ => htodo _
    heard := fun nr hnr => (h.heard nr hnr).mono fun _ => .inr <| by
      split
      · exact .inl hsched
      · exact htodo _ }

omit [DecidableEq Dev] in
/-- A poll that nobody asked to go on leaves its lines to be opened. -/
theorem completed (h : PollInv irq n s) {p : Poll} (hp : s.poll = some p) (hpc : p.pc = .complete)
    (hmissed : s.napi.missed = false) {cpu : Nat} (hends : s.ends cpu = []) :
    PollInv irq n { s with
      napi := { s.napi with sched := false }
      poll := none
      ends := Function.update s.ends cpu [EDGX_IRQ_NR_DMA_RX, EDGX_IRQ_NR_DMA_TX] } := by
  have hnot {P : Poll → Prop} (hP : ¬ P p) : ¬ s.Todo P := fun ht =>
    ht.2.elim (fun hm => Bool.false_ne_true (hmissed ▸ hm)) fun hall => hP (hall p hp)
  exact {
    num := h.num
    tx := h.tx
    rx := h.rx
    room := fun p hp => nomatch hp
    owned := fun hne => absurd rfl hne
    missed := fun hm => absurd (hmissed ▸ hm) Bool.false_ne_true
    isr := h.isr
    watchedTx := fun j hj => (h.watchedTx j hj).mono id fun ht => absurd ht (hnot (by rw [Poll.TodoTx, hpc]; exact id))
    watchedRx := h.watchedRx.mono id fun ht => absurd ht (hnot (by rw [Poll.TodoRx, hpc]; exact id))
    heard := fun nr hnr => (h.heard nr hnr).mono fun hbusy => by
      refine hbusy.imp_right fun hb => ?_
      split
      · rename_i htrig
        rw [htrig] at hb
        refine .inr ?_
        obtain hb | ⟨c, hc⟩ := hb
        · refine ⟨cpu, ?_⟩
          dsimp only
          rw [Function.update_self]
          obtain rfl | rfl := hnr
          · exact List.mem_cons_of_mem _ (List.mem_singleton_self _)
          · exact List.mem_cons_self
        · refine ⟨c, ?_⟩
          dsimp only
          rwa [Function.update_of_ne]
          intro he
          rw [he, hends] at hc
          exact nomatch hc
      · rename_i htrig
        rw [htrig] at hb
        exact absurd hb (hnot fun hne => hne hpc) }

omit [DecidableEq Dev] in
/-- The bit of a source is cleared with a look at it to come. -/
theorem clear (h : PollInv irq n s) (nr : Nat)
    (htx : nr = EDGX_IRQ_NR_DMA_TX → ∀ j, s.Todo (·.TodoTx j)) (hrx : nr = EDGX_IRQ_NR_DMA_RX → s.Todo Poll.TodoRx)
    (again : BitVec 16) : PollInv irq n { s with irqs := edgxBrClrIntStat s.irqs (irqBit nr) again } where
  num := h.num
  tx := h.tx
  rx := h.rx
  room := h.room
  owned := h.owned
  missed := h.missed
  isr := h.isr
  watchedTx j hj := (h.watchedTx j hj).clear (fun hbit _ => htx (eq_of_irqBit hbit).symm j) again
  watchedRx := h.watchedRx.clear (fun hbit _ => hrx (eq_of_irqBit hbit).symm) again
  heard nr' hnr := (h.heard nr' hnr).clear _ again

theorem pollAt (h : PollInv irq n s) {p : Poll} (hp : s.poll = some p) (cpu : Nat) (env : RxEnv) (again : BitVec 16)
    (goOn : Bool) : PollInv irq n (s.pollAt nd p cpu env again goOn) := by
  have hsched := h.owned (by rw [hp]; exact Option.some_ne_none p)
  have hkept (j : Nat) := txKept_deqTx nd h.tx j
  have htaken (j : Nat) := deqTx_isSome_iff nd h.tx j
  have hrx := rxInv_take h.rx
  have htodo {P : Poll → Prop} (hP : P p) : s.Todo P := ⟨hsched, .inr fun q hq => Option.some.inj (hp.symm.trans hq) ▸ hP⟩
  obtain ⟨budget, usedTx, postUsedTx, usedRx, postUsedRx, pc⟩ := p
  unfold ComState.pollAt
  cases pc with
  | processTx i j =>
    dsimp only
    split
    · have hd := h.setDma (hkept j)
      refine hd.move hp hd.rx id ?_ (fun k _ _ _ => ?_) (fun _ _ => ?_) ?_
      · dsimp only
        split <;> exact False.elim
      · split <;> exact True.intro
      · split <;> exact True.intro
      · dsimp only
        split <;> exact nofun
    · split
      · exact h.move hp h.rx id False.elim (fun _ _ _ _ => True.intro) (fun _ _ => True.intro) nofun
      · rename_i hused
        exact h.move hp h.rx id False.elim (fun _ _ _ _ => .inl (Nat.le_of_not_lt hused)) (fun _ _ => True.intro) nofun
  | clrTx =>
    have hc := h.clear EDGX_IRQ_NR_DMA_TX (fun _ j => htodo True.intro) (fun he => absurd he (by decide)) again
    exact hc.move hp h.rx id False.elim (fun _ _ _ _ => Nat.zero_le _) (fun _ _ => True.intro) nofun
  | postTx j =>
    dsimp only
    split
    · have hd := h.setDma (hkept j)
      split
      · exact hd.move hp hd.rx id False.elim (fun _ _ _ _ => .inr Nat.one_ne_zero) (fun _ _ => True.intro) nofun
      · rename_i hnone
        refine hd.move hp hd.rx id False.elim (fun k _ hready hk => ?_) (fun _ _ => True.intro) nofun
        -- the ring that was looked at has nothing
        refine Nat.lt_of_le_of_ne hk fun he => hnone ((htaken j).2 ?_)
        rw [← he] at hready
        exact (hkept j).ready j hready
    · rename_i hj
      refine h.move hp h.rx id False.elim (fun k hk _ hle => absurd (Nat.lt_of_le_of_lt hle ?_) hj) (fun _ _ => True.intro)
        nofun
      rw [h.num]
      exact hk
  | processRx i =>
    dsimp only
    split
    · generalize edgxDmaDeq s.rx.q 0 = r at hrx
      obtain ⟨_ | frame, e, q⟩ := r
      · exact h.move hp h.rx id False.elim (fun _ _ _ => id) (fun _ _ => True.intro) nofun
      · obtain ⟨hwaits, hroom, hrx⟩ := hrx
        exact h.move hp hrx (fun _ => hwaits) (fun _ => hroom) (fun _ _ _ => id) (fun _ _ => True.intro) nofun
    · rename_i hused
      exact h.move hp h.rx id False.elim (fun _ _ _ => id) (fun _ _ => .inl (Nat.le_of_not_lt hused)) nofun
  | refillRx i =>
    exact h.move hp (rxInv_refill h.rx (h.room _ hp True.intro) env) id False.elim (fun _ _ _ => id)
      (fun _ _ => True.intro) nofun
  | clrRx =>
    have hc := h.clear EDGX_IRQ_NR_DMA_RX (fun he => absurd he (by decide)) (fun _ => htodo True.intro) again
    exact hc.move hp h.rx id False.elim (fun _ _ _ => id) (fun _ _ => True.intro) nofun
  | postRx =>
    dsimp only
    generalize edgxDmaDeq s.rx.q 0 = r at hrx
    obtain ⟨_ | frame, e, q⟩ := r
    · exact h.move hp h.rx id False.elim (fun _ _ _ => id) (fun hwaits _ => absurd hwaits hrx) nofun
    · obtain ⟨hwaits, hroom, hrx⟩ := hrx
      exact h.move hp hrx (fun _ => hwaits) (fun _ => hroom) (fun _ _ _ => id) (fun _ _ => True.intro) nofun
  | postRefill =>
    exact h.move hp (rxInv_refill h.rx (h.room _ hp True.intro) env) id False.elim (fun _ _ _ => id)
      (fun _ _ => .inr Nat.one_ne_zero) nofun
  | status =>
    dsimp only
    split
    · exact h.again hsched
    · rename_i hpost
      obtain ⟨hpostTx, hpostRx⟩ := not_or.1 hpost
      split
      · exact h.again hsched
      · rename_i hused
        obtain ⟨husedTx, husedRx⟩ := max_lt_iff.1 (Nat.lt_of_not_le hused)
        split
        · exact h.again hsched
        · rename_i hstat
          obtain ⟨hstatTx, hstatRx⟩ := not_or.1 hstat
          refine h.move hp h.rx id False.elim (fun _ _ _ ht => ?_) (fun _ ht => ?_) fun _ nr hnr _ => ?_
          · exact ht.elim (fun hle => absurd hle (Nat.not_le_of_lt husedTx)) fun hne => hpostTx hne
          · exact ht.elim (fun hle => absurd hle (Nat.not_le_of_lt husedRx)) fun hne => hpostRx hne
          · obtain rfl | rfl := hnr
            · exact Bool.eq_false_iff.2 hstatTx
            · exact Bool.eq_false_iff.2 hstatRx
  | complete =>
    dsimp only
    split
    · rename_i hends
      obtain ⟨hdone, hmissed⟩ | ⟨hdone, hstays⟩ := s.napi.completeDone_cases goOn
      · rw [hdone]
        exact h.completed hp rfl hmissed hends
      · rw [hdone]
        exact h.again (hstays.trans hsched)
    · exact h

omit [DecidableEq Dev] in
theorem pollEnd (h : PollInv irq n s) (cpu : Nat) : PollInv irq n (s.pollEnd irq cpu) := by
  unfold ComState.pollEnd
  split
  · exact h
  · rename_i nr rest hends
    -- what is left to be opened, but for the line that is opened now
    have hleft {nr' : Nat} (hne : nr' ≠ nr) (hb : ∃ c, nr' ∈ s.ends c) :
        ∃ c, nr' ∈ Function.update s.ends cpu rest c := by
      obtain ⟨c, hc⟩ := hb
      refine ⟨c, ?_⟩
      by_cases hcpu : c = cpu
      · rw [hcpu, hends] at hc
        rw [hcpu, Function.update_self]
        exact (List.mem_cons.1 hc).resolve_left hne
      · rwa [Function.update_of_ne hcpu]
    have hheard (nr' : Nat) (hnr : OfPoll nr') : (edgxBrIrqEnable irq s.irqs nr).Heard irq.trig nr'
        ({ s with ends := Function.update s.ends cpu rest }.Busy irq nr') := by
      have hh := h.heard nr' hnr
      unfold edgxBrIrqEnable ComState.Busy at *
      cases htrig : irq.trig with
      | level =>
        rw [htrig] at hh
        by_cases hne : nr' = nr
        · refine .inl ?_
          have hlt : nr' < 16 := by obtain rfl | rfl := hnr <;> decide
          rw [if_pos rfl]
          dsimp only [edgxBrSetIntMask, Irqs.setMask, Irqs.write]
          rw [BitVec.getLsbD_or, getLsbD_irqBit, decide_eq_true ⟨hne ▸ hlt, hne⟩, Bool.or_true]
        · rw [if_pos rfl]
          exact (hh.setMask _).mono (Or.imp_right (Or.imp_right (hleft hne)))
      | edge =>
        rw [htrig] at hh
        rw [if_neg (by simp)]
        exact hh
    have hwatched {nr' : Nat} {work todo : Prop} (hw : s.irqs.Watched nr' work todo) :
        (edgxBrIrqEnable irq s.irqs nr).Watched nr' work todo := by
      unfold edgxBrIrqEnable
      split
      · exact hw.setMask _
      · exact hw
    exact {
      num := h.num
      tx := h.tx
      rx := h.rx
      room := h.room
      owned := h.owned
      missed := h.missed
      isr := h.isr
      watchedTx := fun j hj => hwatched (h.watchedTx j hj)
      watchedRx := hwatched h.watchedRx
      heard := hheard }

omit [DecidableEq Dev] in
theorem workAt (h : PollInv irq n s) (pc : WorkAt) (curSec : BitVec 64) (again : BitVec 16) :
    PollInv irq n (s.workAt irq pc curSec again) := by
  unfold ComState.workAt
  cases pc with
  | clr => exact (h.clearOther EDGX_IRQ_NR_TS_TX (by decide) again).setRest _ s.hwTs s.stamped
  | find ptid =>
    dsimp only
    split
    · split
      · rename_i hpts _
        exact (h.setDma (txKept_setTs h.tx hpts _)).setRest s.work _ _
      · exact h.setRest _ s.hwTs s.stamped
    · exact h.setRest _ s.hwTs s.stamped
  | enable => exact (h.enable EDGX_IRQ_NR_TS_TX).setRest _ s.hwTs s.stamped

/-- **Every step keeps the invariant.** -/
theorem step (h : PollInv irq n s) (htrig : irq.shared = true → irq.trig = .level) (op : ComOp Dev) :
    PollInv irq n (comStep nd irq s op).2 := by
  cases op with
  | dma op => exact h.dmaOp op
  | receive f => exact h.receive f
  | stamp ptid r => exact (h.owe (irqBit EDGX_IRQ_NR_TS_TX)).setRest s.work _ s.stamped
  | raise bits => exact h.raise bits
  | isrEnter v => exact h.isrEnter htrig v
  | isrStep v again => exact h.isrStep v again
  | poll budget => exact h.startPoll budget
  | pollStep cpu env again goOn =>
    dsimp only [comStep]
    split
    · exact h
    · rename_i p hp
      exact h.pollAt hp cpu env again goOn
  | pollEnd cpu => exact h.pollEnd cpu
  | work =>
    dsimp only [comStep, ComState.startWork]
    split
    · exact h.setRest _ s.hwTs s.stamped
    · exact h
  | workStep curSec again =>
    dsimp only [comStep]
    split
    · exact h
    · exact h.workAt _ curSec again

omit [DecidableEq Dev] in
theorem start {q : EdgxDmaQueue Unit} (hq : Probed q) (n brpt : Nat) (ts : EdgxComTs (Skb Dev)) (irqs : Irqs 16) :
    PollInv irq n (comStart { realNumTxQueues := n, qIdxBrpt := brpt, ts } q irqs) where
  num := rfl
  tx _ := ⟨[], .init⟩
  rx := ⟨[], _, hq.inv⟩
  room _ hp := nomatch hp
  owned hne := absurd rfl hne
  missed hm := nomatch hm
  isr _ := True.intro
  watchedTx _ _ hready := absurd rfl hready.1
  watchedRx hw := absurd rfl hw
  heard nr hnr := by
    obtain ⟨hmask, hstat⟩ := edgxIrqInit_bit irqs nr (by obtain rfl | rfl := hnr <;> decide)
    exact Irqs.heard_of_clear hmask fun _ => hstat

end PollInv

/-! ## Rest -/

end Inv

end TsnSwitch.Com
