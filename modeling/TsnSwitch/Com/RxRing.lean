/-
The ring of the frames that are received (edge_com_dma.c): it is filled with
buffers when it is probed, the hardware writes a frame into each, and the driver
passes it up and puts a new buffer behind the others.

A buffer that cannot be allocated or mapped is not tried again. There is a
buffer less in the ring from then on, and with none left nothing is received any
more (`refilled_iff`).
-/
import TsnSwitch.Com.Ring

namespace TsnSwitch.Com

open Lib

/-- A buffer, which is of no device yet. -/
def devAllocSkb : Skb Unit where
  dev := ()
  len := 0
  queueMapping := 0
  hProto := 0
  payload := []

/-- Whether a buffer can be allocated, and where it is mapped. -/
structure RxEnv where
  alloc : Bool := true
  physAddr : Option (BitVec 32) := some 0

/-- The buffer can be had. -/
def RxEnv.Good (env : RxEnv) : Prop := env.alloc = true ∧ env.physAddr ≠ none

/-- A buffer that is not enqueued is freed. -/
def edgxDmaEnqRx (q : EdgxDmaQueue Unit) (env : RxEnv) : Int × EdgxDmaQueue Unit :=
  if env.alloc = false then (-ENOMEM, q)
  else
    let (ret, q, _) := edgxDmaEnq q devAllocSkb 0 0 none true env.physAddr
    (ret, q)

/-- A queue to receive, as it is initialized. -/
def edgxDmaRxQueueInit : EdgxDmaQueue Unit := { toDevice := false }

/-- The loop of the probe that fills the queue, as long as there are buffers in
`envs`. -/
def edgxDmaFillRx : List RxEnv → EdgxDmaQueue Unit → Int × EdgxDmaQueue Unit
  | [], q => (0, q)
  | env :: envs, q =>
    let (ret, q) := edgxDmaEnqRx q env
    if ret = 0 then edgxDmaFillRx envs q else (ret, q)

/-- The queue after a probe that did not fail. -/
def Probed (q : EdgxDmaQueue Unit) : Prop := ∃ envs, edgxDmaFillRx envs edgxDmaRxQueueInit = (-ENOSPC, q)

namespace EdgxComDmaDesc

variable (desc : EdgxComDmaDesc)

theorem getInit_setInit : desc.setInit.getInit = true := by simp [getInit, setInit]

@[simp] theorem getInit_clrLerr : desc.clrLerr.getInit = desc.getInit := by simp [getInit, clrLerr]

@[simp] theorem getInit_clrErr : desc.clrErr.getInit = desc.getInit := by simp [getInit, clrErr]

@[simp] theorem getLen_clrLerr : desc.clrLerr.getLen = desc.getLen := by
  rw [getLen, clrLerr, BitVec.and_assoc]
  rfl

@[simp] theorem getLen_clrErr : desc.clrErr.getLen = desc.getLen := by
  rw [getLen, clrErr, BitVec.and_assoc]
  rfl

@[simp] theorem mgmt_clrLerr : desc.clrLerr.mgmt = desc.mgmt := rfl

@[simp] theorem mgmt_clrErr : desc.clrErr.mgmt = desc.mgmt := rfl

end EdgxComDmaDesc

/-! ## The hardware -/

/-- A frame as the hardware writes it, with the words of its descriptor. -/
structure RxFrame where
  cfg : BitVec 16
  mgmt : BitVec 16
  hProto : BitVec 16
  payload : List (BitVec 8)
  done : cfg.getLsbD 15 = false

namespace RxFrame

variable (f : RxFrame)

/-- The frame is written into a buffer. -/
def fill (skb : Skb Unit) : Skb Unit := { skb with hProto := f.hProto, payload := f.payload }

/-- Its buffer before the driver knows the length. -/
def buffer : Skb Unit := f.fill devAllocSkb

/-- What is passed up. -/
def up : Skb Unit × BitVec 16 × BitVec 16 :=
  ({ f.buffer with len := (f.cfg &&& 0x7ff).toNat }, f.mgmt &&& 0xfff, f.mgmt >>> 8)

def write (desc : EdgxComDmaDesc) : EdgxComDmaDesc := { desc with cfg := f.cfg, mgmt := f.mgmt }

theorem getInit_write (desc : EdgxComDmaDesc) : (f.write desc).getInit = false := f.done

end RxFrame

/-- The ring, the descriptor that the hardware writes next, and the frames that
were received and passed up. -/
structure RxRing where
  q : EdgxDmaQueue Unit
  hwPos : Nat := 0
  received : List RxFrame := []
  passed : List (Skb Unit × BitVec 16 × BitVec 16) := []

/-- A frame comes. Without a buffer it is not received. -/
def RxRing.receive (s : RxRing) (f : RxFrame) : RxRing :=
  if (s.q.desc s.hwPos).getInit then
    { s with
      q := { s.q with
        desc := Function.update s.q.desc s.hwPos (f.write (s.q.desc s.hwPos))
        skb := Function.update s.q.skb s.hwPos ((s.q.skb s.hwPos).map f.fill) }
      hwPos := (s.hwPos + 1) % EDGX_DMA_DESC_CNT
      received := s.received ++ [f] }
  else s

def RxRing.receiveAll (s : RxRing) (fs : List RxFrame) : RxRing := fs.foldl RxRing.receive s

/-- A turn of the loop of `edgx_dma_process_rx`: the frames that come before the
driver takes one and before it enqueues the next buffer. -/
structure RxTurn where
  before : List RxFrame := []
  between : List RxFrame := []
  env : RxEnv := {}

/-- The budget is the number of turns. -/
def edgxDmaProcessRx : List RxTurn → RxRing → Nat × RxRing
  | [], s => (0, s)
  | t :: turns, s =>
    let s := s.receiveAll t.before
    match edgxDmaDeq s.q 0 with
    | (none, _, q) => (0, { s with q })
    | (some frame, _, q) =>
      let s := { s with q, passed := s.passed ++ [frame] }
      let s := s.receiveAll t.between
      let (_, q) := edgxDmaEnqRx s.q t.env
      let (n, s) := edgxDmaProcessRx turns { s with q }
      (n + 1, s)

inductive RxOp where
  | receive (f : RxFrame)
  | process (turns : List RxTurn)

def rxStep (s : RxRing) : RxOp → Nat × RxRing
  | .receive f => (0, s.receive f)
  | .process turns => edgxDmaProcessRx turns s

/-! ## What is asked -/

/-- A new buffer can be had for each frame that is taken. -/
def Replaces : List RxTurn → RxRing → Prop
  | [], _ => True
  | t :: turns, s =>
    let s := s.receiveAll t.before
    match edgxDmaDeq s.q 0 with
    | (none, _, _) => True
    | (some frame, _, q) =>
      let s := { s with q, passed := s.passed ++ [frame] }
      let s := s.receiveAll t.between
      t.env.Good ∧ Replaces turns { s with q := (edgxDmaEnqRx s.q t.env).2 }

/-- The ring gets full again, and frames are passed up once and in order: all of
them when the driver finds no more. -/
structure RxOk (s : RxRing) : Prop where
  refilled : ∀ turns, Replaces turns s → (edgxDmaProcessRx turns s).2.q.cnt = EDGX_DMA_DESC_CNT - 1
  inOrder : s.passed <+: s.received.map RxFrame.up
  passedAll : ∀ turns, (edgxDmaProcessRx turns s).1 < turns.length →
    (edgxDmaProcessRx turns s).2.passed = (edgxDmaProcessRx turns s).2.received.map RxFrame.up

def RxOp.Replaces (s : RxRing) : RxOp → Prop
  | .receive _ => True
  | .process turns => Com.Replaces turns s

/-! ## The ring -/

/-- An error bit is cleared, or not. -/
theorem cleared_eq (errorCnt : Nat) {desc desc' : EdgxComDmaDesc} (hinit : desc'.getInit = desc.getInit)
    (hlen : desc'.getLen = desc.getLen) (hmgmt : desc'.mgmt = desc.mgmt) (err : Bool) :
    let r := if err then (errorCnt + 1, desc') else (errorCnt, desc)
    r.2.getInit = desc.getInit ∧ r.2.getLen = desc.getLen ∧ r.2.mgmt = desc.mgmt := by
  cases err with
  | true => exact ⟨hinit, hlen, hmgmt⟩
  | false => exact ⟨rfl, rfl, rfl⟩

/-- A frame of the hardware is taken out of the ring. -/
theorem edgxDmaDeq_written {q : EdgxDmaQueue Unit} {f : RxFrame} (hcnt : q.cnt ≠ 0)
    (hwritten : f.write (q.desc q.deqPos) = q.desc q.deqPos) (hfront : q.skb q.deqPos = some f.buffer)
    (hdev : q.toDevice = false) : ∃ (desc : EdgxComDmaDesc) (errorCnt : Nat), desc.getInit = false ∧
      edgxDmaDeq q 0 = (some f.up, errorCnt, { q with
        desc := Function.update q.desc q.deqPos desc
        skb := Function.update q.skb q.deqPos none
        deqPos := (q.deqPos + 1) % EDGX_DMA_DESC_CNT
        cnt := q.cnt - 1 }) := by
  have hinit : (q.desc q.deqPos).getInit = false := by rw [← hwritten, f.getInit_write]
  have hlen : (q.desc q.deqPos).getLen = f.cfg &&& 0x7ff := by rw [← hwritten]; rfl
  have hmgmt : (q.desc q.deqPos).mgmt = f.mgmt := by rw [← hwritten]; rfl
  unfold edgxDmaDeq
  dsimp only
  rw [if_neg (by simp [hcnt, hinit]), hfront]
  generalize q.desc q.deqPos = desc at hinit hlen hmgmt ⊢
  obtain ⟨hinit1, hlen1, hmgmt1⟩ := cleared_eq 0 desc.getInit_clrLerr desc.getLen_clrLerr desc.mgmt_clrLerr desc.getLerr
  generalize (if desc.getLerr then (0 + 1, desc.clrLerr) else (0, desc)) = r at hinit1 hlen1 hmgmt1 ⊢
  obtain ⟨errorCnt, desc1⟩ := r
  dsimp only at hinit1 hlen1 hmgmt1 ⊢
  obtain ⟨hinit2, hlen2, hmgmt2⟩ :=
    cleared_eq errorCnt desc1.getInit_clrErr desc1.getLen_clrErr desc1.mgmt_clrErr desc1.getErr
  generalize (if desc1.getErr then (errorCnt + 1, desc1.clrErr) else (errorCnt, desc1)) = r at hinit2 hlen2 hmgmt2 ⊢
  obtain ⟨errorCnt, desc2⟩ := r
  dsimp only at hinit2 hlen2 hmgmt2 ⊢
  refine ⟨desc2, errorCnt, hinit2.trans (hinit1.trans hinit), ?_⟩
  rw [EdgxComDmaDesc.getPort, EdgxComDmaDesc.getFlags, hlen2, hlen1, hlen, hmgmt2, hmgmt1, hmgmt, hdev]
  simp [RxFrame.up, RxFrame.buffer, RxFrame.fill, devAllocSkb]

/-- The ring has the frames `done`, which the driver has not taken, and behind them
`free` buffers of the hardware. -/
structure RxHolds (q : EdgxDmaQueue Unit) (hwPos : Nat) (done : List RxFrame) (free : Nat) : Prop where
  slots : Ring.Holds q.skb EDGX_DMA_DESC_CNT q.deqPos (done.map RxFrame.buffer ++ List.replicate free devAllocSkb)
  cnt : q.cnt = done.length + free
  cnt_le : q.cnt ≤ EDGX_DMA_DESC_CNT - 1
  enqPos : q.enqPos = (q.deqPos + q.cnt) % EDGX_DMA_DESC_CNT
  hwPos : hwPos = (q.deqPos + done.length) % EDGX_DMA_DESC_CNT
  fromDevice : q.toDevice = false
  written : ∀ k f, done[k]? = some f → f.write (q.desc ((q.deqPos + k) % EDGX_DMA_DESC_CNT)) =
    q.desc ((q.deqPos + k) % EDGX_DMA_DESC_CNT)
  init : ∀ k < EDGX_DMA_DESC_CNT, (q.desc ((q.deqPos + k) % EDGX_DMA_DESC_CNT)).getInit =
    decide (done.length ≤ k ∧ k < q.cnt)

namespace RxHolds

variable {q : EdgxDmaQueue Unit} {hwPos free : Nat} {done : List RxFrame}

/-- The next buffer of the hardware is its own just when it has one. -/
theorem getInit_hwPos (h : RxHolds q hwPos done free) : (q.desc hwPos).getInit = decide (0 < free) := by
  have hlt : done.length < EDGX_DMA_DESC_CNT := by
    have hcnt := h.cnt
    have hle := h.cnt_le
    simp only [EDGX_DMA_DESC_CNT] at hle ⊢
    omega
  rw [h.hwPos, h.init _ hlt, h.cnt]
  simp

theorem receive (h : RxHolds q hwPos done (free + 1)) (f : RxFrame) :
    RxHolds { q with
        desc := Function.update q.desc hwPos (f.write (q.desc hwPos))
        skb := Function.update q.skb hwPos ((q.skb hwPos).map f.fill) }
      ((hwPos + 1) % EDGX_DMA_DESC_CNT) (done ++ [f]) free := by
  have hcnt := h.cnt
  have hle := h.cnt_le
  have hlt : done.length < EDGX_DMA_DESC_CNT := by
    simp only [EDGX_DMA_DESC_CNT] at hle ⊢
    omega
  have hslot : q.skb hwPos = some devAllocSkb := by
    rw [h.hwPos, h.slots.slot _ hlt]
    simp
  have hset : (done.map RxFrame.buffer ++ List.replicate (free + 1) devAllocSkb).set done.length f.buffer =
      (done ++ [f]).map RxFrame.buffer ++ List.replicate free devAllocSkb := by
    rw [List.replicate_succ, List.map_append, List.set_append_right _ _ (by simp)]
    simp
  have hdesc (k : Nat) (hk : k < EDGX_DMA_DESC_CNT) :
      Function.update q.desc hwPos (f.write (q.desc hwPos)) ((q.deqPos + k) % EDGX_DMA_DESC_CNT) =
        if k = done.length then f.write (q.desc hwPos) else q.desc ((q.deqPos + k) % EDGX_DMA_DESC_CNT) := by
    have hupdate := Ring.update_add_mod q.desc (a := q.deqPos) hlt hk (f.write (q.desc hwPos))
    rwa [← h.hwPos] at hupdate
  refine ⟨?_, ?_, hle, h.enqPos, ?_, h.fromDevice, fun k f' hf' => ?_, fun k hk => ?_⟩
  · have hslots := h.slots.set (k := done.length) (by simp) f.buffer
    rw [hset, ← h.hwPos] at hslots
    dsimp only
    rw [hslot]
    exact hslots
  · simp only [List.length_append, List.length_singleton]
    omega
  · rw [h.hwPos, Nat.mod_add_mod, List.length_append, List.length_singleton, Nat.add_assoc]
  · have hk : k < (done ++ [f]).length := (List.getElem?_eq_some_iff.1 hf').1
    rw [List.length_append, List.length_singleton] at hk
    dsimp only
    rw [hdesc k (by omega)]
    by_cases hk' : k = done.length
    · subst hk'
      obtain rfl : f = f' := by simpa using hf'
      rw [if_pos rfl]
      rfl
    · rw [if_neg hk']
      rw [List.getElem?_append_left (by omega)] at hf'
      exact h.written k f' hf'
  · dsimp only
    rw [hdesc k hk]
    by_cases hk' : k = done.length
    · rw [if_pos hk', f.getInit_write, hk']
      simp
    · rw [if_neg hk', h.init k hk, List.length_append, List.length_singleton]
      exact decide_eq_decide.2 (by omega)

/-- A new buffer is put behind the others. -/
theorem enq (h : RxHolds q hwPos done free) (hroom : q.cnt < EDGX_DMA_DESC_CNT - 1) {env : RxEnv} (henv : env.Good) :
    (edgxDmaEnqRx q env).1 = (if q.cnt + 1 < EDGX_DMA_DESC_CNT - 1 then 0 else -ENOSPC) ∧
      RxHolds (edgxDmaEnqRx q env).2 hwPos done (free + 1) := by
  have hcnt := h.cnt
  have hlt : q.cnt < EDGX_DMA_DESC_CNT := by omega
  have hinit : (q.desc q.enqPos).getInit = false := by
    rw [h.enqPos, h.init _ hlt]
    simp
  obtain ⟨physAddr, hphys⟩ := Option.ne_none_iff_exists'.1 henv.2
  obtain ⟨desc, hdesc, hr⟩ : ∃ desc : EdgxComDmaDesc, desc.getInit = true ∧ edgxDmaEnqRx q env =
      (if q.cnt + 1 < EDGX_DMA_DESC_CNT - 1 then 0 else -ENOSPC,
        { q with
          desc := Function.update q.desc q.enqPos desc
          skb := Function.update q.skb q.enqPos (some devAllocSkb)
          descP := q.enqPos
          enqPos := (q.enqPos + 1) % EDGX_DMA_DESC_CNT
          cnt := q.cnt + 1 }) := by
    refine ⟨((((q.desc q.enqPos).setLen EDGX_DMA_MAX_LEN).setPort 0 0).setPdata physAddr).setInit,
      EdgxComDmaDesc.getInit_setInit _, ?_⟩
    unfold edgxDmaEnqRx edgxDmaEnq
    simp [henv.1, hphys, hroom, hinit, h.fromDevice]
  have hupdate (k : Nat) (hk : k < EDGX_DMA_DESC_CNT) :
      Function.update q.desc q.enqPos desc ((q.deqPos + k) % EDGX_DMA_DESC_CNT) =
        if k = q.cnt then desc else q.desc ((q.deqPos + k) % EDGX_DMA_DESC_CNT) := by
    rw [h.enqPos]
    exact Ring.update_add_mod q.desc hlt hk desc
  rw [hr]
  refine ⟨rfl, ?_, ?_, ?_, ?_, h.hwPos, h.fromDevice, fun k f hf => ?_, fun k hk => ?_⟩
  · have hlen : (done.map RxFrame.buffer ++ List.replicate free devAllocSkb).length = q.cnt := by
      rw [hcnt]
      simp
    have hpush := h.slots.push (by rw [hlen]; exact hlt) devAllocSkb
    rw [hlen, ← h.enqPos, List.append_assoc, ← List.replicate_succ'] at hpush
    exact hpush
  · dsimp only
    omega
  · dsimp only
    omega
  · dsimp only
    rw [h.enqPos, Nat.mod_add_mod, Nat.add_assoc]
  · have hk : k < done.length := (List.getElem?_eq_some_iff.1 hf).1
    dsimp only
    rw [hupdate k (by omega), if_neg (by omega)]
    exact h.written k f hf
  · dsimp only
    rw [hupdate k hk]
    by_cases hk' : k = q.cnt
    · rw [if_pos hk', hdesc, hk', hcnt]
      simp
    · rw [if_neg hk', h.init k hk]
      exact decide_eq_decide.2 (by omega)

/-- A buffer that cannot be had is missing. -/
theorem enq_failed {env : RxEnv} (henv : ¬ env.Good) : edgxDmaEnqRx q env = (-ENOMEM, q) := by
  unfold edgxDmaEnqRx
  by_cases halloc : env.alloc = false
  · rw [if_pos halloc]
  · have hphys : env.physAddr = none := by
      by_contra hphys
      exact henv ⟨by simpa using halloc, hphys⟩
    rw [if_neg halloc, hphys]
    unfold edgxDmaEnq
    dsimp only
    split
    · split <;> rfl
    · rfl

theorem deq_nil (h : RxHolds q hwPos [] free) : (edgxDmaDeq q 0).1 = none ∧ (edgxDmaDeq q 0).2.2 = q := by
  have hwait : q.cnt = 0 ∨ (q.desc q.deqPos).getInit = true := by
    have hcnt := h.cnt
    have hinit := h.init 0 (by decide)
    rw [Nat.add_zero, Nat.mod_eq_of_lt h.slots.head_lt] at hinit
    rw [hinit]
    simp
    omega
  unfold edgxDmaDeq
  rw [if_pos hwait]
  exact ⟨rfl, rfl⟩

/-- The oldest frame is passed up. -/
theorem deq {f : RxFrame} (h : RxHolds q hwPos (f :: done) free) :
    (edgxDmaDeq q 0).1 = some f.up ∧ RxHolds (edgxDmaDeq q 0).2.2 hwPos done free := by
  have hcnt := h.cnt
  have hle := h.cnt_le
  rw [List.length_cons] at hcnt
  simp only [EDGX_DMA_DESC_CNT] at hle
  have hpos : (q.deqPos + 0) % EDGX_DMA_DESC_CNT = q.deqPos := by
    rw [Nat.add_zero, Nat.mod_eq_of_lt h.slots.head_lt]
  have hwritten : f.write (q.desc q.deqPos) = q.desc q.deqPos := by
    have hwritten := h.written 0 f rfl
    rwa [hpos] at hwritten
  have hfront : q.skb q.deqPos = some f.buffer := by
    rw [h.slots.front]
    rfl
  obtain ⟨desc, errorCnt, hinit, hr⟩ := edgxDmaDeq_written (by omega) hwritten hfront h.fromDevice
  rw [hr]
  have hnext (k : Nat) : ((q.deqPos + 1) % EDGX_DMA_DESC_CNT + k) % EDGX_DMA_DESC_CNT =
      (q.deqPos + (k + 1)) % EDGX_DMA_DESC_CNT := by
    rw [Nat.mod_add_mod, Nat.add_assoc, Nat.add_comm 1 k]
  -- the slot that was taken is the last one of the next round
  have hlast : q.deqPos = ((q.deqPos + 1) % EDGX_DMA_DESC_CNT + 255) % EDGX_DMA_DESC_CNT := by
    rw [hnext, show 255 + 1 = EDGX_DMA_DESC_CNT from rfl, Nat.add_mod_right, Nat.mod_eq_of_lt h.slots.head_lt]
  have hupdate (k : Nat) (hk : k < EDGX_DMA_DESC_CNT) :
      Function.update q.desc q.deqPos desc ((q.deqPos + (k + 1)) % EDGX_DMA_DESC_CNT) =
        if k = 255 then desc else q.desc ((q.deqPos + (k + 1)) % EDGX_DMA_DESC_CNT) := by
    have hupdate := Ring.update_add_mod q.desc (a := (q.deqPos + 1) % EDGX_DMA_DESC_CNT)
      (show 255 < EDGX_DMA_DESC_CNT by decide) hk desc
    rwa [← hlast, hnext k] at hupdate
  refine ⟨rfl, h.slots.pop, ?_, ?_, ?_, ?_, h.fromDevice, fun k f' hf' => ?_, fun k hk => ?_⟩
  · dsimp only
    omega
  · dsimp only
    simp only [EDGX_DMA_DESC_CNT]
    omega
  · dsimp only
    rw [hnext, h.enqPos]
    congr 1
    omega
  · rw [h.hwPos, List.length_cons, hnext]
  · have hk : k < done.length := (List.getElem?_eq_some_iff.1 hf').1
    dsimp only
    rw [hnext, hupdate k (by simp only [EDGX_DMA_DESC_CNT]; omega), if_neg (by omega)]
    exact h.written (k + 1) f' hf'
  · dsimp only
    rw [hnext, hupdate k hk]
    by_cases hk' : k = 255
    · rw [if_pos hk', hinit]
      simp
      omega
    · simp only [EDGX_DMA_DESC_CNT] at hk
      rw [if_neg hk', h.init (k + 1) (by simp only [EDGX_DMA_DESC_CNT]; omega)]
      simp only [List.length_cons]
      exact decide_eq_decide.2 (by omega)

end RxHolds

/-! ## Polling -/

/-- What the ring has, and that it is what was received and not passed up. -/
structure RxInv (s : RxRing) (done : List RxFrame) (free : Nat) : Prop where
  ring : RxHolds s.q s.hwPos done free
  order : s.received.map RxFrame.up = s.passed ++ done.map RxFrame.up

namespace RxInv

variable {s : RxRing} {done : List RxFrame} {free : Nat}

theorem receive (h : RxInv s done free) (f : RxFrame) :
    (s.receive f).q.cnt = s.q.cnt ∧ ∃ done free, RxInv (s.receive f) done free := by
  unfold RxRing.receive
  rw [h.ring.getInit_hwPos]
  cases free with
  | zero => exact ⟨by simp, done, 0, by simpa using h⟩
  | succ free =>
    refine ⟨by simp, done ++ [f], free, ?_⟩
    rw [if_pos (by simp)]
    refine ⟨h.ring.receive f, ?_⟩
    dsimp only
    rw [List.map_append, List.map_append, h.order, List.append_assoc]

theorem receiveAll (h : RxInv s done free) (fs : List RxFrame) :
    (s.receiveAll fs).q.cnt = s.q.cnt ∧ ∃ done free, RxInv (s.receiveAll fs) done free := by
  induction fs generalizing s done free with
  | nil => exact ⟨rfl, done, free, h⟩
  | cons f fs ih =>
    obtain ⟨hcnt, done', free', h'⟩ := h.receive f
    obtain ⟨hcnts, hinv⟩ := ih h'
    exact ⟨hcnts.trans hcnt, hinv⟩

/-- A frame is passed up. -/
theorem pass {f : RxFrame} (h : RxInv s (f :: done) free) :
    RxInv { s with q := (edgxDmaDeq s.q 0).2.2, passed := s.passed ++ [f.up] } done free := by
  refine ⟨h.ring.deq.2, ?_⟩
  dsimp only
  rw [h.order, List.append_assoc]
  rfl

/-- A buffer is enqueued for a frame that was taken, or is missing. -/
theorem replace (h : RxInv s done free) (hroom : s.q.cnt < EDGX_DMA_DESC_CNT - 1) (env : RxEnv) :
    (env.Good ∧ (edgxDmaEnqRx s.q env).2.cnt = s.q.cnt + 1 ∨ ¬ env.Good ∧ (edgxDmaEnqRx s.q env).2.cnt = s.q.cnt) ∧
      ∃ free, RxInv { s with q := (edgxDmaEnqRx s.q env).2 } done free := by
  by_cases henv : env.Good
  · have hring := (h.ring.enq hroom henv).2
    have hcnt := h.ring.cnt
    have hcnt' := hring.cnt
    exact ⟨.inl ⟨henv, by omega⟩, free + 1, hring, h.order⟩
  · rw [RxHolds.enq_failed henv]
    exact ⟨.inr ⟨henv, rfl⟩, free, h.ring, h.order⟩

/-- **A round of polling** keeps as many buffers in the ring as there were just when
every frame that was taken was replaced, and has less otherwise. -/
theorem process (h : RxInv s done free) (turns : List RxTurn) :
    let r := edgxDmaProcessRx turns s
    r.2.q.cnt ≤ s.q.cnt ∧ (r.2.q.cnt = s.q.cnt ↔ Replaces turns s) ∧
      ∃ done free, RxInv r.2 done free ∧ (r.1 < turns.length → done = []) := by
  induction turns generalizing s done free with
  | nil => exact ⟨Nat.le_refl _, iff_of_true rfl True.intro, done, free, h, fun hlt => absurd hlt (Nat.not_lt_zero _)⟩
  | cons t turns ih =>
    obtain ⟨hcnt, done, free, h1⟩ := h.receiveAll t.before
    intro r
    have hr : r = edgxDmaProcessRx (t :: turns) s := rfl
    rw [edgxDmaProcessRx] at hr
    rw [Replaces]
    dsimp only at hr ⊢
    rw [← hcnt]
    generalize s.receiveAll t.before = s1 at hr h1 ⊢
    cases done with
    | nil =>
      obtain ⟨hnone, hsame⟩ := h1.ring.deq_nil
      generalize edgxDmaDeq s1.q 0 = x at hr hnone hsame ⊢
      obtain ⟨frame, e, q⟩ := x
      dsimp only at hnone hsame
      subst hnone hsame
      rw [hr]
      exact ⟨Nat.le_refl _, iff_of_true rfl True.intro, [], free, h1, fun _ => rfl⟩
    | cons f done =>
      have hsome := h1.ring.deq.1
      have h2 := h1.pass
      have hcnt2 : (edgxDmaDeq s1.q 0).2.2.cnt + 1 = s1.q.cnt := by
        rw [h1.ring.cnt, h1.ring.deq.2.cnt, List.length_cons]
        omega
      generalize edgxDmaDeq s1.q 0 = x at hr hsome h2 hcnt2 ⊢
      obtain ⟨frame, e, q⟩ := x
      dsimp only at hsome h2 hcnt2
      subst hsome
      dsimp only at hr ⊢
      obtain ⟨hcnt3, done, free, h3⟩ := h2.receiveAll t.between
      generalize RxRing.receiveAll { s1 with q, passed := s1.passed ++ [f.up] } t.between = s3 at hr hcnt3 h3 ⊢
      have hle := h1.ring.cnt_le
      dsimp only at hcnt3
      obtain ⟨hreplaced, free, h4⟩ := h3.replace (by omega) t.env
      obtain ⟨hle', hiff, done', free', h5, hend⟩ := ih h4
      generalize edgxDmaEnqRx s3.q t.env = y at hr hreplaced hle' hiff h5 hend ⊢
      obtain ⟨ret, q'⟩ := y
      dsimp only at hr hreplaced hle' hiff h5 hend ⊢
      generalize edgxDmaProcessRx turns { s3 with q := q' } = z at hr hle' hiff h5 hend
      obtain ⟨n, s4⟩ := z
      dsimp only at hr hle' hiff h5 hend
      rw [hr, ← hiff]
      refine ⟨by dsimp only; omega, ?_, done', free', h5, fun hlt => hend ?_⟩
      · dsimp only
        rcases hreplaced with ⟨hgood, hcnt4⟩ | ⟨hbad, hcnt4⟩
        · simp only [hgood, true_and]
          omega
        · simp only [hbad, false_and, iff_false]
          omega
      · rw [List.length_cons] at hlt
        dsimp only at hlt
        omega

/-- A frame that is there is taken, and its buffer is to be replaced. -/
theorem not_replaces {f : RxFrame} (h : RxInv s (f :: done) free) {t : RxTurn} (hbefore : t.before = [])
    (ht : ¬ t.env.Good) (turns : List RxTurn) : ¬ Replaces (t :: turns) s := by
  have hsome := h.ring.deq.1
  rw [Replaces, hbefore]
  dsimp only [RxRing.receiveAll, List.foldl_nil]
  generalize edgxDmaDeq s.q 0 = x at hsome ⊢
  obtain ⟨frame, e, q⟩ := x
  dsimp only at hsome
  subst hsome
  exact fun hreplaces => ht hreplaces.1

/-- What is asked of a ring that can be reached is that it is full. -/
theorem rxOk_iff_cnt (h : RxInv s done free) : RxOk s ↔ s.q.cnt = EDGX_DMA_DESC_CNT - 1 := by
  refine ⟨fun hok => hok.refilled [] True.intro, fun hfull => ⟨fun turns hturns => ?_, ?_, fun turns hlt => ?_⟩⟩
  · obtain ⟨_, hiff, _⟩ := h.process turns
    exact (hiff.2 hturns).trans hfull
  · rw [h.order]
    exact List.prefix_append _ _
  · obtain ⟨_, _, done', free', h', hend⟩ := h.process turns
    have horder := h'.order
    rw [hend hlt] at horder
    simpa using horder.symm

theorem after (h : RxInv s done free) (ops : List RxOp) :
    (Lib.after rxStep s ops).q.cnt ≤ s.q.cnt ∧
      ((Lib.after rxStep s ops).q.cnt = s.q.cnt ↔ Guarded rxStep RxOp.Replaces s ops) ∧
      ∃ done free, RxInv (Lib.after rxStep s ops) done free := by
  induction ops generalizing s done free with
  | nil => exact ⟨Nat.le_refl _, iff_of_true rfl True.intro, done, free, h⟩
  | cons op ops ih =>
    rw [after_cons, Guarded]
    cases op with
    | receive f =>
      obtain ⟨hcnt, done', free', h'⟩ := h.receive f
      obtain ⟨hle, hiff, hinv⟩ := ih h'
      rw [hcnt] at hle hiff
      exact ⟨hle, hiff.trans (and_iff_right True.intro).symm, hinv⟩
    | process turns =>
      obtain ⟨hle, hiff, done', free', h', _⟩ := h.process turns
      obtain ⟨hle', hiff', hinv⟩ := ih h'
      rw [show RxOp.Replaces s (.process turns) ↔ Replaces turns s from Iff.rfl, ← hiff,
        show rxStep s (.process turns) = edgxDmaProcessRx turns s from rfl, ← hiff']
      exact ⟨hle'.trans hle, by omega, hinv⟩

end RxInv

/-! ## Filling -/

namespace RxHolds

theorem init_rx : RxHolds edgxDmaRxQueueInit 0 [] 0 := by
  refine ⟨Ring.Holds.empty (by decide), rfl, Nat.zero_le _, rfl, rfl, rfl, fun k f hf => ?_, fun k _ => ?_⟩
  · simp at hf
  · simp [edgxDmaRxQueueInit, EdgxComDmaDesc.getInit]

theorem fill {q : EdgxDmaQueue Unit} {free : Nat} (h : RxHolds q 0 [] free) (hroom : q.cnt < EDGX_DMA_DESC_CNT - 1)
    (envs : List RxEnv) (hfull : (edgxDmaFillRx envs q).1 = -ENOSPC) :
    RxHolds (edgxDmaFillRx envs q).2 0 [] (EDGX_DMA_DESC_CNT - 1) := by
  induction envs generalizing q free with
  | nil =>
    rw [edgxDmaFillRx] at hfull
    exact absurd hfull (by dsimp only; decide)
  | cons env envs ih =>
    rw [edgxDmaFillRx] at hfull ⊢
    by_cases henv : env.Good
    · obtain ⟨hret, h'⟩ := h.enq hroom henv
      have hcnt := h.cnt
      have hcnt' := h'.cnt
      generalize edgxDmaEnqRx q env = x at hfull hret h' hcnt' ⊢
      obtain ⟨ret, q'⟩ := x
      dsimp only at hfull hret h' hcnt' ⊢
      by_cases hmore : q.cnt + 1 < EDGX_DMA_DESC_CNT - 1
      · rw [if_pos hmore] at hret
        rw [if_pos hret] at hfull ⊢
        exact ih h' (by omega) hfull
      · rw [if_neg hmore] at hret
        have hfree : free + 1 = EDGX_DMA_DESC_CNT - 1 := by
          simp only [List.length_nil] at hcnt
          omega
        rw [if_neg (by rw [hret]; decide), ← hfree]
        exact h'
    · rw [RxHolds.enq_failed henv] at hfull
      dsimp only at hfull
      rw [if_neg (by decide)] at hfull
      exact absurd hfull (by dsimp only; decide)

/-- A queue can be filled. -/
theorem fill_good {q : EdgxDmaQueue Unit} {free n : Nat} (h : RxHolds q 0 [] free)
    (hn : free + (n + 1) = EDGX_DMA_DESC_CNT - 1) : (edgxDmaFillRx (List.replicate (n + 1) {}) q).1 = -ENOSPC := by
  have hgood : ({} : RxEnv).Good := ⟨rfl, nofun⟩
  induction n generalizing q free with
  | zero =>
    have hcnt := h.cnt
    simp only [List.length_nil] at hcnt
    obtain ⟨hret, _⟩ := h.enq (by omega) hgood
    rw [if_neg (by omega)] at hret
    rw [List.replicate_succ, edgxDmaFillRx]
    dsimp only
    rw [hret, if_neg (by decide)]
  | succ n ih =>
    have hcnt := h.cnt
    simp only [List.length_nil] at hcnt
    obtain ⟨hret, h'⟩ := h.enq (by omega) hgood
    rw [if_pos (by omega)] at hret
    rw [List.replicate_succ, edgxDmaFillRx]
    dsimp only
    rw [hret, if_pos rfl]
    exact ih h' (by omega)

end RxHolds

theorem Probed.inv {q : EdgxDmaQueue Unit} (h : Probed q) : RxInv { q } [] (EDGX_DMA_DESC_CNT - 1) := by
  obtain ⟨envs, hfill⟩ := h
  have hring := RxHolds.init_rx.fill (by decide) envs (by rw [hfill])
  rw [hfill] at hring
  exact ⟨hring, rfl⟩

/-! ## All runs -/

/-- The buffer of a frame that could not be replaced is missing in all rounds that
follow. -/
theorem Probed.missing {q : EdgxDmaQueue Unit} (h : Probed q) (f : RxFrame) :
    let s := after rxStep { q } [.receive f, .process [{ env := { alloc := false } }]]
    ¬ RxOk s ∧ ∀ turns, (edgxDmaProcessRx turns s).2.q.cnt < EDGX_DMA_DESC_CNT - 1 := by
  intro s
  have hinv := h.inv
  have hrecv : ({ q } : RxRing).receive f = _ := if_pos hinv.ring.getInit_hwPos
  have hinv1 : RxInv (({ q } : RxRing).receive f) [f] 254 := by
    rw [hrecv]
    exact ⟨hinv.ring.receive f, rfl⟩
  obtain ⟨hle, hiff, done, free, hinv2, _⟩ := hinv1.process [{ env := { alloc := false } }]
  have hnot : ¬ Replaces [{ env := { alloc := false } }] (({ q } : RxRing).receive f) :=
    hinv1.not_replaces rfl (fun hgood => absurd hgood.1 (by decide)) _
  have hlt : s.q.cnt < EDGX_DMA_DESC_CNT - 1 :=
    Nat.lt_of_lt_of_le (Nat.lt_of_le_of_ne hle (mt hiff.1 hnot)) hinv1.ring.cnt_le
  refine ⟨fun hok => absurd (hinv2.rxOk_iff_cnt.1 hok) (Nat.ne_of_lt hlt), fun turns => ?_⟩
  exact Nat.lt_of_le_of_lt (hinv2.process turns).1 hlt

/-- **In every run frames are passed up once and in order.** The frames that were
received are those that were passed up and those that are in the ring. -/
theorem passed_inOrder {q : EdgxDmaQueue Unit} (h : Probed q) (ops : List RxOp) : ∃ done free,
    RxHolds (after rxStep { q } ops).q (after rxStep { q } ops).hwPos done free ∧
      (after rxStep { q } ops).received.map RxFrame.up = (after rxStep { q } ops).passed ++ done.map RxFrame.up := by
  obtain ⟨_, _, done, free, hinv⟩ := h.inv.after ops
  exact ⟨done, free, hinv.ring, hinv.order⟩

/-- **The ring gets full again** after every round in which all buffers can be had,
and frames are passed up once and in order, just when all buffers could be had
in all rounds before. -/
theorem rxOk_iff {q : EdgxDmaQueue Unit} (h : Probed q) (ops : List RxOp) :
    RxOk (after rxStep { q } ops) ↔ Guarded rxStep RxOp.Replaces { q } ops := by
  obtain ⟨_, hiff, done, free, hinv⟩ := h.inv.after ops
  rw [hinv.rxOk_iff_cnt, ← hiff, show q.cnt = EDGX_DMA_DESC_CNT - 1 by simpa using h.inv.ring.cnt]

theorem replaces_of_good {turns : List RxTurn} (h : ∀ t ∈ turns, t.env.Good) (s : RxRing) : Replaces turns s := by
  induction turns generalizing s with
  | nil => exact True.intro
  | cons t turns ih =>
    obtain ⟨ht, hturns⟩ := List.forall_mem_cons.1 h
    rw [Replaces]
    dsimp only
    split
    · exact True.intro
    · exact ⟨ht, ih hturns _⟩

/-- All buffers can be had. -/
def RxOp.Good : RxOp → Prop
  | .receive _ => True
  | .process turns => ∀ t ∈ turns, t.env.Good

theorem guarded_of_good {ops : List RxOp} (h : ∀ op ∈ ops, op.Good) (s : RxRing) : Guarded rxStep RxOp.Replaces s ops := by
  induction ops generalizing s with
  | nil => exact True.intro
  | cons op ops ih =>
    obtain ⟨hop, hops⟩ := List.forall_mem_cons.1 h
    refine ⟨?_, ih hops _⟩
    cases op with
    | receive f => exact True.intro
    | process turns => exact replaces_of_good hop s

section Inputs

/-- A queue that was filled without a failure. -/
def filledRing : EdgxDmaQueue Unit := (edgxDmaFillRx (List.replicate (254 + 1) {}) edgxDmaRxQueueInit).2

theorem probed_filledRing : Probed filledRing := by
  have hret := RxHolds.init_rx.fill_good (n := 254) rfl
  exact ⟨List.replicate (254 + 1) {}, by rw [filledRing, ← hret]⟩

def exampleFrame : RxFrame := ⟨60, 1, 0x0800, [], by decide⟩

/-- A frame is received and passed up, and its buffer replaced. -/
theorem rxOk_iff_one : RxOk (after rxStep { q := filledRing } [.receive exampleFrame, .process [{}]]) := by
  refine (rxOk_iff probed_filledRing _).2 (guarded_of_good ?_ _)
  exact List.forall_mem_cons.2 ⟨True.intro, List.forall_mem_singleton.2 (List.forall_mem_singleton.2 ⟨rfl, nofun⟩)⟩

/-- A frame is received and passed up, and no buffer can be allocated. The ring has
a buffer less whatever rounds follow. -/
theorem not_rxOk :
    let s := after rxStep { q := filledRing } [.receive exampleFrame, .process [{ env := { alloc := false } }]]
    ¬ RxOk s ∧ ∀ turns, (edgxDmaProcessRx turns s).2.q.cnt < EDGX_DMA_DESC_CNT - 1 :=
  probed_filledRing.missing exampleFrame

end Inputs

end TsnSwitch.Com
