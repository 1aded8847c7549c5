/-
Who owns a frame after `edgx_com_dma_xmit`: the driver of Dma.lean with the
headers of the frames, which are put into the ring and the fifos and freed. A
frame and its clone are two headers.

A frame that cannot be padded is freed by `skb_pad`, and one that cannot be mapped
may be in the fifo of its port already. Both are reported as busy, which leaves
the frame to the caller (`oneOwner_iff`).
-/
import TsnSwitch.Com.Dma

namespace TsnSwitch.Com.Owner

/-- A queue to send, with the headers in its slots. -/
structure HdrQueue (Dev α : Type*) where
  desc : Nat → EdgxComDmaDesc := fun _ => {}
  enqPos : Nat := 0
  deqPos : Nat := 0
  cnt : Nat := 0
  skb : Nat → Option (Sent α) := fun _ => none
  pendingDevs : List Dev := []
  descP : Nat := EDGX_DMA_DESC_CNT - 1

/-- The driver, what each frame is, and the headers that were freed. -/
structure HdrDma (Dev α : Type*) where
  skb : α → Skb Dev
  txQueue : Nat → HdrQueue Dev α := fun _ => {}
  realNumTxQueues : Nat
  qIdxBrpt : Nat
  ts : EdgxComTs α
  stopped : Dev → Nat → Bool := fun _ _ => false
  freed : List (Sent α) := []

section Xmit

variable {Dev α : Type*} (nd : NetDevs Dev)

/-- `edgx_com_ts_xmit`, and the headers that were freed. A clone for which the fifo
has no room is. -/
def edgxComTsXmit (skb : α → Skb Dev) (ts : EdgxComTs α) (freed : List (Sent α)) (a : α) (ptcom : BitVec 16)
    (clone : Bool) : Sent α × EdgxComTs α × List (Sent α) :=
  match ptidOf ptcom with
  | none => (.skb a, ts, freed)
  | some ptid =>
    match ts ptid with
    | none => (.skb a, ts, freed)
    | some pts =>
      if edgxComGetPtpHdr (skb a) = none then (.skb a, ts, freed)
      else if clone = false then (.skb a, ts, freed)
      else
        let (put, txQueue) := kfifoPut EDGX_COM_TS_KFIFO_LEN pts.txQueue a
        if put = false then (.skb a, ts, freed ++ [.backup a])
        else (.backup a, Function.update ts ptid (some { pts with txQueue }), freed)

/-- `edgx_dma_enq` of a queue to send. -/
def edgxDmaEnq (skb : α → Skb Dev) (q : HdrQueue Dev α) (a : α) (portMask flags : BitVec 16) (ts : EdgxComTs α)
    (freed : List (Sent α)) (clone : Bool) (physAddr : Option (BitVec 32)) :
    Int × HdrQueue Dev α × EdgxComTs α × List (Sent α) :=
  let len := (skb a).len
  if q.cnt < EDGX_DMA_DESC_CNT - 1 then
    let desc := q.desc q.enqPos
    if desc.getInit then (-ENOMEM, q, ts, freed)
    else
      let (sent, ts, freed) := edgxComTsXmit skb ts freed a portMask clone
      match physAddr with
      | none => (-ENOMEM, q, ts, freed)
      | some physAddr =>
        let desc := (((desc.setLen len).setPort portMask flags).setPdata physAddr).setInit
        let q := { q with
          desc := Function.update q.desc q.enqPos desc
          skb := Function.update q.skb q.enqPos (some sent)
          descP := q.enqPos
          enqPos := (q.enqPos + 1) % EDGX_DMA_DESC_CNT
          cnt := q.cnt + 1 }
        (if q.cnt < EDGX_DMA_DESC_CNT - 1 then 0 else -ENOSPC, q, ts, freed)
  else (-ENOMEM, q, ts, freed)

section Steps

variable [DecidableEq Dev] [DecidableEq α]

def HdrDma.setStopped (d : HdrDma Dev α) (dev : Dev) (i : Nat) (b : Bool) : HdrDma Dev α :=
  { d with stopped := Function.update d.stopped dev (Function.update (d.stopped dev) i b) }

def HdrDma.setSkb (d : HdrDma Dev α) (a : α) (skb : Skb Dev) : HdrDma Dev α :=
  { d with skb := Function.update d.skb a skb }

/-- A frame that cannot be padded is freed. -/
def edgxDmaEnqTx (d : HdrDma Dev α) (qIdx : Nat) (a : α) (portMask flags : BitVec 16) (env : XmitEnv) :
    Int × HdrDma Dev α :=
  if (d.skb a).len < ETH_ZLEN ∧ env.pad = false then (-ENOMEM, { d with freed := d.freed ++ [.skb a] })
  else
    let d := if (d.skb a).len < ETH_ZLEN then d.setSkb a { d.skb a with len := ETH_ZLEN } else d
    let (ret, q, ts, freed) := edgxDmaEnq d.skb (d.txQueue qIdx) a portMask flags d.ts d.freed env.clone env.physAddr
    let d := { d with ts, freed }
    if ret ≠ 0 then
      let (_, pendingDevs) := kfifoPut EDGX_BR_MAX_PORTS q.pendingDevs (d.skb a).dev
      (ret, { d with txQueue := Function.update d.txQueue qIdx { q with pendingDevs } }.setStopped (d.skb a).dev
        (subqueueOf nd (d.skb a).dev (d.skb a).queueMapping) true)
    else (ret, { d with txQueue := Function.update d.txQueue qIdx q })

def edgxComDmaXmit (d : HdrDma Dev α) (a : α) (ptcom flags : BitVec 16) (env : XmitEnv) : NetdevTx × HdrDma Dev α :=
  let d := if nd.edgxDev2ptid (d.skb a).dev = none then d else d.setSkb a { d.skb a with queueMapping := d.qIdxBrpt }
  let (ret, d) := edgxDmaEnqTx nd d (d.skb a).queueMapping a ptcom flags env
  (if ret = -ENOMEM then .busy else .ok, d)

end Steps

/-! ## What is asked -/

/-- Where the driver may keep a header, or may have put it. -/
inductive Place where
  | slot (j i : Nat)
  | fifo (p : Fin EDGX_BR_MAX_PORTS) (k : Nat)
  | freed (k : Nat)

/-- What is in a place. -/
def places (slots : Nat → Nat → Option (Sent α)) (ts : EdgxComTs α) (freed : List (Sent α)) : Place → Option (Sent α)
  | .slot j i => slots j i
  | .fifo p k => (ts p).bind fun pts => (pts.txQueue[k]?).map .skb
  | .freed k => freed[k]?

def HdrDma.slots (d : HdrDma Dev α) (j : Nat) : Nat → Option (Sent α) := (d.txQueue j).skb

def HdrDma.at (d : HdrDma Dev α) : Place → Option (Sent α) := places d.slots d.ts d.freed

/-- The driver has no header of the frame: it is the caller's. -/
def Fresh (d : HdrDma Dev α) (a : α) : Prop := ∀ pl h, d.at pl = some h → h.frame ≠ a

/-- The frame has one owner after it was sent, or was not. -/
structure OneOwner (ret : NetdevTx) (place : Place → Option (Sent α)) (a : α) : Prop where
  /-- The caller keeps the frame: it is nowhere else, and neither is a clone in the
  ring. -/
  busy : ret = .busy → (∀ pl, place pl ≠ some (.skb a)) ∧ ∀ j i, place (.slot j i) ≠ some (.backup a)
  /-- The frame or its clone is in the ring, and each of the two in one place. -/
  ok : ret = .ok → (∃! pl, place pl = some (.skb a)) ∧
    (∀ pl pl', place pl = some (.backup a) → place pl' = some (.backup a) → pl = pl') ∧
    ∃! ji : Nat × Nat, ∃ h : Sent α, h.frame = a ∧ place (.slot ji.1 ji.2) = some h

/-- The queue that a frame is put into. -/
def HdrDma.queueOf (d : HdrDma Dev α) (a : α) : HdrQueue Dev α :=
  d.txQueue (if nd.edgxDev2ptid (d.skb a).dev = none then (d.skb a).queueMapping else d.qIdxBrpt)

def HdrQueue.Room (q : HdrQueue Dev α) : Prop := q.cnt < EDGX_DMA_DESC_CNT - 1 ∧ (q.desc q.enqPos).getInit = false

/-- The fifo of the port takes the frame. -/
def TsTakes (d : HdrDma Dev α) (a : α) (ptcom : BitVec 16) (clone : Bool) : Prop :=
  clone = true ∧ edgxComGetPtpHdr (d.skb a) ≠ none ∧
    ∃ p pts, ptidOf ptcom = some p ∧ d.ts p = some pts ∧ pts.txQueue.length < EDGX_COM_TS_KFIFO_LEN

def Unpadded (d : HdrDma Dev α) (a : α) (env : XmitEnv) : Prop := (d.skb a).len < ETH_ZLEN ∧ env.pad = false

/-- The frame is not freed for want of padding, and not mapped in vain after a fifo
took it. -/
def KeepsOwner (d : HdrDma Dev α) (a : α) (ptcom : BitVec 16) (env : XmitEnv) : Prop :=
  ¬ Unpadded d a env ∧ ¬ ((d.queueOf nd a).Room ∧ TsTakes d a ptcom env.clone ∧ env.physAddr = none)

/-! ## The ways through a transmission -/

section Cases

variable {d : HdrDma Dev α} {a : α} {ptcom : BitVec 16} {clone : Bool}

theorem tsXmit_congr {skb skb' : α → Skb Dev} {ts : EdgxComTs α} {freed : List (Sent α)}
    (h : edgxComGetPtpHdr (skb a) = edgxComGetPtpHdr (skb' a)) :
    edgxComTsXmit skb ts freed a ptcom clone = edgxComTsXmit skb' ts freed a ptcom clone := by
  unfold edgxComTsXmit
  rw [h]

theorem tsXmit_taken (h : TsTakes d a ptcom clone) : ∃ p pts, d.ts p = some pts ∧
    edgxComTsXmit d.skb d.ts d.freed a ptcom clone =
      (.backup a, Function.update d.ts p (some { pts with txQueue := pts.txQueue ++ [a] }), d.freed) := by
  obtain ⟨hclone, hhdr, p, pts, hptid, hpts, hroom⟩ := h
  refine ⟨p, pts, hpts, ?_⟩
  simp [edgxComTsXmit, hptid, hpts, hhdr, hclone, kfifoPut, hroom]

/-- A frame that no fifo takes is sent itself. If it was cloned, the clone is freed. -/
theorem tsXmit_not_taken (h : ¬ TsTakes d a ptcom clone) : ∃ dropped, (dropped = [] ∨ dropped = [.backup a]) ∧
    edgxComTsXmit d.skb d.ts d.freed a ptcom clone = (.skb a, d.ts, d.freed ++ dropped) := by
  unfold edgxComTsXmit
  cases hptid : ptidOf ptcom with
  | none => exact ⟨[], .inl rfl, by simp⟩
  | some p =>
    cases hpts : d.ts p with
    | none => exact ⟨[], .inl rfl, by simp [hpts]⟩
    | some pts =>
      by_cases hhdr : edgxComGetPtpHdr (d.skb a) = none
      · exact ⟨[], .inl rfl, by simp [hpts, hhdr]⟩
      · by_cases hclone : clone = false
        · exact ⟨[], .inl rfl, by simp [hpts, hclone]⟩
        · have hfull : ¬ pts.txQueue.length < EDGX_COM_TS_KFIFO_LEN :=
            fun hroom => h ⟨by simpa using hclone, hhdr, p, pts, hptid, hpts, hroom⟩
          exact ⟨[.backup a], .inr rfl, by simp [hpts, hhdr, hclone, kfifoPut, hfull]⟩

/-- A way through a transmission: what is returned, and what is in the places then. -/
inductive XmitCase (d : HdrDma Dev α) (a : α) (ptcom : BitVec 16) (env : XmitEnv) :
    NetdevTx → (Place → Option (Sent α)) → Prop where
  | unpadded (h : Unpadded d a env) : XmitCase d a ptcom env .busy (places d.slots d.ts (d.freed ++ [.skb a]))
  | refused (hpad : ¬ Unpadded d a env) (h : ¬ (d.queueOf nd a).Room) : XmitCase d a ptcom env .busy d.at
  | unmapped {x : Sent α × EdgxComTs α × List (Sent α)} (hpad : ¬ Unpadded d a env) (hroom : (d.queueOf nd a).Room)
      (hmap : env.physAddr = none) (hx : edgxComTsXmit d.skb d.ts d.freed a ptcom env.clone = x) :
      XmitCase d a ptcom env .busy (places d.slots x.2.1 x.2.2)
  | sent {x : Sent α × EdgxComTs α × List (Sent α)} (j i : Nat) (hpad : ¬ Unpadded d a env)
      (hroom : (d.queueOf nd a).Room) (hmap : env.physAddr ≠ none)
      (hx : edgxComTsXmit d.skb d.ts d.freed a ptcom env.clone = x) :
      XmitCase d a ptcom env .ok
        (places (Function.update d.slots j (Function.update (d.slots j) i (some x.1))) x.2.1 x.2.2)

theorem dmaEnq_cases {skb : α → Skb Dev} {q : HdrQueue Dev α} {ts : EdgxComTs α} {freed : List (Sent α)}
    {x : Sent α × EdgxComTs α × List (Sent α)} (hx : edgxComTsXmit skb ts freed a ptcom clone = x) (flags : BitVec 16)
    (physAddr : Option (BitVec 32)) :
    let r := edgxDmaEnq skb q a ptcom flags ts freed clone physAddr
    ¬ q.Room ∧ r = (-ENOMEM, q, ts, freed) ∨
      q.Room ∧ physAddr = none ∧ r = (-ENOMEM, q, x.2.1, x.2.2) ∨
      q.Room ∧ physAddr ≠ none ∧ r.1 ≠ -ENOMEM ∧ r.2.1.skb = Function.update q.skb q.enqPos (some x.1) ∧
        r.2.2 = x.2 := by
  intro r
  have hr : r = edgxDmaEnq skb q a ptcom flags ts freed clone physAddr := rfl
  unfold edgxDmaEnq at hr
  simp only [hx] at hr
  by_cases hcnt : q.cnt < EDGX_DMA_DESC_CNT - 1
  · rw [if_pos hcnt] at hr
    by_cases hinit : (q.desc q.enqPos).getInit = true
    · rw [if_pos hinit] at hr
      exact .inl ⟨fun hroom => by simp [hroom.2] at hinit, hr⟩
    · rw [if_neg hinit] at hr
      have hroom : q.Room := ⟨hcnt, by simpa using hinit⟩
      cases physAddr with
      | none => exact .inr (.inl ⟨hroom, rfl, hr⟩)
      | some physAddr =>
        refine .inr (.inr ⟨hroom, nofun, ?_, by rw [hr], by rw [hr]⟩)
        rw [hr]
        dsimp only
        split <;> decide
  · rw [if_neg hcnt] at hr
    exact .inl ⟨fun hroom => hcnt hroom.1, hr⟩

theorem at_eq {d' : HdrDma Dev α} {slots : Nat → Nat → Option (Sent α)} {ts : EdgxComTs α} {freed : List (Sent α)}
    (hslots : ∀ j, (d'.txQueue j).skb = slots j) (hts : d'.ts = ts) (hfreed : d'.freed = freed) :
    d'.at = places slots ts freed := by
  rw [HdrDma.at, hts, hfreed, show d'.slots = slots from funext hslots]

section Dec

variable [DecidableEq Dev] [DecidableEq α]

omit [DecidableEq Dev] in
/-- Padding only sets the length. -/
theorem padded_keeps (d : HdrDma Dev α) (a : α) :
    let d' := if (d.skb a).len < ETH_ZLEN then d.setSkb a { d.skb a with len := ETH_ZLEN } else d
    d'.txQueue = d.txQueue ∧ d'.ts = d.ts ∧ d'.freed = d.freed ∧
      edgxComGetPtpHdr (d'.skb a) = edgxComGetPtpHdr (d.skb a) := by
  dsimp only
  split
  · exact ⟨rfl, rfl, rfl, by simp [HdrDma.setSkb, edgxComGetPtpHdr]⟩
  · exact ⟨rfl, rfl, rfl, rfl⟩

/-- A frame is put into the queue, or not. -/
theorem dmaEnqTx_case {d' : HdrDma Dev α} {qIdx : Nat} {portMask flags : BitVec 16} {env : XmitEnv}
    (hslots : d'.txQueue = d.txQueue) (hts : d'.ts = d.ts) (hfreed : d'.freed = d.freed)
    (hlen : (d'.skb a).len = (d.skb a).len) (hhdr : edgxComGetPtpHdr (d'.skb a) = edgxComGetPtpHdr (d.skb a))
    (hq : d.txQueue qIdx = d.queueOf nd a) :
    let r := edgxDmaEnqTx nd d' qIdx a portMask flags env
    XmitCase nd d a portMask env (if r.1 = -ENOMEM then .busy else .ok) r.2.at := by
  intro r
  have hr : r = edgxDmaEnqTx nd d' qIdx a portMask flags env := rfl
  unfold edgxDmaEnqTx at hr
  by_cases hpad : (d'.skb a).len < ETH_ZLEN ∧ env.pad = false
  · rw [if_pos hpad] at hr
    have hat : r.2.at = places d.slots d.ts (d.freed ++ [.skb a]) := by
      rw [hr]
      exact at_eq (fun j => by rw [hslots]; rfl) hts (by rw [hfreed])
    rw [hat, hr]
    exact .unpadded ⟨hlen ▸ hpad.1, hpad.2⟩
  · rw [if_neg hpad] at hr
    have hpad' : ¬ Unpadded d a env := fun h => hpad ⟨hlen ▸ h.1, h.2⟩
    have hkept := padded_keeps d' a
    generalize (if (d'.skb a).len < ETH_ZLEN then d'.setSkb a { d'.skb a with len := ETH_ZLEN } else d') = d'' at hr hkept
    dsimp only at hkept
    rw [hslots, hts, hfreed, hhdr] at hkept
    obtain ⟨hslots, hts, hfreed, hhdr⟩ := hkept
    have hx : edgxComTsXmit d''.skb d''.ts d''.freed a portMask env.clone =
        edgxComTsXmit d.skb d.ts d.freed a portMask env.clone := by rw [hts, hfreed, tsXmit_congr hhdr]
    dsimp only at hr
    have hcases := dmaEnq_cases (q := d''.txQueue qIdx) hx flags env.physAddr
    generalize edgxDmaEnq d''.skb (d''.txQueue qIdx) a portMask flags d''.ts d''.freed env.clone env.physAddr = e
      at hr hcases
    have hret : r.1 = e.1 := by
      rw [hr]
      split <;> rfl
    have hat : r.2.at = places (Function.update d.slots qIdx e.2.1.skb) e.2.2.1 e.2.2.2 := by
      rw [hr]
      split
      · refine at_eq (fun j => ?_) rfl rfl
        by_cases hj : j = qIdx <;> simp [hj, HdrDma.setStopped, hslots, HdrDma.slots]
      · refine at_eq (fun j => ?_) rfl rfl
        by_cases hj : j = qIdx <;> simp [hj, hslots, HdrDma.slots]
    rw [hslots, hq] at hcases
    have hsame : Function.update d.slots qIdx (d.queueOf nd a).skb = d.slots := by
      rw [← hq]
      exact Function.update_eq_self qIdx d.slots
    rw [hret, hat]
    dsimp only at hcases
    rcases hcases with ⟨hroom, he⟩ | ⟨hroom, hmap, he⟩ | ⟨hroom, hmap, hne, hskb, he⟩
    · rw [he, if_pos rfl, hsame, hts, hfreed]
      exact .refused hpad' hroom
    · rw [he, if_pos rfl, hsame]
      exact .unmapped hpad' hroom hmap rfl
    · rw [if_neg hne, he, hskb]
      have hslot : (d.queueOf nd a).skb = d.slots qIdx := by rw [← hq, HdrDma.slots]
      rw [hslot]
      exact .sent qIdx _ hpad' hroom hmap rfl

theorem xmit_case (d : HdrDma Dev α) (a : α) (ptcom flags : BitVec 16) (env : XmitEnv) :
    let r := edgxComDmaXmit nd d a ptcom flags env
    XmitCase nd d a ptcom env r.1 r.2.at := by
  intro r
  have hr : r = edgxComDmaXmit nd d a ptcom flags env := rfl
  unfold edgxComDmaXmit at hr
  rw [hr]
  by_cases hdev : nd.edgxDev2ptid (d.skb a).dev = none
  · rw [if_pos hdev]
    exact dmaEnqTx_case nd rfl rfl rfl rfl rfl (by rw [HdrDma.queueOf, if_pos hdev])
  · rw [if_neg hdev]
    refine dmaEnqTx_case nd rfl rfl rfl ?_ ?_ ?_
    · simp [HdrDma.setSkb]
    · simp [HdrDma.setSkb, edgxComGetPtpHdr]
    · simp [HdrDma.setSkb, HdrDma.queueOf, hdev]

end Dec

/-! ## The owners afterwards -/

section Fresh

variable {x : Sent α} {slots : Nat → Nat → Option (Sent α)}

/-- The places of a header after the fifo of a port took its frame. -/
theorem Fresh.places_taken (h : Fresh d a) (hx : x.frame = a) {p : Fin EDGX_BR_MAX_PORTS} {pts : EdgxComPts α}
    (hpts : d.ts p = some pts) (pl : Place) :
    places slots (Function.update d.ts p (some { pts with txQueue := pts.txQueue ++ [a] })) d.freed pl = some x ↔
      (∃ j i, pl = .slot j i ∧ slots j i = some x) ∨ pl = .fifo p pts.txQueue.length ∧ x = .skb a := by
  have hnot (pl : Place) : places d.slots d.ts d.freed pl ≠ some x := fun hat => h pl x hat hx
  cases pl with
  | slot j i => simp [places]
  | freed k =>
    have hk := hnot (.freed k)
    simpa [places] using hk
  | fifo p' k =>
    have hk := hnot (.fifo p' k)
    by_cases hp : p' = p
    · subst hp
      rcases Nat.lt_trichotomy k pts.txQueue.length with hlt | rfl | hgt
      · simp [places, hpts, List.getElem?_eq_getElem hlt] at hk
        simp [places, List.getElem?_append_left hlt, List.getElem?_eq_getElem hlt, hk]
        omega
      · simp [places, eq_comm]
      · have hnone : (pts.txQueue ++ [a])[k]? = none := List.getElem?_eq_none (by simp; omega)
        simp [places, hnone]
        omega
    · simp [places] at hk
      simpa [places, hp] using hk

/-- The places of a header after others were freed. -/
theorem Fresh.places_freed (h : Fresh d a) (hx : x.frame = a) (dropped : List (Sent α)) (pl : Place) :
    places slots d.ts (d.freed ++ dropped) pl = some x ↔
      (∃ j i, pl = .slot j i ∧ slots j i = some x) ∨ ∃ k, pl = .freed (d.freed.length + k) ∧ dropped[k]? = some x := by
  have hnot (pl : Place) : places d.slots d.ts d.freed pl ≠ some x := fun hat => h pl x hat hx
  cases pl with
  | slot j i => simp [places]
  | fifo p k =>
    have hk := hnot (.fifo p k)
    simpa [places] using hk
  | freed k =>
    have hk := hnot (.freed k)
    by_cases hlt : k < d.freed.length
    · simp only [places, List.getElem?_append_left hlt]
      refine iff_of_false hk ?_
      simp
      omega
    · obtain ⟨k, rfl⟩ := Nat.exists_eq_add_of_le (Nat.le_of_not_lt hlt)
      simp [places, List.getElem?_append_right (Nat.le_add_right d.freed.length k)]

theorem Fresh.slots_update (h : Fresh d a) (hx : x.frame = a) (j i : Nat) (y : Sent α) (j' i' : Nat) :
    Function.update d.slots j (Function.update (d.slots j) i (some y)) j' i' = some x ↔ j' = j ∧ i' = i ∧ y = x := by
  have hk (j i : Nat) : d.slots j i ≠ some x := fun hat => h (.slot j i) x hat hx
  by_cases hj : j' = j
  · subst hj
    by_cases hi : i' = i <;> simp [hi, hk]
  · simp [hj, hk]

end Fresh

section Owners

variable {env : XmitEnv} {dropped : List (Sent α)} {p : Fin EDGX_BR_MAX_PORTS} {pts : EdgxComPts α}

/-- A fifo has the frame, and the ring its clone. -/
theorem Fresh.oneOwner_taken (h : Fresh d a) (hpts : d.ts p = some pts) (j i : Nat) :
    OneOwner .ok (places (Function.update d.slots j (Function.update (d.slots j) i (some (.backup a))))
      (Function.update d.ts p (some { pts with txQueue := pts.txQueue ++ [a] })) d.freed) a := by
  refine ⟨nofun, fun _ => ⟨⟨.fifo p pts.txQueue.length, ?_, fun pl hpl => ?_⟩, fun pl pl' hpl hpl' => ?_, (j, i), ?_, ?_⟩⟩
  · exact (h.places_taken rfl hpts _).2 (.inr ⟨rfl, rfl⟩)
  · rcases (h.places_taken rfl hpts _).1 hpl with ⟨j', i', _, hslot⟩ | ⟨hpl, _⟩
    · exact nomatch ((h.slots_update rfl j i _ j' i').1 hslot).2.2
    · exact hpl
  · have hone (pl : Place) (hpl : places (Function.update d.slots j (Function.update (d.slots j) i (some (.backup a))))
        (Function.update d.ts p (some { pts with txQueue := pts.txQueue ++ [a] })) d.freed pl = some (.backup a)) :
        pl = .slot j i := by
      rcases (h.places_taken rfl hpts _).1 hpl with ⟨j', i', rfl, hslot⟩ | ⟨_, hne⟩
      · obtain ⟨rfl, rfl, _⟩ := (h.slots_update rfl j i _ j' i').1 hslot
        rfl
      · exact nomatch hne
    rw [hone pl hpl, hone pl' hpl']
  · exact ⟨.backup a, rfl, by simp [places]⟩
  · rintro ⟨j', i'⟩ ⟨x, hx, hat⟩
    obtain ⟨rfl, rfl, _⟩ := (h.slots_update hx j i _ j' i').1 hat
    rfl

/-- The ring has the frame. If there is a clone it was freed. -/
theorem Fresh.oneOwner_sent (h : Fresh d a) (hdropped : dropped = [] ∨ dropped = [.backup a]) (j i : Nat) :
    OneOwner .ok (places (Function.update d.slots j (Function.update (d.slots j) i (some (.skb a)))) d.ts
      (d.freed ++ dropped)) a := by
  have hbackup (k : Nat) (x : Sent α) (hk : dropped[k]? = some x) : k = 0 ∧ x = .backup a := by
    rcases hdropped with rfl | rfl
    · simp at hk
    · cases k <;> simp_all
  refine ⟨nofun, fun _ => ⟨⟨.slot j i, by simp [places], fun pl hpl => ?_⟩, fun pl pl' hpl hpl' => ?_, (j, i), ?_, ?_⟩⟩
  · rcases (h.places_freed rfl _ _).1 hpl with ⟨j', i', rfl, hslot⟩ | ⟨k, _, hk⟩
    · obtain ⟨rfl, rfl, _⟩ := (h.slots_update rfl j i _ j' i').1 hslot
      rfl
    · exact nomatch (hbackup k _ hk).2
  · have hone (pl : Place) (hpl : places (Function.update d.slots j (Function.update (d.slots j) i (some (.skb a)))) d.ts
        (d.freed ++ dropped) pl = some (.backup a)) : pl = .freed d.freed.length := by
      rcases (h.places_freed rfl _ _).1 hpl with ⟨j', i', _, hslot⟩ | ⟨k, rfl, hk⟩
      · exact nomatch ((h.slots_update rfl j i _ j' i').1 hslot).2.2
      · rw [(hbackup k _ hk).1, Nat.add_zero]
    rw [hone pl hpl, hone pl' hpl']
  · exact ⟨.skb a, rfl, by simp [places]⟩
  · rintro ⟨j', i'⟩ ⟨x, hx, hat⟩
    obtain ⟨rfl, rfl, _⟩ := (h.slots_update hx j i _ j' i').1 hat
    rfl

/-- The driver has nothing of the frame but a clone that it freed. -/
theorem Fresh.oneOwner_kept (h : Fresh d a) (hdropped : dropped = [] ∨ dropped = [.backup a]) :
    OneOwner .busy (places d.slots d.ts (d.freed ++ dropped)) a := by
  have hslots (x : Sent α) (hx : x.frame = a) (j i : Nat) : d.slots j i ≠ some x := fun hat => h (.slot j i) x hat hx
  refine ⟨fun _ => ⟨fun pl hpl => ?_, hslots _ rfl⟩, nofun⟩
  rcases (h.places_freed rfl _ _).1 hpl with ⟨j, i, _, hslot⟩ | ⟨k, _, hk⟩
  · exact hslots _ rfl j i hslot
  · rcases hdropped with rfl | rfl
    · simp at hk
    · cases k <;> simp at hk

end Owners

end Cases

/-- **A frame has one owner after a transmission** just when it is not freed for
want of padding, and not mapped in vain after the fifo of its port took it. -/
theorem oneOwner_iff [DecidableEq Dev] [DecidableEq α] {d : HdrDma Dev α} {a : α} (h : Fresh d a)
    (ptcom flags : BitVec 16) (env : XmitEnv) :
    OneOwner (edgxComDmaXmit nd d a ptcom flags env).1 (edgxComDmaXmit nd d a ptcom flags env).2.at a ↔
      KeepsOwner nd d a ptcom env := by
  have hcase := xmit_case nd d a ptcom flags env
  dsimp only at hcase
  generalize (edgxComDmaXmit nd d a ptcom flags env).1 = ret at hcase ⊢
  generalize (edgxComDmaXmit nd d a ptcom flags env).2.at = place at hcase ⊢
  cases hcase with
  | unpadded hpad =>
    refine iff_of_false (fun ho => ?_) fun hk => hk.1 hpad
    exact (ho.busy rfl).1 (.freed d.freed.length) ((h.places_freed rfl _ _).2 (.inr ⟨0, rfl, rfl⟩))
  | refused hpad hroom =>
    have hkept := h.oneOwner_kept (.inl rfl)
    rw [List.append_nil] at hkept
    exact iff_of_true hkept ⟨hpad, fun hk => hroom hk.1⟩
  | unmapped hpad hroom hmap hx =>
    by_cases htakes : TsTakes d a ptcom env.clone
    · obtain ⟨p, pts, hpts, heq⟩ := tsXmit_taken htakes
      rw [← hx, heq]
      refine iff_of_false (fun ho => ?_) fun hk => hk.2 ⟨hroom, htakes, hmap⟩
      exact (ho.busy rfl).1 (.fifo p pts.txQueue.length) ((h.places_taken rfl hpts _).2 (.inr ⟨rfl, rfl⟩))
    · obtain ⟨dropped, hdropped, heq⟩ := tsXmit_not_taken htakes
      rw [← hx, heq]
      exact iff_of_true (h.oneOwner_kept hdropped) ⟨hpad, fun hk => htakes hk.2.1⟩
  | sent j i hpad hroom hmap hx =>
    refine iff_of_true ?_ ⟨hpad, fun hk => hmap hk.2.2⟩
    by_cases htakes : TsTakes d a ptcom env.clone
    · obtain ⟨p, pts, hpts, heq⟩ := tsXmit_taken htakes
      rw [← hx, heq]
      exact h.oneOwner_taken hpts j i
    · obtain ⟨dropped, hdropped, heq⟩ := tsXmit_not_taken htakes
      rw [← hx, heq]
      exact h.oneOwner_sent hdropped j i

section Inputs

/-- A bridge port with timestamps, and a frame of it. -/
def exampleDevs : NetDevs Unit where
  edgxDev2ptid := fun _ => some ⟨0, maxPorts_pos⟩
  realNumTxQueues := fun _ => 1

def exampleDma (len : Nat) : HdrDma Unit Unit where
  skb := fun _ => { dev := (), len, queueMapping := 0, hProto := ETH_P_1588, payload := [] }
  realNumTxQueues := 1
  qIdxBrpt := 0
  ts := fun _ => some {}

theorem fresh_exampleDma (len : Nat) : Fresh (exampleDma len) () := by
  intro pl x hx
  cases pl <;> simp [HdrDma.at, HdrDma.slots, places, exampleDma] at hx

/-- A long frame that is mapped. -/
theorem oneOwner_iff_mapped :
    OneOwner (edgxComDmaXmit exampleDevs (exampleDma 64) () 1 0 {}).1
      (edgxComDmaXmit exampleDevs (exampleDma 64) () 1 0 {}).2.at () :=
  (oneOwner_iff exampleDevs (fresh_exampleDma 64) 1 0 {}).2
    ⟨fun h => absurd h.2 (by decide), fun h => absurd h.2.2 (by decide)⟩

/-- A short frame that cannot be padded is freed, and one that cannot be mapped is in
the fifo of its port. Both times the caller is to send it again. -/
theorem not_oneOwner :
    let xmit (len : Nat) (env : XmitEnv) := edgxComDmaXmit exampleDevs (exampleDma len) () 1 0 env
    (xmit 40 { pad := false }).1 = .busy ∧ (xmit 40 { pad := false }).2.freed = [.skb ()] ∧
      ¬ OneOwner (xmit 40 { pad := false }).1 (xmit 40 { pad := false }).2.at () ∧
    (xmit 64 { physAddr := none }).1 = .busy ∧
      (xmit 64 { physAddr := none }).2.at (.fifo ⟨0, maxPorts_pos⟩ 0) = some (.skb ()) ∧
      ¬ OneOwner (xmit 64 { physAddr := none }).1 (xmit 64 { physAddr := none }).2.at () := by
  refine ⟨rfl, rfl, fun h => ?_, rfl, rfl, fun h => ?_⟩
  · exact (h.busy rfl).1 (.freed 0) rfl
  · exact (h.busy rfl).1 (.fifo ⟨0, maxPorts_pos⟩ 0) rfl

end Inputs

/-! ## The driver without headers -/

/-- The frames of the headers, as Dma.lean has them. -/
def tsFrames (skb : α → Skb Dev) (ts : EdgxComTs α) : EdgxComTs (Skb Dev) := fun p =>
  (ts p).map fun pts => ⟨pts.txQueue.map skb⟩

def HdrQueue.frames (q : HdrQueue Dev α) (skb : α → Skb Dev) : EdgxDmaQueue Dev where
  toDevice := true
  desc := q.desc
  enqPos := q.enqPos
  deqPos := q.deqPos
  cnt := q.cnt
  skb := fun i => (q.skb i).map fun h => skb h.frame
  pendingDevs := q.pendingDevs
  descP := q.descP

def HdrDma.frames (d : HdrDma Dev α) : EdgxComDma Dev where
  txQueue := fun j => (d.txQueue j).frames d.skb
  realNumTxQueues := d.realNumTxQueues
  qIdxBrpt := d.qIdxBrpt
  ts := tsFrames d.skb d.ts
  stopped := d.stopped

section Frames

variable {d : HdrDma Dev α} {a : α}

theorem tsXmit_frames (skb : α → Skb Dev) (ts : EdgxComTs α) (freed : List (Sent α)) (a : α) (ptcom : BitVec 16)
    (clone : Bool) : (Com.edgxComTsXmit id (tsFrames skb ts) (skb a) ptcom clone).2 =
      tsFrames skb (edgxComTsXmit skb ts freed a ptcom clone).2.1 := by
  unfold Com.edgxComTsXmit edgxComTsXmit
  cases ptidOf ptcom with
  | none => rfl
  | some p =>
    have hp : tsFrames skb ts p = (ts p).map fun pts => ⟨pts.txQueue.map skb⟩ := rfl
    cases hpts : ts p with
    | none => simp [hp, hpts]
    | some pts =>
      simp only [hp, hpts, Option.map_some, id, kfifoPut, List.length_map]
      split
      · rfl
      · split
        · rfl
        · split
          · rename_i hroom
            simp only [Bool.true_eq_false, if_false]
            funext p'
            by_cases hp' : p' = p
            · subst hp'
              simp [tsFrames]
            · simp [tsFrames, hp']
          · rfl

theorem tsXmit_frame (skb : α → Skb Dev) (ts : EdgxComTs α) (freed : List (Sent α)) (a : α) (ptcom : BitVec 16)
    (clone : Bool) : (edgxComTsXmit skb ts freed a ptcom clone).1.frame = a := by
  unfold edgxComTsXmit kfifoPut
  split
  · rfl
  · split
    · rfl
    · split
      · rfl
      · split
        · rfl
        · dsimp only
          split
          · rfl
          · rfl

theorem dmaEnq_frames (skb : α → Skb Dev) (q : HdrQueue Dev α) (a : α) (portMask flags : BitVec 16) (ts : EdgxComTs α)
    (freed : List (Sent α)) (clone : Bool) (physAddr : Option (BitVec 32)) :
    let r := edgxDmaEnq skb q a portMask flags ts freed clone physAddr
    Com.edgxDmaEnq (q.frames skb) (skb a) portMask flags (some (tsFrames skb ts)) clone physAddr =
      (r.1, r.2.1.frames skb, some (tsFrames skb r.2.2.1)) := by
  intro r
  have hts := tsXmit_frames skb ts freed a portMask clone
  have hsent := xmit_frame id (tsFrames skb ts) (skb a) portMask clone
  have hframe := tsXmit_frame skb ts freed a portMask clone
  have hr : r = edgxDmaEnq skb q a portMask flags ts freed clone physAddr := rfl
  unfold edgxDmaEnq at hr
  unfold Com.edgxDmaEnq
  generalize edgxComTsXmit skb ts freed a portMask clone = x at hr hts hframe
  simp only [HdrQueue.frames, hsent, hts, if_true]
  by_cases hcnt : q.cnt < EDGX_DMA_DESC_CNT - 1
  · rw [if_pos hcnt] at hr ⊢
    by_cases hinit : (q.desc q.enqPos).getInit = true
    · rw [if_pos hinit] at hr ⊢
      rw [hr]
    · rw [if_neg hinit] at hr ⊢
      cases physAddr with
      | none => rw [hr]
      | some physAddr =>
        have hskb : Function.update (fun i => (q.skb i).map fun h => skb h.frame) q.enqPos (some (skb a)) =
            fun i => (Function.update q.skb q.enqPos (some x.1) i).map fun h => skb h.frame := by
          funext i
          by_cases hi : i = q.enqPos
          · subst hi
            simp [hframe]
          · simp [hi]
        rw [hr]
        dsimp only
        rw [hskb]
        rfl
  · rw [if_neg hcnt] at hr ⊢
    rw [hr]

theorem txQueue_frames (d : HdrDma Dev α) (qIdx : Nat) (q : HdrQueue Dev α) :
    (fun j => (Function.update d.txQueue qIdx q j).frames d.skb) =
      Function.update (fun j => (d.txQueue j).frames d.skb) qIdx (q.frames d.skb) :=
  funext fun j => Function.apply_update (fun _ q => q.frames d.skb) d.txQueue qIdx q j

section Dec

variable [DecidableEq α]

theorem Fresh.setSkb (h : Fresh d a) (skb : Skb Dev) : Fresh (d.setSkb a skb) a := h

/-- What a frame is that the driver has no header of does not matter to it. -/
theorem Fresh.frames_setSkb (h : Fresh d a) (skb : Skb Dev) : (d.setSkb a skb).frames = d.frames := by
  have hslot (j i : Nat) : ((d.txQueue j).skb i).map (fun x => (d.setSkb a skb).skb x.frame) =
      ((d.txQueue j).skb i).map fun x => d.skb x.frame := by
    cases hx : (d.txQueue j).skb i with
    | none => rfl
    | some x => simp [HdrDma.setSkb, h (.slot j i) x hx]
  have hts (p : Fin EDGX_BR_MAX_PORTS) : tsFrames (d.setSkb a skb).skb d.ts p = tsFrames d.skb d.ts p := by
    cases hpts : d.ts p with
    | none => simp [tsFrames, hpts]
    | some pts =>
      have hmem (b : α) (hb : b ∈ pts.txQueue) : b ≠ a := by
        obtain ⟨k, hk, rfl⟩ := List.getElem_of_mem hb
        refine h (.fifo p k) (.skb pts.txQueue[k]) ?_
        simp [HdrDma.at, places, hpts, List.getElem?_eq_getElem hk]
      simp only [tsFrames, hpts, Option.map_some]
      congr 2
      refine List.map_congr_left fun b hb => ?_
      simp [HdrDma.setSkb, hmem b hb]
  unfold HdrDma.frames
  congr 1
  · funext j
    unfold HdrQueue.frames
    congr 1
    exact funext (hslot j)
  · exact funext hts

variable [DecidableEq Dev]

theorem dmaEnqTx_frames (h : Fresh d a) (qIdx : Nat) (portMask flags : BitVec 16) (env : XmitEnv) :
    let r := edgxDmaEnqTx nd d qIdx a portMask flags env
    Com.edgxDmaEnqTx nd d.frames qIdx (d.skb a) portMask flags env = (r.1, r.2.frames) := by
  intro r
  have hr : r = edgxDmaEnqTx nd d qIdx a portMask flags env := rfl
  unfold edgxDmaEnqTx at hr
  unfold Com.edgxDmaEnqTx
  by_cases hpad : (d.skb a).len < ETH_ZLEN ∧ env.pad = false
  · rw [if_pos hpad] at hr ⊢
    rw [hr]
    rfl
  · rw [if_neg hpad] at hr ⊢
    generalize hd : (if (d.skb a).len < ETH_ZLEN then d.setSkb a { d.skb a with len := ETH_ZLEN } else d) = d' at hr
    have hsame : d'.frames = d.frames := by
      subst hd
      split
      · exact h.frames_setSkb _
      · rfl
    have hskb : (if (d.skb a).len < ETH_ZLEN then { d.skb a with len := ETH_ZLEN } else d.skb a) = d'.skb a := by
      subst hd
      split <;> simp [HdrDma.setSkb]
    rw [hskb, ← hsame]
    have henq := dmaEnq_frames d'.skb (d'.txQueue qIdx) a portMask flags d'.ts d'.freed env.clone env.physAddr
    dsimp only at hr henq
    generalize edgxDmaEnq d'.skb (d'.txQueue qIdx) a portMask flags d'.ts d'.freed env.clone env.physAddr = e at hr henq
    rw [show d'.frames.txQueue qIdx = (d'.txQueue qIdx).frames d'.skb from rfl,
      show d'.frames.ts = tsFrames d'.skb d'.ts from rfl]
    dsimp only
    rw [henq]
    dsimp only
    by_cases hret : e.1 ≠ 0
    · rw [if_pos hret] at hr ⊢
      rw [hr]
      refine Prod.ext rfl ?_
      unfold HdrDma.frames HdrDma.setStopped EdgxComDma.setStopped
      dsimp only
      rw [txQueue_frames]
      rfl
    · rw [if_neg hret] at hr ⊢
      rw [hr]
      refine Prod.ext rfl ?_
      unfold HdrDma.frames
      dsimp only
      rw [txQueue_frames]
      rfl

/-- **The driver sends a frame as Dma.lean has it**, if it has no header of it. -/
theorem xmit_frames (h : Fresh d a) (ptcom flags : BitVec 16) (env : XmitEnv) :
    let r := edgxComDmaXmit nd d a ptcom flags env
    Com.edgxComDmaXmit nd d.frames (d.skb a) ptcom flags env = (r.1, r.2.frames) := by
  intro r
  have hr : r = edgxComDmaXmit nd d a ptcom flags env := rfl
  unfold edgxComDmaXmit at hr
  unfold Com.edgxComDmaXmit
  by_cases hdev : nd.edgxDev2ptid (d.skb a).dev = none
  · rw [if_pos hdev] at hr ⊢
    rw [hr]
    dsimp only
    rw [dmaEnqTx_frames nd h]
  · rw [if_neg hdev] at hr ⊢
    have henq := dmaEnqTx_frames nd (h.setSkb { d.skb a with queueMapping := d.qIdxBrpt }) d.qIdxBrpt ptcom flags env
    have hskb : (d.setSkb a { d.skb a with queueMapping := d.qIdxBrpt }).skb a =
        { d.skb a with queueMapping := d.qIdxBrpt } := Function.update_self ..
    rw [h.frames_setSkb, hskb] at henq
    dsimp only at hr henq hskb
    rw [hskb] at hr
    rw [hr]
    dsimp only
    rw [show d.frames.qIdxBrpt = d.qIdxBrpt from rfl, henq]

end Dec

end Frames

end Xmit

end TsnSwitch.Com.Owner
