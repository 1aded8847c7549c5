/-
Transmit timestamps get to their frames (`stamped_of_ok`), in every run in
which each frame that is taken from a fifo is the timestamp's own or is in
front of it. A timestamp whose frame is not in the fifo, because there was no
room for it or it could not be cloned, empties the fifo; and a pending frame
with the same bytes gets the timestamp of a later one.

Frames are sent and timestamps read by different threads, so a frame that is
taken from a fifo is a step of its own; `findTx_run` says that the loop over
the timestamps takes such steps.
-/
import TsnSwitch.Lib.Run
import TsnSwitch.Com.TxTs

namespace TsnSwitch.Com

open Lib

/-- A timestamp that is being handled, with the time of its reading. The
driver does not know which frame it is of. -/
structure Stamp (α : Type*) where
  curSec : BitVec 64
  regs : TsRegs
  frame : α

def Stamp.time {α : Type*} (st : Stamp α) : Option (BitVec 64 × BitVec 32) := edgxComTsRead st.curSec st.regs

/-- The fifos, and the timestamp that is being handled for each port. -/
structure TsState (α : Type*) where
  ts : EdgxComTs α
  worker : Fin EDGX_BR_MAX_PORTS → Option (Stamp α) := fun _ => none

def TsState.queue {α : Type*} (s : TsState α) (p : Fin EDGX_BR_MAX_PORTS) : List α :=
  match s.ts p with
  | none => []
  | some pts => pts.txQueue

inductive TsOp (α : Type*) where
  | xmit (a : α) (ptcom : BitVec 16) (clone : Bool)
  | read (p : Fin EDGX_BR_MAX_PORTS) (st : Stamp α)
  | out (p : Fin EDGX_BR_MAX_PORTS)

inductive TsRet (α : Type*) where
  | sent (s : Sent α)
  | delivered (a : α) (time : BitVec 64 × BitVec 32)
  | done

section Steps

variable {Dev α : Type*} (skb : α → Skb Dev)

/-- A step: `edgx_com_ts_xmit`, the read of a timestamp in the outer loop of
`edgx_com_ts_find_tx`, or a frame that its inner loop takes from the fifo. -/
def tsStep (s : TsState α) : TsOp α → TsRet α × TsState α
  | .xmit a ptcom clone =>
    let (sent, ts) := edgxComTsXmit skb s.ts a ptcom clone
    (.sent sent, { s with ts })
  | .read p st =>
    if (s.worker p).isSome then (.done, s) else (.done, { s with worker := Function.update s.worker p (some st) })
  | .out p =>
    match s.ts p, s.worker p with
    | some pts, some st =>
      match kfifoGet pts.txQueue with
      | (none, _) => (.done, { s with worker := Function.update s.worker p none })
      | (some a, txQueue) =>
        let ts := Function.update s.ts p (some { pts with txQueue })
        if hdrMatch (skb a) st.regs then
          (match st.time with
            | some t => .delivered a t
            | none => .done, { ts, worker := Function.update s.worker p none })
        else (.done, { s with ts })
    | _, _ => (.done, s)

/-- The frames of a port that got a timestamp. -/
def deliveredTo (p : Fin EDGX_BR_MAX_PORTS) : List (TsOp α × TsRet α) → List (α × BitVec 64 × BitVec 32) :=
  List.filterMap fun
    | (.out q, .delivered a t) => if q = p then some (a, t) else none
    | _ => none

end Steps

/-! ## The steps of the loop -/

section Loop

variable {Dev α : Type*} {skb : α → Skb Dev}

theorem queue_eq {s : TsState α} {p : Fin EDGX_BR_MAX_PORTS} {pts : EdgxComPts α} (h : s.ts p = some pts) :
    s.queue p = pts.txQueue := by
  rw [TsState.queue, h]

/-- Frames are taken until one matches. -/
theorem findSkb_run {s : TsState α} {p : Fin EDGX_BR_MAX_PORTS} {q : List α} {st : Stamp α}
    (hs : s.ts p = some ⟨q⟩) (hw : s.worker p = some st) :
    ∃ n, let ops := List.replicate n (TsOp.out p)
      after (tsStep skb) s ops = { ts := Function.update s.ts p (some ⟨(findSkb skb st.regs q).2⟩)
                                   worker := Function.update s.worker p none } ∧
      deliveredTo p (outs (tsStep skb) s ops) =
        match (findSkb skb st.regs q).1, st.time with
        | some a, some t => [(a, t)]
        | _, _ => [] := by
  induction q generalizing s with
  | nil =>
    refine ⟨1, ?_, ?_⟩
    · simp only [List.replicate_one, after_cons, after_nil, tsStep, hs, hw, kfifoGet, findSkb]
      congr 1
      rw [← hs, Function.update_eq_self]
    · simp [outs, tsStep, hs, hw, kfifoGet, findSkb, deliveredTo]
  | cons a q ih =>
    by_cases hm : hdrMatch (skb a) st.regs = true
    · refine ⟨1, ?_, ?_⟩
      · simp only [List.replicate_one, after_cons, after_nil, tsStep, hs, hw, kfifoGet, findSkb, hm, if_true]
      · cases ht : st.time <;> simp [outs, tsStep, hs, hw, kfifoGet, findSkb, deliveredTo, hm, ht]
    · have hstep : tsStep skb s (.out p) = (.done, { s with ts := Function.update s.ts p (some ⟨q⟩) }) := by
        simp [tsStep, hs, hw, kfifoGet, hm]
      obtain ⟨n, hafter, hout⟩ := ih (s := { s with ts := Function.update s.ts p (some ⟨q⟩) })
        (Function.update_self ..) hw
      refine ⟨n + 1, ?_, ?_⟩
      · rw [List.replicate_succ, after_cons, hstep, hafter, findSkb, if_neg hm]
        dsimp only
        rw [Function.update_idem]
      · rw [List.replicate_succ, outs, hstep]
        rw [findSkb, if_neg hm]
        exact hout

/-- **The loop over the timestamps takes steps**, for whatever frames the
timestamps are of. -/
theorem findTx_run {p : Fin EDGX_BR_MAX_PORTS} (curSec : BitVec 64) (rs : List (TsRegs × α)) {s : TsState α} {q : List α}
    (hs : s.ts p = some ⟨q⟩) (hw : s.worker p = none) :
    ∃ ops, (∀ op ∈ ops, op = .out p ∨ ∃ r ∈ rs, op = .read p ⟨curSec, r.1, r.2⟩) ∧
      after (tsStep skb) s ops =
        { s with ts := Function.update s.ts p (some ⟨(edgxComTsFindTx skb curSec (rs.map Prod.fst) q).2⟩) } ∧
      deliveredTo p (outs (tsStep skb) s ops) = (edgxComTsFindTx skb curSec (rs.map Prod.fst) q).1 := by
  induction rs generalizing s q with
  | nil =>
    refine ⟨[], fun _ h => (nomatch h), ?_, rfl⟩
    rw [after_nil, List.map_nil, edgxComTsFindTx, ← hs, Function.update_eq_self]
  | cons r rs ih =>
    obtain ⟨r, a⟩ := r
    let st : Stamp α := ⟨curSec, r, a⟩
    let s₁ : TsState α := { s with worker := Function.update s.worker p (some st) }
    have hread : tsStep skb s (.read p st) = (.done, s₁) := by
      simp [tsStep, hw, s₁]
    obtain ⟨n, hafter, hout⟩ := findSkb_run (show s₁.ts p = some ⟨q⟩ from hs)
      (show s₁.worker p = some st from Function.update_self ..)
    have hidle : Function.update s₁.worker p none = s.worker := by
      simp only [s₁, Function.update_idem]
      rw [← hw, Function.update_eq_self]
    obtain ⟨ops, hops, hrest, houts⟩ := ih (s := { s with ts := Function.update s.ts p (some ⟨(findSkb skb r q).2⟩) })
      (Function.update_self ..) hw
    have hs₂ : after (tsStep skb) s₁ (List.replicate n (.out p)) =
        { s with ts := Function.update s.ts p (some ⟨(findSkb skb r q).2⟩) } := by
      rw [hafter, hidle]
    refine ⟨.read p st :: (List.replicate n (.out p) ++ ops), fun op hop => ?_, ?_, ?_⟩
    · rcases List.mem_cons.1 hop with rfl | hop
      · exact .inr ⟨(r, a), List.mem_cons_self, rfl⟩
      · rcases List.mem_append.1 hop with hop | hop
        · exact .inl (List.eq_of_mem_replicate hop)
        · exact (hops op hop).imp_right fun ⟨r', hr', he⟩ => ⟨r', List.mem_cons_of_mem _ hr', he⟩
    · rw [after_cons, hread, after_append, hs₂, hrest]
      simp only [List.map_cons, edgxComTsFindTx, Function.update_idem]
      split <;> rfl
    · rw [outs, hread, outs_append, hs₂]
      have hcons : deliveredTo p ((TsOp.read p st, TsRet.done) :: (outs (tsStep skb) s₁ (List.replicate n (.out p)) ++
          outs (tsStep skb) { s with ts := Function.update s.ts p (some ⟨(findSkb skb r q).2⟩) } ops)) =
          deliveredTo p (outs (tsStep skb) s₁ (List.replicate n (.out p))) ++
            deliveredTo p (outs (tsStep skb) { s with ts := Function.update s.ts p (some ⟨(findSkb skb r q).2⟩) } ops) := by
        simp [deliveredTo, List.filterMap_append]
      rw [hcons, hout, houts]
      simp only [List.map_cons, edgxComTsFindTx, st, Stamp.time]
      cases (findSkb skb r q).1 <;> cases edgxComTsRead curSec r <;> rfl

end Loop

/-! ## What the hardware does -/

section Belongs

variable {Dev : Type*} (skb : ℕ → Skb Dev)

/-- The frames that are sent. They are numbered. -/
def sentFrames : List (TsOp ℕ) → List ℕ :=
  List.filterMap fun
    | .xmit a _ _ => some a
    | _ => none

def sentTo (p : Fin EDGX_BR_MAX_PORTS) : List (TsOp ℕ) → List ℕ :=
  List.filterMap fun
    | .xmit a ptcom _ => if ptidOf ptcom = some p then some a else none
    | _ => none

/-- The frames whose timestamps are read. -/
def readFrames (p : Fin EDGX_BR_MAX_PORTS) : List (TsOp ℕ) → List ℕ :=
  List.filterMap fun
    | .read q st => if q = p then some st.frame else none
    | _ => none

/-- Frames are numbered in the order in which they are sent. A timestamp is of
a frame that was sent before, the timestamps of a port come in the order of
their frames, and a timestamp has the header bytes of its frame. -/
def HwOrder (past : List (TsOp ℕ)) : TsOp ℕ → Prop
  | .xmit a _ _ => ∀ b ∈ sentFrames past, b < a
  | .read p st => st.frame ∈ sentTo p past ∧ (∀ b ∈ readFrames p past, b < st.frame) ∧
      ∀ hdr ∈ edgxComGetPtpHdr (skb st.frame), ∀ i ∈ hdrPosition, st.regs.hdr i = hdr.getD i 0
  | .out _ => True

instance (past : List (TsOp ℕ)) (op : TsOp ℕ) : Decidable (HwOrder skb past op) := by
  cases op <;> simp only [HwOrder] <;> infer_instance

/-- A timestamp is read when the one before it is done with. -/
def Idle (s : TsState ℕ) : TsOp ℕ → Prop
  | .read p _ => (s.worker p).isNone
  | _ => True

instance (s : TsState ℕ) (op : TsOp ℕ) : Decidable (Idle s op) := by
  cases op <;> simp only [Idle] <;> infer_instance

/-- The frame that is taken is the timestamp's own, or is in front of it and
has other bytes. -/
def TsOk (s : TsState ℕ) : TsOp ℕ → Prop
  | .out p => ∀ st ∈ s.worker p,
      match s.queue p with
      | [] => True
      | a :: q => a = st.frame ∨ (st.frame ∈ q ∧ hdrMatch (skb a) st.regs = false)
  | _ => True

instance (s : TsState ℕ) (op : TsOp ℕ) : Decidable (TsOk skb s op) := by
  cases op with
  | out p =>
    simp only [TsOk]
    cases s.queue p <;> infer_instance
  | _ => exact .isTrue True.intro

/-- The frame was put into the fifo of the port. -/
def Accepted (p : Fin EDGX_BR_MAX_PORTS) (log : List (TsOp ℕ × TsRet ℕ)) (a : ℕ) : Prop :=
  ∃ ptcom clone, (TsOp.xmit a ptcom clone, TsRet.sent (.backup a)) ∈ log ∧ ptidOf ptcom = some p

/-- Timestamps get to their frames in the run. -/
structure Stamped (s : TsState ℕ) (ops : List (TsOp ℕ)) : Prop where
  /-- A timestamp is delivered to the frame it is of. -/
  own : ∀ pre p suf a t, ops = pre ++ .out p :: suf →
    (tsStep skb (after (tsStep skb) s pre) (.out p)).1 = .delivered a t →
    ∃ st, (after (tsStep skb) s pre).worker p = some st ∧ st.frame = a ∧ st.time = some t
  /-- No frame gets two. -/
  once : ∀ p, ((deliveredTo p (outs (tsStep skb) s ops)).map Prod.fst).Nodup
  /-- A timestamp of a frame that is not pending leaves the fifo as it is. -/
  spared : ∀ pre p suf st, ops = pre ++ .out p :: suf → (after (tsStep skb) s pre).worker p = some st →
    st.frame ∉ (after (tsStep skb) s pre).queue p →
    (after (tsStep skb) s (pre ++ [.out p])).queue p = (after (tsStep skb) s pre).queue p
  /-- A frame stays pending until its timestamp, or that of a later frame. -/
  pending : ∀ p a, Accepted p (outs (tsStep skb) s ops) a →
    a ∈ (after (tsStep skb) s ops).queue p ∨ ∃ b ∈ readFrames p ops, a ≤ b
  /-- A frame that was queued gets its timestamp, when that has been dealt with. -/
  theirs : ∀ p st t, Accepted p (outs (tsStep skb) s ops) st.frame → .read p st ∈ ops → st.time = some t →
    (after (tsStep skb) s ops).worker p = some st ∨ (st.frame, t) ∈ deliveredTo p (outs (tsStep skb) s ops)

end Belongs

/-! ## What a step does to a port -/

section Steps

variable {Dev α : Type*} (skb : α → Skb Dev)

theorem xmit_cases (ts : EdgxComTs α) (a : α) (ptcom : BitVec 16) (clone : Bool) :
    edgxComTsXmit skb ts a ptcom clone = (.skb a, ts) ∨
    ∃ p pts, ptidOf ptcom = some p ∧ ts p = some pts ∧ (edgxComGetPtpHdr (skb a)).isSome ∧
      edgxComTsXmit skb ts a ptcom clone =
        (.backup a, Function.update ts p (some ⟨pts.txQueue ++ [a]⟩)) := by
  unfold edgxComTsXmit
  cases hp : ptidOf ptcom with
  | none => exact .inl rfl
  | some p =>
    cases hpts : ts p with
    | none => exact .inl (by simp only [hpts])
    | some pts =>
      cases hh : edgxComGetPtpHdr (skb a) with
      | none => exact .inl (by simp only [hpts, if_true])
      | some hdr =>
        cases clone with
        | false => exact .inl (by simp only [hpts, reduceCtorEq, if_false, if_true])
        | true =>
          by_cases hroom : pts.txQueue.length < EDGX_COM_TS_KFIFO_LEN
          · exact .inr ⟨p, pts, rfl, hpts, rfl, by
              simp only [hpts, reduceCtorEq, if_false, kfifoPut, if_pos hroom]⟩
          · exact .inl (by simp only [hpts, reduceCtorEq, if_false, kfifoPut, if_neg hroom, if_true])

/-- A frame that is sent is put behind the others, if it is put into the fifo
at all. -/
theorem xmit_port (s : TsState α) (a : α) (ptcom : BitVec 16) (clone : Bool) (p : Fin EDGX_BR_MAX_PORTS) :
    (tsStep skb s (.xmit a ptcom clone)).2.worker = s.worker ∧
    ((¬ ((tsStep skb s (.xmit a ptcom clone)).1 = .sent (.backup a) ∧ ptidOf ptcom = some p) ∧
        (tsStep skb s (.xmit a ptcom clone)).2.queue p = s.queue p) ∨
      ((tsStep skb s (.xmit a ptcom clone)).1 = .sent (.backup a) ∧ ptidOf ptcom = some p ∧
        (edgxComGetPtpHdr (skb a)).isSome ∧
        (tsStep skb s (.xmit a ptcom clone)).2.queue p = s.queue p ++ [a])) := by
  refine ⟨rfl, ?_⟩
  rcases xmit_cases skb s.ts a ptcom clone with h | ⟨q, pts, hq, hpts, hhdr, h⟩
  · exact .inl (by simp [tsStep, h, TsState.queue])
  · by_cases hpq : q = p
    · subst hpq
      exact .inr (by simp [tsStep, h, TsState.queue, hq, hpts, hhdr])
    · refine .inl ⟨fun hc => hpq (Option.some.inj (hq.symm.trans hc.2)), ?_⟩
      simp only [tsStep, h, TsState.queue, Function.update_of_ne (Ne.symm hpq)]

theorem read_port (s : TsState α) (p : Fin EDGX_BR_MAX_PORTS) (st : Stamp α) (q : Fin EDGX_BR_MAX_PORTS) :
    (tsStep skb s (.read p st)).1 = .done ∧ (tsStep skb s (.read p st)).2.queue q = s.queue q ∧
      (q ≠ p → (tsStep skb s (.read p st)).2.worker q = s.worker q) := by
  unfold tsStep
  dsimp only
  split
  · exact ⟨rfl, rfl, fun _ => rfl⟩
  · exact ⟨rfl, rfl, fun h => Function.update_of_ne h ..⟩

theorem read_idle {s : TsState α} {p : Fin EDGX_BR_MAX_PORTS} (h : (s.worker p).isNone) (st : Stamp α) :
    (tsStep skb s (.read p st)).2.worker p = some st := by
  have hn : (s.worker p).isSome = false := by simpa using h
  simp [tsStep, hn]

/-- A frame that is taken from another port's fifo. -/
theorem out_other (s : TsState α) {p q : Fin EDGX_BR_MAX_PORTS} (h : q ≠ p) :
    (tsStep skb s (.out p)).2.queue q = s.queue q ∧ (tsStep skb s (.out p)).2.worker q = s.worker q := by
  unfold tsStep
  dsimp only
  split
  · split
    · exact ⟨rfl, Function.update_of_ne h ..⟩
    · split
      · exact ⟨by simp only [TsState.queue, Function.update_of_ne h], Function.update_of_ne h ..⟩
      · exact ⟨by simp only [TsState.queue, Function.update_of_ne h], rfl⟩
  · exact ⟨rfl, rfl⟩

/-- What is returned for a frame that matches. -/
def Stamp.deliver (st : Stamp α) (a : α) : TsRet α :=
  match st.time with
  | some t => .delivered a t
  | none => .done

/-- What taking a frame does to its port: nothing; the fifo is empty and the
timestamp is lost; the frame matches; or it does not and is freed. -/
theorem out_cases (s : TsState α) (p : Fin EDGX_BR_MAX_PORTS) :
    ((s.queue p = [] ∨ s.worker p = none) ∧ tsStep skb s (.out p) = (.done, s)) ∨
    ∃ st, s.worker p = some st ∧
      ((s.queue p = [] ∧ (tsStep skb s (.out p)).1 = .done ∧ (tsStep skb s (.out p)).2.queue p = [] ∧
          (tsStep skb s (.out p)).2.worker p = none) ∨
        ∃ a q, s.queue p = a :: q ∧ (tsStep skb s (.out p)).2.queue p = q ∧
          ((hdrMatch (skb a) st.regs = true ∧ (tsStep skb s (.out p)).1 = st.deliver a ∧
              (tsStep skb s (.out p)).2.worker p = none) ∨
            (hdrMatch (skb a) st.regs = false ∧ (tsStep skb s (.out p)).1 = .done ∧
              (tsStep skb s (.out p)).2.worker p = some st))) := by
  cases hts : s.ts p with
  | none => exact .inl ⟨.inl (by simp only [TsState.queue, hts]), by simp only [tsStep, hts]⟩
  | some pts =>
    cases hw : s.worker p with
    | none => exact .inl ⟨.inr rfl, by simp only [tsStep, hts, hw]⟩
    | some st =>
      refine .inr ⟨st, rfl, ?_⟩
      obtain ⟨txQueue⟩ := pts
      cases txQueue with
      | nil => exact .inl (by simp [TsState.queue, tsStep, hts, hw, kfifoGet])
      | cons a q =>
        refine .inr ⟨a, q, queue_eq hts, ?_⟩
        cases hm : hdrMatch (skb a) st.regs with
        | true => exact ⟨by simp [TsState.queue, tsStep, hts, hw, kfifoGet, hm], .inl ⟨rfl, by
            simp only [tsStep, hts, hw, kfifoGet, hm, if_true, Stamp.deliver], by
            simp [tsStep, hts, hw, kfifoGet, hm]⟩⟩
        | false => exact ⟨by simp [TsState.queue, tsStep, hts, hw, kfifoGet, hm], .inr ⟨rfl, by
            simp [tsStep, hts, hw, kfifoGet, hm], by simp [tsStep, hts, hw, kfifoGet, hm]⟩⟩

end Steps

/-! ## Runs -/

section Runs

variable {Dev : Type*} {skb : ℕ → Skb Dev}

theorem hdrMatch_of_carries {a : ℕ} {r : TsRegs} (hh : (edgxComGetPtpHdr (skb a)).isSome)
    (h : ∀ hdr ∈ edgxComGetPtpHdr (skb a), ∀ i ∈ hdrPosition, r.hdr i = hdr.getD i 0) : hdrMatch (skb a) r = true := by
  obtain ⟨hdr, hhdr⟩ := Option.isSome_iff_exists.1 hh
  rw [hdrMatch, hhdr]
  exact List.all_eq_true.2 fun i hi => beq_iff_eq.2 (h hdr hhdr i hi)

theorem accepted_concat {p : Fin EDGX_BR_MAX_PORTS} {log : List (TsOp ℕ × TsRet ℕ)} {op : TsOp ℕ} {r : TsRet ℕ} {a : ℕ} :
    Accepted p (log ++ [(op, r)]) a ↔ Accepted p log a ∨
      ∃ ptcom clone, op = .xmit a ptcom clone ∧ r = .sent (.backup a) ∧ ptidOf ptcom = some p := by
  constructor
  · rintro ⟨ptcom, clone, hmem, hp⟩
    rcases List.mem_append.1 hmem with hmem | hmem
    · exact .inl ⟨ptcom, clone, hmem, hp⟩
    · obtain ⟨rfl, rfl⟩ := Prod.mk.inj (List.mem_singleton.1 hmem)
      exact .inr ⟨ptcom, clone, rfl, rfl, hp⟩
  · rintro (⟨ptcom, clone, hmem, hp⟩ | ⟨ptcom, clone, rfl, rfl, hp⟩)
    · exact ⟨ptcom, clone, List.mem_append_left _ hmem, hp⟩
    · exact ⟨ptcom, clone, List.mem_append_right _ List.mem_cons_self, hp⟩

/-- A step that is not the call of `edgxComTsXmit` accepts nothing. -/
theorem accepted_of_concat {p : Fin EDGX_BR_MAX_PORTS} {log : List (TsOp ℕ × TsRet ℕ)} {op : TsOp ℕ} {r : TsRet ℕ} {a : ℕ}
    (hop : ∀ ptcom clone, op ≠ .xmit a ptcom clone) (h : Accepted p (log ++ [(op, r)]) a) : Accepted p log a :=
  (accepted_concat.1 h).resolve_right fun ⟨ptcom, clone, he, _⟩ => hop ptcom clone he

theorem deliveredTo_concat (p : Fin EDGX_BR_MAX_PORTS) (log : List (TsOp ℕ × TsRet ℕ)) (op : TsOp ℕ) (r : TsRet ℕ) :
    deliveredTo p (log ++ [(op, r)]) = deliveredTo p log ++ deliveredTo p [(op, r)] :=
  List.filterMap_append ..

theorem deliveredTo_concat_nil {p : Fin EDGX_BR_MAX_PORTS} {op : TsOp ℕ} {r : TsRet ℕ} (h : deliveredTo p [(op, r)] = [])
    (log : List (TsOp ℕ × TsRet ℕ)) : deliveredTo p (log ++ [(op, r)]) = deliveredTo p log := by
  rw [deliveredTo_concat, h, List.append_nil]

theorem sentFrames_concat (ops : List (TsOp ℕ)) (op : TsOp ℕ) :
    sentFrames (ops ++ [op]) = sentFrames ops ++ sentFrames [op] :=
  List.filterMap_append ..

theorem readFrames_concat (p : Fin EDGX_BR_MAX_PORTS) (ops : List (TsOp ℕ)) (op : TsOp ℕ) :
    readFrames p (ops ++ [op]) = readFrames p ops ++ readFrames p [op] :=
  List.filterMap_append ..

theorem read_of_concat {p : Fin EDGX_BR_MAX_PORTS} {ops : List (TsOp ℕ)} {op : TsOp ℕ} (hop : ∀ st, op ≠ .read p st)
    (st : Stamp ℕ) (h : .read p st ∈ ops ++ [op]) : .read p st ∈ ops :=
  (List.mem_append.1 h).resolve_right fun h => hop st (List.mem_singleton.1 h).symm

theorem mem_sentFrames {ops : List (TsOp ℕ)} {p : Fin EDGX_BR_MAX_PORTS} {a : ℕ} (h : a ∈ sentTo p ops) :
    a ∈ sentFrames ops := by
  obtain ⟨op, hmem, hop⟩ := List.mem_filterMap.1 h
  refine List.mem_filterMap.2 ⟨op, hmem, ?_⟩
  cases op with
  | xmit b ptcom clone =>
    dsimp only at hop ⊢
    split at hop
    · exact hop
    · cases hop
  | _ => cases hop

theorem mem_readFrames {ops : List (TsOp ℕ)} {p : Fin EDGX_BR_MAX_PORTS} {st : Stamp ℕ} (h : .read p st ∈ ops) :
    st.frame ∈ readFrames p ops :=
  List.mem_filterMap.2 ⟨_, h, if_pos rfl⟩

variable (skb) in
/-- The frames of a port, delivered and pending, are in order, and those that
are not pending are behind a timestamp. -/
structure StampInv (p : Fin EDGX_BR_MAX_PORTS) (s : TsState ℕ) (ops : List (TsOp ℕ)) (log : List (TsOp ℕ × TsRet ℕ)) : Prop where
  sorted : ((deliveredTo p log).map Prod.fst ++ s.queue p).Pairwise (· < ·)
  sent : ∀ a ∈ (deliveredTo p log).map Prod.fst ++ s.queue p, a ∈ sentFrames ops
  hdr : ∀ a ∈ s.queue p, (edgxComGetPtpHdr (skb a)).isSome
  pending : ∀ a, Accepted p log a → a ∈ s.queue p ∨ ∃ b ∈ readFrames p ops, a ≤ b
  read : ∀ st, .read p st ∈ ops → st.frame ∈ sentFrames ops ∧
    ∀ hdr ∈ edgxComGetPtpHdr (skb st.frame), ∀ i ∈ hdrPosition, st.regs.hdr i = hdr.getD i 0
  busy : ∀ st, s.worker p = some st → .read p st ∈ ops ∧ (Accepted p log st.frame → st.frame ∈ s.queue p)
  theirs : ∀ st t, Accepted p log st.frame → .read p st ∈ ops → st.time = some t →
    s.worker p = some st ∨ (st.frame, t) ∈ deliveredTo p log

namespace StampInv

variable {p : Fin EDGX_BR_MAX_PORTS} {s s' : TsState ℕ} {ops : List (TsOp ℕ)} {log : List (TsOp ℕ × TsRet ℕ)}

/-- A step that has nothing to do with the port. -/
theorem frame (hi : StampInv skb p s ops log) {op : TsOp ℕ} {r : TsRet ℕ} (hq : s'.queue p = s.queue p)
    (hw : s'.worker p = s.worker p) (hread : ∀ st, op ≠ .read p st) (hdel : deliveredTo p [(op, r)] = [])
    (hacc : ∀ a ptcom clone, op = .xmit a ptcom clone → ¬ (r = .sent (.backup a) ∧ ptidOf ptcom = some p)) :
    StampInv skb p s' (ops ++ [op]) (log ++ [(op, r)]) := by
  have hlog := deliveredTo_concat_nil hdel log
  have hold : ∀ a, Accepted p (log ++ [(op, r)]) a → Accepted p log a := fun a h =>
    (accepted_concat.1 h).resolve_right fun ⟨ptcom, clone, he, hr⟩ => hacc a ptcom clone he hr
  have hmem (st : Stamp ℕ) : .read p st ∈ ops ++ [op] → .read p st ∈ ops := read_of_concat hread st
  have hsent : ∀ a ∈ sentFrames ops, a ∈ sentFrames (ops ++ [op]) := fun a h => by
    rw [sentFrames_concat]
    exact List.mem_append_left _ h
  refine ⟨?_, ?_, ?_, fun a h => ?_, fun st h => ?_, fun st h => ?_, fun st t ha h ht => ?_⟩
  · rw [hlog, hq]
    exact hi.sorted
  · rw [hlog, hq]
    exact fun a h => hsent a (hi.sent a h)
  · rw [hq]
    exact hi.hdr
  · rw [hq]
    refine (hi.pending a (hold a h)).imp_right fun ⟨b, hb, hle⟩ => ⟨b, ?_, hle⟩
    rw [readFrames_concat]
    exact List.mem_append_left _ hb
  · exact ⟨hsent _ (hi.read st (hmem st h)).1, (hi.read st (hmem st h)).2⟩
  · rw [hw] at h
    rw [hq]
    exact ⟨List.mem_append_left _ (hi.busy st h).1, fun ha => (hi.busy st h).2 (hold _ ha)⟩
  · rw [hw, hlog]
    exact hi.theirs st t (hold _ ha) (hmem st h) ht

/-- A frame is put into the fifo. -/
theorem accept (hi : StampInv skb p s ops log) {a : ℕ} {ptcom : BitVec 16} {clone : Bool}
    (hlast : ∀ b ∈ sentFrames ops, b < a) (hh : (edgxComGetPtpHdr (skb a)).isSome)
    (hq : s'.queue p = s.queue p ++ [a]) (hw : s'.worker = s.worker) :
    StampInv skb p s' (ops ++ [.xmit a ptcom clone]) (log ++ [(.xmit a ptcom clone, .sent (.backup a))]) := by
  have hlog : deliveredTo p (log ++ [(.xmit a ptcom clone, .sent (.backup a))]) = deliveredTo p log :=
    deliveredTo_concat_nil rfl log
  have hmem (st : Stamp ℕ) : .read p st ∈ ops ++ [.xmit a ptcom clone] → .read p st ∈ ops :=
    read_of_concat (by simp) st
  have hreads : readFrames p (ops ++ [.xmit a ptcom clone]) = readFrames p ops :=
    (readFrames_concat p ops _).trans (List.append_nil _)
  have hsent : sentFrames (ops ++ [.xmit a ptcom clone]) = sentFrames ops ++ [a] := sentFrames_concat ops _
  -- the frame of a timestamp was sent before
  have hold : ∀ st, .read p st ∈ ops →
      Accepted p (log ++ [(.xmit a ptcom clone, .sent (.backup a))]) st.frame → Accepted p log st.frame := by
    intro st h hacc
    rcases accepted_concat.1 hacc with hacc | ⟨_, _, he, _⟩
    · exact hacc
    · obtain ⟨he, _⟩ := TsOp.xmit.inj he
      exact absurd (hlast _ (hi.read st h).1) (he ▸ Nat.lt_irrefl _)
  refine ⟨?_, fun b h => ?_, fun b h => ?_, fun b h => ?_, fun st h => ?_, fun st h => ?_, fun st t hacc h ht => ?_⟩
  · rw [hlog, hq, ← List.append_assoc, List.pairwise_append]
    exact ⟨hi.sorted, List.pairwise_singleton .., fun b hb c hc =>
      List.mem_singleton.1 hc ▸ hlast b (hi.sent b hb)⟩
  · rw [hlog, hq, ← List.append_assoc] at h
    rw [hsent]
    exact (List.mem_append.1 h).elim (fun h => List.mem_append_left _ (hi.sent b h)) (List.mem_append_right _)
  · rw [hq] at h
    rcases List.mem_append.1 h with h | h
    · exact hi.hdr b h
    · exact List.mem_singleton.1 h ▸ hh
  · rw [hq, hreads]
    rcases accepted_concat.1 h with h | ⟨_, _, he, _⟩
    · exact (hi.pending b h).imp_left (List.mem_append_left _)
    · obtain ⟨he, _⟩ := TsOp.xmit.inj he
      exact .inl (he ▸ List.mem_append_right _ List.mem_cons_self)
  · rw [hsent]
    exact ⟨List.mem_append_left _ (hi.read st (hmem st h)).1, (hi.read st (hmem st h)).2⟩
  · rw [hw] at h
    obtain ⟨hr, hpend⟩ := hi.busy st h
    rw [hq]
    exact ⟨List.mem_append_left _ hr, fun hacc => List.mem_append_left _ (hpend (hold st hr hacc))⟩
  · rw [hw, hlog]
    exact hi.theirs st t (hold st (hmem st h) hacc) (hmem st h) ht

/-- A timestamp is read. -/
theorem take (hi : StampInv skb p s ops log) {st : Stamp ℕ} (hidle : s.worker p = none)
    (hhw : HwOrder skb ops (.read p st)) (hq : s'.queue p = s.queue p) (hw : s'.worker p = some st) :
    StampInv skb p s' (ops ++ [.read p st]) (log ++ [(.read p st, .done)]) := by
  have hlog : deliveredTo p (log ++ [(.read p st, .done)]) = deliveredTo p log := deliveredTo_concat_nil rfl log
  have hreads : readFrames p (ops ++ [.read p st]) = readFrames p ops ++ [st.frame] := by
    rw [readFrames_concat]
    simp [readFrames]
  have hsent : sentFrames (ops ++ [.read p st]) = sentFrames ops :=
    (sentFrames_concat ops _).trans (List.append_nil _)
  have hold (a : ℕ) : Accepted p (log ++ [(.read p st, .done)]) a → Accepted p log a := accepted_of_concat nofun
  obtain ⟨hto, hlast, hcarries⟩ := hhw
  refine ⟨?_, ?_, ?_, fun b h => ?_, fun st' h => ?_, fun st' h => ?_, fun st' t hacc h ht => ?_⟩
  · rw [hlog, hq]
    exact hi.sorted
  · rw [hlog, hq, hsent]
    exact hi.sent
  · rw [hq]
    exact hi.hdr
  · rw [hq, hreads]
    exact (hi.pending b (hold b h)).imp_right fun ⟨c, hc, hle⟩ => ⟨c, List.mem_append_left _ hc, hle⟩
  · rw [hsent]
    rcases List.mem_append.1 h with h | h
    · exact hi.read st' h
    · obtain ⟨_, rfl⟩ := TsOp.read.inj (List.mem_singleton.1 h)
      exact ⟨mem_sentFrames hto, hcarries⟩
  · obtain rfl : st = st' := Option.some.inj (hw.symm.trans h)
    refine ⟨List.mem_append_right _ List.mem_cons_self, fun hacc => ?_⟩
    -- no later frame's timestamp was read, so the frame is still pending
    rw [hq]
    refine (hi.pending _ (hold _ hacc)).resolve_right ?_
    rintro ⟨b, hb, hle⟩
    exact absurd (hlast b hb) (Nat.not_lt.2 hle)
  · rw [hw, hlog]
    rcases List.mem_append.1 h with h | h
    · refine .inr ((hi.theirs st' t (hold _ hacc) h ht).resolve_left ?_)
      rw [hidle]
      exact fun h => nomatch h
    · obtain ⟨_, rfl⟩ := TsOp.read.inj (List.mem_singleton.1 h)
      exact .inl rfl

/-- A frame leaves the fifo, or the fifo is empty. `r` is what it got. -/
theorem leave (hi : StampInv skb p s ops log) {st : Stamp ℕ} {r : TsRet ℕ} (hw : s.worker p = some st)
    (hsub : ((deliveredTo p [(TsOp.out p, r)]).map Prod.fst ++ s'.queue p).Sublist (s.queue p))
    (hgone : ∀ a ∈ s.queue p, a ∈ s'.queue p ∨ a ≤ st.frame)
    (hbusy : (s'.worker p = some st ∧ (st.frame ∈ s.queue p → st.frame ∈ s'.queue p)) ∨
      s'.worker p = none ∧ ∀ t, st.time = some t → st.frame ∈ s.queue p →
        (st.frame, t) ∈ deliveredTo p [(TsOp.out p, r)]) :
    StampInv skb p s' (ops ++ [.out p]) (log ++ [(.out p, r)]) := by
  have hlog : deliveredTo p (log ++ [(TsOp.out p, r)]) = deliveredTo p log ++ deliveredTo p [(TsOp.out p, r)] :=
    deliveredTo_concat ..
  have hreads : readFrames p (ops ++ [.out p]) = readFrames p ops :=
    (readFrames_concat p ops _).trans (List.append_nil _)
  have hsent : sentFrames (ops ++ [.out p]) = sentFrames ops :=
    (sentFrames_concat ops _).trans (List.append_nil _)
  have hold (a : ℕ) : Accepted p (log ++ [(.out p, r)]) a → Accepted p log a := accepted_of_concat nofun
  have hmem (st' : Stamp ℕ) : .read p st' ∈ ops ++ [.out p] → .read p st' ∈ ops :=
    read_of_concat (by simp) st'
  have hframes : ((deliveredTo p (log ++ [(TsOp.out p, r)])).map Prod.fst ++ s'.queue p).Sublist
      ((deliveredTo p log).map Prod.fst ++ s.queue p) := by
    rw [hlog, List.map_append, List.append_assoc]
    exact List.Sublist.append_left hsub _
  obtain ⟨hr, hpend⟩ := hi.busy st hw
  refine ⟨hi.sorted.sublist hframes, fun a h => ?_, fun a h => ?_, fun a h => ?_, fun st' h => ?_,
    fun st' h => ?_, fun st' t hacc h ht => ?_⟩
  · rw [hsent]
    exact hi.sent a (hframes.subset h)
  · exact hi.hdr a (hsub.subset (List.mem_append_right _ h))
  · rw [hreads]
    rcases hi.pending a (hold a h) with hq | hb
    · exact (hgone a hq).imp_right fun hle => ⟨st.frame, mem_readFrames hr, hle⟩
    · exact .inr hb
  · rw [hsent]
    exact hi.read st' (hmem st' h)
  · rcases hbusy with ⟨hs', hkeep⟩ | ⟨hs', _⟩
    · obtain rfl : st = st' := Option.some.inj (hs'.symm.trans h)
      exact ⟨List.mem_append_left _ hr, fun hacc => hkeep (hpend (hold _ hacc))⟩
    · exact nomatch hs'.symm.trans h
  · rcases hi.theirs st' t (hold _ hacc) (hmem st' h) ht with hw' | hdel
    · obtain rfl : st = st' := Option.some.inj (hw.symm.trans hw')
      rcases hbusy with ⟨hs', _⟩ | ⟨_, hgot⟩
      · exact .inl hs'
      · rw [hlog]
        exact .inr (List.mem_append_right _ (hgot t ht (hpend (hold _ hacc))))
    · rw [hlog]
      exact .inr (List.mem_append_left _ hdel)

/-- One frame is taken for the timestamp `st`. -/
theorem out (hi : StampInv skb p s ops log) (hok : TsOk skb s (.out p)) :
    StampInv skb p (tsStep skb s (.out p)).2 (ops ++ [.out p]) (log ++ [(.out p, (tsStep skb s (.out p)).1)]) := by
  rcases out_cases skb s p with ⟨_, he⟩ | ⟨st, hw, hrest⟩
  · rw [he]
    exact hi.frame rfl rfl (fun _ h => nomatch h) rfl fun _ _ _ h => nomatch h
  · have hok := hok st hw
    rcases hrest with ⟨hq, hr, hq', hw'⟩ | ⟨a, q, hq, hq', hm⟩
    · refine hi.leave hw ?_ ?_ (.inr ⟨hw', ?_⟩)
      · rw [hr, hq', hq]
        exact List.Sublist.slnil
      · rw [hq]
        exact fun a h => nomatch h
      · rw [hq]
        exact fun t _ h => nomatch h
    · simp only [hq] at hok
      have hsorted : (a :: q).Pairwise (· < ·) := by
        have := (List.pairwise_append.1 hi.sorted).2.1
        rwa [hq] at this
      have hgone : a ≤ st.frame → ∀ b ∈ s.queue p, b ∈ (tsStep skb s (.out p)).2.queue p ∨ b ≤ st.frame := by
        intro hle b hb
        rw [hq] at hb
        rw [hq']
        rcases List.mem_cons.1 hb with rfl | hb
        · exact .inr hle
        · exact .inl hb
      rcases hm with ⟨hm, hr, hw'⟩ | ⟨hm, hr, hw'⟩
      · -- the frame is the timestamp's own
        obtain rfl : a = st.frame := hok.resolve_right fun h => by
          rw [hm] at h
          exact nomatch h.2
        refine hi.leave hw ?_ (hgone (Nat.le_refl _)) (.inr ⟨hw', fun t ht _ => ?_⟩)
        · rw [hr, hq', hq, Stamp.deliver]
          cases st.time with
          | none => exact List.sublist_cons_self ..
          | some t => simp [deliveredTo]
        · rw [hr, Stamp.deliver, ht]
          simp [deliveredTo]
      · -- it is in front of it
        have hne : a ≠ st.frame := by
          rintro rfl
          have hhdr := hi.hdr st.frame (hq ▸ List.mem_cons_self)
          rw [hdrMatch_of_carries hhdr (hi.read st (hi.busy st hw).1).2] at hm
          cases hm
        have hmem : st.frame ∈ q := (hok.resolve_left hne).1
        refine hi.leave hw ?_ (hgone ?_) (.inl ⟨hw', fun _ => hq' ▸ hmem⟩)
        · rw [hr, hq', hq]
          exact List.sublist_cons_self ..
        · exact Nat.le_of_lt ((List.pairwise_cons.1 hsorted).1 _ hmem)

theorem step (hi : StampInv skb p s ops log) {op : TsOp ℕ} (hhw : HwOrder skb ops op) (hidle : Idle s op)
    (hok : TsOk skb s op) :
    StampInv skb p (tsStep skb s op).2 (ops ++ [op]) (log ++ [(op, (tsStep skb s op).1)]) := by
  cases op with
  | xmit a ptcom clone =>
    obtain ⟨hw, ⟨hno, hq⟩ | ⟨hr, _, hh, hq⟩⟩ := xmit_port skb s a ptcom clone p
    · refine hi.frame hq (congrFun hw p) (fun _ h => nomatch h) rfl fun b ptcom' clone' he hc => hno ?_
      obtain ⟨rfl, rfl, rfl⟩ := TsOp.xmit.inj he
      exact hc
    · rw [hr]
      exact hi.accept hhw hh hq hw
  | read q st =>
    obtain ⟨hr, hq, hw⟩ := read_port skb s q st p
    rw [hr]
    by_cases hpq : p = q
    · subst hpq
      exact hi.take (Option.isNone_iff_eq_none.1 hidle) hhw hq (read_idle skb hidle st)
    · refine hi.frame hq (hw hpq) (fun st' h => ?_) rfl fun _ _ _ h => nomatch h
      exact hpq (TsOp.read.inj h).1.symm
  | out q =>
    by_cases hpq : p = q
    · subst hpq
      exact hi.out hok
    · obtain ⟨hq, hw⟩ := out_other skb s hpq
      refine hi.frame hq hw (fun _ h => nomatch h) ?_ fun _ _ _ h => nomatch h
      cases h : (tsStep skb s (.out q)).1 with
      | delivered a t => simp [deliveredTo, Ne.symm hpq]
      | _ => rfl

end StampInv

/-- The fifos of the ports with timestamps, at the start. -/
def tsInit (ports : Fin EDGX_BR_MAX_PORTS → Bool) : TsState ℕ where
  ts p := if ports p then some {} else none

theorem StampInv.init (skb : ℕ → Skb Dev) (ports : Fin EDGX_BR_MAX_PORTS → Bool) (p : Fin EDGX_BR_MAX_PORTS) :
    StampInv skb p (tsInit ports) [] [] := by
  have hq : (tsInit ports).queue p = [] := by
    simp only [tsInit, TsState.queue]
    split
    · rfl
    · rename_i pts h
      split at h
      · obtain rfl := Option.some.inj h
        rfl
      · cases h
  have hacc : ∀ {a}, ¬ Accepted p [] a := fun ⟨_, _, h, _⟩ => nomatch h
  refine ⟨?_, ?_, ?_, fun a h => (hacc h).elim, fun st h => (nomatch h), fun st h => (nomatch h),
    fun st t h => (hacc h).elim⟩
  · rw [hq]
    exact .nil
  · rw [hq]
    exact fun a h => nomatch h
  · rw [hq]
    exact fun a h => nomatch h

theorem StampInv.run {s : TsState ℕ} {p : Fin EDGX_BR_MAX_PORTS} (h0 : StampInv skb p s [] []) {ops : List (TsOp ℕ)}
    (hhw : Guarded remember (HwOrder skb) [] ops) (hidle : Guarded (tsStep skb) Idle s ops)
    (hok : Guarded (tsStep skb) (TsOk skb) s ops) :
    StampInv skb p (after (tsStep skb) s ops) ops (outs (tsStep skb) s ops) := by
  induction ops using List.reverseRecOn with
  | nil => exact h0
  | append_singleton ops op ih =>
    have hpast := hhw.at_step
    rw [after_remember, List.nil_append] at hpast
    rw [after_concat, outs_concat]
    exact (ih hhw.of_append hidle.of_append hok.of_append).step hpast hidle.at_step hok.at_step

/-- A timestamp is delivered to the frame it is of. -/
theorem own_of_ok {s : TsState ℕ} {p : Fin EDGX_BR_MAX_PORTS} (hok : TsOk skb s (.out p)) {a : ℕ}
    {t : BitVec 64 × BitVec 32} (h : (tsStep skb s (.out p)).1 = .delivered a t) :
    ∃ st, s.worker p = some st ∧ st.frame = a ∧ st.time = some t := by
  rcases out_cases skb s p with ⟨_, he⟩ | ⟨st, hw, ⟨_, hr, _⟩ | ⟨b, q, hq, _, ⟨hm, hr, _⟩ | ⟨_, hr, _⟩⟩⟩
  · rw [he] at h
    cases h
  · exact nomatch hr.symm.trans h
  · have hok := hok st hw
    simp only [hq, hm, Bool.true_eq_false, and_false, or_false] at hok
    rw [hr, Stamp.deliver] at h
    cases ht : st.time with
    | none =>
      rw [ht] at h
      cases h
    | some u =>
      rw [ht] at h
      obtain ⟨rfl, rfl⟩ := TsRet.delivered.inj h
      exact ⟨st, hw, hok.symm, ht⟩
  · exact nomatch hr.symm.trans h

/-- A timestamp whose frame is not pending finds the fifo empty. -/
theorem spared_of_ok {s : TsState ℕ} {p : Fin EDGX_BR_MAX_PORTS} (hok : TsOk skb s (.out p)) {st : Stamp ℕ}
    (hw : s.worker p = some st) (hno : st.frame ∉ s.queue p) :
    (tsStep skb s (.out p)).2.queue p = s.queue p := by
  rcases out_cases skb s p with ⟨_, he⟩ | ⟨st', _, ⟨hq, _, hq', _⟩ | ⟨a, q, hq, _⟩⟩
  · rw [he]
  · rw [hq, hq']
  · have hok := hok st hw
    rw [hq] at hno
    simp only [hq] at hok
    rcases hok with rfl | ⟨hmem, _⟩
    · exact absurd List.mem_cons_self hno
    · exact absurd (List.mem_cons_of_mem _ hmem) hno

variable (skb) in
/-- **Timestamps get to their frames**, in every run in which each frame that
is taken from a fifo is the timestamp's own or in front of it. -/
theorem stamped_of_ok (ports : Fin EDGX_BR_MAX_PORTS → Bool) (ops : List (TsOp ℕ))
    (hhw : Guarded remember (HwOrder skb) [] ops) (hidle : Guarded (tsStep skb) Idle (tsInit ports) ops)
    (hok : Guarded (tsStep skb) (TsOk skb) (tsInit ports) ops) :
    Stamped skb (tsInit ports) ops := by
  have hinv : ∀ p, StampInv skb p (after (tsStep skb) (tsInit ports) ops) ops (outs (tsStep skb) (tsInit ports) ops) :=
    fun p => (StampInv.init skb ports p).run hhw hidle hok
  refine ⟨?_, fun p => ?_, ?_, fun p => (hinv p).pending, fun p => (hinv p).theirs⟩
  · rintro pre p suf a t rfl hr
    exact own_of_ok hok.at_step hr
  · exact (List.pairwise_append.1 (hinv p).sorted).1.imp Nat.ne_of_lt
  · rintro pre p suf st rfl hw hno
    rw [after_concat]
    exact spared_of_ok hok.at_step hw hno

end Runs

section Example

def port0 : Fin EDGX_BR_MAX_PORTS := ⟨0, by decide⟩

/-- PTP frames are told apart by the last byte of their sequence number. -/
def ptpFrame (n : ℕ) : Skb Unit :=
  ⟨(), 64, 0, ETH_P_1588, List.replicate 31 0 ++ [BitVec.ofNat 8 n]⟩

/-- The registers of the timestamp of frame `n`, at zero seconds. -/
def stampOf (n : ℕ) : Stamp ℕ := ⟨0, ⟨0, BitVec.ofNat 16 (n * 256), 0, BitVec.ofNat 16 n⟩, n⟩

/-- The timestamp of frame 0 does not come; frames 1 and 2 get theirs. -/
theorem stamped_of_ok_lost : Stamped ptpFrame (tsInit fun _ => true)
    [.xmit 0 1 true, .xmit 1 1 true, .read port0 (stampOf 1), .out port0, .xmit 2 1 true, .out port0, .read port0 (stampOf 2), .out port0] :=
  stamped_of_ok ptpFrame (fun _ => true) _ (by decide +kernel) (by decide +kernel) (by decide +kernel)

/-- Frame 0 could not be cloned. Its timestamp removes frame 1. -/
theorem not_stamped_unqueued :
    Guarded remember (HwOrder ptpFrame) [] [.xmit 0 1 false, .xmit 1 1 true, .read port0 (stampOf 0), .out port0] ∧
    Guarded (tsStep ptpFrame) Idle (tsInit fun _ => true)
      [.xmit 0 1 false, .xmit 1 1 true, .read port0 (stampOf 0), .out port0] ∧
    ¬ Stamped ptpFrame (tsInit fun _ => true)
      [.xmit 0 1 false, .xmit 1 1 true, .read port0 (stampOf 0), .out port0] := by
  refine ⟨by decide +kernel, by decide +kernel, fun h => ?_⟩
  have hkept := h.spared [.xmit 0 1 false, .xmit 1 1 true, .read port0 (stampOf 0)] port0 [] (stampOf 0) rfl rfl
    (by decide +kernel)
  exact absurd hkept (by decide +kernel)

end Example

end TsnSwitch.Com
