/-
The status of a queue, read back (`edge_preempt.c`). A write goes to the stored
status and from there to the register, a read is of the register. So what was
written is read while preemption is active, and express traffic while it is not.
-/
import TsnSwitch.Preempt.Verified

namespace TsnSwitch.Preempt

open Lib

/-- Maximum number of queues: the rows of the table. -/
def MAX_NR_QUEUES : Nat := 8

/-- The register has 0 for express and 1 for preempt traffic, 802.1Qbu 1 and 2. -/
def framePreemptStatusRead (nrQueues : Nat) (pmt : EdgxPreempt) (idx : Nat) : Except Int (BitVec 8) :=
  if idx ≥ nrQueues then .error (-EINVAL) else .ok (((pmt.txPree0 >>> idx) &&& 1#16).setWidth 8 + 1)

/-- What an event of the port writes as the status of queue `q`, if it is
accepted. -/
def Event.written (q : Nat) (out : Out) : Event → Option (BitVec 8)
  | .preemptStatus idx val => if idx = q ∧ out.ret = 0 then some val else none
  | _ => none

/-- The status last written for queue `q` of port `p`, all traffic being express
traffic at first. -/
def lastWritten (p q : Nat) (outs : List ((Nat × Event) × Out)) : BitVec 8 :=
  outs.foldl (fun val o => if o.1.1 = p then (o.1.2.written q o.2).getD val else val) PMT_EXPRESS

/-- A bit of the stored status or of the register, as it is read. -/
def statusOf (b : Bool) : BitVec 8 := if b then PMT_PREEMPT else PMT_EXPRESS

theorem read_bit (x : BitVec 16) (q : Nat) : ((x >>> q) &&& 1#16).setWidth 8 + 1 = statusOf (x.getLsbD q) := by
  have hbit : (x >>> q) &&& 1#16 = if x.getLsbD q then 1#16 else 0#16 := by
    refine BitVec.eq_of_getLsbD_eq fun i hi => ?_
    by_cases h0 : i = 0
    · subst h0
      cases hx : x.getLsbD q <;> simp [hx]
    · cases hx : x.getLsbD q <;> simp [BitVec.getLsbD_one, h0]
  rw [hbit]
  cases x.getLsbD q <;> rfl

/-! ## The stored status -/

theorem setTx_pmtStatus (pmt : EdgxPreempt) : (preemptSetTx pmt).pmtStatus = pmt.pmtStatus := by
  unfold preemptSetTx
  split <;> rfl

theorem updateSm_pmtStatus (pmt : EdgxPreempt) : (preemptUpdateSm pmt).pmtStatus = pmt.pmtStatus := by
  unfold preemptUpdateSm
  rw [setTx_pmtStatus]
  unfold smSwitch preemptStartVer
  dsimp only
  repeat' split
  all_goals rfl

theorem queue_bit (idx : Nat) {q : Nat} (hq : q < 16) : (1#16 <<< idx).getLsbD q = decide (idx = q) := by
  rw [BitVec.getLsbD_shiftLeft, BitVec.getLsbD_one]
  simp only [hq, decide_true, Bool.true_and, Nat.zero_lt_succ]
  grind

/-- A write sets the bit of its queue, and no other. -/
theorem statusWrite_bit (nrQueues : Nat) (pmt : EdgxPreempt) (idx : Nat) (val : BitVec 8) {q : Nat} (hq : q < 16) :
    statusOf ((framePreemptStatusWrite nrQueues pmt idx val).2.pmtStatus.getLsbD q) =
      if idx = q ∧ (framePreemptStatusWrite nrQueues pmt idx val).1 = 0 then val
      else statusOf (pmt.pmtStatus.getLsbD q) := by
  unfold framePreemptStatusWrite
  split
  · have hne : -EINVAL ≠ 0 := by decide
    exact (if_neg fun h => hne h.2).symm
  · rename_i hval
    have hval : val = PMT_EXPRESS ∨ val = PMT_PREEMPT := by
      simp only [PMT_EXPRESS, PMT_PREEMPT] at hval ⊢
      bv_omega
    rw [setTx_pmtStatus]
    rcases hval with rfl | rfl
    · have hne : PMT_EXPRESS ≠ PMT_PREEMPT := by decide
      simp only [if_neg hne, BitVec.getLsbD_and, BitVec.getLsbD_not, queue_bit idx hq, hq]
      by_cases h : idx = q <;> simp [h, statusOf]
    · simp only [if_true, BitVec.getLsbD_or, queue_bit idx hq]
      by_cases h : idx = q <;> simp [h, statusOf]

/-- **One event:** only an accepted write changes the status of its queue. -/
theorem portStep_bit (nrQueues : Nat) (s : EdgxPreempt × BitVec 8) (e : Event) {q : Nat} (hq : q < 16) :
    statusOf ((portStep nrQueues s e).2.1.pmtStatus.getLsbD q) =
      (e.written q (portStep nrQueues s e).1).getD (statusOf (s.1.pmtStatus.getLsbD q)) := by
  cases e with
  | verDisTx disableVer =>
    simp only [portStep, verDisTxStore, updateSm_pmtStatus]
    split <;> rfl
  | enableTx pEnable =>
    simp only [portStep, enableTxStore, updateSm_pmtStatus]
    split <;> rfl
  | verTime verTime =>
    simp only [portStep, verTimeStore]
    split
    · rfl
    · split <;> rfl
  | preemptStatus idx val =>
    refine (statusWrite_bit nrQueues s.1 idx val hq).trans ?_
    have hw : Event.written q (portStep nrQueues s (.preemptStatus idx val)).1 (.preemptStatus idx val) =
        if idx = q ∧ (framePreemptStatusWrite nrQueues s.1 idx val).1 = 0 then some val else none := by
      simp only [Event.written]
      congr
    rw [hw]
    split
    · rw [Option.getD_some]
    · rw [Option.getD_none]
  | linkChng link =>
    simp only [portStep, edgxPreemptLinkChng, updateSm_pmtStatus]
    split <;> rfl
  | timer mem =>
    simp only [portStep]
    split
    · rfl
    · simp only [preemptVerificationFn]
      split
      · rfl
      · split <;> rfl
  | rcv flags mem =>
    simp only [portStep, edgxPreemptRcv]
    split
    · rfl
    · split
      · simp only [updateSm_pmtStatus]
        rfl
      · rfl

/-! ## Runs -/

/-- Each port's register follows its stored status, and that holds what was
last written. -/
structure StatusOk (s : Ports) (os : List ((Nat × Event) × Out)) (p q : Nat) : Prop where
  reg : RegOk (s.pmt p)
  stored : statusOf ((s.pmt p).pmtStatus.getLsbD q) = lastWritten p q os

theorem StatusOk.event (nrQueues : Nat) {s : Ports} {os : List ((Nat × Event) × Out)} {p q : Nat} (hq : q < 16)
    (h : StatusOk s os p q) (e : Nat × Event) :
    StatusOk (step nrQueues s e).2 (os ++ [(e, (step nrQueues s e).1)]) p q := by
  obtain ⟨port, e⟩ := e
  have hlast : lastWritten p q (os ++ [((port, e), (step nrQueues s (port, e)).1)]) =
      if port = p then (e.written q (step nrQueues s (port, e)).1).getD (lastWritten p q os) else lastWritten p q os := by
    simp only [lastWritten, List.foldl_append, List.foldl_cons, List.foldl_nil]
  have hpmt : (step nrQueues s (port, e)).2.pmt =
      Function.update s.pmt port (portStep nrQueues (s.pmt port, s.verCnt) e).2.1 := rfl
  rcases eq_or_ne p port with rfl | hne
  · refine ⟨?_, ?_⟩
    · rw [hpmt, Function.update_self]
      exact regOk_step nrQueues e h.reg
    · rw [hlast, if_pos rfl, hpmt, Function.update_self, portStep_bit nrQueues _ e hq, h.stored]
      rfl
  · refine ⟨?_, ?_⟩
    · rw [hpmt, Function.update_of_ne hne]
      exact h.reg
    · rw [hlast, if_neg hne.symm, hpmt, Function.update_of_ne hne]
      exact h.stored

theorem statusOk_after (nrQueues : Nat) (link : Nat → Bool) (es : List (Nat × Event)) (p : Nat) {q : Nat}
    (hq : q < 16) :
    StatusOk (after (step nrQueues) (probed link) es) (outs (step nrQueues) (probed link) es) p q := by
  induction es using List.reverseRecOn with
  | nil =>
    refine ⟨setTx_regOk _, ?_⟩
    change statusOf ((edgxProbePreempt (link p)).pmtStatus.getLsbD q) = PMT_EXPRESS
    unfold edgxProbePreempt
    rw [setTx_pmtStatus]
    simp [statusOf]
  | append_singleton es e ih =>
    rw [after_concat, outs_concat]
    exact ih.event nrQueues hq e

/-- **The status of a queue: after every run, what was last written for the
queue is read while preemption is active, and express traffic while it is
not.** -/
theorem statusRead_run (nrQueues : Nat) (link : Nat → Bool) (es : List (Nat × Event)) (p q : Nat)
    (hq : q < MAX_NR_QUEUES) :
    framePreemptStatusRead nrQueues ((after (step nrQueues) (probed link) es).pmt p) q =
      if q ≥ nrQueues then .error (-EINVAL)
      else .ok (if preemptCalcPActive ((after (step nrQueues) (probed link) es).pmt p)
        then lastWritten p q (outs (step nrQueues) (probed link) es) else PMT_EXPRESS) := by
  obtain ⟨hreg, hstored⟩ := statusOk_after nrQueues link es p (Nat.lt_trans hq (by decide : MAX_NR_QUEUES < 16))
  rw [framePreemptStatusRead, read_bit, hreg, ← hstored]
  split
  · rfl
  · cases preemptCalcPActive ((after (step nrQueues) (probed link) es).pmt p) with
    | true => rfl
    | false => simp [statusOf]

/-- Preempt traffic is written first, then preemption is enabled without
verification. -/
def activated : List (Nat × Event) :=
  [(0, .preemptStatus 2 PMT_PREEMPT), (0, .verDisTx (some true)), (0, .enableTx (some true))]

theorem statusRead_run_activated :
    framePreemptStatusRead 8 ((after (step 8) (probed fun _ => true) activated).pmt 0) 2 = .ok PMT_PREEMPT :=
  statusRead_run 8 (fun _ => true) activated 0 2 (by decide)

/-- Without the last step preemption is inactive. -/
theorem not_statusRead_inactive :
    ¬ ∀ (nrQueues : Nat) (link : Nat → Bool) (es : List (Nat × Event)) (p q : Nat), q < nrQueues → q < MAX_NR_QUEUES →
      framePreemptStatusRead nrQueues ((after (step nrQueues) (probed link) es).pmt p) q =
        .ok (lastWritten p q (outs (step nrQueues) (probed link) es)) := fun h =>
  absurd (h 8 (fun _ => true) [(0, .preemptStatus 2 PMT_PREEMPT)] 0 2 (by decide) (by decide)) (by decide)

end TsnSwitch.Preempt
