/-
The value of a shaper is a function of the queue's current slope and rate
(`shaped_iff`) exactly in the runs in which no queue goes from a rate that
changes its addend to the rate 1/1: the queue then keeps the scaled addend,
for as long as its slope is not written.
-/
import TsnSwitch.Lib.Run
import TsnSwitch.Fqtss.Shaper

namespace TsnSwitch.Fqtss

open Lib

/-- What is in force for a queue: its admin slope and the rate, with the link
speed when it was programmed. -/
structure Current where
  slope : BitVec 32 := 0
  rate : TrRate := ⟨1, 1⟩
  linkSpeed : BitVec 32 := SPEED_UNKNOWN
  deriving DecidableEq

/-- What the driver holds of a queue. -/
structure Queue where
  tsa : BitVec 8
  slope : BitVec 32
  addend : BitVec 16
  shaper : BitVec 16

def EdgxFqtss.queue (fqt : EdgxFqtss) (i : Nat) : Queue :=
  ⟨fqt.tsaTbl i, fqt.adminidleslope i, fqt.addend i, fqt.shaper i⟩

def Queue.write (q : Queue) (addend : BitVec 16) : Queue :=
  { q with
    addend
    shaper := if q.tsa = CBS then addend else if q.tsa = STRICT_PRIO then MAX_ADDEND else q.shaper }

namespace Params

variable (par : Params)

/-- The addend for a slope and a rate. Without gates it is the admin slope's. -/
def shaperValue (c : Current) : BitVec 16 :=
  if c.rate.num = 0 ∨ c.rate.denom = 0 then 0
  else if c.rate = ⟨1, 1⟩ then edgxFqtssCalcAddend c.slope par.edgxFqtssGetClk
  else edgxFqtssCalcAddend (limitSlope c.linkSpeed (scaleSlope c.slope c.rate.num c.rate.denom)) par.edgxFqtssGetClk

/-- What an operation puts in force. -/
def track (c : Nat → Current) : FqtssOp → Unit × (Nat → Current)
  | .stChange linkSpeed rates =>
    ((), fun i => if i < par.nrQueues then { c i with rate := rates i, linkSpeed } else c i)
  | .adminSlopeTblWrite idx slope linkSpeed rate =>
    ((), if idx < par.nrQueues ∧ slopeAllowed linkSpeed slope then Function.update c idx ⟨slope, rate, linkSpeed⟩ else c)
  | .tsaTblWrite _ _ => ((), c)

/-- The slope is `c`'s, and the addend follows from what is in force. It is in
the shaper if the queue is shaped. -/
structure QueueShaped (c : Current) (q : Queue) : Prop where
  slope : q.slope = c.slope
  addend : q.addend = par.shaperValue c
  tsa : q.tsa = CBS ∨ q.tsa = STRICT_PRIO
  shaper : q.shaper = if q.tsa = CBS then par.shaperValue c else MAX_ADDEND

def Shaped (fqt : EdgxFqtss) (c : Nat → Current) : Prop := ∀ i < par.nrQueues, par.QueueShaped (c i) (fqt.queue i)

/-- A queue whose rate becomes 1/1 has the addend of its admin slope: its rate
was 1/1 or did not change the addend. -/
def Unscaled (c : Nat → Current) : FqtssOp → Prop
  | .stChange _ rates => ∀ i < par.nrQueues, rates i = ⟨1, 1⟩ →
      par.shaperValue (c i) = edgxFqtssCalcAddend (c i).slope par.edgxFqtssGetClk
  | _ => True

/-- Without gates the slope is the admin slope. -/
theorem shaperValue_one {c : Current} (h : c.rate = ⟨1, 1⟩) :
    par.shaperValue c = edgxFqtssCalcAddend c.slope par.edgxFqtssGetClk := by
  have h0 : ¬ (c.rate.num = 0 ∨ c.rate.denom = 0) := by
    rw [h]
    decide
  rw [shaperValue, if_neg h0, if_pos h]

/-! ## What an operation does to a queue -/

theorem writeAddend_queue (fqt : EdgxFqtss) (addend : BitVec 16) (idx j : Nat) :
    (edgxFqtssWriteAddend fqt addend idx).queue j = if j = idx then (fqt.queue j).write addend else fqt.queue j := by
  unfold edgxFqtssWriteAddend
  by_cases hj : j = idx
  · subst hj
    dsimp only
    rw [if_pos rfl]
    split
    · simp [EdgxFqtss.queue, Queue.write, *]
    · have hne : STRICT_PRIO ≠ CBS := by decide
      split <;> simp [EdgxFqtss.queue, Queue.write, *]
  · dsimp only
    rw [if_neg hj]
    split
    · simp [EdgxFqtss.queue, hj]
    · split <;> simp [EdgxFqtss.queue, hj]

/-- The addend that is programmed for a rate. -/
def nextAddend (linkSpeed : BitVec 32) (rate : TrRate) (q : Queue) : BitVec 16 :=
  if rate = ⟨1, 1⟩ then q.addend else par.shaperValue ⟨q.slope, rate, linkSpeed⟩

theorem calcIdleSlope_fst (fqt : EdgxFqtss) (idx : Nat) (linkSpeed : BitVec 32) (rate : TrRate) :
    (par.edgxFqtssCalcIdleSlope fqt idx linkSpeed rate).1 = par.nextAddend linkSpeed rate (fqt.queue idx) := by
  have hone : (rate.num = 1 ∧ rate.denom = 1) ↔ rate = ⟨1, 1⟩ := by
    obtain ⟨num, denom⟩ := rate
    rw [TrRate.mk.injEq]
  unfold edgxFqtssCalcIdleSlope nextAddend shaperValue
  by_cases h1 : rate = ⟨1, 1⟩
  · have h0 : ¬ (rate.num = 0 ∨ rate.denom = 0) := by
      rw [h1]
      decide
    rw [if_neg h0, if_pos (hone.2 h1), if_pos h1]
    rfl
  · rw [if_neg h1, if_neg h1, if_neg (mt hone.1 h1)]
    split <;> rfl

theorem calcIdleSlope_queue (fqt : EdgxFqtss) (idx : Nat) (linkSpeed : BitVec 32) (rate : TrRate) (j : Nat) :
    (par.edgxFqtssCalcIdleSlope fqt idx linkSpeed rate).2.queue j = fqt.queue j := by
  unfold edgxFqtssCalcIdleSlope
  split
  · rfl
  · split <;> rfl

theorem stChangeQueue_queue (linkSpeed : BitVec 32) (rates : Nat → TrRate) (fqt : EdgxFqtss) (i j : Nat) :
    (par.stChangeQueue linkSpeed rates fqt i).queue j =
      if j = i then (fqt.queue j).write (par.nextAddend linkSpeed (rates j) (fqt.queue j)) else fqt.queue j := by
  have hq := par.calcIdleSlope_queue fqt i linkSpeed (rates i)
  have ha := par.calcIdleSlope_fst fqt i linkSpeed (rates i)
  simp only [stChangeQueue, writeAddend_queue, hq, ha]
  split
  · rename_i h
    rw [h]
  · rfl

/-- The loop over the queues programs each of them once. -/
theorem stChange_queue (fqt : EdgxFqtss) (linkSpeed : BitVec 32) (rates : Nat → TrRate) (j : Nat) :
    (par.edgxFqtssStChange fqt linkSpeed rates).queue j =
      if j < par.nrQueues then (fqt.queue j).write (par.nextAddend linkSpeed (rates j) (fqt.queue j))
      else fqt.queue j := by
  have h : ∀ n, ((List.range n).foldl (par.stChangeQueue linkSpeed rates) fqt).queue j =
      if j < n then (fqt.queue j).write (par.nextAddend linkSpeed (rates j) (fqt.queue j)) else fqt.queue j := by
    intro n
    induction n with
    | zero => rfl
    | succ n ih =>
      rw [List.range_succ, List.foldl_append, List.foldl_cons, List.foldl_nil, stChangeQueue_queue, ih]
      by_cases hj : j = n
      · rw [if_pos hj, if_neg (by omega), if_pos (by omega)]
      · rw [if_neg hj]
        split
        · rw [if_pos (by omega)]
        · rw [if_neg (by omega)]
  exact h par.nrQueues

theorem adminSlopeTblWrite_queue (fqtss : EdgxFqtss) (idx : Nat) (slope linkSpeed : BitVec 32) (rate : TrRate) (j : Nat) :
    (par.adminSlopeTblWrite fqtss idx slope linkSpeed rate).2.queue j =
      if (idx < par.nrQueues ∧ slopeAllowed linkSpeed slope) ∧ j = idx then
        { fqtss.queue j with slope }.write (par.shaperValue ⟨slope, rate, linkSpeed⟩)
      else fqtss.queue j := by
  unfold adminSlopeTblWrite
  by_cases hidx : idx < par.nrQueues
  · rw [if_neg (Nat.not_le.2 hidx)]
    by_cases hallowed : slopeAllowed linkSpeed slope
    · rw [if_neg (not_not.2 hallowed)]
      simp only [writeAddend_queue, calcIdleSlope_queue, calcIdleSlope_fst, hidx, hallowed, true_and]
      by_cases hj : j = idx
      · subst hj
        rw [if_pos rfl, if_pos rfl]
        simp only [EdgxFqtss.queue, Function.update_self, nextAddend, Queue.write]
        split
        · rename_i h1
          rw [par.shaperValue_one h1]
          rfl
        · rfl
      · rw [if_neg hj, if_neg hj]
        simp [EdgxFqtss.queue, hj]
    · rw [if_pos hallowed, if_neg (fun h => hallowed h.1.2)]
  · rw [if_pos (Nat.not_lt.1 hidx), if_neg (fun h => hidx h.1.1)]

theorem tsaTblWrite_queue (fqt : EdgxFqtss) (i : Nat) (tsa : BitVec 8) (j : Nat) :
    (par.tsaTblWrite fqt i tsa).2.queue j =
      if (i < par.nrQueues ∧ tsa ≤ CBS) ∧ j = i then { fqt.queue j with tsa }.write (fqt.queue j).addend
      else fqt.queue j := by
  unfold tsaTblWrite
  by_cases h : i < par.nrQueues ∧ tsa ≤ CBS
  · rw [if_neg (by simpa using h)]
    simp only [writeAddend_queue, h, true_and]
    by_cases hj : j = i
    · subst hj
      rw [if_pos rfl, if_pos rfl]
      simp [EdgxFqtss.queue]
    · rw [if_neg hj, if_neg hj]
      simp [EdgxFqtss.queue, hj]
  · have h' : i ≥ par.nrQueues ∨ tsa > CBS := by
      rcases Nat.lt_or_ge i par.nrQueues with hi | hi
      · exact .inr (BitVec.not_le.1 fun ht => h ⟨hi, ht⟩)
      · exact .inl hi
    rw [if_pos h', if_neg (fun hc => h hc.1)]

/-! ## Runs -/

variable {par : Params}

/-- Programming an addend is right when it is the one for what is in force. -/
theorem write_shaped {c : Current} {q : Queue} (hslope : q.slope = c.slope) (htsa : q.tsa = CBS ∨ q.tsa = STRICT_PRIO)
    (a : BitVec 16) : par.QueueShaped c (q.write a) ↔ a = par.shaperValue c := by
  refine ⟨fun h => h.addend, fun ha => ⟨hslope, ha, htsa, ?_⟩⟩
  rcases htsa with htsa | htsa
  · simp only [Queue.write, htsa, if_true, ha]
  · have hne : STRICT_PRIO ≠ CBS := by decide
    simp only [Queue.write, htsa, if_true, if_neg hne]

theorem probe_shaped (shaper : Nat → BitVec 16) : par.Shaped (par.edgxProbeFqtss shaper) fun _ => {} := by
  have hreg : ∀ n i, i < n →
      (List.range n).foldl (fun shaper i => Function.update shaper i MAX_ADDEND) shaper i = MAX_ADDEND := by
    intro n
    induction n with
    | zero => exact fun i h => absurd h (Nat.not_lt_zero i)
    | succ n ih =>
      intro i hi
      rw [List.range_succ, List.foldl_append, List.foldl_cons, List.foldl_nil]
      by_cases hin : i = n
      · rw [hin, Function.update_self]
      · rw [Function.update_of_ne hin]
        exact ih i (by omega)
  intro i hi
  have hzero : par.shaperValue {} = 0 := by
    rw [par.shaperValue_one rfl]
    unfold edgxFqtssCalcAddend
    generalize par.edgxFqtssGetClk.setWidth 64 = clk
    have hdiv : (((0 : BitVec 32).setWidth 64 <<< 12) + clk - 1) / clk = 0 := by
      rcases eq_or_ne clk 0 with rfl | hne
      · rfl
      · have hpos : clk.toNat ≠ 0 := fun h => hne (BitVec.eq_of_toNat_eq h)
        have hsub : ((0 : BitVec 32).setWidth 64 <<< 12) + clk - 1 = clk - 1 := by
          rw [show (0 : BitVec 32).setWidth 64 <<< 12 = 0 from rfl]
          exact congrArg (· - 1) (BitVec.zero_add clk)
        rw [hsub]
        refine BitVec.eq_of_toNat_eq ?_
        rw [BitVec.toNat_udiv]
        exact Nat.div_eq_of_lt (by bv_omega)
    rw [hdiv]
    rfl
  exact ⟨rfl, hzero.symm, .inr rfl, hreg _ i hi⟩

/-- An operation keeps the shapers right exactly if no queue loses its gates
with an addend that was scaled for them. -/
theorem step_shaped (fqt : EdgxFqtss) (c : Nat → Current) (op : FqtssOp) (hs : par.Shaped fqt c) :
    par.Shaped (fqtssStep par fqt op).2 (par.track c op).2 ↔ par.Unscaled c op := by
  cases op with
  | stChange linkSpeed rates =>
    refine forall₂_congr fun i hi => ?_
    have hq := hs i hi
    simp only [fqtssStep, track, stChange_queue, if_pos hi]
    rw [write_shaped (c := ⟨(c i).slope, rates i, linkSpeed⟩) hq.slope hq.tsa, nextAddend, hq.addend, hq.slope]
    by_cases h1 : rates i = ⟨1, 1⟩
    · rw [if_pos h1, shaperValue_one par (c := ⟨(c i).slope, rates i, linkSpeed⟩) h1]
      exact ⟨fun h _ => h, fun h => h h1⟩
    · rw [if_neg h1]
      exact iff_of_true rfl fun h => absurd h h1
  | adminSlopeTblWrite idx slope linkSpeed rate =>
    refine iff_of_true (fun i hi => ?_) True.intro
    have hq := hs i hi
    simp only [fqtssStep, track, adminSlopeTblWrite_queue]
    by_cases hok : idx < par.nrQueues ∧ slopeAllowed linkSpeed slope
    · rw [if_pos hok]
      by_cases hj : i = idx
      · subst hj
        rw [Function.update_self, if_pos ⟨hok, rfl⟩]
        exact (write_shaped (c := ⟨slope, rate, linkSpeed⟩) (q := { fqt.queue i with slope }) rfl hq.tsa _).2 rfl
      · rw [Function.update_of_ne hj, if_neg (fun h => hj h.2)]
        exact hq
    · rw [if_neg hok, if_neg (fun h => hok h.1)]
      exact hq
  | tsaTblWrite j tsa =>
    refine iff_of_true (fun i hi => ?_) True.intro
    have hq := hs i hi
    simp only [fqtssStep, track, tsaTblWrite_queue]
    split
    · rename_i h
      have htsa : tsa = CBS ∨ tsa = STRICT_PRIO := by
        have hle := h.1.2
        simp only [CBS, STRICT_PRIO] at hle ⊢
        bv_omega
      exact (write_shaped (q := { fqt.queue i with tsa }) hq.slope htsa _).2 hq.addend
    · exact hq

/-- **The shapers forget their history** in exactly the runs in which no queue
loses its gates with a scaled addend: at each time, the addend of each queue
is the one for its current slope and rate. -/
theorem shaped_iff (par : Params) (shaper : Nat → BitVec 16) (ops : List FqtssOp) :
    (∀ pre suf, ops = pre ++ suf →
      par.Shaped (after (fqtssStep par) (par.edgxProbeFqtss shaper) pre) (after par.track (fun _ => {}) pre)) ↔
    Guarded par.track par.Unscaled (fun _ => {}) ops :=
  related_iff_guarded step_shaped (probe_shaped shaper) ops

end Params

section Example

/-- One queue and a clock of 8 ns. -/
def oneQueue : Params := ⟨8, 1⟩

/-- A queue with a shaper, whose schedule is changed at 1000 Mbit/s. -/
def shapedRun (rates : List TrRate) : List FqtssOp :=
  [.tsaTblWrite 0 CBS, .adminSlopeTblWrite 0 1000000 1000 ⟨1, 1⟩] ++ rates.map fun rate => .stChange 1000 fun _ => rate

/-- A schedule that halves the queue's time is started and stopped: the slope
and the rate are as before, but the shaper has another value than without the
schedule, and another than the admin slope's. -/
theorem not_shaped_stopped :
    after oneQueue.track (fun _ => {}) (shapedRun [⟨2, 1⟩, ⟨1, 1⟩]) 0 =
      after oneQueue.track (fun _ => {}) (shapedRun [⟨1, 1⟩]) 0 ∧
    (after (fqtssStep oneQueue) (oneQueue.edgxProbeFqtss fun _ => 0) (shapedRun [⟨2, 1⟩, ⟨1, 1⟩])).shaper 0 ≠
      (after (fqtssStep oneQueue) (oneQueue.edgxProbeFqtss fun _ => 0) (shapedRun [⟨1, 1⟩])).shaper 0 ∧
    ¬ oneQueue.Shaped (after (fqtssStep oneQueue) (oneQueue.edgxProbeFqtss fun _ => 0) (shapedRun [⟨2, 1⟩, ⟨1, 1⟩]))
      (after oneQueue.track (fun _ => {}) (shapedRun [⟨2, 1⟩, ⟨1, 1⟩])) := by
  refine ⟨by decide +kernel, by decide +kernel, fun h => ?_⟩
  exact absurd (h 0 (by decide)).addend (by decide +kernel)

end Example

end TsnSwitch.Fqtss
