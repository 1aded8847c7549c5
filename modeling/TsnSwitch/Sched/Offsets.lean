/-
The row offsets of a compiled list. Each row has the time from the cycle
start to the end of its interval, in 16 bits of ticks.

The checks bound every interval by what a row can hold, and the cycle time by
16 ms, but not the sum of the intervals: the offsets are in order, exact and
within the cycle just when the sum is small enough (`offsetsOk_iff`).
-/
import TsnSwitch.Sched.Cycles
import TsnSwitch.Sched.Gates

namespace TsnSwitch.Sched

/-- The two compilers of edge_sched.c. -/
inductive Compiler where
  | port
  | stream

def Compiler.prepareConfig : Compiler → Com → Hw → List TabEntry → Int × Hw
  | .port => edgxStPrepareConfig
  | .stream => edgxPsfpGtPrepareConfig

def Compiler.plan : Compiler → Com → List TabEntry → Plan
  | .port => stPlan
  | .stream => psfpPlan

/-- An admin list and a cycle time that pass the checks. -/
structure Accepted (com : Com) (es : List TabEntry) (ct : Rational) : Prop where
  entries : edgxSchedAdjustAdminTab com es = 0
  nonempty : es ≠ []
  length : es.length ≤ com.maxEntryCnt
  num : ct.num ≠ 0
  denom : ct.denom ≠ 0
  cycle : (edgxSchedRationalToNsec ct).1 ≤ EDGX_SCHED_MAX_CYC_NS

/-- The offsets never decrease, neither the 32 bits they are added up in nor
the 16 bits of a row wrap, and the last one is in the cycle. -/
structure OffsetsOk (com : Com) (es : List TabEntry) (ct : Rational) (rows : Nat → Row) : Prop where
  mono : ∀ i j, i ≤ j → j ≤ es.length → (rows i).cycles ≤ (rows j).cycles
  accumulator : ∀ i ≤ es.length, ((es.take (i + 1)).foldl addTime 0).toNat = sumTime (es.take (i + 1))
  field : ∀ i ≤ es.length, (rows i).cycles.toNat = sumTime (es.take (i + 1)) / com.hwGranularityNs
  inCycle : (sumTime es : ℚ) ≤ ct.secs * NSEC_PER_SEC

theorem dvd_of_adjust {com : Com} {es : List TabEntry} (h : edgxSchedAdjustAdminTab com es = 0) :
    ∀ e ∈ es, com.hwGranularityNs ∣ e.timeInterval.toNat := by
  induction es with
  | nil => exact fun e he => nomatch he
  | cons e es ih =>
    rw [edgxSchedAdjustAdminTab] at h
    split at h
    · exact absurd h (by decide)
    rename_i hdvd
    split at h
    · exact absurd h (by decide)
    exact List.forall_mem_cons.2 ⟨Nat.dvd_of_mod_eq_zero (not_not.1 hdvd), ih h⟩

section Rows

variable {com : Com} {es : List TabEntry}

theorem prepareConfig_eq (c : Compiler) (hw : Hw) {t : Tab} (ht : (edgxSchedGetFreeTab hw).1 = t.idx) :
    c.prepareConfig com hw es = writePlan t.idx (c.plan com es) (edgxSchedGetFreeTab hw).2 := by
  have hneg : ¬ (edgxSchedGetFreeTab hw).1 < 0 := by rw [ht]; exact t.idx_nonneg
  cases c with
  | port => exact (edgxStPrepareConfig_eq com hw es).trans ((if_neg hneg).trans (by rw [ht]; rfl))
  | stream => exact (edgxPsfpGtPrepareConfig_eq com hw es).trans ((if_neg hneg).trans (by rw [ht]; rfl))

/-- The offsets that both compilers write. -/
theorem plan_cycles (c : Compiler) (hlen : es.length < 1024) (rows : Nat → Row) {i : Nat} (hi : i ≤ es.length) :
    (applyRows (c.plan com es) rows i).cycles = ticks com ((es.take (i + 1)).foldl addTime 0) := by
  have htake : es.take (es.length + 1) = es := List.take_of_length_le (Nat.le_succ _)
  cases c with
  | port =>
    obtain ⟨hrow, hlast⟩ := stPlan_rows com hlen rows
    rcases Nat.lt_or_eq_of_le hi with hlt | rfl
    · exact congrArg Row.cycles (hrow i _ (List.getElem?_eq_getElem hlt))
    · rw [Compiler.plan, hlast, htake]
  | stream =>
    rw [Compiler.plan, psfpPlan, applyRows_append]
    change (Function.update (_ : Nat → Row) (cmdRow es.length) _ i).cycles = _
    rw [cmdRow_of_lt hlen]
    rcases Nat.lt_or_eq_of_le hi with hlt | rfl
    · rw [Function.update_of_ne (Nat.ne_of_lt hlt)]
      have h : applyRows (scanPlan addTime (fun time e => ⟨e.gates, ticks com time⟩) es 0 0) rows (0 + i) = _ :=
        applyRows_scanPlan (by omega) (List.getElem?_eq_getElem hlt)
      rw [Nat.zero_add] at h
      rw [h]
    · rw [Function.update_self, htake]

/-- **The offsets are in order exactly when the intervals add up to what a row
can hold and to no more than the cycle.** -/
theorem offsetsOk_iff (c : Compiler) {hw : Hw} {t : Tab} {ct : Rational} (h : Accepted com es ct)
    (ht : (edgxSchedGetFreeTab hw).1 = t.idx) (hok : (c.prepareConfig com hw es).1 = 0) :
    OffsetsOk com es ct ((c.prepareConfig com hw es).2.tabs t).rows ↔
      sumTime es ≤ EDGX_SCHED_INTERVAL_MAX * com.hwGranularityNs ∧ (sumTime es : ℚ) ≤ ct.secs * NSEC_PER_SEC := by
  rw [prepareConfig_eq c hw ht] at hok ⊢
  rw [writePlan_rows t _ hok]
  have hcyc : ∀ i ≤ es.length, (applyRows (c.plan com es) ((edgxSchedGetFreeTab hw).2.tabs t).rows i).cycles =
      ticks com ((es.take (i + 1)).foldl addTime 0) := fun i hi =>
    plan_cycles c (Nat.lt_of_le_of_lt h.length com.max_lt) _ hi
  have hdvd := dvd_of_adjust h.entries
  have htake : es.take (es.length + 1) = es := List.take_of_length_le (Nat.le_succ _)
  generalize applyRows (c.plan com es) ((edgxSchedGetFreeTab hw).2.tabs t).rows = rows at hcyc ⊢
  constructor
  · rintro ⟨-, -, hfield, hin⟩
    refine ⟨?_, hin⟩
    have hlast := hfield es.length le_rfl
    rw [htake] at hlast
    have hlt := (rows es.length).cycles.isLt
    rw [hlast] at hlt
    rw [← Nat.div_mul_cancel (dvd_sumTime hdvd)]
    exact Nat.mul_le_mul_right _ (Nat.le_of_lt_succ hlt)
  · rintro ⟨hfit, hin⟩
    have hfield : ∀ i ≤ es.length, (rows i).cycles.toNat = sumTime (es.take (i + 1)) / com.hwGranularityNs := by
      intro i hi
      rw [hcyc i hi]
      exact (Nat.div_eq_of_eq_mul_left com.gran_pos (ticks_take (i + 1) hdvd hfit).symm).symm
    refine ⟨fun i j hij hj => ?_, fun i hi => ?_, hfield, hin⟩
    · rw [BitVec.le_def, hfield i (hij.trans hj), hfield j hj]
      refine Nat.div_le_div_right ?_
      have hsub : es.take (i + 1) = (es.take (j + 1)).take (i + 1) := by
        rw [List.take_take, Nat.min_eq_left (Nat.succ_le_succ hij)]
      rw [hsub]
      exact sumTime_take_le _ _
    · rw [foldl_addTime, BitVec.ofNat_eq_ofNat, BitVec.toNat_ofNat, Nat.zero_mod, Nat.zero_add]
      exact Nat.mod_eq_of_lt (((sumTime_take_le es (i + 1)).trans hfit).trans_lt (max_lt com))

end Rows

theorem offsetsOk_iff_two :
    let es : List TabEntry := [⟨3200, 0, 0xff⟩, ⟨6400, 0, 0x0f⟩]
    OffsetsOk someCom es ⟨1, 1000⟩ ((Compiler.prepareConfig .port someCom {} es).2.tabs 0).rows ↔
      sumTime es ≤ EDGX_SCHED_INTERVAL_MAX * someCom.hwGranularityNs ∧
        (sumTime es : ℚ) ≤ Rational.secs ⟨1, 1000⟩ * NSEC_PER_SEC := by
  intro es
  exact offsetsOk_iff .port ⟨by decide, by decide, by decide, by decide, by decide, by decide⟩ (by decide) (by decide)

/-- Two intervals as long as a row can hold: the second row is before the first. -/
theorem not_offsetsOk_wrapped :
    let es : List TabEntry := [⟨20971200, 0, 0xff⟩, ⟨20971200, 0, 0x0f⟩]
    Accepted someCom es ⟨1, 100⟩ ∧ (Compiler.prepareConfig .port someCom {} es).1 = 0 ∧
      ¬ OffsetsOk someCom es ⟨1, 100⟩ ((Compiler.prepareConfig .port someCom {} es).2.tabs 0).rows := by
  intro es
  refine ⟨⟨by decide, by decide, by decide, by decide, by decide, by decide⟩, by decide, fun h => ?_⟩
  exact absurd (h.mono 0 1 (by decide) (by decide)) (by decide)

end TsnSwitch.Sched
