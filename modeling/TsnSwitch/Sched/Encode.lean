/-
When the rows of a plan are exact: every row written has the gates and the
time of its entry, for a list of valid entries whose times fit
(`plan_encodes`). Times are added in 32 bits and divided into the 16 bits of
a row; none of this wraps when the total fits.
-/
import TsnSwitch.Sched.Submit

namespace TsnSwitch.Sched

/-! ## What a row says about an entry -/

/-- The gates of a row, without the hold bit. Stream gates have none. -/
def User.rowMask : User → Com → BitVec 16
  | .portGates, com | .fsc, com => com.gateMask.setWidth 16
  | .streamGates, _ => BitVec.allOnes 16

/-- An entry whose interval the user's validation accepts. -/
def Valid : User → Com → TabEntry → Prop
  | .portGates, com, e | .streamGates, com, e =>
    com.hwGranularityNs ∣ e.timeInterval.toNat ∧
      e.timeInterval.toNat / com.hwGranularityNs ≤ EDGX_SCHED_INTERVAL_MAX
  | .fsc, com, e =>
    Fsc.EDGX_SCHED_INTERVAL_MIN ≤ e.timeInterval.toNat / com.hwGranularityNs ∧
      e.timeInterval.toNat / com.hwGranularityNs ≤ EDGX_SCHED_INTERVAL_MAX

instance : ∀ (u : User) (com : Com) (e : TabEntry), Decidable (Valid u com e)
  | .portGates, _, _ | .streamGates, _, _ | .fsc, _, _ => by unfold Valid; infer_instance

/-- A valid entry whose gates lie within the gates of a row. -/
structure Stored (u : User) (com : Com) (e : TabEntry) : Prop where
  valid : Valid u com e
  masked : e.gates &&& u.rowMask com = e.gates

/-- The total of the intervals. -/
def sumTime (es : List TabEntry) : Nat := (es.map fun e => e.timeInterval.toNat).sum

/-- The time, in nanoseconds, that row `i` of the compiled list stands for. -/
def User.rowTime (u : User) (es : List TabEntry) (i : Nat) : Nat :=
  match u with
  | .portGates | .streamGates => sumTime (es.take (i + 1))
  | .fsc => ((es[i]?).map fun e => e.timeInterval.toNat).getD 0

/-- The entry row `i` is written from: its own, or the last one for the
terminal row. -/
def entryOf (es : List TabEntry) (i : Nat) : Option TabEntry := if i = es.length then es.getLast? else es[i]?

/-- Row `i` has exactly the gates and the time of its entry, which is valid. -/
structure Encodes (u : User) (com : Com) (es : List TabEntry) (i : Nat) (r : Row) : Prop where
  entry : ∃ e, entryOf es i = some e ∧ Valid u com e ∧ r.gates &&& u.rowMask com = e.gates
  time : r.cycles.toNat * com.hwGranularityNs = u.rowTime es i

/-- The times of the list fit the rows: their total, or for the FSC variant
each a multiple of the clock. -/
def Fits : User → Com → List TabEntry → Prop
  | .portGates, com, es | .streamGates, com, es =>
    sumTime es ≤ EDGX_SCHED_INTERVAL_MAX * com.hwGranularityNs
  | .fsc, com, es => ∀ e ∈ es, com.hwGranularityNs ∣ e.timeInterval.toNat

instance : ∀ (u : User) (com : Com) (es : List TabEntry), Decidable (Fits u com es)
  | .portGates, _, _ | .streamGates, _, _ | .fsc, _, _ => by unfold Fits; infer_instance

/-! ## Times -/

@[simp] theorem sumTime_nil : sumTime [] = 0 := rfl

@[simp] theorem sumTime_cons (e : TabEntry) (es : List TabEntry) :
    sumTime (e :: es) = e.timeInterval.toNat + sumTime es := rfl

theorem sumTime_append (es es' : List TabEntry) : sumTime (es ++ es') = sumTime es + sumTime es' := by
  simp [sumTime]

theorem sumTime_take_le (es : List TabEntry) (k : Nat) : sumTime (es.take k) ≤ sumTime es := by
  have h := sumTime_append (es.take k) (es.drop k)
  rw [List.take_append_drop] at h
  omega

theorem dvd_sumTime {n : Nat} {es : List TabEntry} (h : ∀ e ∈ es, n ∣ e.timeInterval.toNat) : n ∣ sumTime es := by
  induction es with
  | nil => exact Nat.dvd_zero n
  | cons e es ih =>
    rw [sumTime_cons]
    exact Nat.dvd_add (h e List.mem_cons_self) (ih fun a ha => h a (List.mem_cons_of_mem e ha))

theorem foldl_addTime (es : List TabEntry) (t : BitVec 32) :
    (es.foldl addTime t).toNat = (t.toNat + sumTime es) % 2 ^ 32 := by
  induction es generalizing t with
  | nil => simp [Nat.mod_eq_of_lt t.isLt]
  | cons e es ih =>
    rw [List.foldl_cons, ih, addTime, BitVec.toNat_add, sumTime_cons]
    omega

/-- A time that fits and is a multiple of the granularity is exact in a row. -/
theorem ticks_exact {com : Com} {t : Nat} (hle : t ≤ EDGX_SCHED_INTERVAL_MAX * com.hwGranularityNs)
    (hdvd : com.hwGranularityNs ∣ t) :
    (BitVec.ofNat 16 (t / com.hwGranularityNs)).toNat * com.hwGranularityNs = t := by
  have hdiv : t / com.hwGranularityNs ≤ EDGX_SCHED_INTERVAL_MAX :=
    Nat.div_le_of_le_mul (by rwa [Nat.mul_comm] at hle)
  have hlt : t / com.hwGranularityNs < 2 ^ 16 := Nat.lt_of_le_of_lt hdiv (by decide)
  rw [BitVec.toNat_ofNat, Nat.mod_eq_of_lt hlt, Nat.div_mul_cancel hdvd]

theorem max_lt (com : Com) : EDGX_SCHED_INTERVAL_MAX * com.hwGranularityNs < 2 ^ 32 :=
  Nat.lt_of_le_of_lt (Nat.mul_le_mul_left _ com.gran_le) (by decide)

/-- The accumulated time of a prefix is exact in a row. -/
theorem ticks_take {com : Com} {es : List TabEntry} (k : Nat)
    (hdvd : ∀ e ∈ es, com.hwGranularityNs ∣ e.timeInterval.toNat)
    (hfit : sumTime es ≤ EDGX_SCHED_INTERVAL_MAX * com.hwGranularityNs) :
    (ticks com ((es.take k).foldl addTime 0)).toNat * com.hwGranularityNs = sumTime (es.take k) := by
  have hle := Nat.le_trans (sumTime_take_le es k) hfit
  have htime : ((es.take k).foldl addTime 0).toNat = sumTime (es.take k) := by
    rw [foldl_addTime]
    simpa using Nat.mod_eq_of_lt (Nat.lt_of_le_of_lt hle (max_lt com))
  rw [ticks, htime]
  exact ticks_exact hle (dvd_sumTime fun e he => hdvd e (List.mem_of_mem_take he))

/-! ## Gates -/

theorem nextHold_cases (com : Com) (hold : BitVec 16) (e : TabEntry) :
    e.nextHold com hold = com.hold ∨ e.nextHold com hold = 0 ∨ e.nextHold com hold = hold := by
  unfold TabEntry.nextHold
  split
  · exact .inl rfl
  · split
    · exact .inr (.inl rfl)
    · exact .inr (.inr rfl)

/-- The hold bits of a loop are all or nothing. -/
theorem foldl_nextHold (com : Com) (es : List TabEntry) {hold : BitVec 16} (h : hold = com.hold ∨ hold = 0) :
    es.foldl (TabEntry.nextHold com) hold = com.hold ∨ es.foldl (TabEntry.nextHold com) hold = 0 := by
  induction es generalizing hold with
  | nil => exact h
  | cons e es ih =>
    refine ih ?_
    rcases nextHold_cases com hold e with h' | h' | h'
    · exact .inl h'
    · exact .inr h'
    · rw [h']; exact h

theorem hold_and_mask (com : Com) : com.hold &&& com.gateMask.setWidth 16 = 0 := by
  have h : ∀ n ≤ 8, (1#16 <<< n) &&& (BitVec.ofNat 8 (2 ^ n - 1)).setWidth 16 = 0 := by decide
  exact h com.nrQueues com.queues_le

/-- The hold bit does not reach the gates. -/
theorem gates_or_hold {com : Com} {e : TabEntry} {hold : BitVec 16} (h : hold = com.hold ∨ hold = 0)
    (hm : e.gates &&& com.gateMask.setWidth 16 = e.gates) :
    (e.gates ||| hold) &&& com.gateMask.setWidth 16 = e.gates := by
  have hz : hold &&& com.gateMask.setWidth 16 = 0 := by
    rcases h with rfl | rfl
    · exact hold_and_mask com
    · exact BitVec.zero_and
  calc (e.gates ||| hold) &&& com.gateMask.setWidth 16
      = (e.gates &&& com.gateMask.setWidth 16) ||| (hold &&& com.gateMask.setWidth 16) := by
        ext i hi
        simp [Bool.and_or_distrib_right]
    _ = e.gates := by rw [hz, hm]; exact BitVec.or_zero

/-! ## Plans -/

theorem entryOf_lt {es : List TabEntry} {k : Nat} {e : TabEntry} (h : es[k]? = some e) : entryOf es k = some e := by
  have hlt := (List.getElem?_eq_some_iff.1 h).1
  rw [entryOf, if_neg (Nat.ne_of_lt hlt), h]

theorem entryOf_last {es : List TabEntry} (h : es ≠ []) :
    ∃ e ∈ es, entryOf es es.length = some e ∧ lastGates es = e.gates := by
  refine ⟨es.getLast h, List.getLast_mem h, ?_, ?_⟩
  · rw [entryOf, if_pos rfl, List.getLast?_eq_some_getLast h]
  · rw [lastGates, List.getLast?_eq_some_getLast h]; rfl

theorem take_length_succ (es : List TabEntry) : es.take (es.length + 1) = es :=
  List.take_of_length_le (Nat.le_succ _)

/-- The entries the patch loop goes over are the first ones of the list. -/
theorem patched_getElem? {es l : List TabEntry} (hl : l <+: es) {k : Nat} {e : TabEntry}
    (h : (patched l)[k]? = some e) : es[k]? = some e ∧ (patched l).take (k + 1) = es.take (k + 1) := by
  obtain ⟨rest, rfl⟩ := (List.takeWhile_prefix TabEntry.keepsHold).trans hl
  have hlt := (List.getElem?_eq_some_iff.1 h).1
  change (patched l)[k]? = some e at h
  change (patched l ++ rest)[k]? = _ ∧ _ = (patched l ++ rest).take (k + 1)
  exact ⟨by rw [List.getElem?_append_left hlt, h], (List.take_append_of_le_length hlt).symm⟩

section Plan

variable {com : Com} {es : List TabEntry}

theorem stPlan_encodes (hne : es ≠ []) (hs : ∀ e ∈ es, Stored .portGates com e) (hf : Fits .portGates com es) :
    ∀ p ∈ stPlan com es, p.1 ≤ es.length ∧ Encodes .portGates com es p.1 p.2 := by
  have hdvd : ∀ e ∈ es, com.hwGranularityNs ∣ e.timeInterval.toNat := fun e he => (hs e he).valid.1
  intro p hp
  simp only [stPlan, List.mem_append, List.mem_cons] at hp
  rcases hp with hp | rfl | hp
  · -- the row of an entry
    obtain ⟨k, e, hk, rfl⟩ := mem_scanPlan hp
    rw [Nat.zero_add, stNext_foldl]
    have hmem := List.mem_of_getElem? hk
    refine ⟨Nat.le_of_lt (List.getElem?_eq_some_iff.1 hk).1, ⟨e, entryOf_lt hk, (hs e hmem).valid, ?_⟩,
      ticks_take (k + 1) hdvd hf⟩
    exact gates_or_hold (foldl_nextHold com _ (.inr rfl)) (hs e hmem).masked
  · -- the terminal row
    obtain ⟨e, hmem, he, hg⟩ := entryOf_last hne
    refine ⟨Nat.le_refl _, ⟨e, he, (hs e hmem).valid, ?_⟩, ?_⟩
    · dsimp only; rw [hg]; exact (hs e hmem).masked
    · have h := ticks_take (es.length + 1) hdvd hf
      simp only [take_length_succ] at h
      simp only [User.rowTime, take_length_succ, h]
  · -- a patched row
    split at hp
    · cases hp
    · obtain ⟨k, e, hk, rfl⟩ := mem_scanPlan hp
      obtain ⟨hk, htake⟩ := patched_getElem? (List.dropLast_prefix es) hk
      rw [Nat.zero_add, htake]
      have hmem := List.mem_of_getElem? hk
      refine ⟨Nat.le_of_lt (List.getElem?_eq_some_iff.1 hk).1, ⟨e, entryOf_lt hk, (hs e hmem).valid, ?_⟩,
        ticks_take (k + 1) hdvd hf⟩
      exact gates_or_hold (foldl_nextHold com _ (.inr rfl)) (hs e hmem).masked

theorem psfpPlan_encodes (hne : es ≠ []) (hs : ∀ e ∈ es, Stored .streamGates com e)
    (hf : Fits .streamGates com es) :
    ∀ p ∈ psfpPlan com es, p.1 ≤ es.length ∧ Encodes .streamGates com es p.1 p.2 := by
  have hdvd : ∀ e ∈ es, com.hwGranularityNs ∣ e.timeInterval.toNat := fun e he => (hs e he).valid.1
  intro p hp
  simp only [psfpPlan, List.mem_append, List.mem_singleton] at hp
  rcases hp with hp | rfl
  · obtain ⟨k, e, hk, rfl⟩ := mem_scanPlan hp
    rw [Nat.zero_add]
    have hmem := List.mem_of_getElem? hk
    exact ⟨Nat.le_of_lt (List.getElem?_eq_some_iff.1 hk).1,
      ⟨e, entryOf_lt hk, (hs e hmem).valid, (hs e hmem).masked⟩, ticks_take (k + 1) hdvd hf⟩
  · obtain ⟨e, hmem, he, hg⟩ := entryOf_last hne
    refine ⟨Nat.le_refl _, ⟨e, he, (hs e hmem).valid, ?_⟩, ?_⟩
    · dsimp only; rw [hg]; exact (hs e hmem).masked
    · have h := ticks_take (es.length + 1) hdvd hf
      simp only [take_length_succ] at h
      simp only [User.rowTime, take_length_succ, h]

/-- A row of the FSC variant. -/
theorem entryRow_encodes {k : Nat} {e : TabEntry} (hk : es[k]? = some e) (hs : Stored .fsc com e)
    (hd : com.hwGranularityNs ∣ e.timeInterval.toNat) {hold : BitVec 16} (hh : hold = com.hold ∨ hold = 0) :
    k ≤ es.length ∧ Encodes .fsc com es k (Fsc.entryRow com hold e) := by
  refine ⟨Nat.le_of_lt (List.getElem?_eq_some_iff.1 hk).1,
    ⟨e, entryOf_lt hk, hs.valid, gates_or_hold hh hs.masked⟩, ?_⟩
  rw [User.rowTime, hk]
  refine ticks_exact ?_ hd
  obtain ⟨q, hq⟩ := hd
  have hmax := hs.valid.2
  rw [hq, Nat.mul_div_cancel_left _ com.gran_pos] at hmax
  rw [hq, Nat.mul_comm]
  exact Nat.mul_le_mul_right _ hmax

theorem fscPlan_encodes (hne : es ≠ []) (hs : ∀ e ∈ es, Stored .fsc com e) (hf : Fits .fsc com es) :
    ∀ p ∈ fscPlan com es, p.1 ≤ es.length ∧ Encodes .fsc com es p.1 p.2 := by
  intro p hp
  simp only [fscPlan, List.mem_append, List.mem_cons] at hp
  rcases hp with hp | rfl | hp
  · obtain ⟨k, e, hk, rfl⟩ := mem_scanPlan hp
    rw [Nat.zero_add]
    have hmem := List.mem_of_getElem? hk
    exact entryRow_encodes hk (hs e hmem) (hf e hmem) (foldl_nextHold com _ (.inr rfl))
  · obtain ⟨e, hmem, he, hg⟩ := entryOf_last hne
    refine ⟨Nat.le_refl _, ⟨e, he, (hs e hmem).valid, ?_⟩, ?_⟩
    · dsimp only; rw [hg]; exact (hs e hmem).masked
    · simp [User.rowTime]
  · split at hp
    · cases hp
    · obtain ⟨k, e, hk, rfl⟩ := mem_scanPlan hp
      have hk := (patched_getElem? (List.prefix_refl es) hk).1
      rw [Nat.zero_add]
      have hmem := List.mem_of_getElem? hk
      exact entryRow_encodes hk (hs e hmem) (hf e hmem) (foldl_nextHold com _ (.inr rfl))

end Plan

/-- **Every row of a plan is exact** when its list is valid and fits. -/
theorem plan_encodes (u : User) {com : Com} {es : List TabEntry} (hne : es ≠ [])
    (hs : ∀ e ∈ es, Stored u com e) (hf : Fits u com es) :
    ∀ p ∈ u.plan com es, p.1 ≤ es.length ∧ Encodes u com es p.1 p.2 := by
  cases u with
  | portGates => exact stPlan_encodes hne hs hf
  | streamGates => exact psfpPlan_encodes hne hs hf
  | fsc => exact fscPlan_encodes hne hs hf

end TsnSwitch.Sched
