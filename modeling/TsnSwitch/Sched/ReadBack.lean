/-
The gate control list of a port, compiled and read back, for both drivers of
port gates: each row has the gates, the interval and the hold level of its
entry, the terminal row those of the last one, and reading gives the same
back, exactly when `Representable` holds (`compiled_iff`).

Three things break it. The terminal row is written without the hold level.
Offsets add up beyond 16 bits (in the FSC variant an interval need not be a
multiple of the clock). And a read that starts in the middle of the list
starts with a low level, so a release there reads as no change.
-/
import TsnSwitch.Sched.Gates

namespace TsnSwitch.Sched

/-! ## Reading rows -/

/-- Table `t` holds `rows`, and every transfer succeeds. -/
structure Reads (hw : Hw) (t : Tab) (rows : Nat → Row) : Prop where
  rows : (hw.tabs t).rows = rows
  ok : ∀ x ∈ hw.xfers, x = .ok

theorem Reads.tick {hw : Hw} {t : Tab} {rows : Nat → Row} (h : Reads hw t rows) : Reads hw.tick t rows := by
  refine ⟨(tick_rows hw t).trans h.rows, ?_⟩
  rw [tick_xfers]
  exact h.ok

theorem Reads.getUsedTab {hw : Hw} {t : Tab} {rows : Nat → Row} (h : Reads hw t rows) :
    Reads (edgxSchedGetUsedTab hw).2 t rows := by
  unfold edgxSchedGetUsedTab Hw.rdTblGen
  dsimp only
  split
  · exact h.tick
  · split <;> exact h.tick.tick

theorem Reads.readRow {hw : Hw} {t : Tab} {rows : Nat → Row} (h : Reads hw t rows) (i : Nat) :
    ∃ hw', hw.readRow t.idx i = (some (rows (cmdRow i)), hw') ∧ Reads hw' t rows := by
  have ht := h.tick
  simp only [Hw.readRow, Hw.nextXfer]
  cases hx : hw.tick.xfers with
  | nil => exact ⟨hw.tick, by simp [ht.rows], ht⟩
  | cons x xs =>
    obtain rfl : x = .ok := ht.ok x (by rw [hx]; exact List.mem_cons_self)
    refine ⟨{ hw.tick with xfers := xs }, by simp [ht.rows], ht.rows, fun y hy => ht.ok y ?_⟩
    rw [hx]
    exact List.mem_cons_of_mem _ hy

/-- The time of a row. -/
def rowNs (com : Com) (r : Row) : BitVec 32 := BitVec.ofNat 32 (r.cycles.toNat * com.hwGranularityNs)

/-- The entry read from a row after one with hold bits `hold`. -/
def readEntry (com : Com) (interval : BitVec 32) (hold : BitVec 16) (r : Row) : TabEntry :=
  ⟨interval, readOp hold (r.gates &&& com.hold), (r.gates &&& com.gateMask.setWidth 16).setWidth 8⟩

section Read

variable {com : Com} {t : Tab} {rows : Nat → Row} {listLen : Nat}

theorem edgxStReadRows_length (first : Nat) (tabIdx : Int) (buf : List TabEntry) (i : Nat)
    (vars : BitVec 16 × BitVec 32) (prev : BitVec 32) (hold : BitVec 16) (hw : Hw) :
    (edgxStReadRows com listLen tabIdx first buf i vars prev hold hw).1.length = buf.length := by
  induction buf generalizing i vars prev hold hw with
  | nil => rfl
  | cons slot buf ih =>
    simp only [edgxStReadRows]
    split
    · simp
    · split
      · simp
      · simp [ih]

/-- What the loop of the shared scheduler reads into slot `k`. -/
theorem edgxStReadRows_get (hlen : listLen ≤ 1024) (first : Nat) {buf : List TabEntry} {i k : Nat}
    {vars : BitVec 16 × BitVec 32} {prev : BitVec 32} {hold : BitVec 16} {hw : Hw} (h : Reads hw t rows)
    (hk : k < buf.length) (hi : first + i + k < listLen) :
    (edgxStReadRows com listLen t.idx first buf i vars prev hold hw).1[k]? = some
      (readEntry com
        (rowNs com (rows (first + i + k)) - if k = 0 then prev else rowNs com (rows (first + i + k - 1)))
        (if k = 0 then hold else (rows (first + i + k - 1)).gates &&& com.hold) (rows (first + i + k))) := by
  induction buf generalizing i k vars prev hold hw with
  | nil => cases hk
  | cons slot buf ih =>
    obtain ⟨hw', hread, h'⟩ := h.readRow (first + i)
    have hcmd : cmdRow (first + i) = first + i := cmdRow_of_lt (by omega)
    rw [hcmd] at hread
    have hnot : ¬ first + i ≥ listLen := by omega
    have hne : ¬ (0 : Int) = -ENOENT := by decide
    simp only [edgxStReadRows, edgxSchedReadEntry, if_neg hnot, hread, if_neg hne, ne_eq, not_true_eq_false,
      if_false]
    cases k with
    | zero => rfl
    | succ k =>
      have hk' : k < buf.length := Nat.lt_of_succ_lt_succ hk
      have hsum : first + i + (k + 1) = first + (i + 1) + k := by omega
      rw [List.getElem?_cons_succ, hsum]
      refine (ih h' hk' (by omega)).trans ?_
      cases k with
      | zero => rfl
      | succ k => rfl

theorem Fsc.edgxSchedReadRows_length (tabIdx : Int) (buf : List TabEntry) (idx : Nat) (hold : BitVec 16) (hw : Hw) :
    (Fsc.edgxSchedReadRows com listLen tabIdx buf idx hold hw).1.2.length = buf.length := by
  induction buf generalizing idx hold hw with
  | nil => rfl
  | cons slot buf ih =>
    simp only [Fsc.edgxSchedReadRows]
    split
    · simp
    · split
      · rfl
      · simp [ih]

/-- What the loop of the FSC variant reads into slot `k`. -/
theorem Fsc.edgxSchedReadRows_get (hlen : listLen ≤ 1024) {buf : List TabEntry} {idx k : Nat} {hold : BitVec 16}
    {hw : Hw} (h : Reads hw t rows) (hk : k < buf.length) (hi : idx + k < listLen) :
    (Fsc.edgxSchedReadRows com listLen t.idx buf idx hold hw).1.2[k]? = some
      (readEntry com (rowNs com (rows (idx + k)))
        (if k = 0 then hold else (rows (idx + k - 1)).gates &&& com.hold) (rows (idx + k))) := by
  induction buf generalizing idx k hold hw with
  | nil => cases hk
  | cons slot buf ih =>
    obtain ⟨hw', hread, h'⟩ := h.readRow idx
    rw [cmdRow_of_lt (by omega)] at hread
    have hnot : ¬ idx ≥ listLen := by omega
    simp only [Fsc.edgxSchedReadRows, if_neg hnot, hread]
    cases k with
    | zero => rfl
    | succ k =>
      have hk' : k < buf.length := Nat.lt_of_succ_lt_succ hk
      have hsum : idx + (k + 1) = idx + 1 + k := by omega
      rw [List.getElem?_cons_succ, hsum]
      refine (ih h' hk' (by omega)).trans ?_
      cases k with
      | zero => rfl
      | succ k => rfl

/-- No read of the FSC variant fails. -/
theorem Fsc.edgxSchedReadRows_ok {buf : List TabEntry} {idx : Nat} {hold : BitVec 16} {hw : Hw}
    (h : Reads hw t rows) : (Fsc.edgxSchedReadRows com listLen t.idx buf idx hold hw).1.1 = 0 := by
  induction buf generalizing idx hold hw with
  | nil => rfl
  | cons slot buf ih =>
    obtain ⟨hw', hread, h'⟩ := h.readRow idx
    simp only [Fsc.edgxSchedReadRows, hread]
    split
    · rfl
    · exact ih h'

end Read

/-! ## Reading the list -/

/-- Reading `buf.length` entries from entry `first` on. -/
def Driver.readOper (d : Driver) (com : Com) (hw : Hw) (listLens : Int → Nat) (first : Nat) (buf : List TabEntry)
    (vars : BitVec 16 × BitVec 32) : Int × List TabEntry :=
  match d with
  | .fscr => (edgxStGetOperCtrlList com hw listLens first buf vars).1
  | .fsc => (Fsc.edgxSchedGetOpEntry com hw listLens first buf).1

/-- The interval read for entry `j`. -/
def Driver.readInterval (d : Driver) (com : Com) (rows : Nat → Row) (j : Nat) : BitVec 32 :=
  match d with
  | .fscr => rowNs com (rows j) - if j = 0 then 0 else rowNs com (rows (j - 1))
  | .fsc => rowNs com (rows j)

/-- The hardware executes table `t`, which holds `rows` for `len` entries,
and transfers succeed. -/
structure Running (hw : Hw) (listLens : Int → Nat) (t : Tab) (rows : Nat → Row) (len : Nat) : Prop where
  used : (edgxSchedGetUsedTab hw).1 = t.idx
  reads : Reads hw t rows
  listLen : listLens t.idx = len

/-- **Reading a window of the list.** The reads succeed, and slot `k` is
decoded from row `first + k` and the hold bits of the slot before. -/
theorem readOper_get (d : Driver) {com : Com} {hw : Hw} {listLens : Int → Nat} {t : Tab} {rows : Nat → Row}
    {len : Nat} (h : Running hw listLens t rows len) (hlen : len ≤ 1024) {first : Nat} (hfirst : first < len)
    (buf : List TabEntry) (vars : BitVec 16 × BitVec 32) :
    let r := d.readOper com hw listLens first buf vars
    0 ≤ r.1 ∧ r.2.length = buf.length ∧ ∀ k, k < buf.length → first + k < len → r.2[k]? = some
      (readEntry com (d.readInterval com rows (first + k))
        (if k = 0 then 0 else (rows (first + k - 1)).gates &&& com.hold) (rows (first + k))) := by
  intro r
  have hused := h.reads.getUsedTab
  have hneg := t.idx_nonneg
  cases d with
  | fscr =>
    obtain ⟨vars', hw', hreads, hr⟩ : ∃ vars' hw', Reads hw' t rows ∧
        r = (0, (edgxStReadRows com len t.idx first buf 0 vars'
          (if first = 0 then 0 else rowNs com (rows (first - 1))) 0 hw').1) := by
      by_cases h0 : first = 0
      · refine ⟨vars, _, hused, ?_⟩
        simp only [r, Driver.readOper, edgxStGetOperCtrlList, h.used, h.listLen, if_neg hneg, if_pos h0]
      · obtain ⟨hw', hread, h'⟩ := hused.readRow (first - 1)
        rw [cmdRow_of_lt (by omega)] at hread
        have hnot : ¬ first - 1 ≥ len := by omega
        refine ⟨((rows (first - 1)).gates, vars.2), hw', h', ?_⟩
        simp only [r, Driver.readOper, edgxStGetOperCtrlList, h.used, h.listLen, if_neg hneg, if_neg h0,
          edgxSchedReadEntry, if_neg hnot, hread, ne_eq, not_true_eq_false, if_false]
        rfl
    rw [hr]
    refine ⟨Int.le_refl 0, edgxStReadRows_length .., fun k hk hi => ?_⟩
    refine (edgxStReadRows_get hlen first hreads hk hi).trans ?_
    cases k with
    | zero => rfl
    | succ k => rfl
  | fsc =>
    have hor : ¬ (t.idx < 0 ∨ len = 0) := by omega
    have hr : r = (((buf.length * Fsc.entrySize : Nat) : Int),
        (Fsc.edgxSchedReadRows com len t.idx buf first 0 (edgxSchedGetUsedTab hw).2).1.2) := by
      simp only [r, Driver.readOper, Fsc.edgxSchedGetOpEntry, h.used, h.listLen, if_neg hor,
        Fsc.edgxSchedReadRows_ok hused, if_true]
    rw [hr]
    exact ⟨Int.natCast_nonneg _, Fsc.edgxSchedReadRows_length .., fun k hk hi =>
      Fsc.edgxSchedReadRows_get hlen hused hk hi⟩

/-! ## What is compiled and read back -/

def Row.level (com : Com) (r : Row) : Bool := r.gates &&& com.hold != 0

def Row.openGates (com : Com) (r : Row) : BitVec 16 := r.gates &&& com.gateMask.setWidth 16

/-- The time the hardware stays on row `i`: the difference of two offsets, or
the row's own interval. -/
def Driver.rowInterval (d : Driver) (com : Com) (rows : Nat → Row) (i : Nat) : Int :=
  match d with
  | .fscr =>
    ((rows i).cycles.toNat - if i = 0 then (0 : Int) else (rows (i - 1)).cycles.toNat) * com.hwGranularityNs
  | .fsc => (rows i).cycles.toNat * com.hwGranularityNs

/-- The rows say what the list says. -/
structure Compiled (d : Driver) (com : Com) (es : List TabEntry) (rows : Nat → Row) : Prop where
  gates : ∀ i e, es[i]? = some e → (rows i).openGates com = e.gates
  interval : ∀ i e, es[i]? = some e → d.rowInterval com rows i = e.timeInterval.toNat
  level : ∀ i < es.length, (rows i).level com = effLevel es i
  lastGates : ∀ e, es.getLast? = some e → (rows es.length).openGates com = e.gates
  lastLevel : (rows es.length).level com = effLevel es (es.length - 1)

/-- The window read from entry `first` on, with code `r.1`, says what the
list says there. Levels are replayed from that of the entry before. -/
structure ReadsBack (es : List TabEntry) (first count : Nat) (r : Int × List TabEntry) : Prop where
  ok : 0 ≤ r.1
  length : r.2.length = count
  entry : ∀ k e, k < count → es[first + k]? = some e →
    ∃ b, r.2[k]? = some b ∧ b.gateStates = e.gateStates ∧ b.timeInterval = e.timeInterval
  level : ∀ k, k < count → first + k < es.length →
    (r.2.take (k + 1)).foldl TabEntry.level (levelBefore es first) = effLevel es (first + k)

/-- The times fit the rows, the list ends with a low level, and the window
does not start with a release. -/
structure Representable (d : Driver) (com : Com) (es : List TabEntry) (first : Nat) : Prop where
  fits : Fits d.user com es
  ends : endLevel es = false
  edge : levelBefore es first = true → effLevel es first = true

/-- A valid list was compiled into table `t`. -/
structure Compilation (d : Driver) (com : Com) (hw : Hw) (es : List TabEntry) (t : Tab) : Prop where
  nonempty : es ≠ []
  length : es.length ≤ com.maxEntryCnt
  stored : ∀ e ∈ es, Stored d.user com e
  table : (edgxSchedGetFreeTab hw).1 = t.idx
  ok : (d.compile com hw es).1 = 0

/-! ## Intervals -/

theorem sumTime_take_succ {es : List TabEntry} {i : Nat} {e : TabEntry} (h : es[i]? = some e) :
    sumTime (es.take (i + 1)) = sumTime (es.take i) + e.timeInterval.toNat := by
  rw [List.take_add_one, h, sumTime_append]
  simp

/-- The rows of the shared scheduler are exact offsets when the total fits. -/
theorem fits_iff_fscr {com : Com} {es : List TabEntry} (hs : ∀ e ∈ es, Stored .portGates com e) {rows : Nat → Row}
    (hrow : ∀ k < es.length, (rows k).cycles = Driver.rowCycles .fscr com es k) :
    Fits .portGates com es ↔
      ∀ i e, es[i]? = some e → Driver.rowInterval .fscr com rows i = e.timeInterval.toNat := by
  have hdvd : ∀ e ∈ es, com.hwGranularityNs ∣ e.timeInterval.toNat := fun e he => (hs e he).valid.1
  constructor
  · intro hf i e hi
    have hlt := (List.getElem?_eq_some_iff.1 hi).1
    have hsum := sumTime_take_succ hi
    have hcyc := ticks_take (i + 1) hdvd hf
    simp only [Driver.rowInterval, hrow i hlt, Driver.rowCycles]
    split
    · rename_i h0
      subst h0
      rw [hsum] at hcyc
      simp only [List.take_zero, sumTime_nil, Nat.zero_add] at hcyc
      rw [Int.sub_zero, ← hcyc]
      exact (Int.natCast_mul ..).symm
    · rename_i h0
      have hprev := ticks_take i hdvd hf
      rw [hrow (i - 1) (by omega), Driver.rowCycles, Nat.sub_add_cancel (by omega), Int.sub_mul]
      rw [hsum] at hcyc
      rw [← Int.natCast_mul, ← Int.natCast_mul, hcyc, hprev]
      omega
  · intro h
    -- the offsets add up to the intervals, entry by entry
    have hoff : ∀ i < es.length, (rows i).cycles.toNat * com.hwGranularityNs = sumTime (es.take (i + 1)) := by
      intro i
      induction i with
      | zero =>
        intro hi
        have h0 := h 0 _ (List.getElem?_eq_getElem hi)
        simp only [Driver.rowInterval, if_true, Int.sub_zero] at h0
        rw [sumTime_take_succ (List.getElem?_eq_getElem hi)]
        simp only [List.take_zero, sumTime_nil, Nat.zero_add]
        exact_mod_cast h0
      | succ i ih =>
        intro hi
        have hprev := ih (by omega)
        have h1 := h (i + 1) _ (List.getElem?_eq_getElem hi)
        simp only [Driver.rowInterval, Nat.add_one_ne_zero, if_false, Nat.add_sub_cancel, Int.sub_mul] at h1
        rw [sumTime_take_succ (List.getElem?_eq_getElem hi), ← hprev]
        have h2 : ((rows (i + 1)).cycles.toNat : Int) * com.hwGranularityNs =
            (rows i).cycles.toNat * com.hwGranularityNs + es[i + 1].timeInterval.toNat := by omega
        exact_mod_cast h2
    rcases Nat.eq_zero_or_pos es.length with h0 | hpos
    · rw [List.length_eq_zero_iff.1 h0]
      exact Nat.zero_le _
    · have hall := hoff (es.length - 1) (by omega)
      rw [Nat.sub_add_cancel hpos, List.take_length] at hall
      change sumTime es ≤ _
      rw [← hall]
      exact Nat.mul_le_mul_right _ (Nat.le_of_lt_succ (rows (es.length - 1)).cycles.isLt)

/-- The rows of the FSC variant are exact when each interval is a multiple of
the clock. -/
theorem fits_iff_fsc {com : Com} {es : List TabEntry} (hs : ∀ e ∈ es, Stored .fsc com e) {rows : Nat → Row}
    (hrow : ∀ k < es.length, (rows k).cycles = Driver.rowCycles .fsc com es k) :
    Fits .fsc com es ↔ ∀ i e, es[i]? = some e → Driver.rowInterval .fsc com rows i = e.timeInterval.toNat := by
  constructor
  · intro hf i e hi
    have hmem := List.mem_of_getElem? hi
    have henc := (entryRow_encodes hi (hs e hmem) (hf e hmem) (.inr rfl : (0 : BitVec 16) = com.hold ∨ _)).2.time
    simp only [User.rowTime, hi, Option.map_some, Option.getD_some, Fsc.entryRow] at henc
    simp only [Driver.rowInterval, hrow i (List.getElem?_eq_some_iff.1 hi).1, Driver.rowCycles, hi, Option.map_some,
      Option.getD_some]
    exact_mod_cast henc
  · intro h e he
    obtain ⟨i, hi⟩ := List.mem_iff_getElem?.1 he
    have hi' := h i e hi
    simp only [Driver.rowInterval] at hi'
    refine ⟨(rows i).cycles.toNat, ?_⟩
    rw [Nat.mul_comm]
    exact_mod_cast hi'.symm

theorem fits_iff (d : Driver) {com : Com} {es : List TabEntry} (hs : ∀ e ∈ es, Stored d.user com e)
    {rows : Nat → Row} (hrow : ∀ k < es.length, (rows k).cycles = d.rowCycles com es k) :
    Fits d.user com es ↔ ∀ i e, es[i]? = some e → d.rowInterval com rows i = e.timeInterval.toNat := by
  cases d with
  | fscr => exact fits_iff_fscr hs hrow
  | fsc => exact fits_iff_fsc hs hrow

/-- An exact interval is read back. -/
theorem readInterval_eq (d : Driver) {com : Com} {rows : Nat → Row} {i : Nat} {t : BitVec 32}
    (h : d.rowInterval com rows i = t.toNat) : d.readInterval com rows i = t := by
  have hnat : ∀ n : Nat, (n : Int) = t.toNat → BitVec.ofNat 32 n = t := fun n hn => by
    rw [Int.ofNat_inj.1 hn, BitVec.ofNat_toNat, BitVec.setWidth_eq]
  cases d with
  | fscr =>
    simp only [Driver.rowInterval] at h
    simp only [Driver.readInterval, rowNs]
    split
    · rename_i h0
      rw [if_pos h0, Int.sub_zero] at h
      exact (BitVec.sub_zero _).trans (hnat _ (by exact_mod_cast h))
    · rename_i h0
      rw [if_neg h0, Int.sub_mul] at h
      have hsum : (rows i).cycles.toNat * com.hwGranularityNs =
          t.toNat + (rows (i - 1)).cycles.toNat * com.hwGranularityNs := by
        have h' : ((rows i).cycles.toNat : Int) * com.hwGranularityNs =
            t.toNat + (rows (i - 1)).cycles.toNat * com.hwGranularityNs := by omega
        exact_mod_cast h'
      rw [hsum, BitVec.ofNat_add, BitVec.add_sub_cancel]
      exact hnat _ rfl
  | fsc =>
    simp only [Driver.rowInterval] at h
    exact hnat _ (by exact_mod_cast h)

/-! ## Levels -/

theorem row_level {com : Com} {r : Row} {b : Bool} (h : r.gates &&& com.hold = com.holdBits b) : r.level com = b := by
  unfold Row.level
  rw [h]
  cases b with
  | false => rfl
  | true => exact bne_iff_ne.2 (hold_ne com)

theorem readOp_bits (com : Com) (b b' : Bool) :
    readOp (com.holdBits b) (com.holdBits b') =
      if b = b' then EDGX_SCHED_OP_SET_GSTATES else if b' then EDGX_SCHED_OP_HOLD_MAC else EDGX_SCHED_OP_REL_MAC := by
  simp only [readOp, ne_eq, holdBits_eq_zero]
  cases b <;> cases b' <;> rfl

/-- Replaying an operation that was read from two levels: no change keeps
what the level was, a change sets it. -/
theorem level_readEntry {com : Com} {r : Row} {b' : Bool} (h : r.gates &&& com.hold = com.holdBits b')
    (interval : BitVec 32) (b c : Bool) :
    (readEntry com interval (com.holdBits b) r).level c = if b = b' then c else b' := by
  unfold TabEntry.level readEntry
  rw [h, readOp_bits]
  cases b <;> cases b' <;> cases c <;> rfl

/-! ## The compiled list -/

theorem Compilation.rows {d : Driver} {com : Com} {hw : Hw} {es : List TabEntry} {t : Tab}
    (h : Compilation d com hw es t) :
    ∃ rows, ((d.compile com hw es).2.tabs t).rows = applyRows (d.user.plan com es) rows := by
  have hneg : ¬ (edgxSchedGetFreeTab hw).1 < 0 := by rw [h.table]; exact t.idx_nonneg
  have hplan : d.compile com hw es = writePlan t.idx (d.user.plan com es) (edgxSchedGetFreeTab hw).2 := by
    cases d with
    | fscr => exact (edgxStPrepareConfig_eq com hw es).trans ((if_neg hneg).trans (by rw [h.table]; rfl))
    | fsc => exact (Fsc.edgxSchedWriteTable_eq com _ _ es).trans (by rw [h.table]; rfl)
  have hok := h.ok
  rw [hplan] at hok ⊢
  exact ⟨_, writePlan_rows t _ hok⟩

section

variable {d : Driver} {com : Com} {es : List TabEntry} {rows : Nat → Row}

theorem stored_mask {e : TabEntry} (h : Stored d.user com e) : e.gates &&& com.gateMask.setWidth 16 = e.gates := by
  cases d with
  | fscr | fsc => exact h.masked

/-- The rows say what the list says when its times fit and it ends low. -/
theorem compiled_iff_fits (hne : es ≠ []) (hs : ∀ e ∈ es, Stored d.user com e)
    (hrow : ∀ k e, es[k]? = some e →
      rows k = ⟨e.gates ||| com.holdBits (effLevel es k), d.rowCycles com es k⟩)
    (hlast : (rows es.length).gates = lastGates es) :
    Compiled d com es rows ↔ Fits d.user com es ∧ endLevel es = false := by
  have hcyc : ∀ k < es.length, (rows k).cycles = d.rowCycles com es k := fun k hk => by
    rw [hrow k _ (List.getElem?_eq_getElem hk)]
  have hend : effLevel es (es.length - 1) = endLevel es := effLevel_last (by omega)
  -- the terminal row has the gates of the last entry and a low level
  have hterm : ∀ e, es.getLast? = some e → (rows es.length).openGates com = e.gates := fun e he => by
    have hmem : e ∈ es := List.mem_of_getLast? he
    rw [Row.openGates, hlast, lastGates, he]
    exact stored_mask (hs e hmem)
  have hlow : (rows es.length).level com = false := by
    obtain ⟨e, hmem, _, hg⟩ := entryOf_last hne
    refine row_level ?_
    rw [hlast, hg]
    have h := hold_of_row (stored_mask (hs e hmem)) false
    have hz : e.gates ||| com.holdBits false = e.gates := BitVec.or_zero
    rwa [hz] at h
  constructor
  · intro h
    refine ⟨(fits_iff d hs hcyc).2 h.interval, ?_⟩
    rw [← hend, ← h.lastLevel, hlow]
  · rintro ⟨hf, hlo⟩
    refine ⟨fun i e hi => ?_, (fits_iff d hs hcyc).1 hf, fun i hi => ?_, hterm, ?_⟩
    · rw [Row.openGates, hrow i e hi]
      exact gates_of_row (stored_mask (hs e (List.mem_of_getElem? hi))) _
    · have hi' := List.getElem?_eq_getElem hi
      refine row_level ?_
      rw [hrow i _ hi']
      exact hold_of_row (stored_mask (hs _ (List.mem_of_getElem? hi'))) _
    · rw [hlow, hend, hlo]

end

/-- **Compiling and reading back.** The rows and every window read of the
running list say what the admin list says, exactly when the list is
representable. -/
theorem compiled_iff (d : Driver) (com : Com) {hw hw' : Hw} {es : List TabEntry} {t : Tab}
    (h : Compilation d com hw es t) {listLens : Int → Nat}
    (hrun : Running hw' listLens t ((d.compile com hw es).2.tabs t).rows es.length) {first : Nat}
    (hfirst : first < es.length) {buf : List TabEntry} (hbuf : buf ≠ []) (vars : BitVec 16 × BitVec 32) :
    Compiled d com es ((d.compile com hw es).2.tabs t).rows ∧
      ReadsBack es first buf.length (d.readOper com hw' listLens first buf vars) ↔
    Representable d com es first := by
  have hlen : es.length < 1024 := Nat.lt_of_le_of_lt h.length com.max_lt
  obtain ⟨old, hrows⟩ := h.rows
  rw [hrows] at hrun ⊢
  obtain ⟨hrow, hlast⟩ := driver_rows com d hlen old
  generalize applyRows (d.user.plan com es) old = rows at hrun hrow hlast ⊢
  have hcomp := compiled_iff_fits h.nonempty h.stored hrow hlast
  obtain ⟨hok, hlength, hget⟩ := readOper_get d hrun (Nat.le_of_lt hlen) hfirst buf vars
  generalize d.readOper com hw' listLens first buf vars = r at hok hlength hget ⊢
  have hpos : 0 < buf.length := List.length_pos_iff.2 hbuf
  -- the hold bits of each row are those of its effective level
  have hbits : ∀ j < es.length, (rows j).gates &&& com.hold = com.holdBits (effLevel es j) := fun j hj => by
    have hj' := List.getElem?_eq_getElem hj
    rw [hrow j _ hj']
    exact hold_of_row (stored_mask (h.stored _ (List.mem_of_getElem? hj'))) _
  have hslot : ∀ k, k < buf.length → first + k < es.length → r.2[k]? = some
      (readEntry com (d.readInterval com rows (first + k))
        (com.holdBits (if k = 0 then false else effLevel es (first + k - 1))) (rows (first + k))) := by
    intro k hk hj
    rw [hget k hk hj]
    split
    · rfl
    · rw [hbits _ (by omega)]
  constructor
  · rintro ⟨hc, hr⟩
    obtain ⟨hf, hlo⟩ := hcomp.1 hc
    refine ⟨hf, hlo, fun hb => ?_⟩
    -- a release at the start of the window reads as no change
    have hlev := hr.level 0 hpos hfirst
    rw [List.take_add_one, hslot 0 hpos hfirst] at hlev
    simp only [List.take_zero, List.nil_append, Option.toList_some, List.foldl_cons, List.foldl_nil, Nat.add_zero,
      if_true, level_readEntry (hbits first hfirst), hb] at hlev
    cases heff : effLevel es first with
    | true => rfl
    | false => simp [heff] at hlev
  · intro hrep
    refine ⟨hcomp.2 ⟨hrep.fits, hrep.ends⟩, hok, hlength, fun k e hk he => ?_, fun k hk hj => ?_⟩
    · have hj := (List.getElem?_eq_some_iff.1 he).1
      have hc := hcomp.2 ⟨hrep.fits, hrep.ends⟩
      refine ⟨_, hslot k hk hj, ?_, readInterval_eq d (hc.interval _ e he)⟩
      have hg : (rows (first + k)).gates &&& com.gateMask.setWidth 16 = e.gates := hc.gates _ e he
      simp only [readEntry, hg, TabEntry.gates]
      exact BitVec.setWidth_setWidth_of_le _ (by decide)
    · induction k with
      | zero =>
        rw [List.take_add_one, hslot 0 hk hj]
        simp only [List.take_zero, List.nil_append, Option.toList_some, List.foldl_cons, List.foldl_nil, Nat.add_zero,
          if_true, level_readEntry (hbits first hfirst)]
        cases heff : effLevel es first with
        | true => rfl
        | false =>
          rw [if_pos rfl]
          by_contra hb
          exact absurd ((hrep.edge (Bool.not_eq_false _ ▸ hb)).symm.trans heff) (by decide)
      | succ k ih =>
        rw [List.take_add_one, hslot (k + 1) hk hj, List.foldl_append, ih (by omega) (by omega)]
        simp only [Option.toList_some, List.foldl_cons, List.foldl_nil, Nat.add_one_ne_zero, if_false,
          level_readEntry (hbits _ hj)]
        split
        · rename_i heq
          exact heq
        · rfl

/-- The hardware of which table 0 is in use. -/
def Hw.running (hw : Hw) : Hw :=
  { hw with tabs := Function.update hw.tabs 0 { hw.tabs 0 with canUse := false, inUse := true } }

/-- A hold in the first of two intervals, read in one go. -/
theorem compiled_iff_holdFirst :
    let es : List TabEntry := [⟨3200, EDGX_SCHED_OP_HOLD_MAC, 0x0f⟩, ⟨6400, EDGX_SCHED_OP_REL_MAC, 0xf0⟩]
    let hw := (Driver.compile .fscr someCom {} es).2
    Compiled .fscr someCom es (hw.tabs 0).rows ∧
      ReadsBack es 0 2 (Driver.readOper .fscr someCom hw.running (fun _ => 2) 0 (List.replicate 2 edgxSchedUndefEntry)
        (0, 0)) := by
  intro es hw
  have hstored : ∀ e ∈ es, Stored .portGates someCom e := by
    intro e he
    simp only [es, List.mem_cons, List.not_mem_nil, or_false] at he
    rcases he with rfl | rfl
    · exact ⟨by decide, by decide⟩
    · exact ⟨by decide, by decide⟩
  have hcomp : Compilation .fscr someCom {} es 0 := ⟨by decide, by decide, hstored, rfl, rfl⟩
  have hxfers : hw.running.xfers = [] := rfl
  have hreads : Reads hw.running 0 (hw.tabs 0).rows := ⟨rfl, by rw [hxfers]; exact List.forall_mem_nil _⟩
  have hrun : Running hw.running (fun _ => 2) 0 (hw.tabs 0).rows es.length := ⟨rfl, hreads, rfl⟩
  have hfirst : 0 < es.length := by decide
  have hbuf : List.replicate 2 edgxSchedUndefEntry ≠ [] := by decide
  exact (compiled_iff .fscr someCom hcomp hrun hfirst hbuf (0, 0)).2 ⟨by decide, rfl, by decide⟩

/-- The list ends with a hold, and the terminal row is low. -/
theorem not_compiled_ends_high :
    let es : List TabEntry := [⟨3200, EDGX_SCHED_OP_SET_GSTATES, 0xff⟩, ⟨3200, EDGX_SCHED_OP_HOLD_MAC, 0x0f⟩]
    (∀ e ∈ es, Valid .portGates someCom e) ∧ (Driver.compile .fscr someCom {} es).1 = 0 ∧
      ¬ Compiled .fscr someCom es ((Driver.compile .fscr someCom {} es).2.tabs 0).rows :=
  ⟨by decide, rfl, fun h => absurd h.lastLevel (by decide)⟩

end TsnSwitch.Sched
