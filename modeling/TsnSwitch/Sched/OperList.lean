/-
Reading the operational list, in one call or in chunks: the readers of
edge_st_fscr.c, edge_psfp.c and edge_st_fsc.c.

An entry is decoded from its row and what the row before it says: the time it
ends, and whether it holds. Each call starts with a low hold level, so a
chunk that starts behind a holding row reads its first operation differently
from a read of the whole (`chunkedSame_iff`). A chunk of the two readers over
edge_sched.c must also start in the list, or right behind it.
-/
import TsnSwitch.Lib.Window
import TsnSwitch.Sched.ReadBack

namespace TsnSwitch.Sched

open Lib

/-! ## Stream gates -/

def PSFP_GT_OP_SET_GSTATES_IPV : BitVec 8 := 0x00

/-- The loop of `edgx_psfp_gt_get_oper_ctrl_list` from slot `i` on, as
`edgxStReadRows`. -/
def edgxPsfpGtReadRows (com : Com) (listLen : Nat) (tabIdx : Int) (first : Nat) :
    List TabEntry → Nat → BitVec 16 × BitVec 32 → BitVec 32 → Hw → List TabEntry × Hw
  | [], _, _, _, hw => ([], hw)
  | slot :: buf, i, vars, prevTimeNs, hw =>
    let ((ret, gateStates, timeNs), hw) := edgxSchedReadEntry com hw listLen tabIdx (first + i) vars
    if ret = -ENOENT then (slot :: buf.map fun _ => edgxSchedUndefEntry, hw)
    else
      let e : TabEntry := ⟨timeNs - prevTimeNs, PSFP_GT_OP_SET_GSTATES_IPV, gateStates.setWidth 8⟩
      if ret ≠ 0 then (e :: buf.map fun _ => edgxSchedUndefEntry, hw)
      else
        let (es, hw) := edgxPsfpGtReadRows com listLen tabIdx first buf (i + 1) (gateStates, timeNs) timeNs hw
        (e :: es, hw)

def edgxPsfpGtGetOperCtrlList (com : Com) (hw : Hw) (listLens : Int → Nat) (first : Nat) (buf : List TabEntry)
    (vars : BitVec 16 × BitVec 32) : (Int × List TabEntry) × Hw :=
  let (tabIdx, hw) := edgxSchedGetUsedTab hw
  if tabIdx < 0 then ((tabIdx, buf), hw)
  else if first = 0 then
    let (es, hw) := edgxPsfpGtReadRows com (listLens tabIdx) tabIdx first buf 0 vars 0 hw
    ((0, es), hw)
  else
    let ((ret, gateStates, prevTimeNs), hw) :=
      edgxSchedReadEntry com hw (listLens tabIdx) tabIdx (first - 1) (vars.1, 0)
    if ret ≠ 0 then ((ret, buf), hw)
    else
      let (es, hw) :=
        edgxPsfpGtReadRows com (listLens tabIdx) tabIdx first buf 0 (gateStates, vars.2) prevTimeNs hw
      ((0, es), hw)

/-! ## The two readers over edge_sched.c -/

/-- They differ in how a row is decoded. -/
inductive ListReader where
  | port
  | stream
  deriving DecidableEq

/-- The entry decoded from a row, with the hold bits and the time of the row
before. -/
def ListReader.decode (r : ListReader) (com : Com) (hold : BitVec 16) (prevTimeNs : BitVec 32)
    (gateStates : BitVec 16) (timeNs : BitVec 32) : TabEntry :=
  match r with
  | .port => ⟨timeNs - prevTimeNs, readOp hold (gateStates &&& com.hold),
      (gateStates &&& com.gateMask.setWidth 16).setWidth 8⟩
  | .stream => ⟨timeNs - prevTimeNs, PSFP_GT_OP_SET_GSTATES_IPV, gateStates.setWidth 8⟩

/-- The loop of both readers. -/
def ListReader.loop (r : ListReader) (com : Com) (listLen : Nat) (tabIdx : Int) (first : Nat) :
    List TabEntry → Nat → BitVec 16 × BitVec 32 → BitVec 32 → BitVec 16 → Hw → List TabEntry × Hw
  | [], _, _, _, _, hw => ([], hw)
  | slot :: buf, i, vars, prevTimeNs, hold, hw =>
    let ((ret, gateStates, timeNs), hw) := edgxSchedReadEntry com hw listLen tabIdx (first + i) vars
    if ret = -ENOENT then (slot :: buf.map fun _ => edgxSchedUndefEntry, hw)
    else
      let e := r.decode com hold prevTimeNs gateStates timeNs
      if ret ≠ 0 then (e :: buf.map fun _ => edgxSchedUndefEntry, hw)
      else
        let (es, hw) := r.loop com listLen tabIdx first buf (i + 1) (gateStates, timeNs) timeNs
          (gateStates &&& com.hold) hw
        (e :: es, hw)

/-- A call of a reader. -/
def ListReader.read (r : ListReader) (com : Com) (hw : Hw) (listLens : Int → Nat) (first : Nat) (buf : List TabEntry)
    (vars : BitVec 16 × BitVec 32) : (Int × List TabEntry) × Hw :=
  match r with
  | .port => edgxStGetOperCtrlList com hw listLens first buf vars
  | .stream => edgxPsfpGtGetOperCtrlList com hw listLens first buf vars

theorem edgxStReadRows_eq (com : Com) (listLen : Nat) (tabIdx : Int) (first : Nat) (buf : List TabEntry) (i : Nat)
    (vars : BitVec 16 × BitVec 32) (prev : BitVec 32) (hold : BitVec 16) (hw : Hw) :
    edgxStReadRows com listLen tabIdx first buf i vars prev hold hw =
      ListReader.port.loop com listLen tabIdx first buf i vars prev hold hw := by
  induction buf generalizing i vars prev hold hw with
  | nil => rfl
  | cons slot buf ih => simp only [edgxStReadRows, ListReader.loop, ih, ListReader.decode]

theorem edgxPsfpGtReadRows_eq (com : Com) (listLen : Nat) (tabIdx : Int) (first : Nat) (buf : List TabEntry) (i : Nat)
    (vars : BitVec 16 × BitVec 32) (prev : BitVec 32) (hold : BitVec 16) (hw : Hw) :
    edgxPsfpGtReadRows com listLen tabIdx first buf i vars prev hw =
      ListReader.stream.loop com listLen tabIdx first buf i vars prev hold hw := by
  induction buf generalizing i vars prev hold hw with
  | nil => rfl
  | cons slot buf ih =>
    have hrest := fun vars' prev' hw' =>
      ih (i + 1) vars' prev' ((edgxSchedReadEntry com hw listLen tabIdx (first + i) vars).1.2.1 &&& com.hold) hw'
    simp only [edgxPsfpGtReadRows, ListReader.loop, ListReader.decode, hrest]

/-- A call is the loop, with the time of the row before. -/
theorem ListReader.read_eq (r : ListReader) (com : Com) (hw : Hw) (listLens : Int → Nat) (first : Nat)
    (buf : List TabEntry) (vars : BitVec 16 × BitVec 32) :
    r.read com hw listLens first buf vars =
      let u := edgxSchedGetUsedTab hw
      let p := edgxSchedReadEntry com u.2 (listLens u.1) u.1 (first - 1) (vars.1, 0)
      if u.1 < 0 then ((u.1, buf), u.2)
      else if first = 0 then
        let l := r.loop com (listLens u.1) u.1 first buf 0 vars 0 0 u.2
        ((0, l.1), l.2)
      else if p.1.1 ≠ 0 then ((p.1.1, buf), p.2)
      else
        let l := r.loop com (listLens u.1) u.1 first buf 0 (p.1.2.1, vars.2) p.1.2.2 0 p.2
        ((0, l.1), l.2) := by
  cases r with
  | port => simp only [ListReader.read, edgxStGetOperCtrlList, edgxStReadRows_eq]
  | stream => simp only [ListReader.read, edgxPsfpGtGetOperCtrlList, edgxPsfpGtReadRows_eq _ _ _ _ _ _ _ _ 0]

/-! ## What a call reads -/

def Xfer.isOk : Xfer → Bool
  | .ok => true
  | .err _ => false

/-- Table `t` holds `rows`, and the next transfers end as `xs` says. -/
structure Holds (hw : Hw) (t : Tab) (rows : Nat → Row) (xs : List Xfer) : Prop where
  rows : (hw.tabs t).rows = rows
  xfers : hw.xfers = xs

/-- The next `n` transfers succeed. -/
def okFor (xs : List Xfer) (n : Nat) : Bool := (xs.take n).all Xfer.isOk

theorem okFor_succ (xs : List Xfer) (n : Nat) : okFor xs (n + 1) = (okFor xs 1 && okFor xs.tail n) := by
  cases xs with
  | nil => simp [okFor]
  | cons x xs => simp [okFor]

theorem okFor_of_forall {xs : List Xfer} (h : ∀ x ∈ xs, x = .ok) (n : Nat) : okFor xs n = true :=
  List.all_eq_true.2 fun x hx => by rw [h x (List.mem_of_mem_take hx)]; rfl

section Holds

variable {hw : Hw} {t : Tab} {rows : Nat → Row} {xs : List Xfer}

theorem Reads.holds (h : Reads hw t rows) : Holds hw t rows hw.xfers := ⟨h.rows, rfl⟩

theorem Holds.tick (h : Holds hw t rows xs) : Holds hw.tick t rows xs :=
  ⟨(tick_rows hw t).trans h.rows, (tick_xfers hw).trans h.xfers⟩

theorem Holds.getUsedTab (h : Holds hw t rows xs) : Holds (edgxSchedGetUsedTab hw).2 t rows xs := by
  unfold edgxSchedGetUsedTab Hw.rdTblGen
  dsimp only
  split
  · exact h.tick
  · split <;> exact h.tick.tick

/-- A row is read unless the next transfer fails. -/
theorem Holds.readRow (h : Holds hw t rows xs) (i : Nat) :
    ∃ hw', hw.readRow t.idx i = (if okFor xs 1 then some (rows (cmdRow i)) else none, hw') ∧ Holds hw' t rows xs.tail := by
  obtain ⟨hrows, hxfers⟩ := h.tick
  simp only [Hw.readRow, Hw.nextXfer, hxfers]
  rcases xs with _ | ⟨_ | done, xs⟩
  · exact ⟨hw.tick, by simp [hrows, okFor], hrows, hxfers⟩
  · exact ⟨{ hw.tick with xfers := xs }, by simp [hrows, okFor, Xfer.isOk], hrows, rfl⟩
  · exact ⟨{ hw.tick with xfers := xs }, by simp [okFor, Xfer.isOk], hrows, rfl⟩

end Holds

/-- The time of the row before. -/
def prevNs (com : Com) (rows : Nat → Row) (j : Nat) : BitVec 32 := if j = 0 then 0 else rowNs com (rows (j - 1))

/-- The hold bits of the row before, where they are kept: a call that starts
at `start` starts with none. -/
def prevHold (com : Com) (rows : Nat → Row) (start j : Nat) : BitVec 16 :=
  if j = start then 0 else (rows (j - 1)).gates &&& com.hold

/-- What a call that starts at `start` leaves for entry `j`: the slot right
behind the list, whose old content is `b`, is skipped. -/
def ListReader.slot (r : ListReader) (com : Com) (rows : Nat → Row) (len start : Nat) (b : Nat → TabEntry) (j : Nat) :
    TabEntry :=
  if j < len then r.decode com (prevHold com rows start j) (prevNs com rows j) (rows j).gates (rowNs com (rows j))
  else if j = len then b j
  else edgxSchedUndefEntry

theorem map_const_eq_window {l : List TabEntry} {f : Nat → TabEntry} {first : Nat} {e : TabEntry}
    (h : ∀ i < l.length, f (first + i) = e) : (l.map fun _ => e) = window f first l.length := by
  refine eq_window_iff.2 ⟨List.length_map _, fun i hi => ?_⟩
  rw [List.getElem?_map, List.getElem?_eq_getElem hi, h i hi]
  rfl

section Calls

variable (com : Com) {t : Tab} {rows : Nat → Row} {len : Nat}

/-- The loop, as long as the transfers succeed. -/
theorem ListReader.loop_window (r : ListReader) (hlen : len ≤ 1024) (start first : Nat) {hw : Hw} {xs : List Xfer}
    (h : Holds hw t rows xs) {i : Nat} {buf : List TabEntry} {b : Nat → TabEntry}
    (hb : buf = window b (first + i) buf.length) (hle : first + i ≤ len)
    (hok : okFor xs (min buf.length (len - (first + i))) = true) (hstart : start ≤ first + i)
    (vars : BitVec 16 × BitVec 32) :
    (r.loop com len t.idx first buf i vars (prevNs com rows (first + i)) (prevHold com rows start (first + i)) hw).1 =
      window (r.slot com rows len start b) (first + i) buf.length := by
  induction buf generalizing i xs vars hw with
  | nil => rfl
  | cons slot buf ih =>
    rw [List.length_cons, window_succ, List.cons.injEq] at hb
    rw [List.length_cons, window_succ]
    by_cases hend : first + i = len
    · have hskip : r.slot com rows len start b (first + i) = slot := by
        rw [ListReader.slot, if_neg (by omega), if_pos hend, ← hb.1]
      simp only [ListReader.loop, edgxSchedReadEntry, if_pos (show first + i ≥ len by omega), if_true, hskip]
      refine congrArg _ (map_const_eq_window fun k hk => ?_)
      rw [ListReader.slot, if_neg (by omega), if_neg (by omega)]
    · have hmin : min (buf.length + 1) (len - (first + i)) = min buf.length (len - (first + (i + 1))) + 1 := by omega
      rw [List.length_cons, hmin, okFor_succ, Bool.and_eq_true] at hok
      obtain ⟨hw', hread, h'⟩ := h.readRow (first + i)
      rw [cmdRow_of_lt (by omega), if_pos hok.1] at hread
      have hne : ¬ (0 : Int) = -ENOENT := by decide
      have hdecode : r.slot com rows len start b (first + i) = r.decode com (prevHold com rows start (first + i))
          (prevNs com rows (first + i)) (rows (first + i)).gates (rowNs com (rows (first + i))) := if_pos (by omega)
      simp only [ListReader.loop, edgxSchedReadEntry, if_neg (show ¬ first + i ≥ len by omega), hread, if_neg hne, ne_eq,
        not_true_eq_false, if_false, hdecode]
      refine congrArg _ ?_
      have hprev : prevNs com rows (first + (i + 1)) = rowNs com (rows (first + i)) := if_neg (by omega)
      have hhold : prevHold com rows start (first + (i + 1)) = (rows (first + i)).gates &&& com.hold := if_neg (by omega)
      have hrest := ih h' hb.2 (by omega) hok.2 (by omega) ((rows (first + i)).gates, rowNs com (rows (first + i)))
      rw [hprev, hhold] at hrest
      exact hrest

/-- How many rows a call reads. -/
def transfers (len first count : Nat) : Nat := (if first = 0 then 0 else 1) + min count (len - first)

/-- **A call that starts in the list or right behind it**, as long as its
transfers succeed. -/
theorem ListReader.read_window (r : ListReader) (hlen : len ≤ 1024) {hw : Hw} {listLens : Int → Nat}
    (hused : (edgxSchedGetUsedTab hw).1 = t.idx) (hrows : (hw.tabs t).rows = rows) (hlist : listLens t.idx = len)
    {first : Nat} (hfirst : first ≤ len) {buf : List TabEntry} {b : Nat → TabEntry} (hb : buf = window b first buf.length)
    (hok : okFor hw.xfers (transfers len first buf.length) = true) (vars : BitVec 16 × BitVec 32) :
    (r.read com hw listLens first buf vars).1 = (0, window (r.slot com rows len first b) first buf.length) := by
  have hh : Holds (edgxSchedGetUsedTab hw).2 t rows hw.xfers := Holds.getUsedTab ⟨hrows, rfl⟩
  simp only [r.read_eq, hused, hlist, if_neg t.idx_nonneg]
  by_cases h0 : first = 0
  · subst h0
    rw [transfers, if_pos rfl, Nat.zero_add] at hok
    have hloop := r.loop_window com hlen 0 0 hh (i := 0) hb hfirst hok (Nat.le_refl 0) vars
    rw [if_pos rfl]
    exact congrArg _ hloop
  · rw [transfers, if_neg h0, Nat.add_comm, okFor_succ, Bool.and_eq_true] at hok
    obtain ⟨hw', hread, h'⟩ := hh.readRow (first - 1)
    rw [cmdRow_of_lt (by omega), if_pos hok.1] at hread
    have hloop := r.loop_window com hlen first first h' (i := 0) hb hfirst hok.2 (Nat.le_refl first)
      ((rows (first - 1)).gates, vars.2)
    have hprev : prevNs com rows (first + 0) = rowNs com (rows (first - 1)) := if_neg h0
    have hhold : prevHold com rows first (first + 0) = 0 := if_pos rfl
    rw [hprev, hhold] at hloop
    simp only [if_neg h0, edgxSchedReadEntry, if_neg (show ¬ first - 1 ≥ len by omega), hread, ne_eq, not_true_eq_false,
      if_false]
    exact congrArg _ hloop

/-- A call that starts further behind the list. -/
theorem ListReader.read_beyond (r : ListReader) {hw : Hw} {listLens : Int → Nat}
    (hused : (edgxSchedGetUsedTab hw).1 = t.idx) (hlist : listLens t.idx = len) {first : Nat} (hfirst : len < first)
    (buf : List TabEntry) (vars : BitVec 16 × BitVec 32) :
    (r.read com hw listLens first buf vars).1 = (-ENOENT, buf) := by
  have hne : (-ENOENT : Int) ≠ 0 := by decide
  simp only [r.read_eq, hused, hlist, if_neg t.idx_nonneg, if_neg (show ¬ first = 0 by omega), edgxSchedReadEntry,
    if_pos (show first - 1 ≥ len by omega), if_pos hne]

end Calls

end TsnSwitch.Sched
