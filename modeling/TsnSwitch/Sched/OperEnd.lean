/-
The end of the operational list, and row reads that fail, as the readers over
edge_sched.c meet them.

The end of the list comes as an error of the row read. The loop skips the slot
it meets it at, and the padding starts with the next one. Any other error of a
row read ends the loop too, but not the call, which returns 0. Only the row
before the first one is read outside the loop. So a call does what it should
in two cases (`operReadOk_iff`): all rows are in the list and are read, or the
row before the first one is not.
-/
import TsnSwitch.Sched.OperChunks

namespace TsnSwitch.Sched

open Lib

/-- Entry `j` of the operational list: the undefined one behind its end. -/
def ListReader.entry (r : ListReader) (com : Com) (rows : Nat → Row) (len j : Nat) : TabEntry :=
  r.slot com rows len 0 (fun _ => edgxSchedUndefEntry) j

/-- Table `t` is in use and holds `rows`, for a list of `len` entries. -/
structure InUse (hw : Hw) (listLens : Int → Nat) (t : Tab) (rows : Nat → Row) (len : Nat) : Prop where
  used : (edgxSchedGetUsedTab hw).1 = t.idx
  rows : (hw.tabs t).rows = rows
  listLen : listLens t.idx = len

/-- How many rows a call reads, when none fails. -/
def rowReads (len first count : Nat) : Nat := if len < first then 0 else transfers len first count

/-- A call for `count` entries fills all slots when no row read fails, and
reports it when one does, whatever the buffer and the uninitialised variables
hold. -/
structure OperReadOk (r : ListReader) (com : Com) (hw : Hw) (listLens : Int → Nat) (rows : Nat → Row)
    (len first count : Nat) : Prop where
  fills : okFor hw.xfers (rowReads len first count) = true → ∀ buf, buf.length = count → ∀ vars,
    (r.read com hw listLens first buf vars).1 = (0, window (r.entry com rows len) first count)
  reports : okFor hw.xfers (rowReads len first count) = false → ∀ buf, buf.length = count → ∀ vars,
    (r.read com hw listLens first buf vars).1.1 < 0

/-- The rows are all in the list and are read, and the first one does not
follow one that holds, or the row before the first one is not read. -/
def ReadsInside (r : ListReader) (com : Com) (hw : Hw) (rows : Nat → Row) (len first count : Nat) : Prop :=
  if okFor hw.xfers (rowReads len first count) = true then
    first + count ≤ len ∧ (r = .port → first ≠ 0 → count ≠ 0 → (rows (first - 1)).level com = false)
  else first ≠ 0 ∧ okFor hw.xfers 1 = false

section Call

variable {com : Com} {hw : Hw} {listLens : Int → Nat} {t : Tab} {rows : Nat → Row} {len : Nat}
  (h : InUse hw listLens t rows len) (hlen : len ≤ com.maxEntryCnt)
include h

/-- Only the read of the row before the first one decides what a call
returns. -/
theorem ListReader.read_code (r : ListReader) {first : Nat} (hfirst : first ≤ len) (buf : List TabEntry)
    (vars : BitVec 16 × BitVec 32) :
    (r.read com hw listLens first buf vars).1.1 = if first ≠ 0 ∧ okFor hw.xfers 1 = false then -EBUSY else 0 := by
  have hh : Holds (edgxSchedGetUsedTab hw).2 t rows hw.xfers := Holds.getUsedTab ⟨h.rows, rfl⟩
  simp only [r.read_eq, h.used, h.listLen, if_neg t.idx_nonneg]
  by_cases h0 : first = 0
  · rw [if_pos h0, if_neg (fun hc => hc.1 h0)]
  · obtain ⟨hw', hread, -⟩ := hh.readRow (first - 1)
    have hne : (-EBUSY : Int) ≠ 0 := by decide
    cases hok : okFor hw.xfers 1 with
    | true =>
      rw [hok] at hread
      simp [h0, edgxSchedReadEntry, hread, show ¬ len ≤ first - 1 by omega]
    | false =>
      rw [hok] at hread
      simp [h0, edgxSchedReadEntry, hread, show ¬ len ≤ first - 1 by omega, hne]

omit h in
/-- A row read can fail only where the list is. -/
theorem first_le_of_failed {first count : Nat} (hok : okFor hw.xfers (rowReads len first count) = false) :
    first ≤ len := by
  by_contra hlt
  rw [rowReads, if_pos (Nat.not_le.1 hlt)] at hok
  exact absurd hok (by simp [okFor])

include hlen

/-- The filled buffer, slot by slot. -/
theorem ListReader.read_entries_iff (r : ListReader) {first : Nat} (hfirst : first ≤ len) {buf : List TabEntry}
    {b : Nat → TabEntry} (hb : buf = window b first buf.length)
    (hok : okFor hw.xfers (rowReads len first buf.length) = true) (vars : BitVec 16 × BitVec 32) :
    (r.read com hw listLens first buf vars).1 = (0, window (r.entry com rows len) first buf.length) ↔
      ∀ i < buf.length, r.slot com rows len first b (first + i) = r.entry com rows len (first + i) := by
  have hlen' : len ≤ 1024 := hlen.trans com.max_lt.le
  rw [rowReads, if_neg (Nat.not_lt.2 hfirst)] at hok
  rw [r.read_window com hlen' h.used h.rows h.listLen hfirst hb hok, Prod.mk.injEq, and_iff_right rfl,
    window_eq_window_iff]

omit h hlen in
/-- Inside the list only the hold level of the row before can differ. -/
theorem ListReader.slot_entry_iff (r : ListReader) (b : Nat → TabEntry) {first j : Nat} (hj : first ≤ j) (hlt : j < len) :
    r.slot com rows len first b j = r.entry com rows len j ↔
      (r = .port → j = first → first ≠ 0 → (rows (first - 1)).level com = false) := by
  have hentry : r.entry com rows len j = r.slot com rows len 0 b j := by
    rw [ListReader.entry, ListReader.slot, ListReader.slot, if_pos hlt, if_pos hlt]
  rw [hentry]
  refine ((OperReader.shared r).slot_eq_iff com rows len b (Nat.zero_le first) hj).trans ?_
  constructor
  · intro hlow hr hjf h0
    rw [← hjf]
    exact hlow (by rw [hr]; decide) hjf (Nat.pos_of_ne_zero h0) hlt
  · intro hlow hr hjf h0 _
    rw [hjf]
    refine hlow ?_ hjf h0.ne'
    cases r with
    | port => rfl
    | stream => exact absurd rfl hr

/-- **A call fills its slots and reports failed row reads** just when it stays
in the list and no row read fails, or it is the one before the loop that
fails. -/
theorem operReadOk_iff (r : ListReader) (first count : Nat) :
    OperReadOk r com hw listLens rows len first count ↔ ReadsInside r com hw rows len first count := by
  unfold ReadsInside
  cases hok : okFor hw.xfers (rowReads len first count) with
  | true =>
    rw [if_pos rfl]
    constructor
    · intro hr
      -- a buffer without the undefined entry
      obtain ⟨buf, hcount, hbuf⟩ : ∃ buf, buf.length = count ∧ buf = window (fun _ => (⟨1, 0, 0⟩ : TabEntry)) first buf.length :=
        ⟨window _ first count, window_length count, by rw [window_length]⟩
      subst hcount
      have hfill := hr.fills hok buf rfl (0, 0)
      have hfirst : first ≤ len := by
        by_contra hlt
        rw [r.read_beyond com h.used h.listLen (Nat.not_le.1 hlt)] at hfill
        exact absurd (congrArg Prod.fst hfill) (by decide : (-ENOENT : Int) ≠ 0)
      have hslots := (ListReader.read_entries_iff h hlen r hfirst hbuf hok (0, 0)).1 hfill
      refine ⟨?_, fun hr h0 hc => ?_⟩
      · by_contra hend
        have hskip := hslots (len - first) (by omega)
        have hj : first + (len - first) = len := by omega
        simp only [hj, ListReader.entry, ListReader.slot, Nat.lt_irrefl, if_false, if_true] at hskip
        exact absurd hskip (by decide)
      · have hlt : first < len := by
          by_contra hge
          have hskip := hslots 0 (Nat.pos_of_ne_zero hc)
          have hj : first + 0 = len := by omega
          simp only [hj, ListReader.entry, ListReader.slot, Nat.lt_irrefl, if_false, if_true] at hskip
          exact absurd hskip (by decide)
        exact (r.slot_entry_iff _ (Nat.le_refl first) hlt).1 (hslots 0 (Nat.pos_of_ne_zero hc)) hr rfl h0
    · rintro ⟨hend, hlow⟩
      refine ⟨fun _ buf hcount vars => ?_, fun hbad => absurd (hok.symm.trans hbad) (by decide)⟩
      subst hcount
      refine (ListReader.read_entries_iff h hlen r (by omega) (self_window edgxSchedUndefEntry first buf) hok vars).2 fun i hi => ?_
      exact (r.slot_entry_iff _ (Nat.le_add_right first i) (by omega)).2 fun hr _ h0 => hlow hr h0 (by omega)
  | false =>
    rw [if_neg Bool.false_ne_true]
    have hfirst := first_le_of_failed hok
    have hneg : (-EBUSY : Int) < 0 := by decide
    constructor
    · intro hr
      have hcode := hr.reports hok (List.replicate count edgxSchedUndefEntry) List.length_replicate (0, 0)
      rw [ListReader.read_code h r hfirst] at hcode
      by_contra hc
      rw [if_neg hc] at hcode
      exact absurd hcode (Int.lt_irrefl 0)
    · refine fun hc => ⟨fun hgood => absurd (hok.symm.trans hgood) (by decide), fun _ buf _ vars => ?_⟩
      rw [ListReader.read_code h r hfirst, if_pos hc]
      exact hneg

end Call

/-- The whole list and nothing behind it. -/
theorem operReadOk_iff_whole :
    OperReadOk .stream someCom holdHw (fun _ => 3) (holdHw.tabs 0).rows 3 0 3 :=
  (operReadOk_iff ⟨rfl, rfl, rfl⟩ (by decide) .stream 0 3).2 (by
    rw [ReadsInside, if_pos (by decide)]
    exact ⟨by decide, fun hr => nomatch hr⟩)

/-- The slot behind a list of three entries is left as it was, and a row that
cannot be read is not reported. -/
theorem not_operReadOk_end :
    ¬ OperReadOk .stream someCom holdHw (fun _ => 3) (holdHw.tabs 0).rows 3 0 4 ∧
      ¬ OperReadOk .stream someCom { holdHw with xfers := [.err false] } (fun _ => 3) (holdHw.tabs 0).rows 3 0 1 := by
  constructor
  · intro h
    exact absurd (h.fills (by decide) (List.replicate 4 ⟨1, 0, 0⟩) rfl (0, 0)) (by decide)
  · intro h
    exact absurd (h.reports (by decide) [⟨1, 0, 0⟩] rfl (0, 0)) (by decide)

end TsnSwitch.Sched
