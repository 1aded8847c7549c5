/-
The row writes of a configuration change as a list of (index, row) pairs, its
plan. The loops of the three compilers each write a plan row by row, and stop
at the first failing transfer (`prepareConfig_eq` and its siblings). On a
table that is free the rows written are then those of a prefix of the plan,
whatever the hardware does meanwhile (`writePlan_free`).
-/
import TsnSwitch.Sched.Events
import TsnSwitch.Sched.Config

namespace TsnSwitch.Sched

/-! ## Plans -/

abbrev Plan := List (Nat × Row)

theorem cmdRow_of_lt {i : Nat} (h : i < 1024) : cmdRow i = i := Nat.mod_eq_of_lt h

/-- Write the rows of a plan in order, up to the first error. -/
def writePlan (idx : Int) : Plan → Hw → Int × Hw
  | [], hw => (0, hw)
  | (i, r) :: ps, hw =>
    let (ret, hw) := hw.writeRow idx i r
    if ret = 0 then writePlan idx ps hw else (ret, hw)

/-- The rows after the writes of a plan. -/
def applyRows (plan : Plan) (rows : Nat → Row) : Nat → Row :=
  plan.foldl (fun rows p => Function.update rows (cmdRow p.1) p.2) rows

theorem writePlan_append (idx : Int) (p q : Plan) (hw : Hw) :
    writePlan idx (p ++ q) hw =
      if (writePlan idx p hw).1 = 0 then writePlan idx q (writePlan idx p hw).2 else writePlan idx p hw := by
  induction p generalizing hw with
  | nil => simp [writePlan]
  | cons x ps ih =>
    simp only [List.cons_append, writePlan]
    split
    · exact ih _
    · rfl

theorem writePlan_singleton (idx : Int) (i : Nat) (r : Row) (hw : Hw) :
    writePlan idx [(i, r)] hw = hw.writeRow idx i r := by
  simp only [writePlan]
  split
  · rename_i h
    exact Prod.ext h.symm rfl
  · rfl

@[simp] theorem applyRows_nil (rows : Nat → Row) : applyRows [] rows = rows := rfl

theorem applyRows_append (p q : Plan) (rows : Nat → Row) :
    applyRows (p ++ q) rows = applyRows q (applyRows p rows) := by
  simp [applyRows, List.foldl_append]

/-- A row is as before, or one the plan wrote there. -/
theorem applyRows_cases (plan : Plan) (rows : Nat → Row) (j : Nat) :
    applyRows plan rows j = rows j ∨ ∃ p ∈ plan, cmdRow p.1 = j ∧ applyRows plan rows j = p.2 := by
  induction plan generalizing rows with
  | nil => exact .inl rfl
  | cons p ps ih =>
    rcases ih (Function.update rows (cmdRow p.1) p.2) with h | ⟨q, hq, hj, h⟩
    · by_cases hj : j = cmdRow p.1
      · subst hj
        exact .inr ⟨p, List.mem_cons_self, rfl, h.trans (Function.update_self ..)⟩
      · exact .inl (h.trans (Function.update_of_ne hj ..))
    · exact .inr ⟨q, List.mem_cons_of_mem p hq, hj, h⟩

/-- A row the plan writes has one of the plan's values. -/
theorem applyRows_written {plan : Plan} (rows : Nat → Row) {j : Nat} (h : ∃ p ∈ plan, cmdRow p.1 = j) :
    ∃ p ∈ plan, cmdRow p.1 = j ∧ applyRows plan rows j = p.2 := by
  induction plan generalizing rows with
  | nil => obtain ⟨p, hp, _⟩ := h; cases hp
  | cons p ps ih =>
    by_cases hps : ∃ q ∈ ps, cmdRow q.1 = j
    · obtain ⟨q, hq, hj, heq⟩ := ih (Function.update rows (cmdRow p.1) p.2) hps
      exact ⟨q, List.mem_cons_of_mem p hq, hj, heq⟩
    · -- `p` is the last write of the row
      obtain ⟨q, hq, hj⟩ := h
      rcases List.mem_cons.1 hq with rfl | hq
      · refine ⟨q, List.mem_cons_self, hj, ?_⟩
        rcases applyRows_cases ps (Function.update rows (cmdRow q.1) q.2) j with h | ⟨r, hr, hrj, _⟩
        · exact h.trans (by rw [hj, Function.update_self])
        · exact absurd ⟨r, hr, hrj⟩ hps
      · exact absurd ⟨q, hq, hj⟩ hps

/-- The hardware of which table `t` got the rows `rows`. -/
def Hw.withRows (hw : Hw) (t : Tab) (rows : Nat → Row) : Tab → HwTab :=
  Function.update hw.tabs t { hw.tabs t with rows }

/-- A row write to a free table: the row is written, or the transfer failed
and it may be. -/
theorem writeRow_free {hw : Hw} {t : Tab} (h : Free hw t) (i : Nat) (r : Row) :
    ∃ done : Bool, let w := hw.writeRow t.idx i r
      w.2.tabs = hw.withRows t (if done then Function.update (hw.tabs t).rows (cmdRow i) r else (hw.tabs t).rows) ∧
      w.2.wroteInUse = hw.wroteInUse ∧ w.2.stray = hw.stray ∧ (w.1 = 0 → done = true) := by
  have hsame : hw.tabs = hw.withRows t (hw.tabs t).rows := (Function.update_eq_self ..).symm
  -- the transfer queue is not part of the tables
  obtain ⟨x, xs, hx⟩ := nextXfer_eq hw.tick
  have hput : ({ hw.tick with xfers := xs }.setRow t (cmdRow i) r).tabs =
      hw.withRows t (Function.update (hw.tabs t).rows (cmdRow i) r) := by
    simp only [Hw.setRow, Hw.withRows, h.tick]
  have hwrote : ({ hw.tick with xfers := xs }.setRow t (cmdRow i) r).wroteInUse = hw.wroteInUse := by
    simp only [Hw.setRow, h.tick, h.free, Bool.or_false, tick_wroteInUse]
  simp only [Hw.writeRow, hx, cmdTab_idx]
  cases x with
  | ok => exact ⟨true, hput, hwrote, tick_stray hw, fun _ => rfl⟩
  | err done =>
    cases done with
    | true => exact ⟨true, hput, hwrote, tick_stray hw, fun _ => rfl⟩
    | false => exact ⟨false, h.tick.trans hsame, tick_wroteInUse hw, tick_stray hw,
        fun h => absurd h (by decide : -EBUSY ≠ 0)⟩

/-- **Writing a plan to a free table.** The rows are those of a prefix of the
plan, of all of it on success; nothing else is touched. -/
theorem writePlan_free {hw : Hw} {t : Tab} (h : Free hw t) (plan : Plan) :
    let w := writePlan t.idx plan hw
    ∃ done, done <+: plan ∧ w.2.tabs = hw.withRows t (applyRows done (hw.tabs t).rows) ∧
      w.2.wroteInUse = hw.wroteInUse ∧ w.2.stray = hw.stray ∧ (w.1 = 0 → done = plan) := by
  induction plan generalizing hw with
  | nil => exact ⟨[], List.nil_prefix, (Function.update_eq_self ..).symm, rfl, rfl, fun _ => rfl⟩
  | cons p ps ih =>
    obtain ⟨i, r⟩ := p
    obtain ⟨done, htabs, hwrote, hstray, hret⟩ := writeRow_free h i r
    simp only [writePlan]
    split
    · rename_i h0
      rw [hret h0, if_pos rfl] at htabs
      have hfree : Free (hw.writeRow t.idx i r).2 t := by
        refine ⟨fun u => ?_, ?_⟩ <;> rw [htabs, Hw.withRows]
        · by_cases hu : u = t
          · subst hu; simpa using h.noCan u
          · simpa [hu] using h.noCan u
        · simpa using h.free
      obtain ⟨ds, hpre, htabs', hwrote', hstray', hret'⟩ := ih hfree
      refine ⟨(i, r) :: ds, List.cons_prefix_cons.2 ⟨rfl, hpre⟩, ?_, hwrote'.trans hwrote,
        hstray'.trans hstray, fun h => by rw [hret' h]⟩
      rw [htabs', Hw.withRows, htabs, Hw.withRows, Hw.withRows, Function.update_self, Function.update_idem]
      rfl
    · rename_i h0
      cases done with
      | true =>
        exact ⟨[(i, r)], List.cons_prefix_cons.2 ⟨rfl, List.nil_prefix⟩, htabs, hwrote, hstray,
          fun h => absurd h h0⟩
      | false => exact ⟨[], List.nil_prefix, htabs, hwrote, hstray, fun h => absurd h h0⟩

/-! ## The plan of a loop over entries -/

section Scan

variable {σ : Type} (next : σ → TabEntry → σ) (row : σ → TabEntry → Row)

/-- One row for each entry, from the loop state after it. -/
def scanPlan : List TabEntry → Nat → σ → Plan
  | [], _, _ => []
  | e :: es, i, s => (i, row (next s e) e) :: scanPlan es (i + 1) (next s e)

/-- Such a loop: it stops at the first error, and returns the code, the next
index and the loop state. -/
def rowLoop (idx : Int) : List TabEntry → Nat → σ → Hw → (Int × Nat × σ) × Hw
  | [], i, s, hw => ((0, i, s), hw)
  | e :: es, i, s, hw =>
    let (ret, hw) := hw.writeRow idx i (row (next s e) e)
    if ret = 0 then rowLoop idx es (i + 1) (next s e) hw else ((ret, i + 1, next s e), hw)

variable {next row}

variable (next row) in
/-- A loop writes its plan. -/
theorem rowLoop_eq (idx : Int) (es : List TabEntry) (i : Nat) (s : σ) (hw : Hw) :
    let r := rowLoop next row idx es i s hw
    let w := writePlan idx (scanPlan next row es i s) hw
    r.1.1 = w.1 ∧ r.2 = w.2 ∧ (w.1 = 0 → r.1.2 = (i + es.length, es.foldl next s)) := by
  induction es generalizing i s hw with
  | nil => exact ⟨rfl, rfl, fun _ => rfl⟩
  | cons e es ih =>
    simp only [rowLoop, scanPlan, writePlan]
    obtain ⟨ret, hw'⟩ := hw.writeRow idx i (row (next s e) e)
    by_cases h : ret = 0
    · simp only [if_pos h]
      obtain ⟨h1, h2, h3⟩ := ih (i + 1) (next s e) hw'
      refine ⟨h1, h2, fun h => (h3 h).trans ?_⟩
      rw [List.length_cons, List.foldl_cons, Nat.add_assoc, Nat.add_comm 1]
    · simp only [if_neg h]
      exact ⟨trivial, trivial, fun h' => absurd h' h⟩

/-- What such a loop writes at index `i + k`. -/
theorem mem_scanPlan {es : List TabEntry} {i : Nat} {s : σ} {p : Nat × Row} (h : p ∈ scanPlan next row es i s) :
    ∃ k e, es[k]? = some e ∧ p = (i + k, row ((es.take (k + 1)).foldl next s) e) := by
  induction es generalizing i s with
  | nil => cases h
  | cons e es ih =>
    simp only [scanPlan, List.mem_cons] at h
    rcases h with rfl | h
    · exact ⟨0, e, rfl, by simp⟩
    · obtain ⟨k, e', hk, rfl⟩ := ih h
      exact ⟨k + 1, e', by simpa using hk, by simp [Nat.add_assoc, Nat.add_comm 1]⟩

/-- Each entry gets a row. -/
theorem scanPlan_covers {es : List TabEntry} (i : Nat) (s : σ) {k : Nat} (h : k < es.length) :
    ∃ p ∈ scanPlan next row es i s, p.1 = i + k := by
  induction es generalizing i s k with
  | nil => cases h
  | cons e es ih =>
    cases k with
    | zero => exact ⟨_, List.mem_cons_self, rfl⟩
    | succ k =>
      obtain ⟨p, hp, hk⟩ := ih (i + 1) (next s e) (Nat.lt_of_succ_lt_succ h)
      exact ⟨p, List.mem_cons_of_mem _ hp, by omega⟩

theorem applyRows_scanPlan {es : List TabEntry} {i : Nat} {s : σ} {rows : Nat → Row} {k : Nat} {e : TabEntry}
    (hfit : i + es.length ≤ 1024) (he : es[k]? = some e) :
    applyRows (scanPlan next row es i s) rows (i + k) = row ((es.take (k + 1)).foldl next s) e := by
  induction es generalizing i s k rows with
  | nil => cases he
  | cons a es ih =>
    have hlen : i + 1 + es.length ≤ 1024 := by simp only [List.length_cons] at hfit; omega
    cases k with
    | zero =>
      obtain rfl : a = e := by simpa using he
      have hrow : cmdRow i = i := cmdRow_of_lt (by omega)
      -- the rest of the loop writes above `i`
      rcases applyRows_cases (scanPlan next row es (i + 1) (next s a))
        (Function.update rows i (row (next s a) a)) i with h | ⟨p, hp, hpi, -⟩
      · simpa [scanPlan, applyRows, hrow] using h
      · obtain ⟨k, e', hk, rfl⟩ := mem_scanPlan hp
        have hlt : k < es.length := (List.getElem?_eq_some_iff.1 hk).1
        have : cmdRow (i + 1 + k) = i + 1 + k :=
          cmdRow_of_lt (by omega)
        dsimp only at hpi
        omega
    | succ k =>
      have h : applyRows (scanPlan next row es (i + 1) (next s a))
          (Function.update rows (cmdRow i) (row (next s a) a)) (i + 1 + k) = _ := ih hlen (by simpa using he)
      rw [show i + 1 + k = i + (k + 1) by omega] at h
      simpa [scanPlan, applyRows] using h

/-- Rows outside the loop's range stay. -/
theorem applyRows_scanPlan_of_le {es : List TabEntry} {i : Nat} {s : σ} {rows : Nat → Row} {j : Nat}
    (hfit : i + es.length ≤ 1024) (hj : j < i ∨ i + es.length ≤ j) :
    applyRows (scanPlan next row es i s) rows j = rows j := by
  rcases applyRows_cases (scanPlan next row es i s) rows j with h | ⟨p, hp, hpj, -⟩
  · exact h
  · obtain ⟨k, e, hk, rfl⟩ := mem_scanPlan hp
    have hlt : k < es.length := (List.getElem?_eq_some_iff.1 hk).1
    have : cmdRow (i + k) = i + k :=
      cmdRow_of_lt (by omega)
    dsimp only at hpj
    omega

end Scan

/-! ## The three compilers -/

/-- The gates of the last entry. -/
def lastGates (es : List TabEntry) : BitVec 16 := (es.getLast?.map TabEntry.gates).getD 0

/-- A time from the cycle start as a row holds it. -/
def ticks (com : Com) (time : BitVec 32) : BitVec 16 := BitVec.ofNat 16 (time.toNat / com.hwGranularityNs)

def addTime (time : BitVec 32) (e : TabEntry) : BitVec 32 := time + e.timeInterval

/-- Hold bits and time of the first loop of `edgx_st_prepare_config`. -/
def stNext (com : Com) (s : BitVec 16 × BitVec 32) (e : TabEntry) : BitVec 16 × BitVec 32 :=
  (e.nextHold com s.1, addTime s.2 e)

def stRow (com : Com) (s : BitVec 16 × BitVec 32) (e : TabEntry) : Row := ⟨e.gates ||| s.1, ticks com s.2⟩

/-- The hold bits after a list. -/
def endHold (com : Com) (es : List TabEntry) : BitVec 16 := es.foldl (TabEntry.nextHold com) 0

/-- The entries the patch loop goes over. -/
def patched (es : List TabEntry) : List TabEntry := es.takeWhile TabEntry.keepsHold

def stPlan (com : Com) (es : List TabEntry) : Plan :=
  scanPlan (stNext com) (stRow com) es 0 (0, 0) ++
    ((es.length, ⟨lastGates es, ticks com (es.foldl addTime 0)⟩) ::
      if endHold com es = 0 then []
      else scanPlan addTime (fun time e => ⟨e.gates ||| endHold com es, ticks com time⟩) (patched es.dropLast) 0 0)

def psfpPlan (com : Com) (es : List TabEntry) : Plan :=
  scanPlan addTime (fun time e => ⟨e.gates, ticks com time⟩) es 0 0 ++
    [(es.length, ⟨lastGates es, ticks com (es.foldl addTime 0)⟩)]

def fscPlan (com : Com) (es : List TabEntry) : Plan :=
  scanPlan (TabEntry.nextHold com) (Fsc.entryRow com) es 0 0 ++
    ((es.length, ⟨lastGates es, 0⟩) ::
      if endHold com es = 0 then []
      else scanPlan (fun _ _ => ()) (fun _ => Fsc.entryRow com (endHold com es)) (patched es) 0 ())

section Equations

variable (com : Com) (idx : Int)

theorem stNext_foldl (es : List TabEntry) (s : BitVec 16 × BitVec 32) :
    es.foldl (stNext com) s = (es.foldl (TabEntry.nextHold com) s.1, es.foldl addTime s.2) := by
  induction es generalizing s with
  | nil => rfl
  | cons e es ih => exact ih _

theorem edgxStWriteRows_eq (es : List TabEntry) (i : Nat) (s : BitVec 16 × BitVec 32) (hw : Hw) :
    edgxStWriteRows com idx es i s.1 s.2 hw = rowLoop (stNext com) (stRow com) idx es i s hw := by
  induction es generalizing i s hw with
  | nil => rfl
  | cons e es ih =>
    simp only [edgxStWriteRows, rowLoop, edgxSchedWriteEntry]
    exact if_congr Iff.rfl (ih _ (stNext com s e) _) rfl

theorem edgxStPatchRows_eq (hold : BitVec 16) (es : List TabEntry) (i : Nat) (time : BitVec 32) (hw : Hw) :
    edgxStPatchRows com idx hold es i time hw =
      writePlan idx (scanPlan addTime (fun time e => ⟨e.gates ||| hold, ticks com time⟩) (patched es) i time) hw := by
  induction es generalizing i time hw with
  | nil => rfl
  | cons e es ih =>
    cases hk : e.keepsHold with
    | false => simp [edgxStPatchRows, patched, hk, scanPlan, writePlan]
    | true =>
      simp only [edgxStPatchRows, hk, if_true, patched, List.takeWhile_cons, scanPlan, writePlan,
        edgxSchedWriteEntry]
      exact if_congr Iff.rfl (ih _ _ _) rfl

/-- `edgx_st_prepare_config` writes its plan to the free table it finds. -/
theorem edgxStPrepareConfig_eq (hw : Hw) (es : List TabEntry) :
    edgxStPrepareConfig com hw es =
      if (edgxSchedGetFreeTab hw).1 < 0 then edgxSchedGetFreeTab hw
      else writePlan (edgxSchedGetFreeTab hw).1 (stPlan com es) (edgxSchedGetFreeTab hw).2 := by
  unfold edgxStPrepareConfig
  generalize edgxSchedGetFreeTab hw = free
  obtain ⟨tabIdx, hw⟩ := free
  obtain ⟨h1, h2, h3⟩ := rowLoop_eq (stNext com) (stRow com) tabIdx es 0 (0, 0) hw
  simp only [stPlan, writePlan_append, edgxStWriteRows_eq com _ es 0 (0, 0)]
  refine if_congr Iff.rfl rfl ?_
  generalize rowLoop (stNext com) (stRow com) tabIdx es 0 (0, 0) hw = r at h1 h2 h3 ⊢
  generalize writePlan tabIdx (scanPlan (stNext com) (stRow com) es 0 (0, 0)) hw = w at h1 h2 h3 ⊢
  obtain ⟨⟨ret, i, hold, time⟩, hw'⟩ := r
  obtain ⟨ret', hw''⟩ := w
  dsimp only at h1 h2 h3 ⊢
  subst h1 h2
  by_cases h0 : ret = 0
  · have hend := h3 h0
    rw [stNext_foldl, Prod.mk.injEq, Prod.mk.injEq, Nat.zero_add] at hend
    obtain ⟨rfl, rfl, rfl⟩ := hend
    rw [if_neg (not_not.2 h0), if_pos h0]
    simp only [writePlan, edgxSchedWriteEntry, edgxStPatchRows_eq]
    by_cases hh : endHold com es = 0
    · have hh' : es.foldl (TabEntry.nextHold com) 0 = 0 := hh
      rw [if_neg fun h => h.1 hh', if_pos hh, writePlan]
      split
      · rename_i hr
        exact Prod.ext hr rfl
      · rfl
    · have hh' : es.foldl (TabEntry.nextHold com) 0 ≠ 0 := hh
      rw [if_neg hh]
      exact if_congr (and_iff_right hh') rfl rfl
  · rw [if_pos h0, if_neg h0]

theorem edgxPsfpGtWriteRows_eq (es : List TabEntry) (i : Nat) (time : BitVec 32) (hw : Hw) :
    edgxPsfpGtWriteRows com idx es i time hw =
      rowLoop addTime (fun time e => ⟨e.gates, ticks com time⟩) idx es i time hw := by
  induction es generalizing i time hw with
  | nil => rfl
  | cons e es ih =>
    simp only [edgxPsfpGtWriteRows, rowLoop, edgxSchedWriteEntry]
    exact if_congr Iff.rfl (ih _ _ _) rfl

theorem edgxPsfpGtPrepareConfig_eq (hw : Hw) (es : List TabEntry) :
    edgxPsfpGtPrepareConfig com hw es =
      if (edgxSchedGetFreeTab hw).1 < 0 then edgxSchedGetFreeTab hw
      else writePlan (edgxSchedGetFreeTab hw).1 (psfpPlan com es) (edgxSchedGetFreeTab hw).2 := by
  unfold edgxPsfpGtPrepareConfig
  generalize edgxSchedGetFreeTab hw = free
  obtain ⟨tabIdx, hw⟩ := free
  obtain ⟨h1, h2, h3⟩ := rowLoop_eq addTime (fun time e => ⟨e.gates, ticks com time⟩) tabIdx es 0 0 hw
  simp only [psfpPlan, writePlan_append, writePlan_singleton, edgxPsfpGtWriteRows_eq]
  refine if_congr Iff.rfl rfl ?_
  generalize rowLoop addTime (fun time e => ⟨e.gates, ticks com time⟩) tabIdx es 0 0 hw = r at h1 h2 h3 ⊢
  obtain ⟨⟨ret, i, time⟩, hw'⟩ := r
  dsimp only at h1 h2 h3 ⊢
  subst h1 h2
  by_cases h0 : (writePlan tabIdx (scanPlan addTime (fun time e => ⟨e.gates, ticks com time⟩) es 0 0) hw).1 = 0
  · have hend := h3 h0
    rw [Prod.mk.injEq, Nat.zero_add] at hend
    obtain ⟨rfl, rfl⟩ := hend
    rw [if_neg (not_not.2 h0), if_pos h0]
    rfl
  · rw [if_pos h0, if_neg h0]

theorem Fsc.edgxSchedWriteRows_eq (es : List TabEntry) (i : Nat) (hold : BitVec 16) (hw : Hw) :
    Fsc.edgxSchedWriteRows com idx es i hold hw =
      rowLoop (TabEntry.nextHold com) (Fsc.entryRow com) idx es i hold hw := by
  induction es generalizing i hold hw with
  | nil => rfl
  | cons e es ih =>
    simp only [Fsc.edgxSchedWriteRows, rowLoop]
    exact if_congr Iff.rfl (ih _ _ _) rfl

theorem Fsc.edgxSchedPatchRows_eq (hold : BitVec 16) (es : List TabEntry) (i : Nat) (hw : Hw) :
    Fsc.edgxSchedPatchRows com idx hold es i hw =
      writePlan idx (scanPlan (fun _ _ => ()) (fun _ => Fsc.entryRow com hold) (patched es) i ()) hw := by
  induction es generalizing i hw with
  | nil => rfl
  | cons e es ih =>
    cases hk : e.keepsHold with
    | false => simp [Fsc.edgxSchedPatchRows, patched, hk, scanPlan, writePlan]
    | true =>
      simp only [Fsc.edgxSchedPatchRows, hk, if_true, patched, List.takeWhile_cons, scanPlan, writePlan]
      exact if_congr Iff.rfl (ih _ _) rfl

theorem Fsc.edgxSchedWriteTable_eq (hw : Hw) (es : List TabEntry) :
    Fsc.edgxSchedWriteTable com hw idx es = writePlan idx (fscPlan com es) hw := by
  obtain ⟨h1, h2, h3⟩ := rowLoop_eq (TabEntry.nextHold com) (Fsc.entryRow com) idx es 0 0 hw
  simp only [Fsc.edgxSchedWriteTable, fscPlan, writePlan_append, Fsc.edgxSchedWriteRows_eq]
  generalize rowLoop (TabEntry.nextHold com) (Fsc.entryRow com) idx es 0 0 hw = r at h1 h2 h3 ⊢
  generalize writePlan idx (scanPlan (TabEntry.nextHold com) (Fsc.entryRow com) es 0 0) hw = w at h1 h2 h3 ⊢
  obtain ⟨⟨ret, i, hold⟩, hw'⟩ := r
  obtain ⟨ret', hw''⟩ := w
  dsimp only at h1 h2 h3 ⊢
  subst h1 h2
  by_cases h0 : ret = 0
  · have hend := h3 h0
    rw [Prod.mk.injEq, Nat.zero_add] at hend
    obtain ⟨rfl, rfl⟩ := hend
    rw [if_neg (not_not.2 h0), if_pos h0]
    simp only [writePlan, Fsc.edgxSchedPatchRows_eq]
    by_cases hh : endHold com es = 0
    · have hh' : es.foldl (TabEntry.nextHold com) 0 = 0 := hh
      rw [if_neg fun h => h.1 hh', if_pos hh, writePlan]
      split
      · rename_i hr
        exact Prod.ext hr rfl
      · rfl
    · have hh' : es.foldl (TabEntry.nextHold com) 0 ≠ 0 := hh
      rw [if_neg hh]
      exact if_congr (and_iff_right hh') rfl rfl
  · rw [if_pos h0, if_neg h0]

end Equations

end TsnSwitch.Sched
