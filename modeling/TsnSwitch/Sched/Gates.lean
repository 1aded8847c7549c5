/-
The gate control list of a port compiled into rows, for both drivers of port
gates. Each row of an entry has its gates and its effective hold level
(`driver_rows`): both compilers write the level so far, and patch the rows
before the first hold or release when the list ends with a high level.
-/
import Mathlib.Data.List.TakeWhile
import TsnSwitch.Sched.Encode

namespace TsnSwitch.Sched

/-! ## Hold levels of a list -/

/-- The hold level after an entry. -/
def TabEntry.level (b : Bool) (e : TabEntry) : Bool :=
  if e.operationName = EDGX_SCHED_OP_HOLD_MAC then true
  else if e.operationName = EDGX_SCHED_OP_REL_MAC then false
  else b

/-- The level a list ends with. -/
def endLevel (es : List TabEntry) : Bool := es.foldl TabEntry.level false

/-- The effective hold level of entry `i`: that of the last hold or release
at or before it, taken cyclically. -/
def effLevel (es : List TabEntry) (i : Nat) : Bool :=
  (es.drop (i + 1) ++ es.take (i + 1)).foldl TabEntry.level false

/-- The effective level of the entry before entry `i`, cyclically. -/
def levelBefore (es : List TabEntry) (i : Nat) : Bool :=
  if i = 0 then effLevel es (es.length - 1) else effLevel es (i - 1)

theorem level_keeps {e : TabEntry} (h : e.keepsHold = true) (b : Bool) : e.level b = b := by
  simp only [TabEntry.keepsHold, Bool.and_eq_true, bne_iff_ne] at h
  rw [TabEntry.level, if_neg h.1, if_neg h.2]

theorem level_sets {e : TabEntry} (h : e.keepsHold = false) (b b' : Bool) : e.level b = e.level b' := by
  unfold TabEntry.level
  split
  · rfl
  · rename_i hh
    split
    · rfl
    · rename_i hr
      simp [TabEntry.keepsHold, hh, hr] at h

theorem foldl_level_keeps {es : List TabEntry} (h : ∀ e ∈ es, e.keepsHold = true) (b : Bool) :
    es.foldl TabEntry.level b = b := by
  induction es with
  | nil => rfl
  | cons e es ih =>
    rw [List.foldl_cons, level_keeps (h e List.mem_cons_self)]
    exact ih fun a ha => h a (List.mem_cons_of_mem e ha)

theorem foldl_level_sets {es : List TabEntry} (h : ∃ e ∈ es, e.keepsHold = false) (b b' : Bool) :
    es.foldl TabEntry.level b = es.foldl TabEntry.level b' := by
  induction es generalizing b b' with
  | nil => obtain ⟨e, he, _⟩ := h; cases he
  | cons e es ih =>
    by_cases hes : ∃ a ∈ es, a.keepsHold = false
    · exact ih hes _ _
    · obtain ⟨a, ha, hk⟩ := h
      rcases List.mem_cons.1 ha with rfl | ha
      · rw [List.foldl_cons, List.foldl_cons, level_sets hk b b']
      · exact absurd ⟨a, ha, hk⟩ hes

/-- Below the first hold or release the level is the one the list ends with. -/
theorem effLevel_keeps {es : List TabEntry} {i : Nat} (h : ∀ e ∈ es.take (i + 1), e.keepsHold = true) :
    effLevel es i = endLevel es := by
  have hend : endLevel (es.take (i + 1) ++ es.drop (i + 1)) = (es.drop (i + 1)).foldl TabEntry.level false := by
    rw [endLevel, List.foldl_append, foldl_level_keeps h]
  rw [List.take_append_drop] at hend
  rw [effLevel, List.foldl_append, foldl_level_keeps h, hend]

/-- From the first hold or release on it is the level of the list so far. -/
theorem effLevel_sets {es : List TabEntry} {i : Nat} (h : ∃ e ∈ es.take (i + 1), e.keepsHold = false) :
    effLevel es i = endLevel (es.take (i + 1)) := by
  rw [effLevel, List.foldl_append]
  exact foldl_level_sets h _ _

theorem effLevel_last {es : List TabEntry} {i : Nat} (h : es.length ≤ i + 1) : effLevel es i = endLevel es := by
  rw [effLevel, List.drop_of_length_le h, List.take_of_length_le h, List.nil_append, endLevel]

/-! ## Hold bits -/

/-- The hold bits of a level. -/
def Com.holdBits (com : Com) (b : Bool) : BitVec 16 := if b then com.hold else 0

theorem hold_ne (com : Com) : com.hold ≠ 0 := by
  have h : ∀ n ≤ 8, (1#16 <<< n) ≠ 0 := by decide
  exact h com.nrQueues com.queues_le

theorem holdBits_eq_zero {com : Com} {b : Bool} : com.holdBits b = 0 ↔ b = false := by
  cases b with
  | false => exact ⟨fun _ => rfl, fun _ => rfl⟩
  | true => exact ⟨fun h => absurd h (hold_ne com), fun h => nomatch h⟩

theorem nextHold_bits (com : Com) (b : Bool) (e : TabEntry) :
    e.nextHold com (com.holdBits b) = com.holdBits (e.level b) := by
  unfold TabEntry.nextHold TabEntry.level
  split
  · rfl
  · split <;> rfl

theorem foldl_nextHold_bits (com : Com) (es : List TabEntry) (b : Bool) :
    es.foldl (TabEntry.nextHold com) (com.holdBits b) = com.holdBits (es.foldl TabEntry.level b) := by
  induction es generalizing b with
  | nil => rfl
  | cons e es ih => rw [List.foldl_cons, nextHold_bits, ih, List.foldl_cons]

theorem endHold_eq (com : Com) (es : List TabEntry) : endHold com es = com.holdBits (endLevel es) :=
  foldl_nextHold_bits com es false

/-- The hold bits of a row with the gates of a stored entry. -/
theorem hold_of_row {com : Com} {e : TabEntry} (hm : e.gates &&& com.gateMask.setWidth 16 = e.gates) (b : Bool) :
    (e.gates ||| com.holdBits b) &&& com.hold = com.holdBits b := by
  have hz : e.gates &&& com.hold = 0 := by
    rw [← hm, BitVec.and_assoc, BitVec.and_comm (com.gateMask.setWidth 16), hold_and_mask]
    exact BitVec.and_zero
  have hb : com.holdBits b &&& com.hold = com.holdBits b := by
    cases b with
    | false => exact BitVec.zero_and
    | true => exact BitVec.and_self
  calc (e.gates ||| com.holdBits b) &&& com.hold
      = (e.gates &&& com.hold) ||| (com.holdBits b &&& com.hold) := by
        ext i hi
        simp [Bool.and_or_distrib_right]
    _ = com.holdBits b := by rw [hz, hb]; exact BitVec.zero_or

theorem gates_of_row {com : Com} {e : TabEntry} (hm : e.gates &&& com.gateMask.setWidth 16 = e.gates) (b : Bool) :
    (e.gates ||| com.holdBits b) &&& com.gateMask.setWidth 16 = e.gates := by
  refine gates_or_hold ?_ hm
  cases b with
  | false => exact .inr rfl
  | true => exact .inl rfl

/-! ## The rows of a compiled list -/

/-- The two drivers of port gates. -/
inductive Driver where
  | fscr
  | fsc
  deriving DecidableEq

def Driver.user : Driver → User
  | .fscr => .portGates
  | .fsc => .fsc

/-- The row writes of a configuration change. -/
def Driver.compile : Driver → Com → Hw → List TabEntry → Int × Hw
  | .fscr, com, hw, es => edgxStPrepareConfig com hw es
  | .fsc, com, hw, es => Fsc.edgxSchedWriteTable com (edgxSchedGetFreeTab hw).2 (edgxSchedGetFreeTab hw).1 es

/-- The cycles of the row of entry `i`. -/
def Driver.rowCycles (d : Driver) (com : Com) (es : List TabEntry) (i : Nat) : BitVec 16 :=
  match d with
  | .fscr => ticks com ((es.take (i + 1)).foldl addTime 0)
  | .fsc => BitVec.ofNat 16 (((es[i]?).map fun e => e.timeInterval.toNat).getD 0 / com.hwGranularityNs)

section Plan

variable {σ τ : Type} {next : σ → TabEntry → σ} {row : σ → TabEntry → Row} {next' : τ → TabEntry → τ}
  {row' : τ → TabEntry → Row} {com : Com} {es l : List TabEntry} {cycles : Nat → BitVec 16} {last : Row}

/-- The entries the patch loop goes over come before the first hold or
release. The loop of the shared scheduler leaves out the last entry. -/
theorem keeps_of_patched (hl : l <+: es) {i : Nat} (hi : i < (patched l).length) :
    ∀ e ∈ es.take (i + 1), e.keepsHold = true := by
  obtain ⟨rest, rfl⟩ := (List.takeWhile_prefix TabEntry.keepsHold).trans hl
  intro e he
  change e ∈ (patched l ++ rest).take (i + 1) at he
  rw [List.take_append_of_le_length hi] at he
  exact List.mem_takeWhile_imp (List.mem_of_mem_take he)

theorem effLevel_not_patched (hl : l <+: es) (hd : es.dropLast <+: l) {i : Nat}
    (hp : (patched l).length ≤ i) : effLevel es i = endLevel (es.take (i + 1)) := by
  have happ : patched l ++ l.dropWhile TabEntry.keepsHold = l := List.takeWhile_append_dropWhile
  have hnot := List.head?_dropWhile_not TabEntry.keepsHold l
  cases hdw : l.dropWhile TabEntry.keepsHold with
  | nil =>
    -- no hold or release but in the last entry
    rw [hdw, List.append_nil] at happ
    have hlen := hd.length_le
    rw [List.length_dropLast] at hlen
    rw [happ] at hp
    have hlast : es.length ≤ i + 1 := by omega
    rw [effLevel_last hlast, List.take_of_length_le hlast]
  | cons a rest =>
    rw [hdw] at happ hnot
    refine effLevel_sets ⟨a, ?_, hnot⟩
    obtain ⟨rest', rfl⟩ := hl
    obtain ⟨m, hm⟩ : ∃ m, i + 1 - (patched l).length = m + 1 := ⟨i - (patched l).length, by omega⟩
    rw [← happ, List.append_assoc, List.take_append, hm]
    exact List.mem_append_right _ List.mem_cons_self

/-- **The rows of a gate plan.** Both compilers write a row for each entry
with the hold bits so far, the terminal row, and then again the rows before
the first hold or release if the list ends with a high level. -/
theorem gatePlan_row {rows : Nat → Row} {s₀ : σ} {p₀ : τ} (hlen : es.length < 1024) (hl : l <+: es)
    (hd : es.dropLast <+: l)
    (hrow : ∀ k e, es[k]? = some e → row ((es.take (k + 1)).foldl next s₀) e =
      ⟨e.gates ||| com.holdBits (endLevel (es.take (k + 1))), cycles k⟩)
    (hrow' : ∀ k e, (patched l)[k]? = some e → row' (((patched l).take (k + 1)).foldl next' p₀) e =
      ⟨e.gates ||| endHold com es, cycles k⟩) :
    let rows' := applyRows (scanPlan next row es 0 s₀ ++ ((es.length, last) ::
      if endHold com es = 0 then [] else scanPlan next' row' (patched l) 0 p₀)) rows
    (∀ k e, es[k]? = some e → rows' k = ⟨e.gates ||| com.holdBits (effLevel es k), cycles k⟩) ∧
      rows' es.length = last := by
  intro rows'
  have hcmd : cmdRow es.length = es.length := cmdRow_of_lt hlen
  have hpl : (patched l).length ≤ l.length := (List.takeWhile_prefix TabEntry.keepsHold).length_le
  have hll := hl.length_le
  generalize hfirst : applyRows [(es.length, last)] (applyRows (scanPlan next row es 0 s₀) rows) = first
  -- after the first loop and the terminal row
  have hrows : ∀ k e, es[k]? = some e →
      first k = ⟨e.gates ||| com.holdBits (endLevel (es.take (k + 1))), cycles k⟩ := by
    intro k e hk
    have hne : k ≠ cmdRow es.length := by
      rw [hcmd]; exact Nat.ne_of_lt (List.getElem?_eq_some_iff.1 hk).1
    have h : applyRows (scanPlan next row es 0 s₀) rows (0 + k) = _ := applyRows_scanPlan (by omega) hk
    rw [Nat.zero_add, hrow k e hk] at h
    rw [← hfirst, ← h]
    exact Function.update_of_ne hne ..
  have hlast : first es.length = last := by
    rw [← hfirst]
    change Function.update (_ : Nat → Row) (cmdRow es.length) last es.length = last
    rw [hcmd, Function.update_self]
  have hsplit : rows' = applyRows (if endHold com es = 0 then [] else scanPlan next' row' (patched l) 0 p₀) first := by
    rw [← hfirst, ← applyRows_append, ← applyRows_append]
    simp [rows']
  by_cases hh : endHold com es = 0
  · rw [hsplit, if_pos hh]
    refine ⟨fun k e hk => ?_, hlast⟩
    rw [applyRows_nil, hrows k e hk]
    by_cases hk' : k < (patched l).length
    · have hkeeps := keeps_of_patched hl hk'
      rw [endHold_eq, holdBits_eq_zero] at hh
      rw [effLevel_keeps hkeeps, hh, endLevel, foldl_level_keeps hkeeps]
    · rw [effLevel_not_patched hl hd (Nat.not_lt.1 hk')]
  · rw [hsplit, if_neg hh]
    have hfit : 0 + (patched l).length ≤ 1024 := by omega
    refine ⟨fun k e hk => ?_, ?_⟩
    · by_cases hk' : k < (patched l).length
      · obtain ⟨a, ha⟩ : ∃ a, (patched l)[k]? = some a := ⟨_, List.getElem?_eq_getElem hk'⟩
        obtain rfl : a = e := Option.some.inj ((patched_getElem? hl ha).1.symm.trans hk)
        have h : applyRows (scanPlan next' row' (patched l) 0 p₀) first (0 + k) = _ := applyRows_scanPlan hfit ha
        rw [Nat.zero_add] at h
        rw [h, hrow' k a ha, endHold_eq, effLevel_keeps (keeps_of_patched hl hk')]
      · rw [applyRows_scanPlan_of_le hfit (.inr (by omega)), hrows k e hk,
          effLevel_not_patched hl hd (Nat.not_lt.1 hk')]
    · rw [applyRows_scanPlan_of_le hfit (.inr (by omega)), hlast]

end Plan

section Rows

variable {com : Com} {es : List TabEntry}

theorem stPlan_rows (com : Com) (hlen : es.length < 1024) (rows : Nat → Row) :
    (∀ k e, es[k]? = some e → applyRows (stPlan com es) rows k =
      ⟨e.gates ||| com.holdBits (effLevel es k), Driver.rowCycles .fscr com es k⟩) ∧
      applyRows (stPlan com es) rows es.length = ⟨lastGates es, ticks com (es.foldl addTime 0)⟩ := by
  refine gatePlan_row hlen (List.dropLast_prefix es) (List.prefix_refl _) (fun k e _ => ?_) fun k e hk => ?_
  · rw [stNext_foldl]
    exact congrArg (fun b => Row.mk (e.gates ||| b) _) (endHold_eq com _)
  · rw [(patched_getElem? (List.dropLast_prefix es) hk).2]
    rfl

theorem fscPlan_rows (com : Com) (hlen : es.length < 1024) (rows : Nat → Row) :
    (∀ k e, es[k]? = some e → applyRows (fscPlan com es) rows k =
      ⟨e.gates ||| com.holdBits (effLevel es k), Driver.rowCycles .fsc com es k⟩) ∧
      applyRows (fscPlan com es) rows es.length = ⟨lastGates es, 0⟩ := by
  refine gatePlan_row hlen (List.prefix_refl es) (List.dropLast_prefix es) (fun k e hk => ?_) fun k e hk => ?_
  · rw [Driver.rowCycles, hk]
    exact congrArg (fun b => Row.mk (e.gates ||| b) _) (endHold_eq com _)
  · rw [Driver.rowCycles, (patched_getElem? (List.prefix_refl es) hk).1]
    rfl

/-- The rows a driver's plan leaves in a table. -/
theorem driver_rows (com : Com) (d : Driver) (hlen : es.length < 1024) (rows : Nat → Row) :
    (∀ k e, es[k]? = some e → applyRows (d.user.plan com es) rows k =
      ⟨e.gates ||| com.holdBits (effLevel es k), d.rowCycles com es k⟩) ∧
      (applyRows (d.user.plan com es) rows es.length).gates = lastGates es := by
  cases d with
  | fscr =>
    obtain ⟨h, hl⟩ := stPlan_rows com hlen rows
    exact ⟨h, congrArg Row.gates hl⟩
  | fsc =>
    obtain ⟨h, hl⟩ := fscPlan_rows com hlen rows
    exact ⟨h, congrArg Row.gates hl⟩

end Rows

/-- What a completed plan leaves in its table. The hardware may act on flags
and start times meanwhile, not on rows. -/
theorem writePlan_rows (t : Tab) (plan : Plan) {hw : Hw} (h : (writePlan t.idx plan hw).1 = 0) :
    ((writePlan t.idx plan hw).2.tabs t).rows = applyRows plan (hw.tabs t).rows := by
  induction plan generalizing hw with
  | nil => rfl
  | cons p ps ih =>
    obtain ⟨i, r⟩ := p
    simp only [writePlan] at h ⊢
    have hrow : (hw.writeRow t.idx i r).1 = 0 →
        ((hw.writeRow t.idx i r).2.tabs t).rows = Function.update (hw.tabs t).rows (cmdRow i) r := by
      have hrows := tick_rows hw t
      obtain ⟨x, xs, hx⟩ := nextXfer_eq hw.tick
      simp only [Hw.writeRow, hx, cmdTab_idx]
      cases x with
      | ok => intro; simp [Hw.setRow, hrows]
      | err done => exact fun h => absurd h (by decide : -EBUSY ≠ 0)
    split at h
    · rename_i h0
      rw [if_pos h0, ih h, hrow h0]
      rfl
    · rename_i hne
      exact absurd h hne

end TsnSwitch.Sched
