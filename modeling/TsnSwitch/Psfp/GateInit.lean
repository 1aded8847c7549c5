/-
Setting up the stream gates: `edgx_psfp_gt_init` and `edgx_psfp_gt_shutdown` of
edge_psfp.c, over the indices of the gates.

When a gate cannot be set up, a loop shuts down gates from that one on down,
and looks at the index only after it was decremented: the gate that failed is
looked at, and gate 0 never is, except where gate 0 is the one that failed. Then
the index wraps, and the loop goes through all indices of 32 bits
(`not_unwound`). The loop of `edgx_psfp_gt_shutdown` has neither fault
(`gtShutdown_eq`).
-/
import TsnSwitch.Errno

namespace TsnSwitch.Psfp

/-- What setting up the gates meets: the number of gates, the results of
`edgx_sched_com_probe` and of `edgx_probe_sched` for each gate, and whether the
memory behind the gates has a pointer where a scheduler is looked for. -/
structure GtProbe where
  maxGateCnt : BitVec 32
  com : Int
  sched : BitVec 32 → Int
  beyond : BitVec 32 → Bool

inductive GtEvent where
  | initialised (i : BitVec 32)
  /-- `edgx_shutdown_sched` for the scheduler of a gate, which may be `NULL`. -/
  | shutdown (i : BitVec 32) (isSched : Bool)
  deriving DecidableEq

/-- The pointer to the scheduler of a gate, when the gates below `i` are set up. -/
def GtProbe.isSched (g : GtProbe) (i j : BitVec 32) : Bool :=
  if j < i then true else if j < g.maxGateCnt then false else g.beyond j

/-- `do { … } while (--i > 0)`. -/
def unwind (f : BitVec 32 → GtEvent) (i : BitVec 32) : List GtEvent :=
  f i :: if i - 1 > 0 then unwind f (i - 1) else []
  termination_by (i - 1).toNat
  decreasing_by
    simp only [gt_iff_lt, BitVec.lt_def] at *
    bv_omega

/-- The loop over the gates, from one on. -/
def initGates (g : GtProbe) (i : BitVec 32) : Int × List GtEvent :=
  if i < g.maxGateCnt then
    if g.sched i ≠ 0 then (g.sched i, unwind (fun j => .shutdown j (g.isSched i j)) i)
    else
      let (ret, es) := initGates g (i + 1)
      (ret, .initialised i :: es)
  else (0, [])
  termination_by g.maxGateCnt.toNat - i.toNat
  decreasing_by bv_omega

def edgxPsfpGtInit (g : GtProbe) : Int × List GtEvent :=
  if g.com ≠ 0 then (g.com, []) else initGates g 0

/-- `while (i-- > 0)`, with all schedulers there. -/
def edgxPsfpGtShutdown (i : BitVec 32) : List GtEvent :=
  if i > 0 then .shutdown (i - 1) true :: edgxPsfpGtShutdown (i - 1) else []
  termination_by i.toNat
  decreasing_by bv_omega

/-! ## What is shut down -/

/-- The gate whose scheduler is looked for. -/
def GtEvent.touched : GtEvent → Option (BitVec 32)
  | .shutdown i _ => some i
  | .initialised _ => none

/-- The gate whose scheduler is shut down. -/
def GtEvent.shut : GtEvent → Option (BitVec 32)
  | .shutdown i true => some i
  | _ => none

/-- Gate `i` is the first that cannot be set up. -/
structure GtProbe.FirstFails (g : GtProbe) (i : BitVec 32) : Prop where
  com : g.com = 0
  lt : i < g.maxGateCnt
  fails : g.sched i ≠ 0
  before : ∀ j < i, g.sched j = 0

/-- The gates below `i` are shut down, each once, and no other is touched. -/
structure Unwound (g : GtProbe) (i : BitVec 32) : Prop where
  inside : ∀ j ∈ (edgxPsfpGtInit g).2.filterMap GtEvent.touched, j < i
  once : ∀ j < i, ((edgxPsfpGtInit g).2.filterMap GtEvent.shut).count j = 1

/-- The indices from `n` down to 1. -/
def downTo : Nat → List (BitVec 32)
  | 0 => []
  | n + 1 => BitVec.ofNat 32 (n + 1) :: downTo n

theorem mem_downTo {n : Nat} {j : BitVec 32} (hn : n < 2 ^ 32) : j ∈ downTo n ↔ 0 < j.toNat ∧ j.toNat ≤ n := by
  induction n with
  | zero => simp only [downTo, List.not_mem_nil, false_iff]; omega
  | succ n ih =>
    rw [downTo, List.mem_cons, ih (by omega), ← BitVec.toNat_inj, BitVec.toNat_ofNat, Nat.mod_eq_of_lt hn]
    omega

/-- The loop stops before index 0. -/
theorem unwind_succ (f : BitVec 32 → GtEvent) {n : Nat} (hn : n + 1 < 2 ^ 32) :
    unwind f (BitVec.ofNat 32 (n + 1)) = (downTo (n + 1)).map f := by
  have hpred : ∀ m : Nat, m + 1 < 2 ^ 32 → BitVec.ofNat 32 (m + 1) - 1 = BitVec.ofNat 32 m := fun m hm => by bv_omega
  induction n with
  | zero =>
    rw [unwind, hpred 0 hn, if_neg (by decide)]
    rfl
  | succ n ih =>
    rw [unwind, hpred (n + 1) hn, if_pos, ih (by omega)]
    · rfl
    · rw [gt_iff_lt, BitVec.lt_def, BitVec.toNat_ofNat, Nat.mod_eq_of_lt (by omega : n + 1 < 2 ^ 32)]
      exact Nat.succ_pos n

/-- From index 0 it wraps. -/
theorem unwind_zero (f : BitVec 32 → GtEvent) {n : Nat} (hn : n + 1 = 2 ^ 32 - 1) :
    unwind f 0 = f 0 :: (downTo (2 ^ 32 - 1)).map f := by
  have hlast : (0 - 1 : BitVec 32) = BitVec.ofNat 32 (n + 1) := by
    rw [hn]
    decide
  rw [unwind, if_pos (by decide), hlast, unwind_succ f (by omega), hn]

/-- The indices the unwinding goes through. -/
def unwound (i : BitVec 32) : List (BitVec 32) := if i = 0 then 0 :: downTo (2 ^ 32 - 1) else downTo i.toNat

theorem unwind_eq (f : BitVec 32 → GtEvent) (i : BitVec 32) : unwind f i = (unwound i).map f := by
  rw [unwound]
  split
  · rename_i h
    rw [h, unwind_zero f (n := 2 ^ 32 - 2) (by norm_num), List.map_cons]
  · rename_i h
    have hpos : 0 < i.toNat := Nat.pos_of_ne_zero fun h0 => h (BitVec.eq_of_toNat_eq h0)
    have hsucc : i.toNat - 1 + 1 = i.toNat := Nat.sub_add_cancel hpos
    have heq := unwind_succ f (n := i.toNat - 1) (by omega)
    rwa [hsucc, BitVec.ofNat_toNat, BitVec.setWidth_eq] at heq

theorem filterMap_touched (g : GtProbe) (i : BitVec 32) :
    (unwind (fun j => .shutdown j (g.isSched i j)) i).filterMap GtEvent.touched = unwound i := by
  rw [unwind_eq, List.filterMap_map]
  exact List.filterMap_some

theorem filterMap_shut (g : GtProbe) (i : BitVec 32) :
    (unwind (fun j => .shutdown j (g.isSched i j)) i).filterMap GtEvent.shut = (unwound i).filter (g.isSched i) := by
  rw [unwind_eq, List.filterMap_map, ← List.filterMap_eq_filter]
  refine List.filterMap_congr fun j _ => ?_
  cases hj : g.isSched i j <;> simp [GtEvent.shut, hj, Option.guard]

/-- The gates are set up one after the other, up to the one that fails. -/
theorem GtProbe.FirstFails.initGates {g : GtProbe} {i : BitVec 32} (h : g.FirstFails i) (k : BitVec 32) (hk : k ≤ i) :
    (initGates g k).1 = g.sched i ∧ (initGates g k).2.filterMap GtEvent.touched = unwound i ∧
      (initGates g k).2.filterMap GtEvent.shut = (unwound i).filter (g.isSched i) := by
  have hlt := h.lt
  fun_induction Psfp.initGates g k with
  | case1 k hk' hf =>
    obtain rfl : k = i := by
      by_contra hne
      exact hf (h.before k (by bv_omega))
    exact ⟨rfl, filterMap_touched g k, filterMap_shut g k⟩
  | case2 k hk' hok ret es heq ih =>
    have hne : k ≠ i := fun he => h.fails (by rw [← he]; exact not_not.1 hok)
    have hi := ih (by bv_omega)
    rw [heq] at hi
    exact hi
  | case3 k hge => exact absurd hge (not_not.2 (by bv_omega))

theorem GtProbe.FirstFails.gtInit {g : GtProbe} {i : BitVec 32} (h : g.FirstFails i) :
    (edgxPsfpGtInit g).1 = g.sched i ∧ (edgxPsfpGtInit g).2.filterMap GtEvent.touched = unwound i ∧
      (edgxPsfpGtInit g).2.filterMap GtEvent.shut = (unwound i).filter (g.isSched i) := by
  rw [edgxPsfpGtInit, if_neg (not_not.2 h.com)]
  exact h.initGates 0 (by bv_omega)

theorem mem_unwound_self (i : BitVec 32) : i ∈ unwound i := by
  rw [unwound]
  split
  · rename_i h
    rw [h]
    exact List.mem_cons_self
  · rename_i h
    have hpos : 0 < i.toNat := Nat.pos_of_ne_zero fun h0 => h (BitVec.eq_of_toNat_eq h0)
    exact (mem_downTo i.isLt).2 ⟨hpos, le_rfl⟩

/-- Gate 0 is looked at only where it is the one that failed; then all indices are. -/
theorem mem_unwound (i j : BitVec 32) : j ∈ unwound i ↔ i = 0 ∨ 0 < j ∧ j ≤ i := by
  rw [unwound]
  split
  · rename_i h
    refine iff_of_true ?_ (.inl h)
    rw [List.mem_cons, mem_downTo (by omega)]
    bv_omega
  · rename_i h
    rw [mem_downTo i.isLt]
    bv_omega

/-- **The gates set up before the failing one are never unwound**: the failing gate is
touched, and gate 0 is left or, where it failed, every index of 32 bits is touched. -/
theorem not_unwound {g : GtProbe} {i : BitVec 32} (h : g.FirstFails i) :
    ¬ Unwound g i ∧
      ∀ j, j ∈ (edgxPsfpGtInit g).2.filterMap GtEvent.touched ↔ i = 0 ∨ 0 < j ∧ j ≤ i := by
  obtain ⟨-, htouched, -⟩ := h.gtInit
  refine ⟨fun hu => ?_, fun j => by rw [htouched, mem_unwound]⟩
  have hself := hu.inside i (htouched ▸ mem_unwound_self i)
  bv_omega

/-- Three gates, the second of which fails. -/
def secondFails : GtProbe where
  maxGateCnt := 3
  com := 0
  sched i := if i = 1 then -ENOMEM else 0
  beyond _ := true

theorem secondFails_firstFails : secondFails.FirstFails 1 := by
  refine ⟨rfl, by decide, by decide, fun j hj => ?_⟩
  obtain rfl : j = 0 := by bv_omega
  rfl

theorem not_unwound_second : ¬ Unwound secondFails 1 ∧
    ∀ j, j ∈ (edgxPsfpGtInit secondFails).2.filterMap GtEvent.touched ↔ (1 : BitVec 32) = 0 ∨ 0 < j ∧ j ≤ 1 :=
  not_unwound secondFails_firstFails

/-- Gate 0 is still set up, and only the failing gate was looked at. Where gate 0
fails, the last index of 32 bits is looked at too. -/
theorem gate0_left :
    (secondFails.FirstFails 1 ∧ (edgxPsfpGtInit secondFails).2.filterMap GtEvent.touched = [1] ∧
      (edgxPsfpGtInit secondFails).2.filterMap GtEvent.shut = [] ∧ ¬ Unwound secondFails 1) ∧
    (let g : GtProbe := { secondFails with sched := fun _ => -ENOMEM }
     g.FirstFails 0 ∧ (-1) ∈ (edgxPsfpGtInit g).2.filterMap GtEvent.touched ∧ ¬ Unwound g 0) := by
  have hfirst : ({ secondFails with sched := fun _ => -ENOMEM } : GtProbe).FirstFails 0 :=
    ⟨rfl, by decide, by decide, fun j hj => absurd hj (by bv_omega)⟩
  obtain ⟨-, htouched, hshut⟩ := secondFails_firstFails.gtInit
  obtain ⟨-, htouched', -⟩ := hfirst.gtInit
  refine ⟨⟨secondFails_firstFails, htouched, hshut, fun hu => ?_⟩, hfirst, ?_, fun hu => ?_⟩
  · have hcount := hu.once 0 (by decide)
    rw [hshut] at hcount
    exact absurd hcount (by decide)
  · rw [htouched']
    exact (mem_unwound 0 (-1)).2 (.inl rfl)
  · have hself := hu.inside 0 (htouched' ▸ mem_unwound_self 0)
    bv_omega

/-- The loop of `edgx_psfp_gt_shutdown` goes through the gates below its index, each once. -/
theorem gtShutdown_eq {n : Nat} (hn : n < 2 ^ 32) :
    edgxPsfpGtShutdown (BitVec.ofNat 32 n) =
      (List.range n).reverse.map fun j => .shutdown (BitVec.ofNat 32 j) true := by
  induction n with
  | zero =>
    rw [edgxPsfpGtShutdown, if_neg (by decide)]
    rfl
  | succ n ih =>
    have hpred : BitVec.ofNat 32 (n + 1) - 1 = BitVec.ofNat 32 n := by bv_omega
    rw [edgxPsfpGtShutdown, if_pos (by bv_omega), hpred, ih (by omega), List.range_succ, List.reverse_append]
    rfl

end TsnSwitch.Psfp
