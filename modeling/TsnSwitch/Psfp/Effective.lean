/-
The effective filter of a cell, and the cells an update goes over. The four
loops of edge_psfp.c are one loop over a list of cells (`forEach_eq`): each
cell gets the lowest of the first filters of the four keys that cover it
(`effSub`), whether the filter that triggered the update is still there or
was just erased.
-/
import TsnSwitch.Psfp.Filters

namespace TsnSwitch.Psfp

/-! ## The lowest candidate -/

theorem findEffSub_foldl (cand : List (Option Nat)) (e : Nat) :
    cand.foldl (fun eff c =>
      match c, eff with
      | none, eff => eff
      | some f, none => some f
      | some f, some e => if e > f then some f else some e) (some e) =
      some ((cand.filterMap id).foldl min e) := by
  induction cand generalizing e with
  | nil => rfl
  | cons c cand ih =>
    cases c with
    | none => exact ih e
    | some f =>
      have hcons : (some f :: cand).filterMap id = f :: cand.filterMap id := rfl
      rw [List.foldl_cons, hcons, List.foldl_cons]
      by_cases h : e > f
      · rw [Nat.min_eq_right (Nat.le_of_lt h)]
        simp only [if_pos h]
        exact ih f
      · rw [Nat.min_eq_left (Nat.not_lt.1 h)]
        simp only [if_neg h]
        exact ih e

theorem findEffSub_eq (cand : List (Option Nat)) : edgxPsfpFltStrFindEffSub cand = (cand.filterMap id).min? := by
  unfold edgxPsfpFltStrFindEffSub
  induction cand with
  | nil => rfl
  | cons c cand ih =>
    cases c with
    | none => exact ih
    | some f => exact findEffSub_foldl cand f

/-- The lowest candidate does not depend on their order. -/
theorem findEffSub_perm {cand cand' : List (Option Nat)} (h : cand.Perm cand') :
    edgxPsfpFltStrFindEffSub cand = edgxPsfpFltStrFindEffSub cand' := by
  rw [findEffSub_eq, findEffSub_eq]
  have hmem : ∀ f, f ∈ cand.filterMap id ↔ f ∈ cand'.filterMap id := fun f => (h.filterMap id).mem_iff
  cases hm : (cand.filterMap id).min? with
  | none =>
    rw [List.min?_eq_none_iff] at hm
    have hnil : cand'.filterMap id = [] :=
      List.eq_nil_iff_forall_not_mem.2 fun f hf => List.not_mem_nil (hm ▸ (hmem f).2 hf)
    rw [hnil]
    rfl
  | some f =>
    rw [List.min?_eq_some_iff] at hm
    exact (List.min?_eq_some_iff.2 ⟨(hmem f).1 hm.1, fun g hg => hm.2 g ((hmem g).2 hg)⟩).symm

/-- The keys that cover a cell. -/
def keys (c : Cell) : List (Int × Int) :=
  [((c.1 : Int), (c.2 : Int)), ((c.1 : Int), PSFP_WC_PCP), (PSFP_WC_STR_HDL, (c.2 : Int)),
    (PSFP_WC_STR_HDL, PSFP_WC_PCP)]

/-- The effective filter of a cell. -/
def effSub (flt : Flt) (c : Cell) : Option Nat :=
  edgxPsfpFltStrFindEffSub ((keys c).map fun k => edgxPsfpFltFirstSub flt k.1 k.2)

theorem firstSub_congr {flt flt' : Flt} {strHdl pcp : Int} (h : flt'.strRoot (strHdl, pcp) = flt.strRoot (strHdl, pcp)) :
    edgxPsfpFltFirstSub flt' strHdl pcp = edgxPsfpFltFirstSub flt strHdl pcp := by
  rw [edgxPsfpFltFirstSub, h, edgxPsfpFltFirstSub]

/-! ## The loops -/

/-- A loop can be replaced where an invariant of the state makes the bodies
equal. -/
theorem foldl_congr_inv {σ α : Type} {P : σ → Prop} {f g : σ → α → σ} (hP : ∀ s a, P s → P (f s a))
    {as : List α} (h : ∀ s a, a ∈ as → P s → g s a = f s a) {s : σ} (hs : P s) : as.foldl g s = as.foldl f s := by
  induction as generalizing s with
  | nil => rfl
  | cons a as ih =>
    rw [List.foldl_cons, List.foldl_cons, h s a List.mem_cons_self hs]
    exact ih (fun s b hb => h s b (List.mem_cons_of_mem a hb)) (hP s a hs)

theorem foldl_keep {σ α : Type} {P : σ → Prop} {f : σ → α → σ} (hP : ∀ s a, P s → P (f s a)) (as : List α) {s : σ}
    (hs : P s) : P (as.foldl f s) := by
  induction as generalizing s with
  | nil => exact hs
  | cons a as ih => exact ih (hP s a hs)

/-- The handles or priorities a definition covers. -/
def expand (n : Nat) (i : Int) : List Nat := if i = -1 then List.range n else [i.toNat]

/-- The cells an update goes over, in the order of the loops. -/
def cells (lim : Limits) (strHdl pcp : Int) : List Cell :=
  (expand lim.maxStrCnt strHdl).flatMap fun s => (expand EDGX_BR_NUM_PCP pcp).map fun p => (s, p)

/-- A loop over `cs` that gives each cell its entry of `eff`. -/
def updCells (lim : Limits) (it : Iter) (eff : Cell → Option Nat) (cs : List Cell) (flt : Flt) : Flt :=
  cs.foldl (fun flt c => edgxPsfpFltUpdHwIter lim it flt c (eff c)) flt

theorem updateCntRef_strRoot (flt : Flt) (sube : Option Nat) (cur : Cnt) :
    (edgxPsfpFltUpdateCntRef flt sube cur).strRoot = flt.strRoot := by
  unfold edgxPsfpFltUpdateCntRef
  split <;> rfl

theorem updCnt_strRoot (it : Iter) (flt : Flt) (c : Cell) (eff : Option Nat) :
    (edgxPsfpFltUpdCnt it flt c eff).strRoot = flt.strRoot := by
  unfold edgxPsfpFltUpdCnt
  dsimp only
  split
  · rfl
  · split
    · rfl
    · split <;> split <;> simp only [updateCntRef_strRoot]

theorem updHwIter_strRoot (lim : Limits) (it : Iter) (flt : Flt) (c : Cell) (eff : Option Nat) :
    (edgxPsfpFltUpdHwIter lim it flt c eff).strRoot = flt.strRoot := by
  unfold edgxPsfpFltUpdHwIter
  dsimp only
  split
  · exact updCnt_strRoot ..
  · rfl

/-- An iteration's candidate for its own key is the first filter there. -/
def Iter.Fits (it : Iter) (flt : Flt) : Prop :=
  edgxPsfpFltGetCand flt it it.strHdl it.pcp = edgxPsfpFltFirstSub flt it.strHdl it.pcp

theorem forEachOne_eq (lim : Limits) (it : Iter) {flt flt' : Flt} (c : Cell) {cand : List (Option Nat)}
    (h : cand.Perm ((keys c).map fun k => edgxPsfpFltFirstSub flt k.1 k.2)) :
    forEachOne lim it flt' c cand = edgxPsfpFltUpdHwIter lim it flt' c (effSub flt c) := by
  rw [forEachOne, findEffSub_perm h, effSub]

/-- **The loops of an update** go over the cells that the filter covers and
give each its effective filter. -/
theorem forEach_eq (lim : Limits) {it : Iter} {flt : Flt} (hf : it.Fits flt)
    (hs : it.strHdl = PSFP_WC_STR_HDL ∨ 0 ≤ it.strHdl) (hp : it.pcp = PSFP_WC_PCP ∨ 0 ≤ it.pcp) :
    edgxPsfpFltForEach lim it flt = updCells lim it (effSub flt) (cells lim it.strHdl it.pcp) flt := by
  -- looking up a candidate later in the loop gives the same one
  have hlater : ∀ {flt' : Flt}, flt'.strRoot = flt.strRoot → ∀ strHdl pcp,
      edgxPsfpFltFirstSub flt' strHdl pcp = edgxPsfpFltFirstSub flt strHdl pcp := fun h _ _ =>
    firstSub_congr (congrFun h _)
  have hkeep : ∀ (flt' : Flt) c, flt'.strRoot = flt.strRoot →
      (edgxPsfpFltUpdHwIter lim it flt' c (effSub flt c)).strRoot = flt.strRoot := fun flt' c h =>
    (updHwIter_strRoot ..).trans h
  unfold Iter.Fits at hf
  by_cases hws : it.strHdl = PSFP_WC_STR_HDL
  · by_cases hwp : it.pcp = PSFP_WC_PCP
    · rw [hws, hwp] at hf
      rw [edgxPsfpFltForEach, if_pos ⟨hws, hwp⟩, edgxPsfpFltForEachWc, updCells, cells, hws, hwp, hf]
      simp only [expand, PSFP_WC_STR_HDL, PSFP_WC_PCP, if_true, List.foldl_flatMap, List.foldl_map]
      refine foldl_congr_inv (P := fun x : Flt => x.strRoot = flt.strRoot)
        (fun flt' s h => foldl_keep (P := fun x : Flt => x.strRoot = flt.strRoot) (fun flt' p h => hkeep _ _ h) _ h)
        (fun flt' s _ h => ?_) rfl
      refine foldl_congr_inv (P := fun x : Flt => x.strRoot = flt.strRoot) (fun flt' p h => hkeep _ _ h)
        (fun flt' p _ h' => forEachOne_eq lim it (s, p) ?_) h
      rw [hlater h, hlater h']
      exact .cons _ (.swap ..)
    · have hpcp : ((it.pcp.toNat : Nat) : Int) = it.pcp := Int.toNat_of_nonneg (hp.resolve_left hwp)
      rw [hws] at hf
      rw [edgxPsfpFltForEach, if_neg (fun h => hwp h.2), if_neg (fun h => h.1 hws), if_pos ⟨hws, hwp⟩,
        edgxPsfpFltForEachWcStrHdl, updCells, cells, hws, hf]
      simp only [expand, PSFP_WC_STR_HDL, if_true, if_neg (show ¬ it.pcp = -1 from hwp), List.foldl_flatMap,
        List.map_cons, List.map_nil, List.foldl_cons, List.foldl_nil]
      refine foldl_congr_inv (P := fun x : Flt => x.strRoot = flt.strRoot) (fun flt' s h => hkeep _ _ h)
        (fun flt' s _ h => forEachOne_eq lim it (s, it.pcp.toNat) ?_) rfl
      rw [hlater h, hlater h, ← hpcp]
      exact .cons _ (.swap ..)
  · have hstr : ((it.strHdl.toNat : Nat) : Int) = it.strHdl := Int.toNat_of_nonneg (hs.resolve_left hws)
    by_cases hwp : it.pcp = PSFP_WC_PCP
    · rw [hwp] at hf
      rw [edgxPsfpFltForEach, if_neg (fun h => hws h.1), if_pos ⟨hws, hwp⟩, edgxPsfpFltForEachWcPcp, updCells, cells,
        hwp, hf]
      simp only [expand, PSFP_WC_PCP, if_true, if_neg (show ¬ it.strHdl = -1 from hws), List.flatMap_cons,
        List.flatMap_nil, List.append_nil, List.foldl_map]
      refine foldl_congr_inv (P := fun x : Flt => x.strRoot = flt.strRoot) (fun flt' p h => hkeep _ _ h)
        (fun flt' p _ h => forEachOne_eq lim it (it.strHdl.toNat, p) ?_) rfl
      rw [hlater h, hlater h, ← hstr]
      exact .cons _ (.swap ..)
    · have hpcp : ((it.pcp.toNat : Nat) : Int) = it.pcp := Int.toNat_of_nonneg (hp.resolve_left hwp)
      rw [edgxPsfpFltForEach, if_neg (fun h => hws h.1), if_neg (fun h => hwp h.2), if_neg (fun h => hws h.1),
        edgxPsfpFltForEachOne, updCells, cells, hf]
      simp only [expand, if_neg (show ¬ it.strHdl = -1 from hws), if_neg (show ¬ it.pcp = -1 from hwp),
        List.flatMap_cons, List.flatMap_nil, List.append_nil, List.map_cons, List.map_nil, List.foldl_cons,
        List.foldl_nil]
      refine forEachOne_eq lim it _ ?_
      rw [← hstr, ← hpcp]
      exact .refl _

end TsnSwitch.Psfp
