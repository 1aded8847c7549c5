/-
The hardware row of each cell is that of the lowest filter that matches the
cell (`rows_lowest`), after every run of calls and frames.

`Indexed` says that the trees of sub entries hold the configured filters.
Then the effective filter is the least matching one (`effSub_iff`), and a
write or a delete has to update just the cells the filter covers, and those
only when it is the first of its key.
-/
import TsnSwitch.Lib.Run
import TsnSwitch.Psfp.Effective

namespace TsnSwitch.Psfp

open Lib

/-! ## Configured filters -/

/-- The filters by index. -/
abbrev Config := Nat → Option FltDef

/-- The filter covers the cell, exactly or through a wildcard. -/
def FltDef.Matches (d : FltDef) (c : Cell) : Prop :=
  (d.strHdl = PSFP_WC_STR_HDL ∨ d.strHdl = c.1) ∧ (d.pcp = PSFP_WC_PCP ∨ d.pcp = c.2)

/-- The indices of the filters that match a cell. -/
def Config.matching (cfg : Config) (c : Cell) : Set Nat := {f | ∃ d, cfg f = some d ∧ d.Matches c}

/-- Filter `f` has the lowest index of those that match the cell. -/
def Config.Effective (cfg : Config) (c : Cell) (f : Nat) : Prop := IsLeast (cfg.matching c) f

/-- A write or a delete that returned 0 changes the configuration. -/
def Config.apply (cfg : Config) : Op × (Int × BitVec 32) → Config
  | (.write idx d _ _, ret, _) => if ret = 0 then Function.update cfg idx (some d) else cfg
  | (.del f, ret, _) => if ret = 0 then Function.update cfg f none else cfg
  | _ => cfg

/-- The filters as the driver has them. -/
def Flt.defs (flt : Flt) : Config := fun f => (flt.fltRoot f).map FltEntry.toFltDef

/-- A cell the hardware has. -/
def InRange (lim : Limits) (c : Cell) : Prop := c.1 < lim.maxStrCnt ∧ c.2 < EDGX_BR_NUM_PCP

def FltDef.key (d : FltDef) : Int × Int := (d.strHdl, d.pcp)

theorem key_mem {d : FltDef} {c : Cell} : d.key ∈ keys c ↔ d.Matches c := by
  simp only [FltDef.key, keys, List.mem_cons, List.not_mem_nil, or_false, Prod.mk.injEq, FltDef.Matches]
  tauto

/-- The handle is a wildcard or one of a stream, and so is the priority. -/
structure FltDef.Valid (lim : Limits) (d : FltDef) : Prop where
  str : d.strHdl = PSFP_WC_STR_HDL ∨ 0 ≤ d.strHdl ∧ d.strHdl < lim.maxStrCnt
  pcp : d.pcp = PSFP_WC_PCP ∨ 0 ≤ d.pcp ∧ d.pcp < EDGX_BR_NUM_PCP

theorem mem_expand {n : Nat} {i : Int} (h : i = -1 ∨ 0 ≤ i ∧ i < n) (k : Nat) :
    k ∈ expand n i ↔ k < n ∧ (i = -1 ∨ i = k) := by
  unfold expand
  split
  · rename_i hi
    simp [hi]
  · rename_i hi
    rw [List.mem_singleton]
    omega

/-- An update goes over the cells the filter matches. -/
theorem mem_cells {lim : Limits} {d : FltDef} (h : d.Valid lim) (c : Cell) :
    c ∈ cells lim d.strHdl d.pcp ↔ InRange lim c ∧ d.Matches c := by
  obtain ⟨s, p⟩ := c
  have hs := mem_expand h.str s
  have hp := mem_expand h.pcp p
  simp only [cells, List.mem_flatMap, List.mem_map, Prod.mk.injEq, InRange, FltDef.Matches, PSFP_WC_STR_HDL, PSFP_WC_PCP]
  constructor
  · rintro ⟨a, ha, b, hb, rfl, rfl⟩
    exact ⟨⟨(hs.1 ha).1, (hp.1 hb).1⟩, (hs.1 ha).2, (hp.1 hb).2⟩
  · rintro ⟨⟨hs₁, hp₁⟩, hs₂, hp₂⟩
    exact ⟨s, hs.2 ⟨hs₁, hs₂⟩, p, hp.2 ⟨hp₁, hp₂⟩, rfl, rfl⟩

/-! ## The effective filter is the least that matches -/

/-- The trees of sub entries hold the filters of `cfg`, in order. -/
structure Indexed (cfg : Config) (strRoot : Int × Int → Option (List Nat)) : Prop where
  mem : ∀ k f, f ∈ (strRoot k).getD [] ↔ ∃ d, cfg f = some d ∧ d.key = k
  sorted : ∀ k, ((strRoot k).getD []).Pairwise (· < ·)

section Indexed

variable {cfg : Config} {flt : Flt}

theorem firstSub_some {k : Int × Int} {f : Nat} (hi : Indexed cfg flt.strRoot)
    (h : edgxPsfpFltFirstSub flt k.1 k.2 = some f) :
    (∃ d, cfg f = some d ∧ d.key = k) ∧ ∀ g d, cfg g = some d → d.key = k → f ≤ g := by
  have hsorted := hi.sorted k
  have hmem := hi.mem k
  unfold edgxPsfpFltFirstSub at h
  cases hk : flt.strRoot k with
  | none => rw [show (k.1, k.2) = k from rfl, hk] at h; cases h
  | some l =>
    rw [show (k.1, k.2) = k from rfl, hk] at h
    rw [hk, Option.getD_some] at hsorted hmem
    cases l with
    | nil => cases h
    | cons a l =>
      obtain rfl : a = f := Option.some.inj h
      refine ⟨(hmem a).1 List.mem_cons_self, fun g d hg hd => ?_⟩
      rcases List.mem_cons.1 ((hmem g).2 ⟨d, hg, hd⟩) with rfl | hl
      · exact Nat.le_refl g
      · exact Nat.le_of_lt (List.rel_of_pairwise_cons hsorted hl)

theorem firstSub_isSome {f : Nat} {d : FltDef} (hi : Indexed cfg flt.strRoot) (h : cfg f = some d) :
    ∃ g, edgxPsfpFltFirstSub flt d.key.1 d.key.2 = some g ∧ g ≤ f := by
  have hmem := (hi.mem d.key f).2 ⟨d, h, rfl⟩
  cases hfirst : edgxPsfpFltFirstSub flt d.key.1 d.key.2 with
  | some g => exact ⟨g, rfl, (firstSub_some hi hfirst).2 f d h rfl⟩
  | none =>
    unfold edgxPsfpFltFirstSub at hfirst
    rw [show (d.key.1, d.key.2) = d.key from rfl] at hfirst
    cases hk : flt.strRoot d.key with
    | none => rw [hk] at hmem; cases hmem
    | some l =>
      rw [hk, Option.bind_some] at hfirst
      rw [hk, Option.getD_some, List.head?_eq_none_iff.1 hfirst] at hmem
      cases hmem

/-- **The effective filter is the lowest one that matches.** -/
theorem effSub_iff (hi : Indexed cfg flt.strRoot) {c : Cell} {f : Nat} : effSub flt c = some f ↔ cfg.Effective c f := by
  have hcand : ∀ g, g ∈ (((keys c).map fun k => edgxPsfpFltFirstSub flt k.1 k.2).filterMap id) ↔
      ∃ k ∈ keys c, edgxPsfpFltFirstSub flt k.1 k.2 = some g := by
    intro g
    simp only [List.mem_filterMap, List.mem_map, id_eq]
    constructor
    · rintro ⟨_, ⟨k, hk, rfl⟩, h⟩
      exact ⟨k, hk, h⟩
    · rintro ⟨k, hk, h⟩
      exact ⟨_, ⟨k, hk, rfl⟩, h⟩
  rw [effSub, findEffSub_eq, List.min?_eq_some_iff, hcand]
  constructor
  · rintro ⟨⟨k, hk, hfirst⟩, hmin⟩
    obtain ⟨⟨d, hd, rfl⟩, _⟩ := firstSub_some hi hfirst
    refine ⟨⟨d, hd, key_mem.1 hk⟩, ?_⟩
    rintro g ⟨e, he, hm⟩
    obtain ⟨g', hg', hle⟩ := firstSub_isSome hi he
    exact Nat.le_trans (hmin g' ((hcand g').2 ⟨e.key, key_mem.2 hm, hg'⟩)) hle
  · rintro ⟨⟨d, hd, hm⟩, hleast⟩
    have hlow : ∀ g k, k ∈ keys c → edgxPsfpFltFirstSub flt k.1 k.2 = some g → f ≤ g := by
      intro g k hk hg
      obtain ⟨⟨e, he, rfl⟩, _⟩ := firstSub_some hi hg
      exact hleast ⟨e, he, key_mem.1 hk⟩
    obtain ⟨g, hg, hle⟩ := firstSub_isSome hi hd
    obtain rfl : g = f := Nat.le_antisymm hle (hlow g _ (key_mem.2 hm) hg)
    refine ⟨⟨d.key, key_mem.2 hm, hg⟩, fun g' hg' => ?_⟩
    obtain ⟨k, hk, hfirst⟩ := (hcand g').1 hg'
    exact hlow g' k hk hfirst

end Indexed

/-! ## What an update does to the cells -/

theorem filterCmd_eq {lim : Limits} {c : Cell} (h : InRange lim c) : filterCmd c = c := by
  have hstr := lim.str_le
  obtain ⟨s, p⟩ := c
  obtain ⟨hs, hp⟩ := h
  simp only [PSFP_MAX_NO_STREAMS] at hstr
  simp only [EDGX_BR_NUM_PCP] at hp
  rw [filterCmd, Nat.mod_eq_of_lt (by dsimp only at *; omega), Nat.mod_eq_of_lt (by dsimp only at *; omega)]

theorem updateCntRef_defs (flt : Flt) (sube : Option Nat) (cur : Cnt) :
    (edgxPsfpFltUpdateCntRef flt sube cur).defs = flt.defs := by
  funext f
  unfold edgxPsfpFltUpdateCntRef Flt.defs
  cases sube with
  | none => rfl
  | some g =>
    by_cases h : f = g
    · subst h
      simp only [Function.update_self, Option.map_map]
      rfl
    · simp only [Function.update_of_ne h]

/-- What the counter part of an update leaves alone. -/
structure CntOnly (flt flt' : Flt) : Prop where
  defs : flt'.defs = flt.defs
  strRoot : flt'.strRoot = flt.strRoot
  curSub : flt'.curSub = flt.curSub
  rows : flt'.rows = flt.rows
  cnts : flt'.cnts = flt.cnts

theorem CntOnly.refl (flt : Flt) : CntOnly flt flt := ⟨rfl, rfl, rfl, rfl, rfl⟩

theorem updateCntRef_cntOnly (flt : Flt) (sube : Option Nat) (cur : Cnt) :
    CntOnly flt (edgxPsfpFltUpdateCntRef flt sube cur) := by
  refine ⟨updateCntRef_defs .., updateCntRef_strRoot .., ?_, ?_, ?_⟩ <;>
    unfold edgxPsfpFltUpdateCntRef <;> split <;> rfl

theorem CntOnly.trans {flt flt' flt'' : Flt} (h : CntOnly flt flt') (h' : CntOnly flt' flt'') : CntOnly flt flt'' :=
  ⟨h'.defs.trans h.defs, h'.strRoot.trans h.strRoot, h'.curSub.trans h.curSub, h'.rows.trans h.rows,
    h'.cnts.trans h.cnts⟩

theorem updCnt_cntOnly (it : Iter) (flt : Flt) (c : Cell) (eff : Option Nat) :
    CntOnly flt (edgxPsfpFltUpdCnt it flt c eff) := by
  unfold edgxPsfpFltUpdCnt
  dsimp only
  split
  · exact .refl flt
  · split
    · exact .refl flt
    · split <;> split
      · exact (updateCntRef_cntOnly ..).trans (updateCntRef_cntOnly ..)
      · exact updateCntRef_cntOnly ..
      · exact updateCntRef_cntOnly ..
      · exact .refl flt

/-- The row of a cell whose filter is `f`. -/
def rowOf (lim : Limits) (cfg : Config) (f : Option Nat) : FltRow := fltRow lim ((f.bind cfg).map FltDef.data)

/-- What one iteration does. -/
structure Iterated (lim : Limits) (flt flt' : Flt) (c : Cell) (eff : Option Nat) : Prop where
  defs : flt'.defs = flt.defs
  strRoot : flt'.strRoot = flt.strRoot
  curSub : flt'.curSub = Function.update flt.curSub c eff
  rows : flt'.rows = Function.update flt.rows (filterCmd c) (rowOf lim flt.defs eff)
  cnts : flt'.cnts = flt.cnts

theorem updHwIter_iterated (lim : Limits) (it : Iter) (flt : Flt) (c : Cell) (eff : Option Nat) :
    Iterated lim flt (edgxPsfpFltUpdHwIter lim it flt c eff) c eff := by
  have hdata : ((eff.bind flt.fltRoot).map fun e => e.data) = (eff.bind flt.defs).map FltDef.data := by
    cases eff with
    | none => rfl
    | some f =>
      simp only [Option.bind_some, Flt.defs, Option.map_map]
      rfl
  have hrow : (edgxPsfpFltWriteHw lim flt c ((eff.bind flt.fltRoot).map fun e => e.data)).rows =
      Function.update flt.rows (filterCmd c) (rowOf lim flt.defs eff) := by
    rw [rowOf, ← hdata]
    rfl
  unfold edgxPsfpFltUpdHwIter
  dsimp only
  split
  · have h := updCnt_cntOnly it (edgxPsfpFltWriteHw lim flt c ((eff.bind flt.fltRoot).map fun e => e.data)) c eff
    refine ⟨h.defs, h.strRoot, ?_, h.rows.trans hrow, h.cnts⟩
    dsimp only
    rw [h.curSub]
    rfl
  · exact ⟨rfl, rfl, rfl, hrow, rfl⟩

/-- What an update of cells does. -/
structure Updated (lim : Limits) (eff : Cell → Option Nat) (cs : List Cell) (flt flt' : Flt) : Prop where
  defs : flt'.defs = flt.defs
  strRoot : flt'.strRoot = flt.strRoot
  cnts : flt'.cnts = flt.cnts
  inside : ∀ c ∈ cs, flt'.curSub c = eff c ∧ flt'.rows c = rowOf lim flt.defs (eff c)
  outside : ∀ c, c ∉ cs → flt'.curSub c = flt.curSub c ∧ flt'.rows c = flt.rows c

theorem updCells_updated {lim : Limits} (it : Iter) (eff : Cell → Option Nat) {cs : List Cell}
    (hcs : ∀ c ∈ cs, InRange lim c) (flt : Flt) : Updated lim eff cs flt (updCells lim it eff cs flt) := by
  induction cs generalizing flt with
  | nil => exact ⟨rfl, rfl, rfl, fun c hc => (nomatch hc), fun c _ => ⟨rfl, rfl⟩⟩
  | cons a cs ih =>
    have h1 := updHwIter_iterated lim it flt a (eff a)
    have h2 := ih (fun c hc => hcs c (List.mem_cons_of_mem a hc)) (edgxPsfpFltUpdHwIter lim it flt a (eff a))
    have hrow := h1.rows
    rw [filterCmd_eq (hcs a List.mem_cons_self)] at hrow
    refine ⟨h2.defs.trans h1.defs, h2.strRoot.trans h1.strRoot, h2.cnts.trans h1.cnts, fun c hc => ?_, fun c hc => ?_⟩
    · by_cases hmem : c ∈ cs
      · have h := h2.inside c hmem
        rw [h1.defs] at h
        exact h
      · obtain rfl : c = a := (List.mem_cons.1 hc).resolve_right hmem
        obtain ⟨hcur, hr⟩ := h2.outside c hmem
        refine ⟨hcur.trans ?_, hr.trans ?_⟩
        · rw [h1.curSub, Function.update_self]
        · rw [hrow, Function.update_self]
    · obtain ⟨hne, hmem⟩ := not_or.1 (mt List.mem_cons.2 hc)
      obtain ⟨hcur, hr⟩ := h2.outside c hmem
      refine ⟨hcur.trans ?_, hr.trans ?_⟩
      · rw [h1.curSub, Function.update_of_ne hne]
      · rw [hrow, Function.update_of_ne hne]

/-! ## One filter more -/

/-- An element above another one of the set is not the least. -/
theorem isLeast_insert_of_lt {α : Type*} [Preorder α] {s : Set α} {a b x : α} (hb : b ∈ s) (hlt : b < a) :
    IsLeast (insert a s) x ↔ IsLeast s x := by
  constructor
  · rintro ⟨hx, hleast⟩
    refine ⟨hx.resolve_left ?_, fun y hy => hleast (Set.mem_insert_of_mem a hy)⟩
    rintro rfl
    exact absurd (hleast (Set.mem_insert_of_mem x hb)) (not_le_of_gt hlt)
  · rintro ⟨hx, hleast⟩
    refine ⟨Set.mem_insert_of_mem a hx, ?_⟩
    rintro y (rfl | hy)
    · exact le_trans (hleast hb) (le_of_lt hlt)
    · exact hleast hy

/-- The first of a sorted list is below every other element. -/
theorem head_lt {l : List Nat} (hs : l.Pairwise (· < ·)) {f : Nat} (hf : f ∈ l) (h : l.head? ≠ some f) :
    ∃ g ∈ l, g < f := by
  cases l with
  | nil => cases hf
  | cons g l =>
    have hne : f ≠ g := by rintro rfl; exact h rfl
    exact ⟨g, List.mem_cons_self, List.rel_of_pairwise_cons hs ((List.mem_cons.1 hf).resolve_left hne)⟩

/-- `cfg'` has the filter `f` defined as `d` besides those of `cfg`. -/
structure Extends (cfg cfg' : Config) (f : Nat) (d : FltDef) : Prop where
  fresh : cfg f = none
  eq : cfg' = Function.update cfg f (some d)

namespace Extends

variable {cfg cfg' : Config} {f : Nat} {d : FltDef}

theorem self (h : Extends cfg cfg' f d) : cfg' f = some d := by rw [h.eq, Function.update_self]

theorem other (h : Extends cfg cfg' f d) {g : Nat} (hg : g ≠ f) : cfg' g = cfg g := by
  rw [h.eq, Function.update_of_ne hg]

theorem ne_of_some (h : Extends cfg cfg' f d) {g : Nat} {e : FltDef} (hg : cfg g = some e) : g ≠ f := by
  rintro rfl
  rw [h.fresh] at hg
  cases hg

theorem cases_some (h : Extends cfg cfg' f d) {g : Nat} {e : FltDef} :
    cfg' g = some e ↔ (g = f ∧ e = d) ∨ cfg g = some e := by
  by_cases hg : g = f
  · subst hg
    rw [h.self, h.fresh]
    simp [eq_comm]
  · rw [h.other hg]
    simp [hg]

theorem matching (h : Extends cfg cfg' f d) (c : Cell) [Decidable (d.Matches c)] :
    cfg'.matching c = if d.Matches c then insert f (cfg.matching c) else cfg.matching c := by
  ext g
  simp only [Config.matching, h.cases_some, Set.mem_ofPred_eq]
  split
  · rename_i hm
    simp only [Set.mem_insert_iff, Set.mem_ofPred_eq]
    constructor
    · rintro ⟨e, ⟨rfl, rfl⟩ | he, hme⟩
      · exact .inl rfl
      · exact .inr ⟨e, he, hme⟩
    · rintro (rfl | ⟨e, he, hme⟩)
      · exact ⟨d, .inl ⟨rfl, rfl⟩, hm⟩
      · exact ⟨e, .inr he, hme⟩
  · rename_i hm
    constructor
    · rintro ⟨e, ⟨rfl, rfl⟩ | he, hme⟩
      · exact absurd hme hm
      · exact ⟨e, he, hme⟩
    · rintro ⟨e, he, hme⟩
      exact ⟨e, .inr he, hme⟩

/-- The filter makes no difference to a cell it does not match, or where a
lower one has the same key. -/
theorem effective_iff (h : Extends cfg cfg' f d) {c : Cell}
    (hc : ¬ d.Matches c ∨ ∃ g e, g < f ∧ cfg g = some e ∧ e.key = d.key) {x : Nat} :
    cfg'.Effective c x ↔ cfg.Effective c x := by
  classical
  unfold Config.Effective
  rw [h.matching c]
  split
  · rename_i hm
    obtain ⟨g, e, hlt, he, hkey⟩ := hc.resolve_left (not_not.2 hm)
    refine isLeast_insert_of_lt ⟨e, he, ?_⟩ hlt
    rw [← key_mem, hkey, key_mem]
    exact hm
  · exact Iff.rfl

/-- An effective filter of the smaller configuration has the same row in
both. -/
theorem rowOf_eq (h : Extends cfg cfg' f d) (lim : Limits) {c : Cell} {x : Option Nat}
    (hx : ∀ g, x = some g → cfg.Effective c g) : rowOf lim cfg' x = rowOf lim cfg x := by
  cases x with
  | none => rfl
  | some g =>
    obtain ⟨e, he, _⟩ := (hx g rfl).1
    rw [rowOf, rowOf, Option.bind_some, Option.bind_some, h.other (h.ne_of_some he)]

end Extends

/-- Two drivers with the same effective filters. -/
theorem effSub_congr {cfg cfg' : Config} {flt flt' : Flt} (hi : Indexed cfg flt.strRoot)
    (hi' : Indexed cfg' flt'.strRoot) {c : Cell} (h : ∀ x, cfg'.Effective c x ↔ cfg.Effective c x) :
    effSub flt' c = effSub flt c := by
  ext x
  rw [effSub_iff hi', effSub_iff hi]
  exact h x

/-- Inserting a filter into the trees. -/
theorem Indexed.insert {cfg cfg' : Config} {strRoot : Int × Int → Option (List Nat)} {f : Nat} {d : FltDef}
    (hi : Indexed cfg strRoot) (h : Extends cfg cfg' f d) :
    Indexed cfg' (Function.update strRoot d.key
      (some (((strRoot d.key).getD []).orderedInsert (· ≤ ·) f))) := by
  have hnot : ∀ k, f ∉ (strRoot k).getD [] := fun k hf => by
    obtain ⟨e, he, _⟩ := (hi.mem k f).1 hf
    exact h.ne_of_some he rfl
  refine ⟨fun k g => ?_, fun k => ?_⟩ <;> by_cases hk : k = d.key
  · subst hk
    rw [Function.update_self, Option.getD_some, List.mem_orderedInsert, hi.mem]
    constructor
    · rintro (rfl | ⟨e, he, hkey⟩)
      · exact ⟨d, h.self, rfl⟩
      · exact ⟨e, h.cases_some.2 (.inr he), hkey⟩
    · rintro ⟨e, he, hkey⟩
      rcases h.cases_some.1 he with ⟨rfl, rfl⟩ | he
      · exact .inl rfl
      · exact .inr ⟨e, he, hkey⟩
  · rw [Function.update_of_ne hk, hi.mem]
    constructor
    · rintro ⟨e, he, hkey⟩
      exact ⟨e, h.cases_some.2 (.inr he), hkey⟩
    · rintro ⟨e, he, hkey⟩
      rcases h.cases_some.1 he with ⟨rfl, rfl⟩ | he
      · exact absurd hkey.symm hk
      · exact ⟨e, he, hkey⟩
  · subst hk
    rw [Function.update_self, Option.getD_some]
    have hs := hi.sorted d.key
    rw [← List.sortedLT_iff_pairwise, List.sortedLT_iff_nodup_and_sortedLE, List.sortedLE_iff_pairwise]
    refine ⟨?_, (hs.imp fun hlt => Nat.le_of_lt hlt).orderedInsert f _⟩
    exact (List.perm_orderedInsert _ _ _).nodup_iff.2
      (List.nodup_cons.2 ⟨hnot _, hs.imp fun hlt => Nat.ne_of_lt hlt⟩)
  · rw [Function.update_of_ne hk]
    exact hi.sorted k

/-- Erasing a filter from the trees. -/
theorem Indexed.erase {cfg cfg' : Config} {strRoot : Int × Int → Option (List Nat)} {f : Nat} {d : FltDef}
    (hi : Indexed cfg' strRoot) (h : Extends cfg cfg' f d) :
    Indexed cfg (Function.update strRoot d.key
      (if (((strRoot d.key).getD []).erase f).isEmpty then none else some (((strRoot d.key).getD []).erase f))) := by
  have hget : ∀ l : List Nat, (if l.isEmpty then none else some l).getD [] = l := fun l => by
    cases l <;> rfl
  refine ⟨fun k g => ?_, fun k => ?_⟩ <;> by_cases hk : k = d.key
  · subst hk
    have hnd : ((strRoot d.key).getD []).Nodup := (hi.sorted d.key).imp fun hlt => Nat.ne_of_lt hlt
    rw [Function.update_self, hget, hnd.mem_erase_iff, hi.mem]
    constructor
    · rintro ⟨hne, e, he, hkey⟩
      exact ⟨e, (h.cases_some.1 he).resolve_left fun hc => hne hc.1, hkey⟩
    · rintro ⟨e, he, hkey⟩
      exact ⟨h.ne_of_some he, e, h.cases_some.2 (.inr he), hkey⟩
  · rw [Function.update_of_ne hk, hi.mem]
    constructor
    · rintro ⟨e, he, hkey⟩
      rcases h.cases_some.1 he with ⟨rfl, rfl⟩ | he
      · exact absurd hkey.symm hk
      · exact ⟨e, he, hkey⟩
    · rintro ⟨e, he, hkey⟩
      exact ⟨e, h.cases_some.2 (.inr he), hkey⟩
  · subst hk
    rw [Function.update_self, hget]
    exact (hi.sorted d.key).sublist List.erase_sublist
  · rw [Function.update_of_ne hk]
    exact hi.sorted k

/-! ## Calls -/

/-- The trees hold the filters, and each of them is for streams and priorities
that there are. -/
structure KeyInv (lim : Limits) (flt : Flt) : Prop where
  indexed : Indexed flt.defs flt.strRoot
  valid : ∀ f d, flt.defs f = some d → d.Valid lim

/-- The invariant: the trees hold the filters, and each cell has its
effective one. -/
structure RowInv (lim : Limits) (flt : Flt) : Prop where
  indexed : Indexed flt.defs flt.strRoot
  valid : ∀ f d, flt.defs f = some d → d.Valid lim
  cell : ∀ c, InRange lim c → flt.curSub c = effSub flt c ∧ flt.rows c = rowOf lim flt.defs (effSub flt c)

theorem valid_of_check {lim : Limits} {d : FltDef} (h : edgxPsfpFltCheck lim d = 0) : d.Valid lim := by
  unfold edgxPsfpFltCheck at h
  by_cases hs : d.strHdl = PSFP_WC_STR_HDL ∨ 0 ≤ d.strHdl ∧ d.strHdl < lim.maxStrCnt
  · rw [if_neg (not_not.2 hs)] at h
    by_cases hp : d.pcp = PSFP_WC_PCP ∨ 0 ≤ d.pcp ∧ d.pcp < EDGX_BR_NUM_PCP
    · exact ⟨hs, hp⟩
    · rw [if_pos hp] at h
      exact absurd h (by decide)
  · rw [if_pos hs] at h
    exact absurd h (by decide)

/-- The update that a filter triggers goes over the cells it matches. -/
theorem updHw_eq {lim : Limits} {flt : Flt} {f : Nat} {d : FltDef} (hd : flt.defs f = some d) (hv : d.Valid lim)
    (hcand : edgxPsfpFltGetCand flt ⟨d.strHdl, d.pcp, some f⟩ d.strHdl d.pcp =
      edgxPsfpFltFirstSub flt d.strHdl d.pcp) :
    edgxPsfpFltUpdHw lim flt (some f) =
      updCells lim ⟨d.strHdl, d.pcp, some f⟩ (effSub flt) (cells lim d.strHdl d.pcp) flt := by
  obtain ⟨e, he, rfl⟩ : ∃ e, flt.fltRoot f = some e ∧ e.toFltDef = d := by
    simpa [Flt.defs] using hd
  have hs : e.strHdl = PSFP_WC_STR_HDL ∨ 0 ≤ e.strHdl := hv.str.imp_right And.left
  have hp : e.pcp = PSFP_WC_PCP ∨ 0 ≤ e.pcp := hv.pcp.imp_right And.left
  simp only [edgxPsfpFltUpdHw, Option.bind_some, he]
  exact forEach_eq lim hcand hs hp

theorem updHw_updated {lim : Limits} {flt : Flt} {f : Nat} {d : FltDef} (hd : flt.defs f = some d) (hv : d.Valid lim)
    (hcand : edgxPsfpFltGetCand flt ⟨d.strHdl, d.pcp, some f⟩ d.strHdl d.pcp =
      edgxPsfpFltFirstSub flt d.strHdl d.pcp) :
    Updated lim (effSub flt) (cells lim d.strHdl d.pcp) flt (edgxPsfpFltUpdHw lim flt (some f)) := by
  rw [updHw_eq hd hv hcand]
  exact updCells_updated _ _ (fun c hc => ((mem_cells hv c).1 hc).1) flt

theorem linked_iff {flt : Flt} {f : Nat} {d : FltDef} (hd : flt.defs f = some d) :
    flt.linked f = true ↔ f ∈ (flt.strRoot d.key).getD [] := by
  obtain ⟨e, he, rfl⟩ : ∃ e, flt.fltRoot f = some e ∧ e.toFltDef = d := by
    simpa [Flt.defs] using hd
  simp only [Flt.linked, he, decide_eq_true_eq]
  exact Iff.rfl

section Calls

variable {lim : Limits} {flt : Flt}

theorem effSub_of_strRoot {flt' : Flt} (h : flt'.strRoot = flt.strRoot) (c : Cell) : effSub flt' c = effSub flt c := by
  unfold effSub
  congr 1
  exact List.map_congr_left fun k _ => firstSub_congr (congrFun h _)

/-- After an update every cell has its effective filter, if the cells that
the filter does not match had it before. -/
theorem Updated.cell {d : FltDef} {flt' : Flt} (hu : Updated lim (effSub flt) (cells lim d.strHdl d.pcp) flt flt')
    (hv : d.Valid lim) {c : Cell} (hc : InRange lim c)
    (hout : ¬ d.Matches c → flt.curSub c = effSub flt c ∧ flt.rows c = rowOf lim flt.defs (effSub flt c)) :
    flt'.curSub c = effSub flt c ∧ flt'.rows c = rowOf lim flt.defs (effSub flt c) := by
  by_cases hm : d.Matches c
  · exact hu.inside c ((mem_cells hv c).2 ⟨hc, hm⟩)
  · obtain ⟨hcur, hrow⟩ := hu.outside c fun hmem => hm ((mem_cells hv c).1 hmem).2
    rw [hcur, hrow]
    exact hout hm

/-- The driver after the new filter was put into the trees. -/
def Flt.inserted (flt : Flt) (f : Nat) (d : FltDef) : Flt :=
  { flt with strRoot := Function.update flt.strRoot (d.strHdl, d.pcp)
               (some (((flt.strRoot (d.strHdl, d.pcp)).getD []).orderedInsert (· ≤ ·) f))
             fltRoot := Function.update flt.fltRoot f (some { d with }) }

theorem inserted_extends {f : Nat} {d : FltDef} (hf : flt.fltRoot f = none) :
    Extends flt.defs (flt.inserted f d).defs f d := by
  refine ⟨by rw [Flt.defs, hf]; rfl, ?_⟩
  funext g
  unfold Flt.defs Flt.inserted
  by_cases hg : g = f
  · subst hg
    rw [Function.update_self]
    dsimp only
    rw [Function.update_self]
    rfl
  · rw [Function.update_of_ne hg]
    dsimp only
    rw [Function.update_of_ne hg]

/-- The driver after a write that is accepted. -/
def Flt.added (lim : Limits) (flt : Flt) (f : Nat) (d : FltDef) : Flt :=
  if ((((flt.strRoot (d.strHdl, d.pcp)).getD []).orderedInsert (· ≤ ·) f).head? = some f)
  then edgxPsfpFltUpdHw lim (flt.inserted f d) (some f) else flt.inserted f d

/-- The ways a write can end. -/
theorem write_cases (lim : Limits) (flt : Flt) (idx : Nat) (d : FltDef) (allocFlte allocStre : Bool)
    (hi : Indexed flt.defs flt.strRoot) :
    let r := fltTblWrite lim flt idx d allocFlte allocStre
    (r.1 ≠ 0 ∧ r.2 = flt) ∨
    (r.1 = 0 ∧ edgxPsfpFltCheck lim d = 0 ∧ flt.fltRoot idx = none ∧ r.2 = flt.added lim idx d) := by
  intro r
  have hEINVAL : -EINVAL ≠ 0 := by decide
  have hENOMEM : -ENOMEM ≠ 0 := by decide
  have hr : r = fltTblWrite lim flt idx d allocFlte allocStre := rfl
  unfold fltTblWrite at hr
  by_cases hidx : idx ≥ PSFP_MAX_NO_FILTERS
  · rw [if_pos hidx] at hr
    rw [hr]; exact .inl ⟨hEINVAL, rfl⟩
  rw [if_neg hidx] at hr
  by_cases hchk : edgxPsfpFltCheck lim d = 0
  · rw [if_neg (not_not.2 hchk)] at hr
    cases hroot : flt.fltRoot idx with
    | some e =>
      rw [hroot, if_pos (by rfl)] at hr
      rw [hr]; exact .inl ⟨(by decide : -EEXIST ≠ 0), rfl⟩
    | none =>
      rw [hroot, if_neg (by decide)] at hr
      cases allocFlte with
      | false =>
        rw [edgxPsfpFltAdd, if_pos (by decide)] at hr
        rw [hr]; exact .inl ⟨hENOMEM, rfl⟩
      | true =>
        rw [edgxPsfpFltAdd, if_neg (by decide)] at hr
        dsimp only at hr
        split at hr
        · rw [hr]; exact .inl ⟨hENOMEM, rfl⟩
        · have hnot : ¬ idx ∈ (flt.strRoot (d.strHdl, d.pcp)).getD [] := fun hmem => by
            obtain ⟨e, he, _⟩ := (hi.mem _ idx).1 hmem
            rw [Flt.defs, hroot] at he
            cases he
          rw [if_neg hnot, hroot, if_neg (by decide)] at hr
          right
          split at hr
          · rename_i hhead
            rw [hr, Flt.added, if_pos hhead]; exact ⟨rfl, hchk, rfl, rfl⟩
          · rename_i hhead
            rw [hr, Flt.added, if_neg hhead]; exact ⟨rfl, hchk, rfl, rfl⟩
  · rw [if_pos hchk] at hr
    rw [hr]; exact .inl ⟨hEINVAL, rfl⟩

/-- The candidate of a new filter that is the first of its key. -/
theorem getCand_inserted {f : Nat} {d : FltDef} (hd : (flt.inserted f d).defs f = some d)
    (hhead : (((flt.strRoot (d.strHdl, d.pcp)).getD []).orderedInsert (· ≤ ·) f).head? = some f) :
    edgxPsfpFltGetCand (flt.inserted f d) ⟨d.strHdl, d.pcp, some f⟩ d.strHdl d.pcp =
      edgxPsfpFltFirstSub (flt.inserted f d) d.strHdl d.pcp := by
  have hsubs : (flt.inserted f d).strRoot d.key =
      some (((flt.strRoot (d.strHdl, d.pcp)).getD []).orderedInsert (· ≤ ·) f) := Function.update_self ..
  have hlinked : (flt.inserted f d).linked f = true := by
    rw [linked_iff hd, hsubs]
    exact List.mem_of_mem_head? hhead
  have hfirst : edgxPsfpFltFirstSub (flt.inserted f d) d.strHdl d.pcp = some f := by
    unfold edgxPsfpFltFirstSub
    rw [show (d.strHdl, d.pcp) = d.key from rfl, hsubs]
    exact hhead
  simp only [edgxPsfpFltGetCand, hlinked, if_true, hfirst]

theorem KeyInv.inserted (h : KeyInv lim flt) {f : Nat} {d : FltDef} (hv : d.Valid lim) (hf : flt.fltRoot f = none) :
    KeyInv lim (flt.inserted f d) := by
  have hx := inserted_extends (d := d) hf
  refine ⟨h.indexed.insert hx, fun g e hg => ?_⟩
  rcases hx.cases_some.1 hg with ⟨_, rfl⟩ | hg
  · exact hv
  · exact h.valid g e hg

/-- The update of the cells leaves the filters alone. -/
theorem KeyInv.add (h : KeyInv lim flt) {f : Nat} {d : FltDef} (hv : d.Valid lim) (hf : flt.fltRoot f = none) :
    KeyInv lim (flt.added lim f d) ∧ (flt.added lim f d).defs = Function.update flt.defs f (some d) := by
  have hx := inserted_extends (d := d) hf
  have hi := h.inserted hv hf
  rw [Flt.added]
  split
  · rename_i hhead
    have hu := updHw_updated hx.self hv (getCand_inserted hx.self hhead)
    exact ⟨⟨by rw [hu.defs, hu.strRoot]; exact hi.indexed, by rw [hu.defs]; exact hi.valid⟩, hu.defs.trans hx.eq⟩
  · exact ⟨hi, hx.eq⟩

/-- A write that is accepted. -/
theorem RowInv.add (h : RowInv lim flt) {f : Nat} {d : FltDef} (hv : d.Valid lim) (hf : flt.fltRoot f = none) :
    RowInv lim (flt.added lim f d) ∧ (flt.added lim f d).defs = Function.update flt.defs f (some d) := by
  have hx := inserted_extends (d := d) hf
  have hkey : KeyInv lim flt := ⟨h.indexed, h.valid⟩
  have hi := (hkey.inserted hv hf).indexed
  obtain ⟨hadd, hdefs⟩ := hkey.add hv hf
  refine ⟨⟨hadd.indexed, hadd.valid, fun c hc => ?_⟩, hdefs⟩
  -- where the new filter makes no difference
  have hsame : (¬ d.Matches c ∨ ∃ g e, g < f ∧ flt.defs g = some e ∧ e.key = d.key) →
      (flt.inserted f d).curSub c = effSub (flt.inserted f d) c ∧
        (flt.inserted f d).rows c = rowOf lim (flt.inserted f d).defs (effSub (flt.inserted f d) c) := by
    intro hno
    have heff := effSub_congr h.indexed hi fun _ => hx.effective_iff hno
    obtain ⟨hcur, hrow⟩ := h.cell c hc
    rw [heff, hx.rowOf_eq lim fun g hg => (effSub_iff h.indexed).1 hg]
    exact ⟨hcur, hrow⟩
  rw [Flt.added]
  split
  · rename_i hhead
    have hu := updHw_updated hx.self hv (getCand_inserted hx.self hhead)
    rw [effSub_of_strRoot hu.strRoot, hu.defs]
    exact hu.cell hv hc fun hm => hsame (.inl hm)
  · rename_i hhead
    refine hsame (.inr ?_)
    have hmem : f ∈ ((flt.inserted f d).strRoot d.key).getD [] := (hi.mem d.key f).2 ⟨d, hx.self, rfl⟩
    have hsorted := hi.sorted d.key
    rw [show (flt.inserted f d).strRoot d.key = some _ from Function.update_self .., Option.getD_some] at hmem hsorted
    obtain ⟨g, hg, hlt⟩ := head_lt hsorted hmem hhead
    rw [List.mem_orderedInsert] at hg
    obtain ⟨e, he, hkey⟩ := (h.indexed.mem d.key g).1 (hg.resolve_left (Nat.ne_of_lt hlt))
    exact ⟨g, e, hlt, he, hkey⟩

/-- The driver after a filter was erased from its tree. -/
def Flt.erased (flt : Flt) (f : Nat) (d : FltDef) : Flt :=
  let subs := ((flt.strRoot d.key).getD []).erase f
  { flt with strRoot := Function.update flt.strRoot d.key (if subs.isEmpty then none else some subs) }

/-- The candidate of an erased filter. -/
theorem getCand_erased {f : Nat} {d : FltDef} (hd : flt.defs f = some d)
    (hi : Indexed (Function.update flt.defs f none) (flt.erased f d).strRoot) :
    edgxPsfpFltGetCand (flt.erased f d) ⟨d.strHdl, d.pcp, some f⟩ d.strHdl d.pcp =
      edgxPsfpFltFirstSub (flt.erased f d) d.strHdl d.pcp := by
  have hd' : (flt.erased f d).defs f = some d := hd
  have hnot : ¬ (flt.erased f d).linked f = true := by
    rw [linked_iff hd']
    intro hmem
    obtain ⟨e, he, _⟩ := (hi.mem d.key f).1 hmem
    rw [Function.update_self] at he
    cases he
  simp only [edgxPsfpFltGetCand, if_neg hnot]

/-- The driver without the entry of a filter. -/
def Flt.freed (flt : Flt) (f : Nat) : Flt := { flt with fltRoot := Function.update flt.fltRoot f none }

theorem freed_extends {f : Nat} {d : FltDef} (hd : flt.defs f = some d) :
    Extends (Function.update flt.defs f none) flt.defs f d :=
  ⟨Function.update_self .., by rw [Function.update_idem, ← hd, Function.update_eq_self]⟩

theorem freed_defs (flt : Flt) (f : Nat) : (flt.freed f).defs = Function.update flt.defs f none := by
  funext g
  unfold Flt.defs Flt.freed
  by_cases hg : g = f
  · subst hg
    rw [Function.update_self]
    dsimp only
    rw [Function.update_self]
    rfl
  · rw [Function.update_of_ne hg]
    dsimp only
    rw [Function.update_of_ne hg]

/-- The driver after a delete. -/
def Flt.deleted (lim : Limits) (flt : Flt) (f : Nat) (d : FltDef) : Flt :=
  (if ((flt.strRoot d.key).getD []).head? = some f then edgxPsfpFltUpdHw lim (flt.erased f d) (some f)
    else flt.erased f d).freed f

/-- The ways a delete can end. -/
theorem del_cases (lim : Limits) (flt : Flt) (f : Nat) :
    let r := fltDelStore lim flt f
    (r.1 ≠ 0 ∧ r.2 = flt) ∨
    (r.1 = 0 ∧ ∃ d, flt.defs f = some d ∧
      r.2 = flt.deleted lim f d) := by
  intro r
  have hr : r = fltDelStore lim flt f := rfl
  unfold fltDelStore at hr
  cases hroot : flt.fltRoot f with
  | none =>
    rw [hroot] at hr
    rw [hr]; exact .inl ⟨(by decide : -ENOENT ≠ 0), rfl⟩
  | some e =>
    rw [hroot] at hr
    right
    refine ⟨by rw [hr], e.toFltDef, by rw [Flt.defs, hroot]; rfl, ?_⟩
    rw [hr]
    simp only [decide_eq_true_eq]
    rfl

theorem KeyInv.del (h : KeyInv lim flt) {f : Nat} {d : FltDef} (hd : flt.defs f = some d) :
    KeyInv lim (flt.deleted lim f d) ∧ (flt.deleted lim f d).defs = Function.update flt.defs f none := by
  have hx := freed_extends hd
  have hi : Indexed (Function.update flt.defs f none) (flt.erased f d).strRoot := h.indexed.erase hx
  have hd' : (flt.erased f d).defs f = some d := hd
  have hvalid : ∀ g e, (Function.update flt.defs f none : Config) g = some e → e.Valid lim := fun g e hg =>
    h.valid g e (hx.cases_some.2 (.inr hg))
  have hrest : ∀ flt' : Flt, flt'.defs = flt.defs → flt'.strRoot = (flt.erased f d).strRoot →
      KeyInv lim (flt'.freed f) ∧ (flt'.freed f).defs = Function.update flt.defs f none := by
    intro flt' hdefs hstr
    have hfreed : (flt'.freed f).defs = Function.update flt.defs f none := by rw [freed_defs, hdefs]
    refine ⟨⟨?_, by rw [hfreed]; exact hvalid⟩, hfreed⟩
    rw [hfreed, show (flt'.freed f).strRoot = flt'.strRoot from rfl, hstr]
    exact hi
  rw [Flt.deleted]
  split
  · have hu := updHw_updated hd' (h.valid f d hd) (getCand_erased hd hi)
    exact hrest _ hu.defs hu.strRoot
  · exact hrest _ rfl rfl

/-- A delete. -/
theorem RowInv.del (h : RowInv lim flt) {f : Nat} {d : FltDef} (hd : flt.defs f = some d) :
    RowInv lim (flt.deleted lim f d) ∧ (flt.deleted lim f d).defs = Function.update flt.defs f none := by
  have hx := freed_extends hd
  have hi : Indexed (Function.update flt.defs f none) (flt.erased f d).strRoot := h.indexed.erase hx
  have hd' : (flt.erased f d).defs f = some d := hd
  have hv := h.valid f d hd
  have hkey : KeyInv lim flt := ⟨h.indexed, h.valid⟩
  obtain ⟨hdel, hdefs⟩ := hkey.del hd
  refine ⟨⟨hdel.indexed, hdel.valid, fun c hc => ?_⟩, hdefs⟩
  -- where the filter made no difference
  have hsame : (¬ d.Matches c ∨ ∃ g e, g < f ∧ (Function.update flt.defs f none : Config) g = some e ∧ e.key = d.key) →
      (flt.erased f d).curSub c = effSub (flt.erased f d) c ∧
        (flt.erased f d).rows c = rowOf lim (flt.erased f d).defs (effSub (flt.erased f d) c) := by
    intro hno
    have heff : effSub (flt.erased f d) c = effSub flt c :=
      effSub_congr h.indexed hi fun _ => (hx.effective_iff hno).symm
    rw [heff]
    exact h.cell c hc
  -- the rows written do not mention the erased filter
  have hrow : rowOf lim flt.defs (effSub (flt.erased f d) c) =
      rowOf lim (Function.update flt.defs f none) (effSub (flt.erased f d) c) :=
    hx.rowOf_eq lim fun g hg => (effSub_iff hi).1 hg
  rw [hdefs, Flt.deleted]
  split
  · have hu := updHw_updated hd' hv (getCand_erased hd hi)
    obtain ⟨hcur, hr⟩ := hu.cell hv hc fun hm => hsame (.inl hm)
    change _ = effSub (edgxPsfpFltUpdHw lim (flt.erased f d) (some f)) c ∧
      _ = rowOf lim _ (effSub (edgxPsfpFltUpdHw lim (flt.erased f d) (some f)) c)
    rw [effSub_of_strRoot hu.strRoot, ← hrow]
    exact ⟨hcur, hr⟩
  · rename_i hhead
    have hmem : f ∈ (flt.strRoot d.key).getD [] := (h.indexed.mem d.key f).2 ⟨d, hd, rfl⟩
    obtain ⟨g, hg, hlt⟩ := head_lt (h.indexed.sorted d.key) hmem hhead
    obtain ⟨e, he, hkey⟩ := (h.indexed.mem d.key g).1 hg
    have he' : (Function.update flt.defs f none : Config) g = some e := by
      rw [Function.update_of_ne (Nat.ne_of_lt hlt)]
      exact he
    obtain ⟨hcur, hr⟩ := hsame (.inr ⟨g, e, hlt, he', hkey⟩)
    change _ = effSub (flt.erased f d) c ∧ _ = rowOf lim _ (effSub (flt.erased f d) c)
    rw [← hrow]
    exact ⟨hcur, hr⟩

end Calls

/-! ## Runs -/

/-- Frames and reads leave the filters and rows alone. -/
theorem RowInv.step {lim : Limits} {flt : Flt} (h : RowInv lim flt) (op : Op) :
    RowInv lim (step lim flt op).2 ∧ (step lim flt op).2.defs = flt.defs.apply (op, (step lim flt op).1) := by
  cases op with
  | write idx d allocFlte allocStre =>
    rcases write_cases lim flt idx d allocFlte allocStre h.indexed with ⟨hne, heq⟩ | ⟨h0, hchk, hf, heq⟩ <;>
      simp only [Psfp.step, Config.apply, heq]
    · rw [if_neg hne]
      exact ⟨h, rfl⟩
    · rw [if_pos h0]
      exact h.add (valid_of_check hchk) hf
  | del f =>
    rcases del_cases lim flt f with ⟨hne, heq⟩ | ⟨h0, d, hd, heq⟩ <;> simp only [Psfp.step, Config.apply, heq]
    · rw [if_neg hne]
      exact ⟨h, rfl⟩
    · rw [if_pos h0]
      exact h.del hd
  | cntRead idx t => exact ⟨h, rfl⟩
  | frame c fr => exact ⟨⟨h.indexed, h.valid, h.cell⟩, rfl⟩

theorem RowInv.init (lim : Limits) (rows : Cell → FltRow) (cnts : Cell → Cnt) :
    RowInv lim (edgxPsfpFltInit lim rows cnts) ∧ (edgxPsfpFltInit lim rows cnts).defs = fun _ => none := by
  let blank : Flt := { rows, cnts }
  let all : FltDef := ⟨PSFP_WC_STR_HDL, PSFP_WC_PCP, psfpFltDataDefault⟩
  have hv : all.Valid lim := ⟨.inl rfl, .inl rfl⟩
  have hi : Indexed blank.defs blank.strRoot :=
    ⟨fun k f => ⟨fun h => (nomatch h), fun ⟨_, h, _⟩ => (nomatch h)⟩, fun k => .nil⟩
  have hfit : (⟨PSFP_WC_STR_HDL, PSFP_WC_PCP, none⟩ : Iter).Fits blank := rfl
  have heq : edgxPsfpFltInit lim rows cnts =
      updCells lim ⟨PSFP_WC_STR_HDL, PSFP_WC_PCP, none⟩ (effSub blank) (cells lim all.strHdl all.pcp) blank :=
    forEach_eq lim hfit (.inl rfl) (.inl rfl)
  have hcs : ∀ c ∈ cells lim all.strHdl all.pcp, InRange lim c := fun c hc => ((mem_cells hv c).1 hc).1
  have hu := updCells_updated ⟨PSFP_WC_STR_HDL, PSFP_WC_PCP, none⟩ (effSub blank) hcs blank
  rw [← heq] at hu
  refine ⟨⟨by rw [hu.defs, hu.strRoot]; exact hi, fun f d hd => ?_, fun c hc => ?_⟩, hu.defs⟩
  · rw [hu.defs] at hd
    cases hd
  · rw [effSub_of_strRoot hu.strRoot, hu.defs]
    exact hu.cell hv hc fun hm => absurd ⟨.inl rfl, .inl rfl⟩ hm

/-- The filters configured by the calls of a run, as their results tell. -/
def configured (lim : Limits) (rows : Cell → FltRow) (cnts : Cell → Cnt) (ops : List Op) : Config :=
  (outs (step lim) (edgxPsfpFltInit lim rows cnts) ops).foldl Config.apply fun _ => none

theorem rowInv_after (lim : Limits) (rows : Cell → FltRow) (cnts : Cell → Cnt) (ops : List Op) :
    RowInv lim (after (step lim) (edgxPsfpFltInit lim rows cnts) ops) ∧
      (after (step lim) (edgxPsfpFltInit lim rows cnts) ops).defs = configured lim rows cnts ops := by
  have h0 := RowInv.init lim rows cnts
  refine (Guarded.trivial ops).sim_after (R := fun flt cfg => RowInv lim flt ∧ flt.defs = cfg) h0 ?_
  rintro flt _ op ⟨h, rfl⟩ _
  exact h.step op

end TsnSwitch.Psfp
