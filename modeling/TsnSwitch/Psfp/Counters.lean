/-
The count that is read for a filter is the number of frames that arrived
while it was the effective filter of its cell (`count_read`), after every run
of calls and frames.

The hardware counts on while filters come and go, so `cntRef` of a filter is
re-based whenever it becomes effective or is displaced. What stays is the
count a reader would compute (`Flt.userCnt`): only a frame at the cell of the
effective filter adds to it.
-/
import TsnSwitch.Psfp.Rows

namespace TsnSwitch.Psfp

open Lib

/-! ## Who owns a frame -/

/-- The configured filters and the frames of each: those that arrived at a
cell while the filter was the effective one there, since it was created. -/
structure Ledger where
  cfg : Config := fun _ => none
  owned : Nat → List Frame := fun _ => []

open Classical in
noncomputable def Ledger.apply (l : Ledger) : Op × (Int × BitVec 32) → Ledger
  | (.write idx d allocFlte allocStre, out) =>
    ⟨l.cfg.apply (.write idx d allocFlte allocStre, out),
      if out.1 = 0 then Function.update l.owned idx [] else l.owned⟩
  | (.del f, out) => ⟨l.cfg.apply (.del f, out), l.owned⟩
  | (.cntRead _ _, _) => l
  | (.frame c fr, _) => ⟨l.cfg, fun f => if l.cfg.Effective c f then fr :: l.owned f else l.owned f⟩

/-- The ledger of a run, from the results of its calls. -/
noncomputable def ledger (lim : Limits) (rows : Cell → FltRow) (cnts : Cell → Cnt) (ops : List Op) : Ledger :=
  (outs (step lim) (edgxPsfpFltInit lim rows cnts) ops).foldl Ledger.apply {}

/-- The cell of a filter without wildcards. -/
def FltDef.cell (d : FltDef) : Cell := (d.strHdl.toNat, d.pcp.toNat)

def FltDef.isWc (d : FltDef) : Bool := Psfp.isWc d.strHdl d.pcp

/-- How many of the frames count, in 32 bits. -/
def count (frs : List Frame) (t : CntType) : BitVec 32 := BitVec.ofNat 32 (frs.countP fun fr => fr.counts t)

theorem not_wc {d : FltDef} (h : d.isWc = false) : d.strHdl ≠ PSFP_WC_STR_HDL ∧ d.pcp ≠ PSFP_WC_PCP := by
  simpa [FltDef.isWc, Psfp.isWc] using h

theorem eq_cell {d : FltDef} (h : d.isWc = false) {c : Cell} (hm : d.Matches c) : c = d.cell := by
  obtain ⟨hs, hp⟩ := hm
  have hs' := hs.resolve_left (not_wc h).1
  have hp' := hp.resolve_left (not_wc h).2
  rw [FltDef.cell, hs', hp', Int.toNat_natCast, Int.toNat_natCast]

/-- A filter without wildcards matches its cell, which the hardware has. -/
theorem cell_spec {lim : Limits} {d : FltDef} (h : d.isWc = false) (hv : d.Valid lim) :
    InRange lim d.cell ∧ d.Matches d.cell := by
  have hs := hv.str.resolve_left (not_wc h).1
  have hp := hv.pcp.resolve_left (not_wc h).2
  refine ⟨⟨?_, ?_⟩, .inr ?_, .inr ?_⟩ <;> dsimp only [FltDef.cell] <;> omega

theorem captCmd_eq {lim : Limits} {c : Cell} (h : InRange lim c) : captCmd c = c := by
  have hstr := lim.str_le
  obtain ⟨s, p⟩ := c
  obtain ⟨hs, hp⟩ := h
  simp only [PSFP_MAX_NO_STREAMS] at hstr
  simp only [EDGX_BR_NUM_PCP] at hp
  rw [captCmd, Nat.mod_eq_of_lt (by dsimp only at *; omega), Nat.mod_eq_of_lt (by dsimp only at *; omega)]

/-! ## Counts of frames -/

/-- A frame more. -/
theorem count_cons (fr : Frame) (frs : List Frame) (r : Raw) :
    count (fr :: frs) (.raw r) = count frs (.raw r) + if fr.counts (.raw r) then 1 else 0 := by
  rw [count, count, List.countP_cons, BitVec.ofNat_add]
  split <;> rfl

/-- The frames that do not pass are those that match less those that pass. -/
theorem count_sub {frs : List Frame} {t u : CntType} (h : ∀ fr : Frame, fr.counts t = !fr.counts u) :
    count frs (.raw .matchingFrames) - count frs u = count frs t := by
  have hall : frs.countP (fun fr => fr.counts (.raw .matchingFrames)) = frs.length :=
    List.countP_eq_length.2 fun fr _ => rfl
  have hsplit := List.length_eq_countP_add_countP (fun fr : Frame => fr.counts u) (l := frs)
  have hnot : frs.countP (fun fr => fr.counts t) = frs.countP (fun fr => decide (¬ fr.counts u = true)) :=
    List.countP_congr fun fr _ => by rw [h fr]; cases fr.counts u <;> decide
  rw [count, count, count, hall, hsplit, hnot, BitVec.ofNat_add, BitVec.add_comm, BitVec.add_sub_cancel]

/-- What a reader gets from the hardware and a reference is what it gets from
their difference. -/
theorem getUserCnt_sub (cur ref : Cnt) (t : CntType) :
    edgxPsfpFltGetUserCnt cur ref t = edgxPsfpFltGetUserCnt (fun r => cur r - ref r) (fun _ => 0) t := by
  cases t <;> simp only [edgxPsfpFltGetUserCnt] <;> bv_omega

theorem getUserCnt_count (frs : List Frame) (t : CntType) :
    edgxPsfpFltGetUserCnt (fun r => count frs (.raw r)) (fun _ => 0) t = count frs t := by
  cases t with
  | raw r => exact BitVec.sub_zero _
  | notPassingFrames =>
    rw [← count_sub (t := .notPassingFrames) (u := .raw .passingFrames) fun fr => rfl]
    simp [edgxPsfpFltGetUserCnt]
  | notPassingSdu =>
    rw [← count_sub (t := .notPassingSdu) (u := .raw .passingSdu) fun fr => rfl]
    simp [edgxPsfpFltGetUserCnt]

/-! ## The count of a filter -/

/-- The count of an entry, from its reference. -/
def Flt.cntOf (flt : Flt) (f : Nat) (e : FltEntry) : Cnt := fun r =>
  if flt.curSub e.cell = some f then flt.cnts e.cell r - e.cntRef r else e.cntRef r

def Flt.userCnt (flt : Flt) (f : Nat) : Option Cnt := (flt.fltRoot f).map (flt.cntOf f)

/-- An update of the reference of filter `g`, or of none. -/
theorem updateCntRef_fltRoot (flt : Flt) (sube : Option Nat) (cur : Cnt) (f : Nat) :
    (edgxPsfpFltUpdateCntRef flt sube cur).fltRoot f =
      if sube = some f then (flt.fltRoot f).map fun e => { e with cntRef := fun r => cur r - e.cntRef r }
      else flt.fltRoot f := by
  unfold edgxPsfpFltUpdateCntRef
  cases sube with
  | none => rfl
  | some g =>
    by_cases h : g = f
    · subst h
      rw [if_pos rfl]
      exact Function.update_self ..
    · rw [if_neg fun he => h (Option.some.inj he)]
      exact Function.update_of_ne (Ne.symm h) ..

/-- Which references an update of the counters re-bases: that of the new
filter of the cell, and that of the old one when the new one is the trigger. -/
theorem updCnt_fltRoot (it : Iter) (flt : Flt) (c : Cell) (eff : Option Nat) {f : Nat} (hwc : flt.isWc f = false) :
    (edgxPsfpFltUpdCnt it flt c eff).fltRoot f =
      if eff ≠ flt.curSub c ∧ (eff = some f ∨ it.trigger = eff ∧ flt.curSub c = some f) then
        (flt.fltRoot f).map fun e => { e with cntRef := fun r => edgxPsfpFltStrGetCntHw flt c r - e.cntRef r }
      else flt.fltRoot f := by
  unfold edgxPsfpFltUpdCnt
  dsimp only
  by_cases heq : eff = flt.curSub c
  · rw [if_pos heq, if_neg fun h => h.1 heq]
  rw [if_neg heq]
  generalize huE : (eff.any fun f => !flt.isWc f) = uE
  generalize huC : (it.trigger == eff && (flt.curSub c).any fun f => !flt.isWc f) = uC
  have hE : eff = some f → uE = true := fun h => by rw [← huE, h, Option.any_some, hwc]; rfl
  have hC : uC = true → it.trigger = eff := fun h => by
    rw [← huC, Bool.and_eq_true] at h
    exact eq_of_beq h.1
  have hC' : it.trigger = eff → flt.curSub c = some f → uC = true := fun h h' => by
    rw [← huC, h, h', Option.any_some, hwc]
    simp
  by_cases hnone : (!uE && !uC) = true
  · rw [Bool.and_eq_true, Bool.not_eq_true', Bool.not_eq_true'] at hnone
    rw [if_pos (by rw [hnone.1, hnone.2]; rfl), if_neg]
    rintro ⟨_, h | ⟨h, h'⟩⟩
    · exact absurd (hE h) (by rw [hnone.1]; decide)
    · exact absurd (hC' h h') (by rw [hnone.2]; decide)
  · rw [if_neg hnone]
    by_cases hf : eff = some f
    · have hcur : flt.curSub c ≠ some f := fun h => heq (hf.trans h.symm)
      have hcond : eff ≠ flt.curSub c ∧ (eff = some f ∨ it.trigger = eff ∧ flt.curSub c = some f) := ⟨heq, .inl hf⟩
      rw [if_pos (hE hf), if_pos hcond]
      cases uC with
      | true => rw [if_pos rfl, updateCntRef_fltRoot, if_neg hcur, updateCntRef_fltRoot, if_pos hf]
      | false => rw [if_neg Bool.false_ne_true, updateCntRef_fltRoot, if_pos hf]
    · have hkeep : (if uE = true then edgxPsfpFltUpdateCntRef flt eff (edgxPsfpFltStrGetCntHw flt c) else flt).fltRoot
          f = flt.fltRoot f := by
        cases uE with
        | true => rw [if_pos rfl, updateCntRef_fltRoot, if_neg hf]
        | false => rw [if_neg Bool.false_ne_true]
      generalize (if uE = true then edgxPsfpFltUpdateCntRef flt eff (edgxPsfpFltStrGetCntHw flt c) else flt) = flt₁
        at hkeep
      cases uC with
      | true =>
        rw [if_pos rfl, updateCntRef_fltRoot, hkeep]
        refine if_congr ?_ rfl rfl
        exact ⟨fun h => ⟨heq, .inr ⟨hC rfl, h⟩⟩, fun h => (h.2.resolve_left hf).2⟩
      | false =>
        rw [if_neg Bool.false_ne_true, hkeep, if_neg]
        rintro ⟨_, h | ⟨h, h'⟩⟩
        · exact hf h
        · exact absurd (hC' h h') Bool.false_ne_true

/-- What may happen to the filter of a cell without losing a count of `f`
when `g` triggers the update. -/
def Change (g f : Nat) (cur eff : Option Nat) : Prop := eff = cur ∨ eff = some g ∨ cur = some g ∧ f ≠ g

section Update

variable {lim : Limits} {it : Iter} {flt : Flt} {f g : Nat} {d : FltDef}

theorem updHwIter_fltRoot (ht : it.trigger = some g) {e : FltEntry} (he : flt.fltRoot f = some e) (hwc : e.isWc = false)
    {c : Cell} (hc : InRange lim c) (eff : Option Nat) :
    (edgxPsfpFltUpdHwIter lim it flt c eff).fltRoot f =
      if eff ≠ flt.curSub c ∧ (eff = some f ∨ some g = eff ∧ flt.curSub c = some f) then
        some { e with cntRef := fun r => flt.cnts c r - e.cntRef r }
      else some e := by
  generalize hflt₁ : edgxPsfpFltWriteHw lim flt c ((eff.bind flt.fltRoot).map fun e => e.data) = flt₁
  have hroot : flt₁.fltRoot = flt.fltRoot := by rw [← hflt₁]; rfl
  have hcur : flt₁.curSub = flt.curSub := by rw [← hflt₁]; rfl
  have hcnts : flt₁.cnts = flt.cnts := by rw [← hflt₁]; rfl
  have hwc' : flt₁.isWc f = false := by
    rw [Flt.isWc, hroot, he]
    exact hwc
  have h := updCnt_fltRoot it flt₁ c eff hwc'
  rw [ht, hcur, hroot, he, Option.map_some, edgxPsfpFltStrGetCntHw, hcnts, captCmd_eq hc] at h
  rw [edgxPsfpFltUpdHwIter, hflt₁, ht]
  exact h

/-- **A count survives a change of the effective filter.** The references of
both filters are re-based at the same hardware count. -/
theorem updHwIter_userCnt (ht : it.trigger = some g) (hd : flt.defs f = some d) (hwc : d.isWc = false) {c : Cell}
    (hc : InRange lim c) {eff : Option Nat} (hown : eff = some f ∨ flt.curSub c = some f → c = d.cell)
    (hch : Change g f (flt.curSub c) eff) : (edgxPsfpFltUpdHwIter lim it flt c eff).userCnt f = flt.userCnt f := by
  obtain ⟨e, he, rfl⟩ : ∃ e, flt.fltRoot f = some e ∧ e.toFltDef = d := by
    simpa [Flt.defs] using hd
  have hit := updHwIter_iterated lim it flt c eff
  have hroot := updHwIter_fltRoot ht he hwc hc eff
  rw [Flt.userCnt, hroot, Flt.userCnt, he, Option.map_some]
  by_cases hcond : eff ≠ flt.curSub c ∧ (eff = some f ∨ some g = eff ∧ flt.curSub c = some f)
  · rw [if_pos hcond, Option.map_some]
    obtain rfl : c = e.cell := hown (hcond.2.imp_right And.right)
    congr 1
    funext r
    unfold Flt.cntOf
    rw [hit.curSub, hit.cnts]
    dsimp only
    rw [Function.update_self]
    rcases hcond.2 with heff | ⟨_, hcur⟩
    · rw [if_pos heff, if_neg fun h => hcond.1 (heff.trans h.symm)]
      bv_omega
    · rw [if_neg fun h => hcond.1 (h.trans hcur.symm), if_pos hcur]
  · rw [if_neg hcond, Option.map_some]
    have hsame : (edgxPsfpFltUpdHwIter lim it flt c eff).curSub e.cell = some f ↔ flt.curSub e.cell = some f := by
      rw [hit.curSub]
      by_cases hcell : e.cell = c
      · subst hcell
        rw [Function.update_self]
        by_cases heq : eff = flt.curSub e.cell
        · rw [heq]
        · have heff : eff ≠ some f := fun h => hcond ⟨heq, .inl h⟩
          refine ⟨fun h => absurd h heff, fun h => ?_⟩
          rcases hch with hch | hch | ⟨hch, hne⟩
          · exact absurd hch heq
          · exact absurd ⟨heq, .inr ⟨hch.symm, h⟩⟩ hcond
          · exact absurd (Option.some.inj (h.symm.trans hch)) hne
      · rw [Function.update_of_ne hcell]
    congr 1
    funext r
    unfold Flt.cntOf
    rw [hit.cnts]
    exact if_congr hsame rfl rfl

/-- The counts survive the update of a list of cells. -/
theorem updCells_userCnt (ht : it.trigger = some g) (hwc : d.isWc = false) {eff : Cell → Option Nat} {cs : List Cell}
    (hcs : ∀ c ∈ cs, InRange lim c) (hd : flt.defs f = some d)
    (hown : ∀ c ∈ cs, eff c = some f ∨ flt.curSub c = some f → c = d.cell)
    (hch : ∀ c ∈ cs, Change g f (flt.curSub c) (eff c)) :
    (updCells lim it eff cs flt).userCnt f = flt.userCnt f := by
  induction cs generalizing flt with
  | nil => rfl
  | cons a cs ih =>
    have hit := updHwIter_iterated lim it flt a (eff a)
    -- a cell that was visited has its filter of `eff`
    have hcur : ∀ c, (edgxPsfpFltUpdHwIter lim it flt a (eff a)).curSub c = eff c ∨
        (edgxPsfpFltUpdHwIter lim it flt a (eff a)).curSub c = flt.curSub c := fun c => by
      rw [hit.curSub]
      by_cases hca : c = a
      · subst hca
        exact .inl (Function.update_self ..)
      · exact .inr (Function.update_of_ne hca ..)
    have hrest : (updCells lim it eff cs (edgxPsfpFltUpdHwIter lim it flt a (eff a))).userCnt f =
        (edgxPsfpFltUpdHwIter lim it flt a (eff a)).userCnt f := by
      refine ih (fun c hc => hcs c (List.mem_cons_of_mem a hc)) (hit.defs ▸ hd) (fun c hc h => ?_) fun c hc => ?_
      · refine hown c (List.mem_cons_of_mem a hc) (h.elim .inl fun h => ?_)
        rcases hcur c with heq | heq <;> rw [heq] at h
        · exact .inl h
        · exact .inr h
      · rcases hcur c with heq | heq <;> rw [heq]
        · exact .inl rfl
        · exact hch c (List.mem_cons_of_mem a hc)
    exact hrest.trans (updHwIter_userCnt ht hd hwc (hcs a List.mem_cons_self) (hown a List.mem_cons_self)
      (hch a List.mem_cons_self))

end Update

/-! ## Calls -/

/-- Without the filter `f`, another effective filter stays so. -/
theorem Extends.effective_of_ne {cfg cfg' : Config} {f : Nat} {d : FltDef} (hx : Extends cfg cfg' f d) {c : Cell}
    {x : Nat} (h : cfg'.Effective c x) (hne : x ≠ f) : cfg.Effective c x := by
  obtain ⟨⟨e, he, hm⟩, hleast⟩ := h
  refine ⟨⟨e, by rw [← hx.other hne]; exact he, hm⟩, ?_⟩
  rintro y ⟨e', he', hm'⟩
  exact hleast ⟨e', hx.cases_some.2 (.inr he'), hm'⟩

/-- A cell that a filter matches has an effective filter. -/
theorem exists_effective {cfg : Config} {f : Nat} {d : FltDef} (hd : cfg f = some d) {c : Cell} (hm : d.Matches c) :
    ∃ x, cfg.Effective c x := by
  classical
  have hne : ∃ x, x ∈ cfg.matching c := ⟨f, d, hd, hm⟩
  exact ⟨Nat.find hne, Nat.find_spec hne, fun y hy => Nat.find_min' hne hy⟩

section Calls

variable {lim : Limits} {flt : Flt} {owned : Nat → List Frame} {f g : Nat} {d e : FltDef}

theorem cell_of_effSub {cfg : Config} (hi : Indexed cfg flt.strRoot) (hd : cfg g = some e) (hwc : e.isWc = false)
    {c : Cell} (h : effSub flt c = some g) : c = e.cell := by
  obtain ⟨e', he', hm⟩ := ((effSub_iff hi).1 h).1
  obtain rfl : e = e' := Option.some.inj (hd.symm.trans he')
  exact eq_cell hwc hm

/-- A filter more changes the effective filter of a cell it matches to
itself, if at all. -/
theorem Extends.effSub_or {cfg cfg' : Config} {flt' : Flt} (hx : Extends cfg cfg' f d) (hi : Indexed cfg flt.strRoot)
    (hi' : Indexed cfg' flt'.strRoot) {c : Cell} (hm : d.Matches c) :
    effSub flt c = effSub flt' c ∨ effSub flt' c = some f := by
  obtain ⟨x, hx'⟩ := exists_effective hx.self hm
  rw [(effSub_iff hi').2 hx']
  by_cases hne : x = f
  · exact .inr (by rw [hne])
  · exact .inl ((effSub_iff hi).2 (hx.effective_of_ne hx' hne))

/-- The invariant: each filter without wildcards has the count of its
frames. -/
def CntInv (flt : Flt) (owned : Nat → List Frame) : Prop :=
  ∀ f d, flt.defs f = some d → d.isWc = false → flt.userCnt f = some fun r => count (owned f) (.raw r)

theorem userCnt_inserted (hr : RowInv lim flt) (h : CntInv flt owned) (hv : d.Valid lim) (hf : flt.fltRoot f = none) :
    CntInv (flt.inserted f d) (Function.update owned f []) := by
  intro g e hg hwc
  have hx := inserted_extends (d := d) hf
  by_cases hgf : g = f
  · subst hgf
    obtain rfl : d = e := Option.some.inj (hx.self.symm.trans hg)
    -- nothing refers to the new filter yet
    have hcur : flt.curSub d.cell ≠ some g := fun hcur => by
      rw [(hr.cell d.cell (cell_spec hwc hv).1).1] at hcur
      obtain ⟨e, he, _⟩ := ((effSub_iff hr.indexed).1 hcur).1
      exact hx.ne_of_some he rfl
    rw [Flt.userCnt, show (flt.inserted g d).fltRoot g = some { d with } from Function.update_self .., Option.map_some,
      Function.update_self]
    congr 1
    funext r
    exact if_neg hcur
  · have hd : flt.defs g = some e := by rw [← hx.other hgf]; exact hg
    rw [Function.update_of_ne hgf, ← h g e hd hwc, Flt.userCnt,
      show (flt.inserted f d).fltRoot g = flt.fltRoot g from Function.update_of_ne hgf ..]
    rfl

theorem CntInv.add (hr : RowInv lim flt) (h : CntInv flt owned) (hv : d.Valid lim) (hf : flt.fltRoot f = none) :
    CntInv (flt.added lim f d) (Function.update owned f []) := by
  have hins := userCnt_inserted hr h hv hf
  rw [Flt.added]
  split
  · rename_i hhead
    have hx := inserted_extends (d := d) hf
    have hi : Indexed (flt.inserted f d).defs (flt.inserted f d).strRoot := hr.indexed.insert hx
    have hcs : ∀ c ∈ cells lim d.strHdl d.pcp, InRange lim c := fun c hc => ((mem_cells hv c).1 hc).1
    have hcur : ∀ c ∈ cells lim d.strHdl d.pcp, (flt.inserted f d).curSub c = effSub flt c := fun c hc =>
      (hr.cell c (hcs c hc)).1
    rw [updHw_eq hx.self hv (getCand_inserted hx.self hhead)]
    intro g e hg hwc
    rw [(updCells_updated ⟨d.strHdl, d.pcp, some f⟩ _ hcs _).defs] at hg
    rw [← hins g e hg hwc]
    refine updCells_userCnt rfl hwc hcs hg (fun c hc hown => ?_) fun c hc => ?_
    · rcases hown with hown | hown
      · exact cell_of_effSub hi hg hwc hown
      · rw [hcur c hc] at hown
        obtain ⟨e', he', hm⟩ := ((effSub_iff hr.indexed).1 hown).1
        obtain rfl : e = e' := Option.some.inj (hg.symm.trans (hx.cases_some.2 (.inr he')))
        exact eq_cell hwc hm
    · rw [hcur c hc]
      exact (hx.effSub_or hr.indexed hi ((mem_cells hv c).1 hc).2).imp Eq.symm .inl
  · exact hins

theorem CntInv.del (hr : RowInv lim flt) (h : CntInv flt owned) (hd : flt.defs f = some d) :
    CntInv (flt.deleted lim f d) owned := by
  have hx := freed_extends hd
  have hi : Indexed (Function.update flt.defs f none) (flt.erased f d).strRoot := hr.indexed.erase hx
  have hv := hr.valid f d hd
  intro g e hg hwc
  rw [Flt.deleted, freed_defs] at hg
  rw [Flt.deleted]
  have hgf : g ≠ f := by
    rintro rfl
    rw [Function.update_self] at hg
    cases hg
  rw [Function.update_of_ne hgf] at hg
  have hfreed : ∀ flt' : Flt, (flt'.freed f).userCnt g = flt'.userCnt g := fun flt' => by
    rw [Flt.userCnt, show (flt'.freed f).fltRoot g = flt'.fltRoot g from Function.update_of_ne hgf ..]
    rfl
  rw [hfreed]
  split at hg <;> rename_i hhead
  · rw [if_pos hhead]
    have hcs : ∀ c ∈ cells lim d.strHdl d.pcp, InRange lim c := fun c hc => ((mem_cells hv c).1 hc).1
    have hcur : ∀ c ∈ cells lim d.strHdl d.pcp, (flt.erased f d).curSub c = effSub flt c := fun c hc =>
      (hr.cell c (hcs c hc)).1
    have hd' : (flt.erased f d).defs f = some d := hd
    rw [updHw_eq hd' hv (getCand_erased hd hi)] at hg ⊢
    rw [(updCells_updated ⟨d.strHdl, d.pcp, some f⟩ _ hcs _).defs] at hg
    have hg' : flt.defs g = some e := hg
    rw [← show (flt.erased f d).userCnt g = some _ from h g e hg' hwc]
    refine updCells_userCnt rfl hwc hcs hg (fun c hc hown => ?_) fun c hc => ?_
    · rcases hown with hown | hown
      · exact cell_of_effSub hi (by rw [Function.update_of_ne hgf]; exact hg') hwc hown
      · rw [hcur c hc] at hown
        exact cell_of_effSub hr.indexed hg' hwc hown
    · rw [hcur c hc]
      rcases hx.effSub_or hi hr.indexed ((mem_cells hv c).1 hc).2 with heq | heq
      · exact .inl heq
      · exact .inr (.inr ⟨heq, hgf⟩)
  · rw [if_neg hhead]
    exact h g e hg hwc

/-- A frame counts for the effective filter of its cell. -/
theorem CntInv.frame (hr : RowInv lim flt) (h : CntInv flt owned) (c : Cell) (fr : Frame)
    [∀ f, Decidable (flt.defs.Effective c f)] :
    CntInv (flt.frame c fr) fun f => if flt.defs.Effective c f then fr :: owned f else owned f := by
  intro g d hg hwc
  have hg' : flt.defs g = some d := hg
  have hcell := cell_spec hwc (hr.valid g d hg')
  have hcur := (hr.cell d.cell hcell.1).1
  obtain ⟨e, he, rfl⟩ : ∃ e, flt.fltRoot g = some e ∧ e.toFltDef = d := by
    simpa [Flt.defs] using hg'
  have hcnt := h g e.toFltDef hg' hwc
  rw [Flt.userCnt, he, Option.map_some, Option.some.injEq] at hcnt
  rw [Flt.userCnt, show (flt.frame c fr).fltRoot g = flt.fltRoot g from rfl, he, Option.map_some, Option.some.injEq]
  funext r
  have hcnt' := congrFun hcnt r
  unfold Flt.cntOf at hcnt' ⊢
  rw [show (flt.frame c fr).curSub = flt.curSub from rfl]
  dsimp only
  by_cases heff : flt.defs.Effective c g
  · obtain rfl : c = e.cell := cell_of_effSub hr.indexed hg' hwc ((effSub_iff hr.indexed).2 heff)
    have hme : flt.curSub e.cell = some g := hcur.trans ((effSub_iff hr.indexed).2 heff)
    rw [if_pos hme] at hcnt' ⊢
    rw [if_pos heff, count_cons, ← hcnt', show (flt.frame e.cell fr).cnts e.cell = _ from Function.update_self ..]
    bv_omega
  · rw [if_neg heff, ← hcnt']
    by_cases hme : flt.curSub e.cell = some g
    · -- the frame arrived elsewhere
      have hne : e.cell ≠ c := by
        rintro rfl
        exact heff ((effSub_iff hr.indexed).1 (hcur.symm.trans hme))
      rw [if_pos hme, if_pos hme, show (flt.frame c fr).cnts e.cell = flt.cnts e.cell from Function.update_of_ne hne ..]
    · rw [if_neg hme, if_neg hme]

end Calls

/-! ## Runs -/

/-- The driver agrees with the ledger. -/
structure Agrees (lim : Limits) (flt : Flt) (l : Ledger) : Prop where
  rows : RowInv lim flt
  cfg : flt.defs = l.cfg
  cnts : CntInv flt l.owned

theorem Agrees.step {lim : Limits} {flt : Flt} {l : Ledger} (h : Agrees lim flt l) (op : Op) :
    Agrees lim (step lim flt op).2 (l.apply (op, (step lim flt op).1)) := by
  obtain ⟨hr, hcfg, hcnts⟩ := h
  obtain ⟨hr', hcfg'⟩ := hr.step op
  rw [hcfg] at hcfg'
  cases op with
  | write idx d allocFlte allocStre =>
    refine ⟨hr', hcfg', ?_⟩
    rcases write_cases lim flt idx d allocFlte allocStre hr.indexed with ⟨hne, heq⟩ | ⟨h0, hchk, hf, heq⟩ <;>
      simp only [Psfp.step, Ledger.apply, heq]
    · rw [if_neg hne]
      exact hcnts
    · rw [if_pos h0]
      exact hcnts.add hr (valid_of_check hchk) hf
  | del f =>
    refine ⟨hr', hcfg', ?_⟩
    rcases del_cases lim flt f with ⟨hne, heq⟩ | ⟨h0, d, hd, heq⟩ <;> simp only [Psfp.step, Ledger.apply, heq]
    · exact hcnts
    · exact hcnts.del hr hd
  | cntRead idx t => exact ⟨hr, hcfg, hcnts⟩
  | frame c fr =>
    classical
    refine ⟨hr', hcfg, ?_⟩
    have h := hcnts.frame hr c fr
    rw [hcfg] at h
    exact h

theorem agrees_after (lim : Limits) (rows : Cell → FltRow) (cnts : Cell → Cnt) (ops : List Op) :
    Agrees lim (after (step lim) (edgxPsfpFltInit lim rows cnts) ops) (ledger lim rows cnts ops) := by
  obtain ⟨hr, hdefs⟩ := RowInv.init lim rows cnts
  have h0 : Agrees lim (edgxPsfpFltInit lim rows cnts) {} :=
    ⟨hr, hdefs, fun f d hd => by rw [hdefs] at hd; cases hd⟩
  exact (Guarded.trivial ops).sim_after (R := Agrees lim) h0 fun flt l op h _ => h.step op

/-- A read of a filter's count, in terms of the count it has. -/
theorem getCnt_eq {flt : Flt} {f : Nat} {d : FltDef} (hd : flt.defs f = some d) (hwc : d.isWc = false)
    (hcap : captCmd d.cell = d.cell) {u : Cnt} (hu : flt.userCnt f = some u) (t : CntType) :
    edgxPsfpFltGetCnt flt f t = (0, edgxPsfpFltGetUserCnt u (fun _ => 0) t) := by
  obtain ⟨e, he, rfl⟩ : ∃ e, flt.fltRoot f = some e ∧ e.toFltDef = d := by
    simpa [Flt.defs] using hd
  rw [Flt.userCnt, he, Option.map_some, Option.some.injEq] at hu
  subst hu
  have hwc' : Psfp.isWc e.strHdl e.pcp = false := hwc
  have hget : edgxPsfpFltGetCnt flt f t =
      if flt.curSub e.cell ≠ some f then (0, edgxPsfpFltGetUserCnt e.cntRef (fun _ => 0) t)
      else (0, edgxPsfpFltGetUserCnt (flt.cnts (captCmd e.cell)) e.cntRef t) := by
    simp only [edgxPsfpFltGetCnt, he, hwc']
    rfl
  rw [hget, hcap]
  by_cases hcur : flt.curSub e.cell = some f
  · have hcnt : flt.cntOf f e = fun r => flt.cnts e.cell r - e.cntRef r := funext fun r => if_pos hcur
    rw [if_neg (not_not.2 hcur), getUserCnt_sub, hcnt]
  · have hcnt : flt.cntOf f e = e.cntRef := funext fun r => if_neg hcur
    rw [if_pos hcur, hcnt]

/-- **The count that is read is the number of the filter's frames**, modulo
2^32 and for each counter, after every run. A read fails only for an index
the hardware has no counters for. -/
theorem count_read (lim : Limits) (rows : Cell → FltRow) (cnts : Cell → Cnt) (ops : List Op) (f : Nat) (d : FltDef)
    (hd : (ledger lim rows cnts ops).cfg f = some d) (hwc : d.isWc = false) (t : CntType) :
    let flt := after (step lim) (edgxPsfpFltInit lim rows cnts) ops
    (step lim flt (.cntRead f t)).1 =
      if f < lim.maxFltCnt then (0, count ((ledger lim rows cnts ops).owned f) t) else (-EINVAL, 0) := by
  intro flt
  obtain ⟨hr, hcfg, hcnts⟩ := agrees_after lim rows cnts ops
  rw [← hcfg] at hd
  have hread := getCnt_eq hd hwc (captCmd_eq (cell_spec hwc (hr.valid f d hd)).1) (hcnts f d hd hwc) t
  rw [getUserCnt_count] at hread
  have hmax : lim.maxFltCnt ≤ PSFP_MAX_NO_FILTERS := Nat.mul_le_mul_right _ lim.str_le
  simp only [step, fltStrCntRead]
  by_cases hf : f < lim.maxFltCnt
  · rw [if_neg (by omega), if_neg (by omega), if_pos hf]
    exact hread
  · rw [if_neg hf]
    split
    · rfl
    · rw [if_pos (by omega)]

/-- A frame while a lower wildcard filter is there is not counted. -/
theorem count_read_displaced :
    let lim : Limits := ⟨1, 1, 1, 1, by decide⟩
    let fr : Frame := ⟨true, true, false⟩
    let ops : List Op :=
      [.write 5 ⟨0, 0, { psfpFltDataDefault with gate := 0 }⟩ true true, .frame (0, 0) fr,
        .write 3 ⟨-1, 0, { psfpFltDataDefault with gate := 0 }⟩ true true, .frame (0, 0) fr, .del 3, .frame (0, 0) fr]
    let rows : Cell → FltRow := fun _ => ⟨0, 0, 0⟩
    let cnts : Cell → Cnt := fun _ _ => -1
    count ((ledger lim rows cnts ops).owned 5) (.raw .passingFrames) = 2 := by
  intro lim fr ops rows cnts
  have hcfg : (ledger lim rows cnts ops).cfg 5 = some ⟨0, 0, { psfpFltDataDefault with gate := 0 }⟩ := by
    rw [← (agrees_after lim rows cnts ops).cfg]
    decide +kernel
  have hread := count_read lim rows cnts ops 5 ⟨0, 0, { psfpFltDataDefault with gate := 0 }⟩ hcfg rfl (.raw .passingFrames)
  have heval : (step lim (after (step lim) (edgxPsfpFltInit lim rows cnts) ops) (.cntRead 5 (.raw .passingFrames))).1 =
      (0, 2) := by decide +kernel
  exact congrArg Prod.snd (hread.symm.trans heval)

end TsnSwitch.Psfp
