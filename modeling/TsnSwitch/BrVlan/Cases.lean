/-
Each operation of the VLAN tables, case by case, and `Links` through all of
them with any arguments (`Links.step`).
-/
import TsnSwitch.BrVlan.Links

namespace TsnSwitch.BrVlan

open Lib

variable {par : Params}

/-! ## Adding a port -/

/-- What `addPtFinish` does, if it returns. -/
structure Finished (s : EdgxBrVlan) (i : Nat) (f m : Nat) (p : Port) (s' : EdgxBrVlan) : Prop where
  tables : s'.toVlanTables = s.toVlanTables
  fidcfg : s'.hw.fidcfg =
    if (s.msti m).mstid ≠ EDGX_TE_MSTID then setFidcfg s.hw.fidcfg p f ((s.msti CIST_IDX).ptstate p)
    else s.hw.fidcfg
  regs : ∃ untagged, s'.hw.regs = writePt s.hw.regs (s.vid i) untagged p

theorem addPtFinish_cases (s : EdgxBrVlan) (i : Nat) (fid : Option Nat) (untagged pvid : Bool) (p : Port) :
    (addPtFinish s i fid untagged pvid p = none ∧ ∀ f m, fid = some f → s.mstiOf f = some m → False) ∨
    ∃ f m s', fid = some f ∧ s.mstiOf f = some m ∧ addPtFinish s i fid untagged pvid p = some s' ∧
      Finished s i f m p s' := by
  cases fid with
  | none => exact .inl ⟨rfl, fun _ _ h => nomatch h⟩
  | some f =>
    cases hm : (s.fid f).msti with
    | none =>
      refine .inl ⟨?_, ?_⟩
      · simp only [addPtFinish, hm]
      · rintro f' m hf hm'
        obtain rfl := Option.some.inj hf
        exact nomatch hm.symm.trans hm'
    | some m =>
      obtain ⟨s', hs'⟩ : ∃ s', addPtFinish s i (some f) untagged pvid p = some s' := by
        simp only [addPtFinish, hm]
        exact ⟨_, rfl⟩
      refine .inr ⟨f, m, s', rfl, hm, hs', ?_⟩
      simp only [addPtFinish, hm, Option.some.injEq] at hs'
      subst hs'
      by_cases hte : (s.msti m).mstid ≠ EDGX_TE_MSTID
      · simp only [if_pos hte]
        cases pvid <;> exact ⟨rfl, (if_pos hte).symm, untagged, rfl⟩
      · simp only [if_neg hte]
        cases pvid <;> exact ⟨rfl, (if_neg hte).symm, untagged, rfl⟩

/-- An operation that changes no VID and no pointer. -/
structure SameLinks (s s' : EdgxBrVlan) : Prop where
  nvlans : s'.nvlans = s.nvlans
  vid : ∀ j, (s'.vid j).vid = (s.vid j).vid
  fidOf : s'.fidOf = s.fidOf
  fid : s'.fid = s.fid
  msti : s'.msti = s.msti
  fidcfg : s'.hw.fidcfg = s.hw.fidcfg

theorem SameLinks.linked {s s' : EdgxBrVlan} (h : SameLinks s s') (hl : Linked par s.toVlanTables) :
    Linked par s'.toVlanTables := by
  have hvlans : s'.vlansOf = s.vlansOf := by
    funext f
    rw [VlanTables.vlansOf, VlanTables.vlansOf, h.fid]
  have hmsti : s'.mstiOf = s.mstiOf := by
    funext f
    rw [VlanTables.mstiOf, VlanTables.mstiOf, h.fid]
  have hfids : s'.fidsOf = s.fidsOf := by
    funext m
    rw [VlanTables.fidsOf, VlanTables.fidsOf, h.msti]
  refine hl.renumber h.fidOf hvlans hmsti hfids ?_ ?_ ?_ ?_
  · simp only [h.vid]
    exact hl.vid_inj
  · rw [h.msti]
    exact hl.mstid_inj
  · rw [h.msti]
    exact hl.cist
  · rw [h.msti]
    exact hl.te

theorem SameLinks.links {s s' : EdgxBrVlan} (h : SameLinks s s') (hl : Links par s.toVlanTables) :
    Links par s'.toVlanTables := by
  refine ⟨h.linked hl.toLinked, fun i hi hv => ?_⟩
  rw [h.fidOf]
  exact hl.alloc i hi (h.vid i ▸ hv)

/-- A VLAN is put into slot `i` and its FID `f` into the CIST. -/
structure VlanAdded (par : Params) (s : EdgxBrVlan) (i f : Nat) (v : BitVec 16) (s' : EdgxBrVlan) : Prop where
  linked : Linked par s'.toVlanTables
  nvlans : s'.nvlans = s.nvlans + 1
  vid : ∀ j, (s'.vid j).vid = if j = i then v else (s.vid j).vid
  fidOf : s'.fidOf = Function.update s.fidOf i (some f)
  mstiOf : s'.mstiOf = Function.update s.mstiOf f (some CIST_IDX)
  mstid : ∀ m, (s'.msti m).mstid = (s.msti m).mstid
  ptstate : ∀ m, (s'.msti m).ptstate = (s.msti m).ptstate
  regs : s'.hw.regs = writeVid2fid s.hw.regs v f
  fidcfg : s'.hw.fidcfg = s.hw.fidcfg

/-- A new VID in a slot. -/
theorem Linked.setVid {t : VlanTables} (h : Linked par t) {i : Nat} {vid : BitVec 16}
    (hnew : ∀ j < par.maxVlans, (t.vid j).vid ≠ vid) (ptvec : BitVec 32) :
    Linked par { t with vid := Function.update t.vid i { t.vid i with vid, ptvec } } := by
  have hv : ∀ j, (Function.update t.vid i { t.vid i with vid, ptvec } j).vid = if j = i then vid else (t.vid j).vid := by
    intro j
    rw [Function.update_apply]
    split <;> rfl
  refine h.renumber ?_ rfl rfl rfl ?_ h.mstid_inj h.cist h.te
  · funext j
    simp only [VlanTables.fidOf, Function.update_apply]
    split
    · rename_i hj
      rw [hj]
    · rfl
  · intro j hj k hk hne he
    rw [hv] at hne he
    rw [hv] at he
    by_cases hji : j = i <;> by_cases hki : k = i
    · rw [hji, hki]
    · rw [if_pos hji, if_neg hki] at he
      exact absurd he.symm (hnew k hk)
    · rw [if_neg hji, if_pos hki] at he
      exact absurd he (hnew j hj)
    · rw [if_neg hji] at hne
      rw [if_neg hji, if_neg hki] at he
      exact h.vid_inj j hj k hk hne he

/-- Moving a FID without VLANs writes no register. -/
theorem moveFid2msti_hw {s : EdgxBrVlan} {f m : Nat} (he : (s.fid f).vlanlist = [])
    (hte : (s.msti m).mstid ≠ EDGX_TE_MSTID) : (edgxBrMoveFid2msti par s f m).hw = s.hw := by
  unfold edgxBrMoveFid2msti
  split
  · rfl
  · have hid : ∀ s' : EdgxBrVlan, (s'.fid f).vlanlist = [] → (edgxBrVlanSetTeFid par s' f false).hw = s'.hw := by
      intro s' h
      simp only [edgxBrVlanSetTeFid, h, writeTeFid, List.foldl_nil, Bool.false_eq_true, if_false]
    have hne : ((s.msti m).mstid == EDGX_TE_MSTID) = false := beq_eq_false_iff_ne.2 hte
    split <;> simp only [EdgxBrVlan.delFidEntry, Function.update_self, hne] <;>
      exact hid _ (by simp only [Function.update_self, he])

theorem vlanAdded {s : EdgxBrVlan} (hl : Linked par s.toVlanTables) {i f : Nat} {vid : BitVec 16} (ptvec : BitVec 32)
    (hi : i < par.maxVlans) (hf : f < par.maxFids) (hempty : (s.fid f).vlanlist = [])
    (hnew : ∀ j < par.maxVlans, (s.vid j).vid ≠ vid) :
    let s₁ : EdgxBrVlan := { s with vid := Function.update s.vid i { s.vid i with vid, ptvec } }
    let s₂ := edgxBrMoveVid2fid (edgxBrSetFid2msti par s₁ f EDGX_CIST_MSTID).2 i f
    VlanAdded par s i f vid { s₂ with nvlans := s₂.nvlans + 1 } := by
  intro s₁ s₂
  have hl₁ : Linked par s₁.toVlanTables := hl.setVid hnew ptvec
  have hfid₁ : s₁.fidOf = s.fidOf := by
    funext j
    simp only [s₁, VlanTables.fidOf, Function.update_apply]
    split
    · rename_i hj
      rw [hj]
    · rfl
  have hvid₁ : ∀ j, (s₁.vid j).vid = if j = i then vid else (s.vid j).vid := by
    intro j
    simp only [s₁, Function.update_apply]
    split <;> rfl
  have hmove : (edgxBrSetFid2msti par s₁ f EDGX_CIST_MSTID).2 = edgxBrMoveFid2msti par s₁ f CIST_IDX := by
    rw [edgxBrSetFid2msti, if_neg (show ¬ f ≥ par.maxVlans from Nat.not_le.2 hf), hl₁.getMsti_cist]
  have hcist : (s₁.msti CIST_IDX).mstid ≠ EDGX_TE_MSTID := by
    rw [hl₁.cist]
    decide
  have hhw : (edgxBrMoveFid2msti par s₁ f CIST_IDX).hw = s₁.hw := moveFid2msti_hw hempty hcist
  have h0 : CIST_IDX < par.maxMstis := Nat.lt_trans (by decide) (one_lt_maxMstis par)
  -- the tables after the FID is in the CIST
  obtain ⟨hl₂, hvid₂, hfid₂, hmsti₂, hmstid₂, hptstate₂, hn₂⟩ :
      let s' := edgxBrMoveFid2msti par s₁ f CIST_IDX
      Linked par s'.toVlanTables ∧ s'.vid = s₁.vid ∧ s'.fidOf = s₁.fidOf ∧
        s'.mstiOf = Function.update s₁.mstiOf f (some CIST_IDX) ∧ (∀ m, (s'.msti m).mstid = (s₁.msti m).mstid) ∧
        (∀ m, (s'.msti m).ptstate = (s₁.msti m).ptstate) ∧ s'.nvlans = s₁.nvlans := by
    by_cases hm : s₁.mstiOf f = some CIST_IDX
    · rw [moveFid2msti_same hm]
      exact ⟨hl₁, rfl, rfl, by rw [← hm, Function.update_eq_self], fun _ => rfl, fun _ => rfl, rfl⟩
    · have hmoved : FidMoved s₁.toVlanTables f CIST_IDX (edgxBrMoveFid2msti par s₁ f CIST_IDX).toVlanTables :=
        moveFid2msti_moved hl₁.fids hm
      refine ⟨hl₁.moveFid hmoved hf h0, hmoved.vid, ?_, hmoved.owner, hmoved.mstid, hmoved.ptstate, hmoved.nvlans⟩
      funext j
      rw [VlanTables.fidOf, VlanTables.fidOf, hmoved.vid]
  have hne : (edgxBrMoveFid2msti par s₁ f CIST_IDX).fidOf i ≠ some f := by
    rw [hfid₂, hfid₁]
    intro hc
    have hmem := (hl.vlans.mem_iff i f).2 hc
    rw [VlanTables.vlansOf, hempty] at hmem
    cases hmem
  have hmoved := moveVid2fid_moved hl₂.vlans hne
  have hs₂ : s₂ = edgxBrMoveVid2fid (edgxBrMoveFid2msti par s₁ f CIST_IDX) i f := by rw [← hmove]
  rw [hs₂]
  have hl₃ := hl₂.moveVid hmoved hi hf
  have hvi : ((edgxBrMoveFid2msti par s₁ f CIST_IDX).vid i).vid = vid := by
    rw [hvid₂, hvid₁, if_pos rfl]
  have hhw₃ := moveVid2fid_hw hne
  rw [hhw, hvi] at hhw₃
  refine ⟨?_, ?_, fun j => ?_, ?_, ?_, fun m => ?_, fun m => ?_, ?_, ?_⟩
  · exact hl₃.renumber rfl rfl rfl rfl hl₃.vid_inj hl₃.mstid_inj hl₃.cist hl₃.te
  · exact congrArg (· + 1) (hmoved.nvlans.trans hn₂)
  · exact (hmoved.vid j).trans (by rw [hvid₂, hvid₁])
  · exact hmoved.owner.trans (by rw [hfid₂, hfid₁])
  · exact hmoved.mstis.trans hmsti₂
  · exact (congrArg (fun g => (g m).mstid) hmoved.msti).trans (hmstid₂ m)
  · exact (congrArg (fun g => (g m).ptstate) hmoved.msti).trans (hptstate₂ m)
  · have hregs := congrArg VlanHw.regs hhw₃
    exact hregs
  · have hcfg := congrArg VlanHw.fidcfg hhw₃
    exact hcfg

theorem setPtvec_vid (vid : Nat → Vlan) (i : Nat) (ptvec : BitVec 32) (j : Nat) :
    (Function.update vid i { vid i with ptvec } j).vid = (vid j).vid := by
  rw [Function.update_apply]
  split
  · rename_i hj
    rw [hj]
  · rfl

theorem setPtvec_fid (vid : Nat → Vlan) (i : Nat) (ptvec : BitVec 32) (j : Nat) :
    (Function.update vid i { vid i with ptvec } j).fid = (vid j).fid := by
  rw [Function.update_apply]
  split
  · rename_i hj
    rw [hj]
  · rfl

/-- Only the ports of a VLAN are new. -/
theorem SameLinks.of_ptvec {s s' : EdgxBrVlan} {i : Nat} {ptvec : BitVec 32}
    (h : s'.toVlanTables = { s.toVlanTables with vid := Function.update s.vid i { s.vid i with ptvec } })
    (hcfg : s'.hw.fidcfg = s.hw.fidcfg) : SameLinks s s' where
  nvlans := congrArg (·.nvlans) h
  vid j := (congrArg (fun t => (t.vid j).vid) h).trans (setPtvec_vid ..)
  fidOf := funext fun j => (congrArg (fun t => (t.vid j).fid) h).trans (setPtvec_fid ..)
  fid := congrArg (·.fid) h
  msti := congrArg (·.msti) h
  fidcfg := hcfg

theorem setFid2msti_vid (s : EdgxBrVlan) (f : Nat) (mstid : BitVec 16) : (edgxBrSetFid2msti par s f mstid).2.vid = s.vid := by
  unfold edgxBrSetFid2msti
  split
  · rfl
  · split
    · unfold edgxBrMoveFid2msti
      split
      · rfl
      · simp only [setTeFid_tables]
        split <;> rfl
    · rfl

theorem moveVid2fid_ptvec (s : EdgxBrVlan) (i f j : Nat) : ((edgxBrMoveVid2fid s i f).vid j).ptvec = (s.vid j).ptvec := by
  unfold edgxBrMoveVid2fid
  split
  · rfl
  · split <;> simp only [EdgxBrVlan.delVlanEntry, Function.update_apply] <;> split <;> simp_all

/-- A port is not added to a VLAN before the tables are looked at. -/
def addPtRefused (par : Params) (s : EdgxBrVlan) (untagged pvid : Bool) : Bool :=
  s.nvlans.toNat ≥ par.maxVlans || pvid && !untagged

theorem addPt_refused {s : EdgxBrVlan} {vid : BitVec 16} {untagged pvid : Bool} (p : Port)
    (h : addPtRefused par s untagged pvid = true ∨ edgxBrVlanGetVlan par s vid = none ∧
      (edgxBrVlanGetFreeVlan par s = none ∨ edgxBrVlanGetFreeFid par s = none)) :
    ∃ e < 0, edgxBrVlanAddPt par s vid untagged pvid p = some (e, s) := by
  unfold edgxBrVlanAddPt
  split
  · exact ⟨-ENOMEM, by decide, rfl⟩
  · rename_i hn
    split
    · exact ⟨-EINVAL, by decide, rfl⟩
    · rename_i hu
      rcases h with h | ⟨hv, hfree⟩
      · rw [addPtRefused, decide_eq_false hn, Bool.false_or] at h
        exact absurd h hu
      · refine ⟨-ENOMEM, by decide, ?_⟩
        rw [hv]
        rcases hfree with hfree | hfree <;> rw [hfree]
        cases edgxBrVlanGetFreeVlan par s <;> rfl

section NotRefused

variable {s : EdgxBrVlan} {vid : BitVec 16} {untagged pvid : Bool} {i f : Nat}
  (hr : addPtRefused par s untagged pvid = false)

include hr

/-- A VLAN that is there gets the port. -/
theorem addPt_there (hv : edgxBrVlanGetVlan par s vid = some i) (p : Port) :
    ∃ s₁ : EdgxBrVlan,
      s₁.toVlanTables =
        { s.toVlanTables with vid := Function.update s.vid i { s.vid i with ptvec := (s.vid i).ptvec ||| BIT p } } ∧
      s₁.hw.regs = s.hw.regs ∧ s₁.hw.fidcfg = s.hw.fidcfg ∧
      edgxBrVlanAddPt par s vid untagged pvid p = (addPtFinish s₁ i (s.fidOf i) untagged pvid p).map fun s => (0, s) := by
  obtain ⟨hn, hu⟩ := Bool.or_eq_false_iff.1 hr
  unfold edgxBrVlanAddPt
  rw [if_neg (of_decide_eq_false hn), if_neg (Bool.eq_false_iff.1 hu)]
  simp only [hv]
  generalize hs₁ : (if vid = (s.hw.pvid p).setWidth 16 ∧ pvid = false then _ else _ : EdgxBrVlan) = s₁
  obtain ⟨htables, hregs, hcfg⟩ : s₁.toVlanTables =
      { s.toVlanTables with vid := Function.update s.vid i { s.vid i with ptvec := (s.vid i).ptvec ||| BIT p } } ∧
      s₁.hw.regs = s.hw.regs ∧ s₁.hw.fidcfg = s.hw.fidcfg := by
    rw [← hs₁]
    split <;> exact ⟨rfl, rfl, rfl⟩
  have hfid : (s₁.vid i).fid = s.fidOf i := (congrArg (fun t => (t.vid i).fid) htables).trans (setPtvec_fid ..)
  exact ⟨s₁, htables, hregs, hcfg, by rw [hfid]⟩

/-- A new VLAN gets a free slot and a free FID. -/
theorem addPt_new (hl : Linked par s.toVlanTables) (hv : edgxBrVlanGetVlan par s vid = none)
    (hi : edgxBrVlanGetFreeVlan par s = some i) (hf : edgxBrVlanGetFreeFid par s = some f) (p : Port) :
    ∃ s₁ : EdgxBrVlan, VlanAdded par s i f vid s₁ ∧
      (∀ j, (s₁.vid j).ptvec = if j = i then BIT p else (s.vid j).ptvec) ∧
      edgxBrVlanAddPt par s vid untagged pvid p = (addPtFinish s₁ i (some f) untagged pvid p).map fun s => (0, s) := by
  obtain ⟨hn, hu⟩ := Bool.or_eq_false_iff.1 hr
  unfold edgxBrVlanAddPt
  rw [if_neg (of_decide_eq_false hn), if_neg (Bool.eq_false_iff.1 hu)]
  simp only [hv, hi, hf]
  have hadded := vlanAdded hl (BIT p) (getVlan_some hi).1 (getFreeFid_some hf).1 (getFreeFid_some hf).2 (getVlan_none hv)
  simp only [] at hadded ⊢
  generalize hs₁ : EdgxBrVlan.mk _ _ = s₁ at hadded ⊢
  refine ⟨s₁, hadded, fun j => ?_, rfl⟩
  rw [← hs₁]
  simp only [moveVid2fid_ptvec, setFid2msti_vid, Function.update_apply]
  split <;> rfl

end NotRefused

/-- A port is refused, or added to a VLAN that is there, or to a new one. -/
theorem addPt_cases {s : EdgxBrVlan} (hl : Linked par s.toVlanTables) (vid : BitVec 16) (untagged pvid : Bool) (p : Port) :
    ((addPtRefused par s untagged pvid = true ∨ edgxBrVlanGetVlan par s vid = none ∧
        (edgxBrVlanGetFreeVlan par s = none ∨ edgxBrVlanGetFreeFid par s = none)) ∧
      ∃ e, edgxBrVlanAddPt par s vid untagged pvid p = some (e, s)) ∨
    (addPtRefused par s untagged pvid = false ∧ ∃ i, edgxBrVlanGetVlan par s vid = some i ∧
      ((s.fidOf i = none ∧ edgxBrVlanAddPt par s vid untagged pvid p = none) ∨
      ∃ f m s₁ s', s.fidOf i = some f ∧ s.mstiOf f = some m ∧ SameLinks s s₁ ∧ s₁.hw.regs = s.hw.regs ∧
        Finished s₁ i f m p s' ∧ edgxBrVlanAddPt par s vid untagged pvid p = some (0, s'))) ∨
    (addPtRefused par s untagged pvid = false ∧ edgxBrVlanGetVlan par s vid = none ∧
      ∃ i f s₁ s', edgxBrVlanGetFreeVlan par s = some i ∧ edgxBrVlanGetFreeFid par s = some f ∧
        VlanAdded par s i f vid s₁ ∧ Finished s₁ i f CIST_IDX p s' ∧
        edgxBrVlanAddPt par s vid untagged pvid p = some (0, s')) := by
  cases hr : addPtRefused par s untagged pvid with
  | true =>
    obtain ⟨e, -, h⟩ : ∃ e < 0, edgxBrVlanAddPt par s vid untagged pvid p = some (e, s) := addPt_refused p (.inl hr)
    exact .inl ⟨.inl rfl, e, h⟩
  | false =>
    cases hv : edgxBrVlanGetVlan par s vid with
    | some i =>
      refine .inr (.inl ⟨rfl, i, rfl, ?_⟩)
      obtain ⟨s₁, htables, hregs, hcfg, h⟩ := addPt_there hr hv p
      have hsame := SameLinks.of_ptvec htables hcfg
      have hmsti : s₁.mstiOf = s.mstiOf := funext fun f => congrArg (fun t => (t.fid f).msti) htables
      obtain ⟨hnone, hno⟩ | ⟨f, m, s', hf, hm, hs', hfin⟩ := addPtFinish_cases s₁ i (s.fidOf i) untagged pvid p
      · refine .inl ⟨?_, by rw [h, hnone, Option.map_none]⟩
        cases hf : s.fidOf i with
        | none => rfl
        | some f =>
          obtain ⟨m, hm⟩ := hl.msti f (hl.vlan_lt hf).2
          exact (hno f m hf ((congrFun hmsti f).trans hm)).elim
      · exact .inr ⟨f, m, s₁, s', hf, (congrFun hmsti f).symm.trans hm, hsame, hregs, hfin, by rw [h, hs', Option.map_some]⟩
    | none =>
      cases hi : edgxBrVlanGetFreeVlan par s with
      | none =>
        obtain ⟨e, -, h⟩ := addPt_refused p (.inr ⟨hv, .inl hi⟩)
        exact .inl ⟨.inr ⟨rfl, .inl rfl⟩, e, h⟩
      | some i =>
        cases hf : edgxBrVlanGetFreeFid par s with
        | none =>
          obtain ⟨e, -, h⟩ := addPt_refused p (.inr ⟨hv, .inr hf⟩)
          exact .inl ⟨.inr ⟨rfl, .inr rfl⟩, e, h⟩
        | some f =>
          obtain ⟨s₁, hadded, -, h⟩ := addPt_new hr hl hv hi hf p
          refine .inr (.inr ⟨rfl, rfl, i, f, ?_⟩)
          have hcist : s₁.mstiOf f = some CIST_IDX := by rw [hadded.mstiOf, Function.update_self]
          obtain ⟨-, hno⟩ | ⟨f', m, s', hf', hm, hs', hfin⟩ := addPtFinish_cases s₁ i (some f) untagged pvid p
          · exact (hno f CIST_IDX rfl hcist).elim
          · obtain rfl := Option.some.inj hf'
            obtain rfl := Option.some.inj (hcist.symm.trans hm)
            exact ⟨s₁, s', rfl, rfl, hadded, hfin, by rw [h, hs', Option.map_some]⟩

/-! ## Removing a port -/

/-- The ports of a VLAN are written. -/
def portsWritten (r : VlanRegs) (vid : BitVec 16) (r' : VlanRegs) : Prop :=
  ∃ base, r' = { r with portsBase := base }.cmd (vid ||| EDGX_BR_VLAN_CMD_WRITE ||| EDGX_BR_VLAN_CMD_PORTS)

/-- Slot `i` is free again. -/
structure VlanRemoved (s : EdgxBrVlan) (i : Nat) (s' : EdgxBrVlan) : Prop where
  nvlans : s'.nvlans = s.nvlans - 1
  vid : ∀ j, (s'.vid j).vid = if j = i then INVALID_VID else (s.vid j).vid
  fidOf : s'.fidOf = Function.update s.fidOf i none
  vlansOf : s'.vlansOf = fun f => (s.vlansOf f).erase i
  mstiOf : s'.mstiOf = s.mstiOf
  msti : s'.msti = s.msti
  regs : portsWritten s.hw.regs (s.vid i).vid s'.hw.regs
  fidcfg : s'.hw.fidcfg = s.hw.fidcfg

theorem VlanRemoved.linked {s s' : EdgxBrVlan} {i : Nat} (h : VlanRemoved s i s') (hl : Linked par s.toVlanTables) :
    Linked par s'.toVlanTables where
  vlans := by
    rw [h.fidOf, h.vlansOf]
    exact hl.vlans.unlink i
  fids := by
    have hfids : s'.fidsOf = s.fidsOf := by
      funext m
      rw [VlanTables.fidsOf, VlanTables.fidsOf, h.msti]
    rw [h.mstiOf, hfids]
    exact hl.fids
  vlan_lt := fun {j f} hj => by
    rw [h.fidOf, Function.update_apply] at hj
    split at hj
    · cases hj
    · exact hl.vlan_lt hj
  fid_lt := by
    rw [h.mstiOf]
    exact hl.fid_lt
  msti := by
    rw [h.mstiOf]
    exact hl.msti
  vid_inj := fun j hj k hk hne he => by
    have hji : j ≠ i := fun hji => by
      rw [h.vid, if_pos hji] at hne
      exact hne rfl
    have hki : k ≠ i := fun hki => by
      rw [he, h.vid, if_pos hki] at hne
      exact hne rfl
    rw [h.vid, if_neg hji] at hne
    rw [h.vid, h.vid, if_neg hji, if_neg hki] at he
    exact hl.vid_inj j hj k hk hne he
  mstid_inj := by
    rw [h.msti]
    exact hl.mstid_inj
  cist := by
    rw [h.msti]
    exact hl.cist
  te := by
    rw [h.msti]
    exact hl.te

theorem VlanRemoved.links {s s' : EdgxBrVlan} {i : Nat} (h : VlanRemoved s i s') (hl : Links par s.toVlanTables) :
    Links par s'.toVlanTables := by
  refine ⟨h.linked hl.toLinked, fun j hj hv => ?_⟩
  rw [h.vid] at hv
  split at hv
  · exact absurd rfl hv
  · rename_i hji
    rw [h.fidOf, Function.update_of_ne hji]
    exact hl.alloc j hj hv

/-- The ports of slot `i` without `p`. -/
def portsLeft (s : EdgxBrVlan) (i : Nat) (p : Port) : BitVec 32 := (s.vid i).ptvec &&& ~~~BIT p

/-- A VLAN is not there, keeps a port, or loses its last one. -/
theorem delPt_cases {s : EdgxBrVlan} (hl : Linked par s.toVlanTables) (vid : BitVec 16) (p : Port) :
    (edgxBrVlanGetVlan par s vid = none ∧ edgxBrVlanDelPt par s vid p = some (-EINVAL, s)) ∨
    ∃ i, edgxBrVlanGetVlan par s vid = some i ∧
      ((portsLeft s i p ≠ 0 ∧ ∃ s', SameLinks s s' ∧ portsWritten s.hw.regs (s.vid i).vid s'.hw.regs ∧
          edgxBrVlanDelPt par s vid p = some (0, s')) ∨
        (portsLeft s i p = 0 ∧ s.fidOf i = none ∧ edgxBrVlanDelPt par s vid p = none) ∨
        (portsLeft s i p = 0 ∧ ∃ f s', s.fidOf i = some f ∧ VlanRemoved s i s' ∧
          edgxBrVlanDelPt par s vid p = some (0, s'))) := by
  unfold edgxBrVlanDelPt
  cases hv : edgxBrVlanGetVlan par s vid with
  | none => exact .inl ⟨rfl, rfl⟩
  | some i =>
    refine .inr ⟨i, rfl, ?_⟩
    have hwritten : portsWritten s.hw.regs (s.vid i).vid ({ s.hw.regs with portsBase := (portsLeft s i p).setWidth 16 }.cmd
        ((s.vid i).vid ||| EDGX_BR_VLAN_CMD_WRITE ||| EDGX_BR_VLAN_CMD_PORTS)) := ⟨_, rfl⟩
    by_cases h0 : portsLeft s i p = 0
    · have hlisted : ((List.range par.maxFids).any fun f => decide (i ∈ (s.fid f).vlanlist)) = (s.fidOf i).isSome := by
        rw [Bool.eq_iff_iff, List.any_eq_true, Option.isSome_iff_exists]
        refine exists_congr fun f => ⟨fun ⟨_, hmem⟩ => (hl.vlans.mem_iff i f).1 (of_decide_eq_true hmem), fun hf => ?_⟩
        exact ⟨List.mem_range.2 (hl.vlan_lt hf).2, decide_eq_true ((hl.vlans.mem_iff i f).2 hf)⟩
      unfold portsLeft at h0
      simp only [Function.update_self, h0, if_true, hlisted]
      cases hf : s.fidOf i with
      | none => exact .inr (.inl ⟨h0, rfl, by simp only [Option.isSome_none, Bool.false_eq_true, if_false]⟩)
      | some f =>
        refine .inr (.inr ⟨h0, f, ?_⟩)
        simp only [Option.isSome_some, if_true, Option.some.injEq, Prod.mk.injEq, true_and]
        refine ⟨_, ?_, rfl⟩
        rw [portsLeft, h0] at hwritten
        have hvid : ∀ j, (Function.update (Function.update s.vid i { s.vid i with ptvec := 0 }) i
            { vid := INVALID_VID, fid := none, ptvec := 0 } j).vid = if j = i then INVALID_VID else (s.vid j).vid := by
          intro j
          rw [Function.update_idem, Function.update_apply]
          split <;> rfl
        have hfid : ∀ j, (Function.update (Function.update s.vid i { s.vid i with ptvec := 0 }) i
            { vid := INVALID_VID, fid := none, ptvec := 0 } j).fid = Function.update s.fidOf i none j := by
          intro j
          rw [Function.update_idem, Function.update_apply, Function.update_apply]
          split <;> rfl
        split <;> exact ⟨rfl, hvid, funext hfid, rfl, rfl, rfl, hwritten, rfl⟩
    · refine .inl ⟨h0, ?_⟩
      unfold portsLeft at h0
      simp only [Function.update_self, h0, if_false, Option.some.injEq, Prod.mk.injEq, true_and]
      refine ⟨_, ?_, ?_, rfl⟩
      · have hvid := setPtvec_vid s.vid i ((s.vid i).ptvec &&& ~~~BIT p)
        have hfid := setPtvec_fid s.vid i ((s.vid i).ptvec &&& ~~~BIT p)
        split <;> exact ⟨rfl, hvid, funext hfid, rfl, rfl, rfl⟩
      · split <;> exact hwritten

/-! ## Instances -/

/-- What a new state of port `p` in instance `m` changes. -/
structure PtstateSet (s : EdgxBrVlan) (m : Nat) (p : Port) (st : BitVec 8) (s' : EdgxBrVlan) : Prop where
  nvlans : s'.nvlans = s.nvlans
  vid : s'.vid = s.vid
  fid : s'.fid = s.fid
  mstid : ∀ m', (s'.msti m').mstid = (s.msti m').mstid
  fidsOf : s'.fidsOf = s.fidsOf
  ptstate : ∀ m', (s'.msti m').ptstate =
    if m' = m then Function.update (s.msti m).ptstate p st else (s.msti m').ptstate
  regs : s'.hw.regs = s.hw.regs
  fidcfg : s'.hw.fidcfg = (s.fidsOf m).foldl (fun fidcfg f => setFidcfg fidcfg p f st) s.hw.fidcfg

theorem setStates_regs (p : Port) (st : BitVec 8) (fids : List Nat) (hw : VlanHw) :
    (fids.foldl (fun hw f => edgxPtSetFidFwdState hw p f st) hw).regs = hw.regs := by
  induction fids generalizing hw with
  | nil => rfl
  | cons f fids ih => exact ih _

theorem setStates_fidcfg (p : Port) (st : BitVec 8) (fids : List Nat) (hw : VlanHw) :
    (fids.foldl (fun hw f => edgxPtSetFidFwdState hw p f st) hw).fidcfg =
      fids.foldl (fun fidcfg f => setFidcfg fidcfg p f st) hw.fidcfg := by
  induction fids generalizing hw with
  | nil => rfl
  | cons f fids ih => exact ih _

theorem setMstptState_cases (par : Params) (s : EdgxBrVlan) (mstid : BitVec 16) (p : Port) (ptstate : BitVec 8) :
    (edgxBrVlanGetMsti par s mstid = none ∧ edgxBrVlanSetMstptState par s mstid p ptstate = (-EINVAL, s)) ∨
    ∃ m s', edgxBrVlanGetMsti par s mstid = some m ∧ PtstateSet s m p ptstate s' ∧
      edgxBrVlanSetMstptState par s mstid p ptstate = (0, s') := by
  unfold edgxBrVlanSetMstptState
  cases hm : edgxBrVlanGetMsti par s mstid with
  | none => exact .inl ⟨rfl, rfl⟩
  | some m =>
    simp only []
    refine .inr ⟨m, _, rfl, ?_, rfl⟩
    refine ⟨rfl, rfl, rfl, fun m' => ?_, funext fun m' => ?_, fun m' => ?_, ?_, ?_⟩
    · simp only [Function.update_apply]
      split
      · rename_i h
        rw [h]
      · rfl
    · simp only [VlanTables.fidsOf, Function.update_apply]
      split
      · rename_i h
        rw [h]
      · rfl
    · simp only [Function.update_apply]
      split <;> rfl
    · exact setStates_regs ..
    · exact setStates_fidcfg ..

/-- An instance can have this number. -/
def MstidNew (par : Params) (s : EdgxBrVlan) (mstid : BitVec 16) : Prop :=
  isReservedMstid mstid = false ∧ edgxBrVlanGetMsti par s mstid = none ∧ mstid < EDGX_MAX_MSTID

/-- An instance gets a number, or none. -/
theorem createMsti_cases (par : Params) (s : EdgxBrVlan) (mstid : BitVec 16) :
    ((MstidNew par s mstid → edgxBrVlanGetFreeMsti par s = none) ∧ ∃ e, edgxBrVlanCreateMsti par s mstid = (e, s)) ∨
    ∃ m, MstidNew par s mstid ∧ edgxBrVlanGetFreeMsti par s = some m ∧
      edgxBrVlanCreateMsti par s mstid = (0, { s with
        msti := Function.update s.msti m { s.msti m with mstid, ptstate := fun _ => BR_STATE_DISABLED } }) := by
  unfold edgxBrVlanCreateMsti
  by_cases h : (isReservedMstid mstid || (edgxBrVlanGetMsti par s mstid).isSome) = true
  · refine .inl ⟨fun hnew => absurd h ?_, _, if_pos h⟩
    rw [hnew.1, hnew.2.1]
    decide
  rw [if_neg h]
  by_cases hmax : mstid ≥ EDGX_MAX_MSTID
  · exact .inl ⟨fun hnew => absurd hnew.2.2 (BitVec.not_lt.2 hmax), _, if_pos hmax⟩
  rw [if_neg hmax]
  rw [Bool.or_eq_true, not_or, Option.not_isSome_iff_eq_none] at h
  cases hm : edgxBrVlanGetFreeMsti par s with
  | none => exact .inl ⟨fun _ => rfl, _, rfl⟩
  | some m => exact .inr ⟨m, ⟨Bool.eq_false_iff.2 h.1, h.2, BitVec.not_le.1 hmax⟩, rfl, rfl⟩

theorem deleteMsti_cases (par : Params) (s : EdgxBrVlan) (mstid : BitVec 16) :
    (∃ e, edgxBrVlanDeleteMsti par s mstid = (e, s)) ∨
    ∃ m, isReservedMstid mstid = false ∧ edgxBrVlanGetMsti par s mstid = some m ∧ s.fidsOf m = [] ∧
      edgxBrVlanDeleteMsti par s mstid = (0, { s with
        msti := Function.update s.msti m { s.msti m with mstid := EDGX_INVALID_MSTID } }) := by
  unfold edgxBrVlanDeleteMsti
  by_cases h : isReservedMstid mstid = true
  · exact .inl ⟨_, if_pos h⟩
  rw [if_neg h]
  cases hm : edgxBrVlanGetMsti par s mstid with
  | none => exact .inl ⟨_, rfl⟩
  | some m =>
    by_cases he : (s.msti m).fidlist.isEmpty = true
    · exact .inr ⟨m, Bool.eq_false_iff.2 h, rfl, List.isEmpty_iff.1 he, if_pos he⟩
    · exact .inl ⟨_, if_neg he⟩

/-- A FID is moved, or stays. -/
theorem setFid2msti_cases {s : EdgxBrVlan} (hl : Linked par s.toVlanTables) (f : Nat) (mstid : BitVec 16) :
    ((f < par.maxFids → ∀ m, edgxBrVlanGetMsti par s mstid = some m → s.mstiOf f = some m) ∧
      ∃ e, edgxBrSetFid2msti par s f mstid = (e, s)) ∨
    ∃ m, f < par.maxFids ∧ edgxBrVlanGetMsti par s mstid = some m ∧ s.mstiOf f ≠ some m ∧
      FidMoved s.toVlanTables f m (edgxBrMoveFid2msti par s f m).toVlanTables ∧
      edgxBrSetFid2msti par s f mstid = (0, edgxBrMoveFid2msti par s f m) := by
  unfold edgxBrSetFid2msti
  by_cases hf : f ≥ par.maxVlans
  · exact .inl ⟨fun hlt => absurd hlt (Nat.not_lt.2 hf), _, if_pos hf⟩
  rw [if_neg hf]
  cases hm : edgxBrVlanGetMsti par s mstid with
  | none => exact .inl ⟨fun _ _ h => (nomatch h), _, rfl⟩
  | some m =>
    by_cases hsame : s.mstiOf f = some m
    · exact .inl ⟨fun _ _ h => Option.some.inj h ▸ hsame, 0, congrArg _ (moveFid2msti_same hsame)⟩
    · exact .inr ⟨m, Nat.not_le.1 hf, rfl, hsame, moveFid2msti_moved hl.fids hsame, rfl⟩

/-- A slot is moved, or stays. -/
theorem setVid2fid_cases {s : EdgxBrVlan} (hl : Linked par s.toVlanTables) (vid fid : BitVec 16) :
    ((fid.toNat < par.maxFids → ∀ i, edgxBrVlanGetVlan par s vid = some i → s.fidOf i = some fid.toNat) ∧
      ∃ e, edgxBrSetVid2fid par s vid fid = (e, s)) ∨
    ∃ i, fid.toNat < par.maxFids ∧ edgxBrVlanGetVlan par s vid = some i ∧ s.fidOf i ≠ some fid.toNat ∧
      VidMoved s.toVlanTables i fid.toNat (edgxBrMoveVid2fid s i fid.toNat).toVlanTables ∧
      edgxBrSetVid2fid par s vid fid = (0, edgxBrMoveVid2fid s i fid.toNat) := by
  unfold edgxBrSetVid2fid
  by_cases hf : fid.toNat ≥ par.maxFids
  · exact .inl ⟨fun hlt => absurd hlt (Nat.not_lt.2 hf), _, if_pos hf⟩
  rw [if_neg hf]
  cases hv : edgxBrVlanGetVlan par s vid with
  | none => exact .inl ⟨fun _ _ h => (nomatch h), _, rfl⟩
  | some i =>
    by_cases hsame : s.fidOf i = some fid.toNat
    · exact .inl ⟨fun _ _ h => Option.some.inj h ▸ hsame, 0, congrArg _ (moveVid2fid_same hsame)⟩
    · exact .inr ⟨i, Nat.not_le.1 hf, rfl, hsame, moveVid2fid_moved hl.vlans hsame, rfl⟩

/-! ## Every operation -/

theorem Finished.mstiOf {s s' : EdgxBrVlan} {i f m : Nat} {p : Port} (h : Finished s i f m p s') :
    s'.mstiOf = s.mstiOf := congrArg VlanTables.mstiOf h.tables

theorem Links.of_added {s s₁ : EdgxBrVlan} {i f : Nat} {vid : BitVec 16} (hl : Links par s.toVlanTables)
    (h : VlanAdded par s i f vid s₁) : Links par s₁.toVlanTables := by
  refine ⟨h.linked, fun j hj hv => ?_⟩
  rw [h.fidOf, Function.update_apply]
  split
  · exact ⟨f, rfl⟩
  · rename_i hji
    rw [h.vid, if_neg hji] at hv
    exact hl.alloc j hj hv

theorem Links.moveFid {s s' : VlanTables} {f m : Nat} (hl : Links par s) (hm : FidMoved s f m s') (hf : f < par.maxFids)
    (hlt : m < par.maxMstis) : Links par s' := by
  refine ⟨hl.toLinked.moveFid hm hf hlt, ?_⟩
  unfold VlanTables.fidOf
  rw [hm.vid]
  exact hl.alloc

theorem Links.moveVid {s s' : VlanTables} {i f : Nat} (hl : Links par s) (hm : VidMoved s i f s') (hi : i < par.maxVlans)
    (hf : f < par.maxFids) : Links par s' := by
  refine ⟨hl.toLinked.moveVid hm hi hf, fun j hj hv => ?_⟩
  rw [hm.owner, Function.update_apply]
  split
  · exact ⟨f, rfl⟩
  · exact hl.alloc j hj (hm.vid j ▸ hv)

theorem Links.setPtstate {s s' : EdgxBrVlan} {m : Nat} {p : Port} {st : BitVec 8} (hl : Links par s.toVlanTables)
    (h : PtstateSet s m p st s') : Links par s'.toVlanTables := by
  have hfidOf : s'.fidOf = s.fidOf := by
    funext i
    rw [VlanTables.fidOf, VlanTables.fidOf, h.vid]
  have hvlans : s'.vlansOf = s.vlansOf := by
    funext f
    rw [VlanTables.vlansOf, VlanTables.vlansOf, h.fid]
  have hmsti : s'.mstiOf = s.mstiOf := by
    funext f
    rw [VlanTables.mstiOf, VlanTables.mstiOf, h.fid]
  refine ⟨hl.toLinked.renumber hfidOf hvlans hmsti h.fidsOf ?_ ?_ ?_ ?_, ?_⟩
  · rw [h.vid]
    exact hl.vid_inj
  · simp only [h.mstid]
    exact hl.mstid_inj
  · exact (h.mstid _).trans hl.cist
  · exact (h.mstid _).trans hl.te
  · rw [h.vid, hfidOf]
    exact hl.alloc

/-- An instance that is not the CIST and not the TE instance gets a number no
other instance has, or none. -/
theorem Links.setMstid {t : VlanTables} (hl : Links par t) {m : Nat} (hcist : (t.msti m).mstid ≠ EDGX_CIST_MSTID)
    (hte : (t.msti m).mstid ≠ EDGX_TE_MSTID) {mstid : BitVec 16}
    (hnew : mstid ≠ EDGX_INVALID_MSTID → ∀ m' < par.maxMstis, (t.msti m').mstid ≠ mstid) (ptstate : Port → BitVec 8) :
    Links par { t with msti := Function.update t.msti m { t.msti m with mstid, ptstate } } := by
  have hid : ∀ m', (Function.update t.msti m { t.msti m with mstid, ptstate } m').mstid =
      if m' = m then mstid else (t.msti m').mstid := by
    intro m'
    rw [Function.update_apply]
    split <;> rfl
  refine ⟨hl.toLinked.renumber rfl rfl rfl ?_ hl.vid_inj ?_ ?_ ?_, hl.alloc⟩
  · funext m'
    simp only [VlanTables.fidsOf, Function.update_apply]
    split
    · rename_i h
      rw [h]
    · rfl
  · intro m₁ h₁ m₂ h₂ hne he
    rw [hid] at hne he
    rw [hid] at he
    by_cases hm₁ : m₁ = m <;> by_cases hm₂ : m₂ = m
    · rw [hm₁, hm₂]
    · rw [if_pos hm₁] at hne
      rw [if_pos hm₁, if_neg hm₂] at he
      exact absurd he.symm (hnew hne m₂ h₂)
    · rw [if_neg hm₁] at hne
      rw [if_neg hm₁, if_pos hm₂] at he
      exact absurd he (hnew (he ▸ hne) m₁ h₁)
    · rw [if_neg hm₁] at hne
      rw [if_neg hm₁, if_neg hm₂] at he
      exact hl.mstid_inj m₁ h₁ m₂ h₂ hne he
  · exact (hid _).trans (if_neg (fun h : CIST_IDX = m => hcist (h ▸ hl.cist)) |>.trans hl.cist)
  · exact (hid _).trans (if_neg (fun h : TE_IDX = m => hte (h ▸ hl.te)) |>.trans hl.te)

theorem not_reserved {mstid : BitVec 16} (h : isReservedMstid mstid = false) :
    mstid ≠ EDGX_CIST_MSTID ∧ mstid ≠ EDGX_TE_MSTID ∧ mstid ≠ EDGX_INVALID_MSTID := by
  simp only [isReservedMstid, Bool.or_eq_false_iff, decide_eq_false_iff_not] at h
  exact ⟨h.1.1.1.1, h.1.1.1.2, h.2⟩

theorem Links.step {s : EdgxBrVlan} (hl : Links par s.toVlanTables) (op : VlanOp) :
    Links par (vlanStep par s op).2.toVlanTables := by
  cases op with
  | addPt vid untagged pvid p =>
    obtain ⟨-, e, h⟩ | ⟨-, i, -, ⟨-, h⟩ | ⟨f, m, s₁, s', -, -, hsame, -, hfin, h⟩⟩ |
        ⟨-, -, i, f, s₁, s', -, -, hadd, hfin, h⟩ := addPt_cases hl.toLinked vid untagged pvid p <;>
      simp only [vlanStep, h, finish]
    · exact hl
    · exact hl
    · rw [hfin.tables]
      exact hsame.links hl
    · rw [hfin.tables]
      exact hl.of_added hadd
  | delPt vid p =>
    obtain ⟨-, h⟩ | ⟨i, -, ⟨-, s', hsame, -, h⟩ | ⟨-, -, h⟩ | ⟨-, f, s', -, hrem, h⟩⟩ := delPt_cases hl.toLinked vid p <;>
      simp only [vlanStep, h, finish]
    · exact hl
    · exact hsame.links hl
    · exact hl
    · exact hrem.links hl
  | setVid2fid vid fid =>
    obtain ⟨-, e, h⟩ | ⟨i, hf, hv, -, hmoved, h⟩ := setVid2fid_cases hl.toLinked vid fid <;> simp only [vlanStep, h, finish]
    · exact hl
    · exact hl.moveVid hmoved (getVlan_some hv).1 hf
  | getVid2fid vid => exact hl
  | setFid2msti fid mstid =>
    obtain ⟨-, e, h⟩ | ⟨m, hf, hm, -, hmoved, h⟩ := setFid2msti_cases hl.toLinked fid.toNat mstid <;>
      simp only [vlanStep, h, finish]
    · exact hl
    · exact hl.moveFid hmoved hf (getMsti_some hm).1
  | getFid2msti fid => exact hl
  | createMsti mstid =>
    obtain ⟨-, e, h⟩ | ⟨m, hnew, hm, h⟩ := createMsti_cases par s mstid <;> simp only [vlanStep, h, finish]
    · exact hl
    · have hfree : (s.msti m).mstid = EDGX_INVALID_MSTID := (getMsti_some hm).2
      exact hl.setMstid (by rw [hfree]; decide) (by rw [hfree]; decide) (fun _ => getMsti_none hnew.2.1) _
  | deleteMsti mstid =>
    obtain ⟨e, h⟩ | ⟨m, hr, hm, -, h⟩ := deleteMsti_cases par s mstid <;> simp only [vlanStep, h, finish]
    · exact hl
    · obtain ⟨hcist, hte, -⟩ := not_reserved hr
      have hid : (s.msti m).mstid = mstid := (getMsti_some hm).2
      exact hl.setMstid (hid ▸ hcist) (hid ▸ hte) (fun h => absurd rfl h) _
  | getMstptState mstid p => exact hl
  | setMstptState mstid p ptstate =>
    obtain ⟨-, h⟩ | ⟨m, s', -, hset, h⟩ := setMstptState_cases par s mstid p ptstate <;>
      simp only [vlanStep, h, finish]
    · exact hl
    · exact hl.setPtstate hset

/-! ## The start -/

/-- The first `k` FIDs are in the CIST, and nothing else is in a list. -/
structure InCist (s₀ : EdgxBrVlan) (k : Nat) (s : EdgxBrVlan) : Prop where
  nvlans : s.nvlans = s₀.nvlans
  vid : s.vid = s₀.vid
  vlansOf : s.vlansOf = s₀.vlansOf
  fids : Owned s.mstiOf s.fidsOf
  mstiOf : ∀ f, s.mstiOf f = if f < k then some CIST_IDX else none
  mstid : ∀ m, (s.msti m).mstid = (s₀.msti m).mstid
  ptstate : ∀ m, (s.msti m).ptstate = (s₀.msti m).ptstate
  hw : s.hw = s₀.hw

theorem inCist (par : Params) {s : EdgxBrVlan} (hfid : s.fid = fun _ => {}) (hlist : ∀ m, (s.msti m).fidlist = [])
    (hcist : (s.msti CIST_IDX).mstid ≠ EDGX_TE_MSTID) (k : Nat) :
    InCist s k ((List.range k).foldl (fun s f => edgxBrMoveFid2msti par s f CIST_IDX) s) := by
  induction k with
  | zero =>
    refine ⟨rfl, rfl, rfl, ?_, fun f => ?_, fun _ => rfl, fun _ => rfl, rfl⟩
    · have hm : s.mstiOf = fun _ => none := by
        funext f
        rw [VlanTables.mstiOf, hfid]
      have hl : s.fidsOf = fun _ => [] := funext hlist
      rw [List.range_zero, List.foldl_nil, hm, hl]
      exact Owned.empty
    · rw [List.range_zero, List.foldl_nil, VlanTables.mstiOf, hfid]
      rfl
  | succ k ih =>
    rw [List.range_succ, List.foldl_append, List.foldl_cons, List.foldl_nil]
    generalize (List.range k).foldl (fun s f => edgxBrMoveFid2msti par s f CIST_IDX) s = s' at ih
    have hk : s'.mstiOf k = none := (ih.mstiOf k).trans (if_neg (Nat.lt_irrefl k))
    have hm : FidMoved s'.toVlanTables k CIST_IDX (edgxBrMoveFid2msti par s' k CIST_IDX).toVlanTables :=
      moveFid2msti_moved ih.fids fun h => absurd (h.symm.trans hk) (Option.some_ne_none _)
    have hempty : (s'.fid k).vlanlist = [] := by
      have hv := congrFun ih.vlansOf k
      rwa [VlanTables.vlansOf, VlanTables.vlansOf, hfid] at hv
    refine ⟨hm.nvlans.trans ih.nvlans, hm.vid.trans ih.vid, hm.vlans.trans ih.vlansOf, ?_, fun f => ?_,
      fun m => (hm.mstid m).trans (ih.mstid m), fun m => (hm.ptstate m).trans (ih.ptstate m), ?_⟩
    · rw [hm.owner, hm.list]
      exact ih.fids.move k CIST_IDX
    · rw [hm.owner, Function.update_apply, ih.mstiOf]
      by_cases hf : f = k
      · rw [if_pos hf, if_pos (hf ▸ Nat.lt_succ_self k)]
      · rw [if_neg hf]
        exact if_congr (by omega) rfl rfl
    · rw [moveFid2msti_hw hempty (by rw [ih.mstid]; exact hcist)]
      exact ih.hw

/-- The tables at the start: no VLAN, and all FIDs in the CIST. -/
structure Initial (par : Params) (hw : VlanHw) (s : EdgxBrVlan) : Prop where
  links : Links par s.toVlanTables
  nvlans : s.nvlans = 0
  vid : s.vid = fun _ => {}
  mstiOf : ∀ f < par.maxFids, s.mstiOf f = some CIST_IDX
  ptstate : ∀ p, (s.msti CIST_IDX).ptstate p = BR_STATE_DISABLED
  fidcfg : s.hw.fidcfg = hw.fidcfg

theorem initial (par : Params) (hw : VlanHw) : Initial par hw (edgxBrInitVlan par hw) := by
  unfold edgxBrInitVlan
  simp only []
  generalize hmsti : (fun m => ite (m = CIST_IDX) _ _ : Nat → Msti) = msti
  have hlist : ∀ m, (msti m).fidlist = [] := fun m => by
    rw [← hmsti]
    dsimp only
    split
    · rfl
    · split <;> rfl
  have hcist : msti CIST_IDX = { mstid := EDGX_CIST_MSTID, ptstate := fun _ => BR_STATE_DISABLED } := by
    rw [← hmsti]
    exact if_pos rfl
  have hcistId : (msti CIST_IDX).mstid = EDGX_CIST_MSTID := congrArg Msti.mstid hcist
  have hte : (msti TE_IDX).mstid = EDGX_TE_MSTID := by
    rw [← hmsti]
    rfl
  have hinj : ∀ m m', (msti m).mstid ≠ EDGX_INVALID_MSTID → (msti m).mstid = (msti m').mstid → m = m' := by
    intro m m' hne he
    rw [← hmsti] at hne he
    dsimp only at hne he
    by_cases h0 : m = CIST_IDX <;> by_cases h1 : m = TE_IDX <;> by_cases h0' : m' = CIST_IDX <;>
      by_cases h1' : m' = TE_IDX <;> simp_all [EDGX_CIST_MSTID, EDGX_TE_MSTID, EDGX_INVALID_MSTID]
  have h := inCist par (s := { msti, hw }) rfl hlist (fun h => absurd (hcistId.symm.trans h) (by decide)) par.maxFids
  generalize (List.range par.maxFids).foldl (fun s f => edgxBrMoveFid2msti par s f CIST_IDX) _ = s at h
  have hvid : ∀ i, s.vid i = {} := fun i => congrFun h.vid i
  have hm : ∀ f < par.maxFids, s.mstiOf f = some CIST_IDX := fun f hf => (h.mstiOf f).trans (if_pos hf)
  refine ⟨⟨⟨?_, h.fids, ?_, ?_, fun f hf => ⟨_, hm f hf⟩, ?_, ?_, ?_, ?_⟩, ?_⟩, h.nvlans, h.vid, hm, fun p => ?_, ?_⟩
  · have hfid : s.fidOf = fun _ => none := by
      funext i
      rw [VlanTables.fidOf, hvid]
    have hl : s.vlansOf = fun _ => [] := h.vlansOf
    exact hfid ▸ hl ▸ Owned.empty
  · intro i f hi
    rw [VlanTables.fidOf] at hi
    dsimp only at hi
    rw [hvid] at hi
    cases hi
  · intro f m hf
    have hf' : s.mstiOf f = some m := hf
    rw [h.mstiOf] at hf'
    split at hf'
    · rename_i hlt
      obtain rfl := Option.some.inj hf'
      exact ⟨hlt, Nat.lt_trans (by decide) (one_lt_maxMstis par)⟩
    · cases hf'
  · intro i _ j _ hne
    rw [hvid] at hne
    exact absurd rfl hne
  · intro m _ m' _ hne he
    rw [h.mstid] at hne
    rw [h.mstid, h.mstid] at he
    exact hinj m m' hne he
  · exact (h.mstid _).trans hcistId
  · exact (h.mstid _).trans hte
  · intro i _ hne
    rw [hvid] at hne
    exact absurd rfl hne
  · exact (congrFun (h.ptstate _) p).trans (congrFun (congrArg Msti.ptstate hcist) p)
  · rw [h.hw]

end TsnSwitch.BrVlan
