/-
The FID register of a VLAN is to hold the VLAN's FID, with the TE bit exactly
if the FID is in the TE instance. A FID that changes its instance has all its
registers written. A VLAN that changes its FID has only the FID's bits
written: the TE bit is the one of the old FID, or the one that a removed VLAN
with the same VID left in the register (`teMatch_iff`).
-/
import TsnSwitch.BrVlan.Regs
import TsnSwitch.BrVlan.Represent

namespace TsnSwitch.BrVlan

open Lib

/-- A FID is in the TE instance. -/
def VlanTables.isTe (t : VlanTables) (f : Nat) : Bool := (t.mstiOf f).any fun m => (t.msti m).mstid == EDGX_TE_MSTID

/-- Each VLAN has a register, with its FID and the TE bit of the FID. -/
structure TeMatch (par : Params) (s : EdgxBrVlan) : Prop where
  vid12 : ∀ i ∈ s.allocated par, Vid12 (s.vid i).vid
  fid : ∀ i ∈ s.allocated par, ∃ f, s.fidOf i = some f ∧ s.hw.regs.fidReg (s.vid i).vid = fidWord f (s.isTe f)

/-- A new VLAN finds no bits in its register besides the FID's, and no VLAN is
moved to a FID with another TE bit. -/
def VlanOp.KeepsTe (par : Params) (s : EdgxBrVlan) : VlanOp → Prop
  | .addPt vid untagged pvid _ =>
    addPtRefused par s untagged pvid = false → edgxBrVlanGetVlan par s vid = none →
      edgxBrVlanGetFreeVlan par s ≠ none → edgxBrVlanGetFreeFid par s ≠ none →
      Vid12 vid ∧ s.hw.regs.fidReg vid &&& ~~~0x3F = 0
  | .setVid2fid vid fid =>
    vid ≠ INVALID_VID → fid.toNat < par.maxFids →
      ∀ i f, edgxBrVlanGetVlan par s vid = some i → s.fidOf i = some f → s.isTe f = s.isTe fid.toNat
  | _ => True

variable {par : Params}

/-! ## Registers -/

theorem fidReg_self {r r' : VlanRegs} {v : BitVec 16} {x : BitVec 16} (h : r'.fid = Function.update r.fid (v.setWidth 12) x) :
    r'.fidReg v = x := by
  rw [VlanRegs.fidReg, h, Function.update_self]

theorem fidReg_other {r r' : VlanRegs} {v w : BitVec 16} {x : BitVec 16}
    (h : r'.fid = Function.update r.fid (v.setWidth 12) x) (hv : Vid12 v) (hw : Vid12 w) (hne : w ≠ v) :
    r'.fidReg w = r.fidReg w := by
  rw [VlanRegs.fidReg, h, Function.update_of_ne fun he => hne (hw.inj hv he)]
  rfl

theorem fidReg_congr {r r' : VlanRegs} (h : r'.fid = r.fid) (v : BitVec 16) : r'.fidReg v = r.fidReg v := by
  rw [VlanRegs.fidReg, h, VlanRegs.fidReg]

theorem portsWritten_fid {r r' : VlanRegs} {vid : BitVec 16} (h : portsWritten r vid r') (hv : Vid12 vid) :
    r'.fid = r.fid := by
  obtain ⟨base, rfl⟩ := h
  exact cmd_write_ports hv _

/-! ## Steps -/

theorem isTe_congr {t t' : VlanTables} {f : Nat} (hm : t'.mstiOf f = t.mstiOf f)
    (hid : ∀ m, ((t'.msti m).mstid == EDGX_TE_MSTID) = ((t.msti m).mstid == EDGX_TE_MSTID)) : t'.isTe f = t.isTe f := by
  unfold VlanTables.isTe
  rw [hm]
  simp only [hid]

theorem isTe_of {t : VlanTables} {f m : Nat} (hm : t.mstiOf f = some m) : t.isTe f = ((t.msti m).mstid == EDGX_TE_MSTID) := by
  rw [VlanTables.isTe, hm, Option.any_some]

/-- Also a free slot has a VID of 12 bits. -/
theorem TeMatch.slot {s : EdgxBrVlan} (h : TeMatch par s) {i : Nat} (hi : i < par.maxVlans) : Vid12 (s.vid i).vid := by
  by_cases h0 : (s.vid i).vid = INVALID_VID
  · rw [h0]
    unfold Vid12
    decide
  · exact h.vid12 i (mem_allocated.2 ⟨hi, h0⟩)

/-- What leaves VIDs, FIDs, TE bits and registers as they are. -/
theorem TeMatch.keep {s s' : EdgxBrVlan} (h : TeMatch par s) (hv : ∀ i, (s'.vid i).vid = (s.vid i).vid)
    (hfid : s'.fidOf = s.fidOf) (hte : ∀ f, s'.isTe f = s.isTe f) (hregs : s'.hw.regs.fid = s.hw.regs.fid) :
    TeMatch par s' := by
  have ha := allocated_congr par hv
  refine ⟨fun i hi => hv i ▸ h.vid12 i (ha ▸ hi), fun i hi => ?_⟩
  rw [hfid, hv, fidReg_congr hregs]
  simp only [hte]
  exact h.fid i (ha ▸ hi)

theorem SameLinks.isTe {s s' : EdgxBrVlan} (h : SameLinks s s') (f : Nat) : s'.isTe f = s.isTe f := by
  refine isTe_congr ?_ fun m => by rw [h.msti]
  rw [VlanTables.mstiOf, VlanTables.mstiOf, h.fid]

theorem TeMatch.remove {s s' : EdgxBrVlan} {i : Nat} (h : TeMatch par s) (hi : i < par.maxVlans) (hrem : VlanRemoved s i s') :
    TeMatch par s' := by
  have hregs := portsWritten_fid hrem.regs (h.slot hi)
  have hte : ∀ f, s'.isTe f = s.isTe f := fun f =>
    isTe_congr (congrFun hrem.mstiOf f) fun m => by rw [hrem.msti]
  have hmem : ∀ j ∈ s'.allocated par, j ≠ i ∧ j ∈ s.allocated par := fun j hj => by
    rw [allocated_remove hrem.vid] at hj
    exact Finset.mem_erase.1 hj
  refine ⟨fun j hj => ?_, fun j hj => ?_⟩
  · obtain ⟨hji, hj⟩ := hmem j hj
    rw [hrem.vid, if_neg hji]
    exact h.vid12 j hj
  · obtain ⟨hji, hj⟩ := hmem j hj
    rw [hrem.vid, if_neg hji, hrem.fidOf, Function.update_of_ne hji, fidReg_congr hregs]
    simp only [hte]
    exact h.fid j hj

theorem lt_64 {f : Nat} (hf : f < par.maxFids) : f < 64 := Nat.lt_of_lt_of_le hf par.le_64

/-- A new VLAN has the right register exactly if only the FID's bits were set
in it. -/
theorem teMatch_added_iff {s s₁ s' : EdgxBrVlan} {i f : Nat} {vid : BitVec 16} {p : Port} (hl : Links par s.toVlanTables)
    (h : TeMatch par s) (hi : i < par.maxVlans) (hf : f < par.maxFids) (hempty : s.vlansOf f = []) (hne : vid ≠ INVALID_VID)
    (hnew : ∀ j < par.maxVlans, (s.vid j).vid ≠ vid) (hadd : VlanAdded par s i f vid s₁)
    (hfin : Finished s₁ i f CIST_IDX p s') :
    TeMatch par s' ↔ Vid12 vid ∧ s.hw.regs.fidReg vid &&& ~~~0x3F = 0 := by
  have hvid : ∀ j, (s'.vid j).vid = if j = i then vid else (s.vid j).vid := fun j =>
    (congrArg (fun t => (t.vid j).vid) hfin.tables).trans (hadd.vid j)
  have hfid : s'.fidOf = Function.update s.fidOf i (some f) := (congrArg VlanTables.fidOf hfin.tables).trans hadd.fidOf
  have ha := allocated_add hi hne hvid
  have hmem : i ∈ s'.allocated par := by
    rw [ha]
    exact Finset.mem_insert_self ..
  by_cases hv : Vid12 vid
  swap
  · exact iff_of_false (fun hc => hv (by simpa only [hvid, if_true] using hc.vid12 i hmem)) fun hc => hv hc.1
  rw [and_iff_right hv]
  have hregs : s'.hw.regs.fid = Function.update s.hw.regs.fid (vid.setWidth 12) (fidOver (s.hw.regs.fidReg vid) f) := by
    obtain ⟨untagged, hpt⟩ := hfin.regs
    have hv₁ : Vid12 (s₁.vid i).vid := by
      rw [hadd.vid, if_pos rfl]
      exact hv
    have hpt₁ : (writePt s₁.hw.regs (s₁.vid i) untagged p).fid = s₁.hw.regs.fid := writePt_fid hv₁ ..
    rw [hpt, hpt₁, hadd.regs, writeVid2fid_fid hv]
  have hmsti : s'.mstiOf = Function.update s.mstiOf f (some CIST_IDX) :=
    (congrArg VlanTables.mstiOf hfin.tables).trans hadd.mstiOf
  have hid : ∀ m, (s'.msti m).mstid = (s.msti m).mstid := fun m =>
    (congrArg (fun t => (t.msti m).mstid) hfin.tables).trans (hadd.mstid m)
  have hself : s'.isTe f = false := by
    rw [isTe_of (by rw [hmsti, Function.update_self]), hid, hl.cist]
    decide
  have hother : ∀ f' ≠ f, s'.isTe f' = s.isTe f' := fun f' hne =>
    isTe_congr (by rw [hmsti, Function.update_of_ne hne]) fun m => by rw [hid]
  have hreg : s'.hw.regs.fidReg vid = fidOver (s.hw.regs.fidReg vid) f := fidReg_self hregs
  rw [← fidOver_eq_iff (lt_64 hf)]
  refine ⟨fun hc => ?_, fun hc => ⟨fun j hj => ?_, fun j hj => ?_⟩⟩
  · obtain ⟨f', hf', hw⟩ := hc.fid i hmem
    rw [hfid, Function.update_self] at hf'
    obtain rfl := Option.some.inj hf'
    rwa [hvid, if_pos rfl, hreg, hself] at hw
  · rw [ha, Finset.mem_insert] at hj
    rw [hvid]
    split
    · exact hv
    · rename_i hji
      exact h.vid12 j (hj.resolve_left hji)
  · rw [ha, Finset.mem_insert] at hj
    by_cases hji : j = i
    · refine ⟨f, by rw [hfid, hji, Function.update_self], ?_⟩
      rw [hvid, if_pos hji, hreg, hself, hc]
    · have hj := hj.resolve_left hji
      obtain ⟨f', hf', hw⟩ := h.fid j hj
      -- a VLAN of the new FID would be in its list
      have hff : f' ≠ f := fun he => by
        have hin := (hl.vlans.mem_iff j f).2 (he ▸ hf')
        rw [hempty] at hin
        exact nomatch hin
      refine ⟨f', by rw [hfid, Function.update_of_ne hji, hf'], ?_⟩
      rw [hvid, if_neg hji, fidReg_other hregs hv (h.vid12 j hj) (hnew j (mem_allocated.1 hj).1), hw, hother f' hff]

theorem VidMoved.isTe {t t' : VlanTables} {i f : Nat} (h : VidMoved t i f t') (f' : Nat) : t'.isTe f' = t.isTe f' :=
  isTe_congr (congrFun h.mstis f') fun m => by rw [h.msti]

/-- A slot that is moved keeps the TE bit in its register. -/
theorem teMatch_moveVid_iff {s : EdgxBrVlan} {i f : Nat} (h : TeMatch par s) (hl : Links par s.toVlanTables)
    (hi : i < par.maxVlans) (hf : f < par.maxFids) (hne : s.fidOf i ≠ some f)
    (hm : VidMoved s.toVlanTables i f (edgxBrMoveVid2fid s i f).toVlanTables) :
    TeMatch par (edgxBrMoveVid2fid s i f) ↔
      ((s.vid i).vid ≠ INVALID_VID → ∀ f', s.fidOf i = some f' → s.isTe f' = s.isTe f) := by
  have hregs : (edgxBrMoveVid2fid s i f).hw.regs.fid =
      Function.update s.hw.regs.fid ((s.vid i).vid.setWidth 12) (fidOver (s.hw.regs.fidReg (s.vid i).vid) f) := by
    rw [moveVid2fid_hw hne, writeVid2fid_fid (h.slot hi)]
  generalize edgxBrMoveVid2fid s i f = s' at hm hregs ⊢
  have ha := allocated_congr par hm.vid
  refine ⟨fun hc h0 f' hf' => ?_, fun hc => ⟨fun j hj => hm.vid j ▸ h.vid12 j (ha ▸ hj), fun j hj => ?_⟩⟩
  · have hmem := mem_allocated.2 ⟨hi, h0⟩
    obtain ⟨g, hg, hw⟩ := h.fid i hmem
    obtain rfl := Option.some.inj (hg.symm.trans hf')
    obtain ⟨f₁, hf₁, hw₁⟩ := hc.fid i (ha ▸ hmem)
    rw [hm.owner, Function.update_self] at hf₁
    obtain rfl := Option.some.inj hf₁
    rw [hm.vid, fidReg_self hregs, hw, fidOver_fidWord (lt_64 (hl.vlan_lt hg).2) (lt_64 hf), hm.isTe] at hw₁
    exact fidWord_inj (lt_64 hf) hw₁
  · rw [ha] at hj
    obtain ⟨hjlt, hj0⟩ := mem_allocated.1 hj
    obtain ⟨g, hg, hw⟩ := h.fid j hj
    simp only [hm.vid, hm.isTe]
    by_cases hji : j = i
    · subst hji
      refine ⟨f, by rw [hm.owner, Function.update_self], ?_⟩
      rw [fidReg_self hregs, hw, fidOver_fidWord (lt_64 (hl.vlan_lt hg).2) (lt_64 hf), hc hj0 g hg]
    · have hother : (s.vid j).vid ≠ (s.vid i).vid := fun he => hji (hl.vid_inj j hjlt i hi hj0 he)
      refine ⟨g, by rw [hm.owner, Function.update_of_ne hji, hg], ?_⟩
      rw [fidReg_other hregs (h.slot hi) (h.vid12 j hj) hother, hw]

/-- A FID that is moved has the registers of all its VLANs written. -/
theorem TeMatch.moveFid {s : EdgxBrVlan} {f m : Nat} (h : TeMatch par s) (hl : Links par s.toVlanTables)
    (hne : s.mstiOf f ≠ some m) (hm : FidMoved s.toVlanTables f m (edgxBrMoveFid2msti par s f m).toVlanTables) :
    TeMatch par (edgxBrMoveFid2msti par s f m) := by
  have hv : ∀ i ∈ s.vlansOf f, Vid12 (s.vid i).vid := fun i hi =>
    h.slot (hl.vlan_lt ((hl.vlans.mem_iff i f).1 hi)).1
  have hregs : ∀ v, (edgxBrMoveFid2msti par s f m).hw.regs.fid v =
      if ∃ i ∈ s.vlansOf f, (s.vid i).vid.setWidth 12 = v then fidWord f ((s.msti m).mstid == EDGX_TE_MSTID)
      else s.hw.regs.fid v := fun v => by
    rw [moveFid2msti_regs hne, writeTeFid_fid _ _ _ _ hv]
  generalize edgxBrMoveFid2msti par s f m = s' at hm hregs ⊢
  have hvid : ∀ i, (s'.vid i).vid = (s.vid i).vid := fun i => by rw [hm.vid]
  have ha := allocated_congr par hvid
  refine ⟨fun i hi => hvid i ▸ h.vid12 i (ha ▸ hi), fun i hi => ?_⟩
  rw [ha] at hi
  obtain ⟨hilt, hi0⟩ := mem_allocated.1 hi
  obtain ⟨g, hg, hw⟩ := h.fid i hi
  refine ⟨g, by rw [VlanTables.fidOf, hm.vid]; exact hg, ?_⟩
  rw [hvid, VlanRegs.fidReg, hregs]
  by_cases hgf : g = f
  · subst hgf
    have hmsti : s'.mstiOf g = some m := by rw [hm.owner, Function.update_self]
    rw [if_pos ⟨i, (hl.vlans.mem_iff i g).2 hg, rfl⟩, isTe_of hmsti, hm.mstid]
  · have hmsti : s'.mstiOf g = s.mstiOf g := by rw [hm.owner, Function.update_of_ne hgf]
    rw [if_neg, isTe_congr hmsti fun m' => by rw [hm.mstid]]
    · exact hw
    · rintro ⟨j, hj, he⟩
      have hj' := (hl.vlans.mem_iff j f).1 hj
      have hvidj := (h.vid12 i hi).inj (hv j hj) he.symm
      obtain rfl := hl.vid_inj i hilt j (hl.vlan_lt hj').1 hi0 hvidj
      exact hgf (Option.some.inj (hg.symm.trans hj'))

/-- An instance that is not the TE instance gets a number that is not the TE
instance's. -/
theorem TeMatch.setMstid {s : EdgxBrVlan} {m : Nat} {mstid : BitVec 16} {ptstate : Port → BitVec 8} (h : TeMatch par s)
    (hold : (s.msti m).mstid ≠ EDGX_TE_MSTID) (hnew : mstid ≠ EDGX_TE_MSTID) :
    TeMatch par { s with msti := Function.update s.msti m { s.msti m with mstid, ptstate } } := by
  refine h.keep (fun _ => rfl) rfl (fun f => isTe_congr rfl fun m' => ?_) rfl
  simp only [Function.update_apply]
  split
  · rename_i he
    rw [he, beq_eq_false_iff_ne.2 hold]
    exact beq_eq_false_iff_ne.2 hnew
  · rfl

/-- An operation keeps FIDs and TE bits right exactly if a new VLAN finds a
clean register and a moved one the same TE bit. -/
theorem teMatch_step {s : EdgxBrVlan} (op : VlanOp) (hl : Links par s.toVlanTables) (h : TeMatch par s) :
    TeMatch par (vlanStep par s op).2 ↔ op.KeepsTe par s := by
  cases op with
  | addPt vid untagged pvid p =>
    obtain ⟨hno, e, he⟩ | ⟨hr, i, hv, ⟨hf, he⟩ | ⟨f, m, s₁, s', hf, -, hsame, hregs, hfin, he⟩⟩ |
        ⟨hr, hv, i, f, s₁, s', hi, hf, hadd, hfin, he⟩ := addPt_cases hl.toLinked vid untagged pvid p <;>
      simp only [vlanStep, he, finish, VlanOp.KeepsTe]
    · refine iff_of_true h fun hr hv hi hf => ?_
      rcases hno with hr' | ⟨-, hi' | hf'⟩
      · cases hr.symm.trans hr'
      · exact absurd hi' hi
      · exact absurd hf' hf
    · exact iff_of_true h fun _ hv' => absurd (hv.symm.trans hv') (Option.some_ne_none _)
    · refine iff_of_true ?_ fun _ hv' => absurd (hv.symm.trans hv') (Option.some_ne_none _)
      obtain ⟨untagged', hpt⟩ := hfin.regs
      have hv₁ : Vid12 (s₁.vid i).vid := hsame.vid i ▸ h.slot (getVlan_some hv).1
      have hpt₁ : (writePt s₁.hw.regs (s₁.vid i) untagged' p).fid = s₁.hw.regs.fid := writePt_fid hv₁ ..
      refine h.keep (fun j => ?_) ?_ (fun f => ?_) ?_
      · rw [hfin.tables]
        exact hsame.vid j
      · rw [hfin.tables]
        exact hsame.fidOf
      · rw [hfin.tables]
        exact hsame.isTe f
      · rw [hpt, hpt₁, hregs]
    · obtain ⟨hlt, hfree⟩ := getVlan_some hi
      obtain ⟨hflt, hempty⟩ := getFreeFid_some hf
      have hnew := getVlan_none hv
      have hne : vid ≠ INVALID_VID := fun hc => hnew i hlt (hfree.trans hc.symm)
      rw [teMatch_added_iff hl h hlt hflt hempty hne hnew hadd hfin]
      refine ⟨fun hok _ _ _ _ => hok, fun hok => hok hr hv ?_ ?_⟩
      · rw [hi]
        exact Option.some_ne_none i
      · rw [hf]
        exact Option.some_ne_none f
  | delPt vid p =>
    obtain ⟨-, he⟩ | ⟨i, hv, ⟨-, s', hsame, hregs, he⟩ | ⟨-, -, he⟩ | ⟨-, f, s', -, hrem, he⟩⟩ :=
        delPt_cases hl.toLinked vid p <;> simp only [vlanStep, he, finish, VlanOp.KeepsTe, iff_true]
    · exact h
    · exact h.keep hsame.vid hsame.fidOf hsame.isTe (portsWritten_fid hregs (h.slot (getVlan_some hv).1))
    · exact h
    · exact h.remove (getVlan_some hv).1 hrem
  | setVid2fid vid fid =>
    obtain ⟨hstay, e, he⟩ | ⟨i, hf, hv, hne, hmoved, he⟩ := setVid2fid_cases hl.toLinked vid fid <;>
      simp only [vlanStep, he, finish, VlanOp.KeepsTe]
    · refine iff_of_true h fun _ hlt i f hv hf => ?_
      rw [Option.some.inj (hf.symm.trans (hstay hlt i hv))]
    · obtain ⟨hi, hvid⟩ := getVlan_some hv
      rw [teMatch_moveVid_iff h hl hi hf hne hmoved, hvid]
      refine ⟨fun hok h0 _ j f' hj hf' => ?_, fun hok h0 f' hf' => hok h0 hf i f' hv hf'⟩
      obtain rfl := Option.some.inj (hv.symm.trans hj)
      exact hok h0 f' hf'
  | getVid2fid vid => exact iff_of_true h True.intro
  | setFid2msti fid mstid =>
    obtain ⟨-, e, he⟩ | ⟨m, hf, hm, hne, hmoved, he⟩ := setFid2msti_cases hl.toLinked fid.toNat mstid <;>
      simp only [vlanStep, he, finish, VlanOp.KeepsTe, iff_true]
    · exact h
    · exact h.moveFid hl hne hmoved
  | getFid2msti fid => exact iff_of_true h True.intro
  | createMsti mstid =>
    obtain ⟨-, e, he⟩ | ⟨m, hnew, hm, he⟩ := createMsti_cases par s mstid <;>
      simp only [vlanStep, he, finish, VlanOp.KeepsTe, iff_true]
    · exact h
    · have hfree : (s.msti m).mstid = EDGX_INVALID_MSTID := (getMsti_some hm).2
      exact h.setMstid (by rw [hfree]; decide) (not_reserved hnew.1).2.1
  | deleteMsti mstid =>
    obtain ⟨e, he⟩ | ⟨m, hr, hm, -, he⟩ := deleteMsti_cases par s mstid <;>
      simp only [vlanStep, he, finish, VlanOp.KeepsTe, iff_true]
    · exact h
    · have hid : (s.msti m).mstid = mstid := (getMsti_some hm).2
      exact h.setMstid (hid ▸ (not_reserved hr).2.1) (by decide)
  | getMstptState mstid p => exact iff_of_true h True.intro
  | setMstptState mstid p ptstate =>
    obtain ⟨-, he⟩ | ⟨m, s', -, hset, he⟩ := setMstptState_cases par s mstid p ptstate <;>
      simp only [vlanStep, he, finish, VlanOp.KeepsTe, iff_true]
    · exact h
    · refine h.keep (fun i => by rw [hset.vid]) ?_ (fun f => isTe_congr ?_ fun m => by rw [hset.mstid]) (by rw [hset.regs])
      · unfold VlanTables.fidOf
        rw [hset.vid]
      · rw [VlanTables.mstiOf, VlanTables.mstiOf, hset.fid]

/-! ## Runs -/

/-- **Each VLAN's register has its FID and the FID's TE bit** in exactly the
runs in which a new VLAN finds no other bits in its register and no VLAN is
moved between FIDs with different TE bits. -/
theorem teMatch_iff (par : Params) (hw : VlanHw) (ops : List VlanOp) :
    (∀ pre suf, ops = pre ++ suf → TeMatch par (after (vlanStep par) (edgxBrInitVlan par hw) pre)) ↔
    Guarded (vlanStep par) (fun s op => op.KeepsTe par s) (edgxBrInitVlan par hw) ops := by
  have h0 : TeMatch par (edgxBrInitVlan par hw) := by
    have hnone : ∀ i, i ∉ (edgxBrInitVlan par hw).allocated par := fun i hi =>
      (mem_allocated.1 hi).2 (by rw [(initial par hw).vid])
    exact ⟨fun i hi => absurd hi (hnone i), fun i hi => absurd hi (hnone i)⟩
  rw [← holds_iff_guarded (I := TeMatch par) (J := fun s : EdgxBrVlan => Links par s.toVlanTables)
    (G := fun _ => True) (fun _ op hl => hl.step op)
    (fun s op hl h => (and_iff_left True.intro).trans (teMatch_step op hl h)) (initial par hw).links h0 ops]
  exact (and_iff_left fun _ _ => True.intro).symm

section Example

/-- A VLAN is removed from a TE FID and added again; or it is moved out of a TE
FID. -/
theorem not_teMatch_stale :
    ¬ TeMatch fourVlans (after (vlanStep fourVlans) (edgxBrInitVlan fourVlans resetHw)
      [.addPt 5 true true ⟨1, by decide⟩, .setFid2msti 0 0xFFE, .delPt 5 ⟨1, by decide⟩,
        .addPt 5 true true ⟨1, by decide⟩]) ∧
    ¬ TeMatch fourVlans (after (vlanStep fourVlans) (edgxBrInitVlan fourVlans resetHw)
      [.addPt 5 true true ⟨1, by decide⟩, .setFid2msti 0 0xFFE, .setVid2fid 5 1]) := by
  refine ⟨fun h => ?_, fun h => ?_⟩
  · obtain ⟨f, hf, hw⟩ := h.fid 0 (by decide +kernel)
    obtain rfl : 0 = f := Option.some.inj (Eq.trans (by decide +kernel) hf)
    exact absurd hw (by decide +kernel)
  · obtain ⟨f, hf, hw⟩ := h.fid 0 (by decide +kernel)
    obtain rfl : 1 = f := Option.some.inj (Eq.trans (by decide +kernel) hf)
    exact absurd hw (by decide +kernel)

end Example

end TsnSwitch.BrVlan
