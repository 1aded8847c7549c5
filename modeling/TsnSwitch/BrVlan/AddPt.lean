/-
Adding a port to a VLAN (`edgx_br_vlan_add_pt`). The check for a full table comes
before the lookup, so a full table also turns ports away from the VLANs that it
has. Besides that a VLAN that is there takes exactly the port, and a new one gets
a slot and a FID of its own or nothing changes (`addPtOk_iff`).
-/
import TsnSwitch.BrVlan.Regs
import TsnSwitch.BrVlan.Represent

namespace TsnSwitch.BrVlan

open Lib

/-- Slot `i` has the VLAN. -/
def HasVlan (s : EdgxBrVlan) (vid : BitVec 16) (i : Nat) : Prop := vid ≠ INVALID_VID ∧ (s.vid i).vid = vid

/-- The call fails with nothing changed. -/
def Unchanged (s : EdgxBrVlan) (r : Option (Int × EdgxBrVlan)) : Prop := ∃ e < 0, r = some (e, s)

/-- Port `p` is in the VLAN of slot `i`, and the tables are as they were
otherwise. -/
structure PortJoined (s : EdgxBrVlan) (i : Nat) (p : Port) (s' : EdgxBrVlan) : Prop where
  tables : s'.toVlanTables =
    { s.toVlanTables with vid := Function.update s.vid i { s.vid i with ptvec := (s.vid i).ptvec ||| BIT p } }
  ports : Vid12 (s.vid i).vid → s'.hw.regs.ports =
    Function.update s.hw.regs.ports ((s.vid i).vid.setWidth 12) (((s.vid i).ptvec ||| BIT p).setWidth 16)

/-- Slot `i`, which was free, has the VLAN with port `p`, and its FID `f` is that
of no other slot. -/
structure VlanPlaced (par : Params) (s : EdgxBrVlan) (vid : BitVec 16) (p : Port) (i f : Nat) (s' : EdgxBrVlan) :
    Prop where
  slot_lt : i < par.maxVlans
  free : (s.vid i).vid = INVALID_VID
  nvlans : s'.nvlans = s.nvlans + 1
  slots : s'.vid = Function.update s.vid i { vid, fid := some f, ptvec := BIT p }
  fid_lt : f < par.maxFids
  unshared : ∀ j ≠ i, s'.fidOf j ≠ some f
  ports : Vid12 vid → s'.hw.regs.ports = Function.update s.hw.regs.ports (vid.setWidth 12) ((BIT p).setWidth 16)

/-- What adding a port is to do. A PVID with a tag is not supported, and no VLAN
has VID 0. -/
structure AddPtOk (par : Params) (s : EdgxBrVlan) (vid : BitVec 16) (untagged pvid : Bool) (p : Port)
    (r : Option (Int × EdgxBrVlan)) : Prop where
  unsupported : (pvid && !untagged) = true → Unchanged s r
  there : (pvid && !untagged) = false → ∀ i < par.maxVlans, HasVlan s vid i → ∃ s', r = some (0, s') ∧ PortJoined s i p s'
  absent : (pvid && !untagged) = false → (∀ i < par.maxVlans, ¬ HasVlan s vid i) →
    Unchanged s r ∨ ∃ i f s', r = some (0, s') ∧ VlanPlaced par s vid p i f s'

/-- A VLAN that is found is found in a table that is not full, and a free slot
found for VID 0 in one that is. -/
def Roomy (par : Params) (s : EdgxBrVlan) (vid : BitVec 16) (untagged pvid : Bool) : Prop :=
  (pvid && !untagged) = false → ∀ i, edgxBrVlanGetVlan par s vid = some i →
    if vid = INVALID_VID then par.maxVlans ≤ s.nvlans.toNat else s.nvlans.toNat < par.maxVlans

variable {par : Params}

/-! ## The ports registers -/

theorem cmd_ports (r : VlanRegs) {vid k : BitVec 16} (hv : Vid12 vid) (h12 : k.getLsbD 12 = true) (hlow : k.setWidth 12 = 0#12) :
    (r.cmd (vid ||| k)).ports =
      if k.getLsbD 13 then Function.update r.ports (vid.setWidth 12) r.portsBase else r.ports := by
  unfold VlanRegs.cmd
  rw [if_pos ((word_high hv k (Nat.le_refl 12)).trans h12), word_low vid hlow, word_high hv k (by decide)]

theorem cmd_read_ports (r : VlanRegs) {vid k : BitVec 16} (hv : Vid12 vid) (h12 : k.getLsbD 12 = false) :
    (r.cmd (vid ||| k)).ports = r.ports := by
  unfold VlanRegs.cmd
  rw [if_neg (Bool.eq_false_iff.1 ((word_high hv k (Nat.le_refl 12)).trans h12))]

theorem writePt_ports (r : VlanRegs) {v : Vlan} (hv : Vid12 v.vid) (untagged : Bool) (p : Port) :
    (writePt r v untagged p).ports = Function.update r.ports (v.vid.setWidth 12) (v.ptvec.setWidth 16) := by
  unfold writePt
  simp only [BitVec.or_assoc]
  rw [cmd_ports _ hv (by decide) (by decide)]
  simp only [cmd_read_ports r hv (k := EDGX_BR_VLAN_CMD_READ ||| EDGX_BR_VLAN_CMD_TAG) (by decide)]
  rfl

theorem writeVid2fid_ports (r : VlanRegs) {vid : BitVec 16} (hv : Vid12 vid) (f : Nat) :
    (writeVid2fid r vid f).ports = r.ports := by
  unfold writeVid2fid
  simp only [BitVec.or_assoc]
  rw [cmd_ports _ hv (by decide) (by decide)]
  exact cmd_read_ports r hv (by decide)

/-! ## The ways the call ends -/

theorem addPt_joined {s : EdgxBrVlan} (hl : Links par s.toVlanTables) {vid : BitVec 16} {untagged pvid : Bool} {i : Nat}
    (hr : addPtRefused par s untagged pvid = false) (hv : edgxBrVlanGetVlan par s vid = some i) (hne : vid ≠ INVALID_VID)
    (p : Port) : ∃ s', edgxBrVlanAddPt par s vid untagged pvid p = some (0, s') ∧ PortJoined s i p s' := by
  obtain ⟨hi, hvid⟩ := getVlan_some hv
  obtain ⟨f, hf⟩ := hl.alloc i hi (hvid ▸ hne)
  obtain ⟨m, hm⟩ := hl.msti f (hl.vlan_lt hf).2
  obtain ⟨s₁, htables, hregs₁, -, h⟩ := addPt_there hr hv p
  have hslot : s₁.vid i = { s.vid i with ptvec := (s.vid i).ptvec ||| BIT p } :=
    (congrArg (·.vid i) htables).trans (Function.update_self ..)
  have hmsti : s₁.mstiOf f = some m := (congrArg (fun t => (t.fid f).msti) htables).trans hm
  obtain ⟨-, hno⟩ | ⟨f', m', s', -, -, hs', hfin⟩ := addPtFinish_cases s₁ i (s.fidOf i) untagged pvid p
  · exact (hno f m hf hmsti).elim
  · refine ⟨s', by rw [h, hs', Option.map_some], hfin.tables.trans htables, fun h12 => ?_⟩
    obtain ⟨untagged', hregs⟩ := hfin.regs
    rw [hregs, hregs₁, hslot]
    exact writePt_ports s.hw.regs (v := { s.vid i with ptvec := (s.vid i).ptvec ||| BIT p }) h12 untagged' p

theorem addPt_placed {s : EdgxBrVlan} (hl : Links par s.toVlanTables) {vid : BitVec 16} {untagged pvid : Bool} {i f : Nat}
    (hr : addPtRefused par s untagged pvid = false) (hv : edgxBrVlanGetVlan par s vid = none)
    (hi : edgxBrVlanGetFreeVlan par s = some i) (hf : edgxBrVlanGetFreeFid par s = some f) (p : Port) :
    ∃ s', edgxBrVlanAddPt par s vid untagged pvid p = some (0, s') ∧ VlanPlaced par s vid p i f s' := by
  obtain ⟨hilt, hfree⟩ := getVlan_some hi
  obtain ⟨hflt, hempty⟩ := getFreeFid_some hf
  obtain ⟨s₁, hadd, hptvec, h⟩ := addPt_new hr hl.toLinked hv hi hf p
  have hcist : s₁.mstiOf f = some CIST_IDX := by rw [hadd.mstiOf, Function.update_self]
  have hslots : s₁.vid = Function.update s.vid i { vid, fid := some f, ptvec := BIT p } := by
    funext j
    have hvid := hadd.vid j
    have hfid : (s₁.vid j).fid = if j = i then some f else (s.vid j).fid :=
      (congrFun hadd.fidOf j).trans (Function.update_apply ..)
    have hptvec := hptvec j
    rw [Function.update_apply]
    cases hs : s₁.vid j
    rw [hs] at hvid hfid hptvec
    obtain rfl := hvid
    obtain rfl := hfid
    obtain rfl := hptvec
    split <;> rfl
  obtain ⟨-, hno⟩ | ⟨f', m, s', -, -, hs', hfin⟩ := addPtFinish_cases s₁ i (some f) untagged pvid p
  · exact (hno f CIST_IDX rfl hcist).elim
  have hvid : s'.vid = s₁.vid := congrArg (·.vid) hfin.tables
  refine ⟨s', by rw [h, hs', Option.map_some], hilt, hfree, ?_, hvid.trans hslots, hflt, fun j hj hc => ?_, fun h12 => ?_⟩
  · exact (congrArg (·.nvlans) hfin.tables).trans hadd.nvlans
  · have hc : (s'.vid j).fid = some f := hc
    rw [hvid, hslots, Function.update_of_ne hj] at hc
    have hmem := (hl.vlans.mem_iff j f).2 hc
    rw [VlanTables.vlansOf, hempty] at hmem
    cases hmem
  · obtain ⟨untagged', hregs⟩ := hfin.regs
    have hslot : s₁.vid i = { vid, fid := some f, ptvec := BIT p } := by rw [hslots, Function.update_self]
    rw [hregs, hslot, writePt_ports _ h12, hadd.regs, writeVid2fid_ports _ h12]

/-! ## Every call -/

theorem hasVlan_iff {s : EdgxBrVlan} {vid : BitVec 16} (hne : vid ≠ INVALID_VID) :
    (∃ i < par.maxVlans, HasVlan s vid i) ↔ ∃ i, edgxBrVlanGetVlan par s vid = some i := by
  refine ⟨fun ⟨i, hi, hv⟩ => ?_, fun ⟨i, hv⟩ => ?_⟩
  · cases h : edgxBrVlanGetVlan par s vid with
    | none => exact absurd hv.2 (getVlan_none h i hi)
    | some j => exact ⟨j, rfl⟩
  · obtain ⟨hi, hvid⟩ := getVlan_some hv
    exact ⟨i, hi, hne, hvid⟩

/-- A free slot is found for VID 0: no VLAN is placed. -/
theorem not_addPtOk_free {s : EdgxBrVlan} (hl : Links par s.toVlanTables) {untagged pvid : Bool} {i : Nat} {p : Port}
    (hr : addPtRefused par s untagged pvid = false) (hv : edgxBrVlanGetVlan par s INVALID_VID = some i) :
    ¬ AddPtOk par s INVALID_VID untagged pvid p (edgxBrVlanAddPt par s INVALID_VID untagged pvid p) := by
  intro h
  have hu : (pvid && !untagged) = false := (Bool.or_eq_false_iff.1 hr).2
  have habsent := h.absent hu fun _ _ hc => hc.1 rfl
  obtain ⟨hc | ⟨hc, -⟩, -⟩ | ⟨-, i', -, ⟨-, hret⟩ | ⟨f, m, s₁, s', -, -, hsame, -, hfin, hret⟩⟩ | ⟨-, hc, -⟩ :=
    addPt_cases hl.toLinked INVALID_VID untagged pvid p
  · exact Bool.false_ne_true (hr.symm.trans hc)
  · cases hv.symm.trans hc
  · obtain ⟨e, -, he⟩ | ⟨_, _, s', he, -⟩ := habsent <;> cases hret.symm.trans he
  · obtain ⟨e, hneg, he⟩ | ⟨_, _, s'', he, hplaced⟩ := habsent
    · have he : (0 : Int) = e := congrArg Prod.fst (Option.some.inj (hret.symm.trans he))
      exact absurd hneg (by omega)
    · obtain rfl : s' = s'' := congrArg Prod.snd (Option.some.inj (hret.symm.trans he))
      have hn : s'.nvlans = s.nvlans := (congrArg (·.nvlans) hfin.tables).trans hsame.nvlans
      have hplus := hplaced.nvlans
      rw [hn] at hplus
      bv_omega
  · cases hv.symm.trans hc

/-- A full table turns a port away from a VLAN that it has. -/
theorem not_addPtOk_full {s : EdgxBrVlan} {vid : BitVec 16} {untagged pvid : Bool} {i : Nat} (p : Port)
    (hu : (pvid && !untagged) = false) (hfull : par.maxVlans ≤ s.nvlans.toNat) (hi : i < par.maxVlans) (hv : HasVlan s vid i) :
    ¬ AddPtOk par s vid untagged pvid p (edgxBrVlanAddPt par s vid untagged pvid p) := by
  intro h
  have hr : addPtRefused par s untagged pvid = true := by rw [addPtRefused, decide_eq_true hfull, Bool.true_or]
  have hun : Unchanged s (edgxBrVlanAddPt par s vid untagged pvid p) := addPt_refused p (.inl hr)
  obtain ⟨e, hneg, he⟩ := hun
  obtain ⟨s', hs', -⟩ := h.there hu i hi hv
  have he : (0 : Int) = e := congrArg Prod.fst (Option.some.inj (hs'.symm.trans he))
  omega

/-- **One call.** -/
theorem addPtOk_of_links {s : EdgxBrVlan} (hl : Links par s.toVlanTables) (vid : BitVec 16) (untagged pvid : Bool)
    (p : Port) :
    AddPtOk par s vid untagged pvid p (edgxBrVlanAddPt par s vid untagged pvid p) ↔ Roomy par s vid untagged pvid := by
  cases hu : pvid && !untagged with
  | true =>
    have hr : addPtRefused par s untagged pvid = true := by rw [addPtRefused, hu, Bool.or_true]
    refine iff_of_true ⟨fun _ => addPt_refused p (.inl hr), fun h => ?_, fun h => ?_⟩ fun h => ?_
    all_goals exact absurd (hu.symm.trans h) (by decide)
  | false =>
    have hno : (pvid && !untagged) ≠ true := Bool.eq_false_iff.1 hu
    have hrefused : addPtRefused par s untagged pvid = decide (par.maxVlans ≤ s.nvlans.toNat) := by
      rw [addPtRefused, hu, Bool.or_false]
    cases hv : edgxBrVlanGetVlan par s vid with
    | none =>
      have hnone : ∀ i < par.maxVlans, ¬ HasVlan s vid i := fun i hi hc => getVlan_none hv i hi hc.2
      refine iff_of_true ⟨fun h => absurd h hno, fun _ i hi hc => absurd hc (hnone i hi), fun _ _ => ?_⟩ fun _ i hc => ?_
      · obtain ⟨hun, -⟩ | ⟨-, i, hc, -⟩ | ⟨hr, -, i, f, -, -, hi, hf, -⟩ := addPt_cases hl.toLinked vid untagged pvid p
        · exact .inl (addPt_refused p hun)
        · cases hv.symm.trans hc
        · obtain ⟨s', h⟩ := addPt_placed hl hr hv hi hf p
          exact .inr ⟨i, f, s', h⟩
      · cases hv.symm.trans hc
    | some i =>
      obtain ⟨hi, hvid⟩ := getVlan_some hv
      by_cases hne : vid = INVALID_VID
      · subst hne
        by_cases hfull : par.maxVlans ≤ s.nvlans.toNat
        · refine iff_of_true ⟨fun h => absurd h hno, fun _ _ _ hc => absurd rfl hc.1, fun _ _ => .inl ?_⟩ fun _ _ _ => ?_
          · exact addPt_refused p (.inl (hrefused.trans (decide_eq_true hfull)))
          · rwa [if_pos rfl]
        · refine iff_of_false (not_addPtOk_free hl (hrefused.trans (decide_eq_false hfull)) hv) fun hc => hfull ?_
          have := hc hu i hv
          rwa [if_pos rfl] at this
      · by_cases hfull : par.maxVlans ≤ s.nvlans.toNat
        · refine iff_of_false (not_addPtOk_full p hu hfull hi ⟨hne, hvid⟩) fun hc => ?_
          have := hc hu i hv
          rw [if_neg hne] at this
          exact Nat.not_le.2 this hfull
        · refine iff_of_true ⟨fun h => absurd h hno, fun _ j hj hc => ?_, fun _ hc => absurd ⟨hne, hvid⟩ (hc i hi)⟩ fun _ _ _ => ?_
          · obtain rfl : j = i := hl.vid_inj j hj i hi (hc.2.symm ▸ hne) (hc.2.trans hvid.symm)
            exact addPt_joined hl (hrefused.trans (decide_eq_false hfull)) hv hne p
          · rw [if_neg hne]
            exact Nat.not_le.1 hfull

/-- **Adding a port in every state that the operations reach: a VLAN that is
there takes exactly the port, and one that is not gets a slot and a FID of its
own or nothing changes, exactly if the VLAN is not found in a full table.** -/
theorem addPtOk_iff (par : Params) (hw : VlanHw) (ops : List VlanOp) (vid : BitVec 16) (untagged pvid : Bool) (p : Port) :
    let s := after (vlanStep par) (edgxBrInitVlan par hw) ops
    AddPtOk par s vid untagged pvid p (edgxBrVlanAddPt par s vid untagged pvid p) ↔ Roomy par s vid untagged pvid :=
  addPtOk_of_links (links_after par hw ops) vid untagged pvid p

section Example

/-- Two VLANs, FIDs and instances. -/
def twoVlans : Params := ⟨2, fun _ => true, by decide, by decide⟩

/-- Both VLANs are there. -/
def bothThere : List VlanOp := [.addPt 1 true true ⟨1, by decide⟩, .addPt 2 true false ⟨1, by decide⟩]

/-- Another port is to be added to VLAN 1. -/
theorem not_addPtOk_second :
    ¬ ∀ (par : Params) (hw : VlanHw) (ops : List VlanOp) (vid : BitVec 16) (untagged pvid : Bool) (p : Port),
      let s := after (vlanStep par) (edgxBrInitVlan par hw) ops
      AddPtOk par s vid untagged pvid p (edgxBrVlanAddPt par s vid untagged pvid p) := by
  intro h
  have hslot : ((after (vlanStep twoVlans) (edgxBrInitVlan twoVlans resetHw) bothThere).vid 0).vid = 1 := by decide +kernel
  have hfull : 2 ≤ (after (vlanStep twoVlans) (edgxBrInitVlan twoVlans resetHw) bothThere).nvlans.toNat := by decide +kernel
  exact not_addPtOk_full ⟨2, by decide⟩ rfl hfull (by decide) ⟨by decide, hslot⟩
    (h twoVlans resetHw bothThere 1 true false ⟨2, by decide⟩)

end Example

end TsnSwitch.BrVlan
