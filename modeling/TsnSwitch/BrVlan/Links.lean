/-
How the tables hang together: pointers and lists agree, each FID is in an
instance's list, VIDs and MSTIDs are unique. A free slot can be in the list of
a FID, and an unallocated instance can have FIDs: `Links` does not say
otherwise. The two moves keep it.
-/
import TsnSwitch.Lib.Owned
import TsnSwitch.BrVlan.Ops

namespace TsnSwitch.BrVlan

open Lib

namespace VlanTables

/-- The FID of a slot. -/
def fidOf (t : VlanTables) (i : Nat) : Option Nat := (t.vid i).fid

/-- The instance of a FID. -/
def mstiOf (t : VlanTables) (f : Nat) : Option Nat := (t.fid f).msti

def vlansOf (t : VlanTables) (f : Nat) : List Nat := (t.fid f).vlanlist

def fidsOf (t : VlanTables) (m : Nat) : List Nat := (t.msti m).fidlist

end VlanTables

/-- Pointers and lists agree, and numbers are unique. -/
structure Linked (par : Params) (t : VlanTables) : Prop where
  vlans : Owned t.fidOf t.vlansOf
  fids : Owned t.mstiOf t.fidsOf
  vlan_lt : ∀ {i f}, t.fidOf i = some f → i < par.maxVlans ∧ f < par.maxFids
  fid_lt : ∀ {f m}, t.mstiOf f = some m → f < par.maxFids ∧ m < par.maxMstis
  msti : ∀ f < par.maxFids, ∃ m, t.mstiOf f = some m
  vid_inj : ∀ i < par.maxVlans, ∀ j < par.maxVlans, (t.vid i).vid ≠ INVALID_VID → (t.vid i).vid = (t.vid j).vid → i = j
  mstid_inj : ∀ m < par.maxMstis, ∀ m' < par.maxMstis,
    (t.msti m).mstid ≠ EDGX_INVALID_MSTID → (t.msti m).mstid = (t.msti m').mstid → m = m'
  cist : (t.msti CIST_IDX).mstid = EDGX_CIST_MSTID
  te : (t.msti TE_IDX).mstid = EDGX_TE_MSTID

/-- Besides, a VLAN has a FID. -/
structure Links (par : Params) (t : VlanTables) : Prop extends Linked par t where
  alloc : ∀ i < par.maxVlans, (t.vid i).vid ≠ INVALID_VID → ∃ f, t.fidOf i = some f

variable {par : Params}

/-! ## Lookups -/

theorem getVlan_some {s : EdgxBrVlan} {vid : BitVec 16} {i : Nat} (h : edgxBrVlanGetVlan par s vid = some i) :
    i < par.maxVlans ∧ (s.vid i).vid = vid := by
  unfold edgxBrVlanGetVlan at h
  have hp := List.find?_some h
  exact ⟨List.mem_range.1 (List.mem_of_find?_eq_some h), beq_iff_eq.1 hp⟩

theorem getVlan_none {s : EdgxBrVlan} {vid : BitVec 16} (h : edgxBrVlanGetVlan par s vid = none) :
    ∀ i < par.maxVlans, (s.vid i).vid ≠ vid := fun i hi he =>
  List.find?_eq_none.1 h i (List.mem_range.2 hi) (beq_iff_eq.2 he)

theorem getFreeFid_some {s : EdgxBrVlan} {f : Nat} (h : edgxBrVlanGetFreeFid par s = some f) :
    f < par.maxFids ∧ (s.fid f).vlanlist = [] := by
  unfold edgxBrVlanGetFreeFid at h
  have hp := List.find?_some h
  exact ⟨List.mem_range.1 (List.mem_of_find?_eq_some h), List.isEmpty_iff.1 hp⟩

theorem getMsti_some {s : EdgxBrVlan} {mstid : BitVec 16} {m : Nat} (h : edgxBrVlanGetMsti par s mstid = some m) :
    m < par.maxMstis ∧ (s.msti m).mstid = mstid := by
  unfold edgxBrVlanGetMsti at h
  have hp := List.find?_some h
  exact ⟨List.mem_range.1 (List.mem_of_find?_eq_some h), beq_iff_eq.1 hp⟩

theorem getMsti_none {s : EdgxBrVlan} {mstid : BitVec 16} (h : edgxBrVlanGetMsti par s mstid = none) :
    ∀ m < par.maxMstis, (s.msti m).mstid ≠ mstid := fun m hm he =>
  List.find?_eq_none.1 h m (List.mem_range.2 hm) (beq_iff_eq.2 he)

theorem one_lt_maxMstis (par : Params) : 1 < par.maxMstis :=
  Nat.lt_min.2 ⟨par.two_le, by decide⟩

/-- The CIST is found at its index. -/
theorem Linked.getMsti_cist {s : EdgxBrVlan} (hl : Linked par s.toVlanTables) :
    edgxBrVlanGetMsti par s EDGX_CIST_MSTID = some CIST_IDX := by
  have h0 : CIST_IDX < par.maxMstis := Nat.lt_trans (by decide) (one_lt_maxMstis par)
  cases h : edgxBrVlanGetMsti par s EDGX_CIST_MSTID with
  | none => exact absurd hl.cist (getMsti_none h CIST_IDX h0)
  | some m =>
    obtain ⟨hm, hid⟩ := getMsti_some h
    have hne : (s.msti m).mstid ≠ EDGX_INVALID_MSTID := by
      rw [hid]
      decide
    rw [hl.mstid_inj m hm CIST_IDX h0 hne (hid.trans hl.cist.symm)]

/-! ## Moves -/

/-- What a move of FID `f` to instance `m` does to the tables. -/
structure FidMoved (t : VlanTables) (f m : Nat) (t' : VlanTables) : Prop where
  nvlans : t'.nvlans = t.nvlans
  vid : t'.vid = t.vid
  vlans : t'.vlansOf = t.vlansOf
  owner : t'.mstiOf = Function.update t.mstiOf f (some m)
  list : t'.fidsOf = Function.update (fun m => (t.fidsOf m).erase f) m ((t.fidsOf m).erase f ++ [f])
  mstid : ∀ m', (t'.msti m').mstid = (t.msti m').mstid
  ptstate : ∀ m', (t'.msti m').ptstate = (t.msti m').ptstate

theorem setTeFid_tables (s : EdgxBrVlan) (f : Nat) (te : Bool) :
    (edgxBrVlanSetTeFid par s f te).toVlanTables = s.toVlanTables := by
  unfold edgxBrVlanSetTeFid
  cases te <;> rfl

theorem moveFid2msti_same {s : EdgxBrVlan} {f m : Nat} (h : s.mstiOf f = some m) : edgxBrMoveFid2msti par s f m = s :=
  if_pos h

theorem moveFid2msti_moved {s : EdgxBrVlan} (ho : Owned s.mstiOf s.fidsOf) {f m : Nat} (h : s.mstiOf f ≠ some m) :
    FidMoved s.toVlanTables f m (edgxBrMoveFid2msti par s f m).toVlanTables := by
  -- without an instance the FID is in no list, and taking it out changes nothing
  have hdel : (if (s.fid f).msti.isSome then s.delFidEntry f else s) = s.delFidEntry f := by
    cases hm : s.mstiOf f with
    | some m' => exact if_pos (Option.isSome_iff_exists.2 ⟨m', hm⟩)
    | none =>
      have he := ho.erase_of_none hm
      have hlist : ∀ m, ((s.msti m).fidlist).erase f = (s.msti m).fidlist := fun m => congrFun he m
      have hs : s.delFidEntry f = s := by
        simp only [EdgxBrVlan.delFidEntry, hlist]
      rw [hs, ite_self]
  unfold edgxBrMoveFid2msti
  rw [if_neg (show (s.fid f).msti ≠ some m from h), hdel]
  simp only [EdgxBrVlan.delFidEntry, setTeFid_tables]
  refine ⟨rfl, rfl, funext fun f' => ?_, funext fun f' => ?_, funext fun m' => ?_, fun m' => ?_, fun m' => ?_⟩
  · simp only [VlanTables.vlansOf, Function.update_apply]
    split
    · rename_i hf
      rw [hf]
    · rfl
  · simp only [VlanTables.mstiOf, Function.update_apply]
    split <;> rfl
  · simp only [VlanTables.fidsOf, Function.update_apply]
    split <;> rfl
  · simp only [Function.update_apply]
    split
    · rename_i hm
      rw [hm]
    · rfl
  · simp only [Function.update_apply]
    split
    · rename_i hm
      rw [hm]
    · rfl

/-- What a move of slot `i` to FID `f` does to the tables. -/
structure VidMoved (t : VlanTables) (i f : Nat) (t' : VlanTables) : Prop where
  nvlans : t'.nvlans = t.nvlans
  vid : ∀ j, (t'.vid j).vid = (t.vid j).vid
  ptvec : ∀ j, (t'.vid j).ptvec = (t.vid j).ptvec
  owner : t'.fidOf = Function.update t.fidOf i (some f)
  list : t'.vlansOf = Function.update (fun f => (t.vlansOf f).erase i) f ((t.vlansOf f).erase i ++ [i])
  mstis : t'.mstiOf = t.mstiOf
  msti : t'.msti = t.msti

theorem moveVid2fid_same {s : EdgxBrVlan} {i f : Nat} (h : s.fidOf i = some f) : edgxBrMoveVid2fid s i f = s := if_pos h

theorem moveVid2fid_moved {s : EdgxBrVlan} (ho : Owned s.fidOf s.vlansOf) {i f : Nat} (h : s.fidOf i ≠ some f) :
    VidMoved s.toVlanTables i f (edgxBrMoveVid2fid s i f).toVlanTables := by
  have hdel : (if (s.vid i).fid.isSome then s.delVlanEntry i else s) = s.delVlanEntry i := by
    cases hf : s.fidOf i with
    | some f' => exact if_pos (Option.isSome_iff_exists.2 ⟨f', hf⟩)
    | none =>
      have he := ho.erase_of_none hf
      have hlist : ∀ f, ((s.fid f).vlanlist).erase i = (s.fid f).vlanlist := fun f => congrFun he f
      have hs : s.delVlanEntry i = s := by
        simp only [EdgxBrVlan.delVlanEntry, hlist]
      rw [hs, ite_self]
  unfold edgxBrMoveVid2fid
  rw [if_neg (show (s.vid i).fid ≠ some f from h), hdel]
  simp only [EdgxBrVlan.delVlanEntry]
  refine ⟨rfl, fun j => ?_, fun j => ?_, funext fun j => ?_, funext fun f' => ?_, funext fun f' => ?_, rfl⟩
  · simp only [Function.update_apply]
    split
    · rename_i hj
      rw [hj]
    · rfl
  · simp only [Function.update_apply]
    split
    · rename_i hj
      rw [hj]
    · rfl
  · simp only [VlanTables.fidOf, Function.update_apply]
    split <;> rfl
  · simp only [VlanTables.vlansOf, Function.update_apply]
    split <;> rfl
  · simp only [VlanTables.mstiOf, Function.update_apply]
    split
    · rename_i hf
      rw [hf]
    · rfl

theorem moveVid2fid_hw {s : EdgxBrVlan} {i f : Nat} (h : s.fidOf i ≠ some f) :
    (edgxBrMoveVid2fid s i f).hw = { s.hw with regs := writeVid2fid s.hw.regs (s.vid i).vid f } := by
  unfold edgxBrMoveVid2fid
  rw [if_neg (show (s.vid i).fid ≠ some f from h)]
  split <;> rfl

/-- The FID registers of a FID's VLANs are written with the TE bit of its new
instance. -/
theorem moveFid2msti_regs {s : EdgxBrVlan} {f m : Nat} (h : s.mstiOf f ≠ some m) :
    (edgxBrMoveFid2msti par s f m).hw.regs =
      writeTeFid s.vid f ((s.msti m).mstid == EDGX_TE_MSTID) s.hw.regs (s.vlansOf f) := by
  have hports : ∀ (ports : List Port) (hw : VlanHw),
      (ports.foldl (fun hw p => edgxPtSetFidFwdState hw p f BR_STATE_FORWARDING) hw).regs = hw.regs := by
    intro ports
    induction ports with
    | nil => exact fun _ => rfl
    | cons p ports ih => exact fun hw => ih _
  have hset : ∀ (s' : EdgxBrVlan) (te : Bool),
      (edgxBrVlanSetTeFid par s' f te).hw.regs = writeTeFid s'.vid f te s'.hw.regs (s'.fid f).vlanlist := by
    intro s' te
    cases te with
    | true => exact hports ..
    | false => rfl
  unfold edgxBrMoveFid2msti
  rw [if_neg (show (s.fid f).msti ≠ some m from h)]
  split <;> simp only [EdgxBrVlan.delFidEntry, Function.update_self, hset] <;> rfl

/-- A FID in the TE instance is forwarded on every port. Otherwise no state
changes. -/
theorem moveFid2msti_fidcfg {s : EdgxBrVlan} {f m : Nat} (h : s.mstiOf f ≠ some m) :
    (edgxBrMoveFid2msti par s f m).hw.fidcfg =
      if (s.msti m).mstid = EDGX_TE_MSTID then
        ((List.finRange EDGX_BR_MAX_PORTS).filter par.brpt).foldl
          (fun fidcfg p => setFidcfg fidcfg p f BR_STATE_FORWARDING) s.hw.fidcfg
      else s.hw.fidcfg := by
  have hports : ∀ (ports : List Port) (hw : VlanHw),
      (ports.foldl (fun hw p => edgxPtSetFidFwdState hw p f BR_STATE_FORWARDING) hw).fidcfg =
        ports.foldl (fun fidcfg p => setFidcfg fidcfg p f BR_STATE_FORWARDING) hw.fidcfg := by
    intro ports
    induction ports with
    | nil => exact fun _ => rfl
    | cons p ports ih => exact fun hw => ih _
  have hset : ∀ (s' : EdgxBrVlan) (te : Bool), (edgxBrVlanSetTeFid par s' f te).hw.fidcfg =
      if te then ((List.finRange EDGX_BR_MAX_PORTS).filter par.brpt).foldl
          (fun fidcfg p => setFidcfg fidcfg p f BR_STATE_FORWARDING) s'.hw.fidcfg
      else s'.hw.fidcfg := by
    intro s' te
    cases te with
    | true => exact hports ..
    | false => rfl
  unfold edgxBrMoveFid2msti
  rw [if_neg (show (s.fid f).msti ≠ some m from h)]
  split <;> simp only [EdgxBrVlan.delFidEntry, Function.update_self, hset, beq_iff_eq]

namespace Linked

variable {t t' : VlanTables}

/-- New VIDs and MSTIDs, with the lists as they are. -/
theorem renumber (h : Linked par t) (hfid : t'.fidOf = t.fidOf) (hvlans : t'.vlansOf = t.vlansOf)
    (hmsti : t'.mstiOf = t.mstiOf) (hfids : t'.fidsOf = t.fidsOf)
    (hvid : ∀ i < par.maxVlans, ∀ j < par.maxVlans,
      (t'.vid i).vid ≠ INVALID_VID → (t'.vid i).vid = (t'.vid j).vid → i = j)
    (hmstid : ∀ m < par.maxMstis, ∀ m' < par.maxMstis,
      (t'.msti m).mstid ≠ EDGX_INVALID_MSTID → (t'.msti m).mstid = (t'.msti m').mstid → m = m')
    (hcist : (t'.msti CIST_IDX).mstid = EDGX_CIST_MSTID) (hte : (t'.msti TE_IDX).mstid = EDGX_TE_MSTID) :
    Linked par t' where
  vlans := by
    rw [hfid, hvlans]
    exact h.vlans
  fids := by
    rw [hmsti, hfids]
    exact h.fids
  vlan_lt := by
    rw [hfid]
    exact h.vlan_lt
  fid_lt := by
    rw [hmsti]
    exact h.fid_lt
  msti := by
    rw [hmsti]
    exact h.msti
  vid_inj := hvid
  mstid_inj := hmstid
  cist := hcist
  te := hte

theorem moveFid (h : Linked par t) {f m : Nat} (hm : FidMoved t f m t') (hf : f < par.maxFids) (hlt : m < par.maxMstis) :
    Linked par t' where
  vlans := by
    have hfid : t'.fidOf = t.fidOf := by
      funext i
      rw [VlanTables.fidOf, VlanTables.fidOf, hm.vid]
    rw [hfid, hm.vlans]
    exact h.vlans
  fids := by
    rw [hm.owner, hm.list]
    exact h.fids.move f m
  vlan_lt := fun {i f'} hi => by
    rw [VlanTables.fidOf, hm.vid] at hi
    exact h.vlan_lt hi
  fid_lt := fun {f' m'} hf' => by
    rw [hm.owner, Function.update_apply] at hf'
    split at hf'
    · rename_i he
      exact ⟨he ▸ hf, Option.some.inj hf' ▸ hlt⟩
    · exact h.fid_lt hf'
  msti := fun f' hf' => by
    rw [hm.owner, Function.update_apply]
    split
    · exact ⟨m, rfl⟩
    · exact h.msti f' hf'
  vid_inj := by
    rw [hm.vid]
    exact h.vid_inj
  mstid_inj := by
    simp only [hm.mstid]
    exact h.mstid_inj
  cist := (hm.mstid _).trans h.cist
  te := (hm.mstid _).trans h.te

theorem moveVid (h : Linked par t) {i f : Nat} (hm : VidMoved t i f t') (hi : i < par.maxVlans) (hf : f < par.maxFids) :
    Linked par t' where
  vlans := by
    rw [hm.owner, hm.list]
    exact h.vlans.move i f
  fids := by
    have hfids : t'.fidsOf = t.fidsOf := by
      funext m
      rw [VlanTables.fidsOf, VlanTables.fidsOf, hm.msti]
    rw [hm.mstis, hfids]
    exact h.fids
  vlan_lt := fun {j f'} hj => by
    rw [hm.owner, Function.update_apply] at hj
    split at hj
    · rename_i he
      exact ⟨he ▸ hi, Option.some.inj hj ▸ hf⟩
    · exact h.vlan_lt hj
  fid_lt := by
    rw [hm.mstis]
    exact h.fid_lt
  msti := by
    rw [hm.mstis]
    exact h.msti
  vid_inj := by
    simp only [hm.vid]
    exact h.vid_inj
  mstid_inj := by
    rw [hm.msti]
    exact h.mstid_inj
  cist := by
    rw [hm.msti]
    exact h.cist
  te := by
    rw [hm.msti]
    exact h.te

end Linked

end TsnSwitch.BrVlan
