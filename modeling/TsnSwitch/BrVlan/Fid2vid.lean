/-
The VLANs of a FID, read (`fid2vid_read`). The loop over the FID's list and the
one that fills the rest share the index, and the second counts it twice for each
slot: with two slots left or more, every other one stays as the buffer was.
-/
import Mathlib.Data.List.GetD
import TsnSwitch.BrVlan.Represent

namespace TsnSwitch.BrVlan

open Lib

/-- The loop over the list. Returns the index behind the last VLAN. -/
def readVlans (vid : Nat → Vlan) : List Nat → Nat → (Nat → BitVec 32) → Nat × (Nat → BitVec 32)
  | [], i, buf => (i, buf)
  | vlan :: vlans, i, buf => readVlans vid vlans (i + 1) (Function.update buf i ((vid vlan).vid.setWidth 32))

/-- The loop over the remaining entries: the index is counted in the assignment
and by the loop. -/
def fillRest (maxVlans i : Nat) (buf : Nat → BitVec 32) : Nat → BitVec 32 :=
  if i < maxVlans then fillRest maxVlans (i + 1 + 1) (Function.update buf i (INVALID_VID.setWidth 32)) else buf
termination_by maxVlans - i

/-- One element is read. Returns the bytes and the buffer, which has anything
before. -/
def fid2vidRead (par : Params) (s : EdgxBrVlan) (fid : BitVec 16) (buf : Nat → BitVec 32) : Int × (Nat → BitVec 32) :=
  match edgxBrVlanGetFid par fid with
  | none => (0, buf)
  | some f =>
    let (i, buf) := readVlans s.vid (s.fid f).vlanlist 0 buf
    (4 * par.maxVlans, fillRest par.maxVlans i buf)

/-- The VLAN is mapped to FID `f`. -/
def Mapped (s : EdgxBrVlan) (f : Nat) (vid : BitVec 16) : Prop := vid ≠ INVALID_VID ∧ ∃ i, (s.vid i).vid = vid ∧ s.fidOf i = some f

/-- The slots have the VLANs that are mapped to the FID, each once, and 0 behind
them, whatever the buffer had. -/
structure Fid2vidOk (par : Params) (s : EdgxBrVlan) (fid : BitVec 16) : Prop where
  absent : edgxBrVlanGetFid par fid = none → ∀ buf, fid2vidRead par s fid buf = (0, buf)
  table : ∀ f, edgxBrVlanGetFid par fid = some f → ∃ vids : List (BitVec 16),
    vids.Nodup ∧ (∀ vid, vid ∈ vids ↔ Mapped s f vid) ∧ vids.length ≤ par.maxVlans ∧
      ∀ buf, (fid2vidRead par s fid buf).1 = 4 * par.maxVlans ∧
        (∀ j < par.maxVlans, (fid2vidRead par s fid buf).2 j = (vids.getD j INVALID_VID).setWidth 32) ∧
        ∀ j ≥ par.maxVlans, (fid2vidRead par s fid buf).2 j = buf j

/-- At most one slot is left over, and no free slot is in front of a VLAN in the
FID's list. -/
def Filled (par : Params) (s : EdgxBrVlan) (fid : BitVec 16) : Prop := ∀ f, edgxBrVlanGetFid par fid = some f →
  par.maxVlans ≤ (s.vlansOf f).length + 1 ∧
    (s.vlansOf f).Pairwise fun i j => (s.vid i).vid = INVALID_VID → (s.vid j).vid = INVALID_VID

variable {par : Params}

/-! ## The loops -/

theorem readVlans_fst (vid : Nat → Vlan) (vlans : List Nat) (i : Nat) (buf : Nat → BitVec 32) :
    (readVlans vid vlans i buf).1 = i + vlans.length := by
  induction vlans generalizing i buf with
  | nil => rfl
  | cons vlan vlans ih =>
    rw [readVlans, ih, List.length_cons]
    omega

/-- The VLANs are in the slots from `i` on, and the other slots are as they
were. -/
theorem readVlans_snd (vid : Nat → Vlan) (vlans : List Nat) (i : Nat) (buf : Nat → BitVec 32) (j : Nat) :
    (readVlans vid vlans i buf).2 j =
      if i ≤ j ∧ j < i + vlans.length then ((vlans.map fun v => (vid v).vid).getD (j - i) INVALID_VID).setWidth 32
      else buf j := by
  induction vlans generalizing i buf with
  | nil =>
    have hno : ¬ (i ≤ j ∧ j < i + ([] : List Nat).length) := by
      simp only [List.length_nil]
      omega
    rw [if_neg hno]
    rfl
  | cons vlan vlans ih =>
    rw [readVlans, ih, List.length_cons, Function.update_apply]
    by_cases hj : j = i
    · subst hj
      rw [if_neg (by omega), if_pos rfl, if_pos (by omega), Nat.sub_self]
      rfl
    · by_cases hin : i + 1 ≤ j ∧ j < i + 1 + vlans.length
      · have hsub : j - i = j - (i + 1) + 1 := by omega
        rw [if_pos hin, if_pos (by omega), hsub, List.map_cons, List.getD_cons_succ]
      · rw [if_neg hin, if_neg hj, if_neg (by omega)]

/-- Every other slot from `i` on is filled. -/
theorem fillRest_apply (maxVlans i : Nat) (buf : Nat → BitVec 32) (j : Nat) :
    fillRest maxVlans i buf j = if i ≤ j ∧ j < maxVlans ∧ (j - i) % 2 = 0 then INVALID_VID.setWidth 32 else buf j := by
  induction i, buf using fillRest.induct maxVlans with
  | case1 i buf h ih =>
    rw [fillRest, if_pos h, ih, Function.update_apply]
    by_cases hj : j = i
    · rw [if_neg (by omega), if_pos hj, if_pos (by omega)]
    · rw [if_neg hj]
      by_cases hin : i + 1 + 1 ≤ j ∧ j < maxVlans ∧ (j - (i + 1 + 1)) % 2 = 0
      · rw [if_pos hin, if_pos (by omega)]
      · rw [if_neg hin, if_neg (by omega)]
  | case2 i buf h => rw [fillRest, if_neg h, if_neg (by omega)]

/-- A slot of the buffer after the read. -/
theorem fid2vidRead_slot {s : EdgxBrVlan} {fid : BitVec 16} {f : Nat} (hf : edgxBrVlanGetFid par fid = some f)
    (buf : Nat → BitVec 32) (j : Nat) :
    (fid2vidRead par s fid buf).2 j =
      if (s.vlansOf f).length ≤ j ∧ j < par.maxVlans ∧ (j - (s.vlansOf f).length) % 2 = 0 then INVALID_VID.setWidth 32
      else if j < (s.vlansOf f).length then (((s.vlansOf f).map fun v => (s.vid v).vid).getD j INVALID_VID).setWidth 32
      else buf j := by
  simp only [fid2vidRead, hf, fillRest_apply, readVlans_fst, readVlans_snd, Nat.zero_add, Nat.zero_le, true_and, Nat.sub_zero]
  rfl

/-! ## The list of a FID -/

theorem setWidth32_inj {x y : BitVec 16} (h : x.setWidth 32 = y.setWidth 32) : x = y := by bv_omega

/-- With the free slots last the VLANs are in front. -/
theorem getD_filter {vids : List (BitVec 16)} (h : vids.Pairwise fun x y => x = INVALID_VID → y = INVALID_VID) (j : Nat) :
    (vids.filter (· ≠ INVALID_VID)).getD j INVALID_VID = vids.getD j INVALID_VID := by
  induction vids generalizing j with
  | nil => rfl
  | cons x vids ih =>
    obtain ⟨hx, hrest⟩ := List.pairwise_cons.1 h
    by_cases hx0 : x = INVALID_VID
    · have hall : ∀ y ∈ x :: vids, y = INVALID_VID := by
        intro y hy
        rcases List.mem_cons.1 hy with rfl | hy
        · exact hx0
        · exact hx y hy hx0
      have hnil : (x :: vids).filter (· ≠ INVALID_VID) = [] :=
        List.filter_eq_nil_iff.2 fun y hy => by simp [hall y hy]
      rw [hnil, List.getD_nil, List.getD_eq_getElem?_getD]
      cases hj : (x :: vids)[j]? with
      | none => rfl
      | some y => exact (hall y (List.mem_of_getElem? hj)).symm
    · rw [List.filter_cons_of_pos (by simpa using hx0)]
      cases j with
      | zero => rfl
      | succ j => exact ih hrest j

section Table

variable {s : EdgxBrVlan} (hl : Links par s.toVlanTables) {f : Nat}

include hl

theorem vlansOf_length (f : Nat) : (s.vlansOf f).length ≤ par.maxVlans := by
  have hsub : (s.vlansOf f).Subperm (List.range par.maxVlans) :=
    (hl.vlans.nodup f).subperm fun i hi => List.mem_range.2 (hl.vlan_lt ((hl.vlans.mem_iff i f).1 hi)).1
  simpa using hsub.length_le

/-- The VLANs of the list are those mapped to the FID. -/
theorem mem_vids (f : Nat) (vid : BitVec 16) :
    vid ∈ ((s.vlansOf f).map fun i => (s.vid i).vid).filter (· ≠ INVALID_VID) ↔ Mapped s f vid := by
  rw [List.mem_filter, List.mem_map, decide_eq_true_eq]
  refine ⟨fun ⟨⟨i, hi, hv⟩, hne⟩ => ⟨hne, i, hv, (hl.vlans.mem_iff i f).1 hi⟩, fun ⟨hne, i, hv, hf⟩ => ?_⟩
  exact ⟨⟨i, (hl.vlans.mem_iff i f).2 hf, hv⟩, hne⟩

theorem vids_nodup (f : Nat) : (((s.vlansOf f).map fun i => (s.vid i).vid).filter (· ≠ INVALID_VID)).Nodup := by
  rw [List.filter_map]
  refine ((hl.vlans.nodup f).filter _).map_on fun i hi j hj he => ?_
  obtain ⟨hi, hne⟩ := List.mem_filter.1 hi
  have hj := (List.mem_filter.1 hj).1
  have hlt := fun k (hk : k ∈ s.vlansOf f) => (hl.vlan_lt ((hl.vlans.mem_iff k f).1 hk)).1
  exact hl.vid_inj i (hlt i hi) j (hlt j hj) (of_decide_eq_true hne) he

/-- The read shows the VLANs, so the list has room for one slot at most and its
free slots last. -/
theorem filled_of_table {fid : BitVec 16} (hf : edgxBrVlanGetFid par fid = some f) {vids : List (BitVec 16)}
    (hmem : ∀ vid ∈ vids, vid ≠ INVALID_VID)
    (hslots : ∀ buf, ∀ j < par.maxVlans, (fid2vidRead par s fid buf).2 j = (vids.getD j INVALID_VID).setWidth 32) :
    par.maxVlans ≤ (s.vlansOf f).length + 1 ∧
      (s.vlansOf f).Pairwise fun i j => (s.vid i).vid = INVALID_VID → (s.vid j).vid = INVALID_VID := by
  refine ⟨Nat.not_lt.1 fun hlt => ?_, List.pairwise_iff_getElem.2 fun a b ha hb hab h0 => ?_⟩
  · -- the slot behind the first that is filled has what the buffer had
    have hslot : ∀ buf : Nat → BitVec 32,
        buf ((s.vlansOf f).length + 1) = (vids.getD ((s.vlansOf f).length + 1) INVALID_VID).setWidth 32 := by
      intro buf
      rw [← hslots buf _ hlt, fid2vidRead_slot hf, if_neg (by omega), if_neg (by omega)]
    exact absurd ((hslot fun _ => 1).trans (hslot fun _ => 2).symm) (by decide)
  · have hle := vlansOf_length hl f
    have hread : ∀ j, (hj : j < (s.vlansOf f).length) → (s.vid (s.vlansOf f)[j]).vid = vids.getD j INVALID_VID := by
      intro j hj
      have hslot := hslots (fun _ => 0) j (by omega)
      rw [fid2vidRead_slot hf, if_neg (by omega), if_pos hj, List.getD_eq_getElem _ _ (by simpa using hj),
        List.getElem_map] at hslot
      exact setWidth32_inj hslot
    have hend : vids.length ≤ a := by
      refine Nat.not_lt.1 fun hlt => ?_
      have hread := hread a ha
      rw [h0, List.getD_eq_getElem _ _ hlt] at hread
      exact hmem _ (List.getElem_mem hlt) hread.symm
    rw [hread b hb, List.getD_eq_default _ _ (by omega)]

/-- **One read.** -/
theorem fid2vidOk_of_links (fid : BitVec 16) : Fid2vidOk par s fid ↔ Filled par s fid := by
  refine ⟨fun h f hf => ?_, fun h => ⟨fun hf buf => ?_, fun f hf => ?_⟩⟩
  · obtain ⟨vids, -, hmem, -, hslots⟩ := h.table f hf
    exact filled_of_table hl hf (fun vid hv => ((hmem vid).1 hv).1) fun buf => (hslots buf).2.1
  · rw [fid2vidRead, hf]
  · obtain ⟨hfull, hlast⟩ := h f hf
    have hle := vlansOf_length hl f
    have hgetD := getD_filter (List.pairwise_map.2 hlast)
    refine ⟨_, vids_nodup hl f, mem_vids hl f, ?_, fun buf => ⟨?_, fun j hj => ?_, fun j hj => ?_⟩⟩
    · exact ((List.length_filter_le ..).trans_eq (List.length_map _)).trans hle
    · rw [fid2vidRead, hf]
    · rw [hgetD, fid2vidRead_slot hf]
      by_cases hin : j < (s.vlansOf f).length
      · rw [if_neg (by omega), if_pos hin]
      · rw [if_pos ⟨by omega, hj, by omega⟩, List.getD_eq_default _ _ (by rw [List.length_map]; omega)]
    · rw [fid2vidRead_slot hf, if_neg (by omega), if_neg (by omega)]

end Table

/-- **Reading the VLANs of a FID in every state that the operations reach: the
leading slots have the VLANs that are mapped to the FID, each once, and the others
are written with 0, exactly if at most one slot is left over and the list has its
free slots last.** -/
theorem fid2vidOk_iff (par : Params) (hw : VlanHw) (ops : List VlanOp) (fid : BitVec 16) :
    let s := after (vlanStep par) (edgxBrInitVlan par hw) ops
    Fid2vidOk par s fid ↔ Filled par s fid :=
  fid2vidOk_of_links (links_after par hw ops) fid

/-- No VLAN is there: the second slot is not written. -/
theorem not_fid2vidOk_empty :
    ¬ ∀ (par : Params) (hw : VlanHw) (ops : List VlanOp) (fid : BitVec 16),
      Fid2vidOk par (after (vlanStep par) (edgxBrInitVlan par hw) ops) fid := by
  intro h
  have hfilled := (fid2vidOk_of_links (links_after fourVlans resetHw []) 0).1 (h fourVlans resetHw [] 0) 0 (by decide)
  have hnone : ((edgxBrInitVlan fourVlans resetHw).vlansOf 0).length = 0 := by decide +kernel
  exact absurd hfilled.1 (by rw [after_nil, hnone]; decide)

end TsnSwitch.BrVlan
