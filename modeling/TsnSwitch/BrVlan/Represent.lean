/-
What the VLAN tables are to say: as many VLANs as are counted, each in the
list of one FID, and each FID in an instance that is allocated. VID 0 and
EDGX_INVALID_MSTID mark what is free, and the lookups find it by these numbers:
an operation on them breaks the tables, or follows a pointer that is not there
(`represents_iff`).
-/
import TsnSwitch.Lib.Run
import TsnSwitch.BrVlan.Cases

namespace TsnSwitch.BrVlan

open Lib

/-- The slots with a VLAN. -/
def VlanTables.allocated (t : VlanTables) (par : Params) : Finset Nat :=
  (Finset.range par.maxVlans).filter fun i => (t.vid i).vid ≠ INVALID_VID

/-- The tables represent VLANs, FIDs and instances. -/
structure Represents (par : Params) (t : VlanTables) : Prop where
  count : (t.allocated par).card = t.nvlans.toNat
  vid_inj : ∀ i ∈ t.allocated par, ∀ j ∈ t.allocated par, (t.vid i).vid = (t.vid j).vid → i = j
  listed : ∀ i ∈ t.allocated par, ∃ f < par.maxFids, t.fidOf i = some f ∧ (t.vlansOf f).count i = 1 ∧
    ∀ f', i ∈ t.vlansOf f' → f' = f
  assigned : ∀ f < par.maxFids, ∃ m < par.maxMstis, t.mstiOf f = some m ∧ (t.msti m).mstid ≠ EDGX_INVALID_MSTID

/-- If a slot is found for VID 0, it has a FID. -/
def FreeHasFid (par : Params) (s : EdgxBrVlan) (vid : BitVec 16) : Prop :=
  vid = INVALID_VID → ∀ i, edgxBrVlanGetVlan par s vid = some i → s.fidOf i ≠ none

/-- An operation does not take a free slot for a VLAN or a free instance for
one that is there. -/
def VlanOp.AllocatedOnly (par : Params) (s : EdgxBrVlan) : VlanOp → Prop
  | .addPt vid untagged pvid _ => addPtRefused par s untagged pvid = false → FreeHasFid par s vid
  | .delPt vid p => vid = INVALID_VID → ∀ i, edgxBrVlanGetVlan par s vid = some i → portsLeft s i p ≠ 0
  | .getVid2fid vid => FreeHasFid par s vid
  | .setFid2msti fid mstid =>
    mstid = EDGX_INVALID_MSTID → fid.toNat < par.maxVlans → edgxBrVlanGetMsti par s mstid = none
  | _ => True

variable {par : Params}

theorem mem_allocated {t : VlanTables} {i : Nat} :
    i ∈ t.allocated par ↔ i < par.maxVlans ∧ (t.vid i).vid ≠ INVALID_VID := by
  rw [VlanTables.allocated, Finset.mem_filter, Finset.mem_range]

/-- What `Links` leaves open. -/
structure Counted (par : Params) (t : VlanTables) : Prop where
  count : (t.allocated par).card = t.nvlans.toNat
  assigned : ∀ f < par.maxFids, ∀ m, t.mstiOf f = some m → (t.msti m).mstid ≠ EDGX_INVALID_MSTID

theorem represents_of_counted {t : VlanTables} (hl : Links par t) (hc : Counted par t) : Represents par t := by
  refine ⟨hc.count, fun i hi j hj he => ?_, fun i hi => ?_, fun f hf => ?_⟩
  · obtain ⟨hi, hne⟩ := mem_allocated.1 hi
    exact hl.vid_inj i hi j (mem_allocated.1 hj).1 hne he
  · obtain ⟨hi, hne⟩ := mem_allocated.1 hi
    obtain ⟨f, hf⟩ := hl.alloc i hi hne
    refine ⟨f, (hl.vlan_lt hf).2, hf, hl.vlans.count_eq hf, fun f' hmem => ?_⟩
    exact (Option.some.inj (hf.symm.trans ((hl.vlans.mem_iff i f').1 hmem))).symm
  · obtain ⟨m, hm⟩ := hl.msti f hf
    exact ⟨m, (hl.fid_lt hm).2, hm, hc.assigned f hf m hm⟩

theorem Represents.counted {t : VlanTables} (h : Represents par t) : Counted par t := by
  refine ⟨h.count, fun f hf m hm => ?_⟩
  obtain ⟨m', -, hm', hid⟩ := h.assigned f hf
  obtain rfl := Option.some.inj (hm.symm.trans hm')
  exact hid

/-! ## Counting -/

theorem allocated_congr (par : Params) {t t' : VlanTables} (h : ∀ i, (t'.vid i).vid = (t.vid i).vid) :
    t'.allocated par = t.allocated par := by
  simp only [VlanTables.allocated, h]

theorem allocated_add {t t' : VlanTables} {i : Nat} {vid : BitVec 16} (hi : i < par.maxVlans) (hne : vid ≠ INVALID_VID)
    (h : ∀ j, (t'.vid j).vid = if j = i then vid else (t.vid j).vid) :
    t'.allocated par = insert i (t.allocated par) := by
  ext j
  rw [Finset.mem_insert, mem_allocated, mem_allocated, h]
  by_cases hj : j = i
  · rw [if_pos hj]
    exact iff_of_true ⟨hj ▸ hi, hne⟩ (.inl hj)
  · rw [if_neg hj]
    exact (or_iff_right hj).symm

theorem allocated_remove {t t' : VlanTables} {i : Nat}
    (h : ∀ j, (t'.vid j).vid = if j = i then INVALID_VID else (t.vid j).vid) :
    t'.allocated par = (t.allocated par).erase i := by
  ext j
  rw [Finset.mem_erase, mem_allocated, mem_allocated, h]
  by_cases hj : j = i
  · rw [if_pos hj]
    exact iff_of_false (fun hc => hc.2 rfl) fun hc => hc.1 hj
  · rw [if_neg hj]
    exact (and_iff_right hj).symm

theorem card_allocated_le (par : Params) (t : VlanTables) : (t.allocated par).card ≤ 64 :=
  (Finset.card_filter_le ..).trans (by rw [Finset.card_range]; exact par.le_64)

/-! ## Steps -/

/-- An operation that changes no VID and no instance of a FID. -/
theorem Counted.keep {t t' : VlanTables} (h : Counted par t) (hn : t'.nvlans = t.nvlans)
    (hv : ∀ i, (t'.vid i).vid = (t.vid i).vid) (hm : t'.mstiOf = t.mstiOf) (hid : ∀ m, (t'.msti m).mstid = (t.msti m).mstid) :
    Counted par t' := by
  refine ⟨by rw [allocated_congr par hv, hn]; exact h.count, fun f hf m hfm => ?_⟩
  rw [hid]
  exact h.assigned f hf m (hm ▸ hfm)

theorem Counted.keep_same {s s' : EdgxBrVlan} (h : Counted par s.toVlanTables) (hs : SameLinks s s') :
    Counted par s'.toVlanTables := by
  refine h.keep hs.nvlans hs.vid ?_ fun m => by rw [hs.msti]
  unfold VlanTables.mstiOf
  rw [hs.fid]

theorem Counted.of_added {s s₁ : EdgxBrVlan} {i f : Nat} {vid : BitVec 16} (h : Counted par s.toVlanTables)
    (hl : Links par s.toVlanTables) (hi : i < par.maxVlans) (hfree : (s.vid i).vid = INVALID_VID) (hne : vid ≠ INVALID_VID)
    (hadd : VlanAdded par s i f vid s₁) : Counted par s₁.toVlanTables := by
  have hnew : i ∉ s.allocated par := fun hmem => (mem_allocated.1 hmem).2 hfree
  refine ⟨?_, fun f' hf' m hm => ?_⟩
  · have hle := card_allocated_le par s.toVlanTables
    have hcount := h.count
    rw [allocated_add hi hne hadd.vid, Finset.card_insert_of_notMem hnew, hadd.nvlans]
    bv_omega
  · rw [hadd.mstiOf, Function.update_apply] at hm
    rw [hadd.mstid]
    split at hm
    · obtain rfl := Option.some.inj hm
      rw [hl.cist]
      decide
    · exact h.assigned f' hf' m hm

/-- The count is right after a slot is freed exactly if it had a VLAN. -/
theorem counted_removed_iff {s s' : EdgxBrVlan} {i : Nat} (h : Counted par s.toVlanTables) (hi : i < par.maxVlans)
    (hrem : VlanRemoved s i s') : Counted par s'.toVlanTables ↔ (s.vid i).vid ≠ INVALID_VID := by
  have hle := card_allocated_le par s.toVlanTables
  have hcount := h.count
  refine ⟨fun hc he => ?_, fun hne => ⟨?_, fun f hf m hm => ?_⟩⟩
  · have hc' := hc.count
    have hout : i ∉ s.allocated par := fun hmem => (mem_allocated.1 hmem).2 he
    rw [allocated_remove hrem.vid, Finset.erase_eq_of_notMem hout, hrem.nvlans] at hc'
    bv_omega
  · have hmem : i ∈ s.allocated par := mem_allocated.2 ⟨hi, hne⟩
    have hpos := Finset.card_pos.2 ⟨i, hmem⟩
    rw [allocated_remove hrem.vid, Finset.card_erase_of_mem hmem, hrem.nvlans]
    bv_omega
  · rw [hrem.msti]
    exact h.assigned f hf m (hrem.mstiOf ▸ hm)

theorem counted_moved_iff {t t' : VlanTables} {f m : Nat} (h : Counted par t) (hf : f < par.maxFids)
    (hm : FidMoved t f m t') : Counted par t' ↔ (t.msti m).mstid ≠ EDGX_INVALID_MSTID := by
  have hv : ∀ i, (t'.vid i).vid = (t.vid i).vid := fun i => by rw [hm.vid]
  refine ⟨fun hc => ?_, fun hid => ⟨by rw [allocated_congr par hv, hm.nvlans]; exact h.count, fun f' hf' m' hm' => ?_⟩⟩
  · rw [← hm.mstid]
    exact hc.assigned f hf m (by rw [hm.owner, Function.update_self])
  · rw [hm.owner, Function.update_apply] at hm'
    rw [hm.mstid]
    split at hm'
    · obtain rfl := Option.some.inj hm'
      exact hid
    · exact h.assigned f' hf' m' hm'

theorem counted_setMstid {t : VlanTables} {m : Nat} {mstid : BitVec 16} {ptstate : Port → BitVec 8} (hl : Links par t)
    (h : Counted par t) (hm : mstid ≠ EDGX_INVALID_MSTID ∨ t.fidsOf m = []) :
    Counted par { t with msti := Function.update t.msti m { t.msti m with mstid, ptstate } } := by
  refine ⟨h.count, fun f hf m' hm' => ?_⟩
  simp only [Function.update_apply]
  split
  · rename_i he
    rcases hm with hm | hm
    · exact hm
    · have hmem := (hl.fids.mem_iff f m').2 hm'
      rw [he, hm] at hmem
      exact nomatch hmem
  · exact h.assigned f hf m' hm'

/-- A slot without a FID is free. -/
theorem Links.free_of_none {s : EdgxBrVlan} (hl : Links par s.toVlanTables) {vid : BitVec 16} {i : Nat}
    (hv : edgxBrVlanGetVlan par s vid = some i) (hf : s.fidOf i = none) : vid = INVALID_VID := by
  obtain ⟨hi, hvid⟩ := getVlan_some hv
  by_contra hne
  obtain ⟨f, hf'⟩ := hl.alloc i hi (hvid ▸ hne)
  exact nomatch hf.symm.trans hf'

/-- A slot that is found has a FID exactly where a free one has. -/
theorem freeHasFid_iff {s : EdgxBrVlan} (hl : Links par s.toVlanTables) {vid : BitVec 16} {i : Nat}
    (hv : edgxBrVlanGetVlan par s vid = some i) : FreeHasFid par s vid ↔ s.fidOf i ≠ none := by
  refine ⟨fun h hf => h (hl.free_of_none hv hf) i hv hf, fun hne _ j hj => ?_⟩
  obtain rfl := Option.some.inj (hv.symm.trans hj)
  exact hne

theorem ret_ne_oops {r : Int} {val : Nat} : VlanRet.ret r val ≠ .oops := fun h => nomatch h

/-- An operation keeps the count and the instances and returns exactly if it
takes nothing that is free for allocated. -/
theorem counted_step {s : EdgxBrVlan} (op : VlanOp) (hl : Links par s.toVlanTables) (h : Counted par s.toVlanTables) :
    Counted par (vlanStep par s op).2.toVlanTables ∧ (vlanStep par s op).1 ≠ .oops ↔ op.AllocatedOnly par s := by
  cases op with
  | addPt vid untagged pvid p =>
    obtain ⟨hno, e, he⟩ | ⟨hr, i, hv, ⟨hf, he⟩ | ⟨f, m, s₁, s', hf, -, hsame, -, hfin, he⟩⟩ |
        ⟨hr, hv, i, f, s₁, s', hi, -, hadd, hfin, he⟩ := addPt_cases hl.toLinked vid untagged pvid p <;>
      simp only [vlanStep, he, finish, VlanOp.AllocatedOnly]
    · refine iff_of_true ⟨h, ret_ne_oops⟩ fun hr _ i hv => ?_
      rcases hno with hr' | ⟨hv', -⟩
      · cases hr.symm.trans hr'
      · cases hv.symm.trans hv'
    · refine iff_of_false (fun hc => hc.2 rfl) fun hok => ?_
      exact (freeHasFid_iff hl hv).1 (hok hr) hf
    · rw [hfin.tables]
      refine iff_of_true ⟨h.keep_same hsame, ret_ne_oops⟩ fun _ => (freeHasFid_iff hl hv).2 ?_
      rw [hf]
      exact Option.some_ne_none f
    · rw [hfin.tables]
      obtain ⟨hlt, hfree⟩ := getVlan_some hi
      have hne : vid ≠ INVALID_VID := fun hc => getVlan_none hv i hlt (hfree.trans hc.symm)
      exact iff_of_true ⟨h.of_added hl hlt hfree hne hadd, ret_ne_oops⟩ fun _ hc => absurd hc hne
  | delPt vid p =>
    obtain ⟨hv, he⟩ | ⟨i, hv, ⟨hp, s', hsame, -, he⟩ | ⟨hp, hf, he⟩ | ⟨hp, f, s', -, hrem, he⟩⟩ :=
        delPt_cases hl.toLinked vid p <;> simp only [vlanStep, he, finish, VlanOp.AllocatedOnly]
    · exact iff_of_true ⟨h, ret_ne_oops⟩ fun _ i hi => absurd (hi.symm.trans hv) (Option.some_ne_none _)
    · refine iff_of_true ⟨h.keep_same hsame, ret_ne_oops⟩ fun _ j hj => ?_
      obtain rfl := Option.some.inj (hv.symm.trans hj)
      exact hp
    · exact iff_of_false (fun hc => hc.2 rfl) fun hok => hok (hl.free_of_none hv hf) i hv hp
    · obtain ⟨hi, hvid⟩ := getVlan_some hv
      rw [and_iff_left ret_ne_oops, counted_removed_iff h hi hrem, hvid]
      exact ⟨fun hne hc => absurd hc hne, fun hok hc => hok hc i hv hp⟩
  | setVid2fid vid fid =>
    obtain ⟨-, e, he⟩ | ⟨i, -, -, -, hmoved, he⟩ := setVid2fid_cases hl.toLinked vid fid <;>
      simp only [vlanStep, he, finish, VlanOp.AllocatedOnly, iff_true]
    · exact ⟨h, ret_ne_oops⟩
    · exact ⟨h.keep hmoved.nvlans hmoved.vid hmoved.mstis fun m => by rw [hmoved.msti], ret_ne_oops⟩
  | getVid2fid vid =>
    simp only [vlanStep, VlanOp.AllocatedOnly, edgxBrGetVid2fid]
    rw [and_iff_right h]
    cases hv : edgxBrVlanGetVlan par s vid with
    | none => exact iff_of_true ret_ne_oops fun _ i hi => absurd (hi.symm.trans hv) (Option.some_ne_none _)
    | some i =>
      rw [freeHasFid_iff hl hv]
      cases hf : s.fidOf i with
      | none =>
        have hf' : (s.vid i).fid = none := hf
        simp only [hf']
        exact iff_of_false (fun hc => hc rfl) fun hc => hc rfl
      | some f =>
        have hf' : (s.vid i).fid = some f := hf
        simp only [hf']
        exact iff_of_true ret_ne_oops (Option.some_ne_none f)
  | setFid2msti fid mstid =>
    obtain ⟨hstay, e, he⟩ | ⟨m, hf, hm, -, hmoved, he⟩ := setFid2msti_cases hl.toLinked fid.toNat mstid <;>
      simp only [vlanStep, he, finish, VlanOp.AllocatedOnly]
    · refine iff_of_true ⟨h, ret_ne_oops⟩ fun hid hlt => ?_
      by_contra hne
      obtain ⟨m, hm⟩ := Option.ne_none_iff_exists'.1 hne
      exact h.assigned _ hlt m (hstay hlt m hm) ((getMsti_some hm).2.trans hid)
    · rw [and_iff_left ret_ne_oops, counted_moved_iff h hf hmoved, (getMsti_some hm).2]
      exact ⟨fun hne hid => absurd hid hne,
        fun hok hid => absurd (hm.symm.trans (hok hid hf)) (Option.some_ne_none _)⟩
  | getFid2msti fid =>
    refine iff_of_true ⟨h, ?_⟩ True.intro
    simp only [vlanStep, fid2mstiRead]
    cases hf : edgxBrVlanGetFid par fid with
    | none => exact ret_ne_oops
    | some f =>
      unfold edgxBrVlanGetFid at hf
      obtain ⟨m, hm⟩ := hl.msti f (List.mem_range.1 (List.mem_of_find?_eq_some hf))
      have hm' : (s.fid f).msti = some m := hm
      simp only [hm']
      exact ret_ne_oops
  | createMsti mstid =>
    obtain ⟨-, e, he⟩ | ⟨m, hnew, -, he⟩ := createMsti_cases par s mstid <;>
      simp only [vlanStep, he, finish, VlanOp.AllocatedOnly, iff_true]
    · exact ⟨h, ret_ne_oops⟩
    · exact ⟨counted_setMstid hl h (.inl (not_reserved hnew.1).2.2), ret_ne_oops⟩
  | deleteMsti mstid =>
    obtain ⟨e, he⟩ | ⟨m, -, -, hempty, he⟩ := deleteMsti_cases par s mstid <;>
      simp only [vlanStep, he, finish, VlanOp.AllocatedOnly, iff_true]
    · exact ⟨h, ret_ne_oops⟩
    · exact ⟨counted_setMstid hl h (.inr hempty), ret_ne_oops⟩
  | getMstptState mstid p => exact iff_of_true ⟨h, ret_ne_oops⟩ True.intro
  | setMstptState mstid p ptstate =>
    obtain ⟨-, he⟩ | ⟨m, s', -, hset, he⟩ := setMstptState_cases par s mstid p ptstate <;>
      simp only [vlanStep, he, finish, VlanOp.AllocatedOnly, iff_true]
    · exact ⟨h, ret_ne_oops⟩
    · refine ⟨h.keep hset.nvlans (fun i => by rw [hset.vid]) ?_ hset.mstid, ret_ne_oops⟩
      unfold VlanTables.mstiOf
      rw [hset.fid]

/-! ## Runs -/

theorem initial_counted (par : Params) (hw : VlanHw) : Counted par (edgxBrInitVlan par hw).toVlanTables := by
  have h := initial par hw
  refine ⟨?_, fun f hf m hm => ?_⟩
  · have hnone : (edgxBrInitVlan par hw).allocated par = ∅ := by
      refine Finset.eq_empty_of_forall_notMem fun i hi => (mem_allocated.1 hi).2 ?_
      rw [h.vid]
    rw [hnone, h.nvlans]
    rfl
  · obtain rfl := Option.some.inj (hm.symm.trans (h.mstiOf f hf))
    rw [h.links.cist]
    decide

/-- The tables hang together in every run. -/
theorem links_after (par : Params) (hw : VlanHw) (ops : List VlanOp) :
    Links par (after (vlanStep par) (edgxBrInitVlan par hw) ops).toVlanTables :=
  inv_after (I := fun s : EdgxBrVlan => Links par s.toVlanTables) ops (initial par hw).links fun _ op hl => hl.step op

/-- Purging a port is a run of removals. -/
theorem purgePt_run {p : Port} {is : List Nat} {s s' : EdgxBrVlan} (h : purgePt par p is s = some s') :
    ∃ vids : List (BitVec 16), s' = after (vlanStep par) s (vids.map (.delPt · p)) := by
  induction is generalizing s with
  | nil => exact ⟨[], (Option.some.inj h).symm⟩
  | cons i is ih =>
    unfold purgePt at h
    split at h
    · split at h
      · exact nomatch h
      · rename_i r s₁ hdel
        obtain ⟨vids, he⟩ := ih h
        refine ⟨(s.vid i).vid :: vids, ?_⟩
        rw [List.map_cons, after_cons, vlanStep, hdel]
        exact he
    · exact ih h

/-- **The tables represent VLANs, FIDs and instances, and every call returns,**
in exactly the runs whose operations take nothing free for allocated. -/
theorem represents_iff (par : Params) (hw : VlanHw) (ops : List VlanOp) :
    ((∀ pre suf, ops = pre ++ suf →
        Represents par (after (vlanStep par) (edgxBrInitVlan par hw) pre).toVlanTables) ∧
      ∀ o ∈ outs (vlanStep par) (edgxBrInitVlan par hw) ops, o.2 ≠ .oops) ↔
    Guarded (vlanStep par) (fun s op => op.AllocatedOnly par s) (edgxBrInitVlan par hw) ops := by
  refine holds_iff_guarded (I := fun s : EdgxBrVlan => Represents par s.toVlanTables)
    (J := fun s : EdgxBrVlan => Links par s.toVlanTables) (G := fun o : VlanRet => o ≠ .oops)
    (fun _ op hl => hl.step op) (fun s op hl h => ?_) (initial par hw).links
    (represents_of_counted (initial par hw).links (initial_counted par hw)) ops
  rw [← counted_step op hl h.counted]
  exact and_congr_left' ⟨Represents.counted, represents_of_counted (hl.step op)⟩

section Example

/-- Four VLANs, FIDs and instances. -/
def fourVlans : Params := ⟨4, fun _ => true, by decide, by decide⟩

/-- Registers as they are after a reset. -/
def resetHw : VlanHw where
  regs := { ports := fun _ => 0, tag := fun _ => 0, fid := fun _ => 0 }
  fidcfg := fun _ _ => PT_STP_DISABLED

/-- With no VLAN there, the FID of VID 0 is read; VID 0 is given a FID and its
port removed; FID 0 is put into the instance EDGX_INVALID_MSTID. -/
theorem not_represents_free :
    (∃ o ∈ outs (vlanStep fourVlans) (edgxBrInitVlan fourVlans resetHw) [.getVid2fid 0], o.2 = .oops) ∧
    ¬ Represents fourVlans (after (vlanStep fourVlans) (edgxBrInitVlan fourVlans resetHw)
      [.setVid2fid 0 1, .delPt 0 ⟨1, by decide⟩]).toVlanTables ∧
    ¬ Represents fourVlans (after (vlanStep fourVlans) (edgxBrInitVlan fourVlans resetHw)
      [.setFid2msti 0 0xFFF]).toVlanTables := by
  refine ⟨⟨_, List.mem_cons_self .., by decide +kernel⟩, fun h => ?_, fun h => ?_⟩
  · exact absurd h.count (by decide +kernel)
  · exact absurd (h.counted.assigned 0 (by decide) 2 (by decide +kernel)) (by decide +kernel)

end Example

end TsnSwitch.BrVlan
