/-
The hardware keeps a state for each port and FID, the tables one for each port
and instance. A FID that is put into another instance keeps its states in the
hardware, and a port that is added to a VLAN gets the state it has in the CIST
(`statesMatch_iff`).
-/
import TsnSwitch.BrVlan.Represent

namespace TsnSwitch.BrVlan

open Lib

/-- The hardware's state for a port's state in an instance. -/
def VlanTables.stateOf (t : VlanTables) (m : Nat) (p : Port) : Option (BitVec 2) := hwState ((t.msti m).ptstate p)

/-- Each port has the state in the hardware, for each FID, that it has in the
FID's instance. -/
def StatesMatch (par : Params) (s : EdgxBrVlan) : Prop :=
  ∀ p, par.brpt p → ∀ f < par.maxFids, ∀ m, s.mstiOf f = some m → s.stateOf m p = some (s.hw.fidcfg p f)

/-- A port is added where its state is the one it has in the CIST; a FID is
moved where the states are the same, or all forwarding if it is to the TE
instance; an instance is created for FIDs that are disabled, and a known state
is set. -/
def VlanOp.KeepsStates (par : Params) (s : EdgxBrVlan) : VlanOp → Prop
  | .addPt vid untagged pvid p =>
    addPtRefused par s untagged pvid = false →
      (∀ i f m, edgxBrVlanGetVlan par s vid = some i → s.fidOf i = some f → s.mstiOf f = some m →
        par.brpt p → (s.msti m).mstid ≠ EDGX_TE_MSTID →
          s.stateOf CIST_IDX p = none ∨ s.stateOf CIST_IDX p = s.stateOf m p) ∧
      (∀ f m, edgxBrVlanGetVlan par s vid = none → edgxBrVlanGetFreeVlan par s ≠ none →
        edgxBrVlanGetFreeFid par s = some f → s.mstiOf f = some m →
          (par.brpt p → s.stateOf CIST_IDX p ≠ none) ∧
          ∀ q, par.brpt q → q ≠ p → s.stateOf CIST_IDX q = s.stateOf m q)
  | .setFid2msti fid mstid =>
    fid.toNat < par.maxFids → ∀ m m₀, edgxBrVlanGetMsti par s mstid = some m → s.mstiOf fid.toNat = some m₀ → m₀ ≠ m →
      ∀ p, par.brpt p → s.stateOf m p = if mstid = EDGX_TE_MSTID then some PT_STP_FWD else s.stateOf m₀ p
  | .createMsti mstid =>
    MstidNew par s mstid → ∀ m, edgxBrVlanGetFreeMsti par s = some m → s.fidsOf m ≠ [] →
      ∀ p, par.brpt p → s.stateOf m p = some PT_STP_DISABLED
  | .setMstptState mstid p ptstate =>
    par.brpt p → ∀ m, edgxBrVlanGetMsti par s mstid = some m → s.fidsOf m ≠ [] → hwState ptstate ≠ none
  | _ => True

variable {par : Params}

/-! ## Hardware -/

theorem setFidcfg_apply (fidcfg : Port → Nat → BitVec 2) (p : Port) (f : Nat) (st : BitVec 8) (q : Port) (g : Nat) :
    setFidcfg fidcfg p f st q g = if q = p ∧ g = f then (hwState st).getD (fidcfg q g) else fidcfg q g := by
  unfold setFidcfg
  cases hwState st with
  | none => exact (ite_self _).symm
  | some x =>
    simp only [Function.update_apply, Option.getD_some]
    by_cases hq : q = p
    · simp only [hq, if_true, true_and, Function.update_apply]
    · simp only [hq, if_false, false_and]

theorem setFidcfg_list (st : BitVec 8) (pairs : List (Port × Nat)) (fidcfg : Port → Nat → BitVec 2) (q : Port) (g : Nat) :
    pairs.foldl (fun fidcfg x => setFidcfg fidcfg x.1 x.2 st) fidcfg q g =
      if (q, g) ∈ pairs then (hwState st).getD (fidcfg q g) else fidcfg q g := by
  induction pairs generalizing fidcfg with
  | nil => exact (if_neg fun h => nomatch h).symm
  | cons x pairs ih =>
    rw [List.foldl_cons, ih, setFidcfg_apply]
    by_cases hx : q = x.1 ∧ g = x.2
    · rw [if_pos hx, if_pos (List.mem_cons.2 (.inl (Prod.ext hx.1 hx.2)))]
      cases hwState st <;> simp only [Option.getD_none, Option.getD_some, ite_self]
    · rw [if_neg hx]
      refine if_congr (List.mem_cons.trans (or_iff_right fun he => hx ?_)).symm rfl rfl
      exact Prod.ext_iff.1 he

/-- All FIDs of a list get a port's state. -/
theorem setFidcfg_fids (p : Port) (st : BitVec 8) (fids : List Nat) (fidcfg : Port → Nat → BitVec 2) (q : Port) (g : Nat) :
    fids.foldl (fun fidcfg f => setFidcfg fidcfg p f st) fidcfg q g =
      if q = p ∧ g ∈ fids then (hwState st).getD (fidcfg q g) else fidcfg q g := by
  have h := setFidcfg_list st (fids.map (p, ·)) fidcfg q g
  rw [List.foldl_map] at h
  rw [h]
  refine if_congr ?_ rfl rfl
  rw [List.mem_map]
  refine ⟨fun ⟨f, hf, he⟩ => ?_, fun ⟨hq, hg⟩ => ⟨g, hg, hq ▸ rfl⟩⟩
  obtain ⟨rfl, rfl⟩ := Prod.mk.inj he
  exact ⟨rfl, hf⟩

/-- All ports of a list get a state for a FID. -/
theorem setFidcfg_ports (f : Nat) (st : BitVec 8) (ports : List Port) (fidcfg : Port → Nat → BitVec 2) (q : Port) (g : Nat) :
    ports.foldl (fun fidcfg p => setFidcfg fidcfg p f st) fidcfg q g =
      if q ∈ ports ∧ g = f then (hwState st).getD (fidcfg q g) else fidcfg q g := by
  have h := setFidcfg_list st (ports.map (·, f)) fidcfg q g
  rw [List.foldl_map] at h
  rw [h]
  refine if_congr ?_ rfl rfl
  rw [List.mem_map]
  refine ⟨fun ⟨p, hp, he⟩ => ?_, fun ⟨hq, hg⟩ => ⟨q, hq, hg ▸ rfl⟩⟩
  obtain ⟨rfl, rfl⟩ := Prod.mk.inj he
  exact ⟨hp, rfl⟩

/-! ## Steps -/

theorem stateOf_congr {t t' : VlanTables} {m : Nat} (h : (t'.msti m).ptstate = (t.msti m).ptstate) (p : Port) :
    t'.stateOf m p = t.stateOf m p := by
  rw [VlanTables.stateOf, h, VlanTables.stateOf]

theorem StatesMatch.keep {s s' : EdgxBrVlan} (h : StatesMatch par s) (hm : s'.mstiOf = s.mstiOf)
    (hst : ∀ m, (s'.msti m).ptstate = (s.msti m).ptstate) (hcfg : s'.hw.fidcfg = s.hw.fidcfg) : StatesMatch par s' := by
  intro p hp f hf m hfm
  rw [stateOf_congr (hst m), hcfg]
  exact h p hp f hf m (hm ▸ hfm)

theorem SameLinks.mstiOf {s s' : EdgxBrVlan} (h : SameLinks s s') : s'.mstiOf = s.mstiOf := by
  funext f
  rw [VlanTables.mstiOf, VlanTables.mstiOf, h.fid]

/-- A port that is added to a VLAN that is there gets its state in the CIST. -/
theorem statesMatch_finished_iff {s s' : EdgxBrVlan} {i f m : Nat} {p : Port} (h : StatesMatch par s)
    (hf : f < par.maxFids) (hm : s.mstiOf f = some m) (hfin : Finished s i f m p s') :
    StatesMatch par s' ↔ (par.brpt p → (s.msti m).mstid ≠ EDGX_TE_MSTID →
      s.stateOf CIST_IDX p = none ∨ s.stateOf CIST_IDX p = s.stateOf m p) := by
  have hmsti : s'.mstiOf = s.mstiOf := hfin.mstiOf
  have hst : ∀ m' q, s'.stateOf m' q = s.stateOf m' q := fun m' q => congrArg (·.stateOf m' q) hfin.tables
  by_cases hte : (s.msti m).mstid = EDGX_TE_MSTID
  · refine iff_of_true (h.keep hmsti (fun m' => congrArg (fun t => (t.msti m').ptstate) hfin.tables) ?_) fun _ hne => ?_
    · rw [hfin.fidcfg, if_neg (not_not.2 hte)]
    · exact absurd hte hne
  have hcfg := hfin.fidcfg
  rw [if_pos hte] at hcfg
  have happly : ∀ q g, s'.hw.fidcfg q g =
      if q = p ∧ g = f then (s.stateOf CIST_IDX p).getD (s.hw.fidcfg q g) else s.hw.fidcfg q g := fun q g => by
    rw [hcfg, setFidcfg_apply]
    rfl
  refine ⟨fun hc hp _ => ?_, fun hok q hq g hg m' hm' => ?_⟩
  · have hnew := hc p hp f hf m (hmsti ▸ hm)
    rw [hst, happly, if_pos ⟨rfl, rfl⟩] at hnew
    cases hcist : s.stateOf CIST_IDX p with
    | none => exact .inl rfl
    | some x =>
      rw [hcist, Option.getD_some] at hnew
      exact .inr hnew.symm
  · rw [hmsti] at hm'
    have hold := h q hq g hg m' hm'
    rw [hst, happly]
    split
    · rename_i he
      obtain ⟨rfl, rfl⟩ := he
      obtain rfl := Option.some.inj (hm.symm.trans hm')
      rcases hok hq hte with hnone | hsame
      · rw [hnone]
        exact hold
      · rw [hsame, hold]
        rfl
    · exact hold

/-- A port that is added to a new VLAN: the VLAN's FID comes to the CIST with
the states it had. -/
theorem statesMatch_added_iff {s s₁ s' : EdgxBrVlan} {i f m : Nat} {vid : BitVec 16} {p : Port}
    (hl : Links par s.toVlanTables) (h : StatesMatch par s) (hf : f < par.maxFids) (hm : s.mstiOf f = some m)
    (hadd : VlanAdded par s i f vid s₁) (hfin : Finished s₁ i f CIST_IDX p s') :
    StatesMatch par s' ↔ (par.brpt p → s.stateOf CIST_IDX p ≠ none) ∧
      ∀ q, par.brpt q → q ≠ p → s.stateOf CIST_IDX q = s.stateOf m q := by
  have hmsti : s'.mstiOf = Function.update s.mstiOf f (some CIST_IDX) := hfin.mstiOf.trans hadd.mstiOf
  have hst₁ : ∀ m' q, s₁.stateOf m' q = s.stateOf m' q := fun m' q => stateOf_congr (hadd.ptstate m') q
  have hst : ∀ m' q, s'.stateOf m' q = s.stateOf m' q := fun m' q =>
    (congrArg (·.stateOf m' q) hfin.tables).trans (hst₁ m' q)
  have hne : (s₁.msti CIST_IDX).mstid ≠ EDGX_TE_MSTID := by
    rw [hadd.mstid, hl.cist]
    decide
  have happly : ∀ q g, s'.hw.fidcfg q g =
      if q = p ∧ g = f then (s.stateOf CIST_IDX p).getD (s.hw.fidcfg q g) else s.hw.fidcfg q g := fun q g => by
    rw [hfin.fidcfg, if_pos hne, setFidcfg_apply, hadd.fidcfg, ← hst₁]
    rfl
  have hself : s'.mstiOf f = some CIST_IDX := by rw [hmsti, Function.update_self]
  refine ⟨fun hc => ⟨fun hp hnone => ?_, fun q hq hqp => ?_⟩, fun ⟨hp, hq⟩ => ?_⟩
  · have hnew := hc p hp f hf CIST_IDX hself
    rw [hst, hnone] at hnew
    exact nomatch hnew
  · have hnew := hc q hq f hf CIST_IDX hself
    rw [hst, happly, if_neg fun he => hqp he.1] at hnew
    exact hnew.trans (h q hq f hf m hm).symm
  · intro q hbr g hg m' hm'
    rw [hst, happly]
    by_cases hgf : g = f
    · subst hgf
      obtain rfl := Option.some.inj (hself.symm.trans hm')
      by_cases hqp : q = p
      · subst hqp
        obtain ⟨x, hx⟩ := Option.ne_none_iff_exists'.1 (hp hbr)
        rw [if_pos ⟨rfl, rfl⟩, hx, Option.getD_some]
      · rw [if_neg fun he => hqp he.1, hq q hbr hqp]
        exact h q hbr g hg m hm
    · rw [hmsti, Function.update_of_ne hgf] at hm'
      rw [if_neg fun he => hgf he.2]
      exact h q hbr g hg m' hm'

/-- A FID that is moved keeps its states, or is forwarded in the TE
instance. -/
theorem statesMatch_moveFid_iff {s : EdgxBrVlan} {f m m₀ : Nat} (h : StatesMatch par s) (hf : f < par.maxFids)
    (hm₀ : s.mstiOf f = some m₀) (hne : s.mstiOf f ≠ some m)
    (hm : FidMoved s.toVlanTables f m (edgxBrMoveFid2msti par s f m).toVlanTables) :
    StatesMatch par (edgxBrMoveFid2msti par s f m) ↔ ∀ p, par.brpt p →
      s.stateOf m p = if (s.msti m).mstid = EDGX_TE_MSTID then some PT_STP_FWD else s.stateOf m₀ p := by
  have hcfg : ∀ p g, par.brpt p → (edgxBrMoveFid2msti par s f m).hw.fidcfg p g =
      if (s.msti m).mstid = EDGX_TE_MSTID ∧ g = f then PT_STP_FWD else s.hw.fidcfg p g := by
    intro p g hp
    rw [moveFid2msti_fidcfg hne]
    by_cases hte : (s.msti m).mstid = EDGX_TE_MSTID
    · rw [if_pos hte, setFidcfg_ports]
      exact if_congr (and_congr_left' (iff_of_true (List.mem_filter.2 ⟨List.mem_finRange p, hp⟩) hte)) rfl rfl
    · rw [if_neg hte, if_neg fun he => hte he.1]
  generalize edgxBrMoveFid2msti par s f m = s' at hm hcfg ⊢
  have hself : s'.mstiOf f = some m := by rw [hm.owner, Function.update_self]
  refine ⟨fun hc p hp => ?_, fun hok p hp g hg m' hm' => ?_⟩
  · have hnew := hc p hp f hf m hself
    rw [stateOf_congr (hm.ptstate m), hcfg p f hp] at hnew
    rw [hnew, h p hp f hf m₀ hm₀]
    by_cases hte : (s.msti m).mstid = EDGX_TE_MSTID
    · rw [if_pos ⟨hte, rfl⟩, if_pos hte]
    · rw [if_neg fun he => hte he.1, if_neg hte]
  · rw [stateOf_congr (hm.ptstate m'), hcfg p g hp]
    by_cases hgf : g = f
    · subst hgf
      obtain rfl := Option.some.inj (hself.symm.trans hm')
      rw [hok p hp, h p hp g hg m₀ hm₀]
      by_cases hte : (s.msti m).mstid = EDGX_TE_MSTID
      · rw [if_pos hte, if_pos ⟨hte, rfl⟩]
      · rw [if_neg hte, if_neg fun he => hte he.1]
    · rw [if_neg fun he => hgf he.2]
      rw [hm.owner, Function.update_of_ne hgf] at hm'
      exact h p hp g hg m' hm'

/-- An instance that is created has all ports disabled, and its FIDs, if it has
any, the states they had. -/
theorem statesMatch_create_iff {s : EdgxBrVlan} {m : Nat} (mstid : BitVec 16) (hl : Links par s.toVlanTables)
    (h : StatesMatch par s) :
    StatesMatch par { s with
        msti := Function.update s.msti m { s.msti m with mstid, ptstate := fun _ => BR_STATE_DISABLED } } ↔
      (s.fidsOf m ≠ [] → ∀ p, par.brpt p → s.stateOf m p = some PT_STP_DISABLED) := by
  generalize hs' : ({ s with
    msti := Function.update s.msti m { s.msti m with mstid, ptstate := fun _ => BR_STATE_DISABLED } } : EdgxBrVlan) = s'
  have hmsti : s'.mstiOf = s.mstiOf := by rw [← hs']; rfl
  have hcfg : s'.hw.fidcfg = s.hw.fidcfg := by rw [← hs']
  have hst : ∀ m' p, s'.stateOf m' p = if m' = m then some PT_STP_DISABLED else s.stateOf m' p := by
    intro m' p
    rw [← hs', VlanTables.stateOf]
    simp only [Function.update_apply]
    split
    · rfl
    · rfl
  refine ⟨fun hc hne p hp => ?_, fun hok p hp g hg m' hm' => ?_⟩
  · obtain ⟨f, hf⟩ := List.exists_mem_of_ne_nil _ hne
    have hfm := (hl.fids.mem_iff f m).1 hf
    have hlt := (hl.fid_lt hfm).1
    have hnew := hc p hp f hlt m (hmsti ▸ hfm)
    rw [hst, if_pos rfl, hcfg] at hnew
    rw [hnew]
    exact h p hp f hlt m hfm
  · rw [hmsti] at hm'
    rw [hst, hcfg]
    split
    · rename_i he
      subst he
      have hmem := (hl.fids.mem_iff g m').2 hm'
      rw [← hok (List.ne_nil_of_mem hmem) p hp]
      exact h p hp g hg m' hm'
    · exact h p hp g hg m' hm'

/-- The states of a port's FIDs follow its state in the instance, if it is
known. -/
theorem statesMatch_set_iff {s s' : EdgxBrVlan} {m : Nat} {p : Port} {st : BitVec 8} (hl : Links par s.toVlanTables)
    (h : StatesMatch par s) (hset : PtstateSet s m p st s') :
    StatesMatch par s' ↔ (par.brpt p → s.fidsOf m ≠ [] → hwState st ≠ none) := by
  have hmsti : s'.mstiOf = s.mstiOf := by
    funext f
    rw [VlanTables.mstiOf, VlanTables.mstiOf, hset.fid]
  have hst : ∀ m' q, s'.stateOf m' q = if m' = m ∧ q = p then hwState st else s.stateOf m' q := by
    intro m' q
    rw [VlanTables.stateOf, hset.ptstate]
    by_cases hm : m' = m
    · subst hm
      simp only [if_true, true_and, Function.update_apply]
      split <;> rfl
    · rw [if_neg hm, if_neg fun he => hm he.1]
      rfl
  have hcfg : ∀ q g, s'.hw.fidcfg q g =
      if q = p ∧ g ∈ s.fidsOf m then (hwState st).getD (s.hw.fidcfg q g) else s.hw.fidcfg q g := fun q g => by
    rw [hset.fidcfg, setFidcfg_fids]
  refine ⟨fun hc hp hne hnone => ?_, fun hok q hq g hg m' hm' => ?_⟩
  · obtain ⟨f, hf⟩ := List.exists_mem_of_ne_nil _ hne
    have hfm := (hl.fids.mem_iff f m).1 hf
    have hnew := hc p hp f (hl.fid_lt hfm).1 m (hmsti ▸ hfm)
    rw [hst, if_pos ⟨rfl, rfl⟩, hnone] at hnew
    cases hnew
  · rw [hmsti] at hm'
    have hmem := hl.fids.mem_iff g m
    rw [hst, hcfg]
    by_cases hqp : q = p
    · subst hqp
      by_cases hmm : m' = m
      · subst hmm
        have hin := hmem.2 hm'
        obtain ⟨x, hx⟩ := Option.ne_none_iff_exists'.1 (hok hq (List.ne_nil_of_mem hin))
        rw [if_pos ⟨rfl, rfl⟩, if_pos ⟨rfl, hin⟩, hx, Option.getD_some]
      · rw [if_neg fun he => hmm he.1, if_neg]
        · exact h q hq g hg m' hm'
        · exact fun he => hmm (Option.some.inj (hm'.symm.trans (hmem.1 he.2)))
    · rw [if_neg fun he => hqp he.2, if_neg fun he => hqp he.1]
      exact h q hq g hg m' hm'

/-- An operation keeps the states right exactly if the states it does not
program are those of the FID's new instance. -/
theorem statesMatch_step {s : EdgxBrVlan} (op : VlanOp) (hl : Links par s.toVlanTables) (h : StatesMatch par s) :
    StatesMatch par (vlanStep par s op).2 ↔ op.KeepsStates par s := by
  cases op with
  | addPt vid untagged pvid p =>
    obtain ⟨hno, e, he⟩ | ⟨hr, i, hv, ⟨hf, he⟩ | ⟨f, m, s₁, s', hf, hm, hsame, -, hfin, he⟩⟩ |
        ⟨hr, hv, i, f, s₁, s', hi, hf, hadd, hfin, he⟩ := addPt_cases hl.toLinked vid untagged pvid p <;>
      simp only [vlanStep, he, finish, VlanOp.KeepsStates]
    · refine iff_of_true h fun hr => ?_
      rcases hno with hr' | ⟨hv, hno⟩
      · cases hr.symm.trans hr'
      refine ⟨fun i f m hv' => absurd (hv'.symm.trans hv) (Option.some_ne_none _), fun f m _ hi hf => ?_⟩
      rcases hno with hi' | hf'
      · exact absurd hi' hi
      · cases hf.symm.trans hf'
    · refine iff_of_true h fun _ =>
        ⟨fun j f m hj hf' => ?_, fun f m hv' => absurd (hv.symm.trans hv') (Option.some_ne_none _)⟩
      obtain rfl := Option.some.inj (hv.symm.trans hj)
      cases hf.symm.trans hf'
    · have hst : ∀ m q, s₁.stateOf m q = s.stateOf m q := fun m q => stateOf_congr (by rw [hsame.msti]) q
      have hkeep : StatesMatch par s₁ := h.keep hsame.mstiOf (fun m => by rw [hsame.msti]) hsame.fidcfg
      have hm₁ : s₁.mstiOf f = some m := (congrFun hsame.mstiOf f).trans hm
      rw [statesMatch_finished_iff hkeep (hl.vlan_lt hf).2 hm₁ hfin, hsame.msti, hst, hst]
      refine ⟨fun hok _ => ⟨fun j g m' hj hg hm' => ?_, fun f m hv' => absurd (hv.symm.trans hv') (Option.some_ne_none _)⟩,
        fun hok => ?_⟩
      · obtain rfl := Option.some.inj (hv.symm.trans hj)
        obtain rfl := Option.some.inj (hf.symm.trans hg)
        obtain rfl := Option.some.inj (hm.symm.trans hm')
        exact hok
      · exact (hok hr).1 i f m hv hf hm
    · obtain ⟨hflt, -⟩ := getFreeFid_some hf
      obtain ⟨m, hm⟩ := hl.msti f hflt
      rw [statesMatch_added_iff hl h hflt hm hadd hfin]
      refine ⟨fun hok _ => ⟨fun j g m' hj => absurd (hj.symm.trans hv) (Option.some_ne_none _), fun g m' _ _ hg hm' => ?_⟩,
        fun hok => ?_⟩
      · obtain rfl := Option.some.inj (hf.symm.trans hg)
        obtain rfl := Option.some.inj (hm.symm.trans hm')
        exact hok
      · exact (hok hr).2 f m hv (by rw [hi]; exact Option.some_ne_none i) hf hm
  | delPt vid p =>
    obtain ⟨-, he⟩ | ⟨i, hv, ⟨-, s', hsame, -, he⟩ | ⟨-, -, he⟩ | ⟨-, f, s', -, hrem, he⟩⟩ :=
        delPt_cases hl.toLinked vid p <;> simp only [vlanStep, he, finish, VlanOp.KeepsStates, iff_true]
    · exact h
    · exact h.keep hsame.mstiOf (fun m => by rw [hsame.msti]) hsame.fidcfg
    · exact h
    · exact h.keep hrem.mstiOf (fun m => by rw [hrem.msti]) hrem.fidcfg
  | setVid2fid vid fid =>
    obtain ⟨-, e, he⟩ | ⟨i, -, -, hne, hmoved, he⟩ := setVid2fid_cases hl.toLinked vid fid <;>
      simp only [vlanStep, he, finish, VlanOp.KeepsStates, iff_true]
    · exact h
    · exact h.keep hmoved.mstis (fun m => by rw [hmoved.msti]) (by rw [moveVid2fid_hw hne])
  | getVid2fid vid => exact iff_of_true h True.intro
  | setFid2msti fid mstid =>
    obtain ⟨hstay, e, he⟩ | ⟨m, hf, hm, hne, hmoved, he⟩ := setFid2msti_cases hl.toLinked fid.toNat mstid <;>
      simp only [vlanStep, he, finish, VlanOp.KeepsStates]
    · refine iff_of_true h fun hlt m m₀ hm hm₀ hne => absurd ?_ hne
      exact Option.some.inj (hm₀.symm.trans (hstay hlt m hm))
    · obtain ⟨m₀, hm₀⟩ := hl.msti _ hf
      rw [statesMatch_moveFid_iff h hf hm₀ hne hmoved, (getMsti_some hm).2]
      refine ⟨fun hok _ m' m₁ hm' hm₁ _ => ?_, fun hok => hok hf m m₀ hm hm₀ fun he => hne (he ▸ hm₀)⟩
      obtain rfl := Option.some.inj (hm.symm.trans hm')
      obtain rfl := Option.some.inj (hm₀.symm.trans hm₁)
      exact hok
  | getFid2msti fid => exact iff_of_true h True.intro
  | createMsti mstid =>
    obtain ⟨hno, e, he⟩ | ⟨m, hnew, hm, he⟩ := createMsti_cases par s mstid <;>
      simp only [vlanStep, he, finish, VlanOp.KeepsStates]
    · exact iff_of_true h fun hnew m hm => absurd (hm.symm.trans (hno hnew)) (Option.some_ne_none _)
    · rw [statesMatch_create_iff mstid hl h]
      refine ⟨fun hok _ m' hm' => ?_, fun hok => hok hnew m hm⟩
      obtain rfl := Option.some.inj (hm.symm.trans hm')
      exact hok
  | deleteMsti mstid =>
    obtain ⟨e, he⟩ | ⟨m, -, -, -, he⟩ := deleteMsti_cases par s mstid <;>
      simp only [vlanStep, he, finish, VlanOp.KeepsStates, iff_true]
    · exact h
    · refine h.keep rfl (fun m' => ?_) rfl
      simp only [Function.update_apply]
      split
      · rename_i he
        rw [he]
      · rfl
  | getMstptState mstid p => exact iff_of_true h True.intro
  | setMstptState mstid p ptstate =>
    obtain ⟨hno, he⟩ | ⟨m, s', hm, hset, he⟩ := setMstptState_cases par s mstid p ptstate <;>
      simp only [vlanStep, he, finish, VlanOp.KeepsStates]
    · exact iff_of_true h fun _ m hm => absurd (hm.symm.trans hno) (Option.some_ne_none _)
    · rw [statesMatch_set_iff hl h hset]
      refine ⟨fun hok hp m' hm' => ?_, fun hok hp => hok hp m hm⟩
      obtain rfl := Option.some.inj (hm.symm.trans hm')
      exact hok hp

/-! ## Runs -/

theorem initial_statesMatch_iff (par : Params) (hw : VlanHw) :
    StatesMatch par (edgxBrInitVlan par hw) ↔ ∀ p, par.brpt p → ∀ f < par.maxFids, hw.fidcfg p f = PT_STP_DISABLED := by
  have hi := initial par hw
  have hst : ∀ p, (edgxBrInitVlan par hw).stateOf CIST_IDX p = some PT_STP_DISABLED := fun p => by
    rw [VlanTables.stateOf, hi.ptstate]
    rfl
  refine ⟨fun h p hp f hf => ?_, fun h p hp f hf m hm => ?_⟩
  · have hs := h p hp f hf CIST_IDX (hi.mstiOf f hf)
    rw [hst, hi.fidcfg] at hs
    exact (Option.some.inj hs).symm
  · obtain rfl := Option.some.inj (hm.symm.trans (hi.mstiOf f hf))
    rw [hst, hi.fidcfg, h p hp f hf]

/-- **Each port has in the hardware, for each FID, its state in the FID's
instance** in exactly the runs that start with all ports disabled and in which
whatever changes a FID's instance, or a port's VLANs, finds the states right. -/
theorem statesMatch_iff (par : Params) (hw : VlanHw) (ops : List VlanOp) :
    (∀ pre suf, ops = pre ++ suf → StatesMatch par (after (vlanStep par) (edgxBrInitVlan par hw) pre)) ↔
    (∀ p, par.brpt p → ∀ f < par.maxFids, hw.fidcfg p f = PT_STP_DISABLED) ∧
      Guarded (vlanStep par) (fun s op => op.KeepsStates par s) (edgxBrInitVlan par hw) ops := by
  rw [← initial_statesMatch_iff]
  by_cases h0 : StatesMatch par (edgxBrInitVlan par hw)
  · rw [and_iff_right h0, ← holds_iff_guarded (I := StatesMatch par) (J := fun s : EdgxBrVlan => Links par s.toVlanTables)
      (G := fun _ => True) (fun _ op hl => hl.step op)
      (fun s op hl h => (and_iff_left True.intro).trans (statesMatch_step op hl h)) (initial par hw).links h0 ops]
    exact (and_iff_left fun _ _ => True.intro).symm
  · exact iff_of_false (fun h => h0 (h [] ops rfl)) fun h => h0 h.1

section Example

/-- A FID is moved to an instance in which the port forwards; or a port that
forwards in the CIST is added to a VLAN of an instance in which it is
disabled. -/
theorem not_statesMatch_moved :
    ¬ StatesMatch fourVlans (after (vlanStep fourVlans) (edgxBrInitVlan fourVlans resetHw)
      [.createMsti 1, .setMstptState 1 ⟨1, by decide⟩ BR_STATE_FORWARDING, .setFid2msti 0 1]) ∧
    ¬ StatesMatch fourVlans (after (vlanStep fourVlans) (edgxBrInitVlan fourVlans resetHw)
      [.addPt 5 true true ⟨1, by decide⟩, .createMsti 1, .setFid2msti 0 1,
        .setMstptState 0 ⟨2, by decide⟩ BR_STATE_FORWARDING, .addPt 5 true true ⟨2, by decide⟩]) := by
  refine ⟨fun h => ?_, fun h => ?_⟩
  · exact absurd (h ⟨1, by decide⟩ rfl 0 (by decide) 2 (by decide +kernel)) (by decide +kernel)
  · exact absurd (h ⟨2, by decide⟩ rfl 0 (by decide) 2 (by decide +kernel)) (by decide +kernel)

end Example

end TsnSwitch.BrVlan
