/-
The bridge is told where a station was learned, round by round. An entry gets
its port when it is created, and keeps it: a station that moves is reported
where it was first seen. An entry of a FID without VLANs is left alone, and
its one bit cannot tell how many rounds it was not seen. Otherwise the last
notification for an address and a VLAN is what the round has seen
(`synced_of_ok`).
-/
import TsnSwitch.BrVlan.Represent
import TsnSwitch.Dmac.Rounds

namespace TsnSwitch.Dmac

open Lib BrVlan

/-! ## What was reported, what was seen -/

def Notice.about (mac : Mac) (vid : BitVec 16) (x : Notice) : Bool := x.mac == mac && x.vid == vid

def Notice.learned (x : Notice) : Option Port := if x.kind = .addToBridge then some x.ptid else none

/-- The port on which an address was last reported as learned on a VLAN, unless
it was reported as removed since. -/
def reported (sent : List Notice) (mac : Mac) (vid : BitVec 16) : Option Port :=
  (sent.reverse.find? (Notice.about mac vid)).bind Notice.learned

/-- The port of an entry that was read last in a round. -/
def seenOn (reads : List DmacRead) (k : Key) : Option Port :=
  ((contents reads).reverse.find? fun r => r.key == k).map DmacRead.ptid

/-- For each VLAN of a FID, the last notification is for the port on which the
address was seen in the FID, or it was not seen and is not reported. -/
def Synced (par : Params) (s : SyncState) (reads : List DmacRead) : Prop :=
  ∀ i < par.maxVlans, (s.vlan.vid i).vid ≠ INVALID_VID → ∀ f, s.vlan.fidOf i = some f → ∀ mac,
    reported s.sent mac (s.vlan.vid i).vid = seenOn reads (f, mac)

/-! ## The condition -/

/-- A VLAN is in the FID. -/
def HasVlan (par : Params) (v : EdgxBrVlan) (f : Nat) : Prop :=
  ∃ i < par.maxVlans, (v.vid i).vid ≠ INVALID_VID ∧ v.fidOf i = some f

/-- A VLAN that is new is not one for which an address is still reported. -/
def NotReported (par : Params) (s : SyncState) : VlanOp → Prop
  | .addPt vid untagged pvid _ =>
    addPtRefused par s.vlan untagged pvid = false → edgxBrVlanGetVlan par s.vlan vid = none →
      ∀ mac, reported s.sent mac vid = none
  | _ => True

/-- A read that the tree can follow: the port exists, and it is the port of the
entry that is there and of all reads of the round; or the entry is new and
there is memory. -/
structure Followed (par : Params) (d : EdgxDmac) (reads : List DmacRead) (r : DmacRead) : Prop where
  brpt : par.brpt r.ptid = true
  same : ∀ r' ∈ contents reads, r'.key = r.key → r'.ptid = r.ptid
  stayed : ∀ e ∈ d.root, e.key = r.key → e.ptid = r.ptid
  mem : (∀ e ∈ d.root, e.key ≠ r.key) → r.mem = true

/-- For the FIDs that have VLANs when notifications are sent, the reads can be
followed, and an entry that is not read was read in the round before. -/
def SyncOp.Ok (par : Params) (s : SyncState) : SyncOp → Prop
  | .vlan op => NotReported par s op
  | .round reads mid =>
    Guarded (vlanChange par) (NotReported par) { s with dmac := readRound s.dmac reads } mid ∧
      ∀ f, HasVlan par (after (vlanStep par) s.vlan mid) f →
        (∀ r ∈ contents reads, r.fid.toNat = f → Followed par s.dmac reads r) ∧
        ∀ e ∈ s.dmac.root, e.fid = f → (∀ r ∈ contents reads, r.key ≠ e.key) →
          e.changeDetector = s.dmac.detectorState
  | .disable => True

variable {par : Params}

/-! ## Reports -/

theorem about_iff {mac : Mac} {vid : BitVec 16} {x : Notice} : x.about mac vid = true ↔ x.mac = mac ∧ x.vid = vid := by
  rw [Notice.about, Bool.and_eq_true, beq_iff_eq, beq_iff_eq]

theorem reported_append_other {sent more : List Notice} {mac : Mac} {vid : BitVec 16}
    (h : ∀ x ∈ more, ¬ x.about mac vid = true) : reported (sent ++ more) mac vid = reported sent mac vid := by
  have hnone : more.reverse.find? (Notice.about mac vid) = none :=
    List.find?_eq_none.2 fun x hx => h x (List.mem_reverse.1 hx)
  rw [reported, List.reverse_append, List.find?_append, hnone, Option.none_or, reported]

/-- All that is sent about an address and a VLAN says the same. -/
theorem reported_append_same {sent more : List Notice} {mac : Mac} {vid : BitVec 16} {port : Option Port}
    (hex : ∃ x ∈ more, x.about mac vid = true) (hall : ∀ x ∈ more, x.about mac vid = true → x.learned = port) :
    reported (sent ++ more) mac vid = port := by
  rw [reported, List.reverse_append, List.find?_append]
  cases hf : more.reverse.find? (Notice.about mac vid) with
  | none =>
    obtain ⟨x, hx, ha⟩ := hex
    exact absurd ha (List.find?_eq_none.1 hf x (List.mem_reverse.2 hx))
  | some x =>
    rw [Option.some_or, Option.bind_some]
    exact hall x (List.mem_reverse.1 (List.mem_of_find?_eq_some hf)) (List.find?_some hf)

/-- What is reported after removals was reported before. -/
theorem reported_append_del {sent more : List Notice} {mac : Mac} {vid : BitVec 16} {p : Port}
    (hdel : ∀ x ∈ more, x.kind = .delToBridge) (h : reported (sent ++ more) mac vid = some p) :
    reported sent mac vid = some p ∧ ∀ x ∈ more, ¬ x.about mac vid = true := by
  have hno : ∀ x ∈ more, ¬ x.about mac vid = true := fun x hx ha => by
    have hnone : reported (sent ++ more) mac vid = none := reported_append_same ⟨x, hx, ha⟩ fun y hy _ => by
      rw [Notice.learned, hdel y hy]
      exact if_neg (by decide)
    exact nomatch hnone.symm.trans h
  exact ⟨(reported_append_other hno).symm.trans h, hno⟩

/-! ## The invariant -/

/-- What is reported on a VLAN is recorded in its FID, on the port that was
reported. -/
structure Invariant (par : Params) (s : SyncState) : Prop where
  links : Links par s.vlan.toVlanTables
  recorded : Recorded s.dmac.root
  reports : ∀ i < par.maxVlans, (s.vlan.vid i).vid ≠ INVALID_VID → ∀ f, s.vlan.fidOf i = some f → ∀ mac p,
    reported s.sent mac (s.vlan.vid i).vid = some p →
    par.brpt p = true ∧ ∃ e ∈ s.dmac.root, e.key = (f, mac) ∧ e.ptid = p

theorem updateVid2fid_del (par : Params) (d : EdgxDmac) (vid : BitVec 16) (fidOld : Nat) :
    ∀ x ∈ edgxBrfdbUpdateVid2fid par d vid fidOld, x.kind = .delToBridge := by
  intro x hx
  obtain ⟨e, -, he⟩ := List.mem_filterMap.1 hx
  split at he
  · obtain rfl := Option.some.inj he
    rfl
  · exact nomatch he

/-- What an operation on the VLAN tables sends, and what it leaves alone. -/
theorem vlanChange_eq (par : Params) (s : SyncState) (op : VlanOp) : ∃ more, (∀ x ∈ more, x.kind = .delToBridge) ∧
    (vlanChange par s op).2 = { s with vlan := (vlanStep par s.vlan op).2, sent := s.sent ++ more } ∧
    ∀ vid fidOld, vid2fidUpdate par s.vlan op = some (vid, fidOld) →
      more = edgxBrfdbUpdateVid2fid par s.dmac vid fidOld := by
  unfold vlanChange
  cases hu : vid2fidUpdate par s.vlan op with
  | none => exact ⟨[], fun _ h => (nomatch h), rfl, fun _ _ h => nomatch h⟩
  | some x =>
    obtain ⟨vid, fidOld⟩ := x
    refine ⟨_, updateVid2fid_del par s.dmac vid fidOld, rfl, fun vid' fidOld' h => ?_⟩
    obtain ⟨rfl, rfl⟩ := Prod.mk.inj (Option.some.inj h)
    rfl

/-- Each recorded address of the old FID is removed from the VLAN. -/
theorem mem_updateVid2fid {d : EdgxDmac} {vid : BitVec 16} {fidOld : Nat} {e : DmacEntry} {mac : Mac} (he : e ∈ d.root)
    (hk : e.key = (fidOld, mac)) (hp : par.brpt e.ptid = true) :
    ∃ x ∈ edgxBrfdbUpdateVid2fid par d vid fidOld, x.about mac vid = true := by
  obtain ⟨hfid, hmac⟩ := Prod.mk.inj hk
  refine ⟨⟨.delToBridge, e.mac, vid, e.ptid⟩, List.mem_filterMap.2 ⟨e, he, if_pos ⟨hfid, hp⟩⟩, ?_⟩
  exact about_iff.2 ⟨hmac, rfl⟩

/-- A VLAN in another slot, or as it was. -/
theorem Invariant.keep {s : SyncState} {v : EdgxBrVlan} {more : List Notice} (h : Invariant par s)
    (hdel : ∀ x ∈ more, x.kind = .delToBridge) (hl : Links par v.toVlanTables)
    (hold : ∀ i < par.maxVlans, (v.vid i).vid ≠ INVALID_VID → ∀ f, v.fidOf i = some f →
      (v.vid i).vid = (s.vlan.vid i).vid ∧ s.vlan.fidOf i = some f ∨
      ∀ mac p, reported s.sent mac (v.vid i).vid = some p → ∃ x ∈ more, x.about mac (v.vid i).vid = true) :
    Invariant par { s with vlan := v, sent := s.sent ++ more } := by
  refine ⟨hl, h.recorded, fun i hi hne f hf mac p hrep => ?_⟩
  obtain ⟨hrep, hno⟩ := reported_append_del hdel hrep
  rcases hold i hi hne f hf with ⟨hvid, hfid⟩ | hex
  · dsimp only at hne hrep
    rw [hvid] at hne hrep
    exact h.reports i hi hne f hfid mac p hrep
  · obtain ⟨x, hx, ha⟩ := hex mac p hrep
    exact absurd ha (hno x hx)

theorem Invariant.vlanChange {s : SyncState} (h : Invariant par s) {op : VlanOp} (hok : NotReported par s op) :
    Invariant par (vlanChange par s op).2 := by
  obtain ⟨more, hdel, heq, hmore⟩ := vlanChange_eq par s op
  have hl := h.links.step op
  rw [heq]
  refine h.keep hdel hl fun i hi hne f hf => ?_
  cases op with
  | addPt vid untagged pvid p =>
    obtain ⟨-, e, he⟩ | ⟨-, j, -, ⟨-, he⟩ | ⟨g, m, s₁, s', -, -, hsame, -, hfin, he⟩⟩ |
        ⟨hr, hv, j, g, s₁, s', -, -, hadd, hfin, he⟩ := addPt_cases h.links.toLinked vid untagged pvid p <;>
      simp only [vlanStep, he, finish] at hne hf ⊢
    · exact .inl ⟨trivial, hf⟩
    · exact .inl ⟨trivial, hf⟩
    · rw [hfin.tables] at hf ⊢
      exact .inl ⟨hsame.vid i, congrFun hsame.fidOf i ▸ hf⟩
    · rw [hfin.tables] at hf ⊢
      rw [hadd.fidOf, Function.update_apply] at hf
      rw [hadd.vid]
      by_cases hij : i = j
      · refine .inr fun mac p hrep => ?_
        rw [if_pos hij, hok hr hv mac] at hrep
        cases hrep
      · rw [if_neg hij] at hf ⊢
        exact .inl ⟨rfl, hf⟩
  | delPt vid p =>
    obtain ⟨-, he⟩ | ⟨j, -, ⟨-, s', hsame, -, he⟩ | ⟨-, -, he⟩ | ⟨-, g, s', -, hrem, he⟩⟩ :=
        delPt_cases h.links.toLinked vid p <;> simp only [vlanStep, he, finish] at hne hf ⊢
    · exact .inl ⟨trivial, hf⟩
    · exact .inl ⟨hsame.vid i, congrFun hsame.fidOf i ▸ hf⟩
    · exact .inl ⟨trivial, hf⟩
    · rw [hrem.fidOf, Function.update_apply] at hf
      by_cases hij : i = j
      · rw [if_pos hij] at hf
        cases hf
      · rw [if_neg hij] at hf
        rw [hrem.vid, if_neg hij]
        exact .inl ⟨rfl, hf⟩
  | setVid2fid vid fid =>
    obtain ⟨-, e, he⟩ | ⟨j, hlt, hv, hmove, hmoved, he⟩ := setVid2fid_cases h.links.toLinked vid fid <;>
      simp only [vlanStep, he, finish] at hne hf ⊢
    · exact .inl ⟨trivial, hf⟩
    · rw [hmoved.owner, Function.update_apply] at hf
      rw [hmoved.vid] at hne ⊢
      by_cases hij : i = j
      · -- the VLAN had a FID, whose addresses are removed from it
        subst hij
        refine .inr fun mac p hrep => ?_
        obtain ⟨g, hg⟩ := h.links.alloc i hi hne
        obtain ⟨hp, e, he, hk, hep⟩ := h.reports i hi hne g hg mac p hrep
        have hvid := (getVlan_some hv).2
        have hcall : vid2fidUpdate par s.vlan (.setVid2fid vid fid) = some (vid, g) := by
          have hg' : (s.vlan.vid i).fid = some g := hg
          have hne' : ¬ some g = some fid.toNat := fun hc => hmove (hg.trans hc)
          simp only [vid2fidUpdate, if_neg (Nat.not_le.2 hlt), hv, hg', if_neg hne', Option.map_some]
        rw [hmore vid g hcall, hvid]
        exact mem_updateVid2fid he hk (hep ▸ hp)
      · rw [if_neg hij] at hf
        exact .inl ⟨rfl, hf⟩
  | getVid2fid vid => exact .inl ⟨rfl, hf⟩
  | setFid2msti fid mstid =>
    obtain ⟨-, e, he⟩ | ⟨m, -, -, -, hmoved, he⟩ := setFid2msti_cases h.links.toLinked fid.toNat mstid <;>
      simp only [vlanStep, he, finish] at hne hf ⊢
    · exact .inl ⟨trivial, hf⟩
    · rw [VlanTables.fidOf, hmoved.vid] at hf
      rw [hmoved.vid]
      exact .inl ⟨rfl, hf⟩
  | getFid2msti fid => exact .inl ⟨rfl, hf⟩
  | createMsti mstid =>
    obtain ⟨-, e, he⟩ | ⟨m, -, -, he⟩ := createMsti_cases par s.vlan mstid <;>
      simp only [vlanStep, he, finish] at hne hf ⊢
    · exact .inl ⟨trivial, hf⟩
    · exact .inl ⟨trivial, hf⟩
  | deleteMsti mstid =>
    obtain ⟨e, he⟩ | ⟨m, -, -, -, he⟩ := deleteMsti_cases par s.vlan mstid <;>
      simp only [vlanStep, he, finish] at hne hf ⊢
    · exact .inl ⟨trivial, hf⟩
    · exact .inl ⟨trivial, hf⟩
  | getMstptState mstid p => exact .inl ⟨rfl, hf⟩
  | setMstptState mstid p ptstate =>
    obtain ⟨-, he⟩ | ⟨m, s', -, hset, he⟩ := setMstptState_cases par s.vlan mstid p ptstate <;>
      simp only [vlanStep, he, finish] at hne hf ⊢
    · exact .inl ⟨trivial, hf⟩
    · rw [VlanTables.fidOf, hset.vid] at hf
      rw [hset.vid]
      exact .inl ⟨rfl, hf⟩

/-! ## Rounds -/

theorem mem_vidsOf {v : EdgxBrVlan} {f : Nat} {vid : BitVec 16} :
    vid ∈ vidsOf v f ↔ ∃ i ∈ v.vlansOf f, (v.vid i).vid = vid := List.mem_map

/-- What is sent about a VLAN is about an entry of the VLAN's FID. -/
theorem entry_of_sent {v : EdgxBrVlan} {root : List DmacEntry} (hl : Links par v.toVlanTables) (hr : Recorded root)
    {i f : Nat} (hi : i < par.maxVlans) (hne : (v.vid i).vid ≠ INVALID_VID) (hf : v.fidOf i = some f) {e : DmacEntry}
    (he : e ∈ root) {kind : NoticeKind} {x : Notice} {mac : Mac} (ha : x.about mac (v.vid i).vid = true)
    (hx : x ∈ edgxDmacNotifyFid par ((listedVids par v e.fid).getD []) kind e.mac e.ptid) :
    e.key = (f, mac) ∧ par.brpt e.ptid = true ∧ x.kind = kind ∧ x.ptid = e.ptid := by
  obtain ⟨hp, hk, hm, hpt, hv⟩ := (mem_notifyFid par).1 hx
  obtain ⟨hmac, hvid⟩ := about_iff.1 ha
  obtain ⟨j, hj, hvj⟩ := mem_vidsOf.1 (mem_listed par v (hr.fid_lt e he) hv)
  have hfj := (hl.vlans.mem_iff j e.fid).1 hj
  have hij := hl.vid_inj i hi j (hl.vlan_lt hfj).1 hne (hvid.symm.trans hvj.symm)
  subst hij
  refine ⟨Prod.ext (Option.some.inj (hfj.symm.trans hf)) (hm.symm.trans hmac), hp, hk, hpt⟩

/-- A VLAN is in the list of its FID. -/
theorem listed_of_fid {v : EdgxBrVlan} (hl : Links par v.toVlanTables) {i f : Nat} (hf : v.fidOf i = some f) :
    (v.vid i).vid ∈ (listedVids par v f).getD [] ∧ Listed par v f = true := by
  have hv : (v.vid i).vid ∈ vidsOf v f := mem_vidsOf.2 ⟨i, (hl.vlans.mem_iff i f).2 hf, rfl⟩
  obtain ⟨hlist, hlisted⟩ := listed_iff par v (hl.vlan_lt hf).2 hv
  rw [hlist]
  exact ⟨hv, hlisted⟩

section Notified

variable {s : SyncState} {i f : Nat} (h : Invariant par s) (hi : i < par.maxVlans)
  (hne : (s.vlan.vid i).vid ≠ INVALID_VID) (hf : s.vlan.fidOf i = some f)

include h hi hne hf

/-- An entry of a VLAN's FID is reported on the VLAN as it is found. -/
theorem reported_entry {e : DmacEntry} (he : e ∈ s.dmac.root) {mac : Mac} (hk : e.key = (f, mac))
    (hp : par.brpt e.ptid = true) (detector : Bool) :
    reported (s.sent ++ s.dmac.root.flatMap (entrySent par s.vlan detector)) mac (s.vlan.vid i).vid =
      if e.changeDetector = detector then some e.ptid else none := by
  obtain ⟨hfid, hmac⟩ := Prod.mk.inj hk
  obtain ⟨hv, hlisted⟩ := listed_of_fid h.links hf
  have hsent : ⟨if e.changeDetector = detector then .addToBridge else .delToBridge, e.mac, (s.vlan.vid i).vid, e.ptid⟩ ∈
      entrySent par s.vlan detector e := by
    unfold entrySent
    rw [hfid, if_pos hlisted]
    exact (mem_notifyFid par).2 ⟨hp, rfl, rfl, rfl, hv⟩
  refine reported_append_same ⟨_, List.mem_flatMap.2 ⟨e, he, hsent⟩, about_iff.2 ⟨hmac, rfl⟩⟩ fun x hx ha => ?_
  · obtain ⟨e', he', hx⟩ := List.mem_flatMap.1 hx
    unfold entrySent at hx
    split at hx
    · obtain ⟨hk', -, hkind, hpt⟩ := entry_of_sent h.links h.recorded hi hne hf he' ha hx
      obtain rfl := h.recorded.unique he' he (hk'.trans hk.symm)
      rw [Notice.learned, hkind, hpt]
      by_cases hd : e'.changeDetector = detector
      · rw [if_pos hd, if_pos hd, if_pos rfl]
      · rw [if_neg hd, if_neg hd, if_neg (by decide)]
    · exact nomatch hx

/-- Without an entry, or without its port, the report is as it was: there is
none. -/
theorem reported_missing {mac : Mac} (hno : ∀ e ∈ s.dmac.root, e.key = (f, mac) → ¬ par.brpt e.ptid = true)
    (detector : Bool) :
    reported (s.sent ++ s.dmac.root.flatMap (entrySent par s.vlan detector)) mac (s.vlan.vid i).vid = none := by
  rw [reported_append_other fun x hx ha => ?_]
  · cases hrep : reported s.sent mac (s.vlan.vid i).vid with
    | none => rfl
    | some p =>
      obtain ⟨hp, e, he, hk, hep⟩ := h.reports i hi hne f hf mac p hrep
      exact absurd (hep ▸ hp) (hno e he hk)
  · obtain ⟨e, he, hx⟩ := List.mem_flatMap.1 hx
    unfold entrySent at hx
    split at hx
    · obtain ⟨hk, hp, -⟩ := entry_of_sent h.links h.recorded hi hne hf he ha hx
      exact hno e he hk hp
    · exact nomatch hx

end Notified

theorem notifyRound_eq {s : SyncState} (h : Invariant par s) :
    notifyRound par s.vlan s.dmac =
      ({ s.dmac with root := s.dmac.root.filter (stays par s.vlan s.dmac.detectorState) },
        s.dmac.root.flatMap (entrySent par s.vlan s.dmac.detectorState)) := by
  unfold notifyRound
  rw [callNotifiers_eq par s.vlan s.dmac.detectorState h.recorded.ptidNew (start_cached par s.vlan)]

theorem Recorded.filter {root : List DmacEntry} (h : Recorded root) (p : DmacEntry → Bool) : Recorded (root.filter p) where
  keys := h.keys.sublist (List.filter_sublist.map _)
  ptidNew := fun e he => h.ptidNew e (List.mem_filter.1 he).1
  fid_lt := fun e he => h.fid_lt e (List.mem_filter.1 he).1

theorem Invariant.notify {s : SyncState} (h : Invariant par s) :
    Invariant par { s with
      dmac := (notifyRound par s.vlan s.dmac).1, sent := s.sent ++ (notifyRound par s.vlan s.dmac).2 } := by
  rw [notifyRound_eq h]
  refine ⟨h.links, h.recorded.filter _, fun i hi hne f hf mac p hrep => ?_⟩
  dsimp only at hrep hne hf ⊢
  by_cases hex : ∃ e ∈ s.dmac.root, e.key = (f, mac) ∧ par.brpt e.ptid = true
  · obtain ⟨e, he, hk, hp⟩ := hex
    rw [reported_entry h hi hne hf he hk hp] at hrep
    split at hrep
    · rename_i hd
      obtain rfl := Option.some.inj hrep
      refine ⟨hp, e, List.mem_filter.2 ⟨he, ?_⟩, hk, rfl⟩
      rw [stays, hd, beq_self_eq_true, Bool.or_true]
    · cases hrep
  · rw [reported_missing h hi hne hf fun e he hk hp => hex ⟨e, he, hk, hp⟩] at hrep
    cases hrep

theorem Invariant.read {s : SyncState} (h : Invariant par s) (reads : List DmacRead) :
    Invariant par { s with dmac := readRound s.dmac reads } := by
  have hread := readTable_read reads { s.dmac with detectorState := !s.dmac.detectorState }
  refine ⟨h.links, hread.recorded h.recorded, fun i hi hne f hf mac p hrep => ?_⟩
  obtain ⟨hp, e, he, hk, hep⟩ := h.reports i hi hne f hf mac p hrep
  obtain ⟨e', he', hk', hep', -⟩ := hread.keep e he
  exact ⟨hp, e', he', hk'.trans hk, hep'.trans hep⟩

theorem Invariant.disable {s : SyncState} (h : Invariant par s) : Invariant par (syncStep par s .disable).2 := by
  have hsent := syncDisable_eq par s.vlan s.dmac.root (start_cached par s.vlan)
  refine ⟨h.links, ⟨List.nodup_nil, fun _ h => (nomatch h), fun _ h => nomatch h⟩, fun i hi hne f hf mac p hrep => ?_⟩
  dsimp only [syncStep, edgxDmacSyncDisable] at hrep hne hf
  rw [hsent] at hrep
  obtain ⟨hrep, hno⟩ := reported_append_del (fun x hx => by
    obtain ⟨e, -, hx⟩ := List.mem_flatMap.1 hx
    split at hx
    · exact ((mem_notifyFid par).1 hx).2.1
    · exact nomatch hx) hrep
  obtain ⟨hp, e, he, hk, hep⟩ := h.reports i hi hne f hf mac p hrep
  obtain ⟨hfid, hmac⟩ := Prod.mk.inj hk
  obtain ⟨hv, hlisted⟩ := listed_of_fid h.links hf
  refine absurd (about_iff.2 ⟨hmac, rfl⟩) (hno ⟨.delToBridge, e.mac, (s.vlan.vid i).vid, e.ptid⟩ ?_)
  refine List.mem_flatMap.2 ⟨e, he, ?_⟩
  rw [hfid, if_pos hlisted]
  exact (mem_notifyFid par).2 ⟨hep ▸ hp, rfl, rfl, rfl, hv⟩

/-! ## Runs -/

/-- VLAN operations between the halves of a round change neither the tree nor,
by what they send, the tables. -/
theorem after_vlanChange (par : Params) (mid : List VlanOp) (s : SyncState) :
    (after (vlanChange par) s mid).dmac = s.dmac ∧
      (after (vlanChange par) s mid).vlan = after (vlanStep par) s.vlan mid := by
  induction mid generalizing s with
  | nil => exact ⟨rfl, rfl⟩
  | cons op mid ih =>
    obtain ⟨more, -, heq, -⟩ := vlanChange_eq par s op
    have hih := ih (vlanChange par s op).2
    rw [heq] at hih
    rw [after_cons, after_cons, heq]
    exact hih

theorem Invariant.step {s : SyncState} (h : Invariant par s) {op : SyncOp} (hok : op.Ok par s) :
    Invariant par (syncStep par s op).2 := by
  cases op with
  | vlan op => exact h.vlanChange hok
  | round reads mid =>
    have hmid : Invariant par (after (Dmac.vlanChange par) { s with dmac := readRound s.dmac reads } mid) :=
      hok.1.inv_after (h.read reads) fun _ _ h hok => h.vlanChange hok
    exact hmid.notify
  | disable => exact h.disable

theorem seenOn_some {reads : List DmacRead} {k : Key} {p : Port} (h : seenOn reads k = some p) :
    ∃ r ∈ contents reads, r.key = k ∧ r.ptid = p := by
  obtain ⟨r, hr, hp⟩ := Option.map_eq_some_iff.1 h
  have hk := List.find?_some hr
  exact ⟨r, List.mem_reverse.1 (List.mem_of_find?_eq_some hr), beq_iff_eq.1 hk, hp⟩

theorem seenOn_none {reads : List DmacRead} {k : Key} (h : seenOn reads k = none) : ∀ r ∈ contents reads, r.key ≠ k :=
  fun r hr hk => List.find?_eq_none.1 (Option.map_eq_none_iff.1 h) r (List.mem_reverse.2 hr) (beq_iff_eq.2 hk)

/-- A round whose reads can be followed reports what it has seen. -/
theorem round_synced {s : SyncState} (h : Invariant par s) {reads : List DmacRead} {mid : List VlanOp}
    (hok : (SyncOp.round reads mid).Ok par s) : Synced par (syncStep par s (.round reads mid)).2 reads := by
  obtain ⟨hguard, hround⟩ := hok
  have hmid : Invariant par (after (vlanChange par) { s with dmac := readRound s.dmac reads } mid) :=
    hguard.inv_after (h.read reads) fun _ _ h hok => h.vlanChange hok
  obtain ⟨hdmac, hvlan⟩ := after_vlanChange par mid { s with dmac := readRound s.dmac reads }
  have hread := readTable_read reads { s.dmac with detectorState := !s.dmac.detectorState }
  rw [← hvlan] at hround
  unfold syncStep
  simp only []
  generalize after (vlanChange par) { s with dmac := readRound s.dmac reads } mid = s₂ at hmid hdmac hround ⊢
  rw [notifyRound_eq hmid]
  intro i hi hne f hf mac
  dsimp only at hne hf ⊢
  have hdet : s₂.dmac.detectorState = !s.dmac.detectorState := by
    rw [hdmac]
    exact hread.detector
  obtain ⟨hfollow, hstale⟩ := hround f ⟨i, hi, hne, hf⟩
  cases hseen : seenOn reads (f, mac) with
  | some p =>
    obtain ⟨r, hr, hk, rfl⟩ := seenOn_some hseen
    have hfol := hfollow r hr (congrArg Prod.fst hk)
    have hmem : r.mem = true ∨ ∃ e ∈ s.dmac.root, e.key = r.key := by
      by_cases hex : ∃ e ∈ s.dmac.root, e.key = r.key
      · exact .inr hex
      · exact .inl (hfol.mem fun e he hk => hex ⟨e, he, hk⟩)
    obtain ⟨e, he, hke, hd⟩ := hread.fresh r hr hmem
    have hptid : e.ptid = r.ptid := by
      obtain ⟨e₀, he₀, hk₀, hp₀, -⟩ | ⟨r', hr', hk', hp'⟩ := hread.source e he
      · exact hp₀.symm.trans (hfol.stayed e₀ he₀ (hk₀.trans hke))
      · exact hp'.symm.trans (hfol.same r' hr' (hk'.trans hke))
    have he₂ : e ∈ s₂.dmac.root := by
      rw [hdmac]
      exact he
    rw [reported_entry hmid hi hne hf he₂ (hke.trans hk) (hptid ▸ hfol.brpt), hdet, if_pos hd, hptid]
  | none =>
    have hno := seenOn_none hseen
    by_cases hex : ∃ e ∈ s₂.dmac.root, e.key = (f, mac) ∧ par.brpt e.ptid = true
    · obtain ⟨e, he, hk, hp⟩ := hex
      rw [reported_entry hmid hi hne hf he hk hp, hdet, if_neg]
      rw [hdmac] at he
      obtain ⟨e₀, he₀, hk₀, -, hd₀⟩ | ⟨r, hr, hk', -⟩ := hread.source e he
      · have hnot : ∀ r ∈ contents reads, r.key ≠ e₀.key := fun r hr hc => hno r hr (hc.trans (hk₀.trans hk))
        rw [hd₀ hnot, hstale e₀ he₀ (congrArg Prod.fst (hk₀.trans hk)) hnot]
        cases s.dmac.detectorState <;> decide
      · exact absurd (hk'.trans hk) (hno r hr)
    · exact reported_missing hmid hi hne hf (fun e he hk hp => hex ⟨e, he, hk, hp⟩) _

/-- The driver after it was probed. -/
def start (par : Params) (hw : VlanHw) : SyncState := { vlan := edgxBrInitVlan par hw }

theorem start_invariant (par : Params) (hw : VlanHw) : Invariant par (start par hw) where
  links := (initial par hw).links
  recorded := ⟨List.nodup_nil, fun _ h => (nomatch h), fun _ h => nomatch h⟩
  reports := fun _ _ _ _ _ _ _ h => nomatch h

/-- **After each round the bridge was last told what the round has seen:** in a
run in which stations do not move, no entry of a FID with VLANs was missed for
more than one round, and no address is still reported on a VLAN that is
new. -/
theorem synced_of_ok (par : Params) (hw : VlanHw) (ops : List SyncOp)
    (hok : Guarded (syncStep par) (fun s op => op.Ok par s) (start par hw) ops) (pre : List SyncOp)
    (reads : List DmacRead) (mid : List VlanOp) (suf : List SyncOp) (hops : ops = pre ++ .round reads mid :: suf) :
    Synced par (after (syncStep par) (start par hw) (pre ++ [.round reads mid])) reads := by
  subst hops
  have hpre : Invariant par (after (syncStep par) (start par hw) pre) :=
    hok.of_append.inv_after (start_invariant par hw) fun _ _ h hok => h.step hok
  rw [after_concat]
  exact round_synced hpre hok.at_step

section Example

/-- A station that is seen in FID 0 on a port. -/
def station (p : Port) : DmacRead := ⟨0x20304050607, 0, p, true⟩

theorem synced_of_ok_learned :
    Synced fourVlans (after (syncStep fourVlans) (start fourVlans resetHw)
      ([.vlan (.addPt 5 true true ⟨1, by decide⟩)] ++ [.round [station ⟨1, by decide⟩] []])) [station ⟨1, by decide⟩] := by
  refine synced_of_ok fourVlans resetHw [.vlan (.addPt 5 true true ⟨1, by decide⟩), .round [station ⟨1, by decide⟩] []]
    ⟨fun _ _ _ => rfl, ⟨True.intro, fun f _ => ⟨fun r hr _ => ?_, fun e he => nomatch he⟩⟩, True.intro⟩ _ _ [] [] rfl
  obtain rfl := List.mem_singleton.1 (List.takeWhile_subset _ hr)
  refine ⟨rfl, fun r' hr' _ => ?_, fun e he => (nomatch he), fun _ => rfl⟩
  rw [List.mem_singleton.1 (List.takeWhile_subset _ hr')]

/-- A station moves from port 1 to port 2, and the bridge is told port 1. An
entry is left alone while its FID has no VLAN, and is reported two rounds after
it is gone. A VLAN is removed and added again, and an address is still
reported on it. -/
theorem not_synced_moved :
    ¬ Synced fourVlans (after (syncStep fourVlans) (start fourVlans resetHw)
      [.vlan (.addPt 5 true true ⟨1, by decide⟩), .round [station ⟨1, by decide⟩] [], .round [station ⟨2, by decide⟩] []])
      [station ⟨2, by decide⟩] ∧
    ¬ Synced fourVlans (after (syncStep fourVlans) (start fourVlans resetHw)
      [.round [station ⟨1, by decide⟩] [], .round [] [], .vlan (.addPt 5 true true ⟨1, by decide⟩), .round [] []]) [] ∧
    ¬ Synced fourVlans (after (syncStep fourVlans) (start fourVlans resetHw)
      [.vlan (.addPt 5 true true ⟨1, by decide⟩), .round [station ⟨1, by decide⟩] [], .vlan (.delPt 5 ⟨1, by decide⟩),
        .vlan (.addPt 6 true true ⟨1, by decide⟩), .vlan (.addPt 5 true true ⟨1, by decide⟩), .round [] []]) [] := by
  refine ⟨fun h => ?_, fun h => ?_, fun h => ?_⟩
  · exact absurd (h 0 (by decide) (by decide +kernel) 0 (by decide +kernel) 0x20304050607) (by decide +kernel)
  · exact absurd (h 0 (by decide) (by decide +kernel) 0 (by decide +kernel) 0x20304050607) (by decide +kernel)
  · exact absurd (h 1 (by decide) (by decide +kernel) 1 (by decide +kernel) 0x20304050607) (by decide +kernel)

end Example

end TsnSwitch.Dmac
