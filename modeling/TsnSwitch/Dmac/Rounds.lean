/-
What one traversal of the hardware's table leaves in the tree
(`readTable_read`), and what is sent for the tree afterwards
(`mem_sent_iff`, `mem_kept_iff`).
-/
import TsnSwitch.Dmac.Table

namespace TsnSwitch.Dmac

open Lib BrVlan

abbrev Key := Nat × Mac

def DmacEntry.key (e : DmacEntry) : Key := (e.fid, e.mac)

def DmacRead.key (r : DmacRead) : Key := (r.fid.toNat, r.mac)

/-- One entry for a key. The new port is the port: only a new entry gets
it. -/
structure Recorded (root : List DmacEntry) : Prop where
  keys : (root.map DmacEntry.key).Nodup
  ptidNew : ∀ e ∈ root, e.ptidNew = e.ptid
  fid_lt : ∀ e ∈ root, e.fid < 64

theorem Recorded.unique {root : List DmacEntry} (h : Recorded root) {e e' : DmacEntry} (he : e ∈ root) (he' : e' ∈ root)
    (hk : e.key = e'.key) : e = e' :=
  List.inj_on_of_nodup_map h.keys he he' hk

/-! ## The tree -/

theorem cmp_eq {fid : Nat} {mac : Mac} {e : DmacEntry} :
    (edgxDmacCmp fid mac e.fid e.mac == .eq) = true ↔ e.key = (fid, mac) := by
  rw [beq_iff_eq, edgxDmacCmp, Ordering.then_eq_eq, Nat.compare_eq_eq, Nat.compare_eq_eq, DmacEntry.key, Prod.ext_iff]
  exact and_congr eq_comm ⟨fun h => (BitVec.eq_of_toNat_eq h).symm, fun h => congrArg BitVec.toNat h.symm⟩

theorem search_some {root : List DmacEntry} {fid : Nat} {mac : Mac} {e : DmacEntry}
    (h : edgxDmacSearch root fid mac = some e) : e ∈ root ∧ e.key = (fid, mac) := by
  unfold edgxDmacSearch at h
  have hp := List.find?_some h
  exact ⟨List.mem_of_find?_eq_some h, cmp_eq.1 hp⟩

theorem search_none {root : List DmacEntry} {fid : Nat} {mac : Mac} (h : edgxDmacSearch root fid mac = none) :
    ∀ e ∈ root, e.key ≠ (fid, mac) := fun e he hk => List.find?_eq_none.1 h e he (cmp_eq.2 hk)

/-- A new key is put into the tree, and nothing else changes. -/
theorem insert_perm (new : DmacEntry) {root : List DmacEntry} (h : ∀ e ∈ root, e.key ≠ new.key) :
    ∃ root', edgxDmacInsert new root = some root' ∧ root'.Perm (new :: root) := by
  induction root with
  | nil => exact ⟨[new], rfl, List.Perm.refl _⟩
  | cons e es ih =>
    obtain ⟨es', hes, hperm⟩ := ih fun e' he' => h e' (List.mem_cons_of_mem _ he')
    unfold edgxDmacInsert
    cases hc : edgxDmacCmp new.fid new.mac e.fid e.mac with
    | lt => exact ⟨_, rfl, List.Perm.refl _⟩
    | eq => exact absurd (cmp_eq.1 (beq_iff_eq.2 hc)) (h e (List.mem_cons_self ..))
    | gt =>
      refine ⟨e :: es', by rw [hes]; rfl, ?_⟩
      exact (hperm.cons e).trans (List.Perm.swap new e es)

/-- An entry after its key was, or was not, refreshed. -/
def marked (fid : Nat) (mac : Mac) (detector : Bool) (e : DmacEntry) : DmacEntry :=
  if edgxDmacCmp fid mac e.fid e.mac == .eq then { e with changeDetector := detector } else e

theorem marked_key (fid : Nat) (mac : Mac) (detector : Bool) (e : DmacEntry) : (marked fid mac detector e).key = e.key := by
  unfold marked
  split <;> rfl

theorem marked_ptid (fid : Nat) (mac : Mac) (detector : Bool) (e : DmacEntry) :
    (marked fid mac detector e).ptid = e.ptid ∧ (marked fid mac detector e).ptidNew = e.ptidNew := by
  unfold marked
  split <;> exact ⟨rfl, rfl⟩

theorem marked_self {fid : Nat} {mac : Mac} {e : DmacEntry} (h : e.key = (fid, mac)) (detector : Bool) :
    (marked fid mac detector e).changeDetector = detector := by
  unfold marked
  rw [if_pos (cmp_eq.2 h)]

theorem marked_other {fid : Nat} {mac : Mac} {e : DmacEntry} (h : e.key ≠ (fid, mac)) (detector : Bool) :
    marked fid mac detector e = e := by
  unfold marked
  exact if_neg fun hc => h (cmp_eq.1 hc)

theorem refresh_eq (root : List DmacEntry) (fid : Nat) (mac : Mac) (detector : Bool) :
    refresh root fid mac detector = root.map (marked fid mac detector) := rfl

theorem Recorded.refresh {root : List DmacEntry} (h : Recorded root) (fid : Nat) (mac : Mac) (detector : Bool) :
    Recorded (refresh root fid mac detector) := by
  rw [refresh_eq]
  refine ⟨?_, fun e he => ?_, fun e he => ?_⟩
  · have hkeys : DmacEntry.key ∘ marked fid mac detector = DmacEntry.key := funext (marked_key fid mac detector)
    rw [List.map_map, hkeys]
    exact h.keys
  · obtain ⟨e₀, he₀, rfl⟩ := List.mem_map.1 he
    rw [(marked_ptid ..).1, (marked_ptid ..).2, h.ptidNew e₀ he₀]
  · obtain ⟨e₀, he₀, rfl⟩ := List.mem_map.1 he
    have hfid := congrArg Prod.fst (marked_key fid mac detector e₀)
    exact Nat.lt_of_le_of_lt (Nat.le_of_eq hfid) (h.fid_lt e₀ he₀)

/-! ## Reading -/

/-- What the reads `cs` make of a tree. -/
structure Read (cs : List DmacRead) (d d' : EdgxDmac) : Prop where
  detector : d'.detectorState = d.detectorState
  recorded : Recorded d.root → Recorded d'.root
  keep : ∀ e ∈ d.root, ∃ e' ∈ d'.root, e'.key = e.key ∧ e'.ptid = e.ptid ∧
    (e'.changeDetector = e.changeDetector ∨ e'.changeDetector = d.detectorState)
  fresh : ∀ r ∈ cs, (r.mem = true ∨ ∃ e ∈ d.root, e.key = r.key) →
    ∃ e' ∈ d'.root, e'.key = r.key ∧ e'.changeDetector = d.detectorState
  source : ∀ e' ∈ d'.root,
    (∃ e ∈ d.root, e.key = e'.key ∧ e.ptid = e'.ptid ∧
      ((∀ r ∈ cs, r.key ≠ e.key) → e'.changeDetector = e.changeDetector)) ∨
    ∃ r ∈ cs, r.key = e'.key ∧ r.ptid = e'.ptid

theorem Read.refl (d : EdgxDmac) : Read [] d d where
  detector := rfl
  recorded := id
  keep := fun e he => ⟨e, he, rfl, rfl, .inl rfl⟩
  fresh := fun _ h => nomatch h
  source := fun e he => .inl ⟨e, he, rfl, rfl, fun _ => rfl⟩

theorem Read.cons {r : DmacRead} {cs : List DmacRead} {d d₁ d₂ : EdgxDmac} (h₁ : Read [r] d d₁) (h₂ : Read cs d₁ d₂) :
    Read (r :: cs) d d₂ where
  detector := h₂.detector.trans h₁.detector
  recorded := fun h => h₂.recorded (h₁.recorded h)
  keep := fun e he => by
    obtain ⟨e₁, he₁, hk₁, hp₁, hd₁⟩ := h₁.keep e he
    obtain ⟨e₂, he₂, hk₂, hp₂, hd₂⟩ := h₂.keep e₁ he₁
    refine ⟨e₂, he₂, hk₂.trans hk₁, hp₂.trans hp₁, ?_⟩
    rcases hd₂ with hd₂ | hd₂
    · rw [hd₂]
      exact hd₁
    · exact .inr (hd₂.trans h₁.detector)
  fresh := fun r' hr' hc => by
    rcases List.mem_cons.1 hr' with rfl | hr'
    · obtain ⟨e₁, he₁, hk₁, hd₁⟩ := h₁.fresh r' (List.mem_cons_self ..) hc
      obtain ⟨e₂, he₂, hk₂, -, hd₂⟩ := h₂.keep e₁ he₁
      refine ⟨e₂, he₂, hk₂.trans hk₁, ?_⟩
      rcases hd₂ with hd₂ | hd₂
      · exact hd₂.trans hd₁
      · exact hd₂.trans h₁.detector
    · obtain ⟨e₂, he₂, hk₂, hd₂⟩ := h₂.fresh r' hr' (hc.imp_right fun ⟨e, he, hk⟩ => by
        obtain ⟨e₁, he₁, hk₁, -⟩ := h₁.keep e he
        exact ⟨e₁, he₁, hk₁.trans hk⟩)
      exact ⟨e₂, he₂, hk₂, hd₂.trans h₁.detector⟩
  source := fun e₂ he₂ => by
    obtain ⟨e₁, he₁, hk₂, hp₂, hd₂⟩ | ⟨r', hr', hk, hp⟩ := h₂.source e₂ he₂
    · obtain ⟨e, he, hk₁, hp₁, hd₁⟩ | ⟨r', hr', hk, hp⟩ := h₁.source e₁ he₁
      · refine .inl ⟨e, he, hk₁.trans hk₂, hp₁.trans hp₂, fun hno => ?_⟩
        rw [hd₂ fun r' hr' => hk₁ ▸ hno r' (List.mem_cons_of_mem _ hr')]
        exact hd₁ fun r' hr' => hno r' (List.mem_cons.2 (.inl (List.mem_singleton.1 hr')))
      · exact .inr ⟨r', List.mem_cons.2 (.inl (List.mem_singleton.1 hr')), hk.trans hk₂, hp.trans hp₂⟩
    · exact .inr ⟨r', List.mem_cons_of_mem _ hr', hk, hp⟩

/-- One entry is refreshed, in a tree that has all of the old one. -/
theorem Read.of_refresh {d : EdgxDmac} {r : DmacRead} {root : List DmacEntry} (hrec : Recorded d.root → Recorded root)
    (hsub : ∀ e ∈ d.root, e ∈ root) (hmem : ∃ e ∈ root, e.key = r.key)
    (hsource : ∀ e ∈ root, e ∈ d.root ∨ r.key = e.key ∧ r.ptid = e.ptid) :
    Read [r] d { d with root := refresh root r.fid.toNat r.mac d.detectorState } where
  detector := rfl
  recorded := fun h => (hrec h).refresh ..
  keep := fun e he => by
    refine ⟨marked r.fid.toNat r.mac d.detectorState e, List.mem_map_of_mem (hsub e he), marked_key .., (marked_ptid ..).1, ?_⟩
    by_cases hk : e.key = (r.fid.toNat, r.mac)
    · exact .inr (marked_self hk _)
    · exact .inl (congrArg _ (marked_other hk _))
  fresh := fun r' hr' _ => by
    obtain rfl := List.mem_singleton.1 hr'
    obtain ⟨e, he, hk⟩ := hmem
    exact ⟨marked r'.fid.toNat r'.mac d.detectorState e, List.mem_map_of_mem he, (marked_key ..).trans hk, marked_self hk _⟩
  source := fun e' he' => by
    obtain ⟨e, he, rfl⟩ := List.mem_map.1 he'
    rcases hsource e he with hold | ⟨hk, hp⟩
    · refine .inl ⟨e, hold, (marked_key ..).symm, (marked_ptid ..).1.symm, fun hno => ?_⟩
      exact congrArg _ (marked_other (fun hk => hno r (List.mem_cons_self ..) hk.symm) _)
    · exact .inr ⟨r, List.mem_cons_self .., hk.trans (marked_key ..).symm, hp.trans (marked_ptid ..).1.symm⟩

/-- A read that leaves the tree as it is: there is no memory for the entry. -/
theorem Read.of_nomem {d : EdgxDmac} {r : DmacRead} (hmem : r.mem = false) (hno : ∀ e ∈ d.root, e.key ≠ r.key) :
    Read [r] d d where
  detector := rfl
  recorded := id
  keep := fun e he => ⟨e, he, rfl, rfl, .inl rfl⟩
  fresh := fun r' hr' hc => by
    obtain rfl := List.mem_singleton.1 hr'
    rcases hc with hc | ⟨e, he, hk⟩
    · exact absurd (hmem.symm.trans hc) Bool.false_ne_true
    · exact absurd hk (hno e he)
  source := fun e he => .inl ⟨e, he, rfl, rfl, fun _ => rfl⟩

theorem readNext_read {d : EdgxDmac} {r : DmacRead} (hmac : r.mac ≠ macBcast) :
    (edgxDmacReadNext d r).1 ≠ -ENOENT ∧ Read [r] d (edgxDmacReadNext d r).2 := by
  have ok : (0 : Int) ≠ -ENOENT := by decide
  have nomem : -ENOMEM ≠ -ENOENT := by decide
  unfold edgxDmacReadNext
  rw [if_neg hmac]
  simp only []
  cases hs : edgxDmacSearch d.root r.fid.toNat r.mac with
  | some e =>
    obtain ⟨he, hk⟩ := search_some hs
    exact ⟨ok, Read.of_refresh id (fun _ he => he) ⟨e, he, hk⟩ fun _ he => .inl he⟩
  | none =>
    have hno := search_none hs
    cases hmem : r.mem with
    | false => exact ⟨nomem, Read.of_nomem hmem hno⟩
    | true =>
      obtain ⟨root, hins, hperm⟩ := insert_perm (edgxDmacCreate r.mac r.fid.toNat r.ptid) hno
      simp only [hins, if_true]
      refine ⟨ok, Read.of_refresh (fun h => ⟨?_, fun e he => ?_, fun e he => ?_⟩) (fun e he => ?_) ?_ fun e he => ?_⟩
      · rw [(hperm.map _).nodup_iff, List.map_cons, List.nodup_cons]
        refine ⟨fun hc => ?_, h.keys⟩
        obtain ⟨e, he, hk⟩ := List.mem_map.1 hc
        exact hno e he hk
      · rcases List.mem_cons.1 (hperm.mem_iff.1 he) with rfl | he
        · rfl
        · exact h.ptidNew e he
      · rcases List.mem_cons.1 (hperm.mem_iff.1 he) with rfl | he
        · exact r.fid.isLt
        · exact h.fid_lt e he
      · exact hperm.mem_iff.2 (List.mem_cons_of_mem _ he)
      · exact ⟨_, hperm.mem_iff.2 (List.mem_cons_self ..), rfl⟩
      · rcases List.mem_cons.1 (hperm.mem_iff.1 he) with rfl | he
        · exact .inr ⟨rfl, rfl⟩
        · exact .inl he

/-- The entries before the end of the table. -/
def contents (reads : List DmacRead) : List DmacRead := reads.takeWhile fun r => decide (r.mac ≠ macBcast)

theorem readTable_read (reads : List DmacRead) (d : EdgxDmac) : Read (contents reads) d (readTable d reads) := by
  induction reads generalizing d with
  | nil => exact Read.refl d
  | cons r rs ih =>
    unfold readTable
    by_cases hmac : r.mac = macBcast
    · have hend : edgxDmacReadNext d r = (-ENOENT, d) := if_pos hmac
      have hc : contents (r :: rs) = [] := List.takeWhile_cons_of_neg (by simpa using hmac)
      rw [hend, hc]
      exact Read.refl d
    · obtain ⟨hret, hread⟩ := readNext_read (d := d) hmac
      have hc : contents (r :: rs) = r :: contents rs := List.takeWhile_cons_of_pos (by simpa using hmac)
      rw [hc]
      generalize edgxDmacReadNext d r = x at hret hread
      obtain ⟨ret, d₁⟩ := x
      have hrest : ret ≠ -ENOENT := hret
      refine hread.cons ?_
      simp only [if_neg hrest]
      exact ih d₁

/-! ## Sending -/

section Notify

variable (par : Params) (s : EdgxBrVlan)

/-- The VIDs an iteration over a FID goes through. -/
def listedVids (f : Nat) : Option (List (BitVec 16)) := (edgxBrVlanGetFid par (BitVec.ofNat 16 f)).map (vidsOf s)

/-- The FID has a VLAN in its list. -/
def Listed (f : Nat) : Bool := (listedVids par s f).any (!·.isEmpty)

/-- The cached list is the FID's. -/
def DmacNotify.Cached (n : DmacNotify) : Prop := n.vids = listedVids par s n.fid

theorem updateFid_cached {n : DmacNotify} (h : n.Cached par s) (f : Nat) :
    edgxDmacUpdateFid par s n f = (Listed par s f, { fid := f, vids := listedVids par s f }) := by
  unfold edgxDmacUpdateFid
  by_cases hf : n.fid = f
  · subst hf
    rw [if_neg (fun hc => hc rfl)]
    obtain ⟨fid, vids⟩ := n
    have hv : vids = listedVids par s fid := h
    rw [hv]
    rfl
  · rw [if_pos hf]
    rfl

theorem start_cached : DmacNotify.Cached par s {} := by
  have hnone : edgxBrVlanGetFid par (BitVec.ofNat 16 DMAC_INV_FID) = none := by
    refine List.find?_eq_none.2 fun i hi he => ?_
    have hlt := List.mem_range.1 hi
    have hle := par.le_64
    have hi' : i = 65535 := beq_iff_eq.1 he
    unfold Params.maxFids at hlt
    omega
  rw [DmacNotify.Cached, listedVids, hnone]
  rfl

theorem listed_iff {f : Nat} (hf : f < par.maxFids) {vid : BitVec 16} (hv : vid ∈ vidsOf s f) :
    listedVids par s f = some (vidsOf s f) ∧ Listed par s f = true := by
  have hget : edgxBrVlanGetFid par (BitVec.ofNat 16 f) = some f := by
    have hle := par.le_64
    have hnat : (BitVec.ofNat 16 f).toNat = f := by
      rw [BitVec.toNat_ofNat]
      exact Nat.mod_eq_of_lt (by unfold Params.maxFids at hf; omega)
    unfold edgxBrVlanGetFid
    rw [hnat]
    cases h : (List.range par.maxFids).find? fun i => i == f with
    | none => exact absurd (beq_self_eq_true f) (List.find?_eq_none.1 h f (List.mem_range.2 hf))
    | some i =>
      have hp := List.find?_some h
      rw [beq_iff_eq.1 hp]
  have hvids : listedVids par s f = some (vidsOf s f) := by
    rw [listedVids, hget, Option.map_some]
  refine ⟨hvids, ?_⟩
  rw [Listed, hvids, Option.any_some, Bool.not_eq_true', List.isEmpty_eq_false_iff]
  exact List.ne_nil_of_mem hv

/-- What is sent for one entry. -/
def entrySent (detector : Bool) (e : DmacEntry) : List Notice :=
  if Listed par s e.fid then
    edgxDmacNotifyFid par ((listedVids par s e.fid).getD [])
      (if e.changeDetector = detector then .addToBridge else .delToBridge) e.mac e.ptid
  else []

/-- An entry stays if it is not aged, or if its FID has no VLAN. -/
def stays (detector : Bool) (e : DmacEntry) : Bool := !Listed par s e.fid || e.changeDetector == detector

/-- The loop over the tree, entry by entry. -/
theorem callNotifiers_eq (detector : Bool) {root : List DmacEntry} (hroot : ∀ e ∈ root, e.ptidNew = e.ptid)
    {n : DmacNotify} (hn : n.Cached par s) :
    edgxDmacCallNotifiers par s detector n root =
      (root.filter (stays par s detector), root.flatMap (entrySent par s detector)) := by
  induction root generalizing n with
  | nil => rfl
  | cons e es ih =>
    have he : e.ptidNew = e.ptid := hroot e (List.mem_cons_self ..)
    have htail := ih (fun e' he' => hroot e' (List.mem_cons_of_mem _ he'))
      (n := { fid := e.fid, vids := listedVids par s e.fid }) rfl
    unfold edgxDmacCallNotifiers
    simp only [updateFid_cached par s hn, htail, List.flatMap_cons, entrySent, he, bne_self_eq_false, Bool.or_false]
    cases hl : Listed par s e.fid with
    | false =>
      have hst : stays par s detector e = true := by rw [stays, hl]; rfl
      rw [List.filter_cons_of_pos hst]
      simp only [Bool.false_eq_true, if_false, List.nil_append]
    | true =>
      by_cases hd : e.changeDetector = detector
      · have hst : stays par s detector e = true := by rw [stays, hl, hd, beq_self_eq_true, Bool.or_true]
        rw [List.filter_cons_of_pos hst]
        have ha : (e.changeDetector != detector) = false := bne_eq_false_iff_eq.2 hd
        have hself : { e with ptid := e.ptid, ptidNew := e.ptid } = e := by
          cases e
          cases he
          rfl
        simp only [ha, Bool.false_eq_true, if_false, if_true, List.nil_append, if_pos hd, hself]
      · have hst : ¬ stays par s detector e = true := by
          rw [stays, hl, beq_eq_false_iff_ne.2 hd]
          decide
        have ha : (e.changeDetector != detector) = true := bne_iff_ne.2 hd
        rw [List.filter_cons_of_neg hst]
        simp only [ha, hd, if_true, if_false]

theorem syncDisable_eq (root : List DmacEntry) {n : DmacNotify} (hn : n.Cached par s) :
    syncDisable par s n root = root.flatMap fun e =>
      if Listed par s e.fid then
        edgxDmacNotifyFid par ((listedVids par s e.fid).getD []) .delToBridge e.mac e.ptid
      else [] := by
  induction root generalizing n with
  | nil => rfl
  | cons e es ih =>
    unfold syncDisable
    simp only [updateFid_cached par s hn, List.flatMap_cons]
    rw [ih (n := { fid := e.fid, vids := listedVids par s e.fid }) rfl]

/-- A notification is for one port and one of the VLANs. -/
theorem mem_notifyFid {vids : List (BitVec 16)} {kind : NoticeKind} {mac : Mac} {ptid : Port} {x : Notice} :
    x ∈ edgxDmacNotifyFid par vids kind mac ptid ↔
      par.brpt ptid = true ∧ x.kind = kind ∧ x.mac = mac ∧ x.ptid = ptid ∧ x.vid ∈ vids := by
  unfold edgxDmacNotifyFid
  by_cases hp : par.brpt ptid = true
  · rw [if_pos hp, and_iff_right hp, List.mem_map]
    refine ⟨fun ⟨vid, hv, he⟩ => he ▸ ⟨rfl, rfl, rfl, hv⟩, fun ⟨hk, hm, hpt, hv⟩ => ⟨x.vid, hv, ?_⟩⟩
    cases x
    cases hk
    cases hm
    cases hpt
    rfl
  · rw [if_neg hp]
    exact iff_of_false (fun h => nomatch h) fun h => hp h.1

/-- The VIDs of a FID that is listed. -/
theorem mem_listed {f : Nat} (hf : f < 64) {vid : BitVec 16} (hv : vid ∈ (listedVids par s f).getD []) : vid ∈ vidsOf s f := by
  unfold listedVids at hv
  cases hget : edgxBrVlanGetFid par (BitVec.ofNat 16 f) with
  | none =>
    rw [hget] at hv
    exact nomatch hv
  | some g =>
    rw [hget] at hv
    unfold edgxBrVlanGetFid at hget
    have hp := List.find?_some hget
    have hg : g = f := by
      rw [beq_iff_eq.1 hp, BitVec.toNat_ofNat]
      exact Nat.mod_eq_of_lt (by omega)
    exact hg ▸ hv

end Notify

end TsnSwitch.Dmac
