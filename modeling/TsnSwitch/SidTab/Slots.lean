/-
The slots of the table and the trees that own them.

`Core` is what holds at every moment of a write. A class is `Active` when its
slots show what its entries give, which is what making up the slots leaves
(`gen_active`); nothing else in the table changes then.
-/
import TsnSwitch.SidTab.Keys

namespace TsnSwitch.SidTab

open Fdb (Mac)
open Lib

/-! ## Invariants -/

def TmvtEntry.slots (t : TmvtEntry) : List HtKey := t.htEntry0.toList ++ t.htEntry1.toList

/-- One slot, or two different ones. -/
inductive TmvtEntry.Shape (t : TmvtEntry) : Prop where
  | one (k0 : HtKey) (tag : t.tag ≠ SID_ALL) (h0 : t.htEntry0 = some k0) (h1 : t.htEntry1 = none)
  | two (k0 k1 : HtKey) (ne : k0 ≠ k1) (tag : t.tag = SID_ALL) (h0 : t.htEntry0 = some k0)
      (h1 : t.htEntry1 = some k1)

structure ClassOk (k : TmvtKey) (t : TmvtEntry) : Prop where
  key : paramsToTmvtKey t.addr t.tag t.vid = k
  tagVid : tagVidOk t.tag t.vid = true
  shape : t.Shape

/-- What the slots of a class are to show. -/
def content (cfg : Config) (t : TmvtEntry) : TabEntry :=
  let hdls := portStrHdls cfg.portCnt t.rbTmvtO.entries
  if hdls.2 then
    { used := true, matchVlan := getMatchVlan t.tag t.vid, mac := t.addr, vid := t.vid, strHdl := hdls.1 }
  else zeroTabEntry

/-- A slot of the table, in the registers that are there. -/
structure Shows (s : EdgxSidBr) (pos : TabPos) (e : TabEntry) : Prop where
  used : (s.tab pos).used = e.used
  matchVlan : (s.tab pos).matchVlan = e.matchVlan
  mac : (s.tab pos).mac = e.mac
  vid : (s.tab pos).vid = e.vid
  strHdl : ∀ i < s.cfg.portCnt, (s.tab pos).strHdl i = e.strHdl i

structure Core (s : EdgxSidBr) : Prop where
  classOk : ∀ k t, s.rbTmvt k = some t → ClassOk k t
  owned : ∀ hk k, (∃ u, s.rbHt hk = some ⟨k, u⟩) ↔ ∃ t, s.rbTmvt k = some t ∧ hk ∈ t.slots
  rows : ∀ hk h, s.rbHt hk = some h → hk.row.toNat < 2 ^ 12
  unused : ∀ hk k, s.rbHt hk = some ⟨k, false⟩ → Shows s hk.pos zeroTabEntry
  free : ∀ pos, (∀ hk h, s.rbHt hk = some h → hk.pos ≠ pos) → Shows s pos zeroTabEntry
  ords : ∀ o k, s.rbO o = some k ↔ ∃ t, s.rbTmvt k = some t ∧ ∃ toe, t.rbTmvtO.get? o = some toe

/-- The slots of a class show what its entries give. -/
def Active (s : EdgxSidBr) (k : TmvtKey) (t : TmvtEntry) : Prop :=
  ∀ hk ∈ t.slots, s.rbHt hk = some ⟨k, (content s.cfg t).used⟩ ∧ Shows s hk.pos (content s.cfg t)

variable {s s' : EdgxSidBr} {k : TmvtKey} {t : TmvtEntry} {hk : HtKey}

theorem Shows.of_tab {pos : TabPos} {e : TabEntry} (h : Shows s pos e) (htab : s'.tab pos = s.tab pos)
    (hcfg : s'.cfg = s.cfg) : Shows s' pos e := by
  obtain ⟨h1, h2, h3, h4, h5⟩ := h
  rw [← htab] at h1 h2 h3 h4 h5
  exact ⟨h1, h2, h3, h4, fun i hi => h5 i (hcfg ▸ hi)⟩

theorem Core.pos_ne (hC : Core s) {hk' : HtKey} {h h' : HtEntry} (hh : s.rbHt hk = some h)
    (hh' : s.rbHt hk' = some h') (hne : hk ≠ hk') : hk.pos ≠ hk'.pos :=
  fun hpos => hne (pos_inj (hC.rows _ _ hh) (hC.rows _ _ hh') hpos)

theorem Core.owner (hC : Core s) (ht : s.rbTmvt k = some t) (hmem : hk ∈ t.slots) : ∃ u, s.rbHt hk = some ⟨k, u⟩ :=
  (hC.owned hk k).2 ⟨t, ht, hmem⟩

theorem content_used_eq_true {cfg : Config} (h : (content cfg t).used = true) :
    content cfg t = ⟨true, getMatchVlan t.tag t.vid, t.addr, t.vid, (content cfg t).strHdl⟩ := by
  rw [content] at h ⊢
  split
  · rfl
  · rename_i hf
    rw [if_neg hf] at h
    cases h

theorem content_used_eq_false {cfg : Config} (h : (content cfg t).used = false) : content cfg t = zeroTabEntry := by
  rw [content] at h ⊢
  split
  · rename_i hf
    rw [if_pos hf] at h
    cases h
  · rfl

/-! ## One slot is written -/

/-- A slot of a class is made to show `e`. -/
structure SlotSet (s s' : EdgxSidBr) (hk : HtKey) (k : TmvtKey) (e : TabEntry) : Prop where
  cfg : s'.cfg = s.cfg
  rbO : s'.rbO = s.rbO
  rbTmvt : s'.rbTmvt = s.rbTmvt
  rbHt : s'.rbHt = Function.update s.rbHt hk (some ⟨k, e.used⟩)
  shows : Shows s' hk.pos e
  others : ∀ pos, pos ≠ hk.pos → s'.tab pos = s.tab pos

theorem tabSet_shows (s : EdgxSidBr) (hk : HtKey) (e : TabEntry) (rbHt : HtKey → Option HtEntry) :
    Shows { s with tab := edgxSidTabSet s hk e, rbHt } hk.pos e := by
  have htab : edgxSidTabSet s hk e hk.pos =
      { e with strHdl := fun i => if i < s.cfg.portCnt then e.strHdl i else (s.tab hk.pos).strHdl i } :=
    Function.update_self ..
  refine ⟨?_, ?_, ?_, ?_, fun i hi => ?_⟩ <;> dsimp only <;> rw [htab]
  exact if_pos hi

theorem sidHtActivate_set {u : Bool} (hh : s.rbHt hk = some ⟨k, u⟩) (ht : s.rbTmvt k = some t) (tag : BitVec 32)
    (strHdl : Nat → Handle) :
    SlotSet s (sidHtActivate s hk tag strHdl) hk k
      { used := true, vid := t.vid, mac := t.addr, matchVlan := getMatchVlan tag t.vid, strHdl } := by
  simp only [sidHtActivate, hh, ht]
  exact ⟨rfl, rfl, rfl, rfl, tabSet_shows .., fun pos hpos => Function.update_of_ne hpos ..⟩

theorem sidHtDeactivate_set (hC : Core s) {u : Bool} (hh : s.rbHt hk = some ⟨k, u⟩) :
    SlotSet s (sidHtDeactivate s hk) hk k zeroTabEntry := by
  simp only [sidHtDeactivate, hh]
  cases u with
  | true => exact ⟨rfl, rfl, rfl, rfl, tabSet_shows .., fun pos hpos => Function.update_of_ne hpos ..⟩
  | false =>
    refine ⟨rfl, rfl, rfl, ?_, hC.unused hk k hh, fun _ _ => rfl⟩
    rw [show zeroTabEntry.used = false from rfl, ← hh, Function.update_eq_self]
    rfl

namespace SlotSet

variable {e : TabEntry} {u : Bool}

theorem rbHt_iff (h : SlotSet s s' hk k e) (hh : s.rbHt hk = some ⟨k, u⟩) (hk' : HtKey) (k' : TmvtKey) :
    (∃ u, s'.rbHt hk' = some ⟨k', u⟩) ↔ ∃ u, s.rbHt hk' = some ⟨k', u⟩ := by
  rw [h.rbHt]
  by_cases he : hk' = hk
  · subst he
    simp [hh]
  · rw [Function.update_of_ne he]

theorem isSome_iff (h : SlotSet s s' hk k e) (hh : s.rbHt hk = some ⟨k, u⟩) {hk' : HtKey} {g : HtEntry}
    (hg : s'.rbHt hk' = some g) : ∃ g', s.rbHt hk' = some g' := by
  obtain ⟨k', u'⟩ := g
  obtain ⟨u'', hu⟩ := (h.rbHt_iff hh hk' k').1 ⟨u', hg⟩
  exact ⟨_, hu⟩

theorem core (h : SlotSet s s' hk k e) (hC : Core s) (hh : s.rbHt hk = some ⟨k, u⟩)
    (he : e.used = false → e = zeroTabEntry) : Core s' where
  classOk k t ht := hC.classOk k t (h.rbTmvt ▸ ht)
  owned hk' k' := by rw [h.rbHt_iff hh, hC.owned, h.rbTmvt]
  rows hk' g hg := by
    obtain ⟨g', hg'⟩ := h.isSome_iff hh hg
    exact hC.rows hk' g' hg'
  unused hk' k' hu := by
    rw [h.rbHt] at hu
    by_cases heq : hk' = hk
    · subst heq
      rw [Function.update_self] at hu
      have hused : e.used = false := by simpa using (HtEntry.mk.inj (Option.some.inj hu)).2
      exact he hused ▸ h.shows
    · rw [Function.update_of_ne heq] at hu
      exact (hC.unused hk' k' hu).of_tab (h.others _ (hC.pos_ne hu hh heq)) h.cfg
  free pos hpos := by
    have hno : ∀ hk' g, s.rbHt hk' = some g → hk'.pos ≠ pos := by
      intro hk' g hg
      obtain ⟨u', hu'⟩ := (h.rbHt_iff hh hk' g.tmvtEntry).2 ⟨g.used, hg⟩
      exact hpos hk' _ hu'
    exact (hC.free pos hno).of_tab (h.others pos (hno hk _ hh).symm) h.cfg
  ords o k' := by rw [h.rbO, h.rbTmvt]; exact hC.ords o k'

/-- Another class is untouched. -/
theorem active (h : SlotSet s s' hk k e) (hC : Core s) (hh : s.rbHt hk = some ⟨k, u⟩) {k' : TmvtKey} {t' : TmvtEntry}
    (hne : k' ≠ k) (ha : Active s k' t') : Active s' k' t' := by
  intro hk' hmem
  obtain ⟨hrb, hshow⟩ := ha hk' hmem
  have heq : hk' ≠ hk := by
    rintro rfl
    rw [hh] at hrb
    exact hne (HtEntry.mk.inj (Option.some.inj hrb)).1.symm
  rw [h.rbHt, h.cfg, Function.update_of_ne heq]
  exact ⟨hrb, hshow.of_tab (h.others _ (hC.pos_ne hrb hh heq)) h.cfg⟩

end SlotSet

/-! ## All slots of a class -/

/-- One slot, as `sidGenPortStrHdls` fills it. -/
def fillSlot (s : EdgxSidBr) (t : TmvtEntry) (hk : HtKey) (tag : BitVec 32) : EdgxSidBr :=
  if (content s.cfg t).used then sidHtActivate s hk tag (content s.cfg t).strHdl else sidHtDeactivate s hk

theorem fillSlot_set (hC : Core s) (ht : s.rbTmvt k = some t) (hmem : hk ∈ t.slots) {tag : BitVec 32}
    (htag : getMatchVlan tag t.vid = getMatchVlan t.tag t.vid) :
    SlotSet s (fillSlot s t hk tag) hk k (content s.cfg t) := by
  obtain ⟨u, hh⟩ := hC.owner ht hmem
  rw [fillSlot]
  split
  · rename_i hused
    have hset := sidHtActivate_set hh ht tag (content s.cfg t).strHdl
    rw [htag] at hset
    rw [content_used_eq_true hused]
    exact hset
  · rename_i hused
    rw [content_used_eq_false (Bool.eq_false_iff.2 hused)]
    exact sidHtDeactivate_set hC hh

theorem fillSlot_found (hf : (portStrHdls s.cfg.portCnt t.rbTmvtO.entries).2 = true) (hk : HtKey) (tag : BitVec 32) :
    fillSlot s t hk tag = sidHtActivate s hk tag (portStrHdls s.cfg.portCnt t.rbTmvtO.entries).1 := by
  simp only [fillSlot, content, hf, if_true]

theorem fillSlot_none (hf : ¬ (portStrHdls s.cfg.portCnt t.rbTmvtO.entries).2 = true) (hk : HtKey) (tag : BitVec 32) :
    fillSlot s t hk tag = sidHtDeactivate s hk := by
  simp only [fillSlot, content, hf, Bool.false_eq_true, if_false, zeroTabEntry]

theorem gen_one {k0 : HtKey} (ht : s.rbTmvt k = some t) (htag : t.tag ≠ SID_ALL) (h0 : t.htEntry0 = some k0) :
    sidGenPortStrHdls s k = fillSlot s t k0 t.tag := by
  rw [sidGenPortStrHdls]
  simp only [ht, htag, h0, if_false, onSlot]
  by_cases hf : (portStrHdls s.cfg.portCnt t.rbTmvtO.entries).2 = true
  · rw [if_pos hf, fillSlot_found hf]
  · rw [if_neg hf, fillSlot_none hf]

theorem gen_two {k0 k1 : HtKey} (ht : s.rbTmvt k = some t) (htag : t.tag = SID_ALL) (h0 : t.htEntry0 = some k0)
    (h1 : t.htEntry1 = some k1) (hcfg : (fillSlot s t k0 SID_TAGGED).cfg = s.cfg) :
    sidGenPortStrHdls s k = fillSlot (fillSlot s t k0 SID_TAGGED) t k1 SID_PRIORITY := by
  rw [sidGenPortStrHdls]
  simp only [ht, htag, h0, h1, if_true, onSlot]
  by_cases hf : (portStrHdls s.cfg.portCnt t.rbTmvtO.entries).2 = true
  · rw [if_pos hf, fillSlot_found (hcfg.symm ▸ hf), hcfg, fillSlot_found hf]
  · rw [if_neg hf, fillSlot_none (hcfg.symm ▸ hf), fillSlot_none hf]

/-- What making up the slots of a class does. -/
structure Filled (s s' : EdgxSidBr) (k : TmvtKey) (t : TmvtEntry) : Prop where
  core : Core s'
  cfg : s'.cfg = s.cfg
  rbO : s'.rbO = s.rbO
  rbTmvt : s'.rbTmvt = s.rbTmvt
  active : Active s' k t
  others : ∀ k' t', k' ≠ k → Active s k' t' → Active s' k' t'

/-- **Making up the slots of a class leaves it active and every other class
as it was.** -/
theorem gen_active (hC : Core s) (ht : s.rbTmvt k = some t) : Filled s (sidGenPortStrHdls s k) k t := by
  have hok := hC.classOk k t ht
  have hfalse : (content s.cfg t).used = false → content s.cfg t = zeroTabEntry := content_used_eq_false
  cases hok.shape with
  | one k0 htag h0 h1 =>
    have hslots : t.slots = [k0] := by rw [TmvtEntry.slots, h0, h1]; rfl
    have hmem : k0 ∈ t.slots := by rw [hslots]; exact List.mem_singleton_self k0
    obtain ⟨u, hh⟩ := hC.owner ht hmem
    have hset := fillSlot_set hC ht hmem (rfl : getMatchVlan t.tag t.vid = _)
    rw [gen_one ht htag h0]
    refine ⟨hset.core hC hh hfalse, hset.cfg, hset.rbO, hset.rbTmvt, ?_, fun k' t' hne => hset.active hC hh hne⟩
    intro hk' hmem'
    rw [hslots, List.mem_singleton] at hmem'
    subst hmem'
    rw [hset.cfg, hset.rbHt, Function.update_self]
    exact ⟨rfl, hset.shows⟩
  | two k0 k1 hne htag h0 h1 =>
    have hslots : t.slots = [k0, k1] := by rw [TmvtEntry.slots, h0, h1]; rfl
    have hmem0 : k0 ∈ t.slots := by rw [hslots]; simp
    have hmem1 : k1 ∈ t.slots := by rw [hslots]; simp
    have hmatch := getMatchVlan_all hok.tagVid htag
    obtain ⟨u, hh⟩ := hC.owner ht hmem0
    have hset := fillSlot_set hC ht hmem0 (hmatch SID_TAGGED)
    have hC1 := hset.core hC hh hfalse
    have ht1 : (fillSlot s t k0 SID_TAGGED).rbTmvt k = some t := by rw [hset.rbTmvt]; exact ht
    obtain ⟨u1, hh1⟩ := hC1.owner ht1 hmem1
    have hset1 := fillSlot_set hC1 ht1 hmem1 (hmatch SID_PRIORITY)
    rw [hset.cfg] at hset1
    rw [gen_two ht htag h0 h1 hset.cfg]
    refine ⟨hset1.core hC1 hh1 hfalse, hset1.cfg.trans hset.cfg, hset1.rbO.trans hset.rbO,
      hset1.rbTmvt.trans hset.rbTmvt, ?_, fun k' t' hne' ha => hset1.active hC1 hh1 hne' (hset.active hC hh hne' ha)⟩
    have hk0 : (fillSlot s t k0 SID_TAGGED).rbHt k0 = some ⟨k, (content s.cfg t).used⟩ := by
      rw [hset.rbHt, Function.update_self]
    intro hk' hmem'
    rw [hset1.cfg.trans hset.cfg, hset1.rbHt]
    rw [hslots, List.mem_cons, List.mem_singleton] at hmem'
    rcases hmem' with rfl | rfl
    · rw [Function.update_of_ne hne]
      exact ⟨hk0, hset.shows.of_tab (hset1.others _ (hC1.pos_ne hk0 hh1 hne)) hset1.cfg⟩
    · rw [Function.update_self]
      exact ⟨rfl, hset1.shows⟩

end TsnSwitch.SidTab
