/-
Classes that come and go, and the entries in them.

A class is created with slots that show nothing, and released when it has no
entries, so that its slots show nothing again. A creation that fails leaves
the trees as they were.
-/
import TsnSwitch.SidTab.Slots

namespace TsnSwitch.SidTab

open Fdb (Mac)
open Lib

variable {s s' : EdgxSidBr} {k : TmvtKey} {t : TmvtEntry}

/-- All classes are active. -/
structure Tidy (s : EdgxSidBr) : Prop where
  core : Core s
  active : ∀ k t, s.rbTmvt k = some t → Active s k t

theorem Active.of_same {t : TmvtEntry} (h : Active s k t) (hcfg : s'.cfg = s.cfg) (htab : s'.tab = s.tab)
    (hrb : ∀ hk ∈ t.slots, s'.rbHt hk = s.rbHt hk) : Active s' k t := by
  intro hk hmem
  obtain ⟨h1, h2⟩ := h hk hmem
  rw [hrb hk hmem, hcfg]
  exact ⟨h1, h2.of_tab (by rw [htab]) hcfg⟩

/-! ## Entries of a class -/

def TmvtEntry.withEntries (t : TmvtEntry) (m : OrdMap Nat TmvtOEntry) : TmvtEntry := { t with rbTmvtO := m }

@[simp] theorem withEntries_slots (m : OrdMap Nat TmvtOEntry) : (t.withEntries m).slots = t.slots := rfl

theorem ClassOk.withEntries (h : ClassOk k t) (m : OrdMap Nat TmvtOEntry) : ClassOk k (t.withEntries m) where
  key := h.key
  tagVid := h.tagVid
  shape := by
    cases h.shape with
    | one k0 tag h0 h1 => exact .one k0 tag h0 h1
    | two k0 k1 ne tag h0 h1 => exact .two k0 k1 ne tag h0 h1

/-- A state with other entries in a class. -/
def EdgxSidBr.withEntries (s : EdgxSidBr) (k : TmvtKey) (t : TmvtEntry) (m : OrdMap Nat TmvtOEntry)
    (rbO : Nat → Option TmvtKey) (totalCnt : BitVec 32) : EdgxSidBr :=
  { s with rbO, rbTmvt := Function.update s.rbTmvt k (some (t.withEntries m)), totalCnt }

section WithEntries

variable {m : OrdMap Nat TmvtOEntry} {rbO : Nat → Option TmvtKey} {n : BitVec 32}

theorem Core.withEntries (hC : Core s) (ht : s.rbTmvt k = some t)
    (hown : ∀ o, rbO o = some k ↔ ∃ toe, m.get? o = some toe)
    (hother : ∀ o k', k' ≠ k → (rbO o = some k' ↔ s.rbO o = some k')) : Core (s.withEntries k t m rbO n) where
  classOk k' t' ht' := by
    by_cases hk : k' = k
    · subst hk
      obtain rfl : t.withEntries m = t' := by simpa [EdgxSidBr.withEntries] using ht'
      exact (hC.classOk k' t ht).withEntries m
    · exact hC.classOk k' t' (by simpa [EdgxSidBr.withEntries, hk] using ht')
  owned hk k' := by
    refine (hC.owned hk k').trans ?_
    by_cases he : k' = k
    · subst he
      simp [EdgxSidBr.withEntries, ht]
    · simp [EdgxSidBr.withEntries, he]
  rows := hC.rows
  unused hk k' hu := (hC.unused hk k' hu).of_tab rfl rfl
  free pos hpos := (hC.free pos hpos).of_tab rfl rfl
  ords o k' := by
    by_cases hk : k' = k
    · subst hk
      simpa [EdgxSidBr.withEntries, TmvtEntry.withEntries] using hown o
    · rw [show (s.withEntries k t m rbO n).rbO = rbO from rfl, hother o k' hk, hC.ords]
      simp [EdgxSidBr.withEntries, hk]

/-- After its slots are made up, all classes are active. -/
theorem Tidy.gen (hT : Tidy s) (ht : s.rbTmvt k = some t) (hC : Core (s.withEntries k t m rbO n)) :
    Tidy (sidGenPortStrHdls (s.withEntries k t m rbO n) k) ∧
      (sidGenPortStrHdls (s.withEntries k t m rbO n) k).rbTmvt = (s.withEntries k t m rbO n).rbTmvt ∧
      (sidGenPortStrHdls (s.withEntries k t m rbO n) k).rbO = rbO := by
  have ht1 : (s.withEntries k t m rbO n).rbTmvt k = some (t.withEntries m) := Function.update_self ..
  have hfill := gen_active hC ht1
  refine ⟨⟨hfill.core, fun k' t' ht' => ?_⟩, hfill.rbTmvt, hfill.rbO⟩
  rw [hfill.rbTmvt] at ht'
  by_cases hk : k' = k
  · subst hk
    obtain rfl := Option.some.inj (ht1.symm.trans ht')
    exact hfill.active
  · refine hfill.others k' t' hk ((hT.active k' t' ?_).of_same rfl rfl fun _ _ => rfl)
    simpa [EdgxSidBr.withEntries, hk] using ht'

end WithEntries

/-- A new entry gives nothing. -/
theorem portStrHdls_new (n : Nat) (as bs : List (Nat × TmvtOEntry)) (ord : Nat) :
    portStrHdls n (as ++ (ord, newTmvtO) :: bs) = portStrHdls n (as ++ bs) := by
  have hgives : ∀ i, newTmvtO.gives i = false := fun i => rfl
  have hany : ((List.range n).any fun i => newTmvtO.gives i) = false := List.any_eq_false.2 fun i _ => by simp [hgives]
  have hstep : portStrHdls n ((ord, newTmvtO) :: bs) = portStrHdls n bs := by
    rw [portStrHdls, List.foldr_cons, ← portStrHdls, hany]
    simp only [hgives, Bool.false_eq_true, and_false, if_false, Bool.or_false]
  rw [portStrHdls, List.foldr_append, ← portStrHdls, hstep, portStrHdls, portStrHdls, List.foldr_append]

theorem content_insert (cfg : Config) {ord : Nat} (hnew : t.rbTmvtO.get? ord = none) :
    content cfg (t.withEntries (t.rbTmvtO.insert ord newTmvtO)) = content cfg t := by
  have h : portStrHdls cfg.portCnt (t.rbTmvtO.insert ord newTmvtO).entries =
      portStrHdls cfg.portCnt t.rbTmvtO.entries := by
    rw [OrdMap.insert, portStrHdls_new, ← OrdMap.entries_split hnew]
  simp only [content, TmvtEntry.withEntries, h]

/-- A new entry leaves all classes active. -/
theorem Tidy.insert {ord : Nat} {rbO : Nat → Option TmvtKey} {n : BitVec 32} (hT : Tidy s) (ht : s.rbTmvt k = some t)
    (hnew : t.rbTmvtO.get? ord = none)
    (hC : Core (s.withEntries k t (t.rbTmvtO.insert ord newTmvtO) rbO n)) :
    Tidy (s.withEntries k t (t.rbTmvtO.insert ord newTmvtO) rbO n) := by
  refine ⟨hC, fun k' t' ht' => ?_⟩
  by_cases hk : k' = k
  · subst hk
    obtain rfl : t.withEntries _ = t' := by simpa [EdgxSidBr.withEntries] using ht'
    intro hk hmem
    rw [show (s.withEntries k' t _ rbO n).cfg = s.cfg from rfl, content_insert s.cfg hnew]
    obtain ⟨hh, hshow⟩ := hT.active k' t ht hk hmem
    exact ⟨hh, hshow.of_tab rfl rfl⟩
  · exact (hT.active k' t' (by simpa [EdgxSidBr.withEntries, hk] using ht')).of_same rfl rfl fun _ _ => rfl

theorem content_nil (cfg : Config) (h : t.rbTmvtO.entries = []) : content cfg t = zeroTabEntry := by
  simp [content, h, portStrHdls]

/-! ## Slots that are taken and released -/

/-- A state with other slots and classes. -/
def EdgxSidBr.withClass (s : EdgxSidBr) (k : TmvtKey) (x : Option TmvtEntry) (rbHt : HtKey → Option HtEntry) :
    EdgxSidBr := { s with rbHt, rbTmvt := Function.update s.rbTmvt k x }

section WithClass

variable {rbHt : HtKey → Option HtEntry}

/-- A class is put in, on free slots. -/
theorem Tidy.addClass (hT : Tidy s) (hfree : s.rbTmvt k = none) (hok : ClassOk k t) (hnil : t.rbTmvtO = .empty)
    (hnew : ∀ hk ∈ t.slots, rbHt hk = some ⟨k, false⟩ ∧ s.rbHt hk = none ∧ hk.row.toNat < 2 ^ 12)
    (hold : ∀ hk, hk ∉ t.slots → rbHt hk = s.rbHt hk) : Tidy (s.withClass k (some t) rbHt) := by
  have hC := hT.core
  have hself : (s.withClass k (some t) rbHt).rbTmvt k = some t := Function.update_self ..
  have hne : ∀ k', k' ≠ k → (s.withClass k (some t) rbHt).rbTmvt k' = s.rbTmvt k' :=
    fun k' h => Function.update_of_ne h ..
  have hkeep : ∀ hk h, s.rbHt hk = some h → rbHt hk = some h := by
    intro hk h hh
    rw [hold hk fun hmem => ?_, hh]
    rw [(hnew hk hmem).2.1] at hh
    cases hh
  have hback : ∀ hk, hk ∉ t.slots → ∀ h, rbHt hk = some h → s.rbHt hk = some h := fun hk hmem h hh => by
    rw [← hold hk hmem, hh]
  have hshow : ∀ hk ∈ t.slots, Shows s hk.pos zeroTabEntry := fun hk hmem => by
    refine hC.free hk.pos fun hk' h hh hpos => ?_
    have heq := pos_inj (hC.rows hk' h hh) (hnew hk hmem).2.2 hpos
    rw [heq, (hnew hk hmem).2.1] at hh
    cases hh
  have hnone : ∀ hk u, s.rbHt hk ≠ some ⟨k, u⟩ := by
    intro hk' u hu
    obtain ⟨t', ht', -⟩ := (hC.owned hk' k).1 ⟨u, hu⟩
    exact nomatch hfree.symm.trans ht'
  refine ⟨⟨fun k' t' ht' => ?_, fun hk k' => ?_, fun hk h hh => ?_, fun hk k' hu => ?_, fun pos hpos => ?_,
    fun o k' => ?_⟩, fun k' t' ht' => ?_⟩
  · by_cases he : k' = k
    · subst he
      obtain rfl := Option.some.inj (hself.symm.trans ht')
      exact hok
    · exact hC.classOk k' t' (hne k' he ▸ ht')
  · by_cases he : k' = k
    · subst he
      rw [hself]
      constructor
      · rintro ⟨u, hu⟩
        by_cases hmem : hk ∈ t.slots
        · exact ⟨t, rfl, hmem⟩
        · exact absurd (hback hk hmem _ hu) (hnone hk u)
      · rintro ⟨t', ht', hmem⟩
        obtain rfl := Option.some.inj ht'
        exact ⟨false, (hnew hk hmem).1⟩
    · rw [hne k' he, ← hC.owned]
      refine exists_congr fun u => ⟨fun hu => ?_, hkeep hk _⟩
      refine hback hk (fun hmem => ?_) _ hu
      rw [show (s.withClass k (some t) rbHt).rbHt hk = rbHt hk from rfl, (hnew hk hmem).1] at hu
      exact he (HtEntry.mk.inj (Option.some.inj hu)).1.symm
  · by_cases hmem : hk ∈ t.slots
    · exact (hnew hk hmem).2.2
    · exact hC.rows hk h (hback hk hmem h hh)
  · by_cases hmem : hk ∈ t.slots
    · exact (hshow hk hmem).of_tab rfl rfl
    · exact (hC.unused hk k' (hback hk hmem _ hu)).of_tab rfl rfl
  · exact (hC.free pos fun hk h hh => hpos hk h (hkeep hk h hh)).of_tab rfl rfl
  · by_cases he : k' = k
    · subst he
      rw [hself]
      refine iff_of_false (fun ho => ?_) ?_
      · obtain ⟨t', ht', -⟩ := (hC.ords o k').1 ho
        exact nomatch hfree.symm.trans ht'
      · rintro ⟨t', ht', toe, hget⟩
        obtain rfl := Option.some.inj ht'
        rw [hnil] at hget
        cases hget
    · rw [hne k' he]
      exact hC.ords o k'
  · by_cases he : k' = k
    · subst he
      obtain rfl := Option.some.inj (hself.symm.trans ht')
      intro hk hmem
      rw [show (s.withClass k' (some t) rbHt).cfg = s.cfg from rfl, content_nil s.cfg (by rw [hnil]; rfl)]
      exact ⟨(hnew hk hmem).1, (hshow hk hmem).of_tab rfl rfl⟩
    · have ha := hT.active k' t' (hne k' he ▸ ht')
      refine ha.of_same rfl rfl fun hk hmem => ?_
      rw [(ha hk hmem).1]
      exact hkeep hk _ (ha hk hmem).1

/-- A class without entries is taken out, with its slots. -/
theorem Tidy.removeClass (hT : Tidy s) (ht : s.rbTmvt k = some t) (hnil : t.rbTmvtO.entries = [])
    (hgone : ∀ hk ∈ t.slots, rbHt hk = none) (hold : ∀ hk, hk ∉ t.slots → rbHt hk = s.rbHt hk) :
    Tidy (s.withClass k none rbHt) := by
  have hC := hT.core
  have hself : (s.withClass k none rbHt).rbTmvt k = none := Function.update_self ..
  have hne : ∀ k', k' ≠ k → (s.withClass k none rbHt).rbTmvt k' = s.rbTmvt k' :=
    fun k' h => Function.update_of_ne h ..
  have hin : ∀ hk h, rbHt hk = some h → hk ∉ t.slots ∧ s.rbHt hk = some h := by
    intro hk h hh
    have hmem : hk ∉ t.slots := fun hmem => by rw [hgone hk hmem] at hh; cases hh
    exact ⟨hmem, by rw [← hold hk hmem, hh]⟩
  have hout : ∀ hk k' u, k' ≠ k → s.rbHt hk = some ⟨k', u⟩ → hk ∉ t.slots := by
    intro hk k' u he hu hmem
    obtain ⟨u', hu'⟩ := hC.owner ht hmem
    rw [hu'] at hu
    exact he (HtEntry.mk.inj (Option.some.inj hu)).1.symm
  refine ⟨⟨fun k' t' ht' => ?_, fun hk k' => ?_, fun hk h hh => hC.rows hk h (hin hk h hh).2,
    fun hk k' hu => (hC.unused hk k' (hin hk _ hu).2).of_tab rfl rfl, fun pos hpos => ?_, fun o k' => ?_⟩,
    fun k' t' ht' => ?_⟩
  · have he : k' ≠ k := by rintro rfl; exact nomatch hself.symm.trans ht'
    exact hC.classOk k' t' (hne k' he ▸ ht')
  · by_cases he : k' = k
    · subst he
      rw [hself]
      refine iff_of_false ?_ ?_
      · rintro ⟨u, hu⟩
        obtain ⟨hmem, hu⟩ := hin hk _ hu
        obtain ⟨t', ht', hmem'⟩ := (hC.owned hk k').1 ⟨u, hu⟩
        obtain rfl := Option.some.inj (ht.symm.trans ht')
        exact hmem hmem'
      · rintro ⟨t', ht', -⟩
        cases ht'
    · rw [hne k' he, ← hC.owned]
      refine exists_congr fun u => ⟨fun hu => (hin hk _ hu).2, fun hu => ?_⟩
      exact (hold hk (hout hk k' u he hu)).trans hu
  · by_cases hslot : ∃ hk ∈ t.slots, hk.pos = pos
    · obtain ⟨hk, hmem, rfl⟩ := hslot
      have hshow := (hT.active k t ht hk hmem).2
      rw [content_nil s.cfg hnil] at hshow
      exact hshow.of_tab rfl rfl
    · refine (hC.free pos fun hk h hh heq => ?_).of_tab rfl rfl
      have hmem : hk ∉ t.slots := fun hmem => hslot ⟨hk, hmem, heq⟩
      exact hpos hk h ((hold hk hmem).trans hh) heq
  · by_cases he : k' = k
    · subst he
      rw [hself]
      refine iff_of_false (fun ho => ?_) (by rintro ⟨t', ht', -⟩; cases ht')
      obtain ⟨t', ht', toe, hget⟩ := (hC.ords o k').1 ho
      obtain rfl := Option.some.inj (ht.symm.trans ht')
      rw [OrdMap.entries_eq_nil_iff.1 hnil o] at hget
      cases hget
    · rw [hne k' he]
      exact hC.ords o k'
  · have he : k' ≠ k := by rintro rfl; exact nomatch hself.symm.trans ht'
    have ha := hT.active k' t' (hne k' he ▸ ht')
    exact ha.of_same rfl rfl fun hk hmem => hold hk (hout hk k' _ he (ha hk hmem).1)

end WithClass

end TsnSwitch.SidTab
