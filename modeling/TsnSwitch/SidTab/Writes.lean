/-
What each write does, and runs of writes.

A write that fails leaves everything as it was (`step_failed`). One that
returns 0 changes the entries as `record` says, as long as a created entry
has the VID of the class that it joins: the key of a class has 14 bits of a
VID, and the VIDs of tagged frames are not checked.
-/
import TsnSwitch.SidTab.Table

namespace TsnSwitch.SidTab

open Fdb (Mac)
open Lib

variable {s s' : EdgxSidBr} {k : TmvtKey} {t : TmvtEntry} {ord : Nat}

/-! ## Slots and classes -/

theorem sidHtCreate_error {key : TmvtKey} {addr : Mac} {tag : BitVec 32} {vid : BitVec 16} {mem : Bool} {ret : Int}
    (h : sidHtCreate s key addr tag vid mem = .error ret) : ret ≠ 0 := by
  rw [sidHtCreate] at h
  split at h
  · cases h
    decide
  · split at h
    · cases h
    · cases h
      decide

/-- A slot that was taken and not yet used is given back. -/
theorem sidHtRelease_unused {hk : HtKey} (hh : s.rbHt hk = some ⟨k, false⟩) :
    sidHtRelease s hk = { s with rbHt := Function.update s.rbHt hk none } := by
  simp only [sidHtRelease, sidHtDeactivate, hh, Bool.false_eq_true, if_false]

theorem sidHtRelease_taken {hk : HtKey} (hh : s.rbHt hk = none) :
    sidHtRelease { s with rbHt := Function.update s.rbHt hk (some ⟨k, false⟩) } hk = s := by
  have hback : Function.update s.rbHt hk none = s.rbHt := by rw [← hh, Function.update_eq_self]
  rw [sidHtRelease_unused (k := k) (Function.update_self ..)]
  simp only [Function.update_idem, hback]

/-- A class on slots that were free. -/
structure Placed (s : EdgxSidBr) (k : TmvtKey) (t : TmvtEntry) (rbHt : HtKey → Option HtEntry) : Prop where
  shape : t.Shape
  empty : t.rbTmvtO = .empty
  taken : ∀ hk ∈ t.slots, rbHt hk = some ⟨k, false⟩ ∧ s.rbHt hk = none ∧ hk.row.toNat < 2 ^ 12
  others : ∀ hk, hk ∉ t.slots → rbHt hk = s.rbHt hk

theorem sidTmvtCreate_cases (hfree : s.rbTmvt k = none) (tag : BitVec 32) (vid : BitVec 16) (addr : Mac) (mem : Mem) :
    ((sidTmvtCreate s k tag vid addr mem).1 ≠ 0 ∧ (sidTmvtCreate s k tag vid addr mem).2 = s) ∨
      ∃ t rbHt, sidTmvtCreate s k tag vid addr mem = (0, s.withClass k (some t) rbHt) ∧ t.cls = ⟨addr, tag, vid⟩ ∧
        Placed s k t rbHt := by
  rw [sidTmvtCreate]
  split
  · exact .inl ⟨show -ENOMEM ≠ 0 by decide, rfl⟩
  split
  · rename_i htag
    split
    · rename_i hret
      exact .inl ⟨sidHtCreate_error hret, rfl⟩
    rename_i k0 s0 h0
    obtain ⟨hfree0, hrow0, rfl⟩ := sidHtCreate_ok h0
    split
    · rename_i hret
      exact .inl ⟨sidHtCreate_error hret, sidHtRelease_taken hfree0⟩
    rename_i k1 s1 h1
    obtain ⟨hfree1, hrow1, rfl⟩ := sidHtCreate_ok h1
    have hne : k1 ≠ k0 := by
      rintro rfl
      exact nomatch (Function.update_self ..).symm.trans hfree1
    replace hfree1 : s.rbHt k1 = none := (Function.update_of_ne hne ..).symm.trans hfree1
    simp only [hfree, Option.isSome_none, Bool.false_eq_true, if_false]
    refine .inr ⟨⟨addr, tag, vid, .empty, some k0, some k1⟩, _, rfl, rfl, ?_⟩
    refine ⟨.two k0 k1 hne.symm htag rfl rfl, rfl, fun hk hmem => ?_, fun hk hmem => ?_⟩
    · rcases List.mem_cons.1 hmem with rfl | hmem
      · rw [Function.update_of_ne hne.symm, Function.update_self]
        exact ⟨rfl, hfree0, hrow0⟩
      · obtain rfl := List.mem_singleton.1 hmem
        exact ⟨Function.update_self .., hfree1, hrow1⟩
    · have hmem : hk ∉ [k0, k1] := hmem
      rw [List.mem_cons, List.mem_singleton, not_or] at hmem
      rw [Function.update_of_ne hmem.2, Function.update_of_ne hmem.1]
  · rename_i htag
    split
    · rename_i hret
      exact .inl ⟨sidHtCreate_error hret, rfl⟩
    rename_i k0 s0 h0
    obtain ⟨hfree0, hrow0, rfl⟩ := sidHtCreate_ok h0
    simp only [hfree, Option.isSome_none, Bool.false_eq_true, if_false]
    refine .inr ⟨⟨addr, tag, vid, .empty, some k0, none⟩, _, rfl, rfl, ?_⟩
    refine ⟨.one k0 htag rfl rfl, rfl, fun hk hmem => ?_, fun hk hmem => ?_⟩
    · obtain rfl := List.mem_singleton.1 hmem
      exact ⟨Function.update_self .., hfree0, hrow0⟩
    · exact Function.update_of_ne (fun h => hmem (List.mem_singleton.2 h)) ..

/-- A class whose slots are not used is given back with them. -/
theorem sidTmvtRelease_eq (ht : s.rbTmvt k = some t) (hshape : t.Shape)
    (hunused : ∀ hk ∈ t.slots, s.rbHt hk = some ⟨k, false⟩) :
    ∃ rbHt, sidTmvtRelease s k = s.withClass k none rbHt ∧ (∀ hk ∈ t.slots, rbHt hk = none) ∧
      ∀ hk, hk ∉ t.slots → rbHt hk = s.rbHt hk := by
  cases hshape with
  | one k0 htag h0 h1 =>
    have hslots : t.slots = [k0] := by rw [TmvtEntry.slots, h0, h1]; rfl
    have hrel := sidHtRelease_unused (hunused k0 (by rw [hslots]; exact List.mem_singleton_self k0))
    refine ⟨Function.update s.rbHt k0 none, ?_, fun hk hmem => ?_, fun hk hmem => ?_⟩
    · simp only [sidTmvtRelease, ht, h0, h1, onSlot, hrel]
      rfl
    · rw [hslots, List.mem_singleton] at hmem
      rw [hmem, Function.update_self]
    · rw [hslots, List.mem_singleton] at hmem
      exact Function.update_of_ne hmem ..
  | two k0 k1 hne htag h0 h1 =>
    have hslots : t.slots = [k0, k1] := by rw [TmvtEntry.slots, h0, h1]; rfl
    have hrel1 := sidHtRelease_unused (hunused k1 (by rw [hslots]; simp))
    have hrel0 : sidHtRelease { s with rbHt := Function.update s.rbHt k1 none } k0 =
        { s with rbHt := Function.update (Function.update s.rbHt k1 none) k0 none } :=
      sidHtRelease_unused ((Function.update_of_ne hne ..).trans (hunused k0 (by rw [hslots]; simp)))
    refine ⟨Function.update (Function.update s.rbHt k1 none) k0 none, ?_, fun hk hmem => ?_, fun hk hmem => ?_⟩
    · simp only [sidTmvtRelease, ht, h0, h1, onSlot, hrel1, hrel0]
      rfl
    · rw [hslots, List.mem_cons, List.mem_singleton] at hmem
      rcases hmem with rfl | rfl
      · exact Function.update_self ..
      · rw [Function.update_of_ne hne.symm, Function.update_self]
    · rw [hslots, List.mem_cons, List.mem_singleton, not_or] at hmem
      rw [Function.update_of_ne hmem.1, Function.update_of_ne hmem.2]

/-! ## Entries -/

/-- What the memory allows and the trees have room for. -/
theorem sidOCreate_eq (ht : s.rbTmvt k = some t) (hord : s.rbO ord = none) (hnew : t.rbTmvtO.get? ord = none)
    {mem : Mem} (ho : mem.o = true) (htO : mem.tmvtO = true) :
    sidOCreate s ord k mem = (0, s.withEntries k t (t.rbTmvtO.insert ord newTmvtO)
      (Function.update s.rbO ord (some k)) (s.totalCnt + 1)) := by
  simp only [sidOCreate, ho, htO, hord, ht, hnew, Bool.not_true, Option.isSome_none, Bool.false_eq_true, if_false]
  rfl

theorem sidOCreate_failed {mem : Mem} (h : ¬ (mem.o = true ∧ mem.tmvtO = true)) :
    (sidOCreate s ord k mem).1 ≠ 0 ∧ (sidOCreate s ord k mem).2 = s := by
  rw [sidOCreate]
  split
  · exact ⟨show -ENOMEM ≠ 0 by decide, rfl⟩
  split
  · exact ⟨show -ENOMEM ≠ 0 by decide, rfl⟩
  · rename_i ho htO
    exact absurd ⟨by simpa using ho, by simpa using htO⟩ h

/-- The trees after a change to the entry `ord` of one class. -/
structure OneChanged (s : EdgxSidBr) (k : TmvtKey) (t : TmvtEntry) (ord : Nat) (m : OrdMap Nat TmvtOEntry)
    (rbO : Nat → Option TmvtKey) : Prop where
  here : rbO ord = some k ↔ ∃ toe, m.get? ord = some toe
  alone : ∀ k', k' ≠ k → rbO ord ≠ some k'
  before : ∀ k', s.rbO ord = some k' → k' = k
  rbO : ∀ o, o ≠ ord → rbO o = s.rbO o
  get : ∀ o, o ≠ ord → m.get? o = t.rbTmvtO.get? o

namespace OneChanged

variable {m : OrdMap Nat TmvtOEntry} {rbO : Nat → Option TmvtKey} {n : BitVec 32}

theorem core (h : OneChanged s k t ord m rbO) (hC : Core s) (ht : s.rbTmvt k = some t) :
    Core (s.withEntries k t m rbO n) := by
  refine hC.withEntries ht (fun o => ?_) fun o k' hk' => ?_
  · by_cases ho : o = ord
    · subst ho
      exact h.here
    · rw [h.rbO o ho, h.get o ho, hC.ords]
      constructor
      · rintro ⟨t', ht', toe, hget⟩
        obtain rfl := Option.some.inj (ht.symm.trans ht')
        exact ⟨toe, hget⟩
      · rintro ⟨toe, hget⟩
        exact ⟨t, ht, toe, hget⟩
  · by_cases ho : o = ord
    · subst ho
      exact iff_of_false (h.alone k' hk') fun hs => hk' (h.before k' hs)
    · rw [h.rbO o ho]

/-- Only the entry `ord` is another one. -/
theorem entriesOf (h : OneChanged s k t ord m rbO) (ht : s.rbTmvt k = some t) :
    entriesOf (s.withEntries k t m rbO n) = Function.update (entriesOf s) ord ((m.get? ord).map t.entry) := by
  have hself : (s.withEntries k t m rbO n).rbTmvt k = some (t.withEntries m) := Function.update_self ..
  funext o
  by_cases ho : o = ord
  · subst ho
    rw [Function.update_self]
    by_cases hk : rbO o = some k
    · exact entriesOf_of hk hself
    · have hnone : rbO o = none := Option.eq_none_iff_forall_ne_some.2 fun k' hk' => by
        by_cases hkk : k' = k
        · exact hk (hkk ▸ hk')
        · exact h.alone k' hkk hk'
      have hget : m.get? o = none := Option.eq_none_iff_forall_ne_some.2 fun toe hg => hk (h.here.2 ⟨toe, hg⟩)
      rw [entriesOf_none hnone, hget]
      rfl
  · rw [Function.update_of_ne ho]
    have hrb : (s.withEntries k t m rbO n).rbO o = s.rbO o := h.rbO o ho
    cases hs : s.rbO o with
    | none => rw [entriesOf_none hs, entriesOf_none (hrb.trans hs)]
    | some k' =>
      by_cases hk : k' = k
      · subst hk
        rw [entriesOf_of hs ht, entriesOf_of (hrb.trans hs) hself]
        exact congrArg (Option.map t.entry) (h.get o ho)
      · have hne : (s.withEntries k t m rbO n).rbTmvt k' = s.rbTmvt k' := Function.update_of_ne hk ..
        simp only [SidTab.entriesOf, hrb, hs, Option.bind_some, hne]

end OneChanged

theorem oneChanged_insert (hord : s.rbO ord = none) :
    OneChanged s k t ord (t.rbTmvtO.insert ord newTmvtO) (Function.update s.rbO ord (some k)) where
  here := by rw [Function.update_self, OrdMap.get?_insert, if_pos rfl]; simp
  alone k' hk' h := by
    rw [Function.update_self] at h
    exact hk' (Option.some.inj h).symm
  before k' h := nomatch hord.symm.trans h
  rbO o ho := Function.update_of_ne ho ..
  get o ho := by rw [OrdMap.get?_insert, if_neg ho]

theorem oneChanged_erase (hord : s.rbO ord = some k) :
    OneChanged s k t ord (t.rbTmvtO.erase ord) (Function.update s.rbO ord none) where
  here := by rw [Function.update_self, OrdMap.get?_erase, if_pos rfl]; simp
  alone k' _ h := by
    rw [Function.update_self] at h
    cases h
  before k' h := Option.some.inj (h.symm.trans hord)
  rbO o ho := Function.update_of_ne ho ..
  get o ho := by rw [OrdMap.get?_erase, if_neg ho]

theorem oneChanged_modify {toe : TmvtOEntry} (hord : s.rbO ord = some k) (hget : t.rbTmvtO.get? ord = some toe)
    (f : TmvtOEntry → TmvtOEntry) : OneChanged s k t ord (t.rbTmvtO.modify ord f) s.rbO where
  here := by rw [hord, OrdMap.get?_modify, if_pos rfl, hget]; simp
  alone k' hk' h := hk' (Option.some.inj (h.symm.trans hord))
  before k' h := Option.some.inj (h.symm.trans hord)
  rbO _ _ := rfl
  get o ho := by rw [OrdMap.get?_modify, if_neg ho]

/-! ## Writes -/

/-- No class is left behind without entries. -/
structure Inv (s : EdgxSidBr) : Prop where
  tidy : Tidy s
  inUse : ∀ k t, s.rbTmvt k = some t → t.rbTmvtO.entries ≠ []

/-- What a write asks for. -/
def applied (a : Entries) : Op → Entries
  | .identParams o p _ => Function.update a o (some ⟨⟨p.addr, p.tag, p.vid⟩, SID_INVALID_STRHDL, 0⟩)
  | .delete o => Function.update a o none
  | .setStrhdl o strHdl => Function.update a o ((a o).map fun e => { e with strHdl })
  | .portPos o p =>
    Function.update a o ((a o).map fun e => { e with portMask := e.portMask ||| portBit p.port })
  | .portPosDel o p =>
    Function.update a o ((a o).map fun e => { e with portMask := e.portMask &&& ~~~portBit p.port })

/-- It is recorded when the write returns 0. -/
def record (a : Entries) (r : Op × Int) : Entries := if r.2 = 0 then applied a r.1 else a

/-- A creation that is accepted and joins a class has the VID of the class. -/
def JoinsOwn (s : EdgxSidBr) : Op → Prop
  | .identParams o p mem =>
    o ≤ SID_MAX_ORD → tagVidOk p.tag p.vid = true → p.idType = SID_NULL → s.rbO o = none →
      mem.o = true → mem.tmvtO = true →
        ∀ t, s.rbTmvt (paramsToTmvtKey p.addr p.tag p.vid) = some t → t.vid = p.vid
  | _ => True

/-- What is to hold after a write. -/
structure Recorded (s : EdgxSidBr) (op : Op) (r : Int × EdgxSidBr) : Prop where
  inv : Inv r.2
  entries : entriesOf r.2 = record (entriesOf s) (op, r.1)

theorem Recorded.failed (hI : Inv s) {op : Op} {r : Int × EdgxSidBr} (hret : r.1 ≠ 0) (hs : r.2 = s) :
    Recorded s op r := by
  refine ⟨hs ▸ hI, ?_⟩
  rw [hs]
  exact (if_neg hret).symm

theorem Recorded.of_withEntries {op : Op} {m : OrdMap Nat TmvtOEntry} {rbO : Nat → Option TmvtKey} {n : BitVec 32}
    (hT : Tidy s') (hIn : ∀ k t, s'.rbTmvt k = some t → t.rbTmvtO.entries ≠ [])
    (hS : entriesOf s' = entriesOf (s.withEntries k t m rbO n)) (h : OneChanged s k t ord m rbO)
    (ht : s.rbTmvt k = some t)
    (hrec : Function.update (entriesOf s) ord ((m.get? ord).map t.entry) = applied (entriesOf s) op) :
    Recorded s op (0, s') :=
  ⟨⟨hT, hIn⟩, by rw [hS, h.entriesOf ht, hrec]; rfl⟩

theorem entriesOf_congr (hO : s'.rbO = s.rbO) (hT : s'.rbTmvt = s.rbTmvt) : entriesOf s' = entriesOf s := by
  funext o
  rw [entriesOf, entriesOf, hO, hT]

/-- The class of an entry that is there. -/
theorem Core.class_of (hC : Core s) (h : s.rbO ord = some k) :
    ∃ t toe, s.rbTmvt k = some t ∧ t.rbTmvtO.get? ord = some toe := by
  obtain ⟨t, ht, toe, hget⟩ := (hC.ords ord k).1 h
  exact ⟨t, toe, ht, hget⟩

theorem get?_of_rbO_none (hC : Core s) (h : s.rbO ord = none) (ht : s.rbTmvt k = some t) :
    t.rbTmvtO.get? ord = none :=
  Option.eq_none_iff_forall_ne_some.2 fun toe hget => nomatch h.symm.trans ((hC.ords ord k).2 ⟨t, ht, toe, hget⟩)

/-- A tree with an entry is not empty. -/
theorem entries_ne_nil {m : OrdMap Nat TmvtOEntry} {toe : TmvtOEntry} (h : m.get? ord = some toe) : m.entries ≠ [] :=
  fun hnil => nomatch h.symm.trans (OrdMap.entries_eq_nil_iff.1 hnil ord)

theorem Inv.inUse_withEntries (hI : Inv s) {m : OrdMap Nat TmvtOEntry} {rbO : Nat → Option TmvtKey} {n : BitVec 32}
    (hm : m.entries ≠ []) : ∀ k' t', (s.withEntries k t m rbO n).rbTmvt k' = some t' → t'.rbTmvtO.entries ≠ [] := by
  intro k' t' ht'
  simp only [EdgxSidBr.withEntries, Function.update_apply] at ht'
  split at ht'
  · obtain rfl := Option.some.inj ht'
    exact hm
  · exact hI.inUse k' t' ht'

/-- A class without entries does not count. -/
theorem entriesOf_withClass (h : ∀ o, s.rbO o ≠ some k) (x : Option TmvtEntry) (rbHt : HtKey → Option HtEntry) :
    entriesOf (s.withClass k x rbHt) = entriesOf s := by
  funext o
  have hO : (s.withClass k x rbHt).rbO o = s.rbO o := rfl
  cases ho : s.rbO o with
  | none => rw [entriesOf_none ho, entriesOf_none (hO.trans ho)]
  | some k' =>
    have hk : k' ≠ k := fun he => h o (ho.trans (congrArg some he))
    have hne : (s.withClass k x rbHt).rbTmvt k' = s.rbTmvt k' := Function.update_of_ne hk ..
    simp only [entriesOf, hO, ho, Option.bind_some, hne]

theorem changeEntry_recorded (hI : Inv s) (hord : s.rbO ord = some k) (f : TmvtOEntry → TmvtOEntry) {op : Op}
    (hrec : ∀ t toe, s.rbTmvt k = some t → entriesOf s ord = some (t.entry toe) →
      Function.update (entriesOf s) ord (some (t.entry (f toe))) = applied (entriesOf s) op) :
    Recorded s op (0, changeEntry s ord k f) := by
  obtain ⟨t, toe, ht, hget⟩ := hI.tidy.core.class_of hord
  have hone := oneChanged_modify hord hget f
  have heq : changeEntry s ord k f =
      sidGenPortStrHdls (s.withEntries k t (t.rbTmvtO.modify ord f) s.rbO s.totalCnt) k := by
    simp only [changeEntry, ht]
    rfl
  obtain ⟨hT, hrb, hO⟩ := hI.tidy.gen ht (hone.core hI.tidy.core ht (n := s.totalCnt))
  have hmod : (t.rbTmvtO.modify ord f).get? ord = some (f toe) := by rw [OrdMap.get?_modify, if_pos rfl, hget]; rfl
  rw [heq]
  refine .of_withEntries hT (hrb ▸ hI.inUse_withEntries (entries_ne_nil hmod)) (entriesOf_congr hO hrb) hone ht ?_
  rw [hmod]
  exact hrec t toe ht (by rw [entriesOf_of hord ht, hget]; rfl)

theorem sidSetStrhdlWrite_recorded (hI : Inv s) (o : Nat) (strHdl : Handle) :
    Recorded s (.setStrhdl o strHdl) (sidSetStrhdlWrite s o strHdl) := by
  rw [sidSetStrhdlWrite]
  split
  · exact .failed hI (show -ENOENT ≠ 0 by decide) rfl
  rename_i k hord
  split
  · exact .failed hI (show -EINVAL ≠ 0 by decide) rfl
  refine changeEntry_recorded hI hord _ fun t toe _ hentry => ?_
  rw [applied, hentry]
  rfl

theorem sidPortPosSet_recorded (hI : Inv s) (o : Nat) (p : PortPos) (clear : Bool) :
    Recorded s (if clear then .portPosDel o p else .portPos o p) (sidPortPosSet s o p clear) := by
  have hret : -EINVAL ≠ 0 := by decide
  rw [sidPortPosSet]
  by_cases hport : s.cfg.portCnt < p.port.toNat
  · rw [if_pos hport]
    exact .failed hI hret rfl
  rw [if_neg hport]
  by_cases hpos : p.pos ≠ OUT_FAC_IN
  · rw [if_pos hpos]
    exact .failed hI hret rfl
  rw [if_neg hpos]
  cases hord : s.rbO o with
  | none => exact .failed hI (show -ENOENT ≠ 0 by decide) rfl
  | some k =>
    refine changeEntry_recorded hI hord _ fun t toe _ hentry => ?_
    cases clear with
    | true =>
      show _ = Function.update (entriesOf s) o ((entriesOf s o).map _)
      rw [hentry]
      rfl
    | false =>
      show _ = Function.update (entriesOf s) o ((entriesOf s o).map _)
      rw [hentry]
      rfl

/-- The slots of a class without entries are not used. -/
theorem Tidy.unused_of_nil (hT : Tidy s) (ht : s.rbTmvt k = some t) (hnil : t.rbTmvtO.entries = []) :
    ∀ hk ∈ t.slots, s.rbHt hk = some ⟨k, false⟩ := by
  intro hk hmem
  rw [((hT.active k t ht) hk hmem).1, content_nil s.cfg hnil]
  rfl

theorem sidDeleteWrite_recorded (hI : Inv s) (o : Nat) : Recorded s (.delete o) (sidDeleteWrite s o) := by
  rw [sidDeleteWrite]
  split
  · exact .failed hI (show -ENOENT ≠ 0 by decide) rfl
  rename_i k hord
  obtain ⟨t, toe, ht, hget⟩ := hI.tidy.core.class_of hord
  have hone := oneChanged_erase (t := t) hord
  have heq : sidORelease s o k =
      s.withEntries k t (t.rbTmvtO.erase o) (Function.update s.rbO o none) (s.totalCnt - 1) := by
    simp only [sidORelease, ht]
    rfl
  rw [heq]
  obtain ⟨hT, hrb, hO⟩ := hI.tidy.gen ht (hone.core hI.tidy.core ht (n := s.totalCnt - 1))
  have hself : (sidGenPortStrHdls (s.withEntries k t (t.rbTmvtO.erase o) (Function.update s.rbO o none)
      (s.totalCnt - 1)) k).rbTmvt k = some (t.withEntries (t.rbTmvtO.erase o)) := by
    rw [hrb]
    exact Function.update_self ..
  generalize sidGenPortStrHdls _ k = s1 at hT hrb hO hself ⊢
  have hrec : Function.update (entriesOf s) o (((t.rbTmvtO.erase o).get? o).map t.entry) =
      applied (entriesOf s) (.delete o) := by
    rw [OrdMap.get?_erase, if_pos rfl]
    rfl
  have hne : ∀ k' t', k' ≠ k → s1.rbTmvt k' = some t' → t'.rbTmvtO.entries ≠ [] := by
    intro k' t' hk ht'
    rw [hrb] at ht'
    exact hI.inUse k' t' ((Function.update_of_ne hk ..).symm.trans ht')
  simp only [hself]
  split
  · rename_i hempty
    have hnil : (t.withEntries (t.rbTmvtO.erase o)).rbTmvtO.entries = [] := by
      simpa only [sidTmvtIsEmpty, List.isEmpty_iff] using hempty
    obtain ⟨rbHt, hrel, hgone, hold⟩ := sidTmvtRelease_eq hself (hT.core.classOk k _ hself).shape
      (hT.unused_of_nil hself hnil)
    rw [hrel]
    have hnone : ∀ o', s1.rbO o' ≠ some k := by
      intro o' ho'
      obtain ⟨t', ht', toe', hget'⟩ := (hT.core.ords o' k).1 ho'
      obtain rfl := Option.some.inj (hself.symm.trans ht')
      exact entries_ne_nil hget' hnil
    refine .of_withEntries (n := s.totalCnt - 1) (hT.removeClass hself hnil hgone hold) (fun k' t' ht' => ?_)
      ((entriesOf_withClass hnone none rbHt).trans (entriesOf_congr hO hrb)) hone ht hrec
    by_cases hk : k' = k
    · subst hk
      exact nomatch (Function.update_self (f := s1.rbTmvt) ..).symm.trans ht'
    · exact hne k' t' hk ((Function.update_of_ne hk ..).symm.trans ht')
  · rename_i hempty
    refine .of_withEntries hT (fun k' t' ht' => ?_) (entriesOf_congr hO hrb) hone ht hrec
    by_cases hk : k' = k
    · subst hk
      obtain rfl := Option.some.inj (hself.symm.trans ht')
      simpa only [sidTmvtIsEmpty, List.isEmpty_iff] using hempty
    · exact hne k' t' hk ht'

/-- An entry that is put into a class with its address, tag and VID. -/
theorem sidOCreate_recorded {o : Nat} {p : IdentParams} {mem : Mem} (ht : s'.rbTmvt k = some t)
    (hT : Tidy s') (hO : s'.rbO = s.rbO) (hE : entriesOf s' = entriesOf s) (hord : s.rbO o = none)
    (hIn : ∀ k' t', k' ≠ k → s'.rbTmvt k' = some t' → t'.rbTmvtO.entries ≠ [])
    (hcls : t.cls = ⟨p.addr, p.tag, p.vid⟩) (ho : mem.o = true) (htO : mem.tmvtO = true) :
    Recorded s (.identParams o p mem) (sidOCreate s' o k mem) := by
  have hord' : s'.rbO o = none := (congrFun hO o).trans hord
  have hnew := get?_of_rbO_none hT.core hord' ht
  have hone := oneChanged_insert (k := k) (t := t) hord'
  have hget : (t.rbTmvtO.insert o newTmvtO).get? o = some newTmvtO := by rw [OrdMap.get?_insert, if_pos rfl]
  rw [sidOCreate_eq ht hord' hnew ho htO]
  refine ⟨⟨hT.insert ht hnew (hone.core hT.core ht), fun k' t' ht' => ?_⟩, ?_⟩
  · simp only [EdgxSidBr.withEntries, Function.update_apply] at ht'
    split at ht'
    · obtain rfl := Option.some.inj ht'
      exact entries_ne_nil hget
    · rename_i hk
      exact hIn k' t' hk ht'
  · rw [hone.entriesOf ht, hE, hget, record, if_pos rfl, applied, Option.map_some, TmvtEntry.entry, hcls]
    rfl

/-- A class that was just taken and is given back. -/
theorem withClass_released {rbHt rbHt' : HtKey → Option HtEntry} (hfree : s.rbTmvt k = none) (hp : Placed s k t rbHt)
    (hgone : ∀ hk ∈ t.slots, rbHt' hk = none) (hold : ∀ hk, hk ∉ t.slots → rbHt' hk = rbHt hk) :
    (s.withClass k (some t) rbHt).withClass k none rbHt' = s := by
  have hHt : rbHt' = s.rbHt := by
    funext hk
    by_cases hmem : hk ∈ t.slots
    · rw [hgone hk hmem, (hp.taken hk hmem).2.1]
    · rw [hold hk hmem, hp.others hk hmem]
  have hTmvt : Function.update s.rbTmvt k none = s.rbTmvt := by rw [← hfree, Function.update_eq_self]
  simp only [EdgxSidBr.withClass, Function.update_idem, hTmvt, hHt]

theorem sidIdentParamsWrite_recorded (hI : Inv s) {o : Nat} {p : IdentParams} {mem : Mem} (hmax : o ≤ SID_MAX_ORD)
    (hown : JoinsOwn s (.identParams o p mem)) :
    Recorded s (.identParams o p mem) (sidIdentParamsWrite s o p mem) := by
  have hC := hI.tidy.core
  rw [sidIdentParamsWrite]
  split
  · exact .failed hI (show -EINVAL ≠ 0 by decide) rfl
  rename_i hok
  replace hok : tagVidOk p.tag p.vid = true := by simpa using hok
  split
  · exact .failed hI (show -EINVAL ≠ 0 by decide) rfl
  rename_i htype
  split
  · exact .failed hI (show -EEXIST ≠ 0 by decide) rfl
  rename_i hord
  replace hord : s.rbO o = none := by simpa using hord
  dsimp only
  cases ht : s.rbTmvt (paramsToTmvtKey p.addr p.tag p.vid) with
  | some t =>
    by_cases hmem : mem.o = true ∧ mem.tmvtO = true
    · have hvid := hown hmax hok (not_not.1 htype) hord hmem.1 hmem.2 t ht
      have hcok := hC.classOk _ t ht
      obtain ⟨haddr, htag⟩ := key_inj hcok.tagVid hok hcok.key
      refine sidOCreate_recorded ht hI.tidy rfl rfl hord (fun k' t' _ => hI.inUse k' t') ?_ hmem.1 hmem.2
      rw [TmvtEntry.cls, haddr, htag, hvid]
    · obtain ⟨hret, hs⟩ : (sidOCreate s o (paramsToTmvtKey p.addr p.tag p.vid) mem).1 ≠ 0 ∧ _ = s :=
        sidOCreate_failed hmem
      exact .failed hI hret hs
  | none =>
    dsimp only
    rcases sidTmvtCreate_cases ht p.tag p.vid p.addr mem with ⟨hret, hs⟩ | ⟨t, rbHt, heq, hcls, hp⟩
    · rw [if_pos hret]
      exact .failed hI hret hs
    · rw [heq, if_neg (not_not.2 rfl)]
      dsimp only
      have hself : (s.withClass (paramsToTmvtKey p.addr p.tag p.vid) (some t) rbHt).rbTmvt
          (paramsToTmvtKey p.addr p.tag p.vid) = some t := Function.update_self ..
      by_cases hmem : mem.o = true ∧ mem.tmvtO = true
      · obtain ⟨ho, htO⟩ := hmem
        obtain ⟨haddr, htag, hvid⟩ := Cls.mk.inj hcls
        have hT := hI.tidy.addClass ht (t := t) ⟨by rw [haddr, htag, hvid], by rw [htag, hvid]; exact hok, hp.shape⟩
          hp.empty hp.taken hp.others
        have hnone : ∀ o', s.rbO o' ≠ some (paramsToTmvtKey p.addr p.tag p.vid) := by
          intro o' ho'
          obtain ⟨t', -, ht', -⟩ := hC.class_of ho'
          cases ht.symm.trans ht'
        have hrec := sidOCreate_recorded (s := s) hself hT rfl (entriesOf_withClass hnone (some t) rbHt) hord
          (fun k' t' hk ht' => hI.inUse k' t' ((Function.update_of_ne hk ..).symm.trans ht')) hcls ho htO
        have hzero : (sidOCreate (s.withClass (paramsToTmvtKey p.addr p.tag p.vid) (some t) rbHt) o
            (paramsToTmvtKey p.addr p.tag p.vid) mem).1 = 0 := by
          rw [sidOCreate_eq hself hord (get?_of_rbO_none hT.core hord hself) ho htO]
        rw [if_neg (not_not.2 hzero), ← hzero]
        exact hrec
      · -- the class that was made for it goes again
        obtain ⟨hret, hs⟩ : (sidOCreate (s.withClass (paramsToTmvtKey p.addr p.tag p.vid) (some t) rbHt) o
            (paramsToTmvtKey p.addr p.tag p.vid) mem).1 ≠ 0 ∧ _ = s.withClass _ (some t) rbHt := sidOCreate_failed hmem
        obtain ⟨rbHt', hrel, hgone, hold⟩ := sidTmvtRelease_eq hself hp.shape fun hk hm => (hp.taken hk hm).1
        rw [if_pos hret, hs, hrel, withClass_released ht hp hgone hold]
        exact .failed hI hret rfl

/-! ## Runs -/

theorem step_recorded (hI : Inv s) (op : Op) (hown : JoinsOwn s op) : Recorded s op (step s op) := by
  rw [step]
  split
  · exact .failed hI (show -EINVAL ≠ 0 by decide) rfl
  rename_i hmax
  cases op with
  | identParams o p mem => exact sidIdentParamsWrite_recorded hI (Nat.le_of_not_lt hmax) hown
  | delete o => exact sidDeleteWrite_recorded hI o
  | setStrhdl o h => exact sidSetStrhdlWrite_recorded hI o h
  | portPos o p => exact sidPortPosSet_recorded hI o p false
  | portPosDel o p => exact sidPortPosSet_recorded hI o p true

theorem init_inv (cfg : Config) : Inv (init cfg) where
  tidy := {
    core := {
      classOk := fun _ _ h => nomatch h
      owned := fun _ _ => ⟨fun ⟨_, h⟩ => (nomatch h), fun ⟨_, h, _⟩ => nomatch h⟩
      rows := fun _ _ h => nomatch h
      unused := fun _ _ h => nomatch h
      free := fun _ _ => ⟨rfl, rfl, rfl, rfl, fun _ _ => rfl⟩
      ords := fun _ _ => ⟨fun h => (nomatch h), fun ⟨_, h, _⟩ => nomatch h⟩ }
    active := fun _ _ h => nomatch h }
  inUse := fun _ _ h => nomatch h

/-- **After every run of writes in which a created entry only joins a class
with its VID, the table is exact for the entries recorded.** -/
theorem tableExact_of_joinsOwn (cfg : Config) (ops : List Op) (h : Guarded step JoinsOwn (init cfg) ops) :
    TableExact (after step (init cfg) ops) ((outs step (init cfg) ops).foldl record fun _ => none) := by
  have hrun : Inv (after step (init cfg) ops) ∧
      entriesOf (after step (init cfg) ops) = (outs step (init cfg) ops).foldl record fun _ => none := by
    refine h.sim_after (R := fun s a => Inv s ∧ entriesOf s = a) ⟨init_inv cfg, rfl⟩ ?_
    rintro s _ op ⟨hI, rfl⟩ hown
    obtain ⟨hinv, hentries⟩ := step_recorded hI op hown
    exact ⟨hinv, hentries⟩
  rw [← hrun.2]
  exact hrun.1.tidy.exact

/-- The condition is checked for each creation. -/
theorem joinsOwn_of_free {p : IdentParams} {mem : Mem} (h : s.rbTmvt (paramsToTmvtKey p.addr p.tag p.vid) = none) :
    JoinsOwn s (.identParams ord p mem) := by
  intro _ _ _ _ _ _ t ht
  exact nomatch h.symm.trans ht

theorem tableExact_of_joinsOwn_two :
    TableExact
      (after step (init ⟨64, 8, by decide, 4, by decide⟩)
        [.identParams 0 ⟨#v[0, 17, 34, 51, 68, 85], SID_TAGGED, 1, SID_NULL⟩ ⟨true, true, true, true, true⟩,
          .identParams 1 ⟨#v[0, 17, 34, 51, 68, 85], SID_ALL, 0, SID_NULL⟩ ⟨true, true, true, true, true⟩,
          .setStrhdl 1 5, .portPos 1 ⟨3, OUT_FAC_IN⟩, .delete 0])
      ((outs step (init ⟨64, 8, by decide, 4, by decide⟩)
        [.identParams 0 ⟨#v[0, 17, 34, 51, 68, 85], SID_TAGGED, 1, SID_NULL⟩ ⟨true, true, true, true, true⟩,
          .identParams 1 ⟨#v[0, 17, 34, 51, 68, 85], SID_ALL, 0, SID_NULL⟩ ⟨true, true, true, true, true⟩,
          .setStrhdl 1 5, .portPos 1 ⟨3, OUT_FAC_IN⟩, .delete 0]).foldl record fun _ => none) := by
  refine tableExact_of_joinsOwn _ _ ⟨joinsOwn_of_free rfl, joinsOwn_of_free ?_, True.intro, True.intro, True.intro,
    True.intro⟩
  exact Option.isNone_iff_eq_none.1 (by decide +kernel)

/-! ## A VID that is not checked -/

def macA : Mac := #v[0, 17, 34, 51, 68, 85]

def cfgA : Config := ⟨64, 8, by decide, 4, by decide⟩

/-- The second entry joins the class of VID 1. -/
def joinOps : List Op :=
  [.identParams 0 ⟨macA, SID_TAGGED, 1, SID_NULL⟩ ⟨true, true, true, true, true⟩,
    .identParams 1 ⟨macA, SID_TAGGED, 0x4001, SID_NULL⟩ ⟨true, true, true, true, true⟩,
    .setStrhdl 1 5, .portPos 1 ⟨3, OUT_FAC_IN⟩]

/-- Where all writes return 0, all are recorded. -/
theorem foldl_record_of_zero {ops : List Op} (h : ∀ r ∈ outs step s ops, r.2 = 0) (a : Entries) :
    (outs step s ops).foldl record a = ops.foldl applied a := by
  induction ops generalizing s a with
  | nil => rfl
  | cons op ops ih =>
    obtain ⟨hop, hops⟩ := List.forall_mem_cons.1 h
    rw [outs, List.foldl_cons, List.foldl_cons, ih hops, record, if_pos hop]

/-- The slot of VID 1 gets the handle of the entry for VID 0x4001. -/
theorem not_tableExact_joined :
    ¬ TableExact (after step (init cfgA) joinOps) ((outs step (init cfgA) joinOps).foldl record fun _ => none) := by
  have hslot : (((after step (init cfgA) joinOps).rbHt ⟨edgxSidCalcTabRows cfgA macA SID_TAGGED 1 false 0, 0⟩).bind
      fun h => (after step (init cfgA) joinOps).rbTmvt h.tmvtEntry).map TmvtEntry.cls =
      some ⟨macA, SID_TAGGED, 1⟩ := by decide +kernel
  have hused : ((after step (init cfgA) joinOps).tab
      (HtKey.pos ⟨edgxSidCalcTabRows cfgA macA SID_TAGGED 1 false 0, 0⟩)).used = true := by decide +kernel
  obtain ⟨t, hbind, hcls⟩ := Option.map_eq_some_iff.1 hslot
  obtain ⟨g, hg, ht⟩ := Option.bind_eq_some_iff.1 hbind
  rw [foldl_record_of_zero (by decide +kernel)]
  intro h
  obtain ⟨port, -, -, o, e, ⟨ho, he⟩, hgives⟩ := (h.used _ _ ⟨_, g, t, hg, rfl, ht, hcls⟩).1 hused
  replace ho : (if o = 1 then some ⟨⟨macA, SID_TAGGED, 0x4001⟩, 5, portBit 3⟩ else
      if o = 0 then some (⟨⟨macA, SID_TAGGED, 1⟩, SID_INVALID_STRHDL, 0⟩ : SidEntry) else none) = some e := by
    rw [← ho]
    by_cases h1 : o = 1 <;> simp [joinOps, applied, Function.update_apply, h1]
  split at ho
  · obtain rfl := Option.some.inj ho
    exact absurd he (by decide)
  · split at ho
    · obtain rfl := Option.some.inj ho
      exact hgives.1 rfl
    · cases ho

end TsnSwitch.SidTab
