/-
What the table is to show, in terms of the entries alone.

`Entries` is a map from ordinal numbers; `TableExact` says of each class in
it which slots it has and what they hold. `Tidy.exact` derives it from the
invariants of the trees, for the entries that are in them (`entriesOf`).
-/
import TsnSwitch.SidTab.Classes

namespace TsnSwitch.SidTab

open Fdb (Mac)
open Lib

/-! ## Entries and classes -/

structure Cls where
  addr : Mac
  tag : BitVec 32
  vid : BitVec 16
  deriving DecidableEq

structure SidEntry where
  cls : Cls
  strHdl : Handle
  portMask : BitVec 32

/-- The entry of each ordinal number. -/
abbrev Entries := Nat → Option SidEntry

/-- Ports are counted from 1. -/
def SidEntry.Gives (e : SidEntry) (port : Nat) : Prop :=
  e.strHdl ≠ SID_INVALID_STRHDL ∧ e.portMask.getLsbD port = true

def InClass (a : Entries) (c : Cls) (o : Nat) (e : SidEntry) : Prop := a o = some e ∧ e.cls = c

/-- The handle of the entry with the lowest ordinal number that gives one, or 0. -/
def HandleFor (a : Entries) (c : Cls) (port : Nat) (h : Handle) : Prop :=
  (∃ o e, InClass a c o e ∧ e.Gives port ∧ e.strHdl = h ∧
    ∀ o' < o, ∀ e', InClass a c o' e' → ¬ e'.Gives port) ∨
  (h = 0 ∧ ∀ o e, InClass a c o e → ¬ e.Gives port)

def slotCnt (c : Cls) : Nat := if c.tag = SID_ALL then 2 else 1

def TmvtEntry.cls (t : TmvtEntry) : Cls := ⟨t.addr, t.tag, t.vid⟩

/-- The trees have the slot at `pos` for the class. -/
def Owns (s : EdgxSidBr) (c : Cls) (pos : TabPos) : Prop :=
  ∃ hk h t, s.rbHt hk = some h ∧ hk.pos = pos ∧ s.rbTmvt h.tmvtEntry = some t ∧ t.cls = c

structure TableExact (s : EdgxSidBr) (a : Entries) : Prop where
  slots : ∀ c o e, InClass a c o e →
    ∃ ps : List TabPos, ps.Nodup ∧ ps.length = slotCnt c ∧ ∀ pos, Owns s c pos ↔ pos ∈ ps
  used : ∀ c pos, Owns s c pos →
    ((s.tab pos).used = true ↔ ∃ port ≥ 1, port ≤ s.cfg.portCnt ∧ ∃ o e, InClass a c o e ∧ e.Gives port)
  handles : ∀ c pos, Owns s c pos → ∀ port ≥ 1, port ≤ s.cfg.portCnt →
    HandleFor a c port ((s.tab pos).strHdl (port - 1))
  separate : ∀ c c' pos, Owns s c pos → Owns s c' pos → c = c'
  released : ∀ pos, (s.tab pos).used = true → ∃ c, Owns s c pos ∧ ∃ o e, InClass a c o e

/-! ## Entries in the trees -/

def TmvtEntry.entry (t : TmvtEntry) (toe : TmvtOEntry) : SidEntry := ⟨t.cls, toe.strHdl, toe.portMask⟩

def entriesOf (s : EdgxSidBr) : Entries := fun o =>
  (s.rbO o).bind fun k => (s.rbTmvt k).bind fun t => (t.rbTmvtO.get? o).map t.entry

variable {s s' : EdgxSidBr} {k : TmvtKey} {t : TmvtEntry} {o : Nat}

theorem entriesOf_none (h : s.rbO o = none) : entriesOf s o = none := by rw [entriesOf, h]; rfl

theorem entriesOf_of (h : s.rbO o = some k) (ht : s.rbTmvt k = some t) :
    entriesOf s o = (t.rbTmvtO.get? o).map t.entry := by
  rw [entriesOf, h, Option.bind_some, ht, Option.bind_some]

/-- The entries that are in a class of the tree. -/
theorem inClass_iff (hC : Core s) (ht : s.rbTmvt k = some t) {e : SidEntry} :
    InClass (entriesOf s) t.cls o e ↔ ∃ toe, t.rbTmvtO.get? o = some toe ∧ t.entry toe = e := by
  constructor
  · rintro ⟨ho, hcls⟩
    obtain ⟨k', ho, h⟩ := Option.bind_eq_some_iff.1 ho
    obtain ⟨t', ht', h⟩ := Option.bind_eq_some_iff.1 h
    obtain ⟨toe, hget, rfl⟩ := Option.map_eq_some_iff.1 h
    obtain ⟨haddr, htag, hvid⟩ := Cls.mk.inj hcls
    have hkey : k' = k := by rw [← (hC.classOk k' t' ht').key, ← (hC.classOk k t ht).key, haddr, htag, hvid]
    subst hkey
    obtain rfl := Option.some.inj (ht.symm.trans ht')
    exact ⟨toe, hget, rfl⟩
  · rintro ⟨toe, hget, rfl⟩
    have ho := (hC.ords o k).2 ⟨t, ht, toe, hget⟩
    exact ⟨by rw [entriesOf_of ho ht, hget]; rfl, rfl⟩

/-- An entry has its class in the tree. -/
theorem InClass.class {c : Cls} {e : SidEntry} (h : InClass (entriesOf s) c o e) :
    ∃ k t, s.rbTmvt k = some t ∧ t.cls = c := by
  obtain ⟨ho, hcls⟩ := h
  obtain ⟨k, -, h⟩ := Option.bind_eq_some_iff.1 ho
  obtain ⟨t, ht, h⟩ := Option.bind_eq_some_iff.1 h
  obtain ⟨toe, -, rfl⟩ := Option.map_eq_some_iff.1 h
  exact ⟨k, t, ht, hcls⟩

theorem owns_iff (hC : Core s) {c : Cls} {pos : TabPos} :
    Owns s c pos ↔ ∃ k t, s.rbTmvt k = some t ∧ t.cls = c ∧ ∃ hk ∈ t.slots, hk.pos = pos := by
  constructor
  · rintro ⟨hk, ⟨k, u⟩, t, hh, hpos, ht, hcls⟩
    obtain ⟨t', ht', hmem⟩ := (hC.owned hk k).1 ⟨u, hh⟩
    obtain rfl := Option.some.inj (ht.symm.trans ht')
    exact ⟨k, t, ht, hcls, hk, hmem, hpos⟩
  · rintro ⟨k, t, ht, hcls, hk, hmem, hpos⟩
    obtain ⟨u, hh⟩ := hC.owner ht hmem
    exact ⟨hk, _, t, hh, hpos, ht, hcls⟩

/-- A class of the tree is the only one with its address, tag and VID. -/
theorem class_unique (hC : Core s) {k' : TmvtKey} {t' : TmvtEntry} (ht : s.rbTmvt k = some t)
    (ht' : s.rbTmvt k' = some t') (hcls : t'.cls = t.cls) : k' = k ∧ t' = t := by
  obtain ⟨haddr, htag, hvid⟩ := Cls.mk.inj hcls
  have hkey : k' = k := by rw [← (hC.classOk k' t' ht').key, ← (hC.classOk k t ht).key, haddr, htag, hvid]
  subst hkey
  exact ⟨rfl, Option.some.inj (ht'.symm.trans ht)⟩

/-! ## The handles that are made up -/

theorem portStrHdls_fst {n i : Nat} (hi : i < n) (es : List (Nat × TmvtOEntry)) :
    (portStrHdls n es).1 i = ((es.find? fun e => e.2.gives i).map (·.2.strHdl)).getD 0 := by
  induction es with
  | nil => rfl
  | cons e es ih =>
    rw [portStrHdls, List.foldr_cons, ← portStrHdls, List.find?_cons]
    dsimp only
    cases hg : e.2.gives i with
    | true => rw [if_pos ⟨hi, rfl⟩]; rfl
    | false =>
      rw [if_neg fun h => Bool.false_ne_true h.2]
      exact ih

theorem portStrHdls_snd (n : Nat) (es : List (Nat × TmvtOEntry)) :
    (portStrHdls n es).2 = true ↔ ∃ i < n, ∃ e ∈ es, e.2.gives i = true := by
  induction es with
  | nil => simp [portStrHdls]
  | cons e es ih =>
    rw [portStrHdls, List.foldr_cons, ← portStrHdls]
    simp only [Bool.or_eq_true, ih, List.any_eq_true, List.mem_range, List.exists_mem_cons_iff]
    constructor
    · rintro (⟨i, hi, h⟩ | ⟨i, hi, h⟩)
      · exact ⟨i, hi, .inr h⟩
      · exact ⟨i, hi, .inl h⟩
    · rintro ⟨i, hi, h | h⟩
      · exact .inr ⟨i, hi, h⟩
      · exact .inl ⟨i, hi, h⟩

theorem gives_entry (t : TmvtEntry) (toe : TmvtOEntry) (i : Nat) :
    (t.entry toe).Gives (i + 1) ↔ toe.gives i = true := by
  rw [TmvtOEntry.gives, Bool.and_eq_true, decide_eq_true_iff]
  rfl

/-- The handle made up for a port is the one the entries give. -/
theorem handleFor_portStrHdls (hC : Core s) (ht : s.rbTmvt k = some t) {n i : Nat} (hi : i < n) :
    HandleFor (entriesOf s) t.cls (i + 1) ((portStrHdls n t.rbTmvtO.entries).1 i) := by
  rw [portStrHdls_fst hi]
  cases hf : t.rbTmvtO.entries.find? fun e => e.2.gives i with
  | none =>
    refine .inr ⟨rfl, fun o e he => ?_⟩
    obtain ⟨toe, hget, rfl⟩ := (inClass_iff hC ht).1 he
    rw [gives_entry]
    exact List.find?_eq_none.1 hf _ (OrdMap.get?_eq_some.1 hget)
  | some e =>
    obtain ⟨o, toe⟩ := e
    obtain ⟨hget, hg, hlow⟩ := OrdMap.find?_eq_some_iff.1 hf
    refine .inl ⟨o, t.entry toe, (inClass_iff hC ht).2 ⟨toe, hget, rfl⟩, (gives_entry t toe i).2 hg, rfl, ?_⟩
    intro o' ho' e' he'
    obtain ⟨toe', hget', rfl⟩ := (inClass_iff hC ht).1 he'
    rw [gives_entry, hlow o' ho' toe' hget']
    exact Bool.false_ne_true

theorem found_iff (hC : Core s) (ht : s.rbTmvt k = some t) (n : Nat) :
    (portStrHdls n t.rbTmvtO.entries).2 = true ↔
      ∃ port ≥ 1, port ≤ n ∧ ∃ o e, InClass (entriesOf s) t.cls o e ∧ e.Gives port := by
  rw [portStrHdls_snd]
  constructor
  · rintro ⟨i, hi, ⟨o, toe⟩, hmem, hg⟩
    refine ⟨i + 1, Nat.le_add_left 1 i, hi, o, t.entry toe, ?_, (gives_entry t toe i).2 hg⟩
    exact (inClass_iff hC ht).2 ⟨toe, OrdMap.get?_eq_some.2 hmem, rfl⟩
  · rintro ⟨port, hport, hn, o, e, he, hg⟩
    obtain ⟨toe, hget, rfl⟩ := (inClass_iff hC ht).1 he
    obtain ⟨i, rfl⟩ := Nat.exists_eq_add_of_le' hport
    exact ⟨i, hn, (o, toe), OrdMap.get?_eq_some.1 hget, (gives_entry t toe i).1 hg⟩

/-! ## From the trees to the table -/

theorem content_used (cfg : Config) : (content cfg t).used = (portStrHdls cfg.portCnt t.rbTmvtO.entries).2 := by
  rw [content]
  split
  · rename_i h
    exact h.symm
  · rename_i h
    exact (Bool.eq_false_iff.2 h).symm

/-- Where nothing is found, all handles are 0. -/
theorem content_strHdl (cfg : Config) {i : Nat} (hi : i < cfg.portCnt) :
    (content cfg t).strHdl i = (portStrHdls cfg.portCnt t.rbTmvtO.entries).1 i := by
  rw [content]
  split
  · rfl
  · rename_i h
    rw [portStrHdls_snd] at h
    have hnone : (t.rbTmvtO.entries.find? fun e => e.2.gives i) = none :=
      List.find?_eq_none.2 fun e he hg => h ⟨i, hi, e, he, hg⟩
    rw [portStrHdls_fst hi, hnone]
    rfl

theorem slots_nodup (hC : Core s) (ht : s.rbTmvt k = some t) :
    (t.slots.map HtKey.pos).Nodup ∧ (t.slots.map HtKey.pos).length = slotCnt t.cls := by
  cases (hC.classOk k t ht).shape with
  | one k0 htag h0 h1 =>
    rw [TmvtEntry.slots, h0, h1, slotCnt, TmvtEntry.cls, if_neg htag]
    exact ⟨List.pairwise_singleton .., rfl⟩
  | two k0 k1 hne htag h0 h1 =>
    have hmem0 : k0 ∈ t.slots := by simp [TmvtEntry.slots, h0]
    have hmem1 : k1 ∈ t.slots := by simp [TmvtEntry.slots, h1]
    obtain ⟨u0, hh0⟩ := hC.owner ht hmem0
    obtain ⟨u1, hh1⟩ := hC.owner ht hmem1
    rw [TmvtEntry.slots, h0, h1, slotCnt, TmvtEntry.cls, if_pos htag]
    exact ⟨by simpa using hC.pos_ne hh0 hh1 hne, rfl⟩

/-- **Where the trees are in order, the table is exact for the entries in
them.** -/
theorem Tidy.exact (hT : Tidy s) : TableExact s (entriesOf s) := by
  have hC := hT.core
  refine ⟨fun c o e he => ?_, fun c pos hown => ?_, fun c pos hown port hport hn => ?_,
    fun c c' pos hown hown' => ?_, fun pos hused => ?_⟩
  · obtain ⟨k, t, ht, rfl⟩ := he.class
    obtain ⟨hnodup, hlen⟩ := slots_nodup hC ht
    refine ⟨_, hnodup, hlen, fun pos => ?_⟩
    rw [owns_iff hC, List.mem_map]
    constructor
    · rintro ⟨k', t', ht', hcls, hmem⟩
      obtain ⟨-, rfl⟩ := class_unique hC ht ht' hcls
      exact hmem
    · exact fun hmem => ⟨k, t, ht, rfl, hmem⟩
  · obtain ⟨k, t, ht, rfl, hk, hmem, rfl⟩ := (owns_iff hC).1 hown
    rw [((hT.active k t ht) hk hmem).2.used, content_used, found_iff hC ht]
  · obtain ⟨k, t, ht, rfl, hk, hmem, rfl⟩ := (owns_iff hC).1 hown
    obtain ⟨i, rfl⟩ := Nat.exists_eq_add_of_le' hport
    rw [Nat.add_sub_cancel, ((hT.active k t ht) hk hmem).2.strHdl i hn, content_strHdl s.cfg hn]
    exact handleFor_portStrHdls hC ht hn
  · obtain ⟨hk, h, t, hh, hpos, ht, rfl⟩ := hown
    obtain ⟨hk', h', t', hh', hpos', ht', rfl⟩ := hown'
    obtain rfl := pos_inj (hC.rows hk h hh) (hC.rows hk' h' hh') (hpos.trans hpos'.symm)
    obtain rfl := Option.some.inj (hh.symm.trans hh')
    rw [Option.some.inj (ht.symm.trans ht')]
  · by_cases hno : ∀ hk h, s.rbHt hk = some h → hk.pos ≠ pos
    · exact absurd ((hC.free pos hno).used.symm.trans hused) Bool.false_ne_true
    · push Not at hno
      obtain ⟨hk, ⟨k, u⟩, hh, rfl⟩ := hno
      obtain ⟨t, ht, hmem⟩ := (hC.owned hk k).1 ⟨u, hh⟩
      refine ⟨t.cls, ⟨hk, _, t, hh, rfl, ht, rfl⟩, ?_⟩
      rw [((hT.active k t ht) hk hmem).2.used, content_used, found_iff hC ht] at hused
      obtain ⟨-, -, -, o, e, he, -⟩ := hused
      exact ⟨o, e, he⟩

end TsnSwitch.SidTab
