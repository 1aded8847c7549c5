/-
Slots that are found by the same frames.

Which entry gives the handle is decided in a class, by the ordinal numbers of
its entries. A class of all frames has slots with the match key of two other
classes, those of tagged and of priority frames with VID 0, and between these
classes nothing is decided. Each match key has one handle for a port just when
the entries of such classes ask for the same handles (`onePerKey_iff`).
-/
import TsnSwitch.SidTab.Places
import TsnSwitch.SidTab.ReadBack

namespace TsnSwitch.SidTab

open Fdb (Mac)
open Lib

/-! ## Match keys -/

/-- What a slot is found by: its fields, and the rows where it is looked for. -/
structure MatchKey where
  mac : Mac
  vid : BitVec 16
  matchVlan : Bool
  rows : Fin 4 → BitVec 16

def matchKey (cfg : Config) (mac : Mac) (tag : BitVec 32) (vid : BitVec 16) : MatchKey :=
  ⟨mac, vid, getMatchVlan tag vid, edgxSidCalcTabRows cfg mac tag vid false⟩

/-- A used slot with a match key. -/
structure Holds (s : EdgxSidBr) (pos : TabPos) (key : MatchKey) : Prop where
  used : (s.tab pos).used = true
  mac : (s.tab pos).mac = key.mac
  vid : (s.tab pos).vid = key.vid
  matchVlan : (s.tab pos).matchVlan = key.matchVlan
  valid : key.rows pos.2 ≠ SID_TAB_INVALID
  row : pos.1 = (key.rows pos.2).setWidth 12

/-- The tags of a class. -/
def Cls.tags (c : Cls) : List (BitVec 32) := if c.tag = SID_ALL then [SID_TAGGED, SID_PRIORITY] else [c.tag]

/-- The frames of a match key are in the class. -/
def Covers (cfg : Config) (c : Cls) (key : MatchKey) : Prop := ∃ tag ∈ c.tags, matchKey cfg c.addr tag c.vid = key

/-- The handle of the entry with the lowest ordinal number among all that cover
the key and give the port one, or 0. -/
def HandleAmong (cfg : Config) (a : Entries) (key : MatchKey) (port : Nat) (h : Handle) : Prop :=
  (∃ o e, a o = some e ∧ Covers cfg e.cls key ∧ e.Gives port ∧ e.strHdl = h ∧
    ∀ o' < o, ∀ e', a o' = some e' → Covers cfg e'.cls key → ¬ e'.Gives port) ∨
  (h = 0 ∧ ∀ o e, a o = some e → Covers cfg e.cls key → ¬ e.Gives port)

/-- No match key has two handles for a port, and the one it has is that of the
lowest ordinal number. -/
structure OnePerKey (s : EdgxSidBr) (a : Entries) : Prop where
  same : ∀ mac tag vid pos pos', Holds s pos (matchKey s.cfg mac tag vid) → Holds s pos' (matchKey s.cfg mac tag vid) →
    ∀ i < s.cfg.portCnt, (s.tab pos).strHdl i = (s.tab pos').strHdl i
  lowest : ∀ mac tag vid pos, Holds s pos (matchKey s.cfg mac tag vid) → ∀ port ≥ 1, port ≤ s.cfg.portCnt →
    HandleAmong s.cfg a (matchKey s.cfg mac tag vid) port ((s.tab pos).strHdl (port - 1))

/-! ## Entries that clash -/

/-- Two classes have a match key in common. -/
def Overlap (cfg : Config) (c c' : Cls) : Prop := ∃ mac tag vid,
  Covers cfg c (matchKey cfg mac tag vid) ∧ Covers cfg c' (matchKey cfg mac tag vid)

/-- Some entry of the class gives a port a handle. -/
def Assigns (cfg : Config) (a : Entries) (c : Cls) : Prop :=
  ∃ port ≥ 1, port ≤ cfg.portCnt ∧ ∃ o e, InClass a c o e ∧ e.Gives port

/-- Overlapping classes that assign handles assign the same ones. -/
def NoClash (cfg : Config) (a : Entries) : Prop := ∀ c c', Overlap cfg c c' → Assigns cfg a c → Assigns cfg a c' →
  ∀ port ≥ 1, port ≤ cfg.portCnt → ∀ h h', HandleFor a c port h → HandleFor a c' port h' → h = h'

theorem HandleFor.unique {a : Entries} {c : Cls} {port : Nat} {h h' : Handle} (hh : HandleFor a c port h)
    (hh' : HandleFor a c port h') : h = h' := by
  rcases hh with ⟨o, e, hin, hg, rfl, hlow⟩ | ⟨rfl, hnone⟩
  · rcases hh' with ⟨o', e', hin', hg', rfl, hlow'⟩ | ⟨-, hnone⟩
    · rcases lt_trichotomy o o' with hlt | rfl | hlt
      · exact absurd hg (hlow' o hlt e hin)
      · rw [Option.some.inj (hin.1.symm.trans hin'.1)]
      · exact absurd hg' (hlow o' hlt e' hin')
    · exact absurd hg (hnone o e hin)
  · rcases hh' with ⟨o', e', hin', hg', -, -⟩ | ⟨rfl, -⟩
    · exact absurd hg' (hnone o' e' hin')
    · rfl

/-! ## Classes and slots -/

section Slots

variable {s : EdgxSidBr} {k : TmvtKey} {t : TmvtEntry}

theorem getMatchVlan_tags {c : Cls} (h : tagVidOk c.tag c.vid = true) {tag : BitVec 32} (htag : tag ∈ c.tags) :
    getMatchVlan tag c.vid = getMatchVlan c.tag c.vid := by
  rw [Cls.tags] at htag
  split at htag
  · rename_i hall
    exact getMatchVlan_all h hall tag
  · rw [List.mem_singleton.1 htag]

theorem tags_one (h : t.tag ≠ SID_ALL) : t.cls.tags = [t.tag] := if_neg h

theorem tags_two (h : t.tag = SID_ALL) : t.cls.tags = [SID_TAGGED, SID_PRIORITY] := if_pos h

theorem slot_tag (hok : ClassOk k t) (hrows : t.InRows s.cfg) {hk : HtKey} (hmem : hk ∈ t.slots) :
    ∃ tag ∈ t.cls.tags, t.InRow s.cfg tag hk := by
  cases hok.shape with
  | one k0 htag h0 h1 =>
    rw [TmvtEntry.slots, h0, h1, Option.toList_some, Option.toList_none, List.append_nil, List.mem_singleton] at hmem
    subst hmem
    have hrow := hrows.first hk h0
    rw [TmvtEntry.tag0, if_neg htag] at hrow
    exact ⟨t.tag, by simp [tags_one htag], hrow⟩
  | two k0 k1 hne htag h0 h1 =>
    simp only [TmvtEntry.slots, h0, h1, Option.toList_some, List.cons_append, List.nil_append, List.mem_cons,
      List.not_mem_nil, or_false] at hmem
    rcases hmem with rfl | rfl
    · have hrow := hrows.first hk h0
      rw [TmvtEntry.tag0, if_pos htag] at hrow
      exact ⟨SID_TAGGED, by simp [tags_two htag], hrow⟩
    · exact ⟨SID_PRIORITY, by simp [tags_two htag], hrows.second hk h1⟩

theorem tag_slot (hok : ClassOk k t) (hrows : t.InRows s.cfg) {tag : BitVec 32} (htag : tag ∈ t.cls.tags) :
    ∃ hk ∈ t.slots, t.InRow s.cfg tag hk := by
  cases hok.shape with
  | one k0 hne h0 h1 =>
    have hrow := hrows.first k0 h0
    rw [tags_one hne, List.mem_singleton] at htag
    rw [TmvtEntry.tag0, if_neg hne, ← htag] at hrow
    exact ⟨k0, by simp [TmvtEntry.slots, h0], hrow⟩
  | two k0 k1 hne hall h0 h1 =>
    rw [tags_two hall, List.mem_cons, List.mem_singleton] at htag
    rcases htag with rfl | rfl
    · have hrow := hrows.first k0 h0
      rw [TmvtEntry.tag0, if_pos hall] at hrow
      exact ⟨k0, by simp [TmvtEntry.slots, h0], hrow⟩
    · exact ⟨k1, by simp [TmvtEntry.slots, h1], hrows.second k1 h1⟩

/-- A slot of an active class that assigns a handle holds the match key of its tag. -/
theorem holds_of_slot (hT : Tidy s) (ht : s.rbTmvt k = some t) (hass : Assigns s.cfg (entriesOf s) t.cls)
    {hk : HtKey} (hmem : hk ∈ t.slots) {tag : BitVec 32} (htag : tag ∈ t.cls.tags) (hrow : t.InRow s.cfg tag hk) :
    Holds s hk.pos (matchKey s.cfg t.addr tag t.vid) := by
  have hshow := (hT.active k t ht hk hmem).2
  have hused : (content s.cfg t).used = true := by
    rw [content_used, found_iff hT.core ht]
    exact hass
  rw [content_used_eq_true hused] at hshow
  refine ⟨hshow.used, hshow.mac, hshow.vid, ?_, ?_, ?_⟩
  · exact hshow.matchVlan.trans (getMatchVlan_tags (c := t.cls) (hT.core.classOk k t ht).tagVid htag).symm
  · exact fun hinv => hrow.valid (hrow.row.trans hinv)
  · exact congrArg (BitVec.setWidth 12) hrow.row

/-- A class that assigns handles has a slot for the frames of each of its tags. -/
theorem Assigns.slot (hT : Tidy s) (hrows : InRows s.cfg s) {c : Cls} (hass : Assigns s.cfg (entriesOf s) c) {key : MatchKey}
    (hcov : Covers s.cfg c key) : ∃ pos, Holds s pos key ∧
      ∀ port ≥ 1, port ≤ s.cfg.portCnt → HandleFor (entriesOf s) c port ((s.tab pos).strHdl (port - 1)) := by
  obtain ⟨-, -, -, o, e, hin, -⟩ := id hass
  obtain ⟨k, t, ht, rfl⟩ := hin.class
  obtain ⟨tag, htag, rfl⟩ := hcov
  have hok := hT.core.classOk k t ht
  obtain ⟨hk, hmem, hrow⟩ := tag_slot hok (hrows.classes k t ht) htag
  refine ⟨hk.pos, holds_of_slot hT ht hass hmem htag hrow, fun port hport hn => ?_⟩
  exact hT.exact.handles t.cls hk.pos ((owns_iff hT.core).2 ⟨k, t, ht, rfl, hk, hmem, rfl⟩) port hport hn

/-- A slot with a match key is of a class that covers it. -/
theorem Holds.class (hT : Tidy s) (hrows : InRows s.cfg s) {pos : TabPos} {mac : Mac} {tag : BitVec 32} {vid : BitVec 16}
    (h : Holds s pos (matchKey s.cfg mac tag vid)) : ∃ c, Covers s.cfg c (matchKey s.cfg mac tag vid) ∧
      Assigns s.cfg (entriesOf s) c ∧
      ∀ port ≥ 1, port ≤ s.cfg.portCnt → HandleFor (entriesOf s) c port ((s.tab pos).strHdl (port - 1)) := by
  obtain ⟨c, hown, -⟩ := hT.exact.released pos h.used
  have hass := (hT.exact.used c pos hown).1 h.used
  refine ⟨c, ?_, hass, hT.exact.handles c pos hown⟩
  obtain ⟨k, t, ht, rfl, hk, hmem, rfl⟩ := (owns_iff hT.core).1 hown
  have hok := hT.core.classOk k t ht
  obtain ⟨tag', htag', hrow⟩ := slot_tag hok (hrows.classes k t ht) hmem
  have hslot := holds_of_slot hT ht hass hmem htag' hrow
  have hmac : t.addr = mac := hslot.mac.symm.trans h.mac
  have hvid : t.vid = vid := hslot.vid.symm.trans h.vid
  have hmatch : getMatchVlan tag' t.vid = getMatchVlan tag vid := hslot.matchVlan.symm.trans h.matchVlan
  subst hmac hvid
  -- both rows fit the register, so the slot is in the row of the key
  have hlt := tabRow_lt s.cfg hslot.valid
  have hlt' := tabRow_lt s.cfg h.valid
  have hset : (edgxSidCalcTabRows s.cfg t.addr tag' t.vid false hk.pos.2).setWidth 12 =
      (edgxSidCalcTabRows s.cfg t.addr tag t.vid false hk.pos.2).setWidth 12 := hslot.row.symm.trans h.row
  have hpos := congrArg BitVec.toNat hset
  rw [BitVec.toNat_setWidth, BitVec.toNat_setWidth, Nat.mod_eq_of_lt hlt, Nat.mod_eq_of_lt hlt'] at hpos
  have hrows' := rows_eq hmatch hslot.valid (BitVec.eq_of_toNat_eq hpos)
  have hkey : matchKey s.cfg t.addr tag' t.vid = matchKey s.cfg t.addr tag t.vid := by
    rw [matchKey, matchKey, hmatch, hrows']
  exact ⟨tag', htag', hkey⟩

/-- The entry with the lowest ordinal number, where some entry covers the key. -/
theorem exists_lowest {cfg : Config} {a : Entries} {key : MatchKey} {port : Nat}
    (h : ∃ o e, a o = some e ∧ Covers cfg e.cls key ∧ e.Gives port) :
    ∃ o e, a o = some e ∧ Covers cfg e.cls key ∧ e.Gives port ∧
      ∀ o' < o, ∀ e', a o' = some e' → Covers cfg e'.cls key → ¬ e'.Gives port := by
  classical
  obtain ⟨e, he, hcov, hg⟩ := Nat.find_spec h
  exact ⟨Nat.find h, e, he, hcov, hg, fun o' ho' e' he' hcov' hg' => Nat.find_min h ho' ⟨e', he', hcov', hg'⟩⟩

theorem onePerKey_of_noClash (hT : Tidy s) (hrows : InRows s.cfg s) (h : NoClash s.cfg (entriesOf s)) :
    OnePerKey s (entriesOf s) := by
  constructor
  · intro mac tag vid pos pos' hpos hpos' i hi
    obtain ⟨c, hcov, hass, hfor⟩ := hpos.class hT hrows
    obtain ⟨c', hcov', hass', hfor'⟩ := hpos'.class hT hrows
    exact h c c' ⟨mac, tag, vid, hcov, hcov'⟩ hass hass' (i + 1) (Nat.le_add_left 1 i) hi _ _
      (hfor (i + 1) (Nat.le_add_left 1 i) hi) (hfor' (i + 1) (Nat.le_add_left 1 i) hi)
  · intro mac tag vid pos hpos port hport hn
    obtain ⟨c, hcov, hass, hfor⟩ := hpos.class hT hrows
    by_cases hsome : ∃ o e, entriesOf s o = some e ∧ Covers s.cfg e.cls (matchKey s.cfg mac tag vid) ∧ e.Gives port
    · obtain ⟨o, e, he, hcov', hg, hlow⟩ := exists_lowest hsome
      have hown : HandleFor (entriesOf s) e.cls port e.strHdl :=
        .inl ⟨o, e, ⟨he, rfl⟩, hg, rfl, fun o' ho' e' he' => hlow o' ho' e' he'.1 (he'.2 ▸ hcov')⟩
      have heq := h e.cls c ⟨mac, tag, vid, hcov', hcov⟩ ⟨port, hport, hn, o, e, ⟨he, rfl⟩, hg⟩ hass port hport hn _ _
        hown (hfor port hport hn)
      exact .inl ⟨o, e, he, hcov', hg, heq, hlow⟩
    · push Not at hsome
      rcases hfor port hport hn with ⟨o, e, hin, hg, -⟩ | ⟨hzero, -⟩
      · exact absurd hg (hsome o e hin.1 (hin.2 ▸ hcov))
      · exact .inr ⟨hzero, hsome⟩

/-- Slots of one match key with one handle: the entries behind them do not clash. -/
theorem OnePerKey.noClash (hT : Tidy s) (hrows : InRows s.cfg s) (h : OnePerKey s (entriesOf s)) :
    NoClash s.cfg (entriesOf s) := by
  rintro c c' ⟨mac, tag, vid, hcov, hcov'⟩ hass hass' port hport hn v v' hv hv'
  obtain ⟨pos, hpos, hfor⟩ := hass.slot hT hrows hcov
  obtain ⟨pos', hpos', hfor'⟩ := hass'.slot hT hrows hcov'
  rw [hv.unique (hfor port hport hn), hv'.unique (hfor' port hport hn)]
  exact h.same mac tag vid pos pos' hpos hpos' (port - 1) (by omega)

end Slots

/-! ## Runs -/

theorem after_inRows (cfg : Config) (ops : List Op) : InRows cfg (after step (init cfg) ops) := by
  induction ops using List.reverseRecOn with
  | nil => exact init_inRows cfg
  | append_singleton ops op ih =>
    rw [after_concat]
    exact step_inRows ih op

/-- **A match key has one handle for each port**, that of the lowest ordinal number,
after a run of writes just when no entries clash. -/
theorem onePerKey_iff (cfg : Config) (ops : List Op) (h : Guarded step Apart (init cfg) ops) :
    OnePerKey (after step (init cfg) ops) ((outs step (init cfg) ops).foldl record fun _ => none) ↔
      NoClash cfg ((outs step (init cfg) ops).foldl record fun _ => none) := by
  obtain ⟨hinv, hentries⟩ := after_recorded h
  have hrows := after_inRows cfg ops
  rw [← hentries]
  generalize after step (init cfg) ops = s at hinv hrows ⊢
  have hcfg := hrows.probed
  subst hcfg
  exact ⟨OnePerKey.noClash hinv.tidy hrows, onePerKey_of_noClash hinv.tidy hrows⟩

theorem onePerKey_iff_two :
    OnePerKey (after step (init cfgA) apartOps) ((outs step (init cfgA) apartOps).foldl record fun _ => none) ↔
      NoClash cfgA ((outs step (init cfgA) apartOps).foldl record fun _ => none) :=
  onePerKey_iff cfgA apartOps apartOps_apart

/-- Tagged frames of an address get handle 5 at port 1, and all its frames handle 6. -/
def clashOps : List Op :=
  [.identParams 0 ⟨macA, SID_TAGGED, 0, SID_NULL⟩ ⟨true, true, true, true, true⟩,
    .setStrhdl 0 5, .portPos 0 ⟨1, OUT_FAC_IN⟩,
    .identParams 1 ⟨macA, SID_ALL, 0, SID_NULL⟩ ⟨true, true, true, true, true⟩,
    .setStrhdl 1 6, .portPos 1 ⟨1, OUT_FAC_IN⟩]

/-- The place of tagged frames with any VID in a column. -/
def placeA (col : Fin 4) : TabPos := HtKey.pos ⟨edgxSidCalcTabRows cfgA macA SID_TAGGED 0 false col, col⟩

/-- Two slots have the match key of the tagged frames, with handles 5 and 6. -/
theorem not_onePerKey_clash :
    Holds (after step (init cfgA) clashOps) (placeA 2) (matchKey cfgA macA SID_TAGGED 0) ∧
    Holds (after step (init cfgA) clashOps) (placeA 3) (matchKey cfgA macA SID_TAGGED 0) ∧
    ((after step (init cfgA) clashOps).tab (placeA 2)).strHdl 0 = 5 ∧
    ((after step (init cfgA) clashOps).tab (placeA 3)).strHdl 0 = 6 ∧
    ¬ OnePerKey (after step (init cfgA) clashOps) ((outs step (init cfgA) clashOps).foldl record fun _ => none) := by
  have hcfg := (after_inRows cfgA clashOps).probed
  have hholds : ∀ col : Fin 4, col = 2 ∨ col = 3 →
      Holds (after step (init cfgA) clashOps) (placeA col) (matchKey cfgA macA SID_TAGGED 0) := by
    rintro col (rfl | rfl) <;>
      exact ⟨by decide +kernel, by decide +kernel, by decide +kernel, by decide +kernel, by decide +kernel, rfl⟩
  have h5 : ((after step (init cfgA) clashOps).tab (placeA 2)).strHdl 0 = 5 := by decide +kernel
  have h6 : ((after step (init cfgA) clashOps).tab (placeA 3)).strHdl 0 = 6 := by decide +kernel
  refine ⟨hholds 2 (.inl rfl), hholds 3 (.inr rfl), h5, h6, fun h => ?_⟩
  have hsame := h.same macA SID_TAGGED 0 (placeA 2) (placeA 3)
  rw [hcfg] at hsame
  have heq := hsame (hholds 2 (.inl rfl)) (hholds 3 (.inr rfl)) 0 (by decide)
  rw [h5, h6] at heq
  exact absurd heq (by decide)

end TsnSwitch.SidTab
