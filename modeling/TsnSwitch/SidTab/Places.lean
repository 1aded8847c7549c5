/-
Where the slots of a class lie: in the rows that are calculated for its address
and VID and the tag of the slot (`step_inRows`), which for a class of all frames
is a tag for each of its two slots.

The rows of two tags differ by one bit of the hash, in all columns alike
(`rows_eq`).
-/
import TsnSwitch.SidTab.Writes

namespace TsnSwitch.SidTab

open Fdb (Mac)
open Lib

/-! ## Rows of two tags -/

/-- The bit of tagged frames, in each of the four column hashes. -/
def taggedBits : BitVec 64 := 0x0020002000200020

theorem rowHash_tag (mac : Mac) (tag : BitVec 32) (vid : BitVec 16) :
    rowHash mac tag vid false = rowHash mac SID_ALL vid false ^^^ if tag = SID_TAGGED then taggedBits else 0 := by
  have hall : ¬ SID_ALL = SID_TAGGED := by decide
  have hbits : BitVec.twoPow 64 5 <<< 48 ||| BitVec.twoPow 64 5 <<< 32 ||| BitVec.twoPow 64 5 <<< 16 |||
      BitVec.twoPow 64 5 = taggedBits := by decide
  have hzero : (0 : BitVec 64) <<< 48 ||| (0 : BitVec 64) <<< 32 ||| (0 : BitVec 64) <<< 16 ||| 0 = 0 := by decide
  simp only [rowHash, if_neg hall, Bool.false_eq_true, if_false, hzero]
  by_cases htag : tag = SID_TAGGED
  · rw [if_pos htag, if_pos htag, hbits]
    simp
  · rw [if_neg htag, if_neg htag, hzero]
    simp

/-- The row of a column that is used, bit by bit. -/
theorem tabRow_bit (cfg : Config) (mac : Mac) (tag : BitVec 32) (vid : BitVec 16) {col : Fin 4}
    (hcol : ¬ (col < 2 && !getMatchVlan tag vid) = true) {i : Nat} (hi : i < 16) :
    (edgxSidCalcTabRows cfg mac tag vid false col).getLsbD i =
      ((rowHash mac tag vid false).getLsbD (16 * col.val + i) && (cfg.tabRowCnt.setWidth 64 - 1 : BitVec 64).getLsbD i) := by
  rw [edgxSidCalcTabRows, if_neg hcol, BitVec.getLsbD_setWidth, BitVec.getLsbD_and, BitVec.getLsbD_ushiftRight,
    decide_eq_true hi, Bool.true_and]

theorem taggedBits_bit (col : Fin 4) {i : Nat} (hi : i < 16) :
    taggedBits.getLsbD (16 * col.val + i) = decide (i = 5) := by
  have h : ∀ (c : Fin 4) (j : Fin 16), taggedBits.getLsbD (16 * c.val + j.val) = decide (j.val = 5) := by decide
  exact h col ⟨i, hi⟩

theorem rowHash_bit (mac : Mac) (tag : BitVec 32) (vid : BitVec 16) (col : Fin 4) {i : Nat} (hi : i < 16) :
    (rowHash mac tag vid false).getLsbD (16 * col.val + i) =
      ((rowHash mac SID_ALL vid false).getLsbD (16 * col.val + i)).xor (decide (tag = SID_TAGGED) && decide (i = 5)) := by
  rw [rowHash_tag, BitVec.getLsbD_xor]
  split
  · rename_i htag
    rw [taggedBits_bit col hi, decide_eq_true htag, Bool.true_and]
  · rename_i htag
    rw [decide_eq_false htag, Bool.false_and]
    simp

/-- Tags with one row in a column have one row in every column. -/
theorem rows_eq {cfg : Config} {mac : Mac} {tag tag' : BitVec 32} {vid : BitVec 16} {col : Fin 4}
    (hmatch : getMatchVlan tag vid = getMatchVlan tag' vid)
    (hvalid : edgxSidCalcTabRows cfg mac tag vid false col ≠ SID_TAB_INVALID)
    (h : edgxSidCalcTabRows cfg mac tag vid false col = edgxSidCalcTabRows cfg mac tag' vid false col) :
    edgxSidCalcTabRows cfg mac tag vid false = edgxSidCalcTabRows cfg mac tag' vid false := by
  have hcol : ¬ (col < 2 && !getMatchVlan tag vid) = true := fun hc => hvalid (if_pos hc)
  -- the masked bit 5 tells the tags apart in this column, or in none
  have hfive : (decide (tag = SID_TAGGED)).xor (decide (tag' = SID_TAGGED)) = false ∨
      (cfg.tabRowCnt.setWidth 64 - 1 : BitVec 64).getLsbD 5 = false := by
    have hbit := congrArg (BitVec.getLsbD · 5) h
    rw [tabRow_bit cfg mac tag vid hcol (by decide), tabRow_bit cfg mac tag' vid (hmatch ▸ hcol) (by decide),
      rowHash_bit mac tag vid col (by decide), rowHash_bit mac tag' vid col (by decide)] at hbit
    generalize (rowHash mac SID_ALL vid false).getLsbD (16 * col.val + 5) = b at hbit
    generalize (cfg.tabRowCnt.setWidth 64 - 1 : BitVec 64).getLsbD 5 = m at hbit ⊢
    generalize decide (tag = SID_TAGGED) = t at hbit ⊢
    generalize decide (tag' = SID_TAGGED) = t' at hbit ⊢
    revert b m t t'
    decide
  funext c
  by_cases hc : (c < 2 && !getMatchVlan tag vid) = true
  · rw [edgxSidCalcTabRows, edgxSidCalcTabRows, if_pos hc, if_pos (hmatch ▸ hc)]
  · refine BitVec.eq_of_getLsbD_eq fun i hi => ?_
    rw [tabRow_bit cfg mac tag vid hc hi, tabRow_bit cfg mac tag' vid (hmatch ▸ hc) hi, rowHash_bit mac tag vid c hi,
      rowHash_bit mac tag' vid c hi]
    by_cases h5 : i = 5
    · subst h5
      generalize (rowHash mac SID_ALL vid false).getLsbD (16 * c.val + 5) = b
      generalize (cfg.tabRowCnt.setWidth 64 - 1 : BitVec 64).getLsbD 5 = m at hfive ⊢
      generalize decide (tag = SID_TAGGED) = t at hfive ⊢
      generalize decide (tag' = SID_TAGGED) = t' at hfive ⊢
      revert b m t t'
      decide
    · simp [h5]

/-! ## The rows of the slots -/

/-- The tag of the first slot. -/
def TmvtEntry.tag0 (t : TmvtEntry) : BitVec 32 := if t.tag = SID_ALL then SID_TAGGED else t.tag

/-- A slot in the rows of a tag. -/
structure TmvtEntry.InRow (cfg : Config) (t : TmvtEntry) (tag : BitVec 32) (hk : HtKey) : Prop where
  row : hk.row = edgxSidCalcTabRows cfg t.addr tag t.vid false hk.col
  valid : hk.row ≠ SID_TAB_INVALID

/-- The slots of a class are in the rows of their tags. -/
structure TmvtEntry.InRows (cfg : Config) (t : TmvtEntry) : Prop where
  first : ∀ hk, t.htEntry0 = some hk → t.InRow cfg t.tag0 hk
  second : ∀ hk, t.htEntry1 = some hk → t.InRow cfg SID_PRIORITY hk

/-- So are those of all classes, and what was probed stays. -/
structure InRows (cfg : Config) (s : EdgxSidBr) : Prop where
  probed : s.cfg = cfg
  classes : ∀ k t, s.rbTmvt k = some t → t.InRows cfg

section InRows

variable {cfg : Config} {s s' : EdgxSidBr} {k : TmvtKey}

theorem InRows.of_eq (h : InRows cfg s) (hcfg : s'.cfg = s.cfg) (hrb : s'.rbTmvt = s.rbTmvt) : InRows cfg s' :=
  ⟨hcfg.trans h.probed, fun k t ht => h.classes k t (hrb ▸ ht)⟩

/-- A class is changed, or comes or goes. -/
theorem InRows.update (h : InRows cfg s) (hcfg : s'.cfg = s.cfg) {x : Option TmvtEntry}
    (hrb : s'.rbTmvt = Function.update s.rbTmvt k x) (hx : ∀ t ∈ x, t.InRows cfg) : InRows cfg s' := by
  refine ⟨hcfg.trans h.probed, fun k' t ht => ?_⟩
  rw [hrb, Function.update_apply] at ht
  split at ht
  · exact hx t ht
  · exact h.classes k' t ht

theorem TmvtEntry.InRows.withEntries {t : TmvtEntry} (h : t.InRows cfg) (m : OrdMap Nat TmvtOEntry) :
    ({ t with rbTmvtO := m } : TmvtEntry).InRows cfg :=
  ⟨fun hk h0 => ⟨(h.first hk h0).row, (h.first hk h0).valid⟩, fun hk h1 => ⟨(h.second hk h1).row, (h.second hk h1).valid⟩⟩

theorem sidHtDeactivate_same (s : EdgxSidBr) (hk : HtKey) :
    (sidHtDeactivate s hk).cfg = s.cfg ∧ (sidHtDeactivate s hk).rbTmvt = s.rbTmvt := by
  rw [sidHtDeactivate]
  split
  · exact ⟨rfl, rfl⟩
  · split <;> exact ⟨rfl, rfl⟩

theorem sidHtActivate_same (s : EdgxSidBr) (hk : HtKey) (tag : BitVec 32) (strHdl : Nat → Handle) :
    (sidHtActivate s hk tag strHdl).cfg = s.cfg ∧ (sidHtActivate s hk tag strHdl).rbTmvt = s.rbTmvt := by
  rw [sidHtActivate]
  split
  · exact ⟨rfl, rfl⟩
  · split <;> exact ⟨rfl, rfl⟩

theorem onSlot_same {f : EdgxSidBr → HtKey → EdgxSidBr}
    (hf : ∀ s hk, (f s hk).cfg = s.cfg ∧ (f s hk).rbTmvt = s.rbTmvt) (hk : Option HtKey) (s : EdgxSidBr) :
    (onSlot hk f s).cfg = s.cfg ∧ (onSlot hk f s).rbTmvt = s.rbTmvt := by
  cases hk with
  | none => exact ⟨rfl, rfl⟩
  | some hk => exact hf s hk

theorem sidGenPortStrHdls_same (s : EdgxSidBr) (k : TmvtKey) :
    (sidGenPortStrHdls s k).cfg = s.cfg ∧ (sidGenPortStrHdls s k).rbTmvt = s.rbTmvt := by
  have hact := fun tag strHdl => onSlot_same fun s hk => sidHtActivate_same s hk tag strHdl
  have hdeact := onSlot_same sidHtDeactivate_same
  rw [sidGenPortStrHdls]
  split
  · exact ⟨rfl, rfl⟩
  dsimp only
  split
  · split
    · rw [(hact ..).1, (hact ..).2]
      exact hact ..
    · exact hact ..
  · split
    · rw [(hdeact ..).1, (hdeact ..).2]
      exact hdeact ..
    · exact hdeact ..

theorem sidTmvtRelease_inRows (h : InRows cfg s) (k : TmvtKey) : InRows cfg (sidTmvtRelease s k) := by
  have hrel := onSlot_same (f := sidHtRelease) fun s hk => sidHtDeactivate_same s hk
  rw [sidTmvtRelease]
  split
  · exact h
  · rename_i t ht
    obtain ⟨hcfg, hrb⟩ := hrel t.htEntry1 s
    obtain ⟨hcfg', hrb'⟩ := hrel t.htEntry0 (onSlot t.htEntry1 sidHtRelease s)
    exact h.update (hcfg'.trans hcfg) (congrArg (Function.update · k none) (hrb'.trans hrb)) (by simp)

theorem sidHtCreate_inRow {key : TmvtKey} {addr : Mac} {tag : BitVec 32} {vid : BitVec 16} {mem : Bool} {hk : HtKey}
    (h : sidHtCreate s key addr tag vid mem = .ok (hk, s')) :
    hk.row = edgxSidCalcTabRows s.cfg addr tag vid false hk.col ∧ hk.row ≠ SID_TAB_INVALID := by
  rw [sidHtCreate] at h
  split at h
  · cases h
  · rename_i i hfind
    have hvalid := List.find?_some hfind
    rw [Bool.and_eq_true, decide_eq_true_iff] at hvalid
    split at h
    · simp only [Except.ok.injEq, Prod.mk.injEq] at h
      obtain ⟨rfl, -⟩ := h
      exact ⟨rfl, hvalid.1⟩
    · cases h

theorem sidHtCreate_same {key : TmvtKey} {addr : Mac} {tag : BitVec 32} {vid : BitVec 16} {mem : Bool} {hk : HtKey}
    (h : sidHtCreate s key addr tag vid mem = .ok (hk, s')) : s'.cfg = s.cfg ∧ s'.rbTmvt = s.rbTmvt := by
  obtain ⟨-, -, rfl⟩ := sidHtCreate_ok h
  exact ⟨rfl, rfl⟩

/-- A new class takes its slots from the rows of their tags. -/
theorem sidTmvtCreate_inRows (h : InRows cfg s) (k : TmvtKey) (tag : BitVec 32) (vid : BitVec 16) (addr : Mac)
    (mem : Mem) : InRows cfg (sidTmvtCreate s k tag vid addr mem).2 := by
  have hrel := fun s hk => sidHtDeactivate_same s hk
  rw [sidTmvtCreate]
  split
  · exact h
  split
  · rename_i htag
    split
    · exact h
    rename_i k0 s0 h0
    obtain ⟨hcfg0, hrb0⟩ := sidHtCreate_same h0
    split
    · exact h.of_eq ((hrel s0 k0).1.trans hcfg0) ((hrel s0 k0).2.trans hrb0)
    rename_i k1 s1 h1
    obtain ⟨hcfg1, hrb1⟩ := sidHtCreate_same h1
    split
    · refine h.of_eq ?_ ?_
      · exact (hrel (sidHtRelease s1 k1) k0).1.trans ((hrel s1 k1).1.trans (hcfg1.trans hcfg0))
      · exact (hrel (sidHtRelease s1 k1) k0).2.trans ((hrel s1 k1).2.trans (hrb1.trans hrb0))
    · refine h.update (hcfg1.trans hcfg0) (congrArg (Function.update · k _) (hrb1.trans hrb0)) fun t ht => ?_
      obtain rfl := Option.some.inj ht
      obtain ⟨hrow0, hvalid0⟩ := sidHtCreate_inRow h0
      obtain ⟨hrow1, hvalid1⟩ := sidHtCreate_inRow h1
      rw [hcfg0, h.probed] at hrow1
      rw [h.probed] at hrow0
      refine ⟨fun hk hk0 => ?_, fun hk hk1 => ?_⟩
      · obtain rfl := Option.some.inj hk0
        rw [TmvtEntry.tag0, if_pos htag]
        exact ⟨hrow0, hvalid0⟩
      · obtain rfl := Option.some.inj hk1
        exact ⟨hrow1, hvalid1⟩
  · rename_i htag
    split
    · exact h
    rename_i k0 s0 h0
    obtain ⟨hcfg0, hrb0⟩ := sidHtCreate_same h0
    split
    · exact h.of_eq ((hrel s0 k0).1.trans hcfg0) ((hrel s0 k0).2.trans hrb0)
    · refine h.update hcfg0 (congrArg (Function.update · k _) hrb0) fun t ht => ?_
      obtain rfl := Option.some.inj ht
      obtain ⟨hrow0, hvalid0⟩ := sidHtCreate_inRow h0
      rw [h.probed] at hrow0
      refine ⟨fun hk hk0 => ?_, fun hk hk1 => absurd hk1 (by simp)⟩
      obtain rfl := Option.some.inj hk0
      rw [TmvtEntry.tag0, if_neg htag]
      exact ⟨hrow0, hvalid0⟩

theorem sidOCreate_inRows (h : InRows cfg s) (ord : Nat) (k : TmvtKey) (mem : Mem) :
    InRows cfg (sidOCreate s ord k mem).2 := by
  rw [sidOCreate]
  split
  · exact h
  split
  · exact h
  split
  · exact h
  split
  · exact h
  rename_i t ht
  split
  · exact h
  · refine h.update rfl rfl fun t' ht' => ?_
    obtain rfl := Option.some.inj ht'
    exact (h.classes k t ht).withEntries _

theorem sidIdentParamsWrite_inRows (h : InRows cfg s) (ord : Nat) (p : IdentParams) (mem : Mem) :
    InRows cfg (sidIdentParamsWrite s ord p mem).2 := by
  have hcreate := sidTmvtCreate_inRows h (paramsToTmvtKey p.addr p.tag p.vid) p.tag p.vid p.addr mem
  rw [sidIdentParamsWrite]
  split
  · exact h
  split
  · exact h
  split
  · exact h
  dsimp only
  split
  · exact sidOCreate_inRows h ord _ mem
  split
  · exact hcreate
  have hentry := sidOCreate_inRows hcreate ord (paramsToTmvtKey p.addr p.tag p.vid) mem
  split
  · exact sidTmvtRelease_inRows hentry _
  · exact hentry

theorem sidDeleteWrite_inRows (h : InRows cfg s) (ord : Nat) : InRows cfg (sidDeleteWrite s ord).2 := by
  rw [sidDeleteWrite]
  split
  · exact h
  rename_i k hord
  have hrel : InRows cfg (sidORelease s ord k) := by
    rw [sidORelease]
    split
    · exact h
    · rename_i t ht
      refine h.update rfl rfl fun t' ht' => ?_
      obtain rfl := Option.some.inj ht'
      exact (h.classes k t ht).withEntries _
  have hgen := hrel.of_eq (sidGenPortStrHdls_same _ k).1 (sidGenPortStrHdls_same _ k).2
  dsimp only
  split
  · exact hgen
  · dsimp only
    split
    · exact sidTmvtRelease_inRows hgen k
    · exact hgen

theorem changeEntry_inRows (h : InRows cfg s) (ord : Nat) (k : TmvtKey) (f : TmvtOEntry → TmvtOEntry) :
    InRows cfg (changeEntry s ord k f) := by
  rw [changeEntry]
  split
  · exact h
  · rename_i t ht
    have hset : InRows cfg
        { s with rbTmvt := Function.update s.rbTmvt k (some { t with rbTmvtO := t.rbTmvtO.modify ord f }) } := by
      refine h.update rfl rfl fun t' ht' => ?_
      obtain rfl := Option.some.inj ht'
      exact (h.classes k t ht).withEntries _
    exact hset.of_eq (sidGenPortStrHdls_same _ k).1 (sidGenPortStrHdls_same _ k).2

theorem sidPortPosSet_inRows (h : InRows cfg s) (ord : Nat) (p : PortPos) (clear : Bool) :
    InRows cfg (sidPortPosSet s ord p clear).2 := by
  rw [sidPortPosSet]
  split
  · exact h
  split
  · exact h
  split
  · exact h
  · exact changeEntry_inRows h ord _ _

/-- **Every write keeps the slots in the rows of their tags.** -/
theorem step_inRows (h : InRows cfg s) (op : Op) : InRows cfg (step s op).2 := by
  rw [step]
  split
  · exact h
  cases op with
  | identParams o p mem => exact sidIdentParamsWrite_inRows h o p mem
  | delete o => exact sidDeleteWrite_inRows h o
  | setStrhdl o strHdl =>
    dsimp only [exec]
    rw [sidSetStrhdlWrite]
    split
    · exact h
    split
    · exact h
    · exact changeEntry_inRows h o _ _
  | portPos o p => exact sidPortPosSet_inRows h o p false
  | portPosDel o p => exact sidPortPosSet_inRows h o p true

theorem init_inRows (cfg : Config) : InRows cfg (init cfg) := ⟨rfl, fun k t ht => by simp [init] at ht⟩

end InRows

end TsnSwitch.SidTab
