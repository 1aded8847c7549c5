/-
Keys of classes and rows of slots.

A key has the address, the tag and 14 bits of the VID (`key_inj`). A row that
is taken fits the control register (`sidHtCreate_ok`), so slots with
different keys are different slots.
-/
import TsnSwitch.SidTab.Trees

namespace TsnSwitch.SidTab

open Fdb (Mac)
open Lib

/-! ## Bits -/

theorem placed_ge {w : Nat} (x : BitVec w) {p j : Nat} (hp : p ≤ j) (hj : j < 64) :
    (x.setWidth 64 <<< p).getLsbD j = x.getLsbD (j - p) := by
  rw [BitVec.getLsbD_shiftLeft, BitVec.getLsbD_setWidth, decide_eq_true hj, decide_eq_false (Nat.not_lt.2 hp),
    decide_eq_true (show j - p < 64 by omega)]
  rfl

theorem placed_lt {w : Nat} (x : BitVec w) {p j : Nat} (hj : j < p) : (x.setWidth 64 <<< p).getLsbD j = false := by
  rw [BitVec.getLsbD_shiftLeft, decide_eq_true hj, Bool.not_true, Bool.and_false, Bool.false_and]

theorem getLsbD_of_toNat_lt {w n j : Nat} {x : BitVec w} (hx : x.toNat < 2 ^ n) (hj : n ≤ j) : x.getLsbD j = false :=
  Nat.testBit_lt_two_pow (hx.trans_le (Nat.pow_le_pow_right (by decide) hj))

theorem tag_bits (tag : BitVec 32) {j : Nat} (hj : 2 ≤ j) : (tag &&& 3).getLsbD j = false :=
  getLsbD_of_toNat_lt (n := 2) (by rw [BitVec.toNat_and]; exact Nat.lt_succ_of_le Nat.and_le_right) hj

theorem vid_bits (vid : BitVec 16) {j : Nat} (hj : 14 ≤ j) : ((vid &&& 0x3FFF).setWidth 64).getLsbD j = false := by
  rw [BitVec.getLsbD_setWidth, getLsbD_of_toNat_lt (n := 14) ?_ hj, Bool.and_false]
  rw [BitVec.toNat_and]
  exact Nat.lt_succ_of_le Nat.and_le_right

/-! ## Keys -/

section Key

variable (addr : Mac) (tag : BitVec 32) (vid : BitVec 16)

theorem key_addr {n : Nat} (hn : n < 6) {i : Nat} (hi : i < 8) :
    (paramsToTmvtKey addr tag vid).getLsbD (56 - 8 * n + i) = addr[n].getLsbD i := by
  rw [paramsToTmvtKey]
  interval_cases n <;>
    simp (disch := omega) only [BitVec.getLsbD_or, placed_ge, placed_lt, BitVec.getLsbD_of_ge, tag_bits, vid_bits,
      Bool.or_false, Bool.false_or, Nat.reduceMul, Nat.reduceSub, Nat.add_sub_cancel_left]

theorem key_tag {i : Nat} (hi : i < 2) : (paramsToTmvtKey addr tag vid).getLsbD (14 + i) = (tag &&& 3).getLsbD i := by
  rw [paramsToTmvtKey]
  simp (disch := omega) only [BitVec.getLsbD_or, placed_ge, placed_lt, vid_bits, Bool.or_false, Bool.false_or,
    Nat.add_sub_cancel_left]

theorem key_vid {i : Nat} (hi : i < 14) : (paramsToTmvtKey addr tag vid).getLsbD i = (vid &&& 0x3FFF).getLsbD i := by
  rw [paramsToTmvtKey]
  simp (disch := omega) only [BitVec.getLsbD_or, placed_lt, BitVec.getLsbD_setWidth, Bool.false_or]
  rw [decide_eq_true (show i < 64 by omega), Bool.true_and]

end Key

/-- The tags that are accepted have two bits. -/
theorem tag_of_tagVidOk {tag : BitVec 32} {vid : BitVec 16} (h : tagVidOk tag vid = true) :
    tag = SID_TAGGED ∨ tag = SID_PRIORITY ∧ vid = 0 ∨ tag = SID_ALL ∧ vid = 0 := by
  simpa [tagVidOk, or_assoc] using h

/-- A class of all frames has VID 0, which is not matched. -/
theorem getMatchVlan_all {tag : BitVec 32} {vid : BitVec 16} (h : tagVidOk tag vid = true) (hall : tag = SID_ALL)
    (tag' : BitVec 32) : getMatchVlan tag' vid = getMatchVlan tag vid := by
  have hvid : vid = 0 := by
    rcases tag_of_tagVidOk h with ht | ⟨ht, -⟩ | ⟨-, hv⟩
    · exact absurd (hall.symm.trans ht) (by decide)
    · exact absurd (hall.symm.trans ht) (by decide)
    · exact hv
  simp [getMatchVlan, hvid]

theorem and_tag {tag : BitVec 32} {vid : BitVec 16} (h : tagVidOk tag vid = true) : tag &&& 3 = tag := by
  rcases tag_of_tagVidOk h with rfl | ⟨rfl, -⟩ | ⟨rfl, -⟩ <;> rfl

/-- Classes with one key have one address and one tag. -/
theorem key_inj {addr addr' : Mac} {tag tag' : BitVec 32} {vid vid' : BitVec 16} (ht : tagVidOk tag vid = true)
    (ht' : tagVidOk tag' vid' = true) (h : paramsToTmvtKey addr tag vid = paramsToTmvtKey addr' tag' vid') :
    addr = addr' ∧ tag = tag' := by
  constructor
  · refine Vector.ext fun n hn => BitVec.eq_of_getLsbD_eq fun i hi => ?_
    rw [← key_addr addr tag vid hn hi, h, key_addr addr' tag' vid' hn hi]
  · rw [← and_tag ht, ← and_tag ht']
    refine BitVec.eq_of_getLsbD_eq fun i _ => ?_
    by_cases hi : i < 2
    · rw [← key_tag addr tag vid hi, h, key_tag addr' tag' vid' hi]
    · rw [tag_bits tag (Nat.not_lt.1 hi), tag_bits tag' (Nat.not_lt.1 hi)]

/-! ## Rows -/

theorem tabRow_lt (cfg : Config) {mac : Mac} {tag : BitVec 32} {vid : BitVec 16} {src : Bool} {col : Fin 4}
    (h : edgxSidCalcTabRows cfg mac tag vid src col ≠ SID_TAB_INVALID) :
    (edgxSidCalcTabRows cfg mac tag vid src col).toNat < 2 ^ 12 := by
  have hcnt : cfg.tabRowCnt.toNat = 2 ^ cfg.rowBits := by
    rw [Config.tabRowCnt, BitVec.toNat_ofNat, Nat.mod_eq_of_lt (Nat.pow_lt_pow_right (by decide) (by
      have := cfg.rowBits_le; omega))]
  have hpow : 2 ^ cfg.rowBits ≤ 2 ^ 12 := Nat.pow_le_pow_right (by decide) cfg.rowBits_le
  have hpos : 1 ≤ 2 ^ cfg.rowBits := Nat.one_le_two_pow
  have hmask : (cfg.tabRowCnt.setWidth 64 - 1).toNat < 2 ^ 12 := by
    have hone : (1 : BitVec 64) ≤ cfg.tabRowCnt.setWidth 64 := by
      rw [BitVec.le_def, BitVec.toNat_setWidth, hcnt, Nat.mod_eq_of_lt (by omega)]
      exact hpos
    rw [BitVec.toNat_sub_of_le hone, BitVec.toNat_setWidth, hcnt, Nat.mod_eq_of_lt (by omega)]
    have hval : (1 : BitVec 64).toNat = 1 := rfl
    omega
  rw [edgxSidCalcTabRows] at h ⊢
  split
  · rename_i hc
    exact absurd (if_pos hc) h
  · rw [BitVec.toNat_setWidth, BitVec.toNat_and]
    exact (Nat.mod_le _ _).trans_lt (Nat.and_le_right.trans_lt hmask)

/-- Rows that fit the register are told apart by it. -/
theorem pos_inj {k k' : HtKey} (hk : k.row.toNat < 2 ^ 12) (hk' : k'.row.toNat < 2 ^ 12) (h : k.pos = k'.pos) :
    k = k' := by
  rw [HtKey.pos, HtKey.pos, Prod.mk.injEq] at h
  have hrow := congrArg BitVec.toNat h.1
  rw [BitVec.toNat_setWidth, BitVec.toNat_setWidth, Nat.mod_eq_of_lt hk, Nat.mod_eq_of_lt hk'] at hrow
  exact HtKey.ext (BitVec.eq_of_toNat_eq hrow) h.2

/-- What `sidHtCreate` does where it succeeds. -/
theorem sidHtCreate_ok {s s' : EdgxSidBr} {key : TmvtKey} {addr : Mac} {tag : BitVec 32} {vid : BitVec 16} {mem : Bool}
    {k : HtKey} (h : sidHtCreate s key addr tag vid mem = .ok (k, s')) :
    s.rbHt k = none ∧ k.row.toNat < 2 ^ 12 ∧ s' = { s with rbHt := Function.update s.rbHt k (some ⟨key, false⟩) } := by
  rw [sidHtCreate] at h
  split at h
  · cases h
  · rename_i i hfind
    split at h
    · simp only [Except.ok.injEq, Prod.mk.injEq] at h
      obtain ⟨rfl, rfl⟩ := h
      have hfree := List.find?_some hfind
      rw [Bool.and_eq_true, decide_eq_true_iff, Option.isNone_iff_eq_none] at hfree
      exact ⟨hfree.2, tabRow_lt s.cfg hfree.1, rfl⟩
    · cases h

end TsnSwitch.SidTab
