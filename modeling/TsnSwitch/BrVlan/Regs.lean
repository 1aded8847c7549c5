/-
The VLAN registers under commands for a VID of 12 bits: which FID register is
written, and with what. With a longer VID the command word has other kinds of
registers in it.
-/
import TsnSwitch.BrVlan.Ops

namespace TsnSwitch.BrVlan

/-- A VID that the command word has room for. -/
def Vid12 (vid : BitVec 16) : Prop := vid.toNat < 4096

/-- The register of a VID. -/
def VlanRegs.fidReg (r : VlanRegs) (vid : BitVec 16) : BitVec 16 := r.fid (vid.setWidth 12)

/-- A FID with its TE bit. -/
def fidWord (f : Nat) (te : Bool) : BitVec 16 := BitVec.ofNat 16 f ||| ENGINEERED_TRAFFIC te

/-- A FID in a register that had `old`: the other 10 bits stay. -/
def fidOver (old : BitVec 16) (f : Nat) : BitVec 16 := (old &&& ~~~0x3F) ||| (BitVec.ofNat 16 f &&& 0x3F)

/-! ## Words -/

theorem word_low (vid : BitVec 16) {k : BitVec 16} (hk : k.setWidth 12 = 0#12) :
    (vid ||| k).setWidth 12 = vid.setWidth 12 := by
  rw [BitVec.setWidth_or, hk, BitVec.or_zero]

theorem word_high {vid : BitVec 16} (hv : Vid12 vid) (k : BitVec 16) {j : Nat} (hj : 12 ≤ j) :
    (vid ||| k).getLsbD j = k.getLsbD j := by
  have h : vid.getLsbD j = false :=
    Nat.testBit_lt_two_pow (Nat.lt_of_lt_of_le hv (Nat.pow_le_pow_right Nat.two_pos hj))
  rw [BitVec.getLsbD_or, h, Bool.false_or]

theorem Vid12.inj {vid vid' : BitVec 16} (h : Vid12 vid) (h' : Vid12 vid') (he : vid.setWidth 12 = vid'.setWidth 12) :
    vid = vid' := by
  have hnat := congrArg BitVec.toNat he
  rw [BitVec.toNat_setWidth, BitVec.toNat_setWidth, Nat.mod_eq_of_lt h, Nat.mod_eq_of_lt h'] at hnat
  exact BitVec.eq_of_toNat_eq hnat

theorem getLsbD_mask (j : Nat) : (0x3F : BitVec 16).getLsbD j = decide (j < 6) := by
  rcases Nat.lt_or_ge j 16 with hj | hj
  · revert j
    decide
  · rw [BitVec.getLsbD_of_ge _ _ hj, decide_eq_false (by omega)]

theorem getLsbD_te (te : Bool) (j : Nat) : (ENGINEERED_TRAFFIC te).getLsbD j = (te && decide (j = 15)) := by
  rcases Nat.lt_or_ge j 16 with hj | hj
  · revert j
    cases te <;> decide
  · rw [BitVec.getLsbD_of_ge _ _ hj, decide_eq_false (by omega), Bool.and_false]

theorem getLsbD_fid {f : Nat} (hf : f < 64) {j : Nat} (hj : 6 ≤ j) : (BitVec.ofNat 16 f).getLsbD j = false := by
  rw [BitVec.getLsbD_ofNat, Nat.testBit_lt_two_pow (Nat.lt_of_lt_of_le hf (Nat.pow_le_pow_right Nat.two_pos hj)),
    Bool.and_false]

theorem fid_mask {f : Nat} (hf : f < 64) : BitVec.ofNat 16 f &&& 0x3F = BitVec.ofNat 16 f := by
  refine BitVec.eq_of_getLsbD_eq fun j _ => ?_
  rw [BitVec.getLsbD_and, getLsbD_mask]
  rcases Nat.lt_or_ge j 6 with hj | hj
  · rw [decide_eq_true hj, Bool.and_true]
  · rw [getLsbD_fid hf hj, Bool.false_and]

theorem fidWord_high {f : Nat} (hf : f < 64) (te : Bool) : fidWord f te &&& ~~~0x3F = ENGINEERED_TRAFFIC te := by
  refine BitVec.eq_of_getLsbD_eq fun j hj => ?_
  rw [fidWord, BitVec.getLsbD_and, BitVec.getLsbD_or, BitVec.getLsbD_not, getLsbD_mask, getLsbD_te, decide_eq_true hj,
    Bool.true_and]
  rcases Nat.lt_or_ge j 6 with h6 | h6
  · rw [decide_eq_true h6, decide_eq_false (by omega : ¬ j = 15), Bool.not_true, Bool.and_false, Bool.and_false]
  · rw [getLsbD_fid hf h6, decide_eq_false (by omega : ¬ j < 6), Bool.false_or, Bool.not_false, Bool.and_true]

/-- The TE bit stays what it was. -/
theorem fidOver_fidWord {f g : Nat} (hf : f < 64) (hg : g < 64) (te : Bool) : fidOver (fidWord f te) g = fidWord g te := by
  rw [fidOver, fidWord_high hf, fid_mask hg, BitVec.or_comm, fidWord]

theorem fidOver_eq_iff {old : BitVec 16} {g : Nat} (hg : g < 64) :
    fidOver old g = fidWord g false ↔ old &&& ~~~0x3F = 0 := by
  refine ⟨fun h => BitVec.eq_of_getLsbD_eq fun j hj => ?_, fun h => ?_⟩
  · have hbit := congrArg (·.getLsbD j) h
    simp only [fidOver, fid_mask hg, fidWord, BitVec.getLsbD_or, getLsbD_te, Bool.false_and, Bool.or_false] at hbit
    refine Eq.trans ?_ BitVec.getLsbD_zero.symm
    rcases Nat.lt_or_ge j 6 with h6 | h6
    · rw [BitVec.getLsbD_and, BitVec.getLsbD_not, getLsbD_mask, decide_eq_true h6, Bool.not_true, Bool.and_false,
        Bool.and_false]
    · rwa [getLsbD_fid hg h6, Bool.or_false] at hbit
  · rw [fidOver, h, fid_mask hg, fidWord]
    rw [show ENGINEERED_TRAFFIC false = 0#16 from rfl, BitVec.or_zero]
    exact BitVec.zero_or

theorem fidWord_inj {f : Nat} (hf : f < 64) {te te' : Bool} (h : fidWord f te = fidWord f te') : te = te' := by
  have hbit := congrArg (·.getLsbD 15) h
  simp only [fidWord, BitVec.getLsbD_or, getLsbD_fid hf (by decide : 6 ≤ 15), getLsbD_te, Bool.false_or, decide_true,
    Bool.and_true] at hbit
  exact hbit

/-! ## Commands -/

theorem cmd_write (r : VlanRegs) {w : BitVec 16} (h : w.getLsbD 12 = true) :
    (r.cmd w).fid = if w.getLsbD 15 then Function.update r.fid (w.setWidth 12) r.fidBase else r.fid := by
  unfold VlanRegs.cmd
  rw [if_pos h]

theorem cmd_read (r : VlanRegs) {w : BitVec 16} (h : w.getLsbD 12 = false) :
    (r.cmd w).fid = r.fid ∧ (r.cmd w).fidBase = if w.getLsbD 15 then r.fid (w.setWidth 12) else r.fidBase := by
  unfold VlanRegs.cmd
  rw [if_neg (Bool.eq_false_iff.1 h)]
  exact ⟨rfl, rfl⟩

section Commands

variable {vid : BitVec 16} (hv : Vid12 vid)

include hv

theorem cmd_write_fid (r : VlanRegs) :
    (r.cmd (vid ||| EDGX_BR_VLAN_CMD_WRITE ||| EDGX_BR_VLAN_CMD_FID)).fid =
      Function.update r.fid (vid.setWidth 12) r.fidBase := by
  rw [BitVec.or_assoc, cmd_write r (by rw [word_high hv _ (by decide)]; decide), word_high hv _ (by decide),
    word_low vid (by decide)]
  rfl

/-- A command without the FID bit does not write the FID. -/
theorem cmd_write_other (r : VlanRegs) {w k : BitVec 16} (hw : w = vid ||| k) (h12 : k.getLsbD 12 = true)
    (h15 : k.getLsbD 15 = false) : (r.cmd w).fid = r.fid := by
  rw [hw, cmd_write r ((word_high hv k (Nat.le_refl 12)).trans h12), word_high hv k (by decide), h15]
  rfl

theorem cmd_write_ports (r : VlanRegs) :
    (r.cmd (vid ||| EDGX_BR_VLAN_CMD_WRITE ||| EDGX_BR_VLAN_CMD_PORTS)).fid = r.fid :=
  cmd_write_other hv r (BitVec.or_assoc ..) (by decide) (by decide)

theorem writePt_fid (r : VlanRegs) (ptvec : BitVec 32) (fid : Option Nat) (untagged : Bool) (p : Port) :
    (writePt r { vid, fid, ptvec } untagged p).fid = r.fid := by
  have hread : (vid ||| EDGX_BR_VLAN_CMD_READ ||| EDGX_BR_VLAN_CMD_TAG).getLsbD 12 = false := by
    rw [BitVec.or_assoc, word_high hv _ (Nat.le_refl 12)]
    decide
  refine (cmd_write_other hv _ (k := EDGX_BR_VLAN_CMD_WRITE ||| EDGX_BR_VLAN_CMD_PORTS ||| EDGX_BR_VLAN_CMD_TAG) ?_
    (by decide) (by decide)).trans (cmd_read r hread).1
  simp only [BitVec.or_assoc]

theorem writeVid2fid_fid (r : VlanRegs) (f : Nat) :
    (writeVid2fid r vid f).fid = Function.update r.fid (vid.setWidth 12) (fidOver (r.fidReg vid) f) := by
  obtain ⟨hfid, hbase⟩ := cmd_read r (w := vid ||| EDGX_BR_VLAN_CMD_READ ||| EDGX_BR_VLAN_CMD_FID) (by
    rw [BitVec.or_assoc, word_high hv _ (by decide)]
    decide)
  rw [BitVec.or_assoc, word_high hv _ (by decide), word_low vid (by decide), ← BitVec.or_assoc] at hbase
  unfold writeVid2fid
  simp only []
  rw [cmd_write_fid hv]
  simp only [hfid, hbase]
  rfl

end Commands

/-- The registers of a list of VLANs get the FID and its TE bit. -/
theorem writeTeFid_fid (vid : Nat → Vlan) (f : Nat) (te : Bool) (vlans : List Nat) (hv : ∀ i ∈ vlans, Vid12 (vid i).vid)
    (r : VlanRegs) (v : BitVec 12) :
    (writeTeFid vid f te r vlans).fid v =
      if ∃ i ∈ vlans, (vid i).vid.setWidth 12 = v then fidWord f te else r.fid v := by
  induction vlans generalizing r with
  | nil => exact (if_neg fun ⟨_, hmem, _⟩ => nomatch hmem).symm
  | cons i vlans ih =>
    have hi := hv i (List.mem_cons_self ..)
    refine (ih (fun j hj => hv j (List.mem_cons_of_mem _ hj)) _).trans ?_
    by_cases hrest : ∃ j ∈ vlans, (vid j).vid.setWidth 12 = v
    · obtain ⟨j, hj, he⟩ := hrest
      rw [if_pos ⟨j, hj, he⟩, if_pos ⟨j, List.mem_cons_of_mem _ hj, he⟩]
    · rw [if_neg hrest, cmd_write_fid hi, Function.update_apply]
      by_cases he : (vid i).vid.setWidth 12 = v
      · rw [if_pos he.symm, if_pos ⟨i, List.mem_cons_self .., he⟩]
        rfl
      · rw [if_neg (Ne.symm he), if_neg]
        rintro ⟨j, hj, he'⟩
        rcases List.mem_cons.1 hj with rfl | hj
        · exact he he'
        · exact hrest ⟨j, hj, he'⟩

end TsnSwitch.BrVlan
