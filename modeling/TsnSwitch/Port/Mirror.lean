/-
The rules of a port are a configuration, whatever tasks change at the same time: the
address of the port, and for each rule the ports that get a copy.
-/
import TsnSwitch.Port.Ipo

namespace TsnSwitch.Port

open Lib Fdb Waits

structure IpoCfg where
  mac : Mac
  mirr : Fin IPO_NRULES → BitVec 16

variable (c : CShift) (pt : Pt)

/-- The configuration word of a reserved address, with the traffic class in bits 12, 13 and 15. -/
def mgmtCfg0 (cfg0 : BitVec 16) : BitVec 16 := cfg0 ||| ((pt.mtc &&& 1) <<< 15) ||| (pt.mtc >>> 1) <<< 12

/-- The rules of a configuration. -/
def ruleOf (cfg : IpoCfg) (entry : Fin IPO_NRULES) : IpoRule :=
  match entry with
  | 0 => { cfg0 := mgmtCfg0 pt 0xB1, fwd := BIT pt.mgmtPtid.val, mirr := cfg.mirr 0, cfg1 := 0xD000, eth0 := 0x8001, eth1 := 0x00C2 }
  | 1 => { cfg0 := mgmtCfg0 pt 0xC1, fwd := BIT pt.mgmtPtid.val, mirr := cfg.mirr 1, cfg1 := 0xD000 }
  | 2 =>
    { cfg0 := 0x40C1
      fwd := BIT pt.mgmtPtid.val
      mirr := cfg.mirr 2
      cfg1 := 0xD000
      eth0 := macByte cfg.mac 1 ++ macByte cfg.mac 0
      eth1 := macByte cfg.mac 3 ++ macByte cfg.mac 2
      eth2 := macByte cfg.mac 5 ++ macByte cfg.mac 4 }
  | 3 => { cfg0 := 0x4001, fwd := ~~~BIT pt.ptid.val, mirr := cfg.mirr 3, cfg1 := 0xC000 }
  | entry => { cfg0 := 0, fwd := 0, mirr := cfg.mirr entry, cfg1 := 0 }

/-- Copies go to the management port, and of rules that are for all frames to no port. -/
def initCfg (devAddr : Mac) : IpoCfg where
  mac := devAddr
  mirr := fun entry => if entry ≤ IPO_SELF_ENT then BIT pt.mgmtPtid.val else 0

def ipoSpec (cfg : IpoCfg) : IpoSection → List (BitVec 16) × IpoCfg
  | .init devAddr => ([], initCfg pt devAddr)
  | .setMac mac => ([], { cfg with mac })
  | .setMirror entry mirrCfg => ([], { cfg with mirr := Function.update cfg.mirr entry mirrCfg })
  | .getMirror => ([cfg.mirr IPO_SELF_ENT], cfg)

/-! ## Registers -/

theorem edgxSet16_bytes (word : BitVec 16) (lo hi : BitVec 8) :
    edgxSet16 c (edgxSet16 c word 7 0 (lo.setWidth 16)) 15 8 (hi.setWidth 16) = hi ++ lo := by
  refine BitVec.eq_of_getLsbD_eq fun i hlt => ?_
  have hhigh := getLsbD_edgxSet16 c (show 8 ≤ 15 by decide) (by decide) (edgxSet16 c word 7 0 (lo.setWidth 16)) (hi.setWidth 16) hlt
  have hlow := getLsbD_edgxSet16 c (show 0 ≤ 7 by decide) (by decide) word (lo.setWidth 16) hlt
  refine hhigh.trans ?_
  rw [BitVec.getLsbD_append]
  by_cases hbyte : i < 8
  · rw [if_neg (by omega), if_pos hbyte]
    refine hlow.trans ?_
    rw [if_pos (by omega), Nat.sub_zero, BitVec.getLsbD_setWidth, decide_eq_true hlt, Bool.true_and]
  · rw [if_pos (by omega), if_neg hbyte, BitVec.getLsbD_setWidth, decide_eq_true (by omega), Bool.true_and]

/-- Bits that are written to bits that are 0. -/
theorem edgxSet16_zero {bithi bitlo : Nat} (hle : bitlo ≤ bithi) (hhi : bithi < 16) {word val : BitVec 16}
    (hword : ∀ i, bitlo ≤ i → i ≤ bithi → word.getLsbD i = false) (hval : ∀ i, bithi - bitlo < i → val.getLsbD i = false) :
    edgxSet16 c word bithi bitlo val = word ||| val <<< bitlo := by
  refine BitVec.eq_of_getLsbD_eq fun i hi => ?_
  rw [getLsbD_edgxSet16 c hle hhi word val hi, BitVec.getLsbD_or, BitVec.getLsbD_shiftLeft]
  by_cases hin : bitlo ≤ i ∧ i ≤ bithi
  · rw [if_pos hin, hword i hin.1 hin.2]
    simp [hi, Nat.not_lt_of_le hin.1]
  · rw [if_neg hin]
    by_cases hlo : bitlo ≤ i
    · rw [hval (i - bitlo) (by omega), Bool.and_false, Bool.or_false]
    · simp [Nat.lt_of_not_le hlo]

theorem edgxSet16_class {cfg0 : BitVec 16} (h15 : cfg0.getLsbD 15 = false) (h13 : cfg0.getLsbD 13 = false)
    (h12 : cfg0.getLsbD 12 = false) :
    edgxSet16 c (edgxSet16 c cfg0 15 15 (pt.mtc &&& 1)) 13 12 (pt.mtc >>> 1) = mgmtCfg0 pt cfg0 := by
  have hbits (i : Nat) (hi : 3 ≤ i) : pt.mtc.getLsbD i = false :=
    Nat.testBit_lt_two_pow (Nat.lt_of_lt_of_le (BitVec.lt_def.1 pt.mtc_lt) (Nat.pow_le_pow_right (show 0 < 2 by decide) hi))
  have hfirst : edgxSet16 c cfg0 15 15 (pt.mtc &&& 1) = cfg0 ||| (pt.mtc &&& 1) <<< 15 := by
    refine edgxSet16_zero c (Nat.le_refl 15) (by decide) (fun i hlo hhi => ?_) fun i hi => ?_
    · rw [Nat.le_antisymm hhi hlo]
      exact h15
    · rw [BitVec.getLsbD_and]
      simp [Nat.ne_of_gt hi]
  rw [hfirst]
  refine edgxSet16_zero c (show 12 ≤ 13 by decide) (by decide) (fun i hlo hhi => ?_) fun i hi => ?_
  · rw [BitVec.getLsbD_or, BitVec.getLsbD_shiftLeft, decide_eq_true (show i < 15 by omega), Bool.not_true, Bool.and_false,
      Bool.false_and, Bool.or_false]
    rcases (show i = 12 ∨ i = 13 by omega) with rfl | rfl
    · exact h12
    · exact h13
  · rw [BitVec.getLsbD_ushiftRight]
    exact hbits _ (by omega)

theorem edgxSet16_ones : edgxSet16 c 0xFFFF pt.ptid.val pt.ptid.val 0 = ~~~BIT pt.ptid.val := by
  refine BitVec.eq_of_getLsbD_eq fun i hi => ?_
  have hbit : (BIT pt.ptid.val).getLsbD i = decide (i = pt.ptid.val) :=
    (BitVec.getLsbD_eq_getElem hi).trans (getElem_BIT _ hi)
  have hones : (0xFFFF : BitVec 16).getLsbD i = decide (i < 16) := BitVec.getLsbD_allOnes (v := 16)
  rw [getLsbD_edgxSet16 c (Nat.le_refl _) pt.ptid.isLt _ _ hi, BitVec.getLsbD_not, hbit, hones]
  by_cases hin : i = pt.ptid.val
  · simp [hin]
  · rw [if_neg (by omega)]
    simp [hin]

theorem foldl_setMac (mac : Mac) (w : IpoRule) :
    (edgxPtIpoSetMac c mac).foldl (fun w f => f w) w =
      { w with
        eth0 := macByte mac 1 ++ macByte mac 0
        eth1 := macByte mac 3 ++ macByte mac 2
        eth2 := macByte mac 5 ++ macByte mac 4 } := by
  simp only [edgxPtIpoSetMac, List.foldl_cons, List.foldl_nil, edgxSet16_bytes]

/-- What is written for a rule of the start. -/
def EdgxPtIpo.rule (ipo : EdgxPtIpo) : IpoRule where
  cfg0 := ipo.cfg0
  fwd := ipo.fwd
  mirr := ipo.mirror
  cfg1 := ipo.cfg1
  eth0 := macByte ipo.mac 1 ++ macByte ipo.mac 0
  eth1 := macByte ipo.mac 3 ++ macByte ipo.mac 2
  eth2 := macByte ipo.mac 5 ++ macByte ipo.mac 4

theorem foldl_ipoWrites (ipo : EdgxPtIpo) (w : IpoRule) :
    (ipoWrites c ipo).foldl (fun w f => f w) w = ipo.rule := by
  rw [ipoWrites, List.foldl_append, foldl_setMac]
  rfl

/-! ## Sections -/

abbrev IpoBank := Bank (Fin IPO_NRULES) IpoRule

/-- A rule of the start is what is written, whatever it was. -/
theorem regs_single (ipo : EdgxPtIpo) (entry : Fin IPO_NRULES) (fs : List (IpoRule → IpoRule)) (b : IpoBank) :
    (after Acc.exec b (edgxPtIpoInitSingle c ipo entry ++ fs.map .set ++ [.transfer true entry])).regs =
      Function.update b.regs entry (fs.foldl (fun w f => f w) ipo.rule) := by
  have hupdate : edgxPtIpoInitSingle c ipo entry ++ fs.map .set ++ [.transfer true entry] =
      (updateOf entry (ipoWrites c ipo ++ fs) : List IpoAcc) := by
    rw [updateOf, List.map_append]
    rfl
  rw [hupdate, regs_updateOf, List.foldl_append, foldl_ipoWrites]

/-- The same of a rule that is read once more before. -/
theorem regs_single' (ipo : EdgxPtIpo) (entry : Fin IPO_NRULES) (fs : List (IpoRule → IpoRule)) (b : IpoBank) :
    (after Acc.exec b (.transfer false entry :: edgxPtIpoInitSingle c ipo entry ++ fs.map .set ++ [.transfer true entry])).regs =
      Function.update b.regs entry (fs.foldl (fun w f => f w) ipo.rule) := by
  rw [List.cons_append, List.cons_append, after_cons]
  exact regs_single c ipo entry fs (b.transfer false entry)

theorem regs_none (b : IpoBank) :
    (after Acc.exec b (noneEnts.flatMap fun entry =>
      .transfer false entry :: edgxPtIpoInitSingle c ipoNull entry ++ [.transfer true entry])).regs =
      noneEnts.foldl (fun r entry => Function.update r entry ⟨0, 0, 0, 0, 0, 0, 0⟩) b.regs :=
  regs_flatMap (fun entry b => regs_single c ipoNull entry [] (b.transfer false entry)) noneEnts b

/-- What a rule for a reserved address is in the end. -/
def mgmtRule (ipo : EdgxPtIpo) : IpoRule :=
  { ipo.rule with cfg0 := mgmtCfg0 pt ipo.cfg0, fwd := BIT pt.mgmtPtid.val, mirr := BIT pt.mgmtPtid.val }

theorem regs_mgmt (b : IpoBank) :
    (after Acc.exec b ((List.zip [0, 1] ipoMgmt).flatMap fun (entry, ipo) =>
      edgxPtIpoInitSingle c ipo entry ++ (mgmtWrites c pt).map .set ++ [.transfer true entry])).regs =
      (List.zip [0, 1] ipoMgmt).foldl (fun r x => Function.update r x.1 (mgmtRule pt x.2)) b.regs := by
  have hbits : ∀ x ∈ List.zip ([0, 1] : List (Fin IPO_NRULES)) ipoMgmt,
      x.2.cfg0.getLsbD 15 = false ∧ x.2.cfg0.getLsbD 13 = false ∧ x.2.cfg0.getLsbD 12 = false := by decide
  generalize List.zip ([0, 1] : List (Fin IPO_NRULES)) ipoMgmt = xs at hbits ⊢
  induction xs generalizing b with
  | nil => rfl
  | cons x xs ih =>
    obtain ⟨⟨h15, h13, h12⟩, hxs⟩ := List.forall_mem_cons.1 hbits
    rw [List.flatMap_cons, after_append, ih _ hxs, List.foldl_cons]
    congr 1
    rw [regs_single, mgmtRule, ← edgxSet16_class c pt h15 h13 h12]
    rfl

theorem regs_init (devAddr : Mac) (b : IpoBank) :
    (after Acc.exec b (edgxPtIpoInit c pt devAddr)).regs = ruleOf pt (initCfg pt devAddr) := by
  have hself : (selfWrites c pt devAddr).foldl (fun w f => f w) ⟨0x40C1, 0, 0, 0xD000, 0, 0, 0⟩ = ruleOf pt (initCfg pt devAddr) 2 := by
    rw [selfWrites, List.foldl_append, foldl_setMac]
    rfl
  have hall : (allWrites c pt).foldl (fun w f => f w) ⟨0x4001, 0xFFFF, 0, 0xC000, 0, 0, 0⟩ = ruleOf pt (initCfg pt devAddr) 3 := by
    show IpoRule.mk _ (edgxSet16 c 0xFFFF pt.ptid.val pt.ptid.val 0) _ _ _ _ _ = _
    rw [edgxSet16_ones]
    rfl
  rw [edgxPtIpoInit, after_append, regs_none, after_append, regs_single', after_append, regs_single', regs_mgmt]
  have hents : noneEnts = [4, 5, 6, 7, 8, 9, 10, 11, 12, 13, 14, 15] := by decide
  rw [hents]
  funext entry
  fin_cases entry
  · rfl
  · rfl
  · exact hself
  · exact hall
  all_goals rfl

theorem reads_init (devAddr : Mac) (b : IpoBank) : reads b (edgxPtIpoInit c pt devAddr) = [] := by
  have hsets (fs : List (IpoRule → IpoRule)) : (fs.map Acc.set : List IpoAcc).all Acc.silent = true := by
    rw [List.all_map, List.all_eq_true]
    exact fun _ _ => rfl
  refine reads_silent (List.all_eq_true.1 ?_) b
  simp only [edgxPtIpoInit, edgxPtIpoInitSingle, List.all_append, List.all_flatMap, List.all_cons, List.all_nil, hsets,
    Acc.silent, Bool.and_true]
  simp

theorem ruleOf_mirr (cfg : IpoCfg) (mirr : Fin IPO_NRULES → BitVec 16) (entry : Fin IPO_NRULES) :
    ruleOf pt { cfg with mirr } entry = { ruleOf pt cfg entry with mirr := mirr entry } := by
  fin_cases entry <;> rfl

theorem mirr_ruleOf (cfg : IpoCfg) (entry : Fin IPO_NRULES) : (ruleOf pt cfg entry).mirr = cfg.mirr entry :=
  congrArg IpoRule.mirr (ruleOf_mirr pt cfg cfg.mirr entry)

theorem ruleOf_mac (cfg : IpoCfg) (mac : Mac) {entry : Fin IPO_NRULES} (h : entry ≠ IPO_SELF_ENT) :
    ruleOf pt { cfg with mac } entry = ruleOf pt cfg entry := by
  fin_cases entry
  · rfl
  · rfl
  · exact absurd rfl h
  all_goals rfl

/-- The sections mean what they do to the configuration. -/
theorem ipo_implements : Implements (ipoCode c pt) (ruleOf pt) (ipoSpec pt) where
  regs b cfg n h := by
    cases n with
    | init devAddr => exact regs_init c pt devAddr b
    | setMac mac =>
      refine (regs_updateOf _ _ b).trans (funext fun entry => ?_)
      rw [h, foldl_setMac]
      by_cases hentry : entry = IPO_SELF_ENT
      · rw [hentry, Function.update_self]
        rfl
      · rw [Function.update_of_ne hentry]
        exact (ruleOf_mac pt cfg mac hentry).symm
    | setMirror e mirrCfg =>
      refine (regs_updateOf _ _ b).trans (funext fun entry => ?_)
      refine Eq.trans ?_ (ruleOf_mirr pt cfg (Function.update cfg.mirr e mirrCfg) entry).symm
      rw [h]
      by_cases hentry : entry = e
      · rw [hentry, Function.update_self, Function.update_self]
        rfl
      · rw [Function.update_of_ne hentry, Function.update_of_ne hentry, ← mirr_ruleOf pt cfg entry]
    | getMirror => exact h
  reads b cfg n h := by
    cases n with
    | init devAddr => exact reads_init c pt devAddr b
    | setMac mac => exact reads_updateOf _ _ b
    | setMirror e mirrCfg => exact reads_updateOf _ _ b
    | getMirror =>
      show [(b.regs IPO_SELF_ENT).mirr] = [cfg.mirr IPO_SELF_ENT]
      rw [h, mirr_ruleOf]

/-! ## Copies -/

theorem mirrPtidInt_eq {mirrPtid : Int} (hlow : -2 ^ 31 < mirrPtid) (hhigh : mirrPtid ≤ 32) :
    mirrPtidInt mirrPtid = mirrPtid - 1 := by
  unfold mirrPtidInt
  simp only [Int.bmod]
  omega

/-- The ports that get a copy. -/
theorem getLsbD_mirrCfgOf {mirrPtid : Int} (hlow : -2 ^ 31 < mirrPtid) (hhigh : mirrPtid ≤ 32) {i : Nat} (hi : i < 16) :
    (mirrCfgOf c pt mirrPtid).getLsbD i = (decide (i = pt.mgmtPtid.val) || decide (i + 1 = mirrPtid)) := by
  have hbit : (BIT pt.mgmtPtid.val).getLsbD i = decide (i = pt.mgmtPtid.val) :=
    (BitVec.getLsbD_eq_getElem hi).trans (getElem_BIT _ hi)
  rw [mirrCfgOf, mirrPtidInt_eq hlow hhigh, BitVec.getLsbD_or, hbit]
  congr 1
  by_cases hneg : mirrPtid - 1 < 0
  · have hzero : (0 : BitVec 16).getLsbD i = false := BitVec.getLsbD_zero
    rw [if_pos hneg, hzero, decide_eq_false (by omega)]
  · obtain ⟨k, hk⟩ := Int.eq_ofNat_of_zero_le (Int.le_of_not_gt hneg)
    have hone (j : Nat) : (1 : BitVec 32).getLsbD j = decide (j = 0) := BitVec.getLsbD_one.trans (by simp)
    rw [if_neg hneg, hk, CShift.left, if_pos (by omega), Int.toNat_natCast, BitVec.getLsbD_setWidth, BitVec.getLsbD_shiftLeft,
      hone, decide_eq_true hi, decide_eq_true (show i < 32 by omega), Bool.true_and, Bool.true_and, Bool.eq_iff_iff]
    simp only [Bool.and_eq_true, Bool.not_eq_true', decide_eq_false_iff_not, decide_eq_true_iff]
    omega

section Runs

variable {T : Type*} [DecidableEq T]

/-- What a task calls for. -/
def sectionsOf (u : T) : IpoOp T → List IpoSection
  | .call t what => if t = u then (what.sections c pt).2 else []
  | _ => []

theorem after_ipoStep (s : Ipo T) (ops : List (IpoOp T)) :
    after (ipoStep c pt) s ops = after (Indirect.step (ipoCode c pt)) s (ops.map (IpoOp.toIndirect c pt)) := by
  induction ops generalizing s with
  | nil => rfl
  | cons op ops ih => exact ih _

theorem taken_ipoStep (s : Ipo T) (ops : List (IpoOp T)) :
    (outs (ipoStep c pt) s ops).filterMap Prod.snd = Indirect.taken (ipoCode c pt) s (ops.map (IpoOp.toIndirect c pt)) := by
  induction ops generalizing s with
  | nil => rfl
  | cons op ops ih =>
    rw [List.map_cons, Indirect.taken_cons, outs, List.filterMap_cons, ih]
    show _ = (ipoStep c pt s op).1.toList ++ _
    cases (ipoStep c pt s op).1 <;> rfl

theorem called_ipoStep (u : T) (ops : List (IpoOp T)) :
    Indirect.called u (ops.map (IpoOp.toIndirect c pt)) = ops.flatMap (sectionsOf c pt u) := by
  rw [Indirect.called, List.flatMap_map]
  congr 1
  funext op
  cases op <;> rfl

omit [DecidableEq T] in
theorem final_probed (t : T) (bank : IpoBank) (devAddr : Mac) :
    (probed c pt t bank devAddr).final.regs = ruleOf pt (initCfg pt devAddr) :=
  regs_init c pt devAddr bank

omit [DecidableEq T] in
theorem finalGot_probed (t : T) (bank : IpoBank) (devAddr : Mac) : (probed c pt t bank devAddr).finalGot = [] := by
  show [] ++ (reads bank (edgxPtIpoInit c pt devAddr)).map (t, ·) = []
  rw [reads_init]
  rfl

/-- **The rules are a configuration** whenever no task has the lock: that of the sections in
the order in which they took it, each task's in its own order. What was read is what the
configuration was. -/
theorem rules_are_serial (t : T) (bank : IpoBank) (devAddr : Mac) (ops : List (IpoOp T))
    (hfree : (after (ipoStep c pt) (probed c pt t bank devAddr) ops).holder = none) :
    let s := after (ipoStep c pt) (probed c pt t bank devAddr) ops
    let taken := (outs (ipoStep c pt) (probed c pt t bank devAddr) ops).filterMap Prod.snd
    s.bank.regs = ruleOf pt (after (byTask (ipoSpec pt)) (initCfg pt devAddr) taken) ∧
      s.got = (outs (byTask (ipoSpec pt)) (initCfg pt devAddr) taken).flatMap Prod.snd ∧
      ∀ u, Indirect.ofTask u taken ++ s.todo u = ops.flatMap (sectionsOf c pt u) := by
  intro s taken
  obtain ⟨hregs, hgot⟩ := (ipo_implements c pt).serial (final_probed c pt t bank devAddr) (ops.map (IpoOp.toIndirect c pt))
  have horder (u : T) := Indirect.taken_append_todo (ipoCode c pt) (probed c pt t bank devAddr)
    (ops.map (IpoOp.toIndirect c pt)) u
  rw [← after_ipoStep, ← taken_ipoStep] at hregs hgot
  have hfinal : s.final = s.bank := by rw [Indirect.final, hfree]
  have hfinalGot : s.finalGot = s.got := by rw [Indirect.finalGot, hfree]
  rw [finalGot_probed, List.nil_append] at hgot
  refine ⟨hfinal ▸ hregs, hfinalGot ▸ hgot, fun u => ?_⟩
  have := horder u
  rw [← after_ipoStep, ← taken_ipoStep, called_ipoStep] at this
  exact this

/-- The second of three ports, and the first is the management port. -/
def somePt : Pt := ⟨⟨1, one_lt_maxPorts⟩, ⟨0, by decide⟩, 1, by decide⟩

def someBank : IpoBank := ⟨fun _ => ⟨0, 0, 0, 0, 0, 0, 0⟩, ⟨0, 0, 0, 0, 0, 0, 0⟩⟩

/-- A task goes on `n` times, and no transfer takes long. -/
def goesOn (u : Bool) (n : Nat) : List (IpoOp (Bool)) := (List.replicate n [.run u, .done]).flatten

/-- The port is set up, and then frames are copied to another one. -/
def copyOps : List (IpoOp (Bool)) := goesOn false 224 ++ .call true (.setMirror 3) :: goesOn true 70

theorem rules_are_serial_copy :
    let s := after (ipoStep .modulo somePt) (probed .modulo somePt false someBank someMac) copyOps
    let taken := (outs (ipoStep .modulo somePt) (probed .modulo somePt false someBank someMac) copyOps).filterMap Prod.snd
    s.bank.regs = ruleOf somePt (after (byTask (ipoSpec somePt)) (initCfg somePt someMac) taken) ∧
      s.got = (outs (byTask (ipoSpec somePt)) (initCfg somePt someMac) taken).flatMap Prod.snd ∧
      ∀ u, Indirect.ofTask u taken ++ s.todo u = copyOps.flatMap (sectionsOf .modulo somePt u) :=
  rules_are_serial .modulo somePt false someBank someMac copyOps (Option.isNone_iff_eq_none.1 (by decide +kernel))

/-- What a call for copies makes of the last one that was accepted. -/
def lastMirror (last : Option Int) : IpoOp T → Option Int
  | .call _ (.setMirror mirrPtid) => if (edgxPtIpoSetMirror c pt mirrPtid).1 = 0 then some mirrPtid else last
  | _ => last

/-- The copies of a rule after the last call. -/
def copyOf : Option Int → Fin IPO_NRULES → BitVec 16
  | none, entry => if entry ≤ IPO_SELF_ENT then BIT pt.mgmtPtid.val else 0
  | some mirrPtid, _ => mirrCfgOf c pt mirrPtid

/-- No call for copies is going on. -/
def NoMirror (s : Ipo T) : Prop := ∀ u entry mirrCfg, .setMirror entry mirrCfg ∉ s.todo u

/-- Calls for copies do not overlap. -/
def Alone (s : Ipo T) : IpoOp T → Prop
  | .call _ (.setMirror _) => NoMirror s
  | _ => True

/-- A rule has the copies of the last call, or is still to get them. -/
structure MirrorInv (s : Ipo T) (last : Option Int) (cfg : IpoCfg) : Prop where
  regs : s.final.regs = ruleOf pt cfg
  noInit : ∀ u devAddr, .init devAddr ∉ s.todo u
  todo : ∀ u entry mirrCfg, .setMirror entry mirrCfg ∈ s.todo u → ∃ p, last = some p ∧ mirrCfg = mirrCfgOf c pt p
  rules : ∀ entry, IPO_SELF_ENT ≤ entry →
    cfg.mirr entry = copyOf c pt last entry ∨ ∃ u mirrCfg, .setMirror entry mirrCfg ∈ s.todo u

variable {c pt} {s : Ipo T} {last : Option Int} {cfg : IpoCfg}

/-- The configuration with the section that was taken. -/
def IpoCfg.take (pt : Pt) (cfg : IpoCfg) : Option (T × IpoSection) → IpoCfg
  | none => cfg
  | some (_, n) => (ipoSpec pt cfg n).2

theorem final_ipoStep (h : s.final.regs = ruleOf pt cfg) (op : IpoOp T) :
    (ipoStep c pt s op).2.final.regs = ruleOf pt (cfg.take pt (ipoStep c pt s op).1) := by
  have hstep := Indirect.final_step (ipoCode c pt) s (op.toIndirect c pt)
  rw [ipoStep]
  generalize Indirect.step (ipoCode c pt) s (op.toIndirect c pt) = r at hstep ⊢
  obtain ⟨x, s'⟩ := r
  cases x with
  | none => exact (congrArg Bank.regs hstep.1).trans h
  | some x => exact (congrArg Bank.regs hstep.1).trans ((ipo_implements c pt).regs _ _ _ h)

namespace MirrorInv

/-- A call that asks for no copies. -/
theorem call_other (h : MirrorInv c pt s last cfg) (t : T) {names : List IpoSection}
    (hnames : ∀ n ∈ names, (∀ devAddr, n ≠ .init devAddr) ∧ ∀ entry mirrCfg, n ≠ .setMirror entry mirrCfg) :
    MirrorInv c pt { s with todo := Function.update s.todo t (s.todo t ++ names) } last cfg := by
  have hmem (u : T) (n : IpoSection) :
      n ∈ Function.update s.todo t (s.todo t ++ names) u ↔ n ∈ s.todo u ∨ (u = t ∧ n ∈ names) := by
    by_cases hu : u = t
    · subst hu
      simp
    · simp [hu]
  refine ⟨h.regs, fun u devAddr hin => ?_, fun u entry mirrCfg hin => ?_, fun entry hentry => ?_⟩
  · exact ((hmem u _).1 hin).elim (h.noInit u devAddr) fun hin => (hnames _ hin.2).1 devAddr rfl
  · exact ((hmem u _).1 hin).elim (h.todo u entry mirrCfg) fun hin => absurd rfl ((hnames _ hin.2).2 entry mirrCfg)
  · exact (h.rules entry hentry).imp_right fun ⟨u, mirrCfg, hin⟩ => ⟨u, mirrCfg, (hmem u _).2 (.inl hin)⟩

/-- A call for copies, when there is no other. -/
theorem call_mirror (h : MirrorInv c pt s last cfg) (t : T) {p : Int} (hno : NoMirror s) :
    MirrorInv c pt { s with todo := Function.update s.todo t (s.todo t ++
      ((List.finRange IPO_NRULES).filter (IPO_SELF_ENT ≤ ·)).map (.setMirror · (mirrCfgOf c pt p))) } (some p) cfg := by
  have hmem (u : T) (n : IpoSection) (hin : n ∈ Function.update s.todo t (s.todo t ++
      ((List.finRange IPO_NRULES).filter (IPO_SELF_ENT ≤ ·)).map (.setMirror · (mirrCfgOf c pt p))) u) :
      n ∈ s.todo u ∨ ∃ entry, n = .setMirror entry (mirrCfgOf c pt p) := by
    by_cases hu : u = t
    · subst hu
      rw [Function.update_self, List.mem_append, List.mem_map] at hin
      exact hin.imp_right fun ⟨entry, _, he⟩ => ⟨entry, he.symm⟩
    · rw [Function.update_of_ne hu] at hin
      exact .inl hin
  refine ⟨h.regs, fun u devAddr hin => ?_, fun u entry mirrCfg hin => ?_, fun entry hentry => .inr ⟨t, mirrCfgOf c pt p, ?_⟩⟩
  · exact (hmem u _ hin).elim (h.noInit u devAddr) fun ⟨_, he⟩ => nomatch he
  · refine (hmem u _ hin).elim (fun hin => absurd hin (hno u entry mirrCfg)) fun ⟨_, he⟩ => ⟨p, rfl, ?_⟩
    exact (IpoSection.setMirror.inj he).2
  · show _ ∈ Function.update s.todo t _ t
    rw [Function.update_self, List.mem_append, List.mem_map]
    exact .inr ⟨entry, List.mem_filter.2 ⟨List.mem_finRange entry, decide_eq_true hentry⟩, rfl⟩

/-- The next section of a task. -/
theorem take (h : MirrorInv c pt s last cfg) {s' : Ipo T} {t : T} {n : IpoSection} {names : List IpoSection}
    (htodo : s.todo t = n :: names) (htodo' : s'.todo = Function.update s.todo t names)
    (hregs : s'.final.regs = ruleOf pt (ipoSpec pt cfg n).2) : MirrorInv c pt s' last (ipoSpec pt cfg n).2 := by
  have hsub (u : T) (x : IpoSection) (hin : x ∈ s'.todo u) : x ∈ s.todo u := by
    rw [htodo'] at hin
    by_cases hu : u = t
    · subst hu
      rw [Function.update_self] at hin
      rw [htodo]
      exact List.mem_cons_of_mem n hin
    · rwa [Function.update_of_ne hu] at hin
  have hkeep (u : T) (x : IpoSection) (hin : x ∈ s.todo u) (hne : x ≠ n) : x ∈ s'.todo u := by
    rw [htodo']
    by_cases hu : u = t
    · subst hu
      rw [htodo] at hin
      rw [Function.update_self]
      exact (List.mem_cons.1 hin).resolve_left hne
    · rwa [Function.update_of_ne hu]
  have hfirst : n ∈ s.todo t := htodo ▸ List.mem_cons_self
  refine ⟨hregs, fun u devAddr hin => h.noInit u devAddr (hsub u _ hin),
    fun u entry mirrCfg hin => h.todo u entry mirrCfg (hsub u _ hin), fun entry hentry => ?_⟩
  cases n with
  | init devAddr => exact absurd hfirst (h.noInit t devAddr)
  | setMac mac =>
    exact (h.rules entry hentry).imp_right fun ⟨u, m, hin⟩ => ⟨u, m, hkeep u _ hin (fun he => nomatch he)⟩
  | getMirror =>
    exact (h.rules entry hentry).imp_right fun ⟨u, m, hin⟩ => ⟨u, m, hkeep u _ hin (fun he => nomatch he)⟩
  | setMirror e mirrCfg =>
    obtain ⟨p, rfl, rfl⟩ := h.todo t e mirrCfg hfirst
    by_cases he : entry = e
    · subst he
      exact .inl (Function.update_self entry _ cfg.mirr)
    · refine (h.rules entry hentry).imp (fun hrule => (Function.update_of_ne he _ cfg.mirr).trans hrule) ?_
      exact fun ⟨u, m, hin⟩ => ⟨u, m, hkeep u _ hin fun heq => he (IpoSection.setMirror.inj heq).1⟩

/-- A step that is not a call. -/
theorem other (h : MirrorInv c pt s last cfg) {op : IpoOp T} (hop : ∀ t names, op.toIndirect c pt ≠ .call t names) :
    MirrorInv c pt (ipoStep c pt s op).2 last (cfg.take pt (ipoStep c pt s op).1) := by
  have hregs := final_ipoStep (c := c) h.regs op
  obtain ⟨hnone, htodo⟩ | ⟨u, n, names, hsome, htodo, htodo'⟩ := Indirect.step_cases (ipoCode c pt) s hop
  · have hout : (ipoStep c pt s op).1 = none := hnone
    have htodo : (ipoStep c pt s op).2.todo = s.todo := htodo
    rw [hout] at hregs ⊢
    exact ⟨hregs, htodo ▸ h.noInit, htodo ▸ h.todo, fun entry hentry => htodo ▸ h.rules entry hentry⟩
  · have hout : (ipoStep c pt s op).1 = some (u, n) := hsome
    rw [hout] at hregs ⊢
    exact h.take htodo htodo' hregs

theorem step (h : MirrorInv c pt s last cfg) (op : IpoOp T) (hop : Alone s op) :
    MirrorInv c pt (ipoStep c pt s op).2 (lastMirror c pt last op) (cfg.take pt (ipoStep c pt s op).1) := by
  cases op with
  | call t what =>
    cases what with
    | setMac mac =>
      refine h.call_other t fun n hn => ?_
      dsimp only [IpoCall.sections, edgxBrptSetMacAddr] at hn
      split at hn
      · obtain rfl := List.mem_singleton.1 hn
        exact ⟨fun _ he => (nomatch he), fun _ _ he => (nomatch he)⟩
      · exact nomatch hn
    | getMirror =>
      refine h.call_other t fun n hn => ?_
      obtain rfl := List.mem_singleton.1 hn
      exact ⟨fun _ he => (nomatch he), fun _ _ he => (nomatch he)⟩
    | setMirror p =>
      show MirrorInv c pt { s with todo := Function.update s.todo t (s.todo t ++ (edgxPtIpoSetMirror c pt p).2) }
        (if (edgxPtIpoSetMirror c pt p).1 = 0 then some p else last) cfg
      rw [edgxPtIpoSetMirror]
      split
      · exact h.call_other t fun n hn => nomatch hn
      · exact h.call_mirror t hop
  | run t => exact h.other fun _ _ he => nomatch he
  | done => exact h.other fun _ _ he => nomatch he

end MirrorInv

/-- What `mirrorPort` shows. -/
def shown : Option Int → Int
  | some mirrPtid => if 1 ≤ mirrPtid ∧ mirrPtid ≤ 16 then mirrPtid else -1
  | none => -1

/-- Of two calls that overlap each leaves copies in rules of its own. -/
example :
    let ops := goesOn false 224 ++ [.call false (.setMirror 3), .call true (.setMirror 4)] ++ goesOn false 5 ++ goesOn true 70 ++ goesOn false 70
    let regs := (after (ipoStep .modulo somePt) (probed .modulo somePt false someBank someMac) ops).bank.regs
    (regs 2).mirr = 0x9 ∧ (regs 3).mirr = 0x5 := by decide +kernel

/-! ## What stays -/

/-- A section that makes no copies to the port itself, and leaves those to the management
port. -/
def Proper (pt : Pt) : IpoSection → Prop
  | .init _ => False
  | .setMirror entry mirrCfg => IPO_SELF_ENT ≤ entry ∧ mirrCfg.getLsbD pt.mgmtPtid.val = true ∧
      (mirrCfg.getLsbD pt.ptid.val = true → pt.ptid = pt.mgmtPtid)
  | _ => True

/-- The copies of a configuration that proper sections make. -/
structure CopiesOk (pt : Pt) (cfg : IpoCfg) : Prop where
  reserved : ∀ entry < IPO_SELF_ENT, cfg.mirr entry = BIT pt.mgmtPtid.val
  mgmt : (cfg.mirr IPO_SELF_ENT).getLsbD pt.mgmtPtid.val = true
  noSelf : ∀ entry, (cfg.mirr entry).getLsbD pt.ptid.val = true → pt.ptid = pt.mgmtPtid

theorem CopiesOk.take (h : CopiesOk pt cfg) {n : IpoSection} (hn : Proper pt n) : CopiesOk pt (ipoSpec pt cfg n).2 := by
  cases n with
  | init devAddr => exact hn.elim
  | setMac mac => exact ⟨h.reserved, h.mgmt, h.noSelf⟩
  | getMirror => exact h
  | setMirror e mirrCfg =>
    obtain ⟨hself, hmgmt, hno⟩ := hn
    refine ⟨fun entry hentry => ?_, ?_, fun entry hentry => ?_⟩
    · exact (Function.update_of_ne (Fin.ne_of_lt (Fin.lt_of_lt_of_le hentry hself)) mirrCfg cfg.mirr).trans
        (h.reserved entry hentry)
    · show (Function.update cfg.mirr e mirrCfg IPO_SELF_ENT).getLsbD _ = true
      by_cases he : IPO_SELF_ENT = e
      · rw [← he, Function.update_self]
        exact hmgmt
      · rw [Function.update_of_ne he]
        exact h.mgmt
    · change (Function.update cfg.mirr e mirrCfg entry).getLsbD _ = true at hentry
      by_cases he : entry = e
      · rw [he, Function.update_self] at hentry
        exact hno hentry
      · rw [Function.update_of_ne he] at hentry
        exact h.noSelf entry hentry

/-- Calls ask for proper sections. -/
theorem proper_sections {what : IpoCall} (hint : ∀ p, what = .setMirror p → -2 ^ 31 < p ∧ p ≤ 32) {n : IpoSection}
    (hn : n ∈ (what.sections c pt).2) : Proper pt n := by
  cases what with
  | setMac mac =>
    dsimp only [IpoCall.sections, edgxBrptSetMacAddr] at hn
    split at hn
    · obtain rfl := List.mem_singleton.1 hn
      exact True.intro
    · exact nomatch hn
  | getMirror =>
    obtain rfl := List.mem_singleton.1 hn
    exact True.intro
  | setMirror p =>
    obtain ⟨hlow, hhigh⟩ := hint p rfl
    dsimp only [IpoCall.sections, edgxPtIpoSetMirror] at hn
    rw [mirrPtidInt_eq hlow hhigh] at hn
    split at hn
    · exact nomatch hn
    · rename_i hne
      obtain ⟨entry, hentry, rfl⟩ := List.mem_map.1 hn
      refine ⟨of_decide_eq_true (List.mem_filter.1 hentry).2, ?_, fun h => ?_⟩
      · rw [getLsbD_mirrCfgOf c pt hlow hhigh pt.mgmtPtid.isLt, decide_eq_true rfl, Bool.true_or]
      · rw [getLsbD_mirrCfgOf c pt hlow hhigh pt.ptid.isLt, Bool.or_eq_true, decide_eq_true_iff, decide_eq_true_iff] at h
        exact h.elim Fin.ext fun h => absurd (.inl (by omega)) hne

structure KeptInv (pt : Pt) (s : Ipo T) (cfg : IpoCfg) : Prop where
  regs : s.final.regs = ruleOf pt cfg
  todo : ∀ u, ∀ n ∈ s.todo u, Proper pt n
  copies : CopiesOk pt cfg

theorem KeptInv.step (h : KeptInv pt s cfg) {op : IpoOp T} (hint : ∀ u p, op = .call u (.setMirror p) → -2 ^ 31 < p ∧ p ≤ 32) :
    KeptInv pt (ipoStep c pt s op).2 (cfg.take pt (ipoStep c pt s op).1) := by
  have hproper (u : T) (n : IpoSection) (hn : (ipoStep c pt s op).1 = some (u, n) ∨ n ∈ (ipoStep c pt s op).2.todo u) :
      Proper pt n := by
    obtain hold | hnew := Indirect.mem_of_step (ipoCode c pt) s (op.toIndirect c pt) hn
    · exact h.todo u n hold
    · rw [show [op.toIndirect c pt] = [op].map (IpoOp.toIndirect c pt) from rfl, called_ipoStep] at hnew
      obtain ⟨op', hop', hin⟩ := List.mem_flatMap.1 hnew
      obtain rfl := List.mem_singleton.1 hop'
      cases op' with
      | call t what =>
        change n ∈ (if t = u then (what.sections c pt).2 else []) at hin
        split at hin
        · exact proper_sections (fun p hp => hint t p (hp ▸ rfl)) hin
        · exact nomatch hin
      | run t => exact nomatch hin
      | done => exact nomatch hin
  refine ⟨final_ipoStep h.regs op, fun u n hn => hproper u n (.inr hn), ?_⟩
  cases hout : (ipoStep c pt s op).1 with
  | none => exact h.copies
  | some x => exact h.copies.take (hproper x.1 x.2 (.inl hout))

end Runs

end TsnSwitch.Port
