/-
The waits for a command of the VLAN registers (edge_br_vlan.c) and of the
timestamps (edge_com_ts.c), with `edgx_get16` of edge_util.h.

Its arguments are the highest and the lowest bit. The waits of the VLAN commands
have them in the other order, and those of the timestamps have the flag where its
number is meant. Both shift by counts that C does not define. What is left of the
test looks at the flag of the FID commands alone, and at no flag of the
timestamps (`waits_iff`).
-/
import TsnSwitch.Lib.Polled
import TsnSwitch.BrVlan.State

namespace TsnSwitch.Waits

open Lib BrVlan

/-- What the compiler makes of shifts by counts that C does not define. -/
structure CShift where
  shl : BitVec 32 → Int → BitVec 32
  shr : BitVec 32 → Int → BitVec 32

namespace CShift

variable (c : CShift)

def left (x : BitVec 32) (n : Int) : BitVec 32 := if 0 ≤ n ∧ n < 32 then x <<< n.toNat else c.shl x n

def right (x : BitVec 32) (n : Int) : BitVec 32 := if 0 ≤ n ∧ n < 32 then x >>> n.toNat else c.shr x n

/-- The counts modulo 32, as the shift instructions of many processors take them. -/
def modulo : CShift where
  shl := fun x n => x <<< (n % 32).toNat
  shr := fun x n => x >>> (n % 32).toNat

end CShift

section Get16

variable (c : CShift)

def edgxGet16 (word : BitVec 16) (bithi bitlo : Int) : BitVec 16 :=
  let mask : BitVec 16 := (c.left 1 (bithi - bitlo + 1) - 1).setWidth 16
  (c.right (word.setWidth 32) bitlo &&& mask.setWidth 32).setWidth 16

/-- The word that is written back by `edgx_set16`. -/
def edgxSet16 (word : BitVec 16) (bithi bitlo : Int) (val : BitVec 16) : BitVec 16 :=
  let mask : BitVec 16 := (c.left (c.left 1 (bithi - bitlo + 1) - 1) bitlo).setWidth 16
  let v : BitVec 16 := (c.left (val.setWidth 32) bitlo).setWidth 16 &&& mask
  (word &&& ~~~mask) ||| v

end Get16

/-! ## The VLAN commands -/

inductive VlanReg where
  | cmd
  | ports
  | tag
  | fid
  deriving DecidableEq

abbrev VlanProg := Prog VlanReg (BitVec 16)

section Vlan

variable (c : CShift)

/-- The loop after each command. -/
def vlanWait (p : VlanProg) : VlanProg := .poll .cmd (fun word => edgxGet16 c word 13 15 = 0) p

/-- `_edgx_br_vlan_set_te_fid` for the VIDs of a FID. -/
def brVlanSetTeFid (fid : BitVec 16) (te : Bool) (p : VlanProg) : List (BitVec 16) → VlanProg
  | [] => p
  | vid :: vids =>
    .wr .fid (fid ||| ENGINEERED_TRAFFIC te) <| .wr .cmd (vid ||| EDGX_BR_VLAN_CMD_WRITE ||| EDGX_BR_VLAN_CMD_FID) <|
      vlanWait c <| brVlanSetTeFid fid te p vids

/-- The registers of `_edgx_br_move_vid2fid`. -/
def brMoveVid2fid (vid fid : BitVec 16) (p : VlanProg) : VlanProg :=
  .wr .cmd (vid ||| EDGX_BR_VLAN_CMD_READ ||| EDGX_BR_VLAN_CMD_FID) <| vlanWait c <|
    .rd .fid fun word => .wr .fid (edgxSet16 c word 5 0 fid) <|
      .wr .cmd (vid ||| EDGX_BR_VLAN_CMD_WRITE ||| EDGX_BR_VLAN_CMD_FID) <| vlanWait c p

/-- The registers of `edgx_br_vlan_add_pt`. -/
def brVlanAddPt (vid ptvec : BitVec 16) (ptid : Nat) (untagged : Bool) (p : VlanProg) : VlanProg :=
  .wr .cmd (vid ||| EDGX_BR_VLAN_CMD_READ ||| EDGX_BR_VLAN_CMD_TAG) <| vlanWait c <|
    .wr .ports ptvec <| .rd .tag fun word =>
      .wr .tag (edgxSet16 c word ptid ptid (if untagged then 1 else 0)) <|
        .wr .cmd (vid ||| EDGX_BR_VLAN_CMD_WRITE ||| EDGX_BR_VLAN_CMD_PORTS ||| EDGX_BR_VLAN_CMD_TAG) <| vlanWait c p

/-- The registers of `edgx_br_vlan_del_pt`, and of the reset of a VID. -/
def brVlanDelPt (vid ptvec : BitVec 16) (p : VlanProg) : VlanProg :=
  .wr .ports ptvec <| .wr .cmd (vid ||| EDGX_BR_VLAN_CMD_WRITE ||| EDGX_BR_VLAN_CMD_PORTS) <| vlanWait c p

/-- The registers of `edgx_br_vlan_dump_pt` for the VIDs of a port, until the callback
stops at one. -/
def brVlanDumpPt (cb : BitVec 16 → BitVec 16 → Bool) (p : VlanProg) : List (BitVec 16) → VlanProg
  | [] => p
  | vid :: vids =>
    .wr .cmd (vid ||| EDGX_BR_VLAN_CMD_READ ||| EDGX_BR_VLAN_CMD_TAG) <| vlanWait c <|
      .rd .tag fun word => if cb vid word then p else brVlanDumpPt cb p vids

/-- What is done under the lock of the registers. -/
inductive VlanSeq where
  | setTeFid (fid : BitVec 16) (te : Bool) (vids : List (BitVec 16))
  | moveVid2fid (vid fid : BitVec 16)
  | addPt (vid ptvec : BitVec 16) (ptid : Nat) (untagged : Bool)
  | delPt (vid ptvec : BitVec 16)
  | dumpPt (cb : BitVec 16 → BitVec 16 → Bool) (vids : List (BitVec 16))

def VlanSeq.prog (p : VlanProg) : VlanSeq → VlanProg
  | .setTeFid fid te vids => brVlanSetTeFid c fid te p vids
  | .moveVid2fid vid fid => brMoveVid2fid c vid fid p
  | .addPt vid ptvec ptid untagged => brVlanAddPt c vid ptvec ptid untagged p
  | .delPt vid ptvec => brVlanDelPt c vid ptvec p
  | .dumpPt cb vids => brVlanDumpPt c cb p vids

/-- One after the other. -/
def vlanRun (seqs : List VlanSeq) : VlanProg := seqs.foldr (fun seq p => seq.prog c p) .done

/-- No flag of a command is set. -/
def VlanClear (word : BitVec 16) : Prop :=
  word &&& (EDGX_BR_VLAN_CMD_PORTS ||| EDGX_BR_VLAN_CMD_TAG ||| EDGX_BR_VLAN_CMD_FID) = 0

/-- The words that end a wait: those without the flag of FID commands, or all of them
if the mask lacks its lowest bit. -/
def vlanTest (word : BitVec 16) : Bool := !(word.getLsbD 15 && (c.shl 1 (-1) - 1).getLsbD 0)

theorem eq_zero_iff_of_bit {x : BitVec 16} {b : Bool} (h : ∀ i < 16, x.getLsbD i = (decide (i = 0) && b)) :
    x = 0 ↔ b = false := by
  constructor
  · intro hx
    have h0 := h 0 (by decide)
    rw [hx] at h0
    simpa using h0.symm
  · intro hb
    refine BitVec.eq_of_getLsbD_eq fun i hi => ?_
    rw [h i hi, hb]
    simp

theorem vlanTest_eq (word : BitVec 16) : decide (edgxGet16 c word 13 15 = 0) = vlanTest c word := by
  have hbit (i : Nat) (hi : i < 16) : (edgxGet16 c word 13 15).getLsbD i =
      (decide (i = 0) && (word.getLsbD 15 && (c.shl 1 (-1) - 1).getLsbD 0)) := by
    have hleft : c.left 1 (13 - 15 + 1) = c.shl 1 (-1) := if_neg (by decide)
    have hright : c.right (word.setWidth 32) 15 = word.setWidth 32 >>> 15 := if_pos (by decide)
    rw [edgxGet16, hleft, hright]
    generalize c.shl 1 (-1) - 1 = mask
    by_cases h0 : i = 0
    · subst h0
      simp
    · simp [h0, show 16 ≤ 15 + i by omega]
  rw [Bool.eq_iff_iff, decide_eq_true_iff, eq_zero_iff_of_bit hbit, vlanTest, Bool.not_eq_true']

theorem vlanReady_eq : (fun word => decide (edgxGet16 c word 13 15 = 0)) = vlanTest c := funext (vlanTest_eq c)

section Polite

variable {c} {p : VlanProg}

theorem polite_wait (h : Polite .cmd (vlanTest c) false p) : Polite .cmd (vlanTest c) true (vlanWait c p) :=
  ⟨rfl, vlanReady_eq c, h⟩

theorem polite_cmd (word : BitVec 16) (h : Polite .cmd (vlanTest c) true p) :
    Polite .cmd (vlanTest c) false (.wr .cmd word p) :=
  ⟨fun _ => h, fun hne => absurd rfl hne⟩

theorem polite_wr (reg : VlanReg) (hreg : reg ≠ .cmd) (word : BitVec 16) (h : Polite .cmd (vlanTest c) false p) :
    Polite .cmd (vlanTest c) false (.wr reg word p) :=
  ⟨fun he => absurd he hreg, fun _ => h⟩

theorem polite_rd (reg : VlanReg) (hreg : reg ≠ .cmd) {p : BitVec 16 → VlanProg}
    (h : ∀ word, Polite .cmd (vlanTest c) false (p word)) : Polite .cmd (vlanTest c) false (.rd reg p) :=
  ⟨hreg, h⟩

/-- Every sequence polls after each command. -/
theorem polite_prog (h : Polite .cmd (vlanTest c) false p) (seq : VlanSeq) :
    Polite .cmd (vlanTest c) false (seq.prog c p) := by
  cases seq with
  | setTeFid fid te vids =>
    rw [VlanSeq.prog]
    induction vids with
    | nil => exact h
    | cons vid vids ih => exact polite_wr .fid (by decide) _ (polite_cmd _ (polite_wait ih))
  | moveVid2fid vid fid =>
    refine polite_cmd _ (polite_wait (polite_rd .fid (by decide) fun word => ?_))
    exact polite_wr .fid (by decide) _ (polite_cmd _ (polite_wait h))
  | addPt vid ptvec ptid untagged =>
    refine polite_cmd _ (polite_wait (polite_wr .ports (by decide) _ (polite_rd .tag (by decide) fun word => ?_)))
    exact polite_wr .tag (by decide) _ (polite_cmd _ (polite_wait h))
  | delPt vid ptvec => exact polite_wr .ports (by decide) _ (polite_cmd _ (polite_wait h))
  | dumpPt cb vids =>
    rw [VlanSeq.prog]
    induction vids with
    | nil => exact h
    | cons vid vids ih =>
      refine polite_cmd _ (polite_wait (polite_rd .tag (by decide) fun word => ?_))
      show Polite _ _ _ (if cb vid word then p else brVlanDumpPt c cb p vids)
      split
      · exact h
      · exact ih

theorem polite_vlanRun (seqs : List VlanSeq) : Polite .cmd (vlanTest c) false (vlanRun c seqs) := by
  induction seqs with
  | nil => exact True.intro
  | cons seq seqs ih => exact polite_prog ih seq

end Polite

end Vlan

/-! ## The timestamps -/

def EDGX_COM_TX_TS_READ_CMD : BitVec 16 := 0x0 <<< 4
def EDGX_COM_RX_TS_READ_CMD : BitVec 16 := 0x1 <<< 4
def EDGX_COM_TRANSFER_TS_CMD : BitVec 16 := 0x1 <<< 14

inductive TsReg where
  | cmd
  | hdrMsg0
  | hdrMsg1
  | timeHi
  | timeLo
  deriving DecidableEq

abbrev TsProg := Prog TsReg (BitVec 16)

section Ts

variable (c : CShift)

/-- `edgx_com_ts_read_rx` and `edgx_com_ts_read_tx`, which differ in the command, with
the registers that `edgx_com_ts_read` reads. -/
def comTsRead (cmd ptid : BitVec 16) (p : TsProg) : TsProg :=
  .wr .cmd (ptid ||| cmd ||| EDGX_COM_TRANSFER_TS_CMD) <|
    .poll .cmd (fun word => edgxGet16 c word EDGX_COM_TRANSFER_TS_CMD.toNat EDGX_COM_TRANSFER_TS_CMD.toNat = 0) <|
      .rd .hdrMsg0 fun _ => .rd .hdrMsg1 fun _ => .rd .timeHi fun _ => .rd .timeLo fun _ => p

def comTsReadRx (ptid : BitVec 16) (p : TsProg) : TsProg := comTsRead c EDGX_COM_RX_TS_READ_CMD ptid p

def comTsReadTx (ptid : BitVec 16) (p : TsProg) : TsProg := comTsRead c EDGX_COM_TX_TS_READ_CMD ptid p

inductive TsSeq where
  | readRx (ptid : BitVec 16)
  | readTx (ptid : BitVec 16)

def TsSeq.prog (p : TsProg) : TsSeq → TsProg
  | .readRx ptid => comTsReadRx c ptid p
  | .readTx ptid => comTsReadTx c ptid p

def tsRun (seqs : List TsSeq) : TsProg := seqs.foldr (fun seq p => seq.prog c p) .done

def TsClear (word : BitVec 16) : Prop := word &&& EDGX_COM_TRANSFER_TS_CMD = 0

/-- The words that end a wait: what the compiler makes of a shift by 16384 has its
lowest bit clear. -/
def tsTest (word : BitVec 16) : Bool := !(c.shr (word.setWidth 32) 16384).getLsbD 0

theorem tsTest_eq (word : BitVec 16) :
    decide (edgxGet16 c word EDGX_COM_TRANSFER_TS_CMD.toNat EDGX_COM_TRANSFER_TS_CMD.toNat = 0) = tsTest c word := by
  have hflag : (EDGX_COM_TRANSFER_TS_CMD.toNat : Int) = 16384 := rfl
  have hleft : c.left 1 (16384 - 16384 + 1) = 2 := if_pos (by decide)
  have hright : c.right (word.setWidth 32) 16384 = c.shr (word.setWidth 32) 16384 := if_neg (by decide)
  rw [hflag, edgxGet16, hleft, hright, tsTest]
  generalize c.shr (word.setWidth 32) 16384 = x
  have hbit (i : Nat) (_ : i < 16) :
      ((x &&& ((2 - 1 : BitVec 32).setWidth 16).setWidth 32).setWidth 16).getLsbD i = (decide (i = 0) && x.getLsbD 0) := by
    rcases Nat.eq_zero_or_pos i with rfl | hpos
    · simp
    · simp [Nat.ne_of_gt hpos]
  rw [Bool.eq_iff_iff, decide_eq_true_iff, eq_zero_iff_of_bit hbit, Bool.not_eq_true']

theorem tsReady_eq : (fun word =>
    decide (edgxGet16 c word EDGX_COM_TRANSFER_TS_CMD.toNat EDGX_COM_TRANSFER_TS_CMD.toNat = 0)) = tsTest c :=
  funext (tsTest_eq c)

theorem polite_tsRun (seqs : List TsSeq) : Polite .cmd (tsTest c) false (tsRun c seqs) := by
  have hread (cmd ptid : BitVec 16) {p : TsProg} (h : Polite .cmd (tsTest c) false p) :
      Polite .cmd (tsTest c) false (comTsRead c cmd ptid p) := by
    refine ⟨fun _ => ⟨rfl, tsReady_eq c, ?_⟩, fun hne => absurd rfl hne⟩
    exact ⟨by decide, fun _ => ⟨by decide, fun _ => ⟨by decide, fun _ => ⟨by decide, fun _ => h⟩⟩⟩⟩
  induction seqs with
  | nil => exact True.intro
  | cons seq seqs ih =>
    cases seq with
    | readRx ptid => exact hread _ ptid ih
    | readTx ptid => exact hread _ ptid ih

end Ts

/-! ## What the waits wait for -/

/-- With the highest bit first, all bits of the range are looked at. -/
theorem edgxGet16_range (c : CShift) (word : BitVec 16) {hi lo : Nat} (hle : lo ≤ hi) (hlt : hi < 16) :
    edgxGet16 c word hi lo = 0 ↔ ∀ i, lo ≤ i → i ≤ hi → word.getLsbD i = false := by
  obtain ⟨n, rfl⟩ := Nat.exists_eq_add_of_le hle
  have hpow : 2 ^ (n + 1) < 2 ^ 32 := Nat.pow_lt_pow_right (by decide) (by omega)
  have hleft : c.left 1 ((lo + n : Nat) - lo + 1) = (1 : BitVec 32) <<< (n + 1) := by
    have hcount : (((lo + n : Nat) : Int) - lo + 1) = ((n + 1 : Nat) : Int) := by omega
    rw [hcount]
    exact if_pos (by omega)
  have hright : c.right (word.setWidth 32) lo = word.setWidth 32 >>> lo := if_pos (by omega)
  have hone : ((1 : BitVec 32) <<< (n + 1)).toNat = 2 ^ (n + 1) := by
    rw [BitVec.toNat_shiftLeft, Nat.shiftLeft_eq, show (1 : BitVec 32).toNat = 1 from rfl, Nat.one_mul, Nat.mod_eq_of_lt hpow]
  have hmask (i : Nat) : ((1 : BitVec 32) <<< (n + 1) - 1).getLsbD i = decide (i < n + 1) := by
    have hle : (1 : BitVec 32) ≤ (1 : BitVec 32) <<< (n + 1) := by
      rw [BitVec.le_def, hone]
      exact Nat.one_le_two_pow
    rw [BitVec.getLsbD, BitVec.toNat_sub_of_le hle, hone]
    exact Nat.testBit_two_pow_sub_one _ _
  have hbit (i : Nat) (hi : i < 16) :
      (edgxGet16 c word (lo + n : Nat) lo).getLsbD i = (word.getLsbD (lo + i) && decide (i < n + 1)) := by
    rw [edgxGet16, hleft, hright]
    simp only [BitVec.getLsbD_setWidth, BitVec.getLsbD_and, BitVec.getLsbD_ushiftRight, hmask]
    simp [hi, show i < 32 by omega, show lo + i < 32 by omega]
  constructor
  · intro h i hlo hhi
    have hi := hbit (i - lo) (by omega)
    rw [h, Nat.add_sub_cancel' hlo, decide_eq_true (by omega), Bool.and_true] at hi
    simpa using hi.symm
  · intro h
    refine BitVec.eq_of_getLsbD_eq fun i hi => ?_
    rw [hbit i hi]
    by_cases hn : i < n + 1
    · rw [h (lo + i) (by omega) (by omega)]
      simp
    · simp [hn]

/-- What the tests look at if shifts take their counts modulo 32. -/
theorem tests_modulo (word : BitVec 16) :
    vlanTest .modulo word = !word.getLsbD 15 ∧ tsTest .modulo word = !word.getLsbD 0 := by
  constructor
  · have hmask : (CShift.modulo.shl 1 (-1) - 1).getLsbD 0 = true := by decide
    rw [vlanTest, hmask, Bool.and_true]
  · rw [tsTest, CShift.modulo]
    simp

/-- **No register is accessed and no wait ends while a flag is set**, in any run of the
sequences, just when each wait ends on a word without a flag, which the test does
not see to. -/
theorem waits_iff (c : CShift) :
    (∀ seqs words, Safe .cmd VlanClear True (exec (vlanRun c seqs) words) ↔
      EndsClear VlanClear (vlanTest c) (vlanRun c seqs) words) ∧
    ∀ seqs words, Safe .cmd TsClear True (exec (tsRun c seqs) words) ↔
      EndsClear TsClear (tsTest c) (tsRun c seqs) words :=
  ⟨fun seqs words => (polite_vlanRun seqs).safe_iff words, fun seqs words => (polite_tsRun c seqs).safe_iff words⟩

/-- A port is added to a VLAN, and the first word that is polled is the command itself,
whatever the compiler does. The same with the timestamp of port 2. -/
theorem not_waits :
    (∀ c, ¬ Safe .cmd VlanClear True (exec (vlanRun c [.addPt 5 0x3 1 true]) [0x4005])) ∧
    ¬ Safe .cmd TsClear True (exec (tsRun .modulo [.readRx 2]) [0x4012]) := by
  refine ⟨fun c h => ?_, fun h => ?_⟩
  · have hend := ((polite_vlanRun _).safe_iff _).1 h
    have hready : fromReady (vlanTest c) [0x4005] = [0x4005] := by simp [fromReady, vlanTest]
    simp only [vlanRun, List.foldr, VlanSeq.prog, brVlanAddPt, vlanWait, EndsClear, hready] at hend
    exact absurd hend.1 (by unfold VlanClear; decide)
  · have hend := ((polite_tsRun _ _).safe_iff _).1 h
    have hready : fromReady (tsTest .modulo) [0x4012] = [0x4012] := by
      simp [fromReady, (tests_modulo _).2]
    simp only [tsRun, List.foldr, TsSeq.prog, comTsReadRx, comTsRead, EndsClear, hready] at hend
    exact absurd hend.1 (by unfold TsClear; decide)

end TsnSwitch.Waits
