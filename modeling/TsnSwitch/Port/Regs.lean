/-
The registers of a port with more than one field (edge_port.c). `edgx_set16` reads the
register and writes it back, and nothing keeps two tasks from doing so at the same time:
the speed of a link is set while `cutThrough` is stored, and the VLAN of a port while its
default priority is.
-/
import TsnSwitch.Lib.Rmw
import TsnSwitch.Port.Fields
import TsnSwitch.BrVlan.State

namespace TsnSwitch.Port

open Lib Waits

inductive PortField where
  | fwdState
  | mgmt
  | mii
  | speed
  | cutThrough
  | pvid
  | dfltPcp
  | prioPvid
  /-- Of all queues. -/
  | cutQueues
  | prioRegen (pcp : Fin 8)
  | queue (prio : Fin 8)
  | fid (fid : Nat)
  deriving DecidableEq

/-- A register, with the highest and the lowest bit of a field. -/
structure FieldPos where
  ofs : Nat
  bithi : Nat
  bitlo : Nat

def PRIO_REGEN_LO : Nat := 0x16
def PRIO_REGEN_HI : Nat := 0x18
def QUEUE_TBL_LO : Nat := 0x20
def QUEUE_TBL_HI : Nat := 0x22
def FIDCFG_REG (ofs : Nat) : Nat := 0x80 + ofs

/-- `lo` and `hi` are the registers of the type. -/
def getTcPrioParams (idx lo hi : Nat) : FieldPos :=
  if idx < 4 then ⟨lo, idx * 4 + 3, idx * 4⟩ else ⟨hi, (idx - 4) * 4 + 3, (idx - 4) * 4⟩

def PortField.pos : PortField → FieldPos
  | fwdState => ⟨0x0, 1, 0⟩
  | mgmt => ⟨0x0, 3, 2⟩
  | mii => ⟨0x0, 5, 4⟩
  | speed => ⟨0x0, 9, 8⟩
  | cutThrough => ⟨0x0, 15, 15⟩
  | pvid => ⟨0x10, 11, 0⟩
  | dfltPcp => ⟨0x10, 14, 12⟩
  | prioPvid => ⟨0x12, 11, 0⟩
  | cutQueues => ⟨0x1a, 15, 0⟩
  | prioRegen pcp => getTcPrioParams pcp.val PRIO_REGEN_LO PRIO_REGEN_HI
  | queue prio => getTcPrioParams prio.val QUEUE_TBL_LO QUEUE_TBL_HI
  | fid n => ⟨FIDCFG_REG (n / 8 * 2), n % 8 * 2 + 1, n % 8 * 2⟩

/-- The second register of a table is behind the first. -/
theorem getTcPrioParams_eq (i : Fin 8) (lo : Nat) :
    getTcPrioParams i.val lo (lo + 2) = ⟨lo + i.val / 4 * 2, i.val % 4 * 4 + 3, i.val % 4 * 4⟩ := by
  have := i.isLt
  unfold getTcPrioParams
  split
  · rw [Nat.mod_eq_of_lt ‹_›, Nat.div_eq_of_lt ‹_›, Nat.zero_mul]
    rfl
  · rw [show i.val % 4 = i.val - 4 by omega, show i.val / 4 = 1 by omega]

theorem params_prioRegen (i : Fin 8) : getTcPrioParams i.val PRIO_REGEN_LO PRIO_REGEN_HI =
    ⟨0x16 + i.val / 4 * 2, i.val % 4 * 4 + 3, i.val % 4 * 4⟩ :=
  getTcPrioParams_eq i 0x16

theorem params_queue (i : Fin 8) : getTcPrioParams i.val QUEUE_TBL_LO QUEUE_TBL_HI =
    ⟨0x20 + i.val / 4 * 2, i.val % 4 * 4 + 3, i.val % 4 * 4⟩ :=
  getTcPrioParams_eq i 0x20

theorem PortField.pos_le (f : PortField) : f.pos.bitlo ≤ f.pos.bithi ∧ f.pos.bithi < 16 := by
  cases f with
  | prioRegen i =>
    rw [pos, params_prioRegen]
    dsimp only
    omega
  | queue i =>
    rw [pos, params_queue]
    dsimp only
    omega
  | fid n =>
    dsimp only [pos]
    omega
  | _ => simp [pos]

/-- Fields of a register have no bits in common. -/
theorem PortField.pos_disjoint {f g : PortField} (hofs : g.pos.ofs = f.pos.ofs) (hne : g ≠ f) :
    g.pos.bithi < f.pos.bitlo ∨ f.pos.bithi < g.pos.bitlo := by
  cases f <;> cases g <;> try exact absurd rfl hne
  all_goals
    simp only [pos, params_prioRegen, params_queue, FIDCFG_REG] at hofs ⊢
  case prioRegen.prioRegen i j =>
    have hij : j.val ≠ i.val := fun h => hne (congrArg _ (Fin.ext h))
    omega
  case queue.queue i j =>
    have hij : j.val ≠ i.val := fun h => hne (congrArg _ (Fin.ext h))
    omega
  case fid.fid m n =>
    have hmn : n ≠ m := fun h => hne (congrArg _ h)
    omega
  all_goals omega

variable (c : CShift)

/-- The fields in their registers. -/
def portLayout : Layout PortField (BitVec 16) (BitVec 16) Nat where
  wordOf f := f.pos.ofs
  get f word := edgxGet16 c word f.pos.bithi f.pos.bitlo
  put f val word := edgxSet16 c word f.pos.bithi f.pos.bitlo val
  trim f val := BitVec.ofNat 16 (val.toNat % 2 ^ (f.pos.bithi - f.pos.bitlo + 1))
  get_put f val word := by
    obtain ⟨hle, hhi⟩ := f.pos_le
    refine BitVec.eq_of_getLsbD_eq fun i hi => ?_
    rw [getLsbD_edgxGet16 c hle hhi, BitVec.getLsbD_ofNat, Nat.testBit_mod_two_pow, decide_eq_true hi, Bool.true_and]
    by_cases hin : i ≤ f.pos.bithi - f.pos.bitlo
    · rw [getLsbD_edgxSet16 c hle hhi word val (by omega), if_pos (by omega), Nat.add_sub_cancel_left,
        decide_eq_true (Nat.lt_succ_of_le hin), decide_eq_true hin]
      rfl
    · rw [decide_eq_false hin, decide_eq_false (by omega), Bool.false_and, Bool.false_and]
  get_put_of_ne f g val word hofs hne := by
    obtain ⟨hle, hhi⟩ := f.pos_le
    obtain ⟨hle', hhi'⟩ := g.pos_le
    have hdisj := PortField.pos_disjoint hofs hne
    refine BitVec.eq_of_getLsbD_eq fun i hi => ?_
    rw [getLsbD_edgxGet16 c hle' hhi', getLsbD_edgxGet16 c hle' hhi']
    by_cases hin : i ≤ g.pos.bithi - g.pos.bitlo
    · rw [getLsbD_edgxSet16 c hle hhi word val (by omega), if_neg (by omega)]
    · rw [decide_eq_false hin, Bool.false_and, Bool.false_and]

/-! ## Calls -/

def edgxSysfsTblParams (ofs cnt tsz : Nat) : Option Nat :=
  if ofs % tsz ≠ 0 then none else if cnt ≠ tsz then none else some (ofs / tsz)

def edgxPtSetPvid (vid : BitVec 16) : List (PortField × BitVec 16) := [(.pvid, vid), (.prioPvid, vid)]

def edgxPtSetDfltPcp (prio : BitVec 32) : Int × List (PortField × BitVec 16) :=
  if prio.toNat > 7 then (-EINVAL, []) else (0, [(.dfltPcp, prio.setWidth 16)])

def prioRegenTblWrite (ofs count : Nat) (val : BitVec 8) : Int × List (PortField × BitVec 16) :=
  match edgxSysfsTblParams ofs count 1 with
  | none => (-EINVAL, [])
  | some idx =>
    if h : idx ≤ 7 ∧ val.toNat ≤ 7 then (count, [(.prioRegen ⟨idx, Nat.lt_succ_of_le h.1⟩, val.setWidth 16)])
    else (-EINVAL, [])

def trafficClassTblWrite (queues ofs count : Nat) (val : BitVec 8) : Int × List (PortField × BitVec 16) :=
  match edgxSysfsTblParams ofs count 1 with
  | none => (-EINVAL, [])
  | some idx =>
    if h : idx ≤ 7 ∧ val.toNat ≤ queues - 1 then (count, [(.queue ⟨idx, Nat.lt_succ_of_le h.1⟩, val.setWidth 16)])
    else (-EINVAL, [])

def cutthroughStore (en : Bool) : List (PortField × BitVec 16) :=
  [(.cutQueues, if en then 0xff else 0x0), (.cutThrough, if en then 1 else 0)]

inductive Speed where
  | s10
  | s100
  | s1000
  | unknown

def edgxPtUpdateSpeed : Speed → List (PortField × BitVec 16)
  | .s10 => [(.mii, 0x0), (.speed, 0x3)]
  | .s100 => [(.mii, 0x0), (.speed, 0x2)]
  | .s1000 => [(.mii, 0x2), (.speed, 0x1)]
  | .unknown => []

/-- An unknown state is not programmed. -/
def edgxPtSetFidFwdState (fid : Nat) (ptstate : BitVec 8) : List (PortField × BitVec 16) :=
  match BrVlan.hwState ptstate with
  | none => []
  | some st => [(.fid fid, st.setWidth 16)]

inductive PortCall where
  | setPvid (vid : BitVec 16)
  | setDfltPcp (prio : BitVec 32)
  | prioRegen (ofs count : Nat) (val : BitVec 8)
  | trafficClass (ofs count : Nat) (val : BitVec 8)
  | cutthrough (en : Bool)
  | updateSpeed (speed : Speed)
  | setFidFwdState (fid : Nat) (ptstate : BitVec 8)
  | setMgmt (isMgmt : Bool)

/-- The fields that a call writes, in this order. -/
def PortCall.writes (queues : Nat) : PortCall → List (PortField × BitVec 16)
  | setPvid vid => edgxPtSetPvid vid
  | setDfltPcp prio => (edgxPtSetDfltPcp prio).2
  | prioRegen ofs count val => (prioRegenTblWrite ofs count val).2
  | trafficClass ofs count val => (trafficClassTblWrite queues ofs count val).2
  | cutthrough en => cutthroughStore en
  | updateSpeed speed => edgxPtUpdateSpeed speed
  | setFidFwdState fid ptstate => edgxPtSetFidFwdState fid ptstate
  | setMgmt isMgmt => [(.mgmt, if isMgmt then 1 else 0)]

inductive PortOp (T : Type*) where
  | call (t : T) (what : PortCall)
  | run (t : T)

def PortOp.toRmw {T : Type*} (queues : Nat) : PortOp T → RmwOp T PortField (BitVec 16)
  | .call t what => .call t (what.writes queues)
  | .run t => .run t

abbrev PortRegs (T : Type*) := Rmw T PortField (BitVec 16) (BitVec 16) Nat

/-! ## What is read -/

def edgxPtGetPvid (regs : Nat → BitVec 16) : BitVec 16 := edgxGet16 c (regs 0x10) 11 0

def edgxPtGetDfltPcp (regs : Nat → BitVec 16) : BitVec 16 := edgxGet16 c (regs 0x10) 14 12

def cutthroughShow (regs : Nat → BitVec 16) : BitVec 16 := edgxGet16 c (regs 0x0) 15 15

/-- With the byte that is returned. -/
def prioRegenTblRead (regs : Nat → BitVec 16) (ofs count : Nat) : Int × Option (BitVec 8) :=
  match edgxSysfsTblParams ofs count 1 with
  | none => (-EINVAL, none)
  | some idx =>
    if idx > 7 then (-EINVAL, none)
    else
      let p := getTcPrioParams idx PRIO_REGEN_LO PRIO_REGEN_HI
      (count, some ((edgxGet16 c (regs p.ofs) p.bithi p.bitlo).setWidth 8))

def trafficClassTblRead (regs : Nat → BitVec 16) (ofs count : Nat) : Int × Option (BitVec 8) :=
  match edgxSysfsTblParams ofs count 1 with
  | none => (-EINVAL, none)
  | some idx =>
    if idx > 7 then (-EINVAL, none)
    else
      let p := getTcPrioParams idx QUEUE_TBL_LO QUEUE_TBL_HI
      (count, some ((edgxGet16 c (regs p.ofs) p.bithi p.bitlo).setWidth 8))

/-- A field in its register. -/
def fieldOf (regs : Nat → BitVec 16) (f : PortField) : BitVec 16 := edgxGet16 c (regs f.pos.ofs) f.pos.bithi f.pos.bitlo

/-- The hardware and the attributes have the values `v`. -/
structure Shows (regs : Nat → BitVec 16) (v : PortField → BitVec 16) : Prop where
  hw : ∀ f, fieldOf c regs f = v f
  pvid : edgxPtGetPvid c regs = v .pvid
  dfltPcp : edgxPtGetDfltPcp c regs = v .dfltPcp
  cutThrough : cutthroughShow c regs = v .cutThrough
  prioRegen : ∀ pcp : Fin 8, prioRegenTblRead c regs pcp.val 1 = (1, some ((v (.prioRegen pcp)).setWidth 8))
  queue : ∀ prio : Fin 8, trafficClassTblRead c regs prio.val 1 = (1, some ((v (.queue prio)).setWidth 8))

variable {c}

theorem edgxSysfsTblParams_byte (i : Fin 8) : edgxSysfsTblParams i.val 1 1 = some i.val := by
  rw [edgxSysfsTblParams, if_neg (not_not.2 (Nat.mod_one _)), if_neg (not_not.2 rfl), Nat.div_one]

/-- The attributes are fields. -/
theorem shows_iff {regs : Nat → BitVec 16} {v : PortField → BitVec 16} : Shows c regs v ↔ ∀ f, fieldOf c regs f = v f := by
  refine ⟨Shows.hw, fun h => ⟨h, h .pvid, h .dfltPcp, h .cutThrough, fun pcp => ?_, fun prio => ?_⟩⟩
  · simp only [prioRegenTblRead, edgxSysfsTblParams_byte, Nat.not_lt.2 (Nat.le_of_lt_succ pcp.isLt), if_false]
    rw [← h (.prioRegen pcp)]
    rfl
  · simp only [trafficClassTblRead, edgxSysfsTblParams_byte, Nat.not_lt.2 (Nat.le_of_lt_succ prio.isLt), if_false]
    rw [← h (.queue prio)]
    rfl

/-! ## Runs -/

section Runs

variable {T : Type*} [DecidableEq T] {s : PortRegs T} {queues : Nat}

variable (c queues) in
def portStep (s : PortRegs T) (op : PortOp T) : Unit × PortRegs T := s.step (portLayout c) (op.toRmw queues)

theorem after_portStep (ops : List (PortOp T)) :
    after (portStep c queues) s ops = after (Rmw.step (portLayout c)) s (ops.map (PortOp.toRmw queues)) := by
  induction ops generalizing s with
  | nil => rfl
  | cons op ops ih => exact ih

theorem guarded_portStep {P : PortRegs T → RmwOp T PortField (BitVec 16) → Prop} {ops : List (PortOp T)} :
    Guarded (portStep c queues) (fun s op => P s (op.toRmw queues)) s ops ↔
      Guarded (Rmw.step (portLayout c)) P s (ops.map (PortOp.toRmw queues)) := by
  induction ops generalizing s with
  | nil => exact Iff.rfl
  | cons op ops ih => exact and_congr_right fun _ => ih

/-- A call for registers that no other task has still to write. -/
def NoOverlap (c : CShift) (queues : Nat) (s : PortRegs T) (op : PortOp T) : Prop :=
  Rmw.NoConflict (portLayout c) s (op.toRmw queues)

/-- What a call asks of a field. -/
def PortOp.writes (queues : Nat) : PortOp T → List (PortField × BitVec 16)
  | .call _ what => what.writes queues
  | .run _ => []

/-- The values of the fields after the last calls. -/
def lastValues (c : CShift) (queues : Nat) (regs : Nat → BitVec 16) (ops : List (PortOp T)) (f : PortField) : BitVec 16 :=
  ((Rmw.lastOf f (ops.flatMap (PortOp.writes queues))).map ((portLayout c).trim f)).getD (fieldOf c regs f)

omit [DecidableEq T] in
theorem asked_toRmw (ops : List (PortOp T)) :
    (ops.map (PortOp.toRmw queues)).flatMap Rmw.asked = ops.flatMap (PortOp.writes queues) := by
  rw [List.flatMap_map]
  congr 1
  funext op
  cases op <;> rfl

/-- **Each field has what was asked for last**, in the hardware and where it is read back, when
no call is going on, if calls that write the same register do not overlap. -/
theorem fields_read_back (h : Shows c s.regs s.record) (hidle : ∀ t, s.pend t = []) {ops : List (PortOp T)}
    (hops : Guarded (portStep c queues) (NoOverlap c queues) s ops)
    (hrest : ∀ t, (after (portStep c queues) s ops).pend t = []) :
    Shows c (after (portStep c queues) s ops).regs (lastValues c queues s.regs ops) := by
  have hlast := (Rmw.get_of_noConflict (portLayout c) h.hw hidle
    (guarded_portStep.1 hops : Guarded _ (Rmw.NoConflict (portLayout c)) _ _)).2
  rw [← after_portStep, asked_toRmw] at hlast
  refine shows_iff.2 fun f => (hlast hrest f).trans ?_
  rw [lastValues, h.hw f]

/-- **Each field has what was written last**, at every moment of a run, just when no task
writes back another field of the register as it was before. -/
theorem fields_independent_iff (h : Shows c s.regs s.record) (ops : List (PortOp T)) :
    (∀ pre suf, ops = pre ++ suf →
      Shows c (after (portStep c queues) s pre).regs (after (portStep c queues) s pre).record) ↔
      Guarded (portStep c queues) (fun s op => Rmw.Fresh (portLayout c) s (op.toRmw queues)) s ops := by
  rw [guarded_portStep, ← Rmw.agrees_iff_fresh (portLayout c) h.hw]
  refine ⟨fun hall pre suf he => ?_, fun hall pre suf he => ?_⟩
  · obtain ⟨pre', suf', hops, rfl, _⟩ := List.map_eq_append_iff.1 he
    rw [← after_portStep]
    exact (hall pre' suf' hops).hw
  · refine shows_iff.2 ?_
    rw [after_portStep]
    exact hall _ (suf.map (PortOp.toRmw queues)) (by rw [he, List.map_append])

/-- No register has anything in it. -/
def clearRegs : PortRegs (Bool) := { regs := fun _ => 0, record := fun _ => 0 }

theorem shows_clearRegs : Shows .modulo clearRegs.regs clearRegs.record := by
  refine shows_iff.2 fun f => BitVec.eq_of_getLsbD_eq fun i hi => ?_
  obtain ⟨hle, hhi⟩ := f.pos_le
  rw [fieldOf, getLsbD_edgxGet16 .modulo hle hhi]
  simp [clearRegs]

/-- The VLAN and the speed of a port are set at the same time. -/
def vlanAndSpeed : List (PortOp (Bool)) :=
  [.call false (.setPvid 5), .call true (.updateSpeed .s1000), .run false, .run true, .run true, .run false, .run false,
    .run true, .run false, .run true]

theorem fields_read_back_speed : Shows .modulo (after (portStep .modulo 8) clearRegs vlanAndSpeed).regs
    (lastValues .modulo 8 clearRegs.regs vlanAndSpeed) := by
  refine fields_read_back shows_clearRegs (fun _ => rfl) ?_ (by decide +kernel)
  exact (guarded_portStep (P := Rmw.NoConflict (portLayout .modulo))).2 (by decide +kernel)

/-- The default priority is set while the VLAN is. -/
def vlanAndPcp : List (PortOp (Bool)) :=
  [.call false (.setPvid 5), .call true (.setDfltPcp 3), .run false, .run true, .run true, .run false]

theorem fields_independent_iff_pcp :
    (∀ pre suf, vlanAndPcp = pre ++ suf →
      Shows .modulo (after (portStep .modulo 8) clearRegs pre).regs (after (portStep .modulo 8) clearRegs pre).record) ↔
      Guarded (portStep .modulo 8) (fun s op => Rmw.Fresh (portLayout .modulo) s (op.toRmw 8)) clearRegs vlanAndPcp :=
  fields_independent_iff shows_clearRegs vlanAndPcp

end Runs

end TsnSwitch.Port
