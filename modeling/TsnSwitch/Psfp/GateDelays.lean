/-
The delays of a stream gate: `edgx_psfp_gt_calc_delays` of edge_psfp.c, with
what it reads of the links, the ports and the pipeline.

The ports of a gate share one schedule. It starts for the port that is first
from the wire to the gate at its fast speed, and every port is held back by what
it is behind that one at its current speed (`gateDelays_aligned`). A current
speed that is ahead would need a negative delay: none is programmed then.
-/
import TsnSwitch.Sched.Delays

namespace TsnSwitch.Psfp

open Sched (DelayId DlyEnv EdgxLink Gives MinMax S2gRegs edgxPtGetDlySpd edgxSchedGetS2g s64 u64 u64OfInt)

/-! ## What is read -/

def SPEED_UNKNOWN : Int := -1
def S64_MAX : Int := 2 ^ 63 - 1
def BR_FEAT_I2SG_BASE : Nat := 0x130
def SGATE_DELAY_MAX : Nat := 7

/-- A port: the speed of its link, as `edgx_link_get_speed` has it, and the
receive side of the link. -/
structure EdgxPt where
  speed : Int
  rx : EdgxLink

/-- What the ports share. The period of the clock is `1000 / frequency`. -/
structure GtEnv where
  feature : Nat → BitVec 16
  cycleNs : BitVec 32
  s2g : S2gRegs
  limits : Sched.Limits
  schedIdx : BitVec 32
  cycle_le : cycleNs.toNat ≤ 1000

/-- The same as it is read for one link. -/
def GtEnv.dly (env : GtEnv) (lnk : EdgxLink) : DlyEnv :=
  { lnk, feature := env.feature, cycleNs := env.cycleNs, s2g := env.s2g, limits := env.limits }

/-- The pipeline is read for no link. -/
def noLink : EdgxLink where
  lnkMode := .inval
  dlyFlags := 0
  phyDly _ := ⟨0, 0⟩
  adptDly _ := 0

/-- The code of the transmit side, with the delays of the receive side. -/
def edgxLinkGetRxDelaysHi (rx : EdgxLink) : Except Int (MinMax Int) := Sched.edgxLinkGetTxDelaysHi rx

def edgxLinkDlyIdx (speed : Int) : Option DelayId :=
  if speed = 10 then some .dly10
  else if speed = 100 then some .dly100
  else if speed = 1000 then some .dly1000
  else none

/-- `edgx_link_get_rx_delay_min` and `edgx_link_get_rx_delay_max`. -/
def edgxLinkGetRxDelay (pt : EdgxPt) : MinMax Int :=
  match edgxLinkDlyIdx pt.speed with
  | none => ⟨0, 0⟩
  | some id => pt.rx.txDelay id

def GtEnv.i2sg (env : GtEnv) (rx : EdgxLink) (speed : DelayId) : MinMax Int :=
  ⟨edgxPtGetDlySpd (env.dly rx) BR_FEAT_I2SG_BASE false speed, edgxPtGetDlySpd (env.dly rx) BR_FEAT_I2SG_BASE true speed⟩

def edgxPtGetI2sgHi (env : GtEnv) (rx : EdgxLink) : Except Int (MinMax Int) :=
  match rx.lnkMode with
  | .m100_1000 => .ok (env.i2sg rx .dly1000)
  | .m10_100 | .m100 => .ok (env.i2sg rx .dly100)
  | _ => .error (-EINVAL)

/-- `edgx_pt_get_i2sgmin` and `edgx_pt_get_i2sgmax`. -/
def edgxPtGetI2sg (env : GtEnv) (pt : EdgxPt) : MinMax Int :=
  match edgxLinkDlyIdx pt.speed with
  | none => ⟨0, 0⟩
  | some id => env.i2sg pt.rx id

/-! ## The computation -/

/-- `struct psfp_gt_dly_pt`, with the delay register of its port. -/
structure GtDlyPt where
  parent : Option EdgxPt
  speed : Int := 0
  lnkRx : MinMax Int := ⟨0, 0⟩
  i2sg : MinMax Int := ⟨0, 0⟩
  w2sgMin : Nat := 0
  w2sgMax : Nat := 0
  w2sg : Nat := 0
  sgateDelay : Int := 0
  sgateDelayReg : BitVec 16 := 0

/-- `struct psfp_gt_dly_sched`. -/
structure GtDlySched where
  clk : Nat := 0
  s2gMin : Nat := 0
  s2gMax : Nat := 0
  s2g : Nat := 0
  s2sg : Nat := 0
  retard : Int := 0

/-- `struct psfp_gt`, with a record for each port. -/
structure PsfpGt where
  dlySched : GtDlySched
  dlyPt : List GtDlyPt
  dlyPtRef : GtDlyPt

/-- A signed value of 64 bits. -/
def i64 (x : Int) : Int := s64 (u64OfInt x)

def edgxPsfpGtCalcRetard (sch : GtDlySched) (p : GtDlyPt) (ref : Option GtDlyPt) : Int × GtDlyPt :=
  let w2sgMin := u64OfInt (p.lnkRx.min + p.i2sg.min)
  let w2sgMax := u64OfInt (p.lnkRx.max + p.i2sg.max)
  let w2sg := u64 (w2sgMin + w2sgMax + 1) / 2
  let sgateDelay := match ref with
    | some ref => i64 (s64 w2sg - s64 sch.s2g - (s64 ref.w2sg - s64 sch.s2g - ref.sgateDelay))
    | none => 0
  (i64 (s64 w2sg - s64 sch.s2sg - sgateDelay), { p with w2sgMin, w2sgMax, w2sg, sgateDelay })

/-- What `edgx_pt_set_sg_delay` writes. -/
def edgxPtSetSgDelay (sgDly : Int) : BitVec 16 :=
  let reg := u64 (u64OfInt sgDly + 320 / 2) / 320
  BitVec.ofNat 16 (if reg > SGATE_DELAY_MAX then SGATE_DELAY_MAX else reg)

/-- One turn of the first loop. -/
def findRef (env : GtEnv) (p : GtDlyPt) (sch : GtDlySched) (ref : GtDlyPt) : GtDlyPt × GtDlySched × GtDlyPt :=
  match p.parent with
  | none => (p, sch, ref)
  | some pt =>
    let p := { p with speed := SPEED_UNKNOWN }
    if pt.speed = SPEED_UNKNOWN then (p, sch, ref)
    else match edgxLinkGetRxDelaysHi pt.rx with
    | .error _ => (p, sch, ref)
    | .ok lnkRx =>
    let p := { p with lnkRx }
    match edgxPtGetI2sgHi env pt.rx with
    | .error _ => (p, sch, ref)
    | .ok i2sg =>
    let (retard, p) := edgxPsfpGtCalcRetard sch { p with i2sg, speed := pt.speed } none
    if retard < sch.retard then (p, { sch with retard }, p) else (p, sch, ref)

/-- The first loop: the reference and its retard. -/
def findRefs (env : GtEnv) : List GtDlyPt → GtDlySched → GtDlyPt → List GtDlyPt × GtDlySched × GtDlyPt
  | [], sch, ref => ([], sch, ref)
  | p :: ps, sch, ref =>
    let (p, sch, ref) := findRef env p sch ref
    let (ps, sch, ref) := findRefs env ps sch ref
    (p :: ps, sch, ref)

/-- One turn of the second loop. -/
def setDelay (env : GtEnv) (sch : GtDlySched) (ref p : GtDlyPt) : GtDlyPt :=
  match p.parent with
  | none => p
  | some pt =>
    if p.speed = SPEED_UNKNOWN then p
    else
      let p := { p with lnkRx := edgxLinkGetRxDelay pt, i2sg := edgxPtGetI2sg env pt }
      let p := (edgxPsfpGtCalcRetard sch p (some ref)).2
      { p with sgateDelayReg := edgxPtSetSgDelay (if p.sgateDelay ≥ 0 then p.sgateDelay else 0) }

def edgxPsfpGtCalcDelays (env : GtEnv) (gt : PsfpGt) : Int × PsfpGt :=
  let ref := { gt.dlyPtRef with speed := SPEED_UNKNOWN }
  let sch := { gt.dlySched with retard := S64_MAX, clk := env.cycleNs.toNat }
  let gt := { gt with dlySched := sch, dlyPtRef := ref }
  if sch.clk = 0 then (-EINVAL, gt)
  else match edgxSchedGetS2g (env.dly noLink) sch.clk with
  | .error ret => (ret, gt)
  | .ok d =>
  let s2g := u64 (d.min + d.max + 1) / 2
  let sch := { sch with s2gMin := d.min, s2gMax := d.max, s2g, s2sg := u64 (s2g + u64 (env.schedIdx.toNat * sch.clk)) }
  let (dlyPt, sch, ref) := findRefs env gt.dlyPt sch ref
  let gt := { dlySched := sch, dlyPt, dlyPtRef := ref }
  if sch.retard = S64_MAX then (-EINVAL, gt)
  else (0, { gt with dlyPt := dlyPt.map (setDelay env sch ref) })

/-! ## The delays as numbers -/

/-- The middle of the sum of two delays, rounded up. -/
def midSum (a b : MinMax Int) : Int := (a.min + b.min + (a.max + b.max) + 1) / 2

/-- From the wire to the gate at the fast speed, for a port whose speed and fast
delays are known. -/
def fastW2sg (env : GtEnv) (pt : EdgxPt) : Option Int :=
  if pt.speed = SPEED_UNKNOWN then none
  else match edgxLinkGetRxDelaysHi pt.rx, edgxPtGetI2sgHi env pt.rx with
  | .ok rx, .ok i2sg => some (midSum rx i2sg)
  | _, _ => none

/-- From the wire to the gate at the current speed. -/
def curW2sg (env : GtEnv) (pt : EdgxPt) : Int := midSum (edgxLinkGetRxDelay pt) (edgxPtGetI2sg env pt)

/-- From the start of the schedule to the gate, where the pipeline has a delay for
the tick: the gates are served one after the other. -/
def startToGate (env : GtEnv) : Option Int :=
  match edgxSchedGetS2g (env.dly noLink) env.cycleNs.toNat with
  | .ok d => some (midSum ⟨d.min, d.max⟩ ⟨0, 0⟩ + env.schedIdx.toNat * env.cycleNs.toNat)
  | .error _ => none

def GtDlyPt.fast (env : GtEnv) (p : GtDlyPt) : Option Int := p.parent.bind (fastW2sg env)

/-- The records of the ports that are usable. -/
def usable (env : GtEnv) (ps : List GtDlyPt) : List GtDlyPt := ps.filter fun p => (p.fast env).isSome

/-- The number of steps nearest to a delay. -/
def Nearest (step d n : Int) : Prop := step * n - step / 2 ≤ d ∧ d < step * n + step / 2

/-- A record before and after: its port's delay is what is between the wire and
the gate beyond the start of the schedule and the retard, and it is programmed
where it is not negative. -/
structure Aligned (env : GtEnv) (s2sg retard : Int) (p p' : GtDlyPt) : Prop where
  parent : p'.parent = p.parent
  equal : ∀ pt ∈ p.parent, (fastW2sg env pt).isSome → curW2sg env pt - s2sg - p'.sgateDelay = retard
  register : (p.fast env).isSome → 0 ≤ p'.sgateDelay →
    ∃ n : Nat, Nearest 320 p'.sgateDelay n ∧ p'.sgateDelayReg.toNat = min n 7
  negative : (p.fast env).isSome → p'.sgateDelay < 0 → p'.sgateDelayReg = 0
  unusable : p.fast env = none → p'.sgateDelayReg = p.sgateDelayReg

/-- What a successful call gives: the retard is the least that is between the wire
and the gate of a usable port at its fast speed beyond the start. -/
structure AlignedAll (env : GtEnv) (gt : PsfpGt) (s2sg : Int) : Prop where
  retard : IsLeast {r | ∃ p ∈ gt.dlyPt, ∃ w, p.fast env = some w ∧ r = w - s2sg}
    (edgxPsfpGtCalcDelays env gt).2.dlySched.retard
  ports : List.Forall₂ (Aligned env s2sg (edgxPsfpGtCalcDelays env gt).2.dlySched.retard) gt.dlyPt
    (edgxPsfpGtCalcDelays env gt).2.dlyPt

/-- The ports that are not usable have no part in it. -/
structure Alone (env : GtEnv) (gt : PsfpGt) : Prop where
  ret : (edgxPsfpGtCalcDelays env { gt with dlyPt := usable env gt.dlyPt }).1 = (edgxPsfpGtCalcDelays env gt).1
  sched : (edgxPsfpGtCalcDelays env { gt with dlyPt := usable env gt.dlyPt }).2.dlySched =
    (edgxPsfpGtCalcDelays env gt).2.dlySched
  ports : (edgxPsfpGtCalcDelays env { gt with dlyPt := usable env gt.dlyPt }).2.dlyPt =
    usable env (edgxPsfpGtCalcDelays env gt).2.dlyPt

/-- A delay that is computed for a usable port is not negative just when some
usable port is no slower at its fast speed than this one at its current one. -/
def Signed (env : GtEnv) (ps : List GtDlyPt) (p p' : GtDlyPt) : Prop :=
  ∀ pt ∈ p.parent, (fastW2sg env pt).isSome → (0 ≤ p'.sgateDelay ↔ ∃ q ∈ ps, ∃ w, q.fast env = some w ∧ w ≤ curW2sg env pt)

/-- All that a call does. -/
structure GateDelays (env : GtEnv) (gt : PsfpGt) : Prop where
  fails : (edgxPsfpGtCalcDelays env gt).1 = -EINVAL ↔
    env.cycleNs = 0 ∨ startToGate env = none ∨ usable env gt.dlyPt = []
  aligned : (edgxPsfpGtCalcDelays env gt).1 ≠ -EINVAL → (edgxPsfpGtCalcDelays env gt).1 = 0 ∧
    ∃ s2sg, startToGate env = some s2sg ∧ AlignedAll env gt s2sg
  signed : (edgxPsfpGtCalcDelays env gt).1 = 0 →
    List.Forall₂ (Signed env gt.dlyPt) gt.dlyPt (edgxPsfpGtCalcDelays env gt).2.dlyPt
  alone : Alone env gt

/-- The same where no delay is negative and only the ports decide. -/
structure NeverAhead (env : GtEnv) (gt : PsfpGt) : Prop where
  fails : (edgxPsfpGtCalcDelays env gt).1 = -EINVAL ↔ usable env gt.dlyPt = []
  aligned : (edgxPsfpGtCalcDelays env gt).1 ≠ -EINVAL → (edgxPsfpGtCalcDelays env gt).1 = 0 ∧
    ∃ s2sg, startToGate env = some s2sg ∧ AlignedAll env gt s2sg
  signed : (edgxPsfpGtCalcDelays env gt).1 = 0 →
    ∀ p ∈ usable env (edgxPsfpGtCalcDelays env gt).2.dlyPt, 0 ≤ p.sgateDelay
  alone : Alone env gt

/-! ## One port -/

theorem i64_of_lt {x : Int} (h : -2 ^ 62 < x) (h' : x < 2 ^ 62) : i64 x = x := by
  rw [i64, s64, u64OfInt]
  split <;> omega

theorem midSum_bound {a b : MinMax Int} (ha : a.U32) (hb : b.U32) : 0 ≤ midSum a b ∧ midSum a b < 2 ^ 33 := by
  simp only [MinMax.U32] at ha hb
  rw [midSum]
  omega

section Port

variable {env : GtEnv} {sch : GtDlySched} {p ref : GtDlyPt}

theorem i2sg_u32 (env : GtEnv) (rx : EdgxLink) (speed : DelayId) : (env.i2sg rx speed).U32 := MinMax.u32_words ..

theorem i2sgHi_gives (env : GtEnv) (rx : EdgxLink) : Gives (edgxPtGetI2sgHi env rx) MinMax.U32 := by
  unfold edgxPtGetI2sgHi
  cases rx.lnkMode with
  | m100_1000 | m10_100 | m100 => exact i2sg_u32 env rx _
  | inval | m10_100_1000 => rfl

theorem curW2sg_bound (env : GtEnv) (pt : EdgxPt) : 0 ≤ curW2sg env pt ∧ curW2sg env pt < 2 ^ 33 := by
  rw [curW2sg, edgxLinkGetRxDelay, edgxPtGetI2sg]
  cases edgxLinkDlyIdx pt.speed with
  | none => simp [midSum]
  | some id => exact midSum_bound (Sched.txDelay_u32 pt.rx id) (i2sg_u32 env pt.rx id)

/-- The way of a usable port through the getters. -/
theorem fastW2sg_some {pt : EdgxPt} {w : Int} (h : fastW2sg env pt = some w) :
    pt.speed ≠ SPEED_UNKNOWN ∧ ∃ rx i2sg, edgxLinkGetRxDelaysHi pt.rx = .ok rx ∧ edgxPtGetI2sgHi env pt.rx = .ok i2sg ∧
      rx.U32 ∧ i2sg.U32 ∧ w = midSum rx i2sg := by
  rw [fastW2sg] at h
  split at h
  · cases h
  · rename_i hspeed
    cases hrx : edgxLinkGetRxDelaysHi pt.rx with
    | error e => simp [hrx] at h
    | ok rx =>
      cases hi : edgxPtGetI2sgHi env pt.rx with
      | error e => simp [hrx, hi] at h
      | ok i2sg =>
        simp only [hrx, hi, Option.some.injEq] at h
        exact ⟨hspeed, rx, i2sg, rfl, rfl, (Sched.txHi_gives pt.rx).of_ok hrx, (i2sgHi_gives env pt.rx).of_ok hi, h.symm⟩

/-- The delay of a record, whatever it is taken against. -/
theorem calcRetard_w2sg (sch : GtDlySched) (ref : Option GtDlyPt) (hrx : p.lnkRx.U32) (hi : p.i2sg.U32) :
    ((edgxPsfpGtCalcRetard sch p ref).2.w2sg : Int) = midSum p.lnkRx p.i2sg := by
  simp only [MinMax.U32] at hrx hi
  simp only [edgxPsfpGtCalcRetard, midSum, u64, u64OfInt]
  omega

theorem s64_cast {n : Nat} (h : n < 2 ^ 63) : s64 n = n := if_pos h

theorem calcRetard_none (hrx : p.lnkRx.U32) (hi : p.i2sg.U32) (hs : sch.s2sg < 2 ^ 60) :
    (edgxPsfpGtCalcRetard sch p none).1 = midSum p.lnkRx p.i2sg - sch.s2sg ∧
      (edgxPsfpGtCalcRetard sch p none).2.sgateDelay = 0 := by
  have hw := calcRetard_w2sg sch none hrx hi
  have hb := midSum_bound hrx hi
  refine ⟨?_, rfl⟩
  rw [← hw] at hb ⊢
  have heq : (edgxPsfpGtCalcRetard sch p none).1 =
      i64 (s64 (edgxPsfpGtCalcRetard sch p none).2.w2sg - s64 sch.s2sg - 0) := rfl
  rw [heq, s64_cast (by omega), s64_cast (by omega), sub_zero]
  exact i64_of_lt (by omega) (by omega)

/-- The pipeline cancels out. -/
theorem calcRetard_some (hrx : p.lnkRx.U32) (hi : p.i2sg.U32) (hs : sch.s2g < 2 ^ 60) (href : ref.w2sg < 2 ^ 33)
    (hzero : ref.sgateDelay = 0) :
    (edgxPsfpGtCalcRetard sch p (some ref)).2.sgateDelay = midSum p.lnkRx p.i2sg - ref.w2sg := by
  have hw := calcRetard_w2sg sch (some ref) hrx hi
  have hb := midSum_bound hrx hi
  rw [← hw] at hb ⊢
  have heq : (edgxPsfpGtCalcRetard sch p (some ref)).2.sgateDelay =
      i64 (s64 (edgxPsfpGtCalcRetard sch p (some ref)).2.w2sg - s64 sch.s2g -
        (s64 ref.w2sg - s64 sch.s2g - ref.sgateDelay)) := rfl
  rw [heq, hzero, s64_cast (by omega), s64_cast (by omega), s64_cast (by omega), i64_of_lt (by omega) (by omega)]
  omega

/-- The register has the nearest number of steps, and at most 7. -/
theorem setSgDelay_nearest {d : Int} (h : 0 ≤ d) (h' : d < 2 ^ 33) :
    ∃ n : Nat, Nearest 320 d n ∧ (edgxPtSetSgDelay d).toNat = min n 7 := by
  refine ⟨((d + 160) / 320).toNat, ?_, ?_⟩
  · rw [Nearest]
    omega
  · have hreg : u64 (u64OfInt d + 320 / 2) / 320 = ((d + 160) / 320).toNat := by
      rw [u64, u64OfInt]
      omega
    simp only [edgxPtSetSgDelay, hreg, SGATE_DELAY_MAX, BitVec.toNat_ofNat]
    split <;> omega

/-- A record after the first loop. -/
structure Seen (env : GtEnv) (p p' : GtDlyPt) : Prop where
  parent : p'.parent = p.parent
  register : p'.sgateDelayReg = p.sgateDelayReg
  speed : ∀ pt ∈ p.parent, (p'.speed = SPEED_UNKNOWN ↔ fastW2sg env pt = none)

/-- The reference is of the retard. -/
structure IsRef (sch : GtDlySched) (ref : GtDlyPt) : Prop where
  retard : (ref.w2sg : Int) - sch.s2sg = sch.retard
  bound : ref.w2sg < 2 ^ 33
  zero : ref.sgateDelay = 0

theorem findRef_unusable (sch : GtDlySched) (ref : GtDlyPt) (h : p.fast env = none) :
    Seen env p (findRef env p sch ref).1 ∧ (findRef env p sch ref).2 = (sch, ref) := by
  rw [GtDlyPt.fast] at h
  cases hp : p.parent with
  | none =>
    simp only [findRef, hp]
    exact ⟨⟨rfl, rfl, by simp [hp]⟩, trivial⟩
  | some pt =>
    have hfast : fastW2sg env pt = none := by simpa [hp] using h
    have hseen : ∀ q : GtDlyPt, q.parent = p.parent → q.sgateDelayReg = p.sgateDelayReg → q.speed = SPEED_UNKNOWN →
        Seen env p q := fun q hq hr hs => ⟨hq, hr, by simp [hp, hs, hfast]⟩
    rw [fastW2sg] at hfast
    simp only [findRef, hp]
    split
    · exact ⟨hseen _ hp.symm rfl rfl, rfl⟩
    · rename_i hspeed
      rw [if_neg hspeed] at hfast
      cases hrx : edgxLinkGetRxDelaysHi pt.rx with
      | error e => exact ⟨hseen _ hp.symm rfl rfl, rfl⟩
      | ok rx =>
        cases hi : edgxPtGetI2sgHi env pt.rx with
        | error e => exact ⟨hseen _ hp.symm rfl rfl, rfl⟩
        | ok i2sg => simp [hrx, hi] at hfast

theorem findRef_usable {w : Int} (ref : GtDlyPt) (h : p.fast env = some w) (hs : sch.s2sg < 2 ^ 60) :
    ∃ p', Seen env p p' ∧ (p'.w2sg : Int) = w ∧ p'.w2sg < 2 ^ 33 ∧ p'.sgateDelay = 0 ∧
      findRef env p sch ref = if w - sch.s2sg < sch.retard then (p', { sch with retard := w - sch.s2sg }, p')
        else (p', sch, ref) := by
  rw [GtDlyPt.fast] at h
  cases hp : p.parent with
  | none => simp [hp] at h
  | some pt =>
    have hfast : fastW2sg env pt = some w := by simpa [hp] using h
    obtain ⟨hspeed, rx, i2sg, hrx, hi, hrx32, hi32, rfl⟩ := fastW2sg_some hfast
    have hw := calcRetard_w2sg (p := { p with speed := pt.speed, lnkRx := rx, i2sg }) sch none hrx32 hi32
    have hb := midSum_bound hrx32 hi32
    obtain ⟨hret, hzero⟩ :=
      calcRetard_none (p := { p with speed := pt.speed, lnkRx := rx, i2sg }) hrx32 hi32 hs
    refine ⟨(edgxPsfpGtCalcRetard sch { p with speed := pt.speed, lnkRx := rx, i2sg } none).2, ⟨rfl, rfl, ?_⟩, hw, ?_,
      hzero, ?_⟩
    · intro pt' hpt'
      obtain rfl : pt = pt' := by simpa [hp] using hpt'
      rw [hfast]
      exact iff_of_false hspeed (by simp)
    · dsimp only at hw
      omega
    · simp only [hp] at hret
      simp only [findRef, hp, if_neg hspeed, hrx, hi, ← hret]

/-! ## The loops -/

/-- The first loop over some records: every record is seen, only the retard of
the schedule changes, and it goes down to the least of the usable ports. -/
structure Found (env : GtEnv) (ps : List GtDlyPt) (sch : GtDlySched) (ref : GtDlyPt)
    (r : List GtDlyPt × GtDlySched × GtDlyPt) : Prop where
  seen : List.Forall₂ (Seen env) ps r.1
  sched : r.2.1 = { sch with retard := r.2.1.retard }
  least : ∀ p ∈ ps, ∀ w, p.fast env = some w → r.2.1.retard ≤ w - sch.s2sg
  le : r.2.1.retard ≤ sch.retard
  attained : r.2 = (sch, ref) ∨
    (∃ p ∈ ps, ∃ w, p.fast env = some w ∧ r.2.1.retard = w - sch.s2sg) ∧ IsRef r.2.1 r.2.2

theorem findRefs_found (env : GtEnv) (ps : List GtDlyPt) (sch : GtDlySched) (ref : GtDlyPt) (hs : sch.s2sg < 2 ^ 60) :
    Found env ps sch ref (findRefs env ps sch ref) := by
  induction ps generalizing sch ref with
  | nil => exact ⟨.nil, rfl, by simp, le_rfl, .inl rfl⟩
  | cons p ps ih =>
    cases hp : p.fast env with
    | none =>
      obtain ⟨hseen, heq⟩ := findRef_unusable sch ref hp
      have h := ih sch ref hs
      simp only [findRefs, heq]
      refine ⟨.cons hseen h.seen, h.sched, ?_, h.le, ?_⟩
      · intro q hq w hw
        rcases List.mem_cons.1 hq with rfl | hq
        · simp [hp] at hw
        · exact h.least q hq w hw
      · rcases h.attained with heq | ⟨⟨q, hq, hw⟩, href⟩
        · exact .inl heq
        · exact .inr ⟨⟨q, List.mem_cons_of_mem _ hq, hw⟩, href⟩
    | some w =>
      obtain ⟨p', hseen, hw, hlt, hzero, heq⟩ := findRef_usable ref hp hs
      by_cases hless : w - sch.s2sg < sch.retard
      · have h := ih { sch with retard := w - sch.s2sg } p' hs
        simp only [findRefs, heq, if_pos hless]
        refine ⟨.cons hseen h.seen, h.sched, ?_, h.le.trans hless.le, .inr ?_⟩
        · intro q hq v hv
          rcases List.mem_cons.1 hq with rfl | hq
          · obtain rfl : w = v := by simpa [hp] using hv
            exact h.le
          · exact h.least q hq v hv
        · rcases h.attained with heq | ⟨⟨q, hq, hv⟩, href⟩
          · rw [heq]
            exact ⟨⟨p, List.mem_cons_self, w, hp, rfl⟩, ⟨by rw [hw], hlt, hzero⟩⟩
          · exact ⟨⟨q, List.mem_cons_of_mem _ hq, hv⟩, href⟩
      · have h := ih sch ref hs
        simp only [findRefs, heq, if_neg hless]
        refine ⟨.cons hseen h.seen, h.sched, ?_, h.le, ?_⟩
        · intro q hq v hv
          rcases List.mem_cons.1 hq with rfl | hq
          · obtain rfl : w = v := by simpa [hp] using hv
            exact h.le.trans (not_lt.1 hless)
          · exact h.least q hq v hv
        · rcases h.attained with heq | ⟨⟨q, hq, hv⟩, href⟩
          · exact .inl heq
          · exact .inr ⟨⟨q, List.mem_cons_of_mem _ hq, hv⟩, href⟩

theorem setDelay_parent (env : GtEnv) (sch : GtDlySched) (ref p : GtDlyPt) :
    (setDelay env sch ref p).parent = p.parent := by
  rw [setDelay]
  split
  · rfl
  · split <;> rfl

theorem setDelay_unknown (h : ∀ pt ∈ p.parent, p.speed = SPEED_UNKNOWN) : setDelay env sch ref p = p := by
  rw [setDelay]
  cases hp : p.parent with
  | none => rfl
  | some pt => exact if_pos (h pt hp)

/-- The second loop holds a port back by what it is behind the reference. -/
theorem setDelay_known {pt : EdgxPt} (hp : p.parent = some pt) (hspeed : p.speed ≠ SPEED_UNKNOWN)
    (hs : sch.s2g < 2 ^ 60) (href : IsRef sch ref) :
    (setDelay env sch ref p).sgateDelay = curW2sg env pt - ref.w2sg ∧
      (setDelay env sch ref p).sgateDelayReg =
        edgxPtSetSgDelay (if (setDelay env sch ref p).sgateDelay ≥ 0 then (setDelay env sch ref p).sgateDelay else 0) := by
  have hu32 : (edgxLinkGetRxDelay pt).U32 ∧ (edgxPtGetI2sg env pt).U32 := by
    rw [edgxLinkGetRxDelay, edgxPtGetI2sg]
    cases edgxLinkDlyIdx pt.speed with
    | none => simp [MinMax.U32]
    | some id => exact ⟨Sched.txDelay_u32 pt.rx id, i2sg_u32 env pt.rx id⟩
  have hcalc := calcRetard_some (p := { p with lnkRx := edgxLinkGetRxDelay pt, i2sg := edgxPtGetI2sg env pt })
    hu32.1 hu32.2 hs href.bound href.zero
  simp only [setDelay, hp, if_neg hspeed] at hcalc ⊢
  exact ⟨hcalc, trivial⟩

end Port

/-! ## A call -/

section Call

variable {env : GtEnv} {gt : PsfpGt}

/-- Without a clock or a pipeline delay nothing is computed. -/
theorem calcDelays_error (gt : PsfpGt) (h : env.cycleNs = 0 ∨ startToGate env = none) :
    (edgxPsfpGtCalcDelays env gt).1 = -EINVAL ∧ (edgxPsfpGtCalcDelays env gt).2.dlyPt = gt.dlyPt ∧
      (edgxPsfpGtCalcDelays env gt).2.dlySched = { gt.dlySched with retard := S64_MAX, clk := env.cycleNs.toNat } := by
  rw [edgxPsfpGtCalcDelays]
  dsimp only
  split
  · exact ⟨rfl, rfl, rfl⟩
  · rename_i hclk
    have hs : startToGate env = none := h.resolve_left fun h0 => hclk (by rw [h0]; rfl)
    rw [startToGate] at hs
    cases hd : edgxSchedGetS2g (env.dly noLink) env.cycleNs.toNat with
    | ok d => simp [hd] at hs
    | error ret => exact ⟨(Sched.s2g_gives (env.dly noLink)).of_error hd, rfl, rfl⟩

/-- The loops start from one schedule, whatever the ports are. -/
theorem calcDelays_eq {s2sg : Int} (gt : PsfpGt) (hclk : env.cycleNs ≠ 0) (hs : startToGate env = some s2sg) :
    ∃ (sch : GtDlySched) (ref : GtDlyPt), (sch.s2sg : Int) = s2sg ∧ sch.s2sg < 2 ^ 60 ∧ sch.s2g < 2 ^ 60 ∧
      sch.retard = S64_MAX ∧ ∀ ps, edgxPsfpGtCalcDelays env { gt with dlyPt := ps } =
        if (findRefs env ps sch ref).2.1.retard = S64_MAX
        then (-EINVAL, ⟨(findRefs env ps sch ref).2.1, (findRefs env ps sch ref).1, (findRefs env ps sch ref).2.2⟩)
        else (0, ⟨(findRefs env ps sch ref).2.1,
          (findRefs env ps sch ref).1.map (setDelay env (findRefs env ps sch ref).2.1 (findRefs env ps sch ref).2.2),
          (findRefs env ps sch ref).2.2⟩) := by
  rw [startToGate] at hs
  cases hd : edgxSchedGetS2g (env.dly noLink) env.cycleNs.toNat with
  | error ret => simp [hd] at hs
  | ok d =>
    have hne : env.cycleNs.toNat ≠ 0 := fun h0 => hclk (BitVec.eq_of_toNat_eq h0)
    obtain ⟨-, hmin, hmax⟩ := (Sched.s2g_gives (env.dly noLink)).of_ok hd
    have hle := env.cycle_le
    have hidx : env.schedIdx.toNat * env.cycleNs.toNat ≤ 2 ^ 32 * 1000 := Nat.mul_le_mul env.schedIdx.isLt.le hle
    simp only [hd, Option.some.injEq, midSum] at hs
    refine ⟨{ gt.dlySched with
        retard := S64_MAX, clk := env.cycleNs.toNat, s2gMin := d.min, s2gMax := d.max
        s2g := u64 (d.min + d.max + 1) / 2
        s2sg := u64 (u64 (d.min + d.max + 1) / 2 + u64 (env.schedIdx.toNat * env.cycleNs.toNat)) },
      { gt.dlyPtRef with speed := SPEED_UNKNOWN }, ?_, ?_, ?_, rfl, fun ps => ?_⟩
    · dsimp only [u64]
      rw [← Nat.cast_mul] at hs
      omega
    · dsimp only [u64]
      omega
    · dsimp only [u64]
      omega
    · simp only [edgxPsfpGtCalcDelays, if_neg hne, hd]

theorem fast_bound {p : GtDlyPt} {w : Int} (h : p.fast env = some w) : 0 ≤ w ∧ w < 2 ^ 33 := by
  obtain ⟨pt, -, hw⟩ := Option.bind_eq_some_iff.1 h
  obtain ⟨-, rx, i2sg, -, -, hrx, hi, rfl⟩ := fastW2sg_some hw
  exact midSum_bound hrx hi

theorem usable_eq_nil_iff {ps : List GtDlyPt} : usable env ps = [] ↔ ∀ p ∈ ps, p.fast env = none := by
  simp [usable, List.filter_eq_nil_iff]

/-- The first loop finds no port just when none is usable. -/
theorem Found.retard_eq_iff {ps : List GtDlyPt} {sch : GtDlySched} {ref : GtDlyPt}
    {r : List GtDlyPt × GtDlySched × GtDlyPt} (h : Found env ps sch ref r) (hmax : sch.retard = S64_MAX) :
    r.2.1.retard = S64_MAX ↔ usable env ps = [] := by
  rw [usable_eq_nil_iff]
  constructor
  · intro heq p hp
    refine Option.eq_none_iff_forall_ne_some.2 fun w hw => ?_
    have hle := h.least p hp w hw
    have hb := fast_bound hw
    rw [heq, S64_MAX] at hle
    omega
  · intro hnone
    rcases h.attained with heq | ⟨⟨p, hp, w, hw, -⟩, -⟩
    · rw [heq, hmax]
    · rw [hnone p hp] at hw
      cases hw

theorem Seen.aligned {sch : GtDlySched} {ref p p' : GtDlyPt} (h : Seen env p p') (href : IsRef sch ref)
    (hs : sch.s2g < 2 ^ 60) : Aligned env sch.s2sg sch.retard p (setDelay env sch ref p') := by
  have hknown : (p.fast env).isSome → ∃ pt, p.parent = some pt ∧ p'.speed ≠ SPEED_UNKNOWN := by
    intro hsome
    obtain ⟨w, hw⟩ := Option.isSome_iff_exists.1 hsome
    obtain ⟨pt, hpt, hfast⟩ := Option.bind_eq_some_iff.1 hw
    exact ⟨pt, hpt, fun hsp => by simp [(h.speed pt hpt).1 hsp] at hfast⟩
  refine ⟨(setDelay_parent env sch ref p').trans h.parent, ?_, ?_, ?_, ?_⟩
  · intro pt hpt hsome
    have hsp : p'.speed ≠ SPEED_UNKNOWN := fun hsp => by simp [(h.speed pt hpt).1 hsp] at hsome
    rw [(setDelay_known (h.parent.trans hpt) hsp hs href).1, ← href.retard]
    omega
  · intro hsome hnonneg
    obtain ⟨pt, hpt, hsp⟩ := hknown hsome
    obtain ⟨hd, hreg⟩ := setDelay_known (h.parent.trans hpt) hsp hs href
    have hcur := curW2sg_bound env pt
    rw [hreg, if_pos hnonneg]
    exact setSgDelay_nearest hnonneg (by omega)
  · intro hsome hneg
    obtain ⟨pt, hpt, hsp⟩ := hknown hsome
    rw [(setDelay_known (h.parent.trans hpt) hsp hs href).2, if_neg (not_le.2 hneg)]
    rfl
  · intro hnone
    rw [setDelay_unknown, h.register]
    intro pt hpt
    rw [h.parent] at hpt
    refine (h.speed pt hpt).2 ?_
    rw [GtDlyPt.fast, hpt] at hnone
    exact hnone

/-- The ports that are not usable change nothing in the first loop. -/
theorem findRefs_usable (env : GtEnv) (ps : List GtDlyPt) (sch : GtDlySched) (ref : GtDlyPt) (hs : sch.s2sg < 2 ^ 60) :
    (findRefs env (usable env ps) sch ref).1 = usable env (findRefs env ps sch ref).1 ∧
      (findRefs env (usable env ps) sch ref).2 = (findRefs env ps sch ref).2 := by
  have hfast : ∀ {p p' : GtDlyPt}, Seen env p p' → p'.fast env = p.fast env := fun h => by
    rw [GtDlyPt.fast, GtDlyPt.fast, h.parent]
  induction ps generalizing sch ref with
  | nil => exact ⟨rfl, rfl⟩
  | cons p ps ih =>
    cases hp : p.fast env with
    | none =>
      obtain ⟨hseen, heq⟩ := findRef_unusable sch ref hp
      have h := ih sch ref hs
      have hcons : usable env (p :: ps) = usable env ps := List.filter_cons_of_neg (by simp [hp])
      simp only [findRefs, hcons, heq]
      refine ⟨h.1.trans ?_, h.2⟩
      exact (List.filter_cons_of_neg (by simp [hfast hseen, hp])).symm
    | some w =>
      obtain ⟨p', hseen, hw, hlt, hzero, heq⟩ := findRef_usable ref hp hs
      have hcons : usable env (p :: ps) = p :: usable env ps := List.filter_cons_of_pos (by simp [hp])
      have hcons' : ∀ qs, usable env (p' :: qs) = p' :: usable env qs := fun qs =>
        List.filter_cons_of_pos (by simp [hfast hseen, hp])
      by_cases hless : w - sch.s2sg < sch.retard
      · have h := ih { sch with retard := w - sch.s2sg } p' hs
        simp only [findRefs, hcons, heq, if_pos hless, hcons', h.1, h.2, and_self]
      · have h := ih sch ref hs
        simp only [findRefs, hcons, heq, if_neg hless, hcons', h.1, h.2, and_self]

theorem usable_map_setDelay (env : GtEnv) (sch : GtDlySched) (ref : GtDlyPt) (ps : List GtDlyPt) :
    (usable env ps).map (setDelay env sch ref) = usable env (ps.map (setDelay env sch ref)) := by
  rw [usable, usable, List.filter_map]
  refine congrArg _ (List.filter_congr fun p _ => ?_)
  rw [Function.comp, GtDlyPt.fast, GtDlyPt.fast, setDelay_parent]

theorem alone (env : GtEnv) (gt : PsfpGt) : Alone env gt := by
  by_cases hgiven : env.cycleNs = 0 ∨ startToGate env = none
  · obtain ⟨h1, h2, h3⟩ := calcDelays_error gt hgiven
    obtain ⟨g1, g2, g3⟩ := calcDelays_error { gt with dlyPt := usable env gt.dlyPt } hgiven
    exact ⟨g1.trans h1.symm, g3.trans h3.symm, by rw [g2, h2]⟩
  · obtain ⟨hclk, hs⟩ := not_or.1 hgiven
    obtain ⟨s2sg, hs⟩ := Option.ne_none_iff_exists'.1 hs
    obtain ⟨sch, ref, -, hlt, -, -, heq⟩ := calcDelays_eq gt hclk hs
    obtain ⟨h1, h2⟩ := findRefs_usable env gt.dlyPt sch ref hlt
    have hgt : edgxPsfpGtCalcDelays env gt = _ := heq gt.dlyPt
    have hus := heq (usable env gt.dlyPt)
    rw [h1, h2] at hus
    constructor <;>
    · rw [hus, hgt]
      split <;> simp [usable_map_setDelay]

/-- The least retard decides the sign. -/
theorem AlignedAll.signed {s2sg : Int} (h : AlignedAll env gt s2sg) :
    List.Forall₂ (Signed env gt.dlyPt) gt.dlyPt (edgxPsfpGtCalcDelays env gt).2.dlyPt := by
  refine h.ports.imp fun p p' hp pt hpt hsome => ?_
  have hd := hp.equal pt hpt hsome
  constructor
  · intro hnonneg
    obtain ⟨q, hq, w, hw, heq⟩ := h.retard.1
    exact ⟨q, hq, w, hw, by omega⟩
  · rintro ⟨q, hq, w, hw, hle⟩
    have hmin := h.retard.2 ⟨q, hq, w, hw, rfl⟩
    omega

/-- **The ports of a gate are aligned**: all of them to the least retard, with a
delay of the right sign, and only by usable ports. -/
theorem gateDelays_aligned (env : GtEnv) (gt : PsfpGt) : GateDelays env gt := by
  by_cases hgiven : env.cycleNs = 0 ∨ startToGate env = none
  · obtain ⟨hret, -, -⟩ := calcDelays_error gt hgiven
    refine ⟨?_, fun h => absurd hret h, fun h => ?_, alone env gt⟩
    · rw [hret, ← or_assoc]
      exact iff_of_true rfl (.inl hgiven)
    · rw [hret] at h
      exact absurd h (by decide)
  · obtain ⟨hclk, hs⟩ := not_or.1 hgiven
    obtain ⟨s2sg, hs⟩ := Option.ne_none_iff_exists'.1 hs
    obtain ⟨sch, ref, hcast, hlt, hs2g, hmax, heq⟩ := calcDelays_eq gt hclk hs
    have hgt : edgxPsfpGtCalcDelays env gt = _ := heq gt.dlyPt
    have hfound := findRefs_found env gt.dlyPt sch ref hlt
    have hiff := hfound.retard_eq_iff hmax
    set r := findRefs env gt.dlyPt sch ref with hr
    by_cases hnone : usable env gt.dlyPt = []
    · rw [if_pos (hiff.2 hnone)] at hgt
      refine ⟨?_, fun h => absurd (congrArg Prod.fst hgt) h, fun h => ?_, alone env gt⟩
      · rw [hgt]
        exact iff_of_true rfl (.inr (.inr hnone))
      · rw [hgt] at h
        simp [EINVAL] at h
    · rw [if_neg (mt hiff.1 hnone)] at hgt
      have hret : (edgxPsfpGtCalcDelays env gt).1 = 0 := congrArg Prod.fst hgt
      have hs' : r.2.1.s2g = sch.s2g ∧ r.2.1.s2sg = sch.s2sg := by
        rw [hfound.sched]
        exact ⟨rfl, rfl⟩
      obtain ⟨⟨q, hq, w, hw, hmin⟩, href⟩ := hfound.attained.resolve_left fun h =>
        hnone (hiff.1 (by rw [h, hmax]))
      have hports : AlignedAll env gt s2sg := by
        constructor
        · rw [hgt]
          refine ⟨⟨q, hq, w, hw, by rw [hmin, hcast]⟩, ?_⟩
          rintro v ⟨p, hp, u, hu, rfl⟩
          rw [← hcast]
          exact hfound.least p hp u hu
        · rw [hgt]
          refine List.forall₂_map_right_iff.2 (hfound.seen.imp fun p p' h => ?_)
          rw [← hcast, ← hs'.2]
          exact h.aligned href (hs'.1 ▸ hs2g)
      refine ⟨?_, fun _ => ⟨hret, s2sg, hs, hports⟩, fun _ => ?_, alone env gt⟩
      · rw [hret, ← or_assoc]
        exact iff_of_false (by decide) (not_or.2 ⟨hgiven, hnone⟩)
      · exact hports.signed

end Call

/-- A gate of a bridge of 125 MHz, the pipeline with 4 cycles. -/
def someEnv (cycleNs : BitVec 32) (h : cycleNs.toNat ≤ 1000) : GtEnv where
  feature _ := 0
  cycleNs
  s2g := ⟨⟨4, 4⟩, ⟨4, 4⟩⟩
  limits := (Sched.somePort fun _ => ⟨0, 0⟩).limits
  schedIdx := 0
  cycle_le := h

/-- A gigabit port at 100 Mbit/s, with these delays from the wire. -/
def somePt (dly100 dly1000 : BitVec 32) : EdgxPt where
  speed := 100
  rx := { lnkMode := .m100_1000, dlyFlags := Sched.EDGX_DLY_MASK_100_1000, adptDly := fun _ => 0
          phyDly := fun | .dly1000 => ⟨dly1000, dly1000⟩ | _ => ⟨dly100, dly100⟩ }

/-- Its gate. -/
def someGt (dly100 dly1000 : BitVec 32) : PsfpGt where
  dlySched := {}
  dlyPt := [{ parent := some (somePt dly100 dly1000) }]
  dlyPtRef := { parent := none }

/-- A port that is faster at its lower speed gets a negative delay, and none is
programmed. Without a clock the call fails, though the port is usable. -/
theorem not_neverAhead :
    (let env := someEnv 8 (by decide)
     let gt := someGt 100 740
     ¬ NeverAhead env gt ∧ (edgxPsfpGtCalcDelays env gt).1 = 0 ∧
      (edgxPsfpGtCalcDelays env gt).2.dlyPt.map (fun p => (p.sgateDelay, p.sgateDelayReg)) = [(-640, 0)]) ∧
    (let env := someEnv 0 (by decide)
     let gt := someGt 740 100
     ¬ NeverAhead env gt ∧ (edgxPsfpGtCalcDelays env gt).1 = -EINVAL ∧ (usable env gt.dlyPt).length = 1) := by
  refine ⟨⟨fun h => ?_, by decide, by decide⟩, fun h => ?_, by decide, by decide⟩
  · have hall : (usable (someEnv 8 (by decide))
        (edgxPsfpGtCalcDelays (someEnv 8 (by decide)) (someGt 100 740)).2.dlyPt).all (fun p => 0 ≤ p.sgateDelay) = true :=
      List.all_eq_true.2 fun p hp => decide_eq_true (h.signed (by decide) p hp)
    exact absurd hall (by decide)
  · have hnil := h.fails.1 (by decide)
    exact absurd (congrArg List.length hnil) (by decide)

end TsnSwitch.Psfp
