/-
The credit-based shapers (edge_fqtss.c): the addend of a queue follows from
its admin idle slope and its transmission rate. The table of addends has what
was last written to the shapers, and a queue whose rate is 1/1 takes the
addend from it.

The rates are what the scheduler returns at each call. The link speed too is
read at each call. The locks and the slopes' read attributes are left out.
-/
import TsnSwitch.Errno

namespace TsnSwitch.Fqtss

def MAX_LINE_SPEED : BitVec 32 := 1000000000
def MAX_ADDEND : BitVec 16 := 65535
def MEGA_VAL : BitVec 32 := 1000000
def CBS : BitVec 8 := 1
def STRICT_PRIO : BitVec 8 := 0
def SPEED_UNKNOWN : BitVec 32 := -1

/-- `struct edgx_st_tr_rate`: the cycle time over the time the gate is open. -/
structure TrRate where
  num : BitVec 64
  denom : BitVec 64
  deriving DecidableEq

/-- `struct edgx_fqtss` with the registers of the shapers. -/
structure EdgxFqtss where
  tsaTbl : Nat → BitVec 8 := fun _ => STRICT_PRIO
  adminidleslope : Nat → BitVec 32 := fun _ => 0
  idleslope : Nat → BitVec 32 := fun _ => 0
  addend : Nat → BitVec 16 := fun _ => 0
  shaper : Nat → BitVec 16

/-- What is fixed when the port is probed. -/
structure Params where
  cycleNs : BitVec 32
  nrQueues : Nat

namespace Params

variable (par : Params)

def edgxFqtssGetClk : BitVec 32 := 1000000000 / par.cycleNs

def edgxFqtssCalcAddend (bitrate clk : BitVec 32) : BitVec 16 :=
  (((bitrate.setWidth 64 <<< 12) + clk.setWidth 64 - 1) / clk.setWidth 64).setWidth 16

def edgxFqtssWriteAddend (fqt : EdgxFqtss) (addend : BitVec 16) (idx : Nat) : EdgxFqtss :=
  let fqt := { fqt with addend := Function.update fqt.addend idx addend }
  if fqt.tsaTbl idx = CBS then { fqt with shaper := Function.update fqt.shaper idx addend }
  else if fqt.tsaTbl idx = STRICT_PRIO then { fqt with shaper := Function.update fqt.shaper idx MAX_ADDEND }
  else fqt

/-- The slope times the rate. Where the product has no room and `dnm` is no
multiple of `num`, the source divides by zero. -/
def scaleSlope (bitrate : BitVec 32) (num dnm : BitVec 64) : BitVec 32 :=
  if bitrate.setWidth 64 > BitVec.allOnes 64 / num then
    if num / dnm > 0 then (num / dnm).setWidth 32 * bitrate
    else
      let tmp := num * (dnm / num) / dnm
      (((tmp.setWidth 32 * bitrate).setWidth 64) / tmp).setWidth 32
  else (bitrate.setWidth 64 * num / dnm).setWidth 32

/-- No slope is above the link speed. -/
def limitSlope (linkSpeed bitrate : BitVec 32) : BitVec 32 :=
  if linkSpeed = SPEED_UNKNOWN ∧ bitrate > MAX_LINE_SPEED then MAX_LINE_SPEED
  else if bitrate > linkSpeed * MEGA_VAL then linkSpeed * MEGA_VAL
  else bitrate

def edgxFqtssCalcIdleSlope (fqt : EdgxFqtss) (idx : Nat) (linkSpeed : BitVec 32) (rate : TrRate) : BitVec 16 × EdgxFqtss :=
  if rate.num = 0 ∨ rate.denom = 0 then (0, fqt)
  else if rate.num = 1 ∧ rate.denom = 1 then (fqt.addend idx, fqt)
  else
    let bitrate := limitSlope linkSpeed (scaleSlope (fqt.adminidleslope idx) rate.num rate.denom)
    (edgxFqtssCalcAddend bitrate par.edgxFqtssGetClk,
      { fqt with idleslope := Function.update fqt.idleslope idx bitrate })

/-- The body of the loop of `edgx_fqtss_st_change`. -/
def stChangeQueue (linkSpeed : BitVec 32) (rates : Nat → TrRate) (fqt : EdgxFqtss) (i : Nat) : EdgxFqtss :=
  let (addend, fqt) := par.edgxFqtssCalcIdleSlope fqt i linkSpeed (rates i)
  edgxFqtssWriteAddend fqt addend i

def edgxFqtssStChange (fqt : EdgxFqtss) (linkSpeed : BitVec 32) (rates : Nat → TrRate) : EdgxFqtss :=
  (List.range par.nrQueues).foldl (par.stChangeQueue linkSpeed rates) fqt

/-- The slopes that may be written at a link speed. -/
def slopeAllowed (linkSpeed slope : BitVec 32) : Prop :=
  if linkSpeed = SPEED_UNKNOWN then slope ≤ MAX_LINE_SPEED else slope ≤ linkSpeed * MEGA_VAL

instance (linkSpeed slope : BitVec 32) : Decidable (slopeAllowed linkSpeed slope) := by
  unfold slopeAllowed
  infer_instance

def adminSlopeTblWrite (fqtss : EdgxFqtss) (idx : Nat) (slope linkSpeed : BitVec 32) (rate : TrRate) : Int × EdgxFqtss :=
  if idx ≥ par.nrQueues then (-EINVAL, fqtss)
  else if ¬ slopeAllowed linkSpeed slope then (-EINVAL, fqtss)
  else
    let addend := edgxFqtssCalcAddend slope par.edgxFqtssGetClk
    let fqtss := { fqtss with
      adminidleslope := Function.update fqtss.adminidleslope idx slope
      idleslope := Function.update fqtss.idleslope idx slope
      addend := Function.update fqtss.addend idx addend }
    let (addend, fqtss) := par.edgxFqtssCalcIdleSlope fqtss idx linkSpeed rate
    (8, edgxFqtssWriteAddend fqtss addend idx)

def tsaTblWrite (fqt : EdgxFqtss) (i : Nat) (tsa : BitVec 8) : Int × EdgxFqtss :=
  if i ≥ par.nrQueues ∨ tsa > CBS then (-EINVAL, fqt)
  else
    let fqt := { fqt with tsaTbl := Function.update fqt.tsaTbl i tsa }
    (1, edgxFqtssWriteAddend fqt (fqt.addend i) i)

/-- `shaper` is what the registers have before. -/
def edgxProbeFqtss (shaper : Nat → BitVec 16) : EdgxFqtss where
  shaper := (List.range par.nrQueues).foldl (fun shaper i => Function.update shaper i MAX_ADDEND) shaper

end Params

inductive FqtssOp where
  | stChange (linkSpeed : BitVec 32) (rates : Nat → TrRate)
  | adminSlopeTblWrite (idx : Nat) (slope linkSpeed : BitVec 32) (rate : TrRate)
  | tsaTblWrite (i : Nat) (tsa : BitVec 8)

def fqtssStep (par : Params) (fqt : EdgxFqtss) : FqtssOp → Int × EdgxFqtss
  | .stChange linkSpeed rates => (0, par.edgxFqtssStChange fqt linkSpeed rates)
  | .adminSlopeTblWrite idx slope linkSpeed rate => par.adminSlopeTblWrite fqt idx slope linkSpeed rate
  | .tsaTblWrite i tsa => par.tsaTblWrite fqt i tsa

end TsnSwitch.Fqtss
