/-
The delays from the scheduler to the wire: `edgx_sched_calc_delays` of
edge_st_fscr.c, with what it reads of the link, the port and the pipeline.

All differences are of unsigned values of 64 bits, and what the hardware holds
the gates back at the low speed is only subtracted there. They are the
differences of the numbers just when the high speed is not slower by more than
the frequency error, and the register has 8 bits (`delaysOk_iff`).
-/
import TsnSwitch.Errno
import TsnSwitch.Sched.Machine

namespace TsnSwitch.Sched

/-! ## Parameters -/

/-- `enum edgx_lnk_mode`. -/
inductive LnkMode where
  | inval | m10_100_1000 | m10_100 | m100_1000 | m100
  deriving DecidableEq

/-- `enum _delay_id`. -/
inductive DelayId where
  | dly10 | dly100 | dly1000
  deriving DecidableEq

/-- The `_min` and `_max` of a delay. -/
structure MinMax (α : Type) where
  min : α
  max : α

def EDGX_DLY_MASK_10_100_1000 : BitVec 32 := 0x3f
def EDGX_DLY_MASK_100_1000 : BitVec 32 := 0x3c
def EDGX_DLY_MASK_10_100 : BitVec 32 := 0xf
def EDGX_DLY_MASK_100 : BitVec 32 := 0xc
def BR_FEAT_G2O_BASE : Nat := 0x120
def BR_FEAT_DLY_SPD_STEP : Nat := 2
def BR_FEAT_DLY_MAX_OFS : Nat := 8

/-- The transmit side of `struct edgx_link`. -/
structure EdgxLink where
  lnkMode : LnkMode
  dlyFlags : BitVec 32
  phyDly : DelayId → MinMax (BitVec 32)
  adptDly : DelayId → BitVec 32

/-- `struct edgx_sched_limits`. `edgx_br_check_lnk_mode` takes a frequency error
of at most 25 ppm, and the longest cycle is always 16 ms. -/
structure Limits where
  hwGranularityNs : BitVec 32
  freqErrAbs : Nat
  maxCycMs : Nat
  freq_le : freqErrAbs ≤ 25
  cyc_eq : maxCycMs = 16

/-- Minimum and maximum of the pipeline delay for each of the two ticks. -/
structure S2gRegs where
  of320 : MinMax (BitVec 16)
  of3200 : MinMax (BitVec 16)

/-- What the computation reads. -/
structure DlyEnv where
  lnk : EdgxLink
  feature : Nat → BitVec 16
  cycleNs : BitVec 32
  s2g : S2gRegs
  limits : Limits

/-! ## Reading them -/

def edgxLinkDelaysEntered (lnk : EdgxLink) : Bool :=
  match lnk.lnkMode with
  | .m10_100_1000 => (lnk.dlyFlags &&& EDGX_DLY_MASK_10_100_1000) == EDGX_DLY_MASK_10_100_1000
  | .m100_1000 => (lnk.dlyFlags &&& EDGX_DLY_MASK_100_1000) == EDGX_DLY_MASK_100_1000
  | .m10_100 => (lnk.dlyFlags &&& EDGX_DLY_MASK_10_100) == EDGX_DLY_MASK_10_100
  | .m100 => (lnk.dlyFlags &&& EDGX_DLY_MASK_100) == EDGX_DLY_MASK_100
  | .inval => false

/-- The sum of the delays of PHY and adapter, which has 32 bits. -/
def EdgxLink.txDelay (lnk : EdgxLink) (id : DelayId) : MinMax Int :=
  ⟨(lnk.phyDly id).min + lnk.adptDly id |>.toNat, (lnk.phyDly id).max + lnk.adptDly id |>.toNat⟩

def edgxLinkGetTxDelaysHi (lnk : EdgxLink) : Except Int (MinMax Int) :=
  if edgxLinkDelaysEntered lnk then
    match lnk.lnkMode with
    | .m100_1000 => .ok (lnk.txDelay .dly1000)
    | .m10_100 | .m100 => .ok (lnk.txDelay .dly100)
    | _ => .error (-EINVAL)
  else .error (-EINVAL)

def edgxLinkGetTxDelaysLo (lnk : EdgxLink) : Except Int (MinMax Int) :=
  if edgxLinkDelaysEntered lnk then
    match lnk.lnkMode with
    | .m100_1000 | .m100 => .ok (lnk.txDelay .dly100)
    | .m10_100 => .ok (lnk.txDelay .dly10)
    | _ => .error (-EINVAL)
  else .error (-EINVAL)

def edgxPtGetDlySpd (env : DlyEnv) (ofsBase : Nat) (max : Bool) (speed : DelayId) : Int :=
  let (miiCycleNs, ofs) : BitVec 32 × Nat := match speed with
    | .dly10 => (400, ofsBase)
    | .dly100 => (40, ofsBase + BR_FEAT_DLY_SPD_STEP)
    | .dly1000 => (8, ofsBase + 2 * BR_FEAT_DLY_SPD_STEP)
  let ofs := ofs + BR_FEAT_DLY_MAX_OFS * max.toNat
  let v := env.feature ofs
  (env.cycleNs * (v &&& 0xff).setWidth 32 + miiCycleNs * ((v >>> 8) &&& 0xff).setWidth 32).toNat

def DlyEnv.g2o (env : DlyEnv) (speed : DelayId) : MinMax Int :=
  ⟨edgxPtGetDlySpd env BR_FEAT_G2O_BASE false speed, edgxPtGetDlySpd env BR_FEAT_G2O_BASE true speed⟩

def edgxPtGetG2oHi (env : DlyEnv) : Except Int (MinMax Int) :=
  match env.lnk.lnkMode with
  | .m100_1000 => .ok (env.g2o .dly1000)
  | .m10_100 | .m100 => .ok (env.g2o .dly100)
  | _ => .error (-EINVAL)

def edgxPtGetG2oLo (env : DlyEnv) : Except Int (MinMax Int) :=
  match env.lnk.lnkMode with
  | .m100_1000 | .m100 => .ok (env.g2o .dly100)
  | .m10_100 => .ok (env.g2o .dly10)
  | _ => .error (-EINVAL)

/-- Cycles and nanoseconds of a register. -/
def s2gNs (reg : BitVec 16) (clk : Nat) : Nat := u64 (u64 ((reg &&& 0x0f).toNat * clk) + (reg >>> 4).toNat)

def edgxSchedGetS2g (env : DlyEnv) (clk : Nat) : Except Int (MinMax Nat) :=
  if env.limits.hwGranularityNs = 320 then .ok ⟨s2gNs env.s2g.of320.min clk, s2gNs env.s2g.of320.max clk⟩
  else if env.limits.hwGranularityNs = 3200 then .ok ⟨s2gNs env.s2g.of3200.min clk, s2gNs env.s2g.of3200.max clk⟩
  else .error (-EINVAL)

/-! ## The computation -/

/-- `struct edgx_sched_dly`. -/
structure SchedDly where
  ready : Bool := false
  phyTxHi : MinMax Int := ⟨0, 0⟩
  phyTxLo : MinMax Int := ⟨0, 0⟩
  g2oHi : MinMax Int := ⟨0, 0⟩
  g2oLo : MinMax Int := ⟨0, 0⟩
  s2g : MinMax Nat := ⟨0, 0⟩
  vS2gHi : Nat := 0
  vS2gLo : Nat := 0
  g2wHi : MinMax Nat := ⟨0, 0⟩
  g2wLo : MinMax Nat := ⟨0, 0⟩
  s2gHi : MinMax Nat := ⟨0, 0⟩
  s2gLo : MinMax Nat := ⟨0, 0⟩
  s2wHi : MinMax Nat := ⟨0, 0⟩
  s2wLo : MinMax Nat := ⟨0, 0⟩
  clk : Nat := 0
  starttimeErr : Nat := 0
  delayReg : Nat := 0
  timeAdvance : Nat := 0
  freqErrPerSec : Nat := 0
  freqErrPerNsec : Nat := 0
  freqErrPerCyc : Nat := 0
  advErrHi : Nat := 0
  advErrLo : Nat := 0
  maxOverrunHi : Nat := 0
  maxOverrunLo : Nat := 0
  stPartIndepTxDlyHi : MinMax Nat := ⟨0, 0⟩
  stPartIndepTxDlyLo : MinMax Nat := ⟨0, 0⟩
  maxCycMs : Nat := 0
  gCloseAdvLo : Nat := 0
  gCloseAdvHi : Nat := 0

/-- The delays of a port and the registers of its scheduler. -/
structure EdgxSt where
  dly : SchedDly := {}
  delay : BitVec 8 := 0
  gCloseAdvLo : BitVec 16 := 0
  gCloseAdvHi : BitVec 16 := 0

/-- The 64 bit signed reading of an unsigned value. -/
def s64 (n : Nat) : Int := if n < 2 ^ 63 then n else n - 2 ^ 64

/-- The computation, up to the link modes. -/
def SchedDly.calc (limits : Limits) (d : SchedDly) : SchedDly :=
  let gran := limits.hwGranularityNs.toNat
  let starttimeErr := EDGX_SCHED_DEF_START_TIME_ERR
  let maxCycMs := limits.maxCycMs
  let g2wHi : MinMax Nat := ⟨u64OfInt (d.phyTxHi.min + d.g2oHi.min), u64OfInt (d.phyTxHi.max + d.g2oHi.max)⟩
  let g2wLo : MinMax Nat := ⟨u64OfInt (d.phyTxLo.min + d.g2oLo.min), u64OfInt (d.phyTxLo.max + d.g2oLo.max)⟩
  let delayReg := (s64 g2wHi.min - s64 g2wLo.min).natAbs / gran
  let s2gHi : MinMax Nat := ⟨u64 (d.s2g.min + 399 * gran), u64 (d.s2g.max + 399 * gran + starttimeErr)⟩
  let s2gLo : MinMax Nat := ⟨u64 (d.s2g.min + 399 * gran), u64 (d.s2g.max + 399 * gran + starttimeErr)⟩
  let s2wHi : MinMax Nat := ⟨u64 (s2gHi.min + g2wHi.min), u64 (s2gHi.max + g2wHi.max)⟩
  let s2wLo : MinMax Nat := ⟨u64 (s2gLo.min + g2wLo.min), u64 (s2gLo.max + g2wLo.max)⟩
  let freqErrPerSec := u64 (limits.freqErrAbs * 1000)
  let freqErrPerCyc := u64 (freqErrPerSec * maxCycMs) / 1000
  let timeAdvance := u64OfInt (min s2wHi.min s2wLo.min - freqErrPerCyc)
  let advErrHi := u64OfInt (s2wHi.min - timeAdvance)
  let advErrLo := u64OfInt (s2wLo.min - timeAdvance - u64 (gran * delayReg))
  let maxOverrunHi := u64OfInt (s2wHi.max - timeAdvance + freqErrPerCyc)
  let maxOverrunLo := u64OfInt (s2wLo.max - timeAdvance + freqErrPerCyc - u64 (gran * delayReg))
  let vS2gHi := u64OfInt (s2gHi.max - s2gHi.min)
  let vS2gLo := u64OfInt (s2gLo.max - s2gLo.min)
  { d with
    starttimeErr, maxCycMs, g2wHi, g2wLo, delayReg, s2gHi, s2gLo, s2wHi, s2wLo, freqErrPerSec, freqErrPerCyc
    freqErrPerNsec := freqErrPerSec / 1000000
    timeAdvance, advErrHi, advErrLo, maxOverrunHi, maxOverrunLo, vS2gHi, vS2gLo
    stPartIndepTxDlyHi := ⟨advErrHi, u64 (advErrHi + vS2gHi + starttimeErr + freqErrPerCyc)⟩
    stPartIndepTxDlyLo := ⟨advErrLo, u64 (advErrLo + vS2gLo + starttimeErr + freqErrPerCyc)⟩ }

/-- An overrun in the units of a register, rounded up. -/
def gCloseAdv (maxOverrun div max : Nat) : Nat :=
  min (if maxOverrun % div ≠ 0 then u64 (maxOverrun / div + 1) else maxOverrun / div) max

/-- `max_g_close_adv` and `g_close_adv_div` of the low and of the high speed. -/
def LnkMode.gClose : LnkMode → Option ((Nat × Nat) × (Nat × Nat))
  | .m100_1000 => some ((46, 80), (255, 8))
  | .m10_100 => some ((46, 800), (255, 80))
  | .m100 => some ((46, 80), (0, 1))
  | _ => none

/-- The rest of it. -/
def EdgxSt.setRegs (st : EdgxSt) (lnkMode : LnkMode) : Int × EdgxSt :=
  match lnkMode.gClose with
  | none => (-EINVAL, st)
  | some ((maxLo, divLo), (maxHi, divHi)) =>
    let gCloseAdvLo := gCloseAdv st.dly.maxOverrunLo divLo maxLo
    let gCloseAdvHi := gCloseAdv st.dly.maxOverrunHi divHi maxHi
    (0, { dly := { st.dly with gCloseAdvLo, gCloseAdvHi, ready := true }
          delay := BitVec.ofNat 8 st.dly.delayReg
          gCloseAdvLo := BitVec.ofNat 16 gCloseAdvLo
          gCloseAdvHi := BitVec.ofNat 16 gCloseAdvHi })

def edgxSchedCalcDelays (env : DlyEnv) (st : EdgxSt) : Int × EdgxSt :=
  if st.dly.ready then (0, st)
  else match edgxLinkGetTxDelaysHi env.lnk with
  | .error ret => (ret, st)
  | .ok phyTxHi =>
  let st := { st with dly := { st.dly with phyTxHi } }
  match edgxLinkGetTxDelaysLo env.lnk with
  | .error ret => (ret, st)
  | .ok phyTxLo =>
  let st := { st with dly := { st.dly with phyTxLo } }
  match edgxPtGetG2oHi env with
  | .error ret => (ret, st)
  | .ok g2oHi =>
  let st := { st with dly := { st.dly with g2oHi } }
  match edgxPtGetG2oLo env with
  | .error ret => (ret, st)
  | .ok g2oLo =>
  let st := { st with dly := { st.dly with g2oLo, clk := env.cycleNs.toNat } }
  if env.cycleNs = 0 then (-EINVAL, st)
  else match edgxSchedGetS2g env st.dly.clk with
  | .error ret => (ret, st)
  | .ok s2g =>
  let st := { st with dly := { st.dly with s2g }.calc env.limits }
  st.setRegs env.lnk.lnkMode

/-- What the state machine stores, in 64 signed bits. -/
def edgxStGetSchedOffset (env : DlyEnv) (st : EdgxSt) : (Int × Int) × EdgxSt :=
  let (ret, st) := edgxSchedCalcDelays env st
  if ret ≠ 0 then ((ret, 0), st) else ((0, s64 (u64OfInt (-st.dly.timeAdvance))), st)

/-! ## The delays as numbers -/

/-- The two speeds of a link mode. -/
inductive Rate where
  | hi | lo
  deriving DecidableEq

/-- What the getters give: from the port to the wire, from the gate to the
port, and from the scheduler to the gate. -/
structure Delays where
  phyTx : Rate → MinMax Int
  g2o : Rate → MinMax Int
  s2g : MinMax Nat

/-- The getters give these delays. -/
structure GetsDelays (env : DlyEnv) (i : Delays) : Prop where
  txHi : edgxLinkGetTxDelaysHi env.lnk = .ok (i.phyTx .hi)
  txLo : edgxLinkGetTxDelaysLo env.lnk = .ok (i.phyTx .lo)
  g2oHi : edgxPtGetG2oHi env = .ok (i.g2o .hi)
  g2oLo : edgxPtGetG2oLo env = .ok (i.g2o .lo)
  clk : env.cycleNs ≠ 0
  s2g : edgxSchedGetS2g env env.cycleNs.toNat = .ok i.s2g

namespace Delays

/-- No minimum is above its maximum. -/
structure Ordered (i : Delays) : Prop where
  phyTx : ∀ r, (i.phyTx r).min ≤ (i.phyTx r).max
  g2o : ∀ r, (i.g2o r).min ≤ (i.g2o r).max
  s2g : i.s2g.min ≤ i.s2g.max

variable (l : Limits) (i : Delays)

/-- Gate to wire. -/
def g2w (r : Rate) : MinMax Int := ⟨(i.phyTx r).min + (i.g2o r).min, (i.phyTx r).max + (i.g2o r).max⟩

/-- Scheduler to wire. -/
def s2w (r : Rate) : MinMax Int :=
  ⟨i.s2g.min + 399 * l.hwGranularityNs.toNat + (i.g2w r).min,
   i.s2g.max + 399 * l.hwGranularityNs.toNat + EDGX_SCHED_DEF_START_TIME_ERR + (i.g2w r).max⟩

/-- The frequency error of the longest cycle. -/
def freqErr (l : Limits) : Int := l.freqErrAbs * l.maxCycMs

def timeAdvance : Int := min (i.s2w l .hi).min (i.s2w l .lo).min - freqErr l

/-- The difference of the speeds, in granules. -/
def granules : Nat := ((i.g2w .hi).min - (i.g2w .lo).min).natAbs / l.hwGranularityNs.toNat

/-- What the hardware holds the gates back. -/
def held : Rate → Int
  | .hi => 0
  | .lo => l.hwGranularityNs.toNat * i.granules l

def advErr (r : Rate) : Int := (i.s2w l r).min - i.timeAdvance l - i.held l r

def maxOverrun (r : Rate) : Int := (i.s2w l r).max - i.timeAdvance l + freqErr l - i.held l r

def vS2g : Int := i.s2g.max + EDGX_SCHED_DEF_START_TIME_ERR - i.s2g.min

end Delays

/-- The computed values are these numbers, and none is negative. -/
structure DelaysOk (env : DlyEnv) (st : EdgxSt) (i : Delays) : Prop where
  ok : (edgxSchedCalcDelays env st).1 = 0
  timeAdvance : (edgxSchedCalcDelays env st).2.dly.timeAdvance = i.timeAdvance env.limits
  advErrHi : (edgxSchedCalcDelays env st).2.dly.advErrHi = i.advErr env.limits .hi
  advErrLo : (edgxSchedCalcDelays env st).2.dly.advErrLo = i.advErr env.limits .lo
  maxOverrunHi : (edgxSchedCalcDelays env st).2.dly.maxOverrunHi = i.maxOverrun env.limits .hi
  maxOverrunLo : (edgxSchedCalcDelays env st).2.dly.maxOverrunLo = i.maxOverrun env.limits .lo
  vS2gHi : (edgxSchedCalcDelays env st).2.dly.vS2gHi = i.vS2g
  vS2gLo : (edgxSchedCalcDelays env st).2.dly.vS2gLo = i.vS2g
  delay : (edgxSchedCalcDelays env st).2.delay.toNat = i.granules env.limits

/-- Where the high speed is the slower one, its whole granules are within the
frequency error, and the granules fit the register. -/
structure DelaysGiven (l : Limits) (i : Delays) : Prop where
  slower : (l.hwGranularityNs.toNat : Int) * (((i.g2w .hi).min - (i.g2w .lo).min).toNat / l.hwGranularityNs.toNat) ≤
    Delays.freqErr l
  fits : i.granules l < 256

/-! ## What the getters give -/

/-- A result of 32 bits. -/
def MinMax.U32 (d : MinMax Int) : Prop := 0 ≤ d.min ∧ d.min < 2 ^ 32 ∧ 0 ≤ d.max ∧ d.max < 2 ^ 32

theorem txDelay_u32 (lnk : EdgxLink) (id : DelayId) : (lnk.txDelay id).U32 := by
  have hmin := ((lnk.phyDly id).min + lnk.adptDly id).isLt
  have hmax := ((lnk.phyDly id).max + lnk.adptDly id).isLt
  simp only [MinMax.U32, EdgxLink.txDelay]
  omega

theorem MinMax.u32_words (min max : BitVec 32) : MinMax.U32 ⟨min.toNat, max.toNat⟩ := by
  have hmin := min.isLt
  have hmax := max.isLt
  simp only [MinMax.U32]
  omega

theorem g2o_u32 (env : DlyEnv) (speed : DelayId) : (env.g2o speed).U32 := MinMax.u32_words ..

theorem s2gNs_lt (reg : BitVec 16) {clk : Nat} (h : clk < 2 ^ 32) : s2gNs reg clk < 2 ^ 37 := by
  have hlow : (reg &&& 0x0f).toNat ≤ 15 := by
    rw [BitVec.toNat_and]
    exact Nat.and_le_right
  have hhigh : (reg >>> 4).toNat < 2 ^ 16 := BitVec.isLt _
  have hmul : (reg &&& 0x0f).toNat * clk ≤ 15 * 2 ^ 32 := Nat.mul_le_mul hlow h.le
  rw [s2gNs, u64, u64]
  omega

/-- A getter that fails with `-EINVAL` only, and otherwise gives such a delay. -/
def Gives {α : Type} (x : Except Int α) (p : α → Prop) : Prop :=
  match x with
  | .ok a => p a
  | .error e => e = -EINVAL

section Bounds

variable {env : DlyEnv} {i : Delays}

theorem txHi_gives (lnk : EdgxLink) : Gives (edgxLinkGetTxDelaysHi lnk) MinMax.U32 := by
  unfold edgxLinkGetTxDelaysHi
  split
  · cases lnk.lnkMode with
    | m100_1000 | m10_100 | m100 => exact txDelay_u32 lnk _
    | inval | m10_100_1000 => rfl
  · rfl

theorem txLo_gives (lnk : EdgxLink) : Gives (edgxLinkGetTxDelaysLo lnk) MinMax.U32 := by
  unfold edgxLinkGetTxDelaysLo
  split
  · cases lnk.lnkMode with
    | m100_1000 | m10_100 | m100 => exact txDelay_u32 lnk _
    | inval | m10_100_1000 => rfl
  · rfl

theorem g2oHi_gives (env : DlyEnv) : Gives (edgxPtGetG2oHi env) MinMax.U32 := by
  unfold edgxPtGetG2oHi
  cases env.lnk.lnkMode with
  | m100_1000 | m10_100 | m100 => exact g2o_u32 env _
  | inval | m10_100_1000 => rfl

theorem g2oLo_gives (env : DlyEnv) : Gives (edgxPtGetG2oLo env) MinMax.U32 := by
  unfold edgxPtGetG2oLo
  cases env.lnk.lnkMode with
  | m100_1000 | m10_100 | m100 => exact g2o_u32 env _
  | inval | m10_100_1000 => rfl

/-- Only two granularities have a pipeline delay. -/
theorem s2g_gives (env : DlyEnv) : Gives (edgxSchedGetS2g env env.cycleNs.toNat) fun s2g =>
    (env.limits.hwGranularityNs.toNat = 320 ∨ env.limits.hwGranularityNs.toNat = 3200) ∧
      s2g.min < 2 ^ 37 ∧ s2g.max < 2 ^ 37 := by
  have hclk := env.cycleNs.isLt
  unfold edgxSchedGetS2g
  split
  · rename_i hg
    exact ⟨.inl (congrArg BitVec.toNat hg), s2gNs_lt _ hclk, s2gNs_lt _ hclk⟩
  · split
    · rename_i hg
      exact ⟨.inr (congrArg BitVec.toNat hg), s2gNs_lt _ hclk, s2gNs_lt _ hclk⟩
    · rfl

theorem Gives.of_ok {α : Type} {x : Except Int α} {p : α → Prop} (h : Gives x p) {a : α} (hx : x = .ok a) : p a := by
  rw [hx] at h
  exact h

theorem Gives.of_error {α : Type} {x : Except Int α} {p : α → Prop} (h : Gives x p) {e : Int} (hx : x = .error e) :
    e = -EINVAL := by
  rw [hx] at h
  exact h

/-- The bounds of everything that is read. -/
structure Bounded (l : Limits) (i : Delays) : Prop where
  gran : l.hwGranularityNs.toNat = 320 ∨ l.hwGranularityNs.toNat = 3200
  phyTx : ∀ r, (i.phyTx r).U32
  g2o : ∀ r, (i.g2o r).U32
  s2g : i.s2g.min < 2 ^ 37 ∧ i.s2g.max < 2 ^ 37

theorem GetsDelays.bounded (h : GetsDelays env i) : Bounded env.limits i where
  gran := ((s2g_gives env).of_ok h.s2g).1
  phyTx r := by
    cases r with
    | hi => exact (txHi_gives env.lnk).of_ok h.txHi
    | lo => exact (txLo_gives env.lnk).of_ok h.txLo
  g2o r := by
    cases r with
    | hi => exact (g2oHi_gives env).of_ok h.g2oHi
    | lo => exact (g2oLo_gives env).of_ok h.g2oLo
  s2g := ((s2g_gives env).of_ok h.s2g).2

end Bounds

/-! ## What is computed -/

theorem u64OfInt_cast {x : Int} (h0 : 0 ≤ x) (h : x < 2 ^ 64) : (u64OfInt x : Int) = x := by
  rw [u64OfInt]
  omega

/-- An unsigned value is a number of less than 64 bits just when that is not
negative. -/
theorem u64OfInt_cast_iff {x : Int} (h : x < 2 ^ 64) : (u64OfInt x : Int) = x ↔ 0 ≤ x :=
  ⟨fun hx => hx ▸ Int.natCast_nonneg _, fun h0 => u64OfInt_cast h0 h⟩

/-- What was read, when the computation starts. -/
def SchedDly.Holds (d : SchedDly) (i : Delays) : Prop :=
  d.phyTxHi = i.phyTx .hi ∧ d.phyTxLo = i.phyTx .lo ∧ d.g2oHi = i.g2o .hi ∧ d.g2oLo = i.g2o .lo ∧ d.s2g = i.s2g

section Calc

variable {l : Limits} {i : Delays} {d : SchedDly}

theorem Bounded.g2w (h : Bounded l i) (r : Rate) :
    0 ≤ (i.g2w r).min ∧ (i.g2w r).min < 2 ^ 33 ∧ 0 ≤ (i.g2w r).max ∧ (i.g2w r).max < 2 ^ 33 := by
  have htx := h.phyTx r
  have hg2o := h.g2o r
  simp only [MinMax.U32] at htx hg2o
  simp only [Delays.g2w]
  omega

theorem Bounded.s2w (h : Bounded l i) (r : Rate) :
    127680 ≤ (i.s2w l r).min ∧ (i.s2w l r).min < 2 ^ 38 ∧ 0 ≤ (i.s2w l r).max ∧ (i.s2w l r).max < 2 ^ 38 := by
  have hg := h.g2w r
  have hs := h.s2g
  have hgran := h.gran
  simp only [Delays.s2w, EDGX_SCHED_DEF_START_TIME_ERR]
  omega

theorem freqErr_le (l : Limits) : 0 ≤ Delays.freqErr l ∧ Delays.freqErr l ≤ 400 := by
  have hfreq := l.freq_le
  rw [Delays.freqErr, l.cyc_eq]
  omega

/-- The time advance needs no bound on the delays: the pipeline alone takes
longer than the frequency error. -/
theorem Bounded.timeAdvance (h : Bounded l i) : 0 ≤ i.timeAdvance l ∧ i.timeAdvance l < 2 ^ 38 := by
  have hhi := h.s2w .hi
  have hlo := h.s2w .lo
  have hfreq := freqErr_le l
  rw [Delays.timeAdvance]
  omega

/-- Whole granules of the difference are no more than the difference. -/
theorem Bounded.held (h : Bounded l i) :
    0 ≤ i.held l .lo ∧ (u64 (l.hwGranularityNs.toNat * i.granules l) : Int) = i.held l .lo := by
  have hhi := h.g2w .hi
  have hlo := h.g2w .lo
  have hle : l.hwGranularityNs.toNat * i.granules l ≤ ((i.g2w .hi).min - (i.g2w .lo).min).natAbs := Nat.mul_div_le _ _
  rw [Delays.held, ← Nat.cast_mul, u64]
  omega

theorem Delays.Ordered.s2w (hi : i.Ordered) (l : Limits) (r : Rate) : (i.s2w l r).min ≤ (i.s2w l r).max := by
  have htx := hi.phyTx r
  have hg2o := hi.g2o r
  have hs := hi.s2g
  simp only [Delays.s2w, Delays.g2w, EDGX_SCHED_DEF_START_TIME_ERR]
  omega

theorem calc_g2w (h : Bounded l i) (hd : d.Holds i) :
    ((d.calc l).g2wHi.min : Int) = (i.g2w .hi).min ∧ ((d.calc l).g2wHi.max : Int) = (i.g2w .hi).max ∧
      ((d.calc l).g2wLo.min : Int) = (i.g2w .lo).min ∧ ((d.calc l).g2wLo.max : Int) = (i.g2w .lo).max := by
  obtain ⟨h1, h2, h3, h4, -⟩ := hd
  have hhi := h.g2w .hi
  have hlo := h.g2w .lo
  simp only [Delays.g2w] at hhi hlo
  simp only [SchedDly.calc, Delays.g2w, h1, h2, h3, h4]
  exact ⟨u64OfInt_cast hhi.1 (by omega), u64OfInt_cast hhi.2.2.1 (by omega), u64OfInt_cast hlo.1 (by omega),
    u64OfInt_cast hlo.2.2.1 (by omega)⟩

theorem calc_delayReg (h : Bounded l i) (hd : d.Holds i) : (d.calc l).delayReg = i.granules l := by
  obtain ⟨h1, -, h2, -⟩ := calc_g2w h hd
  have hhi := h.g2w .hi
  have hlo := h.g2w .lo
  have hs1 : s64 (d.calc l).g2wHi.min = (i.g2w .hi).min := by
    rw [s64]
    omega
  have hs2 : s64 (d.calc l).g2wLo.min = (i.g2w .lo).min := by
    rw [s64]
    omega
  rw [Delays.granules, ← hs1, ← hs2]
  rfl

theorem calc_s2w (h : Bounded l i) (hd : d.Holds i) :
    ((d.calc l).s2wHi.min : Int) = (i.s2w l .hi).min ∧ ((d.calc l).s2wHi.max : Int) = (i.s2w l .hi).max ∧
      ((d.calc l).s2wLo.min : Int) = (i.s2w l .lo).min ∧ ((d.calc l).s2wLo.max : Int) = (i.s2w l .lo).max := by
  obtain ⟨h1, h2, h3, h4⟩ := calc_g2w h hd
  have hs := h.s2g
  have hhi := h.g2w .hi
  have hlo := h.g2w .lo
  have hgran := h.gran
  have heq : (d.calc l).s2wHi.min = u64 (u64 (d.s2g.min + 399 * l.hwGranularityNs.toNat) + (d.calc l).g2wHi.min) ∧
      (d.calc l).s2wHi.max = u64 (u64 (d.s2g.max + 399 * l.hwGranularityNs.toNat + EDGX_SCHED_DEF_START_TIME_ERR) +
        (d.calc l).g2wHi.max) ∧
      (d.calc l).s2wLo.min = u64 (u64 (d.s2g.min + 399 * l.hwGranularityNs.toNat) + (d.calc l).g2wLo.min) ∧
      (d.calc l).s2wLo.max = u64 (u64 (d.s2g.max + 399 * l.hwGranularityNs.toNat + EDGX_SCHED_DEF_START_TIME_ERR) +
        (d.calc l).g2wLo.max) := ⟨rfl, rfl, rfl, rfl⟩
  rw [heq.1, heq.2.1, heq.2.2.1, heq.2.2.2]
  simp only [Delays.s2w, hd.2.2.2.2, u64, EDGX_SCHED_DEF_START_TIME_ERR]
  omega

theorem calc_freqErr (l : Limits) (d : SchedDly) : ((d.calc l).freqErrPerCyc : Int) = Delays.freqErr l := by
  have hfreq := l.freq_le
  have heq : (d.calc l).freqErrPerCyc = u64 (u64 (l.freqErrAbs * 1000) * l.maxCycMs) / 1000 := rfl
  rw [heq, Delays.freqErr, l.cyc_eq, u64, u64]
  omega

theorem calc_timeAdvance (h : Bounded l i) (hd : d.Holds i) : ((d.calc l).timeAdvance : Int) = i.timeAdvance l := by
  obtain ⟨h1, -, h3, -⟩ := calc_s2w h hd
  have hadv := h.timeAdvance
  have heq : (d.calc l).timeAdvance =
      u64OfInt (min (d.calc l).s2wHi.min (d.calc l).s2wLo.min - (d.calc l).freqErrPerCyc) := rfl
  have hmin : ((min (d.calc l).s2wHi.min (d.calc l).s2wLo.min : Nat) : Int) - Delays.freqErr l = i.timeAdvance l := by
    rw [Delays.timeAdvance]
    omega
  rw [heq, calc_freqErr, hmin]
  exact u64OfInt_cast hadv.1 (by omega)

theorem calc_advErr (h : Bounded l i) (hd : d.Holds i) :
    ((d.calc l).advErrHi : Int) = i.advErr l .hi ∧ (d.calc l).advErrLo = u64OfInt (i.advErr l .lo) := by
  obtain ⟨h1, -, h3, -⟩ := calc_s2w h hd
  have hhi := h.s2w .hi
  have hlo := h.s2w .lo
  have hfreq := freqErr_le l
  have hheld := h.held
  have heq : (d.calc l).advErrHi = u64OfInt ((d.calc l).s2wHi.min - (d.calc l).timeAdvance) ∧
      (d.calc l).advErrLo = u64OfInt ((d.calc l).s2wLo.min - (d.calc l).timeAdvance -
        u64 (l.hwGranularityNs.toNat * (d.calc l).delayReg)) := ⟨rfl, rfl⟩
  rw [heq.1, heq.2, calc_timeAdvance h hd, calc_delayReg h hd, h1, h3, hheld.2, Delays.advErr, Delays.advErr]
  refine ⟨?_, rfl⟩
  rw [Delays.held, sub_zero]
  refine u64OfInt_cast ?_ ?_ <;>
  · rw [Delays.timeAdvance]
    omega

theorem calc_maxOverrun (h : Bounded l i) (hi : i.Ordered) (hd : d.Holds i) :
    ((d.calc l).maxOverrunHi : Int) = i.maxOverrun l .hi ∧
      (d.calc l).maxOverrunLo = u64OfInt (i.maxOverrun l .lo) := by
  obtain ⟨-, h2, -, h4⟩ := calc_s2w h hd
  have hhi := h.s2w .hi
  have hlo := h.s2w .lo
  have hfreq := freqErr_le l
  have hheld := h.held
  have hord := hi.s2w l .hi
  have heq : (d.calc l).maxOverrunHi =
        u64OfInt ((d.calc l).s2wHi.max - (d.calc l).timeAdvance + (d.calc l).freqErrPerCyc) ∧
      (d.calc l).maxOverrunLo = u64OfInt ((d.calc l).s2wLo.max - (d.calc l).timeAdvance + (d.calc l).freqErrPerCyc -
        u64 (l.hwGranularityNs.toNat * (d.calc l).delayReg)) := ⟨rfl, rfl⟩
  rw [heq.1, heq.2, calc_timeAdvance h hd, calc_delayReg h hd, calc_freqErr, h2, h4, hheld.2, Delays.maxOverrun,
    Delays.maxOverrun]
  refine ⟨?_, rfl⟩
  rw [Delays.held, sub_zero]
  refine u64OfInt_cast ?_ ?_ <;>
  · rw [Delays.timeAdvance]
    omega

theorem calc_vS2g (h : Bounded l i) (hi : i.Ordered) (hd : d.Holds i) :
    ((d.calc l).vS2gHi : Int) = i.vS2g ∧ ((d.calc l).vS2gLo : Int) = i.vS2g := by
  have hs := h.s2g
  have hord := hi.s2g
  have hgran := h.gran
  have heq : (d.calc l).vS2gHi = u64OfInt
      (u64 (d.s2g.max + 399 * l.hwGranularityNs.toNat + EDGX_SCHED_DEF_START_TIME_ERR) -
        u64 (d.s2g.min + 399 * l.hwGranularityNs.toNat)) ∧ (d.calc l).vS2gLo = (d.calc l).vS2gHi := ⟨rfl, rfl⟩
  rw [heq.2, and_self, heq.1, hd.2.2.2.2]
  simp only [Delays.vS2g, u64, u64OfInt, EDGX_SCHED_DEF_START_TIME_ERR]
  omega

/-- The low side alone decides: at the high speed nothing is held back. -/
theorem advErr_lo_nonneg_iff (h : Bounded l i) :
    0 ≤ i.advErr l .lo ↔
      (l.hwGranularityNs.toNat : Int) * (((i.g2w .hi).min - (i.g2w .lo).min).toNat / l.hwGranularityNs.toNat) ≤
        Delays.freqErr l := by
  have hfreq := freqErr_le l
  simp only [Delays.advErr, Delays.timeAdvance, Delays.s2w, Delays.held, Delays.granules]
  rcases h.gran with hg | hg <;>
  · rw [hg]
    omega

/-- The longest overrun is not before the earliest one. -/
theorem advErr_le_maxOverrun (hi : i.Ordered) (l : Limits) (r : Rate) : i.advErr l r ≤ i.maxOverrun l r := by
  have hord := hi.s2w l r
  have hfreq := freqErr_le l
  rw [Delays.advErr, Delays.maxOverrun]
  omega

theorem Bounded.maxOverrun_lt (h : Bounded l i) (r : Rate) : i.advErr l r < 2 ^ 64 ∧ i.maxOverrun l r < 2 ^ 64 := by
  have hs := h.s2w r
  have hadv := h.timeAdvance
  have hfreq := freqErr_le l
  have hheld := h.held
  rw [Delays.advErr, Delays.maxOverrun]
  cases r with
  | hi =>
    rw [Delays.held]
    omega
  | lo => omega

end Calc

/-! ## Calls -/

section Calls

variable {env : DlyEnv} {st : EdgxSt} {i : Delays}

/-- The delays before the computation. -/
def SchedDly.withDelays (d : SchedDly) (i : Delays) (clk : Nat) : SchedDly :=
  { d with
    phyTxHi := i.phyTx .hi, phyTxLo := i.phyTx .lo, g2oHi := i.g2o .hi, g2oLo := i.g2o .lo, clk, s2g := i.s2g }

theorem withDelays_holds (d : SchedDly) (i : Delays) (clk : Nat) : (d.withDelays i clk).Holds i :=
  ⟨rfl, rfl, rfl, rfl, rfl⟩

/-- A mode for which delays are given has limits for the registers. -/
theorem GetsDelays.gClose (h : GetsDelays env i) : ∃ maxLo divLo maxHi divHi,
    env.lnk.lnkMode.gClose = some ((maxLo, divLo), (maxHi, divHi)) := by
  have hg := h.g2oHi
  rw [edgxPtGetG2oHi] at hg
  cases hm : env.lnk.lnkMode with
  | inval | m10_100_1000 =>
    rw [hm] at hg
    exact nomatch hg
  | m10_100 | m100_1000 | m100 => exact ⟨_, _, _, _, rfl⟩

/-- A first call computes. -/
theorem calcDelays_eq (hnew : st.dly.ready = false) (h : GetsDelays env i) : ∃ gCloseAdvLo gCloseAdvHi,
    edgxSchedCalcDelays env st =
      (0, { dly := { (st.dly.withDelays i env.cycleNs.toNat).calc env.limits with
              gCloseAdvLo, gCloseAdvHi, ready := true }
            delay := BitVec.ofNat 8 ((st.dly.withDelays i env.cycleNs.toNat).calc env.limits).delayReg
            gCloseAdvLo := BitVec.ofNat 16 gCloseAdvLo
            gCloseAdvHi := BitVec.ofNat 16 gCloseAdvHi }) := by
  obtain ⟨maxLo, divLo, maxHi, divHi, hclose⟩ := h.gClose
  refine ⟨gCloseAdv ((st.dly.withDelays i env.cycleNs.toNat).calc env.limits).maxOverrunLo divLo maxLo,
    gCloseAdv ((st.dly.withDelays i env.cycleNs.toNat).calc env.limits).maxOverrunHi divHi maxHi, ?_⟩
  simp only [edgxSchedCalcDelays, hnew, Bool.false_eq_true, if_false, h.txHi, h.txLo, h.g2oHi, h.g2oLo, if_neg h.clk,
    h.s2g, EdgxSt.setRegs, hclose]
  rfl

/-- A first call succeeds just when all delays are given. -/
theorem calcDelays_ok_iff (hnew : st.dly.ready = false) :
    (edgxSchedCalcDelays env st).1 = 0 ↔ ∃ i, GetsDelays env i := by
  refine ⟨fun hret => ?_, fun ⟨i, h⟩ => ?_⟩
  · simp only [edgxSchedCalcDelays, hnew, Bool.false_eq_true, if_false] at hret
    cases h1 : edgxLinkGetTxDelaysHi env.lnk with
    | error e => simp [h1, (txHi_gives _).of_error h1, EINVAL] at hret
    | ok txHi =>
    cases h2 : edgxLinkGetTxDelaysLo env.lnk with
    | error e => simp [h1, h2, (txLo_gives _).of_error h2, EINVAL] at hret
    | ok txLo =>
    cases h3 : edgxPtGetG2oHi env with
    | error e => simp [h1, h2, h3, (g2oHi_gives _).of_error h3, EINVAL] at hret
    | ok g2oHi =>
    cases h4 : edgxPtGetG2oLo env with
    | error e => simp [h1, h2, h3, h4, (g2oLo_gives _).of_error h4, EINVAL] at hret
    | ok g2oLo =>
    simp only [h1, h2, h3, h4] at hret
    split at hret
    · simp [EINVAL] at hret
    · rename_i hclk
      cases h5 : edgxSchedGetS2g env env.cycleNs.toNat with
      | error e => simp [h5, (s2g_gives _).of_error h5, EINVAL] at hret
      | ok s2g =>
        exact ⟨⟨fun r => r.casesOn txHi txLo, fun r => r.casesOn g2oHi g2oLo, s2g⟩, h1, h2, h3, h4, hclk, h5⟩
  · obtain ⟨lo, hi, heq⟩ := calcDelays_eq hnew h
    rw [heq]

/-- The schedule starts earlier by the time advance. -/
theorem getSchedOffset_eq (hnew : st.dly.ready = false) (h : GetsDelays env i) :
    (edgxStGetSchedOffset env st).1 = (0, -i.timeAdvance env.limits) := by
  obtain ⟨lo, hi, heq⟩ := calcDelays_eq hnew h
  have hadv := h.bounded.timeAdvance
  have hs64 : s64 (u64OfInt (-i.timeAdvance env.limits)) = -i.timeAdvance env.limits := by
    rw [s64, u64OfInt]
    split <;> omega
  simp only [edgxStGetSchedOffset, heq, ne_eq, not_true_eq_false, if_false,
    calc_timeAdvance h.bounded (withDelays_holds st.dly i env.cycleNs.toNat), hs64]

/-- **The delays are the true ones** just when the high speed is not slower by
more than the frequency error in whole granules, and the difference of the
speeds fits the register. -/
theorem delaysOk_iff (hnew : st.dly.ready = false) (h : GetsDelays env i) (hi : i.Ordered) :
    DelaysOk env st i ↔ DelaysGiven env.limits i := by
  have hb := h.bounded
  have hd := withDelays_holds st.dly i env.cycleNs.toNat
  obtain ⟨lo, hi', heq⟩ := calcDelays_eq hnew h
  have hadv := calc_advErr hb hd
  have hover := calc_maxOverrun hb hi hd
  have hv := calc_vS2g hb hi hd
  constructor
  · intro hc
    have hlo := hc.advErrLo
    have hreg := hc.delay
    rw [heq] at hlo hreg
    dsimp only at hlo hreg
    rw [hadv.2, u64OfInt_cast_iff (hb.maxOverrun_lt .lo).1, advErr_lo_nonneg_iff hb] at hlo
    rw [calc_delayReg hb hd, BitVec.toNat_ofNat] at hreg
    exact ⟨hlo, by omega⟩
  · intro hc
    have hlo := (advErr_lo_nonneg_iff hb).2 hc.slower
    have hmax := advErr_le_maxOverrun hi env.limits .lo
    have hlt := hb.maxOverrun_lt .lo
    refine ⟨?_, ?_, ?_, ?_, ?_, ?_, ?_, ?_, ?_⟩ <;> rw [heq] <;> dsimp only
    · exact calc_timeAdvance hb hd
    · exact hadv.1
    · rw [hadv.2, u64OfInt_cast hlo hlt.1]
    · exact hover.1
    · rw [hover.2, u64OfInt_cast (hlo.trans hmax) hlt.2]
    · exact hv.1
    · exact hv.2
    · rw [calc_delayReg hb hd, BitVec.toNat_ofNat, Nat.mod_eq_of_lt hc.fits]

end Calls

/-- A gigabit port with these transmit delays, the adapter and the gates
without any, and a pipeline of 4 to 6 cycles. -/
def somePort (phyDly : DelayId → MinMax (BitVec 32)) : DlyEnv where
  lnk := { lnkMode := .m100_1000, dlyFlags := EDGX_DLY_MASK_10_100_1000, phyDly, adptDly := fun _ => 0 }
  feature _ := 0
  cycleNs := 8
  s2g := ⟨⟨4, 6⟩, ⟨4, 6⟩⟩
  limits := ⟨320, 25, 16, le_rfl, rfl⟩

/-- What its getters give. -/
def somePortDelays (hi lo : MinMax Int) : Delays := ⟨fun r => r.casesOn hi lo, fun _ => ⟨0, 0⟩, ⟨32, 48⟩⟩

theorem delaysOk_iff_phy :
    DelaysOk (somePort fun | .dly10 => ⟨4032, 4832⟩ | .dly100 => ⟨412, 492⟩ | .dly1000 => ⟨109, 135⟩) {}
      (somePortDelays ⟨109, 135⟩ ⟨412, 492⟩) :=
  (delaysOk_iff rfl ⟨rfl, rfl, rfl, rfl, by decide, rfl⟩
    ⟨fun r => by cases r <;> decide, fun r => by cases r <;> decide, by decide⟩).2 ⟨by decide, by decide⟩

/-- A high speed slower by a microsecond: the low side is held back by three
granules that it is not ahead. A low speed slower by 256 granules: the register
says none. -/
theorem not_delaysOk_slower :
    (let env := somePort fun | .dly10 => ⟨0, 0⟩ | .dly100 => ⟨0, 0⟩ | .dly1000 => ⟨1000, 1000⟩
     let i := somePortDelays ⟨1000, 1000⟩ ⟨0, 0⟩
     GetsDelays env i ∧ i.Ordered ∧ ¬ DelaysOk env {} i ∧
      (edgxSchedCalcDelays env {}).2.dly.advErrLo = 2 ^ 64 - 560) ∧
    (let env := somePort fun | .dly10 => ⟨0, 0⟩ | .dly100 => ⟨81920, 81920⟩ | .dly1000 => ⟨0, 0⟩
     let i := somePortDelays ⟨0, 0⟩ ⟨81920, 81920⟩
     GetsDelays env i ∧ i.Ordered ∧ ¬ DelaysOk env {} i ∧
      (edgxSchedCalcDelays env {}).2.dly.delayReg = 256 ∧ (edgxSchedCalcDelays env {}).2.delay = 0) := by
  have hord : ∀ a b : Int, (somePortDelays ⟨a, a⟩ ⟨b, b⟩).Ordered := fun a b =>
    ⟨fun r => by cases r <;> exact le_rfl, fun r => le_rfl, (by decide : (32 : Nat) ≤ 48)⟩
  refine ⟨⟨⟨rfl, rfl, rfl, rfl, by decide, rfl⟩, hord _ _, fun h => ?_, by decide⟩,
    ⟨rfl, rfl, rfl, rfl, by decide, rfl⟩, hord _ _, fun h => ?_, by decide, by decide⟩
  · exact absurd h.advErrLo (by decide)
  · exact absurd h.delay (by decide)

end TsnSwitch.Sched
