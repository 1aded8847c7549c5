/-
The thresholds of the hit counter (edge_psfp.c): two registers of 14 bits in
units of 320 ns, and the driver's copies of both in nanoseconds.

The registers are written one after the other, and a write that changes nothing
is left out. Which of them is first follows from the new low threshold and the
old high one. So the low threshold stays below the high one after each write
(`thresholds_ordered`), whatever the registers held when the driver was loaded:
only the first write of the probe itself cannot be saved where they held two
thresholds that are both out of order with the new ones.

The parsing of the written text, the selected gate, the counters, the memory of the
driver and a switch without the hit counter are left out.
-/
import TsnSwitch.Errno
import TsnSwitch.Lib.Run

namespace TsnSwitch.Psfp

open Lib

def HIT_TH_L_MIN : BitVec 32 := 1
def HIT_TH_L_MAX : BitVec 32 := 16382
def HIT_TH_H_MIN : BitVec 32 := 2
def HIT_TH_H_MAX : BitVec 32 := 16383
def HIT_TH_GRAN_NS : BitVec 32 := 320
def HIT_TH_MASK : BitVec 16 := 0x3FFF

/-- `HIT_TH_L` and `HIT_TH_H`. -/
structure HitRegs where
  thL : BitVec 16
  thH : BitVec 16
  deriving DecidableEq

namespace HitRegs

/-- The thresholds of the hardware. -/
def low (regs : HitRegs) : Nat := (regs.thL &&& HIT_TH_MASK).toNat

def high (regs : HitRegs) : Nat := (regs.thH &&& HIT_TH_MASK).toNat

def Ordered (regs : HitRegs) : Prop := regs.low < regs.high

instance (regs : HitRegs) : Decidable regs.Ordered := inferInstanceAs (Decidable (regs.low < regs.high))

end HitRegs

/-- `struct psfp_hit` with its registers, and what they held after each write. -/
structure PsfpHit where
  regs : HitRegs
  thLowNs : BitVec 32
  thHighNs : BitVec 32
  written : List HitRegs := []
  deriving DecidableEq

namespace PsfpHit

variable (hit : PsfpHit)

def wr (regs : HitRegs) : PsfpHit := { hit with regs, written := hit.written ++ [regs] }

/-- The copy, then the register. -/
def wrThL (lowNs : BitVec 32) (low : BitVec 16) : PsfpHit :=
  { hit with thLowNs := lowNs }.wr { hit.regs with thL := low }

def wrThH (highNs : BitVec 32) (high : BitVec 16) : PsfpHit :=
  { hit with thHighNs := highNs }.wr { hit.regs with thH := high }

end PsfpHit

def edgxPsfpHitGetThHw (regs : HitRegs) : BitVec 32 × BitVec 32 :=
  ((regs.thL &&& HIT_TH_MASK).setWidth 32 * HIT_TH_GRAN_NS, (regs.thH &&& HIT_TH_MASK).setWidth 32 * HIT_TH_GRAN_NS)

def edgxPsfpHitCheck (lowNs highNs : BitVec 32) : Except Int (BitVec 16 × BitVec 16) :=
  if lowNs < HIT_TH_L_MIN * HIT_TH_GRAN_NS ∨ lowNs > HIT_TH_L_MAX * HIT_TH_GRAN_NS then .error (-ERANGE)
  else
    let low := (lowNs / HIT_TH_GRAN_NS).setWidth 16
    if low.setWidth 32 * HIT_TH_GRAN_NS ≠ lowNs then .error (-EINVAL)
    else if highNs < HIT_TH_H_MIN * HIT_TH_GRAN_NS ∨ highNs > HIT_TH_H_MAX * HIT_TH_GRAN_NS then .error (-ERANGE)
    else
      let high := (highNs / HIT_TH_GRAN_NS).setWidth 16
      if high.setWidth 32 * HIT_TH_GRAN_NS ≠ highNs then .error (-EINVAL)
      else if low ≥ high then .error (-EINVAL)
      else .ok (low, high)

def edgxPsfpHitSetThHw (hit : PsfpHit) (lowNs highNs : BitVec 32) : Int × PsfpHit :=
  match edgxPsfpHitCheck lowNs highNs with
  | .error ret => (ret, hit)
  | .ok (low, high) =>
    -- the high threshold is first where the new low one would reach the old high one
    let hit := if lowNs ≥ hit.thHighNs then hit.wrThH highNs high else hit
    let hit := if lowNs ≠ hit.thLowNs then hit.wrThL lowNs low else hit
    let hit := if highNs ≠ hit.thHighNs then hit.wrThH highNs high else hit
    (0, hit)

/-- What the registers hold at that time is given. -/
def edgxPsfpHitInit (regs : HitRegs) : Except Int PsfpHit :=
  let (thLowNs, thHighNs) := edgxPsfpHitGetThHw regs
  let (ret, hit) := edgxPsfpHitSetThHw { regs, thLowNs, thHighNs }
    (HIT_TH_L_MIN * HIT_TH_GRAN_NS) (HIT_TH_H_MIN * HIT_TH_GRAN_NS)
  if ret ≠ 0 then .error ret else .ok hit

inductive PsfpHitThType where
  | low
  | high
  deriving DecidableEq

/-- `thNs` is what the written text is as a number. -/
def gtHitThStore (hit : PsfpHit) (thType : PsfpHitThType) (thNs : Option (BitVec 32)) (count : Nat) : Int × PsfpHit :=
  match thNs with
  | none => (-EINVAL, hit)
  | some thNs =>
    let (ret, hit) := match thType with
      | .low => edgxPsfpHitSetThHw hit thNs hit.thHighNs
      | .high => edgxPsfpHitSetThHw hit hit.thLowNs thNs
    (if ret ≠ 0 then ret else count, hit)

/-- An update of both thresholds, or of one through its attribute. -/
inductive HitOp where
  | setThHw (lowNs highNs : BitVec 32)
  | thStore (thType : PsfpHitThType) (thNs : Option (BitVec 32)) (count : Nat)

namespace HitOp

def step (hit : PsfpHit) : HitOp → Int × PsfpHit
  | setThHw lowNs highNs => edgxPsfpHitSetThHw hit lowNs highNs
  | thStore thType thNs count => gtHitThStore hit thType thNs count

/-- The thresholds that are asked for. -/
def requested (hit : PsfpHit) : HitOp → Option (BitVec 32 × BitVec 32)
  | setThHw lowNs highNs => some (lowNs, highNs)
  | thStore .low thNs _ => thNs.map fun thNs => (thNs, hit.thHighNs)
  | thStore .high thNs _ => thNs.map fun thNs => (hit.thLowNs, thNs)

end HitOp

/-! ## The check -/

theorem and_mask {v : BitVec 16} (h : v.toNat ≤ 16383) : v &&& HIT_TH_MASK = v := by
  apply BitVec.eq_of_toNat_eq
  have hmask : HIT_TH_MASK.toNat = 2 ^ 14 - 1 := rfl
  rw [BitVec.toNat_and, hmask, Nat.and_two_pow_sub_one_eq_mod, Nat.mod_eq_of_lt (by omega)]

/-- The register's value of a number of nanoseconds in range. -/
theorem toNat_units {ns : BitVec 32} (h : ns.toNat ≤ 16383 * 320) :
    ((ns / HIT_TH_GRAN_NS).setWidth 16).toNat = ns.toNat / 320 := by
  have hgran : HIT_TH_GRAN_NS.toNat = 320 := rfl
  rw [BitVec.toNat_setWidth, BitVec.toNat_udiv, hgran]
  omega

theorem toNat_ns {v : BitVec 16} (h : v.toNat ≤ 16383) : (v.setWidth 32 * HIT_TH_GRAN_NS).toNat = v.toNat * 320 := by
  have hgran : HIT_TH_GRAN_NS.toNat = 320 := rfl
  rw [BitVec.toNat_mul, BitVec.toNat_setWidth, hgran]
  omega

/-- Two thresholds in nanoseconds that the registers can hold, in order. -/
structure Units (lowNs highNs : BitVec 32) (low high : BitVec 16) : Prop where
  lowNs : lowNs.toNat = low.toNat * 320
  highNs : highNs.toNat = high.toNat * 320
  pos : 1 ≤ low.toNat
  lt : low.toNat < high.toNat
  le : high.toNat ≤ 16383

/-- Exactly the thresholds that the registers can hold in order are accepted. -/
theorem hitCheck_ok_iff {lowNs highNs : BitVec 32} {low high : BitVec 16} :
    edgxPsfpHitCheck lowNs highNs = .ok (low, high) ↔ Units lowNs highNs low high := by
  have hlmin : (HIT_TH_L_MIN * HIT_TH_GRAN_NS).toNat = 320 := rfl
  have hlmax : (HIT_TH_L_MAX * HIT_TH_GRAN_NS).toNat = 16382 * 320 := rfl
  have hhmin : (HIT_TH_H_MIN * HIT_TH_GRAN_NS).toNat = 640 := rfl
  have hhmax : (HIT_TH_H_MAX * HIT_TH_GRAN_NS).toNat = 16383 * 320 := rfl
  constructor
  · intro h
    dsimp only [edgxPsfpHitCheck] at h
    split_ifs at h with hlow hlow' hhigh hhigh' hlt
    simp only [Except.ok.injEq, Prod.mk.injEq] at h
    obtain ⟨rfl, rfl⟩ := h
    simp only [not_or, Nat.not_lt, Nat.not_le, BitVec.le_def, gt_iff_lt, ge_iff_le, BitVec.lt_def, hlmin, hlmax,
      hhmin, hhmax] at hlow hhigh hlt
    have hl : ((lowNs / HIT_TH_GRAN_NS).setWidth 16).toNat = lowNs.toNat / 320 := toNat_units (by omega)
    have hh : ((highNs / HIT_TH_GRAN_NS).setWidth 16).toNat = highNs.toNat / 320 := toNat_units (by omega)
    have hlow := toNat_ns (v := (lowNs / HIT_TH_GRAN_NS).setWidth 16) (by omega)
    have hhigh := toNat_ns (v := (highNs / HIT_TH_GRAN_NS).setWidth 16) (by omega)
    rw [not_ne_iff.1 hlow'] at hlow
    rw [not_ne_iff.1 hhigh'] at hhigh
    exact ⟨hlow, hhigh, by omega, hlt, by omega⟩
  · rintro ⟨hl, hh, hpos, hlt, hle⟩
    have hlow : (lowNs / HIT_TH_GRAN_NS).setWidth 16 = low :=
      BitVec.eq_of_toNat_eq (by rw [toNat_units (by omega)]; omega)
    have hhigh : (highNs / HIT_TH_GRAN_NS).setWidth 16 = high :=
      BitVec.eq_of_toNat_eq (by rw [toNat_units (by omega)]; omega)
    have hlow' : low.setWidth 32 * HIT_TH_GRAN_NS = lowNs :=
      BitVec.eq_of_toNat_eq (by rw [toNat_ns (by omega)]; omega)
    have hhigh' : high.setWidth 32 * HIT_TH_GRAN_NS = highNs :=
      BitVec.eq_of_toNat_eq (by rw [toNat_ns (by omega)]; omega)
    unfold edgxPsfpHitCheck
    rw [if_neg, hlow, if_neg (not_not.2 hlow'), if_neg, hhigh, if_neg (not_not.2 hhigh'), if_neg]
    · rw [ge_iff_le, BitVec.not_le]
      exact hlt
    · simp only [BitVec.lt_def, gt_iff_lt, hhmin, hhmax]
      omega
    · simp only [BitVec.lt_def, gt_iff_lt, hlmin, hlmax]
      omega

theorem hitCheck_error {lowNs highNs : BitVec 32} {ret : Int} (h : edgxPsfpHitCheck lowNs highNs = .error ret) :
    ret < 0 := by
  dsimp only [edgxPsfpHitCheck] at h
  split_ifs at h <;> cases h <;> decide

/-! ## One update -/

section

variable {hit : PsfpHit} {lowNs highNs : BitVec 32} {low high : BitVec 16}

/-- The registers and the copies hold these thresholds. -/
structure PsfpHit.Holds (hit : PsfpHit) (lowNs highNs : BitVec 32) : Prop where
  thLowNs : hit.thLowNs = lowNs
  thHighNs : hit.thHighNs = highNs
  low : hit.regs.low * 320 = lowNs.toNat
  high : hit.regs.high * 320 = highNs.toNat

/-- The copies are what the registers hold. -/
def PsfpHit.Synced (hit : PsfpHit) : Prop := hit.Holds hit.thLowNs hit.thHighNs

theorem PsfpHit.Holds.synced (h : hit.Holds lowNs highNs) : hit.Synced := by
  rw [PsfpHit.Synced, h.thLowNs, h.thHighNs]
  exact h

theorem Units.low_thL (hu : Units lowNs highNs low high) (v : BitVec 16) : HitRegs.low ⟨low, v⟩ = low.toNat := by
  have hle : low.toNat ≤ 16383 := le_of_lt (lt_of_lt_of_le hu.lt hu.le)
  rw [HitRegs.low, and_mask hle]

theorem Units.high_thH (hu : Units lowNs highNs low high) (v : BitVec 16) : HitRegs.high ⟨v, high⟩ = high.toNat := by
  rw [HitRegs.high, and_mask hu.le]

theorem Units.holds (hu : Units lowNs highNs low high) (hl : hit.thLowNs = lowNs) (hh : hit.thHighNs = highNs)
    (hlow : hit.regs.low = low.toNat) (hhigh : hit.regs.high = high.toNat) : hit.Holds lowNs highNs := by
  refine ⟨hl, hh, ?_, ?_⟩
  · rw [hlow, hu.lowNs]
  · rw [hhigh, hu.highNs]

/-- One threshold is set: the copies are these, and every write leaves the
hardware with these thresholds. -/
structure Becomes (hit hit' : PsfpHit) (lowNs highNs : BitVec 32) (l h : Nat) : Prop where
  thLowNs : hit'.thLowNs = lowNs
  thHighNs : hit'.thHighNs = highNs
  low : hit'.regs.low = l
  high : hit'.regs.high = h
  written : ∃ ws, hit'.written = hit.written ++ ws ∧ ∀ regs ∈ ws, regs.low = l ∧ regs.high = h

theorem low_becomes (hu : Units lowNs highNs low high) (hs : lowNs = hit.thLowNs → hit.regs.low = low.toNat) :
    Becomes hit (if lowNs ≠ hit.thLowNs then hit.wrThL lowNs low else hit) lowNs hit.thHighNs low.toNat hit.regs.high := by
  by_cases h : lowNs = hit.thLowNs
  · rw [if_neg (not_not.2 h)]
    exact ⟨h.symm, rfl, hs h, rfl, [], by simp⟩
  · rw [if_pos h]
    exact ⟨rfl, rfl, hu.low_thL _, rfl, [_], rfl, by simp [hu.low_thL, HitRegs.high]⟩

theorem high_becomes (hu : Units lowNs highNs low high) (hs : highNs = hit.thHighNs → hit.regs.high = high.toNat) :
    Becomes hit (if highNs ≠ hit.thHighNs then hit.wrThH highNs high else hit) hit.thLowNs highNs hit.regs.low
      high.toNat := by
  by_cases h : highNs = hit.thHighNs
  · rw [if_neg (not_not.2 h)]
    exact ⟨rfl, h.symm, rfl, hs h, [], by simp⟩
  · rw [if_pos h]
    exact ⟨rfl, rfl, rfl, hu.high_thH _, [_], rfl, by simp [hu.high_thH, HitRegs.low]⟩

/-- What an accepted update does: each write leaves the thresholds in order,
except where both old ones are out of order with the new ones. -/
structure Moved (hit hit' : PsfpHit) (lowNs highNs : BitVec 32) (low high : BitVec 16) : Prop where
  holds : hit'.Holds lowNs highNs
  written : ∃ ws, hit'.written = hit.written ++ ws ∧
    ((∀ regs ∈ ws, regs.Ordered) ↔ ¬(hit.regs.high ≤ low.toNat ∧ high.toNat ≤ hit.regs.low))

theorem setThHw_moved (hs : hit.Synced) (hu : Units lowNs highNs low high) :
    ∃ hit', edgxPsfpHitSetThHw hit lowNs highNs = (0, hit') ∧ Moved hit hit' lowNs highNs low high := by
  have hlt := hu.lt
  have hfirst : lowNs ≥ hit.thHighNs ↔ hit.regs.high ≤ low.toNat := by
    have hhigh := hs.high
    have hlow := hu.lowNs
    rw [ge_iff_le, BitVec.le_def]
    omega
  have hlow : lowNs = hit.thLowNs → hit.regs.low = low.toNat := by
    rintro rfl
    have hlow := hs.low
    have hlowNs := hu.lowNs
    omega
  have hhigh : highNs = hit.thHighNs → hit.regs.high = high.toNat := by
    rintro rfl
    have hhigh := hs.high
    have hhighNs := hu.highNs
    omega
  unfold edgxPsfpHitSetThHw
  rw [hitCheck_ok_iff.2 hu]
  refine ⟨_, rfl, ?_⟩
  by_cases hf : lowNs ≥ hit.thHighNs
  · -- the high threshold is written first, and then it is the new one
    have hlow' : lowNs = (hit.wrThH highNs high).thLowNs → (hit.wrThH highNs high).regs.low = low.toNat := hlow
    have h := low_becomes hu hlow'
    have hhigh : (hit.wrThH highNs high).regs.high = high.toNat := hu.high_thH _
    have hdone : _ = highNs := h.thHighNs
    rw [if_pos hf, if_neg (not_not.2 hdone.symm)]
    refine ⟨hu.holds h.thLowNs hdone h.low (h.high.trans hhigh), ?_⟩
    obtain ⟨ws, hw, hws⟩ := h.written
    have hrest : ∀ regs ∈ ws, regs.Ordered := fun regs hr => by
      rw [HitRegs.Ordered, (hws regs hr).1, (hws regs hr).2, hhigh]
      exact hlt
    have hone : (hit.wrThH highNs high).regs.Ordered ↔ hit.regs.low < high.toNat := by
      rw [HitRegs.Ordered, hhigh]
      rfl
    refine ⟨(hit.wrThH highNs high).regs :: ws, hw.trans (List.append_assoc ..), ?_⟩
    rw [List.forall_mem_cons, hone, and_iff_left hrest]
    have := hfirst.1 hf
    omega
  · -- the new low threshold is below the old high one, and below the new one
    have h := low_becomes hu hlow
    have h' := high_becomes hu (h.thHighNs ▸ h.high ▸ hhigh)
    rw [if_neg hf]
    refine ⟨hu.holds (h'.thLowNs.trans h.thLowNs) h'.thHighNs (h'.low.trans h.low) h'.high, ?_⟩
    obtain ⟨ws, hw, hws⟩ := h.written
    obtain ⟨ws', hw', hws'⟩ := h'.written
    rw [hw, List.append_assoc] at hw'
    have hold : low.toNat < hit.regs.high := Nat.not_le.1 fun hle => hf (hfirst.2 hle)
    refine ⟨ws ++ ws', hw', iff_of_true ?_ fun hn => Nat.not_lt.2 hn.1 hold⟩
    intro regs hr
    rw [HitRegs.Ordered]
    rcases List.mem_append.1 hr with hr | hr
    · rw [(hws regs hr).1, (hws regs hr).2]
      exact hold
    · rw [(hws' regs hr).1, (hws' regs hr).2, h.low]
      exact hlt

end

/-! ## Runs -/

/-- What is wanted of an update. -/
structure HitOp.Ok (hit : PsfpHit) (op : HitOp) : Prop where
  before : hit.regs.Ordered
  /-- Of what the registers hold after each of its writes. -/
  ordered : ∃ ws, (op.step hit).2.written = hit.written ++ ws ∧ ∀ regs ∈ ws, regs.Ordered
  rejected : (op.step hit).1 < 0 → (op.step hit).2 = hit
  accepted : 0 ≤ (op.step hit).1 →
    ∃ lowNs highNs, op.requested hit = some (lowNs, highNs) ∧ (op.step hit).2.Holds lowNs highNs

/-- The copies are right, and the thresholds in order. -/
structure HitInv (hit : PsfpHit) : Prop where
  synced : hit.Synced
  ordered : hit.regs.Ordered

section

variable {hit : PsfpHit}

theorem Moved.inv {hit' : PsfpHit} {lowNs highNs : BitVec 32} {low high : BitVec 16} (hu : Units lowNs highNs low high)
    (h : Moved hit hit' lowNs highNs low high) : HitInv hit' := by
  refine ⟨h.holds.synced, ?_⟩
  have hlow := h.holds.low
  have hhigh := h.holds.high
  have hlowNs := hu.lowNs
  have hhighNs := hu.highNs
  have hlt := hu.lt
  rw [HitRegs.Ordered]
  omega

/-- An update is rejected and nothing changes, or it moves the thresholds. -/
theorem setThHw_cases (hi : HitInv hit) (lowNs highNs : BitVec 32) :
    (∃ ret, ret < 0 ∧ edgxPsfpHitSetThHw hit lowNs highNs = (ret, hit)) ∨
      ∃ hit', edgxPsfpHitSetThHw hit lowNs highNs = (0, hit') ∧ HitInv hit' ∧ hit'.Holds lowNs highNs ∧
        ∃ ws, hit'.written = hit.written ++ ws ∧ ∀ regs ∈ ws, regs.Ordered := by
  cases hc : edgxPsfpHitCheck lowNs highNs with
  | error ret =>
    refine .inl ⟨ret, hitCheck_error hc, ?_⟩
    rw [edgxPsfpHitSetThHw, hc]
  | ok lh =>
    obtain ⟨low, high⟩ := lh
    have hu := hitCheck_ok_iff.1 hc
    obtain ⟨hit', hset, hm⟩ := setThHw_moved hi.synced hu
    obtain ⟨ws, hw, hws⟩ := hm.written
    refine .inr ⟨hit', hset, hm.inv hu, hm.holds, ws, hw, hws.2 ?_⟩
    have hlt : hit.regs.low < hit.regs.high := hi.ordered
    have hlt' := hu.lt
    omega

/-- The same of an operation that is such an update. -/
theorem ok_of_set (hi : HitInv hit) {op : HitOp} {lowNs highNs : BitVec 32} (count : Nat)
    (hreq : op.requested hit = some (lowNs, highNs))
    (hstep : op.step hit = (if (edgxPsfpHitSetThHw hit lowNs highNs).1 ≠ 0 then (edgxPsfpHitSetThHw hit lowNs highNs).1
      else count, (edgxPsfpHitSetThHw hit lowNs highNs).2)) :
    HitInv (op.step hit).2 ∧ op.Ok hit := by
  rcases setThHw_cases hi lowNs highNs with ⟨ret, hret, hset⟩ | ⟨hit', hset, hinv, hholds, hws⟩
  · rw [hset, if_pos hret.ne] at hstep
    have hnot : ¬0 ≤ (op.step hit).1 := by
      rw [hstep]
      exact hret.not_ge
    have hsame : (op.step hit).2 = hit := by rw [hstep]
    rw [hsame]
    refine ⟨hi, hi.ordered, ⟨[], ?_, by simp⟩, fun _ => hsame, fun h => absurd h hnot⟩
    rw [hsame, List.append_nil]
  · rw [hset, if_neg (not_not.2 rfl)] at hstep
    have hnew : (op.step hit).2 = hit' := by rw [hstep]
    have hnot : ¬(op.step hit).1 < 0 := by
      rw [hstep]
      exact (Int.natCast_nonneg count).not_gt
    refine ⟨hnew ▸ hinv, hi.ordered, hnew ▸ hws, fun h => absurd h hnot, fun _ => ⟨lowNs, highNs, hreq, hnew ▸ hholds⟩⟩

theorem step_ok (hi : HitInv hit) (op : HitOp) : HitInv (op.step hit).2 ∧ op.Ok hit := by
  cases op with
  | setThHw lowNs highNs =>
    refine ok_of_set hi 0 rfl ?_
    rcases setThHw_cases hi lowNs highNs with ⟨ret, hret, hset⟩ | ⟨hit', hset, -⟩
    · simp [HitOp.step, hset, hret.ne]
    · simp [HitOp.step, hset]
  | thStore thType thNs count =>
    cases thNs with
    | none =>
      have hret : ¬(0 : Int) ≤ -EINVAL := by decide
      exact ⟨hi, hi.ordered, ⟨[], (List.append_nil _).symm, by simp⟩, fun _ => rfl, fun h => absurd h hret⟩
    | some thNs => cases thType with
      | low => exact ok_of_set hi count rfl rfl
      | high => exact ok_of_set hi count rfl rfl

end

/-! ## The probe -/

theorem mask_le (v : BitVec 16) : (v &&& HIT_TH_MASK).toNat ≤ 16383 := by
  rw [BitVec.toNat_and]
  exact Nat.and_le_right

/-- What is read from the registers is what they hold. -/
theorem getThHw_synced (regs : HitRegs) :
    (⟨regs, (edgxPsfpHitGetThHw regs).1, (edgxPsfpHitGetThHw regs).2, []⟩ : PsfpHit).Synced :=
  ⟨rfl, rfl, (toNat_ns (mask_le _)).symm, (toNat_ns (mask_le _)).symm⟩

theorem hitInit_eq (regs : HitRegs) :
    ∃ hit, edgxPsfpHitInit regs = .ok hit ∧ HitInv hit ∧
      ((∀ r ∈ hit.written, r.Ordered) ↔ ¬(regs.high ≤ 1 ∧ 2 ≤ regs.low)) := by
  have hu : Units (HIT_TH_L_MIN * HIT_TH_GRAN_NS) (HIT_TH_H_MIN * HIT_TH_GRAN_NS) 1 2 := by
    constructor <;> decide
  obtain ⟨hit, hset, hm⟩ := setThHw_moved (getThHw_synced regs) hu
  obtain ⟨ws, hw, hws⟩ := hm.written
  refine ⟨hit, ?_, hm.inv hu, ?_⟩
  · dsimp only [edgxPsfpHitInit]
    rw [hset, if_neg (not_not.2 rfl)]
  · rw [hw, List.nil_append]
    exact hws

/-- **The thresholds are in order after every write**, and each update is done
as a whole or not at all, whatever the registers held when the driver was loaded.
The writes of the probe itself are in order unless both thresholds that it finds
are out of order with the first ones that it sets. -/
theorem thresholds_ordered (regs : HitRegs) (ops : List HitOp) :
    ∃ hit, edgxPsfpHitInit regs = .ok hit ∧
      ((∀ r ∈ hit.written, r.Ordered) ↔ ¬(regs.high ≤ 1 ∧ 2 ≤ regs.low)) ∧
      Guarded HitOp.step HitOp.Ok hit ops := by
  obtain ⟨hit, hinit, hi, hw⟩ := hitInit_eq regs
  refine ⟨hit, hinit, hw, Guarded.iff_forall.2 fun pre op suf _ => ?_⟩
  exact (step_ok (inv_after pre hi fun s a hs => (step_ok hs a).1) op).2

end TsnSwitch.Psfp
