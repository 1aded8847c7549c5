/-
The words of a filter's row as they are programmed, and what is read back from
them.

The maximum SDU size of a filter is any number of 32 bits, which no check looks
at. The length of the header is added in 32 bits before the sum is cut to what
the hardware supports, so the highest sizes become the lowest limits
(`frameSizeOk_iff`).
-/
import TsnSwitch.Psfp.Rows

namespace TsnSwitch.Psfp

open Lib

/-! ## Fields -/

/-- `FIELD_GET` with `GENMASK(hi, lo)`. -/
def fieldGet (hi lo : Nat) (reg : BitVec 16) : Nat := reg.toNat / 2 ^ lo % 2 ^ (hi - lo + 1)

def FltRow.maxFrameSz (row : FltRow) : Nat := fieldGet 10 0 row.table0

def FltRow.blkOversz (row : FltRow) : Bool := fieldGet 14 14 row.table0 ≠ 0

def FltRow.blkOverszEna (row : FltRow) : Bool := fieldGet 15 15 row.table0 ≠ 0

/-- The filter as its row has it. A filter without a gate or a flow meter has
those at zero. -/
def edgxPsfpFltReadHw (lim : Limits) (flt : Flt) (c : Cell) : FltData :=
  let row := flt.rows (filterCmd c)
  { gate := if fieldGet 7 7 row.table2 ≠ 0 then fieldGet 3 0 row.table2 else 0
    maxSdu := BitVec.ofNat 32 row.maxFrameSz - PSFP_FRAME_SZ_OVERHEAD
    fmtr := if fieldGet 15 15 row.table1 ≠ 0 then (fieldGet 11 0 row.table1 : Int) - lim.resFmtrCnt else 0
    blkOversz := row.blkOversz
    blkOverszEna := row.blkOverszEna }

theorem fieldPrep_toNat {hi lo v : Nat} (h : hi < 16) (hle : lo ≤ hi) :
    (fieldPrep hi lo v).toNat = v % 2 ^ (hi - lo + 1) * 2 ^ lo := by
  have hv : v % 2 ^ (hi - lo + 1) < 2 ^ (hi - lo + 1) := Nat.mod_lt _ (Nat.two_pow_pos _)
  have hwide : v % 2 ^ (hi - lo + 1) < 2 ^ 16 := hv.trans_le (Nat.pow_le_pow_right (by decide) (by omega))
  have hshift : v % 2 ^ (hi - lo + 1) * 2 ^ lo < 2 ^ 16 := by
    calc v % 2 ^ (hi - lo + 1) * 2 ^ lo < 2 ^ (hi - lo + 1) * 2 ^ lo := Nat.mul_lt_mul_of_pos_right hv (Nat.two_pow_pos _)
      _ = 2 ^ (hi + 1) := by rw [← Nat.pow_add]; congr 1; omega
      _ ≤ 2 ^ 16 := Nat.pow_le_pow_right (by decide) (by omega)
  rw [fieldPrep, BitVec.toNat_shiftLeft, BitVec.toNat_ofNat, Nat.mod_eq_of_lt hwide, Nat.shiftLeft_eq,
    Nat.mod_eq_of_lt hshift]

/-- A field of a word is the field of each of its parts. -/
theorem fieldGet_or (hi lo : Nat) (a b : BitVec 16) : fieldGet hi lo (a ||| b) = fieldGet hi lo a ||| fieldGet hi lo b := by
  rw [fieldGet, BitVec.toNat_or, Nat.or_div_two_pow, Nat.or_mod_two_pow]
  rfl

/-- The three fields of the first word. -/
theorem table0_fields (size : Nat) (blk ena : Bool) :
    let word := fieldPrep 10 0 size ||| fieldPrep 14 14 blk.toNat ||| fieldPrep 15 15 ena.toNat
    fieldGet 10 0 word = size % 2 ^ 11 ∧ fieldGet 14 14 word = blk.toNat ∧ fieldGet 15 15 word = ena.toNat := by
  have hsize : (fieldPrep 10 0 size).toNat = size % 2 ^ 11 := by
    rw [fieldPrep_toNat (by decide) (by decide)]
    exact Nat.mul_one _
  have hlt : size % 2 ^ 11 < 2 ^ 11 := Nat.mod_lt _ (Nat.two_pow_pos _)
  have hget : fieldGet 10 0 (fieldPrep 10 0 size) = size % 2 ^ 11 ∧ fieldGet 14 14 (fieldPrep 10 0 size) = 0 ∧
      fieldGet 15 15 (fieldPrep 10 0 size) = 0 := by
    unfold fieldGet
    rw [hsize]
    omega
  obtain ⟨hget10, hget14, hget15⟩ := hget
  intro word
  simp only [word, fieldGet_or, hget10, hget14, hget15]
  cases blk <;> cases ena <;> simp [fieldGet, fieldPrep]

/-! ## The maximum frame size -/

/-- The limit that is programmed for a filter. -/
def hwFrameSz (lim : Limits) (d : FltDef) : Nat := (fltRow lim (some d.data)).maxFrameSz

/-- The limit of a filter is its size with the header, as far as the hardware
supports it. No filter with a smaller size has a larger limit, and no frame that
conforms to the filter is above it. -/
structure FrameSizeOk (lim : Limits) (d : FltDef) : Prop where
  written : ∀ (flt : Flt) (c : Cell),
    ((edgxPsfpFltWriteHw lim flt c (some d.data)).rows (filterCmd c)).maxFrameSz =
      min (d.data.maxSdu.toNat + PSFP_FRAME_SZ_OVERHEAD.toNat) PSFP_MAX_FRAME_SZ.toNat
  monotone : ∀ d', edgxPsfpFltCheck lim d' = 0 → d'.data.maxSdu ≤ d.data.maxSdu → hwFrameSz lim d' ≤ hwFrameSz lim d
  conforming : ∀ sdu ≤ d.data.maxSdu.toNat, sdu + PSFP_FRAME_SZ_OVERHEAD.toNat ≤ PSFP_MAX_FRAME_SZ.toNat →
    sdu + PSFP_FRAME_SZ_OVERHEAD.toNat ≤ hwFrameSz lim d

theorem writeHw_row (lim : Limits) (flt : Flt) (c : Cell) (fltd : Option FltData) :
    (edgxPsfpFltWriteHw lim flt c fltd).rows (filterCmd c) = fltRow lim fltd := Function.update_self ..

/-- The addition has 32 bits. -/
theorem hwFrameSz_eq (lim : Limits) (d : FltDef) : hwFrameSz lim d = min ((d.data.maxSdu.toNat + 12) % 2 ^ 32) 1518 := by
  have hadd : (d.data.maxSdu + PSFP_FRAME_SZ_OVERHEAD).toNat = (d.data.maxSdu.toNat + 12) % 2 ^ 32 := BitVec.toNat_add ..
  have hmax : PSFP_MAX_FRAME_SZ.toNat = 1518 := rfl
  have hfield := (table0_fields (min (d.data.maxSdu + PSFP_FRAME_SZ_OVERHEAD).toNat PSFP_MAX_FRAME_SZ.toNat)
    d.data.blkOversz d.data.blkOverszEna).1
  rw [hadd, hmax] at hfield
  refine hfield.trans (Nat.mod_eq_of_lt ?_)
  omega

/-- Without a carry it is the sum. -/
theorem hwFrameSz_of_fits (lim : Limits) {d : FltDef} (h : d.data.maxSdu.toNat + PSFP_FRAME_SZ_OVERHEAD.toNat < 2 ^ 32) :
    hwFrameSz lim d = min (d.data.maxSdu.toNat + PSFP_FRAME_SZ_OVERHEAD.toNat) PSFP_MAX_FRAME_SZ.toNat := by
  have hoverhead : PSFP_FRAME_SZ_OVERHEAD.toNat = 12 := rfl
  rw [hoverhead] at h ⊢
  rw [hwFrameSz_eq, Nat.mod_eq_of_lt h]
  rfl

/-- No check looks at the size. -/
theorem check_maxSdu (lim : Limits) (d : FltDef) (maxSdu : BitVec 32) :
    edgxPsfpFltCheck lim { d with data := { d.data with maxSdu } } = edgxPsfpFltCheck lim d := rfl

/-- **The limit is the size with the header, up to the maximum**, just when
their sum has 32 bits. -/
theorem frameSizeOk_iff (lim : Limits) (d : FltDef) :
    FrameSizeOk lim d ↔ d.data.maxSdu.toNat + PSFP_FRAME_SZ_OVERHEAD.toNat < 2 ^ 32 := by
  have hsz := hwFrameSz_eq lim d
  have hoverhead : PSFP_FRAME_SZ_OVERHEAD.toNat = 12 := rfl
  have hmax : PSFP_MAX_FRAME_SZ.toNat = 1518 := rfl
  have hlt := d.data.maxSdu.isLt
  rw [hoverhead]
  constructor
  · intro hok
    have hwritten := hok.written ⟨fun _ => none, fun _ => none, fun _ => none, fun _ => ⟨0, 0, 0⟩, fun _ _ => 0⟩ (0, 0)
    rw [writeHw_row, hoverhead, hmax] at hwritten
    have heq := hsz.symm.trans hwritten
    omega
  · intro hfit
    refine ⟨fun flt c => ?_, fun d' _ hle => ?_, fun sdu hle hconf => ?_⟩
    · rw [writeHw_row]
      exact hwFrameSz_of_fits lim hfit
    · have hle' : d'.data.maxSdu.toNat ≤ d.data.maxSdu.toNat := hle
      rw [hsz, hwFrameSz_eq]
      omega
    · rw [hsz, hoverhead]
      omega

/-- The largest size: what is accepted limits frames to 11 bytes. -/
theorem not_frameSizeOk_max :
    let lim : Limits := ⟨1024, 16, 4095, 0, by decide⟩
    let d : FltDef := ⟨0, 0, ⟨0, 0xffffffff, PSFP_FMTR_NONE, true, false⟩⟩
    edgxPsfpFltCheck lim d = 0 ∧ hwFrameSz lim d = 11 ∧ ¬ FrameSizeOk lim d := by
  intro lim d
  refine ⟨by decide, by decide, fun hok => ?_⟩
  exact absurd (hok.conforming 0 (by decide) (by decide)) (by decide)

/-- After every run, the limit of a cell is that of its effective filter. -/
theorem rows_maxFrameSz (lim : Limits) (rows : Cell → FltRow) (cnts : Cell → Cnt) (ops : List Op) {c : Cell}
    (hc : InRange lim c) {f : Nat} {d : FltDef} (hf : (configured lim rows cnts ops).Effective c f)
    (hd : configured lim rows cnts ops f = some d)
    (hfit : d.data.maxSdu.toNat + PSFP_FRAME_SZ_OVERHEAD.toNat < 2 ^ 32) :
    ((after (step lim) (edgxPsfpFltInit lim rows cnts) ops).rows c).maxFrameSz =
      min (d.data.maxSdu.toNat + PSFP_FRAME_SZ_OVERHEAD.toNat) PSFP_MAX_FRAME_SZ.toNat := by
  obtain ⟨h, hdefs⟩ := rowInv_after lim rows cnts ops
  obtain ⟨_, hrow⟩ := h.cell c hc
  have heff : effSub (after (step lim) (edgxPsfpFltInit lim rows cnts) ops) c = some f := by
    rw [effSub_iff h.indexed, hdefs]
    exact hf
  rw [hrow, heff, hdefs, rowOf, Option.bind_some, hd]
  exact hwFrameSz_of_fits lim hfit

end TsnSwitch.Psfp
