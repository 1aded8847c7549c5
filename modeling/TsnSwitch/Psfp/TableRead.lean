/-
What the filter table reads back: `flt_tbl_read` of edge_psfp.c.

The parameters of a filter come from the driver's entry, whichever filter has
its row. The blocked state of a filter without wildcards comes from the row of
its stream and priority, and the function does not ask whose row that is: with a
wildcard filter of a lower index there it is the other one's (`readsBack_iff`).

The hardware blocks rows on its own, which is a step of the runs here.
-/
import TsnSwitch.Psfp.RowWords
import TsnSwitch.Psfp.Counters

namespace TsnSwitch.Psfp

open Lib

/-! ## The function -/

/-- Returns 0 where the driver returns the number of bytes read. -/
def fltTblRead (lim : Limits) (flt : Flt) (idx : Nat) : Int × Option FltDef :=
  if idx ≥ PSFP_MAX_NO_FILTERS then (-EINVAL, none)
  else
    match flt.fltRoot idx with
    | none => (-ENOENT, none)
    | some e =>
      if !isWc e.strHdl e.pcp then
        let fltd := edgxPsfpFltReadHw lim flt (e.strHdl.toNat, e.pcp.toNat)
        (0, some { e.toFltDef with data := { e.data with blkOversz := fltd.blkOversz } })
      else (0, some e.toFltDef)

/-! ## Runs in which rows are blocked -/

/-- The hardware blocks the row of a cell, after a frame that is too long. -/
def Flt.block (flt : Flt) (c : Cell) : Flt :=
  { flt with rows := Function.update flt.rows c { flt.rows c with table0 := (flt.rows c).table0 ||| 0x4000 } }

inductive HwOp where
  | op (op : Op)
  | block (c : Cell)

def hwStep (lim : Limits) (flt : Flt) : HwOp → (Int × BitVec 32) × Flt
  | .op op => step lim flt op
  | .block c => ((0, 0), flt.block c)

def Config.hwApply (cfg : Config) : HwOp × (Int × BitVec 32) → Config
  | (.op op, out) => cfg.apply (op, out)
  | (.block _, _) => cfg

/-- The filters configured by the calls of a run, as their results tell. -/
def hwConfigured (lim : Limits) (rows : Cell → FltRow) (cnts : Cell → Cnt) (ops : List HwOp) : Config :=
  (outs (hwStep lim) (edgxPsfpFltInit lim rows cnts) ops).foldl Config.hwApply fun _ => none

/-- The driver and its rows after a run. -/
def hwAfter (lim : Limits) (rows : Cell → FltRow) (cnts : Cell → Cnt) (ops : List HwOp) : Flt :=
  after (hwStep lim) (edgxPsfpFltInit lim rows cnts) ops

/-! ## What is asked -/

/-- Filter `f` is read with the parameters of `d`, and as blocked if it was
created so or if a row says so whose filter it is. -/
structure ReadsBack (lim : Limits) (cfg : Config) (flt : Flt) (f : Nat) (d : FltDef) : Prop where
  parameters : ∃ blkOversz, fltTblRead lim flt f = (0, some { d with data := { d.data with blkOversz } })
  blocked : ∀ d', (fltTblRead lim flt f).2 = some d' → d'.data.blkOversz = d.data.blkOversz ∨
    ∃ c, InRange lim c ∧ cfg.Effective c f ∧ d'.data.blkOversz = (flt.rows c).blkOversz

/-! ## The filters of a run -/

section Runs

variable {lim : Limits} {flt : Flt}

theorem idx_of_write {idx : Nat} {d : FltDef} {allocFlte allocStre : Bool}
    (h : (fltTblWrite lim flt idx d allocFlte allocStre).1 = 0) : idx < PSFP_MAX_NO_FILTERS := by
  by_contra hidx
  rw [fltTblWrite, if_pos (Nat.le_of_not_lt hidx)] at h
  exact absurd h (by decide : -EINVAL ≠ 0)

/-- What a run keeps: the trees hold the configured filters, and those are
inside the table. -/
structure Stored (lim : Limits) (flt : Flt) (cfg : Config) : Prop where
  keys : KeyInv lim flt
  defs : flt.defs = cfg
  lt : ∀ f d, cfg f = some d → f < PSFP_MAX_NO_FILTERS

theorem Stored.step {cfg : Config} (h : Stored lim flt cfg) (op : Op) :
    Stored lim (step lim flt op).2 (cfg.apply (op, (step lim flt op).1)) := by
  obtain ⟨hkeys, rfl, hlt⟩ := h
  cases op with
  | write idx d allocFlte allocStre =>
    rcases write_cases lim flt idx d allocFlte allocStre hkeys.indexed with ⟨hne, heq⟩ | ⟨h0, hchk, hf, heq⟩ <;>
      simp only [Psfp.step, Config.apply, heq]
    · rw [if_neg hne]
      exact ⟨hkeys, rfl, hlt⟩
    · rw [if_pos h0]
      obtain ⟨hadd, hdefs⟩ := hkeys.add (valid_of_check hchk) hf
      refine ⟨hadd, hdefs, fun g e hg => ?_⟩
      by_cases hgi : g = idx
      · rw [hgi]
        exact idx_of_write h0
      · rw [Function.update_of_ne hgi] at hg
        exact hlt g e hg
  | del f =>
    rcases del_cases lim flt f with ⟨hne, heq⟩ | ⟨h0, d, hd, heq⟩ <;> simp only [Psfp.step, Config.apply, heq]
    · rw [if_neg hne]
      exact ⟨hkeys, rfl, hlt⟩
    · rw [if_pos h0]
      obtain ⟨hdel, hdefs⟩ := hkeys.del hd
      refine ⟨hdel, hdefs, fun g e hg => ?_⟩
      by_cases hgf : g = f
      · rw [hgf, Function.update_self] at hg
        cases hg
      · rw [Function.update_of_ne hgf] at hg
        exact hlt g e hg
  | cntRead idx t => exact ⟨hkeys, rfl, hlt⟩
  | frame c fr => exact ⟨⟨hkeys.indexed, hkeys.valid⟩, rfl, hlt⟩

theorem stored_after (lim : Limits) (rows : Cell → FltRow) (cnts : Cell → Cnt) (ops : List HwOp) :
    Stored lim (hwAfter lim rows cnts ops) (hwConfigured lim rows cnts ops) := by
  obtain ⟨hr, hdefs⟩ := RowInv.init lim rows cnts
  have h0 : Stored lim (edgxPsfpFltInit lim rows cnts) fun _ => none :=
    ⟨⟨hr.indexed, hr.valid⟩, hdefs, fun f d hd => nomatch hd⟩
  refine (Guarded.trivial ops).sim_after (R := Stored lim) h0 fun flt cfg op h _ => ?_
  cases op with
  | op op => exact h.step op
  | block c => exact ⟨⟨h.keys.indexed, h.keys.valid⟩, h.defs, h.lt⟩

/-- What is read of a configured filter. -/
theorem Stored.read {cfg : Config} (h : Stored lim flt cfg) {f : Nat} {d : FltDef} (hd : cfg f = some d) :
    fltTblRead lim flt f = (0, some { d with data := { d.data with
      blkOversz := if d.isWc then d.data.blkOversz else (flt.rows d.cell).blkOversz } }) := by
  obtain ⟨hkeys, rfl, hlt⟩ := h
  obtain ⟨e, he, rfl⟩ : ∃ e, flt.fltRoot f = some e ∧ e.toFltDef = d := by
    simpa [Flt.defs] using hd
  unfold fltTblRead
  rw [if_neg (Nat.not_le.2 (hlt f _ hd)), he]
  dsimp only
  by_cases hwc : e.isWc = true
  · rw [if_neg (by simpa [FltDef.isWc] using hwc), if_pos hwc]
  · have hwc' : e.isWc = false := by simpa using hwc
    have hcell := filterCmd_eq (cell_spec hwc' (hkeys.valid f _ hd)).1
    rw [if_pos (by simpa [FltDef.isWc] using hwc'), if_neg hwc, edgxPsfpFltReadHw,
      show filterCmd (e.strHdl.toNat, e.pcp.toNat) = e.cell from hcell]

end Runs

/-! ## Reading back -/

/-- **A filter is read as it was created**, after every run, just when it has a
wildcard, or owns its row, or its row is as blocked as it was created. The
parameters always are. -/
theorem readsBack_iff (lim : Limits) (rows : Cell → FltRow) (cnts : Cell → Cnt) (ops : List HwOp) {f : Nat} {d : FltDef}
    (hd : hwConfigured lim rows cnts ops f = some d) :
    ReadsBack lim (hwConfigured lim rows cnts ops) (hwAfter lim rows cnts ops) f d ↔
      d.isWc = true ∨ (hwConfigured lim rows cnts ops).Effective d.cell f ∨
        ((hwAfter lim rows cnts ops).rows d.cell).blkOversz = d.data.blkOversz := by
  have hstored := stored_after lim rows cnts ops
  have hread := hstored.read hd
  have hvalid : d.Valid lim := hstored.keys.valid f d (by rw [hstored.defs]; exact hd)
  constructor
  · intro h
    by_cases hwc : d.isWc = true
    · exact .inl hwc
    · have hwc' : d.isWc = false := by simpa using hwc
      have hblocked := h.blocked _ (congrArg Prod.snd hread)
      simp only [if_neg hwc] at hblocked
      rcases hblocked with hsame | ⟨c, hc, heff, hrow⟩
      · exact .inr (.inr hsame)
      · obtain ⟨e, he, hm⟩ := heff.1
        obtain rfl : d = e := Option.some.inj (hd.symm.trans he)
        rw [← eq_cell hwc' hm]
        exact .inr (.inl heff)
  · intro h
    refine ⟨⟨_, hread⟩, fun d' hd' => ?_⟩
    rw [hread] at hd'
    obtain rfl := Option.some.inj hd'
    by_cases hwc : d.isWc = true
    · exact .inl (by simp only [if_pos hwc])
    · have hwc' : d.isWc = false := by simpa using hwc
      simp only [if_neg hwc]
      rcases h.resolve_left hwc with heff | hsame
      · exact .inr ⟨d.cell, (cell_spec hwc' hvalid).1, heff, rfl⟩
      · exact .inl hsame

/-- Three streams, two filters and one flow meter. -/
def threeStreams : Limits := ⟨3, 2, 1, 0, by decide⟩

/-- A filter of its own row, which is blocked. -/
theorem readsBack_iff_blocked :
    let d : FltDef := ⟨1, 3, ⟨0, 1506, PSFP_FMTR_NONE, true, false⟩⟩
    let ops : List HwOp := [.op (.write 0 d true true), .block (1, 3)]
    ReadsBack threeStreams (hwConfigured threeStreams (fun _ => ⟨0, 0, 0⟩) (fun _ _ => 0) ops)
      (hwAfter threeStreams (fun _ => ⟨0, 0, 0⟩) (fun _ _ => 0) ops) 0 d := by
  intro d ops
  have hcfg : hwConfigured threeStreams (fun _ => ⟨0, 0, 0⟩) (fun _ _ => 0) ops 0 = some d := by decide
  refine (readsBack_iff _ _ _ ops hcfg).2 (.inr (.inl ⟨⟨d, hcfg, .inr rfl, .inr rfl⟩, fun g _ => Nat.zero_le g⟩))

/-- Any stream's filter of a lower index is blocked for stream 1, and the filter of
stream 1 is read as blocked. -/
theorem not_readsBack_shared :
    let any : FltDef := ⟨PSFP_WC_STR_HDL, 3, ⟨0, 1506, PSFP_FMTR_NONE, true, false⟩⟩
    let own : FltDef := ⟨1, 3, ⟨1, 800, PSFP_FMTR_NONE, false, false⟩⟩
    let ops : List HwOp := [.op (.write 0 any true true), .op (.write 1 own true true), .block (1, 3)]
    hwConfigured threeStreams (fun _ => ⟨0, 0, 0⟩) (fun _ _ => 0) ops 1 = some own ∧
      ¬ ReadsBack threeStreams (hwConfigured threeStreams (fun _ => ⟨0, 0, 0⟩) (fun _ _ => 0) ops)
        (hwAfter threeStreams (fun _ => ⟨0, 0, 0⟩) (fun _ _ => 0) ops) 1 own := by
  intro any own ops
  have hany : hwConfigured threeStreams (fun _ => ⟨0, 0, 0⟩) (fun _ _ => 0) ops 0 = some any := by decide
  have hown : hwConfigured threeStreams (fun _ => ⟨0, 0, 0⟩) (fun _ _ => 0) ops 1 = some own := by decide
  have hread : fltTblRead threeStreams (hwAfter threeStreams (fun _ => ⟨0, 0, 0⟩) (fun _ _ => 0) ops) 1 =
      (0, some { own with data := { own.data with blkOversz := true } }) := by decide
  refine ⟨hown, fun h => ?_⟩
  rcases h.blocked _ (congrArg Prod.snd hread) with hsame | ⟨c, hc, heff, -⟩
  · exact absurd hsame (by decide)
  · obtain ⟨e, he, hm⟩ := heff.1
    obtain rfl : own = e := Option.some.inj (hown.symm.trans he)
    -- what matches the filter of stream 1 matches the lower one too
    have hle := heff.2 ⟨any, hany, .inl rfl, hm.2⟩
    exact absurd hle (by decide)

end TsnSwitch.Psfp
