/-
The PSFP stream filters (edge_psfp.c): filters for a stream handle and a
priority, each of them possibly a wildcard, and the hardware row and frame
counters of each pair of a stream and a priority.

Red-black trees are ordered maps here: `fltRoot` has the filters by index,
`strRoot` has for each (handle, priority) the indices of its filters in
order. A sub entry is a field of its filter entry, so a pointer to one is the
filter's index.

The hardware counts frames on its own. Every call is atomic with respect to
that, as the driver assumes.
-/
import TsnSwitch.Errno

namespace TsnSwitch.Psfp

def EDGX_BR_NUM_PCP : Nat := 8
def PSFP_MAX_NO_STREAMS : Nat := 1024
def PSFP_MAX_NO_FILTERS : Nat := PSFP_MAX_NO_STREAMS * EDGX_BR_NUM_PCP

def PSFP_WC_STR_HDL : Int := -1
def PSFP_WC_PCP : Int := -1
def PSFP_FMTR_NONE : Int := -1

def PSFP_FRAME_SZ_OVERHEAD : BitVec 32 := 12
def PSFP_MAX_FRAME_SZ : BitVec 32 := 1518

/-- `struct psfp_limits`. -/
structure Limits where
  maxStrCnt : Nat
  maxGateCnt : Nat
  maxFmtrCnt : Nat
  resFmtrCnt : Nat
  str_le : maxStrCnt ≤ PSFP_MAX_NO_STREAMS

def Limits.maxFltCnt (lim : Limits) : Nat := lim.maxStrCnt * EDGX_BR_NUM_PCP

/-- `struct psfp_flt_data`. -/
structure FltData where
  gate : Nat
  maxSdu : BitVec 32
  fmtr : Int
  blkOverszEna : Bool
  blkOversz : Bool
  deriving DecidableEq

def psfpFltDataDefault : FltData := ⟨2 ^ 32 - 1, 1506, PSFP_FMTR_NONE, false, false⟩

/-- `struct psfp_flt_sysfs_entry`. -/
structure FltDef where
  strHdl : Int
  pcp : Int
  data : FltData
  deriving DecidableEq

/-- The counters the hardware provides. -/
inductive Raw where
  | matchingFrames
  | passingFrames
  | passingSdu
  | redFrames
  deriving DecidableEq

/-- `enum psfp_cnt_type`. -/
inductive CntType where
  | raw (r : Raw)
  | notPassingFrames
  | notPassingSdu
  deriving DecidableEq

/-- `struct psfp_flt_cnt`. -/
abbrev Cnt := Raw → BitVec 32

/-- `struct psfp_flt_entry` with its definition. While the filter is not
effective `cntRef` is its count, and while it is, the hardware counter less
its count. -/
structure FltEntry extends FltDef where
  cntRef : Cnt := fun _ => 0

/-- A stream and a priority, both concrete. -/
abbrev Cell := Nat × Nat

/-- A row of the filter table: its three words. -/
structure FltRow where
  table0 : BitVec 16
  table1 : BitVec 16
  table2 : BitVec 16
  deriving DecidableEq

/-- `struct psfp_flt` and the hardware behind it. -/
structure Flt where
  fltRoot : Nat → Option FltEntry := fun _ => none
  strRoot : Int × Int → Option (List Nat) := fun _ => none
  curSub : Cell → Option Nat := fun _ => none
  rows : Cell → FltRow
  cnts : Cell → Cnt

def isWc (strHdl pcp : Int) : Bool := strHdl == PSFP_WC_STR_HDL || pcp == PSFP_WC_PCP

/-- `edgx_psfp_flt_str_is_wc` of a filter's stream entry. -/
def Flt.isWc (flt : Flt) (f : Nat) : Bool :=
  match flt.fltRoot f with
  | some e => Psfp.isWc e.strHdl e.pcp
  | none => false

def edgxPsfpFltFirstSub (flt : Flt) (strHdl pcp : Int) : Option Nat := (flt.strRoot (strHdl, pcp)).bind List.head?

/-- The candidate with the lowest filter index. -/
def edgxPsfpFltStrFindEffSub (cand : List (Option Nat)) : Option Nat :=
  cand.foldl (fun eff c =>
    match c, eff with
    | none, eff => eff
    | some f, none => some f
    | some f, some e => if e > f then some f else some e) none

def edgxPsfpFltCheck (lim : Limits) (d : FltDef) : Int :=
  if ¬ (d.strHdl = PSFP_WC_STR_HDL ∨ 0 ≤ d.strHdl ∧ d.strHdl < lim.maxStrCnt) then -EINVAL
  else if ¬ (d.pcp = PSFP_WC_PCP ∨ 0 ≤ d.pcp ∧ d.pcp < EDGX_BR_NUM_PCP) then -EINVAL
  else if ¬ d.data.gate < lim.maxGateCnt then -EINVAL
  else if ¬ (d.data.fmtr = PSFP_FMTR_NONE ∨ 0 ≤ d.data.fmtr ∧ d.data.fmtr < lim.maxFmtrCnt) then -EINVAL
  else 0

/-! ## Hardware rows and counters -/

/-- `FIELD_PREP` with `GENMASK(hi, lo)`. -/
def fieldPrep (hi lo : Nat) (v : Nat) : BitVec 16 := BitVec.ofNat 16 (v % 2 ^ (hi - lo + 1)) <<< lo

/-- The words of a row for a filter, or for none. -/
def fltRow (lim : Limits) : Option FltData → FltRow
  | none => ⟨fieldPrep 10 0 PSFP_MAX_FRAME_SZ.toNat, 0, 0⟩
  | some fltd =>
    let maxFrameSz := fltd.maxSdu + PSFP_FRAME_SZ_OVERHEAD
    let fmtr := if fltd.fmtr ≠ PSFP_FMTR_NONE then (fltd.fmtr + lim.resFmtrCnt).toNat else 0
    ⟨fieldPrep 10 0 (min maxFrameSz.toNat PSFP_MAX_FRAME_SZ.toNat) ||| fieldPrep 14 14 fltd.blkOversz.toNat |||
        fieldPrep 15 15 fltd.blkOverszEna.toNat,
      fieldPrep 11 0 fmtr ||| fieldPrep 15 15 (decide (fltd.fmtr ≠ PSFP_FMTR_NONE)).toNat,
      fieldPrep 3 0 fltd.gate ||| fieldPrep 7 7 1⟩

/-- The row that `FILTER_ROW` and `FILTER_PCP` of a command select. -/
def filterCmd (c : Cell) : Cell := (c.1 % 2 ^ 10, c.2 % 2 ^ 3)

/-- The counters that `CNT_CAPT5_STREAM` and `CNT_CAPT5_PRIO` select. -/
def captCmd (c : Cell) : Cell := (c.1 % 2 ^ 12, c.2 % 2 ^ 3)

def edgxPsfpFltWriteHw (lim : Limits) (flt : Flt) (c : Cell) (fltd : Option FltData) : Flt :=
  { flt with rows := Function.update flt.rows (filterCmd c) (fltRow lim fltd) }

def edgxPsfpFltStrGetCntHw (flt : Flt) (c : Cell) : Cnt := flt.cnts (captCmd c)

def edgxPsfpFltUpdateCntRef (flt : Flt) (sube : Option Nat) (cur : Cnt) : Flt :=
  match sube with
  | none => flt
  | some f =>
    { flt with fltRoot := Function.update flt.fltRoot f ((flt.fltRoot f).map fun e =>
        { e with cntRef := fun r => cur r - e.cntRef r }) }

def edgxPsfpFltGetUserCnt (cur ref : Cnt) : CntType → BitVec 32
  | .raw r => cur r - ref r
  | .notPassingFrames =>
    cur .matchingFrames - ref .matchingFrames - cur .passingFrames + ref .passingFrames
  | .notPassingSdu => cur .matchingFrames - ref .matchingFrames - cur .passingSdu + ref .passingSdu

/-! ## Updates of a range of cells -/

/-- `struct psfp_flt_iter`, less the candidates. -/
structure Iter where
  strHdl : Int
  pcp : Int
  trigger : Option Nat

/-- The node of the filter's sub entry is linked into its tree. -/
def Flt.linked (flt : Flt) (f : Nat) : Bool :=
  match flt.fltRoot f with
  | some e => decide (f ∈ (flt.strRoot (e.strHdl, e.pcp)).getD [])
  | none => false

def edgxPsfpFltGetCand (flt : Flt) (it : Iter) (strHdl pcp : Int) : Option Nat :=
  match it.trigger with
  | some f => if flt.linked f then some f else edgxPsfpFltFirstSub flt strHdl pcp
  | none => edgxPsfpFltFirstSub flt strHdl pcp

def edgxPsfpFltUpdCnt (it : Iter) (flt : Flt) (c : Cell) (eff : Option Nat) : Flt :=
  let cur := flt.curSub c
  if eff = cur then flt
  else
    -- wildcard filters have no counters
    let updateEff := eff.any fun f => !flt.isWc f
    let updateCur := it.trigger == eff && cur.any fun f => !flt.isWc f
    if !updateEff && !updateCur then flt
    else
      let cntCur := edgxPsfpFltStrGetCntHw flt c
      let flt := if updateEff then edgxPsfpFltUpdateCntRef flt eff cntCur else flt
      if updateCur then edgxPsfpFltUpdateCntRef flt cur cntCur else flt

/-- `edgx_psfp_flt_upd_hw_iter` never fails. -/
def edgxPsfpFltUpdHwIter (lim : Limits) (it : Iter) (flt : Flt) (c : Cell) (eff : Option Nat) : Flt :=
  let flt := edgxPsfpFltWriteHw lim flt c ((eff.bind flt.fltRoot).map fun e => e.data)
  let flt := if it.trigger.isSome then edgxPsfpFltUpdCnt it flt c eff else flt
  { flt with curSub := Function.update flt.curSub c eff }

section ForEach

variable (lim : Limits) (it : Iter)

/-- One cell, with its candidates. -/
def forEachOne (flt : Flt) (c : Cell) (cand : List (Option Nat)) : Flt :=
  edgxPsfpFltUpdHwIter lim it flt c (edgxPsfpFltStrFindEffSub cand)

def edgxPsfpFltForEachOne (flt : Flt) : Flt :=
  forEachOne lim it flt (it.strHdl.toNat, it.pcp.toNat)
    [edgxPsfpFltGetCand flt it it.strHdl it.pcp, edgxPsfpFltFirstSub flt it.strHdl PSFP_WC_PCP,
      edgxPsfpFltFirstSub flt PSFP_WC_STR_HDL it.pcp, edgxPsfpFltFirstSub flt PSFP_WC_STR_HDL PSFP_WC_PCP]

def edgxPsfpFltForEachWc (flt : Flt) : Flt :=
  let wc := edgxPsfpFltGetCand flt it PSFP_WC_STR_HDL PSFP_WC_PCP
  let wcStr := fun pcp : Nat => edgxPsfpFltFirstSub flt PSFP_WC_STR_HDL pcp
  (List.range lim.maxStrCnt).foldl (fun flt (strHdl : Nat) =>
    let wcPcp := edgxPsfpFltFirstSub flt strHdl PSFP_WC_PCP
    (List.range EDGX_BR_NUM_PCP).foldl (fun flt (pcp : Nat) =>
      forEachOne lim it flt (strHdl, pcp) [edgxPsfpFltFirstSub flt strHdl pcp, wcStr pcp, wcPcp, wc]) flt) flt

def edgxPsfpFltForEachWcPcp (flt : Flt) : Flt :=
  let wcPcp := edgxPsfpFltGetCand flt it it.strHdl PSFP_WC_PCP
  let wc := edgxPsfpFltFirstSub flt PSFP_WC_STR_HDL PSFP_WC_PCP
  (List.range EDGX_BR_NUM_PCP).foldl (fun flt (pcp : Nat) =>
    forEachOne lim it flt (it.strHdl.toNat, pcp)
      [edgxPsfpFltFirstSub flt it.strHdl pcp, edgxPsfpFltFirstSub flt PSFP_WC_STR_HDL pcp, wcPcp, wc]) flt

def edgxPsfpFltForEachWcStrHdl (flt : Flt) : Flt :=
  let wcStr := edgxPsfpFltGetCand flt it PSFP_WC_STR_HDL it.pcp
  let wc := edgxPsfpFltFirstSub flt PSFP_WC_STR_HDL PSFP_WC_PCP
  (List.range lim.maxStrCnt).foldl (fun flt (strHdl : Nat) =>
    forEachOne lim it flt (strHdl, it.pcp.toNat)
      [edgxPsfpFltFirstSub flt strHdl it.pcp, wcStr, edgxPsfpFltFirstSub flt strHdl PSFP_WC_PCP, wc]) flt

def edgxPsfpFltForEach (flt : Flt) : Flt :=
  if it.strHdl = PSFP_WC_STR_HDL ∧ it.pcp = PSFP_WC_PCP then edgxPsfpFltForEachWc lim it flt
  else if it.strHdl ≠ PSFP_WC_STR_HDL ∧ it.pcp = PSFP_WC_PCP then edgxPsfpFltForEachWcPcp lim it flt
  else if it.strHdl = PSFP_WC_STR_HDL ∧ it.pcp ≠ PSFP_WC_PCP then edgxPsfpFltForEachWcStrHdl lim it flt
  else edgxPsfpFltForEachOne lim it flt

end ForEach

/-- Update the cells a filter covers, or all cells. -/
def edgxPsfpFltUpdHw (lim : Limits) (flt : Flt) (sube : Option Nat) : Flt :=
  let it : Iter :=
    match sube.bind flt.fltRoot with
    | some e => ⟨e.strHdl, e.pcp, sube⟩
    | none => ⟨PSFP_WC_STR_HDL, PSFP_WC_PCP, sube⟩
  edgxPsfpFltForEach lim it flt

/-! ## Calls -/

/-- `allocFlte` and `allocStre` are whether the allocations succeed. -/
def edgxPsfpFltAdd (lim : Limits) (flt : Flt) (filter : Nat) (d : FltDef) (allocFlte allocStre : Bool) : Int × Flt :=
  if !allocFlte then (-ENOMEM, flt)
  else
    let stre := flt.strRoot (d.strHdl, d.pcp)
    if stre.isNone && !allocStre then (-ENOMEM, flt)
    else
      let subs := stre.getD []
      -- what was inserted is erased again
      if filter ∈ subs then (-EINVAL, flt)
      else if (flt.fltRoot filter).isSome then (-EINVAL, flt)
      else
        let subs := subs.orderedInsert (· ≤ ·) filter
        let flt :=
          { flt with strRoot := Function.update flt.strRoot (d.strHdl, d.pcp) (some subs)
                     fltRoot := Function.update flt.fltRoot filter (some { d with }) }
        if subs.head? = some filter then (0, edgxPsfpFltUpdHw lim flt (some filter)) else (0, flt)

/-- Returns 0 where the driver returns the number of bytes written. -/
def fltTblWrite (lim : Limits) (flt : Flt) (idx : Nat) (d : FltDef) (allocFlte allocStre : Bool) : Int × Flt :=
  if idx ≥ PSFP_MAX_NO_FILTERS then (-EINVAL, flt)
  else if edgxPsfpFltCheck lim d ≠ 0 then (-EINVAL, flt)
  else if (flt.fltRoot idx).isSome then (-EEXIST, flt)
  else edgxPsfpFltAdd lim flt idx d allocFlte allocStre

def fltDelStore (lim : Limits) (flt : Flt) (filter : Nat) : Int × Flt :=
  match flt.fltRoot filter with
  | none => (-ENOENT, flt)
  | some e =>
    let subs := (flt.strRoot (e.strHdl, e.pcp)).getD []
    let wasFirst := decide (subs.head? = some filter)
    let subs := subs.erase filter
    let flt := { flt with strRoot := Function.update flt.strRoot (e.strHdl, e.pcp)
                            (if subs.isEmpty then none else some subs) }
    let flt := if wasFirst then edgxPsfpFltUpdHw lim flt (some filter) else flt
    (0, { flt with fltRoot := Function.update flt.fltRoot filter none })

def edgxPsfpFltGetCnt (flt : Flt) (filter : Nat) (t : CntType) : Int × BitVec 32 :=
  match flt.fltRoot filter with
  | none => (-ENOENT, 0)
  | some e =>
    if isWc e.strHdl e.pcp then (0, 0)
    else
      let c : Cell := (e.strHdl.toNat, e.pcp.toNat)
      if flt.curSub c ≠ some filter then (0, edgxPsfpFltGetUserCnt e.cntRef (fun _ => 0) t)
      else (0, edgxPsfpFltGetUserCnt (edgxPsfpFltStrGetCntHw flt c) e.cntRef t)

def fltStrCntRead (lim : Limits) (flt : Flt) (idx : Nat) (t : CntType) : Int × BitVec 32 :=
  if idx ≥ PSFP_MAX_NO_FILTERS then (-EINVAL, 0)
  else if idx ≥ lim.maxFltCnt then (-EINVAL, 0)
  else edgxPsfpFltGetCnt flt idx t

/-- After the probe. What rows and counters hold before is arbitrary. -/
def edgxPsfpFltInit (lim : Limits) (rows : Cell → FltRow) (cnts : Cell → Cnt) : Flt :=
  edgxPsfpFltUpdHw lim { rows, cnts } none

/-! ## Frames -/

/-- A frame the hardware counts, and how it fared. -/
structure Frame where
  passing : Bool
  passingSdu : Bool
  red : Bool
  deriving DecidableEq

/-- The counters a frame adds to. -/
def Frame.counts (fr : Frame) : CntType → Bool
  | .raw .matchingFrames => true
  | .raw .passingFrames => fr.passing
  | .raw .passingSdu => fr.passingSdu
  | .raw .redFrames => fr.red
  | .notPassingFrames => !fr.passing
  | .notPassingSdu => !fr.passingSdu

def Flt.frame (flt : Flt) (c : Cell) (fr : Frame) : Flt :=
  { flt with cnts := Function.update flt.cnts c fun r =>
      flt.cnts c r + if fr.counts (.raw r) then 1 else 0 }

/-! ## Runs -/

inductive Op where
  | write (idx : Nat) (d : FltDef) (allocFlte allocStre : Bool)
  | del (filter : Nat)
  | cntRead (idx : Nat) (t : CntType)
  | frame (c : Cell) (fr : Frame)

/-- A call, or a frame. Returns the code and, for a read, the count. -/
def step (lim : Limits) (flt : Flt) : Op → (Int × BitVec 32) × Flt
  | .write idx d allocFlte allocStre =>
    let (ret, flt) := fltTblWrite lim flt idx d allocFlte allocStre
    ((ret, 0), flt)
  | .del filter =>
    let (ret, flt) := fltDelStore lim flt filter
    ((ret, 0), flt)
  | .cntRead idx t => (fltStrCntRead lim flt idx t, flt)
  | .frame c fr => ((0, 0), flt.frame c fr)

end TsnSwitch.Psfp
