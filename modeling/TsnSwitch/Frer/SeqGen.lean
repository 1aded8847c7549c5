/-
Sequence generation (edge_frer.c). A function generates the sequence numbers
of the streams in its list once its direction is set: table 2 of each has the
function then.

The reset of a function's sequence number is left out.
-/
import TsnSwitch.Frer.State

namespace TsnSwitch.Frer

def EdgxFrer.setGen (f : EdgxFrer) (fnidx : BitVec 16) (n : Option SeqGen) : EdgxFrer :=
  { f with sgRoot := Function.update f.sgRoot fnidx n }

def seqgenCheckDirection (dir : BitVec 8) : Int := if dir ≠ DIR_IN_FAC then -EINVAL else 0

/-- The loop of `edgx_frer_seqgen_apply`. -/
def seqgenApplyList (fnidx : BitVec 16) : List (BitVec 16) → StreamTbl → Int × StreamTbl
  | [], h => (0, h)
  | l :: ls, h =>
    let (enabled, h) := edgxFrerSeqfnEnabled h l .tbl2
    if enabled then
      let (reg, h) := edgxFrerIpRdStrtbl h l .tbl2
      if reg &&& 0xFFF ≠ fnidx then (-EBUSY, h) else seqgenApplyList fnidx ls h
    else seqgenApplyList fnidx ls (edgxFrerIpWrStrtbl h l fnidx .tbl2 false)

def edgxFrerSeqgenApply (n : SeqGen) (fnidx : BitVec 16) (h : StreamTbl) : Int × StreamTbl :=
  if n.dir = .unknown ∨ n.sgList = [] then (0, h) else seqgenApplyList fnidx n.sgList h

/-- `alloc` is whether the allocation succeeds, here and below. -/
def edgxFrerSeqgenAddstr (par : Params) (f : EdgxFrer) (str fnidx : BitVec 16) (alloc : Bool) : Int × EdgxFrer :=
  if edgxFrerCheckStrhdl par str ≠ 0 then (-EINVAL, f)
  else
    match f.sgRoot fnidx with
    | none => (-ENOENT, f)
    | some n =>
      if str ∉ n.sgList ∧ alloc = false then (-ENOMEM, f)
      else
        let n := if str ∈ n.sgList then n else { n with sgList := n.sgList ++ [str] }
        let (ret, tbl) := edgxFrerSeqgenApply n fnidx f.tbl
        let f := { f with tbl }
        if ret ≠ 0 then (-EBUSY, f.setGen fnidx (some { n with sgList := n.sgList.erase str }))
        else (0, f.setGen fnidx (some n))

def edgxFrerSeqgenAdddir (f : EdgxFrer) (dir : BitVec 8) (fnidx : BitVec 16) : Int × EdgxFrer :=
  if seqgenCheckDirection dir ≠ 0 then (-EINVAL, f)
  else
    match f.sgRoot fnidx with
    | none => (-ENOENT, f)
    | some n =>
      let n := { n with dir := .inFac }
      let (ret, tbl) := edgxFrerSeqgenApply n fnidx f.tbl
      let f := { f with tbl }
      -- the rows written before the conflict stay
      if ret ≠ 0 then (-EBUSY, f.setGen fnidx (some { n with dir := .unknown }))
      else (0, f.setGen fnidx (some n))

def edgxFrerSeqgenCreate (par : Params) (f : EdgxFrer) (fnidx : BitVec 16) (alloc : Bool) : Int × EdgxFrer :=
  if edgxFrerCheckFnidx par fnidx ≠ 0 then (-EINVAL, f)
  else if (f.sgRoot fnidx).isSome then (-EBUSY, f)
  else if alloc = false then (-ENOMEM, f)
  else (0, { f with seqgencnt := f.seqgencnt + 1 }.setGen fnidx (some {}))

/-- `_seqgen_list_del_entry`, which does not check the handle. -/
def seqgenListDelEntry (f : EdgxFrer) (str : BitVec 16) : Int × EdgxFrer :=
  let (enabled, tbl) := edgxFrerSeqfnEnabled f.tbl str .tbl2
  if enabled = false then (-EINVAL, { f with tbl })
  else
    let (reg, tbl) := edgxFrerIpRdStrtbl tbl str .tbl2
    let fn := reg &&& STRTBL_MASK
    match f.sgRoot fn with
    | none => (-EINVAL, { f with tbl })
    | some n =>
      if str ∈ n.sgList then
        (0, { f with tbl := edgxFrerIpWrStrtbl tbl str fn .tbl2 true }.setGen fn
          (some { n with sgList := n.sgList.erase str }))
      else (-EINVAL, { f with tbl })

/-- The entry of a handle is freed before the handle is read from it: `freed`
is what is read then. -/
def seqgenRbtDelEntry (f : EdgxFrer) (key : BitVec 16) (freed : BitVec 16 → BitVec 16) : Int × EdgxFrer :=
  match f.sgRoot key with
  | none => (-EINVAL, f)
  | some n =>
    let tbl := n.sgList.foldl (fun h l => edgxFrerIpWrStrtbl h (freed l) 0 .tbl2 true) f.tbl
    (0, { f with tbl, seqgencnt := f.seqgencnt - 1 }.setGen key none)

/-! ## What the calls do -/

/-- The lists of generation functions hold handles of rows. -/
def GenHandles (f : EdgxFrer) : Prop := ∀ fn n, f.sgRoot fn = some n → ∀ s ∈ n.sgList, InTable s

/-- The function with the stream in its list. -/
def SeqGen.withStr (n : SeqGen) (str : BitVec 16) : SeqGen :=
  if str ∈ n.sgList then n else { n with sgList := n.sgList ++ [str] }

section Cases

variable {par : Params} {f : EdgxFrer} {fnidx : BitVec 16}

theorem seqgenCreate_cases (par : Params) (f : EdgxFrer) (fnidx : BitVec 16) (alloc : Bool) :
    let r := edgxFrerSeqgenCreate par f fnidx alloc
    r.1 ≠ 0 ∧ r.2 = f ∨ InTable fnidx ∧ f.sgRoot fnidx = none ∧
      r = (0, { f with seqgencnt := f.seqgencnt + 1 }.setGen fnidx (some {})) := by
  intro r
  have hr : r = edgxFrerSeqgenCreate par f fnidx alloc := rfl
  unfold edgxFrerSeqgenCreate at hr
  by_cases hchk : edgxFrerCheckFnidx par fnidx = 0
  · rw [if_neg (not_not.2 hchk)] at hr
    cases hroot : f.sgRoot fnidx with
    | some n =>
      rw [hroot, if_pos (by rfl)] at hr
      exact .inl (refused (by decide) hr)
    | none =>
      rw [hroot, if_neg (by decide)] at hr
      cases alloc with
      | false =>
        rw [if_pos rfl] at hr
        exact .inl (refused (by decide) hr)
      | true => exact .inr ⟨inTable_of_checkFnidx hchk, rfl, hr⟩
  · rw [if_pos hchk] at hr
    exact .inl (refused (by decide) hr)

/-- An add-stream, once it has found the function. -/
theorem seqgenAddstr_cases (par : Params) (f : EdgxFrer) (str fnidx : BitVec 16) (alloc : Bool) :
    let r := edgxFrerSeqgenAddstr par f str fnidx alloc
    r.1 ≠ 0 ∧ r.2 = f ∨ InTable str ∧ ∃ n, f.sgRoot fnidx = some n ∧
      let a := edgxFrerSeqgenApply (n.withStr str) fnidx f.tbl
      r = if a.1 = 0 then (0, { f with tbl := a.2 }.setGen fnidx (some (n.withStr str)))
        else (-EBUSY, { f with tbl := a.2 }.setGen fnidx
          (some { n.withStr str with sgList := (n.withStr str).sgList.erase str })) := by
  intro r
  have hr : r = edgxFrerSeqgenAddstr par f str fnidx alloc := rfl
  unfold edgxFrerSeqgenAddstr at hr
  by_cases hchk : edgxFrerCheckStrhdl par str = 0
  · rw [if_neg (not_not.2 hchk)] at hr
    cases hroot : f.sgRoot fnidx with
    | none =>
      rw [hroot] at hr
      exact .inl (refused (by decide) hr)
    | some n =>
      rw [hroot] at hr
      dsimp only at hr
      split at hr
      · exact .inl (refused (by decide) hr)
      · refine .inr ⟨inTable_of_checkStrhdl hchk, n, rfl, ?_⟩
        rw [hr]
        exact ite_not ..
  · rw [if_pos hchk] at hr
    exact .inl (refused (by decide) hr)

/-- A set-direction, once it has found the function. -/
theorem seqgenAdddir_cases (f : EdgxFrer) (dir : BitVec 8) (fnidx : BitVec 16) :
    let r := edgxFrerSeqgenAdddir f dir fnidx
    r.1 ≠ 0 ∧ r.2 = f ∨ dir = DIR_IN_FAC ∧ ∃ n, f.sgRoot fnidx = some n ∧
      let a := edgxFrerSeqgenApply { n with dir := .inFac } fnidx f.tbl
      r = if a.1 = 0 then (0, { f with tbl := a.2 }.setGen fnidx (some { n with dir := .inFac }))
        else (-EBUSY, { f with tbl := a.2 }.setGen fnidx (some { n with dir := .unknown })) := by
  intro r
  have hr : r = edgxFrerSeqgenAdddir f dir fnidx := rfl
  unfold edgxFrerSeqgenAdddir seqgenCheckDirection at hr
  by_cases hdir : dir = DIR_IN_FAC
  · rw [if_neg (not_not.2 hdir), if_neg (by decide)] at hr
    cases hroot : f.sgRoot fnidx with
    | none =>
      rw [hroot] at hr
      exact .inl (refused (by decide) hr)
    | some n =>
      rw [hroot] at hr
      refine .inr ⟨hdir, n, rfl, ?_⟩
      rw [hr]
      exact ite_not ..
  · rw [if_pos hdir, if_pos (by decide)] at hr
    exact .inl (refused (by decide) hr)

/-- A delete-stream whose handle has bit 14 clear. -/
theorem seqgenListDelEntry_cases {str : BitVec 16} (hg : GenHandles f) (hs : str.getLsbD 14 = false) :
    let r := seqgenListDelEntry f str
    (r.1 ≠ 0 ∧ ∃ tbl : StreamTbl, tbl.rows = f.tbl.rows ∧ r.2 = { f with tbl }) ∨
    ∃ fn n, ∃ tbl : StreamTbl, Points (f.tbl.rows str .tbl2) fn ∧ f.sgRoot fn = some n ∧ str ∈ n.sgList ∧
      tbl.rows = f.tbl.rows ∧
      r = (0, { f with tbl := edgxFrerIpWrStrtbl tbl str fn .tbl2 true }.setGen fn
        (some { n with sgList := n.sgList.erase str })) := by
  intro r
  have hr : r = seqgenListDelEntry f str := rfl
  unfold seqgenListDelEntry edgxFrerSeqfnEnabled at hr
  dsimp only at hr
  have h1 := rd_rows hs f.tbl .tbl2
  have h2 := (rd_rows hs (edgxFrerIpRdStrtbl f.tbl str .tbl2).2 .tbl2).trans h1
  have hw : InTable str → (edgxFrerIpRdStrtbl f.tbl str .tbl2).1 = f.tbl.rows str .tbl2 ∧
      (edgxFrerIpRdStrtbl (edgxFrerIpRdStrtbl f.tbl str .tbl2).2 str .tbl2).1 = f.tbl.rows str .tbl2 := fun h => by
    rw [h.rd, h.rd]
    exact ⟨rfl, rfl⟩
  generalize edgxFrerIpRdStrtbl (edgxFrerIpRdStrtbl f.tbl str .tbl2).2 str .tbl2 = r₂ at hr h2 hw
  generalize edgxFrerIpRdStrtbl f.tbl str .tbl2 = r₁ at hr h1 hw
  cases hen : r₁.1.getLsbD 15 with
  | false =>
    rw [hen, if_pos rfl] at hr
    exact .inl ⟨(refused (by decide) hr).1, _, h1, congrArg Prod.snd hr⟩
  | true =>
    rw [hen, if_neg (by decide)] at hr
    cases hroot : f.sgRoot (r₂.1 &&& STRTBL_MASK) with
    | none =>
      rw [hroot] at hr
      exact .inl ⟨(refused (by decide) hr).1, _, h2, congrArg Prod.snd hr⟩
    | some n =>
      rw [hroot] at hr
      dsimp only at hr
      split at hr
      · rename_i hmem
        obtain ⟨hw1, hw2⟩ := hw (hg _ n hroot str hmem)
        rw [hw1] at hen
        rw [hw2] at hroot hr
        exact .inr ⟨_, n, _, ⟨hen, rfl⟩, hroot, hmem, h2, hr⟩
      · exact .inl ⟨(refused (by decide) hr).1, _, h2, congrArg Prod.snd hr⟩

/-- A delete-function that reads the handles it freed. -/
theorem seqgenRbtDelEntry_cases (f : EdgxFrer) (key : BitVec 16) {freed : BitVec 16 → BitVec 16}
    (hf : ∀ n, f.sgRoot key = some n → ∀ s ∈ n.sgList, freed s = s) :
    let r := seqgenRbtDelEntry f key freed
    r.1 ≠ 0 ∧ r.2 = f ∨ ∃ n, f.sgRoot key = some n ∧
      r = (0, { f with tbl := n.sgList.foldl (fun h l => edgxFrerIpWrStrtbl h l 0 .tbl2 true) f.tbl
                       seqgencnt := f.seqgencnt - 1 }.setGen key none) := by
  intro r
  have hr : r = seqgenRbtDelEntry f key freed := rfl
  unfold seqgenRbtDelEntry at hr
  cases hroot : f.sgRoot key with
  | none =>
    rw [hroot] at hr
    exact .inl (refused (by decide) hr)
  | some n =>
    rw [hroot] at hr
    refine .inr ⟨n, rfl, ?_⟩
    have hfold : n.sgList.foldl (fun h l => edgxFrerIpWrStrtbl h (freed l) 0 .tbl2 true) f.tbl =
        n.sgList.foldl (fun h l => edgxFrerIpWrStrtbl h l 0 .tbl2 true) f.tbl :=
      List.foldl_ext _ _ _ fun h l hl => by rw [hf n hroot l hl]
    rw [hr, ← hfold]

end Cases

end TsnSwitch.Frer
