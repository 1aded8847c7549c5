/-
Sequence encoding (edge_frer.c). The entry of a port has a list of streams
and a mode. Once the mode is set, each stream of the list has the port's bit
in table 0, and in table 1 if the mode is active.
-/
import TsnSwitch.Frer.State

namespace TsnSwitch.Frer

def EdgxFrer.setPort (f : EdgxFrer) (pt : Port) (p : SePort) : EdgxFrer := { f with sePorts := Function.update f.sePorts pt p }

def EdgxFrer.setMask (f : EdgxFrer) (str : BitVec 16) (mask : Option (BitVec 16)) : EdgxFrer :=
  { f with seRoot := Function.update f.seRoot str mask }

def seqencCheckDir (dir : BitVec 8) : Int := if dir ≠ DIR_OUT_FAC then -EINVAL else 0

def seqencCheckActive (active : BitVec 8) : Int := if active ≠ 1 ∧ active ≠ 0 then -EINVAL else 0

/-- Read a word of tables 0 and 1, change it and write it back. -/
def modify (h : StreamTbl) (str : BitVec 16) (tbl : Tbl) (g : BitVec 16 → BitVec 16) : StreamTbl :=
  let (reg, h) := edgxFrerIpRdStrtbl h str tbl
  edgxFrerIpWrStrtbl h str (g reg) tbl false

def seqencApplyActive (h : StreamTbl) (pt : Port) (str : BitVec 16) : StreamTbl :=
  modify (modify h str .tbl0 fun reg => reg ||| bit pt) str .tbl1 fun reg => reg ||| bit pt

def seqencApplyPassive (h : StreamTbl) (pt : Port) (str : BitVec 16) : StreamTbl :=
  modify (modify h str .tbl0 fun reg => reg ||| bit pt) str .tbl1 fun reg => reg &&& ~~~bit pt

def edgxFrerSeqencApply (f : EdgxFrer) (pt : Port) : Int × EdgxFrer :=
  let p := f.sePorts pt
  if p.active = .unknown ∨ p.active = .undefined ∨ p.seList = [] then (-ENOENT, f)
  else
    (0, { f with tbl := p.seList.foldl (fun h l =>
            if p.active = .active then seqencApplyActive h pt l else seqencApplyPassive h pt l) f.tbl })

def edgxFrerSeqencApplydel (h : StreamTbl) (port : Port) (strhdl portmask : BitVec 16) : StreamTbl :=
  if portmask = 0 then edgxFrerIpWrStrtbl (edgxFrerIpWrStrtbl h strhdl 0 .tbl0 false) strhdl 0 .tbl1 false
  else
    modify (modify h strhdl .tbl0 fun reg => reg &&& ~~~bit port) strhdl .tbl1 fun reg => reg &&& ~~~bit port

/-- Whatever entry the port had before. -/
def edgxFrerSeqencCreateEntry (par : Params) (port : Port) (dir : BitVec 8) (f : EdgxFrer) : Int × EdgxFrer :=
  if seqencCheckDir dir ≠ 0 ∨ edgxFrerCheckPort par port ≠ 0 then (-EINVAL, f)
  else (0, f.setPort port { f.sePorts port with active := .unknown })

/-- `allocList` and `allocNode` are whether the allocations succeed. -/
def edgxFrerSeqencAddStr (par : Params) (str : BitVec 16) (port : Port) (f : EdgxFrer) (allocList allocNode : Bool) :
    Int × EdgxFrer :=
  let p := f.sePorts port
  if p.active = .undefined then (-ENOENT, f)
  else if edgxFrerCheckStrhdl par str ≠ 0 then (-EINVAL, f)
  else if str ∉ p.seList ∧ allocList = false then (-ENOMEM, f)
  else
    let f := if str ∈ p.seList then f else f.setPort port { p with seList := p.seList ++ [str] }
    match f.seRoot str with
    | some mask => (0, (edgxFrerSeqencApply (f.setMask str (some (mask ||| bit port))) port).2)
    | none =>
      -- the stream stays in the list
      if allocNode = false then (-ENOMEM, f)
      else (0, (edgxFrerSeqencApply (f.setMask str (some (bit port))) port).2)

def edgxFrerSeqencSetActive (active : BitVec 8) (port : Port) (f : EdgxFrer) : Int × EdgxFrer :=
  let p := f.sePorts port
  if p.active = .undefined then (-ENOENT, f)
  else if seqencCheckActive active ≠ 0 then (-EINVAL, f)
  else
    (0, (edgxFrerSeqencApply (f.setPort port { p with active := if active ≠ 0 then .active else .passive }) port).2)

/-- The loop of `edgx_frer_seqenc_delportfn` over the rest of the list. The
mask of a stream without ports is read after its node is freed: `freed` is
what is read then. -/
def delportfnList (port : Port) (freed : BitVec 16 → BitVec 16) : List (BitVec 16) → EdgxFrer → Int × EdgxFrer
  | [], f => (0, f)
  | l :: ls, f =>
    match f.seRoot l with
    | none => (-EINVAL, f)
    | some mask =>
      let mask := mask &&& ~~~bit port
      let f := if mask = 0 then f.setMask l none else f.setMask l (some mask)
      let f := f.setPort port { f.sePorts port with seList := ls }
      delportfnList port freed ls
        { f with tbl := edgxFrerSeqencApplydel f.tbl port l (if mask = 0 then freed l else mask) }

def edgxFrerSeqencDelportfn (port : Port) (f : EdgxFrer) (freed : BitVec 16 → BitVec 16) : Int × EdgxFrer :=
  if (f.sePorts port).active = .undefined then (-ENOENT, f)
  else
    let (ret, f) := delportfnList port freed (f.sePorts port).seList f
    if ret ≠ 0 then (ret, f) else (0, f.setPort port { f.sePorts port with active := .undefined })

def edgxFrerSeqencDelstr (str : BitVec 16) (port : Port) (f : EdgxFrer) : Int × EdgxFrer :=
  let p := f.sePorts port
  let entryExists := decide (str ∈ p.seList)
  let (portmask, f) :=
    if entryExists then
      let f := f.setPort port { p with seList := p.seList.erase str }
      match f.seRoot str with
      | some mask =>
        let mask := mask &&& ~~~bit port
        (mask, if mask = 0 then f.setMask str none else f.setMask str (some mask))
      | none => (0xff, f)
    else (0xff, f)
  let p := f.sePorts port
  let f := if p.seList = [] then f.setPort port { p with active := .undefined } else f
  if entryExists = false then (-ENOENT, f)
  else (0, { f with tbl := edgxFrerSeqencApplydel f.tbl port str portmask })

/-! ## Bits of ports -/

theorem bit_getLsbD (pt q : Port) : (bit pt).getLsbD q = decide (q = pt) := by
  revert pt q
  decide

theorem or_bit (w : BitVec 16) (pt q : Port) : (w ||| bit pt).getLsbD q = (w.getLsbD q || decide (q = pt)) := by
  rw [BitVec.getLsbD_or, bit_getLsbD]

theorem and_not_bit (w : BitVec 16) (pt q : Port) : (w &&& ~~~bit pt).getLsbD q = (w.getLsbD q && !decide (q = pt)) := by
  rw [BitVec.getLsbD_and, BitVec.getLsbD_not, bit_getLsbD]
  simp [show q.val < 16 from q.isLt]

/-! ## What the calls do -/

/-- The lists of the ports hold handles of rows. -/
def EncHandles (f : EdgxFrer) : Prop := ∀ p, ∀ s ∈ (f.sePorts p).seList, InTable s

/-- The entry with the stream in its list. -/
def SePort.withStr (p : SePort) (str : BitVec 16) : SePort :=
  if str ∈ p.seList then p else { p with seList := p.seList ++ [str] }

/-- The mask of a stream, 0 without a node. -/
def EdgxFrer.mask (f : EdgxFrer) (str : BitVec 16) : BitVec 16 := (f.seRoot str).getD 0

/-- The driver after a stream was removed from the list of a port. -/
def EdgxFrer.removed (f : EdgxFrer) (port : Port) (str portmask : BitVec 16) : EdgxFrer :=
  let mask := f.mask str &&& ~~~bit port
  let p := f.sePorts port
  let f := (f.setPort port { p with seList := p.seList.erase str }).setMask str (if mask = 0 then none else some mask)
  { f with tbl := edgxFrerSeqencApplydel f.tbl port str portmask }

theorem EdgxFrer.removed_tbl (f : EdgxFrer) (port : Port) (str portmask : BitVec 16) :
    (f.removed port str portmask).tbl = edgxFrerSeqencApplydel f.tbl port str portmask := rfl

section Cases

variable {par : Params} {f : EdgxFrer} {port : Port}

theorem modify_eq {s : BitVec 16} (hs : InTable s) (h : StreamTbl) {tbl : Tbl} (ht : tbl = .tbl0 ∨ tbl = .tbl1)
    (g : BitVec 16 → BitVec 16) : modify h s tbl g = h.setWord s tbl (g (h.rows s tbl)) := by
  rw [modify, hs.rd]
  dsimp only
  rw [hs.wr]
  rcases ht with rfl | rfl <;> rfl

theorem setPort_withStr {str : BitVec 16} (hmem : str ∈ (f.sePorts port).seList) :
    f.setPort port ((f.sePorts port).withStr str) = f := by
  rw [SePort.withStr, if_pos hmem, EdgxFrer.setPort, Function.update_eq_self]

theorem seqencCreate_cases (par : Params) (port : Port) (dir : BitVec 8) (f : EdgxFrer) :
    let r := edgxFrerSeqencCreateEntry par port dir f
    r.1 ≠ 0 ∧ r.2 = f ∨ seqencCheckDir dir = 0 ∧ edgxFrerCheckPort par port = 0 ∧
      r = (0, f.setPort port { f.sePorts port with active := .unknown }) := by
  intro r
  have hr : r = edgxFrerSeqencCreateEntry par port dir f := rfl
  unfold edgxFrerSeqencCreateEntry at hr
  split at hr
  · exact .inl (refused (by decide) hr)
  · rename_i hchk
    obtain ⟨hdir, hport⟩ := not_or.1 hchk
    exact .inr ⟨not_not.1 hdir, not_not.1 hport, hr⟩

/-- An add-stream: the node of the stream may be missing in the end. -/
theorem seqencAddStr_cases (par : Params) (str : BitVec 16) (port : Port) (f : EdgxFrer) (allocList allocNode : Bool) :
    let r := edgxFrerSeqencAddStr par str port f allocList allocNode
    let f₁ := f.setPort port ((f.sePorts port).withStr str)
    r.1 ≠ 0 ∧ r.2 = f ∨ InTable str ∧ (f.sePorts port).active ≠ .undefined ∧
      (f.seRoot str = none ∧ allocNode = false ∧ r = (-ENOMEM, f₁) ∨
        r = (0, (edgxFrerSeqencApply (f₁.setMask str (some (f.mask str ||| bit port))) port).2)) := by
  intro r f₁
  have hr : r = edgxFrerSeqencAddStr par str port f allocList allocNode := rfl
  unfold edgxFrerSeqencAddStr at hr
  by_cases hact : (f.sePorts port).active = .undefined
  · rw [if_pos hact] at hr
    exact .inl (refused (by decide) hr)
  rw [if_neg hact] at hr
  by_cases hchk : edgxFrerCheckStrhdl par str = 0
  · rw [if_neg (not_not.2 hchk)] at hr
    dsimp only at hr
    split at hr
    · exact .inl (refused (by decide) hr)
    · refine .inr ⟨inTable_of_checkStrhdl hchk, hact, ?_⟩
      have hf₁ : (if str ∈ (f.sePorts port).seList then f else
          f.setPort port { f.sePorts port with seList := (f.sePorts port).seList ++ [str] }) = f₁ := by
        by_cases hmem : str ∈ (f.sePorts port).seList
        · rw [if_pos hmem]
          exact (setPort_withStr hmem).symm
        · rw [if_neg hmem]
          simp only [f₁, SePort.withStr, if_neg hmem]
      have hroot : f₁.seRoot str = f.seRoot str := rfl
      rw [hf₁, hroot] at hr
      cases hnode : f.seRoot str with
      | some mask =>
        rw [hnode] at hr
        right
        rw [hr, EdgxFrer.mask, hnode]
        rfl
      | none =>
        rw [hnode] at hr
        dsimp only at hr
        split at hr
        · rename_i halloc
          exact .inl ⟨rfl, halloc, hr⟩
        · right
          rw [hr, EdgxFrer.mask, hnode, Option.getD_none, show (0 : BitVec 16) ||| bit port = bit port from BitVec.zero_or]
  · rw [if_pos hchk] at hr
    exact .inl (refused (by decide) hr)

theorem seqencSetActive_cases (active : BitVec 8) (port : Port) (f : EdgxFrer) :
    let r := edgxFrerSeqencSetActive active port f
    r.1 ≠ 0 ∧ r.2 = f ∨ (f.sePorts port).active ≠ .undefined ∧ ∃ a, (a = .active ∨ a = .passive) ∧
      r = (0, (edgxFrerSeqencApply (f.setPort port { f.sePorts port with active := a }) port).2) := by
  intro r
  have hr : r = edgxFrerSeqencSetActive active port f := rfl
  unfold edgxFrerSeqencSetActive at hr
  by_cases hact : (f.sePorts port).active = .undefined
  · rw [if_pos hact] at hr
    exact .inl (refused (by decide) hr)
  rw [if_neg hact] at hr
  split at hr
  · exact .inl (refused (by decide) hr)
  · refine .inr ⟨hact, _, ?_, hr⟩
    split
    · exact .inl rfl
    · exact .inr rfl

/-- A delete-stream, whatever nodes there are. -/
theorem seqencDelstr_shape (str : BitVec 16) (port : Port) (f : EdgxFrer) :
    let r := edgxFrerSeqencDelstr str port f
    str ∉ (f.sePorts port).seList ∧ (∃ a, r.2 = f.setPort port { f.sePorts port with active := a }) ∨
    str ∈ (f.sePorts port).seList ∧ ∃ a root portmask,
      r.2 = { f.setPort port ⟨(f.sePorts port).seList.erase str, a⟩ with
        seRoot := root, tbl := edgxFrerSeqencApplydel f.tbl port str portmask } := by
  intro r
  have hr : r = edgxFrerSeqencDelstr str port f := rfl
  unfold edgxFrerSeqencDelstr at hr
  by_cases hmem : str ∈ (f.sePorts port).seList
  · refine .inr ⟨hmem, ?_⟩
    simp only [decide_eq_true hmem, if_true, Bool.true_eq_false, if_false, EdgxFrer.setPort] at hr
    -- whether the list is empty now
    by_cases he : (f.sePorts port).seList.erase str = []
    · refine ⟨.undefined, ?_⟩
      cases hroot : f.seRoot str with
      | none =>
        simp only [hroot, Function.update_self, he, if_true, Function.update_idem] at hr
        exact ⟨_, _, by rw [hr, EdgxFrer.setPort, he]⟩
      | some mask =>
        by_cases hz : mask &&& ~~~bit port = 0 <;>
          simp only [hroot, hz, EdgxFrer.setMask, Function.update_self, he, if_true, if_false,
            Function.update_idem] at hr <;>
          exact ⟨_, _, by rw [hr, EdgxFrer.setPort, he]⟩
    · refine ⟨(f.sePorts port).active, ?_⟩
      cases hroot : f.seRoot str with
      | none =>
        simp only [hroot, Function.update_self, he, if_false] at hr
        exact ⟨_, _, congrArg Prod.snd hr⟩
      | some mask =>
        by_cases hz : mask &&& ~~~bit port = 0 <;>
          simp only [hroot, hz, EdgxFrer.setMask, Function.update_self, he, if_true, if_false] at hr <;>
          exact ⟨_, _, congrArg Prod.snd hr⟩
  · refine .inl ⟨hmem, ?_⟩
    simp only [decide_eq_false hmem, Bool.false_eq_true, if_false, if_true] at hr
    by_cases he : (f.sePorts port).seList = []
    · exact ⟨.undefined, by rw [hr, if_pos he]⟩
    · refine ⟨(f.sePorts port).active, ?_⟩
      rw [hr, if_neg he, EdgxFrer.setPort, Function.update_eq_self]

/-- A delete-stream: of a stream that is not there, or that has a node. -/
theorem seqencDelstr_cases {str : BitVec 16} (port : Port) (f : EdgxFrer)
    (hnode : str ∈ (f.sePorts port).seList → ∃ mask, f.seRoot str = some mask) :
    let r := edgxFrerSeqencDelstr str port f
    let f₁ := f.removed port str (f.mask str &&& ~~~bit port)
    str ∉ (f.sePorts port).seList ∧
      r = (-ENOENT, if (f.sePorts port).seList = [] then f.setPort port { f.sePorts port with active := .undefined }
        else f) ∨
    str ∈ (f.sePorts port).seList ∧
      r = (0, if (f₁.sePorts port).seList = [] then f₁.setPort port { f₁.sePorts port with active := .undefined }
        else f₁) := by
  intro r f₁
  have hr : r = edgxFrerSeqencDelstr str port f := rfl
  unfold edgxFrerSeqencDelstr at hr
  by_cases hmem : str ∈ (f.sePorts port).seList
  · obtain ⟨mask, hmask⟩ := hnode hmem
    have hroot : (f.setPort port { f.sePorts port with seList := (f.sePorts port).seList.erase str }).seRoot str =
        some mask := hmask
    refine .inr ⟨hmem, ?_⟩
    simp only [decide_eq_true hmem, if_true, hroot, Bool.true_eq_false, if_false] at hr
    rw [hr]
    simp only [f₁, EdgxFrer.removed, EdgxFrer.mask, hmask, Option.getD_some, EdgxFrer.setPort, EdgxFrer.setMask,
      Function.update_self]
    by_cases hz : mask &&& ~~~bit port = 0 <;> by_cases he : (f.sePorts port).seList.erase str = [] <;>
      simp only [hz, he, if_true, if_false, Function.update_self]
  · refine .inl ⟨hmem, ?_⟩
    simp only [decide_eq_false hmem, Bool.false_eq_true, if_false, if_true] at hr
    exact hr

end Cases

end TsnSwitch.Frer
