/-
The attributes of edge_frer.c that list the functions, and the streams of each.

The functions of a tree have numbers of the table, their lists have streams of the table,
each once, and the counter has their number (`Registered`), whatever calls are made. So
they can be read whole, in calls of any size.
-/
import TsnSwitch.Frer.Generation
import TsnSwitch.Lib.Keys
import TsnSwitch.Port.Regs
import TsnSwitch.Psfp.GateLists

namespace TsnSwitch.Frer

open Lib

/-! ## Attributes -/

/-- Functions with their streams. -/
abbrev Functions := BitVec 16 → Option (List (BitVec 16))

/-- `seqgen_fn2sid_read` and `seqrec_fn2sid_read`, up to their tree. -/
def fn2sidRead (par : Params) (fns : Functions) (ofs count : Nat) : Int × List (BitVec 16) :=
  if par.streamsMax = 0 then (-ENOENT, [])
  else
    match Psfp.edgxSysfsListParams ofs count 2 with
    | none => (-EINVAL, [])
    | some (idx, nelems) =>
      let fnidx := idx / par.streamsMax
      let stridx := idx % par.streamsMax
      if fnidx ≥ par.seqrecMax ∨ stridx + nelems > par.streamsMax then (-EINVAL, [])
      else
        match fns (BitVec.ofNat 16 fnidx) with
        | none => (-ENOENT, [])
        | some l =>
          let list := copyLoop stridx nelems 0 l
          (count, list ++ List.replicate (nelems - list.length) FRER_U16_INVALID)

def EdgxFrer.genFns (f : EdgxFrer) : Functions := fun fn => (f.sgRoot fn).map SeqGen.sgList

def EdgxFrer.recFns (f : EdgxFrer) : Functions := fun fn => (f.srRoot fn).map SeqRec.srList

def seqgenFn2sidRead (par : Params) (f : EdgxFrer) : Nat → Nat → Int × List (BitVec 16) := fn2sidRead par f.genFns

/-- The loop of `seqgen_sid2fn_read`. A function that is found does not end it. -/
def sid2fnLoop (f : EdgxFrer) (str : BitVec 16) : List (BitVec 16) → Option (BitVec 16) → Option (BitVec 16)
  | [], found => found
  | fn :: fns, found =>
    sid2fnLoop f str fns (match f.sgRoot fn with
      | some sg => if str ∈ sg.sgList then some fn else found
      | none => found)

/-- What is returned, and what is put into the buffer. -/
def seqgenSid2fnRead (par : Params) (f : EdgxFrer) (ofs count : Nat) : (Int × Option (BitVec 16)) × EdgxFrer :=
  match Port.edgxSysfsTblParams ofs count 2 with
  | none => ((-EINVAL, none), f)
  | some idx =>
    if idx ≥ par.streamsMax then ((-EINVAL, none), f)
    else
      let str := BitVec.ofNat 16 idx
      let (val, tbl) := edgxFrerIpRdStrtbl f.tbl str .tbl2
      let f := { f with tbl }
      if val.getLsbD 15 then ((count, some (val &&& 0xFFF)), f)
      else
        match sid2fnLoop f str (keys f.sgRoot) none with
        | some fn => ((count, some fn), f)
        | none => ((-ENOENT, none), f)

/-! ## What the calls do to the functions -/

/-- A function of the table, and streams of the table, each once. -/
structure Listed (par : Params) (fn : BitVec 16) (l : List (BitVec 16)) : Prop where
  fn_lt : fn.toNat < par.seqrecMax
  nodup : l.Nodup
  str_lt : ∀ s ∈ l, s.toNat < par.streamsMax

/-- Such functions, and their number. -/
structure Registered (par : Params) (fns : Functions) (cnt : BitVec 16) : Prop where
  listed : ∀ fn l, fns fn = some l → Listed par fn l
  count : Counts cnt fns

/-- What a call may do to the functions and to their number. -/
inductive Change (par : Params) (fns : Functions) (cnt : BitVec 16) : Functions → BitVec 16 → Prop
  | keep : Change par fns cnt fns cnt
  | create {fn : BitVec 16} (hnew : fns fn = none) (hfn : fn.toNat < par.seqrecMax) :
    Change par fns cnt (Function.update fns fn (some [])) (cnt + 1)
  | add {fn s : BitVec 16} {l : List (BitVec 16)} (hl : fns fn = some l) (hnew : s ∉ l) (hs : s.toNat < par.streamsMax) :
    Change par fns cnt (Function.update fns fn (some (l ++ [s]))) cnt
  | remove {fn : BitVec 16} {l : List (BitVec 16)} (hl : fns fn = some l) (s : BitVec 16) :
    Change par fns cnt (Function.update fns fn (some (l.erase s))) cnt
  | delete {fn : BitVec 16} {l : List (BitVec 16)} (hl : fns fn = some l) :
    Change par fns cnt (Function.update fns fn none) (cnt - 1)

section Change

variable {par : Params} {fns fns' : Functions} {cnt cnt' : BitVec 16}

theorem Registered.update (h : Registered par fns cnt) {fn : BitVec 16} {o : Option (List (BitVec 16))}
    (ho : ∀ l, o = some l → Listed par fn l) (hcnt : Counts cnt' (Function.update fns fn o)) :
    Registered par (Function.update fns fn o) cnt' := by
  refine ⟨fun fn' l hl => ?_, hcnt⟩
  obtain ⟨rfl, hnew⟩ | hold := of_update hl
  · exact ho l hnew
  · exact h.listed fn' l hold

/-- **One call** keeps the functions registered. -/
theorem Registered.change (h : Registered par fns cnt) (hc : Change par fns cnt fns' cnt') : Registered par fns' cnt' := by
  cases hc with
  | keep => exact h
  | create hnew hfn =>
    refine h.update (fun l hl => ?_) (h.count.insert hnew [])
    cases hl
    exact ⟨hfn, List.nodup_nil, List.forall_mem_nil _⟩
  | add hl hnew hs =>
    refine h.update (fun l' hl' => ?_) (h.count.update hl _)
    cases hl'
    obtain ⟨hfn, hnodup, hlt⟩ := h.listed _ _ hl
    exact ⟨hfn, hnodup.append (List.nodup_singleton _) (List.disjoint_singleton.2 hnew),
      List.forall_mem_append.2 ⟨hlt, List.forall_mem_singleton.2 hs⟩⟩
  | remove hl s =>
    refine h.update (fun l' hl' => ?_) (h.count.update hl _)
    cases hl'
    obtain ⟨hfn, hnodup, hlt⟩ := h.listed _ _ hl
    exact ⟨hfn, hnodup.erase s, fun x hx => hlt x (List.mem_of_mem_erase hx)⟩
  | delete hl => exact h.update (fun _ hl' => nomatch hl') (h.count.erase hl)

/-- The list of a function is set to what it is. -/
theorem Change.same {fn : BitVec 16} {l : List (BitVec 16)} (hl : fns fn = some l) :
    Change par fns cnt (Function.update fns fn (some l)) cnt := by
  rw [← hl, Function.update_eq_self]
  exact .keep

/-- A stream is put into the list, unless it is there, and then taken out again. -/
theorem Change.withErased {fn s : BitVec 16} {l : List (BitVec 16)} (hl : fns fn = some l) :
    Change par fns cnt (Function.update fns fn (some ((if s ∈ l then l else l ++ [s]).erase s))) cnt := by
  split
  · exact .remove hl s
  · rename_i hnew
    rw [List.erase_append_right _ hnew, List.erase_cons_head, List.append_nil]
    exact .same hl

/-- A stream is put into the list, unless it is there. -/
theorem Change.with {fn s : BitVec 16} {l : List (BitVec 16)} (hl : fns fn = some l) (hs : s.toNat < par.streamsMax) :
    Change par fns cnt (Function.update fns fn (some (if s ∈ l then l else l ++ [s]))) cnt := by
  split
  · exact .same hl
  · exact .add hl ‹_› hs

end Change

/-! ## Calls -/

theorem fnidx_lt {par : Params} {fnidx : BitVec 16} (h : ¬edgxFrerCheckFnidx par fnidx ≠ 0) : fnidx.toNat < par.seqrecMax := by
  have h0 := not_not.1 h
  unfold edgxFrerCheckFnidx at h0
  split at h0
  · cases h0
  · exact Nat.not_le.1 ‹_›

theorem strhdl_lt {par : Params} {str : BitVec 16} (h : ¬edgxFrerCheckStrhdl par str ≠ 0) : str.toNat < par.streamsMax := by
  have h0 := not_not.1 h
  unfold edgxFrerCheckStrhdl at h0
  split at h0
  · cases h0
  · exact Nat.not_le.1 ‹_›

section Calls

variable (par : Params) (f : EdgxFrer)

theorem genFns_setGen (fn : BitVec 16) (o : Option SeqGen) :
    (f.setGen fn o).genFns = Function.update f.genFns fn (o.map SeqGen.sgList) := by
  funext x
  simp only [EdgxFrer.genFns, EdgxFrer.setGen, Function.update_apply, apply_ite (Option.map SeqGen.sgList)]

theorem recFns_setRec (fn : BitVec 16) (o : Option SeqRec) :
    (f.setRec fn o).recFns = Function.update f.recFns fn (o.map SeqRec.srList) := by
  funext x
  simp only [EdgxFrer.recFns, EdgxFrer.setRec, Function.update_apply, apply_ite (Option.map SeqRec.srList)]

variable {par f}

theorem genFns_some {fn : BitVec 16} {n : SeqGen} (h : f.sgRoot fn = some n) : f.genFns fn = some n.sgList :=
  congrArg (Option.map SeqGen.sgList) h

theorem recFns_some {fn : BitVec 16} {sr : SeqRec} (h : f.srRoot fn = some sr) : f.recFns fn = some sr.srList :=
  congrArg (Option.map SeqRec.srList) h

/-- What a call does to the generation functions. -/
def GenChange (par : Params) (f f' : EdgxFrer) : Prop := Change par f.genFns f.seqgencnt f'.genFns f'.seqgencnt

/-- What a call does to the recovery functions. -/
def RecChange (par : Params) (f f' : EdgxFrer) : Prop := Change par f.recFns f.seqreccnt f'.recFns f'.seqreccnt

theorem GenChange.of_eq {f' : EdgxFrer} (hroot : f'.sgRoot = f.sgRoot) (hcnt : f'.seqgencnt = f.seqgencnt) :
    GenChange par f f' := by
  unfold GenChange EdgxFrer.genFns
  rw [hroot, hcnt]
  exact .keep

theorem RecChange.of_eq {f' : EdgxFrer} (hroot : f'.srRoot = f.srRoot) (hcnt : f'.seqreccnt = f.seqreccnt) :
    RecChange par f f' := by
  unfold RecChange EdgxFrer.recFns
  rw [hroot, hcnt]
  exact .keep

/-- A generation call. -/
theorem genStep_change (op : GenOp) : GenChange par f (genStep par f op).2 := by
  cases op with
  | create fnidx alloc =>
    simp only [genStep, edgxFrerSeqgenCreate]
    split
    · exact .keep
    · rename_i hchk
      split
      · exact .keep
      · rename_i hroot
        split
        · exact .keep
        · rw [GenChange, genFns_setGen]
          refine .create ?_ (fnidx_lt hchk)
          rw [EdgxFrer.genFns, Option.not_isSome_iff_eq_none.1 hroot, Option.map_none]
  | addStr str fnidx alloc =>
    simp only [genStep, edgxFrerSeqgenAddstr]
    split
    · exact .keep
    · rename_i hchk
      split
      · exact .keep
      · rename_i n hroot
        split
        · exact .keep
        · have hlist : (if str ∈ n.sgList then n else { n with sgList := n.sgList ++ [str] }).sgList =
              if str ∈ n.sgList then n.sgList else n.sgList ++ [str] := apply_ite ..
          generalize (if str ∈ n.sgList then n else { n with sgList := n.sgList ++ [str] }) = n' at hlist
          split
          · rw [GenChange, genFns_setGen, Option.map_some, hlist]
            exact .withErased (genFns_some hroot)
          · rw [GenChange, genFns_setGen, Option.map_some, hlist]
            exact .with (genFns_some hroot) (strhdl_lt hchk)
  | addDir dir fnidx =>
    obtain ⟨_, he⟩ | ⟨_, n, hroot, he⟩ := seqgenAdddir_cases f dir fnidx
    · rw [genStep, he]
      exact .keep
    · have hl := genFns_some hroot
      rw [genStep, he]
      split
      · rw [GenChange, genFns_setGen]
        exact .same hl
      · rw [GenChange, genFns_setGen]
        exact .same hl
  | delStr str =>
    simp only [genStep, seqgenListDelEntry]
    split
    · exact .keep
    · split
      · exact .keep
      · rename_i n hroot
        split
        · rw [GenChange, genFns_setGen]
          exact .remove (genFns_some hroot) str
        · exact .keep
  | delFn fnidx freed =>
    simp only [genStep, seqgenRbtDelEntry]
    split
    · exact .keep
    · rename_i n hroot
      rw [GenChange, genFns_setGen]
      exact .delete (genFns_some hroot)

variable (par f) in
/-- A recovery function is applied. -/
theorem seqrecApply_fns (fnidx : BitVec 16) (sr : SeqRec) (str : BitVec 16) (del : Bool) :
    let f' := edgxFrerSeqrecApply par f fnidx sr str del
    f'.recFns = Function.update f.recFns fnidx (some sr.srList) ∧ f'.seqreccnt = f.seqreccnt := by
  intro f'
  have hf' : f' = edgxFrerSeqrecApply par f fnidx sr str del := rfl
  unfold edgxFrerSeqrecApply at hf'
  dsimp only at hf'
  split at hf'
  · split at hf'
    · rw [hf', recFns_setRec]
      refine ⟨?_, rfl⟩
      have hset : (f.setRec fnidx (some sr)).recFns = _ := recFns_setRec ..
      exact (congrArg (Function.update · fnidx _) hset).trans (Function.update_idem ..)
    · split at hf'
      · rw [hf']
        exact ⟨recFns_setRec .., rfl⟩
      · rw [hf']
        exact ⟨recFns_setRec .., rfl⟩
  · rw [hf']
    exact ⟨recFns_setRec .., rfl⟩

theorem RecChange.apply {fnidx : BitVec 16} {sr sr' : SeqRec} (hroot : f.srRoot fnidx = some sr)
    (hlist : sr'.srList = sr.srList) (str : BitVec 16) (del : Bool) :
    RecChange par f (edgxFrerSeqrecApply par f fnidx sr' str del) := by
  obtain ⟨hfns, hcnt⟩ := seqrecApply_fns par f fnidx sr' str del
  rw [RecChange, hfns, hcnt, hlist]
  exact .same (recFns_some hroot)

variable (par) in
/-- The streams of a function are deleted, up to the function. -/
theorem delfnList_fns (fnidx : BitVec 16) (ls : List (BitVec 16)) (f : EdgxFrer) :
    Function.update (delfnList par fnidx ls f).recFns fnidx none = Function.update f.recFns fnidx none ∧
      (delfnList par fnidx ls f).seqreccnt = f.seqreccnt := by
  induction ls generalizing f with
  | nil => exact ⟨rfl, rfl⟩
  | cons l ls ih =>
    rw [delfnList]
    split
    · exact ⟨rfl, rfl⟩
    · rename_i sr hroot
      obtain ⟨hfns, hcnt⟩ := seqrecApply_fns par f fnidx sr l true
      obtain ⟨hfns', hcnt'⟩ := ih ((edgxFrerSeqrecApply par f fnidx sr l true).setRec fnidx
        (((edgxFrerSeqrecApply par f fnidx sr l true).srRoot fnidx).map fun sr => { sr with srList := ls }))
      refine ⟨hfns'.trans ?_, hcnt'.trans hcnt⟩
      rw [recFns_setRec, hfns, Function.update_idem, Function.update_idem]

/-- A recovery call. -/
theorem recStep_change (op : RecOp) : RecChange par f (recStep par f op).2 := by
  cases op with
  | create fnidx alloc =>
    simp only [recStep, edgxFrerSeqrecCreate]
    split
    · exact .keep
    · rename_i hchk
      split
      · exact .keep
      · rename_i hroot
        split
        · exact .keep
        · rw [RecChange, recFns_setRec]
          refine .create ?_ (fnidx_lt hchk)
          rw [EdgxFrer.recFns, Option.not_isSome_iff_eq_none.1 hroot, Option.map_none]
  | param p fnidx =>
    obtain ⟨_, he⟩ | ⟨sr, sr', hroot, hset, he⟩ := recParamStep_cases par f fnidx p
    · rw [recStep, he]
      exact .keep
    · rw [recStep, he]
      exact .apply hroot (RecParam.set_keeps hset).1 _ _
  | delPort ptid fnidx =>
    obtain ⟨_, he⟩ | ⟨sr, hroot, _, he⟩ := seqrecDelport_cases par ptid fnidx f
    · rw [recStep, he]
      exact .keep
    · have hl := recFns_some hroot
      rw [recStep, he, RecChange, recFns_setRec]
      exact .same hl
  | addStr str fnidx alloc =>
    obtain ⟨_, he⟩ | ⟨hchk, sr, hroot, _, he⟩ := seqrecAddstr_cases par f str fnidx alloc
    · rw [recStep, he]
      exact .keep
    · obtain ⟨hfns, hcnt⟩ := seqrecApply_fns par f fnidx (sr.withStr str) str false
      have hlist : (sr.withStr str).srList = if str ∈ sr.srList then sr.srList else sr.srList ++ [str] := apply_ite ..
      rw [recStep, he, RecChange, hfns, hcnt, hlist]
      exact .with (recFns_some hroot) (strhdl_lt (not_not.2 hchk))
  | delStr str fnidx =>
    obtain ⟨_, he⟩ | ⟨_, sr, hroot, _, he⟩ := seqrecDelstr_cases par f str fnidx
    · rw [recStep, he]
      exact .keep
    · obtain ⟨hfns, hcnt⟩ := seqrecApply_fns par f fnidx { sr with srList := sr.srList.erase str } str true
      rw [recStep, he, RecChange, hfns, hcnt]
      exact .remove (recFns_some hroot) str
  | delFn fnidx =>
    obtain ⟨_, he⟩ | ⟨sr, hroot, he⟩ := seqrecDelfn_cases par fnidx f
    · rw [recStep, he]
      exact .keep
    · obtain ⟨hfns, hcnt⟩ := delfnList_fns par fnidx sr.srList f
      have hdel : Change par f.recFns f.seqreccnt (Function.update f.recFns fnidx none) (f.seqreccnt - 1) :=
        .delete (recFns_some hroot)
      rw [← hfns, ← hcnt] at hdel
      rw [recStep, he, RecChange, recFns_setRec]
      rw [hcnt] at hdel ⊢
      exact hdel

/-! ## What the calls leave alone -/

/-- The generation functions, and the recovery functions. -/
abbrev EdgxFrer.gens (f : EdgxFrer) : (BitVec 16 → Option SeqGen) × BitVec 16 := (f.sgRoot, f.seqgencnt)

abbrev EdgxFrer.recs (f : EdgxFrer) : (BitVec 16 → Option SeqRec) × BitVec 16 := (f.srRoot, f.seqreccnt)

theorem genStep_recs (op : GenOp) : (genStep par f op).2.recs = f.recs := by
  cases op <;> simp only [genStep, edgxFrerSeqgenCreate, edgxFrerSeqgenAddstr, edgxFrerSeqgenAdddir, seqgenListDelEntry,
    seqgenRbtDelEntry] <;> (repeat' split) <;> rfl

theorem seqrecApply_gens (f : EdgxFrer) (fnidx : BitVec 16) (sr : SeqRec) (str : BitVec 16) (del : Bool) :
    (edgxFrerSeqrecApply par f fnidx sr str del).gens = f.gens := by
  unfold edgxFrerSeqrecApply
  dsimp only
  (repeat' split) <;> rfl

theorem delfnList_gens (fnidx : BitVec 16) (ls : List (BitVec 16)) (f : EdgxFrer) :
    (delfnList par fnidx ls f).gens = f.gens := by
  induction ls generalizing f with
  | nil => rfl
  | cons l ls ih =>
    rw [delfnList]
    split
    · rfl
    · exact (ih _).trans (seqrecApply_gens ..)

theorem recStep_gens (op : RecOp) : (recStep par f op).2.gens = f.gens := by
  cases op with
  | create fnidx alloc =>
    simp only [recStep, edgxFrerSeqrecCreate]
    (repeat' split) <;> rfl
  | param p fnidx =>
    obtain ⟨_, he⟩ | ⟨_, _, _, _, he⟩ := recParamStep_cases par f fnidx p
    · rw [recStep, he]
    · rw [recStep, he]
      exact seqrecApply_gens ..
  | delPort ptid fnidx =>
    obtain ⟨_, he⟩ | ⟨_, _, _, he⟩ := seqrecDelport_cases par ptid fnidx f
    · rw [recStep, he]
    · rw [recStep, he]
      rfl
  | addStr str fnidx alloc =>
    obtain ⟨_, he⟩ | ⟨_, _, _, _, he⟩ := seqrecAddstr_cases par f str fnidx alloc
    · rw [recStep, he]
    · rw [recStep, he]
      exact seqrecApply_gens ..
  | delStr str fnidx =>
    obtain ⟨_, he⟩ | ⟨_, _, _, _, he⟩ := seqrecDelstr_cases par f str fnidx
    · rw [recStep, he]
    · rw [recStep, he]
      exact seqrecApply_gens ..
  | delFn fnidx =>
    obtain ⟨_, he⟩ | ⟨sr, _, he⟩ := seqrecDelfn_cases par fnidx f
    · rw [recStep, he]
    · rw [recStep, he]
      exact delfnList_gens fnidx sr.srList f

/-- All functions. -/
abbrev EdgxFrer.fns (f : EdgxFrer) := (f.gens, f.recs)

theorem seqencApply_fns (f : EdgxFrer) (port : Port) : (edgxFrerSeqencApply f port).2.fns = f.fns := by
  unfold edgxFrerSeqencApply
  dsimp only
  split <;> rfl

theorem delportfnList_fns (port : Port) (freed : BitVec 16 → BitVec 16) (ls : List (BitVec 16)) (f : EdgxFrer) :
    (delportfnList port freed ls f).2.fns = f.fns := by
  induction ls generalizing f with
  | nil => rfl
  | cons l ls ih =>
    rw [delportfnList]
    split
    · rfl
    · refine (ih _).trans ?_
      dsimp only
      split <;> rfl

theorem encStep_fns (op : EncOp) : (encStep par f op).2.fns = f.fns := by
  cases op with
  | create port dir =>
    simp only [encStep, edgxFrerSeqencCreateEntry]
    split <;> rfl
  | addStr str port allocList allocNode =>
    simp only [encStep, edgxFrerSeqencAddStr]
    split
    · rfl
    split
    · rfl
    split
    · rfl
    have hlist : (if str ∈ (f.sePorts port).seList then f
        else f.setPort port { f.sePorts port with seList := (f.sePorts port).seList ++ [str] }).fns = f.fns := by
      split <;> rfl
    split
    · exact (seqencApply_fns ..).trans hlist
    split
    · exact hlist
    · exact (seqencApply_fns ..).trans hlist
  | setActive active port =>
    simp only [encStep, edgxFrerSeqencSetActive]
    split
    · rfl
    split
    · rfl
    · exact seqencApply_fns ..
  | delStr str port =>
    obtain ⟨_, _, he⟩ | ⟨_, _, _, _, he⟩ := seqencDelstr_shape str port f
    · rw [encStep, he]
      rfl
    · rw [encStep, he]
      rfl
  | delPortFn port freed =>
    simp only [encStep, edgxFrerSeqencDelportfn]
    split
    · rfl
    split <;> exact delportfnList_fns ..

/-! ## Runs -/

/-- **Every call** keeps what the attributes list. -/
theorem step_change (op : Op) : GenChange par f (step par f op).2 ∧ RecChange par f (step par f op).2 := by
  cases op with
  | sg op =>
    have hsame := Prod.mk.inj (genStep_recs op : (genStep par f op).2.recs = f.recs)
    exact ⟨genStep_change op, .of_eq hsame.1 hsame.2⟩
  | se op =>
    obtain ⟨hgens, hrecs⟩ := Prod.mk.inj (encStep_fns op : (encStep par f op).2.fns = f.fns)
    exact ⟨.of_eq (Prod.mk.inj hgens).1 (Prod.mk.inj hgens).2, .of_eq (Prod.mk.inj hrecs).1 (Prod.mk.inj hrecs).2⟩
  | sr op =>
    have hsame := Prod.mk.inj (recStep_gens op : (recStep par f op).2.gens = f.gens)
    exact ⟨.of_eq hsame.1 hsame.2, recStep_change op⟩

end Calls

theorem registered_after (par : Params) (ops : List Op) :
    let f := after (step par) edgxProbeFrer ops
    Registered par f.genFns f.seqgencnt ∧ Registered par f.recFns f.seqreccnt := by
  have hstart {fns : Functions} (hfns : fns = fun _ => none) : Registered par fns 0 := by
    subst hfns
    refine ⟨fun _ _ h => (nomatch h), ?_⟩
    rw [Counts, keys_empty]
    rfl
  refine inv_after (I := fun f : EdgxFrer => Registered par f.genFns f.seqgencnt ∧ Registered par f.recFns f.seqreccnt) ops
    ⟨hstart rfl, hstart rfl⟩ fun f op h => ?_
  obtain ⟨hgen, hrec⟩ : GenChange par f _ ∧ RecChange par f _ := step_change op
  exact ⟨h.1.change hgen, h.2.change hrec⟩

/-! ## Reading -/

section Read

variable {par : Params} {fns : Functions} {cnt : BitVec 16}

/-- Some of the streams of a function are read. -/
theorem fn2sidRead_eq (h : Registered par fns cnt) {fn : BitVec 16} {l : List (BitVec 16)} (hl : fns fn = some l)
    {pos n : Nat} (hn : 0 < n) (hpos : pos + n ≤ par.streamsMax) :
    fn2sidRead par fns ((fn.toNat * par.streamsMax + pos) * 2) (n * 2) =
      (((n * 2 : Nat) : Int), window (fun i => l[i]?.getD FRER_U16_INVALID) pos n) := by
  have hparams : Psfp.edgxSysfsListParams ((fn.toNat * par.streamsMax + pos) * 2) (n * 2) 2 =
      some (fn.toNat * par.streamsMax + pos, n) := by simp [Psfp.edgxSysfsListParams]
  have hdiv : (fn.toNat * par.streamsMax + pos) / par.streamsMax = fn.toNat := by
    rw [Nat.add_comm, Nat.add_mul_div_right _ _ (by omega), Nat.div_eq_of_lt (by omega), Nat.zero_add]
  have hmod : (fn.toNat * par.streamsMax + pos) % par.streamsMax = pos := by
    rw [Nat.add_comm, Nat.add_mul_mod_self_right, Nat.mod_eq_of_lt (by omega)]
  have hfn := (h.listed fn l hl).fn_lt
  have hkey : BitVec.ofNat 16 fn.toNat = fn := BitVec.eq_of_toNat_eq (Nat.mod_eq_of_lt fn.isLt)
  simp only [fn2sidRead, hparams, hdiv, hmod, hkey, hl]
  rw [if_neg (by omega), if_neg (by omega), copyLoop_pad]

/-- The streams of a function are not more than fit. -/
theorem Listed.length_le {fn : BitVec 16} {l : List (BitVec 16)} (h : Listed par fn l) : l.length ≤ par.streamsMax := by
  have hnodup : (l.map BitVec.toNat).Nodup := h.nodup.map fun _ _ => BitVec.eq_of_toNat_eq
  have hsub : l.map BitVec.toNat ⊆ List.range par.streamsMax := fun x hx => by
    obtain ⟨s, hs, rfl⟩ := List.mem_map.1 hx
    exact List.mem_range.2 (h.str_lt s hs)
  have hle := (hnodup.subperm hsub).length_le
  rwa [List.length_map, List.length_range] at hle

/-- No stream is the mark of the end. -/
theorem Listed.ne_invalid {fn : BitVec 16} {l : List (BitVec 16)} (h : Listed par fn l) {s : BitVec 16} (hs : s ∈ l) :
    s ≠ FRER_U16_INVALID := by
  have hlt : InTable s := Nat.lt_of_lt_of_le (h.str_lt s hs) par.streams_le
  exact hlt.ne_invalid

/-- All streams of a function are read, and marks of the end. -/
theorem mem_fn2sidRead (h : Registered par fns cnt) {s : BitVec 16} (hs : s.toNat < par.streamsMax) (fn : BitVec 16) :
    s ∈ (fn2sidRead par fns (fn.toNat * par.streamsMax * 2) (par.streamsMax * 2)).2 ↔ ∃ l, fns fn = some l ∧ s ∈ l := by
  have hpos : 0 < par.streamsMax := Nat.zero_lt_of_lt hs
  cases hl : fns fn with
  | some l =>
    have hlisted := h.listed fn l hl
    have hread := fn2sidRead_eq h hl hpos (Nat.zero_add par.streamsMax).le
    rw [Nat.add_zero] at hread
    have hin : InTable s := Nat.lt_of_lt_of_le hs par.streams_le
    rw [hread, mem_window_pad hlisted.length_le hin.ne_invalid]
    simp
  | none =>
    have hparams : Psfp.edgxSysfsListParams (fn.toNat * par.streamsMax * 2) (par.streamsMax * 2) 2 =
        some (fn.toNat * par.streamsMax, par.streamsMax) := by simp [Psfp.edgxSysfsListParams]
    have hkey : BitVec.ofNat 16 fn.toNat = fn := BitVec.eq_of_toNat_eq (Nat.mod_eq_of_lt fn.isLt)
    have hnil : (fn2sidRead par fns (fn.toNat * par.streamsMax * 2) (par.streamsMax * 2)).2 = [] := by
      simp only [fn2sidRead, hparams, Nat.mul_div_cancel _ hpos, hkey, hl]
      rw [if_neg (by omega)]
      split <;> rfl
    rw [hnil]
    refine iff_of_false List.not_mem_nil fun hex => ?_
    obtain ⟨_, hsome, _⟩ := hex
    cases hsome

end Read

/-! ## The function of a stream -/

section Sid2fn

variable {par : Params} {f : EdgxFrer} {s : BitVec 16}

/-- The function has the stream in its list. -/
def hasStr (f : EdgxFrer) (s fn : BitVec 16) : Bool := (f.genFns fn).any fun l => decide (s ∈ l)

theorem hasStr_iff {fn : BitVec 16} : hasStr f s fn = true ↔ ∃ l, f.genFns fn = some l ∧ s ∈ l := by
  simp [hasStr, Option.any_eq_true]

theorem hasStr_some {fn : BitVec 16} {n : SeqGen} (h : f.sgRoot fn = some n) : hasStr f s fn = decide (s ∈ n.sgList) := by
  rw [hasStr, genFns_some h, Option.any_some]

/-- The loop finds the last function with the stream. -/
theorem sid2fnLoop_eq (fns : List (BitVec 16)) (found : Option (BitVec 16)) :
    sid2fnLoop f s fns found = (fns.filter (hasStr f s)).getLast?.or found := by
  induction fns generalizing found with
  | nil => rfl
  | cons fn fns ih =>
    rw [sid2fnLoop, ih, List.filter_cons]
    cases hroot : f.sgRoot fn with
    | none =>
      have hnot : hasStr f s fn = false := by rw [hasStr, EdgxFrer.genFns, hroot, Option.map_none, Option.any_none]
      rw [hnot, if_neg Bool.false_ne_true]
    | some n =>
      rw [hasStr_some hroot]
      by_cases hmem : s ∈ n.sgList
      · simp only [hmem, if_true, decide_true, List.getLast?_cons]
        cases (fns.filter (hasStr f s)).getLast? <;> rfl
      · simp only [hmem, if_false, decide_false, Bool.false_eq_true]

theorem sid2fnLoop_iff {fn : BitVec 16} : sid2fnLoop f s (keys f.sgRoot) none = some fn ↔
    hasStr f s fn = true ∧ ∀ g, hasStr f s g = true → g.toNat ≤ fn.toNat := by
  have hmem (g : BitVec 16) : g ∈ (keys f.sgRoot).filter (hasStr f s) ↔ hasStr f s g = true := by
    rw [List.mem_filter, mem_keys]
    refine and_iff_right_of_imp fun h => ?_
    obtain ⟨l, hl, _⟩ := hasStr_iff.1 h
    obtain ⟨n, hn, _⟩ := Option.map_eq_some_iff.1 hl
    exact ⟨n, hn⟩
  rw [sid2fnLoop_eq, Option.or_none, getLast?_sorted ((keys_sorted f.sgRoot).filter (hasStr f s)), hmem]
  exact and_congr_right fun _ => forall_congr' fun g => imp_congr_left (hmem g)

theorem sid2fnLoop_none : sid2fnLoop f s (keys f.sgRoot) none = none ↔ ∀ fn, hasStr f s fn = false := by
  rw [sid2fnLoop_eq, Option.or_none, List.getLast?_eq_none_iff, List.filter_eq_nil_iff]
  refine ⟨fun h fn => Bool.eq_false_iff.2 fun hhas => ?_, fun h fn _ => Bool.eq_false_iff.1 (h fn)⟩
  obtain ⟨l, hl, _⟩ := hasStr_iff.1 hhas
  obtain ⟨n, hn, _⟩ := Option.map_eq_some_iff.1 hl
  exact h fn (mem_keys.2 ⟨n, hn⟩) hhas

/-- A read of a row in the table. -/
theorem seqgenSid2fnRead_eq (hs : s.toNat < par.streamsMax) :
    seqgenSid2fnRead par f (s.toNat * 2) 2 =
      ((if (f.tbl.rows s .tbl2).getLsbD 15 then (2, some (f.tbl.rows s .tbl2 &&& STRTBL_MASK))
        else match sid2fnLoop f s (keys f.sgRoot) none with
          | some fn => (2, some fn)
          | none => (-ENOENT, none)), { f with tbl := { f.tbl with regs := f.tbl.rows s } }) := by
  have hin : InTable s := Nat.lt_of_lt_of_le hs par.streams_le
  have hparams : Port.edgxSysfsTblParams (s.toNat * 2) 2 2 = some s.toNat := by
    rw [Port.edgxSysfsTblParams, Nat.mul_mod_left, if_neg (not_not.2 rfl), if_neg (not_not.2 rfl), Nat.mul_div_cancel _ Nat.two_pos]
  have hkey : BitVec.ofNat 16 s.toNat = s := BitVec.eq_of_toNat_eq (Nat.mod_eq_of_lt s.isLt)
  have hloop (tbl : StreamTbl) (fns : List (BitVec 16)) (found : Option (BitVec 16)) :
      sid2fnLoop { f with tbl } s fns found = sid2fnLoop f s fns found := by
    rw [sid2fnLoop_eq, sid2fnLoop_eq]
    rfl
  simp only [seqgenSid2fnRead, hparams, hkey, hin.rd, hloop]
  rw [if_neg (Nat.not_le.2 hs)]
  split
  · rfl
  · cases sid2fnLoop f s (keys f.sgRoot) none <;> rfl

theorem not_points_iff {w : BitVec 16} : (∀ g, ¬Points w g) ↔ w.getLsbD 15 = false := by
  refine ⟨fun h => Bool.eq_false_iff.2 fun hen => h _ ⟨hen, rfl⟩, fun h g hp => ?_⟩
  exact Bool.false_ne_true (h.symm.trans hp.1)

/-- The row tells the function, and the lists tell it where the row does not. -/
theorem seqgenSid2fnRead_some (hs : s.toNat < par.streamsMax) (fn : BitVec 16) :
    (seqgenSid2fnRead par f (s.toNat * 2) 2).1 = (2, some fn) ↔ Points (f.tbl.rows s .tbl2) fn ∨
      (∀ g, ¬Points (f.tbl.rows s .tbl2) g) ∧ sid2fnLoop f s (keys f.sgRoot) none = some fn := by
  rw [seqgenSid2fnRead_eq hs, not_points_iff, Points]
  cases (f.tbl.rows s .tbl2).getLsbD 15 with
  | true => simp
  | false => cases sid2fnLoop f s (keys f.sgRoot) none <;> simp

theorem seqgenSid2fnRead_none (hs : s.toNat < par.streamsMax) :
    (seqgenSid2fnRead par f (s.toNat * 2) 2).1 = (-ENOENT, none) ↔
      (∀ g, ¬Points (f.tbl.rows s .tbl2) g) ∧ sid2fnLoop f s (keys f.sgRoot) none = none := by
  rw [seqgenSid2fnRead_eq hs, not_points_iff]
  cases (f.tbl.rows s .tbl2).getLsbD 15 with
  | true => simp
  | false => cases sid2fnLoop f s (keys f.sgRoot) none <;> simp

/-- **A stream's function and a function's streams** are told alike, after every run of
calls that meet none of the defects of generation: the function that generates the stream,
or else the last one that has it in its list, and an error when none has. -/
theorem sid2fn_fn2sid {ops : List Op} (h : Guarded (step par) GenOk edgxProbeFrer ops) (hs : s.toNat < par.streamsMax) :
    let f := after (step par) edgxProbeFrer ops
    let r := seqgenSid2fnRead par f (s.toNat * 2) 2
    let listed := fun fn : BitVec 16 =>
      s ∈ (seqgenFn2sidRead par f (fn.toNat * par.streamsMax * 2) (par.streamsMax * 2)).2
    (∀ fn, r.1 = (2, some fn) ↔ listed fn ∧ (Points (f.tbl.rows s .tbl2) fn ∨
      (∀ g, ¬Points (f.tbl.rows s .tbl2) g) ∧ ∀ g, listed g → g.toNat ≤ fn.toNat)) ∧
      (r.1 = (-ENOENT, none) ↔ ∀ fn, ¬listed fn) ∧ r.2.tbl.rows = f.tbl.rows ∧ r.2.fns = f.fns := by
  intro f r listed
  have hin : InTable s := Nat.lt_of_lt_of_le hs par.streams_le
  have hlisted (fn : BitVec 16) : hasStr f s fn = true ↔ listed fn :=
    hasStr_iff.trans (mem_fn2sidRead (registered_after par ops).1 hs fn).symm
  -- A function that generates the stream has it in its list.
  have hpoints (fn : BitVec 16) (hp : Points (f.tbl.rows s .tbl2) fn) : listed fn := by
    obtain ⟨n, hn, _, hmem⟩ := ((genInv_after h).1.row s hin fn).1 hp
    exact (hlisted fn).1 (hasStr_iff.2 ⟨n.sgList, genFns_some hn, hmem⟩)
  have hr : r = _ := seqgenSid2fnRead_eq hs
  refine ⟨fun fn => ?_, ?_, congrArg (fun x => x.2.tbl.rows) hr, congrArg (fun x => x.2.fns) hr⟩
  · rw [seqgenSid2fnRead_some hs, sid2fnLoop_iff]
    simp only [hlisted]
    rw [and_or_left, and_iff_right_of_imp (hpoints fn), and_left_comm]
  · rw [seqgenSid2fnRead_none hs, sid2fnLoop_none]
    simp only [Bool.eq_false_iff, ne_eq, hlisted]
    exact and_iff_right_of_imp fun hnone g hp => hnone g (hpoints g hp)

end Sid2fn

/-- Two functions have stream 5, and the first generates it. -/
theorem sid2fn_fn2sid_shared :
    let f := after (step .threePorts) edgxProbeFrer [.sg (.create 0 true), .sg (.create 1 true), .sg (.addStr 5 0 true),
      .sg (.addStr 5 1 true), .sg (.addDir 0 0)]
    (∀ fn, (seqgenSid2fnRead .threePorts f 10 2).1 = (2, some fn) ↔
      5#16 ∈ (seqgenFn2sidRead .threePorts f (fn.toNat * 16 * 2) (16 * 2)).2 ∧ (Points (f.tbl.rows 5 .tbl2) fn ∨
        (∀ g, ¬Points (f.tbl.rows 5 .tbl2) g) ∧
          ∀ g : BitVec 16, 5#16 ∈ (seqgenFn2sidRead .threePorts f (g.toNat * 16 * 2) (16 * 2)).2 → g.toNat ≤ fn.toNat)) :=
  (sid2fn_fn2sid (s := 5) (by decide +kernel) (by decide)).1

end TsnSwitch.Frer
