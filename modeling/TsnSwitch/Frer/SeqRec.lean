/-
Sequence recovery (edge_frer.c). A function has parameters and a list of
streams. When the parameters are set and the list is not empty, the function
is written to its table and to table 3 of its streams.

Most calls change a parameter and apply the function with FRER_U16_INVALID
for the stream, which the driver also uses as a handle: the command for it has
bit 14 set, and tells of the registers as they are.
-/
import TsnSwitch.Frer.State

namespace TsnSwitch.Frer

def SEQREC_MAX_HISTL : BitVec 8 := 0xF
def SEQREC_MIN_HISTL : BitVec 8 := 0x2

def EdgxFrer.setRec (f : EdgxFrer) (fnidx : BitVec 16) (sr : Option SeqRec) : EdgxFrer :=
  { f with srRoot := Function.update f.srRoot fnidx sr }

@[simp] theorem EdgxFrer.setRec_tbl (f : EdgxFrer) (fnidx : BitVec 16) (sr : Option SeqRec) :
    (f.setRec fnidx sr).tbl = f.tbl := rfl

@[simp] theorem EdgxFrer.setRec_srRoot (f : EdgxFrer) (fnidx : BitVec 16) (sr : Option SeqRec) :
    (f.setRec fnidx sr).srRoot = Function.update f.srRoot fnidx sr := rfl

/-- The largest index with a time of at least `val`, or 0. -/
def firstBigger (par : Params) (val : BitVec 16) : BitVec 8 :=
  match (List.finRange 16).reverse.find? fun i => decide (¬ par.seqrecRst i < val) with
  | some i => BitVec.ofNat 8 i.val
  | none => 0

def seqrecCheckDir (dir : BitVec 8) : Int := if dir ≠ DIR_IN_FAC then -EINVAL else 0

def seqrecCheckBool (val : BitVec 8) : Int := if val > 0x1 then -EINVAL else 0

def seqrecCheckRcvRst (par : Params) (rcvrst : BitVec 16) : Int := if rcvrst > par.seqrecRst 0 then -EINVAL else 0

def seqrecCheckHistl (histl : BitVec 8) : Int :=
  if histl > SEQREC_MAX_HISTL ∨ histl < SEQREC_MIN_HISTL then -EINVAL else 0

def seqrecCheckAlg (alg : BitVec 8) : Int := if alg > 1 then -EINVAL else 0

def RecAlg.val : RecAlg → BitVec 16
  | .vect => 0
  | .match => 1
  | .unknown => 2

/-- `_seqrec_all_set`. -/
def SeqRec.allSet (sr : SeqRec) : Bool :=
  sr.alg ≠ .unknown ∧ sr.rcvRst ≠ FRER_U16_INVALID ∧ sr.ptmask ≠ 0 ∧ sr.indRec ≠ FRER_BOOL_INVALID ∧
    sr.latErr ≠ FRER_BOOL_INVALID ∧ sr.takeNoSeq ≠ FRER_BOOL_INVALID ∧ sr.dir ≠ .unknown ∧ sr.srList ≠ []

def seqrecCalcCfgVal (sr : SeqRec) (agingRate : BitVec 8) : BitVec 16 :=
  (sr.histLen.setWidth 16 &&& 0x1F) ||| ((sr.alg.val &&& 0x1) <<< 5) ||| ((sr.indRec.setWidth 16 &&& 0x1) <<< 6) |||
    ((sr.takeNoSeq.setWidth 16 &&& 0x1) <<< 7) ||| ((agingRate.setWidth 16 &&& 0xf) <<< 12)

def seqrecWriteTblErr (h : StreamTbl) (str fnidx : BitVec 16) : Int × StreamTbl :=
  let (enabled, h) := edgxFrerSeqfnEnabled h str .tbl3
  if enabled then
    let (reg, h) := edgxFrerIpRdStrtbl h str .tbl3
    if reg &&& 0xFFF ≠ fnidx then (-EBUSY, h) else (0, h)
  else (0, h)

/-- Write `l`, unless `str` has another function. -/
def seqrecWrite (fnidx str : BitVec 16) (del : Bool) (h : StreamTbl) (l : BitVec 16) : StreamTbl :=
  let (err, h) := seqrecWriteTblErr h str fnidx
  if err = 0 then edgxFrerIpWrStrtbl h l fnidx .tbl3 del else h

/-- Apply function `fnidx`, which is `sr` now. -/
def edgxFrerSeqrecApply (par : Params) (f : EdgxFrer) (fnidx : BitVec 16) (sr : SeqRec) (str : BitVec 16) (del : Bool) :
    EdgxFrer :=
  let f := f.setRec fnidx (some sr)
  if sr.allSet || del then
    let val := seqrecCalcCfgVal sr (firstBigger par sr.rcvRst)
    if !sr.seqrecCfgApplied then
      -- the check of each stream is one of `str`
      { f with seqrecTbl := Function.update f.seqrecTbl fnidx val
               tbl := sr.srList.foldl (seqrecWrite fnidx str del) f.tbl }.setRec fnidx
        (some { sr with seqrecCfgApplied := true })
    else if str ≠ FRER_U16_INVALID then { f with tbl := seqrecWrite fnidx str del f.tbl str }
    else { f with seqrecTbl := Function.update f.seqrecTbl fnidx val }
  else f

/-- Change parameters of a function that exists, and apply it. -/
def EdgxFrer.setParam (par : Params) (f : EdgxFrer) (fnidx : BitVec 16) (g : SeqRec → SeqRec) : Int × EdgxFrer :=
  match f.srRoot fnidx with
  | none => (-ENOENT, f)
  | some sr => (0, edgxFrerSeqrecApply par f fnidx (g sr) FRER_U16_INVALID false)

def edgxFrerSeqrecAddport (par : Params) (ptid : Port) (fnidx : BitVec 16) (f : EdgxFrer) : Int × EdgxFrer :=
  if edgxFrerCheckPort par ptid ≠ 0 then (-EINVAL, f)
  else f.setParam par fnidx fun sr => { sr with ptmask := sr.ptmask ||| bit ptid }

/-- Does not apply the function. -/
def edgxFrerSeqrecDelport (par : Params) (ptid : Port) (fnidx : BitVec 16) (f : EdgxFrer) : Int × EdgxFrer :=
  if edgxFrerCheckPort par ptid ≠ 0 then (-EINVAL, f)
  else
    match f.srRoot fnidx with
    | none => (-ENOENT, f)
    | some sr => (0, f.setRec fnidx (some { sr with ptmask := sr.ptmask &&& ~~~bit ptid }))

def edgxFrerSeqrecDelstr (par : Params) (f : EdgxFrer) (str fn : BitVec 16) : Int × EdgxFrer :=
  if edgxFrerCheckStrhdl par str ≠ 0 then (-EINVAL, f)
  else
    match f.srRoot fn with
    | none => (-ENOENT, f)
    | some sr =>
      if str ∈ sr.srList then
        (0, edgxFrerSeqrecApply par f fn { sr with srList := sr.srList.erase str } str true)
      else (-ENOENT, f)

/-- The loop of `edgx_frer_seqrec_delfn` over the rest of the list. -/
def delfnList (par : Params) (fnidx : BitVec 16) : List (BitVec 16) → EdgxFrer → EdgxFrer
  | [], f => f
  | l :: ls, f =>
    match f.srRoot fnidx with
    | none => f
    | some sr =>
      let f := edgxFrerSeqrecApply par f fnidx sr l true
      delfnList par fnidx ls (f.setRec fnidx ((f.srRoot fnidx).map fun sr => { sr with srList := ls }))

def edgxFrerSeqrecDelfn (par : Params) (fnidx : BitVec 16) (f : EdgxFrer) : Int × EdgxFrer :=
  match f.srRoot fnidx with
  | none => (-ENOENT, f)
  | some sr =>
    let f := delfnList par fnidx sr.srList f
    (0, { f with seqreccnt := f.seqreccnt - 1 }.setRec fnidx none)

/-- The parameters that are true or false. -/
inductive RecBool where
  | noSeq
  | indRec
  | latErr
  deriving DecidableEq

def edgxFrerSeqrecSetRbtBool (par : Params) (f : EdgxFrer) (val : BitVec 8) (fnidx : BitVec 16) (field : RecBool) :
    Int × EdgxFrer :=
  if seqrecCheckBool val ≠ 0 then (-EINVAL, f)
  else
    match f.srRoot fnidx with
    | none => (-ENOENT, f)
    | some sr =>
      match field with
      | .noSeq => f.setParam par fnidx fun sr => { sr with takeNoSeq := val }
      | .indRec =>
        if val = 0 ∨ sr.latErr = 0 then f.setParam par fnidx fun sr => { sr with indRec := val } else (-EINVAL, f)
      | .latErr =>
        if val = 0 ∨ sr.indRec = 0 then f.setParam par fnidx fun sr => { sr with latErr := val } else (-EINVAL, f)

/-- Latent error detection is not supported, but can be set to false. -/
def seqrecLatentErrWrite (par : Params) (f : EdgxFrer) (val : BitVec 8) (fnidx : BitVec 16) : Int × EdgxFrer :=
  if val ≠ 0 then (-EPERM, f) else edgxFrerSeqrecSetRbtBool par f val fnidx .latErr

def edgxFrerSeqrecSetAlg (par : Params) (f : EdgxFrer) (alg : BitVec 8) (fnidx : BitVec 16) : Int × EdgxFrer :=
  if seqrecCheckAlg alg ≠ 0 then (-EINVAL, f)
  else f.setParam par fnidx fun sr => { sr with alg := if alg = 0 then .vect else .match }

def edgxFrerSeqrecSetRrst (par : Params) (f : EdgxFrer) (rrst fnidx : BitVec 16) : Int × EdgxFrer :=
  if seqrecCheckRcvRst par rrst ≠ 0 then (-EINVAL, f) else f.setParam par fnidx fun sr => { sr with rcvRst := rrst }

def edgxFrerSeqrecSetHistl (par : Params) (f : EdgxFrer) (hl : BitVec 8) (fnidx : BitVec 16) : Int × EdgxFrer :=
  if seqrecCheckHistl hl ≠ 0 then (-EINVAL, f) else f.setParam par fnidx fun sr => { sr with histLen := hl }

def edgxFrerSeqrecAdddir (par : Params) (f : EdgxFrer) (dir : BitVec 8) (fnidx : BitVec 16) : Int × EdgxFrer :=
  if seqrecCheckDir dir ≠ 0 then (-EINVAL, f) else f.setParam par fnidx fun sr => { sr with dir := .inFac }

def edgxFrerSeqrecAddstr (par : Params) (f : EdgxFrer) (str fnidx : BitVec 16) (alloc : Bool) : Int × EdgxFrer :=
  if edgxFrerCheckStrhdl par str ≠ 0 then (-EINVAL, f)
  else
    match f.srRoot fnidx with
    | none => (-ENOENT, f)
    | some sr =>
      if str ∉ sr.srList ∧ alloc = false then (-ENOMEM, f)
      else
        let sr := if str ∈ sr.srList then sr else { sr with srList := sr.srList ++ [str] }
        (0, edgxFrerSeqrecApply par f fnidx sr str false)

def edgxFrerSeqrecCreate (par : Params) (f : EdgxFrer) (fnidx : BitVec 16) (alloc : Bool) : Int × EdgxFrer :=
  if edgxFrerCheckFnidx par fnidx ≠ 0 then (-EINVAL, f)
  else if (f.srRoot fnidx).isSome then (-EBUSY, f)
  else if alloc = false then (-ENOMEM, f)
  else (0, { f with seqreccnt := f.seqreccnt + 1 }.setRec fnidx (some { histLen := SEQREC_MIN_HISTL }))

/-! ## The check of a stream -/

/-- A stream to check, or none. -/
def Checkable (str : BitVec 16) : Prop := InTable str ∨ str = FRER_U16_INVALID

/-- What a check of `str` looks at: its row, or the registers as they are. -/
def StreamTbl.looked (h : StreamTbl) (str : BitVec 16) : Row := if str = FRER_U16_INVALID then h.regs else h.rows str

/-- The check of `str` finds no other function. -/
def Passes (h : StreamTbl) (str fnidx : BitVec 16) : Prop := ¬ Conflict (h.looked str .tbl3) fnidx

theorem InTable.ne_invalid {s : BitVec 16} (hs : InTable s) : s ≠ FRER_U16_INVALID := by
  rintro rfl
  exact absurd hs (by decide)

/-- The row that the command for FRER_U16_INVALID writes is not in the table. -/
theorem InTable.ne_last {s : BitVec 16} (hs : InTable s) : s ≠ 0x3FFF := by
  rintro rfl
  exact absurd hs (by decide)

section Check

variable {h : StreamTbl} {str fnidx : BitVec 16}

theorem looked_inTable (hs : InTable str) : h.looked str = h.rows str := if_neg hs.ne_invalid

/-- A check leaves the table alone and what it looked at in the registers. -/
theorem rd_checkable (hs : Checkable str) (h : StreamTbl) (tbl : Tbl) :
    (edgxFrerIpRdStrtbl h str tbl).1 = h.looked str tbl ∧ (edgxFrerIpRdStrtbl h str tbl).2.regs = h.looked str ∧
      ∀ s, InTable s → (edgxFrerIpRdStrtbl h str tbl).2.rows s = h.rows s := by
  rcases hs with hs | rfl
  · rw [hs.rd, looked_inTable hs]
    exact ⟨rfl, rfl, fun _ _ => rfl⟩
  · exact ⟨rfl, rfl, fun s hs => Function.update_of_ne hs.ne_last ..⟩

theorem looked_rd (hs : Checkable str) (h : StreamTbl) (tbl : Tbl) :
    (edgxFrerIpRdStrtbl h str tbl).2.looked str = h.looked str := by
  obtain ⟨_, hregs, hrows⟩ := rd_checkable hs h tbl
  rcases hs with hs | rfl
  · rw [looked_inTable hs, looked_inTable hs, hrows str hs]
  · exact hregs

theorem seqrecWriteTblErr_spec (hs : Checkable str) (h : StreamTbl) (fnidx : BitVec 16) :
    ((seqrecWriteTblErr h str fnidx).1 = 0 ↔ Passes h str fnidx) ∧
      (seqrecWriteTblErr h str fnidx).2.regs = h.looked str ∧
      ∀ s, InTable s → (seqrecWriteTblErr h str fnidx).2.rows s = h.rows s := by
  obtain ⟨hval, hregs, hrows⟩ := rd_checkable hs h .tbl3
  have hlook := looked_rd hs h .tbl3
  unfold seqrecWriteTblErr edgxFrerSeqfnEnabled
  dsimp only
  generalize edgxFrerIpRdStrtbl h str .tbl3 = r at hval hregs hrows hlook
  obtain ⟨hval', hregs', hrows'⟩ := rd_checkable hs r.2 .tbl3
  rw [hlook] at hval' hregs'
  rw [hval, hval']
  unfold Passes Conflict
  by_cases hen : (h.looked str .tbl3).getLsbD 15 = true
  · rw [if_pos hen]
    have hall : ∀ s, InTable s → (edgxFrerIpRdStrtbl r.2 str .tbl3).2.rows s = h.rows s := fun s hs =>
      (hrows' s hs).trans (hrows s hs)
    split
    · rename_i hne
      have hbusy : -EBUSY ≠ 0 := by decide
      exact ⟨⟨fun h0 => absurd h0 hbusy, fun hp => absurd ⟨hen, hne⟩ hp⟩, hregs', hall⟩
    · rename_i heq
      exact ⟨⟨fun _ hc => heq hc.2, fun _ => rfl⟩, hregs', hall⟩
  · rw [if_neg hen]
    exact ⟨⟨fun _ hc => hen hc.1, fun _ => rfl⟩, hregs, hrows⟩

/-- The value that is written is of the function itself. -/
theorem not_conflict_wrVal (hfn : InTable fnidx) (del : Bool) : ¬ Conflict (wrVal fnidx .tbl3 del) fnidx := by
  cases del with
  | false => exact (points_set hfn).not_conflict
  | true =>
    have hoff : (wrVal fnidx .tbl3 true).getLsbD 15 = false := clear_disabled fnidx
    exact fun hc => Bool.false_ne_true (hoff.symm.trans hc.1)

/-- What a sequence of writes does: the streams of `ls` have the value, and
the check passes again. -/
structure Wrote (fnidx str : BitVec 16) (del : Bool) (ls : List (BitVec 16)) (h h' : StreamTbl) : Prop where
  written : ∀ s ∈ ls, InTable s → h'.rows s .tbl3 = wrVal fnidx .tbl3 del
  kept : ∀ s, InTable s → ∀ t, s ∉ ls ∨ t ≠ .tbl3 → h'.rows s t = h.rows s t
  passes : Passes h' str fnidx

theorem seqrecWrite_wrote (hs : Checkable str) (hfn : InTable fnidx) (hp : Passes h str fnidx) (del : Bool)
    {l : BitVec 16} (hl : InTable l) : Wrote fnidx str del [l] h (seqrecWrite fnidx str del h l) := by
  obtain ⟨hret, _, hrows⟩ := seqrecWriteTblErr_spec hs h fnidx
  unfold seqrecWrite
  dsimp only
  rw [if_pos (hret.2 hp), hl.wr]
  generalize (seqrecWriteTblErr h str fnidx).2 = h₁ at hrows
  refine ⟨fun s hmem _ => ?_, fun s hx t ht => ?_, ?_⟩
  · rw [StreamTbl.setWord_rows, if_pos ⟨List.mem_singleton.1 hmem, rfl⟩]
  · rw [StreamTbl.setWord_rows, if_neg, hrows s hx]
    rintro ⟨rfl, rfl⟩
    exact ht.elim (fun h => h List.mem_cons_self) fun h => h rfl
  · rcases hs with hs | rfl
    · rw [Passes, looked_inTable hs, StreamTbl.setWord_rows]
      split
      · exact not_conflict_wrVal hfn del
      · rw [hrows str hs, ← looked_inTable hs]
        exact hp
    · have hregs : (h₁.setWord l .tbl3 (wrVal fnidx .tbl3 del)).regs .tbl3 = wrVal fnidx .tbl3 del := by
        simp only [StreamTbl.setWord, Function.update_self]
      rw [Passes, StreamTbl.looked, if_pos rfl, hregs]
      exact not_conflict_wrVal hfn del

theorem foldl_seqrecWrite (hs : Checkable str) (hfn : InTable fnidx) (hp : Passes h str fnidx) (del : Bool)
    {ls : List (BitVec 16)} (hls : ∀ s ∈ ls, InTable s) :
    Wrote fnidx str del ls h (ls.foldl (seqrecWrite fnidx str del) h) := by
  induction ls generalizing h with
  | nil => exact ⟨fun s hmem => (nomatch hmem), fun _ _ _ _ => rfl, hp⟩
  | cons l ls ih =>
    have h1 := seqrecWrite_wrote hs hfn hp del (hls l List.mem_cons_self)
    have h2 := ih h1.passes fun s hmem => hls s (List.mem_cons_of_mem l hmem)
    refine ⟨fun s hmem hx => ?_, fun s hx t ht => ?_, h2.passes⟩
    · by_cases hrest : s ∈ ls
      · exact h2.written s hrest hx
      · obtain rfl := (List.mem_cons.1 hmem).resolve_right hrest
        exact (h2.kept s hx .tbl3 (.inl hrest)).trans (h1.written s List.mem_cons_self hx)
    · refine (h2.kept s hx t ?_).trans (h1.kept s hx t ?_)
      · exact ht.imp_left fun h hrest => h (List.mem_cons_of_mem l hrest)
      · exact ht.imp_left fun h hl => h (List.mem_cons.2 (.inl (List.mem_singleton.1 hl)))

end Check

/-! ## What the calls do -/

/-- The lists of recovery functions hold handles of rows. -/
def RecHandles (f : EdgxFrer) : Prop := ∀ fn sr, f.srRoot fn = some sr → ∀ s ∈ sr.srList, InTable s

/-- The function with the stream in its list. -/
def SeqRec.withStr (sr : SeqRec) (str : BitVec 16) : SeqRec :=
  if str ∈ sr.srList then sr else { sr with srList := sr.srList ++ [str] }

section Cases

theorem setParam_cases (par : Params) (f : EdgxFrer) (fnidx : BitVec 16) (g : SeqRec → SeqRec) :
    let r := f.setParam par fnidx g
    r.1 ≠ 0 ∧ r.2 = f ∨ ∃ sr, f.srRoot fnidx = some sr ∧
      r = (0, edgxFrerSeqrecApply par f fnidx (g sr) FRER_U16_INVALID false) := by
  intro r
  have hr : r = f.setParam par fnidx g := rfl
  unfold EdgxFrer.setParam at hr
  cases hroot : f.srRoot fnidx with
  | none =>
    rw [hroot] at hr
    exact .inl (refused (by decide) hr)
  | some sr =>
    rw [hroot] at hr
    exact .inr ⟨sr, rfl, hr⟩

theorem seqrecCreate_cases (par : Params) (f : EdgxFrer) (fnidx : BitVec 16) (alloc : Bool) :
    let r := edgxFrerSeqrecCreate par f fnidx alloc
    r.1 ≠ 0 ∧ r.2 = f ∨ InTable fnidx ∧ f.srRoot fnidx = none ∧
      r = (0, { f with seqreccnt := f.seqreccnt + 1 }.setRec fnidx (some { histLen := SEQREC_MIN_HISTL })) := by
  intro r
  have hr : r = edgxFrerSeqrecCreate par f fnidx alloc := rfl
  unfold edgxFrerSeqrecCreate at hr
  by_cases hchk : edgxFrerCheckFnidx par fnidx = 0
  · rw [if_neg (not_not.2 hchk)] at hr
    cases hroot : f.srRoot fnidx with
    | some sr =>
      rw [hroot, if_pos (by rfl)] at hr
      exact .inl (refused (by decide) hr)
    | none =>
      rw [hroot, if_neg (by decide)] at hr
      cases alloc with
      | false =>
        rw [if_pos rfl] at hr
        exact .inl (refused (by decide) hr)
      | true => exact .inr ⟨inTable_of_checkFnidx hchk, rfl, hr⟩
  · rw [if_pos hchk] at hr
    exact .inl (refused (by decide) hr)

theorem seqrecDelport_cases (par : Params) (ptid : Port) (fnidx : BitVec 16) (f : EdgxFrer) :
    let r := edgxFrerSeqrecDelport par ptid fnidx f
    r.1 ≠ 0 ∧ r.2 = f ∨ ∃ sr, f.srRoot fnidx = some sr ∧ edgxFrerCheckPort par ptid = 0 ∧
      r = (0, f.setRec fnidx (some { sr with ptmask := sr.ptmask &&& ~~~bit ptid })) := by
  intro r
  have hr : r = edgxFrerSeqrecDelport par ptid fnidx f := rfl
  unfold edgxFrerSeqrecDelport at hr
  by_cases hchk : edgxFrerCheckPort par ptid = 0
  · rw [if_neg (not_not.2 hchk)] at hr
    cases hroot : f.srRoot fnidx with
    | none =>
      rw [hroot] at hr
      exact .inl (refused (by decide) hr)
    | some sr =>
      rw [hroot] at hr
      exact .inr ⟨sr, rfl, hchk, hr⟩
  · rw [if_pos hchk] at hr
    exact .inl (refused (by decide) hr)

theorem seqrecAddstr_cases (par : Params) (f : EdgxFrer) (str fnidx : BitVec 16) (alloc : Bool) :
    let r := edgxFrerSeqrecAddstr par f str fnidx alloc
    r.1 ≠ 0 ∧ r.2 = f ∨ edgxFrerCheckStrhdl par str = 0 ∧ ∃ sr, f.srRoot fnidx = some sr ∧
      (str ∉ sr.srList → alloc = true) ∧ r = (0, edgxFrerSeqrecApply par f fnidx (sr.withStr str) str false) := by
  intro r
  have hr : r = edgxFrerSeqrecAddstr par f str fnidx alloc := rfl
  unfold edgxFrerSeqrecAddstr at hr
  by_cases hchk : edgxFrerCheckStrhdl par str = 0
  · rw [if_neg (not_not.2 hchk)] at hr
    cases hroot : f.srRoot fnidx with
    | none =>
      rw [hroot] at hr
      exact .inl (refused (by decide) hr)
    | some sr =>
      rw [hroot] at hr
      dsimp only at hr
      split at hr
      · exact .inl (refused (by decide) hr)
      · rename_i halloc
        refine .inr ⟨hchk, sr, rfl, fun hmem => ?_, hr⟩
        cases alloc with
        | true => rfl
        | false => exact absurd ⟨hmem, rfl⟩ halloc
  · rw [if_pos hchk] at hr
    exact .inl (refused (by decide) hr)

theorem seqrecDelstr_cases (par : Params) (f : EdgxFrer) (str fnidx : BitVec 16) :
    let r := edgxFrerSeqrecDelstr par f str fnidx
    r.1 ≠ 0 ∧ r.2 = f ∨ InTable str ∧ ∃ sr, f.srRoot fnidx = some sr ∧ str ∈ sr.srList ∧
      r = (0, edgxFrerSeqrecApply par f fnidx { sr with srList := sr.srList.erase str } str true) := by
  intro r
  have hr : r = edgxFrerSeqrecDelstr par f str fnidx := rfl
  unfold edgxFrerSeqrecDelstr at hr
  by_cases hchk : edgxFrerCheckStrhdl par str = 0
  · rw [if_neg (not_not.2 hchk)] at hr
    cases hroot : f.srRoot fnidx with
    | none =>
      rw [hroot] at hr
      exact .inl (refused (by decide) hr)
    | some sr =>
      rw [hroot] at hr
      dsimp only at hr
      split at hr
      · rename_i hmem
        exact .inr ⟨inTable_of_checkStrhdl hchk, sr, rfl, hmem, hr⟩
      · exact .inl (refused (by decide) hr)
  · rw [if_pos hchk] at hr
    exact .inl (refused (by decide) hr)

theorem seqrecDelfn_cases (par : Params) (fnidx : BitVec 16) (f : EdgxFrer) :
    let r := edgxFrerSeqrecDelfn par fnidx f
    r.1 ≠ 0 ∧ r.2 = f ∨ ∃ sr, f.srRoot fnidx = some sr ∧
      let f₁ := delfnList par fnidx sr.srList f
      r = (0, { f₁ with seqreccnt := f₁.seqreccnt - 1 }.setRec fnidx none) := by
  intro r
  have hr : r = edgxFrerSeqrecDelfn par fnidx f := rfl
  unfold edgxFrerSeqrecDelfn at hr
  cases hroot : f.srRoot fnidx with
  | none =>
    rw [hroot] at hr
    exact .inl (refused (by decide) hr)
  | some sr =>
    rw [hroot] at hr
    exact .inr ⟨sr, rfl, hr⟩

end Cases

end TsnSwitch.Frer
