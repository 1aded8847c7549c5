/-
Recovery rows: table 3 of a stream has function `fn` just when the function's
parameters are set and the stream is in its list, and a stream is in one list
at most (`recovered_of_ok`), after every run in which no call meets one of the
defects:

  - an add-stream does not ask whether another function has the stream;
  - the first write of the rows checks, for each of them, not the row itself
    but the stream of the call, and in a call without one the registers as
    they are;
  - a delete-stream marks the configuration as written when it is not, and the
    rows of the other streams are not written later;
  - a deleted port, or a reset time that means none, leaves the rows enabled;
  - a command for a handle with bit 14 set writes a row (`Addressed`).
-/
import TsnSwitch.Frer.Frames

namespace TsnSwitch.Frer

open Lib

/-! ## The property -/

/-- Each row has the function that recovers the stream, and a stream is in
one list at most. -/
structure RecExact (par : Params) (f : EdgxFrer) : Prop where
  row : ∀ s, s.toNat < par.streamsMax → ∀ fn, Points (f.tbl.rows s .tbl3) fn ↔
    ∃ sr, f.srRoot fn = some sr ∧ sr.allSet = true ∧ s ∈ sr.srList
  unique : ∀ s fn fn' sr sr', f.srRoot fn = some sr → s ∈ sr.srList → f.srRoot fn' = some sr' → s ∈ sr'.srList →
    fn = fn'

/-- What the rows depend on: the lists, and whether the parameters are set. -/
def EdgxFrer.recCfg (f : EdgxFrer) (fn : BitVec 16) : Option (Bool × List (BitVec 16)) :=
  (f.srRoot fn).map fun sr => (sr.allSet, sr.srList)

/-- The function a call is for. -/
def RecOp.target : RecOp → BitVec 16
  | .create fnidx _ => fnidx
  | .param _ fnidx => fnidx
  | .delPort _ fnidx => fnidx
  | .addStr _ fnidx _ => fnidx
  | .delStr _ fnidx => fnidx
  | .delFn fnidx => fnidx

/-- The parameter does not unset the function, and when it is the last one to
set, the function is not marked as written and the registers let it be. -/
def ParamOk (par : Params) (f : EdgxFrer) (p : RecParam) (fnidx : BitVec 16) : Prop :=
  ∀ sr ∈ f.srRoot fnidx, ∀ sr' ∈ p.set par sr, (sr.allSet = true → sr'.allSet = true) ∧
    (sr.allSet = false → sr'.allSet = true → sr.seqrecCfgApplied = false ∧ ¬ Conflict (f.tbl.regs .tbl3) fnidx)

instance (par : Params) (f : EdgxFrer) (p : RecParam) (fnidx : BitVec 16) : Decidable (ParamOk par f p fnidx) :=
  inferInstanceAs (Decidable (∀ _ ∈ _, ∀ _ ∈ _, _ ∧ _))

/-- The call meets none of the defects. -/
def RecOk (par : Params) (f : EdgxFrer) (op : Op) : Prop :=
  Addressed f op ∧
    match op with
    | .sr (.param p fnidx) => ParamOk par f p fnidx
    | .sr (.delPort ptid fnidx) => edgxFrerCheckPort par ptid = 0 → ∀ sr, f.srRoot fnidx = some sr →
      sr.allSet = true → sr.ptmask &&& ~~~bit ptid ≠ 0
    | .sr (.addStr str fnidx alloc) => edgxFrerCheckStrhdl par str = 0 → ∀ sr, f.srRoot fnidx = some sr →
      (str ∉ sr.srList → alloc = true) → ∀ fn sr', f.srRoot fn = some sr' → str ∈ sr'.srList → fn = fnidx
    | _ => True

/-! ## Applying a function -/

/-- With another list, the parameters are set as before. -/
theorem SeqRec.allSet_list {sr : SeqRec} {ls : List (BitVec 16)} :
    ({ sr with srList := ls }.allSet = true ∧ sr.srList ≠ []) ↔ (sr.allSet = true ∧ ls ≠ []) := by
  simp only [SeqRec.allSet, decide_eq_true_eq]
  tauto

theorem SeqRec.ne_nil_of_allSet {sr : SeqRec} (h : sr.allSet = true) : sr.srList ≠ [] := by
  simp only [SeqRec.allSet, decide_eq_true_eq] at h
  exact h.2.2.2.2.2.2.2

/-- The rows that are written when a function is applied. -/
def SeqRec.written (sr : SeqRec) (str : BitVec 16) : List (BitVec 16) :=
  if sr.seqrecCfgApplied = false then sr.srList else if str ≠ FRER_U16_INVALID then [str] else []

/-- The function is applied, and its rows written. -/
structure RecApplied (f : EdgxFrer) (fnidx : BitVec 16) (sr : SeqRec) (str : BitVec 16) (del : Bool) (f' : EdgxFrer) :
    Prop where
  root : f'.srRoot = Function.update f.srRoot fnidx (some { sr with seqrecCfgApplied := true })
  written : ∀ s, InTable s → s ∈ sr.written str → f'.tbl.rows s .tbl3 = wrVal fnidx .tbl3 del
  kept : ∀ s, InTable s → s ∉ sr.written str → f'.tbl.rows s .tbl3 = f.tbl.rows s .tbl3

theorem seqrecApply_applied (par : Params) (f : EdgxFrer) {fnidx : BitVec 16} {sr : SeqRec} {str : BitVec 16} (del : Bool)
    (hon : (sr.allSet || del) = true) (hs : Checkable str) (hfn : InTable fnidx) (hls : ∀ s ∈ sr.srList, InTable s)
    (hp : sr.written str ≠ [] → Passes f.tbl str fnidx) :
    RecApplied f fnidx sr str del (edgxFrerSeqrecApply par f fnidx sr str del) := by
  have hroot : sr.seqrecCfgApplied = true → { sr with seqrecCfgApplied := true } = sr := by
    intro h
    rw [← h]
  unfold SeqRec.written at hp
  unfold edgxFrerSeqrecApply
  dsimp only
  rw [if_pos hon]
  by_cases happ : sr.seqrecCfgApplied = false
  · have hw : sr.written str = sr.srList := if_pos happ
    rw [if_pos happ] at hp
    rw [happ, if_pos (by rfl)]
    by_cases hnil : sr.srList = []
    · refine ⟨Function.update_idem .., fun s _ hmem => ?_, fun s _ _ => ?_⟩
      · rw [hw, hnil] at hmem
        exact absurd hmem List.not_mem_nil
      · dsimp only [EdgxFrer.setRec]
        rw [hnil]
        rfl
    · have hwrote := foldl_seqrecWrite hs hfn (hp hnil) del hls
      refine ⟨Function.update_idem .., fun s hx hmem => ?_, fun s hx hmem => ?_⟩
      · exact hwrote.written s (hw ▸ hmem) hx
      · exact hwrote.kept s hx .tbl3 (.inl (hw ▸ hmem))
  · have happ' : sr.seqrecCfgApplied = true := by simpa using happ
    rw [if_neg happ] at hp
    rw [happ', if_neg (by decide)]
    by_cases hne : str ≠ FRER_U16_INVALID
    · have hw : sr.written str = [str] := by rw [SeqRec.written, if_neg happ, if_pos hne]
      rw [if_pos hne] at hp ⊢
      have hwrote := seqrecWrite_wrote hs hfn (hp (List.cons_ne_nil str [])) del (hs.resolve_right hne)
      refine ⟨by rw [hroot happ']; rfl, fun s hx hmem => ?_, fun s hx hmem => ?_⟩
      · exact hwrote.written s (hw ▸ hmem) hx
      · exact hwrote.kept s hx .tbl3 (.inl (hw ▸ hmem))
    · have hw : sr.written str = [] := by rw [SeqRec.written, if_neg happ, if_neg hne]
      rw [if_neg hne]
      refine ⟨by rw [hroot happ']; rfl, fun s _ hmem => ?_, fun s _ _ => rfl⟩
      rw [hw] at hmem
      exact absurd hmem List.not_mem_nil

/-- The loop of a delete-function clears the rows of its list. -/
theorem delfnList_rows (par : Params) {fnidx : BitVec 16} (hfn : InTable fnidx) {ls : List (BitVec 16)} {f : EdgxFrer}
    {sr : SeqRec} (hsr : f.srRoot fnidx = some sr) (hlist : sr.srList = ls) (hls : ∀ s ∈ ls, InTable s)
    (hfree : ∀ s ∈ ls, ¬ Conflict (f.tbl.rows s .tbl3) fnidx) :
    let f' := delfnList par fnidx ls f
    (∀ g, g ≠ fnidx → f'.srRoot g = f.srRoot g) ∧ (∀ s ∈ ls, ∀ g, ¬ Points (f'.tbl.rows s .tbl3) g) ∧
      ∀ s, InTable s → s ∉ ls → f'.tbl.rows s .tbl3 = f.tbl.rows s .tbl3 := by
  induction ls generalizing f sr with
  | nil => exact ⟨fun _ _ => rfl, fun s hs => (nomatch hs), fun _ _ _ => rfl⟩
  | cons l ls ih =>
    intro f'
    have hl := hls l List.mem_cons_self
    have hls' : ∀ s ∈ ls, InTable s := fun s hs => hls s (List.mem_cons_of_mem l hs)
    have hpass : Passes f.tbl l fnidx := by
      rw [Passes, looked_inTable hl]
      exact hfree l List.mem_cons_self
    have happ : RecApplied f fnidx sr l true (edgxFrerSeqrecApply par f fnidx sr l true) :=
      seqrecApply_applied par f true (Bool.or_true _) (.inl hl) hfn (hlist ▸ hls) fun _ => hpass
    have hf' : f' = delfnList par fnidx (l :: ls) f := rfl
    rw [delfnList, hsr] at hf'
    dsimp only at hf'
    generalize edgxFrerSeqrecApply par f fnidx sr l true = f₁ at happ hf'
    have hmine : f₁.srRoot fnidx = some { sr with seqrecCfgApplied := true } := by
      rw [happ.root, Function.update_self]
    rw [hmine] at hf'
    have hin : l ∈ sr.written l := by
      unfold SeqRec.written
      split
      · rw [hlist]
        exact List.mem_cons_self
      · rw [if_pos hl.ne_invalid]
        exact List.mem_cons_self
    have hsub : ∀ s ∈ sr.written l, s ∈ l :: ls := fun s hs => by
      unfold SeqRec.written at hs
      split at hs
      · exact hlist ▸ hs
      · rw [if_pos hl.ne_invalid] at hs
        exact List.mem_cons.2 (.inl (List.mem_singleton.1 hs))
    obtain ⟨hroot, hclear, hkept⟩ := ih (f := f₁.setRec fnidx (some { sr with srList := ls, seqrecCfgApplied := true }))
      (Function.update_self ..) rfl hls' fun s hs => by
        by_cases hw : s ∈ sr.written l
        · rw [EdgxFrer.setRec_tbl, happ.written s (hls' s hs) hw]
          exact not_conflict_wrVal hfn true
        · rw [EdgxFrer.setRec_tbl, happ.kept s (hls' s hs) hw]
          exact hfree s (List.mem_cons_of_mem l hs)
    rw [show delfnList par fnidx ls (f₁.setRec fnidx (some { sr with srList := ls, seqrecCfgApplied := true })) = f' from
      hf'.symm] at hroot hclear hkept
    refine ⟨fun g hg => ?_, fun s hs g => ?_, fun s hx hs => ?_⟩
    · rw [hroot g hg, EdgxFrer.setRec_srRoot, Function.update_of_ne hg, happ.root, Function.update_of_ne hg]
    · by_cases hmem : s ∈ ls
      · exact hclear s hmem g
      · obtain rfl := (List.mem_cons.1 hs).resolve_right hmem
        rw [hkept s hl hmem, EdgxFrer.setRec_tbl, happ.written s hl hin]
        exact not_points_clear fnidx g
    · rw [hkept s hx fun h => hs (List.mem_cons_of_mem l h)]
      exact happ.kept s hx fun h => hs (hsub s h)

/-! ## The invariant -/

/-- Each row has the function that recovers its stream; a function that is
set is written; no two lists share a stream. -/
structure RecInv (f : EdgxFrer) : Prop where
  row : ∀ s, InTable s → ∀ fn, Points (f.tbl.rows s .tbl3) fn ↔
    ∃ sr, f.srRoot fn = some sr ∧ sr.allSet = true ∧ s ∈ sr.srList
  applied : ∀ fn sr, f.srRoot fn = some sr → sr.allSet = true → sr.seqrecCfgApplied = true
  fnidx : ∀ fn sr, f.srRoot fn = some sr → InTable fn
  nodup : ∀ fn sr, f.srRoot fn = some sr → sr.srList.Nodup
  unique : ∀ s fn fn' sr sr', f.srRoot fn = some sr → s ∈ sr.srList → f.srRoot fn' = some sr' → s ∈ sr'.srList →
    fn = fn'

theorem RecInv.init : RecInv edgxProbeFrer :=
  ⟨fun _ _ _ => ⟨fun h => absurd h (not_points_zero _), fun ⟨_, h, _⟩ => (nomatch h)⟩, fun _ _ h => (nomatch h),
    fun _ _ h => (nomatch h), fun _ _ h => (nomatch h), fun _ _ _ _ _ h => (nomatch h)⟩

section Inv

variable {f f' : EdgxFrer} {fn : BitVec 16} {sr sr' : SeqRec}

theorem RecInv.congr (hi : RecInv f) (hroot : f'.srRoot = f.srRoot) (hw : KeepsWord .tbl3 f.tbl f'.tbl) : RecInv f' where
  row s hs g := by rw [hw s hs, hroot]; exact hi.row s hs g
  applied := by rw [hroot]; exact hi.applied
  fnidx := by rw [hroot]; exact hi.fnidx
  nodup := by rw [hroot]; exact hi.nodup
  unique := by rw [hroot]; exact hi.unique

theorem RecInv.points (hi : RecInv f) (hsr : f.srRoot fn = some sr) {s : BitVec 16} (hs : InTable s) :
    Points (f.tbl.rows s .tbl3) fn ↔ sr.allSet = true ∧ s ∈ sr.srList := by
  rw [hi.row s hs fn, hsr]
  exact ⟨fun ⟨m, hm, h⟩ => by cases hm; exact h, fun h => ⟨sr, rfl, h⟩⟩

/-- A row has the function of a list with its stream. -/
theorem RecInv.owner (hi : RecInv f) (hsr : f.srRoot fn = some sr) {s : BitVec 16} (hs : InTable s) (hmem : s ∈ sr.srList)
    {g : BitVec 16} (hp : Points (f.tbl.rows s .tbl3) g) : g = fn := by
  obtain ⟨m, hm, _, hms⟩ := (hi.row s hs g).1 hp
  exact hi.unique s g fn m sr hm hms hsr hmem

/-- The check of a stream fails only for a stream of another function. -/
theorem RecInv.not_conflict (hi : RecInv f) {s : BitVec 16} (hs : InTable s)
    (hfree : ∀ g m, f.srRoot g = some m → s ∈ m.srList → g = fn) : ¬ Conflict (f.tbl.rows s .tbl3) fn := by
  rintro ⟨hen, hne⟩
  obtain ⟨m, hm, _, hms⟩ := (hi.row s hs _).1 ⟨hen, rfl⟩
  exact hne (hfree _ m hm hms)

/-- One function is replaced, and its rows with it. -/
theorem RecInv.set (hi : RecInv f) {o : Option SeqRec} (hroot : f'.srRoot = Function.update f.srRoot fn o)
    (hfn : InTable fn) (happ : ∀ m ∈ o, m.allSet = true → m.seqrecCfgApplied = true) (hnodup : ∀ m ∈ o, m.srList.Nodup)
    (hfree : ∀ m ∈ o, ∀ s ∈ m.srList, ∀ g n, f.srRoot g = some n → s ∈ n.srList → g = fn)
    (hrow : ∀ s, InTable s → (Points (f'.tbl.rows s .tbl3) fn ↔ ∃ m, o = some m ∧ m.allSet = true ∧ s ∈ m.srList) ∧
      ∀ g, g ≠ fn → (Points (f'.tbl.rows s .tbl3) g ↔ Points (f.tbl.rows s .tbl3) g)) : RecInv f' := by
  have hself : f'.srRoot fn = o := by rw [hroot, Function.update_self]
  have hother : ∀ g, g ≠ fn → f'.srRoot g = f.srRoot g := fun g hg => by rw [hroot, Function.update_of_ne hg]
  constructor
  case row =>
    intro s hs g
    by_cases hg : g = fn
    · rw [hg, hself]
      exact (hrow s hs).1
    · rw [hother g hg, (hrow s hs).2 g hg]
      exact hi.row s hs g
  case applied =>
    intro g m hm
    by_cases hg : g = fn
    · exact happ m (by rw [← hself, ← hg]; exact hm)
    · exact hi.applied g m (by rw [← hother g hg]; exact hm)
  case fnidx =>
    intro g m hm
    by_cases hg : g = fn
    · rw [hg]
      exact hfn
    · exact hi.fnidx g m (by rw [← hother g hg]; exact hm)
  case nodup =>
    intro g m hm
    by_cases hg : g = fn
    · exact hnodup m (by rw [← hself, ← hg]; exact hm)
    · exact hi.nodup g m (by rw [← hother g hg]; exact hm)
  case unique =>
    intro s g g' m m' hm hms hm' hms'
    by_cases hg : g = fn
    · by_cases hg' : g' = fn
      · rw [hg, hg']
      · rw [hother g' hg'] at hm'
        rw [hg, hself] at hm
        rw [hg, hfree m hm s hms g' m' hm' hms']
    · rw [hother g hg] at hm
      by_cases hg' : g' = fn
      · rw [hg', hself] at hm'
        rw [hg', hfree m' hm' s hms' g m hm hms]
      · rw [hother g' hg'] at hm'
        exact hi.unique s g g' m m' hm hms hm' hms'

/-- What a call does. -/
structure RecDone (f : EdgxFrer) (target : BitVec 16) (r : Int × EdgxFrer) : Prop where
  inv : RecInv r.2
  others : ∀ g, g ≠ target → r.2.srRoot g = f.srRoot g
  error : r.1 ≠ 0 → r.2 = f

theorem RecDone.refused (hi : RecInv f) (target : BitVec 16) {r : Int × EdgxFrer} (he : r.2 = f) : RecDone f target r := by
  refine ⟨?_, fun g _ => ?_, fun _ => he⟩ <;> rw [he]
  exact hi

theorem RecDone.done {o : Option SeqRec} (hi : RecInv f') (hroot : f'.srRoot = Function.update f.srRoot fn o) :
    RecDone f fn (0, f') :=
  ⟨hi, fun g hg => by rw [hroot, Function.update_of_ne hg], fun h => absurd rfl h⟩

/-- A function whose parameters are not set, before and after. -/
theorem RecInv.quiet (hi : RecInv f) (hsr : f.srRoot fn = some sr) (hold : sr.allSet = false) (hnew : sr'.allSet = false)
    (hroot : f'.srRoot = Function.update f.srRoot fn (some sr')) (htbl : f'.tbl = f.tbl) (hnodup : sr'.srList.Nodup)
    (hfree : ∀ s ∈ sr'.srList, ∀ g n, f.srRoot g = some n → s ∈ n.srList → g = fn) : RecInv f' := by
  refine hi.set hroot (hi.fnidx fn sr hsr) (fun m hm h => ?_) (fun m hm => ?_) (fun m hm => ?_) fun s hs => ⟨?_, fun g _ => ?_⟩
  · cases hm
    exact absurd h (by rw [hnew]; exact Bool.false_ne_true)
  · cases hm
    exact hnodup
  · cases hm
    exact hfree
  · rw [htbl, hi.points hsr hs]
    refine iff_of_false (fun h => ?_) fun ⟨m, hm, h, _⟩ => ?_
    · exact absurd h.1 (by rw [hold]; exact Bool.false_ne_true)
    · cases hm
      exact absurd h (by rw [hnew]; exact Bool.false_ne_true)
  · rw [htbl]

/-- A function whose parameters are set is written. -/
theorem RecInv.enabled (hi : RecInv f) (hsr : f.srRoot fn = some sr) {str : BitVec 16}
    (happ : RecApplied f fn sr' str false f') (hset : sr'.allSet = true) (hnodup : sr'.srList.Nodup)
    (hfree : ∀ s ∈ sr'.srList, ∀ g n, f.srRoot g = some n → s ∈ n.srList → g = fn)
    (hsub : ∀ s ∈ sr.srList, s ∈ sr'.srList) (hw : ∀ s ∈ sr'.written str, s ∈ sr'.srList)
    (hrest : ∀ s ∈ sr'.srList, InTable s → s ∉ sr'.written str → Points (f.tbl.rows s .tbl3) fn) : RecInv f' := by
  have hfn := hi.fnidx fn sr hsr
  have hpoints : ∀ s, InTable s → (Points (f'.tbl.rows s .tbl3) fn ↔ s ∈ sr'.srList) := fun s hs => by
    by_cases hmem : s ∈ sr'.written str
    · rw [happ.written s hs hmem]
      exact iff_of_true (points_set hfn) (hw s hmem)
    · rw [happ.kept s hs hmem]
      exact ⟨fun hp => hsub s ((hi.points hsr hs).1 hp).2, fun h => hrest s h hs hmem⟩
  refine hi.set happ.root hfn (fun m hm _ => ?_) (fun m hm => ?_) (fun m hm => ?_) fun s hs => ⟨?_, fun g hg => ?_⟩
  · cases hm
    rfl
  · cases hm
    exact hnodup
  · cases hm
    exact hfree
  · rw [hpoints s hs]
    exact ⟨fun h => ⟨_, rfl, hset, h⟩, fun ⟨m, hm, _, h⟩ => by cases hm; exact h⟩
  · by_cases hmem : s ∈ sr'.written str
    · -- the row is the function's, and was no other's
      have hlist := hw s hmem
      refine iff_of_false (fun hp => hg (hp.eq ((hpoints s hs).2 hlist))) fun hp => hg ?_
      obtain ⟨m, hm, _, hms⟩ := (hi.row s hs g).1 hp
      exact hfree s hlist g m hm hms
    · rw [happ.kept s hs hmem]

end Inv

section Calls

variable {par : Params} {f : EdgxFrer} {fnidx : BitVec 16}

theorem RecInv.create (hi : RecInv f) (par : Params) (fnidx : BitVec 16) (alloc : Bool) :
    RecDone f fnidx (edgxFrerSeqrecCreate par f fnidx alloc) := by
  rcases seqrecCreate_cases par f fnidx alloc with ⟨_, he⟩ | ⟨hfn, hnone, he⟩
  · exact .refused hi _ he
  have hnot : ∀ m : SeqRec, some { histLen := SEQREC_MIN_HISTL } = some m → m.srList = [] := fun m hm => by cases hm; rfl
  rw [he]
  refine .done (hi.set rfl hfn (fun m hm h => ?_) (fun m hm => ?_) (fun m hm s hs => ?_) fun s hs => ⟨?_, fun g _ => Iff.rfl⟩) rfl
  · exact absurd (hnot m hm) (SeqRec.ne_nil_of_allSet h)
  · rw [hnot m hm]
    exact List.nodup_nil
  · rw [hnot m hm] at hs
    exact absurd hs List.not_mem_nil
  · refine iff_of_false (fun hp => ?_) fun ⟨m, hm, h, _⟩ => SeqRec.ne_nil_of_allSet h (hnot m hm)
    obtain ⟨m, hm, _⟩ := (hi.row s hs fnidx).1 hp
    exact absurd (hnone.symm.trans hm) nofun

theorem RecInv.param (hi : RecInv f) (hh : RecHandles f) {p : RecParam} (hok : RecOk par f (.sr (.param p fnidx))) :
    RecDone f fnidx (recParamStep par f fnidx p) := by
  rcases recParamStep_cases par f fnidx p with ⟨_, he⟩ | ⟨sr, sr', hsr, hset, he⟩
  · exact .refused hi _ he
  obtain ⟨hon, hfirst⟩ := hok.2 sr hsr sr' hset
  obtain ⟨hlist, hcfg⟩ := RecParam.set_keeps hset
  have hown : ∀ s ∈ sr'.srList, ∀ g n, f.srRoot g = some n → s ∈ n.srList → g = fnidx := fun s hs g n hg hsn =>
    hi.unique s g fnidx n sr hg hsn hsr (hlist ▸ hs)
  have hnodup : sr'.srList.Nodup := hlist ▸ hi.nodup fnidx sr hsr
  rw [he]
  by_cases hall : sr'.allSet = true
  · have hls : ∀ s ∈ sr'.srList, InTable s := hlist ▸ hh fnidx sr hsr
    by_cases hold : sr.allSet = true
    · -- the rows are there already
      have hw : sr'.written FRER_U16_INVALID = [] := by
        rw [SeqRec.written, hcfg, hi.applied fnidx sr hsr hold, if_neg (by decide), if_neg (not_not.2 rfl)]
      have happ := seqrecApply_applied par f false (Bool.or_eq_true_iff.2 (.inl hall)) (.inr rfl)
        (hi.fnidx fnidx sr hsr) hls fun h => absurd hw h
      refine .done (hi.enabled hsr happ hall hnodup hown (fun s hs => hlist ▸ hs) (fun s hs => ?_) fun s hs hx _ => ?_) happ.root
      · rw [hw] at hs
        exact absurd hs List.not_mem_nil
      · exact (hi.points hsr hx).2 ⟨hold, hlist ▸ hs⟩
    · obtain ⟨hnew, hregs⟩ := hfirst (by simpa using hold) hall
      have hw : sr'.written FRER_U16_INVALID = sr'.srList := by rw [SeqRec.written, hcfg, if_pos hnew]
      have happ := seqrecApply_applied par f false (Bool.or_eq_true_iff.2 (.inl hall)) (.inr rfl)
        (hi.fnidx fnidx sr hsr) hls fun _ => hregs
      refine .done (hi.enabled hsr happ hall hnodup hown (fun s hs => hlist ▸ hs) (fun s hs => hw ▸ hs)
        fun s hs _ hn => ?_) happ.root
      exact absurd (hw ▸ hs) hn
  · have hnew : sr'.allSet = false := by simpa using hall
    have hold : sr.allSet = false := by
      by_contra h
      exact hall (hon (by simpa using h))
    have hskip : edgxFrerSeqrecApply par f fnidx sr' FRER_U16_INVALID false = f.setRec fnidx (some sr') := by
      simp only [edgxFrerSeqrecApply, hnew, Bool.or_self, Bool.false_eq_true, if_false]
    rw [hskip]
    exact .done (hi.quiet hsr hold hnew rfl rfl hnodup hown) rfl

theorem RecInv.delPort (hi : RecInv f) {ptid : Port} (hok : RecOk par f (.sr (.delPort ptid fnidx))) :
    RecDone f fnidx (edgxFrerSeqrecDelport par ptid fnidx f) := by
  rcases seqrecDelport_cases par ptid fnidx f with ⟨_, he⟩ | ⟨sr, hsr, hchk, he⟩
  · exact .refused hi _ he
  have hkeep := hok.2 hchk sr hsr
  have hown : ∀ s ∈ sr.srList, ∀ g n, f.srRoot g = some n → s ∈ n.srList → g = fnidx := fun s hs g n hg hsn =>
    hi.unique s g fnidx n sr hg hsn hsr hs
  -- a port less does not set the parameters, and here does not unset them
  have hset : { sr with ptmask := sr.ptmask &&& ~~~bit ptid }.allSet = sr.allSet := by
    simp only [SeqRec.allSet, decide_eq_true_eq] at hkeep
    simp only [SeqRec.allSet, decide_eq_decide]
    have hzero : sr.ptmask &&& ~~~bit ptid ≠ 0 → sr.ptmask ≠ 0 := fun h h0 => h (by rw [h0]; exact BitVec.zero_and)
    tauto
  rw [he]
  refine .done (hi.set rfl (hi.fnidx fnidx sr hsr) (fun m hm h => ?_) (fun m hm => ?_) (fun m hm => ?_)
    fun s hs => ⟨?_, fun g _ => Iff.rfl⟩) rfl
  · cases hm
    exact hi.applied fnidx sr hsr (hset.symm.trans h)
  · cases hm
    exact hi.nodup fnidx sr hsr
  · cases hm
    exact hown
  · rw [EdgxFrer.setRec_tbl, hi.points hsr hs]
    exact ⟨fun h => ⟨_, rfl, hset.trans h.1, h.2⟩, fun ⟨m, hm, h, hms⟩ => by cases hm; exact ⟨hset.symm.trans h, hms⟩⟩

/-- With a stream in its list, a function whose parameters were not set had
no stream. -/
theorem SeqRec.withStr_allSet {sr : SeqRec} {str : BitVec 16} (h : (sr.withStr str).allSet = true) (hsr : sr.allSet = false) :
    sr.srList = [] ∧ (sr.withStr str).srList = [str] := by
  unfold SeqRec.withStr at h ⊢
  split
  · rename_i hmem
    rw [if_pos hmem, hsr] at h
    exact absurd h Bool.false_ne_true
  · rename_i hmem
    rw [if_neg hmem] at h
    have hnil : sr.srList = [] := by
      by_contra hne
      exact Bool.false_ne_true (hsr.symm.trans (SeqRec.allSet_list.1 ⟨h, hne⟩).1)
    exact ⟨hnil, by rw [hnil]; rfl⟩

theorem RecInv.addStr (hi : RecInv f) (hh : RecHandles f) {str : BitVec 16} {alloc : Bool}
    (hok : RecOk par f (.sr (.addStr str fnidx alloc))) : RecDone f fnidx (edgxFrerSeqrecAddstr par f str fnidx alloc) := by
  rcases seqrecAddstr_cases par f str fnidx alloc with ⟨_, he⟩ | ⟨hchk, sr, hsr, halloc, he⟩
  · exact .refused hi _ he
  have hs := inTable_of_checkStrhdl hchk
  have hfree := hok.2 hchk sr hsr halloc
  have hcfg : (sr.withStr str).seqrecCfgApplied = sr.seqrecCfgApplied := by
    unfold SeqRec.withStr
    split <;> rfl
  have hown : ∀ s ∈ (sr.withStr str).srList, ∀ g n, f.srRoot g = some n → s ∈ n.srList → g = fnidx := by
    intro s hmem g n hg hsn
    rcases mem_withStr_rec.1 hmem with hmem | rfl
    · exact hi.unique s g fnidx n sr hg hsn hsr hmem
    · exact hfree g n hg hsn
  have hnodup : (sr.withStr str).srList.Nodup := by
    have hnd := hi.nodup fnidx sr hsr
    unfold SeqRec.withStr
    split
    · exact hnd
    · rename_i hmem
      refine List.nodup_append.2 ⟨hnd, List.pairwise_singleton _ str, fun a ha b hb => ?_⟩
      rintro rfl
      exact hmem (List.mem_singleton.1 hb ▸ ha)
  have hls : ∀ s ∈ (sr.withStr str).srList, InTable s := fun s hmem => by
    rcases mem_withStr_rec.1 hmem with hmem | rfl
    · exact hh fnidx sr hsr s hmem
    · exact hs
  have hin : str ∈ (sr.withStr str).srList := mem_withStr_rec.2 (.inr rfl)
  rw [he]
  by_cases hall : (sr.withStr str).allSet = true
  · have hpass : Passes f.tbl str fnidx := by
      rw [Passes, looked_inTable hs]
      exact hi.not_conflict hs hfree
    have happ := seqrecApply_applied par f false (Bool.or_eq_true_iff.2 (.inl hall)) (.inl hs)
      (hi.fnidx fnidx sr hsr) hls fun _ => hpass
    by_cases hold : sr.allSet = true
    · have hw : (sr.withStr str).written str = [str] := by
        rw [SeqRec.written, hcfg, hi.applied fnidx sr hsr hold, if_neg (by decide), if_pos hs.ne_invalid]
      refine .done (hi.enabled hsr happ hall hnodup hown (fun s hmem => mem_withStr_rec.2 (.inl hmem)) (fun s hmem => ?_)
        fun s hmem hx hn => ?_) happ.root
      · rw [hw] at hmem
        rw [List.mem_singleton.1 hmem]
        exact hin
      · rw [hw] at hn
        have hmem' := (mem_withStr_rec.1 hmem).resolve_right fun h => hn (List.mem_singleton.2 h)
        exact (hi.points hsr hx).2 ⟨hold, hmem'⟩
    · -- the list was empty: written or not, the stream is the only one to write
      obtain ⟨_, hone⟩ := SeqRec.withStr_allSet hall (by simpa using hold)
      have hw : (sr.withStr str).written str = [str] := by
        unfold SeqRec.written
        split
        · exact hone
        · rw [if_pos hs.ne_invalid]
      refine .done (hi.enabled hsr happ hall hnodup hown (fun s hmem => mem_withStr_rec.2 (.inl hmem)) (fun s hmem => ?_)
        fun s hmem _ hn => ?_) happ.root
      · rw [hw] at hmem
        rw [hone]
        exact hmem
      · rw [hone] at hmem
        exact absurd (hw ▸ hmem) hn
  · have hnew : (sr.withStr str).allSet = false := by simpa using hall
    have hold : sr.allSet = false := by
      by_contra h
      have hset : sr.allSet = true := by simpa using h
      refine hall ?_
      unfold SeqRec.withStr
      split
      · exact hset
      · exact (SeqRec.allSet_list.2 ⟨hset, List.append_ne_nil_of_right_ne_nil _ (List.cons_ne_nil str [])⟩).1
    have hskip : edgxFrerSeqrecApply par f fnidx (sr.withStr str) str false = f.setRec fnidx (some (sr.withStr str)) := by
      simp only [edgxFrerSeqrecApply, hnew, Bool.or_self, Bool.false_eq_true, if_false]
    rw [hskip]
    exact .done (hi.quiet hsr hold hnew rfl rfl hnodup hown) rfl

theorem RecInv.delStr (hi : RecInv f) (hh : RecHandles f) (par : Params) (str fnidx : BitVec 16) :
    RecDone f fnidx (edgxFrerSeqrecDelstr par f str fnidx) := by
  rcases seqrecDelstr_cases par f str fnidx with ⟨_, he⟩ | ⟨hs, sr, hsr, hmem, he⟩
  · exact .refused hi _ he
  have hnd := hi.nodup fnidx sr hsr
  have hown : ∀ s ∈ sr.srList, ∀ g n, f.srRoot g = some n → s ∈ n.srList → g = fnidx := fun s hs g n hg hsn =>
    hi.unique s g fnidx n sr hg hsn hsr hs
  have hpass : Passes f.tbl str fnidx := by
    rw [Passes, looked_inTable hs]
    exact hi.not_conflict hs (hown str hmem)
  have happ := seqrecApply_applied par f true (Bool.or_true { sr with srList := sr.srList.erase str }.allSet) (.inl hs)
    (hi.fnidx fnidx sr hsr) (fun s h => hh fnidx sr hsr s (List.mem_of_mem_erase h)) fun _ => hpass
  generalize hsr' : { sr with srList := sr.srList.erase str } = sr' at he happ
  have hlist : sr'.srList = sr.srList.erase str := by rw [← hsr']
  have hcfg : sr'.seqrecCfgApplied = sr.seqrecCfgApplied := by rw [← hsr']
  have hsub : ∀ s ∈ sr'.written str, s ∈ sr.srList := fun s h => by
    unfold SeqRec.written at h
    split at h
    · exact List.mem_of_mem_erase (hlist ▸ h)
    · rw [if_pos hs.ne_invalid] at h
      rw [List.mem_singleton.1 h]
      exact hmem
  have hclear : ∀ s, InTable s → s ∈ sr'.written str → ∀ g,
      ¬ Points ((edgxFrerSeqrecApply par f fnidx sr' str true).tbl.rows s .tbl3) g := fun s hx h g => by
    rw [happ.written s hx h]
    exact not_points_clear fnidx g
  have hset : ∀ s ∈ sr'.srList, (sr'.allSet = true ↔ sr.allSet = true) := fun s h => by
    have hold : sr.srList ≠ [] := List.ne_nil_of_mem hmem
    have hnew : sr.srList.erase str ≠ [] := List.ne_nil_of_mem (hlist ▸ h)
    rw [← hsr']
    exact ⟨fun h => (SeqRec.allSet_list.1 ⟨h, hold⟩).1, fun h => (SeqRec.allSet_list.2 ⟨h, hnew⟩).1⟩
  rw [he]
  refine .done (hi.set happ.root (hi.fnidx fnidx sr hsr) (fun m hm _ => ?_) (fun m hm => ?_) (fun m hm s h => ?_)
    fun s hx => ⟨?_, fun g hg => ?_⟩) happ.root
  · cases hm
    rfl
  · cases hm
    exact hlist ▸ hnd.erase str
  · cases hm
    exact hown s (List.mem_of_mem_erase (hlist ▸ h))
  · suffices h : Points ((edgxFrerSeqrecApply par f fnidx sr' str true).tbl.rows s .tbl3) fnidx ↔
        sr'.allSet = true ∧ s ∈ sr'.srList by
      rw [h]
      refine ⟨fun h => ⟨_, rfl, h⟩, ?_⟩
      rintro ⟨m, hm, h⟩
      cases hm
      exact h
    by_cases hw : s ∈ sr'.written str
    · refine iff_of_false (hclear s hx hw fnidx) ?_
      rintro ⟨hall, hms⟩
      -- the parameters are set, so only the row of the stream is written
      have happlied := hi.applied fnidx sr hsr ((hset s hms).1 hall)
      rw [SeqRec.written, hcfg, happlied, if_neg (by decide), if_pos hs.ne_invalid] at hw
      rw [hlist, List.mem_singleton.1 hw] at hms
      exact hnd.not_mem_erase hms
    · rw [happ.kept s hx hw, hi.points hsr hx]
      have hne : sr.allSet = true → s ≠ str := by
        rintro hall rfl
        refine hw ?_
        rw [SeqRec.written, hcfg, hi.applied fnidx sr hsr hall, if_neg (by decide), if_pos hs.ne_invalid]
        exact List.mem_singleton.2 rfl
      refine ⟨?_, fun h => ⟨(hset s h.2).1 h.1, List.mem_of_mem_erase (hlist ▸ h.2)⟩⟩
      rintro ⟨hall, hms⟩
      have hms' : s ∈ sr'.srList := hlist ▸ (List.mem_erase_of_ne (hne hall)).2 hms
      exact ⟨(hset s hms').2 hall, hms'⟩
  · by_cases hw : s ∈ sr'.written str
    · exact iff_of_false (hclear s hx hw g) fun hp => hg (hi.owner hsr hx (hsub s hw) hp)
    · rw [happ.kept s hx hw]

theorem RecInv.delFn (hi : RecInv f) (hh : RecHandles f) (par : Params) (fnidx : BitVec 16) :
    RecDone f fnidx (edgxFrerSeqrecDelfn par fnidx f) := by
  rcases seqrecDelfn_cases par fnidx f with ⟨_, he⟩ | ⟨sr, hsr, he⟩
  · exact .refused hi _ he
  have hfn := hi.fnidx fnidx sr hsr
  have hls := hh fnidx sr hsr
  obtain ⟨hroot, hclear, hkept⟩ := delfnList_rows par hfn hsr rfl hls fun s hs =>
    hi.not_conflict (hls s hs) fun g m hm hms => hi.unique s g fnidx m sr hm hms hsr hs
  dsimp only at he
  generalize delfnList par fnidx sr.srList f = f₁ at hroot hclear hkept he
  have hupd : Function.update f₁.srRoot fnidx none = Function.update f.srRoot fnidx none := by
    funext g
    by_cases hg : g = fnidx
    · rw [hg, Function.update_self, Function.update_self]
    · rw [Function.update_of_ne hg, Function.update_of_ne hg, hroot g hg]
  rw [he]
  refine .done (hi.set hupd hfn (fun m hm => (nomatch hm)) (fun m hm => (nomatch hm)) (fun m hm => (nomatch hm))
    fun s hx => ⟨?_, fun g hg => ?_⟩) hupd
  · refine iff_of_false (fun hp => ?_) fun ⟨m, hm, _⟩ => nomatch hm
    by_cases hmem : s ∈ sr.srList
    · exact hclear s hmem fnidx hp
    · rw [EdgxFrer.setRec_tbl, hkept s hx hmem] at hp
      exact hmem ((hi.points hsr hx).1 hp).2
  · by_cases hmem : s ∈ sr.srList
    · exact iff_of_false (hclear s hmem g) fun hp => hg (hi.owner hsr hx hmem hp)
    · rw [EdgxFrer.setRec_tbl, hkept s hx hmem]

end Calls

/-! ## Runs -/

theorem RecInv.call {par : Params} {f : EdgxFrer} (hi : RecInv f) (hh : RecHandles f) {op : RecOp}
    (hok : RecOk par f (.sr op)) : RecDone f op.target (recStep par f op) := by
  cases op with
  | create fnidx alloc => exact hi.create par fnidx alloc
  | param p fnidx => exact hi.param hh hok
  | delPort ptid fnidx => exact hi.delPort hok
  | addStr str fnidx alloc => exact hi.addStr hh hok
  | delStr str fnidx => exact hi.delStr hh par str fnidx
  | delFn fnidx => exact hi.delFn hh par fnidx

theorem RecInv.step {par : Params} {f : EdgxFrer} (hi : RecInv f) (hh : Handles f) {op : Op} (hok : RecOk par f op) :
    RecInv (step par f op).2 := by
  cases op with
  | sg op =>
    have hfr := (genStep_frame par hh.gen op hok.1).1
    exact hi.congr hfr.srRoot (hfr.words .tbl3 (by decide))
  | se op =>
    have hfr := (encStep_frame par hh.enc op).1
    exact hi.congr hfr.srRoot (hfr.words .tbl3 (by decide) (by decide))
  | sr op => exact (hi.call hh.recov hok).inv

theorem recInv_after {par : Params} {ops : List Op} (h : Guarded (step par) (RecOk par) edgxProbeFrer ops) :
    RecInv (after (step par) edgxProbeFrer ops) ∧ Handles (after (step par) edgxProbeFrer ops) := by
  refine h.inv_after (I := fun f => RecInv f ∧ Handles f) ⟨.init, .init⟩ ?_
  rintro f op ⟨hi, hh⟩ hok
  exact ⟨hi.step hh hok, hh.step op hok.1⟩

/-- A stream that a call takes from a list is in no list after it. -/
theorem RecInv.removed {par : Params} {f : EdgxFrer} (hi : RecInv f) (hh : RecHandles f) {op : RecOp}
    (hok : RecOk par f (.sr op)) {s fn : BitVec 16} {sr : SeqRec} (hsr : f.srRoot fn = some sr) (hs : s ∈ sr.srList)
    (hgone : ∀ sr', (recStep par f op).2.srRoot fn = some sr' → s ∉ sr'.srList) :
    ((recStep par f op).2.tbl.rows s .tbl3).getLsbD 15 = false := by
  have hdone := hi.call hh hok
  by_contra hen
  have hp : Points ((recStep par f op).2.tbl.rows s .tbl3) _ := ⟨by simpa using hen, rfl⟩
  obtain ⟨m, hm, _, hms⟩ := (hdone.inv.row s (hh fn sr hsr s hs) _).1 hp
  -- one of the two functions is not the one of the call
  by_cases hfn : fn = op.target
  · by_cases hg : (recStep par f op).2.tbl.rows s .tbl3 &&& STRTBL_MASK = op.target
    · rw [hg, ← hfn] at hm
      exact hgone m hm hms
    · rw [hdone.others _ hg] at hm
      exact hg ((hi.unique s _ fn m sr hm hms hsr hs).trans hfn)
  · exact hgone sr ((hdone.others fn hfn).trans hsr) hs

/-- **Recovery rows are exact**, after every run of calls that meet none of
the defects. The rows are then those of the lists, whatever the calls were,
and a call that takes a stream from a list disables its row. -/
theorem recovered_of_ok (par : Params) (ops : List Op) (h : Guarded (step par) (RecOk par) edgxProbeFrer ops) :
    RecExact par (after (step par) edgxProbeFrer ops) ∧
      (∀ ops', Guarded (step par) (RecOk par) edgxProbeFrer ops' →
        (after (step par) edgxProbeFrer ops').recCfg = (after (step par) edgxProbeFrer ops).recCfg →
        ∀ s, s.toNat < par.streamsMax → ∀ fn, Points ((after (step par) edgxProbeFrer ops').tbl.rows s .tbl3) fn ↔
          Points ((after (step par) edgxProbeFrer ops).tbl.rows s .tbl3) fn) ∧
      ∀ pre op suf, ops = pre ++ .sr op :: suf →
        let f := after (step par) edgxProbeFrer pre
        let f' := after (step par) edgxProbeFrer (pre ++ [.sr op])
        ((recStep par f op).1 ≠ 0 → f' = f) ∧
        ∀ fn sr s, f.srRoot fn = some sr → s ∈ sr.srList → (∀ sr', f'.srRoot fn = some sr' → s ∉ sr'.srList) →
          (f'.tbl.rows s .tbl3).getLsbD 15 = false := by
  have hin : ∀ s : BitVec 16, s.toNat < par.streamsMax → InTable s := fun s hs => Nat.lt_of_lt_of_le hs par.streams_le
  refine ⟨⟨fun s hs fn => (recInv_after h).1.row s (hin s hs) fn, (recInv_after h).1.unique⟩, ?_, ?_⟩
  · intro ops' h' hcfg s hs fn
    have hrow : ∀ f : EdgxFrer, RecInv f → (Points (f.tbl.rows s .tbl3) fn ↔ ∃ c ∈ f.recCfg fn, c.1 = true ∧ s ∈ c.2) := by
      intro f hi
      rw [hi.row s (hin s hs) fn]
      simp only [EdgxFrer.recCfg, Option.mem_def, Option.map_eq_some_iff]
      exact ⟨fun ⟨sr, hsr, hc⟩ => ⟨_, ⟨sr, hsr, rfl⟩, hc⟩, fun ⟨_, ⟨sr, hsr, he⟩, hc⟩ => ⟨sr, hsr, by cases he; exact hc⟩⟩
    rw [hrow _ (recInv_after h').1, hrow _ (recInv_after h).1, hcfg]
  · rintro pre op suf rfl f f'
    obtain ⟨hi, hh⟩ := recInv_after h.of_append
    have hstep : f' = (recStep par f op).2 := after_concat pre (.sr op)
    rw [hstep]
    exact ⟨(hi.call hh.recov h.at_step).error, fun fn sr s hsr hs => hi.removed hh.recov h.at_step hsr hs⟩

/-- Stream 5 is added first and the parameters after it, the direction last. -/
theorem recovered_of_ok_direction_last :
    RecExact .threePorts (after (step .threePorts) edgxProbeFrer [.sr (.create 3 true), .sr (.addStr 5 3 true),
      .sr (.param (.alg 0) 3), .sr (.param (.rstTimeout 0) 3), .sr (.param (.addPort ⟨1, by decide⟩) 3),
      .sr (.param (.takeNoSeq 0) 3), .sr (.param (.indRecv 1) 3), .sr (.param (.latentErr 0) 3),
      .sr (.param (.addDir 0) 3)]) := by
  have hadd : ∀ fn sr, (step .threePorts edgxProbeFrer (.sr (.create 3 true))).2.srRoot fn = some sr → 5 ∈ sr.srList →
      fn = 3 := by
    intro fn sr hsr _
    by_contra hne
    have hnone : (step .threePorts edgxProbeFrer (.sr (.create 3 true))).2.srRoot fn = none := Function.update_of_ne hne ..
    exact absurd (hnone.symm.trans hsr) nofun
  refine (recovered_of_ok .threePorts _ ?_).1
  exact ⟨⟨trivial, trivial⟩, ⟨trivial, fun _ _ _ _ => hadd⟩, ⟨trivial, (by decide +kernel : ParamOk _ _ _ _)⟩,
    ⟨trivial, (by decide +kernel : ParamOk _ _ _ _)⟩, ⟨trivial, (by decide +kernel : ParamOk _ _ _ _)⟩, ⟨trivial, (by decide +kernel : ParamOk _ _ _ _)⟩,
    ⟨trivial, (by decide +kernel : ParamOk _ _ _ _)⟩, ⟨trivial, (by decide +kernel : ParamOk _ _ _ _)⟩,
    ⟨trivial, (by decide +kernel : ParamOk _ _ _ _)⟩, trivial⟩

/-- A stream is added to two functions. -/
theorem not_recExact_shared :
    let ops : List Op := [.sr (.create 0 true), .sr (.create 1 true), .sr (.addStr 5 0 true)]
    let r := recStep .threePorts (after (step .threePorts) edgxProbeFrer ops) (.addStr 5 1 true)
    r.1 = 0 ∧ ¬ RecExact .threePorts r.2 := by
  intro ops r
  refine ⟨by decide +kernel, fun hexact => ?_⟩
  have hlist : ∀ fn, fn = 0 ∨ fn = 1 → r.2.srRoot fn = some { srList := [5], histLen := 2 } := by
    rintro fn (rfl | rfl) <;> decide +kernel
  have heq := hexact.unique 5 0 1 _ _ (hlist 0 (.inl rfl)) List.mem_cons_self (hlist 1 (.inr rfl)) List.mem_cons_self
  exact absurd heq (by decide)

end TsnSwitch.Frer
