/-
Generation rows: table 2 of a stream has function `fn` just when the stream is
in its list and its direction is set (`generated_of_ok`), after every run in
which no call meets one of the defects:

  - a set-direction that fails after it has written rows leaves them written;
  - a delete-function disables the rows of all streams in its list, also of
    those that another function generates;
  - it reads the handles from entries it has freed;
  - a delete-stream does not check its handle, and a handle with bit 14 set
    turns the read of a row into a write.
-/
import TsnSwitch.Frer.Frames

namespace TsnSwitch.Frer

open Lib

/-! ## The property -/

/-- Each row has the function that generates the stream, and there is one
function for it at most. -/
structure GenExact (par : Params) (f : EdgxFrer) : Prop where
  row : ∀ s, s.toNat < par.streamsMax → ∀ fn, Points (f.tbl.rows s .tbl2) fn ↔
    ∃ n, f.sgRoot fn = some n ∧ n.dir ≠ .unknown ∧ s ∈ n.sgList
  unique : ∀ s, s.toNat < par.streamsMax → ∀ fn fn' n n', f.sgRoot fn = some n → n.dir ≠ .unknown → s ∈ n.sgList →
    f.sgRoot fn' = some n' → n'.dir ≠ .unknown → s ∈ n'.sgList → fn = fn'

/-- The function a call deletes or changes. -/
def GenOp.target (f : EdgxFrer) : GenOp → BitVec 16
  | .create fnidx _ => fnidx
  | .addStr _ fnidx _ => fnidx
  | .addDir _ fnidx => fnidx
  | .delStr str => f.tbl.rows str .tbl2 &&& STRTBL_MASK
  | .delFn fnidx _ => fnidx

/-- A call leaves the rows of other functions alone, and everything when it
returns an error. -/
structure GenKeeps (par : Params) (f : EdgxFrer) (op : GenOp) : Prop where
  others : ∀ s, s.toNat < par.streamsMax → ∀ fn, fn ≠ op.target f → Points (f.tbl.rows s .tbl2) fn →
    (genStep par f op).2.tbl.rows s .tbl2 = f.tbl.rows s .tbl2
  error : (genStep par f op).1 ≠ 0 → (genStep par f op).2.sgRoot = f.sgRoot ∧
    ∀ s, s.toNat < par.streamsMax → (genStep par f op).2.tbl.rows s .tbl2 = f.tbl.rows s .tbl2

/-- The call meets none of the defects. -/
def GenOk (f : EdgxFrer) (op : Op) : Prop :=
  Addressed f op ∧
    match op with
    | .sg (.addDir dir fnidx) => dir = DIR_IN_FAC → ∀ n ∈ f.sgRoot fnidx,
      (∃ s ∈ n.sgList, Conflict (f.tbl.rows s .tbl2) fnidx) →
        ∀ s ∈ n.sgList.head?, Conflict (f.tbl.rows s .tbl2) fnidx
    | .sg (.delFn fnidx _) => ∀ n ∈ f.sgRoot fnidx, ∀ s ∈ n.sgList, ¬ Conflict (f.tbl.rows s .tbl2) fnidx
    | _ => True

instance (f : EdgxFrer) : ∀ op, Decidable (GenOk f op)
  | .sg (.addDir _ _) => inferInstanceAs (Decidable (_ ∧ (_ → ∀ _ ∈ _, (∃ _ ∈ _, _) → ∀ _ ∈ _, _)))
  | .sg (.delFn _ _) => inferInstanceAs (Decidable (_ ∧ ∀ _ ∈ _, ∀ _ ∈ _, ¬ _))
  | .sg (.create ..) | .sg (.addStr ..) | .sg (.delStr _) | .se _ | .sr _ =>
    inferInstanceAs (Decidable (Addressed _ _ ∧ True))

/-! ## Writing the rows of a list -/

section Apply

variable {fnidx : BitVec 16} {h : StreamTbl}

/-- Without a conflict the whole list is written. -/
theorem seqgenApplyList_free (hfn : InTable fnidx) {ls : List (BitVec 16)} (hls : ∀ s ∈ ls, InTable s)
    (hfree : ∀ s ∈ ls, ¬ Conflict (h.rows s .tbl2) fnidx) :
    (seqgenApplyList fnidx ls h).1 = 0 ∧
      ∀ s, InTable s → (s ∈ ls → Points ((seqgenApplyList fnidx ls h).2.rows s .tbl2) fnidx) ∧
        (s ∉ ls ∨ Points (h.rows s .tbl2) fnidx → (seqgenApplyList fnidx ls h).2.rows s .tbl2 = h.rows s .tbl2) := by
  induction ls generalizing h with
  | nil => exact ⟨rfl, fun s _ => ⟨fun hs => (nomatch hs), fun _ => rfl⟩⟩
  | cons l ls ih =>
    have hl := hls l List.mem_cons_self
    have hls' : ∀ s ∈ ls, InTable s := fun s hs => hls s (List.mem_cons_of_mem l hs)
    have hfree' : ∀ s ∈ ls, ¬ Conflict (h.rows s .tbl2) fnidx := fun s hs => hfree s (List.mem_cons_of_mem l hs)
    rw [seqgenApplyList_cons hl]
    by_cases hen : (h.rows l .tbl2).getLsbD 15 = true
    · have heq : h.rows l .tbl2 &&& STRTBL_MASK = fnidx := by
        by_contra hne
        exact hfree l List.mem_cons_self ⟨hen, hne⟩
      rw [if_pos hen, if_neg (not_not.2 heq)]
      obtain ⟨h0, hrows⟩ := ih (h := { h with regs := h.rows l }) hls' hfree'
      refine ⟨h0, fun s hs => ⟨fun hmem => ?_, fun hor => ?_⟩⟩
      · rcases List.mem_cons.1 hmem with rfl | hmem
        · rw [(hrows s hs).2 (.inr ⟨hen, heq⟩)]
          exact ⟨hen, heq⟩
        · exact (hrows s hs).1 hmem
      · exact (hrows s hs).2 (hor.imp_left fun hn hmem => hn (List.mem_cons_of_mem l hmem))
    · rw [if_neg hen, hl.wr]
      generalize hh : StreamTbl.setWord { h with regs := h.rows l } l .tbl2 (wrVal fnidx .tbl2 false) = h₁
      have hself : h₁.rows l .tbl2 = fnidx ||| BIT15 := by
        rw [← hh, StreamTbl.setWord_rows, if_pos ⟨rfl, rfl⟩]
        rfl
      have hother : ∀ s, s ≠ l → h₁.rows s .tbl2 = h.rows s .tbl2 := fun s hne => by
        rw [← hh, StreamTbl.setWord_rows, if_neg fun hc => hne hc.1]
      have hpoints : Points (h₁.rows l .tbl2) fnidx := by
        rw [hself]
        exact points_set hfn
      obtain ⟨h0, hrows⟩ := ih (h := h₁) hls' fun s hs => by
        by_cases hsl : s = l
        · rw [hsl]
          exact hpoints.not_conflict
        · rw [hother s hsl]
          exact hfree' s hs
      refine ⟨h0, fun s hs => ⟨fun hmem => ?_, fun hor => ?_⟩⟩
      · rcases List.mem_cons.1 hmem with rfl | hmem
        · rw [(hrows s hs).2 (.inr hpoints)]
          exact hpoints
        · exact (hrows s hs).1 hmem
      · have hne : s ≠ l := by
          rintro rfl
          exact hor.elim (fun hn => hn List.mem_cons_self) fun hp => hen hp.1
        rw [(hrows s hs).2, hother s hne]
        exact hor.imp (fun hn hmem => hn (List.mem_cons_of_mem l hmem)) fun hp => by rwa [hother s hne]

/-- A conflict after rows that the function has already changes nothing. -/
theorem seqgenApplyList_busy {pre : List (BitVec 16)} {l : BitVec 16} {suf : List (BitVec 16)}
    (hls : ∀ s ∈ pre ++ l :: suf, InTable s) (hpre : ∀ s ∈ pre, Points (h.rows s .tbl2) fnidx)
    (hl : Conflict (h.rows l .tbl2) fnidx) :
    (seqgenApplyList fnidx (pre ++ l :: suf) h).1 = -EBUSY ∧
      (seqgenApplyList fnidx (pre ++ l :: suf) h).2.rows = h.rows := by
  induction pre generalizing h with
  | nil =>
    rw [List.nil_append, seqgenApplyList_cons (hls l List.mem_cons_self), if_pos hl.1, if_pos hl.2]
    exact ⟨rfl, rfl⟩
  | cons a pre ih =>
    obtain ⟨hen, heq⟩ := hpre a List.mem_cons_self
    rw [List.cons_append, seqgenApplyList_cons (hls a List.mem_cons_self), if_pos hen, if_neg (not_not.2 heq)]
    exact ih (h := { h with regs := h.rows a }) (fun s hs => hls s (List.mem_cons_of_mem a hs))
      (fun s hs => hpre s (List.mem_cons_of_mem a hs)) hl

end Apply

/-- Clearing the rows of a list. -/
theorem foldl_clear {ls : List (BitVec 16)} (hls : ∀ s ∈ ls, InTable s) (h : StreamTbl) :
    (∀ s ∈ ls, ∀ g, ¬ Points ((ls.foldl (fun h l => edgxFrerIpWrStrtbl h l 0 .tbl2 true) h).rows s .tbl2) g) ∧
      ∀ s, s ∉ ls → (ls.foldl (fun h l => edgxFrerIpWrStrtbl h l 0 .tbl2 true) h).rows s .tbl2 = h.rows s .tbl2 := by
  induction ls generalizing h with
  | nil => exact ⟨fun s hs => (nomatch hs), fun _ _ => rfl⟩
  | cons l ls ih =>
    rw [List.foldl_cons, (hls l List.mem_cons_self).wr]
    obtain ⟨hin, hout⟩ := ih (fun s hs => hls s (List.mem_cons_of_mem l hs)) (h.setWord l .tbl2 (wrVal 0 .tbl2 true))
    refine ⟨fun s hs g => ?_, fun s hs => ?_⟩
    · by_cases hmem : s ∈ ls
      · exact hin s hmem g
      · obtain rfl := (List.mem_cons.1 hs).resolve_right hmem
        rw [hout s hmem, StreamTbl.setWord_rows, if_pos ⟨rfl, rfl⟩]
        exact not_points_clear 0 g
    · obtain ⟨hne, hmem⟩ := not_or.1 (mt List.mem_cons.2 hs)
      rw [hout s hmem, StreamTbl.setWord_rows, if_neg fun hc => hne hc.1]

/-! ## The invariant -/

/-- Each row has the function that generates its stream. -/
structure GenInv (f : EdgxFrer) : Prop where
  row : ∀ s, InTable s → ∀ fn, Points (f.tbl.rows s .tbl2) fn ↔
    ∃ n, f.sgRoot fn = some n ∧ n.dir ≠ .unknown ∧ s ∈ n.sgList
  fnidx : ∀ fn n, f.sgRoot fn = some n → InTable fn
  nodup : ∀ fn n, f.sgRoot fn = some n → n.sgList.Nodup

theorem GenInv.init : GenInv edgxProbeFrer :=
  ⟨fun _ _ _ => ⟨fun h => absurd h (not_points_zero _), fun ⟨_, h, _⟩ => (nomatch h)⟩, fun _ _ h => (nomatch h),
    fun _ _ h => (nomatch h)⟩

section Inv

variable {f f' : EdgxFrer} {fn : BitVec 16}

theorem GenInv.congr (hi : GenInv f) (hroot : f'.sgRoot = f.sgRoot) (hw : KeepsWord .tbl2 f.tbl f'.tbl) :
    GenInv f' :=
  ⟨fun s hs g => by rw [hw s hs, hroot]; exact hi.row s hs g, fun g n => by rw [hroot]; exact hi.fnidx g n,
    fun g n => by rw [hroot]; exact hi.nodup g n⟩

theorem GenInv.points (hi : GenInv f) {n : SeqGen} (hn : f.sgRoot fn = some n) (hdir : n.dir ≠ .unknown) {s : BitVec 16}
    (hs : InTable s) (hmem : s ∈ n.sgList) : Points (f.tbl.rows s .tbl2) fn :=
  (hi.row s hs fn).2 ⟨n, hn, hdir, hmem⟩

/-- One function is replaced, and its rows with it. -/
theorem GenInv.set (hi : GenInv f) {n : Option SeqGen} (hroot : f'.sgRoot = Function.update f.sgRoot fn n)
    (hfn : InTable fn) (hnodup : ∀ m, n = some m → m.sgList.Nodup)
    (hrow : ∀ s, InTable s → (Points (f'.tbl.rows s .tbl2) fn ↔ ∃ m, n = some m ∧ m.dir ≠ .unknown ∧ s ∈ m.sgList) ∧
      ∀ g, g ≠ fn → (Points (f'.tbl.rows s .tbl2) g ↔ Points (f.tbl.rows s .tbl2) g)) : GenInv f' := by
  refine ⟨fun s hs g => ?_, fun g m hg => ?_, fun g m hg => ?_⟩
  · rw [hroot]
    by_cases hgf : g = fn
    · subst hgf
      rw [Function.update_self]
      exact (hrow s hs).1
    · rw [Function.update_of_ne hgf, (hrow s hs).2 g hgf]
      exact hi.row s hs g
  · by_cases hgf : g = fn
    · rw [hgf]
      exact hfn
    · rw [hroot, Function.update_of_ne hgf] at hg
      exact hi.fnidx g m hg
  · rw [hroot, Function.update_apply] at hg
    split at hg
    · exact hnodup m hg
    · exact hi.nodup g m hg

/-- What a call does. -/
structure GenDone (f : EdgxFrer) (target : BitVec 16) (r : Int × EdgxFrer) : Prop where
  inv : GenInv r.2
  others : ∀ s, InTable s → ∀ g, g ≠ target → Points (f.tbl.rows s .tbl2) g →
    r.2.tbl.rows s .tbl2 = f.tbl.rows s .tbl2
  error : r.1 ≠ 0 → r.2.sgRoot = f.sgRoot ∧ KeepsWord .tbl2 f.tbl r.2.tbl

theorem GenDone.same (hi : GenInv f) (target : BitVec 16) {r : Int × EdgxFrer} (hroot : r.2.sgRoot = f.sgRoot)
    (hw : KeepsWord .tbl2 f.tbl r.2.tbl) : GenDone f target r :=
  ⟨hi.congr hroot hw, fun s hs _ _ _ => hw s hs, fun _ => ⟨hroot, hw⟩⟩

end Inv

section Calls

variable {f : EdgxFrer}

theorem GenInv.create (hi : GenInv f) (par : Params) (fnidx : BitVec 16) (alloc : Bool) :
    GenDone f fnidx (edgxFrerSeqgenCreate par f fnidx alloc) := by
  rcases seqgenCreate_cases par f fnidx alloc with ⟨_, he⟩ | ⟨hfn, hnone, he⟩
  · exact .same hi _ (by rw [he]) (.of_rows (by rw [he]))
  · rw [he]
    refine ⟨hi.set rfl hfn (fun m hm => by cases hm; exact List.nodup_nil) fun s hs => ⟨?_, fun g _ => Iff.rfl⟩,
      fun _ _ _ _ _ => rfl, fun h => absurd rfl h⟩
    -- a new function generates nothing
    refine ⟨fun hp => ?_, fun ⟨m, hm, hdir, _⟩ => ?_⟩
    · obtain ⟨n, hn, _⟩ := (hi.row s hs fnidx).1 hp
      exact absurd hn (by rw [hnone]; exact nofun)
    · cases hm
      exact absurd rfl hdir

/-- What applying a function does to the rows, if it meets no conflict. -/
theorem seqgenApply_free {n : SeqGen} {fnidx : BitVec 16} {h : StreamTbl} (hfn : InTable fnidx)
    (hdir : n.dir ≠ .unknown) (hls : ∀ s ∈ n.sgList, InTable s)
    (hfree : ∀ s ∈ n.sgList, ¬ Conflict (h.rows s .tbl2) fnidx) :
    (edgxFrerSeqgenApply n fnidx h).1 = 0 ∧
      ∀ s, InTable s → (s ∈ n.sgList → Points ((edgxFrerSeqgenApply n fnidx h).2.rows s .tbl2) fnidx) ∧
        (s ∉ n.sgList ∨ Points (h.rows s .tbl2) fnidx →
          (edgxFrerSeqgenApply n fnidx h).2.rows s .tbl2 = h.rows s .tbl2) := by
  unfold edgxFrerSeqgenApply
  by_cases hnil : n.sgList = []
  · rw [if_pos (.inr hnil), hnil]
    exact ⟨rfl, fun s _ => ⟨fun hs => (nomatch hs), fun _ => rfl⟩⟩
  · rw [if_neg (not_or.2 ⟨hdir, hnil⟩)]
    exact seqgenApplyList_free hfn hls hfree

/-- A function that is applied without a conflict. -/
theorem GenInv.applied (hi : GenInv f) {f' : EdgxFrer} {fnidx : BitVec 16} {n n' : SeqGen} (hn : f.sgRoot fnidx = some n)
    (hroot : f'.sgRoot = Function.update f.sgRoot fnidx (some n'))
    (htbl : f'.tbl = (edgxFrerSeqgenApply n' fnidx f.tbl).2) (hsub : ∀ s ∈ n.sgList, s ∈ n'.sgList)
    (hnodup : n'.sgList.Nodup) (hdir : n'.dir ≠ .unknown) (hls : ∀ s ∈ n'.sgList, InTable s)
    (hfree : ∀ s ∈ n'.sgList, ¬ Conflict (f.tbl.rows s .tbl2) fnidx) : GenDone f fnidx (0, f') := by
  have hfn := hi.fnidx fnidx n hn
  obtain ⟨_, hrows⟩ := seqgenApply_free (h := f.tbl) hfn hdir hls hfree
  rw [← htbl] at hrows
  -- a stream of another function is not in the list
  have hout : ∀ s, InTable s → ∀ g, g ≠ fnidx → Points (f.tbl.rows s .tbl2) g →
      f'.tbl.rows s .tbl2 = f.tbl.rows s .tbl2 := fun s hs g hg hp =>
    (hrows s hs).2 (.inl fun hmem => hfree s hmem ⟨hp.1, by rw [hp.2]; exact hg⟩)
  refine ⟨hi.set hroot hfn (fun m hm => by cases hm; exact hnodup) fun s hs => ⟨⟨fun hp => ?_, ?_⟩, fun g hg => ?_⟩, hout,
    fun h => absurd rfl h⟩
  · refine ⟨n', rfl, hdir, ?_⟩
    by_contra hmem
    rw [(hrows s hs).2 (.inl hmem)] at hp
    obtain ⟨m, hm, _, hs'⟩ := (hi.row s hs fnidx).1 hp
    obtain rfl : n = m := Option.some.inj (hn.symm.trans hm)
    exact hmem (hsub s hs')
  · rintro ⟨m, hm, _, hmem⟩
    cases hm
    exact (hrows s hs).1 hmem
  · refine ⟨fun hp => ?_, fun hp => by rw [hout s hs g hg hp]; exact hp⟩
    by_cases hmem : s ∈ n'.sgList
    · exact absurd (hp.eq ((hrows s hs).1 hmem)) hg
    · rwa [(hrows s hs).2 (.inl hmem)] at hp

/-- A function without a direction, whose rows are not written. -/
theorem GenInv.quiet (hi : GenInv f) {f' : EdgxFrer} {fnidx : BitVec 16} {n n' : SeqGen} (hn : f.sgRoot fnidx = some n)
    (hold : n.dir = .unknown) (hroot : f'.sgRoot = Function.update f.sgRoot fnidx (some n')) (htbl : f'.tbl = f.tbl)
    (hnodup : n'.sgList.Nodup) (hdir : n'.dir = .unknown) : GenDone f fnidx (0, f') := by
  refine ⟨hi.set hroot (hi.fnidx fnidx n hn) (fun m hm => by cases hm; exact hnodup) fun s hs => ⟨⟨fun hp => ?_, ?_⟩,
    fun g _ => by rw [htbl]⟩, fun s _ _ _ _ => by rw [htbl], fun h => absurd rfl h⟩
  · rw [htbl] at hp
    obtain ⟨m, hm, hd, _⟩ := (hi.row s hs fnidx).1 hp
    obtain rfl : n = m := Option.some.inj (hn.symm.trans hm)
    exact absurd hold hd
  · rintro ⟨m, hm, hd, _⟩
    cases hm
    exact absurd hdir hd

theorem GenInv.addStr (hi : GenInv f) (hg : GenHandles f) (par : Params) (str fnidx : BitVec 16) (alloc : Bool) :
    GenDone f fnidx (edgxFrerSeqgenAddstr par f str fnidx alloc) := by
  rcases seqgenAddstr_cases par f str fnidx alloc with ⟨_, he⟩ | ⟨hs, n, hn, he⟩
  · exact .same hi _ (by rw [he]) (.of_rows (by rw [he]))
  have hnodup := hi.nodup fnidx n hn
  have hdir' : (n.withStr str).dir = n.dir := by
    unfold SeqGen.withStr
    split <;> rfl
  have hnodup' : (n.withStr str).sgList.Nodup := by
    unfold SeqGen.withStr
    split
    · exact hnodup
    · rename_i hmem
      exact List.nodup_append.2 ⟨hnodup, List.pairwise_singleton _ str, fun a ha b hb => by
        rintro rfl
        exact hmem (List.mem_singleton.1 hb ▸ ha)⟩
  have hls : ∀ s ∈ (n.withStr str).sgList, InTable s := fun s hmem => by
    rcases mem_withStr.1 hmem with hmem | rfl
    · exact hg fnidx n hn s hmem
    · exact hs
  by_cases hdir : n.dir = .unknown
  · have happly : edgxFrerSeqgenApply (n.withStr str) fnidx f.tbl = (0, f.tbl) := if_pos (.inl (hdir'.trans hdir))
    dsimp only at he
    rw [he, happly, if_pos rfl]
    exact hi.quiet hn hdir rfl rfl hnodup' (hdir'.trans hdir)
  -- the direction is set: the rows of the list are the function's already
  have hpoints : ∀ s ∈ n.sgList, Points (f.tbl.rows s .tbl2) fnidx := fun s hmem =>
    hi.points hn hdir (hg fnidx n hn s hmem) hmem
  by_cases hconf : Conflict (f.tbl.rows str .tbl2) fnidx
  · have hmem : str ∉ n.sgList := fun hmem => (hpoints str hmem).not_conflict hconf
    have hwith : n.withStr str = { n with sgList := n.sgList ++ [str] } := if_neg hmem
    have happly : edgxFrerSeqgenApply (n.withStr str) fnidx f.tbl = seqgenApplyList fnidx (n.sgList ++ [str]) f.tbl := by
      rw [edgxFrerSeqgenApply, if_neg (not_or.2 ⟨by rw [hdir']; exact hdir, by rw [hwith]; simp⟩), hwith]
    have hlist : ∀ s ∈ n.sgList ++ [str], InTable s := by
      rw [hwith] at hls
      exact hls
    obtain ⟨hret, hrows⟩ := seqgenApplyList_busy hlist hpoints hconf
    have herase : { n.withStr str with sgList := (n.withStr str).sgList.erase str } = n := by
      rw [hwith]
      dsimp only
      rw [List.erase_append_right _ hmem, List.erase_cons_head, List.append_nil]
    dsimp only at he
    rw [herase, happly, hret, if_neg (by decide)] at he
    rw [he]
    refine .same hi _ ?_ (.of_rows hrows)
    rw [← hn]
    exact Function.update_eq_self fnidx f.sgRoot
  · have hfree : ∀ s ∈ (n.withStr str).sgList, ¬ Conflict (f.tbl.rows s .tbl2) fnidx := fun s hmem => by
      rcases mem_withStr.1 hmem with hmem | rfl
      · exact (hpoints s hmem).not_conflict
      · exact hconf
    have hd : (n.withStr str).dir ≠ .unknown := by rw [hdir']; exact hdir
    have h0 := (seqgenApply_free (h := f.tbl) (hi.fnidx fnidx n hn) hd hls hfree).1
    dsimp only at he
    rw [h0, if_pos rfl] at he
    rw [he]
    exact hi.applied hn rfl rfl (fun s hmem => mem_withStr.2 (.inl hmem)) hnodup' hd hls hfree

theorem GenInv.addDir (hi : GenInv f) (hg : GenHandles f) {dir : BitVec 8} {fnidx : BitVec 16}
    (hok : GenOk f (.sg (.addDir dir fnidx))) : GenDone f fnidx (edgxFrerSeqgenAdddir f dir fnidx) := by
  rcases seqgenAdddir_cases f dir fnidx with ⟨_, he⟩ | ⟨hdir, n, hn, he⟩
  · exact .same hi _ (by rw [he]) (.of_rows (by rw [he]))
  have hls := hg fnidx n hn
  by_cases hconf : ∃ s ∈ n.sgList, Conflict (f.tbl.rows s .tbl2) fnidx
  · have hhead := hok.2 hdir n hn hconf
    -- the first stream is in conflict, and nothing is written
    obtain ⟨l, ls, hlist⟩ : ∃ l ls, n.sgList = l :: ls := by
      obtain ⟨s, hs, _⟩ := hconf
      exact List.exists_cons_of_ne_nil (List.ne_nil_of_mem hs)
    have hl : Conflict (f.tbl.rows l .tbl2) fnidx := hhead l (by rw [hlist]; rfl)
    have hunknown : n.dir = .unknown := by
      by_contra hd
      exact (hi.points hn hd (hls l (by rw [hlist]; exact List.mem_cons_self))
        (by rw [hlist]; exact List.mem_cons_self)).not_conflict hl
    have happly : edgxFrerSeqgenApply { n with dir := .inFac } fnidx f.tbl = seqgenApplyList fnidx (l :: ls) f.tbl := by
      rw [edgxFrerSeqgenApply, if_neg (not_or.2 ⟨fun h => (nomatch h), by dsimp only; rw [hlist]; exact List.cons_ne_nil l ls⟩)]
      dsimp only
      rw [hlist]
    have hin : ∀ s ∈ [] ++ l :: ls, InTable s := by rwa [List.nil_append, ← hlist]
    obtain ⟨hret, hrows⟩ := seqgenApplyList_busy hin (fun s hs => (nomatch hs)) hl
    rw [List.nil_append] at hret hrows
    dsimp only at he
    rw [happly, hret, if_neg (by decide), ← hunknown] at he
    rw [he]
    refine .same hi _ ?_ (.of_rows hrows)
    rw [show (some { n with dir := n.dir } : Option SeqGen) = f.sgRoot fnidx from hn.symm]
    exact Function.update_eq_self fnidx f.sgRoot
  · have hfree : ∀ s ∈ n.sgList, ¬ Conflict (f.tbl.rows s .tbl2) fnidx := fun s hs hc => hconf ⟨s, hs, hc⟩
    have hd : ({ n with dir := .inFac } : SeqGen).dir ≠ .unknown := fun h => nomatch h
    have h0 := (seqgenApply_free (n := { n with dir := .inFac }) (h := f.tbl) (hi.fnidx fnidx n hn) hd hls hfree).1
    dsimp only at he
    rw [h0, if_pos rfl] at he
    rw [he]
    exact hi.applied hn rfl rfl (fun s hmem => hmem) (hi.nodup fnidx n hn) hd hls hfree

theorem GenInv.delStr (hi : GenInv f) (hg : GenHandles f) {str : BitVec 16} (hs : str.getLsbD 14 = false) :
    GenDone f (f.tbl.rows str .tbl2 &&& STRTBL_MASK) (seqgenListDelEntry f str) := by
  rcases seqgenListDelEntry_cases hg hs with ⟨_, tbl, hrows, he⟩ | ⟨fn, n, tbl, hp, hn, hmem, hrows, he⟩
  · exact .same hi _ (by rw [he]) (.of_rows (by rw [he]; exact hrows))
  have hin := hg fn n hn str hmem
  rw [he, hin.wr]
  -- one word changes, and it had the function
  have hword : ∀ s, s ≠ str → (tbl.setWord str .tbl2 (wrVal fn .tbl2 true)).rows s .tbl2 = f.tbl.rows s .tbl2 :=
    fun s hne => by rw [StreamTbl.setWord_rows, if_neg fun h => hne h.1, hrows]
  have hself : ∀ g, ¬ Points ((tbl.setWord str .tbl2 (wrVal fn .tbl2 true)).rows str .tbl2) g := fun g => by
    rw [StreamTbl.setWord_rows, if_pos ⟨rfl, rfl⟩]
    exact not_points_clear fn g
  refine ⟨hi.set rfl (hi.fnidx fn n hn) (fun m hm => by cases hm; exact (hi.nodup fn n hn).erase str) fun s hx =>
    ⟨⟨fun hps => ?_, ?_⟩, fun g hgf => ?_⟩, fun s hx g hgf hps => ?_, fun h => absurd rfl h⟩
  · have hne : s ≠ str := by
      rintro rfl
      exact hself fn hps
    have hps' : Points (f.tbl.rows s .tbl2) fn := by rw [← hword s hne]; exact hps
    obtain ⟨m, hm, hdir, hms⟩ := (hi.row s hx fn).1 hps'
    obtain rfl : n = m := Option.some.inj (hn.symm.trans hm)
    exact ⟨_, rfl, hdir, (List.mem_erase_of_ne hne).2 hms⟩
  · rintro ⟨m, hm, hdir, hms⟩
    cases hm
    have hne : s ≠ str := fun h => (hi.nodup fn n hn).not_mem_erase (h ▸ hms)
    have hps := hi.points hn hdir hx (List.mem_of_mem_erase hms)
    rw [← hword s hne] at hps
    exact hps
  · by_cases hne : s = str
    · subst hne
      exact iff_of_false (hself g) fun h => hgf (h.eq hp)
    · exact iff_of_eq (congrArg (Points · g) (hword s hne))
  · refine hword s fun h => hgf ?_
    subst h
    exact hps.2.symm

theorem GenInv.delFn (hi : GenInv f) (hg : GenHandles f) {fnidx : BitVec 16} {freed : BitVec 16 → BitVec 16}
    (hok : GenOk f (.sg (.delFn fnidx freed))) : GenDone f fnidx (seqgenRbtDelEntry f fnidx freed) := by
  rcases seqgenRbtDelEntry_cases f fnidx hok.1 with ⟨_, he⟩ | ⟨n, hn, he⟩
  · exact .same hi _ (by rw [he]) (.of_rows (by rw [he]))
  obtain ⟨hin, hout⟩ := foldl_clear (hg fnidx n hn) f.tbl
  rw [he]
  generalize n.sgList.foldl (fun h l => edgxFrerIpWrStrtbl h l 0 .tbl2 true) f.tbl = tbl at hin hout
  have hother : ∀ s, InTable s → ∀ g, g ≠ fnidx → Points (f.tbl.rows s .tbl2) g → s ∉ n.sgList := fun s _ g hgf hp hmem =>
    hok.2 n hn s hmem ⟨hp.1, by rw [hp.2]; exact hgf⟩
  refine ⟨hi.set rfl (hi.fnidx fnidx n hn) (fun m hm => by cases hm) fun s hs => ⟨⟨fun hp => ?_, ?_⟩, fun g hgf => ?_⟩,
    fun s hs g hgf hp => hout s (hother s hs g hgf hp), fun h => absurd rfl h⟩
  · by_cases hmem : s ∈ n.sgList
    · exact absurd hp (hin s hmem fnidx)
    · have hp' : Points (f.tbl.rows s .tbl2) fnidx := by rw [← hout s hmem]; exact hp
      obtain ⟨m, hm, _, hms⟩ := (hi.row s hs fnidx).1 hp'
      obtain rfl : n = m := Option.some.inj (hn.symm.trans hm)
      exact absurd hms hmem
  · rintro ⟨m, hm, _⟩
    cases hm
  · by_cases hmem : s ∈ n.sgList
    · exact iff_of_false (hin s hmem g) fun hp => hother s hs g hgf hp hmem
    · exact iff_of_eq (congrArg (Points · g) (hout s hmem))

end Calls

/-! ## Runs -/

theorem GenInv.genStep {f : EdgxFrer} (hi : GenInv f) (hg : GenHandles f) (par : Params) {op : GenOp}
    (hok : GenOk f (.sg op)) : GenDone f (op.target f) (genStep par f op) := by
  cases op with
  | create fnidx alloc => exact hi.create par fnidx alloc
  | addStr str fnidx alloc => exact hi.addStr hg par str fnidx alloc
  | addDir dir fnidx => exact hi.addDir hg hok
  | delStr str => exact hi.delStr hg hok.1
  | delFn fnidx freed => exact hi.delFn hg hok

theorem GenInv.step {f : EdgxFrer} (hi : GenInv f) (hh : Handles f) (par : Params) {op : Op} (hok : GenOk f op) :
    GenInv (step par f op).2 := by
  cases op with
  | sg op => exact (hi.genStep hh.gen par hok).inv
  | se op =>
    have hfr := (encStep_frame par hh.enc op).1
    exact hi.congr hfr.sgRoot (hfr.words .tbl2 (by decide) (by decide))
  | sr op =>
    have hfr := (recStep_frame par hh.recov op).1
    exact hi.congr hfr.sgRoot (hfr.words .tbl2 (by decide))

theorem genInv_after {par : Params} {ops : List Op}
    (h : Guarded (step par) GenOk edgxProbeFrer ops) :
    GenInv (after (step par) edgxProbeFrer ops) ∧ Handles (after (step par) edgxProbeFrer ops) := by
  refine h.inv_after (I := fun f => GenInv f ∧ Handles f) ⟨.init, .init⟩ ?_
  rintro f op ⟨hi, hh⟩ hok
  exact ⟨hi.step hh par hok, hh.step op hok.1⟩

/-- **Generation rows are exact**, after every run of calls that meet none of
the defects, and each generation call leaves the rows of other functions
alone, and everything when it fails. -/
theorem generated_of_ok (par : Params) (ops : List Op) (h : Guarded (step par) GenOk edgxProbeFrer ops) :
    GenExact par (after (step par) edgxProbeFrer ops) ∧
      ∀ pre op suf, ops = pre ++ .sg op :: suf → GenKeeps par (after (step par) edgxProbeFrer pre) op := by
  have hin : ∀ s : BitVec 16, s.toNat < par.streamsMax → InTable s := fun s hs => Nat.lt_of_lt_of_le hs par.streams_le
  refine ⟨⟨fun s hs fn => (genInv_after h).1.row s (hin s hs) fn, fun s hs fn fn' n n' hn hd hm hn' hd' hm' => ?_⟩, ?_⟩
  · have hrow := (genInv_after h).1.row s (hin s hs)
    exact ((hrow fn).2 ⟨n, hn, hd, hm⟩).eq ((hrow fn').2 ⟨n', hn', hd', hm'⟩)
  · rintro pre op suf rfl
    obtain ⟨hi, hh⟩ := genInv_after h.of_append
    have hdone := hi.genStep hh.gen par h.at_step
    exact ⟨fun s hs fn hne hp => hdone.others s (hin s hs) fn hne hp,
      fun he => ⟨(hdone.error he).1, fun s hs => (hdone.error he).2 s (hin s hs)⟩⟩

/-- Stream 5 is refused for a second function. -/
theorem generated_of_ok_shared :
    GenExact .threePorts (after (step .threePorts) edgxProbeFrer [.sg (.create 0 true), .sg (.create 1 true),
      .sg (.addStr 5 0 true), .sg (.addStr 5 1 true), .sg (.addStr 6 1 true), .sg (.addDir 0 0), .sg (.addDir 0 1),
      .sg (.delStr 5), .sg (.addDir 0 1)]) :=
  (generated_of_ok _ _ (by decide +kernel)).1

/-- A set-direction fails at its second stream and leaves the row of its first
one enabled. -/
theorem not_genExact_partial :
    let ops : List Op := [.sg (.create 0 true), .sg (.create 1 true), .sg (.addStr 6 0 true), .sg (.addStr 5 0 true),
      .sg (.addStr 5 1 true), .sg (.addDir 0 1)]
    let r := genStep .threePorts (after (step .threePorts) edgxProbeFrer ops) (.addDir 0 0)
    r.1 = -EBUSY ∧ ¬ GenExact .threePorts r.2 := by
  intro ops r
  refine ⟨by decide +kernel, fun hexact => ?_⟩
  have hpoints : Points (r.2.tbl.rows 6 .tbl2) 0 := by decide +kernel
  have hroot : r.2.sgRoot 0 = some ⟨[6, 5], .unknown⟩ := by decide +kernel
  obtain ⟨n, hn, hdir, _⟩ := (hexact.row 6 (by decide) 0).1 hpoints
  rw [hroot] at hn
  cases hn
  exact hdir rfl

end TsnSwitch.Frer
