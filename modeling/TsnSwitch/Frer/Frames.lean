/-
What each group of calls leaves alone: the other groups' parts of the driver
and words of the table. Along the way, the lists keep to handles of rows.
-/
import TsnSwitch.Frer.Machine

namespace TsnSwitch.Frer

/-! ## Generation -/

/-- What a generation call leaves alone. -/
structure GenFrame (f f' : EdgxFrer) : Prop where
  sePorts : f'.sePorts = f.sePorts
  seRoot : f'.seRoot = f.seRoot
  srRoot : f'.srRoot = f.srRoot
  words : ∀ t, t ≠ .tbl2 → KeepsWord t f.tbl f'.tbl

theorem GenFrame.refl (f : EdgxFrer) : GenFrame f f := ⟨rfl, rfl, rfl, fun _ _ => .refl _⟩

theorem seqgenApplyList_cons {l : BitVec 16} (hl : InTable l) (fnidx : BitVec 16) (ls : List (BitVec 16))
    (h : StreamTbl) :
    seqgenApplyList fnidx (l :: ls) h =
      if (h.rows l .tbl2).getLsbD 15 then
        if h.rows l .tbl2 &&& STRTBL_MASK ≠ fnidx then (-EBUSY, { h with regs := h.rows l })
        else seqgenApplyList fnidx ls { h with regs := h.rows l }
      else seqgenApplyList fnidx ls (edgxFrerIpWrStrtbl { h with regs := h.rows l } l fnidx .tbl2 false) := by
  simp only [seqgenApplyList, edgxFrerSeqfnEnabled, hl.rd]
  rfl

theorem seqgenApplyList_keeps (fnidx : BitVec 16) {t : Tbl} (ht : t ≠ .tbl2) {ls : List (BitVec 16)}
    (hls : ∀ s ∈ ls, InTable s) (h : StreamTbl) : KeepsWord t h (seqgenApplyList fnidx ls h).2 := by
  induction ls generalizing h with
  | nil => exact .refl h
  | cons l ls ih =>
    have hl := hls l List.mem_cons_self
    have ih := ih fun s hs => hls s (List.mem_cons_of_mem l hs)
    have hload : KeepsWord t h { h with regs := h.rows l } := .of_rows rfl
    rw [seqgenApplyList_cons hl]
    split
    · split
      · exact hload
      · exact hload.trans (ih _)
    · exact (hload.trans (.wr hl fnidx false ht)).trans (ih _)

theorem seqgenApply_keeps (n : SeqGen) (fnidx : BitVec 16) {t : Tbl} (ht : t ≠ .tbl2) (hn : ∀ s ∈ n.sgList, InTable s)
    (h : StreamTbl) : KeepsWord t h (edgxFrerSeqgenApply n fnidx h).2 := by
  unfold edgxFrerSeqgenApply
  split
  · exact .refl h
  · exact seqgenApplyList_keeps fnidx ht hn h

theorem GenHandles.set {f f' : EdgxFrer} (h : GenHandles f) {fnidx : BitVec 16} {n : Option SeqGen}
    (he : f'.sgRoot = Function.update f.sgRoot fnidx n) (hn : ∀ m, n = some m → ∀ s ∈ m.sgList, InTable s) :
    GenHandles f' := by
  intro fn m hfn
  rw [he, Function.update_apply] at hfn
  split at hfn
  · exact hn m hfn
  · exact h fn m hfn

theorem mem_withStr {n : SeqGen} {str s : BitVec 16} : s ∈ (n.withStr str).sgList ↔ s ∈ n.sgList ∨ s = str := by
  unfold SeqGen.withStr
  split
  · rename_i hmem
    exact (or_iff_left_of_imp fun he => he ▸ hmem).symm
  · rw [List.mem_append, List.mem_singleton]

/-- **Generation calls keep to table 2.** -/
theorem genStep_frame (par : Params) {f : EdgxFrer} (h : GenHandles f) (op : GenOp) (ha : Addressed f (.sg op)) :
    GenFrame f (genStep par f op).2 ∧ GenHandles (genStep par f op).2 := by
  have hsame : ∀ {f' : EdgxFrer}, f' = f → GenFrame f f' ∧ GenHandles f' := fun he => by
    rw [he]
    exact ⟨.refl f, h⟩
  cases op with
  | create fnidx alloc =>
    rcases seqgenCreate_cases par f fnidx alloc with ⟨_, he⟩ | ⟨_, _, he⟩
    · exact hsame he
    · rw [genStep, he]
      exact ⟨⟨rfl, rfl, rfl, fun _ _ => .refl _⟩, h.set rfl fun m hm s hs => by cases hm; cases hs⟩
  | addStr str fnidx alloc =>
    rcases seqgenAddstr_cases par f str fnidx alloc with ⟨_, he⟩ | ⟨hs, n, hn, he⟩
    · exact hsame he
    · have hlist : ∀ s ∈ (n.withStr str).sgList, InTable s := fun s hmem => by
        rcases mem_withStr.1 hmem with hmem | rfl
        · exact h fnidx n hn s hmem
        · exact hs
      have hw := fun t ht => seqgenApply_keeps (n.withStr str) fnidx (t := t) ht hlist f.tbl
      rw [genStep, he]
      split
      · exact ⟨⟨rfl, rfl, rfl, hw⟩, h.set rfl fun m hm => by cases hm; exact hlist⟩
      · exact ⟨⟨rfl, rfl, rfl, hw⟩,
          h.set rfl fun m hm s hs => by cases hm; exact hlist s (List.mem_of_mem_erase hs)⟩
  | addDir dir fnidx =>
    rcases seqgenAdddir_cases f dir fnidx with ⟨_, he⟩ | ⟨_, n, hn, he⟩
    · exact hsame he
    · have hlist := h fnidx n hn
      have hw := fun t ht => seqgenApply_keeps { n with dir := .inFac } fnidx (t := t) ht hlist f.tbl
      rw [genStep, he]
      split
      · exact ⟨⟨rfl, rfl, rfl, hw⟩, h.set rfl fun m hm => by cases hm; exact hlist⟩
      · exact ⟨⟨rfl, rfl, rfl, hw⟩, h.set rfl fun m hm => by cases hm; exact hlist⟩
  | delStr str =>
    rcases seqgenListDelEntry_cases h ha with ⟨_, tbl, hrows, he⟩ | ⟨fn, n, tbl, _, hn, hmem, hrows, he⟩ <;>
      rw [genStep, he]
    · exact ⟨⟨rfl, rfl, rfl, fun _ _ => .of_rows hrows⟩, h⟩
    · exact ⟨⟨rfl, rfl, rfl, fun t ht => (KeepsWord.of_rows hrows).trans (.wr (h fn n hn str hmem) _ _ ht)⟩,
        h.set rfl fun m hm s hs => by cases hm; exact h fn n hn s (List.mem_of_mem_erase hs)⟩
  | delFn fnidx freed =>
    rcases seqgenRbtDelEntry_cases f fnidx ha with ⟨_, he⟩ | ⟨n, hn, he⟩
    · exact hsame he
    · rw [genStep, he]
      refine ⟨⟨rfl, rfl, rfl, fun t ht => .foldl (fun x s hs => ?_) _⟩, h.set rfl fun m hm => by cases hm⟩
      exact .wr (h fnidx n hn s hs) _ _ ht

/-! ## Encoding -/

/-- What an encoding call leaves alone. -/
structure EncFrame (f f' : EdgxFrer) : Prop where
  sgRoot : f'.sgRoot = f.sgRoot
  srRoot : f'.srRoot = f.srRoot
  words : ∀ t, t ≠ .tbl0 → t ≠ .tbl1 → KeepsWord t f.tbl f'.tbl

theorem EncFrame.refl (f : EdgxFrer) : EncFrame f f := ⟨rfl, rfl, fun _ _ _ => .refl _⟩

theorem EncFrame.trans {f f' f'' : EdgxFrer} (h : EncFrame f f') (h' : EncFrame f' f'') : EncFrame f f'' :=
  ⟨h'.sgRoot.trans h.sgRoot, h'.srRoot.trans h.srRoot, fun t h0 h1 => (h.words t h0 h1).trans (h'.words t h0 h1)⟩

section Keeps

variable {t : Tbl} {s : BitVec 16}

theorem setWord_keeps {tbl : Tbl} (ht : t ≠ tbl) (h : StreamTbl) (w : BitVec 16) : KeepsWord t h (h.setWord s tbl w) :=
  fun x _ => by rw [StreamTbl.setWord_rows, if_neg fun h => ht h.2]

theorem seqencApplyStr_keeps (hs : InTable s) (h0 : t ≠ .tbl0) (h1 : t ≠ .tbl1) (h : StreamTbl) (g g' : BitVec 16 → BitVec 16) :
    KeepsWord t h (modify (modify h s .tbl0 g) s .tbl1 g') := by
  rw [modify_eq hs _ (.inr rfl), modify_eq hs _ (.inl rfl)]
  exact (setWord_keeps h0 _ _).trans (setWord_keeps h1 _ _)

theorem seqencApplydel_keeps (hs : InTable s) (h0 : t ≠ .tbl0) (h1 : t ≠ .tbl1) (h : StreamTbl) (port : Port)
    (portmask : BitVec 16) : KeepsWord t h (edgxFrerSeqencApplydel h port s portmask) := by
  unfold edgxFrerSeqencApplydel
  split
  · exact (KeepsWord.wr hs _ _ h0).trans (.wr hs _ _ h1)
  · exact seqencApplyStr_keeps hs h0 h1 h _ _

end Keeps

theorem seqencApply_frame {f : EdgxFrer} (hf : EncHandles f) (pt : Port) :
    EncFrame f (edgxFrerSeqencApply f pt).2 ∧ EncHandles (edgxFrerSeqencApply f pt).2 := by
  unfold edgxFrerSeqencApply
  dsimp only
  split
  · exact ⟨.refl f, hf⟩
  · refine ⟨⟨rfl, rfl, fun t h0 h1 => .foldl (fun h l hl => ?_) _⟩, hf⟩
    split
    · exact seqencApplyStr_keeps (hf pt l hl) h0 h1 h _ _
    · exact seqencApplyStr_keeps (hf pt l hl) h0 h1 h _ _

theorem EncHandles.set {f f' : EdgxFrer} (h : EncHandles f) {port : Port} {p : SePort}
    (he : f'.sePorts = Function.update f.sePorts port p) (hp : ∀ s ∈ p.seList, InTable s) : EncHandles f' := by
  intro q
  rw [he, Function.update_apply]
  split
  · exact hp
  · exact h q

theorem mem_withStr_port {p : SePort} {str s : BitVec 16} : s ∈ (p.withStr str).seList ↔ s ∈ p.seList ∨ s = str := by
  unfold SePort.withStr
  split
  · rename_i hmem
    exact (or_iff_left_of_imp fun he => he ▸ hmem).symm
  · rw [List.mem_append, List.mem_singleton]

/-- Removing streams keeps to tables 0 and 1, whatever the nodes are. -/
theorem delportfnList_frame {f : EdgxFrer} (hf : EncHandles f) (port : Port) (freed : BitVec 16 → BitVec 16)
    {ls : List (BitVec 16)} (hls : ∀ s ∈ ls, InTable s) :
    EncFrame f (delportfnList port freed ls f).2 ∧ EncHandles (delportfnList port freed ls f).2 := by
  induction ls generalizing f with
  | nil => exact ⟨.refl f, hf⟩
  | cons l ls ih =>
    have hl := hls l List.mem_cons_self
    have hls' : ∀ s ∈ ls, InTable s := fun s hs => hls s (List.mem_cons_of_mem l hs)
    unfold delportfnList
    cases hroot : f.seRoot l with
    | none => exact ⟨.refl f, hf⟩
    | some mask =>
      dsimp only
      generalize hf₁ : (if mask &&& ~~~bit port = 0 then f.setMask l none
        else f.setMask l (some (mask &&& ~~~bit port))) = f₁
      have hparts : f₁.sgRoot = f.sgRoot ∧ f₁.srRoot = f.srRoot ∧ f₁.tbl = f.tbl ∧ f₁.sePorts = f.sePorts := by
        rw [← hf₁]
        split <;> exact ⟨rfl, rfl, rfl, rfl⟩
      obtain ⟨hsg, hsr, htbl, hports⟩ := hparts
      generalize hpm : (if mask &&& ~~~bit port = 0 then freed l else mask &&& ~~~bit port) = pm
      have hstep : EncFrame f { f₁.setPort port { f₁.sePorts port with seList := ls } with
          tbl := edgxFrerSeqencApplydel f₁.tbl port l pm } := by
        refine ⟨hsg, hsr, fun t h0 h1 => ?_⟩
        rw [htbl]
        exact seqencApplydel_keeps hl h0 h1 _ _ _
      have hnew : EncHandles { f₁.setPort port { f₁.sePorts port with seList := ls } with
          tbl := edgxFrerSeqencApplydel f₁.tbl port l pm } :=
        hf.set (by rw [← hports]; rfl) hls'
      obtain ⟨hfr, hh⟩ := ih hnew hls'
      exact ⟨hstep.trans hfr, hh⟩

/-- **Encoding calls keep to tables 0 and 1.** -/
theorem encStep_frame (par : Params) {f : EdgxFrer} (h : EncHandles f) (op : EncOp) :
    EncFrame f (encStep par f op).2 ∧ EncHandles (encStep par f op).2 := by
  have hsame : ∀ {f' : EdgxFrer}, f' = f → EncFrame f f' ∧ EncHandles f' := fun he => by
    rw [he]
    exact ⟨.refl f, h⟩
  -- a change of a port and of masks, applied
  have happly : ∀ {f₁ : EdgxFrer} {port : Port} {p : SePort}, f₁.sgRoot = f.sgRoot → f₁.srRoot = f.srRoot →
      f₁.tbl = f.tbl → f₁.sePorts = Function.update f.sePorts port p → (∀ s ∈ p.seList, InTable s) →
      EncFrame f (edgxFrerSeqencApply f₁ port).2 ∧ EncHandles (edgxFrerSeqencApply f₁ port).2 := by
    intro f₁ port p hsg hsr htbl hports hp
    obtain ⟨hfr, hh⟩ := seqencApply_frame (h.set hports hp) port
    exact ⟨EncFrame.trans ⟨hsg, hsr, fun _ _ _ => .of_rows (by rw [htbl])⟩ hfr, hh⟩
  cases op with
  | create port dir =>
    rcases seqencCreate_cases par port dir f with ⟨_, he⟩ | ⟨_, _, he⟩
    · exact hsame he
    · rw [encStep, he]
      exact ⟨⟨rfl, rfl, fun _ _ _ => .refl _⟩, h.set rfl (h port)⟩
  | addStr str port allocList allocNode =>
    rcases seqencAddStr_cases par str port f allocList allocNode with ⟨_, he⟩ | ⟨hs, _, hr⟩
    · exact hsame he
    · have hlist : ∀ s ∈ ((f.sePorts port).withStr str).seList, InTable s := fun s hmem => by
        rcases mem_withStr_port.1 hmem with hmem | rfl
        · exact h port s hmem
        · exact hs
      rcases hr with ⟨_, _, he⟩ | he <;> rw [encStep, he]
      · exact ⟨⟨rfl, rfl, fun _ _ _ => .refl _⟩, h.set rfl hlist⟩
      · exact happly rfl rfl rfl rfl hlist
  | setActive active port =>
    rcases seqencSetActive_cases active port f with ⟨_, he⟩ | ⟨_, a, _, he⟩
    · exact hsame he
    · rw [encStep, he]
      exact happly rfl rfl rfl rfl (h port)
  | delStr str port =>
    rcases seqencDelstr_shape str port f with ⟨_, a, he⟩ | ⟨hmem, a, root, portmask, he⟩ <;> rw [encStep, he]
    · exact ⟨⟨rfl, rfl, fun _ _ _ => .refl _⟩, h.set rfl (h port)⟩
    · exact ⟨⟨rfl, rfl, fun t h0 h1 => seqencApplydel_keeps (h port str hmem) h0 h1 _ _ _⟩,
        h.set rfl fun s hs => h port s (List.mem_of_mem_erase hs)⟩
  | delPortFn port freed =>
    simp only [encStep, edgxFrerSeqencDelportfn]
    obtain ⟨hfr, hh⟩ := delportfnList_frame h port freed (h port)
    split
    · exact ⟨.refl f, h⟩
    · split
      · exact ⟨hfr, hh⟩
      · exact ⟨hfr.trans ⟨rfl, rfl, fun _ _ _ => .refl _⟩, hh.set rfl (hh port)⟩

/-! ## Recovery -/

/-- What a recovery call leaves alone. -/
structure RecFrame (f f' : EdgxFrer) : Prop where
  sgRoot : f'.sgRoot = f.sgRoot
  sePorts : f'.sePorts = f.sePorts
  seRoot : f'.seRoot = f.seRoot
  words : ∀ t, t ≠ .tbl3 → KeepsWord t f.tbl f'.tbl

theorem RecFrame.refl (f : EdgxFrer) : RecFrame f f := ⟨rfl, rfl, rfl, fun _ _ => .refl _⟩

theorem RecFrame.trans {f f' f'' : EdgxFrer} (h : RecFrame f f') (h' : RecFrame f' f'') : RecFrame f f'' :=
  ⟨h'.sgRoot.trans h.sgRoot, h'.sePorts.trans h.sePorts, h'.seRoot.trans h.seRoot,
    fun t ht => (h.words t ht).trans (h'.words t ht)⟩

theorem RecHandles.set {f f' : EdgxFrer} (h : RecHandles f) {fnidx : BitVec 16} {sr : Option SeqRec}
    (he : f'.srRoot = Function.update f.srRoot fnidx sr) (hn : ∀ m, sr = some m → ∀ s ∈ m.srList, InTable s) :
    RecHandles f' := by
  intro fn m hfn
  rw [he, Function.update_apply] at hfn
  split at hfn
  · exact hn m hfn
  · exact h fn m hfn

theorem seqrecWrite_keeps {str : BitVec 16} (hs : Checkable str) (fnidx : BitVec 16) (del : Bool) {t : Tbl}
    (ht : t ≠ .tbl3) (h : StreamTbl) {l : BitVec 16} (hl : InTable l) : KeepsWord t h (seqrecWrite fnidx str del h l) := by
  obtain ⟨_, _, hrows⟩ := seqrecWriteTblErr_spec hs h fnidx
  have hchk : KeepsWord t h (seqrecWriteTblErr h str fnidx).2 := fun s hx => by rw [hrows s hx]
  unfold seqrecWrite
  dsimp only
  split
  · exact hchk.trans (.wr hl _ _ ht)
  · exact hchk

theorem seqrecApply_frame (par : Params) {f : EdgxFrer} (hf : RecHandles f) (fnidx : BitVec 16) {sr : SeqRec}
    (hsr : ∀ s ∈ sr.srList, InTable s) {str : BitVec 16} (hs : Checkable str) (del : Bool) :
    RecFrame f (edgxFrerSeqrecApply par f fnidx sr str del) ∧
      RecHandles (edgxFrerSeqrecApply par f fnidx sr str del) := by
  have hset : RecFrame f (f.setRec fnidx (some sr)) ∧ RecHandles (f.setRec fnidx (some sr)) :=
    ⟨⟨rfl, rfl, rfl, fun _ _ => .refl _⟩, hf.set rfl fun m hm => by cases hm; exact hsr⟩
  unfold edgxFrerSeqrecApply
  dsimp only
  split
  · split
    · refine ⟨⟨rfl, rfl, rfl, fun t ht => .foldl (fun h l hl => seqrecWrite_keeps hs fnidx del ht h (hsr l hl)) _⟩,
        hset.2.set rfl fun m hm => ?_⟩
      cases hm
      exact hsr
    · split
      · rename_i hne
        exact ⟨⟨rfl, rfl, rfl, fun t ht => seqrecWrite_keeps hs fnidx del ht _ (hs.resolve_right hne)⟩, hset.2⟩
      · exact ⟨⟨rfl, rfl, rfl, fun _ _ => .refl _⟩, hset.2⟩
  · exact hset

theorem delfnList_frame (par : Params) (fnidx : BitVec 16) {ls : List (BitVec 16)} {f : EdgxFrer} (hf : RecHandles f)
    (hls : ∀ s ∈ ls, InTable s) :
    RecFrame f (delfnList par fnidx ls f) ∧ RecHandles (delfnList par fnidx ls f) := by
  induction ls generalizing f with
  | nil => exact ⟨.refl f, hf⟩
  | cons l ls ih =>
    have hls' : ∀ s ∈ ls, InTable s := fun s hs => hls s (List.mem_cons_of_mem l hs)
    unfold delfnList
    cases hroot : f.srRoot fnidx with
    | none => exact ⟨.refl f, hf⟩
    | some sr =>
      dsimp only
      obtain ⟨hfr, hh⟩ := seqrecApply_frame par hf fnidx (hf fnidx sr hroot) (.inl (hls l List.mem_cons_self)) true
      generalize edgxFrerSeqrecApply par f fnidx sr l true = f₁ at hfr hh
      have hnew : RecHandles (f₁.setRec fnidx ((f₁.srRoot fnidx).map fun sr => { sr with srList := ls })) :=
        hh.set rfl fun m hm => by
          obtain ⟨sr', _, rfl⟩ := Option.map_eq_some_iff.1 hm
          exact hls'
      have hset : RecFrame f₁ (f₁.setRec fnidx ((f₁.srRoot fnidx).map fun sr => { sr with srList := ls })) :=
        ⟨rfl, rfl, rfl, fun _ _ => .refl _⟩
      obtain ⟨hfr', hh'⟩ := ih hnew hls'
      exact ⟨(hfr.trans hset).trans hfr', hh'⟩

theorem mem_withStr_rec {sr : SeqRec} {str s : BitVec 16} : s ∈ (sr.withStr str).srList ↔ s ∈ sr.srList ∨ s = str := by
  unfold SeqRec.withStr
  split
  · rename_i hmem
    exact (or_iff_left_of_imp fun he => he ▸ hmem).symm
  · rw [List.mem_append, List.mem_singleton]

/-- **Recovery calls keep to table 3.** -/
theorem recStep_frame (par : Params) {f : EdgxFrer} (h : RecHandles f) (op : RecOp) :
    RecFrame f (recStep par f op).2 ∧ RecHandles (recStep par f op).2 := by
  have hsame : ∀ {f' : EdgxFrer}, f' = f → RecFrame f f' ∧ RecHandles f' := fun he => by
    rw [he]
    exact ⟨.refl f, h⟩
  cases op with
  | create fnidx alloc =>
    rcases seqrecCreate_cases par f fnidx alloc with ⟨_, he⟩ | ⟨_, _, he⟩
    · exact hsame he
    · rw [recStep, he]
      exact ⟨⟨rfl, rfl, rfl, fun _ _ => .refl _⟩, h.set rfl fun m hm s hs => by cases hm; cases hs⟩
  | param p fnidx =>
    rcases recParamStep_cases par f fnidx p with ⟨_, he⟩ | ⟨sr, sr', hsr, hset, he⟩
    · exact hsame he
    · rw [recStep, he]
      refine seqrecApply_frame par h fnidx ?_ (.inr rfl) false
      rw [(RecParam.set_keeps hset).1]
      exact h fnidx sr hsr
  | delPort ptid fnidx =>
    rcases seqrecDelport_cases par ptid fnidx f with ⟨_, he⟩ | ⟨sr, hsr, _, he⟩
    · exact hsame he
    · rw [recStep, he]
      exact ⟨⟨rfl, rfl, rfl, fun _ _ => .refl _⟩, h.set rfl fun m hm => by cases hm; exact h fnidx sr hsr⟩
  | addStr str fnidx alloc =>
    rcases seqrecAddstr_cases par f str fnidx alloc with ⟨_, he⟩ | ⟨hchk, sr, hsr, _, he⟩
    · exact hsame he
    · have hs := inTable_of_checkStrhdl hchk
      rw [recStep, he]
      refine seqrecApply_frame par h fnidx (fun s hmem => ?_) (.inl hs) false
      rcases mem_withStr_rec.1 hmem with hmem | rfl
      · exact h fnidx sr hsr s hmem
      · exact hs
  | delStr str fnidx =>
    rcases seqrecDelstr_cases par f str fnidx with ⟨_, he⟩ | ⟨hs, sr, hsr, _, he⟩
    · exact hsame he
    · rw [recStep, he]
      exact seqrecApply_frame par h fnidx (fun s hmem => h fnidx sr hsr s (List.mem_of_mem_erase hmem)) (.inl hs) true
  | delFn fnidx =>
    rcases seqrecDelfn_cases par fnidx f with ⟨_, he⟩ | ⟨sr, hsr, he⟩
    · exact hsame he
    · obtain ⟨hfr, hh⟩ := delfnList_frame par fnidx h (h fnidx sr hsr)
      rw [recStep, he]
      exact ⟨hfr.trans ⟨rfl, rfl, rfl, fun _ _ => .refl _⟩, hh.set rfl fun m hm => by cases hm⟩

/-! ## All calls -/

/-- The lists of all functions and ports hold handles of rows. -/
structure Handles (f : EdgxFrer) : Prop where
  gen : GenHandles f
  enc : EncHandles f
  recov : RecHandles f

theorem Handles.init : Handles edgxProbeFrer :=
  ⟨fun _ _ h => (nomatch h), fun _ _ h => (nomatch h), fun _ _ h => (nomatch h)⟩

theorem Handles.step {par : Params} {f : EdgxFrer} (h : Handles f) (op : Op) (ha : Addressed f op) :
    Handles (step par f op).2 := by
  obtain ⟨hg, he, hr⟩ := h
  cases op with
  | sg op =>
    obtain ⟨hfr, hh⟩ := genStep_frame par hg op ha
    exact ⟨hh, fun p => by rw [Frer.step, hfr.sePorts]; exact he p, fun fn => by rw [Frer.step, hfr.srRoot]; exact hr fn⟩
  | se op =>
    obtain ⟨hfr, hh⟩ := encStep_frame par he op
    exact ⟨fun fn => by rw [Frer.step, hfr.sgRoot]; exact hg fn, hh, fun fn => by rw [Frer.step, hfr.srRoot]; exact hr fn⟩
  | sr op =>
    obtain ⟨hfr, hh⟩ := recStep_frame par hr op
    exact ⟨fun fn => by rw [Frer.step, hfr.sgRoot]; exact hg fn, fun p => by rw [Frer.step, hfr.sePorts]; exact he p, hh⟩

end TsnSwitch.Frer
