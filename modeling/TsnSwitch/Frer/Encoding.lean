/-
Encoding bits: table 0 of a stream has a port's bit just when the stream is in
the port's list and the port's mode is set, and table 1 just when the mode is
active (`encoded_of_ok`).

Until its mode is set, an entry with streams has no bits. The runs leave out
three slips: a second create of an entry unsets the mode and leaves its bits;
an add-stream that fails to allocate the node of the stream leaves the stream
in the list; a delete-stream of an empty entry that finds no stream deletes
the entry.
-/
import TsnSwitch.Frer.Frames

namespace TsnSwitch.Frer

open Lib

/-! ## The property -/

/-- The mode of the entry is set. -/
def SePort.modeSet (p : SePort) : Prop := p.active = .active ∨ p.active = .passive

instance (p : SePort) : Decidable p.modeSet := inferInstanceAs (Decidable (_ ∨ _))

/-- Each bit is that of a stream in a list, and the nodes have the ports of
the lists. -/
structure EncExact (par : Params) (f : EdgxFrer) : Prop where
  enabled : ∀ s, s.toNat < par.streamsMax → ∀ p : Port, (f.tbl.rows s .tbl0).getLsbD p = true ↔
    s ∈ (f.sePorts p).seList ∧ (f.sePorts p).modeSet
  active : ∀ s, s.toNat < par.streamsMax → ∀ p : Port, (f.tbl.rows s .tbl1).getLsbD p = true ↔
    s ∈ (f.sePorts p).seList ∧ (f.sePorts p).active = .active
  ports : ∀ s (p : Port), (∃ mask, f.seRoot s = some mask ∧ mask.getLsbD p = true) ↔ s ∈ (f.sePorts p).seList
  noEntry : ∀ p, (f.sePorts p).active = .undefined → (f.sePorts p).seList = []

/-- The bits that a call is to clear. -/
def EncOp.clears (s : BitVec 16) (p : Port) : EncOp → Prop
  | .create port _ => p = port
  | .delStr str port => s = str ∧ p = port
  | .delPortFn port _ => p = port
  | _ => False

/-- A call that fails changes nothing, and a delete clears the bits. -/
structure EncKeeps (par : Params) (f : EdgxFrer) (op : EncOp) : Prop where
  error : (encStep par f op).1 ≠ 0 → (encStep par f op).2 = f
  cleared : (encStep par f op).1 = 0 → ∀ s, s.toNat < par.streamsMax → ∀ p : Port, op.clears s p →
    ((encStep par f op).2.tbl.rows s .tbl0).getLsbD p = false ∧ ((encStep par f op).2.tbl.rows s .tbl1).getLsbD p = false

/-- The call meets none of the slips. -/
def EncOk (par : Params) (f : EdgxFrer) (op : Op) : Prop :=
  Addressed f op ∧
    match op with
    | .se (.create port dir) => seqencCheckDir dir = 0 → edgxFrerCheckPort par port = 0 →
      (f.sePorts port).modeSet → (f.sePorts port).seList = []
    | .se (.addStr str port allocList allocNode) => (f.sePorts port).active ≠ .undefined →
      edgxFrerCheckStrhdl par str = 0 → (str ∉ (f.sePorts port).seList → allocList = true) → f.seRoot str = none →
      allocNode = true
    | .se (.delStr _ port) => (f.sePorts port).seList = [] → (f.sePorts port).active = .undefined
    | _ => True

instance (par : Params) (f : EdgxFrer) : ∀ op, Decidable (EncOk par f op)
  | .se (.create _ _) => inferInstanceAs (Decidable (_ ∧ (_ → _ → _ → _)))
  | .se (.addStr _ _ _ _) => inferInstanceAs (Decidable (_ ∧ (_ → _ → _ → _ → _)))
  | .se (.delStr _ _) => inferInstanceAs (Decidable (_ ∧ (_ → _)))
  | .se (.setActive ..) | .se (.delPortFn ..) | .sg _ | .sr _ => inferInstanceAs (Decidable (Addressed _ _ ∧ True))

/-! ## Bits that are written -/

section Bits

variable {h : StreamTbl} {pt q : Port} {s str : BitVec 16}

/-- A change of table 0 and one of table 1. -/
theorem modify_rows (hs : InTable str) (h : StreamTbl) (g g' : BitVec 16 → BitVec 16) (x : BitVec 16) :
    (modify (modify h str .tbl0 g) str .tbl1 g').rows x .tbl0 = (if x = str then g (h.rows str .tbl0) else h.rows x .tbl0) ∧
      (modify (modify h str .tbl0 g) str .tbl1 g').rows x .tbl1 =
        if x = str then g' (h.rows str .tbl1) else h.rows x .tbl1 := by
  rw [modify_eq hs _ (.inr rfl), modify_eq hs _ (.inl rfl)]
  simp only [StreamTbl.setWord_rows, and_true, reduceCtorEq, and_false, if_false, and_self]

/-- The bits after a stream was applied with mode `a`. -/
theorem applyStr_bits (hs : InTable str) (h : StreamTbl) (pt : Port) (a : EncActive) (x : BitVec 16) (q : Port) :
    let h' := if a = .active then seqencApplyActive h pt str else seqencApplyPassive h pt str
    (h'.rows x .tbl0).getLsbD q = ((h.rows x .tbl0).getLsbD q || decide (x = str ∧ q = pt)) ∧
      (h'.rows x .tbl1).getLsbD q =
        if x = str ∧ q = pt then decide (a = .active) else (h.rows x .tbl1).getLsbD q := by
  intro h'
  by_cases ha : a = .active
  · have hh' : h' = seqencApplyActive h pt str := if_pos ha
    obtain ⟨h0, h1⟩ := modify_rows hs h (fun reg => reg ||| bit pt) (fun reg => reg ||| bit pt) x
    rw [hh', seqencApplyActive, h0, h1]
    by_cases hx : x = str
    · subst hx
      rw [if_pos rfl, if_pos rfl, or_bit, or_bit]
      by_cases hq : q = pt <;> simp [hq, ha]
    · simp [hx]
  · have hh' : h' = seqencApplyPassive h pt str := if_neg ha
    obtain ⟨h0, h1⟩ := modify_rows hs h (fun reg => reg ||| bit pt) (fun reg => reg &&& ~~~bit pt) x
    rw [hh', seqencApplyPassive, h0, h1]
    by_cases hx : x = str
    · subst hx
      rw [if_pos rfl, if_pos rfl, or_bit, and_not_bit]
      by_cases hq : q = pt <;> simp [hq, ha]
    · simp [hx]

/-- The bits after a list was applied. -/
theorem applyList_bits {ls : List (BitVec 16)} (hls : ∀ s ∈ ls, InTable s) (h : StreamTbl) (pt : Port) (a : EncActive)
    (x : BitVec 16) (q : Port) :
    let h' := ls.foldl (fun h l => if a = .active then seqencApplyActive h pt l else seqencApplyPassive h pt l) h
    (h'.rows x .tbl0).getLsbD q = ((h.rows x .tbl0).getLsbD q || decide (x ∈ ls ∧ q = pt)) ∧
      (h'.rows x .tbl1).getLsbD q =
        if x ∈ ls ∧ q = pt then decide (a = .active) else (h.rows x .tbl1).getLsbD q := by
  induction ls generalizing h with
  | nil => simp
  | cons l ls ih =>
    intro h'
    obtain ⟨h0, h1⟩ := applyStr_bits (hls l List.mem_cons_self) h pt a x q
    obtain ⟨ih0, ih1⟩ := ih (fun s hs => hls s (List.mem_cons_of_mem l hs))
      (if a = .active then seqencApplyActive h pt l else seqencApplyPassive h pt l)
    refine ⟨(ih0.trans (by rw [h0])).trans ?_, (ih1.trans (by rw [h1])).trans ?_⟩
    · rw [Bool.or_assoc, ← Bool.decide_or]
      congr 2
      rw [List.mem_cons]
      exact propext (by tauto)
    · by_cases hq : q = pt
      · by_cases hx : x ∈ ls
        · rw [if_pos ⟨hx, hq⟩, if_pos ⟨List.mem_cons_of_mem l hx, hq⟩]
        · rw [if_neg fun h => hx h.1]
          simp only [List.mem_cons, hx, or_false]
      · rw [if_neg fun h => hq h.2, if_neg fun h => hq h.2, if_neg fun h => hq h.2]

/-- The bits after applying a port. -/
theorem seqencApply_bits {f : EdgxFrer} (pt : Port) (hls : ∀ s ∈ (f.sePorts pt).seList, InTable s) :
    let r := (edgxFrerSeqencApply f pt).2
    r.sePorts = f.sePorts ∧ r.seRoot = f.seRoot ∧ ∀ x (q : Port),
      ((r.tbl.rows x .tbl0).getLsbD q = true ↔
        (f.tbl.rows x .tbl0).getLsbD q = true ∨ (x ∈ (f.sePorts pt).seList ∧ (f.sePorts pt).modeSet) ∧ q = pt) ∧
      ((r.tbl.rows x .tbl1).getLsbD q = true ↔
        if (x ∈ (f.sePorts pt).seList ∧ (f.sePorts pt).modeSet) ∧ q = pt then (f.sePorts pt).active = .active
        else (f.tbl.rows x .tbl1).getLsbD q = true) := by
  intro r
  have hr : r = (edgxFrerSeqencApply f pt).2 := rfl
  unfold edgxFrerSeqencApply at hr
  dsimp only at hr
  split at hr
  · rename_i hoff
    -- nothing is written
    have hnone : ∀ x q, ¬ ((x ∈ (f.sePorts pt).seList ∧ (f.sePorts pt).modeSet) ∧ q = pt) := by
      rintro x q ⟨⟨hx, hm⟩, _⟩
      rcases hoff with h | h | h
      · exact hm.elim (fun h' => nomatch h.symm.trans h') fun h' => nomatch h.symm.trans h'
      · exact hm.elim (fun h' => nomatch h.symm.trans h') fun h' => nomatch h.symm.trans h'
      · rw [h] at hx
        exact absurd hx List.not_mem_nil
    rw [hr]
    exact ⟨rfl, rfl, fun x q => ⟨(or_iff_left (hnone x q)).symm, by rw [if_neg (hnone x q)]⟩⟩
  · rename_i hon
    have hm : (f.sePorts pt).modeSet := by
      unfold SePort.modeSet
      cases h : (f.sePorts pt).active with
      | active => exact .inl rfl
      | passive => exact .inr rfl
      | unknown => exact absurd (.inl h) hon
      | undefined => exact absurd (.inr (.inl h)) hon
    rw [hr]
    refine ⟨rfl, rfl, fun x q => ?_⟩
    obtain ⟨h0, h1⟩ := applyList_bits hls f.tbl pt (f.sePorts pt).active x q
    dsimp only at h0 h1 ⊢
    have hset : (x ∈ (f.sePorts pt).seList ∧ (f.sePorts pt).modeSet) ↔ x ∈ (f.sePorts pt).seList := and_iff_left hm
    simp only [hset]
    rw [h0, h1, Bool.or_eq_true_iff, decide_eq_true_eq]
    refine ⟨Iff.rfl, ?_⟩
    split
    · exact decide_eq_true_iff
    · exact Iff.rfl

/-- The bits after a stream was removed, if those of no port mean the
stream's are clear. -/
theorem applydel_bits (hs : InTable str) (h : StreamTbl) (port : Port) {portmask : BitVec 16}
    (hzero : portmask = 0 → ∀ q, q ≠ port → (h.rows str .tbl0).getLsbD q = false ∧ (h.rows str .tbl1).getLsbD q = false)
    (x : BitVec 16) (q : Port) :
    let h' := edgxFrerSeqencApplydel h port str portmask
    ((h'.rows x .tbl0).getLsbD q = true ↔ (h.rows x .tbl0).getLsbD q = true ∧ ¬ (x = str ∧ q = port)) ∧
      ((h'.rows x .tbl1).getLsbD q = true ↔ (h.rows x .tbl1).getLsbD q = true ∧ ¬ (x = str ∧ q = port)) := by
  intro h'
  have hh' : h' = edgxFrerSeqencApplydel h port str portmask := rfl
  unfold edgxFrerSeqencApplydel at hh'
  split at hh'
  · rename_i hz
    rw [hh', hs.wr, hs.wr]
    simp only [StreamTbl.setWord_rows, and_true, reduceCtorEq, and_false, if_false, wrVal]
    by_cases hx : x = str
    · subst hx
      by_cases hq : q = port
      · simp [hq]
      · obtain ⟨h0, h1⟩ := hzero hz q hq
        simp [hq, h0, h1]
    · simp [hx]
  · obtain ⟨h0, h1⟩ := modify_rows hs h (fun reg => reg &&& ~~~bit port) (fun reg => reg &&& ~~~bit port) x
    rw [hh', h0, h1]
    by_cases hx : x = str
    · subst hx
      rw [if_pos rfl, if_pos rfl, and_not_bit, and_not_bit]
      simp
    · simp [hx]

end Bits

/-! ## The invariant -/

/-- Bits, lists, modes and masks are consistent. -/
structure EncInv (f : EdgxFrer) : Prop where
  bit0 : ∀ s, InTable s → ∀ p : Port, (f.tbl.rows s .tbl0).getLsbD p = true ↔
    s ∈ (f.sePorts p).seList ∧ (f.sePorts p).modeSet
  bit1 : ∀ s, InTable s → ∀ p : Port, (f.tbl.rows s .tbl1).getLsbD p = true ↔
    s ∈ (f.sePorts p).seList ∧ (f.sePorts p).active = .active
  mask : ∀ s (p : Port), (f.mask s).getLsbD p = true ↔ s ∈ (f.sePorts p).seList
  nodup : ∀ p, (f.sePorts p).seList.Nodup
  noEntry : ∀ p, (f.sePorts p).active = .undefined → (f.sePorts p).seList = []

theorem EncInv.init : EncInv edgxProbeFrer := by
  have hzero : ∀ p : Port, ¬ (0#16).getLsbD p = true := fun p => by
    rw [BitVec.getLsbD_zero]
    exact Bool.false_ne_true
  exact ⟨fun _ _ p => iff_of_false (hzero p) fun h => absurd h.1 List.not_mem_nil,
    fun _ _ p => iff_of_false (hzero p) fun h => absurd h.1 List.not_mem_nil,
    fun _ p => iff_of_false (hzero p) List.not_mem_nil, fun _ => List.nodup_nil, fun _ _ => rfl⟩

section Inv

variable {f f' : EdgxFrer} {port : Port}

theorem EncInv.congr (hi : EncInv f) (hports : f'.sePorts = f.sePorts) (hroot : f'.seRoot = f.seRoot)
    (h0 : KeepsWord .tbl0 f.tbl f'.tbl) (h1 : KeepsWord .tbl1 f.tbl f'.tbl) : EncInv f' where
  bit0 s hs p := by rw [h0 s hs, hports]; exact hi.bit0 s hs p
  bit1 s hs p := by rw [h1 s hs, hports]; exact hi.bit1 s hs p
  mask s p := by rw [hports, EdgxFrer.mask, hroot]; exact hi.mask s p
  nodup p := by rw [hports]; exact hi.nodup p
  noEntry p := by rw [hports]; exact hi.noEntry p

/-- A stream in a list has a node. -/
theorem EncInv.node (hi : EncInv f) {s : BitVec 16} (hs : s ∈ (f.sePorts port).seList) : ∃ mask, f.seRoot s = some mask := by
  have hbit := (hi.mask s port).2 hs
  unfold EdgxFrer.mask at hbit
  cases h : f.seRoot s with
  | some mask => exact ⟨mask, rfl⟩
  | none =>
    rw [h] at hbit
    exact absurd (BitVec.getLsbD_zero.symm.trans hbit) Bool.false_ne_true

/-- The entry of a port is replaced, and its bits with it. -/
theorem EncInv.set (hi : EncInv f) {p : SePort} (hports : f'.sePorts = Function.update f.sePorts port p)
    (hself : ∀ s, InTable s →
      ((f'.tbl.rows s .tbl0).getLsbD port = true ↔ s ∈ p.seList ∧ p.modeSet) ∧
      ((f'.tbl.rows s .tbl1).getLsbD port = true ↔ s ∈ p.seList ∧ p.active = .active))
    (hother : ∀ s, InTable s → ∀ q : Port, q ≠ port →
      ((f'.tbl.rows s .tbl0).getLsbD q = true ↔ (f.tbl.rows s .tbl0).getLsbD q = true) ∧
      ((f'.tbl.rows s .tbl1).getLsbD q = true ↔ (f.tbl.rows s .tbl1).getLsbD q = true))
    (hmask : ∀ s, ((f'.mask s).getLsbD port = true ↔ s ∈ p.seList) ∧
      ∀ q : Port, q ≠ port → ((f'.mask s).getLsbD q = true ↔ (f.mask s).getLsbD q = true))
    (hnodup : p.seList.Nodup) (hno : p.active = .undefined → p.seList = []) : EncInv f' := by
  have hp : f'.sePorts port = p := by rw [hports, Function.update_self]
  have hq : ∀ q, q ≠ port → f'.sePorts q = f.sePorts q := fun q hne => by rw [hports, Function.update_of_ne hne]
  constructor
  case bit0 =>
    intro s hs q
    by_cases hne : q = port
    · rw [hne, hp]
      exact (hself s hs).1
    · rw [hq q hne, (hother s hs q hne).1]
      exact hi.bit0 s hs q
  case bit1 =>
    intro s hs q
    by_cases hne : q = port
    · rw [hne, hp]
      exact (hself s hs).2
    · rw [hq q hne, (hother s hs q hne).2]
      exact hi.bit1 s hs q
  case mask =>
    intro s q
    by_cases hne : q = port
    · rw [hne, hp]
      exact (hmask s).1
    · rw [hq q hne, (hmask s).2 q hne]
      exact hi.mask s q
  case nodup =>
    intro q
    by_cases hne : q = port
    · rw [hne, hp]
      exact hnodup
    · rw [hq q hne]
      exact hi.nodup q
  case noEntry =>
    intro q
    by_cases hne : q = port
    · rw [hne, hp]
      exact hno
    · rw [hq q hne]
      exact hi.noEntry q

/-- The mode changes where no bit depends on it. -/
theorem EncInv.mode (hi : EncInv f) {a : EncActive} (hoff : (f.sePorts port).seList = [] ∨
    ¬ (f.sePorts port).modeSet ∧ a = .unknown) : EncInv (f.setPort port { f.sePorts port with active := a }) := by
  refine hi.set rfl (fun s hs => ?_) (fun s _ q _ => ⟨Iff.rfl, Iff.rfl⟩) (fun s => ⟨hi.mask s port, fun q _ => Iff.rfl⟩)
    (hi.nodup port) fun hun => ?_
  · have h0 := hi.bit0 s hs port
    have h1 := hi.bit1 s hs port
    rcases hoff with hnil | ⟨hm, rfl⟩
    · rw [hnil] at h0 h1 ⊢
      exact ⟨h0.trans (by simp), h1.trans (by simp)⟩
    · refine ⟨h0.trans (iff_of_false (fun h => hm h.2) ?_), h1.trans (iff_of_false (fun h => hm (.inl h.2)) ?_)⟩
      · rintro ⟨_, h | h⟩ <;> exact nomatch h
      · rintro ⟨_, h⟩
        exact nomatch h
  · rcases hoff with hnil | ⟨_, rfl⟩
    · exact hnil
    · exact nomatch hun

/-- A port is applied whose list has grown or whose mode was set. -/
theorem EncInv.apply (hi : EncInv f) {p : SePort} (hports : f'.sePorts = Function.update f.sePorts port p)
    (htbl : f'.tbl = f.tbl) (hls : ∀ s ∈ p.seList, InTable s)
    (hsub : ∀ s ∈ (f.sePorts port).seList, s ∈ p.seList)
    (hmode : (f.sePorts port).modeSet → p.modeSet)
    (hmask : ∀ s, ((f'.mask s).getLsbD port = true ↔ s ∈ p.seList) ∧
      ∀ q : Port, q ≠ port → ((f'.mask s).getLsbD q = true ↔ (f.mask s).getLsbD q = true))
    (hnodup : p.seList.Nodup) (hno : p.active = .undefined → p.seList = []) :
    EncInv (edgxFrerSeqencApply f' port).2 := by
  have hp : f'.sePorts port = p := by rw [hports, Function.update_self]
  obtain ⟨hsame, hroot, hbits⟩ := seqencApply_bits (f := f') port (by rw [hp]; exact hls)
  rw [hp, htbl] at hbits
  refine hi.set (hsame.trans hports) (fun s hs => ?_) (fun s hs q hq => ?_) (fun s => ?_) hnodup hno
  · obtain ⟨h0, h1⟩ := hbits s port
    rw [h0, h1, hi.bit0 s hs port, hi.bit1 s hs port]
    simp only [and_true]
    refine ⟨⟨fun h => h.elim (fun h => ⟨hsub s h.1, hmode h.2⟩) id, .inr⟩, ?_⟩
    by_cases hset : s ∈ p.seList ∧ p.modeSet
    · rw [if_pos hset]
      exact ⟨fun h => ⟨hset.1, h⟩, fun h => h.2⟩
    · rw [if_neg hset]
      refine iff_of_false (fun h => hset ⟨hsub s h.1, hmode (.inl h.2)⟩) fun h => hset ⟨h.1, .inl h.2⟩
  · obtain ⟨h0, h1⟩ := hbits s q
    rw [h0, h1, if_neg fun h => hq h.2]
    exact ⟨or_iff_left fun h => hq h.2, Iff.rfl⟩
  · rw [show (edgxFrerSeqencApply f' port).2.mask s = f'.mask s by rw [EdgxFrer.mask, hroot]; rfl]
    exact hmask s

theorem removed_seList (f : EdgxFrer) (port : Port) (str portmask : BitVec 16) :
    ((f.removed port str portmask).sePorts port).seList = (f.sePorts port).seList.erase str := by
  have hports : (f.removed port str portmask).sePorts =
    Function.update f.sePorts port ⟨(f.sePorts port).seList.erase str, (f.sePorts port).active⟩ := rfl
  rw [hports, Function.update_self]

theorem removed_mask (f : EdgxFrer) (port : Port) (str portmask s : BitVec 16) :
    (f.removed port str portmask).mask s = if s = str then f.mask str &&& ~~~bit port else f.mask s := by
  have hroot : (f.removed port str portmask).seRoot = Function.update f.seRoot str
      (if f.mask str &&& ~~~bit port = 0 then none else some (f.mask str &&& ~~~bit port)) := rfl
  rw [EdgxFrer.mask, hroot, Function.update_apply]
  split
  · split
    · rename_i hz
      rw [hz]
      rfl
    · rfl
  · rfl

/-- A stream that no port is left for has no other bits. -/
theorem EncInv.no_others (hi : EncInv f) {str : BitVec 16} (hs : InTable str) (hz : f.mask str &&& ~~~bit port = 0)
    {q : Port} (hq : q ≠ port) : (f.tbl.rows str .tbl0).getLsbD q = false ∧ (f.tbl.rows str .tbl1).getLsbD q = false := by
  have hclear : (f.mask str &&& ~~~bit port).getLsbD q = false := by
    rw [hz]
    exact BitVec.getLsbD_zero
  have hnot : str ∉ (f.sePorts q).seList := fun h => by
    rw [and_not_bit, (hi.mask str q).2 h, Bool.true_and, Bool.not_eq_false', decide_eq_true_eq] at hclear
    exact hq hclear
  exact ⟨Bool.eq_false_iff.2 (mt (hi.bit0 str hs q).1 fun h => hnot h.1),
    Bool.eq_false_iff.2 (mt (hi.bit1 str hs q).1 fun h => hnot h.1)⟩

/-- A stream is removed from the list of a port. -/
theorem EncInv.removed (hi : EncInv f) {str : BitVec 16} (hs : InTable str) (hmem : str ∈ (f.sePorts port).seList)
    {portmask : BitVec 16} (hzero : portmask = 0 → f.mask str &&& ~~~bit port = 0) : EncInv (f.removed port str portmask) := by
  have hnd := hi.nodup port
  have hbits := applydel_bits hs f.tbl port fun hz q hq => hi.no_others hs (hzero hz) hq
  have herase : ∀ s, s ∈ (f.sePorts port).seList.erase str ↔ s ∈ (f.sePorts port).seList ∧ ¬ s = str := fun s => by
    rw [hnd.mem_erase_iff, and_comm]
  rw [← f.removed_tbl] at hbits
  have hports : (f.removed port str portmask).sePorts =
    Function.update f.sePorts port ⟨(f.sePorts port).seList.erase str, (f.sePorts port).active⟩ := rfl
  have hmask := fun s => removed_mask f port str portmask s
  generalize f.removed port str portmask = f' at hbits hports hmask
  refine hi.set hports (fun s hx => ?_) (fun s _ q hq => ?_) (fun s => ⟨?_, fun q hq => ?_⟩) (hnd.erase str) fun hun => ?_
  · obtain ⟨h0, h1⟩ := hbits s port
    rw [h0, h1, hi.bit0 s hx port, hi.bit1 s hx port, herase s]
    simp only [and_true]
    exact ⟨and_right_comm, and_right_comm⟩
  · obtain ⟨h0, h1⟩ := hbits s q
    rw [h0, h1]
    exact ⟨and_iff_left fun h => hq h.2, and_iff_left fun h => hq h.2⟩
  · rw [hmask s, herase s]
    split
    · rename_i hx
      rw [and_not_bit, decide_eq_true rfl, Bool.not_true, Bool.and_false]
      exact iff_of_false Bool.false_ne_true fun h => h.2 hx
    · rename_i hx
      rw [hi.mask s port]
      exact (and_iff_left hx).symm
  · rw [hmask s]
    split
    · rename_i hx
      rw [and_not_bit, decide_eq_false hq, Bool.not_false, Bool.and_true, hx]
    · exact Iff.rfl
  · rw [hi.noEntry port hun] at hmem
    exact absurd hmem List.not_mem_nil

end Inv

/-! ## Calls -/

/-- What a call does. -/
structure EncDone (f : EdgxFrer) (op : EncOp) (r : Int × EdgxFrer) : Prop where
  inv : EncInv r.2
  error : r.1 ≠ 0 → r.2 = f
  gone : r.1 = 0 → ∀ s p, op.clears s p → s ∉ (r.2.sePorts p).seList ∨ ¬ (r.2.sePorts p).modeSet

section Calls

variable {par : Params} {f : EdgxFrer}

theorem EncDone.refused {op : EncOp} {r : Int × EdgxFrer} (hi : EncInv f) (h : r.1 ≠ 0 ∧ r.2 = f) : EncDone f op r :=
  ⟨by rw [h.2]; exact hi, fun _ => h.2, fun h0 => absurd h0 h.1⟩

theorem EncInv.create (hi : EncInv f) {port : Port} {dir : BitVec 8} (hok : EncOk par f (.se (.create port dir))) :
    EncDone f (.create port dir) (edgxFrerSeqencCreateEntry par port dir f) := by
  rcases seqencCreate_cases par port dir f with he | ⟨hdir, hport, he⟩
  · exact .refused hi he
  rw [he]
  refine ⟨hi.mode ?_, fun h => absurd rfl h, fun _ s p hp => .inr ?_⟩
  · by_cases hm : (f.sePorts port).modeSet
    · exact .inl (hok.2 hdir hport hm)
    · exact .inr ⟨hm, rfl⟩
  · rw [show p = port from hp, EdgxFrer.setPort]
    dsimp only
    rw [Function.update_self]
    rintro (h | h) <;> cases h

theorem EncInv.addStr (hi : EncInv f) (hh : EncHandles f) {str : BitVec 16} {port : Port} {allocList allocNode : Bool}
    (hok : EncOk par f (.se (.addStr str port allocList allocNode))) :
    EncDone f (.addStr str port allocList allocNode) (edgxFrerSeqencAddStr par str port f allocList allocNode) := by
  rcases seqencAddStr_cases par str port f allocList allocNode with he | ⟨hs, hact, hr⟩
  · exact .refused hi he
  have hmode : ((f.sePorts port).withStr str).active = (f.sePorts port).active := by
    unfold SePort.withStr
    split <;> rfl
  have hset : (f.sePorts port).modeSet → ((f.sePorts port).withStr str).modeSet := fun h => by
    unfold SePort.modeSet
    rw [hmode]
    exact h
  have hls : ∀ s ∈ ((f.sePorts port).withStr str).seList, InTable s := fun s hmem => by
    rcases mem_withStr_port.1 hmem with hmem | rfl
    · exact hh port s hmem
    · exact hs
  have hnodup : ((f.sePorts port).withStr str).seList.Nodup := by
    have hnd := hi.nodup port
    unfold SePort.withStr
    split
    · exact hnd
    · rename_i hmem
      refine List.nodup_append.2 ⟨hnd, List.pairwise_singleton _ str, fun a ha b hb => ?_⟩
      rintro rfl
      exact hmem (List.mem_singleton.1 hb ▸ ha)
  rcases hr with ⟨hnone, hfail, he⟩ | he
  · -- the list could be extended, and the node could not be allocated
    unfold edgxFrerSeqencAddStr at he ⊢
    rw [if_neg hact] at he ⊢
    by_cases hchk : edgxFrerCheckStrhdl par str = 0
    · rw [if_neg (not_not.2 hchk)] at he ⊢
      by_cases halloc : str ∉ (f.sePorts port).seList ∧ allocList = false
      · rw [if_pos halloc]
        exact .refused hi (Frer.refused (by decide) rfl)
      · have hnode := hok.2 hact hchk (fun hmem => by simpa [hmem] using halloc) hnone
        exact absurd (hfail.symm.trans hnode) Bool.false_ne_true
    · rw [if_pos hchk]
      exact .refused hi (Frer.refused (by decide) rfl)
  · rw [he]
    refine ⟨hi.apply rfl rfl hls (fun s hmem => mem_withStr_port.2 (.inl hmem)) hset (fun s => ?_) hnodup fun hun => ?_,
      fun h => absurd rfl h, fun _ s p hp => hp.elim⟩
    · have hmask : ((f.setPort port ((f.sePorts port).withStr str)).setMask str (some (f.mask str ||| bit port))).mask s =
          if s = str then f.mask str ||| bit port else f.mask s := by
        simp only [EdgxFrer.mask, EdgxFrer.setMask, Function.update_apply]
        split <;> rfl
      rw [hmask, mem_withStr_port]
      split
      · rename_i hx
        rw [or_bit, decide_eq_true rfl, Bool.or_true]
        refine ⟨iff_of_true rfl (.inr hx), fun q hq => ?_⟩
        rw [or_bit, decide_eq_false hq, Bool.or_false, hx]
      · rename_i hx
        exact ⟨(hi.mask s port).trans (or_iff_left hx).symm, fun q _ => Iff.rfl⟩
    · exact absurd (hmode.symm.trans hun) hact

theorem EncInv.setActive (hi : EncInv f) (hh : EncHandles f) (active : BitVec 8) (port : Port) :
    EncDone f (.setActive active port) (edgxFrerSeqencSetActive active port f) := by
  rcases seqencSetActive_cases active port f with he | ⟨_, a, ha, he⟩
  · exact .refused hi he
  rw [he]
  refine ⟨hi.apply rfl rfl (hh port) (fun s hs => hs) (fun _ => ha) (fun s => ?_) (hi.nodup port) fun hun => ?_,
    fun h => absurd rfl h, fun _ s p hp => hp.elim⟩
  · exact ⟨hi.mask s port, fun q _ => Iff.rfl⟩
  · exact ha.elim (fun h => nomatch h.symm.trans hun) fun h => nomatch h.symm.trans hun

theorem EncInv.delStr (hi : EncInv f) (hh : EncHandles f) {str : BitVec 16} {port : Port}
    (hok : EncOk par f (.se (.delStr str port))) : EncDone f (.delStr str port) (edgxFrerSeqencDelstr str port f) := by
  rcases seqencDelstr_cases port f (fun hmem => hi.node hmem) with ⟨_, he⟩ | ⟨hmem, he⟩
  · refine .refused hi (Frer.refused (by decide) (he.trans (congrArg (Prod.mk (-ENOENT)) ?_)))
    split
    · rename_i hnil
      have hact := hok.2 hnil
      rw [← hact]
      exact congrArg (fun ports => { f with sePorts := ports }) (Function.update_eq_self port f.sePorts)
    · rfl
  · have hrem : EncInv (f.removed port str (f.mask str &&& ~~~bit port)) := hi.removed (hh port str hmem) hmem id
    have hlist : ((f.removed port str (f.mask str &&& ~~~bit port)).sePorts port).seList =
        (f.sePorts port).seList.erase str := removed_seList ..
    rw [he]
    generalize f.removed port str (f.mask str &&& ~~~bit port) = f₁ at hrem hlist
    refine ⟨?_, fun h => absurd rfl h, fun _ s p hp => .inl ?_⟩
    · dsimp only
      split
      · rename_i hnil
        exact hrem.mode (.inl hnil)
      · exact hrem
    · obtain ⟨rfl, rfl⟩ := hp
      have hgone : s ∉ (f₁.sePorts p).seList := hlist ▸ (hi.nodup p).not_mem_erase
      dsimp only
      split
      · rw [EdgxFrer.setPort]
        dsimp only
        rw [Function.update_self]
        exact hgone
      · exact hgone

/-- The loop of a delete of a port removes all its streams. -/
theorem delportfnList_inv (port : Port) (freed : BitVec 16 → BitVec 16) {ls : List (BitVec 16)} (hi : EncInv f)
    (hlist : (f.sePorts port).seList = ls) (hls : ∀ s ∈ ls, InTable s) :
    (delportfnList port freed ls f).1 = 0 ∧ EncInv (delportfnList port freed ls f).2 ∧
      ((delportfnList port freed ls f).2.sePorts port).seList = [] := by
  induction ls generalizing f with
  | nil => exact ⟨rfl, hi, hlist⟩
  | cons l ls ih =>
    have hmem : l ∈ (f.sePorts port).seList := hlist ▸ List.mem_cons_self
    obtain ⟨mask, hmask⟩ := hi.node hmem
    have hm : f.mask l = mask := by rw [EdgxFrer.mask, hmask, Option.getD_some]
    have herase : (f.sePorts port).seList.erase l = ls := by rw [hlist, List.erase_cons_head]
    generalize hpm : (if mask &&& ~~~bit port = 0 then freed l else mask &&& ~~~bit port) = pm
    -- what is read from a freed node makes no difference
    have hrem : EncInv (f.removed port l pm) := hi.removed (hls l List.mem_cons_self) hmem fun hz => by
      rw [hm]
      by_contra hne
      rw [if_neg hne] at hpm
      exact hne (hpm.trans hz)
    have hstep : delportfnList port freed (l :: ls) f = delportfnList port freed ls (f.removed port l pm) := by
      rw [delportfnList, hmask]
      dsimp only
      rw [hpm]
      congr 1
      simp only [EdgxFrer.removed, hm, herase]
      split <;> rfl
    rw [hstep]
    refine ih hrem ?_ fun s hs => hls s (List.mem_cons_of_mem l hs)
    rw [← herase]
    exact removed_seList ..

theorem EncInv.delPortFn (hi : EncInv f) (hh : EncHandles f) (port : Port) (freed : BitVec 16 → BitVec 16) :
    EncDone f (.delPortFn port freed) (edgxFrerSeqencDelportfn port f freed) := by
  obtain ⟨h0, hinv, hnil⟩ := delportfnList_inv port freed hi rfl (hh port)
  unfold edgxFrerSeqencDelportfn
  split
  · exact .refused hi (Frer.refused (by decide) rfl)
  · dsimp only
    rw [if_neg (not_not.2 h0)]
    refine ⟨hinv.mode (.inl hnil), fun h => absurd rfl h, fun _ s p hp => .inl ?_⟩
    rw [show p = port from hp, EdgxFrer.setPort]
    dsimp only
    rw [Function.update_self, hnil]
    exact List.not_mem_nil

end Calls

/-! ## Runs -/

theorem EncInv.call {par : Params} {f : EdgxFrer} (hi : EncInv f) (hh : EncHandles f) {op : EncOp}
    (hok : EncOk par f (.se op)) : EncDone f op (encStep par f op) := by
  cases op with
  | create port dir => exact hi.create hok
  | addStr str port allocList allocNode => exact hi.addStr hh hok
  | setActive active port => exact hi.setActive hh active port
  | delStr str port => exact hi.delStr hh hok
  | delPortFn port freed => exact hi.delPortFn hh port freed

theorem EncInv.step {par : Params} {f : EdgxFrer} (hi : EncInv f) (hh : Handles f) {op : Op} (hok : EncOk par f op) :
    EncInv (step par f op).2 := by
  cases op with
  | sg op =>
    have hfr := (genStep_frame par hh.gen op hok.1).1
    exact hi.congr hfr.sePorts hfr.seRoot (hfr.words .tbl0 (by decide)) (hfr.words .tbl1 (by decide))
  | se op => exact (hi.call hh.enc hok).inv
  | sr op =>
    have hfr := (recStep_frame par hh.recov op).1
    exact hi.congr hfr.sePorts hfr.seRoot (hfr.words .tbl0 (by decide)) (hfr.words .tbl1 (by decide))

theorem encInv_after {par : Params} {ops : List Op} (h : Guarded (step par) (EncOk par) edgxProbeFrer ops) :
    EncInv (after (step par) edgxProbeFrer ops) ∧ Handles (after (step par) edgxProbeFrer ops) := by
  refine h.inv_after (I := fun f => EncInv f ∧ Handles f) ⟨.init, .init⟩ ?_
  rintro f op ⟨hi, hh⟩ hok
  exact ⟨hi.step hh hok, hh.step op hok.1⟩

/-- **Encoding bits are exact**, after every run of calls that meet none of
the slips. A call that fails changes nothing, and one that deletes a stream, a
port or an entry clears the bits. -/
theorem encoded_of_ok (par : Params) (ops : List Op) (h : Guarded (step par) (EncOk par) edgxProbeFrer ops) :
    EncExact par (after (step par) edgxProbeFrer ops) ∧
      ∀ pre op suf, ops = pre ++ .se op :: suf → EncKeeps par (after (step par) edgxProbeFrer pre) op := by
  have hin : ∀ s : BitVec 16, s.toNat < par.streamsMax → InTable s := fun s hs => Nat.lt_of_lt_of_le hs par.streams_le
  refine ⟨?_, ?_⟩
  · obtain ⟨hi, _⟩ := encInv_after h
    refine ⟨fun s hs => hi.bit0 s (hin s hs), fun s hs => hi.bit1 s (hin s hs), fun s p => ?_, hi.noEntry⟩
    refine ⟨fun ⟨mask, hmask, hbit⟩ => (hi.mask s p).1 ?_, fun hmem => ?_⟩
    · rw [EdgxFrer.mask, hmask, Option.getD_some]
      exact hbit
    · obtain ⟨mask, hmask⟩ := hi.node hmem
      have hbit := (hi.mask s p).2 hmem
      rw [EdgxFrer.mask, hmask, Option.getD_some] at hbit
      exact ⟨mask, hmask, hbit⟩
  · rintro pre op suf rfl
    obtain ⟨hi, hh⟩ := encInv_after h.of_append
    have hdone := hi.call hh.enc h.at_step
    refine ⟨hdone.error, fun h0 s hs p hp => ?_⟩
    have hgone := hdone.gone h0 s p hp
    refine ⟨Bool.eq_false_iff.2 (mt (hdone.inv.bit0 s (hin s hs) p).1 fun hc => ?_),
      Bool.eq_false_iff.2 (mt (hdone.inv.bit1 s (hin s hs) p).1 fun hc => ?_)⟩
    · exact hgone.elim (fun hn => hn hc.1) fun hn => hn hc.2
    · exact hgone.elim (fun hn => hn hc.1) fun hn => hn (.inl hc.2)

/-- Stream 5 is encoded for two ports and then for one. -/
theorem encoded_of_ok_two_ports :
    EncExact .threePorts (after (step .threePorts) edgxProbeFrer [.se (.create ⟨1, by decide⟩ 1),
      .se (.addStr 5 ⟨1, by decide⟩ true true), .se (.create ⟨2, by decide⟩ 1), .se (.setActive 0 ⟨2, by decide⟩),
      .se (.addStr 5 ⟨2, by decide⟩ true true), .se (.setActive 1 ⟨1, by decide⟩), .se (.delStr 5 ⟨2, by decide⟩)]) :=
  (encoded_of_ok .threePorts _ (by decide +kernel)).1

/-- An entry whose mode is not set has streams and no bits. -/
theorem not_enabled_without_mode :
    let f := after (step .threePorts) edgxProbeFrer [.se (.create ⟨1, by decide⟩ 1),
      .se (.addStr 5 ⟨1, by decide⟩ true true)]
    ¬ ∀ s, s.toNat < Params.threePorts.streamsMax → ∀ p : Port, (f.tbl.rows s .tbl0).getLsbD p = true ↔
      (f.sePorts p).active ≠ .undefined ∧ s ∈ (f.sePorts p).seList := by
  intro f h
  have hbit := (h 5 (by decide) ⟨1, by decide⟩).2 (by decide +kernel)
  exact absurd hbit (by decide +kernel)

end TsnSwitch.Frer
