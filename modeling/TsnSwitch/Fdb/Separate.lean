/-
Forwarding entries and stream identification entries share the slots of the
table. This file says when they stay separate: what the table holds for a
key is then the fold of the forwarding calls on that key and, independently,
of the stream identification calls on that key.

They do not always: both add paths take a slot that only the other kind
uses, for whichever key. `Clear` is the condition on a call and the table
before it under which no such slot is taken.
-/
import TsnSwitch.Fdb.Slots
import TsnSwitch.Lib.Run

namespace TsnSwitch.Fdb

open Lib

/-- The ports the table forwards `k` to. -/
def fwdMask (b : Brfdb) (k : Key) : BitVec 16 := (fdbKind.get b k).getD 0

/-- The stream handle the table gives `k`. -/
def strHdl (b : Brfdb) (k : Key) : Option (BitVec 16) := sidKind.get b k

def Sid.key (sid : Sid) : Key := (sid.addr, sid.vid)

/-- The key a call is about. -/
def Op.key : Op → Key
  | .add k _ | .del k _ | .sidDel k => k
  | .sidAdd sid => sid.key

/-- The call is a forwarding call. -/
def Op.isFdb : Op → Bool
  | .add _ _ | .del _ _ => true
  | .sidAdd _ | .sidDel _ => false

/-- The port mask of `k` after a forwarding call that returned `r`. -/
def fwdStep (k : Key) (m : BitVec 16) : Op × Int → BitVec 16
  | (.add k' ptid, r) => if k' = k ∧ r = 0 then m ||| BIT ptid else m
  | (.del k' ptid, r) => if k' = k ∧ r = 0 then m &&& ~~~BIT ptid else m
  | (.sidAdd _, _) | (.sidDel _, _) => m

/-- The stream handle of `k` after a stream identification call that
returned `r`. -/
def hdlStep (k : Key) (h : Option (BitVec 16)) : Op × Int → Option (BitVec 16)
  | (.sidAdd sid, r) => if sid.key = k ∧ r = 0 then some sid.strHdl else h
  | (.sidDel k', r) => if k' = k ∧ r = 0 then none else h
  | (.add _ _, _) | (.del _ _, _) => h

/-- The column in which a new forwarding entry for `k` would be created. -/
def newFdbCol (b : Brfdb) (k : Key) : Option Nat :=
  if (List.range SMAC_NCOLS).any (fdbKind.fits b k) then none
  else (List.range SMAC_NCOLS).find? fun i =>
    !edgxBrfdbIsFdbUsed (slot b k i) && edgxBrfdbColIsVid i k.2

/-- The column `edgx_brfdb_sid_add` would write. -/
def newSidCol (b : Brfdb) (sid : Sid) : Option Nat :=
  if (List.range NCOLS_VLAN).any fun i => fdbKind.fits b sid.key i &&
      ((slot b sid.key i).streamNo == sid.strHdl && edgxBrfdbIsSidUsed (slot b sid.key i)) then none
  else (List.range NCOLS_VLAN).find? fun i => !edgxBrfdbIsSidUsed (slot b sid.key i)

/-- The call takes no slot that the other kind uses for another key.

A new forwarding entry may also share the slot of its own key's stream
identification entry when the stream number left in the register window (by
the read of the last column) is that entry's. A stream identification entry
may share the slot of its own key's forwarding entry; its key must not have
a stream identification entry already. -/
def Clear (b : Brfdb) : Op → Prop
  | .add k _ => ∀ i ∈ newFdbCol b k, edgxBrfdbIsSidUsed (slot b k i) = true →
      (slot b k i).key = k ∧ (slot b k 3).streamNo = (slot b k i).streamNo
  | .sidAdd sid => ∀ i ∈ newSidCol b sid,
      (edgxBrfdbIsFdbUsed (slot b sid.key i) = true → (slot b sid.key i).key = sid.key) ∧
        strHdl b sid.key = none
  | .del _ _ | .sidDel _ => True

instance (b : Brfdb) : ∀ op, Decidable (Clear b op)
  | .add _ _ | .sidAdd _ | .del _ _ | .sidDel _ => by unfold Clear; infer_instance

/-! ## What each call does -/

/-- A slot as the driver reads it. -/
def SmacEntry.read (e : SmacEntry) : SmacEntry := { e with policedPts := 0, policer := 0 }

theorem findSlot_map (cs : List Nat) (E : Nat → SmacEntry) (p : Nat → SmacEntry → Bool) :
    findSlot (cs.map fun c => (c, E c)) p = (cs.find? fun c => p c (E c)).map fun c => (c, E c) := by
  rw [findSlot, List.find?_map]; rfl

theorem getCols_range4 (b : Brfdb) (k : Key) :
    getCols b (edgxBrfdbCalcSmacRows b.nrows k.1 k.2) (List.range SMAC_NCOLS) =
      ((List.range SMAC_NCOLS).map fun c => (c, (slot b k c).read), { b with reg := slot b k 3 }) := rfl

theorem getCols_range2 (b : Brfdb) (k : Key) :
    getCols b (edgxBrfdbCalcSmacRows b.nrows k.1 k.2) (List.range NCOLS_VLAN) =
      ((List.range NCOLS_VLAN).map fun c => (c, (slot b k c).read), { b with reg := slot b k 1 }) := rfl

/-- What `edgx_brfdb_add` and `edgx_brfdb_del` write: `k`'s entry with port
mask `m`, other fields as in the slot. -/
structure PortWrite (b : Brfdb) (k : Key) (i : Nat) (m : BitVec 16) (e : SmacEntry) : Prop where
  key : e.key = k
  mask : e.fwdMask = m
  fdb : edgxBrfdbIsFdbUsed e = decide (m ≠ 0#16)
  sid : edgxBrfdbIsSidUsed e = edgxBrfdbIsSidUsed (slot b k i)

/-- The update of an existing forwarding entry to port mask `m`. -/
theorem writes_ports (b : Brfdb) (k : Key) {i : Nat} (hf : fdbKind.fits b k i = true) (m : BitVec 16) (reg) :
    let e := edgxBrfdbSetGeneral { (slot b k i).read with fwdMask := m }
    let b' := edgxBrfdbSmacSet { b with reg } i (edgxBrfdbCalcSmacRows b.nrows k.1 k.2 i) e (edgxBrfdbIsSidUsed e)
    ∃ e', Writes b k i e' b' ∧ PortWrite b k i m e' ∧
      (edgxBrfdbIsSidUsed (slot b k i) = true → e'.streamNo = (slot b k i).streamNo) := by
  intro e b'
  have hkey : e.key = k := (Kind.fits_iff.1 hf).2
  have hsid : edgxBrfdbIsSidUsed e = edgxBrfdbIsSidUsed (slot b k i) := setGeneral_isSidUsed _
  refine ⟨_, ⟨rfl, rfl⟩, ⟨hkey, rfl, setGeneral_isFdbUsed _, hsid⟩, fun hs => ?_⟩
  rw [hsid, hs]; rfl

theorem add_cases (b : Brfdb) (k : Key) (ptid : Nat) :
    let r := edgxBrfdbAdd b k.1 k.2 ptid
    (∃ i < SMAC_NCOLS, fdbKind.fits b k i = true ∧ r.1 = 0 ∧ r.2.sents = b.sents ∧
      ∃ e, Writes b k i e r.2 ∧ PortWrite b k i ((slot b k i).fwdMask ||| BIT ptid) e ∧
        (edgxBrfdbIsSidUsed (slot b k i) = true → e.streamNo = (slot b k i).streamNo)) ∨
    (∃ i < SMAC_NCOLS, newFdbCol b k = some i ∧ r.1 = 0 ∧ r.2.sents = b.sents + 1 ∧
      (∀ c < SMAC_NCOLS, fdbKind.fits b k c = false) ∧ edgxBrfdbIsFdbUsed (slot b k i) = false ∧
      ∃ e, Writes b k i e r.2 ∧ PortWrite b k i (BIT ptid) e ∧ e.streamNo = (slot b k 3).streamNo) ∨
    ((∀ c < SMAC_NCOLS, fdbKind.fits b k c = false) ∧ newFdbCol b k = none ∧ r.1 = -ENOMEM ∧ r.2.sents = b.sents ∧
      r.2.tbl = b.tbl ∧ r.2.nrows = b.nrows) := by
  intro r
  simp only [r, edgxBrfdbAdd, getCols_range4, findSlot_map]
  cases hf : (List.range SMAC_NCOLS).find? fun c => edgxBrfdbIsFdbFit (slot b k c).read k.1 k.2 with
  | some i =>
    left
    have hi := List.mem_range.1 (List.mem_of_find?_eq_some hf)
    have hfit : fdbKind.fits b k i = true := List.find?_some hf
    exact ⟨i, hi, hfit, rfl, rfl, writes_ports b k hfit _ _⟩
  | none =>
    right
    have hnone : ∀ c < SMAC_NCOLS, fdbKind.fits b k c = false := fun c hc =>
      Bool.eq_false_iff.2 (List.find?_eq_none.1 hf c (List.mem_range.2 hc))
    have hany : (List.range SMAC_NCOLS).any (fdbKind.fits b k) = false := by
      rw [List.any_eq_false]
      exact List.find?_eq_none.1 hf
    simp only [Option.map_none]
    cases hn : (List.range SMAC_NCOLS).find? fun c =>
        !edgxBrfdbIsFdbUsed (slot b k c).read && edgxBrfdbColIsVid c k.2 with
    | none =>
      have hcol : newFdbCol b k = none := by
        rw [newFdbCol, hany]; exact hn
      exact .inr ⟨hnone, hcol, rfl, rfl, rfl, rfl⟩
    | some i =>
      have hcol : newFdbCol b k = some i := by
        rw [newFdbCol, hany]; exact hn
      have hp := List.find?_some hn
      simp only [Bool.and_eq_true, Bool.not_eq_true'] at hp
      exact .inl ⟨i, List.mem_range.1 (List.mem_of_find?_eq_some hn), hcol, rfl, rfl, hnone, hp.1,
        _, ⟨rfl, rfl⟩, ⟨rfl, rfl, setGeneral_isFdbUsed _, setGeneral_isSidUsed _⟩, rfl⟩

theorem del_cases (b : Brfdb) (k : Key) (ptid : Nat) :
    let r := edgxBrfdbDel b k.1 k.2 ptid
    r.1 = 0 ∧
    ((∃ i < SMAC_NCOLS, fdbKind.fits b k i = true ∧
      r.2.sents = (if (slot b k i).fwdMask &&& ~~~BIT ptid = 0#16 then b.sents - 1 else b.sents) ∧
      ∃ e, Writes b k i e r.2 ∧ PortWrite b k i ((slot b k i).fwdMask &&& ~~~BIT ptid) e ∧
        (edgxBrfdbIsSidUsed (slot b k i) = true → e.streamNo = (slot b k i).streamNo)) ∨
    ((∀ c < SMAC_NCOLS, fdbKind.fits b k c = false) ∧ r.2.sents = b.sents ∧ r.2.tbl = b.tbl ∧
      r.2.nrows = b.nrows)) := by
  intro r
  simp only [r, edgxBrfdbDel, getCols_range4, findSlot_map]
  cases hf : (List.range SMAC_NCOLS).find? fun c => edgxBrfdbIsFdbFit (slot b k c).read k.1 k.2 with
  | some i =>
    have hi := List.mem_range.1 (List.mem_of_find?_eq_some hf)
    have hfit : fdbKind.fits b k i = true := List.find?_some hf
    obtain ⟨e, hw, he⟩ := writes_ports b k hfit ((slot b k i).fwdMask &&& ~~~BIT ptid) (slot b k 3)
    refine ⟨rfl, .inl ⟨i, hi, hfit, ?_, e, ?_, he⟩⟩
    · exact apply_ite Brfdb.sents _ _ _
    · -- the count of static entries does not matter to the table
      dsimp only [Option.map_some]
      split <;> exact hw
  | none =>
    exact ⟨rfl, .inr ⟨fun c hc => Bool.eq_false_iff.2 (List.find?_eq_none.1 hf c (List.mem_range.2 hc)),
      rfl, rfl, rfl⟩⟩

theorem sidAdd_general (g : BitVec 16) (b7 : Prop) [Decidable b7] :
    (if b7 then g ||| (BIT 6 ||| BIT 12) ||| BIT 7 else g ||| (BIT 6 ||| BIT 12)).getLsbD 6 = true ∧
    (if b7 then g ||| (BIT 6 ||| BIT 12) ||| BIT 7 else g ||| (BIT 6 ||| BIT 12)).getLsbD 15 = g.getLsbD 15 := by
  by_cases h : b7 <;> simp [h]

theorem sidAdd_spec (b : Brfdb) (sid : Sid) :
    let r := edgxBrfdbSidAdd b sid
    (∃ i < NCOLS_VLAN, newSidCol b sid = some i ∧ r.1 = (0, true) ∧
      edgxBrfdbIsSidUsed (slot b sid.key i) = false ∧
      ∃ e, Writes b sid.key i e r.2 ∧ e.key = sid.key ∧ e.streamNo = sid.strHdl ∧
        e.fwdMask = (slot b sid.key i).fwdMask ∧ edgxBrfdbIsSidUsed e = true ∧
        edgxBrfdbIsFdbUsed e = edgxBrfdbIsFdbUsed (slot b sid.key i)) ∨
    (∃ i < NCOLS_VLAN, r.1 = (0, false) ∧ sidKind.fits b sid.key i = true ∧
      (slot b sid.key i).streamNo = sid.strHdl ∧ r.2 = { b with reg := slot b sid.key 1 }) ∨
    (r.1 = (-ENOMEM, false) ∧ r.2 = { b with reg := slot b sid.key 1 }) := by
  intro r
  simp only [r, edgxBrfdbSidAdd]
  rw [show getCols b (edgxBrfdbCalcSmacRows b.nrows sid.addr sid.vid) (List.range NCOLS_VLAN) = _ from
    getCols_range2 b sid.key]
  simp only [findSlot_map]
  cases hf : (List.range NCOLS_VLAN).find? fun c =>
      edgxBrfdbIsFdbFit (slot b sid.key c).read sid.addr sid.vid &&
        ((slot b sid.key c).read.streamNo == sid.strHdl && edgxBrfdbIsSidUsed (slot b sid.key c).read) with
  | some i =>
    right; left
    have hp := List.find?_some hf
    simp only [Bool.and_eq_true, beq_iff_eq] at hp
    have hkey := (Kind.fits_iff (K := fdbKind) (b := b) (k := sid.key) (c := i)).1 hp.1
    exact ⟨i, List.mem_range.1 (List.mem_of_find?_eq_some hf), rfl, Kind.fits_iff.2 ⟨hp.2.2, hkey.2⟩,
      hp.2.1, rfl⟩
  | none =>
    simp only [Option.map_none]
    cases hn : (List.range NCOLS_VLAN).find? fun c => !edgxBrfdbIsSidUsed (slot b sid.key c).read with
    | none => exact .inr (.inr ⟨rfl, rfl⟩)
    | some i =>
      left
      have hcol : newSidCol b sid = some i := by
        rw [newSidCol, if_neg]
        · exact hn
        · rw [Bool.not_eq_true, List.any_eq_false]
          exact List.find?_eq_none.1 hf
      have hp := List.find?_some hn
      simp only [Bool.not_eq_true'] at hp
      have hg := sidAdd_general (slot b sid.key i).general (sid.idType ≠ 0)
      refine ⟨i, List.mem_range.1 (List.mem_of_find?_eq_some hn), hcol, rfl, hp, _, ⟨rfl, rfl⟩, rfl, rfl,
        rfl, ?_, ?_⟩
      · rw [isSidUsed_eq]; exact hg.1
      · rw [isFdbUsed_eq, isFdbUsed_eq]; exact hg.2

theorem sidAdd_cases (b : Brfdb) (sid : Sid) :
    let r := edgxBrfdbSidAdd b sid
    (∃ i < NCOLS_VLAN, newSidCol b sid = some i ∧ r.1.1 = 0 ∧
      edgxBrfdbIsSidUsed (slot b sid.key i) = false ∧
      ∃ e, Writes b sid.key i e r.2 ∧ e.key = sid.key ∧ e.streamNo = sid.strHdl ∧
        e.fwdMask = (slot b sid.key i).fwdMask ∧ edgxBrfdbIsSidUsed e = true ∧
        edgxBrfdbIsFdbUsed e = edgxBrfdbIsFdbUsed (slot b sid.key i)) ∨
    (∃ i < NCOLS_VLAN, r.1.1 = 0 ∧ sidKind.fits b sid.key i = true ∧
      (slot b sid.key i).streamNo = sid.strHdl ∧ r.2.tbl = b.tbl ∧ r.2.nrows = b.nrows) ∨
    (r.1.1 = -ENOMEM ∧ r.2.tbl = b.tbl ∧ r.2.nrows = b.nrows) := by
  intro r
  rcases sidAdd_spec b sid with ⟨i, hi, hn, hr, h⟩ | ⟨i, hi, hr, hf, hs, hb⟩ | ⟨hr, hb⟩
  · exact .inl ⟨i, hi, hn, congrArg Prod.fst hr, h⟩
  · exact .inr (.inl ⟨i, hi, congrArg Prod.fst hr, hf, hs, by simp only [r, hb], by simp only [r, hb]⟩)
  · exact .inr (.inr ⟨congrArg Prod.fst hr, by simp only [r, hb], by simp only [r, hb]⟩)

/-- The deletion takes the first column that fits. -/
theorem sidDel_spec (b : Brfdb) (k : Key) :
    let r := edgxBrfdbSidDel b k.1 k.2
    r.1 = 0 ∧
    ((∃ i, (List.range NCOLS_VLAN).find? (sidKind.fits b k) = some i ∧
      ∃ e, Writes b k i e r.2 ∧ e.key = k ∧ e.fwdMask = (slot b k i).fwdMask ∧
        edgxBrfdbIsSidUsed e = false ∧ edgxBrfdbIsFdbUsed e = edgxBrfdbIsFdbUsed (slot b k i)) ∨
    ((List.range NCOLS_VLAN).find? (sidKind.fits b k) = none ∧ r.2 = { b with reg := slot b k 1 })) := by
  intro r
  simp only [r, edgxBrfdbSidDel, getCols_range2, findSlot_map]
  cases hf : (List.range NCOLS_VLAN).find? fun c => edgxBrfdbIsSidFit (slot b k c).read k.1 k.2 with
  | some i =>
    have hfit : sidKind.fits b k i = true := List.find?_some hf
    refine ⟨rfl, .inl ⟨i, hf, _, ⟨rfl, rfl⟩, (Kind.fits_iff.1 hfit).2, rfl, ?_, ?_⟩⟩
    · rw [isSidUsed_eq]; simp
    · rw [isFdbUsed_eq, isFdbUsed_eq]; simp [SmacEntry.read]
  | none => exact ⟨rfl, .inr ⟨hf, rfl⟩⟩

theorem sidDel_cases (b : Brfdb) (k : Key) :
    let r := edgxBrfdbSidDel b k.1 k.2
    r.1 = 0 ∧
    ((∃ i < NCOLS_VLAN, sidKind.fits b k i = true ∧
      ∃ e, Writes b k i e r.2 ∧ e.key = k ∧ e.fwdMask = (slot b k i).fwdMask ∧
        edgxBrfdbIsSidUsed e = false ∧ edgxBrfdbIsFdbUsed e = edgxBrfdbIsFdbUsed (slot b k i)) ∨
    ((∀ c < NCOLS_VLAN, sidKind.fits b k c = false) ∧ r.2.tbl = b.tbl ∧ r.2.nrows = b.nrows)) := by
  intro r
  obtain ⟨hr, ⟨i, hf, h⟩ | ⟨hf, hb⟩⟩ := sidDel_spec b k
  · exact ⟨hr, .inl ⟨i, List.mem_range.1 (List.mem_of_find?_eq_some hf), List.find?_some hf, h⟩⟩
  · exact ⟨hr, .inr ⟨fun c hc => Bool.eq_false_iff.2 (List.find?_eq_none.1 hf c (List.mem_range.2 hc)),
      by simp only [r, hb], by simp only [r, hb]⟩⟩

/-! ## One call -/

/-- No key has two entries of one kind. -/
structure Good (b : Brfdb) : Prop where
  fdb : fdbKind.Uniq b
  sid : sidKind.Uniq b

/-- What one call does to what the table holds for every key. -/
def Folds (b : Brfdb) (op : Op) (r : Int) (b' : Brfdb) : Prop :=
  ∀ k, fwdMask b' k = fwdStep k (fwdMask b k) (op, r) ∧ strHdl b' k = hdlStep k (strHdl b k) (op, r)

theorem slot_congr {b b' : Brfdb} (ht : b'.tbl = b.tbl) (hn : b'.nrows = b.nrows) : slot b' = slot b := by
  funext k c; rw [slot, slot, ht, hn]

theorem Kind.get_same {β : Type} (K : Kind β) {b b' : Brfdb} (h : slot b' = slot b) : K.get b' = K.get b := by
  funext k
  simp only [Kind.get, h, show K.fits b' = K.fits b by funext k c; simp only [Kind.fits, h]]

theorem Good.same {b b' : Brfdb} (hg : Good b) (h : slot b' = slot b) : Good b' := by
  refine ⟨?_, ?_⟩
  · intro k c c'; simp only [Kind.fits, h]; exact hg.fdb k c c'
  · intro k c c'; simp only [Kind.fits, h]; exact hg.sid k c c'

section Write

variable {b b' : Brfdb} {k : Key} {i : Nat} {m : BitVec 16} {e : SmacEntry}

/-- A forwarding call's write keeps every stream handle and every other
key's ports. -/
theorem fdb_write (hg : Good b) (hw : Writes b k i e b') (hi : i < SMAC_NCOLS) (he : PortWrite b k i m e)
    (hfdb : edgxBrfdbIsFdbUsed (slot b k i) = true → (slot b k i).key = k)
    (hcols : ∀ c < SMAC_NCOLS, c ≠ i → fdbKind.fits b k c = false)
    (hsid : edgxBrfdbIsSidUsed (slot b k i) = true →
      (slot b k i).key = k ∧ e.streamNo = (slot b k i).streamNo) :
    Good b' ∧ fwdMask b' k = m ∧ (∀ k' ≠ k, fwdMask b' k' = fwdMask b k') ∧
      ∀ k', strHdl b' k' = strHdl b k' := by
  refine ⟨⟨Kind.uniq_write_set hg.fdb hw he.key hfdb hcols,
    Kind.uniq_write_keep hg.sid hw he.key (fun _ => he.sid) fun _ => hsid⟩, ?_, ?_, ?_⟩
  · have hget := Kind.get_write_set hg.fdb hw hi he.key hfdb hcols
    rw [fwdMask, hget, show fdbKind.used e = decide (m ≠ 0#16) from he.fdb]
    by_cases hm : m = 0#16
    · simp [hm]
    · simpa [hm, fdbKind] using he.mask
  · intro k' hk
    rw [fwdMask, fwdMask, Kind.get_write_other hw he.key hk hfdb]
  · intro k'
    exact Kind.get_write_keep hw he.key (fun _ => he.sid) fun _ => hsid

/-- A stream identification call's write keeps every port mask and every
other key's stream handle. -/
theorem sid_write (hg : Good b) (hw : Writes b k i e b') (hi : i < NCOLS_VLAN) (hkey : e.key = k)
    (hmask : e.fwdMask = (slot b k i).fwdMask)
    (hused : edgxBrfdbIsFdbUsed e = edgxBrfdbIsFdbUsed (slot b k i))
    (hsid : edgxBrfdbIsSidUsed (slot b k i) = true → (slot b k i).key = k)
    (hcols : ∀ c < NCOLS_VLAN, c ≠ i → sidKind.fits b k c = false)
    (hfdb : edgxBrfdbIsFdbUsed (slot b k i) = true → (slot b k i).key = k) :
    Good b' ∧ strHdl b' k = (if edgxBrfdbIsSidUsed e then some e.streamNo else none) ∧
      (∀ k' ≠ k, strHdl b' k' = strHdl b k') ∧ ∀ k', fwdMask b' k' = fwdMask b k' := by
  refine ⟨⟨Kind.uniq_write_keep hg.fdb hw hkey (fun _ => hused) fun _ hu => ⟨hfdb hu, hmask⟩,
    Kind.uniq_write_set hg.sid hw hkey hsid hcols⟩, ?_, ?_, ?_⟩
  · exact Kind.get_write_set hg.sid hw hi hkey hsid hcols
  · exact fun k' hk => Kind.get_write_other hw hkey hk hsid
  · intro k'
    rw [fwdMask, fwdMask,
      Kind.get_write_keep (K := fdbKind) hw hkey (fun _ => hused) fun _ hu => ⟨hfdb hu, hmask⟩]

end Write

section Call

variable {b : Brfdb} {k : Key} {i : Nat}

theorem Kind.other_cols {β : Type} {K : Kind β} (hu : K.Uniq b) (hi : i < K.ncols)
    (hf : K.fits b k i = true) : ∀ c < K.ncols, c ≠ i → K.fits b k c = false := by
  intro c hc hne
  by_contra h
  rw [Bool.not_eq_false] at h
  exact hne (hu k c i hc hi h hf)

theorem fwdMask_of_fits (hg : Good b) (hi : i < SMAC_NCOLS) (hf : fdbKind.fits b k i = true) :
    fwdMask b k = (slot b k i).fwdMask := by
  rw [fwdMask, Kind.get_of_fits hg.fdb hi hf]; rfl

theorem Folds.of_fdb {op : Op} {r : Int} {b' : Brfdb} {m : BitVec 16} (hop : op.isFdb = true)
    (hm : fwdStep op.key (fwdMask b op.key) (op, r) = m)
    (h : fwdMask b' op.key = m ∧ (∀ k' ≠ op.key, fwdMask b' k' = fwdMask b k') ∧
      ∀ k', strHdl b' k' = strHdl b k') : Folds b op r b' := by
  intro k
  refine ⟨?_, ?_⟩
  · by_cases hk : k = op.key
    · rw [hk, hm, h.1]
    · rw [h.2.1 k hk]
      cases op <;> simp_all [fwdStep, Op.key, Ne.symm]
  · rw [h.2.2 k]
    cases op <;> simp_all [hdlStep, Op.isFdb]

theorem Folds.of_sid {op : Op} {r : Int} {b' : Brfdb} {v : Option (BitVec 16)} (hop : op.isFdb = false)
    (hv : hdlStep op.key (strHdl b op.key) (op, r) = v)
    (h : strHdl b' op.key = v ∧ (∀ k' ≠ op.key, strHdl b' k' = strHdl b k') ∧
      ∀ k', fwdMask b' k' = fwdMask b k') : Folds b op r b' := by
  intro k
  refine ⟨?_, ?_⟩
  · rw [h.2.2 k]
    cases op <;> simp_all [fwdStep, Op.isFdb]
  · by_cases hk : k = op.key
    · rw [hk, hv, h.1]
    · rw [h.2.1 k hk]
      cases op <;> simp_all [hdlStep, Op.key, Ne.symm]

theorem add_step (hg : Good b) (ptid : Nat) (hc : Clear b (.add k ptid)) :
    Good (step b (.add k ptid)).2 ∧
      Folds b (.add k ptid) (step b (.add k ptid)).1 (step b (.add k ptid)).2 := by
  simp only [step]
  rcases add_cases b k ptid with ⟨i, hi, hf, hr, _, e, hw, he, hs⟩ | ⟨i, hi, hn, hr, _, hno, hu, e, hw, he, hs⟩ |
    ⟨_, _, hr, _, ht, hnr⟩
  · have hkey := (Kind.fits_iff.1 hf).2
    obtain ⟨hg', h⟩ := fdb_write hg hw hi he (fun _ => hkey) (Kind.other_cols hg.fdb hi hf)
      fun h => ⟨hkey, hs h⟩
    refine ⟨hg', Folds.of_fdb rfl ?_ h⟩
    simp [fwdStep, Op.key, hr, fwdMask_of_fits hg hi hf]
  · obtain ⟨hg', h⟩ := fdb_write hg hw hi he (fun h => absurd (hu.symm.trans h) Bool.false_ne_true)
      (fun c hc _ => hno c hc) fun h => ⟨(hc i hn h).1, hs.trans (hc i hn h).2⟩
    refine ⟨hg', Folds.of_fdb rfl ?_ h⟩
    have h0 : fwdMask b k = 0 := by rw [fwdMask, Kind.get_eq_none hno]; rfl
    simp [fwdStep, Op.key, hr, h0]
  · have hsl := slot_congr ht hnr
    refine ⟨hg.same hsl, fun k' => ?_⟩
    simp [fwdMask, strHdl, Kind.get_same _ hsl, fwdStep, hdlStep, hr, ENOMEM]

theorem del_step (hg : Good b) (ptid : Nat) :
    Good (step b (.del k ptid)).2 ∧
      Folds b (.del k ptid) (step b (.del k ptid)).1 (step b (.del k ptid)).2 := by
  simp only [step]
  obtain ⟨hr, ⟨i, hi, hf, _, e, hw, he, hs⟩ | ⟨hno, _, ht, hnr⟩⟩ := del_cases b k ptid
  · have hkey := (Kind.fits_iff.1 hf).2
    obtain ⟨hg', h⟩ := fdb_write hg hw hi he (fun _ => hkey) (Kind.other_cols hg.fdb hi hf)
      fun h => ⟨hkey, hs h⟩
    refine ⟨hg', Folds.of_fdb rfl ?_ h⟩
    simp [fwdStep, Op.key, hr, fwdMask_of_fits hg hi hf]
  · have hsl := slot_congr ht hnr
    have h0 : fwdMask b k = 0 := by rw [fwdMask, Kind.get_eq_none hno]; rfl
    refine ⟨hg.same hsl, fun k' => ⟨?_, ?_⟩⟩
    · have hsame : fwdMask (edgxBrfdbDel b k.1 k.2 ptid).2 k' = fwdMask b k' := by
        simp only [fwdMask, Kind.get_same _ hsl]
      by_cases hk : k = k'
      · subst hk; simp [hsame, fwdStep, h0]
      · simp [hsame, fwdStep, hk]
    · simp [strHdl, Kind.get_same _ hsl, hdlStep]

theorem sidAdd_step (hg : Good b) (sid : Sid) (hc : Clear b (.sidAdd sid)) :
    Good (step b (.sidAdd sid)).2 ∧
      Folds b (.sidAdd sid) (step b (.sidAdd sid)).1 (step b (.sidAdd sid)).2 := by
  simp only [step]
  rcases sidAdd_cases b sid with ⟨i, hi, hn, hr, hu, e, hw, hkey, hno, hm, hsu, hfu⟩ |
    ⟨i, hi, hr, hf, hv, ht, hnr⟩ | ⟨hr, ht, hnr⟩
  · have hnone : ∀ c < NCOLS_VLAN, sidKind.fits b sid.key c = false := by
      intro c hcl
      by_contra h
      rw [Bool.not_eq_false] at h
      have hget := Kind.get_of_fits hg.sid hcl h
      rw [show sidKind.get b sid.key = none from (hc i hn).2] at hget
      cases hget
    obtain ⟨hg', h⟩ := sid_write hg hw hi hkey hm hfu (fun h => absurd (hu.symm.trans h) Bool.false_ne_true)
      (fun c hcl _ => hnone c hcl) (hc i hn).1
    refine ⟨hg', Folds.of_sid rfl ?_ h⟩
    simp [hdlStep, Op.key, hr, hsu, hno]
  · have hsl := slot_congr ht hnr
    have hget : strHdl b sid.key = some sid.strHdl := by
      rw [strHdl, Kind.get_of_fits hg.sid hi hf, ← hv]; rfl
    refine ⟨hg.same hsl, fun k' => ⟨?_, ?_⟩⟩
    · simp [fwdMask, Kind.get_same _ hsl, fwdStep]
    · have hsame : strHdl (edgxBrfdbSidAdd b sid).2 k' = strHdl b k' := by
        simp only [strHdl, Kind.get_same _ hsl]
      by_cases hk : sid.key = k'
      · subst hk; simp [hsame, hdlStep, hr, hget]
      · simp [hsame, hdlStep, hk]
  · have hsl := slot_congr ht hnr
    refine ⟨hg.same hsl, fun k' => ?_⟩
    simp [fwdMask, strHdl, Kind.get_same _ hsl, fwdStep, hdlStep, hr, ENOMEM]

theorem sidDel_step (hg : Good b) :
    Good (step b (.sidDel k)).2 ∧
      Folds b (.sidDel k) (step b (.sidDel k)).1 (step b (.sidDel k)).2 := by
  simp only [step]
  obtain ⟨hr, ⟨i, hi, hf, e, hw, hkey, hm, hsu, hfu⟩ | ⟨hno, ht, hnr⟩⟩ := sidDel_cases b k
  · have hk := (Kind.fits_iff.1 hf).2
    obtain ⟨hg', h⟩ := sid_write hg hw hi hkey hm hfu (fun _ => hk) (Kind.other_cols hg.sid hi hf)
      fun _ => hk
    refine ⟨hg', Folds.of_sid rfl ?_ h⟩
    simp [hdlStep, Op.key, hr, hsu]
  · have hsl := slot_congr ht hnr
    have h0 : strHdl b k = none := Kind.get_eq_none hno
    refine ⟨hg.same hsl, fun k' => ⟨?_, ?_⟩⟩
    · simp [fwdMask, Kind.get_same _ hsl, fwdStep]
    · have hsame : strHdl (edgxBrfdbSidDel b k.1 k.2).2 k' = strHdl b k' := by
        simp only [strHdl, Kind.get_same _ hsl]
      by_cases hk : k = k'
      · subst hk; simp [hsame, hdlStep, h0]
      · simp [hsame, hdlStep, hk]

/-- **One call** that takes no slot in use by the other kind changes what the
table holds as the abstract fold says, for every key. -/
theorem step_folds (hg : Good b) (op : Op) (hc : Clear b op) :
    Good (step b op).2 ∧ Folds b op (step b op).1 (step b op).2 := by
  cases op with
  | add k ptid => exact add_step hg ptid hc
  | del k ptid => exact del_step hg ptid
  | sidAdd sid => exact sidAdd_step hg sid hc
  | sidDel k => exact sidDel_step hg

end Call

/-! ## Runs -/

/-- The table as hardware reset leaves it. -/
def Empty (b : Brfdb) : Prop :=
  ∀ c r, edgxBrfdbIsFdbUsed (b.tbl c r) = false ∧ edgxBrfdbIsSidUsed (b.tbl c r) = false

/-- The call keeps what every other key has, and what its own key has of the
kind the call is not about. -/
def KeepsOthers (b : Brfdb) (op : Op) : Prop :=
  let b' := (step b op).2
  (∀ k ≠ op.key, fwdMask b' k = fwdMask b k ∧ strHdl b' k = strHdl b k) ∧
    (op.isFdb = true → strHdl b' op.key = strHdl b op.key) ∧
    (op.isFdb = false → fwdMask b' op.key = fwdMask b op.key)

/-- The two kinds of entry stay separate along the run. -/
structure Separate (b : Brfdb) (ops : List Op) : Prop where
  keeps : ∀ pre op suf, ops = pre ++ op :: suf → KeepsOthers (after step b pre) op
  folds : ∀ pre suf, ops = pre ++ suf → ∀ k,
    fwdMask (after step b pre) k = (outs step b pre).foldl (fwdStep k) 0 ∧
      strHdl (after step b pre) k = (outs step b pre).foldl (hdlStep k) none

theorem Empty.get {β : Type} {K : Kind β} {b : Brfdb} (h : ∀ c r, K.used (b.tbl c r) = false) (k : Key) :
    K.get b k = none := by
  refine Kind.get_eq_none fun c _ => ?_
  rw [Kind.fits, slot, h, Bool.false_and]

theorem Empty.good {b : Brfdb} (h : Empty b) : Good b := by
  refine ⟨?_, ?_⟩ <;> intro k c c' _ _ hf
  · rw [Kind.fits_iff] at hf
    exact absurd hf.1 (Bool.eq_false_iff.1 (h _ _).1)
  · rw [Kind.fits_iff] at hf
    exact absurd hf.1 (Bool.eq_false_iff.1 (h _ _).2)

theorem Folds.keepsOthers {b : Brfdb} {op : Op} (h : Folds b op (step b op).1 (step b op).2) :
    KeepsOthers b op := by
  refine ⟨fun k hk => ?_, fun hop => ?_, fun hop => ?_⟩
  · rw [(h k).1, (h k).2]
    cases op <;> simp_all [fwdStep, hdlStep, Op.key, Ne.symm]
  · rw [(h _).2]
    cases op <;> simp_all [hdlStep, Op.isFdb]
  · rw [(h _).1]
    cases op <;> simp_all [fwdStep, Op.isFdb]

/-- **Separation.** In every run from the empty table whose calls all take no
slot in use by the other kind, the table represents the forwarding calls and
the stream identification calls of each key folded separately. -/
theorem separate_of_clear {b : Brfdb} {ops : List Op} (h0 : Empty b) (h : Guarded step Clear b ops) :
    Separate b ops := by
  have good : ∀ pre, Guarded step Clear b pre → Good (after step b pre) := fun pre hp =>
    hp.inv_after h0.good fun s op hg hc => (step_folds hg op hc).1
  refine ⟨?_, ?_⟩
  · rintro pre op suf rfl
    exact (step_folds (good pre h.of_append) op h.at_step).2.keepsOthers
  · rintro pre suf rfl k
    have hp := h.of_append
    refine ⟨?_, ?_⟩
    · refine (hp.sim_after (R := fun s m => Good s ∧ fwdMask s k = m) (f := fwdStep k) ⟨h0.good, ?_⟩
        fun s m op hs hc => ?_).2
      · rw [fwdMask, Empty.get (K := fdbKind) fun c r => (h0 c r).1]; rfl
      · obtain ⟨hg', hf⟩ := step_folds hs.1 op hc
        exact ⟨hg', by rw [(hf k).1, hs.2]⟩
    · refine (hp.sim_after (R := fun s v => Good s ∧ strHdl s k = v) (f := hdlStep k) ⟨h0.good, ?_⟩
        fun s v op hs hc => ?_).2
      · exact Empty.get (K := sidKind) (fun c r => (h0 c r).2) k
      · obtain ⟨hg', hf⟩ := step_folds hs.1 op hc
        exact ⟨hg', by rw [(hf k).2, hs.2]⟩

/-- An empty table of 1024 rows. -/
def emptyTable : Brfdb := { nrows := 1024, sents := 0, tbl := fun _ _ => {}, reg := {} }

theorem emptyTable_empty : Empty emptyTable := fun _ _ =>
  (by decide : edgxBrfdbIsFdbUsed {} = false ∧ edgxBrfdbIsSidUsed {} = false)

/-- The address of the example runs. -/
def someMac : Mac := #v[0x02, 0x00, 0x00, 0x00, 0x00, 0x01]

theorem separate_of_clear_emptyTable :
    Separate emptyTable [.add (someMac, 5) 1, .sidAdd ⟨someMac, 5, 3, 0⟩, .add (someMac, 5) 2,
      .sidAdd ⟨someMac, 6, 4, 1⟩, .del (someMac, 5) 1, .sidDel (someMac, 5)] :=
  separate_of_clear emptyTable_empty (by decide +kernel)

/-- The rows wrap at 1024, so VLANs 1 and 1025 of one address share all their
slots. The stream identification entry takes the slot that holds the other
key's ports. -/
theorem not_separate_shared_slot :
    ¬ Separate emptyTable [.add (someMac, 1) 1, .sidAdd ⟨someMac, 1025, 3, 0⟩] := by
  intro h
  have hk := (h.keeps [.add (someMac, 1) 1] (.sidAdd ⟨someMac, 1025, 3, 0⟩) [] rfl).1 (someMac, 1)
    (by decide)
  exact absurd hk.1 (by decide +kernel)

end TsnSwitch.Fdb
