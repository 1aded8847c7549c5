/-
Static forwarding entries without stream identification: the table is a map
from addresses and VLAN ids to sets of ports (`table_is_map`). A key has at
most one slot, in the row of its hash and in a column of its kind, and the
count of static entries is the number of used slots.
-/
import TsnSwitch.Fdb.Separate

namespace TsnSwitch.Fdb

open Lib

def EDGX_BR_MAX_PORTS : Nat := 16

theorem one_lt_maxPorts : 1 < EDGX_BR_MAX_PORTS := by decide

/-- A call of a port of the bridge. -/
inductive FdbOp where
  | add (k : Key) (p : Fin EDGX_BR_MAX_PORTS)
  | del (k : Key) (p : Fin EDGX_BR_MAX_PORTS)

def FdbOp.op : FdbOp → Op
  | .add k p => .add k p.val
  | .del k p => .del k p.val

def FdbOp.key : FdbOp → Key
  | .add k _ | .del k _ => k

def fdbStep (b : Brfdb) (op : FdbOp) : Int × Brfdb := step b op.op

/-- The ports of each address and VLAN id. -/
abbrev PortMap := Key → Finset (Fin EDGX_BR_MAX_PORTS)

/-- The map after a call that returned `r`. -/
def PortMap.apply (m : PortMap) : FdbOp × Int → PortMap
  | (.add k p, r) => if r = 0 then Function.update m k (insert p (m k)) else m
  | (.del k p, _) => Function.update m k ((m k).erase p)

def portsOf (mask : BitVec 16) : Finset (Fin EDGX_BR_MAX_PORTS) :=
  Finset.univ.filter fun p => mask.getLsbD p.val = true

/-- The slots a control word can address. -/
def SMAC_NROWS : Nat := 4096

def usedSlots (b : Brfdb) : Finset (Nat × Nat) :=
  (Finset.range SMAC_NCOLS ×ˢ Finset.range SMAC_NROWS).filter fun x => edgxBrfdbIsFdbUsed (b.tbl x.1 x.2) = true

/-- The row of a key in a column. -/
def rowOf (b : Brfdb) (k : Key) (c : Nat) : Nat := ctlRow (edgxBrfdbCalcSmacRows b.nrows k.1 k.2 c)

/-- The table has the map `m`. -/
structure Represents (b : Brfdb) (m : PortMap) : Prop where
  /-- A used slot has the ports of its key, and is where the key belongs. -/
  placed : ∀ x ∈ usedSlots b,
    x.2 = rowOf b (b.tbl x.1 x.2).key x.1 ∧ edgxBrfdbColIsVid x.1 (b.tbl x.1 x.2).key.2 = true ∧
      portsOf (b.tbl x.1 x.2).fwdMask = m (b.tbl x.1 x.2).key ∧ m (b.tbl x.1 x.2).key ≠ ∅
  /-- A key with ports has a slot, -/
  held : ∀ k, m k ≠ ∅ → ∃ x ∈ usedSlots b, (b.tbl x.1 x.2).key = k
  /-- and only one. -/
  one : ∀ x ∈ usedSlots b, ∀ y ∈ usedSlots b, (b.tbl x.1 x.2).key = (b.tbl y.1 y.2).key → x = y
  count : b.sents = (usedSlots b).card

/-- What a call does to slots that are used: only the slot of its key can
change, and it is released when the last port is gone. -/
structure SlotsKept (b : Brfdb) (op : FdbOp) (m : PortMap) : Prop where
  others : ∀ x ∈ usedSlots b, (b.tbl x.1 x.2).key ≠ op.key → (fdbStep b op).2.tbl x.1 x.2 = b.tbl x.1 x.2
  released : ∀ x ∈ usedSlots b,
    (x ∉ usedSlots (fdbStep b op).2 ↔ m.apply (op, (fdbStep b op).1) (b.tbl x.1 x.2).key = ∅)

/-- A call that fails changes nothing: adding fails only if the key has no
slot and none is free, and deleting is without effect for a key without a
slot. -/
structure FailKeeps (b : Brfdb) (op : FdbOp) (m : PortMap) : Prop where
  failed : (fdbStep b op).1 ≠ 0 →
    (fdbStep b op).2.tbl = b.tbl ∧ (fdbStep b op).2.sents = b.sents ∧ m op.key = ∅ ∧
      ∀ c < SMAC_NCOLS, edgxBrfdbColIsVid c op.key.2 = true → (c, rowOf b op.key c) ∈ usedSlots b
  absent : ∀ k p, op = .del k p → m k = ∅ → (fdbStep b op).2.tbl = b.tbl ∧ (fdbStep b op).2.sents = b.sents

/-! ## Masks -/

theorem mem_portsOf {mask : BitVec 16} {p : Fin EDGX_BR_MAX_PORTS} : p ∈ portsOf mask ↔ mask.getLsbD p.val = true := by
  rw [portsOf, Finset.mem_filter]
  exact and_iff_right (Finset.mem_univ p)

theorem getLsbD_BIT (n : Nat) (p : Fin EDGX_BR_MAX_PORTS) : (BIT n).getLsbD p.val = decide (p.val = n) :=
  (BitVec.getLsbD_eq_getElem p.isLt).trans (getElem_BIT n p.isLt)

theorem portsOf_or (mask : BitVec 16) (p : Fin EDGX_BR_MAX_PORTS) :
    portsOf (mask ||| BIT p.val) = insert p (portsOf mask) := by
  ext q
  rw [mem_portsOf, BitVec.getLsbD_or, getLsbD_BIT, Finset.mem_insert, mem_portsOf, Bool.or_eq_true, decide_eq_true_iff,
    or_comm, Fin.val_inj]

theorem portsOf_and_not (mask : BitVec 16) (p : Fin EDGX_BR_MAX_PORTS) :
    portsOf (mask &&& ~~~BIT p.val) = (portsOf mask).erase p := by
  ext q
  have hq : q.val < 16 := q.isLt
  rw [mem_portsOf, BitVec.getLsbD_and, BitVec.getLsbD_not, getLsbD_BIT, Finset.mem_erase, mem_portsOf]
  simp [hq, Fin.val_inj, and_comm]

theorem portsOf_zero : portsOf 0 = ∅ := by decide

theorem portsOf_BIT (p : Fin EDGX_BR_MAX_PORTS) : portsOf (BIT p.val) = {p} := by
  ext q
  rw [mem_portsOf, getLsbD_BIT, Finset.mem_singleton, decide_eq_true_iff, Fin.val_inj]

theorem portsOf_eq_empty {mask : BitVec 16} : portsOf mask = ∅ ↔ mask = 0 := by
  constructor
  · intro h
    refine BitVec.eq_of_getLsbD_eq fun i hi => ?_
    have hp : (⟨i, hi⟩ : Fin EDGX_BR_MAX_PORTS) ∉ portsOf mask := h ▸ Finset.notMem_empty _
    rw [mem_portsOf, Bool.not_eq_true] at hp
    exact hp.trans (BitVec.getLsbD_zero).symm
  · rintro rfl
    exact portsOf_zero

/-! ## Slots -/

theorem mem_usedSlots {b : Brfdb} {c r : Nat} :
    (c, r) ∈ usedSlots b ↔ (c < SMAC_NCOLS ∧ r < SMAC_NROWS) ∧ edgxBrfdbIsFdbUsed (b.tbl c r) = true := by
  rw [usedSlots, Finset.mem_filter, Finset.mem_product, Finset.mem_range, Finset.mem_range]

theorem rowOf_lt (b : Brfdb) (k : Key) (c : Nat) : rowOf b k c < SMAC_NROWS := Nat.mod_lt _ (by decide)

/-- The slot of a key is where its hash says. -/
theorem slot_used {b : Brfdb} {k : Key} {c : Nat} (hc : c < SMAC_NCOLS) :
    (c, rowOf b k c) ∈ usedSlots b ↔ edgxBrfdbIsFdbUsed (slot b k c) = true := by
  rw [mem_usedSlots]
  exact and_iff_right ⟨hc, rowOf_lt b k c⟩

theorem fits_slot {b : Brfdb} {k : Key} {c : Nat} (hc : c < SMAC_NCOLS) :
    fdbKind.fits b k c = true ↔ (c, rowOf b k c) ∈ usedSlots b ∧ (b.tbl c (rowOf b k c)).key = k := by
  rw [Kind.fits_iff, slot_used hc]
  rfl

namespace Represents

variable {b b' : Brfdb} {m : PortMap} {k : Key} {i : Nat}

theorem uniq (h : Represents b m) : fdbKind.Uniq b := by
  intro k c c' hc hc' hf hf'
  obtain ⟨hmem, hkey⟩ := (fits_slot hc).1 hf
  obtain ⟨hmem', hkey'⟩ := (fits_slot hc').1 hf'
  exact congrArg Prod.fst (h.one _ hmem _ hmem' (hkey.trans hkey'.symm))

/-- A key whose slots do not fit has no ports. -/
theorem empty_of_no_fit (h : Represents b m) (hno : ∀ c < SMAC_NCOLS, fdbKind.fits b k c = false) : m k = ∅ := by
  by_contra hne
  obtain ⟨⟨c, r⟩, hx, hkey⟩ := h.held k hne
  have hc := (mem_usedSlots.1 hx).1.1
  have hr : r = rowOf b k c := hkey ▸ (h.placed _ hx).1
  subst hr
  exact absurd ((fits_slot hc).2 ⟨hx, hkey⟩) (Bool.eq_false_iff.1 (hno c hc))

theorem ports_of_fit (h : Represents b m) (hi : i < SMAC_NCOLS) (hf : fdbKind.fits b k i = true) :
    portsOf (slot b k i).fwdMask = m k ∧ m k ≠ ∅ ∧ edgxBrfdbColIsVid i k.2 = true := by
  obtain ⟨hx, hkey⟩ := (fits_slot hi).1 hf
  obtain ⟨_, hcol, hports, hne⟩ := h.placed _ hx
  rw [hkey] at hcol hports hne
  exact ⟨hports, hne, hcol⟩

end Represents

/-! ## One slot is written -/

section Write

variable {b b' : Brfdb} {m : PortMap} {k : Key} {i : Nat} {mask : BitVec 16} {e : SmacEntry}

theorem Writes.tbl_eq (hw : Writes b k i e b') (c r : Nat) :
    b'.tbl c r = if c = i ∧ r = rowOf b k i then e else b.tbl c r := by
  rw [hw.2]
  by_cases hc : c = i
  · subst hc
    by_cases hr : r = rowOf b k c
    · rw [if_pos ⟨rfl, hr⟩, Function.update_self, hr]
      exact Function.update_self ..
    · rw [if_neg (fun h => hr h.2), Function.update_self]
      exact Function.update_of_ne hr ..
  · rw [if_neg (fun h => hc h.1), Function.update_of_ne hc]

theorem Writes.mem_used (hw : Writes b k i e b') (hi : i < SMAC_NCOLS) (x : Nat × Nat) :
    x ∈ usedSlots b' ↔
      if x = (i, rowOf b k i) then edgxBrfdbIsFdbUsed e = true else x ∈ usedSlots b := by
  by_cases hx : x = (i, rowOf b k i)
  · rw [if_pos hx, hx, mem_usedSlots, hw.tbl_eq, if_pos ⟨rfl, rfl⟩]
    exact and_iff_right ⟨hi, rowOf_lt ..⟩
  · obtain ⟨c, r⟩ := x
    rw [if_neg hx, mem_usedSlots, mem_usedSlots, hw.tbl_eq, if_neg fun h => hx (Prod.ext h.1 h.2)]

/-- The used slots after a write. -/
theorem Writes.usedSlots_eq (hw : Writes b k i e b') (hi : i < SMAC_NCOLS) :
    usedSlots b' = if edgxBrfdbIsFdbUsed e = true then insert (i, rowOf b k i) (usedSlots b)
      else (usedSlots b).erase (i, rowOf b k i) := by
  ext x
  rw [hw.mem_used hi]
  by_cases hx : x = (i, rowOf b k i)
  · rw [if_pos hx, hx]
    by_cases hu : edgxBrfdbIsFdbUsed e = true
    · rw [if_pos hu]
      exact iff_of_true hu (Finset.mem_insert_self ..)
    · rw [if_neg hu]
      exact iff_of_false hu (Finset.notMem_erase _ _)
  · rw [if_neg hx]
    split
    · rw [Finset.mem_insert, or_iff_right hx]
    · rw [Finset.mem_erase, and_iff_right hx]

/-- A write of the ports of `k` into its own slot, or into a free slot of the
right kind when it has none. -/
theorem Represents.write (h : Represents b m) (hw : Writes b k i e b') (hi : i < SMAC_NCOLS)
    (he : PortWrite b k i mask e) (hcol : edgxBrfdbColIsVid i k.2 = true)
    (hold : edgxBrfdbIsFdbUsed (slot b k i) = true → (slot b k i).key = k)
    (hcols : ∀ c < SMAC_NCOLS, c ≠ i → fdbKind.fits b k c = false)
    (hsents : b'.sents = (usedSlots b').card) :
    Represents b' (Function.update m k (portsOf mask)) ∧
      (∀ x ∈ usedSlots b, (b.tbl x.1 x.2).key ≠ k → b'.tbl x.1 x.2 = b.tbl x.1 x.2) ∧
      ∀ x ∈ usedSlots b, (x ∉ usedSlots b' ↔ Function.update m k (portsOf mask) (b.tbl x.1 x.2).key = ∅) := by
  have hself : b'.tbl i (rowOf b k i) = e := by rw [hw.tbl_eq, if_pos ⟨rfl, rfl⟩]
  have hother : ∀ x : Nat × Nat, x ≠ (i, rowOf b k i) → b'.tbl x.1 x.2 = b.tbl x.1 x.2 := fun x hx => by
    rw [hw.tbl_eq, if_neg fun hc => hx (Prod.ext hc.1 hc.2)]
  have hrow : ∀ k' c, rowOf b' k' c = rowOf b k' c := fun k' c => by rw [rowOf, rowOf, hw.1]
  -- the key has no other slot
  have honly : ∀ x ∈ usedSlots b, (b.tbl x.1 x.2).key = k → x = (i, rowOf b k i) := by
    intro x hx hkey
    obtain ⟨c, r⟩ := x
    have hc := (mem_usedSlots.1 hx).1.1
    obtain rfl : r = rowOf b k c := hkey ▸ (h.placed _ hx).1
    by_cases hci : c = i
    · rw [hci]
    · exact absurd ((fits_slot hc).2 ⟨hx, hkey⟩) (Bool.eq_false_iff.1 (hcols c hc hci))
  have hused : edgxBrfdbIsFdbUsed e = true ↔ portsOf mask ≠ ∅ := by
    rw [he.fdb, decide_eq_true_iff, ne_eq, ne_eq, portsOf_eq_empty]
    rfl
  have hkeys : ∀ x ∈ usedSlots b', x ≠ (i, rowOf b k i) → x ∈ usedSlots b ∧ (b.tbl x.1 x.2).key ≠ k := by
    intro x hx hne
    rw [hw.mem_used hi, if_neg hne] at hx
    exact ⟨hx, fun hkey => hne (honly x hx hkey)⟩
  have hkept : ∀ x ∈ usedSlots b, (b.tbl x.1 x.2).key ≠ k → x ≠ (i, rowOf b k i) := by
    rintro x hx hkey rfl
    exact hkey (hold ((mem_usedSlots.1 hx).2))
  refine ⟨⟨fun x hx => ?_, fun k' hk' => ?_, fun x hx y hy hxy => ?_, hsents⟩,
    fun x hx hkey => hother x (hkept x hx hkey), fun x hx => ?_⟩
  · rw [hrow]
    by_cases hxi : x = (i, rowOf b k i)
    · subst hxi
      rw [hw.mem_used hi, if_pos rfl] at hx
      rw [hself, he.key, Function.update_self, he.mask]
      exact ⟨rfl, hcol, rfl, hused.1 hx⟩
    · obtain ⟨hx, hne⟩ := hkeys x hx hxi
      rw [hother x hxi, Function.update_of_ne hne]
      exact h.placed x hx
  · by_cases hk : k' = k
    · subst hk
      rw [Function.update_self] at hk'
      refine ⟨(i, rowOf b k' i), ?_, by rw [hself, he.key]⟩
      rw [hw.mem_used hi, if_pos rfl]
      exact hused.2 hk'
    · rw [Function.update_of_ne hk] at hk'
      obtain ⟨x, hx, rfl⟩ := h.held k' hk'
      have hxi := hkept x hx hk
      refine ⟨x, ?_, by rw [hother x hxi]⟩
      rw [hw.mem_used hi, if_neg hxi]
      exact hx
  · by_cases hxi : x = (i, rowOf b k i) <;> by_cases hyi : y = (i, rowOf b k i)
    · rw [hxi, hyi]
    · obtain ⟨_, hne⟩ := hkeys y hy hyi
      rw [hother y hyi, hxi, hself, he.key] at hxy
      exact absurd hxy.symm hne
    · obtain ⟨_, hne⟩ := hkeys x hx hxi
      rw [hother x hxi, hyi, hself, he.key] at hxy
      exact absurd hxy hne
    · rw [hother x hxi, hother y hyi] at hxy
      exact h.one x (hkeys x hx hxi).1 y (hkeys y hy hyi).1 hxy
  · rw [hw.mem_used hi]
    by_cases hkey : (b.tbl x.1 x.2).key = k
    · rw [if_pos (honly x hx hkey), hkey, Function.update_self, hused, not_not]
    · rw [if_neg (hkept x hx hkey), Function.update_of_ne hkey]
      exact iff_of_false (not_not.2 hx) (h.placed x hx).2.2.2

end Write

/-! ## Calls -/

section Calls

variable {b b' : Brfdb} {m : PortMap} {k : Key} {i : Nat}

theorem usedSlots_congr (ht : b'.tbl = b.tbl) : usedSlots b' = usedSlots b := by
  simp only [usedSlots, ht]

theorem Represents.same (h : Represents b m) (ht : b'.tbl = b.tbl) (hn : b'.nrows = b.nrows)
    (hs : b'.sents = b.sents) : Represents b' m := by
  have hrow : ∀ k' c, rowOf b' k' c = rowOf b k' c := fun k' c => by rw [rowOf, rowOf, hn]
  have hu := usedSlots_congr ht
  refine ⟨?_, ?_, ?_, ?_⟩
  · simp only [hu, ht, hrow]
    exact h.placed
  · simp only [hu, ht]
    exact h.held
  · simp only [hu, ht]
    exact h.one
  · rw [hs, hu]
    exact h.count

/-- The count after a write of `k`'s slot. -/
theorem card_write {e : SmacEntry} (hw : Writes b k i e b') (hi : i < SMAC_NCOLS) :
    (usedSlots b').card =
      if edgxBrfdbIsFdbUsed e = true then
        if edgxBrfdbIsFdbUsed (slot b k i) = true then (usedSlots b).card else (usedSlots b).card + 1
      else if edgxBrfdbIsFdbUsed (slot b k i) = true then (usedSlots b).card - 1 else (usedSlots b).card := by
  rw [hw.usedSlots_eq hi]
  by_cases hold : edgxBrfdbIsFdbUsed (slot b k i) = true
  · rw [if_pos hold, if_pos hold]
    have hmem := (slot_used hi).2 hold
    split
    · rw [Finset.insert_eq_of_mem hmem]
    · rw [Finset.card_erase_of_mem hmem]
  · rw [if_neg hold, if_neg hold]
    have hmem := mt (slot_used hi).1 hold
    split
    · rw [Finset.card_insert_of_notMem hmem]
    · rw [Finset.erase_eq_of_notMem hmem]

/-- What a call does to a table that represents a map. -/
structure CallOk (b : Brfdb) (m : PortMap) (op : FdbOp) : Prop where
  represents : Represents (fdbStep b op).2 (m.apply (op, (fdbStep b op).1))
  slots : SlotsKept b op m
  fail : FailKeeps b op m

/-- A call that leaves the table as it is, and the map. -/
theorem Represents.unchanged (h : Represents b m) {op : FdbOp} (ht : (fdbStep b op).2.tbl = b.tbl)
    (hn : (fdbStep b op).2.nrows = b.nrows) (hs : (fdbStep b op).2.sents = b.sents)
    (hm : m.apply (op, (fdbStep b op).1) = m) :
    Represents (fdbStep b op).2 (m.apply (op, (fdbStep b op).1)) ∧ SlotsKept b op m := by
  rw [hm]
  refine ⟨h.same ht hn hs, fun x _ _ => by rw [ht], fun x hx => ?_⟩
  rw [hm, usedSlots_congr ht]
  exact iff_of_false (not_not.2 hx) (h.placed x hx).2.2.2

theorem Represents.add (h : Represents b m) (k : Key) (p : Fin EDGX_BR_MAX_PORTS) : CallOk b m (.add k p) := by
  have hcases := add_cases b k p.val
  have hstep : fdbStep b (.add k p) = edgxBrfdbAdd b k.1 k.2 p.val := rfl
  rw [← hstep] at hcases
  rcases hcases with ⟨i, hi, hf, hr, hs, e, hw, he, _⟩ | ⟨i, hi, hn, hr, hs, hno, hu, e, hw, he, _⟩ |
    ⟨hno, hn, hr, hs, ht, hnr⟩
  · obtain ⟨hports, hne, hcol⟩ := h.ports_of_fit hi hf
    obtain ⟨hused, hkey⟩ : edgxBrfdbIsFdbUsed (slot b k i) = true ∧ (slot b k i).key = k := Kind.fits_iff.1 hf
    have hmask : portsOf ((slot b k i).fwdMask ||| BIT p.val) = insert p (m k) := by rw [portsOf_or, hports]
    have hue : edgxBrfdbIsFdbUsed e = true := by
      rw [he.fdb, decide_eq_true_iff]
      intro hz
      rw [hz] at hmask
      exact Finset.insert_ne_empty p (m k) (hmask.symm.trans portsOf_zero)
    have hcard := card_write hw hi
    rw [if_pos hue, if_pos hused] at hcard
    obtain ⟨hrep, hothers, hreleased⟩ := h.write hw hi he hcol (fun _ => hkey) (Kind.other_cols h.uniq hi hf)
      (hs.trans (h.count.trans hcard.symm))
    rw [hmask] at hrep hreleased
    have hm : m.apply (.add k p, (fdbStep b (.add k p)).1) = Function.update m k (insert p (m k)) := by
      rw [PortMap.apply, if_pos hr]
    refine ⟨hm ▸ hrep, ⟨hothers, fun x hx => hm ▸ hreleased x hx⟩, ⟨fun hc => absurd hr hc, fun _ _ h => nomatch h⟩⟩
  · have hempty := h.empty_of_no_fit hno
    have hue : edgxBrfdbIsFdbUsed e = true := by
      rw [he.fdb, decide_eq_true_iff]
      intro hz
      have hmem := (portsOf_BIT p).symm.trans ((congrArg portsOf hz).trans portsOf_zero)
      exact Finset.singleton_ne_empty p hmem
    have hcol : edgxBrfdbColIsVid i k.2 = true := by
      rw [newFdbCol] at hn
      split at hn
      · cases hn
      · have hp := List.find?_some hn
        rw [Bool.and_eq_true] at hp
        exact hp.2
    have hcard := card_write hw hi
    rw [if_pos hue, if_neg (Bool.eq_false_iff.1 hu)] at hcard
    obtain ⟨hrep, hothers, hreleased⟩ := h.write hw hi he hcol (fun hc => absurd hc (Bool.eq_false_iff.1 hu))
      (fun c hc _ => hno c hc) (hs.trans ((congrArg (· + 1) h.count).trans hcard.symm))
    have hm : m.apply (.add k p, (fdbStep b (.add k p)).1) = Function.update m k (portsOf (BIT p.val)) := by
      rw [PortMap.apply, if_pos hr, hempty, portsOf_BIT]
      rfl
    refine ⟨hm ▸ hrep, ⟨hothers, fun x hx => hm ▸ hreleased x hx⟩, ⟨fun hc => absurd hr hc, fun _ _ h => nomatch h⟩⟩
  · have hm : m.apply (.add k p, (fdbStep b (.add k p)).1) = m := by
      rw [PortMap.apply, hr, if_neg (by decide)]
    obtain ⟨hrep, hslots⟩ := h.unchanged ht hnr hs hm
    refine ⟨hrep, hslots, ⟨fun _ => ⟨ht, hs, h.empty_of_no_fit hno, fun c hc hcol => ?_⟩, fun _ _ h => nomatch h⟩⟩
    -- no column of the key's kind is free
    rw [newFdbCol, if_neg] at hn
    · have hfull := List.find?_eq_none.1 hn c (List.mem_range.2 hc)
      rw [Bool.and_eq_true, not_and] at hfull
      refine (slot_used hc).2 ?_
      by_contra hu
      refine hfull ?_ hcol
      rw [Bool.not_eq_true']
      exact Bool.eq_false_iff.2 hu
    · rw [Bool.not_eq_true, List.any_eq_false]
      exact fun c hc => Bool.eq_false_iff.1 (hno c (List.mem_range.1 hc))

theorem Represents.del (h : Represents b m) (k : Key) (p : Fin EDGX_BR_MAX_PORTS) : CallOk b m (.del k p) := by
  have hcases := del_cases b k p.val
  have hstep : fdbStep b (.del k p) = edgxBrfdbDel b k.1 k.2 p.val := rfl
  rw [← hstep] at hcases
  obtain ⟨hr, ⟨i, hi, hf, hs, e, hw, he, _⟩ | ⟨hno, hs, ht, hnr⟩⟩ := hcases
  · obtain ⟨hports, hne, hcol⟩ := h.ports_of_fit hi hf
    obtain ⟨hused, hkey⟩ : edgxBrfdbIsFdbUsed (slot b k i) = true ∧ (slot b k i).key = k := Kind.fits_iff.1 hf
    have hmask : portsOf ((slot b k i).fwdMask &&& ~~~BIT p.val) = (m k).erase p := by rw [portsOf_and_not, hports]
    have hcard := card_write hw hi
    rw [if_pos hused, if_pos hused, ← h.count, he.fdb] at hcard
    have hcount : (fdbStep b (.del k p)).2.sents = (usedSlots (fdbStep b (.del k p)).2).card := by
      rw [hs, hcard]
      by_cases hz : (slot b k i).fwdMask &&& ~~~BIT p.val = 0#16
      · rw [if_pos hz, if_neg (by simpa using hz)]
      · rw [if_neg hz, if_pos (by simpa using hz)]
    obtain ⟨hrep, hothers, hreleased⟩ := h.write hw hi he hcol (fun _ => hkey) (Kind.other_cols h.uniq hi hf) hcount
    rw [hmask] at hrep hreleased
    refine ⟨hrep, ⟨hothers, hreleased⟩, ⟨fun hc => absurd hr hc, fun k' p' heq hempty => ?_⟩⟩
    obtain ⟨rfl, rfl⟩ := FdbOp.del.inj heq
    exact absurd hempty hne
  · have hempty := h.empty_of_no_fit hno
    have hm : m.apply (.del k p, (fdbStep b (.del k p)).1) = m := by
      rw [PortMap.apply, hempty, Finset.erase_empty, ← hempty, Function.update_eq_self]
    obtain ⟨hrep, hslots⟩ := h.unchanged ht hnr hs hm
    exact ⟨hrep, hslots, ⟨fun hc => absurd hr hc, fun _ _ _ _ => ⟨ht, hs⟩⟩⟩

theorem Represents.call (h : Represents b m) (op : FdbOp) : CallOk b m op := by
  cases op with
  | add k p => exact h.add k p
  | del k p => exact h.del k p

end Calls

/-! ## Runs -/

theorem Empty.represents {b : Brfdb} (h : Empty b) (hs : b.sents = 0) : Represents b fun _ => ∅ := by
  have hu : usedSlots b = ∅ := Finset.filter_eq_empty_iff.2 fun x _ => Bool.eq_false_iff.1 (h x.1 x.2).1
  refine ⟨?_, fun k hk => absurd rfl hk, ?_, ?_⟩
  · rw [hu]
    exact fun x hx => absurd hx (Finset.notMem_empty x)
  · rw [hu]
    exact fun x hx => absurd hx (Finset.notMem_empty x)
  · rw [hs, hu, Finset.card_empty]

/-- **The table is a map.** After every sequence of calls the table represents
the map of the ports that were added and not deleted. A call changes no other
entry and releases a slot when it takes its key's last port, and a call that
fails changes nothing. -/
theorem table_is_map {b : Brfdb} (h0 : Empty b) (hs : b.sents = 0) (ops : List FdbOp) :
    (∀ pre suf, ops = pre ++ suf →
      Represents (after fdbStep b pre) ((outs fdbStep b pre).foldl PortMap.apply fun _ => ∅)) ∧
    ∀ pre op suf, ops = pre ++ op :: suf →
      let m := (outs fdbStep b pre).foldl PortMap.apply fun _ => ∅
      SlotsKept (after fdbStep b pre) op m ∧ FailKeeps (after fdbStep b pre) op m := by
  have hrep : ∀ pre, Represents (after fdbStep b pre) ((outs fdbStep b pre).foldl PortMap.apply fun _ => ∅) :=
    fun pre => (Guarded.trivial pre).sim_after (h0.represents hs) fun s m op h _ => (h.call op).represents
  exact ⟨fun pre _ _ => hrep pre, fun pre op _ _ => ⟨((hrep pre).call op).slots, ((hrep pre).call op).fail⟩⟩

/-- Three keys, one of them for all VLANs; a port is deleted that is not
there, and the last port of a key. -/
theorem table_is_map_emptyTable :
    Represents (after fdbStep emptyTable
        [.add (someMac, 5) ⟨1, by decide⟩, .add (someMac, 5) ⟨2, by decide⟩, .add (someMac, 0) ⟨1, by decide⟩,
          .del (someMac, 7) ⟨1, by decide⟩, .del (someMac, 5) ⟨1, by decide⟩, .del (someMac, 0) ⟨1, by decide⟩])
      ((outs fdbStep emptyTable
        [.add (someMac, 5) ⟨1, by decide⟩, .add (someMac, 5) ⟨2, by decide⟩, .add (someMac, 0) ⟨1, by decide⟩,
          .del (someMac, 7) ⟨1, by decide⟩, .del (someMac, 5) ⟨1, by decide⟩,
          .del (someMac, 0) ⟨1, by decide⟩]).foldl PortMap.apply fun _ => ∅) :=
  (table_is_map emptyTable_empty rfl _).1 _ [] (List.append_nil _).symm

end TsnSwitch.Fdb
