/-
The dump of a port's forwarding entries (edge_br_fdb.c, edge_port.c), in messages of
netlink. After a message that is full the dump is called again and skips as many
entries as were put. It goes on after an entry that does not fit, so that a shorter
entry behind it, one for all VLANs, can still be put; the entry that was left out is
then skipped for good (`dump_complete_iff`).

The table is not changed between the messages.
-/
import TsnSwitch.Lib.Resume
import TsnSwitch.Fdb.Static

namespace TsnSwitch.Fdb

open Lib

def EMSGSIZE : Int := 90
def ETH_ALEN : Nat := 6

/-- The bytes of a header with `struct ndmsg`, and of an attribute. -/
def NLMSG_LEN : Nat := 28
def nlaTotalSize (len : Nat) : Nat := (4 + len + 3) / 4 * 4

/-- A part of a message is put if there is room for it. -/
def nlPut (size room : Nat) : Option Nat := if room < size then none else some (room - size)

/-- An entry in a message that has `room` left. What was put is cancelled if not all fits. -/
def nlEntry (vid : BitVec 16) (room : Nat) : Option Nat := do
  let room ← nlPut NLMSG_LEN room
  let room ← nlPut (nlaTotalSize ETH_ALEN) room
  if vid ≠ 0 then nlPut (nlaTotalSize 2) room else some room

/-- A message, with the index of the next entry. -/
structure Nlmsg where
  idx : Nat := 0
  room : Nat
  out : List Key := []

/-- `start` is `cb->args[2]`. -/
def edgxPtFdbDumpCb (start : Nat) (msg : Nlmsg) (addr : Mac) (vid : BitVec 16) : Int × Nlmsg :=
  if msg.idx < start then (0, { msg with idx := msg.idx + 1 })
  else
    match nlEntry vid msg.room with
    | none => (-EMSGSIZE, msg)
    | some room => (0, { idx := msg.idx + 1, room, out := msg.out ++ [(addr, vid)] })

/-- The slots in the order they are read: all columns of a row. -/
def dumpSlots (nrows : BitVec 16) : List (Nat × Nat) :=
  (List.range nrows.toNat).flatMap fun row => (List.range SMAC_NCOLS).map fun col => (col, row)

/-- The slot has an entry of the port. -/
def isOfPort (e : SmacEntry) (ptid : Fin EDGX_BR_MAX_PORTS) : Bool := (e.fwdMask &&& BIT ptid.val) != 0 && edgxBrfdbIsFdbUsed e

/-- A slot in the loop of `edgx_brfdb_dump`. -/
def dumpSlot (ptid : Fin EDGX_BR_MAX_PORTS) (start : Nat) : Int × Nlmsg × Brfdb → Nat × Nat → Int × Nlmsg × Brfdb
  | (storedR, msg, b), (col, row) =>
    let (e, b) := edgxBrfdbSmacGet b col (BitVec.ofNat 16 row)
    if isOfPort e ptid then
      let (r, msg) := edgxPtFdbDumpCb start msg e.mac e.vlan
      (if r ≠ 0 then r else storedR, msg, b)
    else (storedR, msg, b)

def edgxBrfdbDump (b : Brfdb) (ptid : Fin EDGX_BR_MAX_PORTS) (start : Nat) (msg : Nlmsg) : Int × Nlmsg × Brfdb :=
  (dumpSlots b.nrows).foldl (dumpSlot ptid start) (0, msg, b)

/-- The messages of a dump, with the room of each, and whether one was not full. -/
def fdbDump (b : Brfdb) (ptid : Fin EDGX_BR_MAX_PORTS) : List Nat → Nat → List Key × Bool
  | [], _ => ([], false)
  | room :: rooms, start =>
    let (r, msg, b) := edgxBrfdbDump b ptid start { room }
    if r ≠ 0 then
      let (out, ended) := fdbDump b ptid rooms msg.idx
      (msg.out ++ out, ended)
    else (msg.out, true)

/-! ## Entries -/

/-- The bytes of an entry. -/
def entrySize (k : Key) : Nat := if k.2 = 0 then 40 else 48

/-- The entry of the port in a slot. -/
def entryAt (b : Brfdb) (ptid : Fin EDGX_BR_MAX_PORTS) (slot : Nat × Nat) : Option Key :=
  let e := b.tbl slot.1 (ctlRow (BitVec.ofNat 16 slot.2))
  if isOfPort e ptid then some e.key else none

/-- The entries of the port, in the order of the slots. -/
def entries (b : Brfdb) (ptid : Fin EDGX_BR_MAX_PORTS) : List Key := (dumpSlots b.nrows).filterMap (entryAt b ptid)

/-- The message as one of a listing. -/
def Nlmsg.toMessage (msg : Nlmsg) (r : Int) : Message Key := ⟨msg.idx, msg.room, msg.out, r ≠ 0⟩

theorem nlEntry_eq (vid : BitVec 16) (room : Nat) (addr : Mac) :
    nlEntry vid room = if entrySize (addr, vid) ≤ room then some (room - entrySize (addr, vid)) else none := by
  have hput (size room : Nat) : nlPut size room = if size ≤ room then some (room - size) else none := by
    unfold nlPut
    by_cases h : size ≤ room
    · rw [if_pos h, if_neg (Nat.not_lt_of_le h)]
    · rw [if_neg h, if_pos (Nat.lt_of_not_le h)]
  unfold nlEntry entrySize
  simp only [hput, NLMSG_LEN, nlaTotalSize, ETH_ALEN, Option.bind_eq_bind]
  by_cases hvid : vid = 0
  · simp only [hvid, ne_eq, not_true_eq_false, if_false, if_true]
    by_cases h28 : 28 ≤ room
    · rw [if_pos h28, Option.bind_some]
      by_cases h12 : 12 ≤ room - 28
      · rw [if_pos h12, Option.bind_some, if_pos (by omega), Nat.sub_sub]
      · rw [if_neg h12, Option.bind_none, if_neg (by omega)]
    · rw [if_neg h28, Option.bind_none, if_neg (by omega)]
  · simp only [hvid, ne_eq, not_false_eq_true, if_false, if_true]
    by_cases h28 : 28 ≤ room
    · rw [if_pos h28, Option.bind_some]
      by_cases h12 : 12 ≤ room - 28
      · rw [if_pos h12, Option.bind_some]
        by_cases h8 : 8 ≤ room - 28 - 12
        · rw [if_pos h8, if_pos (by omega), Nat.sub_sub, Nat.sub_sub]
        · rw [if_neg h8, if_neg (by omega)]
      · rw [if_neg h12, Option.bind_none, if_neg (by omega)]
    · rw [if_neg h28, Option.bind_none, if_neg (by omega)]

/-- An entry is put as an item of a listing. -/
theorem dumpCb_eq (start : Nat) (msg : Nlmsg) (addr : Mac) (vid : BitVec 16) (storedR : Int) :
    let (r, msg') := edgxPtFdbDumpCb start msg addr vid
    msg'.toMessage (if r ≠ 0 then r else storedR) = (msg.toMessage storedR).put entrySize start (addr, vid) := by
  unfold edgxPtFdbDumpCb Message.put Nlmsg.toMessage
  rw [nlEntry_eq vid msg.room addr]
  by_cases hidx : msg.idx < start
  · simp [hidx]
  · by_cases hfits : entrySize (addr, vid) ≤ msg.room
    · simp [hidx, hfits]
    · simp [hidx, hfits, EMSGSIZE]

/-- A slot puts its entry, if it has one of the port, and leaves the table. -/
theorem dumpSlot_eq (ptid : Fin EDGX_BR_MAX_PORTS) (start : Nat) (slot : Nat × Nat) (storedR : Int) (msg : Nlmsg) (b : Brfdb) :
    let r := dumpSlot ptid start (storedR, msg, b) slot
    r.2.1.toMessage r.1 = (match entryAt b ptid slot with
      | some k => (msg.toMessage storedR).put entrySize start k
      | none => msg.toMessage storedR) ∧ r.2.2.tbl = b.tbl ∧ r.2.2.nrows = b.nrows := by
  have hput := dumpCb_eq start msg (b.tbl slot.1 (ctlRow (BitVec.ofNat 16 slot.2))).mac
    (b.tbl slot.1 (ctlRow (BitVec.ofNat 16 slot.2))).vlan storedR
  unfold dumpSlot entryAt edgxBrfdbSmacGet
  -- what is not read back does not matter
  have hread : isOfPort { b.tbl slot.1 (ctlRow (BitVec.ofNat 16 slot.2)) with policedPts := 0, policer := 0 } ptid =
      isOfPort (b.tbl slot.1 (ctlRow (BitVec.ofNat 16 slot.2))) ptid := rfl
  simp only [hread]
  cases isOfPort (b.tbl slot.1 (ctlRow (BitVec.ofNat 16 slot.2))) ptid with
  | true => exact ⟨hput, rfl, rfl⟩
  | false => exact ⟨rfl, rfl, rfl⟩

theorem foldl_dumpSlot (ptid : Fin EDGX_BR_MAX_PORTS) (start : Nat) (slots : List (Nat × Nat)) (storedR : Int) (msg : Nlmsg)
    (b : Brfdb) :
    let r := slots.foldl (dumpSlot ptid start) (storedR, msg, b)
    r.2.1.toMessage r.1 = (slots.filterMap (entryAt b ptid)).foldl (Message.put entrySize start) (msg.toMessage storedR) ∧
      r.2.2.tbl = b.tbl ∧ r.2.2.nrows = b.nrows := by
  induction slots generalizing storedR msg b with
  | nil => exact ⟨rfl, rfl, rfl⟩
  | cons slot slots ih =>
    obtain ⟨hput, htbl, hrows⟩ := dumpSlot_eq ptid start slot storedR msg b
    rw [List.foldl_cons, List.filterMap_cons]
    generalize dumpSlot ptid start (storedR, msg, b) slot = r at hput htbl hrows ⊢
    obtain ⟨r, msg', b'⟩ := r
    dsimp only at hput htbl hrows
    obtain ⟨hfold, htbl', hrows'⟩ := ih r msg' b'
    have hentry : entryAt b' ptid = entryAt b ptid := by
      funext x
      rw [entryAt, entryAt, htbl]
    rw [hentry] at hfold
    refine ⟨?_, htbl'.trans htbl, hrows'.trans hrows⟩
    rw [hfold, hput]
    cases entryAt b ptid slot <;> rfl

/-- The dump is a message of the listing of the entries. -/
theorem edgxBrfdbDump_eq (b : Brfdb) (ptid : Fin EDGX_BR_MAX_PORTS) (start room : Nat) :
    let r := edgxBrfdbDump b ptid start { room }
    r.2.1.toMessage r.1 = fill entrySize start room (entries b ptid) ∧ r.2.2.tbl = b.tbl ∧ r.2.2.nrows = b.nrows :=
  foldl_dumpSlot ptid start (dumpSlots b.nrows) 0 { room } b

theorem fdbDump_eq (b : Brfdb) (ptid : Fin EDGX_BR_MAX_PORTS) (rooms : List Nat) (start : Nat) :
    fdbDump b ptid rooms start = listing entrySize (entries b ptid) rooms start := by
  induction rooms generalizing b start with
  | nil => rfl
  | cons room rooms ih =>
    obtain ⟨hmsg, htbl, hrows⟩ := edgxBrfdbDump_eq b ptid start room
    rw [fdbDump, listing]
    generalize edgxBrfdbDump b ptid start { room } = r at hmsg htbl hrows
    obtain ⟨r, msg, b'⟩ := r
    dsimp only at hmsg htbl hrows ⊢
    have hentries : entries b' ptid = entries b ptid := by
      unfold entries entryAt
      rw [htbl, hrows]
    rw [← hmsg, ih b', hentries]
    dsimp only [Nlmsg.toMessage]
    by_cases hr : r = 0
    · simp [hr]
    · simp [hr]

/-! ## The map -/

theorem mem_dumpSlots {nrows : BitVec 16} {x : Nat × Nat} :
    x ∈ dumpSlots nrows ↔ x.2 < nrows.toNat ∧ x.1 < SMAC_NCOLS := by
  obtain ⟨col, row⟩ := x
  simp [dumpSlots]

theorem nodup_dumpSlots (nrows : BitVec 16) : (dumpSlots nrows).Nodup := by
  rw [dumpSlots, List.nodup_flatMap]
  refine ⟨fun row _ => List.nodup_range.map fun c c' he => congrArg Prod.fst he, ?_⟩
  refine List.nodup_range.imp fun {row row'} hne => ?_
  intro x hx hx'
  obtain ⟨_, _, rfl⟩ := List.mem_map.1 hx
  obtain ⟨_, _, he⟩ := List.mem_map.1 hx'
  exact hne (congrArg Prod.snd he).symm

/-- The rows of keys are the rows that are read. -/
theorem rowOf_lt_nrows {b : Brfdb} (h0 : 0 < b.nrows.toNat) (k : Key) (c : Nat) : rowOf b k c < b.nrows.toNat := by
  have hpred : (b.nrows - 1).toNat = b.nrows.toNat - 1 := by
    have hlt := b.nrows.isLt
    have hone : (1 : BitVec 16).toNat = 1 := rfl
    rw [BitVec.toNat_sub, hone]
    omega
  have hmask : (edgxBrfdbCalcSmacRows b.nrows k.1 k.2 c).toNat ≤ (b.nrows - 1).toNat := by
    unfold edgxBrfdbCalcSmacRows
    dsimp only
    rw [BitVec.toNat_setWidth, BitVec.toNat_and, BitVec.toNat_setWidth]
    refine (Nat.mod_le _ _).trans (Nat.and_le_right.trans (Nat.mod_le _ _))
  have hle : rowOf b k c ≤ (edgxBrfdbCalcSmacRows b.nrows k.1 k.2 c).toNat := Nat.mod_le _ _
  omega

theorem isOfPort_iff {e : SmacEntry} {ptid : Fin EDGX_BR_MAX_PORTS} :
    isOfPort e ptid = true ↔ ptid ∈ portsOf e.fwdMask ∧ edgxBrfdbIsFdbUsed e = true := by
  have hbit : ((e.fwdMask &&& BIT ptid.val) != 0) = e.fwdMask.getLsbD ptid.val :=
    (and_BIT_ne_zero _ ptid.isLt).trans (BitVec.getLsbD_eq_getElem ptid.isLt).symm
  rw [isOfPort, Bool.and_eq_true, hbit, mem_portsOf]

section Map

variable {b : Brfdb} {m : PortMap} (hrep : Represents b m) (hrows : b.nrows.toNat ≤ SMAC_NROWS)
include hrows

theorem ctlRow_slot {x : Nat × Nat} (hx : x ∈ dumpSlots b.nrows) : ctlRow (BitVec.ofNat 16 x.2) = x.2 := by
  have hlt := (mem_dumpSlots.1 hx).1
  rw [ctlRow, BitVec.toNat_ofNat]
  simp only [SMAC_NROWS] at hrows
  omega

/-- An entry that is dumped is in a slot that is used. -/
theorem entryAt_eq_some {ptid : Fin EDGX_BR_MAX_PORTS} {x : Nat × Nat} (hx : x ∈ dumpSlots b.nrows) {k : Key} :
    entryAt b ptid x = some k ↔ x ∈ usedSlots b ∧ (b.tbl x.1 x.2).key = k ∧ ptid ∈ portsOf (b.tbl x.1 x.2).fwdMask := by
  obtain ⟨hrow, hcol⟩ := mem_dumpSlots.1 hx
  unfold entryAt
  rw [ctlRow_slot hrows hx]
  have hused : x ∈ usedSlots b ↔ edgxBrfdbIsFdbUsed (b.tbl x.1 x.2) = true :=
    mem_usedSlots.trans (and_iff_right ⟨hcol, Nat.lt_of_lt_of_le hrow hrows⟩)
  rw [hused]
  by_cases hport : isOfPort (b.tbl x.1 x.2) ptid = true
  · have hport' := isOfPort_iff.1 hport
    simp only [hport, if_true, Option.some.injEq, hport', true_and, and_true]
  · rw [if_neg hport]
    rw [isOfPort_iff] at hport
    exact iff_of_false (fun h => nomatch h) fun ⟨hu, _, hp⟩ => hport ⟨hp, hu⟩

include hrep

theorem mem_entries (h0 : 0 < b.nrows.toNat) {ptid : Fin EDGX_BR_MAX_PORTS} {k : Key} :
    k ∈ entries b ptid ↔ ptid ∈ m k := by
  rw [entries, List.mem_filterMap]
  refine ⟨fun ⟨x, hx, he⟩ => ?_, fun hmem => ?_⟩
  · obtain ⟨hused, rfl, hport⟩ := (entryAt_eq_some hrows hx).1 he
    obtain ⟨_, _, hports, _⟩ := hrep.placed x hused
    exact hports ▸ hport
  · obtain ⟨x, hused, rfl⟩ := hrep.held k (Finset.ne_empty_of_mem hmem)
    obtain ⟨hrow, _, hports, _⟩ := hrep.placed x hused
    have hx : x ∈ dumpSlots b.nrows := by
      refine mem_dumpSlots.2 ⟨?_, (mem_usedSlots.1 hused).1.1⟩
      rw [hrow]
      exact rowOf_lt_nrows h0 _ _
    exact ⟨x, hx, (entryAt_eq_some hrows hx).2 ⟨hused, rfl, hports ▸ hmem⟩⟩

theorem nodup_entries (ptid : Fin EDGX_BR_MAX_PORTS) : (entries b ptid).Nodup := by
  rw [entries, List.Nodup, List.pairwise_filterMap]
  refine (nodup_dumpSlots b.nrows).imp_of_mem fun {x y} hx hy hne k hk k' hk' he => hne ?_
  obtain ⟨hxused, hxkey, _⟩ := (entryAt_eq_some hrows hx).1 hk
  obtain ⟨hyused, hykey, _⟩ := (entryAt_eq_some hrows hy).1 hk'
  exact hrep.one x hxused y hyused (hxkey.trans (he.trans hykey.symm))

/-- A dump that has ended is complete if all its messages were clean. -/
theorem dump_of_clean (h0 : 0 < b.nrows.toNat) (ptid : Fin EDGX_BR_MAX_PORTS) (rooms : List Nat)
    (hend : (fdbDump b ptid rooms 0).2 = true) (hclean : AllClean entrySize (entries b ptid) rooms 0) :
    (fdbDump b ptid rooms 0).1.Nodup ∧ ∀ k, k ∈ (fdbDump b ptid rooms 0).1 ↔ ptid ∈ m k := by
  rw [fdbDump_eq] at hend ⊢
  have hall := (listing_iff rooms (Nat.zero_le _) hend).2 hclean
  rw [List.drop_zero] at hall
  rw [hall]
  exact ⟨nodup_entries hrep hrows ptid, fun k => mem_entries hrep hrows h0⟩

/-- An entry is missing if a message was not clean. -/
theorem clean_of_dump (h0 : 0 < b.nrows.toNat) (ptid : Fin EDGX_BR_MAX_PORTS) (rooms : List Nat)
    (hall : ∀ k, k ∈ (fdbDump b ptid rooms 0).1 ↔ ptid ∈ m k) : AllClean entrySize (entries b ptid) rooms 0 := by
  by_contra hclean
  obtain ⟨k, hk, hnot⟩ := listing_missing (nodup_entries hrep hrows ptid) rooms (Nat.zero_le _) hclean
  rw [List.drop_zero] at hk
  rw [← fdbDump_eq] at hnot
  exact hnot ((hall k).2 ((mem_entries hrep hrows h0).1 hk))

/-- **A dump that has ended lists each entry of the port once** just when in none of its
messages an entry was put behind one that was left out. -/
theorem dump_complete_iff (h0 : 0 < b.nrows.toNat) (ptid : Fin EDGX_BR_MAX_PORTS) (rooms : List Nat)
    (hend : (fdbDump b ptid rooms 0).2 = true) :
    ((fdbDump b ptid rooms 0).1.Nodup ∧ ∀ k, k ∈ (fdbDump b ptid rooms 0).1 ↔ ptid ∈ m k) ↔
      AllClean entrySize (entries b ptid) rooms 0 :=
  ⟨fun h => clean_of_dump hrep hrows h0 ptid rooms h.2, dump_of_clean hrep hrows h0 ptid rooms hend⟩

/-- Entries for single VLANs only are dumped in full. -/
theorem dump_of_tagged (h0 : 0 < b.nrows.toNat) (ptid : Fin EDGX_BR_MAX_PORTS) {rooms : List Nat}
    (hend : (fdbDump b ptid rooms 0).2 = true) (htagged : ∀ k, ptid ∈ m k → k.2 ≠ 0) :
    (fdbDump b ptid rooms 0).1.Nodup ∧ ∀ k, k ∈ (fdbDump b ptid rooms 0).1 ↔ ptid ∈ m k := by
  refine dump_of_clean hrep hrows h0 ptid rooms hend (allClean_of_const (c := 48) (fun k hk => ?_) rooms 0)
  exact if_neg (htagged k ((mem_entries hrep hrows h0).1 hk))

end Map

/-- A small table, and two entries, the longer one in front. -/
def smallTable : Brfdb := { emptyTable with nrows := 4 }

def twoOps : List FdbOp := [.add (someMac, 5) ⟨1, by decide⟩, .add (someMac, 0) ⟨1, by decide⟩]

theorem dump_complete_iff_two :
    let b := after fdbStep smallTable twoOps
    let m : PortMap := (outs fdbStep smallTable twoOps).foldl PortMap.apply fun _ => ∅
    ((fdbDump b ⟨1, by decide⟩ [44, 100] 0).1.Nodup ∧ ∀ k, k ∈ (fdbDump b ⟨1, by decide⟩ [44, 100] 0).1 ↔ ⟨1, by decide⟩ ∈ m k) ↔
      AllClean entrySize (entries b ⟨1, by decide⟩) [44, 100] 0 := by
  refine dump_complete_iff (m := (outs fdbStep smallTable twoOps).foldl PortMap.apply fun _ => ∅) ?_ (by decide +kernel)
    (by decide +kernel) _ _ (by decide +kernel)
  exact (((show Empty smallTable from emptyTable_empty).represents rfl).call (.add (someMac, 5) ⟨1, by decide⟩)).represents.call
    (.add (someMac, 0) ⟨1, by decide⟩) |>.represents

end TsnSwitch.Fdb
