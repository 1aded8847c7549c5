/-
The stream table of the FRER block (edge_frer.c) and the driver's access to
it. A row has four words: the ports that a stream's sequence number is encoded
for (table 0) and actively so (table 1), its generation function (table 2) and
its recovery function (table 3).

A command loads the registers STREAM_TABLE0-3 from a row or, with bit 14,
writes them to it. So a word is written by a read of its row, a change of one
register and a write of all four. The driver does not check every stream handle it
puts into a command: one with bit 14 set turns a read into a write.
-/
import TsnSwitch.Errno

namespace TsnSwitch.Frer

def FRER_MAX_NO_STREAMS : Nat := 1024
def EDGX_BR_MAX_PORTS : Nat := 16

def FRER_U16_INVALID : BitVec 16 := 0xFFFF
def FRER_BOOL_INVALID : BitVec 8 := 0xFF

/-- Bits 11-0, the row of a function's table. -/
def STRTBL_MASK : BitVec 16 := 0xFFF

def BIT15 : BitVec 16 := 0x8000

abbrev Port := Fin EDGX_BR_MAX_PORTS

/-- `BIT(pt)`. -/
def bit (pt : Port) : BitVec 16 := 1#16 <<< pt.val

section Handles

variable {p : BitVec 16 → Prop} [DecidablePred p]

-- The handles of a list are tried, not all that there are.
instance (priority := high) decidableBAll (ls : List (BitVec 16)) : Decidable (∀ s ∈ ls, p s) := List.decidableBAll p ls

instance (priority := high) decidableBEx (ls : List (BitVec 16)) : Decidable (∃ s ∈ ls, p s) := List.decidableBEx p ls

instance (priority := high) decidableMem (o : Option (BitVec 16)) : Decidable (∀ s ∈ o, p s) := Option.decidableForallMem o

instance lawfulBEq : LawfulBEq (BitVec 16) := inferInstance

end Handles

/-- The four words of a row, `FRER_TBL0` to `FRER_TBL3`. -/
inductive Tbl where
  | tbl0
  | tbl1
  | tbl2
  | tbl3
  deriving DecidableEq

abbrev Row := Tbl → BitVec 16

/-- Rows by number, also those beyond the table, and STREAM_TABLE0-3. -/
structure StreamTbl where
  rows : BitVec 16 → Row
  regs : Row

/-- A write to STREAM_CMD, with the row in bits 13-0. -/
def StreamTbl.cmd (h : StreamTbl) (cmd : BitVec 16) : StreamTbl :=
  let row := cmd &&& 0x3FFF
  if cmd.getLsbD 14 then { h with rows := Function.update h.rows row h.regs }
  else { h with regs := h.rows row }

def edgxFrerIpRdStrtbl (h : StreamTbl) (strhdl : BitVec 16) (tbl : Tbl) : BitVec 16 × StreamTbl :=
  let h := h.cmd (0x8000 ||| strhdl)
  (h.regs tbl, h)

def edgxFrerIpWrStrtbl (h : StreamTbl) (strhdl val : BitVec 16) (tbl : Tbl) (del : Bool) : StreamTbl :=
  let h := (edgxFrerIpRdStrtbl h strhdl .tbl0).2
  let val :=
    match tbl with
    | .tbl0 | .tbl1 => val
    | .tbl2 | .tbl3 => if del then val &&& ~~~BIT15 else val ||| BIT15
  let h := { h with regs := Function.update h.regs tbl val }
  h.cmd (0xC000 ||| strhdl)

/-- Whether a generation or recovery function is enabled for the stream. -/
def edgxFrerSeqfnEnabled (h : StreamTbl) (strhdl : BitVec 16) (tbl : Tbl) : Bool × StreamTbl :=
  let (reg, h) := edgxFrerIpRdStrtbl h strhdl tbl
  (reg.getLsbD 15, h)

/-! ## Handles that are a row of the table -/

/-- A command of a handle with bit 14 clear reads. -/
theorem rd_rows {s : BitVec 16} (hs : s.getLsbD 14 = false) (h : StreamTbl) (tbl : Tbl) :
    (edgxFrerIpRdStrtbl h s tbl).2.rows = h.rows := by
  have hbit : (0x8000 ||| s).getLsbD 14 = false := by
    rw [BitVec.getLsbD_or, hs]
    rfl
  simp only [edgxFrerIpRdStrtbl, StreamTbl.cmd, hbit]
  rfl

/-- The handle is a row of the largest table. -/
def InTable (s : BitVec 16) : Prop := s.toNat < FRER_MAX_NO_STREAMS

instance (s : BitVec 16) : Decidable (InTable s) := inferInstanceAs (Decidable (_ < _))

section InTable

variable {s : BitVec 16}

theorem InTable.getLsbD (hs : InTable s) {i : Nat} (hi : 10 ≤ i) : s.getLsbD i = false :=
  Nat.testBit_lt_two_pow (Nat.lt_of_lt_of_le hs (Nat.pow_le_pow_right Nat.two_pos hi))

theorem InTable.row (hs : InTable s) {c : BitVec 16} (hc : c &&& 0x3FFF = 0) : (c ||| s) &&& 0x3FFF = s := by
  have hmask : s &&& 0x3FFF = s := by
    refine BitVec.eq_of_toNat_eq ?_
    rw [BitVec.toNat_and]
    exact Nat.and_two_pow_sub_one_of_lt_two_pow (n := 14) (Nat.lt_of_lt_of_le hs (by decide))
  rw [BitVec.and_comm, BitVec.and_or_distrib_left, BitVec.and_comm, hc, BitVec.and_comm, hmask]
  exact BitVec.zero_or

/-- A read of a row in the table. -/
theorem InTable.rd (hs : InTable s) (h : StreamTbl) (tbl : Tbl) :
    edgxFrerIpRdStrtbl h s tbl = (h.rows s tbl, { h with regs := h.rows s }) := by
  have hbit : (0x8000 ||| s).getLsbD 14 = false := by
    rw [BitVec.getLsbD_or, hs.getLsbD (by decide)]
    rfl
  simp only [edgxFrerIpRdStrtbl, StreamTbl.cmd, hbit, hs.row (c := 0x8000) rfl]
  rfl

/-- The table with one word changed, and the registers as its row. -/
def StreamTbl.setWord (h : StreamTbl) (s : BitVec 16) (tbl : Tbl) (w : BitVec 16) : StreamTbl :=
  let row := Function.update (h.rows s) tbl w
  { rows := Function.update h.rows s row, regs := row }

theorem StreamTbl.setWord_rows (h : StreamTbl) (s : BitVec 16) (tbl : Tbl) (w x : BitVec 16) (t : Tbl) :
    (h.setWord s tbl w).rows x t = if x = s ∧ t = tbl then w else h.rows x t := by
  simp only [StreamTbl.setWord, Function.update_apply]
  by_cases hx : x = s
  · subst hx
    simp [Function.update_apply]
  · simp [hx]

/-- What a write puts into the word. -/
def wrVal (val : BitVec 16) (tbl : Tbl) (del : Bool) : BitVec 16 :=
  match tbl with
  | .tbl0 | .tbl1 => val
  | .tbl2 | .tbl3 => if del then val &&& ~~~BIT15 else val ||| BIT15

/-- A write to a row in the table changes one word of it. -/
theorem InTable.wr (hs : InTable s) (h : StreamTbl) (val : BitVec 16) (tbl : Tbl) (del : Bool) :
    edgxFrerIpWrStrtbl h s val tbl del = h.setWord s tbl (wrVal val tbl del) := by
  have hbit : (0xC000 ||| s).getLsbD 14 = true := by
    rw [BitVec.getLsbD_or, hs.getLsbD (by decide)]
    rfl
  simp only [edgxFrerIpWrStrtbl, hs.rd, StreamTbl.cmd, hbit, hs.row (c := 0xC000) rfl, if_true]
  rfl

end InTable

/-! ## Words of tables 2 and 3 -/

/-- The word enables function `fn`. -/
def Points (w fn : BitVec 16) : Prop := w.getLsbD 15 = true ∧ w &&& STRTBL_MASK = fn

instance (w fn : BitVec 16) : Decidable (Points w fn) := inferInstanceAs (Decidable (_ ∧ _))

/-- The word enables another function than `fn`. -/
def Conflict (w fn : BitVec 16) : Prop := w.getLsbD 15 = true ∧ w &&& STRTBL_MASK ≠ fn

instance (w fn : BitVec 16) : Decidable (Conflict w fn) := inferInstanceAs (Decidable (_ ∧ _))

theorem Points.eq {w fn fn' : BitVec 16} (h : Points w fn) (h' : Points w fn') : fn = fn' := h.2.symm.trans h'.2

theorem Points.not_conflict {w fn : BitVec 16} (h : Points w fn) : ¬ Conflict w fn := fun hc => hc.2 h.2

theorem not_points_zero (fn : BitVec 16) : ¬ Points 0 fn := fun h => absurd h.1 (by decide)

theorem points_set {fn : BitVec 16} (hfn : InTable fn) : Points (fn ||| BIT15) fn := by
  refine ⟨?_, ?_⟩
  · rw [BitVec.getLsbD_or]
    simp [BIT15]
  · have hmask : fn &&& STRTBL_MASK = fn := by
      refine BitVec.eq_of_toNat_eq ?_
      rw [BitVec.toNat_and]
      exact Nat.and_two_pow_sub_one_of_lt_two_pow (n := 12) (Nat.lt_of_lt_of_le hfn (by decide))
    rw [BitVec.and_comm, BitVec.and_or_distrib_left, BitVec.and_comm, hmask,
      show STRTBL_MASK &&& BIT15 = 0 by decide]
    exact BitVec.or_zero

theorem clear_disabled (v : BitVec 16) : (v &&& ~~~BIT15).getLsbD 15 = false := by
  rw [BitVec.getLsbD_and]
  simp [BIT15]

theorem not_points_clear (v fn : BitVec 16) : ¬ Points (v &&& ~~~BIT15) fn := fun h =>
  Bool.false_ne_true ((clear_disabled v).symm.trans h.1)

end TsnSwitch.Frer
