/-
The reset times of sequence recovery: `calc_rcv_rst` and `first_bigger` of
edge_frer.c.

The product of clock period and aging base has 32 bits, and is widened after it
is taken. The quotients themselves always fit their entries, and fall from one
entry to the next. The search for the last entry that is big enough reads the
entry before it looks at the index: where no entry is, it reads one behind the
table (`resetTimesOk_iff`).
-/
import TsnSwitch.Frer.SeqRec

namespace TsnSwitch.Frer

/-- The two halves of `AGING_BASE_TIME`. -/
def agingBt (lo hi : BitVec 16) : BitVec 32 := lo.setWidth 32 ||| (hi.setWidth 32 <<< 16)

/-- The numerator, with the width it is computed in. -/
def rcvRstNum (tclk aging : BitVec 32) : BitVec 32 := tclk * aging * 124

/-- Of aging rate scale `i` and aging basic rate `j`. -/
def rcvRstDenom (i j : Fin 4) : BitVec 32 := 1000000 * (1 <<< i.val) * (BitVec.ofNat 32 j.val + 5)

/-- One turn of the loops: what is stored in entry `4 * i + j`. -/
def rcvRstEntry (tclk aging : BitVec 32) (i j : Fin 4) : BitVec 16 :=
  ((rcvRstNum tclk aging).setWidth 64 / (rcvRstDenom i j).setWidth 64).setWidth 16

def calcRcvRst (tclk : BitVec 32) (lo hi : BitVec 16) (k : Fin 16) : BitVec 16 :=
  rcvRstEntry tclk (agingBt lo hi) ⟨k.val / 4, by omega⟩ ⟨k.val % 4, by omega⟩

/-- The loop of `first_bigger` from an index on, over the memory from the first
entry: the entries that are read, and the index it stops at. -/
def firstBiggerLoop (mem : BitVec 8 → BitVec 16) (val : BitVec 16) (i : Int) : List (BitVec 8) × Int :=
  let idx := BitVec.ofInt 8 i
  if mem idx < val ∧ i ≥ 0 then
    let (reads, r) := firstBiggerLoop mem val (i - 1)
    (idx :: reads, r)
  else ([idx], i)
  termination_by (i + 1).toNat
  decreasing_by omega

/-- `first_bigger`, with the entries it reads. -/
def firstBiggerReads (mem : BitVec 8 → BitVec 16) (val : BitVec 16) : List (BitVec 8) × BitVec 8 :=
  let (reads, i) := firstBiggerLoop mem val 15
  (reads, if i < 0 then 0 else BitVec.ofInt 8 i)

/-! ## The table -/

/-- What the numerator should be. -/
def rcvRstProduct (tclk : BitVec 32) (lo hi : BitVec 16) : Nat := tclk.toNat * (agingBt lo hi).toNat * 124

/-- What the denominator should be. -/
def rcvRstUnit (i j : Fin 4) : Nat := 10 ^ 6 * 2 ^ i.val * (j.val + 5)

/-- The place of an entry. -/
def rstIdx (i j : Fin 4) : Fin 16 := ⟨4 * i.val + j.val, by omega⟩

theorem rcvRstDenom_toNat (i j : Fin 4) : (rcvRstDenom i j).toNat = rcvRstUnit i j := by
  revert i j
  decide

theorem rcvRstNum_toNat (tclk aging : BitVec 32) :
    (rcvRstNum tclk aging).toNat = tclk.toNat * aging.toNat * 124 % 2 ^ 32 := by
  rw [rcvRstNum, BitVec.toNat_mul, BitVec.toNat_mul, Nat.mod_mul_mod]
  rfl

/-- The quotient has at most 10 bits. -/
theorem rcvRstEntry_toNat (tclk aging : BitVec 32) (i j : Fin 4) :
    (rcvRstEntry tclk aging i j).toNat = tclk.toNat * aging.toNat * 124 % 2 ^ 32 / rcvRstUnit i j := by
  have hunit : 5000000 ≤ rcvRstUnit i j := by
    revert i j
    decide
  have hlt : tclk.toNat * aging.toNat * 124 % 2 ^ 32 < 2 ^ 32 := Nat.mod_lt _ (by norm_num)
  have hle := Nat.div_le_div_left (c := 5000000) (a := tclk.toNat * aging.toNat * 124 % 2 ^ 32) hunit (by norm_num)
  rw [rcvRstEntry, BitVec.toNat_setWidth, BitVec.toNat_udiv, BitVec.toNat_setWidth_of_le (by norm_num),
    BitVec.toNat_setWidth_of_le (by norm_num), rcvRstNum_toNat, rcvRstDenom_toNat, Nat.mod_eq_of_lt]
  omega

theorem calcRcvRst_rstIdx (tclk : BitVec 32) (lo hi : BitVec 16) (i j : Fin 4) :
    calcRcvRst tclk lo hi (rstIdx i j) = rcvRstEntry tclk (agingBt lo hi) i j := by
  have hdiv : (rstIdx i j).val / 4 = i.val := by
    simp only [rstIdx]
    omega
  have hmod : (rstIdx i j).val % 4 = j.val := by
    simp only [rstIdx]
    omega
  simp only [calcRcvRst, hdiv, hmod]

theorem rcvRstUnit_growing : ∀ k l : Fin 16, k ≤ l →
    0 < rcvRstUnit ⟨k.val / 4, by omega⟩ ⟨k.val % 4, by omega⟩ ∧
      rcvRstUnit ⟨k.val / 4, by omega⟩ ⟨k.val % 4, by omega⟩ ≤
        rcvRstUnit ⟨l.val / 4, by omega⟩ ⟨l.val % 4, by omega⟩ := by
  decide

/-- The units grow with the index, whatever the numerator is. -/
theorem calcRcvRst_falling (tclk : BitVec 32) (lo hi : BitVec 16) {k l : Fin 16} (h : k ≤ l) :
    calcRcvRst tclk lo hi l ≤ calcRcvRst tclk lo hi k := by
  rw [BitVec.le_def, calcRcvRst, calcRcvRst, rcvRstEntry_toNat, rcvRstEntry_toNat]
  exact Nat.div_le_div_left (rcvRstUnit_growing k l h).2 (rcvRstUnit_growing k l h).1

/-! ## The search -/

/-- The memory from the table on. -/
def rstMem (tbl : Fin 16 → BitVec 16) (beyond : BitVec 8 → BitVec 16) (x : BitVec 8) : BitVec 16 :=
  if h : x.toNat < 16 then tbl ⟨x.toNat, h⟩ else beyond x

theorem rstMem_ofNat (tbl : Fin 16 → BitVec 16) (beyond : BitVec 8 → BitVec 16) (k : Fin 16) :
    rstMem tbl beyond (BitVec.ofNat 8 k.val) = tbl k := by
  have hval : (BitVec.ofNat 8 k.val).toNat = k.val := by
    rw [BitVec.toNat_ofNat]
    omega
  have hlt : (BitVec.ofNat 8 k.val).toNat < 16 := by
    rw [hval]
    exact k.isLt
  rw [rstMem, dif_pos hlt]
  exact congrArg tbl (Fin.ext hval)

/-- The largest index with an entry of at least `val`, or 0 without one. -/
def IsLast (tbl : Fin 16 → BitVec 16) (val : BitVec 16) (r : BitVec 8) : Prop :=
  ∃ k : Fin 16, r = BitVec.ofNat 8 k.val ∧ (∀ l, k < l → tbl l < val) ∧ (val ≤ tbl k ∨ k.val = 0 ∧ ∀ l, tbl l < val)

/-- The loop from below the index `n`: it stops at the last entry that is big
enough, or reads the entry of index -1. -/
theorem firstBiggerLoop_spec (mem : BitVec 8 → BitVec 16) (val : BitVec 16) (n : Nat) :
    (∃ k < n, val ≤ mem (BitVec.ofNat 8 k) ∧ (∀ l, k < l → l < n → mem (BitVec.ofNat 8 l) < val) ∧
      (firstBiggerLoop mem val (n - 1)).2 = k ∧
      ∀ x ∈ (firstBiggerLoop mem val (n - 1)).1, ∃ l < n, x = BitVec.ofNat 8 l) ∨
    ((∀ l < n, mem (BitVec.ofNat 8 l) < val) ∧ (firstBiggerLoop mem val (n - 1)).2 = -1 ∧
      255 ∈ (firstBiggerLoop mem val (n - 1)).1) := by
  induction n with
  | zero =>
    refine .inr ⟨by simp, ?_⟩
    rw [firstBiggerLoop]
    simp
  | succ n ih =>
    have hidx : BitVec.ofInt 8 ((n + 1 : Nat) - 1 : Int) = BitVec.ofNat 8 n := by
      rw [Nat.cast_add, Nat.cast_one, add_sub_cancel_right, BitVec.ofInt_natCast]
    have hstep : ((n + 1 : Nat) : Int) - 1 - 1 = n - 1 := by omega
    rw [firstBiggerLoop, hidx, hstep]
    by_cases hlt : mem (BitVec.ofNat 8 n) < val
    · rw [if_pos ⟨hlt, by omega⟩]
      rcases ih with ⟨k, hk, hval, hlater, hr, hin⟩ | ⟨hall, hr, hmem⟩
      · refine .inl ⟨k, by omega, hval, fun l hl hln => ?_, hr, fun x hx => ?_⟩
        · rcases Nat.lt_succ_iff_lt_or_eq.1 hln with hln | rfl
          · exact hlater l hl hln
          · exact hlt
        · rcases List.mem_cons.1 hx with rfl | hx
          · exact ⟨n, by omega, rfl⟩
          · obtain ⟨l, hl, rfl⟩ := hin x hx
            exact ⟨l, by omega, rfl⟩
      · refine .inr ⟨fun l hl => ?_, hr, List.mem_cons_of_mem _ hmem⟩
        rcases Nat.lt_succ_iff_lt_or_eq.1 hl with hl | rfl
        · exact hall l hl
        · exact hlt
    · rw [if_neg fun h => hlt h.1]
      refine .inl ⟨n, by omega, BitVec.not_lt.1 hlt, fun l hl hln => by omega, by omega, fun x hx => ?_⟩
      exact ⟨n, by omega, List.mem_singleton.1 hx⟩

section Search

variable (tbl : Fin 16 → BitVec 16) (beyond : BitVec 8 → BitVec 16) (val : BitVec 16)

/-- The result is right in any case. The reads stay in the table just when an
entry is big enough. -/
theorem firstBiggerReads_spec : IsLast tbl val (firstBiggerReads (rstMem tbl beyond) val).2 ∧
    ((∀ x ∈ (firstBiggerReads (rstMem tbl beyond) val).1, x < 16) ↔ ∃ k, val ≤ tbl k) := by
  have h := firstBiggerLoop_spec (rstMem tbl beyond) val 16
  have hcast : ((16 : Nat) : Int) - 1 = 15 := rfl
  rw [hcast] at h
  rcases h with ⟨k, hk, hval, hlater, hr, hin⟩ | ⟨hall, hr, hmem⟩
  · have hmem := rstMem_ofNat tbl beyond
    simp only [firstBiggerReads, hr]
    refine ⟨⟨⟨k, hk⟩, ?_, fun l hl => ?_, .inl ?_⟩, iff_of_true (fun x hx => ?_) ⟨⟨k, hk⟩, ?_⟩⟩
    · rw [if_neg (by omega), BitVec.ofInt_natCast]
    · rw [← hmem l]
      exact hlater l.val hl l.isLt
    · rwa [← hmem ⟨k, hk⟩]
    · obtain ⟨l, hl, rfl⟩ := hin x hx
      bv_omega
    · rwa [← hmem ⟨k, hk⟩]
  · have hnone : ∀ l, tbl l < val := fun l => by
      rw [← rstMem_ofNat tbl beyond l]
      exact hall l.val l.isLt
    simp only [firstBiggerReads, hr]
    refine ⟨⟨0, rfl, fun l _ => hnone l, .inr ⟨rfl, hnone⟩⟩, iff_of_false (fun h => ?_) ?_⟩
    · exact absurd (h 255 hmem) (by decide)
    · rintro ⟨k, hk⟩
      exact absurd (hnone k) (BitVec.not_lt.2 hk)

end Search

theorem IsLast.unique {tbl : Fin 16 → BitVec 16} {val : BitVec 16} {r r' : BitVec 8} (h : IsLast tbl val r)
    (h' : IsLast tbl val r') : r = r' := by
  obtain ⟨k, rfl, hlater, hk⟩ := h
  obtain ⟨k', rfl, hlater', hk'⟩ := h'
  rcases lt_trichotomy k k' with hlt | rfl | hlt
  · rcases hk' with hval | ⟨hzero, -⟩
    · exact absurd (hlater k' hlt) (BitVec.not_lt.2 hval)
    · exact absurd hlt (by omega)
  · rfl
  · rcases hk with hval | ⟨hzero, -⟩
    · exact absurd (hlater' k hlt) (BitVec.not_lt.2 hval)
    · exact absurd hlt (by omega)

/-- What `edgx_frer_seqrec_apply` looks up is found by this search. -/
theorem firstBigger_eq (par : Params) (beyond : BitVec 8 → BitVec 16) (val : BitVec 16) :
    firstBigger par val = (firstBiggerReads (rstMem par.seqrecRst beyond) val).2 := by
  have hlast : IsLast par.seqrecRst val (firstBigger par val) := by
    rw [firstBigger]
    split
    · rename_i i hfind
      obtain ⟨hi, as, bs, hsplit, has⟩ := List.find?_eq_some_iff_append.1 hfind
      have hfalls : (as ++ i :: bs).Pairwise (· > ·) := by
        rw [← hsplit, List.pairwise_reverse]
        exact List.pairwise_lt_finRange 16
      refine ⟨i, rfl, fun l hl => ?_, .inl (by simpa using hi)⟩
      have hmem : l ∈ as ++ i :: bs := hsplit ▸ List.mem_reverse.2 (List.mem_finRange l)
      rcases List.mem_append.1 hmem with hl' | hl'
      · simpa using has l hl'
      · rcases List.mem_cons.1 hl' with rfl | hl'
        · exact absurd hl (lt_irrefl l)
        · exact absurd hl (List.rel_of_pairwise_cons (List.pairwise_append.1 hfalls).2.1 hl').asymm
    · rename_i hfind
      have hnone : ∀ l, par.seqrecRst l < val := fun l => by
        simpa using List.find?_eq_none.1 hfind l (List.mem_reverse.2 (List.mem_finRange l))
      exact ⟨0, rfl, fun l _ => hnone l, .inr ⟨rfl, hnone⟩⟩
  exact hlast.unique (firstBiggerReads_spec par.seqrecRst beyond val).1

/-! ## Both -/

/-- The entries are the quotients of the true products, and fall; the search
finds the last one that is big enough, and reads the table only. -/
structure ResetTimesOk (tclk : BitVec 32) (lo hi : BitVec 16) (beyond : BitVec 8 → BitVec 16) (val : BitVec 16) :
    Prop where
  noOverflow : (rcvRstNum tclk (agingBt lo hi)).toNat = rcvRstProduct tclk lo hi
  exact : ∀ i j, rcvRstProduct tclk lo hi / rcvRstUnit i j < 2 ^ 16 →
    (calcRcvRst tclk lo hi (rstIdx i j)).toNat = rcvRstProduct tclk lo hi / rcvRstUnit i j
  falls : ∀ k l, k ≤ l → calcRcvRst tclk lo hi l ≤ calcRcvRst tclk lo hi k
  last : IsLast (calcRcvRst tclk lo hi) val (firstBiggerReads (rstMem (calcRcvRst tclk lo hi) beyond) val).2
  inside : ∀ x ∈ (firstBiggerReads (rstMem (calcRcvRst tclk lo hi) beyond) val).1, x < 16

/-- **The table and its search are right** just when the product has 32 bits and
the value is no more than the first entry. -/
theorem resetTimesOk_iff (tclk : BitVec 32) (lo hi : BitVec 16) (beyond : BitVec 8 → BitVec 16) (val : BitVec 16) :
    ResetTimesOk tclk lo hi beyond val ↔
      rcvRstProduct tclk lo hi < 2 ^ 32 ∧ val.toNat ≤ rcvRstProduct tclk lo hi / 5000000 := by
  obtain ⟨hlast, hreads⟩ := firstBiggerReads_spec (calcRcvRst tclk lo hi) beyond val
  have hnum := rcvRstNum_toNat tclk (agingBt lo hi)
  have hentry : ∀ i j, (calcRcvRst tclk lo hi (rstIdx i j)).toNat =
      rcvRstProduct tclk lo hi % 2 ^ 32 / rcvRstUnit i j := fun i j => by
    rw [calcRcvRst_rstIdx, rcvRstEntry_toNat, rcvRstProduct]
  have hfirst : (calcRcvRst tclk lo hi 0).toNat = rcvRstProduct tclk lo hi % 2 ^ 32 / 5000000 := hentry 0 0
  have hfalls : ∀ k l, k ≤ l → calcRcvRst tclk lo hi l ≤ calcRcvRst tclk lo hi k := fun k l h =>
    calcRcvRst_falling tclk lo hi h
  rw [← rcvRstProduct] at hnum
  constructor
  · intro h
    have hlt : rcvRstProduct tclk lo hi < 2 ^ 32 := by
      rw [← h.noOverflow]
      exact BitVec.isLt _
    refine ⟨hlt, ?_⟩
    obtain ⟨k, hk⟩ := hreads.1 h.inside
    have hle := BitVec.le_trans hk (hfalls 0 k (Fin.zero_le k))
    rwa [BitVec.le_def, hfirst, Nat.mod_eq_of_lt hlt] at hle
  · rintro ⟨hlt, hle⟩
    rw [Nat.mod_eq_of_lt hlt] at hnum hfirst
    refine ⟨hnum, fun i j _ => ?_, hfalls, hlast, hreads.2 ⟨0, ?_⟩⟩
    · rw [hentry, Nat.mod_eq_of_lt hlt]
    · rwa [BitVec.le_def, hfirst]

/-- A clock of 125 MHz and an aging base of 5 million periods: the product has 33
bits, and the first entry is 133 milliseconds and not 992. An aging base of 64:
every entry is 0, and 1 is looked for behind the table. -/
theorem not_resetTimesOk :
    (rcvRstProduct 8 0x4b40 0x4c = 4960000000 ∧ (calcRcvRst 8 0x4b40 0x4c (rstIdx 0 0)).toNat = 133 ∧
      ¬ ResetTimesOk 8 0x4b40 0x4c (fun _ => 0) 1) ∧
    (¬ (∀ x ∈ (firstBiggerReads (rstMem (calcRcvRst 8 64 0) fun _ => 0) 1).1, x < 16) ∧
      ¬ ResetTimesOk 8 64 0 (fun _ => 0) 1) := by
  have hnone : ¬ ∃ k, (1 : BitVec 16) ≤ calcRcvRst 8 64 0 k := by decide
  have hreads := mt (firstBiggerReads_spec (calcRcvRst 8 64 0) (fun _ => 0) 1).2.1 hnone
  refine ⟨⟨by decide, by decide, fun h => ?_⟩, hreads, fun h => hreads h.inside⟩
  exact absurd h.noOverflow (by decide)

end TsnSwitch.Frer
