/-
The text of a cycle time: the attribute that stores the admin cycle time in
edge_st_fscr.c, and its copy in edge_st_fsc.c.

`sscanf` gives how many numbers it read, and both functions return that as if
it were an error or a count of bytes when it is not two. It stores the low 32
bits of a number of any size, so the setter checks those and not the number
that is written (`cycleTextOk_iff`).
-/
import TsnSwitch.Sched.BaseTime

namespace TsnSwitch.Sched

open Lib

/-! ## The functions -/

/-- The numbers that `sscanf` reads with `%u/%u`, of any size. -/
def ratioNumbers (str : List Char) : List Nat :=
  match scanUnsigned str with
  | none => []
  | some (num, rest) =>
    match rest with
    | '/' :: rest =>
      match scanUnsigned rest with
      | none => [num]
      | some (denom, _) => [num, denom]
    | _ => [num]

/-- What `sscanf` stores, and as many as it returns. -/
def sscanfRatio (str : List Char) : List (BitVec 32) := (ratioNumbers str).map (BitVec.ofNat 32)

def adminCycleTimeStore (com : Com) (s : EdgxSched) (buf : List Char) : Int × EdgxSched :=
  let (ret, s) : Int × EdgxSched :=
    match sscanfRatio (cString buf) with
    | [num, denom] => edgxSchedSetCycleTime portGates com s ⟨num, denom⟩
    | stored => (stored.length, s)
  (if ret ≠ 0 then ret else buf.length, s)

/-- This copy has the check of the setter in it. -/
def Fsc.adminCycleTimeStore (com : Com) (s : EdgxSched) (buf : List Char) : Int × EdgxSched :=
  match sscanfRatio (cString buf) with
  | [num, denom] =>
    if denom ≠ 0 then
      if (edgxSchedRationalToNsec ⟨num, denom⟩).1 ≤ fsc.maxCycNs com then
        (buf.length, { s with adminTab := { s.adminTab with cycleTime := ⟨num, denom⟩ } })
      else (-ERANGE, { s with confChangeErr := s.confChangeErr + 1 })
    else (-EINVAL, s)
  | stored => (stored.length, s)

def Driver.adminCycleTimeStore : Driver → Com → EdgxSched → List Char → Int × EdgxSched
  | .fscr => Sched.adminCycleTimeStore
  | .fsc => Fsc.adminCycleTimeStore

/-- The text `%u/%u` and a line end print. -/
def cycleTimeText (ct : Rational) : List Char :=
  Nat.toDigits 10 ct.num.toNat ++ '/' :: (Nat.toDigits 10 ct.denom.toNat ++ ['\n'])

def adminCycleTimeShow (s : EdgxSched) : List Char := cycleTimeText s.adminTab.cycleTime

/-! ## What is asked -/

/-- The text starts with two numbers and a slash between them. -/
def Written (str : List Char) (num denom : Nat) : Prop :=
  ∃ rest rest', StartsWith str num ('/' :: rest) ∧ StartsWith rest denom rest'

/-- The setter refuses the cycle time. -/
def Driver.Refuses (d : Driver) (com : Com) (ct : Rational) : Prop :=
  ct.denom = 0 ∨ d.user.variant.maxCycNs com < (edgxSchedRationalToNsec ct).1

/-- The cycle time that is written is stored and all bytes are counted, or an
error is returned and no parameter is changed. Out of range it is an error that
the driver counts. -/
def CycleTextOk (d : Driver) (com : Com) (s : EdgxSched) (buf : List Char) : Prop :=
  let r := d.adminCycleTimeStore com s buf
  (∃ ct : Rational, Written (cString buf) ct.num.toNat ct.denom.toNat ∧
    r = ((buf.length : Int), { s with adminTab := { s.adminTab with cycleTime := ct } })) ∨
  (r.1 < 0 ∧ r.2 = { s with confChangeErr := s.confChangeErr + if r.1 = -ERANGE then 1 else 0 })

/-! ## The numbers in a text -/

section Numbers

variable {str : List Char}

theorem ratioNumbers_length_le (str : List Char) : (ratioNumbers str).length ≤ 2 := by
  unfold ratioNumbers
  split
  · exact Nat.zero_le _
  · split
    · split <;> simp
    · simp

theorem ratioNumbers_iff {num denom : Nat} : ratioNumbers str = [num, denom] ↔ Written str num denom := by
  constructor
  · intro h
    unfold ratioNumbers at h
    split at h
    · cases h
    · rename_i num' rest hnum
      split at h
      · rename_i rest
        split at h
        · cases h
        · rename_i denom' rest' hdenom
          cases h
          exact ⟨rest, rest', scanUnsigned_iff.1 hnum, scanUnsigned_iff.1 hdenom⟩
      · cases h
  · rintro ⟨rest, rest', hnum, hdenom⟩
    unfold ratioNumbers
    simp only [scanUnsigned_iff.2 hnum, scanUnsigned_iff.2 hdenom]

/-- A text has two numbers, or fewer and those are not stored. -/
theorem ratioNumbers_cases (str : List Char) :
    (∃ num denom, Written str num denom) ∨
      (ratioNumbers str).length < 2 ∧ ∀ num denom, ¬ Written str num denom := by
  have hle := ratioNumbers_length_le str
  cases hr : ratioNumbers str with
  | nil => exact .inr ⟨by decide, fun num denom h => nomatch (ratioNumbers_iff.2 h).symm.trans hr⟩
  | cons num l =>
    cases l with
    | nil =>
      refine .inr ⟨Nat.lt_succ_self 1, fun num' denom h => ?_⟩
      have heq := (ratioNumbers_iff.2 h).symm.trans hr
      cases heq
    | cons denom l =>
      rw [hr, List.length_cons, List.length_cons] at hle
      obtain rfl : l = [] := List.length_eq_zero_iff.1 (by omega)
      exact .inl ⟨num, denom, ratioNumbers_iff.1 hr⟩

theorem Written.unique {num denom num' denom' : Nat} (h : Written str num denom) (h' : Written str num' denom') :
    num = num' ∧ denom = denom' := by
  have heq := (ratioNumbers_iff.2 h).symm.trans (ratioNumbers_iff.2 h')
  simpa using heq

theorem cString_cycleTimeText (ct : Rational) : cString (cycleTimeText ct) = cycleTimeText ct := by
  refine List.takeWhile_eq_self_iff.2 fun c hc => bne_iff_ne.2 fun hnul => ?_
  have hdigit : ∀ {n : Nat}, c ∉ Nat.toDigits 10 n := fun hmem => by
    have hc := isDigit_toDigits _ c hmem
    rw [hnul] at hc
    exact absurd hc (by decide)
  simp only [cycleTimeText, List.mem_append, List.mem_cons, List.not_mem_nil, or_false, hdigit, false_or] at hc
  rcases hc with rfl | rfl <;> exact absurd hnul (by decide)

/-- The text of a cycle time is that of its numbers. -/
theorem written_cycleTimeText (ct : Rational) : Written (cycleTimeText ct) ct.num.toNat ct.denom.toNat := by
  refine ⟨_, ['\n'], ⟨[], Nat.toDigits 10 ct.num.toNat, rfl, List.forall_mem_nil _, Nat.toDigits_ne_nil, isDigit_toDigits _,
    Nat.ofDigitChars_ten_toDigits.symm, ?_⟩, ⟨[], Nat.toDigits 10 ct.denom.toNat, rfl, List.forall_mem_nil _, Nat.toDigits_ne_nil,
    isDigit_toDigits _, Nat.ofDigitChars_ten_toDigits.symm, ?_⟩⟩ <;>
    · intro c hc
      cases hc
      rfl

end Numbers

/-! ## The drivers -/

section Store

variable (d : Driver) (com : Com) (s : EdgxSched) {buf : List Char}

/-- With two numbers the low bits of both are passed to the setter. -/
theorem Driver.store_two {num denom : Nat} (h : Written (cString buf) num denom) :
    d.adminCycleTimeStore com s buf =
      let r := edgxSchedSetCycleTime d.user.variant com s ⟨BitVec.ofNat 32 num, BitVec.ofNat 32 denom⟩
      (if r.1 ≠ 0 then r.1 else buf.length, r.2) := by
  have hstored : sscanfRatio (cString buf) = [BitVec.ofNat 32 num, BitVec.ofNat 32 denom] :=
    congrArg _ (ratioNumbers_iff.2 h)
  cases d with
  | fscr =>
    simp only [Driver.adminCycleTimeStore, Sched.adminCycleTimeStore, hstored]
    rfl
  | fsc =>
    have hv : Driver.fsc.user.variant = Sched.fsc := rfl
    simp only [Driver.adminCycleTimeStore, Fsc.adminCycleTimeStore, hstored, edgxSchedSetCycleTime, hv]
    by_cases hd : BitVec.ofNat 32 denom = 0
    · rw [if_neg (not_not.2 hd), if_pos hd]
      rfl
    · rw [if_pos hd, if_neg hd]
      split <;> rfl

/-- With fewer numbers nothing is stored, and no error is returned. -/
theorem Driver.store_fewer (h : (ratioNumbers (cString buf)).length < 2) :
    0 ≤ (d.adminCycleTimeStore com s buf).1 ∧ (d.adminCycleTimeStore com s buf).2 = s := by
  have hret (n : Nat) : (0 : Int) ≤ if (n : Int) ≠ 0 then (n : Int) else buf.length := by split <;> omega
  have hcases : sscanfRatio (cString buf) = [] ∨ ∃ num, sscanfRatio (cString buf) = [num] := by
    have hlen : (sscanfRatio (cString buf)).length < 2 := by rwa [sscanfRatio, List.length_map]
    rcases Nat.lt_succ_iff_lt_or_eq.1 hlen with h0 | h1
    · exact .inl (List.length_eq_zero_iff.1 (by omega))
    · exact .inr (List.length_eq_one_iff.1 h1)
  cases d with
  | fscr =>
    rcases hcases with hstored | ⟨num, hstored⟩ <;>
      simp only [Driver.adminCycleTimeStore, Sched.adminCycleTimeStore, hstored, and_true]
    · exact hret 0
    · exact hret 1
  | fsc =>
    rcases hcases with hstored | ⟨num, hstored⟩ <;>
      simp only [Driver.adminCycleTimeStore, Fsc.adminCycleTimeStore, hstored, and_true] <;>
      exact Int.natCast_nonneg _

/-- The setter refuses a cycle time or stores it. -/
theorem Driver.setCycleTime_cases (ct : Rational) :
    let r := edgxSchedSetCycleTime d.user.variant com s ct
    (d.Refuses com ct ∧ r.1 < 0 ∧
        r.2 = { s with confChangeErr := s.confChangeErr + if r.1 = -ERANGE then 1 else 0 }) ∨
      ¬ d.Refuses com ct ∧ r = (0, { s with adminTab := { s.adminTab with cycleTime := ct } }) := by
  unfold edgxSchedSetCycleTime Driver.Refuses
  by_cases hd : ct.denom = 0
  · rw [if_pos hd]
    exact .inl ⟨.inl hd, (by decide : -EINVAL < 0), rfl⟩
  · rw [if_neg hd]
    by_cases hmax : (edgxSchedRationalToNsec ct).1 ≤ d.user.variant.maxCycNs com
    · rw [if_pos hmax]
      exact .inr ⟨not_or.2 ⟨hd, Nat.not_lt.2 hmax⟩, rfl⟩
    · rw [if_neg hmax]
      exact .inl ⟨.inr (Nat.lt_of_not_le hmax), (by decide : -ERANGE < 0), rfl⟩

/-- **A text is stored as it is written, or refused**, just when two numbers
are read from it, and these fit or their low bits are refused. -/
theorem cycleTextOk_iff (d : Driver) (com : Com) (s : EdgxSched) (buf : List Char) :
    CycleTextOk d com s buf ↔ ∃ num denom, Written (cString buf) num denom ∧
      (num < 2 ^ 32 ∧ denom < 2 ^ 32 ∨ d.Refuses com ⟨BitVec.ofNat 32 num, BitVec.ofNat 32 denom⟩) := by
  rcases ratioNumbers_cases (cString buf) with ⟨num, denom, hw⟩ | ⟨hfew, hno⟩
  · have hstore := d.store_two com s hw
    have hset := d.setCycleTime_cases com s ⟨BitVec.ofNat 32 num, BitVec.ofNat 32 denom⟩
    rcases hset with ⟨hrefuse, hneg, hstate⟩ | ⟨haccept, hret⟩
    · dsimp only at hstore
      rw [if_pos (Int.ne_of_lt hneg)] at hstore
      refine iff_of_true (.inr ?_) ⟨num, denom, hw, .inr hrefuse⟩
      rw [hstore]
      exact ⟨hneg, hstate⟩
    · rw [hret] at hstore
      dsimp only at hstore
      rw [if_neg (not_not.2 rfl)] at hstore
      rw [CycleTextOk, hstore]
      constructor
      · rintro (⟨ct, hct, heq⟩ | ⟨hneg, -⟩)
        · obtain ⟨hnum, hdenom⟩ := hw.unique hct
          exact ⟨num, denom, hw, .inl ⟨hnum ▸ ct.num.isLt, hdenom ▸ ct.denom.isLt⟩⟩
        · exact absurd hneg (Int.not_lt.2 (Int.natCast_nonneg _))
      · rintro ⟨num', denom', hw', hfit | hrefuse⟩
        · obtain ⟨rfl, rfl⟩ := hw.unique hw'
          refine .inl ⟨⟨BitVec.ofNat 32 num, BitVec.ofNat 32 denom⟩, ?_, rfl⟩
          rw [BitVec.toNat_ofNat, BitVec.toNat_ofNat, Nat.mod_eq_of_lt hfit.1, Nat.mod_eq_of_lt hfit.2]
          exact hw
        · obtain ⟨rfl, rfl⟩ := hw.unique hw'
          exact absurd hrefuse haccept
  · obtain ⟨hpos, -⟩ := d.store_fewer com s hfew
    refine iff_of_false ?_ (fun ⟨num, denom, hw, _⟩ => hno num denom hw)
    rintro (⟨ct, hct, -⟩ | ⟨hneg, -⟩)
    · exact hno _ _ hct
    · exact absurd hneg (Int.not_lt.2 hpos)

/-- Text without a number is taken for a success by one copy, a single number
for a count of one byte by both, and a number of 33 bits for its low bits. -/
theorem not_cycleTextOk :
    (¬ CycleTextOk .fscr someCom (init 0xff) ['a', 'b', '\n'] ∧
      (adminCycleTimeStore someCom (init 0xff) ['a', 'b', '\n']).1 = 3) ∧
    (¬ CycleTextOk .fsc someCom (init 0xff) ['5', '\n'] ∧
      (Fsc.adminCycleTimeStore someCom (init 0xff) ['5', '\n']).1 = 1) ∧
    ¬ CycleTextOk .fscr someCom (init 0xff) ['1', '/', '4', '2', '9', '4', '9', '6', '8', '2', '9', '6'] := by
  refine ⟨⟨?_, rfl⟩, ⟨?_, rfl⟩, ?_⟩
  · rintro (⟨ct, hw, -⟩ | ⟨hneg, -⟩)
    · have hnone : ratioNumbers (cString ['a', 'b', '\n']) = [] := rfl
      exact nomatch hnone.symm.trans (ratioNumbers_iff.2 hw)
    · exact absurd hneg (by decide)
  · rintro (⟨ct, hw, -⟩ | ⟨hneg, -⟩)
    · have hone : ratioNumbers (cString ['5', '\n']) = [5] := rfl
      exact absurd (congrArg List.length (hone.symm.trans (ratioNumbers_iff.2 hw))) (Nat.ne_of_lt Nat.one_lt_two)
    · exact absurd hneg (by decide)
  · rintro (⟨ct, hw, -⟩ | ⟨hneg, -⟩)
    · have htwo : ratioNumbers (cString ['1', '/', '4', '2', '9', '4', '9', '6', '8', '2', '9', '6']) =
          [1, 4294968296] := rfl
      have hdenom := htwo.symm.trans (ratioNumbers_iff.2 hw)
      simp only [List.cons.injEq, and_true] at hdenom
      have hlt := ct.denom.isLt
      omega
    · exact absurd hneg (by decide)

/-- What is shown is stored again without a change. -/
theorem store_show (hs : ¬ d.Refuses com s.adminTab.cycleTime) :
    d.adminCycleTimeStore com s (adminCycleTimeShow s) = (((adminCycleTimeShow s).length : Int), s) := by
  have hw : Written (cString (adminCycleTimeShow s)) s.adminTab.cycleTime.num.toNat
      s.adminTab.cycleTime.denom.toNat := by
    rw [adminCycleTimeShow, cString_cycleTimeText]
    exact written_cycleTimeText _
  have hstore := d.store_two com s hw
  rw [BitVec.ofNat_toNat, BitVec.ofNat_toNat, BitVec.setWidth_eq, BitVec.setWidth_eq] at hstore
  rcases d.setCycleTime_cases com s s.adminTab.cycleTime with ⟨hrefuse, -⟩ | ⟨-, hret⟩
  · exact absurd hrefuse hs
  · rw [hret] at hstore
    exact hstore

end Store

end TsnSwitch.Sched
