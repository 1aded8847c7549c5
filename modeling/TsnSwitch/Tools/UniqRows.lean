/-
The distinct rows of an array (`array_uniq_elements`) and their number
(`array_count_elements`).

The rows are those before the first empty one. They are compared in all columns,
but each that is kept loses the character in the last one, where the NUL goes:
two rows that differ only there stay, and are equal then.
-/
import TsnSwitch.Tools.WholeSteps

namespace TsnSwitch.Tools

open Lib

/-! ## What is asked -/

/-- An array as the parsers leave it. A word that is as long as a row fills it, and
has no NUL then. -/
structure ResultMatrix where
  sh : Shape
  bytes : sh.rowNum * sh.colNum < 2 ^ 32
  rows : Matrix
  length_rows : rows.length = sh.rowNum
  inColumns : ∀ row ∈ rows, row.length ≤ sh.colNum

namespace ResultMatrix

variable (m : ResultMatrix)

def uniq : Except Overrun (Status × Matrix) := arrayUniqElements m.sh m.rows

/-- The number of distinct rows. -/
def card : Nat := (visible m.rows).toFinset.card

end ResultMatrix

/-- The distinct rows are left in the order of their first places, with empty
rows behind them; to do it again changes nothing; and their number is what is counted then. -/
structure UniqOk (m : ResultMatrix) : Prop where
  once : ∃ out, FirstOccurrences (visible m.rows) out ∧ m.uniq = .ok (BASE_PARSING_SUCCEEDED, filled m.sh.rowNum out)
  twice : (m.uniq.bind fun out => arrayUniqElements m.sh out.2) = m.uniq
  count : (m.uniq.bind fun out => arrayCountElements m.sh out.2) =
    .ok (BASE_PARSING_SUCCEEDED, filled m.sh.rowNum [Nat.toDigits 10 m.card])

/-- The copy has room, and so have the columns, for each row with its NUL and
for the digits of the number. -/
structure UniqFits (m : ResultMatrix) : Prop where
  copied : m.sh.Copied
  terminated : ∀ row ∈ visible m.rows, row.length < m.sh.colNum
  columns : 1 < m.sh.colNum
  digits : m.card < 10 ^ (m.sh.colNum - 1)

/-! ## One call -/

section

variable {m : ResultMatrix}

theorem card_eq (m : ResultMatrix) : m.card = (visible m.rows).eraseDups.length := by
  rw [ResultMatrix.card, ← List.toFinset_card_of_nodup (nodup_eraseDups _)]
  congr 1
  ext row
  simp

theorem uniq_eq (hcopied : m.sh.Copied) : m.uniq = .ok (BASE_PARSING_SUCCEEDED,
    filled m.sh.rowNum ((visible m.rows).eraseDups.map (·.take (m.sh.colNum - 1)))) :=
  arrayUniqElements_eq hcopied m.rows

theorem uniq_copied {p : Status × Matrix} (h : m.uniq = .ok p) : m.sh.Copied := by
  rw [ResultMatrix.uniq, arrayUniqElements] at h
  split at h
  · cases h
  · exact Nat.not_lt.1 ‹_›

/-- Rows that are cut off are those that were there when none of them fills its columns. -/
theorem cut_iff {rows : Matrix} {n : Nat} :
    rows.eraseDups.map (·.take (n - 1)) = rows.eraseDups ↔ ∀ row ∈ rows, row.length ≤ n - 1 := by
  constructor
  · intro h row hrow
    have hself : row.take (n - 1) = row :=
      List.map_inj_left.1 (h.trans (List.map_id _).symm) row (List.mem_eraseDups.2 hrow)
    rw [← hself]
    exact List.length_take_le _ _
  · intro h
    exact map_take_of_short fun row hrow => h row (List.mem_eraseDups.1 hrow)

/-- The rows that are left are those of the array that has them. -/
theorem visible_eraseDups (rows : Matrix) (n : Nat) : visible (filled n (visible rows).eraseDups) = (visible rows).eraseDups :=
  takeWhile_filled fun _ ht => (mem_visible (List.mem_eraseDups.1 ht)).2

theorem filled_inj {n : Nat} {texts texts' : Matrix} (hlen : texts.length = texts'.length)
    (h : filled n texts = filled n texts') : texts = texts' :=
  (List.append_inj h hlen).1

theorem digits_iff {n k : Nat} : (Nat.toDigits 10 n).take (k - 1) = Nat.toDigits 10 n ↔ 1 < k ∧ n < 10 ^ (k - 1) := by
  rw [List.take_eq_self_iff]
  have hpos : 0 < (Nat.toDigits 10 n).length := Nat.length_toDigits_pos
  by_cases hk : 1 < k
  · rw [Nat.length_toDigits_le_iff (by decide) (by omega)]
    exact (and_iff_right hk).symm
  · refine iff_of_false ?_ fun h => hk h.1
    omega

theorem count_eq (hcopied : m.sh.Copied) :
    arrayCountElements m.sh (filled m.sh.rowNum (visible m.rows).eraseDups) = .ok (BASE_PARSING_SUCCEEDED,
      filled m.sh.rowNum [(Nat.toDigits 10 m.card).take (m.sh.colNum - 1)]) := by
  have hvis : ((filled m.sh.rowNum (visible m.rows).eraseDups).takeWhile (· ≠ [])).length = m.card := by
    rw [card_eq]
    exact congrArg List.length (visible_eraseDups m.rows _)
  rw [arrayCountElements, copied, if_neg (Nat.not_lt.2 hcopied), hvis]
  rfl

theorem UniqOk.fits (h : UniqOk m) : UniqFits m := by
  obtain ⟨out, hout, honce⟩ := h.once
  obtain rfl := firstOccurrences_iff.1 hout
  have hcopied := uniq_copied honce
  have hcut : filled m.sh.rowNum ((visible m.rows).eraseDups.map (·.take (m.sh.colNum - 1))) =
      filled m.sh.rowNum (visible m.rows).eraseDups := by
    rw [uniq_eq hcopied, Except.ok.injEq, Prod.mk.injEq] at honce
    exact honce.2
  have hrows := cut_iff.1 (filled_inj (List.length_map _) hcut)
  have hcount := h.count
  rw [honce, Except.bind, count_eq hcopied, Except.ok.injEq, Prod.mk.injEq] at hcount
  have hdigits : [(Nat.toDigits 10 m.card).take (m.sh.colNum - 1)] = [Nat.toDigits 10 m.card] := filled_inj rfl hcount.2
  obtain ⟨hcol, hlt⟩ := digits_iff.1 (List.singleton_inj.1 hdigits)
  refine ⟨hcopied, fun row hrow => ?_, hcol, hlt⟩
  have hrow := hrows row hrow
  omega

theorem UniqFits.ok (h : UniqFits m) : UniqOk m := by
  have hrows : ∀ row ∈ visible m.rows, row.length ≤ m.sh.colNum - 1 := fun row hrow => by
    have hrow := h.terminated row hrow
    omega
  have honce : m.uniq = .ok (BASE_PARSING_SUCCEEDED, filled m.sh.rowNum (visible m.rows).eraseDups) := by
    rw [uniq_eq h.copied, cut_iff.2 hrows]
  refine ⟨⟨_, firstOccurrences_eraseDups _, honce⟩, ?_, ?_⟩
  · -- the rows are distinct already
    have hsame : (visible m.rows).eraseDups.eraseDups = (visible m.rows).eraseDups :=
      eraseDups_of_nodup (nodup_eraseDups _)
    rw [honce, Except.bind, arrayUniqElements_eq h.copied]
    change Except.ok (_, filled _ ((visible (filled _ _)).eraseDups.map _)) = _
    rw [visible_eraseDups, hsame, cut_iff.2 hrows]
  · rw [honce, Except.bind, count_eq h.copied, digits_iff.2 ⟨h.columns, h.digits⟩]

end

/-- **The distinct rows are right just where they fit.** -/
theorem uniqOk_iff (m : ResultMatrix) : UniqOk m ↔ UniqFits m := ⟨UniqOk.fits, UniqFits.ok⟩

/-- The VIDs `100-120` and `100-205` in rows of five columns. -/
def cutRanges : ResultMatrix where
  sh := ⟨3, 5, by decide, by decide⟩
  bytes := by decide
  rows := ["100-1".toList, "100-2".toList, []]
  length_rows := rfl
  inColumns := by decide

/-- Both rows are kept, and are equal then. -/
theorem not_uniqOk_lastColumn : ¬ UniqOk cutRanges := fun h =>
  absurd (h.fits.terminated "100-1".toList (by decide)) (by decide)

end TsnSwitch.Tools
