/-
The rows of an array before and after the first one that matches
(`array_take_values_before_match_case`, `array_take_values_after_match_case`).

Behind the match each turn copies the next row before it asks whether there is one.
In a full array the last turn copies what is behind the rows on the stack.
-/
import TsnSwitch.Tools.WholeSteps

namespace TsnSwitch.Tools

open Lib

/-! ## What is asked -/

/-- An array with a text that occurs in a row. -/
structure MatchedArray where
  sh : Target
  rows : Matrix
  length : rows.length = sh.rowNum
  terminated : ∀ row ∈ rows, row.length < sh.colNum
  matchCase : List Char
  occurs : ∃ t ∈ visible rows, (strstr matchCase t).isSome = true

/-- The rows kept before the first match, that row and the rows kept after it are the rows
of the array. -/
def SplitOk (m : MatchedArray) : Prop :=
  ∃ before row after, visible m.rows = before ++ row :: after ∧
    (∀ t ∈ before, strstr m.matchCase t = none) ∧ (strstr m.matchCase row).isSome = true ∧
    arrayTakeValuesBeforeMatchCase m.matchCase m.sh.toShape m.rows =
      .ok (BASE_PARSING_SUCCEEDED, filled m.sh.rowNum before) ∧
    arrayTakeValuesAfterMatchCase m.matchCase m.sh.toShape m.rows =
      .ok (BASE_PARSING_SUCCEEDED, filled m.sh.rowNum after)

/-! ## The loops -/

section Loops

variable {sh : Shape} {matchCase row : List Char} {before : Matrix}

/-- The rows up to the match are copied as they are. -/
theorem takeValuesBeforeLoop_append (hrows : ∀ t ∈ before ++ [row], t ≠ [] ∧ t.length < sh.colNum)
    (hbefore : ∀ t ∈ before, strstr matchCase t = none) (hrow : (strstr matchCase row).isSome = true) (rest : Matrix) :
    takeValuesBeforeLoop matchCase sh (before ++ row :: rest) = .ok before := by
  induction before with
  | nil =>
    obtain ⟨hne, hlen⟩ := hrows row (by simp)
    rw [List.nil_append, takeValuesBeforeLoop, if_neg hne, if_neg (by omega), if_pos hrow]
  | cons t before ih =>
    obtain ⟨hne, hlen⟩ := hrows t (by simp)
    rw [List.forall_mem_cons] at hbefore
    rw [List.cons_append, takeValuesBeforeLoop, if_neg hne, if_neg (by omega), hbefore.1,
      ih (fun x hx => hrows x (List.mem_cons_of_mem _ hx)) hbefore.2, List.take_of_length_le (by omega)]
    rfl

/-- The flag is set at the match. -/
theorem takeValuesAfterLoop_append (hrows : ∀ t ∈ before ++ [row], t ≠ [] ∧ t.length < sh.colNum)
    (hbefore : ∀ t ∈ before, strstr matchCase t = none) (hrow : (strstr matchCase row).isSome = true) (rest : Matrix) :
    takeValuesAfterLoop matchCase sh false (before ++ row :: rest) = takeValuesAfterLoop matchCase sh true (row :: rest) := by
  induction before with
  | nil =>
    rw [List.nil_append, takeValuesAfterLoop, takeValuesAfterLoop, hrow]
    rfl
  | cons t before ih =>
    obtain ⟨hne, hlen⟩ := hrows t (by simp)
    rw [List.forall_mem_cons] at hbefore
    rw [List.cons_append, takeValuesAfterLoop, if_neg hne, if_neg (by omega), hbefore.1]
    exact ih (fun x hx => hrows x (List.mem_cons_of_mem _ hx)) hbefore.2

end Loops

theorem filled_concat_nil {n : Nat} {texts : List (List Char)} (h : texts.length < n) :
    filled n (texts ++ [[]]) = filled n texts := by
  rw [filled, filled, List.append_assoc]
  congr 1
  rw [← List.replicate_one, List.replicate_append_replicate, List.length_append, List.length_replicate]
  congr 1
  omega

/-! ## Arrays -/

section Arrays

variable (m : MatchedArray)

/-- The array at its first match. -/
theorem MatchedArray.split : ∃ before row after, visible m.rows = before ++ row :: after ∧
    (∀ t ∈ before, strstr m.matchCase t = none) ∧ (strstr m.matchCase row).isSome = true := by
  obtain ⟨t, ht, hm⟩ := m.occurs
  have hfind : ((visible m.rows).find? fun t => (strstr m.matchCase t).isSome).isSome = true :=
    List.find?_isSome.2 ⟨t, ht, hm⟩
  obtain ⟨row, hrow⟩ := Option.isSome_iff_exists.1 hfind
  obtain ⟨hmatch, before, after, hsplit, hbefore⟩ := List.find?_eq_some_iff_append.1 hrow
  exact ⟨before, row, after, hsplit, fun t ht => by simpa using hbefore t ht, hmatch⟩

/-- The row behind the last one is empty, or not one of the array. -/
theorem takeValuesAfterLoop_rest {sh : Shape} {matchCase row : List Char} {after rest : Matrix}
    (hne : ∀ t ∈ row :: after, t ≠ []) (hrest : ∀ t, rest.head? = some t → t = [])
    (hterm : ∀ t ∈ row :: (after ++ rest), t.length < sh.colNum) :
    takeValuesAfterLoop matchCase sh true (row :: (after ++ rest)) =
      if rest = [] then .error .read else .ok (after ++ [[]]) := by
  have hvis : visible (row :: (after ++ rest)) = row :: after := by
    rw [visible, ← List.cons_append, List.takeWhile_append_of_pos fun t ht => by simpa using hne t ht]
    cases rest with
    | nil => simp
    | cons t rest => simp [hrest t rfl]
  rw [takeValuesAfterLoop_flag matchCase hterm, hvis]
  cases rest with
  | nil => simp
  | cons t rest => simp [List.take_append, hrest t rfl]

/-- **The array is split at the match** just when it has an empty row. -/
theorem splitOk_iff : SplitOk m ↔ (visible m.rows).length < m.sh.rowNum := by
  have hcopied : m.sh.toShape.Copied := m.sh.bytes
  obtain ⟨before, row, after, hsplit, hbefore, hrow⟩ := m.split
  have hne : ∀ t ∈ before ++ row :: after, t ≠ [] := fun t ht => (mem_visible (hsplit ▸ ht)).2
  have hfirst : ∀ t ∈ before ++ [row], t ≠ [] ∧ t.length < m.sh.colNum := fun t ht => by
    have ht' : t ∈ before ++ row :: after := by simp at ht ⊢; tauto
    exact ⟨hne t ht', m.terminated t (mem_visible (hsplit ▸ ht')).1⟩
  -- what is behind the visible rows
  obtain ⟨rest, hbehind⟩ : ∃ rest, m.rows.dropWhile (· ≠ []) = rest := ⟨_, rfl⟩
  have hrest : ∀ t, rest.head? = some t → t = [] := fun t ht => by
    have hnot := List.head?_dropWhile_not (fun t : List Char => decide (t ≠ [])) m.rows
    rw [hbehind, ht] at hnot
    simpa using hnot
  have hrows : m.rows = before ++ row :: (after ++ rest) := by
    have happend : before ++ row :: (after ++ rest) = before ++ row :: after ++ rest := by simp
    rw [happend, ← hsplit, ← hbehind]
    exact (List.takeWhile_append_dropWhile ..).symm
  have hroom : (visible m.rows).length < m.sh.rowNum ↔ rest ≠ [] := by
    have hlen := congrArg List.length (List.takeWhile_append_dropWhile (p := (· ≠ [])) (l := m.rows))
    rw [List.length_append, m.length, hbehind] at hlen
    rw [← List.length_pos_iff, visible]
    omega
  have hafter : arrayTakeValuesAfterMatchCase m.matchCase m.sh.toShape m.rows =
      copied m.sh.toShape (if rest = [] then .error .read else .ok (after ++ [[]])) := by
    rw [arrayTakeValuesAfterMatchCase]
    conv_lhs => rw [hrows]
    rw [takeValuesAfterLoop_append hfirst hbefore hrow,
      takeValuesAfterLoop_rest (fun t ht => hne t (List.mem_append_right _ ht)) hrest]
    exact fun t ht => m.terminated t (by rw [hrows]; exact List.mem_append_right _ ht)
  rw [copied, if_neg (Nat.not_lt.2 hcopied)] at hafter
  by_cases hnil : rest = []
  · refine iff_of_false (fun hok => ?_) fun h => hroom.1 h hnil
    obtain ⟨_, _, _, _, _, _, _, h⟩ := hok
    rw [hafter, if_pos hnil] at h
    cases h
  · have hlt := hroom.2 hnil
    refine iff_of_true ⟨before, row, after, hsplit, hbefore, hrow, ?_, ?_⟩ hlt
    · rw [arrayTakeValuesBeforeMatchCase, hrows, takeValuesBeforeLoop_append hfirst hbefore hrow, copied,
        if_neg (Nat.not_lt.2 hcopied)]
      rfl
    · have hlen := congrArg List.length hsplit
      rw [List.length_append, List.length_cons] at hlen
      rw [hafter, if_neg hnil]
      exact congrArg (fun rows => Except.ok (BASE_PARSING_SUCCEEDED, rows)) (filled_concat_nil (by omega))

/-- Two rows, both in use. -/
def fullArray : MatchedArray where
  sh := { shortShape with columns := by decide, bytes := by decide }
  rows := [['a'], ['b']]
  length := rfl
  terminated := by decide
  matchCase := ['a']
  occurs := by decide

theorem not_splitOk_full : ¬ SplitOk fullArray ∧
    arrayTakeValuesAfterMatchCase ['a'] fullArray.sh.toShape fullArray.rows = .error .read := by
  have hread : arrayTakeValuesAfterMatchCase ['a'] fullArray.sh.toShape fullArray.rows = .error .read := by decide
  refine ⟨fun hok => ?_, hread⟩
  obtain ⟨_, _, _, _, _, _, _, h⟩ := hok
  have h' := hread.symm.trans h
  cases h'

end Arrays

end TsnSwitch.Tools
