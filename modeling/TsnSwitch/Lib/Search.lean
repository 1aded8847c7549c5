/-
Searching a text the way C programs do: the first place where a pattern
occurs, and the word that follows a place.
-/
import Mathlib.Tactic

namespace TsnSwitch.Lib

/-- `strstr`: the text from the first place where the pattern occurs. -/
def strstr (pat : List Char) : List Char → Option (List Char)
  | [] => if pat = [] then some [] else none
  | c :: s => if pat <+: c :: s then some (c :: s) else strstr pat s

def isBlank (c : Char) : Bool := c = ' ' || c = '\t'

def endsWord (c : Char) : Bool := isBlank c || c = '\n'

/-- The text after its leading blanks, up to the next blank. -/
def nextWord (s : List Char) : List Char := (s.dropWhile isBlank).takeWhile fun c => !endsWord c

/-- There are no blanks to pass before a word. -/
theorem dropWhile_isBlank {word : List Char} (hne : word ≠ []) (hword : ∀ c ∈ word, endsWord c = false)
    (tail : List Char) : (word ++ tail).dropWhile isBlank = word ++ tail := by
  cases word with
  | nil => exact absurd rfl hne
  | cons c word =>
    have hc := hword c (List.mem_cons_self ..)
    rw [endsWord, Bool.or_eq_false_iff] at hc
    rw [List.cons_append, List.dropWhile_cons_of_neg (by rw [hc.1]; decide)]

/-- The word behind blanks, with a blank behind it or nothing. -/
theorem nextWord_between {gap word tail : List Char} (hgap : ∀ c ∈ gap, isBlank c = true) (hne : word ≠ [])
    (hword : ∀ c ∈ word, endsWord c = false) (htail : ∀ c, tail.head? = some c → isBlank c = true) :
    nextWord (gap ++ (word ++ tail)) = word := by
  have hlast : tail.takeWhile (fun c => !endsWord c) = [] := by
    cases tail with
    | nil => rfl
    | cons c tail => rw [List.takeWhile_cons_of_neg (by simp [endsWord, htail c rfl])]
  rw [nextWord, List.dropWhile_append_of_pos hgap, dropWhile_isBlank hne hword,
    List.takeWhile_append_of_pos fun c hc => by rw [hword c hc]; rfl, hlast, List.append_nil]

/-- `strstr` finds a pattern where there is one. -/
theorem strstr_isSome {pat s : List Char} : (strstr pat s).isSome ↔ pat <:+: s := by
  induction s with
  | nil => simp only [strstr, List.infix_nil]; split <;> simp_all
  | cons c s ih =>
    rw [strstr, List.infix_cons_iff]
    by_cases h : pat <+: c :: s
    · rw [if_pos h]; exact iff_of_true rfl (.inl h)
    · rw [if_neg h, ih]; exact ⟨.inr, fun h' => h'.resolve_left h⟩

theorem strstr_eq_none {pat s : List Char} : strstr pat s = none ↔ ¬ pat <:+: s := by
  rw [← strstr_isSome, Option.not_isSome_iff_eq_none]

theorem strstr_nil (line : List Char) : strstr [] line = some line := by
  cases line <;> simp [strstr]

/-- What precedes the place found does not complete the pattern. -/
theorem strstr_append {pat s rest : List Char} (h : ∀ t, t <:+ s → t ≠ [] → ¬ pat <+: t ++ (pat ++ rest)) :
    strstr pat (s ++ (pat ++ rest)) = some (pat ++ rest) := by
  induction s with
  | nil =>
    rw [List.nil_append]
    cases hp : pat ++ rest with
    | nil => rw [strstr, if_pos (List.append_eq_nil_iff.1 hp).1]
    | cons c s => rw [strstr, ← hp, if_pos (List.prefix_append ..)]
  | cons c s ih =>
    have hc : ¬ pat <+: c :: (s ++ (pat ++ rest)) := by
      rw [← List.cons_append]
      exact h (c :: s) (List.suffix_refl _) (List.cons_ne_nil _ _)
    rw [List.cons_append, strstr, if_neg hc]
    exact ih fun t ht => h t (ht.trans (List.suffix_cons ..))

/-- An item of a list occurs in the text of the list. -/
theorem infix_intercalate {sep item : List Char} {items : List (List Char)} (h : item ∈ items) :
    item <:+: sep.intercalate items := by
  induction items with
  | nil => cases h
  | cons x items ih =>
    cases items with
    | nil => rw [List.mem_singleton.1 h, List.intercalate_singleton]
    | cons y items =>
      rw [List.intercalate_cons_cons]
      rcases List.mem_cons.1 h with rfl | h
      · exact ⟨[], sep ++ sep.intercalate (y :: items), by simp⟩
      · exact (ih h).trans (List.suffix_append ..).isInfix

end TsnSwitch.Lib
