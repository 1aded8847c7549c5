/-
Searching rows up to one that ends them.

The rows are what memory holds from the first of them on. Whoever declares
them without a row that ends the search lets it go on into what lies behind
them (`searchFrom_append`), and where nothing ends it there it leaves the
memory.
-/
import Mathlib.Tactic

namespace TsnSwitch.Lib

/-- How a search ends: at a row it looks for, at one that ends it, or where
there is no row. -/
inductive SearchEnd (ρ : Type*) where
  | hit (row : ρ) (i : Nat)
  | ended (i : Nat)
  | left
  deriving DecidableEq

variable {ρ : Type*}

/-- The search from position `i` on. -/
def searchFrom (stop hit : ρ → Bool) : Nat → List ρ → SearchEnd ρ
  | _, [] => .left
  | i, row :: rows =>
    if stop row then .ended i
    else if hit row then .hit row i
    else searchFrom stop hit (i + 1) rows

variable {stop hit : ρ → Bool}

/-- What neither ends the search nor is looked for is passed. -/
theorem searchFrom_append {pre : List ρ} (hpre : ∀ row ∈ pre, stop row = false ∧ hit row = false) (i : Nat)
    (rows : List ρ) : searchFrom stop hit i (pre ++ rows) = searchFrom stop hit (i + pre.length) rows := by
  induction pre generalizing i with
  | nil => rfl
  | cons row pre ih =>
    obtain ⟨hstop, hhit⟩ := hpre row (List.mem_cons_self ..)
    rw [List.cons_append, searchFrom, hstop, hhit, if_neg Bool.false_ne_true, if_neg Bool.false_ne_true,
      ih (fun r hr => hpre r (List.mem_cons_of_mem _ hr)), List.length_cons]
    congr 1
    omega

theorem searchFrom_hit {pre : List ρ} (hpre : ∀ row ∈ pre, stop row = false ∧ hit row = false) {row : ρ}
    (hstop : stop row = false) (hhit : hit row = true) (i : Nat) (post : List ρ) :
    searchFrom stop hit i (pre ++ row :: post) = .hit row (i + pre.length) := by
  rw [searchFrom_append hpre, searchFrom, hstop, if_neg Bool.false_ne_true, if_pos hhit]

theorem searchFrom_ended {pre : List ρ} (hpre : ∀ row ∈ pre, stop row = false ∧ hit row = false) {row : ρ}
    (hstop : stop row = true) (i : Nat) (post : List ρ) :
    searchFrom stop hit i (pre ++ row :: post) = .ended (i + pre.length) := by
  rw [searchFrom_append hpre, searchFrom, if_pos hstop]

/-- A search for what is not there ends within the rows that end it. -/
theorem searchFrom_of_not_hit {rows : List ρ} (hhit : ∀ row ∈ rows, hit row = false)
    (hstop : ∃ row ∈ rows, stop row = true) (i : Nat) (behind : List ρ) :
    ∃ n < rows.length, searchFrom stop hit i (rows ++ behind) = .ended (i + n) := by
  obtain ⟨row, hrow⟩ := Option.isSome_iff_exists.1 (List.find?_isSome.2 hstop)
  obtain ⟨hend, pre, post, rfl, hpre⟩ := List.find?_eq_some_iff_append.1 hrow
  refine ⟨pre.length, by simp, ?_⟩
  rw [List.append_assoc, List.cons_append]
  exact searchFrom_ended
    (fun r hr => ⟨Bool.not_eq_true' _ ▸ hpre r hr, hhit r (List.mem_append_left _ hr)⟩) hend i _

/-- The row a search ends at is none before the first one looked at. -/
theorem le_of_searchFrom {rows : List ρ} {i j : Nat}
    (h : (∃ row, searchFrom stop hit i rows = .hit row j) ∨ searchFrom stop hit i rows = .ended j) : i ≤ j := by
  induction rows generalizing i with
  | nil => simp [searchFrom] at h
  | cons row rows ih =>
    rw [searchFrom] at h
    by_cases hstop : stop row = true
    · simp only [if_pos hstop, reduceCtorEq, exists_false, false_or, SearchEnd.ended.injEq] at h
      exact Nat.le_of_eq h
    rw [if_neg hstop] at h
    by_cases hhit : hit row = true
    · simp only [if_pos hhit, SearchEnd.hit.injEq, reduceCtorEq, or_false] at h
      obtain ⟨-, -, h⟩ := h
      exact Nat.le_of_eq h
    · rw [if_neg hhit] at h
      exact Nat.le_of_succ_le (ih h)

end TsnSwitch.Lib
