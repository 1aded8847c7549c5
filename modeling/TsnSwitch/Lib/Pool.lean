/-
Resources that are given out under fresh numbers, each to be given back once, and
variables that hold them.

What is not given back stays held, and giving back what is not held is noted. A
variable keeps its number when the resource is given back, so that to give it
back once more is a misuse (`Holder.not_clean_release`).
-/
import Mathlib.Tactic

namespace TsnSwitch.Lib

/-- What is given out and not yet given back. -/
structure Pool where
  next : ℕ
  held : List ℕ
  misused : Bool
  fresh : ∀ r ∈ held, r < next

namespace Pool

def empty : Pool := ⟨0, [], false, fun _ h => absurd h List.not_mem_nil⟩

theorem fresh_take (p : Pool) : ∀ r ∈ p.next :: p.held, r < p.next + 1 := by
  intro r hr
  rcases List.mem_cons.1 hr with rfl | hr
  · exact Nat.lt_succ_self _
  · exact (p.fresh r hr).trans (Nat.lt_succ_self _)

theorem fresh_erase (p : Pool) (s : ℕ) : ∀ r ∈ p.held.erase s, r < p.next :=
  fun r hr => p.fresh r (List.mem_of_mem_erase hr)

/-- Gives out `p.next`. -/
def take (p : Pool) : Pool := ⟨p.next + 1, p.next :: p.held, p.misused, p.fresh_take⟩

def give (p : Pool) (r : ℕ) : Pool :=
  if r ∈ p.held then ⟨p.next, p.held.erase r, p.misused, p.fresh_erase r⟩ else { p with misused := true }

/-- All was given back, and nothing twice. -/
def Clean (p : Pool) : Prop := p.held = [] ∧ p.misused = false

theorem clean_empty : empty.Clean := ⟨rfl, rfl⟩

theorem held_take_give (p : Pool) : (p.take.give p.next).held = p.held := by
  rw [give, take, if_pos List.mem_cons_self]
  exact List.erase_cons_head ..

theorem misused_take_give (p : Pool) : (p.take.give p.next).misused = p.misused := by
  rw [give, take, if_pos List.mem_cons_self]

theorem not_mem_held_next (p : Pool) : p.next ∉ p.held := fun h => lt_irrefl _ (p.fresh _ h)

theorem not_clean_take (p : Pool) : ¬p.take.Clean := fun h => List.cons_ne_nil _ _ h.1

theorem not_clean_give {p : Pool} {r : ℕ} (h : r ∉ p.held) : ¬(p.give r).Clean := by
  rw [give, if_neg h]
  exact fun hclean => Bool.false_ne_true hclean.2.symm

end Pool

/-- A variable for a resource, with all that was given out to it. -/
structure Holder where
  pool : Pool
  ptr : Option ℕ

namespace Holder

def start : Holder := ⟨.empty, none⟩

def acquire (h : Holder) : Holder := ⟨h.pool.take, some h.pool.next⟩

/-- To release NULL does nothing. -/
def release (h : Holder) : Holder :=
  match h.ptr with
  | none => h
  | some r => { h with pool := h.pool.give r }

def clear (h : Holder) : Holder := { h with ptr := none }

def Clean (h : Holder) : Prop := h.pool.Clean

/-- What the variable names is not held. -/
def Released (h : Holder) : Prop := ∀ r ∈ h.ptr, r ∉ h.pool.held

theorem clean_start : start.Clean := Pool.clean_empty

theorem released_start : start.Released := fun _ h => nomatch h

@[simp] theorem clean_clear (h : Holder) : h.clear.Clean ↔ h.Clean := Iff.rfl

@[simp] theorem not_clean_acquire (h : Holder) : ¬h.acquire.Clean := h.pool.not_clean_take

@[simp] theorem clean_acquire_release (h : Holder) : h.acquire.release.Clean ↔ h.Clean := by
  show (h.pool.take.give h.pool.next).Clean ↔ h.pool.Clean
  rw [Pool.Clean, Pool.held_take_give, Pool.misused_take_give, Pool.Clean]

theorem released_acquire_release (h : Holder) : h.acquire.release.Released := by
  rintro r ⟨⟩
  show h.pool.next ∉ (h.pool.take.give h.pool.next).held
  rw [Pool.held_take_give]
  exact h.pool.not_mem_held_next

/-- NULL may be released at any time. -/
theorem release_of_null {h : Holder} (hnull : h.ptr = none) : h.release = h := by rw [release, hnull]

@[simp] theorem ptr_release (h : Holder) : h.release.ptr = h.ptr := by
  cases hptr : h.ptr with
  | none => rw [release_of_null hptr, hptr]
  | some r => simp only [release, hptr]

theorem Released.release {h : Holder} (hreleased : h.Released) : h.release.Released := by
  cases hptr : h.ptr with
  | none => rwa [release_of_null hptr]
  | some r =>
    intro r' hr'
    rw [ptr_release, hptr] at hr'
    obtain rfl := Option.some.inj hr'
    have hnot := hreleased r hptr
    simp only [Holder.release, hptr, Pool.give, if_neg hnot]
    exact hnot

/-- **What is not held may not be released.** -/
theorem not_clean_release {h : Holder} (hreleased : h.Released) (hptr : h.ptr ≠ none) : ¬h.release.Clean := by
  obtain ⟨r, hr⟩ := Option.ne_none_iff_exists'.1 hptr
  have hrelease : h.release = { h with pool := h.pool.give r } := by rw [release, hr]
  rw [hrelease]
  exact Pool.not_clean_give (hreleased r hr)

@[simp] theorem not_clean_release_twice (h : Holder) : ¬h.acquire.release.release.Clean :=
  not_clean_release h.released_acquire_release (Option.some_ne_none _)

end Holder

end TsnSwitch.Lib
