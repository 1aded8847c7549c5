/-
Lists that are read in windows. A window has in slot `i` what a function says
of index `first + i`. Consecutive chunks of a window are windows, and together
they are the window (`flatMap_chunks`).
-/
import Mathlib.Tactic

namespace TsnSwitch.Lib

variable {α β : Type*}

/-- The `count` values of `f` from `first` on. -/
def window (f : Nat → α) (first count : Nat) : List α := (List.range count).map fun i => f (first + i)

section Window

variable {f g : Nat → α} {first : Nat}

@[simp] theorem window_zero : window f first 0 = [] := rfl

@[simp] theorem window_length (count : Nat) : (window f first count).length = count := by simp [window]

theorem window_succ (count : Nat) : window f first (count + 1) = f first :: window f (first + 1) count := by
  simp [window, List.range_succ_eq_map, Nat.add_comm, Nat.add_left_comm]

theorem window_getElem? {count i : Nat} (h : i < count) : (window f first count)[i]? = some (f (first + i)) := by
  simp [window, h]

theorem window_append (m n : Nat) : window f first (m + n) = window f first m ++ window f (first + m) n := by
  simp [window, List.range_add, Nat.add_assoc]

theorem window_congr {count : Nat} (h : ∀ i < count, f (first + i) = g (first + i)) :
    window f first count = window g first count :=
  List.map_congr_left fun i hi => h i (List.mem_range.1 hi)

/-- A list is a window by its slots. -/
theorem eq_window_iff {l : List α} {count : Nat} :
    l = window f first count ↔ l.length = count ∧ ∀ i < count, l[i]? = some (f (first + i)) := by
  constructor
  · rintro rfl
    exact ⟨window_length count, fun i hi => window_getElem? hi⟩
  · intro h
    refine List.ext_getElem? fun i => ?_
    by_cases hi : i < count
    · rw [h.2 i hi, window_getElem? hi]
    · rw [List.getElem?_eq_none (by omega), List.getElem?_eq_none (by rw [window_length]; omega)]

/-- Any list is a window of its slots. -/
theorem self_window (d : α) (first : Nat) (l : List α) : l = window (fun i => l[i - first]?.getD d) first l.length := by
  refine eq_window_iff.2 ⟨rfl, fun i hi => ?_⟩
  rw [Nat.add_sub_cancel_left, List.getElem?_eq_getElem hi, Option.getD_some]

end Window

/-- Windows of the same places of two functions are equal just when the
functions are there. -/
theorem window_eq_window_iff {f g : Nat → α} {first count : Nat} :
    window f first count = window g first count ↔ ∀ i < count, f (first + i) = g (first + i) := by
  refine ⟨fun h i hi => ?_, window_congr⟩
  have := congrArg (fun l => l[i]?) h
  simpa only [window_getElem? hi, Option.some.injEq] using this

/-! ## Chunks -/

/-- Consecutive buffers from `first` on, each with the index it starts at. -/
def chunks : Nat → List (List β) → List (Nat × List β)
  | _, [] => []
  | first, b :: bs => (first, b) :: chunks (first + b.length) bs

theorem mem_chunks {first : Nat} {bs : List (List β)} {p : Nat × List β} (h : p ∈ chunks first bs) :
    p.2 ∈ bs ∧ first ≤ p.1 ∧ p.1 + p.2.length ≤ first + bs.flatten.length := by
  induction bs generalizing first with
  | nil => simp [chunks] at h
  | cons b bs ih =>
    simp only [chunks, List.mem_cons] at h
    rcases h with rfl | h
    · simp
    · obtain ⟨hmem, hle, hend⟩ := ih h
      simp only [List.mem_cons, List.flatten_cons, List.length_append]
      exact ⟨.inr hmem, by omega, by omega⟩

/-- **A window in chunks.** -/
theorem flatMap_chunks (f : Nat → α) (first : Nat) (bs : List (List β)) :
    (chunks first bs).flatMap (fun p => window f p.1 p.2.length) = window f first bs.flatten.length := by
  induction bs generalizing first with
  | nil => rfl
  | cons b bs ih => rw [chunks, List.flatMap_cons, ih, List.flatten_cons, List.length_append, window_append]

/-- Chunks that are windows of functions of their own are together a window
of `g` just when they agree with it. -/
theorem flatMap_chunks_iff (F : Nat → Nat → α) (g : Nat → α) (first : Nat) (bs : List (List β)) :
    (chunks first bs).flatMap (fun p => window (F p.1) p.1 p.2.length) = window g first bs.flatten.length ↔
      ∀ p ∈ chunks first bs, ∀ i < p.2.length, F p.1 (p.1 + i) = g (p.1 + i) := by
  induction bs generalizing first with
  | nil => simp [chunks]
  | cons b bs ih =>
    rw [chunks, List.flatMap_cons, List.flatten_cons, List.length_append, window_append, List.forall_mem_cons,
      ← ih, ← window_eq_window_iff]
    exact ⟨fun h => List.append_inj h (by simp), fun h => congrArg₂ _ h.1 h.2⟩

/-- A buffer is the window of what is in all of them. -/
theorem chunk_eq_window (d : β) {first : Nat} {bs : List (List β)} {p : Nat × List β} (h : p ∈ chunks first bs) :
    p.2 = window (fun i => bs.flatten[i - first]?.getD d) p.1 p.2.length := by
  have hslot : ∀ i < p.2.length, bs.flatten[p.1 + i - first]? = p.2[i]? := by
    intro i hi
    induction bs generalizing first with
    | nil => simp [chunks] at h
    | cons b bs ih =>
      simp only [chunks, List.mem_cons] at h
      rcases h with rfl | h
      · simp only [List.flatten_cons, Nat.add_sub_cancel_left, List.getElem?_append_left hi]
      · have hle := (mem_chunks h).2.1
        rw [List.flatten_cons, List.getElem?_append_right (by omega), ← ih h]
        congr 1
        omega
  refine eq_window_iff.2 ⟨rfl, fun i hi => ?_⟩
  rw [hslot i hi, List.getElem?_eq_getElem hi, Option.getD_some]

end TsnSwitch.Lib
