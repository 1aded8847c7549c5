/-
Lists that are moved in calls of at most a page each, one behind the other, until one of
them fails.

A list that is written so is written as in one call when a call appends to what the calls
before it wrote (`writeAll_iff`), and one that is read so is read as in one call when each
call reads its window (`readAll_window`).
-/
import TsnSwitch.Lib.Window

namespace TsnSwitch.Lib

variable {σ α ε : Type*}

/-- A call for the slots from `pos` on, with an error if it failed. -/
abbrev WriteCall (σ α ε : Type*) := Nat → List α → σ → Option ε × σ

/-- Writes `xs` from `pos` on, in at most so many calls before the last one. -/
def writeAll (write : WriteCall σ α ε) (page : Nat) : Nat → Nat → List α → σ → Option ε × σ
  | 0, pos, xs, s => write pos xs s
  | turns + 1, pos, xs, s =>
    if page < xs.length then
      match write pos (xs.take page) s with
      | (none, s) => writeAll write page turns (pos + page) (xs.drop page) s
      | failed => failed
    else write pos xs s

/-- A call for so many slots from `pos` on into memory. It has no result when it leaves what
it reads from or into. -/
abbrev ReadCall (σ α ε : Type*) := Nat → List α → σ → Option ((Option ε × List α) × σ)

/-- Reads into `buf` from `pos` on, in at most so many calls before the last one. -/
def readAll (read : ReadCall σ α ε) (page : Nat) : Nat → Nat → List α → σ → Option ((Option ε × List α) × σ)
  | 0, pos, buf, s => read pos buf s
  | turns + 1, pos, buf, s =>
    if page < buf.length then do
      let ((err, xs), s) ← read pos (buf.take page) s
      match err with
      | some e => some ((some e, xs ++ buf.drop page), s)
      | none => do
        let ((err, ys), s) ← readAll read page turns (pos + page) (buf.drop page) s
        some ((err, xs ++ ys), s)
    else read pos buf s

variable {page : Nat}

/-- **Writing in calls.** Each call that continues what is there succeeds just when its
entries are good, and then they are there as well. -/
theorem writeAll_iff (page : Nat) {write : WriteCall σ α ε} {I : List α → σ → Prop} {P : α → Prop} {N : Nat}
    (hcall : ∀ done c s, I done s → done.length + c.length ≤ N →
      ((write done.length c s).1 = none ↔ ∀ x ∈ c, P x) ∧
        ((write done.length c s).1 = none → I (done ++ c) (write done.length c s).2))
    (turns : Nat) {done xs : List α} {s : σ} (h : I done s) (hN : done.length + xs.length ≤ N) :
    let r := writeAll write page turns done.length xs s
    (r.1 = none ↔ ∀ x ∈ xs, P x) ∧ (r.1 = none → I (done ++ xs) r.2) := by
  induction turns generalizing done xs s with
  | zero => exact hcall done xs s h hN
  | succ turns ih =>
    rw [writeAll]
    by_cases hpage : page < xs.length
    · rw [if_pos hpage]
      have hlen : (xs.take page).length = page := List.length_take_of_le (Nat.le_of_lt hpage)
      obtain ⟨hiff, hkeep⟩ := hcall done (xs.take page) s h (by omega)
      have hall : (∀ x ∈ xs, P x) ↔ (∀ x ∈ xs.take page, P x) ∧ ∀ x ∈ xs.drop page, P x := by
        conv_lhs => rw [← List.take_append_drop page xs]
        exact List.forall_mem_append
      cases hr : write done.length (xs.take page) s with
      | mk err s' =>
        rw [hr] at hiff hkeep
        cases err with
        | some e =>
          refine ⟨iff_of_false (fun hnone => nomatch hnone) fun hP => ?_, fun hnone => nomatch hnone⟩
          exact nomatch hiff.2 (hall.1 hP).1
        | none =>
          have hfits : (done ++ xs.take page).length + (xs.drop page).length ≤ N := by
            rw [List.length_append, List.length_drop]
            omega
          have hrest := ih (hkeep rfl) hfits
          rw [List.length_append, hlen, List.append_assoc, List.take_append_drop] at hrest
          exact ⟨hrest.1.trans ((and_iff_right (hiff.1 rfl)).symm.trans hall.symm), hrest.2⟩
    · rw [if_neg hpage]
      exact hcall done xs s h hN

theorem readAll_of_le {read : ReadCall σ α ε} (turns pos : Nat) {buf : List α} (s : σ) (h : buf.length ≤ page) :
    readAll read page turns pos buf s = read pos buf s := by
  cases turns with
  | zero => rfl
  | succ turns => exact if_neg (Nat.not_lt.2 h)

/-- **Reading in calls.** When each call between two places reads its window, they read the
whole one. -/
theorem readAll_window {read : ReadCall σ α ε} {I : σ → Prop} {f : Nat → α} {first last : Nat}
    (hcall : ∀ pos buf s, I s → first ≤ pos → pos + buf.length ≤ last →
      ∃ s', I s' ∧ read pos buf s = some ((none, window f pos buf.length), s'))
    (turns : Nat) {pos : Nat} {buf : List α} {s : σ} (h : I s) (hfirst : first ≤ pos) (hlast : pos + buf.length ≤ last) :
    ∃ s', I s' ∧ readAll read page turns pos buf s = some ((none, window f pos buf.length), s') := by
  induction turns generalizing pos buf s with
  | zero => exact hcall pos buf s h hfirst hlast
  | succ turns ih =>
    by_cases hpage : page < buf.length
    · have hlen : (buf.take page).length = page := List.length_take_of_le (Nat.le_of_lt hpage)
      have hsum : buf.length = page + (buf.drop page).length := by
        rw [List.length_drop]
        omega
      obtain ⟨s₁, h₁, hread⟩ := hcall pos (buf.take page) s h hfirst (by omega)
      have hrestLast : pos + page + (buf.drop page).length ≤ last := by omega
      obtain ⟨s₂, h₂, hrest⟩ := ih h₁ (Nat.le_add_right_of_le hfirst) hrestLast
      refine ⟨s₂, h₂, ?_⟩
      rw [readAll, if_pos hpage, hread, hlen, hsum, window_append]
      simp only [Option.bind_eq_bind, Option.bind_some, hrest]
    · rw [readAll, if_neg hpage]
      exact hcall pos buf s h hfirst hlast

/-- A call behind the first that has no result leaves the list without one. -/
theorem readAll_none {read : ReadCall σ α ε} {I : σ → Prop} {turns pos : Nat} {buf : List α} {s : σ} (hpos : 0 < page)
    (hpage : page < buf.length) (hfirst : ∀ r, read pos (buf.take page) s = some r → r.1.1 = none ∧ I r.2)
    (hnext : ∀ buf s, I s → buf ≠ [] → read (pos + page) buf s = none) :
    readAll read page (turns + 1) pos buf s = none := by
  rw [readAll, if_pos hpage]
  cases hr : read pos (buf.take page) s with
  | none => rfl
  | some r =>
    obtain ⟨⟨err, xs⟩, s'⟩ := r
    obtain ⟨rfl, hI⟩ : err = none ∧ I s' := hfirst _ hr
    have hrest : readAll read page turns (pos + page) (buf.drop page) s' = none := by
      have hne : buf.drop page ≠ [] := by
        rw [← List.length_pos_iff, List.length_drop]
        omega
      cases turns with
      | zero => exact hnext _ _ hI hne
      | succ turns =>
        rw [readAll]
        split
        · rw [hnext _ _ hI fun hnil => by
            have := congrArg List.length hnil
            rw [List.length_take, List.length_nil] at this
            omega]
          rfl
        · exact hnext _ _ hI hne
    simp only [Option.bind_eq_bind, Option.bind_some, hrest, Option.bind_none]

end TsnSwitch.Lib
