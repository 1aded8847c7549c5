/-
Items in lists, each with a pointer to the list it is in, as with list heads
that are embedded in the items. `Owned` says that pointers and lists agree;
it is kept when an item is taken from its list and when it is put into one.
-/
import Mathlib.Tactic

namespace TsnSwitch.Lib

variable {ι κ : Type*} [DecidableEq ι] [DecidableEq κ]

/-- An item is in the list its pointer names, once, and in no other. -/
structure Owned (owner : ι → Option κ) (list : κ → List ι) : Prop where
  mem_iff : ∀ i k, i ∈ list k ↔ owner i = some k
  nodup : ∀ k, (list k).Nodup

namespace Owned

variable {owner : ι → Option κ} {list : κ → List ι}

omit [DecidableEq ι] [DecidableEq κ] in
theorem empty : Owned (fun _ : ι => (none : Option κ)) fun _ => [] :=
  ⟨fun _ _ => ⟨fun h => (nomatch h), fun h => (nomatch h)⟩, fun _ => List.nodup_nil⟩

omit [DecidableEq κ] in
theorem unlink (h : Owned owner list) (i : ι) : Owned (Function.update owner i none) fun k => (list k).erase i := by
  refine ⟨fun j k => ?_, fun k => (h.nodup k).erase i⟩
  rw [(h.nodup k).mem_erase_iff, h.mem_iff]
  by_cases hj : j = i
  · subst hj
    rw [Function.update_self]
    exact iff_of_false (fun hc => hc.1 rfl) fun hc => nomatch hc
  · rw [Function.update_of_ne hj]
    exact and_iff_right hj

theorem append (h : Owned owner list) {i : ι} (hi : owner i = none) (k : κ) :
    Owned (Function.update owner i (some k)) (Function.update list k (list k ++ [i])) := by
  have hout : ∀ k', i ∉ list k' := fun k' hmem => nomatch hi.symm.trans ((h.mem_iff i k').1 hmem)
  refine ⟨fun j k' => ?_, fun k' => ?_⟩
  · by_cases hk : k' = k
    · subst hk
      rw [Function.update_self, List.mem_append, List.mem_singleton, h.mem_iff]
      by_cases hj : j = i
      · subst hj
        rw [Function.update_self]
        exact iff_of_true (.inr rfl) rfl
      · rw [Function.update_of_ne hj]
        exact or_iff_left hj
    · rw [Function.update_of_ne hk, h.mem_iff]
      by_cases hj : j = i
      · subst hj
        rw [Function.update_self, hi]
        exact iff_of_false (fun hc => nomatch hc) fun hc => hk (Option.some.inj hc).symm
      · rw [Function.update_of_ne hj]
  · by_cases hk : k' = k
    · subst hk
      rw [Function.update_self]
      exact (h.nodup k').append (List.nodup_singleton i) fun j hj hj' => hout k' (List.mem_singleton.1 hj' ▸ hj)
    · rw [Function.update_of_ne hk]
      exact h.nodup k'

omit [DecidableEq κ] in
theorem erase_of_none (h : Owned owner list) {i : ι} (hi : owner i = none) : (fun k => (list k).erase i) = list := by
  funext k
  exact List.erase_of_not_mem fun hmem => nomatch hi.symm.trans ((h.mem_iff i k).1 hmem)

/-- An item is taken from its list, if it is in one, and put into another. -/
theorem move (h : Owned owner list) (i : ι) (k : κ) :
    Owned (Function.update owner i (some k)) (Function.update (fun k => (list k).erase i) k ((list k).erase i ++ [i])) := by
  have hmoved := (h.unlink i).append (Function.update_self ..) k
  rwa [Function.update_idem] at hmoved

omit [DecidableEq κ] in
theorem count_eq (h : Owned owner list) {i : ι} {k : κ} (hi : owner i = some k) : (list k).count i = 1 :=
  List.count_eq_one_of_mem (h.nodup k) ((h.mem_iff i k).2 hi)

end Owned

end TsnSwitch.Lib
