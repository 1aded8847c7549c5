/-
The last write of a variable in a run.
-/
import TsnSwitch.Lib.Run

namespace TsnSwitch.Lib

variable {σ α ρ : Type*} {step : σ → α → ρ × σ} {s : σ}

/-- The last step of a run that wrote a variable. -/
structure LastWrite {γ : Type*} (step : σ → α → ρ × σ) (writes : σ → α → Option γ) (s : σ) (pre : List α) (a : α)
    (suf : List α) (v : γ) : Prop where
  wrote : writes (after step s pre) a = some v
  last : ∀ mid b suf', suf = mid ++ b :: suf' → writes (after step s (pre ++ a :: mid)) b = none

/-- **A variable has the value of its last write**, or the one it started with. -/
theorem last_write {γ : Type*} {P : σ → α → Prop} {I : σ → Prop} (get : σ → γ) {writes : σ → α → Option γ}
    {as : List α} (h : Guarded step P s as) (h0 : I s)
    (hinv : ∀ s a, I s → P s a → I (step s a).2)
    (hget : ∀ s a, I s → P s a → get (step s a).2 = (writes s a).getD (get s)) :
    get (after step s as) = get s ∨
      ∃ pre a suf, as = pre ++ a :: suf ∧ LastWrite step writes s pre a suf (get (after step s as)) := by
  induction as using List.reverseRecOn with
  | nil => exact .inl rfl
  | append_singleton as a ih =>
    have hbefore := h.of_append.inv_after h0 hinv
    have hval := hget _ a hbefore h.at_step
    rw [after_concat, hval]
    cases hw : writes (after step s as) a with
    | some v =>
      refine .inr ⟨as, a, [], rfl, hw, fun mid b suf' he => ?_⟩
      exact absurd he.symm (by simp)
    | none =>
      rcases ih h.of_append with hkeep | ⟨pre, b, suf, he, hlast⟩
      · exact .inl hkeep
      · refine .inr ⟨pre, b, suf ++ [a], by rw [he, List.append_assoc, List.cons_append], hlast.wrote, ?_⟩
        intro mid c suf' hsuf
        rcases List.eq_nil_or_concat suf' with rfl | ⟨suf₀, d, rfl⟩
        · obtain ⟨rfl, hlast'⟩ := List.append_inj' hsuf rfl
          rw [← he, ← (List.cons.inj hlast').1]
          exact hw
        · rw [List.concat_eq_append, ← List.cons_append, ← List.append_assoc] at hsuf
          exact hlast.last mid c suf₀ (List.append_inj' hsuf rfl).1

end TsnSwitch.Lib
