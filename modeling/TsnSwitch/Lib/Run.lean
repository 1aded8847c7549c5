/-
Runs of a deterministic machine that returns a value at each step, and the
two rules every result about runs uses: an invariant kept by each guarded
step holds after the run (`Guarded.inv_after`), and a relation to an
abstract machine that watches the returned values is kept along the run
(`Guarded.sim_after`).
-/
import Mathlib.Tactic

namespace TsnSwitch.Lib

variable {σ α ρ τ : Type*}

/-- The state after the inputs `as`. -/
def after (step : σ → α → ρ × σ) (s : σ) (as : List α) : σ :=
  as.foldl (fun s a => (step s a).2) s

/-- The inputs with what the machine returned for each. -/
def outs (step : σ → α → ρ × σ) : σ → List α → List (α × ρ)
  | _, [] => []
  | s, a :: as => (a, (step s a).1) :: outs step (step s a).2 as

/-- Every step of the run meets `P` in the state it is taken from. -/
def Guarded (step : σ → α → ρ × σ) (P : σ → α → Prop) : σ → List α → Prop
  | _, [] => True
  | s, a :: as => P s a ∧ Guarded step P (step s a).2 as

/-- The machine that keeps its inputs: a guard of its runs speaks of what came
before. -/
def remember (as : List α) (a : α) : Unit × List α := ((), as ++ [a])

theorem after_remember (as bs : List α) : after remember as bs = as ++ bs := by
  induction bs generalizing as with
  | nil => exact (List.append_nil as).symm
  | cons b bs ih => exact (ih _).trans (List.append_assoc as [b] bs)

variable {step : σ → α → ρ × σ} {P Q : σ → α → Prop} {s : σ}

@[simp] theorem after_nil : after step s [] = s := rfl

@[simp] theorem after_cons (a : α) (as : List α) :
    after step s (a :: as) = after step (step s a).2 as := rfl

theorem after_append (as bs : List α) :
    after step s (as ++ bs) = after step (after step s as) bs := by
  simp [after, List.foldl_append]

theorem after_concat (as : List α) (a : α) :
    after step s (as ++ [a]) = (step (after step s as) a).2 := by
  rw [after_append, after_cons, after_nil]

theorem outs_append (as bs : List α) :
    outs step s (as ++ bs) = outs step s as ++ outs step (after step s as) bs := by
  induction as generalizing s with
  | nil => rfl
  | cons a as ih => simp [outs, ih]

theorem outs_concat (as : List α) (a : α) :
    outs step s (as ++ [a]) = outs step s as ++ [(a, (step (after step s as) a).1)] := by
  rw [outs_append]; rfl

instance [∀ s a, Decidable (P s a)] : ∀ (s : σ) (as : List α), Decidable (Guarded step P s as)
  | _, [] => inferInstanceAs (Decidable True)
  | s, a :: as =>
    have : Decidable (Guarded step P (step s a).2 as) := instDecidableGuarded _ as
    inferInstanceAs (Decidable (P s a ∧ Guarded step P (step s a).2 as))

namespace Guarded

theorem append_iff {as bs : List α} :
    Guarded step P s (as ++ bs) ↔ Guarded step P s as ∧ Guarded step P (after step s as) bs := by
  induction as generalizing s with
  | nil => simp [Guarded]
  | cons a as ih => simp [Guarded, ih, and_assoc]

theorem of_append {as bs : List α} (h : Guarded step P s (as ++ bs)) : Guarded step P s as :=
  (append_iff.1 h).1

/-- The guard of the step taken after `pre`. -/
theorem at_step {pre suf : List α} {a : α} (h : Guarded step P s (pre ++ a :: suf)) :
    P (after step s pre) a :=
  (append_iff.1 h).2.1

/-- A guarded run, position by position. -/
theorem iff_forall {as : List α} :
    Guarded step P s as ↔ ∀ pre a suf, as = pre ++ a :: suf → P (after step s pre) a := by
  refine ⟨fun h pre a suf he => ?_, fun h => ?_⟩
  · subst he; exact h.at_step
  · induction as generalizing s with
    | nil => exact True.intro
    | cons a as ih =>
      refine ⟨h [] a as rfl, ih fun pre b suf he => ?_⟩
      exact h (a :: pre) b suf (by rw [he]; rfl)

theorem trivial (as : List α) : Guarded step (fun _ _ => True) s as := by
  induction as generalizing s with
  | nil => exact True.intro
  | cons a as ih => exact ⟨True.intro, ih⟩

/-- **The invariant rule.** What holds at the start and is kept by each
guarded step holds after the run. -/
theorem inv_after {I : σ → Prop} {as : List α} (h : Guarded step P s as) (h0 : I s)
    (hstep : ∀ s a, I s → P s a → I (step s a).2) : I (after step s as) := by
  induction as generalizing s with
  | nil => exact h0
  | cons a as ih => exact ih h.2 (hstep s a h0 h.1)

/-- **The simulation rule.** A relation to an abstract machine that sees each
input and what was returned for it is kept along the run. -/
theorem sim_after {R : σ → τ → Prop} {f : τ → α × ρ → τ} {as : List α} {t : τ}
    (h : Guarded step P s as) (h0 : R s t)
    (hstep : ∀ s t a, R s t → P s a → R (step s a).2 (f t (a, (step s a).1))) :
    R (after step s as) ((outs step s as).foldl f t) := by
  induction as generalizing s t with
  | nil => exact h0
  | cons a as ih => exact ih h.2 (hstep s t a h0 h.1)

end Guarded

/-- Where `P` says exactly when a step keeps a relation to another machine on
the same inputs, it says so of runs. -/
theorem related_iff_guarded {R : σ → τ → Prop} {ρ' : Type*} {f : τ → α → ρ' × τ} {P : τ → α → Prop}
    (hstep : ∀ s t a, R s t → (R (step s a).2 (f t a).2 ↔ P t a)) {t : τ} (h0 : R s t) (as : List α) :
    (∀ pre suf, as = pre ++ suf → R (after step s pre) (after f t pre)) ↔ Guarded f P t as := by
  induction as generalizing s t with
  | nil =>
    refine ⟨fun _ => True.intro, fun _ pre suf he => ?_⟩
    obtain ⟨rfl, rfl⟩ := List.append_eq_nil_iff.1 he.symm
    exact h0
  | cons a as ih =>
    refine ⟨fun h => ?_, fun ⟨ha, h⟩ pre suf he => ?_⟩
    · have h1 := h [a] as rfl
      refine ⟨(hstep s t a h0).1 h1, (ih h1).1 fun pre suf he => ?_⟩
      exact h (a :: pre) suf (by rw [he]; rfl)
    · cases pre with
      | nil => exact h0
      | cons b pre =>
        obtain ⟨rfl, rfl⟩ := List.cons.inj he
        exact (ih ((hstep s t a h0).2 ha)).2 h pre suf rfl

/-- Where `P` says exactly when a step keeps `I` and meets `Q`, it says so of
runs. `K` is what the steps that meet `P` keep besides, and `A` what is known
of the inputs. -/
theorem steps_iff_guarded_of {I K : σ → Prop} {A : α → Prop}
    (hK : ∀ s a, A a → K s → I s → P s a → K (step s a).2)
    (hstep : ∀ s a, A a → K s → I s → (I (step s a).2 ∧ Q s a ↔ P s a)) (hk : K s) (h0 : I s) {as : List α}
    (hA : ∀ a ∈ as, A a) :
    ((∀ pre suf, as = pre ++ suf → I (after step s pre)) ∧ Guarded step Q s as) ↔ Guarded step P s as := by
  induction as generalizing s with
  | nil =>
    refine iff_of_true ⟨fun pre suf he => ?_, True.intro⟩ True.intro
    obtain ⟨rfl, rfl⟩ := List.append_eq_nil_iff.1 he.symm
    exact h0
  | cons a as ih =>
    obtain ⟨ha', hA⟩ := List.forall_mem_cons.1 hA
    refine ⟨fun ⟨hpre, hq⟩ => ?_, fun ⟨ha, h⟩ => ?_⟩
    · have h1 := hpre [a] as rfl
      have ha := (hstep s a ha' hk h0).1 ⟨h1, hq.1⟩
      refine ⟨ha, (ih (hK s a ha' hk h0 ha) h1 hA).1 ⟨fun pre suf he => ?_, hq.2⟩⟩
      exact hpre (a :: pre) suf (by rw [he]; rfl)
    · obtain ⟨h1, hqa⟩ := (hstep s a ha' hk h0).2 ha
      obtain ⟨hpre, hq⟩ := (ih (hK s a ha' hk h0 ha) h1 hA).2 h
      refine ⟨fun pre suf he => ?_, hqa, hq⟩
      cases pre with
      | nil => exact h0
      | cons b pre =>
        obtain ⟨rfl, rfl⟩ := List.cons.inj he
        exact hpre pre suf rfl

theorem steps_iff_guarded {I K : σ → Prop} (hK : ∀ s a, K s → I s → P s a → K (step s a).2)
    (hstep : ∀ s a, K s → I s → (I (step s a).2 ∧ Q s a ↔ P s a)) (hk : K s) (h0 : I s) (as : List α) :
    ((∀ pre suf, as = pre ++ suf → I (after step s pre)) ∧ Guarded step Q s as) ↔ Guarded step P s as :=
  steps_iff_guarded_of (fun s a (_ : True) => hK s a) (fun s a _ => hstep s a) hk h0 fun _ _ => True.intro

theorem forall_outs_iff {G : ρ → Prop} (as : List α) :
    (∀ o ∈ outs step s as, G o.2) ↔ Guarded step (fun s a => G (step s a).1) s as := by
  induction as generalizing s with
  | nil => exact iff_of_true (fun o ho => nomatch ho) True.intro
  | cons a as ih => rw [outs, List.forall_mem_cons, ih]; rfl

/-- Where `P` says exactly when a step keeps a property and returns something
good, it says so of runs. `J` is an invariant of all runs. -/
theorem holds_iff_guarded {I J : σ → Prop} {G : ρ → Prop} (hJ : ∀ s a, J s → J (step s a).2)
    (hstep : ∀ s a, J s → I s → (I (step s a).2 ∧ G (step s a).1 ↔ P s a)) (hj : J s) (h0 : I s) (as : List α) :
    ((∀ pre suf, as = pre ++ suf → I (after step s pre)) ∧ ∀ o ∈ outs step s as, G o.2) ↔ Guarded step P s as := by
  rw [forall_outs_iff]
  exact steps_iff_guarded (fun s a hj _ _ => hJ s a hj) hstep hj h0 as

/-- An invariant kept by every step holds after every run. -/
theorem inv_after {I : σ → Prop} (as : List α) (h0 : I s)
    (hstep : ∀ s a, I s → I (step s a).2) : I (after step s as) :=
  (Guarded.trivial as).inv_after h0 fun s a h _ => hstep s a h

end TsnSwitch.Lib
