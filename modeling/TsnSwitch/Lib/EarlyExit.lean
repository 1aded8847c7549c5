/-
Loops that a turn may leave. Whether a turn goes on is said by a predicate of
what came before it and of what it is about. Then either every turn goes on, or
there is a first one that does not (`foldlM_cases`).
-/
import Mathlib.Tactic

namespace TsnSwitch.Lib

variable {σ γ ε : Type*} {turn : σ → γ → Except ε σ} {Inv : List γ → σ → Prop} {Goes : List γ → γ → Prop}
  {Ends : List γ → γ → ε → Prop}

/-- Every element goes on behind those before it. -/
def AllGo (Goes : List γ → γ → Prop) (cs : List γ) : Prop := ∀ before c, before ++ [c] <+: cs → Goes before c

theorem AllGo.nil : AllGo Goes [] := fun _ _ h => absurd (List.prefix_nil.1 h) (by simp)

theorem AllGo.concat {cs : List γ} {c : γ} (h : AllGo Goes cs) (hc : Goes cs c) : AllGo Goes (cs ++ [c]) := by
  intro before d hd
  rcases List.prefix_concat_iff.1 hd with heq | hpre
  · obtain ⟨rfl, hdc⟩ := List.append_inj' heq rfl
    obtain rfl : d = c := by simpa using hdc
    exact hc
  · exact h before d hpre

theorem AllGo.of_prefix {cs ds : List γ} (h : AllGo Goes cs) (hpre : ds <+: cs) : AllGo Goes ds :=
  fun before c hc => h before c (hc.trans hpre)

theorem AllGo.of_cons {c : γ} {cs : List γ} (h : AllGo Goes (c :: cs)) : AllGo (fun before => Goes (c :: before)) cs :=
  fun before d hpre => h (c :: before) d (List.cons_prefix_cons.2 ⟨rfl, hpre⟩)

theorem AllGo.cons {c : γ} {cs : List γ} (hc : Goes [] c) (h : AllGo (fun before => Goes (c :: before)) cs) :
    AllGo Goes (c :: cs) := by
  intro before d hpre
  cases before with
  | nil =>
    obtain rfl : d = c := by simpa using hpre
    exact hc
  | cons b before =>
    obtain ⟨rfl, hpre'⟩ := List.cons_prefix_cons.1 hpre
    exact h before d hpre'

/-- Where what comes before does not matter. -/
theorem allGo_iff_forall {P : γ → Prop} {cs : List γ} : AllGo (fun _ => P) cs ↔ ∀ c ∈ cs, P c := by
  refine ⟨fun h c hc => ?_, fun h before c hpre => h c ?_⟩
  · obtain ⟨before, after, rfl⟩ := List.append_of_mem hc
    exact h before c ⟨after, by simp⟩
  · exact hpre.subset (List.mem_append_right _ (List.mem_singleton_self c))

/-- Going on behind each of those before is a relation of pairs. -/
theorem AllGo.pairwise {R : γ → γ → Prop} {cs : List γ} (h : AllGo Goes cs)
    (hR : ∀ before c, Goes before c → ∀ b ∈ before, R b c) : cs.Pairwise R := by
  induction cs using List.reverseRecOn with
  | nil => exact .nil
  | append_singleton cs c ih =>
    refine List.pairwise_append.2 ⟨ih (h.of_prefix (List.prefix_append ..)), List.pairwise_singleton .., ?_⟩
    intro b hb c' hc'
    obtain rfl := List.mem_singleton.1 hc'
    exact hR cs c' (h cs c' (List.prefix_refl _)) b hb

/-- **Every turn goes on and the invariant holds at the end, or the loop is left
in the first turn that does not.** -/
theorem foldlM_cases {all : List γ} {s : σ}
    (hgo : ∀ before c s, before ++ [c] <+: all → Inv before s → Goes before c →
      ∃ s', turn s c = .ok s' ∧ Inv (before ++ [c]) s')
    (hend : ∀ before c s, before ++ [c] <+: all → Inv before s → ¬Goes before c →
      ∃ e, turn s c = .error e ∧ Ends before c e) (h : Inv [] s) :
    (AllGo Goes all ∧ ∃ s', all.foldlM turn s = .ok s' ∧ Inv all s') ∨
      ∃ before c e, before ++ [c] <+: all ∧ AllGo Goes before ∧ ¬Goes before c ∧ all.foldlM turn s = .error e ∧
        Ends before c e := by
  suffices hall : ∀ cs before s, before ++ cs = all → AllGo Goes before → Inv before s →
      (AllGo Goes all ∧ ∃ s', cs.foldlM turn s = .ok s' ∧ Inv all s') ∨
        ∃ before c e, before ++ [c] <+: all ∧ AllGo Goes before ∧ ¬Goes before c ∧ cs.foldlM turn s = .error e ∧
          Ends before c e from hall all [] s rfl .nil h
  intro cs
  induction cs with
  | nil =>
    intro before s heq hbefore hs
    rw [List.append_nil] at heq
    subst heq
    exact .inl ⟨hbefore, s, rfl, hs⟩
  | cons c cs ih =>
    intro before s heq hbefore hs
    have hpre : before ++ [c] <+: all := ⟨cs, by rw [← heq, List.append_assoc]; rfl⟩
    by_cases hc : Goes before c
    · obtain ⟨s', hturn, hs'⟩ := hgo before c s hpre hs hc
      have hstep : (c :: cs).foldlM turn s = cs.foldlM turn s' := by
        rw [List.foldlM_cons, hturn]
        rfl
      rw [hstep]
      exact ih (before ++ [c]) s' (by rw [← heq, List.append_assoc]; rfl) (hbefore.concat hc) hs'
    · obtain ⟨e, hturn, he⟩ := hend before c s hpre hs hc
      refine .inr ⟨before, c, e, hpre, hbefore, hc, ?_, he⟩
      rw [List.foldlM_cons, hturn]
      rfl

/-- What holds where the loop goes on, or where it is left. -/
def EndsIn (Clean : σ → Prop) (CleanEnd : ε → Prop) : Except ε σ → Prop
  | .ok s => Clean s
  | .error e => CleanEnd e

/-- Every element that is reached is fine: one is reached when those before it go on. -/
def AllReached (Goes Fine : List γ → γ → Prop) (cs : List γ) : Prop :=
  ∀ before c, before ++ [c] <+: cs → AllGo Goes before → Fine before c

/-- How a turn ends that starts `clean`: it goes on with the invariant, or the
loop is left, and what there is then is clean if the turn was fine. -/
def TurnEnds (goes fine clean : Prop) (Next Clean : σ → Prop) (CleanEnd : ε → Prop) : Except ε σ → Prop
  | .ok s => goes ∧ Next s ∧ (Clean s ↔ clean ∧ fine)
  | .error e => ¬goes ∧ (CleanEnd e ↔ clean ∧ fine)

theorem foldlM_clean_iff_behind {Clean : σ → Prop} {CleanEnd : ε → Prop} {Fine : List γ → γ → Prop}
    (hturn : ∀ before c s, Inv before s →
      TurnEnds (Goes before c) (Fine before c) (Clean s) (Inv (before ++ [c])) Clean CleanEnd (turn s c))
    (cs : List γ) {before : List γ} {s : σ} (h : Inv before s) :
    EndsIn Clean CleanEnd (cs.foldlM turn s) ↔
      Clean s ∧ AllReached (fun mid => Goes (before ++ mid)) (fun mid => Fine (before ++ mid)) cs := by
  induction cs generalizing before s with
  | nil =>
    refine (and_iff_left fun mid c hpre => ?_).symm
    exact absurd (List.prefix_nil.1 hpre) (by simp)
  | cons c cs ih =>
    have hfirst : Fine (before ++ []) c ↔ Fine before c := by rw [List.append_nil]
    have hhead : ([] : List γ) ++ [c] <+: c :: cs := ⟨cs, rfl⟩
    rw [List.foldlM_cons]
    have hc := hturn before c s h
    cases hres : turn s c with
    | ok s' =>
      rw [hres] at hc
      obtain ⟨hgo, hinv, hclean⟩ := hc
      refine (ih hinv).trans ?_
      rw [hclean, and_assoc]
      refine and_congr_right fun _ => ⟨fun ⟨hfine, hrest⟩ mid d hpre hmid => ?_, fun hall => ⟨?_, ?_⟩⟩
      · cases mid with
        | nil =>
          obtain rfl : d = c := by simpa using hpre
          exact hfirst.2 hfine
        | cons b mid =>
          obtain ⟨rfl, hpre'⟩ := List.cons_prefix_cons.1 hpre
          have hd : Fine (before ++ [b] ++ mid) d := hrest mid d hpre' (by simpa using hmid.of_cons)
          rwa [List.append_assoc] at hd
      · exact hfirst.1 (hall [] c hhead .nil)
      · intro mid d hpre hmid
        have hgo' : Goes (before ++ []) c := by rwa [List.append_nil]
        have hcons : (c :: mid) ++ [d] <+: c :: cs := List.cons_prefix_cons.2 ⟨rfl, hpre⟩
        have hd : Fine (before ++ c :: mid) d := hall (c :: mid) d hcons (AllGo.cons hgo' (by simpa using hmid))
        show Fine (before ++ [c] ++ mid) d
        rwa [List.append_assoc]
    | error e =>
      rw [hres] at hc
      obtain ⟨hstop, hclean⟩ := hc
      refine hclean.trans (and_congr_right fun _ => ⟨fun hfine mid d hpre hmid => ?_, fun hall => ?_⟩)
      · cases mid with
        | nil =>
          obtain rfl : d = c := by simpa using hpre
          exact hfirst.2 hfine
        | cons b mid =>
          obtain ⟨rfl, -⟩ := List.cons_prefix_cons.1 hpre
          have hgo : Goes (before ++ []) b := hmid [] b ⟨mid, rfl⟩
          rw [List.append_nil] at hgo
          exact absurd hgo hstop
      · exact hfirst.1 (hall [] c hhead .nil)

/-- **What a loop leaves is clean just when each turn that is reached is fine.** -/
theorem foldlM_clean_iff {Clean : σ → Prop} {CleanEnd : ε → Prop} {Fine : List γ → γ → Prop}
    (hturn : ∀ before c s, Inv before s →
      TurnEnds (Goes before c) (Fine before c) (Clean s) (Inv (before ++ [c])) Clean CleanEnd (turn s c))
    (cs : List γ) {s : σ} (h : Inv [] s) :
    EndsIn Clean CleanEnd (cs.foldlM turn s) ↔ Clean s ∧ AllReached Goes Fine cs :=
  foldlM_clean_iff_behind hturn cs h

/-- What each turn keeps, however it ends, is kept. -/
theorem foldlM_keeps {Clean : σ → Prop} {CleanEnd : ε → Prop}
    (hturn : ∀ s c, Clean s → EndsIn Clean CleanEnd (turn s c)) (cs : List γ) {s : σ} (h : Clean s) :
    EndsIn Clean CleanEnd (cs.foldlM turn s) := by
  induction cs generalizing s with
  | nil => exact h
  | cons c cs ih =>
    have hc := hturn s c h
    rw [List.foldlM_cons]
    cases hres : turn s c with
    | ok s' =>
      rw [hres] at hc
      exact ih hc
    | error e =>
      rw [hres] at hc
      exact hc

/-- Of two elements of a list one comes first, or they are the same. -/
theorem first_of_two {all before before' : List γ} {c c' : γ} (h : before ++ [c] <+: all)
    (h' : before' ++ [c'] <+: all) :
    before ++ [c] <+: before' ∨ before' ++ [c'] <+: before ∨ before = before' ∧ c = c' := by
  rcases List.prefix_or_prefix_of_prefix h h' with hp | hp
  · rcases List.prefix_concat_iff.1 hp with heq | hpre
    · obtain ⟨hb, hc⟩ := List.append_inj' heq rfl
      exact .inr (.inr ⟨hb, by simpa using hc⟩)
    · exact .inl hpre
  · rcases List.prefix_concat_iff.1 hp with heq | hpre
    · obtain ⟨hb, hc⟩ := List.append_inj' heq rfl
      exact .inr (.inr ⟨hb.symm, by simpa using hc.symm⟩)
    · exact .inr (.inl hpre)

end TsnSwitch.Lib
