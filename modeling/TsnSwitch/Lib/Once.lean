/-
The members of a list once each, in the order in which they occur first
(`List.eraseDups`).
-/
import Mathlib.Tactic

namespace TsnSwitch.Lib

variable {α β : Type*} [BEq α] [LawfulBEq α] [BEq β] [LawfulBEq β]

theorem nodup_eraseDups (l : List α) : l.eraseDups.Nodup := by
  match l with
  | [] => exact List.nodup_nil
  | a :: l =>
    rw [List.eraseDups_cons, List.nodup_cons]
    exact ⟨fun h => by simp at h, nodup_eraseDups _⟩
termination_by l.length
decreasing_by exact Nat.lt_succ_of_le (List.length_filter_le _ _)

theorem eraseDups_of_nodup {l : List α} (h : l.Nodup) : l.eraseDups = l := by
  induction l with
  | nil => rfl
  | cons a l ih =>
    obtain ⟨ha, h⟩ := List.nodup_cons.1 h
    have hkeep : l.filter (fun b => !b == a) = l :=
      List.filter_eq_self.2 fun b hb => by simpa using fun hba : b = a => ha (hba ▸ hb)
    rw [List.eraseDups_cons, hkeep, ih h]

omit [LawfulBEq α] in
theorem eraseDups_eq_nil {l : List α} : l.eraseDups = [] ↔ l = [] := by
  cases l with
  | nil => simp
  | cons a l => simp [List.eraseDups_cons]

theorem removeAll_eq_nil {l m : List α} : l.removeAll m = [] ↔ ∀ a ∈ l, a ∈ m := by
  simp [List.removeAll, List.filter_eq_nil_iff]

/-- What is there already adds nothing. -/
theorem eraseDups_append_of_subset {l m : List α} (h : ∀ a ∈ m, a ∈ l) : (l ++ m).eraseDups = l.eraseDups := by
  rw [List.eraseDups_append, removeAll_eq_nil.2 h, List.eraseDups_nil, List.append_nil]

/-- A repeated member contributes nothing new. -/
theorem eraseDups_flatMap (l : List α) (f : α → List β) :
    (l.flatMap f).eraseDups = (l.eraseDups.flatMap f).eraseDups := by
  induction l using List.reverseRecOn with
  | nil => rfl
  | append_singleton l a ih =>
    have hleft : (l.flatMap f ++ f a).eraseDups = (l.eraseDups.flatMap f ++ f a).eraseDups := by
      rw [List.eraseDups_append, List.eraseDups_append, ih]
      congr 2
      refine List.filter_congr fun b _ => ?_
      rw [Bool.eq_iff_iff]
      simp
    have hlast : (l ++ [a]).eraseDups = l.eraseDups ++ ([a].removeAll l).eraseDups := List.eraseDups_append
    rw [List.flatMap_append, List.flatMap_singleton, hleft, hlast]
    by_cases ha : a ∈ l
    · have hno : [a].removeAll l = [] := removeAll_eq_nil.2 fun b hb => List.mem_singleton.1 hb ▸ ha
      rw [hno, List.eraseDups_nil, List.append_nil]
      exact eraseDups_append_of_subset fun b hb => List.mem_flatMap.2 ⟨a, List.mem_eraseDups.2 ha, hb⟩
    · have hone : [a].removeAll l = [a] := by simp [List.removeAll, ha]
      rw [hone, List.eraseDups_cons, List.filter_nil, List.eraseDups_nil, List.flatMap_append, List.flatMap_singleton]

theorem eraseDups_map {f : α → β} (hf : Function.Injective f) (l : List α) :
    (l.map f).eraseDups = l.eraseDups.map f := by
  have h := eraseDups_flatMap l fun a => [f a]
  rw [← List.map_eq_flatMap, ← List.map_eq_flatMap] at h
  rw [h, eraseDups_of_nodup ((nodup_eraseDups l).map hf)]

/-! ## First places -/

/-- The members of `l`, each once, ordered by their first places in it. -/
structure FirstOccurrences (l out : List α) : Prop where
  mem : ∀ a, a ∈ out ↔ a ∈ l
  order : out.Pairwise fun a b => l.idxOf a < l.idxOf b

theorem firstOccurrences_eraseDups (l : List α) : FirstOccurrences l l.eraseDups := by
  refine ⟨fun a => List.mem_eraseDups, ?_⟩
  induction l using List.reverseRecOn with
  | nil => exact List.Pairwise.nil
  | append_singleton l a ih =>
    have hold : l.eraseDups.Pairwise fun b c => (l ++ [a]).idxOf b < (l ++ [a]).idxOf c := by
      refine ih.imp_of_mem fun hb hc h => ?_
      rw [List.idxOf_append_of_mem (List.mem_eraseDups.1 hb), List.idxOf_append_of_mem (List.mem_eraseDups.1 hc)]
      exact h
    by_cases ha : a ∈ l
    · rw [eraseDups_append_of_subset fun b hb => List.mem_singleton.1 hb ▸ ha]
      exact hold
    · have hone : [a].removeAll l = [a] := by simp [List.removeAll, ha]
      rw [List.eraseDups_append, hone, List.eraseDups_cons, List.filter_nil, List.eraseDups_nil]
      refine List.pairwise_append.2 ⟨hold, List.pairwise_singleton _ _, fun b hb c hc => ?_⟩
      rw [List.mem_singleton.1 hc, List.idxOf_append_of_mem (List.mem_eraseDups.1 hb), List.idxOf_append_of_notMem ha]
      exact Nat.lt_add_right _ (List.idxOf_lt_length_of_mem (List.mem_eraseDups.1 hb))

/-- There is one such list. -/
theorem firstOccurrences_iff {l out : List α} : FirstOccurrences l out ↔ out = l.eraseDups := by
  constructor
  · intro h
    have h' := firstOccurrences_eraseDups l
    have hnodup : ∀ {o : List α}, FirstOccurrences l o → o.Nodup := fun ho =>
      ho.order.imp fun hlt he => hlt.ne (congrArg l.idxOf he)
    have hperm : out.Perm l.eraseDups :=
      (List.perm_ext_iff_of_nodup (hnodup h) (hnodup h')).2 fun a => (h.mem a).trans (h'.mem a).symm
    exact hperm.eq_of_pairwise (fun a b _ _ hab hba => absurd hba hab.not_gt) h.order h'.order
  · rintro rfl
    exact firstOccurrences_eraseDups l

end TsnSwitch.Lib
