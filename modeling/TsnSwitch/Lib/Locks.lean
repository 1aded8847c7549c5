/-
Tasks that share data and locks. One step is one action of one task: it takes
or releases a lock, works on the data, or waits until another task has nothing
left to do.

A deadlock is a cycle of tasks each of which waits for the next, and no step
leaves it (`Sys.Deadlock.run`). What a task holds against what it has still to do
is kept along a run if the task's own actions keep it (`Keeps.run`).
-/
import Mathlib.Tactic

namespace TsnSwitch.Lib

/-- A work item, or one of any number of other tasks. -/
inductive Tid where
  | worker
  | user (n : Nat)
  deriving DecidableEq

inductive Act (T L β : Type*) where
  | lock (l : L)
  | unlock (l : L)
  | body (b : β)
  /-- Wait until a task has nothing left to do. -/
  | await (t : T)

/-- The shared data, who holds each lock, and what each task has still to do. -/
structure Sys (T L δ β : Type*) where
  data : δ
  holder : L → Option T := fun _ => none
  todo : T → List (Act T L β) := fun _ => []

/-- The lock that is taken next. -/
def Act.next {T L β : Type*} : List (Act T L β) → Option L
  | .lock l :: _ => some l
  | _ => none

variable {T L δ β : Type*}

namespace Sys

def wants (s : Sys T L δ β) (t : T) : Option L := Act.next (s.todo t)

def held (s : Sys T L δ β) (t : T) : Set L := { l | s.holder l = some t }

/-- The task that a task waits for. -/
def blocker (s : Sys T L δ β) (t : T) : Option T :=
  match s.todo t with
  | .lock l :: _ => s.holder l
  | .await u :: _ => if (s.todo u).isEmpty then none else some u
  | _ => none

/-- A cycle of tasks, each waiting for the next. -/
def Deadlock (s : Sys T L δ β) : Prop := ∃ t, Relation.TransGen (fun t u => s.blocker t = some u) t t

/-- A task with nothing left to do starts on `as`. -/
def start [DecidableEq T] (s : Sys T L δ β) (t : T) (as : List (Act T L β)) : Sys T L δ β :=
  if (s.todo t).isEmpty then { s with todo := Function.update s.todo t as } else s

variable [DecidableEq T] [DecidableEq L] (exec : δ → β → Option (δ × List (Act T L β)))

/-- One action of a task. Work on the data may not return, and may put actions
in front of those left. -/
def run (s : Sys T L δ β) (t : T) : Sys T L δ β :=
  match s.todo t with
  | [] => s
  | .lock l :: as =>
    if s.holder l = none then
      { s with holder := Function.update s.holder l (some t), todo := Function.update s.todo t as }
    else s
  | .unlock l :: as =>
    { s with
      holder := if s.holder l = some t then Function.update s.holder l none else s.holder
      todo := Function.update s.todo t as }
  | .body b :: as =>
    match exec s.data b with
    | none => s
    | some (data, more) => { s with data, todo := Function.update s.todo t (more ++ as) }
  | .await u :: as => if (s.todo u).isEmpty then { s with todo := Function.update s.todo t as } else s

end Sys

open Sys

section Step

variable [DecidableEq T] [DecidableEq L] {exec : δ → β → Option (δ × List (Act T L β))} {s : Sys T L δ β} {t u : T}
  {as : List (Act T L β)}

theorem run_nil (h : s.todo t = []) : s.run exec t = s := by
  unfold Sys.run
  rw [h]

theorem run_lock {l : L} (h : s.todo t = .lock l :: as) (hl : s.holder l = none) :
    s.run exec t = { s with holder := Function.update s.holder l (some t), todo := Function.update s.todo t as } := by
  unfold Sys.run
  rw [h]
  exact if_pos hl

theorem run_locked {l : L} (h : s.todo t = .lock l :: as) (hl : s.holder l ≠ none) : s.run exec t = s := by
  unfold Sys.run
  rw [h]
  exact if_neg hl

theorem run_unlock {l : L} (h : s.todo t = .unlock l :: as) :
    s.run exec t =
      { s with
        holder := if s.holder l = some t then Function.update s.holder l none else s.holder
        todo := Function.update s.todo t as } := by
  unfold Sys.run
  rw [h]

theorem run_body {b : β} {data : δ} {more : List (Act T L β)} (h : s.todo t = .body b :: as)
    (hb : exec s.data b = some (data, more)) :
    s.run exec t = { s with data, todo := Function.update s.todo t (more ++ as) } := by
  unfold Sys.run
  rw [h]
  simp only [hb]

theorem run_stopped {b : β} (h : s.todo t = .body b :: as) (hb : exec s.data b = none) : s.run exec t = s := by
  unfold Sys.run
  rw [h]
  simp only [hb]

theorem run_await (h : s.todo t = .await u :: as) (hu : s.todo u = []) :
    s.run exec t = { s with todo := Function.update s.todo t as } := by
  unfold Sys.run
  rw [h]
  simp only [hu, List.isEmpty_nil, if_true]

theorem run_awaiting (h : s.todo t = .await u :: as) (hu : s.todo u ≠ []) : s.run exec t = s := by
  unfold Sys.run
  rw [h]
  simp only [List.isEmpty_eq_false_iff.2 hu, Bool.false_eq_true, if_false]

theorem todo_lock {l : L} (h : s.todo t = .lock l :: as) (hl : s.holder l = none) : (s.run exec t).todo t = as := by
  rw [run_lock h hl]
  exact Function.update_self ..

theorem todo_unlock {l : L} (h : s.todo t = .unlock l :: as) : (s.run exec t).todo t = as := by
  rw [run_unlock h]
  exact Function.update_self ..

theorem todo_body {b : β} {data : δ} {more : List (Act T L β)} (h : s.todo t = .body b :: as)
    (hb : exec s.data b = some (data, more)) : (s.run exec t).todo t = more ++ as := by
  rw [run_body h hb]
  exact Function.update_self ..

theorem todo_await (h : s.todo t = .await u :: as) (hu : s.todo u = []) : (s.run exec t).todo t = as := by
  rw [run_await h hu]
  exact Function.update_self ..

theorem run_blocked (h : s.blocker t = some u) : s.run exec t = s := by
  unfold Sys.blocker at h
  split at h
  · rename_i l as ht
    exact run_locked ht fun hn => nomatch hn.symm.trans h
  · rename_i v as ht
    split at h
    · exact nomatch h
    · rename_i hv
      exact run_awaiting ht fun hn => hv (List.isEmpty_iff.2 hn)
  · exact nomatch h

variable (exec) in
/-- What a task does is seen in its own actions and in locks that are free or
its own. -/
theorem run_frame (s : Sys T L δ β) (t : T) :
    (∀ u ≠ t, (s.run exec t).todo u = s.todo u) ∧
    ∀ l, ∀ u ≠ t, (s.run exec t).holder l = some u ↔ s.holder l = some u := by
  have hsame : (∀ u ≠ t, s.todo u = s.todo u) ∧ ∀ l, ∀ u ≠ t, s.holder l = some u ↔ s.holder l = some u :=
    ⟨fun _ _ => rfl, fun _ _ _ => Iff.rfl⟩
  rcases ht : s.todo t with _ | ⟨a, as⟩
  · rw [run_nil ht]
    exact hsame
  · cases a with
    | lock l =>
      by_cases hl : s.holder l = none
      · rw [run_lock ht hl]
        refine ⟨fun u hu => Function.update_of_ne hu .., fun l' u hu => ?_⟩
        rcases eq_or_ne l' l with rfl | hl'
        · simp only [Function.update_self, Option.some.injEq, hl]
          exact iff_of_false (fun h => hu h.symm) (fun h => nomatch h)
        · simp only [Function.update_of_ne hl']
      · rw [run_locked ht hl]
        exact hsame
    | unlock l =>
      rw [run_unlock ht]
      refine ⟨fun u hu => Function.update_of_ne hu .., fun l' u hu => ?_⟩
      by_cases hl : s.holder l = some t
      · simp only [if_pos hl]
        rcases eq_or_ne l' l with rfl | hl'
        · simp only [Function.update_self, hl, Option.some.injEq]
          exact iff_of_false (fun h => nomatch h) (fun h => hu h.symm)
        · simp only [Function.update_of_ne hl']
      · simp only [if_neg hl]
    | body b =>
      rcases hb : exec s.data b with _ | ⟨data, more⟩
      · rw [run_stopped ht hb]
        exact hsame
      · rw [run_body ht hb]
        exact ⟨fun u hu => Function.update_of_ne hu .., fun _ _ _ => Iff.rfl⟩
    | await u =>
      by_cases hu : s.todo u = []
      · rw [run_await ht hu]
        exact ⟨fun u hu => Function.update_of_ne hu .., fun _ _ _ => Iff.rfl⟩
      · rw [run_awaiting ht hu]
        exact hsame

theorem data_run (h : ∀ b as, s.todo t ≠ .body b :: as) : (s.run exec t).data = s.data := by
  unfold Sys.run
  split
  · rfl
  · split <;> rfl
  · rfl
  · rename_i b as ht
    exact absurd ht (h b as)
  · split <;> rfl

theorem wants_run (s : Sys T L δ β) (h : u ≠ t) : (s.run exec t).wants u = s.wants u :=
  congrArg Act.next ((run_frame exec s t).1 u h)

omit [DecidableEq L] in
theorem start_idle (h : s.todo t = []) : s.start t as = { s with todo := Function.update s.todo t as } := by
  unfold Sys.start
  simp only [h, List.isEmpty_nil, if_true]

omit [DecidableEq L] in
theorem start_busy (h : s.todo t ≠ []) : s.start t as = s := by
  unfold Sys.start
  simp only [List.isEmpty_eq_false_iff.2 h, Bool.false_eq_true, if_false]

omit [DecidableEq L] in
theorem todo_start (s : Sys T L δ β) (as : List (Act T L β)) (h : u ≠ t) : (s.start t as).todo u = s.todo u := by
  unfold Sys.start
  split
  · exact Function.update_of_ne h ..
  · rfl

end Step

/-! ## Deadlock -/

/-- The neighbours of a task on a cycle are on one. -/
theorem cycle_step {r : T → T → Prop} {t : T} (h : Relation.TransGen r t t) :
    (∃ u, r t u ∧ Relation.TransGen r u u) ∧ ∃ u, r u t ∧ Relation.TransGen r u u := by
  obtain ⟨u, htu, hut⟩ := Relation.TransGen.head'_iff.1 h
  obtain ⟨v, htv, hvt⟩ := Relation.TransGen.tail'_iff.1 h
  exact ⟨⟨u, htu, .tail' hut htu⟩, ⟨v, hvt, .head' hvt htv⟩⟩

/-- A cycle stays if the tasks that wait for waiting tasks do. -/
theorem Sys.Deadlock.mono {s s' : Sys T L δ β} (h : s.Deadlock)
    (hs : ∀ t u, s.blocker t = some u → (∃ v, s.blocker u = some v) → s'.blocker t = some u) : s'.Deadlock := by
  obtain ⟨t, hc⟩ := h
  have hpath : ∀ u, Relation.TransGen (fun t u => s.blocker t = some u) t u → (∃ v, s.blocker u = some v) →
      Relation.TransGen (fun t u => s'.blocker t = some u) t u := by
    intro u hu
    induction hu with
    | single h1 => exact fun hv => .single (hs _ _ h1 hv)
    | tail _ h1 ih => exact fun hv => (ih ⟨_, h1⟩).tail (hs _ _ h1 hv)
  obtain ⟨v, hv, -⟩ := Relation.TransGen.head'_iff.1 hc
  exact ⟨t, hpath t hc ⟨v, hv⟩⟩

/-- What a blocked task waits for depends on its own next action, on the lock,
and on whether the other task has ended. -/
theorem blocker_congr {s s' : Sys T L δ β} {t u : T} (h : s.blocker t = some u) (ht : s'.todo t = s.todo t)
    (hu : s'.todo u = s.todo u) (hl : ∀ l, s.holder l = some u → s'.holder l = some u) : s'.blocker t = some u := by
  unfold Sys.blocker at h ⊢
  rw [ht]
  split at h
  · exact hl _ h
  · split at h
    · exact nomatch h
    · rename_i hv
      obtain rfl := Option.some.inj h
      simp only [hu, hv, Bool.false_eq_true, if_false]
  · exact nomatch h

theorem ne_of_blocked {s : Sys T L δ β} {t u v : T} (ht : s.blocker t = none) (hu : s.blocker u = some v) : u ≠ t := by
  rintro rfl
  exact nomatch ht.symm.trans hu

section Forever

variable [DecidableEq T] [DecidableEq L] {s : Sys T L δ β}

/-- **A deadlock is never left.** -/
theorem Sys.Deadlock.run (h : s.Deadlock) (exec : δ → β → Option (δ × List (Act T L β))) (t : T) :
    (s.run exec t).Deadlock := by
  rcases hb : s.blocker t with _ | v
  · refine h.mono fun u w hu ⟨x, hw⟩ => ?_
    have hut : u ≠ t := ne_of_blocked hb hu
    have hwt : w ≠ t := ne_of_blocked hb hw
    obtain ⟨htodo, hholder⟩ := run_frame exec s t
    exact blocker_congr hu (htodo u hut) (htodo w hwt) fun l hl => (hholder l w hwt).2 hl
  · rw [run_blocked hb]
    exact h

omit [DecidableEq L] in
theorem Sys.Deadlock.start (h : s.Deadlock) (t : T) (as : List (Act T L β)) : (s.start t as).Deadlock := by
  by_cases ht : s.todo t = []
  · rw [start_idle ht]
    have hfree : s.blocker t = none := by
      unfold Sys.blocker
      rw [ht]
    refine h.mono fun u w hu ⟨x, hw⟩ => ?_
    have hut : u ≠ t := ne_of_blocked hfree hu
    have hwt : w ≠ t := ne_of_blocked hfree hw
    exact blocker_congr hu (Function.update_of_ne hut ..) (Function.update_of_ne hwt ..) fun l hl => hl
  · rw [start_busy ht]
    exact h

end Forever

/-! ## What a task holds -/

/-- A condition on what a task holds and has still to do, kept by the task's own
actions. -/
structure Keeps (exec : δ → β → Option (δ × List (Act T L β))) (P : T → Set L → List (Act T L β) → Prop) : Prop where
  lock : ∀ t h l as, P t h (.lock l :: as) → l ∉ h → P t (insert l h) as
  unlock : ∀ t h l as, P t h (.unlock l :: as) → P t (h \ {l}) as
  body : ∀ t h b as data data' more, P t h (.body b :: as) → exec data b = some (data', more) → P t h (more ++ as)
  await : ∀ t h u as, P t h (.await u :: as) → P t h as

section Held

variable [DecidableEq T] [DecidableEq L] {exec : δ → β → Option (δ × List (Act T L β))} {s : Sys T L δ β} {t : T}
  {as : List (Act T L β)}

theorem held_other (s : Sys T L δ β) {u : T} (h : u ≠ t) : (s.run exec t).held u = s.held u :=
  Set.ext fun l => (run_frame exec s t).2 l u h

theorem held_lock {l : L} (h : s.todo t = .lock l :: as) (hl : s.holder l = none) :
    (s.run exec t).held t = insert l (s.held t) := by
  rw [run_lock h hl]
  ext l'
  rcases eq_or_ne l' l with rfl | hl'
  · simp [Sys.held]
  · simp [Sys.held, hl']

theorem held_unlock {l : L} (h : s.todo t = .unlock l :: as) : (s.run exec t).held t = s.held t \ {l} := by
  rw [run_unlock h]
  ext l'
  by_cases hl : s.holder l = some t
  · rcases eq_or_ne l' l with rfl | hl'
    · simp [Sys.held, hl]
    · simp [Sys.held, hl, hl']
  · simp [Sys.held, hl]

/-- **The holding rule.** -/
theorem Keeps.run {P : T → Set L → List (Act T L β) → Prop} (hP : Keeps exec P)
    (h : ∀ t, P t (s.held t) (s.todo t)) (t u : T) : P u ((s.run exec t).held u) ((s.run exec t).todo u) := by
  rcases eq_or_ne u t with rfl | hu
  · have h := h u
    rcases ht : s.todo u with _ | ⟨a, as⟩
    · rw [run_nil ht]
      exact h
    · rw [ht] at h
      cases a with
      | lock l =>
        by_cases hl : s.holder l = none
        · rw [held_lock ht hl, run_lock ht hl]
          simp only [Function.update_self]
          exact hP.lock u _ l as h fun hm => nomatch hl.symm.trans hm
        · rw [run_locked ht hl, ht]
          exact h
      | unlock l =>
        rw [held_unlock ht, todo_unlock ht]
        exact hP.unlock u _ l as h
      | body b =>
        rcases hb : exec s.data b with _ | ⟨data, more⟩
        · rw [run_stopped ht hb, ht]
          exact h
        · have hheld : (s.run exec u).held u = s.held u := by
            rw [run_body ht hb]
            rfl
          rw [hheld, todo_body ht hb]
          exact hP.body u _ b as _ _ _ h hb
      | await v =>
        by_cases hv : s.todo v = []
        · have hheld : (s.run exec u).held u = s.held u := by
            rw [run_await ht hv]
            rfl
          rw [hheld, todo_await ht hv]
          exact hP.await u _ v as h
        · rw [run_awaiting ht hv, ht]
          exact h
  · rw [held_other s hu, (run_frame exec s t).1 u hu]
    exact h u

omit [DecidableEq L] in
theorem Keeps.start {P : T → Set L → List (Act T L β) → Prop} (h : ∀ t, P t (s.held t) (s.todo t))
    (ht : P t (s.held t) [] → P t (s.held t) as) (u : T) : P u ((s.start t as).held u) ((s.start t as).todo u) := by
  by_cases hidle : s.todo t = []
  · rw [start_idle hidle]
    rcases eq_or_ne u t with rfl | hu
    · simp only [Function.update_self]
      exact ht (hidle ▸ h u)
    · simp only [Function.update_of_ne hu]
      exact h u
  · rw [start_busy hidle]
    exact h u

end Held

end TsnSwitch.Lib
