/-
Fields of words that tasks change without a lock: a task reads the word, puts its value
into its field and writes the word back.

The words are the record of what was last written to each field just when no task writes
back other fields as they were (`agrees_iff_fresh`).
-/
import TsnSwitch.Lib.Run

namespace TsnSwitch.Lib

/-- Fields `φ` with values `V` in words `W` of places `R`. -/
structure Layout (φ V W R : Type*) where
  wordOf : φ → R
  get : φ → W → V
  put : φ → V → W → W
  /-- What is left of a value in its field. -/
  trim : φ → V → V
  get_put : ∀ f v w, get f (put f v w) = trim f v
  get_put_of_ne : ∀ f g v w, wordOf g = wordOf f → g ≠ f → get g (put f v w) = get g w

variable {T φ V W R : Type*} [DecidableEq T] [DecidableEq φ] [DecidableEq R] (L : Layout φ V W R)

structure Rmw (T φ V W R : Type*) where
  regs : R → W
  /-- What each task writes next, with the word as it has read it. -/
  read : T → Option (φ × V × W) := fun _ => none
  todo : T → List (φ × V) := fun _ => []
  /-- What was last written to each field. -/
  record : φ → V

inductive RmwOp (T φ V : Type*) where
  | call (t : T) (fs : List (φ × V))
  | run (t : T)

namespace Rmw

/-- A task reads the word of its next field, or writes the one that it has read. -/
def step (s : Rmw T φ V W R) : RmwOp T φ V → Unit × Rmw T φ V W R
  | .call t fs => ((), { s with todo := Function.update s.todo t (s.todo t ++ fs) })
  | .run t =>
    match s.read t with
    | some (f, v, w) =>
      ((), { s with
        regs := Function.update s.regs (L.wordOf f) (L.put f v w)
        record := Function.update s.record f (L.trim f v)
        read := Function.update s.read t none })
    | none =>
      match s.todo t with
      | [] => ((), s)
      | (f, v) :: fs =>
        ((), { s with
          read := Function.update s.read t (some (f, v, s.regs (L.wordOf f)))
          todo := Function.update s.todo t fs })

/-- Each field has what was last written to it. -/
def Agrees (s : Rmw T φ V W R) : Prop := ∀ f, L.get f (s.regs (L.wordOf f)) = s.record f

/-- What is written back to other fields is what they are. -/
def Fresh (s : Rmw T φ V W R) : RmwOp T φ V → Prop
  | .call _ _ => True
  | .run t => ∀ f v w, s.read t = some (f, v, w) →
      ∀ g, L.wordOf g = L.wordOf f → g ≠ f → L.get g w = L.get g (s.regs (L.wordOf f))

variable {L} {s : Rmw T φ V W R}

theorem step_write {t : T} {f : φ} {v : V} {w : W} (h : s.read t = some (f, v, w)) :
    (s.step L (.run t)).2 =
      { s with
        regs := Function.update s.regs (L.wordOf f) (L.put f v w)
        record := Function.update s.record f (L.trim f v)
        read := Function.update s.read t none } := by
  simp only [step, h]

theorem step_read {t : T} {f : φ} {v : V} {fs : List (φ × V)} (h : s.read t = none) (htodo : s.todo t = (f, v) :: fs) :
    (s.step L (.run t)).2 =
      { s with
        read := Function.update s.read t (some (f, v, s.regs (L.wordOf f)))
        todo := Function.update s.todo t fs } := by
  simp only [step, h, htodo]

theorem step_idle {t : T} (h : s.read t = none) (htodo : s.todo t = []) : (s.step L (.run t)).2 = s := by
  simp only [step, h, htodo]

theorem agrees_step (h : s.Agrees L) (op : RmwOp T φ V) : (s.step L op).2.Agrees L ↔ s.Fresh L op := by
  cases op with
  | call t fs => exact iff_of_true h True.intro
  | run t =>
    cases hread : s.read t with
    | none =>
      refine iff_of_true ?_ fun f v w he => nomatch hread.symm.trans he
      cases htodo : s.todo t with
      | nil => rwa [step_idle hread htodo]
      | cons x fs => rwa [step_read hread htodo]
    | some x =>
      obtain ⟨f, v, w⟩ := x
      rw [step_write hread]
      -- the field that is written agrees, and those in other words are kept
      have hother (g : φ) (hne : g ≠ f) :
          (L.get g (Function.update s.regs (L.wordOf f) (L.put f v w) (L.wordOf g)) =
            Function.update s.record f (L.trim f v) g) ↔
            (L.wordOf g = L.wordOf f → L.get g w = L.get g (s.regs (L.wordOf f))) := by
        rw [Function.update_of_ne hne, ← h g]
        by_cases hw : L.wordOf g = L.wordOf f
        · rw [hw, Function.update_self, L.get_put_of_ne f g v w hw hne]
          exact ⟨fun he _ => he, fun he => he rfl⟩
        · rw [Function.update_of_ne hw]
          exact iff_of_true rfl fun he => absurd he hw
      refine ⟨fun hag f' v' w' he g hw hne => ?_, fun hfresh g => ?_⟩
      · obtain ⟨rfl, rfl, rfl⟩ : f = f' ∧ v = v' ∧ w = w' := by simpa using hread.symm.trans he
        exact (hother g hne).1 (hag g) hw
      · by_cases hne : g = f
        · subst hne
          show L.get g (Function.update s.regs (L.wordOf g) (L.put g v w) (L.wordOf g)) = Function.update s.record g _ g
          rw [Function.update_self, Function.update_self, L.get_put]
        · exact (hother g hne).2 fun hw => hfresh f v w hread g hw hne

variable (L) in
/-- **Fields are independent** along a run just when no task writes back another field as it
was. -/
theorem agrees_iff_fresh (h : s.Agrees L) (ops : List (RmwOp T φ V)) :
    (∀ pre suf, ops = pre ++ suf → (after (step L) s pre).Agrees L) ↔ Guarded (step L) (Fresh L) s ops := by
  have hiff : ((∀ pre suf, ops = pre ++ suf → (after (step L) s pre).Agrees L) ∧
      Guarded (step L) (fun _ _ => True) s ops) ↔ Guarded (step L) (Fresh L) s ops :=
    steps_iff_guarded (I := Agrees L) (K := fun _ => True) (fun _ _ _ _ _ => True.intro)
      (fun s op _ h => (and_iff_left True.intro).trans (agrees_step h op)) True.intro h ops
  rw [← hiff]
  exact (and_iff_left (Guarded.trivial ops)).symm

/-! ## Tasks that do not meet -/

/-- No task reads a word that another has read and not yet written. -/
def Alone (L : Layout φ V W R) (s : Rmw T φ V W R) : RmwOp T φ V → Prop
  | .call _ _ => True
  | .run t => s.read t = none → ∀ f v fs, s.todo t = (f, v) :: fs →
      ∀ u g v' w, s.read u = some (g, v', w) → L.wordOf g ≠ L.wordOf f

/-- What a task has read is still there, and is read by no other task. -/
structure Apart (L : Layout φ V W R) (s : Rmw T φ V W R) : Prop where
  word : ∀ t f v w, s.read t = some (f, v, w) → w = s.regs (L.wordOf f)
  other : ∀ t f v w u g v' w', s.read t = some (f, v, w) → s.read u = some (g, v', w') → t ≠ u → L.wordOf f ≠ L.wordOf g

omit [DecidableEq T] [DecidableEq φ] [DecidableEq R] in
theorem Apart.fresh (h : Apart L s) (op : RmwOp T φ V) : s.Fresh L op := by
  cases op with
  | call t fs => exact True.intro
  | run t => exact fun f v w hread g hw hne => by rw [h.word t f v w hread]

theorem Apart.step (h : Apart L s) {op : RmwOp T φ V} (hop : Alone L s op) : Apart L (s.step L op).2 := by
  cases op with
  | call t fs => exact ⟨h.word, h.other⟩
  | run t =>
    cases hread : s.read t with
    | none =>
      cases htodo : s.todo t with
      | nil => rwa [step_idle hread htodo]
      | cons x fs =>
        obtain ⟨f, v⟩ := x
        rw [step_read hread htodo]
        have hmine := hop hread f v fs htodo
        have hold (u : T) (x : φ × V × W) (hu : Function.update s.read t (some (f, v, s.regs (L.wordOf f))) u = some x) :
            (u = t ∧ (f, v, s.regs (L.wordOf f)) = x) ∨ (u ≠ t ∧ s.read u = some x) := by
          by_cases hut : u = t
          · rw [hut, Function.update_self] at hu
            exact .inl ⟨hut, Option.some.inj hu⟩
          · rw [Function.update_of_ne hut] at hu
            exact .inr ⟨hut, hu⟩
        refine ⟨fun u g v' w hu => ?_, fun u g v' w u' g' v'' w' hu hu' hne => ?_⟩
        · obtain ⟨_, he⟩ | ⟨_, hu⟩ := hold u _ hu
          · cases he
            rfl
          · exact h.word u g v' w hu
        · obtain ⟨hut, he⟩ | ⟨_, hu⟩ := hold u _ hu
          · obtain ⟨hut', _⟩ | ⟨_, hu'⟩ := hold u' _ hu'
            · exact absurd (hut.trans hut'.symm) hne
            · cases he
              exact (hmine u' g' v'' w' hu').symm
          · obtain ⟨_, he⟩ | ⟨_, hu'⟩ := hold u' _ hu'
            · cases he
              exact hmine u g v' w hu
            · exact h.other u g v' w u' g' v'' w' hu hu' hne
    | some x =>
      obtain ⟨f, v, w⟩ := x
      rw [step_write hread]
      -- the others keep what they have read, and it is of other words
      have hold (u : T) (x : φ × V × W) (hu : Function.update s.read t none u = some x) : u ≠ t ∧ s.read u = some x := by
        by_cases hut : u = t
        · rw [hut, Function.update_self] at hu
          exact nomatch hu
        · rw [Function.update_of_ne hut] at hu
          exact ⟨hut, hu⟩
      refine ⟨fun u g v' w' hu => ?_, fun u g v' w' u' g' v'' w'' hu hu' hne => ?_⟩
      · obtain ⟨hut, hu⟩ := hold u _ hu
        show w' = Function.update s.regs (L.wordOf f) _ (L.wordOf g)
        rw [Function.update_of_ne (h.other u g v' w' t f v w hu hread hut)]
        exact h.word u g v' w' hu
      · exact h.other u g v' w' u' g' v'' w'' (hold u _ hu).2 (hold u' _ hu').2 hne

/-! ## Calls that do not meet -/

/-- What a task has still to write. -/
def pend (s : Rmw T φ V W R) (t : T) : List (φ × V) :=
  (match s.read t with
  | some (f, v, _) => [(f, v)]
  | none => []) ++ s.todo t

omit [DecidableEq T] [DecidableEq φ] [DecidableEq R] in
theorem pend_of_read {t : T} {f : φ} {v : V} {w : W} (h : s.read t = some (f, v, w)) : s.pend t = (f, v) :: s.todo t := by
  rw [pend, h]
  rfl

omit [DecidableEq T] [DecidableEq φ] [DecidableEq R] in
theorem pend_of_none {t : T} (h : s.read t = none) : s.pend t = s.todo t := by
  rw [pend, h]
  rfl

omit [DecidableEq T] [DecidableEq φ] [DecidableEq R] in
theorem pend_congr {s' : Rmw T φ V W R} {u : T} (hread : s'.read u = s.read u) (htodo : s'.todo u = s.todo u) :
    s'.pend u = s.pend u := by
  rw [pend, pend, hread, htodo]

/-- A task that goes on writes the next field, or nothing. -/
theorem pend_run (L : Layout φ V W R) (s : Rmw T φ V W R) (t : T) :
    ((s.step L (.run t)).2.pend = s.pend ∧ (s.step L (.run t)).2.record = s.record) ∨
      ∃ f v fs, s.pend t = (f, v) :: fs ∧ (s.step L (.run t)).2.pend = Function.update s.pend t fs ∧
        (s.step L (.run t)).2.record = Function.update s.record f (L.trim f v) := by
  cases hread : s.read t with
  | none =>
    cases htodo : s.todo t with
    | nil => exact .inl (by rw [step_idle hread htodo]; exact ⟨rfl, rfl⟩)
    | cons x fs =>
      obtain ⟨f, v⟩ := x
      rw [step_read hread htodo]
      refine .inl ⟨funext fun u => ?_, rfl⟩
      by_cases hu : u = t
      · subst hu
        rw [pend_of_none hread, htodo]
        refine (pend_of_read (Function.update_self u _ s.read)).trans ?_
        exact congrArg _ (Function.update_self u fs s.todo)
      · exact pend_congr (Function.update_of_ne hu _ s.read) (Function.update_of_ne hu fs s.todo)
  | some x =>
    obtain ⟨f, v, w⟩ := x
    rw [step_write hread]
    refine .inr ⟨f, v, s.todo t, pend_of_read hread, funext fun u => ?_, rfl⟩
    by_cases hu : u = t
    · subst hu
      rw [Function.update_self]
      exact pend_of_none (Function.update_self u none s.read)
    · rw [Function.update_of_ne hu]
      exact pend_congr (Function.update_of_ne hu none s.read) rfl

/-- A call is for words that no other task has still to write. -/
def NoConflict (L : Layout φ V W R) (s : Rmw T φ V W R) : RmwOp T φ V → Prop
  | .call t fs => ∀ x ∈ fs, ∀ u ≠ t, ∀ y ∈ s.pend u, L.wordOf y.1 ≠ L.wordOf x.1
  | .run _ => True

instance [Fintype T] (s : Rmw T φ V W R) : (op : RmwOp T φ V) → Decidable (NoConflict L s op)
  | .call t fs => inferInstanceAs (Decidable (∀ x ∈ fs, ∀ u ≠ t, ∀ y ∈ s.pend u, L.wordOf y.1 ≠ L.wordOf x.1))
  | .run _ => inferInstanceAs (Decidable True)

/-- No two tasks have the same word to write. -/
def Sep (L : Layout φ V W R) (s : Rmw T φ V W R) : Prop :=
  ∀ t u, t ≠ u → ∀ x ∈ s.pend t, ∀ y ∈ s.pend u, L.wordOf x.1 ≠ L.wordOf y.1

/-- The value that is written last. -/
def lastOf (f : φ) (fs : List (φ × V)) : Option V := (fs.reverse.find? (·.1 = f)).map Prod.snd

theorem lastOf_append (f : φ) (xs ys : List (φ × V)) : lastOf f (xs ++ ys) = (lastOf f ys).or (lastOf f xs) := by
  rw [lastOf, List.reverse_append, List.find?_append, Option.map_or]
  rfl

theorem lastOf_cons (x : φ × V) (f : φ) (xs : List (φ × V)) :
    lastOf f (x :: xs) = (lastOf f xs).or (if x.1 = f then some x.2 else none) := by
  rw [show x :: xs = [x] ++ xs from rfl, lastOf_append]
  congr 1
  by_cases h : x.1 = f <;> simp [lastOf, h]

theorem exists_of_lastOf {f : φ} {xs : List (φ × V)} {v : V} (h : lastOf f xs = some v) : ∃ x ∈ xs, x.1 = f := by
  obtain ⟨x, hx, _⟩ := Option.map_eq_some_iff.1 h
  exact ⟨x, List.mem_reverse.1 (List.mem_of_find?_eq_some hx), by simpa using List.find?_some hx⟩

/-- What the calls ask for. -/
def asked : RmwOp T φ V → List (φ × V)
  | .call _ fs => fs
  | .run _ => []

/-- A field has what was asked for last, or a task has it still to write. -/
structure LastInv (L : Layout φ V W R) (record : φ → V) (s : Rmw T φ V W R) (all : List (φ × V)) : Prop where
  sep : Sep L s
  pend : ∀ u f v, lastOf f (s.pend u) = some v → lastOf f all = some v
  done : ∀ f, (∀ u, lastOf f (s.pend u) = none) → s.record f = ((lastOf f all).map (L.trim f)).getD (record f)

theorem pend_call (t : T) (fs : List (φ × V)) :
    (s.step L (.call t fs)).2.pend = Function.update s.pend t (s.pend t ++ fs) := by
  funext u
  by_cases hu : u = t
  · subst hu
    rw [Function.update_self, pend, pend, List.append_assoc]
    exact congrArg _ (Function.update_self u _ s.todo)
  · rw [Function.update_of_ne hu]
    exact pend_congr rfl (Function.update_of_ne hu _ s.todo)

theorem LastInv.call {record : φ → V} {all : List (φ × V)} (h : LastInv L record s all) {t : T} {fs : List (φ × V)}
    (hop : NoConflict L s (.call t fs)) : LastInv L record (s.step L (.call t fs)).2 (all ++ fs) := by
  have hpend := pend_call (L := L) (s := s) t fs
  have hmine : (s.step L (.call t fs)).2.pend t = s.pend t ++ fs := by rw [hpend, Function.update_self]
  have hother (u : T) (hu : u ≠ t) : (s.step L (.call t fs)).2.pend u = s.pend u := by rw [hpend, Function.update_of_ne hu]
  refine ⟨fun u u' hne x hx y hy => ?_, fun u f v hlast => ?_, fun f hnone => ?_⟩
  · by_cases hu : u = t
    · subst hu
      rw [hmine] at hx
      rw [hother u' hne.symm] at hy
      exact (List.mem_append.1 hx).elim (fun hx => h.sep u u' hne x hx y hy) fun hx => (hop x hx u' hne.symm y hy).symm
    · rw [hother u hu] at hx
      by_cases hu' : u' = t
      · subst hu'
        rw [hmine] at hy
        exact (List.mem_append.1 hy).elim (fun hy => h.sep u u' hne x hx y hy) fun hy => hop y hy u hu x hx
      · rw [hother u' hu'] at hy
        exact h.sep u u' hne x hx y hy
  · rw [lastOf_append]
    by_cases hu : u = t
    · subst hu
      rw [hmine, lastOf_append] at hlast
      cases hfs : lastOf f fs with
      | some v' => rwa [hfs] at hlast
      | none =>
        rw [hfs, Option.none_or] at hlast
        rw [Option.none_or]
        exact h.pend u f v hlast
    · rw [hother u hu] at hlast
      cases hfs : lastOf f fs with
      | some v' =>
        -- no other task has the field to write
        obtain ⟨x, hx, hxf⟩ := exists_of_lastOf hfs
        obtain ⟨y, hy, hyf⟩ := exists_of_lastOf hlast
        exact absurd (by rw [hxf, hyf]) (hop x hx u hu y hy)
      | none => rw [Option.none_or]; exact h.pend u f v hlast
  · have hfs : lastOf f fs = none ∧ lastOf f (s.pend t) = none := by
      have := hnone t
      rwa [hmine, lastOf_append, Option.or_eq_none_iff] at this
    rw [lastOf_append, hfs.1, Option.none_or]
    refine h.done f fun u => ?_
    by_cases hu : u = t
    · exact hu ▸ hfs.2
    · exact hother u hu ▸ hnone u

theorem LastInv.run {record : φ → V} {all : List (φ × V)} (h : LastInv L record s all) (t : T) :
    LastInv L record (s.step L (.run t)).2 all := by
  obtain ⟨hpend, hrec⟩ | ⟨f, v, fs, hfirst, hpend, hrec⟩ := pend_run L s t
  · refine ⟨?_, fun u f v => ?_, fun f => ?_⟩
    · rw [Sep, hpend]
      exact h.sep
    · rw [hpend]
      exact h.pend u f v
    · rw [hpend, hrec]
      exact h.done f
  · have hsub (u : T) (x : φ × V) (hx : x ∈ Function.update s.pend t fs u) : x ∈ s.pend u := by
      by_cases hu : u = t
      · subst hu
        rw [Function.update_self] at hx
        rw [hfirst]
        exact List.mem_cons_of_mem _ hx
      · rwa [Function.update_of_ne hu] at hx
    have hlast (u : T) (g : φ) : lastOf g (s.pend u) =
        (lastOf g (Function.update s.pend t fs u)).or (if u = t ∧ f = g then some v else none) := by
      by_cases hu : u = t
      · subst hu
        rw [Function.update_self, hfirst, lastOf_cons]
        simp
      · rw [Function.update_of_ne hu, if_neg (fun h => hu h.1), Option.or_none]
    refine ⟨?_, fun u g v' hg => ?_, fun g hnone => ?_⟩
    · rw [Sep, hpend]
      exact fun u u' hne x hx y hy => h.sep u u' hne x (hsub u x hx) y (hsub u' y hy)
    · rw [hpend] at hg
      exact h.pend u g v' (by rw [hlast, hg, Option.some_or])
    · rw [hpend] at hnone
      rw [hrec]
      by_cases hg : g = f
      · subst hg
        rw [Function.update_self, h.pend t g v (by rw [hlast, hnone, Option.none_or, if_pos ⟨rfl, rfl⟩])]
        rfl
      · rw [Function.update_of_ne hg]
        refine h.done g fun u => ?_
        rw [hlast, hnone, Option.none_or, if_neg fun h => hg h.2.symm]

omit [DecidableEq T] [DecidableEq φ] [DecidableEq R] in
theorem alone_of_sep (h : Sep L s) (op : RmwOp T φ V) : Alone L s op := by
  cases op with
  | call t fs => exact True.intro
  | run t =>
    intro hread f v fs htodo u g v' w hu
    have hut : u ≠ t := fun he => nomatch (he ▸ hu).symm.trans hread
    refine h u t hut (g, v') (by rw [pend_of_read hu]; exact List.mem_cons_self) (f, v) ?_
    rw [pend_of_none hread, htodo]
    exact List.mem_cons_self

omit [DecidableEq T] [DecidableEq φ] [DecidableEq R] in
theorem read_of_pend {t : T} (h : s.pend t = []) : s.read t = none := by
  cases hread : s.read t with
  | none => rfl
  | some x => exact absurd ((pend_of_read hread).symm.trans h) (List.cons_ne_nil _ _)

variable (L) in
/-- **Fields have what was asked for last** when no task has something to write, if calls for
the same word do not overlap. Before that they have what was written last. -/
theorem get_of_noConflict (h : s.Agrees L) (hidle : ∀ t, s.pend t = []) {ops : List (RmwOp T φ V)}
    (hops : Guarded (step L) (NoConflict L) s ops) :
    let s' := after (step L) s ops
    s'.Agrees L ∧ ((∀ t, s'.pend t = []) →
      ∀ f, L.get f (s'.regs (L.wordOf f)) = ((lastOf f (ops.flatMap asked)).map (L.trim f)).getD (s.record f)) := by
  intro s'
  have hstart : (s.Agrees L ∧ Apart L s) ∧ LastInv L s.record s [] := by
    refine ⟨⟨h, fun t f v w ht => ?_, fun t f v w u g v' w' ht => ?_⟩, fun t u _ x hx => ?_, fun u f v hlast => ?_, fun f _ => rfl⟩
    · cases (read_of_pend (hidle t)).symm.trans ht
    · cases (read_of_pend (hidle t)).symm.trans ht
    · rw [hidle t] at hx
      cases hx
    · rw [hidle u] at hlast
      cases hlast
  have hall (s : Rmw T φ V W R) (all : List (φ × V)) :
      (outs (step L) s ops).foldl (fun all x => all ++ asked x.1) all = all ++ ops.flatMap asked := by
    clear hops
    induction ops generalizing s all with
    | nil => exact (List.append_nil all).symm
    | cons op ops ih => rw [outs, List.foldl_cons, ih, List.flatMap_cons, List.append_assoc]
  have hinv := hops.sim_after (R := fun s' all => (s'.Agrees L ∧ Apart L s') ∧ LastInv L s.record s' all)
    (f := fun all x => all ++ asked x.1) hstart fun s1 all op hrel hop => by
      obtain ⟨⟨hag, hap⟩, hlast⟩ := hrel
      refine ⟨⟨(agrees_step hag op).2 (hap.fresh op), hap.step (alone_of_sep hlast.sep op)⟩, ?_⟩
      cases op with
      | call t fs => exact hlast.call hop
      | run t => exact (List.append_nil all).symm ▸ hlast.run t
  rw [hall, List.nil_append] at hinv
  refine ⟨hinv.1.1, fun hdone f => (hinv.1.1 f).trans (hinv.2.done f fun u => ?_)⟩
  rw [hdone u]
  rfl

end Rmw

end TsnSwitch.Lib
