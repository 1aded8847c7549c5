/-
Registers behind a window. A command moves a register into the window or back, and takes
its time. Tasks use the window in sections, each with a lock held.

In every interleaving of the accesses with the ends of the transfers the sections are as
if carried out at once, in the order in which they took the lock (`Implements.serial`).
-/
import TsnSwitch.Lib.Run

namespace TsnSwitch.Lib

/-- An access with the lock held. -/
inductive Acc (ι ρ ω : Type*) where
  /-- A command, and the wait for its end. -/
  | transfer (write : Bool) (i : ι)
  | set (f : ρ → ρ)
  | get (g : ρ → ω)

structure Bank (ι ρ : Type*) where
  regs : ι → ρ
  win : ρ

variable {T σ ι ρ ω C : Type*} [DecidableEq T] [DecidableEq ι]

def Bank.transfer (b : Bank ι ρ) (write : Bool) (i : ι) : Bank ι ρ :=
  if write then { b with regs := Function.update b.regs i b.win } else { b with win := b.regs i }

/-- An access that is carried out at once. -/
def Acc.exec (b : Bank ι ρ) : Acc ι ρ ω → List ω × Bank ι ρ
  | .transfer write i => ([], b.transfer write i)
  | .set f => ([], { b with win := f b.win })
  | .get g => ([g b.win], b)

/-- What is read by a section. -/
def reads (b : Bank ι ρ) (as : List (Acc ι ρ ω)) : List ω := (outs Acc.exec b as).flatMap Prod.snd

/-- Who holds the lock, the command that it waits for, and what is left of its section. -/
structure LockHolder (T ι ρ ω : Type*) where
  task : T
  pending : Option (Bool × ι) := none
  left : List (Acc ι ρ ω)

structure Indirect (T σ ι ρ ω : Type*) where
  bank : Bank ι ρ
  holder : Option (LockHolder T ι ρ ω) := none
  /-- The sections each task has still to do. -/
  todo : T → List σ := fun _ => []
  got : List (T × ω) := []

inductive IndirectOp (T σ : Type*) where
  | call (t : T) (names : List σ)
  | run (t : T)
  /-- The end of a transfer. -/
  | done

variable (code : σ → List (Acc ι ρ ω))

namespace Indirect

/-- The holder of the lock goes on. It waits while a transfer is not at its end. -/
def goOn (s : Indirect T σ ι ρ ω) (h : LockHolder T ι ρ ω) : Indirect T σ ι ρ ω :=
  match h.pending, h.left with
  | some _, _ => s
  | none, [] => { s with holder := none }
  | none, .transfer write i :: left => { s with holder := some { h with pending := some (write, i), left } }
  | none, .set f :: left =>
    { s with bank := { s.bank with win := f s.bank.win }, holder := some { h with left } }
  | none, .get g :: left => { s with got := s.got ++ [(h.task, g s.bank.win)], holder := some { h with left } }

/-- A step, with the section whose lock was taken. -/
def step (s : Indirect T σ ι ρ ω) : IndirectOp T σ → Option (T × σ) × Indirect T σ ι ρ ω
  | .call t names => (none, { s with todo := Function.update s.todo t (s.todo t ++ names) })
  | .run t =>
    match s.holder with
    | some h => (none, if h.task = t then s.goOn h else s)
    | none =>
      match s.todo t with
      | [] => (none, s)
      | n :: names =>
        (some (t, n), { s with holder := some { task := t, left := code n }, todo := Function.update s.todo t names })
  | .done =>
    match s.holder with
    | some h =>
      match h.pending with
      | some (write, i) =>
        (none, { s with bank := s.bank.transfer write i, holder := some { h with pending := none } })
      | none => (none, s)
    | none => (none, s)

/-! ## What will be -/

/-- The registers when the transfer is at its end. -/
def settled (b : Bank ι ρ) : Option (Bool × ι) → Bank ι ρ
  | none => b
  | some (write, i) => b.transfer write i

/-- The registers when the lock is free again. -/
def final (s : Indirect T σ ι ρ ω) : Bank ι ρ :=
  match s.holder with
  | none => s.bank
  | some h => after Acc.exec (settled s.bank h.pending) h.left

/-- What has been read when the lock is free again. -/
def finalGot (s : Indirect T σ ι ρ ω) : List (T × ω) :=
  match s.holder with
  | none => s.got
  | some h => s.got ++ (reads (settled s.bank h.pending) h.left).map (h.task, ·)

variable {s : Indirect T σ ι ρ ω}

omit [DecidableEq T] in
/-- The holder brings nothing about that was not to be. -/
theorem final_goOn {h : LockHolder T ι ρ ω} (hs : s.holder = some h) :
    (s.goOn h).final = s.final ∧ (s.goOn h).finalGot = s.finalGot := by
  obtain ⟨t, pending, left⟩ := h
  unfold goOn final finalGot
  rw [hs]
  cases pending with
  | some p => exact ⟨by simp only [hs], by simp only [hs]⟩
  | none =>
    cases left with
    | nil => exact ⟨rfl, (List.append_nil s.got).symm⟩
    | cons a left =>
      cases a with
      | transfer write i => exact ⟨rfl, rfl⟩
      | set f => exact ⟨rfl, rfl⟩
      | get g =>
        refine ⟨rfl, ?_⟩
        dsimp only [settled]
        rw [List.append_assoc]
        rfl

/-- A step that takes the lock brings about its section, and no other step does anything. -/
theorem final_step (s : Indirect T σ ι ρ ω) (op : IndirectOp T σ) :
    let r := step code s op
    match r.1 with
    | none => r.2.final = s.final ∧ r.2.finalGot = s.finalGot
    | some (t, n) =>
      r.2.final = after Acc.exec s.final (code n) ∧ r.2.finalGot = s.finalGot ++ (reads s.final (code n)).map (t, ·) := by
  cases op with
  | call t names => exact ⟨rfl, rfl⟩
  | run t =>
    unfold step
    cases hs : s.holder with
    | some h =>
      dsimp only
      by_cases ht : h.task = t
      · rw [if_pos ht]
        exact final_goOn hs
      · rw [if_neg ht]
        exact ⟨rfl, rfl⟩
    | none =>
      dsimp only
      cases s.todo t with
      | nil => exact ⟨rfl, rfl⟩
      | cons n names =>
        unfold final finalGot
        rw [hs]
        exact ⟨rfl, rfl⟩
  | done =>
    unfold step
    cases hs : s.holder with
    | none => exact ⟨rfl, rfl⟩
    | some h =>
      obtain ⟨t, pending, left⟩ := h
      cases pending with
      | none => exact ⟨rfl, rfl⟩
      | some p =>
        unfold final finalGot
        rw [hs]
        exact ⟨rfl, rfl⟩

/-! ## The order -/

/-- The sections whose locks were taken, in this order. -/
def taken (code : σ → List (Acc ι ρ ω)) (s : Indirect T σ ι ρ ω) (ops : List (IndirectOp T σ)) : List (T × σ) :=
  (outs (step code) s ops).filterMap Prod.snd

/-- What a task has called for. -/
def called (t : T) (ops : List (IndirectOp T σ)) : List σ :=
  ops.flatMap fun
    | .call u names => if u = t then names else []
    | _ => []

theorem taken_cons (s : Indirect T σ ι ρ ω) (op : IndirectOp T σ) (ops : List (IndirectOp T σ)) :
    taken code s (op :: ops) = (step code s op).1.toList ++ taken code (step code s op).2 ops := by
  unfold taken
  rw [outs, List.filterMap_cons]
  cases (step code s op).1 <;> rfl

/-- The sections of a task. -/
def ofTask (t : T) (xs : List (T × σ)) : List σ := xs.filterMap fun x => if x.1 = t then some x.2 else none

theorem ofTask_append (t : T) (xs ys : List (T × σ)) : ofTask t (xs ++ ys) = ofTask t xs ++ ofTask t ys :=
  List.filterMap_append

omit [DecidableEq T] [DecidableEq ι] in
theorem todo_goOn (s : Indirect T σ ι ρ ω) (h : LockHolder T ι ρ ω) : (s.goOn h).todo = s.todo := by
  obtain ⟨u, pending, left⟩ := h
  unfold goOn
  cases pending with
  | some p => rfl
  | none =>
    cases left with
    | nil => rfl
    | cons a left => cases a <;> rfl

/-- What is taken is no longer to be done. -/
theorem todo_step (s : Indirect T σ ι ρ ω) (op : IndirectOp T σ) (t : T) :
    ofTask t (step code s op).1.toList ++ (step code s op).2.todo t = s.todo t ++ called t [op] := by
  cases op with
  | call u names =>
    show Function.update s.todo u (s.todo u ++ names) t = _
    by_cases ht : u = t
    · subst ht
      simp [called]
    · simp [called, ht, Function.update_of_ne (Ne.symm ht)]
  | run u =>
    show _ = s.todo t ++ []
    rw [List.append_nil, step]
    cases s.holder with
    | some h =>
      dsimp only
      split
      · rw [todo_goOn]
        rfl
      · rfl
    | none =>
      cases hu : s.todo u with
      | nil => rfl
      | cons n names =>
        show ofTask t [(u, n)] ++ Function.update s.todo u names t = _
        by_cases ht : u = t
        · subst ht
          simp [ofTask, hu]
        · simp [ofTask, ht, Function.update_of_ne (Ne.symm ht)]
  | done =>
    show _ = s.todo t ++ []
    rw [List.append_nil, step]
    cases s.holder with
    | none => rfl
    | some h =>
      obtain ⟨u, pending, left⟩ := h
      cases pending <;> rfl

/-- What is taken, and what is still to be done, was to be done or is called for. -/
theorem mem_of_step (s : Indirect T σ ι ρ ω) (op : IndirectOp T σ) {t : T} {n : σ}
    (h : (step code s op).1 = some (t, n) ∨ n ∈ (step code s op).2.todo t) : n ∈ s.todo t ∨ n ∈ called t [op] := by
  rw [← List.mem_append, ← todo_step code, List.mem_append]
  refine h.imp_left fun hout => ?_
  rw [hout]
  exact List.mem_filterMap.2 ⟨(t, n), List.mem_singleton_self _, if_pos rfl⟩

/-- A step that is not a call takes the next section of a task from those to be done, or
leaves them. -/
theorem step_cases (s : Indirect T σ ι ρ ω) {op : IndirectOp T σ} (h : ∀ t names, op ≠ .call t names) :
    ((step code s op).1 = none ∧ (step code s op).2.todo = s.todo) ∨
      ∃ t n names, (step code s op).1 = some (t, n) ∧ s.todo t = n :: names ∧
        (step code s op).2.todo = Function.update s.todo t names := by
  cases op with
  | call t names => exact absurd rfl (h t names)
  | run t =>
    rw [step]
    cases s.holder with
    | some h =>
      refine .inl ⟨rfl, ?_⟩
      dsimp only
      split
      · exact todo_goOn s h
      · rfl
    | none =>
      cases ht : s.todo t with
      | nil => exact .inl ⟨rfl, rfl⟩
      | cons n names => exact .inr ⟨t, n, names, rfl, ht, rfl⟩
  | done =>
    rw [step]
    cases s.holder with
    | none => exact .inl ⟨rfl, rfl⟩
    | some h =>
      obtain ⟨u, pending, left⟩ := h
      cases pending <;> exact .inl ⟨rfl, rfl⟩

/-- **Each task does its sections in order**, and each once. -/
theorem taken_append_todo (s : Indirect T σ ι ρ ω) (ops : List (IndirectOp T σ)) (t : T) :
    ofTask t (taken code s ops) ++ (after (step code) s ops).todo t = s.todo t ++ called t ops := by
  induction ops generalizing s with
  | nil => exact (List.append_nil _).symm
  | cons op ops ih =>
    rw [taken_cons, ofTask_append, List.append_assoc, after_cons, ih, ← List.append_assoc, todo_step code, List.append_assoc]
    exact congrArg (s.todo t ++ ·) (List.flatMap_append : ([op] ++ ops).flatMap _ = _).symm

end Indirect

/-! ## Meaning -/

/-- The sections do to the registers of `regsOf` what `spec` says. -/
structure Implements (code : σ → List (Acc ι ρ ω)) (regsOf : C → ι → ρ) (spec : C → σ → List ω × C) : Prop where
  regs : ∀ (b : Bank ι ρ) c n, b.regs = regsOf c → (after Acc.exec b (code n)).regs = regsOf (spec c n).2
  reads : ∀ (b : Bank ι ρ) c n, b.regs = regsOf c → reads b (code n) = (spec c n).1

/-- The meaning of the section of a task. -/
def byTask (spec : C → σ → List ω × C) (c : C) (x : T × σ) : List (T × ω) × C :=
  ((spec c x.2).1.map (x.1, ·), (spec c x.2).2)

variable {code}

/-- **The sections are serial** in any interleaving. -/
theorem Implements.serial {regsOf : C → ι → ρ} {spec : C → σ → List ω × C} (h : Implements code regsOf spec)
    {s : Indirect T σ ι ρ ω} {c : C} (hc : s.final.regs = regsOf c) (ops : List (IndirectOp T σ)) :
    let r := after (Indirect.step code) s ops
    let taken := Indirect.taken code s ops
    r.final.regs = regsOf (after (byTask spec) c taken) ∧
      r.finalGot = s.finalGot ++ (outs (byTask spec) c taken).flatMap Prod.snd := by
  induction ops generalizing s c with
  | nil => exact ⟨hc, (List.append_nil _).symm⟩
  | cons op ops ih =>
    intro r taken
    have htaken : taken = _ := Indirect.taken_cons code s op ops
    have hr : r = after (Indirect.step code) (Indirect.step code s op).2 ops := rfl
    have hstep := Indirect.final_step code s op
    rw [htaken, hr]
    generalize Indirect.step code s op = r' at hstep ⊢
    obtain ⟨x, s'⟩ := r'
    cases x with
    | none =>
      obtain ⟨hfinal, hgot⟩ := hstep
      have := ih (s := s') (c := c) (hfinal ▸ hc)
      rw [hgot] at this
      exact this
    | some x =>
      obtain ⟨t, n⟩ := x
      obtain ⟨hfinal, hgot⟩ := hstep
      dsimp only at hfinal hgot
      have hc' : s'.final.regs = regsOf (spec c n).2 := hfinal ▸ h.regs s.final c n hc
      obtain ⟨hregs, hreads⟩ := ih hc'
      rw [hgot, h.reads s.final c n hc, List.append_assoc] at hreads
      exact ⟨hregs, hreads⟩

/-! ## Updates -/

/-- A register is read into the window, changed there, and written back. -/
def updateOf (i : ι) (fs : List (ρ → ρ)) : List (Acc ι ρ ω) :=
  .transfer false i :: fs.map Acc.set ++ [.transfer true i]

theorem after_sets (fs : List (ρ → ρ)) (b : Bank ι ρ) :
    after Acc.exec b (fs.map (Acc.set (ω := ω))) = { b with win := fs.foldl (fun w f => f w) b.win } := by
  induction fs generalizing b with
  | nil => rfl
  | cons f fs ih =>
    rw [List.map_cons, after_cons, ih]
    rfl

/-- Nothing is read by it. -/
def Acc.silent : Acc ι ρ ω → Bool
  | .get _ => false
  | _ => true

theorem reads_silent {as : List (Acc ι ρ ω)} (h : ∀ a ∈ as, a.silent = true) (b : Bank ι ρ) : reads b as = [] := by
  induction as generalizing b with
  | nil => rfl
  | cons a as ih =>
    obtain ⟨ha, has⟩ := List.forall_mem_cons.1 h
    cases a with
    | transfer write i => exact ih has _
    | set f => exact ih has _
    | get g => exact nomatch ha

theorem regs_updateOf (i : ι) (fs : List (ρ → ρ)) (b : Bank ι ρ) :
    (after Acc.exec b (updateOf (ω := ω) i fs)).regs =
      Function.update b.regs i (fs.foldl (fun w f => f w) (b.regs i)) := by
  have hsets : after Acc.exec b (.transfer false i :: fs.map (Acc.set (ω := ω))) = _ := after_sets fs (b.transfer false i)
  rw [updateOf, after_append, hsets]
  rfl

theorem reads_updateOf (i : ι) (fs : List (ρ → ρ)) (b : Bank ι ρ) : reads b (updateOf (ω := ω) i fs) = [] := by
  refine reads_silent (fun a ha => ?_) b
  simp only [updateOf, List.cons_append, List.mem_cons, List.mem_append, List.mem_map, List.not_mem_nil, or_false] at ha
  obtain rfl | ⟨_, _, rfl⟩ | rfl := ha <;> rfl

/-- Parts each of which gives one register a value. -/
theorem regs_flatMap {α : Type*} {part : α → List (Acc ι ρ ω)} {key : α → ι} {val : α → ρ}
    (h : ∀ x (b : Bank ι ρ), (after Acc.exec b (part x)).regs = Function.update b.regs (key x) (val x)) (xs : List α)
    (b : Bank ι ρ) :
    (after Acc.exec b (xs.flatMap part)).regs = xs.foldl (fun r x => Function.update r (key x) (val x)) b.regs := by
  induction xs generalizing b with
  | nil => rfl
  | cons x xs ih => rw [List.flatMap_cons, after_append, ih, h, List.foldl_cons]

end TsnSwitch.Lib
