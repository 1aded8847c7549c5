/-
The scheduler's lock. Every call takes it, and so does the delayed work when
its timer has expired. In PENDING_DELAYED a configuration change and a gate
disable wait for the work with the lock held, and do not return if the work
waits for the lock by then (`noStuck_iff`, `stuck_forever`).

The handlers are the same text in edge_sched.c and edge_st_fsc.c.
-/
import TsnSwitch.Lib.Locks
import TsnSwitch.Lib.Run
import TsnSwitch.Sched.Machine

namespace TsnSwitch.Sched

open Lib

/-- What is done with the lock held. -/
inductive Work where
  | call (op : Op)
  /-- A call that has cancelled the delayed work, from there on. -/
  | finish (op : Op)
  | pendingDelayed (env : Env)

abbrev LockTodo := List (Act Tid Unit Work)

abbrev LockSys := Sys Tid Unit EdgxSched Work

def Op.isCall : Op → Bool
  | .pendingDelayed _ => false
  | .hwEvents _ => false
  | _ => true

/-- A call that gets to `cancel_delayed_work_sync`. -/
def Cancels (s : EdgxSched) : Op → Prop
  | .setConfigChange configChange _ => s.state = .pendingDelayed ∧ configChange = true
  | .setGateEnabled enabled _ => s.state = .pendingDelayed ∧ enabled = false
  | _ => False

instance (s : EdgxSched) (op : Op) : Decidable (Cancels s op) := by
  cases op <;> unfold Cancels <;> infer_instance

/-- `cancel_delayed_work_sync` stops the timer, and then waits for the work. -/
def lockExec (V : Variant) (com : Com) (s : EdgxSched) : Work → Option (EdgxSched × LockTodo)
  | .call op =>
    if Cancels s op then some ({ s with armed := false }, [.await .worker, .body (.finish op)])
    else some ((step V com s op).2, [])
  | .finish op => some ((step V com s op).2, [])
  | .pendingDelayed env => some ((edgxSchedStmCfgChange V com env { s.withEnv env with state := .idle }).2, [])

def callTodo (op : Op) : LockTodo := [.lock (), .body (.call op), .unlock ()]

def workTodo (env : Env) : LockTodo := [.lock (), .body (.pendingDelayed env), .unlock ()]

inductive LockOp where
  | call (n : Nat) (op : Op)
  /-- The timer of the delayed work expires. -/
  | expire (env : Env)
  | run (t : Tid)
  | hwEvents (evs : List HwEv)

/-- The work is not started again before it has returned. -/
def lockStep (V : Variant) (com : Com) (s : LockSys) : LockOp → Unit × LockSys
  | .call n op => ((), if op.isCall then s.start (.user n) (callTodo op) else s)
  | .expire env =>
    ((), if s.data.armed && (s.todo .worker).isEmpty then
        { s.start .worker (workTodo env) with data := { s.data with armed := false } }
      else s)
  | .run t => ((), s.run (lockExec V com) t)
  | .hwEvents evs => ((), { s with data := (step V com s.data (.hwEvents evs)).2 })

def lockInit (gateStates : BitVec 8) : LockSys := { data := init gateStates }

/-- A call waits for the work with the lock held, and the work waits for the
lock. -/
def Stuck (s : LockSys) : Prop :=
  ∃ n as, s.todo (.user n) = .await .worker :: as ∧ s.holder () = some (.user n) ∧ s.wants .worker = some ()

/-- No call gets to the cancellation when the timer has expired and the work
waits for the lock. -/
def NoOverlap (s : LockSys) : LockOp → Prop
  | .run t => ∀ op as, s.todo t = .body (.call op) :: as → Cancels s.data op → s.wants .worker ≠ some ()
  | _ => True

/-! ## Where the tasks are -/

/-- What a task has left to do. -/
inductive Pc : Tid → LockTodo → Prop where
  | ended (t) : Pc t []
  | entered (n op) : Pc (.user n) (callTodo op)
  | calls (n op) : Pc (.user n) [.body (.call op), .unlock ()]
  | cancels (n op) : Pc (.user n) [.await .worker, .body (.finish op), .unlock ()]
  | finishes (n op) : Pc (.user n) [.body (.finish op), .unlock ()]
  | expired (env) : Pc .worker (workTodo env)
  | works (env) : Pc .worker [.body (.pendingDelayed env), .unlock ()]
  | unlocks (t) : Pc t [.unlock ()]

/-- With actions left, and the lock not the first of them, the lock is held. -/
def Locked : LockTodo → Prop
  | [] => False
  | .lock _ :: _ => False
  | _ => True

def AtPc (t : Tid) (h : Set Unit) (as : LockTodo) : Prop := Pc t as ∧ (() ∈ h ↔ Locked as)

section Exec

variable (V : Variant) (com : Com) {s : EdgxSched} {op : Op}

theorem lockExec_cancels (h : Cancels s op) :
    lockExec V com s (.call op) = some ({ s with armed := false }, [.await .worker, .body (.finish op)]) := if_pos h

theorem lockExec_call (h : ¬ Cancels s op) : lockExec V com s (.call op) = some ((step V com s op).2, []) := if_neg h

theorem lockExec_keeps : Keeps (lockExec V com) AtPc where
  lock := fun t h l as ⟨hpc, _⟩ _ => by
    have hm : () ∈ insert l h := Set.mem_insert ..
    cases hpc with
    | entered n op => exact ⟨.calls n op, iff_of_true hm True.intro⟩
    | expired env => exact ⟨.works env, iff_of_true hm True.intro⟩
  unlock := fun t h l as ⟨hpc, _⟩ => by
    cases hpc with
    | unlocks => exact ⟨.ended t, iff_of_false (fun hm => hm.2 rfl) id⟩
  body := fun t h b as data data' more ⟨hpc, hh⟩ hb => by
    have hm : () ∈ h := hh.2 True.intro
    have hunlock : AtPc t h [.unlock ()] := ⟨.unlocks t, iff_of_true hm True.intro⟩
    cases hpc with
    | calls n op =>
      by_cases hc : Cancels data op
      · rw [lockExec_cancels V com hc] at hb
        obtain ⟨-, rfl⟩ := Prod.mk.inj (Option.some.inj hb)
        exact ⟨.cancels n op, iff_of_true hm True.intro⟩
      · rw [lockExec_call V com hc] at hb
        obtain ⟨-, rfl⟩ := Prod.mk.inj (Option.some.inj hb)
        exact hunlock
    | finishes n op =>
      obtain ⟨-, rfl⟩ := Prod.mk.inj (Option.some.inj hb)
      exact hunlock
    | works env =>
      obtain ⟨-, rfl⟩ := Prod.mk.inj (Option.some.inj hb)
      exact hunlock
  await := fun t h u as ⟨hpc, hh⟩ => by
    have hm : () ∈ h := hh.2 True.intro
    cases hpc with
    | cancels n op => exact ⟨.finishes n op, iff_of_true hm True.intro⟩

end Exec

/-- A call that waits for the work has stopped the timer. -/
structure LockInv (s : LockSys) : Prop where
  atPc : ∀ t, AtPc t (s.held t) (s.todo t)
  stopped : ∀ t as, s.todo t = .await .worker :: as → s.data.armed = false

namespace LockInv

variable {V : Variant} {com : Com} {s : LockSys}

theorem holder (h : LockInv s) {t : Tid} (ht : Locked (s.todo t)) : s.holder () = some t := (h.atPc t).2.2 ht

/-- Only the task with the lock is past it. -/
theorem alone (h : LockInv s) {t u : Tid} (ht : Locked (s.todo t)) (hu : Locked (s.todo u)) : t = u :=
  Option.some.inj ((h.holder ht).symm.trans (h.holder hu))

theorem start (h : LockInv s) {t : Tid} {as : LockTodo} (hpc : Pc t as) (hl : ¬ Locked as)
    (haw : ∀ bs, as ≠ .await .worker :: bs) : LockInv (s.start t as) := by
  refine ⟨Keeps.start h.atPc fun hend => ⟨hpc, iff_of_false (fun hm => hend.2.1 hm) hl⟩, fun u bs hu => ?_⟩
  by_cases hidle : s.todo t = []
  · rw [start_idle hidle] at hu ⊢
    rcases eq_or_ne u t with rfl | hne
    · simp only [Function.update_self] at hu
      exact absurd hu (haw bs)
    · simp only [Function.update_of_ne hne] at hu
      exact h.stopped u bs hu
  · rw [start_busy hidle] at hu ⊢
    exact h.stopped u bs hu

/-- A step leaves a task waiting if it was before, or by a cancellation. -/
theorem run_cases (h : LockInv s) (V : Variant) (com : Com) (t : Tid) :
    s.run (lockExec V com) t = s ∨
    ((s.run (lockExec V com) t).wants t = none ∧ ∀ as, (s.run (lockExec V com) t).todo t ≠ .await .worker :: as) ∨
    ∃ n op as, t = .user n ∧ s.todo t = .body (.call op) :: as ∧ Cancels s.data op := by
  have hpc := (h.atPc t).1
  generalize hto : s.todo t = todo at hpc
  unfold Sys.wants
  cases hpc with
  | ended => exact .inl (run_nil hto)
  | entered n op =>
    by_cases hl : s.holder () = none
    · rw [todo_lock hto hl]
      exact .inr (.inl ⟨rfl, fun _ he => nomatch he⟩)
    · exact .inl (run_locked hto hl)
  | calls n op =>
    by_cases hc : Cancels s.data op
    · exact .inr (.inr ⟨n, op, _, rfl, rfl, hc⟩)
    · rw [todo_body hto (lockExec_call V com hc)]
      exact .inr (.inl ⟨rfl, fun _ he => nomatch he⟩)
  | cancels n op =>
    by_cases hw : s.todo .worker = []
    · rw [todo_await hto hw]
      exact .inr (.inl ⟨rfl, fun _ he => nomatch he⟩)
    · exact .inl (run_awaiting hto hw)
  | finishes n op =>
    rw [todo_body hto rfl]
    exact .inr (.inl ⟨rfl, fun _ he => nomatch he⟩)
  | expired env =>
    by_cases hl : s.holder () = none
    · rw [todo_lock hto hl]
      exact .inr (.inl ⟨rfl, fun _ he => nomatch he⟩)
    · exact .inl (run_locked hto hl)
  | works env =>
    rw [todo_body hto rfl]
    exact .inr (.inl ⟨rfl, fun _ he => nomatch he⟩)
  | unlocks =>
    rw [todo_unlock hto]
    exact .inr (.inl ⟨rfl, fun _ he => nomatch he⟩)

theorem run (h : LockInv s) (t : Tid) : LockInv (s.run (lockExec V com) t) := by
  refine ⟨(lockExec_keeps V com).run h.atPc t, fun u as hu => ?_⟩
  rcases eq_or_ne u t with rfl | hne
  · rcases h.run_cases V com u with he | ⟨-, hna⟩ | ⟨n, op, bs, -, ht, hc⟩
    · rw [he] at hu ⊢
      exact h.stopped u as hu
    · exact absurd hu (hna as)
    · rw [run_body ht (lockExec_cancels V com hc)]
  · rw [(run_frame _ s t).1 u hne] at hu
    have hul : Locked (s.todo u) := by rw [hu]; exact True.intro
    rw [data_run fun b bs ht => hne (h.alone hul (by rw [ht]; exact True.intro))]
    exact h.stopped u as hu

theorem step (h : LockInv s) (op : LockOp) : LockInv (lockStep V com s op).2 := by
  cases op with
  | call n op =>
    simp only [lockStep]
    split
    · exact h.start (.entered n op) id fun bs he => nomatch he
    · exact h
  | expire env =>
    simp only [lockStep]
    split
    · have hs := h.start (.expired env) id fun bs he => nomatch he
      exact ⟨hs.atPc, fun _ _ _ => rfl⟩
    · exact h
  | run t => exact h.run t
  | hwEvents evs => exact ⟨h.atPc, h.stopped⟩

end LockInv

theorem lockInit_inv (gateStates : BitVec 8) : LockInv (lockInit gateStates) where
  atPc := fun t => ⟨.ended t, iff_of_false (fun h => nomatch h) id⟩
  stopped := fun _ _ h => nomatch h

/-! ## Stuck calls -/

theorem worker_ne (n : Nat) : Tid.worker ≠ .user n := fun h => nomatch h

section Stuck

variable {V : Variant} {com : Com} {s : LockSys}

/-- **A call that cancels while the work waits for the lock is stuck, and
nothing else is.** -/
theorem stuck_run (h : LockInv s) (hs : ¬ Stuck s) (t : Tid) :
    ¬ Stuck (s.run (lockExec V com) t) ↔ NoOverlap s (.run t) := by
  constructor
  · intro hn op as ht hc hw
    have hpc := (h.atPc t).1
    have hl := h.holder (t := t) (by rw [ht]; exact True.intro)
    rw [ht] at hpc
    cases hpc with
    | calls n op =>
      refine hn ⟨n, [.body (.finish op), .unlock ()], ?_, ?_, ?_⟩
      · simp only [run_body ht (lockExec_cancels V com hc), Function.update_self]
        rfl
      · rw [run_body ht (lockExec_cancels V com hc)]
        exact hl
      · rw [wants_run s (worker_ne n)]
        exact hw
  · rintro hno ⟨m, as, hm, hl, hw⟩
    rcases eq_or_ne t (.user m) with rfl | hne
    · rcases h.run_cases V com (.user m) with he | ⟨-, hna⟩ | ⟨n, op, bs, -, ht, hc⟩
      · rw [he] at hm hl hw
        exact hs ⟨m, as, hm, hl, hw⟩
      · exact hna as hm
      · rw [wants_run s (worker_ne m)] at hw
        exact hno op bs ht hc hw
    · have hm' : s.todo (.user m) = .await .worker :: as := ((run_frame _ s t).1 _ hne.symm).symm.trans hm
      have hl' : s.holder () = some (.user m) := ((run_frame _ s t).2 () _ hne.symm).1 hl
      rcases eq_or_ne t .worker with rfl | hw'
      · rcases h.run_cases V com .worker with he | ⟨hnone, -⟩ | ⟨n, op, bs, hworker, -, -⟩
        · rw [he] at hw
          exact hs ⟨m, as, hm', hl', hw⟩
        · exact nomatch hnone.symm.trans hw
        · exact worker_ne n hworker
      · rw [wants_run s hw'.symm] at hw
        exact hs ⟨m, as, hm', hl', hw⟩

theorem stuck_step (h : LockInv s) (hs : ¬ Stuck s) (op : LockOp) :
    ¬ Stuck (lockStep V com s op).2 ↔ NoOverlap s op := by
  cases op with
  | run t => exact stuck_run h hs t
  | hwEvents evs => exact iff_of_true hs True.intro
  | call n op =>
    refine iff_of_true ?_ True.intro
    simp only [lockStep]
    split
    · rintro ⟨m, as, hm, hl, hw⟩
      by_cases hidle : s.todo (.user n) = []
      · rw [start_idle hidle] at hm hl hw
        simp only [Sys.wants, Function.update_of_ne (worker_ne n)] at hw
        rcases eq_or_ne m n with rfl | hmn
        · simp only [Function.update_self] at hm
          exact nomatch hm
        · simp only [Function.update_of_ne fun he => hmn (Tid.user.inj he)] at hm
          exact hs ⟨m, as, hm, hl, hw⟩
      · rw [start_busy hidle] at hm hl hw
        exact hs ⟨m, as, hm, hl, hw⟩
    · exact hs
  | expire env =>
    refine iff_of_true ?_ True.intro
    simp only [lockStep]
    split
    · rename_i hexp
      obtain ⟨harmed, hidle⟩ := Bool.and_eq_true_iff.1 hexp
      rintro ⟨m, as, hm, hl, hw⟩
      have hm' : s.todo (.user m) = .await .worker :: as := (todo_start s _ (worker_ne m).symm).symm.trans hm
      exact absurd ((h.stopped _ as hm').symm.trans harmed) Bool.false_ne_true
    · exact hs

/-- **The scheduler's lock: no call is stuck exactly in the runs in which none
cancels the delayed work when its timer has expired and it waits for the
lock.** -/
theorem noStuck_iff (u : User) (com : Com) (gateStates : BitVec 8) (ops : List LockOp) :
    (∀ pre suf, ops = pre ++ suf → ¬ Stuck (after (lockStep u.variant com) (lockInit gateStates) pre)) ↔
      Guarded (lockStep u.variant com) NoOverlap (lockInit gateStates) ops := by
  refine (and_iff_left fun _ _ => True.intro).symm.trans
    (holds_iff_guarded (I := fun s => ¬ Stuck s) (J := LockInv) (G := fun _ => True) (fun s op h => h.step op)
      (fun s op h hs => (and_iff_left True.intro).trans (stuck_step h hs op)) (lockInit_inv gateStates) ?_ ops)
  exact fun ⟨n, as, hn, _⟩ => nomatch hn

/-- A stuck call and the work wait for each other. -/
theorem Stuck.deadlock (h : Stuck s) : s.Deadlock := by
  obtain ⟨n, as, hn, hl, hw⟩ := h
  have hwork : s.blocker .worker = some (.user n) := by
    unfold Sys.wants Act.next at hw
    unfold Sys.blocker
    split at hw
    · rename_i bs hto
      simp only [hto, hl]
    · exact nomatch hw
  have hcall : s.blocker (.user n) = some .worker := by
    unfold Sys.blocker
    have hne : (s.todo .worker).isEmpty = false := by
      refine List.isEmpty_eq_false_iff.2 fun he => ?_
      rw [Sys.wants, he] at hw
      exact nomatch hw
    simp only [hn, hne, Bool.false_eq_true, if_false]
  exact ⟨.worker, .tail (.single hwork) hcall⟩

/-- Nothing that happens later frees a stuck call, or the work. -/
theorem stuck_forever (h : Stuck s) (ops : List LockOp) : (after (lockStep V com) s ops).Deadlock := by
  refine inv_after ops h.deadlock fun s op h => ?_
  cases op with
  | call n op =>
    simp only [lockStep]
    split
    · exact h.start ..
    · exact h
  | expire env =>
    simp only [lockStep]
    split
    · exact h.start .worker (workTodo env)
    · exact h
  | run t => exact h.run ..
  | hwEvents evs => exact h

end Stuck

/-- A user makes a call and runs it to its end. -/
def callRun (op : Op) : List LockOp := [.call 0 op, .run (.user 0), .run (.user 0), .run (.user 0)]

/-- A change that starts in 100 s is delayed. The timer expires, and the gate is
disabled before the work has the lock. -/
def overlapRun : List LockOp :=
  ([.setEntries 0 [⟨3200, 0, 0xff⟩] true, .setCtrlListLen 1, .setCycleTime ⟨1, 1000⟩, .setBaseTime ⟨100, 0⟩,
    .setGateEnabled true {}, .setConfigChange true {}] : List Op).flatMap callRun ++
  [.call 0 (.setGateEnabled false {}), .run (.user 0), .expire { curTime := ⟨64, 0⟩ }, .run (.user 0)]

theorem not_noStuck_overlapRun :
    ¬ ∀ pre suf, overlapRun = pre ++ suf → ¬ Stuck (after (lockStep portGates someCom) (lockInit 0xff) pre) :=
  fun h => h overlapRun [] (List.append_nil _).symm
    ⟨0, [.body (.finish (.setGateEnabled false {})), .unlock ()], rfl, by decide +kernel, by decide +kernel⟩

end TsnSwitch.Sched
