/-
When the config-change helper misses a signal.

The helper waits before it looks at the queue and at the user count, and does
not look at the user count again after it has processed a list. What is queued
before its first wait, and a stop that comes before its first wait or while it
processes, is therefore never seen, and a helper that is started while a stop
still waits for the one before takes that stop's place. In a run without these
the helper is never blocked with work to do, and otherwise its own steps block
it (`keepsAwake_iff`).
-/
import TsnSwitch.Sysrepo.ConfigChange

namespace TsnSwitch.Sysrepo

open Lib

variable {s : Helper} {op : Op} {t : Nat}

/-- `n` steps of one helper thread. -/
def Helper.steps (s : Helper) (t n : Nat) : Helper := after step s (List.replicate n (.thread t))

/-- No helper waits for a signal that has been sent: with a list queued or the
user count zero none is blocked on the condition variable, so that a helper
that is there empties the queue by its own steps and one that a stop waits for
ends by its own steps. What was popped and what is queued is what was pushed, in
order. -/
structure Awake (s : Helper) : Prop where
  blocked : ∀ t, s.threads t = .waiting → s.queue = [] ∧ s.users ≠ 0
  taken : ∀ t, s.threads t ≠ .ended → ∃ n, (s.steps t n).queue = []
  stopped : ∀ t, .joining t ∈ s.stops → ∃ n, (s.steps t n).threads t = .ended
  inOrder : s.popped ++ s.queue = s.pushed

/-- And so it stays whatever the threads do next. -/
def KeepsAwake (s : Helper) : Prop := ∀ ops : List Op, (∀ op ∈ ops, op.isInternal = true) → Awake (after step s ops)

/-- A helper is created only when the one before has ended, no stop has yet to
wait for it, and the queue is empty; the last user leaves only while the helper
waits or has been signalled; and no list is queued before the helper's first
wait. The user count does not overflow. -/
def Timely (s : Helper) : Op → Prop
  | .start ok =>
    if s.users = 0 then ok = true → s.threads s.thread = .ended ∧ .signalled ∉ s.stops ∧ s.queue = []
    else s.users + 1 ≠ 0
  | .stop _ => s.users = 1 → s.threads s.thread = .waiting ∨ s.threads s.thread = .woken
  | .enqueue list allocOk _ => triggerAny list = true → allocOk = true → s.threads s.thread ≠ .created
  | _ => True

/-- The user count is no more than an `unsigned int` holds. -/
def NoWrap (s : Helper) : Op → Prop
  | .start _ => s.users + 1 ≠ 0
  | _ => True

/-! ## Steps -/

@[simp] theorem setPc_users (s : Helper) (t : Nat) (pc : Pc) : (s.setPc t pc).users = s.users := rfl

@[simp] theorem setPc_queue (s : Helper) (t : Nat) (pc : Pc) : (s.setPc t pc).queue = s.queue := rfl

@[simp] theorem setPc_stops (s : Helper) (t : Nat) (pc : Pc) : (s.setPc t pc).stops = s.stops := rfl

@[simp] theorem setPc_thread (s : Helper) (t : Nat) (pc : Pc) : (s.setPc t pc).thread = s.thread := rfl

@[simp] theorem setPc_self (s : Helper) (t : Nat) (pc : Pc) : (s.setPc t pc).threads t = pc := Function.update_self ..

theorem steps_zero (s : Helper) (t : Nat) : s.steps t 0 = s := rfl

theorem steps_succ (s : Helper) (t n : Nat) : s.steps t (n + 1) = (configChangeHelperThread s t).steps t n := rfl

theorem process_cons {list : ResetList} {queue : List ResetList} (h : s.queue = list :: queue) (t : Nat) :
    configChangeProcess s t =
      { s with queue, popped := s.popped ++ [list], threads := Function.update s.threads t (.processing list) } := by
  unfold configChangeProcess configChangeQueuePop
  rw [h]
  rfl

theorem process_nil (h : s.queue = []) (t : Nat) : configChangeProcess s t = s.setPc t .waiting := by
  unfold configChangeProcess configChangeQueuePop
  rw [h]

theorem thread_created (h : s.threads t = .created) : configChangeHelperThread s t = s.setPc t .waiting := by
  unfold configChangeHelperThread
  rw [h]

theorem thread_processing {list : ResetList} (h : s.threads t = .processing list) :
    configChangeHelperThread s t = configChangeProcess s t := by
  unfold configChangeHelperThread
  rw [h]

theorem thread_ends (h : s.threads t = .woken) (hu : s.users = 0) :
    configChangeHelperThread s t = (configChangeQueueClear s).setPc t .ended := by
  unfold configChangeHelperThread
  rw [h]
  exact if_pos hu

/-- A woken helper that is still used goes on with the queue. -/
theorem thread_woken (h : s.threads t = .woken) (hu : s.users ≠ 0) :
    configChangeHelperThread s t = configChangeProcess s t := by
  unfold configChangeHelperThread
  rw [h]
  simp only [if_neg hu]
  split
  · rename_i hq
    exact (process_nil (List.isEmpty_iff.1 hq) t).symm
  · rfl

theorem thread_idle (h : s.threads t = .waiting ∨ s.threads t = .ended) : configChangeHelperThread s t = s := by
  unfold configChangeHelperThread
  rcases h with h | h <;> rw [h]

/-- **A helper that processes goes on until the queue is empty, and waits.** -/
theorem steps_processing {list : ResetList} (h : s.threads t = .processing list) :
    ∃ n, (s.steps t n).queue = [] ∧ (s.steps t n).threads t = .waiting ∧ (s.steps t n).users = s.users := by
  generalize hq : s.queue = queue
  induction queue generalizing s list with
  | nil =>
    refine ⟨1, ?_⟩
    rw [steps_succ, steps_zero, thread_processing h, process_nil hq]
    exact ⟨hq, setPc_self .., rfl⟩
  | cons next queue ih =>
    have hstep := process_cons hq t
    obtain ⟨n, hqueue, hpc, husers⟩ := ih (s := configChangeProcess s t)
      (by rw [hstep]; exact Function.update_self ..) (by rw [hstep])
    refine ⟨n + 1, ?_⟩
    rw [steps_succ, thread_processing h]
    exact ⟨hqueue, hpc, husers.trans (by rw [hstep])⟩

/-! ## The invariant of timely runs -/

/-- What is known when the last helper is at `pc`. -/
def Pc.Fits (users : BitVec 32) (queue : List ResetList) : Pc → Prop
  | .created => queue = [] ∧ users ≠ 0
  | .waiting => queue = [] ∧ users ≠ 0
  | .woken => True
  | .processing _ => users ≠ 0
  | .ended => users = 0

/-- All helpers but the last have ended, and a stop waits for the last one only
when there is no user. -/
structure Inv (s : Helper) : Prop where
  last : ∀ t, t ≠ s.thread → s.threads t = .ended
  fits : (s.threads s.thread).Fits s.users s.queue
  signalled : .signalled ∈ s.stops → s.users = 0
  joining : ∀ t, .joining t ∈ s.stops → t ≤ s.thread ∧ (t = s.thread → s.users = 0)
  stopper : s.users = 0 → s.threads s.thread ≠ .ended → .signalled ∈ s.stops ∨ .joining s.thread ∈ s.stops
  inOrder : s.popped ++ s.queue = s.pushed

theorem inv_init : Inv {} where
  last := fun _ _ => rfl
  fits := rfl
  signalled := fun h => nomatch h
  joining := fun _ h => nomatch h
  stopper := fun _ h => absurd rfl h
  inOrder := rfl

theorem Inv.eq_last (h : Inv s) (ht : s.threads t ≠ .ended) : t = s.thread := by
  by_contra hne
  exact ht (h.last t hne)

theorem condSignal_eq (hlast : ∀ t, t ≠ s.thread → s.threads t = .ended) (w : Nat) :
    condSignal s w = if s.threads s.thread = .waiting then s.setPc s.thread .woken else s := by
  unfold condSignal
  split
  · rename_i t hfind
    have ht : s.threads t = .waiting := by simpa using List.find?_some hfind
    have heq : t = s.thread := by
      by_contra hne
      exact nomatch (hlast t hne).symm.trans ht
    rw [← heq, if_pos ht]
  · rename_i hfind
    have hnot := List.find?_eq_none.1 hfind s.thread
      (List.mem_cons_of_mem w (List.mem_range.2 (Nat.lt_succ_self s.thread)))
    rw [if_neg fun h => hnot (decide_eq_true h)]

/-- The last helper moves, and the queue with it. -/
theorem Inv.move (h : Inv s) {pc : Pc} {queue popped pushed : List ResetList} (hfits : pc.Fits s.users queue)
    (hlive : pc ≠ .ended → s.threads s.thread ≠ .ended) (hord : popped ++ queue = pushed) :
    Inv { s with threads := Function.update s.threads s.thread pc, queue, popped, pushed } where
  last := fun t ht => (Function.update_of_ne ht ..).trans (h.last t ht)
  fits := by
    simp only [Function.update_self]
    exact hfits
  signalled := h.signalled
  joining := h.joining
  stopper := by
    simp only [Function.update_self]
    exact fun hu hpc => h.stopper hu (hlive hpc)
  inOrder := hord

theorem Inv.setPc (h : Inv s) {pc : Pc} (hfits : pc.Fits s.users s.queue) (hlive : s.threads s.thread ≠ .ended) :
    Inv (s.setPc s.thread pc) := h.move hfits (fun _ => hlive) h.inOrder

theorem Inv.process (h : Inv s) (hu : s.users ≠ 0) (hlive : s.threads s.thread ≠ .ended) :
    Inv (configChangeProcess s s.thread) := by
  rcases hq : s.queue with _ | ⟨list, queue⟩
  · rw [process_nil hq]
    exact h.setPc ⟨hq, hu⟩ hlive
  · rw [process_cons hq]
    refine h.move hu (fun _ => hlive) ?_
    rw [List.append_assoc, List.singleton_append, ← hq]
    exact h.inOrder

theorem inv_thread (h : Inv s) (t : Nat) : Inv (configChangeHelperThread s t) := by
  rcases eq_or_ne t s.thread with rfl | ht
  · have hfits := h.fits
    cases hpc : s.threads s.thread with
    | created =>
      rw [hpc] at hfits
      rw [thread_created hpc]
      exact h.setPc hfits fun he => nomatch hpc.symm.trans he
    | waiting =>
      rw [thread_idle (.inl hpc)]
      exact h
    | woken =>
      have hlive : s.threads s.thread ≠ .ended := fun he => nomatch hpc.symm.trans he
      by_cases hu : s.users = 0
      · rw [thread_ends hpc hu]
        exact h.move hu (fun he => absurd rfl he) ((List.append_nil _).trans h.inOrder)
      · rw [thread_woken hpc hu]
        exact h.process hu hlive
    | processing list =>
      rw [hpc] at hfits
      rw [thread_processing hpc]
      exact h.process hfits fun he => nomatch hpc.symm.trans he
    | ended =>
      rw [thread_idle (.inr hpc)]
      exact h
  · rw [thread_idle (.inr (h.last t ht))]
    exact h

theorem inv_wakeup (h : Inv s) (t : Nat) : Inv (step s (.wakeup t)).2 := by
  simp only [step]
  split
  · rename_i hpc
    have hlive : s.threads t ≠ .ended := fun he => nomatch hpc.symm.trans he
    obtain rfl := h.eq_last hlive
    exact h.setPc True.intro hlive
  · exact h

/-- A member stays in the list when another one is replaced. -/
theorem mem_set_of_ne {α : Type*} {l : List α} {k : Nat} {a b : α} (hk : l[k]? = some b) (ha : a ∈ l) (hne : a ≠ b)
    (c : α) : a ∈ l.set k c := by
  obtain ⟨i, hi⟩ := List.mem_iff_getElem?.1 ha
  have hki : k ≠ i := by
    rintro rfl
    exact hne (Option.some.inj (hi.symm.trans hk))
  exact List.mem_of_getElem? ((List.getElem?_set_ne hki).trans hi)

theorem inv_join (h : Inv s) (k : Nat) : Inv (pthreadJoin s k) := by
  unfold pthreadJoin
  split
  · rename_i hk
    have hu := h.signalled (List.mem_of_getElem? hk)
    have hmem : StopPc.joining s.thread ∈ s.stops.set k (.joining s.thread) :=
      List.mem_set (List.getElem?_eq_some_iff.1 hk).1 _
    refine { h with signalled := fun _ => hu, joining := fun t ht => ?_, stopper := fun _ _ => .inr hmem }
    rcases List.mem_or_eq_of_mem_set ht with ht | ht
    · exact h.joining t ht
    · obtain rfl := StopPc.joining.inj ht
      exact ⟨le_rfl, fun _ => hu⟩
  · rename_i t hk
    split
    · rename_i hended
      have hkeep : ∀ {pc}, pc ∈ s.stops.set k .returned → pc ≠ .returned → pc ∈ s.stops := fun hpc hne =>
        (List.mem_or_eq_of_mem_set hpc).resolve_right hne
      refine
        { h with
          signalled := fun hm => h.signalled (hkeep hm fun he => nomatch he)
          joining := fun u hm => h.joining u (hkeep hm fun he => nomatch he)
          stopper := fun hu hlive => (h.stopper hu hlive).imp ?_ ?_ }
      · exact fun hm => mem_set_of_ne hk hm (fun he => nomatch he) _
      · refine fun hm => mem_set_of_ne hk hm (fun he => ?_) _
        obtain rfl := StopPc.joining.inj he
        exact hlive hended
    · exact h
  · exact h

/-- A user comes or leaves, and there is one left. -/
theorem Inv.setUsers (h : Inv s) {users : BitVec 32} (hu : s.users ≠ 0) (hne : users ≠ 0) : Inv { s with users } := by
  refine
    { h with
      fits := ?_
      signalled := fun hm => absurd (h.signalled hm) hu
      joining := fun t hm => ⟨(h.joining t hm).1, fun he => absurd ((h.joining t hm).2 he) hu⟩
      stopper := fun hz => absurd hz hne }
  have hfits := h.fits
  change Pc.Fits users s.queue (s.threads s.thread)
  cases hpc : s.threads s.thread <;> rw [hpc] at hfits
  · exact ⟨hfits.1, hne⟩
  · exact ⟨hfits.1, hne⟩
  · exact True.intro
  · exact hne
  · exact absurd hfits hu

theorem users_pos {users : BitVec 32} (h : users ≠ 0) : 0 < users := (BitVec.pos_iff_ne_zero users).2 h

theorem inv_start (h : Inv s) {ok : Bool} (ht : Timely s (.start ok)) : Inv (configChangeHelperStart s ok) := by
  unfold configChangeHelperStart
  simp only [Timely] at ht
  by_cases hu : s.users = 0
  · rw [if_neg (by rw [hu]; decide)]
    rw [if_pos hu] at ht
    split
    · rename_i hok
      obtain ⟨hended, hstops, hqueue⟩ := ht hok
      have hne : s.users + 1 ≠ 0 := by rw [hu]; decide
      exact
        { last := fun t hne => by
            refine (Function.update_of_ne hne ..).trans ?_
            rcases eq_or_ne t s.thread with rfl | ht
            · exact hended
            · exact h.last t ht
          fits := by
            simp only [Function.update_self]
            exact ⟨hqueue, hne⟩
          signalled := fun hm => absurd hm hstops
          joining := fun t hm => by
            have hle := (h.joining t hm).1
            exact ⟨Nat.le_succ_of_le hle, fun he => absurd he (Nat.ne_of_lt (Nat.lt_succ_of_le hle))⟩
          stopper := fun hz => absurd hz hne
          inOrder := h.inOrder }
    · exact h
  · rw [if_pos (users_pos hu)]
    rw [if_neg hu] at ht
    exact h.setUsers hu ht

/-- The last user leaves, and signals the helper if it waits. -/
theorem stop_one (h : Inv s) (hu : s.users = 1) (w : Nat) :
    configChangeHelperStop s w =
      { s with
        users := 0
        stops := s.stops ++ [.signalled]
        threads := if s.threads s.thread = .waiting then Function.update s.threads s.thread .woken else s.threads } := by
  have hzero : s.users - 1 = 0 := by rw [hu]; decide
  have hsignal := condSignal_eq (s := { s with users := 0 }) h.last w
  unfold configChangeHelperStop
  rw [if_neg (by rw [hu]; decide), if_neg (by rw [hu]; decide), hzero]
  simp only [hsignal]
  split <;> rfl

/-- In time, it leaves the helper woken. -/
theorem stop_last (h : Inv s) (hu : s.users = 1) (ht : s.threads s.thread = .waiting ∨ s.threads s.thread = .woken)
    (w : Nat) :
    configChangeHelperStop s w =
      { s with
        users := 0
        stops := s.stops ++ [.signalled]
        threads := Function.update s.threads s.thread .woken } := by
  rw [stop_one h hu]
  rcases ht with ht | ht
  · rw [if_pos ht]
  · rw [if_neg (by rw [ht]; exact fun he => nomatch he), ← ht, Function.update_eq_self]

theorem inv_stop (h : Inv s) {w : Nat} (ht : Timely s (.stop w)) : Inv (configChangeHelperStop s w) := by
  by_cases hu : s.users = 1
  · have hpc := ht hu
    rw [stop_last h hu hpc]
    have hlive : s.threads s.thread ≠ .ended := by rcases hpc with hpc | hpc <;> rw [hpc] <;> exact fun he => nomatch he
    exact
      { last := fun t ht => (Function.update_of_ne ht ..).trans (h.last t ht)
        fits := by
          simp only [Function.update_self]
          exact True.intro
        signalled := fun _ => rfl
        joining := fun t hm => by
          rcases List.mem_append.1 hm with hm | hm
          · exact ⟨(h.joining t hm).1, fun _ => rfl⟩
          · exact nomatch List.mem_singleton.1 hm
        stopper := fun _ _ => .inl (List.mem_append_right _ (List.mem_singleton_self _))
        inOrder := h.inOrder }
  · unfold configChangeHelperStop
    by_cases hz : s.users = 0
    · rw [if_pos hz]
      exact h
    · have hleft : s.users - 1 ≠ 0 := fun he => hu (by rw [← BitVec.sub_add_cancel s.users 1, he]; rfl)
      rw [if_neg hz, if_pos (users_pos hleft)]
      exact h.setUsers hz hleft

theorem inv_enqueue (h : Inv s) {list : ResetList} {allocOk : Bool} {w : Nat}
    (ht : Timely s (.enqueue list allocOk w)) : Inv (configChangeListEnqueue s list allocOk w).2 := by
  unfold configChangeListEnqueue
  split
  · exact h
  · split
    · exact h
    · rename_i htrigger
      rw [Bool.not_eq_true, Bool.not_eq_false'] at htrigger
      cases allocOk with
      | false => exact h
      | true =>
        have hcreated := ht htrigger rfl
        have hord : s.popped ++ (s.queue ++ [list]) = s.pushed ++ [list] := by rw [← List.append_assoc, h.inOrder]
        have hfits := h.fits
        have hsignal := condSignal_eq
          (s := { s with queue := s.queue ++ [list], pushed := s.pushed ++ [list] }) h.last w
        simp only [configChangeQueuePush, if_true, hsignal]
        split
        · rename_i hpc
          exact h.move True.intro (fun _ he => nomatch hpc.symm.trans he) hord
        · rename_i hpc
          refine { h with fits := ?_, inOrder := hord }
          change Pc.Fits s.users (s.queue ++ [list]) (s.threads s.thread)
          cases hat : s.threads s.thread <;> rw [hat] at hfits
          · exact absurd hat hcreated
          · exact absurd hat hpc
          · exact True.intro
          · exact hfits
          · exact hfits

theorem inv_step (op : Op) (h : Inv s) (ht : Timely s op) : Inv (step s op).2 := by
  cases op with
  | start ok => exact inv_start h ht
  | stop w => exact inv_stop h ht
  | enqueue list allocOk w => exact inv_enqueue h ht
  | thread t => exact inv_thread h t
  | wakeup t => exact inv_wakeup h t
  | join k => exact inv_join h k

theorem timely_of_internal (h : op.isInternal = true) : Timely s op := by
  cases op with
  | start ok => exact nomatch h
  | stop w => exact nomatch h
  | enqueue list allocOk w => exact nomatch h
  | thread t => exact True.intro
  | wakeup t => exact True.intro
  | join k => exact True.intro

theorem Inv.internal (h : Inv s) {ops : List Op} (hops : ∀ op ∈ ops, op.isInternal = true) :
    Inv (after step s ops) := by
  induction ops generalizing s with
  | nil => exact h
  | cons op ops ih =>
    obtain ⟨hop, hops⟩ := List.forall_mem_cons.1 hops
    exact ih (inv_step op h (timely_of_internal hop)) hops

/-- A woken helper takes what is queued, or clears the queue and ends. -/
theorem steps_woken (h : s.threads t = .woken) : ∃ n, (s.steps t n).queue = [] := by
  by_cases hu : s.users = 0
  · refine ⟨1, ?_⟩
    rw [steps_succ, steps_zero, thread_ends h hu]
    rfl
  · rcases hq : s.queue with _ | ⟨list, queue⟩
    · exact ⟨0, hq⟩
    · have hpc : (configChangeHelperThread s t).threads t = .processing list := by
        rw [thread_woken h hu, process_cons hq]
        exact Function.update_self ..
      obtain ⟨n, hn, -⟩ := steps_processing hpc
      exact ⟨n + 1, hn⟩

theorem Inv.awake (h : Inv s) : Awake s where
  blocked := fun t ht => by
    have hfits := h.fits
    obtain rfl := h.eq_last fun he => nomatch ht.symm.trans he
    rw [ht] at hfits
    exact hfits
  taken := fun t ht => by
    obtain rfl := h.eq_last ht
    have hfits := h.fits
    cases hpc : s.threads s.thread with
    | created => exact ⟨0, (hpc ▸ hfits : Pc.Fits _ _ .created).1⟩
    | waiting => exact ⟨0, (hpc ▸ hfits : Pc.Fits _ _ .waiting).1⟩
    | woken => exact steps_woken hpc
    | processing list =>
      obtain ⟨n, hn, -⟩ := steps_processing hpc
      exact ⟨n, hn⟩
    | ended => exact absurd hpc ht
  stopped := fun t ht => by
    rcases eq_or_ne t s.thread with rfl | hne
    · have hu := (h.joining s.thread ht).2 rfl
      have hfits := h.fits
      rw [hu] at hfits
      cases hpc : s.threads s.thread <;> rw [hpc] at hfits
      · exact absurd rfl hfits.2
      · exact absurd rfl hfits.2
      · refine ⟨1, ?_⟩
        rw [steps_succ, steps_zero, thread_ends hpc hu]
        exact setPc_self ..
      · exact absurd rfl hfits
      · exact ⟨0, hpc⟩
    · exact ⟨0, h.last t hne⟩
  inOrder := h.inOrder

/-! ## Where a signal is missed -/

theorem steps_internal (t n : Nat) : ∀ op ∈ List.replicate n (Op.thread t), op.isInternal = true := fun op hop => by
  rw [List.eq_of_mem_replicate hop]
  rfl

theorem KeepsAwake.steps (h : KeepsAwake s) (t n : Nat) : Awake (s.steps t n) := h _ (steps_internal t n)

theorem KeepsAwake.cons (h : KeepsAwake s) (op : Op) (hop : op.isInternal = true) : KeepsAwake (step s op).2 := fun ops hops =>
  h (op :: ops) (List.forall_mem_cons.2 ⟨hop, hops⟩)

/-- A helper that has yet to wait finds the queue empty, and a user. -/
theorem KeepsAwake.created (h : KeepsAwake s) (hpc : s.threads t = .created) : s.queue = [] ∧ s.users ≠ 0 := by
  have hawake := h.steps t 1
  rw [steps_succ, steps_zero, thread_created hpc] at hawake
  exact hawake.blocked t (setPc_self ..)

theorem KeepsAwake.processing (h : KeepsAwake s) {list : ResetList} (hpc : s.threads t = .processing list) :
    s.users ≠ 0 := by
  obtain ⟨n, -, hwait, husers⟩ := steps_processing hpc
  rw [← husers]
  exact ((h.steps t n).blocked t hwait).2

theorem steps_waiting (h : s.threads t = .waiting) (n : Nat) : s.steps t n = s := by
  induction n with
  | zero => rfl
  | succ n ih => rw [steps_succ, thread_idle (.inl h), ih]

/-- A stop does not wait for a helper that waits, or has yet to. -/
theorem KeepsAwake.joined (h : KeepsAwake s) (hj : .joining t ∈ s.stops) :
    s.threads t ≠ .waiting ∧ s.threads t ≠ .created := by
  obtain ⟨n, hn⟩ := (h.steps t 0).stopped t hj
  rw [steps_zero] at hn
  refine ⟨fun hpc => ?_, fun hpc => ?_⟩
  · rw [steps_waiting hpc, hpc] at hn
    cases hn
  · cases n with
    | zero =>
      rw [steps_zero, hpc] at hn
      cases hn
    | succ n =>
      rw [steps_succ, thread_created hpc, steps_waiting (setPc_self ..), setPc_self] at hn
      cases hn

theorem timely_start (h : Inv s) {ok : Bool} (hw : NoWrap s (.start ok))
    (hkeep : KeepsAwake (step s (.start ok)).2) : Timely s (.start ok) := by
  simp only [Timely]
  by_cases hu : s.users = 0
  · rw [if_pos hu]
    rintro rfl
    have hnew : (step s (.start true)).2 =
        { s with
          users := s.users + 1
          thread := s.thread + 1
          threads := Function.update s.threads (s.thread + 1) .created } := by
      simp only [step, configChangeHelperStart, hu]
      rfl
    rw [hnew] at hkeep
    have hcreated := hkeep.created (t := s.thread + 1) (Function.update_self ..)
    have hstops : StopPc.signalled ∉ s.stops := by
      intro hm
      obtain ⟨k, hk⟩ := List.mem_iff_getElem?.1 hm
      have hjoin := hkeep.cons (.join k) rfl
      simp only [step, pthreadJoin, hk] at hjoin
      refine (hjoin.joined (t := s.thread + 1) ?_).2 (Function.update_self ..)
      exact List.mem_set (List.getElem?_eq_some_iff.1 hk).1 _
    refine ⟨?_, hstops, hcreated.1⟩
    by_contra hlive
    have hwoken : s.threads s.thread = .woken := by
      have hfits := h.fits
      rw [hu] at hfits
      cases hpc : s.threads s.thread with
      | woken => rfl
      | ended => exact absurd hpc hlive
      | created =>
        rw [hpc] at hfits
        exact absurd rfl hfits.2
      | waiting =>
        rw [hpc] at hfits
        exact absurd rfl hfits.2
      | processing list =>
        rw [hpc] at hfits
        exact absurd rfl hfits
    have hold := hkeep.cons (.thread s.thread) rfl
    have hpc : Function.update s.threads (s.thread + 1) .created s.thread = .woken :=
      (Function.update_of_ne (Nat.ne_of_lt (Nat.lt_succ_self _)) ..).trans hwoken
    simp only [step] at hold
    rw [thread_woken hpc hcreated.2, process_nil hcreated.1] at hold
    have hj := (h.stopper hu hlive).resolve_left hstops
    exact (hold.joined (t := s.thread) hj).1 (setPc_self ..)
  · rw [if_neg hu]
    exact hw

theorem timely_stop (h : Inv s) {w : Nat} (hkeep : KeepsAwake (step s (.stop w)).2) : Timely s (.stop w) := by
  intro hu
  have hfits := h.fits
  simp only [step, stop_one h hu] at hkeep
  cases hpc : s.threads s.thread with
  | created =>
    rw [if_neg (by rw [hpc]; exact fun he => nomatch he)] at hkeep
    exact absurd rfl (hkeep.created (t := s.thread) hpc).2
  | waiting => exact .inl rfl
  | woken => exact .inr rfl
  | processing list =>
    rw [if_neg (by rw [hpc]; exact fun he => nomatch he)] at hkeep
    exact absurd rfl (hkeep.processing (t := s.thread) hpc)
  | ended =>
    rw [hpc, hu] at hfits
    exact absurd hfits (show (1 : BitVec 32) ≠ 0 by decide)

theorem timely_enqueue (h : Inv s) {list : ResetList} {allocOk : Bool} {w : Nat}
    (hkeep : KeepsAwake (step s (.enqueue list allocOk w)).2) : Timely s (.enqueue list allocOk w) := by
  rintro htrigger rfl hpc
  have hne : list.isEmpty = false := by
    cases list with
    | nil => exact nomatch htrigger
    | cons item list => rfl
  have hsignal := condSignal_eq
    (s := { s with queue := s.queue ++ [list], pushed := s.pushed ++ [list] }) h.last w
  simp only [step, configChangeListEnqueue, hne, htrigger, Bool.not_true, Bool.false_eq_true, if_false,
    configChangeQueuePush, if_true, hsignal, hpc, reduceCtorEq] at hkeep
  exact absurd (hkeep.created (t := s.thread) hpc).1 (List.append_ne_nil_of_right_ne_nil _ (List.cons_ne_nil _ _))

theorem keepsAwake_step (op : Op) (h : Inv s) :
    KeepsAwake (step s op).2 ∧ NoWrap s op ↔ Timely s op := by
  refine ⟨fun ⟨hkeep, hw⟩ => ?_, fun ht => ⟨fun ops hops => ((inv_step op h ht).internal hops).awake, ?_⟩⟩
  · cases op with
    | start ok => exact timely_start h hw hkeep
    | stop w => exact timely_stop h hkeep
    | enqueue list allocOk w => exact timely_enqueue h hkeep
    | thread t => exact True.intro
    | wakeup t => exact True.intro
    | join k => exact True.intro
  · cases op with
    | start ok =>
      by_cases hu : s.users = 0
      · change s.users + 1 ≠ 0
        rw [hu]
        decide
      · simp only [Timely, if_neg hu] at ht
        exact ht
    | stop w => exact True.intro
    | enqueue list allocOk w => exact True.intro
    | thread t => exact True.intro
    | wakeup t => exact True.intro
    | join k => exact True.intro

/-- **In the runs whose steps are timely, and in no others, the helper is never
left blocked with work to do,** in the states of the run and in those that the
threads go on to by themselves. -/
theorem keepsAwake_iff (ops : List Op) :
    ((∀ pre suf, ops = pre ++ suf → KeepsAwake (after step {} pre)) ∧ Guarded step NoWrap {} ops) ↔
      Guarded step Timely {} ops :=
  steps_iff_guarded (fun _ a h _ ht => inv_step a h ht) (fun _ a h _ => keepsAwake_step a h) inv_init
    (fun _ hops => (inv_init.internal hops).awake) ops

/-- A list that is queued before the helper's first wait stays in the queue, and
the helper is blocked. -/
theorem not_awake_beforeWait :
    ¬ Awake (after step {} [.start true, .enqueue [⟨"/gate-enabled", true⟩] true 0, .thread 1]) := by
  intro h
  exact absurd (h.blocked 1 (by decide)).1 (by decide)

end TsnSwitch.Sysrepo
