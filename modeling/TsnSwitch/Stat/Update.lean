/-
The statistics counters (edge_stat.c). The hardware counts in words of 32 bits
from one capture to the next, and an update captures the words of a handle and
adds them to what was accumulated. An update that finds the lock of the handle
taken waits for it and does nothing more, since the holder is just updating.

The holder may be a reader as well, or an update whose capture is over. Then the
update returns without the increments that came since (`not_statOk`). While it
finds updates before their capture only, it returns with all increments before
its call, and each is counted once (`statOk_of_guarded`).

The lock of the port is not modelled: other handles capture words of their own,
and waiting for them is waiting before the capture. The accumulated words of 64
bits do not overflow.
-/
import TsnSwitch.Lib.Run

namespace TsnSwitch.Stat

open Lib

/-- What a thread calls: `edgx_stat_update`, the same of the worker, which does not
wait, or `edgx_stat_get`. -/
inductive Call where
  | update
  | worker
  | get (idx : Nat)
  deriving DecidableEq

/-- Where a thread is. -/
inductive Pc where
  | idle
  | called (c : Call)
  /-- Holds the lock, and has not captured the words. -/
  | locked
  /-- The words below `di` are added. -/
  | reading (di : Nat)
  /-- Found the lock taken. -/
  | waiting
  /-- Got it after all. -/
  | waited
  | getting (idx : Nat)
  deriving DecidableEq

inductive StatRet where
  | updated
  /-- The worker did nothing. -/
  | skipped
  | got (word : Nat)
  | none
  deriving DecidableEq

/-- A handle, its words in the hardware and the threads. -/
structure EdgxStatHdl where
  data : Nat → Nat := fun _ => 0
  /-- The increments since the last capture. -/
  delta : Nat → Nat := fun _ => 0
  /-- The words that were captured. -/
  cnt : Nat → Nat := fun _ => 0
  holder : Option Nat := none
  pc : Nat → Pc := fun _ => .idle
  /-- All increments, those at the last capture, and those at the call of a thread. -/
  total : Nat → Nat := fun _ => 0
  captured : Nat → Nat := fun _ => 0
  before : Nat → Nat → Nat := fun _ _ => 0

inductive StatOp where
  /-- The hardware counts. -/
  | inc (i : Nat)
  | call (t : Nat) (c : Call)
  | run (t : Nat)

namespace EdgxStatHdl

variable (s : EdgxStatHdl)

def goto (t : Nat) (pc : Pc) : EdgxStatHdl := { s with pc := Function.update s.pc t pc }

def take (t : Nat) (pc : Pc) : EdgxStatHdl := { s with holder := some t, pc := Function.update s.pc t pc }

def release (t : Nat) : EdgxStatHdl := { s with holder := none, pc := Function.update s.pc t .idle }

/-- The words saturate. -/
def capture (t : Nat) : EdgxStatHdl :=
  { s with
    cnt := fun i => min (s.delta i) (2 ^ 32 - 1)
    delta := fun _ => 0
    captured := s.total
    pc := Function.update s.pc t (.reading 0) }

def add (t di : Nat) : EdgxStatHdl :=
  { s with
    data := Function.update s.data di (s.data di + s.cnt di)
    pc := Function.update s.pc t (.reading (di + 1)) }

end EdgxStatHdl

/-- A step of a thread in `__edgx_stat_update` or `edgx_stat_get`, for a handle with
`nwords` words. -/
def runThread (nwords : Nat) (s : EdgxStatHdl) (t : Nat) : StatRet × EdgxStatHdl :=
  match s.pc t with
  | .idle => (.none, s)
  | .called .update => if s.holder = none then (.none, s.take t .locked) else (.none, s.goto t .waiting)
  | .called .worker => if s.holder = none then (.none, s.take t .locked) else (.skipped, s.goto t .idle)
  | .called (.get idx) =>
    if idx > nwords then (.got 0, s.goto t .idle)
    else if s.holder = none then (.none, s.take t (.getting idx))
    else (.none, s)
  | .locked => (.none, s.capture t)
  | .reading di => if di < nwords then (.none, s.add t di) else (.updated, s.release t)
  | .waiting => if s.holder = none then (.none, s.take t .waited) else (.none, s)
  | .waited => (.updated, s.release t)
  | .getting idx => (.got (s.data idx), s.release t)

def statStep (nwords : Nat) (s : EdgxStatHdl) : StatOp → StatRet × EdgxStatHdl
  | .inc i =>
    (.none, { s with
      delta := Function.update s.delta i (s.delta i + 1), total := Function.update s.total i (s.total i + 1) })
  | .call t c =>
    (.none, if s.pc t = .idle then { s.goto t (.called c) with before := Function.update s.before t s.total } else s)
  | .run t => runThread nwords s t

/-! ## What is asked -/

/-- The words that were captured and are not added. -/
def Pc.inFlight (cnt : Nat → Nat) (i : Nat) : Pc → Nat
  | .reading di => if di ≤ i then cnt i else 0
  | _ => 0

def EdgxStatHdl.inFlight (s : EdgxStatHdl) (i : Nat) : Nat :=
  match s.holder with
  | none => 0
  | some t => (s.pc t).inFlight s.cnt i

/-- Each increment is in one place. -/
def Counted (nwords : Nat) (s : EdgxStatHdl) : Prop := ∀ i < nwords, s.data i + s.inFlight i + s.delta i = s.total i

/-- The increments before the call of a thread are in the accumulated words. -/
def Fresh (nwords : Nat) (s : EdgxStatHdl) (t : Nat) : Prop := ∀ i < nwords, s.before t i ≤ s.data i

/-- Each increment is counted once, and an update that returns is fresh. -/
structure StatOk (nwords : Nat) (ops : List StatOp) : Prop where
  counted : ∀ pre suf, ops = pre ++ suf → Counted nwords (after (statStep nwords) {} pre)
  fresh : ∀ pre t suf, ops = pre ++ .run t :: suf →
    (statStep nwords (after (statStep nwords) {} pre) (.run t)).1 = .updated →
      Fresh nwords (after (statStep nwords) {} (pre ++ [.run t])) t

/-- An update that finds the lock taken does so while the holder has its capture
before it, or after a capture of all increments before its call; and no word is
saturated when it is captured. -/
def StatGuard (nwords : Nat) (s : EdgxStatHdl) : StatOp → Prop
  | .run t =>
    match s.pc t with
    | .called .update =>
      match s.holder with
      | none => True
      | some u => s.pc u = .locked ∨ ∀ i < nwords, s.before t i ≤ s.captured i
    | .locked => ∀ i < nwords, s.delta i < 2 ^ 32
    | _ => True
  | _ => True

/-! ## Invariant -/

/-- Places of a thread that has the lock. -/
def Pc.holds : Pc → Prop
  | .locked | .reading _ | .waited | .getting _ => True
  | _ => False

/-- Places where nothing is in flight, if the thread has the lock. -/
def Pc.quiet (nwords : Nat) : Pc → Prop
  | .reading di => nwords ≤ di
  | _ => True

theorem Pc.quiet.inFlight_eq {nwords : Nat} {pc : Pc} (h : pc.quiet nwords) (cnt : Nat → Nat) {i : Nat} (hi : i < nwords) :
    pc.inFlight cnt i = 0 := by
  cases pc with
  | reading di => exact if_neg (Nat.not_le.2 (Nat.lt_of_lt_of_le hi h))
  | _ => rfl

/-- Places after which an update returns. -/
def Pc.caught : Pc → Prop
  | .reading _ | .waited => True
  | _ => False

theorem Pc.caught.holds {pc : Pc} (h : pc.caught) : pc.holds := by
  cases pc with
  | reading di => exact True.intro
  | waited => exact True.intro
  | _ => exact h.elim

/-- An update returns where it gives the lock back. -/
theorem released_of_updated {nwords t : Nat} {s : EdgxStatHdl} (hret : (runThread nwords s t).1 = .updated) :
    (s.pc t).caught ∧ (s.pc t).quiet nwords ∧ (runThread nwords s t).2 = s.release t := by
  unfold runThread at hret ⊢
  cases hpc : s.pc t with
  | idle => simp [hpc] at hret
  | called c =>
    rw [hpc] at hret
    cases c with
    | update => dsimp only at hret; split at hret <;> cases hret
    | worker => dsimp only at hret; split at hret <;> cases hret
    | get idx => dsimp only at hret; split_ifs at hret
  | locked => simp [hpc] at hret
  | reading di =>
    by_cases hdi : di < nwords
    · simp [hpc, hdi] at hret
    · exact ⟨True.intro, Nat.le_of_not_lt hdi, by simp [hdi]⟩
  | waiting =>
    rw [hpc] at hret
    dsimp only at hret
    split at hret <;> cases hret
  | waited => exact ⟨True.intro, True.intro, rfl⟩
  | getting idx => simp [hpc] at hret

/-- The increments before the call of a thread were captured. -/
def Caught (nwords : Nat) (s : EdgxStatHdl) (t : Nat) : Prop := ∀ i < nwords, s.before t i ≤ s.captured i

structure Inv (nwords : Nat) (s : EdgxStatHdl) : Prop where
  holder : ∀ t, s.holder = some t ↔ (s.pc t).holds
  delta : ∀ i, s.captured i + s.delta i = s.total i
  data : ∀ i < nwords, s.data i + s.inFlight i = s.captured i
  before_le : ∀ t i, s.before t i ≤ s.total i
  caught : ∀ t, (s.pc t).caught → Caught nwords s t
  waiting : ∀ t, s.pc t = .waiting → (∃ u, s.pc u = .locked) ∨ Caught nwords s t

namespace Inv

variable {nwords t : Nat} {s : EdgxStatHdl} {pc : Pc}

theorem init : Inv nwords {} :=
  ⟨fun _ => iff_of_false nofun id, fun _ => rfl, fun _ _ => rfl, fun _ _ => Nat.le_refl _, fun _ h => h.elim, nofun⟩

theorem counted (h : Inv nwords s) : Counted nwords s := fun i hi => by rw [h.data i hi, h.delta]

/-- The lock is free, so nobody has his capture before him. -/
theorem not_locked_of_free (h : Inv nwords s) (hfree : s.holder = none) : ¬ ∃ u, s.pc u = .locked := fun ⟨u, hu⟩ => by
  have hheld : s.holder = some u := (h.holder u).2 (by rw [hu]; exact True.intro)
  exact nomatch hfree.symm.trans hheld

theorem inFlight_of_quiet (hpc : ∀ t, s.holder = some t → (s.pc t).quiet nwords) {i : Nat} (hi : i < nwords) :
    s.inFlight i = 0 := by
  unfold EdgxStatHdl.inFlight
  cases hheld : s.holder with
  | none => rfl
  | some t => exact (hpc t hheld).inFlight_eq s.cnt hi

/-- A thread moves on, and has the lock if it had it. -/
theorem holder_update (h : Inv nwords s) (hsame : pc.holds ↔ (s.pc t).holds) (u : Nat) :
    s.holder = some u ↔ (Function.update s.pc t pc u).holds := by
  by_cases hut : u = t
  · subst hut
    rw [Function.update_self, hsame]
    exact h.holder u
  · rw [Function.update_of_ne hut]
    exact h.holder u

theorem caught_update (h : Inv nwords s) (hto : pc.caught → Caught nwords s t) (u : Nat)
    (hu : (Function.update s.pc t pc u).caught) : Caught nwords s u := by
  by_cases hut : u = t
  · subst hut
    exact hto (by simpa using hu)
  · exact h.caught u (by simpa [hut] using hu)

theorem waiting_update (h : Inv nwords s) (pc : Pc) (hto : pc = .waiting → (∃ v, s.pc v = .locked) ∨ Caught nwords s t)
    (u : Nat) (hu : Function.update s.pc t pc u = .waiting) : (∃ v, s.pc v = .locked) ∨ Caught nwords s u := by
  by_cases hut : u = t
  · subst hut
    exact hto (by simpa using hu)
  · exact h.waiting u (by simpa [hut] using hu)

theorem locked_update (hnot : s.pc t ≠ .locked) (h : ∃ v, s.pc v = .locked) :
    ∃ v, Function.update s.pc t pc v = .locked := by
  obtain ⟨v, hv⟩ := h
  have hvt : v ≠ t := fun he => hnot (he ▸ hv)
  exact ⟨v, (Function.update_of_ne hvt _ _).trans hv⟩

/-- A thread without the lock goes on without it. -/
theorem goto (h : Inv nwords s) (hfrom : ¬ (s.pc t).holds) (hto : ¬ pc.holds) (hcaught : ¬ pc.caught)
    (hwait : pc = .waiting → (∃ u, s.pc u = .locked) ∨ Caught nwords s t) : Inv nwords (s.goto t pc) := by
  have hflight (i : Nat) : (s.goto t pc).inFlight i = s.inFlight i := by
    unfold EdgxStatHdl.inFlight EdgxStatHdl.goto
    dsimp only
    cases hheld : s.holder with
    | none => rfl
    | some u =>
      have hne : u ≠ t := fun he => hfrom ((h.holder t).1 (he ▸ hheld))
      dsimp only
      rw [Function.update_of_ne hne]
  refine ⟨h.holder_update (iff_of_false hto hfrom), h.delta, fun i hi => ?_, h.before_le,
    h.caught_update fun hc => absurd hc hcaught, fun u hu => ?_⟩
  · rw [hflight]
    exact h.data i hi
  · refine (h.waiting_update pc hwait u hu).imp_left (locked_update fun hlocked => hfrom ?_)
    rw [hlocked]
    exact True.intro

/-- A thread takes the lock, with its capture before it or nothing to capture. -/
theorem take (h : Inv nwords s) (hfree : s.holder = none) (hto : pc.holds) (hquiet : pc.quiet nwords)
    (hcaught : pc.caught → Caught nwords s t) : Inv nwords (s.take t pc) := by
  have hwaits (hpc : pc = .waiting) : (∃ u, s.pc u = .locked) ∨ Caught nwords s t := by
    rw [hpc] at hto
    exact hto.elim
  refine ⟨fun u => ?_, h.delta, fun i hi => ?_, h.before_le, h.caught_update hcaught, fun u hu => .inr ?_⟩
  · by_cases hut : u = t
    · subst hut
      exact iff_of_true rfl (by simpa [EdgxStatHdl.take] using hto)
    · have hnot : ¬ (s.pc u).holds := fun hheld => nomatch hfree.symm.trans ((h.holder u).2 hheld)
      simp [EdgxStatHdl.take, hut, hnot, Ne.symm hut]
  · have hnone : s.inFlight i = 0 := by rw [EdgxStatHdl.inFlight, hfree]
    have hflight : (s.take t pc).inFlight i = 0 := inFlight_of_quiet (fun u hu => by
      obtain rfl : t = u := Option.some.inj hu
      simpa [EdgxStatHdl.take] using hquiet) hi
    rw [hflight, ← hnone]
    exact h.data i hi
  · exact (h.waiting_update pc hwaits u hu).resolve_left (h.not_locked_of_free hfree)

/-- A thread with the lock gives it back, with nothing in flight. -/
theorem release (h : Inv nwords s) (hheld : (s.pc t).holds) (hquiet : (s.pc t).quiet nwords) (hdone : s.pc t ≠ .locked) :
    Inv nwords (s.release t) := by
  have hholder := (h.holder t).2 hheld
  have honly (u : Nat) (hu : (s.pc u).holds) : u = t := Option.some.inj (((h.holder u).2 hu).symm.trans hholder)
  refine ⟨fun u => ?_, h.delta, fun i hi => ?_, h.before_le, h.caught_update False.elim, fun u hu => .inr ?_⟩
  · refine iff_of_false nofun ?_
    by_cases hut : u = t
    · subst hut
      simp [EdgxStatHdl.release, Pc.holds]
    · simpa [EdgxStatHdl.release, hut] using mt (honly u) hut
  · have hflight : s.inFlight i = 0 := inFlight_of_quiet (fun u hu => by
      obtain rfl : t = u := Option.some.inj (hholder.symm.trans hu)
      exact hquiet) hi
    have hdata := h.data i hi
    rw [hflight] at hdata
    exact hdata
  · -- nobody else has the lock, so nobody is before his capture
    refine (h.waiting_update .idle nofun u hu).resolve_left fun ⟨v, hv⟩ => ?_
    obtain rfl := honly v (by rw [hv]; exact True.intro)
    exact hdone hv

/-- The words are captured. -/
theorem capture (h : Inv nwords s) (hpc : s.pc t = .locked) (hsmall : ∀ i < nwords, s.delta i < 2 ^ 32) :
    Inv nwords (s.capture t) := by
  have hholds : (s.pc t).holds := by rw [hpc]; exact True.intro
  have hholder := (h.holder t).2 hholds
  refine ⟨h.holder_update (iff_of_true True.intro hholds), fun i => Nat.add_zero _, fun i hi => ?_, h.before_le,
    fun u _ i _ => h.before_le u i, fun u _ => .inr fun i _ => h.before_le u i⟩
  have hflight : s.inFlight i = 0 := by simp [EdgxStatHdl.inFlight, hholder, hpc, Pc.inFlight]
  have hflight' : (s.capture t).inFlight i = s.delta i := by
    have hmin : min (s.delta i) (2 ^ 32 - 1) = s.delta i := Nat.min_eq_left (Nat.le_sub_one_of_lt (hsmall i hi))
    simp [EdgxStatHdl.inFlight, EdgxStatHdl.capture, hholder, Pc.inFlight]
    omega
  have hdata := h.data i hi
  have hdelta := h.delta i
  rw [hflight']
  show s.data i + s.delta i = s.total i
  omega

/-- A word is added. -/
theorem add {di : Nat} (h : Inv nwords s) (hpc : s.pc t = .reading di) : Inv nwords (s.add t di) := by
  have hholds : (s.pc t).holds := by rw [hpc]; exact True.intro
  have hholder := (h.holder t).2 hholds
  refine ⟨h.holder_update (iff_of_true True.intro hholds), h.delta, fun i hi => ?_, h.before_le,
    h.caught_update fun _ => h.caught t (by rw [hpc]; exact True.intro),
    fun u hu => (h.waiting_update (.reading (di + 1)) nofun u hu).imp_left (locked_update (by simp [hpc]))⟩
  have hflight : s.inFlight i = if di ≤ i then s.cnt i else 0 := by
    simp [EdgxStatHdl.inFlight, hholder, hpc, Pc.inFlight]
  have hflight' : (s.add t di).inFlight i = if di + 1 ≤ i then s.cnt i else 0 := by
    simp [EdgxStatHdl.inFlight, EdgxStatHdl.add, hholder, Pc.inFlight]
  have hdata := h.data i hi
  rw [hflight] at hdata
  rw [hflight']
  show Function.update s.data di (s.data di + s.cnt di) i + _ = s.captured i
  by_cases hdi : i = di
  · subst hdi
    rw [Function.update_self]
    simp at hdata ⊢
    omega
  · rw [Function.update_of_ne hdi]
    split at hdata <;> split <;> omega

/-- The hardware counts. -/
theorem inc (h : Inv nwords s) (i : Nat) : Inv nwords (statStep nwords s (.inc i)).2 := by
  have hle (j : Nat) : s.total j ≤ Function.update s.total i (s.total i + 1) j := by
    by_cases hj : j = i
    · subst hj
      simp
    · simp [hj]
  refine ⟨h.holder, fun j => ?_, h.data, fun t j => Nat.le_trans (h.before_le t j) (hle j), h.caught, h.waiting⟩
  have hdelta := h.delta j
  by_cases hj : j = i
  · subst hj
    simp [statStep]
    omega
  · simpa [statStep, hj] using hdelta

/-- A call is made. -/
theorem called (h : Inv nwords s) (c : Call) (hpc : s.pc t = .idle) :
    Inv nwords { s.goto t (.called c) with before := Function.update s.before t s.total } := by
  have hgoto : Inv nwords (s.goto t (.called c)) := h.goto (by simp [hpc, Pc.holds]) id id nofun
  have hother {u : Nat} (hu : u ≠ t) (hcaught : Caught nwords (s.goto t (.called c)) u) :
      Caught nwords { s.goto t (.called c) with before := Function.update s.before t s.total } u := fun i hi => by
    simpa [EdgxStatHdl.goto, hu] using hcaught i hi
  refine ⟨hgoto.holder, hgoto.delta, hgoto.data, fun u i => ?_, fun u hu => ?_, fun u hu => ?_⟩
  · by_cases hut : u = t
    · subst hut
      simp [EdgxStatHdl.goto]
    · simpa [EdgxStatHdl.goto, hut] using hgoto.before_le u i
  · have hut : u ≠ t := by
      rintro rfl
      simp [EdgxStatHdl.goto, Pc.caught] at hu
    exact hother hut (hgoto.caught u hu)
  · have hut : u ≠ t := by
      rintro rfl
      simp [EdgxStatHdl.goto] at hu
    exact (hgoto.waiting u hu).imp_right (hother hut)

/-- An update or the worker takes the lock, to capture. -/
theorem lock (h : Inv nwords s) (hfree : s.holder = none) : Inv nwords (s.take t .locked) :=
  h.take hfree True.intro True.intro False.elim

/-- A thread goes on. -/
theorem run (h : Inv nwords s) (hguard : StatGuard nwords s (.run t)) : Inv nwords (runThread nwords s t).2 := by
  unfold StatGuard at hguard
  dsimp only at hguard
  unfold runThread
  cases hpc : s.pc t with
  | idle => exact h
  | called c =>
    have hout : ¬ (s.pc t).holds := by simp [hpc, Pc.holds]
    cases c with
    | update =>
      rw [hpc] at hguard
      dsimp only at hguard ⊢
      cases hheld : s.holder with
      | none => simpa using h.lock hheld
      | some u =>
        rw [hheld] at hguard
        simpa using h.goto hout id id fun _ => hguard.imp_left fun hu => ⟨u, hu⟩
    | worker =>
      dsimp only
      split
      · exact h.lock ‹_›
      · exact h.goto hout id id nofun
    | get idx =>
      dsimp only
      split
      · exact h.goto hout id id nofun
      · split
        · exact h.take ‹_› True.intro True.intro False.elim
        · exact h
  | locked =>
    rw [hpc] at hguard
    exact h.capture hpc hguard
  | reading di =>
    dsimp only
    split
    · exact h.add hpc
    · refine h.release (by simp [hpc, Pc.holds]) ?_ (by simp [hpc])
      simpa [hpc, Pc.quiet] using ‹¬ di < nwords›
  | waiting =>
    dsimp only
    split
    · exact h.take ‹_› True.intro True.intro fun _ =>
        (h.waiting t hpc).resolve_left (h.not_locked_of_free ‹_›)
    · exact h
  | waited => exact h.release (by simp [hpc, Pc.holds]) (by simp [hpc, Pc.quiet]) (by simp [hpc])
  | getting idx => exact h.release (by simp [hpc, Pc.holds]) (by simp [hpc, Pc.quiet]) (by simp [hpc])

theorem step (h : Inv nwords s) (op : StatOp) (hguard : StatGuard nwords s op) : Inv nwords (statStep nwords s op).2 := by
  cases op with
  | inc i => exact h.inc i
  | call t c =>
    unfold statStep
    dsimp only
    split
    · exact h.called c ‹_›
    · exact h
  | run t => exact h.run hguard

/-- An update that returns has all that was captured in the accumulated words. -/
theorem fresh (h : Inv nwords s) (hret : (runThread nwords s t).1 = .updated) : Fresh nwords (runThread nwords s t).2 t := by
  obtain ⟨hcaught, hquiet, hrun⟩ := released_of_updated hret
  have hholder := (h.holder t).2 hcaught.holds
  rw [hrun]
  intro i hi
  have hflight : s.inFlight i = 0 := inFlight_of_quiet (fun u hu => by
    obtain rfl : t = u := Option.some.inj (hholder.symm.trans hu)
    exact hquiet) hi
  have hdata := h.data i hi
  rw [hflight, Nat.add_zero] at hdata
  show s.before t i ≤ s.data i
  rw [hdata]
  exact h.caught t hcaught i hi

end Inv

theorem inv_of_guarded {nwords : Nat} {ops : List StatOp} (h : Guarded (statStep nwords) (StatGuard nwords) {} ops) :
    Inv nwords (after (statStep nwords) {} ops) :=
  h.inv_after Inv.init fun _ op hinv hguard => hinv.step op hguard

/-- **Counters and freshness.** While the lock is found taken only by updates
before their capture, each increment is counted once, and an update that
returns has those before its call. -/
theorem statOk_of_guarded (nwords : Nat) (ops : List StatOp) (h : Guarded (statStep nwords) (StatGuard nwords) {} ops) :
    StatOk nwords ops := by
  refine ⟨fun pre suf he => ?_, fun pre t suf he hret => ?_⟩
  · subst he
    exact (inv_of_guarded h.of_append).counted
  · subst he
    rw [after_concat]
    exact (inv_of_guarded h.of_append).fresh hret

instance decStatGuard (nwords : Nat) (s : EdgxStatHdl) (op : StatOp) : Decidable (StatGuard nwords s op) := by
  unfold StatGuard
  split
  · split
    · split <;> infer_instance
    · infer_instance
    · infer_instance
  · infer_instance

/-- An update waits for another one, whose capture is still to come. -/
theorem statOk_of_guarded_waits : StatOk 1 [.inc 0, .call 0 .update, .run 0, .call 1 .update, .run 1, .run 0, .run 0,
    .run 0, .run 1, .run 1] :=
  statOk_of_guarded 1 _ (by decide)

/-- A reader has the lock as an update comes, and the update returns without the
increment before it. -/
theorem not_statOk : ¬ ∀ (nwords : Nat) (ops : List StatOp), StatOk nwords ops := by
  intro h
  have hfresh := (h 1 [.inc 0, .call 1 (.get 0), .run 1, .call 0 .update, .run 0, .run 1, .run 0, .run 0]).fresh
    [.inc 0, .call 1 (.get 0), .run 1, .call 0 .update, .run 0, .run 1, .run 0] 0 [] rfl (by decide)
  exact absurd (hfresh 0 Nat.one_pos) (by decide)

end TsnSwitch.Stat
