/-
A configuration change whose start is more than a minute ahead is delayed:
the machine waits in PENDING_DELAYED and a delayed work submits it later.

The request flag is cleared when the work is scheduled, so the work, which
runs the same handler again, finds no request and leaves the machine idle.
Every firing therefore loses the change (`neverLost_iff`), in edge_sched.c
for both of its users and in the FSC variant.
-/
import TsnSwitch.Lib.Run
import TsnSwitch.Sched.Steps

namespace TsnSwitch.Sched

open Lib

/-- A firing that began in `s` and ended as `r` did not lose the change: it
is submitted or waits again, or an error was returned or counted. -/
def Kept (s : EdgxSched) (r : Int × EdgxSched) : Prop :=
  r.2.state = .pending ∨ r.2.state = .pendingDelayed ∨ r.1 ≠ 0 ∨ s.confChangeErr < r.2.confChangeErr

instance (s : EdgxSched) (r : Int × EdgxSched) : Decidable (Kept s r) := inferInstanceAs (Decidable (_ ∨ _))

/-- No firing of the delayed work loses the accepted change it was scheduled
for. The work stays scheduled until it fires, unless the gate is disabled or
a newer change supersedes it. -/
def NeverLost (V : Variant) (com : Com) (s : EdgxSched) (ops : List Op) : Prop :=
  ∀ pre env suf, ops = pre ++ .pendingDelayed env :: suf →
    let s' := after (step V com) s pre
    s'.armed = true → Kept s' (step V com s' (.pendingDelayed env))

/-- The step is no firing of scheduled work. -/
def NoFiring (s : EdgxSched) : Op → Prop
  | .pendingDelayed _ => s.armed = false
  | _ => True

/-- Scheduled work belongs to a change whose request flag is already clear. -/
def ArmedInv (s : EdgxSched) : Prop :=
  s.armed = true → s.state = .pendingDelayed ∧ s.confChange = false

theorem armed_cancel {s : EdgxSched} (h : s.armed = true → s.state = .pendingDelayed) :
    (edgxSchedStmCancel s).armed = false := by
  rw [cancel_eq]
  cases ha : s.armed with
  | false => simp
  | true => simp [h ha]

section Step

variable {V : Variant} (hV : V.Lawful) (com : Com) (env : Env) {s : EdgxSched}
include hV

theorem armedInv_cfgChange (h : s.armed = true → s.state = .pendingDelayed) :
    ArmedInv (edgxSchedStmCfgChange V com env s).2 := by
  have hcancel := armed_cancel h
  obtain ⟨o, l, hchecked⟩ := checked_eq hV env s
  obtain ⟨o', l', c, t, e, hready⟩ := ready_eq hV com env s
  rcases cfgChange_cases V com env s with ⟨hc, hr⟩ | ⟨_, _, hr⟩ | ⟨_, _, hr⟩ | ⟨_, _, hr⟩ | ⟨_, hr⟩ <;> rw [hr]
  · exact fun ha => ⟨h ha, hc⟩
  · exact fun ha => absurd (hcancel.symm.trans ha) Bool.false_ne_true
  · intro ha
    rw [hchecked] at ha
    exact absurd (hcancel.symm.trans ha) Bool.false_ne_true
  · exact fun _ => ⟨rfl, rfl⟩
  · intro ha
    obtain ⟨hw, op, hs, hcfg⟩ := hV.config com (ready V com env s)
    have harm : (submit V com env s).2.armed = (edgxSchedStmCancel s).armed := by
      unfold submit
      dsimp only
      rw [hcfg, hready]
      split <;> rfl
    rw [harm, hcancel] at ha
    cases ha

theorem armedInv_step (op : Op) (h : ArmedInv s) : ArmedInv (step V com s op).2 := by
  have hstate : s.armed = true → s.state = .pendingDelayed := fun ha => (h ha).1
  cases hop : op.isAdmin with
  | true =>
    obtain ⟨a, e, heq⟩ := admin_eq V com s hop
    rw [heq]; exact h
  | false =>
    cases op with
    | setEntries first entries allocOk => cases hop
    | setCtrlListLen listLen => cases hop
    | setCycleTime ct => cases hop
    | setBaseTime baseTime => cases hop
    | setAdminGateStates gateStates mask => cases hop
    | setConfigChange b env => exact armedInv_cfgChange hV com env hstate
    | setGateEnabled b env =>
      cases b with
      | true =>
        simp only [step, edgxSchedSetGateEnabled, if_true, edgxSchedStmGateEnable]
        split
        · split
          · exact armedInv_cfgChange hV com env hstate
          · exact h
        · exact h
      | false =>
        simp only [step, edgxSchedSetGateEnabled, Bool.false_eq_true, if_false, edgxSchedStmGateDisable]
        intro ha
        split at ha
        · rename_i hp
          exact absurd ((hstate ha).symm.trans hp) (by decide)
        · split at ha
          · cases ha
          · rename_i hd
            exact absurd (hstate ha) hd
    | pendingDelayed env =>
      simp only [step, edgxSchedStmPendingDelayed]
      split
      · exact h
      · exact armedInv_cfgChange hV com env (by simp)
    | cctHandler env =>
      simp only [step, edgxSchedStmCctHandler]
      split
      · rename_i hp
        have hna : s.armed = false := by
          by_contra ha
          rw [Bool.not_eq_false] at ha
          exact absurd ((hstate ha).symm.trans hp) (by decide)
        intro ha
        split at ha
        · obtain ⟨c, t, e, hw, _, hfix⟩ := hV.fix com env
            { s.withEnv env with hw := (edgxSchedHwIsPending (s.withEnv env).hw).2 }
          rw [hfix] at ha
          exact absurd (hna.symm.trans ha) Bool.false_ne_true
        · exact absurd (hna.symm.trans ha) Bool.false_ne_true
      · exact h
    | hwEvents evs => exact h

end Step

/-- A firing finds no request and only leaves the state. -/
theorem firing_eq (V : Variant) (com : Com) (env : Env) {s : EdgxSched} (ha : s.armed = true)
    (hc : s.confChange = false) :
    step V com s (.pendingDelayed env) = (0, { s.withEnv env with armed := false, state := .idle }) := by
  have ha' : (s.withEnv env).armed = true := ha
  have hc' : (s.withEnv env).confChange = false := hc
  simp [step, edgxSchedStmPendingDelayed, ha', edgxSchedStmCfgChange, hc']

theorem firing_not_kept (V : Variant) (com : Com) (env : Env) {s : EdgxSched} (ha : s.armed = true)
    (hc : s.confChange = false) : ¬ Kept s (step V com s (.pendingDelayed env)) := by
  rw [firing_eq V com env ha hc]
  simp [Kept, EdgxSched.withEnv]

/-- **Accepted changes are never lost exactly in the runs in which the
delayed work never fires.** Every firing loses the change it was scheduled
for. -/
theorem neverLost_iff (u : User) (com : Com) (gateStates : BitVec 8) (ops : List Op) :
    NeverLost u.variant com (init gateStates) ops ↔
      Guarded (step u.variant com) NoFiring (init gateStates) ops := by
  have hinv : ∀ pre, ArmedInv (after (step u.variant com) (init gateStates) pre) := fun pre =>
    inv_after pre (fun h => nomatch h) fun s op h => armedInv_step u.lawful com op h
  rw [Guarded.iff_forall]
  constructor
  · intro h pre op suf he
    cases op with
    | pendingDelayed env =>
      change (after (step u.variant com) (init gateStates) pre).armed = false
      by_contra ha
      rw [Bool.not_eq_false] at ha
      exact firing_not_kept u.variant com env ha (hinv pre ha).2 (h pre env suf he ha)
    | _ => exact True.intro
  · intro h pre env suf he s' ha
    exact absurd ((h pre (.pendingDelayed env) suf he).symm.trans ha) Bool.false_ne_true

/-- One entry of 3200 ns, a cycle of a millisecond, and a start 100 s ahead of
a clock at zero. -/
def delayedRun : List Op :=
  [.setEntries 0 [⟨3200, 0, 0xff⟩] true, .setCtrlListLen 1, .setCycleTime ⟨1, 1000⟩, .setBaseTime ⟨100, 0⟩,
    .setGateEnabled true {}, .setConfigChange true {}, .pendingDelayed { curTime := ⟨64, 0⟩ }]

/-- The work fires 36 s before the start and does not submit the schedule. -/
theorem not_neverLost_delayedRun : ¬ NeverLost portGates someCom (init 0xff) delayedRun := fun h =>
  absurd (h (delayedRun.take 6) { curTime := ⟨64, 0⟩ } [] rfl (by decide)) (by decide)

end TsnSwitch.Sched
