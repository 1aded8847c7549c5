/-
Programs over the registers of a device that works on commands: a command is
written, the command register is polled until the command is done, and only then
may another register be accessed.

The words that are read come from outside, in any order. A program that polls
after each command, and never accesses the command register but for that, keeps
the rule just when each poll that ends does so on a word that says done
(`Polite.safe_iff`).
-/
import Mathlib.Tactic

namespace TsnSwitch.Lib

variable {ρ ω : Type*}

/-- A program. `poll` reads a register until a word is `ready`. -/
inductive Prog (ρ ω : Type*) where
  | done
  | wr (reg : ρ) (word : ω) (next : Prog ρ ω)
  | rd (reg : ρ) (next : ω → Prog ρ ω)
  | poll (reg : ρ) (ready : ω → Bool) (next : Prog ρ ω)

/-- What is seen of a program. -/
inductive Access (ρ ω : Type*) where
  | wr (reg : ρ) (word : ω)
  | rd (reg : ρ) (word : ω)
  /-- A poll ends. -/
  | polled (reg : ρ)

/-- The words from the first that is ready. -/
def fromReady (ready : ω → Bool) (ws : List ω) : List ω := ws.dropWhile fun w => !ready w

def beforeReady (ready : ω → Bool) (ws : List ω) : List ω := ws.takeWhile fun w => !ready w

/-- What a program does that reads `ws`. It waits for a word where there is none
left. -/
def exec : Prog ρ ω → List ω → List (Access ρ ω)
  | .done, _ => []
  | .wr reg word p, ws => .wr reg word :: exec p ws
  | .rd _ _, [] => []
  | .rd reg p, w :: ws => .rd reg w :: exec (p w) ws
  | .poll reg ready p, ws =>
    (beforeReady ready ws).map (.rd reg) ++
      match fromReady ready ws with
      | [] => []
      | w :: ws => .rd reg w :: .polled reg :: exec p ws

section Rule

variable (cmd : ρ) (clear : ω → Prop)

/-- Whether no command is pending after an access. -/
def idleAfter (idle : Prop) : Access ρ ω → Prop
  | .wr reg _ => reg ≠ cmd ∧ idle
  | .rd reg w => reg = cmd ∧ clear w ∨ reg ≠ cmd ∧ idle
  | .polled _ => idle

/-- Nothing but reads of the command register while a command is pending, and no
poll ends. -/
def Safe : Prop → List (Access ρ ω) → Prop
  | _, [] => True
  | idle, a :: as => ((∀ w, a ≠ .rd cmd w) → idle) ∧ Safe (idleAfter cmd clear idle a) as

/-- Each poll that ends does so on a word that is clear, where `test` says which
words end one. -/
def EndsClear (test : ω → Bool) : Prog ρ ω → List ω → Prop
  | .done, _ => True
  | .wr _ _ p, ws => EndsClear test p ws
  | .rd _ _, [] => True
  | .rd _ p, w :: ws => EndsClear test (p w) ws
  | .poll _ _ p, ws =>
    match fromReady test ws with
    | [] => True
    | w :: ws => clear w ∧ EndsClear test p ws

/-- A program that polls just after each command, with `test`. -/
def Polite (test : ω → Bool) : Bool → Prog ρ ω → Prop
  | false, .done => True
  | false, .wr reg _ p => (reg = cmd → Polite test true p) ∧ (reg ≠ cmd → Polite test false p)
  | false, .rd reg p => reg ≠ cmd ∧ ∀ w, Polite test false (p w)
  | true, .poll reg ready p => reg = cmd ∧ ready = test ∧ Polite test false p
  | _, _ => False

end Rule

variable {cmd : ρ} {clear : ω → Prop} {test : ω → Bool}

theorem idleAfter_rd (idle : Prop) (w : ω) : idleAfter cmd clear idle (.rd cmd w) = clear w := by
  simp [idleAfter]

/-- Polling breaks no rule. -/
theorem safe_polling (idle : Prop) (ws : List ω) : Safe cmd clear idle (ws.map (.rd cmd)) := by
  induction ws generalizing idle with
  | nil => exact True.intro
  | cons w ws ih => exact ⟨fun h => absurd rfl (h w), ih _⟩

/-- A poll that ends. -/
theorem safe_polled_iff (idle : Prop) (ws : List ω) (w : ω) (as : List (Access ρ ω)) :
    Safe cmd clear idle (ws.map (.rd cmd) ++ .rd cmd w :: .polled cmd :: as) ↔ clear w ∧ Safe cmd clear (clear w) as := by
  induction ws generalizing idle with
  | nil =>
    rw [List.map_nil, List.nil_append, Safe, idleAfter_rd, Safe]
    constructor
    · intro h
      exact ⟨h.2.1 nofun, h.2.2⟩
    · intro h
      exact ⟨fun hne => absurd rfl (hne w), fun _ => h.1, h.2⟩
  | cons w' ws ih =>
    rw [List.map_cons, List.cons_append, Safe]
    exact (and_iff_right fun h => absurd rfl (h w')).trans (ih _)

/-- From the middle of a program, where `b` says that a command was just written. -/
theorem Polite.safe_iff_of {p : Prog ρ ω} {b : Bool} (h : Polite cmd test b p) (ws : List ω) {idle : Prop}
    (hidle : b = false → idle) : Safe cmd clear idle (exec p ws) ↔ EndsClear clear test p ws := by
  induction p generalizing b ws idle with
  | done => exact Iff.rfl
  | wr reg word p ih =>
    cases b with
    | true => exact h.elim
    | false =>
      rw [exec, Safe, EndsClear, and_iff_right fun _ => hidle rfl]
      by_cases hreg : reg = cmd
      · exact ih (h.1 hreg) ws nofun
      · exact ih (h.2 hreg) ws fun _ => ⟨hreg, hidle rfl⟩
  | rd reg p ih =>
    cases b with
    | true => exact h.elim
    | false =>
      cases ws with
      | nil => exact Iff.rfl
      | cons w ws =>
        rw [exec, Safe, EndsClear, and_iff_right fun _ => hidle rfl]
        exact ih w (h.2 w) ws fun _ => .inr ⟨h.1, hidle rfl⟩
  | poll reg ready p ih =>
    cases b with
    | false => exact h.elim
    | true =>
      obtain ⟨rfl, rfl, hp⟩ := h
      rw [exec, EndsClear]
      cases hready : fromReady ready ws with
      | nil =>
        dsimp only
        rw [List.append_nil]
        exact iff_of_true (safe_polling _ _) True.intro
      | cons w ws' =>
        dsimp only
        rw [safe_polled_iff]
        exact and_congr_right fun hclear => ih hp ws' fun _ => hclear

/-- **A program that polls after each command is safe** just when its polls end on
clear words. -/
theorem Polite.safe_iff {p : Prog ρ ω} (h : Polite cmd test false p) (ws : List ω) :
    Safe cmd clear True (exec p ws) ↔ EndsClear clear test p ws :=
  h.safe_iff_of ws fun _ => True.intro

end TsnSwitch.Lib
