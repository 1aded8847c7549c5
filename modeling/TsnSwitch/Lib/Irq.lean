/-
Interrupts that a device raises and a driver serves later. A status register has a
bit for each source, set by the device and cleared by the driver, and a mask says
which of them the line of a source follows. A line that is triggered by its level
calls as long as it is high. One that is triggered by an edge calls once each time
it rises; a bit that is set again at the moment it is cleared makes no edge.

Work is watched when somebody will look for it, its bit is set, or the device still
owes the bit (`Watched`), and a bit is heard when somebody comes while it is set
(`Heard`). Where both are kept, work is never forgotten (`Watched.attended`).
-/
import Mathlib.Tactic

namespace TsnSwitch.Lib

inductive IrqTrig where
  | edge
  | level
  deriving DecidableEq

/-- The registers, the edges that nobody has answered, and the bits that the device
is about to set. -/
structure Irqs (w : Nat) where
  stat : BitVec w := 0
  mask : BitVec w := 0
  latched : BitVec w := 0
  due : BitVec w := 0

namespace Irqs

variable {w : Nat} (s : Irqs w)

def line : BitVec w := s.stat &&& s.mask

/-- A register is written. The lines that rise are latched. -/
def write (stat mask : BitVec w) : Irqs w :=
  { s with stat, mask, latched := s.latched ||| (stat &&& mask &&& ~~~s.line) }

/-- The device is going to set `bits`. -/
def owe (bits : BitVec w) : Irqs w := { s with due := s.due ||| bits }

def raise (bits : BitVec w) : Irqs w := { s with due := s.due &&& ~~~bits }.write (s.stat ||| bits) s.mask

/-- The driver clears `bits`, and the device sets `again` at the same time. -/
def clear (bits again : BitVec w) : Irqs w :=
  { s with due := s.due &&& ~~~again }.write ((s.stat &&& ~~~bits) ||| again) s.mask

def setMask (bits : BitVec w) : Irqs w := s.write s.stat (s.mask ||| bits)
def clrMask (bits : BitVec w) : Irqs w := s.write s.stat (s.mask &&& ~~~bits)

/-- The calls of `bits` are answered. -/
def take (bits : BitVec w) : Irqs w := { s with latched := s.latched &&& ~~~bits }

/-- The bits outside `bits` become anything, as others use them. -/
def mix (t : Irqs w) (bits : BitVec w) : Irqs w where
  stat := (s.stat &&& bits) ||| (t.stat &&& ~~~bits)
  mask := (s.mask &&& bits) ||| (t.mask &&& ~~~bits)
  latched := (s.latched &&& bits) ||| (t.latched &&& ~~~bits)
  due := (s.due &&& bits) ||| (t.due &&& ~~~bits)

/-- The sources that call. -/
def calls : IrqTrig → BitVec w
  | .edge => s.latched
  | .level => s.line

/-- A bit is set that is not among those that are cleared. -/
theorem getLsbD_and_not {w i : Nat} {x bits : BitVec w} (hx : x.getLsbD i = true) (hbit : bits.getLsbD i = false) :
    (x &&& ~~~bits).getLsbD i = true := by
  have hlt : i < w := BitVec.lt_of_getLsbD hx
  rw [BitVec.getLsbD_and, BitVec.getLsbD_not, hx, hbit]
  simpa using hlt

/-! ## Nothing is forgotten -/

/-- Where there is work, somebody is to look for it, or its bit is set or owed. -/
def Watched (i : Nat) (work todo : Prop) : Prop :=
  work → todo ∨ s.stat.getLsbD i = true ∨ s.due.getLsbD i = true

/-- Whoever is `busy` comes back to the source. Else its line is open, and what is
set by an edge calls. -/
def Heard (trig : IrqTrig) (i : Nat) (busy : Prop) : Prop :=
  match trig with
  | .level => s.mask.getLsbD i = true ∨ busy
  | .edge => s.mask.getLsbD i = true ∧ (s.stat.getLsbD i = true → s.latched.getLsbD i = true ∨ busy)

variable {s} {i : Nat} {work work' todo todo' busy busy' : Prop} {trig : IrqTrig}

namespace Watched

theorem mono (h : s.Watched i work todo) (hwork : work' → work) (htodo : todo → todo') : s.Watched i work' todo' :=
  fun hw => (h (hwork hw)).imp_left htodo

/-- Work that comes is owed its bit. -/
theorem owe (h : s.Watched i work todo) {bits : BitVec w} (hwork : bits.getLsbD i = false → work' → work) :
    (s.owe bits).Watched i work' todo := by
  intro hw
  rw [Irqs.owe, BitVec.getLsbD_or]
  cases hbit : bits.getLsbD i with
  | true => exact .inr (.inr (Bool.or_true _))
  | false =>
    rw [Bool.or_false]
    exact h (hwork hbit hw)

theorem raise (h : s.Watched i work todo) (bits : BitVec w) : (s.raise bits).Watched i work todo := by
  intro hw
  simp only [Irqs.raise, write, BitVec.getLsbD_or]
  cases hbit : bits.getLsbD i with
  | true => exact .inr (.inl (Bool.or_true _))
  | false =>
    obtain htodo | hstat | hdue := h hw
    · exact .inl htodo
    · exact .inr (.inl (by rw [hstat]; rfl))
    · exact .inr (.inr (getLsbD_and_not hdue hbit))

/-- A bit is cleared only with a look to come. -/
theorem clear (h : s.Watched i work todo) {bits : BitVec w} (hbits : bits.getLsbD i = true → work → todo)
    (again : BitVec w) : (s.clear bits again).Watched i work todo := by
  intro hw
  simp only [Irqs.clear, write, BitVec.getLsbD_or]
  cases hagain : again.getLsbD i with
  | true => exact .inr (.inl (Bool.or_true _))
  | false =>
    obtain htodo | hstat | hdue := h hw
    · exact .inl htodo
    · cases hbit : bits.getLsbD i with
      | true => exact .inl (hbits hbit hw)
      | false => exact .inr (.inl (by rw [getLsbD_and_not hstat hbit]; rfl))
    · exact .inr (.inr (getLsbD_and_not hdue hagain))

theorem setMask (h : s.Watched i work todo) (bits : BitVec w) : (s.setMask bits).Watched i work todo := h

theorem clrMask (h : s.Watched i work todo) (bits : BitVec w) : (s.clrMask bits).Watched i work todo := h

theorem take (h : s.Watched i work todo) (bits : BitVec w) : (s.take bits).Watched i work todo := h

theorem mix (h : s.Watched i work todo) (t : Irqs w) {bits : BitVec w} (hbit : bits.getLsbD i = true) :
    (s.mix t bits).Watched i work todo := by
  intro hw
  simpa [Irqs.mix, hbit] using h hw

end Watched

namespace Heard

theorem mono (h : s.Heard trig i busy) (hbusy : busy → busy') : s.Heard trig i busy' := by
  cases trig with
  | level => exact h.imp_right hbusy
  | edge => exact ⟨h.1, fun hstat => (h.2 hstat).imp_right hbusy⟩

/-- A line that rises is latched. -/
theorem write (h : s.Heard trig i busy) (stat : BitVec w) {mask : BitVec w}
    (hmask : s.mask.getLsbD i = true → mask.getLsbD i = true) : (s.write stat mask).Heard trig i busy := by
  cases trig with
  | level => exact h.imp_left hmask
  | edge =>
    refine ⟨hmask h.1, fun hstat => ?_⟩
    have hlt : i < w := BitVec.lt_of_getLsbD hstat
    rw [Irqs.write] at hstat ⊢
    dsimp only at hstat ⊢
    have hnew := hmask h.1
    have hold := h.1
    simp only [line, BitVec.getLsbD_or, BitVec.getLsbD_and, BitVec.getLsbD_not, hstat, hnew, hold, hlt,
      Bool.and_true, decide_true, Bool.true_and]
    cases hwas : s.stat.getLsbD i with
    | true => exact (h.2 hwas).imp_left fun hlatched => by rw [hlatched]; rfl
    | false => exact .inl (by simp)

theorem owe (h : s.Heard trig i busy) (bits : BitVec w) : (s.owe bits).Heard trig i busy := by
  cases trig <;> exact h

theorem due (h : s.Heard trig i busy) (bits : BitVec w) : Heard { s with due := bits } trig i busy := by
  cases trig <;> exact h

theorem raise (h : s.Heard trig i busy) (bits : BitVec w) : (s.raise bits).Heard trig i busy :=
  (h.due _).write _ id

theorem clear (h : s.Heard trig i busy) (bits again : BitVec w) : (s.clear bits again).Heard trig i busy :=
  (h.due _).write _ id

theorem setMask (h : s.Heard trig i busy) (bits : BitVec w) : (s.setMask bits).Heard trig i busy :=
  h.write _ fun hmask => by rw [BitVec.getLsbD_or, hmask]; rfl

/-- Whoever closes the line is busy. -/
theorem clrMask (h : s.Heard .level i busy) {bits : BitVec w} (hbits : bits.getLsbD i = true → busy) :
    (s.clrMask bits).Heard .level i busy := by
  obtain hmask | hbusy := h
  · cases hbit : bits.getLsbD i with
    | true => exact .inr (hbits hbit)
    | false => exact .inl (getLsbD_and_not hmask hbit)
  · exact .inr hbusy

/-- Whoever answers a call is busy. -/
theorem take (h : s.Heard trig i busy) {bits : BitVec w} (hbits : trig = .edge → bits.getLsbD i = true → busy) :
    (s.take bits).Heard trig i busy := by
  cases trig with
  | level => exact h
  | edge =>
    refine ⟨h.1, fun hstat => ?_⟩
    obtain hlatched | hbusy := h.2 hstat
    · cases hbit : bits.getLsbD i with
      | true => exact .inr (hbits rfl hbit)
      | false => exact .inl (getLsbD_and_not hlatched hbit)
    · exact .inr hbusy

theorem mix (h : s.Heard trig i busy) (t : Irqs w) {bits : BitVec w} (hbit : bits.getLsbD i = true) :
    (s.mix t bits).Heard trig i busy := by
  cases trig <;> simpa [Heard, Irqs.mix, hbit] using h

end Heard

/-- Nothing is busy any more with a line that is open and whose bit is not set. -/
theorem heard_of_clear (hmask : s.mask.getLsbD i = true) (hstat : trig = .edge → s.stat.getLsbD i = false) :
    s.Heard trig i busy := by
  cases trig with
  | level => exact .inl hmask
  | edge => exact ⟨hmask, fun h => absurd (hstat rfl ▸ h) Bool.false_ne_true⟩

end Irqs

/-! ## Whoever polls -/

/-- A poller. A request while it is scheduled is remembered. -/
structure Napi where
  sched : Bool := false
  missed : Bool := false

namespace Napi

variable (n : Napi)

def schedule : Napi := if n.sched then { n with missed := true } else { n with sched := true }

/-- Polling ends, unless there was a request, or it is to go on for another reason. -/
def completeDone (goOn : Bool) : Bool × Napi :=
  if n.missed then (false, { n with missed := false })
  else if goOn then (false, n)
  else (true, { n with sched := false })

variable {n}

theorem sched_schedule : n.schedule.sched = true := by
  unfold schedule
  split
  · assumption
  · rfl

variable (n) in
/-- It ends with nothing missed, or stays as it is scheduled. -/
theorem completeDone_cases (goOn : Bool) :
    n.completeDone goOn = (true, { n with sched := false }) ∧ n.missed = false ∨
      (n.completeDone goOn).1 = false ∧ (n.completeDone goOn).2.sched = n.sched := by
  unfold completeDone
  cases hmissed : n.missed with
  | true => exact .inr ⟨rfl, rfl⟩
  | false =>
    cases goOn with
    | true => exact .inr ⟨rfl, rfl⟩
    | false => exact .inl ⟨rfl, rfl⟩

end Napi

end TsnSwitch.Lib
