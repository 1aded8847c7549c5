/-
The members of a VLAN in the table of the agent
(`ieee8021QBridgeVlanStaticTable_fillEntry`).

The loop over the ports writes one and the same field for each of them, so
that what is stored tells only of the last port (`membersTold_iff`).
-/
import TsnSwitch.Agent.Tables
import TsnSwitch.Tools.VlanLookup

namespace TsnSwitch.Agent

open Tools
open Base (EXIT_SUCCESS EXIT_FAILURE)

/-- Which ports send a VLAN, and which of them without tags. -/
structure Members where
  egress : String → Bool
  untagged : String → Bool

namespace Members

def of (m : Members) (port : String) : Bool × Bool := (m.egress port, m.untagged port)

end Members

/-- The bridge with these ports, and with these members of the VLAN. -/
def VlanSystem.withMembers (sys : VlanSystem) (ports : List String) (m : Members) : VlanSystem :=
  { sys with
    portNames := some ports
    egress := fun port _ => m.egress port
    untagged := fun port _ => m.untagged port }

/-- A row of the table to be filled: the bridge, its ports, the VLAN, and what
the row holds before. -/
structure Filling where
  sys : VlanSystem
  bridgeName : String
  ports : List String
  vlanIndex : Nat
  old : VlanValues

namespace Filling

/-- The egress ports and the untagged ports that are stored. -/
def stored (f : Filling) (m : Members) : String × String :=
  let v := (ieee8021QBridgeVlanStaticTableFillEntry (f.sys.withMembers f.ports m) f.bridgeName f.vlanIndex f.old).2
  (v.egressPorts, v.untaggedPorts)

/-- Members that differ in a port are told apart. -/
def MembersTold (f : Filling) (m m' : Members) : Prop :=
  (∃ port ∈ f.ports, m.of port ≠ m'.of port) → f.stored m ≠ f.stored m'

/-- The last port the loops look at. -/
def lastPort (f : Filling) : Option String := (visible f.ports).getLast?

end Filling

/-! ## The last port -/

/-- A field that is written for each member of a list keeps the last. -/
theorem foldl_last {α β : Type*} (f : α → β) (l : List α) (b : β) :
    l.foldl (fun _ a => f a) b = (l.getLast?.map f).getD b := by
  induction l generalizing b with
  | nil => rfl
  | cons a l ih => rw [List.foldl_cons, ih, List.getLast?_cons, Option.map_some, Option.getD_some, Option.getD_map]

theorem portBits_last (isMember : String → Bool) (ports : List String) (old : String) :
    portBits isMember ports old =
      ((visible ports).getLast?.map fun port => if isMember port then "1" else "0").getD old :=
  foldl_last _ _ _

namespace Filling

variable (f : Filling) (m m' : Members)

theorem stored_eq :
    f.stored m = ((f.lastPort.map fun port => if m.egress port then "1" else "0").getD f.old.egressPorts,
      (f.lastPort.map fun port => if m.untagged port then "1" else "0").getD f.old.untaggedPorts) := by
  simp only [stored, ieee8021QBridgeVlanStaticTableFillEntry, fill, VlanSystem.withMembers, Option.map_some,
    portBits_last, lastPort]

/-- **What is stored is the membership of the last port.** -/
theorem stored_inj : f.stored m = f.stored m' ↔ ∀ port ∈ f.lastPort, m.of port = m'.of port := by
  rw [stored_eq, stored_eq, Prod.mk.injEq]
  cases f.lastPort with
  | none => simp
  | some port =>
    simp only [Option.map_some, Option.getD_some, Option.mem_some_iff, forall_eq', Members.of, Prod.mk.injEq]
    cases m.egress port <;> cases m'.egress port <;> cases m.untagged port <;> cases m'.untagged port <;> decide

/-- **Two bridges are told apart when their members do not differ at all, or
differ in the last port.** -/
theorem membersTold_iff :
    f.MembersTold m m' ↔
      (∀ port ∈ f.ports, m.of port = m'.of port) ∨ ∃ port ∈ f.lastPort, m.of port ≠ m'.of port := by
  rw [MembersTold, Ne, stored_inj]
  push Not
  rw [or_iff_not_imp_left]
  push Not
  rfl

/-- All members are told only where the last port is the only one. -/
theorem allTold_iff : (∀ m m', f.MembersTold m m') ↔ ∀ port ∈ f.ports, f.lastPort = some port := by
  constructor
  · intro h port hport
    have htold := h ⟨fun p => p = port, fun _ => false⟩ ⟨fun _ => false, fun _ => false⟩
      ⟨port, hport, fun heq => by simp [Members.of] at heq⟩
    rw [Ne, stored_inj] at htold
    push Not at htold
    obtain ⟨last, hlast, hne⟩ := htold
    obtain rfl : last = port := by
      by_contra hother
      exact hne (by simp [Members.of, hother])
    exact hlast
  · rintro h m m' ⟨port, hport, hne⟩ heq
    exact hne ((f.stored_inj m m').1 heq port (h port hport))

end Filling

/-- A bridge with two ports, and VLAN 10. -/
def twoPorts : Filling where
  sys := ⟨some ["sw0"], some ["10"],
    fun _ h => Option.some.inj h ▸ fun _ hid => List.mem_singleton.1 hid ▸ ne_of_beq_false rfl,
    [], none, fun _ _ => false, fun _ _ => false⟩
  bridgeName := "sw0"
  ports := ["sw0p0", "sw0p1"]
  vlanIndex := 10
  old := {}

def noMembers : Members := ⟨fun _ => false, fun _ => false⟩

/-- Only the first port sends the VLAN. -/
def firstMember : Members := ⟨fun port => port = "sw0p0", fun _ => false⟩

/-- The first port is not told. -/
theorem not_membersTold_firstPort : ¬ twoPorts.MembersTold firstMember noMembers := by
  intro h
  exact h ⟨"sw0p0", List.mem_cons_self .., by decide⟩ (by decide)

/-! ## The members the bridge reports -/

def succeeds : Except Overrun (Nat × Matrix) → Bool
  | .ok (ret, _) => ret = EXIT_SUCCESS
  | .error _ => false

/-- The members of a VLAN, read from what is shown for each port. -/
def shownMembers (shown : String → List VlanRow) (vid : Nat) : Members where
  egress port := succeeds (getEgressPortNames portsShape (Nat.toDigits 10 vid) (some (vlanOutput (shown port))))
  untagged port := succeeds (getUntaggedPortNames portsShape (Nat.toDigits 10 vid) (some (vlanOutput (shown port))))

theorem succeeds_decide (P : Prop) [Decidable P] (rows : Matrix) :
    succeeds (.ok (if P then EXIT_SUCCESS else EXIT_FAILURE, rows)) = decide P := by
  by_cases h : P
  · rw [if_pos h, decide_eq_true h]
    rfl
  · rw [if_neg h, decide_eq_false h]
    rfl

/-- Where no line only looks like one of the VLAN, these are the ports that
send it. -/
theorem shownMembers_of {shown : String → List VlanRow} {vid : Nat} {port : String}
    (hne : shown port ≠ []) (htold : VlanTold (shown port) vid) :
    (shownMembers shown vid).of port =
      (decide (∃ r ∈ shown port, r.Carries vid), decide (∃ r ∈ shown port, r.Untagged vid)) := by
  rw [Members.of, shownMembers, Prod.mk.injEq]
  exact ⟨(congrArg succeeds (htold.egress hne portsShape)).trans (succeeds_decide ..),
    (congrArg succeeds (htold.untagged portsShape)).trans (succeeds_decide ..)⟩

end TsnSwitch.Agent
