/-
The admin control lists of interfaces.

The callback for the lengths counts the valid lists of an edit together, and
passes a list that starts at 1 or has only the entry 1; the callback for the
entries stops at the first interface that has no length, and returns success.
Where neither is met an edit is accepted when its lists are proper, is then
applied, and is refused otherwise (`schedEdit_iff`).
-/
import TsnSwitch.Sysrepo.AclLists
import TsnSwitch.Lib.EarlyExit

namespace TsnSwitch.Sysrepo.Acl

open Lib

/-! ## Reading an entry -/

theorem tick_eq (ns : Nat) : 10 * ns / 10 = ns := by omega

/-- An operation name that is none of the three is not translated, or is empty
and names no container. -/
theorem translate_operation (name : String) :
    (name = "ieee802-dot1q-sched:set-gate-states" ∧ translateSingleStringUsingMap name schedOpNameMap = some "0" ∧
        translateSingleStringUsingMap name schedGclMap = some "sgs-params") ∨
      (name = "ieee802-dot1q-sched:set-and-hold-mac" ∧ translateSingleStringUsingMap name schedOpNameMap = some "1" ∧
        translateSingleStringUsingMap name schedGclMap = some "shm-params") ∨
      (name = "ieee802-dot1q-sched:set-and-release-mac" ∧
        translateSingleStringUsingMap name schedOpNameMap = some "2" ∧
        translateSingleStringUsingMap name schedGclMap = some "srm-params") ∨
      ((name ≠ "ieee802-dot1q-sched:set-gate-states" ∧ name ≠ "ieee802-dot1q-sched:set-and-hold-mac" ∧
        name ≠ "ieee802-dot1q-sched:set-and-release-mac") ∧
        (translateSingleStringUsingMap name schedOpNameMap = none ∨
          translateSingleStringUsingMap name schedGclMap = some "")) := by
  by_cases hgate : name = "ieee802-dot1q-sched:set-gate-states"
  · exact .inl ⟨hgate, hgate ▸ by decide, hgate ▸ by decide⟩
  by_cases hhold : name = "ieee802-dot1q-sched:set-and-hold-mac"
  · exact .inr (.inl ⟨hhold, hhold ▸ by decide, hhold ▸ by decide⟩)
  by_cases hrelease : name = "ieee802-dot1q-sched:set-and-release-mac"
  · exact .inr (.inr (.inl ⟨hrelease, hrelease ▸ by decide, hrelease ▸ by decide⟩))
  refine .inr (.inr (.inr ⟨⟨hgate, hhold, hrelease⟩, ?_⟩))
  by_cases hempty : name = ""
  · right
    rw [hempty]
    decide
  · left
    simp [translateSingleStringUsingMap, schedOpNameMap, hempty, Ne.symm hgate, Ne.symm hhold, Ne.symm hrelease]

theorem octet_zero : octet "0" = 0 := by decide

theorem octet_one : octet "1" = 1 := by decide

theorem octet_two : octet "2" = 2 := by decide

/-- With the operation known, the leaves of its container decide. -/
theorem SchedLeaves.read_of {leaves : SchedLeaves} {ns : Nat} {name opName container : String}
    (hname : leaves.operationName = some name) (hop : translateSingleStringUsingMap name schedOpNameMap = some opName)
    (hcontainer : translateSingleStringUsingMap name schedGclMap = some container) {row : StGateControlEntry} :
    leaves.read (10 * ns) = .row row ↔
      row.op = octet opName ∧ (leaves.params container).gateStatesValue = some row.gsv ∧
        (leaves.params container).timeIntervalValue = some row.interval ∧ ns ∣ row.interval.toNat := by
  unfold SchedLeaves.read
  rw [hname]
  dsimp only
  rw [hop, hcontainer, tick_eq]
  dsimp only
  cases (leaves.params container).gateStatesValue with
  | none => simp
  | some gsv =>
    cases (leaves.params container).timeIntervalValue with
    | none => simp
    | some interval =>
      obtain ⟨op, gsv', interval'⟩ := row
      by_cases hdvd : ns ∣ interval.toNat
      · have hmod : ¬interval.toNat % ns ≠ 0 := not_not.2 (Nat.mod_eq_zero_of_dvd hdvd)
        dsimp only
        rw [if_neg hmod]
        simp only [Read.row.injEq, StGateControlEntry.mk.injEq, Option.some_inj]
        exact ⟨fun ⟨ho, hg, hi⟩ => ⟨ho.symm, hg, hi, hi ▸ hdvd⟩, fun ⟨ho, hg, hi, _⟩ => ⟨ho.symm, hg, hi⟩⟩
      · have hmod : interval.toNat % ns ≠ 0 := fun h => hdvd (Nat.dvd_of_mod_eq_zero h)
        simp only [if_pos hmod, reduceCtorEq, Option.some_inj, false_iff]
        rintro ⟨-, -, rfl, h⟩
        exact hdvd h

/-- **An entry of an interface is read as the row it means.** -/
theorem SchedLeaves.read_iff {leaves : SchedLeaves} {ns : Nat} {row : StGateControlEntry} :
    leaves.read (10 * ns) = .row row ↔ leaves.Means ns row := by
  cases hname : leaves.operationName with
  | none => simp [SchedLeaves.read, SchedLeaves.Means, hname]
  | some name =>
    rcases translate_operation name with ⟨rfl, hop, hgcl⟩ | ⟨rfl, hop, hgcl⟩ | ⟨rfl, hop, hgcl⟩ | ⟨⟨h₁, h₂, h₃⟩, hfail⟩
    · rw [SchedLeaves.read_of hname hop hgcl, octet_zero]
      simp [SchedLeaves.Means, hname, SchedLeaves.params]
    · rw [SchedLeaves.read_of hname hop hgcl, octet_one]
      simp [SchedLeaves.Means, hname, SchedLeaves.params]
    · rw [SchedLeaves.read_of hname hop hgcl, octet_two]
      simp [SchedLeaves.Means, hname, SchedLeaves.params]
    · have hmeans : ¬leaves.Means ns row := by
        simp [SchedLeaves.Means, hname, h₁, h₂, h₃]
      refine iff_of_false ?_ hmeans
      unfold SchedLeaves.read
      rw [hname]
      dsimp only
      rcases hfail with hop | hgcl
      · rw [hop]
        simp
      · rw [hgcl]
        cases translateSingleStringUsingMap name schedOpNameMap <;> simp [SchedLeaves.params]

theorem SchedLeaves.read_ne_skipped (leaves : SchedLeaves) (granularity : Nat) : leaves.read granularity ≠ .skipped := by
  unfold SchedLeaves.read
  cases leaves.operationName with
  | none => simp
  | some name =>
    dsimp only
    split
    · split
      · split <;> simp
      · simp
    · simp

/-! ## Edits -/

/-- Before the edit the list is proper, and the driver has it. -/
def SchedList.Held (l : SchedList) (p : Port StGateControlEntry) : Prop :=
  match l.oldLength with
  | none => l.old = []
  | some n =>
    Proper (SchedLeaves.Means p.hwGranularityNs) n.toNat l.old ∧
      Mirrors (SchedLeaves.Means p.hwGranularityNs) p n.toNat l.old

def SchedList.WellFormed (l : SchedList) (p : Port StGateControlEntry) : Prop :=
  ∃ n, l.length = some n ∧ Proper (SchedLeaves.Means p.hwGranularityNs) n.toNat l.entries

def SchedList.AppliedTo (l : SchedList) (p : Port StGateControlEntry) : Prop :=
  ∃ n, l.length = some n ∧ Mirrors (SchedLeaves.Means p.hwGranularityNs) p n.toNat l.entries

/-- An edit of the lists of any number of interfaces, and the driver it meets. -/
structure SchedEdit where
  lists : List SchedList
  /-- The changed index leaves, as the session gives them. -/
  changes : List (EntryChange SchedList)
  driver : SchedDriver
  names : (lists.map fun l => l.name).Nodup
  mem_changes : ∀ c, c ∈ changes ↔ c.list ∈ lists ∧ c.list.Changes c.op c.index
  edited : ∀ l ∈ lists, l.lengthChange ≠ none ∨ ∃ c ∈ changes, c.list = l
  supported : ∀ l ∈ lists, (driver l.name).opens = true ∧ (driver l.name).feat = true
  held : ∀ l ∈ lists, l.Held (driver l.name)

namespace SchedEdit

def run (e : SchedEdit) : Ended String StGateControlEntry := editSched e.driver e.lists e.changes

def WellFormed (e : SchedEdit) : Prop := ∀ l ∈ e.lists, l.WellFormed (e.driver l.name)

def Applied (e : SchedEdit) (d : SchedDriver) : Prop := ∀ l ∈ e.lists, l.AppliedTo (d l.name)

def Meets (e : SchedEdit) : Prop := Acl.Meets e.run e.WellFormed e.Applied

/-- Where entries are added the list is not too long, and config-change is there. -/
def Fits (e : SchedEdit) : Prop :=
  ∀ c ∈ e.changes, c.op = .created → ∀ n, c.list.length = some n →
    n.toNat ≤ MAX_NUMBER_OF_ACL ∧ c.list.configChange ≠ none

end SchedEdit

/-- A changed length that is passed, behind those of `before`: it is the number of
entries, and the indices pass, or there is only the index 1 behind a list that was
counted as valid. -/
def LengthPasses (before : List (SchedList × ChangeOp × BitVec 32)) (c : SchedList × ChangeOp × BitVec 32) : Prop :=
  c.2.1 ≠ .deleted ∧ c.2.2.toNat = c.1.entries.length ∧
    (Reaches (indices c.1.entries) ∨ c.1.entries = [] ∨
      indices c.1.entries = [1] ∧ ∃ b ∈ before, Reaches (indices b.1.entries))

/-- A created entry that cannot be added, or a removed one that leaves another
number of entries than the length says. -/
def EntryRefused (ns : Nat) (c : EntryChange SchedList) : Prop :=
  ∃ n, c.list.length = some n ∧
    (c.op = .created ∧ (Barred c.list.toEditedList n.toNat c.index ∨
        ∀ leaves, lookup c.list.entries c.index = some leaves → ¬∃ row, leaves.Means ns row) ∨
      c.op = .deleted ∧ n.toNat ≠ c.list.entries.length)

namespace SchedEdit

/-- A length is refused, or an entry is before the first interface without a
length. -/
def Refused (e : SchedEdit) : Prop :=
  (∃ before c, before ++ [c] <+: lengthChanges e.lists ∧ ¬LengthPasses before c) ∨
    ∃ before c, before ++ [c] <+: e.changes ∧ (∀ b ∈ before, b.list.length ≠ none) ∧
      EntryRefused (e.driver c.list.name).hwGranularityNs c

end SchedEdit

/-! ## The lengths -/

section Lengths

variable {l : SchedList} {c : SchedList × ChangeOp × BitVec 32} {lists : List SchedList}

theorem lengthChange_eq_some {change : ChangeOp × BitVec 32} (h : l.lengthChange = some change) :
    change.1 = .deleted ∧ l.length = none ∨ (change.1 = .created ∨ change.1 = .modified) ∧ l.length = some change.2 := by
  unfold SchedList.lengthChange at h
  cases hold : l.oldLength <;> cases hnew : l.length <;> rw [hold, hnew] at h
  · cases h
  · obtain rfl := Option.some.inj h
    exact .inr ⟨.inl rfl, rfl⟩
  · obtain rfl := Option.some.inj h
    exact .inl ⟨rfl, rfl⟩
  · dsimp only at h
    split at h
    · cases h
    · obtain rfl := Option.some.inj h
      exact .inr ⟨.inr rfl, rfl⟩

theorem lengthChange_eq_none (h : l.lengthChange = none) : l.oldLength = l.length := by
  unfold SchedList.lengthChange at h
  cases hold : l.oldLength with
  | none =>
    cases hnew : l.length with
    | none => rfl
    | some new => simp [hold, hnew] at h
  | some old =>
    cases hnew : l.length with
    | none => simp [hold, hnew] at h
    | some new =>
      rw [hold, hnew] at h
      by_cases heq : old = new
      · rw [heq]
      · exact absurd ((if_neg heq).symm.trans h) (by simp)

theorem mem_lengthChanges : c ∈ lengthChanges lists ↔ c.1 ∈ lists ∧ c.1.lengthChange = some c.2 := by
  rw [lengthChanges, List.mem_filterMap]
  constructor
  · rintro ⟨l, hl, h⟩
    obtain ⟨change, hchange, rfl⟩ := Option.map_eq_some_iff.1 h
    exact ⟨hl, hchange⟩
  · rintro ⟨hl, hchange⟩
    exact ⟨c.1, hl, by rw [hchange]; rfl⟩

variable {s : SchedLocals} {before : List (SchedList × ChangeOp × BitVec 32)}

/-- A length that is passed is set, and the list is counted if it is valid. -/
theorem lengthTurn_passes (hc : c.1.lengthChange = some c.2) (hnum : s.numAcl = 0)
    (hvalid : s.validGclLen ≠ 0 ↔ ∃ b ∈ before, Reaches (indices b.1.entries))
    (hsup : (s.driver c.1.name).opens = true ∧ (s.driver c.1.name).feat = true) (h : LengthPasses before c) :
    ∃ v, interfaceSchedAclLengthTurn .change s c =
        .ok { s with driver := Function.update s.driver c.1.name ((s.driver c.1.name).setLength c.2.2.toNat),
                     numAcl := 0, validGclLen := v } ∧
      (v ≠ 0 ↔ ∃ b ∈ before ++ [c], Reaches (indices b.1.entries)) := by
  obtain ⟨hdel, hlength, hpass⟩ := h
  have hop : c.2.1 = .modified ∨ c.2.1 = .created := by
    rcases lengthChange_eq_some hc with ⟨hd, -⟩ | ⟨hop, -⟩
    · exact absurd hd hdel
    · exact hop.symm
  obtain ⟨v, hscan, hv, hset⟩ : ∃ v, scanIndices c.1.entries.length 0 s.validGclLen (indices c.1.entries) = some v ∧
      (v ≠ 0 ↔ ∃ b ∈ before ++ [c], Reaches (indices b.1.entries)) ∧ ¬(v = 0 ∧ c.2.2 ≠ 0) := by
    have hkept : ¬Reaches (indices c.1.entries) →
        (s.validGclLen ≠ 0 ↔ ∃ b ∈ before ++ [c], Reaches (indices b.1.entries)) := by
      intro hnot
      rw [hvalid]
      simp [or_and_right, exists_or, hnot]
    rcases hpass with hreach | hnil | ⟨hone, hseen⟩
    · exact ⟨s.validGclLen + 1, scan_entries.2 (.inl ⟨rfl, hreach⟩),
        iff_of_true (Nat.succ_ne_zero _) ⟨c, by simp, hreach⟩, fun h => Nat.succ_ne_zero _ h.1⟩
    · have hzero : c.2.2 = 0 := by
        rw [hnil] at hlength
        exact BitVec.eq_of_toNat_eq hlength
      exact ⟨s.validGclLen, scan_entries.2 (.inr ⟨rfl, .inl hnil⟩), hkept (not_reaches (.inl (by rw [hnil]; rfl))),
        fun h => h.2 hzero⟩
    · exact ⟨s.validGclLen, scan_entries.2 (.inr ⟨rfl, .inr hone⟩), hkept (not_reaches (.inr hone)),
        fun h => hvalid.2 hseen h.1⟩
  refine ⟨v, ?_, hv⟩
  unfold interfaceSchedAclLengthTurn
  dsimp only
  rw [if_pos hop, if_neg (by simpa [hnum] using hlength), hlength, hscan]
  dsimp only
  rw [if_neg (by simp [hsup]), if_neg hset]

theorem lengthTurn_refused (hc : c.1.lengthChange = some c.2) (hnum : s.numAcl = 0)
    (hvalid : s.validGclLen ≠ 0 ↔ ∃ b ∈ before, Reaches (indices b.1.entries))
    (hsup : (s.driver c.1.name).opens = true ∧ (s.driver c.1.name).feat = true) (h : ¬LengthPasses before c) :
    interfaceSchedAclLengthTurn .change s c = failed s.driver := by
  unfold interfaceSchedAclLengthTurn
  dsimp only
  rcases lengthChange_eq_some hc with ⟨hd, -⟩ | ⟨hop, -⟩
  · rw [if_neg (by rw [hd]; decide), if_pos hd]
  have hdel : c.2.1 ≠ .deleted := by rcases hop with hop | hop <;> rw [hop] <;> decide
  rw [if_pos hop.symm]
  by_cases hlength : c.2.2.toNat = c.1.entries.length
  · rw [if_neg (by simpa [hnum] using hlength), hlength]
    cases hscan : scanIndices c.1.entries.length 0 s.validGclLen (indices c.1.entries) with
    | none => rfl
    | some v =>
      dsimp only
      have hunseen : v = 0 ∧ c.2.2 ≠ 0 := by
        rcases scan_entries.1 hscan with ⟨-, hreach⟩ | ⟨rfl, hnil | hone⟩
        · exact absurd ⟨hdel, hlength, .inl hreach⟩ h
        · exact absurd ⟨hdel, hlength, .inr (.inl hnil)⟩ h
        · constructor
          · by_contra hv
            exact h ⟨hdel, hlength, .inr (.inr ⟨hone, hvalid.1 hv⟩)⟩
          · intro hzero
            have hcount : c.1.entries.length = 1 := by
              have := congrArg List.length hone
              rwa [indices, List.length_map] at this
            rw [hzero, hcount] at hlength
            exact absurd hlength (by decide)
      rw [if_neg (by simp [hsup]), if_pos hunseen]
  · rw [if_pos (by simpa [hnum] using hlength)]

end Lengths

namespace SchedEdit

variable {e : SchedEdit} {l l' : SchedList}

theorem eq_of_name (hl : l ∈ e.lists) (hl' : l' ∈ e.lists) (h : l.name = l'.name) : l = l' :=
  List.inj_on_of_nodup_map e.names hl hl' h

/-- What the callback for the lengths has done. -/
structure LengthInv (e : SchedEdit) (before : List (SchedList × ChangeOp × BitVec 32)) (s : SchedLocals) : Prop where
  numAcl : s.numAcl = 0
  valid : s.validGclLen ≠ 0 ↔ ∃ b ∈ before, Reaches (indices b.1.entries)
  driver : ∀ l ∈ e.lists, ∃ n, s.driver l.name = (e.driver l.name).setLength n ∧
    (∀ b ∈ before, b.1 = l → n = b.2.2.toNat) ∧
    ((∀ b ∈ before, b.1 ≠ l) → n = (e.driver l.name).adminControlListLength)

theorem LengthInv.nil : LengthInv e [] { driver := e.driver } where
  numAcl := rfl
  valid := by simp
  driver l _ := ⟨(e.driver l.name).adminControlListLength, rfl, by simp, fun _ => rfl⟩

theorem LengthInv.supported {before : List (SchedList × ChangeOp × BitVec 32)} {s : SchedLocals}
    (h : LengthInv e before s) (hl : l ∈ e.lists) :
    (s.driver l.name).opens = true ∧ (s.driver l.name).feat = true := by
  obtain ⟨n, hn, -⟩ := h.driver l hl
  rw [hn]
  exact e.supported l hl

theorem LengthInv.step {before : List (SchedList × ChangeOp × BitVec 32)} {c : SchedList × ChangeOp × BitVec 32}
    {s : SchedLocals} (hc : c ∈ lengthChanges e.lists) (hbefore : ∀ b ∈ before, b ∈ lengthChanges e.lists)
    (h : LengthInv e before s) {v : Nat} (hv : v ≠ 0 ↔ ∃ b ∈ before ++ [c], Reaches (indices b.1.entries)) :
    LengthInv e (before ++ [c])
      { s with driver := Function.update s.driver c.1.name ((s.driver c.1.name).setLength c.2.2.toNat),
               numAcl := 0, validGclLen := v } where
  numAcl := rfl
  valid := hv
  driver l hl := by
    obtain ⟨hc₁, hc₂⟩ := mem_lengthChanges.1 hc
    obtain ⟨n, hn, hdone, hrest⟩ := h.driver l hl
    by_cases hlc : c.1 = l
    · subst hlc
      refine ⟨c.2.2.toNat, ?_, ?_, fun hno => absurd rfl (hno c (by simp))⟩
      · dsimp only
        rw [Function.update_self, hn]
        rfl
      · intro b hb hbl
        have hb' : b ∈ lengthChanges e.lists := by
          rcases List.mem_append.1 hb with hb | hb
          · exact hbefore b hb
          · exact List.mem_singleton.1 hb ▸ hc
        have hvalue := (mem_lengthChanges.1 hb').2
        rw [hbl, hc₂] at hvalue
        rw [Option.some.inj hvalue]
    · have hname : l.name ≠ c.1.name := fun h => hlc (eq_of_name hc₁ hl h.symm)
      refine ⟨n, ?_, ?_, fun hno => hrest fun b hb => hno b (List.mem_append_left _ hb)⟩
      · dsimp only
        rw [Function.update_of_ne hname, hn]
      · intro b hb hbl
        rcases List.mem_append.1 hb with hb | hb
        · exact hdone b hb hbl
        · exact absurd (List.mem_singleton.1 hb ▸ hbl) hlc

/-- The driver between the two callbacks: nothing but the lengths has changed, and
these are as configured. -/
def Ready (e : SchedEdit) (d : SchedDriver) : Prop :=
  ∀ l ∈ e.lists, ∃ n, d l.name = (e.driver l.name).setLength n ∧ ∀ m, l.length = some m → n = m.toNat

theorem LengthInv.ready {s : SchedLocals} (h : LengthInv e (lengthChanges e.lists) s) : e.Ready s.driver := by
  intro l hl
  obtain ⟨n, hn, hdone, hrest⟩ := h.driver l hl
  refine ⟨n, hn, fun m hm => ?_⟩
  cases hchange : l.lengthChange with
  | none =>
    have hno : ∀ b ∈ lengthChanges e.lists, b.1 ≠ l := by
      rintro b hb rfl
      rw [(mem_lengthChanges.1 hb).2] at hchange
      cases hchange
    have hheld := e.held l hl
    rw [SchedList.Held, lengthChange_eq_none hchange, hm] at hheld
    exact (hrest hno).trans hheld.2.length
  | some change =>
    have hvalue : l.length = some change.2 := by
      rcases lengthChange_eq_some hchange with ⟨-, hnone⟩ | ⟨-, hsome⟩
      · rw [hnone] at hm
        cases hm
      · exact hsome
    rw [hvalue] at hm
    rw [← Option.some.inj hm]
    exact hdone (l, change) (mem_lengthChanges.2 ⟨hl, hchange⟩) rfl

/-- **The callback for the lengths passes the edit when every changed length
passes.** -/
theorem lengthCb_cases (e : SchedEdit) :
    (AllGo LengthPasses (lengthChanges e.lists) ∧
      ∃ d, interfaceSchedAclLengthCb .change true e.driver e.lists = .returned .ok d ∧ e.Ready d) ∨
    (¬AllGo LengthPasses (lengthChanges e.lists) ∧
      ∃ d, interfaceSchedAclLengthCb .change true e.driver e.lists = .returned .operationFailed d) := by
  have hmem : ∀ {before c}, before ++ [c] <+: lengthChanges e.lists →
      c ∈ lengthChanges e.lists ∧ ∀ b ∈ before, b ∈ lengthChanges e.lists := fun hpre =>
    ⟨hpre.subset (by simp), fun b hb => hpre.subset (List.mem_append_left _ hb)⟩
  have hgo : ∀ before c s, before ++ [c] <+: lengthChanges e.lists → e.LengthInv before s → LengthPasses before c →
      ∃ s', interfaceSchedAclLengthTurn .change s c = .ok s' ∧ e.LengthInv (before ++ [c]) s' := by
    intro before c s hpre hinv hgo
    obtain ⟨hc, hbefore⟩ := hmem hpre
    obtain ⟨hc₁, hc₂⟩ := mem_lengthChanges.1 hc
    obtain ⟨v, hturn, hv⟩ := lengthTurn_passes hc₂ hinv.numAcl hinv.valid (hinv.supported hc₁) hgo
    exact ⟨_, hturn, hinv.step hc hbefore hv⟩
  have hend : ∀ before c s, before ++ [c] <+: lengthChanges e.lists → e.LengthInv before s → ¬LengthPasses before c →
      ∃ r, interfaceSchedAclLengthTurn .change s c = .error r ∧ ∃ d, r = .returned .operationFailed d := by
    intro before c s hpre hinv hno
    obtain ⟨hc₁, hc₂⟩ := mem_lengthChanges.1 (hmem hpre).1
    exact ⟨_, lengthTurn_refused hc₂ hinv.numAcl hinv.valid (hinv.supported hc₁) hno, s.driver, rfl⟩
  rcases foldlM_cases hgo hend LengthInv.nil with ⟨hall, s, hrun, hinv⟩ | ⟨before, c, r, hpre, -, hno, hrun, d, rfl⟩
  · refine .inl ⟨hall, s.driver, ?_, hinv.ready⟩
    simp [interfaceSchedAclLengthCb, callback, hrun, ended]
  · refine .inr ⟨fun hall => hno (hall before c hpre), d, ?_⟩
    simp [interfaceSchedAclLengthCb, callback, hrun, ended]

/-- What the callback for the entries has done. -/
structure EntryInv (e : SchedEdit) (before : List (EntryChange SchedList)) (s : SchedLocals) : Prop where
  numAcl : s.numAcl = 0
  added : ∀ l ∈ e.lists,
    Added SchedLeaves.Means l.entries (e.driver l.name) (s.driver l.name) fun i => ⟨l, .created, i⟩ ∈ before
  length : ∀ l ∈ e.lists, ∀ m, l.length = some m → (s.driver l.name).adminControlListLength = m.toNat

theorem Ready.entryInv {d : SchedDriver} (h : e.Ready d) : EntryInv e [] { driver := d } where
  numAcl := rfl
  added l hl := by
    obtain ⟨n, hn, -⟩ := h l hl
    dsimp only
    rw [hn]
    exact (Added.empty n).congr fun i => by simp
  length l hl m hm := by
    obtain ⟨n, hn, hlength⟩ := h l hl
    dsimp only
    rw [hn]
    exact hlength m hm

/-- Whether a change of an index leaf lets the callback go on. -/
def EntryPasses (e : SchedEdit) (_ : List (EntryChange SchedList)) (c : EntryChange SchedList) : Prop :=
  c.list.length ≠ none ∧ ¬EntryRefused (e.driver c.list.name).hwGranularityNs c

/-- How the callback is left: without a length for the interface it ends with
success. -/
def EntryEnds (_ : List (EntryChange SchedList)) (c : EntryChange SchedList) (r : Ended String StGateControlEntry) :
    Prop :=
  c.list.length = none ∧ (∃ d, r = .returned .ok d) ∨ c.list.length ≠ none ∧ ∃ d, r = .returned .operationFailed d

section Turn

variable {before : List (EntryChange SchedList)} {c : EntryChange SchedList} {s : SchedLocals}

theorem EntryInv.deleted (h : EntryInv e before s) (hop : c.op ≠ .created) :
    EntryInv e (before ++ [c]) { s with numAcl := 0 } where
  numAcl := rfl
  added l hl := (h.added l hl).congr fun i => by
    have hne : (⟨l, .created, i⟩ : EntryChange SchedList) ≠ c := fun heq => hop (heq ▸ rfl)
    simp [hne]
  length := h.length

theorem EntryInv.created (h : EntryInv e before s) (hl : c.list ∈ e.lists) (hop : c.op = .created) {m : BitVec 32}
    (hm : c.list.length = some m) {leaves : SchedLeaves} (hleaves : lookup c.list.entries c.index = some leaves)
    {row : StGateControlEntry} (hrow : leaves.Means (e.driver c.list.name).hwGranularityNs row) :
    EntryInv e (before ++ [c])
      { s with
        driver := Function.update s.driver c.list.name
          (((s.driver c.list.name).setLength m.toNat).setEntry c.index.toNat row)
        gcl := true } where
  numAcl := h.numAcl
  added l hl' := by
    dsimp only
    by_cases hlc : l = c.list
    · subst hlc
      rw [Function.update_self]
      refine (((h.added _ hl').setLength m.toNat).setEntry hleaves hrow).congr fun i => ?_
      have hc : (⟨c.list, .created, i⟩ : EntryChange SchedList) = c ↔ i = c.index :=
        ⟨fun heq => heq ▸ rfl, fun heq => by rw [heq, ← hop]⟩
      rw [List.mem_append, List.mem_singleton, hc]
    · have hname : l.name ≠ c.list.name := fun h => hlc (eq_of_name hl' hl h)
      rw [Function.update_of_ne hname]
      refine (h.added l hl').congr fun i => ?_
      have hne : (⟨l, .created, i⟩ : EntryChange SchedList) ≠ c := fun heq => hlc (heq ▸ rfl)
      simp [hne]
  length l hl' m' hm' := by
    dsimp only
    by_cases hlc : l = c.list
    · subst hlc
      rw [hm] at hm'
      obtain rfl := Option.some.inj hm'
      rw [Function.update_self]
      rfl
    · have hname : l.name ≠ c.list.name := fun h => hlc (eq_of_name hl' hl h)
      rw [Function.update_of_ne hname]
      exact h.length l hl' m' hm'

theorem EntryInv.passes (h : EntryInv e before s) (hc : c ∈ e.changes) (hpass : e.EntryPasses before c) :
    ∃ s', interfaceSchedAclTurn s c = .ok s' ∧ EntryInv e (before ++ [c]) s' := by
  obtain ⟨hl, hchange⟩ := (e.mem_changes c).1 hc
  obtain ⟨hlength, hnot⟩ := hpass
  obtain ⟨m, hm⟩ := Option.ne_none_iff_exists'.1 hlength
  have hadded := h.added _ hl
  unfold interfaceSchedAclTurn
  rw [hm]
  dsimp only
  by_cases hop : c.op = .created
  · obtain ⟨f, -, -, hleaves⟩ := hchange.lookup hop
    have hfree : ¬Barred c.list.toEditedList m.toNat c.index := fun hb => hnot ⟨m, hm, .inl ⟨hop, .inl hb⟩⟩
    obtain ⟨row, hrow⟩ : ∃ row, f.leaves.Means (e.driver c.list.name).hwGranularityNs row := by
      by_contra hno
      refine hnot ⟨m, hm, .inl ⟨hop, .inr fun leaves hleaves' => ?_⟩⟩
      rw [hleaves] at hleaves'
      exact Option.some.inj hleaves' ▸ hno
    have hread : f.leaves.read (s.driver c.list.name).tickGranularity = .row row := by
      rw [Port.tickGranularity, hadded.tick]
      exact SchedLeaves.read_iff.2 hrow
    have hsup := e.supported _ hl
    rw [if_pos hop, if_neg (by rw [hadded.opens, hadded.feat]; simp [hsup]), addEntry_leaves hfree hleaves, hread]
    exact ⟨_, rfl, h.created hl hop hm hleaves hrow⟩
  · have hcount : m.toNat = c.list.entries.length := by
      by_contra hne
      exact hnot ⟨m, hm, .inr ⟨hchange.elim (fun h => absurd h.1 hop) (·.1), hne⟩⟩
    rw [if_neg hop, if_pos (hchange.elim (fun h => absurd h.1 hop) (·.1)),
      if_neg (by rw [h.numAcl, Nat.zero_add]; exact not_not.2 hcount)]
    exact ⟨_, rfl, h.deleted hop⟩

theorem EntryInv.ends (h : EntryInv e before s) (hc : c ∈ e.changes) (hno : ¬e.EntryPasses before c) :
    ∃ r, interfaceSchedAclTurn s c = .error r ∧ EntryEnds before c r := by
  obtain ⟨hl, hchange⟩ := (e.mem_changes c).1 hc
  have hadded := h.added _ hl
  unfold interfaceSchedAclTurn
  cases hm : c.list.length with
  | none => exact ⟨_, rfl, .inl ⟨hm, s.driver, rfl⟩⟩
  | some m =>
    have hsome : c.list.length ≠ none := by simp [hm]
    obtain ⟨m', hm', hrefused⟩ : EntryRefused (e.driver c.list.name).hwGranularityNs c := by
      by_contra hnot
      exact hno ⟨hsome, hnot⟩
    rw [hm] at hm'
    obtain rfl := Option.some.inj hm'
    dsimp only
    rcases hrefused with ⟨hop, hbad⟩ | ⟨hop, hne⟩
    · obtain ⟨f, -, -, hleaves⟩ := hchange.lookup hop
      have hsup := e.supported _ hl
      rw [if_pos hop, if_neg (by rw [hadded.opens, hadded.feat]; simp [hsup])]
      by_cases hb : Barred c.list.toEditedList m.toNat c.index
      · obtain ⟨d, hd⟩ : ∃ d, addEntry SchedLeaves.read s c.list.toEditedList m.toNat c.op c.index = failed d :=
          addEntry_barred hb
        exact ⟨_, hd, .inr ⟨hsome, d, rfl⟩⟩
      · have hmeans := hbad.resolve_left hb f.leaves hleaves
        have hread : f.leaves.read (s.driver c.list.name).tickGranularity = .failed := by
          cases hr : f.leaves.read (s.driver c.list.name).tickGranularity with
          | failed => rfl
          | skipped => exact absurd hr (f.leaves.read_ne_skipped _)
          | row row =>
            rw [Port.tickGranularity, hadded.tick] at hr
            exact absurd ⟨row, SchedLeaves.read_iff.1 hr⟩ hmeans
        rw [addEntry_leaves hb hleaves, hread]
        exact ⟨_, rfl, .inr ⟨hsome, _, rfl⟩⟩
    · have hcreated : c.op ≠ .created := by rw [hop]; decide
      rw [if_neg hcreated, if_pos hop, if_pos (by rw [h.numAcl, Nat.zero_add]; exact hne)]
      exact ⟨_, rfl, .inr ⟨hsome, _, rfl⟩⟩

end Turn

/-! ## The edit -/

/-- **An edit ends with success when nothing in it is refused, and otherwise with
an error.** It is done to its end where every interface has a length. -/
theorem run_cases (e : SchedEdit) :
    (¬e.Refused ∧ ∃ d, e.run = .returned .ok d ∧
      ((∀ c ∈ e.changes, c.list.length ≠ none) → ∃ s, EntryInv e e.changes s ∧ s.driver = d)) ∨
    (e.Refused ∧ ∃ d, e.run = .returned .operationFailed d) := by
  rcases lengthCb_cases e with ⟨hlengths, d, hrun, hready⟩ | ⟨hlengths, d, hrun⟩
  · have hno : ¬∃ before c, before ++ [c] <+: lengthChanges e.lists ∧ ¬LengthPasses before c :=
      fun ⟨before, c, hpre, h⟩ => h (hlengths before c hpre)
    have heq : e.run = interfaceSchedAclCb .change true d e.changes := by rw [run, editSched, hrun]
    have hmem : ∀ {before : List (EntryChange SchedList)} {c}, before ++ [c] <+: e.changes → c ∈ e.changes :=
      fun hpre => hpre.subset (by simp)
    have hgo : ∀ before c s, before ++ [c] <+: e.changes → EntryInv e before s → e.EntryPasses before c →
        ∃ s', interfaceSchedAclTurn s c = .ok s' ∧ EntryInv e (before ++ [c]) s' :=
      fun _ _ _ hpre hinv => hinv.passes (hmem hpre)
    have hend : ∀ before c s, before ++ [c] <+: e.changes → EntryInv e before s → ¬e.EntryPasses before c →
        ∃ r, interfaceSchedAclTurn s c = .error r ∧ EntryEnds before c r :=
      fun _ _ _ hpre hinv => hinv.ends (hmem hpre)
    rcases foldlM_cases hgo hend hready.entryInv
      with ⟨hall, s, hfold, hinv⟩ | ⟨before, c, r, hpre, hall, hstop, hfold, hends⟩
    · refine .inl ⟨?_, s.driver, ?_, fun _ => ⟨s, hinv, rfl⟩⟩
      · rintro (h | ⟨before, c, hpre, -, hrefused⟩)
        · exact hno h
        · exact (hall before c hpre).2 hrefused
      · rw [heq]
        simp [interfaceSchedAclCb, callback, hfold, ended]
    · rw [heq]
      rcases hends with ⟨hnone, d', rfl⟩ | ⟨hsome, d', rfl⟩
      · refine .inl ⟨?_, d', by simp [interfaceSchedAclCb, callback, hfold, ended],
          fun h => absurd hnone (h c (hmem hpre))⟩
        rintro (h | ⟨before', c', hpre', hsome', n, hn, hrefused⟩)
        · exact hno h
        · rcases first_of_two hpre hpre' with hfirst | hfirst | ⟨-, rfl⟩
          · exact hsome' c (hfirst.subset (by simp)) hnone
          · exact (hall before' c' hfirst).2 ⟨n, hn, hrefused⟩
          · rw [hnone] at hn
            cases hn
      · refine .inr ⟨.inr ⟨before, c, hpre, fun b hb => ?_, ?_⟩, d', by
          simp [interfaceSchedAclCb, callback, hfold, ended]⟩
        · obtain ⟨before', after, rfl⟩ := List.append_of_mem hb
          exact (hall before' b ⟨after, by simp⟩).1
        · by_contra hnot
          exact hstop ⟨hsome, hnot⟩
  · refine .inr ⟨.inl ?_, d, by rw [run, editSched, hrun]⟩
    by_contra hno
    refine hlengths fun before c hpre => ?_
    by_contra hpass
    exact hno ⟨before, c, hpre, hpass⟩

/-- Nothing is refused in a well-formed edit that fits. -/
theorem WellFormed.not_refused (h : e.WellFormed) (hfits : e.Fits) : ¬e.Refused := by
  rintro (⟨before, c, hpre, hno⟩ | ⟨before, c, hpre, -, m, hm, hrefused⟩)
  · obtain ⟨hl, hchange⟩ := mem_lengthChanges.1 (hpre.subset (by simp : c ∈ before ++ [c]))
    obtain ⟨n, hn, hproper⟩ := h c.1 hl
    rcases lengthChange_eq_some hchange with ⟨-, hnone⟩ | ⟨hop, hsome⟩
    · rw [hnone] at hn
      cases hn
    · rw [hn] at hsome
      obtain rfl := Option.some.inj hsome
      have hpass := hproper.passes
      exact hno ⟨by rcases hop with hop | hop <;> rw [hop] <;> decide, hproper.length_eq.symm, hpass.imp_right .inl⟩
  · have hc : c ∈ e.changes := hpre.subset (by simp)
    obtain ⟨hl, hchange⟩ := (e.mem_changes c).1 hc
    obtain ⟨n, hn, hproper⟩ := h c.list hl
    rw [hn] at hm
    obtain rfl := Option.some.inj hm
    rcases hrefused with ⟨hop, hbad⟩ | ⟨-, hne⟩
    · obtain ⟨f, hf, hindex, hleaves⟩ := hchange.lookup hop
      obtain ⟨hmax, hconfig⟩ := hfits c hc hop n hn
      rcases hbad with (hlong | hout | hnone) | hno
      · exact absurd hmax (Nat.not_le.2 hlong)
      · exact absurd (hproper.lt hf) (by rw [hindex]; exact Nat.not_lt.2 hout)
      · exact hconfig hnone
      · exact hno f.leaves hleaves (hproper.translates f hf)
    · exact hne hproper.length_eq.symm

/-- A well-formed edit that does not fit is refused. -/
theorem WellFormed.fits (h : e.WellFormed) (hno : ¬e.Refused) : e.Fits := by
  intro c hc hop n hn
  obtain ⟨before, after, hsplit⟩ := List.append_of_mem hc
  by_contra hfits
  refine hno (.inr ⟨before, c, ⟨after, by rw [hsplit]; simp⟩, fun b hb => ?_, n, hn, .inl ⟨hop, .inl ?_⟩⟩)
  · have hb' : b ∈ e.changes := by
      rw [hsplit]
      exact List.mem_append_left _ hb
    obtain ⟨m, hm, -⟩ := h b.list ((e.mem_changes b).1 hb').1
    simp [hm]
  · by_contra hfree
    simp only [Barred, not_or] at hfree
    exact hfits ⟨Nat.not_lt.1 hfree.1, hfree.2.2⟩

/-- What a well-formed edit leaves in the driver. -/
theorem EntryInv.applied {s : SchedLocals} (hinv : EntryInv e e.changes s) (h : e.WellFormed) :
    e.Applied s.driver := by
  intro l hl
  obtain ⟨n, hn, hproper⟩ := h l hl
  refine ⟨n, hn, (hinv.added l hl).mirrors hproper (hinv.length l hl n hn) fun f hf hold => ?_⟩
  have hf' : f ∈ l.old := l.mem_old hf fun hchange => hold ((e.mem_changes _).2 ⟨hl, hchange⟩)
  have hheld := e.held l hl
  unfold SchedList.Held at hheld
  cases hlength : l.oldLength with
  | none =>
    rw [hlength] at hheld
    rw [show l.old = [] from hheld] at hf'
    cases hf'
  | some m =>
    rw [hlength] at hheld
    exact (rows_iff hheld.1.counted hheld.2.length).1 hheld.2.rows f hf'

/-- **The callbacks of an edit do what they should when its lists are proper and
what is added fits, or when they are not and something is refused.** -/
theorem meets_iff (e : SchedEdit) : e.Meets ↔ e.WellFormed ∧ e.Fits ∨ ¬e.WellFormed ∧ e.Refused := by
  have hlengths : e.WellFormed → ∀ c ∈ e.changes, c.list.length ≠ none := fun h c hc => by
    obtain ⟨n, hn, -⟩ := h c.list ((e.mem_changes c).1 hc).1
    simp [hn]
  rcases run_cases e with ⟨hno, d, hrun, hdone⟩ | ⟨hrefused, d, hrun⟩
  · rw [SchedEdit.Meets, meets_of_ok hrun]
    constructor
    · rintro ⟨hwell, -⟩
      exact .inl ⟨hwell, hwell.fits hno⟩
    · rintro (⟨hwell, -⟩ | ⟨-, hrefused⟩)
      · obtain ⟨s, hinv, rfl⟩ := hdone (hlengths hwell)
        exact ⟨hwell, hinv.applied hwell⟩
      · exact absurd hrefused hno
  · rw [SchedEdit.Meets, meets_of_failed hrun (by decide)]
    constructor
    · intro hnot
      exact .inr ⟨hnot, hrefused⟩
    · rintro (⟨hwell, hfits⟩ | ⟨hnot, -⟩)
      · exact absurd hrefused (hwell.not_refused hfits)
      · exact hnot

end SchedEdit

end TsnSwitch.Sysrepo.Acl
