/-
The admin control lists of stream gates.

The callback leaves out an entry with another operation, gate state or IPV and
still returns success, and passes a list that starts at 1. An entry that is left
out behind one that was added frees the buffer of that one again. Where none of
these is met an edit is accepted when its lists are proper, is then applied, and
is refused otherwise.
-/
import TsnSwitch.Sysrepo.AclSched

namespace TsnSwitch.Sysrepo.Acl

open Lib

/-! ## Reading an entry -/

/-- An entry that is left out: another operation, or a gate state or an IPV that
is in no map. -/
def PsfpLeaves.Foreign (ns : Nat) (leaves : PsfpLeaves) : Prop :=
  ∃ name, leaves.operationName = some name ∧
    (name ≠ "ieee802-dot1q-psfp:set-gate-and-ipv" ∨
      ∃ gate, leaves.gateStateValue = some gate ∧
        (translateSingleStringUsingMap gate psfpAgsReverseMap = none ∨
          ∃ interval ipv, leaves.timeIntervalValue = some interval ∧ ns ∣ interval.toNat ∧ leaves.ipvSpec = some ipv ∧
            translateSingleStringUsingMap ipv sfgIpvSpecReverseMap = none))

/-- A leaf is missing, or the interval is no multiple of the tick. -/
def PsfpLeaves.Incomplete (ns : Nat) (leaves : PsfpLeaves) : Prop :=
  leaves.operationName = none ∨ leaves.gateStateValue = none ∨
    (∀ interval, leaves.timeIntervalValue = some interval → ¬ns ∣ interval.toNat) ∨ leaves.ipvSpec = none

/-- The three ways in which reading an entry ends. -/
theorem PsfpLeaves.read_cases (leaves : PsfpLeaves) (ns : Nat) :
    (leaves.read (10 * ns) = .failed ∧ leaves.Incomplete ns ∧ ¬leaves.Foreign ns) ∨
      (leaves.read (10 * ns) = .skipped ∧ leaves.Foreign ns) ∨
      ((∃ row, leaves.read (10 * ns) = .row row) ∧ ¬leaves.Incomplete ns ∧ ¬leaves.Foreign ns) := by
  unfold PsfpLeaves.read PsfpLeaves.Incomplete PsfpLeaves.Foreign
  rw [tick_eq]
  cases leaves.operationName with
  | none => simp
  | some name =>
    by_cases hname : name = "ieee802-dot1q-psfp:set-gate-and-ipv"
    · cases leaves.gateStateValue with
      | none => simp [hname]
      | some gate =>
        cases hgate : translateSingleStringUsingMap gate psfpAgsReverseMap with
        | none => simp [hname, hgate]
        | some gsv =>
          cases leaves.timeIntervalValue with
          | none => simp [hname, hgate]
          | some interval =>
            by_cases hdvd : ns ∣ interval.toNat
            · have hmod : interval.toNat % ns = 0 := Nat.mod_eq_zero_of_dvd hdvd
              cases leaves.ipvSpec with
              | none => simp [hname, hgate, hdvd, hmod]
              | some ipv =>
                cases hipv : translateSingleStringUsingMap ipv sfgIpvSpecReverseMap <;>
                  simp [hname, hgate, hdvd, hmod, hipv]
            · have hmod : interval.toNat % ns ≠ 0 := fun h => hdvd (Nat.dvd_of_mod_eq_zero h)
              simp [hname, hgate, hdvd, hmod]
    · simp [hname]

theorem translate_gateState {name : String} {gsv : BitVec 8} (h : (name, gsv) ∈ GATE_STATES) :
    ∃ text, translateSingleStringUsingMap name psfpAgsReverseMap = some text ∧ octet text = gsv := by
  simp only [GATE_STATES, List.mem_cons, List.not_mem_nil, or_false, Prod.mk.injEq] at h
  rcases h with ⟨rfl, rfl⟩ | ⟨rfl, rfl⟩
  · exact ⟨"0", by decide, by decide⟩
  · exact ⟨"1", by decide, by decide⟩

theorem translate_ipv {name : String} {ipv : BitVec 8} (h : (name, ipv) ∈ IPVS) :
    ∃ text, translateSingleStringUsingMap name sfgIpvSpecReverseMap = some text ∧ octet text = ipv := by
  simp only [IPVS, List.mem_cons, List.not_mem_nil, or_false, Prod.mk.injEq] at h
  rcases h with ⟨rfl, rfl⟩ | ⟨rfl, rfl⟩ | ⟨rfl, rfl⟩ | ⟨rfl, rfl⟩ | ⟨rfl, rfl⟩ | ⟨rfl, rfl⟩ | ⟨rfl, rfl⟩ | ⟨rfl, rfl⟩ |
    ⟨rfl, rfl⟩
  · exact ⟨"0", by decide, by decide⟩
  · exact ⟨"1", by decide, by decide⟩
  · exact ⟨"2", by decide, by decide⟩
  · exact ⟨"3", by decide, by decide⟩
  · exact ⟨"4", by decide, by decide⟩
  · exact ⟨"5", by decide, by decide⟩
  · exact ⟨"6", by decide, by decide⟩
  · exact ⟨"7", by decide, by decide⟩
  · exact ⟨"-1", by decide, by decide⟩

/-- **An entry of a stream gate is read as the row it means.** -/
theorem PsfpLeaves.Means.read {leaves : PsfpLeaves} {ns : Nat} {row : PsfpGateControlEntry} (h : leaves.Means ns row) :
    leaves.read (10 * ns) = .row row := by
  obtain ⟨hname, hop⟩ := h.operation
  obtain ⟨gate, hgate, hgsv⟩ := h.gateState
  obtain ⟨hinterval, hdvd⟩ := h.interval
  obtain ⟨spec, hspec, hipv⟩ := h.ipv
  obtain ⟨gateText, hgateText, hgateOctet⟩ := translate_gateState hgsv
  obtain ⟨ipvText, hipvText, hipvOctet⟩ := translate_ipv hipv
  have hmod : row.interval.toNat % ns = 0 := Nat.mod_eq_zero_of_dvd hdvd
  unfold PsfpLeaves.read
  rw [hname, hgate, hinterval, hspec, tick_eq]
  simp only [ne_eq, not_true_eq_false, if_false, hgateText, hmod, hipvText, hgateOctet, hipvOctet, ← hop]

theorem PsfpLeaves.Means.complete {leaves : PsfpLeaves} {ns : Nat} {row : PsfpGateControlEntry}
    (h : leaves.Means ns row) : ¬leaves.Incomplete ns ∧ ¬leaves.Foreign ns := by
  rcases leaves.read_cases ns with ⟨hr, -⟩ | ⟨hr, -⟩ | ⟨-, hc⟩
  · rw [h.read] at hr
    cases hr
  · rw [h.read] at hr
    cases hr
  · exact hc

/-! ## Edits -/

/-- An edit of the lists of any number of stream gates, and the driver it meets. A
list is as long as it has entries. -/
structure GateEdit where
  lists : List GateList
  /-- The changed index leaves, as the session gives them. -/
  changes : List (EntryChange GateList)
  driver : PsfpDriver
  names : (lists.map fun l => l.name).Nodup
  mem_changes : ∀ c, c ∈ changes ↔ c.list ∈ lists ∧ c.list.Changes c.op c.index
  edited : ∀ l ∈ lists, ∃ c ∈ changes, c.list = l
  supported : ∀ l ∈ lists, (driver l.name).opens = true
  held : ∀ l ∈ lists, Proper (PsfpLeaves.Means (driver l.name).hwGranularityNs) l.old.length l.old ∧
    Mirrors (PsfpLeaves.Means (driver l.name).hwGranularityNs) (driver l.name) l.old.length l.old

namespace GateEdit

def run (e : GateEdit) : Ended GateId PsfpGateControlEntry := psfpAclCb .change true e.driver e.changes

def WellFormed (e : GateEdit) : Prop :=
  ∀ l ∈ e.lists, Proper (PsfpLeaves.Means (e.driver l.name).hwGranularityNs) l.entries.length l.entries

def Applied (e : GateEdit) (d : PsfpDriver) : Prop :=
  ∀ l ∈ e.lists, Mirrors (PsfpLeaves.Means (d l.name).hwGranularityNs) (d l.name) l.entries.length l.entries

def Meets (e : GateEdit) : Prop := Acl.Meets e.run e.WellFormed e.Applied

/-- Where entries are added the list is not too long, and config-change is there. -/
def Fits (e : GateEdit) : Prop :=
  ∀ c ∈ e.changes, c.op = .created → c.list.entries.length ≤ MAX_NUMBER_OF_ACL ∧ c.list.configChange ≠ none

/-- A created entry that is left out. -/
def Skips (e : GateEdit) (c : EntryChange GateList) : Prop :=
  c.op = .created ∧ ∃ leaves, lookup c.list.entries c.index = some leaves ∧
    leaves.Foreign (e.driver c.list.name).hwGranularityNs

/-- The indices of the list do not pass, or a created entry cannot be added. -/
def Refuses (e : GateEdit) (c : EntryChange GateList) : Prop :=
  ¬(Reaches (indices c.list.entries) ∨ c.list.entries = []) ∨
    c.op = .created ∧ (Barred c.list c.list.entries.length c.index ∨
      ∃ leaves, lookup c.list.entries c.index = some leaves ∧
        leaves.Incomplete (e.driver c.list.name).hwGranularityNs ∧ ¬leaves.Foreign (e.driver c.list.name).hwGranularityNs)

/-- Some change is refused, and no entry before it is left out behind one that was
added. -/
def Refused (e : GateEdit) : Prop :=
  ∃ before c, before ++ [c] <+: e.changes ∧ e.Refuses c ∧
    before.Pairwise fun a b => ¬(a.op = .created ∧ ¬e.Skips a ∧ e.Skips b)

end GateEdit

/-! ## The changes -/

namespace GateEdit

variable {e : GateEdit} {l l' : GateList} {before : List (EntryChange GateList)} {c : EntryChange GateList}
  {s : PsfpLocals}

theorem eq_of_name (hl : l ∈ e.lists) (hl' : l' ∈ e.lists) (h : l.name = l'.name) : l = l' :=
  List.inj_on_of_nodup_map e.names hl hl' h

/-- The row an entry is read as. -/
def ReadAs (ns : Nat) (leaves : PsfpLeaves) (row : PsfpGateControlEntry) : Prop := leaves.read (10 * ns) = .row row

/-- The indices whose rows have been written. -/
def Written (e : GateEdit) (before : List (EntryChange GateList)) (l : GateList) (i : BitVec 32) : Prop :=
  (⟨l, .created, i⟩ : EntryChange GateList) ∈ before ∧ ¬e.Skips ⟨l, .created, i⟩

/-- What the callback has done. -/
structure Inv (e : GateEdit) (before : List (EntryChange GateList)) (s : PsfpLocals) : Prop where
  numAcl : s.numAcl = 0
  validGclLen : s.validGclLen = 0
  gcl : s.gcl = true ↔ ∃ b ∈ before, b.op = .created ∧ ¬e.Skips b
  added : ∀ l ∈ e.lists, Added ReadAs l.entries (e.driver l.name) (s.driver l.name) (e.Written before l)
  length : ∀ l ∈ e.lists, (∃ b ∈ before, b.list = l) → (s.driver l.name).adminControlListLength = l.entries.length

theorem Inv.nil : Inv e [] { driver := e.driver } where
  numAcl := rfl
  validGclLen := rfl
  gcl := by simp
  added l _ := (Added.empty (e.driver l.name).adminControlListLength).congr fun i => by simp [Written]
  length := by simp

/-- Whether a change lets the callback go on. -/
def Passes (e : GateEdit) (before : List (EntryChange GateList)) (c : EntryChange GateList) : Prop :=
  ¬e.Refuses c ∧ ∀ b ∈ before, ¬(b.op = .created ∧ ¬e.Skips b ∧ e.Skips c)

def Ends (e : GateEdit) (_ : List (EntryChange GateList)) (c : EntryChange GateList)
    (r : Ended GateId PsfpGateControlEntry) : Prop :=
  e.Refuses c ∧ (∃ d, r = .returned .operationFailed d) ∨ ¬e.Refuses c ∧ r = .doubleFree

/-- What a turn does once the indices of its list have passed. -/
theorem turn_eq (h : Inv e before s) (hl : c.list ∈ e.lists)
    (hpass : Reaches (indices c.list.entries) ∨ c.list.entries = []) :
    psfpAclTurn s c =
      (let s' : PsfpLocals :=
        { s with driver := Function.update s.driver c.list.name
                   ((s.driver c.list.name).setLength c.list.entries.length), numAcl := 0, validGclLen := 0 }
       if c.op = .created then addEntry PsfpLeaves.read s' c.list c.list.entries.length c.op c.index else .ok s') := by
  have hopens : ¬(s.driver c.list.name).opens = false := by
    rw [(h.added _ hl).opens, e.supported _ hl]
    decide
  obtain ⟨v, hscan, hv⟩ : ∃ v, scanIndices c.list.entries.length 0 0 (indices c.list.entries) = some v ∧
      ¬(v = 0 ∧ c.list.entries.length ≠ 0) := by
    rcases hpass with hreach | hnil
    · exact ⟨1, scan_entries.2 (.inl ⟨rfl, hreach⟩), by simp⟩
    · exact ⟨0, scan_entries.2 (.inr ⟨rfl, .inl hnil⟩), by simp [hnil]⟩
  unfold psfpAclTurn
  dsimp only
  rw [if_neg hopens, h.numAcl, h.validGclLen, Nat.zero_add, hscan]
  dsimp only
  rw [if_neg hv]

theorem turn_refused (h : Inv e before s) (hno : ¬(Reaches (indices c.list.entries) ∨ c.list.entries = [])) :
    ∃ d, psfpAclTurn s c = failed d := by
  unfold psfpAclTurn
  dsimp only
  by_cases hopens : (s.driver c.list.name).opens = false
  · exact ⟨_, if_pos hopens⟩
  rw [if_neg hopens, h.numAcl, h.validGclLen, Nat.zero_add]
  cases hscan : scanIndices c.list.entries.length 0 0 (indices c.list.entries) with
  | none => exact ⟨_, rfl⟩
  | some v =>
    have hv : v = 0 ∧ c.list.entries.length ≠ 0 := by
      rcases scan_entries.1 hscan with ⟨-, hreach⟩ | ⟨rfl, hnil | hone⟩
      · exact absurd (.inl hreach) hno
      · exact absurd (.inr hnil) hno
      · exact ⟨rfl, fun hzero => hno (.inr (List.length_eq_zero_iff.1 hzero))⟩
    dsimp only
    exact ⟨_, if_pos hv⟩

theorem Inv.snoc (h : Inv e before s) (hl : c.list ∈ e.lists) {p : Port PsfpGateControlEntry} {gcl : Bool}
    (hadded : Added ReadAs c.list.entries (e.driver c.list.name) p (e.Written (before ++ [c]) c.list))
    (hlength : p.adminControlListLength = c.list.entries.length)
    (hgcl : gcl = true ↔ ∃ b ∈ before ++ [c], b.op = .created ∧ ¬e.Skips b) :
    Inv e (before ++ [c]) { driver := Function.update s.driver c.list.name p, gcl } where
  numAcl := rfl
  validGclLen := rfl
  gcl := hgcl
  added l hl' := by
    dsimp only
    by_cases hlc : l = c.list
    · subst hlc
      rwa [Function.update_self]
    · have hname : l.name ≠ c.list.name := fun h => hlc (eq_of_name hl' hl h)
      rw [Function.update_of_ne hname]
      refine (h.added l hl').congr fun i => ?_
      have hne : (⟨l, .created, i⟩ : EntryChange GateList) ≠ c := fun heq => hlc (heq ▸ rfl)
      simp [Written, hne]
  length l hl' := by
    rintro ⟨b, hb, rfl⟩
    dsimp only
    by_cases hlc : b.list = c.list
    · rw [hlc, Function.update_self, hlength]
    · have hname : b.list.name ≠ c.list.name := fun h => hlc (eq_of_name hl' hl h)
      rw [Function.update_of_ne hname]
      rcases List.mem_append.1 hb with hb | hb
      · exact h.length _ hl' ⟨b, hb, rfl⟩
      · exact absurd (List.mem_singleton.1 hb ▸ rfl) hlc

theorem Inv.passes (h : Inv e before s) (hc : c ∈ e.changes) (hpass : e.Passes before c) :
    ∃ s', psfpAclTurn s c = .ok s' ∧ Inv e (before ++ [c]) s' := by
  obtain ⟨hl, hchange⟩ := (e.mem_changes c).1 hc
  obtain ⟨hnot, hfree⟩ := hpass
  have hadded := h.added _ hl
  rw [turn_eq h hl (by_contra fun hno => hnot (.inl hno))]
  dsimp only
  by_cases hop : c.op = .created
  · obtain ⟨f, -, -, hleaves⟩ := hchange.lookup hop
    have hbar : ¬Barred c.list c.list.entries.length c.index := fun hb => hnot (.inr ⟨hop, .inl hb⟩)
    have htick : (s.driver c.list.name).tickGranularity = 10 * (e.driver c.list.name).hwGranularityNs := by
      rw [Port.tickGranularity, hadded.tick]
    have hself : (⟨c.list, .created, c.index⟩ : EntryChange GateList) = c := by rw [← hop]
    rw [if_pos hop, addEntry_leaves hbar hleaves]
    dsimp only
    rw [Function.update_self, Function.update_idem]
    rcases f.leaves.read_cases (e.driver c.list.name).hwGranularityNs with
      ⟨-, hincomplete⟩ | ⟨hread, hforeign⟩ | ⟨⟨row, hread⟩, -, hown⟩
    · exact absurd (.inr ⟨hop, .inr ⟨f.leaves, hleaves, hincomplete⟩⟩) hnot
    · have hskips : e.Skips c := ⟨hop, f.leaves, hleaves, hforeign⟩
      have hgcl : ¬s.gcl = true := fun hg => by
        obtain ⟨b, hb, hb₁, hb₂⟩ := h.gcl.1 hg
        exact hfree b hb ⟨hb₁, hb₂, hskips⟩
      refine ⟨{ driver := Function.update s.driver c.list.name ((s.driver c.list.name).setLength c.list.entries.length),
                gcl := s.gcl }, ?_, h.snoc hl ?_ rfl ?_⟩
      · have hread' : f.leaves.read ((s.driver c.list.name).setLength c.list.entries.length).tickGranularity = .skipped :=
          (congrArg f.leaves.read htick).trans hread
        rw [hread']
        exact if_neg hgcl
      · refine (hadded.setLength _).congr fun i => ?_
        simp only [Written, List.mem_append, List.mem_singleton]
        exact ⟨fun h => ⟨h.1.resolve_right fun heq => h.2 (heq ▸ hskips), h.2⟩, fun h => ⟨.inl h.1, h.2⟩⟩
      · rw [h.gcl]
        simp [or_and_right, exists_or, hskips]
    · have hskips : ¬e.Skips c := by
        rintro ⟨-, leaves, hleaves', hforeign⟩
        rw [hleaves] at hleaves'
        exact hown (Option.some.inj hleaves' ▸ hforeign)
      have hread' : f.leaves.read ((s.driver c.list.name).setLength c.list.entries.length).tickGranularity = .row row :=
        (congrArg f.leaves.read htick).trans hread
      rw [hread']
      refine ⟨_, rfl, ?_⟩
      rw [Function.update_idem]
      refine h.snoc hl ?_ rfl (iff_of_true rfl ⟨c, by simp, hop, hskips⟩)
      refine (((hadded.setLength c.list.entries.length).setLength c.list.entries.length).setEntry hleaves hread).congr
        fun i => ?_
      have heq : (⟨c.list, .created, i⟩ : EntryChange GateList) = c ↔ i = c.index :=
        ⟨fun heq => heq ▸ rfl, fun heq => heq ▸ hself⟩
      simp only [Written, List.mem_append, List.mem_singleton, heq]
      constructor
      · rintro ⟨hin | hin, hno⟩
        · exact .inl ⟨hin, hno⟩
        · exact .inr hin
      · rintro (⟨hin, hno⟩ | rfl)
        · exact ⟨.inl hin, hno⟩
        · exact ⟨.inr rfl, by rwa [hself]⟩
  · rw [if_neg hop]
    refine ⟨_, rfl, h.snoc hl ?_ rfl ?_⟩
    · refine (hadded.setLength _).congr fun i => ?_
      have hne : (⟨c.list, .created, i⟩ : EntryChange GateList) ≠ c := fun heq => hop (heq ▸ rfl)
      simp [Written, hne]
    · rw [h.gcl]
      simp [or_and_right, exists_or, hop]

theorem Inv.ends (h : Inv e before s) (hc : c ∈ e.changes) (hno : ¬e.Passes before c) :
    ∃ r, psfpAclTurn s c = .error r ∧ e.Ends before c r := by
  obtain ⟨hl, hchange⟩ := (e.mem_changes c).1 hc
  have hadded := h.added _ hl
  by_cases hpass : Reaches (indices c.list.entries) ∨ c.list.entries = []
  · rw [turn_eq h hl hpass]
    dsimp only
    have hop : c.op = .created := by
      by_contra hop
      refine hno ⟨?_, fun b _ hb => hop hb.2.2.1⟩
      rintro (hno | ⟨hop', -⟩)
      · exact hno hpass
      · exact hop hop'
    obtain ⟨f, -, -, hleaves⟩ := hchange.lookup hop
    rw [if_pos hop]
    by_cases hbar : Barred c.list c.list.entries.length c.index
    · obtain ⟨d, hd⟩ := addEntry_barred hbar
      exact ⟨_, hd, .inl ⟨.inr ⟨hop, .inl hbar⟩, d, rfl⟩⟩
    have hread : f.leaves.read ((s.driver c.list.name).setLength c.list.entries.length).tickGranularity =
        f.leaves.read (10 * (e.driver c.list.name).hwGranularityNs) :=
      congrArg (fun ns => f.leaves.read (10 * ns)) hadded.tick
    rw [addEntry_leaves hbar hleaves]
    dsimp only
    rw [Function.update_self, hread]
    rcases f.leaves.read_cases (e.driver c.list.name).hwGranularityNs with
      ⟨hr, hincomplete⟩ | ⟨hr, hforeign⟩ | ⟨-, hcomplete, hown⟩
    · rw [hr]
      exact ⟨_, rfl, .inl ⟨.inr ⟨hop, .inr ⟨f.leaves, hleaves, hincomplete⟩⟩, _, rfl⟩⟩
    · have hnot : ¬e.Refuses c := by
        rintro (hno | ⟨-, hb | ⟨leaves, hleaves', -, hown⟩⟩)
        · exact hno hpass
        · exact hbar hb
        · rw [hleaves] at hleaves'
          exact hown (Option.some.inj hleaves' ▸ hforeign)
      have hgcl : s.gcl = true := by
        refine h.gcl.2 (by_contra fun hnone => hno ⟨hnot, fun b hb hpair => hnone ⟨b, hb, hpair.1, hpair.2.1⟩⟩)
      rw [hr]
      exact ⟨_, if_pos hgcl, .inr ⟨hnot, rfl⟩⟩
    · refine absurd ⟨?_, ?_⟩ hno
      · rintro (hno | ⟨-, hb | ⟨leaves, hleaves', hincomplete, -⟩⟩)
        · exact hno hpass
        · exact hbar hb
        · rw [hleaves] at hleaves'
          exact hcomplete (Option.some.inj hleaves' ▸ hincomplete)
      · rintro b - ⟨-, -, -, leaves, hleaves', hforeign⟩
        rw [hleaves] at hleaves'
        exact hown (Option.some.inj hleaves' ▸ hforeign)
  · obtain ⟨d, hd⟩ := turn_refused h hpass
    exact ⟨_, hd, .inl ⟨.inl hpass, d, rfl⟩⟩

/-! ## The edit -/

/-- **An edit succeeds when every change passes; is refused; or frees a buffer
twice.** -/
theorem run_cases (e : GateEdit) :
    (AllGo e.Passes e.changes ∧ ∃ s, Inv e e.changes s ∧ e.run = .returned .ok s.driver) ∨
      (e.Refused ∧ ∃ d, e.run = .returned .operationFailed d) ∨
      (¬AllGo e.Passes e.changes ∧ ¬e.Refused ∧ e.run = .doubleFree) := by
  have hmem : ∀ {before : List (EntryChange GateList)} {c}, before ++ [c] <+: e.changes → c ∈ e.changes :=
    fun hpre => hpre.subset (by simp)
  have hgo : ∀ before c s, before ++ [c] <+: e.changes → Inv e before s → e.Passes before c →
      ∃ s', psfpAclTurn s c = .ok s' ∧ Inv e (before ++ [c]) s' := fun _ _ _ hpre hinv => hinv.passes (hmem hpre)
  have hend : ∀ before c s, before ++ [c] <+: e.changes → Inv e before s → ¬e.Passes before c →
      ∃ r, psfpAclTurn s c = .error r ∧ e.Ends before c r := fun _ _ _ hpre hinv => hinv.ends (hmem hpre)
  rcases foldlM_cases hgo hend Inv.nil
    with ⟨hall, s, hfold, hinv⟩ | ⟨before, c, r, hpre, hall, hstop, hfold, hends⟩
  · exact .inl ⟨hall, s, hinv, by simp [run, psfpAclCb, callback, hfold, ended]⟩
  · have hrun : e.run = r := by simp [run, psfpAclCb, callback, hfold, ended]
    have hpairs : before.Pairwise fun a b => ¬(a.op = .created ∧ ¬e.Skips a ∧ e.Skips b) :=
      hall.pairwise fun _ _ h => h.2
    rcases hends with ⟨hrefuses, d, rfl⟩ | ⟨hnot, rfl⟩
    · exact .inr (.inl ⟨⟨before, c, hpre, hrefuses, hpairs⟩, d, hrun⟩)
    · refine .inr (.inr ⟨fun h => hstop (h before c hpre), ?_, hrun⟩)
      rintro ⟨before', c', hpre', hrefuses, hpairs'⟩
      rcases first_of_two hpre hpre' with hfirst | hfirst | ⟨-, rfl⟩
      · have hpair := List.pairwise_append.1 (hpairs'.sublist hfirst.sublist)
        exact hstop ⟨hnot, fun b hb => hpair.2.2 b hb c (List.mem_singleton_self c)⟩
      · exact (hall before' c' hfirst).1 hrefuses
      · exact hnot hrefuses

/-- An entry of a proper list is neither left out nor incomplete. -/
theorem WellFormed.means (h : e.WellFormed) (hc : c ∈ e.changes) (hop : c.op = .created) {leaves : PsfpLeaves}
    (hleaves : lookup c.list.entries c.index = some leaves) :
    ¬leaves.Incomplete (e.driver c.list.name).hwGranularityNs ∧ ¬leaves.Foreign (e.driver c.list.name).hwGranularityNs ∧
      c.index.toNat < c.list.entries.length := by
  obtain ⟨hl, hchange⟩ := (e.mem_changes c).1 hc
  obtain ⟨f, hf, hindex, hleaves'⟩ := hchange.lookup hop
  rw [hleaves'] at hleaves
  obtain rfl := Option.some.inj hleaves
  obtain ⟨row, hrow⟩ := (h c.list hl).translates f hf
  exact ⟨hrow.complete.1, hrow.complete.2, hindex ▸ (h c.list hl).lt hf⟩

theorem WellFormed.not_refuses (h : e.WellFormed) (hfits : e.Fits) (hc : c ∈ e.changes) : ¬e.Refuses c := by
  obtain ⟨hl, hchange⟩ := (e.mem_changes c).1 hc
  rintro (hno | ⟨hop, hbad⟩)
  · exact hno (h c.list hl).passes
  · obtain ⟨f, -, -, hleaves⟩ := hchange.lookup hop
    obtain ⟨hcomplete, -, hlt⟩ := h.means hc hop hleaves
    obtain ⟨hmax, hconfig⟩ := hfits c hc hop
    rcases hbad with (hlong | hout | hnone) | ⟨leaves, hleaves', hincomplete, -⟩
    · exact absurd hmax (Nat.not_le.2 hlong)
    · exact absurd hlt (Nat.not_lt.2 hout)
    · exact hconfig hnone
    · rw [hleaves] at hleaves'
      exact hcomplete (Option.some.inj hleaves' ▸ hincomplete)

theorem WellFormed.not_skips (h : e.WellFormed) (hc : c ∈ e.changes) : ¬e.Skips c := by
  rintro ⟨hop, leaves, hleaves, hforeign⟩
  exact (h.means hc hop hleaves).2.1 hforeign

/-- What is not refused fits. -/
theorem fits_of_allGo (hall : AllGo e.Passes e.changes) : e.Fits := by
  intro c hc hop
  obtain ⟨before, after, hsplit⟩ := List.append_of_mem hc
  have hnot : ¬e.Refuses c := (hall before c ⟨after, by rw [hsplit]; simp⟩).1
  by_contra hfits
  refine hnot (.inr ⟨hop, .inl ?_⟩)
  by_contra hfree
  simp only [Barred, not_or] at hfree
  exact hfits ⟨Nat.not_lt.1 hfree.1, hfree.2.2⟩

/-- What a well-formed edit leaves in the driver. -/
theorem Inv.applied {s : PsfpLocals} (hinv : Inv e e.changes s) (h : e.WellFormed) : e.Applied s.driver := by
  intro l hl
  have hproper := h l hl
  have hread : ∀ {leaves row row'}, PsfpLeaves.Means (e.driver l.name).hwGranularityNs leaves row →
      ReadAs (e.driver l.name).hwGranularityNs leaves row' → row' = row := by
    intro leaves row row' hmeans hreads
    have hsame := hreads.symm.trans hmeans.read
    injection hsame
  have hreadable : Proper (ReadAs (e.driver l.name).hwGranularityNs) l.entries.length l.entries :=
    ⟨hproper.counted, fun f hf => by
      obtain ⟨row, hrow⟩ := hproper.translates f hf
      exact ⟨row, hrow.read⟩⟩
  have hlength : (s.driver l.name).adminControlListLength = l.entries.length := by
    obtain ⟨c, hc, hcl⟩ := e.edited l hl
    exact hinv.length l hl ⟨c, hc, hcl⟩
  have htick := (hinv.added l hl).tick
  have hmirrors := (hinv.added l hl).mirrors hreadable hlength fun f hf hold => by
    have hf' : f ∈ l.old := l.mem_old hf fun hchange => by
      have hin : (⟨l, .created, f.index⟩ : EntryChange GateList) ∈ e.changes := (e.mem_changes _).2 ⟨hl, hchange⟩
      exact hold ⟨hin, h.not_skips hin⟩
    obtain ⟨hproper', hheld⟩ := e.held l hl
    exact ((rows_iff hproper'.counted hheld.length).1 hheld.rows f hf').read
  refine ⟨hlength, (rows_iff hproper.counted hlength).2 fun f hf => ?_⟩
  obtain ⟨row, hrow⟩ := hproper.translates f hf
  have hreads := (rows_iff hproper.counted hlength).1 hmirrors.rows f hf
  rw [htick] at hreads ⊢
  rwa [hread hrow hreads]

/-- **The callback does what it should when the lists are proper and what is added
fits, or when they are not and something is refused.** -/
theorem meets_iff (e : GateEdit) : e.Meets ↔ e.WellFormed ∧ e.Fits ∨ ¬e.WellFormed ∧ e.Refused := by
  rcases run_cases e with ⟨hall, s, hinv, hrun⟩ | ⟨hrefused, d, hrun⟩ | ⟨hnot, hfree, hrun⟩
  · rw [GateEdit.Meets, meets_of_ok hrun]
    constructor
    · rintro ⟨hwell, -⟩
      exact .inl ⟨hwell, fits_of_allGo hall⟩
    · rintro (⟨hwell, -⟩ | ⟨-, ⟨before, c, hpre, hrefuses, -⟩⟩)
      · exact ⟨hwell, hinv.applied hwell⟩
      · exact absurd hrefuses (hall before c hpre).1
  · rw [GateEdit.Meets, meets_of_failed hrun (by decide)]
    constructor
    · intro hnot
      exact .inr ⟨hnot, hrefused⟩
    · rintro (⟨hwell, hfits⟩ | ⟨hnot, -⟩)
      · obtain ⟨before, c, hpre, hrefuses, -⟩ := hrefused
        exact absurd hrefuses (hwell.not_refuses hfits (hpre.subset (by simp)))
      · exact hnot
  · refine iff_of_false (not_meets_of_doubleFree hrun) ?_
    rintro (⟨hwell, hfits⟩ | ⟨-, hrefused⟩)
    · refine absurd (fun before c hpre => ?_) hnot
      have hc : c ∈ e.changes := hpre.subset (by simp)
      exact ⟨hwell.not_refuses hfits hc, fun b _ hb => hwell.not_skips hc hb.2.2⟩
    · exact absurd hrefused hfree

end GateEdit

/-- **Edits of admin control lists, of interfaces and of stream gates.** They are
accepted and applied as they should be, and errors are reported, when the lists
are proper and what is added fits, or when they are not and the edit is refused. -/
theorem aclEdits_iff (s : SchedEdit) (g : GateEdit) :
    (s.Meets ↔ s.WellFormed ∧ s.Fits ∨ ¬s.WellFormed ∧ s.Refused) ∧
      (g.Meets ↔ g.WellFormed ∧ g.Fits ∨ ¬g.WellFormed ∧ g.Refused) :=
  ⟨s.meets_iff, g.meets_iff⟩

/-! ### A list that loses its first entry -/

def openGates : SchedLeaves :=
  ⟨some "ieee802-dot1q-sched:set-gate-states", ⟨some 255, some 1000⟩, ⟨none, none⟩, ⟨none, none⟩⟩

/-- Entry 0 of three is removed, and the length set to 2. -/
def firstRemoved : SchedList where
  name := "sw0p3"
  old := [⟨0, openGates⟩, ⟨1, openGates⟩, ⟨2, openGates⟩]
  entries := [⟨1, openGates⟩, ⟨2, openGates⟩]
  configChange := some false
  sorted := by simp
  fits := by simp
  kept := by simp
  oldLength := some 3
  length := some 2

def firstRemovedPort : Port StGateControlEntry where
  opens := true
  feat := true
  hwGranularityNs := 8
  hwGranularityNs_pos := by decide
  adminControlListLength := 3
  adminControlList := fun _ => ⟨0, 255, 1000⟩

theorem openGates_means : openGates.Means 8 ⟨0, 255, 1000⟩ :=
  ⟨_, openGates.sgsParams, List.mem_cons_self .., rfl, rfl, rfl, by decide⟩

theorem firstRemoved_changes (op : ChangeOp) (i : BitVec 32) :
    firstRemoved.Changes op i ↔ op = .deleted ∧ i = 0 := by
  simp only [EditedList.Changes, firstRemoved, indices, List.map_cons, List.map_nil, List.mem_cons, List.not_mem_nil,
    or_false]
  constructor
  · rintro (⟨-, hin, hout⟩ | ⟨hop, hin, hout⟩)
    · exact absurd (.inr hin) hout
    · exact ⟨hop, hin.resolve_right hout⟩
  · rintro ⟨rfl, rfl⟩
    exact .inr ⟨rfl, .inl rfl, by decide⟩

def firstRemovedEdit : SchedEdit where
  lists := [firstRemoved]
  changes := [⟨firstRemoved, .deleted, 0⟩]
  driver := fun _ => firstRemovedPort
  names := List.nodup_singleton _
  mem_changes := by
    rintro ⟨l, op, i⟩
    simp only [List.mem_singleton, EntryChange.mk.injEq]
    constructor
    · rintro ⟨rfl, rfl, rfl⟩
      exact ⟨rfl, (firstRemoved_changes _ _).2 ⟨rfl, rfl⟩⟩
    · rintro ⟨rfl, hchange⟩
      exact ⟨rfl, (firstRemoved_changes _ _).1 hchange⟩
  edited l hl := by
    obtain rfl := List.mem_singleton.1 hl
    exact .inl (by simp [SchedList.lengthChange, firstRemoved])
  supported _ _ := ⟨rfl, rfl⟩
  held l hl := by
    obtain rfl := List.mem_singleton.1 hl
    have hproper : Proper (SchedLeaves.Means 8) 3 firstRemoved.old :=
      ⟨rfl, fun e he => ⟨⟨0, 255, 1000⟩, by
        simp only [firstRemoved, List.mem_cons, List.not_mem_nil, or_false] at he
        rcases he with rfl | rfl | rfl <;> exact openGates_means⟩⟩
    exact ⟨hproper, rfl, .cons openGates_means (.cons openGates_means (.cons openGates_means .nil))⟩

/-- It is accepted, though its indices are 1 and 2. -/
theorem not_meets_firstRemoved : ¬((∀ e : SchedEdit, e.Meets) ∧ ∀ e : GateEdit, e.Meets) := by
  rintro ⟨h, -⟩
  have hwell : firstRemovedEdit.WellFormed := (h firstRemovedEdit).accepts.1 ⟨_, rfl⟩
  obtain ⟨n, hn, hproper⟩ := hwell firstRemoved (List.mem_singleton_self _)
  obtain rfl : 2 = n := Option.some.inj hn
  exact absurd hproper.counted (by decide)

end TsnSwitch.Sysrepo.Acl
