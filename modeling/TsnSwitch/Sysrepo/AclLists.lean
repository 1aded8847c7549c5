/-
What an edit of admin control lists asks for: a list is proper when its indices
are those below its length and every entry can be translated, and the driver
mirrors a list when it has the length and the rows that the entries mean.

The check of the indices looks at steps only. A list whose first index is 1
passes it as well when the second last index completes the length
(`scanIndices_eq_some`).
-/
import TsnSwitch.Sysrepo.AclEdit

namespace TsnSwitch.Sysrepo.Acl

open Lib

/-! ## What an entry means -/

/-- The row an entry of an interface is in the driver, with a tick of `ns`
nanoseconds. -/
def SchedLeaves.Means (ns : Nat) (leaves : SchedLeaves) (row : StGateControlEntry) : Prop :=
  ∃ name params, (name, row.op, params) ∈ [("ieee802-dot1q-sched:set-gate-states", 0, leaves.sgsParams),
      ("ieee802-dot1q-sched:set-and-hold-mac", 1, leaves.shmParams),
      ("ieee802-dot1q-sched:set-and-release-mac", 2, leaves.srmParams)] ∧
    leaves.operationName = some name ∧ params.gateStatesValue = some row.gsv ∧
    params.timeIntervalValue = some row.interval ∧ ns ∣ row.interval.toNat

def GATE_STATES : List (String × BitVec 8) := [("closed", 0), ("open", 1)]

def IPVS : List (String × BitVec 8) :=
  [("zero", 0), ("one", 1), ("two", 2), ("three", 3), ("four", 4), ("five", 5), ("six", 6), ("seven", 7), ("null", -1)]

/-- The row an entry of a stream gate is in the driver. -/
structure PsfpLeaves.Means (ns : Nat) (leaves : PsfpLeaves) (row : PsfpGateControlEntry) : Prop where
  operation : leaves.operationName = some "ieee802-dot1q-psfp:set-gate-and-ipv" ∧
    row.op = TSN_PSFP_GT_OP_SET_GATE_AND_IPV
  gateState : ∃ name, leaves.gateStateValue = some name ∧ (name, row.gsv) ∈ GATE_STATES
  interval : leaves.timeIntervalValue = some row.interval ∧ ns ∣ row.interval.toNat
  ipv : ∃ name, leaves.ipvSpec = some name ∧ (name, row.ipv) ∈ IPVS

section

variable {κ ε α : Type}

/-- The indices are those below `n`, and every entry means a row. -/
structure Proper (Means : α → ε → Prop) (n : Nat) (entries : List (AclEntry α)) : Prop where
  counted : (indices entries).map BitVec.toNat = List.range n
  translates : ∀ e ∈ entries, ∃ row, Means e.leaves row

/-- The driver has the list, with its length. -/
structure Mirrors (Means : α → ε → Prop) (p : Port ε) (n : Nat) (entries : List (AclEntry α)) : Prop where
  length : p.adminControlListLength = n
  rows : List.Forall₂ (fun e row => Means e.leaves row) entries p.list

/-- The changes of the index leaves of a list. -/
def EditedList.Changes (l : EditedList κ α) (op : ChangeOp) (index : BitVec 32) : Prop :=
  op = .created ∧ index ∈ indices l.entries ∧ index ∉ indices l.old ∨
    op = .deleted ∧ index ∈ indices l.old ∧ index ∉ indices l.entries

/-- An edit is accepted when it should be, and is then applied. One that is not
applied ends with an error. -/
structure Meets (ended : Ended κ ε) (wellFormed : Prop) (applied : Driver κ ε → Prop) : Prop where
  accepts : (∃ d, ended = .returned .ok d) ↔ wellFormed
  applies : ∀ d, ended = .returned .ok d → applied d
  reports : (¬∃ d, ended = .returned .ok d ∧ applied d) → ∃ rc d, ended = .returned rc d ∧ rc ≠ .ok

section Meets

variable {ended : Ended κ ε} {wellFormed : Prop} {applied : Driver κ ε → Prop} {d : Driver κ ε}

/-- An edit that succeeds. -/
theorem meets_of_ok (hrun : ended = .returned .ok d) : Meets ended wellFormed applied ↔ wellFormed ∧ applied d := by
  constructor
  · intro h
    exact ⟨h.accepts.1 ⟨d, hrun⟩, h.applies d hrun⟩
  · intro ⟨hwell, happlied⟩
    refine ⟨iff_of_true ⟨d, hrun⟩ hwell, fun d' hd' => ?_, fun hnot => absurd ⟨d, hrun, happlied⟩ hnot⟩
    rw [hrun] at hd'
    injection hd' with _ hd'
    exact hd' ▸ happlied

/-- An edit that ends with an error. -/
theorem meets_of_failed {rc : SrError} (hrun : ended = .returned rc d) (hrc : rc ≠ .ok) :
    Meets ended wellFormed applied ↔ ¬wellFormed := by
  have hfail : ¬∃ d, ended = .returned .ok d := by
    rintro ⟨d', hd'⟩
    rw [hrun] at hd'
    injection hd' with hrc'
    exact hrc hrc'
  constructor
  · intro h hwell
    exact hfail (h.accepts.2 hwell)
  · intro hnot
    exact ⟨iff_of_false hfail hnot, fun d' hd' => absurd ⟨d', hd'⟩ hfail, fun _ => ⟨rc, d, hrun, hrc⟩⟩

theorem not_meets_of_doubleFree (hrun : ended = .doubleFree) : ¬Meets ended wellFormed applied := fun h => by
  obtain ⟨rc, d, hd, -⟩ := h.reports fun ⟨d, hd, _⟩ => by
    rw [hrun] at hd
    cases hd
  rw [hrun] at hd
  cases hd

end Meets

/-! ## The driver's list -/

variable {Means : α → ε → Prop} {p : Port ε} {n : Nat} {entries : List (AclEntry α)}

@[simp] theorem setLength_length (p : Port ε) (n : Nat) : (p.setLength n).adminControlListLength = n := rfl

@[simp] theorem setLength_rows (p : Port ε) (n : Nat) : (p.setLength n).adminControlList = p.adminControlList := rfl

@[simp] theorem setEntry_length (p : Port ε) (i : Nat) (row : ε) :
    (p.setEntry i row).adminControlListLength = p.adminControlListLength := rfl

theorem getList_length (p : Port ε) (i : Nat) : (p.getList i).length = i := by
  rw [Port.getList, List.length_map, List.length_range]

/-- Writing the rows up to one leaves the others as they are. -/
theorem setEntry_rows (p : Port ε) (i : Nat) (row : ε) :
    (p.setEntry i row).adminControlList = Function.update p.adminControlList i row := by
  have hbefore : (if i ≠ 0 then p.getList i else []) = p.getList i := by
    split
    · rfl
    · rename_i hi
      rw [not_not.1 hi]
      rfl
  funext j
  show ((((if i ≠ 0 then p.getList i else []) ++ [row])[j]?).getD (p.adminControlList j)) = _
  rw [hbefore]
  rcases lt_trichotomy j i with hj | rfl | hj
  · rw [List.getElem?_append_left (by rwa [getList_length]), Function.update_of_ne hj.ne]
    simp [Port.getList, hj]
  · rw [List.getElem?_append_right (by rw [getList_length]), getList_length, Function.update_self]
    simp
  · rw [List.getElem?_eq_none (by simp [getList_length]; omega), Function.update_of_ne hj.ne']
    rfl

/-- With the indices counted, row by row. -/
theorem rows_iff (hcounted : (indices entries).map BitVec.toNat = List.range n) (hlength : p.adminControlListLength = n) :
    List.Forall₂ (fun e row => Means e.leaves row) entries p.list ↔
      ∀ e ∈ entries, Means e.leaves (p.adminControlList e.index.toNat) := by
  have hlist : p.list = entries.map fun e => p.adminControlList e.index.toNat := by
    rw [Port.list, Port.getList, hlength, ← hcounted, indices, List.map_map, List.map_map]
    rfl
  rw [hlist, List.forall₂_map_right_iff, List.forall₂_same]

theorem Proper.length_eq (h : Proper Means n entries) : entries.length = n := by
  have hlen := congrArg List.length h.counted
  rwa [List.length_map, indices, List.length_map, List.length_range] at hlen

theorem Proper.lt {e : AclEntry α} (h : Proper Means n entries) (he : e ∈ entries) : e.index.toNat < n := by
  rw [← List.mem_range, ← h.counted]
  exact List.mem_map_of_mem (List.mem_map_of_mem he)

/-! ## Entries by their index -/

theorem mem_indices {i : BitVec 32} : i ∈ indices entries ↔ ∃ e ∈ entries, e.index = i := List.mem_map

theorem EditedList.eq_of_index {l : EditedList κ α} {e f : AclEntry α} (he : e ∈ l.entries) (hf : f ∈ l.entries)
    (h : e.index = f.index) : e = f := by
  have hnodup : (l.entries.map (·.index)).Nodup :=
    List.pairwise_map.2 (l.sorted.imp fun {a b} (hlt : a.index < b.index) => by bv_omega)
  exact List.inj_on_of_nodup_map hnodup he hf h

theorem EditedList.lookup_eq {l : EditedList κ α} {e : AclEntry α} (he : e ∈ l.entries) :
    lookup l.entries e.index = some e.leaves := by
  unfold lookup
  cases hfind : l.entries.find? fun f => f.index = e.index with
  | none => exact absurd (List.find?_eq_none.1 hfind e he) (by simp)
  | some f =>
    have hindex : f.index = e.index := by simpa using List.find?_some hfind
    rw [l.eq_of_index (List.mem_of_find?_eq_some hfind) he hindex]
    rfl

end

/-! ## The check of the indices -/

/-- `1`, …, `n - 1` and one more, for `n` indices. -/
def Shifted (idxs : List (BitVec 32)) : Prop :=
  2 ≤ idxs.length ∧ (idxs.map BitVec.toNat).dropLast = List.range' 1 (idxs.length - 1)

/-- The indices of a list that is counted as valid. -/
def Reaches (idxs : List (BitVec 32)) : Prop :=
  idxs ≠ [] ∧ (idxs.map BitVec.toNat = List.range idxs.length ∨ Shifted idxs)

/-- Behind `old`, with the length still to come: either the indices that complete
the length come next, or all indices do and are too few. -/
theorem scan_behind {k v w : Nat} {old : BitVec 32} {idxs : List (BitVec 32)} (hk : k < 2 ^ 32) (hold : old.toNat + 1 < k)
    (hsorted : (old :: idxs).Pairwise (· < ·)) :
    scanIndices k old v idxs = some w ↔
      (w = v + 1 ∧ List.range' (old.toNat + 1) (k - 1 - old.toNat) <+: idxs.map BitVec.toNat) ∨
        (w = v ∧ idxs.map BitVec.toNat = List.range' (old.toNat + 1) idxs.length ∧ idxs.length < k - 1 - old.toNat) := by
  induction idxs generalizing old with
  | nil =>
    obtain ⟨m, hm⟩ : ∃ m, k - 1 - old.toNat = m + 1 := ⟨k - 2 - old.toNat, by omega⟩
    rw [scanIndices, hm, List.range'_succ, Option.some_inj, eq_comm]
    simp
  | cons x rest ih =>
    obtain ⟨hlt, hrest⟩ := List.pairwise_cons.1 hsorted
    have hx : old.toNat < x.toNat := hlt x (List.mem_cons_self ..)
    obtain ⟨m, hm⟩ : ∃ m, k - 1 - old.toNat = m + 1 := ⟨k - 2 - old.toNat, by omega⟩
    rw [scanIndices, hm, List.map_cons, List.length_cons, List.range'_succ, List.range'_succ, List.cons_prefix_cons,
      List.cons.injEq]
    by_cases hnext : x.toNat = old.toNat + 1
    · have hstep : ¬1 < x - old := by bv_omega
      rw [if_neg hstep]
      by_cases hend : k = (x + 1).toNat
      · obtain rfl : m = 0 := by bv_omega
        rw [if_pos hend]
        simp [hnext, eq_comm]
      · have hbelow : x.toNat + 1 < k := by bv_omega
        have hcount : k - 1 - x.toNat = m := by omega
        rw [if_neg hend, ih hbelow hrest, hcount, hnext]
        simp
    · have hstep : 1 < x - old := by bv_omega
      rw [if_pos hstep]
      simp [hnext, Ne.symm hnext]

theorem reaches_cons {h : BitVec 32} {rest : List (BitVec 32)} :
    Reaches (h :: rest) ↔ h.toNat = 0 ∧ rest.map BitVec.toNat = List.range' 1 rest.length ∨
      h.toNat = 1 ∧ rest ≠ [] ∧ List.range' 2 (rest.length - 1) <+: rest.map BitVec.toNat := by
  have hcounted : (h :: rest).map BitVec.toNat = List.range (h :: rest).length ↔
      h.toNat = 0 ∧ rest.map BitVec.toNat = List.range' 1 rest.length := by
    rw [List.map_cons, List.length_cons, List.range_eq_range', List.range'_succ, List.cons.injEq]
  have hshifted : Shifted (h :: rest) ↔
      h.toNat = 1 ∧ rest ≠ [] ∧ List.range' 2 (rest.length - 1) <+: rest.map BitVec.toNat := by
    cases rest with
    | nil => simp [Shifted]
    | cons x rest =>
      rw [Shifted, List.map_cons, List.dropLast_cons_of_ne_nil (by simp), List.length_cons, Nat.add_sub_cancel,
        List.length_cons, List.range'_succ, List.cons.injEq, List.prefix_iff_eq_take, List.dropLast_eq_take]
      simp [eq_comm]
  rw [Reaches, hcounted, hshifted]
  simp

/-- **What the check passes.** A list of one entry with the index 1 is passed
without being counted as valid. -/
theorem scanIndices_eq_some {idxs : List (BitVec 32)} (hsorted : idxs.Pairwise (· < ·)) (hlength : idxs.length < 2 ^ 31)
    {v w : Nat} :
    scanIndices idxs.length 0 v idxs = some w ↔ (w = v + 1 ∧ Reaches idxs) ∨ (w = v ∧ (idxs = [] ∨ idxs = [1])) := by
  cases idxs with
  | nil =>
    rw [scanIndices, Option.some_inj, eq_comm]
    simp [Reaches]
  | cons h rest =>
    rw [List.length_cons] at hlength
    rw [scanIndices, reaches_cons, List.length_cons]
    have hone : h :: rest = [1] ↔ h.toNat = 1 ∧ rest = [] := by
      rw [List.cons.injEq, ← BitVec.toNat_inj]
      rfl
    rw [hone]
    rcases Nat.lt_or_ge 1 h.toNat with hfar | hnear
    · have hstep : 1 < h - 0 := by bv_omega
      rw [if_pos hstep]
      have hne : h.toNat ≠ 0 ∧ h.toNat ≠ 1 := by omega
      simp [hne]
    · have hstep : ¬1 < h - 0 := by bv_omega
      rw [if_neg hstep]
      by_cases hend : rest.length + 1 = (h + 1).toNat
      · rw [if_pos hend, Option.some_inj, eq_comm]
        have hrest : rest.length = h.toNat := by bv_omega
        rcases Nat.le_one_iff_eq_zero_or_eq_one.1 hnear with h0 | h1
        · obtain rfl : rest = [] := List.length_eq_zero_iff.1 (hrest.trans h0)
          simp [h0]
        · obtain ⟨x, rfl⟩ : ∃ x, rest = [x] := List.length_eq_one_iff.1 (hrest.trans h1)
          simp [h1]
      · rw [if_neg hend]
        rcases rest.eq_nil_or_concat with rfl | hlast
        · have h1 : h.toNat = 1 := by simp at hend; bv_omega
          rw [scanIndices, Option.some_inj, eq_comm]
          simp [h1]
        · have hpos : 0 < rest.length := by
            obtain ⟨_, _, rfl⟩ := hlast
            simp
          have hne : rest ≠ [] := List.length_pos_iff.1 hpos
          rw [scan_behind (by omega) (by bv_omega) hsorted]
          rcases Nat.le_one_iff_eq_zero_or_eq_one.1 hnear with h0 | h1
          · have hall : List.range' 1 rest.length <+: rest.map BitVec.toNat ↔ rest.map BitVec.toNat = List.range' 1 rest.length :=
              ⟨fun hp => (hp.eq_of_length (by simp)).symm, fun heq => heq ▸ List.prefix_refl _⟩
            simp [h0, hall]
          · simp [h1, hne]

theorem scan_entries {κ α : Type} {l : EditedList κ α} {v w : Nat} :
    scanIndices l.entries.length 0 v (indices l.entries) = some w ↔
      (w = v + 1 ∧ Reaches (indices l.entries)) ∨ (w = v ∧ (l.entries = [] ∨ indices l.entries = [1])) := by
  have hlength : (indices l.entries).length = l.entries.length := List.length_map ..
  have hnil : indices l.entries = [] ↔ l.entries = [] := List.map_eq_nil_iff
  have hsorted : (indices l.entries).Pairwise (· < ·) := List.pairwise_map.2 l.sorted
  rw [← hlength, scanIndices_eq_some hsorted (hlength ▸ l.fits), hnil]

theorem not_reaches {idxs : List (BitVec 32)} (h : idxs = [] ∨ idxs = [1]) : ¬Reaches idxs := by
  rcases h with rfl | rfl
  · exact fun h => h.1 rfl
  · simp [reaches_cons]

/-- The check passes a proper list. -/
theorem Proper.passes {ε α : Type} {Means : α → ε → Prop} {n : Nat} {entries : List (AclEntry α)}
    (h : Proper Means n entries) : Reaches (indices entries) ∨ entries = [] := by
  by_cases hnil : entries = []
  · exact .inr hnil
  · refine .inl ⟨fun h => hnil (List.map_eq_nil_iff.1 h), .inl ?_⟩
    rw [h.counted, indices, List.length_map, h.length_eq]

/-! ## Adding an entry -/

section

variable {κ ε α : Type} [DecidableEq κ] {read : α → Nat → Read ε} {s : Locals κ ε} {l : EditedList κ α} {gclLen : Nat}
  {op : ChangeOp} {index : BitVec 32}

/-- What keeps an entry out whatever its leaves are: a list that is too long, an
index outside it, or no config-change leaf. -/
def Barred (l : EditedList κ α) (gclLen : Nat) (index : BitVec 32) : Prop :=
  MAX_NUMBER_OF_ACL < gclLen ∨ gclLen ≤ index.toNat ∨ l.configChange = none

theorem addEntry_barred (h : Barred l gclLen index) : ∃ d, addEntry read s l gclLen op index = failed d := by
  unfold addEntry
  by_cases hmax : MAX_NUMBER_OF_ACL < gclLen
  · exact ⟨_, if_pos hmax⟩
  by_cases hindex : gclLen ≤ index.toNat
  · exact ⟨_, (if_neg hmax).trans (if_pos hindex)⟩
  have hchange : l.configChange = none := (h.resolve_left hmax).resolve_left hindex
  rw [if_neg hmax, if_neg hindex, hchange]
  exact ⟨_, rfl⟩

/-- Otherwise the leaves decide. -/
theorem addEntry_leaves (h : ¬Barred l gclLen index) {leaves : α} (hleaves : lookup l.entries index = some leaves) :
    addEntry read s l gclLen op index =
      match read leaves (s.driver l.name).tickGranularity with
      | .failed => failed (Function.update s.driver l.name ((s.driver l.name).setLength gclLen))
      | .skipped => leaveTurn { s with driver := Function.update s.driver l.name ((s.driver l.name).setLength gclLen) }
      | .row entry =>
        .ok { s with
              driver := Function.update s.driver l.name (((s.driver l.name).setLength gclLen).setEntry index.toNat entry)
              gcl := true } := by
  obtain ⟨hmax, hindex, hchange⟩ : ¬MAX_NUMBER_OF_ACL < gclLen ∧ ¬gclLen ≤ index.toNat ∧ l.configChange ≠ none := by
    simpa only [Barred, not_or] using h
  obtain ⟨configChange, hchange⟩ := Option.ne_none_iff_exists'.1 hchange
  have hcomplete : ((s.driver l.name).setLength gclLen).complete = true := by
    have hpos : gclLen ≠ 0 := by omega
    simpa [Port.complete] using hpos
  have hcreated : ¬(op.num &&& ChangeOp.created.num ≠ 0) := by simp [ChangeOp.num]
  have htick : ((s.driver l.name).setLength gclLen).tickGranularity = (s.driver l.name).tickGranularity := rfl
  unfold addEntry
  rw [if_neg hmax, if_neg hindex, hchange, hleaves]
  dsimp only
  rw [hcomplete, Bool.not_true, Bool.and_false, if_neg Bool.false_ne_true, htick]
  cases read leaves (s.driver l.name).tickGranularity with
  | failed => rfl
  | skipped => rfl
  | row entry => exact if_neg fun h => hcreated h.1

end

/-- A port on the way from `start`: the rows of `done` are what the entries mean,
and the others are as they were. -/
structure Added {ε α : Type} (Means : Nat → α → ε → Prop) (entries : List (AclEntry α)) (start p : Port ε)
    (done : BitVec 32 → Prop) : Prop where
  opens : p.opens = start.opens
  feat : p.feat = start.feat
  tick : p.hwGranularityNs = start.hwGranularityNs
  kept : ∀ i, ¬done i → p.adminControlList i.toNat = start.adminControlList i.toNat
  added : ∀ i leaves, done i → lookup entries i = some leaves →
    Means start.hwGranularityNs leaves (p.adminControlList i.toNat)

section Added

variable {κ ε α : Type} {Means : Nat → α → ε → Prop} {entries : List (AclEntry α)} {start p : Port ε}
  {done : BitVec 32 → Prop}

theorem Added.setLength (h : Added Means entries start p done) (n : Nat) :
    Added Means entries start (p.setLength n) done := ⟨h.opens, h.feat, h.tick, h.kept, h.added⟩

theorem Added.empty (n : Nat) : Added Means entries start (start.setLength n) fun _ => False :=
  ⟨rfl, rfl, rfl, fun _ _ => rfl, fun _ _ h => h.elim⟩

theorem Added.congr {done' : BitVec 32 → Prop} (h : Added Means entries start p done) (hdone : ∀ i, done' i ↔ done i) :
    Added Means entries start p done' := by
  rwa [funext fun i => propext (hdone i)]

theorem Added.setEntry {i : BitVec 32} {leaves : α} {row : ε} (h : Added Means entries start p done)
    (hleaves : lookup entries i = some leaves) (hrow : Means start.hwGranularityNs leaves row) :
    Added Means entries start (p.setEntry i.toNat row) fun j => done j ∨ j = i where
  opens := h.opens
  feat := h.feat
  tick := h.tick
  kept j hj := by
    obtain ⟨hdone, hne⟩ := not_or.1 hj
    rw [setEntry_rows, Function.update_of_ne fun heq => hne (BitVec.eq_of_toNat_eq heq)]
    exact h.kept j hdone
  added j leaves' hj hleaves' := by
    rw [setEntry_rows]
    by_cases hji : j = i
    · subst hji
      rw [Function.update_self]
      rw [hleaves] at hleaves'
      exact Option.some.inj hleaves' ▸ hrow
    · rw [Function.update_of_ne fun heq => hji (BitVec.eq_of_toNat_eq heq)]
      exact h.added j leaves' (hj.resolve_right hji) hleaves'

/-- **With the rows of all new entries added the driver has the list.** -/
theorem Added.mirrors {l : EditedList κ α} {n : Nat} (h : Added Means l.entries start p done)
    (hproper : Proper (Means start.hwGranularityNs) n l.entries) (hlength : p.adminControlListLength = n)
    (hrest : ∀ e ∈ l.entries, ¬done e.index →
      Means start.hwGranularityNs e.leaves (start.adminControlList e.index.toNat)) :
    Mirrors (Means p.hwGranularityNs) p n l.entries where
  length := hlength
  rows := by
    rw [rows_iff hproper.counted hlength, h.tick]
    intro e he
    by_cases hdone : done e.index
    · exact h.added e.index e.leaves hdone (l.lookup_eq he)
    · rw [h.kept e.index hdone]
      exact hrest e he hdone

/-- A created entry is in the list, with its leaves. -/
theorem EditedList.Changes.lookup {l : EditedList κ α} {op : ChangeOp} {i : BitVec 32} (h : l.Changes op i)
    (hop : op = .created) : ∃ e ∈ l.entries, e.index = i ∧ lookup l.entries i = some e.leaves := by
  rcases h with ⟨-, hin, -⟩ | ⟨hdel, -⟩
  · obtain ⟨e, he, rfl⟩ := mem_indices.1 hin
    exact ⟨e, he, rfl, l.lookup_eq he⟩
  · rw [hop] at hdel
    cases hdel

/-- An entry that is not created was there before, and the same. -/
theorem EditedList.mem_old {l : EditedList κ α} {e : AclEntry α} (he : e ∈ l.entries)
    (h : ¬l.Changes .created e.index) : e ∈ l.old := by
  have hin : e.index ∈ indices l.entries := List.mem_map_of_mem he
  have hold : e.index ∈ indices l.old := by
    by_contra hout
    exact h (.inl ⟨rfl, hin, hout⟩)
  obtain ⟨o, ho, hindex⟩ := mem_indices.1 hold
  rwa [l.kept e he o ho hindex.symm]

end Added

end TsnSwitch.Sysrepo.Acl
