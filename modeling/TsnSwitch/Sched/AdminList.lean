/-
Reading the admin control list: `edgx_sched_get_entries` of edge_sched.c and
`admin_ctrl_list_read` of edge_st_fsc.c.

The caller gives a buffer and the entry to start with, and gets the undefined
entry in the slots behind the end of the list. A read in consecutive chunks is
then the read in one (`adminReads_iff`). The shared reader bounds an absolute
index and counts relative ones with it, so a read that does not start at entry
0 leaves the list, the buffer or both.
-/
import TsnSwitch.Lib.Run
import TsnSwitch.Lib.Window
import TsnSwitch.Sched.Admin
import TsnSwitch.Sched.Gates

namespace TsnSwitch.Sched

open Lib

/-! ## The readers -/

/-- A read of the admin array: entry `i`, if there is one. -/
def SchedTable.entry? (tab : SchedTable) (i : Nat) : Option TabEntry :=
  if i < tab.entryCnt then (tab.entries.getD [])[i]? else none

/-- A write of slot `i` of the caller's buffer, if there is one. -/
def storeSlot (out : List TabEntry) (i : Nat) (e : TabEntry) : Option (List TabEntry) :=
  if i < out.length then some (out.set i e) else none

/-- The copying loop with so many turns left, from slot `i` on. It has no
result when it leaves the array or the buffer. -/
def copyEntries (tab : SchedTable) (first : Nat) : Nat → Nat → List TabEntry → Option (List TabEntry)
  | 0, _, out => some out
  | n + 1, i, out => do
    let e ← tab.entry? (first + i)
    let out ← storeSlot out i e
    copyEntries tab first n (i + 1) out

/-- The loop that follows it, from slot `i` on. -/
def padEntries (i : Nat) (out : List TabEntry) : List TabEntry :=
  out.take i ++ (out.drop i).map fun _ => edgxSchedUndefEntry

def edgxSchedGetEntries (tab : SchedTable) (first : Nat) (entries : List TabEntry) : Option (Int × List TabEntry) :=
  if tab.entryCnt = 0 then some (-ENOENT, entries)
  else do
    let countMax := min (first + entries.length) tab.entryCnt
    let out ← copyEntries tab first countMax 0 entries
    some (0, padEntries countMax out)

/-- The index runs from `idx` to `nmax`, the slot from 0. -/
def Fsc.adminCtrlListRead (tab : SchedTable) (idx : Nat) (ent : List TabEntry) : Option (Int × List TabEntry) :=
  if tab.entryCnt = 0 then some (-ENOENT, ent)
  else do
    let nmax := min ((idx + ent.length) % 2 ^ 32) tab.entryCnt
    let out ← copyEntries tab idx (nmax - idx) 0 ent
    some ((ent.length * entrySize : Nat), padEntries (nmax - idx) out)

def Driver.readAdmin (d : Driver) : SchedTable → Nat → List TabEntry → Option (Int × List TabEntry) :=
  match d with
  | .fscr => edgxSchedGetEntries
  | .fsc => Fsc.adminCtrlListRead

/-- What a reader returns when it has read `count` entries. -/
def Driver.okCode (d : Driver) (count : Nat) : Int :=
  match d with
  | .fscr => 0
  | .fsc => (count * Fsc.entrySize : Nat)

/-! ## Reads in chunks -/

/-- Entry `i` of the list, the undefined one behind its end. -/
def SchedTable.adminEntry (tab : SchedTable) (i : Nat) : TabEntry := (tab.entry? i).getD edgxSchedUndefEntry

/-- The calls that read the chunks `bufs` stay in bounds and fill their
buffers, and what they read is what one call reads. -/
structure AdminReads (d : Driver) (tab : SchedTable) (first : Nat) (bufs : List (List TabEntry)) : Prop where
  calls : ∀ p ∈ chunks first bufs,
    d.readAdmin tab p.1 p.2 = some (d.okCode p.2.length, window tab.adminEntry p.1 p.2.length)
  whole : ∃ rs, (chunks first bufs).mapM (fun p => d.readAdmin tab p.1 p.2) = some rs ∧
    rs.flatMap Prod.snd = window tab.adminEntry first bufs.flatten.length

/-- The array has room for the entries that are counted. -/
structure SchedTable.Sized (com : Com) (tab : SchedTable) : Prop where
  length : (tab.entries.getD []).length = tab.entryCnt
  bound : tab.entryCnt ≤ com.maxEntryCnt

/-! ## The array in every run -/

theorem Fsc.adjust_length (com : Com) (es : List TabEntry) : (Fsc.edgxSchedAdjustAdminTab com es).2.length = es.length := by
  induction es with
  | nil => rfl
  | cons e es ih =>
    simp only [Fsc.edgxSchedAdjustAdminTab]
    split
    · rfl
    · simp [ih]

theorem adjust_length (u : User) (com : Com) (es : List TabEntry) :
    (u.variant.adjustAdminTab com es).2.length = es.length := by
  cases u with
  | portGates => rfl
  | streamGates => rfl
  | fsc => exact Fsc.adjust_length com es

theorem sized_setEntries (u : User) {com : Com} {s : EdgxSched} (h : s.adminTab.Sized com) (first : Nat)
    (entries : List TabEntry) (allocOk : Bool) :
    (edgxSchedSetEntries u.variant com s first entries allocOk).2.adminTab.Sized com := by
  rcases setEntries_cases u.variant com s first entries allocOk with
    ⟨_, _, heq⟩ | ⟨_, _, _, heq⟩ | ⟨hpl, _, _, e, heq⟩
  · rw [heq]; exact h
  · rw [heq]
    dsimp only
    split
    · exact ⟨rfl, Nat.zero_le _⟩
    · exact h
  · rw [heq]
    refine ⟨?_, hpl.1⟩
    have hkept : (s.adminTab.kept first).length = first := by
      unfold SchedTable.kept
      split
      · exact (‹first = 0›).symm
      · exact h.length.trans (hpl.2.resolve_left ‹_›).symm
    simp [storeList, adjust_length, hkept]

/-- A step keeps the room for the entries. -/
theorem sized_step (u : User) {com : Com} {s : EdgxSched} (h : s.adminTab.Sized com) (op : Op) :
    (step u.variant com s op).2.adminTab.Sized com := by
  cases hadmin : op.isAdmin with
  | false => rw [step_adminTab u.lawful com s hadmin]; exact h
  | true =>
    cases op with
    | setEntries first entries allocOk => exact sized_setEntries u h first entries allocOk
    | setCtrlListLen listLen =>
      simp only [step, edgxSchedSetCtrlListLen]
      split
      · exact h
      · exact ⟨h.length, h.bound⟩
    | setCycleTime ct =>
      simp only [step, edgxSchedSetCycleTime]
      split
      · exact h
      · split <;> exact ⟨h.length, h.bound⟩
    | setBaseTime baseTime => exact ⟨h.length, h.bound⟩
    | setAdminGateStates gateStates mask => exact ⟨h.length, h.bound⟩
    | setConfigChange b env => cases hadmin
    | setGateEnabled b env => cases hadmin
    | pendingDelayed env => cases hadmin
    | cctHandler env => cases hadmin
    | hwEvents evs => cases hadmin

/-- **In every run the array has room for its entries.** -/
theorem sized_after (u : User) (com : Com) (gateStates : BitVec 8) (ops : List Op) :
    (after (step u.variant com) (init gateStates) ops).adminTab.Sized com :=
  inv_after (I := fun s : EdgxSched => s.adminTab.Sized com) ops ⟨rfl, Nat.zero_le _⟩ fun _ op h => sized_step u h op

/-! ## One call -/

section Call

variable {com : Com} {tab : SchedTable} (h : tab.Sized com)
include h

theorem entry?_of_lt {i : Nat} (hi : i < tab.entryCnt) : tab.entry? i = some (tab.adminEntry i) := by
  have hlen : i < (tab.entries.getD []).length := by rw [h.length]; exact hi
  have hsome : tab.entry? i = (tab.entries.getD [])[i]? := if_pos hi
  rw [SchedTable.adminEntry, hsome, List.getElem?_eq_getElem hlen, Option.getD_some]

omit h in
theorem entry?_of_le {i : Nat} (hi : tab.entryCnt ≤ i) : tab.entry? i = none := if_neg (Nat.not_lt.2 hi)

omit h in
theorem adminEntry_of_le {i : Nat} (hi : tab.entryCnt ≤ i) : tab.adminEntry i = edgxSchedUndefEntry := by
  rw [SchedTable.adminEntry, entry?_of_le hi, Option.getD_none]

/-- The loop in bounds: it writes the slots it counts. -/
theorem copyEntries_some (first : Nat) {n : Nat} (i : Nat) (out : List TabEntry) (hsrc : first + i + n ≤ tab.entryCnt)
    (hdst : i + n ≤ out.length) :
    ∃ res, copyEntries tab first n i out = some res ∧ res.length = out.length ∧
      ∀ k, res[k]? = if i ≤ k ∧ k < i + n then some (tab.adminEntry (first + k)) else out[k]? := by
  induction n generalizing i out with
  | zero => exact ⟨out, rfl, rfl, fun k => by rw [if_neg (by omega)]⟩
  | succ n ih =>
    have hstore : storeSlot out i (tab.adminEntry (first + i)) = some (out.set i (tab.adminEntry (first + i))) :=
      if_pos (by omega)
    obtain ⟨res, hres, hlen, hslot⟩ := ih (i + 1) (out.set i (tab.adminEntry (first + i)))
      (by omega) (by rw [List.length_set]; omega)
    refine ⟨res, ?_, by rw [hlen, List.length_set], fun k => ?_⟩
    · simp [copyEntries, entry?_of_lt h (i := first + i) (by omega), hstore, hres]
    · rw [hslot, List.getElem?_set]
      grind

/-- The loop out of bounds. -/
theorem copyEntries_none (first : Nat) {n : Nat} (i : Nat) (out : List TabEntry) (hn : 0 < n)
    (hout : tab.entryCnt < first + i + n ∨ out.length < i + n) : copyEntries tab first n i out = none := by
  induction n generalizing i out with
  | zero => exact absurd hn (Nat.lt_irrefl 0)
  | succ n ih =>
    by_cases hsrc : first + i < tab.entryCnt
    · by_cases hdst : i < out.length
      · have hstore : storeSlot out i (tab.adminEntry (first + i)) = some (out.set i (tab.adminEntry (first + i))) :=
          if_pos hdst
        have hrest := ih (i + 1) (out.set i (tab.adminEntry (first + i))) (by omega)
          (by rw [List.length_set]; omega)
        simp [copyEntries, entry?_of_lt h hsrc, hstore, hrest]
      · have hstore : storeSlot out i (tab.adminEntry (first + i)) = none := if_neg hdst
        simp [copyEntries, entry?_of_lt h hsrc, hstore]
    · simp [copyEntries, entry?_of_le (Nat.not_lt.1 hsrc)]

/-- A loop of `n` turns from slot 0 on, with the rest padded. -/
theorem copy_pad (first : Nat) {n : Nat} (out : List TabEntry) (hsrc : n = 0 ∨ first + n ≤ tab.entryCnt) (hdst : n ≤ out.length)
    (hend : ∀ k, n ≤ k → k < out.length → tab.entryCnt ≤ first + k) :
    ∃ res, copyEntries tab first n 0 out = some res ∧ padEntries n res = window tab.adminEntry first out.length := by
  obtain ⟨res, hres, hlen, hslot⟩ : ∃ res, copyEntries tab first n 0 out = some res ∧ res.length = out.length ∧
      ∀ k < n, res[k]? = some (tab.adminEntry (first + k)) := by
    rcases hsrc with rfl | hsrc
    · exact ⟨out, rfl, rfl, fun k hk => absurd hk (Nat.not_lt_zero k)⟩
    · obtain ⟨res, hres, hlen, hslot⟩ := copyEntries_some h first 0 out (by omega) (by omega)
      exact ⟨res, hres, hlen, fun k hk => by rw [hslot, if_pos (by omega)]⟩
  refine ⟨res, hres, eq_window_iff.2 ⟨by simp [padEntries]; omega, fun k hk => ?_⟩⟩
  have htake : (res.take n).length = n := by rw [List.length_take]; omega
  rw [padEntries]
  by_cases hkn : k < n
  · rw [List.getElem?_append_left (by omega), List.getElem?_take_of_lt hkn, hslot k hkn]
  · rw [List.getElem?_append_right (by omega), htake, List.getElem?_map, List.getElem?_drop,
      List.getElem?_eq_getElem (by omega), adminEntry_of_le (hend k (by omega) hk)]
    rfl

/-- Behind the first entry the shared reader leaves the array or the buffer:
the last entry it copies is behind the list, or its slot behind the buffer. -/
theorem getEntries_none {first : Nat} (out : List TabEntry) (hcnt : tab.entryCnt ≠ 0) (h0 : first ≠ 0) :
    edgxSchedGetEntries tab first out = none := by
  have hnone := copyEntries_none h first (n := min (first + out.length) tab.entryCnt) 0 out (by omega) (by omega)
  rw [edgxSchedGetEntries, if_neg hcnt]
  simp only [hnone, Option.bind_eq_bind, Option.bind_none]

theorem getEntries_zero (out : List TabEntry) (hcnt : tab.entryCnt ≠ 0) :
    edgxSchedGetEntries tab 0 out = some (0, window tab.adminEntry 0 out.length) := by
  obtain ⟨res, hres, hpad⟩ := copy_pad h 0 (n := min (0 + out.length) tab.entryCnt) out
    (by omega) (by omega) (fun k hk hlt => by omega)
  rw [edgxSchedGetEntries, if_neg hcnt]
  simp only [hres, Option.bind_eq_bind, Option.bind_some, hpad]

/-- **A call of the shared reader is right just when it starts at entry 0 of
a list.** -/
theorem getEntries_iff (first : Nat) (out : List TabEntry) :
    edgxSchedGetEntries tab first out = some (0, window tab.adminEntry first out.length) ↔
      tab.entryCnt ≠ 0 ∧ first = 0 := by
  by_cases hcnt : tab.entryCnt = 0
  · refine iff_of_false (fun heq => ?_) fun hc => hc.1 hcnt
    rw [edgxSchedGetEntries, if_pos hcnt] at heq
    exact absurd (congrArg (·.map Prod.fst) heq) (by simp [ENOENT])
  · by_cases h0 : first = 0
    · subst h0
      exact iff_of_true (getEntries_zero h out hcnt) ⟨hcnt, rfl⟩
    · refine iff_of_false (fun heq => ?_) fun hc => h0 hc.2
      rw [getEntries_none h out hcnt h0] at heq
      exact nomatch heq

/-- A call of the FSC reader, of at most `INT_MAX` bytes. -/
theorem Fsc.adminCtrlListRead_iff (idx : Nat) {ent : List TabEntry} (hvfs : ent.length * entrySize < 2 ^ 31) :
    Fsc.adminCtrlListRead tab idx ent =
        some (((ent.length * entrySize : Nat) : Int), window tab.adminEntry idx ent.length) ↔ tab.entryCnt ≠ 0 := by
  have hmax := h.bound
  have hcom := com.max_lt
  unfold Fsc.adminCtrlListRead
  by_cases hcnt : tab.entryCnt = 0
  · rw [if_pos hcnt]
    exact iff_of_false (fun heq => absurd (congrArg (·.map Prod.fst) heq) (by simp [ENOENT]; omega)) fun hc => hc hcnt
  · rw [if_neg hcnt]
    have hwrap : idx < tab.entryCnt → (idx + ent.length) % 2 ^ 32 = idx + ent.length := fun hlt =>
      Nat.mod_eq_of_lt (by rw [entrySize] at hvfs; omega)
    generalize (idx + ent.length) % 2 ^ 32 = v at hwrap
    obtain ⟨res, hres, hpad⟩ := copy_pad h idx (n := min v tab.entryCnt - idx) ent
      (by omega) (by omega) (fun k hk hlt => by omega)
    refine iff_of_true ?_ hcnt
    simp only [hres, Option.bind_eq_bind, Option.bind_some, hpad]

end Call

/-- The chunks together, when each is right. -/
theorem whole_of_calls {d : Driver} {tab : SchedTable} {first : Nat} {bufs : List (List TabEntry)}
    (hcalls : ∀ p ∈ chunks first bufs,
      d.readAdmin tab p.1 p.2 = some (d.okCode p.2.length, window tab.adminEntry p.1 p.2.length)) :
    ∃ rs, (chunks first bufs).mapM (fun p => d.readAdmin tab p.1 p.2) = some rs ∧
      rs.flatMap Prod.snd = window tab.adminEntry first bufs.flatten.length := by
  have hmap : ∀ ps : List (Nat × List TabEntry), (∀ p ∈ ps,
      d.readAdmin tab p.1 p.2 = some (d.okCode p.2.length, window tab.adminEntry p.1 p.2.length)) →
      ps.mapM (fun p => d.readAdmin tab p.1 p.2) =
        some (ps.map fun p => (d.okCode p.2.length, window tab.adminEntry p.1 p.2.length)) := by
    intro ps
    induction ps with
    | nil => exact fun _ => rfl
    | cons p ps ih =>
      intro hps
      obtain ⟨hp, hrest⟩ := List.forall_mem_cons.1 hps
      simp [hp, ih hrest]
  refine ⟨_, hmap _ hcalls, ?_⟩
  rw [List.flatMap_map, flatMap_chunks]

/-- **Reading the admin list in chunks**, of at most `INT_MAX` bytes each: the
list has an entry, and for the shared reader every chunk starts at entry 0. -/
theorem adminReads_iff (d : Driver) {com : Com} {tab : SchedTable} (h : tab.Sized com) (first : Nat)
    (bufs : List (List TabEntry)) (hvfs : d = .fsc → ∀ b ∈ bufs, b.length * Fsc.entrySize < 2 ^ 31) :
    AdminReads d tab first bufs ↔ ∀ p ∈ chunks first bufs, tab.entryCnt ≠ 0 ∧ (d = .fscr → p.1 = 0) := by
  have hcall : ∀ p ∈ chunks first bufs,
      (d.readAdmin tab p.1 p.2 = some (d.okCode p.2.length, window tab.adminEntry p.1 p.2.length) ↔
        tab.entryCnt ≠ 0 ∧ (d = .fscr → p.1 = 0)) := by
    intro p hp
    cases d with
    | fscr => exact (getEntries_iff h p.1 p.2).trans (and_congr_right fun _ => ⟨fun h0 _ => h0, fun h0 => h0 rfl⟩)
    | fsc =>
      refine (Fsc.adminCtrlListRead_iff h p.1 (hvfs rfl p.2 (mem_chunks hp).1)).trans ?_
      exact ⟨fun hcnt => ⟨hcnt, fun hd => nomatch hd⟩, And.left⟩
  constructor
  · exact fun hr p hp => (hcall p hp).1 (hr.calls p hp)
  · intro hc
    have hcalls := fun p hp => (hcall p hp).2 (hc p hp)
    exact ⟨hcalls, whole_of_calls hcalls⟩

/-- Two entries. -/
def twoEntries : SchedTable := { entries := some [⟨320, 0, 1⟩, ⟨640, 0, 2⟩], entryCnt := 2 }

theorem adminReads_iff_two :
    AdminReads .fsc twoEntries 0 [[edgxSchedUndefEntry], [edgxSchedUndefEntry, edgxSchedUndefEntry]] :=
  (adminReads_iff .fsc (⟨rfl, by decide⟩ : twoEntries.Sized someCom) 0 _ fun _ => by decide).2 (by decide)

/-- The second entry of the list, read on its own. -/
theorem not_adminReads_second :
    edgxSchedGetEntries twoEntries 1 [edgxSchedUndefEntry] = none ∧
      ¬ AdminReads .fscr twoEntries 1 [[edgxSchedUndefEntry]] := by
  have hnone : edgxSchedGetEntries twoEntries 1 [edgxSchedUndefEntry] = none := by decide
  refine ⟨hnone, fun h => ?_⟩
  have hcall := h.calls (1, [edgxSchedUndefEntry]) (by decide)
  exact absurd (hnone.symm.trans hcall) (by simp)

end TsnSwitch.Sched
