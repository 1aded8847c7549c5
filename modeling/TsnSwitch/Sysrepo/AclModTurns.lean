/-
How a turn of `interface_sched_acl_mod_cb` ends (`ModExit`), and where a call
does what it is for (`schedModOk_iff`).
-/
import TsnSwitch.Sysrepo.AclMod

namespace TsnSwitch.Sysrepo.Acl

open Lib

/-! ## Recording the lengths -/

theorem recordLengths_cases (cs : List LengthChange) {i : Nat} (hi : i ≤ BASE_EIGHT) (r : Recorded) :
    (BASE_EIGHT < i + (lengthPairs cs).length ∧ recordLengths cs i r = .overrun) ∨
      i + (lengthPairs cs).length ≤ BASE_EIGHT ∧
        (keysFound cs = false ∧ recordLengths cs i r = .missingKey ∨
          keysFound cs = true ∧ ∃ r', recordLengths cs i r = .recorded r' ∧
            r'.lengthChanged = (r.lengthChanged || !(lengthPairs cs).isEmpty) ∧
            (0 < i → r'.aclPair.head? = r.aclPair.head?) ∧
            (i = 0 → r.aclPair ≠ [] → ∀ p ∈ (lengthPairs cs).head?, r'.aclPair.head? = some p)) := by
  induction cs generalizing i r with
  | nil => exact .inr ⟨hi, .inr ⟨rfl, r, rfl, (Bool.or_false _).symm, fun _ => rfl, fun _ _ _ h => nomatch h⟩⟩
  | cons c cs ih =>
    unfold recordLengths lengthPairs keysFound
    cases c.old with
    | none => exact .inr ⟨hi, .inr ⟨rfl, r, rfl, (Bool.or_false _).symm, fun _ => rfl, fun _ _ _ h => nomatch h⟩⟩
    | some old =>
      cases c.interface with
      | none => exact .inr ⟨hi, .inl ⟨rfl, rfl⟩⟩
      | some interfaceName =>
        simp only [List.length_cons]
        by_cases hfull : BASE_EIGHT ≤ i
        · rw [if_pos hfull]
          exact .inl ⟨by omega, rfl⟩
        rw [if_neg hfull]
        have hsucc : i + (lengthPairs cs).length + 1 = (i + 1) + (lengthPairs cs).length := by omega
        rcases ih (i := i + 1) (by omega) ⟨r.aclPair.set i ⟨interfaceName, old⟩, true⟩ with
          ⟨hlt, hrun⟩ | ⟨hle, ⟨hkeys, hrun⟩ | ⟨hkeys, r', hrun, hchanged, hhead, -⟩⟩
        · exact .inl ⟨by omega, hrun⟩
        · exact .inr ⟨by omega, .inl ⟨hkeys, hrun⟩⟩
        · refine .inr ⟨by omega, .inr ⟨hkeys, r', hrun, by simpa using hchanged, fun hpos => ?_, ?_⟩⟩
          · obtain ⟨j, rfl⟩ : ∃ j, i = j + 1 := ⟨i - 1, by omega⟩
            rw [hhead (Nat.succ_pos _)]
            cases r.aclPair <;> rfl
          · intro hzero hne p hp
            obtain rfl : (⟨interfaceName, old⟩ : LengthPair) = p := Option.some.inj hp
            subst hzero
            rw [hhead Nat.one_pos]
            cases haclPair : r.aclPair with
            | nil => exact absurd haclPair hne
            | cons q qs => rfl

/-- What is recorded is the first changed length. -/
structure Recorded.Of (r : Recorded) (pairs : List LengthPair) : Prop where
  changed : r.lengthChanged = !pairs.isEmpty
  first : ∀ p ∈ pairs.head?, r.aclPair.head? = some p

theorem findAclLen_snd (interfaceName : String) (ps : List LengthPair) (aclLen : BitVec 32) :
    (findAclLen interfaceName ps aclLen false).2 = false := by
  induction ps with
  | nil => rfl
  | cons p ps ih =>
    rw [findAclLen]
    split
    · rfl
    · exact ih

/-- Only the first pair counts. -/
theorem usedLength_eq {r : Recorded} {pairs : List LengthPair} (hr : r.Of pairs) (c : ModChange)
    (interfaceName : String) {aclLen : BitVec 32} (haclLen : r.lengthChanged = false → aclLen = 0) :
    (if (r.find interfaceName aclLen).2 = false then c.length else some (r.find interfaceName aclLen).1) =
      c.usedLength pairs interfaceName := by
  rw [Recorded.find]
  cases pairs with
  | nil =>
    have hchanged : r.lengthChanged = false := hr.changed
    rw [hchanged, haclLen hchanged]
    rfl
  | cons p ps =>
    have hchanged : r.lengthChanged = true := hr.changed
    obtain ⟨rest, hrest⟩ := List.head?_eq_some_iff.1 (hr.first p rfl)
    rw [hchanged, if_pos rfl, hrest, findAclLen, ModChange.usedLength]
    by_cases hkey : interfaceName = p.key
    · rw [if_pos hkey, if_pos hkey]
      rfl
    · rw [if_neg hkey, if_neg hkey, if_pos (findAclLen_snd ..)]

/-! ## One field -/

theorem opOf_eq {name : String} (hne : name ≠ "") :
    (translateSingleStringUsingMap name schedOpNameMap).map
      (fun tmpOpName => BitVec.ofInt 8 (strtolEnd 10 tmpOpName.toList).1) = opOf name := by
  rw [translateSingleStringUsingMap, if_neg hne]
  by_cases hkey : name ∈ schedOpNameMap.map Prod.fst
  · simp only [schedOpNameMap, List.map_cons, List.map_nil, List.mem_cons, List.not_mem_nil, or_false] at hkey
    rcases hkey with rfl | rfl | rfl <;> decide +kernel
  · have hnone : schedOpNameMap.find? (fun pair => pair.1 = name) = none := by
      rw [List.find?_eq_none]
      exact fun pair hpair h => hkey (List.mem_map.2 ⟨pair, hpair, of_decide_eq_true h⟩)
    simp only [schedOpNameMap, List.map_cons, List.map_nil, List.mem_cons, List.not_mem_nil, or_false, not_or] at hkey
    rw [hnone, opOf]
    simp [hkey]

theorem ModChange.modify_iff (c : ModChange) {old new : StGateControlEntry} :
    c.modify old = some new ↔ c.Accepted ∧ c.Sets old new := by
  have hop := opOf_eq c.data.stringVal_ne
  unfold ModChange.modify ModChange.Accepted ModChange.Sets
  cases c.leaf with
  | operationName =>
    have hindex : findObjIndexByName AclLeaf.operationName.name schedMap = SCHED_OP_NAME := by decide +kernel
    simp only [hindex, ← hop]
    cases translateSingleStringUsingMap c.data.stringVal schedOpNameMap <;>
      simp [SCHED_OP_NAME, SCHED_GATE_STATES_VALUE, SCHED_TIME_INTERVAL_VALUE, eq_comm]
  | gateStatesValue =>
    have hindex : findObjIndexByName AclLeaf.gateStatesValue.name schedMap = SCHED_GATE_STATES_VALUE := by
      decide +kernel
    simp [hindex, eq_comm]
  | timeIntervalValue =>
    have hindex : findObjIndexByName AclLeaf.timeIntervalValue.name schedMap = SCHED_TIME_INTERVAL_VALUE := by
      decide +kernel
    simp only [hindex]
    cases c.granularity with
    | none => simp [SCHED_GATE_STATES_VALUE, SCHED_TIME_INTERVAL_VALUE]
    | some g =>
      by_cases hdvd : c.data.uint32Val.toNat % (g.1.toNat / 10) = 0
      · simp [SCHED_GATE_STATES_VALUE, SCHED_TIME_INTERVAL_VALUE, hdvd, eq_comm]
      · simp [SCHED_GATE_STATES_VALUE, SCHED_TIME_INTERVAL_VALUE, hdvd]

theorem ModChange.Accepted.sets {c : ModChange} (h : c.Accepted) (old : StGateControlEntry) :
    ∃ new, c.Sets old new := by
  unfold ModChange.Accepted at h
  unfold ModChange.Sets
  cases hleaf : c.leaf with
  | operationName =>
    simp only [hleaf] at h
    obtain ⟨op, hop⟩ := Option.ne_none_iff_exists'.1 h
    exact ⟨_, op, hop, rfl⟩
  | gateStatesValue => exact ⟨_, rfl⟩
  | timeIntervalValue => exact ⟨_, rfl⟩

theorem ModChange.modify_eq_none {c : ModChange} {old : StGateControlEntry} (h : c.modify old = none) :
    ¬c.Accepted := by
  intro haccepted
  obtain ⟨new, hnew⟩ := haccepted.sets old
  exact Option.some_ne_none _ ((c.modify_iff.2 ⟨haccepted, hnew⟩).symm.trans h)

/-! ## How a turn ends -/

/-- The ends of a turn, with what is known at each. -/
inductive ModExit (pairs : List LengthPair) (s : ModLocals) (c : ModChange) :
    Except (SrError × ModLocals) ModLocals → Prop where
  /-- Nothing is to be modified. -/
  | other (hname : c.interface ≠ none) (hop : c.op ≠ .modified) :
    ModExit pairs s c (.ok { s with log := s.log ++ [{ change := c }] })
  /-- An error before the list is read. -/
  | refused {s' : ModLocals} (hop : c.interface ≠ none → c.op = .modified)
    (hindex : c.interface ≠ none → c.opens && c.feat → c.index ≠ none)
    (hlengths : c.lengths pairs = none ∨ ∃ l ∈ c.lengths pairs, l.taken ≠ 0 ∧ c.mallocOk = false)
    (hlog : s'.log = s.log ++ [{ change := c, failed := true }]) (hport : s'.port.Clean ↔ s.port.Clean)
    (hgcl : s'.gcl.Clean ↔ s.gcl.Clean) : ModExit pairs s c (.error (.operationFailed, s'))
  /-- The key of the entry is missing. -/
  | keyless {s' : ModLocals} (hname : c.interface ≠ none) (hop : c.op = .modified) (hopens : c.opens && c.feat)
    (hindex : c.index = none) (hlog : s'.log = s.log ++ [{ change := c, failed := true }])
    (hport : ¬s'.port.Clean) : ModExit pairs s c (.error (.operationFailed, s'))
  /-- There is no length. -/
  | empty {s' : ModLocals} {l : Lengths} (hop : c.op = .modified) (hl : c.lengths pairs = some l) (hzero : l.taken = 0)
    (hlog : s'.log = s.log ++ [{ change := c }]) (hport : s'.port.Clean ↔ s.port.Clean)
    (hgcl : s'.gcl = s.gcl.release) (haclLen : s'.aclLen = l.used) : ModExit pairs s c (.ok s')
  /-- The list cannot be read. -/
  | unread {s' : ModLocals} {l : Lengths} (hop : c.op = .modified) (hl : c.lengths pairs = some l) (hne : l.taken ≠ 0)
    (hrows : c.rows = none) (hmalloc : c.mallocOk = true) (hlog : s'.log = s.log ++ [{ change := c, failed := true }])
    (hgcl : ¬s'.gcl.Clean) : ModExit pairs s c (.error (.operationFailed, s'))
  /-- The list has no such entry. -/
  | outside {s' : ModLocals} {l : Lengths} {gcl : List StGateControlEntry} (hop : c.op = .modified)
    (hl : c.lengths pairs = some l) (hne : l.taken ≠ 0) (hrows : c.rows ≠ none) (hmalloc : c.mallocOk = true)
    (hindex : l.taken ≤ l.index) (hlog : s'.log = s.log ++ [{ change := c, read := some gcl }])
    (hport : s'.port.Clean ↔ s.port.Clean) (hgcl : s'.gcl = s.gcl.acquire.release) (haclLen : s'.aclLen = l.used) :
    ModExit pairs s c (.ok s')
  /-- The value or the new list is not taken. -/
  | rejected {s' : ModLocals} {l : Lengths} {gcl : List StGateControlEntry} (hop : c.op = .modified)
    (hl : c.lengths pairs = some l) (hrows : c.rows ≠ none) (hmalloc : c.mallocOk = true) (hindex : l.index < l.taken)
    (hnot : ¬(c.Accepted ∧ c.setOk = true)) (hlength : gcl.length = l.taken.toNat)
    (hlog : s'.log = s.log ++ [{ change := c, read := some gcl, failed := true }])
    (hport : s'.port.Clean ↔ s.port.Clean) (hgcl : s'.gcl = s.gcl.acquire.release) :
    ModExit pairs s c (.error (.operationFailed, s'))
  /-- The new list is written. -/
  | written {s' : ModLocals} {l : Lengths} {gcl : List StGateControlEntry} {old new : StGateControlEntry}
    (hop : c.op = .modified) (hl : c.lengths pairs = some l) (hrows : c.rows ≠ none) (hmalloc : c.mallocOk = true)
    (hindex : l.index < l.taken) (haccepted : c.Accepted) (hset : c.setOk = true)
    (hlength : gcl.length = l.taken.toNat) (hold : gcl[l.index.toNat]? = some old) (hsets : c.Sets old new)
    (hlog : s'.log = s.log ++ [{ change := c, read := some gcl, written := some (gcl.set l.index.toNat new) }])
    (hport : s'.port.Clean ↔ s.port.Clean) (hgcl : s'.gcl = s.gcl.acquire.release) (haclLen : s'.aclLen = l.used) :
    ModExit pairs s c (.ok s')

section Turn

variable {r : Recorded} {pairs : List LengthPair} {s : ModLocals} {c : ModChange} {interfaceName : String}
  {schedIndex : BitVec 32}

/-- From the lengths on. -/
theorem modTurn_of_index (hr : r.Of pairs) (haclLen : r.lengthChanged = false → s.aclLen = 0)
    (hname : c.interface = some interfaceName) (hop : c.op = .modified) (hopens : c.opens && c.feat)
    (hindex : c.index = some schedIndex) : ModExit pairs s c (modTurn r s c) := by
  have hname' : c.interface ≠ none := hname ▸ Option.some_ne_none _
  have hindex' : c.index ≠ none := hindex ▸ Option.some_ne_none _
  obtain ⟨hopen, hfeat⟩ := Bool.and_eq_true_iff.1 hopens
  have hport := s.port.clean_acquire_release
  unfold modTurn
  rw [hname]
  dsimp only
  rw [if_neg (not_not.2 hop), hopen, hfeat, hindex]
  simp only [Bool.not_true, Bool.false_eq_true, if_false]
  have hused := usedLength_eq hr c interfaceName haclLen
  generalize hbody : c.body r { s with port := s.port.acquire } interfaceName schedIndex = b
  unfold ModChange.body at hbody
  have hlengths : c.lengths pairs = c.driverLength.bind fun driver =>
      (c.usedLength pairs interfaceName).map fun used => ⟨schedIndex, driver, used⟩ := by
    rw [ModChange.lengths, hname, hindex]
    cases c.driverLength with
    | none => rfl
    | some driver => exact if_pos hopens
  cases hdriver : c.driverLength with
  | none =>
    rw [hdriver] at hbody
    subst hbody
    rw [if_pos rfl]
    exact .refused (fun _ => hop) (fun _ _ => hindex') (.inl (by rw [hlengths, hdriver]; rfl)) rfl hport Iff.rfl
  | some driver =>
    rw [hdriver] at hbody
    dsimp only at hbody
    rw [hused] at hbody
    cases hlen : c.usedLength pairs interfaceName with
    | none =>
      rw [hlen] at hbody
      subst hbody
      rw [if_pos rfl]
      exact .refused (fun _ => hop) (fun _ _ => hindex') (.inl (by rw [hlengths, hdriver, hlen]; rfl)) rfl hport Iff.rfl
    | some used =>
      have hl : c.lengths pairs = some ⟨schedIndex, driver, used⟩ := by rw [hlengths, hdriver, hlen]; rfl
      rw [hlen] at hbody
      dsimp only at hbody
      by_cases hzero : (if driver < used then used else driver) = 0
      · rw [if_pos hzero] at hbody
        subst hbody
        rw [if_neg Bool.false_ne_true]
        exact .empty hop hl hzero rfl hport rfl rfl
      rw [if_neg hzero] at hbody
      cases hmalloc : c.mallocOk with
      | false =>
        rw [hmalloc, Bool.not_false, if_pos rfl] at hbody
        subst hbody
        rw [if_pos rfl]
        exact .refused (fun _ => hop) (fun _ _ => hindex') (.inr ⟨_, hl, hzero, hmalloc⟩) rfl hport Iff.rfl
      | true =>
        rw [hmalloc, Bool.not_true, if_neg Bool.false_ne_true] at hbody
        cases hrows : c.rows with
        | none =>
          rw [hrows] at hbody
          subst hbody
          rw [if_pos rfl]
          exact .unread hop hl hzero hrows hmalloc rfl s.gcl.not_clean_acquire
        | some rows =>
          have hrows' : c.rows ≠ none := hrows ▸ Option.some_ne_none _
          rw [hrows] at hbody
          dsimp only at hbody
          by_cases hout : (if driver < used then used else driver) ≤ schedIndex
          · rw [if_pos hout] at hbody
            subst hbody
            rw [if_neg Bool.false_ne_true]
            exact .outside hop hl hzero hrows' hmalloc hout rfl hport rfl rfl
          rw [if_neg hout] at hbody
          have hin : schedIndex < if driver < used then used else driver := BitVec.not_le.1 hout
          have hlength : ((List.range (if driver < used then used else driver).toNat).map rows).length =
              (if driver < used then used else driver).toNat := by rw [List.length_map, List.length_range]
          cases hmodify : c.modify (rows schedIndex.toNat) with
          | none =>
            rw [hmodify] at hbody
            subst hbody
            rw [if_pos rfl]
            exact .rejected hop hl hrows' hmalloc hin (fun h => ModChange.modify_eq_none hmodify h.1) hlength rfl
              hport rfl
          | some new =>
            obtain ⟨haccepted, hsets⟩ := c.modify_iff.1 hmodify
            rw [hmodify] at hbody
            dsimp only at hbody
            cases hset : c.setOk with
            | false =>
              rw [hset, Bool.not_false, if_pos rfl] at hbody
              subst hbody
              rw [if_pos rfl]
              exact .rejected hop hl hrows' hmalloc hin (fun h => Bool.false_ne_true (hset.symm.trans h.2)) hlength rfl
                hport rfl
            | true =>
              rw [hset, Bool.not_true, if_neg Bool.false_ne_true] at hbody
              subst hbody
              rw [if_neg Bool.false_ne_true]
              refine .written hop hl hrows' hmalloc hin haccepted hset hlength ?_ hsets rfl hport rfl rfl
              rw [List.getElem?_map, List.getElem?_range (BitVec.lt_def.1 hin), Option.map_some]

theorem modTurn_exit (hr : r.Of pairs) (haclLen : r.lengthChanged = false → s.aclLen = 0) (c : ModChange) :
    ModExit pairs s c (modTurn r s c) := by
  cases hname : c.interface with
  | none =>
    have hlengths : c.lengths pairs = none := by rw [ModChange.lengths, hname]
    have hno : c.interface ≠ none → False := fun h => h hname
    unfold modTurn
    rw [hname]
    exact .refused (fun h => (hno h).elim) (fun h => (hno h).elim) (.inl hlengths) rfl Iff.rfl Iff.rfl
  | some interfaceName =>
    have hname' : c.interface ≠ none := hname ▸ Option.some_ne_none _
    by_cases hop : c.op = .modified
    · by_cases hopens : c.opens && c.feat
      · cases hindex : c.index with
        | some schedIndex => exact modTurn_of_index hr haclLen hname hop hopens hindex
        | none =>
          obtain ⟨hopen, hfeat⟩ := Bool.and_eq_true_iff.1 hopens
          unfold modTurn
          rw [hname]
          dsimp only
          rw [if_neg (not_not.2 hop), hopen, hfeat, hindex]
          exact .keyless hname' hop hopens hindex rfl s.port.not_clean_acquire
      · have hlengths : c.lengths pairs = none := by
          rw [ModChange.lengths, hname]
          cases c.index with
          | none => rfl
          | some index =>
            cases c.driverLength with
            | none => rfl
            | some driver => exact if_neg hopens
        have hport := s.port.clean_acquire_release
        unfold modTurn
        rw [hname]
        dsimp only
        rw [if_neg (not_not.2 hop)]
        cases hopen : c.opens with
        | false => exact .refused (fun _ => hop) (fun _ h => absurd h hopens) (.inl hlengths) rfl Iff.rfl Iff.rfl
        | true =>
          have hfeat : c.feat = false := by simpa [hopen] using hopens
          rw [hfeat]
          exact .refused (fun _ => hop) (fun _ h => absurd h hopens) (.inl hlengths) rfl hport Iff.rfl
    · unfold modTurn
      rw [hname]
      dsimp only
      rw [if_pos hop]
      exact .other hname' hop

end Turn

/-! ## Whether a turn is as it should be -/

section Fits

variable {lengthChanges : List LengthChange} {pairs : List LengthPair} {c : ModChange} {l : Lengths}

theorem ModChange.lengths_eq (h : c.lengths pairs = some l) :
    c.interface ≠ none ∧ c.index = some l.index ∧ c.driverLength = some l.driver := by
  unfold ModChange.lengths at h
  cases hname : c.interface with
  | none => simp [hname] at h
  | some interfaceName =>
    cases hindex : c.index with
    | none => simp [hname, hindex] at h
    | some index =>
      cases hdriver : c.driverLength with
      | none => simp [hname, hindex, hdriver] at h
      | some driver =>
        rw [hname, hindex, hdriver] at h
        simp only [Option.ite_none_right_eq_some, Option.map_eq_some_iff] at h
        obtain ⟨-, used, -, rfl⟩ := h
        exact ⟨Option.some_ne_none _, rfl, rfl⟩

theorem Lengths.driver_le_taken (l : Lengths) : l.driver ≤ l.taken := by
  unfold Lengths.taken
  split
  · rename_i h
    exact BitVec.le_of_lt h
  · exact BitVec.le_refl _

/-- The greater of the lengths is the lesser of others. -/
theorem Lengths.taken_eq_iff (l : Lengths) (c : ModChange) (lengthChanges : List LengthChange) :
    l.taken.toNat = c.lesserLength lengthChanges l.driver ↔
      l.used ≤ l.driver ∧ ∀ old ∈ c.oldLength lengthChanges, l.driver ≤ old := by
  have htaken : l.taken.toNat = max l.used.toNat l.driver.toNat := by
    unfold Lengths.taken
    split
    · rename_i h
      exact (max_eq_left (BitVec.lt_def.1 h).le).symm
    · rename_i h
      exact (max_eq_right (BitVec.le_def.1 (BitVec.not_lt.1 h))).symm
  rw [htaken, ModChange.lesserLength, BitVec.le_def]
  cases c.oldLength lengthChanges with
  | none => simp
  | some old =>
    simp only [Option.mem_some_iff, forall_eq', BitVec.le_def]
    omega

theorem Lengths.taken_ne_zero (h : l.index < l.taken) : l.taken ≠ 0 := fun hzero => by
  rw [hzero] at h
  exact BitVec.not_lt_zero h

/-- What is asked where the list is read. -/
theorem ModChange.fits_iff (hop : c.op = .modified) (hl : c.lengths (lengthPairs lengthChanges) = some l)
    (hne : l.taken ≠ 0) (hmalloc : c.mallocOk = true) (hrows : c.rows ≠ none) :
    c.Fits lengthChanges ↔
      l.taken.toNat = c.lesserLength lengthChanges l.driver ∧ l.index < l.driver := by
  rw [ModChange.Fits, l.taken_eq_iff, hl]
  simp only [hop, Option.mem_some_iff, forall_eq', forall_const, hmalloc, hrows, ne_eq, not_false_eq_true, hne,
    true_and, and_assoc]

/-- The entry that is found in the list that is taken is one of the driver's. -/
theorem ModChange.fits_iff_of_lt (hop : c.op = .modified) (hl : c.lengths (lengthPairs lengthChanges) = some l)
    (hmalloc : c.mallocOk = true) (hrows : c.rows ≠ none) (hindex : l.index < l.taken) :
    c.Fits lengthChanges ↔ l.taken.toNat = c.lesserLength lengthChanges l.driver := by
  rw [ModChange.fits_iff hop hl (Lengths.taken_ne_zero hindex) hmalloc hrows]
  refine and_iff_left_of_imp fun h => ?_
  have hused := ((l.taken_eq_iff c lengthChanges).1 h).1
  rwa [Lengths.taken, if_neg (BitVec.not_lt.2 hused)] at hindex

theorem Handled.ok_of_failed {read : Option (List StGateControlEntry)} (hop : c.op = .modified) :
    Handled.Ok lengthChanges { change := c, read, failed := true } ↔
      ∀ gcl ∈ read, ∃ d ∈ c.driverLength, gcl.length = c.lesserLength lengthChanges d := by
  rw [Handled.Ok, if_pos hop]
  exact and_iff_left rfl

theorem Handled.not_ok_of_skipped {read : Option (List StGateControlEntry)} (hop : c.op = .modified) :
    ¬Handled.Ok lengthChanges { change := c, read } := by
  rw [Handled.Ok, if_pos hop]
  exact fun h => Bool.false_ne_true h.2

theorem ModChange.used_eq_zero (h : c.lengths [] = some l) : l.used = 0 := by
  unfold ModChange.lengths at h
  split at h
  · simp only [Option.ite_none_right_eq_some, Option.map_eq_some_iff] at h
    obtain ⟨-, used, hused, rfl⟩ := h
    exact (Option.some.inj hused).symm
  · cases h

theorem ModChange.not_passes (hop : c.interface ≠ none → c.op = .modified)
    (h : ∀ l ∈ c.lengths pairs, l.taken ≠ 0 ∧
      ¬(c.mallocOk = true ∧ c.rows ≠ none ∧ (l.index < l.taken → c.Accepted ∧ c.setOk = true))) : ¬c.Passes pairs := by
  rintro ⟨hname, hpass⟩
  obtain ⟨l, hl, hgoes⟩ := hpass (hop hname)
  exact (h l hl).2 (hgoes (h l hl).1)

theorem ModChange.passes_of (hl : c.lengths pairs = some l)
    (h : l.taken ≠ 0 → c.mallocOk = true ∧ c.rows ≠ none ∧ (l.index < l.taken → c.Accepted ∧ c.setOk = true)) :
    c.Passes pairs :=
  ⟨(ModChange.lengths_eq hl).1, fun _ => ⟨l, hl, h⟩⟩

variable {s : ModLocals} {res : Except (SrError × ModLocals) ModLocals}

/-- The callback goes on behind the changes that pass. -/
theorem ModExit.passes {s' : ModLocals} (h : ModExit pairs s c (.ok s')) :
    c.Passes pairs ∧ (pairs = [] → s.aclLen = 0 → s'.aclLen = 0) ∧
      ∃ h : Handled, h.change = c ∧ h.failed = false ∧ s'.log = s.log ++ [h] := by
  have hused : ∀ {l : Lengths}, c.lengths pairs = some l → ∀ {aclLen : BitVec 32}, aclLen = l.used →
      pairs = [] → s.aclLen = 0 → aclLen = 0 := by
    rintro l hl aclLen rfl rfl -
    exact ModChange.used_eq_zero hl
  cases h with
  | other hname hop => exact ⟨⟨hname, fun h => absurd h hop⟩, fun _ h => h, _, rfl, rfl, rfl⟩
  | empty hop hl hzero hlog _ _ haclLen =>
    exact ⟨ModChange.passes_of hl fun h => absurd hzero h, hused hl haclLen, _, rfl, rfl, hlog⟩
  | outside hop hl hne hrows hmalloc hindex hlog _ _ haclLen =>
    refine ⟨ModChange.passes_of hl fun _ => ⟨hmalloc, hrows, fun h => ?_⟩, hused hl haclLen, _, rfl, rfl, hlog⟩
    exact absurd h (BitVec.not_lt.2 hindex)
  | written hop hl hrows hmalloc hindex haccepted hset _ _ _ hlog _ _ haclLen =>
    exact ⟨ModChange.passes_of hl fun _ => ⟨hmalloc, hrows, fun _ => ⟨haccepted, hset⟩⟩, hused hl haclLen, _, rfl, rfl,
      hlog⟩

theorem ModExit.stops {e : SrError × ModLocals} (h : ModExit pairs s c (.error e)) :
    ¬c.Passes pairs ∧ e.1 = .operationFailed := by
  cases h with
  | refused hop _ hlengths =>
    refine ⟨ModChange.not_passes hop fun l hl => ?_, rfl⟩
    rcases hlengths with hnone | ⟨l', hl', hne, hmalloc⟩
    · exact absurd (hnone.symm.trans hl) (Option.some_ne_none l).symm
    · obtain rfl := Option.some.inj (hl'.symm.trans hl)
      exact ⟨hne, fun h => Bool.false_ne_true (hmalloc.symm.trans h.1)⟩
  | keyless hname hop _ hindex =>
    refine ⟨ModChange.not_passes (fun _ => hop) fun l hl => ?_, rfl⟩
    exact absurd (hindex.symm.trans (ModChange.lengths_eq hl).2.1) (Option.some_ne_none _).symm
  | unread hop hl hne hrows =>
    refine ⟨ModChange.not_passes (fun _ => hop) fun l' hl' => ?_, rfl⟩
    obtain rfl := Option.some.inj (hl.symm.trans hl')
    exact ⟨hne, fun h => h.2.1 hrows⟩
  | rejected hop hl hrows hmalloc hindex hnot =>
    refine ⟨ModChange.not_passes (fun _ => hop) fun l' hl' => ?_, rfl⟩
    obtain rfl := Option.some.inj (hl.symm.trans hl')
    exact ⟨Lengths.taken_ne_zero hindex, fun h => hnot (h.2.2 hindex)⟩

/-- The variables at the end of a turn. -/
def locals : Except (SrError × ModLocals) ModLocals → ModLocals
  | .ok s => s
  | .error e => e.2

/-- All that was handled was handled well. -/
def AllOk (lengthChanges : List LengthChange) (s : ModLocals) : Prop := ∀ h ∈ s.log, h.Ok lengthChanges

theorem allOk_of_log {s' : ModLocals} {h : Handled} (hlog : s'.log = s.log ++ [h]) :
    AllOk lengthChanges s' ↔ AllOk lengthChanges s ∧ h.Ok lengthChanges := by
  rw [AllOk, hlog, List.forall_mem_append]
  simp only [AllOk, List.mem_singleton, forall_eq]

/-- **A change is handled well just when its lengths fit.** -/
theorem ModExit.allOk (h : ModExit (lengthPairs lengthChanges) s c res) :
    AllOk lengthChanges (locals res) ↔ AllOk lengthChanges s ∧ c.Fits lengthChanges := by
  cases h with
  | other hname hop =>
    refine (allOk_of_log rfl).trans (and_congr_right fun _ => iff_of_true ?_ fun h => absurd h hop)
    rw [Handled.Ok, if_neg hop]
    exact ⟨rfl, rfl⟩
  | refused hop _ hlengths hlog =>
    refine (allOk_of_log hlog).trans (and_congr_right fun _ => iff_of_true ?_ fun _ l hl => ?_)
    · by_cases hmod : c.op = .modified
      · exact (Handled.ok_of_failed hmod).2 fun _ h => nomatch h
      · rw [Handled.Ok, if_neg hmod]
        exact ⟨rfl, rfl⟩
    · rcases hlengths with hnone | ⟨l', hl', hne, hmalloc⟩
      · exact absurd (hnone.symm.trans hl) (Option.some_ne_none l).symm
      · obtain rfl := Option.some.inj (hl'.symm.trans hl)
        exact ⟨hne, fun h => absurd (hmalloc.symm.trans h) Bool.false_ne_true⟩
  | keyless hname hop _ hindex hlog =>
    refine (allOk_of_log hlog).trans (and_congr_right fun _ => iff_of_true ?_ fun _ l hl => ?_)
    · exact (Handled.ok_of_failed hop).2 fun _ h => nomatch h
    · exact absurd (hindex.symm.trans (ModChange.lengths_eq hl).2.1) (Option.some_ne_none _).symm
  | empty hop hl hzero hlog =>
    refine (allOk_of_log hlog).trans (and_congr_right fun _ => iff_of_false (Handled.not_ok_of_skipped hop) fun h => ?_)
    exact (h hop _ hl).1 hzero
  | unread hop hl hne hrows _ hlog =>
    refine (allOk_of_log hlog).trans (and_congr_right fun _ => iff_of_true ?_ fun _ l' hl' => ?_)
    · exact (Handled.ok_of_failed hop).2 fun _ h => nomatch h
    · obtain rfl := Option.some.inj (hl.symm.trans hl')
      exact ⟨hne, fun _ h => absurd hrows h⟩
  | outside hop hl hne hrows hmalloc hindex hlog =>
    refine (allOk_of_log hlog).trans (and_congr_right fun _ => iff_of_false (Handled.not_ok_of_skipped hop) fun h => ?_)
    rw [ModChange.fits_iff hop hl hne hmalloc hrows] at h
    exact BitVec.not_lt.2 (BitVec.le_trans (Lengths.driver_le_taken _) hindex) h.2
  | rejected hop hl hrows hmalloc hindex hnot hlength hlog =>
    refine (allOk_of_log hlog).trans (and_congr_right fun _ => ?_)
    rw [Handled.ok_of_failed hop, ModChange.fits_iff_of_lt hop hl hmalloc hrows hindex, (ModChange.lengths_eq hl).2.2,
      ← hlength]
    simp only [Option.mem_some_iff, forall_eq', exists_eq_left']
  | written hop hl hrows hmalloc hindex haccepted hset hlength hold hsets hlog =>
    refine (allOk_of_log hlog).trans (and_congr_right fun _ => ?_)
    rw [Handled.Ok, if_pos hop, ModChange.fits_iff_of_lt hop hl hmalloc hrows hindex, (ModChange.lengths_eq hl).2.2,
      (ModChange.lengths_eq hl).2.1, ← hlength]
    simp only [Option.mem_some_iff, forall_eq', exists_eq_left']
    exact and_iff_left ⟨_, _, hold, hsets, rfl⟩

end Fits

/-! ## A call -/

section Run

variable {lengthChanges : List LengthChange} {r : Recorded}

theorem Recorded.Of.aclLen (hr : r.Of (lengthPairs lengthChanges)) {s s' : ModLocals}
    (hstep : lengthPairs lengthChanges = [] → s.aclLen = 0 → s'.aclLen = 0) (h : r.lengthChanged = false → s.aclLen = 0)
    (hchanged : r.lengthChanged = false) : s'.aclLen = 0 :=
  hstep (List.isEmpty_iff.1 (by simpa using hr.changed.symm.trans hchanged)) (h hchanged)

/-- What is handled is what comes, up to an error. -/
theorem foldlM_modTurn_log (hr : r.Of (lengthPairs lengthChanges)) (cs : List ModChange) {s : ModLocals}
    (haclLen : r.lengthChanged = false → s.aclLen = 0) (hlog : ∀ h ∈ s.log, h.failed = false) :
    match cs.foldlM (modTurn r) s with
    | .ok s' => (∀ h ∈ s'.log, h.failed = false) ∧ s'.log.map (·.change) = s.log.map (·.change) ++ cs
    | .error e => e.1 = .operationFailed := by
  induction cs generalizing s with
  | nil => exact ⟨hlog, (List.append_nil _).symm⟩
  | cons c cs ih =>
    have hexit := modTurn_exit hr haclLen c
    rw [List.foldlM_cons]
    cases hres : modTurn r s c with
    | error e =>
      rw [hres] at hexit
      exact hexit.stops.2
    | ok s' =>
      rw [hres] at hexit
      obtain ⟨-, hstep, h, hchange, hfailed, hlog'⟩ := hexit.passes
      have hall : ∀ h' ∈ s'.log, h'.failed = false := by
        rw [hlog']
        exact List.forall_mem_append.2 ⟨hlog, fun h' hmem => List.mem_singleton.1 hmem ▸ hfailed⟩
      have hrest := ih (fun hchanged => hr.aclLen hstep haclLen hchanged) hall
      have hmap : s'.log.map (·.change) ++ cs = s.log.map (·.change) ++ c :: cs := by
        rw [hlog', List.map_append, List.append_assoc, ← hchange]
        rfl
      rw [hmap] at hrest
      exact hrest

/-- Every change that is reached fits. -/
def AllFit (lengthChanges : List LengthChange) (changes : List ModChange) : Prop :=
  AllReached (fun _ c => c.Passes (lengthPairs lengthChanges)) (fun _ c => c.Fits lengthChanges) changes

theorem foldlM_modTurn_iff (hr : r.Of (lengthPairs lengthChanges)) (cs : List ModChange) :
    AllOk lengthChanges (locals (cs.foldlM (modTurn r) {})) ↔ AllFit lengthChanges cs := by
  have hstart : AllOk lengthChanges {} := fun _ h => nomatch h
  let Inv : List ModChange → ModLocals → Prop := fun _ s => r.lengthChanged = false → s.aclLen = 0
  have hturn : ∀ before c s, Inv before s →
      TurnEnds (c.Passes (lengthPairs lengthChanges)) (c.Fits lengthChanges) (AllOk lengthChanges s)
        (Inv (before ++ [c])) (AllOk lengthChanges) (fun e => AllOk lengthChanges e.2) (modTurn r s c) := by
    intro before c s haclLen
    have hexit := modTurn_exit hr haclLen c
    have hallOk := hexit.allOk
    cases hres : modTurn r s c with
    | ok s' =>
      rw [hres] at hexit hallOk
      exact ⟨hexit.passes.1, fun h => hr.aclLen hexit.passes.2.1 haclLen h, hallOk⟩
    | error e =>
      rw [hres] at hexit hallOk
      exact ⟨hexit.stops.1, hallOk⟩
  have hinv : Inv [] {} := fun _ => rfl
  have hall := (foldlM_clean_iff hturn cs hinv).trans (and_iff_right hstart)
  cases hrun : cs.foldlM (modTurn r) {} with
  | ok s' =>
    rw [hrun] at hall
    exact hall
  | error e =>
    rw [hrun] at hall
    exact hall

end Run

/-- A call that looks at its changes ends as the loop over them does; others end
with nothing done, or write behind `acl_pair`. -/
theorem modCb_iff {P : ModEnd → Prop} {Q : Prop} (call : ModCall)
    (hempty : ∀ rc, (call.acts = true → rc ≠ .ok) → P (.returned rc {})) (hover : ¬P .overrun)
    (hrun : ∀ r : Recorded, r.Of (lengthPairs call.lengthChanges) →
      (P (modEnd (call.changes.foldlM (modTurn r) {})) ↔ Q)) :
    P (interfaceSchedAclModCb call) ↔
      (call.acts = true → call.lengthIterOk = true →
        (lengthPairs call.lengthChanges).length ≤ BASE_EIGHT ∧
          (keysFound call.lengthChanges = true → call.iterOk = true → Q)) := by
  have hother : P (.returned .other {}) := hempty _ fun _ => by decide
  rw [interfaceSchedAclModCb]
  by_cases hevent : (decide (call.event = .done) || !call.pluginInit) = true
  · have hacts : ¬call.acts = true := by
      simp only [Bool.or_eq_true, decide_eq_true_eq, Bool.not_eq_true'] at hevent
      rcases hevent with h | h <;> simp [ModCall.acts, h]
    rw [hevent, if_pos rfl]
    exact iff_of_true (hempty _ fun h => absurd h hacts) fun h => absurd h hacts
  have hacts : call.acts = true := by
    simp only [Bool.or_eq_true, decide_eq_true_eq, Bool.not_eq_true', not_or, Bool.not_eq_false] at hevent
    simp [ModCall.acts, hevent]
  rw [if_neg hevent, forall_prop_of_true hacts]
  cases hiter : call.lengthIterOk with
  | false => exact iff_of_true hother fun h => absurd h Bool.false_ne_true
  | true =>
    rw [Bool.not_true, if_neg Bool.false_ne_true, forall_prop_of_true rfl]
    have hstack : call.stack ≠ [] := fun h => by
      have := call.stack_length
      rw [h] at this
      cases this
    rcases recordLengths_cases call.lengthChanges (Nat.zero_le _) ⟨call.stack, false⟩ with
      ⟨hlt, hrec⟩ | ⟨hle, ⟨hkeys, hrec⟩ | ⟨hkeys, r, hrec, hchanged, -, hhead⟩⟩
    · rw [hrec]
      exact iff_of_false hover fun h => absurd h.1 (by omega)
    · rw [hrec]
      exact iff_of_true (hempty _ fun _ => by decide)
        ⟨by omega, fun h => absurd (hkeys.symm.trans h) Bool.false_ne_true⟩
    · rw [hrec, and_iff_right (by omega : (lengthPairs call.lengthChanges).length ≤ BASE_EIGHT),
        forall_prop_of_true hkeys]
      dsimp only
      cases hiter' : call.iterOk with
      | false => exact iff_of_true hother fun h => absurd h Bool.false_ne_true
      | true =>
        rw [Bool.not_true, if_neg Bool.false_ne_true, forall_prop_of_true rfl]
        exact hrun r ⟨hchanged, hhead rfl hstack⟩

/-- **A call is as it should be just when no more than eight old lengths come
before a created one, and each change that is reached fits.** -/
theorem schedModOk_iff (call : ModCall) :
    SchedModOk call ↔
      (call.acts = true → call.lengthIterOk = true →
        (lengthPairs call.lengthChanges).length ≤ BASE_EIGHT ∧
          (keysFound call.lengthChanges = true → call.iterOk = true → AllFit call.lengthChanges call.changes)) := by
  have hempty : ∀ rc, (call.acts = true → rc ≠ .ok) → call.EndsWell (.returned rc {}) :=
    fun rc hrc => ⟨fun _ h => (nomatch h), fun hacts h => absurd h (hrc hacts)⟩
  refine modCb_iff call hempty (fun h : False => h) fun r hr => ?_
  rw [← foldlM_modTurn_iff hr]
  have hlog := foldlM_modTurn_log hr call.changes (s := {}) (fun _ => rfl) fun _ h => nomatch h
  cases hrun : call.changes.foldlM (modTurn r) {} with
  | ok s =>
    rw [hrun] at hlog
    refine ⟨fun h x hx => (h.1 x hx).1, fun h => ⟨fun x hx => ⟨h x hx, fun hfail => ?_⟩, fun _ _ => hlog.2⟩⟩
    exact absurd ((hlog.1 x hx).symm.trans hfail) Bool.false_ne_true
  | error e =>
    rw [hrun] at hlog
    have herror : e.1 ≠ .ok := fun h => absurd (hlog.symm.trans h) (by decide)
    exact ⟨fun h x hx => (h.1 x hx).1, fun h => ⟨fun x hx => ⟨h x hx, fun _ => herror⟩, fun _ h => absurd h herror⟩⟩

/-- All gates are opened in the first entry. -/
def openAllGates : ModChange :=
  { op := .modified, interface := some "sw0p2", leaf := .gateStatesValue, index := some 0, driverLength := some 1,
    length := some 1, rows := some fun _ => ⟨0, 1, 1000⟩, granularity := some ⟨80, by decide⟩,
    data :=
      { uint8Val := 255, uint32Val := 255, stringVal := "ieee802-dot1q-sched:set-gate-states",
        stringVal_ne := by decide } }

/-- The list is made shorter in the same edit. -/
def shorten : ModCall :=
  { event := .change, pluginInit := true, lengthIterOk := true, lengthChanges := [⟨some "sw0p2", some 3⟩],
    iterOk := true, changes := [openAllGates], stack := List.replicate 8 ⟨"", 0⟩, stack_length := rfl }

/-- Three rows are read and written, where the driver has one. -/
theorem not_schedModOk_shorten : ¬SchedModOk shorten := by
  intro h
  let r : Recorded := ⟨⟨"sw0p2", 3⟩ :: List.replicate 7 ⟨"", 0⟩, true⟩
  have hr : r.Of (lengthPairs shorten.lengthChanges) := ⟨rfl, fun p hp => hp⟩
  have hall : AllOk shorten.lengthChanges (locals (shorten.changes.foldlM (modTurn r) {})) := by
    have hcb : interfaceSchedAclModCb shorten = modEnd (shorten.changes.foldlM (modTurn r) {}) := rfl
    rw [SchedModOk, hcb] at h
    cases hrun : shorten.changes.foldlM (modTurn r) {} with
    | ok s =>
      rw [hrun] at h
      exact fun x hx => (h.1 x hx).1
    | error e =>
      rw [hrun] at h
      exact fun x hx => (h.1 x hx).1
  have hfit := (foldlM_modTurn_iff hr shorten.changes).1 hall [] openAllGates (List.prefix_refl _) .nil
  have hused := ((hfit rfl ⟨0, 1, 3⟩ rfl).2 rfl (Option.some_ne_none _)).1
  exact absurd hused (by decide)

end TsnSwitch.Sysrepo.Acl
