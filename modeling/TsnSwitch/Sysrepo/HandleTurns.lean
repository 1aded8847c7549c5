/-
How the turns of the callbacks leave their handles and buffers, and where every
handle is closed once and every buffer freed once (`disciplined_iff`).
-/
import TsnSwitch.Sysrepo.AclModTurns
import TsnSwitch.Sysrepo.Handles

namespace TsnSwitch.Sysrepo.Acl

open Lib

/-! ## Entries that are created -/

theorem Resources.not_clean_openPort (s : Resources) : ¬s.openPort.Clean := fun h => s.port.not_clean_acquire h.1

theorem Resources.clean_openPort_closePort (s : Resources) : s.openPort.closePort.Clean ↔ s.Clean :=
  and_congr_left fun _ => s.port.clean_acquire_release

theorem Resources.not_clean_closePort_twice (s : Resources) : ¬s.openPort.closePort.closePort.Clean :=
  fun h => s.port.not_clean_release_twice h.1

theorem Store.run_of_ok {a : Store} {index : BitVec 32} (h : a.Ok index) (gcl : Holder) :
    a.run .created index gcl = (false, gcl.acquire) := by
  obtain ⟨hlength, hmalloc, hget, hset⟩ := h
  obtain ⟨gclLen, hgclLen⟩ := Option.ne_none_iff_exists'.1 hlength
  have hread : ¬(index ≠ 0 ∧ (!a.getOk) = true) := fun hno => by
    have := hno.2
    rw [hget hno.1] at this
    exact Bool.false_ne_true this
  have hcreated :
      ¬(ChangeOp.created.num &&& ChangeOp.created.num ≠ 0 ∧ (gclLen = 0 ∨ MAX_NUMBER_OF_ACL < gclLen.toNat)) :=
    fun hno => hno.1 rfl
  rw [Store.run, hgclLen]
  dsimp only
  rw [if_neg hcreated, hmalloc, if_neg hread, hset]
  rfl

theorem Store.run_of_not_ok {a : Store} {index : BitVec 32} (h : ¬a.Ok index) (gcl : Holder) :
    ∃ gcl', a.run .created index gcl = (true, gcl') ∧ (gcl'.Clean ↔ gcl.Clean) := by
  rw [Store.run]
  cases hlength : a.driverLength with
  | none => exact ⟨gcl, rfl, Iff.rfl⟩
  | some gclLen =>
    have hcreated :
        ¬(ChangeOp.created.num &&& ChangeOp.created.num ≠ 0 ∧ (gclLen = 0 ∨ MAX_NUMBER_OF_ACL < gclLen.toNat)) :=
      fun hno => hno.1 rfl
    dsimp only
    rw [if_neg hcreated]
    cases hmalloc : a.mallocOk with
    | false => exact ⟨gcl.clear, rfl, gcl.clean_clear⟩
    | true =>
      rw [Bool.not_true, if_neg Bool.false_ne_true]
      by_cases hget : index ≠ 0 ∧ (!a.getOk) = true
      · rw [if_pos hget]
        exact ⟨gcl.acquire.release, rfl, gcl.clean_acquire_release⟩
      · rw [if_neg hget]
        cases hset : a.setOk with
        | false => exact ⟨gcl.acquire.release, rfl, gcl.clean_acquire_release⟩
        | true =>
          refine absurd ⟨?_, hmalloc, fun hne => ?_, hset⟩ h
          · rw [hlength]
            exact Option.some_ne_none _
          · by_contra hno
            exact hget ⟨hne, by simpa using hno⟩

theorem Store.run_cases (a : Store) (index : BitVec 32) (gcl : Holder) :
    (∃ gcl', a.run .created index gcl = (true, gcl') ∧ (gcl'.Clean ↔ gcl.Clean)) ∨
      a.run .created index gcl = (false, gcl.acquire) := by
  by_cases hok : a.Ok index
  · exact .inr (a.run_of_ok hok gcl)
  · exact .inl (a.run_of_not_ok hok gcl)

/-! ### Interfaces -/

/-- A created entry either fails with the buffer released, or has it allocated. -/
theorem AclChange.body_cases {c : AclChange} (hop : c.op = .created) (gcl : Holder) :
    (∃ gcl', c.body gcl = (true, gcl') ∧ (gcl'.Clean ↔ gcl.Clean)) ∨ c.body gcl = (false, gcl.acquire) := by
  have hfail : (∃ gcl', (true, gcl) = (true, gcl') ∧ (gcl'.Clean ↔ gcl.Clean)) ∨ (true, gcl) = (false, gcl.acquire) :=
    .inl ⟨gcl, rfl, Iff.rfl⟩
  rw [AclChange.body, hop]
  split
  · exact hfail
  cases c.lengthAgain with
  | none => exact hfail
  | some gclLen =>
    dsimp only
    split
    · exact hfail
    split
    · exact hfail
    split
    · exact hfail
    cases c.configChange with
    | none => exact hfail
    | some configChange =>
      dsimp only
      split
      · exact hfail
      split
      · exact hfail
      exact c.store.run_cases c.index gcl

theorem aclTurn_clean (s : Resources) (c : AclChange) (h : s.Clean) :
    EndsIn Resources.Clean (fun e => e.2.Clean) (aclTurn s c) := by
  unfold aclTurn
  cases hpresent : c.present with
  | false => exact h
  | true =>
    cases hkey : c.keyOk with
    | false => exact h
    | true =>
      simp only [Bool.not_true, Bool.false_eq_true, if_false]
      cases c.length with
      | none => exact h
      | some length =>
        dsimp only
        by_cases hadd : c.op = .created ∧ c.isIndex = true
        · rw [if_pos hadd]
          cases hopen : c.opens with
          | false => exact h
          | true =>
            rw [Bool.not_true, if_neg Bool.false_ne_true]
            rcases c.body_cases hadd.1 s.gcl with ⟨gcl', hbody, hclean⟩ | hbody
            · rw [hbody]
              exact ⟨s.port.clean_acquire_release.2 h.1, hclean.2 h.2⟩
            · rw [hbody]
              exact ⟨s.port.clean_acquire_release.2 h.1, s.gcl.clean_acquire_release.2 h.2⟩
        · rw [if_neg hadd]
          by_cases hdelete : c.op = .deleted
          · rw [if_pos hdelete]
            cases c.entries with
            | none => exact h
            | some n =>
              dsimp only
              by_cases hcount : length ≠ n
              · rw [if_pos hcount]
                exact h
              · rw [if_neg hcount]
                exact h
          · rw [if_neg hdelete]
            exact h

/-! ### The buffer behind some changes -/

theorem forall_mem_concat {γ : Type} {P : γ → Prop} {l : List γ} {c : γ} :
    (∀ b ∈ l ++ [c], P b) ↔ (∀ b ∈ l, P b) ∧ P c := by
  rw [List.forall_mem_append]
  simp only [List.mem_singleton, forall_eq]

/-- The variable is NULL until a buffer is freed, and then names that. -/
structure BufferInv {γ : Type} (Frees : γ → Prop) (before : List γ) (gcl : Holder) : Prop where
  released : gcl.Released
  null_iff : gcl.ptr = none ↔ ∀ b ∈ before, ¬Frees b

namespace BufferInv

variable {γ : Type} {Frees : γ → Prop} {before : List γ} {gcl : Holder} {c : γ}

theorem start : BufferInv Frees [] .start := ⟨Holder.released_start, iff_of_true rfl fun _ h => nomatch h⟩

/-- A turn by which no buffer is allocated. -/
theorem keep (h : BufferInv Frees before gcl) (hc : ¬Frees c) : BufferInv Frees (before ++ [c]) gcl :=
  ⟨h.released, by rw [h.null_iff, forall_mem_concat, and_iff_left hc]⟩

/-- A turn that frees what there is. -/
theorem release (h : BufferInv Frees before gcl) (hc : ¬Frees c) : BufferInv Frees (before ++ [c]) gcl.release :=
  ⟨h.released.release, by rw [Holder.ptr_release, h.null_iff, forall_mem_concat, and_iff_left hc]⟩

/-- A turn by which one is allocated and freed. -/
theorem acquire_release (hc : Frees c) : BufferInv Frees (before ++ [c]) gcl.acquire.release := by
  refine ⟨gcl.released_acquire_release, ?_⟩
  rw [forall_mem_concat]
  exact iff_of_false (Option.some_ne_none _) fun h => h.2 hc

/-- To free what there is is right as long as nothing was freed before. -/
theorem clean_release (h : BufferInv Frees before gcl) : gcl.release.Clean ↔ gcl.Clean ∧ ∀ b ∈ before, ¬Frees b := by
  rw [← h.null_iff]
  by_cases hnull : gcl.ptr = none
  · rw [Holder.release_of_null hnull]
    exact (and_iff_left hnull).symm
  · exact iff_of_false (Holder.not_clean_release h.released hnull) fun hclean => hnull hclean.2

end BufferInv

/-! ### Stream gates -/

section Psfp

variable {before : List PsfpChange} {s : Resources} {c : PsfpChange}

/-- The node, its keys or the port is missing. -/
theorem psfpTurn_of_missing (h : ¬(c.present = true ∧ c.keyOk = true ∧ c.gateKeyOk = true ∧ c.opens = true)) :
    ∃ e, psfpTurn s c = .error e ∧ (e.2.Clean ↔ s.Clean) := by
  unfold psfpTurn
  cases hpresent : c.present with
  | false => exact ⟨_, rfl, Iff.rfl⟩
  | true =>
    cases hkey : c.keyOk with
    | false => exact ⟨_, rfl, Iff.rfl⟩
    | true =>
      cases hgate : c.gateKeyOk with
      | false => exact ⟨_, rfl, Iff.rfl⟩
      | true =>
        cases hopen : c.opens with
        | false => exact ⟨_, rfl, Iff.rfl⟩
        | true => exact absurd ⟨hpresent, hkey, hgate, hopen⟩ h

/-- The port is open. -/
theorem psfpTurn_of_open (hpresent : c.present = true) (hkey : c.keyOk = true) (hgate : c.gateKeyOk = true)
    (hopen : c.opens = true) :
    psfpTurn s c =
      match c.counts with
      | none => failWith s.openPort
      | some n =>
        if !c.setLengthOk then failWith s.openPort.closePort
        else
          let t := if n.2 = 0 then s.openPort.closePort else s.openPort
          if c.op = .created ∧ c.isIndex = true then t.leaveEntry (c.body n.1 t.gcl) else .ok t := by
  unfold psfpTurn PsfpChange.counts
  simp only [hpresent, hkey, hgate, hopen, Bool.not_true, Bool.or_false, Bool.false_eq_true, if_false]
  cases c.entries with
  | none => rfl
  | some gclLen =>
    cases c.indices with
    | none => rfl
    | some indices =>
      dsimp only
      cases scanIndices gclLen.toNat 0 0 indices with
      | none => rfl
      | some validGclLen =>
        by_cases hwrong : validGclLen = 0 ∧ gclLen ≠ 0
        · simp only [Option.bind_some, if_pos hwrong]
        · simp only [Option.bind_some, if_neg hwrong]

/-- What is known where entries were counted. -/
theorem PsfpChange.counts_zero {n : BitVec 32 × Nat} (h : c.counts = some n) (hzero : n.2 = 0) : n.1 = 0 := by
  unfold PsfpChange.counts at h
  split at h
  · obtain ⟨v, -, hv⟩ := Option.bind_eq_some_iff.1 h
    split at hv
    · cases hv
    · rename_i hno
      obtain rfl := Option.some.inj hv
      by_contra hne
      exact hno ⟨hzero, hne⟩
  · cases h

/-- How the block for an added entry ends. -/
theorem PsfpChange.body_of_not_enters {n : BitVec 32} (h : ¬c.Enters n) (gcl : Holder) :
    c.body n gcl = (true, gcl) := by
  unfold PsfpChange.body
  by_cases hmax : MAX_NUMBER_OF_ACL < n.toNat
  · rw [if_pos hmax]
  rw [if_neg hmax]
  by_cases hindex : n ≤ c.index
  · rw [if_pos hindex]
  rw [if_neg hindex]
  cases hset : c.setLengthAgainOk with
  | false => rfl
  | true =>
    cases hvalid : c.validOk with
    | false => rfl
    | true => exact absurd ⟨not_lt.1 hmax, BitVec.not_le.1 hindex, hset, hvalid⟩ h

theorem PsfpChange.body_of_enters {n : BitVec 32} (h : c.Enters n) (gcl : Holder) :
    c.body n gcl =
      match c.read with
      | .failed => (true, gcl)
      | .skipped => (false, gcl)
      | .row () => c.store.run c.op c.index gcl := by
  obtain ⟨hmax, hindex, hset, hvalid⟩ := h
  rw [PsfpChange.body, if_neg (not_lt.2 hmax), if_neg (BitVec.not_le.2 hindex), hset, hvalid]
  rfl

/-- How a turn for a stream gate ends. -/
abbrev PsfpEnds (before : List PsfpChange) (s : Resources) (c : PsfpChange) : Except Left Resources → Prop :=
  TurnEnds c.Passes (c.Disciplined before) s.Clean (fun s' => BufferInv PsfpChange.Frees (before ++ [c]) s'.gcl)
    Resources.Clean fun e => e.2.Clean

variable {n : BitVec 32 × Nat}

/-- An entry is added. -/
theorem psfpTurn_of_adds (h : BufferInv PsfpChange.Frees before s.gcl) (hpresent : c.present = true)
    (hkey : c.keyOk = true) (hgate : c.gateKeyOk = true) (hopen : c.opens = true) (hcounts : c.counts = some n)
    (hset : c.setLengthOk = true) (hadds : c.Adds) (hsome : n.2 ≠ 0) :
    PsfpEnds before s c (s.openPort.leaveEntry (c.body n.1 s.gcl)) := by
  have hport := s.port.clean_acquire_release
  have hdisciplined : c.Disciplined before ↔ (c.Enters n.1 → c.read = .skipped → ∀ b ∈ before, ¬b.Frees) := by
    simp only [PsfpChange.Disciplined, hpresent, hkey, hgate, hopen, hcounts, hset, hadds, hsome, Option.mem_some_iff,
      exists_eq_left', forall_const, ne_eq, not_false_eq_true, true_and]
  have hpasses : c.Passes ↔ c.Enters n.1 ∧ (c.read = .skipped ∨ c.read = .row () ∧ c.store.Ok c.index) := by
    simp only [PsfpChange.Passes, hpresent, hkey, hgate, hopen, hcounts, hset, hadds, Option.mem_some_iff,
      exists_eq_left', forall_const, true_and]
  -- where the entry is not passed over, nothing more is asked
  have hfine : ¬(c.Enters n.1 ∧ c.read = .skipped) → (∀ gcl', (gcl'.Clean ↔ s.gcl.Clean) →
      ((⟨s.port.acquire.release, gcl'⟩ : Resources).Clean ↔ s.Clean ∧ c.Disciplined before)) := by
    intro hnot gcl' hgcl
    have hd : c.Disciplined before := hdisciplined.2 fun henters hread => absurd ⟨henters, hread⟩ hnot
    exact (and_congr hport hgcl).trans (and_iff_left hd).symm
  by_cases henters : c.Enters n.1
  · rw [c.body_of_enters henters]
    cases hread : c.read with
    | failed =>
      refine ⟨fun hp => ?_, hfine (fun h => by rw [hread] at h; exact nomatch h.2) s.gcl Iff.rfl⟩
      rcases (hpasses.1 hp).2 with hskip | ⟨hrow, -⟩
      · exact nomatch hread.symm.trans hskip
      · exact nomatch hread.symm.trans hrow
    | skipped =>
      refine ⟨hpasses.2 ⟨henters, .inl hread⟩, h.release fun hf => (nomatch hread.symm.trans hf.2), ?_⟩
      have hd : c.Disciplined before ↔ ∀ b ∈ before, ¬b.Frees :=
        hdisciplined.trans ⟨fun h => h henters hread, fun h _ _ => h⟩
      exact (and_congr hport h.clean_release).trans (and_assoc.symm.trans (and_congr_right fun _ => hd.symm))
    | row u =>
      have hnot : ¬(c.Enters n.1 ∧ c.read = .skipped) := fun h => nomatch hread.symm.trans h.2
      dsimp only
      rw [hadds.1]
      by_cases hok : c.store.Ok c.index
      · rw [c.store.run_of_ok hok]
        exact ⟨hpasses.2 ⟨henters, .inr ⟨hread, hok⟩⟩, .acquire_release ⟨hadds, hread⟩,
          hfine hnot _ s.gcl.clean_acquire_release⟩
      · obtain ⟨gcl', hrun, hclean⟩ := c.store.run_of_not_ok hok s.gcl
        rw [hrun]
        refine ⟨fun hp => ?_, hfine hnot gcl' hclean⟩
        rcases (hpasses.1 hp).2 with hskip | ⟨-, hok'⟩
        · exact nomatch hread.symm.trans hskip
        · exact hok hok'
  · rw [c.body_of_not_enters henters]
    exact ⟨fun hp => henters (hpasses.1 hp).1, hfine (fun h => henters h.1) s.gcl Iff.rfl⟩

theorem psfpTurn_ends (h : BufferInv PsfpChange.Frees before s.gcl) : PsfpEnds before s c (psfpTurn s c) := by
  by_cases hfound : c.present = true ∧ c.keyOk = true ∧ c.gateKeyOk = true ∧ c.opens = true
  swap
  · obtain ⟨e, he, hclean⟩ := psfpTurn_of_missing (s := s) hfound
    have hd : c.Disciplined before := fun hp hk hg ho => absurd ⟨hp, hk, hg, ho⟩ hfound
    rw [he]
    exact ⟨fun hp => hfound ⟨hp.1, hp.2.1, hp.2.2.1, hp.2.2.2.1⟩, hclean.trans (and_iff_left hd).symm⟩
  obtain ⟨hpresent, hkey, hgate, hopen⟩ := hfound
  have hport := s.clean_openPort_closePort
  rw [psfpTurn_of_open hpresent hkey hgate hopen]
  cases hcounts : c.counts with
  | none =>
    refine ⟨fun hp => ?_, iff_of_false s.not_clean_openPort fun hd => ?_⟩
    · obtain ⟨n, hn, -⟩ := hp.2.2.2.2
      exact nomatch hcounts.symm.trans hn
    · obtain ⟨n, hn, -⟩ := hd.2 hpresent hkey hgate hopen
      exact nomatch hcounts.symm.trans hn
  | some n =>
    dsimp only
    cases hset : c.setLengthOk with
    | false =>
      have hd : c.Disciplined before := fun _ _ _ _ =>
        ⟨n, hcounts, fun h => absurd (hset.symm.trans h) Bool.false_ne_true⟩
      refine ⟨fun hp => ?_, hport.trans (and_iff_left hd).symm⟩
      obtain ⟨n', -, hyes, -⟩ := hp.2.2.2.2
      exact Bool.false_ne_true (hset.symm.trans hyes)
    | true =>
      rw [Bool.not_true, if_neg Bool.false_ne_true]
      have hdisciplined : c.Disciplined before ↔
          (c.Adds ↔ n.2 ≠ 0) ∧ (c.Adds → c.Enters n.1 → c.read = .skipped → ∀ b ∈ before, ¬b.Frees) := by
        simp only [PsfpChange.Disciplined, hpresent, hkey, hgate, hopen, hcounts, hset, Option.mem_some_iff,
          exists_eq_left', forall_const]
      by_cases hadds : c.op = .created ∧ c.isIndex = true
      · rw [if_pos hadds]
        by_cases hzero : n.2 = 0
        · have hnot : ¬c.Enters n.1 := fun henters => by
            have := henters.2.1
            rw [PsfpChange.counts_zero hcounts hzero] at this
            exact BitVec.not_lt_zero this
          rw [if_pos hzero, c.body_of_not_enters hnot]
          refine ⟨fun hp => ?_, iff_of_false s.not_clean_closePort_twice fun hd =>
            (hdisciplined.1 hd.2).1.1 hadds hzero⟩
          obtain ⟨n', hn', -, hentry⟩ := hp.2.2.2.2
          obtain rfl := Option.some.inj (hcounts.symm.trans hn')
          exact hnot (hentry hadds).1
        · rw [if_neg hzero]
          exact psfpTurn_of_adds h hpresent hkey hgate hopen hcounts hset hadds hzero
      · have hpasses : c.Passes := ⟨hpresent, hkey, hgate, hopen, n, hcounts, hset, fun hyes => absurd hyes hadds⟩
        have hd : c.Disciplined before ↔ n.2 = 0 := by
          rw [hdisciplined]
          refine ⟨fun hd => ?_, fun hzero => ⟨iff_of_false hadds (not_not.2 hzero), fun hyes => absurd hyes hadds⟩⟩
          by_contra hne
          exact hadds (hd.1.2 hne)
        rw [if_neg hadds]
        by_cases hzero : n.2 = 0
        · rw [if_pos hzero]
          exact ⟨hpasses, h.keep fun hf => hadds hf.1, hport.trans (and_iff_left (hd.2 hzero)).symm⟩
        · rw [if_neg hzero]
          exact ⟨hpasses, h.keep fun hf => hadds hf.1,
            iff_of_false s.not_clean_openPort fun hc => hzero (hd.1 hc.2)⟩

end Psfp

/-! ## Other leaves -/

section Elements

variable {s : Resources} {c : ElementChange}

/-- How a turn for another leaf ends. -/
abbrev ElementEnds (s : Resources) (c : ElementChange) : Except Left Resources → Prop :=
  TurnEnds (c.passes = true) c.Disciplined s.Clean (fun s' => s'.port.ptr = none) Resources.Clean fun e => e.2.Clean

/-- Once the port is known to have the feature. -/
theorem ElementChange.set_ends (hkey : c.keyOk = true) (hop : c.op = .modified ∨ c.op = .created)
    (hopen : c.opens = true) (hport : c.portIdOk = true) (hfeat : c.feat = true) :
    ElementEnds s c (c.set s.openPort) := by
  have hclose := s.clean_openPort_closePort
  have hsdu : findObjIndexByName c.leaf schedMap = SCHED_QUEUE_MAX_SDU ↔ c.leaf = "queue-max-sdu" :=
    findObjIndexByName_iff (by decide) rfl (by decide +kernel) _
  have hstates : findObjIndexByName c.leaf schedMap = SCHED_ADMIN_GATE_STATES ↔ c.leaf = "admin-gate-states" :=
    findObjIndexByName_iff (by decide) rfl (by decide +kernel) _
  have hpasses : c.passes = true ↔ (c.leaf ≠ "queue-max-sdu" ∧ c.leaf ≠ "admin-gate-states") ∧
      (!c.secondsOk || !c.fractionalSecondsOk || !c.numeratorOk || !c.denominatorOk || !c.extensionOk) = false ∧
        (!c.setBaseTimeOk || !c.setCycleTimeOk || !c.setExtensionOk) = false := by
    simp only [ElementChange.passes, hkey, hop, hopen, hport, hfeat, Bool.and_eq_true, decide_eq_true_eq,
      Bool.or_eq_false_iff, Bool.not_eq_false']
    tauto
  have hd : c.leaf ≠ "queue-max-sdu" → c.Disciplined := fun h _ _ _ _ => ⟨hfeat, fun hleaf => absurd hleaf h⟩
  rw [ElementChange.set]
  simp only [hsdu, hstates]
  by_cases hleaf : c.leaf = "queue-max-sdu"
  · have hnot : ¬c.passes = true := fun hp => (hpasses.1 hp).1.1 hleaf
    rw [if_pos hleaf]
    cases hclass : c.trafficClassOk with
    | false =>
      refine ⟨hnot, iff_of_false s.not_clean_openPort fun hc => ?_⟩
      exact Bool.false_ne_true (hclass.symm.trans ((hc.2 hkey hop hopen hport).2 hleaf))
    | true =>
      have hd' : c.Disciplined := fun _ _ _ _ => ⟨hfeat, fun _ => hclass⟩
      exact ⟨hnot, hclose.trans (and_iff_left hd').symm⟩
  rw [if_neg hleaf]
  have hkept := hclose.trans (and_iff_left (hd hleaf)).symm
  by_cases hgates : c.leaf = "admin-gate-states"
  · rw [if_pos hgates]
    exact ⟨fun hp => (hpasses.1 hp).1.2 hgates, hkept⟩
  rw [if_neg hgates]
  by_cases hget :
      (!c.secondsOk || !c.fractionalSecondsOk || !c.numeratorOk || !c.denominatorOk || !c.extensionOk) = true
  · rw [if_pos hget]
    exact ⟨fun hp => Bool.false_ne_true ((hpasses.1 hp).2.1.symm.trans hget), hkept⟩
  rw [if_neg hget]
  by_cases hset : (!c.setBaseTimeOk || !c.setCycleTimeOk || !c.setExtensionOk) = true
  · rw [if_pos hset]
    exact ⟨fun hp => Bool.false_ne_true ((hpasses.1 hp).2.2.symm.trans hset), hkept⟩
  rw [if_neg hset]
  exact ⟨hpasses.2 ⟨⟨hleaf, hgates⟩, Bool.eq_false_iff.2 hget, Bool.eq_false_iff.2 hset⟩, rfl, hkept⟩

theorem elementsTurn_ends (s : Resources) (c : ElementChange) : ElementEnds s c (elementsTurn s c) := by
  have hclose := s.clean_openPort_closePort
  have hpasses : c.passes = true → c.keyOk = true ∧ (c.op = .modified ∨ c.op = .created) ∧ c.opens = true ∧
      c.portIdOk = true ∧ c.feat = true := by
    intro h
    simp only [ElementChange.passes, Bool.and_eq_true, decide_eq_true_eq] at h
    tauto
  unfold elementsTurn
  cases hkey : c.keyOk with
  | false =>
    have hd : c.Disciplined := fun h => absurd (hkey.symm.trans h) Bool.false_ne_true
    exact ⟨fun hp => Bool.false_ne_true (hkey.symm.trans (hpasses hp).1), (and_iff_left hd).symm⟩
  | true =>
    rw [Bool.not_true, if_neg Bool.false_ne_true]
    by_cases hop : c.op = .modified ∨ c.op = .created
    · rw [if_pos hop]
      cases hopen : c.opens with
      | false =>
        have hd : c.Disciplined := fun _ _ h => absurd (hopen.symm.trans h) Bool.false_ne_true
        exact ⟨fun hp => Bool.false_ne_true (hopen.symm.trans (hpasses hp).2.2.1), (and_iff_left hd).symm⟩
      | true =>
        rw [Bool.not_true, if_neg Bool.false_ne_true]
        cases hport : c.portIdOk with
        | false =>
          have hd : c.Disciplined := fun _ _ _ h => absurd (hport.symm.trans h) Bool.false_ne_true
          exact ⟨fun hp => Bool.false_ne_true (hport.symm.trans (hpasses hp).2.2.2.1),
            hclose.trans (and_iff_left hd).symm⟩
        | true =>
          cases hfeat : c.feat with
          | false =>
            refine ⟨fun hp => Bool.false_ne_true (hfeat.symm.trans (hpasses hp).2.2.2.2), ?_⟩
            exact iff_of_false s.not_clean_closePort_twice fun hd =>
              Bool.false_ne_true (hfeat.symm.trans (hd.2 hkey hop hopen hport).1)
          | true => exact c.set_ends hkey hop hopen hport hfeat
    · have hd : c.Disciplined := fun _ h => absurd h hop
      rw [if_neg hop, if_pos (num_deleted hop)]
      exact ⟨fun hp => hop (hpasses hp).2.1, (and_iff_left hd).symm⟩

end Elements

theorem configChangeTurn_ends (pair : String → Bool × Bool) (list : ResetList) (before : List Change)
    {s : Resources × ResetList} {c : Change} (hlist : s.2 = handledList pair list before) :
    TurnEnds (ConfigPasses pair list before c) (ConfigDisciplined c) s.1.Clean
      (fun s' => s'.1.port.ptr = none ∧ s'.2 = handledList pair list (before ++ [c])) (fun s' => s'.1.Clean)
      (fun e => e.2.Clean) (configChangeTurn pair s c) := by
  have hclose := s.1.clean_openPort_closePort
  unfold configChangeTurn
  cases hkey : c.keyOk with
  | false =>
    have hd : ConfigDisciplined c := fun h => absurd (hkey.symm.trans h) Bool.false_ne_true
    exact ⟨fun hp => Bool.false_ne_true (hkey.symm.trans hp.1), (and_iff_left hd).symm⟩
  | true =>
    rw [Bool.not_true, if_neg Bool.false_ne_true]
    by_cases hop : c.op = .modified ∨ c.op = .created
    · rw [if_pos hop]
      cases hopen : c.openOk with
      | false =>
        have hd : ConfigDisciplined c := fun _ _ h => absurd (hopen.symm.trans h) Bool.false_ne_true
        exact ⟨fun hp => Bool.false_ne_true (hopen.symm.trans hp.2.2.1), (and_iff_left hd).symm⟩
      | true =>
        rw [Bool.not_true, if_neg Bool.false_ne_true]
        cases hfeat : c.featOk with
        | false =>
          refine ⟨fun hp => Bool.false_ne_true (hfeat.symm.trans hp.2.2.2.1), ?_⟩
          exact iff_of_false s.1.not_clean_closePort_twice fun hd =>
            Bool.false_ne_true (hfeat.symm.trans (hd.2 hkey hop hopen))
        | true =>
          have hd : ConfigDisciplined c := fun _ _ _ => hfeat
          rw [Bool.not_true, if_neg Bool.false_ne_true, hlist]
          dsimp only
          by_cases hret : (handleConfigChange true (pair c.leaf) c (handledList pair list before)).1 = .ok
          · rw [if_pos hret]
            refine ⟨⟨hkey, hop, hopen, hfeat, hret⟩, ⟨rfl, ?_⟩, hclose.trans (and_iff_left hd).symm⟩
            rw [handledList, handledList, List.foldl_append]
            rfl
          · rw [if_neg hret]
            exact ⟨fun hp => hret hp.2.2.2.2, hclose.trans (and_iff_left hd).symm⟩
    · have hd : ConfigDisciplined c := fun _ h => absurd h hop
      rw [if_neg hop, if_pos (num_deleted hop)]
      exact ⟨fun hp => hop hp.2.1, (and_iff_left hd).symm⟩

/-! ## Leaves of entries -/

section Mod

variable {pairs : List LengthPair} {before : List ModChange} {s : ModLocals} {c : ModChange}
  {res : Except (SrError × ModLocals) ModLocals}

def ModLocals.Clean (s : ModLocals) : Prop := s.port.Clean ∧ s.gcl.Clean

/-- What is asked where the lengths are known. -/
theorem ModChange.disciplined_turn_iff {l : Lengths} (hop : c.op = .modified) (hl : c.lengths pairs = some l) :
    c.Disciplined pairs before ↔
      (l.taken = 0 → ∀ b ∈ before, ¬b.Frees pairs) ∧ (l.taken ≠ 0 → c.mallocOk = true → c.rows ≠ none) := by
  obtain ⟨hname, hindex, -⟩ := ModChange.lengths_eq hl
  have hindex' : c.index ≠ none := hindex ▸ Option.some_ne_none _
  simp only [ModChange.Disciplined, hop, hl, Option.mem_some_iff, forall_eq', forall_const, hname, hindex', ne_eq,
    not_false_eq_true, implies_true, true_and]

theorem ModExit.disciplined {s' : ModLocals} (h : ModExit pairs s c (.ok s'))
    (hinv : BufferInv (fun b => b.Frees pairs) before s.gcl) :
    BufferInv (fun b => b.Frees pairs) (before ++ [c]) s'.gcl ∧ (s'.Clean ↔ s.Clean ∧ c.Disciplined pairs before) := by
  cases h with
  | other hname hop =>
    have hd : c.Disciplined pairs before := fun _ h => absurd h hop
    exact ⟨hinv.keep fun hf => hop hf.1, (and_iff_left hd).symm⟩
  | empty hop hl hzero _ hport hgcl =>
    have hd : c.Disciplined pairs before ↔ ∀ b ∈ before, ¬b.Frees pairs := by
      rw [ModChange.disciplined_turn_iff hop hl]
      exact ⟨fun h => h.1 hzero, fun h => ⟨fun _ => h, fun hne => absurd hzero hne⟩⟩
    have hnot : ¬c.Frees pairs := fun ⟨_, l', hl', hne⟩ => hne (Option.some.inj (hl.symm.trans hl') ▸ hzero)
    rw [ModLocals.Clean, hgcl, hd, ModLocals.Clean, hport, hinv.clean_release, and_assoc]
    exact ⟨hinv.release hnot, Iff.rfl⟩
  | outside hop hl hne hrows _ _ _ hport hgcl =>
    have hd : c.Disciplined pairs before :=
      (ModChange.disciplined_turn_iff hop hl).2 ⟨fun h => absurd h hne, fun _ _ => hrows⟩
    rw [ModLocals.Clean, hgcl, ModLocals.Clean, hport, s.gcl.clean_acquire_release, and_iff_left hd]
    exact ⟨.acquire_release ⟨hop, _, hl, hne⟩, Iff.rfl⟩
  | written hop hl hrows _ hindex _ _ _ _ _ _ hport hgcl =>
    have hne := Lengths.taken_ne_zero hindex
    have hd : c.Disciplined pairs before :=
      (ModChange.disciplined_turn_iff hop hl).2 ⟨fun h => absurd h hne, fun _ _ => hrows⟩
    rw [ModLocals.Clean, hgcl, ModLocals.Clean, hport, s.gcl.clean_acquire_release, and_iff_left hd]
    exact ⟨.acquire_release ⟨hop, _, hl, hne⟩, Iff.rfl⟩

theorem ModExit.disciplined_of_error {e : SrError × ModLocals} (h : ModExit pairs s c (.error e)) :
    e.2.Clean ↔ s.Clean ∧ c.Disciplined pairs before := by
  cases h with
  | refused hop hindex hlengths _ hport hgcl =>
    have hd : c.Disciplined pairs before := by
      refine fun hname _ => ⟨hindex hname, fun l hl => ?_⟩
      rcases hlengths with hnone | ⟨l', hl', hne, hmalloc⟩
      · exact absurd (hnone.symm.trans hl) (Option.some_ne_none l).symm
      · obtain rfl := Option.some.inj (hl'.symm.trans hl)
        exact ⟨fun h => absurd h hne, fun _ h => absurd (hmalloc.symm.trans h) Bool.false_ne_true⟩
    rw [ModLocals.Clean, ModLocals.Clean, hport, hgcl, and_iff_left hd]
  | keyless hname hop hopens hindex _ hport =>
    exact iff_of_false (fun hc => hport hc.1) fun hc => (hc.2 hname hop).1 hopens hindex
  | unread hop hl hne hrows hmalloc _ hgcl =>
    refine iff_of_false (fun hc => hgcl hc.2) fun hc => ?_
    exact ((ModChange.disciplined_turn_iff hop hl).1 hc.2).2 hne hmalloc hrows
  | rejected hop hl hrows _ hindex _ _ _ hport hgcl =>
    have hne := Lengths.taken_ne_zero hindex
    have hd : c.Disciplined pairs before :=
      (ModChange.disciplined_turn_iff hop hl).2 ⟨fun h => absurd h hne, fun _ _ => hrows⟩
    rw [ModLocals.Clean, hgcl, ModLocals.Clean, hport, s.gcl.clean_acquire_release, and_iff_left hd]

end Mod

/-! ## The callbacks -/

theorem Resources.clean_start : ({} : Resources).Clean := ⟨Holder.clean_start, Holder.clean_start⟩

/-- What a callback leaves that looks at its changes is what the loop leaves. -/
theorem disciplined_resourcesCallback {γ : Type} {event : SrEvent} {pluginInit iterOk : Bool}
    {turn : Resources → γ → Except Left Resources} {last : Resources → Resources} {changes : List γ} {P : Prop}
    (hrun : EndsIn (fun s => (last s).Clean) (fun e => e.2.Clean) (changes.foldlM turn {}) ↔ P) :
    (∃ s ∈ some (resourcesCallback event pluginInit iterOk turn last changes).2, s.Clean) ↔
      (looks event pluginInit iterOk = true → P) := by
  simp only [Option.mem_some_iff, exists_eq_left']
  unfold resourcesCallback
  by_cases hevent : (decide (event = .done) || !pluginInit) = true
  · rw [if_pos hevent]
    refine iff_of_true Resources.clean_start fun h => ?_
    rw [looks] at h
    cases event <;> cases pluginInit <;> simp at h hevent
  rw [if_neg hevent]
  cases hiter : iterOk with
  | false =>
    refine iff_of_true Resources.clean_start fun h => ?_
    rw [looks, Bool.and_false] at h
    exact absurd h Bool.false_ne_true
  | true =>
    have hlooks : looks event pluginInit true = true := by
      rw [looks]
      cases event <;> cases pluginInit <;> simp at hevent ⊢
    rw [Bool.not_true, if_neg Bool.false_ne_true, forall_prop_of_true hlooks, ← hrun]
    cases changes.foldlM turn {} <;> rfl

/-- Created and deleted entries of interfaces. -/
theorem disciplined_acl (event : SrEvent) (pluginInit iterOk : Bool) (changes : List AclChange) :
    (HandleCall.acl event pluginInit iterOk changes).Disciplined := by
  have hrun : EndsIn (fun s => (id s).Clean) (fun e => e.2.Clean) (changes.foldlM aclTurn {}) :=
    foldlM_keeps aclTurn_clean changes Resources.clean_start
  exact (disciplined_resourcesCallback (iff_of_true hrun trivial)).2 fun _ => trivial

theorem disciplined_psfpAcl_iff (event : SrEvent) (pluginInit iterOk : Bool) (changes : List PsfpChange) :
    (HandleCall.psfpAcl event pluginInit iterOk changes).Disciplined ↔
      (HandleCall.psfpAcl event pluginInit iterOk changes).Sound := by
  have hturn : ∀ before c (s : Resources), BufferInv PsfpChange.Frees before s.gcl →
      PsfpEnds before s c (psfpTurn s c) := fun _ _ _ h => psfpTurn_ends h
  have hrun := foldlM_clean_iff hturn changes (s := {}) BufferInv.start
  exact disciplined_resourcesCallback (hrun.trans (and_iff_right Resources.clean_start))

/-- The loop leaves no port in the variable. -/
theorem elementsTurn_null (s : Resources) (c : ElementChange) :
    EndsIn (fun s' => s'.port.ptr = none) (fun _ => True) (elementsTurn s c) := by
  have hc := elementsTurn_ends s c
  cases hres : elementsTurn s c with
  | ok s' =>
    rw [hres] at hc
    exact hc.2.1
  | error e => trivial

theorem disciplined_elements_iff (event : SrEvent) (pluginInit iterOk : Bool) (changes : List ElementChange) :
    (HandleCall.elements event pluginInit iterOk changes).Disciplined ↔
      (HandleCall.elements event pluginInit iterOk changes).Sound := by
  have hrun := foldlM_clean_iff (fun _ c s (_ : s.port.ptr = none) => elementsTurn_ends s c) changes
    (s := ({} : Resources)) rfl
  have hnull := foldlM_keeps (fun s c _ => elementsTurn_null s c) changes (s := ({} : Resources)) rfl
  refine disciplined_resourcesCallback (Iff.trans ?_ (hrun.trans (and_iff_right Resources.clean_start)))
  cases hres : changes.foldlM elementsTurn {} with
  | error e => exact Iff.rfl
  | ok s =>
    rw [hres] at hnull
    have hclose : s.closePort = s := by rw [Resources.closePort, Holder.release_of_null hnull]
    show s.closePort.Clean ↔ s.Clean
    rw [hclose]

theorem configChangeTurn_null (pair : String → Bool × Bool) (s : Resources × ResetList) (c : Change) :
    EndsIn (fun s' => s'.1.port.ptr = none) (fun _ => True) (configChangeTurn pair s c) := by
  have hc := configChangeTurn_ends pair s.2 [] (s := s) (c := c) rfl
  cases hres : configChangeTurn pair s c with
  | ok s' =>
    rw [hres] at hc
    exact hc.2.1.1
  | error e => trivial

theorem disciplined_configChange_iff (event : SrEvent) (pluginInit iterOk : Bool) (pair : String → Bool × Bool)
    (list : ResetList) (changes : List Change) :
    (HandleCall.configChange event pluginInit iterOk pair list changes).Disciplined ↔
      (HandleCall.configChange event pluginInit iterOk pair list changes).Sound := by
  let Inv : List Change → Resources × ResetList → Prop := fun before s =>
    s.1.port.ptr = none ∧ s.2 = handledList pair list before
  have hturn : ∀ before c s, Inv before s →
      TurnEnds (ConfigPasses pair list before c) (ConfigDisciplined c) s.1.Clean (Inv (before ++ [c]))
        (fun s' => s'.1.Clean) (fun e => e.2.Clean) (configChangeTurn pair s c) :=
    fun before _ _ h => configChangeTurn_ends pair list before h.2
  have hrun := foldlM_clean_iff hturn changes (s := ({}, list)) ⟨rfl, rfl⟩
  have hnull := foldlM_keeps (fun s c _ => configChangeTurn_null pair s c) changes (s := (({} : Resources), list)) rfl
  rw [HandleCall.Disciplined, HandleCall.resources, HandleCall.Sound]
  by_cases hevent : (decide (event = .abort) || decide (event = .done) || !pluginInit || !iterOk) = true
  · rw [if_pos hevent]
    refine iff_of_true ⟨_, rfl, Resources.clean_start⟩ fun habort h => ?_
    rw [looks] at h
    cases event <;> cases pluginInit <;> cases iterOk <;> simp at h hevent habort
  · have hlooks : event ≠ .abort ∧ looks event pluginInit iterOk = true := by
      rw [looks]
      cases event <;> cases pluginInit <;> cases iterOk <;> simp at hevent ⊢
    rw [if_neg hevent, forall_prop_of_true hlooks.1, forall_prop_of_true hlooks.2]
    refine Iff.trans ?_ (hrun.trans (and_iff_right Resources.clean_start))
    cases hres : changes.foldlM (configChangeTurn pair) ({}, list) with
    | error e => simp only [Option.mem_some_iff, exists_eq_left', EndsIn]
    | ok s =>
      rw [hres] at hnull
      have hclose : s.1.closePort = s.1 := by rw [Resources.closePort, Holder.release_of_null hnull]
      simp only [Option.mem_some_iff, exists_eq_left', EndsIn, hclose]

/-- Modified entries of interfaces. -/
theorem disciplined_aclMod_iff (call : ModCall) :
    (HandleCall.aclMod call).Disciplined ↔ (HandleCall.aclMod call).Sound := by
  have hempty : ∀ rc, (call.acts = true → rc ≠ .ok) → ∃ s ∈ (ModEnd.returned rc {}).resources, s.Clean :=
    fun _ _ => ⟨_, rfl, Resources.clean_start⟩
  refine modCb_iff (P := fun e => ∃ s ∈ e.resources, s.Clean) call hempty (fun ⟨_, h, _⟩ => nomatch h) fun r hr => ?_
  let pairs := lengthPairs call.lengthChanges
  let Inv : List ModChange → ModLocals → Prop := fun before s =>
    (r.lengthChanged = false → s.aclLen = 0) ∧ BufferInv (fun b => b.Frees pairs) before s.gcl
  have hturn : ∀ before c s, Inv before s →
      TurnEnds (c.Passes pairs) (c.Disciplined pairs before) s.Clean (Inv (before ++ [c])) ModLocals.Clean
        (fun e => e.2.Clean) (modTurn r s c) := by
    intro before c s hinv
    have hexit := modTurn_exit hr hinv.1 c
    cases hres : modTurn r s c with
    | ok s' =>
      rw [hres] at hexit
      obtain ⟨hbuf, hclean⟩ := hexit.disciplined hinv.2
      exact ⟨hexit.passes.1, ⟨hr.aclLen hexit.passes.2.1 hinv.1, hbuf⟩, hclean⟩
    | error e =>
      rw [hres] at hexit
      exact ⟨hexit.stops.1, hexit.disciplined_of_error⟩
  have hrun := foldlM_clean_iff hturn call.changes (s := {}) ⟨fun _ => rfl, .start⟩
  refine Iff.trans ?_ (hrun.trans (and_iff_right Resources.clean_start))
  cases call.changes.foldlM (modTurn r) {} with
  | ok s => simp only [modEnd, ModEnd.resources, Option.mem_some_iff, exists_eq_left', EndsIn]; rfl
  | error e => simp only [modEnd, ModEnd.resources, Option.mem_some_iff, exists_eq_left', EndsIn]; rfl

/-- **Handles and buffers are given back once, on every way out, just when what
each callback needs is met.** -/
theorem disciplined_iff (call : HandleCall) : call.Disciplined ↔ call.Sound := by
  cases call with
  | acl event pluginInit iterOk changes => exact iff_of_true (disciplined_acl event pluginInit iterOk changes) trivial
  | aclMod call => exact disciplined_aclMod_iff call
  | elements event pluginInit iterOk changes => exact disciplined_elements_iff event pluginInit iterOk changes
  | configChange event pluginInit iterOk pair list changes =>
    exact disciplined_configChange_iff event pluginInit iterOk pair list changes
  | psfpAcl event pluginInit iterOk changes => exact disciplined_psfpAcl_iff event pluginInit iterOk changes

/-- The gate states of a port that has no scheduling. -/
def unsupported : HandleCall :=
  .elements .change true true [{ op := .modified, feat := false, leaf := "admin-gate-states" }]

/-- The handle is closed twice. -/
theorem not_disciplined_unsupported : ¬unsupported.Disciplined := by
  rintro ⟨s, hs, hclean⟩
  obtain rfl := Option.some.inj hs
  exact Bool.false_ne_true hclean.1.2.symm

end TsnSwitch.Sysrepo.Acl
