/-
`st wrcl` and `st rdacl` of tsntool (st.c), the library below them (tsn_st.c,
tsn_private.h) and the attributes of the drivers of port gates (edge_st_fscr.c,
edge_st_fsc.c).

A file with a control list is written to the driver and read back into a file, page by
page, while other tasks reconfigure the port. What comes back is the list with the gates of
the port (`wrcl_rdacl`). A list of more than a page is read out of bounds from the shared
scheduler.

The text of the lengths, allocations that fail and the opening of files are not modelled.
-/
import TsnSwitch.Gcf.Capacity
import TsnSwitch.Lib.Transfer
import TsnSwitch.Psfp.GateLists
import TsnSwitch.Sched.AdminList

namespace TsnSwitch.Tsntool

open Lib Sched Gcf

def EMSGSIZE : Int := 90

/-! ## Attributes -/

/-- `sizeof(struct edgx_sched_tab_entry)`, and of `struct st_gate_control_entry`, which has
the same fields in the same places. -/
def entrySize : Nat := 8

def toEntry (e : StGateControlEntry) : TabEntry := ⟨e.interval, e.op, e.gsv⟩

def ofEntry (e : TabEntry) : StGateControlEntry := ⟨e.timeInterval, e.operationName, e.gateStates⟩

/-- `admin_ctrl_list_write` of both drivers. -/
def adminCtrlListWrite (d : Driver) (com : Com) (s : EdgxSched) (ofs : Nat) (buf : List TabEntry) : Int × EdgxSched :=
  match Psfp.edgxSysfsListParams ofs (buf.length * entrySize) entrySize with
  | none => (-EINVAL, s)
  | some (idx, _) =>
    let (ret, s) := edgxSchedSetEntries d.user.variant com s idx buf true
    (if ret ≠ 0 then ret else (buf.length * entrySize : Nat), s)

/-- `admin_ctrl_list_read` of both drivers. -/
def adminCtrlListRead (d : Driver) (s : EdgxSched) (ofs : Nat) (buf : List TabEntry) : Option (Int × List TabEntry) :=
  match Psfp.edgxSysfsListParams ofs (buf.length * entrySize) entrySize with
  | none => some (-EINVAL, buf)
  | some (idx, _) => do
    let (ret, buf) ← d.readAdmin s.adminTab idx buf
    some (if ret ≠ 0 then ret else (buf.length * entrySize : Nat), buf)

/-! ## The port -/

/-- A port with its driver, and what other tasks do with it before each access. -/
structure Port where
  sched : EdgxSched
  others : List (List Op) := []

section

variable (d : Driver) (com : Com)

def Port.tick (p : Port) : Port :=
  match p.others with
  | [] => p
  | ops :: others => ⟨after (step d.user.variant com) p.sched ops, others⟩

/-- `write` of at most a page on the list. The attribute sees no call of 0 bytes. -/
def Port.write (p : Port) (ofs : Nat) (buf : List TabEntry) : Int × Port :=
  if buf = [] then (0, p)
  else
    let p := p.tick d com
    let (ret, sched) := adminCtrlListWrite d com p.sched ofs buf
    (ret, { p with sched })

/-- `read` of at most a page on the list. -/
def Port.read (p : Port) (ofs : Nat) (buf : List TabEntry) : Option ((Int × List TabEntry) × Port) :=
  if buf = [] then some ((0, buf), p)
  else
    let p := p.tick d com
    (adminCtrlListRead d p.sched ofs buf).map (·, p)

/-! ## The library -/

def ADMIN_CONTROL_LIST_LENGTH : BitVec 32 := 5
def ADMIN_CONTROL_LIST : BitVec 32 := 7

def E_TSN_LIB_FPRINT : BitVec 32 := 10 <<< 8
def E_TSN_LIB_FRDLIST : BitVec 32 := 11 <<< 8
def E_TSN_LIB_FWRLIST : BitVec 32 := 13 <<< 8
def E_TSN_LIB_ST_OP_ERANGE : BitVec 32 := 25 <<< 8

def TSN_ST : BitVec 32 := 8

/-- `RETURN_HEADER|err` with the header of a file. -/
def returnCode (id err : BitVec 32) (errno : Int) : BitVec 32 :=
  TSN_ST <<< 24 ||| id <<< 16 ||| err ||| BitVec.ofInt 32 errno

/-- What the two macros make of a call for so many bytes: an error number. -/
def callError (cnt : Int) (bytes : Nat) : Option Int :=
  if cnt < 0 then some (-cnt) else if cnt ≠ bytes then some EMSGSIZE else none

/-- A call of `ASSERT_FWRLIST`. -/
def writeCall : WriteCall Port TabEntry Int := fun pos buf p =>
  let (cnt, p) := p.write d com (pos * entrySize) buf
  (callError cnt (buf.length * entrySize), p)

/-- A call of `ASSERT_FRDLIST`. -/
def readCall : ReadCall Port TabEntry Int := fun pos buf p => do
  let ((cnt, buf), p) ← p.read d com (pos * entrySize) buf
  some ((callError cnt (buf.length * entrySize), buf), p)

variable (page : Nat)

/-- `ASSERT_FWRLIST`. -/
def assertFwrlist (p : Port) (buf : List TabEntry) : Option Int × Port :=
  writeAll (writeCall d com) (page / entrySize) buf.length 0 buf p

/-- `ASSERT_FRDLIST`. -/
def assertFrdlist (p : Port) (buf : List TabEntry) : Option ((Option Int × List TabEntry) × Port) :=
  readAll (readCall d com) (page / entrySize) buf.length 0 buf p

def tsnStSetAdminControlListLength (p : Port) (aclLength : Nat) : BitVec 32 × Port :=
  let p := p.tick d com
  let (ret, sched) := edgxSchedSetCtrlListLen com p.sched aclLength
  (if ret ≠ 0 then returnCode ADMIN_CONTROL_LIST_LENGTH E_TSN_LIB_FPRINT (-ret) else 0, { p with sched })

def tsnStSetAdminControlList (p : Port) (entries : List StGateControlEntry) : BitVec 32 × Port :=
  if ∃ e ∈ entries, e.op ≠ TSN_ST_OP_SET_GATE_STATES ∧ e.op ≠ TSN_ST_OP_SET_AND_HOLD_MAC ∧
      e.op ≠ TSN_ST_OP_SET_AND_RELEASE_MAC then (E_TSN_LIB_ST_OP_ERANGE, p)
  else
    let (err, p) := assertFwrlist d com page p (entries.map toEntry)
    (match err with
      | some errno => returnCode ADMIN_CONTROL_LIST E_TSN_LIB_FWRLIST errno
      | none => 0, p)

/-- Into memory that holds `buf`. -/
def tsnStGetAdminControlList (p : Port) (buf : List TabEntry) :
    Option ((BitVec 32 × List StGateControlEntry) × Port) := do
  let ((err, buf), p) ← assertFrdlist d com page p buf
  some ((match err with
    | some errno => returnCode ADMIN_CONTROL_LIST E_TSN_LIB_FRDLIST errno
    | none => 0, buf.map ofEntry), p)

/-! ## The commands -/

/-- `do_st_wrcl` with a file. It has no result when the file is read into memory behind its
array. -/
def doStWrcl (p : Port) (file : List Char) : Option (BitVec 32 × Port) :=
  let suppListMax := BitVec.ofNat 32 com.maxEntryCnt
  if suppListMax = 0 then some (BitVec.ofInt 32 EINVAL, p)
  else
    match stReadGcf file suppListMax with
    | .outside => none
    | .null => some (BitVec.ofInt 32 EPERM, p)
    | .gcl gcl =>
      let (ret, p) := tsnStSetAdminControlListLength d com p gcl.length
      if ret ≠ 0 then some (ret, p) else some (tsnStSetAdminControlList d com page p gcl)

/-- `do_st_rd_admin_gcl`, and the file it writes. `mem` is what fresh memory holds. -/
def doStRdAdminGcl (p : Port) (mem : Nat → TabEntry) : Option ((BitVec 32 × Option (List Char)) × Port) :=
  let p := p.tick d com
  let gclLen := p.sched.adminTab.listLen
  if gclLen = 0 then some ((0, none), p)
  else do
    let gclLen := min gclLen com.maxEntryCnt
    let ((ret, gcl), p) ← tsnStGetAdminControlList d com page p ((List.range gclLen).map mem)
    some ((ret, if ret = 0 then some (stWriteGcf gcl) else none), p)

end

/-! ## Files -/

theorem known_of_op {tok : List Char} {op : BitVec 8} (h : stFormat.op tok = some op) : StKnown op := by
  simp only [stFormat] at h
  split at h
  · exact .inl (Option.some.inj h).symm
  split at h
  · exact .inr (.inl (Option.some.inj h).symm)
  split at h
  · exact .inr (.inr (Option.some.inj h).symm)
  · cases h

/-- What is read from a file fits, and its operations are known. -/
theorem stReadGcf_gcl {file : List Char} {maxLen : BitVec 32} {es : List StGateControlEntry}
    (h : stReadGcf file maxLen = .gcl es) : es.length ≤ maxLen.toNat ∧ ∀ e ∈ es, StKnown e.op := by
  have hread : takeRecords stFormat (room file maxLen) (records file) [] = .gcl es := (readLoop_eq stMeaning ..).symm.trans h
  obtain ⟨new, rfl, hnew, hlen⟩ := (takeRecords_gcl_iff (Nat.zero_le _)).1 hread
  rw [List.length_nil, Nat.zero_add] at hlen
  refine ⟨hlen.trans (room_le file maxLen), ?_⟩
  clear hread hlen h
  generalize records file = ls at hnew
  induction hnew with
  | nil => exact fun _ he => nomatch he
  | cons hline _ ih =>
    refine List.forall_mem_cons.2 ⟨?_, ih⟩
    obtain ⟨tok, t, op, _, hop, hentry⟩ := parseRecord_stored_iff.1 hline
    obtain ⟨_, _, _, _, _, _, rfl⟩ := st_entry_iff.1 hentry
    exact known_of_op hop

/-! ## Writing -/

/-- Another task's call that writes the list or its length. -/
def writesList : Op → Bool
  | .setEntries .. | .setCtrlListLen _ => true
  | _ => false

/-- The list of the admin table, and its length. -/
def listOf (s : EdgxSched) : Option (List TabEntry) × Nat × Nat :=
  (s.adminTab.entries, s.adminTab.entryCnt, s.adminTab.listLen)

section

variable {d : Driver} {com : Com}

theorem listOf_step {s : EdgxSched} {op : Op} (h : writesList op = false) :
    listOf (step d.user.variant com s op).2 = listOf s := by
  cases hadmin : op.isAdmin with
  | false => rw [listOf, step_adminTab d.user.lawful com s hadmin]; rfl
  | true =>
    cases op with
    | setEntries first entries allocOk => cases h
    | setCtrlListLen listLen => cases h
    | setCycleTime ct =>
      simp only [step, edgxSchedSetCycleTime]
      split
      · rfl
      · split <;> rfl
    | setBaseTime baseTime => rfl
    | setAdminGateStates gateStates mask => rfl
    | setConfigChange b env => cases hadmin
    | setGateEnabled b env => cases hadmin
    | pendingDelayed env => cases hadmin
    | cctHandler env => cases hadmin
    | hwEvents evs => cases hadmin

/-- The other tasks leave the list alone. -/
def Port.Alone (p : Port) : Prop := ∀ ops ∈ p.others, ∀ op ∈ ops, writesList op = false

instance (p : Port) : Decidable p.Alone :=
  inferInstanceAs (Decidable (∀ ops ∈ p.others, ∀ op ∈ ops, writesList op = false))

theorem listOf_after {ops : List Op} (h : ∀ op ∈ ops, writesList op = false) (s : EdgxSched) :
    listOf (after (step d.user.variant com) s ops) = listOf s := by
  induction ops generalizing s with
  | nil => rfl
  | cons op ops ih =>
    rw [after_cons, ih fun op' h' => h op' (List.mem_cons_of_mem _ h')]
    exact listOf_step (h op List.mem_cons_self)

theorem Port.Alone.tick {p : Port} (h : p.Alone) :
    (p.tick d com).Alone ∧ listOf (p.tick d com).sched = listOf p.sched := by
  unfold Port.tick
  cases hothers : p.others with
  | nil => exact ⟨h, rfl⟩
  | cons ops others =>
    rw [Port.Alone, hothers] at h
    exact ⟨fun ops' h' => h ops' (List.mem_cons_of_mem _ h'), listOf_after (h ops List.mem_cons_self) _⟩

/-! ## One call -/

theorem valid_masked {e : TabEntry} : Valid d.user com (Fsc.masked com e) ↔ Valid d.user com e := by
  cases d with
  | fscr | fsc => exact Iff.rfl

theorem masked_masked (e : TabEntry) : Fsc.masked com (Fsc.masked com e) = Fsc.masked com e := by
  simp only [Fsc.masked, BitVec.and_assoc, BitVec.and_self]

/-- The answer of a check that `P` passes. -/
def Answers (ret : Int) (P : Prop) : Prop := P ∧ ret = 0 ∨ ¬P ∧ ret = -EINVAL

theorem Answers.congr {ret : Int} {P Q : Prop} (h : Answers ret P) (hiff : P ↔ Q) : Answers ret Q := by
  rwa [Answers, ← hiff]

theorem adjust_shared_answers (es : List TabEntry) :
    Answers (edgxSchedAdjustAdminTab com es) (∀ e ∈ es, Valid .portGates com e) := by
  induction es with
  | nil => exact .inl ⟨List.forall_mem_nil _, rfl⟩
  | cons e es ih =>
    have hvalid : Valid .portGates com e ↔ e.timeInterval.toNat % com.hwGranularityNs = 0 ∧
        ¬e.timeInterval.toNat / com.hwGranularityNs > EDGX_SCHED_INTERVAL_MAX :=
      and_congr Nat.dvd_iff_mod_eq_zero Nat.not_lt.symm
    rw [edgxSchedAdjustAdminTab, List.forall_mem_cons, hvalid]
    split
    · rename_i hmod
      exact .inr ⟨fun h => hmod h.1.1, rfl⟩
    · rename_i hmod
      split
      · rename_i hmax
        exact .inr ⟨fun h => h.1.2 hmax, rfl⟩
      · rename_i hmax
        exact ih.congr (and_iff_right ⟨not_not.1 hmod, hmax⟩).symm

theorem adjust_fsc_answers (es : List TabEntry) :
    Answers (Fsc.edgxSchedAdjustAdminTab com es).1 (∀ e ∈ es, Valid .fsc com e) := by
  induction es with
  | nil => exact .inl ⟨List.forall_mem_nil _, rfl⟩
  | cons e es ih =>
    have hvalid : Valid .fsc com e ↔ ¬(e.timeInterval.toNat / com.hwGranularityNs < Fsc.EDGX_SCHED_INTERVAL_MIN ∨
        e.timeInterval.toNat / com.hwGranularityNs > EDGX_SCHED_INTERVAL_MAX) := by
      rw [not_or, Nat.not_lt, Nat.not_lt]
      exact Iff.rfl
    rw [Fsc.edgxSchedAdjustAdminTab, List.forall_mem_cons, hvalid]
    dsimp only
    split
    · rename_i hbad
      exact .inr ⟨fun h => h.1 hbad, rfl⟩
    · rename_i hgood
      exact ih.congr (and_iff_right hgood).symm

/-- Entries behind stored ones, as the admin list file hands them on. -/
theorem adjust_answers {done : List TabEntry} (hdone : ∀ e ∈ done, Valid d.user com e) (c : List TabEntry) :
    let r := d.user.variant.adjustAdminTab com (done.map (Fsc.masked com) ++ c.map (d.user.variant.importEntry com))
    Answers r.1 (∀ e ∈ c, Valid d.user com e) ∧
      ((∀ e ∈ c, Valid d.user com e) → r.2 = (done ++ c).map (Fsc.masked com)) := by
  have hmasked {es : List TabEntry} : (∀ e ∈ es.map (Fsc.masked com), Valid d.user com e) ↔ ∀ e ∈ es, Valid d.user com e := by
    rw [List.forall_mem_map]
    exact forall₂_congr fun e _ => valid_masked
  cases d with
  | fscr =>
    refine ⟨(adjust_shared_answers _).congr ?_, fun _ => List.map_append.symm⟩
    rw [List.forall_mem_append]
    exact (and_iff_right (hmasked.2 hdone)).trans hmasked
  | fsc =>
    have himport : c.map (Driver.fsc.user.variant.importEntry com) = c := List.map_id c
    rw [himport]
    have hiff : (∀ e ∈ done.map (Fsc.masked com) ++ c, Valid .fsc com e) ↔ ∀ e ∈ c, Valid .fsc com e := by
      rw [List.forall_mem_append]
      exact and_iff_right (hmasked.2 hdone)
    refine ⟨(adjust_fsc_answers _).congr hiff, fun hc => ?_⟩
    have hadj := congrArg Prod.snd (adjust_fsc (hiff.2 hc))
    refine hadj.trans ?_
    rw [List.map_append, List.map_append, List.map_map]
    exact congrArg (· ++ _) (List.map_congr_left fun e _ => masked_masked e)

/-- **A write behind what is there** succeeds just when its entries are valid, and then they
are there with the gates of the port. -/
theorem setEntries_append {s : EdgxSched} {done c : List TabEntry}
    (hs : done = [] ∨ s.adminTab.entries = some (done.map (Fsc.masked com)) ∧ s.adminTab.entryCnt = done.length)
    (hvalid : ∀ e ∈ done, Valid d.user com e) (hmax : done.length + c.length ≤ com.maxEntryCnt) :
    let r := edgxSchedSetEntries d.user.variant com s done.length c true
    Answers r.1 (∀ e ∈ c, Valid d.user com e) ∧
      ((∀ e ∈ c, Valid d.user com e) →
        listOf r.2 = (some ((done ++ c).map (Fsc.masked com)), (done ++ c).length, s.adminTab.listLen)) := by
  have hplaced : Placed com s done.length c := by
    refine ⟨hmax, hs.imp (fun h => ?_) fun h => h.2.symm⟩
    rw [h]
    rfl
  have hkept : s.adminTab.kept done.length = done.map (Fsc.masked com) := by
    unfold SchedTable.kept
    rcases hs with rfl | hs
    · rfl
    · split
      · rename_i h0
        rw [List.length_eq_zero_iff.1 h0]
        rfl
      · rw [hs.1]
        rfl
  obtain ⟨hans, hstored⟩ := adjust_answers hvalid c
  rw [← hkept] at hans hstored
  rcases setEntries_cases d.user.variant com s done.length c true with ⟨hnot, _⟩ | ⟨_, hno, _⟩ | ⟨_, _, hret, e, hres⟩
  · exact absurd hplaced hnot
  · exact nomatch hno
  · dsimp only
    rw [hret, hres]
    refine ⟨hans, fun hc => ?_⟩
    rw [listOf, ← hstored hc, List.length_append]
    rfl

/-! ## The list of a file -/

theorem listParams_entries (i n : Nat) : Psfp.edgxSysfsListParams (i * entrySize) (n * entrySize) entrySize = some (i, n) := by
  simp [Psfp.edgxSysfsListParams, entrySize]

theorem callError_count (n : Nat) : callError (n : Nat) n = none := by
  rw [callError, if_neg (by omega), if_neg (not_not.2 rfl)]

/-- The first entries of a list of length `len` are written. -/
structure Written (d : Driver) (com : Com) (len : Nat) (done : List TabEntry) (p : Port) : Prop where
  alone : p.Alone
  listLen : p.sched.adminTab.listLen = len
  valid : ∀ e ∈ done, Valid d.user com e
  stored : done = [] ∨ p.sched.adminTab.entries = some (done.map (Fsc.masked com)) ∧ p.sched.adminTab.entryCnt = done.length

theorem Written.tick {len : Nat} {done : List TabEntry} {p : Port} (h : Written d com len done p) :
    Written d com len done (p.tick d com) := by
  obtain ⟨halone, hlist⟩ : (p.tick d com).Alone ∧ listOf (p.tick d com).sched = listOf p.sched := h.alone.tick
  simp only [listOf, Prod.mk.injEq] at hlist
  obtain ⟨hentries, hcnt, hlen⟩ := hlist
  exact ⟨halone, hlen.trans h.listLen, h.valid, h.stored.imp_right fun hs => ⟨hentries.trans hs.1, hcnt.trans hs.2⟩⟩

/-- A call of `ASSERT_FWRLIST` that continues the list. -/
theorem writeCall_answers {len : Nat} {done c : List TabEntry} {p : Port} (h : Written d com len done p)
    (hmax : done.length + c.length ≤ com.maxEntryCnt) :
    let r := writeCall d com done.length c p
    (r.1 = none ↔ ∀ e ∈ c, Valid d.user com e) ∧ (r.1 = none → Written d com len (done ++ c) r.2) := by
  unfold writeCall Port.write
  by_cases hc : c = []
  · subst hc
    rw [if_pos rfl, List.append_nil]
    exact ⟨iff_of_true rfl (List.forall_mem_nil _), fun _ => h⟩
  · rw [if_neg hc]
    have ht := h.tick
    obtain ⟨hans, hstored⟩ := setEntries_append (c := c) ht.stored ht.valid hmax
    simp only [adminCtrlListWrite, listParams_entries]
    generalize edgxSchedSetEntries d.user.variant com (p.tick d com).sched done.length c true = r at hans hstored ⊢
    obtain ⟨ret, s'⟩ := r
    obtain ⟨hgood, h0⟩ | ⟨hbad, hret⟩ := hans
    · dsimp only at h0
      subst h0
      have hnone : callError ((c.length * entrySize : Nat) : Int) (c.length * entrySize) = none := callError_count _
      refine ⟨iff_of_true hnone hgood, fun _ => ?_⟩
      have hlist := hstored hgood
      simp only [listOf, Prod.mk.injEq] at hlist
      obtain ⟨hentries, hcnt, hlen⟩ := hlist
      refine ⟨ht.alone, hlen.trans ht.listLen, List.forall_mem_append.2 ⟨ht.valid, hgood⟩, .inr ⟨hentries, hcnt⟩⟩
    · dsimp only at hret
      subst hret
      have herr : callError (-EINVAL) (c.length * entrySize) = some EINVAL := rfl
      have hne : ¬callError (-EINVAL) (c.length * entrySize) = none := by rw [herr]; exact fun hn => nomatch hn
      exact ⟨iff_of_false hne hbad, fun hnone => absurd hnone hne⟩

/-- A library call that fails says so. -/
theorem returnCode_ne (id err : BitVec 32) (errno : Int) : returnCode id err errno ≠ 0 := by
  intro h
  have hbit := congrArg (·.getLsbD 27) h
  simp [returnCode, TSN_ST] at hbit

variable {page : Nat} {file : List Char} {es : List StGateControlEntry}

/-- The library call that writes a list. -/
theorem setAdminControlList_iff {len : Nat} {p : Port} (h : Written d com len [] p) (hknown : ∀ e ∈ es, StKnown e.op)
    (hmax : es.length ≤ com.maxEntryCnt) :
    let r := tsnStSetAdminControlList d com page p es
    (r.1 = 0 ↔ ∀ e ∈ es, Valid d.user com (toEntry e)) ∧ (r.1 = 0 → Written d com len (es.map toEntry) r.2) := by
  have hops : ¬∃ e ∈ es, e.op ≠ TSN_ST_OP_SET_GATE_STATES ∧ e.op ≠ TSN_ST_OP_SET_AND_HOLD_MAC ∧
      e.op ≠ TSN_ST_OP_SET_AND_RELEASE_MAC := fun ⟨e, he, hno⟩ =>
    (hknown e he).elim hno.1 fun h => h.elim hno.2.1 hno.2.2
  have hroom : ([] : List TabEntry).length + (es.map toEntry).length ≤ com.maxEntryCnt := by
    rwa [List.length_map, List.length_nil, Nat.zero_add]
  have hall := writeAll_iff (page / entrySize) (I := Written d com len) (fun done c s => writeCall_answers)
    (es.map toEntry).length h hroom
  rw [List.forall_mem_map] at hall
  rw [tsnStSetAdminControlList, if_neg hops, assertFwrlist]
  dsimp only at hall ⊢
  rw [List.length_nil, List.nil_append] at hall
  generalize writeAll (writeCall d com) (page / entrySize) _ 0 (es.map toEntry) p = r at hall ⊢
  obtain ⟨err, p'⟩ := r
  cases err with
  | none => exact ⟨iff_of_true rfl (hall.1.1 rfl), fun _ => hall.2 rfl⟩
  | some errno =>
    have hne := returnCode_ne ADMIN_CONTROL_LIST E_TSN_LIB_FWRLIST errno
    exact ⟨iff_of_false hne fun hvalid => (nomatch hall.1.2 hvalid), fun h0 => absurd h0 hne⟩

variable (page) in
/-- **Writing a file.** The command succeeds just when the intervals are ones of the driver,
and then the list is in the admin table with the gates of the port. -/
theorem wrcl_iff {p : Port} (h : p.Alone) (hread : stReadGcf file (BitVec.ofNat 32 com.maxEntryCnt) = .gcl es)
    (hne : es ≠ []) :
    ∃ r, doStWrcl d com page p file = some r ∧ (r.1 = 0 ↔ ∀ e ∈ es, Valid d.user com (toEntry e)) ∧
      (r.1 = 0 → Written d com es.length (es.map toEntry) r.2) := by
  obtain ⟨hfits, hknown⟩ := stReadGcf_gcl hread
  have hmax : (BitVec.ofNat 32 com.maxEntryCnt).toNat = com.maxEntryCnt :=
    (BitVec.toNat_ofNat ..).trans (Nat.mod_eq_of_lt (com.max_lt.trans (by decide)))
  rw [hmax] at hfits
  have hsupp : BitVec.ofNat 32 com.maxEntryCnt ≠ 0 := fun h0 => by
    have hzero : com.maxEntryCnt = 0 := hmax.symm.trans (congrArg BitVec.toNat h0)
    rw [hzero] at hfits
    exact hne (List.length_eq_zero_iff.1 (Nat.le_zero.1 hfits))
  have hset : edgxSchedSetCtrlListLen com (p.tick d com).sched es.length =
      (0, { (p.tick d com).sched with adminTab := { (p.tick d com).sched.adminTab with listLen := es.length } }) :=
    if_neg (Nat.not_lt.2 hfits)
  have hstart : Written d com es.length []
      { p.tick d com with sched := (edgxSchedSetCtrlListLen com (p.tick d com).sched es.length).2 } := by
    rw [hset]
    exact ⟨h.tick.1, rfl, List.forall_mem_nil _, .inl rfl⟩
  refine ⟨tsnStSetAdminControlList d com page _ es, ?_, setAdminControlList_iff hstart hknown hfits⟩
  rw [doStWrcl, if_neg hsupp, hread]
  dsimp only
  rw [tsnStSetAdminControlListLength, hset]
  rfl

/-! ## Reading -/

/-- Entry `i` of the list that was written as `es`. -/
def entryOf (com : Com) (es : List TabEntry) (i : Nat) : TabEntry := ((es.map (Fsc.masked com))[i]?).getD edgxSchedUndefEntry

variable {tab : List TabEntry} {p : Port}

/-- The array of a list that was written. -/
theorem Written.sized (h : Written d com tab.length tab p) (hne : tab ≠ []) (hmax : tab.length ≤ com.maxEntryCnt) :
    p.sched.adminTab.Sized com ∧ p.sched.adminTab.entryCnt ≠ 0 ∧ p.sched.adminTab.adminEntry = entryOf com tab := by
  obtain ⟨hentries, hcnt⟩ := h.stored.resolve_left hne
  refine ⟨⟨?_, hcnt.trans_le hmax⟩, ?_, funext fun i => ?_⟩
  · rw [hentries, hcnt]
    exact List.length_map _
  · rw [hcnt]
    exact fun h0 => hne (List.length_eq_zero_iff.1 h0)
  · rw [SchedTable.adminEntry, SchedTable.entry?, hentries, hcnt, entryOf, Option.getD_some]
    split
    · rfl
    · rename_i hi
      rw [List.getElem?_eq_none (by rw [List.length_map]; omega)]

/-- A call of `ASSERT_FRDLIST` reads its window: of the shared scheduler, if it is the first. -/
theorem readCall_window (h : Written d com tab.length tab p) (hne : tab ≠ []) (hmax : tab.length ≤ com.maxEntryCnt)
    {pos : Nat} {buf : List TabEntry} (hpos : d = .fscr → pos = 0) (hbuf : buf.length ≤ tab.length) :
    ∃ p', Written d com tab.length tab p' ∧
      readCall d com pos buf p = some ((none, window (entryOf com tab) pos buf.length), p') := by
  unfold readCall Port.read
  by_cases hnil : buf = []
  · subst hnil
    exact ⟨p, h, rfl⟩
  · have ht := h.tick
    obtain ⟨hsized, hcnt, hentry⟩ := ht.sized hne hmax
    have hlen := com.max_lt
    have hread : d.readAdmin (p.tick d com).sched.adminTab pos buf =
        some (d.okCode buf.length, window (entryOf com tab) pos buf.length) := by
      rw [← hentry]
      cases d with
      | fscr => exact (getEntries_iff hsized pos buf).2 ⟨hcnt, hpos rfl⟩
      | fsc => exact (Fsc.adminCtrlListRead_iff hsized pos (by rw [Fsc.entrySize]; omega)).2 hcnt
    have hcode : (if d.okCode buf.length ≠ 0 then d.okCode buf.length else ((buf.length * entrySize : Nat) : Int)) =
        (buf.length * entrySize : Nat) := by
      cases d with
      | fscr => rfl
      | fsc => exact ite_id _
    have hnone : callError ((buf.length * entrySize : Nat) : Int) (buf.length * entrySize) = none := callError_count _
    refine ⟨p.tick d com, ht, ?_⟩
    simp only [if_neg hnil, adminCtrlListRead, listParams_entries, hread, Option.bind_eq_bind, Option.bind_some,
      Option.map_some, hcode, window_length, hnone]

/-- Behind the first page the shared scheduler reads out of bounds. -/
theorem readCall_none (h : Written .fscr com tab.length tab p) (hne : tab ≠ []) (hmax : tab.length ≤ com.maxEntryCnt)
    {pos : Nat} {buf : List TabEntry} (hpos : pos ≠ 0) (hbuf : buf ≠ []) : readCall .fscr com pos buf p = none := by
  obtain ⟨hsized, hcnt, _⟩ := h.tick.sized hne hmax
  have hread : Driver.fscr.readAdmin (p.tick .fscr com).sched.adminTab pos buf = none :=
    getEntries_none hsized buf hcnt hpos
  simp only [readCall, Port.read, if_neg hbuf, adminCtrlListRead, listParams_entries, hread, Option.bind_eq_bind,
    Option.bind_none, Option.map_none]

/-- An entry with the gates of the port. -/
def ported (com : Com) (e : StGateControlEntry) : StGateControlEntry := { e with gsv := e.gsv &&& com.gateMask }

theorem window_entryOf (es : List StGateControlEntry) :
    (window (entryOf com (es.map toEntry)) 0 es.length).map ofEntry = es.map (ported com) := by
  have hself := self_window edgxSchedUndefEntry 0 ((es.map toEntry).map (Fsc.masked com))
  rw [List.length_map, List.length_map] at hself
  have hlist : window (entryOf com (es.map toEntry)) 0 es.length = (es.map toEntry).map (Fsc.masked com) := hself.symm
  rw [hlist, List.map_map, List.map_map]
  rfl

/-- A list that was written is read whole, in calls of a page each, or out of bounds. -/
theorem assertFrdlist_eq (h : Written d com tab.length tab p) (hne : tab ≠ []) (hmax : tab.length ≤ com.maxEntryCnt)
    (hpage : entrySize ≤ page) {buf : List TabEntry} (hbuf : buf.length = tab.length) :
    if d = .fsc ∨ tab.length ≤ page / entrySize then
      ∃ p', assertFrdlist d com page p buf = some ((none, window (entryOf com tab) 0 buf.length), p')
    else assertFrdlist d com page p buf = none := by
  unfold assertFrdlist
  cases d with
  | fsc =>
    rw [if_pos (.inl rfl)]
    obtain ⟨p', _, hread⟩ : ∃ p', _ ∧ readAll (readCall .fsc com) (page / entrySize) buf.length 0 buf p = _ :=
      readAll_window (I := Written .fsc com tab.length tab)
        (fun pos buf p h _ hle => readCall_window h hne hmax (fun hd => nomatch hd) (Nat.le_of_add_left_le hle)) buf.length h
        (Nat.zero_le 0) ((Nat.zero_add _).trans hbuf).le
    exact ⟨p', hread⟩
  | fscr =>
    by_cases hle : tab.length ≤ page / entrySize
    · rw [if_pos (.inr hle), readAll_of_le _ _ _ (hbuf.trans_le hle)]
      obtain ⟨p', _, hread⟩ := readCall_window h hne hmax (fun _ => rfl) hbuf.le
      exact ⟨p', hread⟩
    · rw [if_neg fun hor => hor.elim (fun hd => nomatch hd) hle]
      have hpos : 0 < page / entrySize := Nat.div_pos hpage (by decide)
      obtain ⟨turns, hturns⟩ := Nat.exists_eq_succ_of_ne_zero (show buf.length ≠ 0 by omega)
      rw [hturns]
      refine readAll_none (I := Written .fscr com tab.length tab) hpos (by omega) (fun r hr => ?_) fun buf p h hnil =>
        readCall_none h hne hmax (by omega) hnil
      have hfirst : (buf.take (page / entrySize)).length ≤ tab.length := by
        rw [List.length_take]
        omega
      obtain ⟨p', h', hread⟩ : ∃ p', _ ∧ readCall .fscr com 0 (buf.take (page / entrySize)) p = _ :=
        readCall_window h hne hmax (fun _ => rfl) hfirst
      obtain rfl := Option.some.inj (hread.symm.trans hr)
      exact ⟨rfl, h'⟩

/-- **Reading into a file.** The list that was written comes out, and a list of more than a
page is read out of bounds from the shared scheduler. -/
theorem rdacl_eq {es : List StGateControlEntry} (h : Written d com es.length (es.map toEntry) p) (hne : es ≠ [])
    (hmax : es.length ≤ com.maxEntryCnt) (hpage : entrySize ≤ page) (mem : Nat → TabEntry) :
    if d = .fsc ∨ es.length ≤ page / entrySize then
      ∃ p', doStRdAdminGcl d com page p mem = some ((0, some (stWriteGcf (es.map (ported com)))), p')
    else doStRdAdminGcl d com page p mem = none := by
  have hlen : (es.map toEntry).length = es.length := List.length_map _
  have hzero : es.length ≠ 0 := fun h0 => hne (List.length_eq_zero_iff.1 h0)
  have ht := h.tick
  have hw : Written d com (es.map toEntry).length (es.map toEntry) (p.tick d com) := by
    rw [hlen]
    exact ht
  have hbuf : ((List.range es.length).map mem).length = (es.map toEntry).length := by
    rw [List.length_map, List.length_range, hlen]
  have hread := assertFrdlist_eq hw (fun h0 => hne (List.map_eq_nil_iff.1 h0)) (hlen.trans_le hmax) hpage hbuf
  rw [hlen, List.length_map, List.length_range] at hread
  unfold doStRdAdminGcl tsnStGetAdminControlList
  dsimp only
  rw [ht.listLen, if_neg hzero, Nat.min_eq_left hmax]
  split at hread
  · rename_i hcond
    obtain ⟨p', hread⟩ := hread
    rw [if_pos hcond, hread]
    refine ⟨p', ?_⟩
    simp only [Option.bind_eq_bind, Option.bind_some, if_true, window_entryOf]
  · rename_i hcond
    rw [if_neg hcond, hread]
    rfl

/-! ## Both -/

/-- **A list through the driver and back**, while other tasks reconfigure the port. A file
with a list is written just when its intervals are ones of the driver. Then the list is read
into a file, with the gates of the port, just when one call can read it, or the driver is
that of edge_st_fsc.c; and what is in this file is that list. -/
theorem wrcl_rdacl (d : Driver) (com : Com) {page : Nat} (hpage : entrySize ≤ page) {p : Port} (h : p.Alone)
    {file : List Char} {es : List StGateControlEntry}
    (hfile : stReadGcf file (BitVec.ofNat 32 com.maxEntryCnt) = .gcl es) (hne : es ≠ []) :
    ∃ r, doStWrcl d com page p file = some r ∧ (r.1 = 0 ↔ ∀ e ∈ es, Valid d.user com (toEntry e)) ∧
      (r.1 = 0 → ∀ others, Port.Alone ⟨r.2.sched, others⟩ → ∀ mem,
        ((∃ p', doStRdAdminGcl d com page ⟨r.2.sched, others⟩ mem =
            some ((0, some (stWriteGcf (es.map (ported com)))), p')) ↔ d = .fsc ∨ es.length ≤ page / entrySize) ∧
          stReadGcf (stWriteGcf (es.map (ported com))) (BitVec.ofNat 32 com.maxEntryCnt) = .gcl (es.map (ported com))) := by
  obtain ⟨hfits, hknown⟩ := stReadGcf_gcl hfile
  have hmax : (BitVec.ofNat 32 com.maxEntryCnt).toNat = com.maxEntryCnt :=
    (BitVec.toNat_ofNat ..).trans (Nat.mod_eq_of_lt (com.max_lt.trans (by decide)))
  obtain ⟨r, hwrcl, hiff, hwritten⟩ := wrcl_iff page h hfile hne
  refine ⟨r, hwrcl, hiff, fun h0 others halone mem => ⟨?_, ?_⟩⟩
  · have hw := hwritten h0
    have hread := rdacl_eq (p := ⟨r.2.sched, others⟩) ⟨halone, hw.listLen, hw.valid, hw.stored⟩ hne (hmax ▸ hfits) hpage mem
    split at hread
    · rename_i hcond
      exact iff_of_true hread hcond
    · rename_i hcond
      refine iff_of_false (fun ⟨p', hsome⟩ => ?_) hcond
      exact nomatch hread.symm.trans hsome
  · rw [stWriteGcf_eq, stReadGcf, read_write_iff stMeaning stWriter, List.length_map]
    refine ⟨fun e he => ?_, hfits, ?_⟩
    · obtain ⟨a, ha, rfl⟩ := List.mem_map.1 he
      exact decide_eq_true (hknown a ha)
    · have := com.max_lt
      omega

end

/-- A file of two records, and a port whose gates are enabled meanwhile. -/
def twoRecords : List Char := "sgs 3200 0x0F\n# then\nshm 6400 0xF0\n".toList

def busyPort : Port := ⟨init 0xff, [[.setGateEnabled true {}], [.setConfigChange true {}]]⟩

theorem wrcl_rdacl_twoRecords :
    ∃ r, doStWrcl .fscr someCom 4096 busyPort twoRecords = some r ∧
      (r.1 = 0 ↔ ∀ e ∈ ([⟨3200, 0, 0x0f⟩, ⟨6400, 1, 0xf0⟩] : List StGateControlEntry), Valid .portGates someCom (toEntry e)) ∧
      (r.1 = 0 → ∀ others, Port.Alone ⟨r.2.sched, others⟩ → ∀ mem,
        ((∃ p', doStRdAdminGcl .fscr someCom 4096 ⟨r.2.sched, others⟩ mem =
            some ((0, some (stWriteGcf ([⟨3200, 0, 0x0f⟩, ⟨6400, 1, 0xf0⟩].map (ported someCom)))), p')) ↔
          Driver.fscr = .fsc ∨ 2 ≤ 4096 / entrySize) ∧
        stReadGcf (stWriteGcf ([⟨3200, 0, 0x0f⟩, ⟨6400, 1, 0xf0⟩].map (ported someCom))) (BitVec.ofNat 32 someCom.maxEntryCnt) =
          .gcl ([⟨3200, 0, 0x0f⟩, ⟨6400, 1, 0xf0⟩].map (ported someCom))) :=
  wrcl_rdacl .fscr someCom (by decide) (by decide) (by decide +kernel) (by decide)

end TsnSwitch.Tsntool
