/-
The operational list in chunks against the list in one read.

Each call starts with a low hold level and decodes its first operation from
that, whatever the row before says. So the chunks are the whole just when no
chunk but the first starts behind a holding row, and the calls over
edge_sched.c do not start behind the end (`chunkedSame_iff`). Stream gates
have no hold level.
-/
import TsnSwitch.Sched.OperList

namespace TsnSwitch.Sched

open Lib

/-- The three readers of an operational list. -/
inductive OperReader where
  | shared (r : ListReader)
  | fsc
  deriving DecidableEq

def OperReader.read (r : OperReader) (com : Com) (hw : Hw) (listLens : Int → Nat) (first : Nat) (buf : List TabEntry)
    (vars : BitVec 16 × BitVec 32) : Int × List TabEntry :=
  match r with
  | .shared r => (r.read com hw listLens first buf vars).1
  | .fsc => (Fsc.edgxSchedGetOpEntry com hw listLens first buf).1

/-- What a call that does not fail has read. -/
def okContent (r : Int × List TabEntry) : Option (List TabEntry) := if 0 ≤ r.1 then some r.2 else none

/-- What the chunks `bufs` from `first` on have read together. A call finds
the hardware and the uninitialised variables of its own. -/
def OperReader.chunked (r : OperReader) (com : Com) (hw : Nat → Hw) (listLens : Int → Nat) (first : Nat)
    (bufs : List (List TabEntry)) (vars : Nat → BitVec 16 × BitVec 32) : Option (List TabEntry) :=
  ((chunks first bufs).mapM fun p => okContent (r.read com (hw p.1) listLens p.1 p.2 (vars p.1))).map List.flatten

/-- A call fails. -/
def OperReader.Fails (r : OperReader) (len first : Nat) : Prop :=
  match r with
  | .shared _ => len < first
  | .fsc => len = 0

/-- What a call that starts at `start` leaves for entry `j`. -/
def OperReader.slot (r : OperReader) (com : Com) (rows : Nat → Row) (len start : Nat) (b : Nat → TabEntry) (j : Nat) :
    TabEntry :=
  match r with
  | .shared r => r.slot com rows len start b j
  | .fsc => if j < len then readEntry com (rowNs com (rows j)) (prevHold com rows start j) (rows j)
    else edgxSchedUndefEntry

/-- A chunk goes on where the read that started at `first` was: it starts in
the list or right behind it, and not behind a row that holds. -/
structure OperReader.Joins (r : OperReader) (com : Com) (rows : Nat → Row) (len first : Nat)
    (p : Nat × List TabEntry) : Prop where
  inside : r ≠ .fsc → p.1 ≤ len
  low : r ≠ .shared .stream → first < p.1 → p.1 < len → p.2 ≠ [] → (rows (p.1 - 1)).level com = false

/-! ## One call -/

section Calls

variable (com : Com) {t : Tab} {rows : Nat → Row} {len : Nat}

theorem Fsc.readRows_window (hlen : len ≤ 1024) (start : Nat) (b : Nat → TabEntry) {hw : Hw} (h : Reads hw t rows) {idx : Nat}
    (buf : List TabEntry) (hstart : start ≤ idx) :
    (Fsc.edgxSchedReadRows com len t.idx buf idx (prevHold com rows start idx) hw).1 =
      (0, window (OperReader.fsc.slot com rows len start b) idx buf.length) := by
  induction buf generalizing idx hw with
  | nil => rfl
  | cons slot buf ih =>
    by_cases hend : idx ≥ len
    · rw [Fsc.edgxSchedReadRows, if_pos hend]
      exact congrArg _ (map_const_eq_window fun i _ => if_neg (by omega))
    · obtain ⟨hw', hread, h'⟩ := h.readRow idx
      rw [cmdRow_of_lt (by omega)] at hread
      have hrest := ih h' (by omega : start ≤ idx + 1)
      have hhold : prevHold com rows start (idx + 1) = (rows idx).gates &&& com.hold := if_neg (by omega)
      have hslot : OperReader.fsc.slot com rows len start b idx =
          readEntry com (rowNs com (rows idx)) (prevHold com rows start idx) (rows idx) := if_pos (by omega)
      rw [hhold] at hrest
      simp only [Fsc.edgxSchedReadRows, if_neg hend, hread, hrest, List.length_cons, window_succ, hslot]
      rfl

/-- What comes of a call. -/
theorem OperReader.content (r : OperReader) (hlen : len ≤ com.maxEntryCnt) {hw : Hw} {listLens : Int → Nat}
    (h : Running hw listLens t rows len) (first : Nat) {buf : List TabEntry} {b : Nat → TabEntry}
    (hb : buf = window b first buf.length) (vars : BitVec 16 × BitVec 32) :
    (r.Fails len first ∧ okContent (r.read com hw listLens first buf vars) = none) ∨
      (¬ r.Fails len first ∧
        okContent (r.read com hw listLens first buf vars) = some (window (r.slot com rows len first b) first buf.length)) := by
  have hlen' : len ≤ 1024 := hlen.trans com.max_lt.le
  cases r with
  | shared r =>
    by_cases hfirst : len < first
    · refine .inl ⟨hfirst, ?_⟩
      rw [OperReader.read, r.read_beyond com h.used h.listLen hfirst]
      rfl
    · refine .inr ⟨hfirst, ?_⟩
      rw [OperReader.read, r.read_window com hlen' h.used h.reads.rows h.listLen (Nat.not_lt.1 hfirst) hb
        (okFor_of_forall h.reads.ok _)]
      rfl
  | fsc =>
    by_cases h0 : len = 0
    · refine .inl ⟨h0, ?_⟩
      have hor : t.idx < 0 ∨ len = 0 := .inr h0
      simp only [OperReader.read, Fsc.edgxSchedGetOpEntry, h.used, h.listLen, if_pos hor, okContent]
      rfl
    · refine .inr ⟨h0, ?_⟩
      have hor : ¬ (t.idx < 0 ∨ len = 0) := by have := t.idx_nonneg; omega
      have hrows := Fsc.readRows_window com hlen' first b h.reads.getUsedTab buf (Nat.le_refl first)
      rw [prevHold, if_pos rfl] at hrows
      simp only [OperReader.read, Fsc.edgxSchedGetOpEntry, h.used, h.listLen, if_neg hor, hrows, if_true, okContent,
        if_pos (Int.natCast_nonneg _)]

end Calls

/-! ## Chunks -/

/-- The operation read with a low level is the one read with the level of the
row before, if that is low. -/
theorem readOp_low_iff (hold newHold : BitVec 16) : readOp 0 newHold = readOp hold newHold ↔ hold = 0 := by
  by_cases h0 : hold = 0
  · rw [h0]
    exact iff_of_true rfl rfl
  · refine iff_of_false ?_ h0
    by_cases hn : newHold = 0
    · simp only [readOp, h0, hn, ne_eq, not_true_eq_false, and_false, false_and, if_false, not_false_eq_true, true_and, if_true]
      decide
    · simp only [readOp, h0, hn, ne_eq, not_false_eq_true, and_self, if_true, false_and, and_false, if_false]
      decide

theorem level_eq_false (com : Com) (r : Row) : r.level com = false ↔ r.gates &&& com.hold = 0 := by
  simp [Row.level]

/-- A call that starts at `start` leaves for entry `j` what one that started
at `first` does. -/
theorem OperReader.slot_eq_iff (r : OperReader) (com : Com) (rows : Nat → Row) (len : Nat) (b : Nat → TabEntry)
    {first start j : Nat} (hfirst : first ≤ start) (hj : start ≤ j) :
    r.slot com rows len start b j = r.slot com rows len first b j ↔
      (r ≠ .shared .stream → j = start → first < start → j < len → (rows (j - 1)).level com = false) := by
  by_cases hlt : j < len ∧ j = start ∧ first < start
  · obtain ⟨hlen, rfl, hf⟩ := hlt
    have hstart : prevHold com rows j j = 0 := if_pos rfl
    have hkept : prevHold com rows first j = (rows (j - 1)).gates &&& com.hold := if_neg (by omega)
    rw [level_eq_false, ← readOp_low_iff _ ((rows j).gates &&& com.hold)]
    rcases r with (_ | _) | _
    · simp [OperReader.slot, ListReader.slot, ListReader.decode, hlen, hf, hstart, hkept]
    · simp [OperReader.slot, ListReader.slot, ListReader.decode, hlen]
    · simp [OperReader.slot, readEntry, hlen, hf, hstart, hkept]
  · have hsame : j < len → prevHold com rows start j = prevHold com rows first j := by
      intro hlen
      by_cases hjs : j = start
      · have : start = first := by omega
        rw [this]
      · rw [prevHold, if_neg hjs, prevHold, if_neg (by omega)]
    refine iff_of_true ?_ fun _ h1 h2 h3 => absurd ⟨h3, h1, h2⟩ hlt
    cases r with
    | shared r =>
      by_cases hlen : j < len
      · simp only [OperReader.slot, ListReader.slot, if_pos hlen, hsame hlen]
      · simp only [OperReader.slot, ListReader.slot, if_neg hlen]
    | fsc =>
      by_cases hlen : j < len
      · simp only [OperReader.slot, if_pos hlen, hsame hlen]
      · simp only [OperReader.slot, if_neg hlen]

/-- A list of calls, one of which may fail. -/
theorem mapM_content {ps : List (Nat × List TabEntry)} {f : Nat × List TabEntry → Option (List TabEntry)}
    {g : Nat × List TabEntry → List TabEntry} {P : Nat × List TabEntry → Prop}
    (h : ∀ p ∈ ps, (P p ∧ f p = none) ∨ (¬ P p ∧ f p = some (g p))) :
    ((∃ p ∈ ps, P p) ∧ ps.mapM f = none) ∨ ((∀ p ∈ ps, ¬ P p) ∧ ps.mapM f = some (ps.map g)) := by
  induction ps with
  | nil => exact .inr ⟨by simp, rfl⟩
  | cons p ps ih =>
    obtain ⟨hp, hps⟩ := List.forall_mem_cons.1 h
    rcases hp with ⟨hP, hf⟩ | ⟨hP, hf⟩
    · exact .inl ⟨⟨p, List.mem_cons_self, hP⟩, by simp [hf]⟩
    · rcases ih hps with ⟨⟨q, hq, hQ⟩, hnone⟩ | ⟨hall, hsome⟩
      · exact .inl ⟨⟨q, List.mem_cons_of_mem p hq, hQ⟩, by simp [hf, hnone]⟩
      · exact .inr ⟨List.forall_mem_cons.2 ⟨hP, hall⟩, by simp [hf, hsome]⟩

/-- **A read in chunks gives what one read gives** just when each chunk goes
on where the read was. A read that starts behind the list fails either way. -/
theorem chunkedSame_iff (r : OperReader) {com : Com} {t : Tab} {rows : Nat → Row} {len : Nat}
    (hlen : len ≤ com.maxEntryCnt) {listLens : Int → Nat} {hw : Nat → Hw} (h : ∀ i, Running (hw i) listLens t rows len)
    {hw' : Hw} (h' : Running hw' listLens t rows len) (first : Nat) {bufs : List (List TabEntry)} (hne : bufs ≠ [])
    (vars : Nat → BitVec 16 × BitVec 32) (vars' : BitVec 16 × BitVec 32) :
    r.chunked com hw listLens first bufs vars = okContent (r.read com hw' listLens first bufs.flatten vars') ↔
      (r ≠ .fsc ∧ len < first) ∨ ∀ p ∈ chunks first bufs, r.Joins com rows len first p := by
  have hb : ∀ p ∈ chunks first bufs, p.2 = window (fun i => bufs.flatten[i - first]?.getD edgxSchedUndefEntry) p.1 p.2.length :=
    fun p hp => chunk_eq_window _ hp
  have hb' := self_window edgxSchedUndefEntry first bufs.flatten
  generalize (fun i => bufs.flatten[i - first]?.getD edgxSchedUndefEntry) = b at hb hb'
  have hle : ∀ p ∈ chunks first bufs, first ≤ p.1 := fun p hp => (mem_chunks hp).2.1
  have hcalls := mapM_content (f := fun p => okContent (r.read com (hw p.1) listLens p.1 p.2 (vars p.1)))
    (g := fun p => window (r.slot com rows len p.1 b) p.1 p.2.length) (P := fun p => r.Fails len p.1)
    fun (p : Nat × List TabEntry) (hp : p ∈ chunks first bufs) => r.content com hlen (h p.1) p.1 (hb p hp) (vars p.1)
  rcases r.content com hlen h' first hb' vars' with ⟨hfail, hnone⟩ | ⟨hok, hsome⟩
  · -- the read fails, and so does its first chunk
    have hchunk : r.chunked com hw listLens first bufs vars = none := by
      rcases hcalls with ⟨_, hmap⟩ | ⟨hall, _⟩
      · rw [OperReader.chunked, hmap]; rfl
      · cases bufs with
        | nil => exact absurd rfl hne
        | cons buf bufs => exact absurd hfail (hall (first, buf) List.mem_cons_self)
    rw [hchunk, hnone]
    refine iff_of_true rfl ?_
    cases r with
    | shared r => exact .inl ⟨fun hr => (by cases hr), hfail⟩
    | fsc =>
      have h0 : len = 0 := hfail
      exact .inr fun p _ => ⟨fun hr => absurd rfl hr, fun _ _ hlt => absurd hlt (by omega)⟩
  · rw [hsome]
    rcases hcalls with ⟨⟨p, hp, hfail⟩, hmap⟩ | ⟨hall, hmap⟩
    · -- a chunk fails
      rw [OperReader.chunked, hmap]
      refine iff_of_false (fun heq => nomatch heq) ?_
      cases r with
      | shared r =>
        have hbeyond : len < p.1 := hfail
        rintro (⟨_, hlt⟩ | hall)
        · exact hok hlt
        · exact absurd ((hall p hp).inside (fun hr => (by cases hr))) (Nat.not_le.2 hbeyond)
      | fsc => exact absurd hfail hok
    · rw [OperReader.chunked, hmap, Option.map_some, Option.some.injEq, ← List.flatMap_def,
        flatMap_chunks_iff (fun start => r.slot com rows len start b) (r.slot com rows len first b)]
      have hleft : ¬ (r ≠ .fsc ∧ len < first) := by
        rintro ⟨hr, hlt⟩
        cases r with
        | shared r => exact hok hlt
        | fsc => exact hr rfl
      rw [or_iff_right hleft]
      refine forall₂_congr fun p hp => ?_
      constructor
      · refine fun heq => ⟨fun hr => ?_, fun hr hf hlt hbuf => ?_⟩
        · cases r with
          | shared r => exact Nat.not_lt.1 (hall p hp)
          | fsc => exact absurd rfl hr
        · exact (r.slot_eq_iff com rows len b (hle p hp) (Nat.le_refl _)).1 (heq 0 (List.length_pos_of_ne_nil hbuf)) hr rfl hf hlt
      · intro hj i hi
        refine (r.slot_eq_iff com rows len b (hle p hp) (Nat.le_add_right _ _)).2 fun hr h1 h2 h3 => ?_
        have hnil : p.2 ≠ [] := fun hnil => by rw [hnil] at hi; exact absurd hi (Nat.not_lt_zero _)
        rw [h1] at h3 ⊢
        exact hj.low hr h2 h3 hnil

/-- Three intervals, the first two of which hold, compiled into table 0 and in
use. -/
def holdHw : Hw :=
  (edgxStPrepareConfig someCom {} [⟨3200, EDGX_SCHED_OP_HOLD_MAC, 0x0f⟩, ⟨3200, EDGX_SCHED_OP_SET_GSTATES, 0xf0⟩,
    ⟨3200, EDGX_SCHED_OP_REL_MAC, 0xff⟩]).2.running

theorem holdHw_running : Running holdHw (fun _ => 3) 0 (holdHw.tabs 0).rows 3 := by
  have hxfers : holdHw.xfers = [] := rfl
  exact ⟨rfl, ⟨rfl, by rw [hxfers]; exact List.forall_mem_nil _⟩, rfl⟩

/-- Stream gates have no hold level. -/
theorem chunkedSame_iff_stream :
    OperReader.chunked (.shared .stream) someCom (fun _ => holdHw) (fun _ => 3) 0
        [[edgxSchedUndefEntry], List.replicate 2 edgxSchedUndefEntry] (fun _ => (0, 0)) =
      okContent (OperReader.read (.shared .stream) someCom holdHw (fun _ => 3) 0 (List.replicate 3 edgxSchedUndefEntry)
        (0, 0)) := by
  refine (chunkedSame_iff (.shared .stream) (by decide) (fun _ => holdHw_running) holdHw_running 0 (by decide)
    (fun _ => (0, 0)) (0, 0)).2 (.inr fun p hp => ⟨fun _ => ?_, fun hr => absurd rfl hr⟩)
  have hend := (mem_chunks hp).2.2
  change p.1 + p.2.length ≤ 3 at hend
  omega

/-- The second chunk starts while the level is high, and reads a hold where
the list has no change. -/
theorem not_chunkedSame_held :
    OperReader.chunked (.shared .port) someCom (fun _ => holdHw) (fun _ => 3) 0
        [[edgxSchedUndefEntry], List.replicate 2 edgxSchedUndefEntry] (fun _ => (0, 0)) ≠
      okContent (OperReader.read (.shared .port) someCom holdHw (fun _ => 3) 0 (List.replicate 3 edgxSchedUndefEntry)
        (0, 0)) := by
  decide

end TsnSwitch.Sched
