/-
What is written to a gate control list file is read back, and when a record that
is accepted is read as it stands.

A list that fits is always read back. A record is not read as it stands where its
interval has more than 32 bits or a sign: `strtoul` gives an `unsigned long`, and of
that the low half is stored unchecked. A gate state is checked, but a negative
one can come out of `strtoul` as a small one.
-/
import TsnSwitch.Gcf.Files

namespace TsnSwitch.Gcf

open Lib

/-! ## Numbers -/

/-- The gate states that pass the check: those that fit, and the negative ones that
`strtoul` turns into such. -/
def GsvTaken (n : Int) : Prop := 0 ≤ n ∧ n < 2 ^ 8 ∨ -2 ^ 64 < n ∧ n < 2 ^ 8 - 2 ^ 64

theorem strtoulEnd_word {base : Nat} {tok : List Char} (hne : tok ≠ []) :
    (∃ n, denotes base tok = some n ∧ strtoulEnd base tok = (ulong n, [])) ∨
      denotes base tok = none ∧ (strtoulEnd base tok).2 ≠ [] := by
  cases hd : denotes base tok with
  | some n => exact .inl ⟨n, rfl, (strtoulEnd_iff hne).2 ⟨n, hd, rfl⟩⟩
  | none =>
    refine .inr ⟨rfl, fun h => ?_⟩
    obtain ⟨n, hn, -⟩ := (strtoulEnd_iff hne).1 (Prod.ext (y := ((strtoulEnd base tok).1, [])) rfl h)
    exact nomatch hd.symm.trans hn

theorem parseInterval_iff {tok : List Char} (hne : tok ≠ []) {v : BitVec 32} :
    parseInterval tok = some v ↔ ∃ n, denotes 10 tok = some n ∧ v = (ulong n).setWidth 32 := by
  unfold parseInterval
  rcases @strtoulEnd_word 10 tok hne with ⟨n, hd, hs⟩ | ⟨hd, hs⟩
  · simp only [hs, hd, ne_eq, not_true_eq_false, and_false, if_false, Option.some.injEq, exists_eq_left', eq_comm]
  · simp only [hd, hs, ne_eq, hne, not_false_eq_true, and_self, if_true, reduceCtorEq, false_and, exists_false]

theorem ulong_toNat (n : Int) : ((ulong n).toNat : Int) = if 2 ^ 64 ≤ n.natAbs then 2 ^ 64 - 1 else n % 2 ^ 64 := by
  unfold ulong
  split
  · rfl
  · rw [BitVec.toNat_ofInt]
    omega

/-- The low half of the number is the number exactly when it fits. -/
theorem interval_iff (n : Int) : (((ulong n).setWidth 32).toNat : Int) = n ↔ 0 ≤ n ∧ n < 2 ^ 32 := by
  have hval : (((ulong n).setWidth 32).toNat : Int) = ((ulong n).toNat : Int) % 2 ^ 32 := by
    rw [BitVec.toNat_setWidth]
    omega
  rw [hval, ulong_toNat]
  split <;> omega

theorem parseGsv_iff {tok : List Char} (hne : tok ≠ []) {v : BitVec 8} :
    parseGsv tok = some v ↔ ∃ n, denotes 0 tok = some n ∧ GsvTaken n ∧ v = BitVec.ofInt 8 n := by
  unfold parseGsv
  rcases @strtoulEnd_word 0 tok hne with ⟨n, hd, hs⟩ | ⟨hd, hs⟩
  · simp only [hs, hd, ne_eq, not_true_eq_false, and_false, if_false, Option.some.injEq, exists_eq_left',
      Option.ite_none_left_eq_some, UINT8_MAX]
    have hnat := ulong_toNat n
    have htaken : ¬ (ulong n).toNat > 255 ↔ GsvTaken n := by
      unfold GsvTaken
      split at hnat <;> omega
    rw [htaken]
    refine and_congr_right fun ht => ?_
    have hval : (ulong n).setWidth 8 = BitVec.ofInt 8 n := by
      apply BitVec.eq_of_toNat_eq
      rw [BitVec.toNat_setWidth, BitVec.toNat_ofInt]
      unfold GsvTaken at ht
      split at hnat <;> omega
    rw [hval, eq_comm]
  · simp only [hd, hs, ne_eq, hne, not_false_eq_true, and_self, if_true, reduceCtorEq, false_and, exists_false]

theorem gsv_iff {n : Int} (h : GsvTaken n) : ((BitVec.ofInt 8 n).toNat : Int) = n ↔ 0 ≤ n := by
  rw [BitVec.toNat_ofInt]
  unfold GsvTaken at h
  omega

theorem parseIpv_iff {tok : List Char} (hne : tok ≠ []) {v : BitVec 8} :
    parseIpv tok = some v ↔
      ∃ n, denotes 0 tok = some n ∧ (INT8_MIN ≤ n ∧ n ≤ INT8_MAX) ∧ v = BitVec.ofInt 8 n := by
  unfold parseIpv
  cases hd : denotes 0 tok with
  | some n =>
    have hs := (strtolEnd_iff hne).2 ⟨n, hd, rfl⟩
    simp only [hs, ne_eq, not_true_eq_false, and_false, if_false, Option.some.injEq, exists_eq_left',
      Option.ite_none_left_eq_some, long, INT8_MIN, INT8_MAX]
    constructor
    · rintro ⟨hr, rfl⟩
      have hn : max (-2 ^ 63) (min (2 ^ 63 - 1) n) = n := by omega
      exact ⟨by omega, by rw [hn]⟩
    · rintro ⟨hr, rfl⟩
      have hn : max (-2 ^ 63) (min (2 ^ 63 - 1) n) = n := by omega
      exact ⟨by omega, by rw [hn]⟩
  | none =>
    have hs : (strtolEnd 0 tok).2 ≠ [] := fun h => by
      obtain ⟨n, hn, -⟩ := (strtolEnd_iff hne).1 (Prod.ext (y := ((strtolEnd 0 tok).1, [])) rfl h)
      exact nomatch hd.symm.trans hn
    simp only [hs, ne_eq, hne, not_false_eq_true, and_self, if_true, reduceCtorEq, false_and, exists_false]

theorem ipv_eq {n : Int} (h : INT8_MIN ≤ n ∧ n ≤ INT8_MAX) : (BitVec.ofInt 8 n).toInt = n := by
  unfold INT8_MIN INT8_MAX at h
  rw [BitVec.toInt_ofInt]
  exact Int.bmod_eq_of_le (by omega) (by omega)

/-! ## Records -/

section Records

variable {E : Type} {fmt : Format E}

theorem parseRecord_op {s tok t : List Char} {op : BitVec 8} (hs : strtok ' ' s = some (tok, t))
    (ho : fmt.op tok = some op) (room : Bool) :
    parseRecord fmt room s =
      if room then (fmt.entry op t).elim (.error EINVAL) .stored else .outside := by
  rw [parseRecord, hs]
  simp only [ho]
  cases fmt.entry op t <;> rfl

theorem parseRecord_not_op {s tok t : List Char} (hs : strtok ' ' s = some (tok, t)) (ho : fmt.op tok = none)
    (room : Bool) : parseRecord fmt room s = .error (if tok = GCF_OP_UNKNOWN then ENOENT else EINVAL) := by
  rw [parseRecord, hs]
  simp only [ho]
  split <;> rfl

theorem parseRecord_blank {s : List Char} (hs : strtok ' ' s = none) (room : Bool) :
    parseRecord fmt room s = .error EINVAL := by rw [parseRecord, hs]

theorem parseRecord_stored_iff {s : List Char} {e : E} :
    parseRecord fmt true s = .stored e ↔
      ∃ tok t op, strtok ' ' s = some (tok, t) ∧ fmt.op tok = some op ∧ fmt.entry op t = some e := by
  constructor
  · intro h
    cases hs : strtok ' ' s with
    | none => exact nomatch (parseRecord_blank hs true).symm.trans h
    | some p =>
      cases ho : fmt.op p.1 with
      | none => exact nomatch (parseRecord_not_op hs ho true).symm.trans h
      | some op =>
        rw [parseRecord_op hs ho, if_pos rfl] at h
        cases he : fmt.entry op p.2 with
        | none =>
          rw [he] at h
          exact nomatch h
        | some e' =>
          rw [he] at h
          obtain rfl := Parsed.stored.inj h
          exact ⟨p.1, p.2, op, rfl, ho, he⟩
  · rintro ⟨tok, t, op, hs, ho, he⟩
    rw [parseRecord_op hs ho, if_pos rfl, he]
    rfl

/-- What the words behind the operation stand for, in the files of one kind. -/
structure Meaning (fmt : Format E) where
  /-- The entry holds the numbers as they are written. -/
  reads : List (List Char) → BitVec 8 → E → Prop
  /-- The numbers are accepted, but one of them does not fit its field. -/
  cut : List (List Char) → Prop
  of_entry : ∀ op s e, fmt.entry op s = some e → reads (words ' ' s) op e ∨ cut (words ' ' s)
  of_cut : ∀ op s, cut (words ' ' s) → ∃ e, fmt.entry op s = some e ∧ ¬ reads (words ' ' s) op e
  unknown : fmt.op GCF_OP_UNKNOWN = none

/-- The entry is the record of a line. -/
def Reads (m : Meaning fmt) (line : List Char) (e : E) : Prop :=
  ∃ tok toks op, words ' ' line = tok :: toks ∧ fmt.op tok = some op ∧ m.reads toks op e

/-- A line with an operation and numbers that are accepted, one of which does not fit. -/
def Cut (m : Meaning fmt) (line : List Char) : Prop :=
  ∃ tok toks op, words ' ' line = tok :: toks ∧ fmt.op tok = some op ∧ m.cut toks

/-- **A line that is accepted is read as it stands exactly when its numbers are
not cut.** -/
theorem reads_iff {m : Meaning fmt} {line : List Char} {e : E} (h : parseRecord fmt true line = .stored e) :
    Reads m line e ↔ ¬ Cut m line := by
  obtain ⟨tok, t, op, hs, ho, he⟩ := parseRecord_stored_iff.1 h
  have hw : words ' ' line = tok :: words ' ' t := strtok_iff.2 ⟨t, hs, rfl⟩
  constructor
  · rintro ⟨tok', toks, op', hw', ho', hr⟩ ⟨tok'', toks', _, hw'', _, hc⟩
    obtain ⟨rfl, rfl⟩ := List.cons.inj (hw.symm.trans hw')
    obtain ⟨-, rfl⟩ := List.cons.inj (hw.symm.trans hw'')
    obtain rfl := Option.some.inj (ho.symm.trans ho')
    obtain ⟨e', he', hnot⟩ := m.of_cut op t hc
    obtain rfl := Option.some.inj (he.symm.trans he')
    exact hnot hr
  · intro hnot
    rcases m.of_entry op t e he with hr | hc
    · exact ⟨tok, _, op, hw, ho, hr⟩
    · exact absurd ⟨tok, _, op, hw, ho, hc⟩ hnot

theorem accepts_iff (m : Meaning fmt) (line : List Char) :
    (∀ e, parseRecord fmt true line = .stored e → Reads m line e) ↔ ¬ Cut m line := by
  refine ⟨fun h hcut => ?_, fun h e he => (reads_iff he).2 h⟩
  obtain ⟨tok, toks, op, hw, ho, hc⟩ := hcut
  obtain ⟨t, hs, rfl⟩ := strtok_iff.1 hw
  obtain ⟨e, he, -⟩ := m.of_cut op t hc
  have hstored := parseRecord_stored_iff.2 ⟨tok, t, op, hs, ho, he⟩
  exact (reads_iff hstored).1 (h e hstored) ⟨tok, _, op, hw, ho, hc⟩

/-! ## Files -/

/-- A line that is not empty, no comment and of no unknown operation. -/
def IsRecord (line : List Char) : Prop :=
  line ≠ [] ∧ line.head? ≠ some '#' ∧ (words ' ' line).head? ≠ some GCF_OP_UNKNOWN

instance (line : List Char) : Decidable (IsRecord line) := inferInstanceAs (Decidable (_ ∧ _ ∧ _))

def recordLines (gces : List (List Char)) : List (List Char) :=
  (gces.map fun gce => trim (cstr gce)).filter fun line => IsRecord line

/-- The records of a file as `fgets` delivers them. -/
def records (file : List Char) : List (List Char) := recordLines (fgetsAll (MAX_REC - 1) file)

theorem stored_of_room {room : Bool} {s : List Char} {e : E} (h : parseRecord fmt room s = .stored e) :
    parseRecord fmt true s = .stored e := by
  cases room with
  | true => exact h
  | false =>
    cases hs : strtok ' ' s with
    | none => exact nomatch (parseRecord_blank hs false).symm.trans h
    | some p =>
      cases ho : fmt.op p.1 with
      | none => exact nomatch (parseRecord_not_op hs ho false).symm.trans h
      | some op => exact nomatch (parseRecord_op hs ho false).symm.trans h

/-- Only an unknown operation makes a record be passed over. -/
theorem parseRecord_enoent_iff (m : Meaning fmt) {room : Bool} {s : List Char} :
    parseRecord fmt room s = .error ENOENT ↔ (words ' ' s).head? = some GCF_OP_UNKNOWN := by
  cases hs : strtok ' ' s with
  | none =>
    rw [parseRecord_blank hs, strtok_none_iff.1 hs]
    exact iff_of_false (fun h => absurd (Parsed.error.inj h) (by decide)) (by decide)
  | some p =>
    have hw : words ' ' s = p.1 :: words ' ' p.2 := strtok_iff.2 ⟨p.2, hs, rfl⟩
    rw [hw, List.head?_cons, Option.some.injEq]
    cases ho : fmt.op p.1 with
    | none =>
      rw [parseRecord_not_op hs ho, Parsed.error.injEq]
      split
      · rename_i heq
        exact iff_of_true rfl heq
      · rename_i hne
        exact iff_of_false (by decide) hne
    | some op =>
      rw [parseRecord_op hs ho]
      refine iff_of_false (fun h => ?_) fun heq => ?_
      · cases room with
        | false => exact nomatch h
        | true =>
          cases he : fmt.entry op p.2 with
          | none =>
            rw [he] at h
            exact absurd (Parsed.error.inj h) (by decide)
          | some e =>
            rw [he] at h
            exact nomatch h
      · rw [heq, m.unknown] at ho
        exact nomatch ho

theorem recordLines_cons (gce : List Char) (gces : List (List Char)) :
    recordLines (gce :: gces) =
      if IsRecord (trim (cstr gce)) then trim (cstr gce) :: recordLines gces else recordLines gces := by
  rw [recordLines, List.map_cons, List.filter_cons]
  simp only [decide_eq_true_eq]
  rfl

/-- The loop over what are records. -/
def takeRecords (fmt : Format E) (n : Nat) : List (List Char) → List E → Gcl E
  | [], gcl => .gcl gcl
  | line :: lines, gcl =>
    match parseRecord fmt (gcl.length < n) line with
    | .stored e => takeRecords fmt n lines (gcl ++ [e])
    | .error _ => .null
    | .outside => .outside

/-- Only the records count. -/
theorem readLoop_eq (m : Meaning fmt) (n : Nat) (gces : List (List Char)) (acc : List E) :
    readLoop fmt n gces acc = takeRecords fmt n (recordLines gces) acc := by
  induction gces generalizing acc with
  | nil => rfl
  | cons gce gces ih =>
    rw [recordLines_cons, readLoop]
    split
    · rename_i hempty
      rw [if_neg fun hr => hr.1 hempty, ih]
    split
    · rename_i _ hcomment
      rw [if_neg fun hr => hr.2.1 hcomment, ih]
    rename_i hempty hcomment
    by_cases hunknown : (words ' ' (trim (cstr gce))).head? = some GCF_OP_UNKNOWN
    · rw [if_neg fun hr => hr.2.2 hunknown, (parseRecord_enoent_iff m).2 hunknown, ← ih]
      exact if_pos rfl
    · rw [if_pos ⟨hempty, hcomment, hunknown⟩, takeRecords]
      cases hp : parseRecord fmt (decide (acc.length < n)) (trim (cstr gce)) with
      | stored e => exact ih _
      | error errno =>
        refine if_neg fun herrno => hunknown ?_
        rw [herrno] at hp
        exact (parseRecord_enoent_iff m).1 hp
      | outside => rfl

theorem readLoop_gcl (m : Meaning fmt) {n : Nat} {gces : List (List Char)} {acc es : List E}
    (h : readLoop fmt n gces acc = .gcl es) :
    ∃ new, es = acc ++ new ∧
      List.Forall₂ (fun line e => parseRecord fmt true line = .stored e) (recordLines gces) new := by
  rw [readLoop_eq m] at h
  generalize recordLines gces = ls at h ⊢
  induction ls generalizing acc with
  | nil =>
    obtain rfl := Gcl.gcl.inj h
    exact ⟨[], (List.append_nil acc).symm, .nil⟩
  | cons line ls ih =>
    rw [takeRecords] at h
    cases hp : parseRecord fmt (decide (acc.length < n)) line with
    | stored e =>
      rw [hp] at h
      obtain ⟨new, rfl, hnew⟩ := ih h
      exact ⟨e :: new, List.append_assoc .., .cons (stored_of_room hp) hnew⟩
    | error errno =>
      rw [hp] at h
      exact nomatch h
    | outside =>
      rw [hp] at h
      exact nomatch h

/-- **A file that is accepted is read as it stands exactly when the numbers of its
records are not cut.** -/
theorem file_reads_iff (m : Meaning fmt) {file : List Char} {maxLen : BitVec 32} {es : List E}
    (h : readGcf fmt file maxLen = .gcl es) :
    List.Forall₂ (Reads m) (records file) es ↔ ∀ line ∈ records file, ¬ Cut m line := by
  obtain ⟨es, rfl, hnew⟩ := readLoop_gcl m h
  have hstored : List.Forall₂ (fun line e => parseRecord fmt true line = .stored e) (records file) es := hnew
  clear h hnew
  generalize records file = lines at hstored
  induction hstored with
  | nil => exact iff_of_true .nil fun _ h => nomatch h
  | cons h _ ih =>
    rw [List.forall₂_cons, List.forall_mem_cons]
    exact and_congr (reads_iff h) ih

/-! ## What is written -/

/-- A text that is read from a line as it stands. -/
structure Line (text : List Char) : Prop where
  short : text.length < MAX_REC - 1
  unbroken : '\n' ∉ text
  trimmed : trim (cstr (text ++ ['\n'])) = text
  filled : text ≠ []
  noComment : text.head? ≠ some '#'

/-- What is written for an entry: a record that is read as the entry, or nothing
that is stored. -/
structure Writer (fmt : Format E) where
  record : E → List Char
  known : E → Bool
  of_known : ∀ e, known e = true →
    ∃ text, record e = text ++ ['\n'] ∧ Line text ∧ parseRecord fmt true text = .stored e
  of_unknown : ∀ e, known e = false →
    record e = [] ∨ ∃ text, record e = text ++ ['\n'] ∧ Line text ∧ (words ' ' text).head? = some GCF_OP_UNKNOWN

theorem fgetsAll_line {room : Nat} {text : List Char} (hshort : text.length < room) (hbreak : '\n' ∉ text)
    (rest : List Char) :
    fgetsAll room (text ++ ['\n'] ++ rest) = (text ++ ['\n']) :: fgetsAll (MAX_REC - 1) rest := by
  induction text generalizing room with
  | nil => exact if_pos (.inl rfl)
  | cons c text ih =>
    rw [List.length_cons] at hshort
    obtain ⟨hc, hbreak⟩ := not_or.1 (mt List.mem_cons.2 hbreak)
    have hrest := @ih (room - 1) (by omega) hbreak
    rw [List.cons_append, List.cons_append, fgetsAll, if_neg]
    · rw [hrest]
    · rintro (h | h)
      · exact hc h.symm
      · omega

theorem readLoop_line {text : List Char} (hl : Line text) (n : Nat) (gces : List (List Char)) (acc : List E) :
    readLoop fmt n ((text ++ ['\n']) :: gces) acc =
      match parseRecord fmt (acc.length < n) text with
      | .stored e => readLoop fmt n gces (acc ++ [e])
      | .error errno => if errno = ENOENT then readLoop fmt n gces acc else .null
      | .outside => .outside := by
  rw [readLoop, hl.trimmed]
  exact (if_neg hl.filled).trans (if_neg hl.noComment)

/-- A record that can be stored is written to the array or outside it. -/
theorem parseRecord_room {text : List Char} {e : E} (h : parseRecord fmt true text = .stored e) (room : Bool) :
    parseRecord fmt room text = if room then .stored e else .outside := by
  obtain ⟨tok, t, op, hs, ho, he⟩ := parseRecord_stored_iff.1 h
  rw [parseRecord_op hs ho, he]
  rfl

/-- **The loop stores what is known of the list that was written, or writes
outside the array.** -/
theorem readLoop_write (m : Meaning fmt) (w : Writer fmt) {n : Nat} (es : List E) {acc : List E} (hacc : acc.length ≤ n) :
    readLoop fmt n (fgetsAll (MAX_REC - 1) (es.flatMap w.record)) acc =
      if acc.length + (es.filter w.known).length ≤ n then .gcl (acc ++ es.filter w.known) else .outside := by
  induction es generalizing acc with
  | nil =>
    rw [List.filter_nil, List.append_nil]
    exact (if_pos hacc).symm
  | cons e es ih =>
    rw [List.flatMap_cons]
    cases hk : w.known e with
    | true =>
      obtain ⟨text, hrec, hline, hparse⟩ := w.of_known e hk
      rw [hrec, fgetsAll_line hline.short hline.unbroken, readLoop_line hline, parseRecord_room hparse,
        List.filter_cons_of_pos hk, List.length_cons]
      by_cases hroom : acc.length < n
      · have hlen : (acc ++ [e]).length = acc.length + 1 := List.length_append
        simp only [hroom, decide_true, if_true]
        rw [ih (by omega), hlen, List.append_assoc, Nat.add_assoc, Nat.add_comm 1]
        rfl
      · simp only [hroom, decide_false, Bool.false_eq_true, if_false]
        rw [if_neg (by omega)]
    | false =>
      rw [List.filter_cons_of_neg (by rw [hk]; decide)]
      rcases w.of_unknown e hk with hrec | ⟨text, hrec, hline, hword⟩
      · rw [hrec, List.nil_append, ih hacc]
      · rw [hrec, fgetsAll_line hline.short hline.unbroken, readLoop_line hline, (parseRecord_enoent_iff m).2 hword]
        simp only [if_true]
        exact ih hacc

/-- Each record that is known has a line of its own. -/
theorem countLines_write (w : Writer fmt) {es : List E} (h : ∀ e ∈ es, w.known e = true) :
    (es.flatMap w.record).count '\n' = es.length := by
  induction es with
  | nil => rfl
  | cons e es ih =>
    rw [List.forall_mem_cons] at h
    obtain ⟨text, hrec, hline, -⟩ := w.of_known e h.1
    rw [List.flatMap_cons, List.count_append, ih h.2, hrec, List.count_append,
      List.count_eq_zero_of_not_mem hline.unbroken, List.length_cons]
    exact Nat.add_comm _ _

theorem gcl_or_outside_iff {p : Prop} [Decidable p] {es es' : List E} :
    (if p then Gcl.gcl es else .outside) = .gcl es' ↔ p ∧ es = es' := by
  split
  · rename_i h
    rw [Gcl.gcl.injEq, and_iff_right h]
  · rename_i h
    exact iff_of_false (fun h => nomatch h) fun h' => h h'.1

/-- A list of that many records fits the array that is made for their lines. -/
theorem fits_iff {lines maxLen : BitVec 32} {n : Nat} (h : lines.toNat = (n + 1) % 2 ^ 32) :
    n ≤ (if lines > maxLen then maxLen else lines).toNat ↔ n ≤ maxLen.toNat ∧ n + 1 < 2 ^ 32 := by
  have hmax := maxLen.isLt
  split
  · rename_i hlt
    have hlt : maxLen.toNat < lines.toNat := hlt
    omega
  · rename_i hle
    have hle : ¬ maxLen.toNat < lines.toNat := hle
    omega

/-- **A list is read back exactly when its operations are known and it fits the
array.** -/
theorem read_write_iff (m : Meaning fmt) (w : Writer fmt) (es : List E) (maxLen : BitVec 32) :
    readGcf fmt (es.flatMap w.record) maxLen = .gcl es ↔
      (∀ e ∈ es, w.known e = true) ∧ es.length ≤ maxLen.toNat ∧ es.length + 1 < 2 ^ 32 := by
  have hknown : es.filter w.known = es ↔ ∀ e ∈ es, w.known e = true := List.filter_eq_self
  rw [readGcf, readLoop_write m w es (Nat.zero_le _), gcl_or_outside_iff, ← hknown, List.nil_append, List.length_nil,
    Nat.zero_add, and_comm]
  refine and_congr_right fun hall => ?_
  rw [hall]
  refine fits_iff ?_
  rw [countLines, countLines_write w (hknown.1 hall), BitVec.toNat_ofNat]

end Records

end TsnSwitch.Gcf
