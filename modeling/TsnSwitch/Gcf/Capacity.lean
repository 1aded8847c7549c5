/-
How many records of a gate control list file are taken. The array has an entry
for each line, and not more than the caller says, but the loop that fills it does
not look: the record after the last entry is written outside. The loop does not
read lines either but pieces of them with up to 100 characters, each as a record
of its own (`gcfOk_iff`).
-/
import TsnSwitch.Gcf.Kinds

namespace TsnSwitch.Gcf

open Lib

/-- The lines of a file, each with its end. -/
def lines : List Char → List (List Char)
  | [] => []
  | c :: cs =>
    if c = '\n' then [c] :: lines cs
    else
      match lines cs with
      | [] => [[c]]
      | l :: ls => (c :: l) :: ls

section Format

variable {E : Type} (fmt : Format E)

/-- A text and the entry it is read as. -/
def ReadAs (line : List Char) (e : E) : Prop := parseRecord fmt true line = .stored e

/-- The operation of a record is known, so that it is written to the entry. -/
def HasOp (line : List Char) : Prop := ∃ tok t op, strtok ' ' line = some (tok, t) ∧ fmt.op tok = some op

/-- The entries of the array. -/
def room (file : List Char) (maxLen : BitVec 32) : Nat :=
  (if countLines file > maxLen then maxLen else countLines file).toNat

/-- What reading a file of records, one in a line, is to return. -/
structure GcfOk (file : List Char) (maxLen : BitVec 32) (r : Gcl E) : Prop where
  inside : r ≠ .outside
  ordered : ∀ es, r = .gcl es → es.length ≤ maxLen.toNat ∧ List.Forall₂ (ReadAs fmt) (recordLines (lines file)) es
  rejected : maxLen.toNat < (recordLines (lines file)).length ∨
    (∃ line ∈ recordLines (lines file), ∀ e, ¬ ReadAs fmt line e) → r = .null

/-- The records fit the array, and the pieces in which the lines are read have the
entries of the lines. -/
structure GcfFits (file : List Char) (maxLen : BitVec 32) : Prop where
  /-- As long as no record is malformed. -/
  room : ∀ pre line suf, records file = pre ++ line :: suf → (∀ l ∈ pre, ∃ e, ReadAs fmt l e) → HasOp fmt line →
    pre.length < room file maxLen
  whole : ∀ es, List.Forall₂ (ReadAs fmt) (records file) es → List.Forall₂ (ReadAs fmt) (recordLines (lines file)) es

end Format

variable {E : Type} {fmt : Format E}

/-! ## The loop -/

/-- A record without an entry in the array. -/
theorem parseRecord_full (fmt : Format E) (line : List Char) :
    parseRecord fmt false line = .outside ∧ HasOp fmt line ∨
      (∃ errno, parseRecord fmt false line = .error errno) ∧ ¬ HasOp fmt line := by
  cases hs : strtok ' ' line with
  | none =>
    refine .inr ⟨⟨_, parseRecord_blank hs false⟩, fun ⟨tok, t, op, hs', _⟩ => ?_⟩
    cases hs.symm.trans hs'
  | some p =>
    cases ho : fmt.op p.1 with
    | none =>
      refine .inr ⟨⟨_, parseRecord_not_op hs ho false⟩, fun ⟨tok, t, op, hs', ho'⟩ => ?_⟩
      obtain rfl := Option.some.inj (hs.symm.trans hs')
      cases ho.symm.trans ho'
    | some op => exact .inl ⟨parseRecord_op hs ho false, p.1, p.2, op, hs, ho⟩

theorem ReadAs.hasOp {line : List Char} {e : E} (h : ReadAs fmt line e) : HasOp fmt line := by
  obtain ⟨tok, t, op, hs, ho, -⟩ := parseRecord_stored_iff.1 h
  exact ⟨tok, t, op, hs, ho⟩

theorem parseRecord_room_ne {line : List Char} : parseRecord fmt true line ≠ .outside := by
  intro h
  cases hs : strtok ' ' line with
  | none => cases (parseRecord_blank hs true).symm.trans h
  | some p =>
    cases ho : fmt.op p.1 with
    | none => cases (parseRecord_not_op hs ho true).symm.trans h
    | some op =>
      rw [parseRecord_op hs ho, if_pos rfl] at h
      cases he : fmt.entry op p.2 <;> rw [he] at h <;> cases h

/-- **One record:** it is taken, or is malformed, or its operation is written
outside the array. -/
theorem takeRecords_cons (fmt : Format E) (n : Nat) (line : List Char) (ls : List (List Char)) (acc : List E) :
    (∃ e, ReadAs fmt line e ∧ acc.length < n ∧ takeRecords fmt n (line :: ls) acc = takeRecords fmt n ls (acc ++ [e])) ∨
    ((acc.length < n → ∀ e, ¬ ReadAs fmt line e) ∧ (n ≤ acc.length → ¬ HasOp fmt line) ∧
      takeRecords fmt n (line :: ls) acc = .null) ∨
    (n ≤ acc.length ∧ HasOp fmt line ∧ takeRecords fmt n (line :: ls) acc = .outside) := by
  rw [takeRecords]
  by_cases hlt : acc.length < n
  · rw [decide_eq_true hlt]
    cases hp : parseRecord fmt true line with
    | stored e => exact .inl ⟨e, hp, hlt, rfl⟩
    | error errno => exact .inr (.inl ⟨fun _ e he => (by cases hp.symm.trans he), fun hle => absurd hlt (Nat.not_lt.2 hle), rfl⟩)
    | outside => exact absurd hp parseRecord_room_ne
  · rw [decide_eq_false hlt]
    obtain ⟨hp, hop⟩ | ⟨⟨errno, hp⟩, hop⟩ := parseRecord_full fmt line <;> rw [hp]
    · exact .inr (.inr ⟨Nat.not_lt.1 hlt, hop, rfl⟩)
    · exact .inr (.inl ⟨fun h => absurd h hlt, fun _ => hop, rfl⟩)

theorem takeRecords_gcl_iff {n : Nat} {ls : List (List Char)} {acc es : List E} (hacc : acc.length ≤ n) :
    takeRecords fmt n ls acc = .gcl es ↔
      ∃ new, es = acc ++ new ∧ List.Forall₂ (ReadAs fmt) ls new ∧ acc.length + new.length ≤ n := by
  induction ls generalizing acc with
  | nil =>
    refine ⟨fun h => ⟨[], ?_, .nil, hacc⟩, fun ⟨new, he, hnew, _⟩ => ?_⟩
    · rw [List.append_nil]
      exact (Gcl.gcl.inj h).symm
    · obtain rfl := List.forall₂_nil_left_iff.1 hnew
      rw [he, List.append_nil]
      rfl
  | cons line ls ih =>
    obtain ⟨e, hread, hlt, heq⟩ | ⟨hbad, hop, heq⟩ | ⟨hle, -, heq⟩ := takeRecords_cons fmt n line ls acc
    · rw [heq, ih (by rw [List.length_append]; exact hlt)]
      refine ⟨fun ⟨new, he, hnew, hlen⟩ => ⟨e :: new, ?_, .cons hread hnew, ?_⟩, fun ⟨new, he, hnew, hlen⟩ => ?_⟩
      · rw [he, List.append_assoc]
        rfl
      · rw [List.length_append] at hlen
        simp only [List.length_cons, List.length_nil] at hlen ⊢
        omega
      · obtain ⟨e', tail, hread', htail, rfl⟩ := List.forall₂_cons_left_iff.1 hnew
        obtain rfl := Parsed.stored.inj (hread.symm.trans hread')
        refine ⟨tail, by rw [he, List.append_assoc]; rfl, htail, ?_⟩
        rw [List.length_append]
        simp only [List.length_cons, List.length_nil] at hlen ⊢
        omega
    · rw [heq]
      refine iff_of_false (fun h => (nomatch h)) fun ⟨new, _, hnew, hlen⟩ => ?_
      obtain ⟨e, new, hread, -, rfl⟩ := List.forall₂_cons_left_iff.1 hnew
      rw [List.length_cons] at hlen
      exact hbad (by omega) e hread
    · rw [heq]
      refine iff_of_false (fun h => (nomatch h)) fun ⟨new, _, hnew, hlen⟩ => ?_
      obtain ⟨e, new, -, -, rfl⟩ := List.forall₂_cons_left_iff.1 hnew
      rw [List.length_cons] at hlen
      omega

theorem takeRecords_outside_iff {n : Nat} (ls : List (List Char)) {acc : List E} (hacc : acc.length ≤ n) :
    takeRecords fmt n ls acc = .outside ↔
      ∃ pre line suf, ls = pre ++ line :: suf ∧ (∀ l ∈ pre, ∃ e, ReadAs fmt l e) ∧ HasOp fmt line ∧
        n ≤ acc.length + pre.length := by
  induction ls generalizing acc with
  | nil =>
    refine iff_of_false (fun h => (nomatch h)) fun ⟨pre, line, suf, h, _⟩ => ?_
    cases pre <;> cases h
  | cons line ls ih =>
    obtain ⟨e, hread, hlt, heq⟩ | ⟨hbad, hop, heq⟩ | ⟨hle, hop, heq⟩ := takeRecords_cons fmt n line ls acc
    · rw [heq, ih (by rw [List.length_append]; exact hlt)]
      refine ⟨fun ⟨pre, l, suf, hls, hpre, hop, hlen⟩ => ?_, fun ⟨pre, l, suf, hls, hpre, hop, hlen⟩ => ?_⟩
      · refine ⟨line :: pre, l, suf, by rw [hls]; rfl, List.forall_mem_cons.2 ⟨⟨e, hread⟩, hpre⟩, hop, ?_⟩
        rw [List.length_append] at hlen
        simp only [List.length_cons, List.length_nil] at hlen ⊢
        omega
      · cases pre with
        | nil => exact absurd hlen (by rw [List.length_nil]; omega)
        | cons l' pre =>
          obtain ⟨rfl, rfl⟩ := List.cons.inj hls
          refine ⟨pre, l, suf, rfl, (List.forall_mem_cons.1 hpre).2, hop, ?_⟩
          rw [List.length_append]
          simp only [List.length_cons, List.length_nil] at hlen ⊢
          omega
    · rw [heq]
      refine iff_of_false (fun h => (nomatch h)) fun ⟨pre, l, suf, hls, hpre, hop', hlen⟩ => ?_
      cases pre with
      | nil =>
        obtain ⟨rfl, -⟩ := List.cons.inj hls
        exact hop hlen hop'
      | cons l' pre =>
        obtain ⟨rfl, -⟩ := List.cons.inj hls
        obtain ⟨e, hread⟩ := (List.forall_mem_cons.1 hpre).1
        by_cases hlt : acc.length < n
        · exact hbad hlt e hread
        · exact hop (Nat.not_lt.1 hlt) hread.hasOp
    · rw [heq]
      exact iff_of_true rfl ⟨[], line, ls, rfl, fun _ h => (nomatch h), hop, hle⟩

/-! ## Files -/

theorem room_le (file : List Char) (maxLen : BitVec 32) : room file maxLen ≤ maxLen.toNat := by
  unfold room
  split
  · exact Nat.le_refl _
  · rename_i h
    exact BitVec.not_lt.1 h

theorem forall_readAs {ls : List (List Char)} {es : List E} (h : List.Forall₂ (ReadAs fmt) ls es) :
    ∀ l ∈ ls, ∃ e, ReadAs fmt l e := by
  induction h with
  | nil => exact fun _ h => nomatch h
  | cons hread _ ih => exact List.forall_mem_cons.2 ⟨⟨_, hread⟩, ih⟩

/-- More records than entries, none of them malformed. -/
theorem exists_last {ls : List (List Char)} {es : List E} {n : Nat} (h : List.Forall₂ (ReadAs fmt) ls es)
    (hn : n < es.length) : ∃ pre line suf, ls = pre ++ line :: suf ∧ (∀ l ∈ pre, ∃ e, ReadAs fmt l e) ∧
      HasOp fmt line ∧ pre.length = n := by
  have hlen := h.length_eq
  have hall := forall_readAs h
  have hsplit : ls = ls.take n ++ ls[n] :: ls.drop (n + 1) := by
    rw [List.getElem_cons_drop, List.take_append_drop]
  obtain ⟨e, hread⟩ := hall ls[n] (List.getElem_mem _)
  exact ⟨_, _, _, hsplit, fun l hl => hall l (List.mem_of_mem_take hl), hread.hasOp,
    List.length_take_of_le (by omega)⟩

theorem gcfOk_of_meaning (m : Meaning fmt) (file : List Char) (maxLen : BitVec 32) :
    GcfOk fmt file maxLen (readGcf fmt file maxLen) ↔ GcfFits fmt file maxLen := by
  have hread : readGcf fmt file maxLen = takeRecords fmt (room file maxLen) (records file) [] := readLoop_eq m ..
  have hle := room_le file maxLen
  have houtside : takeRecords fmt (room file maxLen) (records file) [] = .outside ↔ _ :=
    takeRecords_outside_iff _ (Nat.zero_le (room file maxLen))
  have hgcl : ∀ es, takeRecords fmt (room file maxLen) (records file) [] = .gcl es ↔
      List.Forall₂ (ReadAs fmt) (records file) es ∧ es.length ≤ room file maxLen := by
    intro es
    rw [takeRecords_gcl_iff (Nat.zero_le _)]
    refine ⟨fun ⟨new, he, hnew, hlen⟩ => ?_, fun ⟨hnew, hlen⟩ => ⟨es, rfl, hnew, by simpa using hlen⟩⟩
    obtain rfl : es = new := he
    exact ⟨hnew, by simpa using hlen⟩
  rw [hread]
  constructor
  · intro h
    have hroom : ∀ pre line suf, records file = pre ++ line :: suf → (∀ l ∈ pre, ∃ e, ReadAs fmt l e) → HasOp fmt line →
        pre.length < room file maxLen := by
      intro pre line suf hrec hpre hop
      refine Nat.not_le.1 fun hle => h.inside (houtside.2 ⟨pre, line, suf, hrec, hpre, hop, ?_⟩)
      rwa [List.length_nil, Nat.zero_add]
    refine ⟨hroom, fun es hes => (h.ordered es ((hgcl es).2 ⟨hes, Nat.not_lt.1 fun hlt => ?_⟩)).2⟩
    obtain ⟨pre, line, suf, hrec, hpre, hop, hlen⟩ := exists_last hes hlt
    exact absurd hlen (hroom pre line suf hrec hpre hop).ne
  · intro h
    have hinside : takeRecords fmt (room file maxLen) (records file) [] ≠ .outside := by
      intro hc
      obtain ⟨pre, line, suf, hrec, hpre, hop, hlen⟩ := houtside.1 hc
      rw [List.length_nil, Nat.zero_add] at hlen
      exact absurd (h.room pre line suf hrec hpre hop) (Nat.not_lt.2 hlen)
    have hordered : ∀ es, takeRecords fmt (room file maxLen) (records file) [] = .gcl es →
        es.length ≤ maxLen.toNat ∧ List.Forall₂ (ReadAs fmt) (recordLines (lines file)) es := by
      intro es hes
      obtain ⟨hnew, hlen⟩ := (hgcl es).1 hes
      exact ⟨hlen.trans hle, h.whole es hnew⟩
    refine ⟨hinside, hordered, fun hbad => ?_⟩
    cases hr : takeRecords fmt (room file maxLen) (records file) [] with
    | null => rfl
    | outside => exact absurd hr hinside
    | gcl es =>
      obtain ⟨hlen, hlines⟩ := hordered es hr
      rcases hbad with hmany | ⟨line, hmem, hno⟩
      · rw [hlines.length_eq] at hmany
        exact absurd hlen (Nat.not_le.2 hmany)
      · obtain ⟨e, hread⟩ := forall_readAs hlines line hmem
        exact absurd hread (hno e)

theorem lines_cons {c : Char} (hc : c ≠ '\n') (cs : List Char) :
    lines (c :: cs) = [[c]] ∧ cs = [] ∨ ∃ l ls, lines cs = l :: ls ∧ l ≠ [] ∧ lines (c :: cs) = (c :: l) :: ls := by
  rw [lines, if_neg hc]
  cases cs with
  | nil => exact .inl ⟨rfl, rfl⟩
  | cons d cs =>
    refine .inr ?_
    rw [lines]
    split
    · exact ⟨_, _, rfl, List.cons_ne_nil _ _, rfl⟩
    · split
      · exact ⟨_, _, rfl, List.cons_ne_nil _ _, rfl⟩
      · exact ⟨_, _, rfl, List.cons_ne_nil _ _, rfl⟩

/-- Lines that fit the buffer are read as they are. -/
theorem fgetsAll_eq_lines {n : Nat} {file : List Char} (hall : ∀ l ∈ lines file, l.length ≤ MAX_REC - 1)
    (hfirst : ∀ l ∈ (lines file).head?, l.length ≤ n) : fgetsAll n file = lines file := by
  induction file generalizing n with
  | nil => rw [fgetsAll, lines]
  | cons c cs ih =>
    rw [fgetsAll]
    by_cases hc : c = '\n'
    · rw [lines, if_pos hc] at hall ⊢
      obtain ⟨-, hall⟩ := List.forall_mem_cons.1 hall
      rw [if_pos (.inl hc), ih hall fun l hl => hall l (List.mem_of_mem_head? hl)]
    · obtain ⟨hlines, rfl⟩ | ⟨l, ls, hls, hne, hlines⟩ := lines_cons hc cs
      · rw [hlines]
        simp only [fgetsAll, ite_self]
      · have hlen := List.length_pos_iff.2 hne
        rw [hlines] at hall hfirst ⊢
        obtain ⟨hl, hall⟩ := List.forall_mem_cons.1 hall
        have hfirst := hfirst (c :: l) rfl
        rw [List.length_cons] at hl hfirst
        rw [if_neg (not_or.2 ⟨hc, by omega⟩), ih (by rw [hls]; exact List.forall_mem_cons.2 ⟨by omega, hall⟩) ?_, hls]
        rintro l' hl'
        rw [hls] at hl'
        obtain rfl := Option.some.inj hl'
        omega

/-- With lines of at most 100 characters it is only the number of records that
counts. -/
theorem gcfFits_of_short {file : List Char} {maxLen : BitVec 32} (hall : ∀ l ∈ lines file, l.length ≤ MAX_REC - 1)
    (hroom : ∀ pre line suf, records file = pre ++ line :: suf → (∀ l ∈ pre, ∃ e, ReadAs fmt l e) → HasOp fmt line →
      pre.length < room file maxLen) : GcfFits fmt file maxLen := by
  have hrecords : records file = recordLines (lines file) := by
    rw [records, fgetsAll_eq_lines hall fun l hl => hall l (List.mem_of_mem_head? hl)]
  refine ⟨hroom, fun es hes => ?_⟩
  rwa [hrecords] at hes

/-- **Both kinds of files: what is returned has the records of the lines in their
order, and too many or malformed ones are refused without a write outside the
array, exactly if the records fit the array and the pieces of the lines have their
entries.** -/
theorem gcfOk_iff (file : List Char) (maxLen : BitVec 32) :
    (GcfOk stFormat file maxLen (stReadGcf file maxLen) ↔ GcfFits stFormat file maxLen) ∧
    (GcfOk psfpFormat file maxLen (psfpReadGcf file maxLen) ↔ GcfFits psfpFormat file maxLen) :=
  ⟨gcfOk_of_meaning stMeaning file maxLen, gcfOk_of_meaning psfpMeaning file maxLen⟩

/-- Two records for an array of one. -/
theorem not_gcfOk_two :
    (¬ ∀ file maxLen, GcfOk stFormat file maxLen (stReadGcf file maxLen)) ∧
    ¬ ∀ file maxLen, GcfOk psfpFormat file maxLen (psfpReadGcf file maxLen) := by
  refine ⟨fun h => (h "sgs 1 1\nsgs 2 2\n".toList 1).inside ?_, fun h => (h "sgi 1 1 0\nsgi 2 2 0\n".toList 1).inside ?_⟩
  · decide
  · decide

end TsnSwitch.Gcf
