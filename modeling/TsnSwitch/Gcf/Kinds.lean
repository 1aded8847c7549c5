/-
The files of the ports and of the stream gates: each list that fits is read back,
and each record is read as it stands unless its interval or its state is cut
(`gcf_iff`).
-/
import TsnSwitch.Gcf.RoundTrip

namespace TsnSwitch.Gcf

open Lib

/-! ## Lines of plain words -/

/-- A character that is neither a space nor the end of anything. -/
def IsPlain (c : Char) : Prop := 33 ≤ c.toNat ∧ c.toNat ≤ 126

instance (c : Char) : Decidable (IsPlain c) := inferInstanceAs (Decidable (_ ∧ _))

def PlainWord (v : List Char) : Prop := v ≠ [] ∧ ∀ c ∈ v, IsPlain c

instance (v : List Char) : Decidable (PlainWord v) := @instDecidableAnd _ _ inferInstance (List.decidableBAll IsPlain v)

theorem IsPlain.ne {c d : Char} (h : IsPlain c) (hd : ¬ IsPlain d) : c ≠ d := fun he => hd (he ▸ h)

theorem IsPlain.not_space {c : Char} (h : IsPlain c) : isSpace c = false := by
  have hs : c ≠ ' ' := h.ne (by decide)
  obtain ⟨h1, h2⟩ := h
  simp only [isSpace, Bool.or_eq_false_iff, beq_eq_false_iff_ne, ne_eq, hs, not_false_eq_true, true_and,
    Bool.and_eq_false_iff, decide_eq_false_iff_not]
  omega

theorem PlainWord.word {v : List Char} (h : PlainWord v) : v ≠ [] ∧ ' ' ∉ v :=
  ⟨h.1, fun hm => absurd (h.2 _ hm) (by decide)⟩

theorem plain_toDigits (n : Nat) : PlainWord (Nat.toDigits 10 n) := by
  refine ⟨Nat.toDigits_ne_nil, fun c hc => ?_⟩
  obtain ⟨h1, h2⟩ := isDigit_range (isDigit_toDigits n c hc)
  exact ⟨by omega, by omega⟩

theorem plain_decimal (i : Int) : PlainWord (decimal i) := by
  cases i with
  | ofNat n => exact plain_toDigits n
  | negSucc n =>
    refine ⟨decimal_ne_nil _, fun c hc => ?_⟩
    rcases List.mem_cons.1 hc with rfl | hc
    · decide
    · exact (plain_toDigits (n + 1)).2 c hc

theorem plain_hex (n : Nat) : PlainWord ('0' :: 'x' :: printHex2 n) := by
  have hupper : ∀ d < 16, IsPlain d.digitChar.toUpper := by decide
  refine ⟨List.cons_ne_nil _ _, fun c hc => ?_⟩
  rw [List.mem_cons, List.mem_cons, printHex2, List.mem_append] at hc
  rcases hc with rfl | rfl | hc | hc
  · decide
  · decide
  · rw [List.eq_of_mem_replicate hc]
    decide
  · obtain ⟨c', hc', rfl⟩ := List.mem_map.1 hc
    obtain ⟨d, hd, rfl⟩ := mem_toDigits (by decide) hc'
    exact hupper d hd

/-- Plain words with spaces between them make a line that is read as it stands. -/
theorem line_spaced {w : List Char} {rest : List (Nat × List Char)}
    (hw : ∀ v ∈ w :: rest.map Prod.snd, PlainWord v) (hcomment : w.head? ≠ some '#')
    (hshort : (spaced ' ' w rest).length < MAX_REC - 1) : Line (spaced ' ' w rest) := by
  have hmem : ∀ c ∈ spaced ' ' w rest, c = ' ' ∨ IsPlain c := fun c hc =>
    (mem_spaced hc).imp_right fun ⟨v, hv, hcv⟩ => (hw v hv).2 c hcv
  have hnot : ∀ d, d ≠ ' ' → ¬ IsPlain d → d ∉ spaced ' ' w rest := fun d hd hp hm => (hmem d hm).elim hd hp
  obtain ⟨hne, hplain⟩ := hw w (List.mem_cons_self ..)
  obtain ⟨t, ht⟩ := spaced_eq_append ' ' w rest
  obtain ⟨c, w', rfl⟩ := List.exists_cons_of_ne_nil hne
  have hfirst := (hplain c (List.mem_cons_self ..)).not_space
  refine ⟨hshort, hnot _ (by decide) (by decide), ?_, ?_, ?_⟩
  · have hcstr : cstr (spaced ' ' (c :: w') rest ++ ['\n']) = spaced ' ' (c :: w') rest ++ ['\n'] := by
      refine List.takeWhile_eq_self_iff.2 fun d hd => decide_eq_true fun he => ?_
      rw [he] at hd
      rcases List.mem_append.1 hd with hd | hd
      · exact hnot NUL (by decide) (by decide) hd
      · exact absurd (List.mem_singleton.1 hd) (by decide)
    have hdrop : (spaced ' ' (c :: w') rest ++ ['\n']).dropWhile isSpace = spaced ' ' (c :: w') rest ++ ['\n'] := by
      rw [ht]
      exact List.dropWhile_cons_of_neg (by rw [hfirst]; decide)
    rw [trim, hcstr, hdrop, List.rdropWhile_concat_pos _ _ _ (by decide), List.rdropWhile_eq_self_iff]
    intro hl
    obtain ⟨s, v, hv, hs⟩ := spaced_eq_append_last ' ' (c :: w') rest
    obtain ⟨hvne, hvplain⟩ := hw v hv
    have hlast : (spaced ' ' (c :: w') rest).getLast hl = v.getLast hvne := by
      simp only [hs, List.getLast_append_of_ne_nil _ hvne]
    rw [hlast, (hvplain _ (List.getLast_mem hvne)).not_space]
    decide
  · rw [ht]
    exact List.cons_ne_nil _ _
  · rw [ht]
    exact hcomment

/-! ## Ports -/

/-- The words of an interval and of a state that are accepted. -/
structure Accepted (i g : List Char) (vi vg : Int) : Prop where
  interval : denotes 10 i = some vi
  gsv : denotes 0 g = some vg
  taken : GsvTaken vg

/-- The interval and the state fit their fields. -/
def Fit (vi vg : Int) : Prop := (0 ≤ vi ∧ vi < 2 ^ 32) ∧ 0 ≤ vg

theorem Accepted.fit_iff {i g : List Char} {vi vg : Int} (h : Accepted i g vi vg) :
    Fit vi vg ↔ denotes 10 i = some (((ulong vi).setWidth 32).toNat : Int) ∧
      denotes 0 g = some ((BitVec.ofInt 8 vg).toNat : Int) := by
  rw [h.interval, h.gsv, Option.some.injEq, Option.some.injEq, Fit, ← interval_iff, ← gsv_iff h.taken]
  exact and_congr eq_comm eq_comm

/-- The numbers behind the operation. -/
theorem st_entry_iff {op : BitVec 8} {s : List Char} {e : StGateControlEntry} :
    stFormat.entry op s = some e ↔
      ∃ i g vi vg, words ' ' s = [i, g] ∧ Accepted i g vi vg ∧
        e = ⟨(ulong vi).setWidth 32, op, BitVec.ofInt 8 vg⟩ := by
  simp only [stFormat, Option.bind_eq_bind, Option.bind_eq_some_iff, Prod.exists, Option.ite_none_left_eq_some,
    Option.isSome_iff_ne_none, not_not, Option.some.injEq]
  constructor
  · rintro ⟨i, t, hi, interval, hinterval, g, t', hg, gsv, hgsv, hend, rfl⟩
    obtain ⟨hws, hine⟩ := words_of_strtok hi
    obtain ⟨hws', hgne⟩ := words_of_strtok hg
    obtain ⟨vi, hvi, rfl⟩ := (parseInterval_iff hine).1 hinterval
    obtain ⟨vg, hvg, htaken, rfl⟩ := (parseGsv_iff hgne).1 hgsv
    refine ⟨i, g, vi, vg, ?_, ⟨hvi, hvg, htaken⟩, rfl⟩
    rw [hws, hws', strtok_none_iff.1 hend]
  · rintro ⟨i, g, vi, vg, hws, ha, rfl⟩
    obtain ⟨t, hi, hws⟩ := strtok_iff.1 hws
    obtain ⟨t', hg, hend⟩ := strtok_iff.1 hws
    exact ⟨i, t, hi, _, (parseInterval_iff (words_of_strtok hi).2).2 ⟨vi, ha.interval, rfl⟩, g, t', hg, _,
      (parseGsv_iff (words_of_strtok hg).2).2 ⟨vg, ha.gsv, ha.taken, rfl⟩, strtok_none_iff.2 hend, rfl⟩

def stMeaning : Meaning stFormat where
  reads toks op e := e.op = op ∧
    ∃ i g, toks = [i, g] ∧ denotes 10 i = some (e.interval.toNat : Int) ∧ denotes 0 g = some (e.gsv.toNat : Int)
  cut toks := ∃ i g vi vg, toks = [i, g] ∧ Accepted i g vi vg ∧ ¬ Fit vi vg
  of_entry op s e he := by
    obtain ⟨i, g, vi, vg, hws, ha, rfl⟩ := st_entry_iff.1 he
    by_cases hfit : Fit vi vg
    · exact .inl ⟨rfl, i, g, hws, ha.fit_iff.1 hfit⟩
    · exact .inr ⟨i, g, vi, vg, hws, ha, hfit⟩
  of_cut op s hcut := by
    obtain ⟨i, g, vi, vg, hws, ha, hfit⟩ := hcut
    refine ⟨_, st_entry_iff.2 ⟨i, g, vi, vg, hws, ha, rfl⟩, ?_⟩
    rintro ⟨-, i', g', hws', hr⟩
    obtain ⟨rfl, h⟩ := List.cons.inj (hws.symm.trans hws')
    obtain ⟨rfl, -⟩ := List.cons.inj h
    exact hfit (ha.fit_iff.2 hr)
  unknown := by decide

def stText (e : StGateControlEntry) : List Char :=
  spaced ' ' (stGcfOp e.op) [(1, Nat.toDigits 10 e.interval.toNat), (1, '0' :: 'x' :: printHex2 e.gsv.toNat)]

theorem length_interval (v : BitVec 32) : (Nat.toDigits 10 v.toNat).length ≤ 10 :=
  (Nat.length_toDigits_le_iff (by decide) (by decide)).2 (by have := v.isLt; omega)

theorem stGcfOp_cases (op : BitVec 8) :
    PlainWord (stGcfOp op) ∧ (stGcfOp op).head? ≠ some '#' ∧ (stGcfOp op).length ≤ 9 := by
  unfold stGcfOp
  split
  · decide
  split
  · decide
  split <;> decide

/-- The words of a printed entry. -/
theorem stText_plain (e : StGateControlEntry) :
    ∀ v ∈ [stGcfOp e.op, Nat.toDigits 10 e.interval.toNat, '0' :: 'x' :: printHex2 e.gsv.toNat], PlainWord v := by
  simp only [List.forall_mem_cons]
  exact ⟨(stGcfOp_cases e.op).1, plain_toDigits _, plain_hex _, fun _ h => nomatch h⟩

theorem stText_words (e : StGateControlEntry) :
    words ' ' (stText e) = [stGcfOp e.op, Nat.toDigits 10 e.interval.toNat, '0' :: 'x' :: printHex2 e.gsv.toNat] :=
  words_spaced fun v hv => (stText_plain e v hv).word

theorem stText_line (e : StGateControlEntry) : Line (stText e) := by
  obtain ⟨-, hcomment, hlen⟩ := stGcfOp_cases e.op
  refine line_spaced (stText_plain e) hcomment ?_
  have hi := length_interval e.interval
  have hg := length_printHex2 e.gsv.isLt
  simp only [spaced, List.length_append, List.length_cons, List.length_replicate, MAX_REC]
  omega

/-- The operations that have a name. -/
def StKnown (op : BitVec 8) : Prop :=
  op = TSN_ST_OP_SET_GATE_STATES ∨ op = TSN_ST_OP_SET_AND_HOLD_MAC ∨ op = TSN_ST_OP_SET_AND_RELEASE_MAC

instance (op : BitVec 8) : Decidable (StKnown op) := inferInstanceAs (Decidable (_ ∨ _ ∨ _))

theorem accepted_printed (i : BitVec 32) (g : BitVec 8) :
    Accepted (Nat.toDigits 10 i.toNat) ('0' :: 'x' :: printHex2 g.toNat) i.toNat g.toNat where
  interval := denotes_toDigits _
  gsv := denotes_printHex2 _
  taken := .inl ⟨by omega, by have := g.isLt; omega⟩

theorem ulong_printed (i : BitVec 32) : (ulong i.toNat).setWidth 32 = i := by
  have h := (interval_iff i.toNat).2 ⟨by omega, by have := i.isLt; omega⟩
  exact BitVec.eq_of_toNat_eq (by omega)

theorem gsv_printed (g : BitVec 8) : BitVec.ofInt 8 g.toNat = g := by
  rw [BitVec.ofInt_natCast, BitVec.ofNat_toNat, BitVec.setWidth_eq]

def stWriter : Writer stFormat where
  record e := if e.op = TSN_ST_OP_EXCESS then [] else stText e ++ ['\n']
  known e := StKnown e.op
  of_known e he := by
    have hknown : StKnown e.op := of_decide_eq_true he
    have hop : e.op ≠ TSN_ST_OP_EXCESS ∧ stFormat.op (stGcfOp e.op) = some e.op := by
      rcases hknown with h | h | h <;> rw [h] <;> decide
    obtain ⟨t, hs, hws⟩ := strtok_iff.1 (stText_words e)
    refine ⟨stText e, if_neg hop.1, stText_line e, parseRecord_stored_iff.2 ⟨_, t, e.op, hs, hop.2, ?_⟩⟩
    refine st_entry_iff.2 ⟨_, _, _, _, hws, accepted_printed e.interval e.gsv, ?_⟩
    rw [ulong_printed, gsv_printed]
  of_unknown e he := by
    have hknown : ¬ StKnown e.op := of_decide_eq_false he
    by_cases hexcess : e.op = TSN_ST_OP_EXCESS
    · exact .inl (if_pos hexcess)
    · refine .inr ⟨stText e, if_neg hexcess, stText_line e, ?_⟩
      obtain ⟨h1, h2, h3⟩ : _ ∧ _ ∧ _ := by simpa only [StKnown, not_or] using hknown
      rw [stText_words, stGcfOp, if_neg h1, if_neg h2, if_neg h3]
      rfl

theorem stWriteGcf_eq (es : List StGateControlEntry) : stWriteGcf es = es.flatMap stWriter.record := by
  have hrecord : ∀ e, stWriter.record e = if e.op = TSN_ST_OP_EXCESS then [] else stText e ++ ['\n'] := fun _ => rfl
  refine congrArg es.flatMap (funext fun e => ?_)
  rw [hrecord]
  congr 1
  simp only [stText, spaced, List.append_assoc, List.cons_append, List.replicate_succ, List.replicate_zero,
    List.nil_append]
  rfl

/-! ## Stream gates -/

theorem psfp_entry_iff {op : BitVec 8} {s : List Char} {e : PsfpGateControlEntry} :
    psfpFormat.entry op s = some e ↔
      ∃ i g p vi vg vp, words ' ' s = [i, g, p] ∧ Accepted i g vi vg ∧
        (denotes 0 p = some vp ∧ INT8_MIN ≤ vp ∧ vp ≤ INT8_MAX) ∧
        e = ⟨(ulong vi).setWidth 32, op, BitVec.ofInt 8 vg, BitVec.ofInt 8 vp⟩ := by
  simp only [psfpFormat, Option.bind_eq_bind, Option.bind_eq_some_iff, Prod.exists, Option.ite_none_left_eq_some,
    Option.isSome_iff_ne_none, not_not, Option.some.injEq]
  constructor
  · rintro ⟨i, t, hi, interval, hinterval, g, t', hg, gsv, hgsv, p, t'', hp, ipv, hipv, hend, rfl⟩
    obtain ⟨hws, hine⟩ := words_of_strtok hi
    obtain ⟨hws', hgne⟩ := words_of_strtok hg
    obtain ⟨hws'', hpne⟩ := words_of_strtok hp
    obtain ⟨vi, hvi, rfl⟩ := (parseInterval_iff hine).1 hinterval
    obtain ⟨vg, hvg, htaken, rfl⟩ := (parseGsv_iff hgne).1 hgsv
    obtain ⟨vp, hvp, hrange, rfl⟩ := (parseIpv_iff hpne).1 hipv
    refine ⟨i, g, p, vi, vg, vp, ?_, ⟨hvi, hvg, htaken⟩, ⟨hvp, hrange⟩, rfl⟩
    rw [hws, hws', hws'', strtok_none_iff.1 hend]
  · rintro ⟨i, g, p, vi, vg, vp, hws, ha, hvp, rfl⟩
    obtain ⟨t, hi, hws⟩ := strtok_iff.1 hws
    obtain ⟨t', hg, hws⟩ := strtok_iff.1 hws
    obtain ⟨t'', hp, hend⟩ := strtok_iff.1 hws
    exact ⟨i, t, hi, _, (parseInterval_iff (words_of_strtok hi).2).2 ⟨vi, ha.interval, rfl⟩, g, t', hg, _,
      (parseGsv_iff (words_of_strtok hg).2).2 ⟨vg, ha.gsv, ha.taken, rfl⟩, p, t'', hp, _,
      (parseIpv_iff (words_of_strtok hp).2).2 ⟨vp, hvp.1, hvp.2, rfl⟩, strtok_none_iff.2 hend, rfl⟩

def psfpMeaning : Meaning psfpFormat where
  reads toks op e := e.op = op ∧
    ∃ i g p, toks = [i, g, p] ∧ denotes 10 i = some (e.interval.toNat : Int) ∧
      denotes 0 g = some (e.gsv.toNat : Int) ∧ denotes 0 p = some e.ipv.toInt
  cut toks := ∃ i g p vi vg vp, toks = [i, g, p] ∧ Accepted i g vi vg ∧
    (denotes 0 p = some vp ∧ INT8_MIN ≤ vp ∧ vp ≤ INT8_MAX) ∧ ¬ Fit vi vg
  of_entry op s e he := by
    obtain ⟨i, g, p, vi, vg, vp, hws, ha, hp, rfl⟩ := psfp_entry_iff.1 he
    by_cases hfit : Fit vi vg
    · obtain ⟨hi, hg⟩ := ha.fit_iff.1 hfit
      exact .inl ⟨rfl, i, g, p, hws, hi, hg, by rw [ipv_eq hp.2]; exact hp.1⟩
    · exact .inr ⟨i, g, p, vi, vg, vp, hws, ha, hp, hfit⟩
  of_cut op s hcut := by
    obtain ⟨i, g, p, vi, vg, vp, hws, ha, hp, hfit⟩ := hcut
    refine ⟨_, psfp_entry_iff.2 ⟨i, g, p, vi, vg, vp, hws, ha, hp, rfl⟩, ?_⟩
    rintro ⟨-, i', g', p', hws', hi, hg, -⟩
    obtain ⟨rfl, h⟩ := List.cons.inj (hws.symm.trans hws')
    obtain ⟨rfl, -⟩ := List.cons.inj h
    exact hfit (ha.fit_iff.2 ⟨hi, hg⟩)
  unknown := by decide

def psfpText (e : PsfpGateControlEntry) : List Char :=
  spaced ' ' (psfpGcfOp e.op)
    [(1, Nat.toDigits 10 e.interval.toNat), (1, '0' :: 'x' :: printHex2 e.gsv.toNat), (0, decimal e.ipv.toInt)]

theorem psfpGcfOp_cases (op : BitVec 8) :
    PlainWord (psfpGcfOp op) ∧ (psfpGcfOp op).head? ≠ some '#' ∧ (psfpGcfOp op).length ≤ 9 := by
  unfold psfpGcfOp
  split <;> decide

theorem length_decimal (v : BitVec 8) : (decimal v.toInt).length ≤ 4 := by
  have hlen : ∀ n < 10 ^ 3, (Nat.toDigits 10 n).length ≤ 3 := fun n hn =>
    (Nat.length_toDigits_le_iff (by decide) (by decide)).2 hn
  have hlt := BitVec.toInt_lt (x := v)
  have hle := BitVec.le_toInt v
  cases hv : v.toInt with
  | ofNat n =>
    have hn : (n : Int) = v.toInt := hv.symm
    have h := hlen n (by omega)
    rw [decimal]
    omega
  | negSucc n =>
    have h := hlen (n + 1) (by omega)
    rw [decimal, List.length_cons]
    omega

theorem psfpText_plain (e : PsfpGateControlEntry) :
    ∀ v ∈ [psfpGcfOp e.op, Nat.toDigits 10 e.interval.toNat, '0' :: 'x' :: printHex2 e.gsv.toNat, decimal e.ipv.toInt],
      PlainWord v := by
  simp only [List.forall_mem_cons]
  exact ⟨(psfpGcfOp_cases e.op).1, plain_toDigits _, plain_hex _, plain_decimal _, fun _ h => nomatch h⟩

theorem psfpText_words (e : PsfpGateControlEntry) :
    words ' ' (psfpText e) =
      [psfpGcfOp e.op, Nat.toDigits 10 e.interval.toNat, '0' :: 'x' :: printHex2 e.gsv.toNat, decimal e.ipv.toInt] :=
  words_spaced fun v hv => (psfpText_plain e v hv).word

theorem psfpText_line (e : PsfpGateControlEntry) : Line (psfpText e) := by
  obtain ⟨-, hcomment, hlen⟩ := psfpGcfOp_cases e.op
  refine line_spaced (psfpText_plain e) hcomment ?_
  have hi := length_interval e.interval
  have hg := length_printHex2 e.gsv.isLt
  have hp := length_decimal e.ipv
  simp only [spaced, List.length_append, List.length_cons, List.length_replicate, MAX_REC]
  omega

def psfpWriter : Writer psfpFormat where
  record e := psfpText e ++ ['\n']
  known e := e.op = TSN_PSFP_GT_OP_SET_GATE_AND_IPV
  of_known e he := by
    have hknown : e.op = TSN_PSFP_GT_OP_SET_GATE_AND_IPV := of_decide_eq_true he
    have hop : psfpFormat.op (psfpGcfOp e.op) = some e.op := by
      rw [hknown]
      decide
    obtain ⟨t, hs, hws⟩ := strtok_iff.1 (psfpText_words e)
    refine ⟨psfpText e, rfl, psfpText_line e, parseRecord_stored_iff.2 ⟨_, t, e.op, hs, hop, ?_⟩⟩
    refine psfp_entry_iff.2 ⟨_, _, _, _, _, e.ipv.toInt, hws, accepted_printed e.interval e.gsv,
      ⟨denotes_decimal _, ?_⟩, ?_⟩
    · have hlt := BitVec.toInt_lt (x := e.ipv)
      have hle := BitVec.le_toInt e.ipv
      exact ⟨hle, by unfold INT8_MAX; omega⟩
    · rw [ulong_printed, gsv_printed, BitVec.ofInt_toInt]
  of_unknown e he := by
    refine .inr ⟨psfpText e, rfl, psfpText_line e, ?_⟩
    rw [psfpText_words, psfpGcfOp, if_neg (of_decide_eq_false he)]
    rfl

theorem psfpWriteGcf_eq (es : List PsfpGateControlEntry) : psfpWriteGcf es = es.flatMap psfpWriter.record := by
  refine congrArg es.flatMap (funext fun e => ?_)
  unfold psfpWriter psfpText
  simp only [spaced, List.append_assoc, List.cons_append, List.replicate_succ, List.replicate_zero, List.nil_append]
  rfl

/-- **A list of known operations is read back exactly when it fits the array, and
what is accepted is read as it stands exactly when no number of it is cut.** -/
theorem gcf_iff (file line : List Char) (maxLen : BitVec 32) :
    ((∀ es, stReadGcf (stWriteGcf es) maxLen = .gcl es ↔
        (∀ e ∈ es, StKnown e.op) ∧ es.length ≤ maxLen.toNat ∧ es.length + 1 < 2 ^ 32) ∧
      ((∀ e, parseRecord stFormat true line = .stored e → Reads stMeaning line e) ↔ ¬ Cut stMeaning line) ∧
      ∀ es, stReadGcf file maxLen = .gcl es →
        (List.Forall₂ (Reads stMeaning) (records file) es ↔ ∀ line ∈ records file, ¬ Cut stMeaning line)) ∧
    ((∀ es, psfpReadGcf (psfpWriteGcf es) maxLen = .gcl es ↔
        (∀ e ∈ es, e.op = TSN_PSFP_GT_OP_SET_GATE_AND_IPV) ∧ es.length ≤ maxLen.toNat ∧ es.length + 1 < 2 ^ 32) ∧
      ((∀ e, parseRecord psfpFormat true line = .stored e → Reads psfpMeaning line e) ↔ ¬ Cut psfpMeaning line) ∧
      ∀ es, psfpReadGcf file maxLen = .gcl es →
        (List.Forall₂ (Reads psfpMeaning) (records file) es ↔ ∀ line ∈ records file, ¬ Cut psfpMeaning line)) := by
  refine ⟨⟨fun es => ?_, accepts_iff stMeaning line, fun es h => file_reads_iff stMeaning h⟩,
    ⟨fun es => ?_, accepts_iff psfpMeaning line, fun es h => file_reads_iff psfpMeaning h⟩⟩
  · rw [stWriteGcf_eq, stReadGcf, read_write_iff stMeaning stWriter]
    exact and_congr_left' (forall₂_congr fun _ _ => decide_eq_true_iff)
  · rw [psfpWriteGcf_eq, psfpReadGcf, read_write_iff psfpMeaning psfpWriter]
    exact and_congr_left' (forall₂_congr fun _ _ => decide_eq_true_iff)

/-- A file of one record is read as it stands. -/
theorem gcf_iff_one :
    stReadGcf "sgs 5 0x01\n".toList 4 = .gcl [⟨5, 0, 1⟩] ∧
      (List.Forall₂ (Reads stMeaning) (records "sgs 5 0x01\n".toList) [⟨5, 0, 1⟩] ↔
        ∀ line ∈ records "sgs 5 0x01\n".toList, ¬ Cut stMeaning line) ∧
      psfpReadGcf "sgi 5 1 -1".toList 4 = .gcl [⟨5, 0, 1, -1⟩] ∧
      (List.Forall₂ (Reads psfpMeaning) (records "sgi 5 1 -1".toList) [⟨5, 0, 1, -1⟩] ↔
        ∀ line ∈ records "sgi 5 1 -1".toList, ¬ Cut psfpMeaning line) :=
  ⟨by decide, (gcf_iff _ [] 4).1.2.2 _ (by decide), by decide, (gcf_iff _ [] 4).2.2.2 _ (by decide)⟩

/-- An interval of 2 ^ 32 is accepted, and read as zero. -/
theorem not_reads_long_interval :
    ¬ ∀ e, parseRecord stFormat true "sgs 4294967296 0xFF".toList = .stored e →
      Reads stMeaning "sgs 4294967296 0xFF".toList e := by
  intro h
  obtain ⟨tok, toks, op, hw, -, -, i, g, rfl, hi, -⟩ := h ⟨0, 0, 255⟩ (by decide)
  have hwords : words ' ' "sgs 4294967296 0xFF".toList = ["sgs".toList, "4294967296".toList, "0xFF".toList] := by decide
  obtain ⟨-, h⟩ := List.cons.inj (hwords.symm.trans hw)
  obtain ⟨rfl, -⟩ := List.cons.inj h
  exact absurd hi (by decide)

end TsnSwitch.Gcf
