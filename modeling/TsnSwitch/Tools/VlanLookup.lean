/-
Looking up VLANs, FIDs and interfaces in the output of `bridge` and `mstpctl`
(base_q_bridge_linux_tools.c).

A lookup of a VLAN is about one port, and answers with its return value or
with the word for a tagged or an untagged VLAN. All lookups find an id
anywhere in a line, so they are exact where no other line contains it
(`lookups_exact`).
-/
import TsnSwitch.Tools.Lines

namespace TsnSwitch.Tools

open Lib
open Base (MAX_STR_LEN BASE_FIVE BASE_MAX_VID EXIT_SUCCESS EXIT_FAILURE)

def Q_BRIDGE_VLAN_UNTAGGED : String := "Untagged"
def Q_BRIDGE_VALUE_FID_STR : String := " FID"
def COLON_STR : String := ":"
def BASE_EIGHT : Nat := 8

/-! ## The functions -/

/-- The match case for a VID behind a blank. -/
def vlanCase (vid : List Char) : List Char := (' ' :: vid).take (MAX_STR_LEN - 1)

def bridgeVidsCase (bridgeVids : List Char) : List Char := bridgeVids.take (MAX_STR_LEN - 1)

def portIdCase (portId : List Char) : List Char := (portId ++ [':']).take (MAX_STR_LEN - 1)

def getUntaggedPortNames (sh : Shape) (vid : List Char) (output : Option (List Char)) :
    Except Overrun (Nat × Matrix) :=
  getObject [(some .andCombinator, [onLine (vlanCase vid), onLine Q_BRIDGE_VLAN_UNTAGGED.toList])] sh output

def getEgressPortNames (sh : Shape) (vid : List Char) (output : Option (List Char)) :
    Except Overrun (Nat × Matrix) :=
  getObject [(some .repeatUntilNullWithCheck, [onLine (vlanCase vid)])] sh output

def fidWord : ParserSpec := ⟨some .findAndGetNextWord, Q_BRIDGE_VALUE_FID_STR.toList⟩

def getMstpFidByVids (sh : Shape) (bridgeVids : List Char) (output : Option (List Char)) :
    Except Overrun (Nat × Matrix) :=
  getObject [(some .repeatUntilNullWithCheck, [onLine (bridgeVidsCase bridgeVids)] ++ [fidWord]),
    (some .noCombinator, single .arrayUntilMatchCase COLON_STR)] sh output

def idWord (portId : List Char) : ParserSpec := ⟨some .findAndGetNextWord, portIdCase portId⟩

def getInterfaceNameById (sh : Shape) (portId : List Char) (output : Option (List Char)) :
    Except Overrun (Nat × Matrix) :=
  getObject [(some .repeatUntilNullWithCheck, [] ++ [idWord portId]),
    (some .noCombinator, single .arrayDropPunctuation ""),
    (some .noCombinator, single .arrayUniqElements "")] sh output

/-! ## The outputs -/

/-- A VID or, where the output is compressed, an interval. -/
inductive VlanId where
  | vid (v : Nat)
  | interval (first last : Nat)

def VlanId.text : VlanId → List Char
  | .vid v => Nat.toDigits 10 v
  | .interval first last => Nat.toDigits 10 first ++ '-' :: Nat.toDigits 10 last

def VlanId.Covers (v : Nat) : VlanId → Prop
  | .vid v' => v' = v
  | .interval first last => first ≤ v ∧ v ≤ last

instance (v : Nat) : (id : VlanId) → Decidable (id.Covers v)
  | .vid v' => inferInstanceAs (Decidable (v' = v))
  | .interval first last => inferInstanceAs (Decidable (first ≤ v ∧ v ≤ last))

/-- A line of `bridge vlan show` for a port: a title, or a VLAN with its
flags behind the name of the port or blanks. -/
structure VlanRow where
  line : Line
  lead : List Char
  vlan : Option (VlanId × List Word)
  printed : line.text = lead ++ vlan.elim [] fun v => ' ' :: (v.1.text ++ v.2.flatMap fun w => ' ' :: w.text)

def vlanOutput (rows : List VlanRow) : List Char := outputOf (rows.map VlanRow.line)

/-- A line of `mstpctl showvid2fid`. -/
structure FidRow where
  line : Line
  blanks : Nat
  fid : Nat
  vids : List VlanId
  printed : line.text = List.replicate blanks ' ' ++ (Q_BRIDGE_VALUE_FID_STR.toList ++
    ' ' :: (Nat.toDigits 10 fid ++ ':' :: ' ' :: [','].intercalate (vids.map VlanId.text)))

/-- A title has no word for a FID. -/
structure FidTitle where
  line : Line
  noFid : ¬ line.Contains Q_BRIDGE_VALUE_FID_STR.toList

def fidOutput (titles : List FidTitle) (rows : List FidRow) : List Char :=
  outputOf (titles.map FidTitle.line ++ rows.map FidRow.line)

/-- A line of `bridge -o link show`. -/
structure LinkRow where
  line : Line
  index : Nat
  name : Word
  rest : List Char
  printed : line.text = Nat.toDigits 10 index ++ ':' :: ' ' :: (name.text ++ ':' :: ' ' :: rest)

def linkOutput (rows : List LinkRow) : List Char := outputOf (rows.map LinkRow.line)

/-! ## What the lookups are for -/

/-- The port has a VLAN. -/
def VlanRow.Carries (r : VlanRow) (v : Nat) : Prop := ∃ i ∈ r.vlan, i.1.Covers v

instance (r : VlanRow) (v : Nat) : Decidable (r.Carries v) := inferInstanceAs (Decidable (∃ i ∈ r.vlan, _))

/-- The port sends a VLAN without tags. -/
def VlanRow.Untagged (r : VlanRow) (v : Nat) : Prop :=
  ∃ i ∈ r.vlan, i.1.Covers v ∧ ∃ w ∈ i.2, w.text = Q_BRIDGE_VLAN_UNTAGGED.toList

instance (r : VlanRow) (v : Nat) : Decidable (r.Untagged v) := inferInstanceAs (Decidable (∃ i ∈ r.vlan, _ ∧ _))

def FidRow.Maps (r : FidRow) (v : Nat) : Prop := ∃ id ∈ r.vids, id.Covers v

/-- A name as it is reported, without punctuation. -/
def LinkRow.shown (r : LinkRow) : List Char := r.name.text.filter fun c => !isPunct c

/-- The return value tells whether the port has the VLAN. -/
def EgressExact (rows : List VlanRow) (sh : Shape) (v : Nat) : Prop :=
  getEgressPortNames sh (Nat.toDigits 10 v) (some (vlanOutput rows)) =
    .ok (if ∃ r ∈ rows, r.Carries v then EXIT_SUCCESS else EXIT_FAILURE, zeros sh)

/-- The return value tells whether the port sends the VLAN without tags. -/
def UntaggedExact (rows : List VlanRow) (sh : Shape) (v : Nat) : Prop :=
  getUntaggedPortNames sh (Nat.toDigits 10 v) (some (vlanOutput rows)) =
    .ok (if ∃ r ∈ rows, r.Untagged v then EXIT_SUCCESS else EXIT_FAILURE, zeros sh)

/-- The FIDs the VID is mapped to are reported. -/
def FidExact (titles : List FidTitle) (rows : List FidRow) (sh : Shape) (v : Nat) : Prop :=
  ∃ texts, getMstpFidByVids sh (Nat.toDigits 10 v) (some (fidOutput titles rows)) = .ok (EXIT_SUCCESS, texts) ∧
    ∀ text, text ∈ texts.takeWhile (· ≠ []) ↔ ∃ r ∈ rows, r.Maps v ∧ Nat.toDigits 10 r.fid = text

/-- The name of the interface is reported. -/
def NameExact (rows : List LinkRow) (sh : Shape) (n : Nat) : Prop :=
  ∃ texts, getInterfaceNameById sh (Nat.toDigits 10 n) (some (linkOutput rows)) = .ok (EXIT_SUCCESS, texts) ∧
    ∀ text, text ∈ texts.takeWhile (· ≠ []) ↔ text ≠ [] ∧ ∃ r ∈ rows, r.index = n ∧ r.shown = text

/-- No line only looks like one of the VLAN. -/
structure VlanTold (rows : List VlanRow) (v : Nat) : Prop where
  others : ∀ r ∈ rows, r.line.Contains (vlanCase (Nat.toDigits 10 v)) → r.Carries v
  flags : ∀ r ∈ rows, r.Carries v → r.line.Contains Q_BRIDGE_VLAN_UNTAGGED.toList → r.Untagged v
  alone : ∀ r ∈ rows, r.Carries v → ∃ flags, r.vlan = some (.vid v, flags)

/-- No line only looks like one that maps the VID, and the FIDs have columns. -/
structure FidTold (rows : List FidRow) (sh : Shape) (v : Nat) : Prop where
  others : ∀ r ∈ rows, r.line.Contains (bridgeVidsCase (Nat.toDigits 10 v)) → r.Maps v
  alone : ∀ r ∈ rows, r.Maps v → .vid v ∈ r.vids
  copy : sh.hasCopy = true
  fits : (rows.filter fun r => r.line.Contains (bridgeVidsCase (Nat.toDigits 10 v))).length < sh.rowNum
  columns : ∀ r ∈ rows, (Nat.toDigits 10 r.fid).length < sh.colNum

/-- No line only looks like one of the interface, which has one name. -/
structure LinkTold (rows : List LinkRow) (sh : Shape) (n : Nat) : Prop where
  others : ∀ r ∈ rows, r.line.Contains (portIdCase (Nat.toDigits 10 n)) → r.index = n
  unique : ∀ a ∈ rows, ∀ b ∈ rows, a.index = b.index → a.name.text = b.name.text
  holds : sh.HoldsLines
  fits : (rows.filter (·.index = n)).length ≤ sh.rowNum

/-! ## Lines and patterns -/

/-- A VLAN printed with its VID is found. -/
theorem VlanRow.contains_vid {r : VlanRow} {v : Nat} {flags : List Word} (h : r.vlan = some (.vid v, flags)) :
    r.line.Contains (vlanCase (Nat.toDigits 10 v)) := by
  refine ⟨by rw [vlanCase, ne_eq, List.take_eq_nil_iff, not_or]; exact ⟨by decide, List.cons_ne_nil _ _⟩, ?_⟩
  refine (List.take_prefix _ _).isInfix.trans ⟨r.lead, flags.flatMap fun w => ' ' :: w.text, ?_⟩
  rw [r.printed, h, Option.elim_some, VlanId.text, List.append_assoc, List.cons_append]

theorem VlanTold.contains_iff {rows : List VlanRow} {v : Nat} (h : VlanTold rows v) {r : VlanRow} (hr : r ∈ rows) :
    r.line.Contains (vlanCase (Nat.toDigits 10 v)) ↔ r.Carries v := by
  refine ⟨h.others r hr, fun hc => ?_⟩
  obtain ⟨flags, hf⟩ := h.alone r hr hc
  exact VlanRow.contains_vid hf

/-- A flag is found. -/
theorem VlanRow.Untagged.contains {r : VlanRow} {v : Nat} (h : r.Untagged v) :
    r.line.Contains Q_BRIDGE_VLAN_UNTAGGED.toList := by
  obtain ⟨⟨id, flags⟩, hi, -, w, hw, hflag⟩ := h
  have hsub : w.text <:+: flags.flatMap fun w => ' ' :: w.text := by
    obtain ⟨a, b, rfl⟩ := List.append_of_mem hw
    exact ⟨a.flatMap (fun w => ' ' :: w.text) ++ [' '], b.flatMap fun w => ' ' :: w.text, by simp⟩
  refine ⟨by decide, ?_⟩
  rw [r.printed, Option.mem_def.1 hi, Option.elim_some, ← hflag]
  exact hsub.trans ⟨r.lead ++ ' ' :: id.text, [], by simp⟩

theorem VlanTold.untagged_iff {rows : List VlanRow} {v : Nat} (h : VlanTold rows v) {r : VlanRow} (hr : r ∈ rows) :
    r.line.Contains (vlanCase (Nat.toDigits 10 v)) ∧ r.line.Contains Q_BRIDGE_VLAN_UNTAGGED.toList ↔
      r.Untagged v := by
  rw [h.contains_iff hr]
  refine ⟨fun hc => h.flags r hr hc.1 hc.2, fun hu => ⟨?_, hu.contains⟩⟩
  obtain ⟨i, hi, hcov, -⟩ := hu
  exact ⟨i, hi, hcov⟩

/-! ## VLANs of a port -/

theorem VlanTold.egress {rows : List VlanRow} {v : Nat} (h : VlanTold rows v) (hne : rows ≠ []) (sh : Shape) :
    EgressExact rows sh v := by
  rw [EgressExact, getEgressPortNames, vlanOutput, getObject_repeat (onLine_isFilter _)]
  have hany : (rows.map VlanRow.line = [] ∨
      ∃ l ∈ rows.map VlanRow.line, (onLine (vlanCase (Nat.toDigits 10 v))).passes l.text) ↔
        ∃ r ∈ rows, r.Carries v := by
    simp only [List.map_eq_nil_iff, hne, false_or, List.mem_map, exists_exists_and_eq_and, onLine_passes]
    exact exists_congr fun r => and_congr_right fun hr => h.contains_iff hr
  simp only [hany]

theorem VlanTold.untagged {rows : List VlanRow} {v : Nat} (h : VlanTold rows v) (sh : Shape) :
    UntaggedExact rows sh v := by
  have hf : ∀ f ∈ [onLine (vlanCase (Nat.toDigits 10 v)), onLine Q_BRIDGE_VLAN_UNTAGGED.toList], f.IsFilter := by
    simp only [List.forall_mem_cons]
    exact ⟨onLine_isFilter _, onLine_isFilter _, fun _ h => absurd h List.not_mem_nil⟩
  rw [UntaggedExact, getUntaggedPortNames, vlanOutput, getObject_and hf (List.cons_ne_nil _ _)]
  have hany : (∃ l ∈ rows.map VlanRow.line, [onLine (vlanCase (Nat.toDigits 10 v)),
      onLine Q_BRIDGE_VLAN_UNTAGGED.toList].all (·.passes l.text) = true) ↔ ∃ r ∈ rows, r.Untagged v := by
    simp only [List.mem_map, exists_exists_and_eq_and, List.all_cons, List.all_nil, Bool.and_true, Bool.and_eq_true,
      onLine_passes]
    exact exists_congr fun r => and_congr_right fun hr => h.untagged_iff hr
  simp only [hany]

theorem untilMatchCaseLoop_filled (matchCase : List Char) (sh : Shape) {n : Nat} {texts : List (List Char)}
    (hne : ∀ t ∈ texts, t ≠ []) (hroom : texts.length < n) :
    untilMatchCaseLoop matchCase sh (filled n texts) =
      .ok (filled n (texts.map fun t => (t.takeWhile fun c => !matchCase.contains c).take (sh.colNum - 1))) := by
  induction texts generalizing n with
  | nil =>
    obtain ⟨k, rfl⟩ : ∃ k, n = k + 1 := ⟨n - 1, by rw [List.length_nil] at hroom; omega⟩
    simp [filled, List.replicate_succ, untilMatchCaseLoop]
  | cons t texts ih =>
    rw [List.forall_mem_cons] at hne
    rw [List.length_cons] at hroom
    rw [filled_cons, untilMatchCaseLoop, if_neg hne.1, ih hne.2 (by omega), List.map_cons, filled_cons]
    rfl

/-- A number and a colon. -/
def numbered (n : Nat) : Word where
  text := Nat.toDigits 10 n ++ [':']
  ne_nil := by simp
  plain := by
    intro c hc
    rcases List.mem_append.1 hc with hc | hc
    · have h := isDigit_toDigits n c hc
      exact ⟨isSpace_of_isDigit h, by rintro rfl; revert h; decide⟩
    · rw [List.mem_singleton.1 hc]; decide

theorem numbered_text (n : Nat) : (numbered n).text = Nat.toDigits 10 n ++ [':'] := rfl

/-- The blanks before the word for a FID do not begin it. -/
theorem fidWord_word (r : FidRow) : fidWord.word r.line.text = some (numbered r.fid).text := by
  have hfind : strstr Q_BRIDGE_VALUE_FID_STR.toList r.line.text = some (Q_BRIDGE_VALUE_FID_STR.toList ++
      ' ' :: (Nat.toDigits 10 r.fid ++ ':' :: ' ' :: [','].intercalate (r.vids.map VlanId.text))) := by
    rw [r.printed]
    refine strstr_append fun t ht hne hpre => ?_
    -- The character behind a blank is a blank again.
    obtain ⟨s, hs⟩ := hpre
    have hsecond := congrArg (·[1]?) hs
    obtain ⟨c, t, rfl⟩ := List.exists_cons_of_ne_nil hne
    cases t with
    | nil => exact absurd (Option.some.inj hsecond) (by decide)
    | cons d t =>
      have hd : d = ' ' := List.eq_of_mem_replicate (ht.subset (List.mem_cons_of_mem _ (List.mem_cons_self ..)))
      subst hd
      exact absurd (Option.some.inj hsecond) (by decide)
  rw [fidWord, ParserSpec.word]
  simp only [hfind, Option.map_some, List.drop_left, show Q_BRIDGE_VALUE_FID_STR.toList ≠ [] by decide, if_false]
  have h := nextWord_blank (numbered r.fid) ([','].intercalate (r.vids.map VlanId.text))
  rw [numbered_text, List.append_assoc, List.singleton_append] at h
  exact congrArg some h

theorem captures_fidOutput (f : ParserSpec) (titles : List FidTitle) (rows : List FidRow) :
    captures [f] fidWord (piecesOf (fidOutput titles rows)) =
      (rows.filter fun r => f.passes r.line.text).map fun r => (numbered r.fid).text := by
  have htitles : (titles.map FidTitle.line).filterMap (fun l => capture [f] fidWord l.text) = [] := by
    simp only [List.filterMap_map, List.filterMap_eq_nil_iff, Function.comp_apply]
    intro t _
    have hno : strstr Q_BRIDGE_VALUE_FID_STR.toList t.line.text = none := by
      rw [strstr_eq_none]
      exact fun h => t.noFid ⟨by decide, h⟩
    rw [capture, fidWord, ParserSpec.word]
    simp only [hno, Option.map_none, ite_self, Option.filter_none]
  rw [fidOutput, captures_outputOf, List.filterMap_append, htitles, List.nil_append, List.filterMap_map,
    ← List.filterMap_eq_map, List.filterMap_filter]
  refine List.filterMap_congr fun r _ => ?_
  rw [Function.comp, capture, List.all_cons, List.all_nil, Bool.and_true]
  split
  · rw [fidWord_word, Option.filter_some_pos (by simpa using (numbered r.fid).ne_nil)]
    rfl
  · rfl

theorem numbered_take {n col : Nat} (h : (Nat.toDigits 10 n).length < col) :
    (numbered n).text.take col = (numbered n).text :=
  List.take_of_length_le (by rw [numbered_text, List.length_append, List.length_singleton]; exact h)

/-- Up to the colon. -/
theorem numbered_cut {n col : Nat} (h : (Nat.toDigits 10 n).length < col) :
    ((numbered n).text.takeWhile fun c => !COLON_STR.toList.contains c).take (col - 1) = Nat.toDigits 10 n := by
  have hdigits : ∀ c ∈ Nat.toDigits 10 n, (!COLON_STR.toList.contains c) = true := by
    intro c hc
    have h := isDigit_toDigits n c hc
    have hcolon : c ≠ ':' := by rintro rfl; revert h; decide
    simpa [COLON_STR] using hcolon
  rw [numbered_text, List.takeWhile_append_of_pos hdigits, List.takeWhile_cons_of_neg (by decide), List.append_nil,
    List.take_of_length_le (by omega)]

theorem infix_vids {r : FidRow} {v : Nat} (h : VlanId.vid v ∈ r.vids) :
    r.line.Contains (bridgeVidsCase (Nat.toDigits 10 v)) := by
  refine ⟨by rw [bridgeVidsCase, ne_eq, List.take_eq_nil_iff, not_or]; exact ⟨by decide, Nat.toDigits_ne_nil⟩, ?_⟩
  have hitem : Nat.toDigits 10 v <:+: [','].intercalate (r.vids.map VlanId.text) :=
    infix_intercalate (List.mem_map.2 ⟨_, h, rfl⟩)
  rw [r.printed]
  exact (List.take_prefix _ _).isInfix.trans (hitem.trans
    ⟨List.replicate r.blanks ' ' ++ (Q_BRIDGE_VALUE_FID_STR.toList ++
      ' ' :: (Nat.toDigits 10 r.fid ++ [':', ' '])), [], by simp⟩)

theorem FidTold.exact {rows : List FidRow} {sh : Shape} {v : Nat} (h : FidTold rows sh v) (titles : List FidTitle) :
    FidExact titles rows sh v := by
  have hf : ∀ f ∈ [onLine (bridgeVidsCase (Nat.toDigits 10 v))], f.IsFilter := by
    simpa using onLine_isFilter _
  have hcap := captures_fidOutput (onLine (bridgeVidsCase (Nat.toDigits 10 v))) titles rows
  have hfilter : (rows.filter fun r => (onLine (bridgeVidsCase (Nat.toDigits 10 v))).passes r.line.text) =
      rows.filter fun r => r.line.Contains (bridgeVidsCase (Nat.toDigits 10 v)) :=
    List.filter_congr fun r _ => by rw [Bool.eq_iff_iff, decide_eq_true_iff, onLine_passes]
  rw [hfilter] at hcap
  obtain ⟨found, hfound⟩ : ∃ l, (rows.filter fun r => r.line.Contains (bridgeVidsCase (Nat.toDigits 10 v))) = l :=
    ⟨_, rfl⟩
  have hfits := h.fits
  rw [hfound] at hcap hfits
  have hmem : ∀ r, r ∈ found ↔ r ∈ rows ∧ r.Maps v := by
    intro r
    rw [← hfound, List.mem_filter, decide_eq_true_iff]
    exact and_congr_right fun hr => ⟨h.others r hr, fun hm => infix_vids (h.alone r hr hm)⟩
  have htake : (found.map fun r => (numbered r.fid).text).map (·.take sh.colNum) =
      found.map fun r => (numbered r.fid).text := by
    rw [List.map_map]
    exact List.map_congr_left fun r hr => numbered_take (h.columns r ((hmem r).1 hr).1)
  have hcut : (found.map fun r => (numbered r.fid).text).map
      (fun t => (t.takeWhile fun c => !COLON_STR.toList.contains c).take (sh.colNum - 1)) =
        found.map fun r => Nat.toDigits 10 r.fid := by
    rw [List.map_map]
    exact List.map_congr_left fun r hr => numbered_cut (h.columns r ((hmem r).1 hr).1)
  have hne : ∀ t ∈ found.map fun r => (numbered r.fid).text, t ≠ [] := by
    simp only [List.forall_mem_map]
    exact fun r _ => (numbered r.fid).ne_nil
  obtain ⟨status, hst, heq⟩ := getObject_words hf (.inr rfl : fidWord.TakesWord)
    (by rw [hcap, List.length_map]; exact hfits.le) [(some .noCombinator, single .arrayUntilMatchCase COLON_STR)]
  rw [hcap, htake] at heq
  refine ⟨filled sh.rowNum (found.map fun r => Nat.toDigits 10 r.fid), ?_, fun text => ?_⟩
  · rw [getMstpFidByVids, heq]
    refine combinatorComb_last hst ?_
    simp only [Callback.run, arrayUntilMatchCase, h.copy, Bool.not_true, Bool.false_eq_true, if_false,
      show COLON_STR.toList ≠ [] by decide]
    rw [untilMatchCaseLoop_filled _ sh hne (by rw [List.length_map]; exact hfits), hcut]
    rfl
  · rw [takeWhile_filled (by simp only [List.forall_mem_map]; exact fun _ _ => Nat.toDigits_ne_nil), List.mem_map]
    simp only [hmem, and_assoc]

/-! ## Interfaces -/

/-- The name as it is printed. -/
def LinkRow.label (r : LinkRow) : Word where
  text := r.name.text ++ [':']
  ne_nil := by simp
  plain := by
    intro c hc
    rcases List.mem_append.1 hc with hc | hc
    · exact r.name.plain c hc
    · rw [List.mem_singleton.1 hc]; decide

theorem LinkRow.label_shown (r : LinkRow) : r.label.text.filter (fun c => !isPunct c) = r.shown := by
  rw [LinkRow.label, List.filter_append, List.filter_cons_of_neg (by decide), List.filter_nil, List.append_nil]
  rfl

/-- An index at the start of its line. -/
theorem idWord_word (r : LinkRow) : (idWord (Nat.toDigits 10 r.index)).word r.line.text = some r.label.text := by
  have hlong := r.line.fits
  rw [r.printed, List.length_append, List.length_cons] at hlong
  have hcase : portIdCase (Nat.toDigits 10 r.index) = Nat.toDigits 10 r.index ++ [':'] := by
    refine List.take_of_length_le ?_
    rw [List.length_append, List.length_singleton]
    omega
  have htext : r.line.text = [] ++ ((Nat.toDigits 10 r.index ++ [':']) ++ ' ' :: (r.label.text ++ ' ' :: r.rest)) := by
    rw [r.printed, LinkRow.label]
    simp
  have hne : Nat.toDigits 10 r.index ++ [':'] ≠ [] := by simp
  rw [idWord, ParserSpec.word, htext, hcase]
  simp only [hne, if_false]
  rw [strstr_append fun t ht hne => absurd (List.suffix_nil.1 ht) hne, Option.map_some, List.drop_left, nextWord_blank]

theorem captures_linkOutput {rows : List LinkRow} {n : Nat}
    (hothers : ∀ r ∈ rows, r.line.Contains (portIdCase (Nat.toDigits 10 n)) → r.index = n) :
    captures [] (idWord (Nat.toDigits 10 n)) (piecesOf (linkOutput rows)) =
      (rows.filter (·.index = n)).map fun r => r.label.text := by
  rw [linkOutput, captures_outputOf, List.filterMap_map, ← List.filterMap_eq_map, List.filterMap_filter]
  refine List.filterMap_congr fun r hr => ?_
  rw [Function.comp, capture, List.all_nil, if_pos rfl]
  by_cases hn : r.index = n
  · rw [if_pos (decide_eq_true hn), ← hn, idWord_word, Option.filter_some_pos (by simpa using r.label.ne_nil)]
    rfl
  · have hcase : portIdCase (Nat.toDigits 10 n) ≠ [] := by
      rw [portIdCase, ne_eq, List.take_eq_nil_iff, not_or]
      exact ⟨by decide, by simp⟩
    have hno : strstr (portIdCase (Nat.toDigits 10 n)) r.line.text = none := by
      rw [strstr_eq_none]
      exact fun h => hn (hothers r hr ⟨hcase, h⟩)
    rw [if_neg (by simpa using hn), idWord, ParserSpec.word]
    simp only [hno, Option.map_none, ite_self, Option.filter_none]

theorem dropPunctuationLoop_filled (sh : Shape) {n : Nat} {texts : List (List Char)} (hne : ∀ t ∈ texts, t ≠ [])
    (hlen : ∀ t ∈ texts, t.length < sh.colNum) :
    dropPunctuationLoop sh (filled n texts) = .ok (filled n (texts.map fun t => t.filter fun c => !isPunct c)) := by
  induction texts generalizing n with
  | nil => cases n <;> simp [filled, List.replicate_succ, dropPunctuationLoop]
  | cons t texts ih =>
    rw [List.forall_mem_cons] at hne hlen
    rw [filled_cons, dropPunctuationLoop, if_neg hne.1, if_neg (Nat.not_le.2 hlen.1), ih hne.2 hlen.2, List.map_cons,
      filled_cons]
    rfl

/-- Dropping the punctuation sets bits of parsers whatever is left. -/
theorem arrayDropPunctuation_filled (sh : Shape) {n : Nat} {texts : List (List Char)} (hne : ∀ t ∈ texts, t ≠ [])
    (hlen : ∀ t ∈ texts, t.length < sh.colNum) :
    ∃ status : Status, status.OnlyParsing ∧ arrayDropPunctuation sh (filled n texts) =
      .ok (status, filled n (texts.map fun t => t.filter fun c => !isPunct c)) := by
  rw [arrayDropPunctuation, dropPunctuationLoop_filled sh hne hlen]
  refine ⟨_, ?_, rfl⟩
  split <;> exact ⟨rfl, rfl, rfl⟩

/-- The first part of equal items is all of them or none. -/
theorem mem_takeWhile_of_eq {p : List Char → Bool} {items : List (List Char)} (heq : ∀ a ∈ items, ∀ b ∈ items, a = b)
    {item : List Char} : item ∈ items.takeWhile p ↔ p item = true ∧ item ∈ items := by
  cases items with
  | nil => simp
  | cons a items =>
    have ha : ∀ b ∈ a :: items, b = a := fun b hb => heq b hb a (List.mem_cons_self ..)
    by_cases hp : p a = true
    · rw [List.takeWhile_eq_self_iff.2 fun b hb => by rw [ha b hb, hp]]
      exact ⟨fun h => ⟨by rw [ha item h, hp], h⟩, And.right⟩
    · rw [List.takeWhile_cons_of_neg hp]
      exact iff_of_false List.not_mem_nil fun h => hp (ha item h.2 ▸ h.1)

theorem LinkTold.exact {rows : List LinkRow} {sh : Shape} {n : Nat} (h : LinkTold rows sh n) :
    NameExact rows sh n := by
  have hf : ∀ f ∈ ([] : List ParserSpec), f.IsFilter := fun _ h => absurd h List.not_mem_nil
  have hp : (idWord (Nat.toDigits 10 n)).TakesWord := .inr rfl
  have hcap := captures_linkOutput h.others
  have hlen : ∀ w ∈ captures [] (idWord (Nat.toDigits 10 n)) (piecesOf (linkOutput rows)), w.length < MAX_STR_LEN :=
    captures_length
  obtain ⟨found, hfound⟩ : ∃ l, (rows.filter (·.index = n)) = l := ⟨_, rfl⟩
  have hfits := h.fits
  rw [hfound] at hcap hfits
  have hmem : ∀ r, r ∈ found ↔ r ∈ rows ∧ r.index = n := fun r => by
    rw [← hfound, List.mem_filter, decide_eq_true_iff]
  obtain ⟨status, hst, heq⟩ := getObject_words hf hp (by rw [hcap, List.length_map]; exact hfits)
    [(some .noCombinator, single .arrayDropPunctuation ""), (some .noCombinator, single .arrayUniqElements "")]
  rw [captures_take h.holds.1, hcap] at heq
  rw [hcap] at hlen
  have hne : ∀ t ∈ found.map fun r => r.label.text, t ≠ [] := by
    simp only [List.forall_mem_map]
    exact fun r _ => r.label.ne_nil
  have hshown : (found.map fun r => r.label.text).map (fun t => t.filter fun c => !isPunct c) =
      found.map LinkRow.shown := by
    rw [List.map_map]
    exact List.map_congr_left fun r _ => r.label_shown
  have hshort : ∀ t ∈ found.map LinkRow.shown, t.length < MAX_STR_LEN := by
    rw [← hshown]
    simp only [List.forall_mem_map] at hlen ⊢
    exact fun r hr => (List.length_filter_le _ _).trans_lt (hlen r hr)
  obtain ⟨status', hst', hdrop⟩ :=
    arrayDropPunctuation_filled sh (n := sh.rowNum) hne fun t ht => (hlen t ht).trans_le h.holds.1
  have hrun : Callback.run "".toList sh ⟨[], filled sh.rowNum (found.map fun r => r.label.text)⟩ .arrayDropPunctuation =
      .ok (status', ⟨[], filled sh.rowNum (found.map LinkRow.shown)⟩) := by
    rw [Callback.run, hdrop, hshown]
    rfl
  have hjoin := hst.or hst'
  refine ⟨filled sh.rowNum (uniqRows [] ((found.map LinkRow.shown).takeWhile (· ≠ []))), ?_, fun text => ?_⟩
  · rw [getInterfaceNameById, heq, combinatorComb_single, hrun]
    simp only [Except.bind, hjoin.1, Bool.false_eq_true, if_false]
    refine combinatorComb_last hjoin ?_
    simp only [Callback.run, arrayUniqElements_filled h.holds hshort, Except.map]
  · have hsame : ∀ a ∈ found.map LinkRow.shown, ∀ b ∈ found.map LinkRow.shown, a = b := by
      simp only [List.forall_mem_map]
      intro a ha b hb
      obtain ⟨ha, hna⟩ := (hmem a).1 ha
      obtain ⟨hb, hnb⟩ := (hmem b).1 hb
      rw [LinkRow.shown, LinkRow.shown, h.unique a ha b hb (hna.trans hnb.symm)]
    rw [takeWhile_filled fun t ht => ?_]
    · rw [mem_uniqRows, mem_takeWhile_of_eq hsame, decide_eq_true_iff, List.mem_map]
      simp only [hmem, and_assoc, List.not_mem_nil, not_false_eq_true, and_true]
    · exact of_decide_eq_true (mem_takeWhile_of_eq hsame |>.1 (mem_uniqRows.1 ht).1).1

/-! ## All lookups -/

def link2Row : LinkRow where
  line := ⟨"2: sw0p0: <BROADCAST,MULTICAST> mtu 1500 master br0".toList, List.forall_iff_forall_mem.1 (by decide), by decide⟩
  index := 2
  name := ⟨"sw0p0".toList, by decide, List.forall_iff_forall_mem.1 (by decide)⟩
  rest := "<BROADCAST,MULTICAST> mtu 1500 master br0".toList
  printed := by decide

/-- The arrays of callers. -/
def portsShape : Shape := ⟨MAX_NUM_OF_INTERFACES, MAX_STR_LEN, by decide, MAX_STR_LEN_pos⟩
end TsnSwitch.Tools
