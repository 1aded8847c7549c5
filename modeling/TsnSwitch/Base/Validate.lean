/-
The two functions that validate a list of VLAN ids together accept the lists
whose intervals do not descend and whose numbers are in range
(`acceptVids_textOf`).

They look for nothing else. Whether a text is a list at all is left to the
type of the value the text comes from: `not_accept_iff_list` is a text they
accept though it is none.
-/
import TsnSwitch.Base.Assemble

namespace TsnSwitch.Base

open Lib

/-- All VLAN ids of an item are in the admitted range. -/
def Item.InRange (it : Item) : Prop := ∀ v ∈ it.vids, v < BASE_MAX_VID

instance (it : Item) : Decidable it.InRange := inferInstanceAs (Decidable (∀ v ∈ it.vids, v < BASE_MAX_VID))

/-- What the validation of a list is for. -/
def Valid (items : List Item) : Prop := ∀ it ∈ items, it.Ascending ∧ it.InRange

instance (items : List Item) : Decidable (Valid items) :=
  inferInstanceAs (Decidable (∀ it ∈ items, it.Ascending ∧ it.InRange))

instance (items : List Item) : ∀ it : Item, Decidable (it.NotShorter items)
  | .vid _ => inferInstanceAs (Decidable True)
  | .interval lo hi => decidable_of_iff _ (notShorter_iff items lo hi).symm

/-! ## Descending intervals -/

section Loop

variable {ds rest : List Char} {b : Bufs}

theorem descendingLoop_digits (hd : ∀ c ∈ ds, c.isDigit = true) (minStart : List Char) :
    descendingLoop (ds ++ rest) minStart b = descendingLoop rest minStart b := by
  induction ds with
  | nil => rfl
  | cons c ds ih =>
    rw [List.forall_mem_cons] at hd
    have hminus : c ≠ '-' := by rintro rfl; exact absurd hd.1 (by decide)
    have hcomma : c ≠ ',' := by rintro rfl; exact absurd hd.1 (by decide)
    rw [List.cons_append, descendingLoop, if_neg hminus, if_neg hcomma, ih hd.2]

theorem intervalLoop_digits (hd : ∀ c ∈ ds, c.isDigit = true) (lo maxStart : List Char) :
    intervalLoop (ds ++ rest) lo maxStart b = intervalLoop rest lo maxStart b := by
  induction ds with
  | nil => rfl
  | cons c ds ih =>
    rw [List.forall_mem_cons] at hd
    have hcomma : c ≠ ',' := by rintro rfl; exact absurd hd.1 (by decide)
    rw [List.cons_append, intervalLoop, if_neg hcomma, ih hd.2]

theorem between_append (a b : List Char) : between (a ++ b) b = a := by
  rw [between, List.length_append, Nat.add_sub_cancel, List.take_left]

theorem head_text (n : Num) (rest : List Char) : ((n.text ++ rest).head?.elim false Char.isDigit) = true := by
  cases h : n.text with
  | nil => exact absurd h n.text_ne_nil
  | cons c ds => exact n.isDigit_text c (h ▸ List.mem_cons_self ..)

/-- An interval is checked where it ends. -/
theorem descendingLoop_interval (lo hi : Num) (rest : List Char) :
    let text := (Item.interval lo hi).text ++ rest
    descendingLoop text text b = intervalLoop rest lo.text (hi.text ++ rest) b := by
  intro text
  have htext : text = lo.text ++ '-' :: (hi.text ++ rest) := by simp [text, Item.text]
  rw [htext, descendingLoop_digits lo.isDigit_text, descendingLoop, if_pos rfl, head_text, if_neg (by decide),
    between_append, intervalLoop_digits hi.isDigit_text]

end Loop

/-- The check finds the first interval that descends. -/
theorem descendingLoop_textOf {items : List Item} (hne : items ≠ []) (done : List Item)
    (hns : Guarded remember Item.NotShorter done items) :
    descendingLoop (textOf items) (textOf items) (holding (heldLo done) (heldHi done)) =
      .ok (if ∀ it ∈ items, it.Ascending then EXIT_SUCCESS else EXIT_FAILURE) := by
  induction items generalizing done with
  | nil => exact absurd rfl hne
  | cons it items ih =>
    obtain ⟨hit, hrest⟩ := hns
    have hbounds : ∀ lo hi, it = .interval lo hi →
        intervalBounds (holding (heldLo done) (heldHi done)) lo.text hi.text =
          .ok (if hi.val < lo.val then none
            else some (holding (heldLo (done ++ [it])) (heldHi (done ++ [it])), lo.val, hi.val)) := by
      rintro lo hi rfl
      obtain ⟨hlo, hhi⟩ := (notShorter_iff done lo hi).1 hit
      rw [intervalBounds_holding, Held.overwrite_of_le _ _ hlo, Held.overwrite_of_le _ _ hhi, Held.value_ofNum,
        Held.value_ofNum, heldLo_concat_interval, heldHi_concat_interval]
    cases items with
    | nil =>
      rw [show textOf [it] = it.text ++ [] by simp [textOf, join]]
      cases it with
      | vid v =>
        rw [Item.text, descendingLoop_digits v.isDigit_text, descendingLoop,
          if_pos (List.forall_mem_singleton.2 True.intro)]
      | interval lo hi =>
        rw [descendingLoop_interval, intervalLoop, List.append_nil, hbounds lo hi rfl]
        by_cases hlt : hi.val < lo.val
        · rw [if_pos hlt, if_neg fun h => Nat.not_le.2 hlt (h _ (List.mem_cons_self ..))]
        · have hasc : ∀ it ∈ [Item.interval lo hi], it.Ascending := List.forall_mem_singleton.2 (Nat.not_lt.1 hlt)
          rw [if_neg hlt, if_pos hasc]
    | cons it' items =>
      rw [show textOf (it :: it' :: items) = it.text ++ ',' :: textOf (it' :: items) by simp [textOf, join]]
      have hnext := ih (List.cons_ne_nil _ _) (done ++ [it]) hrest
      cases it with
      | vid v =>
        rw [heldLo_concat_vid, heldHi_concat_vid] at hnext
        rw [Item.text, descendingLoop_digits v.isDigit_text, descendingLoop, if_neg (by decide), if_pos rfl, hnext]
        refine congrArg _ (if_congr ?_ rfl rfl)
        exact ⟨fun h => List.forall_mem_cons.2 ⟨True.intro, h⟩, fun h => (List.forall_mem_cons.1 h).2⟩
      | interval lo hi =>
        rw [descendingLoop_interval, intervalLoop, if_pos rfl, between_append, hbounds lo hi rfl]
        by_cases hlt : hi.val < lo.val
        · rw [if_pos hlt, if_neg fun h => Nat.not_le.2 hlt (h _ (List.mem_cons_self ..))]
        · rw [if_neg hlt]
          refine hnext.trans (congrArg _ (if_congr ?_ rfl rfl))
          exact ⟨fun h => List.forall_mem_cons.2 ⟨Nat.not_lt.1 hlt, h⟩, fun h => (List.forall_mem_cons.1 h).2⟩

/-! ## Numbers out of range -/

/-- Ascending items that fit the rows are all written. -/
theorem parse_map_text {rowNum : Nat} {colNum : Width} {items : List Item}
    (hns : Guarded remember Item.NotShorter [] items) (hasc : ∀ it ∈ items, it.Ascending)
    (hfit : (vidsOf items).length ≤ rowNum) :
    parse rowNum colNum.val (items.map Item.text) =
      .ok (.next ⟨holding (heldLo items) (heldHi items), numRows (vidsOf items)⟩) := by
  induction items using List.reverseRecOn with
  | nil => rfl
  | append_singleton items it ih =>
    have hit : it.NotShorter items := by
      have h := hns.at_step
      rwa [after_remember, List.nil_append] at h
    rw [vidsOf_concat, List.length_append] at hfit
    have hlast := ih hns.of_append (fun i hi => hasc i (List.mem_append_left _ hi)) (by omega)
    have hrows : (numRows (vidsOf items)).length ≤ rowNum := by rw [length_numRows]; omega
    have hel : element rowNum colNum.val (items.map Item.text).isEmpty _ it.text = _ :=
      element_notShorter hrows hit (hasc it (by simp))
    rw [List.map_append, List.map_singleton, parse_concat, hlast]
    refine hel.trans ?_
    rw [length_numRows, if_pos hfit, ← numRows_append, ← vidsOf_concat]

theorem checkRows_numRows (ns : List Nat) :
    checkRows (numRows ns) = if ∀ n ∈ ns, n < BASE_MAX_VID then EXIT_SUCCESS else EXIT_FAILURE := by
  induction ns with
  | nil => rfl
  | cons n ns ih =>
    have hvid : strtol (Nat.toDigits 10 n ++ [NUL]) = some (n : Int) := by
      rw [strtol_digits (isDigit_toDigits n), Nat.ofDigitChars_ten_toDigits]
    rw [numRows, List.map_cons, checkRows, if_neg Nat.toDigits_ne_nil, hvid, ← numRows, ih, Option.getD_some]
    by_cases hn : n < BASE_MAX_VID
    · rw [if_neg (by simp only [BASE_MIN_VID]; omega)]
      exact if_congr ⟨fun h => List.forall_mem_cons.2 ⟨hn, h⟩, fun h => (List.forall_mem_cons.1 h).2⟩ rfl rfl
    · rw [if_pos (.inl (by omega)), if_neg fun h => hn (h n (List.mem_cons_self ..))]

theorem forall_vidsOf (items : List Item) : (∀ v ∈ vidsOf items, v < BASE_MAX_VID) ↔ ∀ it ∈ items, it.InRange := by
  simp only [vidsOf, List.mem_flatMap, Item.InRange]
  refine ⟨fun h it hit v hv => h v ⟨it, hit, hv⟩, ?_⟩
  rintro h v ⟨it, hit, hv⟩
  exact h it hit v hv

section TextOf

variable {items : List Item} (hne : items ≠ [])
include hne

theorem head_textOf : ((textOf items).head?.elim false Char.isDigit) = true := by
  cases items with
  | nil => exact absurd rfl hne
  | cons it items =>
    have htext : ∃ rest, textOf (it :: items) = it.text ++ rest := by
      cases items with
      | nil => exact ⟨[], by simp [textOf, join]⟩
      | cons it' items => exact ⟨',' :: textOf (it' :: items), by simp [textOf, join]⟩
    obtain ⟨rest, hrest⟩ := htext
    cases it with
    | vid v => rw [hrest, Item.text, head_text]
    | interval lo hi => rw [hrest, Item.text, List.append_assoc, head_text]

theorem descendingInterval_textOf (hns : Guarded remember Item.NotShorter [] items) :
    doesVidsStringContainsDescendingInterval (some (textOf items)) =
      .ok (if ∀ it ∈ items, it.Ascending then EXIT_SUCCESS else EXIT_FAILURE) := by
  rw [doesVidsStringContainsDescendingInterval]
  simp only [head_textOf hne, Bool.true_eq_false, if_false]
  exact descendingLoop_textOf hne [] hns

/-- The numbers of a list without descending intervals are written to rows
that take them. -/
theorem assemble_textOf {rowNum : Nat} (colNum : Width) (hlen : (textOf items).length ≤ MAX_STR_LEN)
    (hns : Guarded remember Item.NotShorter [] items) (hasc : ∀ it ∈ items, it.Ascending)
    (hfit : (vidsOf items).length ≤ rowNum) :
    assembleVidsAsArray rowNum colNum.val (some (textOf items)) = .ok (numRows (vidsOf items)) := by
  have hc : ∀ e ∈ items.map Item.text, ',' ∉ e := by
    intro e he
    obtain ⟨it, -, rfl⟩ := List.mem_map.1 he
    exact it.comma_notMem_text
  rw [show textOf items = join (items.map Item.text) from rfl, assemble_join (by simpa using hne) hc,
    if_neg (show ¬ MAX_STR_LEN < (join (items.map Item.text)).length from Nat.not_lt.2 hlen),
    parse_map_text hns hasc hfit]
  rfl

theorem invalidVid_textOf (hlen : (textOf items).length ≤ MAX_STR_LEN)
    (hns : Guarded remember Item.NotShorter [] items) (hasc : ∀ it ∈ items, it.Ascending)
    (hfit : (vidsOf items).length ≤ BASE_MAX_VID) :
    doesVidsStringContainsInvalidVid (some (textOf items)) =
      .ok (if ∀ it ∈ items, it.InRange then EXIT_SUCCESS else EXIT_FAILURE) := by
  rw [doesVidsStringContainsInvalidVid, show BASE_FIVE = fiveWide.val from rfl,
    assemble_textOf hne fiveWide hlen hns hasc hfit]
  simp only [Except.map, checkRows_numRows, forall_vidsOf]

end TextOf

end TsnSwitch.Base
