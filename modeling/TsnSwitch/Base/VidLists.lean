/-
The values of the type for lists of VLAN ids (`vid-range-type` in
ieee802-dot1q-types.yang): numbers and intervals from 1 to 4094 that ascend and
do not overlap.

In such a list no bound is shorter than one before it, so that it is validated
and read as what it denotes (`VidList.assemble_eq`).
-/
import TsnSwitch.Base.Validate

namespace TsnSwitch.Base

open Lib

namespace Item

def first : Item → Nat
  | .vid v => v.val
  | .interval lo _ => lo.val

def last : Item → Nat
  | .vid v => v.val
  | .interval _ hi => hi.val

theorem mem_vids {it : Item} {v : Nat} : v ∈ it.vids ↔ it.first ≤ v ∧ v ≤ it.last := by
  cases it with
  | vid n =>
    rw [vids, List.mem_singleton, first, last]
    omega
  | interval lo hi =>
    rw [vids, List.mem_range'_1, first, last]
    omega

theorem pairwise_vids (it : Item) : it.vids.Pairwise (· < ·) := by
  cases it with
  | vid n => exact List.pairwise_singleton ..
  | interval lo hi => exact List.pairwise_lt_range'

theorem Admitted.last_le {it : Item} (h : it.Admitted) : it.last ≤ 4094 := by
  cases it with
  | vid n => exact h
  | interval lo hi => exact h.2

theorem Admitted.first_le_last {it : Item} (h : it.Admitted) : it.first ≤ it.last := by
  cases it with
  | vid n => exact Nat.le_refl _
  | interval lo hi => exact h.1

theorem first_pos (it : Item) : 1 ≤ it.first := by
  cases it with
  | vid n => exact n.pos
  | interval lo hi => exact lo.pos

end Item

/-- A value of the type, as long as a key may be. -/
structure VidList where
  items : List Item
  nonempty : items ≠ []
  admitted : ∀ it ∈ items, it.Admitted
  ordered : items.Pairwise fun a b => a.last < b.first
  fits : (textOf items).length < MAX_STR_LEN

namespace VidList

variable (l : VidList)

def text : List Char := textOf l.items

/-- The VLAN ids of the list, in ascending order. -/
def vids : List Nat := vidsOf l.items

theorem mem_range {v : Nat} (h : v ∈ l.vids) : 1 ≤ v ∧ v ≤ 4094 := by
  obtain ⟨it, hit, hv⟩ := List.mem_flatMap.1 h
  have hv := Item.mem_vids.1 hv
  exact ⟨it.first_pos.trans hv.1, hv.2.trans (l.admitted it hit).last_le⟩

theorem pairwise_vids : l.vids.Pairwise (· < ·) := by
  rw [vids, vidsOf, List.pairwise_flatMap]
  refine ⟨fun it _ => it.pairwise_vids, l.ordered.imp fun {a b} hlt v hv w hw => ?_⟩
  have hv := (Item.mem_vids.1 hv).2
  have hw := (Item.mem_vids.1 hw).1
  omega

theorem nodup_vids : l.vids.Nodup := l.pairwise_vids.imp Nat.ne_of_lt

theorem length_vids : l.vids.length ≤ BASE_MAX_VID := by
  have hsub : l.vids ⊆ List.range' 1 4094 := fun v hv => List.mem_range'_1.2 (by have := l.mem_range hv; omega)
  have h := (l.nodup_vids.subperm hsub).length_le
  rw [List.length_range'] at h
  exact h.trans (by decide)

/-! ## Reading -/

theorem length_text_le {m n : Num} (h : m.val ≤ n.val) : m.text.length ≤ n.text.length := by
  have hpos : 0 < n.text.length := List.length_pos_iff.2 n.text_ne_nil
  have hn : n.val < 10 ^ n.text.length := (Nat.length_toDigits_le_iff (by decide) hpos).1 (Nat.le_refl _)
  exact (Nat.length_toDigits_le_iff (by decide) hpos).2 (Nat.lt_of_le_of_lt h hn)

/-- What comes before an interval has lower numbers, and no more digits. -/
theorem notShorter {done : List Item} {it : Item} (hlt : ∀ before ∈ done, before.Admitted ∧ before.last < it.first)
    (hit : it.Admitted) : it.NotShorter done := by
  cases it with
  | vid v => exact True.intro
  | interval lo hi =>
    intro p hp
    rw [Option.mem_def, lastInterval, List.findSome?_eq_some_iff] at hp
    obtain ⟨pre, before, post, hsplit, hbounds, -⟩ := hp
    have hmem : before ∈ done := by
      rw [← List.mem_reverse, hsplit]
      exact List.mem_append_right _ (List.mem_cons_self ..)
    obtain ⟨hadm, hbefore⟩ := hlt before hmem
    cases before with
    | vid v => cases hbounds
    | interval lo' hi' =>
      obtain rfl := Option.some.inj hbounds
      have hlo := hadm.first_le_last
      have hhi := hit.first_le_last
      simp only [Item.first, Item.last] at hbefore hlo hhi
      have hfirst : lo'.val ≤ lo.val := by omega
      have hlast : hi'.val ≤ hi.val := by omega
      exact ⟨length_text_le hfirst, length_text_le hlast⟩

theorem guarded_notShorter {done items : List Item} (hadm : ∀ it ∈ done ++ items, it.Admitted)
    (hord : (done ++ items).Pairwise fun a b => a.last < b.first) : Guarded remember Item.NotShorter done items := by
  induction items generalizing done with
  | nil => exact True.intro
  | cons it items ih =>
    refine ⟨notShorter (fun before hbefore => ⟨hadm before (List.mem_append_left _ hbefore), ?_⟩)
      (hadm it (List.mem_append_right _ (List.mem_cons_self ..))), ?_⟩
    · exact (List.pairwise_append.1 hord).2.2 before hbefore it (List.mem_cons_self ..)
    · rw [List.append_cons] at hadm hord
      exact ih hadm hord

theorem guarded : Guarded remember Item.NotShorter [] l.items := guarded_notShorter l.admitted l.ordered

theorem ascending : ∀ it ∈ l.items, it.Ascending := fun it hit => (l.admitted it hit).ascending

theorem not_descending : doesVidsStringContainsDescendingInterval (some l.text) = .ok EXIT_SUCCESS := by
  rw [text, descendingInterval_textOf l.nonempty l.guarded, if_pos l.ascending]

theorem not_invalid : doesVidsStringContainsInvalidVid (some l.text) = .ok EXIT_SUCCESS := by
  rw [text, invalidVid_textOf l.nonempty (Nat.le_of_lt l.fits) l.guarded l.ascending l.length_vids, if_pos]
  intro it hit v hv
  have := l.mem_range (List.mem_flatMap.2 ⟨it, hit, hv⟩)
  exact Nat.lt_of_le_of_lt this.2 (by decide)

/-- **The rows of the array are the VLAN ids of the list.** -/
theorem assemble_eq (colNum : Width) :
    assembleVidsAsArray BASE_MAX_VID colNum.val (some l.text) = .ok (numRows l.vids) :=
  assemble_textOf l.nonempty colNum (Nat.le_of_lt l.fits) l.guarded l.ascending l.length_vids

end VidList

end TsnSwitch.Base
