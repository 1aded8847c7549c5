/-
The format of a list of VLAN ids, and what the functions read of it.

An item is a number or an interval. The bounds of an interval are read from
buffers that may hold longer texts of intervals before: `Held.overwrite` is what
such a buffer holds then, and `Held.overwrite_value` when it is the bound.
-/
import TsnSwitch.Base.Vids

namespace TsnSwitch.Base

open Lib

/-- A number of one to four digits, the first not zero. -/
structure Num where
  val : Nat
  pos : 1 ≤ val
  lt : val < 10 ^ 4
  deriving DecidableEq

def Num.text (n : Num) : List Char := Nat.toDigits 10 n.val

/-- An element of a list. -/
inductive Item where
  | vid (v : Num)
  | interval (lo hi : Num)
  deriving DecidableEq

namespace Item

def text : Item → List Char
  | .vid v => v.text
  | .interval lo hi => lo.text ++ '-' :: hi.text

/-- The VLAN ids an item denotes, in order. -/
def vids : Item → List Nat
  | .vid v => [v.val]
  | .interval lo hi => List.range' lo.val (hi.val + 1 - lo.val)

/-- An interval does not descend. -/
def Ascending : Item → Prop
  | .vid _ => True
  | .interval lo hi => lo.val ≤ hi.val

instance : ∀ it : Item, Decidable it.Ascending
  | .vid _ => inferInstanceAs (Decidable True)
  | .interval lo hi => inferInstanceAs (Decidable (lo.val ≤ hi.val))

def bounds : Item → Option (Num × Num)
  | .vid _ => none
  | .interval lo hi => some (lo, hi)

end Item

/-- Elements with commas between them. -/
def join (els : List (List Char)) : List Char := [','].intercalate els

def textOf (items : List Item) : List Char := join (items.map Item.text)

def vidsOf (items : List Item) : List Nat := items.flatMap Item.vids

/-- The bounds of the last interval. -/
def lastInterval (items : List Item) : Option (Num × Num) := items.reverse.findSome? Item.bounds

/-- No bound of the item has fewer digits than the same bound of the interval
before it. -/
def Item.NotShorter (items : List Item) : Item → Prop
  | .vid _ => True
  | .interval lo hi => ∀ p ∈ lastInterval items,
    p.1.text.length ≤ lo.text.length ∧ p.2.text.length ≤ hi.text.length

/-! ## Texts -/

namespace Num

variable (n : Num)

theorem isDigit_text : ∀ c ∈ n.text, c.isDigit = true := isDigit_toDigits n.val

theorem text_length : n.text.length ≤ 4 := (Nat.length_toDigits_le_iff (by decide) (by decide)).2 n.lt

theorem text_ne_nil : n.text ≠ [] := Nat.toDigits_ne_nil

theorem comma_notMem_text : ',' ∉ n.text := fun h => Bool.false_ne_true (n.isDigit_text _ h)

theorem minus_notMem_text : '-' ∉ n.text := fun h => Bool.false_ne_true (n.isDigit_text _ h)

theorem ofDigitChars_text : Nat.ofDigitChars 10 n.text 0 = n.val := Nat.ofDigitChars_ten_toDigits

end Num

namespace Item

theorem comma_notMem_text : ∀ it : Item, ',' ∉ it.text
  | .vid v => v.comma_notMem_text
  | .interval lo hi => by
    rw [text, List.mem_append, List.mem_cons]
    rintro (h | h | h)
    · exact lo.comma_notMem_text h
    · exact absurd h (by decide)
    · exact hi.comma_notMem_text h

theorem text_ne_nil : ∀ it : Item, it.text ≠ []
  | .vid v => v.text_ne_nil
  | .interval lo _ => fun h => lo.text_ne_nil (List.append_eq_nil_iff.1 h).1

theorem text_length : ∀ it : Item, it.text.length < BASE_TEN
  | .vid v => Nat.lt_of_le_of_lt v.text_length (by decide)
  | .interval lo hi => by
    have h1 := lo.text_length
    have h2 := hi.text_length
    simp only [text, List.length_append, List.length_cons, BASE_TEN]
    omega

theorem isSubInterval_vid (v : Num) : isSubInterval (Item.vid v).text = false := by
  rw [isSubInterval, Bool.eq_false_iff]
  exact fun h => v.minus_notMem_text (List.contains_iff_mem.1 h)

theorem isSubInterval_interval (lo hi : Num) : isSubInterval (Item.interval lo hi).text = true :=
  List.contains_iff_mem.2 (List.mem_append_right _ (List.mem_cons_self ..))

theorem vids_ne_nil {it : Item} (h : it.Ascending) : it.vids ≠ [] := by
  cases it with
  | vid v => exact List.cons_ne_nil _ _
  | interval lo hi =>
    rw [vids, ne_eq, List.range'_eq_nil_iff]
    exact Nat.sub_ne_zero_of_lt (Nat.lt_succ_of_le h)

end Item

theorem lastMinus_of_notMem {s : List Char} (h : '-' ∉ s) (i m : Nat) : lastMinus s i m = m := by
  induction s generalizing i with
  | nil => rfl
  | cons c s ih =>
    rw [List.mem_cons, not_or] at h
    rw [lastMinus, if_neg (Ne.symm h.1), ih h.2]

theorem lastMinus_append {s : List Char} (h : '-' ∉ s) (a : List Char) (i m : Nat) :
    lastMinus (a ++ '-' :: s) i m = i + a.length := by
  induction a generalizing i m with
  | nil => rw [List.nil_append, lastMinus, if_pos rfl, lastMinus_of_notMem h]; rfl
  | cons c a ih => rw [List.cons_append, lastMinus, ih, List.length_cons]; omega

theorem lastInterval_concat (items : List Item) (it : Item) :
    lastInterval (items ++ [it]) = it.bounds.or (lastInterval items) := by
  rw [lastInterval, List.reverse_concat, List.findSome?_cons, lastInterval]
  cases it.bounds <;> rfl

theorem vidsOf_concat (items : List Item) (it : Item) : vidsOf (items ++ [it]) = vidsOf items ++ it.vids := by
  rw [vidsOf, List.flatMap_append, List.flatMap_singleton, vidsOf]

/-! ## The buffers -/

/-- The digits a buffer holds. -/
structure Held where
  text : List Char
  digits : ∀ c ∈ text, c.isDigit = true
  short : text.length < BASE_FIVE

namespace Held

def value (s : Held) : Nat := Nat.ofDigitChars 10 s.text 0

def none : Held := ⟨[], nofun, by decide⟩

def ofNum (n : Num) : Held := ⟨n.text, n.isDigit_text, Nat.lt_of_le_of_lt n.text_length (by decide)⟩

/-- The digits after `n` was copied over them. -/
def overwrite (s : Held) (n : Num) : Held where
  text := n.text ++ s.text.drop n.text.length
  digits := fun c hc => (List.mem_append.1 hc).elim (n.isDigit_text c) fun h => s.digits c (List.mem_of_mem_drop h)
  short := by
    have h1 := n.text_length
    have h2 := s.short
    simp only [List.length_append, List.length_drop, BASE_FIVE] at h2 ⊢
    omega

variable (s : Held) (n : Num)

theorem strtol_pad : strtol (pad BASE_FIVE s.text) = some (s.value : Int) := by
  rw [pad_eq s.short, strtol_digits s.digits]; rfl

theorem strncpy_pad : strncpy (pad BASE_FIVE s.text) n.text = pad BASE_FIVE (s.overwrite n).text :=
  Lib.strncpy_pad (Nat.le_trans n.text_length (by decide))

theorem overwrite_of_le (h : s.text.length ≤ n.text.length) : s.overwrite n = ofNum n := by
  simp only [overwrite, ofNum, List.drop_of_length_le h, List.append_nil]

theorem value_ofNum : (ofNum n).value = n.val := n.ofDigitChars_text

theorem value_lt : s.value < 10 ^ 4 :=
  Nat.lt_of_lt_of_le (ofDigitChars_lt s.digits) (Nat.pow_le_pow_right (by decide) (Nat.le_of_lt_succ s.short))

/-- The bound is read if nothing is left behind it, and a larger number
otherwise. -/
theorem overwrite_value :
    n.val ≤ (s.overwrite n).value ∧ ((s.overwrite n).value = n.val ↔ s.text.length ≤ n.text.length) := by
  by_cases h : s.text.length ≤ n.text.length
  · rw [overwrite_of_le s n h, value_ofNum]
    exact ⟨Nat.le_refl _, iff_of_true rfl h⟩
  · have hlt : n.val < (s.overwrite n).value :=
      ofDigitChars_longer n.pos fun h0 => h (List.drop_eq_nil_iff.1 h0)
    exact ⟨Nat.le_of_lt hlt, iff_of_false (Nat.ne_of_gt hlt) h⟩

end Held

/-- The two buffers, holding digits. -/
def holding (s t : Held) : Bufs := ⟨pad BASE_FIVE s.text, pad BASE_FIVE t.text⟩

theorem intervalBounds_holding (s t : Held) (lo hi : Num) :
    intervalBounds (holding s t) lo.text hi.text =
      .ok (if (t.overwrite hi).value < (s.overwrite lo).value then none
        else some (holding (s.overwrite lo) (t.overwrite hi), (s.overwrite lo).value, (t.overwrite hi).value)) := by
  have h1 := lo.text_length
  have h2 := hi.text_length
  rw [intervalBounds, if_neg (by simp only [BASE_FIVE]; omega)]
  simp only [holding, Held.strncpy_pad, Held.strtol_pad, Int.ofNat_lt]

/-- What the buffers hold after the items, if each bound was read as it is. -/
def heldLo (items : List Item) : Held := (lastInterval items).elim .none fun p => .ofNum p.1

def heldHi (items : List Item) : Held := (lastInterval items).elim .none fun p => .ofNum p.2

theorem heldLo_concat_vid (items : List Item) (v : Num) : heldLo (items ++ [.vid v]) = heldLo items := by
  rw [heldLo, lastInterval_concat]; rfl

theorem heldHi_concat_vid (items : List Item) (v : Num) : heldHi (items ++ [.vid v]) = heldHi items := by
  rw [heldHi, lastInterval_concat]; rfl

theorem heldLo_concat_interval (items : List Item) (lo hi : Num) :
    heldLo (items ++ [.interval lo hi]) = .ofNum lo := by
  rw [heldLo, lastInterval_concat]; rfl

theorem heldHi_concat_interval (items : List Item) (lo hi : Num) :
    heldHi (items ++ [.interval lo hi]) = .ofNum hi := by
  rw [heldHi, lastInterval_concat]; rfl

theorem notShorter_iff (items : List Item) (lo hi : Num) :
    (Item.interval lo hi).NotShorter items ↔
      (heldLo items).text.length ≤ lo.text.length ∧ (heldHi items).text.length ≤ hi.text.length := by
  rw [Item.NotShorter, heldLo, heldHi]
  cases lastInterval items with
  | none => simp [Held.none]
  | some p => simp [Held.ofNum]

end TsnSwitch.Base
