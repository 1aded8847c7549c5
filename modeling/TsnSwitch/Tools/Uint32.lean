/-
Is the first row a number of 32 bits? (`validate_uint_32_number` in
base_private_validators.c)

The digits are looked at one by one, but the limit is compared with what
`strtol` makes of them. The limit is one too large, and where a `long` has 32
bits nothing exceeds it (`uint32Ok_iff`).
-/
import TsnSwitch.Tools.Chain

namespace TsnSwitch.Tools

open Lib

def MAX_UNINT_32_VALUE : Int := 4294967296

/-- The platforms: how many bits a `long` has. -/
inductive LongWidth where
  | bits32
  | bits64
  deriving DecidableEq

def LongWidth.bits : LongWidth → Nat
  | .bits32 => 32
  | .bits64 => 64

/-- A number in a `long`: the nearest there is. -/
def LongWidth.saturate (w : LongWidth) (n : Int) : Int := max (-2 ^ (w.bits - 1)) (min (2 ^ (w.bits - 1) - 1) n)

/-- The digits of the first row are looked at up to its last column, and read
up to a NUL wherever it is. -/
def validateUint32Number (w : LongWidth) (sh : Shape) (rows : Matrix) : Except Overrun (Status × Matrix) :=
  let row := rows.headD []
  if row = [] then .ok (BASE_VALIDATION_FAILED, rows)
  else if row.all Char.isDigit then
    match strtol (chars sh rows) with
    | none => .error .read
    | some value =>
      .ok (if MAX_UNINT_32_VALUE < w.saturate value then BASE_VALIDATION_FAILED else BASE_VALIDATION_SUCCEEDED, rows)
  else .ok (BASE_VALIDATION_FAILED, rows.set 0 [])

/-! ## What the validation is for -/

/-- A string in a row. -/
structure RowString (sh : Shape) where
  text : List Char
  room : text.length < sh.colNum

def AllDigits (text : List Char) : Prop := text ≠ [] ∧ ∀ c ∈ text, c.isDigit = true

instance (text : List Char) : Decidable (AllDigits text) := inferInstanceAs (Decidable (_ ∧ _))

/-- The value of a text of digits. -/
def valueOfDigits (text : List Char) : Nat := Nat.ofDigitChars 10 text 0

def IsUint32 (text : List Char) : Prop := AllDigits text ∧ valueOfDigits text ≤ 2 ^ 32 - 1

/-- The validation succeeds for the numbers of 32 bits and for nothing else. -/
def Uint32Ok (w : LongWidth) (sh : Shape) (s : RowString sh) (rows : Matrix) : Prop :=
  ∃ status rows', validateUint32Number w sh (s.text :: rows) = .ok (status, rows') ∧
    (status = BASE_VALIDATION_SUCCEEDED ↔ IsUint32 s.text)

/-- The numbers that are taken though they are too large. -/
def TakenTooLarge (text : List Char) : LongWidth → Prop
  | .bits32 => AllDigits text ∧ 2 ^ 32 ≤ valueOfDigits text
  | .bits64 => AllDigits text ∧ valueOfDigits text = 2 ^ 32

/-! ## Success -/

variable {w : LongWidth} {sh : Shape}

theorem strtol_row {s : RowString sh} (hd : ∀ c ∈ s.text, c.isDigit = true) (rows : Matrix) :
    strtol (chars sh (s.text :: rows)) = some (valueOfDigits s.text : Int) := by
  rw [chars, List.flatMap_cons, pad_eq s.room, List.append_assoc, List.cons_append, strtol_digits hd]
  rfl

/-- The comparison with the limit, on either platform. -/
theorem exceeds_iff (n : Nat) :
    MAX_UNINT_32_VALUE < w.saturate n ↔ w = .bits64 ∧ 2 ^ 32 < n := by
  cases w with
  | bits32 =>
    simp only [MAX_UNINT_32_VALUE, LongWidth.saturate, LongWidth.bits, reduceCtorEq, false_and, iff_false]
    omega
  | bits64 =>
    simp only [MAX_UNINT_32_VALUE, LongWidth.saturate, LongWidth.bits, true_and]
    omega

/-- **What is accepted: digits, and on 64 bits with a value up to `2 ^ 32`.** -/
theorem validateUint32Number_eq (s : RowString sh) (rows : Matrix) :
    ∃ status rows', validateUint32Number w sh (s.text :: rows) = .ok (status, rows') ∧
      (status = BASE_VALIDATION_SUCCEEDED ↔ AllDigits s.text ∧ (w = .bits64 → valueOfDigits s.text ≤ 2 ^ 32)) := by
  have hdiff : BASE_VALIDATION_FAILED ≠ BASE_VALIDATION_SUCCEEDED := by decide
  rw [validateUint32Number, List.headD_cons]
  by_cases hempty : s.text = []
  · rw [if_pos hempty]
    exact ⟨_, _, rfl, iff_of_false hdiff fun h => h.1.1 hempty⟩
  rw [if_neg hempty]
  by_cases hd : s.text.all Char.isDigit = true
  · have hall := List.all_eq_true.1 hd
    simp only [if_pos hd, strtol_row hall, exceeds_iff]
    refine ⟨_, _, rfl, ?_⟩
    by_cases hlarge : w = .bits64 ∧ 2 ^ 32 < valueOfDigits s.text
    · rw [if_pos hlarge]
      exact iff_of_false hdiff fun h => Nat.not_lt.2 (h.2 hlarge.1) hlarge.2
    · rw [if_neg hlarge]
      exact iff_of_true rfl ⟨⟨hempty, hall⟩, fun hw => Nat.not_lt.1 fun h => hlarge ⟨hw, h⟩⟩
  · rw [if_neg hd]
    exact ⟨_, _, rfl, iff_of_false hdiff fun h => hd (List.all_eq_true.2 h.1.2)⟩

/-- **Exactly the numbers that are a little or, with 32 bits, at all too large
are taken by mistake.** -/
theorem uint32Ok_iff (w : LongWidth) (sh : Shape) (s : RowString sh) (rows : Matrix) :
    Uint32Ok w sh s rows ↔ ¬ TakenTooLarge s.text w := by
  obtain ⟨status, rows', hrun, hstatus⟩ := @validateUint32Number_eq w sh s rows
  have hok : Uint32Ok w sh s rows ↔ (status = BASE_VALIDATION_SUCCEEDED ↔ IsUint32 s.text) := by
    refine ⟨?_, fun h => ⟨status, rows', hrun, h⟩⟩
    rintro ⟨status', rows'', hrun', h⟩
    rw [hrun, Except.ok.injEq, Prod.mk.injEq] at hrun'
    rw [hrun'.1]
    exact h
  rw [hok, hstatus, IsUint32]
  by_cases hd : AllDigits s.text
  · cases w with
    | bits32 =>
      simp only [TakenTooLarge, hd, true_and, reduceCtorEq, false_implies, true_iff]
      omega
    | bits64 =>
      simp only [TakenTooLarge, hd, true_and, true_implies]
      omega
  · cases w <;> simp [TakenTooLarge, hd]

def limitShape : Shape := ⟨1, 255, Nat.one_pos, Nat.le_of_ble_eq_true rfl⟩

/-- The text of `2 ^ 32`. -/
def limitString : RowString limitShape := ⟨"4294967296".toList, Nat.le_of_ble_eq_true rfl⟩

/-- It is accepted on both platforms. -/
theorem not_uint32Ok_limit :
    ¬ Uint32Ok .bits32 limitShape limitString [] ∧ ¬ Uint32Ok .bits64 limitShape limitString [] := by
  have hval : ∀ w, validateUint32Number w limitShape (limitString.text :: []) =
      .ok (BASE_VALIDATION_SUCCEEDED, [limitString.text]) := by
    intro w
    cases w <;> decide +kernel
  have hlarge : ¬ IsUint32 limitString.text := fun h => absurd h.2 (by decide +kernel)
  constructor <;>
  · rintro ⟨status, rows, hrun, h⟩
    rw [hval, Except.ok.injEq, Prod.mk.injEq] at hrun
    exact hlarge (h.1 hrun.1.symm)

end TsnSwitch.Tools
