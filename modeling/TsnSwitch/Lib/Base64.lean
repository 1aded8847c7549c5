/-
The base64 encoding of RFC 4648, section 4.

Three bytes are a group of 24 bits, read as four numbers of six bits, each of
which has a character. At the end of the bytes zero bits fill a group up, and
the characters that stand for zero bits only are `=`.
-/
import Mathlib.Tactic

namespace TsnSwitch.Lib.Base64

/-! ## The alphabet -/

/-- The character of six bits. -/
def digit (v : BitVec 6) : Char :=
  if v < 26 then Char.ofNat (65 + v.toNat)
  else if v < 52 then Char.ofNat (97 + (v.toNat - 26))
  else if v < 62 then Char.ofNat (48 + (v.toNat - 52))
  else if v = 62 then '+' else '/'

/-- The six bits of a character of the alphabet. -/
def value? (c : Char) : Option (BitVec 6) :=
  if c.isUpper then some (BitVec.ofNat 6 (c.toNat - 65))
  else if c.isLower then some (BitVec.ofNat 6 (c.toNat - 97 + 26))
  else if c.isDigit then some (BitVec.ofNat 6 (c.toNat - 48 + 52))
  else if c = '+' then some 62
  else if c = '/' then some 63
  else none

theorem value?_digit (v : BitVec 6) : value? (digit v) = some v := by
  revert v
  decide +kernel

theorem digit_ne_pad (v : BitVec 6) : digit v ≠ '=' := fun h => by
  have hv := value?_digit v
  rw [h] at hv
  exact nomatch hv

/-! ## Groups -/

def sextet (w : BitVec 24) (i : Nat) : BitVec 6 := w.extractLsb' (18 - 6 * i) 6

def octet (w : BitVec 24) (i : Nat) : BitVec 8 := w.extractLsb' (16 - 8 * i) 8

theorem sextets_append (w : BitVec 24) : sextet w 0 ++ sextet w 1 ++ sextet w 2 ++ sextet w 3 = w := by
  refine BitVec.eq_of_getLsbD_eq fun i hi => ?_
  simp only [sextet, BitVec.getLsbD_append, BitVec.getLsbD_extractLsb']
  interval_cases i <;> rfl

theorem octet_append (a b c : BitVec 8) :
    octet (a ++ b ++ c) 0 = a ∧ octet (a ++ b ++ c) 1 = b ∧ octet (a ++ b ++ c) 2 = c := by
  refine ⟨?_, ?_, ?_⟩ <;> refine BitVec.eq_of_getLsbD_eq fun i hi => ?_ <;>
    simp only [octet, BitVec.getLsbD_append, BitVec.getLsbD_extractLsb'] <;> interval_cases i <;> rfl

/-! ## Texts -/

def encode : List (BitVec 8) → List Char
  | [] => []
  | [a] =>
    let w := a ++ 0#8 ++ 0#8
    [digit (sextet w 0), digit (sextet w 1), '=', '=']
  | [a, b] =>
    let w := a ++ b ++ 0#8
    [digit (sextet w 0), digit (sextet w 1), digit (sextet w 2), '=']
  | a :: b :: c :: rest =>
    let w := a ++ b ++ c
    digit (sextet w 0) :: digit (sextet w 1) :: digit (sextet w 2) :: digit (sextet w 3) :: encode rest

/-- Two characters before the pads are a byte, three are two bytes. -/
def decode : List Char → Option (List (BitVec 8))
  | [] => some []
  | [a, b, '=', '='] => do
    let w := (← value? a) ++ (← value? b) ++ 0#6 ++ 0#6
    some [octet w 0]
  | [a, b, c, '='] => do
    let w := (← value? a) ++ (← value? b) ++ (← value? c) ++ 0#6
    some [octet w 0, octet w 1]
  | a :: b :: c :: d :: rest => do
    let w := (← value? a) ++ (← value? b) ++ (← value? c) ++ (← value? d)
    let bytes ← decode rest
    some (octet w 0 :: octet w 1 :: octet w 2 :: bytes)
  | _ => none

/-- How many pads end the text of `n` bytes. -/
def pads (n : Nat) : Nat := (3 - n % 3) % 3

/-- The sextets that lie in filled up bytes are zero. -/
theorem sextet_fill (a b : BitVec 8) :
    sextet (a ++ b ++ 0#8) 3 = 0#6 ∧ sextet (a ++ 0#8 ++ 0#8) 2 = 0#6 := by
  constructor <;> refine BitVec.eq_of_getLsbD_eq fun i hi => ?_ <;>
    simp only [sextet, BitVec.getLsbD_append, BitVec.getLsbD_extractLsb'] <;> interval_cases i <;> simp

theorem decode_digits (v₀ v₁ v₂ v₃ : BitVec 6) (rest : List Char) :
    decode (digit v₀ :: digit v₁ :: digit v₂ :: digit v₃ :: rest) =
      (decode rest).map fun bytes =>
        let w := v₀ ++ v₁ ++ v₂ ++ v₃
        octet w 0 :: octet w 1 :: octet w 2 :: bytes := by
  rw [decode.eq_4 _ _ _ _ _ (fun _ h => absurd h (digit_ne_pad _)) fun h => absurd h (digit_ne_pad _)]
  simp only [value?_digit, Option.bind_eq_bind, Option.bind_some]
  cases decode rest <;> rfl

theorem decode_encode (bytes : List (BitVec 8)) : decode (encode bytes) = some bytes := by
  induction bytes using encode.induct with
  | case1 => rfl
  | case2 a =>
    have h := sextets_append (a ++ 0#8 ++ 0#8)
    rw [(sextet_fill a 0#8).1, (sextet_fill a 0#8).2] at h
    simp only [encode, decode, value?_digit, Option.bind_eq_bind, Option.bind_some, h]
    rw [(octet_append a _ _).1]
  | case3 a b =>
    have h := sextets_append (a ++ b ++ 0#8)
    rw [(sextet_fill a b).1] at h
    rw [encode, decode.eq_3 _ _ _ fun h => absurd h (digit_ne_pad _)]
    simp only [value?_digit, Option.bind_eq_bind, Option.bind_some, h]
    rw [(octet_append a b _).1, (octet_append a b _).2.1]
  | case4 a b c rest ih =>
    rw [encode, decode_digits, ih, Option.map_some, sextets_append]
    simp only [octet_append a b c]

theorem length_encode (bytes : List (BitVec 8)) : (encode bytes).length = 4 * ((bytes.length + 2) / 3) := by
  induction bytes using encode.induct with
  | case1 => rfl
  | case2 a => simp [encode]
  | case3 a b => simp [encode]
  | case4 a b c rest ih =>
    simp only [encode, List.length_cons, ih]
    omega

/-- The characters of the alphabet first, then the pads. -/
theorem encode_eq_append_pads (bytes : List (BitVec 8)) :
    ∃ body, encode bytes = body ++ List.replicate (pads bytes.length) '=' ∧ ∀ c ∈ body, ∃ v, digit v = c := by
  induction bytes using encode.induct with
  | case1 => exact ⟨[], rfl, fun _ h => nomatch h⟩
  | case2 a => exact ⟨[_, _], rfl, by simp⟩
  | case3 a b => exact ⟨[_, _, _], rfl, by simp⟩
  | case4 a b c rest ih =>
    obtain ⟨body, he, hb⟩ := ih
    have hp : pads (a :: b :: c :: rest).length = pads rest.length := by
      simp only [pads, List.length_cons]
      omega
    refine ⟨_ :: _ :: _ :: _ :: body, by rw [encode, he, hp]; rfl, ?_⟩
    simpa using hb

theorem encode_injective : Function.Injective encode := fun bytes bytes' h => by
  have hd := congrArg decode h
  rw [decode_encode, decode_encode] at hd
  exact Option.some.inj hd

end TsnSwitch.Lib.Base64
