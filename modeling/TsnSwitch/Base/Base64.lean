/-
The base64 text of a byte sequence (`base64_encode`, base_linux_tool_helpers.c) is
the one of RFC 4648.

The bytes are counted in `j` up to three, then the group is written. `i` and `k` are
`int`s in C; they are naturals here, and `length_base64Encode` tells up to which length
an `int` holds them.
-/
import TsnSwitch.Base.Vids
import TsnSwitch.Lib.Base64

namespace TsnSwitch.Base

open Lib

def base64EncodeTable : List Char :=
  "ABCDEFGHIJKLMNOPQRSTUVWXYZabcdefghijklmnopqrstuvwxyz0123456789+/".toList

/-- `base64_encode_table[index]`, the NUL of the literal included. -/
def base64EncodeTableAt (index : BitVec 32) : Char := base64EncodeTable.getD index.toNat '\x00'

/-- The locals of `base64_encode`; `k` characters are in `encoded`. -/
structure Encoder where
  tmpInput : Nat → BitVec 8
  j : Nat
  encoded : List Char

namespace Encoder

def init : Encoder := { tmpInput := fun _ => 0#8, j := 0, encoded := [] }

/-- `tmp_input[i]`, promoted to an `int`. -/
def byte (s : Encoder) (i : Nat) : BitVec 32 := (s.tmpInput i).setWidth 32

def write (s : Encoder) (indices : List (BitVec 32)) : Encoder :=
  { s with encoded := s.encoded ++ indices.map base64EncodeTableAt }

/-- One turn of the loop. -/
def read (s : Encoder) (input : BitVec 8) : Encoder :=
  let s := { s with tmpInput := Function.update s.tmpInput s.j input, j := s.j + 1 }
  if s.j = 3 then
    s.write
      [s.byte 0 >>> 2 &&& 0x3f#32,
        ((s.byte 0 &&& 0x03#32) <<< 4) ||| ((s.byte 1 &&& 0xf0#32) >>> 4),
        ((s.byte 1 &&& 0x0f#32) <<< 2) ||| ((s.byte 2 &&& 0xc0#32) >>> 6),
        s.byte 2 &&& 0x3f#32]
    |> fun s => { s with j := 0 }
  else s

/-- The bytes of an unfinished group. -/
def finish (s : Encoder) : Encoder :=
  if 0 < s.j then
    let tmpInput := Function.update s.tmpInput 2 0#8
    let s := { s with tmpInput := if s.j = 1 then Function.update tmpInput 1 0#8 else tmpInput }
    let s := s.write
      [s.byte 0 >>> 2 &&& 0x3f#32, ((s.byte 0 &&& 0x03#32) <<< 4) ||| ((s.byte 1 &&& 0xf0#32) >>> 4)]
    let s := if s.j = 2 then s.write [(s.byte 1 &&& 0x0f#32) <<< 2] else { s with encoded := s.encoded ++ ['='] }
    { s with encoded := s.encoded ++ ['='] }
  else s

end Encoder

/-- What is returned and what stands in `encoded`. -/
def base64Encode (input : List (BitVec 8)) : Nat × List Char :=
  let s := (input.foldl Encoder.read .init).finish
  (EXIT_SUCCESS, s.encoded ++ ['\x00'])

/-! ## Groups -/

section Group

variable (a b c : BitVec 8)

theorem base64EncodeTableAt_setWidth (v : BitVec 6) : base64EncodeTableAt (v.setWidth 32) = Base64.digit v := by
  revert v
  decide +kernel

/-- The shifts and masks of the source take the sextets out of the bytes. -/
theorem sextet_setWidth :
    (a.setWidth 32 >>> 2 &&& 0x3f#32 = (Base64.sextet (a ++ b ++ c) 0).setWidth 32) ∧
    (((a.setWidth 32 &&& 0x03#32) <<< 4) ||| ((b.setWidth 32 &&& 0xf0#32) >>> 4) =
      (Base64.sextet (a ++ b ++ c) 1).setWidth 32) ∧
    (((b.setWidth 32 &&& 0x0f#32) <<< 2) ||| ((c.setWidth 32 &&& 0xc0#32) >>> 6) =
      (Base64.sextet (a ++ b ++ c) 2).setWidth 32) ∧
    (c.setWidth 32 &&& 0x3f#32 = (Base64.sextet (a ++ b ++ c) 3).setWidth 32) := by
  refine ⟨?_, ?_, ?_, ?_⟩ <;> refine BitVec.eq_of_getLsbD_eq fun i hi => ?_ <;>
    simp only [Base64.sextet, BitVec.getLsbD_append, BitVec.getLsbD_extractLsb', BitVec.getLsbD_setWidth,
      BitVec.getLsbD_and, BitVec.getLsbD_or, BitVec.getLsbD_ushiftRight, BitVec.getLsbD_shiftLeft] <;>
    interval_cases i <;> simp

theorem read_first {s : Encoder} (hj : s.j = 0) :
    s.read a = { s with tmpInput := Function.update s.tmpInput 0 a, j := 1 } := by
  simp [Encoder.read, hj]

theorem read_second {s : Encoder} (hj : s.j = 1) :
    s.read b = { s with tmpInput := Function.update s.tmpInput 1 b, j := 2 } := by
  simp [Encoder.read, hj]

/-- Three bytes are four characters, and the next group starts. -/
theorem read_group {s : Encoder} (hj : s.j = 0) :
    (((s.read a).read b).read c).j = 0 ∧
      (((s.read a).read b).read c).encoded = s.encoded ++ Base64.encode [a, b, c] := by
  obtain ⟨h₀, h₁, h₂, h₃⟩ := sextet_setWidth a b c
  rw [read_first a hj, read_second b rfl]
  simp [Encoder.read, Encoder.write, Encoder.byte, h₀, h₁, h₂, h₃, base64EncodeTableAt_setWidth, Base64.encode]

theorem finish_one {s : Encoder} (hj : s.j = 0) :
    (s.read a).finish.encoded = s.encoded ++ Base64.encode [a] := by
  obtain ⟨h₀, h₁, -, -⟩ := sextet_setWidth a 0#8 0#8
  rw [read_first a hj]
  have h₁' : (a.setWidth 32 &&& 0x03#32) <<< 4 = (Base64.sextet (a ++ 0#8 ++ 0#8) 1).setWidth 32 := by
    rw [← h₁]
    simp
  simp [Encoder.finish, Encoder.write, Encoder.byte, h₀, h₁', base64EncodeTableAt_setWidth, Base64.encode]

theorem finish_two {s : Encoder} (hj : s.j = 0) :
    ((s.read a).read b).finish.encoded = s.encoded ++ Base64.encode [a, b] := by
  obtain ⟨h₀, h₁, h₂, -⟩ := sextet_setWidth a b 0#8
  rw [read_first a hj, read_second b rfl]
  have h₂' : (b.setWidth 32 &&& 0x0f#32) <<< 2 = (Base64.sextet (a ++ b ++ 0#8) 2).setWidth 32 := by
    rw [← h₂]
    simp
  simp [Encoder.finish, Encoder.write, Encoder.byte, h₀, h₁, h₂', base64EncodeTableAt_setWidth, Base64.encode]

end Group

/-! ## Texts -/

/-- The groups written before are in front; the loop starts where a group starts. -/
theorem finish_foldl_read (bytes : List (BitVec 8)) (s : Encoder) (hj : s.j = 0) :
    (bytes.foldl Encoder.read s).finish.encoded = s.encoded ++ Base64.encode bytes := by
  induction bytes using Base64.encode.induct generalizing s with
  | case1 => simp [Encoder.finish, hj, Base64.encode]
  | case2 a => exact finish_one a hj
  | case3 a b => exact finish_two a b hj
  | case4 a b c rest ih =>
    obtain ⟨hg, he⟩ := read_group a b c hj
    simp only [List.foldl_cons]
    rw [ih _ hg, he]
    simp [Base64.encode]

theorem base64Encode_eq (input : List (BitVec 8)) :
    base64Encode input = (EXIT_SUCCESS, Base64.encode input ++ ['\x00']) := by
  simp only [base64Encode, finish_foldl_read input .init rfl]
  rfl

/-- `k` and `i` stay in an `int` up to this length. -/
theorem length_base64Encode {input : List (BitVec 8)} (h : input.length ≤ 1610612733) :
    (base64Encode input).2.length ≤ 2 ^ 31 := by
  rw [base64Encode_eq, List.length_append, Base64.length_encode, List.length_singleton]
  omega

/-- A text that encodes these bytes as the RFC says. -/
structure Rfc4648 (input : List (BitVec 8)) (encoded : List Char) : Prop where
  encoding : encoded = Base64.encode input
  length : encoded.length = 4 * ((input.length + 2) / 3)
  padded : ∃ body, encoded = body ++ List.replicate ((3 - input.length % 3) % 3) '=' ∧
    ∀ c ∈ body, c ∈ base64EncodeTable
  decodes : Base64.decode encoded = some input

theorem mem_base64EncodeTable (v : BitVec 6) : Base64.digit v ∈ base64EncodeTable := by
  revert v
  decide +kernel

theorem rfc4648_encode (input : List (BitVec 8)) : Rfc4648 input (Base64.encode input) where
  encoding := rfl
  length := Base64.length_encode input
  padded := by
    obtain ⟨body, he, hb⟩ := Base64.encode_eq_append_pads input
    refine ⟨body, he, fun c hc => ?_⟩
    obtain ⟨v, hv⟩ := hb c hc
    rw [← hv]
    exact mem_base64EncodeTable v
  decodes := Base64.decode_encode input

/-- Every byte sequence is encoded, and no two alike. -/
theorem base64Encode_rfc :
    (∀ input, ∃ encoded, base64Encode input = (EXIT_SUCCESS, encoded ++ ['\x00']) ∧ Rfc4648 input encoded) ∧
      Function.Injective base64Encode := by
  refine ⟨fun input => ⟨_, base64Encode_eq input, rfc4648_encode input⟩, fun input input' h => ?_⟩
  rw [base64Encode_eq, base64Encode_eq] at h
  exact Base64.encode_injective (List.append_cancel_right (Prod.mk.inj h).2)

example : base64Encode [0x46#8, 0x6f#8, 0x6f#8, 0x62#8] = (EXIT_SUCCESS, "Rm9vYg==\x00".toList) := by decide

end TsnSwitch.Base
