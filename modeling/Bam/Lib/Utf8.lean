import Mathlib.Data.List.Basic

namespace Utf8

/-!
# UTF-8 text

Text is a list of Unicode scalar values.  Encoding and strict decoding are those
of the core library on byte lists; a decoder of the WHATWG Encoding standard
drops a leading byte order mark on top of that.
-/

/-- The bytes of a text. -/
def encode (text : List Char) : List UInt8 :=
  text.flatMap String.utf8EncodeChar

/-- The text bytes encode; `none` where they are not well formed. -/
def decode? (bytes : List UInt8) : Option (List Char) :=
  bytes.toByteArray.utf8Decode?.map Array.toList

/-- U+0000. -/
def nul : Char :=
  Char.ofNat 0

/-- U+FEFF. -/
def byteOrderMark : Char :=
  Char.ofNat 0xfeff

/-- A text without its byte order mark. -/
def dropMark : List Char → List Char
  | [] => []
  | first :: rest =>
      if first = byteOrderMark then rest else first :: rest

/-- A fatal decoder that does not ignore the byte order mark. -/
def decodeFatal? (bytes : List UInt8) : Option (List Char) :=
  (decode? bytes).map dropMark

theorem toByteArray_encode
    (text : List Char) :
    (encode text).toByteArray = text.utf8Encode := by
  rw [List.utf8Encode]
  rfl

/-- Bytes decode to the text they are the encoding of. -/
theorem decode?_eq_some_iff
    {bytes : List UInt8}
    {text : List Char} :
    decode? bytes = some text ↔ encode text = bytes := by
  constructor
  · intro decoded
    obtain ⟨characters, isDecoded, rfl⟩ :=
      Option.map_eq_some_iff.mp decoded
    have isSome : bytes.toByteArray.utf8Decode?.isSome = true := by
      rw [isDecoded]
      rfl
    have encoded :=
      @ByteArray.utf8Encode_get_utf8Decode? bytes.toByteArray isSome
    simp only [isDecoded, Option.get_some] at encoded
    rw [← toByteArray_encode] at encoded
    exact List.toByteArray_inj.mp encoded
  · rintro rfl
    rw [decode?, toByteArray_encode, List.utf8Decode?_utf8Encode]
    rfl

@[simp] theorem encode_nil :
    encode [] = [] :=
  rfl

theorem encode_cons
    (first : Char)
    (rest : List Char) :
    encode (first :: rest) = String.utf8EncodeChar first ++ encode rest :=
  List.flatMap_cons

theorem zero_ne_ofNat
    {number : Nat}
    (positive : 0 < number)
    (fits : number < 256) :
    (0 : UInt8) ≠ UInt8.ofNat number := by
  intro same
  have values := congrArg UInt8.toNat same
  rw [UInt8.toNat_ofNat', Nat.mod_eq_of_lt fits] at values
  exact Nat.ne_of_lt positive values

/-- A zero byte encodes U+0000 only. -/
theorem zero_mem_utf8EncodeChar
    {character : Char} :
    0 ∈ String.utf8EncodeChar character ↔ character = nul := by
  constructor
  · intro member
    have isZero : character.val.toNat = 0 := by
      by_contra nonzero
      simp only [String.utf8EncodeChar] at member
      split at member
      · rcases List.mem_singleton.mp member with same
        exact zero_ne_ofNat (by omega) (by omega) same
      · split at member
        · simp only [List.mem_cons, List.not_mem_nil, or_false] at member
          rcases member with same | same
          all_goals exact zero_ne_ofNat (by omega) (by omega) same
        · split at member
          · simp only [List.mem_cons, List.not_mem_nil, or_false]
              at member
            rcases member with same | same | same
            all_goals exact zero_ne_ofNat (by omega) (by omega) same
          · simp only [List.mem_cons, List.not_mem_nil, or_false]
              at member
            rcases member with same | same | same | same
            all_goals exact zero_ne_ofNat (by omega) (by omega) same
    exact Char.ext (UInt32.toNat_inj.mp isZero)
  · rintro rfl
    decide

/-- Encoded text has a zero byte where the text has U+0000. -/
theorem zero_mem_encode
    {text : List Char} :
    0 ∈ encode text ↔ nul ∈ text := by
  simp only [encode, List.mem_flatMap, zero_mem_utf8EncodeChar]
  exact ⟨fun ⟨_, member, same⟩ => same ▸ member,
    fun member => ⟨nul, member, rfl⟩⟩

theorem nul_mem_dropMark
    {text : List Char} :
    nul ∈ dropMark text ↔ nul ∈ text := by
  cases text with
  | nil =>
      rfl
  | cons first rest =>
      simp only [dropMark]
      split
      · rename_i isMark
        subst isMark
        have other : nul ≠ byteOrderMark := by
          decide
        simp [other]
      · rfl

end Utf8
