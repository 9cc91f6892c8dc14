import Bam.Lib.Utf16
import Bam.Sdk.PostReply

namespace Bam

open Bytewise

/-!
# Text fields

The app codecs write a string as the length of its UTF-8 form in four bytes and
the form itself.  The strings here are well formed, so they are lists of
characters.
-/

/-- A text behind its length. -/
def writeText (text : List Char) : Bytes :=
  toBE 4 (Utf8.encode text).length ++ Utf8.encode text

/-- The text that starts at an offset, right behind its length; `past` and
`invalid` are what the codec throws. -/
def readText
    {ε : Type}
    (past invalid : ε)
    (contents : Bytes)
    (start : Nat) : Except ε (List Char) :=
  if contents.length < start + readU32BE contents (start - 4) then
    .error past
  else
    match Utf8.decodeFatal? (contentBytes contents start) with
    | none => .error invalid
    | some text => .ok text

/-- A written text inside a buffer. -/
structure HoldsText
    (contents : Bytes)
    (start : Nat)
    (text : List Char)
    (tail : Bytes) : Prop where
  length : readU32BE contents (start - 4) = (Utf8.encode text).length
  inside : start + (Utf8.encode text).length ≤ contents.length
  bytes : contentBytes contents start = Utf8.encode text
  behind : contents.drop (start + (Utf8.encode text).length) = tail

theorem holdsText_of_written
    {contents tail : Bytes}
    {offset : Nat}
    {text : List Char}
    (short : (Utf8.encode text).length ≤ 0xffffffff)
    (written : contents.drop offset = writeText text ++ tail) :
    HoldsText contents (offset + 4) text tail := by
  rw [writeText, List.append_assoc] at written
  have lengths := congrArg List.length written
  rw [List.length_drop, List.length_append, length_toBE,
    List.length_append] at lengths
  have isLength :
      readU32BE contents offset = (Utf8.encode text).length := by
    rw [readU32BE, written, List.take_left' (length_toBE _ _)]
    apply ofBE_toBE_of_lt
    omega
  have behindLength :
      contents.drop (offset + 4) = Utf8.encode text ++ tail := by
    rw [← List.drop_drop, written]
    exact List.drop_left' (length_toBE _ _)
  refine ⟨isLength, ?_, ?_, ?_⟩
  · omega
  · rw [contentBytes, Nat.add_sub_cancel, isLength, behindLength]
    exact List.take_left' rfl
  · rw [← List.drop_drop, behindLength]
    exact List.drop_left' rfl

theorem decodeFatal?_encode
    (text : List Char) :
    Utf8.decodeFatal? (Utf8.encode text) = some (Utf8.dropMark text) := by
  rw [Utf8.decodeFatal?, Utf8.decode?_eq_some_iff.mpr rfl,
    Option.map_some]

/-- A held text is read without its byte order mark. -/
theorem HoldsText.read
    {contents tail : Bytes}
    {start : Nat}
    {text : List Char}
    (holds : HoldsText contents start text tail)
    {ε : Type}
    (past invalid : ε) :
    readText past invalid contents start = .ok (Utf8.dropMark text) := by
  rw [readText, holds.length, if_neg (Nat.not_lt.mpr holds.inside),
    holds.bytes, decodeFatal?_encode]

/-- A text that begins with a byte order mark. -/
def Marked (text : List Char) : Prop :=
  text.head? = some Utf8.byteOrderMark

instance decidableMarked
    (text : List Char) : Decidable (Marked text) :=
  inferInstanceAs (Decidable (text.head? = some Utf8.byteOrderMark))

theorem dropMark_eq_self_iff_not_marked
    {text : List Char} :
    Utf8.dropMark text = text ↔ ¬Marked text :=
  Utf16.dropMark_eq_self_iff

/-- A fixed field in front is what is read at its place. -/
theorem ofBE_take_written
    {width value : Nat}
    (fits : value < 256 ^ width)
    (tail : Bytes) :
    ofBE ((toBE width value ++ tail).take width) = value := by
  rw [List.take_left' (length_toBE _ _), ofBE_toBE_of_lt fits]

/-- A 32-byte word as its bytes. -/
def wordBytes (word : Bytes32) : Bytes :=
  toBE 32 word.toNat

@[simp] theorem length_wordBytes
    (word : Bytes32) :
    (wordBytes word).length = 32 :=
  length_toBE 32 _

/-- A written word is read back. -/
theorem ofNat_take_wordBytes
    (word : Bytes32)
    (tail : Bytes) :
    BitVec.ofNat 256 (ofBE ((wordBytes word ++ tail).take 32)) = word := by
  have fits : word.toNat < 256 ^ 32 := word.isLt
  rw [wordBytes, ofBE_take_written fits, BitVec.ofNat_toNat,
    BitVec.setWidth_eq]

end Bam
