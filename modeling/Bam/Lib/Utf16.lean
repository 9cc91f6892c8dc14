import Mathlib.Data.List.Basic
import Bam.Lib.Utf8

namespace Utf16

/-!
# UTF-16 strings

A string is a list of 16-bit code units, any units at all.  Its text is what
the conversion to scalar values makes of it: a surrogate pair is one character
and a surrogate outside a pair is U+FFFD.
-/

/-- A leading surrogate. -/
def isLead (unit : UInt16) : Bool :=
  0xd800 ≤ unit.toNat && unit.toNat < 0xdc00

/-- A trailing surrogate. -/
def isTrail (unit : UInt16) : Bool :=
  0xdc00 ≤ unit.toNat && unit.toNat < 0xe000

/-- U+FFFD. -/
def replacement : Char :=
  Char.ofNat 0xfffd

/-- White space and line terminators. -/
def isSpace (unit : UInt16) : Bool :=
  let code := unit.toNat
  (9 ≤ code && code ≤ 13) ||
    [0x20, 0xa0, 0x1680, 0x2028, 0x2029, 0x202f, 0x205f, 0x3000,
      0xfeff].contains code ||
    (0x2000 ≤ code && code ≤ 0x200a)

/-- A string without the white space at its ends. -/
def trim (text : List UInt16) : List UInt16 :=
  ((text.dropWhile isSpace).reverse.dropWhile isSpace).reverse

/-- The character of a unit on its own. -/
def scalar (unit : UInt16) : Char :=
  if isLead unit || isTrail unit then
    replacement
  else
    Char.ofNat unit.toNat

/-- The character of a surrogate pair. -/
def pair (lead trail : UInt16) : Char :=
  Char.ofNat
    (0x10000 + (lead.toNat - 0xd800) * 0x400 + (trail.toNat - 0xdc00))

/-- The scalar values of a string. -/
def decode : List UInt16 → List Char
  | [] => []
  | [unit] => [scalar unit]
  | lead :: trail :: rest =>
      if isLead lead && isTrail trail then
        pair lead trail :: decode rest
      else
        scalar lead :: decode (trail :: rest)

/-- The code units of a character. -/
def encodeChar (character : Char) : List UInt16 :=
  if character.toNat < 0x10000 then
    [UInt16.ofNat character.toNat]
  else
    [UInt16.ofNat (0xd800 + (character.toNat - 0x10000) / 0x400),
      UInt16.ofNat (0xdc00 + (character.toNat - 0x10000) % 0x400)]

/-- The string of a text. -/
def encode (text : List Char) : List UInt16 :=
  text.flatMap encodeChar

@[simp] theorem encode_nil :
    encode [] = [] :=
  rfl

@[simp] theorem encode_cons
    (first : Char)
    (rest : List Char) :
    encode (first :: rest) = encodeChar first ++ encode rest :=
  List.flatMap_cons

/-- No character is a surrogate. -/
theorem toNat_not_surrogate
    (character : Char) :
    character.toNat < 0xd800 ∨
      0xe000 ≤ character.toNat ∧ character.toNat < 0x110000 := by
  rcases character.valid with low | ⟨above, below⟩
  · exact .inl low
  · exact .inr ⟨above, below⟩

theorem toNat_ofNat_of_lt
    {number : Nat}
    (fits : number < 0x10000) :
    (UInt16.ofNat number).toNat = number := by
  rw [UInt16.toNat_ofNat']
  exact Nat.mod_eq_of_lt fits

/-- A unit that is no surrogate starts no pair. -/
theorem decode_plain
    {unit : UInt16}
    (notLead : isLead unit = false)
    (notTrail : isTrail unit = false)
    (rest : List UInt16) :
    decode (unit :: rest) = Char.ofNat unit.toNat :: decode rest := by
  have isScalar : scalar unit = Char.ofNat unit.toNat := by
    simp [scalar, notLead, notTrail]
  cases rest with
  | nil =>
      simp [decode, isScalar]
  | cons next others =>
      simp [decode, notLead, isScalar]

/-- A string that encodes a text has that text. -/
@[simp] theorem decode_encodeChar_append
    (character : Char)
    (rest : List UInt16) :
    decode (encodeChar character ++ rest) = character :: decode rest := by
  have range := toNat_not_surrogate character
  simp only [encodeChar]
  split
  · rename_i oneUnit
    have value := toNat_ofNat_of_lt oneUnit
    have notLead :
        isLead (UInt16.ofNat character.toNat) = false := by
      simp only [isLead, value, Bool.and_eq_false_iff,
        decide_eq_false_iff_not]
      omega
    have notTrail :
        isTrail (UInt16.ofNat character.toNat) = false := by
      simp only [isTrail, value, Bool.and_eq_false_iff,
        decide_eq_false_iff_not]
      omega
    rw [List.singleton_append, decode_plain notLead notTrail, value,
      Char.ofNat_toNat]
  · rename_i twoUnits
    have leadValue :
        (UInt16.ofNat
          (0xd800 + (character.toNat - 0x10000) / 0x400)).toNat =
            0xd800 + (character.toNat - 0x10000) / 0x400 :=
      toNat_ofNat_of_lt (by omega)
    have trailValue :
        (UInt16.ofNat
          (0xdc00 + (character.toNat - 0x10000) % 0x400)).toNat =
            0xdc00 + (character.toNat - 0x10000) % 0x400 :=
      toNat_ofNat_of_lt (by omega)
    have leads :
        isLead (UInt16.ofNat
          (0xd800 + (character.toNat - 0x10000) / 0x400)) = true := by
      simp only [isLead, leadValue, Bool.and_eq_true, decide_eq_true_eq]
      omega
    have trails :
        isTrail (UInt16.ofNat
          (0xdc00 + (character.toNat - 0x10000) % 0x400)) = true := by
      simp only [isTrail, trailValue, Bool.and_eq_true,
        decide_eq_true_eq]
      omega
    have isPair :
        pair
          (UInt16.ofNat
            (0xd800 + (character.toNat - 0x10000) / 0x400))
          (UInt16.ofNat
            (0xdc00 + (character.toNat - 0x10000) % 0x400)) =
          character := by
      rw [pair, leadValue, trailValue]
      have number :
          0x10000 +
              (0xd800 + (character.toNat - 0x10000) / 0x400 - 0xd800) *
                0x400 +
              (0xdc00 + (character.toNat - 0x10000) % 0x400 - 0xdc00) =
            character.toNat := by
        omega
      rw [number, Char.ofNat_toNat]
    simp only [List.cons_append, List.nil_append, decode, leads, trails,
      Bool.and_self, if_true, isPair]

/-- A text is the text of its string. -/
@[simp] theorem decode_encode
    (text : List Char) :
    decode (encode text) = text := by
  induction text with
  | nil =>
      rfl
  | cons first rest inductionHypothesis =>
      rw [encode_cons, decode_encodeChar_append, inductionHypothesis]

/-- A string without unpaired surrogates. -/
def WellFormed (units : List UInt16) : Prop :=
  encode (decode units) = units

instance decidableWellFormed
    (units : List UInt16) : Decidable (WellFormed units) :=
  inferInstanceAs (Decidable (encode (decode units) = units))

/-- `new TextEncoder().encode(string)`. -/
def textEncode (units : List UInt16) : List UInt8 :=
  Utf8.encode (decode units)

/-- `new TextDecoder('utf-8', { fatal: true }).decode(bytes)`; `none` where it
throws. -/
def textDecode? (bytes : List UInt8) : Option (List UInt16) :=
  (Utf8.decodeFatal? bytes).map encode

/-- A string whose first unit is U+FEFF. -/
def BeginsWithMark (units : List UInt16) : Prop :=
  units.head? = some 0xfeff

instance decidableBeginsWithMark
    (units : List UInt16) : Decidable (BeginsWithMark units) :=
  inferInstanceAs (Decidable (units.head? = some 0xfeff))

/-- Encoded text always decodes, to the text without its mark. -/
theorem textDecode?_textEncode
    (units : List UInt16) :
    textDecode? (textEncode units) =
      some (encode (Utf8.dropMark (decode units))) := by
  have decoded :
      Utf8.decode? (Utf8.encode (decode units)) =
        some (decode units) :=
    Utf8.decode?_eq_some_iff.mpr rfl
  simp [textDecode?, textEncode, Utf8.decodeFatal?, decoded]

/-- The first unit of the string of a text is U+FEFF exactly where the first
character is the mark. -/
theorem beginsWithMark_encode
    {text : List Char} :
    BeginsWithMark (encode text) ↔
      text.head? = some Utf8.byteOrderMark := by
  cases text with
  | nil =>
      simp [BeginsWithMark]
  | cons first rest =>
      simp only [BeginsWithMark, encode_cons, List.head?_cons,
        Option.some.injEq]
      constructor
      · intro isMark
        have range := toNat_not_surrogate first
        simp only [encodeChar] at isMark
        split at isMark
        · rename_i oneUnit
          have value := congrArg UInt16.toNat (Option.some.inj isMark)
          rw [toNat_ofNat_of_lt oneUnit] at value
          apply Char.ext
          apply UInt32.toNat_inj.mp
          exact value
        · rename_i twoUnits
          have value := congrArg UInt16.toNat (Option.some.inj isMark)
          rw [toNat_ofNat_of_lt (by omega)] at value
          have isValue :
              0xd800 + (first.toNat - 0x10000) / 0x400 = 0xfeff :=
            value
          omega
      · rintro rfl
        rfl

/-- The first unit of a trimmed string is no white space. -/
theorem not_isSpace_of_head_trim
    {text : List UInt16}
    {unit : UInt16}
    (first : (trim text).head? = some unit) :
    isSpace unit = false := by
  have isPrefix : trim text <+: text.dropWhile isSpace := by
    rw [trim, ← List.reverse_suffix, List.reverse_reverse]
    exact List.dropWhile_suffix isSpace
  obtain ⟨tail, whole⟩ := isPrefix
  have head : (text.dropWhile isSpace).head? = some unit := by
    rw [← whole, List.head?_append, first]
    rfl
  have kept := List.head?_dropWhile_not isSpace text
  rw [head] at kept
  simpa using kept

theorem not_beginsWithMark_trim
    (text : List UInt16) :
    ¬BeginsWithMark (trim text) := by
  intro marked
  have notSpace := not_isSpace_of_head_trim marked
  revert notSpace
  decide

theorem eq_of_ofNat_eq_mark
    {number : Nat}
    (isMark : Char.ofNat number = Utf8.byteOrderMark) :
    number = 0xfeff := by
  by_cases valid : number.isValidChar
  · rw [Char.ofNat, dif_pos valid] at isMark
    exact congrArg Char.toNat isMark
  · rw [Char.ofNat, dif_neg valid] at isMark
    exact absurd isMark (by decide)

/-- A string whose text begins with the mark begins with it. -/
theorem beginsWithMark_of_decode
    {units : List UInt16}
    (marked : (decode units).head? = some Utf8.byteOrderMark) :
    BeginsWithMark units := by
  have ofScalar
      {unit : UInt16}
      (isMark : scalar unit = Utf8.byteOrderMark) :
      unit = 0xfeff := by
    rw [scalar] at isMark
    split at isMark
    · exact absurd isMark (by decide)
    · exact UInt16.toNat_inj.mp (eq_of_ofNat_eq_mark isMark)
  match units with
  | [] => cases marked
  | [unit] =>
      exact congrArg some (ofScalar (Option.some.inj marked))
  | lead :: trail :: rest =>
      rw [decode] at marked
      split at marked
      · -- a pair lies above every single unit
        have code := eq_of_ofNat_eq_mark (Option.some.inj marked)
        omega
      · exact congrArg some (ofScalar (Option.some.inj marked))

/-- A text without a leading mark keeps all of it. -/
theorem dropMark_eq_self_iff
    {text : List Char} :
    Utf8.dropMark text = text ↔
      text.head? ≠ some Utf8.byteOrderMark := by
  cases text with
  | nil =>
      simp [Utf8.dropMark]
  | cons first rest =>
      simp only [Utf8.dropMark, List.head?_cons]
      split
      · rename_i isMark
        simp [isMark]
      · rename_i notMark
        simp [notMark]

/-- What survives encoding and decoding: well-formed strings without a leading
mark. -/
theorem textDecode?_textEncode_eq_self_iff
    {units : List UInt16} :
    textDecode? (textEncode units) = some units ↔
      WellFormed units ∧ ¬BeginsWithMark units := by
  rw [textDecode?_textEncode, Option.some.injEq]
  constructor
  · intro kept
    have isText : decode units = Utf8.dropMark (decode units) := by
      have decoded := congrArg decode kept
      rw [decode_encode] at decoded
      exact decoded.symm
    have wellFormed : WellFormed units := by
      rw [← isText] at kept
      exact kept
    refine ⟨wellFormed, ?_⟩
    intro marked
    rw [← wellFormed, beginsWithMark_encode] at marked
    exact dropMark_eq_self_iff.mp isText.symm marked
  · rintro ⟨wellFormed, unmarked⟩
    have keeps : Utf8.dropMark (decode units) = decode units := by
      apply dropMark_eq_self_iff.mpr
      intro marked
      apply unmarked
      rw [← wellFormed, beginsWithMark_encode]
      exact marked
    rw [keeps]
    exact wellFormed

end Utf16
