import Bam.Lib.Binary64
import Bam.Reader.ZstdBound
import Bam.Sdk.Compression

namespace Bam

open Bytewise
open Binary64

/-!
# The content size of a frame, read twice

The SDK and the Reader each parse the header of a frame.  What they return is
compared with the content size the header declares, and with each other.
-/

/-- The loop `size += payload[fcsOffset + i] * Math.pow(256, i)`: every sum is
rounded to a double. -/
def addBytes : Nat → Nat → Bytes → Nat
  | _, size, [] => size
  | i, size, byte :: rest =>
      addBytes (i + 1) (nearest (size + byte.toNat * 256 ^ i)) rest

/-- `readFrameContentSize` as numbers of JavaScript. -/
def readFrameContentSizeDouble (payload : Bytes) : Option Nat :=
  if payload.length < 5 then none
  else
    let descriptor := (payload.getD 4 0).toNat
    let fcsFlag := descriptor / 64 % 4
    let singleSegment := descriptor / 32 % 2
    let dictIdSize := [0, 1, 2, 4].getD (descriptor % 4) 0
    let windowDescriptorSize := if singleSegment ≠ 0 then 0 else 1
    let fcsSize := fcsFieldSize fcsFlag singleSegment
    if fcsSize = 0 then none
    else
      let fcsOffset := 5 + windowDescriptorSize + dictIdSize
      if payload.length < fcsOffset + fcsSize then none
      else
        let size := addBytes 0 0 ((payload.drop fcsOffset).take fcsSize)
        some (if fcsFlag = 1 then nearest (size + 256) else size)

section Rounding

/-- A sum that is a double is added up without loss. -/
theorem addBytes_of_double
    {index size : Nat}
    {bytes : Bytes}
    (below : size < 256 ^ index)
    (isDouble :
      nearest (size + 256 ^ index * Zstd.littleEndian bytes) =
        size + 256 ^ index * Zstd.littleEndian bytes) :
    addBytes index size bytes =
      size + 256 ^ index * Zstd.littleEndian bytes := by
  induction bytes generalizing index size with
  | nil => rfl
  | cons byte rest ih =>
      have isByte : byte.toNat + 1 ≤ 256 := byte.toNat_lt
      have room := Nat.mul_le_mul_right (256 ^ index) isByte
      have belowNext :
          size + byte.toNat * 256 ^ index < 256 ^ (index + 1) := by
        rw [Nat.succ_mul] at room
        rw [pow_succ']
        omega
      have regroup :
          size + 256 ^ index * Zstd.littleEndian (byte :: rest) =
            size + byte.toNat * 256 ^ index +
              256 ^ (index + 1) * Zstd.littleEndian rest := by
        rw [Zstd.littleEndian_cons]
        ring
      have power : (256 : Nat) ^ (index + 1) = 2 ^ (8 * (index + 1)) := by
        rw [Nat.pow_mul]
      rw [regroup] at isDouble ⊢
      have added : nearest (size + byte.toNat * 256 ^ index) =
          size + byte.toNat * 256 ^ index := by
        rw [power] at belowNext isDouble
        exact nearest_low belowNext isDouble
      rw [addBytes, added]
      exact ih belowNext isDouble

theorem nearest_addBytes
    {index size : Nat}
    {bytes : Bytes}
    (isDouble : nearest size = size) :
    nearest (addBytes index size bytes) = addBytes index size bytes := by
  induction bytes generalizing index size with
  | nil => exact isDouble
  | cons byte rest ih => exact ih (nearest_nearest _)

/-- A small result was added up without loss. -/
theorem addBytes_of_lt
    {index size : Nat}
    {bytes : Bytes}
    (small : addBytes index size bytes < 2 ^ 53) :
    addBytes index size bytes =
      size + 256 ^ index * Zstd.littleEndian bytes := by
  induction bytes generalizing index size with
  | nil => rfl
  | cons byte rest ih =>
      rw [addBytes] at small ⊢
      have added := ih small
      rw [added] at small
      have exactly :=
        nearest_of_nearest_lt ((Nat.le_add_right _ _).trans_lt small)
      rw [added, exactly, Zstd.littleEndian_cons]
      ring

end Rounding

section Header

variable (header : Zstd.FrameHeader) (rest : Bytes)

theorem getD_descriptor :
    (header.encode ++ rest).getD 4 0 = header.descriptor :=
  rfl

theorem length_encode_rest :
    (header.encode ++ rest).length =
      5 + Zstd.windowWidth header.descriptor +
        Zstd.dictionaryWidth header.descriptor +
        Zstd.contentSizeWidth header.descriptor + rest.length := by
  rw [List.length_append, Zstd.FrameHeader.length_encode]

/-- `readFrameContentSizeDouble` in the terms of the format. -/
theorem readFrameContentSizeDouble_eq (payload : Bytes) :
    readFrameContentSizeDouble payload =
      if payload.length < 5 then none
      else
        let descriptor := payload.getD 4 0
        let width := Zstd.contentSizeWidth descriptor
        let offset :=
          5 + Zstd.windowWidth descriptor +
            Zstd.dictionaryWidth descriptor
        if width = 0 then none
        else if payload.length < offset + width then none
        else
          let size := addBytes 0 0 ((payload.drop offset).take width)
          some (if Zstd.contentSizeFlag descriptor = 1 then
            nearest (size + 256) else size) := by
  rw [readFrameContentSizeDouble]
  simp only [fcsFlag_eq, fcsFieldSize_eq, windowDescriptorSize_eq]
  rfl

/-- Rounding leaves the sum of a content size field alone below `2 ^ 53`. -/
theorem addBytes_eq_iff
    {bytes : Bytes}
    {size : Nat}
    (small : size < 2 ^ 53) :
    addBytes 0 0 bytes = size ↔ readLE bytes = size := by
  have isSum : readLE bytes = 0 + 256 ^ 0 * Zstd.littleEndian bytes := by
    rw [pow_zero, one_mul, Nat.zero_add]
    rfl
  constructor
  · rintro rfl
    rw [addBytes_of_lt small]
    exact isSum
  · rintro rfl
    rw [isSum] at small ⊢
    exact addBytes_of_double (by decide) (nearest_of_lt small)

/-- A content size below `2 ^ 53` is the same by numbers of JavaScript. -/
theorem readFrameContentSizeDouble_eq_some_iff
    {payload : Bytes}
    {size : Nat}
    (small : size < 2 ^ 53) :
    readFrameContentSizeDouble payload = some size ↔
      readFrameContentSize payload = some size := by
  rw [readFrameContentSizeDouble_eq, readFrameContentSize_eq]
  split
  · rfl
  · dsimp only
    split
    · rfl
    · split
      · rfl
      · rw [Option.some.injEq, Option.some.injEq]
        split
        · constructor
          · rintro rfl
            have exactly := nearest_of_nearest_lt small
            rw [exactly] at small ⊢
            rw [(addBytes_eq_iff (Nat.lt_of_le_of_lt
              (Nat.le_add_right _ _) small)).mp rfl]
          · rintro rfl
            rw [(addBytes_eq_iff (Nat.lt_of_le_of_lt
              (Nat.le_add_right _ _) small)).mpr rfl, nearest_of_lt small]
        · exact addBytes_eq_iff small

/-- The Reader reads the content size field the header has. -/
theorem readFrameContentSizeDouble_encode :
    readFrameContentSizeDouble (header.encode ++ rest) =
      if header.contentSize = [] then none
      else
        some (if Zstd.contentSizeFlag header.descriptor = 1 then
          nearest (addBytes 0 0 header.contentSize + 256)
        else addBytes 0 0 header.contentSize) := by
  have long := length_encode_rest header rest
  have isEmpty :
      Zstd.contentSizeWidth header.descriptor = 0 ↔
        header.contentSize = [] := by
    rw [← header.contentSize_length, List.length_eq_zero_iff]
  rw [readFrameContentSizeDouble_eq, getD_descriptor, if_neg (by omega)]
  dsimp only
  rw [Zstd.FrameHeader.drop_encode,
    List.take_left' header.contentSize_length]
  simp only [isEmpty]
  rw [if_neg (by omega : ¬ (header.encode ++ rest).length < _)]

/-- The SDK reads the first 1, 2 or 4 bytes of the content size field, where
the flag of the header is not 0. -/
theorem getDecompressedSize_eq (data : Bytes) :
    getDecompressedSize data =
      if isCompressed data = false ∨ data.length < 5 then -1
      else
        let descriptor := data.getD 4 0
        let flag := Zstd.contentSizeFlag descriptor
        let width := [0, 1, 2, 4, 8].getD flag 0
        let offset :=
          5 + Zstd.windowWidth descriptor +
            Zstd.dictionaryWidth descriptor
        if flag = 0 then -1
        else if data.length < offset + width then -1
        else
          let size := (orBytes 0 0 ((data.drop offset).take width)).toInt
          if flag = 2 then size + 256 else size := by
  rw [getDecompressedSize]
  simp only [fcsFlag_eq, windowDescriptorSize_eq]
  rfl

theorem contentSizeFlag_lt (descriptor : UInt8) :
    Zstd.contentSizeFlag descriptor < 4 :=
  Nat.div_lt_of_lt_mul descriptor.toNat_lt

/-- The width the SDK takes a flag for; the format has the double. -/
def sdkWidth (flag : Nat) : Nat :=
  [0, 1, 2, 4, 8].getD flag 0

theorem contentSize_wide
    (present : Zstd.contentSizeFlag header.descriptor ≠ 0) :
    2 * sdkWidth (Zstd.contentSizeFlag header.descriptor) =
      header.contentSize.length := by
  rw [header.contentSize_length, Zstd.contentSizeWidth]
  have bound := contentSizeFlag_lt header.descriptor
  generalize Zstd.contentSizeFlag header.descriptor = flag
    at present bound ⊢
  rcases flag with _ | _ | _ | _ | _
  · exact absurd rfl present
  · rfl
  · rfl
  · rfl
  · omega

/-- The SDK reads the first half of the content size field, where the flag of
the header is not 0. -/
theorem getDecompressedSize_encode :
    getDecompressedSize (header.encode ++ rest) =
      if Zstd.contentSizeFlag header.descriptor = 0 then -1
      else
        let size :=
          (orBytes 0 0 (header.contentSize.take
            (sdkWidth (Zstd.contentSizeFlag header.descriptor)))).toInt
        if Zstd.contentSizeFlag header.descriptor = 2 then size + 256
        else size := by
  have long := length_encode_rest header rest
  have magic : isCompressed (header.encode ++ rest) = true := rfl
  rw [getDecompressedSize_eq, getD_descriptor, magic,
    if_neg (by simp only [Bool.true_eq_false, false_or]; omega)]
  dsimp only
  rw [Zstd.FrameHeader.drop_encode]
  by_cases absent : Zstd.contentSizeFlag header.descriptor = 0
  · rw [if_pos absent, if_pos absent]
  · have wide := contentSize_wide header absent
    have width := header.contentSize_length
    unfold sdkWidth at wide ⊢
    rw [if_neg absent, if_neg absent, if_neg (by omega),
      List.take_append_of_le_length (by omega)]

/-- The first half of the field, as the signed number the SDK reads. -/
theorem toInt_orBytes
    {bytes : Bytes}
    (fits : bytes.length ≤ 4) :
    (orBytes 0 0 bytes).toInt =
      if Zstd.littleEndian bytes < 2 ^ 31 then
        (Zstd.littleEndian bytes : Int)
      else (Zstd.littleEndian bytes : Int) - 2 ^ 32 := by
  have added := @toNat_orBytes 0 0 bytes (by omega) (by decide)
  have zero : (0 : BitVec 32).toNat = 0 := rfl
  rw [pow_zero, one_mul, zero, Nat.zero_add] at added
  rw [BitVec.toInt_eq_toNat_cond, added]
  split <;> split <;> omega

end Header

/-- The headers the SDK understands: no content size, or one of eight bytes
that fits a signed number of 32 bits. -/
def SmallContentSize (header : Zstd.FrameHeader) : Prop :=
  header.contentSize = [] ∨
    Zstd.contentSizeFlag header.descriptor = 3 ∧
      Zstd.littleEndian header.contentSize < 2 ^ 31

/-- A content size as the SDK returns it. -/
def sdkSize : Option Nat → Int
  | none => -1
  | some size => size

theorem declared_of_present
    {header : Zstd.FrameHeader}
    (present : header.contentSize ≠ []) :
    header.declared? =
      some (Zstd.littleEndian header.contentSize +
        if Zstd.contentSizeFlag header.descriptor = 1 then 256 else 0) :=
  if_neg present

/-- What the SDK returns where the flag is not 0, and the content size by the
half it reads and the half it does not. -/
theorem getDecompressedSize_present
    {header : Zstd.FrameHeader}
    (rest : Bytes)
    (present : Zstd.contentSizeFlag header.descriptor ≠ 0) :
    header.contentSize ≠ [] ∧
      ∃ half high,
        half < 256 ^ sdkWidth (Zstd.contentSizeFlag header.descriptor) ∧
        Zstd.littleEndian header.contentSize =
          half +
            256 ^ sdkWidth (Zstd.contentSizeFlag header.descriptor) *
              high ∧
        getDecompressedSize (header.encode ++ rest) =
          (if half < 2 ^ 31 then (half : Int) else half - 2 ^ 32) +
            if Zstd.contentSizeFlag header.descriptor = 2 then 256
            else 0 := by
  have wide := contentSize_wide header present
  have bound := contentSizeFlag_lt header.descriptor
  have width :
      0 < sdkWidth (Zstd.contentSizeFlag header.descriptor) ∧
        sdkWidth (Zstd.contentSizeFlag header.descriptor) ≤ 4 := by
    generalize Zstd.contentSizeFlag header.descriptor = flag
      at present bound
    rcases flag with _ | _ | _ | _ | _
    · exact absurd rfl present
    · decide
    · decide
    · decide
    · omega
  have taken :
      (header.contentSize.take
        (sdkWidth (Zstd.contentSizeFlag header.descriptor))).length =
        sdkWidth (Zstd.contentSizeFlag header.descriptor) :=
    List.length_take_of_le (by omega)
  refine ⟨?_, _, _, ?_, Zstd.littleEndian_split _ (by omega), ?_⟩
  · intro empty
    rw [empty, List.length_nil] at wide
    omega
  · have below := Zstd.littleEndian_lt
      (header.contentSize.take
        (sdkWidth (Zstd.contentSizeFlag header.descriptor)))
    rwa [taken] at below
  · rw [getDecompressedSize_encode, if_neg present]
    dsimp only
    rw [toInt_orBytes (by omega)]
    split
    · rfl
    · rw [add_zero]

/-- The flags of a content size field of more than one byte. -/
theorem contentSizeFlag_cases
    {descriptor : UInt8}
    (present : Zstd.contentSizeFlag descriptor ≠ 0) :
    Zstd.contentSizeFlag descriptor = 1 ∨
      Zstd.contentSizeFlag descriptor = 2 ∨
      Zstd.contentSizeFlag descriptor = 3 := by
  have bound := contentSizeFlag_lt descriptor
  omega

/-- What the SDK returns stays below `2 ^ 31`. -/
theorem getDecompressedSize_lt
    (header : Zstd.FrameHeader)
    (rest : Bytes) :
    getDecompressedSize (header.encode ++ rest) < 2 ^ 31 := by
  by_cases absent : Zstd.contentSizeFlag header.descriptor = 0
  · rw [getDecompressedSize_encode, if_pos absent]
    decide
  · obtain ⟨_, half, high, below, _, returned⟩ :=
      getDecompressedSize_present rest absent
    rw [returned]
    rcases contentSizeFlag_cases absent with flag | flag | flag
    all_goals
      simp only [flag, sdkWidth, List.getD_cons_succ,
        List.getD_cons_zero] at below ⊢
      split <;> simp <;> omega

/-- The SDK is right about the headers it understands, and no others. -/
theorem getDecompressedSize_iff
    (header : Zstd.FrameHeader)
    (rest : Bytes) :
    getDecompressedSize (header.encode ++ rest) =
        sdkSize header.declared? ↔
      SmallContentSize header := by
  by_cases absent : Zstd.contentSizeFlag header.descriptor = 0
  · rw [getDecompressedSize_encode, if_pos absent, SmallContentSize,
      absent, Zstd.FrameHeader.declared?]
    split
    · rename_i empty
      simp [empty, sdkSize]
    · rename_i present
      refine iff_of_false ?_ ?_
      · rw [sdkSize]
        omega
      · rintro (empty | ⟨impossible, _⟩)
        · exact present empty
        · cases impossible
  · obtain ⟨present, half, high, below, size, returned⟩ :=
      getDecompressedSize_present rest absent
    rw [returned, declared_of_present present, SmallContentSize, size]
    simp only [sdkSize, present, false_or]
    rcases contentSizeFlag_cases absent with flag | flag | flag
    all_goals
      simp only [flag, sdkWidth, List.getD_cons_succ,
        List.getD_cons_zero] at below ⊢
      split <;> simp <;> omega

/-- The size the Reader returns: the declared one if it is a double, and below
`2 ^ 53` in no other case. -/
theorem readFrameContentSizeDouble_spec
    (header : Zstd.FrameHeader)
    (rest : Bytes) :
    (header.declared? = none ∧
        readFrameContentSizeDouble (header.encode ++ rest) = none) ∨
      ∃ size read,
        header.declared? = some size ∧
          readFrameContentSizeDouble (header.encode ++ rest) = some read ∧
          (read < 2 ^ 53 → read = size) ∧
          (read = size ↔ nearest size = size) := by
  rw [readFrameContentSizeDouble_encode]
  by_cases empty : header.contentSize = []
  · exact .inl ⟨if_pos empty, if_pos empty⟩
  rw [if_neg empty]
  refine .inr ⟨_, _, declared_of_present empty, rfl, ?_⟩
  have doubled := fun isDouble =>
    @addBytes_of_double 0 0 header.contentSize (by decide) isDouble
  have small := fun small => @addBytes_of_lt 0 0 header.contentSize small
  have isDouble := @nearest_addBytes 0 0 header.contentSize rfl
  simp only [pow_zero, one_mul, Nat.zero_add] at doubled small
  by_cases flag : Zstd.contentSizeFlag header.descriptor = 1
  · have width : header.contentSize.length = 2 := by
      rw [header.contentSize_length, Zstd.contentSizeWidth, flag]
      rfl
    have below := Zstd.littleEndian_lt header.contentSize
    rw [width] at below
    have added := doubled (nearest_of_lt (by omega))
    rw [if_pos flag, if_pos flag, added]
    have exactly := nearest_of_lt
      (by omega : Zstd.littleEndian header.contentSize + 256 < 2 ^ 53)
    exact ⟨fun _ => exactly, Iff.rfl⟩
  · rw [if_neg flag, if_neg flag, Nat.add_zero]
    refine ⟨small, ?_, doubled⟩
    intro same
    rw [← same]
    exact isDouble

/-- The Reader is right about every header whose content size is a double. -/
theorem readFrameContentSizeDouble_iff
    (header : Zstd.FrameHeader)
    (rest : Bytes) :
    readFrameContentSizeDouble (header.encode ++ rest) =
        header.declared? ↔
      ∀ size, header.declared? = some size → nearest size = size := by
  rcases readFrameContentSizeDouble_spec header rest with
    ⟨declared, read⟩ | ⟨size, read, declared, isRead, _, same⟩
  · simp [declared, read]
  · simp [declared, isRead, same]

/-- Both parsers return the content size the header declares exactly on the
headers the SDK understands, and only there do they agree with each other. -/
theorem contentSizes_right_iff
    (header : Zstd.FrameHeader)
    (rest : Bytes) :
    (getDecompressedSize (header.encode ++ rest) =
          sdkSize header.declared? ∧
        readFrameContentSizeDouble (header.encode ++ rest) =
          header.declared? ↔
      SmallContentSize header) ∧
    (getDecompressedSize (header.encode ++ rest) =
          sdkSize
            (readFrameContentSizeDouble (header.encode ++ rest)) ↔
      SmallContentSize header) := by
  have sdk := getDecompressedSize_iff header rest
  have reader := readFrameContentSizeDouble_iff header rest
  have below := getDecompressedSize_lt header rest
  have small :
      getDecompressedSize (header.encode ++ rest) =
          sdkSize header.declared? →
        readFrameContentSizeDouble (header.encode ++ rest) =
          header.declared? := by
    intro right
    apply reader.mpr
    intro size declared
    rw [declared, sdkSize] at right
    exact nearest_of_lt (by omega)
  constructor
  · exact ⟨fun right => sdk.mp right.1,
      fun understood => ⟨sdk.mpr understood, small (sdk.mpr understood)⟩⟩
  constructor
  · intro agree
    apply sdk.mp
    rcases readFrameContentSizeDouble_spec header rest with
      ⟨declared, read⟩ | ⟨size, read, declared, isRead, exactly, _⟩
    · rw [agree, declared, read]
    · rw [isRead, sdkSize] at agree
      rw [agree, declared, exactly (by omega)]
      rfl
  · intro understood
    have right := sdk.mpr understood
    rw [small right]
    exact right

/-- The header of a frame of 300 bytes, with a content size of two bytes. -/
def twoByteHeader : Zstd.FrameHeader where
  descriptor := 0x60
  window := []
  dictionaryId := []
  contentSize := [44, 0]
  window_length := rfl
  dictionaryId_length := rfl
  contentSize_length := rfl

/-- The SDK takes 300 bytes for 44. -/
theorem contentSizes_twoBytes :
    twoByteHeader.declared? = some 300 ∧
      getDecompressedSize twoByteHeader.encode = 44 ∧
      readFrameContentSizeDouble twoByteHeader.encode = some 300 := by
  decide +kernel

end Bam
