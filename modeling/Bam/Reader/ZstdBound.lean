import Bam.Lib.Zstd
import Bam.Reader.Decode

namespace Bam

open Bytewise

/-!
# The decompression bound

`assertZstdWithinBound` parses the header of the first frame of a payload; the
library behind `decodeBatch` decodes all of them.  A plaintext is held to the
bound exactly when the frames of its payload fit into it by the sizes their
headers announce, and by what they hold only where they announce none.
-/

/-- The payload `decodeBatch` slices off. -/
def batchPayload (data : Bytes) : Bytes :=
  (data.drop HEADER_SIZE).take (ofBE ((data.drop 6).take 4))

/-- The plaintext whose records `decodeBatch` reads. -/
def batchPlaintext
    (decompress : Bytes → Except BatchError Bytes)
    (data : Bytes) : Except BatchError Bytes :=
  if data.length < HEADER_SIZE then
    .error (.tooShort data.length)
  else
    let version := data.getD 0 0
    let codecId := data.getD 1 0
    if version ≠ BATCH_VERSION then
      .error (.unsupportedVersion version)
    else if codecId ≠ CODEC_NONE ∧ codecId ≠ CODEC_ZSTD then
      .error (.unknownCodec codecId)
    else if data.length < HEADER_SIZE + ofBE ((data.drop 6).take 4) then
      .error .payloadPastBuffer
    else if codecId = CODEC_ZSTD then decompress (batchPayload data)
    else .ok (batchPayload data)

/-- `decodeBatch` reads the records of its plaintext. -/
theorem decodeBatch_eq
    (decompress : Bytes → Except BatchError Bytes)
    (data : Bytes) :
    decodeBatch decompress data =
      match batchPlaintext decompress data with
      | .error error => .error error
      | .ok plain =>
          decodeRecords (ofBE ((data.drop 2).take 4)) 0 plain := by
  rw [decodeBatch, batchPlaintext]
  dsimp only
  split
  · rfl
  · split
    · rfl
    · split
      · rfl
      · split
        · rfl
        · split <;> rfl

/-- The `decompress` of the SDK, over the zstd library. -/
def zstdDecompress
    (decoder : Zstd.Decoder)
    (payload : Bytes) : Except BatchError Bytes :=
  match decoder.decompress payload with
  | none => .error .decompression
  | some plain => .ok plain

section Header

variable (descriptor : UInt8)

theorem fcsFlag_eq :
    descriptor.toNat / 64 % 4 = Zstd.contentSizeFlag descriptor := by
  have small := descriptor.toNat_lt
  exact Nat.mod_eq_of_lt (by omega)

theorem singleSegment_iff :
    descriptor.toNat / 32 % 2 ≠ 0 ↔
      Zstd.singleSegment descriptor = true := by
  rw [Zstd.singleSegment, decide_eq_true_eq]
  omega

theorem fcsFieldSize_eq :
    fcsFieldSize (Zstd.contentSizeFlag descriptor)
        (descriptor.toNat / 32 % 2) =
      Zstd.contentSizeWidth descriptor := by
  unfold Zstd.contentSizeWidth
  simp only [← singleSegment_iff]
  rcases Zstd.contentSizeFlag descriptor with _ | _ | _ | _ <;> rfl

theorem windowDescriptorSize_eq :
    (if descriptor.toNat / 32 % 2 ≠ 0 then 0 else 1) =
      Zstd.windowWidth descriptor := by
  rw [Zstd.windowWidth]
  simp only [singleSegment_iff]

end Header

/-- `readFrameContentSize` in the terms of the format. -/
theorem readFrameContentSize_eq (payload : Bytes) :
    readFrameContentSize payload =
      if payload.length < 5 then none
      else
        let descriptor := payload.getD 4 0
        let width := Zstd.contentSizeWidth descriptor
        let offset :=
          5 + Zstd.windowWidth descriptor +
            Zstd.dictionaryWidth descriptor
        if width = 0 then none
        else if payload.length < offset + width then none
        else
          let size := readLE ((payload.drop offset).take width)
          some (if Zstd.contentSizeFlag descriptor = 1 then size + 256
            else size) := by
  rw [readFrameContentSize]
  simp only [fcsFlag_eq, fcsFieldSize_eq, windowDescriptorSize_eq]
  rfl

/-- A payload the parser reads a content size from starts with a header that
declares it. -/
theorem header_of_readFrameContentSize
    {payload : Bytes}
    {declared : Nat}
    (magic : isCompressed payload = true)
    (read : readFrameContentSize payload = some declared) :
    ∃ (header : Zstd.FrameHeader) (rest : Bytes),
      payload = header.encode ++ rest ∧
        header.declared? = some declared ∧
        header.descriptor = payload.getD 4 0 := by
  rw [isCompressed, decide_eq_true_eq] at magic
  rw [readFrameContentSize_eq] at read
  split at read
  · cases read
  · rename_i long
    dsimp only at read
    split at read
    · cases read
    · rename_i wide
      split at read
      · cases read
      · rename_i inside
        rw [Option.some.injEq] at read
        have first : payload.drop 4 = payload.getD 4 0 :: payload.drop 5 := by
          rw [List.drop_eq_getElem_cons (by omega), List.getD_eq_getElem]
        refine ⟨{
            descriptor := payload.getD 4 0
            window :=
              (payload.drop 5).take (Zstd.windowWidth (payload.getD 4 0))
            dictionaryId :=
              (payload.drop (5 + Zstd.windowWidth (payload.getD 4 0))).take
                (Zstd.dictionaryWidth (payload.getD 4 0))
            contentSize :=
              (payload.drop
                  (5 + Zstd.windowWidth (payload.getD 4 0) +
                    Zstd.dictionaryWidth (payload.getD 4 0))).take
                (Zstd.contentSizeWidth (payload.getD 4 0))
            window_length := ?_
            dictionaryId_length := ?_
            contentSize_length := ?_ },
          payload.drop
            (5 + Zstd.windowWidth (payload.getD 4 0) +
              Zstd.dictionaryWidth (payload.getD 4 0) +
              Zstd.contentSizeWidth (payload.getD 4 0)), ?_, ?_, rfl⟩
        · rw [List.length_take, List.length_drop]
          omega
        · rw [List.length_take, List.length_drop]
          omega
        · rw [List.length_take, List.length_drop]
          omega
        · simp only [Zstd.FrameHeader.encode, List.append_assoc,
            List.cons_append, ← List.drop_drop, List.take_append_drop]
          rw [← first, Zstd.MAGIC, ← magic, List.take_append_drop]
        · rw [Zstd.FrameHeader.declared?, if_neg ?_, ← read]
          · dsimp only
            split <;> rfl
          · intro empty
            have sized := congrArg List.length empty
            rw [List.length_take, List.length_drop, List.length_nil]
              at sized
            omega

/-- The parser reads the content size every header declares. -/
theorem readFrameContentSize_encode
    {header : Zstd.FrameHeader}
    {declared : Nat}
    (isDeclared : header.declared? = some declared)
    (rest : Bytes) :
    readFrameContentSize (header.encode ++ rest) = some declared := by
  rw [Zstd.FrameHeader.declared?] at isDeclared
  split at isDeclared
  · cases isDeclared
  · rename_i wide
    cases isDeclared
    have descriptor :
        (header.encode ++ rest).getD 4 0 = header.descriptor := by
      rfl
    have width :
        Zstd.contentSizeWidth header.descriptor ≠ 0 := by
      rw [← header.contentSize_length]
      exact fun empty => wide (List.eq_nil_of_length_eq_zero empty)
    have long :
        (header.encode ++ rest).length =
          5 + Zstd.windowWidth header.descriptor +
            Zstd.dictionaryWidth header.descriptor +
            Zstd.contentSizeWidth header.descriptor + rest.length := by
      rw [List.length_append, Zstd.FrameHeader.length_encode]
    rw [readFrameContentSize_eq, descriptor, if_neg (by omega)]
    dsimp only
    rw [if_neg width, if_neg (by omega), Zstd.FrameHeader.drop_encode,
      List.take_left' header.contentSize_length]
    split <;> rfl

/-- The content size that binds whoever decodes the frame, as its header has
it; the library takes a zero for unknown unless the window is the content. -/
def announcedSize (frame : Bytes) : Option Nat :=
  if isCompressed frame then
    (readFrameContentSize frame).filter fun size =>
      (Zstd.singleSegment (frame.getD 4 0) || size ≠ 0) && size < 2 ^ 31
  else if Zstd.isSkippable frame then some 0
  else none

theorem announcedSize_eq_some_iff
    {frame : Bytes}
    {size : Nat}
    (magic : isCompressed frame = true) :
    announcedSize frame = some size ↔
      readFrameContentSize frame = some size ∧
        (Zstd.singleSegment (frame.getD 4 0) = true ∨ size ≠ 0) ∧
        size < 2 ^ 31 := by
  rw [announcedSize, if_pos magic, Option.filter_eq_some_iff]
  simp only [Bool.and_eq_true, Bool.or_eq_true, decide_eq_true_eq]

/-- What a compressed frame announces binds. -/
theorem binds_of_announcedSize
    {frame : Bytes}
    {size : Nat}
    (magic : isCompressed frame = true)
    (announced : announcedSize frame = some size) :
    Zstd.Binds frame size := by
  obtain ⟨read, counts, small⟩ :=
    (announcedSize_eq_some_iff magic).mp announced
  obtain ⟨header, rest, isFrame, declared, descriptor⟩ :=
    header_of_readFrameContentSize magic read
  rw [← descriptor] at counts
  exact ⟨header, rest, isFrame, declared, counts, small⟩

/-- What binds is announced. -/
theorem announcedSize_of_binds
    {frame : Bytes}
    {size : Nat}
    (binds : Zstd.Binds frame size) :
    isCompressed frame = true ∧ announcedSize frame = some size := by
  obtain ⟨header, rest, rfl, declared, counts, small⟩ := binds
  have magic : isCompressed (header.encode ++ rest) = true := rfl
  exact ⟨magic,
    (announcedSize_eq_some_iff magic).mpr
      ⟨readFrameContentSize_encode declared rest, counts, small⟩⟩

/-- How much a frame adds to a plaintext: the size it announces, and what it
decodes to only where it announces none. -/
def heldBytes
    (decoder : Zstd.Decoder)
    (frame : Bytes) : Nat :=
  match announcedSize frame with
  | some size => size
  | none => ((decoder.content frame).getD []).length

theorem length_content
    {decoder : Zstd.Decoder}
    {frame content : Bytes}
    (isContent : decoder.content frame = some content) :
    content.length = heldBytes decoder frame := by
  rw [heldBytes]
  cases announced : announcedSize frame with
  | none =>
      rw [isContent]
      rfl
  | some size =>
      by_cases magic : isCompressed frame = true
      · exact decoder.content_binds isContent
          (binds_of_announcedSize magic announced)
      · rw [announcedSize, if_neg magic] at announced
        split at announced
        · rename_i skippable
          cases announced
          rw [decoder.content_skippable isContent skippable]
          rfl
        · cases announced

/-- The frames behind the first one of a compressed payload fit into what that
one leaves of the bound, which it keeps itself if it announces no size. -/
def FramesFit
    (decoder : Zstd.Decoder)
    (usableBytes : Bytes) : Prop :=
  usableBytes.getD 1 0 = CODEC_ZSTD →
    ∀ first later,
      Zstd.frames (batchPayload usableBytes) = some (first :: later) →
      (announcedSize first = none →
        heldBytes decoder first ≤
          DEFAULT_DECOMPRESS_MULTIPLIER * usableBytes.length) ∧
      (later.map (heldBytes decoder)).sum ≤
        DEFAULT_DECOMPRESS_MULTIPLIER * usableBytes.length -
          heldBytes decoder first

section Bound

variable {decoder : Zstd.Decoder}
variable {usableBytes plain : Bytes}

/-- Where a plaintext comes from. -/
theorem batchPlaintext_ok
    {decompress : Bytes → Except BatchError Bytes}
    (decoded : batchPlaintext decompress usableBytes = .ok plain) :
    HEADER_SIZE + ofBE ((usableBytes.drop 6).take 4) ≤
        usableBytes.length ∧
      if usableBytes.getD 1 0 = CODEC_ZSTD then
        decompress (batchPayload usableBytes) = .ok plain
      else plain = batchPayload usableBytes := by
  rw [batchPlaintext] at decoded
  split at decoded
  · cases decoded
  · dsimp only at decoded
    split at decoded
    · cases decoded
    · split at decoded
      · cases decoded
      · split at decoded
        · cases decoded
        · rename_i inside
          refine ⟨Nat.le_of_not_lt inside, ?_⟩
          split at decoded
          · rename_i isZstd
            rw [if_pos isZstd]
            exact decoded
          · rename_i isPlain
            rw [if_neg isPlain]
            cases decoded
            rfl

/-- What the check of a compressed batch establishes. -/
theorem assertZstdWithinBound_ok
    (accepted : assertZstdWithinBound usableBytes = .ok ())
    (inside :
      HEADER_SIZE + ofBE ((usableBytes.drop 6).take 4) ≤
        usableBytes.length)
    (isZstd : usableBytes.getD 1 0 = CODEC_ZSTD) :
    isCompressed (batchPayload usableBytes) = true ∧
      ∃ declared,
        readFrameContentSize (batchPayload usableBytes) =
            some declared ∧
          declared ≤
            DEFAULT_DECOMPRESS_MULTIPLIER * usableBytes.length := by
  rw [assertZstdWithinBound,
    if_neg (Nat.not_lt.mpr ((Nat.le_add_right _ _).trans inside)),
    if_neg (not_not.mpr isZstd)] at accepted
  dsimp only at accepted
  have isPayload :
      (usableBytes.drop HEADER_SIZE).take
          (ofBE ((usableBytes.drop 6).take 4)) =
        batchPayload usableBytes := by
    rfl
  rw [if_neg (Nat.not_lt.mpr inside), isPayload] at accepted
  split at accepted
  · cases accepted
  · rename_i magic
    refine ⟨not_not.mp magic, ?_⟩
    split at accepted
    · cases accepted
    · rename_i declared read
      split at accepted
      · cases accepted
      · rename_i bounded
        rw [Nat.mul_comm] at bounded
        exact ⟨declared, read, Nat.le_of_not_lt bounded⟩

/-- The plaintext of a compressed payload is what its frames hold. -/
theorem length_zstdDecompress
    {payload : Bytes}
    (nonempty : payload ≠ [])
    (decompressed : zstdDecompress decoder payload = .ok plain) :
    ∃ later,
      Zstd.frames payload = some (payload :: later) ∧
        plain.length =
          heldBytes decoder payload +
            (later.map (heldBytes decoder)).sum := by
  rw [zstdDecompress] at decompressed
  cases isPlain : decoder.decompress payload with
  | none =>
      rw [isPlain] at decompressed
      cases decompressed
  | some outcome =>
      rw [isPlain] at decompressed
      cases decompressed
      obtain ⟨starts, split, sized⟩ :=
        Zstd.Decoder.length_decompress length_content isPlain
      obtain ⟨size, later, -, -, rfl⟩ := Zstd.frames_cons split nonempty
      rw [List.map_cons, List.sum_cons] at sized
      exact ⟨later, split, sized⟩

/-- The check holds a first frame that announces its size to the bound. -/
theorem heldBytes_of_announced
    {payload : Bytes}
    {declared size : Nat}
    (magic : isCompressed payload = true)
    (read : readFrameContentSize payload = some declared)
    (announced : announcedSize payload = some size) :
    heldBytes decoder payload = declared := by
  have isRead := ((announcedSize_eq_some_iff magic).mp announced).1
  rw [read, Option.some.injEq] at isRead
  rw [heldBytes, announced, isRead]

/-- The plaintext of an accepted segment is held to the bound exactly when the
frames of its payload fit into it. -/
theorem plaintext_bounded_iff
    (accepted : assertZstdWithinBound usableBytes = .ok ())
    (decoded :
      batchPlaintext (zstdDecompress decoder) usableBytes = .ok plain) :
    plain.length ≤ DEFAULT_DECOMPRESS_MULTIPLIER * usableBytes.length ↔
      FramesFit decoder usableBytes := by
  obtain ⟨inside, isPlaintext⟩ := batchPlaintext_ok decoded
  rw [FramesFit]
  by_cases isZstd : usableBytes.getD 1 0 = CODEC_ZSTD
  · rw [if_pos isZstd] at isPlaintext
    obtain ⟨magic, declared, read, checked⟩ :=
      assertZstdWithinBound_ok accepted inside isZstd
    have nonempty : batchPayload usableBytes ≠ [] := by
      intro empty
      rw [empty] at read
      cases read
    obtain ⟨later, split, sized⟩ :=
      length_zstdDecompress nonempty isPlaintext
    rw [sized]
    constructor
    · intro bounded _ first others isSplit
      rw [split, Option.some.injEq, List.cons.injEq] at isSplit
      obtain ⟨rfl, rfl⟩ := isSplit
      exact ⟨fun _ => by omega, by omega⟩
    · intro fit
      obtain ⟨unsized, behind⟩ := fit isZstd _ later split
      have first :
          heldBytes decoder (batchPayload usableBytes) ≤
            DEFAULT_DECOMPRESS_MULTIPLIER * usableBytes.length := by
        cases announced : announcedSize (batchPayload usableBytes) with
        | none =>
            exact unsized announced
        | some size =>
            rw [heldBytes_of_announced magic read announced]
            exact checked
      omega
  · rw [if_neg isZstd] at isPlaintext
    have short : plain.length ≤ usableBytes.length := by
      rw [isPlaintext, batchPayload]
      rw [List.length_take, List.length_drop]
      omega
    constructor
    · intro _ compressed
      exact (isZstd compressed).elim
    · intro _
      exact short.trans (Nat.le_mul_of_pos_left _ (by decide))

end Bound

/-- What raw and run-length blocks hold, up to the last one. -/
def plainBlocks : Nat → Bytes → Option Bytes
  | 0, _ => none
  | fuel + 1, data =>
      if data.length < 3 then none
      else
        let header := readLE (data.take 3)
        let body := data.drop 3
        let block : Option (Nat × Bytes) :=
          match header / 2 % 4 with
          | 0 =>
              if body.length < header / 8 then none
              else some (header / 8, body.take (header / 8))
          | 1 =>
              body.head?.map fun byte =>
                (1, List.replicate (header / 8) byte)
          | _ => none
        match block with
        | none => none
        | some (width, content) =>
            if header % 2 = 1 then some content
            else (plainBlocks fuel (body.drop width)).map (content ++ ·)

/-- What the frame holds that the data starts with, if it is skippable or has
neither dictionary nor checksum and only raw and run-length blocks. -/
def plainContent (data : Bytes) : Option Bytes :=
  if isCompressed data then
    let descriptor := data.getD 4 0
    let start :=
      5 + Zstd.windowWidth descriptor + Zstd.contentSizeWidth descriptor
    if descriptor.toNat % 32 ≠ 0 then none
    else
      (plainBlocks data.length (data.drop start)).filter fun content =>
        (announcedSize data).getD content.length = content.length
  else if Zstd.isSkippable data then some []
  else none

/-- A library for such frames. -/
def plainDecoder : Zstd.Decoder where
  content := plainContent
  content_binds := by
    intro data held size isContent binds
    obtain ⟨magic, announced⟩ := announcedSize_of_binds binds
    rw [plainContent, if_pos magic] at isContent
    dsimp only at isContent
    split at isContent
    · cases isContent
    · have honoured := (Option.filter_eq_some_iff.mp isContent).2
      rw [announced, Option.getD_some, decide_eq_true_eq] at honoured
      exact honoured.symm
  content_skippable := by
    intro data held isContent skippable
    have magic : ¬ isCompressed data = true := by
      intro magic
      rw [isCompressed, decide_eq_true_eq] at magic
      rw [Zstd.isSkippable, decide_eq_true_eq] at skippable
      have third : ((data.take 4).drop 1).take 3 = [0x2a, 0x4d, 0x18] := by
        rw [List.drop_take, List.take_take]
        exact skippable.2
      rw [magic] at third
      cases third
    rw [plainContent, if_neg magic, if_pos skippable] at isContent
    cases isContent
    rfl

/-- A segment of five records whose payload is an empty frame and a frame of
485 zeros. -/
def twoFrameSegment : Bytes :=
  [0x02, 0x01, 0, 0, 0, 5, 0, 0, 0, 20,
    0x28, 0xb5, 0x2f, 0xfd, 0x20, 0, 0x01, 0, 0,
    0x28, 0xb5, 0x2f, 0xfd, 0x60, 0xe5, 0, 0x2b, 0x0f, 0, 0]

/-- A segment of the same records in one frame, which declares to hold nothing
behind a window of its own. -/
def zeroSizeSegment : Bytes :=
  [0x02, 0x01, 0, 0, 0, 5, 0, 0, 0, 14,
    0x28, 0xb5, 0x2f, 0xfd, 0x80, 0, 0, 0, 0, 0, 0x2b, 0x0f, 0, 0]

/-- Segments of 30 and of 24 bytes pass the check and decode to five messages,
out of a plaintext of more than sixteen times their length. -/
theorem twoFrameSegment_unbounded :
    (∀ segment ∈ [twoFrameSegment, zeroSizeSegment],
      assertZstdWithinBound segment = .ok () ∧
        batchPlaintext (zstdDecompress plainDecoder) segment =
          .ok (List.replicate 485 0) ∧
        (decodeBatch (zstdDecompress plainDecoder) segment).map
          (·.messages.length) = .ok 5) ∧
      DEFAULT_DECOMPRESS_MULTIPLIER * twoFrameSegment.length = 60 ∧
      DEFAULT_DECOMPRESS_MULTIPLIER * zeroSizeSegment.length = 48 := by
  have plaintexts :
      ∀ segment ∈ [twoFrameSegment, zeroSizeSegment],
        batchPlaintext (zstdDecompress plainDecoder) segment =
          .ok (List.replicate 485 0) := by
    decide +kernel
  refine ⟨fun segment isSegment => ⟨?_, plaintexts segment isSegment, ?_⟩,
    by decide, by decide⟩
  · revert segment
    decide +kernel
  · rw [decodeBatch_eq, plaintexts segment isSegment]
    revert segment
    decide +kernel

/-- A segment of one record: 90 bytes in a raw frame, a skippable frame, and 7
bytes in a frame that does not say how much it holds. -/
def rawFrameSegment : Bytes :=
  [0x02, 0x01, 0, 0, 0, 1, 0, 0, 0, 119,
    0x28, 0xb5, 0x2f, 0xfd, 0x20, 90, 0xd1, 0x02, 0] ++
    List.replicate 90 0 ++
    [0x50, 0x2a, 0x4d, 0x18, 2, 0, 0, 0, 0, 0,
      0x28, 0xb5, 0x2f, 0xfd, 0, 0, 0x3b, 0, 0, 0]

/-- Its plaintext of 97 bytes is held to the bound, as its frames fit. -/
theorem plaintext_bounded_iff_raw :
    batchPlaintext (zstdDecompress plainDecoder) rawFrameSegment =
        .ok (List.replicate 97 0) ∧
      (Zstd.frames (batchPayload rawFrameSegment)).map
        (List.map announcedSize) = some [some 90, some 0, none] ∧
      FramesFit plainDecoder rawFrameSegment := by
  have decoded :
      batchPlaintext (zstdDecompress plainDecoder) rawFrameSegment =
        .ok (List.replicate 97 0) := by
    decide +kernel
  exact ⟨decoded, by decide +kernel,
    (plaintext_bounded_iff (by decide +kernel) decoded).mp
      (by decide +kernel)⟩

end Bam
