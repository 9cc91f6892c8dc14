import Bam.Lib.Usize
import Bam.Sdk.BatchCanonical
import Bam.Sdk.Blob
import Mathlib.Algebra.Order.BigOperators.Group.List

namespace Bam.Coprocessor

open Bytewise
open Usize

/-!
# The decoder of the coprocessor

`decode_bam_payload` and `extract_segment_bytes` as the guest compiles them: word
arithmetic may wrap or panic, and a slice out of bounds panics.
-/

/-- Failure modes of `decode_bam_payload`. -/
inductive DecodeError where
  | tooShort
  | badVersion (version : UInt8)
  | unsupportedCodec (codec : UInt8)
  | truncatedRecord
  | trailingBytes (consumed payloadLen : Nat)
  | msgCountTooLarge (declared payloadLen : Nat)
  deriving Repr, DecidableEq

/-- Failure modes of `extract_segment_bytes`. -/
inductive SegmentError where
  | emptyOrInvertedRange (startFE endFE : UInt16)
  | shortBlob (blobLen : Nat) (endFE : UInt16)
  deriving Repr, DecidableEq

structure BamMessage where
  sender : Bytes
  nonce : UInt64
  contents : Bytes
  deriving Repr, DecidableEq

/-- The message as the SDK has it. -/
def BamMessage.toBAMMessage (message : BamMessage) : BAMMessage where
  sender := addressOfBytes message.sender
  nonce := message.nonce.toNat
  contents := message.contents

/-- A byte slice of the target. -/
structure Slice (target : Target) where
  bytes : Bytes
  fits : bytes.length < target.maxSlice

abbrev Decoded := Except (Failure DecodeError)

/-- `u32::from_be_bytes`, `u64::from_be_bytes` of the bytes of a range. -/
def readBE
    (payload : Bytes)
    (start stop : Nat) : Decoded Nat :=
  match slice payload start stop with
  | .error failure => .error failure
  | .ok bytes => .ok (ofBE bytes)

/-- One iteration of the record loop at an offset: the message, its signature
and the offset behind it. -/
def decodeRecord
    (target : Target)
    (payload : Bytes)
    (o : Nat) : Decoded ((BamMessage × Bytes) × Nat) := do
  let headerEnd ← add target o (20 + 8 + 4)
  if payload.length < headerEnd then
    throw (.error .truncatedRecord)
  let sender ← slice payload o (o + 20)
  let nonce ← readBE payload (o + 20) (o + 28)
  let contentsLen ← readBE payload (o + 28) (o + 32)
  let contentsEnd ← add target (o + 32) contentsLen
  let bodyEnd ← add target contentsEnd 65
  if payload.length < bodyEnd then
    throw (.error .truncatedRecord)
  let contents ← slice payload (o + 32) contentsEnd
  let sig ← slice payload contentsEnd bodyEnd
  return (({ sender, nonce := UInt64.ofNat nonce, contents }, sig),
    bodyEnd)

/-- The record loop from an offset on, and the check behind it. -/
def decodeLoop
    (target : Target)
    (payload : Bytes) :
    Nat → Nat → Decoded (List BamMessage × List Bytes)
  | 0, o =>
      if o ≠ payload.length then
        .error (.error (.trailingBytes o payload.length))
      else .ok ([], [])
  | left + 1, o =>
      match decodeRecord target payload o with
      | .error failure => .error failure
      | .ok ((message, sig), next) =>
          match decodeLoop target payload left next with
          | .error failure => .error failure
          | .ok (messages, signatures) =>
              .ok (message :: messages, sig :: signatures)

def MIN_RECORD_SIZE : Nat := 97

/-- `decode_bam_payload`. -/
def decodeBamPayload
    (target : Target)
    (data : Bytes) : Decoded (List BamMessage × List Bytes) := do
  if data.length < 10 then
    throw (.error .tooShort)
  if data.getD 0 0 ≠ 0x02 then
    throw (.error (.badVersion (data.getD 0 0)))
  if data.getD 1 0 ≠ 0x00 then
    throw (.error (.unsupportedCodec (data.getD 1 0)))
  let msgCount ← readBE data 2 6
  let payloadLen ← readBE data 6 10
  let payloadEnd ← add target 10 payloadLen
  if data.length < payloadEnd then
    throw (.error .truncatedRecord)
  let payload ← slice data 10 payloadEnd
  if payload.length / MIN_RECORD_SIZE < msgCount then
    throw (.error (.msgCountTooLarge msgCount payload.length))
  decodeLoop target payload msgCount 0

/-- The field elements of a range, one after the other. -/
def extractElements
    (target : Target)
    (blob : Bytes) :
    List Nat → Except (Failure SegmentError) Bytes
  | [] => .ok []
  | fe :: rest => do
      let offset ← add target (fe * 32) 1
      let stop ← add target offset 31
      let usable ← slice blob offset stop
      let later ← extractElements target blob rest
      return usable ++ later

/-- `extract_segment_bytes`. -/
def extractSegmentBytes
    (target : Target)
    (blob : Bytes)
    (startFE endFE : UInt16) : Except (Failure SegmentError) Bytes :=
  if endFE ≤ startFE then
    .error (.error (.emptyOrInvertedRange startFE endFE))
  else if blob.length < endFE.toNat * 32 then
    .error (.error (.shortBlob blob.length endFE))
  else
    extractElements target blob
      (List.range' startFE.toNat (endFE.toNat - startFE.toNat))

/-- What a decoder accepts, as the SDK has it. -/
def asBatch :
    Decoded (List BamMessage × List Bytes) →
      Option (List BAMMessage × List Bytes)
  | .error _ => none
  | .ok (messages, signatures) =>
      some (messages.map BamMessage.toBAMMessage, signatures)

/-- What `decodeBatch` accepts. -/
def acceptedBatch :
    Except BatchError DecodedBatch →
      Option (List BAMMessage × List Bytes)
  | .error _ => none
  | .ok decoded => some (decoded.messages, decoded.signatures)

section Records

variable {target : Target}
variable {payload : Bytes}
variable {o : Nat}

/-- A record whose header runs past the payload is refused. -/
theorem decodeRecord_shortHeader
    (short : payload.length < target.maxSlice)
    (inside : o ≤ payload.length)
    (truncated : (payload.drop o).length < 20 + 8 + 4) :
    ∃ failure, decodeRecord target payload o = .error failure := by
  rw [List.length_drop] at truncated
  have header :
      add target o (20 + 8 + 4) =
        (.ok (o + (20 + 8 + 4)) : Decoded Nat) :=
    add_small (by omega) (by decide)
  have past : payload.length < o + (20 + 8 + 4) := by
    omega
  refine ⟨.error .truncatedRecord, ?_⟩
  simp [decodeRecord, header, past, bind, Except.bind, throw,
    throwThe, MonadExceptOf.throw]

/-- The header fields of a record that is long enough. -/
theorem readHeader
    (inside : o ≤ payload.length)
    (long : 20 + 8 + 4 ≤ (payload.drop o).length) :
    slice payload o (o + 20) =
        (.ok ((payload.drop o).take 20) : Decoded Bytes) ∧
      readBE payload (o + 20) (o + 28) =
        .ok (ofBE (((payload.drop o).drop 20).take 8)) ∧
      readBE payload (o + 28) (o + 32) =
        .ok (ofBE (((payload.drop o).drop 28).take 4)) := by
  rw [List.length_drop] at long
  refine ⟨?_, ?_, ?_⟩
  · rw [slice_ok (by omega) (by omega), Nat.add_sub_cancel_left]
  · have width : o + 28 - (o + 20) = 8 := by
      omega
    rw [readBE, slice_ok (by omega) (by omega), List.drop_drop, width]
  · have width : o + 32 - (o + 28) = 4 := by
      omega
    rw [readBE, slice_ok (by omega) (by omega), List.drop_drop, width]

/-- A record whose body runs past the payload is refused, also where the sum
of its bounds overflows. -/
theorem decodeRecord_shortBody
    (short : payload.length < target.maxSlice)
    (inside : o ≤ payload.length)
    (long : 20 + 8 + 4 ≤ (payload.drop o).length)
    (truncated :
      ((payload.drop o).drop 32).length <
        ofBE (((payload.drop o).drop 28).take 4) + SIGNATURE_BYTES) :
    ∃ failure, decodeRecord target payload o = .error failure := by
  obtain ⟨sender, nonce, contentsLen⟩ := readHeader inside long
  have lengthSmall := ofBE_take_four_le ((payload.drop o).drop 28)
  have large := target.maxSlice_large
  have words := target.size_eq
  rw [List.length_drop] at long
  rw [List.length_drop, List.length_drop, SIGNATURE_BYTES] at truncated
  rw [MAX_UINT32] at lengthSmall
  generalize ofBE (((payload.drop o).drop 28).take 4) = count
    at contentsLen lengthSmall truncated
  have header :
      add target o (20 + 8 + 4) =
        (.ok (o + (20 + 8 + 4)) : Decoded Nat) :=
    add_small (by omega) (by decide)
  have whole : ¬payload.length < o + (20 + 8 + 4) := by
    omega
  unfold decodeRecord
  simp only [header, bind, Except.bind, if_neg whole, sender, nonce,
    contentsLen, pure, Except.pure, throw, throwThe,
    MonadExceptOf.throw]
  rcases @add_cases DecodeError target (o + 32) count (by omega)
      (by omega) with
    ⟨exact, isEnd⟩ | ⟨overflow, isPanic | ⟨wrapped, sum, -, inverted,
      isEnd⟩⟩
  · rw [isEnd]
    dsimp only
    rcases @add_cases DecodeError target (o + 32 + count) 65 (by omega)
        (by omega) with
      ⟨-, isBodyEnd⟩ | ⟨overflow, isPanic | ⟨wrapped, -, -, -,
        isBodyEnd⟩⟩
    · rw [isBodyEnd]
      dsimp only
      rw [if_pos (by omega)]
      exact ⟨_, rfl⟩
    · rw [isPanic]
      exact ⟨_, rfl⟩
    · rw [isBodyEnd]
      dsimp only
      split
      · exact ⟨_, rfl⟩
      · rw [slice_panic (by omega)]
        exact ⟨_, rfl⟩
  · rw [isPanic]
    exact ⟨_, rfl⟩
  · have isBodyEnd :
        add target wrapped 65 =
          (.ok (wrapped + 65) : Decoded Nat) :=
      add_small (by omega) (by decide)
    rw [isEnd]
    dsimp only
    rw [isBodyEnd]
    dsimp only
    split
    · exact ⟨_, rfl⟩
    · rw [slice_panic (by omega)]
      exact ⟨_, rfl⟩

/-- A record inside the payload is read as `decodeBatch` reads it. -/
theorem decodeRecord_ok
    (short : payload.length < target.maxSlice)
    (inside : o ≤ payload.length)
    (long : 20 + 8 + 4 ≤ (payload.drop o).length)
    (whole :
      ofBE (((payload.drop o).drop 28).take 4) + SIGNATURE_BYTES ≤
        ((payload.drop o).drop 32).length) :
    decodeRecord target payload o =
      .ok (
        ({ sender := (payload.drop o).take 20
           nonce :=
            UInt64.ofNat (ofBE (((payload.drop o).drop 20).take 8))
           contents :=
            ((payload.drop o).drop 32).take
              (ofBE (((payload.drop o).drop 28).take 4)) },
          (((payload.drop o).drop 32).drop
              (ofBE (((payload.drop o).drop 28).take 4))).take
            SIGNATURE_BYTES),
        o + 32 +
          (ofBE (((payload.drop o).drop 28).take 4) +
            SIGNATURE_BYTES)) := by
  obtain ⟨sender, nonce, contentsLen⟩ := readHeader inside long
  have large := target.maxSlice_large
  have words := target.size_eq
  rw [List.length_drop] at long
  rw [List.length_drop, List.length_drop, SIGNATURE_BYTES] at whole
  generalize ofBE (((payload.drop o).drop 28).take 4) = count
    at contentsLen whole ⊢
  have header :
      add target o (20 + 8 + 4) =
        (.ok (o + (20 + 8 + 4)) : Decoded Nat) :=
    add_small (by omega) (by decide)
  have contentsEnd :
      add target (o + 32) count =
        (.ok (o + 32 + count) : Decoded Nat) :=
    add_of_lt (by omega)
  have bodyEnd :
      add target (o + 32 + count) 65 =
        (.ok (o + 32 + count + 65) : Decoded Nat) :=
    add_small (by omega) (by decide)
  have contents :
      slice payload (o + 32) (o + 32 + count) =
        (.ok (((payload.drop o).drop 32).take count) :
          Decoded Bytes) := by
    rw [slice_ok (by omega) (by omega), List.drop_drop,
      Nat.add_sub_cancel_left]
  have sig :
      slice payload (o + 32 + count) (o + 32 + count + 65) =
        (.ok ((((payload.drop o).drop 32).drop count).take 65) :
          Decoded Bytes) := by
    rw [slice_ok (by omega) (by omega), List.drop_drop, List.drop_drop,
      ← Nat.add_assoc, Nat.add_sub_cancel_left]
  unfold decodeRecord
  simp only [header, bind, Except.bind, sender, nonce, contentsLen,
    contentsEnd, bodyEnd, contents, sig, pure, Except.pure, throw,
    throwThe, MonadExceptOf.throw]
  rw [if_neg (by omega), if_neg (by omega)]
  rfl

/-- The record loop accepts what the SDK's does. -/
theorem decodeLoop_agrees
    (short : payload.length < target.maxSlice)
    (inside : o ≤ payload.length)
    (left index : Nat) :
    asBatch (decodeLoop target payload left o) =
      acceptedBatch (decodeRecords left index (payload.drop o)) := by
  induction left generalizing o index with
  | zero =>
      rw [decodeLoop, decodeRecords]
      by_cases consumed : o = payload.length
      · simp [consumed, asBatch, acceptedBatch]
      · have leftOver : (payload.drop o).length ≠ 0 := by
          rw [List.length_drop]
          omega
        rw [if_pos consumed, if_pos leftOver]
        rfl
  | succ left inductionHypothesis =>
      rw [decodeLoop, decodeRecords]
      by_cases truncated : (payload.drop o).length < 20 + 8 + 4
      · obtain ⟨failure, refused⟩ :=
          decodeRecord_shortHeader short inside truncated
        rw [refused, if_pos truncated]
        rfl
      rw [if_neg truncated]
      have long := Nat.le_of_not_lt truncated
      dsimp only
      by_cases cut :
          ((payload.drop o).drop 32).length <
            ofBE (((payload.drop o).drop 28).take 4) +
              SIGNATURE_BYTES
      · obtain ⟨failure, refused⟩ :=
          decodeRecord_shortBody short inside long cut
        rw [refused, if_pos cut]
        rfl
      rw [if_neg cut]
      have whole := Nat.le_of_not_lt cut
      rw [decodeRecord_ok short inside long whole]
      have advanced :
          o + 32 +
              (ofBE (((payload.drop o).drop 28).take 4) +
                SIGNATURE_BYTES) ≤
            payload.length := by
        rw [List.length_drop, List.length_drop] at whole
        rw [List.length_drop] at long
        omega
      have later := inductionHypothesis advanced (index + 1)
      have rest :
          payload.drop
              (o + 32 +
                (ofBE (((payload.drop o).drop 28).take 4) +
                  SIGNATURE_BYTES)) =
            ((payload.drop o).drop 32).drop
              (ofBE (((payload.drop o).drop 28).take 4) +
                SIGNATURE_BYTES) := by
        generalize ofBE (((payload.drop o).drop 28).take 4) = count
        rw [List.drop_drop, List.drop_drop, Nat.add_assoc]
      rw [rest] at later
      dsimp only
      generalize decodeLoop target payload left _ = loop at later ⊢
      generalize decodeRecords left (index + 1) _ = records at later ⊢
      have nonceSmall := ofBE_take_eight_le ((payload.drop o).drop 20)
      have nonce :
          (UInt64.ofNat
              (ofBE (((payload.drop o).drop 20).take 8))).toNat =
            ofBE (((payload.drop o).drop 20).take 8) := by
        rw [UInt64.toNat_ofNat', Nat.mod_eq_of_lt]
        exact Nat.lt_succ_of_le nonceSmall
      cases loop with
      | error failure =>
          cases records with
          | error error =>
              rfl
          | ok decoded =>
              cases later
      | ok accepted =>
          obtain ⟨messages, signatures⟩ := accepted
          cases records with
          | error error =>
              cases later
          | ok decoded =>
              simp only [asBatch, acceptedBatch, Option.some.injEq,
                Prod.mk.injEq] at later
              simp only [asBatch, acceptedBatch, List.map_cons,
                BamMessage.toBAMMessage, nonce, later.1, later.2]

end Records

/-- Every message takes at least an empty record. -/
theorem overhead_le_estimateBatchSize
    (messages : List BAMMessage) :
    messages.length * RECORD_FIXED_OVERHEAD + HEADER_SIZE ≤
      estimateBatchSize messages := by
  induction messages with
  | nil =>
      simp [estimateBatchSize]
  | cons message rest inductionHypothesis =>
      rw [List.length_cons, Nat.succ_mul, estimateBatchSize]
      omega

/-- The records that were read fill the payload. -/
theorem records_fit
    {left index : Nat}
    {rest : Bytes}
    {decoded : DecodedBatch}
    (succeeded : decodeRecords left index rest = .ok decoded) :
    left * RECORD_FIXED_OVERHEAD ≤ rest.length := by
  obtain ⟨messageCount, signatureCount, encodable, isRest⟩ :=
    decodeRecords_ok succeeded
  have size := length_flatMap_encodeRecord encodable
  rw [← isRest, List.map_fst_zip (by omega)] at size
  have bound := overhead_le_estimateBatchSize decoded.messages
  rw [messageCount] at bound
  omega

/-- The two decoders accept the same uncompressed batches, with the same
messages and signatures. -/
theorem decodeBamPayload_agrees
    {target : Target}
    (decompress : Bytes → Except BatchError Bytes)
    (data : Slice target)
    (plain : data.bytes.getD 1 0 = CODEC_NONE) :
    asBatch (decodeBamPayload target data.bytes) =
      acceptedBatch (decodeBatch decompress data.bytes) := by
  obtain ⟨data, fits⟩ := data
  dsimp only at plain ⊢
  unfold decodeBamPayload decodeBatch
  simp only [bind, Except.bind, throw, throwThe, MonadExceptOf.throw]
  by_cases tooShort : data.length < 10
  · rw [if_pos tooShort, HEADER_SIZE, if_pos tooShort]
    rfl
  rw [if_neg tooShort, HEADER_SIZE, if_neg tooShort]
  by_cases version : data.getD 0 0 ≠ 0x02
  · have other : data.getD 0 0 ≠ BATCH_VERSION := version
    simp only [if_pos version, if_pos other]
    rfl
  have same : ¬data.getD 0 0 ≠ BATCH_VERSION := version
  have codec : ¬data.getD 1 0 ≠ 0x00 := not_not.mpr plain
  have known :
      ¬(data.getD 1 0 ≠ CODEC_NONE ∧ data.getD 1 0 ≠ CODEC_ZSTD) :=
    fun unknown => unknown.1 plain
  have uncompressed : ¬data.getD 1 0 = CODEC_ZSTD := by
    rw [plain]
    decide
  have count :
      readBE data 2 6 =
        .ok (ofBE ((data.drop 2).take 4)) := by
    rw [readBE, slice_ok (by decide) (by omega)]
  have payloadLen :
      readBE data 6 10 =
        .ok (ofBE ((data.drop 6).take 4)) := by
    rw [readBE, slice_ok (by decide) (by omega)]
  have lengthSmall := ofBE_take_four_le (data.drop 6)
  have large := target.maxSlice_large
  have words := target.size_eq
  rw [MAX_UINT32] at lengthSmall
  simp only [if_neg version, if_neg same, if_neg codec, if_neg known,
    if_neg uncompressed, count, payloadLen]
  generalize ofBE ((data.drop 6).take 4) = length at lengthSmall ⊢
  rcases @add_cases DecodeError target 10 length (by omega)
      (by omega) with
    ⟨exact, isEnd⟩ | ⟨overflow, isPanic | ⟨wrapped, sum, -, inverted,
      isEnd⟩⟩
  · rw [isEnd]
    dsimp only
    by_cases past : data.length < 10 + length
    · rw [if_pos past, if_pos past]
      rfl
    rw [if_neg past, if_neg past,
      slice_ok (Nat.le_add_right _ _) (Nat.le_of_not_lt past),
      Nat.add_sub_cancel_left]
    dsimp only
    have sized : ((data.drop 10).take length).length = length := by
      rw [List.length_take, List.length_drop]
      omega
    have agrees :=
      @decodeLoop_agrees target ((data.drop 10).take length) 0
        (by omega) (Nat.zero_le _) (ofBE ((data.drop 2).take 4)) 0
    rw [List.drop_zero] at agrees
    by_cases tooLarge :
        ((data.drop 10).take length).length / MIN_RECORD_SIZE <
          ofBE ((data.drop 2).take 4)
    · rw [if_pos tooLarge]
      cases read :
          decodeRecords (ofBE ((data.drop 2).take 4)) 0
            ((data.drop 10).take length) with
      | error error =>
          rfl
      | ok decoded =>
          have fitting := records_fit read
          rw [MIN_RECORD_SIZE] at tooLarge
          rw [RECORD_FIXED_OVERHEAD, SIGNATURE_BYTES] at fitting
          omega
    · rw [if_neg tooLarge]
      exact agrees
  · have past : data.length < 10 + length := by
      omega
    rw [isPanic, if_pos past]
    rfl
  · have past : data.length < 10 + length := by
      omega
    rw [isEnd, if_pos past]
    dsimp only
    rw [if_neg (by omega), slice_panic (by omega)]
    rfl

/-- The usable bytes of field elements inside the blob. -/
theorem extractElements_ok
    {target : Target}
    {blob : Bytes}
    (elements : List Nat)
    (inside :
      ∀ fe ∈ elements,
        fe < FIELD_ELEMENTS_PER_BLOB ∧ (fe + 1) * 32 ≤ blob.length) :
    extractElements target blob elements =
      .ok (elements.flatMap fun fe =>
        (blob.drop (fe * 32 + 1)).take 31) := by
  induction elements with
  | nil =>
      rfl
  | cons fe rest inductionHypothesis =>
      rw [List.forall_mem_cons] at inside
      obtain ⟨⟨bounded, within⟩, restInside⟩ := inside
      have large := target.maxSlice_large
      rw [FIELD_ELEMENTS_PER_BLOB] at bounded
      have offset :
          add target (fe * 32) 1 =
            (.ok (fe * 32 + 1) :
              Except (Failure SegmentError) Nat) :=
        add_small (by omega) (by decide)
      have stop :
          add target (fe * 32 + 1) 31 =
            (.ok (fe * 32 + 1 + 31) :
              Except (Failure SegmentError) Nat) :=
        add_small (by omega) (by decide)
      have usable :
          slice blob (fe * 32 + 1) (fe * 32 + 1 + 31) =
            (.ok ((blob.drop (fe * 32 + 1)).take 31) :
              Except (Failure SegmentError) Bytes) := by
        rw [slice_ok (by omega) (by omega), Nat.add_sub_cancel_left]
      simp only [extractElements, offset, stop, usable,
        inductionHypothesis restInside, bind, Except.bind, pure,
        Except.pure, List.flatMap_cons]

/-- The two slicers agree on every valid range of a blob. -/
theorem extractSegmentBytes_agrees
    (target : Target)
    {blob : Bytes}
    {startFE endFE : Nat}
    (sized :
      blob.length = FIELD_ELEMENTS_PER_BLOB * BYTES_PER_FIELD_ELEMENT)
    (ordered : startFE < endFE)
    (inBlob : endFE ≤ FIELD_ELEMENTS_PER_BLOB) :
    ∃ bytes,
      extractSegmentBytes target blob (UInt16.ofNat startFE)
          (UInt16.ofNat endFE) = .ok bytes ∧
        Bam.extractSegmentBytes blob startFE endFE = .ok bytes := by
  rw [FIELD_ELEMENTS_PER_BLOB, BYTES_PER_FIELD_ELEMENT] at sized
  rw [FIELD_ELEMENTS_PER_BLOB] at inBlob
  have startWord : (UInt16.ofNat startFE).toNat = startFE := by
    rw [UInt16.toNat_ofNat', Nat.mod_eq_of_lt (by omega)]
  have endWord : (UInt16.ofNat endFE).toNat = endFE := by
    rw [UInt16.toNat_ofNat', Nat.mod_eq_of_lt (by omega)]
  have upright : ¬UInt16.ofNat endFE ≤ UInt16.ofNat startFE := by
    rw [UInt16.le_iff_toNat_le, startWord, endWord]
    omega
  refine ⟨(List.range' startFE (endFE - startFE)).flatMap fun fe =>
    (blob.drop (fe * 32 + 1)).take 31, ?_, ?_⟩
  · rw [extractSegmentBytes, if_neg upright, startWord, endWord,
      if_neg (by omega)]
    apply extractElements_ok
    intro fe member
    rw [List.mem_range'_1] at member
    rw [FIELD_ELEMENTS_PER_BLOB]
    omega
  · rw [Bam.extractSegmentBytes, FIELD_ELEMENTS_PER_BLOB,
      BYTES_PER_FIELD_ELEMENT, if_neg (by omega), if_neg (by omega),
      if_neg (by omega)]
    rfl

/-- An extracted segment is a slice of every target. -/
theorem length_extractSegmentBytes
    (target : Target)
    {blob bytes : Bytes}
    {startFE endFE : Nat}
    (extracted : Bam.extractSegmentBytes blob startFE endFE = .ok bytes) :
    bytes.length < target.maxSlice := by
  have large := target.maxSlice_large
  unfold Bam.extractSegmentBytes at extracted
  split at extracted
  · cases extracted
  rename_i inBlob
  split at extracted
  · cases extracted
  split at extracted
  · cases extracted
  cases extracted
  rw [FIELD_ELEMENTS_PER_BLOB] at inBlob
  have narrow :
      ∀ width ∈ (List.range' startFE (endFE - startFE)).map fun fe =>
          ((blob.drop (fe * BYTES_PER_FIELD_ELEMENT + 1)).take
            USABLE_BYTES_PER_FIELD_ELEMENT).length,
        width ≤ USABLE_BYTES_PER_FIELD_ELEMENT :=
    List.forall_mem_map.mpr fun fe _ => List.length_take_le _ _
  have small := List.sum_le_card_nsmul _ _ narrow
  rw [List.length_map, List.length_range', Nat.nsmul_eq_mul,
    USABLE_BYTES_PER_FIELD_ELEMENT] at small
  rw [List.length_flatMap]
  exact Nat.lt_of_le_of_lt small (by omega)

/-- The coprocessor reads a blob and a batch as the SDK does. -/
theorem coprocessor_reads_as_sdk
    (target : Target)
    (decompress : Bytes → Except BatchError Bytes) :
    (∀ data : Slice target,
        data.bytes.getD 1 0 = CODEC_NONE →
        asBatch (decodeBamPayload target data.bytes) =
          acceptedBatch (decodeBatch decompress data.bytes)) ∧
      ∀ (blob : Bytes) (startFE endFE : Nat),
        blob.length =
          FIELD_ELEMENTS_PER_BLOB * BYTES_PER_FIELD_ELEMENT →
        startFE < endFE →
        endFE ≤ FIELD_ELEMENTS_PER_BLOB →
        ∃ bytes,
          extractSegmentBytes target blob (UInt16.ofNat startFE)
              (UInt16.ofNat endFE) = .ok bytes ∧
            Bam.extractSegmentBytes blob startFE endFE = .ok bytes := by
  constructor
  · intro data plain
    exact decodeBamPayload_agrees decompress data plain
  · intro blob startFE endFE sized ordered inBlob
    exact extractSegmentBytes_agrees target sized ordered inBlob

/-- The zkVM's target, with unchecked arithmetic. -/
def guestTarget : Target where
  usizeBits := 64
  wide := by decide
  overflowChecks := false

/-- Two messages with contents and their signatures. -/
def pairMessages : List BAMMessage :=
  [{ sender := 7, nonce := 1, contents := [0x68, 0x69] },
    { sender := 8, nonce := 2 ^ 64 - 1, contents := [0, 2, 0] }]

def pairSignatures : List Bytes :=
  [List.replicate 65 1, List.replicate 65 2]

def pairEncoded : EncodedBatch where
  data :=
    [0x02, 0x00, 0, 0, 0, 2, 0, 0, 0, 199] ++
      (pairMessages.zip pairSignatures).flatMap
        fun entry => encodeRecord entry.1 entry.2
  messageCount := 2
  codec := .none
  size := 209

theorem encode_pairMessages :
    encodeBatch pairMessages pairSignatures .none = .ok pairEncoded := by
  decide +kernel

/-- Both extract the segment of the batch and read both messages of it, and the
padding behind them. -/
theorem coprocessor_reads_pair :
    ∃ segment,
      extractSegmentBytes guestTarget (payloadBlob pairEncoded.data)
          (UInt16.ofNat 0) (UInt16.ofNat 8) = .ok segment ∧
        Bam.extractSegmentBytes (payloadBlob pairEncoded.data) 0 8 =
          .ok segment ∧
        acceptedBatch
            (decodeBatch (fun _ => .error .decompression) segment) =
          some (pairMessages, pairSignatures) ∧
        asBatch (decodeBamPayload guestTarget segment) =
          some (pairMessages, pairSignatures) := by
  have holds :
      feCountForPayload pairEncoded.data.length ≤ 8 := by
    decide +kernel
  obtain ⟨padding, padded⟩ :=
    extractSegmentBytes_payloadBlob (by decide) holds (by decide)
  obtain ⟨batches, segments⟩ :=
    coprocessor_reads_as_sdk guestTarget fun _ => .error .decompression
  obtain ⟨segment, guest, sdk⟩ :=
    segments _ 0 8 (length_payloadBlob (holds.trans (by decide)))
      (by decide) (by decide)
  have isSegment : segment = pairEncoded.data ++ padding := by
    rw [padded, Except.ok.injEq] at sdk
    exact sdk.symm
  have decoded :
      decodeBatch (fun _ => .error .decompression) segment =
        .ok ⟨pairMessages, pairSignatures⟩ := by
    rw [isSegment]
    exact decodeBatch_encodeBatch _ encode_pairMessages
      (by decide +kernel) padding
  have plain : segment.getD 1 0 = CODEC_NONE := by
    rw [isSegment, List.getD_append _ _ _ _ (by decide +kernel)]
    rfl
  refine ⟨segment, guest, sdk, ?_, ?_⟩
  · rw [decoded]
    rfl
  · have agreed :=
      batches ⟨segment, length_extractSegmentBytes guestTarget sdk⟩ plain
    rw [decoded] at agreed
    exact agreed

end Bam.Coprocessor
