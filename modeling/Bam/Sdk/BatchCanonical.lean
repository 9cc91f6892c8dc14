import Bam.Sdk.Batch

namespace Bam

open Bytewise

/-!
# The canonical form of a binary batch

`decodeBatch` accepts an uncompressed batch only as `encodeBatch` writes it: what
it reads is what encoding its result gives back.
-/

theorem addressBytes_addressOfBytes
    {bytes : Bytes}
    (sized : bytes.length = 20) :
    addressBytes (addressOfBytes bytes) = bytes := by
  have fits : ofBE bytes < 2 ^ 160 := by
    have bound := ofBE_lt bytes
    rw [sized] at bound
    exact bound
  rw [addressBytes, addressOfBytes, BitVec.toNat_ofNat,
    Nat.mod_eq_of_lt fits, ← sized]
  exact toBE_ofBE bytes

/-- Reading a slice of a known width and writing the number back. -/
theorem toBE_ofBE_take
    {bytes : Bytes}
    {width : Nat}
    (long : width ≤ bytes.length) :
    toBE width (ofBE (bytes.take width)) = bytes.take width := by
  have sized : (bytes.take width).length = width :=
    List.length_take_of_le long
  have written := toBE_ofBE (bytes.take width)
  rwa [sized] at written

theorem ofBE_take_four_le
    (bytes : Bytes) :
    ofBE (bytes.take 4) ≤ MAX_UINT32 := by
  have bound := ofBE_lt (bytes.take 4)
  have width : 256 ^ (bytes.take 4).length ≤ 256 ^ 4 :=
    Nat.pow_le_pow_right (by decide) (List.length_take_le 4 bytes)
  exact Nat.le_of_lt_succ (Nat.lt_of_lt_of_le bound width)

theorem ofBE_take_eight_le
    (bytes : Bytes) :
    ofBE (bytes.take 8) ≤ MAX_NONCE := by
  have bound := ofBE_lt (bytes.take 8)
  have width : 256 ^ (bytes.take 8).length ≤ 256 ^ 8 :=
    Nat.pow_le_pow_right (by decide) (List.length_take_le 8 bytes)
  exact Nat.le_of_lt_succ (Nat.lt_of_lt_of_le bound width)

/-- Writing the record read at the head of some bytes gives its bytes. -/
theorem encodeRecord_read
    {rest : Bytes}
    {contentsLen : Nat}
    (long : 20 + 8 + 4 ≤ rest.length)
    (isLength : contentsLen = ofBE ((rest.drop 28).take 4))
    (bodyLong :
      contentsLen + SIGNATURE_BYTES ≤ (rest.drop 32).length) :
    encodeRecord
          { sender := addressOfBytes (rest.take 20)
            nonce := ofBE ((rest.drop 20).take 8)
            contents := (rest.drop 32).take contentsLen }
          (((rest.drop 32).drop contentsLen).take SIGNATURE_BYTES) ++
        (rest.drop 32).drop (contentsLen + SIGNATURE_BYTES) =
      rest := by
  have sender : (rest.take 20).length = 20 := by
    rw [List.length_take]
    omega
  have contents :
      ((rest.drop 32).take contentsLen).length = contentsLen := by
    rw [List.length_take]
    omega
  have nonceBytes :
      toBE 8 (ofBE ((rest.drop 20).take 8)) = (rest.drop 20).take 8 := by
    apply toBE_ofBE_take
    rw [List.length_drop]
    omega
  have lengthBytes :
      toBE 4 contentsLen = (rest.drop 28).take 4 := by
    rw [isLength]
    apply toBE_ofBE_take
    rw [List.length_drop]
    omega
  have tail :
      ((rest.drop 32).drop contentsLen).take SIGNATURE_BYTES ++
          (rest.drop 32).drop (contentsLen + SIGNATURE_BYTES) =
        (rest.drop 32).drop contentsLen := by
    rw [← List.drop_drop]
    exact List.take_append_drop _ _
  have body :
      (rest.drop 32).take contentsLen ++
          (rest.drop 32).drop contentsLen =
        rest.drop 32 :=
    List.take_append_drop _ _
  have afterLength :
      (rest.drop 28).take 4 ++ rest.drop 32 = rest.drop 28 := by
    have dropped : (rest.drop 28).drop 4 = rest.drop 32 :=
      List.drop_drop
    rw [← dropped]
    exact List.take_append_drop _ _
  have afterNonce :
      (rest.drop 20).take 8 ++ rest.drop 28 = rest.drop 20 := by
    have dropped : (rest.drop 20).drop 8 = rest.drop 28 :=
      List.drop_drop
    rw [← dropped]
    exact List.take_append_drop _ _
  unfold encodeRecord
  dsimp only
  rw [addressBytes_addressOfBytes sender, nonceBytes, contents,
    lengthBytes]
  simp only [List.append_assoc]
  rw [tail, body, afterLength, afterNonce]
  exact List.take_append_drop _ _

/-- What a successful record loop accepted and read. -/
theorem decodeRecords_ok
    {left index : Nat}
    {rest : Bytes}
    {decoded : DecodedBatch}
    (succeeded : decodeRecords left index rest = .ok decoded) :
    decoded.messages.length = left ∧
      decoded.signatures.length = left ∧
      (∀ record ∈ decoded.messages.zip decoded.signatures,
        Encodable record.1 record.2) ∧
      rest =
        (decoded.messages.zip decoded.signatures).flatMap
          fun record => encodeRecord record.1 record.2 := by
  induction left generalizing index rest decoded with
  | zero =>
      rw [decodeRecords] at succeeded
      split at succeeded
      · cases succeeded
      · rename_i consumed
        cases succeeded
        have empty : rest = [] :=
          List.length_eq_zero_iff.mp (not_not.mp consumed)
        simp [empty]
  | succ left inductionHypothesis =>
      rw [decodeRecords] at succeeded
      split at succeeded
      · cases succeeded
      rename_i long
      dsimp only at succeeded
      split at succeeded
      · cases succeeded
      rename_i bodyLong
      split at succeeded
      · cases succeeded
      rename_i later decodedLater
      cases succeeded
      obtain ⟨messageCount, signatureCount, encodable, isRest⟩ :=
        inductionHypothesis decodedLater
      have read :=
        encodeRecord_read (Nat.le_of_not_lt long) rfl
          (Nat.le_of_not_lt bodyLong)
      refine ⟨by simp [messageCount], by simp [signatureCount], ?_, ?_⟩
      · rw [List.zip_cons_cons, List.forall_mem_cons]
        refine ⟨⟨?_, ofBE_take_eight_le _, ?_⟩, encodable⟩
        · rw [List.length_take, List.length_drop]
          omega
        · exact Nat.le_trans (List.length_take_le _ _)
            (ofBE_take_four_le _)
      · rw [List.zip_cons_cons, List.flatMap_cons, ← isRest]
        exact read.symm

/-- An uncompressed batch is laid out as header and records. -/
theorem decodeBatch_ok
    {decompress : Bytes → Except BatchError Bytes}
    {data : Bytes}
    {decoded : DecodedBatch}
    (plain : data.getD 1 0 = CODEC_NONE)
    (succeeded : decodeBatch decompress data = .ok decoded) :
    HEADER_SIZE + ofBE ((data.drop 6).take 4) ≤ data.length ∧
      data.getD 0 0 = BATCH_VERSION ∧
      decodeRecords (ofBE ((data.drop 2).take 4)) 0
          ((data.drop HEADER_SIZE).take (ofBE ((data.drop 6).take 4))) =
        .ok decoded := by
  unfold decodeBatch at succeeded
  split at succeeded
  · cases succeeded
  dsimp only at succeeded
  split at succeeded
  · cases succeeded
  rename_i version
  split at succeeded
  · cases succeeded
  split at succeeded
  · cases succeeded
  rename_i long
  rw [plain, if_neg (by decide)] at succeeded
  exact ⟨Nat.le_of_not_lt long, not_not.mp version, succeeded⟩

/-- The header and the payload of a batch, read apart. -/
theorem header_append_payload
    {data : Bytes}
    (long : HEADER_SIZE + ofBE ((data.drop 6).take 4) ≤ data.length) :
    data.take (HEADER_SIZE + ofBE ((data.drop 6).take 4)) =
      [data.getD 0 0, data.getD 1 0] ++ (data.drop 2).take 4 ++
        (data.drop 6).take 4 ++
          (data.drop HEADER_SIZE).take (ofBE ((data.drop 6).take 4)) := by
  generalize ofBE ((data.drop 6).take 4) = payloadLen at long ⊢
  rw [HEADER_SIZE] at long ⊢
  rcases data with _ | ⟨version, _ | ⟨codecId, rest⟩⟩
  · simp at long
  · simp only [List.length_cons, List.length_nil] at long
    omega
  · have pieces :
        rest.take (8 + payloadLen) =
          rest.take 4 ++ (rest.drop 4).take 4 ++
            (rest.drop 8).take payloadLen := by
      have firstEight :
          rest.take (4 + 4) = rest.take 4 ++ (rest.drop 4).take 4 :=
        List.take_add
      rw [List.take_add, ← firstEight]
    have total : 10 + payloadLen = (8 + payloadLen) + 1 + 1 := by
      omega
    rw [total, List.take_succ_cons, List.take_succ_cons, pieces]
    simp

/-- Encoding what was decoded from an uncompressed batch gives back the bytes
that were read. -/
theorem encodeBatch_decodeBatch
    {decompress : Bytes → Except BatchError Bytes}
    {data : Bytes}
    {decoded : DecodedBatch}
    (plain : data.getD 1 0 = CODEC_NONE)
    (succeeded : decodeBatch decompress data = .ok decoded) :
    ∃ encoded,
      encodeBatch decoded.messages decoded.signatures .none =
          .ok encoded ∧
        encoded.data =
          data.take (HEADER_SIZE + ofBE ((data.drop 6).take 4)) := by
  obtain ⟨long, version, read⟩ := decodeBatch_ok plain succeeded
  obtain ⟨messageCount, signatureCount, encodable, isPayload⟩ :=
    decodeRecords_ok read
  have parallel : decoded.messages.length = decoded.signatures.length :=
    messageCount.trans signatureCount.symm
  have few : decoded.messages.length ≤ MAX_UINT32 := by
    rw [messageCount]
    exact ofBE_take_four_le _
  obtain ⟨encoded, written⟩ :=
    encodeBatch_succeeds parallel few encodable
  obtain ⟨-, -, -, payload, samePayload, isData⟩ := encodeBatch_ok written
  have longHeader : 10 ≤ data.length := Nat.le_of_add_right_le long
  have countBytes :
      toBE 4 decoded.messages.length = (data.drop 2).take 4 := by
    rw [messageCount]
    apply toBE_ofBE_take
    rw [List.length_drop]
    omega
  have payloadLength :
      payload.length = ofBE ((data.drop 6).take 4) := by
    rw [samePayload, ← isPayload]
    apply List.length_take_of_le
    rw [List.length_drop]
    omega
  have lengthBytes :
      toBE 4 payload.length = (data.drop 6).take 4 := by
    rw [payloadLength]
    apply toBE_ofBE_take
    rw [List.length_drop]
    omega
  refine ⟨encoded, written, ?_⟩
  rw [header_append_payload long, isData, countBytes, lengthBytes,
    version, plain, samePayload, ← isPayload]

/-- The bytes the records of some messages take. -/
def payloadSize (messages : List BAMMessage) : Nat :=
  (messages.map fun message =>
    RECORD_FIXED_OVERHEAD + message.contents.length).sum

theorem payloadSize_add_header
    (messages : List BAMMessage) :
    payloadSize messages + HEADER_SIZE = estimateBatchSize messages := by
  induction messages with
  | nil =>
      rfl
  | cons message rest inductionHypothesis =>
      rw [estimateBatchSize, ← inductionHypothesis, payloadSize,
        payloadSize, List.map_cons, List.sum_cons]
      omega

theorem length_le_payloadSize
    (messages : List BAMMessage) :
    messages.length ≤ payloadSize messages ∧
      ∀ message ∈ messages,
        message.contents.length ≤ payloadSize messages := by
  induction messages with
  | nil =>
      simp
  | cons message rest inductionHypothesis =>
      have grown :
          payloadSize (message :: rest) =
            RECORD_FIXED_OVERHEAD + message.contents.length +
              payloadSize rest := by
        simp [payloadSize]
      have overhead : 1 ≤ RECORD_FIXED_OVERHEAD := by decide
      rw [grown]
      refine ⟨?_, List.forall_mem_cons.mpr ⟨?_, ?_⟩⟩
      · have restShort := inductionHypothesis.1
        rw [List.length_cons]
        omega
      · omega
      · intro other member
        have otherShort := inductionHypothesis.2 other member
        omega

/-- The codec reads back what it writes, under any padding, and writes back
what it reads. -/
theorem batchCodec_canonical
    (decompress : Bytes → Except BatchError Bytes) :
    (∀ (messages : List BAMMessage) (signatures : List Bytes),
        messages.length = signatures.length →
        (∀ message ∈ messages, message.nonce ≤ MAX_NONCE) →
        (∀ signature ∈ signatures,
          signature.length = SIGNATURE_BYTES) →
        payloadSize messages < 2 ^ 32 →
        ∀ padding,
          ∃ encoded,
            encodeBatch messages signatures .none = .ok encoded ∧
              decodeBatch decompress (encoded.data ++ padding) =
                .ok { messages, signatures }) ∧
      ∀ (data : Bytes) (decoded : DecodedBatch),
        data.getD 1 0 = CODEC_NONE →
        decodeBatch decompress data = .ok decoded →
        ∃ encoded,
          encodeBatch decoded.messages decoded.signatures .none =
              .ok encoded ∧
            encoded.data =
              data.take
                (HEADER_SIZE + ofBE ((data.drop 6).take 4)) := by
  constructor
  · intro messages signatures parallel inRange sized small padding
    obtain ⟨few, contentsFew⟩ := length_le_payloadSize messages
    have fits : payloadSize messages ≤ MAX_UINT32 :=
      Nat.le_of_lt_succ small
    have encodable :
        ∀ record ∈ messages.zip signatures,
          Encodable record.1 record.2 := by
      rintro ⟨message, signature⟩ member
      obtain ⟨isMessage, isSignature⟩ := List.of_mem_zip member
      exact ⟨sized signature isSignature, inRange message isMessage,
        Nat.le_trans (contentsFew message isMessage) fits⟩
    obtain ⟨encoded, written⟩ :=
      encodeBatch_succeeds parallel (Nat.le_trans few fits) encodable
    refine ⟨encoded, written, ?_⟩
    apply decodeBatch_encodeBatch_of_payload decompress written
    rw [← payloadSize_add_header, Nat.add_comm]
    exact Nat.add_le_add_left fits HEADER_SIZE
  · intro data decoded plain succeeded
    exact encodeBatch_decodeBatch plain succeeded

/-- Two messages with contents of different lengths. -/
def sampleMessages : List BAMMessage :=
  [⟨7, 1, [0x68, 0x69]⟩, ⟨0x8000000000000000000000000000000000000000, MAX_NONCE,
      [0x62, 0x61, 0x6d, 0x00]⟩]

def sampleSignatures : List Bytes :=
  [List.replicate 64 0x11 ++ [27], List.replicate 64 0xab ++ [28]]

/-- What `encodeBatch` makes of them. -/
def sampleBatchData : Bytes :=
  [0x02, 0x00] ++ toBE 4 2 ++ toBE 4 200 ++
    ((sampleMessages.zip sampleSignatures).flatMap fun record =>
      encodeRecord record.1 record.2)

/-- Two messages go there and back with padding behind them, and so does the
padded batch. -/
theorem batchCodec_two_messages :
    (∃ encoded,
        encodeBatch sampleMessages sampleSignatures .none =
            .ok encoded ∧
          decodeBatch (fun _ => .error .decompression)
              (encoded.data ++ [0, 0, 0]) =
            .ok {
              messages := sampleMessages
              signatures := sampleSignatures }) ∧
      ∃ encoded,
        encodeBatch sampleMessages sampleSignatures .none =
            .ok encoded ∧
          encoded.data =
            (sampleBatchData ++ [0, 0, 0]).take
              (HEADER_SIZE +
                ofBE (((sampleBatchData ++ [0, 0, 0]).drop 6).take 4)) :=
  ⟨(batchCodec_canonical fun _ => .error .decompression).1
      sampleMessages sampleSignatures rfl (by decide) (by decide)
      (by decide) [0, 0, 0],
    (batchCodec_canonical fun _ => .error .decompression).2
      (sampleBatchData ++ [0, 0, 0])
      { messages := sampleMessages, signatures := sampleSignatures } rfl
      (by decide +kernel)⟩

end Bam
