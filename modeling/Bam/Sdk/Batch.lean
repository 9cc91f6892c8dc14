import Bam.Lib.Bytewise
import Bam.Sdk.Types

namespace Bam

open Bytewise

/-!
# The binary batch codec

`encodeBatch`, `decodeBatch` and `estimateBatchSize` of the SDK.  A batch is a
ten-byte header (version, codec id, message count, payload length) followed by
one record for each message (sender, nonce, contents length, contents,
signature), all numbers big-endian.
-/

def BATCH_VERSION : UInt8 := 0x02

def CODEC_NONE : UInt8 := 0x00

def CODEC_ZSTD : UInt8 := 0x01

def HEADER_SIZE : Nat := 10

def SIGNATURE_BYTES : Nat := 65

/-- `0xffffffff`, the largest `uint32`. -/
def MAX_UINT32 : Nat := 0xffffffff

/-- Sender, nonce, contents length and signature of a record. -/
def RECORD_FIXED_OVERHEAD : Nat := 20 + 8 + 4 + SIGNATURE_BYTES

/-- The `codec` option of `encodeBatch`. -/
inductive BatchCodec where
  | none
  | zstd
  deriving Repr, DecidableEq

/-- What `encodeBatch` and `decodeBatch` throw. -/
inductive BatchError where
  | notParallel (messages signatures : Nat)
  | tooManyMessages
  | signatureLength (index got : Nat)
  | nonceRange (index : Nat)
  | contentsTooLarge (index : Nat)
  | zstdNotApplied
  | tooShort (length : Nat)
  | unsupportedVersion (version : UInt8)
  | unknownCodec (codecId : UInt8)
  | payloadPastBuffer
  | headerPastPayload (index : Nat)
  | bodyPastPayload (index : Nat)
  | trailingBytes (messageCount left : Nat)
  | decompression
  deriving Repr, DecidableEq

/-- `EncodedBatch`. -/
structure EncodedBatch where
  data : Bytes
  messageCount : Nat
  codec : BatchCodec
  size : Nat
  deriving Repr, DecidableEq

/-- `DecodedBatch`: the messages and their parallel signatures. -/
structure DecodedBatch where
  messages : List BAMMessage
  signatures : List Bytes
  deriving Repr, DecidableEq

/-- `hexToBytes` of an address. -/
def addressBytes (address : Address) : Bytes :=
  toBE 20 address.toNat

/-- `bytesToHex` of twenty bytes. -/
def addressOfBytes (bytes : Bytes) : Address :=
  BitVec.ofNat 160 (ofBE bytes)

@[simp] theorem length_addressBytes
    (address : Address) :
    (addressBytes address).length = 20 :=
  length_toBE 20 _

@[simp] theorem addressOfBytes_addressBytes
    (address : Address) :
    addressOfBytes (addressBytes address) = address := by
  have fits : address.toNat < 256 ^ 20 := address.isLt
  rw [addressOfBytes, addressBytes, ofBE_toBE_of_lt fits,
    BitVec.ofNat_toNat, BitVec.setWidth_eq]

/-- One record of the payload. -/
def encodeRecord
    (message : BAMMessage)
    (signature : Bytes) : Bytes :=
  addressBytes message.sender ++ toBE 8 message.nonce ++
    toBE 4 message.contents.length ++ message.contents ++ signature

/-- The record loop of `encodeBatch`, from a given message index on. -/
def encodeRecords :
    Nat → List (BAMMessage × Bytes) → Except BatchError Bytes
  | _, [] => .ok []
  | index, (message, signature) :: rest =>
      if signature.length ≠ SIGNATURE_BYTES then
        .error (.signatureLength index signature.length)
      else if MAX_NONCE < message.nonce then
        .error (.nonceRange index)
      else if MAX_UINT32 < message.contents.length then
        .error (.contentsTooLarge index)
      else
        match encodeRecords (index + 1) rest with
        | .error error => .error error
        | .ok records => .ok (encodeRecord message signature ++ records)

/-- `isCompressed`: the four bytes of the zstd frame magic. -/
def isCompressed (data : Bytes) : Bool :=
  data.take 4 = [0x28, 0xb5, 0x2f, 0xfd]

/-- `compress` is the placeholder that returns its input. -/
def compress (data : Bytes) : Bytes :=
  data

/-- `encodeBatch`. -/
def encodeBatch
    (messages : List BAMMessage)
    (signatures : List Bytes)
    (codec : BatchCodec) : Except BatchError EncodedBatch :=
  if messages.length ≠ signatures.length then
    .error (.notParallel messages.length signatures.length)
  else if MAX_UINT32 < messages.length then
    .error .tooManyMessages
  else
    match encodeRecords 0 (messages.zip signatures) with
    | .error error => .error error
    | .ok plain =>
        let useZstd := codec = .zstd
        let payload := if useZstd then compress plain else plain
        let zstdActuallyApplied := useZstd ∧ isCompressed payload
        if useZstd ∧ ¬ zstdActuallyApplied then
          .error .zstdNotApplied
        else
          let codecId :=
            if zstdActuallyApplied then CODEC_ZSTD else CODEC_NONE
          let data :=
            [BATCH_VERSION, codecId] ++ toBE 4 messages.length ++
              toBE 4 payload.length ++ payload
          .ok {
            data := data
            messageCount := messages.length
            codec := if zstdActuallyApplied then .zstd else .none
            size := data.length }

/-- The record loop of `decodeBatch`: how many records are left, the index of
the next one, the bytes not read yet. -/
def decodeRecords :
    Nat → Nat → Bytes → Except BatchError DecodedBatch
  | 0, index, rest =>
      if rest.length ≠ 0 then
        .error (.trailingBytes index rest.length)
      else
        .ok { messages := [], signatures := [] }
  | left + 1, index, rest =>
      if rest.length < 20 + 8 + 4 then
        .error (.headerPastPayload index)
      else
        let sender := addressOfBytes (rest.take 20)
        let nonce := ofBE ((rest.drop 20).take 8)
        let contentsLen := ofBE ((rest.drop 28).take 4)
        let body := rest.drop 32
        if body.length < contentsLen + SIGNATURE_BYTES then
          .error (.bodyPastPayload index)
        else
          let contents := body.take contentsLen
          let signature :=
            (body.drop contentsLen).take SIGNATURE_BYTES
          match decodeRecords left (index + 1)
              (body.drop (contentsLen + SIGNATURE_BYTES)) with
          | .error error => .error error
          | .ok decoded =>
              .ok {
                messages :=
                  { sender, nonce, contents } :: decoded.messages
                signatures := signature :: decoded.signatures }

/-- `decodeBatch`, over the zstd library's decompressor. -/
def decodeBatch
    (decompress : Bytes → Except BatchError Bytes)
    (data : Bytes) : Except BatchError DecodedBatch :=
  if data.length < HEADER_SIZE then
    .error (.tooShort data.length)
  else
    let version := data.getD 0 0
    let codecId := data.getD 1 0
    if version ≠ BATCH_VERSION then
      .error (.unsupportedVersion version)
    else if codecId ≠ CODEC_NONE ∧ codecId ≠ CODEC_ZSTD then
      .error (.unknownCodec codecId)
    else
      let messageCount := ofBE ((data.drop 2).take 4)
      let payloadLen := ofBE ((data.drop 6).take 4)
      if data.length < HEADER_SIZE + payloadLen then
        .error .payloadPastBuffer
      else
        let payload := (data.drop HEADER_SIZE).take payloadLen
        if codecId = CODEC_ZSTD then
          match decompress payload with
          | .error error => .error error
          | .ok plain => decodeRecords messageCount 0 plain
        else
          decodeRecords messageCount 0 payload

/-- `estimateBatchSize`. -/
def estimateBatchSize : List BAMMessage → Nat
  | [] => HEADER_SIZE
  | message :: rest =>
      estimateBatchSize rest +
        (RECORD_FIXED_OVERHEAD + message.contents.length)

/-- A message and signature `encodeBatch` accepts. -/
def Encodable
    (message : BAMMessage)
    (signature : Bytes) : Prop :=
  signature.length = SIGNATURE_BYTES ∧
    message.nonce ≤ MAX_NONCE ∧
    message.contents.length ≤ MAX_UINT32

/-- `estimateBatchSize` adds up over a concatenation. -/
theorem estimateBatchSize_append
    (leading trailing : List BAMMessage) :
    estimateBatchSize (leading ++ trailing) + HEADER_SIZE =
      estimateBatchSize leading + estimateBatchSize trailing := by
  induction leading with
  | nil =>
      simp [estimateBatchSize, Nat.add_comm]
  | cons message rest inductionHypothesis =>
      simp only [List.cons_append, estimateBatchSize]
      omega

theorem header_le_estimateBatchSize
    (messages : List BAMMessage) :
    HEADER_SIZE ≤ estimateBatchSize messages := by
  induction messages with
  | nil =>
      exact Nat.le_refl _
  | cons message rest inductionHypothesis =>
      simp only [estimateBatchSize]
      omega

/-- Every message adds to the estimate. -/
theorem length_le_estimateBatchSize
    (messages : List BAMMessage) :
    messages.length ≤ estimateBatchSize messages := by
  induction messages with
  | nil =>
      exact Nat.zero_le _
  | cons message rest inductionHypothesis =>
      simp only [estimateBatchSize, RECORD_FIXED_OVERHEAD,
        List.length_cons]
      omega

@[simp] theorem length_encodeRecord
    (message : BAMMessage)
    (signature : Bytes) :
    (encodeRecord message signature).length =
      32 + message.contents.length + signature.length := by
  simp only [encodeRecord, List.length_append, length_addressBytes,
    length_toBE]

/-- What a successful record loop accepted and wrote. -/
theorem encodeRecords_ok
    {index : Nat}
    {records : List (BAMMessage × Bytes)}
    {bytes : Bytes}
    (encoded : encodeRecords index records = .ok bytes) :
    (∀ record ∈ records, Encodable record.1 record.2) ∧
      bytes =
        records.flatMap fun record =>
          encodeRecord record.1 record.2 := by
  induction records generalizing index bytes with
  | nil =>
      simpa [encodeRecords, eq_comm] using encoded
  | cons record rest inductionHypothesis =>
      obtain ⟨message, signature⟩ := record
      rw [encodeRecords] at encoded
      split at encoded
      · cases encoded
      rename_i sized
      split at encoded
      · cases encoded
      rename_i inRange
      split at encoded
      · cases encoded
      rename_i small
      split at encoded
      · cases encoded
      rename_i tail encodedRest
      have isBytes := Except.ok.inj encoded
      obtain ⟨restEncodable, isTail⟩ := inductionHypothesis encodedRest
      refine ⟨List.forall_mem_cons.mpr ⟨⟨not_not.mp sized,
        Nat.le_of_not_lt inRange, Nat.le_of_not_lt small⟩,
        restEncodable⟩, ?_⟩
      rw [← isBytes, isTail, List.flatMap_cons]

/-- The record loop succeeds on encodable messages. -/
theorem encodeRecords_succeeds
    {records : List (BAMMessage × Bytes)}
    (encodable : ∀ record ∈ records, Encodable record.1 record.2)
    (index : Nat) :
    ∃ bytes, encodeRecords index records = .ok bytes := by
  induction records generalizing index with
  | nil =>
      exact ⟨[], rfl⟩
  | cons record rest inductionHypothesis =>
      obtain ⟨message, signature⟩ := record
      rw [List.forall_mem_cons] at encodable
      obtain ⟨⟨sized, inRange, small⟩, restEncodable⟩ := encodable
      obtain ⟨tail, encodedRest⟩ :=
        inductionHypothesis restEncodable (index + 1)
      refine ⟨encodeRecord message signature ++ tail, ?_⟩
      rw [encodeRecords, if_neg (not_not.mpr sized),
        if_neg (Nat.not_lt.mpr inRange), if_neg (Nat.not_lt.mpr small),
        encodedRest]

/-- Reading one written record. -/
theorem decodeRecords_encodeRecord
    {message : BAMMessage}
    {signature : Bytes}
    (encodable : Encodable message signature)
    (left index : Nat)
    (rest : Bytes) :
    decodeRecords (left + 1) index
        (encodeRecord message signature ++ rest) =
      match decodeRecords left (index + 1) rest with
      | .error error => .error error
      | .ok decoded =>
          .ok {
            messages := message :: decoded.messages
            signatures := signature :: decoded.signatures } := by
  obtain ⟨sized, inRange, small⟩ := encodable
  have nonceFits : message.nonce < 256 ^ 8 :=
    Nat.lt_succ_of_le inRange
  have lengthFits : message.contents.length < 256 ^ 4 :=
    Nat.lt_succ_of_le small
  have layout :
      encodeRecord message signature ++ rest =
        addressBytes message.sender ++ (toBE 8 message.nonce ++
          (toBE 4 message.contents.length ++
            (message.contents ++ (signature ++ rest)))) := by
    simp [encodeRecord]
  have senderSlice :
      (encodeRecord message signature ++ rest).take 20 =
        addressBytes message.sender := by
    rw [layout]
    exact List.take_left' (length_addressBytes _)
  have nonceSlice :
      ((encodeRecord message signature ++ rest).drop 20).take 8 =
        toBE 8 message.nonce := by
    rw [layout, List.drop_left' (length_addressBytes _)]
    exact List.take_left' (length_toBE _ _)
  have lengthSlice :
      ((encodeRecord message signature ++ rest).drop 28).take 4 =
        toBE 4 message.contents.length := by
    rw [layout, ← List.append_assoc, List.drop_left' (by simp)]
    exact List.take_left' (length_toBE _ _)
  have bodySlice :
      (encodeRecord message signature ++ rest).drop 32 =
        message.contents ++ (signature ++ rest) := by
    rw [layout, ← List.append_assoc, ← List.append_assoc,
      List.drop_left' (by simp)]
  have long :
      ¬ (encodeRecord message signature ++ rest).length < 20 + 8 + 4 := by
    simp only [List.length_append, length_encodeRecord]
    omega
  have bodyLong :
      ¬ (message.contents ++ (signature ++ rest)).length <
        message.contents.length + SIGNATURE_BYTES := by
    simp only [List.length_append]
    omega
  have signatureSlice :
      (signature ++ rest).take SIGNATURE_BYTES = signature :=
    List.take_left' sized
  have restSlice :
      (message.contents ++ (signature ++ rest)).drop
          (message.contents.length + SIGNATURE_BYTES) = rest := by
    rw [← sized, List.drop_length_add_append, List.drop_left]
  rw [decodeRecords, if_neg long, senderSlice, nonceSlice, lengthSlice,
    bodySlice, ofBE_toBE_of_lt nonceFits, ofBE_toBE_of_lt lengthFits,
    addressOfBytes_addressBytes]
  simp only [if_neg bodyLong, restSlice, List.take_left,
    List.drop_left, signatureSlice]

/-- Reading the records that were written gives back their messages. -/
theorem decodeRecords_flatMap
    {records : List (BAMMessage × Bytes)}
    (encodable : ∀ record ∈ records, Encodable record.1 record.2)
    (index : Nat) :
    decodeRecords records.length index
        (records.flatMap fun record =>
          encodeRecord record.1 record.2) =
      .ok {
        messages := records.map Prod.fst
        signatures := records.map Prod.snd } := by
  induction records generalizing index with
  | nil =>
      simp [decodeRecords]
  | cons record rest inductionHypothesis =>
      rw [List.forall_mem_cons] at encodable
      rw [List.length_cons, List.flatMap_cons,
        decodeRecords_encodeRecord encodable.1,
        inductionHypothesis encodable.2]
      rfl

/-- The payload of encodable messages has the estimated length. -/
theorem length_flatMap_encodeRecord
    {records : List (BAMMessage × Bytes)}
    (encodable : ∀ record ∈ records, Encodable record.1 record.2) :
    (records.flatMap fun record =>
        encodeRecord record.1 record.2).length + HEADER_SIZE =
      estimateBatchSize (records.map Prod.fst) := by
  induction records with
  | nil =>
      simp [estimateBatchSize]
  | cons record rest inductionHypothesis =>
      rw [List.forall_mem_cons] at encodable
      have tail := inductionHypothesis encodable.2
      have sized := encodable.1.1
      simp only [List.flatMap_cons, List.length_append,
        length_encodeRecord, List.map_cons, estimateBatchSize,
        RECORD_FIXED_OVERHEAD]
      omega

/-- What a successful uncompressed `encodeBatch` produced. -/
theorem encodeBatch_ok
    {messages : List BAMMessage}
    {signatures : List Bytes}
    {encoded : EncodedBatch}
    (succeeded : encodeBatch messages signatures .none = .ok encoded) :
    messages.length = signatures.length ∧
      messages.length ≤ MAX_UINT32 ∧
      (∀ record ∈ messages.zip signatures,
        Encodable record.1 record.2) ∧
      ∃ payload,
        payload =
          (messages.zip signatures).flatMap
            (fun record => encodeRecord record.1 record.2) ∧
        encoded.data =
          [BATCH_VERSION, CODEC_NONE] ++ toBE 4 messages.length ++
            toBE 4 payload.length ++ payload := by
  unfold encodeBatch at succeeded
  split at succeeded
  · cases succeeded
  · rename_i parallel
    rw [ne_eq, not_not] at parallel
    split at succeeded
    · cases succeeded
    · rename_i few
      split at succeeded
      · cases succeeded
      · rename_i plain written
        simp only [reduceCtorEq, false_and, if_false,
          Except.ok.injEq] at succeeded
        obtain ⟨encodable, isPayload⟩ := encodeRecords_ok written
        refine ⟨parallel, Nat.le_of_not_lt few, encodable, plain,
          isPayload, ?_⟩
        rw [← succeeded]

/-- `encodeBatch` succeeds on every list of encodable messages. -/
theorem encodeBatch_succeeds
    {messages : List BAMMessage}
    {signatures : List Bytes}
    (parallel : messages.length = signatures.length)
    (few : messages.length ≤ MAX_UINT32)
    (encodable :
      ∀ record ∈ messages.zip signatures,
        Encodable record.1 record.2) :
    ∃ encoded,
      encodeBatch messages signatures .none = .ok encoded := by
  obtain ⟨plain, written⟩ := encodeRecords_succeeds encodable 0
  rw [encodeBatch, if_neg (not_not.mpr parallel),
    if_neg (Nat.not_lt.mpr few), written]
  simp only [reduceCtorEq, false_and, if_false]
  exact ⟨_, rfl⟩

/-- The estimator agrees with the encoder. -/
theorem length_encodeBatch
    {messages : List BAMMessage}
    {signatures : List Bytes}
    {encoded : EncodedBatch}
    (succeeded : encodeBatch messages signatures .none = .ok encoded) :
    encoded.data.length = estimateBatchSize messages := by
  obtain ⟨parallel, -, encodable, payload, isPayload, isData⟩ :=
    encodeBatch_ok succeeded
  have size := length_flatMap_encodeRecord encodable
  rw [← isPayload, List.map_fst_zip (Nat.le_of_eq parallel)] at size
  simp only [HEADER_SIZE] at size
  rw [isData, ← size]
  simp only [List.length_append, length_toBE, List.length_cons,
    List.length_nil]
  omega

/-- Decoding an encoded batch whose payload length fits its field, whatever
follows it, gives back the messages and signatures. -/
theorem decodeBatch_encodeBatch_of_payload
    {messages : List BAMMessage}
    {signatures : List Bytes}
    {encoded : EncodedBatch}
    (decompress : Bytes → Except BatchError Bytes)
    (succeeded : encodeBatch messages signatures .none = .ok encoded)
    (short : estimateBatchSize messages ≤ HEADER_SIZE + MAX_UINT32)
    (padding : Bytes) :
    decodeBatch decompress (encoded.data ++ padding) =
      .ok { messages, signatures } := by
  obtain ⟨parallel, few, encodable, payload, isPayload, isData⟩ :=
    encodeBatch_ok succeeded
  have size := length_flatMap_encodeRecord encodable
  rw [← isPayload, List.map_fst_zip (Nat.le_of_eq parallel)] at size
  have countFits : messages.length < 256 ^ 4 := Nat.lt_succ_of_le few
  have payloadShort : payload.length ≤ MAX_UINT32 := by omega
  have payloadFits : payload.length < 256 ^ 4 :=
    Nat.lt_succ_of_le payloadShort
  have layout :
      encoded.data ++ padding =
        BATCH_VERSION :: CODEC_NONE :: (toBE 4 messages.length ++
          (toBE 4 payload.length ++ (payload ++ padding))) := by
    rw [isData]
    simp
  have countSlice :
      ((encoded.data ++ padding).drop 2).take 4 =
        toBE 4 messages.length := by
    rw [layout]
    exact List.take_left' (length_toBE _ _)
  have lengthSlice :
      ((encoded.data ++ padding).drop 6).take 4 =
        toBE 4 payload.length := by
    rw [layout, List.drop_succ_cons, List.drop_succ_cons,
      List.drop_left' (length_toBE _ _)]
    exact List.take_left' (length_toBE _ _)
  have payloadSlice :
      ((encoded.data ++ padding).drop HEADER_SIZE).take payload.length =
        payload := by
    rw [layout, HEADER_SIZE, List.drop_succ_cons, List.drop_succ_cons,
      ← List.append_assoc, List.drop_left' (by simp)]
    exact List.take_left
  have long : ¬ (encoded.data ++ padding).length < HEADER_SIZE := by
    rw [layout, HEADER_SIZE]
    simp only [List.length_cons, List.length_append, length_toBE]
    omega
  have whole :
      ¬ (encoded.data ++ padding).length <
        HEADER_SIZE + payload.length := by
    rw [layout, HEADER_SIZE]
    simp only [List.length_cons, List.length_append, length_toBE]
    omega
  have version : (encoded.data ++ padding).getD 0 0 = BATCH_VERSION := by
    rw [layout]
    rfl
  have codecId : (encoded.data ++ padding).getD 1 0 = CODEC_NONE := by
    rw [layout]
    rfl
  have records :=
    decodeRecords_flatMap encodable 0
  rw [List.length_zip, ← parallel, Nat.min_self, ← isPayload,
    List.map_fst_zip (Nat.le_of_eq parallel),
    List.map_snd_zip (Nat.le_of_eq parallel.symm)] at records
  rw [decodeBatch, if_neg long]
  simp only [version, codecId, countSlice, lengthSlice,
    ofBE_toBE_of_lt countFits, ofBE_toBE_of_lt payloadFits, whole,
    payloadSlice, if_false]
  exact records

/-- Decoding an encoded batch that fits a `uint32`, whatever follows it, gives
back the messages and signatures. -/
theorem decodeBatch_encodeBatch
    {messages : List BAMMessage}
    {signatures : List Bytes}
    {encoded : EncodedBatch}
    (decompress : Bytes → Except BatchError Bytes)
    (succeeded : encodeBatch messages signatures .none = .ok encoded)
    (short : estimateBatchSize messages ≤ MAX_UINT32)
    (padding : Bytes) :
    decodeBatch decompress (encoded.data ++ padding) =
      .ok { messages, signatures } :=
  decodeBatch_encodeBatch_of_payload decompress succeeded
    (Nat.le_trans short (Nat.le_add_left _ _)) padding

end Bam
