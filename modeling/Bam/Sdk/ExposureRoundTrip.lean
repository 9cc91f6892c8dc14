import Bam.Sdk.BlobParser
import Bam.Sdk.BlobValues

namespace Bam

open Bytewise

/-!
# Exposure batches come back

An encoded batch, on its own or laid out in a blob, is read back field by field.
Only the strings may differ: the text decoder drops a leading byte order mark
and the text encoder replaces unpaired surrogates.
-/

/-- A blob whose field elements are all below the modulus. -/
structure CanonicalBlob (blob : Bytes) : Prop where
  size : blob.length = BYTES_PER_BLOB
  reduced : ∀ fe ∈ fieldElements blob, ofBE fe < BLS_MODULUS

/-- The library commits to every canonical blob. -/
def KzgModule.CommitsCanonical (kzg : KzgModule) : Prop :=
  ∀ blob, CanonicalBlob blob → (kzg.blobToKzgCommitment blob).isSome

/-- A payload blob is canonical: the first byte of its field elements is
zero. -/
theorem canonicalBlob_payloadBlob
    {payload : Bytes}
    (fits : payload.length ≤ USABLE_BYTES_PER_BLOB) :
    CanonicalBlob (payloadBlob payload) := by
  have inside := feCount_le_of_fits fits
  have wide := payloadElements_wide payload
  refine ⟨?_, ?_⟩
  · rw [length_payloadBlob inside, blobSize_eq]
  · intro fe member
    rw [payloadBlob, fieldElements_flatten wide
      (length_payloadElements inside)] at member
    have leadingZero : ∃ rest, fe = 0x00 :: rest := by
      rcases List.mem_append.mp member with isPayload | isZero
      · obtain ⟨index, -, rfl⟩ := List.mem_map.mp isPayload
        exact ⟨_, rfl⟩
      · rw [List.eq_of_mem_replicate isZero]
        exact ⟨List.replicate 31 0x00, rfl⟩
    obtain ⟨rest, rfl⟩ := leadingZero
    have width := wide _ member
    have restWidth : rest.length = 31 :=
      Nat.succ.inj width
    have small := ofBE_lt rest
    rw [restWidth] at small
    calc
      ofBE (0x00 :: rest) = ofBE rest := rfl
      _ < 256 ^ 31 := small
      _ < BLS_MODULUS := by decide

/-- A canonical blob has a versioned hash once the setup is loaded. -/
theorem KzgModule.CommitsCanonical.versionedHashOf
    {kzg : KzgModule}
    (commits : kzg.CommitsCanonical)
    {blob : Bytes}
    (canonical : CanonicalBlob blob)
    (given : Option Bytes32) :
    ∃ versionedHash,
      kzg.loadTrustedSetup.versionedHashOf blob given =
        .ok versionedHash := by
  cases given with
  | some versionedHash =>
      exact ⟨versionedHash, rfl⟩
  | none =>
      obtain ⟨commitment, isCommitment⟩ :=
        Option.isSome_iff_exists.mp (commits blob canonical)
      have committed :
          kzg.loadTrustedSetup.commitToBlob blob =
            .ok {
              blob := blob
              commitment := commitment
              versionedHash := kzg.computeVersionedHash commitment } := by
        change (if _ then _ else _) = _
        rw [if_neg (not_not.mpr canonical.size)]
        simp only [KzgModule.loadTrustedSetup, isCommitment]
        rfl
      refine ⟨kzg.loadTrustedSetup.computeVersionedHash commitment, ?_⟩
      rw [KzgModule.versionedHashOf, committed]

theorem rawBytes_mapIdx_parsedMessage
    (keccak256 : Bytes → Bytes32)
    (batchStartOffset : Nat)
    (frames : List (Nat × Bytes)) :
    (frames.mapIdx (parsedMessage keccak256 batchStartOffset)).map
        (fun message => message.rawBytes) =
      frames.map Prod.snd := by
  apply List.ext_getElem
  · simp
  · intro index _ _
    simp [parsedMessage]

/-- A blob whose usable bytes begin with an encoded batch parses into the raw
messages of the encoder, at the offsets it recorded. -/
theorem EncodedAs.parsed_of_usable
    {messages : List ExposureMessage}
    {aggregateSignature : Option Bytes}
    {batch : ExposureBatch}
    (encoded : EncodedAs messages aggregateSignature batch)
    {kzg : KzgModule}
    (keccak256 : Bytes → Bytes32)
    {blob padding : Bytes}
    (isBlob : blob.length = BYTES_PER_BLOB)
    (isUsable : usableBytes blob = batch.data ++ padding)
    {given : Option Bytes32}
    {reported : Bytes32}
    (isReported : kzg.versionedHashOf blob given = .ok reported) :
    ∃ parsed,
      kzg.parseBlob keccak256 blob
          { batchStartOffset := none, versionedHash := given } =
        .ok parsed ∧
      parsed.messages.map (fun message => message.rawBytes) =
        messages.map rawMessageBytes ∧
      parsed.messages.map (fun message => message.byteOffset) =
        batch.messageOffsets := by
  have header := encoded.header padding
  have read := encoded.readFrames parseChecks padding
  have extracted :
      extractUsableBytesFromBlob blob 0 = batch.data ++ padding := by
    rw [extractUsableBytesFromBlob_eq isBlob (Nat.zero_le _),
      List.drop_zero, isUsable]
  have isMagic :
      leadingInt32 (batch.data ++ padding) = MAGIC_EXPOSURE := by
    rw [leadingInt32, header.magic]
    decide
  have isCount :
      ofBE (padRight 0 2 (((batch.data ++ padding).drop 6).take 2)) =
        messages.length := by
    rw [header.count, padRight, length_toBE, Nat.sub_self,
      List.replicate_zero, List.append_nil, encoded.count]
  have sameCount :
      ((placedFrom EXPOSURE_HEADER_SIZE
          (messages.map rawMessageBytes)).mapIdx
            (parsedMessage keccak256 0)).length =
        messages.length := by
    have lengths :=
      congrArg List.length
        (snd_placedFrom EXPOSURE_HEADER_SIZE
          (messages.map rawMessageBytes))
    rw [List.length_map, List.length_map] at lengths
    rw [List.length_mapIdx, lengths]
  refine ⟨{
    versionedHash := reported
    messages :=
      (placedFrom EXPOSURE_HEADER_SIZE
        (messages.map rawMessageBytes)).mapIdx
          (parsedMessage keccak256 0)
    messageCount := messages.length
    compressed := false
    batchStartOffset := 0 }, ?_, ?_, ?_⟩
  · have room : ¬USABLE_BYTES_PER_BLOB ≤ 0 := by
      decide
    unfold KzgModule.parseBlob
    dsimp only [Option.getD_none]
    rw [if_neg (not_not.mpr isBlob), if_neg room, isReported,
      extracted, isMagic, header.version, isCount]
    rw [ExceptLoops.ok_bind, if_neg (not_not.mpr rfl),
      if_neg (not_not.mpr rfl), read, ExceptLoops.ok_bind,
      if_neg (not_not.mpr sameCount)]
  · rw [rawBytes_mapIdx_parsedMessage, snd_placedFrom]
  · rw [encoded.offsets]
    apply List.ext_getElem
    · simp
    · intro index _ _
      simp [parsedMessage]

/-- The blob of an encoded batch parses into the raw messages of the encoder, at
the offsets it recorded. -/
theorem EncodedAs.parsedBlob
    {messages : List ExposureMessage}
    {aggregateSignature : Option Bytes}
    {batch : ExposureBatch}
    (encoded : EncodedAs messages aggregateSignature batch)
    {kzg : KzgModule}
    (commits : kzg.CommitsCanonical)
    (keccak256 : Bytes → Bytes32)
    (versionedHash : Option Bytes32) :
    ∃ parsed,
      kzg.loadTrustedSetup.parseBlob keccak256 (payloadBlob batch.data)
          { batchStartOffset := none, versionedHash := versionedHash } =
        .ok parsed ∧
      parsed.messages.map (fun message => message.rawBytes) =
        messages.map rawMessageBytes ∧
      parsed.messages.map (fun message => message.byteOffset) =
        batch.messageOffsets := by
  have fits : batch.data.length ≤ USABLE_BYTES_PER_BLOB := encoded.small
  have canonical := canonicalBlob_payloadBlob fits
  obtain ⟨reported, isReported⟩ :=
    commits.versionedHashOf canonical versionedHash
  obtain ⟨padding, isUsable⟩ :=
    usableBytes_payloadBlob (feCount_le_of_fits fits)
  exact encoded.parsed_of_usable keccak256 canonical.size isUsable
    isReported

/-- Everything an author and a contract get back from an encoded batch. -/
structure ExposureRoundTrip
    (kzg : KzgModule)
    (keccak256 : Bytes → Bytes32)
    (versionedHash : Option Bytes32)
    (messages : List ExposureMessage)
    (aggregateSignature : Option Bytes)
    (batch : ExposureBatch) : Prop where
  decodes :
    ∃ decoded,
      decodeExposureBatch batch.data = .ok decoded ∧
      decoded.messages.map (fun message => message.toExposureMessage) =
        messages ∧
      decoded.aggregateSignature =
        aggregateSignature.getD noSignature ∧
      decoded.hasAggregateSignature = aggregateSignature.isSome
  parses :
    ∃ blob parsed,
      createBlob batch.data = .ok blob ∧
      kzg.loadTrustedSetup.parseBlob keccak256 blob
          { batchStartOffset := none, versionedHash := versionedHash } =
        .ok parsed ∧
      messages.mapM buildRawMessageBytes =
        .ok (parsed.messages.map fun message => message.rawBytes) ∧
      ∀ message ∈ parsed.messages,
        extractBytes blob message.absoluteByteOffset
            message.rawBytes.length =
          .ok message.rawBytes

theorem readBack_eq_self_iff
    {content : List UInt16} :
    readBack content = content ↔
      Utf16.WellFormed content ∧ ¬Utf16.BeginsWithMark content := by
  rw [← Utf16.textDecode?_textEncode_eq_self_iff,
    Utf16.textDecode?_textEncode, Option.some.injEq, readBack]

theorem decodedMessage_eq_iff
    {message : ExposureMessage} :
    (decodedMessage message).toExposureMessage = message ↔
      readBack message.content = message.content := by
  cases message
  simp [decodedMessage]

theorem EncodedAs.built
    {messages : List ExposureMessage}
    {aggregateSignature : Option Bytes}
    {batch : ExposureBatch}
    (encoded : EncodedAs messages aggregateSignature batch) :
    messages.mapM buildRawMessageBytes =
      .ok (messages.map rawMessageBytes) := by
  apply ExceptLoops.mapM_eq_ok_iff.mpr
  rw [List.forall₂_map_right_iff, List.forall₂_same]
  intro message member
  rw [buildRawMessageBytes,
    if_neg (Nat.not_lt.mpr (encoded.timestamps message member)),
    if_neg (Nat.not_lt.mpr (encoded.nonces message member))]

/-- An admitted batch comes back, in every respect, exactly where no content
begins with a byte order mark or has an unpaired surrogate. -/
theorem exposureRoundTrip_iff
    {kzg : KzgModule}
    (commits : kzg.CommitsCanonical)
    (keccak256 : Bytes → Bytes32)
    (versionedHash : Option Bytes32)
    {messages : List ExposureMessage}
    {aggregateSignature : Option Bytes}
    {batch : ExposureBatch}
    (encoded :
      encodeExposureBatch messages aggregateSignature = .ok batch) :
    ExposureRoundTrip kzg keccak256 versionedHash messages
        aggregateSignature batch ↔
      ∀ message ∈ messages,
        Utf16.WellFormed message.content ∧
          ¬Utf16.BeginsWithMark message.content := by
  have written := encodeExposureBatch_eq_ok encoded
  constructor
  · rintro ⟨⟨decoded, isDecoded, sameMessages, -, -⟩, -⟩
    have isMap := written.decoded.symm.trans isDecoded
    cases isMap
    intro message member
    rw [List.map_map] at sameMessages
    have same :=
      List.map_inj_left.mp (sameMessages.trans (List.map_id _).symm)
        message member
    exact readBack_eq_self_iff.mp (decodedMessage_eq_iff.mp same)
  · intro faithful
    refine ⟨⟨_, written.decoded, ?_, rfl, rfl⟩, ?_⟩
    · have same :
          ∀ message ∈ messages,
            ((fun decoded : DecodedExposureMessage =>
              decoded.toExposureMessage) ∘ decodedMessage) message =
                id message := by
        intro message member
        exact decodedMessage_eq_iff.mpr
          (readBack_eq_self_iff.mpr (faithful message member))
      rw [List.map_map, List.map_congr_left same, List.map_id]
    · have fits : batch.data.length ≤ USABLE_BYTES_PER_BLOB :=
        written.small
      obtain ⟨parsed, isParsed, sameRaw, -⟩ :=
        written.parsedBlob commits keccak256 versionedHash
      obtain ⟨isBlob, -, placed⟩ :=
        KzgModule.parseBlob_parsedIn isParsed
      refine ⟨_, parsed, createBlob_ok fits, isParsed, ?_, ?_⟩
      · rw [sameRaw, written.built]
      · intro message member
        have isPlaced := placed message member
        rw [isPlaced.length, extractBytes_eq isBlob isPlaced.inside,
          ← isPlaced.slice]

/-- The commitment library under the testing setup; it refuses what is no
canonical blob. -/
def testingKzg (sha256 : Bytes → Bytes32) : KzgModule where
  setupLoaded := false
  blobToKzgCommitment := fun blob =>
    if blob.length = BYTES_PER_BLOB ∧
        ∀ fe ∈ fieldElements blob, ofBE fe < BLS_MODULUS then
      some (testingCommitment blob)
    else none
  computeBlobKzgProof := fun _ _ => none
  sha256 := sha256

theorem blobToKzgCommitment_testingKzg
    (sha256 : Bytes → Bytes32)
    {blob : Bytes}
    (canonical : CanonicalBlob blob) :
    (testingKzg sha256).blobToKzgCommitment blob =
      some (testingCommitment blob) :=
  if_pos ⟨canonical.size, canonical.reduced⟩

/-- A message of account 1 at time 2 with nonce 3. -/
def messageOf (content : List UInt16) : ExposureMessage where
  sender := 1
  timestamp := 2
  nonce := 3
  content := content

/-- The batch of one such message. -/
def batchOf (content : List UInt16) : ExposureBatch where
  data :=
    exposureHeader 1 none ++ frame (rawMessageBytes (messageOf content))
  headerSize := EXPOSURE_HEADER_SIZE
  totalSize :=
    EXPOSURE_HEADER_SIZE +
      (EXPOSURE_MSG_PREFIX_SIZE +
        (rawMessageBytes (messageOf content)).length)
  messageCount := 1
  messageOffsets := [EXPOSURE_HEADER_SIZE + EXPOSURE_MSG_PREFIX_SIZE]
  messageLengths := [(rawMessageBytes (messageOf content)).length]

/-- The hash of the message that says "hi". -/
def greetingKeccak (bytes : Bytes) : Bytes32 :=
  if bytes = rawMessageBytes (messageOf [0x68, 0x69]) then
    0xcc0bcfaa77878370db77159924019cb4954a54f586f703c79e6dd7c898d50a48
  else 0

/-- The hash of the commitment to the blob of that message. -/
def greetingSha256 (bytes : Bytes) : Bytes32 :=
  if bytes =
      toBE 48
        0xa12e1420baa3ed391578a276b58c3d37a57bdf14bfde702d0d57226ff7042caede4d381eae4617d84bef5db520617e01 then
    0x5b4732ba8a53b9010f6b8b6492d38f75718d81afa53b813834604446ae37617a
  else 0

theorem exposureRoundTrip_iff_greeting :
    encodeExposureBatch [messageOf [0x68, 0x69]] none =
        .ok (batchOf [0x68, 0x69]) ∧
      (ExposureRoundTrip (testingKzg greetingSha256) greetingKeccak none
          [messageOf [0x68, 0x69]] none (batchOf [0x68, 0x69]) ↔
        ∀ message ∈ [messageOf [0x68, 0x69]],
          Utf16.WellFormed message.content ∧
            ¬Utf16.BeginsWithMark message.content) := by
  have encoded :
      encodeExposureBatch [messageOf [0x68, 0x69]] none =
        .ok (batchOf [0x68, 0x69]) := by
    decide
  have commits : (testingKzg greetingSha256).CommitsCanonical := by
    intro blob canonical
    rw [blobToKzgCommitment_testingKzg greetingSha256 canonical]
    rfl
  exact ⟨encoded,
    exposureRoundTrip_iff commits greetingKeccak none encoded⟩

/-- A content that is one byte order mark is encoded into three bytes and comes
back empty. -/
theorem leading_mark_is_dropped :
    encodeExposureBatch [messageOf [0xfeff]] none =
        .ok (batchOf [0xfeff]) ∧
      ∃ decoded,
        decodeExposureBatch (batchOf [0xfeff]).data = .ok decoded ∧
        decoded.messages.map (fun message => message.content) ≠
          [[0xfeff]] := by
  have encoded :
      encodeExposureBatch [messageOf [0xfeff]] none =
        .ok (batchOf [0xfeff]) := by
    decide
  have written := encodeExposureBatch_eq_ok encoded
  refine ⟨encoded, _, written.decoded, ?_⟩
  decide

end Bam
