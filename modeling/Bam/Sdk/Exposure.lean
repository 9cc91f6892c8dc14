import Bam.Lib.ExceptLoops
import Bam.Lib.Utf16
import Bam.Sdk.Batch

namespace Bam

open Bytewise

/-!
# Exposure batches

A batch in exposure format is a header of 56 bytes and messages in the raw form
`BLSExposer` verifies, each behind a length of two bytes.  A `content` is a
JavaScript string, so any list of UTF-16 code units.
-/

def MAGIC_EXPOSURE : Nat := 0x534f4232

def PROTOCOL_VERSION : UInt8 := 0x01

def BLS_SIGNATURE_SIZE : Nat := 48

def EXPOSURE_HEADER_SIZE : Nat := 56

def EXPOSURE_MSG_PREFIX_SIZE : Nat := 2

def BLOB_USABLE_CAPACITY : Nat := 126976

def FLAG_HAS_AGGREGATE_SIG : UInt8 := 0x01

structure ExposureMessage where
  sender : Address
  timestamp : Nat
  nonce : Nat
  content : List UInt16
  deriving Repr, DecidableEq

/-- What the encoder throws. -/
inductive ExposureEncodeError where
  | invalidTimestamp (timestamp : Nat)
  | invalidNonce (nonce : Nat)
  | emptyBatch
  | tooManyMessages (count : Nat)
  | batchTooLarge (totalSize : Nat)
  | invalidSignatureLength (length : Nat)
  | signatureAllZeros
  | messageTooLarge (index length : Nat)
  deriving Repr, DecidableEq

/-- What `decodeExposureBatch` throws. -/
inductive ExposureDecodeError where
  | tooShortForHeader (length : Nat)
  | invalidMagic (magic : Nat)
  | unsupportedVersion (version : UInt8)
  | truncatedBatch (index : Nat)
  | truncatedMessage (index need available : Nat)
  | messageTooShort (index length : Nat)
  deriving Repr, DecidableEq

/-- `ExposureBatch`. -/
structure ExposureBatch where
  data : Bytes
  headerSize : Nat
  totalSize : Nat
  messageCount : Nat
  messageOffsets : List Nat
  messageLengths : List Nat
  deriving Repr, DecidableEq

/-- The bytes of a message, once its fields are in range. -/
def rawMessageBytes (message : ExposureMessage) : Bytes :=
  addressBytes message.sender ++ toBE 4 message.timestamp ++
    toBE 2 message.nonce ++ Utf16.textEncode message.content

/-- `buildRawMessageBytes`. -/
def buildRawMessageBytes
    (message : ExposureMessage) : Except ExposureEncodeError Bytes :=
  if 0xffffffff < message.timestamp then
    .error (.invalidTimestamp message.timestamp)
  else if 0xffff < message.nonce then
    .error (.invalidNonce message.nonce)
  else
    .ok (rawMessageBytes message)

/-- A raw message behind its length. -/
def frame (raw : Bytes) : Bytes :=
  toBE EXPOSURE_MSG_PREFIX_SIZE raw.length ++ raw

/-- The checks on the aggregate signature. -/
def checkAggregateSignature :
    Option Bytes → Except ExposureEncodeError Unit
  | none => .ok ()
  | some signature =>
      if signature.length ≠ BLS_SIGNATURE_SIZE then
        .error (.invalidSignatureLength signature.length)
      else if signature.all (· == 0) then
        .error .signatureAllZeros
      else
        .ok ()

/-- The message loop of `encodeExposureBatch` from an index and an offset on:
the offsets of the raw bytes. -/
def placeMessages :
    Nat → Nat → List Bytes → Except ExposureEncodeError (List Nat)
  | _, _, [] => .ok []
  | index, offset, raw :: rest =>
      if 0xffff < raw.length then
        .error (.messageTooLarge index raw.length)
      else
        let start := offset + EXPOSURE_MSG_PREFIX_SIZE
        match placeMessages (index + 1) (start + raw.length) rest with
        | .error error => .error error
        | .ok offsets => .ok (start :: offsets)

/-- The bytes of an absent signature. -/
def noSignature : Bytes :=
  List.replicate BLS_SIGNATURE_SIZE 0

/-- The header of a batch. -/
def exposureHeader
    (messageCount : Nat)
    (aggregateSignature : Option Bytes) : Bytes :=
  toBE 4 MAGIC_EXPOSURE ++ [PROTOCOL_VERSION] ++
    [if aggregateSignature.isSome then FLAG_HAS_AGGREGATE_SIG else 0] ++
    toBE 2 messageCount ++ aggregateSignature.getD noSignature

/-- `encodeExposureBatch`. -/
def encodeExposureBatch
    (messages : List ExposureMessage)
    (aggregateSignature : Option Bytes) :
    Except ExposureEncodeError ExposureBatch :=
  if messages.length = 0 then
    .error .emptyBatch
  else if 65535 < messages.length then
    .error (.tooManyMessages messages.length)
  else do
    let rawBytesList ← messages.mapM buildRawMessageBytes
    let messagesSize :=
      (rawBytesList.map fun raw =>
        EXPOSURE_MSG_PREFIX_SIZE + raw.length).sum
    let totalSize := EXPOSURE_HEADER_SIZE + messagesSize
    if BLOB_USABLE_CAPACITY < totalSize then
      .error (.batchTooLarge totalSize)
    else do
      checkAggregateSignature aggregateSignature
      let messageOffsets ←
        placeMessages 0 EXPOSURE_HEADER_SIZE rawBytesList
      .ok {
        data :=
          exposureHeader messages.length aggregateSignature ++
            rawBytesList.flatMap frame
        headerSize := EXPOSURE_HEADER_SIZE
        totalSize := totalSize
        messageCount := messages.length
        messageOffsets := messageOffsets
        messageLengths := rawBytesList.map List.length }

/-- What a loop over the messages of a batch checks on the way and what it
throws; a zero length may be an error of its own. -/
structure FrameChecks (ε : Type) where
  noPrefix : Nat → ε
  zeroLength : Nat → Option ε
  truncated : Nat → Nat → Nat → ε
  tooShort : Nat → Nat → ε

/-- The bytes of the fixed fields of a raw message. -/
def RAW_MESSAGE_MIN : Nat := 26

/-- The message loop of `decodeExposureBatch` and `parseBlob`: the offsets of
the raw bytes, and the raw bytes. -/
def readFrames
    {ε : Type}
    (checks : FrameChecks ε)
    (data : Bytes) :
    Nat → Nat → Nat → Except ε (List (Nat × Bytes))
  | 0, _, _ => .ok []
  | count + 1, index, offset =>
      if data.length < offset + EXPOSURE_MSG_PREFIX_SIZE then
        .error (checks.noPrefix index)
      else
        let rawLen :=
          ofBE ((data.drop offset).take EXPOSURE_MSG_PREFIX_SIZE)
        let start := offset + EXPOSURE_MSG_PREFIX_SIZE
        match if rawLen = 0 then checks.zeroLength index else none with
        | some error => .error error
        | none =>
            if data.length < start + rawLen then
              .error
                (checks.truncated index rawLen (data.length - start))
            else if rawLen < RAW_MESSAGE_MIN then
              .error (checks.tooShort index rawLen)
            else
              match readFrames checks data count (index + 1)
                  (start + rawLen) with
              | .error error => .error error
              | .ok rest =>
                  .ok ((start, (data.drop start).take rawLen) :: rest)

/-- The string an undecodable content is replaced by. -/
def invalidUtf8 : List UInt16 :=
  Utf16.encode "[Invalid UTF-8]".toList

/-- The fields of a raw message. -/
def parseRawMessage (rawBytes : Bytes) : ExposureMessage where
  sender := addressOfBytes (rawBytes.take 20)
  timestamp := ofBE ((rawBytes.drop 20).take 4)
  nonce := ofBE ((rawBytes.drop 24).take 2)
  content :=
    (Utf16.textDecode? (rawBytes.drop RAW_MESSAGE_MIN)).getD invalidUtf8

structure DecodedExposureMessage extends ExposureMessage where
  rawBytes : Bytes
  deriving Repr, DecidableEq

/-- `DecodedExposureBatch`. -/
structure DecodedExposureBatch where
  messages : List DecodedExposureMessage
  messageCount : Nat
  aggregateSignature : Bytes
  hasAggregateSignature : Bool
  deriving Repr, DecidableEq

def decodeChecks : FrameChecks ExposureDecodeError where
  noPrefix := .truncatedBatch
  zeroLength := fun _ => none
  truncated := .truncatedMessage
  tooShort := .messageTooShort

/-- `decodeExposureBatch`. -/
def decodeExposureBatch
    (data : Bytes) : Except ExposureDecodeError DecodedExposureBatch :=
  let magic := ofBE (data.take 4)
  let version := data.getD 4 0
  let flags := data.getD 5 0
  let messageCount := ofBE ((data.drop 6).take 2)
  if data.length < EXPOSURE_HEADER_SIZE then
    .error (.tooShortForHeader data.length)
  else if magic ≠ MAGIC_EXPOSURE then
    .error (.invalidMagic magic)
  else if version ≠ PROTOCOL_VERSION then
    .error (.unsupportedVersion version)
  else do
    let frames ←
      readFrames decodeChecks data messageCount 0 EXPOSURE_HEADER_SIZE
    .ok {
      messages := frames.map fun placed =>
        { parseRawMessage placed.2 with rawBytes := placed.2 }
      messageCount := messageCount
      aggregateSignature := (data.drop 8).take BLS_SIGNATURE_SIZE
      hasAggregateSignature := flags &&& FLAG_HAS_AGGREGATE_SIG != 0 }

/-- Where raw messages written from an offset on start, and the messages. -/
def placedFrom : Nat → List Bytes → List (Nat × Bytes)
  | _, [] => []
  | offset, raw :: rest =>
      (offset + EXPOSURE_MSG_PREFIX_SIZE, raw) ::
        placedFrom (offset + EXPOSURE_MSG_PREFIX_SIZE + raw.length) rest

theorem snd_placedFrom
    (offset : Nat)
    (raws : List Bytes) :
    (placedFrom offset raws).map Prod.snd = raws := by
  induction raws generalizing offset with
  | nil =>
      rfl
  | cons raw rest inductionHypothesis =>
      simp only [placedFrom, List.map_cons, inductionHypothesis]

/-- The offsets the encoder records are where the raw messages start, and every
length fits its prefix. -/
theorem placeMessages_eq_ok
    {index offset : Nat}
    {raws : List Bytes}
    {offsets : List Nat}
    (placed : placeMessages index offset raws = .ok offsets) :
    offsets = (placedFrom offset raws).map Prod.fst ∧
      ∀ raw ∈ raws, raw.length ≤ 0xffff := by
  induction raws generalizing index offset offsets with
  | nil =>
      cases placed
      simp [placedFrom]
  | cons raw rest inductionHypothesis =>
      rw [placeMessages] at placed
      split at placed
      · cases placed
      rename_i fits
      dsimp only at placed
      split at placed
      · cases placed
      rename_i others isRest
      cases placed
      obtain ⟨isOthers, restFit⟩ := inductionHypothesis isRest
      constructor
      · rw [placedFrom, List.map_cons, isOthers]
      · intro item member
        rcases List.mem_cons.mp member with rfl | inRest
        · exact Nat.le_of_not_lt fits
        · exact restFit item inRest

/-- Reading frames gives back the raw messages that were written, whatever is
behind them. -/
theorem readFrames_written
    {ε : Type}
    (checks : FrameChecks ε)
    {data tail : Bytes}
    {raws : List Bytes}
    (index : Nat)
    {offset : Nat}
    (wide : ∀ raw ∈ raws, RAW_MESSAGE_MIN ≤ raw.length)
    (fit : ∀ raw ∈ raws, raw.length ≤ 0xffff)
    (inside : offset ≤ data.length)
    (written : data.drop offset = raws.flatMap frame ++ tail) :
    readFrames checks data raws.length index offset =
      .ok (placedFrom offset raws) := by
  induction raws generalizing index offset with
  | nil =>
      rfl
  | cons raw rest inductionHypothesis =>
      have rawWide := wide raw List.mem_cons_self
      have rawFits := fit raw List.mem_cons_self
      have positive : raw.length ≠ 0 := by
        simp only [RAW_MESSAGE_MIN] at rawWide
        omega
      have shape :
          data.drop offset =
            toBE EXPOSURE_MSG_PREFIX_SIZE raw.length ++
              (raw ++ (rest.flatMap frame ++ tail)) := by
        rw [written, List.flatMap_cons, frame, List.append_assoc,
          List.append_assoc]
      have behindPrefix :
          data.drop (offset + EXPOSURE_MSG_PREFIX_SIZE) =
            raw ++ (rest.flatMap frame ++ tail) := by
        rw [← List.drop_drop, shape]
        exact List.drop_left' (length_toBE _ _)
      have behindRaw :
          data.drop (offset + EXPOSURE_MSG_PREFIX_SIZE + raw.length) =
            rest.flatMap frame ++ tail := by
        rw [← List.drop_drop, behindPrefix]
        exact List.drop_left' rfl
      have room :
          offset + EXPOSURE_MSG_PREFIX_SIZE + raw.length ≤
            data.length := by
        have lengths := congrArg List.length shape
        rw [List.length_drop, List.length_append, length_toBE,
          List.length_append] at lengths
        omega
      have isLength :
          ofBE ((data.drop offset).take EXPOSURE_MSG_PREFIX_SIZE) =
            raw.length := by
        rw [shape, List.take_left' (length_toBE _ _)]
        apply ofBE_toBE_of_lt
        simp only [EXPOSURE_MSG_PREFIX_SIZE]
        omega
      have isRaw :
          (data.drop (offset + EXPOSURE_MSG_PREFIX_SIZE)).take
              raw.length = raw := by
        rw [behindPrefix]
        exact List.take_left' rfl
      have later :=
        inductionHypothesis (index + 1)
          (fun item member => wide item (List.mem_cons_of_mem _ member))
          (fun item member => fit item (List.mem_cons_of_mem _ member))
          room behindRaw
      rw [List.length_cons, readFrames, if_neg (by omega)]
      dsimp only
      rw [isLength, if_neg positive]
      dsimp only
      rw [if_neg (by omega), if_neg (by omega), later, isRaw, placedFrom]

theorem rawMessageBytes_wide
    (message : ExposureMessage) :
    RAW_MESSAGE_MIN ≤ (rawMessageBytes message).length := by
  simp only [rawMessageBytes, RAW_MESSAGE_MIN, List.length_append,
    length_addressBytes, length_toBE]
  omega

/-- What a content is read back as. -/
def readBack (content : List UInt16) : List UInt16 :=
  Utf16.encode (Utf8.dropMark (Utf16.decode content))

/-- The fields of a raw message are those it was built from, but for what the
text codec makes of the content. -/
theorem parseRawMessage_rawMessageBytes
    {message : ExposureMessage}
    (timestampFits : message.timestamp ≤ 0xffffffff)
    (nonceFits : message.nonce ≤ 0xffff) :
    parseRawMessage (rawMessageBytes message) =
      { message with content := readBack message.content } := by
  have shape :
      rawMessageBytes message =
        addressBytes message.sender ++
          (toBE 4 message.timestamp ++
            (toBE 2 message.nonce ++
              Utf16.textEncode message.content)) := by
    simp only [rawMessageBytes, List.append_assoc]
  have behindSender :
      (rawMessageBytes message).drop 20 =
        toBE 4 message.timestamp ++
          (toBE 2 message.nonce ++
            Utf16.textEncode message.content) := by
    rw [shape]
    exact List.drop_left' (length_addressBytes _)
  have behindTimestamp :
      (rawMessageBytes message).drop 24 =
        toBE 2 message.nonce ++ Utf16.textEncode message.content := by
    have split :
        (rawMessageBytes message).drop 24 =
          ((rawMessageBytes message).drop 20).drop 4 := by
      rw [List.drop_drop]
    rw [split, behindSender]
    exact List.drop_left' (length_toBE _ _)
  have behindNonce :
      (rawMessageBytes message).drop RAW_MESSAGE_MIN =
        Utf16.textEncode message.content := by
    have split :
        (rawMessageBytes message).drop RAW_MESSAGE_MIN =
          ((rawMessageBytes message).drop 24).drop 2 := by
      rw [List.drop_drop]
      rfl
    rw [split, behindTimestamp]
    exact List.drop_left' (length_toBE _ _)
  have sender :
      (rawMessageBytes message).take 20 = addressBytes message.sender := by
    rw [shape]
    exact List.take_left' (length_addressBytes _)
  have timestamp :
      ofBE (((rawMessageBytes message).drop 20).take 4) =
        message.timestamp := by
    rw [behindSender, List.take_left' (length_toBE _ _)]
    apply ofBE_toBE_of_lt
    omega
  have nonce :
      ofBE (((rawMessageBytes message).drop 24).take 2) =
        message.nonce := by
    rw [behindTimestamp, List.take_left' (length_toBE _ _)]
    apply ofBE_toBE_of_lt
    omega
  have content :
      (Utf16.textDecode?
          ((rawMessageBytes message).drop RAW_MESSAGE_MIN)).getD
            invalidUtf8 =
        readBack message.content := by
    rw [behindNonce, Utf16.textDecode?_textEncode]
    rfl
  simp only [parseRawMessage, sender, timestamp, nonce, content,
    addressOfBytes_addressBytes]

/-- What a successful `encodeExposureBatch` admitted and wrote. -/
structure EncodedAs
    (messages : List ExposureMessage)
    (aggregateSignature : Option Bytes)
    (batch : ExposureBatch) : Prop where
  few : messages.length ≤ 0xffff
  timestamps : ∀ message ∈ messages, message.timestamp ≤ 0xffffffff
  nonces : ∀ message ∈ messages, message.nonce ≤ 0xffff
  rawFits :
    ∀ raw ∈ messages.map rawMessageBytes, raw.length ≤ 0xffff
  signature :
    (aggregateSignature.getD noSignature).length = BLS_SIGNATURE_SIZE
  isData :
    batch.data =
      exposureHeader messages.length aggregateSignature ++
        (messages.map rawMessageBytes).flatMap frame
  small : batch.data.length ≤ BLOB_USABLE_CAPACITY
  offsets :
    batch.messageOffsets =
      (placedFrom EXPOSURE_HEADER_SIZE
        (messages.map rawMessageBytes)).map Prod.fst

theorem buildRawMessageBytes_eq_ok
    {message : ExposureMessage}
    {raw : Bytes}
    (built : buildRawMessageBytes message = .ok raw) :
    message.timestamp ≤ 0xffffffff ∧ message.nonce ≤ 0xffff ∧
      raw = rawMessageBytes message := by
  unfold buildRawMessageBytes at built
  split at built
  · cases built
  rename_i timestampFits
  split at built
  · cases built
  rename_i nonceFits
  exact ⟨Nat.le_of_not_lt timestampFits, Nat.le_of_not_lt nonceFits,
    (Except.ok.inj built).symm⟩

theorem mapM_buildRawMessageBytes
    {messages : List ExposureMessage}
    {raws : List Bytes}
    (built : messages.mapM buildRawMessageBytes = .ok raws) :
    raws = messages.map rawMessageBytes ∧
      ∀ message ∈ messages,
        message.timestamp ≤ 0xffffffff ∧ message.nonce ≤ 0xffff := by
  have related := ExceptLoops.mapM_eq_ok_iff.mp built
  clear built
  induction related with
  | nil =>
      simp
  | cons isFirst _ inductionHypothesis =>
      obtain ⟨timestampFits, nonceFits, isRaw⟩ :=
        buildRawMessageBytes_eq_ok isFirst
      obtain ⟨isRest, restFit⟩ := inductionHypothesis
      constructor
      · rw [List.map_cons, isRaw, isRest]
      · intro message member
        rcases List.mem_cons.mp member with rfl | inRest
        · exact ⟨timestampFits, nonceFits⟩
        · exact restFit message inRest

theorem checkAggregateSignature_eq_ok
    {aggregateSignature : Option Bytes}
    (checked : checkAggregateSignature aggregateSignature = .ok ()) :
    (aggregateSignature.getD noSignature).length =
      BLS_SIGNATURE_SIZE := by
  cases aggregateSignature with
  | none =>
      exact List.length_replicate
  | some signature =>
      simp only [checkAggregateSignature] at checked
      split at checked
      · cases checked
      rename_i rightLength
      exact not_not.mp rightLength

theorem length_exposureHeader
    {messageCount : Nat}
    {aggregateSignature : Option Bytes}
    (signature :
      (aggregateSignature.getD noSignature).length =
        BLS_SIGNATURE_SIZE) :
    (exposureHeader messageCount aggregateSignature).length =
      EXPOSURE_HEADER_SIZE := by
  simp only [exposureHeader, List.length_append, length_toBE, signature,
    List.length_singleton]
  rfl

theorem length_flatMap_frame
    (raws : List Bytes) :
    (raws.flatMap frame).length =
      (raws.map fun raw => EXPOSURE_MSG_PREFIX_SIZE + raw.length).sum := by
  simp [List.length_flatMap, frame]

/-- A successful `encodeExposureBatch`. -/
theorem encodeExposureBatch_eq_ok
    {messages : List ExposureMessage}
    {aggregateSignature : Option Bytes}
    {batch : ExposureBatch}
    (encoded :
      encodeExposureBatch messages aggregateSignature = .ok batch) :
    EncodedAs messages aggregateSignature batch := by
  unfold encodeExposureBatch at encoded
  split at encoded
  · cases encoded
  split at encoded
  · cases encoded
  rename_i few
  cases isBuilt : messages.mapM buildRawMessageBytes with
  | error error =>
      rw [isBuilt] at encoded
      cases encoded
  | ok raws =>
      rw [isBuilt] at encoded
      obtain ⟨isRaws, inRange⟩ := mapM_buildRawMessageBytes isBuilt
      subst isRaws
      change (if _ then _ else _) = _ at encoded
      split at encoded
      · cases encoded
      rename_i fits
      cases isChecked : checkAggregateSignature aggregateSignature with
      | error error =>
          rw [isChecked] at encoded
          cases encoded
      | ok checked =>
          cases isPlaced :
              placeMessages 0 EXPOSURE_HEADER_SIZE
                (messages.map rawMessageBytes) with
          | error error =>
              rw [isChecked, isPlaced] at encoded
              cases encoded
          | ok offsets =>
              rw [isChecked, isPlaced] at encoded
              cases encoded
              have signature := checkAggregateSignature_eq_ok isChecked
              obtain ⟨isOffsets, rawFits⟩ := placeMessages_eq_ok isPlaced
              refine ⟨Nat.le_of_not_lt few, ?_, ?_, rawFits, signature,
                rfl, ?_, isOffsets⟩
              · intro message member
                exact (inRange message member).1
              · intro message member
                exact (inRange message member).2
              · rw [List.length_append, length_exposureHeader signature,
                  length_flatMap_frame]
                exact Nat.le_of_not_lt fits

/-- The parts of the header of an encoded batch, and the messages behind it. -/
structure HeaderOf
    (messageCount : Nat)
    (aggregateSignature : Option Bytes)
    (body data : Bytes) : Prop where
  long : EXPOSURE_HEADER_SIZE ≤ data.length
  magic : data.take 4 = toBE 4 MAGIC_EXPOSURE
  version : data[4]? = some PROTOCOL_VERSION
  flags :
    data.getD 5 0 =
      if aggregateSignature.isSome then FLAG_HAS_AGGREGATE_SIG else 0
  count : (data.drop 6).take 2 = toBE 2 messageCount
  signature :
    (data.drop 8).take BLS_SIGNATURE_SIZE =
      aggregateSignature.getD noSignature
  body : data.drop EXPOSURE_HEADER_SIZE = body

theorem headerOf_append
    {messageCount : Nat}
    {aggregateSignature : Option Bytes}
    (signature :
      (aggregateSignature.getD noSignature).length = BLS_SIGNATURE_SIZE)
    (body : Bytes) :
    HeaderOf messageCount aggregateSignature body
      (exposureHeader messageCount aggregateSignature ++ body) := by
  have length :
      (exposureHeader messageCount aggregateSignature).length =
        EXPOSURE_HEADER_SIZE :=
    length_exposureHeader signature
  have shape :
      exposureHeader messageCount aggregateSignature ++ body =
        toBE 4 MAGIC_EXPOSURE ++
          (PROTOCOL_VERSION ::
            (if aggregateSignature.isSome then
                FLAG_HAS_AGGREGATE_SIG
              else 0) ::
            (toBE 2 messageCount ++
              (aggregateSignature.getD noSignature ++ body))) := by
    simp only [exposureHeader, List.append_assoc, List.cons_append,
      List.nil_append]
  have behindMagic := congrArg (List.drop 4) shape
  rw [List.drop_left' (length_toBE 4 MAGIC_EXPOSURE)] at behindMagic
  have behindFlags := congrArg (List.drop 2) behindMagic
  simp only [List.drop_drop, List.drop_succ_cons, List.drop_zero]
    at behindFlags
  have behindCount := congrArg (List.drop 2) behindFlags
  rw [List.drop_drop, List.drop_left' (length_toBE 2 messageCount)]
    at behindCount
  refine ⟨?_, ?_, ?_, ?_, ?_, ?_, ?_⟩
  · rw [List.length_append, length]
    exact Nat.le_add_right _ _
  · rw [shape]
    exact List.take_left' (length_toBE _ _)
  · have fifth := congrArg (fun bytes => bytes[0]?) behindMagic
    simpa using fifth
  · have sixth := congrArg (fun bytes => bytes[1]?) behindMagic
    simp only [List.getElem?_drop] at sixth
    rw [List.getD_eq_getElem?_getD, sixth]
    rfl
  · rw [behindFlags]
    exact List.take_left' (length_toBE _ _)
  · rw [behindCount]
    exact List.take_left' signature
  · exact List.drop_left' length

theorem rawMessages_wide
    (messages : List ExposureMessage) :
    ∀ raw ∈ messages.map rawMessageBytes,
      RAW_MESSAGE_MIN ≤ raw.length := by
  intro raw member
  obtain ⟨message, -, rfl⟩ := List.mem_map.mp member
  exact rawMessageBytes_wide message

theorem EncodedAs.header
    {messages : List ExposureMessage}
    {aggregateSignature : Option Bytes}
    {batch : ExposureBatch}
    (encoded : EncodedAs messages aggregateSignature batch)
    (tail : Bytes) :
    HeaderOf messages.length aggregateSignature
      ((messages.map rawMessageBytes).flatMap frame ++ tail)
      (batch.data ++ tail) := by
  rw [encoded.isData, List.append_assoc]
  exact headerOf_append encoded.signature _

/-- The messages of an encoded batch are read from any data that begins with it,
whatever the checks. -/
theorem EncodedAs.readFrames
    {messages : List ExposureMessage}
    {aggregateSignature : Option Bytes}
    {batch : ExposureBatch}
    (encoded : EncodedAs messages aggregateSignature batch)
    {ε : Type}
    (checks : FrameChecks ε)
    (tail : Bytes) :
    readFrames checks (batch.data ++ tail) messages.length 0
        EXPOSURE_HEADER_SIZE =
      .ok (placedFrom EXPOSURE_HEADER_SIZE
        (messages.map rawMessageBytes)) := by
  have header := encoded.header tail
  have read :=
    readFrames_written checks 0 (rawMessages_wide messages)
      encoded.rawFits header.long header.body
  rw [List.length_map] at read
  exact read

theorem EncodedAs.count
    {messages : List ExposureMessage}
    {aggregateSignature : Option Bytes}
    {batch : ExposureBatch}
    (encoded : EncodedAs messages aggregateSignature batch) :
    ofBE (toBE 2 messages.length) = messages.length := by
  have few := encoded.few
  apply ofBE_toBE_of_lt
  omega

/-- A message as it is decoded. -/
def decodedMessage (message : ExposureMessage) : DecodedExposureMessage :=
  { message with
    content := readBack message.content
    rawBytes := rawMessageBytes message }

theorem EncodedAs.parsed
    {messages : List ExposureMessage}
    {aggregateSignature : Option Bytes}
    {batch : ExposureBatch}
    (encoded : EncodedAs messages aggregateSignature batch)
    {message : ExposureMessage}
    (member : message ∈ messages) :
    parseRawMessage (rawMessageBytes message) =
      { message with content := readBack message.content } :=
  parseRawMessage_rawMessageBytes (encoded.timestamps message member)
    (encoded.nonces message member)

/-- What an encoded batch decodes to. -/
theorem EncodedAs.decoded
    {messages : List ExposureMessage}
    {aggregateSignature : Option Bytes}
    {batch : ExposureBatch}
    (encoded : EncodedAs messages aggregateSignature batch) :
    decodeExposureBatch batch.data =
      .ok {
        messages := messages.map decodedMessage
        messageCount := messages.length
        aggregateSignature := aggregateSignature.getD noSignature
        hasAggregateSignature := aggregateSignature.isSome } := by
  have header := encoded.header []
  have read := encoded.readFrames decodeChecks []
  rw [List.append_nil, List.append_nil] at header
  rw [List.append_nil] at read
  have isMagic : ofBE (batch.data.take 4) = MAGIC_EXPOSURE := by
    rw [header.magic]
    exact ofBE_toBE_of_lt (by decide)
  have isVersion : batch.data.getD 4 0 = PROTOCOL_VERSION := by
    rw [List.getD_eq_getElem?_getD, header.version]
    rfl
  have isFlag :
      (batch.data.getD 5 0 &&& FLAG_HAS_AGGREGATE_SIG != 0) =
        aggregateSignature.isSome := by
    rw [header.flags]
    cases aggregateSignature with
    | none =>
        rfl
    | some signature =>
        rw [Option.isSome_some, if_pos rfl]
        decide
  have isMessages :
      (placedFrom EXPOSURE_HEADER_SIZE
          (messages.map rawMessageBytes)).map
            (fun placed =>
              ({ parseRawMessage placed.2 with rawBytes := placed.2 } :
                DecodedExposureMessage)) =
        messages.map decodedMessage := by
    have bySnd :
        (fun placed : Nat × Bytes =>
            ({ parseRawMessage placed.2 with rawBytes := placed.2 } :
              DecodedExposureMessage)) =
          (fun raw =>
            { parseRawMessage raw with rawBytes := raw }) ∘ Prod.snd :=
      rfl
    rw [bySnd, ← List.map_map, snd_placedFrom, List.map_map]
    apply List.map_congr_left
    intro message member
    simp only [Function.comp_apply, encoded.parsed member,
      decodedMessage]
  unfold decodeExposureBatch
  dsimp only
  rw [isMagic, isVersion, isFlag, header.count, encoded.count,
    header.signature, if_neg (Nat.not_lt.mpr header.long), if_neg (not_not.mpr rfl),
    if_neg (not_not.mpr rfl), read]
  change Except.ok _ = _
  rw [isMessages]

end Bam
