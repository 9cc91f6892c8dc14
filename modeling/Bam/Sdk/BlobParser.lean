import Bam.Sdk.Exposure
import Bam.Sdk.Kzg

namespace Bam

open Bytewise

/-!
# Parsing exposure blobs

`parseBlob` finds the messages of an exposure batch in a blob and says where
their raw bytes are among its usable bytes.
-/

/-- What `parseBlob` throws. -/
inductive ParseBlobError where
  | invalidBlobSize (length : Nat)
  | invalidBatchStartOffset (offset : Nat)
  | commitment (error : KzgError)
  | invalidMagic (magic : Int)
  | unsupportedVersion (version : Option UInt8)
  | noLengthPrefix (index : Nat)
  | zeroLength (index : Nat)
  | truncated (index need available : Nat)
  | tooShort (index length : Nat)
  | countMismatch (declared parsed : Nat)
  deriving Repr, DecidableEq

structure ParseBlobOptions where
  batchStartOffset : Option Nat
  versionedHash : Option Bytes32
  deriving Repr, DecidableEq

/-- `ParsedMessage`. -/
structure ParsedMessage extends DecodedExposureMessage where
  byteOffset : Nat
  absoluteByteOffset : Nat
  byteLength : Nat
  messageIndex : Nat
  messageHash : Bytes32
  deriving Repr, DecidableEq

/-- `ParsedBlob`. -/
structure ParsedBlob where
  versionedHash : Bytes32
  messages : List ParsedMessage
  messageCount : Nat
  compressed : Bool
  batchStartOffset : Nat
  deriving Repr, DecidableEq

def parseChecks : FrameChecks ParseBlobError where
  noPrefix := .noLengthPrefix
  zeroLength := fun index => some (.zeroLength index)
  truncated := .truncated
  tooShort := .tooShort

/-- Four bytes put together by shifts, so a signed number; bytes past the end
count as zero. -/
def leadingInt32 (bytes : Bytes) : Int :=
  (BitVec.ofNat 32 (ofBE (padRight 0 4 (bytes.take 4)))).toInt

/-- The versioned hash `parseBlob` reports. -/
def KzgModule.versionedHashOf
    (kzg : KzgModule)
    (blob : Bytes) : Option Bytes32 → Except ParseBlobError Bytes32
  | some versionedHash => .ok versionedHash
  | none =>
      match kzg.commitToBlob blob with
      | .error error => .error (.commitment error)
      | .ok committed => .ok (kzg.computeVersionedHash committed.commitment)

/-- A message the loop of `parseBlob` found. -/
def parsedMessage
    (keccak256 : Bytes → Bytes32)
    (batchStartOffset messageIndex : Nat)
    (placed : Nat × Bytes) : ParsedMessage :=
  { parseRawMessage placed.2 with
    rawBytes := placed.2
    byteOffset := placed.1
    absoluteByteOffset := batchStartOffset + placed.1
    byteLength := placed.2.length
    messageIndex := messageIndex
    messageHash := keccak256 placed.2 }

/-- `parseBlob`. -/
def KzgModule.parseBlob
    (kzg : KzgModule)
    (keccak256 : Bytes → Bytes32)
    (blob : Bytes)
    (options : ParseBlobOptions) : Except ParseBlobError ParsedBlob :=
  let batchStartOffset := options.batchStartOffset.getD 0
  if blob.length ≠ BYTES_PER_BLOB then
    .error (.invalidBlobSize blob.length)
  else if USABLE_BYTES_PER_BLOB ≤ batchStartOffset then
    .error (.invalidBatchStartOffset batchStartOffset)
  else do
    let versionedHash ← kzg.versionedHashOf blob options.versionedHash
    let usableData := extractUsableBytesFromBlob blob batchStartOffset
    let magic := leadingInt32 usableData
    let messageCount :=
      ofBE (padRight 0 2 ((usableData.drop 6).take 2))
    if magic ≠ MAGIC_EXPOSURE then
      .error (.invalidMagic magic)
    else if usableData[4]? ≠ some PROTOCOL_VERSION then
      .error (.unsupportedVersion usableData[4]?)
    else do
      let frames ←
        readFrames parseChecks usableData messageCount 0
          EXPOSURE_HEADER_SIZE
      let messages :=
        frames.mapIdx (parsedMessage keccak256 batchStartOffset)
      if messages.length ≠ messageCount then
        .error (.countMismatch messageCount messages.length)
      else
        .ok {
          versionedHash := versionedHash
          messages := messages
          messageCount := messageCount
          compressed := false
          batchStartOffset := batchStartOffset }

/-- A read frame lies inside the data and holds a message of its fixed fields at
least. -/
structure FrameIn
    (data : Bytes)
    (placed : Nat × Bytes) : Prop where
  inside : placed.1 + placed.2.length ≤ data.length
  wide : RAW_MESSAGE_MIN ≤ placed.2.length
  slice : placed.2 = (data.drop placed.1).take placed.2.length

theorem readFrames_frameIn
    {ε : Type}
    {checks : FrameChecks ε}
    {data : Bytes}
    {count index offset : Nat}
    {frames : List (Nat × Bytes)}
    (read : readFrames checks data count index offset = .ok frames) :
    ∀ placed ∈ frames, FrameIn data placed := by
  induction count generalizing index offset frames with
  | zero =>
      cases read
      simp
  | succ count inductionHypothesis =>
      rw [readFrames] at read
      split at read
      · cases read
      dsimp only at read
      split at read
      · cases read
      split at read
      · cases read
      rename_i fits
      split at read
      · cases read
      rename_i wide
      split at read
      · cases read
      rename_i rest isRest
      cases read
      have room := Nat.le_of_not_lt fits
      have length :
          ((data.drop (offset + EXPOSURE_MSG_PREFIX_SIZE)).take
            (ofBE
              ((data.drop offset).take EXPOSURE_MSG_PREFIX_SIZE))).length =
            ofBE
              ((data.drop offset).take EXPOSURE_MSG_PREFIX_SIZE) := by
        rw [List.length_take, List.length_drop]
        omega
      intro placed member
      rcases List.mem_cons.mp member with rfl | inRest
      · refine ⟨?_, ?_, ?_⟩
        · rw [length]
          exact room
        · rw [length]
          exact Nat.le_of_not_lt wide
        · rw [length]
      · exact inductionHypothesis isRest placed inRest

/-- What `parseBlob` says of a message it returns. -/
structure ParsedIn
    (blob : Bytes)
    (batchStartOffset : Nat)
    (message : ParsedMessage) : Prop where
  absolute :
    message.absoluteByteOffset = batchStartOffset + message.byteOffset
  inside :
    message.absoluteByteOffset + message.byteLength ≤
      USABLE_BYTES_PER_BLOB
  wide : RAW_MESSAGE_MIN ≤ message.byteLength
  length : message.rawBytes.length = message.byteLength
  slice :
    message.rawBytes =
      ((usableBytes blob).drop message.absoluteByteOffset).take
        message.byteLength

/-- Every message a successful `parseBlob` returns is where it says. -/
theorem KzgModule.parseBlob_parsedIn
    {kzg : KzgModule}
    {keccak256 : Bytes → Bytes32}
    {blob : Bytes}
    {options : ParseBlobOptions}
    {parsed : ParsedBlob}
    (isParsed : kzg.parseBlob keccak256 blob options = .ok parsed) :
    blob.length = BYTES_PER_BLOB ∧
      parsed.batchStartOffset = options.batchStartOffset.getD 0 ∧
      ∀ message ∈ parsed.messages,
        ParsedIn blob parsed.batchStartOffset message := by
  unfold KzgModule.parseBlob at isParsed
  dsimp only at isParsed
  split at isParsed
  · cases isParsed
  rename_i rightSize
  have isBlob := not_not.mp rightSize
  split at isParsed
  · cases isParsed
  rename_i outside
  have startInside := Nat.le_of_lt (Nat.lt_of_not_le outside)
  cases isHash : kzg.versionedHashOf blob options.versionedHash with
  | error error =>
      rw [isHash] at isParsed
      cases isParsed
  | ok versionedHash =>
      rw [isHash, extractUsableBytesFromBlob_eq isBlob startInside]
        at isParsed
      change (if _ then _ else _) = _ at isParsed
      split at isParsed
      · cases isParsed
      split at isParsed
      · cases isParsed
      cases isRead :
          readFrames parseChecks
            ((usableBytes blob).drop
              (options.batchStartOffset.getD 0))
            (ofBE (padRight 0 2
              ((((usableBytes blob).drop
                (options.batchStartOffset.getD 0)).drop 6).take 2)))
            0 EXPOSURE_HEADER_SIZE with
      | error error =>
          rw [isRead] at isParsed
          cases isParsed
      | ok frames =>
          rw [isRead] at isParsed
          change (if _ then _ else _) = _ at isParsed
          split at isParsed
          · cases isParsed
          cases isParsed
          refine ⟨isBlob, rfl, ?_⟩
          intro message member
          obtain ⟨index, inFrames, rfl⟩ := List.mem_mapIdx.mp member
          have framed :=
            readFrames_frameIn isRead _ (List.getElem_mem inFrames)
          have inside := framed.inside
          rw [List.length_drop, length_usableBytes isBlob] at inside
          refine ⟨rfl, ?_, framed.wide, rfl, ?_⟩
          · simp only [parsedMessage]
            omega
          · have slice := framed.slice
            rw [List.drop_drop] at slice
            exact slice

end Bam
