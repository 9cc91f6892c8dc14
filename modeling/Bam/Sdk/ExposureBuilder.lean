import Bam.Sdk.BlobParser

namespace Bam

open Bytewise

/-!
# Building exposure transactions

`buildExposureParams` puts together what `BLSExposer.expose` is called with: the
openings of the field elements a message touches, and where the message is.
-/

structure MessagePosition where
  byteOffset : Nat
  absoluteByteOffset : Nat
  byteLength : Nat
  fieldElementStart : Nat
  fieldElementEnd : Int
  fieldElementCount : Int
  deriving Repr, DecidableEq

/-- `getMessagePosition`. -/
def getMessagePosition (message : ParsedMessage) : MessagePosition :=
  let feStart :=
    message.absoluteByteOffset / USABLE_BYTES_PER_FIELD_ELEMENT
  let feEnd : Int :=
    ((message.absoluteByteOffset : Int) + message.byteLength - 1) /
      USABLE_BYTES_PER_FIELD_ELEMENT
  { byteOffset := message.byteOffset
    absoluteByteOffset := message.absoluteByteOffset
    byteLength := message.byteLength
    fieldElementStart := feStart
    fieldElementEnd := feEnd
    fieldElementCount := feEnd - feStart + 1 }

/-- `ExposureParams` of the SDK. -/
structure ExposureParams where
  versionedHash : Bytes32
  kzgProofs : List KZGProof
  batchStartOffset : Int
  byteOffset : Nat
  byteLength : Nat
  messageBytes : Bytes
  blsSignature : Bytes
  registrationProof : Bytes
  contentTag : Bytes32
  deriving Repr, DecidableEq

/-- `buildExposureParams`. -/
def KzgModule.buildExposureParams
    (kzg : KzgModule)
    (blob : Bytes)
    (message : ParsedMessage)
    (blsSignature : Bytes)
    (versionedHash contentTag : Bytes32)
    (batchStartOffset : Option Int) : Except KzgError ExposureParams := do
  let loaded := kzg.loadTrustedSetup
  let committed ← loaded.commitToBlob blob
  let position := getMessagePosition message
  let offset :=
    batchStartOffset.getD
      ((message.absoluteByteOffset : Int) - message.byteOffset)
  let proofBatch ←
    loaded.generateProofsForByteRange blob committed.commitment
      position.absoluteByteOffset position.byteLength
  .ok {
    versionedHash := versionedHash
    kzgProofs := proofBatch.proofs
    batchStartOffset := offset
    byteOffset := position.byteOffset
    byteLength := position.byteLength
    messageBytes := message.rawBytes
    blsSignature := blsSignature
    registrationProof := []
    contentTag := contentTag }

/-- `encodeExposureParams`: numbers become bigints, everything else is passed
on. -/
def encodeExposureParams (params : ExposureParams) : ExposureParams where
  versionedHash := params.versionedHash
  kzgProofs :=
    params.kzgProofs.map fun proof =>
      { z := proof.z
        y := proof.y
        commitment := proof.commitment
        proof := proof.proof }
  batchStartOffset := params.batchStartOffset
  byteOffset := params.byteOffset
  byteLength := params.byteLength
  messageBytes := params.messageBytes
  blsSignature := params.blsSignature
  registrationProof := params.registrationProof
  contentTag := params.contentTag

@[simp] theorem encodeExposureParams_eq
    (params : ExposureParams) :
    encodeExposureParams params = params := by
  cases params
  simp [encodeExposureParams]

/-- The proof generated for a field element. -/
def proofAt
    (blob : Bytes)
    (commitment blobProof : G1Point)
    (index : Nat) : KZGProof where
  z := index
  y := ofBE (block BYTES_PER_FIELD_ELEMENT blob index)
  commitment := commitment
  proof := blobProof

theorem KzgModule.generateProofForFieldElement_ok
    {kzg : KzgModule}
    {blob : Bytes}
    {commitment blobProof : G1Point}
    (loaded : kzg.setupLoaded = true)
    (proves :
      kzg.computeBlobKzgProof blob commitment = some blobProof)
    {index : Nat}
    (inside : index < FIELD_ELEMENTS_PER_BLOB) :
    kzg.generateProofForFieldElement blob commitment index =
      .ok (proofAt blob commitment blobProof index) := by
  have setup : kzg.ensureSetupLoaded = .ok () :=
    if_pos loaded
  rw [KzgModule.generateProofForFieldElement, setup,
    ExceptLoops.ok_bind, if_neg (Nat.not_le.mpr inside), proves]
  rfl

/-- One proof for every field element the range touches, in order. -/
theorem KzgModule.generateProofsForByteRange_ok
    {kzg : KzgModule}
    {blob : Bytes}
    {commitment blobProof : G1Point}
    (loaded : kzg.setupLoaded = true)
    (proves :
      kzg.computeBlobKzgProof blob commitment = some blobProof)
    {byteOffset byteLength : Nat}
    (nonempty : 0 < byteLength)
    (inside : byteOffset + byteLength ≤ USABLE_BYTES_PER_BLOB) :
    kzg.generateProofsForByteRange blob commitment byteOffset
        byteLength =
      .ok {
        versionedHash := kzg.computeVersionedHash commitment
        proofs :=
          (List.range' (byteOffset / USABLE_BYTES_PER_FIELD_ELEMENT)
            (touchedFEs byteOffset byteLength)).map
              (proofAt blob commitment blobProof)
        byteOffset := byteOffset
        byteLength := byteLength } := by
  have setup : kzg.ensureSetupLoaded = .ok () :=
    if_pos loaded
  have fits := touchedFEs_inside nonempty inside
  have count :
      (((byteOffset : Int) + byteLength - 1) /
            USABLE_BYTES_PER_FIELD_ELEMENT -
          (byteOffset / USABLE_BYTES_PER_FIELD_ELEMENT : Nat) +
          1).toNat =
        touchedFEs byteOffset byteLength := by
    simp only [touchedFEs, USABLE_BYTES_PER_FIELD_ELEMENT]
    omega
  have generated :
      (List.range' (byteOffset / USABLE_BYTES_PER_FIELD_ELEMENT)
          (touchedFEs byteOffset byteLength)).mapM
            (fun index =>
              kzg.generateProofForFieldElement blob commitment index) =
        .ok ((List.range'
          (byteOffset / USABLE_BYTES_PER_FIELD_ELEMENT)
          (touchedFEs byteOffset byteLength)).map
            (proofAt blob commitment blobProof)) := by
    apply ExceptLoops.mapM_eq_ok_iff.mpr
    rw [List.forall₂_map_right_iff, List.forall₂_same]
    intro index member
    apply KzgModule.generateProofForFieldElement_ok loaded proves
    rw [List.mem_range'_1] at member
    omega
  rw [KzgModule.generateProofsForByteRange, setup, ExceptLoops.ok_bind,
    calculateFieldElements, if_neg (Nat.not_lt.mpr inside),
    ExceptLoops.ok_bind]
  dsimp only
  rw [count, generated, ExceptLoops.ok_bind]

end Bam
