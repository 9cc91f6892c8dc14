import Mathlib.Algebra.Polynomial.Eval.Defs
import Mathlib.Algebra.Polynomial.Degree.Defs
import Bam.Contracts.KZGVerifier
import Bam.Sdk.ExposureBuilder
import Bam.Sdk.ExposureRoundTrip

namespace Bam

open Bytewise
open Polynomial

/-!
# Exposing parsed messages

The openings of a message are made for the field elements at its absolute offset
and with the field-element index as the point, while the verifier is called with
the offset relative to the batch and takes every value for one at its point.
What has to hold of a blob for the two to meet is stated here, against the
polynomial of the blob.
-/

/-- The polynomial of a blob: its value at the bit-reversed roots of unity are
the field elements. -/
structure BlobPolynomial (blob : Bytes) where
  polynomial : ScalarField[X]
  lowDegree : polynomial.degree < FIELD_ELEMENTS_PER_BLOB
  interpolates :
    ∀ index < FIELD_ELEMENTS_PER_BLOB,
      polynomial.eval (rootOfUnity ^ bitReverse index) =
        (blobValue blob index : ScalarField)

/-- What a proof has to be for the precompile: the opening at its point. -/
structure BlobPolynomial.Opens
    {blob : Bytes}
    (polynomial : BlobPolynomial blob)
    (opening : ScalarField → G1Point)
    (proof : KZGProof) : Prop where
  pointReduced : proof.z < BLS_MODULUS
  valueReduced : proof.y < BLS_MODULUS
  value :
    polynomial.polynomial.eval (proof.z : ScalarField) =
      (proof.y : ScalarField)
  isOpening : proof.proof = opening proof.z

/-- The commitment library and the precompile on one blob: its commitment, the
opening of its polynomial at every point, and the point the proof of the blob is
an opening at. -/
structure BlobOpenings
    (kzg : KzgModule)
    (machine : KZGVerifier.Machine)
    (blob : Bytes) extends BlobPolynomial blob where
  commitment : G1Point
  opening : ScalarField → G1Point
  challenge : ScalarField
  canonical : CanonicalBlob blob
  commits : kzg.blobToKzgCommitment blob = some commitment
  proves :
    kzg.computeBlobKzgProof blob commitment = some (opening challenge)
  accepts :
    ∀ proof : KZGProof,
      proof.commitment = commitment →
      toBlobPolynomial.Opens opening proof →
        KZGVerifier.Accepted machine
          (kzg.computeVersionedHash commitment) proof
  rejects :
    ∀ proof : KZGProof,
      proof.commitment = commitment →
      proof.z < 2 ^ 256 →
      proof.y < 2 ^ 256 →
      ¬toBlobPolynomial.Opens opening proof →
        machine.pointEvaluation
            (KZGVerifier.precompileInput
              (kzg.computeVersionedHash commitment) proof) =
          none

/-- The second step of `BLSExposer.expose`: its parameters have no batch start,
and the offset it passes on is the one relative to the batch. -/
def verifyExposure
    (machine : KZGVerifier.Machine)
    (params : ExposureParams) : Except KZGVerifier.Error Bytes :=
  KZGVerifier.verifyAndExtract machine params.versionedHash
    params.kzgProofs params.byteOffset params.byteLength

/-- What a blob has to satisfy for a message in it to be exposed. -/
structure BlobOpenings.Exposable
    {kzg : KzgModule}
    {machine : KZGVerifier.Machine}
    {blob : Bytes}
    (openings : BlobOpenings kzg machine blob)
    (message : ParsedMessage) : Prop where
  sameElement :
    message.byteOffset / 31 = message.absoluteByteOffset / 31
  sameBytes :
    ((usableBytes blob).drop message.byteOffset).take
        message.byteLength =
      ((usableBytes blob).drop message.absoluteByteOffset).take
        message.byteLength
  openedAtIndex :
    ∀ index,
      message.byteOffset / 31 ≤ index →
      index <
          message.byteOffset / 31 +
            touchedFEs message.byteOffset message.byteLength →
        openings.polynomial.eval (index : ScalarField) =
            (blobValue blob index : ScalarField) ∧
          openings.opening openings.challenge = openings.opening index

section Openings

variable
  {kzg : KzgModule}
  {machine : KZGVerifier.Machine}
  {blob : Bytes}

/-- The proof the builder generates for a field element. -/
def BlobOpenings.proofAt
    (openings : BlobOpenings kzg machine blob)
    (index : Nat) : KZGProof :=
  Bam.proofAt blob openings.commitment
    (openings.opening openings.challenge) index

/-- The generated proof is an opening exactly where the polynomial takes the
value of the field element at its index and the proof of the blob happens to be
the opening there. -/
theorem BlobOpenings.opens_proofAt_iff
    (openings : BlobOpenings kzg machine blob)
    {index : Nat}
    (inside : index < FIELD_ELEMENTS_PER_BLOB) :
    openings.Opens openings.opening (openings.proofAt index) ↔
      openings.polynomial.eval (index : ScalarField) =
          (blobValue blob index : ScalarField) ∧
        openings.opening openings.challenge = openings.opening index := by
  constructor
  · intro opens
    exact ⟨opens.value, opens.isOpening⟩
  · rintro ⟨value, isOpening⟩
    have reduced :=
      openings.canonical.reduced _
        (List.mem_of_getElem? (getElem?_fieldElements inside))
    have small : FIELD_ELEMENTS_PER_BLOB < BLS_MODULUS := by
      decide
    exact ⟨inside.trans small, reduced, value, isOpening⟩

theorem BlobOpenings.accepted_proofAt_iff
    (openings : BlobOpenings kzg machine blob)
    {index : Nat}
    (inside : index < FIELD_ELEMENTS_PER_BLOB) :
    KZGVerifier.Accepted machine
        (kzg.computeVersionedHash openings.commitment)
        (openings.proofAt index) ↔
      openings.polynomial.eval (index : ScalarField) =
          (blobValue blob index : ScalarField) ∧
        openings.opening openings.challenge = openings.opening index := by
  rw [← openings.opens_proofAt_iff inside]
  constructor
  · intro accepted
    by_contra closed
    have small : FIELD_ELEMENTS_PER_BLOB < 2 ^ 256 := by
      decide
    have rejected :=
      openings.rejects (openings.proofAt index) rfl (inside.trans small)
        (blobValue_lt blob index) closed
    rw [KZGVerifier.Accepted, rejected] at accepted
    cases accepted
  · exact openings.accepts _ rfl

theorem BlobOpenings.definite_proofAt
    (openings : BlobOpenings kzg machine blob)
    {index : Nat}
    (inside : index < FIELD_ELEMENTS_PER_BLOB) :
    KZGVerifier.Definite machine
      (kzg.computeVersionedHash openings.commitment)
      (openings.proofAt index) := by
  by_cases opens : openings.Opens openings.opening (openings.proofAt index)
  · exact .inl (openings.accepts _ rfl opens)
  · have small : FIELD_ELEMENTS_PER_BLOB < 2 ^ 256 := by
      decide
    exact .inr
      (openings.rejects _ rfl (inside.trans small)
        (blobValue_lt blob index) opens)

/-- The parameters built for a parsed message. -/
theorem BlobOpenings.buildExposureParams_ok
    (openings : BlobOpenings kzg machine blob)
    {batchStartOffset : Nat}
    {message : ParsedMessage}
    (parsedIn : ParsedIn blob batchStartOffset message)
    (blsSignature : Bytes)
    (versionedHash contentTag : Bytes32)
    (givenStart : Option Int) :
    ∃ params,
      kzg.buildExposureParams blob message blsSignature versionedHash
          contentTag givenStart = .ok params ∧
      params.versionedHash = versionedHash ∧
      params.kzgProofs =
        (List.range'
          (message.absoluteByteOffset / USABLE_BYTES_PER_FIELD_ELEMENT)
          (touchedFEs message.absoluteByteOffset
            message.byteLength)).map openings.proofAt ∧
      params.byteOffset = message.byteOffset ∧
      params.byteLength = message.byteLength := by
  have committed :
      kzg.loadTrustedSetup.commitToBlob blob =
        .ok {
          blob := blob
          commitment := openings.commitment
          versionedHash :=
            kzg.computeVersionedHash openings.commitment } := by
    change (if _ then _ else _) = _
    rw [if_neg (not_not.mpr openings.canonical.size)]
    simp only [KzgModule.loadTrustedSetup, openings.commits]
    rfl
  have wide := parsedIn.wide
  have nonempty : 0 < message.byteLength := by
    simp only [RAW_MESSAGE_MIN] at wide
    omega
  have proves :
      kzg.loadTrustedSetup.computeBlobKzgProof blob
          openings.commitment =
        some (openings.opening openings.challenge) :=
    openings.proves
  have generated :=
    KzgModule.generateProofsForByteRange_ok
      (show kzg.loadTrustedSetup.setupLoaded = true from rfl) proves
      nonempty parsedIn.inside
  refine ⟨{
    versionedHash := versionedHash
    kzgProofs :=
      (List.range'
        (message.absoluteByteOffset / USABLE_BYTES_PER_FIELD_ELEMENT)
        (touchedFEs message.absoluteByteOffset
          message.byteLength)).map openings.proofAt
    batchStartOffset :=
      givenStart.getD
        ((message.absoluteByteOffset : Int) - message.byteOffset)
    byteOffset := message.byteOffset
    byteLength := message.byteLength
    messageBytes := message.rawBytes
    blsSignature := blsSignature
    registrationProof := []
    contentTag := contentTag }, ?_, rfl, rfl, rfl, rfl⟩
  rw [KzgModule.buildExposureParams]
  dsimp only
  rw [committed, ExceptLoops.ok_bind]
  dsimp only [getMessagePosition]
  rw [generated, ExceptLoops.ok_bind]
  rfl

/-- The field elements the verifier asks for from an offset on. -/
theorem BlobOpenings.accepted_range_iff
    (openings : BlobOpenings kzg machine blob)
    {startFE count : Nat}
    (inside : startFE + count ≤ FIELD_ELEMENTS_PER_BLOB) :
    (∀ proof ∈ (List.range' startFE count).map openings.proofAt,
        KZGVerifier.Accepted machine
          (kzg.computeVersionedHash openings.commitment) proof) ↔
      ∀ index, startFE ≤ index → index < startFE + count →
        openings.polynomial.eval (index : ScalarField) =
            (blobValue blob index : ScalarField) ∧
          openings.opening openings.challenge =
            openings.opening index := by
  constructor
  · intro accepted index reached small
    apply (openings.accepted_proofAt_iff (by omega)).mp
    apply accepted
    apply List.mem_map_of_mem
    rw [List.mem_range'_1]
    exact ⟨reached, small⟩
  · intro opened proof member
    obtain ⟨index, inRange, rfl⟩ := List.mem_map.mp member
    rw [List.mem_range'_1] at inRange
    apply (openings.accepted_proofAt_iff (by omega)).mpr
    exact opened index inRange.1 inRange.2

/-- What the verifier returns for the openings of a range at another offset. -/
theorem BlobOpenings.verifyAndExtract_iff
    (openings : BlobOpenings kzg machine blob)
    {byteOffset absoluteByteOffset byteLength : Nat}
    (nonempty : 0 < byteLength)
    (behind : byteOffset ≤ absoluteByteOffset)
    (inside : absoluteByteOffset + byteLength ≤ USABLE_BYTES_PER_BLOB)
    {extracted : Bytes} :
    KZGVerifier.verifyAndExtract machine
        (kzg.computeVersionedHash openings.commitment)
        ((List.range' (absoluteByteOffset / 31)
          (touchedFEs absoluteByteOffset byteLength)).map
            openings.proofAt)
        byteOffset byteLength = .ok extracted ↔
      byteOffset / 31 = absoluteByteOffset / 31 ∧
        (∀ index,
          byteOffset / 31 ≤ index →
          index < byteOffset / 31 + touchedFEs byteOffset byteLength →
            openings.polynomial.eval (index : ScalarField) =
                (blobValue blob index : ScalarField) ∧
              openings.opening openings.challenge =
                openings.opening index) ∧
        extracted =
          ((usableBytes blob).drop byteOffset).take byteLength := by
  have isBlob := openings.canonical.size
  have relativeInside :
      byteOffset + byteLength ≤ USABLE_BYTES_PER_BLOB := by
    omega
  have absoluteFits := touchedFEs_inside nonempty inside
  have relativeFits := touchedFEs_inside nonempty relativeInside
  have enough :=
    @touchedFEs_enough byteOffset byteLength nonempty
  have positive : 0 < touchedFEs byteOffset byteLength :=
    Nat.succ_pos _
  have absolutePositive : 0 < touchedFEs absoluteByteOffset byteLength :=
    Nat.succ_pos _
  have member :
      ∀ proof ∈ (List.range' (absoluteByteOffset / 31)
          (touchedFEs absoluteByteOffset byteLength)).map
            openings.proofAt,
        ∃ index, index < FIELD_ELEMENTS_PER_BLOB ∧
          openings.proofAt index = proof := by
    intro proof isProof
    obtain ⟨index, inRange, same⟩ := List.mem_map.mp isProof
    rw [List.mem_range'_1] at inRange
    exact ⟨index, lt_of_lt_of_le inRange.2 absoluteFits, same⟩
  have returned :=
    @KZGVerifier.verifyAndExtract_eq_ok_iff machine
      (kzg.computeVersionedHash openings.commitment)
      ((List.range' (absoluteByteOffset / 31)
        (touchedFEs absoluteByteOffset byteLength)).map
          openings.proofAt)
      (by
        intro proof isProof
        obtain ⟨index, small, rfl⟩ := member proof isProof
        exact small)
      (by
        intro proof isProof
        obtain ⟨index, small, rfl⟩ := member proof isProof
        exact openings.definite_proofAt small)
      byteOffset byteLength nonempty relativeInside extracted
  rw [returned, List.length_map, List.length_range']
  have points :
      ∀ startFE count,
        ((List.range' startFE count).map openings.proofAt).map
            (fun proof => proof.z) =
          List.range' startFE count := by
    intro startFE count
    rw [List.map_map]
    exact List.map_id _
  have values :
      ∀ startFE count,
        ((List.range' startFE count).map openings.proofAt).map
            (fun proof => proof.y) =
          KZGVerifier.fieldValues blob startFE count := by
    intro startFE count
    rw [List.map_map]
    rfl
  constructor
  · rintro ⟨fits, accepted, inOrder, isExtracted⟩
    rw [← List.map_take, List.take_range'_of_length_ge fits]
      at accepted inOrder isExtracted
    rw [points] at inOrder
    have sameElement : absoluteByteOffset / 31 = byteOffset / 31 := by
      have heads := congrArg List.head? inOrder
      rw [List.head?_range', List.head?_range',
        if_neg (Nat.ne_of_gt positive),
        if_neg (Nat.ne_of_gt positive)] at heads
      exact Option.some.inj heads
    rw [sameElement] at accepted isExtracted
    refine ⟨sameElement.symm, ?_, ?_⟩
    · exact (openings.accepted_range_iff relativeFits).mp accepted
    · rw [isExtracted, values]
      exact KZGVerifier.extractBytes_fieldValues isBlob enough
        relativeInside relativeFits
  · rintro ⟨sameElement, opened, rfl⟩
    have fits :
        touchedFEs byteOffset byteLength ≤
          touchedFEs absoluteByteOffset byteLength := by
      have sameStart :
          byteOffset / USABLE_BYTES_PER_FIELD_ELEMENT =
            absoluteByteOffset / USABLE_BYTES_PER_FIELD_ELEMENT :=
        sameElement
      simp only [touchedFEs, sameStart]
      apply Nat.add_le_add_right
      apply Nat.sub_le_sub_right
      apply Nat.div_le_div_right
      omega
    rw [← List.map_take, List.take_range'_of_length_ge fits,
      ← sameElement]
    refine ⟨fits, ?_, points _ _, ?_⟩
    · exact (openings.accepted_range_iff relativeFits).mpr opened
    · rw [values]
      exact (KZGVerifier.extractBytes_fieldValues isBlob enough
        relativeInside relativeFits).symm

/-- The parameters built for a message placed in a blob are accepted, and give
its raw bytes, exactly where it can be exposed. -/
theorem BlobOpenings.exposed_iff
    (openings : BlobOpenings kzg machine blob)
    {batchStartOffset : Nat}
    {message : ParsedMessage}
    (parsedIn : ParsedIn blob batchStartOffset message)
    (blsSignature : Bytes)
    (contentTag : Bytes32)
    (givenStart : Option Int) :
    (∃ params,
      kzg.buildExposureParams blob message blsSignature
          (kzg.computeVersionedHash openings.commitment) contentTag
          givenStart = .ok params ∧
      verifyExposure machine (encodeExposureParams params) =
        .ok message.rawBytes) ↔
      openings.Exposable message := by
  have wide := parsedIn.wide
  have nonempty : 0 < message.byteLength := by
    simp only [RAW_MESSAGE_MIN] at wide
    omega
  have behind : message.byteOffset ≤ message.absoluteByteOffset := by
    rw [parsedIn.absolute]
    exact Nat.le_add_left _ _
  obtain ⟨params, built, isHash, isProofs, isOffset, isLength⟩ :=
    openings.buildExposureParams_ok parsedIn blsSignature
      (kzg.computeVersionedHash openings.commitment) contentTag
      givenStart
  have verified :
      verifyExposure machine (encodeExposureParams params) =
          .ok message.rawBytes ↔
        openings.Exposable message := by
    rw [encodeExposureParams_eq, verifyExposure, isHash, isProofs,
      isOffset, isLength, parsedIn.slice]
    refine (openings.verifyAndExtract_iff nonempty behind
      parsedIn.inside).trans ?_
    constructor
    · rintro ⟨sameElement, opened, sameBytes⟩
      exact ⟨sameElement, sameBytes.symm, opened⟩
    · rintro ⟨sameElement, sameBytes, opened⟩
      exact ⟨sameElement, opened, sameBytes.symm⟩
  constructor
  · rintro ⟨other, isOther, accepted⟩
    rw [built] at isOther
    cases isOther
    exact verified.mp accepted
  · intro exposable
    exact ⟨params, built, verified.mpr exposable⟩

/-- The parameters built for a message `parseBlob` returns are accepted, and
give its raw bytes, exactly where the batch does not move the message to other
field elements or other bytes, the polynomial takes the value of every field
element the message touches at the index of that field element, and the proof of
the blob is the opening at each of them. -/
theorem exposure_accepted_iff
    (openings : BlobOpenings kzg machine blob)
    {keccak256 : Bytes → Bytes32}
    {options : ParseBlobOptions}
    {parsed : ParsedBlob}
    (isParsed : kzg.parseBlob keccak256 blob options = .ok parsed)
    {message : ParsedMessage}
    (member : message ∈ parsed.messages)
    (blsSignature : Bytes)
    (contentTag : Bytes32)
    (givenStart : Option Int) :
    (∃ params,
      kzg.buildExposureParams blob message blsSignature
          (kzg.computeVersionedHash openings.commitment) contentTag
          givenStart = .ok params ∧
      verifyExposure machine (encodeExposureParams params) =
        .ok message.rawBytes) ↔
      openings.Exposable message := by
  obtain ⟨-, -, placed⟩ := KzgModule.parseBlob_parsedIn isParsed
  exact openings.exposed_iff (placed message member) blsSignature
    contentTag givenStart

end Openings

end Bam
