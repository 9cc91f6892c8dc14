import Bam.Sdk.Blob

namespace Bam

open Bytewise

/-!
# Bytes and proofs out of a blob

`createBlob` fills the usable bytes of a blob from its start.  `extractBytes`
reads a range of usable bytes back, one field element after the other, and
`generateProofsForByteRange` gives one opening for every field element such a
range touches.  The commitment library and the hash function are parameters.
-/

/-- What a field element of 32 bytes is taken modulo. -/
def BLS_MODULUS : Nat :=
  52435875175126190479447740508185965837690552500527637822603658699938581184513

/-- The bytes of a G1 point. -/
abbrev G1Point := Bytes

/-- The commitment library, the hash function and whether the trusted setup has
been loaded; `none` is a call that throws. -/
structure KzgModule where
  setupLoaded : Bool
  blobToKzgCommitment : Bytes → Option G1Point
  computeBlobKzgProof : Bytes → G1Point → Option G1Point
  sha256 : Bytes → Bytes32

/-- `loadTrustedSetup`. -/
def KzgModule.loadTrustedSetup (kzg : KzgModule) : KzgModule :=
  { kzg with setupLoaded := true }

inductive KzgError where
  | setupNotLoaded
  | invalidBlobSize (length : Nat)
  | dataTooLarge (length max : Nat)
  | rangeExceedsCapacity (stop : Nat)
  | extractExceedsCapacity
  | indexOutOfRange (index : Nat)
  | library
  | assembly (error : BlobError)
  deriving Repr, DecidableEq

/-- A call of the commitment library. -/
def fromLibrary : Option G1Point → Except KzgError G1Point
  | none => .error .library
  | some point => .ok point

/-- `ensureSetupLoaded`. -/
def KzgModule.ensureSetupLoaded
    (kzg : KzgModule) : Except KzgError Unit :=
  if kzg.setupLoaded then .ok () else .error .setupNotLoaded

/-- `computeVersionedHash`: the first byte of the hash is replaced by the
version. -/
def KzgModule.computeVersionedHash
    (kzg : KzgModule)
    (commitment : G1Point) : Bytes32 :=
  BitVec.ofNat 256
    (0x01 * 2 ^ 248 + (kzg.sha256 commitment).toNat % 2 ^ 248)

structure BlobCommitment where
  blob : Bytes
  commitment : G1Point
  versionedHash : Bytes32
  deriving Repr, DecidableEq

/-- `BYTES_PER_BLOB`. -/
def BYTES_PER_BLOB : Nat := 131072

/-- `createBlob`. -/
def createBlob (data : Bytes) : Except KzgError Bytes :=
  if USABLE_BYTES_PER_BLOB < data.length then
    .error (.dataTooLarge data.length USABLE_BYTES_PER_BLOB)
  else
    match assembleMultiSegmentBlob
        [{ contentTag := 0, payload := data }] with
    | .error error => .error (.assembly error)
    | .ok assembled => .ok assembled.blob

/-- `commitToBlob`. -/
def KzgModule.commitToBlob
    (kzg : KzgModule)
    (blob : Bytes) : Except KzgError BlobCommitment := do
  kzg.ensureSetupLoaded
  if blob.length ≠ BYTES_PER_BLOB then
    .error (.invalidBlobSize blob.length)
  else
    let commitment ← fromLibrary (kzg.blobToKzgCommitment blob)
    .ok {
      blob := blob
      commitment := commitment
      versionedHash := kzg.computeVersionedHash commitment }

/-- The field elements of a byte range, `stop` included; `stop` is below
`start` where the range is empty. -/
structure FieldElementRange where
  start : Nat
  stop : Int
  count : Int
  deriving Repr, DecidableEq

/-- `calculateFieldElements`. -/
def calculateFieldElements
    (byteOffset byteLength : Nat) : Except KzgError FieldElementRange :=
  if USABLE_BYTES_PER_BLOB < byteOffset + byteLength then
    .error (.rangeExceedsCapacity (byteOffset + byteLength))
  else
    let start := byteOffset / USABLE_BYTES_PER_FIELD_ELEMENT
    let stop : Int :=
      ((byteOffset : Int) + byteLength - 1) /
        USABLE_BYTES_PER_FIELD_ELEMENT
    .ok { start := start, stop := stop, count := stop - start + 1 }

structure KZGProof where
  z : Nat
  y : Nat
  commitment : G1Point
  proof : G1Point
  deriving Repr, DecidableEq

/-- `generateProofForFieldElement`: the point is the index itself, and the proof
is the one of the blob. -/
def KzgModule.generateProofForFieldElement
    (kzg : KzgModule)
    (blob : Bytes)
    (commitment : G1Point)
    (fieldElementIndex : Nat) : Except KzgError KZGProof := do
  kzg.ensureSetupLoaded
  if FIELD_ELEMENTS_PER_BLOB ≤ fieldElementIndex then
    .error (.indexOutOfRange fieldElementIndex)
  else
    let feOffset := fieldElementIndex * BYTES_PER_FIELD_ELEMENT
    let feBytes := (blob.drop feOffset).take BYTES_PER_FIELD_ELEMENT
    let proof ← fromLibrary (kzg.computeBlobKzgProof blob commitment)
    .ok {
      z := fieldElementIndex
      y := ofBE feBytes
      commitment := commitment
      proof := proof }

structure KZGProofBatch where
  versionedHash : Bytes32
  proofs : List KZGProof
  byteOffset : Nat
  byteLength : Nat
  deriving Repr, DecidableEq

/-- `generateProofsForByteRange`. -/
def KzgModule.generateProofsForByteRange
    (kzg : KzgModule)
    (blob : Bytes)
    (commitment : G1Point)
    (byteOffset byteLength : Nat) : Except KzgError KZGProofBatch := do
  kzg.ensureSetupLoaded
  let range ← calculateFieldElements byteOffset byteLength
  let proofs ←
    (List.range' range.start range.count.toNat).mapM fun index =>
      kzg.generateProofForFieldElement blob commitment index
  .ok {
    versionedHash := kzg.computeVersionedHash commitment
    proofs := proofs
    byteOffset := byteOffset
    byteLength := byteLength }

/-- `size` bytes of a field element, from its usable byte `skipped` on.  Bytes
past the end of the blob leave zeros in the result. -/
def readFieldElement
    (blob : Bytes)
    (fe skipped size : Nat) : Bytes :=
  padRight 0x00 size
    ((blob.drop (fe * BYTES_PER_FIELD_ELEMENT + 1 + skipped)).take size)

/-- `extractBytes`. -/
def extractBytes
    (blob : Bytes)
    (byteOffset byteLength : Nat) : Except KzgError Bytes :=
  if USABLE_BYTES_PER_BLOB < byteOffset + byteLength then
    .error .extractExceedsCapacity
  else do
    let range ← calculateFieldElements byteOffset byteLength
    .ok (padRight 0x00 byteLength
      (copyBlocks USABLE_BYTES_PER_FIELD_ELEMENT (readFieldElement blob)
        range.count.toNat range.start
        (byteOffset % USABLE_BYTES_PER_FIELD_ELEMENT) byteLength))

/-- `extractUsableBytesFromBlob`. -/
def extractUsableBytesFromBlob
    (blob : Bytes)
    (startOffset : Nat) : Bytes :=
  let maxUsable := USABLE_BYTES_PER_BLOB - startOffset
  let startFE := startOffset / USABLE_BYTES_PER_FIELD_ELEMENT
  padRight 0x00 maxUsable
    (copyBlocks USABLE_BYTES_PER_FIELD_ELEMENT (readFieldElement blob)
      (FIELD_ELEMENTS_PER_BLOB - startFE) startFE
      (startOffset % USABLE_BYTES_PER_FIELD_ELEMENT) maxUsable)

/-- The field elements of a blob. -/
def fieldElements (blob : Bytes) : List Bytes :=
  (List.range FIELD_ELEMENTS_PER_BLOB).map
    (block BYTES_PER_FIELD_ELEMENT blob)

/-- The bytes of a blob that carry payload. -/
def usableBytes (blob : Bytes) : Bytes :=
  (fieldElements blob).flatMap (·.drop 1)

theorem capacity_eq :
    USABLE_BYTES_PER_BLOB =
      FIELD_ELEMENTS_PER_BLOB * USABLE_BYTES_PER_FIELD_ELEMENT :=
  rfl

theorem blobSize_eq :
    BYTES_PER_BLOB = FIELD_ELEMENTS_PER_BLOB * BYTES_PER_FIELD_ELEMENT :=
  rfl

@[simp] theorem length_fieldElements
    (blob : Bytes) :
    (fieldElements blob).length = FIELD_ELEMENTS_PER_BLOB := by
  simp [fieldElements]

theorem getElem?_fieldElements
    {blob : Bytes}
    {index : Nat}
    (inside : index < FIELD_ELEMENTS_PER_BLOB) :
    (fieldElements blob)[index]? =
      some (block BYTES_PER_FIELD_ELEMENT blob index) := by
  simp [fieldElements, inside]

/-- The field elements of a blob of the right size are whole. -/
theorem fieldElements_wide
    {blob : Bytes}
    (isBlob : blob.length = BYTES_PER_BLOB) :
    ∀ fe ∈ fieldElements blob, fe.length = BYTES_PER_FIELD_ELEMENT := by
  intro fe member
  obtain ⟨index, inRange, rfl⟩ := List.mem_map.mp member
  have inside : index + 1 ≤ FIELD_ELEMENTS_PER_BLOB :=
    List.mem_range.mp inRange
  have room := Nat.mul_le_mul_right BYTES_PER_FIELD_ELEMENT inside
  rw [← blobSize_eq, ← isBlob, Nat.succ_mul] at room
  rw [block, List.length_take, List.length_drop]
  omega

/-- The usable parts of the field elements. -/
def usableBlocks (blob : Bytes) : List Bytes :=
  (fieldElements blob).map (·.drop 1)

theorem usableBytes_eq_flatten
    (blob : Bytes) :
    usableBytes blob = (usableBlocks blob).flatten :=
  rfl

theorem usableBlocks_wide
    {blob : Bytes}
    (isBlob : blob.length = BYTES_PER_BLOB) :
    ∀ part ∈ usableBlocks blob,
      part.length = USABLE_BYTES_PER_FIELD_ELEMENT := by
  intro part member
  obtain ⟨fe, isElement, rfl⟩ := List.mem_map.mp member
  rw [List.length_drop, fieldElements_wide isBlob fe isElement]
  rfl

@[simp] theorem length_usableBlocks
    (blob : Bytes) :
    (usableBlocks blob).length = FIELD_ELEMENTS_PER_BLOB := by
  simp [usableBlocks]

theorem length_usableBytes
    {blob : Bytes}
    (isBlob : blob.length = BYTES_PER_BLOB) :
    (usableBytes blob).length = USABLE_BYTES_PER_BLOB := by
  rw [usableBytes_eq_flatten, capacity_eq, ← length_usableBlocks blob]
  exact length_flatten_of_uniform (usableBlocks_wide isBlob)

/-- A read of a field element is a slice of its usable part. -/
theorem readFieldElement_eq
    {blob : Bytes}
    (isBlob : blob.length = BYTES_PER_BLOB)
    (index : Nat)
    (part : Bytes)
    (isPart : (usableBlocks blob)[index]? = some part)
    (skipped size : Nat)
    (fits : skipped + size ≤ USABLE_BYTES_PER_FIELD_ELEMENT) :
    readFieldElement blob index skipped size =
      (part.drop skipped).take size := by
  have inside : index < FIELD_ELEMENTS_PER_BLOB := by
    obtain ⟨small, -⟩ := List.getElem?_eq_some_iff.mp isPart
    simpa using small
  have isBlock :
      part = (block BYTES_PER_FIELD_ELEMENT blob index).drop 1 := by
    have mapped := isPart
    rw [usableBlocks, List.getElem?_map, getElem?_fieldElements inside]
      at mapped
    exact (Option.some.inj mapped).symm
  have room :
      (index + 1) * BYTES_PER_FIELD_ELEMENT ≤ blob.length := by
    rw [isBlob, blobSize_eq]
    exact Nat.mul_le_mul_right _ inside
  rw [Nat.succ_mul] at room
  have width :
      USABLE_BYTES_PER_FIELD_ELEMENT + 1 = BYTES_PER_FIELD_ELEMENT :=
    rfl
  rw [readFieldElement, padRight_slice_of_le 0x00 (by omega), isBlock,
    block, List.drop_take, List.drop_take, List.drop_drop, List.drop_drop,
    List.take_take, Nat.min_eq_left (by omega), Nat.add_assoc]

/-- Copying field elements from a byte of a blob on is a slice of its usable
bytes. -/
theorem copyBlocks_usableBytes
    {blob : Bytes}
    (isBlob : blob.length = BYTES_PER_BLOB)
    {count byteOffset byteLength : Nat}
    (enough :
      byteOffset % USABLE_BYTES_PER_FIELD_ELEMENT + byteLength ≤
        count * USABLE_BYTES_PER_FIELD_ELEMENT)
    (inside : byteOffset + byteLength ≤ USABLE_BYTES_PER_BLOB) :
    copyBlocks USABLE_BYTES_PER_FIELD_ELEMENT (readFieldElement blob)
        count (byteOffset / USABLE_BYTES_PER_FIELD_ELEMENT)
        (byteOffset % USABLE_BYTES_PER_FIELD_ELEMENT) byteLength =
      ((usableBytes blob).drop byteOffset).take byteLength := by
  have position :
      byteOffset / USABLE_BYTES_PER_FIELD_ELEMENT *
          USABLE_BYTES_PER_FIELD_ELEMENT +
        byteOffset % USABLE_BYTES_PER_FIELD_ELEMENT = byteOffset :=
    Nat.div_add_mod' _ _
  have copied :=
    copyBlocks_eq_take_drop (usableBlocks_wide isBlob)
      (readFieldElement_eq isBlob)
      (Nat.mod_lt byteOffset (by decide)) enough
      (by
        rw [position, length_usableBlocks, ← capacity_eq]
        exact inside)
  rw [copied, position, usableBytes_eq_flatten]

/-- The field elements counted for a range inside the blob. -/
theorem calculateFieldElements_ok
    {byteOffset byteLength : Nat}
    (inside : byteOffset + byteLength ≤ USABLE_BYTES_PER_BLOB) :
    ∃ range,
      calculateFieldElements byteOffset byteLength = .ok range ∧
      range.start = byteOffset / USABLE_BYTES_PER_FIELD_ELEMENT ∧
      byteOffset % USABLE_BYTES_PER_FIELD_ELEMENT + byteLength ≤
        range.count.toNat * USABLE_BYTES_PER_FIELD_ELEMENT := by
  refine ⟨_, if_neg (Nat.not_lt.mpr inside), rfl, ?_⟩
  simp only [USABLE_BYTES_PER_FIELD_ELEMENT]
  omega

/-- How many field elements a range of usable bytes touches. -/
def touchedFEs (byteOffset byteLength : Nat) : Nat :=
  (byteOffset + byteLength - 1) / USABLE_BYTES_PER_FIELD_ELEMENT -
    byteOffset / USABLE_BYTES_PER_FIELD_ELEMENT + 1

theorem touchedFEs_inside
    {byteOffset byteLength : Nat}
    (nonempty : 0 < byteLength)
    (inside : byteOffset + byteLength ≤ USABLE_BYTES_PER_BLOB) :
    byteOffset / USABLE_BYTES_PER_FIELD_ELEMENT +
        touchedFEs byteOffset byteLength ≤ FIELD_ELEMENTS_PER_BLOB := by
  simp only [touchedFEs, USABLE_BYTES_PER_FIELD_ELEMENT,
    USABLE_BYTES_PER_BLOB, FIELD_ELEMENTS_PER_BLOB] at inside ⊢
  omega

theorem touchedFEs_enough
    {byteOffset byteLength : Nat}
    (nonempty : 0 < byteLength) :
    byteOffset % USABLE_BYTES_PER_FIELD_ELEMENT + byteLength ≤
      touchedFEs byteOffset byteLength *
        USABLE_BYTES_PER_FIELD_ELEMENT := by
  simp only [touchedFEs, USABLE_BYTES_PER_FIELD_ELEMENT]
  omega

/-- `extractBytes` reads a range of the usable bytes. -/
theorem extractBytes_eq
    {blob : Bytes}
    (isBlob : blob.length = BYTES_PER_BLOB)
    {byteOffset byteLength : Nat}
    (inside : byteOffset + byteLength ≤ USABLE_BYTES_PER_BLOB) :
    extractBytes blob byteOffset byteLength =
      .ok (((usableBytes blob).drop byteOffset).take byteLength) := by
  obtain ⟨range, calculated, starts, enough⟩ :=
    calculateFieldElements_ok inside
  have fits :
      byteOffset + byteLength ≤ (usableBytes blob).length := by
    rw [length_usableBytes isBlob]
    exact inside
  rw [extractBytes, if_neg (Nat.not_lt.mpr inside), calculated]
  change Except.ok _ = _
  rw [starts, copyBlocks_usableBytes isBlob enough inside,
    padRight_slice_of_le 0x00 fits]

/-- `extractUsableBytesFromBlob` drops the usable bytes in front. -/
theorem extractUsableBytesFromBlob_eq
    {blob : Bytes}
    (isBlob : blob.length = BYTES_PER_BLOB)
    {startOffset : Nat}
    (inside : startOffset ≤ USABLE_BYTES_PER_BLOB) :
    extractUsableBytesFromBlob blob startOffset =
      (usableBytes blob).drop startOffset := by
  have length := length_usableBytes isBlob
  have whole :
      startOffset + (USABLE_BYTES_PER_BLOB - startOffset) =
        USABLE_BYTES_PER_BLOB :=
    Nat.add_sub_cancel' inside
  have enough :
      startOffset % USABLE_BYTES_PER_FIELD_ELEMENT +
          (USABLE_BYTES_PER_BLOB - startOffset) ≤
        (FIELD_ELEMENTS_PER_BLOB -
            startOffset / USABLE_BYTES_PER_FIELD_ELEMENT) *
          USABLE_BYTES_PER_FIELD_ELEMENT := by
    rw [Nat.sub_mul, ← capacity_eq]
    have position :=
      Nat.div_add_mod' startOffset USABLE_BYTES_PER_FIELD_ELEMENT
    omega
  rw [extractUsableBytesFromBlob,
    copyBlocks_usableBytes isBlob enough whole.le,
    padRight_slice_of_le 0x00 (by rw [length]; exact whole.le),
    List.take_of_length_le]
  rw [List.length_drop, length]

/-- Cutting a blob gives back the field elements it was put together from. -/
theorem fieldElements_flatten
    {elements : List Bytes}
    (wide : ∀ fe ∈ elements, fe.length = BYTES_PER_FIELD_ELEMENT)
    (whole : elements.length = FIELD_ELEMENTS_PER_BLOB) :
    fieldElements elements.flatten = elements := by
  apply List.ext_getElem
  · rw [length_fieldElements, whole]
  · intro index _ inside
    have cut := take_drop_flatten wide inside 0
    simp only [fieldElements, List.getElem_map, List.getElem_range, block]
    rw [Nat.add_zero, Nat.sub_zero, List.drop_zero] at cut
    exact cut

/-- The usable bytes of a blob that carries a payload are the payload and
padding. -/
theorem usableBytes_payloadBlob
    {payload : Bytes}
    (fits :
      feCountForPayload payload.length ≤ FIELD_ELEMENTS_PER_BLOB) :
    ∃ padding,
      usableBytes (payloadBlob payload) = payload ++ padding := by
  have wide := payloadElements_wide payload
  have whole := length_payloadElements fits
  have positive : 0 < FIELD_ELEMENTS_PER_BLOB := by
    decide
  obtain ⟨padding, extracted⟩ :=
    extractSegmentBytes_payloadBlob positive fits (Nat.le_refl _)
  have flattened :=
    extractSegmentBytes_flatten wide whole positive (Nat.le_refl _)
  rw [List.drop_zero, Nat.sub_zero,
    List.take_of_length_le (Nat.le_of_eq whole)] at flattened
  refine ⟨padding, ?_⟩
  rw [usableBytes, payloadBlob, fieldElements_flatten wide whole]
  exact Except.ok.inj (flattened.symm.trans extracted)

theorem feCount_le_of_fits
    {length : Nat}
    (fits : length ≤ USABLE_BYTES_PER_BLOB) :
    feCountForPayload length ≤ FIELD_ELEMENTS_PER_BLOB := by
  simp only [USABLE_BYTES_PER_BLOB, feCountForPayload,
    FIELD_ELEMENTS_PER_BLOB] at fits ⊢
  omega

/-- `createBlob` lays the data out from the first field element on. -/
theorem createBlob_ok
    {data : Bytes}
    (fits : data.length ≤ USABLE_BYTES_PER_BLOB) :
    createBlob data = .ok (payloadBlob data) := by
  have inside := feCount_le_of_fits fits
  have laid :
      layoutSegments 0 [{ contentTag := 0, payload := data }] =
        .ok
          ((List.range (feCountForPayload data.length)).map
              (payloadFieldElement data) ++ [],
            [{ contentTag := 0
               startFE := 0
               endFE := 0 + feCountForPayload data.length }]) := by
    rw [layoutSegments, Nat.zero_add]
    exact if_neg (Nat.not_lt.mpr inside)
  rw [createBlob, if_neg (Nat.not_lt.mpr fits), assembleMultiSegmentBlob,
    laid]
  simp only [List.append_nil, List.length_map, List.length_range]
  rfl

end Bam
