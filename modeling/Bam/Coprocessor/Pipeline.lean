import Bam.Coprocessor.Guest
import Bam.Reader.ProcessBatch
import Bam.Store.Batches

namespace Bam.Coprocessor

open Bytewise
open Usize

/-!
# From a Reader's batch to the guest

The host looks a batch up by its transaction, fetches the blob from the
Reader's archive, proves it against the versioned hash and hands it to the
guest as a whole blob.
-/

/-- The KZG functions of the host. -/
structure KzgLibraries where
  sha256 : Bytes → Bytes
  blobToKzgCommitment : Bytes → Option Bytes
  computeBlobKzgProof : Bytes → Bytes → Option Bytes

/-- `generate_kzg_proof`: commitment, opening proof and versioned hash. -/
def generateKzgProof
    (kzg : KzgLibraries)
    (blobBytes : Bytes) : Option (Bytes × Bytes × Bytes) :=
  if blobBytes.length ≠ BLOB_LEN then none
  else
    match kzg.blobToKzgCommitment blobBytes with
    | none => none
    | some commitment =>
        match kzg.computeBlobKzgProof blobBytes commitment with
        | none => none
        | some proof =>
            some (commitment, proof,
              0x01 :: (kzg.sha256 commitment).drop 1)

theorem generateKzgProof_eq
    {kzg : KzgLibraries}
    {blobBytes commitment proof : Bytes}
    (sized : blobBytes.length = BLOB_LEN)
    (commits : kzg.blobToKzgCommitment blobBytes = some commitment)
    (opens :
      kzg.computeBlobKzgProof blobBytes commitment = some proof) :
    generateKzgProof kzg blobBytes =
      some (commitment, proof,
        0x01 :: (kzg.sha256 commitment).drop 1) := by
  unfold generateKzgProof
  rw [if_neg (not_not.mpr sized), commits]
  dsimp only
  rw [opens]

/-- What the guest relies on: commitments and proofs are compressed points, and
a proof the host computes is accepted. -/
structure KzgAgrees
    (kzg : KzgLibraries)
    (guest : GuestLibraries) : Prop where
  sha256 : guest.sha256 = kzg.sha256
  commitmentLength :
    ∀ blob commitment,
      kzg.blobToKzgCommitment blob = some commitment →
      commitment.length = 48
  proofLength :
    ∀ blob commitment proof,
      kzg.computeBlobKzgProof blob commitment = some proof →
      proof.length = 48
  accepts :
    ∀ blob commitment proof,
      kzg.blobToKzgCommitment blob = some commitment →
      kzg.computeBlobKzgProof blob commitment = some proof →
      guest.verifyBlobKzgProof blob commitment proof = some true

/-- A batch as the Reader's API returns it. -/
structure ApiBatch where
  txHash : Bytes32
  blobVersionedHash : Bytes32
  contentTag : Bytes32
  blockNumber : Option UInt64
  txIndex : Option UInt32
  l1IncludedAtUnixSec : Option Nat
  submitter : Option Address
  deriving Repr, DecidableEq

/-- A number of a word, if it fits the word. -/
def parseUnsigned
    (bits : Nat)
    (number : Nat) : Option Nat :=
  if number < 2 ^ bits then some number else none

/-- The row as the client parses it; `none` where a number does not fit. -/
def ApiBatch.ofRow? (row : BatchRow) : Option ApiBatch := do
  let blockNumber ← row.blockNumber.mapM (parseUnsigned 64)
  let txIndex ← row.txIndex.mapM (parseUnsigned 32)
  let l1IncludedAtUnixSec ← row.l1IncludedAtUnixSec.mapM (parseUnsigned 63)
  return {
    txHash := row.txHash
    blobVersionedHash := row.blobVersionedHash
    contentTag := row.contentTag
    blockNumber := blockNumber.map UInt64.ofNat
    txIndex := txIndex.map UInt32.ofNat
    l1IncludedAtUnixSec := l1IncludedAtUnixSec
    submitter := row.submitter }

/-- A Reader's read API: its store, its chain and its blob archive. -/
structure ReaderService where
  store : Store
  chainId : Nat
  /-- `Reader.getBlob`; `none` where the archive has no entry. -/
  getBlob : Bytes32 → Option Bytes

/-- `Reader.getBatch`. -/
def ReaderService.getBatch
    (service : ReaderService)
    (txHash : Bytes32) : Option BatchRow :=
  (service.store.getBatchesByTxHash service.chainId txHash).head?

/-- Errors of the host pipeline. -/
inductive PipelineError where
  | request
  | noConfirmedBatch (contentTag : Bytes32) (blockNumber : UInt64)
      (txIndex : UInt32)
  | missingBlockNumber
  | missingTxIndex
  | unexpectedBlobSize (length : Nat)
  | kzg
  | versionedHashMismatch (blockNumber : UInt64) (txIndex : UInt32)
  deriving Repr, DecidableEq

inductive BatchSelector where
  | txHash (txHash : Bytes32)
  | chainCoord (contentTag : Bytes32) (blockNumber : UInt64)
      (txIndex : UInt32)

/-- `resolve_batch`. -/
def resolveBatch
    (service : ReaderService) :
    BatchSelector → Except PipelineError ApiBatch
  | .txHash txHash =>
      match (service.getBatch txHash).bind ApiBatch.ofRow? with
      | none => .error .request
      | some api => .ok api
  | .chainCoord contentTag blockNumber txIndex =>
      let rows :=
        (service.store.listBatches {
          contentTag := some contentTag
          chainId := none
          status := some .confirmed
          sinceBlock := none }).take 1000
      match rows.mapM ApiBatch.ofRow? with
      | none => .error .request
      | some batches =>
          match batches.find? fun batch =>
              batch.blockNumber = some blockNumber &&
                batch.txIndex = some txIndex with
          | none => .error (.noConfirmedBatch contentTag blockNumber txIndex)
          | some api => .ok api

def DEFAULT_START_FE : UInt16 := 0

def DEFAULT_END_FE : UInt16 := 4096

/-- `fetch_blob_from_reader_only`. -/
def fetchBlobFromReaderOnly
    (service : ReaderService)
    (versionedHash : Bytes32) : Except PipelineError (Option Bytes) :=
  match service.getBlob versionedHash with
  | none => .ok none
  | some bytes =>
      if bytes.length ≠ BLOB_LEN then
        .error (.unexpectedBlobSize bytes.length)
      else .ok (some bytes)

/-- The input of the guest for a fetched batch. -/
def assembleInput
    (kzg : KzgLibraries)
    (api : ApiBatch)
    (blockNumber : UInt64)
    (txIndex : UInt32)
    (blobBytes : Bytes) : Except PipelineError BlobInput :=
  match generateKzgProof kzg blobBytes with
  | none => .error .kzg
  | some (commitment, openingProof, computedVh) =>
      if computedVh ≠ bytes32Bytes api.blobVersionedHash then
        .error (.versionedHashMismatch blockNumber txIndex)
      else
        .ok {
          versionedHash := api.blobVersionedHash
          commitment := commitment
          openingProof := openingProof
          contentTag := api.contentTag
          decoder := 0
          sigRegistry := 0
          blockNumber := blockNumber
          txIndex := txIndex
          startFE := DEFAULT_START_FE
          endFE := DEFAULT_END_FE
          blobBytes := blobBytes }

/-- `fetch_one_batch_reader_only`; no value where the Reader is not ready. -/
def fetchOneBatchReaderOnly
    (kzg : KzgLibraries)
    (service : ReaderService)
    (selector : BatchSelector) :
    Except PipelineError (Option (ApiBatch × BlobInput)) := do
  let api ← resolveBatch service selector
  match api.blockNumber, api.txIndex with
  | none, _ => throw .missingBlockNumber
  | some _, none => throw .missingTxIndex
  | some blockNumber, some txIndex =>
      if api.l1IncludedAtUnixSec.isNone then
        return none
      match ← fetchBlobFromReaderOnly service api.blobVersionedHash with
      | none => return none
      | some blobBytes =>
          let input ←
            assembleInput kzg api blockNumber txIndex blobBytes
          return some (api, input)

/-- What an input assembled for a transaction is made of. -/
structure Assembled
    (kzg : KzgLibraries)
    (service : ReaderService)
    (txHash : Bytes32)
    (input : BlobInput)
    (batch : BatchRow) : Prop where
  isFirst : service.getBatch txHash = some batch
  blockNumber : batch.blockNumber = some input.blockNumber.toNat
  txIndex : batch.txIndex = some input.txIndex.toNat
  included : ∃ time < 2 ^ 63, batch.l1IncludedAtUnixSec = some time
  archived :
    service.getBlob batch.blobVersionedHash = some input.blobBytes
  sized : input.blobBytes.length = BLOB_LEN
  proved :
    generateKzgProof kzg input.blobBytes =
      some (input.commitment, input.openingProof,
        bytes32Bytes batch.blobVersionedHash)
  versionedHash : input.versionedHash = batch.blobVersionedHash
  contentTag : input.contentTag = batch.contentTag
  decoder : input.decoder = 0
  sigRegistry : input.sigRegistry = 0
  startFE : input.startFE = DEFAULT_START_FE
  endFE : input.endFE = DEFAULT_END_FE

section Assembly

variable {kzg : KzgLibraries}
variable {service : ReaderService}

/-- What the host proves of a blob, the guest accepts. -/
theorem generateKzgProof_accepted
    {blob commitment openingProof versionedHash : Bytes}
    (proved :
      generateKzgProof kzg blob =
        some (commitment, openingProof, versionedHash))
    {guest : GuestLibraries}
    (agrees : KzgAgrees kzg guest) :
    commitment.length = 48 ∧ openingProof.length = 48 ∧
      versionedHash = 0x01 :: (guest.sha256 commitment).drop 1 ∧
      guest.verifyBlobKzgProof blob commitment openingProof =
        some true := by
  unfold generateKzgProof at proved
  split at proved
  · cases proved
  cases isCommitment : kzg.blobToKzgCommitment blob with
  | none =>
      rw [isCommitment] at proved
      cases proved
  | some found =>
      rw [isCommitment] at proved
      cases isProof : kzg.computeBlobKzgProof blob found with
      | none =>
          simp only [isProof] at proved
          cases proved
      | some opening =>
          simp only [isProof] at proved
          cases proved
          exact ⟨agrees.commitmentLength _ _ isCommitment,
            agrees.proofLength _ _ _ isProof, agrees.sha256 ▸ rfl,
            agrees.accepts _ _ _ isCommitment isProof⟩

/-- The guest's assertions hold of what the host assembles. -/
theorem Assembled.asserts
    {txHash : Bytes32}
    {input : BlobInput}
    {batch : BatchRow}
    (assembled : Assembled kzg service txHash input batch)
    {guest : GuestLibraries}
    (agrees : KzgAgrees kzg guest) :
    assertInput guest input = true := by
  obtain ⟨commitmentLength, proofLength, isHash, accepted⟩ :=
    generateKzgProof_accepted assembled.proved agrees
  unfold assertInput
  rw [assembled.versionedHash, isHash, accepted]
  simp [assembled.decoder, assembled.sigRegistry, commitmentLength,
    proofLength, assembled.sized]

/-- A column the client parses is kept, and its number fits. -/
theorem mapM_parseUnsigned
    {bits : Nat}
    {column parsed : Option Nat} :
    column.mapM (parseUnsigned bits) = some parsed ↔
      parsed = column ∧ ∀ number, column = some number →
        number < 2 ^ bits := by
  cases column with
  | none =>
      simp [Option.mapM_none, eq_comm]
  | some number =>
      by_cases fits : number < 2 ^ bits
      · simp [Option.mapM_some, parseUnsigned, fits, eq_comm]
      · simp [Option.mapM_some, parseUnsigned, fits]

/-- What a parsed row is. -/
theorem ApiBatch.ofRow?_eq_some
    {row : BatchRow}
    {api : ApiBatch} :
    ApiBatch.ofRow? row = some api ↔
      (∀ number, row.blockNumber = some number → number < 2 ^ 64) ∧
        (∀ number, row.txIndex = some number → number < 2 ^ 32) ∧
        (∀ time, row.l1IncludedAtUnixSec = some time →
          time < 2 ^ 63) ∧
        api = {
          txHash := row.txHash
          blobVersionedHash := row.blobVersionedHash
          contentTag := row.contentTag
          blockNumber := row.blockNumber.map UInt64.ofNat
          txIndex := row.txIndex.map UInt32.ofNat
          l1IncludedAtUnixSec := row.l1IncludedAtUnixSec
          submitter := row.submitter } := by
  unfold ApiBatch.ofRow?
  simp only [bind, Option.bind_eq_some_iff, mapM_parseUnsigned, pure,
    Option.some.injEq]
  constructor
  · rintro ⟨_, ⟨rfl, block⟩, _, ⟨rfl, tx⟩, _, ⟨rfl, time⟩, rfl⟩
    exact ⟨block, tx, time, rfl⟩
  · rintro ⟨block, tx, time, rfl⟩
    exact ⟨_, ⟨rfl, block⟩, _, ⟨rfl, tx⟩, _, ⟨rfl, time⟩, rfl⟩

/-- The input `fetch_one_batch_reader_only` assembles for a transaction. -/
theorem assembled_of_fetch
    {txHash : Bytes32}
    {api : ApiBatch}
    {input : BlobInput}
    (fetched :
      fetchOneBatchReaderOnly kzg service (.txHash txHash) =
        .ok (some (api, input))) :
    ∃ batch, Assembled kzg service txHash input batch := by
  unfold fetchOneBatchReaderOnly resolveBatch at fetched
  simp only [bind, Except.bind, pure, Except.pure, throw, throwThe,
    MonadExceptOf.throw] at fetched
  cases isFirst : service.getBatch txHash with
  | none =>
      rw [isFirst] at fetched
      cases fetched
  | some batch =>
      rw [isFirst, Option.bind_some] at fetched
      cases parsed : ApiBatch.ofRow? batch with
      | none =>
          rw [parsed] at fetched
          cases fetched
      | some row =>
          simp only [parsed] at fetched
          obtain ⟨block, tx, time, rfl⟩ :=
            ApiBatch.ofRow?_eq_some.mp parsed
          cases isBlock : batch.blockNumber with
          | none =>
              simp only [isBlock, Option.map_none] at fetched
              cases fetched
          | some blockNumber =>
          cases isTx : batch.txIndex with
          | none =>
              simp only [isBlock, isTx, Option.map_none,
                Option.map_some] at fetched
              cases fetched
          | some txIndex =>
          cases isTime : batch.l1IncludedAtUnixSec with
          | none =>
              simp [isBlock, isTx, isTime] at fetched
          | some included =>
          simp only [isBlock, isTx, isTime, Option.map_some,
            Option.isNone_some, Bool.false_eq_true, if_false,
            fetchBlobFromReaderOnly] at fetched
          cases archived : service.getBlob batch.blobVersionedHash with
          | none =>
              simp [archived] at fetched
          | some blobBytes =>
          by_cases sized : blobBytes.length = BLOB_LEN
          · simp only [archived, sized, ne_eq, not_true_eq_false,
              if_false, assembleInput] at fetched
            cases isProof : generateKzgProof kzg blobBytes with
            | none =>
                simp [isProof] at fetched
            | some proof =>
                obtain ⟨commitment, openingProof, computedVh⟩ := proof
                simp only [isProof] at fetched
                by_cases sameHash :
                    computedVh = bytes32Bytes batch.blobVersionedHash
                · simp only [sameHash, not_true_eq_false, if_false,
                    Except.ok.injEq, Option.some.injEq,
                    Prod.mk.injEq] at fetched
                  obtain ⟨-, rfl⟩ := fetched
                  exact ⟨batch, {
                    isFirst := isFirst
                    blockNumber := by
                      rw [isBlock, UInt64.toNat_ofNat',
                        Nat.mod_eq_of_lt (block _ isBlock)]
                    txIndex := by
                      rw [isTx, UInt32.toNat_ofNat',
                        Nat.mod_eq_of_lt (tx _ isTx)]
                    included := ⟨included, time _ isTime, isTime⟩
                    archived := archived
                    sized := sized
                    proved := sameHash ▸ isProof
                    versionedHash := rfl
                    contentTag := rfl
                    decoder := rfl
                    sigRegistry := rfl
                    startFE := rfl
                    endFE := rfl }⟩
                · simp [sameHash] at fetched
          · simp [archived, sized] at fetched

/-- The host assembles every input that is made so. -/
theorem Assembled.fetched
    {txHash : Bytes32}
    {input : BlobInput}
    {batch : BatchRow}
    (assembled : Assembled kzg service txHash input batch) :
    ∃ api,
      fetchOneBatchReaderOnly kzg service (.txHash txHash) =
          .ok (some (api, input)) ∧
        api.blockNumber = some input.blockNumber ∧
        api.txIndex = some input.txIndex := by
  obtain ⟨time, inTime, isTime⟩ := assembled.included
  obtain ⟨api, parsed, isHash, isTag, isBlock, isTx, isIncluded⟩ :
      ∃ api, ApiBatch.ofRow? batch = some api ∧
        api.blobVersionedHash = batch.blobVersionedHash ∧
        api.contentTag = batch.contentTag ∧
        api.blockNumber = some input.blockNumber ∧
        api.txIndex = some input.txIndex ∧
        api.l1IncludedAtUnixSec = some time := by
    refine ⟨_, ApiBatch.ofRow?_eq_some.mpr ⟨?_, ?_, ?_, rfl⟩, rfl, rfl,
      ?_, ?_, isTime⟩
    · intro number isNumber
      cases assembled.blockNumber.symm.trans isNumber
      exact input.blockNumber.toNat_lt
    · intro number isNumber
      cases assembled.txIndex.symm.trans isNumber
      exact input.txIndex.toNat_lt
    · intro number isNumber
      cases isTime.symm.trans isNumber
      exact inTime
    · simp [assembled.blockNumber]
    · simp [assembled.txIndex]
  have isInput :
      ({ versionedHash := batch.blobVersionedHash
         commitment := input.commitment
         openingProof := input.openingProof
         contentTag := batch.contentTag
         decoder := 0
         sigRegistry := 0
         blockNumber := input.blockNumber
         txIndex := input.txIndex
         startFE := DEFAULT_START_FE
         endFE := DEFAULT_END_FE
         blobBytes := input.blobBytes } : BlobInput) = input := by
    cases input
    cases assembled
    simp_all
  refine ⟨api, ?_, isBlock, isTx⟩
  simp only [fetchOneBatchReaderOnly, resolveBatch, assembled.isFirst,
    Option.bind_some, parsed, bind, Except.bind, pure, Except.pure,
    isBlock, isTx, isIncluded, isHash, isTag, Option.isNone_some,
    Bool.false_eq_true, if_false, fetchBlobFromReaderOnly,
    assembled.archived, assembled.sized, ne_eq, not_true_eq_false,
    assembleInput, assembled.proved, isInput]

end Assembly

/-- The guest's output names the message of a row, in the segment declared for
its event. -/
structure PublicValues.Certifies
    (values : PublicValues)
    (row : MessageRow)
    (event : BlobBatchRegisteredEvent) : Prop where
  sender : values.sender = addressBytes row.sender
  nonce : values.nonce.toNat = row.nonce
  contentTag : values.contentTag = row.contentTag
  messageHash : values.messageHash = row.messageHash
  startFE : values.startFE.toNat = event.startFE.getD 0
  endFE :
    values.endFE.toNat = event.endFE.getD FIELD_ELEMENTS_PER_BLOB

/-- A blob that, read as a whole, holds at an index a signed message with the
sender, the nonce and the hash of a row. -/
def Repeats
    (libraries : ReaderLibraries)
    (guest : GuestLibraries)
    (chainId : UInt64)
    (row : MessageRow)
    (index : Nat)
    (blob : Bytes) : Prop :=
  ∃ segment message signature,
    Bam.extractSegmentBytes blob 0 FIELD_ELEMENTS_PER_BLOB =
        .ok segment ∧
      CarriesAt libraries.decompress segment index message signature ∧
      verifiesEcdsa guest message row.contentTag signature chainId =
        true ∧
      message.sender = row.sender ∧
      message.nonce = row.nonce ∧
      Bam.computeMessageHash libraries.crypto.keccak256 message.sender
        row.contentTag message.nonce message.contents =
          some row.messageHash

/-- The segment of an event is not compressed. -/
def SegmentPlain
    (opts : ProcessBatchOptions) : Prop :=
  ∃ blob segment,
    opts.fetchBlob = some blob ∧
      Bam.extractSegmentBytes blob (opts.event.startFE.getD 0)
          (opts.event.endFE.getD FIELD_ELEMENTS_PER_BLOB) =
        .ok segment ∧
      segment.getD 1 0 = CODEC_NONE

/-- The event covers the whole blob, its tag is the smallest of its
transaction, and the batch row of the tag is about the blob of the event, whose
batch is not compressed, or about a blob that repeats the message. -/
def Certifiable
    (libraries : ReaderLibraries)
    (guest : GuestLibraries)
    (service : ReaderService)
    (opts : ProcessBatchOptions)
    (chainId : UInt64)
    (row : MessageRow)
    (index : Nat) : Prop :=
  (opts.event.startFE.getD 0 = 0 ∧
      opts.event.endFE.getD FIELD_ELEMENTS_PER_BLOB =
        FIELD_ELEMENTS_PER_BLOB) ∧
    ∃ batch ∈ service.store.batches.rows,
      batch.isOf service.chainId opts.event.txHash = true ∧
        (∀ other ∈ service.store.batches.rows,
          other.isOf service.chainId opts.event.txHash = true →
          batch.contentTag.toNat ≤ other.contentTag.toNat) ∧
        batch.contentTag = opts.event.contentTag ∧
        (batch.blobVersionedHash = opts.event.versionedHash ∧
            SegmentPlain opts ∨
          ∃ blob, service.getBlob batch.blobVersionedHash = some blob ∧
            Repeats libraries guest chainId row index blob)

section Certification

variable {libraries : ReaderLibraries}
variable {guest : GuestLibraries}
variable {kzg : KzgLibraries}
variable {service : ReaderService}
variable {target : Target}

/-- An extracted segment is a slice of every target. -/
theorem extracted_fits
    {blob segment : Bytes}
    (extracted :
      Bam.extractSegmentBytes blob 0 FIELD_ELEMENTS_PER_BLOB =
        .ok segment) :
    segment.length < target.maxSlice := by
  have large := target.maxSlice_large
  unfold Bam.extractSegmentBytes at extracted
  split at extracted
  · cases extracted
  split at extracted
  · cases extracted
  split at extracted
  · cases extracted
  cases extracted
  have bounded :
      ∀ elements : List Nat,
        (elements.flatMap fun fe =>
          (blob.drop (fe * BYTES_PER_FIELD_ELEMENT + 1)).take
            USABLE_BYTES_PER_FIELD_ELEMENT).length ≤
          elements.length * 31 := by
    intro elements
    induction elements with
    | nil =>
        exact Nat.le_refl _
    | cons fe rest inductionHypothesis =>
        rw [List.flatMap_cons, List.length_append, List.length_cons,
          Nat.succ_mul, Nat.add_comm]
        exact Nat.add_le_add inductionHypothesis
          (List.length_take_le _ _)
  have small := bounded (List.range' 0 (FIELD_ELEMENTS_PER_BLOB - 0))
  rw [List.length_range', FIELD_ELEMENTS_PER_BLOB] at small
  exact Nat.lt_of_le_of_lt small (by omega)

/-- The guest of a whole blob commits exactly the signed messages the SDK reads
of it. -/
theorem guestMain_whole_blob
    (decompress : Bytes → Except BatchError Bytes)
    {input : BlobInput}
    (asserts : assertInput guest input = true)
    (sized : input.blobBytes.length = BLOB_LEN)
    (startFE : input.startFE = DEFAULT_START_FE)
    (endFE : input.endFE = DEFAULT_END_FE)
    {chainId : UInt64}
    {msgIndex : UInt32}
    {values : PublicValues} :
    guestMain guest target chainId input msgIndex = some values ↔
      ∃ segment message signature messageHash,
        Bam.extractSegmentBytes input.blobBytes 0
            FIELD_ELEMENTS_PER_BLOB = .ok segment ∧
          CarriesAt decompress segment msgIndex.toNat message
            signature ∧
          verifiesEcdsa guest message input.contentTag signature
            chainId = true ∧
          Bam.computeMessageHash guest.keccak256 message.sender
            input.contentTag message.nonce message.contents =
              some messageHash ∧
          values = {
            chainId := chainId
            versionedHash := input.versionedHash
            contentTag := input.contentTag
            startFE := DEFAULT_START_FE
            endFE := DEFAULT_END_FE
            blockNumber := input.blockNumber
            txIndex := input.txIndex
            msgIndex := msgIndex
            sender := addressBytes message.sender
            nonce := UInt64.ofNat message.nonce
            messageHash := messageHash } := by
  obtain ⟨segment, extracted, isSegment⟩ :=
    extractSegmentBytes_agrees target sized
      (by decide : 0 < FIELD_ELEMENTS_PER_BLOB) (Nat.le_refl _)
  have fits : segment.length < target.maxSlice :=
    extracted_fits isSegment
  have agrees := finds_iff_carriesAt decompress fits msgIndex.toNat
  have isRead :
      extractSegmentBytes target input.blobBytes input.startFE
        input.endFE = .ok segment := by
    rw [startFE, endFE]
    exact extracted
  have committed :
      ∀ {msg : BamMessage} {sig : Bytes},
        Finds target segment msgIndex.toNat msg sig →
        input.publicValues guest chainId msgIndex msg = {
          chainId := chainId
          versionedHash := input.versionedHash
          contentTag := input.contentTag
          startFE := DEFAULT_START_FE
          endFE := DEFAULT_END_FE
          blockNumber := input.blockNumber
          txIndex := input.txIndex
          msgIndex := msgIndex
          sender := addressBytes msg.toBAMMessage.sender
          nonce := UInt64.ofNat msg.toBAMMessage.nonce
          messageHash :=
            computeMessageHash guest.keccak256 msg.sender
              input.contentTag msg.nonce msg.contents } := by
    intro msg sig finds
    have isNonce : UInt64.ofNat msg.toBAMMessage.nonce = msg.nonce :=
      UInt64.ofNat_toNat
    rw [finds.sender, isNonce, ← startFE, ← endFE]
    rfl
  rw [guestMain_eq_some_iff]
  constructor
  · rintro ⟨-, found, msg, sig, isFound, finds, verified, rfl⟩
    cases isRead.symm.trans isFound
    exact ⟨segment, msg.toBAMMessage, sig, _, isSegment,
      (agrees _ _).mp ⟨msg, finds, rfl⟩, finds.verifies .. ▸ verified,
      finds.messageHash _ _, committed finds⟩
  · rintro ⟨found, message, sig, hash, isFound, carries, verified,
      isHash, rfl⟩
    cases isSegment.symm.trans isFound
    obtain ⟨msg, finds, rfl⟩ := (agrees _ _).mpr carries
    rw [finds.messageHash] at isHash
    cases isHash
    rw [finds.verifies] at verified
    exact ⟨asserts, segment, msg, sig, isRead, finds, verified,
      (committed finds).symm⟩

/-- The guest of a whole blob certifies what the blob repeats. -/
theorem certifies_iff_repeats
    (agree : LibrariesAgree libraries.crypto guest)
    {input : BlobInput}
    (asserts : assertInput guest input = true)
    (sized : input.blobBytes.length = BLOB_LEN)
    (startFE : input.startFE = DEFAULT_START_FE)
    (endFE : input.endFE = DEFAULT_END_FE)
    {row : MessageRow}
    {event : BlobBatchRegisteredEvent}
    (wholeBlob :
      event.startFE.getD 0 = 0 ∧
        event.endFE.getD FIELD_ELEMENTS_PER_BLOB =
          FIELD_ELEMENTS_PER_BLOB)
    (sameTag : input.contentTag = row.contentTag)
    (chainId : UInt64)
    (msgIndex : UInt32) :
    (∃ values,
        guestMain guest target chainId input msgIndex = some values ∧
          values.Certifies row event) ↔
      Repeats libraries guest chainId row msgIndex.toNat
        input.blobBytes := by
  constructor
  · rintro ⟨values, ran, certifies⟩
    obtain ⟨segment, message, signature, hash, isSegment, carries,
      verified, isHash, rfl⟩ :=
      (guestMain_whole_blob libraries.decompress asserts sized startFE
        endFE).mp ran
    have inRange : message.nonce ≤ MAX_NONCE :=
      nonce_of_computeMessageHash isHash
    have isNonce := certifies.nonce
    rw [toNat_ofNat_nonce inRange] at isNonce
    have isSender := congrArg addressOfBytes certifies.sender
    rw [addressOfBytes_addressBytes, addressOfBytes_addressBytes]
      at isSender
    refine ⟨segment, message, signature, isSegment, carries,
      sameTag ▸ verified, isSender, isNonce, ?_⟩
    rw [← sameTag, ← agree.keccak256, isHash]
    exact congrArg some certifies.messageHash
  · rintro ⟨segment, message, signature, isSegment, carries, verified,
      isSender, isNonce, isHash⟩
    rw [← sameTag, ← agree.keccak256] at isHash
    have inRange : message.nonce ≤ MAX_NONCE :=
      nonce_of_computeMessageHash isHash
    refine ⟨_, (guestMain_whole_blob libraries.decompress asserts sized
      startFE endFE).mpr ⟨segment, message, signature, _, isSegment,
        carries, sameTag ▸ verified, isHash, rfl⟩, ?_⟩
    exact {
      sender := congrArg addressBytes isSender
      nonce := (toNat_ofNat_nonce inRange).trans isNonce
      contentTag := sameTag
      messageHash := rfl
      startFE := wholeBlob.1.symm
      endFE := wholeBlob.2.symm }

/-- A whole uncompressed segment repeats every message the Reader keeps of
it. -/
theorem repeats_of_row
    (agree : LibrariesAgree libraries.crypto guest)
    {opts : ProcessBatchOptions}
    {chainId : UInt64}
    (sameChain : opts.chainId = chainId.toNat)
    (zeroDecoder : opts.event.decoder = 0)
    (zeroRegistry : opts.event.signatureRegistry = 0)
    {verified : List VerifiedEntry}
    (isRead : readSegment libraries opts = some verified)
    {row : MessageRow}
    (isRow : row ∈ opts.messageRows libraries verified)
    {index : Nat}
    (isIndex : row.messageIndexWithinBatch = some index)
    (wholeBlob :
      opts.event.startFE.getD 0 = 0 ∧
        opts.event.endFE.getD FIELD_ELEMENTS_PER_BLOB =
          FIELD_ELEMENTS_PER_BLOB)
    (plain : SegmentPlain opts)
    {blob : Bytes}
    (isBlob : opts.fetchBlob = some blob) :
    Repeats libraries guest chainId row index blob := by
  obtain ⟨fetched, segment, isFetched, extracted, isPlain⟩ := plain
  cases isBlob.symm.trans isFetched
  unfold readSegment at isRead
  simp only at isRead
  split at isRead
  · cases isRead
  rw [isBlob] at isRead
  simp only [extracted] at isRead
  rw [wholeBlob.1, wholeBlob.2] at extracted
  unfold decode at isRead
  rw [zeroDecoder, if_pos rfl] at isRead
  obtain ⟨entry, member, isEntry⟩ := List.mem_filterMap.mp isRow
  unfold VerifiedEntry.toMessageRow at isEntry
  obtain ⟨messageId, -, rfl⟩ := Option.map_eq_some_iff.mp isEntry
  have atIndex : entry.indexWithinBatch = index :=
    Option.some.inj isIndex
  cases isBounded : assertZstdWithinBound segment with
  | error error =>
      rw [isBounded] at isRead
      cases isRead
      cases member
  | ok bounded =>
      rw [isBounded] at isRead
      simp only at isRead
      cases isBatch : decodeBatch libraries.decompress segment with
      | error error =>
          rw [isBatch] at isRead
          cases isRead
          cases member
      | ok decoded =>
          rw [isBatch] at isRead
          simp only at isRead
          cases kept : (verifyMessages libraries opts 0
              (decoded.messages.zip decoded.signatures)
              emptyCounters).2 with
          | error error =>
              rw [kept] at isRead
              cases isRead
          | ok entries =>
              rw [kept] at isRead
              cases isRead
              have valid := verifyMessages_valid kept entry member
              obtain ⟨position, isPosition, isAt⟩ :=
                verifyMessages_indexed kept entry member
              rw [Nat.zero_add, atIndex] at isPosition
              rw [← isPosition, List.getElem?_zip_eq_some] at isAt
              have isVerified := valid.verified
              rw [verifyMessage, zeroRegistry, if_pos rfl,
                sameChain] at isVerified
              exact ⟨segment, entry.message, entry.signature, extracted,
                ⟨isPlain, decoded, isBatch, isAt.1, isAt.2⟩,
                verifiesEcdsa_of_verifyECDSA agree valid.nonce isVerified,
                rfl, rfl, valid.hash⟩

end Certification

/-- Given the input the host assembles for the transaction of a Reader's
message, the guest certifies the message and its segment exactly where the
event covers the whole blob with an uncompressed batch and its tag comes first
in the transaction. -/
theorem certified_iff_certifiable
    {libraries : ReaderLibraries}
    {guest : GuestLibraries}
    {kzg : KzgLibraries}
    (agree : LibrariesAgree libraries.crypto guest)
    (proves : KzgAgrees kzg guest)
    {service : ReaderService}
    (target : Target)
    {opts : ProcessBatchOptions}
    {chainId : UInt64}
    (sameChain : opts.chainId = chainId.toNat)
    (archived :
      ∀ blob, service.getBlob opts.event.versionedHash = some blob →
        opts.fetchBlob = some blob)
    (zeroDecoder : opts.event.decoder = 0)
    (zeroRegistry : opts.event.signatureRegistry = 0)
    {verified : List VerifiedEntry}
    (isRead : readSegment libraries opts = some verified)
    {row : MessageRow}
    (isRow : row ∈ opts.messageRows libraries verified)
    {msgIndex : UInt32}
    (isIndex : row.messageIndexWithinBatch = some msgIndex.toNat)
    {api : ApiBatch}
    {input : BlobInput}
    (fetched :
      fetchOneBatchReaderOnly kzg service (.txHash opts.event.txHash) =
        .ok (some (api, input))) :
    (∃ values,
        guestMain guest target chainId input msgIndex = some values ∧
          values.Certifies row opts.event) ↔
      Certifiable libraries guest service opts chainId row
        msgIndex.toNat := by
  obtain ⟨batch, assembled⟩ := assembled_of_fetch fetched
  have asserts := assembled.asserts proves
  have isTag : row.contentTag = opts.event.contentTag := by
    obtain ⟨entry, -, isEntry⟩ := List.mem_filterMap.mp isRow
    obtain ⟨messageId, -, rfl⟩ := Option.map_eq_some_iff.mp isEntry
    rfl
  have isFirst := Store.head_getBatchesByTxHash.mp assembled.isFirst
  constructor
  · rintro ⟨values, ran, certifies⟩
    have committed := ran
    rw [guestMain_eq_some_iff] at committed
    obtain ⟨-, -, msg, -, -, -, -, rfl⟩ := committed
    have wholeBlob :
        opts.event.startFE.getD 0 = 0 ∧
          opts.event.endFE.getD FIELD_ELEMENTS_PER_BLOB =
            FIELD_ELEMENTS_PER_BLOB :=
      ⟨certifies.startFE.symm.trans
          (congrArg UInt16.toNat assembled.startFE),
        certifies.endFE.symm.trans
          (congrArg UInt16.toNat assembled.endFE)⟩
    have sameTag : input.contentTag = row.contentTag :=
      certifies.contentTag
    refine ⟨wholeBlob, batch, isFirst.1, isFirst.2.1, isFirst.2.2,
      assembled.contentTag.symm.trans (sameTag.trans isTag),
      .inr ⟨input.blobBytes, assembled.archived, ?_⟩⟩
    exact (certifies_iff_repeats agree asserts assembled.sized
      assembled.startFE assembled.endFE wholeBlob sameTag chainId
      msgIndex).mp ⟨_, ran, certifies⟩
  · rintro ⟨wholeBlob, found, isStored, ofTx, smallest, foundTag, holds⟩
    have isFound :=
      Store.head_getBatchesByTxHash.mpr ⟨isStored, ofTx, smallest⟩
    cases isFound.symm.trans assembled.isFirst
    have sameTag : input.contentTag = row.contentTag :=
      assembled.contentTag.trans (foundTag.trans isTag.symm)
    refine (certifies_iff_repeats agree asserts assembled.sized
      assembled.startFE assembled.endFE wholeBlob sameTag chainId
      msgIndex).mpr ?_
    rcases holds with ⟨ownBlob, plain⟩ | ⟨blob, isBlob, repeats⟩
    · refine repeats_of_row agree sameChain zeroDecoder zeroRegistry
        isRead isRow isIndex wholeBlob plain (archived _ ?_)
      rw [← ownBlob]
      exact assembled.archived
    · cases isBlob.symm.trans assembled.archived
      exact repeats

/-- The libraries of the Reader that keeps the message. -/
def sampleLibraries : ReaderLibraries where
  crypto := sampleCrypto
  decompress := fun _ => .error .decompression

/-- The library of the host, on the blob. -/
def sampleKzg : KzgLibraries where
  sha256 := sampleSha256
  blobToKzgCommitment := fun blob =>
    if blob = sampleBlob then some sampleCommitment else none
  computeBlobKzgProof := fun blob commitment =>
    if blob = sampleBlob ∧ commitment = sampleCommitment then
      some sampleOpening
    else none

theorem sample_kzgAgrees : KzgAgrees sampleKzg sampleGuest where
  sha256 := rfl
  commitmentLength := by
    intro blob commitment isCommitment
    simp only [sampleKzg, Option.ite_none_right_eq_some] at isCommitment
    cases isCommitment.2
    exact length_toBE _ _
  proofLength := by
    intro blob commitment proof isProof
    simp only [sampleKzg, Option.ite_none_right_eq_some] at isProof
    cases isProof.2
    exact length_toBE _ _
  accepts := by
    intro blob commitment proof isCommitment isProof
    simp only [sampleKzg, Option.ite_none_right_eq_some,
      Option.some.injEq] at isCommitment isProof
    exact if_pos
      ⟨isCommitment.1, isCommitment.2.symm, isProof.2.symm⟩

theorem encode_sampleMessage :
    encodeBatch [sampleMessage] [sampleSignature] .none =
      .ok sampleEncoded := by
  decide +kernel

theorem feCount_sampleEncoded :
    feCountForPayload sampleEncoded.data.length = 4 := by
  decide

/-- Every range from the start of the blob that holds the batch is the batch
and padding. -/
theorem extract_sampleBlob
    {endFE : Nat}
    (holds : 4 ≤ endFE)
    (inside : endFE ≤ FIELD_ELEMENTS_PER_BLOB) :
    ∃ padding,
      Bam.extractSegmentBytes sampleBlob 0 endFE =
        .ok (sampleEncoded.data ++ padding) :=
  extractSegmentBytes_payloadBlob (Nat.lt_of_lt_of_le (by decide) holds)
    (feCount_sampleEncoded ▸ holds) inside

/-- The registration of the batch with a declared end. -/
def sampleOptions (endFE : Nat) : ProcessBatchOptions where
  event := {
    blockNumber := 100
    txIndex := 0
    logIndex := 0
    txHash := 1
    versionedHash := sampleVersionedHash
    submitter := 9
    contentTag := 5
    decoder := 0
    signatureRegistry := 0
    startFE := some 0
    endFE := some endFE }
  l1IncludedAtUnixSec := some 0
  chainId := 1
  fetchBlob := some sampleBlob
  decodeAnswer := fun _ => none
  verifyAnswer := fun _ _ _ _ => none

def sampleEntry : VerifiedEntry where
  message := sampleMessage
  signature := sampleSignature
  indexWithinBatch := 0
  messageHash :=
    0x83042298d53f682a9e9861ce05cf81d46a972bc8daf5f9db34f7148d063ff279

theorem verify_sampleMessage :
    verifyMessage sampleLibraries.crypto 0 sampleMessage 5 sampleSignature
      1 default = true := by
  decide +kernel

theorem hash_sampleMessage :
    Bam.computeMessageHash sampleKeccak sampleMessage.sender 5
        sampleMessage.nonce sampleMessage.contents =
      some sampleEntry.messageHash := by
  decide +kernel

/-- The Reader keeps the message, whatever end is declared behind it. -/
theorem readSegment_sample
    {endFE : Nat}
    (holds : 4 ≤ endFE)
    (inside : endFE ≤ FIELD_ELEMENTS_PER_BLOB) :
    readSegment sampleLibraries (sampleOptions endFE) =
      some [sampleEntry] := by
  have isHash :
      Bam.computeMessageHash sampleLibraries.crypto.keccak256
          sampleMessage.sender (sampleOptions endFE).event.contentTag
          sampleMessage.nonce sampleMessage.contents =
        some sampleEntry.messageHash :=
    hash_sampleMessage
  have isVerified :
      verifyMessage sampleLibraries.crypto
          (sampleOptions endFE).event.signatureRegistry sampleMessage
          (sampleOptions endFE).event.contentTag sampleSignature
          (sampleOptions endFE).chainId
          ((sampleOptions endFE).verifyAnswer 0) = true :=
    verify_sampleMessage
  have verified :
      (verifyMessages sampleLibraries (sampleOptions endFE) 0
        ([sampleMessage].zip [sampleSignature]) emptyCounters).2 =
          .ok [sampleEntry] := by
    simp only [List.zip_cons_cons, List.zip_nil_left, verifyMessages,
      isHash, isVerified, if_true]
    rfl
  have isEnd :
      (sampleOptions endFE).event.endFE.getD FIELD_ELEMENTS_PER_BLOB =
        endFE :=
    rfl
  have isRead :
      readSegment sampleLibraries (sampleOptions endFE) = _ :=
    readSegment_payloadBlob encode_sampleMessage (by decide) (by decide)
      (by decide) rfl rfl isEnd (Nat.lt_of_lt_of_le (by decide) holds)
      (feCount_sampleEncoded ▸ holds) inside rfl
  rw [isRead, verified]
  rfl

/-- The row of the message. -/
def sampleRow (endFE : Nat) : MessageRow :=
  ((sampleOptions endFE).messageRows sampleLibraries [sampleEntry]).headD
    (sampleEntry.messageRow (sampleOptions endFE) 0)

/-- The service of the Reader that keeps the batch. -/
def sampleService (endFE : Nat) : ReaderService where
  store := Store.empty.upsertBatch (sampleOptions endFE).baseBatch
  chainId := 1
  getBlob := fun _ => some sampleBlob

/-- The input the host assembles for the blob in a block. -/
def sampleInputAt (blockNumber : UInt64) : BlobInput where
  versionedHash := sampleVersionedHash
  commitment := sampleCommitment
  openingProof := sampleOpening
  contentTag := 5
  decoder := 0
  sigRegistry := 0
  blockNumber := blockNumber
  txIndex := 0
  startFE := DEFAULT_START_FE
  endFE := DEFAULT_END_FE
  blobBytes := sampleBlob

/-- The input for the block of the message. -/
def sampleInput : BlobInput :=
  sampleInputAt 100

theorem length_sampleBlob : sampleBlob.length = BLOB_LEN := by
  refine (length_payloadBlob ?_).trans rfl
  rw [feCount_sampleEncoded]
  decide

theorem commitment_sampleBlob :
    sampleKzg.blobToKzgCommitment sampleBlob = some sampleCommitment := by
  simp only [sampleKzg, if_true]

theorem opening_sampleBlob :
    sampleKzg.computeBlobKzgProof sampleBlob sampleCommitment =
      some sampleOpening := by
  simp only [sampleKzg, and_self, if_true]

theorem hash_sampleCommitment :
    0x01 :: (sampleKzg.sha256 sampleCommitment).drop 1 =
      bytes32Bytes sampleInput.versionedHash := by
  decide +kernel

theorem generateKzgProof_sampleBlob :
    generateKzgProof sampleKzg sampleBlob =
      some (sampleCommitment, sampleOpening,
        bytes32Bytes sampleInput.versionedHash) := by
  rw [← hash_sampleCommitment]
  exact generateKzgProof_eq length_sampleBlob commitment_sampleBlob
    opening_sampleBlob

/-- The host assembles the blob for every service that archives it and looks
a batch row with its hash up. -/
theorem assembled_sampleInput
    {service : ReaderService}
    {txHash : Bytes32}
    {batch : BatchRow}
    (isFirst : service.getBatch txHash = some batch)
    (isHash : batch.blobVersionedHash = sampleInput.versionedHash)
    (isTag : batch.contentTag = sampleInput.contentTag)
    {blockNumber : UInt64}
    (isBlock : batch.blockNumber = some blockNumber.toNat)
    (isTx : batch.txIndex = some 0)
    (included : batch.l1IncludedAtUnixSec = some 0)
    (archived :
      service.getBlob sampleInput.versionedHash = some sampleBlob) :
    Assembled sampleKzg service txHash (sampleInputAt blockNumber)
      batch where
  isFirst := isFirst
  blockNumber := isBlock
  txIndex := isTx
  included := ⟨0, by decide, included⟩
  archived := isHash ▸ archived
  sized := length_sampleBlob
  proved := isHash ▸ generateKzgProof_sampleBlob
  versionedHash := isHash.symm
  contentTag := isTag.symm
  decoder := rfl
  sigRegistry := rfl
  startFE := rfl
  endFE := rfl

/-- The host assembles the input, whatever end is declared. -/
theorem assembled_sample (endFE : Nat) :
    Assembled sampleKzg (sampleService endFE) 1 sampleInput
      (sampleOptions endFE).baseBatch :=
  assembled_sampleInput (by rfl) rfl rfl rfl rfl rfl rfl

theorem sampleRow_isRow (endFE : Nat) :
    sampleRow endFE ∈
      (sampleOptions endFE).messageRows sampleLibraries [sampleEntry] := by
  have isSome :
      (sampleEntry.messageId? sampleLibraries
        (sampleOptions endFE)).isSome = true := by
    rfl
  obtain ⟨messageId, isId⟩ := Option.isSome_iff_exists.mp isSome
  simp only [sampleRow, ProcessBatchOptions.messageRows,
    VerifiedEntry.toMessageRow, List.filterMap_cons, List.filterMap_nil,
    isId, Option.map_some, List.headD_cons, List.mem_singleton]

/-- The whole segment begins with a batch that is not compressed. -/
theorem segmentPlain_sample :
    SegmentPlain (sampleOptions FIELD_ELEMENTS_PER_BLOB) := by
  obtain ⟨padding, extracted⟩ :=
    extract_sampleBlob (by decide : 4 ≤ FIELD_ELEMENTS_PER_BLOB)
      (Nat.le_refl _)
  refine ⟨sampleBlob, _, rfl, extracted, ?_⟩
  rw [List.getD_append _ _ _ _ (by decide)]
  rfl

theorem certifiable_sample :
    Certifiable sampleLibraries sampleGuest
      (sampleService FIELD_ELEMENTS_PER_BLOB)
      (sampleOptions FIELD_ELEMENTS_PER_BLOB) 1
      (sampleRow FIELD_ELEMENTS_PER_BLOB) 0 := by
  have stored :
      (sampleService FIELD_ELEMENTS_PER_BLOB).store.batches.rows =
        [(sampleOptions FIELD_ELEMENTS_PER_BLOB).baseBatch] :=
    rfl
  refine ⟨⟨rfl, rfl⟩,
    (sampleOptions FIELD_ELEMENTS_PER_BLOB).baseBatch, ?_, rfl, ?_, rfl,
    .inl ⟨rfl, segmentPlain_sample⟩⟩
  · rw [stored]
    exact List.mem_singleton_self _
  · intro other member _
    rw [stored, List.mem_singleton] at member
    rw [member]

/-- A batch of a whole blob under the only tag of its transaction is
certified. -/
theorem certified_whole_blob :
    ∃ values,
      guestMain sampleGuest guestTarget 1 sampleInput 0 = some values ∧
        values.Certifies (sampleRow FIELD_ELEMENTS_PER_BLOB)
          (sampleOptions FIELD_ELEMENTS_PER_BLOB).event := by
  obtain ⟨api, fetched, -⟩ :=
    (assembled_sample FIELD_ELEMENTS_PER_BLOB).fetched
  exact (certified_iff_certifiable sample_librariesAgree
    sample_kzgAgrees guestTarget rfl (fun _ isBlob => isBlob) rfl rfl
    (readSegment_sample (by decide) (Nat.le_refl _))
    (sampleRow_isRow FIELD_ELEMENTS_PER_BLOB) rfl
    fetched).mpr certifiable_sample

/-- The segment of a message that ends before the blob does is not certified,
though the Reader keeps the message and the host assembles its input. -/
theorem declared_segment_not_certified :
    readSegment sampleLibraries (sampleOptions 4) = some [sampleEntry] ∧
      sampleRow 4 ∈
        (sampleOptions 4).messageRows sampleLibraries [sampleEntry] ∧
      (∃ api,
        fetchOneBatchReaderOnly sampleKzg (sampleService 4)
            (.txHash (sampleOptions 4).event.txHash) =
          .ok (some (api, sampleInput))) ∧
      ¬∃ values,
        guestMain sampleGuest guestTarget 1 sampleInput 0 = some values ∧
          values.Certifies (sampleRow 4) (sampleOptions 4).event := by
  obtain ⟨api, fetched, -⟩ := (assembled_sample 4).fetched
  refine ⟨readSegment_sample (by decide) (by decide), sampleRow_isRow 4,
    ⟨api, fetched⟩, ?_⟩
  rintro ⟨values, ran, certifies⟩
  obtain ⟨-, _, _, _, -, -, -, isValues⟩ :=
    guestMain_eq_some_iff.mp ran
  have sameEnd := certifies.endFE
  rw [isValues] at sameEnd
  have apart : DEFAULT_END_FE.toNat ≠ 4 := by
    decide
  exact apart sameEnd

end Bam.Coprocessor
