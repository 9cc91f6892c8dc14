import Bam.Coprocessor.Pipeline
import Bam.System.BroadcastOnce
import Bam.System.Delivery

namespace Bam

open Coprocessor
  (BlobInput BamMessage Finds GuestLibraries LibrariesAgree
    PublicValues assertInput guestMain length_extractSegmentBytes)
open Usize (Target)

/-!
# What the guest certifies of a broadcast

A prover hands the guest a blob, a commitment and a range.  Where the versioned
hash is that of a broadcast and the range begins where an entry does, the guest
commits the messages of the entry and nothing else, whatever end is declared
behind the entry and however the prover chose the rest.
-/

/-- The guest accepts an opening of a versioned hash to a blob. -/
def Opens
    (guest : GuestLibraries)
    (versionedHash : Bytes32)
    (blob : Bytes) : Prop :=
  ∃ commitment openingProof,
    bytes32Bytes versionedHash =
        0x01 :: (guest.sha256 commitment).drop 1 ∧
      guest.verifyBlobKzgProof blob commitment openingProof = some true

/-- An input that passes the assertions of the guest and names a broadcast and
an entry of it. -/
structure Broadcast.ProofInput
    (config : SystemConfig)
    (guest : GuestLibraries)
    (broadcast : Broadcast)
    (entry : PackedSubmitIncludedEntry)
    (input : BlobInput) : Prop where
  asserted : assertInput guest input = true
  versionedHash :
    input.versionedHash = config.commitToBlob broadcast.pack.blob
  contentTag : input.contentTag = entry.contentTag
  startFE : input.startFE.toNat = entry.startFE
  covers : entry.endFE ≤ input.endFE.toNat
  inBlob : input.endFE.toNat ≤ FIELD_ELEMENTS_PER_BLOB

/-- The public values of a message of an entry. -/
def DecodedMessage.publicValues
    (message : DecodedMessage)
    (input : BlobInput)
    (chainId : UInt64)
    (msgIndex : UInt32) : PublicValues where
  chainId := chainId
  versionedHash := input.versionedHash
  contentTag := input.contentTag
  startFE := input.startFE
  endFE := input.endFE
  blockNumber := input.blockNumber
  txIndex := input.txIndex
  msgIndex := msgIndex
  sender := addressBytes message.sender
  nonce := UInt64.ofNat message.nonce
  messageHash := message.messageHash

/-- The guest certifies exactly the messages of an entry, unless the prover has
opened the hash of the broadcast to another blob. -/
def Broadcast.Provable
    (config : SystemConfig)
    (guest : GuestLibraries)
    (broadcast : Broadcast) : Prop :=
  ∀ target chainId entry input,
    chainId.toNat = config.chainId →
    entry ∈ submittedEntries broadcast.pack →
    broadcast.ProofInput config guest entry input →
    (input.blobBytes ≠ broadcast.pack.blob ∧
      Opens guest (config.commitToBlob broadcast.pack.blob)
        input.blobBytes) ∨
    ∀ msgIndex values,
      guestMain guest target chainId input msgIndex = some values ↔
        ∃ message,
          entry.messages[msgIndex.toNat]? = some message ∧
            values = message.publicValues input chainId msgIndex

section Slices

variable {blob bytes : Bytes}
variable {startFE endFE : Nat}

/-- A later end leaves what comes before it. -/
theorem extractSegmentBytes_covers
    {laterFE : Nat}
    (extracted : extractSegmentBytes blob startFE endFE = .ok bytes)
    (covers : endFE ≤ laterFE)
    (inBlob : laterFE ≤ FIELD_ELEMENTS_PER_BLOB)
    (sized :
      blob.length = FIELD_ELEMENTS_PER_BLOB * BYTES_PER_FIELD_ELEMENT) :
    ∃ more,
      extractSegmentBytes blob startFE laterFE = .ok (bytes ++ more) := by
  have longEnough : ¬blob.length < laterFE * BYTES_PER_FIELD_ELEMENT := by
    rw [sized]
    exact Nat.not_lt.mpr (Nat.mul_le_mul_right _ inBlob)
  unfold extractSegmentBytes at extracted
  split at extracted
  · cases extracted
  split at extracted
  · cases extracted
  rename_i ordered
  split at extracted
  · cases extracted
  cases extracted
  have isRange :
      List.range' startFE (laterFE - startFE) =
        List.range' startFE (endFE - startFE) ++
          List.range' endFE (laterFE - endFE) := by
    have joined :=
      @List.range'_append startFE (endFE - startFE) (laterFE - endFE) 1
    rw [Nat.one_mul, Nat.add_sub_cancel' (by omega),
      show endFE - startFE + (laterFE - endFE) = laterFE - startFE by
        omega] at joined
    exact joined.symm
  refine ⟨(List.range' endFE (laterFE - endFE)).flatMap fun fe =>
    (blob.drop (fe * BYTES_PER_FIELD_ELEMENT + 1)).take
      USABLE_BYTES_PER_FIELD_ELEMENT, ?_⟩
  rw [extractSegmentBytes, if_neg (Nat.not_lt.mpr inBlob),
    if_neg (by omega), if_neg longEnough, isRange, List.flatMap_append]

end Slices

/-- What the assertions of the guest say of its input. -/
theorem assertInput_spec
    {guest : GuestLibraries}
    {input : BlobInput}
    (asserted : assertInput guest input = true) :
    bytes32Bytes input.versionedHash =
        0x01 :: (guest.sha256 input.commitment).drop 1 ∧
      input.blobBytes.length =
        FIELD_ELEMENTS_PER_BLOB * BYTES_PER_FIELD_ELEMENT ∧
      guest.verifyBlobKzgProof input.blobBytes input.commitment
        input.openingProof = some true := by
  simp only [assertInput, Bool.and_eq_true, decide_eq_true_eq]
    at asserted
  obtain ⟨⟨⟨⟨-, isVersion⟩, isHash⟩, sized⟩, accepted⟩ := asserted
  refine ⟨?_, sized, accepted⟩
  cases isBytes : bytes32Bytes input.versionedHash with
  | nil =>
      rw [isBytes] at isVersion
      cases isVersion
  | cons version rest =>
      rw [isBytes] at isVersion isHash
      exact congr (congrArg List.cons isVersion) isHash

section Entries

variable {config : SystemConfig}
variable {guest : GuestLibraries}
variable {target : Target}

/-- In an encoded batch the guest finds the messages that were encoded. -/
theorem finds_encodeBatchData
    (decompress : Bytes → Except BatchError Bytes)
    {messages : List DecodedMessage}
    {payload : Bytes}
    (encoded :
      encodeBatchData (messages.map DecodedMessage.toBAMMessage)
          (messages.map DecodedMessage.signature) =
        .ok payload)
    (small : payload.length ≤ USABLE_BYTES_PER_BLOB)
    {padding : Bytes}
    (fits : (payload ++ padding).length < target.maxSlice)
    {index : Nat}
    {carried : BAMMessage}
    {signature : Bytes} :
    (∃ msg, Finds target (payload ++ padding) index msg signature ∧
        msg.toBAMMessage = carried) ↔
      ∃ message,
        messages[index]? = some message ∧
          message.toBAMMessage = carried ∧
          message.signature = signature := by
  obtain ⟨plain, decoded⟩ :=
    decodeBatch_encodeBatchData decompress encoded small padding
  rw [Coprocessor.finds_iff_carriesAt decompress fits]
  constructor
  · rintro ⟨-, batch, isBatch, isMessage, isSignature⟩
    cases decoded.symm.trans isBatch
    rw [List.getElem?_map, Option.map_eq_some_iff] at isMessage isSignature
    obtain ⟨message, isAt, sameMessage⟩ := isMessage
    obtain ⟨other, isOther, sameSignature⟩ := isSignature
    cases isAt.symm.trans isOther
    exact ⟨message, isAt, sameMessage, sameSignature⟩
  · rintro ⟨message, isAt, rfl, rfl⟩
    refine ⟨plain, _, decoded, ?_, ?_⟩
    · rw [List.getElem?_map, isAt]
      rfl
    · rw [List.getElem?_map, isAt]
      rfl

/-- The public values of a found message are those of the message packed. -/
theorem publicValues_of_finds
    (agree : LibrariesAgree config.libraries.crypto guest)
    {segment signature : Bytes}
    {index : Nat}
    {msg : BamMessage}
    (finds : Finds target segment index msg signature)
    {input : BlobInput}
    {message : DecodedMessage}
    (signed :
      SignedMessage config input.contentTag message.toBAMMessage signature
        message.messageHash)
    (same : message.toBAMMessage = msg.toBAMMessage)
    (chainId : UInt64)
    (msgIndex : UInt32) :
    input.publicValues guest chainId msgIndex msg =
      message.publicValues input chainId msgIndex := by
  have isHash := finds.messageHash guest.keccak256 input.contentTag
  rw [agree.keccak256, ← same] at isHash
  have sameHash := Option.some.inj (isHash.symm.trans signed.hash)
  have isSender := finds.sender
  have isNonce : UInt64.ofNat msg.toBAMMessage.nonce = msg.nonce :=
    UInt64.ofNat_toNat
  rw [← same] at isSender isNonce
  rw [BlobInput.publicValues, agree.keccak256, sameHash, ← isSender,
    ← isNonce]
  rfl

/-- What a sendable pack has at an index of an entry is what the guest finds
there, whatever end is declared behind the entry. -/
theorem PackResult.Sendable.finds
    {pack : PackResult}
    (sendable : pack.Sendable config)
    {entry : PackedSubmitIncludedEntry}
    (isEntry : entry ∈ submittedEntries pack)
    {input : BlobInput}
    (isBlob : input.blobBytes = pack.blob)
    (sized :
      input.blobBytes.length =
        FIELD_ELEMENTS_PER_BLOB * BYTES_PER_FIELD_ELEMENT)
    (startFE : input.startFE.toNat = entry.startFE)
    (covers : entry.endFE ≤ input.endFE.toNat)
    (inBlob : input.endFE.toNat ≤ FIELD_ELEMENTS_PER_BLOB) :
    ∃ segment,
      Coprocessor.extractSegmentBytes target input.blobBytes
          input.startFE input.endFE = .ok segment ∧
        ∀ index carried signature,
          (∃ msg, Finds target segment index msg signature ∧
              msg.toBAMMessage = carried) ↔
            ∃ message,
              entry.messages[index]? = some message ∧
                message.toBAMMessage = carried ∧
                message.signature = signature := by
  obtain ⟨segment, included, rfl⟩ := List.mem_map.mp isEntry
  dsimp only at startFE covers ⊢
  obtain ⟨original, padding, selected, encoded, small, extracted⟩ :=
    sendable.sliced included
  obtain ⟨prepared, isPrepared⟩ := sendable.prepared
  obtain ⟨valid, -⟩ := prepareSubmission_ok isPrepared
  obtain ⟨ordered, -, -⟩ := validateSegments_ok valid included
  rw [← isBlob, ← startFE] at extracted
  obtain ⟨more, isSegment⟩ :=
    extractSegmentBytes_covers extracted covers inBlob sized
  rw [← startFE] at ordered
  obtain ⟨bytes, isRead, same⟩ :=
    Coprocessor.extractSegmentBytes_agrees target sized
      (Nat.lt_of_lt_of_le ordered covers) inBlob
  cases isSegment.symm.trans same
  rw [UInt16.ofNat_toNat, UInt16.ofNat_toNat] at isRead
  have fits := length_extractSegmentBytes target isSegment
  rw [List.append_assoc] at isRead fits
  refine ⟨_, isRead, fun index carried signature => ?_⟩
  rw [selected]
  exact finds_encodeBatchData config.libraries.decompress encoded small
    fits

/-- The guest certifies exactly the messages of an entry of a sendable
broadcast. -/
theorem provable_of_sendable
    {broadcast : Broadcast}
    (sendable : broadcast.pack.Sendable config)
    (agree : LibrariesAgree config.libraries.crypto guest) :
    broadcast.Provable config guest := by
  intro target chainId entry input ofChain isEntry proves
  obtain ⟨isHash, sized, accepted⟩ := assertInput_spec proves.asserted
  by_cases isBlob : input.blobBytes = broadcast.pack.blob
  · refine .inr fun msgIndex values => ?_
    obtain ⟨segment, isRead, finds⟩ :=
      @PackResult.Sendable.finds config target _ sendable _ isEntry _
        isBlob sized proves.startFE proves.covers proves.inBlob
    have signed :
        ∀ message,
          entry.messages[msgIndex.toNat]? = some message →
          SignedMessage config input.contentTag message.toBAMMessage
            message.signature message.messageHash := by
      intro message isAt
      rw [proves.contentTag]
      exact sendable.signed entry isEntry message
        (List.mem_of_getElem? isAt)
    rw [Coprocessor.guestMain_eq_some_iff]
    constructor
    · rintro ⟨-, found, msg, sig, isFound, isMsg, -, rfl⟩
      cases isRead.symm.trans isFound
      obtain ⟨message, isAt, same, rfl⟩ :=
        (finds _ _ _).mp ⟨msg, isMsg, rfl⟩
      exact ⟨message, isAt,
        publicValues_of_finds agree isMsg (signed message isAt) same
          chainId msgIndex⟩
    · rintro ⟨message, isAt, rfl⟩
      obtain ⟨msg, isMsg, same⟩ :=
        (finds _ _ _).mpr ⟨message, isAt, rfl, rfl⟩
      have isSigned := signed message isAt
      have inRange : message.toBAMMessage.nonce ≤ MAX_NONCE :=
        nonce_of_computeMessageHash isSigned.hash
      have verified := isSigned.verified
      rw [← ofChain] at verified
      have passes :=
        Coprocessor.verifiesEcdsa_of_verifyECDSA agree inRange verified
      rw [← same, isMsg.verifies] at passes
      exact ⟨proves.asserted, segment, msg, message.signature, isRead,
        isMsg, passes,
        (publicValues_of_finds agree isMsg isSigned same.symm chainId
          msgIndex).symm⟩
  · refine .inl ⟨isBlob, ?_⟩
    rw [proves.versionedHash] at isHash
    exact ⟨_, _, isHash, accepted⟩

end Entries

/-- In every run of a Poster with the default validator, the guest certifies of
every entry of a broadcast exactly the messages packed, each at its index,
unless the prover has opened the hash of the broadcast to another blob. -/
theorem broadcasts_provable
    {config : SystemConfig}
    (validates :
      config.ingest.validate =
        defaultEcdsaValidator config.libraries.crypto config.chainId)
    {guest : GuestLibraries}
    (agree : LibrariesAgree config.libraries.crypto guest)
    (events : List SharedEvent) :
    Runs.AllStates (sharedStep config)
      (fun world =>
        ∀ broadcast ∈ world.broadcasts.rows,
          broadcast.Provable config guest)
      World.initial events :=
  (deliverable_run validates events).mono
    fun _ holds broadcast member =>
      provable_of_sendable (holds.broadcasts broadcast member) agree

/-- A Poster with the default validator whose libraries the guest shares. -/
def provableConfig : SystemConfig :=
  { sampleConfig with
    libraries := Coprocessor.sampleLibraries
    ingest := {
      sampleConfig.ingest with
      validate :=
        defaultEcdsaValidator Coprocessor.sampleLibraries.crypto 1 }
    commitToBlob := fun _ => Coprocessor.sampleVersionedHash }

/-- A signed message, broadcast. -/
def provableRun : List SharedEvent :=
  [.poster (.ingest {
      byteLength := 200
      fields := some {
        contentTag := 5
        sender := Coprocessor.sampleMessage.sender
        nonce := 0
        contents := Coprocessor.sampleMessage.contents
        signature := Coprocessor.sampleSignature } } true 0),
    .poster (.tickStart 0), .poster (.tickSend 0 (.accepted 1))]

theorem broadcasts_provable_sample :
    (Runs.exec? (sharedStep provableConfig) World.initial
        provableRun).map
          (fun world =>
            world.broadcasts.rows.map fun broadcast =>
              (submittedEntries broadcast.pack).map fun entry =>
                entry.messages.map (·.sender)) =
        some [[[Coprocessor.sampleMessage.sender]]] ∧
      Runs.AllStates (sharedStep provableConfig)
        (fun world =>
          ∀ broadcast ∈ world.broadcasts.rows,
            broadcast.Provable provableConfig Coprocessor.sampleGuest)
        World.initial provableRun := by
  refine ⟨?_,
    broadcasts_provable rfl Coprocessor.sample_librariesAgree _⟩
  rw [@sharedStep_eq_sharedPlanStep provableConfig rfl rfl]
  decide +kernel

end Bam
