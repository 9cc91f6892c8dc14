import Bam.Reader.Emission
import Bam.System.Broadcasts
import Bam.System.Plans
import Bam.System.Receipts

namespace Bam

/-!
# From a broadcast to its Readers

A pack leaves the Poster as a blob and a call of `registerBlobBatches`.  The
contract logs the call, a scanner pairs the logs, and a Reader slices, decodes
and verifies.  With the default encoder, validator and addresses, every Reader
that is handed the blob finds in each segment the messages packed into it, all
of them and in order.
-/

/-- `defaultEcdsaValidator(chainId).validate`. -/
def defaultEcdsaValidator
    (crypto : CryptoLibraries)
    (chainId : Nat)
    (message : DecodedMessage) : Except PosterRejection Unit :=
  if verifyECDSA crypto message.toBAMMessage message.contentTag
      message.signature message.sender chainId then
    .ok ()
  else .error .bad_signature

/-- The `calls` argument of `registerBlobBatches`; all entries are in the one
blob of the transaction. -/
def PackResult.calls
    (pack : PackResult)
    (decoder signatureRegistry : Address) : List BlobBatchCall :=
  pack.plan.included.map fun segment =>
    { blobIndex := 0
      startFE := BitVec.ofNat 16 segment.startFE
      endFE := BitVec.ofNat 16 segment.endFE
      contentTag := segment.contentTag
      decoder := decoder
      signatureRegistry := signatureRegistry }

/-- A message under a tag with its hash and a signature of its sender. -/
structure SignedMessage
    (config : SystemConfig)
    (contentTag : Bytes32)
    (message : BAMMessage)
    (signature : Bytes)
    (messageHash : Bytes32) : Prop where
  hash :
    computeMessageHash config.keccak256 message.sender contentTag
      message.nonce message.contents = some messageHash
  verified :
    verifyECDSA config.libraries.crypto message contentTag signature
      message.sender config.chainId = true

def MessageRow.toBAMMessage (row : MessageRow) : BAMMessage where
  sender := row.sender
  nonce := row.nonce
  contents := row.contents

/-- The row of a signed message. -/
def MessageRow.Signed
    (config : SystemConfig)
    (row : MessageRow) : Prop :=
  SignedMessage config row.contentTag row.toBAMMessage row.signature
    row.messageHash

/-- A message of an entry, as its sender signed it. -/
def PackedSubmitIncludedEntry.Signs
    (config : SystemConfig)
    (entry : PackedSubmitIncludedEntry)
    (message : DecodedMessage) : Prop :=
  SignedMessage config entry.contentTag message.toBAMMessage
    message.signature message.messageHash

/-- A pack that passed the checks before the broadcast, with the batches it
encodes and the signatures it carries. -/
structure PackResult.Sendable
    (config : SystemConfig)
    (pack : PackResult) : Prop where
  prepared :
    ∃ prepared,
      prepareSubmission config.libraries.decompress config.commitToBlob
        pack = .ok prepared
  encoded :
    ∀ segment ∈ pack.plan.included,
      ∃ original,
        pack.selection? segment.contentTag = some original ∧
          encodeBatchData
              (original.messages.map DecodedMessage.toBAMMessage)
              (original.messages.map DecodedMessage.signature) =
            .ok original.payloadBytes ∧
          original.payloadBytes = segment.payloadBytes
  signed :
    ∀ entry ∈ submittedEntries pack,
      ∀ message ∈ entry.messages, entry.Signs config message

/-- Every row is of a signed message, and every pack on its way is sendable. -/
structure World.Deliverable
    (config : SystemConfig)
    (world : World) : Prop where
  rows :
    ∀ key row,
      world.store.message? key = some row → row.Signed config
  ticks : ∀ tick ∈ world.ticks, tick.pack.Sendable config
  broadcasts :
    ∀ broadcast ∈ world.broadcasts.rows,
      broadcast.pack.Sendable config

theorem deliverable_initial
    (config : SystemConfig) :
    World.initial.Deliverable config where
  rows := by
    intro key row found
    cases found
  ticks := by
    intro tick member
    cases member
  broadcasts := by
    intro broadcast member
    cases member

section Steps

variable {config : SystemConfig}
variable {world next : World}
variable {event : SharedEvent}

/-- What the default validator lets through is signed. -/
theorem signed_of_admissible
    (validates :
      config.ingest.validate =
        defaultEcdsaValidator config.libraries.crypto config.chainId)
    {message : DecodedMessage}
    (admissible : Admissible config.keccak256 config.ingest message) :
    SignedMessage config message.contentTag message.toBAMMessage
      message.signature message.messageHash where
  hash := admissible.hash
  verified := by
    have validated := admissible.validated
    rw [validates, defaultEcdsaValidator] at validated
    split at validated
    · assumption
    · cases validated

theorem signedRows_sharedStep
    (validates :
      config.ingest.validate =
        defaultEcdsaValidator config.libraries.crypto config.chainId)
    (deliverable : world.Deliverable config)
    (taken : sharedStep config world event = some next)
    {key : MessageKey}
    {row : MessageRow}
    (found : next.store.message? key = some row) :
    row.Signed config := by
  have isStep :
      systemStep config world (.shared event) = some next :=
    taken
  cases slotChange_systemStep isStep key with
  | same unchanged =>
      exact deliverable.rows key row (unchanged ▸ found)
  | ingested admissible isAccepted after overReorged =>
      cases after.symm.trans found
      exact signed_of_admissible validates admissible
  | confirmed isFound included recorded ofPack ofEntry ofSlot before
      sameHash unconfirmed after =>
      cases after.symm.trans found
      exact (deliverable.broadcasts _ (Table.mem_of_get? isFound)).signed
        _ ofPack _ ofEntry
  | marked isWatch before inTx isMarked after =>
      cases after.symm.trans found
      have signed := deliverable.rows key _ before
      exact signed
  | requeued isJudged before attached isMarked after =>
      cases after.symm.trans found
      rename_i judgement old seq
      have signed := deliverable.rows key old before
      rw [MessageRow.Signed, attached.2] at signed
      exact signed

/-- A planned pack that is prepared is sendable. -/
theorem sendable_of_planned
    (rows :
      ∀ key row,
        world.store.message? key = some row → row.Signed config)
    {pool : PoolView}
    {state after : AggregatorState}
    {now : Int}
    {pack : PackResult}
    {prepared : PreparedBlob}
    (read :
      snapshotPools world.store config.aggregator.tags = .ok pool)
    (ticked :
      aggregatorTick config.aggregator state { pool, now } =
        .ok (after, some pack))
    (isPrepared :
      prepareSubmission config.libraries.decompress config.commitToBlob
        pack = .ok prepared) :
    pack.Sendable config where
  prepared := ⟨prepared, isPrepared⟩
  encoded := by
    intro segment included
    obtain ⟨fired, passengers, planned⟩ := aggregatorTick_some ticked
    obtain ⟨original, selected, samePayload, -, encoded⟩ :=
      original_of_planned planned included
    exact ⟨original, selected, encoded, samePayload⟩
  signed := by
    intro entry isEntry message isMessage
    obtain ⟨row, inTable, ofTag, -, sameKey, sameContents, sameSignature,
        sameHash⟩ :=
      row_of_planned read ticked isEntry isMessage
    have signed := rows row.key row (Table.mem_rows_iff.mp inTable)
    have sameMessage : message.toBAMMessage = row.toBAMMessage := by
      obtain ⟨sameSender, sameNonce⟩ := Prod.mk.inj sameKey
      rw [DecodedMessage.toBAMMessage, sameSender, sameNonce,
        sameContents]
      rfl
    rw [PackedSubmitIncludedEntry.Signs, sameMessage, sameSignature,
      sameHash, ← ofTag]
    exact signed

theorem sendable_tickStart
    (deliverable : world.Deliverable config)
    {now : Int}
    {tick : PendingTick}
    (member : tick ∈ (world.tickStart config now).ticks) :
    tick.pack.Sendable config := by
  unfold World.tickStart at member
  split at member
  · exact deliverable.ticks tick member
  split at member
  · exact deliverable.ticks tick member
  rename_i pool read
  split at member
  · exact deliverable.ticks tick member
  · exact deliverable.ticks tick member
  rename_i state pack ticked
  split at member
  · exact deliverable.ticks tick member
  split at member
  · exact deliverable.ticks tick member
  rename_i prepared isPrepared
  rcases List.mem_append.mp member with before | isNew
  · exact deliverable.ticks tick before
  · rw [List.mem_singleton] at isNew
    subst isNew
    exact sendable_of_planned deliverable.rows read ticked isPrepared

theorem deliverable_sharedStep
    (validates :
      config.ingest.validate =
        defaultEcdsaValidator config.libraries.crypto config.chainId)
    (deliverable : world.Deliverable config)
    (taken : sharedStep config world event = some next) :
    next.Deliverable config where
  rows := fun key row found =>
    signedRows_sharedStep validates deliverable taken found
  ticks := by
    intro tick member
    rcases ticks_sharedStep taken member with
      before | ⟨-, -, ⟨now, rfl⟩, -⟩
    · exact deliverable.ticks tick before
    · cases taken
      exact sendable_tickStart deliverable member
  broadcasts := by
    intro broadcast member
    cases broadcastChange_sharedStep taken member with
    | kept before same =>
        rw [same.pack]
        exact deliverable.broadcasts _ before
    | confirmed before =>
        have sendable := deliverable.broadcasts _ before
        exact sendable
    | sent found =>
        exact deliverable.ticks _ (List.mem_of_getElem? found)

end Steps

section Pack

variable {config : SystemConfig}
variable {pack : PackResult}

/-- A submission that is prepared sends the blob of the pack, in ranges within
it, and every segment of it passed the self-check. -/
theorem prepareSubmission_ok
    {prepared : PreparedBlob}
    (isPrepared :
      prepareSubmission config.libraries.decompress config.commitToBlob
        pack = .ok prepared) :
    validatePackPlanInvariants pack.plan = .ok () ∧
      ∀ segment ∈ pack.plan.included,
        verifySegment config.libraries.decompress pack.blob segment
          (pack.selection? segment.contentTag) = .ok () := by
  unfold prepareSubmission at isPrepared
  split at isPrepared
  · cases isPrepared
  split at isPrepared
  · cases isPrepared
  rename_i valid
  split at isPrepared
  · cases isPrepared
  rename_i assembled assembles
  split at isPrepared
  · cases isPrepared
  split at isPrepared
  · cases isPrepared
  rename_i verified
  refine ⟨valid, ?_⟩
  rw [PackResult.blob, assembles]
  exact verifySegments_ok_iff.mp verified

/-- The range of a valid segment is in the blob and holds its payload. -/
theorem validateSegments_ok
    {lastEnd : Nat}
    {segments : List PackPlanIncluded}
    (valid : validateSegments lastEnd segments = .ok ())
    {segment : PackPlanIncluded}
    (included : segment ∈ segments) :
    segment.startFE < segment.endFE ∧
      segment.endFE ≤ FIELD_ELEMENTS_PER_BLOB ∧
      segment.payloadBytes.length ≤ USABLE_BYTES_PER_BLOB := by
  induction segments generalizing lastEnd with
  | nil =>
      cases included
  | cons first rest inductionHypothesis =>
      rw [validateSegments] at valid
      split at valid
      · cases valid
      rename_i inside
      split at valid
      · cases valid
      split at valid
      · cases valid
      rename_i holds
      rcases List.mem_cons.mp included with rfl | inRest
      · obtain ⟨bounded, ordered⟩ := not_or.mp inside
        refine ⟨Nat.lt_of_not_le ordered, Nat.le_of_not_lt bounded, ?_⟩
        have holds := Nat.le_of_not_lt holds
        have bounded := Nat.le_of_not_lt bounded
        simp only [FIELD_ELEMENTS_PER_BLOB, USABLE_BYTES_PER_BLOB,
          USABLE_BYTES_PER_FIELD_ELEMENT] at *
        omega
      · exact inductionHypothesis valid inRest

/-- The binary codec reads an encoded batch with padding behind it, and it is
not compressed. -/
theorem decodeBatch_encodeBatchData
    {messages : List BAMMessage}
    {signatures : List Bytes}
    {data : Bytes}
    (decompress : Bytes → Except BatchError Bytes)
    (encoded : encodeBatchData messages signatures = .ok data)
    (small : data.length ≤ USABLE_BYTES_PER_BLOB)
    (padding : Bytes) :
    (data ++ padding).getD 1 0 = CODEC_NONE ∧
      decodeBatch decompress (data ++ padding) =
        .ok { messages, signatures } := by
  unfold encodeBatchData at encoded
  split at encoded
  · cases encoded
  rename_i batch succeeded
  cases encoded
  have size := length_encodeBatch succeeded
  have short : estimateBatchSize messages ≤ MAX_UINT32 := by
    rw [← size]
    exact Nat.le_trans small (by decide)
  obtain ⟨-, -, -, payload, -, isData⟩ := encodeBatch_ok succeeded
  refine ⟨?_, decodeBatch_encodeBatch decompress succeeded short padding⟩
  rw [isData]
  rfl

/-- What the zstd bound and the binary codec make of an encoded batch with
padding behind it. -/
theorem decode_encodeBatchData
    {messages : List BAMMessage}
    {signatures : List Bytes}
    {data : Bytes}
    (decompress : Bytes → Except BatchError Bytes)
    (encoded : encodeBatchData messages signatures = .ok data)
    (small : data.length ≤ USABLE_BYTES_PER_BLOB)
    (padding : Bytes)
    (answer : DecoderAnswer) :
    decode decompress 0 (data ++ padding) answer =
      .ok { messages, signatures } := by
  obtain ⟨isPlain, decoded⟩ :=
    decodeBatch_encodeBatchData decompress encoded small padding
  have bounded : assertZstdWithinBound (data ++ padding) = .ok () := by
    unfold assertZstdWithinBound
    split
    · rfl
    · rw [isPlain, if_pos (by decide)]
  rw [decode, if_pos rfl, bounded]
  dsimp only
  rw [decoded]

/-- A segment of a sendable pack, sliced: an encoded batch and padding. -/
theorem PackResult.Sendable.sliced
    (sendable : pack.Sendable config)
    {segment : PackPlanIncluded}
    (included : segment ∈ pack.plan.included) :
    ∃ original padding,
      pack.selection? segment.contentTag = some original ∧
        encodeBatchData
            (original.messages.map DecodedMessage.toBAMMessage)
            (original.messages.map DecodedMessage.signature) =
          .ok original.payloadBytes ∧
        original.payloadBytes.length ≤ USABLE_BYTES_PER_BLOB ∧
        extractSegmentBytes pack.blob segment.startFE segment.endFE =
          .ok (original.payloadBytes ++ padding) := by
  obtain ⟨prepared, isPrepared⟩ := sendable.prepared
  obtain ⟨valid, verified⟩ := prepareSubmission_ok isPrepared
  obtain ⟨original, selected, encoded, samePayload⟩ :=
    sendable.encoded segment included
  obtain ⟨other, sliced, -, isOther, extracted, isHead, -⟩ :=
    verifySegment_ok_iff.mp (verified segment included)
  cases selected.symm.trans isOther
  have small := (validateSegments_ok valid included).2.2
  rw [← samePayload] at small
  have isSliced :
      sliced =
        original.payloadBytes ++
          sliced.drop original.payloadBytes.length := by
    conv_lhs => rw [← List.take_append_drop
      original.payloadBytes.length sliced, isHead]
  exact ⟨original, _, selected, encoded, small, isSliced ▸ extracted⟩

/-- A segment of a sendable pack, sliced and decoded. -/
theorem PackResult.Sendable.decodes
    (sendable : pack.Sendable config)
    {segment : PackPlanIncluded}
    (included : segment ∈ pack.plan.included)
    (answer : Bytes → DecoderAnswer) :
    ∃ original sliced,
      pack.selection? segment.contentTag = some original ∧
        extractSegmentBytes pack.blob segment.startFE segment.endFE =
          .ok sliced ∧
        decode config.libraries.decompress 0 sliced (answer sliced) =
          .ok {
            messages := original.messages.map DecodedMessage.toBAMMessage
            signatures :=
              original.messages.map DecodedMessage.signature } := by
  obtain ⟨original, padding, selected, encoded, small, extracted⟩ :=
    sendable.sliced included
  exact ⟨original, _, selected, extracted,
    decode_encodeBatchData _ encoded small _ _⟩

/-- What the verify loop keeps of a message at its index. -/
def DecodedMessage.verifiedAt
    (message : DecodedMessage)
    (index : Nat) : VerifiedEntry where
  message := message.toBAMMessage
  signature := message.signature
  indexWithinBatch := index
  messageHash := message.messageHash

/-- All messages of an entry, in order. -/
def PackedSubmitIncludedEntry.verified
    (entry : PackedSubmitIncludedEntry) : List VerifiedEntry :=
  entry.messages.zipIdx.map fun (message, index) =>
    message.verifiedAt index

/-- The verify loop keeps every signed message. -/
theorem verifyMessages_signed
    {opts : ProcessBatchOptions}
    (ofChain : opts.chainId = config.chainId)
    (zeroRegistry : opts.event.signatureRegistry = 0)
    {messages : List DecodedMessage}
    (signed :
      ∀ message ∈ messages,
        SignedMessage config opts.event.contentTag message.toBAMMessage
          message.signature message.messageHash)
    (index : Nat)
    (counters : ReaderCounters) :
    (verifyMessages config.libraries opts index
        ((messages.map DecodedMessage.toBAMMessage).zip
          (messages.map DecodedMessage.signature)) counters).2 =
      .ok ((messages.zipIdx index).map fun (message, position) =>
        message.verifiedAt position) := by
  induction messages generalizing index with
  | nil =>
      rfl
  | cons first rest inductionHypothesis =>
      obtain ⟨hashed, verified⟩ := signed first List.mem_cons_self
      have later :=
        inductionHypothesis
          (fun message member =>
            signed message (List.mem_cons_of_mem first member))
          (index + 1)
      rw [SystemConfig.keccak256] at hashed
      rw [List.map_cons, List.map_cons, List.zip_cons_cons,
        verifyMessages, hashed]
      dsimp only
      rw [verifyMessage, if_pos zeroRegistry, ofChain, if_pos verified]
      cases kept :
          verifyMessages config.libraries opts (index + 1)
            ((rest.map DecodedMessage.toBAMMessage).zip
              (rest.map DecodedMessage.signature)) counters with
      | mk after answer =>
          rw [kept] at later
          cases later
          rfl

/-- A call for a segment of a sendable pack reads the messages packed. -/
theorem PackResult.Sendable.reads
    (sendable : pack.Sendable config)
    {segment : PackPlanIncluded}
    (included : segment ∈ pack.plan.included)
    {opts : ProcessBatchOptions}
    (ofChain : opts.chainId = config.chainId)
    (ofTag : opts.event.contentTag = segment.contentTag)
    (zeroDecoder : opts.event.decoder = 0)
    (zeroRegistry : opts.event.signatureRegistry = 0)
    (isStart : opts.event.startFE = some segment.startFE)
    (isEnd : opts.event.endFE = some segment.endFE)
    (inRange : ValidRange (segment.startFE, segment.endFE))
    (fetched : opts.fetchBlob = some pack.blob) :
    ∃ entry ∈ submittedEntries pack,
      entry.contentTag = opts.event.contentTag ∧
        readSegment config.libraries opts = some entry.verified := by
  obtain ⟨original, sliced, selected, extracted, decoded⟩ :=
    sendable.decodes included opts.decodeAnswer
  have isEntry :
      { contentTag := segment.contentTag
        startFE := segment.startFE
        endFE := segment.endFE
        messages := original.messages } ∈ submittedEntries pack :=
    List.mem_map.mpr ⟨segment, included, by rw [selected]⟩
  refine ⟨_, isEntry, ofTag.symm, ?_⟩
  rw [ValidRange] at inRange
  have kept :=
    @verifyMessages_signed config opts ofChain zeroRegistry
      original.messages
      (fun message member => by
        rw [ofTag]
        exact sendable.signed _ isEntry message member)
      0 emptyCounters
  simp only [readSegment, isStart, isEnd, Option.getD_some, inRange,
    fetched, extracted, zeroDecoder, decoded]
  rw [kept]
  rfl

end Pack

/-- The transaction of a broadcast on a chain: it carries the blob of the pack
and calls the contract with the pack, under the default addresses. -/
structure Broadcast.Mined
    (config : SystemConfig)
    (broadcast : Broadcast)
    (tx : RegisteringTx)
    (chain : List ScannerLog) : Prop where
  logged : tx.Logged chain
  txHash : tx.transactionHash = broadcast.txHash
  calls : tx.calls = broadcast.pack.calls 0 0
  blobhash : tx.blobhash 0 = config.commitToBlob broadcast.pack.blob

/-- What a Reader makes of the events of a broadcast: there is one for each
entry under a tag it follows, and a call for any of them records the messages of
an entry, all of them, unless the blob sources hand out another blob with the
hash of the broadcast's own. -/
structure Broadcast.ReadFrom
    (config : SystemConfig)
    (broadcast : Broadcast)
    (contentTags : Option (List Bytes32))
    (events : List BlobBatchRegisteredEvent) : Prop where
  announced :
    ∀ entry ∈ submittedEntries broadcast.pack,
      selectsTag contentTags entry.contentTag = true →
      ∃ event ∈ events,
        event.txHash = broadcast.txHash ∧
          event.contentTag = entry.contentTag ∧
          event.startFE = some entry.startFE ∧
          event.endFE = some entry.endFE
  recorded :
    ∀ opts blob,
      opts.event ∈ events →
      opts.event.txHash = broadcast.txHash →
      opts.chainId = config.chainId →
      opts.fetchBlob = some blob →
      config.commitToBlob blob = opts.event.versionedHash →
      (blob ≠ broadcast.pack.blob ∧
        config.commitToBlob blob =
          config.commitToBlob broadcast.pack.blob) ∨
      ∃ entry ∈ submittedEntries broadcast.pack,
        entry.contentTag = opts.event.contentTag ∧
          ∀ store counters, ∃ result,
            (processBatch config.libraries opts store counters).2 =
              .ok (store.recordBatch
                (opts.batchRow config.libraries entry.verified)
                (opts.messageRows config.libraries entry.verified),
                result)

/-- However the broadcast is mined and scanned, it is read. -/
def Broadcast.Delivered
    (config : SystemConfig)
    (broadcast : Broadcast) : Prop :=
  ∀ tx chain contentTags getLogs chunkSize fromBlock toBlock events,
    broadcast.Mined config tx chain →
    AnswersTruthfully (askedLogs contentTags chain) getLogs →
    fromBlock ≤ tx.blockNumber →
    tx.blockNumber ≤ toBlock →
    scanLogs getLogs chunkSize fromBlock toBlock = .ok events →
    broadcast.ReadFrom config contentTags events

/-- The event of a planned segment. -/
theorem event_of_segment
    {config : SystemConfig}
    {broadcast : Broadcast}
    {tx : RegisteringTx}
    {chain : List ScannerLog}
    (mined : broadcast.Mined config tx chain)
    (sendable : broadcast.pack.Sendable config)
    {position : Nat}
    {call : BlobBatchCall}
    (isCall : tx.calls[position]? = some call) :
    ∃ segment ∈ broadcast.pack.plan.included,
      call.contentTag = segment.contentTag ∧
        call.decoder = 0 ∧
        call.signatureRegistry = 0 ∧
        tx.blobhash call.blobIndex =
          config.commitToBlob broadcast.pack.blob ∧
        call.startFE.toNat = segment.startFE ∧
        call.endFE.toNat = segment.endFE := by
  rw [mined.calls, PackResult.calls, List.getElem?_map] at isCall
  obtain ⟨segment, isSegment, rfl⟩ := Option.map_eq_some_iff.mp isCall
  have included := List.mem_of_getElem? isSegment
  obtain ⟨prepared, isPrepared⟩ := sendable.prepared
  obtain ⟨valid, -⟩ := prepareSubmission_ok isPrepared
  obtain ⟨ordered, bounded, -⟩ := validateSegments_ok valid included
  rw [FIELD_ELEMENTS_PER_BLOB] at bounded
  refine ⟨segment, included, rfl, rfl, rfl, mined.blobhash, ?_, ?_⟩
  · exact Nat.mod_eq_of_lt (by omega)
  · exact Nat.mod_eq_of_lt (by omega)

/-- A sendable broadcast is delivered. -/
theorem delivered_of_sendable
    {config : SystemConfig}
    {broadcast : Broadcast}
    (sendable : broadcast.pack.Sendable config) :
    broadcast.Delivered config := by
  intro tx chain contentTags getLogs chunkSize fromBlock toBlock events
    mined truthful from_le le_to returned
  have found :
      ∀ event,
        event ∈ events ∧ event.txHash = broadcast.txHash ↔
          ∃ position call,
            tx.calls[position]? = some call ∧
              selectsTag contentTags call.contentTag = true ∧
              event = tx.event position call := by
    intro event
    rw [← mined.txHash]
    exact mined.logged.mem_scanLogs_iff truthful from_le le_to returned
  constructor
  · intro entry isEntry asked
    obtain ⟨segment, included, rfl⟩ := List.mem_map.mp isEntry
    obtain ⟨position, isAt⟩ := List.mem_iff_getElem?.mp included
    have isCall :
        tx.calls[position]? =
          some {
            blobIndex := 0
            startFE := BitVec.ofNat 16 segment.startFE
            endFE := BitVec.ofNat 16 segment.endFE
            contentTag := segment.contentTag
            decoder := 0
            signatureRegistry := 0 } := by
      rw [mined.calls, PackResult.calls, List.getElem?_map, isAt]
      rfl
    obtain ⟨member, ofTx⟩ :=
      (found _).mpr ⟨position, _, isCall, asked, rfl⟩
    refine ⟨_, member, ofTx, rfl, ?_⟩
    obtain ⟨prepared, isPrepared⟩ := sendable.prepared
    obtain ⟨valid, -⟩ := prepareSubmission_ok isPrepared
    obtain ⟨ordered, bounded, -⟩ := validateSegments_ok valid included
    rw [FIELD_ELEMENTS_PER_BLOB] at bounded
    refine ⟨congrArg some ?_, congrArg some ?_⟩
    · exact Nat.mod_eq_of_lt (by omega)
    · exact Nat.mod_eq_of_lt (by omega)
  · intro opts blob member ofTx ofChain fetched authentic
    obtain ⟨position, call, isCall, -, isEvent⟩ :=
      (found opts.event).mp ⟨member, ofTx⟩
    obtain ⟨segment, included, ofTag, zeroDecoder, zeroRegistry,
        isHash, isStart, isEnd⟩ :=
      event_of_segment mined sendable isCall
    have versioned :
        opts.event.versionedHash =
          config.commitToBlob broadcast.pack.blob := by
      rw [isEvent]
      exact isHash
    -- The contract has checked the range the Reader checks.
    have inRange :=
      mined.logged.validRange (List.mem_of_getElem? isCall)
    rw [isStart, isEnd] at inRange
    by_cases isBlob : blob = broadcast.pack.blob
    · obtain ⟨entry, isEntry, ofEntry, read⟩ :=
        sendable.reads included ofChain
          (by rw [isEvent]; exact ofTag)
          (by rw [isEvent]; exact zeroDecoder)
          (by rw [isEvent]; exact zeroRegistry)
          (by rw [isEvent]; exact congrArg some isStart)
          (by rw [isEvent]; exact congrArg some isEnd)
          inRange (isBlob ▸ fetched)
      refine .inr ⟨entry, isEntry, ofEntry, fun store counters => ?_⟩
      have written :=
        processBatch_store config.libraries opts store counters
      rw [read] at written
      exact written.2
    · exact .inl ⟨isBlob, authentic.trans versioned⟩

/-- In every run all rows stay signed and all packs sendable. -/
theorem deliverable_run
    {config : SystemConfig}
    (validates :
      config.ingest.validate =
        defaultEcdsaValidator config.libraries.crypto config.chainId)
    (events : List SharedEvent) :
    Runs.AllStates (sharedStep config) (World.Deliverable config)
      World.initial events :=
  Runs.allStates_of_invariant
    (fun holds _ taken => deliverable_sharedStep validates holds taken)
    (deliverable_initial config)
    (@Runs.AllSteps.of_forall _ _ _ (fun _ _ => True)
      (fun _ _ => trivial) _ _)

/-- In every run of a Poster with the default encoder and validator beside a
Reader's watcher, every broadcast is delivered: a Reader that scans the block of
its transaction and is handed its blob records the messages packed, for each
entry all of them and in order. -/
theorem broadcasts_delivered
    {config : SystemConfig}
    (validates :
      config.ingest.validate =
        defaultEcdsaValidator config.libraries.crypto config.chainId)
    (events : List SharedEvent) :
    Runs.AllStates (sharedStep config)
      (fun world =>
        ∀ broadcast ∈ world.broadcasts.rows,
          broadcast.Delivered config)
      World.initial events :=
  (deliverable_run validates events).mono
    fun _ holds broadcast member =>
      delivered_of_sendable (holds.broadcasts broadcast member)

/-- Libraries that recover every signature to the account 7. -/
def signingLibraries : ReaderLibraries :=
  { sampleLibraries with
    crypto := {
      sampleLibraries.crypto with
      keccak256 := fun _ => 7
      recoverPublicKey := fun _ _ _ => some [] } }

/-- The sample Poster with the default validator. -/
def signingConfig : SystemConfig :=
  { sampleConfig with
    libraries := signingLibraries
    ingest := {
      sampleConfig.ingest with
      validate := defaultEcdsaValidator signingLibraries.crypto 1 } }

theorem broadcasts_delivered_signing :
    Runs.AllStates (sharedStep signingConfig)
      (fun world =>
        ∀ broadcast ∈ world.broadcasts.rows,
          broadcast.Delivered signingConfig)
      World.initial
      ([sampleRequest 5 0 [3], .tickStart 0, .tickSend 0 (.accepted 1)].map
        SharedEvent.poster) :=
  broadcasts_delivered rfl _

end Bam
