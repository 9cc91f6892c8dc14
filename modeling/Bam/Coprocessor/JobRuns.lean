import Bam.Coprocessor.Completeness

namespace Bam.Coprocessor

open Bytewise
open Usize

/-!
# Runs of the jobs

A Reader that changes between the ticks, and the two jobs over it.
-/

/-- The configuration of the service. -/
structure JobsConfig where
  host : CircuitHost
  forumTag : Bytes32
  validationBatchLimit : UInt32
  proofBatchLimit : UInt32

/-- The service and the Reader it reads. -/
structure ServiceState where
  reader : ReaderState
  validation : JobState ValidationRow ValidationRow.key
  proof : JobState ProofFullRow ProofFullRow.key

/-- The Reader changes, or a job ticks. -/
inductive ServiceStep where
  | reader (next : ReaderState)
  | validationTick (call : TickCall)
  | proofTick (call : TickCall)

/-- Nothing is confirmed and nothing recorded. -/
def ServiceState.initial : ServiceState where
  reader := {
    service := {
      store := Store.empty
      chainId := 0
      getBlob := fun _ => none }
    registered := [] }
  validation := JobState.empty
  proof := JobState.empty

namespace JobsConfig

variable (config : JobsConfig)

/-- `run_validation`. -/
def runValidation
    (state : ServiceState)
    (call : TickCall) : JobState ValidationRow ValidationRow.key :=
  runTick (validateOne config.host state.reader.service)
    state.reader.service config.forumTag config.validationBatchLimit call
    state.validation

/-- `run_proof`. -/
def runProof
    (state : ServiceState)
    (call : TickCall) : JobState ProofFullRow ProofFullRow.key :=
  runTick (proveOne config.host state.reader.service)
    state.reader.service config.forumTag config.proofBatchLimit call
    state.proof

/-- A step of the service. -/
def step (state : ServiceState) : ServiceStep → Option ServiceState
  | .reader next => some { state with reader := next }
  | .validationTick call =>
      some { state with validation := config.runValidation state call }
  | .proofTick call =>
      some { state with proof := config.runProof state call }

end JobsConfig

/-- The whole blob of an input has, at a candidate's index, a validly signed
message with the candidate's hash, whose nonce is below `2 ^ 63`. -/
def Reproduces
    (host : CircuitHost)
    (input : BlobInput)
    (candidate : Candidate) : Prop :=
  ∃ segment message signature,
    Bam.extractSegmentBytes input.blobBytes 0 FIELD_ELEMENTS_PER_BLOB =
        .ok segment ∧
      CarriesAt (fun _ => .error .decompression) segment
        candidate.msgIndex.toUInt32.toNat message signature ∧
      verifiesEcdsa host.guest message input.contentTag signature
        host.chainId = true ∧
      message.nonce < 2 ^ 63 ∧
      Bam.computeMessageHash host.guest.keccak256 message.sender
        input.contentTag message.nonce message.contents =
          some candidate.expectedMessageHash

/-- The batch row a candidate's transaction is looked up by is the candidate's
and has an archived blob that reproduces the candidate. -/
def Passes
    (host : CircuitHost)
    (service : ReaderService)
    (candidate : Candidate) : Prop :=
  ∃ batch input,
    Assembled host.kzg service candidate.batchRef input batch ∧
      input.blockNumber = candidate.blockNumber.toUInt64 ∧
      input.txIndex = candidate.txIndex.toUInt32 ∧
      Reproduces host input candidate

/-- What the jobs rely on: the guest accepts the proofs of the host, and an
execution has fewer than `2 ^ 63` cycles. -/
structure CircuitHost.Sound (host : CircuitHost) : Prop where
  kzg : KzgAgrees host.kzg host.guest
  cycles : ∀ input index, (host.totalCycles input index).toNat < 2 ^ 63

namespace JobState

variable {Row : Type} {key : Row → Int64 × Bytes32}

/-- A due message has no row. -/
def Behind
    (state : JobState Row key)
    (chainId : UInt64)
    (reader : ReaderState)
    (forumTag : Bytes32) : Prop :=
  ∃ row, reader.Due forumTag row ∧
    ¬state.Recorded chainId row.messageHash

/-- One of the candidates of a tick has no row, and it passes with every
candidate before it. -/
def Unblocked
    (state : JobState Row key)
    (host : CircuitHost)
    (reader : ReaderState)
    (forumTag : Bytes32)
    (limit : UInt32) : Prop :=
  ∃ leading candidate trailing,
    fetchCandidates reader.service forumTag state.watermark limit =
        some (leading ++ candidate :: trailing) ∧
      (∀ other ∈ leading ++ [candidate],
        Passes host reader.service other) ∧
      ¬state.Recorded host.chainId candidate.expectedMessageHash

/-- A job gets a row for a confirmed message that had none. -/
def Advances
    (state next : JobState Row key)
    (chainId : UInt64)
    (reader : ReaderState)
    (forumTag : Bytes32) : Prop :=
  ∃ row ∈ reader.service.confirmedMessages forumTag,
    ¬state.Recorded chainId row.messageHash ∧
      next.Recorded chainId row.messageHash

end JobState

namespace JobsConfig

variable (config : JobsConfig)

/-- Both jobs have a row for what the Reader owes at or below their
watermarks. -/
structure Complete (state : ServiceState) : Prop where
  validation :
    state.validation.Complete config.host.chainId
      (state.reader.Owes config.forumTag)
  proof :
    state.proof.Complete config.host.chainId
      (state.reader.Owes config.forumTag)

/-- A clean tick of a job that is behind advances it. -/
def Progresses (state : ServiceState) : ServiceStep → Prop
  | .reader _ => True
  | .validationTick call =>
      call.Clean →
      state.validation.Behind config.host.chainId state.reader
        config.forumTag →
      state.validation.Advances (config.runValidation state call)
        config.host.chainId state.reader config.forumTag
  | .proofTick call =>
      call.Clean →
      state.proof.Behind config.host.chainId state.reader
        config.forumTag →
      state.proof.Advances (config.runProof state call)
        config.host.chainId state.reader config.forumTag

/-- A Reader confirms no message in scope behind a watermark for the first time:
what it owes there was owed there in a state before. -/
def InOrder
    (watermark : ServiceState → Watermark)
    (visited : List ServiceState)
    (state : ServiceState)
    (next : ReaderState) : Prop :=
  ∀ messageHash position,
    next.Owes config.forumTag messageHash position →
    position ≤ (watermark state).sortKey →
    ∃ earlier ∈ state :: visited,
      earlier.reader.Owes config.forumTag messageHash position ∧
        position ≤ (watermark earlier).sortKey

/-- The Reader stays well placed and confirms in order, and a clean tick of a
job that is behind is not blocked. -/
def Allows
    (visited : List ServiceState)
    (state : ServiceState) : ServiceStep → Prop
  | .reader next =>
      next.WellPlaced config.forumTag ∧
        config.InOrder (·.validation.watermark) visited state next ∧
        config.InOrder (·.proof.watermark) visited state next
  | .validationTick call =>
      call.Clean →
      state.validation.Behind config.host.chainId state.reader
        config.forumTag →
      state.validation.Unblocked config.host state.reader
        config.forumTag config.validationBatchLimit
  | .proofTick call =>
      call.Clean →
      state.proof.Behind config.host.chainId state.reader
        config.forumTag →
      state.proof.Unblocked config.host state.reader config.forumTag
        config.proofBatchLimit

end JobsConfig

section Ticks

variable {host : CircuitHost}
variable {reader : ReaderState}
variable {forumTag : Bytes32}

/-- Public values whose numbers fit their columns have a row. -/
theorem toRow_ok
    {values : PublicValues}
    (inNonce : values.nonce.toNat < 2 ^ 63)
    {cycles : UInt64}
    (inCycles : cycles.toNat < 2 ^ 63) :
    ∃ row, values.toRow cycles = .ok row := by
  unfold PublicValues.toRow
  rw [if_neg (Nat.not_le.mpr inNonce), if_neg (Nat.not_le.mpr inCycles)]
  exact ⟨_, rfl⟩

/-- A candidate that passes is certified. -/
theorem certifyOne_of_passes
    (sound : host.Sound)
    {service : ReaderService}
    {candidate : Candidate}
    (passes : Passes host service candidate)
    {ensures : ApiBatch → Bool}
    (ensured :
      ∀ api : ApiBatch,
        api.blockNumber = some candidate.blockNumber.toUInt64 →
        api.txIndex = some candidate.txIndex.toUInt32 →
        ensures api = true) :
    ∃ found, certifyOne host service candidate ensures =
      .ok (some found) := by
  obtain ⟨batch, input, assembled, sameBlock, sameTx, segment, message,
    signature, extracted, carries, verified, inRange, isHash⟩ := passes
  obtain ⟨api, fetched, isBlock, isTx⟩ := assembled.fetched
  have isEnsured :=
    ensured api (isBlock.trans (congrArg some sameBlock))
      (isTx.trans (congrArg some sameTx))
  obtain ⟨values, ran, isNonce, sameHash⟩ :
      ∃ values,
        guestMain host.guest host.target host.chainId input
            candidate.msgIndex.toUInt32 = some values ∧
          values.nonce = UInt64.ofNat message.nonce ∧
          values.messageHash = candidate.expectedMessageHash :=
    ⟨_, (guestMain_whole_blob (fun _ => .error .decompression)
      (assembled.asserts sound.kzg) assembled.sized assembled.startFE
      assembled.endFE).mpr ⟨segment, message, signature, _, extracted,
        carries, verified, isHash, rfl⟩, rfl, rfl⟩
  have inNonce : values.nonce.toNat < 2 ^ 63 := by
    rw [isNonce, toNat_ofNat_nonce (nonce_of_computeMessageHash isHash)]
    exact inRange
  obtain ⟨row, made⟩ :=
    toRow_ok inNonce (sound.cycles input candidate.msgIndex.toUInt32)
  refine ⟨(input, values, row), ?_⟩
  simp only [certifyOne, fetched, isEnsured, Bool.true_eq_false, if_false,
    ran, sameHash, ne_eq, not_true_eq_false, made]
  rfl

/-- A candidate whose hash is not that of the circuit fails. -/
theorem validateOne_of_mismatch
    {service : ReaderService}
    {candidate : Candidate}
    {api : ApiBatch}
    {input : BlobInput}
    (fetched :
      fetchOneBatchReaderOnly host.kzg service
          (.txHash candidate.batchRef) = .ok (some (api, input)))
    {values : PublicValues}
    (ran :
      guestMain host.guest host.target host.chainId input
          candidate.msgIndex.toUInt32 = some values)
    (apart : values.messageHash ≠ candidate.expectedMessageHash) :
    validateOne host service candidate =
      .error (.messageHashMismatch values.messageHash
        candidate.expectedMessageHash) := by
  simp only [validateOne, certifyOne, fetched, Bool.true_eq_false,
    if_false, ran, if_pos apart]
  rfl

variable {Row : Type} {key : Row → Int64 × Bytes32}
variable {attempt :
  ReaderService → Candidate → Except JobError (Option (Row × Watermark))}

/-- A job records what the circuit certifies. -/
structure Certifies
    (host : CircuitHost)
    (key : Row → Int64 × Bytes32)
    (attempt :
      ReaderService → Candidate →
        Except JobError (Option (Row × Watermark))) : Prop where
  records :
    ∀ {reader : ReaderState} {forumTag : Bytes32},
      reader.WellPlaced forumTag →
      ∀ {candidate : Candidate} {watermark : Watermark}
        {row : MessageRow},
        row ∈ reader.service.confirmedMessages forumTag →
        candidate.IsOf watermark row →
        Records key (attempt reader.service) host.chainId candidate
  passes :
    ∀ {service : ReaderService} {candidate : Candidate},
      Passes host service candidate →
      ∃ found, attempt service candidate = .ok (some found)

theorem validateOne_certifies
    (sound : host.Sound) :
    Certifies host ValidationRow.key (validateOne host) where
  records := by
    intro reader forumTag placed candidate watermark row confirmed isOf
      made found attempted
    unfold validateOne at attempted
    cases certified : certifyOne host reader.service candidate
        (fun _ => true) with
    | error error =>
        rw [certified] at attempted
        cases attempted
    | ok answer =>
        rw [certified] at attempted
        cases answer with
        | none =>
            cases attempted
        | some parts =>
            cases attempted
            exact records_certifyOne placed confirmed isOf certified
  passes := by
    intro service candidate passes
    obtain ⟨found, certified⟩ :=
      certifyOne_of_passes sound passes (fun _ _ _ => rfl)
    unfold validateOne
    rw [certified]
    exact ⟨_, rfl⟩

theorem proveOne_certifies
    (sound : host.Sound) :
    Certifies host ProofFullRow.key (proveOne host) where
  records := by
    intro reader forumTag placed candidate watermark row confirmed isOf
      made found attempted
    unfold proveOne at attempted
    cases certified : certifyOne host reader.service candidate
        (fun api =>
          api.blockNumber = some candidate.blockNumber.toUInt64 &&
            api.txIndex = some candidate.txIndex.toUInt32) with
    | error error =>
        rw [certified] at attempted
        cases attempted
    | ok answer =>
        rw [certified] at attempted
        cases answer with
        | none =>
            cases attempted
        | some parts =>
            cases attempted
            exact records_certifyOne placed confirmed isOf certified
  passes := by
    intro service candidate passes
    obtain ⟨found, certified⟩ :=
      certifyOne_of_passes sound passes (fun api sameBlock sameTx =>
        Bool.and_eq_true_iff.mpr
          ⟨decide_eq_true sameBlock, decide_eq_true sameTx⟩)
    unfold proveOne
    rw [certified]
    exact ⟨_, rfl⟩

variable {limit : UInt32}
variable {call : TickCall}
variable {state : JobState Row key}

/-- A tick keeps a job complete. -/
theorem complete_runTick
    (certifies : Certifies host key attempt)
    (placed : reader.WellPlaced forumTag)
    (complete :
      state.Complete host.chainId (reader.Owes forumTag)) :
    (runTick (attempt reader.service) reader.service forumTag limit call
      state).Complete host.chainId (reader.Owes forumTag) := by
  unfold runTick
  split
  · exact complete
  cases fetched : fetchCandidates reader.service forumTag
      state.watermark limit with
  | none =>
      exact complete
  | some candidates =>
      refine complete_processCandidates ?_
        (accounts_fetchCandidates placed complete fetched) complete
      intro candidate member
      obtain ⟨row, confirmed, isOf⟩ :=
        (fetchCandidates_spec placed fetched).1 candidate member
      exact certifies.records placed confirmed isOf

/-- A clean tick that is not blocked advances its job. -/
theorem advances_runTick
    (certifies : Certifies host key attempt)
    (placed : reader.WellPlaced forumTag)
    (clean : call.Clean)
    (unblocked : state.Unblocked host reader forumTag limit) :
    state.Advances
      (runTick (attempt reader.service) reader.service forumTag limit call
        state) host.chainId reader forumTag := by
  obtain ⟨leading, candidate, trailing, fetched, passes, fresh⟩ :=
    unblocked
  have ofRow := (fetchCandidates_spec placed fetched).1
  obtain ⟨row, confirmed, isOf⟩ :=
    ofRow candidate (List.mem_append_right _ List.mem_cons_self)
  refine ⟨row, confirmed, isOf.messageHash ▸ fresh, ?_⟩
  rw [← isOf.messageHash]
  unfold runTick
  rw [clean.1, if_neg (by decide), fetched]
  refine processCandidates_records clean.2 ?_ ?_ state
  · intro other member
    have taken : other ∈ leading ++ candidate :: trailing := by
      rcases List.mem_append.mp member with before | isLast
      · exact List.mem_append_left _ before
      · rw [List.mem_singleton.mp isLast]
        exact List.mem_append_right _ List.mem_cons_self
    obtain ⟨found, isConfirmed, isOfFound⟩ := ofRow other taken
    exact certifies.records placed isConfirmed isOfFound
  · intro other member
    exact certifies.passes (passes other member)

/-- A tick whose first candidate fails changes nothing. -/
theorem runTick_of_failed
    {attempt :
      Candidate → Except JobError (Option (Row × Watermark))}
    {service : ReaderService}
    {candidate : Candidate}
    {rest : List Candidate}
    (fetched :
      fetchCandidates service forumTag state.watermark limit =
        some (candidate :: rest))
    {error : JobError}
    (failed : attempt candidate = .error error) :
    runTick attempt service forumTag limit call state = state := by
  unfold runTick
  split
  · rfl
  · rw [fetched]
    simp only [processCandidates, failed]
    cases call.answers candidate with
    | answered =>
        rfl
    | failed =>
        rfl
    | commitLost =>
        rfl

/-- A tick keeps every row. -/
theorem recorded_runTick
    {attempt :
      Candidate → Except JobError (Option (Row × Watermark))}
    {service : ReaderService}
    {messageHash : Bytes32}
    (recorded : state.Recorded host.chainId messageHash) :
    (runTick attempt service forumTag limit call state).Recorded
      host.chainId messageHash := by
  unfold runTick
  split
  · exact recorded
  split
  · exact recorded
  · exact recorded_processCandidates _ recorded

end Ticks

section Runs

variable {config : JobsConfig}

/-- A state has every row of the states visited before it. -/
structure ServiceState.Extends
    (chainId : UInt64)
    (state earlier : ServiceState) : Prop where
  validation :
    ∀ messageHash, earlier.validation.Recorded chainId messageHash →
      state.validation.Recorded chainId messageHash
  proof :
    ∀ messageHash, earlier.proof.Recorded chainId messageHash →
      state.proof.Recorded chainId messageHash

theorem extends_step
    {state next : ServiceState}
    {label : ServiceStep}
    (taken : config.step state label = some next) :
    next.Extends config.host.chainId state := by
  cases label with
  | reader changed =>
      cases taken
      exact ⟨fun _ recorded => recorded, fun _ recorded => recorded⟩
  | validationTick call =>
      cases taken
      exact ⟨fun _ recorded => recorded_runTick recorded,
        fun _ recorded => recorded⟩
  | proofTick call =>
      cases taken
      exact ⟨fun _ recorded => recorded,
        fun _ recorded => recorded_runTick recorded⟩

/-- What an allowed run keeps: its Reader is well placed, its jobs are complete,
and they were complete before and have kept their rows. -/
structure JobsConfig.Kept
    (config : JobsConfig)
    (visited : List ServiceState)
    (state : ServiceState) : Prop where
  placed : state.reader.WellPlaced config.forumTag
  complete : config.Complete state
  before :
    ∀ earlier ∈ visited,
      config.Complete earlier ∧
        state.Extends config.host.chainId earlier

theorem kept_initial : config.Kept [] ServiceState.initial where
  placed := {
    blocks := fun _ member => absurd member List.not_mem_nil
    txs := fun _ member => absurd member List.not_mem_nil
    indexes := fun _ member => absurd member List.not_mem_nil
    apart := fun _ due => absurd due.confirmed List.not_mem_nil
    batches := fun _ member => absurd member List.not_mem_nil }
  complete := {
    validation := by
      rintro _ _ ⟨_, due, -⟩
      exact absurd due.confirmed List.not_mem_nil
    proof := by
      rintro _ _ ⟨_, due, -⟩
      exact absurd due.confirmed List.not_mem_nil }
  before := fun _ member => absurd member List.not_mem_nil

/-- Jobs stay complete while the Reader changes in order: what it owes behind a
watermark was owed there before, and has had its row since. -/
theorem complete_of_inOrder
    {visited : List ServiceState}
    {state : ServiceState}
    (kept : config.Kept visited state)
    {next : ReaderState}
    (validation :
      config.InOrder (·.validation.watermark) visited state next)
    (proof : config.InOrder (·.proof.watermark) visited state next) :
    config.Complete { state with reader := next } where
  validation := by
    intro messageHash position owed below
    obtain ⟨earlier, member, owedThen, belowThen⟩ :=
      validation messageHash position owed below
    rcases List.mem_cons.mp member with rfl | visitedBefore
    · exact kept.complete.validation messageHash position owedThen
        belowThen
    · obtain ⟨complete, later⟩ := kept.before earlier visitedBefore
      exact later.validation messageHash
        (complete.validation messageHash position owedThen belowThen)
  proof := by
    intro messageHash position owed below
    obtain ⟨earlier, member, owedThen, belowThen⟩ :=
      proof messageHash position owed below
    rcases List.mem_cons.mp member with rfl | visitedBefore
    · exact kept.complete.proof messageHash position owedThen belowThen
    · obtain ⟨complete, later⟩ := kept.before earlier visitedBefore
      exact later.proof messageHash
        (complete.proof messageHash position owedThen belowThen)

theorem kept_step
    (sound : config.host.Sound)
    {visited : List ServiceState}
    {state next : ServiceState}
    {label : ServiceStep}
    (kept : config.Kept visited state)
    (allowed : config.Allows visited state label)
    (taken : config.step state label = some next) :
    config.Kept (state :: visited) next := by
  have complete := kept.complete
  have extended := extends_step taken
  have before :
      ∀ earlier ∈ state :: visited,
        config.Complete earlier ∧
          next.Extends config.host.chainId earlier := by
    intro earlier member
    rcases List.mem_cons.mp member with rfl | visitedBefore
    · exact ⟨complete, extended⟩
    · obtain ⟨completeThen, later⟩ := kept.before earlier visitedBefore
      exact ⟨completeThen,
        ⟨fun _ recorded =>
            extended.validation _ (later.validation _ recorded),
          fun _ recorded =>
            extended.proof _ (later.proof _ recorded)⟩⟩
  cases label with
  | reader changed =>
      cases taken
      obtain ⟨placed, validation, proof⟩ := allowed
      exact {
        placed := placed
        complete := complete_of_inOrder kept validation proof
        before := before }
  | validationTick call =>
      cases taken
      exact {
        placed := kept.placed
        complete := {
          validation :=
            complete_runTick (validateOne_certifies sound) kept.placed
              complete.validation
          proof := complete.proof }
        before := before }
  | proofTick call =>
      cases taken
      exact {
        placed := kept.placed
        complete := {
          validation := complete.validation
          proof :=
            complete_runTick (proveOne_certifies sound) kept.placed
              complete.proof }
        before := before }

theorem progresses_of_allows
    (sound : config.host.Sound)
    {visited : List ServiceState}
    {state : ServiceState}
    {label : ServiceStep}
    (kept : config.Kept visited state)
    (allowed : config.Allows visited state label) :
    config.Progresses state label := by
  cases label with
  | reader changed =>
      trivial
  | validationTick call =>
      intro clean behind
      exact advances_runTick (validateOne_certifies sound) kept.placed
        clean (allowed clean behind)
  | proofTick call =>
      intro clean behind
      exact advances_runTick (proveOne_certifies sound) kept.placed
        clean (allowed clean behind)

end Runs

/-- In every run of Reader changes and ticks in which the Reader stays well
placed, confirms in order, and blocks no tick, both jobs stay complete, and
every clean tick of a job that is behind advances it. -/
theorem jobs_complete
    (config : JobsConfig)
    (sound : config.host.Sound)
    {run : List ServiceStep}
    (allowed :
      Runs.AllStepsSince config.step config.Allows []
        ServiceState.initial run) :
    Runs.AllStates config.step config.Complete ServiceState.initial run ∧
      Runs.AllSteps config.step config.Progresses ServiceState.initial
        run := by
  constructor
  · exact (Runs.allStates_of_invariant_since (kept_step sound)
      kept_initial allowed).mono fun _ ⟨_, kept⟩ => kept.complete
  · exact @Runs.allSteps_of_invariant_since _ _ _ _ config.Allows _
      (kept_step sound) (progresses_of_allows sound) _ _ _ kept_initial
      allowed

def sampleHost : CircuitHost where
  guest := sampleGuest
  kzg := sampleKzg
  target := guestTarget
  chainId := 1
  totalCycles := fun _ _ => 0
  proveC1 := fun _ _ => []

theorem sampleHost_sound : sampleHost.Sound where
  kzg := sample_kzgAgrees
  cycles _ _ := (by decide : (0 : UInt64).toNat < 2 ^ 63)

def sampleJobs : JobsConfig where
  host := sampleHost
  forumTag := 5
  validationBatchLimit := 50
  proofBatchLimit := 1

/-- The row of a message in a batch of the whole blob. -/
def wholeBlobRow : MessageRow :=
  sampleRow FIELD_ELEMENTS_PER_BLOB

def wholeBlobBatch : BatchRow :=
  (sampleOptions FIELD_ELEMENTS_PER_BLOB).baseBatch

/-- A Reader that confirms the message. -/
def sampleReader : ReaderState where
  service := {
    store :=
      (Store.empty.upsertBatch wholeBlobBatch).putMessage wholeBlobRow
    chainId := 1
    getBlob := fun _ => some sampleBlob }
  registered := [(sampleOptions FIELD_ELEMENTS_PER_BLOB).event]

/-- The message, as a candidate. -/
def sampleCandidate : Candidate where
  blockNumber := 100
  txIndex := 0
  msgIndex := 0
  batchRef := 1
  expectedMessageHash := sampleEntry.messageHash

/-- A tick everything answers. -/
def cleanCall : TickCall where
  starts := true
  answers := fun _ => .answered

theorem confirmed_sampleReader :
    sampleReader.service.confirmedMessages 5 = [wholeBlobRow] := by
  decide +kernel

theorem fetchCandidates_sampleReader
    {limit : UInt32}
    (isLimit : limit = 50 ∨ limit = 1) :
    fetchCandidates sampleReader.service 5 Watermark.default limit =
      some [sampleCandidate] := by
  rcases isLimit with rfl | rfl
  · decide +kernel
  · decide +kernel

/-- The whole blob reproduces the message for every input made of it. -/
theorem reproduces_sampleBlob
    {input : BlobInput}
    (isBlob : input.blobBytes = sampleBlob)
    (isTag : input.contentTag = 5) :
    ∃ segment message signature,
      Bam.extractSegmentBytes input.blobBytes 0
          FIELD_ELEMENTS_PER_BLOB = .ok segment ∧
        CarriesAt (fun _ => .error .decompression) segment 0 message
          signature ∧
        verifiesEcdsa sampleGuest message input.contentTag signature 1 =
          true ∧
        message.nonce < 2 ^ 63 ∧
        Bam.computeMessageHash sampleGuest.keccak256 message.sender
          input.contentTag message.nonce message.contents =
            some sampleEntry.messageHash := by
  obtain ⟨padding, extracted⟩ :=
    extract_sampleBlob (by decide : 4 ≤ FIELD_ELEMENTS_PER_BLOB)
      (Nat.le_refl _)
  have decoded :=
    decodeBatch_encodeBatch (fun _ => .error .decompression)
      encode_sampleMessage (by decide) padding
  refine ⟨_, sampleMessage, sampleSignature, isBlob ▸ extracted,
    ⟨?_, _, decoded, rfl, rfl⟩, ?_, by decide, isTag ▸ rfl⟩
  · rw [List.getD_append _ _ _ _ (by decide)]
    rfl
  · rw [isTag]
    decide +kernel

theorem passes_sampleReader :
    Passes sampleHost sampleReader.service sampleCandidate :=
  ⟨wholeBlobBatch, sampleInput,
    assembled_sampleInput (by rfl) rfl rfl rfl rfl rfl rfl, rfl, rfl,
    reproduces_sampleBlob rfl rfl⟩

/-- A Reader whose confirmed messages are one row in its place. -/
theorem wellPlaced_sampleReader : sampleReader.WellPlaced 5 := by
  have only :
      ∀ row ∈ sampleReader.service.confirmedMessages 5,
        row = wholeBlobRow := by
    intro row member
    rw [confirmed_sampleReader] at member
    exact List.mem_singleton.mp member
  exact {
    blocks := by
      intro row member block isBlock
      cases only row member
      cases isBlock
      decide
    txs := by
      intro row member tx isTx
      cases only row member
      cases isTx
      decide
    indexes := by
      intro row member index isIndex
      cases only row member
      cases isIndex
      decide
    apart := by
      intro row due _ _ other member _
      rw [only row due.confirmed, only other member]
    batches := by
      intro row member txHash isRef batch isFirst
      cases only row member
      cases isRef
      cases isFirst
      exact ⟨rfl, rfl⟩ }

/-- A message is validated, lost by the Reader and confirmed again, and then
proved. -/
def reconfirmedRun : List ServiceStep :=
  [.reader sampleReader, .validationTick cleanCall,
    .reader ServiceState.initial.reader, .reader sampleReader,
    .proofTick cleanCall]

/-- Confirming the message again behind the watermark is in order. -/
theorem jobs_complete_reconfirmed :
    Runs.AllStates sampleJobs.step sampleJobs.Complete
        ServiceState.initial reconfirmedRun ∧
      Runs.AllSteps sampleJobs.step sampleJobs.Progresses
        ServiceState.initial reconfirmedRun := by
  have later :
      ∀ messageHash position,
        sampleReader.Owes 5 messageHash position →
        ¬ position ≤ Watermark.default.sortKey := by
    rintro messageHash position ⟨row, due, -, located⟩
    have member := due.confirmed
    rw [confirmed_sampleReader, List.mem_singleton] at member
    cases member
    cases located
    decide
  have nothing :
      ∀ messageHash position,
        ¬ ServiceState.initial.reader.Owes 5 messageHash position := by
    rintro messageHash position ⟨_, due, -⟩
    exact absurd due.confirmed List.not_mem_nil
  have passes :
      ∀ other ∈ [] ++ [sampleCandidate],
        Passes sampleHost sampleReader.service other := by
    intro other member
    cases List.mem_singleton.mp member
    exact passes_sampleReader
  refine jobs_complete sampleJobs sampleHost_sound
    ⟨⟨wellPlaced_sampleReader, ?_, ?_⟩, ?_,
      ⟨kept_initial.placed, ?_, ?_⟩, ⟨wellPlaced_sampleReader, ?_, ?_⟩, ?_,
      trivial⟩
  · exact fun messageHash position owed below =>
      absurd below (later messageHash position owed)
  · exact fun messageHash position owed below =>
      absurd below (later messageHash position owed)
  · exact fun _ _ => ⟨[], sampleCandidate, [],
      fetchCandidates_sampleReader (.inl rfl), passes,
      Bool.false_ne_true⟩
  · exact fun messageHash position owed =>
      absurd owed (nothing messageHash position)
  · exact fun messageHash position owed =>
      absurd owed (nothing messageHash position)
  · -- The tick's watermark is still the one the message lay behind.
    intro messageHash position owed below
    generalize sampleJobs.runValidation _ _ = validated at below ⊢
    exact ⟨_, List.mem_cons_of_mem _ List.mem_cons_self, owed, below⟩
  · exact fun messageHash position owed below =>
      absurd below (later messageHash position owed)
  · exact fun _ _ => ⟨[], sampleCandidate, [],
      fetchCandidates_sampleReader (.inr rfl), passes,
      Bool.false_ne_true⟩

/-- A batch of another decoder, registered a block earlier. -/
def decodedBatch : BatchRow :=
  { wholeBlobBatch with
    txHash := 2
    blockNumber := some 99 }

/-- The message that decoder reads of the same blob. -/
def decodedRow : MessageRow :=
  { wholeBlobRow with
    sender := 8
    messageHash :=
      0x81e10beb913c474a9b3733c6dc438db253f183492c2419775a4a4e47dc70b5d0
    batchRef := some 2
    blockNumber := some 99 }

def decodedCandidate : Candidate :=
  { sampleCandidate with
    blockNumber := 99
    batchRef := 2
    expectedMessageHash := decodedRow.messageHash }

/-- A Reader that confirms a message of a decoder before the sample. -/
def blockedReader : ReaderState where
  service := {
    store :=
      ((sampleReader.service.store.upsertBatch decodedBatch).putMessage
        decodedRow)
    chainId := 1
    getBlob := fun _ => some sampleBlob }
  registered :=
    [(sampleOptions FIELD_ELEMENTS_PER_BLOB).event,
      { (sampleOptions FIELD_ELEMENTS_PER_BLOB).event with
        txHash := 2
        blockNumber := 99
        decoder := 1 }]

theorem fetchCandidates_blockedReader :
    fetchCandidates blockedReader.service 5 Watermark.default 50 =
      some [decodedCandidate, sampleCandidate] := by
  decide +kernel

/-- The circuit has no other hash for the message of the decoder than that of
the message the SDK reads. -/
theorem validateOne_decodedCandidate :
    ∃ error,
      validateOne sampleHost blockedReader.service decodedCandidate =
        .error error := by
  have assembled :
      Assembled sampleKzg blockedReader.service 2
        (sampleInputAt 99) decodedBatch :=
    assembled_sampleInput (by rfl) rfl rfl rfl rfl rfl rfl
  obtain ⟨api, fetched, -⟩ := assembled.fetched
  obtain ⟨segment, message, signature, extracted, carries, verified, -,
    isHash⟩ :=
    @reproduces_sampleBlob (sampleInputAt 99) rfl rfl
  obtain ⟨values, ran, sameHash⟩ :
      ∃ values,
        guestMain sampleGuest guestTarget 1
            (sampleInputAt 99) 0 = some values ∧
          values.messageHash = sampleEntry.messageHash :=
    ⟨_, (guestMain_whole_blob (fun _ => .error .decompression)
      (assembled.asserts sample_kzgAgrees) assembled.sized
      assembled.startFE assembled.endFE).mpr
        ⟨segment, message, signature, _, extracted, carries, verified,
          isHash, rfl⟩, rfl⟩
  have apart :
      values.messageHash ≠ decodedCandidate.expectedMessageHash := by
    rw [sameHash]
    decide +kernel
  have isFetched :
      fetchOneBatchReaderOnly sampleHost.kzg blockedReader.service
          (.txHash decodedCandidate.batchRef) =
        .ok (some (api, (sampleInputAt 99))) :=
    fetched
  have hasRun :
      guestMain sampleHost.guest sampleHost.target sampleHost.chainId
          (sampleInputAt 99)
          decodedCandidate.msgIndex.toUInt32 = some values :=
    ran
  exact ⟨_, validateOne_of_mismatch isFetched hasRun apart⟩

theorem due_blockedReader : blockedReader.Due 5 wholeBlobRow where
  confirmed := by decide +kernel
  inScope := ⟨_, List.mem_cons_self, rfl, rfl, rfl, rfl, rfl, rfl⟩

/-- A confirmed message of another decoder stops the validation job at every
tick, before a message in scope. -/
theorem validation_blocked :
    ¬Runs.AllSteps sampleJobs.step sampleJobs.Progresses
      ServiceState.initial
      [.reader blockedReader, .validationTick cleanCall] := by
  rintro ⟨-, progresses, -⟩
  obtain ⟨row, -, -, recorded⟩ :=
    progresses ⟨rfl, fun _ => rfl⟩
      ⟨wholeBlobRow, due_blockedReader, Bool.false_ne_true⟩
  obtain ⟨error, failed⟩ := validateOne_decodedCandidate
  have stopped :
      sampleJobs.runValidation
          { ServiceState.initial with reader := blockedReader }
          cleanCall = JobState.empty :=
    runTick_of_failed fetchCandidates_blockedReader failed
  rw [stopped] at recorded
  exact Bool.false_ne_true recorded

end Bam.Coprocessor
