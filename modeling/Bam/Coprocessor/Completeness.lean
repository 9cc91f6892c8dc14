import Bam.Coprocessor.Jobs
import Bam.Lib.Runs

namespace Bam.Coprocessor

open Bytewise
open Usize

/-!
# What the jobs leave out

A message is owed when a batch of the forum with neither a decoder nor a
registry has it and the Reader confirms it.  A job is complete when it has a
row for every owed message at or below its watermark.
-/

/-- The chain coordinate of a row, where its three columns are set. -/
def position? (row : MessageRow) : Option (List Int) :=
  match row.blockNumber, row.txIndex, row.messageIndexWithinBatch with
  | some block, some tx, some index =>
      some [(block : Int), (tx : Int), (index : Int)]
  | _, _, _ => none

/-- A Reader, and the registrations its chain has. -/
structure ReaderState where
  service : ReaderService
  registered : List BlobBatchRegisteredEvent

namespace ReaderState

/-- A batch without decoder and registry has the row. -/
def InScope
    (reader : ReaderState)
    (row : MessageRow) : Prop :=
  ∃ event ∈ reader.registered,
    row.batchRef = some event.txHash ∧
      row.contentTag = event.contentTag ∧
      row.blockNumber = some event.blockNumber ∧
      row.txIndex = some event.txIndex ∧
      event.decoder = 0 ∧ event.signatureRegistry = 0

/-- The confirmed messages in scope. -/
structure Due
    (reader : ReaderState)
    (forumTag : Bytes32)
    (row : MessageRow) : Prop where
  confirmed : row ∈ reader.service.confirmedMessages forumTag
  inScope : reader.InScope row

/-- A due message and its coordinate. -/
def Owes
    (reader : ReaderState)
    (forumTag messageHash : Bytes32)
    (position : List Int) : Prop :=
  ∃ row, reader.Due forumTag row ∧ row.messageHash = messageHash ∧
    position? row = some position

/-- Coordinates fit the columns of the jobs, no confirmed message has the
coordinate of a due one, and the batch row a transaction is looked up by has the
coordinate of its messages. -/
structure WellPlaced
    (reader : ReaderState)
    (forumTag : Bytes32) : Prop where
  blocks :
    ∀ row ∈ reader.service.confirmedMessages forumTag,
      ∀ block, row.blockNumber = some block → block < 2 ^ 63
  txs :
    ∀ row ∈ reader.service.confirmedMessages forumTag,
      ∀ tx, row.txIndex = some tx → tx < 2 ^ 31
  indexes :
    ∀ row ∈ reader.service.confirmedMessages forumTag,
      ∀ index, row.messageIndexWithinBatch = some index →
        index < 2 ^ 31
  apart :
    ∀ row, reader.Due forumTag row →
      ∀ position, position? row = some position →
        ∀ other ∈ reader.service.confirmedMessages forumTag,
          position? other = some position → other = row
  batches :
    ∀ row ∈ reader.service.confirmedMessages forumTag,
      ∀ txHash, row.batchRef = some txHash →
        ∀ batch, reader.service.getBatch txHash = some batch →
          batch.blockNumber = row.blockNumber ∧
            batch.txIndex = row.txIndex

end ReaderState

namespace JobState

variable {Row : Type} {key : Row → Int64 × Bytes32}

/-- Every owed message at or below the watermark has a row. -/
def Complete
    (state : JobState Row key)
    (chainId : UInt64)
    (owes : Bytes32 → List Int → Prop) : Prop :=
  ∀ messageHash position, owes messageHash position →
    position ≤ state.watermark.sortKey →
    state.Recorded chainId messageHash

@[simp] theorem watermark_commit
    (state : JobState Row key)
    (row : Row)
    (watermark : Watermark) :
    (state.commit row watermark).watermark = watermark :=
  rfl

/-- A commit records its row and keeps the others. -/
theorem recorded_commit
    {state : JobState Row key}
    {row : Row}
    {watermark : Watermark}
    {chainId : UInt64}
    {messageHash : Bytes32} :
    (state.commit row watermark).Recorded chainId messageHash ↔
      key row = (chainId.toInt64, messageHash) ∨
        state.Recorded chainId messageHash :=
  Table.isSome_get?_insertNew

end JobState

section Loop

variable {Row : Type} {key : Row → Int64 × Bytes32}
variable {attempt :
  Candidate → Except JobError (Option (Row × Watermark))}
variable {answers : Candidate → Answer}
variable {chainId : UInt64}

/-- What is recorded for a candidate is its message, at its coordinate. -/
def Records
    (key : Row → Int64 × Bytes32)
    (attempt : Candidate → Except JobError (Option (Row × Watermark)))
    (chainId : UInt64)
    (candidate : Candidate) : Prop :=
  ∀ row watermark, attempt candidate = .ok (some (row, watermark)) →
    key row = (chainId.toInt64, candidate.expectedMessageHash) ∧
      watermark = candidate.coord

/-- A tick forgets nothing. -/
theorem recorded_processCandidates
    {messageHash : Bytes32}
    (candidates : List Candidate)
    {state : JobState Row key}
    (recorded : state.Recorded chainId messageHash) :
    (processCandidates attempt answers candidates state).Recorded
      chainId messageHash := by
  induction candidates generalizing state with
  | nil =>
      exact recorded
  | cons candidate rest inductionHypothesis =>
      unfold processCandidates
      split
      · exact inductionHypothesis
          (JobState.recorded_commit.mpr (.inr recorded))
      · exact JobState.recorded_commit.mpr (.inr recorded)
      · exact recorded

/-- Candidates account for what is owed up to each of them: it is recorded, or
it is that candidate or one before it. -/
def Accounts
    (owes : Bytes32 → List Int → Prop)
    (recorded : Bytes32 → Prop)
    (candidates : List Candidate) : Prop :=
  ∀ leading candidate trailing,
    candidates = leading ++ candidate :: trailing →
    ∀ messageHash position, owes messageHash position →
      position ≤ candidate.coord.sortKey →
      recorded messageHash ∨
        ∃ other ∈ leading ++ [candidate],
          other.expectedMessageHash = messageHash

/-- The loop keeps a job complete. -/
theorem complete_processCandidates
    {owes : Bytes32 → List Int → Prop}
    {candidates : List Candidate}
    (records :
      ∀ candidate ∈ candidates, Records key attempt chainId candidate)
    {state : JobState Row key}
    (accounts : Accounts owes (state.Recorded chainId) candidates)
    (complete : state.Complete chainId owes) :
    (processCandidates attempt answers candidates state).Complete
      chainId owes := by
  induction candidates generalizing state with
  | nil =>
      exact complete
  | cons candidate rest inductionHypothesis =>
      have committed :
          ∀ row watermark,
            attempt candidate = .ok (some (row, watermark)) →
            (state.commit row watermark).Complete chainId owes := by
        intro row watermark attempted messageHash position owed below
        obtain ⟨isKey, rfl⟩ :=
          records candidate List.mem_cons_self row watermark attempted
        rw [JobState.recorded_commit]
        rcases accounts [] candidate rest rfl messageHash position owed
          below with recorded | ⟨other, member, rfl⟩
        · exact .inr recorded
        · rw [List.nil_append, List.mem_singleton] at member
          exact .inl (member ▸ isKey)
      unfold processCandidates
      split
      · rename_i row watermark _ attempted
        refine inductionHypothesis
          (fun other member =>
            records other (List.mem_cons_of_mem _ member)) ?_
          (committed row watermark attempted)
        intro leading other trailing isSplit messageHash position owed
          below
        rw [JobState.recorded_commit]
        rcases accounts (candidate :: leading) other trailing
          (by rw [isSplit, List.cons_append]) messageHash position owed
          below with recorded | ⟨found, member, isHash⟩
        · exact .inl (.inr recorded)
        · rcases List.mem_cons.mp member with rfl | later
          · have isKey :=
              (records found List.mem_cons_self row watermark
                attempted).1
            exact .inl (.inl (isHash ▸ isKey))
          · exact .inr ⟨found, later, isHash⟩
      · rename_i row watermark _ attempted
        exact committed row watermark attempted
      · exact complete

/-- A loop whose candidates pass records each of them. -/
theorem processCandidates_records
    {leading trailing : List Candidate}
    {candidate : Candidate}
    (answered : ∀ other, answers other = .answered)
    (records :
      ∀ other ∈ leading ++ [candidate],
        Records key attempt chainId other)
    (passes :
      ∀ other ∈ leading ++ [candidate],
        ∃ found, attempt other = .ok (some found))
    (state : JobState Row key) :
    (processCandidates attempt answers
      (leading ++ candidate :: trailing) state).Recorded chainId
        candidate.expectedMessageHash := by
  induction leading generalizing state with
  | nil =>
      have member : candidate ∈ [] ++ [candidate] :=
        List.mem_singleton_self _
      obtain ⟨⟨row, watermark⟩, attempted⟩ := passes candidate member
      have isKey := (records candidate member row watermark attempted).1
      simp only [List.nil_append, processCandidates, answered,
        attempted]
      exact recorded_processCandidates trailing
        (JobState.recorded_commit.mpr (.inl isKey))
  | cons first rest inductionHypothesis =>
      obtain ⟨⟨row, watermark⟩, attempted⟩ :=
        passes first List.mem_cons_self
      simp only [List.cons_append, processCandidates, answered,
        attempted]
      exact inductionHypothesis
        (fun other member =>
          records other (List.mem_cons_of_mem _ member))
        (fun other member =>
          passes other (List.mem_cons_of_mem _ member)) _

end Loop

section Candidates

/-- A candidate is about a row past a watermark. -/
structure Candidate.IsOf
    (candidate : Candidate)
    (watermark : Watermark)
    (row : MessageRow) : Prop where
  position : position? row = some candidate.coord.sortKey
  batchRef : row.batchRef = some candidate.batchRef
  messageHash : candidate.expectedMessageHash = row.messageHash
  later : watermark.sortKey < candidate.coord.sortKey
  blockNumber :
    candidate.blockNumber = (UInt64.ofNat (row.blockNumber.getD 0)).toInt64
  txIndex :
    candidate.txIndex = (UInt32.ofNat (row.txIndex.getD 0)).toInt32

/-- The parse of a row keeps its columns. -/
theorem ApiMessage.ofRow?_eq_some
    {row : MessageRow}
    {message : ApiMessage}
    (parsed : ApiMessage.ofRow? row = some message) :
    message = {
      messageHash := row.messageHash
      batchRef := row.batchRef
      blockNumber := row.blockNumber.map UInt64.ofNat
      txIndex := row.txIndex.map UInt32.ofNat
      messageIndexWithinBatch :=
        row.messageIndexWithinBatch.map UInt32.ofNat } := by
  unfold ApiMessage.ofRow? at parsed
  simp only [bind, Option.bind_eq_some_iff, mapM_parseUnsigned, pure,
    Option.some.injEq] at parsed
  obtain ⟨_, ⟨rfl, -⟩, _, ⟨rfl, -⟩, _, ⟨rfl, -⟩, rfl⟩ := parsed
  rfl

variable {reader : ReaderState} {forumTag : Bytes32}

/-- The candidate of a listed row. -/
theorem candidate?_eq_some
    (placed : reader.WellPlaced forumTag)
    {row : MessageRow}
    (confirmed : row ∈ reader.service.confirmedMessages forumTag)
    {message : ApiMessage}
    (parsed : ApiMessage.ofRow? row = some message)
    {watermark : Watermark}
    {candidate : Candidate}
    (taken : message.candidate? watermark = some candidate) :
    candidate.IsOf watermark row := by
  cases ApiMessage.ofRow?_eq_some parsed
  unfold ApiMessage.candidate? at taken
  cases isBlock : row.blockNumber with
  | none =>
      simp [isBlock] at taken
  | some block =>
  cases isTx : row.txIndex with
  | none =>
      simp [isTx] at taken
  | some tx =>
  cases isIndex : row.messageIndexWithinBatch with
  | none =>
      simp [isIndex] at taken
  | some index =>
  simp only [isBlock, isTx, isIndex, Option.map_some] at taken
  split at taken
  · cases taken
  rename_i later
  obtain ⟨batchRef, isRef, rfl⟩ := Option.map_eq_some_iff.mp taken
  have inBlock := placed.blocks row confirmed block isBlock
  have inTx := placed.txs row confirmed tx isTx
  have inIndex := placed.indexes row confirmed index isIndex
  exact {
    position := by
      simp only [position?, isBlock, isTx, isIndex, Candidate.coord,
        Watermark.sortKey, UInt64.toInt64_ofNat', UInt32.toInt32_ofNat',
        Int64.toInt_ofNat_of_lt inBlock, Int32.toInt_ofNat_of_lt inTx,
        Int32.toInt_ofNat_of_lt inIndex]
    batchRef := isRef
    messageHash := rfl
    later := not_le.mp later
    blockNumber := by rw [isBlock]; rfl
    txIndex := by rw [isTx]; rfl }

/-- A listed row past the watermark has a candidate. -/
theorem candidate?_isSome
    (placed : reader.WellPlaced forumTag)
    {row : MessageRow}
    (confirmed : row ∈ reader.service.confirmedMessages forumTag)
    {message : ApiMessage}
    (parsed : ApiMessage.ofRow? row = some message)
    {watermark : Watermark}
    {position : List Int}
    (located : position? row = some position)
    (later : ¬position ≤ watermark.sortKey)
    {batchRef : Bytes32}
    (isRef : row.batchRef = some batchRef) :
    ∃ candidate, message.candidate? watermark = some candidate := by
  cases ApiMessage.ofRow?_eq_some parsed
  unfold position? at located
  split at located
  · rename_i block tx index isBlock isTx isIndex
    cases located
    have inBlock := placed.blocks row confirmed block isBlock
    have inTx := placed.txs row confirmed tx isTx
    have inIndex := placed.indexes row confirmed index isIndex
    unfold ApiMessage.candidate?
    simp only [isBlock, isTx, isIndex, Option.map_some, isRef,
      Watermark.sortKey, UInt64.toInt64_ofNat', UInt32.toInt32_ofNat',
      Int64.toInt_ofNat_of_lt inBlock, Int32.toInt_ofNat_of_lt inTx,
      Int32.toInt_ofNat_of_lt inIndex]
    exact ⟨_, if_neg later⟩
  · cases located

/-- Rows with coordinates are listed in their order. -/
theorem listOrder_lt
    {first second : MessageRow}
    {before after : List Int}
    (isFirst : position? first = some before)
    (isSecond : position? second = some after)
    (less : before < after) :
    first.listOrder < second.listOrder := by
  unfold position? at isFirst isSecond
  split at isFirst
  · rename_i block tx index isBlock isTx isIndex
    cases isFirst
    split at isSecond
    · rename_i block' tx' index' isBlock' isTx' isIndex'
      cases isSecond
      simp only [MessageRow.listOrder, isBlock, isTx, isIndex, isBlock',
        isTx', isIndex', Option.map_some, Table.ascNullsLast,
        List.cons_append, List.nil_append]
      simp only [List.cons_lt_cons_iff, List.not_lt_nil, and_false,
        or_false] at less ⊢
      rcases less with block | ⟨sameBlock, tx | ⟨sameTx, index⟩⟩
      · exact .inr ⟨trivial, .inl block⟩
      · exact .inr ⟨trivial, .inr ⟨sameBlock,
          .inr ⟨trivial, .inl tx⟩⟩⟩
      · exact .inr ⟨trivial, .inr ⟨sameBlock,
          .inr ⟨trivial, .inr ⟨sameTx, .inr ⟨trivial, .inl index⟩⟩⟩⟩⟩
    · cases isSecond
  · cases isFirst

/-- The images of a parse that succeeds are those of the items. -/
theorem mem_mapM
    {α β : Type}
    {parse : α → Option β}
    {items : List α}
    {images : List β}
    (parsed : items.mapM parse = some images) :
    (∀ image ∈ images, ∃ item ∈ items, parse item = some image) ∧
      ∀ item ∈ items, ∃ image ∈ images, parse item = some image := by
  induction items generalizing images with
  | nil =>
      cases parsed
      exact ⟨fun _ member => absurd member List.not_mem_nil,
        fun _ member => absurd member List.not_mem_nil⟩
  | cons first rest inductionHypothesis =>
      rw [List.mapM_cons] at parsed
      simp only [bind, Option.bind_eq_some_iff, pure,
        Option.some.injEq] at parsed
      obtain ⟨image, isImage, later, isLater, rfl⟩ := parsed
      obtain ⟨fromImages, fromItems⟩ := inductionHypothesis isLater
      constructor
      · intro other member
        rcases List.mem_cons.mp member with rfl | inLater
        · exact ⟨first, List.mem_cons_self, isImage⟩
        · obtain ⟨item, inRest, isOther⟩ := fromImages other inLater
          exact ⟨item, List.mem_cons_of_mem _ inRest, isOther⟩
      · intro item member
        rcases List.mem_cons.mp member with rfl | inRest
        · exact ⟨image, List.mem_cons_self, isImage⟩
        · obtain ⟨other, inLater, isOther⟩ := fromItems item inRest
          exact ⟨other, List.mem_cons_of_mem _ inLater, isOther⟩

/-- The candidates of a tick are about rows of the listing, they come in the
order of their coordinates, and each comes after those of the rows before its
own. -/
theorem fetchCandidates_spec
    (placed : reader.WellPlaced forumTag)
    {watermark : Watermark}
    {limit : UInt32}
    {candidates : List Candidate}
    (fetched :
      fetchCandidates reader.service forumTag watermark limit =
        some candidates) :
    (∀ candidate ∈ candidates,
        ∃ row ∈ reader.service.confirmedMessages forumTag,
          candidate.IsOf watermark row) ∧
      ∀ leading candidate trailing,
        candidates = leading ++ candidate :: trailing →
        ∀ row ∈ reader.service.confirmedMessages forumTag,
          ∀ position batchRef, position? row = some position →
            row.batchRef = some batchRef →
            ¬position ≤ watermark.sortKey →
            position < candidate.coord.sortKey →
            ∃ other ∈ leading,
              other.expectedMessageHash = row.messageHash := by
  obtain ⟨api, listed, rfl⟩ := Option.map_eq_some_iff.mp fetched
  obtain ⟨fromApi, fromPage⟩ := mem_mapM listed
  have ofRow :
      ∀ candidate ∈ api.filterMap (ApiMessage.candidate? watermark),
        ∃ row ∈ (reader.service.confirmedMessages forumTag).take
            LIST_LIMIT,
          candidate.IsOf watermark row := by
    intro candidate member
    obtain ⟨message, inApi, taken⟩ := List.mem_filterMap.mp member
    obtain ⟨row, inPage, parsed⟩ := fromApi message inApi
    exact ⟨row, inPage,
      candidate?_eq_some placed (List.mem_of_mem_take inPage) parsed
        taken⟩
  constructor
  · intro candidate member
    obtain ⟨row, inPage, isOf⟩ :=
      ofRow candidate (Table.mem_orderBy.mp (List.mem_of_mem_take member))
    exact ⟨row, List.mem_of_mem_take inPage, isOf⟩
  · intro leading candidate trailing isSplit row confirmed position
      batchRef located isRef later before
    have member : candidate ∈ leading ++ candidate :: trailing :=
      List.mem_append_right _ List.mem_cons_self
    rw [← isSplit] at member
    obtain ⟨own, inPage, isOf⟩ :=
      ofRow candidate (Table.mem_orderBy.mp (List.mem_of_mem_take member))
    have rowInPage :=
      Table.mem_take_of_lt (Table.orderBy_ordered _ _) inPage confirmed
        (listOrder_lt located isOf.position before)
    obtain ⟨message, inApi, parsed⟩ := fromPage row rowInPage
    obtain ⟨found, taken⟩ :=
      candidate?_isSome placed confirmed parsed located later isRef
    have isFound := candidate?_eq_some placed confirmed parsed taken
    have inOrder :
        found ∈ Table.orderBy (fun candidate => candidate.coord.sortKey)
          (api.filterMap (ApiMessage.candidate? watermark)) :=
      Table.mem_orderBy.mpr
        (List.mem_filterMap.mpr ⟨message, inApi, taken⟩)
    have less : found.coord.sortKey < candidate.coord.sortKey := by
      rw [← Option.some.inj (located.symm.trans isFound.position)]
      exact before
    have ordered :=
      Table.orderBy_ordered
        (fun candidate : Candidate => candidate.coord.sortKey)
        (api.filterMap (ApiMessage.candidate? watermark))
    have kept :=
      Table.mem_take_of_lt ordered member inOrder less
    rw [isSplit] at kept
    have pageOrdered :=
      ordered.sublist (List.take_sublist (batchLimit limit) _)
    rw [isSplit] at pageOrdered
    exact ⟨found, Table.mem_leading_of_lt pageOrdered kept less,
      isFound.messageHash⟩

/-- The candidates of a tick account for what a Reader owes, if the job is
complete. -/
theorem accounts_fetchCandidates
    (placed : reader.WellPlaced forumTag)
    {Row : Type}
    {key : Row → Int64 × Bytes32}
    {state : JobState Row key}
    {chainId : UInt64}
    (complete : state.Complete chainId (reader.Owes forumTag))
    {limit : UInt32}
    {candidates : List Candidate}
    (fetched :
      fetchCandidates reader.service forumTag state.watermark limit =
        some candidates) :
    Accounts (reader.Owes forumTag) (state.Recorded chainId)
      candidates := by
  obtain ⟨ofRow, inFront⟩ := fetchCandidates_spec placed fetched
  intro leading candidate trailing isSplit messageHash position owed below
  have owes := owed
  obtain ⟨row, due, rfl, located⟩ := owed
  by_cases old : position ≤ state.watermark.sortKey
  · exact .inl (complete row.messageHash position owes old)
  right
  rcases lt_or_eq_of_le below with before | same
  · obtain ⟨event, -, isRef, -⟩ := due.inScope
    obtain ⟨other, member, isHash⟩ :=
      inFront leading candidate trailing isSplit row due.confirmed
        position event.txHash located isRef old before
    exact ⟨other, List.mem_append_left _ member, isHash⟩
  · have member : candidate ∈ candidates :=
      isSplit ▸ List.mem_append_right _ List.mem_cons_self
    obtain ⟨own, confirmed, isOf⟩ := ofRow candidate member
    cases placed.apart row due position located own confirmed
      (same ▸ isOf.position)
    exact ⟨candidate,
      List.mem_append_right _ (List.mem_singleton_self _),
      isOf.messageHash⟩

end Candidates

section Attempts

variable {host : CircuitHost}
variable {service : ReaderService}
variable {candidate : Candidate}

/-- A candidate that is certified comes from an assembled input, which the
guest runs on. -/
theorem certifyOne_eq_some
    {ensures : ApiBatch → Bool}
    {input : BlobInput}
    {values : PublicValues}
    {row : ValidationRow}
    (certified :
      certifyOne host service candidate ensures =
        .ok (some (input, values, row))) :
    (∃ batch,
        Assembled host.kzg service candidate.batchRef input batch) ∧
      guestMain host.guest host.target host.chainId input
          candidate.msgIndex.toUInt32 = some values ∧
      values.messageHash = candidate.expectedMessageHash ∧
      values.toRow (host.totalCycles input
        candidate.msgIndex.toUInt32) = .ok row := by
  unfold certifyOne at certified
  split at certified
  · cases certified
  · cases certified
  rename_i api fetchedInput fetched
  split at certified
  · cases certified
  split at certified
  · cases certified
  rename_i found ran
  split at certified
  · cases certified
  rename_i sameHash
  cases isRow : found.toRow (host.totalCycles fetchedInput
      candidate.msgIndex.toUInt32) with
  | error error =>
      rw [isRow] at certified
      cases certified
  | ok made =>
      rw [isRow] at certified
      cases certified
      exact ⟨assembled_of_fetch fetched, ran, not_not.mp sameHash, isRow⟩

/-- The key of a row names its message. -/
theorem PublicValues.key_toRow
    {values : PublicValues}
    {cycles : UInt64}
    {row : ValidationRow}
    (made : values.toRow cycles = .ok row) :
    row.key = (values.chainId.toInt64, values.messageHash) := by
  unfold PublicValues.toRow at made
  split at made
  · cases made
  split at made
  · cases made
  cases made
  rfl

/-- A certified candidate of a well placed Reader is recorded at its own
coordinate. -/
theorem records_certifyOne
    {reader : ReaderState}
    {forumTag : Bytes32}
    (placed : reader.WellPlaced forumTag)
    {watermark : Watermark}
    {message : MessageRow}
    (confirmed :
      message ∈ reader.service.confirmedMessages forumTag)
    (isOf : candidate.IsOf watermark message)
    {ensures : ApiBatch → Bool}
    {input : BlobInput}
    {values : PublicValues}
    {row : ValidationRow}
    (certified :
      certifyOne host reader.service candidate ensures =
        .ok (some (input, values, row))) :
    row.key = (host.chainId.toInt64, candidate.expectedMessageHash) ∧
      values.watermark = candidate.coord := by
  obtain ⟨⟨batch, assembled⟩, ran, sameHash, made⟩ :=
    certifyOne_eq_some certified
  obtain ⟨-, _, msg, _, -, -, -, rfl⟩ := guestMain_eq_some_iff.mp ran
  obtain ⟨sameBlock, sameTx⟩ :=
    placed.batches message confirmed candidate.batchRef isOf.batchRef
      batch assembled.isFirst
  rw [assembled.blockNumber] at sameBlock
  rw [assembled.txIndex] at sameTx
  constructor
  · rw [PublicValues.key_toRow made, sameHash]
    rfl
  · simp only [PublicValues.watermark, BlobInput.publicValues,
      Candidate.coord, isOf.blockNumber, isOf.txIndex, ← sameBlock,
      ← sameTx, Option.getD_some, UInt64.ofNat_toNat,
      UInt32.ofNat_toNat, Int32.toInt32_toUInt32]

end Attempts

end Bam.Coprocessor
