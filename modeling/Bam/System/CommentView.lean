import Bam.Comments.PosterReader
import Bam.Poster.Surfaces
import Bam.System.Acceptance
import Bam.System.Pending

namespace Bam

/-!
# What a comment thread shows

A poll of the widget reads the pending messages from the Poster and then the
confirmed ones from the Reader, over one store that moves on in between.  An
accepted comment stands in one of the two listings, as long as no transaction is
marked between them and none of them is cut off by its limit.
-/

/-- What the hash of a message is about, and the hash. -/
structure MessageData where
  sender : Address
  nonce : Nat
  contentTag : Bytes32
  contents : Bytes
  messageHash : Bytes32
  deriving Repr, DecidableEq

def DecodedMessage.data (message : DecodedMessage) : MessageData where
  sender := message.sender
  nonce := message.nonce
  contentTag := message.contentTag
  contents := message.contents
  messageHash := message.messageHash

def MessageRow.data (row : MessageRow) : MessageData where
  sender := row.sender
  nonce := row.nonce
  contentTag := row.contentTag
  contents := row.contents
  messageHash := row.messageHash

/-- A message of an entry, under the tag of the entry. -/
def PackedSubmitIncludedEntry.data
    (entry : PackedSubmitIncludedEntry)
    (message : DecodedMessage) : MessageData :=
  { message.data with contentTag := entry.contentTag }

/-- The messages that ingest has answered `accepted` to. -/
def World.acceptedData (world : World) : List MessageData :=
  world.accepted.map DecodedMessage.data

/-- All messages of a pack have been accepted. -/
def PackResult.OfAccepted
    (world : World)
    (pack : PackResult) : Prop :=
  ∀ entry ∈ submittedEntries pack,
    ∀ message ∈ entry.messages, entry.data message ∈ world.acceptedData

/-- The columns that `mapPending` asks for. -/
def MessageRow.Stamped (row : MessageRow) : Prop :=
  row.chainId.isSome ∧ row.ingestedAt.isSome ∧ row.ingestSeq.isSome

/-- What is stored or on its way is accepted messages, with their hashes, and
every row can be listed. -/
structure World.Spelled
    (config : SystemConfig)
    (world : World) : Prop where
  hashed :
    ∀ data ∈ world.acceptedData,
      computeMessageHash config.keccak256 data.sender data.contentTag
        data.nonce data.contents = some data.messageHash
  rows :
    ∀ key row,
      world.store.message? key = some row →
        row.data ∈ world.acceptedData ∧ row.Stamped
  ticks : ∀ tick ∈ world.ticks, tick.pack.OfAccepted world
  broadcasts :
    ∀ broadcast ∈ world.broadcasts.rows,
      broadcast.pack.OfAccepted world

theorem spelled_initial
    (config : SystemConfig) :
    World.initial.Spelled config where
  hashed := nofun
  rows := by
    intro key row found
    cases found
  ticks := nofun
  broadcasts := by
    intro broadcast member
    cases member

section Steps

variable {config : SystemConfig}
variable {world next : World}
variable {event : SharedEvent}

theorem acceptedData_sharedStep
    (taken : sharedStep config world event = some next)
    {data : MessageData}
    (member : data ∈ world.acceptedData) :
    data ∈ next.acceptedData := by
  obtain ⟨message, isAccepted, rfl⟩ := List.mem_map.mp member
  have isStep :
      systemStep config world (.shared event) = some next :=
    taken
  exact List.mem_map_of_mem (accepted_systemStep isStep isAccepted)

theorem PackResult.OfAccepted.step
    {pack : PackResult}
    (ofAccepted : pack.OfAccepted world)
    (taken : sharedStep config world event = some next) :
    pack.OfAccepted next :=
  fun entry isEntry message isMessage =>
    acceptedData_sharedStep taken
      (ofAccepted entry isEntry message isMessage)

/-- Accepted messages have their hash. -/
theorem hashed_sharedStep
    (spelled : world.Spelled config)
    (taken : sharedStep config world event = some next)
    {data : MessageData}
    (member : data ∈ next.acceptedData) :
    computeMessageHash config.keccak256 data.sender data.contentTag
      data.nonce data.contents = some data.messageHash := by
  by_cases isIngest :
      ∃ raw withinRateLimit now,
        event = .poster (.ingest raw withinRateLimit now)
  · obtain ⟨raw, withinRateLimit, now, rfl⟩ := isIngest
    cases taken
    rw [World.acceptedData] at member
    rcases ingest_cases config world raw withinRateLimit now with
      same | ⟨decoded, _, result, -, -, -, hashed, -, isNext⟩
    · rw [same] at member
      exact spelled.hashed data member
    · rw [isNext] at member
      cases result with
      | accepted messageHash =>
          rcases List.mem_cons.mp member with isNew | before
          · subst isNew
            exact hashed
          · exact spelled.hashed data before
      | rejected reason =>
          exact spelled.hashed data member
  · rw [World.acceptedData, accepted_sharedStep taken
      fun raw withinRateLimit now same =>
        isIngest ⟨raw, withinRateLimit, now, same⟩] at member
    exact spelled.hashed data member

/-- A row is an accepted message, whichever step wrote it. -/
theorem spelledRows_sharedStep
    (spelled : world.Spelled config)
    (taken : sharedStep config world event = some next)
    {key : MessageKey}
    {row : MessageRow}
    (found : next.store.message? key = some row) :
    row.data ∈ next.acceptedData ∧ row.Stamped := by
  have isStep :
      systemStep config world (.shared event) = some next :=
    taken
  cases slotChange_systemStep isStep key with
  | same unchanged =>
      obtain ⟨member, stamped⟩ := spelled.rows key row (unchanged ▸ found)
      exact ⟨acceptedData_sharedStep taken member, stamped⟩
  | ingested admissible isAccepted after overReorged =>
      cases after.symm.trans found
      exact ⟨List.mem_map_of_mem isAccepted, rfl, rfl, rfl⟩
  | confirmed isFound included recorded ofPack ofEntry ofSlot before
      sameHash unconfirmed after =>
      cases after.symm.trans found
      have accepted :=
        spelled.broadcasts _ (Table.mem_of_get? isFound) _ ofPack _
          ofEntry
      exact ⟨acceptedData_sharedStep taken accepted,
        rfl, (spelled.rows key _ before).2.2⟩
  | marked isWatch before inTx isMarked after =>
      cases after.symm.trans found
      obtain ⟨member, stamped⟩ := spelled.rows key _ before
      exact ⟨acceptedData_sharedStep taken member, stamped⟩
  | requeued isJudged before attached isMarked after =>
      cases after.symm.trans found
      rename_i judgement old seq
      obtain ⟨member, -⟩ := spelled.rows key old before
      rw [MessageRow.data, attached.2] at member
      exact ⟨acceptedData_sharedStep taken member, rfl, rfl, rfl⟩

/-- A tick plans the rows it has read. -/
theorem ofAccepted_tickStart
    (spelled : world.Spelled config)
    {now : Int}
    {tick : PendingTick}
    (member : tick ∈ (world.tickStart config now).ticks) :
    tick.pack.OfAccepted world := by
  unfold World.tickStart at member
  split at member
  · exact spelled.ticks tick member
  split at member
  · exact spelled.ticks tick member
  rename_i pool read
  split at member
  · exact spelled.ticks tick member
  · exact spelled.ticks tick member
  rename_i state pack ticked
  split at member
  · exact spelled.ticks tick member
  split at member
  · exact spelled.ticks tick member
  rcases List.mem_append.mp member with before | isNew
  · exact spelled.ticks tick before
  · rw [List.mem_singleton] at isNew
    subst isNew
    intro entry isEntry message isMessage
    obtain ⟨row, inTable, ofTag, -, sameKey, sameContents, -,
        sameHash⟩ :=
      row_of_planned read ticked isEntry isMessage
    have isRow :=
      (spelled.rows row.key row (Table.mem_rows_iff.mp inTable)).1
    obtain ⟨sameSender, sameNonce⟩ := Prod.mk.inj sameKey
    rw [PackedSubmitIncludedEntry.data, DecodedMessage.data, sameSender,
      sameNonce, sameContents, sameHash, ← ofTag]
    exact isRow

theorem spelled_sharedStep
    (spelled : world.Spelled config)
    (taken : sharedStep config world event = some next) :
    next.Spelled config where
  hashed := fun data member => hashed_sharedStep spelled taken member
  rows := fun key row found => spelledRows_sharedStep spelled taken found
  ticks := by
    intro tick member
    rcases ticks_sharedStep taken member with
      before | ⟨-, -, ⟨now, rfl⟩, -⟩
    · exact (spelled.ticks tick before).step taken
    · have planned : tick.pack.OfAccepted world := by
        cases taken
        exact ofAccepted_tickStart spelled member
      exact planned.step taken
  broadcasts := by
    intro broadcast member
    cases broadcastChange_sharedStep taken member with
    | kept before same =>
        rw [same.pack]
        exact (spelled.broadcasts _ before).step taken
    | confirmed before =>
        exact (spelled.broadcasts _ before).step taken
    | sent found =>
        exact (spelled.ticks _ (List.mem_of_getElem? found)).step taken

/-- Marks stay. -/
theorem marks_le_sharedStep
    (taken : sharedStep config world event = some next) :
    world.marks.length ≤ next.marks.length := by
  rcases marks_sharedStep taken with same | ⟨mark, marks, -⟩
  · rw [same]
  · rw [marks, List.length_cons]
    exact Nat.le_succ _

/-- A confirmed row is left alone where nothing is marked. -/
theorem confirmedKept_sharedStep
    (ledger : world.Ledger config)
    (taken : sharedStep config world event = some next)
    (unmarked : next.marks = world.marks)
    {key : MessageKey}
    {row : MessageRow}
    (found : world.store.message? key = some row)
    (confirmed : row.status = .confirmed) :
    next.store.message? key = some row := by
  have isStep :
      systemStep config world (.shared event) = some next :=
    taken
  obtain ⟨broadcast, -, -, isRef, -, notMarked⟩ :=
    ledger.confirmedRows key row found confirmed
  have sameMarked : next.marked = world.marked := by
    rw [World.marked, unmarked, World.marked]
  cases slotChange_systemStep isStep key with
  | same unchanged =>
      exact unchanged.trans found
  | ingested admissible isAccepted after overReorged =>
      cases confirmed.symm.trans (overReorged row found)
  | confirmed isFound included recorded ofPack ofEntry ofSlot before
      sameHash unconfirmed after =>
      cases before.symm.trans found
      exact absurd confirmed unconfirmed
  | marked isWatch before inTx isMarked after =>
      cases before.symm.trans found
      have ofTx := (MessageRow.isConfirmedIn_iff.mp inTx).1
      cases isRef.symm.trans ofTx
      exact absurd (sameMarked ▸ isMarked) notMarked
  | requeued isJudged before attached isMarked after =>
      cases before.symm.trans found
      have ofTx := Option.some.inj (isRef.symm.trans attached.1)
      exact absurd (sameMarked ▸ isMarked) (ofTx ▸ notMarked)

/-- A confirmed row is left alone in a run that marks nothing. -/
theorem confirmedKept_exec
    {events : List SharedEvent}
    {later : World}
    (ledger : world.Ledger config)
    (executed :
      Runs.exec? (sharedStep config) world events = some later)
    (unmarked : later.marks.length ≤ world.marks.length)
    {key : MessageKey}
    {row : MessageRow}
    (found : world.store.message? key = some row)
    (confirmed : row.status = .confirmed) :
    later.store.message? key = some row := by
  induction events generalizing world with
  | nil =>
      cases executed
      exact found
  | cons event rest inductionHypothesis =>
      simp only [Runs.exec?] at executed
      cases taken : sharedStep config world event with
      | none =>
          rw [taken] at executed
          cases executed
      | some next =>
          rw [taken] at executed
          have grown :=
            @Runs.exec?_invariant _ _ _
              (fun state => next.marks.length ≤ state.marks.length) rest
              (fun longer _ taken => longer.trans (marks_le_sharedStep taken))
              _ _ (Nat.le_refl _) executed
          rcases marks_sharedStep taken with same | ⟨mark, marks, -⟩
          · exact inductionHypothesis (ledger_sharedStep ledger taken)
              executed (same ▸ unmarked)
              (confirmedKept_sharedStep ledger taken same found confirmed)
          · rw [marks, List.length_cons] at grown
            omega

end Steps

/-! ## The two answers -/

/-- What the widget reads of an item of `/pending`. -/
def Pending.toReaderRow (pending : Pending) : Comments.ReaderRow where
  sender := pending.sender
  nonce := pending.nonce
  contents := pending.contents
  batchRef := none

/-- What the widget reads of an item of `/messages`. -/
def MessageRow.toReaderRow (row : MessageRow) : Comments.ReaderRow where
  sender := row.sender
  nonce := row.nonce
  contents := row.contents
  batchRef := row.batchRef

/-- What the widget reads of a row that is listed as pending. -/
def MessageRow.toPendingRow (row : MessageRow) : Comments.ReaderRow where
  sender := row.sender
  nonce := row.nonce
  contents := row.contents
  batchRef := none

/-- The rows of `pendingHandler`; `none` where the listing throws. -/
def pendingAnswer
    (contentTag : Bytes32)
    (limit : Nat)
    (store : Store) : Option (List Comments.ReaderRow) :=
  match
    listPending store
      { contentTag := some contentTag, since := none, limit := some limit }
  with
  | .error _ => none
  | .ok pending => some (pending.map Pending.toReaderRow)

/-- The rows of `messagesHandler` for the status `confirmed`. -/
def confirmedAnswer
    (contentTag : Bytes32)
    (limit : Nat)
    (store : Store) : List Comments.ReaderRow :=
  (store.listMessages
    { contentTag := some contentTag
      sender := none
      status := some .confirmed
      batchRef := none
      sinceBlock := none
      cursor := none
      limit := some limit }).map MessageRow.toReaderRow

/-- The limit that `refresh` passes. -/
def threadLimit : Nat := 1000

/-- What `refresh` shows of a post, when the Poster answers over one world and
the Reader over another one. -/
def threadShown
    (config : SystemConfig)
    (contentTag postIdHash : Bytes32)
    (pendingAt confirmedAt : World) : List Comments.DecodedMessage :=
  Comments.listForPost config.keccak256 contentTag postIdHash
    (pendingAnswer contentTag threadLimit pendingAt.store)
    (confirmedAnswer contentTag threadLimit confirmedAt.store)

theorem limited_eq_self
    {ρ : Type}
    {count : Nat}
    {rows : List ρ}
    (fits : rows.length ≤ count) :
    limited (some count) rows = rows :=
  List.take_of_length_le fits

theorem mem_of_limited
    {ρ : Type}
    {limit : Option Nat}
    {rows : List ρ}
    {row : ρ}
    (member : row ∈ limited limit rows) :
    row ∈ rows := by
  cases limit with
  | none =>
      exact member
  | some count =>
      exact List.mem_of_mem_take member

theorem confirmedAnswer_eq
    (contentTag : Bytes32)
    (limit : Nat)
    (store : Store) :
    confirmedAnswer contentTag limit store =
      (limited (some limit) (store.confirmedMessages contentTag)).map
        MessageRow.toReaderRow := by
  rw [confirmedAnswer, listMessages_confirmed]

/-- A listing of stamped rows does not throw. -/
theorem pendingAnswer_eq
    {contentTag : Bytes32}
    {limit : Nat}
    {store : Store}
    (stamped : ∀ row ∈ store.messages.rows, row.Stamped) :
    pendingAnswer contentTag limit store =
      some ((limited (some limit) (store.pendingRows contentTag)).map
        MessageRow.toPendingRow) := by
  have sameRows :
      store.listPendingByTagSince contentTag (some limit) none =
        (limited (some limit) (store.pendingRows contentTag)).mapM
          mapPending := by
    simp [Store.listPendingByTagSince, Store.pendingRows, seqAfter]
  have mappable :
      ∀ row ∈ limited (some limit) (store.pendingRows contentTag),
        ∃ pending, mapPending row = .ok pending := by
    intro row member
    have isRow :=
      (Table.mem_select.mp
        (Table.mem_orderBy.mp (mem_of_limited member))).1
    obtain ⟨hasChain, hasTime, hasSeq⟩ := stamped row isRow
    obtain ⟨chainId, isChain⟩ := Option.isSome_iff_exists.mp hasChain
    obtain ⟨ingestedAt, isTime⟩ := Option.isSome_iff_exists.mp hasTime
    obtain ⟨ingestSeq, isSeq⟩ := Option.isSome_iff_exists.mp hasSeq
    simp [mapPending, isChain, isTime, isSeq]
  obtain ⟨pending, mapped⟩ := Store.mapM_succeeds mappable
  have listed :
      listPending store
          { contentTag := some contentTag
            since := none
            limit := some limit } =
        .ok (pending.map StoreTxnPendingRow.toPending) := by
    simp only [listPending, Option.map_none]
    rw [sameRows, mapped]
    rfl
  have images := ExceptLoops.mapM_eq_ok_iff.mp mapped
  have sameImages :
      List.Forall₂ (· = ·)
        ((limited (some limit) (store.pendingRows contentTag)).map
          MessageRow.toPendingRow)
        ((pending.map StoreTxnPendingRow.toPending).map
          Pending.toReaderRow) := by
    rw [List.map_map, List.forall₂_map_left_iff,
      List.forall₂_map_right_iff]
    refine images.imp fun row item isImage => ?_
    obtain ⟨-, sender, nonce, contents, -⟩ := mapPending_ok isImage
    simp [Pending.toReaderRow, StoreTxnPendingRow.toPending,
      MessageRow.toPendingRow, sender, nonce, contents]
  rw [List.forall₂_eq_eq_eq] at sameImages
  rw [pendingAnswer, listed, sameImages]

/-! ## What is shown -/

/-- Accepted messages with one hash are one message. -/
def World.CollisionFree (world : World) : Prop :=
  ∀ first ∈ world.acceptedData,
    ∀ second ∈ world.acceptedData,
      first.messageHash = second.messageHash → first = second

/-- A message of a thread is an accepted comment of the tag. -/
def World.Tells
    (world : World)
    (contentTag : Bytes32)
    (message : Comments.DecodedMessage) : Prop :=
  ∃ data ∈ world.acceptedData,
    data.contentTag = contentTag ∧
      ∃ envelope,
        Comments.decodeCommentContents data.contents = .ok envelope ∧
          message =
            envelope.toMessage data.sender data.messageHash
              message.pending

/-- None of the listings of a poll is cut off by its limit. -/
structure Uncut
    (contentTag : Bytes32)
    (pendingAt confirmedAt : World) : Prop where
  pending :
    (pendingAt.store.pendingRows contentTag).length ≤ threadLimit
  confirmed :
    (confirmedAt.store.confirmedMessages contentTag).length ≤ threadLimit

/-- If a message is a comment, the thread of its post has it. -/
def ShowsComment
    (config : SystemConfig)
    (contentTag : Bytes32)
    (pendingAt confirmedAt : World)
    (data : MessageData) : Prop :=
  ∀ envelope,
    Comments.decodeCommentContents data.contents = .ok envelope →
    ∃ pending,
      envelope.toMessage data.sender data.messageHash pending ∈
        threadShown config contentTag envelope.postIdHash pendingAt
          confirmedAt

section Listed

variable {config : SystemConfig}
variable {contentTag : Bytes32}
variable {world : World}

/-- The row of an accepted message decodes to the comment in it. -/
theorem decodeRow_of_row
    (spelled : world.Spelled config)
    {row : MessageRow}
    (isRow : row ∈ world.store.messages.rows)
    (ofTag : row.contentTag = contentTag)
    {readerRow : Comments.ReaderRow}
    (sender : readerRow.sender = row.sender)
    (nonce : readerRow.nonce = row.nonce)
    (contents : readerRow.contents = row.contents)
    {pending : Bool}
    {message : Comments.DecodedMessage} :
    Comments.decodeRow config.keccak256 contentTag pending readerRow =
        some message ↔
      (pending = true ∨ readerRow.batchRef ≠ none) ∧
        ∃ envelope,
          Comments.decodeCommentContents row.contents = .ok envelope ∧
            message =
              envelope.toMessage row.sender row.messageHash pending := by
  have isAccepted :=
    (spelled.rows row.key row (Table.mem_rows_iff.mp isRow)).1
  have hashed :
      computeMessageHash config.keccak256 row.sender contentTag row.nonce
        row.contents = some row.messageHash :=
    ofTag ▸ spelled.hashed row.data isAccepted
  rw [Comments.decodeRow_eq_some_iff, sender, nonce, contents, hashed]
  simp

theorem mem_listMessages_pending
    (spelled : world.Spelled config)
    {limit : Nat}
    {message : Comments.DecodedMessage} :
    message ∈
        Comments.listMessages config.keccak256 contentTag true
          ((limited (some limit)
            (world.store.pendingRows contentTag)).map
              MessageRow.toPendingRow) ↔
      ∃ row ∈
          limited (some limit) (world.store.pendingRows contentTag),
        ∃ envelope,
          Comments.decodeCommentContents row.contents = .ok envelope ∧
            message =
              envelope.toMessage row.sender row.messageHash true := by
  simp only [Comments.listMessages, List.filterMap_map,
    List.mem_filterMap, Function.comp_apply]
  apply exists_congr
  intro row
  apply and_congr_right
  intro member
  have kept := Table.mem_orderBy.mp (mem_of_limited member)
  simp only [Table.mem_select, Bool.and_eq_true,
    decide_eq_true_eq] at kept
  rw [decodeRow_of_row spelled kept.1 kept.2.1 rfl rfl rfl]
  simp

theorem mem_listMessages_confirmed
    (spelled : world.Spelled config)
    {limit : Nat}
    {message : Comments.DecodedMessage} :
    message ∈
        Comments.listMessages config.keccak256 contentTag false
          (confirmedAnswer contentTag limit world.store) ↔
      ∃ row ∈
          limited (some limit) (world.store.confirmedMessages contentTag),
        row.batchRef ≠ none ∧
          ∃ envelope,
            Comments.decodeCommentContents row.contents = .ok envelope ∧
              message =
                envelope.toMessage row.sender row.messageHash false := by
  rw [confirmedAnswer_eq]
  simp only [Comments.listMessages, List.filterMap_map,
    List.mem_filterMap, Function.comp_apply]
  apply exists_congr
  intro row
  apply and_congr_right
  intro member
  have kept := Table.mem_orderBy.mp (mem_of_limited member)
  simp only [Table.mem_select, Bool.and_eq_true,
    decide_eq_true_eq] at kept
  rw [decodeRow_of_row spelled kept.1 kept.2.1 rfl rfl rfl]
  simp [MessageRow.toReaderRow]

end Listed

section Polls

variable {config : SystemConfig}
variable {contentTag : Bytes32}
variable {pendingAt confirmedAt known : World}

/-- What the two listings of a poll decode to. -/
def ListedMessage
    (config : SystemConfig)
    (contentTag : Bytes32)
    (pendingAt confirmedAt : World)
    (message : Comments.DecodedMessage) : Prop :=
  (∃ rows,
    pendingAnswer contentTag threadLimit pendingAt.store = some rows ∧
      message ∈
        Comments.listMessages config.keccak256 contentTag true rows) ∨
    message ∈
      Comments.listMessages config.keccak256 contentTag false
        (confirmedAnswer contentTag threadLimit confirmedAt.store)

theorem pendingAnswer_of_spelled
    (spelled : pendingAt.Spelled config) :
    pendingAnswer contentTag threadLimit pendingAt.store =
      some ((limited (some threadLimit)
        (pendingAt.store.pendingRows contentTag)).map
          MessageRow.toPendingRow) :=
  pendingAnswer_eq fun row isRow =>
    (spelled.rows row.key row (Table.mem_rows_iff.mp isRow)).2

/-- What is listed has been accepted. -/
theorem tells_of_listed
    (spelledPending : pendingAt.Spelled config)
    (spelledConfirmed : confirmedAt.Spelled config)
    (pendingKnown :
      ∀ data ∈ pendingAt.acceptedData, data ∈ known.acceptedData)
    (confirmedKnown :
      ∀ data ∈ confirmedAt.acceptedData, data ∈ known.acceptedData)
    {message : Comments.DecodedMessage}
    (listed : ListedMessage config contentTag pendingAt confirmedAt message) :
    known.Tells contentTag message := by
  rcases listed with ⟨rows, isAnswer, isListed⟩ | isListed
  · cases isAnswer.symm.trans (pendingAnswer_of_spelled spelledPending)
    obtain ⟨row, member, envelope, decoded, rfl⟩ :=
      (mem_listMessages_pending spelledPending).mp isListed
    have kept := Table.mem_orderBy.mp (mem_of_limited member)
    simp only [Table.mem_select, Bool.and_eq_true,
      decide_eq_true_eq] at kept
    have isAccepted :=
      (spelledPending.rows row.key row
        (Table.mem_rows_iff.mp kept.1)).1
    exact ⟨row.data, pendingKnown _ isAccepted, kept.2.1, envelope,
      decoded, rfl⟩
  · obtain ⟨row, member, -, envelope, decoded, rfl⟩ :=
      (mem_listMessages_confirmed spelledConfirmed).mp isListed
    have kept := Table.mem_orderBy.mp (mem_of_limited member)
    simp only [Table.mem_select, Bool.and_eq_true,
      decide_eq_true_eq] at kept
    have isAccepted :=
      (spelledConfirmed.rows row.key row
        (Table.mem_rows_iff.mp kept.1)).1
    exact ⟨row.data, confirmedKnown _ isAccepted, kept.2.1, envelope,
      decoded, rfl⟩

/-- A comment that is listed is shown, once or as its later copy. -/
theorem shown_of_listed
    (spelledPending : pendingAt.Spelled config)
    (spelledConfirmed : confirmedAt.Spelled config)
    (pendingKnown :
      ∀ data ∈ pendingAt.acceptedData, data ∈ known.acceptedData)
    (confirmedKnown :
      ∀ data ∈ confirmedAt.acceptedData, data ∈ known.acceptedData)
    (collisionFree : known.CollisionFree)
    {data : MessageData}
    (isKnown : data ∈ known.acceptedData)
    {envelope : Comments.Envelope}
    (decoded :
      Comments.decodeCommentContents data.contents = .ok envelope)
    {flag : Bool}
    (listed :
      ListedMessage config contentTag pendingAt confirmedAt
        (envelope.toMessage data.sender data.messageHash flag)) :
    ∃ pending,
      envelope.toMessage data.sender data.messageHash pending ∈
        threadShown config contentTag envelope.postIdHash pendingAt
          confirmedAt := by
  obtain ⟨kept, sameHash, isShown⟩ := Comments.exists_mem_listForPost listed
  have keptListed := (Comments.mem_listForPost isShown).2
  obtain ⟨other, otherKnown, -, otherEnvelope, otherDecoded, isKept⟩ :=
    tells_of_listed spelledPending spelledConfirmed pendingKnown
      confirmedKnown keptListed
  have otherHash : other.messageHash = data.messageHash := by
    rw [isKept] at sameHash
    exact sameHash
  have same : other = data :=
    collisionFree other otherKnown data isKnown otherHash
  subst same
  cases otherDecoded.symm.trans decoded
  refine ⟨kept.pending, ?_⟩
  have samePost : kept.postIdHash = envelope.postIdHash := by
    rw [isKept]
    rfl
  rw [← isKept, ← samePost]
  exact isShown

theorem listed_of_pending
    (spelled : pendingAt.Spelled config)
    (fits :
      (pendingAt.store.pendingRows contentTag).length ≤ threadLimit)
    {key : MessageKey}
    {row : MessageRow}
    (found : pendingAt.store.message? key = some row)
    (ofTag : row.contentTag = contentTag)
    (pending : row.status = .pending)
    {envelope : Comments.Envelope}
    (decoded :
      Comments.decodeCommentContents row.contents = .ok envelope) :
    ListedMessage config contentTag pendingAt confirmedAt
      (envelope.toMessage row.sender row.messageHash true) := by
  refine .inl ⟨_, pendingAnswer_of_spelled spelled, ?_⟩
  rw [mem_listMessages_pending spelled, limited_eq_self fits]
  have member : row ∈ pendingAt.store.pendingRows contentTag := by
    rw [Store.pendingRows, Table.mem_orderBy, Table.mem_select]
    exact ⟨Table.mem_of_get? found, by simp [ofTag, pending]⟩
  exact ⟨row, member, envelope, decoded, rfl⟩

theorem listed_of_confirmed
    (spelled : confirmedAt.Spelled config)
    (fits :
      (confirmedAt.store.confirmedMessages contentTag).length ≤
        threadLimit)
    {key : MessageKey}
    {row : MessageRow}
    (found : confirmedAt.store.message? key = some row)
    (ofTag : row.contentTag = contentTag)
    (confirmed : row.status = .confirmed)
    (linked : row.batchRef ≠ none)
    {envelope : Comments.Envelope}
    (decoded :
      Comments.decodeCommentContents row.contents = .ok envelope) :
    ListedMessage config contentTag pendingAt confirmedAt
      (envelope.toMessage row.sender row.messageHash false) := by
  refine .inr ?_
  rw [mem_listMessages_confirmed spelled, limited_eq_self fits]
  have member : row ∈ confirmedAt.store.confirmedMessages contentTag := by
    rw [Store.confirmedMessages, Table.mem_orderBy, Table.mem_select]
    exact ⟨Table.mem_of_get? found, by simp [ofTag, confirmed]⟩
  exact ⟨row, member, linked, envelope, decoded, rfl⟩

end Polls

/-! ## Over runs -/

/-- What holds in every state of a run whose watcher ticks restore what they
mark. -/
structure World.Listable
    (config : SystemConfig)
    (world : World) : Prop where
  tracked : world.Tracked
  watching : world.Watching config
  spelled : world.Spelled config

/-- The message was confirmed on the way from one world to the other. -/
def ConfirmedBetween
    (world later : World)
    (data : MessageData) : Prop :=
  ∃ old new,
    world.store.message? (data.sender, data.nonce) = some old ∧
      old.status = .pending ∧
      later.store.message? (data.sender, data.nonce) = some new ∧
      new.status = .confirmed

/-- What a poll shows whose answers come from one world and from a later one. -/
structure PollShows
    (config : SystemConfig)
    (contentTag : Bytes32)
    (world later : World) : Prop where
  /-- Where the Poster answers first, every comment is there. -/
  pendingFirst :
    Uncut contentTag world later →
    later.marks.length = world.marks.length →
    ∀ data ∈ world.acceptedData,
      data.contentTag = contentTag →
      ShowsComment config contentTag world later data
  /-- Where the Reader answers first, all that were not confirmed since. -/
  confirmedFirst :
    Uncut contentTag later world →
    later.posterWatch = none →
    ∀ data ∈ world.acceptedData,
      data.contentTag = contentTag →
      ShowsComment config contentTag later world data ∨
        ConfirmedBetween world later data
  /-- Nothing else is shown, whichever answers first. -/
  only :
    ∀ postIdHash message,
      message ∈ threadShown config contentTag postIdHash world later ∨
        message ∈ threadShown config contentTag postIdHash later world →
      message.postIdHash = postIdHash ∧ later.Tells contentTag message
  /-- And no message twice. -/
  once :
    ∀ postIdHash,
      ((threadShown config contentTag postIdHash world later).map
        Comments.DecodedMessage.messageHash).Nodup ∧
        ((threadShown config contentTag postIdHash later world).map
          Comments.DecodedMessage.messageHash).Nodup

/-- Polls that begin between watcher ticks show the accepted comments. -/
def World.ShowsComments
    (config : SystemConfig)
    (contentTag : Bytes32)
    (world : World) : Prop :=
  ∀ between later,
    Runs.AllSteps (sharedStep config)
      (fun world event => watchesAllow config world event = true)
      world between →
    Runs.exec? (sharedStep config) world between = some later →
    world.posterWatch = none →
    later.CollisionFree →
    PollShows config contentTag world later

section Runs

variable {config : SystemConfig}
variable {contentTag : Bytes32}
variable {world later : World}

theorem listable_initial
    (config : SystemConfig) :
    World.initial.Listable config where
  tracked := tracked_initial
  watching := watching_initial config
  spelled := spelled_initial config

theorem listable_sharedStep
    {next : World}
    {event : SharedEvent}
    (listable : world.Listable config)
    (allowed : watchesAllow config world event = true)
    (taken : sharedStep config world event = some next) :
    next.Listable config where
  tracked := tracked_sharedStep listable.tracked taken
  watching := watching_sharedStep listable.watching allowed taken
  spelled := spelled_sharedStep listable.spelled taken

/-- Between watcher ticks an accepted message has a row that is listed. -/
theorem exists_row_of_accepted
    (listable : world.Listable config)
    (idle : world.posterWatch = none)
    (collisionFree : world.CollisionFree)
    {data : MessageData}
    (isAccepted : data ∈ world.acceptedData) :
    ∃ row,
      world.store.message? (data.sender, data.nonce) = some row ∧
        row.data = data ∧
        (row.status = .pending ∨
          row.status = .confirmed ∧ row.batchRef ≠ none) := by
  obtain ⟨message, member, rfl⟩ := List.mem_map.mp isAccepted
  obtain ⟨row, found, sameHash, status⟩ :=
    acceptedHeld_of_watching listable.tracked listable.watching idle message
      member
  refine ⟨row, found, ?_, ?_⟩
  · exact collisionFree _ (listable.spelled.rows _ row found).1 _ isAccepted
      sameHash
  · refine status.imp_right ?_
    rintro ⟨confirmed, broadcast, -, isRef, -⟩
    exact ⟨confirmed, by rw [isRef]; exact Option.some_ne_none _⟩

theorem acceptedData_exec
    {events : List SharedEvent}
    (executed :
      Runs.exec? (sharedStep config) world events = some later)
    {data : MessageData}
    (member : data ∈ world.acceptedData) :
    data ∈ later.acceptedData :=
  @Runs.exec?_invariant _ _ _ (fun state => data ∈ state.acceptedData)
    events (fun before _ taken => acceptedData_sharedStep taken before)
    _ _ member executed

/-- What a poll shows is in its thread, and was listed. -/
theorem tells_of_shown
    {pendingAt confirmedAt : World}
    (spelledPending : pendingAt.Spelled config)
    (spelledConfirmed : confirmedAt.Spelled config)
    (pendingKnown :
      ∀ data ∈ pendingAt.acceptedData, data ∈ later.acceptedData)
    (confirmedKnown :
      ∀ data ∈ confirmedAt.acceptedData, data ∈ later.acceptedData)
    {postIdHash : Bytes32}
    {message : Comments.DecodedMessage}
    (shown :
      message ∈
        threadShown config contentTag postIdHash pendingAt confirmedAt) :
    message.postIdHash = postIdHash ∧ later.Tells contentTag message := by
  obtain ⟨ofPost, listed⟩ := Comments.mem_listForPost shown
  exact ⟨ofPost,
    tells_of_listed spelledPending spelledConfirmed pendingKnown
      confirmedKnown listed⟩

/-- A poll over a world between watcher ticks and a later one. -/
theorem pollShows_of_listable
    (listable : world.Listable config)
    (laterListable : later.Listable config)
    {between : List SharedEvent}
    (executed :
      Runs.exec? (sharedStep config) world between = some later)
    (idle : world.posterWatch = none)
    (collisionFree : later.CollisionFree) :
    PollShows config contentTag world later := by
  have grown :
      ∀ data ∈ world.acceptedData, data ∈ later.acceptedData :=
    fun _ => acceptedData_exec executed
  have distinct : world.CollisionFree :=
    fun first isFirst second isSecond =>
      collisionFree first (grown first isFirst) second
        (grown second isSecond)
  constructor
  · intro uncut sameMarks data isAccepted ofTag envelope decoded
    obtain ⟨row, found, rfl, status⟩ :=
      exists_row_of_accepted listable idle distinct isAccepted
    have shown {flag : Bool} :=
      @shown_of_listed config contentTag world later later
        listable.spelled laterListable.spelled grown (fun _ => id)
        collisionFree row.data (grown _ isAccepted) envelope decoded flag
    rcases status with pending | ⟨confirmed, linked⟩
    · exact shown
        (listed_of_pending listable.spelled uncut.pending found ofTag
          pending decoded)
    · -- nothing was marked before the Reader answered
      have kept :=
        confirmedKept_exec listable.watching.toLedger executed
          (Nat.le_of_eq sameMarks) found confirmed
      exact shown
        (listed_of_confirmed laterListable.spelled uncut.confirmed kept
          ofTag confirmed linked decoded)
  · intro uncut laterIdle data isAccepted ofTag
    obtain ⟨row, found, rfl, status⟩ :=
      exists_row_of_accepted listable idle distinct isAccepted
    obtain ⟨new, newFound, sameData, newStatus⟩ :=
      exists_row_of_accepted laterListable laterIdle collisionFree
        (grown _ isAccepted)
    have shown {envelope : Comments.Envelope} {flag : Bool} decoded :=
      @shown_of_listed config contentTag later world later
        laterListable.spelled listable.spelled (fun _ => id) grown
        collisionFree row.data (grown _ isAccepted) envelope decoded flag
    rcases status with pending | ⟨confirmed, linked⟩
    · rcases newStatus with newPending | ⟨newConfirmed, -⟩
      · left
        intro envelope decoded
        rw [← sameData] at decoded ofTag shown ⊢
        exact shown decoded
          (listed_of_pending laterListable.spelled uncut.pending newFound
            ofTag newPending decoded)
      · exact .inr ⟨row, new, found, pending, newFound, newConfirmed⟩
    · left
      intro envelope decoded
      exact shown decoded
        (listed_of_confirmed listable.spelled uncut.confirmed found ofTag
          confirmed linked decoded)
  · intro postIdHash message shown
    rcases shown with shown | shown
    · exact tells_of_shown listable.spelled laterListable.spelled grown
        (fun _ => id) shown
    · exact tells_of_shown laterListable.spelled listable.spelled
        (fun _ => id) grown shown
  · intro postIdHash
    exact ⟨Comments.nodup_listForPost _ _ _,
      Comments.nodup_listForPost _ _ _⟩

/-- An empty comment on post 3, up to its confirm transaction. -/
def commentRun : List SharedEvent :=
  [sampleRequest 5 0 (Comments.commentBody (.comment 3 0 [])),
    .tickStart 0, .tickSend 0 (.accepted 1),
    .tickReceipt 1 (.ok
      { status := true, blockNumber := 100, transactionIndex := 0 }),
    .tickConfirm 1 0].map .poster

/-- The comment is in the poll of a Poster that answers before its confirm
transaction, and in none whose Poster answers after it and its Reader before. -/
example :
    ((Runs.exec? (sharedStep sampleConfig) World.initial
      (commentRun.take 1)).bind fun world =>
        (Runs.exec? (sharedStep sampleConfig) world
          (commentRun.drop 1)).map fun later =>
            ((threadShown sampleConfig 5 3 world later).length,
              (threadShown sampleConfig 5 3 later world).length)) =
      some (1, 0) := by
  rw [sharedStep_sampleConfig]
  decide +kernel

end Runs

end Bam
