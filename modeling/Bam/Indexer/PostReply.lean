import Bam.Indexer.Deployment
import Bam.Sdk.PostReply

namespace Bam

/-!
# The post/reply handler

`createPostReplyHandler` and the table of its DDL.  A body is decoded by one set
of rules and inserted under another: a timestamp is a `uint64` on chain, a
double in the process and a `bigint` in the table.
-/

open Behaviors Bytewise

/-- A row of `posts` beside its keys. -/
structure PostRow where
  messageHash : Bytes32
  sender : Address
  nonce : Nat
  kind : Nat
  timestamp : Nat
  content : List Char
  parentMessageHash : Option Bytes32
  blockNumber : Nat
  txIndex : Nat
  messageIndexWithinBatch : Nat
  deriving Repr, DecidableEq

/-- A number as a parameter of a `bigint` column. -/
def bigintParam (number : Nat) : Option Nat :=
  if Binary64.shortest number < 2 ^ 63 then
    some (Binary64.shortest number)
  else none

/-- A string as a parameter of a `text` column. -/
def textParam (text : List Char) : Option (List Char) :=
  if Utf8.nul ∈ text then none else some text

/-- The constraints on the kind and the parent of a row. -/
def PostRow.checked (row : PostRow) : Option PostRow :=
  if (row.kind = 0 ∨ row.kind = 1) ∧
      (row.kind = 0 ∧ row.parentMessageHash = none ∨
        row.kind = 1 ∧ row.parentMessageHash ≠ none) then
    some row
  else none

/-- The `kind` column of a message. -/
def PostReplyMessage.kind : PostReplyMessage → Nat
  | .post _ _ => 0
  | .reply _ _ _ => 1

def PostReplyMessage.parent? : PostReplyMessage → Option Bytes32
  | .post _ _ => none
  | .reply _ parentMessageHash _ => some parentMessageHash

/-- The `INSERT` of `project`; the coordinates are read from `bigint` columns of
the shared store as numbers. -/
def projectPost
    (row : MessageRow)
    (decoded : PostReplyMessage) : Option PostRow :=
  match row.blockNumber, row.txIndex, row.messageIndexWithinBatch with
  | some blockNumber, some txIndex, some msgIndex =>
      match bigintParam decoded.timestamp, textParam decoded.content,
          bigintParam (Binary64.nearest blockNumber),
          bigintParam (Binary64.nearest txIndex),
          bigintParam (Binary64.nearest msgIndex) with
      | some timestamp, some content, some blockNumber, some txIndex,
          some messageIndexWithinBatch =>
          PostRow.checked {
            messageHash := row.messageHash
            sender := row.sender
            nonce := row.nonce
            kind := decoded.kind
            timestamp := timestamp
            content := content
            parentMessageHash := decoded.parent?
            blockNumber := blockNumber
            txIndex := txIndex
            messageIndexWithinBatch := messageIndexWithinBatch }
      | _, _, _, _, _ => none
  | _, _, _ => none

/-- `createPostReplyHandler`. -/
def postReplyHandler
    (contentTag : Bytes32)
    (version : Nat) : IndexerHandler PostReplyMessage PostRow where
  contentTag := contentTag
  version := version
  decode contents := (decodePostReplyContents contents).toOption
  project := projectPost
  onConflict old new :=
    { new with sender := old.sender, nonce := old.nonce }

/-- The first number that is rounded up to `2 ^ 63`. -/
def bigintLimit : Nat :=
  2 ^ 63 - 512

/-- A row whose coordinates fit their columns. -/
structure MessageRow.CoordinatesFit (row : MessageRow) : Prop where
  blockNumber :
    ∀ blockNumber, row.blockNumber = some blockNumber →
      blockNumber < bigintLimit
  txIndex :
    ∀ txIndex, row.txIndex = some txIndex → txIndex < bigintLimit
  msgIndex :
    ∀ msgIndex, row.messageIndexWithinBatch = some msgIndex →
      msgIndex < bigintLimit

/-- A row whose body and coordinates fit the table: a timestamp below the limit
and no zero byte in the content. -/
structure MessageRow.Storable (row : MessageRow) : Prop where
  timestamp : readU64BE row.contents 2 < bigintLimit
  content :
    0 ∉ contentBytes row.contents (contentStart row.contents)
  coordinates : row.CoordinatesFit

/-- Either the contents do not decode or the projection succeeds. -/
def MessageRow.Unwedged
    {Decoded Values : Type}
    (handler : IndexerHandler Decoded Values)
    (row : MessageRow) : Prop :=
  handler.decode row.contents = none ∨
    ∃ decoded,
      handler.decode row.contents = some decoded ∧
        ∀ versionId,
          (handler.projectRow versionId row decoded).isSome = true

/-- From some tick on the cursor has passed every confirmed row of the tag. -/
def EventuallyPassed
    {Decoded Values : Type}
    (config : SystemConfig)
    (options : TickOptions Decoded Values)
    (final : Indexing World Values)
    (nows : ℕ → Int) : Prop :=
  ∃ least, ∀ count, least ≤ count →
    ∃ current,
      (after (Indexing.advance (serviceSource config) options) nows final
        count).db.cursors.getCurrentCursor = some current ∧
        ∀ row ∈ final.source.store.messages.rows,
          row.status = .confirmed →
          row.contentTag = options.handler.contentTag →
          row.coordKey ≤ current.forward.sortKey

/-- The limit of a `bigint` is a double that is not printed below itself. -/
theorem bigintParam_isSome
    {number : Nat}
    (isDouble : Binary64.nearest number = number) :
    (bigintParam number).isSome = true ↔ number < 2 ^ 63 := by
  have boundIsDouble : Binary64.nearest (2 ^ 63) = 2 ^ 63 := by
    decide +kernel
  have boundPrinted : 2 ^ 63 ≤ Binary64.shortest (2 ^ 63) := by
    decide +kernel
  rw [← Binary64.shortest_lt_iff isDouble boundIsDouble boundPrinted]
  unfold bigintParam
  split
  · rename_i fits
    exact ⟨fun _ => fits, fun _ => rfl⟩
  · rename_i overflows
    exact ⟨fun refused => (by cases refused),
      fun fits => absurd fits overflows⟩

/-- A number is stored exactly if it is below the limit. -/
theorem bigintParam_nearest_isSome
    (number : Nat) :
    (bigintParam (Binary64.nearest number)).isSome = true ↔
      number < bigintLimit := by
  rw [bigintParam_isSome (Binary64.nearest_nearest number)]
  constructor
  · intro rounded
    refine Nat.lt_of_not_le fun reached => Nat.not_le.mpr rounded ?_
    have roundedUp : Binary64.nearest bigintLimit = 2 ^ 63 := by
      decide +kernel
    rw [← roundedUp]
    exact Binary64.nearest_mono reached
  · intro less
    have below : number ≤ bigintLimit - 1 := by
      omega
    have roundedDown : Binary64.nearest (bigintLimit - 1) < 2 ^ 63 := by
      decide +kernel
    exact Nat.lt_of_le_of_lt (Binary64.nearest_mono below) roundedDown

theorem textParam_isSome
    (text : List Char) :
    (textParam text).isSome = true ↔ Utf8.nul ∉ text := by
  unfold textParam
  split
  · rename_i member
    exact ⟨fun refused => (by cases refused),
      fun absent => absurd member absent⟩
  · rename_i absent
    exact ⟨fun _ => absent, fun _ => rfl⟩

/-- Every message meets the constraints on its kind and its parent. -/
theorem checked_message
    {row : PostRow}
    (decoded : PostReplyMessage)
    (isKind : row.kind = decoded.kind)
    (isParent : row.parentMessageHash = decoded.parent?) :
    row.checked = some row := by
  refine if_pos ?_
  rw [isKind, isParent]
  cases decoded with
  | post timestamp content =>
      exact ⟨.inl rfl, .inl ⟨rfl, rfl⟩⟩
  | reply timestamp parentMessageHash content =>
      exact ⟨.inr rfl, .inr ⟨rfl, Option.some_ne_none _⟩⟩

/-- The coordinates of a located row fit exactly if each parameter does. -/
theorem coordinatesFit_iff
    {row : MessageRow}
    {blockNumber txIndex msgIndex : Nat}
    (isBlock : row.blockNumber = some blockNumber)
    (isTx : row.txIndex = some txIndex)
    (isMsg : row.messageIndexWithinBatch = some msgIndex) :
    row.CoordinatesFit ↔
      (bigintParam (Binary64.nearest blockNumber)).isSome = true ∧
        (bigintParam (Binary64.nearest txIndex)).isSome = true ∧
        (bigintParam (Binary64.nearest msgIndex)).isSome = true := by
  simp only [bigintParam_nearest_isSome]
  constructor
  · rintro ⟨blockFits, txFits, msgFits⟩
    exact ⟨blockFits _ isBlock, txFits _ isTx, msgFits _ isMsg⟩
  · rintro ⟨blockFits, txFits, msgFits⟩
    refine ⟨fun number found => ?_, fun number found => ?_,
      fun number found => ?_⟩
    · exact Option.some.inj (isBlock.symm.trans found) ▸ blockFits
    · exact Option.some.inj (isTx.symm.trans found) ▸ txFits
    · exact Option.some.inj (isMsg.symm.trans found) ▸ msgFits

/-- The insert succeeds exactly if every parameter fits its column. -/
theorem projectPost_isSome
    {row : MessageRow}
    (located : row.coord?.isSome = true)
    (decoded : PostReplyMessage) :
    (projectPost row decoded).isSome = true ↔
      (bigintParam decoded.timestamp).isSome = true ∧
        (textParam decoded.content).isSome = true ∧
        row.CoordinatesFit := by
  unfold MessageRow.coord? at located
  split at located
  · rename_i blockNumber txIndex msgIndex isBlock isTx isMsg
    rw [coordinatesFit_iff isBlock isTx isMsg]
    simp only [projectPost, isBlock, isTx, isMsg]
    cases bigintParam decoded.timestamp with
    | none =>
        simp
    | some timestamp =>
        cases textParam decoded.content with
        | none =>
            simp
        | some content =>
            cases bigintParam (Binary64.nearest blockNumber) with
            | none =>
                simp
            | some blockNumber =>
                cases bigintParam (Binary64.nearest txIndex) with
                | none =>
                    simp
                | some txIndex =>
                    cases bigintParam (Binary64.nearest msgIndex) with
                    | none =>
                        simp
                    | some msgIndex =>
                        simp only
                        rw [checked_message decoded]
                        · simp
                        · rfl
                        · rfl
  · cases located

/-- What decodes is inserted exactly if its bytes and its coordinates fit. -/
theorem projectPost_isSome_iff_storable
    {row : MessageRow}
    {decoded : PostReplyMessage}
    (located : row.coord?.isSome = true)
    (decodes : decodePostReplyContents row.contents = .ok decoded) :
    (projectPost row decoded).isSome = true ↔ row.Storable := by
  obtain ⟨timestamp, content⟩ := decodePostReplyContents_eq_ok decodes
  obtain ⟨text, isText, dropped⟩ := Option.map_eq_some_iff.mp content
  rw [projectPost_isSome located, timestamp, bigintParam_nearest_isSome,
    textParam_isSome, ← dropped, Utf8.nul_mem_dropMark,
    ← Utf8.zero_mem_encode, Utf8.decode?_eq_some_iff.mp isText]
  constructor
  · rintro ⟨fits, clean, coordinates⟩
    exact ⟨fits, clean, coordinates⟩
  · rintro ⟨fits, clean, coordinates⟩
    exact ⟨fits, clean, coordinates⟩

section Handler

variable {contentTag : Bytes32}
variable {version : Nat}

/-- A row that tells its place is inserted under its keys. -/
theorem projectRow_isSome
    {chainId : Nat}
    {row : MessageRow}
    (placed : row.Placed chainId)
    (decoded : PostReplyMessage)
    (versionId : Nat) :
    ((postReplyHandler contentTag version).projectRow versionId row
        decoded).isSome = true ↔
      (projectPost row decoded).isSome = true := by
  obtain ⟨messageId, isId⟩ := Option.isSome_iff_exists.mp placed.identified
  obtain ⟨batchRef, isRef⟩ := Option.isSome_iff_exists.mp placed.attached
  have sameProject :
      (postReplyHandler contentTag version).project row decoded =
        projectPost row decoded :=
    rfl
  unfold IndexerHandler.projectRow
  rw [isId, isRef, sameProject]
  cases projectPost row decoded with
  | none =>
      simp
  | some values =>
      simp

/-- A confirmed row does not wedge the handler exactly if it is storable or its
contents do not decode. -/
theorem unwedged_iff_storable
    {chainId : Nat}
    {row : MessageRow}
    (placed : row.Placed chainId) :
    row.Unwedged (postReplyHandler contentTag version) ↔
      (postReplyHandler contentTag version).decode row.contents = none ∨
        row.Storable := by
  unfold MessageRow.Unwedged
  simp only [projectRow_isSome placed]
  cases decodes :
      (postReplyHandler contentTag version).decode row.contents with
  | none =>
      simp
  | some decoded =>
      have isOk : decodePostReplyContents row.contents = .ok decoded := by
        unfold postReplyHandler at decodes
        simp only at decodes
        cases result : decodePostReplyContents row.contents with
        | error error =>
            rw [result] at decodes
            cases decodes
        | ok message =>
            rw [result] at decodes
            cases decodes
            rfl
      have exactly :=
        projectPost_isSome_iff_storable placed.located isOk
      simp only [Option.some.injEq, reduceCtorEq, false_or,
        exists_eq_left', exactly, forall_const]

/-- No message of the tag wedges the handler where every confirmed one is
storable or does not decode. -/
theorem projectable_of_storable
    {config : SystemConfig}
    {options : TickOptions PostReplyMessage PostRow}
    {world : World}
    (isHandler : options.handler = postReplyHandler contentTag version)
    (placed : world.ConfirmedPlaced config)
    (storable :
      ∀ row ∈ world.store.messages.rows,
        row.status = .confirmed →
        row.contentTag = contentTag →
        options.handler.decode row.contents = none ∨ row.Storable) :
    Projectable options world.store := by
  intro row stored listed decoded decodes versionId
  have facts :
      row.status = .confirmed ∧
        row.contentTag = options.handler.contentTag := by
    simp only [MessageRow.isListed, Bool.and_eq_true,
      decide_eq_true_eq] at listed
    exact ⟨listed.1.1.1, listed.1.1.2⟩
  obtain ⟨confirmed, ofTag⟩ := facts
  have isPlaced :=
    placed row.key row (Table.mem_rows_iff.mp stored) confirmed
  rw [isHandler] at ofTag decodes ⊢
  have condition := storable row stored confirmed ofTag
  rw [isHandler] at condition
  rcases (unwedged_iff_storable isPlaced).mpr condition with
    undecodable | ⟨message, isMessage, projects⟩
  · rw [undecodable] at decodes
    cases decodes
  · cases isMessage.symm.trans decodes
    exact Option.isSome_iff_exists.mp (projects versionId)

/-- A confirmed row does not wedge the handler exactly if its contents do not
decode, or its timestamp, its content and its coordinates fit the table; and
where no confirmed row wedges it, ticks pass them all. -/
theorem unwedged_exactly_of_storable
    (contentTag : Bytes32)
    (version : Nat) :
    (∀ (chainId : Nat) (row : MessageRow),
      row.Placed chainId →
      (row.Unwedged (postReplyHandler contentTag version) ↔
        (postReplyHandler contentTag version).decode row.contents =
            none ∨
          row.Storable)) ∧
      ∀ (config : SystemConfig)
        (options : TickOptions PostReplyMessage PostRow)
        (versionId : Nat) (migratedAt : Int)
        (events : List (IndexingEvent SystemEvent))
        (final : Indexing World PostRow) (nows : ℕ → Int),
        options.chainId = config.chainId →
        options.handler = postReplyHandler contentTag version →
        0 < options.batchSize →
        Runs.exec? (indexingStep (serviceSource config) options)
          (Indexing.fresh version versionId migratedAt) events =
            some final →
        (∀ row ∈ final.source.store.messages.rows,
          row.status = .confirmed →
          row.contentTag = contentTag →
          options.handler.decode row.contents = none ∨ row.Storable) →
        EventuallyPassed config options final nows := by
  refine ⟨fun chainId row placed => unwedged_iff_storable placed, ?_⟩
  intro config options versionId migratedAt events final nows sameChain
    isHandler positive executed storable
  have placed := confirmedPlaced_indexing executed
  have projectable : Projectable options final.source.store :=
    projectable_of_storable isHandler placed storable
  have served : final.Served options :=
    Runs.Reachable.invariant
      (fun isServed taken => served_indexingStep isServed taken)
      served_fresh ⟨_, executed⟩
  have leads :=
    @leads_caughtUp_of_served _ _ _ _ (serviceSource config) _ positive
  obtain ⟨least, caughtUp⟩ :=
    leads.forever (fun _ now isCaughtUp => isCaughtUp.advance now)
      ⟨served, projectable⟩ nows
  refine ⟨least, fun count later => ?_⟩
  have isCaughtUp := caughtUp count later
  obtain ⟨current, isCurrent⟩ := isCaughtUp.quiet.served.current
  refine ⟨current, isCurrent, fun row stored confirmed ofTag => ?_⟩
  let keeps (world : Indexing World PostRow) : Prop :=
    world.source = final.source
  have kept : ∀ world now, keeps world →
      keeps (world.advance (serviceSource config) options now) :=
    fun _ _ same => same
  have initially : keeps final := rfl
  have sameSource :
      keeps (after (Indexing.advance (serviceSource config) options) nows
        final count) :=
    after_keeps kept initially count
  have isPlaced :=
    placed row.key row (Table.mem_rows_iff.mp stored) confirmed
  exact isCaughtUp.passed isCurrent (sameSource ▸ stored)
    (isListed_of_placed sameChain isPlaced confirmed ofTag)

end Handler

/-- The body of an empty post of a time. -/
def emptyPost (timestamp : Nat) : Bytes :=
  [ENVELOPE_VERSION, KIND_POST] ++ toBE 8 timestamp ++ toBE 4 0

/-- A confirmed row with a body. -/
def confirmedRow (contents : Bytes) : MessageRow where
  messageId := some 1
  sender := 7
  nonce := 0
  contentTag := 5
  contents := contents
  signature := [1]
  messageHash := 2
  status := .confirmed
  batchRef := some 3
  chainId := some 1
  ingestedAt := none
  ingestSeq := none
  blockNumber := some 100
  txIndex := some 0
  messageIndexWithinBatch := some 0

theorem placed_confirmedRow
    (contents : Bytes) :
    (confirmedRow contents).Placed 1 :=
  ⟨rfl, rfl, rfl, rfl⟩

def samplePostTicks : TickOptions PostReplyMessage PostRow where
  chainId := 1
  handler := postReplyHandler 5 1
  batchSize := 10

/-- The Reader confirms an empty post of second 9. -/
def readPost : List (IndexingEvent SystemEvent) :=
  [.source (.processBatch (sampleBatch 1 (emptyPost 9)))]

/-- The empty post of second 9 fits the table in block 100. -/
theorem storable_emptyPost
    {row : MessageRow}
    (contents : row.contents = emptyPost 9)
    (coordinates :
      (row.blockNumber, row.txIndex, row.messageIndexWithinBatch) =
        (some 100, some 0, some 0)) :
    row.Storable := by
  simp only [Prod.mk.injEq] at coordinates
  obtain ⟨isBlock, isTx, isMsg⟩ := coordinates
  refine ⟨?_, ?_, ?_⟩
  · rw [contents]
    decide
  · rw [contents]
    decide
  · refine ⟨fun number found => ?_, fun number found => ?_,
      fun number found => ?_⟩
    · cases isBlock.symm.trans found
      decide
    · cases isTx.symm.trans found
      decide
    · cases isMsg.symm.trans found
      decide

/-- The empty post of second 9 is inserted and passed. -/
theorem unwedged_emptyPost :
    (confirmedRow (emptyPost 9)).Unwedged (postReplyHandler 5 1) ∧
      ∃ final,
        Runs.exec?
            (indexingStep (serviceSource sampleConfig) samplePostTicks)
            (Indexing.fresh 1 0 0) readPost = some final ∧
          EventuallyPassed sampleConfig samplePostTicks final
            fun _ => 0 := by
  have view :
      (Runs.exec?
        (indexingStep (serviceSource sampleConfig) samplePostTicks)
        (Indexing.fresh 1 0 0) readPost).map
          (fun world =>
            world.source.store.messages.rows.map fun row =>
              (row.contents, row.blockNumber, row.txIndex,
                row.messageIndexWithinBatch)) =
        some [(emptyPost 9, some 100, some 0, some 0)] := by
    decide +kernel
  obtain ⟨final, executed, isView⟩ := Option.map_eq_some_iff.mp view
  refine ⟨((unwedged_exactly_of_storable 5 1).1 1 _
      (placed_confirmedRow _)).mpr (.inr (storable_emptyPost rfl rfl)),
    final, executed, ?_⟩
  refine (unwedged_exactly_of_storable 5 1).2 sampleConfig
    samplePostTicks 0 0 readPost final _ rfl rfl (by decide) executed ?_
  intro row stored _ _
  have isRow := List.mem_map_of_mem (f := fun row : MessageRow =>
    (row.contents, row.blockNumber, row.txIndex,
      row.messageIndexWithinBatch)) stored
  rw [isView] at isRow
  obtain ⟨contents, coordinates⟩ :=
    Prod.mk.inj (List.mem_singleton.mp isRow)
  exact .inr (storable_emptyPost contents coordinates)

/-- The empty post of second `2 ^ 63` decodes. -/
theorem decode_emptyPost :
    (postReplyHandler 5 1).decode (emptyPost (2 ^ 63)) =
      some (.post (2 ^ 63) []) := by
  have noBytes : contentBytes (emptyPost (2 ^ 63)) 14 = [] := by
    decide
  have noText : Utf8.decodeFatal? [] = some [] := by
    rw [Utf8.decodeFatal?, Utf8.decode?_eq_some_iff.mpr Utf8.encode_nil]
    rfl
  have read :
      readContent (emptyPost (2 ^ 63)) KIND_POST 14 = .ok [] := by
    rw [readContent, if_neg (by decide), noBytes, noText]
  have decoded :
      decodePostReplyContents (emptyPost (2 ^ 63)) =
        (readContent (emptyPost (2 ^ 63)) KIND_POST 14).map
          (.post (Binary64.nearest (readU64BE (emptyPost (2 ^ 63)) 2))) :=
    rfl
  have timestamp :
      Binary64.nearest (readU64BE (emptyPost (2 ^ 63)) 2) = 2 ^ 63 := by
    decide +kernel
  rw [read, timestamp] at decoded
  exact congrArg Except.toOption decoded

/-- The post of second `2 ^ 63` is decoded and never inserted. -/
theorem late_post_wedges :
    ¬ ∀ (contentTag : Bytes32) (version chainId : Nat) (row : MessageRow),
        row.Placed chainId →
        row.Unwedged (postReplyHandler contentTag version) := by
  intro claim
  rcases claim 5 1 1 (confirmedRow (emptyPost (2 ^ 63)))
      (placed_confirmedRow _) with
    undecodable | ⟨decoded, decodes, projects⟩
  · rw [show (confirmedRow (emptyPost (2 ^ 63))).contents =
        emptyPost (2 ^ 63) from rfl, decode_emptyPost] at undecodable
    cases undecodable
  · cases decode_emptyPost.symm.trans decodes
    have accepted := projects 0
    rw [projectRow_isSome (placed_confirmedRow _),
      projectPost_isSome rfl] at accepted
    have refused : bigintParam (2 ^ 63) = none := by
      decide +kernel
    rw [show (PostReplyMessage.post (2 ^ 63) []).timestamp = 2 ^ 63
      from rfl, refused] at accepted
    cases accepted.1

end Bam
