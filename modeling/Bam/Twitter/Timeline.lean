import Bam.Reader.LogScan
import Bam.Sdk.PostReply
import Bam.Store.Messages
import Mathlib.Data.List.ReduceOption

namespace Bam.Twitter

open Bytewise

/-!
# The Twitter timeline

The timeline is built twice: from the rows a Reader serves, and from the blobs
whose batches the receipts of the core contract's transactions name.
-/

/-- `keccak256("bam-twitter.v1")`. -/
def TWITTER_TAG : Bytes32 :=
  0xf0fea94ffd2ae32ed878c57e3427bbffab46d333d09837bc640d952795090718

def BAM_CORE : Address :=
  0xAC01D2d2E8016a14eb2b4bd318ae221f866B9725

/-- `TwitterMessage` has the shape of the SDK's post/reply message. -/
abbrev TwitterMessage := PostReplyMessage

/-- `decodeTwitterContents`, written like the SDK's codec. -/
def decodeTwitterContents
    (contents : Bytes) :
    Except PostReplyError (Bytes32 × TwitterMessage) :=
  (decodePostReplyContents contents).map fun app => (TWITTER_TAG, app)

structure ChainCoord where
  blockNumber : Nat
  txIndex : Nat
  messageIndexWithinBatch : Nat
  deriving Repr, DecidableEq

/-- The order of the sort by chain coordinate. -/
def ChainCoord.sortKey (coord : ChainCoord) : List Int :=
  [coord.blockNumber, coord.txIndex, coord.messageIndexWithinBatch]

/-- An entry of a timeline.  The author is missing where the row it is read
from has no such field; a hash of the chain path is the empty string. -/
structure IndexedTweet where
  author : Option Address
  nonce : Nat
  messageHash : Option Bytes32
  app : TwitterMessage
  coord : ChainCoord
  txHash : Option Bytes32
  deriving Repr, DecidableEq

structure BuildTimelineResult where
  timeline : List IndexedTweet
  skippedDecode : Nat
  skippedDedup : Nat
  deriving Repr, DecidableEq

/-- The loop that keeps the first entry of an author and a nonce; `none` where
the author is missing, since the key is built from its text. -/
def dedup :
    List (Address × Nat) → List IndexedTweet →
      Option (List IndexedTweet × Nat)
  | _, [] => some ([], 0)
  | seen, tweet :: rest =>
      match tweet.author with
      | none => none
      | some author =>
          if seen.any fun key => key.1 = author && key.2 = tweet.nonce then
            (dedup seen rest).map fun (timeline, skipped) =>
              (timeline, skipped + 1)
          else
            (dedup ((author, tweet.nonce) :: seen) rest).map
              fun (timeline, skipped) => (tweet :: timeline, skipped)

/-- The sort and the dedup both pipelines end with. -/
def sortAndDedup
    (decoded : List IndexedTweet)
    (skippedDecode : Nat) : Option BuildTimelineResult :=
  (dedup [] (Table.orderBy (fun tweet => tweet.coord.sortKey)
    decoded)).map fun (timeline, skippedDedup) =>
      { timeline, skippedDecode, skippedDedup }

/-- A row as the pipeline expects it from the Reader. -/
structure ReaderMessageRow where
  author : Option Address
  nonce : Nat
  messageHash : Bytes32
  contents : Bytes
  batchRef : Option Bytes32
  blockNumber : Option Nat
  txIndex : Option Nat
  messageIndexWithinBatch : Option Nat
  deriving Repr, DecidableEq

/-- A stored row as the Reader serves it: the sender stands under `sender`, and
there is no field `author`. -/
def ReaderMessageRow.ofServed (row : MessageRow) : ReaderMessageRow where
  author := none
  nonce := row.nonce
  messageHash := row.messageHash
  contents := row.contents
  batchRef := row.batchRef
  blockNumber := row.blockNumber
  txIndex := row.txIndex
  messageIndexWithinBatch := row.messageIndexWithinBatch

/-- The entry of a row; `none` where a coordinate is missing or the contents
are not a tweet. -/
def ReaderMessageRow.tweet? (row : ReaderMessageRow) :
    Option IndexedTweet :=
  match row.blockNumber, row.txIndex, row.messageIndexWithinBatch with
  | some blockNumber, some txIndex, some messageIndexWithinBatch =>
      match decodeTwitterContents row.contents with
      | .error _ => none
      | .ok (_, app) =>
          some {
            author := row.author
            nonce := row.nonce
            messageHash := some row.messageHash
            app := app
            coord := { blockNumber, txIndex, messageIndexWithinBatch }
            txHash := row.batchRef }
  | _, _, _ => none

/-- `buildTimeline`; `none` where it throws. -/
def buildTimeline
    (rows : List ReaderMessageRow) : Option BuildTimelineResult :=
  sortAndDedup (rows.filterMap ReaderMessageRow.tweet?)
    (rows.countP fun row => row.tweet?.isNone)

/-- The record of a tweet in the root's preimage. -/
def tweetRecord
    (author : Address)
    (tweet : IndexedTweet) : Bytes :=
  addressBytes author ++ toBE 8 tweet.nonce ++
    toBE 8 tweet.app.timestamp ++ Utf8.encode tweet.app.content

/-- `computeTimelineRoot`; `none` where it throws. -/
def computeTimelineRoot
    (sha256 : Bytes → Bytes32)
    (timeline : List IndexedTweet) : Option Bytes32 :=
  (timeline.mapM fun (tweet : IndexedTweet) =>
    tweet.author.map fun author =>
      let record := tweetRecord author tweet
      toBE 4 record.length ++ record).map fun records =>
        sha256 records.flatten

/-- A log of a receipt, with the contract that emitted it. -/
structure ReceiptLog where
  address : Address
  logIndex : Nat
  log : CoreLog
  deriving Repr, DecidableEq

/-- A transaction as Blobscan lists it, with its receipt. -/
structure BlobscanTx where
  hash : Bytes32
  blockNumber : Nat
  transactionIndex : Nat
  logs : List ReceiptLog
  deriving Repr, DecidableEq

structure ParsedBbr where
  txHash : Bytes32
  blockNumber : Nat
  txIndex : Nat
  logIndex : Nat
  versionedHash : Bytes32
  deriving Repr, DecidableEq

structure ParsedBsd where
  logIndex : Nat
  versionedHash : Bytes32
  startFE : Nat
  endFE : Nat
  deriving Repr, DecidableEq

/-- The logs of the core contract about the tag. -/
def BlobscanTx.tagLogs (tx : BlobscanTx) : List ReceiptLog :=
  tx.logs.filter fun log =>
    log.address = BAM_CORE && log.log.contentTag = TWITTER_TAG

/-- The registrations `parseReceiptEvents` finds. -/
def BlobscanTx.bbr (tx : BlobscanTx) : List ParsedBbr :=
  tx.tagLogs.filterMap fun log =>
    match log.log with
    | .BlobSegmentDeclared _ => none
    | .BlobBatchRegistered args =>
        some {
          txHash := tx.hash
          blockNumber := tx.blockNumber
          txIndex := tx.transactionIndex
          logIndex := log.logIndex
          versionedHash := args.versionedHash }

/-- The declared segments `parseReceiptEvents` finds. -/
def BlobscanTx.bsd (tx : BlobscanTx) : List ParsedBsd :=
  tx.tagLogs.filterMap fun log =>
    match log.log with
    | .BlobSegmentDeclared args =>
        some {
          logIndex := log.logIndex
          versionedHash := args.versionedHash
          startFE := args.startFE.toNat
          endFE := args.endFE.toNat }
    | .BlobBatchRegistered _ => none

/-- `pairSegmentsForTx` of one registration: the last segment of its blob
declared before it. -/
def pairSegment
    (bbr : ParsedBbr)
    (bsdList : List ParsedBsd) : Option ParsedBsd :=
  (Table.orderBy (fun bsd => [(bsd.logIndex : Int)])
    bsdList).reverse.find? fun bsd =>
      bsd.logIndex < bbr.logIndex && bsd.versionedHash = bbr.versionedHash

structure BlobBatch where
  versionedHash : Bytes32
  blockNumber : Nat
  txIndex : Nat
  logIndex : Nat
  txHash : Bytes32
  startFE : Nat
  endFE : Nat
  blobBytes : Bytes
  deriving Repr, DecidableEq

/-- The order registrations are fetched in. -/
def ParsedBbr.sortKey (bbr : ParsedBbr) : List Int :=
  [bbr.blockNumber, bbr.txIndex, bbr.logIndex]

/-- `fetchBlobBatches` without a cache, over the listed transactions and what
Blobscan answers for a blob. -/
def fetchBlobBatches
    (txs : List BlobscanTx)
    (blobBytes : Bytes32 → Option Bytes) : List BlobBatch :=
  let segments := (txs.filter fun tx => tx.bsd ≠ []).reverse
  (Table.orderBy ParsedBbr.sortKey
    (txs.flatMap BlobscanTx.bbr)).filterMap fun bbr =>
      let bsdList :=
        ((segments.find? fun tx => tx.hash = bbr.txHash).map
          BlobscanTx.bsd).getD []
      let range := pairSegment bbr bsdList
      (blobBytes bbr.versionedHash).map fun bytes => {
        versionedHash := bbr.versionedHash
        blockNumber := bbr.blockNumber
        txIndex := bbr.txIndex
        logIndex := bbr.logIndex
        txHash := bbr.txHash
        startFE := (range.map ParsedBsd.startFE).getD 0
        endFE :=
          (range.map ParsedBsd.endFE).getD FIELD_ELEMENTS_PER_BLOB
        blobBytes := bytes }

/-- The messages of a batch; `none` where its segment is not a batch. -/
def BlobBatch.messages?
    (decompress : Bytes → Except BatchError Bytes)
    (batch : BlobBatch) : Option (List BAMMessage) :=
  match extractSegmentBytes batch.blobBytes batch.startFE batch.endFE with
  | .error _ => none
  | .ok usableBytes =>
      match decodeBatch decompress usableBytes with
      | .error _ => none
      | .ok decoded => some decoded.messages

/-- The entry of a message of a batch. -/
def BlobBatch.tweet?
    (batch : BlobBatch)
    (message : BAMMessage)
    (msgIdx : Nat) : Option IndexedTweet :=
  match decodeTwitterContents message.contents with
  | .error _ => none
  | .ok (_, app) =>
      some {
        author := some message.sender
        nonce := message.nonce
        messageHash := none
        app := app
        coord := {
          blockNumber := batch.blockNumber
          txIndex := batch.txIndex
          messageIndexWithinBatch := msgIdx }
        txHash := some batch.txHash }

/-- The entries of a batch. -/
def BlobBatch.tweets
    (decompress : Bytes → Except BatchError Bytes)
    (batch : BlobBatch) : List (Option IndexedTweet) :=
  match batch.messages? decompress with
  | none => [none]
  | some messages =>
      messages.zipIdx.map fun (message, msgIdx) =>
        batch.tweet? message msgIdx

/-- `buildTimelineFromBlobs`; `none` where it throws. -/
def buildTimelineFromBlobs
    (decompress : Bytes → Except BatchError Bytes)
    (batches : List BlobBatch) : Option BuildTimelineResult :=
  let sorted :=
    Table.orderBy
      (fun batch : BlobBatch =>
        [(batch.blockNumber : Int), (batch.logIndex : Int)])
      batches
  let found := sorted.flatMap (BlobBatch.tweets decompress)
  sortAndDedup found.reduceOption (found.countP Option.isNone)

/-- What two timelines are compared by: authors, nonces, contents and
coordinates. -/
def IndexedTweet.content
    (tweet : IndexedTweet) :
    Option Address × Nat × TwitterMessage × ChainCoord :=
  (tweet.author, tweet.nonce, tweet.app, tweet.coord)

/-- Both pipelines return, with one timeline and one root. -/
def TimelinesAgree
    (sha256 : Bytes → Bytes32)
    (first second : Option BuildTimelineResult) : Prop :=
  ∃ left right,
    first = some left ∧ second = some right ∧
      left.timeline.map IndexedTweet.content =
        right.timeline.map IndexedTweet.content ∧
      computeTimelineRoot sha256 left.timeline =
        computeTimelineRoot sha256 right.timeline

/-- The contents are a tweet. -/
def isTweet (contents : Bytes) : Bool :=
  (decodeTwitterContents contents).toOption.isSome

/-- The row has its coordinate, and its contents are a tweet. -/
def hasTweet (row : MessageRow) : Bool :=
  row.blockNumber.isSome && row.txIndex.isSome &&
    row.messageIndexWithinBatch.isSome && isTweet row.contents

/-- A message of the batch is a tweet. -/
def BlobBatch.hasTweet
    (decompress : Bytes → Except BatchError Bytes)
    (batch : BlobBatch) : Bool :=
  ((batch.messages? decompress).getD []).any fun message =>
    isTweet message.contents

section Agreement

variable {decompress : Bytes → Except BatchError Bytes}

/-- A served row has an entry exactly if it has a tweet. -/
theorem isSome_tweet?_ofServed
    (row : MessageRow) :
    (ReaderMessageRow.ofServed row).tweet?.isSome = hasTweet row := by
  unfold ReaderMessageRow.tweet? hasTweet isTweet
  simp only [ReaderMessageRow.ofServed]
  cases row.blockNumber with
  | none =>
      rfl
  | some blockNumber =>
  cases row.txIndex with
  | none =>
      rfl
  | some txIndex =>
  cases row.messageIndexWithinBatch with
  | none =>
      rfl
  | some index =>
  cases decodeTwitterContents row.contents with
  | error error =>
      rfl
  | ok decoded =>
      rfl

/-- The entry of a served row has no author. -/
theorem author_tweet?_ofServed
    {row : MessageRow}
    {tweet : IndexedTweet}
    (found : (ReaderMessageRow.ofServed row).tweet? = some tweet) :
    tweet.author = none := by
  unfold ReaderMessageRow.tweet? at found
  split at found
  · split at found
    · cases found
    · cases found
      rfl
  · cases found

/-- A message of a batch has an entry exactly if it is a tweet. -/
theorem isSome_tweet?
    (batch : BlobBatch)
    (message : BAMMessage)
    (msgIdx : Nat) :
    (batch.tweet? message msgIdx).isSome = isTweet message.contents := by
  unfold BlobBatch.tweet? isTweet
  cases decodeTwitterContents message.contents with
  | error error =>
      rfl
  | ok decoded =>
      rfl

/-- A batch has entries exactly if it has a tweet. -/
theorem hasTweet_iff
    {batch : BlobBatch} :
    batch.hasTweet decompress = true ↔
      ∃ tweet, some tweet ∈ batch.tweets decompress := by
  unfold BlobBatch.hasTweet BlobBatch.tweets
  cases batch.messages? decompress with
  | none =>
      simp
  | some messages =>
      rw [Option.getD_some, List.any_eq_true]
      constructor
      · rintro ⟨message, member, carried⟩
        obtain ⟨msgIdx, isAt⟩ := List.mem_iff_getElem?.mp member
        rw [← isSome_tweet? batch message msgIdx] at carried
        obtain ⟨tweet, found⟩ := Option.isSome_iff_exists.mp carried
        refine ⟨tweet, List.mem_map.mpr ⟨(message, msgIdx), ?_, found⟩⟩
        exact List.mem_zipIdx_iff_getElem?.mpr isAt
      · rintro ⟨tweet, member⟩
        obtain ⟨⟨message, msgIdx⟩, inMessages, found⟩ :=
          List.mem_map.mp member
        have isAt := List.mem_zipIdx_iff_getElem?.mp inMessages
        have isFound : batch.tweet? message msgIdx = some tweet :=
          found
        refine ⟨message, List.mem_of_getElem? isAt, ?_⟩
        rw [← isSome_tweet? batch message msgIdx, isFound]
        rfl

/-- A timeline of entries without authors is not built. -/
theorem sortAndDedup_none
    {decoded : List IndexedTweet}
    (missing : ∀ tweet ∈ decoded, tweet.author = none)
    (nonempty : decoded ≠ [])
    (skippedDecode : Nat) :
    sortAndDedup decoded skippedDecode = none := by
  unfold sortAndDedup
  cases ordered : Table.orderBy
      (fun tweet : IndexedTweet => tweet.coord.sortKey) decoded with
  | nil =>
      have perm :=
        Table.orderBy_perm
          (fun tweet : IndexedTweet => tweet.coord.sortKey) decoded
      rw [ordered] at perm
      exact absurd perm.nil_eq.symm nonempty
  | cons first rest =>
      have inOrder :
          first ∈ Table.orderBy
            (fun tweet : IndexedTweet => tweet.coord.sortKey) decoded :=
        ordered ▸ List.mem_cons_self
      have isMissing := missing first (Table.mem_orderBy.mp inOrder)
      simp only [dedup, isMissing, Option.map_none]

/-- A timeline is empty only if nothing is decoded. -/
theorem decoded_of_timeline_nil
    {decoded : List IndexedTweet}
    {skippedDecode : Nat}
    {result : BuildTimelineResult}
    (built : sortAndDedup decoded skippedDecode = some result)
    (isEmpty : result.timeline = []) :
    decoded = [] := by
  unfold sortAndDedup at built
  cases ordered : Table.orderBy
      (fun tweet : IndexedTweet => tweet.coord.sortKey) decoded with
  | nil =>
      have perm :=
        Table.orderBy_perm
          (fun tweet : IndexedTweet => tweet.coord.sortKey) decoded
      rw [ordered] at perm
      exact perm.nil_eq.symm
  | cons first rest =>
      rw [ordered] at built
      unfold dedup at built
      cases isAuthor : first.author with
      | none =>
          simp [isAuthor] at built
      | some author =>
          simp only [isAuthor, List.any_nil, Bool.false_eq_true,
            if_false, Option.map_map, Option.map_eq_some_iff] at built
          obtain ⟨_, -, rfl⟩ := built
          cases isEmpty

/-- Nothing decoded gives an empty timeline. -/
theorem sortAndDedup_nil
    (skippedDecode : Nat) :
    sortAndDedup [] skippedDecode =
      some { timeline := [], skippedDecode, skippedDedup := 0 } :=
  rfl

end Agreement

/-- The timeline of the rows a Reader serves agrees with that of the blobs
exactly where neither of them has a tweet. -/
theorem timelines_agree_iff
    (sha256 : Bytes → Bytes32)
    (decompress : Bytes → Except BatchError Bytes)
    (store : Store)
    (txs : List BlobscanTx)
    (blobBytes : Bytes32 → Option Bytes) :
    TimelinesAgree sha256
        (buildTimeline ((store.confirmedMessages TWITTER_TAG).map
          ReaderMessageRow.ofServed))
        (buildTimelineFromBlobs decompress
          (fetchBlobBatches txs blobBytes)) ↔
      (∀ row ∈ store.messages.rows,
          row.contentTag = TWITTER_TAG → row.status = .confirmed →
          hasTweet row = false) ∧
        ∀ batch ∈ fetchBlobBatches txs blobBytes,
          batch.hasTweet decompress = false := by
  have rowTweets :
      ((store.confirmedMessages TWITTER_TAG).map
          ReaderMessageRow.ofServed).filterMap
            ReaderMessageRow.tweet? = [] ↔
        ∀ row ∈ store.messages.rows,
          row.contentTag = TWITTER_TAG → row.status = .confirmed →
          hasTweet row = false := by
    rw [List.filterMap_eq_nil_iff]
    simp only [List.forall_mem_map, Store.confirmedMessages,
      Table.mem_orderBy, Table.mem_select, Bool.and_eq_true,
      decide_eq_true_eq, ← isSome_tweet?_ofServed,
      Option.isSome_eq_false_iff, Option.isNone_iff_eq_none, and_imp]
  have blobTweets :
      ((Table.orderBy
        (fun batch : BlobBatch =>
          [(batch.blockNumber : Int), (batch.logIndex : Int)])
        (fetchBlobBatches txs blobBytes)).flatMap
          (BlobBatch.tweets decompress)).reduceOption = [] ↔
        ∀ batch ∈ fetchBlobBatches txs blobBytes,
          batch.hasTweet decompress = false := by
    rw [List.eq_nil_iff_forall_not_mem]
    simp only [List.reduceOption_mem_iff, List.mem_flatMap,
      Table.mem_orderBy]
    constructor
    · intro isEmpty batch member
      by_contra carried
      obtain ⟨tweet, found⟩ :=
        hasTweet_iff.mp (Bool.not_eq_false _ ▸ carried)
      exact isEmpty tweet ⟨batch, member, found⟩
    · rintro without tweet ⟨batch, member, found⟩
      have carried := hasTweet_iff.mpr ⟨tweet, found⟩
      rw [without batch member] at carried
      cases carried
  rw [← rowTweets, ← blobTweets]
  constructor
  · rintro ⟨left, right, isLeft, isRight, same, -⟩
    have rowsEmpty :
        ((store.confirmedMessages TWITTER_TAG).map
          ReaderMessageRow.ofServed).filterMap
            ReaderMessageRow.tweet? = [] := by
      by_contra nonempty
      unfold buildTimeline at isLeft
      rw [sortAndDedup_none ?_ nonempty] at isLeft
      · cases isLeft
      · intro tweet member
        obtain ⟨served, inRows, found⟩ := List.mem_filterMap.mp member
        obtain ⟨row, -, rfl⟩ := List.mem_map.mp inRows
        exact author_tweet?_ofServed found
    refine ⟨rowsEmpty, decoded_of_timeline_nil isRight ?_⟩
    unfold buildTimeline at isLeft
    rw [rowsEmpty, sortAndDedup_nil] at isLeft
    cases isLeft
    exact List.map_eq_nil_iff.mp same.symm
  · rintro ⟨rowsEmpty, blobsEmpty⟩
    unfold buildTimeline buildTimelineFromBlobs
    simp only [rowsEmpty, blobsEmpty, sortAndDedup_nil]
    exact ⟨_, _, rfl, rfl, rfl, rfl⟩

/-- An empty post. -/
def sampleMessage : BAMMessage where
  sender := 7
  nonce := 0
  contents := [1, 0, 0, 0, 0, 0, 0, 0, 0, 0, 0, 0, 0, 0]

def sampleSignature : Bytes :=
  List.replicate 64 0 ++ [27]

def sampleEncoded : EncodedBatch where
  data :=
    [0x02, 0x00, 0, 0, 0, 1, 0, 0, 0, 111] ++
      encodeRecord sampleMessage sampleSignature
  messageCount := 1
  codec := .none
  size := 121

theorem encode_sampleMessage :
    encodeBatch [sampleMessage] [sampleSignature] .none =
      .ok sampleEncoded := by
  decide +kernel

/-- Libraries under which every key is that of the author. -/
def sampleLibraries : ReaderLibraries where
  crypto := {
    keccak256 := fun _ => 7
    hashTypedData := fun _ => 0
    hasHighS := fun _ => false
    recoverPublicKey := fun _ _ _ => some [] }
  decompress := fun _ => .error .decompression

def sampleOptions : ProcessBatchOptions where
  event := {
    blockNumber := 100
    txIndex := 0
    logIndex := 1
    txHash := 1
    versionedHash := 2
    submitter := 9
    contentTag := TWITTER_TAG
    decoder := 0
    signatureRegistry := 0
    startFE := some 0
    endFE := some 4 }
  l1IncludedAtUnixSec := some 0
  chainId := 1
  fetchBlob := some (payloadBlob sampleEncoded.data)
  decodeAnswer := fun _ => none
  verifyAnswer := fun _ _ _ _ => none

/-- The transaction that registers the batch, as Blobscan lists it. -/
def sampleTx : BlobscanTx where
  hash := 1
  blockNumber := 100
  transactionIndex := 0
  logs := [
    { address := BAM_CORE
      logIndex := 0
      log := .BlobSegmentDeclared {
        versionedHash := 2
        declarer := 9
        startFE := 0
        endFE := 4
        contentTag := TWITTER_TAG } },
    { address := BAM_CORE
      logIndex := 1
      log := .BlobBatchRegistered {
        versionedHash := 2
        submitter := 9
        contentTag := TWITTER_TAG
        decoder := 0
        signatureRegistry := 0 } }]

def sampleEntry : VerifiedEntry where
  message := sampleMessage
  signature := sampleSignature
  indexWithinBatch := 0
  messageHash := 7

theorem readSegment_sample :
    readSegment sampleLibraries sampleOptions = some [sampleEntry] := by
  have isRead :
      readSegment sampleLibraries sampleOptions = _ :=
    readSegment_payloadBlob encode_sampleMessage (by decide)
      (by decide +kernel) (by decide) rfl rfl rfl (by decide)
      (by decide +kernel) (by decide) rfl
  rw [isRead]
  decide +kernel

/-- The row the Reader keeps of the post. -/
def sampleRow : MessageRow :=
  sampleEntry.messageRow sampleOptions 7

def sampleStore : Store :=
  (Store.empty.upsertBatch sampleOptions.baseBatch).putMessage sampleRow

/-- The Reader keeps one post, and its timeline is not built, though the blob
is there for the other pipeline. -/
theorem served_post_has_no_author :
    readSegment sampleLibraries sampleOptions = some [sampleEntry] ∧
      sampleRow ∈
        sampleOptions.messageRows sampleLibraries [sampleEntry] ∧
      (fetchBlobBatches [sampleTx] fun _ => sampleOptions.fetchBlob).length
        = 1 ∧
      ¬TimelinesAgree (fun _ => 0)
        (buildTimeline ((sampleStore.confirmedMessages TWITTER_TAG).map
          ReaderMessageRow.ofServed))
        (buildTimelineFromBlobs sampleLibraries.decompress
          (fetchBlobBatches [sampleTx]
            fun _ => sampleOptions.fetchBlob)) := by
  refine ⟨readSegment_sample, ?_, rfl, ?_⟩
  · decide +kernel
  · rintro ⟨left, right, isLeft, -⟩
    have throws :
        buildTimeline ((sampleStore.confirmedMessages TWITTER_TAG).map
          ReaderMessageRow.ofServed) = none := by
      decide +kernel
    rw [throws] at isLeft
    cases isLeft

end Bam.Twitter
