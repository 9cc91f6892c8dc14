import Bam.Lib.DigitText
import Bam.Lib.ExceptLoops
import Bam.Lib.Utf16
import Bam.Store.Nonces
import Mathlib.Data.List.Find
import Mathlib.Data.List.Sort

namespace Bam

/-!
# The nonce column as text

The `messages` table as the database holds it: the nonce is a text of twenty
digits, keys are compared and rows are ordered by that text, and only
`encodeNonce` and `decodeNonce` go between texts and numbers.  Texts compare by
code points, as digits do under every collation.
-/

def NONCE_TEXT_WIDTH : Nat := 20

/-- What the nonce codec throws. -/
inductive NonceCodecError where
  | outOfRange (nonce : Int)
  | unexpectedWidth (length : Nat)
  | notDigits (text : String)
  | exceedsMax (text : String)
  deriving Repr, DecidableEq

def NonceCodecError.message : NonceCodecError → String
  | outOfRange nonce => s!"nonce out of uint64 range: {nonce}"
  | unexpectedWidth length => s!"nonce text has unexpected width {length}"
  | notDigits text => s!"nonce text is not 20 decimal digits: {text}"
  | exceedsMax text => s!"nonce text exceeds uint64 max: {text}"

/-- `nonce.toString().padStart(NONCE_TEXT_WIDTH, '0')`, for a natural
number. -/
def paddedNonce (nonce : Nat) : String :=
  String.ofList (DigitText.padded NONCE_TEXT_WIDTH nonce)

/-- `encodeNonce`. -/
def encodeNonce (nonce : Int) : Except NonceCodecError String :=
  if nonce < 0 ∨ (MAX_NONCE : Int) < nonce then .error (.outOfRange nonce)
  else .ok (paddedNonce nonce.toNat)

/-- `decodeNonce`. -/
def decodeNonce (text : String) : Except NonceCodecError Nat :=
  let length := (Utf16.encode text.toList).length
  if length ≠ NONCE_TEXT_WIDTH then .error (.unexpectedWidth length)
  else if text.toList.all Char.isDigit = false then
    .error (.notDigits text)
  else if MAX_NONCE < DigitText.value text.toList then
    .error (.exceedsMax text)
  else .ok (DigitText.value text.toList)

/-- A row of the `messages` table as the database holds it. -/
structure RawMessage where
  messageId : Option Bytes32
  sender : Address
  nonce : String
  contentTag : Bytes32
  contents : Bytes
  signature : Bytes
  messageHash : Bytes32
  status : MessageStatus
  batchRef : Option Bytes32
  chainId : Option Nat
  ingestedAt : Option Int
  ingestSeq : Option Nat
  blockNumber : Option Nat
  txIndex : Option Nat
  messageIndexWithinBatch : Option Nat
  deriving Repr, DecidableEq

/-- `PRIMARY KEY (sender, nonce)`. -/
def RawMessage.key (row : RawMessage) : Address × String :=
  (row.sender, row.nonce)

abbrev RawMessages := Table (Address × String) RawMessage RawMessage.key

/-- The values a write gives a row under the text of its nonce. -/
def MessageRow.withNonceText
    (row : MessageRow)
    (nonce : String) : RawMessage where
  messageId := row.messageId
  sender := row.sender
  nonce := nonce
  contentTag := row.contentTag
  contents := row.contents
  signature := row.signature
  messageHash := row.messageHash
  status := row.status
  batchRef := row.batchRef
  chainId := row.chainId
  ingestedAt := row.ingestedAt
  ingestSeq := row.ingestSeq
  blockNumber := row.blockNumber
  txIndex := row.txIndex
  messageIndexWithinBatch := row.messageIndexWithinBatch

/-- A row as `markSubmitted` leaves it. -/
def RawMessage.markedSubmitted
    (batchRef : Bytes32)
    (row : RawMessage) : RawMessage :=
  { row with status := .submitted, batchRef := some batchRef }

theorem RawMessage.key_markedSubmitted
    (batchRef : Bytes32)
    (row : RawMessage) :
    (row.markedSubmitted batchRef).key = row.key :=
  rfl

/-- A row as `markReorged` leaves it. -/
def RawMessage.markedReorged (row : RawMessage) : RawMessage :=
  { row with status := .reorged }

theorem RawMessage.key_markedReorged
    (row : RawMessage) :
    row.markedReorged.key = row.key :=
  rfl

/-- What a write to the table throws. -/
inductive RawStoreError where
  | codec (error : NonceCodecError)
  | duplicateMessage (sender : Address) (nonce : Nat)
  | messageHashConflict
  | markSubmitted (expected updated : Nat)
  deriving Repr, DecidableEq

namespace RawMessages

/-- `insertPending`. -/
def insertPending
    (table : RawMessages)
    (row : StoreTxnPendingRow) : Except RawStoreError RawMessages :=
  match encodeNonce row.nonce with
  | .error error => .error (.codec error)
  | .ok nonce =>
      let inserted := table.put (row.toMessageRow.withNonceText nonce)
      match table.get? (row.sender, nonce) with
      | none => .ok inserted
      | some existing =>
          if existing.status = .reorged then .ok inserted
          else .error (.duplicateMessage row.sender row.nonce)

/-- `upsertObserved`. -/
def upsertObserved
    (table : RawMessages)
    (row : MessageRow) : Except RawStoreError RawMessages :=
  match encodeNonce row.nonce with
  | .error error => .error (.codec error)
  | .ok nonce =>
      match table.get? (row.sender, nonce) with
      | none => .ok (table.put (row.withNonceText nonce))
      | some existing =>
          if existing.messageHash ≠ row.messageHash then
            .error .messageHashConflict
          else if existing.status = .confirmed then .ok table
          else .ok (table.put (row.withNonceText nonce))

/-- `CHUNK` of `markSubmitted`. -/
def CHUNK : Nat := 500

/-- One `UPDATE` of `markSubmitted`. -/
def markSubmittedSlice
    (table : RawMessages)
    (batchRef : Bytes32)
    (slice : List MessageKey) : Except RawStoreError RawMessages :=
  match slice.mapM fun key =>
      (encodeNonce key.2).map fun nonce => (key.1, nonce) with
  | .error error => .error (.codec error)
  | .ok tuples =>
      let hit (row : RawMessage) : Bool :=
        row.status = .pending &&
          tuples.any fun tuple => row.key = tuple
      let rowCount := (table.select hit).length
      if rowCount = slice.length then
        .ok (table.update hit (RawMessage.markedSubmitted batchRef)
          (RawMessage.key_markedSubmitted batchRef))
      else .error (.markSubmitted slice.length rowCount)

/-- `markSubmitted`. -/
def markSubmitted
    (table : RawMessages)
    (keys : List MessageKey)
    (batchRef : Bytes32) : Except RawStoreError RawMessages :=
  (keys.toChunks CHUNK).foldlM
    (fun reached slice => markSubmittedSlice reached batchRef slice) table

/-- What `markReorged` does to the messages. -/
def markReorged
    (table : RawMessages)
    (chainId : Nat)
    (txHash : Bytes32) : RawMessages :=
  table.update
    (fun row =>
      row.batchRef = some txHash && row.chainId = some chainId &&
        row.status = .confirmed)
    RawMessage.markedReorged RawMessage.key_markedReorged

/-- `deleteMessages`. -/
def deleteMessages
    (table : RawMessages)
    (chainId : Nat) : RawMessages :=
  table.deleteWhere fun row => row.chainId = some chainId

/-- The rows of `getMaxNonReorgedNonce`, in the order of its `ORDER BY`. -/
def takenDescending
    (table : RawMessages)
    (sender : Address) : List RawMessage :=
  (table.select fun row =>
    row.sender = sender && row.status ≠ .reorged).insertionSort
      fun first second => second.nonce ≤ first.nonce

/-- `getMaxNonReorgedNonce`. -/
def getMaxNonReorgedNonce
    (table : RawMessages)
    (sender : Address) : Except RawStoreError (Option NonceTrackerRow) :=
  match (table.takenDescending sender).head? with
  | none => .ok none
  | some row =>
      match decodeNonce row.nonce with
      | .error error => .error (.codec error)
      | .ok nonce =>
          .ok (some {
            sender := sender
            lastNonce := nonce
            lastMessageHash := row.messageHash })

end RawMessages

/-- The writes of a store transaction to the messages. -/
inductive RawWrite where
  | insertPending (row : StoreTxnPendingRow)
  | upsertObserved (row : MessageRow)
  | markSubmitted (keys : List MessageKey) (batchRef : Bytes32)
  | markReorged (chainId : Nat) (txHash : Bytes32)
  | deleteMessages (chainId : Nat)

/-- A write that throws rolls its transaction back. -/
def RawMessages.write
    (table : RawMessages) : RawWrite → RawMessages
  | .insertPending row => (table.insertPending row).toOption.getD table
  | .upsertObserved row => (table.upsertObserved row).toOption.getD table
  | .markSubmitted keys batchRef =>
      (table.markSubmitted keys batchRef).toOption.getD table
  | .markReorged chainId txHash => table.markReorged chainId txHash
  | .deleteMessages chainId => table.deleteMessages chainId

/-- The table after a run of writes. -/
def RawMessages.afterWrites
    (writes : List RawWrite) : RawMessages :=
  writes.foldl RawMessages.write Table.empty

section Codec

variable {nonce other : Nat}

theorem toList_paddedNonce
    (nonce : Nat) :
    (paddedNonce nonce).toList =
      DigitText.padded NONCE_TEXT_WIDTH nonce :=
  String.toList_ofList

theorem MAX_NONCE_fits
    (inRange : nonce ≤ MAX_NONCE) :
    nonce < 10 ^ NONCE_TEXT_WIDTH :=
  Nat.lt_of_le_of_lt inRange (by decide)

/-- A number is encoded where it is a `uint64`. -/
theorem encodeNonce_natCast
    (nonce : Nat) :
    encodeNonce nonce =
      if nonce ≤ MAX_NONCE then .ok (paddedNonce nonce)
      else .error (.outOfRange nonce) := by
  unfold encodeNonce
  by_cases inRange : nonce ≤ MAX_NONCE
  · rw [if_pos inRange, if_neg (by omega)]
    rfl
  · rw [if_neg inRange, if_pos (by omega)]

/-- Digits are one code unit each. -/
theorem length_encode_of_digits
    {text : List Char}
    (digits : DigitText.AllDigits text) :
    (Utf16.encode text).length = text.length := by
  induction text with
  | nil => rfl
  | cons character rest inductionHypothesis =>
      have bounds := Char.isDigit_iff_toNat.mp
        (digits character List.mem_cons_self)
      have nine : '9'.toNat = 57 := rfl
      have single : (Utf16.encodeChar character).length = 1 := by
        rw [Utf16.encodeChar, if_pos (by omega)]
        rfl
      rw [Utf16.encode_cons, List.length_append, single,
        inductionHypothesis digits.tail, List.length_cons, Nat.add_comm]

/-- Decoding an encoded nonce gives it back. -/
theorem decodeNonce_paddedNonce
    (inRange : nonce ≤ MAX_NONCE) :
    decodeNonce (paddedNonce nonce) = .ok nonce := by
  have digits := DigitText.padded_digits NONCE_TEXT_WIDTH nonce
  have width :
      (Utf16.encode (DigitText.padded NONCE_TEXT_WIDTH nonce)).length =
        NONCE_TEXT_WIDTH := by
    rw [length_encode_of_digits digits,
      DigitText.length_padded (by decide) (MAX_NONCE_fits inRange)]
  have allDigits :
      (DigitText.padded NONCE_TEXT_WIDTH nonce).all Char.isDigit = true :=
    List.all_eq_true.mpr digits
  unfold decodeNonce
  simp only [toList_paddedNonce, width, allDigits, DigitText.value_padded]
  rw [if_neg (not_not.mpr rfl), if_neg (by decide),
    if_neg (Nat.not_lt.mpr inRange)]

/-- Encoded nonces compare as texts as they do as numbers. -/
theorem paddedNonce_lt_iff
    (inRange : nonce ≤ MAX_NONCE)
    (otherInRange : other ≤ MAX_NONCE) :
    paddedNonce nonce < paddedNonce other ↔ nonce < other := by
  rw [String.lt_iff_toList_lt, toList_paddedNonce, toList_paddedNonce,
    DigitText.padded_lt_iff (by decide) (MAX_NONCE_fits inRange)
      (MAX_NONCE_fits otherInRange)]

theorem paddedNonce_le_iff
    (inRange : nonce ≤ MAX_NONCE)
    (otherInRange : other ≤ MAX_NONCE) :
    paddedNonce nonce ≤ paddedNonce other ↔ nonce ≤ other := by
  rw [← not_lt, ← not_lt, paddedNonce_lt_iff otherInRange inRange]

theorem paddedNonce_inj
    (inRange : nonce ≤ MAX_NONCE)
    (otherInRange : other ≤ MAX_NONCE) :
    paddedNonce nonce = paddedNonce other ↔ nonce = other := by
  rw [le_antisymm_iff, le_antisymm_iff,
    paddedNonce_le_iff inRange otherInRange,
    paddedNonce_le_iff otherInRange inRange]

end Codec

/-- A row whose nonce was written by `encodeNonce`. -/
def RawMessage.Encoded (row : RawMessage) : Prop :=
  ∃ nonce, nonce ≤ MAX_NONCE ∧ row.nonce = paddedNonce nonce

namespace RawMessages

/-- Every nonce of the table was written by `encodeNonce`. -/
def Encoded (table : RawMessages) : Prop :=
  ∀ row ∈ table.rows, row.Encoded

section Writes

variable {table next : RawMessages}

theorem Encoded.put
    (encoded : table.Encoded)
    (row : RawMessage)
    (rowEncoded : row.Encoded) :
    RawMessages.Encoded (table.put row) := by
  intro other member
  rcases Table.mem_put.mp member with rfl | ⟨isOld, _⟩
  · exact rowEncoded
  · exact encoded other isOld

theorem Encoded.update
    (encoded : table.Encoded)
    {p : RawMessage → Bool}
    {f : RawMessage → RawMessage}
    (keepsKey : ∀ row, (f row).key = row.key) :
    RawMessages.Encoded (table.update p f keepsKey) := by
  intro other member
  obtain ⟨row, isOld, rfl⟩ := List.mem_map.mp member
  obtain ⟨nonce, inRange, isText⟩ := encoded row isOld
  refine ⟨nonce, inRange, ?_⟩
  split
  · have sameNonce : (f row).nonce = row.nonce :=
      congrArg Prod.snd (keepsKey row)
    rw [sameNonce, isText]
  · exact isText

theorem Encoded.insertPending
    (encoded : table.Encoded)
    {row : StoreTxnPendingRow}
    (inserted : table.insertPending row = .ok next) :
    next.Encoded := by
  rw [RawMessages.insertPending, encodeNonce_natCast] at inserted
  by_cases inRange : row.nonce ≤ MAX_NONCE
  · rw [if_pos inRange] at inserted
    have kept :=
      encoded.put (row.toMessageRow.withNonceText
        (paddedNonce row.nonce)) ⟨row.nonce, inRange, rfl⟩
    dsimp only at inserted
    split at inserted
    · cases inserted
      exact kept
    · split at inserted
      · cases inserted
        exact kept
      · cases inserted
  · rw [if_neg inRange] at inserted
    cases inserted

theorem Encoded.upsertObserved
    (encoded : table.Encoded)
    {row : MessageRow}
    (observed : table.upsertObserved row = .ok next) :
    next.Encoded := by
  rw [RawMessages.upsertObserved, encodeNonce_natCast] at observed
  by_cases inRange : row.nonce ≤ MAX_NONCE
  · rw [if_pos inRange] at observed
    have kept :=
      encoded.put (row.withNonceText (paddedNonce row.nonce))
        ⟨row.nonce, inRange, rfl⟩
    dsimp only at observed
    split at observed
    · cases observed
      exact kept
    · split at observed
      · cases observed
      · split at observed
        · cases observed
          exact encoded
        · cases observed
          exact kept
  · rw [if_neg inRange] at observed
    cases observed

theorem Encoded.markSubmittedSlice
    (encoded : table.Encoded)
    {batchRef : Bytes32}
    {slice : List MessageKey}
    (marked : table.markSubmittedSlice batchRef slice = .ok next) :
    next.Encoded := by
  rw [RawMessages.markSubmittedSlice] at marked
  split at marked
  · cases marked
  · dsimp only at marked
    split at marked
    · cases marked
      exact encoded.update _
    · cases marked

theorem Encoded.markSubmitted
    (encoded : table.Encoded)
    {keys : List MessageKey}
    {batchRef : Bytes32}
    (marked : table.markSubmitted keys batchRef = .ok next) :
    next.Encoded := by
  rw [RawMessages.markSubmitted] at marked
  exact ExceptLoops.foldlM_invariant
    (fun holds reached => RawMessages.Encoded.markSubmittedSlice holds
      reached) encoded marked

end Writes

/-- No write leaves a nonce that `encodeNonce` has not written. -/
theorem Encoded.write
    {table : RawMessages}
    (encoded : table.Encoded)
    (write : RawWrite) :
    (table.write write).Encoded := by
  have settled :
      ∀ result : Except RawStoreError RawMessages,
        (∀ next, result = .ok next → next.Encoded) →
          (result.toOption.getD table).Encoded := by
    intro result kept
    cases result with
    | error error => exact encoded
    | ok next => exact kept next rfl
  cases write with
  | insertPending row =>
      exact settled _ fun next => encoded.insertPending
  | upsertObserved row =>
      exact settled _ fun next => encoded.upsertObserved
  | markSubmitted keys batchRef =>
      exact settled _ fun next => encoded.markSubmitted
  | markReorged chainId txHash =>
      rw [RawMessages.write, RawMessages.markReorged]
      exact encoded.update _
  | deleteMessages chainId =>
      intro row member
      exact encoded row (List.mem_filter.mp member).1

theorem encoded_afterWrites
    (writes : List RawWrite) :
    (afterWrites writes).Encoded := by
  have kept :
      ∀ table : RawMessages, table.Encoded →
        RawMessages.Encoded (writes.foldl RawMessages.write table) := by
    induction writes with
    | nil => exact fun table encoded => encoded
    | cons write rest inductionHypothesis =>
        exact fun table encoded =>
          inductionHypothesis _ (encoded.write write)
  apply kept
  intro row member
  cases member

/-- A row that counts for `getMaxNonReorgedNonce`. -/
def Taken
    (table : RawMessages)
    (sender : Address)
    (row : RawMessage) : Prop :=
  row ∈ table.rows ∧ row.sender = sender ∧ row.status ≠ .reorged

theorem mem_takenDescending
    {table : RawMessages}
    {sender : Address}
    {row : RawMessage} :
    row ∈ table.takenDescending sender ↔ table.Taken sender row := by
  rw [takenDescending, List.mem_insertionSort, Table.mem_select]
  simp [Taken]

/-- The answer is the numerically largest nonce a sender has taken, with the
message that took it. -/
def IsLargestTaken
    (table : RawMessages)
    (sender : Address) : Option NonceTrackerRow → Prop
  | none => ∀ row, ¬ table.Taken sender row
  | some tracker =>
      tracker.sender = sender ∧
        (∃ row, table.Taken sender row ∧
          decodeNonce row.nonce = .ok tracker.lastNonce ∧
          row.messageHash = tracker.lastMessageHash) ∧
        ∀ row, table.Taken sender row →
          ∃ nonce, decodeNonce row.nonce = .ok nonce ∧
            nonce ≤ tracker.lastNonce

/-- Over encoded nonces the query by text finds the largest number. -/
theorem Encoded.getMaxNonReorgedNonce
    {table : RawMessages}
    (encoded : table.Encoded)
    (sender : Address) :
    ∃ answer,
      table.getMaxNonReorgedNonce sender = .ok answer ∧
        table.IsLargestTaken sender answer := by
  have sorted :
      (table.takenDescending sender).Pairwise
        fun first second => second.nonce ≤ first.nonce :=
    List.pairwise_insertionSort _ _
  have isTaken :
      ∀ row ∈ table.takenDescending sender, table.Taken sender row :=
    fun row member => mem_takenDescending.mp member
  have isListed :
      ∀ row, table.Taken sender row →
        row ∈ table.takenDescending sender :=
    fun row taken => mem_takenDescending.mpr taken
  rw [RawMessages.getMaxNonReorgedNonce]
  revert sorted isTaken isListed
  cases table.takenDescending sender with
  | nil =>
      intro _ _ isListed
      exact ⟨none, rfl, fun row taken => by cases isListed row taken⟩
  | cons first rest =>
      intro sorted isTaken isListed
      have firstTaken := isTaken first List.mem_cons_self
      obtain ⟨largest, inRange, isText⟩ := encoded first firstTaken.1
      have decoded : decodeNonce first.nonce = .ok largest := by
        rw [isText, decodeNonce_paddedNonce inRange]
      rw [List.head?_cons]
      dsimp only
      rw [decoded]
      refine ⟨_, rfl, rfl, ⟨first, firstTaken, decoded, rfl⟩, ?_⟩
      intro row taken
      obtain ⟨nonce, rowInRange, rowText⟩ := encoded row taken.1
      refine ⟨nonce, by rw [rowText, decodeNonce_paddedNonce rowInRange], ?_⟩
      rcases List.mem_cons.mp (isListed row taken) with isFirst | isLater
      · subst isFirst
        rw [isText, paddedNonce_inj inRange rowInRange] at rowText
        exact Nat.le_of_eq rowText.symm
      · have before := (List.pairwise_cons.mp sorted).1 row isLater
        rw [isText, rowText, paddedNonce_le_iff rowInRange inRange]
          at before
        exact before

end RawMessages

/-- The nonce texts go back and forth, order as their numbers, and the query
by text answers the largest nonce after any writes. -/
theorem nonceText_orders
    (first second : UInt64)
    (writes : List RawWrite)
    (sender : Address) :
    (∃ firstText secondText,
      encodeNonce first.toNat = .ok firstText ∧
        encodeNonce second.toNat = .ok secondText ∧
        decodeNonce firstText = .ok first.toNat ∧
        (firstText < secondText ↔ first < second)) ∧
      ∃ answer,
        (RawMessages.afterWrites writes).getMaxNonReorgedNonce sender =
            .ok answer ∧
          (RawMessages.afterWrites writes).IsLargestTaken sender answer := by
  have firstInRange : first.toNat ≤ MAX_NONCE :=
    Nat.le_of_lt_succ first.toNat_lt
  have secondInRange : second.toNat ≤ MAX_NONCE :=
    Nat.le_of_lt_succ second.toNat_lt
  refine ⟨⟨paddedNonce first.toNat, paddedNonce second.toNat, ?_, ?_,
    decodeNonce_paddedNonce firstInRange, ?_⟩,
    (RawMessages.encoded_afterWrites writes).getMaxNonReorgedNonce sender⟩
  · rw [encodeNonce_natCast, if_pos firstInRange]
  · rw [encodeNonce_natCast, if_pos secondInRange]
  · rw [paddedNonce_lt_iff firstInRange secondInRange,
      UInt64.lt_iff_toNat_lt]

/-- A message row as the database holds it. -/
def MessageRow.raw (row : MessageRow) : RawMessage :=
  row.withNonceText (paddedNonce row.nonce)

/-- The table holds the texts of the messages of a store. -/
structure RawMessages.Represents
    (table : RawMessages)
    (store : Store) : Prop where
  rows : table.rows = store.messages.rows.map MessageRow.raw
  inRange : ∀ row ∈ store.messages.rows, row.nonce ≤ MAX_NONCE

/-- Both writes fail, or both succeed and the table still holds the texts. -/
def WritesInStep
    (raw : Except RawStoreError RawMessages)
    (numeric : Except StoreError Store) : Prop :=
  match raw, numeric with
  | .ok table, .ok store => table.Represents store
  | .error _, .error _ => True
  | _, _ => False

namespace RawMessages.Represents

variable {table : RawMessages} {store : Store}

theorem key_eq_iff
    (represents : table.Represents store)
    {row : MessageRow}
    (member : row ∈ store.messages.rows)
    {sender : Address}
    {nonce : Nat}
    (inRange : nonce ≤ MAX_NONCE) :
    row.raw.key = (sender, paddedNonce nonce) ↔
      row.key = (sender, nonce) := by
  have same :=
    paddedNonce_inj (represents.inRange row member) inRange
  simp only [RawMessage.key, MessageRow.key, MessageRow.raw,
    MessageRow.withNonceText, Prod.mk.injEq, same]

/-- A lookup by text finds the row the lookup by number finds. -/
theorem get?
    (represents : table.Represents store)
    {sender : Address}
    {nonce : Nat}
    (inRange : nonce ≤ MAX_NONCE) :
    table.get? (sender, paddedNonce nonce) =
      (store.message? (sender, nonce)).map MessageRow.raw := by
  have found :
      store.messages.rows.find?
          (fun row => decide (row.raw.key = (sender, paddedNonce nonce))) =
        store.messages.rows.find?
          fun row => decide (row.key = (sender, nonce)) := by
    apply List.find?_congr
    intro row member
    exact decide_eq_decide.mpr (represents.key_eq_iff member inRange)
  rw [Table.get?, represents.rows, List.find?_map, Store.message?,
    Table.get?, ← found]
  rfl

/-- Storing a row under its text and under its number go together. -/
theorem put
    (represents : table.Represents store)
    (row : MessageRow)
    (inRange : row.nonce ≤ MAX_NONCE) :
    RawMessages.Represents (table.put row.raw) (store.putMessage row) := by
  constructor
  · have kept :
        store.messages.rows.filter
            (fun other => decide (other.raw.key ≠ row.raw.key)) =
          store.messages.rows.filter
            fun other => decide (other.key ≠ row.key) := by
      apply List.filter_congr
      intro other member
      exact decide_eq_decide.mpr
        (not_congr (represents.key_eq_iff member inRange))
    rw [Table.rows_put, Store.putMessage, Table.rows_put, represents.rows,
      List.filter_map, List.map_append, List.map_singleton, ← kept]
    rfl
  · intro other member
    rcases Table.mem_put.mp member with rfl | ⟨isOld, _⟩
    · exact inRange
    · exact represents.inRange other isOld

theorem insertPending
    (represents : table.Represents store)
    (row : StoreTxnPendingRow) :
    WritesInStep (table.insertPending row) (store.insertPending row) := by
  rw [RawMessages.insertPending, Store.insertPending, encodeNonce_natCast]
  by_cases inRange : row.nonce ≤ MAX_NONCE
  · rw [if_pos inRange, if_pos inRange]
    dsimp only
    have stored :
        RawMessages.Represents
          (table.put (row.toMessageRow.withNonceText
            (paddedNonce row.nonce)))
          (store.putMessage row.toMessageRow) :=
      represents.put row.toMessageRow inRange
    rw [represents.get? inRange]
    cases store.message? (row.sender, row.nonce) with
    | none => exact stored
    | some existing =>
        have sameStatus : existing.raw.status = existing.status := rfl
        dsimp only [Option.map_some]
        rw [sameStatus]
        by_cases reorged : existing.status = .reorged
        · rw [if_pos reorged, if_pos reorged]
          exact stored
        · rw [if_neg reorged, if_neg reorged]
          trivial
  · rw [if_neg inRange, if_neg inRange]
    trivial

theorem upsertObserved
    (represents : table.Represents store)
    (row : MessageRow) :
    WritesInStep (table.upsertObserved row) (store.upsertObserved row) := by
  rw [RawMessages.upsertObserved, Store.upsertObserved,
    encodeNonce_natCast]
  by_cases inRange : row.nonce ≤ MAX_NONCE
  · rw [if_pos inRange, if_pos inRange]
    dsimp only
    have stored :
        RawMessages.Represents
          (table.put (row.withNonceText (paddedNonce row.nonce)))
          (store.putMessage row) :=
      represents.put row inRange
    rw [represents.get? inRange, MessageRow.key]
    cases store.message? (row.sender, row.nonce) with
    | none => exact stored
    | some existing =>
        have sameHash :
            existing.raw.messageHash = existing.messageHash := rfl
        have sameStatus : existing.raw.status = existing.status := rfl
        dsimp only [Option.map_some]
        rw [sameHash, sameStatus]
        by_cases differs : existing.messageHash ≠ row.messageHash
        · rw [if_pos differs, if_pos differs]
          trivial
        · rw [if_neg differs, if_neg differs]
          by_cases confirmed : existing.status = .confirmed
          · rw [if_pos confirmed, if_pos confirmed]
            exact represents
          · rw [if_neg confirmed, if_neg confirmed]
            exact stored
  · rw [if_neg inRange, if_neg inRange]
    trivial

theorem markReorged
    (represents : table.Represents store)
    {next : Store}
    {chainId : Nat}
    {txHash : Bytes32}
    {invalidatedAt : Int}
    (marked : store.markReorged chainId txHash invalidatedAt = .ok next) :
    (table.markReorged chainId txHash).Represents next := by
  rw [Store.markReorged] at marked
  split at marked
  · cases marked
    constructor
    · rw [RawMessages.markReorged, Table.rows_update, Table.rows_update,
        represents.rows, List.map_map, List.map_map]
      apply List.map_congr_left
      intro row _
      have sameRow :
          (row.raw.batchRef = some txHash &&
            row.raw.chainId = some chainId &&
              row.raw.status = .confirmed) =
            row.isConfirmedIn chainId txHash := rfl
      dsimp only [Function.comp_apply]
      rw [sameRow]
      cases row.isConfirmedIn chainId txHash with
      | true => rfl
      | false => rfl
    · intro other member
      obtain ⟨row, isOld, rfl⟩ := List.mem_map.mp member
      have kept := represents.inRange row isOld
      split
      · exact kept
      · exact kept
  · cases marked

/-- The query by text and the query by number agree. -/
theorem getMaxNonReorgedNonce
    (represents : table.Represents store)
    (sender : Address) :
    table.getMaxNonReorgedNonce sender =
      .ok (store.getMaxNonReorgedNonce sender) := by
  have selected :
      (table.select fun row =>
          row.sender = sender && row.status ≠ .reorged) =
        (store.messages.select fun row =>
          row.sender = sender && row.status ≠ .reorged).map
            MessageRow.raw := by
    rw [Table.select, represents.rows, List.filter_map]
    rfl
  have sorted :
      table.takenDescending sender =
        (Table.orderBy
          (fun row => Table.descNullsLast (some (row.nonce : Int)))
          (store.messages.select fun row =>
            row.sender = sender && row.status ≠ .reorged)).map
              MessageRow.raw := by
    rw [takenDescending, selected, Table.orderBy]
    symm
    apply List.map_insertionSort
    intro first firstMember second secondMember
    have firstInRange :=
      represents.inRange first (Table.mem_select.mp firstMember).1
    have secondInRange :=
      represents.inRange second (Table.mem_select.mp secondMember).1
    have byText :
        second.raw.nonce ≤ first.raw.nonce ↔ second.nonce ≤ first.nonce :=
      paddedNonce_le_iff secondInRange firstInRange
    rw [byText, Table.descNullsLast, Table.descNullsLast, ← not_lt,
      List.cons_lt_cons_iff, List.cons_lt_cons_iff]
    simp only [lt_irrefl, false_or, true_and, and_false, or_false,
      neg_lt_neg_iff, Nat.cast_lt, not_lt]
  rw [RawMessages.getMaxNonReorgedNonce, sorted,
    Store.getMaxNonReorgedNonce, List.head?_map]
  cases isHead : (Table.orderBy
      (fun row => Table.descNullsLast (some (row.nonce : Int)))
      (store.messages.select fun row =>
        row.sender = sender && row.status ≠ .reorged)).head? with
  | none => rfl
  | some row =>
      have member := Table.mem_orderBy.mp (List.mem_of_mem_head? isHead)
      have inRange :=
        represents.inRange row (Table.mem_select.mp member).1
      have decoded : decodeNonce row.raw.nonce = .ok row.nonce :=
        decodeNonce_paddedNonce inRange
      dsimp only [Option.map_some]
      rw [decoded]
      rfl

end RawMessages.Represents

/-- The writes to the messages that `Store` makes too. -/
inductive SharedWrite where
  | insertPending (row : StoreTxnPendingRow)
  | upsertObserved (row : MessageRow)
  | markReorged (chainId : Nat) (txHash : Bytes32) (invalidatedAt : Int)

namespace SharedWrite

/-- A write to the store. -/
def numeric
    (store : Store) : SharedWrite → Except StoreError Store
  | .insertPending row => store.insertPending row
  | .upsertObserved row => store.upsertObserved row
  | .markReorged chainId txHash invalidatedAt =>
      store.markReorged chainId txHash invalidatedAt

/-- The same write to the table. -/
def raw
    (table : RawMessages) :
    SharedWrite → Except RawStoreError RawMessages
  | .insertPending row => table.insertPending row
  | .upsertObserved row => table.upsertObserved row
  | .markReorged chainId txHash _ =>
      .ok (table.markReorged chainId txHash)

/-- Where the store takes a write, so does the table. -/
theorem represents_step
    {table : RawMessages}
    {store next : Store}
    (represents : table.Represents store)
    {write : SharedWrite}
    (taken : numeric store write = .ok next) :
    ∃ reached,
      raw table write = .ok reached ∧ reached.Represents next := by
  have answered :
      ∀ {result : Except RawStoreError RawMessages},
        WritesInStep result (.ok next) →
          ∃ reached, result = .ok reached ∧ reached.Represents next := by
    intro result inStep
    cases result with
    | error error => exact inStep.elim
    | ok reached => exact ⟨reached, rfl, inStep⟩
  cases write with
  | insertPending row =>
      have inStep := represents.insertPending row
      rw [show store.insertPending row = .ok next from taken] at inStep
      exact answered inStep
  | upsertObserved row =>
      have inStep := represents.upsertObserved row
      rw [show store.upsertObserved row = .ok next from taken] at inStep
      exact answered inStep
  | markReorged chainId txHash invalidatedAt =>
      exact ⟨_, rfl, represents.markReorged taken⟩

/-- A run of writes the store takes leaves a table that holds its texts. -/
theorem represents_run
    {writes : List SharedWrite}
    {table : RawMessages}
    {store final : Store}
    (represents : table.Represents store)
    (executed : writes.foldlM numeric store = .ok final) :
    ∃ reached,
      writes.foldlM raw table = .ok reached ∧
        reached.Represents final := by
  induction writes generalizing table store with
  | nil =>
      cases executed
      exact ⟨table, rfl, represents⟩
  | cons write rest inductionHypothesis =>
      rw [List.foldlM_cons] at executed
      cases taken : numeric store write with
      | error error =>
          rw [taken] at executed
          cases executed
      | ok next =>
          rw [taken] at executed
          obtain ⟨middle, written, stillHolds⟩ :=
            represents_step represents taken
          obtain ⟨reached, ran, holds⟩ :=
            inductionHypothesis stillHolds executed
          refine ⟨reached, ?_, holds⟩
          rw [List.foldlM_cons, written]
          exact ran

/-- After the same writes, the query over texts and the query over numbers
answer alike. -/
theorem getMaxNonReorgedNonce_run
    {writes : List SharedWrite}
    {final : Store}
    (executed : writes.foldlM numeric Store.empty = .ok final) :
    ∃ reached,
      writes.foldlM raw Table.empty = .ok reached ∧
        ∀ sender,
          reached.getMaxNonReorgedNonce sender =
            .ok (final.getMaxNonReorgedNonce sender) := by
  have initially : RawMessages.Represents Table.empty Store.empty := by
    constructor
    · rfl
    · intro row member
      cases member
  obtain ⟨reached, ran, holds⟩ := represents_run initially executed
  exact ⟨reached, ran, holds.getMaxNonReorgedNonce⟩

end SharedWrite

end Bam
