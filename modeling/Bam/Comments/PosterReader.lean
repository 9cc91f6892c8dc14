import Bam.Comments.Codec
import Bam.Comments.Thread
import Bam.Sdk.Message

namespace Bam
namespace Comments

/-!
# Reading the comments of a post

The widget lists the pending messages of the Poster and the confirmed ones of
the Reader, decodes the rows it can, and keeps one message for each hash, which
it computes itself.  A confirmed row stands before a pending one.
-/

/-- What `decodeRow` reads of a `ReaderRow`. -/
structure ReaderRow where
  sender : Address
  nonce : Nat
  contents : Bytes
  batchRef : Option Bytes32
  deriving Repr, DecidableEq

def Envelope.postIdHash : Envelope → Bytes32
  | .comment postIdHash _ _ => postIdHash
  | .reply postIdHash _ _ _ => postIdHash

/-- The parent of a reply. -/
def Envelope.parentMessageHash : Envelope → Option Bytes32
  | .comment _ _ _ => none
  | .reply _ _ parentMessageHash _ => some parentMessageHash

/-- A decoded envelope as a message of a thread. -/
def Envelope.toMessage
    (envelope : Envelope)
    (sender : Address)
    (messageHash : Bytes32)
    (pending : Bool) : DecodedMessage where
  messageHash := messageHash
  sender := sender
  postIdHash := envelope.postIdHash
  timestamp := envelope.timestamp
  content := envelope.content
  parentMessageHash := envelope.parentMessageHash
  pending := pending

section

variable (keccak256 : Bytes → Bytes32)
variable (contentTag : Bytes32)

/-- `decodeRow`; `none` where it answers `null`. -/
def decodeRow
    (pending : Bool)
    (row : ReaderRow) : Option DecodedMessage :=
  if !pending && row.batchRef.isNone then none
  else
    match decodeCommentContents row.contents with
    | .error _ => none
    | .ok envelope =>
        (computeMessageHash keccak256 row.sender contentTag row.nonce
          row.contents).map fun messageHash =>
            envelope.toMessage row.sender messageHash pending

/-- `listMessages`, from the rows of the answer. -/
def listMessages
    (pending : Bool)
    (rows : List ReaderRow) : List DecodedMessage :=
  rows.filterMap (decodeRow keccak256 contentTag pending)

/-- `seen`, after both loops. -/
def seenMessages
    (pending confirmed : List DecodedMessage) :
    JsMap Bytes32 DecodedMessage :=
  (pending ++ confirmed).foldl
    (fun map message => map.set message.messageHash message) JsMap.empty

/-- `listForPost`; a pending listing that fails is as good as an empty one. -/
def listForPost
    (postIdHash : Bytes32)
    (pending : Option (List ReaderRow))
    (confirmed : List ReaderRow) : List DecodedMessage :=
  let seen :=
    seenMessages
      ((pending.map (listMessages keccak256 contentTag true)).getD [])
      (listMessages keccak256 contentTag false confirmed)
  (seen.entries.map Prod.snd).filter fun message =>
    message.postIdHash = postIdHash

variable {keccak256}
variable {contentTag : Bytes32}

theorem decodeRow_eq_some_iff
    {pending : Bool}
    {row : ReaderRow}
    {message : DecodedMessage} :
    decodeRow keccak256 contentTag pending row = some message ↔
      (pending = true ∨ row.batchRef ≠ none) ∧
        ∃ envelope messageHash,
          decodeCommentContents row.contents = .ok envelope ∧
            computeMessageHash keccak256 row.sender contentTag row.nonce
              row.contents = some messageHash ∧
            message =
              envelope.toMessage row.sender messageHash pending := by
  unfold decodeRow
  cases decoded : decodeCommentContents row.contents with
  | error error =>
      simp
  | ok envelope =>
      cases pending with
      | true =>
          simp [eq_comm]
      | false =>
          cases row.batchRef with
          | none =>
              simp
          | some batchRef =>
              simp [eq_comm]

/-- The message kept for a hash is the last one that has it. -/
theorem get?_seenMessages
    (pending confirmed : List DecodedMessage)
    (messageHash : Bytes32) :
    (seenMessages pending confirmed).get? messageHash =
      (pending ++ confirmed).reverse.find? fun message =>
        message.messageHash = messageHash := by
  refine (JsMap.get?_foldl_set DecodedMessage.messageHash
    (fun message => message) _ _ _).trans ?_
  simp [JsMap.get?, JsMap.empty]

/-- A message is kept under its own hash. -/
theorem mem_seenMessages
    {pending confirmed : List DecodedMessage}
    {messageHash : Bytes32}
    {message : DecodedMessage}
    (member :
      (messageHash, message) ∈
        (seenMessages pending confirmed).entries) :
    message.messageHash = messageHash ∧
      (message ∈ pending ∨ message ∈ confirmed) := by
  have found := JsMap.get?_eq_some_iff.mpr member
  rw [get?_seenMessages] at found
  refine ⟨by simpa using List.find?_some found, ?_⟩
  simpa [or_comm] using List.mem_of_find?_eq_some found

/-- Every hash that is listed is kept. -/
theorem exists_mem_seenMessages
    {pending confirmed : List DecodedMessage}
    {message : DecodedMessage}
    (member : message ∈ pending ∨ message ∈ confirmed) :
    ∃ kept,
      (message.messageHash, kept) ∈
        (seenMessages pending confirmed).entries := by
  apply JsMap.isSome_get?_iff.mp
  rw [get?_seenMessages, List.find?_isSome]
  exact ⟨message, by simpa [or_comm] using member, by simp⟩

/-- What is shown for a post has been listed, and is about the post. -/
theorem mem_listForPost
    {postIdHash : Bytes32}
    {pending : Option (List ReaderRow)}
    {confirmed : List ReaderRow}
    {message : DecodedMessage}
    (shown :
      message ∈
        listForPost keccak256 contentTag postIdHash pending confirmed) :
    message.postIdHash = postIdHash ∧
      ((∃ rows,
        pending = some rows ∧
          message ∈ listMessages keccak256 contentTag true rows) ∨
        message ∈ listMessages keccak256 contentTag false confirmed) := by
  obtain ⟨kept, ofPost⟩ := List.mem_filter.mp shown
  obtain ⟨⟨messageHash, _⟩, isEntry, rfl⟩ := List.mem_map.mp kept
  refine ⟨of_decide_eq_true ofPost, ?_⟩
  obtain ⟨-, listed | listed⟩ := mem_seenMessages isEntry
  · cases pending with
    | none =>
        cases listed
    | some rows =>
        exact .inl ⟨rows, rfl, listed⟩
  · exact .inr listed

/-- What is listed is shown for its post, or a message with its hash is. -/
theorem exists_mem_listForPost
    {pending : Option (List ReaderRow)}
    {confirmed : List ReaderRow}
    {message : DecodedMessage}
    (listed :
      (∃ rows,
        pending = some rows ∧
          message ∈ listMessages keccak256 contentTag true rows) ∨
        message ∈ listMessages keccak256 contentTag false confirmed) :
    ∃ kept,
      kept.messageHash = message.messageHash ∧
        kept ∈
          listForPost keccak256 contentTag kept.postIdHash pending
            confirmed := by
  have either :
      message ∈
          (pending.map (listMessages keccak256 contentTag true)).getD [] ∨
        message ∈ listMessages keccak256 contentTag false confirmed := by
    refine listed.imp_left ?_
    rintro ⟨rows, rfl, isListed⟩
    exact isListed
  obtain ⟨kept, isEntry⟩ := exists_mem_seenMessages either
  refine ⟨kept, (mem_seenMessages isEntry).1, ?_⟩
  exact List.mem_filter.mpr
    ⟨List.mem_map_of_mem isEntry, decide_eq_true rfl⟩

/-- A thread shows no hash twice. -/
theorem nodup_listForPost
    (postIdHash : Bytes32)
    (pending : Option (List ReaderRow))
    (confirmed : List ReaderRow) :
    ((listForPost keccak256 contentTag postIdHash pending confirmed).map
      DecodedMessage.messageHash).Nodup := by
  unfold listForPost
  refine List.Nodup.sublist (List.Sublist.map _ List.filter_sublist) ?_
  rw [List.map_map]
  refine (List.map_congr_left fun entry member => ?_) ▸
    JsMap.keysNodup _
  exact (mem_seenMessages member).1.symm

end

end Comments
end Bam
