import Bam.Sdk.PostReplyRoundTrip

namespace Bam

open Bytewise

/-!
# The comments codec

A comment or a reply carries the hash of the post it is about, a timestamp, the
parent where it is a reply, and its text.
-/

namespace Comments

def ENVELOPE_VERSION : UInt8 := 0x01

def KIND_COMMENT : UInt8 := 0x00

def KIND_REPLY : UInt8 := 0x01

/-- `CommentEnvelope`; the timestamp is a JavaScript number. -/
inductive Envelope where
  | comment
      (postIdHash : Bytes32)
      (timestamp : Nat)
      (content : List Char)
  | reply
      (postIdHash : Bytes32)
      (timestamp : Nat)
      (parentMessageHash : Bytes32)
      (content : List Char)
  deriving Repr, DecidableEq

def Envelope.timestamp : Envelope → Nat
  | .comment _ timestamp _ => timestamp
  | .reply _ timestamp _ _ => timestamp

def Envelope.content : Envelope → List Char
  | .comment _ _ content => content
  | .reply _ _ _ content => content

/-- What `encodeCommentContents` throws. -/
inductive EncodeError where
  | timestampOutOfRange (timestamp : Nat)
  | contentTooLong
  deriving Repr, DecidableEq

/-- The text of a `RangeError`. -/
def EncodeError.message : EncodeError → String
  | .timestampOutOfRange timestamp =>
      s!"timestamp out of range: {timestamp}"
  | .contentTooLong => "content too long"

/-- What `decodeCommentContents` throws. -/
inductive DecodeError where
  | headerTooShort
  | unsupportedVersion (version : UInt8)
  | payloadTooShort (kind : UInt8)
  | contentPastBuffer (kind : UInt8)
  /-- The `TypeError` of the fatal `TextDecoder`. -/
  | invalidText
  | unknownKind (kind : UInt8)
  deriving Repr, DecidableEq

/-- The contents of an envelope. -/
def commentBody : Envelope → Bytes
  | .comment postIdHash timestamp content =>
      ENVELOPE_VERSION :: KIND_COMMENT ::
        (wordBytes postIdHash ++
          (toBE 8 timestamp ++ writeText content))
  | .reply postIdHash timestamp parentMessageHash content =>
      ENVELOPE_VERSION :: KIND_REPLY ::
        (wordBytes postIdHash ++
          (toBE 8 timestamp ++
            (wordBytes parentMessageHash ++ writeText content)))

/-- `encodeCommentContents`. -/
def encodeCommentContents
    (envelope : Envelope) : Except EncodeError Bytes :=
  if 0xffffffffffff < envelope.timestamp then
    .error (.timestampOutOfRange envelope.timestamp)
  else if 0xffffffff < (Utf8.encode envelope.content).length then
    .error .contentTooLong
  else
    .ok (commentBody envelope)

/-- `decodeCommentContents`. -/
def decodeCommentContents
    (body : Bytes) : Except DecodeError Envelope :=
  match body with
  | version :: kind :: _ =>
      if version ≠ ENVELOPE_VERSION then
        .error (.unsupportedVersion version)
      else if kind = KIND_COMMENT then
        if body.length < 46 then
          .error (.payloadTooShort kind)
        else
          let postIdHash :=
            BitVec.ofNat 256 (ofBE ((body.drop 2).take 32))
          let timestamp := Binary64.nearest (readU64BE body 34)
          (readText (.contentPastBuffer kind) .invalidText body 46).map
            fun content => .comment postIdHash timestamp content
      else if kind = KIND_REPLY then
        if body.length < 78 then
          .error (.payloadTooShort kind)
        else
          let postIdHash :=
            BitVec.ofNat 256 (ofBE ((body.drop 2).take 32))
          let timestamp := Binary64.nearest (readU64BE body 34)
          let parentMessageHash :=
            BitVec.ofNat 256 (ofBE ((body.drop 42).take 32))
          (readText (.contentPastBuffer kind) .invalidText body 78).map
            fun content =>
              .reply postIdHash timestamp parentMessageHash content
      else
        .error (.unknownKind kind)
  | _ => .error .headerTooShort

/-- An envelope with its content as the decoder reads it. -/
def Envelope.unmarked : Envelope → Envelope
  | .comment postIdHash timestamp content =>
      .comment postIdHash timestamp (Utf8.dropMark content)
  | .reply postIdHash timestamp parentMessageHash content =>
      .reply postIdHash timestamp parentMessageHash
        (Utf8.dropMark content)

theorem Envelope.unmarked_eq_self_iff
    {envelope : Envelope} :
    envelope.unmarked = envelope ↔ ¬Marked envelope.content := by
  rw [← dropMark_eq_self_iff_not_marked]
  cases envelope with
  | comment postIdHash timestamp content =>
      simp [Envelope.unmarked, Envelope.content]
  | reply postIdHash timestamp parentMessageHash content =>
      simp [Envelope.unmarked, Envelope.content]

theorem decodeCommentContents_comment
    {body rest : Bytes}
    (isComment : body = ENVELOPE_VERSION :: KIND_COMMENT :: rest)
    (long : ¬body.length < 46) :
    decodeCommentContents body =
      (readText (.contentPastBuffer KIND_COMMENT) .invalidText body
          46).map fun content =>
        .comment (BitVec.ofNat 256 (ofBE ((body.drop 2).take 32)))
          (Binary64.nearest (readU64BE body 34)) content := by
  subst isComment
  rw [decodeCommentContents, if_neg (not_not.mpr rfl), if_pos rfl,
    if_neg long]

theorem decodeCommentContents_reply
    {body rest : Bytes}
    (isReply : body = ENVELOPE_VERSION :: KIND_REPLY :: rest)
    (long : ¬body.length < 78) :
    decodeCommentContents body =
      (readText (.contentPastBuffer KIND_REPLY) .invalidText body
          78).map fun content =>
        .reply (BitVec.ofNat 256 (ofBE ((body.drop 2).take 32)))
          (Binary64.nearest (readU64BE body 34))
          (BitVec.ofNat 256 (ofBE ((body.drop 42).take 32)))
          content := by
  subst isReply
  have otherKind : ¬KIND_REPLY = KIND_COMMENT := by
    decide
  rw [decodeCommentContents, if_neg (not_not.mpr rfl),
    if_neg otherKind, if_pos rfl, if_neg long]

/-- What an encoded envelope decodes to. -/
theorem decodeCommentContents_commentBody
    {envelope : Envelope}
    (timestampFits : envelope.timestamp ≤ 0xffffffffffff)
    (short : (Utf8.encode envelope.content).length ≤ 0xffffffff) :
    decodeCommentContents (commentBody envelope) =
      .ok envelope.unmarked := by
  cases envelope with
  | comment postIdHash timestamp content =>
      have isComment :
          commentBody (.comment postIdHash timestamp content) =
            ENVELOPE_VERSION :: KIND_COMMENT ::
              (wordBytes postIdHash ++
                (toBE 8 timestamp ++ writeText content)) :=
        rfl
      have behindKind :
          (commentBody (.comment postIdHash timestamp content)).drop 2 =
            wordBytes postIdHash ++
              (toBE 8 timestamp ++ writeText content) :=
        rfl
      have behindPost := congrArg (List.drop 32) behindKind
      rw [List.drop_drop, List.drop_left' (length_wordBytes _)]
        at behindPost
      have behindTimestamp := congrArg (List.drop 8) behindPost
      rw [List.drop_drop, List.drop_left' (length_toBE 8 timestamp),
        ← List.append_nil (writeText content)] at behindTimestamp
      have timestampRead :=
        nearest_readU64BE_written timestampFits behindPost
      have holds := holdsText_of_written short behindTimestamp
      have inside := holds.inside
      rw [decodeCommentContents_comment isComment (by omega),
        timestampRead, behindKind, ofNat_take_wordBytes, holds.read]
      rfl
  | reply postIdHash timestamp parentMessageHash content =>
      have isReply :
          commentBody
              (.reply postIdHash timestamp parentMessageHash content) =
            ENVELOPE_VERSION :: KIND_REPLY ::
              (wordBytes postIdHash ++
                (toBE 8 timestamp ++
                  (wordBytes parentMessageHash ++
                    writeText content))) :=
        rfl
      have behindKind :
          (commentBody
              (.reply postIdHash timestamp parentMessageHash
                content)).drop 2 =
            wordBytes postIdHash ++
              (toBE 8 timestamp ++
                (wordBytes parentMessageHash ++ writeText content)) :=
        rfl
      have behindPost := congrArg (List.drop 32) behindKind
      rw [List.drop_drop, List.drop_left' (length_wordBytes _)]
        at behindPost
      have behindTimestamp := congrArg (List.drop 8) behindPost
      rw [List.drop_drop, List.drop_left' (length_toBE 8 timestamp)]
        at behindTimestamp
      have behindParent := congrArg (List.drop 32) behindTimestamp
      rw [List.drop_drop, List.drop_left' (length_wordBytes _),
        ← List.append_nil (writeText content)] at behindParent
      have timestampRead :=
        nearest_readU64BE_written timestampFits behindPost
      have holds := holdsText_of_written short behindParent
      have inside := holds.inside
      rw [decodeCommentContents_reply isReply (by omega),
        timestampRead, behindKind, behindTimestamp,
        ofNat_take_wordBytes, ofNat_take_wordBytes, holds.read]
      rfl

theorem encodeCommentContents_eq_ok
    {envelope : Envelope}
    {contents : Bytes}
    (encoded : encodeCommentContents envelope = .ok contents) :
    envelope.timestamp ≤ 0xffffffffffff ∧
      (Utf8.encode envelope.content).length ≤ 0xffffffff ∧
      contents = commentBody envelope := by
  unfold encodeCommentContents at encoded
  split at encoded
  · cases encoded
  rename_i timestampFits
  split at encoded
  · cases encoded
  rename_i short
  exact ⟨Nat.le_of_not_lt timestampFits, Nat.le_of_not_lt short,
    (Except.ok.inj encoded).symm⟩

/-- An encoded envelope comes back exactly where its content does not begin with
a byte order mark. -/
theorem comment_round_trip_iff
    {envelope : Envelope}
    {contents : Bytes}
    (encoded : encodeCommentContents envelope = .ok contents) :
    decodeCommentContents contents = .ok envelope ↔
      ¬Marked envelope.content := by
  obtain ⟨timestampFits, short, rfl⟩ :=
    encodeCommentContents_eq_ok encoded
  rw [decodeCommentContents_commentBody timestampFits short,
    Except.ok.injEq, Envelope.unmarked_eq_self_iff]

end Comments

end Bam
