import Bam.Sdk.TextFields

namespace Bam

open Bytewise

/-!
# Encoding posts and replies

The encoder of the post/reply codec, and what its decoder makes of what was
encoded: the message, but for a byte order mark its content begins with.
-/

/-- What `encodePostReplyContents` throws. -/
inductive PostReplyEncodeError where
  | timestampOutOfRange (timestamp : Nat)
  | contentTooLong
  deriving Repr, DecidableEq

/-- The body of a message. -/
def postReplyBody : PostReplyMessage → Bytes
  | .post timestamp content =>
      ENVELOPE_VERSION :: KIND_POST ::
        (toBE 8 timestamp ++ writeText content)
  | .reply timestamp parentMessageHash content =>
      ENVELOPE_VERSION :: KIND_REPLY ::
        (toBE 8 timestamp ++
          (wordBytes parentMessageHash ++ writeText content))

/-- `encodePostReplyContents`. -/
def encodePostReplyContents
    (message : PostReplyMessage) : Except PostReplyEncodeError Bytes :=
  if 0xffffffffffff < message.timestamp then
    .error (.timestampOutOfRange message.timestamp)
  else if 0xffffffff < (Utf8.encode message.content).length then
    .error .contentTooLong
  else
    .ok (postReplyBody message)

/-- A message with its content as the decoder reads it. -/
def PostReplyMessage.unmarked : PostReplyMessage → PostReplyMessage
  | .post timestamp content => .post timestamp (Utf8.dropMark content)
  | .reply timestamp parentMessageHash content =>
      .reply timestamp parentMessageHash (Utf8.dropMark content)

theorem HoldsText.readContent
    {contents tail : Bytes}
    {start : Nat}
    {text : List Char}
    (holds : HoldsText contents start text tail)
    (kind : UInt8) :
    readContent contents kind start = .ok (Utf8.dropMark text) := by
  rw [Bam.readContent, holds.length,
    if_neg (Nat.not_lt.mpr holds.inside), holds.bytes,
    decodeFatal?_encode]

/-- A timestamp the encoders accept is the number it is written as. -/
theorem nearest_readU64BE_written
    {timestamp : Nat}
    (fits : timestamp ≤ 0xffffffffffff)
    {contents tail : Bytes}
    {offset : Nat}
    (written : contents.drop offset = toBE 8 timestamp ++ tail) :
    Binary64.nearest (readU64BE contents offset) = timestamp := by
  rw [readU64BE, written, ofBE_take_written (by omega)]
  exact Binary64.nearest_of_lt (by omega)

theorem decodePostReplyContents_post
    {contents rest : Bytes}
    (isPost : contents = ENVELOPE_VERSION :: KIND_POST :: rest)
    (long : ¬contents.length < 14) :
    decodePostReplyContents contents =
      (readContent contents KIND_POST 14).map fun content =>
        .post (Binary64.nearest (readU64BE contents 2)) content := by
  subst isPost
  rw [decodePostReplyContents, if_neg (not_not.mpr rfl), if_pos rfl,
    if_neg long]

theorem decodePostReplyContents_reply
    {contents rest : Bytes}
    (isReply : contents = ENVELOPE_VERSION :: KIND_REPLY :: rest)
    (long : ¬contents.length < 46) :
    decodePostReplyContents contents =
      (readContent contents KIND_REPLY 46).map fun content =>
        .reply (Binary64.nearest (readU64BE contents 2))
          (BitVec.ofNat 256 (ofBE ((contents.drop 10).take 32)))
          content := by
  subst isReply
  have otherKind : ¬KIND_REPLY = KIND_POST := by
    decide
  rw [decodePostReplyContents, if_neg (not_not.mpr rfl),
    if_neg otherKind, if_pos rfl, if_neg long]

/-- What an encoded message decodes to. -/
theorem decodePostReplyContents_postReplyBody
    {message : PostReplyMessage}
    (timestampFits : message.timestamp ≤ 0xffffffffffff)
    (short : (Utf8.encode message.content).length ≤ 0xffffffff) :
    decodePostReplyContents (postReplyBody message) =
      .ok message.unmarked := by
  cases message with
  | post timestamp content =>
      have behindKind :
          (postReplyBody (.post timestamp content)).drop 2 =
            toBE 8 timestamp ++ writeText content :=
        rfl
      have behindTimestamp :
          (postReplyBody (.post timestamp content)).drop 10 =
            writeText content ++ [] := by
        rw [List.append_nil]
        exact List.drop_left' (length_toBE 8 timestamp)
      have holds := holdsText_of_written short behindTimestamp
      have timestampRead :=
        nearest_readU64BE_written timestampFits behindKind
      have long :
          ¬(postReplyBody (.post timestamp content)).length < 14 := by
        have inside := holds.inside
        omega
      have isPost :
          postReplyBody (.post timestamp content) =
            ENVELOPE_VERSION :: KIND_POST ::
              (toBE 8 timestamp ++ writeText content) :=
        rfl
      rw [decodePostReplyContents_post isPost long, timestampRead,
        holds.readContent]
      rfl
  | reply timestamp parentMessageHash content =>
      have behindKind :
          (postReplyBody
              (.reply timestamp parentMessageHash content)).drop 2 =
            toBE 8 timestamp ++
              (wordBytes parentMessageHash ++ writeText content) :=
        rfl
      have behindTimestamp :
          (postReplyBody
              (.reply timestamp parentMessageHash content)).drop 10 =
            wordBytes parentMessageHash ++ writeText content :=
        List.drop_left' (length_toBE 8 timestamp)
      have behindParent :
          (postReplyBody
              (.reply timestamp parentMessageHash content)).drop 42 =
            writeText content ++ [] := by
        have split := congrArg (List.drop 32) behindTimestamp
        rw [List.drop_drop, List.drop_left' (length_wordBytes _)] at split
        rw [List.append_nil]
        exact split
      have holds := holdsText_of_written short behindParent
      have timestampRead :=
        nearest_readU64BE_written timestampFits behindKind
      have parentRead :
          BitVec.ofNat 256 (ofBE
            (((postReplyBody
              (.reply timestamp parentMessageHash content)).drop
                10).take 32)) = parentMessageHash := by
        rw [behindTimestamp]
        exact ofNat_take_wordBytes _ _
      have long :
          ¬(postReplyBody
            (.reply timestamp parentMessageHash content)).length < 46 := by
        have inside := holds.inside
        omega
      have isReply :
          postReplyBody (.reply timestamp parentMessageHash content) =
            ENVELOPE_VERSION :: KIND_REPLY ::
              (toBE 8 timestamp ++
                (wordBytes parentMessageHash ++ writeText content)) :=
        rfl
      rw [decodePostReplyContents_reply isReply long, timestampRead,
        parentRead, holds.readContent]
      rfl

theorem encodePostReplyContents_eq_ok
    {message : PostReplyMessage}
    {contents : Bytes}
    (encoded : encodePostReplyContents message = .ok contents) :
    message.timestamp ≤ 0xffffffffffff ∧
      (Utf8.encode message.content).length ≤ 0xffffffff ∧
      contents = postReplyBody message := by
  unfold encodePostReplyContents at encoded
  split at encoded
  · cases encoded
  rename_i timestampFits
  split at encoded
  · cases encoded
  rename_i short
  exact ⟨Nat.le_of_not_lt timestampFits, Nat.le_of_not_lt short,
    (Except.ok.inj encoded).symm⟩

theorem PostReplyMessage.unmarked_eq_self_iff
    {message : PostReplyMessage} :
    message.unmarked = message ↔ ¬Marked message.content := by
  rw [← dropMark_eq_self_iff_not_marked]
  cases message with
  | post timestamp content =>
      simp [PostReplyMessage.unmarked, PostReplyMessage.content]
  | reply timestamp parentMessageHash content =>
      simp [PostReplyMessage.unmarked, PostReplyMessage.content]

/-- An encoded message comes back exactly where its content does not begin with
a byte order mark. -/
theorem postReply_round_trip_iff
    {message : PostReplyMessage}
    {contents : Bytes}
    (encoded : encodePostReplyContents message = .ok contents) :
    decodePostReplyContents contents = .ok message ↔
      ¬Marked message.content := by
  obtain ⟨timestampFits, short, rfl⟩ :=
    encodePostReplyContents_eq_ok encoded
  rw [decodePostReplyContents_postReplyBody timestampFits short,
    Except.ok.injEq, PostReplyMessage.unmarked_eq_self_iff]

end Bam
