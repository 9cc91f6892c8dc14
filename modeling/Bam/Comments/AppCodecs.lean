import Bam.Comments.Codec
import Bam.Sdk.Forum

namespace Bam

open Bytewise

/-!
# What the app codecs keep

The three app codecs decode with a fatal text decoder that was not told to
ignore the byte order mark, so a string that begins with U+FEFF comes back
without it.  Everything else comes back as it was.
-/

/-- An encoded payload comes back exactly where none of its strings begins with
U+FEFF. -/
theorem app_codecs_round_trip_iff
    (payload : Forum.Payload)
    (message : PostReplyMessage)
    (envelope : Comments.Envelope)
    (contents : Bytes) :
    (Forum.encodeForumContents payload = .ok contents →
      (Forum.decodeForumContents contents = .ok payload ↔
        ∀ text ∈ payload.texts, ¬Marked text)) ∧
    (encodePostReplyContents message = .ok contents →
      (decodePostReplyContents contents = .ok message ↔
        ¬Marked message.content)) ∧
    (Comments.encodeCommentContents envelope = .ok contents →
      (Comments.decodeCommentContents contents = .ok envelope ↔
        ¬Marked envelope.content)) := by
  refine ⟨?_, ?_, ?_⟩
  · intro encoded
    exact Forum.forum_round_trip_iff encoded
  · intro encoded
    exact postReply_round_trip_iff encoded
  · intro encoded
    exact Comments.comment_round_trip_iff encoded

/-- One payload of every app. -/
def forumGreeting : Forum.Payload :=
  .post 7 [0x61] ['h', 'i'] ['y', 'o']

def postGreeting : PostReplyMessage :=
  .reply 7 1 ['h', 'i']

def commentGreeting : Comments.Envelope :=
  .comment 1 7 ['h', 'i']

theorem app_codecs_round_trip_iff_greetings :
    (Forum.decodeForumContents (Forum.forumBody forumGreeting) =
        .ok forumGreeting ↔
      ∀ text ∈ forumGreeting.texts, ¬Marked text) ∧
    (decodePostReplyContents (postReplyBody postGreeting) =
        .ok postGreeting ↔
      ¬Marked postGreeting.content) ∧
    (Comments.decodeCommentContents
        (Comments.commentBody commentGreeting) = .ok commentGreeting ↔
      ¬Marked commentGreeting.content) := by
  refine ⟨?_, ?_, ?_⟩
  · exact (app_codecs_round_trip_iff forumGreeting postGreeting
      commentGreeting (Forum.forumBody forumGreeting)).1 (by rfl)
  · exact (app_codecs_round_trip_iff forumGreeting postGreeting
      commentGreeting (postReplyBody postGreeting)).2.1 (by rfl)
  · exact (app_codecs_round_trip_iff forumGreeting postGreeting
      commentGreeting (Comments.commentBody commentGreeting)).2.2
        (by rfl)

/-- A post whose content is one byte order mark is admitted and comes back
empty. -/
theorem leading_mark_of_a_post_is_dropped :
    encodePostReplyContents (.post 0 [Utf8.byteOrderMark]) =
        .ok (postReplyBody (.post 0 [Utf8.byteOrderMark])) ∧
      decodePostReplyContents
          (postReplyBody (.post 0 [Utf8.byteOrderMark])) =
        .ok (.post 0 []) ∧
      PostReplyMessage.post 0 [] ≠ .post 0 [Utf8.byteOrderMark] := by
  refine ⟨by rfl, ?_, by decide⟩
  have timestampFits :
      (PostReplyMessage.post 0 [Utf8.byteOrderMark]).timestamp ≤
        0xffffffffffff :=
    Nat.zero_le _
  have short :
      (Utf8.encode (PostReplyMessage.post 0
        [Utf8.byteOrderMark]).content).length ≤ 0xffffffff := by
    decide
  exact decodePostReplyContents_postReplyBody timestampFits short

end Bam
