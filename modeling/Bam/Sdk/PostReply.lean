import Bam.Lib.Binary64
import Bam.Lib.Bytewise
import Bam.Lib.Utf8
import Bam.Sdk.Types

namespace Bam

open Bytewise

/-!
# The post/reply codec

The decoder of the body a message of a post/reply application carries: a
version byte, a kind byte and the payload of the kind.
-/

def ENVELOPE_VERSION : UInt8 := 0x01

def KIND_POST : UInt8 := 0x00

def KIND_REPLY : UInt8 := 0x01

/-- `PostReplyMessage`; the timestamp is a JavaScript number. -/
inductive PostReplyMessage where
  | post (timestamp : Nat) (content : List Char)
  | reply
      (timestamp : Nat)
      (parentMessageHash : Bytes32)
      (content : List Char)
  deriving Repr, DecidableEq

def PostReplyMessage.timestamp : PostReplyMessage → Nat
  | .post timestamp _ => timestamp
  | .reply timestamp _ _ => timestamp

def PostReplyMessage.content : PostReplyMessage → List Char
  | .post _ content => content
  | .reply _ _ content => content

/-- What `decodePostReplyContents` throws. -/
inductive PostReplyError where
  | headerTooShort
  | unsupportedVersion (version : UInt8)
  | payloadTooShort (kind : UInt8)
  | contentPastBuffer (kind : UInt8)
  /-- The `TypeError` of the fatal `TextDecoder`. -/
  | invalidText
  | unknownKind (kind : UInt8)
  deriving Repr, DecidableEq

def readU32BE
    (bytes : Bytes)
    (offset : Nat) : Nat :=
  ofBE ((bytes.drop offset).take 4)

def readU64BE
    (bytes : Bytes)
    (offset : Nat) : Nat :=
  ofBE ((bytes.drop offset).take 8)

/-- The bytes of the content, which starts right after its length. -/
def contentBytes
    (contents : Bytes)
    (start : Nat) : Bytes :=
  (contents.drop start).take (readU32BE contents (start - 4))

/-- The content of a payload. -/
def readContent
    (contents : Bytes)
    (kind : UInt8)
    (start : Nat) : Except PostReplyError (List Char) :=
  if contents.length < start + readU32BE contents (start - 4) then
    .error (.contentPastBuffer kind)
  else
    match Utf8.decodeFatal? (contentBytes contents start) with
    | none => .error .invalidText
    | some content => .ok content

/-- `decodePostReplyContents`. -/
def decodePostReplyContents
    (contents : Bytes) : Except PostReplyError PostReplyMessage :=
  match contents with
  | version :: kind :: _ =>
      if version ≠ ENVELOPE_VERSION then
        .error (.unsupportedVersion version)
      else if kind = KIND_POST then
        if contents.length < 14 then .error (.payloadTooShort kind)
        else
          let timestamp := Binary64.nearest (readU64BE contents 2)
          (readContent contents kind 14).map fun content =>
            .post timestamp content
      else if kind = KIND_REPLY then
        if contents.length < 46 then .error (.payloadTooShort kind)
        else
          let timestamp := Binary64.nearest (readU64BE contents 2)
          let parentMessageHash :=
            BitVec.ofNat 256 (ofBE ((contents.drop 10).take 32))
          (readContent contents kind 46).map fun content =>
            .reply timestamp parentMessageHash content
      else .error (.unknownKind kind)
  | _ => .error .headerTooShort

/-- Where the content of a body starts. -/
def contentStart (contents : Bytes) : Nat :=
  if contents[1]? = some KIND_REPLY then 46 else 14

/-- The content of a body is text. -/
theorem readContent_eq_ok
    {contents : Bytes}
    {kind : UInt8}
    {start : Nat}
    {content : List Char}
    (read : readContent contents kind start = .ok content) :
    Utf8.decodeFatal? (contentBytes contents start) = some content := by
  unfold readContent at read
  split at read
  · cases read
  · split at read
    · cases read
    · rename_i decoded
      cases read
      exact decoded

/-- The timestamp and the content of what is decoded. -/
theorem decodePostReplyContents_eq_ok
    {contents : Bytes}
    {message : PostReplyMessage}
    (decoded : decodePostReplyContents contents = .ok message) :
    message.timestamp = Binary64.nearest (readU64BE contents 2) ∧
      Utf8.decodeFatal?
          (contentBytes contents (contentStart contents)) =
        some message.content := by
  unfold decodePostReplyContents at decoded
  split at decoded
  · rename_i version kind payload
    split at decoded
    · cases decoded
    · split at decoded
      · rename_i isPost
        split at decoded
        · cases decoded
        · cases read : readContent (version :: kind :: payload) kind 14 with
          | error error =>
              rw [read] at decoded
              cases decoded
          | ok content =>
              rw [read] at decoded
              cases decoded
              have start : contentStart (version :: kind :: payload) = 14 :=
                if_neg (by simp [isPost, KIND_POST, KIND_REPLY])
              rw [start]
              exact ⟨rfl, readContent_eq_ok read⟩
      · split at decoded
        · rename_i isReply
          split at decoded
          · cases decoded
          · cases read :
                readContent (version :: kind :: payload) kind 46 with
            | error error =>
                rw [read] at decoded
                cases decoded
            | ok content =>
                rw [read] at decoded
                cases decoded
                have start :
                    contentStart (version :: kind :: payload) = 46 :=
                  if_pos (by simp [isReply])
                rw [start]
                exact ⟨rfl, readContent_eq_ok read⟩
        · cases decoded
  · cases decoded

end Bam
