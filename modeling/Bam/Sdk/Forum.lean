import Bam.Sdk.TextFields

namespace Bam

open Bytewise

/-!
# The forum codec

Posts, replies and likes share one content tag; the kind byte tells them apart.
A timestamp is a `bigint`, and the inner tag of a post is kept as raw bytes.
-/

namespace Forum

def KIND_POST : UInt8 := 0x00

def KIND_REPLY : UInt8 := 0x01

def KIND_LIKE : UInt8 := 0x02

def VERSION_POST : UInt8 := 0x02

def VERSION_REPLY : UInt8 := 0x01

def VERSION_LIKE : UInt8 := 0x01

def MAX_TAG_LEN : Nat := 32

/-- `ForumPayload`. -/
inductive Payload where
  | post (timestamp : Nat) (tag : Bytes) (title body : List Char)
  | reply
      (timestamp : Nat)
      (parentMessageHash : Bytes32)
      (body : List Char)
  | like (timestamp : Nat) (targetMessageHash : Bytes32)
  deriving Repr, DecidableEq

def Payload.timestamp : Payload → Nat
  | .post timestamp _ _ _ => timestamp
  | .reply timestamp _ _ => timestamp
  | .like timestamp _ => timestamp

/-- The strings of a payload. -/
def Payload.texts : Payload → List (List Char)
  | .post _ _ title body => [title, body]
  | .reply _ _ body => [body]
  | .like _ _ => []

/-- What `encodeForumContents` throws. -/
inductive EncodeError where
  | timestampOutOfRange (timestamp : Nat)
  | tagTooLong
  | titleTooLong
  | bodyTooLong
  deriving Repr, DecidableEq

/-- What `decodeForumContents` throws. -/
inductive DecodeError where
  | headerTooShort
  | postTooShort
  | tagTooLong
  | tagPastBuffer
  | missingTitleLength
  | titlePastBuffer
  | missingBodyLength
  | bodyPastBuffer (kind : UInt8)
  | replyTooShort
  | likeTooShort
  /-- The `TypeError` of the fatal `TextDecoder`. -/
  | invalidText
  | unsupported (version kind : UInt8)
  deriving Repr, DecidableEq

/-- The contents of a payload. -/
def forumBody : Payload → Bytes
  | .post timestamp tag title body =>
      VERSION_POST :: KIND_POST ::
        (toBE 8 timestamp ++
          (UInt8.ofNat tag.length ::
            (tag ++ (writeText title ++ writeText body))))
  | .reply timestamp parentMessageHash body =>
      VERSION_REPLY :: KIND_REPLY ::
        (toBE 8 timestamp ++
          (wordBytes parentMessageHash ++ writeText body))
  | .like timestamp targetMessageHash =>
      VERSION_LIKE :: KIND_LIKE ::
        (toBE 8 timestamp ++ wordBytes targetMessageHash)

/-- `encodeForumContents`. -/
def encodeForumContents
    (payload : Payload) : Except EncodeError Bytes :=
  if 0xffffffffffffffff < payload.timestamp then
    .error (.timestampOutOfRange payload.timestamp)
  else
    match payload with
    | .post _ tag title body =>
        if MAX_TAG_LEN < tag.length then
          .error .tagTooLong
        else if 0xffffffff < (Utf8.encode title).length then
          .error .titleTooLong
        else if 0xffffffff < (Utf8.encode body).length then
          .error .bodyTooLong
        else
          .ok (forumBody payload)
    | .reply _ _ body =>
        if 0xffffffff < (Utf8.encode body).length then
          .error .bodyTooLong
        else
          .ok (forumBody payload)
    | .like _ _ => .ok (forumBody payload)

/-- The post branch of `decodeForumContents`, from the title on. -/
def decodePostTexts
    (contents : Bytes)
    (titleOffset : Nat) :
    Except DecodeError (List Char × List Char) :=
  if contents.length < titleOffset + 4 then
    .error .missingTitleLength
  else
    match readText .titlePastBuffer .invalidText contents
        (titleOffset + 4) with
    | .error error => .error error
    | .ok title =>
        let bodyOffset :=
          titleOffset + 4 + readU32BE contents titleOffset
        if contents.length < bodyOffset + 4 then
          .error .missingBodyLength
        else
          match readText (.bodyPastBuffer KIND_POST) .invalidText contents
              (bodyOffset + 4) with
          | .error error => .error error
          | .ok body => .ok (title, body)

/-- The post branch of `decodeForumContents`. -/
def decodePost (contents : Bytes) : Except DecodeError Payload :=
  let tagLen := (contents.getD 10 0).toNat
  if contents.length < 11 then
    .error .postTooShort
  else if MAX_TAG_LEN < tagLen then
    .error .tagTooLong
  else if contents.length < 11 + tagLen then
    .error .tagPastBuffer
  else
    (decodePostTexts contents (11 + tagLen)).map fun texts =>
      .post (readU64BE contents 2) ((contents.drop 11).take tagLen)
        texts.1 texts.2

/-- `decodeForumContents`. -/
def decodeForumContents
    (contents : Bytes) : Except DecodeError Payload :=
  match contents with
  | version :: kind :: _ =>
      if version = VERSION_POST ∧ kind = KIND_POST then
        decodePost contents
      else if version = VERSION_REPLY ∧ kind = KIND_REPLY then
        if contents.length < 46 then
          .error .replyTooShort
        else
          (readText (.bodyPastBuffer KIND_REPLY) .invalidText contents
              46).map fun body =>
            .reply (readU64BE contents 2)
              (BitVec.ofNat 256 (ofBE ((contents.drop 10).take 32)))
              body
      else if version = VERSION_LIKE ∧ kind = KIND_LIKE then
        if contents.length < 42 then
          .error .likeTooShort
        else
          .ok (.like (readU64BE contents 2)
            (BitVec.ofNat 256 (ofBE ((contents.drop 10).take 32))))
      else
        .error (.unsupported version kind)
  | _ => .error .headerTooShort

/-- A payload with its strings as the decoder reads them. -/
def Payload.unmarked : Payload → Payload
  | .post timestamp tag title body =>
      .post timestamp tag (Utf8.dropMark title) (Utf8.dropMark body)
  | .reply timestamp parentMessageHash body =>
      .reply timestamp parentMessageHash (Utf8.dropMark body)
  | .like timestamp targetMessageHash =>
      .like timestamp targetMessageHash

theorem Payload.unmarked_eq_self_iff
    {payload : Payload} :
    payload.unmarked = payload ↔
      ∀ text ∈ payload.texts, ¬Marked text := by
  simp only [← dropMark_eq_self_iff_not_marked]
  cases payload with
  | post timestamp tag title body =>
      simp [Payload.unmarked, Payload.texts]
  | reply timestamp parentMessageHash body =>
      simp [Payload.unmarked, Payload.texts]
  | like timestamp targetMessageHash =>
      simp [Payload.unmarked, Payload.texts]

theorem readU64BE_written
    {timestamp : Nat}
    (fits : timestamp ≤ 0xffffffffffffffff)
    {contents tail : Bytes}
    {offset : Nat}
    (written : contents.drop offset = toBE 8 timestamp ++ tail) :
    readU64BE contents offset = timestamp := by
  rw [readU64BE, written, ofBE_take_written (by omega)]

/-- Two texts one after the other. -/
theorem decodePostTexts_written
    {contents : Bytes}
    {offset : Nat}
    {title body : List Char}
    (titleShort : (Utf8.encode title).length ≤ 0xffffffff)
    (bodyShort : (Utf8.encode body).length ≤ 0xffffffff)
    (written :
      contents.drop offset = writeText title ++ (writeText body ++ [])) :
    decodePostTexts contents offset =
      .ok (Utf8.dropMark title, Utf8.dropMark body) := by
  have holdsTitle := holdsText_of_written titleShort written
  have holdsBody := holdsText_of_written bodyShort holdsTitle.behind
  have titleInside := holdsTitle.inside
  have bodyInside := holdsBody.inside
  have titleLength :
      readU32BE contents offset = (Utf8.encode title).length :=
    holdsTitle.length
  rw [decodePostTexts, if_neg (by omega), holdsTitle.read]
  dsimp only
  rw [titleLength, if_neg (by omega), holdsBody.read]

/-- What an encoded post decodes to. -/
theorem decodePost_written
    {contents tag : Bytes}
    {timestamp : Nat}
    {title body : List Char}
    (timestampFits : timestamp ≤ 0xffffffffffffffff)
    (tagFits : tag.length ≤ MAX_TAG_LEN)
    (titleShort : (Utf8.encode title).length ≤ 0xffffffff)
    (bodyShort : (Utf8.encode body).length ≤ 0xffffffff)
    (written :
      contents.drop 2 =
        toBE 8 timestamp ++
          (UInt8.ofNat tag.length ::
            (tag ++ (writeText title ++ (writeText body ++ []))))) :
    decodePost contents =
      .ok (.post timestamp tag (Utf8.dropMark title)
        (Utf8.dropMark body)) := by
  simp only [MAX_TAG_LEN] at tagFits
  have timestampRead := readU64BE_written timestampFits written
  have behindTimestamp := congrArg (List.drop 8) written
  rw [List.drop_drop, List.drop_left' (length_toBE 8 timestamp)]
    at behindTimestamp
  have tagLength : (UInt8.ofNat tag.length).toNat = tag.length := by
    rw [UInt8.toNat_ofNat']
    omega
  have isTagLen : (contents.getD 10 0).toNat = tag.length := by
    have first := congrArg (fun bytes => bytes[0]?) behindTimestamp
    simp only [List.getElem?_drop, List.getElem?_cons_zero] at first
    rw [List.getD_eq_getElem?_getD, first, Option.getD_some, tagLength]
  have behindTagLen :
      contents.drop 11 =
        tag ++ (writeText title ++ (writeText body ++ [])) := by
    have second := congrArg (List.drop 1) behindTimestamp
    rw [List.drop_drop, List.drop_succ_cons, List.drop_zero] at second
    exact second
  have isTag : (contents.drop 11).take tag.length = tag := by
    rw [behindTagLen]
    exact List.take_left' rfl
  have behindTag :
      contents.drop (11 + tag.length) =
        writeText title ++ (writeText body ++ []) := by
    rw [← List.drop_drop, behindTagLen]
    exact List.drop_left' rfl
  have texts := decodePostTexts_written titleShort bodyShort behindTag
  have inside := (holdsText_of_written titleShort behindTag).inside
  rw [decodePost, isTagLen]
  rw [if_neg (by omega), if_neg (by simp only [MAX_TAG_LEN]; omega),
    if_neg (by omega), texts, timestampRead, isTag]
  rfl

theorem decodeForumContents_post
    {contents rest : Bytes}
    (isPost : contents = VERSION_POST :: KIND_POST :: rest) :
    decodeForumContents contents = decodePost contents := by
  subst isPost
  rw [decodeForumContents, if_pos ⟨rfl, rfl⟩]

theorem decodeForumContents_reply
    {contents rest : Bytes}
    (isReply : contents = VERSION_REPLY :: KIND_REPLY :: rest)
    (long : ¬contents.length < 46) :
    decodeForumContents contents =
      (readText (.bodyPastBuffer KIND_REPLY) .invalidText contents
          46).map fun body =>
        .reply (readU64BE contents 2)
          (BitVec.ofNat 256 (ofBE ((contents.drop 10).take 32)))
          body := by
  subst isReply
  rw [decodeForumContents, if_neg (by decide), if_pos ⟨rfl, rfl⟩,
    if_neg long]

theorem decodeForumContents_like
    {contents rest : Bytes}
    (isLike : contents = VERSION_LIKE :: KIND_LIKE :: rest)
    (long : ¬contents.length < 42) :
    decodeForumContents contents =
      .ok (.like (readU64BE contents 2)
        (BitVec.ofNat 256 (ofBE ((contents.drop 10).take 32)))) := by
  subst isLike
  rw [decodeForumContents, if_neg (by decide), if_neg (by decide),
    if_pos ⟨rfl, rfl⟩, if_neg long]

/-- What an encoded payload decodes to. -/
theorem decodeForumContents_forumBody
    {payload : Payload}
    (timestampFits : payload.timestamp ≤ 0xffffffffffffffff)
    (short :
      ∀ text ∈ payload.texts,
        (Utf8.encode text).length ≤ 0xffffffff)
    (tagFits :
      ∀ timestamp tag title body,
        payload = .post timestamp tag title body →
          tag.length ≤ MAX_TAG_LEN) :
    decodeForumContents (forumBody payload) = .ok payload.unmarked := by
  cases payload with
  | post timestamp tag title body =>
      have isPost :
          forumBody (.post timestamp tag title body) =
            VERSION_POST :: KIND_POST ::
              (toBE 8 timestamp ++
                (UInt8.ofNat tag.length ::
                  (tag ++ (writeText title ++ writeText body)))) :=
        rfl
      have written :
          (forumBody (.post timestamp tag title body)).drop 2 =
            toBE 8 timestamp ++
              (UInt8.ofNat tag.length ::
                (tag ++ (writeText title ++ (writeText body ++ [])))) := by
        rw [List.append_nil]
        rfl
      rw [decodeForumContents_post isPost,
        decodePost_written timestampFits (tagFits _ _ _ _ rfl)
          (short title (by simp [Payload.texts]))
          (short body (by simp [Payload.texts])) written]
      rfl
  | reply timestamp parentMessageHash body =>
      have isReply :
          forumBody (.reply timestamp parentMessageHash body) =
            VERSION_REPLY :: KIND_REPLY ::
              (toBE 8 timestamp ++
                (wordBytes parentMessageHash ++ writeText body)) :=
        rfl
      have behindKind :
          (forumBody (.reply timestamp parentMessageHash body)).drop 2 =
            toBE 8 timestamp ++
              (wordBytes parentMessageHash ++ writeText body) :=
        rfl
      have timestampRead := readU64BE_written timestampFits behindKind
      have behindTimestamp := congrArg (List.drop 8) behindKind
      rw [List.drop_drop, List.drop_left' (length_toBE 8 timestamp)]
        at behindTimestamp
      have behindParent := congrArg (List.drop 32) behindTimestamp
      rw [List.drop_drop, List.drop_left' (length_wordBytes _),
        ← List.append_nil (writeText body)] at behindParent
      have holds :=
        holdsText_of_written (short body (by simp [Payload.texts]))
          behindParent
      have inside := holds.inside
      rw [decodeForumContents_reply isReply (by omega), timestampRead,
        behindTimestamp, ofNat_take_wordBytes, holds.read]
      rfl
  | like timestamp targetMessageHash =>
      have isLike :
          forumBody (.like timestamp targetMessageHash) =
            VERSION_LIKE :: KIND_LIKE ::
              (toBE 8 timestamp ++ wordBytes targetMessageHash) :=
        rfl
      have behindKind :
          (forumBody (.like timestamp targetMessageHash)).drop 2 =
            toBE 8 timestamp ++ wordBytes targetMessageHash :=
        rfl
      have timestampRead := readU64BE_written timestampFits behindKind
      have behindTimestamp := congrArg (List.drop 8) behindKind
      rw [List.drop_drop, List.drop_left' (length_toBE 8 timestamp),
        ← List.append_nil (wordBytes targetMessageHash)]
        at behindTimestamp
      have long :
          ¬(forumBody
            (.like timestamp targetMessageHash)).length < 42 := by
        simp [forumBody]
      rw [decodeForumContents_like isLike long, timestampRead,
        behindTimestamp, ofNat_take_wordBytes]
      rfl

/-- What the encoder admits. -/
theorem encodeForumContents_eq_ok
    {payload : Payload}
    {contents : Bytes}
    (encoded : encodeForumContents payload = .ok contents) :
    payload.timestamp ≤ 0xffffffffffffffff ∧
      (∀ text ∈ payload.texts,
        (Utf8.encode text).length ≤ 0xffffffff) ∧
      (∀ timestamp tag title body,
        payload = .post timestamp tag title body →
          tag.length ≤ MAX_TAG_LEN) ∧
      contents = forumBody payload := by
  unfold encodeForumContents at encoded
  split at encoded
  · cases encoded
  rename_i inRange
  have timestampFits := Nat.le_of_not_lt inRange
  cases payload with
  | post timestamp tag title body =>
      dsimp only at encoded
      split at encoded
      · cases encoded
      rename_i tagFits
      split at encoded
      · cases encoded
      rename_i titleShort
      split at encoded
      · cases encoded
      rename_i bodyShort
      refine ⟨timestampFits, ?_, ?_, (Except.ok.inj encoded).symm⟩
      · simp only [Payload.texts, List.mem_cons, List.not_mem_nil,
          or_false]
        rintro text (rfl | rfl)
        · exact Nat.le_of_not_lt titleShort
        · exact Nat.le_of_not_lt bodyShort
      · intro _ _ _ _ same
        cases same
        exact Nat.le_of_not_lt tagFits
  | reply timestamp parentMessageHash body =>
      dsimp only at encoded
      split at encoded
      · cases encoded
      rename_i bodyShort
      refine ⟨timestampFits, ?_, ?_, (Except.ok.inj encoded).symm⟩
      · simp only [Payload.texts, List.mem_cons, List.not_mem_nil,
          or_false]
        rintro text rfl
        exact Nat.le_of_not_lt bodyShort
      · intro _ _ _ _ same
        cases same
  | like timestamp targetMessageHash =>
      dsimp only at encoded
      refine ⟨timestampFits, ?_, ?_, (Except.ok.inj encoded).symm⟩
      · simp [Payload.texts]
      · intro _ _ _ _ same
        cases same

/-- An encoded payload comes back exactly where none of its strings begins with
a byte order mark. -/
theorem forum_round_trip_iff
    {payload : Payload}
    {contents : Bytes}
    (encoded : encodeForumContents payload = .ok contents) :
    decodeForumContents contents = .ok payload ↔
      ∀ text ∈ payload.texts, ¬Marked text := by
  obtain ⟨timestampFits, short, tagFits, rfl⟩ :=
    encodeForumContents_eq_ok encoded
  rw [decodeForumContents_forumBody timestampFits short tagFits,
    Except.ok.injEq, Payload.unmarked_eq_self_iff]

end Forum

end Bam
