import Bam.Lib.ExceptLoops
import Bam.Sdk.BpeBatch
import Bam.Sdk.BpeRoundTrip

namespace Bam

open Bytewise

/-!
# What the BPE batch codec gives back

The layout of an accepted batch, and what a decoder over any dictionary reads
from it.
-/

/-- Where the body of a message starts. -/
def offsetAt
    (cursor : Nat)
    (encoded : List Bytes)
    (index : Nat) : Nat :=
  cursor +
    ((encoded.take index).map fun bytes => RECORD_HEADER + bytes.length).sum

theorem offsetAt_zero
    (cursor : Nat)
    (encoded : List Bytes) :
    offsetAt cursor encoded 0 = cursor :=
  rfl

/-- The next body starts where this one ends. -/
theorem offsetAt_succ
    (cursor : Nat)
    {encoded : List Bytes}
    {index : Nat}
    (inside : index < encoded.length) :
    offsetAt cursor encoded (index + 1) =
      offsetAt cursor encoded index +
        (RECORD_HEADER + (encoded[index]).length) := by
  unfold offsetAt
  rw [List.take_add_one, List.getElem?_eq_getElem inside,
    Option.toList_some, List.map_append, List.sum_append, List.map_cons,
    List.map_nil, List.sum_singleton, Nat.add_assoc]

theorem offsetAt_cons_succ
    (cursor : Nat)
    (first : Bytes)
    (rest : List Bytes)
    (index : Nat) :
    offsetAt cursor (first :: rest) (index + 1) =
      offsetAt (cursor + (RECORD_HEADER + first.length)) rest index := by
  unfold offsetAt
  rw [List.take_succ_cons, List.map_cons, List.sum_cons]
  omega

/-- The offset loop lays the bodies out one after the other, each within
sixteen bits. -/
theorem layOffsets_ok
    {index cursor : Nat}
    {encoded : List Bytes}
    {offsets : List Nat}
    (laid : layOffsets index cursor encoded = .ok offsets) :
    offsets = (List.range encoded.length).map (offsetAt cursor encoded) ∧
      ∀ i < encoded.length, offsetAt cursor encoded i ≤ 0xffff := by
  induction encoded generalizing index cursor offsets with
  | nil =>
      have isNil := Except.ok.inj laid
      subst isNil
      refine ⟨rfl, ?_⟩
      intro i inside
      cases inside
  | cons first rest inductionHypothesis =>
      rw [layOffsets] at laid
      split at laid
      · cases laid
      rename_i fits
      cases isRest : layOffsets (index + 1)
          (cursor + (RECORD_HEADER + first.length)) rest with
      | error error =>
          rw [isRest] at laid
          cases laid
      | ok others =>
          rw [isRest] at laid
          have isOffsets := Except.ok.inj laid
          subst isOffsets
          obtain ⟨isOthers, small⟩ := inductionHypothesis isRest
          constructor
          · rw [List.length_cons, List.range_succ_eq_map, List.map_cons,
              offsetAt_zero, List.map_map, isOthers]
            congr 1
            apply List.map_congr_left
            intro i _
            exact (offsetAt_cons_succ cursor first rest i).symm
          · intro i inside
            cases i with
            | zero =>
                rw [offsetAt_zero]
                exact Nat.le_of_not_lt fits
            | succ i =>
                rw [offsetAt_cons_succ]
                exact small i (Nat.lt_of_succ_lt_succ inside)

/-- The body loop accepts nonces of 64 bits and writes the bodies. -/
theorem layBodies_ok
    {index : Nat}
    {records : List (BAMMessage × Bytes)}
    {bodies : Bytes}
    (laid : layBodies index records = .ok bodies) :
    bodies = (records.map fun record =>
        bodyBPE record.1 record.2).flatten ∧
      ∀ record ∈ records, record.1.nonce ≤ MAX_NONCE := by
  induction records generalizing index bodies with
  | nil =>
      have isNil := Except.ok.inj laid
      subst isNil
      refine ⟨rfl, ?_⟩
      intro record member
      cases member
  | cons record rest inductionHypothesis =>
      obtain ⟨message, encoded⟩ := record
      rw [layBodies] at laid
      split at laid
      · cases laid
      rename_i inRange
      cases isRest : layBodies (index + 1) rest with
      | error error =>
          rw [isRest] at laid
          cases laid
      | ok others =>
          rw [isRest] at laid
          have isBodies := Except.ok.inj laid
          subst isBodies
          obtain ⟨isOthers, small⟩ := inductionHypothesis isRest
          refine ⟨?_, List.forall_mem_cons.mpr
            ⟨Nat.le_of_not_lt inRange, small⟩⟩
          rw [List.map_cons, List.flatten_cons, isOthers]

@[simp] theorem length_bodyBPE
    (message : BAMMessage)
    (encoded : Bytes) :
    (bodyBPE message encoded).length = RECORD_HEADER + encoded.length := by
  simp only [bodyBPE, List.length_append, length_addressBytes,
    length_toBE, RECORD_HEADER]

/-- The compressed contents of a batch. -/
def encodedContents
    (messages : List BAMMessage)
    (dict : BPEDictionary) : List Bytes :=
  messages.map fun message => bpeEncode message.contents dict

/-- The bodies of a batch. -/
def bodiesOf
    (messages : List BAMMessage)
    (dict : BPEDictionary) : List Bytes :=
  messages.map fun message =>
    bodyBPE message (bpeEncode message.contents dict)

/-- The offset table of a batch. -/
def offsetsOf
    (messages : List BAMMessage)
    (dict : BPEDictionary) : List Nat :=
  (List.range messages.length).map
    (offsetAt (HEADER_BASE + 2 * messages.length)
      (encodedContents messages dict))

/-- What an accepted batch looks like. -/
structure LaidOut
    (messages : List BAMMessage)
    (signatureData : Bytes)
    (dict : BPEDictionary)
    (payload : Bytes) : Prop where
  count : messages.length ≤ 0xffff
  offsetSmall : ∀ offset ∈ offsetsOf messages dict, offset ≤ 0xffff
  nonceSmall : ∀ message ∈ messages, message.nonce ≤ MAX_NONCE
  bytes : payload =
    toBE 2 messages.length ++
      ((offsetsOf messages dict).flatMap (toBE 2) ++
        ((bodiesOf messages dict).flatten ++ signatureData))
  short : payload.length ≤ MAX_ARRAY_LENGTH

theorem sum_bodies
    (messages : List BAMMessage)
    (dict : BPEDictionary) :
    ((bodiesOf messages dict).map List.length) =
      (encodedContents messages dict).map
        fun bytes => RECORD_HEADER + bytes.length := by
  rw [bodiesOf, encodedContents, List.map_map, List.map_map]
  apply List.map_congr_left
  intro message _
  simp only [Function.comp_apply, length_bodyBPE]

theorem zip_map_self
    {α β : Type*}
    (image : α → β)
    (items : List α) :
    items.zip (items.map image) =
      items.map fun item => (item, image item) := by
  induction items with
  | nil =>
      rfl
  | cons item rest inductionHypothesis =>
      rw [List.map_cons, List.zip_cons_cons, inductionHypothesis,
        List.map_cons]

theorem length_offsetTable
    (offsets : List Nat) :
    (offsets.flatMap (toBE 2)).length = 2 * offsets.length := by
  induction offsets with
  | nil =>
      rfl
  | cons offset rest inductionHypothesis =>
      rw [List.flatMap_cons, List.length_append, length_toBE,
        inductionHypothesis, List.length_cons]
      omega

theorem length_offsetsOf
    (messages : List BAMMessage)
    (dict : BPEDictionary) :
    (offsetsOf messages dict).length = messages.length := by
  rw [offsetsOf, List.length_map, List.length_range]

/-- An accepted batch is laid out. -/
theorem laidOut_of_encode
    {messages : List BAMMessage}
    {signatureData payload : Bytes}
    {dict : BPEDictionary}
    (encoded : encodeBatchBPE messages signatureData dict = .ok payload) :
    LaidOut messages signatureData dict payload := by
  unfold encodeBatchBPE at encoded
  dsimp only at encoded
  split at encoded
  · cases encoded
  rename_i count
  split at encoded
  · cases encoded
  rename_i offsets laid
  split at encoded
  · cases encoded
  rename_i short
  split at encoded
  · cases encoded
  rename_i bodies laidBodies
  have isPayload := Except.ok.inj encoded
  obtain ⟨isOffsets, offsetSmall⟩ := layOffsets_ok laid
  obtain ⟨isBodies, nonceSmall⟩ := layBodies_ok laidBodies
  have sameOffsets : offsets = offsetsOf messages dict := by
    rw [isOffsets, List.length_map]
    rfl
  have sameBodies : bodies = (bodiesOf messages dict).flatten := by
    rw [isBodies, zip_map_self, List.map_map]
    rfl
  have bytes : payload =
      toBE 2 messages.length ++
        ((offsetsOf messages dict).flatMap (toBE 2) ++
          ((bodiesOf messages dict).flatten ++ signatureData)) := by
    rw [← isPayload, sameOffsets, sameBodies, List.append_assoc,
      List.append_assoc]
  refine ⟨Nat.le_of_not_lt count, ?_, ?_, bytes, ?_⟩
  · intro offset member
    obtain ⟨i, inRange, rfl⟩ := List.mem_map.mp member
    apply offsetSmall i
    rw [List.length_map]
    exact List.mem_range.mp inRange
  · intro message member
    apply nonceSmall (message, bpeEncode message.contents dict)
    rw [zip_map_self]
    exact List.mem_map.mpr ⟨message, member, rfl⟩
  · rw [bytes, List.length_append, length_toBE, List.length_append,
      length_offsetTable, length_offsetsOf, List.length_append,
      List.length_flatten, sum_bodies]
    have total := Nat.le_of_not_lt short
    simp only [HEADER_BASE] at total
    unfold encodedContents
    omega

/-- Bodies that end within sixteen bits have their offsets laid. -/
theorem layOffsets_of_small
    {index cursor : Nat}
    {encoded : List Bytes}
    (small :
      cursor + (encoded.map fun bytes => RECORD_HEADER + bytes.length).sum ≤
        0xffff) :
    ∃ offsets, layOffsets index cursor encoded = .ok offsets := by
  induction encoded generalizing index cursor with
  | nil =>
      exact ⟨[], rfl⟩
  | cons first rest inductionHypothesis =>
      rw [List.map_cons, List.sum_cons, ← Nat.add_assoc] at small
      obtain ⟨offsets, laid⟩ := @inductionHypothesis (index + 1) _ small
      have inRange : ¬ 0xffff < cursor := by
        omega
      refine ⟨cursor :: offsets, ?_⟩
      rw [layOffsets, if_neg inRange, laid]

/-- Nonces of 64 bits are written. -/
theorem layBodies_of_nonces
    {index : Nat}
    {records : List (BAMMessage × Bytes)}
    (small : ∀ record ∈ records, record.1.nonce ≤ MAX_NONCE) :
    ∃ bodies, layBodies index records = .ok bodies := by
  induction records generalizing index with
  | nil =>
      exact ⟨[], rfl⟩
  | cons record rest inductionHypothesis =>
      obtain ⟨first, others⟩ := List.forall_mem_cons.mp small
      obtain ⟨bodies, laid⟩ := @inductionHypothesis (index + 1) others
      refine ⟨bodyBPE record.1 record.2 ++ bodies, ?_⟩
      rw [layBodies, if_neg (Nat.not_lt.mpr first), laid]

/-- What the body of a message takes at most. -/
def bodyRoom (message : BAMMessage) : Nat :=
  RECORD_HEADER + 3 * ((message.contents.length + 1) / 2)

theorem sum_bodies_le
    {dict : BPEDictionary}
    (numbered : dict.Numbered)
    (messages : List BAMMessage) :
    ((messages.map fun message =>
        bpeEncode message.contents dict).map fun bytes =>
          RECORD_HEADER + bytes.length).sum ≤
      (messages.map bodyRoom).sum := by
  rw [List.map_map]
  apply List.sum_le_sum
  intro message _
  exact Nat.add_le_add_left
    (length_bpeEncode_le numbered message.contents) _

/-- A batch that ends within sixteen bits however little its contents shrink is
accepted. -/
theorem encodeBatchBPE_of_small
    {messages : List BAMMessage}
    {signatureData : Bytes}
    {dict : BPEDictionary}
    (numbered : dict.Numbered)
    (nonces : ∀ message ∈ messages, message.nonce ≤ MAX_NONCE)
    (small :
      HEADER_BASE + 2 * messages.length + (messages.map bodyRoom).sum ≤
        0xffff)
    (short : signatureData.length ≤ 0xffff) :
    ∃ payload,
      encodeBatchBPE messages signatureData dict = .ok payload := by
  have room := sum_bodies_le numbered messages
  have count : ¬ 0xffff < messages.length := by
    omega
  obtain ⟨offsets, laid⟩ :=
    @layOffsets_of_small 0 (HEADER_BASE + 2 * messages.length)
      (messages.map fun message => bpeEncode message.contents dict)
      (by omega)
  obtain ⟨bodies, laidBodies⟩ :=
    @layBodies_of_nonces 0
      (messages.zip (messages.map fun message =>
        bpeEncode message.contents dict))
      fun record member => nonces record.1 (List.of_mem_zip member).1
  have fits :
      ¬ MAX_ARRAY_LENGTH <
        HEADER_BASE + 2 * messages.length +
          ((messages.map fun message =>
            bpeEncode message.contents dict).map fun bytes =>
              RECORD_HEADER + bytes.length).sum +
          signatureData.length := by
    rw [MAX_ARRAY_LENGTH]
    omega
  rw [encodeBatchBPE, if_neg count]
  simp only [laid, laidBodies, if_neg fits]
  exact ⟨_, rfl⟩

/-- A number written in two bytes is read back. -/
theorem u16beRead_written
    (front rest : Bytes)
    {value : Nat}
    (small : value ≤ 0xffff) :
    u16beRead (front ++ (toBE 2 value ++ rest)) front.length = value := by
  have twoBytes :
      toBE 2 value =
        [UInt8.ofNat (value / 256), UInt8.ofNat value] := by
    simp [toBE]
  have high : (UInt8.ofNat (value / 256)).toNat = value / 256 := by
    rw [UInt8.toNat_ofNat']
    omega
  have low : (UInt8.ofNat value).toNat = value % 256 := by
    rw [UInt8.toNat_ofNat']
  rw [u16beRead, twoBytes, List.getD_append_right _ _ _ _ (Nat.le_refl _),
    List.getD_append_right _ _ _ _ (Nat.le_add_right _ 1), Nat.sub_self,
    Nat.add_sub_cancel_left]
  simp only [List.cons_append, List.nil_append, List.getD_cons_zero,
    List.getD_cons_succ, high, low]
  omega

/-- A number written in eight bytes is read back. -/
theorem u64beRead_written
    (front rest : Bytes)
    {value : Nat}
    (small : value ≤ MAX_NONCE) :
    u64beRead (front ++ (toBE 8 value ++ rest)) front.length = value := by
  have fits : value < 256 ^ 8 := Nat.lt_of_le_of_lt small (by decide)
  have isSlice :
      (List.range 8).map (fun i =>
          (front ++ (toBE 8 value ++ rest)).getD (front.length + i) 0) =
        toBE 8 value := by
    rw [← padRight_slice_eq_map, List.drop_left,
      List.take_left' (length_toBE 8 value), padRight, length_toBE,
      Nat.sub_self, List.replicate_zero, List.append_nil]
  calc
    u64beRead (front ++ (toBE 8 value ++ rest)) front.length
        = ofBE ((List.range 8).map fun i =>
            (front ++ (toBE 8 value ++ rest)).getD
              (front.length + i) 0) := by
      rw [u64beRead, ofBE, List.foldl_map]
    _ = ofBE (toBE 8 value) := by
      rw [isSlice]
    _ = value :=
      ofBE_toBE_of_lt fits

/-- A slice that was written is read back. -/
theorem sliceBytes_written
    (front written rest : Bytes)
    {stop : Nat}
    (isStop : stop = front.length + written.length) :
    sliceBytes (front ++ (written ++ rest)) front.length stop =
      written := by
  rw [sliceBytes, List.drop_left, isStop, Nat.add_sub_cancel_left,
    List.take_left]

section Decode

variable {messages : List BAMMessage} {signatureData payload : Bytes}
variable {dict : BPEDictionary}

/-- Where the bodies end. -/
theorem LaidOut.sigStart
    (laid : LaidOut messages signatureData dict payload) :
    payload.length - signatureData.length =
      offsetAt (HEADER_BASE + 2 * messages.length)
        (encodedContents messages dict) messages.length := by
  have whole :
      (encodedContents messages dict).take messages.length =
        encodedContents messages dict := by
    apply List.take_of_length_le
    rw [encodedContents, List.length_map]
  rw [laid.bytes, List.length_append, length_toBE, List.length_append,
    length_offsetTable, length_offsetsOf, List.length_append,
    List.length_flatten, sum_bodies, offsetAt, whole, HEADER_BASE]
  omega

/-- The count is read back. -/
theorem LaidOut.readCount
    (laid : LaidOut messages signatureData dict payload) :
    u16beRead payload 0 = messages.length := by
  rw [laid.bytes]
  exact u16beRead_written [] _ laid.count

/-- The offset of a message is read back. -/
theorem LaidOut.readOffset
    (laid : LaidOut messages signatureData dict payload)
    {i : Nat}
    (inside : i < messages.length) :
    u16beRead payload (2 + i * 2) =
      offsetAt (HEADER_BASE + 2 * messages.length)
        (encodedContents messages dict) i := by
  have inTable : i < (offsetsOf messages dict).length := by
    rwa [length_offsetsOf]
  have isOffset :
      (offsetsOf messages dict)[i] =
        offsetAt (HEADER_BASE + 2 * messages.length)
          (encodedContents messages dict) i := by
    simp [offsetsOf]
  have isTable :
      (offsetsOf messages dict).flatMap (toBE 2) =
        ((offsetsOf messages dict).take i).flatMap (toBE 2) ++
          (toBE 2 (offsetsOf messages dict)[i] ++
            ((offsetsOf messages dict).drop (i + 1)).flatMap
              (toBE 2)) := by
    rw [← List.flatMap_cons, ← List.drop_eq_getElem_cons inTable,
      ← List.flatMap_append, List.take_append_drop]
  have frontLength :
      (toBE 2 messages.length ++
        ((offsetsOf messages dict).take i).flatMap (toBE 2)).length =
          2 + i * 2 := by
    rw [List.length_append, length_toBE, length_offsetTable,
      List.length_take, Nat.min_eq_left (Nat.le_of_lt inTable),
      Nat.mul_comm]
  rw [laid.bytes, isTable, List.append_assoc, List.append_assoc,
    ← List.append_assoc, ← frontLength,
    u16beRead_written _ _
      (laid.offsetSmall _ (List.getElem_mem inTable)), isOffset]

/-- The body of a message stands at its offset. -/
theorem LaidOut.bodyAt
    (laid : LaidOut messages signatureData dict payload)
    {i : Nat}
    (inside : i < messages.length) :
    ∃ front rest,
      payload =
          front ++
            (bodyBPE messages[i] (bpeEncode messages[i].contents dict) ++
              rest) ∧
        front.length =
          offsetAt (HEADER_BASE + 2 * messages.length)
            (encodedContents messages dict) i := by
  have inBodies : i < (bodiesOf messages dict).length := by
    rwa [bodiesOf, List.length_map]
  have isBody :
      (bodiesOf messages dict)[i] =
        bodyBPE messages[i] (bpeEncode messages[i].contents dict) := by
    simp [bodiesOf]
  have cut :
      (bodiesOf messages dict).flatten =
        ((bodiesOf messages dict).take i).flatten ++
          ((bodiesOf messages dict)[i] ++
            ((bodiesOf messages dict).drop (i + 1)).flatten) := by
    rw [← List.flatten_cons, ← List.drop_eq_getElem_cons inBodies,
      ← List.flatten_append, List.take_append_drop]
  refine ⟨toBE 2 messages.length ++
      ((offsetsOf messages dict).flatMap (toBE 2) ++
        ((bodiesOf messages dict).take i).flatten),
    ((bodiesOf messages dict).drop (i + 1)).flatten ++ signatureData,
    ?_, ?_⟩
  · rw [laid.bytes, cut, isBody]
    simp only [List.append_assoc]
  · rw [List.length_append, length_toBE, List.length_append,
      length_offsetTable, length_offsetsOf, List.length_flatten,
      List.map_take, sum_bodies, ← List.map_take, offsetAt, HEADER_BASE]
    omega

/-- What a decoder over another dictionary makes of a message. -/
def recodeMessage
    (dict decoding : BPEDictionary)
    (message : BAMMessage) : BAMMessage :=
  { message with contents := recode dict decoding message.contents }

/-- One round of the decoder on an accepted batch. -/
theorem LaidOut.decodeBody
    (laid : LaidOut messages signatureData dict payload)
    (numbered : dict.Numbered)
    (decoding : BPEDictionary)
    {i : Nat}
    (inside : i < messages.length) :
    decodeBodyBPE payload decoding messages.length
        (payload.length - signatureData.length) i =
      .ok (recodeMessage dict decoding messages[i]) := by
  have inEncoded : i < (encodedContents messages dict).length := by
    rwa [encodedContents, List.length_map]
  have isEncoded :
      (encodedContents messages dict)[i] =
        bpeEncode messages[i].contents dict := by
    simp [encodedContents]
  have isEnd :
      (if i + 1 < messages.length then u16beRead payload (2 + (i + 1) * 2)
        else payload.length - signatureData.length) =
        offsetAt (HEADER_BASE + 2 * messages.length)
          (encodedContents messages dict) (i + 1) := by
    split
    · rename_i next
      exact laid.readOffset next
    · rename_i last
      have isLast : messages.length = i + 1 := by
        omega
      rw [laid.sigStart, isLast]
  have upTo :
      offsetAt (HEADER_BASE + 2 * messages.length)
          (encodedContents messages dict) (i + 1) ≤
        payload.length - signatureData.length := by
    rw [laid.sigStart, offsetAt, offsetAt]
    apply Nat.add_le_add_left
    apply List.Sublist.sum_le_sum
    · exact ((List.take_sublist_take_left inside).map _)
    · intro size _
      exact Nat.zero_le size
  obtain ⟨front, rest, isPayload, frontLength⟩ := laid.bodyAt inside
  have nextOffset := offsetAt_succ
    (HEADER_BASE + 2 * messages.length) inEncoded
  rw [isEncoded, ← frontLength] at nextOffset
  unfold decodeBodyBPE
  rw [laid.readOffset inside, isEnd]
  rw [nextOffset] at upTo ⊢
  rw [← frontLength]
  have bodyEnd :
      front.length +
          (RECORD_HEADER +
            (bpeEncode messages[i].contents dict).length) =
        front.length + 28 +
          (bpeEncode messages[i].contents dict).length := by
    rw [RECORD_HEADER]
    omega
  have notShort :
      ¬ front.length +
          (RECORD_HEADER +
            (bpeEncode messages[i].contents dict).length) <
        front.length + RECORD_HEADER := by
    omega
  have senderPart :
      sliceBytes payload front.length (front.length + 20) =
        addressBytes messages[i].sender := by
    rw [isPayload, bodyBPE, List.append_assoc, List.append_assoc]
    exact sliceBytes_written _ _ _ (by rw [length_addressBytes])
  have noncePart :
      u64beRead payload (front.length + 20) = messages[i].nonce := by
    have frontLength' :
        (front ++ addressBytes messages[i].sender).length =
          front.length + 20 := by
      rw [List.length_append, length_addressBytes]
    rw [isPayload, bodyBPE, List.append_assoc, List.append_assoc,
      ← List.append_assoc, ← frontLength']
    exact u64beRead_written _ _
      (laid.nonceSmall _ (List.getElem_mem inside))
  have contentsPart :
      sliceBytes payload (front.length + 28)
          (front.length +
            (RECORD_HEADER +
              (bpeEncode messages[i].contents dict).length)) =
        bpeEncode messages[i].contents dict := by
    have frontLength' :
        (front ++ (addressBytes messages[i].sender ++
            toBE 8 messages[i].nonce)).length =
          front.length + 28 := by
      rw [List.length_append, List.length_append, length_addressBytes,
        length_toBE]
    rw [bodyEnd, isPayload, bodyBPE, List.append_assoc _ _ rest,
      ← List.append_assoc front, ← frontLength']
    exact sliceBytes_written _ _ _ rfl
  dsimp only
  rw [if_neg notShort, if_neg (Nat.not_lt.mpr upTo), contentsPart,
    bpeDecode_bpeEncode numbered, senderPart, noncePart,
    addressOfBytes_addressBytes]
  rfl

/-- What a decoder over any dictionary reads from an accepted batch. -/
theorem decodeBatchBPE_encodeBatchBPE
    (encoded : encodeBatchBPE messages signatureData dict = .ok payload)
    (numbered : dict.Numbered)
    (decoding : BPEDictionary) :
    decodeBatchBPE payload decoding signatureData.length =
      .ok {
        messages := messages.map (recodeMessage dict decoding)
        signatureData } := by
  have laid := laidOut_of_encode encoded
  have loop :
      (List.range messages.length).mapM
          (decodeBodyBPE payload decoding messages.length
            (payload.length - signatureData.length)) =
        .ok (messages.map (recodeMessage dict decoding)) := by
    rw [ExceptLoops.mapM_eq_ok_iff, List.forall₂_iff_get]
    refine ⟨by rw [List.length_map, List.length_range], ?_⟩
    intro i inRange inMessages
    have inside : i < messages.length := by
      rwa [List.length_range] at inRange
    simp only [List.get_eq_getElem, List.getElem_range,
      List.getElem_map]
    exact laid.decodeBody numbered decoding inside
  have whole :
      payload.length =
        2 + (2 * messages.length +
          ((bodiesOf messages dict).flatten.length +
            signatureData.length)) := by
    rw [laid.bytes, List.length_append, length_toBE, List.length_append,
      length_offsetTable, length_offsetsOf, List.length_append]
  have trailer :
      payload.drop (payload.length - signatureData.length) =
        signatureData := by
    have isDrop :
        payload.length - signatureData.length =
          (toBE 2 messages.length ++
            ((offsetsOf messages dict).flatMap (toBE 2) ++
              (bodiesOf messages dict).flatten)).length := by
      rw [whole, List.length_append, length_toBE, List.length_append,
        length_offsetTable, length_offsetsOf]
      omega
    have isFront :
        payload =
          (toBE 2 messages.length ++
            ((offsetsOf messages dict).flatMap (toBE 2) ++
              (bodiesOf messages dict).flatten)) ++ signatureData := by
      rw [laid.bytes]
      simp only [List.append_assoc]
    rw [isDrop, isFront, List.drop_left]
  have headerFits :
      ¬ payload.length - signatureData.length <
        HEADER_BASE + 2 * messages.length := by
    rw [laid.sigStart, offsetAt]
    omega
  have notEmpty : payload.length ≠ 0 := by
    omega
  have notShort : ¬ payload.length < 2 := by
    omega
  have notExceeded : ¬ payload.length < signatureData.length := by
    omega
  rw [decodeBatchBPE, if_neg notEmpty, if_neg notShort,
    if_neg notExceeded]
  dsimp only
  rw [laid.readCount, if_neg headerFits, loop, trailer]

end Decode

end Bam
