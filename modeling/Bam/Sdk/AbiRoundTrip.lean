import Bam.Sdk.AbiBatch
import Mathlib.Algebra.Order.BigOperators.Group.List

namespace Bam

open Bytewise

/-!
# Sizes and round trips of the batch codecs

`decodeBatchABI` hands its data to viem's `decodeAbiParameters`, which is a
parameter; that it reads standard encodings is a hypothesis where a result needs
it.  The size estimators are compared with what the encoders return.
-/

/-- What `decodeBatchABI` throws. -/
inductive AbiBatchError where
  | malformed
  | signatureDataIndivisible (length : Nat)
  | signatureCount (signatures messages : Nat)
  deriving Repr, DecidableEq

/-- viem's `decodeAbiParameters` for `(Message[], bytes)`; `none` where it
throws. -/
abbrev DecodeAbiParameters := Bytes → Option (List BAMMessage × Bytes)

/-- A `Message` tuple. -/
def readMessage (data : Bytes) : Option BAMMessage :=
  match Abi.readUint data with
  | none => none
  | some sender =>
      match Abi.readUint (data.drop 32) with
      | none => none
      | some nonce =>
          match Abi.readDynamic Abi.readBytes data 64 with
          | none => none
          | some contents =>
              some {
                sender := BitVec.ofNat 160 sender
                nonce := nonce
                contents := contents }

/-- `decodeAbiParameters` reads what a standard encoding holds. -/
def StandardAbiDecoder
    (decodeAbiParameters : DecodeAbiParameters) : Prop :=
  ∀ components messages sigBlob,
    Abi.readDynamic (Abi.readArray readMessage)
        (Abi.encodeSequence components) 0 = some messages →
    Abi.readDynamic Abi.readBytes (Abi.encodeSequence components) 32 =
        some sigBlob →
    decodeAbiParameters (Abi.encodeSequence components) =
      some (messages, sigBlob)

/-- `decodeBatchABI`. -/
def decodeBatchABI
    (decodeAbiParameters : DecodeAbiParameters)
    (data : Bytes) : Except AbiBatchError DecodedBatch :=
  if data.length = 0 then
    .ok { messages := [], signatures := [] }
  else
    match decodeAbiParameters data with
    | none => .error .malformed
    | some (messages, sigBlob) =>
        if sigBlob.length % SIGNATURE_BYTES ≠ 0 then
          .error (.signatureDataIndivisible sigBlob.length)
        else
          let sigCount := sigBlob.length / SIGNATURE_BYTES
          if sigCount ≠ messages.length then
            .error (.signatureCount sigCount messages.length)
          else
            .ok {
              messages := messages
              signatures :=
                (List.range sigCount).map fun i =>
                  (sigBlob.drop (i * SIGNATURE_BYTES)).take
                    SIGNATURE_BYTES }

/-- The component `encodeBatchABI` hands over for a message. -/
def messageComponent (message : BAMMessage) : Abi.Component :=
  Abi.tuple [
    Abi.uint message.sender.toNat,
    Abi.uint message.nonce,
    Abi.bytes message.contents]

/-- What a successful message loop accepted and returned. -/
theorem messageComponents_ok
    {index : Nat}
    {messages : List BAMMessage}
    {components : List Abi.Component}
    (succeeded : messageComponents index messages = .ok components) :
    (∀ message ∈ messages, message.nonce ≤ MAX_NONCE) ∧
      components = messages.map messageComponent := by
  induction messages generalizing index components with
  | nil =>
      simpa [messageComponents, eq_comm] using succeeded
  | cons message rest inductionHypothesis =>
      rw [messageComponents] at succeeded
      split at succeeded
      · cases succeeded
      rename_i inRange
      cases later : messageComponents (index + 1) rest with
      | error error =>
          simp [later] at succeeded
      | ok others =>
          simp only [later, Except.ok.injEq] at succeeded
          obtain ⟨restInRange, isRest⟩ := inductionHypothesis later
          refine ⟨List.forall_mem_cons.mpr
            ⟨Nat.le_of_not_lt inRange, restInRange⟩, ?_⟩
          rw [← succeeded, isRest]
          rfl

/-- The message loop succeeds on nonces in range. -/
theorem messageComponents_succeeds
    {messages : List BAMMessage}
    (inRange : ∀ message ∈ messages, message.nonce ≤ MAX_NONCE)
    (index : Nat) :
    messageComponents index messages =
      .ok (messages.map messageComponent) := by
  induction messages generalizing index with
  | nil =>
      rfl
  | cons message rest inductionHypothesis =>
      rw [List.forall_mem_cons] at inRange
      rw [messageComponents, if_neg (Nat.not_lt.mpr inRange.1),
        inductionHypothesis inRange.2]
      rfl

/-- The signature loop concatenates signatures of the right size. -/
theorem concatSignatures_succeeds
    {signatures : List Bytes}
    (sized :
      ∀ signature ∈ signatures, signature.length = SIGNATURE_BYTES)
    (index : Nat) :
    concatSignatures index signatures = .ok signatures.flatten := by
  induction signatures generalizing index with
  | nil =>
      rfl
  | cons signature rest inductionHypothesis =>
      rw [List.forall_mem_cons] at sized
      rw [concatSignatures, if_neg (not_not.mpr sized.1),
        inductionHypothesis sized.2]
      rfl

section Batch

variable {encodeAbiParameters : EncodeAbiParameters}
variable {decodeAbiParameters : DecodeAbiParameters}
variable {messages : List BAMMessage}
variable {signatures : List Bytes}
variable {data : Bytes}

/-- What `encodeBatchABI` returned for a non-empty batch. -/
theorem encodeBatchABI_ok
    (standard : StandardAbi encodeAbiParameters)
    (sized :
      ∀ signature ∈ signatures, signature.length = SIGNATURE_BYTES)
    (nonempty : messages.length ≠ 0)
    (encoded :
      encodeBatchABI encodeAbiParameters messages signatures =
        .ok data) :
    (∀ message ∈ messages, message.nonce ≤ MAX_NONCE) ∧
      data =
        Abi.encodeSequence
          [Abi.array (messages.map messageComponent),
            Abi.bytes signatures.flatten] := by
  rw [encodeBatchABI] at encoded
  split at encoded
  · cases encoded
  rw [concatSignatures_succeeds sized] at encoded
  dsimp only at encoded
  cases components : messageComponents 0 messages with
  | error error =>
      simp [components] at encoded
  | ok found =>
      simp only [components, Except.ok.injEq] at encoded
      obtain ⟨inRange, isFound⟩ := messageComponents_ok components
      refine ⟨inRange, ?_⟩
      rw [← encoded, standard, isFound]

theorem encoding_messageComponent (message : BAMMessage) :
    (messageComponent message).encoding =
      Abi.encodeSequence [
        Abi.uint message.sender.toNat,
        Abi.uint message.nonce,
        Abi.bytes message.contents] :=
  rfl

/-- The room of a message in its array. -/
theorem room_messageComponent (message : BAMMessage) :
    Abi.room (messageComponent message) =
      32 + (96 + 32 + Abi.roundUp message.contents.length) := by
  have isDynamic : (messageComponent message).dynamic = true :=
    rfl
  rw [Abi.room, if_pos isDynamic, encoding_messageComponent,
    Abi.length_encodeSequence]
  simp only [List.map_cons, List.map_nil, List.sum_cons, List.sum_nil,
    Abi.room_uint, Abi.room_bytes]
  omega

/-- The rooms of the message array. -/
theorem rooms_messageComponents (messages : List BAMMessage) :
    ((messages.map messageComponent).map Abi.room).sum =
      32 * messages.length +
        (messages.map fun message =>
          96 + 32 + Abi.roundUp message.contents.length).sum := by
  induction messages with
  | nil =>
      rfl
  | cons message rest inductionHypothesis =>
      simp only [List.map_cons, List.sum_cons, List.length_cons,
        room_messageComponent, inductionHypothesis]
      omega

/-- The signatures of a batch, one behind the other. -/
theorem length_signatures
    (sized :
      ∀ signature ∈ signatures, signature.length = SIGNATURE_BYTES)
    (parallel : messages.length = signatures.length) :
    signatures.flatten.length = SIGNATURE_BYTES * messages.length := by
  rw [length_flatten_of_uniform sized, parallel, Nat.mul_comm]

/-- The ABI estimator agrees with the encoder. -/
theorem length_encodeBatchABI
    (standard : StandardAbi encodeAbiParameters)
    (sized :
      ∀ signature ∈ signatures, signature.length = SIGNATURE_BYTES)
    (parallel : messages.length = signatures.length)
    (encoded :
      encodeBatchABI encodeAbiParameters messages signatures =
        .ok data) :
    data.length = estimateBatchSizeABI messages := by
  by_cases empty : messages.length = 0
  · have isData : data = [] := by
      rw [encodeBatchABI, if_neg (not_not.mpr parallel), if_pos empty]
        at encoded
      exact (Except.ok.inj encoded).symm
    rw [isData, estimateBatchSizeABI, if_pos empty]
    rfl
  · obtain ⟨-, isData⟩ :=
      encodeBatchABI_ok standard sized empty encoded
    rw [isData, Abi.length_encodeSequence, estimateBatchSizeABI,
      if_neg empty]
    simp only [List.map_cons, List.map_nil, List.sum_cons, List.sum_nil,
      Abi.room_array, Abi.room_bytes, rooms_messageComponents,
      length_signatures sized parallel]
    omega

/-- A message component is read back. -/
theorem reads_messageComponent
    {message : BAMMessage}
    (inRange : message.nonce ≤ MAX_NONCE)
    (fits : (messageComponent message).encoding.length < 2 ^ 256) :
    Abi.Reads readMessage (messageComponent message) message := by
  intro later
  have senderSmall : message.sender.toNat < 2 ^ 256 :=
    Nat.lt_trans message.sender.isLt (by decide)
  have nonceSmall : message.nonce < 2 ^ 256 :=
    Nat.lt_of_le_of_lt inRange (by decide)
  have room := room_messageComponent message
  have contentsSmall : message.contents.length < 2 ^ 256 := by
    have isRoom :
        Abi.room (messageComponent message) =
          32 + (messageComponent message).encoding.length :=
      rfl
    have enough := Abi.length_le_roundUp message.contents.length
    omega
  have sender :
      Abi.readUint ((messageComponent message).encoding ++ later) =
        some message.sender.toNat := by
    obtain ⟨rest, atHead⟩ :=
      @Abi.drop_static []
        [Abi.uint message.nonce, Abi.bytes message.contents]
        (Abi.uint message.sender.toNat) rfl
    have isHead :
        (messageComponent message).encoding =
          Abi.word message.sender.toNat ++ rest :=
      atHead
    rw [isHead, List.append_assoc]
    exact Abi.readUint_word senderSmall _
  have nonce :
      Abi.readUint (((messageComponent message).encoding ++ later).drop
          32) =
        some message.nonce := by
    obtain ⟨rest, atHead⟩ :=
      @Abi.drop_static [Abi.uint message.sender.toNat]
        [Abi.bytes message.contents] (Abi.uint message.nonce) rfl
    simp only [List.map_cons, List.map_nil, List.sum_cons, List.sum_nil,
      Abi.headSize_uint, Nat.add_zero, List.singleton_append,
      ← encoding_messageComponent] at atHead
    have wide : 32 ≤ (messageComponent message).encoding.length := by
      rw [encoding_messageComponent, Abi.length_encodeSequence]
      simp only [List.map_cons, List.sum_cons, Abi.room_uint]
      omega
    rw [List.drop_append_of_le_length wide, atHead, List.append_assoc]
    exact Abi.readUint_word nonceSmall _
  have contents :
      Abi.readDynamic Abi.readBytes
          ((messageComponent message).encoding ++ later) 64 =
        some message.contents := by
    have read :=
      @Abi.readDynamic_encodeSequence _ Abi.readBytes
        [Abi.uint message.sender.toNat, Abi.uint message.nonce] []
        (Abi.bytes message.contents) message.contents rfl
        (Abi.reads_bytes contentsSmall) later fits
    simp only [List.map_cons, List.map_nil, List.sum_cons, List.sum_nil,
      Abi.headSize_uint] at read
    exact read
  simp only [readMessage, sender, nonce, contents, BitVec.ofNat_toNat,
    BitVec.setWidth_eq]

/-- The signature slices are the signatures. -/
theorem signatureSlices
    (sized :
      ∀ signature ∈ signatures, signature.length = SIGNATURE_BYTES) :
    ((List.range signatures.length).map fun i =>
        (signatures.flatten.drop (i * SIGNATURE_BYTES)).take
          SIGNATURE_BYTES) =
      signatures := by
  apply List.ext_getElem
  · rw [List.length_map, List.length_range]
  · intro i _ inside
    have slice := take_drop_flatten sized inside 0
    rw [Nat.add_zero, Nat.sub_zero, List.drop_zero] at slice
    rw [List.getElem_map, List.getElem_range, slice]

/-- Decoding an ABI batch gives back the messages and signatures. -/
theorem decodeBatchABI_encodeBatchABI
    (standard : StandardAbi encodeAbiParameters)
    (standardDecoder : StandardAbiDecoder decodeAbiParameters)
    (sized :
      ∀ signature ∈ signatures, signature.length = SIGNATURE_BYTES)
    (parallel : messages.length = signatures.length)
    (encoded :
      encodeBatchABI encodeAbiParameters messages signatures =
        .ok data)
    (isArray : data.length ≤ MAX_ARRAY_LENGTH) :
    decodeBatchABI decodeAbiParameters data =
      .ok { messages, signatures } := by
  have size := length_encodeBatchABI standard sized parallel encoded
  by_cases empty : messages.length = 0
  · have noData : data.length = 0 := by
      rw [size, estimateBatchSizeABI, if_pos empty]
    have noMessages := List.eq_nil_of_length_eq_zero empty
    have noSignatures :=
      List.eq_nil_of_length_eq_zero (parallel.symm.trans empty)
    rw [decodeBatchABI, if_pos noData, noMessages, noSignatures]
  · obtain ⟨inRange, isData⟩ :=
      encodeBatchABI_ok standard sized empty encoded
    have hasData : data.length ≠ 0 := by
      rw [size, estimateBatchSizeABI, if_neg empty]
      omega
    have fits : data.length < 2 ^ 256 :=
      Nat.lt_of_le_of_lt isArray (by decide)
    have rooms := Abi.length_encodeSequence
      [Abi.array (messages.map messageComponent),
        Abi.bytes signatures.flatten]
    rw [← isData] at rooms
    simp only [List.map_cons, List.map_nil, List.sum_cons, List.sum_nil,
      Abi.room_bytes] at rooms
    have arrayRoom :
        Abi.room (Abi.array (messages.map messageComponent)) =
          32 + (Abi.array (messages.map messageComponent)).encoding.length :=
      rfl
    have elementSmall :
        ∀ message ∈ messages,
          (messageComponent message).encoding.length < 2 ^ 256 := by
      intro message member
      have isRoom :
          Abi.room (messageComponent message) =
            32 + (messageComponent message).encoding.length :=
        rfl
      have inSum :
          Abi.room (messageComponent message) ≤
            ((messages.map messageComponent).map Abi.room).sum :=
        List.le_sum_of_mem
          (List.mem_map_of_mem (List.mem_map_of_mem member))
      have ofArray := Abi.room_array (messages.map messageComponent)
      omega
    have arrayFits :
        (Abi.array (messages.map messageComponent)).encoding.length <
          2 ^ 256 := by
      omega
    have readsArray :
        Abi.Reads (Abi.readArray readMessage)
          (Abi.array (messages.map messageComponent)) messages := by
      have reads :=
        @Abi.reads_array _ readMessage
          (messages.map fun message => (messageComponent message, message))
      simp only [List.map_map, Function.comp_def, List.map_id'] at reads
      refine reads ?_ ?_ arrayFits
      · intro element member
        obtain ⟨message, -, rfl⟩ := List.mem_map.mp member
        rfl
      · intro element member
        obtain ⟨message, isMessage, rfl⟩ := List.mem_map.mp member
        exact reads_messageComponent (inRange message isMessage)
          (elementSmall message isMessage)
    have enough := Abi.length_le_roundUp signatures.flatten.length
    have readsSignatures :
        Abi.Reads Abi.readBytes (Abi.bytes signatures.flatten)
          signatures.flatten :=
      Abi.reads_bytes (by omega)
    have first :=
      @Abi.readDynamic_encodeSequence _ (Abi.readArray readMessage) []
        [Abi.bytes signatures.flatten] _ messages rfl readsArray []
        (by rw [List.nil_append, ← isData]; exact fits)
    have second :=
      @Abi.readDynamic_encodeSequence _ Abi.readBytes
        [Abi.array (messages.map messageComponent)] [] _
        signatures.flatten rfl readsSignatures []
        (by rw [List.singleton_append, ← isData]; exact fits)
    rw [List.append_nil] at first second
    have decoded := standardDecoder _ _ _ first second
    rw [List.nil_append, ← isData] at decoded
    have whole :
        signatures.flatten.length = signatures.length * SIGNATURE_BYTES :=
      length_flatten_of_uniform sized
    have count :
        signatures.flatten.length / SIGNATURE_BYTES =
          signatures.length := by
      rw [whole, Nat.mul_div_cancel _ (by decide)]
    have divisible :
        signatures.flatten.length % SIGNATURE_BYTES = 0 := by
      rw [whole, Nat.mul_mod_left]
    rw [decodeBatchABI, if_neg hasData, decoded]
    dsimp only
    rw [if_neg (not_not.mpr divisible), count,
      if_neg (not_not.mpr parallel.symm), signatureSlices sized]

/-- The ABI encoder refuses no parallel batch whose nonces are in range. -/
theorem encodeBatchABI_succeeds
    (sized :
      ∀ signature ∈ signatures, signature.length = SIGNATURE_BYTES)
    (parallel : messages.length = signatures.length)
    (inRange : ∀ message ∈ messages, message.nonce ≤ MAX_NONCE) :
    ∃ data,
      encodeBatchABI encodeAbiParameters messages signatures =
        .ok data := by
  rw [encodeBatchABI, if_neg (not_not.mpr parallel),
    concatSignatures_succeeds sized, messageComponents_succeeds inRange]
  split
  · exact ⟨_, rfl⟩
  · exact ⟨_, rfl⟩

end Batch

/--
Both estimators give the size of what their encoder returns, the ABI decoder
gets the batch back, and the encoders refuse only messages whose fields leave
their range.
-/
theorem batchSizes_exact
    {encodeAbiParameters : EncodeAbiParameters}
    {decodeAbiParameters : DecodeAbiParameters}
    (standard : StandardAbi encodeAbiParameters)
    (standardDecoder : StandardAbiDecoder decodeAbiParameters)
    {messages : List BAMMessage}
    {signatures : List Bytes}
    (parallel : messages.length = signatures.length)
    (sized :
      ∀ signature ∈ signatures, signature.length = SIGNATURE_BYTES) :
    (∀ encoded,
      encodeBatch messages signatures .none = .ok encoded →
        estimateBatchSize messages = encoded.data.length) ∧
    (∀ data,
      encodeBatchABI encodeAbiParameters messages signatures = .ok data →
        estimateBatchSizeABI messages = data.length ∧
        (data.length ≤ MAX_ARRAY_LENGTH →
          decodeBatchABI decodeAbiParameters data =
            .ok { messages, signatures })) ∧
    ((∀ message ∈ messages, message.nonce ≤ MAX_NONCE) →
      (∃ data,
        encodeBatchABI encodeAbiParameters messages signatures =
          .ok data) ∧
      ((∀ message ∈ messages, message.contents.length ≤ MAX_UINT32) →
        messages.length ≤ MAX_UINT32 →
        ∃ encoded,
          encodeBatch messages signatures .none = .ok encoded)) := by
  refine ⟨?_, ?_, ?_⟩
  · intro encoded succeeded
    exact (length_encodeBatch succeeded).symm
  · intro data encoded
    exact ⟨(length_encodeBatchABI standard sized parallel encoded).symm,
      decodeBatchABI_encodeBatchABI standard standardDecoder sized
        parallel encoded⟩
  · intro inRange
    refine ⟨encodeBatchABI_succeeds sized parallel inRange, ?_⟩
    intro small few
    refine encodeBatch_succeeds parallel few ?_
    intro record member
    obtain ⟨isMessage, isSignature⟩ := List.of_mem_zip member
    exact ⟨sized _ isSignature, inRange _ isMessage, small _ isMessage⟩

/-- A decoder that reads its data as a standard encoding. -/
def readBatchParameters : DecodeAbiParameters :=
  fun data =>
    match Abi.readDynamic (Abi.readArray readMessage) data 0 with
    | none => none
    | some messages =>
        match Abi.readDynamic Abi.readBytes data 32 with
        | none => none
        | some sigBlob => some (messages, sigBlob)

theorem readBatchParameters_standard :
    StandardAbiDecoder readBatchParameters := by
  intro components messages sigBlob first second
  simp only [readBatchParameters, first, second]

theorem batchSizes_exact_greeting :
    ∃ data,
      encodeBatchABI Abi.encodeSequence
          [{ sender := 7, nonce := 1, contents := [0x68, 0x69] }]
          [List.replicate 65 0x01] = .ok data ∧
        data.length = 416 := by
  have sized :
      ∀ signature ∈ [List.replicate 65 (0x01 : UInt8)],
        signature.length = SIGNATURE_BYTES := by
    decide
  obtain ⟨-, exact, succeeds⟩ :=
    @batchSizes_exact Abi.encodeSequence readBatchParameters
      (fun _ => rfl) readBatchParameters_standard
      [{ sender := 7, nonce := 1, contents := [0x68, 0x69] }]
      [List.replicate 65 0x01] rfl sized
  obtain ⟨data, encoded⟩ := (succeeds (by decide)).1
  exact ⟨data, encoded, ((exact data encoded).1).symm⟩

end Bam
