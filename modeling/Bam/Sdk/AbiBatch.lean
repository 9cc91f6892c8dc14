import Bam.Lib.Abi
import Bam.Sdk.Batch

namespace Bam

/-!
# The ABI batch codec

`encodeBatchABI` hands viem's `encodeAbiParameters` the pair
`(Message[], bytes)`.  The function itself is a parameter; that it is the
standard ABI encoding is a hypothesis where a result needs it.
-/

/-- viem's `encodeAbiParameters`, over values already seen as components. -/
abbrev EncodeAbiParameters := List Abi.Component → Bytes

/-- `encodeAbiParameters` is the ABI encoding of its parameter list. -/
def StandardAbi (encodeAbiParameters : EncodeAbiParameters) : Prop :=
  ∀ components,
    encodeAbiParameters components = Abi.encodeSequence components

/-- The signature loop of `encodeBatchABI`. -/
def concatSignatures : Nat → List Bytes → Except BatchError Bytes
  | _, [] => .ok []
  | index, signature :: rest =>
      if signature.length ≠ SIGNATURE_BYTES then
        .error (.signatureLength index signature.length)
      else
        match concatSignatures (index + 1) rest with
        | .error error => .error error
        | .ok later => .ok (signature ++ later)

/-- The message loop of `encodeBatchABI`. -/
def messageComponents :
    Nat → List BAMMessage → Except BatchError (List Abi.Component)
  | _, [] => .ok []
  | index, message :: rest =>
      if MAX_NONCE < message.nonce then
        .error (.nonceRange index)
      else
        match messageComponents (index + 1) rest with
        | .error error => .error error
        | .ok later =>
            .ok
              (Abi.tuple [
                Abi.uint message.sender.toNat,
                Abi.uint message.nonce,
                Abi.bytes message.contents] :: later)

/-- `encodeBatchABI`. -/
def encodeBatchABI
    (encodeAbiParameters : EncodeAbiParameters)
    (messages : List BAMMessage)
    (signatures : List Bytes) : Except BatchError Bytes :=
  if messages.length ≠ signatures.length then
    .error (.notParallel messages.length signatures.length)
  else if messages.length = 0 then
    .ok []
  else
    match concatSignatures 0 signatures with
    | .error error => .error error
    | .ok sigBlob =>
        match messageComponents 0 messages with
        | .error error => .error error
        | .ok components =>
            .ok (encodeAbiParameters
              [Abi.array components, Abi.bytes sigBlob])

/-- `estimateBatchSizeABI`. -/
def estimateBatchSizeABI (messages : List BAMMessage) : Nat :=
  if messages.length = 0 then 0
  else
    64 + 32 + 32 * messages.length +
      (messages.map fun message =>
        96 + 32 + Abi.roundUp message.contents.length).sum +
      32 + Abi.roundUp (SIGNATURE_BYTES * messages.length)

/-- An ABI batch of one or more messages starts with a zero byte. -/
theorem encodeBatchABI_head
    {encodeAbiParameters : EncodeAbiParameters}
    (standard : StandardAbi encodeAbiParameters)
    {messages : List BAMMessage}
    {signatures : List Bytes}
    {data : Bytes}
    (nonempty : messages ≠ [])
    (encoded :
      encodeBatchABI encodeAbiParameters messages signatures =
        .ok data) :
    ∃ later, data = 0x00 :: later := by
  unfold encodeBatchABI at encoded
  split at encoded
  · cases encoded
  split at encoded
  · rename_i empty
    exact absurd (List.eq_nil_of_length_eq_zero empty) nonempty
  split at encoded
  · cases encoded
  rename_i sigBlob _
  split at encoded
  · cases encoded
  rename_i components _
  rw [← Except.ok.inj encoded, standard]
  exact Abi.encodeSequence_pair rfl rfl

/-- The binary decoder refuses every ABI batch. -/
theorem decodeBatch_encodeBatchABI
    {encodeAbiParameters : EncodeAbiParameters}
    (standard : StandardAbi encodeAbiParameters)
    {messages : List BAMMessage}
    {signatures : List Bytes}
    {data : Bytes}
    (nonempty : messages ≠ [])
    (encoded :
      encodeBatchABI encodeAbiParameters messages signatures =
        .ok data)
    (decompress : Bytes → Except BatchError Bytes)
    (decoded : DecodedBatch) :
    decodeBatch decompress data ≠ .ok decoded := by
  obtain ⟨later, rfl⟩ := encodeBatchABI_head standard nonempty encoded
  have wrongVersion :
      ((0x00 : UInt8) :: later).getD 0 0 ≠ BATCH_VERSION := by
    rw [List.getD_cons_zero]
    decide
  unfold decodeBatch
  split
  · simp
  · dsimp only
    rw [if_pos wrongVersion]
    simp

end Bam
