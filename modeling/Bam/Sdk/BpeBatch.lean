import Bam.Sdk.Batch
import Bam.Sdk.Bpe

namespace Bam

open Bytewise

/-!
# The BPE batch codec

A batch is a message count, one offset for each message, the bodies (sender,
nonce and compressed contents) and an opaque signature trailer.
-/

def RECORD_HEADER : Nat := 20 + 8

def HEADER_BASE : Nat := 2

/-- What the codec throws. -/
inductive BpeBatchError where
  | tooManyMessages (count : Nat)
  | offsetOverflow (index cursor : Nat)
  | arrayLength (total : Nat)
  | nonceRange (index : Nat)
  | payloadTooShort (length : Nat)
  | signatureExceedsPayload (signatureSize length : Nat)
  | signatureOverrun (signatureSize : Nat)
  | bodyTooShort (index startOff endOff : Nat)
  | bodyOverrun (index : Nat)
  | bpe (error : BpeError)
  deriving Repr, DecidableEq

/-- What `decodeBatchBPE` returns. -/
structure DecodedBatchBPE where
  messages : List BAMMessage
  signatureData : Bytes
  deriving Repr, DecidableEq

/-- `subarray.slice(start, stop)`. -/
def sliceBytes
    (buf : Bytes)
    (start stop : Nat) : Bytes :=
  (buf.drop start).take (stop - start)

/-- `u16beRead`. -/
def u16beRead
    (buf : Bytes)
    (offset : Nat) : Nat :=
  (buf.getD offset 0).toNat * 256 + (buf.getD (offset + 1) 0).toNat

/-- `u64beRead`. -/
def u64beRead
    (buf : Bytes)
    (offset : Nat) : Nat :=
  (List.range 8).foldl
    (fun v i => v * 256 + (buf.getD (offset + i) 0).toNat) 0

/-- The offset loop of `encodeBatchBPE`: the index of the next message, its
offset, the compressed contents left. -/
def layOffsets :
    Nat → Nat → List Bytes → Except BpeBatchError (List Nat)
  | _, _, [] => .ok []
  | index, cursor, encoded :: rest =>
      if 0xffff < cursor then .error (.offsetOverflow index cursor)
      else
        match layOffsets (index + 1)
            (cursor + (RECORD_HEADER + encoded.length)) rest with
        | .error error => .error error
        | .ok offsets => .ok (cursor :: offsets)

/-- One body. -/
def bodyBPE
    (message : BAMMessage)
    (encoded : Bytes) : Bytes :=
  addressBytes message.sender ++ toBE 8 message.nonce ++ encoded

/-- The body loop of `encodeBatchBPE`. -/
def layBodies :
    Nat → List (BAMMessage × Bytes) → Except BpeBatchError Bytes
  | _, [] => .ok []
  | index, (message, encoded) :: rest =>
      if MAX_NONCE < message.nonce then .error (.nonceRange index)
      else
        match layBodies (index + 1) rest with
        | .error error => .error error
        | .ok bodies => .ok (bodyBPE message encoded ++ bodies)

/-- `encodeBatchBPE`. -/
def encodeBatchBPE
    (messages : List BAMMessage)
    (signatureData : Bytes)
    (dict : BPEDictionary) : Except BpeBatchError Bytes :=
  let n := messages.length
  if 0xffff < n then .error (.tooManyMessages n)
  else
    let encoded := messages.map fun message =>
      bpeEncode message.contents dict
    let headerSize := HEADER_BASE + 2 * n
    match layOffsets 0 headerSize encoded with
    | .error error => .error error
    | .ok offsets =>
        let bodiesTotal :=
          (encoded.map fun bytes => RECORD_HEADER + bytes.length).sum
        let total := headerSize + bodiesTotal + signatureData.length
        if MAX_ARRAY_LENGTH < total then .error (.arrayLength total)
        else
          match layBodies 0 (messages.zip encoded) with
          | .error error => .error error
          | .ok bodies =>
              .ok (toBE 2 n ++ offsets.flatMap (toBE 2) ++ bodies ++
                signatureData)

/-- One round of the loop of `decodeBatchBPE`. -/
def decodeBodyBPE
    (payload : Bytes)
    (dict : BPEDictionary)
    (n sigStart i : Nat) : Except BpeBatchError BAMMessage :=
  let startOff := u16beRead payload (2 + i * 2)
  let endOff :=
    if i + 1 < n then u16beRead payload (2 + (i + 1) * 2) else sigStart
  if endOff < startOff + RECORD_HEADER then
    .error (.bodyTooShort i startOff endOff)
  else if sigStart < endOff then .error (.bodyOverrun i)
  else
    match bpeDecode (sliceBytes payload (startOff + 28) endOff) dict with
    | .error error => .error (.bpe error)
    | .ok contents =>
        .ok {
          sender :=
            addressOfBytes (sliceBytes payload startOff (startOff + 20))
          nonce := u64beRead payload (startOff + 20)
          contents }

/-- `decodeBatchBPE`; `signatureSize` is a non-negative integer. -/
def decodeBatchBPE
    (payload : Bytes)
    (dict : BPEDictionary)
    (signatureSize : Nat) : Except BpeBatchError DecodedBatchBPE :=
  if payload.length = 0 then .ok { messages := [], signatureData := [] }
  else if payload.length < 2 then
    .error (.payloadTooShort payload.length)
  else if payload.length < signatureSize then
    .error (.signatureExceedsPayload signatureSize payload.length)
  else
    let n := u16beRead payload 0
    let headerSize := HEADER_BASE + 2 * n
    let sigStart := payload.length - signatureSize
    if sigStart < headerSize then .error (.signatureOverrun signatureSize)
    else
      match (List.range n).mapM (decodeBodyBPE payload dict n sigStart) with
      | .error error => .error error
      | .ok messages =>
          .ok { messages, signatureData := payload.drop sigStart }

/-- `decodeBatchBPEPerMessage`. -/
def decodeBatchBPEPerMessage
    (payload : Bytes)
    (dict : BPEDictionary)
    (sigUnitSize : Nat) : Except BpeBatchError DecodedBatchBPE :=
  if payload.length = 0 then .ok { messages := [], signatureData := [] }
  else if payload.length < 2 then
    .error (.payloadTooShort payload.length)
  else
    decodeBatchBPE payload dict (sigUnitSize * u16beRead payload 0)

end Bam
