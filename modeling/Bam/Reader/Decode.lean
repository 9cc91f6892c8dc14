import Bam.Sdk.Blob
import Bam.Sdk.Signatures

namespace Bam

open Bytewise

/-!
# Decoding and verifying a segment

The decode dispatch of the Reader with its zstd bound, and the per-message
verify dispatch.  The zero address stands for the SDK's own codec and scheme;
any other address is answered by a bounded `eth_call`, whose result is an
input here.
-/

def DEFAULT_DECOMPRESS_MULTIPLIER : Nat := 2

/-- What the decode dispatch throws. -/
inductive DecodeError where
  | batch (error : BatchError)
  | zstdMagicMissing
  | frameContentSizeMissing
  | decompressedSizeExceeded (declared cap : Nat)
  | onChainDecodeFailed
  | signatureDataForEmptyBatch
  | signatureDataIndivisible (length messageCount : Nat)
  deriving Repr, DecidableEq

/-- A little-endian number. -/
def readLE (bytes : Bytes) : Nat :=
  ofBE bytes.reverse

/-- The width of the frame content size field; zero where it is absent. -/
def fcsFieldSize (fcsFlag singleSegment : Nat) : Nat :=
  match fcsFlag with
  | 0 => if singleSegment ≠ 0 then 1 else 0
  | 1 => 2
  | 2 => 4
  | _ => 8

/-- `readFrameContentSize`. -/
def readFrameContentSize (payload : Bytes) : Option Nat :=
  if payload.length < 5 then none
  else
    let descriptor := (payload.getD 4 0).toNat
    let fcsFlag := descriptor / 64 % 4
    let singleSegment := descriptor / 32 % 2
    let dictIdSize := [0, 1, 2, 4].getD (descriptor % 4) 0
    let windowDescriptorSize := if singleSegment ≠ 0 then 0 else 1
    let fcsSize := fcsFieldSize fcsFlag singleSegment
    if fcsSize = 0 then none
    else
      let fcsOffset := 5 + windowDescriptorSize + dictIdSize
      if payload.length < fcsOffset + fcsSize then none
      else
        let size := readLE ((payload.drop fcsOffset).take fcsSize)
        some (if fcsFlag = 1 then size + 256 else size)

/-- `assertZstdWithinBound` under the default multiplier. -/
def assertZstdWithinBound
    (usableBytes : Bytes) : Except DecodeError Unit :=
  if usableBytes.length < HEADER_SIZE then .ok ()
  else if usableBytes.getD 1 0 ≠ CODEC_ZSTD then .ok ()
  else
    let payloadLen := ofBE ((usableBytes.drop 6).take 4)
    if usableBytes.length < HEADER_SIZE + payloadLen then .ok ()
    else
      let payload := (usableBytes.drop HEADER_SIZE).take payloadLen
      if ¬ isCompressed payload then .error .zstdMagicMissing
      else
        match readFrameContentSize payload with
        | none => .error .frameContentSizeMissing
        | some declared =>
            let cap := usableBytes.length * DEFAULT_DECOMPRESS_MULTIPLIER
            if cap < declared then
              .error (.decompressedSizeExceeded declared cap)
            else .ok ()

/-- `splitSignatureData`. -/
def splitSignatureData
    (signatureData : Bytes)
    (messageCount : Nat) : Except DecodeError (List Bytes) :=
  if messageCount = 0 then
    if signatureData.length ≠ 0 then
      .error .signatureDataForEmptyBatch
    else .ok []
  else if signatureData.length % messageCount ≠ 0 then
    .error (.signatureDataIndivisible signatureData.length messageCount)
  else
    let sigSize := signatureData.length / messageCount
    .ok ((List.range messageCount).map (block sigSize signatureData))

/-- The on-chain decoder's answer; `none` where the call fails, times out or
no client is wired. -/
abbrev DecoderAnswer := Option (List BAMMessage × Bytes)

/-- `callOnChainDecoder`, behind the call. -/
def callOnChainDecoder
    (answer : DecoderAnswer) : Except DecodeError DecodedBatch :=
  match answer with
  | none => .error .onChainDecodeFailed
  | some (messages, signatureData) =>
      match splitSignatureData signatureData messages.length with
      | .error error => .error error
      | .ok signatures => .ok { messages, signatures }

/-- The decode dispatch. -/
def decode
    (decompress : Bytes → Except BatchError Bytes)
    (decoderAddress : Address)
    (usableBytes : Bytes)
    (answer : DecoderAnswer) : Except DecodeError DecodedBatch :=
  if decoderAddress = 0 then
    match assertZstdWithinBound usableBytes with
    | .error error => .error error
    | .ok () =>
        match decodeBatch decompress usableBytes with
        | .error error => .error (.batch error)
        | .ok decoded => .ok decoded
  else callOnChainDecoder answer

/-- The signature registry's answer to one call, given its owner, digest and
signature; `none` where the call fails, times out or no client is wired. -/
abbrev RegistryAnswer := Address → Bytes32 → Bytes → Option Bool

/-- The verify dispatch. -/
def verifyMessage
    (crypto : CryptoLibraries)
    (registryAddress : Address)
    (message : BAMMessage)
    (contentTag : Bytes32)
    (signature : Bytes)
    (chainId : Nat)
    (answer : RegistryAnswer) : Bool :=
  if registryAddress = 0 then
    verifyECDSA crypto message contentTag signature message.sender chainId
  else
    (answer message.sender
      (computeECDSADigest crypto message contentTag chainId)
      signature).getD false

/-- Why a segment range is rejected. -/
inductive RangeRejection where
  | endFE_exceeds_blob
  | inverted_or_zero_length
  deriving Repr, DecidableEq

/-- `validateSegmentRange`; the range of a decoded log is a pair of `uint16`,
so the checks for non-integers never fire. -/
def validateSegmentRange
    (startFE endFE : Nat) : Option RangeRejection :=
  if FIELD_ELEMENTS_PER_BLOB < endFE then some .endFE_exceeds_blob
  else if endFE ≤ startFE then some .inverted_or_zero_length
  else none

end Bam
