import Bam.Contracts.Evm
import Bam.Lib.Codes12
import Bam.Sdk.BpeBatch

namespace Bam

open Bytewise

/-!
# The on-chain BPE decoder

`BPEDictionary` holds the tokens in the code of a data contract; `BPEDecoder`
reads them from there.  Gas is not counted.
-/

def DICT_SIZE : Nat := 10240

/-- What the constructor of `BPEDictionary` reverts with. -/
inductive BPEDictionaryRevert where
  | InvalidDictSize (got expected : Nat)
  deriving Repr, DecidableEq

/-- The constructor of `BPEDictionary`: the code of `DICT_DATA`. -/
def deployDictionary
    (dictBytes : Bytes) : Except BPEDictionaryRevert Bytes :=
  if dictBytes.length ≠ DICT_SIZE then
    .error (.InvalidDictSize dictBytes.length DICT_SIZE)
  else .ok (0x00 :: dictBytes)

/-- The immutables of a `BPEDecoder`, with the code behind `DICT_DATA`. -/
structure BPEDecoder where
  DICT_DATA : Bytes
  SIG_UNIT_SIZE : BitVec 256
  PER_MESSAGE : Bool
  deriving Repr, DecidableEq

namespace BPEDecoder

/-- What `decode` reverts with; `Panic` is checked arithmetic. -/
inductive Revert where
  | PayloadTooSmall (length minimum : Nat)
  | OffsetsOverrun (messageCount sigStart : Nat)
  | MessageBodyTooShort (i startOff endOff : Nat)
  | MessageBodyOverrun (i endOff sigStart : Nat)
  | EncodedNotAligned (length : Nat)
  | Panic
  deriving Repr, DecidableEq

/-- `Message`. -/
structure Message where
  sender : Address
  nonce : BitVec 64
  contents : Bytes
  deriving Repr, DecidableEq

/-- `_codeOffsetLen`. -/
def codeOffsetLen (code : Nat) : Nat × Nat :=
  if code < 1024 then (code * 4, 4)
  else if code < 2048 then (4096 + (code - 1024) * 3, 3)
  else if code < 3072 then (7168 + (code - 2048) * 2, 2)
  else (9216 + (code - 3072), 1)

/-- `_loadDict`. -/
def loadDict (decoder : BPEDecoder) : Bytes :=
  copyBytes decoder.DICT_DATA 1 DICT_SIZE

/-- What one code adds to the output of `_decompress`. -/
def copyToken
    (dictBuf : Bytes)
    (code : Nat) : Bytes :=
  if code ≠ 0 then
    copyBytes dictBuf (codeOffsetLen code).1 (codeOffsetLen code).2
  else []

/-- `_decompress`: the loop over the words at `i = 0, 3, 6, …`. -/
def decompress
    (dictBuf encoded : Bytes) : Except Revert Bytes :=
  if encoded.length % 3 ≠ 0 then
    .error (.EncodedNotAligned encoded.length)
  else
    .ok ((List.range (encoded.length / 3)).flatMap fun index =>
      let word := loadBytes encoded (3 * index) 3
      copyToken dictBuf (word / 4096 % 4096) ++
        copyToken dictBuf (word % 4096))

/-- `trailerLen`. -/
def trailerLen
    (decoder : BPEDecoder)
    (n : Nat) : Option Nat :=
  if decoder.PER_MESSAGE then checkedMul decoder.SIG_UNIT_SIZE.toNat n
  else some decoder.SIG_UNIT_SIZE.toNat

/-- One round of the loop of `decode`. -/
def decodeMessage
    (dictBuf payload : Bytes)
    (n sigStart i : Nat) : Except Revert Message :=
  let startOff := loadBytes payload (2 + i * 2) 2
  let endOff :=
    if i + 1 < n then loadBytes payload (2 + (i + 1) * 2) 2 else sigStart
  if endOff < startOff + 28 then
    .error (.MessageBodyTooShort i startOff endOff)
  else if sigStart < endOff then
    .error (.MessageBodyOverrun i endOff sigStart)
  else
    let compLen := endOff - startOff - 28
    match decompress dictBuf
        (copyBytes payload (startOff + 28) compLen) with
    | .error revert => .error revert
    | .ok contents =>
        .ok {
          sender := BitVec.ofNat 160 (loadBytes payload startOff 20)
          nonce := BitVec.ofNat 64 (loadBytes payload (startOff + 20) 8)
          contents }

/-- `decode`. -/
def decode
    (decoder : BPEDecoder)
    (payload : Bytes) : Except Revert (List Message × Bytes) :=
  let plen := payload.length
  if plen = 0 then .ok ([], [])
  else if plen < 2 then .error (.PayloadTooSmall plen 2)
  else
    let n := loadBytes payload 0 2
    match decoder.trailerLen n with
    | none => .error .Panic
    | some trailerLen =>
        match checkedAdd trailerLen 2 with
        | none => .error .Panic
        | some minimum =>
            if plen < minimum then .error (.PayloadTooSmall plen minimum)
            else
              let sigStart := plen - trailerLen
              if sigStart < 2 + n * 2 then
                .error (.OffsetsOverrun n sigStart)
              else
                match (List.range n).mapM
                    (decodeMessage decoder.loadDict payload n sigStart) with
                | .error revert => .error revert
                | .ok messages =>
                    .ok (messages, copyBytes payload sigStart trailerLen)

end BPEDecoder

end Bam
