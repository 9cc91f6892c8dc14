import Bam.Sdk.Types

namespace Bam

/-!
# The core contract

`BlobAuthenticatedMessagingCore` keeps no storage: a call reverts or it emits
logs.  The `BLOBHASH` opcode is a function of the transaction.
-/

def MAX_FIELD_ELEMENTS : BitVec 16 := 4096

/-- An entry of `registerBlobBatches`. -/
structure BlobBatchCall where
  blobIndex : BitVec 256
  startFE : BitVec 16
  endFE : BitVec 16
  contentTag : Bytes32
  decoder : Address
  signatureRegistry : Address
  deriving Repr, DecidableEq

/-- What the contract reverts with. -/
inductive CoreRevert where
  | EmptyBatchArray
  | InvalidSegment (startFE endFE : BitVec 16)
  | NoBlobAtIndex (blobIndex : BitVec 256)
  deriving Repr, DecidableEq

/-- The arguments of `BlobSegmentDeclared`. -/
structure BlobSegmentDeclaredArgs where
  versionedHash : Bytes32
  declarer : Address
  startFE : BitVec 16
  endFE : BitVec 16
  contentTag : Bytes32
  deriving Repr, DecidableEq

/-- The arguments of `BlobBatchRegistered`. -/
structure BlobBatchRegisteredArgs where
  versionedHash : Bytes32
  submitter : Address
  contentTag : Bytes32
  decoder : Address
  signatureRegistry : Address
  deriving Repr, DecidableEq

/-- A log of the contract that a Reader scans for. -/
inductive CoreLog where
  | BlobSegmentDeclared (args : BlobSegmentDeclaredArgs)
  | BlobBatchRegistered (args : BlobBatchRegisteredArgs)
  deriving Repr, DecidableEq

section Call

variable (blobhash : BitVec 256 → Bytes32)
variable (sender : Address)

/-- `declareBlobSegment`. -/
def declareBlobSegment
    (blobIndex : BitVec 256)
    (startFE endFE : BitVec 16)
    (contentTag : Bytes32) :
    Except CoreRevert BlobSegmentDeclaredArgs :=
  if endFE ≤ startFE ∨ MAX_FIELD_ELEMENTS < endFE then
    .error (.InvalidSegment startFE endFE)
  else if blobhash blobIndex = 0 then .error (.NoBlobAtIndex blobIndex)
  else
    .ok {
      versionedHash := blobhash blobIndex
      declarer := sender
      startFE := startFE
      endFE := endFE
      contentTag := contentTag }

/-- The logs of one registration: the segment, then the batch. -/
def registerBlobBatch
    (call : BlobBatchCall) : Except CoreRevert (List CoreLog) :=
  match declareBlobSegment blobhash sender call.blobIndex call.startFE
      call.endFE call.contentTag with
  | .error revert => .error revert
  | .ok segment =>
      .ok [.BlobSegmentDeclared segment,
        .BlobBatchRegistered {
          versionedHash := segment.versionedHash
          submitter := sender
          contentTag := call.contentTag
          decoder := call.decoder
          signatureRegistry := call.signatureRegistry }]

/-- The loop of `registerBlobBatches`. -/
def registerCalls :
    List BlobBatchCall → Except CoreRevert (List CoreLog)
  | [] => .ok []
  | call :: rest =>
      match registerBlobBatch blobhash sender call with
      | .error revert => .error revert
      | .ok logs =>
          match registerCalls rest with
          | .error revert => .error revert
          | .ok later => .ok (logs ++ later)

/-- `registerBlobBatches`. -/
def registerBlobBatches
    (calls : List BlobBatchCall) : Except CoreRevert (List CoreLog) :=
  if calls = [] then .error .EmptyBatchArray
  else registerCalls blobhash sender calls

end Call

end Bam
