import Bam.Sdk.Batch

namespace Bam

open Bytewise

/-!
# Message hashes and message ids

`keccak256` is a parameter everywhere: nothing here depends on which hash
function it is.
-/

/-- `hexToBytes` of a 32-byte word. -/
def bytes32Bytes (word : Bytes32) : Bytes :=
  toBE 32 word.toNat

theorem bytes32Bytes_inj
    {first second : Bytes32}
    (same : bytes32Bytes first = bytes32Bytes second) :
    first = second := by
  have sameNumber := congrArg ofBE same
  unfold bytes32Bytes at sameNumber
  rw [ofBE_toBE_of_lt first.isLt, ofBE_toBE_of_lt second.isLt]
    at sameNumber
  exact BitVec.eq_of_toNat_eq sameNumber

/-- `computeMessageHash`; `none` where the source throws. -/
def computeMessageHash
    (keccak256 : Bytes → Bytes32)
    (sender : Address)
    (contentTag : Bytes32)
    (nonce : Nat)
    (contents : Bytes) : Option Bytes32 :=
  if MAX_NONCE < nonce then none
  else
    some (keccak256
      (addressBytes sender ++ bytes32Bytes contentTag ++
        toBE 8 nonce ++ contents))

/-- `computeMessageId`; `none` where the source throws. -/
def computeMessageId
    (keccak256 : Bytes → Bytes32)
    (sender : Address)
    (contentTag : Bytes32)
    (nonce : Nat)
    (batchContentHash : Bytes32) : Option Bytes32 :=
  if MAX_NONCE < nonce then none
  else
    some (keccak256
      (addressBytes sender ++ bytes32Bytes contentTag ++
        toBE 8 nonce ++ bytes32Bytes batchContentHash))

theorem nonce_of_computeMessageHash
    {keccak256 : Bytes → Bytes32}
    {sender : Address}
    {contentTag messageHash : Bytes32}
    {nonce : Nat}
    {contents : Bytes}
    (computed :
      computeMessageHash keccak256 sender contentTag nonce contents =
        some messageHash) :
    nonce ≤ MAX_NONCE := by
  unfold computeMessageHash at computed
  split at computed
  · cases computed
  · rename_i inRange
    exact Nat.le_of_not_lt inRange

end Bam
