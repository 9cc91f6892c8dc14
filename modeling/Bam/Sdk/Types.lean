import Mathlib.Data.List.Basic

namespace Bam

/-!
# Protocol values

Addresses and 32-byte words are kept as their bytes' value, not as hex text:
two spellings of one address are one value, so the lower-casing the source does
at its boundaries is the identity here.  The unsigned order of `Bytes32` is the
lexicographic order of the canonical lower-case hex strings.  A point in time is
an `Int`, in milliseconds since the epoch.
-/

/-- `Uint8Array`. -/
abbrev Bytes := List UInt8

/-- The largest length of a `Uint8Array`. -/
def MAX_ARRAY_LENGTH : Nat := 0x1fffffffffffff

/-- A 20-byte account address. -/
abbrev Address := BitVec 160

/-- A 32-byte word: a transaction hash, a content tag, a message hash. -/
abbrev Bytes32 := BitVec 256

instance lawfulBEqBytes32 : LawfulBEq Bytes32 :=
  inferInstance

/-- `MAX_NONCE`, the largest `uint64`. -/
def MAX_NONCE : Nat := 0xffffffffffffffff

/-- One message of a batch; `nonce` is a `bigint` in the source. -/
structure BAMMessage where
  sender : Address
  nonce : Nat
  contents : Bytes
  deriving Repr, DecidableEq

end Bam
