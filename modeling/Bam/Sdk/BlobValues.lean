import Bam.Lib.G1Points
import Bam.Sdk.Kzg

namespace Bam

open Bytewise

/-!
# A blob as the values of a polynomial

The field elements of a blob are the values of its polynomial at the roots of
unity.  Where the secret of a setup is known, as it is of a testing setup, the
value there tells the commitment.
-/

abbrev ScalarField := ZMod BLS_MODULUS

/-- A primitive root of unity of order `FIELD_ELEMENTS_PER_BLOB`. -/
def rootOfUnity : ScalarField :=
  7 ^ ((BLS_MODULUS - 1) / FIELD_ELEMENTS_PER_BLOB)

/-- The twelve bits of an index, reversed. -/
def bitReverse (index : Nat) : Nat :=
  (BitVec.ofNat 12 index).reverse.toNat

/-- The number at an index of a blob. -/
def blobValue (blob : Bytes) (index : Nat) : Nat :=
  ofBE (block BYTES_PER_FIELD_ELEMENT blob index)

theorem blobValue_lt
    (blob : Bytes)
    (index : Nat) :
    blobValue blob index < 2 ^ 256 := by
  have fits := ofBE_lt (block BYTES_PER_FIELD_ELEMENT blob index)
  have width :=
    length_block_le BYTES_PER_FIELD_ELEMENT blob index
  calc
    blobValue blob index <
        256 ^ (block BYTES_PER_FIELD_ELEMENT blob index).length := fits
    _ ≤ 256 ^ BYTES_PER_FIELD_ELEMENT :=
      Nat.pow_le_pow_right (by decide) width
    _ = 2 ^ 256 := by decide

/-- The value of the polynomial of a blob at a point that is no root, by the
barycentric formula. -/
def evaluateBlob
    (blob : Bytes)
    (point : ScalarField) : ScalarField :=
  (point ^ FIELD_ELEMENTS_PER_BLOB - 1) *
    (FIELD_ELEMENTS_PER_BLOB : ScalarField)⁻¹ *
      ((List.range FIELD_ELEMENTS_PER_BLOB).map fun index =>
        blobValue blob index * rootOfUnity ^ bitReverse index *
          (point - rootOfUnity ^ bitReverse index)⁻¹).sum

/-- The secret of the testing setup. -/
def TESTING_SECRET : ScalarField :=
  1337

/-- The commitment under the testing setup. -/
@[irreducible] def testingCommitment (blob : Bytes) : G1Point :=
  G1.compress
    (G1.multiple (evaluateBlob blob TESTING_SECRET).val G1.GENERATOR)

@[simp] theorem length_testingCommitment (blob : Bytes) :
    (testingCommitment blob).length = 48 := by
  unfold testingCommitment
  exact G1.length_compress _

end Bam
