import Bam.Lib.Zstd
import Bam.Sdk.Batch

namespace Bam

/-!
# The decompressed size of a frame

`getDecompressedSize` puts the bytes of the content size field together with
the bit operators of JavaScript, which work on signed numbers of 32 bits.
-/

/-- The loop `size |= data[fcsOffset + i] << (i * 8)`. -/
def orBytes : Nat → BitVec 32 → Bytes → BitVec 32
  | _, size, [] => size
  | i, size, byte :: rest =>
      orBytes (i + 1)
        (size ||| (BitVec.ofNat 32 byte.toNat <<< (i * 8 % 32))) rest

/-- `getDecompressedSize`; -1 if it is unknown. -/
def getDecompressedSize (data : Bytes) : Int :=
  if isCompressed data = false ∨ data.length < 5 then -1
  else
    let descriptor := (data.getD 4 0).toNat
    let fcsFlag := descriptor / 64 % 4
    if fcsFlag = 0 then -1
    else
      let fcsSize := [0, 1, 2, 4, 8].getD fcsFlag 0
      let singleSegment := descriptor / 32 % 2
      let windowDescriptorSize := if singleSegment ≠ 0 then 0 else 1
      let dictIdSize := [0, 1, 2, 4].getD (descriptor % 4) 0
      let fcsOffset := 5 + windowDescriptorSize + dictIdSize
      if data.length < fcsOffset + fcsSize then -1
      else
        let size :=
          (orBytes 0 0 ((data.drop fcsOffset).take fcsSize)).toInt
        if fcsFlag = 2 then size + 256 else size

/-- Up to four bytes are put together without loss. -/
theorem toNat_orBytes
    {index : Nat}
    {size : BitVec 32}
    {bytes : Bytes}
    (fits : index + bytes.length ≤ 4)
    (below : size.toNat < 256 ^ index) :
    (orBytes index size bytes).toNat =
      size.toNat + 256 ^ index * Zstd.littleEndian bytes := by
  induction bytes generalizing index size with
  | nil => rfl
  | cons byte rest ih =>
      rw [List.length_cons] at fits
      have isByte : byte.toNat < 256 := byte.toNat_lt
      have power : (256 : Nat) ^ index = 2 ^ (8 * index) := by
        rw [Nat.pow_mul]
      have room : 256 ^ (index + 1) ≤ 256 ^ 4 :=
        Nat.pow_le_pow_right (by decide) (by omega)
      have shifted :
          byte.toNat * 256 ^ index + 256 ^ index ≤ 256 ^ (index + 1) := by
        rw [pow_succ, ← Nat.succ_mul, Nat.mul_comm]
        exact Nat.mul_le_mul_left _ isByte
      have added :
          (size |||
              (BitVec.ofNat 32 byte.toNat <<< (index * 8 % 32))).toNat =
            size.toNat + 256 ^ index * byte.toNat := by
        rw [BitVec.toNat_or, BitVec.toNat_shiftLeft, BitVec.toNat_ofNat,
          Nat.mod_eq_of_lt (by omega : index * 8 < 32),
          Nat.mod_eq_of_lt (by omega : byte.toNat < 2 ^ 32),
          Nat.shiftLeft_eq, Nat.mul_comm index 8, ← power,
          Nat.mod_eq_of_lt (by omega), Nat.or_comm, Nat.mul_comm, power,
          ← Nat.two_pow_add_eq_or_of_lt (power ▸ below), Nat.add_comm]
      rw [orBytes, ih (by omega) (by rw [added, Nat.mul_comm]; omega),
        added, Zstd.littleEndian_cons]
      ring

end Bam
