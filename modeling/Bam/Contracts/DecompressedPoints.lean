import Bam.Contracts.BLSVerifier

namespace Bam

open Bytewise

/-!
# Decompressed points

A point that is not marked as infinity is not decompressed to zero bytes: its x
coordinate is not zero, since the arithmetic finds no root of 4.
-/

namespace BLS12381

/-- A product, as a number. -/
def mulValue (first second : Nat) : Nat :=
  reduced (first * second % (2 ^ 256 * (2 ^ 256 * 2 ^ 256)))

/-- `expRound`, on numbers. -/
def roundValues
    (e : BitVec 256)
    (square : Nat → Bool)
    (state : Nat × Nat)
    (i : Nat) : Nat × Nat :=
  (if (e >>> i) &&& 1 = 1 then mulValue state.1 state.2 else state.1,
    if square i then mulValue state.2 state.2 else state.2)

/-- `fpExp`, on numbers. -/
def expValue (a : Nat) (e : Fp) : Nat :=
  let low :=
    (List.range 256).foldl (roundValues e.low fun _ => true) (1, a)
  let high :=
    (List.range 125).foldl (roundValues e.high fun i => i < 124) low
  high.1

def values (state : Fp × Fp) : Nat × Nat :=
  (state.1.value, state.2.value)

theorem roundValues_values
    (e : BitVec 256)
    (square : Nat → Bool)
    (state : Fp × Fp)
    (i : Nat) :
    roundValues e square (values state) i =
      values (expRound e square state i) := by
  unfold roundValues expRound values fpSquare
  dsimp only
  apply Prod.ext
  · dsimp only
    split
    · exact (value_fpMul _ _).symm
    · rfl
  · dsimp only
    split
    · exact (value_fpMul _ _).symm
    · rfl

theorem value_fpExp (a e : Fp) :
    (fpExp a e).value = expValue a.value e := by
  unfold fpExp expValue
  dsimp only
  have start : ((1 : Nat), a.value) = values (⟨1, 0⟩, a) := by
    rw [values, value_one]
  rw [start, List.foldl_hom values (roundValues_values _ _),
    List.foldl_hom values (roundValues_values _ _)]
  rfl

end BLS12381

namespace BLSDecompression

open BLS12381

/-- No root of 4 is found. -/
theorem root?_four : root? ⟨4, 0⟩ = none := by
  have wrong :
      mulValue
          (expValue 4 ⟨P_PLUS_1_DIV_4_LOW, P_PLUS_1_DIV_4_HIGH⟩)
          (expValue 4 ⟨P_PLUS_1_DIV_4_LOW, P_PLUS_1_DIV_4_HIGH⟩) ≠ 4 := by
    decide +kernel
  have isFour : (⟨4, 0⟩ : Fp).value = 4 := by
    decide +kernel
  have notRoot :
      fpSquare
          (fpExp ⟨4, 0⟩ ⟨P_PLUS_1_DIV_4_LOW, P_PLUS_1_DIV_4_HIGH⟩) ≠
        ⟨4, 0⟩ := by
    intro isRoot
    have sameValue := congrArg DoubleWord.value isRoot
    rw [fpSquare, value_fpMul, value_fpExp, isFour] at sameValue
    exact wrong sameValue
  unfold root? fpSqrt
  dsimp only
  rw [decide_eq_false notRoot]

theorem computeG1RHS_zero : computeG1RHS ⟨0, 0⟩ = ⟨4, 0⟩ := by
  have isZero : fpMul (fpSquare ⟨0, 0⟩) ⟨0, 0⟩ = ⟨0, 0⟩ := by
    rw [← DoubleWord.value_inj, value_fpMul, value_zero, Nat.mul_zero]
    decide +kernel
  unfold computeG1RHS
  rw [isZero]
  decide +kernel

@[simp] theorem length_fpToBytes64 (a : Fp) :
    (fpToBytes64 a).length = 64 := by
  simp [fpToBytes64]

/-- Writing a coordinate that was read gives back its bytes. -/
theorem fpToBytes64_bytesToFp
    {bytes : Bytes}
    (wide : bytes.length = 48) :
    fpToBytes64 (bytesToFp bytes) = List.replicate 16 0 ++ bytes := by
  have highWide : (bytes.take 16).length = 16 := by
    rw [List.length_take, wide]
    rfl
  have lowWide : (bytes.drop 16).length = 32 := by
    rw [List.length_drop, wide]
  have highSmall := ofBE_lt (bytes.take 16)
  have lowSmall := ofBE_lt (bytes.drop 16)
  rw [highWide] at highSmall
  rw [lowWide] at lowSmall
  have lowFits : ofBE (bytes.drop 16) < 2 ^ 256 := lowSmall
  have high := toBE_ofBE (bytes.take 16)
  have low := toBE_ofBE (bytes.drop 16)
  rw [highWide] at high
  rw [lowWide] at low
  unfold fpToBytes64 bytesToFp
  dsimp only
  rw [BitVec.toNat_ofNat, BitVec.toNat_ofNat,
    Nat.mod_eq_of_lt (Nat.lt_trans highSmall (by decide)),
    Nat.mod_eq_of_lt lowFits, high, low, List.append_assoc,
    List.take_append_drop]

/-- The infinity flag of a compressed point. -/
def MarkedInfinite (compressed : Bytes) : Prop :=
  compressed.headD 0 &&& FLAG_INFINITY ≠ 0

instance (compressed : Bytes) : Decidable (MarkedInfinite compressed) :=
  inferInstanceAs (Decidable (_ ≠ _))

/-- What `decompressG1` returns. -/
theorem decompressG1_ok
    {compressed point : Bytes}
    (decompressed : decompressG1 compressed = .ok point) :
    compressed.length = G1_COMPRESSED_SIZE ∧
      (MarkedInfinite compressed ∧
          point = List.replicate G1_UNCOMPRESSED_SIZE 0 ∨
        ¬MarkedInfinite compressed ∧
          ∃ root y,
            root? (computeG1RHS (bytesToFp (unflagged compressed))) =
                some root ∧
              point =
                fpToBytes64 (bytesToFp (unflagged compressed)) ++
                  fpToBytes64 y) := by
  unfold decompressG1 at decompressed
  split at decompressed
  · cases decompressed
  rename_i wide
  refine ⟨not_not.mp wide, ?_⟩
  extract_lets flags ySignBit x at decompressed
  split at decompressed
  · cases decompressed
  split at decompressed
  · rename_i infinite
    exact .inl ⟨infinite, (Except.ok.inj decompressed).symm⟩
  · rename_i finite
    split at decompressed
    · cases decompressed
    split at decompressed
    · cases decompressed
    · rename_i root isRoot
      exact .inr ⟨finite, root, _, isRoot,
        (Except.ok.inj decompressed).symm⟩

theorem length_decompressG1
    {compressed point : Bytes}
    (decompressed : decompressG1 compressed = .ok point) :
    point.length = G1_UNCOMPRESSED_SIZE := by
  obtain ⟨-, ⟨-, rfl⟩ | ⟨-, root, y, -, rfl⟩⟩ :=
    decompressG1_ok decompressed
  · exact List.length_replicate
  · rw [List.length_append, length_fpToBytes64, length_fpToBytes64]
    rfl

theorem length_decompressG2
    {compressed point : Bytes}
    (decompressed : decompressG2 compressed = .ok point) :
    point.length = G2_UNCOMPRESSED_SIZE := by
  unfold decompressG2 at decompressed
  split at decompressed
  · cases decompressed
  extract_lets flags ySignBit x at decompressed
  split at decompressed
  · cases decompressed
  split at decompressed
  · rw [← Except.ok.inj decompressed, List.length_replicate]
  split at decompressed
  · cases decompressed
  split at decompressed
  · cases decompressed
  · cases decompressed
  · rw [← Except.ok.inj decompressed]
    simp only [List.length_append, length_fpToBytes64]
    rfl

/-- A point that is not marked as infinity has an x coordinate. -/
theorem decompressG1_finite
    {compressed point : Bytes}
    (decompressed : decompressG1 compressed = .ok point)
    (finite : ¬MarkedInfinite compressed) :
    point.take 64 ≠ List.replicate 64 0 := by
  obtain ⟨wide, ⟨infinite, -⟩ | ⟨-, root, y, isRoot, rfl⟩⟩ :=
    decompressG1_ok decompressed
  · exact absurd infinite finite
  have sized : (unflagged compressed).length = 48 := by
    rw [unflagged, List.length_cons, List.length_tail, wide]
    rfl
  intro isZero
  rw [List.take_left' (length_fpToBytes64 _),
    fpToBytes64_bytesToFp sized] at isZero
  have padded :
      (List.replicate 64 0 : Bytes) =
        List.replicate 16 0 ++ List.replicate 48 0 :=
    rfl
  have noBytes : unflagged compressed = List.replicate 48 0 :=
    List.append_cancel_left (isZero.trans padded)
  have isOrigin : bytesToFp (List.replicate 48 0) = ⟨0, 0⟩ := by
    decide +kernel
  rw [noBytes, isOrigin, computeG1RHS_zero, root?_four] at isRoot
  cases isRoot

end BLSDecompression

end Bam
