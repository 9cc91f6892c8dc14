import Bam.Contracts.BLS12381
import Bam.Lib.Bytewise
import Bam.Sdk.Types

namespace Bam

open Bytewise

/-!
# Decompressing points of BLS12-381

The first three bits of a compressed point are flags; the rest is the x
coordinate, whose root the flags choose.  A point with the infinity flag is read
off its flags alone.
-/

namespace BLS12381

/-- `c0 + c1 * i`. -/
structure Fp2 where
  c0 : Fp
  c1 : Fp
  deriving Repr, DecidableEq

/-- `fp2Mul`. -/
def fp2Mul (a b : Fp2) : Fp2 :=
  let v0 := fpMul a.c0 b.c0
  let v1 := fpMul a.c1 b.c1
  let t0 := fpAdd a.c0 a.c1
  let t1 := fpAdd b.c0 b.c1
  { c0 := fpSub v0 v1
    c1 := fpSub (fpSub (fpMul t0 t1) v0) v1 }

/-- `fp2Square`. -/
def fp2Square (a : Fp2) : Fp2 :=
  let t0 := fpAdd a.c0 a.c1
  let t1 := fpSub a.c0 a.c1
  let r1 := fpMul a.c0 a.c1
  { c0 := fpMul t0 t1
    c1 := fpAdd r1 r1 }

end BLS12381

namespace BLSDecompression

open BLS12381

def G1_COMPRESSED_SIZE : Nat := 48

def G1_UNCOMPRESSED_SIZE : Nat := 128

def G2_COMPRESSED_SIZE : Nat := 96

def G2_UNCOMPRESSED_SIZE : Nat := 256

def B_G1 : BitVec 256 := 4

def FLAG_COMPRESSED : UInt8 := 0x80

def FLAG_INFINITY : UInt8 := 0x40

def FLAG_SIGN : UInt8 := 0x20

inductive Error where
  | InvalidPointLength (expected actual : Nat)
  | PointNotOnCurve
  | InvalidPointFlags
  | CoordinateNotInField
  | arithmetic (error : BLS12381.Error)
  deriving Repr, DecidableEq

/-- `_computeG1RHS`. -/
def computeG1RHS (x : Fp) : Fp :=
  fpAdd (fpMul (fpSquare x) x) ⟨B_G1, 0⟩

/-- `_computeG2RHS`. -/
def computeG2RHS (x : Fp2) : Fp2 :=
  let x3 := fp2Mul (fp2Square x) x
  { c0 := fpAdd x3.c0 ⟨4, 0⟩
    c1 := fpAdd x3.c1 ⟨4, 0⟩ }

/-- The shift of both words that `_fpDivBy2` ends with. -/
def shiftRight (a : Fp) : Fp where
  low := (a.low >>> 1) ||| (a.high <<< 255)
  high := a.high >>> 1

/-- `_fpDivBy2`. -/
def fpDivBy2 (a : Fp) : Fp :=
  if a.low &&& 1 = 0 then shiftRight a
  else shiftRight (fpAdd a primeWords)

/-- The result of `fpSqrt`, if it is a root. -/
def root? (a : Fp) : Option Fp :=
  match fpSqrt a with
  | (r, true) => some r
  | (_, false) => none

/-- `_fp2Sqrt`; `none` where no root exists. -/
def fp2Sqrt (a : Fp2) : Except Error (Option Fp2) :=
  if a.c1.low = 0 ∧ a.c1.high = 0 then
    match root? a.c0 with
    | some r0 => .ok (some ⟨r0, ⟨0, 0⟩⟩)
    | none =>
        match root? (fpNeg a.c0) with
        | some r1 => .ok (some ⟨⟨0, 0⟩, r1⟩)
        | none => .ok none
  else
    let norm := fpAdd (fpSquare a.c0) (fpSquare a.c1)
    match root? norm with
    | none => .ok none
    | some alpha =>
        match (root? (fpDivBy2 (fpAdd a.c0 alpha))).orElse fun _ =>
            root? (fpDivBy2 (fpSub a.c0 alpha)) with
        | none => .ok none
        | some x0 =>
            match fpInv (fpAdd x0 x0) with
            | .error error => .error (.arithmetic error)
            | .ok twoX0Inv =>
                let x : Fp2 := ⟨x0, fpMul a.c1 twoX0Inv⟩
                if fp2Square x = a then .ok (some x) else .ok none

/-- `_isInField`. -/
def isInField (a : Fp) : Bool :=
  if P_HIGH < a.high then false
  else if a.high < P_HIGH then true
  else a.low < P_LOW

/-- `_isLexicographicallyLarger`. -/
def isLexicographicallyLarger (y : Fp) : Bool :=
  let twoY := fpAdd y y
  if P_HIGH < twoY.high then true
  else if twoY.high < P_HIGH then false
  else P_LOW ≤ twoY.low

/-- `_fp2IsLexicographicallyLarger`. -/
def fp2IsLexicographicallyLarger (y : Fp2) : Bool :=
  if y.c1.low ≠ 0 ∨ y.c1.high ≠ 0 then isLexicographicallyLarger y.c1
  else isLexicographicallyLarger y.c0

/-- `_bytesToFp`, of 48 bytes. -/
def bytesToFp (bytes : Bytes) : Fp where
  low := BitVec.ofNat 256 (ofBE (bytes.drop 16))
  high := BitVec.ofNat 256 (ofBE (bytes.take 16))

/-- `_bytes64ToFp`. -/
def bytes64ToFp
    (bytes : Bytes)
    (offset : Nat) : Fp :=
  bytesToFp ((bytes.drop (offset + 16)).take 48)

/-- `_fpToBytes64`. -/
def fpToBytes64 (a : Fp) : Bytes :=
  List.replicate 16 0 ++ toBE 16 a.high.toNat ++ toBE 32 a.low.toNat

/-- The x coordinate after the flags. -/
def unflagged (bytes : Bytes) : Bytes :=
  (bytes.headD 0 &&& 0x1f) :: bytes.tail

/-- `decompressG1`. -/
def decompressG1 (compressed : Bytes) : Except Error Bytes :=
  if compressed.length ≠ G1_COMPRESSED_SIZE then
    .error (.InvalidPointLength G1_COMPRESSED_SIZE compressed.length)
  else
    let flags := compressed.headD 0
    if flags &&& FLAG_COMPRESSED = 0 then .error .InvalidPointFlags
    else if flags &&& FLAG_INFINITY ≠ 0 then
      .ok (List.replicate G1_UNCOMPRESSED_SIZE 0)
    else
      let ySignBit : Bool := flags &&& FLAG_SIGN ≠ 0
      let x := bytesToFp (unflagged compressed)
      if !isInField x then .error .CoordinateNotInField
      else
        match root? (computeG1RHS x) with
        | none => .error .PointNotOnCurve
        | some root =>
            let y :=
              if ySignBit ≠ isLexicographicallyLarger root then fpNeg root
              else root
            .ok (fpToBytes64 x ++ fpToBytes64 y)

/-- `decompressG2`. -/
def decompressG2 (compressed : Bytes) : Except Error Bytes :=
  if compressed.length ≠ G2_COMPRESSED_SIZE then
    .error (.InvalidPointLength G2_COMPRESSED_SIZE compressed.length)
  else
    let flags := compressed.headD 0
    if flags &&& FLAG_COMPRESSED = 0 then .error .InvalidPointFlags
    else if flags &&& FLAG_INFINITY ≠ 0 then
      .ok (List.replicate G2_UNCOMPRESSED_SIZE 0)
    else
      let ySignBit : Bool := flags &&& FLAG_SIGN ≠ 0
      let x : Fp2 := {
        c0 := bytesToFp (compressed.drop 48)
        c1 := bytesToFp (unflagged (compressed.take 48)) }
      if !isInField x.c0 || !isInField x.c1 then
        .error .CoordinateNotInField
      else
        match fp2Sqrt (computeG2RHS x) with
        | .error error => .error error
        | .ok none => .error .PointNotOnCurve
        | .ok (some root) =>
            let y : Fp2 :=
              if ySignBit ≠ fp2IsLexicographicallyLarger root then
                ⟨fpNeg root.c0, fpNeg root.c1⟩
              else root
            .ok (fpToBytes64 x.c0 ++ fpToBytes64 x.c1 ++
              fpToBytes64 y.c0 ++ fpToBytes64 y.c1)

/-- The compressed form of the point at infinity, in either group. -/
def infinity (size : Nat) : Bytes :=
  (FLAG_COMPRESSED ||| FLAG_INFINITY) :: List.replicate (size - 1) 0

end BLSDecompression

end Bam
