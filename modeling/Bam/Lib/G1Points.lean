import Bam.Lib.Bytewise
import Mathlib.Data.Nat.Bits
import Mathlib.Data.ZMod.Basic

namespace G1

open Bytewise

/-!
# Points of the first group of BLS12-381

Affine addition, multiples and the compressed form of a point, for commitments
under a setup whose secret is known.
-/

/-- The field the coordinates are in. -/
def MODULUS : Nat :=
  0x1a0111ea397fe69a4b1ba7b6434bacd764774b84f38512bf6730d2a0f6b0f6241eabfffeb153ffffb9feffffffffaaab

abbrev Coordinate := ZMod MODULUS

/-- A point of `y² = x³ + 4`; the point at infinity has no coordinates. -/
abbrev Point := Option (Coordinate × Coordinate)

def GENERATOR : Point :=
  some (
    0x17f1d3a73197d7942695638c4fa9ac0fc3688c4f9774b905a14e3a3f171bac586c55e83ff97a1aeffb3af00adb22c6bb,
    0x08b3f481e3aaa0f1a09e30ed741d8ae4fcf5e095d5d00af600db18cb2c04b3edd03cc744a2888ae40caa232946c5e7e1)

/-- The third point of the line through two points, mirrored. -/
def add : Point → Point → Point
  | none, second => second
  | first, none => first
  | some (x, y), some (x', y') =>
      if x = x' ∧ y + y' = 0 then none
      else
        let slope :=
          if x = x' then 3 * x ^ 2 * (2 * y)⁻¹
          else (y' - y) * (x' - x)⁻¹
        let sum := slope ^ 2 - x - x'
        some (sum, slope * (x - sum) - y)

/-- A multiple, by doubling once for each binary digit. -/
def multiple
    (times : Nat)
    (point : Point) : Point :=
  (Nat.bits times).foldr
    (fun digit sum =>
      if digit then add (add sum sum) point else add sum sum)
    none

@[simp] theorem multiple_zero (point : Point) :
    multiple 0 point = none := by
  rw [multiple, Nat.zero_bits, List.foldr_nil]

/-- 48 bytes: the abscissa below three flags, for the form, the point at
infinity and the larger root. -/
def compress : Point → List UInt8
  | none => 0xc0 :: List.replicate 47 0
  | some (x, y) =>
      toBE 48
        (x.val + 2 ^ 383 +
          if MODULUS / 2 < y.val then 2 ^ 381 else 0)

@[simp] theorem length_compress (point : Point) :
    (compress point).length = 48 := by
  cases point with
  | none =>
      rfl
  | some coordinates =>
      exact length_toBE _ _

end G1
