import Bam.Lib.Bytewise
import Bam.Sdk.Types

namespace Bam

open Bytewise

/-!
# Words, calldata and code

What the contracts take from the machine: arithmetic that reverts when it leaves
256 bits, and reads of calldata and code, which are zero past their end.
-/

/-- `first + second`; `none` is the revert of checked arithmetic. -/
def checkedAdd (first second : Nat) : Option Nat :=
  if first + second < 2 ^ 256 then some (first + second) else none

/-- `first * second`, checked. -/
def checkedMul (first second : Nat) : Option Nat :=
  if first * second < 2 ^ 256 then some (first * second) else none

/-- `first - second`, checked. -/
def checkedSub (first second : Nat) : Option Nat :=
  if second ≤ first then some (first - second) else none

/-- `size` bytes from an offset on. -/
def copyBytes
    (source : Bytes)
    (offset size : Nat) : Bytes :=
  padRight 0 size ((source.drop offset).take size)

/-- `shr(256 - 8 * size, calldataload(offset))`. -/
def loadBytes
    (calldata : Bytes)
    (offset size : Nat) : Nat :=
  ofBE (copyBytes calldata offset size)

theorem checkedAdd_of_lt
    {first second : Nat}
    (fits : first + second < 2 ^ 256) :
    checkedAdd first second = some (first + second) :=
  if_pos fits

theorem checkedAdd_eq
    {first second sum : Nat}
    (added : checkedAdd first second = some sum) :
    sum = first + second := by
  unfold checkedAdd at added
  split at added
  · exact (Option.some.inj added).symm
  · cases added

theorem checkedMul_of_lt
    {first second : Nat}
    (fits : first * second < 2 ^ 256) :
    checkedMul first second = some (first * second) :=
  if_pos fits

theorem checkedSub_of_le
    {first second : Nat}
    (fits : second ≤ first) :
    checkedSub first second = some (first - second) :=
  if_pos fits

/-- A copy inside its source is a slice of it. -/
theorem copyBytes_of_le
    {source : Bytes}
    {offset size : Nat}
    (inside : offset + size ≤ source.length) :
    copyBytes source offset size = (source.drop offset).take size :=
  padRight_slice_of_le 0 inside

/-- A copy, byte by byte. -/
theorem copyBytes_eq_map
    (source : Bytes)
    (offset size : Nat) :
    copyBytes source offset size =
      (List.range size).map fun index =>
        source.getD (offset + index) 0 :=
  padRight_slice_eq_map 0 source offset size

@[simp] theorem length_copyBytes
    (source : Bytes)
    (offset size : Nat) :
    (copyBytes source offset size).length = size := by
  rw [copyBytes, length_padRight, List.length_take]
  omega

end Bam
