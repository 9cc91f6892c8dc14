import Bam.Contracts.BLSDecompression
import Bam.Sdk.Message

namespace Bam

open Bytewise

/-!
# The BLS verifier

`verify` decompresses a key and a signature, hashes the message to a point and
leaves the pairing equation to the precompile.  The precompiles and the hash
function are parameters: `none` is a call that fails, and a precompile that does
not exist answers with no bytes.
-/

namespace BLSVerifier

open BLSDecompression

def BLS12_G2ADD : Address := 0x0e

def BLS12_MAP_FP2_TO_G2 : Address := 0x13

def G2_POINT_SIZE : Nat := 256

/-- `"BLS_SIG_BLS12381G2_XMD:SHA-256_SSWU_RO_SocialBlobs"`. -/
def DST : Bytes :=
  [0x42, 0x4c, 0x53, 0x5f, 0x53, 0x49, 0x47, 0x5f, 0x42, 0x4c,
    0x53, 0x31, 0x32, 0x33, 0x38, 0x31, 0x47, 0x32, 0x5f, 0x58,
    0x4d, 0x44, 0x3a, 0x53, 0x48, 0x41, 0x2d, 0x32, 0x35, 0x36,
    0x5f, 0x53, 0x53, 0x57, 0x55, 0x5f, 0x52, 0x4f, 0x5f, 0x53,
    0x6f, 0x63, 0x69, 0x61, 0x6c, 0x42, 0x6c, 0x6f, 0x62, 0x73]

/-- What the verifier calls. -/
structure Machine where
  pairing : Bytes → Option Bytes
  mapFp2ToG2 : Bytes → Option Bytes
  g2Add : Bytes → Option Bytes
  sha256 : Bytes → Bytes32

inductive Error where
  | BLSPrecompileFailed (precompile : Address)
  | InvalidSignatureFormat (length : Nat)
  | InvalidPublicKeyFormat (length : Nat)
  | PrecompilesNotAvailable
  | decompression (error : BLSDecompression.Error)
  deriving Repr, DecidableEq

section

variable (machine : Machine)

/-- `_precompilesAvailable`. -/
def precompilesAvailable : Bool :=
  match machine.pairing [] with
  | none => false
  | some result => result.length = 32

/-- `abi.encodePacked(DST, uint8(DST.length))`. -/
def dstPrime : Bytes :=
  DST ++ [UInt8.ofNat DST.length]

/-- One of the later blocks of `_expandMessageXMD`. -/
def expandBlock
    (b0 previous : Bytes32)
    (j : Nat) : Bytes32 :=
  machine.sha256
    (bytes32Bytes (b0 ^^^ previous) ++ [UInt8.ofNat j] ++ dstPrime)

/-- `_expandMessageXMD`. -/
def expandMessageXMD (messageHash : Bytes32) : Bytes :=
  let b0 :=
    machine.sha256
      (List.replicate 64 0 ++ bytes32Bytes messageHash ++ toBE 2 256 ++
        [0] ++ dstPrime)
  let b1 := machine.sha256 (bytes32Bytes b0 ++ [1] ++ dstPrime)
  ((List.range' 2 7).scanl (expandBlock machine b0) b1).flatMap
    bytes32Bytes

/-- A precompile call that has to return a point of the second group. -/
def pointOf
    (precompile : Address)
    (answer : Option Bytes) : Except Error Bytes :=
  match answer with
  | none => .error (.BLSPrecompileFailed precompile)
  | some point =>
      if point.length ≠ G2_POINT_SIZE then
        .error (.BLSPrecompileFailed precompile)
      else .ok point

/-- `_hashToG2`. -/
def hashToG2 (messageHash : Bytes32) : Except Error Bytes := do
  let expanded := expandMessageXMD machine messageHash
  let q0 ←
    pointOf BLS12_MAP_FP2_TO_G2 (machine.mapFp2ToG2 (expanded.take 128))
  let q1 ←
    pointOf BLS12_MAP_FP2_TO_G2
      (machine.mapFp2ToG2 ((expanded.drop 128).take 128))
  pointOf BLS12_G2ADD (machine.g2Add (q0 ++ q1))

/-- `_getG1Generator`. -/
def getG1Generator : Bytes :=
  toBE 64 0x17f1d3a73197d7942695638c4fa9ac0fc3688c4f9774b905a14e3a3f171bac586c55e83ff97a1aeffb3af00adb22c6bb ++
    toBE 64 0x8b3f481e3aaa0f1a09e30ed741d8ae4fcf5e095d5d00af600db18cb2c04b3edd03cc744a2888ae40caa232946c5e7e1

/-- `_negateG1`. -/
def negateG1 (point : Bytes) : Bytes :=
  point.take 64 ++ fpToBytes64 (BLS12381.fpNeg (bytes64ToFp point 64))

/-- The result of the pairing check. -/
def checkPairing (answer : Option Bytes) : Bool :=
  match answer with
  | none => false
  | some result =>
      if result.length ≠ 32 then false else ofBE result = 1

/-- A point, or the revert of its decompression. -/
def decompressed
    (point : Except BLSDecompression.Error Bytes) : Except Error Bytes :=
  match point with
  | .error error => .error (.decompression error)
  | .ok uncompressed => .ok uncompressed

/-- `verify`. -/
def verify
    (publicKey : Bytes)
    (messageHash : Bytes32)
    (signature : Bytes) : Except Error Bool :=
  if publicKey.length ≠ G1_COMPRESSED_SIZE then
    .error (.InvalidPublicKeyFormat publicKey.length)
  else if signature.length ≠ G2_COMPRESSED_SIZE then
    .error (.InvalidSignatureFormat signature.length)
  else if !precompilesAvailable machine then
    .error .PrecompilesNotAvailable
  else do
    let pkUncompressed ← decompressed (decompressG1 publicKey)
    let sigUncompressed ← decompressed (decompressG2 signature)
    let messagePoint ← hashToG2 machine messageHash
    let negPk := negateG1 pkUncompressed
    .ok (checkPairing (machine.pairing
      (getG1Generator ++ sigUncompressed ++ negPk ++ messagePoint)))

/-- `verifyBLSExternal`, as its caller meets it: `none` where the call reverts
or runs out of gas. -/
def verifyBLSExternal
    (outOfGas : Bool)
    (publicKey : Bytes)
    (messageHash : Bytes32)
    (signature : Bytes) : Option Bool :=
  if outOfGas then none
  else (verify machine publicKey messageHash signature).toOption

variable {machine}

/-- A check answers if it has its gas and does not revert. -/
theorem verifyBLSExternal_eq_some_iff
    {outOfGas : Bool}
    {publicKey signature : Bytes}
    {messageHash : Bytes32}
    {result : Bool} :
    verifyBLSExternal machine outOfGas publicKey messageHash signature =
        some result ↔
      outOfGas = false ∧
        verify machine publicKey messageHash signature = .ok result := by
  unfold verifyBLSExternal
  cases outOfGas with
  | true =>
      exact ⟨fun contradictory => (by cases contradictory),
        fun ⟨contradictory, _⟩ => (by cases contradictory)⟩
  | false =>
      cases verify machine publicKey messageHash signature with
      | error error =>
          exact ⟨fun contradictory => (by cases contradictory),
            fun ⟨_, contradictory⟩ => (by cases contradictory)⟩
      | ok other =>
          constructor
          · intro answered
            cases answered
            exact ⟨rfl, rfl⟩
          · rintro ⟨-, verified⟩
            cases verified
            rfl

end

end BLSVerifier

end Bam
