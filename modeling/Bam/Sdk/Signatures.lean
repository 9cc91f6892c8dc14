import Bam.Sdk.Message

namespace Bam

/-!
# ECDSA signatures over typed data

The curve operations and the typed-data hash come from libraries and are
parameters; the checks around them are the SDK's own.
-/

def EIP712_DOMAIN_NAME : String := "BAM"

def EIP712_DOMAIN_VERSION : String := "1"

/-- The typed data a signer signs. -/
structure BAMTypedData where
  name : String
  version : String
  chainId : Nat
  sender : Address
  contentTag : Bytes32
  nonce : Nat
  contents : Bytes
  deriving Repr, DecidableEq

/-- The cryptographic libraries behind the SDK. -/
structure CryptoLibraries where
  keccak256 : Bytes → Bytes32
  hashTypedData : BAMTypedData → Bytes32
  /-- `Signature.hasHighS` of a compact signature. -/
  hasHighS : Bytes → Bool
  /-- The uncompressed public key; `none` where the library throws. -/
  recoverPublicKey : Bytes → Nat → Bytes32 → Option Bytes

/-- `computeECDSADigest`. -/
def computeECDSADigest
    (crypto : CryptoLibraries)
    (message : BAMMessage)
    (contentTag : Bytes32)
    (chainId : Nat) : Bytes32 :=
  crypto.hashTypedData {
    name := EIP712_DOMAIN_NAME
    version := EIP712_DOMAIN_VERSION
    chainId := chainId
    sender := message.sender
    contentTag := contentTag
    nonce := message.nonce
    contents := message.contents }

/-- `verifyECDSA`. -/
def verifyECDSA
    (crypto : CryptoLibraries)
    (message : BAMMessage)
    (contentTag : Bytes32)
    (signature : Bytes)
    (expectedSender : Address)
    (chainId : Nat) : Bool :=
  if signature.length ≠ 65 then false
  else
    let digest := computeECDSADigest crypto message contentTag chainId
    let compact := signature.take 64
    let v := (signature.getD 64 0).toNat
    let recovery := if 27 ≤ v then v - 27 else v
    if recovery ≠ 0 ∧ recovery ≠ 1 then false
    else if crypto.hasHighS compact then false
    else
      match crypto.recoverPublicKey compact recovery digest with
      | none => false
      | some uncompressed =>
          let hash := bytes32Bytes (crypto.keccak256 (uncompressed.drop 1))
          addressOfBytes (hash.drop 12) = expectedSender

/-- `publicKeyToAddress`. -/
def publicKeyToAddress
    (crypto : CryptoLibraries)
    (publicKey : Bytes) : Address :=
  let key := if publicKey.length = 65 then publicKey.drop 1 else publicKey
  addressOfBytes ((bytes32Bytes (crypto.keccak256 key)).drop 12)

/-- `tryRecoverLikeRegistry`. -/
def tryRecoverLikeRegistry
    (crypto : CryptoLibraries)
    (hash : Bytes32)
    (signature : Bytes) : Option Address :=
  if signature.length ≠ 65 then none
  else
    let v := (signature.getD 64 0).toNat
    if v ≠ 27 ∧ v ≠ 28 then none
    else
      let compact := signature.take 64
      if crypto.hasHighS compact then none
      else
        match crypto.recoverPublicKey compact (v - 27) hash with
        | none => none
        | some uncompressed =>
            let address := publicKeyToAddress crypto uncompressed
            if address = 0 then none else some address

/-- `verifyEcdsaLocal`. -/
def verifyEcdsaLocal
    (crypto : CryptoLibraries)
    (owner : Address)
    (hash : Bytes32)
    (signature : Bytes)
    (delegate : Option Address) : Bool :=
  let expected := delegate.getD owner
  if expected = 0 then false
  else
    match tryRecoverLikeRegistry crypto hash signature with
    | none => false
    | some recovered => recovered = expected

end Bam
