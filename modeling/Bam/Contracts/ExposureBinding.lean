import Bam.Contracts.ExposedSignatures
import Bam.Sdk.BatchCanonical
import Mathlib.Data.Set.Function

namespace Bam

open Bytewise

/-!
# What a signature binds of an exposed message

The signed hash covers the sender, the nonce and the contents of a message, and
not its timestamp, which is in the bytes that are recorded.  So exposures under
one signature record the same only if their timestamps agree.
-/

/-- Numbers read at one place are the same only for the same bytes. -/
theorem loadBytes_inj
    {first second : Bytes}
    {offset size : Nat}
    (inFirst : offset + size ≤ first.length)
    (inSecond : offset + size ≤ second.length)
    (same : loadBytes first offset size = loadBytes second offset size) :
    (first.drop offset).take size = (second.drop offset).take size := by
  unfold loadBytes at same
  rw [copyBytes_of_le inFirst, copyBytes_of_le inSecond] at same
  refine ofBE_inj ?_ same
  simp only [List.length_take, List.length_drop]
  omega

theorem loadBytes_lt
    (calldata : Bytes)
    (offset size : Nat) :
    loadBytes calldata offset size < 256 ^ size := by
  have small := ofBE_lt (copyBytes calldata offset size)
  rw [length_copyBytes] at small
  exact small

namespace BLSExposer

/-- The bytes of a message are its sender, its timestamp, its nonce and its
contents. -/
theorem messageBytes_eq_iff
    {first second : Claim}
    (firstLong : 26 ≤ first.messageBytes.length)
    (secondLong : 26 ≤ second.messageBytes.length) :
    first.messageBytes = second.messageBytes ↔
      first.sender = second.sender ∧
        first.msgTimestamp = second.msgTimestamp ∧
        first.nonce = second.nonce ∧
        first.contents = second.contents := by
  unfold Claim.sender Claim.msgTimestamp Claim.nonce Claim.contents
  constructor
  · intro same
    rw [same]
    exact ⟨rfl, rfl, rfl, rfl⟩
  · rw [if_pos (by omega), if_pos (by omega)]
    rintro ⟨sameSender, sameTimestamp, sameNonce, sameContents⟩
    have sameStart :
        (first.messageBytes.drop 0).take 20 =
          (second.messageBytes.drop 0).take 20 := by
      refine loadBytes_inj (by omega) (by omega) ?_
      have small (bytes : Bytes) : loadBytes bytes 0 20 < 2 ^ 160 :=
        loadBytes_lt bytes 0 20
      have sameNumber := congrArg BitVec.toNat sameSender
      rw [BitVec.toNat_ofNat, BitVec.toNat_ofNat,
        Nat.mod_eq_of_lt (small _), Nat.mod_eq_of_lt (small _)]
        at sameNumber
      exact sameNumber
    have sameMiddle :=
      loadBytes_inj (by omega) (by omega) sameTimestamp
    have sameEnd :=
      loadBytes_inj (by omega) (by omega) sameNonce
    have splits (bytes : Bytes) :
        bytes =
          (bytes.drop 0).take 20 ++ ((bytes.drop 20).take 4 ++
            ((bytes.drop 24).take 2 ++ bytes.drop 26)) := by
      have fromNonce := List.take_append_drop 2 (bytes.drop 24)
      have fromTimestamp := List.take_append_drop 4 (bytes.drop 20)
      rw [List.drop_drop] at fromNonce fromTimestamp
      rw [fromNonce, fromTimestamp, List.drop_zero,
        List.take_append_drop]
    rw [splits first.messageBytes, splits second.messageBytes, sameStart,
      sameMiddle, sameEnd, sameContents]

/-- What is signed are the sender, the tag, the nonce and the contents. -/
theorem packed_inj
    {first second : Claim}
    (same : first.packed = second.packed) :
    first.nonce = second.nonce ∧ first.contents = second.contents := by
  unfold Claim.packed at same
  obtain ⟨sameHead, sameContents⟩ :=
    List.append_inj same (by simp [bytes32Bytes])
  obtain ⟨-, sameNonce⟩ :=
    List.append_inj sameHead (by simp [bytes32Bytes])
  refine ⟨?_, sameContents⟩
  have sameNumber := congrArg ofBE sameNonce
  have small (claim : Claim) : claim.nonce < 256 ^ 8 :=
    Nat.lt_of_lt_of_le (loadBytes_lt _ 24 2) (by decide)
  rw [ofBE_toBE_of_lt (small first), ofBE_toBE_of_lt (small second)]
    at sameNumber
  exact sameNumber

variable (deployment : Deployment)

/-- The bytes an exposure hashes on the way to what is signed and recorded. -/
def Exposure.hashed (exposure : Exposure) : List Bytes :=
  [exposure.claim.packed, deployment.signedBytes exposure.claim,
    exposure.claim.messageBytes]

/-- No two of the strings that were hashed have one hash. -/
def CollisionFree (history : History) : Prop :=
  Set.InjOn deployment.keccak256
    {bytes | ∃ exposure ∈ history.exposures,
      bytes ∈ exposure.hashed deployment}

/-- A signature verifies under a key for one hash only. -/
def SignsOneHash
    (machine : BLSVerifier.Machine)
    (publicKey signature : Bytes) : Prop :=
  ∀ first second : Bytes32,
    BLSVerifier.verify machine publicKey first signature = .ok true →
    BLSVerifier.verify machine publicKey second signature = .ok true →
      first = second

/-- Exposures with the same sender and signature record the same content hash
and timestamp. -/
def Bound (history : History) : Prop :=
  deployment.records = true →
    ∀ first ∈ history.exposures, ∀ second ∈ history.exposures,
      first.claim.sender = second.claim.sender →
      first.claim.signature = second.claim.signature →
        deployment.msgContentHash first.claim =
            deployment.msgContentHash second.claim ∧
          first.claim.msgTimestamp = second.claim.msgTimestamp

/-- Both signature checks go through, and for one registered key. -/
structure CheckedTogether (first second : Exposure) : Prop where
  sameKey : first.publicKey = second.publicKey
  first : first.Checkable deployment
  second : second.Checkable deployment

/-- Messages with the same sender and signature have the same timestamp, and
their nonces and contents agree where a check of theirs reverts or the key has
changed. -/
def SameUnsigned (history : History) : Prop :=
  deployment.records = true →
    ∀ first ∈ history.exposures, ∀ second ∈ history.exposures,
      first.claim.sender = second.claim.sender →
      first.claim.signature = second.claim.signature →
        first.claim.msgTimestamp = second.claim.msgTimestamp ∧
          (CheckedTogether deployment first second ∨
            first.claim.nonce = second.claim.nonce ∧
              first.claim.contents = second.claim.contents)

variable {deployment}

/-- What a signature that is checked twice signs. -/
theorem signed_of_checkedTogether
    (documented : BLSVerifier.Documented deployment.bls)
    {history : History}
    (noted : Noted deployment history)
    (collisionFree : CollisionFree deployment history)
    {first second : Exposure}
    (isFirst : first ∈ history.exposures)
    (isSecond : second ∈ history.exposures)
    (signsOne :
      SignsOneHash deployment.bls first.publicKey first.claim.signature)
    (sameSignature : first.claim.signature = second.claim.signature)
    (checked : CheckedTogether deployment first second) :
    first.claim.nonce = second.claim.nonce ∧
      first.claim.contents = second.claim.contents := by
  obtain ⟨-, firstVerified⟩ :=
    verified_of_checkable documented noted isFirst checked.first
  obtain ⟨-, secondVerified⟩ :=
    verified_of_checkable documented noted isSecond checked.second
  unfold Exposure.Verified at firstVerified secondVerified
  rw [← checked.sameKey, ← sameSignature] at secondVerified
  have sameSigned :
      deployment.signedBytes first.claim =
        deployment.signedBytes second.claim :=
    collisionFree ⟨first, isFirst, by simp [Exposure.hashed]⟩
      ⟨second, isSecond, by simp [Exposure.hashed]⟩
      (signsOne _ _ firstVerified secondVerified)
  unfold Deployment.signedBytes at sameSigned
  have sameHash :=
    bytes32Bytes_inj (List.append_cancel_left sameSigned)
  exact packed_inj
    (collisionFree ⟨first, isFirst, by simp [Exposure.hashed]⟩
      ⟨second, isSecond, by simp [Exposure.hashed]⟩ sameHash)

/-- In every state of a run, messages exposed under one signature are recorded
alike if and only if what the signature does not cover is alike. -/
theorem exposures_bound_iff
    (deployment : Deployment)
    (documented : BLSVerifier.Documented deployment.bls)
    (record : ExposureRecord)
    {history : History}
    (reached :
      Runs.Reachable (callStep deployment) (.deployed record) history)
    (collisionFree : CollisionFree deployment history)
    (signsOne :
      ∀ exposure ∈ history.exposures,
        SignsOneHash deployment.bls exposure.publicKey
          exposure.claim.signature) :
    Bound deployment history ↔ SameUnsigned deployment history := by
  have noted : Noted deployment history :=
    reached.invariant noted_callStep (noted_deployed record)
  refine forall_congr' fun _ => forall₂_congr fun first isFirst =>
    forall₂_congr fun second isSecond => forall₂_congr fun sameSender
      sameSignature => ?_
  have firstLong := noted.long first isFirst
  have secondLong := noted.long second isSecond
  constructor
  · rintro ⟨sameHash, sameTimestamp⟩
    have sameBytes :
        first.claim.messageBytes = second.claim.messageBytes :=
      collisionFree ⟨first, isFirst, by simp [Exposure.hashed]⟩
        ⟨second, isSecond, by simp [Exposure.hashed]⟩ sameHash
    obtain ⟨-, -, sameRest⟩ :=
      (messageBytes_eq_iff firstLong secondLong).mp sameBytes
    exact ⟨sameTimestamp, .inr sameRest⟩
  · rintro ⟨sameTimestamp, checkedOrSame⟩
    have sameRest :
        first.claim.nonce = second.claim.nonce ∧
          first.claim.contents = second.claim.contents :=
      checkedOrSame.elim
        (signed_of_checkedTogether documented noted collisionFree isFirst
          isSecond (signsOne first isFirst) sameSignature)
        id
    have sameBytes :=
      (messageBytes_eq_iff firstLong secondLong).mpr
        ⟨sameSender, sameTimestamp, sameRest⟩
    exact ⟨congrArg deployment.keccak256 sameBytes, sameTimestamp⟩

/-- The exposure a sample call leads to. -/
def sampleExposure
    (timestamp : Nat)
    (padding : Bytes) : Exposure :=
  noteOf sampleSurroundings
    ((sampleParams timestamp padding
      (BLSDecompression.infinity 96)).claim sampleDeployment)

/-- A message without a timestamp is exposed, and a message from a batch of its
own under the same signature. -/
def sampleCalls
    (timestamp : Nat)
    (padding : Bytes) : List Call :=
  [sampleCall 0 [] (BLSDecompression.infinity 96),
    sampleCall timestamp padding (BLSDecompression.infinity 96)]

/-- What the samples expose, with hashes that do not collide. -/
structure Exposes
    (timestamp : Nat)
    (padding : Bytes)
    (history : History) : Prop where
  exposures :
    history.exposures = [sampleExposure timestamp padding, sampleExposure 0 []]
  collisionFree : CollisionFree sampleDeployment history
  signsOne :
    ∀ exposure ∈ history.exposures,
      SignsOneHash sampleDeployment.bls exposure.publicKey
        exposure.claim.signature

theorem exposes_samples
    {timestamp : Nat}
    {padding : Bytes}
    (exposed :
      (Runs.exec? (callStep sampleDeployment) (.deployed .initial)
          (sampleCalls timestamp padding)).map
          (fun history => history.exposures) =
        some [sampleExposure timestamp padding, sampleExposure 0 []])
    (distinct :
      ∀ first ∈ [sampleExposure timestamp padding,
          sampleExposure 0 []].flatMap (Exposure.hashed sampleDeployment),
        ∀ second ∈ [sampleExposure timestamp padding,
            sampleExposure 0 []].flatMap (Exposure.hashed sampleDeployment),
          sampleDeployment.keccak256 first =
              sampleDeployment.keccak256 second →
            first = second) :
    ∃ history,
      Runs.exec? (callStep sampleDeployment) (.deployed .initial)
          (sampleCalls timestamp padding) = some history ∧
        Exposes timestamp padding history := by
  obtain ⟨history, executed, exposures⟩ := Option.map_eq_some_iff.mp exposed
  refine ⟨history, executed, exposures, ?_, ?_⟩
  · intro first isFirst second isSecond same
    rw [← exposures] at distinct
    exact distinct first (List.mem_flatMap.mpr isFirst) second
      (List.mem_flatMap.mpr isSecond) same
  · intro _ _ first second verified
    exact absurd verified (BLSVerifier.not_verified_of_rejects rfl)

/-- The two timestamps. -/
theorem exposes_dated :
    ∃ history,
      Runs.exec? (callStep sampleDeployment) (.deployed .initial)
          (sampleCalls 1 []) = some history ∧
        Exposes 1 [] history :=
  exposes_samples (by decide +kernel) (by decide +kernel)

/-- One signature exposes a message under two timestamps. -/
theorem timestamp_unsigned :
    BLSVerifier.Documented sampleDeployment.bls ∧
      (∀ publicKey signature,
        SignsOneHash sampleDeployment.bls publicKey signature) ∧
      ∃ history,
        Runs.exec? (callStep sampleDeployment) (.deployed .initial)
            (sampleCalls 1 []) = some history ∧
        CollisionFree sampleDeployment history ∧
        ¬Bound sampleDeployment history := by
  refine ⟨documented_sampleBls, ?_, ?_⟩
  · intro _ _ first second verified
    exact absurd verified (BLSVerifier.not_verified_of_rejects rfl)
  obtain ⟨history, executed, exposes⟩ := exposes_dated
  refine ⟨history, executed, exposes.collisionFree, fun bound => ?_⟩
  have sameTimestamp :=
    (bound rfl (sampleExposure 1 []) (by simp [exposes.exposures])
      (sampleExposure 0 []) (by simp [exposes.exposures])
      (by decide +kernel) (by decide +kernel)).2
  revert sameTimestamp
  decide +kernel

/-- The samples with two timestamps are not bound; those of one message in two
batches are. -/
theorem samples_bound_iff :
    (∃ history,
      Runs.exec? (callStep sampleDeployment) (.deployed .initial)
          (sampleCalls 1 []) = some history ∧
        ¬Bound sampleDeployment history) ∧
      ∃ history,
        Runs.exec? (callStep sampleDeployment) (.deployed .initial)
            (sampleCalls 0 [1]) = some history ∧
          history.exposures.length = 2 ∧
          Bound sampleDeployment history := by
  constructor
  · obtain ⟨history, executed, exposes⟩ := exposes_dated
    refine ⟨history, executed, fun bound => ?_⟩
    have same :=
      (exposures_bound_iff sampleDeployment documented_sampleBls .initial
        ⟨_, executed⟩ exposes.collisionFree exposes.signsOne).mp bound
    have sameTimestamp :=
      (same rfl (sampleExposure 1 []) (by simp [exposes.exposures])
        (sampleExposure 0 []) (by simp [exposes.exposures])
        (by decide +kernel) (by decide +kernel)).1
    revert sameTimestamp
    decide +kernel
  · obtain ⟨history, executed, exposes⟩ :=
      @exposes_samples 0 [1] (by decide +kernel) (by decide +kernel)
    refine ⟨history, executed, by rw [exposes.exposures]; rfl,
      (exposures_bound_iff sampleDeployment documented_sampleBls .initial
        ⟨_, executed⟩ exposes.collisionFree exposes.signsOne).mpr ?_⟩
    intro _ first isFirst second isSecond _ _
    have sameClaims :
        ∀ first ∈ [sampleExposure 0 [1], sampleExposure 0 []],
          ∀ second ∈ [sampleExposure 0 [1], sampleExposure 0 []],
            first.claim.msgTimestamp = second.claim.msgTimestamp ∧
              first.claim.nonce = second.claim.nonce ∧
              first.claim.contents = second.claim.contents := by
      decide +kernel
    rw [exposes.exposures] at isFirst isSecond
    obtain ⟨sameTimestamp, sameRest⟩ :=
      sameClaims first isFirst second isSecond
    exact ⟨sameTimestamp, .inr sameRest⟩

end BLSExposer

end Bam
