import Bam.Sdk.Types
import Mathlib.Logic.Function.Basic

namespace Bam

/-!
# The exposure record

A permissionless contract: the first caller to record a message hash fixes its
entry.  An entry counts once its `exposedAt` is not zero.
-/

/-- `SocialBlobsTypes.ExposedTweet`. -/
structure ExposedTweet where
  contentHash : Bytes32
  sender : Address
  messageContentHash : Bytes32
  timestamp : Nat
  exposedAt : Nat
  exposedBy : Address
  deriving Repr, DecidableEq

/-- The storage of the contract. -/
structure ExposureRecord where
  exposures : Bytes32 → ExposedTweet
  exposedHashes : List Bytes32
  senderExposures : Address → List Bytes32

inductive ExposureRecordError where
  | ExposureAlreadyRecorded (messageHash : Bytes32)
  /-- `"Not exposed"`. -/
  | notExposed
  deriving Repr, DecidableEq

/-- `uint64(block.timestamp)`. -/
def toUint64 (value : Nat) : Nat :=
  value % 0x10000000000000000

namespace ExposureRecord

/-- The storage right after deployment. -/
def initial : ExposureRecord where
  exposures := fun _ => {
    contentHash := 0
    sender := 0
    messageContentHash := 0
    timestamp := 0
    exposedAt := 0
    exposedBy := 0 }
  exposedHashes := []
  senderExposures := fun _ => []

/-- `record`; the batch identifier it takes is not used. -/
def record
    (msgSender : Address)
    (blockTimestamp : Nat)
    (messageHash : Bytes32)
    (sender : Address)
    (contentHash : Bytes32)
    (timestamp : Nat)
    (exposureRecord : ExposureRecord) :
    Except ExposureRecordError ExposureRecord :=
  if (exposureRecord.exposures messageHash).exposedAt > 0 then
    .error (.ExposureAlreadyRecorded messageHash)
  else
    .ok {
      exposures :=
        Function.update exposureRecord.exposures messageHash {
          contentHash := 0
          sender := sender
          messageContentHash := contentHash
          timestamp := timestamp
          exposedAt := toUint64 blockTimestamp
          exposedBy := msgSender }
      exposedHashes := exposureRecord.exposedHashes ++ [messageHash]
      senderExposures :=
        Function.update exposureRecord.senderExposures sender
          (exposureRecord.senderExposures sender ++ [messageHash]) }

/-- `isExposed`. -/
def isExposed
    (exposureRecord : ExposureRecord)
    (messageHash : Bytes32) : Bool :=
  (exposureRecord.exposures messageHash).exposedAt > 0

/-- `getExposure`. -/
def getExposure
    (exposureRecord : ExposureRecord)
    (messageHash : Bytes32) : Except ExposureRecordError ExposedTweet :=
  let exposure := exposureRecord.exposures messageHash
  if exposure.exposedAt > 0 then .ok exposure else .error .notExposed

/-- What a record that goes through leaves behind. -/
theorem record_ok
    {exposureRecord next : ExposureRecord}
    {msgSender sender : Address}
    {blockTimestamp timestamp : Nat}
    {messageHash contentHash : Bytes32}
    (ran :
      exposureRecord.record msgSender blockTimestamp messageHash sender
        contentHash timestamp = .ok next) :
    exposureRecord.isExposed messageHash = false ∧
      (next.exposures messageHash).exposedAt = toUint64 blockTimestamp ∧
      ∀ other, other ≠ messageHash →
        next.exposures other = exposureRecord.exposures other := by
  unfold record at ran
  split at ran
  · cases ran
  · rename_i fresh
    cases ran
    exact ⟨decide_eq_false fresh, by simp,
      fun other different => by simp [different]⟩

/-- Every entry of a record is still there in a later one. -/
def Extends (earlier later : ExposureRecord) : Prop :=
  ∀ messageHash entry,
    earlier.getExposure messageHash = .ok entry →
      later.getExposure messageHash = .ok entry

theorem Extends.refl (exposureRecord : ExposureRecord) :
    exposureRecord.Extends exposureRecord :=
  fun _ _ => id

theorem Extends.trans
    {earlier middle later : ExposureRecord}
    (first : earlier.Extends middle)
    (second : middle.Extends later) :
    earlier.Extends later :=
  fun messageHash entry found =>
    second messageHash entry (first messageHash entry found)

theorem isExposed_of_getExposure
    {exposureRecord : ExposureRecord}
    {messageHash : Bytes32}
    {entry : ExposedTweet}
    (found : exposureRecord.getExposure messageHash = .ok entry) :
    exposureRecord.isExposed messageHash = true := by
  unfold getExposure at found
  dsimp only at found
  split at found
  · exact decide_eq_true ‹_›
  · cases found

/-- A call of `record` adds to the record. -/
theorem extends_record
    {exposureRecord next : ExposureRecord}
    {msgSender sender : Address}
    {blockTimestamp timestamp : Nat}
    {messageHash contentHash : Bytes32}
    (ran :
      exposureRecord.record msgSender blockTimestamp messageHash sender
        contentHash timestamp = .ok next) :
    exposureRecord.Extends next := by
  obtain ⟨fresh, -, others⟩ := record_ok ran
  intro other entry found
  have different : other ≠ messageHash := by
    rintro rfl
    rw [isExposed_of_getExposure found] at fresh
    cases fresh
  unfold getExposure at found ⊢
  rw [others other different]
  exact found

/-- What a dated call of `record` writes. -/
theorem getExposure_record
    {exposureRecord : ExposureRecord}
    (msgSender sender : Address)
    {blockTimestamp : Nat}
    (timestamp : Nat)
    {messageHash : Bytes32}
    (contentHash : Bytes32)
    (fresh : exposureRecord.isExposed messageHash = false)
    (dated : 0 < toUint64 blockTimestamp) :
    ∃ next,
      exposureRecord.record msgSender blockTimestamp messageHash sender
          contentHash timestamp = .ok next ∧
        next.getExposure messageHash = .ok {
          contentHash := 0
          sender := sender
          messageContentHash := contentHash
          timestamp := timestamp
          exposedAt := toUint64 blockTimestamp
          exposedBy := msgSender } := by
  unfold record getExposure
  rw [if_neg (of_decide_eq_false fresh)]
  refine ⟨_, rfl, ?_⟩
  dsimp only
  rw [Function.update_self]
  exact if_pos dated

end ExposureRecord

end Bam
