import Mathlib.Data.Rat.Defs
import Mathlib.Algebra.Order.Ring.Rat
import Bam.Sdk.Batch

namespace Bam

/-!
# The default batch policy

Per-tag FIFO selection under a blob capacity.  `select` decides whether a tag
ships at all; `fill` is the same walk without the triggers.
-/

/-- `126 * 1024`. -/
def DEFAULT_BLOB_CAPACITY_BYTES : Nat := 129024

/-- A message of a pending pool. -/
structure DecodedMessage where
  sender : Address
  nonce : Nat
  contents : Bytes
  contentTag : Bytes32
  signature : Bytes
  messageHash : Bytes32
  ingestedAt : Option Int
  deriving Repr, DecidableEq

/-- `toBAMMessage`. -/
def DecodedMessage.toBAMMessage
    (message : DecodedMessage) : BAMMessage where
  sender := message.sender
  nonce := message.nonce
  contents := message.contents

/-- `PoolView`: the pending pool of each tag, in ingest order. -/
abbrev PoolView := Bytes32 → List DecodedMessage

/-- `BatchPolicy`. -/
structure BatchPolicy where
  select :
    Bytes32 → PoolView → Nat → Int → Option (List DecodedMessage)
  fill : Bytes32 → PoolView → Nat → Option (List DecodedMessage)

/-- `DefaultBatchPolicyConfig`; a missing `forceFlush` is `false`. -/
structure DefaultBatchPolicyConfig where
  sizeTriggerRatio : Option Rat
  ageTriggerMs : Option Int
  countTrigger : Option Nat
  forceFlush : Bool
  estimateBatchSize : Option (List BAMMessage → Nat)

/-- The empty configuration, `{}`. -/
def DefaultBatchPolicyConfig.empty : DefaultBatchPolicyConfig where
  sizeTriggerRatio := none
  ageTriggerMs := none
  countTrigger := none
  forceFlush := false
  estimateBatchSize := none

/-- The loop of `greedyFifoFill`: add pending messages to `picked` until the
first one that no longer fits. -/
def greedyFifoFill
    (blobCapacityBytes : Nat)
    (estimate : List BAMMessage → Nat) :
    List DecodedMessage → List DecodedMessage → List DecodedMessage
  | picked, [] => picked
  | picked, next :: rest =>
      let candidate := picked ++ [next]
      if blobCapacityBytes <
          estimate (candidate.map DecodedMessage.toBAMMessage) then
        picked
      else
        greedyFifoFill blobCapacityBytes estimate candidate rest

/-- `defaultBatchPolicy`. -/
def defaultBatchPolicy
    (config : DefaultBatchPolicyConfig) : BatchPolicy :=
  let sizeTriggerRatio := config.sizeTriggerRatio.getD (3 / 4)
  let ageTriggerMs := config.ageTriggerMs.getD 60000
  let countTrigger := config.countTrigger.getD 8
  let estimate := config.estimateBatchSize.getD estimateBatchSize
  { select := fun tag pool blobCapacityBytes now =>
      let pending := pool tag
      match greedyFifoFill blobCapacityBytes estimate [] pending with
      | [] => none
      | first :: others =>
          let picked := first :: others
          let selectedSize :=
            estimate (picked.map DecodedMessage.toBAMMessage)
          let old :=
            first.ingestedAt.any fun oldestIngestMs =>
              ageTriggerMs ≤ now - oldestIngestMs
          if config.forceFlush then some picked
          else if
              (blobCapacityBytes : Rat) * sizeTriggerRatio ≤
                (selectedSize : Rat) then
            some picked
          else if old then some picked
          else if 0 < countTrigger ∧ countTrigger ≤ pending.length then
            some picked
          else none
    fill := fun tag pool blobCapacityBytes =>
      match greedyFifoFill blobCapacityBytes estimate [] (pool tag) with
      | [] => none
      | first :: others => some (first :: others) }

/-- A greedy fill appends a prefix of the pending messages, and stops there
only because the next message exceeds the capacity. -/
theorem greedyFifoFill_prefix
    (blobCapacityBytes : Nat)
    (estimate : List BAMMessage → Nat)
    (picked pending : List DecodedMessage) :
    ∃ count,
      greedyFifoFill blobCapacityBytes estimate picked pending =
        picked ++ pending.take count ∧
      count ≤ pending.length ∧
      (∀ shorter, 0 < shorter → shorter ≤ count →
        estimate ((picked ++ pending.take shorter).map
          DecodedMessage.toBAMMessage) ≤ blobCapacityBytes) ∧
      (count < pending.length →
        blobCapacityBytes <
          estimate ((picked ++ pending.take (count + 1)).map
            DecodedMessage.toBAMMessage)) := by
  induction pending generalizing picked with
  | nil =>
      exact ⟨0, by simp [greedyFifoFill], Nat.le_refl _,
        fun shorter positive le => by omega, by simp⟩
  | cons next rest inductionHypothesis =>
      by_cases exceeds :
          blobCapacityBytes <
            estimate ((picked ++ [next]).map DecodedMessage.toBAMMessage)
      · have isFill :
            greedyFifoFill blobCapacityBytes estimate picked
              (next :: rest) = picked := by
          rw [greedyFifoFill, if_pos exceeds]
        refine ⟨0, by simp [isFill], Nat.zero_le _,
          fun shorter positive le => by omega, ?_⟩
        intro _
        simpa using exceeds
      · obtain ⟨count, isFill, le, fits, stops⟩ :=
          inductionHypothesis (picked ++ [next])
        refine ⟨count + 1, ?_, by simpa using le, ?_, ?_⟩
        · rw [greedyFifoFill, if_neg exceeds, isFill,
            List.take_succ_cons, List.append_assoc, List.singleton_append]
        · intro shorter positive shorterLe
          cases shorter with
          | zero =>
              omega
          | succ shorter =>
              rw [List.take_succ_cons]
              rcases Nat.eq_zero_or_pos shorter with isZero | positive
              · subst isZero
                simpa using exceeds
              · have := fits shorter positive (by omega)
                rwa [List.append_assoc, List.singleton_append] at this
        · intro more
          have := stops (by simpa using more)
          rwa [List.append_assoc, List.singleton_append,
            ← List.take_succ_cons] at this

/-- `select` returns the greedy fill or nothing. -/
theorem select_defaultBatchPolicy
    {config : DefaultBatchPolicyConfig}
    {tag : Bytes32}
    {pool : PoolView}
    {blobCapacityBytes : Nat}
    {now : Int}
    {picked : List DecodedMessage}
    (selected :
      (defaultBatchPolicy config).select tag pool blobCapacityBytes now =
        some picked) :
    picked ≠ [] ∧
      picked =
        greedyFifoFill blobCapacityBytes
          (config.estimateBatchSize.getD estimateBatchSize) []
          (pool tag) := by
  simp only [defaultBatchPolicy] at selected
  split at selected
  · cases selected
  · rename_i first others isFill
    have isPicked : first :: others = picked := by
      split at selected
      · exact Option.some.inj selected
      split at selected
      · exact Option.some.inj selected
      split at selected
      · exact Option.some.inj selected
      split at selected
      · exact Option.some.inj selected
      · cases selected
    rw [isFill, ← isPicked]
    exact ⟨List.cons_ne_nil _ _, rfl⟩

/-- `fill` returns the greedy fill or nothing. -/
theorem fill_defaultBatchPolicy
    {config : DefaultBatchPolicyConfig}
    {tag : Bytes32}
    {pool : PoolView}
    {blobCapacityBytes : Nat} :
    (defaultBatchPolicy config).fill tag pool blobCapacityBytes =
      match greedyFifoFill blobCapacityBytes
          (config.estimateBatchSize.getD estimateBatchSize) []
          (pool tag) with
      | [] => none
      | first :: others => some (first :: others) :=
  rfl

/-- Both ways of a default policy pick a prefix of the tag's pool. -/
theorem picked_prefix
    {config : DefaultBatchPolicyConfig}
    {tag : Bytes32}
    {pool : PoolView}
    {blobCapacityBytes : Nat}
    {now : Int}
    {messages : List DecodedMessage}
    (picked :
      (defaultBatchPolicy config).select tag pool blobCapacityBytes now =
          some messages ∨
        (defaultBatchPolicy config).fill tag pool blobCapacityBytes =
          some messages) :
    ∃ count, messages = (pool tag).take count := by
  obtain ⟨count, isFill, -, -, -⟩ :=
    greedyFifoFill_prefix blobCapacityBytes
      (config.estimateBatchSize.getD estimateBatchSize) [] (pool tag)
  rw [List.nil_append] at isFill
  rcases picked with selected | filled
  · exact ⟨count, (select_defaultBatchPolicy selected).2.trans isFill⟩
  · rw [fill_defaultBatchPolicy, isFill] at filled
    split at filled
    · cases filled
    · rename_i first others isTake
      exact ⟨count, (Option.some.inj filled).symm.trans isTake.symm⟩

end Bam
