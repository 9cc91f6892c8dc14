import Bam.Coprocessor.Decode
import Bam.Lib.Framing

namespace Bam.Coprocessor

open Bytewise

/-!
# The commitment to a message list

`compute_message_commitment` hashes the records of the verified messages one
after the other.  Every record carries the width of its contents, so the hashed
bytes determine the list.
-/

/-- A verified message and its position on the chain. -/
structure VerifiedMessage where
  sender : Bytes
  nonce : UInt64
  contents : Bytes
  blockNumber : UInt64
  txIndex : UInt32
  msgIndex : UInt32
  senderWidth : sender.length = 20
  deriving Repr, DecidableEq

/-- `record_len`. -/
def VerifiedMessage.recordLen (msg : VerifiedMessage) : UInt32 :=
  20 + 8 + 4 + UInt32.ofNat msg.contents.length + 8 + 4 + 4

/-- The record of a message. -/
def VerifiedMessage.frame (msg : VerifiedMessage) : Bytes :=
  toBE 4 msg.recordLen.toNat ++
    (msg.sender ++
      (toBE 8 msg.nonce.toNat ++
        (toBE 4 (UInt32.ofNat msg.contents.length).toNat ++
          (msg.contents ++
            (toBE 8 msg.blockNumber.toNat ++
              (toBE 4 msg.txIndex.toNat ++
                toBE 4 msg.msgIndex.toNat))))))

/-- What `compute_message_commitment` hashes. -/
def commitmentPreimage (messages : List VerifiedMessage) : Bytes :=
  messages.flatMap VerifiedMessage.frame

/-- `compute_message_commitment`. -/
def computeMessageCommitment
    (sha256 : Bytes → Bytes)
    (messages : List VerifiedMessage) : Bytes :=
  sha256 (commitmentPreimage messages)

/-- The lengths in the record of a message do not wrap around. -/
def VerifiedMessage.Short (msg : VerifiedMessage) : Prop :=
  msg.contents.length < 2 ^ 32 - 52

theorem VerifiedMessage.Short.length
    {msg : VerifiedMessage}
    (short : msg.Short) :
    (UInt32.ofNat msg.contents.length).toNat = msg.contents.length := by
  have small : msg.contents.length < 2 ^ 32 - 52 := short
  rw [UInt32.toNat_ofNat']
  exact Nat.mod_eq_of_lt (by omega)

/-- The length at the front of a record is that of the rest of it. -/
theorem VerifiedMessage.Short.recordLen
    {msg : VerifiedMessage}
    (short : msg.Short) :
    msg.frame.length = 4 + msg.recordLen.toNat := by
  have small : msg.contents.length < 2 ^ 32 - 52 := short
  have width := msg.senderWidth
  have counted : msg.recordLen.toNat = 48 + msg.contents.length := by
    have twenty : (20 : UInt32).toNat = 20 := rfl
    have eight : (8 : UInt32).toNat = 8 := rfl
    have four : (4 : UInt32).toNat = 4 := rfl
    simp only [VerifiedMessage.recordLen, UInt32.toNat_add, short.length,
      twenty, eight, four]
    omega
  simp only [VerifiedMessage.frame, List.length_append, length_toBE,
    counted, width]
  omega

theorem VerifiedMessage.frame_ne_nil
    (msg : VerifiedMessage) :
    msg.frame ≠ [] := by
  intro empty
  have none := congrArg List.length empty
  simp only [VerifiedMessage.frame, List.length_append, length_toBE,
    List.length_nil] at none
  omega

/-- The records of short messages can be told apart whatever follows. -/
theorem selfFraming_frame :
    Framing.SelfFraming VerifiedMessage.frame VerifiedMessage.Short := by
  intro first second firstRest secondRest firstShort secondShort same
  simp only [VerifiedMessage.frame, List.append_assoc] at same
  obtain ⟨_, same⟩ :=
    Framing.toBE_append_inj first.recordLen.toNat_lt
      second.recordLen.toNat_lt same
  obtain ⟨sameSender, same⟩ :=
    List.append_inj same (first.senderWidth.trans second.senderWidth.symm)
  obtain ⟨sameNonce, same⟩ :=
    Framing.toBE_append_inj first.nonce.toNat_lt second.nonce.toNat_lt same
  obtain ⟨sameLength, same⟩ :=
    Framing.toBE_append_inj (UInt32.ofNat first.contents.length).toNat_lt
      (UInt32.ofNat second.contents.length).toNat_lt same
  rw [firstShort.length, secondShort.length] at sameLength
  obtain ⟨sameContents, same⟩ := List.append_inj same sameLength
  obtain ⟨sameBlock, same⟩ :=
    Framing.toBE_append_inj first.blockNumber.toNat_lt
      second.blockNumber.toNat_lt same
  obtain ⟨sameTx, same⟩ :=
    Framing.toBE_append_inj first.txIndex.toNat_lt
      second.txIndex.toNat_lt same
  obtain ⟨sameIndex, _⟩ :=
    Framing.toBE_append_inj first.msgIndex.toNat_lt
      second.msgIndex.toNat_lt same
  rw [UInt64.toNat_inj] at sameNonce sameBlock
  rw [UInt32.toNat_inj] at sameTx sameIndex
  cases first
  cases second
  simp only at sameSender sameNonce sameContents sameBlock sameTx sameIndex
  subst sameSender sameNonce sameContents sameBlock sameTx sameIndex
  rfl

/-- The hashed bytes determine the messages and their order, and so does the
commitment unless two of them collide. -/
theorem computeMessageCommitment_determines
    (sha256 : Bytes → Bytes)
    (first second : List VerifiedMessage)
    (firstShort : ∀ msg ∈ first, msg.contents.length < 2 ^ 32 - 52)
    (secondShort : ∀ msg ∈ second, msg.contents.length < 2 ^ 32 - 52) :
    (commitmentPreimage first = commitmentPreimage second →
        first = second) ∧
      (computeMessageCommitment sha256 first =
          computeMessageCommitment sha256 second →
        first = second ∨
          commitmentPreimage first ≠ commitmentPreimage second ∧
            sha256 (commitmentPreimage first) =
              sha256 (commitmentPreimage second)) := by
  have determines :
      commitmentPreimage first = commitmentPreimage second →
        first = second :=
    selfFraming_frame.flatMap_injective VerifiedMessage.frame_ne_nil
      firstShort secondShort
  refine ⟨determines, ?_⟩
  intro committed
  by_cases same : commitmentPreimage first = commitmentPreimage second
  · exact .inl (determines same)
  · exact .inr ⟨same, committed⟩

/-- A message of one byte. -/
def sampleVerifiedMessage (nonce : UInt64) : VerifiedMessage where
  sender := List.replicate 20 0x11
  nonce := nonce
  contents := [0x74]
  blockNumber := 100
  txIndex := 0
  msgIndex := 0
  senderWidth := rfl

theorem computeMessageCommitment_determines_sample :
    commitmentPreimage
        [sampleVerifiedMessage 1, sampleVerifiedMessage 2] ≠
      commitmentPreimage
        [sampleVerifiedMessage 2, sampleVerifiedMessage 1] := by
  intro same
  have swapped :=
    (computeMessageCommitment_determines id
      [sampleVerifiedMessage 1, sampleVerifiedMessage 2]
      [sampleVerifiedMessage 2, sampleVerifiedMessage 1]
      (by decide) (by decide)).1 same
  have sameNonce : (1 : UInt64) = 2 :=
    congrArg VerifiedMessage.nonce (List.cons.inj swapped).1
  exact absurd sameNonce (by decide)

end Bam.Coprocessor
