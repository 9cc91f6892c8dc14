import Bam.Contracts.BLSRegistry
import Bam.Contracts.DecompressedPoints
import Bam.Contracts.ExposedSignatures
import Bam.Lib.ExceptLoops
import Mathlib.Algebra.Field.ZMod
import Mathlib.Algebra.Group.Hom.Basic
import Mathlib.Algebra.Ring.Basic

namespace Bam

open Bytewise

/-!
# The keys that the registry accepts

The registry rejects a key of zero bytes, which cannot be decompressed anyway,
and lets the point at infinity pass, which is compressed to other bytes.  Under
any other key, a signature is for one point.  On a chain whose pairing rejects a
call without input, as EIP-2537 says, the probe of the precompiles fails and no
key is accepted at all.
-/

namespace BLSVerifier

open BLSDecompression

/-- Two groups with a pairing that only the neutral element of the first one
makes forget its other argument, and the encodings of their points. -/
structure PairedGroups
    (G1 G2 GT : Type*)
    [AddCommGroup G1] [AddCommGroup G2] [AddCommGroup GT] where
  pair : G1 →+ G2 →+ GT
  faithful : ∀ point, point ≠ 0 → Function.Injective (pair point)
  decodeG1 : Bytes → Option G1
  decodeG2 : Bytes → Option G2
  infinityG1 : decodeG1 (List.replicate 128 0) = some 0
  infinityG2 : decodeG2 (List.replicate 256 0) = some 0
  canonicalG1 :
    ∀ {first second : Bytes} {point : G1},
      decodeG1 first = some point →
      decodeG1 second = some point → first = second
  canonicalG2 :
    ∀ {first second : Bytes} {point : G2},
      decodeG2 first = some point →
      decodeG2 second = some point → first = second

section

variable {G1 G2 GT : Type*}
variable [AddCommGroup G1] [AddCommGroup G2] [AddCommGroup GT]
variable [DecidableEq GT]

/-- The pairing check of two pairs of points. -/
def PairedGroups.check
    (groups : PairedGroups G1 G2 GT)
    (a b c d : Bytes) : Option Bytes :=
  match groups.decodeG1 a, groups.decodeG2 b, groups.decodeG1 c,
      groups.decodeG2 d with
  | some p, some q, some r, some s =>
      some (toBE 32 (if groups.pair p q + groups.pair r s = 0 then 1 else 0))
  | _, _, _, _ => none

/-- The precompiles compute on the groups, as EIP-2537 says of calls with
points. -/
structure ComputesOn
    (machine : Machine)
    (groups : PairedGroups G1 G2 GT) : Prop where
  documented : Documented machine
  paired :
    ∀ a b c d : Bytes, a.length = 128 → b.length = 256 →
      c.length = 128 → d.length = 256 →
        machine.pairing (a ++ b ++ c ++ d) = groups.check a b c d
  mapped :
    ∀ input point : Bytes, machine.mapFp2ToG2 input = some point →
      ∃ mappedPoint, groups.decodeG2 point = some mappedPoint
  added :
    ∀ (left right : Bytes) (first second : G2),
      groups.decodeG2 left = some first →
      groups.decodeG2 right = some second →
        ∃ sum, machine.g2Add (left ++ right) = some sum ∧
          groups.decodeG2 sum = some (first + second)

/-- The precompiles follow EIP-2537, by which a pairing call without input is an
error. -/
structure FollowsEip
    (machine : Machine)
    (groups : PairedGroups G1 G2 GT) : Prop
    extends ComputesOn machine groups where
  rejectsEmpty : machine.pairing [] = none

/-- A signature that verifies under a key for two messages is for one point. -/
def SignsOnePoint
    (machine : Machine)
    (publicKey : Bytes) : Prop :=
  ∀ (signature : Bytes) (first second : Bytes32)
      (firstPoint secondPoint : Bytes),
    verify machine publicKey first signature = .ok true →
    verify machine publicKey second signature = .ok true →
    hashToG2 machine first = .ok firstPoint →
    hashToG2 machine second = .ok secondPoint →
      firstPoint = secondPoint

/-- All messages that have a point have the same. -/
def HashesToOnePoint (machine : Machine) : Prop :=
  ∀ (first second : Bytes32) (firstPoint secondPoint : Bytes),
    hashToG2 machine first = .ok firstPoint →
    hashToG2 machine second = .ok secondPoint →
      firstPoint = secondPoint

variable {machine : Machine}
variable {groups : PairedGroups G1 G2 GT}

theorem checkPairing_check_iff
    {a b c d : Bytes} :
    checkPairing (groups.check a b c d) = true ↔
      ∃ p q r s,
        groups.decodeG1 a = some p ∧ groups.decodeG2 b = some q ∧
          groups.decodeG1 c = some r ∧ groups.decodeG2 d = some s ∧
          groups.pair p q + groups.pair r s = 0 := by
  constructor
  · intro passed
    unfold PairedGroups.check at passed
    split at passed
    · rename_i p q r s isFirst isSecond isThird isFourth
      refine ⟨p, q, r, s, isFirst, isSecond, isThird, isFourth, ?_⟩
      by_contra notSolved
      rw [if_neg notSolved] at passed
      revert passed
      decide
    · cases passed
  · rintro ⟨p, q, r, s, isFirst, isSecond, isThird, isFourth, solved⟩
    unfold PairedGroups.check
    rw [isFirst, isSecond, isThird, isFourth]
    dsimp only
    rw [if_pos solved]
    decide

theorem length_negateG1
    {point : Bytes}
    (wide : 64 ≤ point.length) :
    (negateG1 point).length = 128 := by
  unfold negateG1
  rw [List.length_append, length_fpToBytes64, List.length_take]
  omega

theorem length_of_pointOf
    {precompile : Address}
    {answer : Option Bytes}
    {point : Bytes}
    (returned : pointOf precompile answer = .ok point) :
    point.length = G2_POINT_SIZE := by
  unfold pointOf at returned
  split at returned
  · cases returned
  · split at returned
    · cases returned
    · cases returned
      exact not_not.mp ‹_›

theorem length_getG1Generator :
    getG1Generator.length = 128 := by
  unfold getG1Generator
  rw [List.length_append, length_toBE, length_toBE]

/-- The point of a message is the sum of two mapped points. -/
theorem hashToG2_ok
    {messageHash : Bytes32}
    {point : Bytes}
    (hashed : hashToG2 machine messageHash = .ok point) :
    ∃ first second left right,
      machine.mapFp2ToG2 first = some left ∧
        machine.mapFp2ToG2 second = some right ∧
        machine.g2Add (left ++ right) = some point ∧
        point.length = G2_POINT_SIZE := by
  unfold hashToG2 at hashed
  obtain ⟨left, isLeft, hashed⟩ := ExceptLoops.exists_of_bind_eq_ok hashed
  obtain ⟨right, isRight, hashed⟩ := ExceptLoops.exists_of_bind_eq_ok hashed
  exact ⟨_, _, left, right, mapped_of_pointOf isLeft,
    mapped_of_pointOf isRight, mapped_of_pointOf hashed,
    length_of_pointOf hashed⟩

/-- The point of a message can be paired. -/
theorem decodeG2_of_hashToG2
    (computes : ComputesOn machine groups)
    {messageHash : Bytes32}
    {point : Bytes}
    (hashed : hashToG2 machine messageHash = .ok point) :
    ∃ messagePoint, groups.decodeG2 point = some messagePoint := by
  obtain ⟨_, _, left, right, isLeft, isRight, isSum, -⟩ :=
    hashToG2_ok hashed
  obtain ⟨first, decodesLeft⟩ := computes.mapped _ _ isLeft
  obtain ⟨second, decodesRight⟩ := computes.mapped _ _ isRight
  obtain ⟨sum, added, decodes⟩ :=
    computes.added _ _ _ _ decodesLeft decodesRight
  rw [isSum] at added
  cases added
  exact ⟨_, decodes⟩

/-- The pairing equation a check leaves to the precompile. -/
theorem verify_eq_check
    (computes : ComputesOn machine groups)
    (available : precompilesAvailable machine = true)
    {publicKey signature key point messagePoint : Bytes}
    {messageHash : Bytes32}
    (isKey : decompressG1 publicKey = .ok key)
    (isPoint : decompressG2 signature = .ok point)
    (hashed : hashToG2 machine messageHash = .ok messagePoint) :
    verify machine publicKey messageHash signature =
      .ok (checkPairing
        (groups.check getG1Generator point (negateG1 key)
          messagePoint)) := by
  have keyWide : 64 ≤ key.length := by
    rw [length_decompressG1 isKey]
    decide
  obtain ⟨_, _, _, _, -, -, -, messageWide⟩ := hashToG2_ok hashed
  rw [verify_of_readable available isKey isPoint, hashed]
  dsimp only
  rw [computes.paired _ _ _ _ length_getG1Generator
      (length_decompressG2 isPoint) (length_negateG1 keyWide)
      messageWide]

/-- A signature that verifies was checked where the probe is answered, and
solves the pairing equation. -/
theorem verify_eq_true_iff
    (computes : ComputesOn machine groups)
    {publicKey signature : Bytes}
    {messageHash : Bytes32} :
    verify machine publicKey messageHash signature = .ok true ↔
      precompilesAvailable machine = true ∧
        ∃ key point messagePoint,
        decompressG1 publicKey = .ok key ∧
          decompressG2 signature = .ok point ∧
          hashToG2 machine messageHash = .ok messagePoint ∧
          ∃ p q r s,
            groups.decodeG1 getG1Generator = some p ∧
              groups.decodeG2 point = some q ∧
              groups.decodeG1 (negateG1 key) = some r ∧
              groups.decodeG2 messagePoint = some s ∧
              groups.pair p q + groups.pair r s = 0 := by
  constructor
  · intro verified
    obtain ⟨available, ⟨⟨key, isKey⟩, point, isPoint⟩, expands⟩ :=
      (verify_returns_iff computes.documented _ _ _).mp ⟨_, verified⟩
    obtain ⟨messagePoint, hashed⟩ :=
      (hashToG2_returns_iff computes.documented _).mpr expands
    rw [verify_eq_check computes available isKey isPoint hashed]
      at verified
    exact ⟨available, key, point, messagePoint, isKey, isPoint, hashed,
      checkPairing_check_iff.mp (Except.ok.inj verified)⟩
  · rintro ⟨available, key, point, messagePoint, isKey, isPoint, hashed,
      solved⟩
    rw [verify_eq_check computes available isKey isPoint hashed,
      checkPairing_check_iff.mpr solved]

/-- Under a key that is not the point at infinity, a signature is for one
point. -/
theorem signsOnePoint_of_finite
    (computes : ComputesOn machine groups)
    {publicKey : Bytes}
    (finite : ¬MarkedInfinite publicKey) :
    SignsOnePoint machine publicKey := by
  intro signature first second firstPoint secondPoint firstVerified
    secondVerified firstHashed secondHashed
  obtain ⟨-, key, point, _, isKey, isPoint, hashed, p, q, r, s, isP, isQ,
    isR, isS, firstSolved⟩ :=
    (verify_eq_true_iff computes).mp firstVerified
  rw [firstHashed] at hashed
  cases hashed
  obtain ⟨-, key', point', _, isKey', isPoint', hashed, p', q', r', s',
    isP', isQ', isR', isS', secondSolved⟩ :=
    (verify_eq_true_iff computes).mp secondVerified
  rw [secondHashed] at hashed
  cases hashed
  rw [isKey] at isKey'
  cases isKey'
  rw [isPoint] at isPoint'
  cases isPoint'
  rw [isP] at isP'
  rw [isQ] at isQ'
  rw [isR] at isR'
  cases isP'
  cases isQ'
  cases isR'
  have notInfinity : r ≠ 0 := by
    rintro rfl
    have isZero := groups.canonicalG1 isR groups.infinityG1
    have keyWide : 64 ≤ key.length := by
      rw [length_decompressG1 isKey]
      decide
    have start := congrArg (List.take 64) isZero
    unfold negateG1 at start
    rw [List.take_left' (by rw [List.length_take]; omega)] at start
    exact decompressG1_finite isKey finite (start.trans rfl)
  have samePoint : s = s' :=
    groups.faithful r notInfinity
      (add_left_cancel (firstSolved.trans secondSolved.symm))
  subst samePoint
  exact groups.canonicalG2 isS isS'

/-- The negated point at infinity. -/
theorem negateG1_infinity :
    negateG1 (List.replicate 128 0) = List.replicate 128 0 := by
  decide +kernel

/-- Under the point at infinity, the signature at infinity is for every point,
if any signature is for one. -/
theorem verify_infinity
    (computes : ComputesOn machine groups)
    {publicKey signature : Bytes}
    {signed messageHash : Bytes32}
    {messagePoint : Bytes}
    (infinite : MarkedInfinite publicKey)
    (verified :
      verify machine publicKey signed signature = .ok true)
    (hashed : hashToG2 machine messageHash = .ok messagePoint) :
    verify machine publicKey messageHash (infinity 96) = .ok true := by
  obtain ⟨available, key, _, _, isKey, -, -, p, _, r, _, isP, -, isR, -,
    -⟩ :=
    (verify_eq_true_iff computes).mp verified
  obtain ⟨s, isS⟩ := decodeG2_of_hashToG2 computes hashed
  have isZero : r = 0 := by
    obtain ⟨-, ⟨-, rfl⟩ | ⟨finite, -⟩⟩ := decompressG1_ok isKey
    · have decoded : groups.decodeG1 (List.replicate 128 0) = some r := by
        rw [← negateG1_infinity]
        exact isR
      rw [groups.infinityG1] at decoded
      cases decoded
      rfl
    · exact absurd infinite finite
  subst isZero
  refine (verify_eq_true_iff computes).mpr
    ⟨available, key, List.replicate 256 0, messagePoint, isKey, rfl, hashed,
      p, 0, 0, s, isP, groups.infinityG2, isR, isS, ?_⟩
  rw [map_zero, map_zero, AddMonoidHom.zero_apply, add_zero]

/-- When a key under which some signature verifies binds its signatures. -/
theorem signsOnePoint_iff
    (computes : ComputesOn machine groups)
    {publicKey signature : Bytes}
    {signed : Bytes32}
    (verified :
      verify machine publicKey signed signature = .ok true) :
    SignsOnePoint machine publicKey ↔
      ¬MarkedInfinite publicKey ∨ HashesToOnePoint machine := by
  constructor
  · intro signsOne
    by_cases infinite : MarkedInfinite publicKey
    · right
      intro first second firstPoint secondPoint firstHashed secondHashed
      exact signsOne (infinity 96) first second firstPoint secondPoint
        (verify_infinity computes infinite verified firstHashed)
        (verify_infinity computes infinite verified secondHashed)
        firstHashed secondHashed
    · exact .inl infinite
  · rintro (finite | onePoint)
    · exact signsOnePoint_of_finite computes finite
    · intro _ first second firstPoint secondPoint _ _
      exact onePoint first second firstPoint secondPoint

end

end BLSVerifier

namespace BLSRegistry

open BLSVerifier

variable {G1 G2 GT : Type*}
variable [AddCommGroup G1] [AddCommGroup G2] [AddCommGroup GT]
variable [DecidableEq GT]
variable {deployment : Deployment}
variable {groups : PairedGroups G1 G2 GT}

/-- Every key in use binds its signatures to one point. -/
def KeysBind
    (deployment : Deployment)
    (registry : BLSRegistry) : Prop :=
  ∀ owner, SignsOnePoint deployment.bls (registry.getKey owner)

/-- A key that a call presents is not the point at infinity, unless all messages
have one point. -/
def PresentsFinite
    (deployment : Deployment)
    (call : Call) : Prop :=
  match call.presented? with
  | none => True
  | some presented =>
      ¬BLSDecompression.MarkedInfinite presented.blsPubKey ∨
        HashesToOnePoint deployment.bls

/-- No signature verifies under no key. -/
theorem signsOnePoint_nil
    (machine : Machine) :
    SignsOnePoint machine [] := by
  intro signature first second firstPoint secondPoint verified
  cases verified

/-- A call leads from keys that bind to keys that bind exactly if the key that
it presents is finite. -/
theorem keysBind_callStep_iff
    (computes : ComputesOn deployment.bls groups)
    {registry next : BLSRegistry}
    {call : Call}
    (bind : KeysBind deployment registry)
    (taken : callStep deployment registry call = some next) :
    KeysBind deployment next ↔ PresentsFinite deployment call := by
  rcases callStep_cases taken with
    ⟨presented, isPresented, checked, keys⟩ | ⟨msgSender, rfl, keys⟩
  · unfold PresentsFinite KeysBind
    rw [isPresented, keys]
    dsimp only
    rw [← signsOnePoint_iff computes (verify_of_checkKey checked)]
    constructor
    · intro all
      have atSender := all presented.msgSender
      rw [Function.update_self] at atSender
      exact atSender
    · intro signsOne owner
      by_cases same : owner = presented.msgSender
      · subst same
        rw [Function.update_self]
        exact signsOne
      · rw [Function.update_of_ne same]
        exact bind owner
  · refine ⟨fun _ => trivial, fun _ owner => ?_⟩
    rw [keys]
    by_cases same : owner = msgSender
    · subst same
      rw [Function.update_self]
      exact signsOnePoint_nil _
    · rw [Function.update_of_ne same]
      exact bind owner

/-- In a run of the registry from its deployment, every key in use binds its
signatures to one point, in every state, if and only if no call gets the point
at infinity accepted. -/
theorem acceptedKeys_bind_iff
    (deployment : Deployment)
    (groups : PairedGroups G1 G2 GT)
    (computes : ComputesOn deployment.bls groups)
    (calls : List Call) :
    Runs.AllStates (callStep deployment) (KeysBind deployment)
        .initial calls ↔
      Runs.AllSteps (callStep deployment)
        (fun _ call => PresentsFinite deployment call)
        .initial calls := by
  refine @Runs.allStates_iff_allSteps _ _ _ (fun _ => True) _ _ ?_ ?_ _
    calls trivial ?_
  · intro _ _ _ _ _
    trivial
  · intro registry call next _
    exact keysBind_callStep_iff computes
  · exact fun _ => signsOnePoint_nil _

/-- Where the probe of the precompiles fails, no call gets a key accepted. -/
theorem presented?_of_rejects
    (rejects : deployment.bls.pairing [] = none)
    {registry next : BLSRegistry}
    {call : Call}
    (taken : callStep deployment registry call = some next) :
    call.presented? = none := by
  rcases callStep_cases taken with
    ⟨presented, -, checked, -⟩ | ⟨msgSender, rfl, -⟩
  · exact absurd (verify_of_checkKey checked)
      (not_verified_of_rejects rejects)
  · rfl

/-- On a chain that follows EIP-2537, every key in use binds its signatures to
one point, in every state of a run of the registry from its deployment, since no
call gets a key accepted. -/
theorem acceptedKeys_bind
    (deployment : Deployment)
    (groups : PairedGroups G1 G2 GT)
    (follows : FollowsEip deployment.bls groups)
    (calls : List Call) :
    Runs.AllStates (callStep deployment) (KeysBind deployment)
        .initial calls ∧
      Runs.AllSteps (callStep deployment)
        (fun _ call => call.presented? = none) .initial calls := by
  have noneAccepted :
      Runs.AllSteps (callStep deployment)
        (fun _ call => call.presented? = none) .initial calls :=
    Runs.AllSteps.of_taken
      (fun taken => presented?_of_rejects follows.rejectsEmpty taken)
      .initial calls
  refine ⟨(acceptedKeys_bind_iff deployment groups follows.toComputesOn
    calls).mpr (noneAccepted.mono fun _ call isNone => ?_), noneAccepted⟩
  unfold PresentsFinite
  rw [isNone]
  trivial

/-- Zero and the generator have an encoding. -/
def sampleDecodeG1 (bytes : Bytes) : Option (ZMod 5) :=
  if bytes = List.replicate 128 0 then some 0
  else if bytes = getG1Generator then some 1
  else none

def sampleEncodeG2 (point : ZMod 5) : Bytes :=
  List.replicate 255 0 ++ [UInt8.ofNat point.val]

def sampleDecodeG2 (bytes : Bytes) : Option (ZMod 5) :=
  ((List.range 5).map Nat.cast).find? fun point =>
    bytes = sampleEncodeG2 point

theorem sampleDecodeG1_cases
    {bytes : Bytes}
    {point : ZMod 5}
    (decoded : sampleDecodeG1 bytes = some point) :
    bytes = List.replicate 128 0 ∧ point = 0 ∨
      bytes = getG1Generator ∧ point = 1 := by
  unfold sampleDecodeG1 at decoded
  split at decoded
  · exact .inl ⟨‹_›, (Option.some.inj decoded).symm⟩
  split at decoded
  · exact .inr ⟨‹_›, (Option.some.inj decoded).symm⟩
  · cases decoded

theorem eq_of_sampleDecodeG2
    {bytes : Bytes}
    {point : ZMod 5}
    (decoded : sampleDecodeG2 bytes = some point) :
    bytes = sampleEncodeG2 point := by
  have found := List.find?_some decoded
  exact of_decide_eq_true found

theorem sampleDecodeG2_encode (point : ZMod 5) :
    sampleDecodeG2 (sampleEncodeG2 point) = some point := by
  revert point
  decide +kernel

theorem length_sampleEncodeG2 (point : ZMod 5) :
    (sampleEncodeG2 point).length = 256 := by
  rw [sampleEncodeG2, List.length_append, List.length_replicate]
  rfl

/-- The integers modulo 5, as both groups and paired by multiplication. -/
def sampleGroups : PairedGroups (ZMod 5) (ZMod 5) (ZMod 5) where
  pair := AddMonoidHom.mul
  faithful := by
    intro point notZero first second same
    revert same
    revert first second
    revert notZero
    revert point
    decide
  decodeG1 := sampleDecodeG1
  decodeG2 := sampleDecodeG2
  infinityG1 := if_pos rfl
  infinityG2 := by decide +kernel
  canonicalG1 := by
    intro first second point isFirst isSecond
    rcases sampleDecodeG1_cases isFirst with ⟨rfl, rfl⟩ | ⟨rfl, rfl⟩
    · rcases sampleDecodeG1_cases isSecond with ⟨rfl, -⟩ | ⟨-, isOne⟩
      · rfl
      · exact absurd isOne (by decide)
    · rcases sampleDecodeG1_cases isSecond with ⟨-, isZero⟩ | ⟨rfl, -⟩
      · exact absurd isZero (by decide)
      · rfl
  canonicalG2 := by
    intro first second point isFirst isSecond
    rw [eq_of_sampleDecodeG2 isFirst, eq_of_sampleDecodeG2 isSecond]

theorem sampleGroups_decodeG2 (bytes : Bytes) :
    sampleGroups.decodeG2 bytes = sampleDecodeG2 bytes :=
  rfl

theorem decodeG2_sampleGroups (point : ZMod 5) :
    sampleGroups.decodeG2 (sampleEncodeG2 point) = some point := by
  rw [sampleGroups_decodeG2, sampleDecodeG2_encode]

/-- The point a field pair is mapped to. -/
def sampleMapped (input : Bytes) : ZMod 5 :=
  if ofBE input = 0 then 1 else -1

/-- A machine on those groups. -/
def sampleMachine : Machine where
  pairing := fun input =>
    if input = [] then none
    else
      sampleGroups.check (input.take 128) ((input.drop 128).take 256)
        ((input.drop 384).take 128) (input.drop 512)
  mapFp2ToG2 := fun input =>
    if ofBE (input.take 64) < BLS12381.prime ∧
        ofBE (input.drop 64) < BLS12381.prime then
      some (sampleEncodeG2 (sampleMapped input))
    else none
  g2Add := fun input =>
    match sampleDecodeG2 (input.take 256),
        sampleDecodeG2 (input.drop 256) with
    | some first, some second => some (sampleEncodeG2 (first + second))
    | _, _ => none
  sha256 := fun bytes =>
    if 96 < bytes.length then
      BitVec.ofNat 256 (ofBE ((bytes.drop 64).take 32))
    else BitVec.ofNat 256 (ofBE (bytes.take 32))

theorem mapFp2ToG2_sampleMachine
    {input point : Bytes}
    (mapped : sampleMachine.mapFp2ToG2 input = some point) :
    point = sampleEncodeG2 (sampleMapped input) := by
  unfold sampleMachine at mapped
  dsimp only at mapped
  split at mapped
  · exact (Option.some.inj mapped).symm
  · cases mapped

theorem g2Add_sampleMachine
    {left right : Bytes}
    {first second : ZMod 5}
    (isLeft : sampleDecodeG2 left = some first)
    (isRight : sampleDecodeG2 right = some second) :
    sampleMachine.g2Add (left ++ right) =
      some (sampleEncodeG2 (first + second)) := by
  have leftWide : left.length = 256 := by
    rw [eq_of_sampleDecodeG2 isLeft]
    exact length_sampleEncodeG2 first
  unfold sampleMachine
  dsimp only
  rw [List.take_left' leftWide, List.drop_left' leftWide, isLeft, isRight]

theorem followsEip_sampleMachine :
    FollowsEip sampleMachine sampleGroups where
  rejectsEmpty := by
    unfold sampleMachine
    dsimp only
    exact if_pos rfl
  documented := {
    mapped := by
      intro input _
      unfold sampleMachine IsFieldPair
      dsimp only
      split
      · exact ⟨fun _ => ‹_›, fun _ => rfl⟩
      · exact ⟨fun contradictory => (by cases contradictory),
          fun inField => absurd inField ‹_›⟩
    mappedTo := by
      intro input point mapped
      rw [mapFp2ToG2_sampleMachine mapped]
      exact length_sampleEncodeG2 _
    added := by
      intro left right first second isFirst isSecond
      rw [mapFp2ToG2_sampleMachine isFirst,
        mapFp2ToG2_sampleMachine isSecond]
      exact ⟨_, g2Add_sampleMachine (sampleDecodeG2_encode _)
        (sampleDecodeG2_encode _), length_sampleEncodeG2 _⟩ }
  paired := by
    intro a b c d aWide bWide cWide dWide
    have notEmpty : a ++ b ++ c ++ d ≠ [] := by
      intro isEmpty
      have noBytes := congrArg List.length isEmpty
      simp only [List.length_append, List.length_nil] at noBytes
      omega
    have fromB : (a ++ b ++ c ++ d).drop 128 = b ++ c ++ d := by
      rw [List.append_assoc, List.append_assoc, List.drop_left' aWide,
        List.append_assoc]
    have fromC : (a ++ b ++ c ++ d).drop 384 = c ++ d := by
      rw [List.append_assoc (a ++ b)]
      refine List.drop_left' ?_
      rw [List.length_append, aWide, bWide]
    have fromD : (a ++ b ++ c ++ d).drop 512 = d := by
      refine List.drop_left' ?_
      rw [List.length_append, List.length_append, aWide, bWide, cWide]
    unfold sampleMachine
    dsimp only
    rw [if_neg notEmpty, fromB, fromC, fromD, List.append_assoc,
      List.append_assoc, List.take_left' aWide, List.append_assoc,
      List.take_left' bWide, List.take_left' cWide]
  mapped := by
    intro input point mapped
    rw [mapFp2ToG2_sampleMachine mapped]
    exact ⟨_, decodeG2_sampleGroups _⟩
  added := by
    intro left right first second isLeft isRight
    exact ⟨_, g2Add_sampleMachine isLeft isRight,
      decodeG2_sampleGroups _⟩

/-- The compressed generator. -/
def generatorKey : Bytes :=
  toBE 48 0x97f1d3a73197d7942695638c4fa9ac0fc3688c4f9774b905a14e3a3f171bac586c55e83ff97a1aeffb3af00adb22c6bb

/-- The registry at address 11 of chain 1, with the hashes of the strings that
the calls below hash. -/
def sampleDeployment : Deployment :=
  let separator :=
    0x7adaa1479b1ec0b110dec18125fa42453811caebcfcd8ba3c78027c015299036
  let hashes : List (Bytes × Bytes32) :=
    [(POP_DOMAIN_TEXT ++ toBE 32 1 ++ addressBytes 0xb, separator),
      (bytes32Bytes separator ++ addressBytes 1 ++
          BLSDecompression.infinity 48,
        0x58e0d8bb049dbad27359c4142846154f4f940a6dbf96c72e51a775b72d082f3f),
      (bytes32Bytes separator ++ addressBytes 2 ++ generatorKey,
        0x68ca2523cc0c26217fcfb6a1b0f02310654f02c517bb4affb5d7e89f75bab790)]
  { keccak256 := fun bytes => (hashes.lookup bytes).getD 0
    bls := sampleMachine
    chainId := 1
    address := 0xb }

/-- A key with the signature at infinity as its proof. -/
def samplePresented
    (msgSender : Address)
    (blsPubKey : Bytes) : Presented where
  msgSender := msgSender
  blsPubKey := blsPubKey
  popSignature := BLSDecompression.infinity 96
  checkOutOfGas := false

/-- Neither the point at infinity nor the generator is accepted. -/
theorem acceptedKeys_bind_samples :
    let infinite := samplePresented 1 (BLSDecompression.infinity 48)
    let generator := samplePresented 2 generatorKey
    let calls := [Call.register infinite, .register generator]
    (register sampleDeployment infinite .initial).toOption.isNone = true ∧
      (register sampleDeployment generator .initial).toOption.isNone =
        true ∧
      Runs.AllStates (callStep sampleDeployment)
          (KeysBind sampleDeployment) .initial calls ∧
        Runs.AllSteps (callStep sampleDeployment)
          (fun _ call => call.presented? = none) .initial calls := by
  refine ⟨?_, ?_, acceptedKeys_bind sampleDeployment sampleGroups
    followsEip_sampleMachine _⟩
  · decide +kernel
  · decide +kernel

end BLSRegistry

end Bam
