import Bam.Contracts.BLSExposer

namespace Bam

open Bytewise

/-!
# The signatures of exposed messages

The exposer takes a signature check that reverts for a valid signature.  So what
it has exposed is signed exactly as long as no check reverts, and a check
reverts unless it has the gas, the probe of the precompiles is answered, both
points can be decompressed, and the signed hash expands to elements of the
field.  The probe is a pairing call without input, which EIP-2537 makes an
error: on a chain that follows it, every check reverts.
-/

namespace BLSVerifier

open BLSDecompression

/-- Two coordinates that are elements of the field. -/
def IsFieldPair (bytes : Bytes) : Prop :=
  ofBE (bytes.take 64) < BLS12381.prime ∧
    ofBE (bytes.drop 64) < BLS12381.prime

/-- What EIP-2537 says of the precompiles on the way to a point of a message:
mapping takes two field elements to a point, and points can be added. -/
structure Documented (machine : Machine) : Prop where
  mapped :
    ∀ input : Bytes, input.length = 128 →
      ((machine.mapFp2ToG2 input).isSome ↔ IsFieldPair input)
  mappedTo :
    ∀ input point : Bytes, machine.mapFp2ToG2 input = some point →
      point.length = G2_POINT_SIZE
  added :
    ∀ left right first second : Bytes,
      machine.mapFp2ToG2 left = some first →
      machine.mapFp2ToG2 right = some second →
        ∃ sum, machine.g2Add (first ++ second) = some sum ∧
          sum.length = G2_POINT_SIZE

/-- All four coordinates a hash expands to are elements of the field. -/
def ExpandsToField
    (machine : Machine)
    (messageHash : Bytes32) : Prop :=
  let expanded := expandMessageXMD machine messageHash
  IsFieldPair (expanded.take 128) ∧
    IsFieldPair ((expanded.drop 128).take 128)

/-- Both points of a check can be decompressed. -/
def Readable (publicKey signature : Bytes) : Prop :=
  (∃ point, decompressG1 publicKey = .ok point) ∧
    ∃ point, decompressG2 signature = .ok point

section

variable {machine : Machine}

theorem length_expandMessageXMD (messageHash : Bytes32) :
    (expandMessageXMD machine messageHash).length = 256 := by
  unfold expandMessageXMD
  rw [List.length_flatMap]
  simp only [bytes32Bytes, length_toBE, List.map_const',
    List.length_scanl, List.length_range']
  rfl

/-- The probe fails where a pairing call without input is an error. -/
theorem precompilesAvailable_of_rejects
    (rejects : machine.pairing [] = none) :
    precompilesAvailable machine = false := by
  unfold precompilesAvailable
  rw [rejects]

/-- A mapped half of the expansion. -/
theorem pointOf_mapped_iff
    (documented : Documented machine)
    {input : Bytes}
    (wide : input.length = 128) :
    (∃ point,
      pointOf BLS12_MAP_FP2_TO_G2 (machine.mapFp2ToG2 input) =
        .ok point) ↔ IsFieldPair input := by
  rw [← documented.mapped input wide]
  cases answer : machine.mapFp2ToG2 input with
  | none =>
      exact ⟨fun ⟨_, contradictory⟩ => (by cases contradictory),
        fun contradictory => (by cases contradictory)⟩
  | some point =>
      refine ⟨fun _ => rfl, fun _ => ⟨point, ?_⟩⟩
      unfold pointOf
      dsimp only
      rw [if_neg (not_not.mpr (documented.mappedTo input point answer))]

theorem mapped_of_pointOf
    {precompile : Address}
    {answer : Option Bytes}
    {point : Bytes}
    (returned : pointOf precompile answer = .ok point) :
    answer = some point := by
  unfold pointOf at returned
  split at returned
  · cases returned
  · split at returned
    · cases returned
    · cases returned
      rfl

/-- A message has a point exactly if its hash expands to field elements. -/
theorem hashToG2_returns_iff
    (documented : Documented machine)
    (messageHash : Bytes32) :
    (∃ point, hashToG2 machine messageHash = .ok point) ↔
      ExpandsToField machine messageHash := by
  have wide := @length_expandMessageXMD machine messageHash
  have firstWide :
      ((expandMessageXMD machine messageHash).take 128).length = 128 := by
    rw [List.length_take, wide]
    rfl
  have secondWide :
      (((expandMessageXMD machine messageHash).drop 128).take
        128).length = 128 := by
    rw [List.length_take, List.length_drop, wide]
    rfl
  unfold hashToG2 ExpandsToField
  dsimp only
  rw [← pointOf_mapped_iff documented firstWide,
    ← pointOf_mapped_iff documented secondWide]
  cases first : pointOf BLS12_MAP_FP2_TO_G2 (machine.mapFp2ToG2
      ((expandMessageXMD machine messageHash).take 128)) with
  | error error =>
      exact ⟨fun ⟨_, contradictory⟩ => (by cases contradictory),
        fun ⟨⟨_, contradictory⟩, _⟩ => (by cases contradictory)⟩
  | ok q0 =>
      cases second : pointOf BLS12_MAP_FP2_TO_G2 (machine.mapFp2ToG2
          (((expandMessageXMD machine messageHash).drop 128).take
            128)) with
      | error error =>
          exact ⟨fun ⟨_, contradictory⟩ => (by cases contradictory),
            fun ⟨_, ⟨_, contradictory⟩⟩ => (by cases contradictory)⟩
      | ok q1 =>
          obtain ⟨sum, isSum, isWide⟩ :=
            documented.added _ _ q0 q1 (mapped_of_pointOf first)
              (mapped_of_pointOf second)
          refine ⟨fun _ => ⟨⟨q0, rfl⟩, q1, rfl⟩, fun _ => ⟨sum, ?_⟩⟩
          change pointOf BLS12_G2ADD (machine.g2Add (q0 ++ q1)) = _
          unfold pointOf
          rw [isSum]
          dsimp only
          rw [if_neg (not_not.mpr isWide)]

theorem length_of_decompressG1
    {compressed point : Bytes}
    (decompressed : decompressG1 compressed = .ok point) :
    compressed.length = G1_COMPRESSED_SIZE := by
  unfold decompressG1 at decompressed
  split at decompressed
  · cases decompressed
  · rename_i wide
    exact not_not.mp wide

theorem length_of_decompressG2
    {compressed point : Bytes}
    (decompressed : decompressG2 compressed = .ok point) :
    compressed.length = G2_COMPRESSED_SIZE := by
  unfold decompressG2 at decompressed
  split at decompressed
  · cases decompressed
  · rename_i wide
    exact not_not.mp wide

/-- A check that does not revert, and what it then returns. -/
theorem verify_of_readable
    (available : precompilesAvailable machine = true)
    {publicKey signature pkUncompressed sigUncompressed : Bytes}
    (isKey : decompressG1 publicKey = .ok pkUncompressed)
    (isSignature : decompressG2 signature = .ok sigUncompressed)
    (messageHash : Bytes32) :
    verify machine publicKey messageHash signature =
      match hashToG2 machine messageHash with
      | .error error => .error error
      | .ok messagePoint =>
          .ok (checkPairing (machine.pairing
            (getG1Generator ++ sigUncompressed ++
              negateG1 pkUncompressed ++ messagePoint))) := by
  unfold verify
  rw [if_neg (not_not.mpr (length_of_decompressG1 isKey)),
    if_neg (not_not.mpr (length_of_decompressG2 isSignature)),
    available, isKey, isSignature]
  cases hashToG2 machine messageHash with
  | error error => rfl
  | ok messagePoint => rfl

/-- A check returns exactly if the probe is answered, both points are readable
and the hash expands to field elements. -/
theorem verify_returns_iff
    (documented : Documented machine)
    (publicKey signature : Bytes)
    (messageHash : Bytes32) :
    (∃ result,
      verify machine publicKey messageHash signature = .ok result) ↔
      precompilesAvailable machine = true ∧
        Readable publicKey signature ∧
        ExpandsToField machine messageHash := by
  rw [← hashToG2_returns_iff documented]
  constructor
  · rintro ⟨result, returned⟩
    unfold verify at returned
    split at returned
    · cases returned
    split at returned
    · cases returned
    split at returned
    · cases returned
    rename_i probed
    have available : precompilesAvailable machine = true := by
      simpa using probed
    cases isKey : decompressG1 publicKey with
    | error error =>
        rw [isKey] at returned
        cases returned
    | ok pkUncompressed =>
        cases isSignature : decompressG2 signature with
        | error error =>
            rw [isKey, isSignature] at returned
            cases returned
        | ok sigUncompressed =>
            cases hashed : hashToG2 machine messageHash with
            | error error =>
                rw [isKey, isSignature, hashed] at returned
                cases returned
            | ok point =>
                exact ⟨available, ⟨⟨_, isKey⟩, _, isSignature⟩, _, rfl⟩
  · rintro ⟨available, ⟨⟨pkUncompressed, isKey⟩, sigUncompressed,
      isSignature⟩, point, hashed⟩
    rw [verify_of_readable available isKey isSignature, hashed]
    exact ⟨_, rfl⟩

/-- Where the probe fails, no signature verifies. -/
theorem not_verified_of_rejects
    (rejects : machine.pairing [] = none)
    {publicKey signature : Bytes}
    {messageHash : Bytes32}
    {result : Bool} :
    verify machine publicKey messageHash signature ≠ .ok result := by
  unfold verify
  rw [precompilesAvailable_of_rejects rejects]
  split
  · nofun
  split
  · nofun
  · nofun

end

end BLSVerifier

namespace BLSExposer

variable (deployment : Deployment)

/-- The answer of the signature check of an exposure. -/
def Exposure.answer (exposure : Exposure) : Option Bool :=
  BLSVerifier.verifyBLSExternal deployment.bls exposure.checkOutOfGas
    exposure.publicKey (deployment.signedHash exposure.claim)
    exposure.claim.signature

/-- The signature of an exposure is valid. -/
def Exposure.Verified (exposure : Exposure) : Prop :=
  BLSVerifier.verify deployment.bls exposure.publicKey
      (deployment.signedHash exposure.claim) exposure.claim.signature =
    .ok true

/-- The signature check of an exposure has its gas and does not revert. -/
structure Exposure.Checkable (exposure : Exposure) : Prop where
  hasGas : exposure.checkOutOfGas = false
  probed : BLSVerifier.precompilesAvailable deployment.bls = true
  readable :
    BLSVerifier.Readable exposure.publicKey exposure.claim.signature
  expands :
    BLSVerifier.ExpandsToField deployment.bls
      (deployment.signedHash exposure.claim)

/-- Every message id that is marked was exposed with a signature that the check
found valid. -/
def Authentic (history : History) : Prop :=
  ∀ messageId, history.exposer.exposed messageId = true →
    ∃ exposure ∈ history.exposures,
      deployment.messageId exposure.claim = messageId ∧
        exposure.answer deployment = some true ∧
        exposure.Verified deployment

/-- The signature check of a call has its gas and does not revert. -/
def ChecksSignature (call : Call) : Prop :=
  match call.claim? deployment with
  | none => True
  | some (surroundings, claim) =>
      (noteOf surroundings claim).Checkable deployment

/-- What the notes say of the contract. -/
structure Noted (history : History) : Prop where
  marked :
    ∀ messageId, history.exposer.exposed messageId = true ↔
      ∃ exposure ∈ history.exposures,
        deployment.messageId exposure.claim = messageId
  long :
    ∀ exposure ∈ history.exposures,
      26 ≤ exposure.claim.messageBytes.length
  notInvalid :
    ∀ exposure ∈ history.exposures,
      (exposure.answer deployment).getD true = true

variable {deployment}

theorem noted_deployed (record : ExposureRecord) :
    Noted deployment (.deployed record) where
  marked messageId :=
    ⟨fun contradictory => (by cases contradictory),
      fun ⟨_, member, _⟩ => (by cases member)⟩
  long exposure member := by cases member
  notInvalid exposure member := by cases member

/-- An answer of the check is the verifier's. -/
theorem answer_eq_some_iff
    {exposure : Exposure}
    {result : Bool} :
    exposure.answer deployment = some result ↔
      exposure.checkOutOfGas = false ∧
        BLSVerifier.verify deployment.bls exposure.publicKey
            (deployment.signedHash exposure.claim)
            exposure.claim.signature = .ok result :=
  BLSVerifier.verifyBLSExternal_eq_some_iff

/-- The check of an exposure answers exactly if it has its gas and does not
revert. -/
theorem answers_iff
    (documented : BLSVerifier.Documented deployment.bls)
    (exposure : Exposure) :
    (∃ result, exposure.answer deployment = some result) ↔
      exposure.Checkable deployment := by
  constructor
  · rintro ⟨result, answered⟩
    obtain ⟨hasGas, verified⟩ := answer_eq_some_iff.mp answered
    obtain ⟨probed, readable, expands⟩ :=
      (BLSVerifier.verify_returns_iff documented _ _ _).mp
        ⟨result, verified⟩
    exact ⟨hasGas, probed, readable, expands⟩
  · rintro ⟨hasGas, probed, readable, expands⟩
    obtain ⟨result, verified⟩ :=
      (BLSVerifier.verify_returns_iff documented _ _ _).mpr
        ⟨probed, readable, expands⟩
    exact ⟨result, answer_eq_some_iff.mpr ⟨hasGas, verified⟩⟩

/-- A check that answers for an exposure has found its signature valid. -/
theorem verified_of_checkable
    (documented : BLSVerifier.Documented deployment.bls)
    {history : History}
    (noted : Noted deployment history)
    {exposure : Exposure}
    (member : exposure ∈ history.exposures)
    (checkable : exposure.Checkable deployment) :
    exposure.answer deployment = some true ∧
      exposure.Verified deployment := by
  obtain ⟨result, answered⟩ :=
    (answers_iff documented exposure).mpr checkable
  have valid := noted.notInvalid exposure member
  rw [answered] at valid
  have isTrue : result = true := valid
  subst isTrue
  exact ⟨answered, (answer_eq_some_iff.mp answered).2⟩

/-- The notes stay true of the contract. -/
theorem noted_callStep
    {history next : History}
    {call : Call}
    (noted : Noted deployment history)
    (taken : callStep deployment history call = some next) :
    Noted deployment next := by
  rcases callStep_cases taken with
    ⟨surroundings, claim, messageId, exposer, -, exposed, rfl⟩ |
      ⟨_, _, _, _, _, _, record, -, -, rfl⟩
  · obtain ⟨long, -, valid, rfl⟩ := exposeClaim_ok exposed
    refine ⟨fun other => ?_, ?_, ?_⟩
    · simp only [List.exists_mem_cons_iff, noteOf]
      rw [← noted.marked]
      by_cases same : other = deployment.messageId claim
      · subst same
        simp
      · rw [Function.update_of_ne same]
        exact ⟨.inr, fun marked =>
          marked.resolve_left fun isSame => same isSame.symm⟩
    · exact List.forall_mem_cons.mpr ⟨long, noted.long⟩
    · exact List.forall_mem_cons.mpr ⟨valid, noted.notInvalid⟩
  · exact ⟨noted.marked, noted.long, noted.notInvalid⟩

/-- A call from an authentic history leads to an authentic history exactly if
its signature check answers. -/
theorem authentic_callStep_iff
    (documented : BLSVerifier.Documented deployment.bls)
    {history next : History}
    {call : Call}
    (noted : Noted deployment history)
    (authentic : Authentic deployment history)
    (taken : callStep deployment history call = some next) :
    Authentic deployment next ↔ ChecksSignature deployment call := by
  have nextNoted := noted_callStep noted taken
  rcases callStep_cases taken with
    ⟨surroundings, claim, messageId, exposer, isClaim, exposed, rfl⟩ |
      ⟨_, _, _, _, _, _, record, rfl, -, rfl⟩
  · unfold ChecksSignature
    rw [isClaim]
    dsimp only
    obtain ⟨-, fresh, -, rfl⟩ := exposeClaim_ok exposed
    constructor
    · intro isAuthentic
      obtain ⟨exposure, member, sameId, answered, -⟩ :=
        isAuthentic (deployment.messageId claim)
          (Function.update_self ..)
      rcases List.mem_cons.mp member with isNew | isOld
      · subst isNew
        exact (answers_iff documented _).mp ⟨true, answered⟩
      · have marked :=
          (noted.marked _).mpr ⟨exposure, isOld, sameId⟩
        rw [fresh] at marked
        cases marked
    · intro checkable other marked
      by_cases same : other = deployment.messageId claim
      · exact ⟨_, List.mem_cons_self, same.symm,
          verified_of_checkable documented nextNoted List.mem_cons_self
            checkable⟩
      · dsimp only at marked
        rw [Function.update_of_ne same] at marked
        obtain ⟨exposure, member, sameId, verified⟩ :=
          authentic other marked
        exact ⟨exposure, List.mem_cons_of_mem _ member, sameId, verified⟩
  · exact ⟨fun _ => trivial, fun _ => authentic⟩

/-- Where the probe fails, a call whose check answers exposes nothing. -/
theorem checksSignature_iff_of_rejects
    (rejects : deployment.bls.pairing [] = none)
    (call : Call) :
    ChecksSignature deployment call ↔ call.claim? deployment = none := by
  unfold ChecksSignature
  split
  · exact ⟨fun _ => ‹_›, fun _ => trivial⟩
  · rename_i isClaim
    refine ⟨fun checkable => ?_, fun isNone => ?_⟩
    · have probed := checkable.probed
      rw [BLSVerifier.precompilesAvailable_of_rejects rejects] at probed
      cases probed
    · rw [isClaim] at isNone
      cases isNone

/-- Everything the exposer has marked was exposed with a valid signature, in
every state of a run, if and only if no signature check of the run reverts; and
where a pairing call without input is an error, if and only if nothing is
exposed. -/
theorem exposures_authentic_iff
    (deployment : Deployment)
    (documented : BLSVerifier.Documented deployment.bls)
    (record : ExposureRecord)
    (calls : List Call) :
    (Runs.AllStates (callStep deployment) (Authentic deployment)
        (.deployed record) calls ↔
      Runs.AllSteps (callStep deployment)
        (fun _ call => ChecksSignature deployment call)
        (.deployed record) calls) ∧
      (deployment.bls.pairing [] = none →
        (Runs.AllStates (callStep deployment) (Authentic deployment)
            (.deployed record) calls ↔
          Runs.AllSteps (callStep deployment)
            (fun _ call => call.claim? deployment = none)
            (.deployed record) calls)) := by
  have checked :
      Runs.AllStates (callStep deployment) (Authentic deployment)
          (.deployed record) calls ↔
        Runs.AllSteps (callStep deployment)
          (fun _ call => ChecksSignature deployment call)
          (.deployed record) calls :=
    Runs.allStates_iff_allSteps noted_callStep
      (authentic_callStep_iff documented) calls (noted_deployed record)
      fun _ contradictory => by cases contradictory
  refine ⟨checked, fun rejects => checked.trans ?_⟩
  have same :
      (fun (_ : History) call => ChecksSignature deployment call) =
        fun _ call => call.claim? deployment = none := by
    funext _ call
    exact propext (checksSignature_iff_of_rejects rejects call)
  rw [same]

/-- The precompiles of a chain that follows EIP-2537, on which a pairing call
without input is an error.  The exposures below get no further. -/
def sampleBls : BLSVerifier.Machine where
  pairing := fun _ => none
  mapFp2ToG2 := fun input =>
    if ofBE (input.take 64) < BLS12381.prime ∧
        ofBE (input.drop 64) < BLS12381.prime then
      some (List.replicate 256 0)
    else none
  g2Add := fun _ => some (List.replicate 256 0)
  sha256 := fun _ => 0

theorem documented_sampleBls :
    BLSVerifier.Documented sampleBls where
  mapped input _ := by
    unfold sampleBls BLSVerifier.IsFieldPair
    dsimp only
    split
    · exact ⟨fun _ => ‹_›, fun _ => rfl⟩
    · exact ⟨fun contradictory => (by cases contradictory),
        fun inField => absurd inField ‹_›⟩
  mappedTo input point mapped := by
    unfold sampleBls at mapped
    dsimp only at mapped
    split at mapped
    · cases mapped
      exact List.length_replicate
    · cases mapped
  added _ _ _ _ _ _ := ⟨_, rfl, List.length_replicate⟩

/-- The opening of the zero blob at its first element. -/
def zeroProof : KZGProof where
  z := 0
  y := 0
  commitment := BLSDecompression.infinity 48
  proof := BLSDecompression.infinity 48

def zeroBlobHash : Bytes32 :=
  0x010657f37554c781402a22917dee2f75def7ab966d7b770905398eba3c444014

/-- A message that is zero but for its timestamp. -/
def sampleMessage (timestamp : Nat) : Bytes :=
  List.replicate 20 0 ++ toBE 4 timestamp ++ [0, 0]

/-- The hashes of the strings that the exposures below hash, on chain 1. -/
def sampleHashes : List (Bytes × Bytes32) :=
  let domain :=
    0x1c80a169cf8b641d46de84a513f4c9a0063279a7b3ba97fe4b21af78967d0f3e
  let packed :=
    0x2af357fc2ab2964b76482ec0fcac3b86f5aca1a8292676023c8b9ec392d821a0
  let undated :=
    0xa533db48442c1c18882149f8a3b768b48288edf57aecf5122aa8b9170d52dcb2
  let dated :=
    0x81ea773bf2fa43733e1d6d9567c6ee453794991eb851dd254976504cbbc0c162
  let padded :=
    0x9f6917e65eaaa2e4d82f37a79297837a3244c5fe2ca8f5392f3e9ad5ab968c56
  [(DOMAIN_TEXT ++ toBE 32 1, domain),
    (List.replicate 60 0, packed),
    (bytes32Bytes domain ++ bytes32Bytes packed,
      0x2c21518a123a8484c1ffdbd009ba295b8261e8e82fcac47f2199eb3d162a8509),
    (sampleMessage 0, undated),
    (sampleMessage 1, dated),
    (sampleMessage 0 ++ [1], padded),
    (List.replicate 60 0 ++ bytes32Bytes undated,
      0xeacabe1f5f15c90b4cfb8ac3043be0dc7a8c579cab60b132fef72499415a3df6),
    (List.replicate 60 0 ++ bytes32Bytes dated,
      0x44e26cdf330ab40aeac440f063778769d4304a15c607e0dd2945b312d75ff67c),
    (List.replicate 60 0 ++ bytes32Bytes padded,
      0x4856018390b79a81a0ac5371ba05420d9a9e010f0e98fd4c97d77670b034e52d),
    (List.replicate 60 0 ++ bytes32Bytes zeroBlobHash,
      0x56f2d0bbd762769f69f54b44ad1a79418297106bd7f2d53eb0212227f8442e5f)]

/-- The opening of the zero blob is accepted. -/
def sampleDeployment : Deployment where
  kzg := {
    pointEvaluation := fun input =>
      if input = KZGVerifier.precompileInput zeroBlobHash zeroProof then
        some KZGVerifier.expectedOutput
      else none
    keccak256 := fun bytes => (sampleHashes.lookup bytes).getD 0 }
  bls := sampleBls
  chainId := 1
  address := 0xe
  records := true

/-- The registered key is the generator. -/
def sampleSurroundings : Surroundings where
  blockTimestamp := 1
  verifyRegistration := fun _ _ => true
  getKey := fun _ =>
    toBE 48 0x97f1d3a73197d7942695638c4fa9ac0fc3688c4f9774b905a14e3a3f171bac586c55e83ff97a1aeffb3af00adb22c6bb
  checkOutOfGas := false
  recordOutOfGas := false

/-- A message at the start of its batch. -/
def sampleParams
    (timestamp : Nat)
    (padding signature : Bytes) : CalldataParams where
  batchData := sampleMessage timestamp ++ padding
  messageOffset := 0
  messageBytes := sampleMessage timestamp
  signature := signature
  registrationProof := []
  contentTag := 0

def sampleCall
    (timestamp : Nat)
    (padding signature : Bytes) : Call :=
  .exposeFromCalldata sampleSurroundings
    (sampleParams timestamp padding signature)

/-- No bytes are taken for a signature. -/
theorem exposes_unsigned :
    BLSVerifier.Documented sampleDeployment.bls ∧
      ¬Runs.AllStates (callStep sampleDeployment)
        (Authentic sampleDeployment) (.deployed .initial)
        [sampleCall 0 [] []] := by
  refine ⟨documented_sampleBls, fun all => ?_⟩
  cases taken :
      callStep sampleDeployment (.deployed .initial)
        (sampleCall 0 [] []) with
  | none =>
      have isTaken :
          (callStep sampleDeployment (.deployed .initial)
            (sampleCall 0 [] [])).isSome = true := by
        decide +kernel
      rw [taken] at isTaken
      cases isTaken
  | some next =>
      have later := all.2
      simp only [taken] at later
      have checked :=
        (authentic_callStep_iff documented_sampleBls
          (noted_deployed .initial) all.1 taken).mp later
      obtain ⟨-, -, ⟨-, point, decompressed⟩, -⟩ := checked
      cases BLSVerifier.length_of_decompressG2 decompressed

/-- On the chain of the samples, a message is exposed although no check answers;
a run that only writes to the record stays authentic. -/
theorem exposures_authentic_on_chain :
    ¬Runs.AllStates (callStep sampleDeployment)
        (Authentic sampleDeployment) (.deployed .initial)
        [.record 0xb 1 7 0xb 0 7,
          sampleCall 0 [] (BLSDecompression.infinity 96)] ∧
      Runs.AllStates (callStep sampleDeployment)
        (Authentic sampleDeployment) (.deployed .initial)
        [.record 0xb 1 7 0xb 0 7] := by
  constructor
  · intro all
    have nothing :=
      ((exposures_authentic_iff sampleDeployment documented_sampleBls
        .initial _).2 rfl).mp all
    revert nothing
    decide +kernel
  · refine ((exposures_authentic_iff sampleDeployment documented_sampleBls
      .initial _).2 rfl).mpr ?_
    decide +kernel

end BLSExposer

end Bam
