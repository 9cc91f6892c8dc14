import Mathlib.Algebra.Order.Ring.GeomSum
import Mathlib.Algebra.Polynomial.Degree.Lemmas
import Mathlib.Tactic.ReduceModChar
import Mathlib.Tactic.LinearCombination
import Bam.Contracts.ExposureOpenings

namespace Bam

open Bytewise
open Polynomial

/-!
# Blobs of two field elements

The first half of the blob repeats one field element and the second half
another.  The polynomial of such a blob has two terms, so its values at
field-element indices can be told.  With one field element for both halves it is
constant, every opening is the point at infinity, and messages are exposed; with
two it is not.
-/

/-- The number of field elements of one half. -/
@[irreducible] def halfBlob : Nat := 2048

theorem halfBlob_eq :
    halfBlob = 2048 := by
  unfold halfBlob
  rfl

theorem rootOfUnity_pow_half :
    rootOfUnity ^ halfBlob = -1 := by
  have exponent :
      (BLS_MODULUS - 1) / FIELD_ELEMENTS_PER_BLOB * halfBlob =
        26217937587563095239723870254092982918845276250263818911301829349969290592256 := by
    rw [halfBlob_eq]
    decide
  rw [rootOfUnity, ← pow_mul, exponent]
  have power :
      (7 : ZMod
          52435875175126190479447740508185965837690552500527637822603658699938581184513) ^
          26217937587563095239723870254092982918845276250263818911301829349969290592256 =
        -1 := by
    reduce_mod_char
  exact power

/-- Bit reversal takes the first half of the indices to the even ones. -/
theorem even_bitReverse_iff
    {index : Nat}
    (inside : index < FIELD_ELEMENTS_PER_BLOB) :
    Even (bitReverse index) ↔ index < halfBlob := by
  have lowBit :
      (bitReverse index).testBit 0 = index.testBit 11 := by
    rw [bitReverse, BitVec.testBit_toNat, BitVec.getLsbD_reverse,
      BitVec.getMsbD_eq_getLsbD, BitVec.getLsbD_ofNat]
    rfl
  rw [Nat.testBit_zero, Nat.testBit_eq_decide_div_mod_eq,
    decide_eq_decide] at lowBit
  simp only [FIELD_ELEMENTS_PER_BLOB] at inside
  rw [Nat.even_iff, halfBlob_eq]
  omega

/-- The inverse of two. -/
def half : ScalarField :=
  ((BLS_MODULUS + 1) / 2 : Nat)

theorem two_mul_half :
    2 * half = 1 := by
  have whole : 2 * ((BLS_MODULUS + 1) / 2) = BLS_MODULUS + 1 := by
    decide
  have cast :
      ((2 * ((BLS_MODULUS + 1) / 2) : Nat) : ScalarField) =
        ((BLS_MODULUS + 1 : Nat) : ScalarField) :=
    congrArg Nat.cast whole
  rw [Nat.cast_mul, Nat.cast_add, ZMod.natCast_self, zero_add] at cast
  simpa [half] using cast

def splitMean (first second : Nat) : ScalarField :=
  half * (first + second)

def splitSlope (first second : Nat) : ScalarField :=
  half * (first - second)

/-- The value at a point. -/
def splitValue
    (first second : Nat)
    (point : ScalarField) : ScalarField :=
  splitMean first second + splitSlope first second * point ^ halfBlob

noncomputable def splitPolynomial (first second : Nat) : ScalarField[X] :=
  C (splitMean first second) + C (splitSlope first second) * X ^ halfBlob

theorem eval_twoTerms
    {R : Type*}
    [CommRing R]
    (constant slope point : R)
    (power : Nat) :
    (C constant + C slope * X ^ power).eval point =
      constant + slope * point ^ power := by
  simp

theorem degree_twoTerms_lt
    {R : Type*}
    [CommRing R]
    (constant slope : R)
    {power bound : Nat}
    (small : power < bound) :
    (C constant + C slope * X ^ power).degree < (bound : WithBot Nat) := by
  have first : (C constant).degree ≤ (power : WithBot Nat) :=
    degree_C_le.trans (WithBot.coe_le_coe.mpr (Nat.zero_le power))
  have second :
      (C slope * X ^ power).degree ≤ (power : WithBot Nat) :=
    degree_C_mul_X_pow_le _ _
  exact lt_of_le_of_lt
    ((degree_add_le _ _).trans (max_le first second))
    (WithBot.coe_lt_coe.mpr small)

theorem eval_splitPolynomial
    (first second : Nat)
    (point : ScalarField) :
    (splitPolynomial first second).eval point =
      splitValue first second point := by
  unfold splitPolynomial splitValue
  apply eval_twoTerms

theorem splitPolynomial_degree
    (first second : Nat) :
    (splitPolynomial first second).degree <
      (FIELD_ELEMENTS_PER_BLOB : WithBot Nat) :=
  degree_twoTerms_lt _ _ (by
    rw [halfBlob_eq]
    decide)

theorem splitValue_one
    {first second : Nat}
    {point : ScalarField}
    (isOne : point ^ halfBlob = 1) :
    splitValue first second point = first := by
  have twice := two_mul_half
  rw [splitValue, splitMean, splitSlope, isOne]
  linear_combination (first : ScalarField) * twice

theorem splitValue_neg_one
    {first second : Nat}
    {point : ScalarField}
    (isNegOne : point ^ halfBlob = -1) :
    splitValue first second point = second := by
  have twice := two_mul_half
  rw [splitValue, splitMean, splitSlope, isNegOne]
  linear_combination (second : ScalarField) * twice

/-- Without a difference between the halves the polynomial is constant. -/
theorem splitValue_same
    (value : Nat)
    (point : ScalarField) :
    splitValue value value point = value := by
  have twice := two_mul_half
  rw [splitValue, splitMean, splitSlope]
  linear_combination (value : ScalarField) * twice

/-- The field elements of a split blob. -/
def splitElements (first second : Bytes) : List Bytes :=
  List.replicate halfBlob first ++ List.replicate halfBlob second

def splitBlob (first second : Bytes) : Bytes :=
  (splitElements first second).flatten

/-- A field element below the modulus. -/
structure Reduced (fe : Bytes) : Prop where
  wide : fe.length = BYTES_PER_FIELD_ELEMENT
  small : ofBE fe < BLS_MODULUS

section Halves

variable {first second : Bytes}

theorem splitElements_mem
    {fe : Bytes}
    (member : fe ∈ splitElements first second) :
    fe = first ∨ fe = second := by
  rcases List.mem_append.mp member with isFirst | isSecond
  · exact .inl (List.eq_of_mem_replicate isFirst)
  · exact .inr (List.eq_of_mem_replicate isSecond)

theorem length_splitElements :
    (splitElements first second).length = FIELD_ELEMENTS_PER_BLOB := by
  rw [splitElements, List.length_append, List.length_replicate,
    List.length_replicate, halfBlob_eq]
  rfl

theorem splitElements_wide
    (isFirst : Reduced first)
    (isSecond : Reduced second) :
    ∀ fe ∈ splitElements first second,
      fe.length = BYTES_PER_FIELD_ELEMENT := by
  intro fe member
  rcases splitElements_mem member with rfl | rfl
  · exact isFirst.wide
  · exact isSecond.wide

theorem fieldElements_splitBlob
    (isFirst : Reduced first)
    (isSecond : Reduced second) :
    fieldElements (splitBlob first second) =
      splitElements first second :=
  fieldElements_flatten (splitElements_wide isFirst isSecond)
    length_splitElements

theorem canonicalBlob_splitBlob
    (isFirst : Reduced first)
    (isSecond : Reduced second) :
    CanonicalBlob (splitBlob first second) := by
  refine ⟨?_, ?_⟩
  · rw [splitBlob, length_flatten_elements
      (splitElements_wide isFirst isSecond) length_splitElements,
      blobSize_eq]
  · intro fe member
    rw [fieldElements_splitBlob isFirst isSecond] at member
    rcases splitElements_mem member with rfl | rfl
    · exact isFirst.small
    · exact isSecond.small

theorem blobValue_splitBlob
    (isFirst : Reduced first)
    (isSecond : Reduced second)
    {index : Nat}
    (inside : index < FIELD_ELEMENTS_PER_BLOB) :
    blobValue (splitBlob first second) index =
      if index < halfBlob then ofBE first else ofBE second := by
  have isElement :
      (fieldElements (splitBlob first second))[index]? =
        some (block BYTES_PER_FIELD_ELEMENT (splitBlob first second)
          index) :=
    getElem?_fieldElements inside
  rw [fieldElements_splitBlob isFirst isSecond, splitElements]
    at isElement
  simp only [FIELD_ELEMENTS_PER_BLOB] at inside
  have isHalf := halfBlob_eq
  rw [blobValue]
  split
  · rename_i inFirst
    rw [List.getElem?_append_left
      (by rw [List.length_replicate]; exact inFirst),
      List.getElem?_replicate_of_lt inFirst] at isElement
    rw [← Option.some.inj isElement]
  · rename_i inSecond
    rw [List.getElem?_append_right
      (by rw [List.length_replicate]; omega),
      List.length_replicate,
      List.getElem?_replicate_of_lt (by omega)] at isElement
    rw [← Option.some.inj isElement]

/-- The polynomial of a split blob. -/
noncomputable def splitBlobPolynomial
    (isFirst : Reduced first)
    (isSecond : Reduced second) :
    BlobPolynomial (splitBlob first second) where
  polynomial := splitPolynomial (ofBE first) (ofBE second)
  lowDegree := splitPolynomial_degree _ _
  interpolates := by
    intro index inside
    have power :
        (rootOfUnity ^ bitReverse index) ^ halfBlob =
          (-1) ^ bitReverse index := by
      rw [← pow_mul, Nat.mul_comm, pow_mul, rootOfUnity_pow_half]
    have parity := even_bitReverse_iff inside
    rw [eval_splitPolynomial, blobValue_splitBlob isFirst isSecond inside]
    split
    · rename_i inFirst
      apply splitValue_one
      rw [power, (parity.mpr inFirst).neg_one_pow]
    · rename_i inSecond
      apply splitValue_neg_one
      have odd : Odd (bitReverse index) :=
        Nat.not_even_iff_odd.mp (fun even => inSecond (parity.mp even))
      rw [power, odd.neg_one_pow]

end Halves

/-- The difference of the values at the secret and at a point, divided by that
of the two points. -/
def splitQuotient
    (first second : Nat)
    (point : ScalarField) : ScalarField :=
  splitSlope first second *
    ∑ power ∈ Finset.range halfBlob,
      TESTING_SECRET ^ power * point ^ (halfBlob - 1 - power)

/-- The division leaves no remainder. -/
theorem splitQuotient_mul
    (first second : Nat)
    (point : ScalarField) :
    splitQuotient first second point * (TESTING_SECRET - point) =
      splitValue first second TESTING_SECRET -
        splitValue first second point := by
  rw [splitQuotient, mul_assoc, geom_sum₂_mul, splitValue, splitValue]
  ring

/-- The opening at a point, under the testing setup. -/
@[irreducible] def splitOpening
    (first second : Nat)
    (point : ScalarField) : G1Point :=
  G1.compress
    (G1.multiple (splitQuotient first second point).val G1.GENERATOR)

/-- Every opening of a constant polynomial is the point at infinity. -/
theorem splitOpening_same
    (value : Nat)
    (point : ScalarField) :
    splitOpening value value point = G1.compress none := by
  rw [splitOpening, splitQuotient, splitSlope, sub_self, mul_zero,
    zero_mul, ZMod.val_zero, G1.multiple_zero]

/-- The library under the testing setup on one split blob, given the challenge
of its proof. -/
def splitLibrary
    (first second : Bytes)
    (challenge : ScalarField)
    (sha256 : Bytes → Bytes32) : KzgModule :=
  { testingKzg sha256 with
    setupLoaded := true
    computeBlobKzgProof := fun blob commitment =>
      if blob = splitBlob first second ∧
          commitment = testingCommitment (splitBlob first second) then
        some (splitOpening (ofBE first) (ofBE second) challenge)
      else none }

/-- What a proof has to be for the precompile on a split blob. -/
abbrev SplitOpens
    (first second : Bytes)
    (z y : Nat)
    (proof : G1Point) : Prop :=
  z < BLS_MODULUS ∧
    y < BLS_MODULUS ∧
    splitValue (ofBE first) (ofBE second) (z : ScalarField) =
      (y : ScalarField) ∧
    proof = splitOpening (ofBE first) (ofBE second) (z : ScalarField)

/-- The precompile on a split blob: it takes the input apart again and
compares. -/
def splitPointEvaluation
    (first second : Bytes)
    (versionedHash : Bytes32)
    (input : Bytes) : Option Bytes :=
  if input.take 32 = toBE 32 versionedHash.toNat ∧
      (input.drop 96).take 48 =
        testingCommitment (splitBlob first second) ∧
      SplitOpens first second (ofBE ((input.drop 32).take 32))
        (ofBE ((input.drop 64).take 32)) (input.drop 144) then
    some KZGVerifier.expectedOutput
  else
    none

def splitMachine
    (first second : Bytes)
    (versionedHash : Bytes32) : KZGVerifier.Machine where
  pointEvaluation := splitPointEvaluation first second versionedHash
  keccak256 := fun bytes =>
    if bytes = KZGVerifier.expectedOutput then
      0xb2157d3a40131b14c4c675335465dffde802f0ce5218ad012284d7f275d1b37c
    else 0

section Openings

variable {first second : Bytes}
variable {versionedHash : Bytes32}

theorem splitMachine_pointEvaluation :
    (splitMachine first second versionedHash).pointEvaluation =
      splitPointEvaluation first second versionedHash :=
  rfl

/-- What the precompile reads out of its input. -/
theorem splitPointEvaluation_input
    {proof : KZGProof}
    (isCommitment :
      proof.commitment = testingCommitment (splitBlob first second))
    (zFits : proof.z < 2 ^ 256)
    (yFits : proof.y < 2 ^ 256) :
    splitPointEvaluation first second versionedHash
        (KZGVerifier.precompileInput versionedHash proof) =
      if SplitOpens first second proof.z proof.y proof.proof then
        some KZGVerifier.expectedOutput
      else
        none := by
  have shape :
      KZGVerifier.precompileInput versionedHash proof =
        toBE 32 versionedHash.toNat ++
          (toBE 32 proof.z ++
            (toBE 32 proof.y ++
              (testingCommitment (splitBlob first second) ++
                proof.proof))) := by
    simp only [KZGVerifier.precompileInput, isCommitment,
      List.append_assoc]
  have pointWidth :
      (testingCommitment (splitBlob first second)).length = 48 :=
    length_testingCommitment _
  have behindHash := congrArg (List.drop 32) shape
  rw [List.drop_left' (length_toBE 32 _)] at behindHash
  have behindPoint := congrArg (List.drop 32) behindHash
  rw [List.drop_drop, List.drop_left' (length_toBE 32 proof.z)]
    at behindPoint
  have behindValue := congrArg (List.drop 32) behindPoint
  rw [List.drop_drop, List.drop_left' (length_toBE 32 proof.y)]
    at behindValue
  have behindCommitment := congrArg (List.drop 48) behindValue
  rw [List.drop_drop, List.drop_left' pointWidth] at behindCommitment
  have hash := congrArg (List.take 32) shape
  rw [List.take_left' (length_toBE 32 _)] at hash
  rw [splitPointEvaluation, hash, behindHash, behindPoint, behindValue,
    behindCommitment, List.take_left' (length_toBE 32 proof.z),
    List.take_left' (length_toBE 32 proof.y),
    List.take_left' pointWidth, ofBE_toBE_of_lt zFits,
    ofBE_toBE_of_lt yFits]
  simp only [true_and]

theorem splitMachine_accepts
    {proof : KZGProof}
    (isCommitment :
      proof.commitment = testingCommitment (splitBlob first second))
    (opens : SplitOpens first second proof.z proof.y proof.proof) :
    KZGVerifier.Accepted (splitMachine first second versionedHash)
      versionedHash proof := by
  have modulusFits : BLS_MODULUS < 2 ^ 256 := by
    decide
  have evaluated :=
    @splitPointEvaluation_input first second versionedHash _ isCommitment
      (opens.1.trans modulusFits) (opens.2.1.trans modulusFits)
  rw [if_pos opens] at evaluated
  rw [KZGVerifier.Accepted, splitMachine_pointEvaluation, evaluated]

theorem splitMachine_rejects
    {proof : KZGProof}
    (isCommitment :
      proof.commitment = testingCommitment (splitBlob first second))
    (zFits : proof.z < 2 ^ 256)
    (yFits : proof.y < 2 ^ 256)
    (closed : ¬SplitOpens first second proof.z proof.y proof.proof) :
    (splitMachine first second versionedHash).pointEvaluation
        (KZGVerifier.precompileInput versionedHash proof) =
      none := by
  have evaluated :=
    @splitPointEvaluation_input first second versionedHash _ isCommitment
      zFits yFits
  rw [if_neg closed] at evaluated
  rw [splitMachine_pointEvaluation, evaluated]

/-- An opening of the polynomial of a split blob. -/
theorem opens_splitBlobPolynomial_iff
    (isFirst : Reduced first)
    (isSecond : Reduced second)
    {proof : KZGProof} :
    (splitBlobPolynomial isFirst isSecond).Opens
        (splitOpening (ofBE first) (ofBE second)) proof ↔
      SplitOpens first second proof.z proof.y proof.proof := by
  have isValue :=
    eval_splitPolynomial (ofBE first) (ofBE second)
      (proof.z : ScalarField)
  constructor
  · intro opens
    exact ⟨opens.pointReduced, opens.valueReduced,
      isValue.symm.trans opens.value, opens.isOpening⟩
  · rintro ⟨pointReduced, valueReduced, value, isOpening⟩
    exact ⟨pointReduced, valueReduced, isValue.trans value, isOpening⟩

/-- The versioned hash of a split blob. -/
def splitHash
    (first second : Bytes)
    (challenge : ScalarField)
    (sha256 : Bytes → Bytes32) : Bytes32 :=
  (splitLibrary first second challenge sha256).computeVersionedHash
    (testingCommitment (splitBlob first second))

/-- The openings of a blob of two field elements. -/
noncomputable def splitOpenings
    (isFirst : Reduced first)
    (isSecond : Reduced second)
    (challenge : ScalarField)
    (sha256 : Bytes → Bytes32) :
    BlobOpenings (splitLibrary first second challenge sha256)
      (splitMachine first second
        (splitHash first second challenge sha256))
      (splitBlob first second) where
  toBlobPolynomial := splitBlobPolynomial isFirst isSecond
  commitment := testingCommitment (splitBlob first second)
  opening := splitOpening (ofBE first) (ofBE second)
  challenge := challenge
  canonical := canonicalBlob_splitBlob isFirst isSecond
  commits :=
    blobToKzgCommitment_testingKzg sha256
      (canonicalBlob_splitBlob isFirst isSecond)
  proves := by
    simp only [splitLibrary, and_self, if_true]
  accepts := by
    intro proof isCommitment opens
    exact splitMachine_accepts isCommitment
      ((opens_splitBlobPolynomial_iff isFirst isSecond).mp opens)
  rejects := by
    intro proof isCommitment zFits yFits closed
    apply splitMachine_rejects isCommitment zFits yFits
    intro opens
    exact closed
      ((opens_splitBlobPolynomial_iff isFirst isSecond).mpr opens)

end Openings

/-- A message at the start of a batch at the start of a blob is exposed where
the polynomial is constant. -/
theorem splitOpenings_exposable
    {fe : Bytes}
    (isElement : Reduced fe)
    (challenge : ScalarField)
    (sha256 : Bytes → Bytes32)
    {message : ParsedMessage}
    (parsedIn : ParsedIn (splitBlob fe fe) 0 message) :
    (splitOpenings isElement isElement challenge sha256).Exposable
      message := by
  have atStart : message.absoluteByteOffset = message.byteOffset := by
    rw [parsedIn.absolute, Nat.zero_add]
  have wide := parsedIn.wide
  have nonempty : 0 < message.byteLength := by
    simp only [RAW_MESSAGE_MIN] at wide
    omega
  refine ⟨by rw [atStart], by rw [atStart], ?_⟩
  intro index _ small
  have inside : index < FIELD_ELEMENTS_PER_BLOB :=
    lt_of_lt_of_le small
      (touchedFEs_inside nonempty (atStart ▸ parsedIn.inside))
  have isValue :=
    eval_splitPolynomial (ofBE fe) (ofBE fe) (index : ScalarField)
  refine ⟨isValue.trans ?_,
    (splitOpening_same _ _).trans (splitOpening_same _ _).symm⟩
  rw [splitValue_same, blobValue_splitBlob isElement isElement inside,
    ite_self]

/-- The usable bytes of the first field elements. -/
theorem usableBytes_splitBlob
    {usable second : Bytes}
    (isFirst : Reduced (0x00 :: usable))
    (isSecond : Reduced second) :
    ∃ rest,
      usableBytes (splitBlob (0x00 :: usable) second) =
        usable ++ usable ++ usable ++ rest := by
  have count : halfBlob = 3 + (halfBlob - 3) := by
    have isHalf := halfBlob_eq
    omega
  refine ⟨(List.replicate (halfBlob - 3) (0x00 :: usable) ++
    List.replicate halfBlob second).flatMap (·.drop 1), ?_⟩
  rw [usableBytes, fieldElements_splitBlob isFirst isSecond,
    splitElements]
  have first :
      List.replicate halfBlob (0x00 :: usable) =
        List.replicate 3 (0x00 :: usable) ++
          List.replicate (halfBlob - 3) (0x00 :: usable) := by
    rw [List.replicate_append_replicate, ← count]
  rw [first, List.append_assoc, List.flatMap_append]
  congr 1
  simp [List.replicate_succ]

/-- 31 bytes that, repeated, are the start of an exposure batch of one
message. -/
def repeatingBlock : Bytes :=
  [0x53, 0x4f, 0x42, 0x32, 0x01, 0x01, 0x00, 0x01] ++
    List.replicate 18 0 ++ [0x1a] ++ List.replicate 4 0

/-- What repeats behind the header fields is taken for the signature. -/
def repeatingSignature : Bytes :=
  repeatingBlock.drop 8 ++ repeatingBlock.take 25

def repeatingMessage : ExposureMessage where
  sender :=
    addressOfBytes
      (repeatingBlock.drop 27 ++ repeatingBlock.take 16)
  timestamp := 0
  nonce := 0
  content := []

def repeatingBatch : ExposureBatch where
  data := (repeatingBlock ++ repeatingBlock ++ repeatingBlock).take 84
  headerSize := 56
  totalSize := 84
  messageCount := 1
  messageOffsets := [58]
  messageLengths := [26]

theorem encode_repeatingMessage :
    encodeExposureBatch [repeatingMessage] (some repeatingSignature) =
      .ok repeatingBatch := by
  decide

theorem reduced_repeatingBlock :
    Reduced (0x00 :: repeatingBlock) where
  wide := by decide
  small := by decide

/-- The hash of the message that repeats. -/
def repeatingKeccak (bytes : Bytes) : Bytes32 :=
  if bytes = rawMessageBytes repeatingMessage then
    0xf85542c5597c29fb0fb7f83231d70dc2b99341be98d2ce3aafd972161a730cb3
  else 0

/-- The hashes of the commitments to the blobs below. -/
def repeatingSha256 (bytes : Bytes) : Bytes32 :=
  if bytes =
      toBE 48
        0xa083443e78cc252fa1242f8a87d1e9eff519c08fab26ed6d1954e03c20d5aef831081ec65b0a7f44321f6da7a587310c then
    0x039119adcd994fd04d6a47cc8504b1b001716537230a02a964893aae0326decb
  else if bytes =
      toBE 48
        0x85000432b69dfea51aa33cbe44ecca5f892b630c4e30c744214ad9d812cae0d87857942cc233971e4f9a60e7e082137a then
    0x6ec9b7acd24714f765fcd1636bf8b9721bf1badbfb6b2df04c8f98cb551dad15
  else 0

/-- Every blob that begins with the repeating block parses, into one message at
its start. -/
theorem parseBlob_repeating
    (kzg : KzgModule)
    {second : Bytes}
    (isSecond : Reduced second)
    (versionedHash : Bytes32) :
    ∃ parsed message,
      kzg.parseBlob repeatingKeccak
          (splitBlob (0x00 :: repeatingBlock) second)
          { batchStartOffset := none
            versionedHash := some versionedHash } = .ok parsed ∧
      message ∈ parsed.messages ∧
      ParsedIn (splitBlob (0x00 :: repeatingBlock) second) 0 message ∧
      message.byteOffset = 58 ∧
      message.byteLength = 26 := by
  have written := encodeExposureBatch_eq_ok encode_repeatingMessage
  have canonical :=
    canonicalBlob_splitBlob reduced_repeatingBlock isSecond
  obtain ⟨rest, isUsable⟩ :=
    usableBytes_splitBlob reduced_repeatingBlock isSecond
  have begins :
      repeatingBlock ++ repeatingBlock ++ repeatingBlock =
        repeatingBatch.data ++
          (repeatingBlock ++ repeatingBlock ++
            repeatingBlock).drop 84 :=
    (List.take_append_drop 84 _).symm
  rw [begins, List.append_assoc] at isUsable
  obtain ⟨parsed, isParsed, sameRaw, sameOffsets⟩ :=
    @EncodedAs.parsed_of_usable _ _ _ written kzg repeatingKeccak _ _
      canonical.size isUsable (some versionedHash) versionedHash rfl
  obtain ⟨-, isStart, placed⟩ := KzgModule.parseBlob_parsedIn isParsed
  cases isMessages : parsed.messages with
  | nil =>
      rw [isMessages] at sameRaw
      cases sameRaw
  | cons message others =>
      have member : message ∈ parsed.messages := by
        rw [isMessages]
        exact List.mem_cons_self
      have parsedIn := placed message member
      rw [isStart] at parsedIn
      rw [isMessages, List.map_cons] at sameRaw sameOffsets
      have isRaw := (List.cons.inj sameRaw).1
      have isOffset := (List.cons.inj sameOffsets).1
      refine ⟨parsed, message, isParsed, member, parsedIn, isOffset, ?_⟩
      rw [← parsedIn.length, isRaw]
      decide

/-- The library and the precompile on the blob that repeats one field element to
its end. -/
def repeatingLibrary : KzgModule :=
  splitLibrary (0x00 :: repeatingBlock) (0x00 :: repeatingBlock)
    0x4aff090cd46922446b6571dfc9d0e85bc45caad9ec9f619f53a30f98db941f1
    repeatingSha256

def repeatingHash : Bytes32 :=
  repeatingLibrary.computeVersionedHash
    (testingCommitment
      (splitBlob (0x00 :: repeatingBlock) (0x00 :: repeatingBlock)))

def repeatingMachine : KZGVerifier.Machine :=
  splitMachine (0x00 :: repeatingBlock) (0x00 :: repeatingBlock)
    repeatingHash

noncomputable def repeatingOpenings :
    BlobOpenings repeatingLibrary repeatingMachine
      (splitBlob (0x00 :: repeatingBlock) (0x00 :: repeatingBlock)) :=
  splitOpenings reduced_repeatingBlock reduced_repeatingBlock _ _

/-- In that blob the message is exposed. -/
theorem exposure_accepted_iff_repeating :
    ∃ parsed message,
      repeatingLibrary.parseBlob repeatingKeccak
          (splitBlob (0x00 :: repeatingBlock) (0x00 :: repeatingBlock))
          { batchStartOffset := none
            versionedHash := some repeatingHash } =
        .ok parsed ∧
      message ∈ parsed.messages ∧
      repeatingOpenings.Exposable message ∧
      ((∃ params,
        repeatingLibrary.buildExposureParams
            (splitBlob (0x00 :: repeatingBlock)
              (0x00 :: repeatingBlock)) message [] repeatingHash 0
            none = .ok params ∧
        verifyExposure repeatingMachine (encodeExposureParams params) =
          .ok message.rawBytes) ↔
        repeatingOpenings.Exposable message) := by
  obtain ⟨parsed, message, isParsed, member, parsedIn, -⟩ :=
    parseBlob_repeating repeatingLibrary reduced_repeatingBlock
      repeatingHash
  exact ⟨parsed, message, isParsed, member,
    splitOpenings_exposable reduced_repeatingBlock _ _ parsedIn,
    exposure_accepted_iff repeatingOpenings isParsed member [] 0 none⟩

theorem reduced_zeroFieldElement :
    Reduced zeroFieldElement where
  wide := by decide
  small := by decide

/-- The value at a number of the polynomial of a half-filled blob. -/
theorem splitValue_natCast
    (first point : Nat) :
    splitValue first 0 (point : ScalarField) =
      (((BLS_MODULUS + 1) / 2 * first +
        (BLS_MODULUS + 1) / 2 * first * point ^ halfBlob : Nat) :
          ScalarField) := by
  rw [splitValue, splitMean, splitSlope, half]
  push_cast
  ring

/-- The polynomial of the half-filled blob does not take the value of a filled
field element at 2, the index of the message's last one. -/
theorem splitValue_repeating_two :
    splitValue (ofBE (0x00 :: repeatingBlock)) (ofBE zeroFieldElement)
        ((2 : Nat) : ScalarField) ≠
      (ofBE (0x00 :: repeatingBlock) : ScalarField) := by
  have isZero : ofBE zeroFieldElement = 0 := by
    decide
  have residues :
      ¬((BLS_MODULUS + 1) / 2 * ofBE (0x00 :: repeatingBlock) +
            (BLS_MODULUS + 1) / 2 * ofBE (0x00 :: repeatingBlock) *
              2 ^ 2048) % BLS_MODULUS =
          ofBE (0x00 :: repeatingBlock) % BLS_MODULUS := by
    decide +kernel
  rw [isZero, splitValue_natCast, halfBlob_eq]
  intro same
  exact residues ((ZMod.natCast_eq_natCast_iff' _ _ _).mp same)

/-- The library and the precompile on the blob whose second half is zero. -/
def halfFilledLibrary : KzgModule :=
  splitLibrary (0x00 :: repeatingBlock) zeroFieldElement
    0xd1032b358671377600412a29265ab6848204f86b7b26d63e6e6667337440f39
    repeatingSha256

def halfFilledHash : Bytes32 :=
  halfFilledLibrary.computeVersionedHash
    (testingCommitment
      (splitBlob (0x00 :: repeatingBlock) zeroFieldElement))

def halfFilledMachine : KZGVerifier.Machine :=
  splitMachine (0x00 :: repeatingBlock) zeroFieldElement halfFilledHash

noncomputable def halfFilledOpenings :
    BlobOpenings halfFilledLibrary halfFilledMachine
      (splitBlob (0x00 :: repeatingBlock) zeroFieldElement) :=
  splitOpenings reduced_repeatingBlock reduced_zeroFieldElement _ _

/-- In that blob the same message is not exposed. -/
theorem half_filled_blob_is_not_exposed :
    ∃ parsed message,
      halfFilledLibrary.parseBlob repeatingKeccak
          (splitBlob (0x00 :: repeatingBlock) zeroFieldElement)
          { batchStartOffset := none
            versionedHash := some halfFilledHash } =
        .ok parsed ∧
      message ∈ parsed.messages ∧
      Nonempty (BlobOpenings halfFilledLibrary halfFilledMachine
        (splitBlob (0x00 :: repeatingBlock) zeroFieldElement)) ∧
      ¬∃ params,
        halfFilledLibrary.buildExposureParams
            (splitBlob (0x00 :: repeatingBlock) zeroFieldElement)
            message [] halfFilledHash 0 none = .ok params ∧
        verifyExposure halfFilledMachine (encodeExposureParams params) =
          .ok message.rawBytes := by
  obtain ⟨parsed, message, isParsed, member, parsedIn, offset, length⟩ :=
    parseBlob_repeating halfFilledLibrary reduced_zeroFieldElement
      halfFilledHash
  refine ⟨parsed, message, isParsed, member, ⟨halfFilledOpenings⟩, ?_⟩
  intro exposed
  have exposable :=
    (halfFilledOpenings.exposed_iff parsedIn [] 0 none).mp exposed
  have touched : touchedFEs 58 26 = 2 := by
    decide
  have opened :=
    exposable.openedAtIndex 2 (by rw [offset]; decide)
      (by rw [offset, length, touched]; decide)
  have isValue :=
    (eval_splitPolynomial (ofBE (0x00 :: repeatingBlock))
      (ofBE zeroFieldElement) ((2 : Nat) : ScalarField)).symm.trans
        opened.1
  rw [blobValue_splitBlob reduced_repeatingBlock
    reduced_zeroFieldElement (by decide), if_pos (by
      rw [halfBlob_eq]
      decide)] at isValue
  exact splitValue_repeating_two isValue

end Bam
