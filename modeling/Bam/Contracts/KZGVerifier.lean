import Bam.Contracts.Evm
import Bam.Lib.ExceptLoops
import Bam.Sdk.Kzg

namespace Bam

open Bytewise

/-!
# The point-evaluation verifier

`verifyAndExtract` checks one opening for every field element a byte range
touches, in order, and cuts the range out of the opened values.  The precompile
at `0x0A` and the hash function are parameters: `none` is a precompile call that
fails.
-/

namespace KZGVerifier

inductive Error where
  | pointEvaluationFailed
  | unexpectedPrecompileOutput
  | emptyProofArray
  | invalidByteRange (offset length : Nat)
  | fieldElementOutOfRange (index : Nat)
  /-- The panic of checked arithmetic. -/
  | arithmetic
  deriving Repr, DecidableEq

/-- `BLOB_FIELD_ELEMENTS`. -/
def BLOB_FIELD_ELEMENTS : Nat := 4096

/-- The output the precompile gives for a proof it accepts. -/
def expectedOutput : Bytes :=
  toBE 32 BLOB_FIELD_ELEMENTS ++ toBE 32 BLS_MODULUS

/-- `abi.encodePacked(versionedHash, z, y, commitment, proof)`. -/
def precompileInput
    (versionedHash : Bytes32)
    (proof : KZGProof) : Bytes :=
  toBE 32 versionedHash.toNat ++ toBE 32 proof.z ++ toBE 32 proof.y ++
    proof.commitment ++ proof.proof

/-- What the verifier calls. -/
structure Machine where
  pointEvaluation : Bytes → Option Bytes
  keccak256 : Bytes → Bytes32

/-- Checked arithmetic inside the verifier. -/
def checked : Option Nat → Except Error Nat
  | none => .error .arithmetic
  | some value => .ok value

/-- `verifyProof`. -/
def verifyProof
    (machine : Machine)
    (versionedHash : Bytes32)
    (proof : KZGProof) : Except Error Bool :=
  if BLOB_FIELD_ELEMENTS ≤ proof.z then
    .error (.fieldElementOutOfRange proof.z)
  else
    match machine.pointEvaluation
        (precompileInput versionedHash proof) with
    | none => .ok false
    | some output =>
        if output.length ≠ 64 then
          .error .unexpectedPrecompileOutput
        else if machine.keccak256 output ≠
            machine.keccak256 expectedOutput then
          .error .unexpectedPrecompileOutput
        else
          .ok true

/-- The loop of `_verifyProofsAndCollect`: `index` is the field element the next
proof has to open. -/
def verifyProofsAndCollect
    (machine : Machine)
    (versionedHash : Bytes32) :
    Nat → List KZGProof → Except Error (List Nat)
  | _, [] => .ok []
  | index, proof :: rest => do
      let valid ← verifyProof machine versionedHash proof
      if !valid then
        .error .pointEvaluationFailed
      else if proof.z ≠ index then
        .error (.fieldElementOutOfRange proof.z)
      else
        let yValues ←
          verifyProofsAndCollect machine versionedHash (index + 1) rest
        .ok (proof.y :: yValues)

/-- `_copyBytesFromFE`. -/
def copyBytesFromFE
    (y feStartByte count : Nat) : Bytes :=
  (List.range count).map fun j =>
    UInt8.ofNat ((y >>> ((30 - feStartByte - j) * 8)) &&& 0xff)

/-- The bytes copied out of the value at an index. -/
def readValue
    (yValues : List Nat)
    (fe feStartByte count : Nat) : Bytes :=
  copyBytesFromFE (yValues.getD fe 0) feStartByte count

/-- `_extractBytes`. -/
def extractBytes
    (yValues : List Nat)
    (srcOffset byteLength requiredFEs : Nat) : Bytes :=
  padRight 0x00 byteLength
    (copyBlocks 31 (readValue yValues) requiredFEs 0 srcOffset
      byteLength)

/-- `verifyAndExtract`. -/
def verifyAndExtract
    (machine : Machine)
    (versionedHash : Bytes32)
    (proofs : List KZGProof)
    (byteOffset byteLength : Nat) : Except Error Bytes :=
  if proofs.length = 0 then
    .error .emptyProofArray
  else do
    let stop ← checked (checkedAdd byteOffset byteLength)
    if BLOB_FIELD_ELEMENTS * 31 < stop then
      .error (.invalidByteRange byteOffset byteLength)
    else do
      let startFE := byteOffset / 31
      let last ← checked (checkedSub stop 1)
      let span ← checked (checkedSub (last / 31) startFE)
      let requiredFEs ← checked (checkedAdd span 1)
      if proofs.length < requiredFEs then
        .error (.invalidByteRange byteOffset byteLength)
      else do
        let yValues ←
          verifyProofsAndCollect machine versionedHash startFE
            (proofs.take requiredFEs)
        .ok (extractBytes yValues (byteOffset % 31) byteLength
          requiredFEs)

/-- The bytes copied out of a field element are a slice of its usable part. -/
theorem copyBytesFromFE_eq
    {fe : Bytes}
    (wide : fe.length = BYTES_PER_FIELD_ELEMENT)
    {skipped size : Nat}
    (fits : skipped + size ≤ USABLE_BYTES_PER_FIELD_ELEMENT) :
    copyBytesFromFE (ofBE fe) skipped size =
      ((fe.drop 1).drop skipped).take size := by
  simp only [BYTES_PER_FIELD_ELEMENT, USABLE_BYTES_PER_FIELD_ELEMENT]
    at wide fits
  apply List.ext_getElem
  · simp only [copyBytesFromFE, List.length_map, List.length_range,
      List.length_take, List.length_drop]
    omega
  · intro index inCopy inSlice
    have small : index < size := by
      simpa [copyBytesFromFE] using inCopy
    have place : 1 + (skipped + index) < fe.length := by
      omega
    have digit := ofNat_ofBE_div place
    have power :
        fe.length - 1 - (1 + (skipped + index)) = 30 - skipped - index := by
      omega
    have shift :
        (2 : Nat) ^ ((30 - skipped - index) * 8) =
          256 ^ (30 - skipped - index) := by
      rw [Nat.mul_comm, Nat.pow_mul]
    rw [power] at digit
    simp only [copyBytesFromFE, List.getElem_map, List.getElem_range,
      List.getElem_take, List.getElem_drop, Nat.shiftRight_eq_div_pow,
      shift]
    rw [← digit]
    apply UInt8.toNat_inj.mp
    have mask :=
      Nat.and_two_pow_sub_one_eq_mod
        (ofBE fe / 256 ^ (30 - skipped - index)) 8
    rw [UInt8.toNat_ofNat', UInt8.toNat_ofNat']
    have isMask :
        ofBE fe / 256 ^ (30 - skipped - index) &&& 0xff =
          ofBE fe / 256 ^ (30 - skipped - index) % 256 :=
      mask
    rw [isMask]
    omega

/-- The numbers a run of field elements of a blob spells. -/
def fieldValues
    (blob : Bytes)
    (startFE count : Nat) : List Nat :=
  (List.range' startFE count).map fun index =>
    ofBE (block BYTES_PER_FIELD_ELEMENT blob index)

/-- A range cut out of the values of its field elements is a range of the usable
bytes. -/
theorem extractBytes_fieldValues
    {blob : Bytes}
    (isBlob : blob.length = BYTES_PER_BLOB)
    {byteOffset byteLength count : Nat}
    (enough :
      byteOffset % USABLE_BYTES_PER_FIELD_ELEMENT + byteLength ≤
        count * USABLE_BYTES_PER_FIELD_ELEMENT)
    (inside : byteOffset + byteLength ≤ USABLE_BYTES_PER_BLOB)
    (inBlob :
      byteOffset / USABLE_BYTES_PER_FIELD_ELEMENT + count ≤
        FIELD_ELEMENTS_PER_BLOB) :
    extractBytes
        (fieldValues blob
          (byteOffset / USABLE_BYTES_PER_FIELD_ELEMENT) count)
        (byteOffset % USABLE_BYTES_PER_FIELD_ELEMENT) byteLength count =
      ((usableBytes blob).drop byteOffset).take byteLength := by
  have sameReads :
      ∀ place < count, ∀ first size,
        first + size ≤ USABLE_BYTES_PER_FIELD_ELEMENT →
          readValue
              (fieldValues blob
                (byteOffset / USABLE_BYTES_PER_FIELD_ELEMENT) count)
              (0 + place) first size =
            readFieldElement blob
              (byteOffset / USABLE_BYTES_PER_FIELD_ELEMENT + place)
              first size := by
    intro place small first size fits
    have position :
        byteOffset / USABLE_BYTES_PER_FIELD_ELEMENT + place <
          FIELD_ELEMENTS_PER_BLOB := by
      omega
    have isElement :
        (fieldElements blob)[
            byteOffset / USABLE_BYTES_PER_FIELD_ELEMENT + place]? =
          some (block BYTES_PER_FIELD_ELEMENT blob
            (byteOffset / USABLE_BYTES_PER_FIELD_ELEMENT + place)) :=
      getElem?_fieldElements position
    have wide :=
      fieldElements_wide isBlob _ (List.mem_of_getElem? isElement)
    have isPart :
        (usableBlocks blob)[
            byteOffset / USABLE_BYTES_PER_FIELD_ELEMENT + place]? =
          some ((block BYTES_PER_FIELD_ELEMENT blob
            (byteOffset / USABLE_BYTES_PER_FIELD_ELEMENT +
              place)).drop 1) := by
      rw [usableBlocks, List.getElem?_map, isElement, Option.map_some]
    have value :
        (fieldValues blob
            (byteOffset / USABLE_BYTES_PER_FIELD_ELEMENT) count).getD
              (0 + place) 0 =
          ofBE (block BYTES_PER_FIELD_ELEMENT blob
            (byteOffset / USABLE_BYTES_PER_FIELD_ELEMENT + place)) := by
      rw [Nat.zero_add, List.getD_eq_getElem _ _
        (by simpa [fieldValues] using small)]
      simp [fieldValues]
    rw [readValue, value, copyBytesFromFE_eq wide fits,
      readFieldElement_eq isBlob _ _ isPart first size fits]
  have starts :
      byteOffset % USABLE_BYTES_PER_FIELD_ELEMENT ≤
        USABLE_BYTES_PER_FIELD_ELEMENT :=
    Nat.le_of_lt (Nat.mod_lt _ (by decide))
  have copied :=
    (copyBlocks_congr starts sameReads).trans
      (copyBlocks_usableBytes isBlob enough inside)
  have fits :
      byteOffset + byteLength ≤ (usableBytes blob).length := by
    rw [length_usableBytes isBlob]
    exact inside
  rw [extractBytes]
  exact (congrArg (padRight 0x00 byteLength) copied).trans
    (padRight_slice_of_le 0x00 fits)

/-- A proof the precompile accepts. -/
def Accepted
    (machine : Machine)
    (versionedHash : Bytes32)
    (proof : KZGProof) : Prop :=
  machine.pointEvaluation (precompileInput versionedHash proof) =
    some expectedOutput

/-- A machine whose precompile gives the expected output or fails, on the proofs
of a predicate. -/
def Definite
    (machine : Machine)
    (versionedHash : Bytes32)
    (proof : KZGProof) : Prop :=
  Accepted machine versionedHash proof ∨
    machine.pointEvaluation (precompileInput versionedHash proof) = none

theorem length_expectedOutput :
    expectedOutput.length = 64 := by
  rw [expectedOutput, List.length_append, length_toBE, length_toBE]

theorem verifyProof_accepted
    {machine : Machine}
    {versionedHash : Bytes32}
    {proof : KZGProof}
    (inRange : proof.z < BLOB_FIELD_ELEMENTS)
    (accepted : Accepted machine versionedHash proof) :
    verifyProof machine versionedHash proof = .ok true := by
  have notOut := Nat.not_le.mpr inRange
  rw [Accepted] at accepted
  simp only [verifyProof, if_neg notOut, accepted]
  rw [if_neg (not_not.mpr length_expectedOutput),
    if_neg (not_not.mpr rfl)]

theorem verifyProof_rejected
    {machine : Machine}
    {versionedHash : Bytes32}
    {proof : KZGProof}
    (inRange : proof.z < BLOB_FIELD_ELEMENTS)
    (rejected :
      machine.pointEvaluation (precompileInput versionedHash proof) =
        none) :
    verifyProof machine versionedHash proof = .ok false := by
  simp only [verifyProof, if_neg (Nat.not_le.mpr inRange), rejected]

/-- The loop returns the values of proofs in order that are all accepted, and
nothing else. -/
theorem verifyProofsAndCollect_eq_ok_iff
    {machine : Machine}
    {versionedHash : Bytes32}
    {index : Nat}
    {proofs : List KZGProof}
    (inRange : ∀ proof ∈ proofs, proof.z < BLOB_FIELD_ELEMENTS)
    (definite : ∀ proof ∈ proofs, Definite machine versionedHash proof)
    {yValues : List Nat} :
    verifyProofsAndCollect machine versionedHash index proofs =
        .ok yValues ↔
      (∀ proof ∈ proofs, Accepted machine versionedHash proof) ∧
        proofs.map (fun proof => proof.z) =
          List.range' index proofs.length ∧
        yValues = proofs.map fun proof => proof.y := by
  induction proofs generalizing index yValues with
  | nil =>
      simp only [verifyProofsAndCollect, List.map_nil, Except.ok.injEq]
      constructor
      · rintro rfl
        simp
      · rintro ⟨-, -, rfl⟩
        rfl
  | cons proof rest inductionHypothesis =>
      have small := inRange proof List.mem_cons_self
      have later :=
        @inductionHypothesis (index + 1)
          (fun other member =>
            inRange other (List.mem_cons_of_mem _ member))
          (fun other member =>
            definite other (List.mem_cons_of_mem _ member))
      simp only [verifyProofsAndCollect]
      rcases definite proof List.mem_cons_self with accepted | rejected
      · rw [verifyProof_accepted small accepted, ExceptLoops.ok_bind]
        by_cases inOrder : proof.z = index
        · cases isRest :
              verifyProofsAndCollect machine versionedHash (index + 1)
                rest with
          | error error =>
              constructor
              · intro returned
                simp [inOrder] at returned
              · rintro ⟨allAccepted, sameOrder, -⟩
                rw [List.map_cons, List.length_cons,
                  List.range'_succ, List.cons.injEq] at sameOrder
                have restOk :=
                  later.mpr
                    ⟨fun other member =>
                      allAccepted other
                        (List.mem_cons_of_mem _ member),
                      sameOrder.2, rfl⟩
                rw [isRest] at restOk
                cases restOk
          | ok others =>
              have restFacts := later.mp isRest
              constructor
              · intro returned
                have values : proof.y :: others = yValues := by
                  simpa [inOrder] using returned
                refine ⟨?_, ?_, ?_⟩
                · intro other member
                  rcases List.mem_cons.mp member with rfl | inRest
                  · exact accepted
                  · exact restFacts.1 other inRest
                · rw [List.map_cons, List.length_cons,
                    List.range'_succ, inOrder, restFacts.2.1]
                · rw [← values, restFacts.2.2, List.map_cons]
              · rintro ⟨-, -, rfl⟩
                simp [inOrder, restFacts.2.2]
        · constructor
          · intro returned
            simp [inOrder] at returned
          · rintro ⟨-, sameOrder, -⟩
            rw [List.map_cons, List.length_cons, List.range'_succ,
              List.cons.injEq] at sameOrder
            exact absurd sameOrder.1 inOrder
      · rw [verifyProof_rejected small rejected, ExceptLoops.ok_bind]
        constructor
        · intro returned
          simp at returned
        · rintro ⟨allAccepted, -, -⟩
          have accepted := allAccepted proof List.mem_cons_self
          rw [Accepted, rejected] at accepted
          cases accepted

/-- When `verifyAndExtract` returns, and what. -/
theorem verifyAndExtract_eq_ok_iff
    {machine : Machine}
    {versionedHash : Bytes32}
    {proofs : List KZGProof}
    (inRange : ∀ proof ∈ proofs, proof.z < BLOB_FIELD_ELEMENTS)
    (definite : ∀ proof ∈ proofs, Definite machine versionedHash proof)
    {byteOffset byteLength : Nat}
    (nonempty : 0 < byteLength)
    (inside : byteOffset + byteLength ≤ USABLE_BYTES_PER_BLOB)
    {extracted : Bytes} :
    verifyAndExtract machine versionedHash proofs byteOffset byteLength =
        .ok extracted ↔
      touchedFEs byteOffset byteLength ≤ proofs.length ∧
        (∀ proof ∈ proofs.take (touchedFEs byteOffset byteLength),
          Accepted machine versionedHash proof) ∧
        (proofs.take (touchedFEs byteOffset byteLength)).map
            (fun proof => proof.z) =
          List.range' (byteOffset / 31)
            (touchedFEs byteOffset byteLength) ∧
        extracted =
          extractBytes
            ((proofs.take (touchedFEs byteOffset byteLength)).map
              fun proof => proof.y)
            (byteOffset % 31) byteLength
            (touchedFEs byteOffset byteLength) := by
  have positive : 0 < touchedFEs byteOffset byteLength :=
    Nat.succ_pos _
  have small : byteOffset + byteLength < 2 ^ 256 := by
    have bound : USABLE_BYTES_PER_BLOB < 2 ^ 256 := by
      decide
    omega
  have notPast :
      ¬BLOB_FIELD_ELEMENTS * 31 < byteOffset + byteLength := by
    have same : BLOB_FIELD_ELEMENTS * 31 = USABLE_BYTES_PER_BLOB :=
      rfl
    omega
  have sum := checkedAdd_of_lt small
  have last : checkedSub (byteOffset + byteLength) 1 =
      some (byteOffset + byteLength - 1) :=
    checkedSub_of_le (by omega)
  have span :
      checkedSub ((byteOffset + byteLength - 1) / 31)
          (byteOffset / 31) =
        some ((byteOffset + byteLength - 1) / 31 - byteOffset / 31) :=
    checkedSub_of_le (by omega)
  have count :
      checkedAdd
          ((byteOffset + byteLength - 1) / 31 - byteOffset / 31) 1 =
        some (touchedFEs byteOffset byteLength) :=
    checkedAdd_of_lt (by omega)
  unfold verifyAndExtract
  by_cases empty : proofs.length = 0
  · rw [if_pos empty]
    constructor
    · intro returned
      cases returned
    · rintro ⟨enough, -⟩
      omega
  rw [if_neg empty, sum]
  simp only [checked, ExceptLoops.ok_bind, if_neg notPast, last, span,
    count]
  by_cases short : proofs.length < touchedFEs byteOffset byteLength
  · rw [if_pos short]
    constructor
    · intro returned
      cases returned
    · rintro ⟨enough, -⟩
      exact absurd enough (Nat.not_le.mpr short)
  rw [if_neg short]
  have enough := Nat.le_of_not_lt short
  have taken :
      (proofs.take (touchedFEs byteOffset byteLength)).length =
        touchedFEs byteOffset byteLength :=
    List.length_take_of_le enough
  have collected :=
    fun yValues =>
      @verifyProofsAndCollect_eq_ok_iff machine versionedHash
        (byteOffset / 31)
        (proofs.take (touchedFEs byteOffset byteLength))
        (fun proof member => inRange proof (List.mem_of_mem_take member))
        (fun proof member =>
          definite proof (List.mem_of_mem_take member))
        yValues
  rw [taken] at collected
  cases isCollected :
      verifyProofsAndCollect machine versionedHash (byteOffset / 31)
        (proofs.take (touchedFEs byteOffset byteLength)) with
  | error error =>
      constructor
      · intro returned
        cases returned
      · rintro ⟨-, accepted, inOrder, -⟩
        have returned :=
          (collected _).mpr ⟨accepted, inOrder, rfl⟩
        rw [isCollected] at returned
        cases returned
  | ok yValues =>
      obtain ⟨accepted, inOrder, isValues⟩ :=
        (collected yValues).mp isCollected
      rw [ExceptLoops.ok_bind, isValues]
      constructor
      · intro returned
        cases returned
        exact ⟨enough, accepted, inOrder, rfl⟩
      · rintro ⟨-, -, -, rfl⟩
        rfl

/-- The field elements the SDK names for a range are those the range touches. -/
theorem calculateFieldElements_touched
    {byteOffset byteLength : Nat}
    (nonempty : 0 < byteLength)
    (inside : byteOffset + byteLength ≤ USABLE_BYTES_PER_BLOB) :
    ∃ range,
      calculateFieldElements byteOffset byteLength = .ok range ∧
      range.start = byteOffset / USABLE_BYTES_PER_FIELD_ELEMENT ∧
      range.count.toNat = touchedFEs byteOffset byteLength := by
  refine ⟨_, if_neg (Nat.not_lt.mpr inside), rfl, ?_⟩
  simp only [touchedFEs, USABLE_BYTES_PER_FIELD_ELEMENT]
  omega

/-- One range of a blob, taken by the SDK, cut by the contract out of the
values of the field elements the SDK names, or verified and extracted from
accepted openings of them: each time the slice of the usable bytes. -/
theorem byteRange_extractions
    {blob : Bytes}
    (isBlob : blob.length = BYTES_PER_BLOB)
    {byteOffset byteLength : Nat}
    (nonempty : 0 < byteLength)
    (inside : byteOffset + byteLength ≤ USABLE_BYTES_PER_BLOB) :
    let slice := ((usableBytes blob).drop byteOffset).take byteLength
    ∃ range,
      calculateFieldElements byteOffset byteLength = .ok range ∧
      Bam.extractBytes blob byteOffset byteLength = .ok slice ∧
      extractBytes
          (fieldValues blob range.start range.count.toNat)
          (byteOffset % 31) byteLength range.count.toNat = slice ∧
      ∀ machine versionedHash (proofs : List KZGProof),
        proofs.map (fun proof => proof.z) =
          List.range' range.start range.count.toNat →
        proofs.map (fun proof => proof.y) =
          fieldValues blob range.start range.count.toNat →
        (∀ proof ∈ proofs, Accepted machine versionedHash proof) →
        verifyAndExtract machine versionedHash proofs byteOffset
          byteLength = .ok slice := by
  intro slice
  obtain ⟨range, calculated, starts, counts⟩ :=
    calculateFieldElements_touched nonempty inside
  have inBlob := touchedFEs_inside nonempty inside
  have cut :=
    extractBytes_fieldValues isBlob
      (@touchedFEs_enough byteOffset byteLength nonempty) inside
      inBlob
  refine ⟨range, calculated, extractBytes_eq isBlob inside, ?_, ?_⟩
  · rw [starts, counts]
    exact cut
  · intro machine versionedHash proofs points values accepted
    rw [starts, counts] at points values
    have counted :
        proofs.length = touchedFEs byteOffset byteLength := by
      have lengths := congrArg List.length points
      rwa [List.length_map, List.length_range'] at lengths
    have inRange : ∀ proof ∈ proofs, proof.z < BLOB_FIELD_ELEMENTS := by
      intro proof member
      have point : proof.z ∈ proofs.map fun proof => proof.z :=
        List.mem_map_of_mem member
      rw [points, List.mem_range'_1] at point
      exact point.2.trans_le inBlob
    apply (verifyAndExtract_eq_ok_iff inRange
      (fun proof member => .inl (accepted proof member)) nonempty
      inside).mpr
    rw [← counted, List.take_length]
    refine ⟨le_rfl, accepted, ?_, ?_⟩
    · rw [points, counted]
      rfl
    · rw [values, counted]
      exact cut.symm

/-- The bytes from 0 to 63, in a blob. -/
def ascendingBlob : Bytes :=
  payloadBlob ((List.range 64).map UInt8.ofNat)

theorem ascendingBlob_fits :
    feCountForPayload ((List.range 64).map UInt8.ofNat).length ≤
      FIELD_ELEMENTS_PER_BLOB := by
  decide

/-- Three of them across the border of two field elements. -/
theorem byteRange_extractions_border :
    ∃ range,
      calculateFieldElements 30 3 = .ok range ∧
      Bam.extractBytes ascendingBlob 30 3 = .ok [30, 31, 32] ∧
      extractBytes
          (fieldValues ascendingBlob range.start range.count.toNat)
          (30 % 31) 3 range.count.toNat = [30, 31, 32] ∧
      ∀ machine versionedHash (proofs : List KZGProof),
        proofs.map (fun proof => proof.z) =
          List.range' range.start range.count.toNat →
        proofs.map (fun proof => proof.y) =
          fieldValues ascendingBlob range.start range.count.toNat →
        (∀ proof ∈ proofs, Accepted machine versionedHash proof) →
        verifyAndExtract machine versionedHash proofs 30 3 =
          .ok [30, 31, 32] := by
  obtain ⟨padding, isUsable⟩ :=
    usableBytes_payloadBlob ascendingBlob_fits
  have slice :
      ((usableBytes ascendingBlob).drop 30).take 3 = [30, 31, 32] := by
    rw [ascendingBlob, isUsable]
    rfl
  have extractions :=
    @byteRange_extractions ascendingBlob
      ((length_payloadBlob ascendingBlob_fits).trans blobSize_eq.symm)
      30 3 (by decide) (by decide)
  rwa [slice] at extractions

end KZGVerifier

end Bam
