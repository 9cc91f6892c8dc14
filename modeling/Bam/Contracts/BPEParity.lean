import Bam.Contracts.BPEDecoder
import Bam.Sdk.BpeRoundTrip
import Bam.Lib.ExceptLoops

namespace Bam.BPEDecoder

open Bytewise
open ExceptLoops

/-!
# The two BPE decoders agree

The SDK's decoder over a dictionary's bytes and the contract over the same bytes
reject the same payloads and read the others alike.
-/

/-- A message of the contract as a message of the SDK. -/
def Message.toBAMMessage (message : Message) : BAMMessage where
  sender := message.sender
  nonce := message.nonce.toNat
  contents := message.contents

/-- What `decode` returns, as the SDK's decoder returns it. -/
def toDecodedBatch
    (returned : List Message × Bytes) : DecodedBatchBPE where
  messages := returned.1.map Message.toBAMMessage
  signatureData := returned.2

theorem loadBytes_two
    (source : Bytes)
    (offset : Nat) :
    loadBytes source offset 2 = u16beRead source offset := by
  rw [loadBytes, copyBytes_eq_map, u16beRead]
  simp [ofBE, List.range_succ]

theorem loadBytes_eight
    (source : Bytes)
    (offset : Nat) :
    loadBytes source offset 8 = u64beRead source offset := by
  rw [loadBytes, copyBytes_eq_map, u64beRead, ofBE, List.foldl_map]

/-- The nonce read from eight bytes has 64 bits. -/
theorem loadBytes_lt
    (source : Bytes)
    (offset size : Nat) :
    loadBytes source offset size < 256 ^ size := by
  have small := ofBE_lt (copyBytes source offset size)
  rwa [length_copyBytes] at small

/-- The deployed dictionary is read back. -/
theorem loadDict_deployed
    {decoder : BPEDecoder}
    {dictBytes : Bytes}
    (deployed : deployDictionary dictBytes = .ok decoder.DICT_DATA) :
    decoder.loadDict = dictBytes := by
  unfold deployDictionary at deployed
  split at deployed
  · cases deployed
  · rename_i sized
    have isCode := Except.ok.inj deployed
    have full : dictBytes.length = DICT_SIZE := not_not.mp sized
    rw [loadDict, ← isCode, copyBytes_of_le
      (by rw [List.length_cons, full, Nat.add_comm]),
      List.drop_succ_cons, List.drop_zero, ← full, List.take_length]

/-- Both sides place the tokens alike. -/
theorem codeOffsetLen_eq
    (code : Nat) :
    codeOffsetLen code = canonicalSlot code :=
  rfl

/-- A code expands to the same bytes on both sides. -/
theorem copyToken_eq_expandCode
    {dict : BPEDictionary}
    (canonical : dict.Canonical)
    {code : Nat}
    (small : code < TOTAL_CODES) :
    copyToken dict.dictBytes code = expandCode dict code := by
  obtain ⟨offset, length⟩ := canonical code small
  rw [copyToken, expandCode, copyBytes_eq_map, codeOffsetLen_eq, offset,
    length]

/-- Decompression agrees on every stream. -/
theorem decompress_agrees
    {dict : BPEDictionary}
    (canonical : dict.Canonical)
    (encoded : Bytes) :
    Agree id (bpeDecode encoded dict)
      (decompress dict.dictBytes encoded) := by
  unfold bpeDecode decompress
  by_cases aligned : encoded.length % 3 = 0
  · rw [if_neg (not_not.mpr aligned), if_neg (not_not.mpr aligned),
      Codes12.unpack_eq_flatMap aligned, List.flatMap_assoc]
    have sameBytes : ∀ index ∈ List.range (encoded.length / 3),
        (Codes12.codesOfWord ((encoded.drop (3 * index)).take 3)).flatMap
            (expandCode dict) =
          copyToken dict.dictBytes
              (loadBytes encoded (3 * index) 3 / 4096 % 4096) ++
            copyToken dict.dictBytes
              (loadBytes encoded (3 * index) 3 % 4096) := by
      intro index member
      have inside : index < encoded.length / 3 := List.mem_range.mp member
      have isWord :
          copyBytes encoded (3 * index) 3 =
            (encoded.drop (3 * index)).take 3 :=
        copyBytes_of_le (by omega)
      have sameToken : ∀ code,
          copyToken dict.dictBytes (code % 4096) =
            expandCode dict (code % 4096) := by
        intro code
        exact copyToken_eq_expandCode canonical
          (Nat.mod_lt code (by decide : 0 < 4096))
      rw [loadBytes, isWord, sameToken, sameToken]
      simp [Codes12.codesOfWord]
    rw [List.flatMap_congr sameBytes]
    exact agree_ok id _
  · rw [if_pos aligned, if_pos aligned]
    exact agree_error id _ _

/-- One round of the two loops agrees. -/
theorem decodeMessage_agrees
    {dict : BPEDictionary}
    (canonical : dict.Canonical)
    {payload : Bytes}
    {sigStart : Nat}
    (inside : sigStart ≤ payload.length)
    (n i : Nat) :
    Agree Message.toBAMMessage (decodeBodyBPE payload dict n sigStart i)
      (decodeMessage dict.dictBytes payload n sigStart i) := by
  unfold decodeBodyBPE decodeMessage
  simp only [loadBytes_two]
  generalize u16beRead payload (2 + i * 2) = startOff
  generalize (if i + 1 < n then u16beRead payload (2 + (i + 1) * 2)
    else sigStart) = endOff
  have sameHeader :
      endOff < startOff + RECORD_HEADER ↔ endOff < startOff + 28 :=
    Iff.rfl
  by_cases tooShort : endOff < startOff + 28
  · rw [if_pos (sameHeader.mpr tooShort), if_pos tooShort]
    exact agree_error _ _ _
  by_cases overrun : sigStart < endOff
  · rw [if_neg (mt sameHeader.mp tooShort), if_pos overrun,
      if_neg tooShort, if_pos overrun]
    exact agree_error _ _ _
  rw [if_neg (mt sameHeader.mp tooShort), if_neg overrun,
    if_neg tooShort, if_neg overrun]
  have isEncoded :
      copyBytes payload (startOff + 28) (endOff - startOff - 28) =
        sliceBytes payload (startOff + 28) endOff := by
    rw [copyBytes_of_le (by omega), sliceBytes, Nat.sub_sub]
  have isSender :
      copyBytes payload startOff 20 =
        sliceBytes payload startOff (startOff + 20) := by
    rw [copyBytes_of_le (by omega), sliceBytes, Nat.add_sub_cancel_left]
  have nonceFits : loadBytes payload (startOff + 20) 8 < 2 ^ 64 :=
    loadBytes_lt payload (startOff + 20) 8
  have agreed :=
    decompress_agrees canonical (sliceBytes payload (startOff + 28) endOff)
  rw [isEncoded]
  cases isSdk : bpeDecode (sliceBytes payload (startOff + 28) endOff)
      dict with
  | error error =>
      cases isChain : decompress dict.dictBytes
          (sliceBytes payload (startOff + 28) endOff) with
      | error revert =>
          exact agree_error _ _ _
      | ok contents =>
          rw [isSdk, isChain] at agreed
          cases agreed
  | ok contents =>
      cases isChain : decompress dict.dictBytes
          (sliceBytes payload (startOff + 28) endOff) with
      | error revert =>
          rw [isSdk, isChain] at agreed
          cases agreed
      | ok others =>
          rw [isSdk, isChain] at agreed
          cases agreed
          simp only [Agree, Except.toOption, Option.map_some,
            Message.toBAMMessage, addressOfBytes, loadBytes, ← isSender,
            BitVec.toNat_ofNat, ← loadBytes_eight]
          rw [loadBytes] at nonceFits
          rw [Nat.mod_eq_of_lt nonceFits]
          rfl

/-- The SDK's decoder with the contract's trailer length agrees with the
contract. -/
theorem decode_agrees
    {dict : BPEDictionary}
    (canonical : dict.Canonical)
    {decoder : BPEDecoder}
    (sameDict : decoder.loadDict = dict.dictBytes)
    {payload : Bytes}
    (filled : 2 ≤ payload.length)
    {signatureSize : Nat}
    (isTrailer :
      decoder.trailerLen (u16beRead payload 0) = some signatureSize)
    (small : signatureSize + 2 < 2 ^ 256) :
    Agree toDecodedBatch (decodeBatchBPE payload dict signatureSize)
      (decoder.decode payload) := by
  unfold decodeBatchBPE decode
  simp only [loadBytes_two, isTrailer, checkedAdd_of_lt small, sameDict]
  have notEmpty : payload.length ≠ 0 := by
    omega
  have notShort : ¬ payload.length < 2 := by
    omega
  rw [if_neg notEmpty, if_neg notShort, if_neg notEmpty, if_neg notShort]
  by_cases exceeds : payload.length < signatureSize
  · have tooSmall : payload.length < signatureSize + 2 := by
      omega
    rw [if_pos exceeds, if_pos tooSmall]
    exact agree_error _ _ _
  rw [if_neg exceeds]
  have isHeader :
      HEADER_BASE + 2 * u16beRead payload 0 =
        2 + u16beRead payload 0 * 2 := by
    rw [Nat.mul_comm]
    rfl
  rw [isHeader]
  by_cases overruns :
      payload.length - signatureSize < 2 + u16beRead payload 0 * 2
  · rw [if_pos overruns]
    by_cases tooSmall : payload.length < signatureSize + 2
    · rw [if_pos tooSmall]
      exact agree_error _ _ _
    · rw [if_neg tooSmall, if_pos overruns]
      exact agree_error _ _ _
  have notSmall : ¬ payload.length < signatureSize + 2 := by
    omega
  rw [if_neg overruns, if_neg notSmall, if_neg overruns]
  have rounds : ∀ i ∈ List.range (u16beRead payload 0),
      Agree Message.toBAMMessage
        (decodeBodyBPE payload dict (u16beRead payload 0)
          (payload.length - signatureSize) i)
        (decodeMessage dict.dictBytes payload (u16beRead payload 0)
          (payload.length - signatureSize) i) := by
    intro i _
    exact decodeMessage_agrees canonical
      (Nat.sub_le payload.length signatureSize) _ i
  have loops := agree_mapM rounds
  have isTail :
      copyBytes payload (payload.length - signatureSize) signatureSize =
        payload.drop (payload.length - signatureSize) := by
    rw [copyBytes_of_le (by omega), List.take_of_length_le]
    rw [List.length_drop]
    omega
  rw [isTail]
  generalize (List.range (u16beRead payload 0)).mapM
    (decodeBodyBPE payload dict (u16beRead payload 0)
      (payload.length - signatureSize)) = first at loops ⊢
  generalize (List.range (u16beRead payload 0)).mapM
    (decodeMessage dict.dictBytes payload (u16beRead payload 0)
      (payload.length - signatureSize)) = second at loops ⊢
  cases first with
  | error error =>
      cases second with
      | error revert =>
          exact agree_error _ _ _
      | ok messages =>
          cases loops
  | ok values =>
      cases second with
      | error revert =>
          cases loops
      | ok messages =>
          cases loops
          exact agree_ok toDecodedBatch
            (messages, payload.drop (payload.length - signatureSize))

/-- The SDK's decoder for a contract in the given mode. -/
def sdkDecode
    (perMessage : Bool)
    (payload : Bytes)
    (dict : BPEDictionary)
    (unit : Nat) : Except BpeBatchError DecodedBatchBPE :=
  if perMessage then decodeBatchBPEPerMessage payload dict unit
  else decodeBatchBPE payload dict unit

theorem u16beRead_lt
    (buf : Bytes)
    (offset : Nat) :
    u16beRead buf offset < 2 ^ 16 := by
  rw [← loadBytes_two]
  exact loadBytes_lt buf offset 2

/-- With a unit below 2^32 the trailer length never overflows. -/
theorem trailerLen_of_small
    (decoder : BPEDecoder)
    (small : decoder.SIG_UNIT_SIZE.toNat < 2 ^ 32)
    {n : Nat}
    (count : n < 2 ^ 16) :
    decoder.trailerLen n =
        some (if decoder.PER_MESSAGE then decoder.SIG_UNIT_SIZE.toNat * n
          else decoder.SIG_UNIT_SIZE.toNat) ∧
      decoder.SIG_UNIT_SIZE.toNat * n < 2 ^ 48 := by
  have product : decoder.SIG_UNIT_SIZE.toNat * n < 2 ^ 48 :=
    calc
      decoder.SIG_UNIT_SIZE.toNat * n
          ≤ decoder.SIG_UNIT_SIZE.toNat * 2 ^ 16 :=
        Nat.mul_le_mul_left _ (Nat.le_of_lt count)
      _ < 2 ^ 32 * 2 ^ 16 :=
        Nat.mul_lt_mul_of_pos_right small (by decide)
      _ = 2 ^ 48 := by
        decide
  refine ⟨?_, product⟩
  unfold trailerLen
  split
  · exact checkedMul_of_lt (Nat.lt_trans product (by decide))
  · rfl

/-- Both decoders return nothing for an empty payload and reject a payload of
one byte. -/
theorem sdkDecode_short
    {payload : Bytes}
    (short : payload.length < 2)
    (decoder : BPEDecoder)
    (dict : BPEDictionary)
    (unit : Nat) :
    Agree toDecodedBatch
      (sdkDecode decoder.PER_MESSAGE payload dict unit)
      (decoder.decode payload) := by
  have sameHead :
      sdkDecode decoder.PER_MESSAGE payload dict unit =
        if payload.length = 0 then
          .ok { messages := [], signatureData := [] }
        else .error (.payloadTooShort payload.length) := by
    unfold sdkDecode decodeBatchBPEPerMessage decodeBatchBPE
    rw [if_pos short, if_pos short, ite_self]
  rw [sameHead]
  unfold decode
  simp only [if_pos short]
  by_cases isEmpty : payload.length = 0
  · rw [if_pos isEmpty, if_pos isEmpty]
    exact agree_ok toDecodedBatch ([], [])
  · rw [if_neg isEmpty, if_neg isEmpty]
    exact agree_error _ _ _

/-- For every dictionary and every payload the SDK's decoder and the contract
either both reject or return the same messages and signature data. -/
theorem decoders_agree
    {dictBytes : Bytes}
    (sized : dictBytes.length = DICT_BYTES_SIZE)
    {unit : BitVec 256}
    (small : unit.toNat < 2 ^ 32)
    (perMessage : Bool)
    (payload : Bytes) :
    ∃ dict code,
      bpeDictionaryFromBytes dictBytes = .ok dict ∧
        deployDictionary dictBytes = .ok code ∧
        Agree toDecodedBatch
          (sdkDecode perMessage payload dict unit.toNat)
          (decode {
            DICT_DATA := code
            SIG_UNIT_SIZE := unit
            PER_MESSAGE := perMessage } payload) := by
  obtain ⟨dict, made⟩ :
      ∃ dict, bpeDictionaryFromBytes dictBytes = .ok dict :=
    ⟨_, if_neg (not_not.mpr sized)⟩
  have deployed : deployDictionary dictBytes = .ok (0x00 :: dictBytes) :=
    if_neg (not_not.mpr sized)
  obtain ⟨isBytes, canonical⟩ := canonical_of_fromBytes made
  refine ⟨dict, 0x00 :: dictBytes, made, deployed, ?_⟩
  let decoder : BPEDecoder := {
    DICT_DATA := 0x00 :: dictBytes
    SIG_UNIT_SIZE := unit
    PER_MESSAGE := perMessage }
  have sameDict : decoder.loadDict = dict.dictBytes := by
    rw [isBytes]
    exact loadDict_deployed deployed
  by_cases short : payload.length < 2
  · exact sdkDecode_short short decoder dict unit.toNat
  have filled : 2 ≤ payload.length := Nat.le_of_not_lt short
  obtain ⟨isTrailer, product⟩ :=
    trailerLen_of_small decoder small (u16beRead_lt payload 0)
  cases perMessage with
  | false =>
      apply decode_agrees canonical sameDict filled isTrailer
      exact Nat.lt_trans (Nat.add_lt_add_right small 2) (by decide)
  | true =>
      have perMessageDecode :
          sdkDecode true payload dict unit.toNat =
            decodeBatchBPE payload dict
              (unit.toNat * u16beRead payload 0) := by
        have notEmpty : payload.length ≠ 0 := by
          omega
        rw [sdkDecode, if_pos rfl, decodeBatchBPEPerMessage,
          if_neg notEmpty, if_neg short]
      rw [perMessageDecode]
      apply decode_agrees canonical sameDict filled isTrailer
      exact Nat.lt_trans (Nat.add_lt_add_right product 2) (by decide)

/-- A dictionary of the letters in order, over and over. -/
def letterDictBytes : Bytes :=
  (List.range DICT_BYTES_SIZE).map fun i => UInt8.ofNat (97 + i % 26)

/-- The encoder's payload of two messages, "abcd" and "xyzab", under that
dictionary with four bytes of signature data. -/
def letterPayload : Bytes :=
  [0, 2, 0, 6, 0, 37] ++
    (List.replicate 19 0 ++ [1] ++ [0, 0, 0, 0, 0, 0, 0, 5] ++
      [64, 76, 17]) ++
    (List.replicate 19 0 ++ [2] ++ [0, 0, 0, 0, 0, 0, 0, 6] ++
      [64, 56, 4]) ++
    [7, 8, 9, 10]

def letterBatch : List Message × Bytes :=
  ([⟨1, 5, [97, 98, 99, 100]⟩, ⟨2, 6, [120, 121, 122, 97, 98]⟩],
    [7, 8, 9, 10])

/-- Both modes read the two messages back: four trailing bytes for the batch,
or two for each message. -/
theorem decoders_agree_letters :
    (∀ perMessage : Bool,
      decode {
        DICT_DATA := 0x00 :: letterDictBytes
        SIG_UNIT_SIZE := bif perMessage then 2 else 4
        PER_MESSAGE := perMessage } letterPayload = .ok letterBatch) ∧
      (∃ dict code,
        bpeDictionaryFromBytes letterDictBytes = .ok dict ∧
          deployDictionary letterDictBytes = .ok code ∧
          Agree toDecodedBatch
            (sdkDecode false letterPayload dict (4 : BitVec 256).toNat)
            (decode {
              DICT_DATA := code
              SIG_UNIT_SIZE := 4
              PER_MESSAGE := false } letterPayload)) ∧
      ∃ dict code,
        bpeDictionaryFromBytes letterDictBytes = .ok dict ∧
          deployDictionary letterDictBytes = .ok code ∧
          Agree toDecodedBatch
            (sdkDecode true letterPayload dict (2 : BitVec 256).toNat)
            (decode {
              DICT_DATA := code
              SIG_UNIT_SIZE := 2
              PER_MESSAGE := true } letterPayload) := by
  have sized : letterDictBytes.length = DICT_BYTES_SIZE := by
    rw [letterDictBytes, List.length_map, List.length_range]
  refine ⟨?_, decoders_agree sized (by decide) false letterPayload,
    decoders_agree sized (by decide) true letterPayload⟩
  rintro (_ | _)
  · decide +kernel
  · decide +kernel

end Bam.BPEDecoder
