import Bam.Contracts.BPEParity
import Bam.Sdk.BpeDictionaries

namespace Bam.BPEDecoder

open Bytewise
open ExceptLoops

/-!
# Trained dictionaries on chain

The contract finds a token by its code alone, the trainer writes the tokens of a
tier next to each other.  The two agree as long as the codes of a tier start at
the tier's first slot, and they do unless the corpus gives the padding token a
code.
-/

section Slots

variable {corpus : Bytes}

/-- The code of the first slot of a tier. -/
def slotBase : Nat → Nat
  | 4 => 0
  | 3 => 1024
  | 2 => 2048
  | _ => 3072

/-- The canonical slot of a code of a tier. -/
theorem canonicalSlot_of_tier
    {length slot : Nat}
    (isLength : length ∈ tokenLengths)
    (inside : slot < 1024) :
    canonicalSlot (slotBase length + slot) =
      (tierStart length + length * slot, length) := by
  simp only [tokenLengths, List.mem_cons, List.not_mem_nil,
    or_false] at isLength
  rcases isLength with rfl | rfl | rfl | rfl
  · rw [canonicalSlot, slotBase, tierStart, if_pos (by omega), Nat.zero_add,
      Nat.zero_add, Nat.mul_comm]
  · rw [canonicalSlot, slotBase, tierStart, if_neg (by omega),
      if_pos (by omega), Nat.add_sub_cancel_left, Nat.mul_comm]
  · rw [canonicalSlot, slotBase, tierStart, if_neg (by omega),
      if_neg (by omega), if_pos (by omega), Nat.add_sub_cancel_left,
      Nat.mul_comm]
  · have base : slotBase 1 = 3072 := rfl
    have start : tierStart 1 = 9216 := rfl
    rw [canonicalSlot, base, start, if_neg (by omega),
      if_neg (by omega), if_neg (by omega), Nat.add_sub_cancel_left,
      Nat.one_mul]

/-- The codes of a tier lie in the slots of the tier. -/
theorem code_in_slots
    {length index : Nat}
    (isLength : length ∈ tokenLengths)
    (inside : index < (groupOf corpus length).length) :
    ∃ slot < 1024, groupStart corpus length + index =
        slotBase length + slot ∧
      slot = groupStart corpus length - slotBase length + index := by
  rw [length_groupOf isLength] at inside
  obtain ⟨room, roomFour⟩ := tierTokens_room corpus isLength
  refine ⟨groupStart corpus length - slotBase length + index, ?_⟩
  rcases groupStart_cases corpus length with
    ⟨start, _, count⟩ | ⟨start, isFour, _, count⟩
  · have base := isLength
    simp only [tokenLengths, List.mem_cons, List.not_mem_nil,
      or_false] at base
    rcases base with rfl | rfl | rfl | rfl
    · have four := roomFour rfl
      have bases : tierBase 4 = 1 ∧ slotBase 4 = 0 := ⟨rfl, rfl⟩
      omega
    · have bases : tierBase 3 = 1024 ∧ slotBase 3 = 1024 := ⟨rfl, rfl⟩
      omega
    · have bases : tierBase 2 = 2048 ∧ slotBase 2 = 2048 := ⟨rfl, rfl⟩
      omega
    · have bases : tierBase 1 = 3072 ∧ slotBase 1 = 3072 := ⟨rfl, rfl⟩
      omega
  · have four := roomFour isFour
    subst isFour
    rw [start, slotBase]
    omega

/-- What the contract copies for a slot of a tier: the token at the slot's place
in the tier, or zeros behind the last token. -/
theorem tableToken_buildDictionary
    {length slot : Nat}
    (isLength : length ∈ tokenLengths)
    (small : slot < 1024) :
    tableToken (buildDictionary corpus).dictBytes
        (slotBase length + slot) =
      if inside : slot < (groupOf corpus length).length then
        ((groupOf corpus length)[slot]).1
      else List.replicate length 0 := by
  rw [tableToken, canonicalSlot_of_tier isLength small]
  split
  · rename_i inside
    exact (slice_buildDictionary isLength inside).2
  · rename_i outside
    obtain ⟨sized, written⟩ := written_buildDictionary corpus
    have inTier := tier_inside isLength
    have next : length * (slot + 1) ≤ length * 1024 :=
      Nat.mul_le_mul_left _ (by omega)
    have past :
        length * (groupOf corpus length).length ≤ length * slot :=
      Nat.mul_le_mul_left _ (by omega)
    rw [Nat.mul_succ] at next
    have fits :
        tierStart length + length * slot + length ≤ DICT_BYTES_SIZE := by
      omega
    rw [(tables_buildDictionary corpus).1, toKey,
      ← padRight_slice_of_le 0 (by rw [sized.bytes]; exact fits),
      padRight_slice_eq_map]
    apply List.ext_getElem
    · rw [List.length_map, List.length_range, List.length_replicate]
    · intro byte inMap inZeros
      have inSlot : byte < length := by
        rwa [List.length_replicate] at inZeros
      rw [List.getElem_map, List.getElem_range, List.getElem_replicate,
        Nat.add_assoc, (written length isLength).bytes _ (by omega),
        List.getD_eq_default]
      rw [length_flatMap_fst fun entry member => groupOf_uniform member]
      omega

/-- A token has one code. -/
theorem code_unique
    {token : Bytes}
    {first second : Nat}
    (isFirst :
      (token, first) ∈ (buildDictionary corpus).tokenToCode.entries)
    (isSecond :
      (token, second) ∈ (buildDictionary corpus).tokenToCode.entries) :
    first = second :=
  Option.some.inj ((JsMap.get?_eq_some_iff.mpr isFirst).symm.trans
    (JsMap.get?_eq_some_iff.mpr isSecond))

/-- The codes the contract expands to their tokens: all of them while the
padding token keeps code 0; otherwise those of fewer bytes, and the padding
token's own code if it is the last of its tier. -/
def ExpandsOnChain
    (corpus token : Bytes) : Prop :=
  paddingToken ∉ tierTokens corpus 4 ∨ token.length ≠ 4 ∨
    (token = paddingToken ∧
      (tierTokens corpus 4).getLast? = some paddingToken)

/-- The last token of four bytes has the last code. -/
theorem getLast?_tierTokens_iff
    {token : Bytes}
    {code : Nat}
    (isFour : token.length = 4)
    (isCode : code ≠ 0)
    (entry :
      (token, code) ∈ (buildDictionary corpus).tokenToCode.entries) :
    (tierTokens corpus 4).getLast? = some token ↔
      code = (tierTokens corpus 4).length := by
  have inTier : ∃ i : Nat, (tierTokens corpus 4)[i]? = some token ∧
      code = 1 + i := by
    rcases mem_entries_buildDictionary.mp entry with
      ⟨length, isLength, i, isToken, code_eq⟩ | ⟨isPadding, _⟩
    · have hasLength := length_of_mem_tierTokens isLength
        (List.mem_of_getElem? isToken)
      rw [show length = 4 from hasLength.symm.trans isFour]
        at isToken code_eq
      exact ⟨i, isToken, code_eq⟩
    · exact absurd (Prod.mk.inj isPadding).2 isCode
  obtain ⟨i, isToken, isIndex⟩ := inTier
  obtain ⟨inside, isElement⟩ := List.getElem?_eq_some_iff.mp isToken
  rw [List.getLast?_eq_getElem?]
  constructor
  · intro isLast
    obtain ⟨lastInside, isLastElement⟩ :=
      List.getElem?_eq_some_iff.mp isLast
    have same :=
      (tierTokens_nodup corpus 4).getElem_inj_iff.mp
        (isElement.trans isLastElement.symm)
    omega
  · intro isLast
    rw [show (tierTokens corpus 4).length - 1 = i by omega]
    exact isToken

/-- A code of the trainer expands on chain to its token in exactly these
cases. -/
theorem tableToken_eq_iff
    {token : Bytes}
    {code : Nat}
    (entry :
      (token, code) ∈ (buildDictionary corpus).tokenToCode.entries)
    (isCode : code ≠ 0) :
    tableToken (buildDictionary corpus).dictBytes code = token ↔
      ExpandsOnChain corpus token := by
  obtain ⟨isLength, inGroup⟩ :
      token.length ∈ tokenLengths ∧
        (token, code) ∈ groupOf corpus token.length :=
    entry_in_group entry
  obtain ⟨index, inside, isEntry⟩ := List.getElem_of_mem inGroup
  have codeAt := code_groupOf isLength inside
  rw [isEntry] at codeAt
  obtain ⟨slot, small, isSlot, slotAt⟩ := code_in_slots isLength inside
  have isCodeSlot : code = slotBase token.length + slot :=
    codeAt.trans isSlot
  rw [isCodeSlot, tableToken_buildDictionary isLength small]
  by_cases aligned :
      groupStart corpus token.length = slotBase token.length
  · have isIndex : slot = index := by
      omega
    subst isIndex
    rw [dif_pos inside, isEntry]
    refine ⟨fun _ => ?_, fun _ => rfl⟩
    by_cases isFour : token.length = 4
    · left
      intro collides
      rw [isFour, groupStart, if_neg (by simp [collides])] at aligned
      cases aligned
    · exact .inr (.inl isFour)
  · obtain ⟨isFour, collides⟩ :
        token.length = 4 ∧ paddingToken ∈ tierTokens corpus 4 := by
      have bases := isLength
      simp only [tokenLengths, List.mem_cons, List.not_mem_nil,
        or_false] at bases
      rcases bases with isFour | isThree | isTwo | isOne
      · refine ⟨isFour, ?_⟩
        by_contra absent
        rw [isFour, groupStart, if_pos ⟨rfl, absent⟩] at aligned
        exact aligned rfl
      all_goals
        refine absurd ?_ aligned
        rw [groupStart, if_neg (by omega)]
      · rw [isThree]
        rfl
      · rw [isTwo]
        rfl
      · rw [isOne]
        rfl
    have starts : groupStart corpus token.length = 1 := by
      rw [isFour, groupStart, if_neg (by simp [collides])]
      rfl
    have bases : slotBase token.length = 0 := by
      rw [isFour]
      rfl
    have isLastCode := getLast?_tierTokens_iff isFour isCode entry
    have groupSize :
        (groupOf corpus token.length).length =
          (tierTokens corpus 4).length := by
      rw [length_groupOf isLength, isFour]
      rcases groupStart_cases corpus 4 with
        ⟨_, _, count⟩ | ⟨_, _, absent, _⟩
      · exact count
      · exact absurd collides absent
    have onlyLast :
        ExpandsOnChain corpus token ↔
          token = paddingToken ∧
            (tierTokens corpus 4).getLast? = some paddingToken := by
      unfold ExpandsOnChain
      simp [collides, isFour]
    rw [onlyLast]
    by_cases next : slot < (groupOf corpus token.length).length
    · rw [dif_pos next]
      constructor
      · intro same
        have other := code_groupOf isLength next
        have otherEntry :
            (token, ((groupOf corpus token.length)[slot]).2) ∈
              (buildDictionary corpus).tokenToCode.entries := by
          have inMap := (mem_groupOf.mp (List.getElem_mem next)).1
          rw [← Prod.mk.eta
            (p := (groupOf corpus token.length)[slot]), same] at inMap
          exact inMap
        have sameCode := code_unique entry otherEntry
        omega
      · rintro ⟨isPadding, isLast⟩
        rw [← isPadding] at isLast
        have lastCode := isLastCode.mp isLast
        omega
    · rw [dif_neg next, isFour]
      constructor
      · intro isZeros
        have isPadding : token = paddingToken := isZeros.symm
        refine ⟨isPadding, ?_⟩
        rw [← isPadding]
        apply isLastCode.mpr
        omega
      · rintro ⟨isPadding, _⟩
        exact isPadding.symm

end Slots

/-- The batches the contract gives back: no token of four bytes is used that
does not expand on chain. -/
def GivenBackOnChain
    (corpus : Bytes)
    (messages : List BAMMessage) : Prop :=
  ∀ message ∈ messages,
    ∀ piece ∈ (buildDictionary corpus).pieces message.contents,
      ExpandsOnChain corpus piece

section Decode

variable {corpus : Bytes} {chain : BPEDictionary}

theorem length_dictBytes
    (corpus : Bytes) :
    (buildDictionary corpus).dictBytes.length = DICT_BYTES_SIZE :=
  (stored_buildDictionary corpus).bytes

/-- The contract reads the codes of the trained bytes by their slots. -/
theorem expandCode_chain
    (made :
      bpeDictionaryFromBytes (buildDictionary corpus).dictBytes =
        .ok chain)
    {code : Nat}
    (small : code < TOTAL_CODES)
    (isCode : code ≠ 0) :
    expandCode chain code =
      tableToken (buildDictionary corpus).dictBytes code := by
  obtain ⟨isBytes, canonical⟩ := canonical_of_fromBytes made
  have sized : chain.dictBytes.length = DICT_BYTES_SIZE := by
    rw [isBytes]
    exact length_dictBytes corpus
  rw [expandCode_of_canonical canonical sized small isCode, isBytes]

/-- The piece of a message and its code. -/
theorem entry_of_piece
    {data piece : Bytes}
    (member : piece ∈ (buildDictionary corpus).pieces data) :
    (piece, (buildDictionary corpus).codeOf piece) ∈
        (buildDictionary corpus).tokenToCode.entries ∧
      (buildDictionary corpus).codeOf piece ≠ 0 := by
  apply BPEDictionary.isToken_iff.mp
  rcases BPEDictionary.piece_of_mem member with isToken | single
  · exact isToken
  · obtain ⟨byte, rfl⟩ := List.length_eq_one_iff.mp single
    exact isToken_byte_buildDictionary corpus byte

/-- A code expands to as many bytes on chain as its token has. -/
theorem length_tableToken_eq
    {token : Bytes}
    {code : Nat}
    (entry :
      (token, code) ∈ (buildDictionary corpus).tokenToCode.entries) :
    (tableToken (buildDictionary corpus).dictBytes code).length =
      token.length := by
  obtain ⟨isLength, inGroup⟩ :
      token.length ∈ tokenLengths ∧
        (token, code) ∈ groupOf corpus token.length :=
    entry_in_group entry
  obtain ⟨index, inside, isEntry⟩ := List.getElem_of_mem inGroup
  have codeAt := code_groupOf isLength inside
  rw [isEntry] at codeAt
  obtain ⟨slot, small, isSlot, _⟩ := code_in_slots isLength inside
  have isCodeSlot : code = slotBase token.length + slot :=
    codeAt.trans isSlot
  have smallCode :=
    (numbered_buildDictionary corpus).codeSmall token code entry
  rw [length_tableToken (length_dictBytes corpus) smallCode, isCodeSlot,
    canonicalSlot_of_tier isLength small]

/-- The contract gives the contents of a message back exactly when every piece
of them expands on chain. -/
theorem recode_chain_eq_iff
    (made :
      bpeDictionaryFromBytes (buildDictionary corpus).dictBytes =
        .ok chain)
    (data : Bytes) :
    recode (buildDictionary corpus) chain data = data ↔
      ∀ piece ∈ (buildDictionary corpus).pieces data,
        ExpandsOnChain corpus piece := by
  have expanded : ∀ piece ∈ (buildDictionary corpus).pieces data,
      expandCode chain ((buildDictionary corpus).codeOf piece) =
        tableToken (buildDictionary corpus).dictBytes
          ((buildDictionary corpus).codeOf piece) := by
    intro piece member
    exact expandCode_chain made
      ((numbered_buildDictionary corpus).codeOf_lt piece)
      (entry_of_piece member).2
  have shrinks : ∀ piece ∈ (buildDictionary corpus).pieces data,
      (expandCode chain
        ((buildDictionary corpus).codeOf piece)).length ≤
          piece.length := by
    intro piece member
    rw [expanded piece member,
      length_tableToken_eq (entry_of_piece member).1]
  have whole := flatMap_eq_flatten_iff shrinks
  rw [(buildDictionary corpus).flatten_pieces data] at whole
  rw [recode, whole]
  apply forall₂_congr
  intro piece member
  obtain ⟨entry, isCode⟩ := entry_of_piece member
  rw [expanded piece member, tableToken_eq_iff entry isCode]

/-- All codes expand on chain exactly when the padding token is no token of the
corpus, or the only one of four bytes. -/
theorem expandsOnChain_all_iff
    (corpus : Bytes) :
    (∀ token code,
        (token, code) ∈ (buildDictionary corpus).tokenToCode.entries →
          code ≠ 0 → ExpandsOnChain corpus token) ↔
      paddingToken ∉ tierTokens corpus 4 ∨
        tierTokens corpus 4 = [paddingToken] := by
  constructor
  · intro expands
    by_cases collides : paddingToken ∈ tierTokens corpus 4
    · right
      have onlyPadding : ∀ token ∈ tierTokens corpus 4,
          token = paddingToken := by
        intro token member
        obtain ⟨i, inside, isToken⟩ := List.getElem_of_mem member
        have entry :
            (token, 1 + i) ∈
              (buildDictionary corpus).tokenToCode.entries := by
          apply mem_entries_buildDictionary.mpr
          refine .inl ⟨4, by decide, i, ?_, rfl⟩
          rw [List.getElem?_eq_getElem inside, isToken]
        rcases expands token (1 + i) entry (by omega) with
          absent | isShort | ⟨isPadding, _⟩
        · exact absurd collides absent
        · exact absurd (length_of_mem_tierTokens (by decide) member)
            isShort
        · exact isPadding
      have replicated := List.eq_replicate_of_mem onlyPadding
      have distinct := tierTokens_nodup corpus 4
      rw [replicated] at distinct
      have single := List.nodup_replicate.mp distinct
      have filled := List.length_pos_of_mem collides
      rw [replicated, show (tierTokens corpus 4).length = 1 by omega]
      rfl
    · exact .inl collides
  · rintro (absent | isSingle) token code entry isCode
    · exact .inl absent
    · by_cases isFour : token.length = 4
      · rcases mem_entries_buildDictionary.mp entry with
          ⟨length, isLength, i, isToken, _⟩ | ⟨isPadding, _⟩
        · have inTier := List.mem_of_getElem? isToken
          have hasLength := length_of_mem_tierTokens isLength inTier
          rw [show length = 4 from hasLength.symm.trans isFour,
            isSingle] at inTier
          refine .inr (.inr ⟨List.mem_singleton.mp inTier, ?_⟩)
          rw [isSingle]
          rfl
        · exact absurd (Prod.mk.inj isPadding).2 isCode
      · exact .inr (.inl isFour)

/-- What the contract returns for an encoded batch. -/
theorem decode_encoded
    {decoder : BPEDecoder}
    (deployed :
      deployDictionary (buildDictionary corpus).dictBytes =
        .ok decoder.DICT_DATA)
    (made :
      bpeDictionaryFromBytes (buildDictionary corpus).dictBytes =
        .ok chain)
    {messages : List BAMMessage}
    {signatureData payload : Bytes}
    (encoded :
      encodeBatchBPE messages signatureData (buildDictionary corpus) =
        .ok payload)
    (isTrailer :
      decoder.trailerLen messages.length = some signatureData.length) :
    (decoder.decode payload).toOption.map toDecodedBatch =
      some {
        messages := messages.map
          (recodeMessage (buildDictionary corpus) chain)
        signatureData } := by
  obtain ⟨isBytes, canonical⟩ := canonical_of_fromBytes made
  have sameDict : decoder.loadDict = chain.dictBytes := by
    rw [isBytes]
    exact loadDict_deployed deployed
  have laid := laidOut_of_encode encoded
  have filled : 2 ≤ payload.length := by
    rw [laid.bytes, List.length_append, length_toBE]
    omega
  have trailerSmall : signatureData.length + 2 < 2 ^ 256 := by
    have short := laid.short
    rw [laid.bytes, List.length_append, List.length_append,
      List.length_append, MAX_ARRAY_LENGTH] at short
    omega
  rw [← laid.readCount] at isTrailer
  have agreed :=
    decode_agrees canonical sameDict filled isTrailer trailerSmall
  rw [decodeBatchBPE_encodeBatchBPE encoded
    (numbered_buildDictionary corpus)] at agreed
  exact agreed.symm

/-- A contract over the bytes of a trained dictionary, with a trailer as long as
the signature data, gives an encoded batch back exactly when no message uses a
token of four bytes that the padding token displaced; and it expands every code
of the trainer to its token exactly when no token is displaced. -/
theorem decode_trained_iff
    {decoder : BPEDecoder}
    (deployed :
      deployDictionary (buildDictionary corpus).dictBytes =
        .ok decoder.DICT_DATA)
    {messages : List BAMMessage}
    {signatureData payload : Bytes}
    (encoded :
      encodeBatchBPE messages signatureData (buildDictionary corpus) =
        .ok payload)
    (isTrailer :
      decoder.trailerLen messages.length = some signatureData.length) :
    ((decoder.decode payload).toOption.map toDecodedBatch =
        some { messages, signatureData } ↔
      GivenBackOnChain corpus messages) ∧
      ((∀ token code,
          (token, code) ∈ (buildDictionary corpus).tokenToCode.entries →
            code ≠ 0 → copyToken decoder.loadDict code = token) ↔
        paddingToken ∉ tierTokens corpus 4 ∨
          tierTokens corpus 4 = [paddingToken]) := by
  obtain ⟨chain, made⟩ :
      ∃ chain, bpeDictionaryFromBytes
        (buildDictionary corpus).dictBytes = .ok chain :=
    ⟨_, if_neg (not_not.mpr (length_dictBytes corpus))⟩
  obtain ⟨isBytes, canonical⟩ := canonical_of_fromBytes made
  constructor
  · rw [decode_encoded deployed made encoded isTrailer,
      Option.some.injEq, DecodedBatchBPE.mk.injEq, and_iff_left rfl,
      map_recodeMessage_eq_iff]
    apply forall₂_congr
    intro message _
    exact recode_chain_eq_iff made message.contents
  · rw [← expandsOnChain_all_iff, loadDict_deployed deployed, ← isBytes]
    apply forall₂_congr
    intro token code
    apply forall₂_congr
    intro entry isCode
    have small :=
      (numbered_buildDictionary corpus).codeSmall token code entry
    rw [copyToken_eq_expandCode canonical small,
      expandCode_chain made small isCode, tableToken_eq_iff entry isCode]

/-- The contract over the dictionary of the corpus, two trailing bytes a
message. -/
def lineDecoder : BPEDecoder where
  DICT_DATA := 0x00 :: (buildDictionary lineCorpus).dictBytes
  SIG_UNIT_SIZE := 2
  PER_MESSAGE := true

theorem tierTokens_lineCorpus :
    tierTokens lineCorpus 4 =
      [[116, 104, 101, 32], [104, 101, 32, 98], [101, 32, 98, 97],
        [32, 98, 97, 109], [98, 97, 109, 32], [97, 109, 32, 116],
        [109, 32, 116, 104], [32, 116, 104, 101]] := by
  decide

/-- The contract gives the two messages back, and every code of the trainer is
its token there. -/
theorem decode_trained_lineCorpus :
    ∃ payload,
      encodeBatchBPE lineMessages [7, 8, 9, 10]
          (buildDictionary lineCorpus) = .ok payload ∧
        (lineDecoder.decode payload).toOption.map toDecodedBatch =
          some {
            messages := lineMessages
            signatureData := [7, 8, 9, 10] } ∧
        ∀ token code,
          (token, code) ∈
              (buildDictionary lineCorpus).tokenToCode.entries →
            code ≠ 0 →
              copyToken (loadDict lineDecoder) code = token := by
  have noPadding : paddingToken ∉ tierTokens lineCorpus 4 := by
    rw [tierTokens_lineCorpus]
    decide
  have deployed :
      deployDictionary (buildDictionary lineCorpus).dictBytes =
        .ok lineDecoder.DICT_DATA :=
    if_neg (not_not.mpr (length_dictBytes lineCorpus))
  obtain ⟨payload, encoded⟩ :=
    encodeBatchBPE_of_small (numbered_buildDictionary lineCorpus)
      (show ∀ message ∈ lineMessages, message.nonce ≤ MAX_NONCE by decide)
      (by decide)
      (show List.length [7, 8, 9, 10] ≤ 0xffff by decide)
  obtain ⟨givenBack, expands⟩ :=
    decode_trained_iff deployed encoded (by decide)
  refine ⟨payload, encoded, givenBack.mpr ?_, expands.mpr (.inl noPadding)⟩
  intro message _ piece _
  exact .inl noPadding

end Decode

section Displaced

/-- A corpus in which four zero bytes are a window. -/
def zeroCorpus : Bytes := [0, 0, 0, 0, 1]

/-- A message that uses the token next to the zeros. -/
def displacedMessage : BAMMessage where
  sender := 0
  nonce := 0
  contents := [0, 0, 0, 1]

theorem tierTokens_zeroCorpus :
    tierTokens zeroCorpus 4 = [[0, 0, 0, 0], [0, 0, 0, 1]] := by
  decide

/-- The contents are one token of four bytes. -/
theorem pieces_displacedMessage :
    (buildDictionary zeroCorpus).pieces displacedMessage.contents =
      [[0, 0, 0, 1]] := by
  have entry :
      (([0, 0, 0, 1] : Bytes), 2) ∈
        (buildDictionary zeroCorpus).tokenToCode.entries := by
    apply mem_entries_buildDictionary.mpr
    refine .inl ⟨4, by decide, 1, ?_, rfl⟩
    rw [tierTokens_zeroCorpus]
    rfl
  have isToken :
      (buildDictionary zeroCorpus).isToken [0, 0, 0, 1] = true := by
    rw [BPEDictionary.isToken, JsMap.get?_eq_some_iff.mpr entry]
    rfl
  have front :
      LongestMatch.frontWidth (buildDictionary zeroCorpus).isToken
        [4, 3, 2] [0, 0, 0, 1] = 4 := by
    rw [LongestMatch.frontWidth, if_pos ⟨by decide, isToken⟩]
  rw [BPEDictionary.pieces, displacedMessage,
    LongestMatch.split_of_ne_nil (by decide) (by rw [front]; decide),
    front]
  simp

/-- With four zeros among the windows of the corpus, the contract returns other
contents than were encoded. -/
theorem displaced_token_changes_contents :
    ∃ payload,
      encodeBatchBPE [displacedMessage] [] (buildDictionary zeroCorpus) =
          .ok payload ∧
        deployDictionary (buildDictionary zeroCorpus).dictBytes =
          .ok (0x00 :: (buildDictionary zeroCorpus).dictBytes) ∧
        (decode {
            DICT_DATA := 0x00 :: (buildDictionary zeroCorpus).dictBytes
            SIG_UNIT_SIZE := 0
            PER_MESSAGE := false } payload).toOption.map toDecodedBatch ≠
          some { messages := [displacedMessage], signatureData := [] } := by
  obtain ⟨payload, encoded⟩ :=
    encodeBatchBPE_of_small (numbered_buildDictionary zeroCorpus)
      (show ∀ message ∈ [displacedMessage], message.nonce ≤ MAX_NONCE by
        decide)
      (by decide)
      (show List.length [] ≤ 0xffff from Nat.zero_le _)
  have deployed :
      deployDictionary (buildDictionary zeroCorpus).dictBytes =
        .ok (0x00 :: (buildDictionary zeroCorpus).dictBytes) :=
    if_neg (not_not.mpr (length_dictBytes zeroCorpus))
  obtain ⟨chain, made⟩ :
      ∃ chain, bpeDictionaryFromBytes
        (buildDictionary zeroCorpus).dictBytes = .ok chain :=
    ⟨_, if_neg (not_not.mpr (length_dictBytes zeroCorpus))⟩
  refine ⟨payload, encoded, deployed, ?_⟩
  have returned :=
    @decode_encoded zeroCorpus chain {
      DICT_DATA := 0x00 :: (buildDictionary zeroCorpus).dictBytes
      SIG_UNIT_SIZE := 0
      PER_MESSAGE := false } deployed made [displacedMessage] [] payload
      encoded rfl
  rw [returned, Ne, Option.some.injEq, DecodedBatchBPE.mk.injEq,
    and_iff_left rfl, map_recodeMessage_eq_iff]
  intro unchanged
  have expands :=
    (recode_chain_eq_iff made displacedMessage.contents).mp
      (unchanged displacedMessage List.mem_cons_self)
      [0, 0, 0, 1] (by
        rw [pieces_displacedMessage]
        exact List.mem_cons_self)
  rcases expands with absent | isShort | ⟨isPadding, _⟩
  · rw [tierTokens_zeroCorpus] at absent
    exact absent List.mem_cons_self
  · exact isShort rfl
  · exact absurd isPadding (by decide)

end Displaced

end Bam.BPEDecoder
