import Bam.Sdk.BpeBatchRoundTrip
import Bam.Sdk.BpeTables

namespace Bam

open Bytewise

/-!
# The sources of a dictionary

A dictionary is read from a table of token bytes, trained on a corpus, or trained
and then restored from its serialised form.  All three are faithful; only a table
may leave a byte without a token of its own.
-/

section Table

variable {dictBytes : Bytes}

/-- The token a code has in a table. -/
def tableToken
    (dictBytes : Bytes)
    (code : Nat) : Bytes :=
  toKey dictBytes (canonicalSlot code).1 (canonicalSlot code).2

theorem canonicalSlot_inside
    {code : Nat}
    (small : code < TOTAL_CODES) :
    (canonicalSlot code).1 + (canonicalSlot code).2 ≤ DICT_BYTES_SIZE := by
  simp only [TOTAL_CODES, DICT_BYTES_SIZE, canonicalSlot] at *
  split
  · omega
  split
  · omega
  split
  · omega
  · omega

theorem length_tableToken
    (sized : dictBytes.length = DICT_BYTES_SIZE)
    {code : Nat}
    (small : code < TOTAL_CODES) :
    (tableToken dictBytes code).length = (canonicalSlot code).2 := by
  have inside := canonicalSlot_inside small
  rw [tableToken, toKey, List.length_take, List.length_drop, sized]
  omega

/-- The codes a table gives to its tokens. -/
theorem entry_of_addTokens
    {codes : List Nat}
    {tokenToCode : JsMap Bytes Nat}
    {entry : Bytes × Nat}
    (member :
      entry ∈ (codes.foldl (addToken dictBytes) tokenToCode).entries) :
    entry ∈ tokenToCode.entries ∨
      (entry.2 ∈ codes ∧ entry.1 = tableToken dictBytes entry.2) := by
  induction codes generalizing tokenToCode with
  | nil =>
      exact .inl member
  | cons code rest inductionHypothesis =>
      rcases inductionHypothesis member with inMap | ⟨later, isToken⟩
      · unfold addToken at inMap
        dsimp only at inMap
        split at inMap
        · rcases JsMap.mem_entries_set.mp inMap with isNew | ⟨old, _⟩
          · rw [isNew]
            exact .inr ⟨List.mem_cons_self, rfl⟩
          · exact .inl old
        · exact .inl inMap
      · exact .inr ⟨List.mem_cons_of_mem _ later, isToken⟩

/-- Every token of a table gets a code. -/
theorem isSome_addTokens
    {codes : List Nat}
    {tokenToCode : JsMap Bytes Nat}
    {token : Bytes}
    (held : (tokenToCode.get? token).isSome ∨
      ∃ code ∈ codes, token = tableToken dictBytes code) :
    ((codes.foldl (addToken dictBytes) tokenToCode).get? token).isSome := by
  induction codes generalizing tokenToCode with
  | nil =>
      rcases held with old | ⟨code, inNone, _⟩
      · exact old
      · cases inNone
  | cons code rest inductionHypothesis =>
      apply inductionHypothesis
      have kept : (tokenToCode.get? token).isSome ∨
          token = tableToken dictBytes code →
            ((addToken dictBytes tokenToCode code).get? token).isSome := by
        intro either
        unfold addToken
        dsimp only
        split
        · exact JsMap.isSome_get?_set either.symm
        · rename_i present
          rcases either with old | isHere
          · exact old
          · rw [isHere, tableToken]
            exact Option.isSome_iff_ne_none.mpr
              (mt Option.isNone_iff_eq_none.mpr present)
      rcases held with old | ⟨other, member, isToken⟩
      · exact .inl (kept (.inl old))
      · rcases List.mem_cons.mp member with rfl | later
        · exact .inl (kept (.inr isToken))
        · exact .inr ⟨other, later, isToken⟩

variable {dict : BPEDictionary}

/-- The map of a table's dictionary. -/
theorem tokenToCode_of_fromBytes
    (made : bpeDictionaryFromBytes dictBytes = .ok dict) :
    dictBytes.length = DICT_BYTES_SIZE ∧
      dict.tokenToCode =
        (List.range TOTAL_CODES).foldl (addToken dictBytes)
          JsMap.empty := by
  unfold bpeDictionaryFromBytes at made
  split at made
  · cases made
  · rename_i sized
    have isDict := Except.ok.inj made
    subst isDict
    refine ⟨not_not.mp sized, ?_⟩
    dsimp only

theorem entry_of_fromBytes
    (made : bpeDictionaryFromBytes dictBytes = .ok dict)
    {entry : Bytes × Nat}
    (member : entry ∈ dict.tokenToCode.entries) :
    entry.2 < TOTAL_CODES ∧ entry.1 = tableToken dictBytes entry.2 := by
  rw [(tokenToCode_of_fromBytes made).2] at member
  rcases entry_of_addTokens member with inEmpty | ⟨inRange, isToken⟩
  · cases inEmpty
  · exact ⟨List.mem_range.mp inRange, isToken⟩

/-- A code in its canonical slot expands to the bytes of the slot. -/
theorem expandCode_of_canonical
    (canonical : dict.Canonical)
    (sized : dict.dictBytes.length = DICT_BYTES_SIZE)
    {code : Nat}
    (small : code < TOTAL_CODES)
    (isCode : code ≠ 0) :
    expandCode dict code = tableToken dict.dictBytes code := by
  obtain ⟨offset, size⟩ := canonical code small
  rw [expandCode, if_pos isCode, offset, size, ← padRight_slice_eq_map,
    padRight_slice_of_le 0
      (by rw [sized]; exact canonicalSlot_inside small),
    tableToken, toKey]

/-- The dictionary of a table is faithful. -/
theorem faithful_fromBytes
    (made : bpeDictionaryFromBytes dictBytes = .ok dict) :
    dict.Faithful where
  codeSmall := fun token code member => (entry_of_fromBytes made member).1
  paddingLength := by
    intro token member
    obtain ⟨small, isToken⟩ := entry_of_fromBytes made member
    rw [show token = tableToken dictBytes 0 from isToken,
      length_tableToken (tokenToCode_of_fromBytes made).1 small]
    rfl
  expands := by
    intro token code member isCode
    obtain ⟨isBytes, canonical⟩ := canonical_of_fromBytes made
    obtain ⟨small, isToken⟩ := entry_of_fromBytes made member
    have sized : dict.dictBytes.length = DICT_BYTES_SIZE := by
      rw [isBytes]
      exact (tokenToCode_of_fromBytes made).1
    rw [expandCode_of_canonical canonical sized small isCode, isBytes]
    exact isToken.symm

/-- The token of a one-byte code is the byte in its slot. -/
theorem tableToken_oneByte
    (sized : dictBytes.length = DICT_BYTES_SIZE)
    {code : Nat}
    (isOne : 3072 ≤ code)
    (small : code < TOTAL_CODES) :
    tableToken dictBytes code = [dictBytes.getD (6144 + code) 0] := by
  have slot : canonicalSlot code = (6144 + code, 1) := by
    have isOffset : 9216 + (code - 3072) = 6144 + code := by
      omega
    rw [canonicalSlot, if_neg (by omega), if_neg (by omega),
      if_neg (by omega), isOffset]
  have inside : 6144 + code + 1 ≤ dictBytes.length := by
    rw [sized]
    simp only [TOTAL_CODES, DICT_BYTES_SIZE] at *
    omega
  rw [tableToken, toKey, slot, ← padRight_slice_of_le 0 inside,
    padRight_slice_eq_map]
  rfl

/-- The one-byte tokens of a table are the bytes of its last tier. -/
theorem isToken_oneByte_fromBytes
    (made : bpeDictionaryFromBytes dictBytes = .ok dict)
    (byte : UInt8) :
    dict.isToken [byte] = true ↔ byte ∈ dictBytes.drop 9216 := by
  obtain ⟨sized, isMap⟩ := tokenToCode_of_fromBytes made
  constructor
  · intro isToken
    obtain ⟨entry, _⟩ := BPEDictionary.isToken_iff.mp isToken
    obtain ⟨small, isTable⟩ := entry_of_fromBytes made entry
    have hasLength := congrArg List.length isTable
    rw [length_tableToken sized small] at hasLength
    have isOne : 3072 ≤ dict.codeOf [byte] := by
      by_contra below
      simp only [canonicalSlot, List.length_singleton] at hasLength
      split at hasLength
      · cases hasLength
      split at hasLength
      · cases hasLength
      split at hasLength
      · cases hasLength
      · omega
    rw [tableToken_oneByte sized isOne small] at isTable
    have isByte := List.singleton_inj.mp isTable
    have inTable : 6144 + dict.codeOf [byte] < dictBytes.length := by
      rw [sized]
      simp only [TOTAL_CODES, DICT_BYTES_SIZE] at *
      omega
    rw [isByte, List.getD_eq_getElem _ _ inTable, List.mem_drop_iff_getElem]
    have isIndex :
        9216 + (dict.codeOf [byte] - 3072) = 6144 + dict.codeOf [byte] := by
      omega
    refine ⟨dict.codeOf [byte] - 3072, by omega, ?_⟩
    simp only [isIndex]
  · intro member
    obtain ⟨index, inside, isByte⟩ := List.mem_drop_iff_getElem.mp member
    have small : 3072 + index < TOTAL_CODES := by
      rw [sized] at inside
      simp only [TOTAL_CODES, DICT_BYTES_SIZE] at *
      omega
    have isTable : [byte] = tableToken dictBytes (3072 + index) := by
      have slot : 6144 + (3072 + index) = 9216 + index := by
        omega
      rw [tableToken_oneByte sized (Nat.le_add_right _ _) small, slot,
        List.getD_eq_getElem _ _ (by omega), isByte]
    have present : (dict.tokenToCode.get? [byte]).isSome := by
      rw [isMap]
      exact isSome_addTokens
        (.inr ⟨3072 + index, List.mem_range.mpr small, isTable⟩)
    cases isFound : dict.isToken [byte] with
    | true =>
        rfl
    | false =>
        have short : [byte].length ≠ 4 := by
          rw [List.length_singleton]
          decide
        rw [(faithful_fromBytes made).codeOf_of_missing short
          isFound] at present
        cases present

end Table

section Reload

variable {dict : BPEDictionary}

/-- The arrays of a dictionary have their declared sizes and hold numbers of
their declared widths. -/
structure BPEDictionary.Stored (dict : BPEDictionary) : Prop where
  bytes : dict.dictBytes.length = DICT_BYTES_SIZE
  offsets : dict.dictOffsets.length = TOTAL_CODES
  lengths : dict.dictLengths.length = TOTAL_CODES
  offsetSmall : ∀ offset ∈ dict.dictOffsets, offset < 2 ^ 16
  lengthSmall : ∀ length ∈ dict.dictLengths, length < 2 ^ 8

/-- The map `deserializeDictionary` rebuilds from the arrays. -/
def restoredTokens (dict : BPEDictionary) : JsMap Bytes Nat :=
  (List.range TOTAL_CODES).foldl
    (restoreToken dict.dictBytes dict.dictOffsets dict.dictLengths)
    JsMap.empty

/-- A number written in an array of pairs of bytes is read back. -/
theorem toKey_offsets
    (front rest : Bytes)
    {values : List Nat}
    {i : Nat}
    (inside : i < values.length) :
    toKey (front ++ (values.flatMap (toBE 2) ++ rest))
        (front.length + i * 2) 2 =
      toBE 2 values[i] := by
  have isFlat :
      values.flatMap (toBE 2) = (values.map (toBE 2)).flatten := by
    rw [List.flatMap_def]
  have isLength :
      (values.map (toBE 2)).flatten.length = 2 * values.length := by
    rw [← isFlat]
    exact length_offsetTable values
  have uniform : ∀ part ∈ values.map (toBE 2), part.length = 2 := by
    intro part member
    obtain ⟨value, _, rfl⟩ := List.mem_map.mp member
    exact length_toBE 2 value
  have inBlocks : i < (values.map (toBE 2)).length := by
    rwa [List.length_map]
  have isBlock := take_drop_flatten uniform inBlocks 0
  rw [Nat.add_zero, Nat.sub_zero, List.drop_zero,
    List.getElem_map] at isBlock
  rw [toKey, List.drop_length_add_append, isFlat,
    List.drop_append_of_le_length (by omega),
    List.take_append_of_le_length (by rw [List.length_drop]; omega),
    isBlock]

/-- What is stored is read back, and the map is rebuilt. -/
theorem deserialize_serialize
    (stored : dict.Stored) :
    deserializeDictionary (serializeDictionary dict) =
      .ok { dict with tokenToCode := restoredTokens dict } := by
  have tableLength := length_offsetTable dict.dictOffsets
  have isWhole :
      serializeDictionary dict =
        dict.dictBytes ++
          (dict.dictOffsets.flatMap (toBE 2) ++
            dict.dictLengths.map UInt8.ofNat) :=
    List.append_assoc _ _ _
  have wholeLength :
      (serializeDictionary dict).length = BPE_SERIALIZED_SIZE := by
    rw [isWhole, List.length_append, List.length_append, List.length_map,
      tableLength, stored.bytes, stored.offsets, stored.lengths]
    rfl
  have readBytes :
      (serializeDictionary dict).take DICT_BYTES_SIZE =
        dict.dictBytes := by
    rw [isWhole, ← stored.bytes, List.take_left]
  have readOffsets :
      (List.range TOTAL_CODES).map (fun i =>
          ofBE (toKey (serializeDictionary dict)
            (DICT_BYTES_SIZE + i * 2) 2)) =
        dict.dictOffsets := by
    apply List.ext_getElem
    · rw [List.length_map, List.length_range, stored.offsets]
    · intro i inMap inOffsets
      have small := stored.offsetSmall _ (List.getElem_mem inOffsets)
      have fits : dict.dictOffsets[i] < 256 ^ 2 := small
      rw [List.getElem_map, List.getElem_range, isWhole, ← stored.bytes,
        toKey_offsets _ _ inOffsets, ofBE_toBE_of_lt fits]
  have readLengths :
      (toKey (serializeDictionary dict)
          (DICT_BYTES_SIZE + TOTAL_CODES * 2) TOTAL_CODES).map
          UInt8.toNat =
        dict.dictLengths := by
    have isFront :
        serializeDictionary dict =
          (dict.dictBytes ++ dict.dictOffsets.flatMap (toBE 2)) ++
            dict.dictLengths.map UInt8.ofNat :=
      rfl
    have frontLength :
        DICT_BYTES_SIZE + TOTAL_CODES * 2 =
          (dict.dictBytes ++
            dict.dictOffsets.flatMap (toBE 2)).length := by
      rw [List.length_append, tableLength, stored.bytes, stored.offsets,
        Nat.mul_comm]
    have isTail :
        (dict.dictLengths.map UInt8.ofNat).take TOTAL_CODES =
          dict.dictLengths.map UInt8.ofNat := by
      apply List.take_of_length_le
      rw [List.length_map, stored.lengths]
    rw [toKey, isFront, frontLength, List.drop_left, isTail,
      List.map_map]
    conv_rhs => rw [← List.map_id dict.dictLengths]
    apply List.map_congr_left
    intro length member
    have small := stored.lengthSmall length member
    rw [Function.comp_apply, UInt8.toNat_ofNat', Nat.mod_eq_of_lt small]
    rfl
  have notShort :
      ¬ (serializeDictionary dict).length < BPE_SERIALIZED_SIZE := by
    rw [wholeLength]
    exact Nat.lt_irrefl _
  unfold deserializeDictionary
  rw [if_neg notShort]
  dsimp only
  rw [readBytes, readOffsets, readLengths, restoredTokens]

/-- The tokens of the restored map are those in the slots. -/
theorem entry_of_restoreTokens
    {codes : List Nat}
    {tokenToCode : JsMap Bytes Nat}
    {entry : Bytes × Nat}
    (member :
      entry ∈ (codes.foldl
        (restoreToken dict.dictBytes dict.dictOffsets dict.dictLengths)
          tokenToCode).entries) :
    entry ∈ tokenToCode.entries ∨
      (entry.2 ∈ codes ∧ dict.dictLengths.getD entry.2 0 ≠ 0 ∧
        entry.1 =
          toKey dict.dictBytes (dict.dictOffsets.getD entry.2 0)
            (dict.dictLengths.getD entry.2 0)) := by
  induction codes generalizing tokenToCode with
  | nil =>
      exact .inl member
  | cons code rest inductionHypothesis =>
      rcases inductionHypothesis member with inMap | ⟨later, isToken⟩
      · unfold restoreToken at inMap
        dsimp only at inMap
        split at inMap
        · exact .inl inMap
        · rename_i filled
          rcases JsMap.mem_entries_set.mp inMap with isNew | ⟨old, _⟩
          · rw [isNew]
            exact .inr ⟨List.mem_cons_self, filled, rfl⟩
          · exact .inl old
      · exact .inr ⟨List.mem_cons_of_mem _ later, isToken⟩

/-- Every token in a slot is in the restored map. -/
theorem isSome_restoreTokens
    {codes : List Nat}
    {tokenToCode : JsMap Bytes Nat}
    {token : Bytes}
    (held : (tokenToCode.get? token).isSome ∨
      ∃ code ∈ codes, dict.dictLengths.getD code 0 ≠ 0 ∧
        token =
          toKey dict.dictBytes (dict.dictOffsets.getD code 0)
            (dict.dictLengths.getD code 0)) :
    ((codes.foldl
      (restoreToken dict.dictBytes dict.dictOffsets dict.dictLengths)
        tokenToCode).get? token).isSome := by
  induction codes generalizing tokenToCode with
  | nil =>
      rcases held with old | ⟨code, inNone, _⟩
      · exact old
      · cases inNone
  | cons code rest inductionHypothesis =>
      apply inductionHypothesis
      have kept : (tokenToCode.get? token).isSome →
          ((restoreToken dict.dictBytes dict.dictOffsets dict.dictLengths
            tokenToCode code).get? token).isSome := by
        intro old
        unfold restoreToken
        dsimp only
        split
        · exact old
        · exact JsMap.isSome_get?_set (.inr old)
      rcases held with old | ⟨other, member, filled, isToken⟩
      · exact .inl (kept old)
      · rcases List.mem_cons.mp member with rfl | later
        · left
          unfold restoreToken
          dsimp only
          rw [if_neg filled]
          exact JsMap.isSome_get?_set (.inl isToken)
        · exact .inr ⟨other, later, filled, isToken⟩

end Reload

section Trained

/-- The token in the slot of a tier's index. -/
theorem slice_buildDictionary
    {corpus : Bytes}
    {length index : Nat}
    (isLength : length ∈ tokenLengths)
    (inside : index < (groupOf corpus length).length) :
    tierStart length + length * index + length ≤ DICT_BYTES_SIZE ∧
      toKey (buildDictionary corpus).dictBytes
          (tierStart length + length * index) length =
        ((groupOf corpus length)[index]).1 := by
  obtain ⟨sized, written⟩ := written_buildDictionary corpus
  have room := @groupOf_room corpus length isLength
  have inTier := tier_inside isLength
  have next : length * (index + 1) ≤ length * 1024 :=
    Nat.mul_le_mul_left _ (by omega)
  rw [Nat.mul_succ] at next
  have fits :
      tierStart length + length * index + length ≤ DICT_BYTES_SIZE := by
    omega
  refine ⟨fits, ?_⟩
  rw [(tables_buildDictionary corpus).1,
    ← (written length isLength).slice isLength inside,
    ← padRight_slice_eq_map,
    padRight_slice_of_le 0 (by rw [sized.bytes]; exact fits), toKey]

/-- A trained dictionary can be stored. -/
theorem stored_buildDictionary
    (corpus : Bytes) :
    (buildDictionary corpus).Stored := by
  obtain ⟨sized, _⟩ := written_buildDictionary corpus
  obtain ⟨isBytes, isOffsets, isLengths⟩ := tables_buildDictionary corpus
  have small : ∀ code,
      (buildDictionary corpus).dictOffsets.getD code 0 < 2 ^ 16 ∧
        (buildDictionary corpus).dictLengths.getD code 0 < 2 ^ 8 := by
    intro code
    rw [isOffsets, isLengths]
    rcases slot_buildDictionary corpus code with
      ⟨length, isLength, index, inside, _, _, offset, size⟩ |
        ⟨offset, size⟩
    · have fits := (slice_buildDictionary isLength inside).1
      have lengthSmall : length ≤ 4 := by
        simp only [tokenLengths, List.mem_cons, List.not_mem_nil,
          or_false] at isLength
        omega
      simp only [DICT_BYTES_SIZE] at fits
      rw [offset, size]
      omega
    · rw [offset, size]
      decide
  constructor
  · rw [isBytes, sized.bytes]
  · rw [isOffsets, sized.offsets]
  · rw [isLengths, sized.lengths]
  · intro offset member
    obtain ⟨code, inside, rfl⟩ := List.getElem_of_mem member
    rw [← List.getD_eq_getElem _ 0 inside]
    exact (small code).1
  · intro length member
    obtain ⟨code, inside, rfl⟩ := List.getElem_of_mem member
    rw [← List.getD_eq_getElem _ 0 inside]
    exact (small code).2

/-- What is restored of a trained dictionary. -/
abbrev reloadedDictionary (corpus : Bytes) : BPEDictionary :=
  { buildDictionary corpus with
    tokenToCode := restoredTokens (buildDictionary corpus) }

/-- Expanding a code reads the arrays only. -/
theorem expandCode_with
    (dict : BPEDictionary)
    (tokenToCode : JsMap Bytes Nat)
    (code : Nat) :
    expandCode { dict with tokenToCode } code = expandCode dict code :=
  rfl

/-- A token of the restored map stands in its slot. -/
theorem entry_of_reloaded
    {corpus : Bytes}
    {entry : Bytes × Nat}
    (member : entry ∈ (restoredTokens (buildDictionary corpus)).entries) :
    ∃ length ∈ tokenLengths, ∃ (index : Nat)
        (inside : index < (groupOf corpus length).length),
      entry.2 = groupStart corpus length + index ∧
        (groupOf corpus length)[index] = entry := by
  obtain ⟨_, isOffsets, isLengths⟩ := tables_buildDictionary corpus
  rcases entry_of_restoreTokens member with
    inEmpty | ⟨_, filled, isToken⟩
  · cases inEmpty
  · rw [isOffsets, isLengths] at isToken
    rw [isLengths] at filled
    rcases slot_buildDictionary corpus entry.2 with
      ⟨length, isLength, index, inside, isIndex, isCode, offset, size⟩ |
        ⟨_, size⟩
    · rw [offset, size, (slice_buildDictionary isLength inside).2] at isToken
      refine ⟨length, isLength, index, inside, isIndex, ?_⟩
      ext1
      · exact isToken.symm
      · exact isCode
    · exact absurd size filled

/-- The restored dictionary is faithful. -/
theorem faithful_reloaded
    (corpus : Bytes) :
    (reloadedDictionary corpus).Faithful := by
  have trained : ∀ {entry : Bytes × Nat},
      entry ∈ (restoredTokens (buildDictionary corpus)).entries →
        entry ∈ (buildDictionary corpus).tokenToCode.entries := by
    intro entry member
    obtain ⟨length, isLength, index, inside, _, isEntry⟩ :=
      entry_of_reloaded member
    rw [← isEntry]
    exact (mem_groupOf.mp (List.getElem_mem inside)).1
  have faithful := faithful_buildDictionary corpus
  constructor
  · constructor
    · intro token code member
      exact faithful.codeSmall token code (trained member)
    · intro token member
      exact faithful.paddingLength token (trained member)
  · intro token code member isCode
    exact (expandCode_with _ _ code).trans
      (faithful.expands token code (trained member) isCode)

/-- Every byte is a token of a trained dictionary. -/
theorem isToken_byte_buildDictionary
    (corpus : Bytes)
    (byte : UInt8) :
    (buildDictionary corpus).isToken [byte] = true := by
  have isByte :
      (tierTokens corpus 1)[byte.toNat]? = some [byte] := by
    have isBytes : tierTokens corpus 1 = byteTokens := rfl
    rw [isBytes, byteTokens, List.getElem?_map,
      List.getElem?_range byte.toNat_lt, Option.map_some,
      UInt8.ofNat_toNat]
  have entry :
      ([byte], 3072 + byte.toNat) ∈
        (buildDictionary corpus).tokenToCode.entries :=
    mem_entries_buildDictionary.mpr
      (.inl ⟨1, by decide, byte.toNat, isByte, rfl⟩)
  have found := JsMap.get?_eq_some_iff.mpr entry
  rw [BPEDictionary.isToken, found, Option.any_some, decide_eq_true_eq]
  omega

/-- Every byte is a token of a restored dictionary. -/
theorem isToken_byte_reloaded
    (corpus : Bytes)
    (byte : UInt8) :
    (reloadedDictionary corpus).isToken [byte] = true := by
  have trained := BPEDictionary.isToken_iff.mp
    (isToken_byte_buildDictionary corpus byte)
  obtain ⟨isLength, inGroup⟩ := entry_in_group trained.1
  obtain ⟨index, inside, isEntry⟩ := List.getElem_of_mem inGroup
  have slot :=
    ((written_buildDictionary corpus).2 _ isLength).slots index inside
  have bytes := (slice_buildDictionary isLength inside).2
  obtain ⟨_, isOffsets, isLengths⟩ := tables_buildDictionary corpus
  rw [isEntry] at slot bytes
  have present :
      ((reloadedDictionary corpus).tokenToCode.get? [byte]).isSome := by
    apply isSome_restoreTokens
    refine .inr ⟨(buildDictionary corpus).codeOf [byte],
      List.mem_range.mpr
        ((numbered_buildDictionary corpus).codeOf_lt [byte]), ?_, ?_⟩
    · rw [isLengths, slot.2, List.length_singleton]
      decide
    · rw [isOffsets, isLengths, slot.1, slot.2, bytes]
  cases isFound : (reloadedDictionary corpus).isToken [byte] with
  | true =>
      rfl
  | false =>
      have short : [byte].length ≠ 4 := by
        rw [List.length_singleton]
        decide
      rw [(faithful_reloaded corpus).codeOf_of_missing short
        isFound] at present
      cases present

end Trained

/-- Where a dictionary comes from. -/
inductive DictionarySource where
  | table (dictBytes : Bytes)
  | trained (corpus : Bytes)
  | reloaded (corpus : Bytes)
  deriving Repr, DecidableEq

/-- The dictionary of a source. -/
def DictionarySource.load :
    DictionarySource → Except BpeError BPEDictionary
  | .table dictBytes => bpeDictionaryFromBytes dictBytes
  | .trained corpus => .ok (buildDictionary corpus)
  | .reloaded corpus =>
      deserializeDictionary (serializeDictionary (buildDictionary corpus))

/-- A table has a one-byte token for every byte that the longest match leaves
alone; the other sources have one for every byte. -/
def DictionarySource.Gives :
    DictionarySource → BPEDictionary → Bytes → Prop
  | .table dictBytes, dict, data =>
      ∀ byte, [byte] ∈ dict.pieces data → byte ∈ dictBytes.drop 9216
  | .trained _, _, _ => True
  | .reloaded _, _, _ => True

section Sources

variable {source : DictionarySource} {dict : BPEDictionary}

theorem reloaded_of_load
    {corpus : Bytes}
    (loaded : DictionarySource.load (.reloaded corpus) = .ok dict) :
    dict = reloadedDictionary corpus := by
  have isReloaded :=
    (deserialize_serialize (stored_buildDictionary corpus)).symm.trans
      loaded
  exact (Except.ok.inj isReloaded).symm

theorem trained_of_load
    {corpus : Bytes}
    (loaded : DictionarySource.load (.trained corpus) = .ok dict) :
    dict = buildDictionary corpus :=
  (Except.ok.inj loaded).symm

/-- Every source gives a faithful dictionary. -/
theorem faithful_of_load
    (loaded : source.load = .ok dict) :
    dict.Faithful := by
  cases source with
  | table dictBytes =>
      exact faithful_fromBytes loaded
  | trained corpus =>
      rw [trained_of_load loaded]
      exact faithful_buildDictionary corpus
  | reloaded corpus =>
      rw [reloaded_of_load loaded]
      exact faithful_reloaded corpus

/-- The pieces have codes exactly when the source gives the bytes that stand
alone. -/
theorem covers_iff_gives
    (loaded : source.load = .ok dict)
    (data : Bytes) :
    dict.Covers data ↔ source.Gives dict data := by
  have ofBytes : (∀ byte, dict.isToken [byte] = true) →
      dict.Covers data := by
    intro tokens piece member
    rcases BPEDictionary.piece_of_mem member with isToken | single
    · exact isToken
    · obtain ⟨byte, rfl⟩ := List.length_eq_one_iff.mp single
      exact tokens byte
  cases source with
  | table dictBytes =>
      constructor
      · intro covers byte member
        exact (isToken_oneByte_fromBytes loaded byte).mp
          (covers [byte] member)
      · intro gives piece member
        rcases BPEDictionary.piece_of_mem member with isToken | single
        · exact isToken
        · obtain ⟨byte, rfl⟩ := List.length_eq_one_iff.mp single
          exact (isToken_oneByte_fromBytes loaded byte).mpr
            (gives byte member)
  | trained corpus =>
      refine ⟨fun _ => trivial, fun _ => ofBytes ?_⟩
      rw [trained_of_load loaded]
      exact isToken_byte_buildDictionary corpus
  | reloaded corpus =>
      refine ⟨fun _ => trivial, fun _ => ofBytes ?_⟩
      rw [reloaded_of_load loaded]
      exact isToken_byte_reloaded corpus

/-- Recoding a batch changes nothing when it changes no contents. -/
theorem map_recodeMessage_eq_iff
    {decoding : BPEDictionary}
    {messages : List BAMMessage} :
    messages.map (recodeMessage dict decoding) = messages ↔
      ∀ message ∈ messages,
        recode dict decoding message.contents = message.contents := by
  constructor
  · intro same message member
    have unchanged :=
      List.map_eq_map_iff.mp (same.trans (List.map_id messages).symm)
        message member
    exact congrArg BAMMessage.contents unchanged
  · intro unchanged
    rw [List.map_congr_left (g := id), List.map_id]
    intro message member
    rw [recodeMessage, unchanged message member]
    rfl

/-- Encoding and decoding with one dictionary gives the data and the batch back
exactly when the dictionary's source has a token for every byte left alone. -/
theorem roundTrip_iff_gives
    (loaded : source.load = .ok dict) :
    (∀ data, bpeDecode (bpeEncode data dict) dict = .ok data ↔
        source.Gives dict data) ∧
      ∀ messages signatureData payload,
        encodeBatchBPE messages signatureData dict = .ok payload →
          (decodeBatchBPE payload dict signatureData.length =
              .ok { messages, signatureData } ↔
            ∀ message ∈ messages,
              source.Gives dict message.contents) := by
  have faithful := faithful_of_load loaded
  have recoded : ∀ data,
      recode dict dict data = data ↔ source.Gives dict data := by
    intro data
    rw [faithful.recode_eq_iff, covers_iff_gives loaded]
  constructor
  · intro data
    rw [bpeDecode_bpeEncode faithful.toNumbered, Except.ok.injEq, recoded]
  · intro messages signatureData payload encoded
    rw [decodeBatchBPE_encodeBatchBPE encoded faithful.toNumbered,
      Except.ok.injEq, DecodedBatchBPE.mk.injEq,
      and_iff_left rfl, map_recodeMessage_eq_iff]
    apply forall_congr'
    intro message
    rw [recoded]

/-- "the bam the b". -/
def lineCorpus : Bytes :=
  [116, 104, 101, 32, 98, 97, 109, 32, 116, 104, 101, 32, 98]

/-- "the bam" and "lab". -/
def lineMessages : List BAMMessage :=
  [{ sender := 1, nonce := 5,
     contents := [116, 104, 101, 32, 98, 97, 109] },
   { sender := 2, nonce := 6, contents := [108, 97, 98] }]

/-- A trained dictionary gives the contents of one message back, and the batch of
both. -/
theorem roundTrip_iff_gives_lineCorpus :
    bpeDecode
          (bpeEncode [116, 104, 101, 32, 98, 97, 109]
            (buildDictionary lineCorpus)) (buildDictionary lineCorpus) =
        .ok [116, 104, 101, 32, 98, 97, 109] ∧
      ∃ payload,
        encodeBatchBPE lineMessages [7, 8, 9, 10]
            (buildDictionary lineCorpus) = .ok payload ∧
          decodeBatchBPE payload (buildDictionary lineCorpus) 4 =
            .ok {
              messages := lineMessages
              signatureData := [7, 8, 9, 10] } := by
  obtain ⟨ofData, ofBatch⟩ :=
    @roundTrip_iff_gives (.trained lineCorpus) (buildDictionary lineCorpus)
      rfl
  obtain ⟨payload, encoded⟩ :=
    encodeBatchBPE_of_small (numbered_buildDictionary lineCorpus)
      (show ∀ message ∈ lineMessages, message.nonce ≤ MAX_NONCE by decide)
      (by decide)
      (show List.length [7, 8, 9, 10] ≤ 0xffff by decide)
  exact ⟨(ofData _).mpr trivial, payload, encoded,
    (ofBatch _ _ _ encoded).mpr fun _ _ => trivial⟩

end Sources

/-- A table of zeros has no token for the byte 1, and the byte is lost. -/
theorem byte_lost_by_zero_table :
    ∃ dict,
      DictionarySource.load
          (.table (List.replicate DICT_BYTES_SIZE 0)) = .ok dict ∧
        bpeDecode (bpeEncode [1] dict) dict ≠ .ok [1] := by
  obtain ⟨dict, made⟩ :
      ∃ dict, bpeDictionaryFromBytes
        (List.replicate DICT_BYTES_SIZE 0) = .ok dict :=
    ⟨_, if_neg (not_not.mpr List.length_replicate)⟩
  refine ⟨dict, made, ?_⟩
  have faithful := faithful_fromBytes made
  have alone : dict.pieces [1] = [[1]] := by
    have single :
        LongestMatch.frontWidth dict.isToken [4, 3, 2] [1] = 1 := by
      rfl
    rw [BPEDictionary.pieces, LongestMatch.split, single]
    simp
  rw [bpeDecode_bpeEncode faithful.toNumbered, Ne, Except.ok.injEq,
    faithful.recode_eq_iff]
  intro covers
  have isToken := covers [1] (by rw [alone]; exact List.mem_cons_self)
  have inTable := (isToken_oneByte_fromBytes made 1).mp isToken
  have isZero := List.eq_of_mem_replicate (List.mem_of_mem_drop inTable)
  exact absurd isZero (by decide)

end Bam
