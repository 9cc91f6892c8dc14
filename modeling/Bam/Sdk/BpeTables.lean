import Bam.Sdk.BpeTraining

namespace Bam

open Bytewise

/-!
# The tables of a trained dictionary

What `makeDictBlobs` leaves in its three arrays.  Every tier is written inside
its own part of `dictBytes`, so writing one leaves the others alone.
-/

theorem writeAt_append
    (position : Nat)
    (first second buffer : Bytes) :
    writeAt position (first ++ second) buffer =
      writeAt (position + first.length) second
        (writeAt position first buffer) := by
  induction first generalizing position buffer with
  | nil =>
      rfl
  | cons byte rest inductionHypothesis =>
      rw [List.cons_append, writeAt, writeAt, inductionHypothesis,
        List.length_cons, Nat.add_assoc, Nat.add_comm 1]

@[simp] theorem length_writeAt
    (position : Nat)
    (data buffer : Bytes) :
    (writeAt position data buffer).length = buffer.length := by
  induction data generalizing position buffer with
  | nil =>
      rfl
  | cons byte rest inductionHypothesis =>
      rw [writeAt, inductionHypothesis, List.length_set]

theorem getD_set
    {α : Type*}
    (items : List α)
    (index other : Nat)
    (value fallback : α) :
    (items.set index value).getD other fallback =
      if index = other ∧ index < items.length then value
      else items.getD other fallback := by
  simp only [List.getD_eq_getElem?_getD, List.getElem?_set]
  by_cases same : index = other
  · subst same
    by_cases inside : index < items.length
    · simp [inside]
    · simp [inside]
  · simp [same]

/-- A write changes the bytes it covers and no others. -/
theorem getD_writeAt
    {position : Nat}
    {data buffer : Bytes}
    (room : position + data.length ≤ buffer.length)
    (index : Nat) :
    (writeAt position data buffer).getD index 0 =
      if position ≤ index ∧ index < position + data.length then
        data.getD (index - position) 0
      else buffer.getD index 0 := by
  induction data generalizing position buffer with
  | nil =>
      rw [writeAt, if_neg]
      rw [List.length_nil]
      omega
  | cons byte rest inductionHypothesis =>
      rw [List.length_cons] at room ⊢
      have restRoom :
          position + 1 + rest.length ≤
            (buffer.set position byte).length := by
        rw [List.length_set]
        omega
      rw [writeAt, inductionHypothesis restRoom, getD_set]
      by_cases here : index = position
      · subst here
        rw [if_neg (by omega), if_pos ⟨rfl, by omega⟩,
          if_pos (by omega), Nat.sub_self, List.getD_cons_zero]
      · by_cases covered :
            position ≤ index ∧ index < position + (rest.length + 1)
        · have next : index - position = index - (position + 1) + 1 := by
            omega
          rw [if_pos (by omega), if_pos covered, next,
            List.getD_cons_succ]
        · rw [if_neg (by omega), if_neg (by omega), if_neg covered]

section Tier

variable {length : Nat} {group : List (Bytes × Nat)}

/-- A tier's tokens are written one after the other. -/
theorem dictBytes_writeTokens
    (uniform : ∀ entry ∈ group, entry.1.length = length)
    (pos : Nat)
    (blobs : DictBlobs) :
    (writeTokens length group pos blobs).dictBytes =
      writeAt pos (group.flatMap Prod.fst) blobs.dictBytes := by
  induction group generalizing pos blobs with
  | nil =>
      rfl
  | cons entry rest inductionHypothesis =>
      obtain ⟨tok, code⟩ := entry
      have hasLength : tok.length = length :=
        uniform (tok, code) List.mem_cons_self
      rw [writeTokens, inductionHypothesis
        (fun other member => uniform other
          (List.mem_cons_of_mem _ member)),
        List.flatMap_cons, writeAt_append, hasLength]

theorem length_flatMap_fst
    (uniform : ∀ entry ∈ group, entry.1.length = length) :
    (group.flatMap Prod.fst).length = length * group.length := by
  induction group with
  | nil =>
      rfl
  | cons entry rest inductionHypothesis =>
      rw [List.flatMap_cons, List.length_append,
        uniform entry List.mem_cons_self,
        inductionHypothesis fun other member =>
          uniform other (List.mem_cons_of_mem _ member),
        List.length_cons, Nat.mul_succ, Nat.add_comm]

/-- The bytes of the token at an index of a tier. -/
theorem getD_flatMap_fst
    (uniform : ∀ entry ∈ group, entry.1.length = length)
    {index byte : Nat}
    (inside : index < group.length)
    (small : byte < length) :
    (group.flatMap Prod.fst).getD (length * index + byte) 0 =
      (group[index].1).getD byte 0 := by
  induction group generalizing index with
  | nil =>
      cases inside
  | cons entry rest inductionHypothesis =>
      have hasLength := uniform entry List.mem_cons_self
      cases index with
      | zero =>
          rw [List.flatMap_cons, Nat.mul_zero, Nat.zero_add,
            List.getD_append _ _ _ _ (by omega), List.getElem_cons_zero]
      | succ index =>
          have past :
              length * (index + 1) + byte - entry.1.length =
                length * index + byte := by
            rw [hasLength, Nat.mul_succ]
            omega
          have beyond : entry.1.length ≤ length * (index + 1) + byte := by
            rw [hasLength, Nat.mul_succ]
            omega
          rw [List.flatMap_cons, List.getD_append_right _ _ _ _ beyond,
            past, List.getElem_cons_succ]
          exact inductionHypothesis
            (fun other member => uniform other
              (List.mem_cons_of_mem _ member))
            (Nat.lt_of_succ_lt_succ inside)

/-- Writing a tier keeps the sizes of the arrays. -/
theorem sizes_writeTokens
    (pos : Nat)
    (blobs : DictBlobs) :
    (writeTokens length group pos blobs).dictBytes.length =
        blobs.dictBytes.length ∧
      (writeTokens length group pos blobs).dictOffsets.length =
        blobs.dictOffsets.length ∧
      (writeTokens length group pos blobs).dictLengths.length =
        blobs.dictLengths.length := by
  induction group generalizing pos blobs with
  | nil =>
      exact ⟨rfl, rfl, rfl⟩
  | cons entry rest inductionHypothesis =>
      obtain ⟨bytes, offsets, lengths⟩ :=
        inductionHypothesis (pos + length) {
          dictBytes := writeAt pos entry.1 blobs.dictBytes
          dictOffsets := blobs.dictOffsets.set entry.2 pos
          dictLengths := blobs.dictLengths.set entry.2 length }
      rw [length_writeAt] at bytes
      rw [List.length_set] at offsets lengths
      exact ⟨bytes, offsets, lengths⟩

/-- A code that a tier does not have keeps its offset and its length. -/
theorem writeTokens_other
    {code : Nat}
    (absent : code ∉ group.map Prod.snd)
    (pos : Nat)
    (blobs : DictBlobs) :
    (writeTokens length group pos blobs).dictOffsets.getD code 0 =
        blobs.dictOffsets.getD code 0 ∧
      (writeTokens length group pos blobs).dictLengths.getD code 0 =
        blobs.dictLengths.getD code 0 := by
  induction group generalizing pos blobs with
  | nil =>
      exact ⟨rfl, rfl⟩
  | cons entry rest inductionHypothesis =>
      rw [List.map_cons, List.mem_cons, not_or] at absent
      obtain ⟨offset, size⟩ :=
        inductionHypothesis absent.2 (pos + length) {
          dictBytes := writeAt pos entry.1 blobs.dictBytes
          dictOffsets := blobs.dictOffsets.set entry.2 pos
          dictLengths := blobs.dictLengths.set entry.2 length }
      have differs : ∀ size,
          ¬ (entry.2 = code ∧ entry.2 < size) := by
        rintro size ⟨same, _⟩
        exact absent.1 same.symm
      rw [getD_set, if_neg (differs _)] at offset size
      exact ⟨offset, size⟩

/-- A code of a tier gets the position of its token. -/
theorem writeTokens_at
    (distinct : (group.map Prod.snd).Nodup)
    {pos : Nat}
    {blobs : DictBlobs}
    (known : ∀ entry ∈ group, entry.2 < blobs.dictOffsets.length ∧
      entry.2 < blobs.dictLengths.length)
    {index : Nat}
    (inside : index < group.length) :
    (writeTokens length group pos blobs).dictOffsets.getD
          (group[index].2) 0 =
        pos + length * index ∧
      (writeTokens length group pos blobs).dictLengths.getD
          (group[index].2) 0 =
        length := by
  induction group generalizing pos blobs index with
  | nil =>
      cases inside
  | cons entry rest inductionHypothesis =>
      rw [List.map_cons, List.nodup_cons] at distinct
      let next : DictBlobs := {
        dictBytes := writeAt pos entry.1 blobs.dictBytes
        dictOffsets := blobs.dictOffsets.set entry.2 pos
        dictLengths := blobs.dictLengths.set entry.2 length }
      cases index with
      | zero =>
          obtain ⟨offset, size⟩ :=
            @writeTokens_other length rest entry.2 distinct.1
              (pos + length) next
          obtain ⟨inOffsets, inLengths⟩ :=
            known entry List.mem_cons_self
          rw [getD_set, if_pos ⟨rfl, inOffsets⟩] at offset
          rw [getD_set, if_pos ⟨rfl, inLengths⟩] at size
          exact ⟨offset, size⟩
      | succ index =>
          have restKnown : ∀ other ∈ rest,
              other.2 < next.dictOffsets.length ∧
                other.2 < next.dictLengths.length := by
            intro other member
            rw [List.length_set, List.length_set]
            exact known other (List.mem_cons_of_mem _ member)
          obtain ⟨offset, size⟩ :=
            inductionHypothesis distinct.2 restKnown
              (Nat.lt_of_succ_lt_succ inside)
          refine ⟨offset.trans ?_, size⟩
          rw [Nat.mul_succ]
          omega

end Tier

section Tables

variable {corpus : Bytes}

theorem length_groupOf
    {length : Nat}
    (isLength : length ∈ tokenLengths) :
    (groupOf corpus length).length = groupCount corpus length := by
  rw [← List.length_map, codes_groupOf isLength, List.length_range']

/-- A group fits into its tier. -/
theorem groupOf_room
    {length : Nat}
    (isLength : length ∈ tokenLengths) :
    (groupOf corpus length).length ≤ 1024 := by
  obtain ⟨room, roomFour⟩ := tierTokens_room corpus isLength
  rw [length_groupOf isLength]
  rcases groupStart_cases corpus length with
    ⟨_, _, count⟩ | ⟨_, isFour, _, count⟩
  · omega
  · have four := roomFour isFour
    omega

theorem groupOf_uniform
    {length : Nat}
    {entry : Bytes × Nat}
    (member : entry ∈ groupOf corpus length) :
    entry.1.length = length :=
  (mem_groupOf.mp member).2

/-- The code at an index of a group. -/
theorem code_groupOf
    {length index : Nat}
    (isLength : length ∈ tokenLengths)
    (inside : index < (groupOf corpus length).length) :
    ((groupOf corpus length)[index]).2 =
      groupStart corpus length + index := by
  have inCodes : index < ((groupOf corpus length).map Prod.snd).length := by
    rwa [List.length_map]
  have isCode :
      ((groupOf corpus length).map Prod.snd)[index] =
        ((groupOf corpus length)[index]).2 := by
    rw [List.getElem_map]
  rw [← isCode]
  simp only [codes_groupOf isLength, List.getElem_range']
  omega

/-- The part of `dictBytes` that belongs to a tier. -/
theorem tier_apart
    {first second : Nat}
    (isFirst : first ∈ tokenLengths)
    (isSecond : second ∈ tokenLengths)
    (differs : first ≠ second) :
    tierStart first + first * 1024 ≤ tierStart second ∨
      tierStart second + second * 1024 ≤ tierStart first := by
  simp only [tokenLengths, List.mem_cons, List.not_mem_nil,
    or_false] at isFirst isSecond
  rcases isFirst with rfl | rfl | rfl | rfl <;>
    rcases isSecond with rfl | rfl | rfl | rfl <;>
      simp [tierStart] at *

theorem tier_inside
    {length : Nat}
    (isLength : length ∈ tokenLengths) :
    tierStart length + length * 1024 ≤ DICT_BYTES_SIZE := by
  simp only [tokenLengths, List.mem_cons, List.not_mem_nil,
    or_false] at isLength
  rcases isLength with rfl | rfl | rfl | rfl <;> decide

/-- The arrays have their declared sizes. -/
structure DictBlobs.Sized (blobs : DictBlobs) : Prop where
  bytes : blobs.dictBytes.length = DICT_BYTES_SIZE
  offsets : blobs.dictOffsets.length = TOTAL_CODES
  lengths : blobs.dictLengths.length = TOTAL_CODES

/-- Nothing is written in a tier yet. -/
def DictBlobs.Clear
    (blobs : DictBlobs)
    (length : Nat) : Prop :=
  ∀ byte < length * 1024,
    blobs.dictBytes.getD (tierStart length + byte) 0 = 0

/-- A tier is written. -/
structure DictBlobs.Written
    (corpus : Bytes)
    (blobs : DictBlobs)
    (length : Nat) : Prop where
  slots : ∀ (index : Nat) (inside : index < (groupOf corpus length).length),
    blobs.dictOffsets.getD ((groupOf corpus length)[index]).2 0 =
        tierStart length + length * index ∧
      blobs.dictLengths.getD ((groupOf corpus length)[index]).2 0 = length
  bytes : ∀ byte < length * 1024,
    blobs.dictBytes.getD (tierStart length + byte) 0 =
      ((groupOf corpus length).flatMap Prod.fst).getD byte 0

section Round

variable {blobs : DictBlobs} {length other : Nat}

/-- One round of `makeDictBlobs` over a corpus. -/
@[irreducible] def roundOf
    (corpus : Bytes)
    (blobs : DictBlobs)
    (length : Nat) : DictBlobs :=
  writeTier (buildDictionary corpus).tokenToCode blobs length

theorem roundOf_eq :
    roundOf corpus blobs length =
      writeTokens length (groupOf corpus length) (tierStart length)
        blobs := by
  unfold roundOf writeTier groupOf
  rfl

theorem sized_round
    (sized : blobs.Sized) :
    (roundOf corpus blobs length).Sized where
  bytes := by
    rw [roundOf_eq, (sizes_writeTokens _ _).1, sized.bytes]
  offsets := by
    rw [roundOf_eq, (sizes_writeTokens _ _).2.1, sized.offsets]
  lengths := by
    rw [roundOf_eq, (sizes_writeTokens _ _).2.2, sized.lengths]

/-- The bytes after a round. -/
theorem getD_round
    (sized : blobs.Sized)
    (isLength : length ∈ tokenLengths)
    (index : Nat) :
    (roundOf corpus blobs length).dictBytes.getD index 0 =
      if tierStart length ≤ index ∧
          index < tierStart length +
            length * (groupOf corpus length).length then
        ((groupOf corpus length).flatMap Prod.fst).getD
          (index - tierStart length) 0
      else blobs.dictBytes.getD index 0 := by
  have isSize := length_flatMap_fst
    fun entry (member : entry ∈ groupOf corpus length) =>
      groupOf_uniform member
  have inTier := tier_inside isLength
  have room :
      length * (groupOf corpus length).length ≤ length * 1024 :=
    Nat.mul_le_mul_left _ (groupOf_room isLength)
  rw [roundOf_eq, dictBytes_writeTokens fun entry member => groupOf_uniform member,
    getD_writeAt (by rw [isSize, sized.bytes]; omega), isSize]

/-- A round leaves the bytes of the other tiers alone. -/
theorem getD_round_other
    (sized : blobs.Sized)
    (isLength : length ∈ tokenLengths)
    (isOther : other ∈ tokenLengths)
    (differs : length ≠ other)
    {byte : Nat}
    (inOther : byte < other * 1024) :
    (roundOf corpus blobs length).dictBytes.getD
        (tierStart other + byte) 0 =
      blobs.dictBytes.getD (tierStart other + byte) 0 := by
  have room :
      length * (groupOf corpus length).length ≤ length * 1024 :=
    Nat.mul_le_mul_left _ (groupOf_room isLength)
  rw [getD_round sized isLength, if_neg]
  rcases tier_apart isLength isOther differs with before | after
  · omega
  · omega

theorem clear_round
    (sized : blobs.Sized)
    (isLength : length ∈ tokenLengths)
    (isOther : other ∈ tokenLengths)
    (differs : length ≠ other)
    (clear : blobs.Clear other) :
    (roundOf corpus blobs length).Clear other := by
  intro byte inOther
  rw [getD_round_other sized isLength isOther differs inOther]
  exact clear byte inOther

/-- A round keeps the tiers that are written. -/
theorem written_round
    (sized : blobs.Sized)
    (isLength : length ∈ tokenLengths)
    (isOther : other ∈ tokenLengths)
    (differs : length ≠ other)
    (written : blobs.Written corpus other) :
    (roundOf corpus blobs length).Written corpus other where
  slots := by
    intro index inside
    have absent :
        ((groupOf corpus other)[index]).2 ∉
          (groupOf corpus length).map Prod.snd := by
      intro member
      obtain ⟨entry, inGroup, sameCode⟩ := List.mem_map.mp member
      have inOther := mem_groupOf.mp (List.getElem_mem inside)
      have inLength := mem_groupOf.mp inGroup
      have same := entry_of_code inLength.1 inOther.1 sameCode
      rw [← inLength.2, ← inOther.2, same] at differs
      exact differs rfl
    obtain ⟨offset, size⟩ :=
      @writeTokens_other length (groupOf corpus length) _ absent
        (tierStart length) blobs
    rw [roundOf_eq, offset, size]
    exact written.slots index inside
  bytes := by
    intro byte inOther
    rw [getD_round_other sized isLength isOther differs inOther]
    exact written.bytes byte inOther

/-- A round writes its tier. -/
theorem round_written
    (sized : blobs.Sized)
    (isLength : length ∈ tokenLengths)
    (clear : blobs.Clear length) :
    (roundOf corpus blobs length).Written corpus length where
  slots := by
    intro index inside
    have distinct : ((groupOf corpus length).map Prod.snd).Nodup := by
      rw [codes_groupOf isLength]
      exact List.nodup_range'
    rw [roundOf_eq]
    apply writeTokens_at distinct
    intro entry member
    have small : entry.2 < TOTAL_CODES :=
      (numbered_buildDictionary corpus).codeSmall entry.1 entry.2
        (mem_groupOf.mp member).1
    rw [sized.offsets, sized.lengths]
    exact ⟨small, small⟩
  bytes := by
    intro byte inTier
    rw [getD_round sized isLength, Nat.add_sub_cancel_left]
    by_cases covered : byte < length * (groupOf corpus length).length
    · rw [if_pos (by omega)]
    · rw [if_neg (by omega), clear byte inTier, List.getD_eq_default]
      rw [length_flatMap_fst fun entry member => groupOf_uniform member]
      omega

end Round

/-- The tables before the first round. -/
def blankBlobs : DictBlobs where
  dictBytes := List.replicate DICT_BYTES_SIZE 0
  dictOffsets := List.replicate TOTAL_CODES 0
  dictLengths := List.replicate TOTAL_CODES 0

theorem sized_blankBlobs : blankBlobs.Sized where
  bytes := List.length_replicate
  offsets := List.length_replicate
  lengths := List.length_replicate

theorem clear_blankBlobs
    (length : Nat) :
    blankBlobs.Clear length := by
  intro byte _
  rw [List.getD_eq_getElem?_getD, blankBlobs, List.getElem?_replicate]
  split <;> rfl

/-- The rounds write the tiers they go through and keep those written before. -/
theorem rounds_written
    {rounds : List Nat}
    (areLengths : ∀ length ∈ rounds, length ∈ tokenLengths)
    (distinct : rounds.Nodup)
    {blobs : DictBlobs}
    (sized : blobs.Sized)
    (clear : ∀ length ∈ rounds, blobs.Clear length) :
    (rounds.foldl (roundOf corpus) blobs).Sized ∧
      ∀ length ∈ tokenLengths,
        length ∈ rounds ∨ blobs.Written corpus length →
          (rounds.foldl (roundOf corpus) blobs).Written corpus length := by
  induction rounds generalizing blobs with
  | nil =>
      refine ⟨sized, ?_⟩
      rintro length _ (inNone | written)
      · cases inNone
      · exact written
  | cons first rest inductionHypothesis =>
      rw [List.nodup_cons] at distinct
      have isFirst := areLengths first List.mem_cons_self
      have restLengths : ∀ length ∈ rest, length ∈ tokenLengths :=
        fun length member => areLengths length
          (List.mem_cons_of_mem _ member)
      have restClear : ∀ length ∈ rest,
          (roundOf corpus blobs first).Clear length := by
        intro length member
        apply clear_round sized isFirst (restLengths length member)
        · rintro rfl
          exact distinct.1 member
        · exact clear length (List.mem_cons_of_mem _ member)
      obtain ⟨allSized, allWritten⟩ :=
        inductionHypothesis restLengths distinct.2
          (@sized_round corpus blobs first sized) restClear
      refine ⟨allSized, ?_⟩
      intro length isLength reached
      apply allWritten length isLength
      by_cases isHere : length = first
      · subst isHere
        exact .inr (round_written sized isFirst
          (clear length List.mem_cons_self))
      · rcases reached with member | written
        · exact .inl ((List.mem_cons.mp member).resolve_left isHere)
        · exact .inr (written_round sized isFirst isLength
            (Ne.symm isHere) written)

/-- The tables of a trained dictionary are written tier by tier. -/
theorem written_buildDictionary
    (corpus : Bytes) :
    (makeDictBlobs (buildDictionary corpus).tokenToCode).Sized ∧
      ∀ length ∈ tokenLengths,
        (makeDictBlobs (buildDictionary corpus).tokenToCode).Written corpus
          length := by
  have sameRounds :
      writeTier (buildDictionary corpus).tokenToCode = roundOf corpus := by
    unfold roundOf
    rfl
  obtain ⟨sized, written⟩ :=
    @rounds_written corpus tokenLengths (fun _ member => member)
      (by decide) blankBlobs sized_blankBlobs
      fun length _ => clear_blankBlobs length
  unfold makeDictBlobs
  rw [sameRounds]
  refine ⟨sized, ?_⟩
  intro length isLength
  exact written length isLength (.inl isLength)

/-- A code without a token keeps its offset and its length. -/
theorem rounds_other
    {code : Nat}
    {rounds : List Nat}
    (absent : ∀ length ∈ rounds,
      code ∉ (groupOf corpus length).map Prod.snd)
    (blobs : DictBlobs) :
    (rounds.foldl (roundOf corpus) blobs).dictOffsets.getD code 0 =
        blobs.dictOffsets.getD code 0 ∧
      (rounds.foldl (roundOf corpus) blobs).dictLengths.getD code 0 =
        blobs.dictLengths.getD code 0 := by
  induction rounds generalizing blobs with
  | nil =>
      exact ⟨rfl, rfl⟩
  | cons first rest inductionHypothesis =>
      obtain ⟨offset, size⟩ :=
        inductionHypothesis
          (fun length member => absent length
            (List.mem_cons_of_mem _ member))
          (roundOf corpus blobs first)
      obtain ⟨firstOffset, firstSize⟩ :=
        writeTokens_other (absent first List.mem_cons_self)
          (tierStart first) blobs
      rw [← roundOf_eq] at firstOffset firstSize
      exact ⟨offset.trans firstOffset, size.trans firstSize⟩

/-- A code has the slot of its token, or no slot. -/
theorem slot_buildDictionary
    (corpus : Bytes)
    (code : Nat) :
    (∃ length ∈ tokenLengths, ∃ (index : Nat)
        (inside : index < (groupOf corpus length).length),
        code = groupStart corpus length + index ∧
          ((groupOf corpus length)[index]).2 = code ∧
          (makeDictBlobs (buildDictionary corpus).tokenToCode
            ).dictOffsets.getD code 0 =
              tierStart length + length * index ∧
          (makeDictBlobs (buildDictionary corpus).tokenToCode
            ).dictLengths.getD code 0 = length) ∨
      ((makeDictBlobs (buildDictionary corpus).tokenToCode
          ).dictOffsets.getD code 0 = 0 ∧
        (makeDictBlobs (buildDictionary corpus).tokenToCode
          ).dictLengths.getD code 0 = 0) := by
  by_cases held : ∃ length ∈ tokenLengths,
      code ∈ (groupOf corpus length).map Prod.snd
  · left
    obtain ⟨length, isLength, member⟩ := held
    obtain ⟨entry, inGroup, isCode⟩ := List.mem_map.mp member
    obtain ⟨index, inside, isEntry⟩ := List.getElem_of_mem inGroup
    have slot :=
      ((written_buildDictionary corpus).2 length isLength).slots index
        inside
    have isIndex := code_groupOf isLength inside
    rw [isEntry, isCode] at slot isIndex
    refine ⟨length, isLength, index, inside, isIndex, ?_, slot⟩
    rw [isEntry, isCode]
  · right
    have sameRounds :
        writeTier (buildDictionary corpus).tokenToCode =
          roundOf corpus := by
      unfold roundOf
      rfl
    have zeros : ∀ index : Nat,
        (List.replicate TOTAL_CODES 0).getD index 0 = 0 := by
      intro index
      rw [List.getD_eq_getElem?_getD, List.getElem?_replicate]
      split <;> rfl
    have blank := @rounds_other corpus code tokenLengths
      (fun length isLength member => held ⟨length, isLength, member⟩)
      blankBlobs
    rw [blankBlobs, zeros] at blank
    unfold makeDictBlobs
    rw [sameRounds]
    exact blank

/-- The tables of a trained dictionary. -/
theorem tables_buildDictionary
    (corpus : Bytes) :
    (buildDictionary corpus).dictBytes =
        (makeDictBlobs (buildDictionary corpus).tokenToCode).dictBytes ∧
      (buildDictionary corpus).dictOffsets =
        (makeDictBlobs
          (buildDictionary corpus).tokenToCode).dictOffsets ∧
      (buildDictionary corpus).dictLengths =
        (makeDictBlobs
          (buildDictionary corpus).tokenToCode).dictLengths := by
  simp only [buildDictionary, and_self]

/-- A token has one of the four lengths. -/
theorem entry_in_group
    {entry : Bytes × Nat}
    (member : entry ∈ (buildDictionary corpus).tokenToCode.entries) :
    entry.1.length ∈ tokenLengths ∧
      entry ∈ groupOf corpus entry.1.length := by
  refine ⟨?_, mem_groupOf.mpr ⟨member, rfl⟩⟩
  rcases mem_entries_buildDictionary.mp member with
    ⟨length, isLength, i, isToken, _⟩ | ⟨isPadding, _⟩
  · rw [length_of_mem_tierTokens isLength (List.mem_of_getElem? isToken)]
    exact isLength
  · rw [isPadding]
    decide

/-- The bytes of the token at an index of a tier. -/
theorem DictBlobs.Written.slice
    {blobs : DictBlobs}
    {length : Nat}
    (written : blobs.Written corpus length)
    (isLength : length ∈ tokenLengths)
    {index : Nat}
    (inside : index < (groupOf corpus length).length) :
    (List.range length).map (fun byte =>
        blobs.dictBytes.getD
          (tierStart length + length * index + byte) 0) =
      ((groupOf corpus length)[index]).1 := by
  have hasLength :
      (((groupOf corpus length)[index]).1).length = length :=
    groupOf_uniform (List.getElem_mem inside)
  have room := @groupOf_room corpus length isLength
  have whole :
      (List.range length).map (fun byte =>
          (((groupOf corpus length)[index]).1).getD (0 + byte) 0) =
        ((groupOf corpus length)[index]).1 := by
    rw [← padRight_slice_eq_map, padRight_slice_of_le 0 (by omega),
      List.drop_zero, List.take_of_length_le (by omega)]
  rw [← whole]
  apply List.map_congr_left
  intro byte inRange
  have small : byte < length := List.mem_range.mp inRange
  have inTier : length * index + byte < length * 1024 := by
    have next : length * (index + 1) ≤ length * 1024 :=
      Nat.mul_le_mul_left _ (by omega)
    rw [Nat.mul_succ] at next
    omega
  rw [Nat.add_assoc, written.bytes _ inTier,
    getD_flatMap_fst (fun entry member => groupOf_uniform member) inside
      small, Nat.zero_add]

/-- A trained dictionary expands every code to its token. -/
theorem faithful_buildDictionary
    (corpus : Bytes) :
    (buildDictionary corpus).Faithful where
  toNumbered := numbered_buildDictionary corpus
  expands := by
    intro token code member isCode
    obtain ⟨isLength, inGroup⟩ := entry_in_group member
    obtain ⟨index, inside, isEntry⟩ := List.getElem_of_mem inGroup
    have written :=
      (written_buildDictionary corpus).2 token.length isLength
    obtain ⟨offset, size⟩ := written.slots index inside
    have bytes := written.slice isLength inside
    obtain ⟨isBytes, isOffsets, isLengths⟩ := tables_buildDictionary corpus
    rw [isEntry] at offset size bytes
    rw [expandCode, if_pos isCode, isBytes, isOffsets, isLengths, offset,
      size, bytes]

end Tables

end Bam
