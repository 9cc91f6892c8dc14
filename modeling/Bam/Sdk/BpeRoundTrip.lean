import Mathlib.Data.List.GetD
import Mathlib.Algebra.Order.BigOperators.Group.List
import Bam.Lib.LongestMatch
import Bam.Sdk.Bpe

namespace Bam

open Bytewise

/-!
# What the BPE codec gives back

`bpeEncode` cuts its input by the longest match over the tokens that have a code
of their own.  A dictionary is faithful when every code expands to its token;
then only a byte without a code is lost.
-/

/-- A token the encoder uses: it has a code other than the padding code. -/
def BPEDictionary.isToken
    (dict : BPEDictionary)
    (token : Bytes) : Bool :=
  (dict.tokenToCode.get? token).any fun code => 0 < code

/-- The code the encoder pushes for a piece of its input. -/
def BPEDictionary.codeOf
    (dict : BPEDictionary)
    (piece : Bytes) : Nat :=
  (dict.tokenToCode.get? piece).getD 0

/-- The pieces the encoder cuts its input into. -/
def BPEDictionary.pieces
    (dict : BPEDictionary)
    (data : Bytes) : List Bytes :=
  LongestMatch.split dict.isToken [4, 3, 2] data

/-- Every piece of the input has a code. -/
def BPEDictionary.Covers
    (dict : BPEDictionary)
    (data : Bytes) : Prop :=
  ∀ piece ∈ dict.pieces data, dict.isToken piece = true

/-- The codes of a dictionary number its tokens. -/
structure BPEDictionary.Numbered (dict : BPEDictionary) : Prop where
  codeSmall : ∀ token code,
    (token, code) ∈ dict.tokenToCode.entries → code < TOTAL_CODES
  paddingLength : ∀ token,
    (token, 0) ∈ dict.tokenToCode.entries → token.length = 4

/-- Every code but the padding code expands to its token. -/
structure BPEDictionary.Faithful (dict : BPEDictionary) : Prop extends
    dict.Numbered where
  expands : ∀ token code, (token, code) ∈ dict.tokenToCode.entries →
    code ≠ 0 → expandCode dict code = token

theorem positive_widths :
    ∀ width ∈ [4, 3, 2], 0 < width := by
  decide

/-- The pieces of the input are the input. -/
theorem BPEDictionary.flatten_pieces
    (dict : BPEDictionary)
    (data : Bytes) :
    (dict.pieces data).flatten = data :=
  LongestMatch.flatten_split positive_widths data

/-- A dictionary object whose codes lie in the canonical slots. -/
def BPEDictionary.Canonical (dict : BPEDictionary) : Prop :=
  ∀ code, code < TOTAL_CODES →
    dict.dictOffsets.getD code 0 = (canonicalSlot code).1 ∧
      dict.dictLengths.getD code 0 = (canonicalSlot code).2

/-- What `bpeDictionaryFromBytes` makes of a dictionary's bytes. -/
theorem canonical_of_fromBytes
    {dictBytes : Bytes}
    {dict : BPEDictionary}
    (made : bpeDictionaryFromBytes dictBytes = .ok dict) :
    dict.dictBytes = dictBytes ∧ dict.Canonical := by
  unfold bpeDictionaryFromBytes at made
  split at made
  · cases made
  · have isDict := Except.ok.inj made
    subst isDict
    refine ⟨rfl, ?_⟩
    intro code small
    have inRange : code < (List.range TOTAL_CODES).length := by
      rwa [List.length_range]
    constructor
    · rw [List.getD_eq_getElem _ _ (by rwa [List.length_map]),
        List.getElem_map, List.getElem_range]
    · rw [List.getD_eq_getElem _ _ (by rwa [List.length_map]),
        List.getElem_map, List.getElem_range]

section Encode

variable {dict : BPEDictionary}

/-- A token has its code. -/
theorem BPEDictionary.isToken_iff
    {token : Bytes} :
    dict.isToken token = true ↔
      (token, dict.codeOf token) ∈ dict.tokenToCode.entries ∧
        dict.codeOf token ≠ 0 := by
  unfold isToken codeOf
  rw [← JsMap.get?_eq_some_iff]
  cases dict.tokenToCode.get? token with
  | none =>
      simp
  | some code =>
      simp [Nat.pos_iff_ne_zero]

/-- A piece without a code is one byte that the map does not hold. -/
theorem BPEDictionary.Numbered.codeOf_of_missing
    (numbered : dict.Numbered)
    {token : Bytes}
    (short : token.length ≠ 4)
    (missing : dict.isToken token = false) :
    dict.tokenToCode.get? token = none := by
  cases found : dict.tokenToCode.get? token with
  | none =>
      rfl
  | some code =>
      have entry := JsMap.get?_eq_some_iff.mp found
      have isPadding : code = 0 := by
        simpa [isToken, found] using missing
      rw [isPadding] at entry
      exact absurd (numbered.paddingLength token entry) short

/-- The map answers for a front exactly when the front is a token; a padding
token of four bytes is passed over. -/
theorem codeOfFront_eq
    (numbered : dict.Numbered)
    {data : Bytes}
    {width : Nat}
    (short : width ≠ 4) :
    codeOfFront dict.tokenToCode data width =
      if width ≤ data.length ∧ dict.isToken (data.take width) = true then
        some (dict.codeOf (data.take width))
      else none := by
  unfold codeOfFront
  by_cases inside : width ≤ data.length
  · rw [if_pos inside]
    have isShort : (data.take width).length ≠ 4 := by
      rwa [List.length_take, Nat.min_eq_left inside]
    cases isFront : dict.isToken (data.take width) with
    | true =>
        rw [if_pos ⟨inside, rfl⟩]
        exact JsMap.get?_eq_some_iff.mpr
          (BPEDictionary.isToken_iff.mp isFront).1
    | false =>
        rw [if_neg (by simp),
          numbered.codeOf_of_missing isShort isFront]
  · rw [if_neg inside, if_neg fun both => inside both.1]

/-- The guard on the code of a front of four bytes. -/
theorem codeOfFront_four
    (data : Bytes) :
    (codeOfFront dict.tokenToCode data 4).filter (0 < ·) =
      if 4 ≤ data.length ∧ dict.isToken (data.take 4) = true then
        some (dict.codeOf (data.take 4))
      else none := by
  unfold codeOfFront BPEDictionary.isToken BPEDictionary.codeOf
  by_cases inside : 4 ≤ data.length
  · rw [if_pos inside]
    cases dict.tokenToCode.get? (data.take 4) with
    | none =>
        simp
    | some code =>
        by_cases positive : 0 < code
        · simp [inside, positive]
        · have isPadding : code = 0 := by
            omega
          simp [isPadding]
  · simp [inside]

/-- One round of the encoder takes the longest match. -/
theorem nextCode_eq
    (numbered : dict.Numbered)
    {data : Bytes}
    (filled : data ≠ []) :
    nextCode dict.tokenToCode data =
      (dict.codeOf (data.take
          (LongestMatch.frontWidth dict.isToken [4, 3, 2] data)),
        LongestMatch.frontWidth dict.isToken [4, 3, 2] data) := by
  have oneByte :
      (codeOfFront dict.tokenToCode data 1).getD 0 =
        dict.codeOf (data.take 1) := by
    have inside : 1 ≤ data.length := List.length_pos_iff.mpr filled
    rw [codeOfFront, if_pos inside]
    rfl
  unfold nextCode
  rw [codeOfFront_four, codeOfFront_eq numbered (by decide),
    codeOfFront_eq numbered (by decide), oneByte]
  simp only [LongestMatch.frontWidth]
  by_cases four : 4 ≤ data.length ∧ dict.isToken (data.take 4) = true
  · simp only [if_pos four]
  by_cases three : 3 ≤ data.length ∧ dict.isToken (data.take 3) = true
  · simp only [if_neg four, if_pos three]
  by_cases two : 2 ≤ data.length ∧ dict.isToken (data.take 2) = true
  · simp only [if_neg four, if_neg three, if_pos two]
  · simp only [if_neg four, if_neg three, if_neg two]

/-- The encoder cuts its input into the longest matches. -/
theorem bpeMatches_eq
    (numbered : dict.Numbered)
    (data : Bytes) :
    bpeMatches dict.tokenToCode data =
      (dict.pieces data).map fun piece => (dict.codeOf piece, piece) := by
  unfold BPEDictionary.pieces
  induction data using LongestMatch.split.induct dict.isToken
      [4, 3, 2] with
  | case1 =>
      rw [bpeMatches, LongestMatch.split_nil, List.map_nil]
  | case2 byte rest inductionHypothesis =>
      rw [bpeMatches, LongestMatch.split,
        nextCode_eq numbered (List.cons_ne_nil byte rest),
        List.map_cons]
      simp only [inductionHypothesis]

/-- The codes the encoder pushes. -/
theorem codes_eq
    (numbered : dict.Numbered)
    (data : Bytes) :
    (bpeMatches dict.tokenToCode data).map Prod.fst =
      (dict.pieces data).map dict.codeOf := by
  rw [bpeMatches_eq numbered, List.map_map]
  rfl

theorem BPEDictionary.Numbered.codeOf_lt
    (numbered : dict.Numbered)
    (piece : Bytes) :
    dict.codeOf piece < TOTAL_CODES := by
  unfold codeOf
  cases found : dict.tokenToCode.get? piece with
  | none =>
      decide
  | some code =>
      exact numbered.codeSmall piece code (JsMap.get?_eq_some_iff.mp found)

theorem padEven_even
    (codes : List Nat) :
    (padEven codes).length % 2 = 0 := by
  unfold padEven
  split
  · rw [List.length_append, List.length_singleton]
    omega
  · omega

theorem mem_padEven
    {codes : List Nat}
    {code : Nat}
    (member : code ∈ padEven codes) :
    code ∈ codes ∨ code = 0 := by
  unfold padEven at member
  split at member
  · rcases List.mem_append.mp member with here | isPad
    · exact .inl here
    · exact .inr (List.mem_singleton.mp isPad)
  · exact .inl member

/-- The padding code adds nothing to what a decoder writes. -/
theorem flatMap_padEven
    {expand : Nat → Bytes}
    (silent : expand 0 = [])
    (codes : List Nat) :
    (padEven codes).flatMap expand = codes.flatMap expand := by
  unfold padEven
  split
  · rw [List.flatMap_append, List.flatMap_singleton, silent,
      List.append_nil]
  · rfl

/-- No code stands for less than a byte, and two codes take three bytes. -/
theorem length_bpeEncode_le
    (numbered : dict.Numbered)
    (data : Bytes) :
    (bpeEncode data dict).length ≤ 3 * ((data.length + 1) / 2) := by
  have count :=
    @LongestMatch.length_split_le _ dict.isToken [4, 3, 2] data
  rw [bpeEncode, Codes12.length_pack, codes_eq numbered]
  apply Nat.mul_le_mul_left
  unfold padEven
  split
  · rw [List.length_append, List.length_map, List.length_singleton,
      BPEDictionary.pieces]
    exact Nat.div_le_div_right (Nat.succ_le_succ count)
  · rw [List.length_map, BPEDictionary.pieces]
    exact Nat.div_le_div_right (Nat.le_succ_of_le count)

/-- What a decoder over another dictionary makes of an encoded piece of data. -/
def recode
    (dict decoding : BPEDictionary)
    (data : Bytes) : Bytes :=
  (dict.pieces data).flatMap fun piece =>
    expandCode decoding (dict.codeOf piece)

/-- Decoding what was encoded expands the code of each piece. -/
theorem bpeDecode_bpeEncode
    (numbered : dict.Numbered)
    (decoding : BPEDictionary)
    (data : Bytes) :
    bpeDecode (bpeEncode data dict) decoding =
      .ok (recode dict decoding data) := by
  have small : ∀ code ∈ padEven ((dict.pieces data).map dict.codeOf),
      code < 4096 := by
    intro code member
    rcases mem_padEven member with isCode | rfl
    · obtain ⟨piece, _, rfl⟩ := List.mem_map.mp isCode
      exact numbered.codeOf_lt piece
    · decide
  have aligned : (bpeEncode data dict).length % 3 = 0 := by
    rw [bpeEncode, Codes12.length_pack]
    exact Nat.mul_mod_right 3 _
  rw [bpeDecode, if_neg (not_not.mpr aligned), bpeEncode,
    codes_eq numbered, Codes12.unpack_pack small (padEven_even _),
    flatMap_padEven rfl, List.flatMap_map]
  rfl

/-- Pieces that can only shrink give the whole back when none of them
changes. -/
theorem flatMap_eq_flatten_iff
    {α : Type*}
    {image : List α → List α}
    {pieces : List (List α)}
    (shrinks : ∀ piece ∈ pieces, (image piece).length ≤ piece.length) :
    pieces.flatMap image = pieces.flatten ↔
      ∀ piece ∈ pieces, image piece = piece := by
  induction pieces with
  | nil =>
      simp
  | cons piece rest inductionHypothesis =>
      have restShrinks : ∀ other ∈ rest,
          (image other).length ≤ other.length := by
        intro other member
        exact shrinks other (List.mem_cons_of_mem _ member)
      have shorter : (rest.flatMap image).length ≤ rest.flatten.length := by
        rw [List.length_flatMap, List.length_flatten]
        exact List.sum_le_sum restShrinks
      have firstShrinks := shrinks piece List.mem_cons_self
      rw [List.flatMap_cons, List.flatten_cons, List.forall_mem_cons,
        ← inductionHypothesis restShrinks]
      constructor
      · intro same
        have sameLength := congrArg List.length same
        rw [List.length_append, List.length_append] at sameLength
        exact List.append_inj same (by omega)
      · rintro ⟨samePiece, sameRest⟩
        rw [samePiece, sameRest]

/-- A piece is a token or one byte. -/
theorem BPEDictionary.piece_of_mem
    {data piece : Bytes}
    (member : piece ∈ dict.pieces data) :
    dict.isToken piece = true ∨ piece.length = 1 := by
  rcases LongestMatch.piece_of_mem_split member with
    ⟨_, isPiece⟩ | single
  · exact .inl isPiece
  · exact .inr single

/-- The code of a piece expands to the piece, or to nothing where it has no
code. -/
theorem BPEDictionary.Faithful.expand_piece
    (faithful : dict.Faithful)
    {data piece : Bytes}
    (member : piece ∈ dict.pieces data) :
    expandCode dict (dict.codeOf piece) =
      if dict.isToken piece = true then piece else [] := by
  cases isPiece : dict.isToken piece with
  | true =>
      obtain ⟨entry, isCode⟩ := isToken_iff.mp isPiece
      rw [if_pos rfl, faithful.expands piece _ entry isCode]
  | false =>
      have single : piece.length = 1 := by
        rcases piece_of_mem member with isToken | single
        · rw [isPiece] at isToken
          cases isToken
        · exact single
      have missing : dict.tokenToCode.get? piece = none :=
        faithful.codeOf_of_missing (by omega) isPiece
      rw [if_neg Bool.false_ne_true, codeOf, missing]
      rfl

/-- A faithful dictionary gives the input back exactly when every piece of it
has a code. -/
theorem BPEDictionary.Faithful.recode_eq_iff
    (faithful : dict.Faithful)
    (data : Bytes) :
    recode dict dict data = data ↔ dict.Covers data := by
  have shrinks : ∀ piece ∈ dict.pieces data,
      (expandCode dict (dict.codeOf piece)).length ≤ piece.length := by
    intro piece member
    rw [faithful.expand_piece member]
    split
    · exact Nat.le_refl _
    · exact Nat.zero_le _
  have whole := flatMap_eq_flatten_iff shrinks
  rw [dict.flatten_pieces data] at whole
  rw [recode, whole]
  constructor
  · intro same piece member
    have isSame := same piece member
    rw [faithful.expand_piece member] at isSame
    split at isSame
    · assumption
    · rcases piece_of_mem member with isToken | single
      · exact isToken
      · rw [← isSame] at single
        cases single
  · intro covers piece member
    rw [faithful.expand_piece member, if_pos (covers piece member)]

end Encode

end Bam
