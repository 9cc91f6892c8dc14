import Bam.Sdk.BpeRoundTrip

namespace Bam

open Bytewise

/-!
# Trained dictionaries

`buildDictionary` numbers the most frequent windows of a corpus tier by tier and
writes them next to each other.  The codes of a tier are consecutive, so a token
stands as far into its tier as its code does.  The padding token loses code 0
when the corpus makes four zero bytes a token.
-/

section Maps

/-- Numbering distinct tokens adds their entries. -/
theorem mem_entries_setCodes
    {toks : List Bytes}
    (distinct : toks.Nodup)
    {code : Nat}
    {tokenToCode : JsMap Bytes Nat}
    {entry : Bytes × Nat} :
    entry ∈ (setCodes toks code tokenToCode).entries ↔
      (∃ i : Nat, toks[i]? = some entry.1 ∧ entry.2 = code + i) ∨
        (entry ∈ tokenToCode.entries ∧ entry.1 ∉ toks) := by
  induction toks generalizing code tokenToCode with
  | nil =>
      simp [setCodes]
  | cons tok rest inductionHypothesis =>
      have notLater : tok ∉ rest := (List.nodup_cons.mp distinct).1
      rw [setCodes, inductionHypothesis (List.nodup_cons.mp distinct).2,
        JsMap.mem_entries_set]
      constructor
      · rintro (⟨i, isTok, isCode⟩ | ⟨rfl | ⟨old, differs⟩, notRest⟩)
        · refine .inl ⟨i + 1, isTok, ?_⟩
          rw [isCode]
          omega
        · exact .inl ⟨0, rfl, rfl⟩
        · refine .inr ⟨old, ?_⟩
          rw [List.mem_cons]
          rintro (same | later)
          · exact differs same
          · exact notRest later
      · rintro (⟨i, isTok, isCode⟩ | ⟨old, absent⟩)
        · cases i with
          | zero =>
              have isFirst : entry = (tok, code) := by
                have same : tok = entry.1 := by
                  simpa using isTok
                ext1
                · exact same.symm
                · exact isCode
              refine .inr ⟨.inl isFirst, ?_⟩
              rw [isFirst]
              exact notLater
          | succ i =>
              refine .inl ⟨i, isTok, ?_⟩
              rw [isCode]
              omega
        · rw [List.mem_cons, not_or] at absent
          exact .inr ⟨.inr ⟨old, absent.1⟩, absent.2⟩

/-- The keys of a count are windows. -/
theorem key_of_countWindows
    {width : Nat}
    {data : Bytes}
    {entry : Bytes × Nat}
    (member : entry ∈ (countWindows width data).entries) :
    entry.1 ∈ windows width data := by
  have fold : ∀ (keys : List Bytes) (map : JsMap Bytes Nat),
      entry ∈ (keys.foldl
        (fun map key => map.set key ((map.get? key).getD 0 + 1))
          map).entries →
        entry.1 ∈ keys ∨ entry ∈ map.entries := by
    intro keys
    induction keys with
    | nil =>
        intro map inMap
        exact .inr inMap
    | cons key rest inductionHypothesis =>
        intro map inFold
        rcases inductionHypothesis _ inFold with later | inMap
        · exact .inl (List.mem_cons_of_mem _ later)
        · rcases JsMap.mem_entries_set.mp inMap with isNew | ⟨old, _⟩
          · rw [isNew]
            exact .inl List.mem_cons_self
          · exact .inr old
  rcases fold _ _ member with isWindow | inEmpty
  · exact isWindow
  · cases inEmpty

theorem length_of_mem_windows
    {width : Nat}
    {data key : Bytes}
    (member : key ∈ windows width data) :
    key.length = width := by
  obtain ⟨start, inRange, rfl⟩ := List.mem_map.mp member
  have inside := List.mem_range.mp inRange
  rw [toKey, List.length_take, List.length_drop]
  omega

theorem mostFrequent_nodup
    (counts : JsMap Bytes Nat)
    (count : Nat) :
    (mostFrequent counts count).Nodup := by
  unfold mostFrequent
  have sorted :
      ((counts.entries.insertionSort fun first second =>
        second.2 ≤ first.2).map Prod.fst).Nodup :=
    ((List.perm_insertionSort _ _).map Prod.fst).nodup_iff.mpr
      counts.keysNodup
  exact sorted.sublist ((List.take_sublist count _).map Prod.fst)

theorem key_of_mostFrequent
    {counts : JsMap Bytes Nat}
    {count : Nat}
    {key : Bytes}
    (member : key ∈ mostFrequent counts count) :
    ∃ entry ∈ counts.entries, entry.1 = key := by
  obtain ⟨entry, taken, isKey⟩ := List.mem_map.mp member
  exact ⟨entry, (List.mem_insertionSort _).mp (List.mem_of_mem_take taken),
    isKey⟩

theorem length_mostFrequent_le
    (counts : JsMap Bytes Nat)
    (count : Nat) :
    (mostFrequent counts count).length ≤ count := by
  rw [mostFrequent, List.length_map]
  exact List.length_take_le _ _

end Maps

/-- The tokens `topTokens` numbers in the tier of a length. -/
def tierTokens
    (corpus : Bytes) : Nat → List Bytes
  | 4 => mostFrequent (countWindows 4 corpus) 1023
  | 3 => mostFrequent (countWindows 3 corpus) 1024
  | 2 => mostFrequent (countWindows 2 corpus) 1024
  | _ => byteTokens

/-- The code of the first token of a tier. -/
def tierBase : Nat → Nat
  | 4 => 1
  | 3 => 1024
  | 2 => 2048
  | _ => 3072

/-- The token lengths. -/
def tokenLengths : List Nat := [4, 3, 2, 1]

theorem byteTokens_nodup : byteTokens.Nodup := by
  have injective : ∀ first ∈ List.range 256, ∀ second ∈ List.range 256,
      [UInt8.ofNat first] = [UInt8.ofNat second] → first = second := by
    intro first inFirst second inSecond same
    have sameNat := congrArg UInt8.toNat (List.singleton_inj.mp same)
    rw [UInt8.toNat_ofNat', UInt8.toNat_ofNat'] at sameNat
    have firstSmall := List.mem_range.mp inFirst
    have secondSmall := List.mem_range.mp inSecond
    omega
  exact List.Nodup.map_on injective List.nodup_range

theorem tierTokens_nodup
    (corpus : Bytes)
    (length : Nat) :
    (tierTokens corpus length).Nodup := by
  unfold tierTokens
  split
  · exact mostFrequent_nodup _ _
  · exact mostFrequent_nodup _ _
  · exact mostFrequent_nodup _ _
  · exact byteTokens_nodup

/-- A token of a tier has the length of the tier. -/
theorem length_of_mem_tierTokens
    {corpus token : Bytes}
    {length : Nat}
    (isLength : length ∈ tokenLengths)
    (member : token ∈ tierTokens corpus length) :
    token.length = length := by
  have ofWindows : ∀ {width count : Nat},
      token ∈ mostFrequent (countWindows width corpus) count →
        token.length = width := by
    intro width count inTier
    obtain ⟨entry, inCounts, rfl⟩ := key_of_mostFrequent inTier
    exact length_of_mem_windows (key_of_countWindows inCounts)
  simp only [tokenLengths, List.mem_cons, List.not_mem_nil,
    or_false] at isLength
  rcases isLength with rfl | rfl | rfl | rfl
  · exact ofWindows member
  · exact ofWindows member
  · exact ofWindows member
  · obtain ⟨value, _, rfl⟩ := List.mem_map.mp member
    rfl

/-- A tier has room for its tokens. -/
theorem tierTokens_room
    (corpus : Bytes)
    {length : Nat}
    (isLength : length ∈ tokenLengths) :
    (tierTokens corpus length).length ≤ 1024 ∧
      (length = 4 → (tierTokens corpus length).length ≤ 1023) := by
  simp only [tokenLengths, List.mem_cons, List.not_mem_nil,
    or_false] at isLength
  rcases isLength with rfl | rfl | rfl | rfl
  · have room := length_mostFrequent_le (countWindows 4 corpus) 1023
    exact ⟨Nat.le_trans room (by decide), fun _ => room⟩
  · exact ⟨length_mostFrequent_le _ _, fun isFour => by cases isFour⟩
  · exact ⟨length_mostFrequent_le _ _, fun isFour => by cases isFour⟩
  · refine ⟨?_, fun isFour => by cases isFour⟩
    have isBytes : tierTokens corpus 1 = byteTokens := rfl
    rw [isBytes, byteTokens, List.length_map, List.length_range]
    decide

/-- The entry of a token of the corpus. -/
def TierEntry
    (corpus : Bytes)
    (entry : Bytes × Nat) : Prop :=
  ∃ length ∈ tokenLengths, ∃ i : Nat,
    (tierTokens corpus length)[i]? = some entry.1 ∧
      entry.2 = tierBase length + i

/-- The entry of the padding token, unless the corpus gives it a code. -/
def PaddingEntry
    (corpus : Bytes)
    (entry : Bytes × Nat) : Prop :=
  entry = (paddingToken, 0) ∧ paddingToken ∉ tierTokens corpus 4

/-- The entries of a trained dictionary. -/
theorem mem_entries_buildDictionary
    {corpus : Bytes}
    {entry : Bytes × Nat} :
    entry ∈ (buildDictionary corpus).tokenToCode.entries ↔
      TierEntry corpus entry ∨ PaddingEntry corpus entry := by
  have shape :
      entry ∈ (buildDictionary corpus).tokenToCode.entries ↔
        (∃ i : Nat, (tierTokens corpus 1)[i]? = some entry.1 ∧
            entry.2 = 3072 + i) ∨
          (((∃ i : Nat, (tierTokens corpus 2)[i]? = some entry.1 ∧
              entry.2 = 2048 + i) ∨
            (((∃ i : Nat, (tierTokens corpus 3)[i]? = some entry.1 ∧
                entry.2 = 1024 + i) ∨
              (((∃ i : Nat, (tierTokens corpus 4)[i]? = some entry.1 ∧
                  entry.2 = 1 + i) ∨
                (entry = (paddingToken, 0) ∧
                  entry.1 ∉ tierTokens corpus 4)) ∧
                entry.1 ∉ tierTokens corpus 3)) ∧
              entry.1 ∉ tierTokens corpus 2)) ∧
            entry.1 ∉ tierTokens corpus 1) := by
    have inEmpty : entry ∉ (JsMap.empty : JsMap Bytes Nat).entries := by
      intro member
      cases member
    have inPadding :
        entry ∈ ((JsMap.empty : JsMap Bytes Nat).set paddingToken
            0).entries ↔
          entry = (paddingToken, 0) := by
      rw [JsMap.mem_entries_set]
      constructor
      · rintro (isPadding | ⟨old, _⟩)
        · exact isPadding
        · exact absurd old inEmpty
      · exact .inl
    rw [← inPadding,
      ← mem_entries_setCodes (tierTokens_nodup corpus 4),
      ← mem_entries_setCodes (tierTokens_nodup corpus 3),
      ← mem_entries_setCodes (tierTokens_nodup corpus 2),
      ← mem_entries_setCodes (tierTokens_nodup corpus 1)]
    rfl
  have elsewhere : ∀ {length other : Nat}, other ∈ tokenLengths →
      entry.1.length = length → length ≠ other →
        entry.1 ∉ tierTokens corpus other := by
    intro length other isOther isLength differs member
    exact differs
      (isLength.symm.trans (length_of_mem_tierTokens isOther member))
  rw [shape]
  constructor
  · rintro (one | ⟨two | ⟨three | ⟨four | ⟨isPadding, absent⟩, _⟩, _⟩, _⟩)
    · exact .inl ⟨1, by decide, one⟩
    · exact .inl ⟨2, by decide, two⟩
    · exact .inl ⟨3, by decide, three⟩
    · exact .inl ⟨4, by decide, four⟩
    · rw [isPadding] at absent
      exact .inr ⟨isPadding, absent⟩
  · rintro (⟨length, isLength, i, isToken, isCode⟩ | ⟨rfl, absent⟩)
    · have hasLength : entry.1.length = length :=
        length_of_mem_tierTokens isLength (List.mem_of_getElem? isToken)
      have cases := isLength
      simp only [tokenLengths, List.mem_cons, List.not_mem_nil,
        or_false] at cases
      rcases cases with rfl | rfl | rfl | rfl
      · exact .inr ⟨.inr ⟨.inr ⟨.inl ⟨i, isToken, isCode⟩,
          elsewhere (by decide) hasLength (by decide)⟩,
          elsewhere (by decide) hasLength (by decide)⟩,
          elsewhere (by decide) hasLength (by decide)⟩
      · exact .inr ⟨.inr ⟨.inl ⟨i, isToken, isCode⟩,
          elsewhere (by decide) hasLength (by decide)⟩,
          elsewhere (by decide) hasLength (by decide)⟩
      · exact .inr ⟨.inl ⟨i, isToken, isCode⟩,
          elsewhere (by decide) hasLength (by decide)⟩
      · exact .inl ⟨i, isToken, isCode⟩
    · have hasLength : paddingToken.length = 4 := rfl
      exact .inr ⟨.inr ⟨.inr ⟨.inr ⟨rfl, absent⟩,
        elsewhere (by decide) hasLength (by decide)⟩,
        elsewhere (by decide) hasLength (by decide)⟩,
        elsewhere (by decide) hasLength (by decide)⟩

section Codes

variable {corpus : Bytes}

/-- The length of a tier's code range, the padding code left out. -/
theorem tierCode_bounds
    {length i : Nat}
    (isLength : length ∈ tokenLengths)
    (inside : i < (tierTokens corpus length).length) :
    0 < tierBase length + i ∧ tierBase length + i < TOTAL_CODES := by
  obtain ⟨room, roomFour⟩ := tierTokens_room corpus isLength
  simp only [tokenLengths, List.mem_cons, List.not_mem_nil,
    or_false] at isLength
  rcases isLength with rfl | rfl | rfl | rfl
  · have four := roomFour rfl
    simp only [tierBase, TOTAL_CODES]
    omega
  all_goals
    simp only [tierBase, TOTAL_CODES]
    omega

/-- A code belongs to one tier. -/
theorem tier_unique
    {first second i j : Nat}
    (isFirst : first ∈ tokenLengths)
    (isSecond : second ∈ tokenLengths)
    (inFirst : i < (tierTokens corpus first).length)
    (inSecond : j < (tierTokens corpus second).length)
    (same : tierBase first + i = tierBase second + j) :
    first = second ∧ i = j := by
  obtain ⟨roomFirst, fourFirst⟩ := tierTokens_room corpus isFirst
  obtain ⟨roomSecond, fourSecond⟩ := tierTokens_room corpus isSecond
  simp only [tokenLengths, List.mem_cons, List.not_mem_nil,
    or_false] at isFirst isSecond
  rcases isFirst with rfl | rfl | rfl | rfl <;>
    rcases isSecond with rfl | rfl | rfl | rfl <;>
      simp only [tierBase, forall_const, true_and, Nat.reduceEqDiff,
        IsEmpty.forall_iff, false_and] at * <;>
      omega

/-- Distinct entries have distinct codes. -/
theorem entry_of_code
    {first second : Bytes × Nat}
    (inFirst :
      first ∈ (buildDictionary corpus).tokenToCode.entries)
    (inSecond :
      second ∈ (buildDictionary corpus).tokenToCode.entries)
    (sameCode : first.2 = second.2) :
    first = second := by
  rw [mem_entries_buildDictionary] at inFirst inSecond
  rcases inFirst with
    ⟨length, isLength, i, isToken, isCode⟩ | ⟨isPadding, _⟩
  · have inside := (List.getElem?_eq_some_iff.mp isToken).1
    rcases inSecond with
      ⟨other, isOther, j, isOtherToken, isOtherCode⟩ | ⟨isPadding, _⟩
    · have otherInside := (List.getElem?_eq_some_iff.mp isOtherToken).1
      obtain ⟨rfl, rfl⟩ := tier_unique isLength isOther inside otherInside
        (isCode.symm.trans (sameCode.trans isOtherCode))
      have sameToken : first.1 = second.1 :=
        Option.some.inj (isToken.symm.trans isOtherToken)
      ext1
      · exact sameToken
      · exact sameCode
    · have positive := (tierCode_bounds isLength inside).1
      rw [isPadding] at sameCode
      omega
  · rcases inSecond with
      ⟨other, isOther, j, isOtherToken, isOtherCode⟩ | ⟨isOther, _⟩
    · have inside := (List.getElem?_eq_some_iff.mp isOtherToken).1
      have positive := (tierCode_bounds isOther inside).1
      rw [isPadding] at sameCode
      omega
    · rw [isPadding, isOther]

/-- Trained dictionaries number their tokens with codes of twelve bits. -/
theorem numbered_buildDictionary
    (corpus : Bytes) :
    (buildDictionary corpus).Numbered where
  codeSmall := by
    intro token code member
    rcases mem_entries_buildDictionary.mp member with
      ⟨length, isLength, i, isToken, isCode⟩ | ⟨isPadding, _⟩
    · have inside := (List.getElem?_eq_some_iff.mp isToken).1
      rw [show code = tierBase length + i from isCode]
      exact (tierCode_bounds isLength inside).2
    · rw [(Prod.mk.inj isPadding).2]
      decide
  paddingLength := by
    intro token member
    rcases mem_entries_buildDictionary.mp member with
      ⟨length, isLength, i, isToken, isCode⟩ | ⟨isPadding, _⟩
    · have inside := (List.getElem?_eq_some_iff.mp isToken).1
      have positive := (tierCode_bounds isLength inside).1
      have isZero : 0 = tierBase length + i := isCode
      omega
    · rw [(Prod.mk.inj isPadding).1]
      rfl

/-- The first code of the group of a length. -/
def groupStart
    (corpus : Bytes)
    (length : Nat) : Nat :=
  if length = 4 ∧ paddingToken ∉ tierTokens corpus 4 then 0
  else tierBase length

/-- The number of codes of the group of a length. -/
def groupCount
    (corpus : Bytes)
    (length : Nat) : Nat :=
  tierBase length - groupStart corpus length +
    (tierTokens corpus length).length

/-- The group of a length as `makeDictBlobs` writes it. -/
@[irreducible] def groupOf
    (corpus : Bytes)
    (length : Nat) : List (Bytes × Nat) :=
  tokenGroup (buildDictionary corpus).tokenToCode length

theorem mem_tokenGroup
    {tokenToCode : JsMap Bytes Nat}
    {length : Nat}
    {entry : Bytes × Nat} :
    entry ∈ tokenGroup tokenToCode length ↔
      entry ∈ tokenToCode.entries ∧ entry.1.length = length := by
  rw [tokenGroup, List.mem_insertionSort, List.mem_filter,
    decide_eq_true_eq]

/-- A group is in the order of its codes. -/
theorem tokenGroup_sorted
    (tokenToCode : JsMap Bytes Nat)
    (length : Nat) :
    ((tokenGroup tokenToCode length).map Prod.snd).Pairwise (· ≤ ·) := by
  rw [List.pairwise_map]
  exact List.pairwise_insertionSort
    (fun first second : Bytes × Nat => first.2 ≤ second.2) _

theorem tokenGroup_nodup
    (tokenToCode : JsMap Bytes Nat)
    (length : Nat) :
    (tokenGroup tokenToCode length).Nodup := by
  apply (List.perm_insertionSort _ _).nodup_iff.mpr
  exact (List.Nodup.of_map _ tokenToCode.keysNodup).filter _

theorem mem_groupOf
    {length : Nat}
    {entry : Bytes × Nat} :
    entry ∈ groupOf corpus length ↔
      entry ∈ (buildDictionary corpus).tokenToCode.entries ∧
        entry.1.length = length := by
  unfold groupOf
  exact mem_tokenGroup

/-- The codes of a group: those of the tier's tokens, and the padding code
where the group still has it. -/
theorem groupStart_cases
    (corpus : Bytes)
    (length : Nat) :
    (groupStart corpus length = tierBase length ∧
        ¬ (length = 4 ∧ paddingToken ∉ tierTokens corpus 4) ∧
        groupCount corpus length = (tierTokens corpus length).length) ∨
      (groupStart corpus length = 0 ∧ length = 4 ∧
        paddingToken ∉ tierTokens corpus 4 ∧
        groupCount corpus length =
          (tierTokens corpus length).length + 1) := by
  unfold groupCount groupStart
  by_cases padded : length = 4 ∧ paddingToken ∉ tierTokens corpus 4
  · right
    rw [if_pos padded]
    obtain ⟨rfl, absent⟩ := padded
    exact ⟨rfl, rfl, absent, by rw [tierBase, Nat.add_comm]⟩
  · left
    rw [if_neg padded]
    exact ⟨rfl, padded, by rw [Nat.sub_self, Nat.zero_add]⟩

/-- A list of numbers in order that holds exactly a range is the range. -/
theorem eq_range'_of_sorted
    {codes : List Nat}
    {start count : Nat}
    (sorted : codes.Pairwise (· ≤ ·))
    (distinct : codes.Nodup)
    (holds : ∀ code, code ∈ codes ↔ start ≤ code ∧ code < start + count) :
    codes = List.range' start count := by
  have perm : codes.Perm (List.range' start count) := by
    rw [List.perm_ext_iff_of_nodup distinct List.nodup_range']
    intro code
    rw [holds, List.mem_range'_1]
  have ordered : (List.range' start count).Pairwise (· < ·) :=
    List.pairwise_lt_range' 1
  apply perm.eq_of_pairwise ?_ sorted (ordered.imp Nat.le_of_lt)
  intro first second _ _ le ge
  exact Nat.le_antisymm le ge

/-- The codes of a group are consecutive. -/
theorem codes_groupOf
    {length : Nat}
    (isLength : length ∈ tokenLengths) :
    (groupOf corpus length).map Prod.snd =
      List.range' (groupStart corpus length)
        (groupCount corpus length) := by
  apply eq_range'_of_sorted
  · unfold groupOf
    exact tokenGroup_sorted _ _
  · apply List.Nodup.map_on
    · intro first inFirst second inSecond sameCode
      exact entry_of_code (mem_groupOf.mp inFirst).1
        (mem_groupOf.mp inSecond).1 sameCode
    · unfold groupOf
      exact tokenGroup_nodup _ _
  · intro code
    rw [List.mem_map]
    constructor
    · rintro ⟨entry, inGroup, rfl⟩
      obtain ⟨inMap, hasLength⟩ := mem_groupOf.mp inGroup
      rcases mem_entries_buildDictionary.mp inMap with
        ⟨other, isOther, i, isToken, isCode⟩ | ⟨isPadding, absent⟩
      · have isSame : other = length := by
          rw [← hasLength]
          exact (length_of_mem_tierTokens isOther
            (List.mem_of_getElem? isToken)).symm
        have inside := (List.getElem?_eq_some_iff.mp isToken).1
        rw [isSame] at isCode inside
        rcases groupStart_cases corpus length with
          ⟨start, _, count⟩ | ⟨start, isFour, _, count⟩
        · omega
        · have base : tierBase length = 1 := by
            rw [isFour]
            rfl
          omega
      · have isFour : length = 4 := by
          rw [← hasLength, isPadding]
          rfl
        rcases groupStart_cases corpus length with
          ⟨_, notPadded, _⟩ | ⟨start, _, _, count⟩
        · exact absurd ⟨isFour, absent⟩ notPadded
        · rw [isPadding]
          omega
    · rintro ⟨atLeast, below⟩
      have ofIndex : ∀ i, i < (tierTokens corpus length).length →
          code = tierBase length + i →
            ∃ entry ∈ groupOf corpus length, entry.2 = code := by
        intro i inside isCode
        have isToken := List.getElem?_eq_getElem inside
        refine ⟨((tierTokens corpus length)[i], code), ?_, rfl⟩
        apply mem_groupOf.mpr
        constructor
        · exact mem_entries_buildDictionary.mpr
            (.inl ⟨length, isLength, i, isToken, isCode⟩)
        · exact length_of_mem_tierTokens isLength
            (List.getElem_mem inside)
      rcases groupStart_cases corpus length with
        ⟨start, _, count⟩ | ⟨start, isFour, absent, count⟩
      · apply ofIndex (code - tierBase length)
        · omega
        · omega
      · have base : tierBase length = 1 := by
          rw [isFour]
          rfl
        cases code with
        | zero =>
            refine ⟨(paddingToken, 0), ?_, rfl⟩
            apply mem_groupOf.mpr
            constructor
            · exact mem_entries_buildDictionary.mpr (.inr ⟨rfl, absent⟩)
            · rw [isFour]
              rfl
        | succ code =>
            apply ofIndex code
            · omega
            · omega

end Codes

end Bam
