import Mathlib.Data.List.Induction
import Mathlib.Data.List.GetD
import Mathlib.Algebra.Order.Group.Nat
import Mathlib.Tactic.Ring

namespace Bytewise

/-!
# Big-endian numbers and fixed-width blocks

Numbers written most significant byte first, and lists cut into blocks of one
width whose last block is padded.  Both come with the laws that read back what
was written.
-/

/-- The low `width` bytes of a number, most significant first. -/
def toBE : Nat → Nat → List UInt8
  | 0, _ => []
  | width + 1, value => toBE width (value / 256) ++ [UInt8.ofNat value]

/-- The number a list of bytes spells, most significant first. -/
def ofBE (bytes : List UInt8) : Nat :=
  bytes.foldl (fun number byte => number * 256 + byte.toNat) 0

@[simp] theorem length_toBE
    (width value : Nat) :
    (toBE width value).length = width := by
  induction width generalizing value with
  | zero =>
      rfl
  | succ width inductionHypothesis =>
      simp [toBE, inductionHypothesis]

@[simp] theorem ofBE_nil :
    ofBE [] = 0 :=
  rfl

@[simp] theorem ofBE_concat
    (bytes : List UInt8)
    (last : UInt8) :
    ofBE (bytes ++ [last]) = ofBE bytes * 256 + last.toNat := by
  simp [ofBE, List.foldl_append]

/-- Reading back a written number gives its residue. -/
theorem ofBE_toBE
    (width value : Nat) :
    ofBE (toBE width value) = value % 256 ^ width := by
  induction width generalizing value with
  | zero =>
      simp [toBE, Nat.mod_one]
  | succ width inductionHypothesis =>
      have split :
          value % 256 ^ (width + 1) =
            value % 256 + 256 * (value / 256 % 256 ^ width) := by
        rw [Nat.pow_succ', Nat.mod_mul]
      rw [toBE, ofBE_concat, inductionHypothesis, UInt8.toNat_ofNat',
        split]
      omega

/-- A number that fits its width is read back unchanged. -/
theorem ofBE_toBE_of_lt
    {width value : Nat}
    (fits : value < 256 ^ width) :
    ofBE (toBE width value) = value := by
  rw [ofBE_toBE, Nat.mod_eq_of_lt fits]

/-- A number read from bytes fits their width. -/
theorem ofBE_lt
    (bytes : List UInt8) :
    ofBE bytes < 256 ^ bytes.length := by
  induction bytes using List.reverseRecOn with
  | nil =>
      simp
  | append_singleton bytes last inductionHypothesis =>
      have lastSmall := last.toNat_lt
      rw [ofBE_concat, List.length_append, List.length_singleton,
        Nat.pow_succ]
      omega

/-- Writing a number that was read gives back its bytes. -/
theorem toBE_ofBE
    (bytes : List UInt8) :
    toBE bytes.length (ofBE bytes) = bytes := by
  induction bytes using List.reverseRecOn with
  | nil =>
      rfl
  | append_singleton bytes last inductionHypothesis =>
      have lastSmall := last.toNat_lt
      have high : (ofBE bytes * 256 + last.toNat) / 256 = ofBE bytes := by
        omega
      have low :
          UInt8.ofNat (ofBE bytes * 256 + last.toNat) = last := by
        apply UInt8.toNat_inj.mp
        rw [UInt8.toNat_ofNat']
        omega
      rw [List.length_append, List.length_singleton, ofBE_concat, toBE,
        high, low, inductionHypothesis]

/-- Bytes of one length spell one number only if they are the same. -/
theorem ofBE_inj
    {first second : List UInt8}
    (sameLength : first.length = second.length)
    (sameNumber : ofBE first = ofBE second) :
    first = second := by
  rw [← toBE_ofBE first, sameLength, sameNumber, toBE_ofBE]

/-- The digits of a written number. -/
theorem toBE_eq_map
    (width value : Nat) :
    toBE width value =
      (List.range width).map fun index =>
        UInt8.ofNat (value / 256 ^ (width - 1 - index)) := by
  induction width generalizing value with
  | zero =>
      rfl
  | succ width inductionHypothesis =>
      rw [toBE, inductionHypothesis, List.range_succ, List.map_append]
      congr 1
      · apply List.map_congr_left
        intro index inRange
        have small := List.mem_range.mp inRange
        have place :
            width + 1 - 1 - index = (width - 1 - index) + 1 := by
          omega
        rw [place, Nat.pow_succ', Nat.div_div_eq_div_mul]
      · simp

/-- A digit of the number bytes spell is one of the bytes. -/
theorem ofNat_ofBE_div
    {bytes : List UInt8}
    {index : Nat}
    (inside : index < bytes.length) :
    UInt8.ofNat (ofBE bytes / 256 ^ (bytes.length - 1 - index)) =
      bytes[index] := by
  have written := toBE_ofBE bytes
  rw [toBE_eq_map] at written
  have digit :
      ((List.range bytes.length).map fun place =>
          UInt8.ofNat
            (ofBE bytes / 256 ^ (bytes.length - 1 - place)))[index]? =
        bytes[index]? := by
    rw [written]
  simpa [inside] using digit

section Blocks

variable {α : Type*}

/-- Extend a list on the right to a given length. -/
def padRight
    (pad : α)
    (width : Nat)
    (items : List α) : List α :=
  items ++ List.replicate (width - items.length) pad

/-- The block of a list that starts at a multiple of the block width. -/
def block
    (width : Nat)
    (items : List α)
    (index : Nat) : List α :=
  (items.drop (index * width)).take width

@[simp] theorem length_padRight
    (pad : α)
    (width : Nat)
    (items : List α) :
    (padRight pad width items).length = max items.length width := by
  simp only [padRight, List.length_append, List.length_replicate]
  omega

/-- A padded slice, item by item. -/
theorem padRight_slice_eq_map
    (pad : α)
    (items : List α)
    (offset width : Nat) :
    padRight pad width ((items.drop offset).take width) =
      (List.range width).map fun index =>
        items.getD (offset + index) pad := by
  apply List.ext_getElem
  · simp
  · intro index inSlice inMap
    simp only [padRight, List.getElem_append, List.length_take,
      List.length_drop, List.getElem_take, List.getElem_drop,
      List.getElem_replicate, List.getElem_map, List.getElem_range]
    split
    · rename_i inside
      rw [List.getD_eq_getElem]
    · rename_i outside
      have small : index < width := by
        simpa using inMap
      rw [List.getD_eq_default]
      omega

/-- A slice inside its list needs no padding. -/
theorem padRight_slice_of_le
    (pad : α)
    {items : List α}
    {offset width : Nat}
    (inside : offset + width ≤ items.length) :
    padRight pad width ((items.drop offset).take width) =
      (items.drop offset).take width := by
  have full : ((items.drop offset).take width).length = width := by
    rw [List.length_take, List.length_drop]
    omega
  rw [padRight, full, Nat.sub_self, List.replicate_zero, List.append_nil]

theorem length_block_le
    (width : Nat)
    (items : List α)
    (index : Nat) :
    (block width items index).length ≤ width := by
  simp [block]

/-- The leading blocks of a list, each padded, are its padded prefix. -/
theorem flatMap_padded_blocks
    (pad : α)
    (width : Nat)
    (items : List α)
    (count : Nat) :
    (List.range count).flatMap
        (fun index => padRight pad width (block width items index)) =
      padRight pad (count * width) (items.take (count * width)) := by
  induction count with
  | zero =>
      simp [padRight]
  | succ count inductionHypothesis =>
      rw [List.range_succ, List.flatMap_append, inductionHypothesis,
        List.flatMap_singleton, Nat.succ_mul]
      rcases Nat.le_total (count * width) items.length with full | short
      · have noPad : count * width - (items.take (count * width)).length = 0 := by
          simp [full]
        rw [padRight, noPad, List.replicate_zero, List.append_nil,
          padRight, padRight, List.take_add, block, List.append_assoc]
        congr 3
        simp only [List.length_take, List.length_drop,
          List.length_append]
        omega
      · have noBlock : block width items count = [] := by
          simp [block, short]
        have whole : items.take (count * width) = items :=
          List.take_of_length_le short
        have whole' : items.take (count * width + width) = items :=
          List.take_of_length_le (by omega)
        rw [noBlock, whole, whole', padRight, padRight, padRight,
          List.nil_append, List.append_assoc,
          List.replicate_append_replicate]
        congr 2
        simp only [List.length_nil]
        omega

/-- A block of a concatenation of blocks of one width. -/
theorem take_drop_flatten
    {width : Nat}
    {blocks : List (List α)}
    (uniform : ∀ part ∈ blocks, part.length = width)
    {index : Nat}
    (inside : index < blocks.length)
    (skipped : Nat) :
    (blocks.flatten.drop (index * width + skipped)).take
        (width - skipped) =
      (blocks[index]).drop skipped := by
  induction blocks generalizing index with
  | nil =>
      exact absurd inside (Nat.not_lt_zero _)
  | cons first rest inductionHypothesis =>
      have firstWidth : first.length = width :=
        uniform first List.mem_cons_self
      have restUniform : ∀ part ∈ rest, part.length = width :=
        fun part member => uniform part (List.mem_cons_of_mem _ member)
      cases index with
      | zero =>
          rw [Nat.zero_mul, Nat.zero_add, List.flatten_cons,
            List.getElem_cons_zero]
          rcases Nat.le_total skipped width with le | ge
          · rw [List.drop_append_of_le_length (by omega)]
            apply List.take_left'
            rw [List.length_drop, firstWidth]
          · rw [Nat.sub_eq_zero_of_le ge, List.take_zero,
              List.drop_eq_nil_of_le (by omega)]
      | succ index =>
          have next := inductionHypothesis restUniform
            (Nat.lt_of_succ_lt_succ inside)
          have past :
              (index + 1) * width + skipped =
                first.length + (index * width + skipped) := by
            rw [firstWidth, Nat.succ_mul]
            omega
          rw [List.flatten_cons, past, List.drop_length_add_append,
            List.getElem_cons_succ]
          exact next

/-- Copy items out of consecutive blocks, from an item of the first block on. -/
def copyBlocks
    (width : Nat)
    (read : Nat → Nat → Nat → List α) :
    Nat → Nat → Nat → Nat → List α
  | 0, _, _, _ => []
  | count + 1, index, skipped, remaining =>
      if remaining = 0 then
        []
      else
        let toCopy := min (width - skipped) remaining
        read index skipped toCopy ++
          copyBlocks width read count (index + 1) 0 (remaining - toCopy)

theorem length_flatten_of_uniform
    {width : Nat}
    {blocks : List (List α)}
    (uniform : ∀ part ∈ blocks, part.length = width) :
    blocks.flatten.length = blocks.length * width := by
  induction blocks with
  | nil =>
      simp
  | cons first rest inductionHypothesis =>
      have tail :=
        inductionHypothesis fun part member =>
          uniform part (List.mem_cons_of_mem _ member)
      rw [List.flatten_cons, List.length_append, tail,
        uniform first List.mem_cons_self, List.length_cons,
        Nat.succ_mul, Nat.add_comm]

/-- Whole blocks are dropped by dropping their items. -/
theorem drop_flatten
    {width : Nat}
    {blocks : List (List α)}
    (uniform : ∀ part ∈ blocks, part.length = width)
    (index : Nat) :
    blocks.flatten.drop (index * width) = (blocks.drop index).flatten := by
  induction index generalizing blocks with
  | zero =>
      simp
  | succ index inductionHypothesis =>
      cases blocks with
      | nil =>
          simp
      | cons first rest =>
          have firstWidth : first.length = width :=
            uniform first List.mem_cons_self
          have past : (index + 1) * width = first.length + index * width := by
            rw [firstWidth, Nat.succ_mul, Nat.add_comm]
          rw [List.flatten_cons, past, List.drop_length_add_append,
            List.drop_succ_cons]
          apply inductionHypothesis
          intro part member
          exact uniform part (List.mem_cons_of_mem _ member)

/-- Copies agree where their reads do. -/
theorem copyBlocks_congr
    {width : Nat}
    {read other : Nat → Nat → Nat → List α}
    {count index otherIndex skipped remaining : Nat}
    (starts : skipped ≤ width)
    (same :
      ∀ place < count, ∀ first size, first + size ≤ width →
        read (index + place) first size =
          other (otherIndex + place) first size) :
    copyBlocks width read count index skipped remaining =
      copyBlocks width other count otherIndex skipped remaining := by
  induction count generalizing index otherIndex skipped remaining with
  | zero =>
      rfl
  | succ count inductionHypothesis =>
      have here :=
        same 0 (Nat.succ_pos count) skipped
          (min (width - skipped) remaining) (by omega)
      have later :=
        @inductionHypothesis (index + 1) (otherIndex + 1) 0
          (remaining - min (width - skipped) remaining)
          (Nat.zero_le _) (by
            intro place small first size fits
            have next := same (place + 1) (Nat.succ_lt_succ small)
              first size fits
            rw [Nat.add_assoc, Nat.add_comm 1 place, next,
              Nat.add_assoc, Nat.add_comm 1 place])
      rw [Nat.add_zero, Nat.add_zero] at here
      simp only [copyBlocks, here, later]

/-- A copy out of blocks is a slice of their concatenation. -/
theorem copyBlocks_eq_take_drop
    {width : Nat}
    {read : Nat → Nat → Nat → List α}
    {blocks : List (List α)}
    (uniform : ∀ part ∈ blocks, part.length = width)
    (reads :
      ∀ index part, blocks[index]? = some part →
        ∀ skipped size, skipped + size ≤ width →
          read index skipped size = (part.drop skipped).take size)
    {count index skipped remaining : Nat}
    (starts : skipped < width)
    (enough : skipped + remaining ≤ count * width)
    (inside :
      index * width + skipped + remaining ≤ blocks.length * width) :
    copyBlocks width read count index skipped remaining =
      (blocks.flatten.drop (index * width + skipped)).take remaining := by
  induction count generalizing index skipped remaining with
  | zero =>
      have done : remaining = 0 := by
        omega
      simp [copyBlocks, done]
  | succ count inductionHypothesis =>
      rw [copyBlocks]
      split
      · rename_i done
        simp [done]
      rename_i unfinished
      have isInside : index < blocks.length := by
        by_contra beyond
        have past : blocks.length * width ≤ index * width :=
          Nat.mul_le_mul_right _ (Nat.le_of_not_lt beyond)
        omega
      have isPart : blocks[index]? = some blocks[index] :=
        List.getElem?_eq_getElem isInside
      have partWidth : blocks[index].length = width :=
        uniform _ (List.getElem_mem isInside)
      have next :
          (index + 1) * width = index * width + width := by
        rw [Nat.succ_mul]
      have total :
          (count + 1) * width = count * width + width := by
        rw [Nat.succ_mul]
      have here :
          blocks.flatten.drop (index * width + skipped) =
            blocks[index].drop skipped ++
              blocks.flatten.drop ((index + 1) * width) := by
        rw [← List.drop_drop, drop_flatten uniform, drop_flatten uniform,
          List.drop_eq_getElem_cons isInside, List.flatten_cons,
          List.drop_append_of_le_length (by omega)]
      have partLeft :
          (blocks[index].drop skipped).length = width - skipped := by
        rw [List.length_drop, partWidth]
      dsimp only
      rw [reads index _ isPart skipped _ (by omega), here]
      rcases Nat.le_total (width - skipped) remaining with long | short
      · have later :=
          @inductionHypothesis (index + 1) 0
            (remaining - (width - skipped)) (by omega) (by omega)
            (by omega)
        have whole := List.take_of_length_le (Nat.le_of_eq partLeft)
        have fits := List.take_of_length_le (partLeft.trans_le long)
        rw [Nat.min_eq_left long, later, Nat.add_zero,
          List.take_append, partLeft, whole, fits]
      · have rest :
            copyBlocks width read count (index + 1) 0
              (remaining - remaining) = [] := by
          cases count with
          | zero =>
              rfl
          | succ count =>
              rw [copyBlocks, Nat.sub_self, if_pos rfl]
        rw [Nat.min_eq_right short, rest, List.append_nil,
          List.take_append_of_le_length (short.trans_eq partLeft.symm)]

end Blocks

end Bytewise
