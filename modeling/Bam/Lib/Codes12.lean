import Mathlib.Data.List.Basic
import Bam.Lib.Bytewise

namespace Codes12

open Bytewise

/-!
# Streams of 12-bit codes

Two codes of twelve bits share a word of three bytes, the first one in the high
bits.
-/

/-- Pack codes by twos; a code without a second one is left out. -/
def pack : List Nat → List UInt8
  | [] => []
  | [_] => []
  | first :: second :: rest => toBE 3 (first * 4096 + second) ++ pack rest

/-- The codes of a stream; a word that is cut off is left out. -/
def unpack : List UInt8 → List Nat
  | [] => []
  | [_] => []
  | [_, _] => []
  | high :: middle :: low :: rest =>
      ofBE [high, middle, low] / 4096 ::
        ofBE [high, middle, low] % 4096 :: unpack rest

/-- A word in front of a stream holds its first two codes. -/
theorem unpack_append
    {word : List UInt8}
    (isWord : word.length = 3)
    (stream : List UInt8) :
    unpack (word ++ stream) =
      ofBE word / 4096 :: ofBE word % 4096 :: unpack stream := by
  obtain ⟨high, middle, low, rfl⟩ := List.length_eq_three.mp isWord
  rfl

/-- The stream of a pair of codes gives the pair back. -/
theorem unpack_word
    {first second : Nat}
    (firstSmall : first < 4096)
    (secondSmall : second < 4096)
    (stream : List UInt8) :
    unpack (toBE 3 (first * 4096 + second) ++ stream) =
      first :: second :: unpack stream := by
  have inWord : first * 4096 + second < 256 ^ 3 := by
    omega
  have high : (first * 4096 + second) / 4096 = first := by
    omega
  have low : (first * 4096 + second) % 4096 = second := by
    omega
  rw [unpack_append (length_toBE 3 _), ofBE_toBE_of_lt inWord, high, low]

/-- The two codes of a word. -/
def codesOfWord (word : List UInt8) : List Nat :=
  [ofBE word / 4096 % 4096, ofBE word % 4096]

/-- The codes of whole words, read by position. -/
theorem unpack_eq_flatMap
    {stream : List UInt8}
    (aligned : stream.length % 3 = 0) :
    unpack stream =
      (List.range (stream.length / 3)).flatMap fun index =>
        codesOfWord ((stream.drop (3 * index)).take 3) := by
  induction stream using unpack.induct with
  | case1 =>
      rfl
  | case2 byte =>
      simp at aligned
  | case3 first second =>
      simp at aligned
  | case4 high middle low rest inductionHypothesis =>
      have inWord := ofBE_lt [high, middle, low]
      have highCode :
          ofBE [high, middle, low] / 4096 % 4096 =
            ofBE [high, middle, low] / 4096 := by
        apply Nat.mod_eq_of_lt
        simp only [List.length_cons, List.length_nil] at inWord
        omega
      have restAligned : rest.length % 3 = 0 := by
        simp only [List.length_cons] at aligned
        omega
      have words :
          (high :: middle :: low :: rest).length / 3 =
            rest.length / 3 + 1 := by
        simp only [List.length_cons]
        omega
      have later : ∀ index : Nat,
          (high :: middle :: low :: rest).drop (3 * (index + 1)) =
            rest.drop (3 * index) := by
        intro index
        rw [Nat.mul_succ]
        rfl
      rw [words, List.range_succ_eq_map, List.flatMap_cons,
        List.flatMap_map, unpack, inductionHypothesis restAligned]
      simp only [Nat.succ_eq_add_one, later]
      simp only [codesOfWord, Nat.mul_zero, List.drop_zero,
        List.take_succ_cons, List.take_zero, highCode,
        List.cons_append, List.nil_append]

/-- Packing takes three bytes for two codes. -/
theorem length_pack
    (codes : List Nat) :
    (pack codes).length = 3 * (codes.length / 2) := by
  induction codes using pack.induct with
  | case1 =>
      rfl
  | case2 code =>
      simp [pack]
  | case3 first second rest inductionHypothesis =>
      simp only [pack, List.length_append, length_toBE,
        inductionHypothesis, List.length_cons]
      omega

/-- Unpacking gives the codes of a stream back. -/
theorem unpack_pack
    {codes : List Nat}
    (small : ∀ code ∈ codes, code < 4096)
    (even : codes.length % 2 = 0) :
    unpack (pack codes) = codes := by
  induction codes using pack.induct with
  | case1 =>
      rfl
  | case2 code =>
      simp at even
  | case3 first second rest inductionHypothesis =>
      have restEven : rest.length % 2 = 0 := by
        simp only [List.length_cons] at even
        omega
      have restSmall : ∀ code ∈ rest, code < 4096 := by
        intro code member
        exact small code
          (List.mem_cons_of_mem _ (List.mem_cons_of_mem _ member))
      rw [pack, unpack_word (small first List.mem_cons_self)
        (small second (List.mem_cons_of_mem _ List.mem_cons_self)),
        inductionHypothesis restSmall restEven]

end Codes12
