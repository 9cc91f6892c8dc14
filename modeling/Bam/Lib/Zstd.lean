import Bam.Lib.Bytewise
import Mathlib.Tactic.Ring

namespace Zstd

open Bytewise

/-!
# Frames of the zstd format

A compressed stream is a sequence of frames, and decompressing it appends what
its frames hold.  Where a frame ends is seen from its header and the headers of
its blocks; what the blocks of a frame hold is a parameter.
-/

/-- The magic number a frame starts with, in its order on disk. -/
def MAGIC : List UInt8 :=
  [0x28, 0xb5, 0x2f, 0xfd]

/-- A little-endian number. -/
def littleEndian (bytes : List UInt8) : Nat :=
  ofBE bytes.reverse

theorem littleEndian_cons
    (byte : UInt8)
    (bytes : List UInt8) :
    littleEndian (byte :: bytes) =
      byte.toNat + 256 * littleEndian bytes := by
  rw [littleEndian, List.reverse_cons, ofBE_concat, littleEndian,
    Nat.add_comm, Nat.mul_comm]

theorem littleEndian_append
    (low high : List UInt8) :
    littleEndian (low ++ high) =
      littleEndian low + 256 ^ low.length * littleEndian high := by
  induction low with
  | nil =>
      rw [List.nil_append, List.length_nil, pow_zero, one_mul]
      exact (Nat.zero_add _).symm
  | cons byte low inductionHypothesis =>
      rw [List.cons_append, littleEndian_cons, littleEndian_cons,
        inductionHypothesis, List.length_cons]
      ring

theorem littleEndian_lt
    (bytes : List UInt8) :
    littleEndian bytes < 256 ^ bytes.length := by
  have bound := ofBE_lt bytes.reverse
  rwa [List.length_reverse] at bound

/-- A number by the first bytes and the rest. -/
theorem littleEndian_split
    (bytes : List UInt8)
    {width : Nat}
    (wide : width ≤ bytes.length) :
    littleEndian bytes =
      littleEndian (bytes.take width) +
        256 ^ width * littleEndian (bytes.drop width) := by
  have split := littleEndian_append (bytes.take width) (bytes.drop width)
  rwa [List.take_append_drop, List.length_take_of_le wide] at split

/-- `Frame_Content_Size_flag`, the upper two bits of the descriptor. -/
def contentSizeFlag (descriptor : UInt8) : Nat :=
  descriptor.toNat / 64

/-- `Single_Segment_flag`. -/
def singleSegment (descriptor : UInt8) : Bool :=
  descriptor.toNat / 32 % 2 = 1

/-- The width of the content size field. -/
def contentSizeWidth (descriptor : UInt8) : Nat :=
  match contentSizeFlag descriptor with
  | 0 => if singleSegment descriptor then 1 else 0
  | 1 => 2
  | 2 => 4
  | _ => 8

/-- The width of the dictionary id, from the lower two bits. -/
def dictionaryWidth (descriptor : UInt8) : Nat :=
  [0, 1, 2, 4].getD (descriptor.toNat % 4) 0

/-- The width of the window descriptor. -/
def windowWidth (descriptor : UInt8) : Nat :=
  if singleSegment descriptor then 0 else 1

/-- A frame header: its fields are as wide as its descriptor says. -/
structure FrameHeader where
  descriptor : UInt8
  window : List UInt8
  dictionaryId : List UInt8
  contentSize : List UInt8
  window_length : window.length = windowWidth descriptor
  dictionaryId_length : dictionaryId.length = dictionaryWidth descriptor
  contentSize_length : contentSize.length = contentSizeWidth descriptor

namespace FrameHeader

def encode (header : FrameHeader) : List UInt8 :=
  MAGIC ++ header.descriptor ::
    (header.window ++ header.dictionaryId ++ header.contentSize)

/-- The content size a header declares; a field of two bytes is offset by
256. -/
def declared? (header : FrameHeader) : Option Nat :=
  if header.contentSize = [] then none
  else
    some (littleEndian header.contentSize +
      if contentSizeFlag header.descriptor = 1 then 256 else 0)

@[simp] theorem length_encode
    (header : FrameHeader) :
    header.encode.length =
      5 + windowWidth header.descriptor +
        dictionaryWidth header.descriptor +
        contentSizeWidth header.descriptor := by
  simp only [encode, MAGIC, List.length_append, List.length_cons,
    List.length_nil, header.window_length, header.dictionaryId_length,
    header.contentSize_length]
  omega

/-- The content size comes behind the window and the dictionary id. -/
theorem drop_encode
    (header : FrameHeader)
    (rest : List UInt8) :
    (header.encode ++ rest).drop
        (5 + windowWidth header.descriptor +
          dictionaryWidth header.descriptor) =
      header.contentSize ++ rest := by
  have offset :
      (MAGIC ++ [header.descriptor] ++ header.window ++
          header.dictionaryId).length =
        5 + windowWidth header.descriptor +
          dictionaryWidth header.descriptor := by
    rw [List.length_append, List.length_append, header.window_length,
      header.dictionaryId_length]
    rfl
  have split :
      header.encode ++ rest =
        (MAGIC ++ [header.descriptor] ++ header.window ++
          header.dictionaryId) ++ (header.contentSize ++ rest) := by
    simp [encode]
  rw [split, List.drop_left' offset]

end FrameHeader

/-- The data starts with a header that binds whoever decodes it to this content
size: a zero counts only where the window is the content too, and sizes are
numbers of 31 bits. -/
def Binds
    (data : List UInt8)
    (size : Nat) : Prop :=
  ∃ (header : FrameHeader) (rest : List UInt8),
    data = header.encode ++ rest ∧ header.declared? = some size ∧
      (singleSegment header.descriptor = true ∨ size ≠ 0) ∧
      size < 2 ^ 31

/-- The size of blocks up to the last one, from their headers; a run-length
block is one byte whatever it holds. -/
def blocksSize : Nat → List UInt8 → Option Nat
  | 0, _ => none
  | fuel + 1, data =>
      if data.length < 3 then none
      else
        let header := littleEndian (data.take 3)
        let width := 3 + if header / 2 % 4 = 1 then 1 else header / 8
        if header % 2 = 1 then some width
        else (blocksSize fuel (data.drop width)).map (width + ·)

/-- The data starts with one of the sixteen magic numbers of skippable
frames. -/
def isSkippable (data : List UInt8) : Bool :=
  (data.getD 0 0).toNat / 16 = 5 ∧ (data.drop 1).take 3 = [0x2a, 0x4d, 0x18]

/-- The size of the frame the data starts with: its header, blocks and checksum,
or what a skippable frame says. -/
def frameSize (data : List UInt8) : Option Nat :=
  if data.take 4 = MAGIC then
    let descriptor := data.getD 4 0
    let start :=
      5 + windowWidth descriptor + dictionaryWidth descriptor +
        contentSizeWidth descriptor
    let checksum := if descriptor.toNat / 4 % 2 = 1 then 4 else 0
    (blocksSize data.length (data.drop start)).map
      fun blocks => start + blocks + checksum
  else if isSkippable data then
    some (8 + littleEndian ((data.drop 4).take 4))
  else none

/-- The data from the start of each of its frames on, for at most so many
frames. -/
def framesWithin :
    Nat → List UInt8 → Option (List (List UInt8))
  | _, [] => some []
  | 0, _ :: _ => none
  | fuel + 1, byte :: rest =>
      match frameSize (byte :: rest) with
      | none => none
      | some size =>
          (framesWithin fuel ((byte :: rest).drop size)).map
            ((byte :: rest) :: ·)

/-- The data from the start of each of its frames on. -/
def frames (data : List UInt8) : Option (List (List UInt8)) :=
  framesWithin data.length data

theorem frameSize_pos
    {data : List UInt8}
    {size : Nat}
    (isSize : frameSize data = some size) :
    0 < size := by
  rw [frameSize] at isSize
  split at isSize
  · dsimp only at isSize
    obtain ⟨blocks, -, rfl⟩ := Option.map_eq_some_iff.mp isSize
    omega
  · split at isSize
    · cases isSize
      omega
    · cases isSize

/-- Every frame takes up at least one byte, so no more frames than bytes are
needed. -/
theorem framesWithin_congr
    {first second : Nat}
    {data : List UInt8}
    (firstEnough : data.length ≤ first)
    (secondEnough : data.length ≤ second) :
    framesWithin first data = framesWithin second data := by
  induction first generalizing second data with
  | zero =>
      have empty := List.eq_nil_of_length_eq_zero (Nat.le_zero.mp firstEnough)
      rw [empty, framesWithin, framesWithin]
  | succ first inductionHypothesis =>
      cases data with
      | nil =>
          rw [framesWithin, framesWithin]
      | cons byte rest =>
          cases second with
          | zero =>
              simp at secondEnough
          | succ second =>
              rw [framesWithin, framesWithin]
              cases isSize : frameSize (byte :: rest) with
              | none =>
                  rfl
              | some size =>
                  have positive := frameSize_pos isSize
                  have shorter :
                      ((byte :: rest).drop size).length ≤
                        rest.length := by
                    rw [List.length_drop, List.length_cons]
                    omega
                  simp only [List.length_cons, Nat.add_le_add_iff_right]
                    at firstEnough secondEnough
                  dsimp only
                  rw [inductionHypothesis (shorter.trans firstEnough)
                    (shorter.trans secondEnough)]

/-- The frames of data that starts with a frame are that one and the frames
behind it. -/
theorem frames_of_frameSize
    {data : List UInt8}
    {size : Nat}
    (isSize : frameSize data = some size)
    (nonempty : data ≠ []) :
    frames data = (frames (data.drop size)).map (data :: ·) := by
  cases data with
  | nil =>
      exact (nonempty rfl).elim
  | cons byte rest =>
      have positive := frameSize_pos isSize
      have shorter :
          ((byte :: rest).drop size).length ≤ rest.length := by
        rw [List.length_drop, List.length_cons]
        omega
      rw [frames, List.length_cons, framesWithin, isSize, frames,
        framesWithin_congr (Nat.le_refl _) shorter]

/-- Data that consists of frames starts with one. -/
theorem frames_cons
    {data : List UInt8}
    {starts : List (List UInt8)}
    (split : frames data = some starts)
    (nonempty : data ≠ []) :
    ∃ size later,
      frameSize data = some size ∧
        frames (data.drop size) = some later ∧
        starts = data :: later := by
  cases isSize : frameSize data with
  | none =>
      cases data with
      | nil =>
          exact (nonempty rfl).elim
      | cons byte rest =>
          rw [frames, List.length_cons, framesWithin, isSize] at split
          cases split
  | some size =>
      rw [frames_of_frameSize isSize nonempty] at split
      obtain ⟨later, behind, isStarts⟩ := Option.map_eq_some_iff.mp split
      exact ⟨size, later, rfl, behind, isStarts.symm⟩

/-- A library that decodes single frames. -/
structure Decoder where
  /-- What the frame holds that the data starts with; `none` is a failure. -/
  content : List UInt8 → Option (List UInt8)
  content_binds :
    ∀ {data held size},
      content data = some held → Binds data size → held.length = size
  content_skippable :
    ∀ {data held},
      content data = some held → isSkippable data = true → held = []

namespace Decoder

variable (decoder : Decoder)

/-- All frames decoded, concatenated and skippable ones too. -/
def decompress (data : List UInt8) : Option (List UInt8) :=
  match frames data with
  | none => none
  | some starts => (starts.mapM decoder.content).map List.flatten

variable {decoder}

/-- What frames hold is as long as each of them holds. -/
theorem sum_length_contents
    {held : List UInt8 → Nat}
    (holds :
      ∀ {frame content}, decoder.content frame = some content →
        content.length = held frame)
    {starts contents : List (List UInt8)}
    (decoded : starts.mapM decoder.content = some contents) :
    (contents.map List.length).sum = (starts.map held).sum := by
  induction starts generalizing contents with
  | nil =>
      cases decoded
      rfl
  | cons frame starts inductionHypothesis =>
      rw [List.mapM_cons] at decoded
      obtain ⟨content, isContent, decoded⟩ :=
        Option.bind_eq_some_iff.mp decoded
      obtain ⟨later, isLater, isContents⟩ :=
        Option.bind_eq_some_iff.mp decoded
      cases isContents
      rw [List.map_cons, List.map_cons, List.sum_cons, List.sum_cons,
        holds isContent, inductionHypothesis isLater]

/-- Data that decompresses is a sequence of frames, each of which holds its part
of the outcome. -/
theorem length_decompress
    {held : List UInt8 → Nat}
    (holds :
      ∀ {frame content}, decoder.content frame = some content →
        content.length = held frame)
    {data plain : List UInt8}
    (decompressed : decoder.decompress data = some plain) :
    ∃ starts, frames data = some starts ∧
      plain.length = (starts.map held).sum := by
  rw [decompress] at decompressed
  cases split : frames data with
  | none =>
      rw [split] at decompressed
      cases decompressed
  | some starts =>
      rw [split] at decompressed
      obtain ⟨contents, decoded, rfl⟩ :=
        Option.map_eq_some_iff.mp decompressed
      exact ⟨starts, rfl,
        List.length_flatten.trans (sum_length_contents holds decoded)⟩

end Decoder

end Zstd
