import Bam.Lib.Bytewise

namespace Abi

open Bytewise

/-!
# Head and tail layout of the contract ABI

A component is the encoding of one value and whether its type is dynamic.  A
sequence of components is laid out as heads followed by tails: a static
component stands in its head, a dynamic one leaves the 32-byte offset of its
tail there.
-/

structure Component where
  dynamic : Bool
  encoding : List UInt8
  deriving Repr, DecidableEq

/-- A 32-byte word. -/
def word (value : Nat) : List UInt8 :=
  toBE 32 value

/-- `Math.ceil(length / 32) * 32`. -/
def roundUp (length : Nat) : Nat :=
  (length + 31) / 32 * 32

def headSize (component : Component) : Nat :=
  if component.dynamic then 32 else component.encoding.length

/-- The heads of a sequence, the next tail starting at `offset`. -/
def heads :
    Nat → List Component → List UInt8
  | _, [] => []
  | offset, component :: rest =>
      if component.dynamic then
        word offset ++ heads (offset + component.encoding.length) rest
      else
        component.encoding ++ heads offset rest

def tails (components : List Component) : List UInt8 :=
  components.flatMap fun component =>
    if component.dynamic then component.encoding else []

/-- The encoding of a sequence of components. -/
def encodeSequence (components : List Component) : List UInt8 :=
  heads (components.map headSize).sum components ++ tails components

/-- An unsigned integer or an address. -/
def uint (value : Nat) : Component where
  dynamic := false
  encoding := word value

/-- A `bytes` value: its length and the padded bytes. -/
def bytes (content : List UInt8) : Component where
  dynamic := true
  encoding :=
    word content.length ++ padRight 0x00 (roundUp content.length) content

def tuple (components : List Component) : Component where
  dynamic := components.any Component.dynamic
  encoding := encodeSequence components

/-- A dynamic array: its length and its elements as a sequence. -/
def array (elements : List Component) : Component where
  dynamic := true
  encoding := word elements.length ++ encodeSequence elements

/-- A sequence that starts with a dynamic component starts with the offset of
its tail. -/
theorem encodeSequence_dynamic
    {first : Component}
    (isDynamic : first.dynamic = true)
    (rest : List Component) :
    ∃ later,
      encodeSequence (first :: rest) =
        word ((first :: rest).map headSize).sum ++ later := by
  rw [encodeSequence, heads, if_pos isDynamic, List.append_assoc]
  exact ⟨_, rfl⟩

/-- Two dynamic components start with the offset 64, so with a zero byte. -/
theorem encodeSequence_pair
    {first second : Component}
    (firstDynamic : first.dynamic = true)
    (secondDynamic : second.dynamic = true) :
    ∃ later, encodeSequence [first, second] = 0x00 :: later := by
  obtain ⟨later, isSequence⟩ :=
    encodeSequence_dynamic firstDynamic [second]
  have offset : ([first, second].map headSize).sum = 64 := by
    simp [headSize, firstDynamic, secondDynamic]
  rw [offset] at isSequence
  exact ⟨(word 64).tail ++ later, isSequence⟩

section Layout

variable {leading trailing components : List Component}
variable {component : Component}

theorem heads_append (offset : Nat) :
    heads offset (leading ++ components) =
      heads offset leading ++
        heads (offset + (tails leading).length) components := by
  induction leading generalizing offset with
  | nil =>
      rfl
  | cons first rest inductionHypothesis =>
      simp only [List.cons_append, heads, tails, List.flatMap_cons]
      split
      · rw [inductionHypothesis, List.append_assoc, List.length_append,
          Nat.add_assoc]
        rfl
      · rw [inductionHypothesis, List.append_assoc, List.nil_append]
        rfl

theorem length_heads (offset : Nat) :
    (heads offset components).length = (components.map headSize).sum := by
  induction components generalizing offset with
  | nil =>
      rfl
  | cons first rest inductionHypothesis =>
      simp only [heads, List.map_cons, List.sum_cons, headSize]
      split
      · rw [List.length_append, inductionHypothesis, word, length_toBE]
      · rw [List.length_append, inductionHypothesis]

/-- The room a component takes up in the sequence it stands in. -/
def room (component : Component) : Nat :=
  if component.dynamic then 32 + component.encoding.length
  else component.encoding.length

theorem length_encodeSequence (components : List Component) :
    (encodeSequence components).length = (components.map room).sum := by
  rw [encodeSequence, List.length_append, length_heads]
  induction components with
  | nil =>
      rfl
  | cons first rest inductionHypothesis =>
      simp only [tails, List.flatMap_cons, List.length_append,
        List.map_cons, List.sum_cons, headSize, room]
      simp only [tails] at inductionHypothesis
      split
      · omega
      · simp only [List.length_nil]
        omega

@[simp] theorem headSize_uint (value : Nat) :
    headSize (uint value) = 32 := by
  simp [headSize, uint, word]

@[simp] theorem room_uint (value : Nat) :
    room (uint value) = 32 := by
  simp [room, uint, word]

theorem length_le_roundUp (length : Nat) :
    length ≤ roundUp length := by
  unfold roundUp
  omega

@[simp] theorem room_bytes (content : List UInt8) :
    room (bytes content) = 64 + roundUp content.length := by
  have enough := length_le_roundUp content.length
  simp only [room, bytes, if_true, List.length_append, word,
    length_toBE, length_padRight]
  omega

@[simp] theorem room_array (elements : List Component) :
    room (array elements) = 64 + (elements.map room).sum := by
  simp only [room, array, if_true, List.length_append, word,
    length_toBE, length_encodeSequence]
  omega

/-- Where the tail of a component starts. -/
def tailOffset (leading components : List Component) : Nat :=
  ((leading ++ components).map headSize).sum + (tails leading).length

/-- A static component stands in its head. -/
theorem drop_static
    (isStatic : component.dynamic = false) :
    ∃ later,
      (encodeSequence (leading ++ component :: trailing)).drop
          (leading.map headSize).sum =
        component.encoding ++ later := by
  rw [encodeSequence, heads_append, List.append_assoc,
    List.drop_left' (length_heads _), heads, isStatic]
  simp only [Bool.false_eq_true, if_false, List.append_assoc]
  exact ⟨_, rfl⟩

/-- A dynamic component leaves the offset of its tail in its head. -/
theorem drop_dynamic
    (isDynamic : component.dynamic = true) :
    ∃ later,
      (encodeSequence (leading ++ component :: trailing)).drop
          (leading.map headSize).sum =
        word (tailOffset leading (component :: trailing)) ++ later := by
  rw [encodeSequence, heads_append, List.append_assoc,
    List.drop_left' (length_heads _), heads, isDynamic]
  simp only [if_true, List.append_assoc]
  exact ⟨_, rfl⟩

/-- The tail of a dynamic component stands at its offset. -/
theorem drop_tailOffset
    (isDynamic : component.dynamic = true) :
    (encodeSequence (leading ++ component :: trailing)).drop
        (tailOffset leading (component :: trailing)) =
      component.encoding ++ tails trailing := by
  have split :
      tails (leading ++ component :: trailing) =
        tails leading ++ (component.encoding ++ tails trailing) := by
    simp [tails, isDynamic]
  rw [encodeSequence, tailOffset, ← List.drop_drop,
    List.drop_left' (length_heads _), split, List.drop_left' rfl]

theorem tailOffset_le :
    tailOffset leading components ≤
      (encodeSequence (leading ++ components)).length := by
  have parts :
      tails (leading ++ components) =
        tails leading ++ tails components := by
    simp [tails]
  rw [encodeSequence, List.length_append, length_heads, parts,
    List.length_append, tailOffset]
  omega

end Layout

section Readers

variable {α : Type*}

/-- The number in the first word. -/
def readUint (data : List UInt8) : Option Nat :=
  if data.length < 32 then none else some (ofBE (data.take 32))

/-- A `bytes` value: its length, then its bytes. -/
def readBytes (data : List UInt8) : Option (List UInt8) :=
  match readUint data with
  | none => none
  | some length =>
      if (data.drop 32).length < length then none
      else some ((data.drop 32).take length)

/-- A dynamic component of a frame, through the offset at its head. -/
def readDynamic
    (read : List UInt8 → Option α)
    (frame : List UInt8)
    (position : Nat) : Option α :=
  match readUint (frame.drop position) with
  | none => none
  | some offset => read (frame.drop offset)

/-- The dynamic components of a frame, from a head on. -/
def readElements
    (read : List UInt8 → Option α)
    (frame : List UInt8) : Nat → Nat → Option (List α)
  | 0, _ => some []
  | left + 1, position =>
      match readDynamic read frame position with
      | none => none
      | some value =>
          match readElements read frame left (position + 32) with
          | none => none
          | some values => some (value :: values)

/-- An array of dynamic elements. -/
def readArray
    (read : List UInt8 → Option α)
    (data : List UInt8) : Option (List α) :=
  match readUint data with
  | none => none
  | some length => readElements read (data.drop 32) length 0

/-- The reader gets the value back, whatever follows its encoding. -/
def Reads
    (read : List UInt8 → Option α)
    (component : Component)
    (value : α) : Prop :=
  ∀ later, read (component.encoding ++ later) = some value

theorem readUint_word
    {value : Nat}
    (fits : value < 2 ^ 256)
    (later : List UInt8) :
    readUint (word value ++ later) = some value := by
  have width : (word value).length = 32 :=
    length_toBE 32 value
  have small : value < 256 ^ 32 :=
    fits
  rw [readUint, if_neg (by rw [List.length_append, width]; omega),
    List.take_left' width, word, ofBE_toBE_of_lt small]

theorem reads_bytes
    {content : List UInt8}
    (fits : content.length < 2 ^ 256) :
    Reads readBytes (bytes content) content := by
  intro later
  have width : (word content.length).length = 32 :=
    length_toBE 32 _
  have isPadded :
      padRight 0x00 (roundUp content.length) content ++ later =
        content ++
          (List.replicate (roundUp content.length - content.length)
            0x00 ++ later) := by
    rw [padRight, List.append_assoc]
  simp only [bytes, List.append_assoc, readBytes, readUint_word fits,
    List.drop_left' width, isPadded]
  rw [if_neg (by rw [List.length_append]; omega), List.take_left' rfl]

/-- A dynamic component of an encoded sequence is read back. -/
theorem readDynamic_encodeSequence
    {read : List UInt8 → Option α}
    {leading trailing : List Component}
    {component : Component}
    {value : α}
    (isDynamic : component.dynamic = true)
    (reads : Reads read component value)
    (later : List UInt8)
    (fits :
      (encodeSequence (leading ++ component :: trailing)).length <
        2 ^ 256) :
    readDynamic read
        (encodeSequence (leading ++ component :: trailing) ++ later)
        (leading.map headSize).sum =
      some value := by
  have bound :=
    @tailOffset_le leading (component :: trailing)
  obtain ⟨rest, atHead⟩ := @drop_dynamic leading trailing _ isDynamic
  have atTail := @drop_tailOffset leading trailing _ isDynamic
  have inHeads :
      (leading.map headSize).sum ≤
        tailOffset leading (component :: trailing) := by
    rw [tailOffset, List.map_append, List.sum_append]
    omega
  have isOffset :
      readUint
          ((encodeSequence (leading ++ component :: trailing) ++
            later).drop (leading.map headSize).sum) =
        some (tailOffset leading (component :: trailing)) := by
    rw [List.drop_append_of_le_length (by omega), atHead,
      List.append_assoc]
    exact readUint_word (by omega) _
  simp only [readDynamic, isOffset]
  rw [List.drop_append_of_le_length bound, atTail, List.append_assoc]
  exact reads _

/-- The elements of an array are read back. -/
theorem readElements_encodeSequence
    {read : List UInt8 → Option α}
    {elements : List (Component × α)}
    (dynamic : ∀ element ∈ elements, element.1.dynamic = true)
    (reads : ∀ element ∈ elements, Reads read element.1 element.2)
    {leading : List Component}
    (heads : (leading.map headSize).sum = leading.length * 32)
    (later : List UInt8)
    (fits :
      (encodeSequence (leading ++ elements.map Prod.fst)).length <
        2 ^ 256) :
    readElements read
        (encodeSequence (leading ++ elements.map Prod.fst) ++ later)
        elements.length (leading.length * 32) =
      some (elements.map Prod.snd) := by
  induction elements generalizing leading with
  | nil =>
      rfl
  | cons element rest inductionHypothesis =>
      have isDynamic := dynamic element List.mem_cons_self
      have first :=
        readDynamic_encodeSequence isDynamic
          (reads element List.mem_cons_self) later fits
      have assoc :
          leading ++ (element :: rest).map Prod.fst =
            (leading ++ [element.1]) ++ rest.map Prod.fst := by
        simp
      have headsNext :
          ((leading ++ [element.1]).map headSize).sum =
            (leading ++ [element.1]).length * 32 := by
        rw [List.map_append, List.sum_append, heads, List.length_append]
        simp only [List.map_cons, List.map_nil, List.sum_cons,
          List.sum_nil, headSize, isDynamic, if_true, List.length_cons,
          List.length_nil]
        omega
      rw [assoc] at fits
      have next :=
        inductionHypothesis
          (fun other member =>
            dynamic other (List.mem_cons_of_mem _ member))
          (fun other member =>
            reads other (List.mem_cons_of_mem _ member))
          headsNext fits
      have position :
          (leading ++ [element.1]).length * 32 =
            leading.length * 32 + 32 := by
        rw [List.length_append, List.length_singleton, Nat.succ_mul]
      rw [← assoc, position] at next
      rw [heads] at first
      simp only [List.map_cons, List.length_cons, readElements, first]
      rw [List.map_cons] at next
      simp only [next]

/-- Every dynamic element takes up room. -/
theorem length_le_encodeSequence
    {elements : List (Component × α)}
    (dynamic : ∀ element ∈ elements, element.1.dynamic = true) :
    elements.length ≤
      (encodeSequence (elements.map Prod.fst)).length := by
  rw [length_encodeSequence]
  induction elements with
  | nil =>
      exact Nat.zero_le _
  | cons element rest inductionHypothesis =>
      have isDynamic := dynamic element List.mem_cons_self
      have counted :=
        inductionHypothesis fun other member =>
          dynamic other (List.mem_cons_of_mem _ member)
      simp only [List.map_cons, List.sum_cons, List.length_cons, room,
        isDynamic, if_true]
      omega

theorem reads_array
    {read : List UInt8 → Option α}
    {elements : List (Component × α)}
    (dynamic : ∀ element ∈ elements, element.1.dynamic = true)
    (reads : ∀ element ∈ elements, Reads read element.1 element.2)
    (fits : (array (elements.map Prod.fst)).encoding.length < 2 ^ 256) :
    Reads (readArray read) (array (elements.map Prod.fst))
      (elements.map Prod.snd) := by
  intro later
  have width : (word elements.length).length = 32 :=
    length_toBE 32 _
  have counted := length_le_encodeSequence dynamic
  simp only [array, List.length_append, List.length_map, width] at fits
  have small : elements.length < 2 ^ 256 := by
    omega
  have content :=
    @readElements_encodeSequence _ read elements dynamic reads [] rfl later
      (by rw [List.nil_append]; omega)
  rw [List.nil_append, List.length_nil, Nat.zero_mul] at content
  simp only [array, List.append_assoc, readArray, List.length_map,
    readUint_word small, List.drop_left' width, content]

end Readers

end Abi
