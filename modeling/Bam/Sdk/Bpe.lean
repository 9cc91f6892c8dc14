import Mathlib.Data.List.Sort
import Bam.Lib.Codes12
import Bam.Lib.JsMap
import Bam.Sdk.Types

namespace Bam

/-!
# The BPE codec

A dictionary numbers tokens of one to four bytes with codes of twelve bits.  A
`Map` key of the source is a string with one character for each byte; here it is
the bytes.  A typed array ignores a write past its end, as `List.set` does, and
a read past its end counts as zero.
-/

def CODES_PER_TIER : Nat := 1024

def TOTAL_CODES : Nat := 4096

def DICT_BYTES_SIZE : Nat := 10240

/-- What the codec throws. -/
inductive BpeError where
  | dictSize (got : Nat)
  | serializedSize (got : Nat)
  | dataLength (got : Nat)
  deriving Repr, DecidableEq

/-- `BPEDictionary`. -/
structure BPEDictionary where
  tokenToCode : JsMap Bytes Nat
  dictBytes : Bytes
  dictOffsets : List Nat
  dictLengths : List Nat

/-- `toKey`. -/
def toKey
    (data : Bytes)
    (start length : Nat) : Bytes :=
  (data.drop start).take length

/-- The windows of one width, from left to right. -/
def windows
    (width : Nat)
    (data : Bytes) : List Bytes :=
  (List.range (data.length + 1 - width)).map fun start =>
    toKey data start width

/-- `countWindows`, for one width. -/
def countWindows
    (width : Nat)
    (data : Bytes) : JsMap Bytes Nat :=
  (windows width data).foldl
    (fun map key => map.set key ((map.get? key).getD 0 + 1)) JsMap.empty

/-- `[...counts.entries()].sort((a, b) => b[1] - a[1]).slice(0, count)`. -/
def mostFrequent
    (counts : JsMap Bytes Nat)
    (count : Nat) : List Bytes :=
  ((counts.entries.insertionSort fun first second =>
    second.2 ≤ first.2).take count).map Prod.fst

/-- `for (const tok of toks) tokenToCode.set(tok, code++)`. -/
def setCodes :
    List Bytes → Nat → JsMap Bytes Nat → JsMap Bytes Nat
  | [], _, tokenToCode => tokenToCode
  | tok :: rest, code, tokenToCode =>
      setCodes rest (code + 1) (tokenToCode.set tok code)

/-- The null padding token. -/
def paddingToken : Bytes := [0, 0, 0, 0]

/-- The one-byte tokens. -/
def byteTokens : List Bytes :=
  (List.range 256).map fun value => [UInt8.ofNat value]

/-- `topTokens`, of the counts of the windows of two, three and four bytes. -/
def topTokens
    (counts2 counts3 counts4 : JsMap Bytes Nat)
    (topN : Nat) : JsMap Bytes Nat :=
  let padding := JsMap.empty.set paddingToken 0
  let tier4 := setCodes (mostFrequent counts4 (topN - 1)) 1 padding
  let tier3 := setCodes (mostFrequent counts3 topN) topN tier4
  let tier2 := setCodes (mostFrequent counts2 topN) (topN * 2) tier3
  setCodes byteTokens (topN * 3) tier2

/-- The arrays `makeDictBlobs` fills. -/
structure DictBlobs where
  dictBytes : Bytes
  dictOffsets : List Nat
  dictLengths : List Nat
  deriving Repr, DecidableEq

/-- Write bytes from a position on. -/
def writeAt : Nat → Bytes → Bytes → Bytes
  | _, [], buffer => buffer
  | position, byte :: rest, buffer =>
      writeAt (position + 1) rest (buffer.set position byte)

/-- The inner loop of `makeDictBlobs`: one tier, from a position on. -/
def writeTokens (length : Nat) :
    List (Bytes × Nat) → Nat → DictBlobs → DictBlobs
  | [], _, blobs => blobs
  | (tok, code) :: rest, pos, blobs =>
      writeTokens length rest (pos + length) {
        dictBytes := writeAt pos tok blobs.dictBytes
        dictOffsets := blobs.dictOffsets.set code pos
        dictLengths := blobs.dictLengths.set code length }

/-- `groups[length - 1]`, sorted by code. -/
def tokenGroup
    (tokenToCode : JsMap Bytes Nat)
    (length : Nat) : List (Bytes × Nat) :=
  (tokenToCode.entries.filter fun entry =>
    entry.1.length = length).insertionSort fun first second =>
      first.2 ≤ second.2

/-- `tierStart`. -/
def tierStart : Nat → Nat
  | 4 => 0
  | 3 => 4096
  | 2 => 7168
  | _ => 9216

/-- One round of the outer loop of `makeDictBlobs`. -/
def writeTier
    (tokenToCode : JsMap Bytes Nat)
    (blobs : DictBlobs)
    (length : Nat) : DictBlobs :=
  writeTokens length (tokenGroup tokenToCode length) (tierStart length)
    blobs

/-- `makeDictBlobs`. -/
def makeDictBlobs (tokenToCode : JsMap Bytes Nat) : DictBlobs :=
  [4, 3, 2, 1].foldl (writeTier tokenToCode) {
    dictBytes := List.replicate DICT_BYTES_SIZE 0
    dictOffsets := List.replicate TOTAL_CODES 0
    dictLengths := List.replicate TOTAL_CODES 0 }

/-- `buildDictionary`. -/
def buildDictionary (corpus : Bytes) : BPEDictionary :=
  let tokenToCode :=
    topTokens (countWindows 2 corpus) (countWindows 3 corpus)
      (countWindows 4 corpus) CODES_PER_TIER
  let blobs := makeDictBlobs tokenToCode
  { tokenToCode
    dictBytes := blobs.dictBytes
    dictOffsets := blobs.dictOffsets
    dictLengths := blobs.dictLengths }

/-- The offset and the length of a code in the canonical tier layout. -/
def canonicalSlot (code : Nat) : Nat × Nat :=
  if code < 1024 then (code * 4, 4)
  else if code < 2048 then (4096 + (code - 1024) * 3, 3)
  else if code < 3072 then (7168 + (code - 2048) * 2, 2)
  else (9216 + (code - 3072), 1)

/-- One round of the loop of `bpeDictionaryFromBytes`. -/
def addToken
    (dictBytes : Bytes)
    (tokenToCode : JsMap Bytes Nat)
    (code : Nat) : JsMap Bytes Nat :=
  let key :=
    toKey dictBytes (canonicalSlot code).1 (canonicalSlot code).2
  if (tokenToCode.get? key).isNone then tokenToCode.set key code
  else tokenToCode

/-- `bpeDictionaryFromBytes`. -/
def bpeDictionaryFromBytes
    (dictBytes : Bytes) : Except BpeError BPEDictionary :=
  if dictBytes.length ≠ DICT_BYTES_SIZE then
    .error (.dictSize dictBytes.length)
  else
    .ok {
      tokenToCode :=
        (List.range TOTAL_CODES).foldl (addToken dictBytes) JsMap.empty
      dictBytes
      dictOffsets :=
        (List.range TOTAL_CODES).map fun code => (canonicalSlot code).1
      dictLengths :=
        (List.range TOTAL_CODES).map fun code => (canonicalSlot code).2 }

def BPE_SERIALIZED_SIZE : Nat :=
  DICT_BYTES_SIZE + TOTAL_CODES * 2 + TOTAL_CODES

/-- `serializeDictionary`, of a dictionary whose arrays have their declared
sizes. -/
def serializeDictionary (dict : BPEDictionary) : Bytes :=
  dict.dictBytes ++ dict.dictOffsets.flatMap (Bytewise.toBE 2) ++
    dict.dictLengths.map UInt8.ofNat

/-- One round of the last loop of `deserializeDictionary`. -/
def restoreToken
    (dictBytes : Bytes)
    (dictOffsets dictLengths : List Nat)
    (tokenToCode : JsMap Bytes Nat)
    (code : Nat) : JsMap Bytes Nat :=
  let len := dictLengths.getD code 0
  if len = 0 then tokenToCode
  else
    tokenToCode.set (toKey dictBytes (dictOffsets.getD code 0) len) code

/-- `deserializeDictionary`. -/
def deserializeDictionary
    (data : Bytes) : Except BpeError BPEDictionary :=
  if data.length < BPE_SERIALIZED_SIZE then
    .error (.serializedSize data.length)
  else
    let dictBytes := data.take DICT_BYTES_SIZE
    let dictLengths :=
      (toKey data (DICT_BYTES_SIZE + TOTAL_CODES * 2) TOTAL_CODES).map
        UInt8.toNat
    let dictOffsets :=
      (List.range TOTAL_CODES).map fun i =>
        Bytewise.ofBE (toKey data (DICT_BYTES_SIZE + i * 2) 2)
    .ok {
      tokenToCode :=
        (List.range TOTAL_CODES).foldl
          (restoreToken dictBytes dictOffsets dictLengths) JsMap.empty
      dictBytes
      dictOffsets
      dictLengths }

/-- `tokenToCode.get` of the first bytes, where there are as many. -/
def codeOfFront
    (tokenToCode : JsMap Bytes Nat)
    (data : Bytes)
    (width : Nat) : Option Nat :=
  if width ≤ data.length then tokenToCode.get? (data.take width) else none

/-- What one round of `bpeEncode` pushes and how far it moves.  A missing
one-byte token is `undefined`, which packs as zero. -/
def nextCode
    (tokenToCode : JsMap Bytes Nat)
    (data : Bytes) : Nat × Nat :=
  match (codeOfFront tokenToCode data 4).filter (0 < ·) with
  | some code => (code, 4)
  | none =>
      match codeOfFront tokenToCode data 3 with
      | some code => (code, 3)
      | none =>
          match codeOfFront tokenToCode data 2 with
          | some code => (code, 2)
          | none => ((codeOfFront tokenToCode data 1).getD 0, 1)

/-- The loop of `bpeEncode`: the codes it pushes, each with the bytes it
stands for. -/
def bpeMatches (tokenToCode : JsMap Bytes Nat) :
    Bytes → List (Nat × Bytes)
  | [] => []
  | byte :: rest =>
      let next := nextCode tokenToCode (byte :: rest)
      (next.1, (byte :: rest).take next.2) ::
        bpeMatches tokenToCode (rest.drop (next.2 - 1))
termination_by data => data.length
decreasing_by
  simp only [List.length_drop, List.length_cons]
  omega

/-- Pad to an even number of codes. -/
def padEven (codes : List Nat) : List Nat :=
  if codes.length % 2 ≠ 0 then codes ++ [0] else codes

/-- `bpeEncode`. -/
def bpeEncode
    (data : Bytes)
    (dict : BPEDictionary) : Bytes :=
  Codes12.pack
    (padEven ((bpeMatches dict.tokenToCode data).map Prod.fst))

/-- The bytes `bpeDecode` writes for a code. -/
def expandCode
    (dict : BPEDictionary)
    (code : Nat) : Bytes :=
  if code ≠ 0 then
    (List.range (dict.dictLengths.getD code 0)).map fun index =>
      dict.dictBytes.getD (dict.dictOffsets.getD code 0 + index) 0
  else []

/-- `bpeDecode`. -/
def bpeDecode
    (data : Bytes)
    (dict : BPEDictionary) : Except BpeError Bytes :=
  if data.length % 3 ≠ 0 then .error (.dataLength data.length)
  else .ok ((Codes12.unpack data).flatMap (expandCode dict))

end Bam
