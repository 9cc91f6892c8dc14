import Bam.Lib.Utf16
import Bam.Sdk.Kzg
import Mathlib.Data.Rat.Defs

namespace Bam

/-!
# The blob sources

Where a Reader gets a blob from: a local archive, a beacon node and Blobscan.
None of them is trusted.  What the servers answer, the URL parser and the
commitment library are parameters; a call that throws before there is an answer
of the expected shape is `failed`.
-/

/-- A JavaScript string: its UTF-16 code units. -/
abbrev JsString := List UInt16

/-- A string literal. -/
def js (text : String) : JsString :=
  Utf16.encode text.toList

/-- What the sources throw. -/
inductive BlobFetchError where
  | versionedHashMismatch
  | other
  deriving Repr, DecidableEq

/-- The fields of a parsed URL the sources read. -/
structure Url where
  protocol : JsString
  hostname : JsString
  deriving Repr, DecidableEq

structure BlobLibraries where
  kzg : KzgModule
  /-- The versioned hash of a commitment in hex; `none` where it throws. -/
  commitmentsToVersionedHashes : JsString → Option Bytes32
  /-- `new URL`; `none` where it throws. -/
  parseUrl : JsString → Option Url
  isIP : JsString → Nat

/-- `FULL_BLOB_BYTE_LENGTH`. -/
def FULL_BLOB_BYTE_LENGTH : Nat :=
  FIELD_ELEMENTS_PER_BLOB * BYTES_PER_FIELD_ELEMENT

/-- `recomputeVersionedHash`; `none` where it throws. -/
def recomputeVersionedHash
    (libraries : BlobLibraries)
    (blobBytes : Bytes) : Option Bytes32 :=
  if blobBytes.length ≠ FULL_BLOB_BYTE_LENGTH then none
  else
    match libraries.kzg.loadTrustedSetup.commitToBlob blobBytes with
    | .error _ => none
    | .ok committed => some committed.versionedHash

/-- `assertVersionedHashMatches`. -/
def assertVersionedHashMatches
    (libraries : BlobLibraries)
    (blobBytes : Bytes)
    (expectedHash : Bytes32) : Except BlobFetchError Unit :=
  match recomputeVersionedHash libraries blobBytes with
  | none => .error .other
  | some got =>
      if got ≠ expectedHash then .error .versionedHashMismatch
      else .ok ()

/-- The bytes, once their hash is checked. -/
def checkedBytes
    (libraries : BlobLibraries)
    (blobBytes : Bytes)
    (expectedHash : Bytes32) : Except BlobFetchError (Option Bytes) :=
  match assertVersionedHashMatches libraries blobBytes expectedHash with
  | .error error => .error error
  | .ok () => .ok (some blobBytes)

/-- An answer over HTTP. -/
inductive HttpAnswer (Body : Type) where
  | failed
  | notOk
  | ok (body : Body)
  deriving Repr, DecidableEq

/-- The value of a hex digit. -/
def hexValue (unit : UInt16) : Option Nat :=
  let code := unit.toNat
  if 48 ≤ code ∧ code ≤ 57 then some (code - 48)
  else if 65 ≤ code ∧ code ≤ 70 then some (code - 55)
  else if 97 ≤ code ∧ code ≤ 102 then some (code - 87)
  else none

/-- `hex.startsWith('0x') ? hex.slice(2) : hex`. -/
def cleanHex (hex : JsString) : JsString :=
  if (js "0x").isPrefixOf hex then hex.drop 2 else hex

/-- The pairs of a string of even length, each read as a byte. -/
def readPairs (byte : UInt16 → UInt16 → UInt8) : JsString → Bytes
  | first :: second :: rest => byte first second :: readPairs byte rest
  | _ => []

/-- `hexToBytes` of the beacon source; `none` where it throws. -/
def beaconHexToBytes (hex : JsString) : Option Bytes :=
  let cleaned := cleanHex hex
  if cleaned.length % 2 ≠ 0 then none
  else if cleaned.any fun unit => (hexValue unit).isNone then none
  else
    some (readPairs
      (fun first second =>
        UInt8.ofNat
          (16 * (hexValue first).getD 0 + (hexValue second).getD 0))
      cleaned)

/-- `parseInt(pair, 16)` stored in a byte; what is no number becomes zero. -/
def parsePair (first second : UInt16) : UInt8 :=
  match hexValue first, hexValue second with
  | some high, some low => UInt8.ofNat (16 * high + low)
  | some high, none => UInt8.ofNat high
  | none, some low =>
      if Utf16.isSpace first || first.toNat = 43 then UInt8.ofNat low
      else if first.toNat = 45 then UInt8.ofNat (256 - low)
      else 0
  | none, none => 0

/-- `hexToBytes` of the Blobscan source; `none` where it throws. -/
def blobscanHexToBytes (hex : JsString) : Option Bytes :=
  let cleaned := cleanHex hex
  if cleaned.length % 2 ≠ 0 then none
  else some (readPairs parsePair cleaned)

section Beacon

/-- A header entry, with the text of its slots. -/
structure BeaconHeaderEntry where
  headerMessageSlot : Option JsString
  messageSlot : Option JsString
  slot : Option JsString
  deriving Repr, DecidableEq

structure BeaconSidecar where
  kzg_commitment : Option JsString
  blob : Option JsString
  deriving Repr, DecidableEq

/-- What a beacon node answers to the two requests of a fetch; the bodies are
the `data` of the answers. -/
structure BeaconAnswers where
  headers : HttpAnswer (Option (List BeaconHeaderEntry))
  blob_sidecars : JsString → HttpAnswer (Option (List BeaconSidecar))

/-- `findSlotForParentRoot`, up to the caller's `if (!slot) return null`. -/
def findSlotForParentRoot
    (answers : BeaconAnswers) : Except BlobFetchError (Option JsString) :=
  match answers.headers with
  | .failed => .error .other
  | .notOk => .ok none
  | .ok none => .ok none
  | .ok (some []) => .ok none
  | .ok (some (first :: _)) =>
      .ok (((first.headerMessageSlot.or first.messageSlot).or
        first.slot).filter fun slot => slot ≠ [])

/-- The blob of a sidecar under the requested hash; a sidecar that is malformed
is passed over. -/
def sidecarBlob?
    (libraries : BlobLibraries)
    (versionedHash : Bytes32)
    (sidecar : BeaconSidecar) : Option Bytes :=
  match sidecar.kzg_commitment, sidecar.blob with
  | some commitment, some blob =>
      if ¬(js "0x").isPrefixOf commitment ∨ blob = [] then none
      else if libraries.commitmentsToVersionedHashes commitment ≠
          some versionedHash then none
      else beaconHexToBytes blob
  | _, _ => none

/-- The sidecar loop: the first sidecar under the hash decides. -/
def searchSidecars
    (libraries : BlobLibraries)
    (versionedHash : Bytes32) :
    List BeaconSidecar → Except BlobFetchError (Option Bytes)
  | [] => .ok none
  | sidecar :: rest =>
      match sidecarBlob? libraries versionedHash sidecar with
      | none => searchSidecars libraries versionedHash rest
      | some bytes => checkedBytes libraries bytes versionedHash

/-- `fetchFromBeaconApi`. -/
def fetchFromBeaconApi
    (libraries : BlobLibraries)
    (answers : BeaconAnswers)
    (versionedHash : Bytes32) : Except BlobFetchError (Option Bytes) :=
  match findSlotForParentRoot answers with
  | .error error => .error error
  | .ok none => .ok none
  | .ok (some slot) =>
      match answers.blob_sidecars slot with
      | .failed => .error .other
      | .notOk => .ok none
      | .ok sidecars =>
          searchSidecars libraries versionedHash (sidecars.getD [])

end Beacon

section Blobscan

/-- A parsed JSON value; a number is the text `String` gives of it. -/
inductive Json where
  | null
  | bool (value : Bool)
  | number (text : JsString)
  | string (text : JsString)
  | array (items : List Json)
  | object (fields : List (JsString × Json))

/-- A property of a value that is no `null`; `none` is `undefined`. -/
def Json.property (name : String) : Json → Option Json
  | .object fields => fields.lookup (js name)
  | _ => none

/-- `typeof value === 'object' && value !== null`. -/
def Json.isObject : Json → Bool
  | .array _ => true
  | .object _ => true
  | _ => false

/-- `/^0x[0-9a-fA-F]+$/`. -/
def isHexText (text : JsString) : Bool :=
  (js "0x").isPrefixOf text && 2 < text.length &&
    (text.drop 2).all fun unit => (hexValue unit).isSome

/-- The hex text a candidate carries. -/
def candidateHex : Json → Option JsString
  | .string text => if isHexText text then some text else none
  | raw =>
      match raw.property "hex", raw.property "data" with
      | some (.string hex), _ => some hex
      | _, some (.string data) => some data
      | _, _ => none

/-- `extractBlobHex`. -/
def extractBlobHex (data : Json) : Option JsString :=
  match data with
  | .string text => if isHexText text then some text else none
  | _ =>
      let blob := data.property "blob"
      let candidates :=
        [data.property "data", blob, data.property "blobData",
          blob.bind fun inner => inner.property "data",
          blob.bind fun inner => inner.property "blobData"]
      candidates.findSome? fun candidate => candidate.bind candidateHex

/-- `extractStorageUrls`. -/
def extractStorageUrls (data : Json) : List JsString :=
  match data.property "dataStorageReferences" with
  | some (.array refs) =>
      refs.filterMap fun ref =>
        match ref.property "url" with
        | some (.string url) =>
            if (js "https://").isPrefixOf url ||
                (js "http://").isPrefixOf url then
              some url
            else none
        | _ => none
  | _ => none.toList

/-- `toLowerCase` of a host, which is ASCII. -/
def lowerCase (text : JsString) : JsString :=
  text.map fun unit =>
    if 65 ≤ unit.toNat ∧ unit.toNat ≤ 90 then unit + 32 else unit

/-- `parsed.hostname.toLowerCase().replace(/\.$/, '')`. -/
def hostOf (url : Url) : JsString :=
  let host := lowerCase url.hostname
  if host.getLast? = (js ".").head? then host.dropLast else host

/-- The host without the brackets of an IPv6 literal. -/
def ipCandidate (host : JsString) : JsString :=
  if (js "[").isPrefixOf host && (js "]").isSuffixOf host then
    (host.drop 1).dropLast
  else host

/-- A host outside the networks `assertPublicHttpUrl` refuses. -/
def publicHost
    (libraries : BlobLibraries)
    (host : JsString) : Bool :=
  libraries.isIP (ipCandidate host) = 0 &&
    host ≠ js "localhost" &&
    host ≠ js "localhost.localdomain" &&
    !(js ".local").isSuffixOf host &&
    !(js ".internal").isSuffixOf host &&
    !(js ".lan").isSuffixOf host

/-- `assertPublicHttpUrl`. -/
def assertPublicHttpUrl
    (libraries : BlobLibraries)
    (url : JsString) : Except BlobFetchError Unit :=
  match libraries.parseUrl url with
  | none => .error .other
  | some parsed =>
      if parsed.protocol ≠ js "http:" ∧ parsed.protocol ≠ js "https:" then
        .error .other
      else if !publicHost libraries (hostOf parsed) then .error .other
      else .ok ()

/-- The answer of a storage URL: what `Number` makes of its length header, and
its body. -/
structure StorageBody where
  contentLength : Option (Option Rat)
  arrayBuffer : Option Bytes
  deriving DecidableEq

/-- What Blobscan and the storage behind it answer; a storage URL is fetched
with redirects disabled. -/
structure BlobscanAnswers where
  blobs : HttpAnswer Json
  storage : JsString → HttpAnswer StorageBody

/-- `MAX_BLOB_BYTES`. -/
def MAX_BLOB_BYTES : Nat := 131072

/-- A storage response, bounded and checked. -/
def readStorage
    (libraries : BlobLibraries)
    (versionedHash : Bytes32)
    (response : StorageBody) : Except BlobFetchError (Option Bytes) :=
  match response.contentLength with
  | some (some length) =>
      if length < 0 ∨ (MAX_BLOB_BYTES : Rat) < length then .error .other
      else
        match response.arrayBuffer with
        | none => .error .other
        | some bytes => checkedBytes libraries bytes versionedHash
  | _ => .error .other

/-- The storage loop: the URLs it requests, and how it ends. -/
def followStorageUrls
    (libraries : BlobLibraries)
    (answers : BlobscanAnswers)
    (versionedHash : Bytes32) :
    List JsString → List JsString × Except BlobFetchError (Option Bytes)
  | [] => ([], .ok none)
  | url :: rest =>
      match assertPublicHttpUrl libraries url with
      | .error error => ([], .error error)
      | .ok () =>
          match answers.storage url with
          | .failed => ([url], .error .other)
          | .notOk =>
              let (requested, answer) :=
                followStorageUrls libraries answers versionedHash rest
              (url :: requested, answer)
          | .ok response =>
              ([url], readStorage libraries versionedHash response)

/-- `fetchFromBlobscan`: the storage URLs it requests, and how it ends. -/
def fetchFromBlobscan
    (libraries : BlobLibraries)
    (answers : BlobscanAnswers)
    (versionedHash : Bytes32) :
    List JsString × Except BlobFetchError (Option Bytes) :=
  match answers.blobs with
  | .failed => ([], .error .other)
  | .notOk => ([], .ok none)
  | .ok data =>
      match (extractBlobHex data).filter fun hex => hex ≠ [] with
      | some hex =>
          match blobscanHexToBytes hex with
          | none => ([], .error .other)
          | some bytes => ([], checkedBytes libraries bytes versionedHash)
      | none =>
          followStorageUrls libraries answers versionedHash
            (extractStorageUrls data)

end Blobscan

end Bam
