import Bam.Lib.Runs
import Bam.Reader.BlobSources
import Mathlib.Logic.Function.Basic

namespace Bam

/-!
# The blob archive and the order of the sources

`fetchBlob` asks the archive, then the beacon node, then Blobscan, and writes
what the network gave back into the archive.  The sources may answer anything,
a file may be changed behind the archive's back, and the disk may fail: every
blob handed out still has the hash asked for, and a blob that was archived is
served from the archive until its file is damaged.
-/

inductive BlobSourceName where
  | archive
  | beacon
  | blobscan
  deriving Repr, DecidableEq

/-- What `fetchBlob` logs; the texts of errors are left out. -/
inductive BlobSourceEvent where
  | source_lied (source : BlobSourceName) (versionedHash : Bytes32)
  | all_sources_lied (versionedHash : Bytes32)
  | archive_hit (versionedHash : Bytes32)
  | archive_read_failed (versionedHash : Bytes32)
  | archive_write_failed (versionedHash : Bytes32)
  deriving Repr, DecidableEq

section Archive

/-- The files of an archive, by the hash in their name. -/
abbrev ArchiveFiles := Bytes32 → Option Bytes

/-- How reading a file can go wrong. -/
inductive ReadFault where
  | failed
  | shortRead
  deriving Repr, DecidableEq

/-- `get` of `createFilesystemBlobArchive`. -/
def filesystemGet
    (files : ArchiveFiles)
    (fault : Option ReadFault)
    (versionedHash : Bytes32) : Except BlobFetchError (Option Bytes) :=
  if fault = some .failed then .error .other
  else
    match files versionedHash with
    | none => .ok none
    | some bytes =>
        if bytes.length ≠ FULL_BLOB_BYTE_LENGTH then
          .error .versionedHashMismatch
        else if fault = some .shortRead then .error .versionedHashMismatch
        else .ok (some bytes)

/-- `put` of `createFilesystemBlobArchive`: the file is renamed into place, so
that a write that fails leaves the file as it was. -/
def filesystemPut
    (files : ArchiveFiles)
    (fault : Bool)
    (versionedHash : Bytes32)
    (bytes : Bytes) : ArchiveFiles × Except BlobFetchError Unit :=
  if fault then (files, .error .other)
  else (Function.update files versionedHash (some bytes), .ok ())

/-- `get` of `verifyingArchive` over the file system. -/
def archiveGet
    (libraries : BlobLibraries)
    (files : ArchiveFiles)
    (fault : Option ReadFault)
    (versionedHash : Bytes32) : Except BlobFetchError (Option Bytes) :=
  match filesystemGet files fault versionedHash with
  | .error error => .error error
  | .ok none => .ok none
  | .ok (some bytes) => checkedBytes libraries bytes versionedHash

/-- `put` of `verifyingArchive` over the file system. -/
def archivePut
    (files : ArchiveFiles)
    (fault : Bool)
    (versionedHash : Bytes32)
    (bytes : Bytes) : ArchiveFiles × Except BlobFetchError Unit :=
  if bytes.length ≠ FULL_BLOB_BYTE_LENGTH then
    (files, .error .versionedHashMismatch)
  else filesystemPut files fault versionedHash bytes

end Archive

section Fetch

/-- The variables of `fetchBlob` that `trySource` writes, the log, and the
sources asked so far. -/
structure Attempts where
  triedAny : Bool
  allLied : Bool
  log : List BlobSourceEvent
  asked : List BlobSourceName
  deriving Repr, DecidableEq

def Attempts.initial : Attempts where
  triedAny := false
  allLied := true
  log := []
  asked := []

def Attempts.ask
    (attempts : Attempts)
    (name : BlobSourceName) : Attempts :=
  { attempts with
    triedAny := true
    asked := attempts.asked ++ [name] }

/-- `trySource`, with what the fetcher answers. -/
def trySource
    (versionedHash : Bytes32)
    (attempts : Attempts)
    (name : BlobSourceName)
    (fetcher : Except BlobFetchError (Option Bytes)) :
    Attempts × Except BlobFetchError (Option Bytes) :=
  let attempts := attempts.ask name
  match fetcher with
  | .ok (some got) => (attempts, .ok (some got))
  | .ok none => ({ attempts with allLied := false }, .ok none)
  | .error .versionedHashMismatch =>
      ({ attempts with
        log := attempts.log ++ [.source_lied name versionedHash] },
        .ok none)
  | .error .other =>
      if name = .archive then
        ({ attempts with
          allLied := false
          log := attempts.log ++ [.archive_read_failed versionedHash] },
          .ok none)
      else (attempts, .error .other)

/-- The options of `fetchBlob`; a network source that is configured comes with
what it answers. -/
structure MultiSourceOptions where
  versionedHash : Bytes32
  parentBeaconBlockRoot : Option Bytes32
  beacon : Option BeaconAnswers
  blobscan : Option BlobscanAnswers

/-- The beacon step of `fetchBlob`. -/
def tryBeacon
    (libraries : BlobLibraries)
    (opts : MultiSourceOptions)
    (attempts : Attempts) :
    Attempts × Except BlobFetchError (Option Bytes) :=
  match opts.beacon, opts.parentBeaconBlockRoot with
  | some answers, some _ =>
      trySource opts.versionedHash attempts .beacon
        (fetchFromBeaconApi libraries answers opts.versionedHash)
  | _, _ => (attempts, .ok none)

/-- The Blobscan step of `fetchBlob`, with the storage URLs it requests. -/
def tryBlobscan
    (libraries : BlobLibraries)
    (opts : MultiSourceOptions)
    (attempts : Attempts) :
    List JsString × Attempts × Except BlobFetchError (Option Bytes) :=
  match opts.blobscan with
  | none => ([], attempts, .ok none)
  | some answers =>
      let (requested, answer) :=
        fetchFromBlobscan libraries answers opts.versionedHash
      (requested,
        trySource opts.versionedHash attempts .blobscan answer)

/-- What a fetch did, up to the write into the archive; `networkBytes` is what
it writes. -/
structure BlobFetch where
  attempts : Attempts
  requested : List JsString
  networkBytes : Option Bytes
  result : Except BlobFetchError (Option Bytes)
  deriving DecidableEq

/-- The network part of `fetchBlob`. -/
def fetchNetwork
    (libraries : BlobLibraries)
    (opts : MultiSourceOptions)
    (attempts : Attempts) : BlobFetch :=
  let (attempts, beacon) := tryBeacon libraries opts attempts
  match beacon with
  | .error error => ⟨attempts, [], none, .error error⟩
  | .ok (some bytes) => ⟨attempts, [], some bytes, .ok (some bytes)⟩
  | .ok none =>
      let (requested, attempts, blobscan) :=
        tryBlobscan libraries opts attempts
      match blobscan with
      | .error error => ⟨attempts, requested, none, .error error⟩
      | .ok (some bytes) =>
          ⟨attempts, requested, some bytes, .ok (some bytes)⟩
      | .ok none =>
          let log :=
            if attempts.triedAny && attempts.allLied then
              attempts.log ++ [.all_sources_lied opts.versionedHash]
            else attempts.log
          ⟨{ attempts with log := log }, requested, none, .ok none⟩

/-- `fetchBlob` up to the write into the archive; `archive` is what a
configured archive answers. -/
def fetchBlob
    (libraries : BlobLibraries)
    (opts : MultiSourceOptions)
    (archive : Option (Except BlobFetchError (Option Bytes))) : BlobFetch :=
  match archive with
  | none => fetchNetwork libraries opts .initial
  | some answer =>
      let (attempts, got) :=
        trySource opts.versionedHash .initial .archive answer
      match got with
      | .error error => ⟨attempts, [], none, .error error⟩
      | .ok (some bytes) =>
          ⟨{ attempts with
            log := attempts.log ++ [.archive_hit opts.versionedHash] },
            [], none, .ok (some bytes)⟩
      | .ok none => fetchNetwork libraries opts attempts

end Fetch

/-- Bytes whose recomputed hash is the one asked for. -/
def Authentic
    (libraries : BlobLibraries)
    (versionedHash : Bytes32)
    (bytes : Bytes) : Prop :=
  recomputeVersionedHash libraries bytes = some versionedHash

/-- An answer hands out no other bytes than authentic ones. -/
def AuthenticAnswer
    (libraries : BlobLibraries)
    (versionedHash : Bytes32)
    (answer : Except BlobFetchError (Option Bytes)) : Prop :=
  ∀ bytes,
    answer = .ok (some bytes) → Authentic libraries versionedHash bytes

section Answers

variable {libraries : BlobLibraries}
variable {versionedHash : Bytes32}

theorem Authentic.length
    {bytes : Bytes}
    (authentic : Authentic libraries versionedHash bytes) :
    bytes.length = FULL_BLOB_BYTE_LENGTH := by
  by_contra short
  rw [Authentic, recomputeVersionedHash, if_pos short] at authentic
  cases authentic

theorem checkedBytes_ok
    {bytes got : Bytes}
    (checked : checkedBytes libraries bytes versionedHash =
      .ok (some got)) :
    got = bytes ∧ Authentic libraries versionedHash bytes := by
  rw [checkedBytes, assertVersionedHashMatches] at checked
  cases hash : recomputeVersionedHash libraries bytes with
  | none =>
      rw [hash] at checked
      cases checked
  | some recomputed =>
      by_cases same : recomputed = versionedHash
      · simp only [hash, same, ne_eq, not_true_eq_false, if_false] at checked
        cases checked
        exact ⟨rfl, hash.trans (congrArg some same)⟩
      · simp only [hash, ne_eq, same, not_false_eq_true, if_true] at checked
        cases checked

theorem checkedBytes_authentic
    {bytes : Bytes}
    (authentic : Authentic libraries versionedHash bytes) :
    checkedBytes libraries bytes versionedHash = .ok (some bytes) := by
  have hash : recomputeVersionedHash libraries bytes = some versionedHash :=
    authentic
  rw [checkedBytes, assertVersionedHashMatches, hash]
  simp

theorem authenticAnswer_checkedBytes
    (bytes : Bytes) :
    AuthenticAnswer libraries versionedHash
      (checkedBytes libraries bytes versionedHash) := by
  intro got checked
  obtain ⟨rfl, authentic⟩ := checkedBytes_ok checked
  exact authentic

theorem authenticAnswer_error
    (error : BlobFetchError) :
    AuthenticAnswer libraries versionedHash (.error error) := by
  intro bytes impossible
  cases impossible

theorem authenticAnswer_null :
    AuthenticAnswer libraries versionedHash (.ok none) := by
  intro bytes impossible
  cases impossible

theorem authenticAnswer_searchSidecars
    (sidecars : List BeaconSidecar) :
    AuthenticAnswer libraries versionedHash
      (searchSidecars libraries versionedHash sidecars) := by
  induction sidecars with
  | nil =>
      exact authenticAnswer_null
  | cons sidecar rest inductionHypothesis =>
      rw [searchSidecars]
      cases sidecarBlob? libraries versionedHash sidecar with
      | none =>
          exact inductionHypothesis
      | some bytes =>
          exact authenticAnswer_checkedBytes bytes

theorem authenticAnswer_beacon
    (answers : BeaconAnswers) :
    AuthenticAnswer libraries versionedHash
      (fetchFromBeaconApi libraries answers versionedHash) := by
  rw [fetchFromBeaconApi]
  cases findSlotForParentRoot answers with
  | error error =>
      exact authenticAnswer_error error
  | ok slot =>
      cases slot with
      | none =>
          exact authenticAnswer_null
      | some slot =>
          dsimp only
          cases answers.blob_sidecars slot with
          | failed =>
              exact authenticAnswer_error _
          | notOk =>
              exact authenticAnswer_null
          | ok sidecars =>
              exact authenticAnswer_searchSidecars _

theorem authenticAnswer_readStorage
    (response : StorageBody) :
    AuthenticAnswer libraries versionedHash
      (readStorage libraries versionedHash response) := by
  rw [readStorage]
  split
  · split
    · exact authenticAnswer_error _
    · split
      · exact authenticAnswer_error _
      · exact authenticAnswer_checkedBytes _
  · exact authenticAnswer_error _

/-- A URL that is requested only over http or https, and only at a public
host. -/
def PublicUrl
    (libraries : BlobLibraries)
    (url : JsString) : Prop :=
  ∃ parsed,
    libraries.parseUrl url = some parsed ∧
      (parsed.protocol = js "http:" ∨ parsed.protocol = js "https:") ∧
      publicHost libraries (hostOf parsed) = true

theorem publicUrl_of_asserted
    {url : JsString}
    (asserted : assertPublicHttpUrl libraries url = .ok ()) :
    PublicUrl libraries url := by
  rw [assertPublicHttpUrl] at asserted
  cases parsing : libraries.parseUrl url with
  | none =>
      rw [parsing] at asserted
      cases asserted
  | some parsed =>
      simp only [parsing] at asserted
      split at asserted
      · cases asserted
      · rename_i protocol
        split at asserted
        · cases asserted
        · rename_i host
          refine ⟨parsed, parsing, ?_, by simpa using host⟩
          by_contra neither
          exact protocol (not_or.mp neither)

/-- The storage loop requests public URLs, and what it gives is authentic. -/
theorem followStorageUrls_sound
    (answers : BlobscanAnswers)
    (urls : List JsString) :
    (∀ url ∈ (followStorageUrls libraries answers versionedHash urls).1,
      PublicUrl libraries url) ∧
      AuthenticAnswer libraries versionedHash
        (followStorageUrls libraries answers versionedHash urls).2 := by
  induction urls with
  | nil =>
      exact ⟨by simp [followStorageUrls], authenticAnswer_null⟩
  | cons url rest inductionHypothesis =>
      rw [followStorageUrls]
      cases asserted : assertPublicHttpUrl libraries url with
      | error error =>
          exact ⟨by simp, authenticAnswer_error error⟩
      | ok done =>
          have isPublic := publicUrl_of_asserted asserted
          cases answers.storage url with
          | failed =>
              exact ⟨by simpa using isPublic, authenticAnswer_error _⟩
          | notOk =>
              refine ⟨?_, inductionHypothesis.2⟩
              intro requested member
              rcases List.mem_cons.mp member with rfl | member
              · exact isPublic
              · exact inductionHypothesis.1 requested member
          | ok response =>
              exact ⟨by simpa using isPublic,
                authenticAnswer_readStorage response⟩

theorem fetchFromBlobscan_sound
    (answers : BlobscanAnswers) :
    (∀ url ∈ (fetchFromBlobscan libraries answers versionedHash).1,
      PublicUrl libraries url) ∧
      AuthenticAnswer libraries versionedHash
        (fetchFromBlobscan libraries answers versionedHash).2 := by
  rw [fetchFromBlobscan]
  cases answers.blobs with
  | failed =>
      exact ⟨by simp, authenticAnswer_error _⟩
  | notOk =>
      exact ⟨by simp, authenticAnswer_null⟩
  | ok data =>
      dsimp only
      split
      · split
        · exact ⟨by simp, authenticAnswer_error _⟩
        · exact ⟨by simp, authenticAnswer_checkedBytes _⟩
      · exact followStorageUrls_sound answers _

theorem authenticAnswer_archiveGet
    (files : ArchiveFiles)
    (fault : Option ReadFault) :
    AuthenticAnswer libraries versionedHash
      (archiveGet libraries files fault versionedHash) := by
  rw [archiveGet]
  cases filesystemGet files fault versionedHash with
  | error error =>
      exact authenticAnswer_error error
  | ok got =>
      cases got with
      | none =>
          exact authenticAnswer_null
      | some bytes =>
          exact authenticAnswer_checkedBytes bytes

/-- An authentic file is read back, short of a fault. -/
theorem archiveGet_of_authentic
    {files : ArchiveFiles}
    {bytes : Bytes}
    (isFile : files versionedHash = some bytes)
    (authentic : Authentic libraries versionedHash bytes) :
    archiveGet libraries files none versionedHash =
      .ok (some bytes) := by
  have got : filesystemGet files none versionedHash = .ok (some bytes) := by
    simp [filesystemGet, isFile, authentic.length]
  rw [archiveGet, got]
  exact checkedBytes_authentic authentic

/-- The archive refuses no authentic blob. -/
theorem archivePut_of_authentic
    {bytes : Bytes}
    (authentic : Authentic libraries versionedHash bytes)
    (files : ArchiveFiles)
    (fault : Bool) :
    archivePut files fault versionedHash bytes =
      filesystemPut files fault versionedHash bytes := by
  rw [archivePut, if_neg (not_not.mpr authentic.length)]

end Answers

/-- What every fetch keeps to. -/
structure BlobFetch.Sound
    (libraries : BlobLibraries)
    (opts : MultiSourceOptions)
    (archive : Option (Except BlobFetchError (Option Bytes)))
    (fetch : BlobFetch) : Prop where
  authentic :
    AuthenticAnswer libraries opts.versionedHash fetch.result
  written :
    ∀ bytes,
      fetch.networkBytes = some bytes → fetch.result = .ok (some bytes)
  requested : ∀ url ∈ fetch.requested, PublicUrl libraries url
  /-- The archive answers, or the fetch is what it is without an archive. -/
  transparent :
    ((∃ bytes, archive = some (.ok (some bytes)) ∧
        fetch.result = .ok (some bytes)) ∧
        fetch.attempts.asked = [.archive] ∧
        fetch.requested = [] ∧
        fetch.networkBytes = none) ∨
      (fetch.result = (fetchBlob libraries opts none).result ∧
        fetch.requested = (fetchBlob libraries opts none).requested ∧
        fetch.networkBytes =
          (fetchBlob libraries opts none).networkBytes)
  /-- All sources lied: there is no blob, though some source was asked, and
  each that was asked gave bytes of another hash. -/
  lied :
    .all_sources_lied opts.versionedHash ∈ fetch.attempts.log ↔
      fetch.result = .ok none ∧
        fetch.attempts.asked ≠ [] ∧
        ∀ name ∈ fetch.attempts.asked,
          .source_lied name opts.versionedHash ∈ fetch.attempts.log

/-- As long as no source gave bytes, `allLied` says that all lied. -/
structure Attempts.Exact
    (versionedHash : Bytes32)
    (attempts : Attempts) : Prop where
  triedAny : attempts.triedAny = true ↔ attempts.asked ≠ []
  allLied :
    attempts.allLied = true ↔
      ∀ name ∈ attempts.asked,
        .source_lied name versionedHash ∈ attempts.log
  liars :
    ∀ name,
      .source_lied name versionedHash ∈ attempts.log →
      name ∈ attempts.asked

section Fetches

variable {libraries : BlobLibraries}
variable {opts : MultiSourceOptions}
variable {versionedHash : Bytes32}
variable {attempts next : Attempts}
variable {name : BlobSourceName}
variable {fetcher answer : Except BlobFetchError (Option Bytes)}

theorem exact_initial : Attempts.initial.Exact versionedHash where
  triedAny := by simp [Attempts.initial]
  allLied := by simp [Attempts.initial]
  liars := by simp [Attempts.initial]

theorem trySource_answer
    (other : Attempts) :
    (trySource versionedHash attempts name fetcher).2 =
      (trySource versionedHash other name fetcher).2 := by
  rcases fetcher with (_ | _) | (_ | _)
  · rfl
  · by_cases isArchive : name = .archive
    · simp [trySource, isArchive]
    · simp [trySource, isArchive]
  · rfl
  · rfl

/-- Bytes pass a source as they are. -/
theorem trySource_bytes
    {bytes : Bytes}
    (tried : trySource versionedHash attempts name fetcher =
      (next, .ok (some bytes))) :
    fetcher = .ok (some bytes) ∧ next = attempts.ask name := by
  rcases fetcher with (_ | _) | (_ | got)
  · cases tried
  · rw [trySource] at tried
    split at tried
    · cases tried
    · cases tried
  · cases tried
  · cases tried
    exact ⟨rfl, rfl⟩

/-- A source asked for the first time that gives nothing. -/
theorem Attempts.Exact.trySource
    (exact : attempts.Exact versionedHash)
    (fresh : name ∉ attempts.asked)
    (tried : Bam.trySource versionedHash attempts name fetcher =
      (next, .ok none)) :
    next.Exact versionedHash ∧
      next.asked = attempts.asked ++ [name] := by
  have honest :
      .source_lied name versionedHash ∉ attempts.log :=
    fun lied => fresh (exact.liars name lied)
  -- `allLied` is cleared: the source asked last did not lie
  have cleared
      (log : List BlobSourceEvent)
      (same :
        ∀ other,
          .source_lied other versionedHash ∈ log ↔
            .source_lied other versionedHash ∈ attempts.log) :
      Attempts.Exact versionedHash
        { triedAny := true
          allLied := false
          log := log
          asked := attempts.asked ++ [name] } := by
    refine ⟨by simp, ?_, ?_⟩
    · refine ⟨fun impossible => (by cases impossible), fun all => ?_⟩
      exact absurd ((same name).mp (all name (by simp))) honest
    · intro other lied
      exact List.mem_append_left _
        (exact.liars other ((same other).mp lied))
  rcases fetcher with (_ | _) | (_ | _)
  · cases tried
    refine ⟨⟨by simp [Attempts.ask], ?_, ?_⟩, rfl⟩
    · refine exact.allLied.trans ⟨fun all other asked => ?_,
        fun all other asked => ?_⟩
      · rcases List.mem_append.mp asked with asked | asked
        · exact List.mem_append_left _ (all other asked)
        · rw [List.mem_singleton.mp asked]
          exact List.mem_append_right _ List.mem_cons_self
      · rcases List.mem_append.mp
          (all other (List.mem_append_left _ asked)) with lied | lied
        · exact lied
        · cases List.mem_singleton.mp lied
          exact absurd asked fresh
    · intro other lied
      rcases List.mem_append.mp lied with lied | lied
      · exact List.mem_append_left _ (exact.liars other lied)
      · cases List.mem_singleton.mp lied
        exact List.mem_append_right _ List.mem_cons_self
  · rw [Bam.trySource] at tried
    split at tried
    · cases tried
      exact ⟨cleared _ (by simp [Attempts.ask]), rfl⟩
    · cases tried
  · cases tried
    exact ⟨cleared _ (by simp [Attempts.ask]), rfl⟩
  · cases tried

/-- No source says that all lied. -/
theorem trySource_log
    (tried : trySource versionedHash attempts name fetcher =
      (next, answer)) :
    .all_sources_lied versionedHash ∈ next.log ↔
      .all_sources_lied versionedHash ∈ attempts.log := by
  rcases fetcher with (_ | _) | (_ | _)
  · cases tried
    simp [Attempts.ask]
  · rw [trySource] at tried
    split at tried
    · cases tried
      simp [Attempts.ask]
    · cases tried
      simp [Attempts.ask]
  · cases tried
    simp [Attempts.ask]
  · cases tried
    simp [Attempts.ask]

end Fetches

/-- What a step of `fetchBlob` over the network keeps, `name` being its source:
it is asked or the step is skipped. -/
structure NetworkStep
    (libraries : BlobLibraries)
    (versionedHash : Bytes32)
    (name : BlobSourceName)
    (attempts next : Attempts)
    (answer : Except BlobFetchError (Option Bytes)) : Prop where
  authentic : AuthenticAnswer libraries versionedHash answer
  log :
    .all_sources_lied versionedHash ∈ next.log ↔
      .all_sources_lied versionedHash ∈ attempts.log
  exact :
    attempts.Exact versionedHash →
    name ∉ attempts.asked →
    answer = .ok none →
    next.Exact versionedHash ∧
      (next.asked = attempts.asked ∨
        next.asked = attempts.asked ++ [name])

section Network

variable {libraries : BlobLibraries}
variable {opts : MultiSourceOptions}
variable {versionedHash : Bytes32}
variable {attempts : Attempts}
variable {name : BlobSourceName}
variable {fetcher : Except BlobFetchError (Option Bytes)}

theorem networkStep_skipped :
    NetworkStep libraries versionedHash name attempts attempts
      (.ok none) where
  authentic := authenticAnswer_null
  log := Iff.rfl
  exact := fun exact _ _ => ⟨exact, .inl rfl⟩

theorem networkStep_trySource
    (authentic : AuthenticAnswer libraries versionedHash fetcher) :
    NetworkStep libraries versionedHash name attempts
      (trySource versionedHash attempts name fetcher).1
      (trySource versionedHash attempts name fetcher).2 where
  authentic := by
    intro bytes given
    exact authentic bytes
      (trySource_bytes (Prod.ext rfl given)).1
  log := trySource_log rfl
  exact := by
    intro exact fresh gave
    obtain ⟨kept, asked⟩ := exact.trySource fresh (Prod.ext rfl gave)
    exact ⟨kept, .inr asked⟩

theorem networkStep_tryBeacon :
    NetworkStep libraries opts.versionedHash .beacon attempts
      (tryBeacon libraries opts attempts).1
      (tryBeacon libraries opts attempts).2 := by
  rw [tryBeacon]
  split
  · exact networkStep_trySource (authenticAnswer_beacon _)
  · exact networkStep_skipped

theorem networkStep_tryBlobscan :
    NetworkStep libraries opts.versionedHash .blobscan attempts
      (tryBlobscan libraries opts attempts).2.1
      (tryBlobscan libraries opts attempts).2.2 := by
  rw [tryBlobscan]
  cases opts.blobscan with
  | none =>
      exact networkStep_skipped
  | some answers =>
      exact networkStep_trySource (fetchFromBlobscan_sound answers).2

theorem tryBlobscan_requested :
    ∀ url ∈ (tryBlobscan libraries opts attempts).1,
      PublicUrl libraries url := by
  rw [tryBlobscan]
  cases opts.blobscan with
  | none =>
      intro url member
      cases member
  | some answers =>
      exact (fetchFromBlobscan_sound answers).1

theorem tryBeacon_answer
    (other : Attempts) :
    (tryBeacon libraries opts attempts).2 =
      (tryBeacon libraries opts other).2 := by
  rw [tryBeacon, tryBeacon]
  split
  · exact trySource_answer other
  · rfl

theorem tryBlobscan_answer
    (other : Attempts) :
    (tryBlobscan libraries opts attempts).1 =
        (tryBlobscan libraries opts other).1 ∧
      (tryBlobscan libraries opts attempts).2.2 =
        (tryBlobscan libraries opts other).2.2 := by
  rw [tryBlobscan, tryBlobscan]
  cases opts.blobscan with
  | none =>
      exact ⟨rfl, rfl⟩
  | some answers =>
      exact ⟨rfl, trySource_answer other⟩

/-- What the network gives does not depend on what was tried before. -/
theorem fetchNetwork_answer
    (other : Attempts) :
    (fetchNetwork libraries opts attempts).result =
        (fetchNetwork libraries opts other).result ∧
      (fetchNetwork libraries opts attempts).requested =
        (fetchNetwork libraries opts other).requested ∧
      (fetchNetwork libraries opts attempts).networkBytes =
        (fetchNetwork libraries opts other).networkBytes := by
  have beacon :=
    @tryBeacon_answer libraries opts attempts other
  rw [fetchNetwork, fetchNetwork]
  rcases first : tryBeacon libraries opts attempts with ⟨left, answer⟩
  rcases second : tryBeacon libraries opts other with ⟨right, same⟩
  rw [first, second] at beacon
  cases beacon
  rcases answer with error | _ | bytes
  · exact ⟨rfl, rfl, rfl⟩
  · obtain ⟨requested, blobscan⟩ :=
      @tryBlobscan_answer libraries opts left right
    dsimp only
    rcases third : tryBlobscan libraries opts left with
      ⟨urls, ended, answer⟩
    rcases fourth : tryBlobscan libraries opts right with
      ⟨others, finished, same⟩
    rw [third, fourth] at requested blobscan
    cases requested
    cases blobscan
    rcases answer with error | _ | bytes
    · exact ⟨rfl, rfl, rfl⟩
    · exact ⟨rfl, rfl, rfl⟩
    · exact ⟨rfl, rfl, rfl⟩
  · exact ⟨rfl, rfl, rfl⟩

/-- The network part of a fetch, transparency apart. -/
structure NetworkSound
    (libraries : BlobLibraries)
    (opts : MultiSourceOptions)
    (fetch : BlobFetch) : Prop where
  authentic :
    AuthenticAnswer libraries opts.versionedHash fetch.result
  written :
    ∀ bytes,
      fetch.networkBytes = some bytes → fetch.result = .ok (some bytes)
  requested : ∀ url ∈ fetch.requested, PublicUrl libraries url
  lied :
    .all_sources_lied opts.versionedHash ∈ fetch.attempts.log ↔
      fetch.result = .ok none ∧
        fetch.attempts.asked ≠ [] ∧
        ∀ name ∈ fetch.attempts.asked,
          .source_lied name opts.versionedHash ∈ fetch.attempts.log

/-- A fetch that ends with bytes or an error. -/
theorem networkSound_of_ended
    {fetch : BlobFetch}
    (authentic : AuthenticAnswer libraries opts.versionedHash fetch.result)
    (written :
      ∀ bytes,
        fetch.networkBytes = some bytes →
        fetch.result = .ok (some bytes))
    (requested : ∀ url ∈ fetch.requested, PublicUrl libraries url)
    (ended : fetch.result ≠ .ok none)
    (quiet :
      .all_sources_lied opts.versionedHash ∉ fetch.attempts.log) :
    NetworkSound libraries opts fetch where
  authentic := authentic
  written := written
  requested := requested
  lied := ⟨fun lied => absurd lied quiet,
    fun ⟨null, _⟩ => absurd null ended⟩

/-- A fetch that ends with nothing: `allLied` decides what it logs. -/
theorem networkSound_of_null
    (exact : attempts.Exact opts.versionedHash)
    (quiet : .all_sources_lied opts.versionedHash ∉ attempts.log)
    {urls : List JsString}
    (requested : ∀ url ∈ urls, PublicUrl libraries url) :
    NetworkSound libraries opts
      { attempts := { attempts with
          log :=
            if attempts.triedAny && attempts.allLied then
              attempts.log ++ [.all_sources_lied opts.versionedHash]
            else attempts.log }
        requested := urls
        networkBytes := none
        result := .ok none } where
  authentic := authenticAnswer_null
  written := by
    intro bytes impossible
    cases impossible
  requested := requested
  lied := by
    by_cases both :
        attempts.triedAny = true ∧ attempts.allLied = true
    · have lied := exact.allLied.mp both.2
      simp only [both.1, both.2, Bool.and_self, if_true]
      refine ⟨fun _ => ⟨trivial, exact.triedAny.mp both.1,
        fun name asked => List.mem_append_left _ (lied name asked)⟩,
        fun _ => by simp⟩
    · have single :
          (attempts.triedAny && attempts.allLied) = false := by
        simpa using both
      simp only [single, Bool.false_eq_true, if_false]
      refine ⟨fun said => absurd said quiet, ?_⟩
      rintro ⟨-, asked, lied⟩
      exact absurd ⟨exact.triedAny.mpr asked, exact.allLied.mpr lied⟩ both

theorem networkSound_fetchNetwork
    (exact : attempts.Exact opts.versionedHash)
    (quiet : .all_sources_lied opts.versionedHash ∉ attempts.log)
    (noBeacon : .beacon ∉ attempts.asked)
    (noBlobscan : .blobscan ∉ attempts.asked) :
    NetworkSound libraries opts
      (fetchNetwork libraries opts attempts) := by
  have first := @networkStep_tryBeacon libraries opts attempts
  rw [fetchNetwork]
  rcases beacon : tryBeacon libraries opts attempts with
    ⟨beaconed, answer⟩
  rw [beacon] at first
  dsimp only at first
  have quietly := fun said => quiet (first.log.mp said)
  rcases answer with error | _ | bytes
  · exact networkSound_of_ended (authenticAnswer_error error)
      (by simp) (by simp) (by simp) quietly
  · obtain ⟨exactly, asked⟩ := first.exact exact noBeacon rfl
    have fresh : .blobscan ∉ beaconed.asked := by
      rcases asked with asked | asked
      · exact asked ▸ noBlobscan
      · simpa [asked] using noBlobscan
    have second := @networkStep_tryBlobscan libraries opts beaconed
    have requested := @tryBlobscan_requested libraries opts beaconed
    dsimp only
    rcases blobscan : tryBlobscan libraries opts beaconed with
      ⟨urls, ended, answer⟩
    rw [blobscan] at second requested
    dsimp only at second requested
    have silent := fun said => quietly (second.log.mp said)
    rcases answer with error | _ | bytes
    · exact networkSound_of_ended (authenticAnswer_error error)
        (by simp) requested (by simp) silent
    · exact networkSound_of_null (second.exact exactly fresh rfl).1
        silent requested
    · exact networkSound_of_ended second.authentic (by simp) requested
        (by simp) silent
  · exact networkSound_of_ended first.authentic (by simp) (by simp)
      (by simp) quietly

/-- Every fetch is sound, whatever the archive read back. -/
theorem fetchBlob_sound
    {archive : Option (Except BlobFetchError (Option Bytes))}
    (verified :
      ∀ answer ∈ archive,
        AuthenticAnswer libraries opts.versionedHash answer) :
    (fetchBlob libraries opts archive).Sound libraries opts archive := by
  have sound
      (attempts : Attempts)
      (network : NetworkSound libraries opts
        (fetchNetwork libraries opts attempts)) :
      (fetchNetwork libraries opts attempts).Sound libraries opts
        archive :=
    { authentic := network.authentic
      written := network.written
      requested := network.requested
      transparent := .inr (fetchNetwork_answer .initial)
      lied := network.lied }
  cases archive with
  | none =>
      exact sound _ (networkSound_fetchNetwork exact_initial
        (by simp [Attempts.initial]) (by simp [Attempts.initial])
        (by simp [Attempts.initial]))
  | some answer =>
      rw [fetchBlob]
      rcases tried :
          trySource opts.versionedHash .initial .archive answer with
        ⟨attempts, got⟩
      have quiet :
          .all_sources_lied opts.versionedHash ∉ attempts.log := by
        rw [trySource_log tried]
        simp [Attempts.initial]
      rcases got with error | _ | bytes
      · rcases answer with (_ | _) | (_ | _)
        · cases tried
        · cases tried
        · cases tried
        · cases tried
      · obtain ⟨exactly, asked⟩ :=
          exact_initial.trySource (by simp [Attempts.initial]) tried
        exact sound attempts (networkSound_fetchNetwork exactly quiet
          (by simp [asked, Attempts.initial])
          (by simp [asked, Attempts.initial]))
      · obtain ⟨rfl, rfl⟩ := trySource_bytes tried
        refine ⟨verified _ rfl, by simp, by simp, ?_, ?_⟩
        · exact .inl ⟨⟨bytes, rfl, rfl⟩, rfl, rfl, rfl⟩
        · simp [Attempts.ask, Attempts.initial]

end Network

section Runs

/-- What a Reader keeps of blobs: the files of its archive, and the blobs that
are fetched and still to be written. -/
structure BlobCache where
  files : ArchiveFiles
  writing : List (Bytes32 × Bytes)

/-- What happens to the archive: a fetch up to its write, the write, a request
of `getBlob`, and a file that is changed from outside. -/
inductive BlobEvent where
  | fetch (opts : MultiSourceOptions) (fault : Option ReadFault)
  | write (index : Nat) (fault : Bool)
  | getBlob (versionedHash : Bytes32) (fault : Option ReadFault)
  | damage (versionedHash : Bytes32) (contents : Option Bytes)

/-- A fetch over the archive. -/
def BlobCache.fetchBlob
    (libraries : BlobLibraries)
    (cache : BlobCache)
    (opts : MultiSourceOptions)
    (fault : Option ReadFault) : BlobFetch :=
  Bam.fetchBlob libraries opts
    (some (archiveGet libraries cache.files fault opts.versionedHash))

def blobStep
    (libraries : BlobLibraries)
    (cache : BlobCache) : BlobEvent → Option BlobCache
  | .fetch opts fault =>
      let fetch := cache.fetchBlob libraries opts fault
      some { cache with
        writing := cache.writing ++
          (fetch.networkBytes.map fun bytes =>
            (opts.versionedHash, bytes)).toList }
  | .write index fault =>
      match cache.writing[index]? with
      | none => none
      | some (versionedHash, bytes) =>
          some {
            files :=
              (archivePut cache.files fault versionedHash bytes).1
            writing := cache.writing.eraseIdx index }
  | .getBlob _ _ => some cache
  | .damage versionedHash contents =>
      some { cache with
        files := Function.update cache.files versionedHash contents }

/-- What an event of a run keeps to. -/
def BlobEvent.Sound
    (libraries : BlobLibraries)
    (cache : BlobCache) : BlobEvent → Prop
  | .fetch opts fault =>
      (cache.fetchBlob libraries opts fault).Sound libraries opts
        (some (archiveGet libraries cache.files fault opts.versionedHash))
  | .write index fault =>
      ∀ versionedHash bytes,
        cache.writing[index]? = some (versionedHash, bytes) →
        Authentic libraries versionedHash bytes ∧
          ((archivePut cache.files fault versionedHash bytes).2 =
            .ok () ↔ fault = false)
  | .getBlob versionedHash fault =>
      AuthenticAnswer libraries versionedHash
        (archiveGet libraries cache.files fault versionedHash)
  | .damage _ _ => True

/-- The blobs still to be written are authentic. -/
def BlobCache.Verified
    (libraries : BlobLibraries)
    (cache : BlobCache) : Prop :=
  ∀ entry ∈ cache.writing, Authentic libraries entry.1 entry.2

section Steps

variable {libraries : BlobLibraries}
variable {cache next : BlobCache}
variable {event : BlobEvent}

theorem BlobCache.fetchBlob_sound
    (opts : MultiSourceOptions)
    (fault : Option ReadFault) :
    (cache.fetchBlob libraries opts fault).Sound libraries opts
      (some (archiveGet libraries cache.files fault
        opts.versionedHash)) := by
  refine Bam.fetchBlob_sound fun answer isAnswer => ?_
  cases isAnswer
  exact authenticAnswer_archiveGet cache.files fault

theorem verified_blobStep
    (verified : cache.Verified libraries)
    (stepped : blobStep libraries cache event = some next) :
    next.Verified libraries := by
  cases event with
  | fetch opts fault =>
      cases stepped
      have sound :=
        @BlobCache.fetchBlob_sound libraries cache opts fault
      intro entry member
      rcases List.mem_append.mp member with member | member
      · exact verified entry member
      · obtain ⟨bytes, isBytes, rfl⟩ :=
          Option.map_eq_some_iff.mp (Option.mem_toList.mp member)
        exact sound.authentic bytes (sound.written bytes isBytes)
  | write index fault =>
      rw [blobStep] at stepped
      split at stepped
      · cases stepped
      · cases stepped
        intro entry member
        exact verified entry (List.mem_of_mem_eraseIdx member)
  | getBlob versionedHash fault =>
      cases stepped
      exact verified
  | damage versionedHash contents =>
      cases stepped
      exact verified

theorem sound_of_verified
    (verified : cache.Verified libraries) :
    event.Sound libraries cache := by
  cases event with
  | fetch opts fault =>
      exact BlobCache.fetchBlob_sound opts fault
  | write index fault =>
      intro versionedHash bytes isEntry
      have authentic : Authentic libraries versionedHash bytes :=
        verified _ (List.mem_of_getElem? isEntry)
      refine ⟨authentic, ?_⟩
      rw [archivePut_of_authentic authentic, filesystemPut]
      cases fault with
      | true =>
          simp
      | false =>
          simp
  | getBlob versionedHash fault =>
      exact authenticAnswer_archiveGet cache.files fault
  | damage versionedHash contents =>
      trivial

end Steps

/-- In every run, with sources that answer anything, disks that fail and files
that are damaged at any moment, every fetch and every `getBlob` is sound: it
hands out no blob of another hash, it requests public URLs only, the archive
changes nothing but where the blob comes from, and all sources are said to have
lied exactly when each source asked did; and a write fails by the disk only. -/
theorem blobRun_sound
    (libraries : BlobLibraries)
    (files : ArchiveFiles)
    (events : List BlobEvent) :
    Runs.AllSteps (blobStep libraries)
      (fun cache event => event.Sound libraries cache)
      { files := files, writing := [] } events := by
  refine @Runs.allSteps_of_invariant _ _ _
    (fun cache => cache.Verified libraries) (fun _ _ => True) _
    (fun verified _ stepped => verified_blobStep verified stepped)
    (fun verified _ => sound_of_verified verified) _ _ ?_
    (@Runs.AllSteps.of_forall _ _ _ (fun _ _ => True)
      (fun _ _ => trivial) _ _)
  intro entry member
  cases member

/-- The archive holds a blob of the hash. -/
def BlobCache.Holds
    (libraries : BlobLibraries)
    (versionedHash : Bytes32)
    (cache : BlobCache) : Prop :=
  ∃ bytes,
    cache.files versionedHash = some bytes ∧
      Authentic libraries versionedHash bytes

section Held

variable {libraries : BlobLibraries}
variable {cache next : BlobCache}
variable {versionedHash : Bytes32}

/-- Only damage takes a blob out of the archive. -/
theorem holds_blobStep
    (held : cache.Holds libraries versionedHash)
    (verified : cache.Verified libraries)
    {event : BlobEvent}
    (spared : ∀ contents, event ≠ .damage versionedHash contents)
    (stepped : blobStep libraries cache event = some next) :
    next.Holds libraries versionedHash := by
  cases event with
  | fetch opts fault =>
      cases stepped
      exact held
  | write index fault =>
      rw [blobStep] at stepped
      cases isEntry : cache.writing[index]? with
      | none =>
          rw [isEntry] at stepped
          cases stepped
      | some entry =>
          obtain ⟨other, bytes⟩ := entry
          rw [isEntry] at stepped
          cases stepped
          have authentic : Authentic libraries other bytes :=
            verified _ (List.mem_of_getElem? isEntry)
          rw [BlobCache.Holds, archivePut_of_authentic authentic,
            filesystemPut]
          cases fault with
          | true =>
              exact held
          | false =>
              by_cases same : versionedHash = other
              · subst same
                exact ⟨bytes, by simp, authentic⟩
              · simpa [BlobCache.Holds, same] using held
  | getBlob other fault =>
      cases stepped
      exact held
  | damage other contents =>
      cases stepped
      have same : versionedHash ≠ other := by
        rintro rfl
        exact spared contents rfl
      simpa [BlobCache.Holds, same] using held

/-- A write that does not fail archives its blob. -/
theorem holds_of_written
    (verified : cache.Verified libraries)
    {index : Nat}
    {bytes : Bytes}
    (isEntry :
      cache.writing[index]? = some (versionedHash, bytes))
    (stepped :
      blobStep libraries cache (.write index false) = some next) :
    next.Holds libraries versionedHash := by
  rw [blobStep, isEntry] at stepped
  cases stepped
  have authentic : Authentic libraries versionedHash bytes :=
    verified _ (List.mem_of_getElem? isEntry)
  rw [BlobCache.Holds, archivePut_of_authentic authentic, filesystemPut]
  exact ⟨bytes, by simp, authentic⟩

/-- A blob of the hash is served from the archive, to `getBlob` and to fetches,
which then ask no other source and request no URL. -/
def BlobCache.Serves
    (libraries : BlobLibraries)
    (versionedHash : Bytes32)
    (cache : BlobCache) : Prop :=
  ∃ bytes,
    Authentic libraries versionedHash bytes ∧
      archiveGet libraries cache.files none versionedHash =
        .ok (some bytes) ∧
      ∀ opts,
        opts.versionedHash = versionedHash →
        (cache.fetchBlob libraries opts none).result =
            .ok (some bytes) ∧
          (cache.fetchBlob libraries opts none).attempts.asked =
            [.archive] ∧
          (cache.fetchBlob libraries opts none).requested = []

theorem BlobCache.Holds.serves
    (held : cache.Holds libraries versionedHash) :
    cache.Serves libraries versionedHash := by
  obtain ⟨bytes, isFile, authentic⟩ := held
  have got := archiveGet_of_authentic isFile authentic
  refine ⟨bytes, authentic, got, ?_⟩
  rintro opts rfl
  rw [BlobCache.fetchBlob, got]
  exact ⟨rfl, rfl, rfl⟩

end Held

/-- A blob that is written into the archive is served from there, up to the
moment its file is damaged: no fetch, no failing write and no lying source
drives it out. -/
theorem archived_until_damaged
    {libraries : BlobLibraries}
    {files : ArchiveFiles}
    {leading trailing : List BlobEvent}
    {cache final : BlobCache}
    {index : Nat}
    {versionedHash : Bytes32}
    {bytes : Bytes}
    (before :
      Runs.exec? (blobStep libraries) { files := files, writing := [] }
        leading = some cache)
    (isEntry :
      cache.writing[index]? = some (versionedHash, bytes))
    (after :
      Runs.exec? (blobStep libraries) cache
        (.write index false :: trailing) = some final)
    (spared :
      ∀ contents, .damage versionedHash contents ∉ trailing) :
    final.Serves libraries versionedHash := by
  have verified : cache.Verified libraries :=
    Runs.exec?_invariant
      (fun verified _ stepped => verified_blobStep verified stepped)
      (by intro entry member; cases member) before
  rw [Runs.exec?] at after
  cases stepped : blobStep libraries cache (.write index false) with
  | none =>
      rw [stepped] at after
      cases after
  | some written =>
      rw [stepped] at after
      have kept :=
        @Runs.exec?_invariant _ _ (blobStep libraries)
          (fun cache =>
            cache.Holds libraries versionedHash ∧
              cache.Verified libraries) trailing
          (fun held member stepped =>
            ⟨holds_blobStep held.1 held.2
              (fun contents isDamage =>
                spared contents (isDamage ▸ member)) stepped,
              verified_blobStep held.2 stepped⟩)
          written final
          ⟨holds_of_written verified isEntry stepped,
            verified_blobStep verified stepped⟩ after
      exact kept.1.serves

end Runs

/-- Libraries under which every blob has one commitment, and every URL is
public. -/
def oneCommitment : BlobLibraries where
  kzg := {
    setupLoaded := false
    blobToKzgCommitment := fun _ => some []
    computeBlobKzgProof := fun _ _ => none
    sha256 := fun _ => 0 }
  commitmentsToVersionedHashes := fun _ => none
  parseUrl := fun _ => some ⟨js "https:", js "storage.example"⟩
  isIP := fun _ => 0

/-- Blobscan names a storage URL, and the blob is there. -/
def storageAnswers
    (bytes : Bytes) : BlobscanAnswers where
  blobs := .ok (.object
    [(js "dataStorageReferences", .array
      [.object [(js "url", .string (js "https://storage.example"))]])])
  storage := fun _ => .ok ⟨some (some 131072), some bytes⟩

def storedAt
    (bytes : Bytes) : MultiSourceOptions where
  versionedHash := BitVec.ofNat 256 (2 ^ 248)
  parentBeaconBlockRoot := none
  beacon := none
  blobscan := some (storageAnswers bytes)

theorem authentic_oneCommitment
    {bytes : Bytes}
    (full : bytes.length = FULL_BLOB_BYTE_LENGTH) :
    Authentic oneCommitment (BitVec.ofNat 256 (2 ^ 248)) bytes := by
  have size : bytes.length = BYTES_PER_BLOB := full
  have committed :
      oneCommitment.kzg.loadTrustedSetup.commitToBlob bytes =
        .ok {
          blob := bytes
          commitment := []
          versionedHash := BitVec.ofNat 256 (2 ^ 248) } := by
    rw [KzgModule.commitToBlob, if_neg (not_not.mpr size)]
    rfl
  rw [Authentic, recomputeVersionedHash, if_neg (not_not.mpr full),
    committed]

theorem fetchFromBlobscan_storageAnswers
    {bytes : Bytes}
    (full : bytes.length = FULL_BLOB_BYTE_LENGTH) :
    fetchFromBlobscan oneCommitment (storageAnswers bytes)
        (BitVec.ofNat 256 (2 ^ 248)) =
      ([js "https://storage.example"], .ok (some bytes)) := by
  have bounded :
      ¬((131072 : Rat) < 0 ∨ (MAX_BLOB_BYTES : Rat) < 131072) := by
    norm_num [MAX_BLOB_BYTES]
  have read :
      readStorage oneCommitment (BitVec.ofNat 256 (2 ^ 248))
          ⟨some (some 131072), some bytes⟩ = .ok (some bytes) := by
    simp only [readStorage, if_neg bounded]
    exact checkedBytes_authentic (authentic_oneCommitment full)
  have asserted :
      assertPublicHttpUrl oneCommitment (js "https://storage.example") =
        .ok () := by
    decide
  have noHex :
      extractBlobHex (.object
        [(js "dataStorageReferences", .array
          [.object [(js "url",
            .string (js "https://storage.example"))]])]) = none := by
    rfl
  have urls :
      extractStorageUrls (.object
        [(js "dataStorageReferences", .array
          [.object [(js "url",
            .string (js "https://storage.example"))]])]) =
        [js "https://storage.example"] := by
    rfl
  simp only [fetchFromBlobscan, storageAnswers, noHex, urls,
    Option.filter_none, followStorageUrls, asserted, read]

/-- A blob fetched from storage is archived and then served. -/
theorem archived_until_damaged_elsewhere :
    BlobCache.Serves oneCommitment (BitVec.ofNat 256 (2 ^ 248))
      { files :=
          Function.update
            (Function.update (fun _ => none)
              (BitVec.ofNat 256 (2 ^ 248))
              (some (List.replicate FULL_BLOB_BYTE_LENGTH 0)))
            0 none
        writing := [] } := by
  have served
      (bytes : Bytes)
      (full : bytes.length = FULL_BLOB_BYTE_LENGTH) :
      BlobCache.Serves oneCommitment (BitVec.ofNat 256 (2 ^ 248))
        { files :=
            Function.update
              (Function.update (fun _ => none)
                (BitVec.ofNat 256 (2 ^ 248)) (some bytes))
              0 none
          writing := [] } := by
    have fetched :
        (BlobCache.fetchBlob oneCommitment
          { files := fun _ => none, writing := [] } (storedAt bytes)
          none).networkBytes = some bytes := by
      have missing :
          archiveGet oneCommitment (fun _ => none) none
            (BitVec.ofNat 256 (2 ^ 248)) = .ok none := by
        rfl
      simp only [BlobCache.fetchBlob, fetchBlob, storedAt, missing,
        trySource, fetchNetwork, tryBeacon, tryBlobscan,
        fetchFromBlobscan_storageAnswers full]
    have fetching :
        Runs.exec? (blobStep oneCommitment)
            { files := fun _ => none, writing := [] }
            [.fetch (storedAt bytes) none] =
          some {
            files := fun _ => none
            writing := [(BitVec.ofNat 256 (2 ^ 248), bytes)] } := by
      simp only [Runs.exec?, blobStep, fetched]
      rfl
    have writing :
        Runs.exec? (blobStep oneCommitment)
            { files := fun _ => none
              writing := [(BitVec.ofNat 256 (2 ^ 248), bytes)] }
            [.write 0 false, .damage 0 none] =
          some {
            files :=
              Function.update
                (Function.update (fun _ => none)
                  (BitVec.ofNat 256 (2 ^ 248)) (some bytes))
                0 none
            writing := [] } := by
      simp only [Runs.exec?, blobStep, List.getElem?_cons_zero,
        archivePut_of_authentic (authentic_oneCommitment full)]
      rfl
    refine archived_until_damaged fetching rfl writing ?_
    intro contents member
    have same := List.mem_singleton.mp member
    rw [BlobEvent.damage.injEq] at same
    exact absurd same.1 (by decide)
  exact served _ (List.length_replicate ..)

end Bam
