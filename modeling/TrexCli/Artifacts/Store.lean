import Mathlib.Data.Char
import Mathlib.Data.List.Lex
import Mathlib.Data.List.Sort
import TrexCli.Artifacts.Instants
import TrexCli.Capture.Datagram
import TrexCli.Lib.Faults
import TrexCli.Lib.Table
import TrexCli.Lib.Temporaries

/-!
# The artifact store

`ArtifactStore` of `artifacts.py`, with the statements of `storage.py` on its table. The files below
the root are those at a path, each with the time it was last written, and the temporary files; the
name of a temporary file is never that of an artifact, so no scan considers one. The texts of the
retention column compare as SQLite compares texts. The hash function is a parameter.
-/

namespace TrexCli.Artifacts

open Capture (Digest)
open Lexicographic

inductive StoreError where
  | mismatchedContent
  | mismatchedMetadata
  | overflow
  | fileNotFound
  | osError
  | databaseError
  deriving DecidableEq, Repr

/-- A regular file. `mtime` is in microseconds. -/
structure ArtifactFile where
  content : Bytes
  mtime : Int
  deriving DecidableEq

/-- A row of the table `artifacts`. -/
structure ArtifactRow where
  digest : Digest
  mediaType : Text
  size : Nat
  path : PurePath
  retainUntil : Text
  deriving DecidableEq

structure ArtifactState where
  files : Table PurePath (PurePath × ArtifactFile) Prod.fst
  temporaries : Temporaries Bytes
  rows : Table Digest ArtifactRow ArtifactRow.digest

/-- The state of a new store. -/
def ArtifactState.empty : ArtifactState := ⟨.empty, [], .empty⟩

/-- A program on the files and the table. -/
abbrev StoreProgram (α : Type) := Faulty StoreError ArtifactState α

/-- An operation of the file system. -/
def fileOperation {α : Type} (f : ArtifactState → α × ArtifactState) : StoreProgram α :=
  .operation .osError f

/-- A statement of SQLite. -/
def statement {α : Type} (f : ArtifactState → α × ArtifactState) : StoreProgram α :=
  .operation .databaseError f

/-- The digits of `hexdigest()`. -/
def hexdigest (digest : Digest) : Text := fixedDigits 16 64 digest.val

section

variable (root : PurePath) (sha256 : Bytes → Digest)

/-- `self._root / digest_hex[:2] / digest_hex` -/
def contentPath (digest : Digest) : PurePath :=
  (root.child ((hexdigest digest).take 2)).child (hexdigest digest)

/-- `_valid_content_path` -/
def validContentPath (path : PurePath) (digestHex : Text) : Prop :=
  path = (root.child (digestHex.take 2)).child digestHex ∧ digestHex.length = 64 ∧
    ∀ c ∈ digestHex, c ∈ "0123456789abcdef".toList

instance (path : PurePath) (digestHex : Text) : Decidable (validContentPath root path digestHex) :=
  inferInstanceAs (Decidable (_ ∧ _))

/-! ### Writing -/

/-- `_write_atomic`, at a time of the file system's clock -/
def writeAtomic (path : PurePath) (content : Bytes) (written : Int) : StoreProgram Unit := do
  fileOperation fun s => ((), s)
  match ← fileOperation fun s => (s.files.get path, s) with
  | some file =>
    fileOperation fun s => ((), s)
    if sha256 file.2.content ≠ sha256 content then .raise .mismatchedContent else pure ()
  | none => do
    let name ← fileOperation fun s =>
      (s.temporaries.fresh, { s with temporaries := s.temporaries.make [] })
    .tryFinally (do
        fileOperation fun s =>
          ((), { s with temporaries := s.temporaries.modify name (· ++ content) })
        fileOperation fun s => ((), s)
        fileOperation fun s => ((),
          { s with
            files := s.files.upsert (path, ⟨(s.temporaries.read name).getD [], written⟩)
            temporaries := s.temporaries.unlink name }))
      (do
        if ← .pureState fun s => ((s.temporaries.read name).isSome, s) then
          fileOperation fun s => ((), { s with temporaries := s.temporaries.unlink name })
        else pure ())

/-- `MAX` of two texts -/
def sqlMax (a b : Text) : Text := if a < b then b else a

/-- `_record_artifact_sync` -/
def recordArtifact (digest : Digest) (mediaType : Text) (size : Nat) (path : PurePath)
    (retainUntil : Text) : StoreProgram Unit := do
  let existing ← statement fun s => (s.rows.get digest, s)
  if ∃ row ∈ existing, row.mediaType ≠ mediaType ∨ row.size ≠ size ∨ row.path ≠ path then
    .raise .mismatchedMetadata
  else
    statement fun s =>
      let retained := match s.rows.get digest with
        | some row => { row with retainUntil := sqlMax row.retainUntil retainUntil }
        | none => ⟨digest, mediaType, size, path, retainUntil⟩
      ((), { s with rows := s.rows.upsert retained })

structure ArtifactRef where
  digest : Digest
  mediaType : Text
  size : Nat
  name : Text
  deriving DecidableEq

/-- `ArtifactStore.write`, where `days` is the retention; `now` is what `utc_now()` returns. -/
def write (name : Text) (content : Bytes) (mediaType : Text) (days : Int) (now : UtcDateTime)
    (written : Int) : StoreProgram ArtifactRef := do
  let digest := sha256 content
  let path := contentPath root digest
  writeAtomic sha256 path content written
  match now.addDays days with
  | none => .raise .overflow
  | some deadline => do
    recordArtifact digest mediaType content.length path deadline.isoformat
    pure ⟨digest, mediaType, content.length, name⟩

/-! ### Cleaning up -/

/-- An entry of `report.failures`. -/
inductive CleanupFailure where
  | unsafePath (path : PurePath)
  | raised (path : PurePath) (error : StoreError)
  deriving DecidableEq

structure ArtifactCleanupReport where
  dryRun : Bool
  expiredRecords : Nat
  deletedRecords : Nat
  missingFiles : Nat
  orphanFiles : Nat
  deletedOrphans : Nat
  reclaimedBytes : Nat
  failures : List CleanupFailure
  deriving DecidableEq

/-- `_orphan_files`: the files of the store that no row registers, last written before the cutoff. -/
def orphanFiles (registered : List PurePath) (cutoff : Int) (s : ArtifactState) : List PurePath :=
  let orphans := s.files.rows.filter fun file =>
    file.1.parent.parent = root ∧ file.1 ∉ registered ∧ validContentPath root file.1 file.1.name ∧
      file.2.mtime < cutoff
  (orphans.map Prod.fst).insertionSort fun p q => p.parts ≤ q.parts

/-- A result, or the `OSError` it was not reached for. -/
def catchOsError {α : Type} (m : StoreProgram α) : StoreProgram (Except StoreError α) :=
  .tryExcept (do
      let a ← m
      pure (.ok a))
    fun error =>
      if error = .osError ∨ error = .fileNotFound then pure (.error error) else .raise error

/-- The size of an expired file, which is unlinked; `none` when it was missing. -/
def unlinkExpired (path : PurePath) : StoreProgram (Option Nat) := do
  let size ← fileOperation fun s => ((s.files.get path).map (·.2.content.length), s)
  fileOperation fun s => ((), { s with files := s.files.delete fun file => file.1 = path })
  pure size

/-- The size of an orphan, which is unlinked. -/
def unlinkOrphan (path : PurePath) : StoreProgram Nat := do
  match ← fileOperation fun s => (s.files.get path, s) with
  | none => .raise .fileNotFound
  | some found =>
    fileOperation fun s => ((), { s with files := s.files.delete fun file => file.1 = path })
    pure found.2.content.length

/-- `_forget_expired_artifact_sync` -/
def forgetExpired (digest : Digest) (nowIso : Text) : StoreProgram Bool :=
  statement fun s =>
    ((s.rows.get digest).any fun row => decide (row.retainUntil < nowIso),
      { s with rows := s.rows.delete fun row => row.digest = digest ∧ row.retainUntil < nowIso })

/-- The loop over the expired rows. -/
def deleteExpired (nowIso : Text) :
    ArtifactCleanupReport → List ArtifactRow → StoreProgram ArtifactCleanupReport
  | report, [] => pure report
  | report, row :: rows => do
    if validContentPath root row.path (hexdigest row.digest) then
      match ← catchOsError (unlinkExpired row.path) with
      | .error error =>
        deleteExpired nowIso
          { report with failures := report.failures ++ [.raised row.path error] } rows
      | .ok size =>
        if ← forgetExpired row.digest nowIso then
          deleteExpired nowIso
            { report with
              deletedRecords := report.deletedRecords + 1
              missingFiles := report.missingFiles + (if size.isNone then 1 else 0)
              reclaimedBytes := report.reclaimedBytes + size.getD 0 } rows
        else deleteExpired nowIso report rows
    else
      deleteExpired nowIso { report with failures := report.failures ++ [.unsafePath row.path] } rows

/-- The loop over the orphans. -/
def deleteOrphanFiles :
    ArtifactCleanupReport → List PurePath → StoreProgram ArtifactCleanupReport
  | report, [] => pure report
  | report, path :: paths => do
    match ← catchOsError (unlinkOrphan path) with
    | .error error =>
      deleteOrphanFiles { report with failures := report.failures ++ [.raised path error] } paths
    | .ok size =>
      deleteOrphanFiles
        { report with
          deletedOrphans := report.deletedOrphans + 1
          reclaimedBytes := report.reclaimedBytes + size } paths

/-- `ArtifactStore.cleanup`. `grace` is the grace period of orphans in microseconds. -/
def cleanup (grace : Int) (now : UtcDateTime) (dryRun deleteOrphans : Bool) :
    StoreProgram ArtifactCleanupReport := do
  let expired ← statement fun s =>
    ((s.rows.rows.filter fun row => row.retainUntil < now.isoformat).insertionSort
      fun a b => a.digest ≤ b.digest, s)
  let registered ← statement fun s => (s.rows.rows.map ArtifactRow.path, s)
  let orphans ← fileOperation fun s => (orphanFiles root registered (now.timestamp - grace) s, s)
  let report : ArtifactCleanupReport := ⟨dryRun, expired.length, 0, 0, orphans.length, 0, 0, []⟩
  if dryRun then pure report
  else
    let cleaned ← deleteExpired root now.isoformat report expired
    if deleteOrphans then deleteOrphanFiles cleaned orphans else pure cleaned

/-! ### Runs -/

/-- A call on the store, with the fates of its operations. -/
inductive StoreCall where
  | write (name : Text) (content : Bytes) (mediaType : Text) (days : Int) (now : UtcDateTime)
    (written : Int) (fates : List Fate)
  | cleanup (now : UtcDateTime) (dryRun deleteOrphans : Bool) (fates : List Fate)

/-- The state after a call, whether it returned, raised or was cut off. -/
def StoreCall.run (grace : Int) (s : ArtifactState) : StoreCall → ArtifactState
  | .write name content mediaType days now written fates =>
    (Artifacts.write root sha256 name content mediaType days now written (s, fates)).2.1
  | .cleanup now dryRun deleteOrphans fates =>
    (Artifacts.cleanup root grace now dryRun deleteOrphans (s, fates)).2.1

/-- The state after a sequence of calls on a new store. -/
def runCalls (grace : Int) (calls : List StoreCall) : ArtifactState :=
  calls.foldl (StoreCall.run root sha256 grace) .empty

end

end TrexCli.Artifacts
