import Mathlib.Data.List.MinMax
import TrexCli.Capture.Datagram
import TrexCli.Lib.Faults
import TrexCli.Lib.Paths
import TrexCli.Lib.Table
import TrexCli.Lib.Temporaries

/-!
# The capture catalog

`CaptureCatalog` of `pcap_catalog.py`. The analysis of a capture is a parameter, and so is the hash
function. A descriptor file holds its document. Every operation of the file system and of the source
may raise an `OSError` or be the last one of the process; only the removal of the catalog's own
temporary files, where an exception is being handled or a `finally` block runs, does not fail. The
directories below the root are not modelled: making one changes no file.
-/

namespace TrexCli.Capture

open Text

/-- What the methods of the catalog raise; `ε` is for the analysis of a capture. -/
inductive CatalogError (ε : Type) where
  | validation
  | exceedsLimit (maximumBytes : Nat)
  | analysis (error : ε)
  | invalidRevision
  | notFound (ref : Text)
  | osError
  deriving DecidableEq, Repr

/-! ### Documents -/

/-- `[A-Za-z0-9][A-Za-z0-9_.-]{0,127}` -/
def nameComponent : Text → Bool
  | [] => false
  | first :: rest =>
    first.isAlphanum && decide (rest.length ≤ 127) &&
      rest.all fun c => c.isAlphanum || c ∈ ['_', '.', '-']

/-- `_RESOURCE_NAME_PATTERN`, and the bounds on the length. -/
def ResourceName (name : Text) : Prop :=
  name.length ≤ 256 ∧ ∀ part ∈ name.splitOn '/', nameComponent part = true

instance (name : Text) : Decidable (ResourceName name) := inferInstanceAs (Decidable (_ ∧ _))

structure CaptureMetadata where
  name : Text
  revision : Nat
  description : Option Text
  name_valid : ResourceName name
  revision_pos : 1 ≤ revision
  description_le : ∀ text ∈ description, text.length ≤ 512
  deriving DecidableEq

/-- `CaptureMetadata(name=name, revision=revision, description=description)` -/
def captureMetadata {ε : Type} (name : Text) (revision : Nat) (description : Option Text) :
    Except (CatalogError ε) CaptureMetadata :=
  if h : ResourceName name ∧ 1 ≤ revision ∧ ∀ text ∈ description, text.length ≤ 512 then
    .ok ⟨name, revision, description, h.1, h.2.1, h.2.2⟩
  else .error .validation

structure CaptureResourceDocument (α : Type) where
  metadata : CaptureMetadata
  digest : Digest
  size : Nat
  analysis : α
  deriving DecidableEq

variable {α ε : Type}

namespace CaptureResourceDocument

def name (document : CaptureResourceDocument α) : Text := document.metadata.name

def revision (document : CaptureResourceDocument α) : Nat := document.metadata.revision

end CaptureResourceDocument

/-! ### Files -/

/-- `{name}@{revision}.json` -/
def descriptorName (name : Text) (revision : Nat) : Text :=
  name ++ '@' :: (ofNat revision ++ ".json".toList)

/-- `_descriptor_path` -/
def descriptorPath (root : PurePath) (name : Text) (revision : Nat) : PurePath :=
  ((root.child "resources".toList).join (PurePath.ofText name).parent).child
    (descriptorName (PurePath.ofText name).name revision)

/-- The files below the root: the objects by their digest, the temporary files of captures and of
descriptors, and the descriptors. -/
structure CatalogFiles (α : Type) where
  objects : Digest → Option Bytes
  staged : Temporaries Bytes
  drafts : Temporaries (Option (CaptureResourceDocument α))
  resources : Table PurePath (PurePath × CaptureResourceDocument α) Prod.fst

namespace CatalogFiles

def empty : CatalogFiles α := ⟨fun _ => none, [], [], .empty⟩

variable (s : CatalogFiles α)

def makeStaged : Nat × CatalogFiles α := (s.staged.fresh, { s with staged := s.staged.make [] })

def append (name : Nat) (chunk : Bytes) : CatalogFiles α :=
  { s with staged := s.staged.modify name (· ++ chunk) }

def unlinkStaged (name : Nat) : CatalogFiles α := { s with staged := s.staged.unlink name }

/-- The content of a temporary file. -/
def stagedContent (name : Nat) : Bytes := (s.staged.read name).getD []

/-- `os.replace(descriptor, object_path)` -/
def replaceObject (name : Nat) (digest : Digest) : CatalogFiles α :=
  { s.unlinkStaged name with
    objects := fun d => if d = digest then some (s.stagedContent name) else s.objects d }

def makeDraft : Nat × CatalogFiles α := (s.drafts.fresh, { s with drafts := s.drafts.make none })

def writeDraft (name : Nat) (document : CaptureResourceDocument α) : CatalogFiles α :=
  { s with drafts := s.drafts.modify name fun _ => some document }

def unlinkDraft (name : Nat) : CatalogFiles α := { s with drafts := s.drafts.unlink name }

/-- `os.replace(temporary, path)` -/
def replaceDescriptor (name : Nat) (path : PurePath) : CatalogFiles α :=
  match (s.drafts.read name).join with
  | some document => { s.unlinkDraft name with resources := s.resources.upsert (path, document) }
  | none => s

end CatalogFiles

open CatalogFiles

/-! ### The catalog -/

/-- A program on the files of the catalog. -/
abbrev Catalog (ε α β : Type) := Faulty (CatalogError ε) (CatalogFiles α) β

/-- An operation that raises an `OSError` when it fails. -/
def fileOperation {β : Type} (f : CatalogFiles α → β × CatalogFiles α) : Catalog ε α β :=
  .operation .osError f

/-- An operation that changes no file. -/
def quietly : Catalog ε α Unit := fileOperation fun s => ((), s)

section

variable (root : PurePath) (maximumBytes : Nat) (sha256 : Bytes → Digest)
  (analyze : Bytes → Except ε α)

/-- The descriptors that `parent.glob(f"{prefix}*.json")` finds. -/
def candidates (s : CatalogFiles α) (name : Text) : List (CaptureResourceDocument α) :=
  let parent := (descriptorPath root name 1).parent
  let pattern := (PurePath.ofText name).name ++ ['@']
  (s.resources.rows.filter fun row => row.1.parent = parent ∧ pattern <+: row.1.name ∧
    ".json".toList <:+ row.1.name ∧ pattern.length + 5 ≤ row.1.name.length).map Prod.snd

/-- `_latest` -/
def latest (s : CatalogFiles α) (name : Text) : Option (CaptureResourceDocument α) :=
  (candidates root s name).argmax CaptureResourceDocument.revision

/-- `_parse_ref` -/
def parseRef (ref : Text) : Except (CatalogError ε) (Text × Option Nat) :=
  match rpartition '@' ref with
  | none => .ok (ref, none)
  | some (name, rawRevision) =>
    match decimals rawRevision with
    | none => .error .invalidRevision
    | some revision =>
      if revision < 1 then .error .invalidRevision else .ok (name, some revision)

def describe (s : CatalogFiles α) (ref : Text) :
    Except (CatalogError ε) (CaptureResourceDocument α) := do
  match ← parseRef ref with
  | (name, none) =>
    match latest root s name with
    | none => .error (.notFound ref)
    | some resource => .ok resource
  | (name, some revision) =>
    match s.resources.get (descriptorPath root name revision) with
    | none => .error (.notFound ref)
    | some row => .ok row.2

/-- The loop of `_stage`: the source is what its `read` returns, an empty chunk ends it. -/
def stageChunks (name : Nat) : Nat → Bytes → List Bytes → Catalog ε α (Nat × Bytes)
  | size, content, [] => do
    quietly
    pure (size, content)
  | size, content, chunk :: chunks => do
    quietly
    if chunk = [] then pure (size, content)
    else if maximumBytes < size + chunk.length then .raise (.exceedsLimit maximumBytes)
    else do
      fileOperation fun s => ((), s.append name chunk)
      stageChunks name (size + chunk.length) (content ++ chunk) chunks

/-- `_stage`: the temporary file, the digest of its content and its size. -/
def stage (source : List Bytes) : Catalog ε α (Nat × Digest × Nat) := do
  let name ← fileOperation makeStaged
  .tryExcept (do
      let (size, content) ← stageChunks maximumBytes name 0 [] source
      quietly
      pure (name, sha256 content, size))
    fun error => do
      .pureState fun s => ((), s.unlinkStaged name)
      .raise error

/-- `_write_descriptor` -/
def writeDescriptor (document : CaptureResourceDocument α) : Catalog ε α Unit := do
  quietly
  let name ← fileOperation makeDraft
  .tryFinally (do
      fileOperation fun s => ((), s.writeDraft name document)
      quietly
      fileOperation fun s =>
        ((), s.replaceDescriptor name (descriptorPath root document.name document.revision)))
    (.pureState fun s => ((), s.unlinkDraft name))

/-- `analyze_capture` of a temporary file. -/
def analyzeStaged (name : Nat) : Catalog ε α α := do
  let content ← fileOperation fun s => (s.stagedContent name, s)
  .ofExcept ((analyze content).mapError .analysis)

/-- The temporary file becomes the object of its digest, unless that is there. -/
def placeObject (descriptor : Nat) (digest : Digest) : Catalog ε α Unit := do
  if ← fileOperation fun s => ((s.objects digest).isSome, s) then
    fileOperation fun s => ((), s.unlinkStaged descriptor)
  else
    fileOperation fun s => ((), s.replaceObject descriptor digest)

/-- What `publish` does once it has staged content that is not that of the latest revision. -/
def publishRevision (name : Text) (description : Option Text) (descriptor : Nat) (digest : Digest)
    (size revision : Nat) : Catalog ε α (CaptureResourceDocument α) := do
  let analysis ← analyzeStaged analyze descriptor
  let metadata ← .ofExcept (captureMetadata name revision description)
  let document : CaptureResourceDocument α := ⟨metadata, digest, size, analysis⟩
  quietly
  placeObject descriptor digest
  writeDescriptor root document
  pure document

def publish (name : Text) (source : List Bytes) (description : Option Text) :
    Catalog ε α (CaptureResourceDocument α) := do
  let _ ← .ofExcept (captureMetadata name 1 description)
  quietly
  let (descriptor, digest, size) ← stage maximumBytes sha256 source
  .tryFinally (do
      match ← fileOperation fun s => (latest root s name, s) with
      | none => publishRevision root analyze name description descriptor digest size 1
      | some existing =>
        if existing.digest = digest then pure existing
        else
          publishRevision root analyze name description descriptor digest size
            (existing.revision + 1))
    (.pureState fun s => ((), s.unlinkStaged descriptor))

/-- A call of `publish`, with the fates of its operations. -/
structure Publication where
  name : Text
  source : List Bytes
  description : Option Text
  fates : List Fate

/-- The result of a call, and the files after it. -/
def Publication.call (p : Publication) (s : CatalogFiles α) :
    Except (Halt (CatalogError ε)) (CaptureResourceDocument α) × CatalogFiles α :=
  let (result, files, _) :=
    publish root maximumBytes sha256 analyze p.name p.source p.description (s, p.fates)
  (result, files)

/-- The files after a sequence of calls. -/
def publishAll (calls : List Publication) (s : CatalogFiles α) : CatalogFiles α :=
  calls.foldl (fun files p => (p.call root maximumBytes sha256 analyze files).2) s

end

/-- The content that a source delivers. -/
def contentOf (source : List Bytes) : Bytes := (source.takeWhile (· ≠ [])).flatten

end TrexCli.Capture
