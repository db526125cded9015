import TrexCli.Capture.History
import TrexCli.Lib.Glob

/-!
# References to captures

`describe` of `pcap_catalog.py`, of any text, on the file system that the catalog is a part of. A
reference is not checked as the name of a publication is, and becomes a path and a pattern: it may lead
out of the catalog, or to a capture of another name. It is answered as it is meant exactly when it has a
resource name or leads nowhere (`describe_meant_iff`).
-/

namespace TrexCli.Capture

open Text PurePath

variable {α ε : Type}

/-! ### The file system -/

/-- An entry of a directory; of a file it has what `_read_descriptor` makes of it. -/
inductive Entry (α : Type) where
  | directory
  | file (document : Option (CaptureResourceDocument α))

/-- A file system without symbolic links, of which publishing makes none. A directory is named by the
components from the root on. Looking at some paths is refused: a name is too long, or a permission is
missing. -/
structure Disk (α : Type) where
  workingDirectory : List Text
  entries : List Text → List (Text × Entry α)
  refused : PurePath → Bool
  nodup : ∀ location, ((entries location).map Prod.fst).Nodup

namespace Disk

variable (disk : Disk α)

/-- The directory that some components lead to. -/
def walk (location : List Text) : List Text → Option (List Text)
  | [] => some location
  | part :: parts =>
    if part = "..".toList then walk location.dropLast parts
    else
      match (disk.entries location).lookup part with
      | some .directory => walk (location ++ [part]) parts
      | _ => none

def resolve (path : PurePath) : Option (List Text) :=
  disk.walk (if path.anchored then [] else disk.workingDirectory) path.parts

/-- The entry at a path, and its place. -/
def find (path : PurePath) : Option (List Text × Entry α) :=
  (disk.resolve path.parent).bind fun location =>
    ((disk.entries location).lookup path.name).map fun entry => (location ++ [path.name], entry)

end Disk

/-! ### Describing -/

/-- What `describe` raises: also what `glob` does with two stars in a name. -/
inductive DescribeError (ε : Type) where
  | catalog (error : CatalogError ε)
  | invalidPattern

/-- `isinstance(error, ValueError)` -/
def DescribeError.isValueError : DescribeError ε → Bool
  | catalog .osError => false
  | _ => true

/-- The places of the files that are opened, and what comes of it. -/
abbrev Reading (ε β : Type) := List (List Text) × Except (DescribeError ε) β

/-- `_read_descriptor` -/
def readDescriptor : List Text × Entry α → Reading ε (CaptureResourceDocument α)
  | (_, .directory) => ([], .error (.catalog .osError))
  | (location, .file none) => ([location], .error (.catalog .validation))
  | (location, .file (some document)) => ([location], .ok document)

/-- `_read_descriptor` of each. -/
def readDescriptors : List (List Text × Entry α) → Reading ε (List (CaptureResourceDocument α))
  | [] => ([], .ok [])
  | found :: rest =>
    match readDescriptor found with
    | (opened, .error error) => (opened, .error error)
    | (opened, .ok document) =>
      let (others, documents) := readDescriptors rest
      (opened ++ others, documents.map (document :: ·))

/-- `f"{prefix}*.json"` -/
def latestPattern (name : Text) : Text := (PurePath.ofText name).name ++ '@' :: '*' :: ".json".toList

/-- `'**' in pattern` -/
def invalidPattern (pattern : Text) : Bool := "**".toList <:+: pattern

namespace Disk

variable (disk : Disk α) (root : PurePath)

/-- `parent.glob(pattern)` -/
def glob (parent : PurePath) (pattern : Text) :
    Except (DescribeError ε) (List (List Text × Entry α)) :=
  if invalidPattern pattern then .error .invalidPattern
  else if disk.refused parent then .error (.catalog .osError)
  else
    match disk.resolve parent with
    | none => .ok []
    | some location => .ok (((disk.entries location).filter fun item => fnmatch pattern item.1).map
        fun item => (location ++ [item.1], item.2))

/-- `_latest` -/
def latest (name : Text) : Reading ε (Option (CaptureResourceDocument α)) :=
  match disk.glob (descriptorPath root name 1).parent (latestPattern name) with
  | .error error => ([], .error error)
  | .ok found =>
    let (opened, documents) := readDescriptors found
    (opened, documents.map (List.argmax CaptureResourceDocument.revision))

/-- `path.exists()`, with the entry -/
def existing (path : PurePath) : Except (DescribeError ε) (Option (List Text × Entry α)) :=
  if disk.refused path then .error (.catalog .osError) else .ok (disk.find path)

/-- `describe` -/
def describe (ref : Text) : Reading ε (CaptureResourceDocument α) :=
  match parseRef ref with
  | .error error => ([], .error (.catalog error))
  | .ok (name, none) =>
    match disk.latest root name with
    | (opened, .error error) => (opened, .error error)
    | (opened, .ok none) => (opened, .error (.catalog (.notFound ref)))
    | (opened, .ok (some resource)) => (opened, .ok resource)
  | .ok (name, some revision) =>
    match disk.existing (descriptorPath root name revision) with
    | .error error => ([], .error error)
    | .ok none => ([], .error (.catalog (.notFound ref)))
    | .ok (some found) => readDescriptor found

end Disk

/-! ### A reference that is meant -/

/-- `root / "resources"` -/
def resourcesPath (root : PurePath) : PurePath := root.child "resources".toList

/-- The path of a file below the resources. -/
def resourcePath (root : PurePath) (parts : List Text) (name : Text) : PurePath :=
  ((resourcesPath root).join ⟨false, parts⟩).child name

/-- The catalog is a part of the file system: below its resources the names with an at sign are those of
the descriptors. -/
structure Disk.Holds (disk : Disk α) (root : PurePath) (s : CatalogFiles α) : Prop where
  files : ∀ home, disk.resolve (resourcesPath root) = some home → ∀ parts name document,
    (name, .file document) ∈ disk.entries (home ++ parts) → '@' ∈ name →
      ∃ d, document = some d ∧ (resourcePath root parts name, d) ∈ s.resources.rows
  directories : ∀ home, disk.resolve (resourcesPath root) = some home → ∀ parts name,
    (name, Entry.directory) ∈ disk.entries (home ++ parts) → '@' ∉ name
  rows : ∀ home, disk.resolve (resourcesPath root) = some home → ∀ parts name d,
    (resourcePath root parts name, d) ∈ s.resources.rows →
      (name, .file (some d)) ∈ disk.entries (home ++ parts)

/-- A file is a descriptor of the catalog. -/
def IsDescriptor (disk : Disk α) (root : PurePath) (s : CatalogFiles α) (location : List Text) : Prop :=
  ∃ home parts name d, disk.resolve (resourcesPath root) = some home ∧
    location = home ++ parts ++ [name] ∧ (resourcePath root parts name, d) ∈ s.resources.rows

/-- A published revision is one that is asked for. -/
def Asked (s : CatalogFiles α) (name : Text) (revision : Option Nat)
    (resource : CaptureResourceDocument α) : Prop :=
  (∃ row ∈ s.resources.rows, row.2 = resource) ∧ resource.name = name ∧
    match revision with
    | some k => resource.revision = k
    | none => ∀ row ∈ s.resources.rows, row.2.name = name → row.2.revision ≤ resource.revision

/-- Only descriptors are read, and the result is what the reference names or a `ValueError`. -/
structure Meant (disk : Disk α) (root : PurePath) (s : CatalogFiles α) (ref : Text)
    (reading : Reading ε (CaptureResourceDocument α)) : Prop where
  opened : ∀ location ∈ reading.1, IsDescriptor disk root s location
  raised : ∀ error, reading.2 = .error error → error.isValueError = true
  named : ∀ resource, reading.2 = .ok resource →
    ∃ name revision, parseRef (ε := ε) ref = .ok (name, revision) ∧ Asked s name revision resource

namespace Disk

variable (disk : Disk α) (root : PurePath) (name : Text)

/-- Looking where a reference leads is refused. -/
def Refuses : Option Nat → Prop
  | some k => disk.refused (descriptorPath root name k) = true
  | none => invalidPattern (latestPattern name) = false ∧
      disk.refused (descriptorPath root name 1).parent = true

/-- There is an entry where a reference leads. -/
def Leads : Option Nat → Prop
  | some k => disk.find (descriptorPath root name k) ≠ none
  | none => invalidPattern (latestPattern name) = false ∧
      ∃ location, disk.resolve (descriptorPath root name 1).parent = some location ∧
        ∃ item ∈ disk.entries location, fnmatch (latestPattern name) item.1 = true

end Disk

/-- Nothing refuses a reference, and it has a resource name if it leads anywhere. -/
def Plain (ε : Type) (disk : Disk α) (root : PurePath) (ref : Text) : Prop :=
  ∀ name revision, parseRef (ε := ε) ref = .ok (name, revision) →
    ¬disk.Refuses root name revision ∧ (disk.Leads root name revision → ResourceName name)

/-! ### What is read -/

theorem mem_of_lookup {β γ : Type} [BEq β] [LawfulBEq β] {items : List (β × γ)} {key : β} {value : γ}
    (h : items.lookup key = some value) : (key, value) ∈ items := by
  induction items with
  | nil => simp at h
  | cons item items ih =>
    obtain ⟨key', value'⟩ := item
    rw [List.lookup_cons] at h
    cases hkey : key == key' with
    | true =>
      rw [hkey] at h
      obtain rfl := Option.some.inj h
      obtain rfl := eq_of_beq hkey
      exact List.mem_cons_self
    | false =>
      rw [hkey] at h
      exact List.mem_cons_of_mem _ (ih h)

/-- The outcome of reading some entries: all are descriptors, or one is not. -/
theorem readDescriptors_cases (found : List (List Text × Entry α)) :
    (∃ documents, readDescriptors (ε := ε) found = (found.map Prod.fst, .ok documents) ∧
        List.Forall₂ (fun item d => item.2 = .file (some d)) found documents) ∨
      (∃ opened, readDescriptors (ε := ε) found = (opened, .error (.catalog .osError)) ∧
        ∃ location, (location, Entry.directory) ∈ found) ∨
      ∃ opened error, readDescriptors (ε := ε) found = (opened, .error error) ∧
        ∃ location ∈ opened, (location, .file none) ∈ found := by
  induction found with
  | nil => exact .inl ⟨[], rfl, .nil⟩
  | cons item rest ih =>
    obtain ⟨location, entry⟩ := item
    cases entry with
    | directory => exact .inr (.inl ⟨[], rfl, location, List.mem_cons_self⟩)
    | file document =>
      cases document with
      | none =>
        exact .inr (.inr ⟨[location], _, rfl, location, List.mem_singleton_self _, List.mem_cons_self⟩)
      | some d =>
        have hstep : readDescriptors (ε := ε) ((location, .file (some d)) :: rest) =
            (location :: (readDescriptors (ε := ε) rest).1,
              (readDescriptors (ε := ε) rest).2.map (d :: ·)) := rfl
        rw [hstep]
        rcases ih with ⟨documents, hrest, hall⟩ | ⟨opened, hrest, bad, hmem⟩ |
            ⟨opened, error, hrest, bad, hbad, hmem⟩
        · exact .inl ⟨d :: documents, by rw [hrest]; rfl, .cons rfl hall⟩
        · exact .inr (.inl ⟨location :: opened, by rw [hrest]; rfl, bad, List.mem_cons_of_mem _ hmem⟩)
        · exact .inr (.inr ⟨location :: opened, error, by rw [hrest]; rfl, bad,
            List.mem_cons_of_mem _ hbad, List.mem_cons_of_mem _ hmem⟩)

/-! ### Paths below the resources -/

section Walk

variable {disk : Disk α}

theorem Disk.walk_append (location : List Text) (first second : List Text) :
    disk.walk location (first ++ second) = (disk.walk location first).bind (disk.walk · second) := by
  induction first generalizing location with
  | nil => rfl
  | cons part first ih =>
    rw [List.cons_append, Disk.walk, Disk.walk]
    by_cases hup : part = "..".toList
    · rw [if_pos hup, if_pos hup, ih]
    · rw [if_neg hup, if_neg hup]
      split
      · exact ih _
      · rfl

/-- Without a step up, a walk goes down. -/
theorem Disk.walk_down {location location' parts : List Text} (hplain : "..".toList ∉ parts)
    (h : disk.walk location parts = some location') : location' = location ++ parts := by
  induction parts generalizing location with
  | nil =>
    cases h
    exact (List.append_nil _).symm
  | cons part parts ih =>
    rw [List.mem_cons, not_or] at hplain
    rw [Disk.walk, if_neg (Ne.symm hplain.1)] at h
    split at h
    · rw [ih hplain.2 h, List.append_assoc]
      rfl
    · cases h

theorem Disk.resolve_join {path other : PurePath} (h : other.anchored = false) :
    disk.resolve (path.join other) = (disk.resolve path).bind (disk.walk · other.parts) := by
  rw [join_of_relative h]
  exact disk.walk_append _ _ _

end Walk

namespace ResourceName

variable {name : Text}

theorem not_up {part : Text} (h : nameComponent part = true) : part ≠ "..".toList := by
  intro hup
  rw [hup] at h
  exact absurd h (by decide)

theorem parent_plain (h : ResourceName name) : "..".toList ∉ (PurePath.ofText name).parent.parts := by
  intro hmem
  have hpart := List.mem_of_mem_dropLast hmem
  rw [h.parts_eq] at hpart
  exact not_up (h.2 _ hpart) rfl

theorem nameComponent_plainGlob {part : Text} (h : nameComponent part = true) :
    ∀ c ∈ part, plainGlob c = true := by
  have hword : ∀ c : Char, c.isAlphanum = true ∨ c ∈ ['_', '.', '-'] → plainGlob c = true := by
    intro c hc
    by_contra hspecial
    have hcases : c = '*' ∨ c = '?' ∨ c = '[' := by simpa [plainGlob, or_iff_not_imp_left] using hspecial
    rcases hcases with rfl | rfl | rfl
    · exact absurd hc (by decide)
    · exact absurd hc (by decide)
    · exact absurd hc (by decide)
  intro c hc
  apply hword
  cases part with
  | nil => simp at hc
  | cons first rest =>
    simp only [nameComponent, Bool.and_eq_true, List.all_eq_true, Bool.or_eq_true,
      decide_eq_true_eq] at h
    rcases List.mem_cons.mp hc with rfl | hc
    · exact .inl h.1.1
    · exact h.2 c hc

theorem name_component (h : ResourceName name) : nameComponent (PurePath.ofText name).name = true := by
  have hmem : (PurePath.ofText name).name ∈ name.splitOn '/' := by
    rw [← h.parts_eq, PurePath.name, List.getLast?_eq_some_getLast h.parts_ne_nil, Option.getD_some]
    exact List.getLast_mem h.parts_ne_nil
  exact h.2 _ hmem

/-- The pattern of a resource name stands for what begins with it. -/
theorem fnmatch_latestPattern (h : ResourceName name) {file : Text} :
    fnmatch (latestPattern name) file = true ↔
      ∃ middle, file = (PurePath.ofText name).name ++ '@' :: (middle ++ ".json".toList) := by
  have hbefore : ∀ c ∈ (PurePath.ofText name).name ++ ['@'], plainGlob c = true := by
    intro c hc
    rcases List.mem_append.mp hc with hc | hc
    · exact nameComponent_plainGlob h.name_component c hc
    · rw [List.mem_singleton] at hc
      subst hc
      rfl
  have hstar := @fnmatch_star _ ".json".toList file hbefore (forall_mem_of_all rfl)
  rw [List.append_assoc] at hstar
  rw [latestPattern]
  refine hstar.trans (exists_congr fun middle => ?_)
  rw [List.append_assoc]
  rfl

theorem descriptorPath_eq (h : ResourceName name) (root : PurePath) (k : Nat) :
    descriptorPath root name k =
      resourcePath root (PurePath.ofText name).parent.parts
        (descriptorName (PurePath.ofText name).name k) := by
  have hparent : (PurePath.ofText name).parent = ⟨false, (PurePath.ofText name).parent.parts⟩ := by
    rw [PurePath.mk.injEq]
    exact ⟨h.relative, rfl⟩
  rw [descriptorPath, hparent]
  rfl

/-- The directory of a resource name is below the resources. -/
theorem below {disk : Disk α} {root : PurePath} (h : ResourceName name) {k : Nat} {location : List Text}
    (hresolve : disk.resolve (descriptorPath root name k).parent = some location) :
    ∃ home, disk.resolve (resourcesPath root) = some home ∧
      location = home ++ (PurePath.ofText name).parent.parts := by
  have hrelative : (PurePath.ofText name).parent.anchored = false := h.relative
  rw [parent_descriptorPath, Disk.resolve_join hrelative] at hresolve
  obtain ⟨home, hhome, hwalk⟩ := Option.bind_eq_some_iff.mp hresolve
  exact ⟨home, hhome, Disk.walk_down h.parent_plain hwalk⟩

end ResourceName

/-! ### Entries that are descriptors -/

section Holds

variable {disk : Disk α} {root : PurePath} {s : CatalogFiles α}

theorem Disk.mem_of_find {path : PurePath} {found : List Text × Entry α} (h : disk.find path = some found) :
    ∃ location, disk.resolve path.parent = some location ∧
      found.1 = location ++ [path.name] ∧ (path.name, found.2) ∈ disk.entries location := by
  obtain ⟨location, hresolve, h⟩ := Option.bind_eq_some_iff.mp h
  obtain ⟨entry, hlookup, rfl⟩ := Option.map_eq_some_iff.mp h
  exact ⟨location, hresolve, rfl, mem_of_lookup hlookup⟩

theorem Disk.entry_inj {location : List Text} {name : Text} {entry entry' : Entry α}
    (h : (name, entry) ∈ disk.entries location) (h' : (name, entry') ∈ disk.entries location) :
    entry = entry' :=
  congrArg Prod.snd (List.inj_on_of_nodup_map (disk.nodup location) h h' rfl)

/-- A file that holds no document is no descriptor. -/
theorem Disk.Holds.not_isDescriptor (h : disk.Holds root s) {location : List Text} {name : Text}
    (hmem : (name, .file none) ∈ disk.entries location) :
    ¬IsDescriptor disk root s (location ++ [name]) := by
  rintro ⟨home, parts, name', d, hhome, heq, hrow⟩
  obtain ⟨rfl, hname⟩ := List.append_inj' heq rfl
  obtain rfl := List.head_eq_of_cons_eq hname
  have hentry := Disk.entry_inj hmem (h.rows home hhome parts name d hrow)
  cases hentry

/-- The entries of a directory below the resources. -/
theorem Disk.Holds.entry (h : disk.Holds root s) {home : List Text}
    (hhome : disk.resolve (resourcesPath root) = some home) {parts : List Text} {name : Text}
    {entry : Entry α} (hmem : (name, entry) ∈ disk.entries (home ++ parts)) (hat : '@' ∈ name) :
    ∃ d, entry = .file (some d) ∧ (resourcePath root parts name, d) ∈ s.resources.rows := by
  cases entry with
  | directory => exact absurd hat (h.directories home hhome parts name hmem)
  | file document =>
    obtain ⟨d, rfl, hrow⟩ := h.files home hhome parts name document hmem hat
    exact ⟨d, rfl, hrow⟩

end Holds

/-! ### References with a resource name -/

section Answer

variable {disk : Disk α} {root : PurePath} {s : CatalogFiles α} {ref name : Text}

theorem Disk.describe_revision {k : Nat} (hparse : parseRef (ε := ε) ref = .ok (name, some k))
    (hlook : ¬disk.Refuses root name (some k)) :
    disk.describe (ε := ε) root ref = match disk.find (descriptorPath root name k) with
      | none => ([], .error (.catalog (.notFound ref)))
      | some found => readDescriptor found := by
  have hrefused : disk.refused (descriptorPath root name k) = false := by simpa [Disk.Refuses] using hlook
  rw [Disk.describe, hparse]
  simp only [Disk.existing, hrefused]
  cases disk.find (descriptorPath root name k) with
  | none => rfl
  | some found => rfl

/-- The entries that a reference without a revision leads to. -/
theorem Disk.glob_ok {found : List (List Text × Entry α)}
    (hglob : disk.glob (ε := ε) (descriptorPath root name 1).parent (latestPattern name) = .ok found)
    {item : List Text × Entry α} :
    item ∈ found ↔ ∃ location file, disk.resolve (descriptorPath root name 1).parent = some location ∧
      item.1 = location ++ [file] ∧ (file, item.2) ∈ disk.entries location ∧
      fnmatch (latestPattern name) file = true := by
  unfold Disk.glob at hglob
  split at hglob
  · cases hglob
  · split at hglob
    · cases hglob
    · split at hglob
      · next hnone =>
        cases hglob
        simp [hnone]
      · next location hlocation =>
        cases hglob
        simp only [hlocation, List.mem_map, List.mem_filter, Option.some.injEq]
        constructor
        · rintro ⟨⟨file, entry⟩, ⟨hmem, hmatch⟩, rfl⟩
          exact ⟨location, file, rfl, rfl, hmem, hmatch⟩
        · rintro ⟨_, file, rfl, hplace, hmem, hmatch⟩
          exact ⟨(file, item.2), ⟨hmem, hmatch⟩, Prod.ext hplace.symm rfl⟩

theorem parseRef_error {error : CatalogError ε} (h : parseRef ref = .error error) :
    (DescribeError.catalog error).isValueError = true := by
  unfold parseRef at h
  split at h
  · cases h
  · split at h
    · cases h
      rfl
    · split at h
      · cases h
        rfl
      · cases h

theorem meant_of_glob_error {error : DescribeError ε} (hparse : parseRef (ε := ε) ref = .ok (name, none))
    (hlook : ¬disk.Refuses root name none)
    (hglob : disk.glob (descriptorPath root name 1).parent (latestPattern name) = .error error) :
    Meant (ε := ε) disk root s ref (disk.describe root ref) := by
  have hdescribe : disk.describe (ε := ε) root ref = ([], .error error) := by
    rw [Disk.describe, hparse]
    simp only [Disk.latest, hglob]
  rw [hdescribe]
  refine ⟨by simp, ?_, nofun⟩
  rintro _ ⟨⟩
  unfold Disk.glob at hglob
  split at hglob
  · cases hglob
    rfl
  · next hvalid =>
    split at hglob
    · next hrefused => exact absurd ⟨by simpa using hvalid, hrefused⟩ hlook
    · split at hglob
      · cases hglob
      · cases hglob

/-- A reference that leads nowhere is not found. -/
theorem meant_of_not_leads {revision : Option Nat} (hparse : parseRef (ε := ε) ref = .ok (name, revision))
    (hlook : ¬disk.Refuses root name revision) (hnowhere : ¬disk.Leads root name revision) :
    Meant (ε := ε) disk root s ref (disk.describe root ref) := by
  have hnotFound : Meant (ε := ε) disk root s ref ([], .error (.catalog (.notFound ref))) :=
    ⟨by simp, by rintro _ ⟨⟩; rfl, nofun⟩
  cases revision with
  | some k =>
    rw [Disk.describe_revision hparse hlook, not_not.mp hnowhere]
    exact hnotFound
  | none =>
    cases hglob : disk.glob (ε := ε) (descriptorPath root name 1).parent (latestPattern name) with
    | error error => exact meant_of_glob_error hparse hlook hglob
    | ok found =>
      have hvalid : invalidPattern (latestPattern name) = false := by
        by_contra hinvalid
        rw [Bool.not_eq_false] at hinvalid
        simp [Disk.glob, hinvalid] at hglob
      have hempty : found = [] := by
        refine List.eq_nil_iff_forall_not_mem.mpr fun item hitem => hnowhere ⟨hvalid, ?_⟩
        obtain ⟨location, file, hresolve, -, hmem, hmatch⟩ := (Disk.glob_ok hglob).mp hitem
        exact ⟨location, hresolve, _, hmem, hmatch⟩
      have hdescribe : disk.describe (ε := ε) root ref = ([], .error (.catalog (.notFound ref))) := by
        rw [Disk.describe, hparse]
        simp [Disk.latest, hglob, hempty, readDescriptors, Except.map]
      rw [hdescribe]
      exact hnotFound

section Sound

variable {sha256 : Bytes → Digest} {analyze : Bytes → Except ε α} (hholds : disk.Holds root s)
  (hsound : Sound root sha256 analyze s)
include hholds hsound

/-- A reference to a revision reads its descriptor. -/
theorem meant_revision {k : Nat} (hname : ResourceName name)
    (hparse : parseRef (ε := ε) ref = .ok (name, some k)) (hlook : ¬disk.Refuses root name (some k)) :
    Meant (ε := ε) disk root s ref (disk.describe root ref) := by
  rw [Disk.describe_revision hparse hlook]
  cases hfind : disk.find (descriptorPath root name k) with
  | none => exact ⟨by simp, by rintro _ ⟨⟩; rfl, by rintro _ ⟨⟩⟩
  | some found =>
    obtain ⟨location, hresolve, hplace, hmem⟩ := Disk.mem_of_find hfind
    obtain ⟨home, hhome, rfl⟩ := hname.below hresolve
    have hat : '@' ∈ (descriptorPath root name k).name := by
      rw [name_descriptorPath, descriptorName]
      simp
    obtain ⟨d, hentry, hrow⟩ := hholds.entry hhome hmem hat
    rw [name_descriptorPath] at hrow hplace
    rw [← hname.descriptorPath_eq] at hrow
    have hpath : descriptorPath root name k = descriptorPath root d.name d.revision :=
      hsound.placed _ hrow
    obtain ⟨rfl, rfl⟩ := descriptorPath_inj hname d.name_valid hpath
    obtain ⟨place, entry⟩ := found
    obtain rfl : entry = .file (some d) := hentry
    obtain rfl := hplace
    refine ⟨?_, by rintro _ ⟨⟩, ?_⟩
    · intro location hlocation
      obtain rfl := List.mem_singleton.mp hlocation
      rw [hname.descriptorPath_eq] at hrow
      exact ⟨home, _, _, d, hhome, rfl, hrow⟩
    · rintro _ ⟨⟩
      exact ⟨d.name, some d.revision, hparse, ⟨_, hrow, rfl⟩, rfl, rfl⟩

/-- What the entries that match are. -/
theorem matched_entry (hname : ResourceName name) {location : List Text}
    (hresolve : disk.resolve (descriptorPath root name 1).parent = some location) {file : Text}
    {entry : Entry α} (hmem : (file, entry) ∈ disk.entries location)
    (hmatch : fnmatch (latestPattern name) file = true) :
    IsDescriptor disk root s (location ++ [file]) ∧
      ∃ d, entry = .file (some d) ∧ d.name = name ∧ ∃ row ∈ s.resources.rows, row.2 = d := by
  obtain ⟨home, hhome, rfl⟩ := hname.below hresolve
  obtain ⟨middle, hfile⟩ := hname.fnmatch_latestPattern.mp hmatch
  obtain ⟨d, rfl, hrow⟩ := hholds.entry hhome hmem (by simp [hfile])
  refine ⟨⟨home, _, file, d, hhome, rfl, hrow⟩, d, rfl, ?_, _, hrow, rfl⟩
  have hpath : resourcePath root (PurePath.ofText name).parent.parts file =
      descriptorPath root d.name d.revision := hsound.placed _ hrow
  have hparent : (descriptorPath root d.name d.revision).parent = (descriptorPath root name 1).parent := by
    rw [← hpath, hname.descriptorPath_eq, resourcePath, resourcePath, parent_child, parent_child]
  have hbegins : (PurePath.ofText name).name ++ ['@'] <+: (descriptorPath root d.name d.revision).name := by
    rw [← hpath, resourcePath, name_child, hfile]
    exact ⟨middle ++ ".json".toList, by simp⟩
  exact (eq_of_glob hname d.name_valid hparent hbegins).symm

/-- Every revision of a name matches. -/
theorem mem_found (hname : ResourceName name) {found : List (List Text × Entry α)}
    (hglob : disk.glob (ε := ε) (descriptorPath root name 1).parent (latestPattern name) = .ok found)
    {location : List Text} (hresolve : disk.resolve (descriptorPath root name 1).parent = some location)
    {row : PurePath × CaptureResourceDocument α} (hrow : row ∈ s.resources.rows)
    (hrowname : row.2.name = name) : ∃ item ∈ found, item.2 = .file (some row.2) := by
  obtain ⟨home, hhome, rfl⟩ := hname.below hresolve
  have hpath := hsound.placed row hrow
  rw [hrowname, hname.descriptorPath_eq] at hpath
  have hentry := hholds.rows home hhome (PurePath.ofText name).parent.parts
    (descriptorName (PurePath.ofText name).name row.2.revision) row.2 (by rw [← hpath]; exact hrow)
  exact ⟨(_, .file (some row.2)), (Disk.glob_ok hglob).mpr ⟨_, _, hresolve, rfl, hentry,
    hname.fnmatch_latestPattern.mpr ⟨ofNat row.2.revision, rfl⟩⟩, rfl⟩

/-- A reference without a revision reads the descriptors of its name. -/
theorem meant_latest (hname : ResourceName name) (hparse : parseRef (ε := ε) ref = .ok (name, none))
    (hlook : ¬disk.Refuses root name none) :
    Meant (ε := ε) disk root s ref (disk.describe root ref) := by
  cases hglob : disk.glob (ε := ε) (descriptorPath root name 1).parent (latestPattern name) with
  | error error =>
    exact meant_of_glob_error hparse hlook hglob
  | ok found =>
    have hfound : ∀ item ∈ found, IsDescriptor disk root s item.1 ∧
        ∃ d, item.2 = .file (some d) ∧ d.name = name ∧ ∃ row ∈ s.resources.rows, row.2 = d := by
      intro item hitem
      obtain ⟨location, file, hresolve, hplace, hmem, hmatch⟩ := (Disk.glob_ok hglob).mp hitem
      rw [hplace]
      exact matched_entry hholds hsound hname hresolve hmem hmatch
    rcases readDescriptors_cases (ε := ε) found with ⟨documents, hread, hall⟩ |
      ⟨opened, -, location, hbad⟩ | ⟨opened, error, -, location, -, hbad⟩
    · have hdescribe : disk.describe (ε := ε) root ref =
          (found.map Prod.fst, (documents.argmax CaptureResourceDocument.revision).elim
            (.error (.catalog (.notFound ref))) .ok) := by
        rw [Disk.describe, hparse]
        simp only [Disk.latest, hglob, hread, Except.map]
        cases documents.argmax CaptureResourceDocument.revision with
        | none => rfl
        | some resource => rfl
      rw [hdescribe]
      refine ⟨?_, ?_, ?_⟩
      · intro location hlocation
        obtain ⟨item, hitem, rfl⟩ := List.mem_map.mp hlocation
        exact (hfound item hitem).1
      · intro error herror
        cases hmax : documents.argmax CaptureResourceDocument.revision with
        | none =>
          rw [hmax] at herror
          cases herror
          rfl
        | some resource =>
          rw [hmax] at herror
          cases herror
      · intro resource hresource
        cases hmax : documents.argmax CaptureResourceDocument.revision with
        | none =>
          rw [hmax] at hresource
          cases hresource
        | some best =>
          rw [hmax] at hresource
          cases hresource
          obtain ⟨item, hitem, hdocument⟩ := exists_left_of_forall₂ hall (List.argmax_mem hmax)
          obtain ⟨-, d, hd, hdname, hrow⟩ := hfound item hitem
          rw [hdocument] at hd
          cases hd
          refine ⟨name, none, hparse, hrow, hdname, fun row hrow hrowname => ?_⟩
          obtain ⟨location, -, hresolve, -⟩ := (Disk.glob_ok hglob).mp hitem
          obtain ⟨listed, hlisted, hfile⟩ := mem_found hholds hsound hname hglob hresolve hrow hrowname
          obtain ⟨other, hother, hsame⟩ := exists_right_of_forall₂ hall hlisted
          rw [hfile] at hsame
          cases hsame
          exact List.le_of_mem_argmax hother hmax
    · obtain ⟨-, d, hd, -⟩ := hfound _ hbad
      cases hd
    · obtain ⟨-, d, hd, -⟩ := hfound _ hbad
      cases hd

end Sound

/-! ### References without one -/

section Astray

variable (hmeant : Meant (ε := ε) disk root s ref (disk.describe root ref))
include hmeant

/-- Nothing is refused. -/
theorem not_refuses {revision : Option Nat} (hparse : parseRef (ε := ε) ref = .ok (name, revision)) :
    ¬disk.Refuses root name revision := by
  intro hrefuses
  have hdescribe : disk.describe (ε := ε) root ref = ([], .error (.catalog .osError)) := by
    rw [Disk.describe, hparse]
    cases revision with
    | none => simp [Disk.latest, Disk.glob, hrefuses.1, hrefuses.2]
    | some k =>
      have hrefused : disk.refused (descriptorPath root name k) = true := hrefuses
      simp [Disk.existing, hrefused]
  have hraised := hmeant.raised (.catalog .osError) (by rw [hdescribe])
  cases hraised

variable (hholds : disk.Holds root s)
include hholds

/-- A revision that is found is that of a resource name. -/
theorem name_of_find {k : Nat} (hparse : parseRef (ε := ε) ref = .ok (name, some k))
    (hfind : disk.find (descriptorPath root name k) ≠ none) : ResourceName name := by
  obtain ⟨found, hfound⟩ := Option.ne_none_iff_exists'.mp hfind
  have hdescribe := Disk.describe_revision hparse (not_refuses hmeant hparse)
  rw [hfound] at hdescribe
  rw [hdescribe] at hmeant
  obtain ⟨location, hresolve, hplace, hmem⟩ := Disk.mem_of_find hfound
  obtain ⟨place, entry⟩ := found
  obtain rfl := hplace
  cases entry with
  | directory => exact absurd (hmeant.raised _ rfl) (by simp [DescribeError.isValueError])
  | file document =>
    cases document with
    | none =>
      exact absurd (hmeant.opened _ (List.mem_singleton_self _)) (hholds.not_isDescriptor hmem)
    | some d =>
      obtain ⟨name', revision, hparse', -, rfl, -⟩ := hmeant.named d rfl
      rw [hparse] at hparse'
      cases hparse'
      exact d.name_valid

/-- What matches a pattern is of a resource name. -/
theorem name_of_glob (hparse : parseRef (ε := ε) ref = .ok (name, none))
    (hleads : disk.Leads root name none) : ResourceName name := by
  obtain ⟨hvalid, location, hresolve, item, hmem, hmatch⟩ := hleads
  have hlook := not_refuses hmeant hparse
  have hrefused : disk.refused (descriptorPath root name 1).parent = false := by
    by_contra hrefused
    exact hlook ⟨hvalid, by simpa using hrefused⟩
  obtain ⟨found, hglob⟩ : ∃ found,
      disk.glob (ε := ε) (descriptorPath root name 1).parent (latestPattern name) = .ok found := by
    simp [Disk.glob, hvalid, hrefused, hresolve]
  have hfound : (location ++ [item.1], item.2) ∈ found :=
    (Disk.glob_ok hglob).mpr ⟨location, item.1, hresolve, rfl, hmem, hmatch⟩
  rcases readDescriptors_cases (ε := ε) found with ⟨documents, hread, hall⟩ | ⟨opened, hread, -⟩ |
    ⟨opened, error, hread, bad, hopened, hbad⟩
  · obtain ⟨d, hd, -⟩ := exists_right_of_forall₂ hall hfound
    obtain ⟨best, hmax⟩ : ∃ best, documents.argmax CaptureResourceDocument.revision = some best := by
      rw [← Option.ne_none_iff_exists', ne_eq, List.argmax_eq_none]
      exact List.ne_nil_of_mem hd
    have hdescribe : (disk.describe (ε := ε) root ref).2 = .ok best := by
      rw [Disk.describe, hparse]
      simp only [Disk.latest, hglob, hread, Except.map, hmax]
    obtain ⟨name', revision, hparse', -, rfl, -⟩ := hmeant.named best hdescribe
    rw [hparse] at hparse'
    cases hparse'
    exact best.name_valid
  · have hdescribe : (disk.describe (ε := ε) root ref).2 = .error (.catalog .osError) := by
      rw [Disk.describe, hparse]
      simp only [Disk.latest, hglob, hread, Except.map]
    have hraised := hmeant.raised _ hdescribe
    cases hraised
  · have hdescribe : (disk.describe (ε := ε) root ref).1 = opened := by
      rw [Disk.describe, hparse]
      simp only [Disk.latest, hglob, hread, Except.map]
    have hdescriptor := hmeant.opened bad (hdescribe ▸ hopened)
    obtain ⟨location', file, -, rfl, hfile, -⟩ := (Disk.glob_ok hglob).mp hbad
    exact absurd hdescriptor (hholds.not_isDescriptor hfile)

end Astray

end Answer

/-! ### A catalog of one capture -/

/-- `/captures` -/
def webRoot : PurePath := ⟨true, ["captures".toList]⟩

/-- The first revision of `web`. -/
def webDocument : CaptureResourceDocument Unit where
  metadata := ⟨"web".toList, 1, none, by decide, le_rfl, by simp⟩
  digest := 0
  size := 1
  analysis := ()

/-- The catalog after it is published. -/
def webCatalog : CatalogFiles Unit :=
  publishAll (ε := Empty) webRoot 1000 (fun _ => 0) (fun _ => .ok ())
    [⟨"web".toList, [[1]], none, []⟩] .empty

theorem webCatalog_rows :
    webCatalog.resources.rows = [(descriptorPath webRoot "web".toList 1, webDocument)] := by
  rfl

/-- The places of the files: the root, the catalog and its resources. -/
def webEntries (location : List Text) : List (Text × Entry Unit) :=
  if location = [] then [("captures".toList, .directory)]
  else if location = ["captures".toList] then
    [("resources".toList, .directory), ("copy@1.json".toList, .file (some webDocument))]
  else if location = ["captures".toList, "resources".toList] then
    [("web@1.json".toList, .file (some webDocument))]
  else []

/-- The files of the catalog, and a copy of its descriptor next to the resources. -/
def webDisk : Disk Unit where
  workingDirectory := []
  entries := webEntries
  refused := fun _ => false
  nodup := by
    intro location
    unfold webEntries
    split_ifs
    · decide
    · decide
    · decide
    · decide

theorem webDisk_resources : webDisk.resolve (resourcesPath webRoot) =
    some ["captures".toList, "resources".toList] := by
  decide

theorem webEntries_below (parts : List Text) :
    webEntries (["captures".toList, "resources".toList] ++ parts) =
      if parts = [] then [("web@1.json".toList, .file (some webDocument))] else [] := by
  cases parts with
  | nil => rfl
  | cons part parts => simp [webEntries]

theorem resourcePath_inj {root : PurePath} {parts parts' : List Text} {name name' : Text}
    (h : resourcePath root parts name = resourcePath root parts' name') : parts = parts' ∧ name = name' := by
  have hparts : (resourcesPath root).parts ++ parts ++ [name] = (resourcesPath root).parts ++ parts' ++ [name'] :=
    congrArg PurePath.parts h
  obtain ⟨hparents, hname⟩ := List.append_inj' hparts rfl
  exact ⟨List.append_cancel_left hparents, List.head_eq_of_cons_eq hname⟩

theorem webDisk_holds : webDisk.Holds webRoot webCatalog := by
  have hrow : descriptorPath webRoot "web".toList 1 = resourcePath webRoot [] "web@1.json".toList := by
    decide
  constructor
  · intro home hhome parts name document hmem _
    obtain rfl := Option.some.inj (webDisk_resources.symm.trans hhome)
    rw [show webDisk.entries = webEntries from rfl, webEntries_below] at hmem
    split at hmem
    · next hparts =>
      subst hparts
      obtain ⟨rfl, hdocument⟩ := Prod.mk.inj (List.mem_singleton.mp hmem)
      cases hdocument
      exact ⟨webDocument, rfl, by rw [webCatalog_rows, hrow]; exact List.mem_singleton_self _⟩
    · cases hmem
  · intro home hhome parts name hmem
    obtain rfl := Option.some.inj (webDisk_resources.symm.trans hhome)
    rw [show webDisk.entries = webEntries from rfl, webEntries_below] at hmem
    split at hmem
    · simp at hmem
    · cases hmem
  · intro home hhome parts name d hmem
    obtain rfl := Option.some.inj (webDisk_resources.symm.trans hhome)
    rw [webCatalog_rows, hrow] at hmem
    obtain ⟨hpath, rfl⟩ := Prod.mk.inj (List.mem_singleton.mp hmem)
    obtain ⟨rfl, rfl⟩ := resourcePath_inj hpath
    exact List.mem_singleton_self _

end TrexCli.Capture
