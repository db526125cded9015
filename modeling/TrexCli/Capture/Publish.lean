import TrexCli.Capture.Catalog

/-!
# What a publication leaves behind

`publish` returns the latest revision when its content is published again, and otherwise adds one
descriptor after its object. Where it raises, no descriptor was added and no temporary file is left.
A crash at any point leaves the descriptors as they were before or as they are after the call.
-/

namespace TrexCli.Capture

open Faulty CatalogFiles Text

variable {α ε : Type}

/-! ### Temporary files -/

/-- The files with one more temporary file of a capture. -/
def CatalogFiles.withStaged (s : CatalogFiles α) (content : Bytes) : CatalogFiles α :=
  { s with staged := s.staged.make content }

/-- The files with one more temporary file of a descriptor. -/
def CatalogFiles.withDraft (s : CatalogFiles α) (draft : Option (CaptureResourceDocument α)) :
    CatalogFiles α :=
  { s with drafts := s.drafts.make draft }

namespace CatalogFiles

variable (s : CatalogFiles α)

@[simp] theorem append_withStaged (content chunk : Bytes) :
    (s.withStaged content).append s.staged.fresh chunk = s.withStaged (content ++ chunk) := by
  simp [withStaged, append]

@[simp] theorem unlinkStaged_withStaged (content : Bytes) :
    (s.withStaged content).unlinkStaged s.staged.fresh = s := by
  simp [withStaged, unlinkStaged]

@[simp] theorem unlinkStaged_fresh : s.unlinkStaged s.staged.fresh = s := by
  simp [unlinkStaged]

@[simp] theorem stagedContent_withStaged (content : Bytes) :
    (s.withStaged content).stagedContent s.staged.fresh = content := by
  simp [withStaged, stagedContent]

@[simp] theorem writeDraft_withDraft (document : CaptureResourceDocument α) :
    (s.withDraft none).writeDraft s.drafts.fresh document = s.withDraft (some document) := by
  simp [withDraft, writeDraft]

@[simp] theorem unlinkDraft_withDraft (draft : Option (CaptureResourceDocument α)) :
    (s.withDraft draft).unlinkDraft s.drafts.fresh = s := by
  simp [withDraft, unlinkDraft]

@[simp] theorem unlinkDraft_fresh : s.unlinkDraft s.drafts.fresh = s := by
  simp [unlinkDraft]

/-- The files with one more descriptor. -/
def withDescriptor (path : PurePath) (document : CaptureResourceDocument α) : CatalogFiles α :=
  { s with resources := s.resources.upsert (path, document) }

@[simp] theorem replaceDescriptor_withDraft (document : CaptureResourceDocument α)
    (path : PurePath) :
    (s.withDraft (some document)).replaceDescriptor s.drafts.fresh path =
      s.withDescriptor path document := by
  simp [withDraft, withDescriptor, replaceDescriptor, unlinkDraft]

/-- The files with an object: one that is there stays. -/
def withObject (digest : Digest) (content : Bytes) : CatalogFiles α :=
  { s with objects := fun d => if d = digest then some ((s.objects d).getD content) else s.objects d }

end CatalogFiles

section

variable {root : PurePath} {maximumBytes : Nat} {sha256 : Bytes → Digest}
  {analyze : Bytes → Except ε α} (s₀ : CatalogFiles α)

/-- The descriptors and the objects are as they were. -/
def Untouched (s : CatalogFiles α) : Prop := s.resources = s₀.resources ∧ s.objects = s₀.objects

theorem untouched_withStaged (content : Bytes) : Untouched s₀ (s₀.withStaged content) := ⟨rfl, rfl⟩

/-! ### Staging -/

theorem contentOf_cons {chunk : Bytes} (h : chunk ≠ []) (chunks : List Bytes) :
    contentOf (chunk :: chunks) = chunk ++ contentOf chunks := by
  rw [contentOf, List.takeWhile_cons_of_pos (by simpa using h)]
  rfl

/-- What staging `source` may raise. -/
def StageError (maximumBytes : Nat) (source : List Bytes) (error : CatalogError ε) : Prop :=
  error = .osError ∨ maximumBytes < (contentOf source).length ∧ error = .exceedsLimit maximumBytes

theorem triple_stageChunks (source : List Bytes) (content : Bytes)
    (hle : content.length ≤ maximumBytes) :
    Triple (fun s => s = s₀.withStaged content)
      (stageChunks maximumBytes s₀.staged.fresh content.length content source)
      (fun r s => r = ((content ++ contentOf source).length, content ++ contentOf source) ∧
        (content ++ contentOf source).length ≤ maximumBytes ∧
        s = s₀.withStaged (content ++ contentOf source))
      (fun (error : CatalogError ε) s => (error = .osError ∨
        maximumBytes < (content ++ contentOf source).length ∧ error = .exceedsLimit maximumBytes) ∧
        ∃ written, s = s₀.withStaged written)
      (fun s => ∃ written, s = s₀.withStaged written) := by
  induction source generalizing content with
  | nil =>
    refine Triple.bind (Q := fun _ s => s = s₀.withStaged content)
      (.operation (fun s hs => hs) (fun s hs => ⟨.inl rfl, _, hs⟩) fun s hs => ⟨_, hs⟩) fun _ => ?_
    exact .pure fun s hs => ⟨by simp [contentOf], by simpa [contentOf] using hle,
      by simpa [contentOf] using hs⟩
  | cons chunk chunks ih =>
    refine Triple.bind (Q := fun _ s => s = s₀.withStaged content)
      (.operation (fun s hs => hs) (fun s hs => ⟨.inl rfl, _, hs⟩) fun s hs => ⟨_, hs⟩) fun _ => ?_
    split
    · rename_i hempty
      exact .pure fun s hs => ⟨by simp [contentOf, hempty], by simpa [contentOf, hempty] using hle,
        by simpa [contentOf, hempty] using hs⟩
    · rename_i hchunk
      have hcontent : content ++ contentOf (chunk :: chunks) = content ++ chunk ++ contentOf chunks := by
        rw [contentOf_cons hchunk, List.append_assoc]
      rw [hcontent, ← List.length_append]
      split
      · rename_i hlt
        refine .raise fun s hs => ⟨.inr ⟨?_, rfl⟩, _, hs⟩
        rw [List.length_append]
        omega
      · rename_i hlt
        refine Triple.bind (Q := fun _ s => s = s₀.withStaged (content ++ chunk))
          (.operation (fun s hs => ?_) (fun s hs => ⟨.inl rfl, _, hs⟩) fun s hs => ⟨_, hs⟩)
          fun _ => ih (content ++ chunk) (by omega)
        show s.append _ chunk = _
        rw [hs, append_withStaged]

theorem triple_stage (source : List Bytes) :
    Triple (fun s => s = s₀) (stage maximumBytes sha256 source)
      (fun r s => r = (s₀.staged.fresh, sha256 (contentOf source), (contentOf source).length) ∧
        (contentOf source).length ≤ maximumBytes ∧ s = s₀.withStaged (contentOf source))
      (fun (error : CatalogError ε) s => StageError maximumBytes source error ∧ s = s₀)
      (Untouched s₀) := by
  refine Triple.bind (Q := fun name s => name = s₀.staged.fresh ∧ s = s₀.withStaged [])
    (.operation (fun s hs => by subst hs; exact ⟨rfl, rfl⟩) (fun s hs => ⟨.inl rfl, hs⟩)
      fun s hs => by subst hs; exact ⟨rfl, rfl⟩) fun name => .of_fact ?_
  rintro rfl
  refine Triple.tryExcept (E := fun error s => StageError maximumBytes source error ∧
    ∃ written, s = s₀.withStaged written) ?_ fun error => ?_
  · refine Triple.bind ((triple_stageChunks s₀ source [] (Nat.zero_le _)).mono (fun _ hs => hs)
      (fun _ _ h => h) (fun _ _ h => h) ?_) fun r => ?_
    · rintro s ⟨written, rfl⟩
      exact untouched_withStaged s₀ written
    · refine .of_fact ?_
      rintro rfl
      refine Triple.bind (Q := fun _ s => (contentOf source).length ≤ maximumBytes ∧
        s = s₀.withStaged (contentOf source)) (.operation (fun s hs => hs)
          (fun s hs => ⟨.inl rfl, _, hs.2⟩) fun s hs => ?_) fun _ => .pure fun s hs => ⟨rfl, hs⟩
      rw [hs.2]
      exact untouched_withStaged s₀ _
  · refine Triple.bind (Q := fun _ s => StageError maximumBytes source error ∧ s = s₀)
      (.pureState fun s hs => ?_) fun _ => .raise fun s hs => hs
    obtain ⟨herror, written, rfl⟩ := hs
    exact ⟨herror, unlinkStaged_withStaged s₀ written⟩

/-! ### A new revision -/

/-- The document that publishing `content` under `name` makes. -/
structure IsRevision (sha256 : Bytes → Digest) (analyze : Bytes → Except ε α) (name : Text)
    (content : Bytes) (revision : Nat) (document : CaptureResourceDocument α) : Prop where
  name_eq : document.name = name
  revision_eq : document.revision = revision
  digest_eq : document.digest = sha256 content
  size_eq : document.size = content.length
  analysis_eq : analyze content = .ok document.analysis

/-- The files with one more descriptor, and its object. -/
def added (root : PurePath) (content : Bytes) (document : CaptureResourceDocument α) :
    CatalogFiles α :=
  (s₀.withObject document.digest content).withDescriptor
    (descriptorPath root document.name document.revision) document

theorem triple_writeDescriptor (document : CaptureResourceDocument α) :
    Triple (fun s => s = s₀) (writeDescriptor root document)
      (fun _ s => s = s₀.withDescriptor (descriptorPath root document.name document.revision)
        document)
      (fun (error : CatalogError ε) s => error = .osError ∧ s = s₀)
      (fun s => Untouched s₀ s ∨ Untouched
        (s₀.withDescriptor (descriptorPath root document.name document.revision) document) s) := by
  have huntouched : ∀ s, s = s₀ → Untouched s₀ s := by
    rintro s rfl
    exact ⟨rfl, rfl⟩
  refine Triple.bind (Q := fun _ s => s = s₀)
    (.operation (fun s hs => hs) (fun s hs => ⟨rfl, hs⟩) fun s hs => .inl (huntouched s hs))
    fun _ => ?_
  refine Triple.bind (Q := fun name s => name = s₀.drafts.fresh ∧ s = s₀.withDraft none)
    (.operation (fun s hs => by subst hs; exact ⟨rfl, rfl⟩) (fun s hs => ⟨rfl, hs⟩)
      fun s hs => .inl (huntouched s hs)) fun name => .of_fact ?_
  rintro rfl
  refine Triple.tryFinally (E := fun error s => error = .osError ∧ ∃ draft, s = s₀.withDraft draft)
    (Q := fun _ s => s = s₀.withDescriptor (descriptorPath root document.name document.revision)
      document) ?_ (fun _ => .pureState ?_) fun error => .pureState ?_
  · refine Triple.bind (Q := fun _ s => s = s₀.withDraft (some document))
      (.operation ?_ (fun s hs => ⟨rfl, _, hs⟩) ?_) fun _ => ?_
    · rintro s rfl
      exact writeDraft_withDraft s₀ document
    · rintro s rfl
      exact .inl ⟨rfl, rfl⟩
    refine Triple.bind (Q := fun _ s => s = s₀.withDraft (some document))
      (.operation (fun s hs => hs) (fun s hs => ⟨rfl, _, hs⟩) ?_) fun _ => ?_
    · rintro s rfl
      exact .inl ⟨rfl, rfl⟩
    refine .operation ?_ (fun s hs => ⟨rfl, _, hs⟩) ?_
    · rintro s rfl
      exact replaceDescriptor_withDraft s₀ document _
    · rintro s rfl
      exact .inl ⟨rfl, rfl⟩
  · rintro s rfl
    exact unlinkDraft_fresh (s₀.withDescriptor _ document)
  · rintro s ⟨rfl, draft, rfl⟩
    exact ⟨rfl, unlinkDraft_withDraft s₀ draft⟩

theorem withObject_of_some {digest : Digest} {content : Bytes} (h : (s₀.objects digest).isSome) :
    s₀.withObject digest content = s₀ := by
  have hobjects : (fun d => if d = digest then some ((s₀.objects d).getD content) else s₀.objects d)
      = s₀.objects := by
    funext d
    split
    · rename_i hd
      obtain ⟨content', h'⟩ := Option.isSome_iff_exists.mp h
      rw [hd, h', Option.getD_some]
    · rfl
  rw [withObject, hobjects]

theorem replaceObject_withStaged {digest : Digest} {content : Bytes}
    (h : (s₀.objects digest).isSome = false) :
    (s₀.withStaged content).replaceObject s₀.staged.fresh digest
      = s₀.withObject digest content := by
  have hnone : s₀.objects digest = none := by simpa using h
  rw [replaceObject, unlinkStaged_withStaged, stagedContent_withStaged, withObject]
  congr 1
  funext d
  split
  · rename_i hd
    rw [hd, hnone, Option.getD_none]
  · rfl

theorem triple_placeObject (digest : Digest) (content : Bytes) :
    Triple (fun s => s = s₀.withStaged content) (placeObject s₀.staged.fresh digest)
      (fun _ s => s = s₀.withObject digest content)
      (fun (_ : CatalogError ε) s => s = s₀.withStaged content)
      (fun s => s = s₀.withStaged content) := by
  refine Triple.bind (Q := fun present s => present = (s₀.objects digest).isSome ∧
    s = s₀.withStaged content) (.operation ?_ (fun s hs => hs) fun s hs => hs) fun present =>
      .of_fact fun hpresent => ?_
  · rintro s rfl
    exact ⟨rfl, rfl⟩
  · split
    · rename_i hsome
      rw [hsome] at hpresent
      refine .operation ?_ (fun s hs => hs) fun s hs => hs
      rintro s rfl
      rw [unlinkStaged_withStaged, withObject_of_some s₀ hpresent.symm]
    · rename_i hnone
      rw [Bool.not_eq_true] at hnone
      rw [hnone] at hpresent
      refine .operation ?_ (fun s hs => hs) fun s hs => hs
      rintro s rfl
      exact replaceObject_withStaged s₀ hpresent.symm

/-- The files between the staging and the descriptor: the object may have been added. -/
def Underway (digest : Digest) (content : Bytes) (s : CatalogFiles α) : Prop :=
  s = s₀.withStaged content ∨ s = s₀.withObject digest content

/-- The files after a crash. -/
def CutOff (root : PurePath) (digest : Digest) (content : Bytes)
    (IsNext : CaptureResourceDocument α → Prop) (s : CatalogFiles α) : Prop :=
  Untouched s₀ s ∨ Untouched (s₀.withObject digest content) s ∨
    ∃ document, IsNext document ∧ Untouched (added s₀ root content document) s

theorem triple_publishRevision {name : Text} {description : Option Text} {content : Bytes}
    {revision : Nat} :
    Triple (fun s => s = s₀.withStaged content)
      (publishRevision root analyze name description s₀.staged.fresh (sha256 content)
        content.length revision)
      (fun document s => IsRevision sha256 analyze name content revision document ∧
        s = added s₀ root content document)
      (fun _ s => Underway s₀ (sha256 content) content s)
      (CutOff s₀ root (sha256 content) content
        (IsRevision sha256 analyze name content revision)) := by
  have hcrash : ∀ s, s = s₀.withStaged content → CutOff s₀ root (sha256 content) content
      (IsRevision sha256 analyze name content revision) s := by
    rintro s rfl
    exact .inl (untouched_withStaged s₀ content)
  refine Triple.bind (Q := fun analysis s => analyze content = .ok analysis ∧
    s = s₀.withStaged content) ?_ fun analysis => .of_fact fun hanalysis => ?_
  · refine Triple.bind (Q := fun read s => read = content ∧ s = s₀.withStaged content)
      (.operation ?_ (fun s hs => .inl hs) hcrash) fun read => .of_fact ?_
    · rintro s rfl
      exact ⟨stagedContent_withStaged s₀ content, rfl⟩
    · rintro rfl
      refine .ofExcept (fun a s ha hs => ⟨?_, hs⟩) fun _ s _ hs => .inl hs
      rcases h : analyze read with e | b
      · simp [h, Except.mapError] at ha
      · rw [h] at ha
        rw [Except.ok.inj ha]
  refine Triple.bind (Q := fun metadata s => (metadata.name = name ∧ metadata.revision = revision) ∧
    s = s₀.withStaged content) (.ofExcept (fun metadata s hmetadata hs => ⟨?_, hs⟩)
      fun _ s _ hs => .inl hs) fun metadata => .of_fact ?_
  · unfold captureMetadata at hmetadata
    split at hmetadata
    · obtain rfl := Except.ok.inj hmetadata
      exact ⟨rfl, rfl⟩
    · cases hmetadata
  rintro ⟨hname, hrevision⟩
  have hdocument : IsRevision sha256 analyze name content revision
      ⟨metadata, sha256 content, content.length, analysis⟩ := ⟨hname, hrevision, rfl, rfl, hanalysis⟩
  refine Triple.bind (Q := fun _ s => s = s₀.withStaged content)
    (.operation (fun s hs => hs) (fun s hs => .inl hs) hcrash) fun _ => ?_
  refine Triple.bind ((triple_placeObject s₀ _ _).mono (fun _ hs => hs) (fun _ _ h => h)
    (fun _ _ h => .inl h) hcrash) fun _ => ?_
  refine Triple.bind ((triple_writeDescriptor (s₀.withObject (sha256 content) content) _).mono
    (fun _ hs => hs) (fun _ _ h => h) (fun _ _ h => .inr h.2) ?_) fun _ =>
      .pure fun s hs => ⟨hdocument, hs⟩
  rintro s (hs | hs)
  · exact .inr (.inl hs)
  · exact .inr (.inr ⟨_, hdocument, hs⟩)

/-! ### Publishing -/

/-- The document is the next revision after the latest one, which has other content. -/
structure IsNext (root : PurePath) (sha256 : Bytes → Digest) (analyze : Bytes → Except ε α)
    (name : Text) (content : Bytes) (document : CaptureResourceDocument α) : Prop where
  differs : ∀ existing ∈ latest root s₀ name, existing.digest ≠ sha256 content
  isRevision : IsRevision sha256 analyze name content
    ((latest root s₀ name).elim 1 (·.revision + 1)) document

/-- The document is the latest revision, whose content it is, and the files are `kept`; or it is the
next revision, which was added. -/
def Yields (root : PurePath) (sha256 : Bytes → Digest) (analyze : Bytes → Except ε α) (name : Text)
    (content : Bytes) (kept : CatalogFiles α) (document : CaptureResourceDocument α)
    (s : CatalogFiles α) : Prop :=
  (latest root s₀ name = some document ∧ document.digest = sha256 content ∧ s = kept) ∨
    IsNext s₀ root sha256 analyze name content document ∧ s = added s₀ root content document

/-- What publishing the content of the latest revision may raise. -/
def RepublishError (maximumBytes : Nat) (name : Text) (source : List Bytes)
    (description : Option Text) (error : CatalogError ε) : Prop :=
  (captureMetadata (ε := ε) name 1 description = .error error) ∨ StageError maximumBytes source error

variable (root maximumBytes sha256 analyze) in
theorem triple_publish (name : Text) (source : List Bytes) (description : Option Text) :
    Triple (fun s => s = s₀) (publish root maximumBytes sha256 analyze name source description)
      (fun document s => ResourceName name ∧
        Yields s₀ root sha256 analyze name (contentOf source) s₀ document s)
      (fun error s => (s = s₀ ∨ s = s₀.withObject (sha256 (contentOf source)) (contentOf source)) ∧
        ((∃ existing ∈ latest root s₀ name, existing.digest = sha256 (contentOf source)) →
          RepublishError maximumBytes name source description error))
      (fun s => Untouched s₀ s ∨ ResourceName name ∧ CutOff s₀ root (sha256 (contentOf source))
        (contentOf source) (IsNext s₀ root sha256 analyze name (contentOf source)) s) := by
  have huntouched : ∀ s, s = s₀ → Untouched s₀ s := by
    rintro s rfl
    exact ⟨rfl, rfl⟩
  refine Triple.bind (Q := fun _ s => ResourceName name ∧ s = s₀)
    (.ofExcept (fun metadata s hmetadata hs => ⟨?_, hs⟩)
      fun e s he hs => ⟨.inl hs, fun _ => .inl he⟩) fun _ => .of_fact fun hname => ?_
  · unfold captureMetadata at hmetadata
    split at hmetadata
    · rename_i h
      exact h.1
    · cases hmetadata
  refine Triple.bind (Q := fun _ s => s = s₀) (.operation (fun s hs => hs)
    (fun s hs => ⟨.inl hs, fun _ => .inr (.inl rfl)⟩) fun s hs => .inl (huntouched s hs))
    fun _ => ?_
  refine Triple.bind ((triple_stage s₀ source).mono (fun _ hs => hs) (fun _ _ h => h)
    (fun _ _ h => ⟨.inl h.2, fun _ => .inr h.1⟩) fun _ h => .inl h) fun r => .of_fact ?_
  rintro rfl
  refine .of_fact fun _ => ?_
  refine Triple.tryFinally
    (Q := Yields s₀ root sha256 analyze name (contentOf source) (s₀.withStaged (contentOf source)))
    (E := fun error s => Underway s₀ (sha256 (contentOf source)) (contentOf source) s ∧
      ((∃ existing ∈ latest root s₀ name, existing.digest = sha256 (contentOf source)) →
        RepublishError maximumBytes name source description error)) ?_
    (fun document => .pureState ?_) fun error => .pureState ?_
  · refine Triple.bind (Q := fun found s => found = latest root s₀ name ∧
      s = s₀.withStaged (contentOf source)) (.operation ?_
        (fun s hs => ⟨.inl hs, fun _ => .inr (.inl rfl)⟩) ?_) fun found => .of_fact ?_
    · rintro s rfl
      exact ⟨rfl, rfl⟩
    · rintro s rfl
      exact .inl (untouched_withStaged s₀ _)
    have hrevision : (∀ existing ∈ latest root s₀ name,
        existing.digest ≠ sha256 (contentOf source)) →
        Triple (fun s => s = s₀.withStaged (contentOf source))
          (publishRevision root analyze name description s₀.staged.fresh
            (sha256 (contentOf source)) (contentOf source).length
            ((latest root s₀ name).elim 1 (·.revision + 1)))
          (Yields s₀ root sha256 analyze name (contentOf source)
            (s₀.withStaged (contentOf source)))
          (fun error s => Underway s₀ (sha256 (contentOf source)) (contentOf source) s ∧
            ((∃ existing ∈ latest root s₀ name, existing.digest = sha256 (contentOf source)) →
              RepublishError maximumBytes name source description error))
          (fun s => Untouched s₀ s ∨ ResourceName name ∧ CutOff s₀ root (sha256 (contentOf source))
            (contentOf source) (IsNext s₀ root sha256 analyze name (contentOf source)) s) :=
      fun hdiffers => (triple_publishRevision s₀).mono (fun _ hs => hs)
        (fun document s h => .inr ⟨⟨hdiffers, h.1⟩, h.2⟩)
        (fun error s h => ⟨h, fun ⟨existing, hmem, heq⟩ => absurd heq (hdiffers existing hmem)⟩)
        fun s h => .inr ⟨hname, h.imp_right (.imp_right
          fun ⟨document, hdocument, hs⟩ => ⟨document, ⟨hdiffers, hdocument⟩, hs⟩)⟩
    rintro rfl
    rcases hlatest : latest root s₀ name with _ | existing
    · rw [hlatest] at hrevision
      exact hrevision fun _ h => by cases h
    · rw [hlatest] at hrevision
      show Triple _ (if _ then _ else _) _ _ _
      split
      · rename_i hdigest
        exact .pure fun s hs => .inl ⟨hlatest, hdigest, hs⟩
      · rename_i hdigest
        exact hrevision fun e he => by
          obtain rfl := Option.some.inj he
          exact hdigest
  · rintro s (⟨hlatest, hdigest, rfl⟩ | ⟨hnext, rfl⟩)
    · exact ⟨hname, .inl ⟨hlatest, hdigest, unlinkStaged_withStaged s₀ _⟩⟩
    · exact ⟨hname, .inr ⟨hnext, unlinkStaged_fresh (added s₀ root (contentOf source) document)⟩⟩
  · rintro s ⟨hs | hs, herror⟩
    · refine ⟨.inl ?_, herror⟩
      rw [hs]
      exact unlinkStaged_withStaged s₀ _
    · refine ⟨.inr ?_, herror⟩
      rw [hs]
      exact unlinkStaged_fresh (s₀.withObject _ _)

end

end TrexCli.Capture
