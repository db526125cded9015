import TrexCli.Artifacts.Store

/-!
# The artifact store keeps what it registered

A row is written after its file, a file is unlinked before its row is deleted, and both deletions are
of what has expired. So wherever a call stops, a row that no cleanup so far found expired has its
file, with the content of its digest.
-/

namespace TrexCli.Artifacts

open Capture (Digest)
open Lexicographic Faulty

variable {root : PurePath} {sha256 : Bytes → Digest} {s₀ s : ArtifactState}

/-! ### Paths and deadlines -/

theorem hexdigest_inj {d e : Digest} (h : hexdigest d = hexdigest e) : d = e := by
  have hlt : ∀ d : Digest, d.val < 16 ^ 64 := fun d => d.isLt.trans_eq (by decide)
  exact Fin.ext (fixedDigits_inj (by decide) (by decide) (hlt d) (hlt e) h)

theorem contentPath_inj {d e : Digest} (h : contentPath root d = contentPath root e) : d = e := by
  have hname := congrArg PurePath.name h
  simp only [contentPath, PurePath.name_child] at hname
  exact hexdigest_inj hname

theorem UtcDateTime.isoformat_inj {t u : UtcDateTime} (h : t.isoformat = u.isoformat) :
    t.timestamp = u.timestamp := by
  have hirrefl : ¬u.isoformat < u.isoformat := by
    rw [isoformat_lt_iff]
    exact Int.lt_irrefl _
  have htu := (isoformat_lt_iff t u).not.mp (by rwa [h])
  have hut := (isoformat_lt_iff u t).not.mp (by rwa [h])
  unfold Before at htu hut
  omega

/-- The later of two texts is that of the later instant. -/
theorem sqlMax_isoformat (t u : UtcDateTime) :
    ∃ v : UtcDateTime, sqlMax t.isoformat u.isoformat = v.isoformat ∧ ¬v.Before t ∧ ¬v.Before u := by
  unfold sqlMax
  split
  · rename_i h
    rw [UtcDateTime.isoformat_lt_iff] at h
    refine ⟨u, rfl, ?_, Int.lt_irrefl _⟩
    unfold UtcDateTime.Before at h ⊢
    omega
  · rename_i h
    rw [UtcDateTime.isoformat_lt_iff] at h
    exact ⟨t, rfl, Int.lt_irrefl _, h⟩

/-! ### Writing -/

/-- No file has changed, but that of `path` may have been made. -/
def FilesKept (path : PurePath) (content : Bytes) (s₀ s : ArtifactState) : Prop :=
  ∀ p, s.files.get p = s₀.files.get p ∨
    p = path ∧ s₀.files.get p = none ∧ ∃ mtime, s.files.get p = some (p, ⟨content, mtime⟩)

theorem FilesKept.of_eq {path : PurePath} {content : Bytes} (h : s.files = s₀.files) :
    FilesKept path content s₀ s := fun p => .inl (by rw [h])

/-- The file at `path` has the content of a digest. -/
def FileOf (sha256 : Bytes → Digest) (digest : Digest) (path : PurePath) (s : ArtifactState) : Prop :=
  ∃ file, s.files.get path = some (path, file) ∧ sha256 file.content = digest

theorem triple_writeAtomic (path : PurePath) (content : Bytes) (written : Int) :
    Triple (fun s => s = s₀) (writeAtomic sha256 path content written)
      (fun _ s => FilesKept path content s₀ s ∧ s.rows = s₀.rows ∧
        FileOf sha256 (sha256 content) path s)
      (fun _ s => FilesKept path content s₀ s ∧ s.rows = s₀.rows)
      (fun s => FilesKept path content s₀ s ∧ s.rows = s₀.rows) := by
  have hkept : ∀ s, s = s₀ → FilesKept path content s₀ s ∧ s.rows = s₀.rows := by
    rintro s rfl
    exact ⟨.of_eq rfl, rfl⟩
  refine Triple.bind (Q := fun _ s => s = s₀) (.operation (fun s hs => hs) hkept hkept) fun _ => ?_
  refine Triple.bind (Q := fun found s => found = s₀.files.get path ∧ s = s₀)
    (.operation ?_ hkept hkept) fun found => .of_fact ?_
  · rintro s rfl
    exact ⟨rfl, rfl⟩
  rintro rfl
  rcases hfound : s₀.files.get path with _ | file
  · -- There is no file: it is written under another name and moved.
    refine Triple.bind (Q := fun name s => name = s₀.temporaries.fresh ∧
      s = { s₀ with temporaries := s₀.temporaries.make [] }) (.operation ?_ hkept hkept) fun name =>
        .of_fact ?_
    · rintro s rfl
      exact ⟨rfl, rfl⟩
    rintro rfl
    have hmade : ∀ value s, s = { s₀ with temporaries := s₀.temporaries.make value } →
        FilesKept path content s₀ s ∧ s.rows = s₀.rows := by
      rintro value s rfl
      exact ⟨.of_eq rfl, rfl⟩
    refine Triple.tryFinally
      (Q := fun _ s => FilesKept path content s₀ s ∧ s.rows = s₀.rows ∧
        FileOf sha256 (sha256 content) path s)
      (E := fun _ s => FilesKept path content s₀ s ∧ s.rows = s₀.rows) ?_
      (fun _ => ?_) fun _ => ?_
    · refine Triple.bind (Q := fun _ s => s = { s₀ with temporaries := s₀.temporaries.make content })
        (.operation ?_ (hmade []) (hmade [])) fun _ => ?_
      · rintro s rfl
        simp
      refine Triple.bind (Q := fun _ s => s = { s₀ with temporaries := s₀.temporaries.make content })
        (.operation (fun s hs => hs) (hmade content) (hmade content)) fun _ => ?_
      refine .operation ?_ (hmade content) (hmade content)
      rintro s rfl
      refine ⟨fun p => ?_, rfl, ⟨content, written⟩, by simp, rfl⟩
      by_cases hp : path = p
      · exact .inr ⟨hp.symm, by rw [← hp, hfound], written, by simp [hp]⟩
      · exact .inl (by simp [hp])
    · refine Triple.bind (Q := fun _ s => FilesKept path content s₀ s ∧ s.rows = s₀.rows ∧
        FileOf sha256 (sha256 content) path s) (.pureState fun s hs => hs) fun present => ?_
      split
      · exact .operation (fun s hs => hs) (fun s hs => ⟨hs.1, hs.2.1⟩) fun s hs => ⟨hs.1, hs.2.1⟩
      · exact .pure fun s hs => hs
    · refine Triple.bind (Q := fun _ s => FilesKept path content s₀ s ∧ s.rows = s₀.rows)
        (.pureState fun s hs => hs) fun present => ?_
      split
      · exact .operation (fun s hs => hs) (fun s hs => hs) fun s hs => hs
      · exact .pure fun s hs => hs
  · refine Triple.bind (Q := fun _ s => s = s₀) (.operation (fun s hs => hs) hkept hkept) fun _ => ?_
    split
    · exact .raise hkept
    · rename_i hsame
      rw [not_not] at hsame
      refine .pure fun s hs => ?_
      obtain ⟨hfiles, hrows⟩ := hkept s hs
      refine ⟨hfiles, hrows, file.2, ?_, hsame⟩
      have hpath : file.1 = path := Table.key_of_get _ hfound
      rw [hs, hfound, ← hpath]

/-- The row a write leaves: a new one, or the old one with the later deadline. -/
def retained (digest : Digest) (mediaType : Text) (size : Nat) (path : PurePath) (retainUntil : Text) :
    Option ArtifactRow → ArtifactRow
  | some row => { row with retainUntil := sqlMax row.retainUntil retainUntil }
  | none => ⟨digest, mediaType, size, path, retainUntil⟩

theorem retained_digest {digest : Digest} {mediaType : Text} {size : Nat} {path : PurePath}
    {retainUntil : Text} :
    (retained digest mediaType size path retainUntil (s₀.rows.get digest)).digest = digest := by
  rcases h : s₀.rows.get digest with _ | row
  · rfl
  · show row.digest = digest
    exact s₀.rows.key_of_get h

variable (s₀) in
theorem triple_recordArtifact (digest : Digest) (mediaType : Text) (size : Nat) (path : PurePath)
    (retainUntil : Text) :
    Triple (fun s => s = s₀) (recordArtifact digest mediaType size path retainUntil)
      (fun _ s => (∀ row ∈ s₀.rows.get digest, row.path = path) ∧ s = { s₀ with
        rows := s₀.rows.upsert (retained digest mediaType size path retainUntil
          (s₀.rows.get digest)) })
      (fun _ s => s = s₀) (fun s => s = s₀) := by
  refine Triple.bind (Q := fun existing s => existing = s₀.rows.get digest ∧ s = s₀)
    (.operation ?_ (fun s hs => hs) fun s hs => hs) fun existing => .of_fact ?_
  · rintro s rfl
    exact ⟨rfl, rfl⟩
  rintro rfl
  split
  · exact .raise fun s hs => hs
  · rename_i hsame
    refine .operation ?_ (fun s hs => hs) fun s hs => hs
    rintro s rfl
    refine ⟨fun row hrow => ?_, ?_⟩
    · by_contra hpath
      exact hsame ⟨row, hrow, .inr (.inr hpath)⟩
    · rcases hrow : s.rows.get digest with _ | row
      · rfl
      · rfl

/-- What a write leaves, wherever it stops. -/
def AfterWrite (root : PurePath) (sha256 : Bytes → Digest) (content : Bytes) (s₀ s : ArtifactState) :
    Prop :=
  FilesKept (contentPath root (sha256 content)) content s₀ s ∧
    (s.rows = s₀.rows ∨
      FileOf sha256 (sha256 content) (contentPath root (sha256 content)) s ∧
      (∀ row ∈ s₀.rows.get (sha256 content), row.path = contentPath root (sha256 content)) ∧
      ∃ mediaType size, ∃ deadline : UtcDateTime,
        s.rows = s₀.rows.upsert (retained (sha256 content) mediaType size
          (contentPath root (sha256 content)) deadline.isoformat (s₀.rows.get (sha256 content))))

variable (root sha256 s₀) in
theorem triple_write (name : Text) (content : Bytes) (mediaType : Text) (days : Int)
    (now : UtcDateTime) (written : Int) :
    Triple (fun s => s = s₀) (write root sha256 name content mediaType days now written)
      (fun _ => AfterWrite root sha256 content s₀) (fun _ => AfterWrite root sha256 content s₀)
      (AfterWrite root sha256 content s₀) := by
  refine Triple.bind ((triple_writeAtomic _ content written).mono (fun _ hs => hs)
    (fun _ _ h => h) (fun _ _ h => ⟨h.1, .inl h.2⟩) fun _ h => ⟨h.1, .inl h.2⟩) fun _ => ?_
  split
  · exact .raise fun s hs => ⟨hs.1, .inl hs.2.1⟩
  · rename_i deadline _
    intro s₁ fates hs₁
    obtain ⟨hfiles, hrows, hfile⟩ := hs₁
    refine Triple.bind ((triple_recordArtifact s₁ _ mediaType content.length _
      deadline.isoformat).mono (fun _ hs => hs) (fun _ _ h => h) ?_ ?_) (fun _ => .pure ?_)
      s₁ fates rfl
    · rintro - s rfl
      exact ⟨hfiles, .inl hrows⟩
    · rintro s rfl
      exact ⟨hfiles, .inl hrows⟩
    · rintro s ⟨hpath, rfl⟩
      rw [hrows] at hpath ⊢
      exact ⟨hfiles, .inr ⟨hfile, hpath, mediaType, content.length, deadline, rfl⟩⟩

/-! ### Cleaning up -/

/-- The file at `path` may be deleted by a cleanup at `now`. -/
def Deletable (grace : Int) (now : UtcDateTime) (deleteOrphans : Bool) (s₀ : ArtifactState)
    (path : PurePath) : Prop :=
  (∃ row ∈ s₀.rows.rows, row.path = path ∧ row.retainUntil < now.isoformat) ∨
    deleteOrphans = true ∧ (∀ row ∈ s₀.rows.rows, row.path ≠ path) ∧
      ∀ file, s₀.files.get path = some file → file.2.mtime < now.timestamp - grace

/-- What a cleanup leaves, wherever it stops. -/
def AfterCleanup (grace : Int) (now : UtcDateTime) (deleteOrphans : Bool) (s₀ s : ArtifactState) :
    Prop :=
  (∀ path, s.files.get path = s₀.files.get path ∨
    s.files.get path = none ∧ Deletable grace now deleteOrphans s₀ path) ∧
  ∀ digest, s.rows.get digest = s₀.rows.get digest ∨
    s.rows.get digest = none ∧
      ∃ row, s₀.rows.get digest = some row ∧ row.retainUntil < now.isoformat

section

variable {grace : Int} {now : UtcDateTime} {deleteOrphans : Bool}

theorem AfterCleanup.refl : AfterCleanup grace now deleteOrphans s₀ s₀ :=
  ⟨fun _ => .inl rfl, fun _ => .inl rfl⟩

theorem AfterCleanup.unlink (h : AfterCleanup grace now deleteOrphans s₀ s) {path : PurePath}
    (hpath : Deletable grace now deleteOrphans s₀ path) :
    AfterCleanup grace now deleteOrphans s₀
      { s with files := s.files.delete fun file => file.1 = path } := by
  refine ⟨fun p => ?_, h.2⟩
  simp only [Table.get_delete]
  rcases hp : s.files.get p with _ | file
  · have := h.1 p
    rw [hp] at this
    exact this
  · by_cases heq : file.1 = path
    · obtain rfl : p = path := (Table.key_of_get _ hp).symm.trans heq
      exact .inr ⟨by simp [heq], hpath⟩
    · have := h.1 p
      rw [hp] at this
      rw [Option.filter_some_pos (by simpa using heq)]
      exact this

theorem AfterCleanup.forget (h : AfterCleanup grace now deleteOrphans s₀ s) (digest : Digest) :
    AfterCleanup grace now deleteOrphans s₀ { s with
      rows := s.rows.delete fun row => row.digest = digest ∧ row.retainUntil < now.isoformat } := by
  refine ⟨h.1, fun d => ?_⟩
  simp only [Table.get_delete]
  have hd := h.2 d
  rcases hrow : s.rows.get d with _ | row
  · rw [hrow] at hd
    exact hd
  · rw [hrow] at hd
    by_cases hexpired : row.digest = digest ∧ row.retainUntil < now.isoformat
    · refine .inr ⟨by simp [hexpired], row, ?_, hexpired.2⟩
      rcases hd with hd | ⟨hd, -⟩
      · exact hd.symm
      · cases hd
    · refine .inl ?_
      rcases hd with hd | ⟨hd, -⟩
      · rw [Option.filter_some_pos
          (by simpa only [Bool.not_eq_true', decide_eq_false_iff_not] using hexpired)]
        exact hd
      · cases hd

/-- A program that keeps what a cleanup may leave. -/
abbrev Cleans {α : Type} (grace : Int) (now : UtcDateTime) (deleteOrphans : Bool)
    (s₀ : ArtifactState) (m : StoreProgram α) : Prop :=
  Triple (AfterCleanup grace now deleteOrphans s₀) m
    (fun _ => AfterCleanup grace now deleteOrphans s₀)
    (fun _ => AfterCleanup grace now deleteOrphans s₀) (AfterCleanup grace now deleteOrphans s₀)

theorem Cleans.catchOsError {α : Type} {m : StoreProgram α}
    (h : Cleans grace now deleteOrphans s₀ m) :
    Cleans grace now deleteOrphans s₀ (catchOsError m) := by
  refine .tryExcept (.bind h fun _ => .pure fun _ hs => hs) fun error => ?_
  split
  · exact .pure fun _ hs => hs
  · exact .raise fun _ hs => hs

theorem cleans_deleteExpired {rows : List ArtifactRow}
    (hrows : ∀ row ∈ rows, row ∈ s₀.rows.rows ∧ row.retainUntil < now.isoformat)
    (report : ArtifactCleanupReport) :
    Cleans grace now deleteOrphans s₀ (deleteExpired root now.isoformat report rows) := by
  induction rows generalizing report with
  | nil => exact .pure fun _ hs => hs
  | cons row rows ih =>
    have htail := fun report => ih (fun r hr => hrows r (by simp [hr])) report
    obtain ⟨hrow, hexpired⟩ := hrows row (by simp)
    unfold deleteExpired
    split
    · refine Triple.bind (Cleans.catchOsError (.bind (.keeps_operation fun _ hs => hs) fun size =>
        .bind (.keeps_operation fun s hs => hs.unlink (.inl ⟨row, hrow, rfl, hexpired⟩)) fun _ =>
          .pure fun _ hs => hs)) fun removed => ?_
      split
      · exact htail _
      · refine Triple.bind (.keeps_operation fun s hs => hs.forget row.digest) fun forgotten => ?_
        split
        · exact htail _
        · exact htail _
    · exact htail _

theorem cleans_deleteOrphanFiles {paths : List PurePath}
    (hpaths : ∀ path ∈ paths, Deletable grace now deleteOrphans s₀ path)
    (report : ArtifactCleanupReport) :
    Cleans grace now deleteOrphans s₀ (deleteOrphanFiles report paths) := by
  induction paths generalizing report with
  | nil => exact .pure fun _ hs => hs
  | cons path paths ih =>
    have htail := fun report => ih (fun p hp => hpaths p (by simp [hp])) report
    unfold deleteOrphanFiles
    refine Triple.bind (Cleans.catchOsError (.bind (.keeps_operation fun _ hs => hs) fun found => ?_))
      fun removed => ?_
    · split
      · exact .raise fun _ hs => hs
      · exact .bind (.keeps_operation fun s hs => hs.unlink (hpaths path (by simp))) fun _ =>
          .pure fun _ hs => hs
    · split
      · exact htail _
      · exact htail _

/-- The orphans of a state may be deleted. -/
theorem deletable_of_mem_orphanFiles {path : PurePath}
    (h : path ∈ orphanFiles root (s₀.rows.rows.map ArtifactRow.path) (now.timestamp - grace) s₀) :
    Deletable grace now true s₀ path := by
  simp only [orphanFiles, List.mem_insertionSort, List.mem_map, List.mem_filter,
    decide_eq_true_eq] at h
  obtain ⟨file, ⟨hfile, -, hunregistered, -, hold⟩, rfl⟩ := h
  refine .inr ⟨rfl, fun row hrow heq => hunregistered ⟨row, hrow, heq⟩, fun file' hfile' => ?_⟩
  rw [(Table.mem_rows _).mp hfile] at hfile'
  rw [← Option.some.inj hfile']
  exact hold

variable (root s₀ grace now deleteOrphans) in
theorem triple_cleanup (dryRun : Bool) :
    Triple (fun s => s = s₀) (cleanup root grace now dryRun deleteOrphans)
      (fun _ s => if dryRun then s = s₀ else AfterCleanup grace now deleteOrphans s₀ s)
      (fun _ s => if dryRun then s = s₀ else AfterCleanup grace now deleteOrphans s₀ s)
      (fun s => if dryRun then s = s₀ else AfterCleanup grace now deleteOrphans s₀ s) := by
  have hsame : ∀ s, s = s₀ → if dryRun then s = s₀ else AfterCleanup grace now deleteOrphans s₀ s := by
    rintro s rfl
    split
    · rfl
    · exact .refl
  refine Triple.bind (Q := fun expired s =>
    (∀ row ∈ expired, row ∈ s₀.rows.rows ∧ row.retainUntil < now.isoformat) ∧ s = s₀)
    (.operation ?_ hsame hsame) fun expired => .of_fact fun hexpired => ?_
  · rintro s rfl
    refine ⟨fun row hrow => ?_, rfl⟩
    simpa only [List.mem_insertionSort, List.mem_filter, decide_eq_true_eq] using hrow
  refine Triple.bind (Q := fun registered s => registered = s₀.rows.rows.map ArtifactRow.path ∧ s = s₀)
    (.operation ?_ hsame hsame) fun registered => .of_fact ?_
  · rintro s rfl
    exact ⟨rfl, rfl⟩
  rintro rfl
  refine Triple.bind (Q := fun orphans s =>
    orphans = orphanFiles root (s₀.rows.rows.map ArtifactRow.path) (now.timestamp - grace) s₀ ∧ s = s₀)
    (.operation ?_ hsame hsame) fun orphans => .of_fact ?_
  · rintro s rfl
    exact ⟨rfl, rfl⟩
  rintro rfl
  cases dryRun with
  | true => exact .pure fun s hs => hs
  | false =>
    have hclean : Cleans grace now deleteOrphans s₀ (deleteExpired root now.isoformat
        ⟨false, expired.length, 0, 0, (orphanFiles root (s₀.rows.rows.map ArtifactRow.path)
          (now.timestamp - grace) s₀).length, 0, 0, []⟩ expired) := cleans_deleteExpired hexpired _
    refine Triple.bind (Q := fun _ => AfterCleanup grace now deleteOrphans s₀)
      (hclean.mono (fun s hs => by rw [hs]; exact .refl) (fun _ _ h => h) (fun _ _ h => h)
        fun _ h => h) fun cleaned => ?_
    cases deleteOrphans with
    | true => exact cleans_deleteOrphanFiles (fun path hpath => deletable_of_mem_orphanFiles hpath) _
    | false => exact .pure fun s hs => hs

end

end TrexCli.Artifacts
