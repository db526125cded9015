import TrexCli.Capture.Publish

/-!
# The history of the catalog

After any sequence of publications, also ones that raised or were cut off, the revisions of a name
are numbered from one without a gap, adjacent ones have different content, and each has its object.
A publication keeps this, because the only descriptor it adds is that of the next revision.
-/

namespace TrexCli.Capture

open Faulty CatalogFiles Text PurePath

variable {α ε : Type}

/-! ### Names -/

theorem nameComponent_spec {part : Text} (h : nameComponent part = true) :
    '@' ∉ part ∧ part ≠ [] ∧ part ≠ ['.'] := by
  rcases part with _ | ⟨first, rest⟩
  · simp [nameComponent] at h
  · simp only [nameComponent, Bool.and_eq_true, List.all_eq_true] at h
    obtain ⟨⟨hfirst, -⟩, hrest⟩ := h
    refine ⟨fun hmem => ?_, by simp, fun heq => ?_⟩
    · rcases List.mem_cons.mp hmem with rfl | hmem
      · exact absurd hfirst (by decide)
      · exact absurd (hrest '@' hmem) (by decide)
    · obtain rfl := (List.cons.inj heq).1
      exact absurd hfirst (by decide)

namespace ResourceName

variable {a b : Text}

theorem parts_eq (h : ResourceName a) : (ofText a).parts = a.splitOn '/' :=
  List.filter_eq_self.mpr fun part hpart => decide_eq_true (nameComponent_spec (h.2 part hpart)).2

theorem parts_ne_nil (h : ResourceName a) : (ofText a).parts ≠ [] := by
  rw [h.parts_eq]
  exact List.splitOn_ne_nil _ _

theorem relative (h : ResourceName a) : (ofText a).anchored = false := by
  rcases a with _ | ⟨c, rest⟩
  · rfl
  · refine decide_eq_false fun hc => ?_
    obtain rfl : c = '/' := Option.some.inj hc
    have hempty : [] ∈ ('/' :: rest).splitOn '/' := by
      rw [List.splitOn_cons_eq_if_modifyHead]
      simp
    exact absurd (h.2 [] hempty) (by decide)

theorem not_mem_name (h : ResourceName a) : '@' ∉ (ofText a).name := by
  have hparts : ∀ part ∈ (ofText a).parts, '@' ∉ part := by
    rw [h.parts_eq]
    exact fun part hpart => (nameComponent_spec (h.2 part hpart)).1
  rw [PurePath.name, List.getLast?_eq_some_getLast h.parts_ne_nil, Option.getD_some]
  exact hparts _ (List.getLast_mem h.parts_ne_nil)

theorem not_mem (h : ResourceName a) : '@' ∉ a := by
  intro hmem
  obtain ⟨part, hpart, hat⟩ := Text.mem_splitOn (show '@' ≠ '/' by decide) hmem
  exact (nameComponent_spec (h.2 part hpart)).1 hat

/-- A name is its directory and its last component. -/
theorem ext (ha : ResourceName a) (hb : ResourceName b)
    (hparent : (ofText a).parent = (ofText b).parent) (hname : (ofText a).name = (ofText b).name) :
    a = b := by
  refine ofText_inj (fun part hpart => (nameComponent_spec (ha.2 part hpart)).2)
    (fun part hpart => (nameComponent_spec (hb.2 part hpart)).2) ?_
  rw [← child_parent_name ha.parts_ne_nil, ← child_parent_name hb.parts_ne_nil, hparent, hname]

end ResourceName

section

variable {root : PurePath} {a b : Text} {j k : Nat}

theorem parent_descriptorPath :
    (descriptorPath root a k).parent = (root.child "resources".toList).join (ofText a).parent :=
  parent_child _ _

theorem name_descriptorPath :
    (descriptorPath root a k).name = descriptorName (ofText a).name k := name_child _ _

/-- The descriptors in the directory of a name whose file begins with it are those of the name. -/
theorem eq_of_glob (ha : ResourceName a) (hb : ResourceName b)
    (hparent : (descriptorPath root b k).parent = (descriptorPath root a j).parent)
    (hglob : (ofText a).name ++ ['@'] <+: (descriptorPath root b k).name) : a = b := by
  rw [parent_descriptorPath, parent_descriptorPath] at hparent
  obtain ⟨tail, htail⟩ := hglob
  rw [name_descriptorPath, descriptorName, List.append_assoc] at htail
  refine ha.ext hb (join_inj ha.relative hb.relative hparent.symm) ?_
  exact (append_separator_inj ha.not_mem_name hb.not_mem_name htail).1

theorem descriptorPath_inj (ha : ResourceName a) (hb : ResourceName b)
    (h : descriptorPath root a j = descriptorPath root b k) : a = b ∧ j = k := by
  have hname := congrArg PurePath.name h
  rw [name_descriptorPath, name_descriptorPath, descriptorName, descriptorName] at hname
  obtain ⟨hlast, hrest⟩ := append_separator_inj ha.not_mem_name hb.not_mem_name hname
  have hparent := congrArg parent h
  rw [parent_descriptorPath, parent_descriptorPath] at hparent
  exact ⟨ha.ext hb (join_inj ha.relative hb.relative hparent) hlast, ofNat_inj (List.append_cancel_right hrest)⟩

theorem glob_descriptorPath (a : Text) (k : Nat) :
    (descriptorPath root a k).parent = (descriptorPath root a 1).parent ∧
      (ofText a).name ++ ['@'] <+: (descriptorPath root a k).name ∧
      ".json".toList <:+ (descriptorPath root a k).name ∧
      ((ofText a).name ++ ['@']).length + 5 ≤ (descriptorPath root a k).name.length := by
  rw [parent_descriptorPath, parent_descriptorPath, name_descriptorPath, descriptorName]
  refine ⟨rfl, ⟨ofNat k ++ ".json".toList, by simp⟩, ⟨(ofText a).name ++ '@' :: ofNat k, by simp⟩, ?_⟩
  have hjson : ".json".toList.length = 5 := by decide
  simp only [List.length_append, List.length_cons, List.length_nil, hjson]
  omega

end

/-- `{name}@{revision}` -/
def revisionRef (name : Text) (revision : Nat) : Text := name ++ '@' :: ofNat revision

theorem parseRef_revisionRef (name : Text) (k : Nat) :
    parseRef (ε := ε) (revisionRef name k) =
      if k < 1 then .error .invalidRevision else .ok (name, some k) := by
  rw [parseRef, revisionRef, rpartition_append (not_mem_ofNat (by decide) k)]
  simp only [decimals_ofNat]

theorem parseRef_name {name : Text} (h : ResourceName name) :
    parseRef (ε := ε) name = .ok (name, none) := by
  rw [parseRef, rpartition_eq_none h.not_mem]

theorem CaptureResourceDocument.name_valid (d : CaptureResourceDocument α) : ResourceName d.name :=
  d.metadata.name_valid

/-! ### The invariant -/

/-- The document in the descriptor of a revision. -/
def CatalogFiles.descriptor (s : CatalogFiles α) (root : PurePath) (name : Text) (revision : Nat) :
    Option (CaptureResourceDocument α) :=
  (s.resources.get (descriptorPath root name revision)).map Prod.snd

/-- What holds of the files between two calls. -/
structure Sound (root : PurePath) (sha256 : Bytes → Digest) (analyze : Bytes → Except ε α)
    (s : CatalogFiles α) : Prop where
  placed : ∀ row ∈ s.resources.rows, row.1 = descriptorPath root row.2.name row.2.revision
  counted : ∀ name, ResourceName name →
    ∃ n, ∀ k, (s.descriptor root name k).isSome ↔ 1 ≤ k ∧ k ≤ n
  changes : ∀ name k d e, ResourceName name → s.descriptor root name k = some d →
    s.descriptor root name (k + 1) = some e → d.digest ≠ e.digest
  hashed : ∀ digest content, s.objects digest = some content → sha256 content = digest
  stored : ∀ row ∈ s.resources.rows, (s.objects row.2.digest).isSome
  made : ∀ row ∈ s.resources.rows,
    ∃ content, IsRevision sha256 analyze row.2.name content row.2.revision row.2

namespace Sound

variable {root : PurePath} {sha256 : Bytes → Digest} {analyze : Bytes → Except ε α}
  {s s' : CatalogFiles α} {name : Text}

theorem empty : Sound root sha256 analyze (CatalogFiles.empty : CatalogFiles α) where
  placed row h := by simp [CatalogFiles.empty, Table.empty] at h
  counted _ _ := ⟨0, fun k => by
    simp only [descriptor, CatalogFiles.empty, Table.get_empty]
    simp
    omega⟩
  changes _ _ _ _ _ h := by simp [descriptor, CatalogFiles.empty] at h
  hashed _ _ h := by simp [CatalogFiles.empty] at h
  stored row h := by simp [CatalogFiles.empty, Table.empty] at h
  made row h := by simp [CatalogFiles.empty, Table.empty] at h

theorem of_untouched (h : Sound root sha256 analyze s) (hs : Untouched s s') :
    Sound root sha256 analyze s' := by
  obtain ⟨hresources, hobjects⟩ := hs
  constructor
  all_goals simp only [descriptor, hresources, hobjects]
  · exact h.placed
  · exact h.counted
  · exact h.changes
  · exact h.hashed
  · exact h.stored
  · exact h.made

theorem descriptor_eq_some (h : Sound root sha256 analyze s) (hname : ResourceName name) {k : Nat}
    {d : CaptureResourceDocument α} :
    s.descriptor root name k = some d ↔
      (∃ path, (path, d) ∈ s.resources.rows) ∧ d.name = name ∧ d.revision = k := by
  simp only [descriptor, Option.map_eq_some_iff, Table.get_eq_some]
  constructor
  · rintro ⟨⟨path, e⟩, ⟨hrow, hpath⟩, rfl⟩
    have hplaced := (h.placed _ hrow).symm.trans hpath
    exact ⟨⟨path, hrow⟩, descriptorPath_inj e.name_valid hname hplaced⟩
  · rintro ⟨⟨path, hrow⟩, rfl, rfl⟩
    exact ⟨(path, d), ⟨hrow, h.placed _ hrow⟩, rfl⟩

theorem mem_candidates (h : Sound root sha256 analyze s) (hname : ResourceName name)
    {d : CaptureResourceDocument α} :
    d ∈ candidates root s name ↔ s.descriptor root name d.revision = some d := by
  rw [h.descriptor_eq_some hname]
  simp only [candidates, List.mem_map, List.mem_filter, decide_eq_true_eq]
  constructor
  · rintro ⟨⟨path, e⟩, ⟨hrow, hparent, hpattern, -, -⟩, rfl⟩
    have hpath : path = descriptorPath root e.name e.revision := h.placed _ hrow
    subst hpath
    exact ⟨⟨_, hrow⟩, (eq_of_glob hname e.name_valid hparent hpattern).symm, trivial⟩
  · rintro ⟨⟨path, hrow⟩, rfl, -⟩
    have hpath : path = descriptorPath root d.name d.revision := h.placed _ hrow
    subst hpath
    exact ⟨_, ⟨hrow, glob_descriptorPath d.name d.revision⟩, rfl⟩

theorem revision_of_descriptor (h : Sound root sha256 analyze s) (hname : ResourceName name) {k : Nat}
    {d : CaptureResourceDocument α} (hd : s.descriptor root name k = some d) : d.revision = k :=
  ((h.descriptor_eq_some hname).mp hd).2.2

/-- The latest revision is the one with the greatest number. -/
theorem latest_eq (h : Sound root sha256 analyze s) (hname : ResourceName name) {n : Nat}
    (hn : ∀ k, (s.descriptor root name k).isSome ↔ 1 ≤ k ∧ k ≤ n) :
    latest root s name = s.descriptor root name n := by
  rcases hlatest : latest root s name with _ | d
  · rw [latest, List.argmax_eq_none] at hlatest
    rcases hd : s.descriptor root name n with _ | d
    · rfl
    · have hmem : d ∈ candidates root s name := by
        rw [h.mem_candidates hname, h.revision_of_descriptor hname hd, hd]
      rw [hlatest] at hmem
      simp at hmem
  · have hd := (h.mem_candidates hname).mp (List.argmax_mem hlatest)
    have hle := (hn d.revision).mp (by rw [hd]; rfl)
    obtain ⟨e, he⟩ := Option.isSome_iff_exists.mp ((hn n).mpr ⟨by omega, le_refl n⟩)
    have hrevision := h.revision_of_descriptor hname he
    have hmax : e.revision ≤ d.revision := List.le_of_mem_argmax (by
      rw [h.mem_candidates hname, hrevision, he]) hlatest
    obtain rfl : d.revision = n := by omega
    exact hd.symm

/-- An object more. -/
theorem withObject (h : Sound root sha256 analyze s) (content : Bytes) :
    Sound root sha256 analyze (s.withObject (sha256 content) content) where
  placed := h.placed
  counted := h.counted
  changes := h.changes
  hashed digest content' h' := by
    simp only [CatalogFiles.withObject] at h'
    split at h'
    · rename_i hd
      obtain rfl := Option.some.inj h'
      rcases ho : s.objects digest with _ | c
      · exact hd.symm
      · exact h.hashed _ _ ho
    · exact h.hashed _ _ h'
  stored row hrow := by
    simp only [CatalogFiles.withObject]
    split
    · rfl
    · exact h.stored row hrow
  made := h.made

section

variable {content : Bytes} {d : CaptureResourceDocument α} {n : Nat}

theorem revision_eq (h : Sound root sha256 analyze s)
    (hd : IsNext s root sha256 analyze d.name content d)
    (hn : ∀ k, (s.descriptor root d.name k).isSome ↔ 1 ≤ k ∧ k ≤ n) : d.revision = n + 1 := by
  rw [hd.isRevision.revision_eq, h.latest_eq d.name_valid hn]
  rcases he : s.descriptor root d.name n with _ | e
  · have hzero := hn n
    rw [he] at hzero
    simp at hzero
    simp
    omega
  · simp [h.revision_of_descriptor d.name_valid he]

theorem descriptor_added (h : Sound root sha256 analyze s)
    (hd : IsNext s root sha256 analyze d.name content d)
    (hn : ∀ k, (s.descriptor root d.name k).isSome ↔ 1 ≤ k ∧ k ≤ n) (hname : ResourceName name)
    (k : Nat) : (Capture.added s root content d).descriptor root name k =
      if name = d.name ∧ k = n + 1 then some d else s.descriptor root name k := by
  have hrevision := h.revision_eq hd hn
  simp only [descriptor, Capture.added, withDescriptor, CatalogFiles.withObject, Table.get_upsert]
  by_cases heq : name = d.name ∧ k = n + 1
  · rw [if_pos heq, heq.1, heq.2, hrevision, if_pos rfl]
    rfl
  · rw [if_neg heq, if_neg]
    intro hpath
    obtain ⟨h1, h2⟩ := descriptorPath_inj d.name_valid hname hpath
    exact heq ⟨h1.symm, by omega⟩

/-- The next revision of a name. -/
theorem added (h : Sound root sha256 analyze s)
    (hd : IsNext s root sha256 analyze d.name content d) :
    Sound root sha256 analyze (Capture.added s root content d) := by
  obtain ⟨n, hn⟩ := h.counted d.name d.name_valid
  have hlatest := h.latest_eq d.name_valid hn
  have hget := fun name k (hk : ResourceName name) => h.descriptor_added hd hn hk k
  have hrows : ∀ row ∈ (Capture.added s root content d).resources.rows,
      row = (descriptorPath root d.name d.revision, d) ∨ row ∈ s.resources.rows := by
    intro row hrow
    rw [Table.mem_rows] at hrow
    simp only [Capture.added, withDescriptor, CatalogFiles.withObject, Table.get_upsert] at hrow
    split at hrow
    · exact .inl (Option.some.inj hrow).symm
    · exact .inr (Table.mem_rows _ |>.mpr hrow)
  have hbase := h.withObject content
  rw [← hd.isRevision.digest_eq] at hbase
  constructor
  · intro row hrow
    rcases hrows row hrow with rfl | hrow
    · rfl
    · exact h.placed row hrow
  · intro name hk
    by_cases heq : name = d.name
    · subst heq
      refine ⟨n + 1, fun k => ?_⟩
      rw [hget _ _ hk]
      by_cases hkn : k = n + 1
      · simp [hkn]
      · rw [if_neg (fun h => hkn h.2), hn]
        omega
    · obtain ⟨m, hm⟩ := h.counted name hk
      refine ⟨m, fun k => ?_⟩
      rw [hget _ _ hk, if_neg (fun h => heq h.1), hm]
  · intro name k e e' hk he he'
    rw [hget _ _ hk] at he he'
    by_cases hnew : name = d.name ∧ k + 1 = n + 1
    · rw [if_pos hnew] at he'
      rw [if_neg (by omega)] at he
      obtain rfl := Option.some.inj he'
      obtain ⟨rfl, hkn⟩ := hnew
      obtain rfl : k = n := by omega
      rw [hd.isRevision.digest_eq]
      exact hd.differs e (by rw [hlatest, he]; rfl)
    · rw [if_neg hnew] at he'
      have hold : ¬(name = d.name ∧ k = n + 1) := by
        rintro ⟨rfl, rfl⟩
        have := (hn (n + 1 + 1)).mp (by rw [he']; rfl)
        omega
      rw [if_neg hold] at he
      exact h.changes name k e e' hk he he'
  · exact hbase.hashed
  · intro row hrow
    rcases hrows row hrow with rfl | hrow
    · show ((s.withObject d.digest content).objects d.digest).isSome = true
      simp [CatalogFiles.withObject]
    · exact hbase.stored row hrow
  · intro row hrow
    rcases hrows row hrow with rfl | hrow
    · exact ⟨content, rfl, rfl, hd.isRevision.digest_eq, hd.isRevision.size_eq,
        hd.isRevision.analysis_eq⟩
    · exact h.made row hrow

end

end Sound

/-! ### Runs -/

section

variable {root : PurePath} {maximumBytes : Nat} {sha256 : Bytes → Digest}
  {analyze : Bytes → Except ε α} {s : CatalogFiles α}

theorem call_ok {p : Publication} {document : CaptureResourceDocument α}
    (h : (p.call root maximumBytes sha256 analyze s).1 = .ok document) :
    Yields s root sha256 analyze p.name (contentOf p.source) s document
      (p.call root maximumBytes sha256 analyze s).2 := by
  have htriple := triple_publish root maximumBytes sha256 analyze s p.name p.source p.description s
    p.fates rfl
  unfold Publication.call at h ⊢
  rcases hr : publish root maximumBytes sha256 analyze p.name p.source p.description (s, p.fates)
    with ⟨r, s', fates⟩
  rw [hr] at htriple h
  obtain rfl : r = .ok document := h
  exact htriple.2

theorem call_raised {p : Publication} {error : CatalogError ε}
    (h : (p.call root maximumBytes sha256 analyze s).1 = .error (.raised error)) :
    ((p.call root maximumBytes sha256 analyze s).2 = s ∨
      (p.call root maximumBytes sha256 analyze s).2 =
        s.withObject (sha256 (contentOf p.source)) (contentOf p.source)) ∧
      ((∃ existing ∈ latest root s p.name, existing.digest = sha256 (contentOf p.source)) →
        RepublishError maximumBytes p.name p.source p.description error) := by
  have htriple := triple_publish root maximumBytes sha256 analyze s p.name p.source p.description s
    p.fates rfl
  unfold Publication.call at h ⊢
  rcases hr : publish root maximumBytes sha256 analyze p.name p.source p.description (s, p.fates)
    with ⟨r, s', fates⟩
  rw [hr] at htriple h
  obtain rfl : r = .error (.raised error) := h
  exact htriple

variable (root maximumBytes sha256 analyze) (s) in
/-- What a call does to the descriptors and the objects, whatever its outcome. -/
theorem call_cutOff (p : Publication) :
    CutOff s root (sha256 (contentOf p.source)) (contentOf p.source)
      (IsNext s root sha256 analyze p.name (contentOf p.source))
      (p.call root maximumBytes sha256 analyze s).2 := by
  have htriple := triple_publish root maximumBytes sha256 analyze s p.name p.source p.description s
    p.fates rfl
  unfold Publication.call
  rcases hr : publish root maximumBytes sha256 analyze p.name p.source p.description (s, p.fates)
    with ⟨r, s', fates⟩
  rw [hr] at htriple
  rcases r with (error | _) | document
  · rcases htriple.1 with rfl | rfl
    · exact .inl ⟨rfl, rfl⟩
    · exact .inr (.inl ⟨rfl, rfl⟩)
  · exact htriple.elim .inl And.right
  · rcases htriple.2 with ⟨-, -, rfl⟩ | ⟨hnext, rfl⟩
    · exact .inl ⟨rfl, rfl⟩
    · exact .inr (.inr ⟨document, hnext, rfl, rfl⟩)

variable (root maximumBytes sha256 analyze)

theorem Sound.call (h : Sound root sha256 analyze s) (p : Publication) :
    Sound root sha256 analyze (p.call root maximumBytes sha256 analyze s).2 := by
  rcases call_cutOff root maximumBytes sha256 analyze s p with hs | hs | ⟨document, hnext, hs⟩
  · exact h.of_untouched hs
  · exact (h.withObject _).of_untouched hs
  · have hname := hnext.isRevision.name_eq
    rw [← hname] at hnext
    exact (h.added hnext).of_untouched hs

theorem Sound.descriptor_call (h : Sound root sha256 analyze s) (p : Publication) {name : Text}
    {k : Nat} {d : CaptureResourceDocument α} (hname : ResourceName name)
    (hd : s.descriptor root name k = some d) :
    (p.call root maximumBytes sha256 analyze s).2.descriptor root name k = some d := by
  rcases call_cutOff root maximumBytes sha256 analyze s p with hs | hs | ⟨document, hnext, hs⟩
  · rw [descriptor, hs.1]
    exact hd
  · rw [descriptor, hs.1]
    exact hd
  · rw [← hnext.isRevision.name_eq] at hnext
    obtain ⟨n, hn⟩ := h.counted document.name document.name_valid
    rw [descriptor, hs.1]
    show (Capture.added s root (contentOf p.source) document).descriptor root name k = some d
    rw [h.descriptor_added hnext hn hname, if_neg, hd]
    rintro ⟨rfl, rfl⟩
    have := (hn (n + 1)).mp (by rw [hd]; rfl)
    omega

theorem Sound.publishAll (h : Sound root sha256 analyze s) (calls : List Publication) :
    Sound root sha256 analyze (publishAll root maximumBytes sha256 analyze calls s) := by
  induction calls generalizing s with
  | nil => exact h
  | cons p calls ih => exact ih (h.call root maximumBytes sha256 analyze p)

theorem Sound.descriptor_publishAll (h : Sound root sha256 analyze s) (calls : List Publication)
    {name : Text} {k : Nat} {d : CaptureResourceDocument α} (hname : ResourceName name)
    (hd : s.descriptor root name k = some d) :
    (Capture.publishAll root maximumBytes sha256 analyze calls s).descriptor root name k = some d := by
  induction calls generalizing s with
  | nil => exact hd
  | cons p calls ih =>
    exact ih (h.call root maximumBytes sha256 analyze p)
      (h.descriptor_call root maximumBytes sha256 analyze p hname hd)

variable {root maximumBytes sha256 analyze}

theorem Sound.describe_revision (h : Sound root sha256 analyze s) {name : Text} (hname : ResourceName name)
    {k : Nat} {d : CaptureResourceDocument α} :
    describe (ε := ε) root s (revisionRef name k) = .ok d ↔ s.descriptor root name k = some d := by
  unfold describe
  rw [parseRef_revisionRef]
  split
  · rename_i hk
    have hnone : s.descriptor root name k ≠ some d := by
      intro hd
      obtain ⟨n, hn⟩ := h.counted name hname
      have := (hn k).mp (by rw [hd]; rfl)
      omega
    exact ⟨fun h => (by cases h), fun h => absurd h hnone⟩
  · rw [descriptor]
    rcases hget : s.resources.get (descriptorPath root name k) with _ | row
    · simp [bind, Except.bind, hget]
    · simp [bind, Except.bind, hget]

theorem Sound.describe_name (h : Sound root sha256 analyze s) {name : Text} (hname : ResourceName name)
    {n : Nat} (hn : ∀ k, (s.descriptor root name k).isSome ↔ 1 ≤ k ∧ k ≤ n) :
    describe (ε := ε) root s name =
      if n = 0 then .error (.notFound name) else describe root s (revisionRef name n) := by
  have hdescribe : describe (ε := ε) root s name = 
      (latest root s name).elim (.error (.notFound name)) .ok := by
    unfold describe
    rw [parseRef_name hname]
    cases hlatest : latest root s name with
    | none => simp [bind, Except.bind, hlatest]
    | some resource => simp [bind, Except.bind, hlatest]
  rw [hdescribe, h.latest_eq hname hn]
  rcases hd : s.descriptor root name n with _ | d
  · have hzero := hn n
    rw [hd] at hzero
    simp only [Option.isSome_none, Bool.false_eq_true, false_iff] at hzero
    rw [if_pos (by omega)]
    rfl
  · have hpos := (hn n).mp (by rw [hd]; rfl)
    rw [if_neg (by omega)]
    exact ((h.describe_revision hname).mpr hd).symm

theorem Sound.latest_of_describe (h : Sound root sha256 analyze s) {name : Text}
    (hname : ResourceName name) {d : CaptureResourceDocument α}
    (hd : describe (ε := ε) root s name = .ok d) : latest root s name = some d := by
  obtain ⟨n, hn⟩ := h.counted name hname
  rw [h.describe_name hname hn] at hd
  split at hd
  · cases hd
  · rw [h.latest_eq hname hn]
    exact (h.describe_revision hname).mp hd

variable (root maximumBytes sha256 analyze) in
/-- When no operation fails, no operation raises. -/
theorem steady_publish (name : Text) (source : List Bytes) (description : Option Text) :
    Steady (publish root maximumBytes sha256 analyze name source description :
      Catalog ε α (CaptureResourceDocument α)) (· ≠ .osError) := by
  have hstage : Steady (stage maximumBytes sha256 source : Catalog ε α _) (· ≠ .osError) := by
    have hchunks : ∀ chunks size content file, Steady
        (stageChunks maximumBytes file size content chunks : Catalog ε α _) (· ≠ .osError) := by
      intro chunks
      induction chunks with
      | nil => exact fun _ _ _ => .bind (.operation _ _) fun _ => .pure _
      | cons chunk chunks ih =>
        intro size content file
        refine .bind (.operation _ _) fun _ => ?_
        split
        · exact .pure _
        split
        · exact .raise (by simp)
        · exact .bind (.operation _ _) fun _ => ih _ _ _
    refine .bind (.operation _ _) fun file => .tryExcept (.bind (hchunks _ _ _ _) fun _ =>
      .bind (.operation _ _) fun _ => .pure _) fun error he => ?_
    exact .bind (.pureState _) fun _ => .raise he
  have hmetadata : ∀ revision, Steady
      (.ofExcept (captureMetadata name revision description) : Catalog ε α CaptureMetadata)
      (· ≠ .osError) := by
    intro revision
    refine .ofExcept fun e he => ?_
    unfold captureMetadata at he
    split at he
    · cases he
    · rw [← Except.error.inj he]
      simp
  have hrevision : ∀ file digest size revision, Steady
      (publishRevision root analyze name description file digest size revision :
        Catalog ε α (CaptureResourceDocument α)) (· ≠ .osError) := by
    intro file digest size revision
    refine .bind (.bind (.operation _ _) fun content => .ofExcept fun e he => ?_) fun _ =>
      .bind (hmetadata _) fun _ => .bind (.operation _ _) fun _ => .bind ?_ fun _ => .bind ?_ fun _ =>
        .pure _
    · rcases hr : analyze content with e' | a
      · rw [hr] at he
        obtain rfl := Except.error.inj he
        simp
      · rw [hr] at he
        cases he
    · refine .bind (.operation _ _) fun present => ?_
      split
      · exact .operation _ _
      · exact .operation _ _
    · refine .bind (.operation _ _) fun _ => .bind (.operation _ _) fun _ => .tryFinally ?_
        (.pureState _)
      exact .bind (.operation _ _) fun _ => .bind (.operation _ _) fun _ => .operation _ _
  refine .bind (hmetadata _) fun _ => .bind (.operation _ _) fun _ => .bind hstage fun r =>
    .tryFinally (.bind (.operation _ _) fun found => ?_) (.pureState _)
  rcases found with _ | existing
  · exact hrevision _ _ _ _
  · show Steady (if _ then _ else _) _
    split
    · exact .pure _
    · exact hrevision _ _ _ _

theorem call_steady {p : Publication} (hfates : p.fates = []) :
    (∃ d, (p.call root maximumBytes sha256 analyze s).1 = .ok d) ∨
      ∃ error, (p.call root maximumBytes sha256 analyze s).1 = .error (.raised error) ∧
        error ≠ .osError := by
  rw [Publication.call, hfates]
  rcases steady_publish root maximumBytes sha256 analyze p.name p.source p.description s with ⟨d, s', h⟩ | ⟨error, s', h, hne⟩
  · rw [h]
    exact .inl ⟨d, rfl⟩
  · rw [h]
    exact .inr ⟨error, rfl, hne⟩

/-- What the catalog promises between two calls. -/
structure Consistent (root : PurePath) (maximumBytes : Nat) (sha256 : Bytes → Digest)
    (analyze : Bytes → Except ε α) (s : CatalogFiles α) : Prop where
  /-- The revisions of a name are `1..n`; adjacent ones differ, and the name stands for the last. -/
  revisions : ∀ name, ResourceName name → ∃ n,
    (∀ k, 1 ≤ k → ((∃ d, describe (ε := ε) root s (revisionRef name k) = .ok d) ↔ k ≤ n)) ∧
    (∀ k d, describe (ε := ε) root s (revisionRef name k) = .ok d → d.name = name ∧ d.revision = k) ∧
    (∀ k d e, describe (ε := ε) root s (revisionRef name k) = .ok d →
      describe (ε := ε) root s (revisionRef name (k + 1)) = .ok e → d.digest ≠ e.digest) ∧
    describe (ε := ε) root s name =
      if n = 0 then .error (.notFound name) else describe root s (revisionRef name n)
  /-- Publishing the content of the latest revision returns it and adds nothing. -/
  republished : ∀ (p : Publication) d, ResourceName p.name →
    describe (ε := ε) root s p.name = .ok d → d.digest = sha256 (contentOf p.source) →
    (∀ e, (p.call root maximumBytes sha256 analyze s).1 = .ok e →
      e = d ∧ (p.call root maximumBytes sha256 analyze s).2 = s) ∧
    ((∀ text ∈ p.description, text.length ≤ 512) → (contentOf p.source).length ≤ maximumBytes →
      p.fates = [] → (p.call root maximumBytes sha256 analyze s).1 = .ok d)
  /-- A revision stays as it was published. -/
  kept : ∀ (calls : List Publication) name k d, ResourceName name →
    describe (ε := ε) root s (revisionRef name k) = .ok d →
    describe (ε := ε) root (publishAll root maximumBytes sha256 analyze calls s)
      (revisionRef name k) = .ok d
  /-- A call that raises changes no descriptor and leaves no temporary file. -/
  failing : ∀ (p : Publication) error,
    (p.call root maximumBytes sha256 analyze s).1 = .error (.raised error) →
    (p.call root maximumBytes sha256 analyze s).2.resources = s.resources ∧
      (p.call root maximumBytes sha256 analyze s).2.staged = s.staged ∧
      (p.call root maximumBytes sha256 analyze s).2.drafts = s.drafts
  /-- Every descriptor is that of a revision, and has its object; the object is the content that was
  published, unless two contents have its digest. -/
  objects : ∀ row ∈ s.resources.rows,
    describe (ε := ε) root s (revisionRef row.2.name row.2.revision) = .ok row.2 ∧
    ∃ content, s.objects row.2.digest = some content ∧ sha256 content = row.2.digest ∧
      ((∀ other, sha256 other = sha256 content → other = content) →
        row.2.size = content.length ∧ analyze content = .ok row.2.analysis)

theorem Sound.consistent (h : Sound root sha256 analyze s) :
    Consistent root maximumBytes sha256 analyze s where
  revisions name hname := by
    obtain ⟨n, hn⟩ := h.counted name hname
    refine ⟨n, fun k hk => ?_, fun k d hd => ?_, fun k d e hd he => ?_, h.describe_name hname hn⟩
    · simp only [h.describe_revision hname]
      rw [← Option.isSome_iff_exists, hn]
      exact and_iff_right hk
    · rw [h.describe_revision hname, h.descriptor_eq_some hname] at hd
      exact hd.2
    · rw [h.describe_revision hname] at hd he
      exact h.changes name k d e hname hd he
  republished p d hname hd hdigest := by
    have hlatest := h.latest_of_describe hname hd
    refine ⟨fun e he => ?_, fun hdescription hsize hfates => ?_⟩
    · rcases call_ok he with ⟨he', -, hs⟩ | ⟨hnext, -⟩
      · exact ⟨Option.some.inj (he'.symm.trans hlatest), hs⟩
      · exact absurd hdigest (hnext.differs d hlatest)
    · rcases call_steady hfates with ⟨e, he⟩ | ⟨error, hr, hne⟩
      · rcases call_ok he with ⟨he', -, -⟩ | ⟨hnext, -⟩
        · rw [he, Option.some.inj (he'.symm.trans hlatest)]
        · exact absurd hdigest (hnext.differs d hlatest)
      · -- Nothing is wrong with the call, and no operation fails.
        exfalso
        rcases (call_raised hr).2 ⟨d, hlatest, hdigest⟩ with herror | herror | ⟨hlt, -⟩
        · rw [captureMetadata, dif_pos ⟨hname, le_refl 1, hdescription⟩] at herror
          cases herror
        · exact hne herror
        · omega
  kept calls name k d hname hd := by
    rw [h.describe_revision hname] at hd
    rw [(h.publishAll root maximumBytes sha256 analyze calls).describe_revision hname]
    exact h.descriptor_publishAll root maximumBytes sha256 analyze calls hname hd
  failing p error herror := by
    rcases (call_raised herror).1 with hs | hs
    · rw [hs]
      exact ⟨rfl, rfl, rfl⟩
    · rw [hs]
      exact ⟨rfl, rfl, rfl⟩
  objects row hrow := by
    have hname := row.2.name_valid
    refine ⟨(h.describe_revision hname).mpr ((h.descriptor_eq_some hname).mpr
      ⟨⟨row.1, hrow⟩, rfl, rfl⟩), ?_⟩
    obtain ⟨content, hcontent⟩ := Option.isSome_iff_exists.mp (h.stored row hrow)
    have hdigest := h.hashed _ _ hcontent
    refine ⟨content, hcontent, hdigest, fun hunique => ?_⟩
    obtain ⟨published, hpublished⟩ := h.made row hrow
    obtain rfl := hunique published (hpublished.digest_eq.symm.trans hdigest.symm)
    exact ⟨hpublished.size_eq, hpublished.analysis_eq⟩

end

end TrexCli.Capture
