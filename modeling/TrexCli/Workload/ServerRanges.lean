import Mathlib.Order.Interval.Finset.Nat
import TrexCli.Lib.Grouping
import TrexCli.Workload.Admission

/-!
# The server addresses of a stateful replay

`_assign_server_ranges` of `astf_adapter.py`. TRex tells the templates of one server port apart by the
server address, so those get ranges of addresses that do not meet. The templates are objects that the
function changes in place: the state is the list of them, a group holds their positions.
-/

namespace TrexCli

open Grouping

/-- `_PreparedTemplate`, with its range; `none` is the empty text of an address not yet assigned. -/
structure RangedTemplate extends PreparedTemplate where
  serverIpStart : Option IpAddress
  serverIpEnd : Option IpAddress

namespace RangedTemplate

/-- The addresses of a template. -/
def range (t : RangedTemplate) : Finset Nat :=
  match t.serverIpStart, t.serverIpEnd with
  | some first, some last => Finset.Icc first.value last.value
  | _, _ => ∅

end RangedTemplate

/-! ### The assignment -/

/-- Statements that change the templates, and may raise. -/
abbrev Assigning := ExceptT Exc (StateM (List RangedTemplate))

/-- `IPv4Address(value)` -/
def ipv4Address (value : Nat) : Except Exc IpAddress :=
  if h : value < 2 ^ 32 then .ok ⟨.v4, value, h⟩
  else .error (.exception (toString value ++ " is not permitted as an IPv4 address"))

/-- The two assignments to a template. -/
def assignRange (position start chunkSize : Nat) : Assigning Unit := do
  let first ← ipv4Address start
  modify fun templates => templates.modify position fun t => { t with serverIpStart := some first }
  let last ← ipv4Address (start + chunkSize - 1)
  modify fun templates => templates.modify position fun t => { t with serverIpEnd := some last }

/-- A group, by the ids of its templates. -/
def sortedGroup (group : List (RangedTemplate × Nat)) : List (RangedTemplate × Nat) :=
  group.mergeSort fun a b => decide (a.1.id ≤ b.1.id)

/-- The ranges of the templates of one port, one after the other. -/
def assignGroup (poolStart chunkSize : Nat) (group : List (RangedTemplate × Nat)) : Assigning Unit :=
  (sortedGroup group).zipIdx.forM fun entry =>
    assignRange entry.1.2 (poolStart + entry.2 * chunkSize) chunkSize

/-- The templates of each server port. -/
def portGroups (templates : List RangedTemplate) : List (Nat × List (RangedTemplate × Nat)) :=
  groupBy (fun entry => entry.1.serverPort) templates.zipIdx

/-- `_assign_server_ranges` -/
def assignServerRanges (pool : Ipv4Pool) (dataPathThreads : Nat) : Assigning Unit := do
  let chunkSize := dataPathThreads + 1
  let groups := portGroups (← get)
  match (groups.map fun g => g.2.length * chunkSize).max? with
  | none => throw (.exception "max() iterable argument is empty")
  | some required =>
    if pool.cardinality < required then
      throw (.trexCli (resourceError "ADDRESS_POOL_EXHAUSTED"
        "server IPv4 pool cannot disambiguate workload templates sharing a port"))
    groups.forM fun g => assignGroup pool.first chunkSize g.2

/-! ### What the statements do -/

/-- The template with a range of `chunkSize` addresses. -/
def RangedTemplate.ranged (start chunkSize : Nat) (t : RangedTemplate) : RangedTemplate :=
  { t with
    serverIpStart := (ipv4Address start).toOption
    serverIpEnd := (ipv4Address (start + chunkSize - 1)).toOption }

variable {pool : Ipv4Pool} {threads chunkSize poolStart : Nat} {templates : List RangedTemplate}

theorem ipv4Address_of_lt {value : Nat} (h : value < 2 ^ 32) :
    ipv4Address value = .ok ⟨.v4, value, h⟩ := dif_pos h

theorem assignRange_run {position start : Nat} (h : start + chunkSize - 1 < 2 ^ 32)
    (hpos : 0 < chunkSize) :
    (assignRange position start chunkSize).run.run templates =
      (.ok (), templates.modify position (RangedTemplate.ranged start chunkSize)) := by
  have hfirst : start < 2 ^ 32 := by omega
  have hstart := ipv4Address_of_lt hfirst
  have hlast := ipv4Address_of_lt h
  have hrun : (assignRange position start chunkSize).run.run templates =
      (.ok (), (templates.modify position fun t =>
        { t with serverIpStart := some ⟨.v4, start, hfirst⟩ }).modify position fun t =>
          { t with serverIpEnd := some ⟨.v4, start + chunkSize - 1, h⟩ }) := by
    simp only [assignRange, hstart, hlast]
    rfl
  rw [hrun, List.modify_modify_eq]
  unfold RangedTemplate.ranged
  simp only [hstart, hlast]
  rfl

/-- Statements one after the other, none of which raises. -/
theorem forM_run {α : Type} {act : α → Assigning Unit}
    {change : List RangedTemplate → α → List RangedTemplate} {xs : List α}
    (h : ∀ x ∈ xs, ∀ ts, (act x).run.run ts = (.ok (), change ts x)) (ts : List RangedTemplate) :
    (xs.forM act).run.run ts = (.ok (), xs.foldl change ts) := by
  induction xs generalizing ts with
  | nil => rfl
  | cons x xs ih =>
    have hx := h x List.mem_cons_self ts
    have hxs := ih (fun y hy => h y (List.mem_cons_of_mem x hy)) (change ts x)
    rw [List.forM_eq_forM, List.forM_cons, ExceptT.run_bind, StateT.run_bind, hx]
    exact hxs

/-- What a list of changes at distinct positions leaves at a position. -/
theorem getElem?_foldl_modify {α β : Type} (f : β → α → α) {changes : List (Nat × β)}
    (hnodup : (changes.map Prod.fst).Nodup) (xs : List α) (i : Nat) :
    (changes.foldl (fun ys c => ys.modify c.1 (f c.2)) xs)[i]? =
      match changes.find? fun c => c.1 = i with
      | some c => xs[i]?.map (f c.2)
      | none => xs[i]? := by
  induction changes generalizing xs with
  | nil => rfl
  | cons c changes ih =>
    obtain ⟨hnot, hnodup⟩ := List.nodup_cons.mp hnodup
    rw [List.foldl_cons, ih hnodup]
    by_cases hi : c.1 = i
    · subst hi
      have hnone : changes.find? (fun c' => decide (c'.1 = c.1)) = none := by
        rw [List.find?_eq_none]
        intro c' hc' heq
        exact hnot (List.mem_map.mpr ⟨c', hc', by simpa using heq⟩)
      rw [hnone, List.find?_cons_of_pos (by simp)]
      simp
    · rw [List.find?_cons_of_neg (by simpa using hi)]
      have hother : (xs.modify c.1 (f c.2))[i]? = xs[i]? := by
        rw [List.getElem?_modify]
        simp [hi]
      rw [hother]

/-! ### Where the ranges are -/

/-- The positions of a group with the starts of their ranges. -/
def groupStarts (poolStart chunkSize : Nat) (group : List (RangedTemplate × Nat)) : List (Nat × Nat) :=
  (sortedGroup group).zipIdx.map fun entry => (entry.1.2, poolStart + entry.2 * chunkSize)

/-- All positions with the starts of their ranges. -/
def starts (poolStart chunkSize : Nat) (templates : List RangedTemplate) : List (Nat × Nat) :=
  (portGroups templates).flatMap fun g => groupStarts poolStart chunkSize g.2

theorem portGroups_groups (templates : List RangedTemplate) :
    Groups (fun entry : RangedTemplate × Nat => entry.1.serverPort) templates.zipIdx
      (portGroups templates) := groups_groupBy _ _

theorem mem_portGroup {g : Nat × List (RangedTemplate × Nat)} (hg : g ∈ portGroups templates)
    {entry : RangedTemplate × Nat} :
    entry ∈ sortedGroup g.2 ↔ templates[entry.2]? = some entry.1 ∧ entry.1.serverPort = g.1 := by
  rw [sortedGroup, List.mem_mergeSort, (portGroups_groups templates).mem_iff hg]
  rw [List.mem_zipIdx_iff_getElem?]

theorem length_portGroup {g : Nat × List (RangedTemplate × Nat)} (hg : g ∈ portGroups templates) :
    g.2.length = templates.countP fun t => t.serverPort = g.1 := by
  rw [(portGroups_groups templates).eq_filter g hg, ← List.countP_eq_length_filter]
  have hmap : templates.countP (fun t => t.serverPort = g.1) =
      (templates.zipIdx.map Prod.fst).countP (fun t => t.serverPort = g.1) := by
    rw [List.zipIdx_map_fst]
  rw [hmap, List.countP_map]
  rfl

/-- The positions of a group are distinct. -/
theorem nodup_sortedGroup {g : Nat × List (RangedTemplate × Nat)} (hg : g ∈ portGroups templates) :
    ((sortedGroup g.2).map Prod.snd).Nodup := by
  have hperm : ((sortedGroup g.2).map Prod.snd).Perm (g.2.map Prod.snd) :=
    (List.mergeSort_perm g.2 _).map Prod.snd
  rw [hperm.nodup_iff, (portGroups_groups templates).eq_filter g hg]
  refine List.Nodup.sublist (List.filter_sublist.map Prod.snd) ?_
  rw [List.zipIdx_map_snd]
  exact List.nodup_range'

theorem map_fst_groupStarts (group : List (RangedTemplate × Nat)) :
    (groupStarts poolStart chunkSize group).map Prod.fst = (sortedGroup group).map Prod.snd := by
  rw [groupStarts, List.map_map]
  calc (sortedGroup group).zipIdx.map (Prod.fst ∘ fun entry => (entry.1.2, poolStart + entry.2 * chunkSize))
      = ((sortedGroup group).zipIdx.map Prod.fst).map Prod.snd := by rw [List.map_map]; rfl
    _ = (sortedGroup group).map Prod.snd := by rw [List.zipIdx_map_fst]

/-- Every position is in the list once. -/
theorem nodup_starts : ((starts poolStart chunkSize templates).map Prod.fst).Nodup := by
  rw [starts, List.map_flatMap, List.nodup_flatMap]
  refine ⟨fun g hg => ?_, ?_⟩
  · rw [map_fst_groupStarts]
    exact nodup_sortedGroup hg
  · have hkeys : (portGroups templates).Pairwise fun g g' => g.1 ≠ g'.1 :=
      List.pairwise_map.mp (portGroups_groups templates).nodup
    refine hkeys.imp_of_mem fun {g g'} hg hg' hne => ?_
    intro i hi hi'
    simp only [map_fst_groupStarts] at hi hi'
    obtain ⟨entry, hentry, rfl⟩ := List.mem_map.mp hi
    obtain ⟨entry', hentry', hsame⟩ := List.mem_map.mp hi'
    rw [mem_portGroup hg] at hentry
    rw [mem_portGroup hg', hsame, hentry.1] at hentry'
    obtain ⟨hte, hport⟩ := hentry'
    rw [← Option.some.inj hte] at hport
    exact hne (hentry.2.symm.trans hport)

/-- A start in the list is that of a template with an index in its group. -/
theorem mem_starts {start : Nat × Nat} :
    start ∈ starts poolStart chunkSize templates ↔
      ∃ g ∈ portGroups templates, ∃ entry k, (sortedGroup g.2)[k]? = some entry ∧
        start = (entry.2, poolStart + k * chunkSize) := by
  simp only [starts, groupStarts, List.mem_flatMap, List.mem_map, Prod.exists,
    List.mem_zipIdx_iff_getElem?]
  grind

/-! ### The result -/

/-- The pool has enough addresses for the templates of each server port. -/
def Disambiguates (pool : Ipv4Pool) (threads : Nat) (templates : List RangedTemplate) : Prop :=
  ∀ port, (templates.countP fun t => t.serverPort = port) * (threads + 1) ≤ pool.cardinality

/-- An index in the group of a port. -/
theorem lt_of_getElem?_sortedGroup {g : Nat × List (RangedTemplate × Nat)}
    (hg : g ∈ portGroups templates) {entry : RangedTemplate × Nat} {k : Nat}
    (h : (sortedGroup g.2)[k]? = some entry) :
    k < templates.countP fun t => t.serverPort = g.1 := by
  obtain ⟨hk, -⟩ := List.getElem?_eq_some_iff.mp h
  rwa [sortedGroup, List.length_mergeSort, length_portGroup hg] at hk

/-- The range of an index in a group is in the pool. -/
theorem range_le_last (hfits : Disambiguates pool threads templates) {port k : Nat}
    (hk : k < templates.countP fun t => t.serverPort = port) :
    pool.first + k * (threads + 1) + threads ≤ pool.last := by
  have hport := hfits port
  have hmul := Nat.mul_le_mul_right (threads + 1) (Nat.succ_le_of_lt hk)
  rw [Nat.succ_mul] at hmul
  have hle := pool.le
  rw [Ipv4Pool.cardinality] at hport
  omega

/-- The templates with their ranges. -/
def rangedTemplates (pool : Ipv4Pool) (threads : Nat) (templates : List RangedTemplate) :
    List RangedTemplate :=
  (starts pool.first (threads + 1) templates).foldl
    (fun ts start => ts.modify start.1 (RangedTemplate.ranged start.2 (threads + 1))) templates

theorem assignGroup_run {g : Nat × List (RangedTemplate × Nat)} (hg : g ∈ portGroups templates)
    (hfits : Disambiguates pool threads templates) (ts : List RangedTemplate) :
    (assignGroup pool.first (threads + 1) g.2).run.run ts =
      (.ok (), (groupStarts pool.first (threads + 1) g.2).foldl
        (fun ts start => ts.modify start.1 (RangedTemplate.ranged start.2 (threads + 1))) ts) := by
  rw [groupStarts, List.foldl_map]
  refine forM_run (fun entry hentry ts => ?_) ts
  have hk := lt_of_getElem?_sortedGroup hg (List.mem_zipIdx_iff_getElem?.mp hentry)
  have hlast := range_le_last hfits hk
  have hlt := pool.lt
  exact assignRange_run (by omega) (by omega)

/-- The largest of the group sizes is too large exactly when some port has too many templates. -/
theorem required_le_iff (pool : Ipv4Pool) (threads : Nat) (hne : templates ≠ []) :
    ∃ required, ((portGroups templates).map fun g => g.2.length * (threads + 1)).max? = some required ∧
      (required ≤ pool.cardinality ↔ Disambiguates pool threads templates) := by
  have hgroups := portGroups_groups templates
  have hsome : ((portGroups templates).map fun g => g.2.length * (threads + 1)) ≠ [] := by
    obtain ⟨t, rest, rfl⟩ := List.exists_cons_of_ne_nil hne
    obtain ⟨g, hg, -, -⟩ := hgroups.exists_mem (x := (t, 0)) (by simp)
    simpa using List.ne_nil_of_mem hg
  obtain ⟨required, hrequired⟩ := Option.ne_none_iff_exists'.mp (List.max?_eq_none_iff.not.mpr hsome)
  refine ⟨required, hrequired, ?_⟩
  obtain ⟨hmem, hmax⟩ := List.max?_eq_some_iff.mp hrequired
  constructor
  · intro hle port
    rcases Nat.eq_zero_or_pos (templates.countP fun t => t.serverPort = port) with hzero | hpos
    · rw [hzero]
      omega
    · obtain ⟨t, ht, hport⟩ := List.countP_pos_iff.mp hpos
      obtain ⟨i, hi⟩ := List.mem_iff_getElem?.mp ht
      obtain ⟨g, hg, hkey, -⟩ := hgroups.exists_mem (x := (t, i)) (List.mem_zipIdx_iff_getElem?.mpr hi)
      have hlength := hmax _ (List.mem_map_of_mem hg)
      rw [length_portGroup hg, hkey, show t.serverPort = port by simpa using hport] at hlength
      exact hlength.trans hle
  · intro hfits
    obtain ⟨g, hg, rfl⟩ := List.mem_map.mp hmem
    rw [length_portGroup hg]
    exact hfits g.1

theorem assignServerRanges_run (pool : Ipv4Pool) (threads : Nat) (hne : templates ≠ []) :
    (Disambiguates pool threads templates ∧ (assignServerRanges pool threads).run.run templates =
      (.ok (), rangedTemplates pool threads templates)) ∨
    (¬Disambiguates pool threads templates ∧ (assignServerRanges pool threads).run.run templates =
      (.error (.trexCli (resourceError "ADDRESS_POOL_EXHAUSTED"
        "server IPv4 pool cannot disambiguate workload templates sharing a port")), templates)) := by
  obtain ⟨required, hrequired, hiff⟩ := required_le_iff pool threads hne
  have hrun : (assignServerRanges pool threads).run.run templates =
      ((do
        if pool.cardinality < required then
          throw (.trexCli (resourceError "ADDRESS_POOL_EXHAUSTED"
            "server IPv4 pool cannot disambiguate workload templates sharing a port"))
        (portGroups templates).forM fun g => assignGroup pool.first (threads + 1) g.2 :
          Assigning Unit).run.run templates) := by
    rw [assignServerRanges, ExceptT.run_bind, StateT.run_bind]
    show StateT.run (ExceptT.run (match ((portGroups templates).map
      fun g => g.2.length * (threads + 1)).max? with | none => _ | some required => _)) templates = _
    rw [hrequired]
  rw [hrun]
  by_cases hfits : Disambiguates pool threads templates
  · rw [if_neg (Nat.not_lt.mpr (hiff.mpr hfits))]
    refine .inl ⟨hfits, ?_⟩
    rw [rangedTemplates, starts, List.foldl_flatMap]
    exact forM_run (fun g hg ts => assignGroup_run hg hfits ts) templates
  · rw [if_pos (Nat.not_le.mp (hiff.not.mpr hfits))]
    exact .inr ⟨hfits, rfl⟩

/-- Each template has the range of its index in the group of its port. -/
theorem getElem?_rangedTemplates (pool : Ipv4Pool) (threads : Nat) {i : Nat} {t : RangedTemplate}
    (ht : templates[i]? = some t) :
    ∃ g ∈ portGroups templates, g.1 = t.serverPort ∧ ∃ k, (sortedGroup g.2)[k]? = some (t, i) ∧
      (rangedTemplates pool threads templates)[i]? =
        some (t.ranged (pool.first + k * (threads + 1)) (threads + 1)) := by
  obtain ⟨g, hg, hport, hmem⟩ := (portGroups_groups templates).exists_mem
    (x := (t, i)) (List.mem_zipIdx_iff_getElem?.mpr ht)
  have hsorted : (t, i) ∈ sortedGroup g.2 := List.mem_mergeSort.mpr hmem
  obtain ⟨k, hk⟩ := List.mem_iff_getElem?.mp hsorted
  refine ⟨g, hg, hport, k, hk, ?_⟩
  rw [rangedTemplates, getElem?_foldl_modify
    (fun start => RangedTemplate.ranged start (threads + 1)) nodup_starts]
  have hstart : (i, pool.first + k * (threads + 1)) ∈ starts pool.first (threads + 1) templates :=
    mem_starts.mpr ⟨g, hg, (t, i), k, hk, rfl⟩
  cases hfind : (starts pool.first (threads + 1) templates).find? fun c => c.1 = i with
  | none => simpa using List.find?_eq_none.mp hfind _ hstart
  | some c =>
    have hi : c.1 = i := by simpa using List.find?_some hfind
    have hc : c = (i, pool.first + k * (threads + 1)) :=
      List.inj_on_of_nodup_map nodup_starts (List.mem_of_find?_eq_some hfind) hstart hi
    rw [hc, ht]
    rfl

theorem length_rangedTemplates :
    (rangedTemplates pool threads templates).length = templates.length := by
  rw [rangedTemplates]
  generalize starts pool.first (threads + 1) templates = all
  induction all generalizing templates with
  | nil => rfl
  | cons start all ih => rw [List.foldl_cons, ih, List.length_modify]

theorem RangedTemplate.range_ranged {start : Nat} (t : RangedTemplate) (h : start + threads < 2 ^ 32) :
    (t.ranged start (threads + 1)).range = Finset.Icc start (start + threads) := by
  have hstart := ipv4Address_of_lt (show start < 2 ^ 32 by omega)
  have hlast := ipv4Address_of_lt (show start + (threads + 1) - 1 < 2 ^ 32 by omega)
  unfold ranged range
  rw [hstart, hlast]
  rfl

/-- The templates of one port have their ranges one after the other. -/
theorem disjoint_ranges {start k k' : Nat} (hne : k ≠ k') :
    Disjoint (Finset.Icc (start + k * (threads + 1)) (start + k * (threads + 1) + threads))
      (Finset.Icc (start + k' * (threads + 1)) (start + k' * (threads + 1) + threads)) := by
  have hapart : ∀ {a b : Nat}, a < b → a * (threads + 1) + threads < b * (threads + 1) := by
    intro a b hab
    have hmul := Nat.mul_le_mul_right (threads + 1) (Nat.succ_le_of_lt hab)
    rw [Nat.succ_mul] at hmul
    omega
  rw [Finset.disjoint_left]
  intro address h h'
  rw [Finset.mem_Icc] at h h'
  rcases Nat.lt_or_gt_of_ne hne with hlt | hlt
  · have hstep := hapart hlt
    omega
  · have hstep := hapart hlt
    omega

/-- What a template has after the assignment. -/
theorem ranged_facts (hfits : Disambiguates pool threads templates) {i : Nat} {t : RangedTemplate}
    (ht : templates[i]? = some t) :
    ∃ g ∈ portGroups templates, g.1 = t.serverPort ∧ ∃ k, (sortedGroup g.2)[k]? = some (t, i) ∧
      ∃ t', (rangedTemplates pool threads templates)[i]? = some t' ∧
        t'.toPreparedTemplate = t.toPreparedTemplate ∧
        t'.range = Finset.Icc (pool.first + k * (threads + 1))
          (pool.first + k * (threads + 1) + threads) ∧
        pool.first + k * (threads + 1) + threads ≤ pool.last := by
  obtain ⟨g, hg, hport, k, hk, hranged⟩ := getElem?_rangedTemplates pool threads ht
  have hlast := range_le_last hfits (lt_of_getElem?_sortedGroup hg hk)
  have hlt := pool.lt
  exact ⟨g, hg, hport, k, hk, _, hranged, rfl, t.range_ranged (by omega), hlast⟩

/-- A template of the result is one of the arguments, with a range in the pool. -/
theorem mem_rangedTemplates (hfits : Disambiguates pool threads templates) {i : Nat}
    {t' : RangedTemplate} (ht' : (rangedTemplates pool threads templates)[i]? = some t') :
    ∃ t, templates[i]? = some t ∧ t'.toPreparedTemplate = t.toPreparedTemplate ∧
      ∃ g ∈ portGroups templates, g.1 = t.serverPort ∧ ∃ k, (sortedGroup g.2)[k]? = some (t, i) ∧
        t'.range = Finset.Icc (pool.first + k * (threads + 1))
          (pool.first + k * (threads + 1) + threads) ∧
        pool.first + k * (threads + 1) + threads ≤ pool.last := by
  obtain ⟨hi, -⟩ := List.getElem?_eq_some_iff.mp ht'
  rw [length_rangedTemplates] at hi
  obtain ⟨g, hg, hport, k, hk, t'', ht'', hsame, hrange, hlast⟩ :=
    ranged_facts hfits (List.getElem?_eq_getElem hi)
  obtain rfl : t'' = t' := Option.some.inj (ht''.symm.trans ht')
  exact ⟨_, List.getElem?_eq_getElem hi, hsame, g, hg, hport, k, hk, hrange, hlast⟩

/-- Templates of one port have ranges that do not meet. -/
theorem pairwise_disjoint (hfits : Disambiguates pool threads templates) :
    (rangedTemplates pool threads templates).Pairwise fun t t' =>
      t.serverPort = t'.serverPort → Disjoint t.range t'.range := by
  rw [List.pairwise_iff_getElem]
  intro i j hi hj hij hport
  obtain ⟨t, ht, hsame, g, hg, hgport, k, hk, hrange, -⟩ :=
    mem_rangedTemplates hfits (List.getElem?_eq_getElem hi)
  obtain ⟨t', ht', hsame', g', hg', hgport', k', hk', hrange', -⟩ :=
    mem_rangedTemplates hfits (List.getElem?_eq_getElem hj)
  have hkey : g.1 = g'.1 := by
    rw [hgport, hgport', ← show _ = t.serverPort from congrArg PreparedTemplate.serverPort hsame,
      ← show _ = t'.serverPort from congrArg PreparedTemplate.serverPort hsame']
    exact hport
  obtain rfl := (portGroups_groups templates).eq_of_key hg hg' hkey
  rw [hrange, hrange']
  refine disjoint_ranges fun hkk => ?_
  -- one index of the group is one position
  subst hkk
  rw [hk] at hk'
  exact hij.ne (congrArg Prod.snd (Option.some.inj hk'))

/-- The assignment succeeds exactly when the pool has enough addresses for the templates of each port;
then each template has its own addresses of the pool among those of its port, and otherwise no template
is changed. -/
theorem assignServerRanges_disambiguates (pool : Ipv4Pool) (threads : Nat)
    {templates : List RangedTemplate} (hne : templates ≠ []) :
    (((assignServerRanges pool threads).run.run templates).1 = .ok () ↔
      Disambiguates pool threads templates) ∧
    (((assignServerRanges pool threads).run.run templates).1 = .ok () →
      ((assignServerRanges pool threads).run.run templates).2.map RangedTemplate.toPreparedTemplate =
        templates.map RangedTemplate.toPreparedTemplate ∧
      (∀ t ∈ ((assignServerRanges pool threads).run.run templates).2,
        t.range ⊆ Finset.Icc pool.first pool.last ∧ t.range.card = threads + 1) ∧
      ((assignServerRanges pool threads).run.run templates).2.Pairwise fun t t' =>
        t.serverPort = t'.serverPort → Disjoint t.range t'.range) ∧
    (((assignServerRanges pool threads).run.run templates).1 ≠ .ok () →
      ((assignServerRanges pool threads).run.run templates).2 = templates) := by
  rcases assignServerRanges_run pool threads hne with ⟨hfits, hrun⟩ | ⟨hfits, hrun⟩
  · rw [hrun]
    refine ⟨⟨fun _ => hfits, fun _ => rfl⟩, fun _ => ⟨?_, ?_, pairwise_disjoint hfits⟩,
      fun hnot => absurd rfl hnot⟩
    · apply List.ext_getElem?
      intro i
      rw [List.getElem?_map, List.getElem?_map]
      cases ht : templates[i]? with
      | none =>
        rw [List.getElem?_eq_none_iff] at ht
        rw [List.getElem?_eq_none_iff.mpr (by rwa [length_rangedTemplates])]
      | some t =>
        obtain ⟨-, -, -, -, -, t', ht', hsame, -⟩ := ranged_facts hfits ht
        rw [ht']
        exact congrArg some hsame
    · intro t' ht'
      obtain ⟨i, hi⟩ := List.mem_iff_getElem?.mp ht'
      obtain ⟨-, -, -, -, -, -, k, -, hrange, hlast⟩ := mem_rangedTemplates hfits hi
      rw [hrange, Nat.card_Icc]
      refine ⟨Finset.Icc_subset_Icc (Nat.le_add_right _ _) hlast, ?_⟩
      omega
  · rw [hrun]
    exact ⟨⟨fun h => (nomatch h), fun h => absurd h hfits⟩, fun h => (nomatch h), fun _ => rfl⟩

/-- A template as `_validate_sync` leaves it. -/
def PreparedTemplate.unassigned (t : PreparedTemplate) : RangedTemplate :=
  { t with serverIpStart := none, serverIpEnd := none }

/-- The templates of a prepared replay get their ranges. -/
theorem disambiguates_of_prepared {engine : WorkloadEngine} {spec : StatefulReplaySpec}
    {prepared : List PreparedTemplate} (h : prepareStatefulReplay engine spec = .ok prepared) :
    Disambiguates spec.server.ipv4Pool engine.dataPathThreads
      (prepared.map PreparedTemplate.unassigned) := by
  unfold prepareStatefulReplay at h
  obtain ⟨capture, -, h⟩ := bind_eq_ok.mp h
  obtain ⟨found, -, h⟩ := bind_eq_ok.mp h
  simp only [check_bind_eq_ok, require_eq_ok] at h
  obtain ⟨-, -, -, henough, h⟩ := h
  cases h
  intro port
  rw [List.countP_map, List.countP_eq_length_filter]
  rcases List.eq_nil_or_concat (prepared.filter
    ((fun t => decide (t.serverPort = port)) ∘ PreparedTemplate.unassigned)) with hnil | ⟨rest, t, hmem⟩
  · rw [hnil, List.length_nil, Nat.zero_mul]
    exact Nat.zero_le _
  · have ht : t ∈ prepared.filter
        ((fun t => decide (t.serverPort = port)) ∘ PreparedTemplate.unassigned) := by
      rw [hmem]
      simp
    obtain ⟨hprepared, hport⟩ := List.mem_filter.mp ht
    obtain rfl : t.serverPort = port := of_decide_eq_true hport
    exact henough t hprepared

/-- A server template of a workload. -/
def httpTemplate (id : String) : RangedTemplate where
  id
  serverPort := 80
  cps := 1
  maxActiveConnections := 1
  occurrenceCount := 1
  weight := 1
  capture := { digest := "", templateDigest := "", exchanges := [] }
  serverIpStart := none
  serverIpEnd := none

/-- Four addresses are enough for two templates of a port on one thread. -/
theorem assignServerRanges_two :
    ((assignServerRanges { first := 10, last := 13, le := by decide, lt := by decide } 1).run.run
      [httpTemplate "b", httpTemplate "a"]).1 = .ok () := by
  refine (assignServerRanges_disambiguates _ 1 (List.cons_ne_nil _ _)).1.mpr fun port => ?_
  have hlength : [httpTemplate "b", httpTemplate "a"].countP (fun t => t.serverPort = port) ≤ 2 :=
    List.countP_le_length
  exact Nat.mul_le_mul_right 2 hlength

end TrexCli
