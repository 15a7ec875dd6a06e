import Mathlib.Data.List.Nodup
import Mathlib.Data.List.Sort
import ScriptGraph.Disk

/-!
# What accesses do to the entries of a disk

One statement for each access, about the entries that paths have before and after it.  An access that succeeds changes
the entry of its own path and no other.  Names can only be used in a directory: `lookup_append` says which of them,
and `mem_fileNames` which are found when a directory is listed.  On a disk that was empty once, each entry stands in a
directory and can be looked for (`IsTree`), since what is put somewhere was looked for there.
-/

namespace ScriptGraph.Disk

variable {d d' : Disk} {path p : Path} {content : Content}

/-! ### Looking -/

/-- The root has an entry of its own, all others are in the table. -/
theorem entry?_of_ne (h : path ≠ []) : d.entry? path = d.entries[path]? := by
  cases path with
  | nil => exact absurd rfl h
  | cons name names => rfl

theorem entry?_insert (h : path ≠ []) (d : Disk) (e : Entry) (p : Path) :
    Disk.entry? ⟨d.entries.insert path e⟩ p = if p = path then some e else d.entry? p := by
  by_cases hp : p = []
  · rw [hp, if_neg h.symm]
    rfl
  · rw [entry?_of_ne hp, entry?_of_ne hp, Std.TreeMap.getElem?_insert]
    simp only [Std.LawfulEqCmp.compare_eq_iff_eq, eq_comm (a := p)]

theorem entry?_erase (h : path ≠ []) (d : Disk) (p : Path) :
    Disk.entry? ⟨d.entries.erase path⟩ p = if p = path then none else d.entry? p := by
  by_cases hp : p = []
  · rw [hp, if_neg h.symm]
    rfl
  · rw [entry?_of_ne hp, entry?_of_ne hp, Std.TreeMap.getElem?_erase]
    simp only [Std.LawfulEqCmp.compare_eq_iff_eq, eq_comm (a := p)]

/-- What is found is the entry, and what is found is in a directory. -/
theorem lookup_eq_ok {e : Option Entry} (h : d.lookup path = .ok e) :
    d.entry? path = e ∧ d.entry? path.dropLast = some .directory := by
  simp only [lookup] at h
  split at h
  · split at h
    · cases h
    · cases h
    · next hparent =>
      split at h
      · cases h
      · cases h
        exact ⟨rfl, hparent⟩
  · cases h

/-- In a directory every name can be looked for that is not too long, also together with the path. -/
theorem lookup_append {name : String} (hparent : d.entry? path = some .directory)
    (husable : isUsable (path ++ [name]) = true) (hlength : name.utf8ByteSize ≤ maxNameBytes) :
    d.lookup (path ++ [name]) = .ok (d.entry? (path ++ [name])) := by
  simp only [lookup, husable, if_true, List.dropLast_concat, hparent, List.getLastD_concat,
    if_neg (Nat.not_lt.2 hlength)]

private theorem ne_nil_of_ne_directory (h : d.entry? path ≠ some .directory) : path ≠ [] := by
  rintro rfl
  exact h rfl

/-! ### Making and writing -/

theorem ensureDir_eq_ok (h : d.ensureDir path = .ok d') :
    (∀ p, d'.entry? p = if p = path then some .directory else d.entry? p) ∧
      (d.entry? path = none ∨ d.entry? path = some .directory) := by
  simp only [ensureDir] at h
  split at h
  · cases h
  · next hnone =>
    obtain ⟨hentry, -⟩ := lookup_eq_ok hnone
    have hne : path ≠ [] := ne_nil_of_ne_directory (d := d) (by simp [hentry])
    cases h
    exact ⟨entry?_insert hne d .directory, .inl hentry⟩
  · next hdir =>
    obtain ⟨hentry, -⟩ := lookup_eq_ok hdir
    cases h
    refine ⟨fun p => ?_, .inr hentry⟩
    split
    · next hp => rw [hp, hentry]
    · rfl
  · cases h

theorem write_eq_ok (h : d.write path content = .ok d') :
    (∀ p, d'.entry? p = if p = path then some (.file content) else d.entry? p) ∧
      d.entry? path ≠ some .directory := by
  simp only [write] at h
  split at h
  · cases h
  · cases h
  · next e hne hlookup =>
    obtain ⟨hentry, -⟩ := lookup_eq_ok hlookup
    have hnodir : d.entry? path ≠ some .directory := by
      rw [hentry]
      exact hne
    cases h
    exact ⟨entry?_insert (ne_nil_of_ne_directory hnodir) d (.file content), hnodir⟩

/-! ### Files in a directory -/

section Files

variable {name : String} (hparent : d.entry? path = some .directory) (husable : isUsable (path ++ [name]) = true)
  (hlength : name.utf8ByteSize ≤ maxNameBytes)

include hparent husable hlength

theorem write_append (content : Content) (h : d.entry? (path ++ [name]) ≠ some .directory) :
    ∃ d', d.write (path ++ [name]) content = .ok d' := by
  rw [write, lookup_append hparent husable hlength]
  split
  · next hlookup => cases hlookup
  · next hlookup => exact absurd (Except.ok.inj hlookup) h
  · exact ⟨_, rfl⟩

theorem read_append_of_none (h : d.entry? (path ++ [name]) = none) : d.read (path ++ [name]) = .error .missing := by
  rw [read, lookup_append hparent husable hlength, h]

theorem read_append_of_file (h : d.entry? (path ++ [name]) = some (.file content)) :
    d.read (path ++ [name]) = .ok content := by
  rw [read, lookup_append hparent husable hlength, h]

theorem removeFile_append_of_none (h : d.entry? (path ++ [name]) = none) :
    d.removeFile (path ++ [name]) = .error .missing := by
  rw [removeFile, lookup_append hparent husable hlength, h]

theorem removeFile_append_of_file (h : d.entry? (path ++ [name]) = some (.file content)) :
    ∃ d', d.removeFile (path ++ [name]) = .ok d' ∧
      ∀ p, d'.entry? p = if p = path ++ [name] then none else d.entry? p := by
  rw [removeFile, lookup_append hparent husable hlength, h]
  exact ⟨_, rfl, entry?_erase (by simp) d⟩

end Files

theorem fileNames_of_directory (h : d.entry? path = some .directory) : ∃ names, d.fileNames path = .ok names := by
  rw [fileNames, h]
  exact ⟨_, rfl⟩

/-- The name of a file in a directory. -/
private def fileName? (path : Path) (q : Path × Entry) : Option String :=
  if q.2 ≠ .directory ∧ q.1.dropLast = path then q.1.getLast? else none

private theorem fileNames_eq_ok {names : List String} (h : d.fileNames path = .ok names) :
    names = d.entries.toList.filterMap (fileName? path) := by
  simp only [fileNames] at h
  split at h
  · cases h
    apply List.filterMap_congr
    rintro ⟨q, _ | content⟩ - <;> simp [fileName?]
  · cases h
  · cases h

private theorem fileName?_eq_some {q : Path × Entry} {name : String} :
    fileName? path q = some name ↔ q.1 = path ++ [name] ∧ ∃ content, q.2 = .file content := by
  obtain ⟨q, _ | content⟩ := q
  · simp [fileName?]
  · have hpath : q.dropLast = path ∧ q.getLast? = some name ↔ q = path ++ [name] := by
      constructor
      · rintro ⟨rfl, hlast⟩
        exact (List.dropLast_append_getLast? name hlast).symm
      · rintro rfl
        simp
    simp [fileName?, hpath]

/-- What is listed are the names of the files in the directory. -/
theorem mem_fileNames {names : List String} (h : d.fileNames path = .ok names) (name : String) :
    name ∈ names ↔ ∃ content, d.entry? (path ++ [name]) = some (.file content) := by
  have hentry : d.entry? (path ++ [name]) = d.entries[path ++ [name]]? := entry?_of_ne (by simp)
  rw [fileNames_eq_ok h, List.mem_filterMap, hentry]
  constructor
  · rintro ⟨⟨q, e⟩, hmem, hname⟩
    obtain ⟨rfl, content, rfl⟩ := fileName?_eq_some.1 hname
    exact ⟨content, Std.TreeMap.mem_toList_iff_getElem?_eq_some.1 hmem⟩
  · rintro ⟨content, hcontent⟩
    exact ⟨(path ++ [name], .file content), Std.TreeMap.mem_toList_iff_getElem?_eq_some.2 hcontent,
      fileName?_eq_some.2 ⟨rfl, content, rfl⟩⟩

/-- No name is listed twice. -/
theorem nodup_fileNames {names : List String} (h : d.fileNames path = .ok names) : names.Nodup := by
  rw [fileNames_eq_ok h]
  refine List.Pairwise.filterMap _ ?_ Std.TreeMap.distinct_keys_toList
  rintro q q' hne name hname _ hname' rfl
  obtain ⟨hq, -⟩ := fileName?_eq_some.1 hname
  obtain ⟨hq', -⟩ := fileName?_eq_some.1 hname'
  exact hne (Std.LawfulEqCmp.compare_eq_iff_eq.2 (hq.trans hq'.symm))

/-! ### Trees -/

/-- An entry can stand at a path. -/
structure HasPlace (d : Disk) (path : Path) : Prop where
  usable : isUsable path = true
  inside : d.entry? path.dropLast = some .directory
  short : (path.getLastD "").utf8ByteSize ≤ maxNameBytes

theorem lookup_eq_ok_iff {e : Option Entry} : d.lookup path = .ok e ↔ d.HasPlace path ∧ d.entry? path = e := by
  constructor
  · intro h
    obtain ⟨hentry, hinside⟩ := lookup_eq_ok h
    refine ⟨⟨?_, hinside, ?_⟩, hentry⟩
    · by_contra husable
      rw [lookup, if_neg husable] at h
      cases h
    · by_contra hlong
      simp only [lookup, hinside, if_pos (Nat.lt_of_not_le hlong)] at h
      split at h <;> cases h
  · rintro ⟨⟨husable, hinside, hshort⟩, rfl⟩
    simp only [lookup, husable, if_true, hinside, if_neg (Nat.not_lt.2 hshort)]

/-- Each entry stands at a place for one. -/
def IsTree (d : Disk) : Prop := ∀ p e, d.entry? p = some e → d.HasPlace p

theorem isTree_empty : empty.IsTree := by
  intro p e h
  cases p with
  | nil => exact ⟨by decide, rfl, by decide⟩
  | cons name names =>
    rw [entry?_of_ne (List.cons_ne_nil name names), empty, Std.TreeMap.getElem?_emptyc] at h
    cases h

namespace IsTree

theorem lookup (h : d.IsTree) {e : Entry} (he : d.entry? p = some e) : d.lookup p = .ok (some e) :=
  lookup_eq_ok_iff.2 ⟨h p e he, he⟩

/-- Entries that are left are in directories that are left. -/
private theorem of_stays (hplace : ∀ p e, d'.entry? p = some e → d.HasPlace p)
    (hstays : ∀ p e, d'.entry? p = some e → d.entry? p.dropLast = some .directory →
      d'.entry? p.dropLast = some .directory) : d'.IsTree := by
  intro p e he
  obtain ⟨husable, hinside, hshort⟩ := hplace p e he
  exact ⟨husable, hstays p e he hinside, hshort⟩

/-- One entry changes, and no directory goes. -/
private theorem change (h : d.IsTree) (hplace : d.HasPlace path) (hold : d.entry? path ≠ some .directory)
    {e : Option Entry} (hentry : ∀ p, d'.entry? p = if p = path then e else d.entry? p) : d'.IsTree := by
  refine of_stays (d := d) (fun p e' he' => ?_) fun p e' _ hinside => ?_
  · rw [hentry] at he'
    split at he'
    · next hp => exact hp ▸ hplace
    · exact h p e' he'
  · rw [hentry, if_neg, hinside]
    intro hp
    exact hold (hp ▸ hinside)

theorem makeDir (h : d.IsTree) (hmake : d.makeDir path = .ok d') : d'.IsTree := by
  simp only [Disk.makeDir] at hmake
  split at hmake
  · cases hmake
  · next hnone =>
    cases hmake
    obtain ⟨hplace, hentry⟩ := lookup_eq_ok_iff.1 hnone
    have hold : d.entry? path ≠ some .directory := by simp [hentry]
    exact h.change hplace hold (entry?_insert (ne_nil_of_ne_directory hold) d .directory)
  · cases hmake

theorem ensureDir (h : d.IsTree) (hensure : d.ensureDir path = .ok d') : d'.IsTree := by
  have hmake : d.makeDir path = .ok d' → d'.IsTree := h.makeDir
  simp only [Disk.ensureDir] at hensure
  simp only [Disk.makeDir] at hmake
  split at hensure
  · cases hensure
  · next hnone =>
    rw [hnone] at hmake
    exact hmake hensure
  · cases hensure
    exact h
  · cases hensure

theorem makeDirsIn (h : d.IsTree) (path : Path) (names : List String) : (d.makeDirsIn path names).2.IsTree := by
  induction names generalizing d path with
  | nil => exact h
  | cons name names ih =>
    rw [Disk.makeDirsIn]
    split
    · exact ih h path
    · split
      · split
        · exact h
        · exact ih h path.dropLast
      · dsimp only
        split
        · exact h
        · next d' hstep =>
          refine ih ?_ (path ++ [name])
          split at hstep
          · rw [requireDir] at hstep
            split at hstep <;> cases hstep
            exact h
          · exact h.ensureDir hstep

theorem makeDirs (h : d.IsTree) (names : List String) : (d.makeDirs names).2.IsTree := by
  rw [Disk.makeDirs]
  split
  · exact h.makeDirsIn [] names
  · exact h

theorem write (h : d.IsTree) (hwrite : d.write path content = .ok d') : d'.IsTree := by
  obtain ⟨hentry, hold⟩ := write_eq_ok hwrite
  simp only [Disk.write] at hwrite
  split at hwrite
  · cases hwrite
  · cases hwrite
  · next hlookup => exact h.change (lookup_eq_ok_iff.1 hlookup).1 hold hentry

theorem removeFile (h : d.IsTree) (hremove : d.removeFile path = .ok d') : d'.IsTree := by
  simp only [Disk.removeFile] at hremove
  split at hremove
  · cases hremove
  · cases hremove
  · cases hremove
  · next hlookup =>
    cases hremove
    obtain ⟨hplace, hentry⟩ := lookup_eq_ok_iff.1 hlookup
    have hold : d.entry? path ≠ some .directory := by simp [hentry]
    exact h.change hplace hold (entry?_erase (ne_nil_of_ne_directory hold) d)

theorem removeDir (h : d.IsTree) (hremove : d.removeDir path = .ok d') : d'.IsTree := by
  simp only [Disk.removeDir] at hremove
  split at hremove
  · cases hremove
    have hleft {p : Path} {e : Entry} (hp : p ≠ []) :
        Disk.entry? ⟨d.entries.filter fun p _ => !path.isPrefixOf p⟩ p = some e ↔
          ¬ path <+: p ∧ d.entry? p = some e := by
      rw [entry?_of_ne hp, entry?_of_ne hp, Std.TreeMap.getElem?_filter', Option.filter_eq_some_iff,
        Bool.not_eq_true', ← Bool.not_eq_true, List.isPrefixOf_iff_prefix, and_comm]
    refine of_stays (d := d) (fun p e he => ?_) fun p e he hinside => ?_
    · by_cases hp : p = []
      · subst hp
        exact h [] .directory rfl
      · exact h p e ((hleft hp).1 he).2
    · by_cases hparent : p.dropLast = []
      · rw [hparent]
        rfl
      · have hp : p ≠ [] := by
          rintro rfl
          exact hparent rfl
        -- what is above the removed directory is not in it
        refine (hleft hparent).2 ⟨fun habove => ?_, hinside⟩
        exact ((hleft hp).1 he).1 (habove.trans p.dropLast_prefix)
  · cases hremove
  · cases hremove

end IsTree

end ScriptGraph.Disk
