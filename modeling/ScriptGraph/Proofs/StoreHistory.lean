import ScriptGraph.Proofs.DiskEntries
import ScriptGraph.Proofs.FreshNames
import ScriptGraph.Store.Files
import ScriptGraph.Store.Memory

/-!
# What stores answer

Both stores keep the same thing: for each name the graph that was saved last under it and not deleted since
(`lastSaved`).  `Answers` says what a call must answer then, without a word about maps, files or their names.  Each
store stands for what it keeps by a relation of its own, which every call respects (`Refines`), and so both give
these answers after every history of calls (`stores_answer_alike`).
-/

namespace ScriptGraph

/-- A call to a store. -/
inductive StoreCall where
  | save (name : String) (g : Graph Float32)
  | load (name : String)
  | list
  | delete (name : String)

/-- What a store answers to a call. -/
inductive StoreAnswer where
  | saved (answer : Except ScriptError Unit)
  | loaded (answer : Except ScriptError (Graph Float32))
  | listed (answer : Except ScriptError (List String))
  | deleted (answer : Except ScriptError Bool)

/-- The answer with the identifiers of nodes changed. -/
def StoreAnswer.rename (ρ : String → String) : StoreAnswer → StoreAnswer
  | loaded answer => loaded (answer.map (·.rename ρ))
  | answer => answer

namespace StoreCall

/-- The name of the script that a call is about. -/
def name? : StoreCall → Option String
  | save name _ | load name | delete name => some name
  | list => none

/-- A call that is about a script has a name of a kind. -/
def IsAbout (usable : String → Prop) (call : StoreCall) : Prop :=
  ∀ name, call.name? = some name → usable name

/-- Makes a call. -/
def ask {σ : Type} [ScriptStore σ] (fresh : Nat → String) (s : σ) : StoreCall → StoreAnswer × σ
  | save name g => (ScriptStore.save name g s).map .saved id
  | load name => (ScriptStore.load fresh name s).map .loaded id
  | list => (ScriptStore.list s).map .listed id
  | delete name => (ScriptStore.delete name s).map .deleted id

/-- What a call leaves under a name, if it changes that. -/
def effectOn? (name : String) : StoreCall → Option (Option (Graph Float32))
  | save other g => if other = name then some (some g) else none
  | delete other => if other = name then some none else none
  | load _ | list => none

theorem effectOn?_of_name?_ne {call : StoreCall} {name : String} (h : call.name? ≠ some name) :
    call.effectOn? name = none := by
  cases call with
  | save other g => exact if_neg fun hother => h (congrArg some hother)
  | load other => rfl
  | list => rfl
  | delete other => exact if_neg fun hother => h (congrArg some hother)

/-- What is kept after a call. -/
def effect (call : StoreCall) (kept : String → Option (Graph Float32)) (name : String) : Option (Graph Float32) :=
  (call.effectOn? name).getD (kept name)

theorem effect_save (name : String) (g : Graph Float32) (kept : String → Option (Graph Float32)) :
    (save name g).effect kept = fun other => if name = other then some g else kept other := by
  funext other
  rw [effect, effectOn?]
  split <;> rfl

theorem effect_delete (name : String) (kept : String → Option (Graph Float32)) :
    (delete name).effect kept = fun other => if name = other then none else kept other := by
  funext other
  rw [effect, effectOn?]
  split <;> rfl

end StoreCall

/-- The graph that was saved last under a name, unless it was deleted after that. -/
def lastSaved (calls : List StoreCall) (name : String) : Option (Graph Float32) :=
  (calls.reverse.findSome? (·.effectOn? name)).getD none

/-- A store after some calls. `fresh k` are the identifiers for the call number `k`. -/
def ScriptStore.after {σ : Type} [ScriptStore σ] (fresh : Nat → Nat → String) (calls : List StoreCall) (s : σ) : σ :=
  calls.zipIdx.foldl (fun s p => (p.1.ask (fresh p.2) s).2) s

/-- The answer to a call after others. -/
def ScriptStore.answer {σ : Type} [ScriptStore σ] (fresh : Nat → Nat → String) (calls : List StoreCall)
    (call : StoreCall) (s : σ) : StoreAnswer :=
  (call.ask (fresh calls.length) (ScriptStore.after fresh calls s)).1

/-- The answer to loading, by the graph that was saved last. -/
def loadOf (fresh : Nat → String) (name : String) : Option (Graph Float32) → Except ScriptError (Graph Float32)
  | none => .error (ScriptStore.notFound name)
  | some g => if g.nodes = [] then .error .noNodes else ScriptStore.decode fresh (Document.encode g)

/-- What the answer to a call must be, by the graphs that are kept. -/
def Answers (fresh : Nat → String) (kept : String → Option (Graph Float32)) : StoreCall → StoreAnswer → Prop
  | .save _ _, answer => answer = .saved (.ok ())
  | .load name, answer => answer = .loaded (loadOf fresh name (kept name))
  | .list, answer =>
    ∃ names, answer = .listed (.ok names) ∧ names.Pairwise (· < ·) ∧ ∀ name, name ∈ names ↔ (kept name).isSome
  | .delete name, answer => answer = .deleted (.ok (kept name).isSome)

/-! ### Histories -/

theorem lastSaved_concat (calls : List StoreCall) (call : StoreCall) :
    lastSaved (calls ++ [call]) = call.effect (lastSaved calls) := by
  funext name
  rw [StoreCall.effect, lastSaved, List.reverse_concat, List.findSome?_cons]
  cases call.effectOn? name <;> rfl

/-- What is kept was saved. -/
theorem save_mem_of_lastSaved {calls : List StoreCall} {name : String} {g : Graph Float32}
    (h : lastSaved calls name = some g) : .save name g ∈ calls := by
  rw [lastSaved, Option.getD_eq_iff] at h
  obtain hfound | ⟨-, hnone⟩ := h
  · obtain ⟨call, hcall, heffect⟩ := List.exists_of_findSome?_eq_some hfound
    rw [List.mem_reverse] at hcall
    cases call with
    | save other g' =>
      rw [StoreCall.effectOn?] at heffect
      split at heffect
      · next hother =>
        cases heffect
        exact hother ▸ hcall
      · cases heffect
    | load other => cases heffect
    | list => cases heffect
    | delete other =>
      rw [StoreCall.effectOn?] at heffect
      split at heffect <;> cases heffect
  · cases hnone

theorem ScriptStore.after_concat {σ : Type} [ScriptStore σ] (fresh : Nat → Nat → String) (calls : List StoreCall)
    (call : StoreCall) (s : σ) :
    ScriptStore.after fresh (calls ++ [call]) s =
      (call.ask (fresh calls.length) (ScriptStore.after fresh calls s)).2 := by
  simp [ScriptStore.after, List.zipIdx_append]

/-- A relation of stores to the graphs that they keep, with what each operation answers and keeps. Only names of a
kind are used. -/
structure Refines {σ : Type} [ScriptStore σ] (usable : String → Prop)
    (keeps : σ → (String → Option (Graph Float32)) → Prop) : Prop where
  save : ∀ {s : σ} {kept : String → Option (Graph Float32)} {name : String} (g : Graph Float32),
    keeps s kept → usable name → ∃ s', ScriptStore.save name g s = (.ok (), s') ∧
      keeps s' fun other => if name = other then some g else kept other
  load : ∀ {s : σ} {kept : String → Option (Graph Float32)} {name : String} (fresh : Nat → String),
    keeps s kept → usable name → ScriptStore.load fresh name s = (loadOf fresh name (kept name), s)
  list : ∀ {s : σ} {kept : String → Option (Graph Float32)}, keeps s kept →
    ∃ names, ScriptStore.list s = (.ok names, s) ∧ names.Pairwise (· < ·) ∧
      ∀ name, name ∈ names ↔ (kept name).isSome
  delete : ∀ {s : σ} {kept : String → Option (Graph Float32)} {name : String},
    keeps s kept → usable name → ∃ s', ScriptStore.delete name s = (.ok (kept name).isSome, s') ∧
      keeps s' fun other => if name = other then none else kept other

namespace Refines

variable {σ : Type} [ScriptStore σ] {usable : String → Prop} {keeps : σ → (String → Option (Graph Float32)) → Prop}
  {s : σ} {kept : String → Option (Graph Float32)} {calls : List StoreCall} {call : StoreCall}

/-- A call is answered as it must be, and the store keeps what is left then. -/
theorem ask (h : Refines usable keeps) (hs : keeps s kept) (hcall : call.IsAbout usable) (fresh : Nat → String) :
    Answers fresh kept call (call.ask fresh s).1 ∧ keeps (call.ask fresh s).2 (call.effect kept) := by
  cases call with
  | save name g =>
    obtain ⟨s', hsave, hnext⟩ := h.save g hs (hcall name rfl)
    rw [StoreCall.effect_save, StoreCall.ask, hsave]
    exact ⟨rfl, hnext⟩
  | load name =>
    rw [StoreCall.ask, h.load fresh hs (hcall name rfl)]
    exact ⟨rfl, hs⟩
  | list =>
    obtain ⟨names, hlist, hrising, hmem⟩ := h.list hs
    rw [StoreCall.ask, hlist]
    exact ⟨⟨names, rfl, hrising, hmem⟩, hs⟩
  | delete name =>
    obtain ⟨s', hdelete, hnext⟩ := h.delete hs (hcall name rfl)
    rw [StoreCall.effect_delete, StoreCall.ask, hdelete]
    exact ⟨rfl, hnext⟩

theorem after (h : Refines usable keeps) (hs : keeps s fun _ => none) (fresh : Nat → Nat → String)
    (hcalls : ∀ c ∈ calls, c.IsAbout usable) : keeps (ScriptStore.after fresh calls s) (lastSaved calls) := by
  induction calls using List.reverseRecOn with
  | nil => exact hs
  | append_singleton calls call ih =>
    have hbefore : keeps (ScriptStore.after fresh calls s) (lastSaved calls) := ih fun c hc => hcalls c (by simp [hc])
    have hnext := (h.ask hbefore (hcalls call (by simp)) (fresh calls.length)).2
    rwa [← ScriptStore.after_concat, ← lastSaved_concat] at hnext

theorem answer (h : Refines usable keeps) (hs : keeps s fun _ => none) (fresh : Nat → Nat → String)
    (hcalls : ∀ c ∈ call :: calls, c.IsAbout usable) :
    Answers (fresh calls.length) (lastSaved calls) call (ScriptStore.answer fresh calls call s) :=
  (h.ask (h.after hs fresh fun c hc => hcalls c (List.mem_cons_of_mem _ hc))
    (hcalls call (List.mem_cons_self ..)) _).1

end Refines

theorem decode_encode_eq_loadOf (fresh : Nat → String) (name : String) (g : Graph Float32) :
    ScriptStore.decode fresh (Document.encode g) = loadOf fresh name (some g) := by
  rw [loadOf]
  split
  · next hempty =>
    obtain ⟨nodes⟩ := g
    obtain rfl : nodes = [] := hempty
    rfl
  · rfl

/-! ### The store in memory -/

/-- The documents in memory are those of the graphs that are kept. -/
def MemoryStore.Keeps (s : MemoryStore) (kept : String → Option (Graph Float32)) : Prop :=
  ∀ name, s.documents[name]? = (kept name).map Document.encode

namespace MemoryStore

variable {s : MemoryStore} {kept : String → Option (Graph Float32)}

theorem save_of_isValidName {name : String} (h : ScriptStore.isValidName name = true) (g : Graph Float32)
    (s : MemoryStore) :
    ScriptStore.save name g s = (.ok (), (⟨s.documents.insert name (Document.encode g)⟩ : MemoryStore)) := by
  have hvalid : ScriptStore.validateName name = .ok () := if_pos h
  change s.insertRaw name (Document.encode g) = _
  rw [insertRaw, hvalid]

theorem Keeps.load (h : s.Keeps kept) (fresh : Nat → String) (name : String) :
    ScriptStore.load fresh name s = (loadOf fresh name (kept name), s) := by
  have hname := h name
  cases hkept : kept name with
  | none =>
    rw [hkept] at hname
    simp only [ScriptStore.load, hname]
    rfl
  | some g =>
    rw [hkept] at hname
    simp only [ScriptStore.load, hname, Option.map_some, decode_encode_eq_loadOf fresh name g]

theorem Keeps.contains (h : s.Keeps kept) (name : String) : s.documents.contains name = (kept name).isSome := by
  rw [Std.TreeMap.contains_eq_isSome_getElem?, h name, Option.isSome_map]

theorem refines : Refines (ScriptStore.isValidName · = true) Keeps where
  save := by
    intro s kept name g hs hname
    refine ⟨_, save_of_isValidName hname g s, ?_⟩
    intro other
    rw [Std.TreeMap.getElem?_insert]
    simp only [Std.LawfulEqCmp.compare_eq_iff_eq]
    split
    · rfl
    · exact hs other
  load fresh hs _ := hs.load fresh _
  list := by
    intro s kept hs
    refine ⟨s.documents.keys, rfl, ?_, ?_⟩
    · exact (Std.TreeMap.ordered_keys (t := s.documents)).imp fun h => compareOfLessAndEq_eq_lt.1 h
    · intro name
      rw [Std.TreeMap.mem_keys, Std.TreeMap.mem_iff_contains, hs.contains]
  delete := by
    intro s kept name hs _
    have hdelete : ScriptStore.delete name s =
        (.ok (s.documents.contains name), (⟨s.documents.erase name⟩ : MemoryStore)) := rfl
    rw [hs.contains] at hdelete
    refine ⟨_, hdelete, ?_⟩
    intro other
    rw [Std.TreeMap.getElem?_erase]
    simp only [Std.LawfulEqCmp.compare_eq_iff_eq]
    split
    · rfl
    · exact hs other

theorem keeps_empty : Keeps .empty fun _ => none :=
  fun _ => rfl

end MemoryStore

/-! ### The store in a directory -/

namespace FileStore

/-- The file of a script leads back to its name, unless that is empty. -/
theorem scriptName?_eq_some {fileName name : String} :
    scriptName? fileName = some name ↔ name ≠ "" ∧ fileName = name ++ extension := by
  have hchars : fileName = name ++ extension ↔ fileName.toList = name.toList ++ extension.toList := by
    rw [← String.toList_append, String.toList_inj]
  have hempty : name ≠ "" ↔ name.toList ≠ [] := by
    rw [ne_eq, ne_eq, String.toList_eq_nil_iff]
  rw [hchars, hempty, scriptName?]
  constructor
  · intro h
    split at h
    · next hstem =>
      cases h
      rw [Bool.and_eq_true, beq_iff_eq] at hstem
      rw [String.toList_ofList]
      exact ⟨by simpa using hstem.1, hstem.2.symm⟩
    · cases h
  · rintro ⟨hne, hfile⟩
    have hstem : fileName.toList.take (fileName.toList.length - extension.toList.length) = name.toList := by
      rw [hfile, List.length_append, Nat.add_sub_cancel, List.take_left]
    simp only [hstem]
    rw [if_pos (by simp [hne, hfile]), String.ofList_toList]

/-- The name of the file of a script. -/
theorem append_extension_inj {name other : String} : name ++ extension = other ++ extension ↔ name = other := by
  rw [← String.toList_inj, String.toList_append, String.toList_append, List.append_left_inj, String.toList_inj]

private theorem nodup_filterMap {names : List String} (h : names.Nodup) : (names.filterMap scriptName?).Nodup := by
  refine List.Pairwise.filterMap _ ?_ h
  rintro fileName fileName' hne name hname _ hname' rfl
  exact hne ((scriptName?_eq_some.1 hname).2.trans (scriptName?_eq_some.1 hname').2.symm)

/-- Different names that are sorted are in rising order. -/
private theorem pairwise_lt_mergeSort {names : List String} (h : names.Nodup) :
    (names.mergeSort fun a b => decide (a ≤ b)).Pairwise (· < ·) := by
  have hle : (names.mergeSort fun a b => decide (a ≤ b)).Pairwise (fun a b => decide (a ≤ b) = true) := by
    refine List.pairwise_mergeSort ?_ ?_ names
    · intro a b c hab hbc
      exact decide_eq_true (String.le_trans (of_decide_eq_true hab) (of_decide_eq_true hbc))
    · intro a b
      simpa using String.le_total a b
  have hne : (names.mergeSort fun a b => decide (a ≤ b)).Nodup := (List.mergeSort_perm ..).nodup_iff.2 h
  refine (hle.and hne).imp ?_
  rintro a b ⟨hab, hne⟩
  exact Std.lt_of_le_of_ne (of_decide_eq_true hab) hne

section Listing

variable {s : FileStore} {names : List String}

theorem list_of_directory (h : s.disk.entry? s.directory = some .directory) : ∃ names, s.list = .ok names := by
  obtain ⟨fileNames, hfileNames⟩ := Disk.fileNames_of_directory h
  rw [list, hfileNames]
  exact ⟨_, rfl⟩

private theorem list_eq_ok (h : s.list = .ok names) : ∃ fileNames, s.disk.fileNames s.directory = .ok fileNames ∧
    names = (fileNames.filterMap scriptName?).mergeSort fun a b => decide (a ≤ b) := by
  rw [list] at h
  split at h
  · next fileNames hfileNames =>
    cases h
    exact ⟨fileNames, hfileNames, rfl⟩
  · cases h

/-- What is listed are the names of the scripts that have a file. -/
theorem mem_list (h : s.list = .ok names) (name : String) :
    name ∈ names ↔ name ≠ "" ∧ ∃ content, s.disk.entry? (s.path name) = some (.file content) := by
  obtain ⟨fileNames, hfileNames, rfl⟩ := list_eq_ok h
  have hmem := Disk.mem_fileNames hfileNames
  rw [List.mem_mergeSort, List.mem_filterMap]
  constructor
  · rintro ⟨fileName, hfile, hname⟩
    obtain ⟨hne, rfl⟩ := scriptName?_eq_some.1 hname
    exact ⟨hne, (hmem _).1 hfile⟩
  · rintro ⟨hne, hfile⟩
    exact ⟨name ++ extension, (hmem _).2 hfile, scriptName?_eq_some.2 ⟨hne, rfl⟩⟩

theorem pairwise_list (h : s.list = .ok names) : names.Pairwise (· < ·) := by
  obtain ⟨fileNames, hfileNames, rfl⟩ := list_eq_ok h
  exact pairwise_lt_mergeSort (nodup_filterMap (Disk.nodup_fileNames hfileNames))

end Listing

/-- The names of scripts that a directory can hold. -/
structure Fits (directory : Disk.Path) (name : String) : Prop where
  valid : ScriptStore.isValidName name = true
  usable : Disk.isUsable (directory ++ [name ++ extension]) = true
  short : (name ++ extension).utf8ByteSize ≤ Disk.maxNameBytes

/-- The files of scripts in the directory are the documents of the graphs that are kept. -/
structure Keeps (directory : Disk.Path) (s : FileStore) (kept : String → Option (Graph Float32)) : Prop where
  place : s.directory = directory
  there : s.disk.entry? directory = some .directory
  file : ∀ name, s.disk.entry? (directory ++ [name ++ extension]) =
    (kept name).map fun g => .file (.text (Document.encode g))
  named : ∀ name, (kept name).isSome → name ≠ ""

variable {directory : Disk.Path} {s : FileStore} {kept : String → Option (Graph Float32)} {name : String}

private theorem Keeps.path (h : Keeps directory s kept) (name : String) :
    s.path name = directory ++ [name ++ extension] := by
  rw [FileStore.path, h.place]

private theorem validateName (h : Fits directory name) : ScriptStore.validateName name = .ok () :=
  if_pos h.valid

private theorem ne_empty (h : Fits directory name) : name ≠ "" := by
  rintro rfl
  exact absurd h.valid (by decide)

/-- A file is put in place of what was there, and nothing else in the directory changes. -/
private theorem Keeps.change (h : Keeps directory s kept) (hname : Fits directory name) (g : Option (Graph Float32))
    {disk : Disk}
    (hdisk : ∀ p, disk.entry? p = if p = directory ++ [name ++ extension] then
      g.map fun g => .file (.text (Document.encode g)) else s.disk.entry? p) :
    Keeps directory { s with disk } fun other => if name = other then g else kept other where
  place := h.place
  there := by
    rw [hdisk, if_neg (by simp), h.there]
  file := by
    intro other
    rw [hdisk]
    by_cases hother : name = other
    · simp [hother]
    · rw [if_neg, if_neg hother, h.file]
      intro hpath
      have hlast := List.append_cancel_left hpath
      exact hother (append_extension_inj.1 (List.singleton_inj.1 hlast)).symm
  named := by
    intro other hother
    split at hother
    · next hsame => exact hsame ▸ ne_empty hname
    · exact h.named other hother

theorem Keeps.save (h : Keeps directory s kept) (hname : Fits directory name) (g : Graph Float32) :
    ∃ s', ScriptStore.save name g s = (.ok (), s') ∧
      Keeps directory s' fun other => if name = other then some g else kept other := by
  have hnodir : s.disk.entry? (directory ++ [name ++ extension]) ≠ some .directory := by
    rw [h.file name]
    cases kept name <;> simp
  obtain ⟨disk, hdisk⟩ :=
    Disk.write_append h.there hname.usable hname.short (.text (Document.encode g)) hnodir
  refine ⟨{ s with disk }, ?_, h.change hname (some g) (Disk.write_eq_ok hdisk).1⟩
  change FileStore.save name g s = _
  rw [FileStore.save, validateName hname, h.path, hdisk]
  rfl

theorem Keeps.load (h : Keeps directory s kept) (hname : Fits directory name) (fresh : Nat → String) :
    ScriptStore.load fresh name s = (loadOf fresh name (kept name), s) := by
  have hfile := h.file name
  change (FileStore.load fresh name s, s) = _
  rw [FileStore.load, validateName hname, h.path]
  cases hkept : kept name with
  | none =>
    rw [hkept] at hfile
    rw [Disk.read_append_of_none h.there hname.usable hname.short hfile]
    rfl
  | some g =>
    rw [hkept] at hfile
    rw [Disk.read_append_of_file h.there hname.usable hname.short hfile]
    exact congrArg (·, s) (decode_encode_eq_loadOf fresh name g)

theorem Keeps.delete (h : Keeps directory s kept) (hname : Fits directory name) :
    ∃ s', ScriptStore.delete name s = (.ok (kept name).isSome, s') ∧
      Keeps directory s' fun other => if name = other then none else kept other := by
  have hfile := h.file name
  change ∃ s', FileStore.delete name s = _ ∧ _
  cases hkept : kept name with
  | none =>
    rw [hkept] at hfile
    have hsame : (fun other => if name = other then none else kept other) = kept := by
      funext other
      split
      · next hother => rw [← hother, hkept]
      · rfl
    refine ⟨s, ?_, by rwa [hsame]⟩
    rw [FileStore.delete, validateName hname, h.path,
      Disk.removeFile_append_of_none h.there hname.usable hname.short hfile]
    rfl
  | some g =>
    rw [hkept] at hfile
    obtain ⟨disk, hdisk, hentry⟩ := Disk.removeFile_append_of_file h.there hname.usable hname.short hfile
    refine ⟨{ s with disk }, ?_, h.change hname none hentry⟩
    rw [FileStore.delete, validateName hname, h.path, hdisk]
    rfl

theorem Keeps.list (h : Keeps directory s kept) :
    ∃ names, ScriptStore.list s = (.ok names, s) ∧ names.Pairwise (· < ·) ∧
      ∀ name, name ∈ names ↔ (kept name).isSome := by
  obtain ⟨names, hnames⟩ := list_of_directory (s := s) (by rw [h.place, h.there])
  refine ⟨names, congrArg (·, s) hnames, pairwise_list hnames, ?_⟩
  intro name
  rw [mem_list hnames, h.path, h.file]
  constructor
  · rintro ⟨-, content, hcontent⟩
    obtain ⟨g, hg, -⟩ := Option.map_eq_some_iff.1 hcontent
    rw [hg]
    rfl
  · intro hkept
    obtain ⟨g, hg⟩ := Option.isSome_iff_exists.1 hkept
    exact ⟨h.named name hkept, .text (Document.encode g), by rw [hg, Option.map_some]⟩

theorem refines (directory : Disk.Path) : Refines (Fits directory) (Keeps directory) where
  save g hs hname := hs.save hname g
  load fresh hs hname := hs.load hname fresh
  list hs := hs.list
  delete hs hname := hs.delete hname

end FileStore

/-! ### Both stores -/

/-- Right answers are the same up to the fresh identifiers. -/
theorem Answers.eq_rename {fresh fresh' : Nat → String} {ρ : String → String}
    (hρ : Document.IsRenaming fresh fresh' ρ) {kept : String → Option (Graph Float32)}
    (havoid : ∀ name g, kept name = some g →
      Document.Avoids fresh (Document.records (Document.encodeChars g)).2 ∧
        Document.Avoids fresh' (Document.records (Document.encodeChars g)).2)
    {call : StoreCall} {answer answer' : StoreAnswer} (h : Answers fresh kept call answer)
    (h' : Answers fresh' kept call answer') : answer' = answer.rename ρ := by
  cases call with
  | save name g =>
    rw [show answer = _ from h, show answer' = _ from h']
    rfl
  | load name =>
    rw [show answer = _ from h, show answer' = _ from h', StoreAnswer.rename]
    refine congrArg StoreAnswer.loaded ?_
    cases hkept : kept name with
    | none => rfl
    | some g =>
      obtain ⟨hfresh, hfresh'⟩ := havoid name g hkept
      have hdecode := Document.decodeChars_rename hρ hfresh hfresh'
      rw [← decode_encode_eq_loadOf, ← decode_encode_eq_loadOf]
      simp only [ScriptStore.decode, Document.decode, Document.encode, String.toList_ofList, hdecode]
      cases Document.decodeChars fresh (Document.encodeChars g) <;> rfl
  | list =>
    obtain ⟨names, rfl, hrising, hmem⟩ := h
    obtain ⟨names', rfl, hrising', hmem'⟩ := h'
    have hnames : names' = names := hrising'.eq_of_mem_iff hrising fun name => (hmem' name).trans (hmem name).symm
    rw [hnames]
    rfl
  | delete name =>
    rw [show answer = _ from h, show answer' = _ from h']
    rfl

/-- The store in memory and the store in an empty directory answer every call after every history of calls as a store
must that keeps what was saved last under each name. So their answers are the same, up to the fresh identifiers that
loading gives to nodes. -/
theorem stores_answer_alike (disk : Disk) (directory : Disk.Path) (hthere : disk.entry? directory = some .directory)
    (hnone : ∀ fileName, disk.entry? (directory ++ [fileName]) = none) (calls : List StoreCall) (call : StoreCall)
    (hnames : ∀ c ∈ call :: calls, c.IsAbout (FileStore.Fits directory)) (fresh fresh' : Nat → Nat → String) :
    Answers (fresh calls.length) (lastSaved calls) call (ScriptStore.answer fresh calls call MemoryStore.empty) ∧
      Answers (fresh' calls.length) (lastSaved calls) call
        (ScriptStore.answer fresh' calls call (⟨disk, directory⟩ : FileStore)) ∧
      (Function.Injective (fresh calls.length) →
        (∀ name g, lastSaved calls name = some g →
          Document.Avoids (fresh calls.length) (Document.records (Document.encodeChars g)).2 ∧
            Document.Avoids (fresh' calls.length) (Document.records (Document.encodeChars g)).2) →
        ∃ ρ, Document.IsRenaming (fresh calls.length) (fresh' calls.length) ρ ∧
          ScriptStore.answer fresh' calls call (⟨disk, directory⟩ : FileStore) =
            (ScriptStore.answer fresh calls call MemoryStore.empty).rename ρ) ∧
      ∀ name, call.name? ≠ some name → lastSaved (calls ++ [call]) name = lastSaved calls name := by
  have hkeeps : FileStore.Keeps directory ⟨disk, directory⟩ fun _ => none :=
    ⟨rfl, hthere, fun name => hnone _, fun _ h => nomatch h⟩
  have hvalid : ∀ c ∈ call :: calls, c.IsAbout (ScriptStore.isValidName · = true) :=
    fun c hc name hname => (hnames c hc name hname).valid
  have hmemory := MemoryStore.refines.answer MemoryStore.keeps_empty fresh hvalid
  have hfiles := (FileStore.refines directory).answer hkeeps fresh' hnames
  refine ⟨hmemory, hfiles, ?_, ?_⟩
  · intro hinj havoid
    obtain ⟨ρ, hρ⟩ := Document.exists_isRenaming hinj (fresh' calls.length)
    exact ⟨ρ, hρ, hmemory.eq_rename hρ havoid hfiles⟩
  · intro name hname
    rw [lastSaved_concat, StoreCall.effect, StoreCall.effectOn?_of_name?_ne hname]
    rfl

/-- Two nodes with one identifier and a node without one. -/
def twins : Graph Float32 :=
  let node (id : String) : Node Float32 := Node.make id .action "Wait" ⟨0, 0⟩ .gray
  ((((((Graph.empty.add (node "a")).add (node "a")).add (node "")).connect 0 1).2).connect 1 2).2

/-- Calls with names that look like those of files. -/
def crossing : List StoreCall :=
  [.save "a.json" twins, .save "a" .empty, .save ".json" .empty, .load "a", .delete "a"]

/-- Identifiers that repeat a character. -/
def repeated (c : Char) (i : Nat) : String := String.ofList (List.replicate (i + 1) c)

private theorem injective_repeated (c : Char) : Function.Injective (repeated c) := by
  intro i j h
  have hlength := congrArg List.length (String.ofList_injective h)
  simpa using hlength

private theorem avoids_twins {c : Char} (hc : c ≠ 'a') :
    Document.Avoids (repeated c) (Document.records (Document.encodeChars twins)).2 := by
  apply Document.avoids_encodeChars
  · decide +kernel
  · intro n hn i hid
    have hmem : n.id ∈ twins.nodes.map (·.id) := List.mem_map_of_mem hn
    rw [show twins.nodes.map (·.id) = ["a", "a", ""] by rfl, hid] at hmem
    simp [repeated, String.ext_iff, List.replicate_succ, hc] at hmem

theorem stores_answer_alike_twins :
    lastSaved crossing "a.json" = some twins ∧
      ∃ ρ, Document.IsRenaming (repeated '#') (repeated '*') ρ ∧
        ScriptStore.answer (fun _ => repeated '*') crossing (.load "a.json")
            (⟨⟨Disk.empty.entries.insert ["scripts"] .directory⟩, ["scripts"]⟩ : FileStore) =
          (ScriptStore.answer (fun _ => repeated '#') crossing (.load "a.json") MemoryStore.empty).rename ρ := by
  have hentry := Disk.entry?_insert (show ["scripts"] ≠ [] by simp) .empty .directory
  have hnames : ∀ c ∈ StoreCall.load "a.json" :: crossing, c.IsAbout (FileStore.Fits ["scripts"]) := by
    have hjson : FileStore.Fits ["scripts"] "a.json" := ⟨by decide, by decide, by decide⟩
    have hplain : FileStore.Fits ["scripts"] "a" := ⟨by decide, by decide, by decide⟩
    have hdot : FileStore.Fits ["scripts"] ".json" := ⟨by decide, by decide, by decide⟩
    simp only [crossing, List.forall_mem_cons, StoreCall.IsAbout, StoreCall.name?, Option.some.injEq, forall_eq']
    exact ⟨hjson, hjson, hplain, hdot, hplain, hplain, by simp⟩
  have havoid : ∀ name g, lastSaved crossing name = some g →
      Document.Avoids (repeated '#') (Document.records (Document.encodeChars g)).2 ∧
        Document.Avoids (repeated '*') (Document.records (Document.encodeChars g)).2 := by
    intro name g hg
    have hsaved : g = twins ∨ g = .empty := by
      have hmem := save_mem_of_lastSaved hg
      simp only [crossing, List.mem_cons, StoreCall.save.injEq, reduceCtorEq, false_or] at hmem
      rcases hmem with ⟨-, hg⟩ | ⟨-, hg⟩ | ⟨-, hg⟩ | hnil
      · exact .inl hg
      · exact .inr hg
      · exact .inr hg
      · cases hnil
    rcases hsaved with rfl | rfl
    · exact ⟨avoids_twins (by decide), avoids_twins (by decide)⟩
    · exact ⟨fun r hr => absurd hr List.not_mem_nil, fun r hr => absurd hr List.not_mem_nil⟩
  obtain ⟨-, -, hsame, -⟩ := stores_answer_alike ⟨Disk.empty.entries.insert ["scripts"] .directory⟩ ["scripts"]
    ((hentry _).trans (if_pos rfl)) (fun fileName => (hentry _).trans (if_neg (by simp))) crossing (.load "a.json")
    hnames (fun _ => repeated '#') fun _ => repeated '*'
  exact ⟨rfl, hsame (injective_repeated '#') havoid⟩

end ScriptGraph
