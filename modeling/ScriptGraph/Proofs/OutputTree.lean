import Mathlib.Logic.Relation
import ScriptGraph.Generator
import ScriptGraph.Proofs.DiskEntries

/-!
# Where mods are generated

Running a graph makes one entry after the other: folders in the directory of all mods or in a folder that was made
before, and files in folders that were made before (`Step`).  All their names are names of single entries, whatever
was typed (`isEntryName_of_safeName?`).  So what was made is below the directory at every point of a run
(`Confined`), for every graph, with cycles or without; and a run that fails was refused such an entry or reached the
limit (`Stops`).  Both together are `generates_below_root`.
-/

namespace ScriptGraph.Generator

open Disk (Path)

/-! ### Names and paths -/

/-- A name of one entry of a folder, which leads nowhere else. -/
structure IsEntryName (name : String) : Prop where
  ne_empty : name ≠ ""
  ne_dot : name ≠ "."
  ne_dots : name ≠ ".."
  plain : ∀ c ∈ name.toList, c ≠ '/' ∧ c ≠ '\\' ∧ c ≠ '\x00'

private theorem plain_of_all {name : String}
    (h : name.toList.all (fun c => c != '/' && c != '\\' && c != '\x00') = true) :
    ∀ c ∈ name.toList, c ≠ '/' ∧ c ≠ '\\' ∧ c ≠ '\x00' := by
  intro c hc
  simpa [and_assoc] using List.all_eq_true.1 h c hc

theorem isEntryName_of_safeName? {text name : String} (h : safeName? text = some name) : IsEntryName name := by
  simp only [safeName?] at h
  split at h
  · cases h
  · next hdots =>
    cases h
    -- a name that only has dots was refused, and the empty name is one of them
    have hne {chars : List Char} {other : String} (hchars : ¬chars.all (· == '.') = true)
        (hother : other.toList.all (· == '.') = true) : String.ofList chars ≠ other := by
      rintro rfl
      rw [String.toList_ofList] at hother
      exact hchars hother
    refine ⟨hne hdots rfl, hne hdots rfl, hne hdots rfl, ?_⟩
    intro c hc
    rw [String.toList_ofList] at hc
    obtain ⟨b, -, rfl⟩ := List.mem_map.1 hc
    split
    · decide
    · next hb => simp_all

example : safeName? " ../a:b\x00 " = some ".._a_b_" := by decide

theorem IsEntryName.append_hjson {name : String} (h : IsEntryName name) : IsEntryName (name ++ ".hjson") := by
  have hne (other : String) (hlength : other.length ≤ 5) : name ++ ".hjson" ≠ other := by
    rintro rfl
    rw [String.length_append] at hlength
    exact absurd (Nat.le_trans (Nat.le_add_left _ _) hlength) (by decide)
  refine ⟨hne _ (by decide), hne _ (by decide), hne _ (by decide), ?_⟩
  intro c hc
  rw [String.toList_append, List.mem_append] at hc
  rcases hc with hc | hc
  · exact h.plain c hc
  · exact plain_of_all (by decide) c hc

theorem isEntryName_of_fileOf {recipe : Recipe} {n : Node Float32} {name : String}
    (h : (fileOf recipe n).1 = some name) : IsEntryName name := by
  have hnamed : ∀ text, (safeName? text).map (· ++ ".hjson") = some name → IsEntryName name := by
    intro text htext
    obtain ⟨stem, hstem, rfl⟩ := Option.map_eq_some_iff.1 htext
    exact (isEntryName_of_safeName? hstem).append_hjson
  have hmod : IsEntryName "mod.hjson" := ⟨by decide, by decide, by decide, plain_of_all (by decide)⟩
  cases recipe with
  | modFolder => simp only [fileOf, reduceCtorEq] at h
  | folder => simp only [fileOf, reduceCtorEq] at h
  | modInfo =>
    simp only [fileOf, Option.some.injEq] at h
    exact h ▸ hmod
  | blockFile =>
    simp only [fileOf] at h
    exact hnamed _ h
  | unitFile =>
    simp only [fileOf] at h
    exact hnamed _ h
  | itemFile =>
    simp only [fileOf] at h
    exact hnamed _ h
  | script =>
    simp only [fileOf] at h
    exact isEntryName_of_safeName? h

/-- A path that leads from a directory through at least so many names of entries. -/
def IsBelow (root : Path) (count : Nat) (path : Path) : Prop :=
  ∃ names, path = root ++ names ∧ count ≤ names.length ∧ ∀ name ∈ names, IsEntryName name

theorem isBelow_self (root : Path) : IsBelow root 0 root :=
  ⟨[], by simp, Nat.le_refl 0, by simp⟩

theorem IsBelow.append {root path : Path} {count : Nat} {name : String} (h : IsBelow root count path)
    (hname : IsEntryName name) : IsBelow root (count + 1) (path ++ [name]) := by
  obtain ⟨names, rfl, hcount, hnames⟩ := h
  refine ⟨names ++ [name], by simp, by simpa using hcount, ?_⟩
  intro other hother
  rcases List.mem_append.1 hother with hother | hother
  · exact hnames other hother
  · exact List.mem_singleton.1 hother ▸ hname

theorem IsBelow.mono {root path : Path} {count count' : Nat} (h : IsBelow root count path) (hle : count' ≤ count) :
    IsBelow root count' path := by
  obtain ⟨names, hpath, hcount, hnames⟩ := h
  exact ⟨names, hpath, Nat.le_trans hle hcount, hnames⟩

/-! ### Steps -/

namespace Site

/-- The folders in which a folder can be made. -/
def Holds (root : Path) (s : Site) (parent : Path) : Prop :=
  parent = root ∨ parent ∈ s.report.folders

/-- A site after a folder was made. -/
def addFolder (s : Site) (path : Path) (disk : Disk) : Site :=
  { s with disk, report := { s.report with folders := s.report.folders.push path } }

/-- A site after a file was written. -/
def addFile (s : Site) (path : Path) (disk : Disk) : Site :=
  { s with disk, report := { s.report with files := s.report.files.push path } }

/-- A site with one more folder of a mod. -/
def addMod (s : Site) (path : Path) : Site :=
  { s with report := { s.report with mods := s.report.mods.push path } }

/-- A site after one more visit. -/
def addVisit (s : Site) : Site := { s with visits := s.visits + 1 }

end Site

/-- What running does to a site, one thing at a time. -/
inductive Step (root : Path) (s : Site) : Site → Prop
  | visit : Step root s s.addVisit
  | skip (i : Nat) (n : Node Float32) (reason : String) : Step root s (s.skip i n reason)
  | folder {parent : Path} {name : String} {disk : Disk} (holds : s.Holds root parent) (named : IsEntryName name)
      (made : s.disk.ensureDir (parent ++ [name]) = .ok disk) : Step root s (s.addFolder (parent ++ [name]) disk)
  | file {folder : Path} {name text : String} {disk : Disk} (made : folder ∈ s.report.folders)
      (named : IsEntryName name) (written : s.disk.write (folder ++ [name]) (.text text) = .ok disk) :
      Step root s (s.addFile (folder ++ [name]) disk)
  | mod {folder : Path} (made : folder ∈ s.report.folders) : Step root s (s.addMod folder)

/-- Why running stops with an error. -/
inductive Stops (root : Path) (limit : Nat) (s : Site) : ScriptError → Prop
  | folder {parent : Path} {name : String} {fault : Disk.Fault} (holds : s.Holds root parent)
      (named : IsEntryName name) (refused : s.disk.ensureDir (parent ++ [name]) = .error fault) :
      Stops root limit s fault.error
  | file {folder : Path} {name text : String} {fault : Disk.Fault} (made : folder ∈ s.report.folders)
      (named : IsEntryName name) (refused : s.disk.write (folder ++ [name]) (.text text) = .error fault) :
      Stops root limit s fault.error
  | runaway (visits : Nat) : Stops root limit s (.runaway visits limit)

variable {root : Path} {limit : Nat} {s s' : Site}

/-- Folders that were made stay in the report. -/
theorem Step.mem_folders (h : Step root s s') {folder : Path} (hf : folder ∈ s.report.folders) :
    folder ∈ s'.report.folders := by
  cases h with
  | visit => exact hf
  | skip => exact hf
  | folder => exact Array.mem_push_of_mem _ hf
  | file => exact hf
  | mod => exact hf

/-! ### Runs -/

/-- The answer of a part of a run with the site that it leaves: it was left by steps, and an error has a reason. -/
structure Goes {α : Type} (root : Path) (limit : Nat) (s : Site) (r : Except ScriptError α × Site) : Prop where
  steps : Relation.ReflTransGen (Step root) s r.2
  stops : ∀ e, r.1 = .error e → Stops root limit r.2 e

theorem Goes.of_ok {α : Type} (h : Relation.ReflTransGen (Step root) s s') (a : α) :
    Goes root limit s (.ok a, s') :=
  ⟨h, fun _ he => nomatch he⟩

theorem Goes.of_error {α : Type} {e : ScriptError} (h : Stops root limit s e) :
    Goes (α := α) root limit s (.error e, s) :=
  ⟨.refl, fun _ he => by cases he; exact h⟩

theorem Goes.after {α : Type} {r : Except ScriptError α × Site} (h : Relation.ReflTransGen (Step root) s s')
    (hr : Goes root limit s' r) : Goes root limit s r :=
  ⟨h.trans hr.steps, hr.stops⟩

theorem Goes.error {α β : Type} {e : ScriptError} (h : Goes (α := α) root limit s (.error e, s')) :
    Goes (α := β) root limit s (.error e, s') :=
  ⟨h.steps, fun _ he => h.stops _ (by cases he; rfl)⟩

theorem mem_folders_of_steps (h : Relation.ReflTransGen (Step root) s s') {folder : Path}
    (hf : folder ∈ s.report.folders) : folder ∈ s'.report.folders := by
  induction h with
  | refl => exact hf
  | tail _ hstep ih => exact hstep.mem_folders ih

theorem goes_makeFolder (limit : Nat) {parent : Path} {name : String} (hparent : s.Holds root parent)
    (hname : IsEntryName name) :
    Goes root limit s (s.makeFolder (parent ++ [name])) ∧
      ((s.makeFolder (parent ++ [name])).1 = .ok () →
        parent ++ [name] ∈ (s.makeFolder (parent ++ [name])).2.report.folders) := by
  rw [Site.makeFolder]
  split
  · next disk hdisk => exact ⟨.of_ok (.single (.folder hparent hname hdisk)) (), fun _ => Array.mem_push_self⟩
  · next fault hfault => exact ⟨.of_error (.folder hparent hname hfault), fun h => nomatch h⟩

theorem goes_writeFile (root : Path) (limit : Nat) {folder : Path} {name : String}
    (hfolder : folder ∈ s.report.folders)
    (hname : IsEntryName name) (text : String) : Goes root limit s (s.writeFile (folder ++ [name]) text) := by
  rw [Site.writeFile]
  split
  · next disk hdisk => exact .of_ok (.single (.file hfolder hname hdisk)) ()
  · next fault hfault => exact .of_error (.file hfolder hname hfault)

/-- A node writes in the folder that it is visited with, and the nodes after it are visited with a folder that was
made. -/
theorem goes_generateNode (root : Path) (limit : Nat) {folder : Path} (hfolder : folder ∈ s.report.folders)
    (i : Nat) (n : Node Float32) :
    Goes root limit s (generateNode i n folder s) ∧
      ∀ inner, (generateNode i n folder s).1 = .ok (some inner) →
        inner ∈ (generateNode i n folder s).2.report.folders := by
  have hskip (reason : String) :
      Goes root limit s ((.ok none, s.skip i n reason) : Except ScriptError (Option Path) × Site) ∧
        ∀ inner, (.ok none : Except ScriptError (Option Path)) = .ok (some inner) →
          inner ∈ (s.skip i n reason).report.folders :=
    ⟨.of_ok (.single (.skip i n reason)) none, fun _ h => nomatch h⟩
  rw [generateNode]
  split
  · exact hskip _
  · exact hskip _
  · split
    · exact hskip _
    · next name hname =>
      have hparent : s.Holds root folder := .inr hfolder
      obtain ⟨hgoes, hmade⟩ := goes_makeFolder limit hparent (isEntryName_of_safeName? hname)
      dsimp only
      generalize s.makeFolder (folder ++ [name]) = r at hgoes hmade ⊢
      obtain ⟨e | _, s'⟩ := r
      · exact ⟨hgoes.error, fun _ h => nomatch h⟩
      · refine ⟨.of_ok hgoes.steps _, ?_⟩
        intro inner hinner
        cases hinner
        exact hmade rfl
  · split
    · exact hskip _
    · next name text hfile =>
      have hname : IsEntryName name := isEntryName_of_fileOf (congrArg Prod.fst hfile)
      have hgoes := goes_writeFile root limit hfolder hname text
      dsimp only
      generalize s.writeFile (folder ++ [name]) text = r at hgoes ⊢
      obtain ⟨e | _, s'⟩ := r
      · exact ⟨hgoes.error, fun _ h => nomatch h⟩
      · exact ⟨.of_ok hgoes.steps _, fun _ h => nomatch h⟩

/-- Every folder on the stack was made, so every visit is to one. -/
theorem goes_generateAll {g : Graph Float32} {fuel : Nat} {stack : List (Nat × Path)}
    (hstack : ∀ p ∈ stack, p.2 ∈ s.report.folders) : Goes root limit s (generateAll limit g fuel stack s) := by
  induction fuel generalizing stack s with
  | zero =>
    cases stack with
    | nil => exact .of_ok .refl ()
    | cons p stack => exact .of_error (.runaway _)
  | succ fuel ih =>
    cases stack with
    | nil => exact .of_ok .refl ()
    | cons p stack =>
      obtain ⟨i, folder⟩ := p
      have hvisit : Relation.ReflTransGen (Step root) s s.addVisit := .single .visit
      have hrest : ∀ p ∈ stack, p.2 ∈ s.report.folders := fun p hp => hstack p (List.mem_cons_of_mem _ hp)
      by_cases hlimit : limit < s.visits + 1
      · rw [generateAll, visit, if_pos hlimit]
        exact .after hvisit (.of_error (.runaway _))
      · have hcount : visit limit s = (.ok (), s.addVisit) := by
          rw [visit, if_neg hlimit]
          rfl
        rw [generateAll, hcount]
        refine .after hvisit ?_
        dsimp only
        cases g.node? i with
        | none => exact ih hrest
        | some n =>
          have hfolder : folder ∈ s.addVisit.report.folders := hstack _ (List.mem_cons_self ..)
          obtain ⟨hgoes, hinner⟩ := goes_generateNode root limit hfolder i n
          dsimp only
          generalize generateNode i n folder s.addVisit = r at hgoes hinner ⊢
          obtain ⟨e | _ | inner, s'⟩ := r
          · exact hgoes.error
          · exact .after hgoes.steps (ih fun p hp => mem_folders_of_steps hgoes.steps (hrest p hp))
          · refine .after hgoes.steps (ih fun p hp => ?_)
            rcases List.mem_append.1 hp with hp | hp
            · obtain ⟨t, -, rfl⟩ := List.mem_map.1 hp
              exact hinner inner rfl
            · exact mem_folders_of_steps hgoes.steps (hrest p hp)

theorem goes_generateMod (root : Path) (limit : Nat) (g : Graph Float32) (i : Nat) (n : Node Float32) (s : Site) :
    Goes root limit s (generateMod limit g root i n s) := by
  rw [generateMod]
  split
  · exact .of_ok (.single (.skip i n _)) ()
  · next name hname =>
    have hparent : s.Holds root root := .inl rfl
    obtain ⟨hgoes, hmade⟩ := goes_makeFolder limit hparent (isEntryName_of_safeName? hname)
    dsimp only
    generalize s.makeFolder (root ++ [name]) = r at hgoes hmade ⊢
    obtain ⟨e | _, s'⟩ := r
    · exact hgoes.error
    · refine .after (hgoes.steps.tail (.mod (hmade rfl))) (goes_generateAll ?_)
      intro p hp
      obtain ⟨t, -, rfl⟩ := List.mem_map.1 hp
      exact hmade rfl

theorem goes_generateMods (root : Path) (limit : Nat) (g : Graph Float32) (mods : List (Nat × Node Float32))
    (s : Site) :
    Goes root limit s (generateMods limit g root mods s) := by
  induction mods generalizing s with
  | nil => exact .of_ok .refl ()
  | cons p mods ih =>
    obtain ⟨i, n⟩ := p
    have hgoes := goes_generateMod root limit g i n s
    rw [generateMods]
    generalize generateMod limit g root i n s = r at hgoes ⊢
    obtain ⟨e | _, s'⟩ := r
    · exact hgoes.error
    · exact .after hgoes.steps (ih s')

/-! ### What was made -/

/-- What was made on a disk is below a directory. The report names all of it, and nothing else on the disk changed. -/
structure Confined (root : Path) (disk : Disk) (s : Site) : Prop where
  folders : ∀ path ∈ s.report.folders, IsBelow root 1 path ∧ s.disk.entry? path = some .directory
  files : ∀ path ∈ s.report.files, IsBelow root 2 path ∧ ∃ text, s.disk.entry? path = some (.file (.text text))
  mods : ∀ path ∈ s.report.mods, path ∈ s.report.folders
  reported : ∀ path, s.disk.entry? path ≠ disk.entry? path → path ∈ s.report.folders ∨ path ∈ s.report.files
  kept : ∀ path e, disk.entry? path = some e → path ∉ s.report.files → s.disk.entry? path = some e

variable {disk : Disk}

theorem confined_ofDisk (root : Path) (disk : Disk) : Confined root disk (.ofDisk disk) where
  folders := by simp [Site.ofDisk]
  files := by simp [Site.ofDisk]
  mods := by simp [Site.ofDisk]
  reported := fun _ hne => absurd rfl hne
  kept := fun _ _ he _ => he

theorem Confined.addFolder {parent : Path} {name : String} {disk' : Disk} (h : Confined root disk s)
    (hparent : s.Holds root parent) (hname : IsEntryName name)
    (hmade : s.disk.ensureDir (parent ++ [name]) = .ok disk') :
    Confined root disk (s.addFolder (parent ++ [name]) disk') := by
  obtain ⟨hentry, hbefore⟩ := Disk.ensureDir_eq_ok hmade
  have hbelow : IsBelow root 1 (parent ++ [name]) := by
    rcases hparent with rfl | hparent
    · exact (isBelow_self parent).append hname
    · exact ((h.folders parent hparent).1.append hname).mono (by decide)
  refine ⟨?_, ?_, ?_, ?_, ?_⟩
  · intro path hpath
    rcases Array.mem_push.1 hpath with hpath | rfl
    · obtain ⟨hroot, hdir⟩ := h.folders path hpath
      refine ⟨hroot, (hentry path).trans ?_⟩
      split
      · rfl
      · exact hdir
    · exact ⟨hbelow, (hentry _).trans (if_pos rfl)⟩
  · intro path hpath
    obtain ⟨hroot, text, htext⟩ := h.files path hpath
    refine ⟨hroot, text, (hentry path).trans ?_⟩
    rw [if_neg, htext]
    rintro rfl
    rw [htext] at hbefore
    simp at hbefore
  · exact fun path hpath => Array.mem_push_of_mem _ (h.mods path hpath)
  · intro path hne
    by_cases hpath : path = parent ++ [name]
    · exact .inl (hpath ▸ Array.mem_push_self)
    · have hsame : disk'.entry? path = s.disk.entry? path := (hentry path).trans (if_neg hpath)
      exact (h.reported path (hsame ▸ hne)).imp_left (Array.mem_push_of_mem _)
  · intro path e he hfile
    have hkept := h.kept path e he hfile
    refine (hentry path).trans ?_
    split
    · next hpath =>
      rw [← hpath, hkept] at hbefore
      exact (hbefore.resolve_left (by simp)).symm
    · exact hkept

theorem Confined.addFile {folder : Path} {name text : String} {disk' : Disk} (h : Confined root disk s)
    (hfolder : folder ∈ s.report.folders) (hname : IsEntryName name)
    (hwritten : s.disk.write (folder ++ [name]) (.text text) = .ok disk') :
    Confined root disk (s.addFile (folder ++ [name]) disk') := by
  obtain ⟨hentry, hbefore⟩ := Disk.write_eq_ok hwritten
  refine ⟨?_, ?_, h.mods, ?_, ?_⟩
  · intro path hpath
    obtain ⟨hroot, hdir⟩ := h.folders path hpath
    refine ⟨hroot, (hentry path).trans ?_⟩
    rw [if_neg, hdir]
    rintro rfl
    exact hbefore hdir
  · intro path hpath
    rcases Array.mem_push.1 hpath with hpath | rfl
    · obtain ⟨hroot, other, hother⟩ := h.files path hpath
      refine ⟨hroot, ?_⟩
      change ∃ text, disk'.entry? path = some (.file (.text text))
      rw [hentry path]
      split
      · exact ⟨text, rfl⟩
      · exact ⟨other, hother⟩
    · exact ⟨(h.folders folder hfolder).1.append hname, text, (hentry _).trans (if_pos rfl)⟩
  · intro path hne
    by_cases hpath : path = folder ++ [name]
    · exact .inr (hpath ▸ Array.mem_push_self)
    · have hsame : disk'.entry? path = s.disk.entry? path := (hentry path).trans (if_neg hpath)
      exact (h.reported path (hsame ▸ hne)).imp_right (Array.mem_push_of_mem _)
  · intro path e he hfile
    obtain ⟨hold, hpath⟩ := not_or.1 (mt Array.mem_push.2 hfile)
    exact ((hentry path).trans (if_neg hpath)).trans (h.kept path e he hold)

theorem Confined.step (h : Confined root disk s) (hstep : Step root s s') : Confined root disk s' := by
  cases hstep with
  | visit => exact ⟨h.folders, h.files, h.mods, h.reported, h.kept⟩
  | skip => exact ⟨h.folders, h.files, h.mods, h.reported, h.kept⟩
  | folder hparent hname hmade => exact h.addFolder hparent hname hmade
  | file hfolder hname hwritten => exact h.addFile hfolder hname hwritten
  | mod hfolder =>
    refine ⟨h.folders, h.files, ?_, h.reported, h.kept⟩
    intro path hpath
    rcases Array.mem_push.1 hpath with hpath | rfl
    · exact h.mods path hpath
    · exact hfolder

theorem Confined.steps (h : Confined root disk s) (hsteps : Relation.ReflTransGen (Step root) s s') :
    Confined root disk s' := by
  induction hsteps with
  | refl => exact h
  | tail _ hstep ih => exact ih.step hstep

/-- Generating mods makes nothing outside of its directory, for every graph, limit and disk, and if it fails as well.
What is refused is an entry below the directory, too. -/
theorem generates_below_root (root : Path) (limit : Nat) (g : Graph Float32) (disk : Disk) :
    Confined root disk (generateIn root limit g disk).2 ∧
      ∀ e, (generateIn root limit g disk).1 = .error e → Stops root limit (generateIn root limit g disk).2 e := by
  have hgoes : Goes root limit (.ofDisk disk) (generateIn root limit g disk) :=
    goes_generateMods root limit g (modNodes g) _
  exact ⟨(confined_ofDisk root disk).steps hgoes.steps, hgoes.stops⟩

end ScriptGraph.Generator
