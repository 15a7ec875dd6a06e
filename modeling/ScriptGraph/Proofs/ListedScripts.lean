import ScriptGraph.Proofs.OrderedRegistry

/-!
# Scripts that a directory lists

The names that a store in a directory lists come from the names of the files there, however these came there: the
store or somebody else has made and removed files and directories (`FileStore.Reached`).  Of a file that is listed
only its name can be in the way: the disk is a tree, so the file can be found and removed (`Disk.IsTree.lookup`),
and what loading it answers is then up to its content.  Its name is in the way if no script may have it, for listing
does not ask for that: such a name can neither be loaded nor deleted (`FileStore.list_usable_iff`).
-/

namespace ScriptGraph

/-! ### What a file answers -/

namespace Content

/-- What loading a script answers for the content of its file. -/
def answer (fresh : Nat → String) : Content → Except ScriptError (Graph Float32)
  | .text t => ScriptStore.decode fresh t
  | .binary _ => .error (.io "the file holds no text")

/-- Whether a node can be read in a file. -/
def holdsNodes : Content → Bool
  | .text t => !(Document.records t.toList).2.isEmpty
  | .binary _ => false

variable {content : Content}

theorem answer_of_holdsNodes (fresh : Nat → String) (h : content.holdsNodes = true) :
    ∃ g, content.answer fresh = .ok g := by
  cases content with
  | text t =>
    rw [holdsNodes, Bool.not_eq_true'] at h
    simp only [answer, ScriptStore.decode, Document.decode, Document.decodeChars, Document.ofRecords, h]
    exact ⟨_, rfl⟩
  | binary bytes => cases h

/-- A file without nodes is empty, or it holds no text. -/
theorem answer_of_not_holdsNodes (fresh : Nat → String) (h : content.holdsNodes = false) :
    content.answer fresh = .error .noNodes ∨ content.answer fresh = .error (.io "the file holds no text") := by
  cases content with
  | text t =>
    rw [holdsNodes, Bool.not_eq_false'] at h
    left
    simp only [answer, ScriptStore.decode, Document.decode, Document.decodeChars, Document.ofRecords, h, if_true,
      Except.map]
  | binary bytes => exact .inr rfl

theorem answer_eq_error {fresh : Nat → String} {err : ScriptError} (h : content.answer fresh = .error err) :
    err = .noNodes ∨ err = .io "the file holds no text" := by
  cases hnodes : content.holdsNodes with
  | true =>
    obtain ⟨g, hg⟩ := answer_of_holdsNodes fresh hnodes
    rw [hg] at h
    cases h
  | false =>
    have hanswer := answer_of_not_holdsNodes fresh hnodes
    rw [h] at hanswer
    exact hanswer.imp Except.error.inj Except.error.inj

end Content

namespace FileStore

/-! ### Stores that came about -/

/-- A store in a directory of a disk that was empty once.  Whatever was done since was done by hand or by the
store. -/
inductive Reached (directory : Disk.Path) : FileStore → Prop
  | start : Reached directory ⟨.empty, directory⟩
  | makeDir {s : FileStore} {path : Disk.Path} {disk : Disk} (hs : Reached directory s)
      (h : s.disk.makeDir path = .ok disk) : Reached directory { s with disk }
  | makeDirs {s : FileStore} (hs : Reached directory s) (names : List String) :
      Reached directory { s with disk := (s.disk.makeDirs names).2 }
  | write {s : FileStore} {path : Disk.Path} {content : Content} {disk : Disk} (hs : Reached directory s)
      (h : s.disk.write path content = .ok disk) : Reached directory { s with disk }
  | removeFile {s : FileStore} {path : Disk.Path} {disk : Disk} (hs : Reached directory s)
      (h : s.disk.removeFile path = .ok disk) : Reached directory { s with disk }
  | removeDir {s : FileStore} {path : Disk.Path} {disk : Disk} (hs : Reached directory s)
      (h : s.disk.removeDir path = .ok disk) : Reached directory { s with disk }
  | call {s : FileStore} (hs : Reached directory s) (fresh : Nat → String) (call : StoreCall) :
      Reached directory (call.ask fresh s).2

variable {s : FileStore} {directory : Disk.Path} {name : String} {content : Content}

theorem isTree_save (h : s.disk.IsTree) (name : String) (g : Graph Float32) :
    (ScriptStore.save name g s).2.disk.IsTree := by
  have hsave : ScriptStore.save name g s = FileStore.save name g s := rfl
  rw [hsave, FileStore.save]
  split
  · exact h
  · cases hwrite : s.disk.write (s.path name) (.text (Document.encode g)) with
    | error e => exact h
    | ok disk => exact h.write hwrite

theorem isTree_delete (h : s.disk.IsTree) (name : String) : (ScriptStore.delete name s).2.disk.IsTree := by
  have hdelete : ScriptStore.delete name s = FileStore.delete name s := rfl
  rw [hdelete, FileStore.delete]
  split
  · exact h
  · split
    · next disk hremove => exact h.removeFile hremove
    · exact h
    · exact h

theorem Reached.isTree (h : Reached directory s) : s.disk.IsTree := by
  induction h with
  | start => exact Disk.isTree_empty
  | makeDir _ hmake ih => exact ih.makeDir hmake
  | makeDirs _ names ih => exact ih.makeDirs names
  | write _ hwrite ih => exact ih.write hwrite
  | removeFile _ hremove ih => exact ih.removeFile hremove
  | removeDir _ hremove ih => exact ih.removeDir hremove
  | call _ fresh call ih =>
    cases call with
    | save name g =>
      rw [StoreCall.ask, Prod.map_snd, id_eq]
      exact isTree_save ih name g
    | load name => exact ih
    | list => exact ih
    | delete name =>
      rw [StoreCall.ask, Prod.map_snd, id_eq]
      exact isTree_delete ih name

/-! ### Loading and deleting what is listed -/

/-- The file of a script, if its name may be that of a script. -/
def file? (s : FileStore) (name : String) : Option Content :=
  if ScriptStore.isValidName name then
    match s.disk.entry? (s.path name) with
    | some (.file content) => some content
    | _ => none
  else none

theorem file?_eq_some : s.file? name = some content ↔
    ScriptStore.isValidName name = true ∧ s.disk.entry? (s.path name) = some (.file content) := by
  rw [file?]
  split
  · next hvalid =>
    split
    · next hentry => simp [hvalid, hentry]
    · next hnone =>
      constructor
      · intro h
        cases h
      · intro h
        exact absurd h.2 (hnone content)
  · next hinvalid => simp [hinvalid]

theorem load_of_file? (fresh : Nat → String) (h : s.disk.IsTree) (hfile : s.file? name = some content) :
    s.load fresh name = content.answer fresh := by
  obtain ⟨hvalid, hentry⟩ := file?_eq_some.1 hfile
  have hread : s.disk.read (s.path name) = .ok content := by rw [Disk.read, h.lookup hentry]
  rw [load, ScriptStore.validateName, if_pos hvalid, hread]
  cases content <;> rfl

theorem delete_of_file? (h : s.disk.IsTree) (hfile : s.file? name = some content) :
    (FileStore.delete name s).1 = .ok true := by
  obtain ⟨hvalid, hentry⟩ := file?_eq_some.1 hfile
  have hremove : s.disk.removeFile (s.path name) = .ok ⟨s.disk.entries.erase (s.path name)⟩ := by
    rw [Disk.removeFile, h.lookup hentry]
  rw [FileStore.delete, ScriptStore.validateName, if_pos hvalid, hremove]

/-- Only a file can be loaded, also one that turns out to be empty. -/
theorem file?_of_load {fresh : Nat → String}
    (h : (∃ g, s.load fresh name = .ok g) ∨ s.load fresh name = .error .noNodes) :
    ∃ content, s.file? name = some content := by
  rw [load, ScriptStore.validateName] at h
  by_cases hvalid : ScriptStore.isValidName name = true
  · rw [if_pos hvalid] at h
    cases hlookup : s.disk.lookup (s.path name) with
    | error e => cases e <;> simp [Disk.read, hlookup, Disk.Fault.error, ScriptStore.notFound] at h
    | ok e =>
      obtain ⟨hentry, -⟩ := Disk.lookup_eq_ok hlookup
      rcases e with _ | _ | content
      · simp [Disk.read, hlookup, ScriptStore.notFound] at h
      · simp [Disk.read, hlookup, Disk.Fault.error] at h
      · exact ⟨content, file?_eq_some.2 ⟨hvalid, hentry⟩⟩
  · simp [hvalid] at h

/-- The error for a name that no script may have. -/
def refusal (name : String) : ScriptError := .store ("invalid script name " ++ Text.quoted name)

/-- A name is of use: loading fails for the content of a file only, and there is something to delete. -/
structure Usable (s : FileStore) (name : String) : Prop where
  load : ∀ fresh err, s.load fresh name = .error err → (∀ what, err ≠ .notFound what) ∧ ∀ text, err ≠ .store text
  delete : (FileStore.delete name s).1 = .ok true

/-- A name is refused whatever is there. -/
structure Refused (s : FileStore) (name : String) : Prop where
  load : ∀ fresh, s.load fresh name = .error (refusal name)
  delete : (FileStore.delete name s).1 = .error (refusal name)

theorem usable_of_file? (h : s.disk.IsTree) (hfile : s.file? name = some content) : s.Usable name := by
  refine ⟨?_, delete_of_file? h hfile⟩
  intro fresh err herr
  rw [load_of_file? fresh h hfile] at herr
  rcases Content.answer_eq_error herr with rfl | rfl
  · exact ⟨nofun, nofun⟩
  · exact ⟨nofun, nofun⟩

theorem refused_of_not_isValidName (h : ScriptStore.isValidName name = false) : s.Refused name := by
  have hvalidate : ScriptStore.validateName name = .error (refusal name) := by
    rw [ScriptStore.validateName, if_neg (by rw [h]; decide), refusal]
  constructor
  · intro fresh
    rw [load, hvalidate]
  · rw [FileStore.delete, hvalidate]

theorem Refused.not_usable (h : s.Refused name) : ¬ s.Usable name := by
  intro husable
  have hdelete := husable.delete
  rw [h.delete] at hdelete
  cases hdelete

/-! ### Loading everything that is listed -/

/-- Whether loading gives a script. -/
def holdsScript (s : FileStore) (name : String) : Bool := ((s.file? name).map (·.holdsNodes)).getD false

theorem load_of_holdsScript (fresh : Nat → String) (h : s.disk.IsTree) (hscript : s.holdsScript name = true) :
    ∃ g, s.load fresh name = .ok g := by
  rw [holdsScript] at hscript
  cases hfile : s.file? name with
  | none => simp [hfile] at hscript
  | some content =>
    rw [load_of_file? fresh h hfile]
    exact Content.answer_of_holdsNodes fresh (by simpa [hfile] using hscript)

theorem load_of_not_holdsScript (fresh : Nat → String) (h : s.disk.IsTree) (hscript : s.holdsScript name = false) :
    ∃ err, s.load fresh name = .error err := by
  cases hload : s.load fresh name with
  | error err => exact ⟨err, rfl⟩
  | ok g =>
    obtain ⟨content, hfile⟩ := file?_of_load (.inl ⟨g, hload⟩)
    rw [load_of_file? fresh h hfile] at hload
    have hnodes : content.holdsNodes = false := by simpa [holdsScript, hfile] using hscript
    have hanswer := Content.answer_of_not_holdsNodes fresh hnodes
    rw [hload] at hanswer
    rcases hanswer with hnone | hbinary
    · cases hnone
    · cases hbinary

/-- Loading one name after the other leaves out what holds no script. -/
theorem names_loaded {names : List String} {answers : List (Except ScriptError (Graph Float32))} {s' : FileStore}
    (h : s.disk.IsTree) (hloads : ScriptStore.Loads s names answers s') :
    (ScriptStore.loaded names answers).map (·.name) = names.filter s.holdsScript := by
  induction hloads with
  | nil s => rfl
  | cons hload _ ih =>
    next fresh name s s' s'' answer names answers _ =>
    -- loading changes nothing, so the next name is looked for in the same store
    obtain ⟨rfl, rfl⟩ := Prod.mk.inj hload
    cases hscript : s.holdsScript name with
    | true =>
      obtain ⟨g, hg⟩ := load_of_holdsScript fresh h hscript
      rw [List.filter_cons_of_pos hscript, ← ih h, hg]
      rfl
    | false =>
      obtain ⟨err, herr⟩ := load_of_not_holdsScript fresh h hscript
      rw [List.filter_cons_of_neg (by rw [hscript]; decide), ← ih h, herr]
      rfl

/-! ### Listing -/

/-- What listing some names says about them. -/
structure Listing (s : FileStore) (names : List String) : Prop where
  /-- a name is of use if a script may have it -/
  usable_iff : ∀ name ∈ names, s.Usable name ↔ ScriptStore.isValidName name = true
  refused : ∀ name ∈ names, ScriptStore.isValidName name = false → s.Refused name
  /-- nothing that can be loaded is missing -/
  all : ∀ fresh name, (∃ g, s.load fresh name = .ok g) ∨ s.load fresh name = .error .noNodes → name ∈ names
  /-- loading everything leaves out names that are of no use and files without nodes -/
  loadAll : ∀ fresh (e : Engine FileStore), e.store = s →
    (Engine.loadAllScripts fresh e).1 = .ok (names.filter s.holdsScript).length ∧
      (Engine.loadAllScripts fresh e).2.registry.names = names.filter s.holdsScript

/-- A directory with whatever files and directories lists each name that can be loaded.  The others that it lists
are of use, too, unless they are no names for scripts: those are refused, and loading everything leaves them out. -/
theorem list_usable_iff (h : Reached directory s) (hthere : s.disk.entry? s.directory = some .directory) :
    ∃ names, s.list = .ok names ∧ s.Listing names := by
  have htree := h.isTree
  obtain ⟨names, hnames⟩ := list_of_directory hthere
  refine ⟨names, hnames, ?_, fun name _ hinvalid => refused_of_not_isValidName hinvalid, ?_, ?_⟩
  · intro name hname
    obtain ⟨-, content, hentry⟩ := (mem_list hnames name).1 hname
    constructor
    · intro husable
      by_contra hinvalid
      exact (refused_of_not_isValidName (Bool.eq_false_iff.2 hinvalid)).not_usable husable
    · intro hvalid
      exact usable_of_file? htree (file?_eq_some.2 ⟨hvalid, hentry⟩)
  · intro fresh name hload
    obtain ⟨content, hfile⟩ := file?_of_load hload
    obtain ⟨hvalid, hentry⟩ := file?_eq_some.1 hfile
    refine (mem_list hnames name).2 ⟨?_, content, hentry⟩
    rintro rfl
    exact absurd hvalid (by decide)
  · rintro fresh e rfl
    have honce : names.Nodup := (pairwise_list hnames).imp String.ne_of_lt
    have hlist : (ScriptStore.list e.store).1 = .ok names := hnames
    obtain ⟨answers, s', hloads, hcount, hscripts⟩ := Engine.loadAllScripts_of_ok fresh honce hlist
    have hloaded := names_loaded htree hloads
    constructor
    · rw [hcount, ← hloaded, List.length_map]
    · rw [Registry.names, hscripts, hloaded]

/-- A document with one node. -/
def message : Content := .text "\x7b\"label\": \"Message\"\x7d"

/-- A disk with a directory and one copy of a document in it. -/
def single : Disk := ⟨(Disk.empty.entries.insert ["scripts"] .directory).insert ["scripts", "a.json"] (.file message)⟩

/-- Two copies of the document, one of them named like the directory itself. -/
def copies : FileStore := ⟨⟨single.entries.insert ["scripts", "..json"] (.file message)⟩, ["scripts"]⟩

private theorem reached_copies : Reached ["scripts"] copies := by
  have hmake : Disk.empty.makeDir ["scripts"] = .ok ⟨Disk.empty.entries.insert ["scripts"] .directory⟩ := rfl
  have hfirst : Disk.write ⟨Disk.empty.entries.insert ["scripts"] .directory⟩ ["scripts", "a.json"] message =
      .ok single := rfl
  have hsecond : single.write ["scripts", "..json"] message = .ok copies.disk := rfl
  exact ((Reached.start.makeDir hmake).write hfirst).write hsecond

private theorem list_copies : copies.list = .ok [".", "a"] := by
  have hfiles : copies.disk.fileNames copies.directory = .ok ["..json", "a.json"] := by decide +kernel
  have hnames : ["..json", "a.json"].filterMap scriptName? = [".", "a"] := by decide +kernel
  rw [list, hfiles]
  dsimp only
  rw [hnames, List.mergeSort_of_pairwise (by decide)]

theorem list_usable_iff_copies : copies.disk.entry? copies.directory = some .directory ∧
    ∃ names, copies.list = .ok names ∧ copies.Listing names := by
  have hthere : copies.disk.entry? copies.directory = some .directory := by decide +kernel
  exact ⟨hthere, list_usable_iff reached_copies hthere⟩

/-- Both copies are listed, and one of them cannot be used. -/
theorem listed_but_refused : Reached ["scripts"] copies ∧ copies.list = .ok [".", "a"] ∧
    copies.disk.read (copies.path ".") = .ok message ∧ message.holdsNodes = true ∧
    copies.Usable "a" ∧ ¬ copies.Usable "." ∧ copies.Refused "." := by
  have hfile : copies.file? "a" = some message := by decide +kernel
  have hrefused : copies.Refused "." := refused_of_not_isValidName (by decide)
  exact ⟨reached_copies, list_copies, by decide +kernel, by decide +kernel,
    usable_of_file? reached_copies.isTree hfile, hrefused.not_usable, hrefused⟩

end FileStore

end ScriptGraph
