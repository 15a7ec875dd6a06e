import Mathlib.Data.List.Induction
import ScriptGraph.Proofs.Construction
import ScriptGraph.Proofs.OutputTree

/-!
# The forest of visits

Every node for a mod with a name that can be used has a tree of visits: below it are the nodes after it, and below a
node for a folder with a name that can be used are the nodes after that one.  With a cycle of folders the tree has
no end, so the forest is given to each depth (`forest`).  The folder of a visit is named by the nodes above it, and
each visit has one deed in that folder.

Generating keeps a stack and counts.  It does what the deeds of the forest say, in pre-order, until a file cannot be
made or the count goes over the limit (`generateIn_eq`).  A visit below `depth` others has at least so many before
it in pre-order, so a forest to a depth above the limit is enough.
-/

namespace ScriptGraph.Generator

open Disk (Path)
open Relation (ReflTransGen TransGen)

/-! ### The forest -/

/-- A visit: a node, and the nodes above it, from the node for the mod on. -/
structure Trail where
  above : List Nat
  number : Nat

/-- The name that a node gives to a folder, if it can be used. -/
def folderName? (g : Graph Float32) (i : Nat) : Option String :=
  (g.node? i).bind fun n => safeName? (n.inputValue 0)

/-- Whether the tree continues below a node. -/
def isOpen (g : Graph Float32) (i : Nat) : Bool :=
  (g.node? i).any fun n => Recipe.ofLabel? n.label = some .folder && (folderName? g i).isSome

namespace Trail

/-- The folder of a visit: in the directory of all mods, by the names of the nodes above. -/
def folder (g : Graph Float32) (root : Path) (t : Trail) : Path := root ++ t.above.filterMap (folderName? g)

/-- The visits to the nodes after a node. -/
def after (g : Graph Float32) (t : Trail) : List Trail := (g.successors t.number).map (⟨t.above ++ [t.number], ·⟩)

/-- The visits below a visit. -/
def below (g : Graph Float32) (t : Trail) : List Trail := if isOpen g t.number then t.after g else []

end Trail

/-- Trees to a depth, in pre-order. -/
def walk (g : Graph Float32) : Nat → List Trail → List Trail
  | 0, _ => []
  | depth + 1, ts => ts.flatMap fun t => t :: walk g depth (t.below g)

/-- The tree of a mod to a depth. -/
def modTree (g : Graph Float32) (depth i : Nat) : List Trail :=
  if (folderName? g i).isSome then walk g depth (Trail.after g ⟨[], i⟩) else []

/-- The trees of all mods to a depth. -/
def forest (g : Graph Float32) (depth : Nat) : List Trail :=
  (modNodes g).flatMap fun (i, _) => modTree g depth i

/-- The tree continues from one node to another. -/
def Opens (g : Graph Float32) (i j : Nat) : Prop := isOpen g i ∧ j ∈ g.successors i

/-- Nodes below a mod from which folders lead back to themselves. -/
def HasCycle (g : Graph Float32) : Prop :=
  ∃ p ∈ modNodes g, (folderName? g p.1).isSome ∧
    ∃ i ∈ g.successors p.1, ∃ j, ReflTransGen (Opens g) i j ∧ TransGen (Opens g) j j

/-! ### Deeds -/

/-- What is done on the way through the forest. -/
inductive Deed where
  | visit
  | makeMod (path : Path)
  | makeFolder (path : Path)
  | writeFile (path : Path) (text : String)
  | skip (i : Nat) (n : Node Float32) (reason : String)

namespace Deed

/-- What a node does in a folder. -/
def ofNode (i : Nat) (n : Node Float32) (folder : Path) : Deed :=
  match Recipe.ofLabel? n.label with
  | none => .skip i n "not a generator step"
  | some .folder =>
    match safeName? (n.inputValue 0) with
    | none => .skip i n Recipe.folder.refusal
    | some name => .makeFolder (folder ++ [name])
  | some recipe =>
    match fileOf recipe n with
    | (none, _) => .skip i n recipe.refusal
    | (some name, text) => .writeFile (folder ++ [name]) text

def perform (limit : Nat) (s : Site) : Deed → Except ScriptError Unit × Site
  | visit => Generator.visit limit s
  | makeMod path =>
    let (answer, s) := s.makeFolder path
    (answer, match answer with
      | .ok () => s.addMod path
      | .error _ => s)
  | makeFolder path => s.makeFolder path
  | writeFile path text => s.writeFile path text
  | skip i n reason => (.ok (), s.skip i n reason)

def mod? : Deed → Option Path
  | makeMod path => some path
  | _ => none

def folder? : Deed → Option Path
  | makeMod path | makeFolder path => some path
  | _ => none

def file? : Deed → Option (Path × String)
  | writeFile path text => some (path, text)
  | _ => none

def skipped? : Deed → Option String
  | skip i n reason => some (Graph.indexName i ++ " " ++ n.label ++ ": " ++ reason)
  | _ => none

def isVisit : Deed → Bool
  | visit => true
  | _ => false

end Deed

/-- Performs deeds one after the other, until one fails. -/
def performAll (limit : Nat) : List Deed → Site → Except ScriptError Unit × Site
  | [], s => (.ok (), s)
  | d :: ds, s =>
    match d.perform limit s with
    | (.error e, s) => (.error e, s)
    | (.ok (), s) => performAll limit ds s

/-- A visit, with what its node does. -/
def Trail.deeds (g : Graph Float32) (root : Path) (t : Trail) : List Deed :=
  .visit :: ((g.node? t.number).map fun n => Deed.ofNode t.number n (t.folder g root)).toList

/-- What is done for a mod: its folder is made, and its tree is visited. -/
def modDeeds (g : Graph Float32) (root : Path) (depth i : Nat) (n : Node Float32) : List Deed :=
  match safeName? (n.inputValue 0) with
  | none => [.skip i n "invalid mod name"]
  | some name => .makeMod (root ++ [name]) :: (walk g depth (Trail.after g ⟨[], i⟩)).flatMap (Trail.deeds g root)

/-- What is done for all mods. -/
def deeds (g : Graph Float32) (root : Path) (depth : Nat) : List Deed :=
  (modNodes g).flatMap fun (i, n) => modDeeds g root depth i n

/-- The report on some deeds. -/
def reportOf (ds : List Deed) : Report where
  mods := (ds.filterMap Deed.mod?).toArray
  folders := (ds.filterMap Deed.folder?).toArray
  files := (ds.filterMap fun d => d.file?.map (·.1)).toArray
  skipped := (ds.filterMap Deed.skipped?).toArray

/-- The number of entries of a report; the folders of mods are among the folders. -/
def Report.entries (r : Report) : Nat := r.folders.size + r.files.size + r.skipped.size

/-- The text that was written to a path last. -/
def lastText (path : Path) (ds : List Deed) : Option String :=
  ((ds.filterMap Deed.file?).filter (·.1 = path)).getLast?.map (·.2)

variable {g : Graph Float32} {root : Path} {limit : Nat} {s s' : Site}

/-! ### Performing deeds -/

theorem performAll_append (ds es : List Deed) (s : Site) :
    performAll limit (ds ++ es) s =
      match performAll limit ds s with
      | (.error e, s) => (.error e, s)
      | (.ok (), s) => performAll limit es s := by
  induction ds generalizing s with
  | nil => rfl
  | cons d ds ih =>
    rw [List.cons_append, performAll, performAll]
    rcases d.perform limit s with ⟨e | _, s'⟩
    · rfl
    · exact ih s'

theorem performAll_cons (d : Deed) (ds : List Deed) (s : Site) :
    performAll limit (d :: ds) s =
      match d.perform limit s with
      | (.error e, s) => (.error e, s)
      | (.ok (), s) => performAll limit ds s := rfl

private theorem makeFolder_cases (s : Site) (path : Path) :
    (∃ disk, s.disk.ensureDir path = .ok disk ∧ s.makeFolder path = (.ok (), s.addFolder path disk)) ∨
      ∃ fault : Disk.Fault, s.makeFolder path = (.error fault.error, s) := by
  rw [Site.makeFolder]
  split
  · next disk hdisk => exact .inl ⟨disk, hdisk, rfl⟩
  · next fault _ => exact .inr ⟨fault, rfl⟩

private theorem writeFile_cases (s : Site) (path : Path) (text : String) :
    (∃ disk, s.disk.write path (.text text) = .ok disk ∧ s.writeFile path text = (.ok (), s.addFile path disk)) ∨
      ∃ fault : Disk.Fault, s.writeFile path text = (.error fault.error, s) := by
  rw [Site.writeFile]
  split
  · next disk hdisk => exact .inl ⟨disk, hdisk, rfl⟩
  · next fault _ => exact .inr ⟨fault, rfl⟩

/-- What a deed changes when it succeeds. -/
inductive Deed.Done (limit : Nat) (s : Site) : Deed → Site → Prop
  | visit (hlimit : s.visits < limit) : Done limit s .visit s.addVisit
  | makeMod {path : Path} {disk : Disk} (hmade : s.disk.ensureDir path = .ok disk) :
      Done limit s (.makeMod path) ((s.addFolder path disk).addMod path)
  | makeFolder {path : Path} {disk : Disk} (hmade : s.disk.ensureDir path = .ok disk) :
      Done limit s (.makeFolder path) (s.addFolder path disk)
  | writeFile {path : Path} {text : String} {disk : Disk} (hwritten : s.disk.write path (.text text) = .ok disk) :
      Done limit s (.writeFile path text) (s.addFile path disk)
  | skip (i : Nat) (n : Node Float32) (reason : String) : Done limit s (.skip i n reason) (s.skip i n reason)

/-- A deed succeeds, or a file cannot be made, or it is a visit over the limit. -/
theorem Deed.perform_cases (limit : Nat) (s : Site) (d : Deed) :
    (∃ s', d.perform limit s = (.ok (), s') ∧ d.Done limit s s') ∨
      (∃ fault : Disk.Fault, d.perform limit s = (.error fault.error, s) ∧ d ≠ .visit) ∨
      d = .visit ∧ limit ≤ s.visits ∧ d.perform limit s = (.error (.runaway (s.visits + 1) limit), s.addVisit) := by
  cases d with
  | visit =>
    by_cases hlimit : limit < s.visits + 1
    · refine .inr (.inr ⟨rfl, Nat.le_of_lt_succ hlimit, ?_⟩)
      rw [perform, Generator.visit, if_pos hlimit]
      rfl
    · refine .inl ⟨s.addVisit, ?_, .visit (by omega)⟩
      rw [perform, Generator.visit, if_neg hlimit]
      rfl
  | makeMod path =>
    rcases makeFolder_cases s path with ⟨disk, hmade, heq⟩ | ⟨fault, heq⟩
    · exact .inl ⟨_, by rw [perform, heq], .makeMod hmade⟩
    · exact .inr (.inl ⟨fault, by rw [perform, heq], by simp⟩)
  | makeFolder path =>
    rcases makeFolder_cases s path with ⟨disk, hmade, heq⟩ | ⟨fault, heq⟩
    · exact .inl ⟨_, heq, .makeFolder hmade⟩
    · exact .inr (.inl ⟨fault, heq, by simp⟩)
  | writeFile path text =>
    rcases writeFile_cases s path text with ⟨disk, hwritten, heq⟩ | ⟨fault, heq⟩
    · exact .inl ⟨_, heq, .writeFile hwritten⟩
    · exact .inr (.inl ⟨fault, heq, by simp⟩)
  | skip i n reason => exact .inl ⟨_, rfl, .skip i n reason⟩

/-- All deeds succeed, or a file cannot be made, or the visits are too many. -/
theorem performAll_cases (hvisits : s.visits ≤ limit) (ds : List Deed) :
    (∃ s', performAll limit ds s = (.ok (), s') ∧ s'.visits = s.visits + ds.countP Deed.isVisit ∧ s'.visits ≤ limit) ∨
      (∃ fault : Disk.Fault, (performAll limit ds s).1 = .error fault.error) ∨
      (performAll limit ds s).1 = .error (.runaway (limit + 1) limit) ∧
      limit < s.visits + ds.countP Deed.isVisit := by
  induction ds generalizing s with
  | nil => exact .inl ⟨s, rfl, rfl, hvisits⟩
  | cons d ds ih =>
    rw [performAll_cons]
    rcases d.perform_cases limit s with ⟨s', heq, hdone⟩ | ⟨fault, heq, -⟩ | ⟨rfl, hlimit, heq⟩
    · rw [heq]
      have hcount : s'.visits = s.visits + (if d.isVisit then 1 else 0) ∧ s'.visits ≤ limit := by
        cases hdone with
        | visit hlimit => exact ⟨rfl, hlimit⟩
        | makeMod | makeFolder | writeFile | skip => exact ⟨rfl, hvisits⟩
      rw [List.countP_cons]
      rcases ih hcount.2 with ⟨s'', hok, hsum, hle⟩ | hfault | ⟨herror, hlt⟩
      · exact .inl ⟨s'', hok, by omega, hle⟩
      · exact .inr (.inl hfault)
      · exact .inr (.inr ⟨herror, by omega⟩)
    · rw [heq]
      exact .inr (.inl ⟨fault, rfl⟩)
    · rw [heq, List.countP_cons]
      have hall : s.visits = limit := Nat.le_antisymm hvisits hlimit
      refine .inr (.inr ⟨by rw [hall], ?_⟩)
      simp only [Deed.isVisit, if_true]
      omega

theorem visits_of_performAll {ds : List Deed} (hvisits : s.visits ≤ limit)
    (h : performAll limit ds s = (.ok (), s')) :
    s'.visits = s.visits + ds.countP Deed.isVisit ∧ s'.visits ≤ limit := by
  rcases performAll_cases hvisits ds with ⟨s₁, hok, hcount⟩ | ⟨fault, herror⟩ | ⟨herror, -⟩
  · rw [h] at hok
    cases hok
    exact hcount
  · rw [h] at herror
    cases herror
  · rw [h] at herror
    cases herror

/-! ### What deeds leave -/

/-- The entry that deeds leave at a path. -/
def entryAfter (path : Path) (ds : List Deed) (before : Option Entry) : Option Entry :=
  match lastText path ds with
  | some text => some (.file (.text text))
  | none => if path ∈ ds.filterMap Deed.folder? then some .directory else before

private theorem performAll_concat_ok {ds : List Deed} {d : Deed} (h : performAll limit (ds ++ [d]) s = (.ok (), s')) :
    ∃ s₁, performAll limit ds s = (.ok (), s₁) ∧ d.Done limit s₁ s' := by
  rw [performAll_append] at h
  rcases hfirst : performAll limit ds s with ⟨e | _, s₁⟩
  · simp [hfirst] at h
  · simp only [hfirst, performAll] at h
    refine ⟨s₁, rfl, ?_⟩
    rcases d.perform_cases limit s₁ with ⟨s₂, heq, hdone⟩ | ⟨fault, heq, -⟩ | ⟨-, -, heq⟩
    · simp only [heq, Prod.mk.injEq, true_and] at h
      exact h ▸ hdone
    · simp [heq] at h
    · simp [heq] at h

theorem report_performAll {ds : List Deed} (h : performAll limit ds s = (.ok (), s')) :
    s'.report.mods = s.report.mods ++ (reportOf ds).mods ∧
      s'.report.folders = s.report.folders ++ (reportOf ds).folders ∧
      s'.report.files = s.report.files ++ (reportOf ds).files ∧
      s'.report.skipped = s.report.skipped ++ (reportOf ds).skipped := by
  induction ds using List.reverseRecOn generalizing s' with
  | nil =>
    cases h
    simp [reportOf]
  | append_singleton ds d ih =>
    obtain ⟨s₁, hfirst, hdone⟩ := performAll_concat_ok h
    obtain ⟨hmods, hfolders, hfiles, hskipped⟩ := ih hfirst
    cases hdone <;>
      simp [reportOf, Deed.mod?, Deed.folder?, Deed.file?, Deed.skipped?, Site.addVisit, Site.addMod, Site.addFolder,
        Site.addFile, Site.skip, ← Array.toList_inj, hmods, hfolders, hfiles, hskipped]

private theorem lastText_concat (path : Path) (ds : List Deed) (d : Deed) :
    lastText path (ds ++ [d]) =
      match d.file? with
      | some (p, text) => if p = path then some text else lastText path ds
      | none => lastText path ds := by
  rw [lastText, List.filterMap_append, List.filter_append]
  rcases hfile : d.file? with _ | ⟨p, text⟩
  · rw [List.filterMap_cons_none hfile]
    simp [lastText]
  · rw [List.filterMap_cons_some hfile]
    by_cases hp : p = path
    · simp [hp]
    · simp [hp, lastText]

/-- A deed that succeeds changes the entry that its path has. -/
private theorem entryAfter_concat {path : Path} {ds : List Deed} {d : Deed} {s₁ : Site} {before : Option Entry}
    (hbefore : s₁.disk.entry? path = entryAfter path ds before) (hdone : d.Done limit s₁ s') :
    s'.disk.entry? path = entryAfter path (ds ++ [d]) before := by
  -- where a folder was made, no file was written before
  have hfolder {p : Path} {disk : Disk} (hmade : s₁.disk.ensureDir p = .ok disk) (hd : d.folder? = some p)
      (hfile : d.file? = none) : disk.entry? path = entryAfter path (ds ++ [d]) before := by
    obtain ⟨hentry, hfree⟩ := Disk.ensureDir_eq_ok hmade
    simp only [hentry, entryAfter, lastText_concat, hfile, List.filterMap_append, List.filterMap_cons_some hd,
      List.filterMap_nil, List.mem_append, List.mem_singleton]
    by_cases hp : path = p
    · rw [if_pos hp]
      rw [← hp, hbefore, entryAfter] at hfree
      cases htext : lastText path ds with
      | none => simp [hp]
      | some text => simp [htext] at hfree
    · simp only [hp, if_false, or_false]
      exact hbefore
  have hnothing (hd : d.folder? = none) (hfile : d.file? = none) :
      entryAfter path (ds ++ [d]) before = entryAfter path ds before := by
    rw [entryAfter, entryAfter, lastText_concat, hfile, List.filterMap_append, List.filterMap_cons_none hd,
      List.filterMap_nil, List.append_nil]
  cases hdone with
  | visit => exact hbefore.trans (hnothing rfl rfl).symm
  | skip => exact hbefore.trans (hnothing rfl rfl).symm
  | makeMod hmade => exact hfolder hmade rfl rfl
  | makeFolder hmade => exact hfolder hmade rfl rfl
  | @writeFile p text disk hwritten =>
    obtain ⟨hentry, -⟩ := Disk.write_eq_ok hwritten
    have hd : (Deed.writeFile p text).folder? = none := rfl
    change disk.entry? path = _
    simp only [hentry, entryAfter, lastText_concat, Deed.file?, List.filterMap_append, List.filterMap_cons_none hd,
      List.filterMap_nil, List.append_nil, eq_comm (a := path)]
    by_cases hp : p = path
    · simp [hp]
    · simp only [hp, if_false]
      exact hbefore

theorem entry?_performAll {ds : List Deed} (h : performAll limit ds s = (.ok (), s')) (path : Path) :
    s'.disk.entry? path = entryAfter path ds (s.disk.entry? path) := by
  induction ds using List.reverseRecOn generalizing s' with
  | nil =>
    cases h
    rfl
  | append_singleton ds d ih =>
    obtain ⟨s₁, hfirst, hdone⟩ := performAll_concat_ok h
    exact entryAfter_concat (ih hfirst) hdone

/-! ### The stack -/

/-- The folder in which the nodes after a node are visited. -/
private def inner? (n : Node Float32) (folder : Path) : Option Path :=
  if Recipe.ofLabel? n.label = some .folder then (safeName? (n.inputValue 0)).map (folder ++ [·]) else none

private theorem generateNode_eq (limit i : Nat) (n : Node Float32) (folder : Path) (s : Site) :
    generateNode i n folder s =
      (((Deed.ofNode i n folder).perform limit s).1.map fun _ => inner? n folder,
        ((Deed.ofNode i n folder).perform limit s).2) := by
  rw [generateNode, Deed.ofNode, inner?]
  rcases hlabel : Recipe.ofLabel? n.label with _ | recipe
  · rfl
  cases recipe with
  | modFolder => rfl
  | folder =>
    cases safeName? (n.inputValue 0) with
    | none => rfl
    | some name => rfl
  | modInfo | blockFile | unitFile | itemFile | script =>
    dsimp only
    generalize fileOf _ n = file
    obtain ⟨_ | name, text⟩ := file
    · rfl
    · rfl

private theorem inner?_below {t : Trail} {n : Node Float32} (hn : g.node? t.number = some n) :
    (inner? n (t.folder g root) = none → t.below g = []) ∧
      ∀ inner, inner? n (t.folder g root) = some inner →
        (t.below g).map (fun u => (u.number, u.folder g root)) = children g t.number inner := by
  have hname : folderName? g t.number = safeName? (n.inputValue 0) := by rw [folderName?, hn, Option.bind_some]
  rw [inner?, Trail.below, isOpen, hn, hname]
  by_cases hlabel : Recipe.ofLabel? n.label = some .folder
  · cases hsafe : safeName? (n.inputValue 0) with
    | none => simp [hlabel]
    | some name => simp [hlabel, Trail.after, Trail.folder, children, hname, hsafe, Function.comp_def]
  · simp [hlabel]

/-- Visits that are waiting, each with the depth to which its tree is looked at. -/
private def walkEach (g : Graph Float32) (waiting : List (Nat × Trail)) : List Trail :=
  waiting.flatMap fun p => walk g p.1 [p.2]

private theorem walk_eq_walkEach (depth : Nat) (ts : List Trail) :
    walk g depth ts = walkEach g (ts.map (depth, ·)) := by
  cases depth with
  | zero => simp [walk, walkEach]
  | succ depth => simp [walk, walkEach, List.flatMap_map]

private theorem walkEach_cons (depth : Nat) (t : Trail) (waiting : List (Nat × Trail)) :
    walkEach g ((depth + 1, t) :: waiting) = t :: walkEach g ((t.below g).map (depth, ·) ++ waiting) := by
  rw [walkEach, List.flatMap_cons, walk, List.flatMap_singleton, walk_eq_walkEach, walkEach, walkEach,
    List.flatMap_append, List.cons_append]

private theorem below_of_none {t : Trail} (hn : g.node? t.number = none) : t.below g = [] := by
  rw [Trail.below, isOpen, hn]
  rfl

private theorem Deed.visits_of_done {d : Deed} (hdone : d.Done limit s s') (hd : d ≠ .visit) :
    s'.visits = s.visits := by
  cases hdone with
  | visit => exact absurd rfl hd
  | makeMod | makeFolder | writeFile | skip => rfl

private theorem Deed.ofNode_ne_visit (i : Nat) (n : Node Float32) (folder : Path) : ofNode i n folder ≠ .visit := by
  rw [ofNode]
  split
  · simp
  · split <;> simp
  · split <;> simp

/-- Generating follows the trees of what is on the stack, as far as the count allows. -/
private theorem generateAll_eq {fuel : Nat} {waiting : List (Nat × Trail)} (hfuel : fuel + s.visits = limit + 1)
    (hvisits : s.visits ≤ limit) (hdepth : ∀ p ∈ waiting, fuel ≤ p.1) :
    generateAll limit g fuel (waiting.map fun p => (p.2.number, p.2.folder g root)) s =
      performAll limit ((walkEach g waiting).flatMap (Trail.deeds g root)) s := by
  induction fuel generalizing waiting s with
  | zero => omega
  | succ fuel ih =>
    rcases waiting with _ | ⟨⟨depth, t⟩, waiting⟩
    · rfl
    have hrest : ∀ p ∈ waiting, fuel + 1 ≤ p.1 := fun p hp => hdepth p (List.mem_cons_of_mem _ hp)
    obtain ⟨depth, rfl⟩ :=
      Nat.exists_eq_add_of_le' (Nat.le_trans (Nat.le_add_left 1 fuel) (hdepth _ (List.mem_cons_self ..)))
    have hle : fuel ≤ depth := Nat.le_of_succ_le_succ (hdepth _ (List.mem_cons_self ..))
    -- what is on the stack after the visit
    have hnext : ∀ p ∈ (t.below g).map (depth, ·) ++ waiting, fuel ≤ p.1 := by
      intro p hp
      rcases List.mem_append.1 hp with hp | hp
      · obtain ⟨u, -, rfl⟩ := List.mem_map.1 hp
        exact hle
      · exact Nat.le_of_succ_le (hrest p hp)
    rw [walkEach_cons, List.flatMap_cons, Trail.deeds, List.cons_append, performAll_cons, List.map_cons, generateAll]
    rcases Deed.visit.perform_cases limit s with ⟨s₁, heq, hdone⟩ | ⟨-, -, hne⟩ | ⟨-, -, heq⟩
    · have hvisit : visit limit s = (.ok (), s₁) := heq
      rw [heq, hvisit]
      cases hdone with
      | visit hlimit =>
        have hcount : fuel + s.addVisit.visits = limit + 1 := by
          change fuel + (s.visits + 1) = limit + 1
          omega
        cases hn : g.node? t.number with
        | none =>
          have := ih hcount hlimit hnext
          rw [below_of_none hn] at this ⊢
          exact this
        | some n =>
          have hbelow := @inner?_below g root t n hn
          dsimp only
          rw [generateNode_eq limit, Option.map_some, Option.toList_some, List.singleton_append, performAll_cons]
          rcases (Deed.ofNode t.number n (t.folder g root)).perform_cases limit s.addVisit with
            ⟨s₂, heq₂, hdone₂⟩ | ⟨fault, heq₂, -⟩ | ⟨hvisit₂, -⟩
          · have hsame := Deed.visits_of_done hdone₂ (Deed.ofNode_ne_visit _ _ _)
            rw [heq₂]
            rw [← hsame] at hcount
            have hgo := ih hcount (hsame ▸ hlimit) hnext
            cases hinner : inner? n (t.folder g root) with
            | none =>
              rw [hbelow.1 hinner] at hgo ⊢
              exact hgo
            | some inner =>
              rw [List.map_append, List.map_map] at hgo
              dsimp only [Except.map]
              rw [← hbelow.2 inner hinner]
              exact hgo
          · rw [heq₂]
            rfl
          · exact absurd hvisit₂ (Deed.ofNode_ne_visit _ _ _)
    · exact absurd rfl hne
    · have hvisit : visit limit s = (.error (.runaway (s.visits + 1) limit), s.addVisit) := heq
      rw [heq, hvisit]

private theorem node?_of_mem_modNodes {i : Nat} {n : Node Float32} (h : (i, n) ∈ modNodes g) :
    g.node? i = some n := by
  obtain ⟨⟨m, j⟩, hmem, heq⟩ := List.mem_map.1 (List.mem_filter.1 h).1
  cases heq
  exact List.mem_zipIdx_iff_getElem?.1 hmem

private theorem generateMod_eq {depth i : Nat} {n : Node Float32} (hdepth : limit < depth) (hn : g.node? i = some n)
    (hvisits : s.visits ≤ limit) :
    generateMod limit g root i n s = performAll limit (modDeeds g root depth i n) s := by
  rw [generateMod, modDeeds]
  cases hname : safeName? (n.inputValue 0) with
  | none => rfl
  | some name =>
    have hroots : children g i (root ++ [name]) =
        (((Trail.after g ⟨[], i⟩).map (depth, ·)).map fun p => (p.2.number, p.2.folder g root)) := by
      have hfolder : folderName? g i = some name := by rw [folderName?, hn, Option.bind_some, hname]
      simp [children, Trail.after, Trail.folder, hfolder]
    dsimp only
    rw [performAll_cons, Deed.perform]
    rcases makeFolder_cases s (root ++ [name]) with ⟨disk, -, heq⟩ | ⟨fault, heq⟩
    · rw [heq, walk_eq_walkEach, hroots]
      refine generateAll_eq ?_ hvisits ?_
      · change limit - s.visits + 1 + s.visits = limit + 1
        omega
      · intro p hp
        obtain ⟨t, -, rfl⟩ := List.mem_map.1 hp
        change limit - s.visits + 1 ≤ depth
        omega
    · rw [heq]

/-- Generating does what the deeds of the forest say, to every depth above the limit. -/
theorem generateIn_eq {depth : Nat} (hdepth : limit < depth) (g : Graph Float32) (root : Path) (disk : Disk) :
    generateIn root limit g disk = performAll limit (deeds g root depth) (.ofDisk disk) := by
  have hmods : ∀ mods : List (Nat × Node Float32), (∀ p ∈ mods, g.node? p.1 = some p.2) →
      ∀ s : Site, s.visits ≤ limit → generateMods limit g root mods s =
        performAll limit (mods.flatMap fun (i, n) => modDeeds g root depth i n) s := by
    intro mods hmods
    induction mods with
    | nil => exact fun s _ => rfl
    | cons p mods ih =>
      obtain ⟨i, n⟩ := p
      intro s hvisits
      rw [generateMods, generateMod_eq hdepth (hmods _ (List.mem_cons_self ..)) hvisits, List.flatMap_cons,
        performAll_append]
      rcases hfirst : performAll limit (modDeeds g root depth i n) s with ⟨e | _, s'⟩
      · rfl
      · exact ih (fun p hp => hmods p (List.mem_cons_of_mem _ hp)) s' (visits_of_performAll hvisits hfirst).2
  exact hmods (modNodes g) (fun _ => node?_of_mem_modNodes) (.ofDisk disk) (Nat.zero_le _)

/-! ### Counting -/

/-- Each deed but a visit has one entry. -/
theorem entries_reportOf (ds : List Deed) : (reportOf ds).entries = ds.countP fun d => !d.isVisit := by
  simp only [Report.entries, reportOf, List.size_toArray, List.length_filterMap_eq_countP, Option.isSome_map]
  induction ds with
  | nil => rfl
  | cons d ds ih =>
    have hd : (if d.folder?.isSome then 1 else 0) + (if d.file?.isSome then 1 else 0) +
        (if d.skipped?.isSome then 1 else 0) = if !d.isVisit then 1 else 0 := by
      cases d <;> rfl
    simp only [List.countP_cons]
    omega

private theorem Deed.isVisit_ofNode (i : Nat) (n : Node Float32) (folder : Path) :
    (ofNode i n folder).isVisit = false := by
  rw [ofNode]
  split
  · rfl
  · split <;> rfl
  · split <;> rfl

private theorem countP_trail (g : Graph Float32) (root : Path) (t : Trail) :
    (t.deeds g root).countP Deed.isVisit = 1 := by
  rw [Trail.deeds]
  cases g.node? t.number with
  | none => rfl
  | some n =>
    rw [Option.map_some, Option.toList_some, List.countP_cons, List.countP_singleton, Deed.isVisit_ofNode]
    rfl

private theorem countP_modDeeds {depth i : Nat} {n : Node Float32} (hn : g.node? i = some n) :
    (modDeeds g root depth i n).countP Deed.isVisit = (modTree g depth i).length := by
  rw [modDeeds, modTree, folderName?, hn, Option.bind_some]
  cases safeName? (n.inputValue 0) with
  | none => rfl
  | some name =>
    have hcount : List.countP Deed.isVisit ∘ Trail.deeds g root = fun _ => 1 := funext (countP_trail g root)
    simp [Deed.isVisit, List.countP_flatMap, hcount]

/-- The visits of the forest are the visits that are counted. -/
theorem countP_deeds (g : Graph Float32) (root : Path) (depth : Nat) :
    (deeds g root depth).countP Deed.isVisit = (forest g depth).length := by
  rw [deeds, forest, List.countP_flatMap, List.length_flatMap]
  refine congrArg List.sum (List.map_congr_left fun p hp => ?_)
  exact countP_modDeeds (node?_of_mem_modNodes hp)

private theorem exists_node_of_mem_after (hlinked : g.Linked) {t u : Trail} (hu : u ∈ t.after g) :
    ∃ n, g.node? u.number = some n := by
  obtain ⟨j, hj, rfl⟩ := List.mem_map.1 hu
  rw [Graph.successors] at hj
  split at hj
  · next n hn => exact ⟨_, List.getElem?_eq_getElem ((hlinked _ n hn).lt j hj)⟩
  · cases hj

private theorem mem_after_of_mem_below {t u : Trail} (hu : u ∈ t.below g) : u ∈ t.after g := by
  rw [Trail.below] at hu
  split at hu
  · exact hu
  · cases hu

private theorem exists_node_of_mem_walk (hlinked : g.Linked) {depth : Nat} {t : Trail} {ts : List Trail}
    (ht : t ∈ walk g depth ts) (hts : ∀ u ∈ ts, ∃ n, g.node? u.number = some n) : ∃ n, g.node? t.number = some n := by
  induction depth generalizing ts with
  | zero => cases ht
  | succ depth ih =>
    obtain ⟨u, hu, ht⟩ := List.mem_flatMap.1 ht
    rcases List.mem_cons.1 ht with rfl | ht
    · exact hts _ hu
    · exact ih ht fun v hv => exists_node_of_mem_after hlinked (mem_after_of_mem_below hv)

/-- Connections lead to nodes, so every visit is to a node, which has one deed. -/
theorem exists_deed_of_mem_forest (hlinked : g.Linked) {depth : Nat} {t : Trail} (ht : t ∈ forest g depth)
    (root : Path) :
    ∃ n, g.node? t.number = some n ∧ t.deeds g root = [.visit, .ofNode t.number n (t.folder g root)] := by
  obtain ⟨p, -, ht⟩ := List.mem_flatMap.1 ht
  dsimp only [modTree] at ht
  split at ht
  · obtain ⟨n, hn⟩ := exists_node_of_mem_walk hlinked ht fun u hu => exists_node_of_mem_after hlinked hu
    exact ⟨n, hn, by rw [Trail.deeds, hn]; rfl⟩
  · cases ht

private theorem length_modDeeds (hlinked : g.Linked) {depth i : Nat} {n : Node Float32} (hmem : (i, n) ∈ modNodes g) :
    (modDeeds g root depth i n).length = 1 + 2 * (modTree g depth i).length := by
  have hn := node?_of_mem_modNodes hmem
  have hdeeds : ∀ t ∈ modTree g depth i, (t.deeds g root).length = 2 := by
    intro t ht
    obtain ⟨m, -, heq⟩ := exists_deed_of_mem_forest hlinked (List.mem_flatMap.2 ⟨_, hmem, ht⟩) root
    rw [heq]
    rfl
  rw [modTree, folderName?, hn, Option.bind_some] at hdeeds ⊢
  rw [modDeeds]
  cases hname : safeName? (n.inputValue 0) with
  | none => rfl
  | some name =>
    simp only [hname, Option.isSome_some, if_true] at hdeeds ⊢
    rw [List.length_cons, List.length_flatMap, List.map_congr_left hdeeds, List.map_const', List.sum_replicate_nat]
    omega

/-- The entries of the report: one for each visit and for each node for a mod. -/
theorem entries_deeds (hlinked : g.Linked) (root : Path) (depth : Nat) :
    (reportOf (deeds g root depth)).entries = (forest g depth).length + (modNodes g).length := by
  have hsum : ∀ mods : List (Nat × Node Float32), (∀ p ∈ mods, p ∈ modNodes g) →
      (mods.flatMap fun (i, n) => modDeeds g root depth i n).length =
        2 * (mods.flatMap fun (i, _) => modTree g depth i).length + mods.length := by
    intro mods hmods
    induction mods with
    | nil => rfl
    | cons p mods ih =>
      have hfirst := @length_modDeeds g root hlinked depth p.1 p.2 (hmods p (List.mem_cons_self ..))
      have hrest := ih fun q hq => hmods q (List.mem_cons_of_mem _ hq)
      simp only [List.flatMap_cons, List.length_append, List.length_cons, hfirst, hrest]
      omega
  have hlength := hsum (modNodes g) fun _ hp => hp
  rw [← deeds, ← forest] at hlength
  have hsplit := List.length_eq_countP_add_countP Deed.isVisit (l := deeds g root depth)
  rw [countP_deeds] at hsplit
  rw [entries_reportOf]
  simp only [Bool.not_eq_true, Bool.decide_eq_false] at hsplit
  omega

private theorem Deed.mod?_ofNode (i : Nat) (n : Node Float32) (folder : Path) : (ofNode i n folder).mod? = none := by
  rw [ofNode]
  split
  · rfl
  · split <;> rfl
  · split <;> rfl

private theorem filterMap_mod?_trail (g : Graph Float32) (root : Path) (t : Trail) :
    (t.deeds g root).filterMap Deed.mod? = [] := by
  rw [Trail.deeds, List.filterMap_cons_none (rfl : Deed.mod? .visit = none)]
  cases g.node? t.number with
  | none => rfl
  | some n => exact List.filterMap_cons_none (Deed.mod?_ofNode _ _ _)

/-- The mods of the report: one for each node for a mod with a name that can be used. -/
theorem mods_deeds (g : Graph Float32) (root : Path) (depth : Nat) :
    (reportOf (deeds g root depth)).mods.toList =
      (modNodes g).filterMap fun (i, _) => (folderName? g i).map fun name => root ++ [name] := by
  change (deeds g root depth).filterMap Deed.mod? = _
  rw [deeds, List.filterMap_flatMap, List.filterMap_eq_flatMap_toList]
  refine List.flatMap_congr fun p hp => ?_
  obtain ⟨i, n⟩ := p
  dsimp only
  rw [modDeeds, folderName?, node?_of_mem_modNodes hp, Option.bind_some]
  cases safeName? (n.inputValue 0) with
  | none => rfl
  | some name =>
    rw [List.filterMap_cons_some (rfl : Deed.mod? (.makeMod _) = some _), List.filterMap_flatMap]
    simp only [filterMap_mod?_trail]
    simp

/-! ### Depth -/

private theorem length_walk_below {depth : Nat} {t : Trail} {ts : List Trail} (ht : t ∈ ts) :
    (walk g depth (t.below g)).length < (walk g (depth + 1) ts).length := by
  obtain ⟨before, rest, rfl⟩ := List.append_of_mem ht
  simp only [walk, List.flatMap_append, List.flatMap_cons, List.length_append, List.length_cons]
  omega

/-- A tree with fewer visits than its depth is complete. -/
private theorem walk_succ {depth : Nat} {ts : List Trail} (h : (walk g depth ts).length < depth) :
    walk g (depth + 1) ts = walk g depth ts := by
  induction depth generalizing ts with
  | zero => omega
  | succ depth ih =>
    refine List.flatMap_congr fun t ht => ?_
    have hlt := @length_walk_below g depth t ts ht
    rw [ih (by omega)]

private theorem length_walk_le_succ (depth : Nat) (ts : List Trail) :
    (walk g depth ts).length ≤ (walk g (depth + 1) ts).length := by
  induction depth generalizing ts with
  | zero => exact Nat.zero_le _
  | succ depth ih =>
    induction ts with
    | nil => rfl
    | cons t ts hts =>
      have ht := ih (t.below g)
      rw [walk, walk] at hts ⊢
      simp only [List.flatMap_cons, List.length_append, List.length_cons] at hts ⊢
      omega

/-- From a node from which the tree leads to a cycle it leads to another such node. -/
private theorem exists_opens {i j : Nat} (hreach : ReflTransGen (Opens g) i j) (hcycle : TransGen (Opens g) j j) :
    ∃ k, Opens g i k ∧ ReflTransGen (Opens g) k j := by
  rcases hreach.cases_head with rfl | ⟨k, hopens, hrest⟩
  · obtain ⟨k, hopens, hrest⟩ := TransGen.head'_iff.1 hcycle
    exact ⟨k, hopens, hrest⟩
  · exact ⟨k, hopens, hrest⟩

private theorem depth_le_length_walk {i j : Nat} (hreach : ReflTransGen (Opens g) i j)
    (hcycle : TransGen (Opens g) j j)
    (depth : Nat) {ts : List Trail} {t : Trail} (ht : t ∈ ts) (hnumber : t.number = i) :
    depth ≤ (walk g depth ts).length := by
  induction depth generalizing i ts t with
  | zero => exact Nat.zero_le _
  | succ depth ih =>
    obtain ⟨k, ⟨hopen, hk⟩, hrest⟩ := exists_opens hreach hcycle
    have hmem : ⟨t.above ++ [t.number], k⟩ ∈ t.below g := by
      rw [Trail.below, hnumber, if_pos hopen]
      exact List.mem_map.2 ⟨k, hnumber ▸ hk, by rw [hnumber]⟩
    have hdepth := ih hrest hmem rfl
    have hlt := @length_walk_below g depth t ts ht
    omega

/-! ### Generating -/

private theorem length_modTree_le {p : Nat × Node Float32} (hp : p ∈ modNodes g) (depth : Nat) :
    (modTree g depth p.1).length ≤ (forest g depth).length := by
  obtain ⟨before, rest, heq⟩ := List.append_of_mem hp
  simp only [forest, heq, List.flatMap_append, List.flatMap_cons, List.length_append]
  omega

/-- With a cycle of folders there is no end. -/
theorem depth_le_of_hasCycle (h : HasCycle g) (depth : Nat) : depth ≤ (forest g depth).length := by
  obtain ⟨p, hp, hname, i, hi, j, hreach, hcycle⟩ := h
  have hmem : ⟨[p.1], i⟩ ∈ Trail.after g ⟨[], p.1⟩ := List.mem_map.2 ⟨i, hi, rfl⟩
  have htree := length_modTree_le hp depth
  rw [modTree, if_pos hname] at htree
  exact Nat.le_trans (depth_le_length_walk hreach hcycle depth hmem rfl) htree

private theorem forest_succ {depth : Nat} (h : (forest g depth).length < depth) :
    forest g (depth + 1) = forest g depth := by
  refine List.flatMap_congr fun p hp => ?_
  have htree := length_modTree_le hp depth
  dsimp only
  rw [modTree] at htree ⊢
  rw [modTree]
  split
  · next hname =>
    rw [if_pos hname] at htree
    exact walk_succ (by omega)
  · rfl

private theorem length_forest_mono {depth depth' : Nat} (h : depth ≤ depth') :
    (forest g depth).length ≤ (forest g depth').length := by
  have htree (depth i : Nat) : (modTree g depth i).length ≤ (modTree g (depth + 1) i).length := by
    rw [modTree, modTree]
    split
    · exact length_walk_le_succ depth _
    · exact Nat.le_refl _
  have hsucc (depth : Nat) : (forest g depth).length ≤ (forest g (depth + 1)).length := by
    rw [forest, forest]
    induction modNodes g with
    | nil => exact Nat.le_refl _
    | cons p mods ih =>
      rw [List.flatMap_cons, List.flatMap_cons, List.length_append, List.length_append]
      exact Nat.add_le_add (htree depth p.1) ih
  exact monotone_nat_of_le_succ hsucc h

/-- A forest with no more visits than the limit is complete above it. -/
theorem forest_of_length_le (h : ∀ depth, (forest g depth).length ≤ limit) {depth : Nat} (hdepth : limit < depth) :
    forest g depth = forest g (limit + 1) := by
  induction depth, hdepth using Nat.le_induction with
  | base => rfl
  | succ depth hdepth ih => rw [forest_succ (Nat.lt_of_le_of_lt (h depth) hdepth), ih]

/-- What generating leaves when it comes to the end of a forest. -/
structure Completes (g : Graph Float32) (root : Path) (disk : Disk) (depth : Nat) (s : Site) : Prop where
  report : s.report = reportOf (deeds g root depth)
  visits : s.visits = (forest g depth).length
  /-- the mods, in the order of their nodes -/
  mods : s.report.mods.toList = (modNodes g).filterMap fun (i, _) => (folderName? g i).map fun name => root ++ [name]
  /-- each visit has one entry, each mod has one, and each node for a mod has one whose name cannot be used -/
  entries : s.report.entries =
    s.visits + s.report.mods.size + (modNodes g).countP fun (i, _) => folderName? g i = none
  entry? : ∀ path, s.disk.entry? path = entryAfter path (deeds g root depth) (disk.entry? path)

private theorem completes_of_performAll (hlinked : g.Linked) {disk : Disk} {depth : Nat}
    (h : performAll limit (deeds g root depth) (.ofDisk disk) = (.ok (), s)) : Completes g root disk depth s := by
  obtain ⟨hmods, hfolders, hfiles, hskipped⟩ := report_performAll h
  obtain ⟨hvisits, -⟩ := visits_of_performAll (Nat.zero_le limit) h
  simp only [Site.ofDisk, Array.empty_append, countP_deeds, Nat.zero_add] at hmods hfolders hfiles hskipped hvisits
  have hreport : s.report = reportOf (deeds g root depth) := by
    rcases hr : s.report with ⟨mods, folders, files, skipped⟩
    rw [hr] at hmods hfolders hfiles hskipped
    dsimp only at hmods hfolders hfiles hskipped
    rw [hmods, hfolders, hfiles, hskipped]
  have hlist := mods_deeds g root depth
  rw [← hreport] at hlist
  refine ⟨hreport, hvisits, hlist, ?_, entry?_performAll h⟩
  have hnames : (modNodes g).length =
      s.report.mods.size + (modNodes g).countP fun (i, _) => folderName? g i = none := by
    rw [← Array.length_toList, hlist, List.length_filterMap_eq_countP,
      List.length_eq_countP_add_countP fun p => (folderName? g p.1).isSome]
    simp
  rw [hreport, entries_deeds hlinked, ← hreport, hvisits, hnames, Nat.add_assoc]

/-- Generating when all files can be made: it fails if and only if the forest has more visits than the limit, as it
does with a cycle of folders.  Otherwise it does what the forest says in pre-order. -/
theorem generates_forest (hlinked : g.Linked) {disk : Disk}
    (hfiles : ∀ fault : Disk.Fault, (generateIn root limit g disk).1 ≠ .error fault.error) :
    ((generateIn root limit g disk).1 = .error (.runaway (limit + 1) limit) ↔
        ∃ depth, limit < (forest g depth).length) ∧
      (HasCycle g → ∃ depth, limit < (forest g depth).length) ∧
      (∀ depth, ∀ t ∈ forest g depth, ∃ n, g.node? t.number = some n ∧
        t.deeds g root = [.visit, .ofNode t.number n (t.folder g root)] ∧ (reportOf (t.deeds g root)).entries = 1) ∧
      ((∀ depth, (forest g depth).length ≤ limit) → ∃ s, generateIn root limit g disk = (.ok (), s) ∧
        ∀ depth > limit, forest g depth = forest g (limit + 1) ∧
          performAll limit (deeds g root depth) (.ofDisk disk) = (.ok (), s) ∧ Completes g root disk depth s) := by
  have hcases (depth : Nat) (hdepth : limit < depth) :
      (∃ s, generateIn root limit g disk = (.ok (), s) ∧ (forest g depth).length ≤ limit) ∨
        (generateIn root limit g disk).1 = .error (.runaway (limit + 1) limit) ∧ limit < (forest g depth).length := by
    have hvisits : (Site.ofDisk disk).visits ≤ limit := Nat.zero_le _
    rw [generateIn_eq hdepth] at hfiles ⊢
    rw [← countP_deeds g root]
    rcases performAll_cases hvisits (deeds g root depth) with ⟨s, hok, hcount, hle⟩ | ⟨fault, herror⟩ | ⟨herror, hlt⟩
    · exact .inl ⟨s, hok, by rw [hcount] at hle; omega⟩
    · exact absurd herror (hfiles fault)
    · exact .inr ⟨herror, by rwa [Site.ofDisk, Nat.zero_add] at hlt⟩
  refine ⟨⟨?_, ?_⟩, ?_, ?_, ?_⟩
  · intro herror
    rcases hcases (limit + 1) (Nat.lt_succ_self _) with ⟨s, hok, -⟩ | ⟨-, hlt⟩
    · rw [hok] at herror
      cases herror
    · exact ⟨_, hlt⟩
  · rintro ⟨depth, hlt⟩
    have hmono := length_forest_mono (g := g) (Nat.le_max_left depth (limit + 1))
    rcases hcases (max depth (limit + 1)) (by omega) with ⟨s, -, hle⟩ | ⟨herror, -⟩
    · omega
    · exact herror
  · exact fun hcycle => ⟨limit + 1, depth_le_of_hasCycle hcycle (limit + 1)⟩
  · intro depth t ht
    obtain ⟨n, hn, hdeeds⟩ := exists_deed_of_mem_forest hlinked ht root
    refine ⟨n, hn, hdeeds, ?_⟩
    rw [hdeeds, entries_reportOf, List.countP_cons, List.countP_singleton, Deed.isVisit_ofNode]
    rfl
  · intro hle
    rcases hcases (limit + 1) (Nat.lt_succ_self _) with ⟨s, hok, -⟩ | ⟨-, hlt⟩
    · refine ⟨s, hok, fun depth hdepth => ⟨forest_of_length_le hle hdepth, ?_⟩⟩
      have hperform := (generateIn_eq hdepth g root disk).symm.trans hok
      exact ⟨hperform, completes_of_performAll hlinked hperform⟩
    · exact absurd (hle _) (Nat.not_le.2 hlt)

/-- A mod with one item in two folders. -/
private def pantry : Graph Float32 :=
  let folders := (Graph.empty.addTemplate "m" "Create Mod Folder" ⟨0, 0⟩).addTemplate "f" "Create Folder" ⟨0, 0⟩
  let nodes := folders.addTemplate "i" "Create Item File" ⟨0, 0⟩
  (((nodes.connect 0 1).2.connect 0 2).2.connect 1 2).2

/-- The item is visited once in each folder, so there are three visits.  A limit of two is too low for them. -/
theorem generates_forest_pantry :
    (generateIn [] 2 pantry Disk.empty).1 = .error (.runaway 3 2) ∧ (∃ depth, 2 < (forest pantry depth).length) ∧
      (∀ depth, (forest pantry depth).length ≤ 3) ∧
      ∃ s, generateIn [] 3 pantry Disk.empty = (.ok (), s) ∧ s.visits = 3 ∧
        performAll 3 (deeds pantry [] 4) (.ofDisk Disk.empty) = (.ok (), s) ∧ Completes pantry [] Disk.empty 4 s := by
  have hlinked : pantry.Linked :=
    Graph.Built.linked (.connect (.connect (.connect (.add (.add (.add .empty (.ofTemplate ..)) (.ofTemplate ..))
      (.ofTemplate ..)) 0 1) 0 2) 1 2)
  have herror : (generateIn [] 2 pantry Disk.empty).1 = .error (.runaway 3 2) := by rfl
  have hfiles (fault : Disk.Fault) : (generateIn [] 2 pantry Disk.empty).1 ≠ .error fault.error := by
    rw [herror]
    cases fault <;> simp [Disk.Fault.error]
  have hok : (generateIn [] 3 pantry Disk.empty).1 = .ok () := by rfl
  have hfiles' (fault : Disk.Fault) : (generateIn [] 3 pantry Disk.empty).1 ≠ .error fault.error := by simp [hok]
  obtain ⟨hrunaway, -, -, hcomplete⟩ := generates_forest hlinked hfiles'
  have hle (depth : Nat) : (forest pantry depth).length ≤ 3 := by
    by_contra hlt
    have hstopped := hrunaway.2 ⟨depth, Nat.not_le.1 hlt⟩
    rw [hok] at hstopped
    cases hstopped
  obtain ⟨s, hs, hforest⟩ := hcomplete hle
  obtain ⟨-, hperform, hcompletes⟩ := hforest 4 (by decide)
  refine ⟨herror, (generates_forest hlinked hfiles).1.1 herror, hle, s, hs, ?_, hperform, hcompletes⟩
  have hvisits : (generateIn [] 3 pantry Disk.empty).2.visits = 3 := by rfl
  rwa [hs] at hvisits

end ScriptGraph.Generator
