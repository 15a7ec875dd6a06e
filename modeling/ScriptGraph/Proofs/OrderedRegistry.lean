import ScriptGraph.Proofs.Bookkeeping
import ScriptGraph.Proofs.StoreHistory

/-!
# Loaded scripts in order

A registry is an ordered map: its names, which are all different, and the script of each name.  `Puts`, `Drops` and
`Switches` say in these terms what requests to an engine do to it (`Engine.Orderly`).  A store may refuse any call,
also one of those that loading everything is made of, and what it refuses changes no script; `Disturbed` is a store
to which that happens.

The names stay different because a script comes in the place of the one with its name (`Registry.names_replaced`).
When everything is loaded, the registry is empty at first and no store lists a name twice, so each script that can
be loaded comes last (`Engine.loadEach_appends`).
-/

namespace ScriptGraph

/-! ### Registries as maps -/

namespace Registry

/-- The names of the scripts in their order. -/
def names (r : Registry) : List String := r.scripts.map (·.name)

/-- A script comes in the place of the one with its name, or last if there is none. -/
structure Puts (r : Registry) (s : Script) (r' : Registry) : Prop where
  names : r'.names = if s.name ∈ r.names then r.names else r.names ++ [s.name]
  find? : ∀ name, r'.find? name = if name = s.name then some s else r.find? name

/-- The script with a name goes. -/
structure Drops (r : Registry) (name : String) (r' : Registry) : Prop where
  names : r'.names = r.names.filter (· ≠ name)
  find? : ∀ other, r'.find? other = if other = name then none else r.find? other

/-- The script with a name is enabled or disabled. -/
structure Switches (r : Registry) (name : String) (enabled : Bool) (r' : Registry) : Prop where
  names : r'.names = r.names
  find? : ∀ other, r'.find? other =
    if other = name then (r.find? name).map fun s => { s with enabled } else r.find? other

variable {r r' : Registry} {s : Script} {name : String}

theorem name_of_find? (h : r.find? name = some s) : s.name = name := by
  simpa using List.find?_some h

theorem isSome_find? : (r.find? name).isSome = true ↔ name ∈ r.names := by
  simp [find?, names]

/-- Names and lookups say all about a registry. -/
theorem scripts_eq (h : r.names.Nodup) : r.scripts = r.names.filterMap r.find? := by
  have hfind : ∀ s ∈ r.scripts, r.find? s.name = some s := by
    intro s hs
    obtain ⟨before, after, hsplit⟩ := List.append_of_mem hs
    rw [find?, List.find?_eq_some_iff_append]
    refine ⟨by simp, before, after, hsplit, ?_⟩
    intro t ht
    rw [names, hsplit, List.map_append, List.map_cons, List.nodup_append] at h
    have hne := h.2.2 t.name (List.mem_map_of_mem ht) s.name List.mem_cons_self
    simpa using hne
  calc r.scripts = r.scripts.filterMap some := List.filterMap_some.symm
    _ = r.scripts.filterMap fun s => r.find? s.name := List.filterMap_congr fun s hs => (hfind s hs).symm
    _ = r.names.filterMap r.find? := by rw [names, List.filterMap_map]; rfl

theorem names_replaced (s : Script) (ts : List Script) : (replaced s ts).map (·.name) =
    if s.name ∈ ts.map (·.name) then ts.map (·.name) else ts.map (·.name) ++ [s.name] := by
  induction ts with
  | nil => rfl
  | cons t ts ih =>
    rw [replaced]
    by_cases ht : t.name = s.name
    · simp [ht]
    · rw [if_neg ht, List.map_cons, ih, List.map_cons]
      by_cases hs : s.name ∈ ts.map (·.name)
      · rw [if_pos hs, if_pos (List.mem_cons_of_mem _ hs)]
      · rw [if_neg hs, if_neg (by simp [hs, Ne.symm ht]), List.cons_append]

theorem find?_replaced (s : Script) (ts : List Script) (name : String) :
    (replaced s ts).find? (·.name == name) = if name = s.name then some s else ts.find? (·.name == name) := by
  induction ts with
  | nil => simp [replaced, List.find?_singleton, eq_comm (a := s.name)]
  | cons t ts ih =>
    rw [replaced]
    by_cases ht : t.name = s.name
    · rw [if_pos ht, List.find?_cons, List.find?_cons, ht]
      by_cases hname : name = s.name
      · simp [hname]
      · rw [beq_eq_false_iff_ne.2 (Ne.symm hname), if_neg hname]
    · by_cases hname : name = s.name
      · rw [if_neg ht, List.find?_cons_of_neg (by simp [hname, ht]), ih, if_pos hname, if_pos hname]
      · rw [if_neg ht, List.find?_cons, List.find?_cons, ih, if_neg hname, if_neg hname]

theorem puts_add (r : Registry) (s : Script) : r.Puts s (r.add s) :=
  ⟨names_replaced s r.scripts, find?_replaced s r.scripts⟩

/-- A script with a new name comes last. -/
theorem scripts_add_of_not_mem (h : s.name ∉ r.names) : (r.add s).scripts = r.scripts ++ [s] := by
  obtain ⟨scripts⟩ := r
  change replaced s scripts = scripts ++ [s]
  induction scripts with
  | nil => rfl
  | cons t scripts ih =>
    rw [names, List.map_cons, List.mem_cons, not_or] at h
    rw [replaced, if_neg (Ne.symm h.1), ih h.2, List.cons_append]

theorem drops_remove (r : Registry) (name : String) : r.Drops name (r.remove name).2 := by
  constructor
  · change (r.scripts.filter _).map _ = (r.scripts.map _).filter _
    rw [List.filter_map]
    congr 1
    apply List.filter_congr
    intro s _
    rw [Function.comp_apply, bne, decide_not, Bool.beq_eq_decide_eq]
  · intro other
    change (r.scripts.filter _).find? _ = _
    rw [List.find?_filter]
    by_cases hother : other = name
    · rw [if_pos hother, List.find?_eq_none]
      intro s _
      simp [hother]
    · rw [if_neg hother, find?]
      congr 1
      funext s
      by_cases hs : s.name = other
      · simp [hs, hother]
      · simp [hs]

theorem remove_fst (r : Registry) (name : String) : (r.remove name).1 = decide (name ∈ r.names) := by
  rw [Bool.eq_iff_iff, decide_eq_true_iff]
  simp [remove, names]

theorem setEnabled_fst (r : Registry) (name : String) (enabled : Bool) :
    (r.setEnabled name enabled).1 = decide (name ∈ r.names) := by
  rw [Bool.eq_iff_iff, decide_eq_true_iff, ← isSome_find?, setEnabled]
  cases r.find? name <;> rfl

theorem switches_setEnabled (r : Registry) (name : String) (enabled : Bool) :
    r.Switches name enabled (r.setEnabled name enabled).2 := by
  cases hfind : r.find? name with
  | none =>
    rw [setEnabled, hfind]
    refine ⟨rfl, fun other => ?_⟩
    by_cases hother : other = name
    · rw [if_pos hother, hfind, hother, hfind, Option.map_none]
    · rw [if_neg hother]
  | some s =>
    rw [setEnabled, hfind]
    have hname := name_of_find? hfind
    have hmem : s.name ∈ r.names := isSome_find?.1 (by rw [hname, hfind, Option.isSome_some])
    have hputs := r.puts_add { s with enabled }
    refine ⟨hputs.names.trans (if_pos hmem), fun other => ?_⟩
    rw [hputs.find?, hfind, Option.map_some, hname]

/-! Names stay different. -/

theorem Puts.nodup (h : r.Puts s r') (hr : r.names.Nodup) : r'.names.Nodup := by
  rw [h.names]
  split
  · exact hr
  · next hnew => exact List.concat_eq_append ▸ hr.concat hnew

theorem Drops.nodup (h : r.Drops name r') (hr : r.names.Nodup) : r'.names.Nodup := by
  rw [h.names]
  exact hr.filter _

end Registry

/-! ### Stores -/

namespace ScriptStore

/-- No store of a kind lists a name twice. -/
def ListsOnce (σ : Type) [ScriptStore σ] : Prop :=
  ∀ (s : σ) (names : List String), (list s).1 = .ok names → names.Nodup

/-- A store is asked for scripts one after the other, in the state in which the call before has left it, and gives
these answers. -/
inductive Loads {σ : Type} [ScriptStore σ] : σ → List String → List (Except ScriptError (Graph Float32)) → σ → Prop
  | nil (s : σ) : Loads s [] [] s
  | cons {fresh : Nat → String} {name : String} {s s' s'' : σ} {answer : Except ScriptError (Graph Float32)}
      {names : List String} {answers : List (Except ScriptError (Graph Float32))}
      (hload : load fresh name s = (answer, s')) (hrest : Loads s' names answers s'') :
      Loads s (name :: names) (answer :: answers) s''

/-- The scripts that were answered for some names, each enabled. -/
def loaded (names : List String) (answers : List (Except ScriptError (Graph Float32))) : List Script :=
  (names.zip answers).filterMap fun (name, answer) => answer.toOption.map fun graph => ⟨name, true, graph⟩

/-- What was loaded has some of the names, in their order. -/
theorem names_loaded_sublist (names : List String) (answers : List (Except ScriptError (Graph Float32))) :
    ((loaded names answers).map (·.name)).Sublist names := by
  induction names generalizing answers with
  | nil => exact List.Sublist.refl []
  | cons name names ih =>
    rcases answers with _ | ⟨err | g, answers⟩
    · exact List.nil_sublist _
    · exact (ih answers).cons name
    · exact (ih answers).cons_cons name

end ScriptStore

/-- A store in surroundings that may do something to it before each call, and then may make the call fail. -/
structure Disturbed (σ : Type) where
  store : σ
  /-- how many calls there were -/
  calls : Nat
  /-- what is done to the store before a call with a number -/
  disturb : Nat → σ → σ
  /-- the error of a call with a number, if it fails in any case -/
  failure? : Nat → Option ScriptError

namespace Disturbed

variable {σ α : Type}

/-- Makes a call of the store. -/
def attempt (f : σ → Except ScriptError α × σ) (s : Disturbed σ) : Except ScriptError α × Disturbed σ :=
  let store := s.disturb s.calls s.store
  match s.failure? s.calls with
  | some err => (.error err, { s with store, calls := s.calls + 1 })
  | none => (f store).map id fun store => { s with store, calls := s.calls + 1 }

instance [ScriptStore σ] : ScriptStore (Disturbed σ) where
  save name g := attempt (ScriptStore.save name g)
  load fresh name := attempt (ScriptStore.load fresh name)
  list := attempt ScriptStore.list
  delete name := attempt (ScriptStore.delete name)

theorem listsOnce [ScriptStore σ] (h : ScriptStore.ListsOnce σ) : ScriptStore.ListsOnce (Disturbed σ) := by
  intro s names hlist
  change (attempt ScriptStore.list s).1 = .ok names at hlist
  unfold attempt at hlist
  dsimp only at hlist
  split at hlist
  · cases hlist
  · exact h _ names hlist

end Disturbed

/-- Neither of the two stores lists a name twice, whatever is in them. -/
theorem Backend.listsOnce : ScriptStore.ListsOnce Backend := by
  have hrising {names : List String} (h : names.Pairwise (· < ·)) : names.Nodup := h.imp String.ne_of_lt
  rintro (s | s) names hlist
  · obtain rfl : s.documents.keys = names := Except.ok.inj hlist
    exact hrising ((Std.TreeMap.ordered_keys (t := s.documents)).imp fun h => compareOfLessAndEq_eq_lt.1 h)
  · exact hrising (FileStore.pairwise_list hlist)

/-! ### Requests -/

namespace Engine

open ScriptStore (Loads ListsOnce loaded)

variable {σ : Type} [ScriptStore σ]

/-- What the next request does to the loaded scripts, and how it is answered.  What fails leaves them as they are. -/
structure Orderly (fresh : Nat → String) (e : Engine σ) : Prop where
  distinct : e.registry.names.Nodup
  whole : e.registry.scripts = e.registry.names.filterMap e.registry.find?
  add : ∀ s, e.registry.Puts s (e.addScript s).registry
  remove : ∀ name, e.registry.Drops name (e.removeScript name).2.registry ∧
    (e.removeScript name).1 = decide (name ∈ e.registry.names)
  enable : ∀ name enabled, e.registry.Switches name enabled (e.setEnabled name enabled).2.registry ∧
    (e.setEnabled name enabled).1 = decide (name ∈ e.registry.names)
  save : ∀ name g, (e.saveScript name g).2.registry = e.registry
  /-- what is loaded is what the store answers, under its name and enabled -/
  load : ∀ name, ∃ ids,
    (∀ err, (ScriptStore.load ids name e.store).1 = .error err →
      (loadScript fresh e name).1 = .error err ∧ (loadScript fresh e name).2.registry = e.registry) ∧
    ∀ g, (ScriptStore.load ids name e.store).1 = .ok g →
      (loadScript fresh e name).1 = .ok ⟨name, true, g⟩ ∧
        e.registry.Puts ⟨name, true, g⟩ (loadScript fresh e name).2.registry
  delete : ∀ name,
    (∀ err, (ScriptStore.delete name e.store).1 = .error err →
      (e.deleteScript name).1 = .error err ∧ (e.deleteScript name).2.registry = e.registry) ∧
    ∀ existed, (ScriptStore.delete name e.store).1 = .ok existed →
      (e.deleteScript name).1 = .ok (existed || decide (name ∈ e.registry.names)) ∧
        e.registry.Drops name (e.deleteScript name).2.registry
  loadAll :
    (∀ err, (ScriptStore.list e.store).1 = .error err →
      (loadAllScripts fresh e).1 = .error err ∧ (loadAllScripts fresh e).2.registry = e.registry) ∧
    ∀ names, (ScriptStore.list e.store).1 = .ok names → ∃ answers s,
      Loads (ScriptStore.list e.store).2 names answers s ∧
      (loadAllScripts fresh e).1 = .ok (loaded names answers).length ∧
      (loadAllScripts fresh e).2.registry.scripts = loaded names answers

/-! #### Loading -/

variable {fresh : Nat → String} {e : Engine σ} {name : String}

theorem loadScript_of_error {err : ScriptError} {s : σ}
    (h : ScriptStore.load (fun i => fresh (e.minted + i)) name e.store = (.error err, s)) :
    loadScript fresh e name = (.error err, { e with store := s }) := by
  rw [loadScript, h]

theorem loadScript_of_ok {g : Graph Float32} {s : σ}
    (h : ScriptStore.load (fun i => fresh (e.minted + i)) name e.store = (.ok g, s)) :
    loadScript fresh e name = (.ok ⟨name, true, g⟩,
      { e with store := s, minted := e.minted + g.size, registry := e.registry.add ⟨name, true, g⟩ }) := by
  rw [loadScript, h]
  rfl

theorem deleteScript_of_error {err : ScriptError} {s : σ} (h : ScriptStore.delete name e.store = (.error err, s)) :
    e.deleteScript name = (.error err, { e with store := s }) := by
  rw [deleteScript, h]

theorem deleteScript_of_ok {existed : Bool} {s : σ} (h : ScriptStore.delete name e.store = (.ok existed, s)) :
    e.deleteScript name = (.ok (existed || decide (name ∈ e.registry.names)),
      { e with store := s, registry := (e.registry.remove name).2 }) := by
  rw [deleteScript, h, ← Registry.remove_fst]
  rfl

/-- Scripts with different names that are not there yet come last, one after the other. -/
theorem loadEach_appends (fresh : Nat → String) {names : List String} (hnodup : names.Nodup)
    (hnew : ∀ name ∈ names, name ∉ e.registry.names) :
    ∃ answers s, Loads e.store names answers s ∧ (loadEach fresh names e).1 = (loaded names answers).length ∧
      (loadEach fresh names e).2.registry.scripts = e.registry.scripts ++ loaded names answers := by
  induction names generalizing e with
  | nil => exact ⟨[], e.store, .nil _, rfl, (List.append_nil _).symm⟩
  | cons name names ih =>
    rw [List.nodup_cons] at hnodup
    rw [List.forall_mem_cons] at hnew
    obtain ⟨answer, s, hload⟩ :
        ∃ answer s, ScriptStore.load (fun i => fresh (e.minted + i)) name e.store = (answer, s) := ⟨_, _, rfl⟩
    cases answer with
    | error err =>
      have hstep := loadScript_of_error hload
      obtain ⟨answers, s', hloads, hcount, hscripts⟩ := ih (e := { e with store := s }) hnodup.2 hnew.2
      refine ⟨.error err :: answers, s', .cons hload hloads, ?_, ?_⟩
      · rw [loadEach, hstep]
        exact hcount
      · rw [loadEach, hstep]
        exact hscripts
    | ok g =>
      have hstep := loadScript_of_ok hload
      have hscript : (e.registry.add ⟨name, true, g⟩).scripts = e.registry.scripts ++ [⟨name, true, g⟩] :=
        Registry.scripts_add_of_not_mem hnew.1
      have hnext : ∀ other ∈ names, other ∉ (e.registry.add ⟨name, true, g⟩).names := by
        intro other hother
        rw [(e.registry.puts_add ⟨name, true, g⟩).names, if_neg hnew.1, List.mem_append, List.mem_singleton, not_or]
        refine ⟨hnew.2 other hother, ?_⟩
        rintro rfl
        exact hnodup.1 hother
      obtain ⟨answers, s', hloads, hcount, hscripts⟩ := ih
        (e := { e with store := s, minted := e.minted + g.size, registry := e.registry.add ⟨name, true, g⟩ })
        hnodup.2 hnext
      refine ⟨.ok g :: answers, s', .cons hload hloads, ?_, ?_⟩
      · rw [loadEach, hstep]
        exact congrArg (· + 1) hcount
      · rw [loadEach, hstep]
        refine hscripts.trans ?_
        rw [hscript, List.append_assoc]
        rfl

theorem loadAllScripts_of_error {err : ScriptError} (h : (ScriptStore.list e.store).1 = .error err) :
    (loadAllScripts fresh e).1 = .error err ∧ (loadAllScripts fresh e).2.registry = e.registry := by
  have hlist : ScriptStore.list e.store = (.error err, (ScriptStore.list e.store).2) := Prod.ext h rfl
  rw [loadAllScripts, hlist]
  exact ⟨rfl, rfl⟩

/-- What was loaded before does not survive. -/
theorem loadAllScripts_of_ok (fresh : Nat → String) {names : List String} (hnodup : names.Nodup)
    (h : (ScriptStore.list e.store).1 = .ok names) : ∃ answers s,
      Loads (ScriptStore.list e.store).2 names answers s ∧
      (loadAllScripts fresh e).1 = .ok (loaded names answers).length ∧
      (loadAllScripts fresh e).2.registry.scripts = loaded names answers := by
  obtain ⟨answers, s, hloads, hcount, hscripts⟩ := loadEach_appends fresh
    (e := { e with store := (ScriptStore.list e.store).2, registry := .empty }) hnodup fun _ _ => List.not_mem_nil
  have hlist : ScriptStore.list e.store = (.ok names, (ScriptStore.list e.store).2) := Prod.ext h rfl
  refine ⟨answers, s, hloads, ?_, ?_⟩
  · rw [loadAllScripts, hlist]
    exact congrArg Except.ok hcount
  · rw [loadAllScripts, hlist]
    exact hscripts

/-! #### One request and all of them -/

theorem orderly_of_nodup (hlist : ListsOnce σ) (fresh : Nat → String) {e : Engine σ} (h : e.registry.names.Nodup) :
    e.Orderly fresh where
  distinct := h
  whole := Registry.scripts_eq h
  add s := e.registry.puts_add s
  remove name := ⟨e.registry.drops_remove name, e.registry.remove_fst name⟩
  enable name enabled := ⟨e.registry.switches_setEnabled name enabled, e.registry.setEnabled_fst name enabled⟩
  save name g := rfl
  load name := by
    refine ⟨fun i => fresh (e.minted + i), fun err herr => ?_, fun g hg => ?_⟩
    · rw [loadScript_of_error (Prod.ext herr rfl)]
      exact ⟨rfl, rfl⟩
    · rw [loadScript_of_ok (Prod.ext hg rfl)]
      exact ⟨rfl, e.registry.puts_add _⟩
  delete name := by
    refine ⟨fun err herr => ?_, fun existed hexisted => ?_⟩
    · rw [deleteScript_of_error (Prod.ext herr rfl)]
      exact ⟨rfl, rfl⟩
    · rw [deleteScript_of_ok (Prod.ext hexisted rfl)]
      exact ⟨rfl, e.registry.drops_remove name⟩
  loadAll :=
    ⟨fun _ => loadAllScripts_of_error, fun names hnames => loadAllScripts_of_ok fresh (hlist _ names hnames) hnames⟩

theorem nodup_perform (hlist : ListsOnce σ) (fresh : Nat → String) {e : Engine σ} (h : e.registry.names.Nodup)
    (request : Request) : (e.perform fresh request).registry.names.Nodup := by
  have horderly := orderly_of_nodup hlist fresh h
  cases request with
  | add s => exact (horderly.add s).nodup h
  | remove name => exact (horderly.remove name).1.nodup h
  | enable name enabled => exact (horderly.enable name enabled).1.names ▸ h
  | load name =>
    obtain ⟨ids, herror, hok⟩ := horderly.load name
    cases hload : (ScriptStore.load ids name e.store).1 with
    | error err => exact (herror err hload).2 ▸ h
    | ok g => exact (hok g hload).2.nodup h
  | loadAll =>
    obtain ⟨herror, hok⟩ := horderly.loadAll
    cases hnames : (ScriptStore.list e.store).1 with
    | error err => exact (herror err hnames).2 ▸ h
    | ok names =>
      obtain ⟨answers, s, -, -, hscripts⟩ := hok names hnames
      change (((loadAllScripts fresh e).2.registry.scripts).map (·.name)).Nodup
      rw [hscripts]
      exact (hlist _ names hnames).sublist (ScriptStore.names_loaded_sublist names answers)
  | delete name =>
    obtain ⟨herror, hok⟩ := horderly.delete name
    cases hdelete : (ScriptStore.delete name e.store).1 with
    | error err => exact (herror err hdelete).2 ▸ h
    | ok existed => exact (hok existed hdelete).2.nodup h
  | save | fire => exact h
  | run g =>
    -- with an event node or without one, the graph of an editor is never loaded
    have hsame : (e.runGraph g).2.registry = e.registry := by
      unfold runGraph
      dsimp only
      split <;> rfl
    exact hsame ▸ h
  | update elapsed =>
    have hsame : (e.update elapsed).2.registry = e.registry := by
      unfold update
      split <;> rfl
    exact hsame ▸ h

theorem orderly_performAll (hlist : ListsOnce σ) (fresh : Nat → String) {e : Engine σ} (h : e.registry.names.Nodup)
    (requests : List Request) : (e.performAll fresh requests).Orderly fresh := by
  induction requests generalizing e with
  | nil => exact orderly_of_nodup hlist fresh h
  | cons request requests ih => exact ih (nodup_perform hlist fresh h request)

/-- Whatever an engine was asked for, over a store in memory or in a directory whose calls may fail, its scripts have
different names, and the next request does to them what it does to an ordered map.  A request that fails does
nothing to them, and after loading everything they are the scripts that the store could load, in the order of its
list. -/
theorem keeps_scripts_in_order (config : Config) (dispatch : List Call → Call → Except ScriptError Unit)
    (clock : ClockKind) (store : Disturbed Backend) (vars : Variables) (fresh : Nat → String)
    (requests : List Request) :
    ((make config dispatch clock store vars).performAll fresh requests).Orderly fresh := by
  have hempty : (make config dispatch clock store vars).registry.names.Nodup := List.nodup_nil
  exact orderly_performAll (Disturbed.listsOnce Backend.listsOnce) fresh hempty requests

end Engine

end ScriptGraph
