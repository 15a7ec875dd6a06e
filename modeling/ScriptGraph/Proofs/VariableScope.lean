import ScriptGraph.Proofs.Lockstep

/-!
# The variables of a script

The variables that a script may read or set are those that its nodes name: a chain depends on no other variables and
changes no others.  `Node.reads` and `Node.writes` are the names in a node, and `Node.turn_congr`, `Node.deed_congr`
say that variables with the same values under these names make no difference.  Variables that agree on all names
that a script reads stay so while a chain runs, because a variable that is set is set to the same value in both
(`World.Agree`), and so the two plays are in lockstep.
-/

namespace ScriptGraph

/-! ### Names in scripts -/

/-- The names of variables that a node may look up: those in the inputs of an action, the operands of a condition, the
name of a variable to show, and those in the value of a variable to set. -/
def Node.reads (n : Node Float32) : List String :=
  match n.kind with
  | .event | .value | .mod | .custom _ => []
  | .action => Interpolation.namesOfInputs n.inputs
  | .logic =>
    match n.label with
    | "If" => (Condition.parse (n.inputValue 0)).names
    | "Get Variable" => [Text.trim (n.inputValue 0)]
    | "Set Variable" => Interpolation.names (n.inputValue 1)
    | _ => []

/-- The name of the variable that a node may set. -/
def Node.writes (n : Node Float32) : List String :=
  match n.kind with
  | .logic =>
    match n.label with
    | "Set Variable" => [Text.trim (n.inputValue 0)]
    | _ => []
  | _ => []

/-- The names of variables that the nodes of a script may look up. -/
def Script.reads (s : Script) : List String := s.graph.nodes.flatMap Node.reads

/-- The names of variables that the nodes of a script may set. -/
def Script.writes (s : Script) : List String := s.graph.nodes.flatMap Node.writes

/-! ### Values under names -/

theorem Variables.get?_foldl_noteLookup (names : List String) (vars : Variables) (name : String) :
    (names.foldl noteLookup vars).get? name = vars.get? name := by
  induction names generalizing vars with
  | nil => rfl
  | cons other names ih => rw [List.foldl_cons, ih, get?_noteLookup]

theorem Condition.holds_congr {c : Condition} {vars vars' : Variables}
    (h : ∀ name ∈ c.names, vars'.get? name = vars.get? name) : c.holds vars' = c.holds vars := by
  cases c with
  | literal value => rfl
  | unrecognized => rfl
  | equal left right =>
    simp only [names, List.mem_cons, List.not_mem_nil, or_false, forall_eq_or_imp, forall_eq] at h
    simp only [holds, Variables.resolve, Variables.getOr, h.1, h.2]
  | greater left right =>
    simp only [names, List.mem_cons, List.not_mem_nil, or_false, forall_eq_or_imp, forall_eq] at h
    simp only [holds, Variables.resolve, Variables.getOr, h.1, h.2]

theorem Interpolation.interpolate_congr {text : String} {vars vars' : Variables}
    (h : ∀ name ∈ names text, vars'.get? name = vars.get? name) : interpolate vars' text = interpolate vars text := by
  have hpieces : (pieces text.toList).flatMap (Piece.value vars') =
      (pieces text.toList).flatMap (Piece.value vars) := by
    apply List.flatMap_congr
    intro p hp
    cases p with
    | char c => rfl
    | reference name =>
      have hname : String.ofList name ∈ names text := List.mem_filterMap.2 ⟨_, hp, rfl⟩
      simp only [Piece.value, h _ hname]
  rw [interpolate, interpolate, hpieces]

theorem Interpolation.interpolateInputs_congr {inputs : List Input} {vars vars' : Variables}
    (h : ∀ name ∈ namesOfInputs inputs, vars'.get? name = vars.get? name) :
    interpolateInputs vars' inputs = interpolateInputs vars inputs := by
  apply List.map_congr_left
  intro input hinput
  have hvalue : interpolate vars' input.value = interpolate vars input.value :=
    interpolate_congr fun name hname => h name (List.mem_flatMap.2 ⟨input, hinput, hname⟩)
  rw [hvalue]

namespace Node

variable {n : Node Float32} {vars vars' : Variables}

theorem turn_congr (h : ∀ name ∈ n.reads, vars'.get? name = vars.get? name) : n.turn vars' = n.turn vars := by
  unfold turn
  unfold reads at h
  cases hkind : n.kind with
  | logic =>
    simp only [hkind] at h ⊢
    split
    · rfl
    · rfl
    · next hlabel =>
      simp only [hlabel] at h
      rw [Condition.evaluate, Condition.evaluate, Condition.holds_congr h]
    · rfl
    · rfl
    · rfl
  | _ => rfl

theorem deed_congr (h : ∀ name ∈ n.reads, vars'.get? name = vars.get? name) : n.deed vars' = n.deed vars := by
  unfold deed
  unfold reads at h
  cases hkind : n.kind with
  | action =>
    simp only [hkind] at h ⊢
    by_cases hmessage : n.label = "Message"
    · rw [if_pos hmessage, if_pos hmessage]
      cases hinputs : n.inputs with
      | nil => rfl
      | cons input inputs =>
        rw [hinputs, Interpolation.namesOfInputs, List.flatMap_cons] at h
        dsimp only
        rw [Interpolation.interpolate_congr fun name hname => h name (List.mem_append_left _ hname)]
    · rw [if_neg hmessage, if_neg hmessage, Interpolation.interpolateInputs_congr h]
  | logic =>
    simp only [hkind] at h ⊢
    split
    · next hlabel =>
      simp only [hlabel] at h
      rw [Interpolation.interpolate_congr h]
    · next hlabel =>
      simp only [hlabel, List.mem_singleton, forall_eq] at h
      rw [Variables.getOr, Variables.getOr, h]
    · rfl
  | _ => rfl

/-- A node leaves all variables as they are, apart from the one that it sets. -/
theorem get?_varsAfter (n : Node Float32) (vars : Variables) (name : String) :
    (n.varsAfter vars).get? name =
      match n.deed vars with
      | .put other value => if other = name then some value else vars.get? name
      | _ => vars.get? name := by
  have hlookups := Variables.get?_foldl_noteLookup n.lookups vars name
  unfold varsAfter
  cases n.deed vars with
  | put other value => rw [Deed.vars, Variables.get?_set, hlookups]
  | _ => exact hlookups

/-- The variable that a node sets is one that it names. -/
theorem mem_writes_of_deed {name value : String} (h : n.deed vars = .put name value) : name ∈ n.writes := by
  unfold deed at h
  unfold writes
  cases hkind : n.kind with
  | action =>
    simp only [hkind] at h
    split at h
    · split at h <;> cases h
    · cases h
  | logic =>
    simp only [hkind] at h ⊢
    split at h
    · next hlabel =>
      split at h
      · cases h
      · cases h
        simp only [hlabel, List.mem_singleton]
    · cases h
    · cases h
  | _ => simp only [hkind, reduceCtorEq] at h

end Node

/-! ### Plays with other variables -/

/-- How scenes are related whose variables agree on what a script reads.  Names that were set since a world have the
same value in both as well, and all names that the script does not set have the values `vars` and `vars'` of the
beginning. -/
structure World.Agree (script : Script) (w : World) (vars vars' : Variables) (s s' : Scene) : Prop where
  calls : s'.calls = s.calls
  trace : s'.trace = s.trace
  known : ∃ later, s.trace = w.trace.toList ++ later ∧
    ∀ name, (name ∈ script.reads ∨ ∃ value, .assign name value ∈ later) → s'.vars.get? name = s.vars.get? name
  kept : ∀ name ∉ script.writes, s.vars.get? name = vars.get? name ∧ s'.vars.get? name = vars'.get? name

namespace World.Agree

variable {script : Script} {w : World} {vars vars' : Variables} {s s' : Scene} {n : Node Float32}

theorem get?_reads (h : w.Agree script vars vars' s s') (hn : n ∈ script.graph.nodes) :
    ∀ name ∈ n.reads, s'.vars.get? name = s.vars.get? name := by
  obtain ⟨later, -, hknown⟩ := h.known
  intro name hname
  exact hknown name (.inl (List.mem_flatMap.2 ⟨n, hn, hname⟩))

private theorem assign_mem {dispatch : List Call → Call → Except ScriptError Unit} {script node : String}
    {calls : List Call} {d : Deed} {name value : String}
    (h : .assign name value ∈ d.effects dispatch script node calls) : d = .put name value := by
  cases d with
  | ask c =>
    have : Effect.assign name value ∈ Deed.refusal script node c (dispatch calls c) := by
      simpa [Deed.effects] using h
    cases hanswer : dispatch calls c <;> simp [Deed.refusal, hanswer] at this
  | _ => simp_all [Deed.effects]

theorem after (h : w.Agree script vars vars' s s') (host : Host) (hn : n ∈ script.graph.nodes) :
    w.Agree script vars vars' (s.after host script.name n) (s'.after host script.name n) := by
  obtain ⟨later, htrace, hknown⟩ := h.known
  have hdeed : n.deed s'.vars = n.deed s.vars := Node.deed_congr (h.get?_reads hn)
  have hold {name : String} (hname : s'.vars.get? name = s.vars.get? name) :
      (n.varsAfter s'.vars).get? name = (n.varsAfter s.vars).get? name := by
    rw [Node.get?_varsAfter, Node.get?_varsAfter, hdeed, hname]
  constructor
  · simp only [Scene.after, hdeed, h.calls]
  · simp only [Scene.after, hdeed, h.calls, h.trace]
  · refine ⟨later ++ .event script.name n.id .executed ::
      (n.deed s.vars).effects host.dispatch script.name n.id s.calls,
      by simp only [Scene.after, htrace, List.append_assoc], ?_⟩
    rintro name (hread | ⟨value, hassign⟩)
    · exact hold (hknown name (.inl hread))
    · rcases List.mem_append.1 hassign with hassign | hassign
      · exact hold (hknown name (.inr ⟨value, hassign⟩))
      · -- the node sets the variable now, to the same value in both
        have hput : n.deed s.vars = .put name value := assign_mem (by simpa using hassign)
        simp only [Scene.after, Node.get?_varsAfter, hdeed, hput, if_true]
  · intro name hname
    obtain ⟨hkept, hkept'⟩ := h.kept name hname
    have hother {other value : String} (hput : n.deed s.vars = .put other value) : other ≠ name := by
      rintro rfl
      exact hname (List.mem_flatMap.2 ⟨n, hn, Node.mem_writes_of_deed hput⟩)
    simp only [Scene.after, Node.get?_varsAfter, hdeed]
    cases hd : n.deed s.vars with
    | put other value =>
      dsimp only
      rw [if_neg (hother hd), if_neg (hother hd)]
      exact ⟨hkept, hkept'⟩
    | _ => exact ⟨hkept, hkept'⟩

private theorem inStep (host : Host) (script : Script) (w : World) (vars vars' : Variables) :
    InStep (w.Agree script vars vars') (· = script) host host where
  limit := rfl
  turn hok hn hs := by
    rw [hok] at hn
    exact Node.turn_congr (hs.get?_reads hn)
  after hok hn hs := by
    subst hok
    exact hs.after host hn
  record {e s s'} he hs := by
    obtain ⟨later, htrace, hknown⟩ := hs.known
    refine ⟨hs.calls, by simp only [Scene.record, hs.trace], ⟨later ++ [e], ?_, ?_⟩, hs.kept⟩
    · simp only [Scene.record, htrace, List.append_assoc]
    · rintro name (hread | ⟨value, hassign⟩)
      · exact hknown name (.inl hread)
      · -- what is told of a chain sets no variable
        rcases List.mem_append.1 hassign with hassign | hassign
        · exact hknown name (.inr ⟨value, hassign⟩)
        · rw [← List.mem_singleton.1 hassign] at he
          cases he

end World.Agree

/-- A chain depends on the variables that its script reads, and changes the variables that its script sets, and no
others.  From a world in which nothing waits, plays with two sets of variables that agree on what the script reads
have the same answers, and worlds at their ends that differ in nothing but the variables: the same effects in the
same order, and the same branches that wait.  Each play leaves all variables that the script does not set as they
were.  A variable that was set on the way has the same value in both at the end. -/
theorem World.play_depends_on_reads (host : Host) (script : Script) (start : Nat) (ds : List Duration) (w : World)
    (vars : Variables) (hidle : w.pending = 0) (hreads : ∀ name ∈ script.reads, vars.get? name = w.vars.get? name) :
    let play := w.play host script start ds
    let play' := World.play host script start ds { w with vars }
    play'.answer = play.answer ∧ play'.resumed = play.resumed ∧
      play'.world = { play.world with vars := play'.world.vars } ∧
      (∀ name ∉ script.writes,
        play.world.vars.get? name = w.vars.get? name ∧ play'.world.vars.get? name = vars.get? name) ∧
      ∀ name value, .assign name value ∈ w.since play.world →
        play'.world.vars.get? name = play.world.vars.get? name := by
  intro play play'
  have htasks := tasks_eq_zero hidle
  have hstart : Lockstep (w.Agree script w.vars vars) (· = script) w { w with vars } := by
    refine ⟨⟨rfl, rfl, ⟨[], by simp, ?_⟩, fun name _ => ⟨rfl, rfl⟩⟩, rfl, rfl, by simp [htasks]⟩
    rintro name (hread | ⟨value, hassign⟩)
    · exact hreads name hread
    · cases hassign
  obtain ⟨hanswer, hresumed, hend⟩ := (Agree.inStep host script w w.vars vars).play start ds rfl hstart
  obtain ⟨later, htrace, hknown⟩ := hend.scene.known
  have hcalls : play'.world.calls = play.world.calls := hend.scene.calls
  have htrace' : play'.world.trace = play.world.trace := Array.toList_inj.1 hend.scene.trace
  have htimers : play'.world.timers = play.world.timers := hend.timers
  have hmeters : play'.world.meters = play.world.meters := hend.meters
  refine ⟨hanswer, hresumed, ?_, hend.scene.kept, ?_⟩
  · dsimp only
    rw [← hcalls, ← htrace', ← htimers, ← hmeters]
  · intro name value hassign
    rw [since_eq htrace] at hassign
    exact hknown name (.inr ⟨value, hassign⟩)

/-- A start, after which a variable is set to the value of another one, and shown. -/
def echo : Script :=
  let first := Node.make "first" .event "On Start" ⟨0, 0⟩ .gold
  let keep := ((Node.make "keep" .logic "Set Variable" ⟨1, 0⟩ .gray).overlay ["copy", "{{$word$}}!"]).2
  let present := ((Node.make "present" .logic "Get Variable" ⟨2, 0⟩ .gray).overlay ["copy"]).2
  Script.make "echo" (((((Graph.empty.add first).add keep).add present).connect 0 1).2.connect 1 2).2

theorem World.play_depends_on_reads_echo :
    let host : Host := ⟨9, fun _ _ => .ok ()⟩
    let w : World := .ofVariables (Variables.empty.set "word" "hello")
    let vars := w.vars.set "noise" "1"
    (∀ name ∈ echo.reads, vars.get? name = w.vars.get? name) ∧
      (World.play host echo 0 [0] { w with vars }).answer = (w.play host echo 0 [0]).answer ∧
      (w.play host echo 0 [0]).world.vars.get? "noise" = none ∧
      (World.play host echo 0 [0] { w with vars }).world.vars.get? "noise" = some "1" := by
  intro host w vars
  have hreads : echo.reads = ["word", "copy"] := by
    change Interpolation.names "{{$word$}}!" ++ [Text.trim "copy"] = _
    cbv
  have hnoise : "noise" ∉ echo.writes := by
    change "noise" ∉ [Text.trim "copy"]
    have htrim : Text.trim "copy" = "copy" := by cbv
    simp [htrim]
  have hagree : ∀ name ∈ echo.reads, vars.get? name = w.vars.get? name := by
    rw [hreads]
    simp [vars, w, ofVariables, Variables.get?_set]
  obtain ⟨hanswer, -, -, hkept, -⟩ := play_depends_on_reads host echo 0 [0] w vars rfl hagree
  obtain ⟨hnone, hsome⟩ := hkept "noise" hnoise
  refine ⟨hagree, hanswer, ?_, ?_⟩
  · rw [hnone]
    simp [w, ofVariables, Variables.get?_set, Variables.get?_empty]
  · rw [hsome]
    simp [vars, Variables.get?_set]

end ScriptGraph
