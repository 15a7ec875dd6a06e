import ScriptGraph.Proofs.Bookkeeping
import ScriptGraph.Proofs.Reachability
import ScriptGraph.Proofs.Timekeeping

/-!
# Nodes that are never executed

A chain starts at an event and follows connections, also from pass to pass of a loop and when a branch of it goes on
later.  So it stays among the nodes that an event leads to, and what the analysis lists as unreachable is never
executed (`Analysis.exact_and_respected`).

The invariant is about what waits: each branch has positions before it that an event of its script leads to
(`World.HoldsReached`).  A `Journey` is all that a world goes through, with the parts of chains that run on the way
and the scripts that they belong to, so that each execution in the trace is one of a node that a part came to
(`World.Journey.reaches`).
-/

namespace ScriptGraph

open Relation (ReflTransGen TransGen)

/-! ### Walks among the nodes that an event leads to -/

namespace Graph

variable {S : Type} {g : Graph S} {i j : Nat}

theorem IsReached.of_event {n : Node S} (hn : g.nodes[i]? = some n) (hkind : n.kind = .event) : g.IsReached i :=
  ⟨i, n, hn, hkind, .refl⟩

theorem IsReached.next (h : g.IsReached i) (hedge : g.Edge i j) : g.IsReached j := by
  obtain ⟨e, n, hn, hkind, hpath⟩ := h
  exact ⟨e, n, hn, hkind, hpath.tail hedge⟩

end Graph

namespace Work

/-- The position that a round is about: the one that the chain comes to, or that of the loop. -/
def position : Work → Nat
  | visit i => i
  | passes source _ => source

/-- The execution that a round brings about. -/
def executed? (script : Script) : Work → Option Effect
  | visit i => (script.graph.node? i).map fun n => .event script.name n.id .executed
  | passes _ _ => none

end Work

/-- The executions of nodes in a world. -/
def World.executed (w : World) : List Effect := w.trace.toList.filter Effect.isExecuted

namespace Walk

variable {host : Host} {chain : Nat} {script : Script}

private theorem isReached_map_visit {i : Nat} {is : List Nat} (h : script.graph.IsReached i)
    (his : ∀ j ∈ is, script.graph.Edge i j) : ∀ m ∈ is.map Work.visit, script.graph.IsReached m.position := by
  intro m hm
  obtain ⟨j, hj, rfl⟩ := List.mem_map.1 hm
  exact h.next (his j hj)

private theorem isReached_visit {i : Nat} (h : script.graph.IsReached i) (w : Walk) :
    ∀ m ∈ (w.visit host chain script i).1, script.graph.IsReached m.position := by
  cases hnode : script.graph.node? i with
  | none =>
    rw [visit_of_none hnode]
    simp
  | some n =>
    have htargets := isReached_map_visit h fun j hj => Graph.mem_edges_iff.2 ⟨n, hnode, hj⟩
    rw [visit_of_some hnode]
    split
    · exact htargets
    · simp
    · rw [List.forall_mem_singleton]
      exact h
    · split <;> simp

/-- A walk stays among the nodes that an event leads to. -/
theorem isReached_trail (stack : List Work) (w : Walk) (hstack : ∀ m ∈ stack, script.graph.IsReached m.position) :
    ∀ m ∈ trail host chain script stack w, script.graph.IsReached m.position := by
  refine forall_mem_trail (fun source remaining h => ⟨fun j hj => ?_, h⟩)
    (fun i w h => isReached_visit h w) stack w hstack
  exact h.next (Graph.edge_iff.2 hj)

/-- What waits behind a pause is what the connections of its node lead to. -/
private theorem isReached_pause {m : Work} {p : Duration × Continuation} (hm : script.graph.IsReached m.position)
    (hp : m.pause? chain script = some p) : ∀ i ∈ p.2.rest, p.2.script.graph.IsReached i := by
  cases m with
  | visit i =>
    obtain ⟨n, hn, hp⟩ := Option.bind_eq_some_iff.1 hp
    split at hp
    · cases hp
    · obtain ⟨delay, -, rfl⟩ := Option.map_eq_some_iff.1 hp
      exact fun j hj => hm.next (Graph.mem_edges_iff.2 ⟨n, hn, hj⟩)
  | passes source remaining => cases hp

/-! ### Executions -/

private theorem executed_act (host : Host) (script : String) (n : Node Float32) (w : World) :
    (w.act host script n).2.executed = w.executed ++ [.event script n.id .executed] := by
  obtain ⟨effects, hinner, hafter⟩ := w.after_act host script n
  have hnone : effects.filter Effect.isExecuted = [] :=
    List.filter_eq_nil_iff.2 fun e he => by simp [(Effect.kinds_of_isInner (hinner e he)).1]
  rw [World.executed, hafter.trace, List.filter_append, List.filter_cons_of_pos rfl, hnone, World.executed]

private theorem executed_visit (host : Host) (chain : Nat) (script : Script) (i : Nat) (w : Walk) :
    (w.visit host chain script i).2.world.executed =
      w.world.executed ++ ((Work.visit i).executed? script).toList := by
  rw [Work.executed?]
  cases hnode : script.graph.node? i with
  | none =>
    rw [visit_of_none hnode]
    exact (List.append_nil _).symm
  | some n =>
    have hacted : (w.acted host script n).world.executed = _ := executed_act host script.name n w.world
    rw [visit_of_some hnode]
    split
    · exact hacted
    · exact hacted
    · exact hacted
    · split
      · exact hacted
      · -- a branch that begins to wait executes nothing
        have hsuspend (delay : Duration) (rest : List Nat) :
            ((w.acted host script n).suspend chain script n.id delay rest).world.executed =
              (w.acted host script n).world.executed := by
          simp [World.executed, suspend, World.emit, World.record, Effect.isExecuted]
        rw [hsuspend]
        exact hacted

/-- The executions of a walk are those of the nodes that it comes to, one after the other. -/
theorem executed_drive (stack : List Work) (w : Walk) :
    (drive host chain script stack w).2.world.executed =
      w.world.executed ++ (trail host chain script stack w).filterMap (Work.executed? script) := by
  induction stack, w using rounds_induction host chain script with
  | nil w =>
    rw [drive_nil, trail_nil]
    exact (List.append_nil _).symm
  | idle source remaining stack w h ih =>
    rw [drive_passes_idle h, trail_passes_idle h]
    exact ih
  | passRefused source remaining stack w v e hnext hcharge =>
    rw [drive_passes_error hnext hcharge, trail_passes_error hnext hcharge]
    obtain ⟨rfl, -, -⟩ := charge_error_iff.1 hcharge
    exact (List.append_nil _).symm
  | pass source remaining stack w v hnext hcharge ih =>
    rw [drive_passes_ok hnext hcharge, trail_passes_ok hnext hcharge, List.filterMap_cons_none rfl, ih]
    obtain ⟨rfl, -, -⟩ := charge_ok_iff.1 hcharge
    rfl
  | refused i stack w v e hcharge =>
    rw [drive_visit_error hcharge, trail_visit_error hcharge]
    obtain ⟨rfl, -, -⟩ := charge_error_iff.1 hcharge
    exact (List.append_nil _).symm
  | visit i stack w v hcharge ih =>
    rw [drive_visit_ok hcharge, trail_visit_ok hcharge, ih, executed_visit]
    obtain ⟨rfl, -, -⟩ := charge_ok_iff.1 hcharge
    rw [List.append_assoc, filterMap_cons_toList]
    rfl

theorem executed_outcome (node : String) (stack : List Work) (w : Walk) :
    (w.outcome host chain script node stack).executed =
      w.world.executed ++ (trail host chain script stack w).filterMap (Work.executed? script) := by
  have hreport (answer : Except ScriptError Unit) (v : Walk) :
      (v.report script.name node answer).filter Effect.isExecuted = [] := by
    unfold report
    cases answer <;> dsimp only <;> split <;> rfl
  rw [outcome, ← executed_drive]
  dsimp only
  rw [World.executed, finish_trace, List.filter_append, hreport, List.append_nil, World.executed]

end Walk

/-! ### What waits -/

namespace World

/-- All positions that branches wait for are such that an event of their script leads there. -/
def HoldsReached (w : World) : Prop := ∀ k ∈ w.timers.tasks, ∀ i ∈ k.rest, k.script.graph.IsReached i

theorem holdsReached_ofVariables (vars : Variables) : (ofVariables vars).HoldsReached := by
  intro k hk
  simp [ofVariables, Timers.start, Timers.tasks] at hk

/-- A walk that stays among the nodes that an event leads to leaves nothing else waiting. -/
theorem HoldsReached.outcome {host : Host} {chain : Nat} {script : Script} (node : String) {stack : List Work}
    {w : Walk} (h : w.world.HoldsReached) (hstack : ∀ m ∈ stack, script.graph.IsReached m.position) :
    (w.outcome host chain script node stack).HoldsReached := by
  intro k hk
  rw [Walk.outcome_timers, Timers.tasks_scheduleAll] at hk
  rcases Multiset.mem_add.1 hk with hk | hk
  · obtain ⟨p, hp, rfl⟩ := List.mem_map.1 (Multiset.mem_coe.1 hk)
    obtain ⟨m, hm, hpause⟩ := List.mem_filterMap.1 hp
    exact Walk.isReached_pause (Walk.isReached_trail stack w hstack m hm) hpause
  · exact h k hk

end World

/-! ### Journeys -/

/-- A part of a chain, and the script that it belongs to. -/
structure Leg where
  script : Script
  part : Part

namespace Leg

/-- The executions of the nodes that a part came to. -/
def executed (l : Leg) : List Effect := l.part.moves.filterMap (Work.executed? l.script)

/-- If the nodes of the graph have different identifiers, an execution tells which node the part came to. -/
theorem visit_mem_of_executed {l : Leg} (hnodup : (l.script.graph.nodes.map (·.id)).Nodup) {i : Nat}
    {n : Node Float32} (hn : l.script.graph.nodes[i]? = some n)
    (h : .event l.script.name n.id .executed ∈ l.executed) : .visit i ∈ l.part.moves := by
  obtain ⟨m, hm, he⟩ := List.mem_filterMap.1 h
  cases m with
  | visit j =>
    obtain ⟨n', hn', heq⟩ := Option.map_eq_some_iff.1 he
    have hid : n'.id = n.id := (Effect.event.inj heq).2.1
    obtain ⟨hi, rfl⟩ := List.getElem?_eq_some_iff.1 hn
    obtain ⟨hj, rfl⟩ := List.getElem?_eq_some_iff.1 hn'
    rw [← List.length_map (·.id)] at hi hj
    have hids : (l.script.graph.nodes.map (·.id))[j] = (l.script.graph.nodes.map (·.id))[i] := by
      rw [List.getElem_map, List.getElem_map]
      exact hid
    exact hnodup.getElem_inj_iff.1 hids ▸ hm
  | passes source remaining => cases he

end Leg

namespace World

/-- What a world goes through, with all parts of chains that run on the way.  Chains start at event nodes of the
scripts that may be started, and branches go on when they are the first to fall due.  Nothing else executes a node
or changes what waits. -/
inductive Journey (host : Host) (started : Script → Prop) (w₀ : World) : List Leg → World → Prop
  | start : Journey host started w₀ [] w₀
  | begin {legs : List Leg} {w : World} (h : Journey host started w₀ legs w) (trigger : String) (s : Start)
      (hscript : started s.script) (hnode : (s.index, s.node) ∈ s.script.graph.events) :
      Journey host started w₀
        (legs ++ [⟨s.script, (w.emit s.script.name s.node.id (.started trigger)).firstPart host s.script s.index⟩])
        (w.begin host trigger s).2
  | resume {legs : List Leg} {w : World} {target : Duration} {k : Continuation} {rest : Timers Continuation}
      (h : Journey host started w₀ legs w) (htake : w.timers.takeDue target = some (k, rest)) :
      Journey host started w₀ (legs ++ [⟨k.script, World.nextPart host k { w with timers := rest }⟩])
        (World.resume host k { w with timers := rest })
  | quiet {legs : List Leg} {w w' : World} (h : Journey host started w₀ legs w)
      (hwaiting : w'.timers.waiting = w.timers.waiting) (hexecuted : w'.executed = w.executed) :
      Journey host started w₀ legs w'

namespace Journey

variable {host : Host} {started : Script → Prop} {w₀ w : World} {legs : List Leg}

/-- On a journey the nodes are executed that its parts come to, one after the other, and an event leads to each of
them. -/
theorem reaches (h : Journey host started w₀ legs w) (h₀ : w₀.HoldsReached) :
    w.HoldsReached ∧ w.executed = w₀.executed ++ legs.flatMap Leg.executed ∧
      ∀ l ∈ legs, ∀ m ∈ l.part.moves, l.script.graph.IsReached m.position := by
  induction h with
  | start => exact ⟨h₀, (List.append_nil _).symm, by simp⟩
  | @begin legs w _ trigger s _ hnode ih =>
    obtain ⟨hholds, hexecuted, hlegs⟩ := ih
    obtain ⟨hn, hkind⟩ := Graph.mem_events.1 hnode
    have hstack : ∀ m ∈ [Work.visit s.index], s.script.graph.IsReached m.position := by
      rw [List.forall_mem_singleton]
      exact .of_event hn hkind
    let told := w.emit s.script.name s.node.id (.started trigger)
    have htold : (told.entry host).world.executed = w.executed := by
      simp [executed, entry, told, emit, record, Effect.isExecuted]
    rw [World.begin, execute_snd]
    refine ⟨HoldsReached.outcome _ (w := told.entry host) hholds hstack, ?_, ?_⟩
    · rw [Walk.executed_outcome, htold, hexecuted, List.flatMap_append, List.flatMap_singleton, List.append_assoc]
      rfl
    · rw [List.forall_mem_append, List.forall_mem_singleton]
      exact ⟨hlegs, Walk.isReached_trail _ _ hstack⟩
  | @resume legs w target k rest _ htake ih =>
    obtain ⟨hholds, hexecuted, hlegs⟩ := ih
    have htasks := Timers.tasks_takeDue htake
    have hstack : ∀ m ∈ k.rest.map Work.visit, k.script.graph.IsReached m.position := by
      intro m hm
      obtain ⟨i, hi, rfl⟩ := List.mem_map.1 hm
      exact hholds k (htasks ▸ Multiset.mem_cons_self k _) i hi
    have hrest : HoldsReached { w with timers := rest } := fun j hj =>
      hholds j (htasks ▸ Multiset.mem_cons_of_mem hj)
    have hresumed : (reentry k { w with timers := rest }).world.executed = w.executed := by
      simp [executed, reentry, emit, record, Effect.isExecuted]
    rw [resume_eq]
    refine ⟨HoldsReached.outcome _ (w := reentry k { w with timers := rest }) hrest hstack, ?_, ?_⟩
    · rw [Walk.executed_outcome, hresumed, hexecuted, List.flatMap_append, List.flatMap_singleton, List.append_assoc]
      rfl
    · rw [List.forall_mem_append, List.forall_mem_singleton]
      exact ⟨hlegs, Walk.isReached_trail _ _ hstack⟩
  | @quiet legs w w' _ hwaiting hexecuted ih =>
    obtain ⟨hholds, hbefore, hlegs⟩ := ih
    refine ⟨fun k hk => hholds k ?_, hexecuted.trans hbefore, hlegs⟩
    rwa [Timers.tasks, hwaiting] at hk

theorem beginAll (h : Journey host started w₀ legs w) (trigger : Start → String) {starts : List Start}
    (hstarts : ∀ s ∈ starts, started s.script ∧ (s.index, s.node) ∈ s.script.graph.events) :
    ∃ legs', Journey host started w₀ legs' (w.beginAll host trigger starts).2 := by
  unfold World.beginAll
  generalize TriggerReport.zero = report
  induction starts generalizing w legs report with
  | nil => exact ⟨legs, h⟩
  | cons s starts ih =>
    rw [List.forall_mem_cons] at hstarts
    obtain ⟨⟨hscript, hnode⟩, hstarts⟩ := hstarts
    exact ih (h.begin (trigger s) s hscript hnode) hstarts _

theorem advance (h : Journey host started w₀ legs w) (elapsed : Duration) :
    ∃ legs', Journey host started w₀ legs' (w.advance host elapsed).2 :=
  Timers.sweepFrom_invariant (P := fun s => ∃ legs', Journey host started w₀ legs' s)
    (fun _ _ _ htake ⟨_, hs⟩ => ⟨_, hs.resume htake⟩) (fun _ ⟨_, hs⟩ => ⟨_, hs.quiet rfl rfl⟩) ⟨legs, h⟩
    (w.sweepFrom_advance host elapsed)

theorem settle (h : Journey host started w₀ legs w) :
    ∃ legs', Journey host started w₀ legs' (w.settle host).2 := by
  unfold World.settle
  dsimp only
  cases hsweep : Timers.sweep (fun k w => World.resume host k w.noteTime)
    (.ofNanos Duration.maxNanos) w.capacity w with
  | none => exact ⟨legs, h.quiet rfl rfl⟩
  | some answer =>
    have hrun (s : World) (k : Continuation) (rest : Timers Continuation)
        (htake : s.timers.takeDue (.ofNanos Duration.maxNanos) = some (k, rest))
        (hs : ∃ legs', Journey host started w₀ legs' s) :
        ∃ legs', Journey host started w₀ legs' (World.resume host k (noteTime { s with timers := rest })) := by
      obtain ⟨legs', hs⟩ := hs
      -- the variables hear what time it is when the branch is taken, and then it goes on
      have hnoted : Journey host started w₀ legs' { s with vars := s.vars.setNow rest.now } := hs.quiet rfl rfl
      exact ⟨_, hnoted.resume htake⟩
    obtain ⟨legs', hs⟩ := Timers.sweepFrom_invariant (P := fun s => ∃ legs', Journey host started w₀ legs' s) hrun
      (fun _ ⟨_, hs⟩ => ⟨_, hs.quiet rfl rfl⟩) ⟨legs, h⟩ hsweep
    exact ⟨legs', hs.quiet rfl rfl⟩

end Journey

end World

/-! ### Engines -/

/-- What may happen to an engine: what it is asked for, and what the host does past it. -/
inductive Happening where
  | request (request : Request)
  | hostAdvance (elapsed : Duration)
  | drain
  | setVars (vars : Variables)

namespace Engine

variable {σ : Type}

/-- The scripts that something may start chains of: a trigger those that are loaded and enabled, and a run of a graph
the script that is made of it. -/
def Starts (e : Engine σ) : Happening → Script → Prop
  | .request (.fire _), s => s ∈ e.registry.scripts ∧ s.enabled = true
  | .request (.run g), s => s = Script.make editorScript g
  | _, _ => False

theorem journey_fire (e : Engine σ) (trigger : String) :
    ∃ legs, World.Journey e.host (e.Starts (.request (.fire trigger))) e.world legs (e.fire trigger).2.world := by
  refine World.Journey.start.beginAll _ fun s hs => ?_
  obtain ⟨script, hscript, hs⟩ := List.mem_flatMap.1 hs
  obtain ⟨⟨i, n⟩, hnode, rfl⟩ := List.mem_map.1 hs
  obtain ⟨hmem, henabled⟩ := List.mem_filter.1 hscript
  exact ⟨⟨hmem, henabled⟩, (List.mem_filter.1 hnode).1⟩

theorem journey_runGraph (e : Engine σ) (g : Graph Float32) :
    ∃ legs, World.Journey e.host (e.Starts (.request (.run g))) e.world legs (e.runGraph g).2.world := by
  unfold Engine.runGraph
  dsimp only
  split
  · refine ⟨[], World.Journey.start.quiet rfl ?_⟩
    simp [World.executed, World.record, Effect.isExecuted]
  · refine World.Journey.start.beginAll _ fun s hs => ?_
    obtain ⟨⟨i, n⟩, hnode, rfl⟩ := List.mem_map.1 hs
    exact ⟨rfl, hnode⟩

theorem journey_update (e : Engine σ) (started : Script → Prop) (elapsed : Duration) :
    ∃ legs, World.Journey e.host started e.world legs (e.update elapsed).2.world := by
  unfold Engine.update
  cases e.clock with
  | external => exact ⟨[], .start⟩
  | _ => exact World.Journey.start.advance _

theorem journey_drain (e : Engine σ) (started : Script → Prop) :
    ∃ legs, World.Journey e.host started e.world legs e.drain.2.world := by
  unfold Engine.drain
  split
  · exact World.Journey.start.settle
  · exact e.journey_update started 0

theorem journey_hostAdvance (e : Engine σ) (started : Script → Prop) (elapsed : Duration) :
    ∃ legs, World.Journey e.host started e.world legs (e.hostAdvance elapsed).2.world := by
  unfold Engine.hostAdvance
  split
  · exact World.Journey.start.advance _
  · exact ⟨[], .start⟩

variable [ScriptStore σ]

/-! The store and the scripts that are loaded are no part of the world. -/

theorem world_loadScript (fresh : Nat → String) (e : Engine σ) (name : String) :
    (Engine.loadScript fresh e name).2.world = e.world := by
  unfold Engine.loadScript
  dsimp only
  split <;> rfl

theorem world_loadEach (fresh : Nat → String) (names : List String) (e : Engine σ) :
    (Engine.loadEach fresh names e).2.world = e.world := by
  induction names generalizing e with
  | nil => rfl
  | cons name names ih => exact (ih _).trans (world_loadScript fresh e name)

theorem world_loadAllScripts (fresh : Nat → String) (e : Engine σ) :
    (Engine.loadAllScripts fresh e).2.world = e.world := by
  unfold Engine.loadAllScripts
  dsimp only
  split
  · rfl
  · exact world_loadEach fresh _ _

theorem world_deleteScript (e : Engine σ) (name : String) : (e.deleteScript name).2.world = e.world := by
  unfold Engine.deleteScript
  dsimp only
  split <;> rfl

/-- An engine after something happened to it. -/
def undergo (fresh : Nat → String) (e : Engine σ) : Happening → Engine σ
  | .request request => e.perform fresh request
  | .hostAdvance elapsed => (e.hostAdvance elapsed).2
  | .drain => e.drain.2
  | .setVars vars => { e with world := { e.world with vars } }

/-- An engine after several things happened to it. -/
def undergoAll (fresh : Nat → String) (e : Engine σ) (happenings : List Happening) : Engine σ :=
  happenings.foldl (undergo fresh) e

/-- Whatever happens to an engine is a journey of its world. -/
theorem journey_undergo (fresh : Nat → String) (e : Engine σ) (x : Happening) :
    ∃ legs, World.Journey e.host (e.Starts x) e.world legs (e.undergo fresh x).world := by
  have hstill {w : World} (hw : w = e.world) : ∃ legs, World.Journey e.host (e.Starts x) e.world legs w :=
    hw ▸ ⟨[], .start⟩
  cases x with
  | hostAdvance elapsed => exact e.journey_hostAdvance _ elapsed
  | drain => exact e.journey_drain _
  | setVars vars => exact ⟨[], World.Journey.start.quiet rfl rfl⟩
  | request request =>
    cases request with
    | add | remove | enable | save => exact hstill rfl
    | load name => exact hstill (world_loadScript fresh e name)
    | loadAll => exact hstill (world_loadAllScripts fresh e)
    | delete name => exact hstill (e.world_deleteScript name)
    | fire trigger => exact e.journey_fire trigger
    | run graph => exact e.journey_runGraph graph
    | update elapsed => exact e.journey_update _ elapsed

theorem holdsReached_undergoAll (fresh : Nat → String) {e : Engine σ} (h : e.world.HoldsReached)
    (happenings : List Happening) : (e.undergoAll fresh happenings).world.HoldsReached := by
  induction happenings generalizing e with
  | nil => exact h
  | cons x happenings ih =>
    obtain ⟨legs, hjourney⟩ := e.journey_undergo fresh x
    exact ih (hjourney.reaches h).1

end Engine

/-! ### The analysis and the engine -/

/-- The analysis is exact, and the engine respects it.  A graph is cyclic if some node can come back to itself, its
roots are the nodes without a connection to them, and its unreachable nodes are those that no event leads to, both in
the order of the nodes.  Whatever has happened to an engine and happens next, the executions that come to the trace
are those of the nodes that chains come to on the way, and none of these is an unreachable node of the graph of its
script. -/
theorem Analysis.exact_and_respected :
    (∀ (S : Type) (g : Graph S),
      (∀ i j, g.Edge i j ↔ ∃ n, g.nodes[i]? = some n ∧ j ∈ n.targets) ∧
      ((ofGraph g).cyclic = true ↔ ∃ i, TransGen g.Edge i i) ∧
      ((ofGraph g).roots.Pairwise (· < ·) ∧ ∀ i, i ∈ (ofGraph g).roots ↔ i < g.size ∧ ∀ j, ¬g.Edge j i) ∧
      ((ofGraph g).unreachable.Pairwise (· < ·) ∧ ∀ i, i ∈ (ofGraph g).unreachable ↔
        i < g.size ∧ ¬∃ e n, g.nodes[e]? = some n ∧ n.kind = .event ∧ ReflTransGen g.Edge e i) ∧
      (ofGraph g).edges = g.edges.length) ∧
    ∀ (σ : Type) [ScriptStore σ] (config : Config) (dispatch : List Call → Call → Except ScriptError Unit)
      (clock : ClockKind) (store : σ) (vars : Variables) (fresh : Nat → String) (happenings : List Happening)
      (x : Happening),
      let e := (Engine.make config dispatch clock store vars).undergoAll fresh happenings
      ∃ legs, World.Journey e.host (e.Starts x) e.world legs (e.undergo fresh x).world ∧
        (e.undergo fresh x).world.executed = e.world.executed ++ legs.flatMap Leg.executed ∧
        ∀ l ∈ legs, ∀ i ∈ (ofGraph l.script.graph).unreachable, .visit i ∉ l.part.moves ∧
          ((l.script.graph.nodes.map (·.id)).Nodup → ∀ n, l.script.graph.nodes[i]? = some n →
            .event l.script.name n.id .executed ∉ l.executed) := by
  refine ⟨fun S g => ⟨fun i j => Graph.mem_edges_iff, Graph.isCyclic_iff,
    ⟨g.pairwise_roots, fun i => Graph.mem_roots_iff⟩, ⟨g.pairwise_unreachable, fun i => Graph.mem_unreachable_iff⟩,
    g.edgeCount_eq⟩, ?_⟩
  intro σ _ config dispatch clock store vars fresh happenings x e
  have hholds : e.world.HoldsReached :=
    Engine.holdsReached_undergoAll fresh (World.holdsReached_ofVariables vars) happenings
  obtain ⟨legs, hjourney⟩ := e.journey_undergo fresh x
  obtain ⟨-, hexecuted, hlegs⟩ := hjourney.reaches hholds
  refine ⟨legs, hjourney, hexecuted, fun l hl i hi => ?_⟩
  have hnever : .visit i ∉ l.part.moves := fun hvisit => (Graph.mem_unreachable_iff.1 hi).2 (hlegs l hl _ hvisit)
  exact ⟨hnever, fun hnodup n hn hexecuted => hnever (Leg.visit_mem_of_executed hnodup hn hexecuted)⟩

end ScriptGraph
