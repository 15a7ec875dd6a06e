import ScriptGraph.Engine
import ScriptGraph.Proofs.Ceiling
import ScriptGraph.Proofs.Reachability
import ScriptGraph.Proofs.Solitude
import ScriptGraph.Proofs.Tallies

/-!
# Triggers

A trigger starts one chain at each event node that it matches, script by script and node by node (`Engine.sitesOf`).
The chains run one after the other, and each of them goes as it would by itself (`Solo`): it has a meter of its own,
and what it finds of the chains before it are the variables and what the host remembers of the actions that it was
asked for.  It does not matter whether these chains were stopped.  `World.Sequel` is all that a trigger leaves
behind, put together from what the chains leave behind by themselves (`Engine.fires_each_match`).
-/

namespace ScriptGraph

theorem Timers.scheduleAll_append {α : Type} (ts : Timers α) (tasks later : List (Duration × α)) :
    ts.scheduleAll (tasks ++ later) = (ts.scheduleAll tasks).scheduleAll later :=
  List.foldl_append

/-! ### Answers -/

namespace Walk

variable (host : Host) (chain : Nat) (script : Script)

private theorem suspended_visit (i : Nat) (w : Walk) :
    (w.visit host chain script i).2.suspended + w.meter.live =
      w.suspended + (w.visit host chain script i).2.meter.live := by
  cases hnode : script.graph.node? i with
  | none => rw [visit_of_none hnode]
  | some n =>
    rw [visit_of_some hnode]
    cases n.turn w.world.vars with
    | later delay =>
      dsimp only
      split
      · rfl
      · dsimp only [suspend, acted, Meter.opened]
        omega
    | _ => rfl

/-- A walk counts the branches that it leaves waiting, as its meter does. -/
private theorem suspended_drive (stack : List Work) (w : Walk) :
    (w.drive host chain script stack).2.suspended + w.meter.live =
      w.suspended + (w.drive host chain script stack).2.meter.live := by
  induction stack, w using rounds_induction host chain script with
  | nil w => rw [drive_nil]
  | idle source remaining stack w hidle ih => rwa [drive_passes_idle hidle]
  | passRefused source remaining stack w v e hnext hcharge =>
    rw [drive_passes_error hnext hcharge]
    obtain ⟨rfl, -, -⟩ := charge_error_iff.1 hcharge
    rfl
  | pass source remaining stack w v hnext hcharge ih =>
    rw [drive_passes_ok hnext hcharge]
    obtain ⟨rfl, -, -⟩ := charge_ok_iff.1 hcharge
    exact ih
  | refused i stack w v e hcharge =>
    rw [drive_visit_error hcharge]
    obtain ⟨rfl, -, -⟩ := charge_error_iff.1 hcharge
    rfl
  | visit i stack w v hcharge ih =>
    rw [drive_visit_ok hcharge]
    obtain ⟨rfl, -, -⟩ := charge_ok_iff.1 hcharge
    have hvisit := suspended_visit host chain script i w.charged
    have hsuspended : w.charged.suspended = w.suspended := rfl
    have hlive : w.charged.meter.live = w.meter.live := rfl
    omega

end Walk

namespace World

variable (host : Host) (script : Script) (start : Nat) (w : World)

/-- A chain that starts counts the branches that its first part leaves waiting. -/
theorem suspended_firstPart :
    ((w.entry host).drive host w.meters.length script [.visit start]).2.suspended =
      (w.firstPart host script start).effects.countP Effect.isSuspended := by
  have hwaits := Walk.suspended_drive host w.meters.length script [.visit start] (w.entry host)
  have hcard := w.card_tasks_execute host script start
  obtain ⟨effects, u, hleads, hend⟩ := (w.entry host).drive_leads host w.meters.length script [.visit start]
  obtain ⟨rests, htasks, hrests, -⟩ := hleads.waiting
  have hlive : u.meter.live = 1 + effects.countP Effect.isSuspended := hleads.live
  have htimers : (w.entry host).world.timers = w.timers := rfl
  have hentry : (w.entry host).meter.live = 1 ∧ (w.entry host).suspended = 0 := ⟨rfl, rfl⟩
  -- a refused round changes neither of the counts
  have hsame : ((w.entry host).drive host w.meters.length script [.visit start]).2.world.timers = u.world.timers ∧
      ((w.entry host).drive host w.meters.length script [.visit start]).2.meter.live = u.meter.live := by
    rcases hend with hend | ⟨e, v, hcharge, hend⟩
    · rw [hend]
      exact ⟨rfl, rfl⟩
    · obtain ⟨rfl, -, -⟩ := Walk.charge_error_iff.1 hcharge
      rw [hend]
      exact ⟨rfl, rfl⟩
  rw [execute_snd, Walk.outcome] at hcard
  dsimp only at hcard
  rw [Walk.finish_timers, hsame.1, htasks, Multiset.card_add, hrests, htimers] at hcard
  omega

/-- A chain that starts has a full meter of its own.  If all its rounds are allowed, the answer to its start counts
them and the branches that they left waiting.  Otherwise as many were allowed as there may be, and the answer is an
error. -/
theorem execute_answer :
    let p := w.firstPart host script start
    (p.isRefused = false ∧ p.moves.length ≤ host.limit ∧
        (w.execute host script start).1 = .ok ⟨p.moves.length, p.effects.countP Effect.isSuspended⟩) ∨
      p.isRefused = true ∧ p.moves.length = host.limit ∧ ∃ e, (w.execute host script start).1 = .error e := by
  intro p
  have hsuspended := w.suspended_firstPart host script start
  obtain ⟨effects, u, hleads, hend⟩ := (w.entry host).drive_leads host w.meters.length script [.visit start]
  have hvisits := hleads.visits.trans (Nat.zero_add _)
  have hlimit : u.meter.limit = host.limit := hleads.limit
  have hmoves : u.meter.visits ≤ host.limit := by
    by_cases hnone : (w.entry host).trail host w.meters.length script [.visit start] = []
    · rw [hvisits, hnone]
      exact Nat.zero_le _
    · exact hlimit ▸ (hleads.allowed hnone).1
  rcases hend with hend | ⟨e, v, hcharge, hend⟩
  · have hp : p = _ := Walk.ofWalk_of_ok rfl hleads hend
    have hlength : p.moves.length = u.meter.visits := by rw [hp, hvisits]
    refine .inl ⟨by rw [Part.isRefused, hp], hlength ▸ hmoves, ?_⟩
    rw [execute_fst, hsuspended, hend, hlength]
    dsimp only [Except.map, Meter.spent]
    rw [hlimit, Nat.min_eq_left hmoves]
  · have hp : p = _ := Walk.ofWalk_of_error rfl hleads hcharge hend
    have hlength : p.moves.length = u.meter.visits := by rw [hp, hvisits]
    obtain ⟨-, -, hrefused⟩ := Walk.charge_error_iff.1 hcharge
    have hstill : u.meter.tripped = false := hleads.tripped
    have hfull := hrefused.resolve_right (by simp [hstill])
    exact .inr ⟨by rw [Part.isRefused, hp], by omega, e, by rw [execute_fst, hend]; rfl⟩

theorem isRefused_firstPart_iff :
    (w.firstPart host script start).isRefused ↔ ∃ e, (w.execute host script start).1 = .error e := by
  rcases w.execute_answer host script start with ⟨hrefused, -, hanswer⟩ | ⟨hrefused, -, herror⟩
  · rw [hrefused, hanswer]
    simp
  · exact iff_of_true hrefused herror

/-- No chain tells of the start of another. -/
theorem not_isStarted_firstPart : ∀ e ∈ (w.firstPart host script start).effects, e.isStarted = false := by
  intro e he
  by_contra hstarted
  rw [Bool.not_eq_false] at hstarted
  cases e with
  | event name node event =>
    obtain ⟨hnone, -⟩ := ends_firstPart host script start w name
    rw [List.countP_eq_zero] at hnone
    exact hnone _ he (by simp [Effect.isOf, Effect.script?, hstarted])
  | _ => cases hstarted

end World

/-! ### Chains one after the other -/

/-- A chain by itself: its start, and the variables and the actions of the host that were there before. -/
structure Solo where
  start : Start
  vars : Variables
  calls : List Call

namespace Solo

variable (host : Host) (s : Solo)

/-- The answer of the chain in a world of its own, and that world after it. -/
def outcome : Except ScriptError ChainReport × World :=
  (World.alone s.vars s.calls).execute host s.start.script s.start.index

/-- The first part of the chain. -/
def part : Part := (World.alone s.vars s.calls).firstPart host s.start.script s.start.index

/-- All that is told of the chain before all that is left of it waits. -/
def effects (trigger : Start → String) : List Effect :=
  .event s.start.script.name s.start.node.id (.started (trigger s.start)) :: (s.part host).effects

/-- What the chain leaves waiting, by the number that it has among all chains. -/
def pauses (chain : Nat) : List (Duration × Continuation) :=
  (s.part host).moves.filterMap (Work.pause? chain s.start.script)

end Solo

/-- A chain has a full meter of its own: it makes as many rounds as the limit says at most, and it is stopped, with an
error and an event, exactly if it is refused a round after that.  It tells of the start of no other chain. -/
structure Solo.Bounded (host : Host) (s : Solo) : Prop where
  le_limit : (s.part host).moves.length ≤ host.limit
  full : (s.part host).isRefused → (s.part host).moves.length = host.limit
  refused_iff_error : (s.part host).isRefused ↔ ∃ error, (s.outcome host).1 = .error error
  refused_iff_aborted : (s.part host).isRefused ↔ ∃ effect ∈ (s.part host).effects, effect.isAborted
  unstarted : ∀ effect ∈ (s.part host).effects, effect.isStarted = false

theorem Solo.bounded (host : Host) (s : Solo) : s.Bounded host := by
  let w := World.alone s.vars s.calls
  have hrefused : (s.part host).isRefused ↔ _ := w.isRefused_firstPart_iff host s.start.script s.start.index
  have haborted := World.execute_error_iff host s.start.script s.start.index w
  have hunstarted := w.not_isStarted_firstPart host s.start.script s.start.index
  rcases w.execute_answer host s.start.script s.start.index with ⟨hallowed, hle, -⟩ | ⟨-, hfull, -⟩
  · have hnever (h : (s.part host).isRefused) : (s.part host).moves.length = host.limit :=
      absurd (hallowed.symm.trans h) Bool.false_ne_true
    exact ⟨hle, hnever, hrefused, hrefused.trans haborted, hunstarted⟩
  · exact ⟨Nat.le_of_eq hfull, fun _ => hfull, hrefused, hrefused.trans haborted, hunstarted⟩

namespace World

/-- Chains that start one after the other, each with the variables and the actions of the host that the one before it
has left behind. -/
def solos (host : Host) : List Start → Variables → List Call → List Solo
  | [], _, _ => []
  | start :: starts, vars, calls =>
    let s : Solo := ⟨start, vars, calls⟩
    s :: solos host starts (s.outcome host).2.vars (s.outcome host).2.calls

/-- What some chains leave behind together, with what was there before: their number and that of those that were
stopped, the counts of the others, all that they tell, what the last one makes of the variables, what they leave
waiting, and their meters. -/
structure Sequel (host : Host) (trigger : Start → String) (solos : List Solo) (before after : TriggerReport × World) :
    Prop where
  chains : after.1.chains = before.1.chains + solos.length
  aborted : after.1.aborted = before.1.aborted + solos.countP fun s => (s.part host).isRefused
  visits : after.1.visits = before.1.visits +
    (Part.allMoves ((solos.map (Solo.part host)).filter (!·.isRefused))).length
  suspended : after.1.suspended = before.1.suspended +
    (Part.allEffects ((solos.map (Solo.part host)).filter (!·.isRefused))).countP Effect.isSuspended
  trace : after.2.trace.toList = before.2.trace.toList ++ solos.flatMap (Solo.effects host · trigger)
  vars : after.2.vars = (solos.getLast?.map fun s => (s.outcome host).2.vars).getD before.2.vars
  calls : after.2.calls = (solos.getLast?.map fun s => (s.outcome host).2.calls).getD before.2.calls
  pending : after.2.pending = before.2.pending +
    (Part.allEffects (solos.map (Solo.part host))).countP Effect.isSuspended
  timers : after.2.timers = before.2.timers.scheduleAll
    (solos.zipIdx.flatMap fun (s, i) => s.pauses host (before.2.meters.length + i))
  meters : after.2.meters = before.2.meters ++ solos.flatMap fun s => (s.outcome host).2.meters

variable (host : Host)

theorem map_start_solos (starts : List Start) (vars : Variables) (calls : List Call) :
    (solos host starts vars calls).map (·.start) = starts := by
  induction starts generalizing vars calls with
  | nil => rfl
  | cons start starts ih => rw [solos, List.map_cons, ih]

/-- What a trigger leaves behind when it starts a single chain. -/
theorem begin_eq (trigger : String) (start : Start) (w : World) :
    let s : Solo := ⟨start, w.vars, w.calls⟩
    let w' := (w.begin host trigger start).2
    (w.begin host trigger start).1 = (s.outcome host).1 ∧
      w'.trace.toList = w.trace.toList ++ s.effects host (fun _ => trigger) ∧
      w'.vars = (s.outcome host).2.vars ∧ w'.calls = (s.outcome host).2.calls ∧
      w'.pending = w.pending + (s.part host).effects.countP Effect.isSuspended ∧
      w'.timers = w.timers.scheduleAll (s.pauses host w.meters.length) ∧
      w'.meters = w.meters ++ (s.outcome host).2.meters := by
  intro s w'
  let told := w.emit start.script.name start.node.id (.started trigger)
  obtain ⟨hanswer, hvars, hcalls, hmeters⟩ := told.execute_alone host start.script start.index
  have hpart : told.firstPart host start.script start.index = s.part host :=
    (told.firstPart_alone host start.script start.index).symm
  have htold : told.trace.toList = w.trace.toList ++ [.event start.script.name start.node.id (.started trigger)] := by
    simp [told, emit, record]
  have htrace : w'.trace.toList = _ := told.trace_execute host start.script start.index
  have hcard := told.card_tasks_execute host start.script start.index
  have htimers := told.timers_execute host start.script start.index
  rw [hpart] at htrace hcard htimers
  rw [Timers.card_tasks, Timers.card_tasks] at hcard
  refine ⟨hanswer, ?_, hvars, hcalls, hcard, htimers, hmeters⟩
  rw [htrace, htold, List.append_assoc]
  rfl

theorem Sequel.refl (trigger : Start → String) (before : TriggerReport × World) :
    Sequel host trigger [] before before := by
  constructor <;> simp [Part.allMoves, Part.allEffects, Timers.scheduleAll]

/-- How a chain is counted in. -/
private theorem count_outcome (s : Solo) (report : TriggerReport) :
    let p := s.part host
    let after := report.count (s.outcome host).1
    after.chains = report.chains + 1 ∧ after.aborted = report.aborted + (if p.isRefused then 1 else 0) ∧
      after.visits = report.visits + (if p.isRefused then 0 else p.moves.length) ∧
      after.suspended = report.suspended + (if p.isRefused then 0 else p.effects.countP Effect.isSuspended) := by
  intro p after
  rcases execute_answer host s.start.script s.start.index (alone s.vars s.calls) with
    ⟨hrefused, -, hanswer⟩ | ⟨hrefused, -, e, hanswer⟩
  · have hafter : after = report.count (.ok ⟨p.moves.length, p.effects.countP Effect.isSuspended⟩) :=
      congrArg report.count hanswer
    have hp : p.isRefused = false := hrefused
    rw [hafter, hp]
    exact ⟨rfl, rfl, rfl, rfl⟩
  · have hafter : after = report.count (.error e) := congrArg report.count hanswer
    have hp : p.isRefused = true := hrefused
    rw [hafter, hp]
    exact ⟨rfl, rfl, rfl, rfl⟩

/-- A chain that starts before some others. -/
theorem Sequel.cons {trigger : Start → String} {s : Solo} {rest : List Solo} {report : TriggerReport} {w : World}
    {after : TriggerReport × World} (hvars : s.vars = w.vars) (hcalls : s.calls = w.calls)
    (hrest : Sequel host trigger rest
      (report.count (w.begin host (trigger s.start) s.start).1, (w.begin host (trigger s.start) s.start).2) after) :
    Sequel host trigger (s :: rest) (report, w) after := by
  obtain ⟨hanswer, htrace, hvars', hcalls', hpending, htimers, hmeters⟩ := w.begin_eq host (trigger s.start) s.start
  rw [← hvars, ← hcalls] at hanswer htrace hvars' hcalls' hpending htimers hmeters
  have hlength : (s.outcome host).2.meters.length = 1 := by
    rw [Solo.outcome, meters_execute]
    rfl
  obtain ⟨hchains, haborted, hvisits, hsuspended⟩ := count_outcome host s report
  rw [hanswer] at hrest
  constructor
  · rw [hrest.chains, hchains, List.length_cons, Nat.add_assoc, Nat.add_comm 1]
  · rw [hrest.aborted, haborted, List.countP_cons, Nat.add_assoc, Nat.add_comm (ite _ _ _)]
  · rw [hrest.visits, hvisits, List.map_cons, List.filter_cons]
    cases (s.part host).isRefused <;> simp [Part.allMoves, Nat.add_assoc]
  · rw [hrest.suspended, hsuspended, List.map_cons, List.filter_cons]
    cases (s.part host).isRefused <;> simp [Part.allEffects, Nat.add_assoc]
  · rw [hrest.trace, htrace, List.flatMap_cons, List.append_assoc]
    rfl
  · rw [hrest.vars, hvars', List.getLast?_cons]
    cases rest.getLast? <;> rfl
  · rw [hrest.calls, hcalls', List.getLast?_cons]
    cases rest.getLast? <;> rfl
  · rw [hrest.pending, hpending, List.map_cons]
    simp [Part.allEffects, Nat.add_assoc]
  · -- the chains after the first one have the numbers after it
    rw [hrest.timers, htimers, hmeters, List.zipIdx_cons', List.flatMap_cons, List.flatMap_map,
      Timers.scheduleAll_append, List.length_append, hlength]
    simp only [Prod.map, id, Nat.add_zero, Nat.add_assoc, Nat.add_comm 1]
  · rw [hrest.meters, hmeters, List.flatMap_cons, List.append_assoc]

/-- Chains that start one after the other go as they would by themselves. -/
theorem sequel_beginAll (trigger : Start → String) (starts : List Start) (w : World) :
    Sequel host trigger (solos host starts w.vars w.calls) (.zero, w) (w.beginAll host trigger starts) := by
  have hall : ∀ report, Sequel host trigger (solos host starts w.vars w.calls) (report, w)
      (starts.foldl (fun p s => (p.1.count (p.2.begin host (trigger s) s).1, (p.2.begin host (trigger s) s).2))
        (report, w)) := by
    induction starts generalizing w with
    | nil => exact fun report => .refl host trigger _
    | cons start starts ih =>
      intro report
      obtain ⟨-, -, hvars, hcalls, -⟩ := w.begin_eq host (trigger start) start
      refine .cons host rfl rfl ?_
      rw [← hvars, ← hcalls]
      exact ih _ _
  exact hall .zero

end World

/-! ### Where chains start -/

/-- The positions of a list go up. -/
private theorem pairwise_zipIdx {α : Type} (l : List α) : l.zipIdx.Pairwise fun p q => p.2 < q.2 := by
  rw [List.pairwise_iff_getElem]
  intro i j hi hj hij
  simpa using hij

theorem Graph.pairwise_events (g : Graph Float32) : g.events.Pairwise fun p q => p.1 < q.1 := by
  refine List.Pairwise.filter _ ?_
  rw [indexed, List.pairwise_map]
  exact pairwise_zipIdx g.nodes

namespace Engine

variable {σ : Type} (e : Engine σ) (trigger : String)

/-- A start that a trigger matches: at an event node of an enabled script, which is at a position among the loaded
scripts.  The label of the node or its summary has the canonical form of the trigger. -/
structure Matches (k : Nat) (s : Start) : Prop where
  script : e.registry.scripts[k]? = some s.script
  enabled : s.script.enabled = true
  node : s.script.graph.nodes[s.index]? = some s.node
  kind : s.node.kind = .event
  name : Trigger.canonical s.node.label = Trigger.canonical trigger ∨
    Trigger.canonical s.node.summary = Trigger.canonical trigger

/-- The starts of a trigger, each with the position of its script. -/
def sitesOf : List (Nat × Start) :=
  (e.registry.scripts.zipIdx.filter (·.1.enabled)).flatMap fun (s, k) =>
    (s.graph.events.filter fun (_, n) => Trigger.starts trigger n).map fun (i, n) => (k, ⟨s, i, n⟩)

theorem map_snd_sitesOf : (e.sitesOf trigger).map (·.2) = e.startsOf trigger := by
  have hscripts :
      (e.registry.scripts.zipIdx.filter (·.1.enabled)).map (·.1) = e.registry.scripts.filter (·.enabled) := by
    have hfilter := List.filter_map (f := Prod.fst) (p := Script.enabled) (l := e.registry.scripts.zipIdx)
    rw [List.zipIdx_map_fst] at hfilter
    exact hfilter.symm
  rw [sitesOf, startsOf, ← hscripts, List.flatMap_map, List.map_flatMap]
  simp only [List.map_map]
  rfl

theorem mem_sitesOf {k : Nat} {s : Start} : (k, s) ∈ e.sitesOf trigger ↔ e.Matches trigger k s := by
  rw [sitesOf, List.mem_flatMap]
  constructor
  · rintro ⟨⟨script, j⟩, hscript, hmem⟩
    obtain ⟨⟨i, n⟩, hnode, heq⟩ := List.mem_map.1 hmem
    obtain ⟨rfl, rfl⟩ := Prod.mk.inj heq
    obtain ⟨hscript, henabled⟩ := List.mem_filter.1 hscript
    obtain ⟨hnode, hstarts⟩ := List.mem_filter.1 hnode
    obtain ⟨hnode, hkind⟩ := Graph.mem_events.1 hnode
    change Trigger.starts trigger n = true at hstarts
    rw [Trigger.starts, hkind] at hstarts
    exact ⟨List.mem_zipIdx_iff_getElem?.1 hscript, henabled, hnode, hkind, by simpa using hstarts⟩
  · intro h
    have hscript : (s.script, k) ∈ e.registry.scripts.zipIdx := List.mem_zipIdx_iff_getElem?.2 h.script
    have hstarts : Trigger.starts trigger s.node = true := by
      rw [Trigger.starts, h.kind]
      simpa using h.name
    refine ⟨(s.script, k), List.mem_filter.2 ⟨hscript, h.enabled⟩, List.mem_map.2 ⟨(s.index, s.node), ?_, rfl⟩⟩
    exact List.mem_filter.2 ⟨Graph.mem_events.2 ⟨h.node, h.kind⟩, hstarts⟩

theorem pairwise_sitesOf :
    (e.sitesOf trigger).Pairwise fun p q => p.1 < q.1 ∨ p.1 = q.1 ∧ p.2.index < q.2.index := by
  rw [sitesOf, List.pairwise_flatMap]
  refine ⟨?_, ?_⟩
  · rintro ⟨s, k⟩ -
    rw [List.pairwise_map]
    exact (s.graph.pairwise_events.filter _).imp fun hlt => .inr ⟨rfl, hlt⟩
  · refine ((pairwise_zipIdx e.registry.scripts).filter _).imp ?_
    rintro ⟨s, k⟩ ⟨s', k'⟩ hlt p hp q hq
    obtain ⟨⟨i, n⟩, -, rfl⟩ := List.mem_map.1 hp
    obtain ⟨⟨j, m⟩, -, rfl⟩ := List.mem_map.1 hq
    exact .inl hlt

/-- What a trigger does at some sites: these are its matches, script by script and node by node, and a chain starts at
each of them and nowhere else.  Each chain goes as it would by itself with what the chain before it has left behind,
and what all of them leave behind is put together from that. -/
structure Fires (sites : List (Nat × Start)) (solos : List Solo) : Prop where
  ordered : sites.Pairwise fun p q => p.1 < q.1 ∨ p.1 = q.1 ∧ p.2.index < q.2.index
  matched : ∀ k s, (k, s) ∈ sites ↔ e.Matches trigger k s
  starts : solos.map (·.start) = sites.map (·.2)
  inTurn : solos = World.solos e.host (sites.map (·.2)) e.world.vars e.world.calls
  sequel : World.Sequel e.host (fun _ => trigger) solos (.zero, e.world)
    ((e.fire trigger).1, (e.fire trigger).2.world)
  otherwise : (e.fire trigger).2 = { e with world := (e.fire trigger).2.world }
  chains : (e.fire trigger).1.chains = sites.length
  finished : (e.fire trigger).1.chains - (e.fire trigger).1.aborted = solos.countP fun s => !(s.part e.host).isRefused
  bounded : ∀ s ∈ solos, s.Bounded e.host

/-- A trigger fires each of its matches once.  Only the variables and the memory of the host go from one chain to the
next, so stopped chains make no difference to those after them.  Each of them may make as many rounds as the limit
says, and it is stopped exactly if it has made as many and asks for one more. -/
theorem fires_each_match : ∃ sites solos, e.Fires trigger sites solos := by
  refine ⟨e.sitesOf trigger, World.solos e.host (e.startsOf trigger) e.world.vars e.world.calls, ?_⟩
  have hstarts := World.map_start_solos e.host (e.startsOf trigger) e.world.vars e.world.calls
  have hsequel : World.Sequel e.host (fun _ => trigger)
      (World.solos e.host (e.startsOf trigger) e.world.vars e.world.calls) (.zero, e.world)
      ((e.fire trigger).1, (e.fire trigger).2.world) := World.sequel_beginAll ..
  have hchains := hsequel.chains.trans (Nat.zero_add _)
  have haborted := hsequel.aborted.trans (Nat.zero_add _)
  refine ⟨e.pairwise_sitesOf trigger, fun k s => e.mem_sitesOf trigger, ?_, ?_, hsequel, rfl, ?_, ?_,
    fun s _ => s.bounded e.host⟩
  · rw [hstarts, map_snd_sitesOf]
  · rw [map_snd_sitesOf]
  · rw [hchains, ← List.length_map (·.start), hstarts, ← map_snd_sitesOf, List.length_map]
  · have hsplit := List.length_eq_countP_add_countP (fun s => (s.part e.host).isRefused)
      (l := World.solos e.host (e.startsOf trigger) e.world.vars e.world.calls)
    simp only [Bool.not_eq_true, Bool.decide_eq_false] at hsplit
    dsimp only at hchains haborted
    omega

end Engine

end ScriptGraph
