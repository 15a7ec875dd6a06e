import ScriptGraph.Proofs.Triggers

/-!
# What a trigger counts

The report of a trigger has the number of its chains and of those that were stopped, and totals of visits and of
branches left waiting.  The totals are taken from the answers to the starts, and a chain that is stopped in its first
part answers with an error, so they leave out what such a chain did before (`World.Totals`): as many rounds as the
limit allows, and the branches that it left waiting.  These wait all the same.  So the totals are those of all chains
exactly if no stopped chain has made a round, or has left a branch waiting (`Engine.trigger_totals`).
-/

namespace ScriptGraph

namespace World

/-- The first parts of chains that start one after the other. -/
def firstParts (host : Host) (trigger : Start → String) : List Start → World → List Part
  | [], _ => []
  | s :: starts, w =>
    (w.emit s.script.name s.node.id (.started (trigger s))).firstPart host s.script s.index ::
      firstParts host trigger starts (w.begin host (trigger s) s).2

/-- The parts are those of the chains by themselves. -/
theorem firstParts_eq (host : Host) (trigger : Start → String) (starts : List Start) (w : World) :
    w.firstParts host trigger starts = (solos host starts w.vars w.calls).map (Solo.part host) := by
  induction starts generalizing w with
  | nil => rfl
  | cons s starts ih =>
    obtain ⟨-, -, hvars, hcalls, -⟩ := w.begin_eq host (trigger s) s
    rw [firstParts, solos, List.map_cons, ih, hvars, hcalls, ← firstPart_alone]
    rfl

/-- A part that is refused a round has made as many as the limit allows. -/
theorem length_moves_of_isRefused {host : Host} {trigger : Start → String} {starts : List Start} {w : World} :
    ∀ p ∈ w.firstParts host trigger starts, p.isRefused → p.moves.length = host.limit := by
  induction starts generalizing w with
  | nil => exact fun p hp => absurd hp List.not_mem_nil
  | cons s starts ih =>
    rw [firstParts, List.forall_mem_cons]
    refine ⟨fun hrefused => ?_, ih⟩
    rcases execute_answer host s.script s.index (w.emit s.script.name s.node.id (.started (trigger s))) with
      ⟨hallowed, -⟩ | ⟨-, hfull, -⟩
    · rw [hallowed] at hrefused
      cases hrefused
    · exact hfull

/-- What a report says of the first parts of some chains, and what they leave waiting: the totals are those of the
parts that were not refused a round, and what is missing are the rounds and the branches of the others. -/
structure Totals (host : Host) (parts : List Part) (report : TriggerReport) (w w' : World) : Prop where
  chains : report.chains = parts.length
  aborted : report.aborted = parts.countP Part.isRefused
  visits : report.visits = (Part.allMoves (parts.filter (!·.isRefused))).length
  suspended : report.suspended = (Part.allEffects (parts.filter (!·.isRefused))).countP Effect.isSuspended
  pending : w'.pending = w.pending + (Part.allEffects parts).countP Effect.isSuspended
  missingVisits : (Part.allMoves parts).length = report.visits + report.aborted * host.limit
  missingSuspended : w'.pending = w.pending + report.suspended +
    (Part.allEffects (parts.filter (·.isRefused))).countP Effect.isSuspended
  visits_iff : report.visits = (Part.allMoves parts).length ↔ report.aborted * host.limit = 0
  suspended_iff : w'.pending = w.pending + report.suspended ↔
    (Part.allEffects (parts.filter (·.isRefused))).countP Effect.isSuspended = 0

end World

namespace Part

private theorem length_allMoves {parts : List Part} {limit : Nat} (h : ∀ p ∈ parts, p.moves.length = limit) :
    (allMoves parts).length = parts.length * limit := by
  induction parts with
  | nil => simp [allMoves]
  | cons p parts ih =>
    rw [List.forall_mem_cons] at h
    have hrest := ih h.2
    rw [allMoves] at hrest ⊢
    rw [List.flatMap_cons, List.length_append, h.1, hrest, List.length_cons, Nat.add_mul, Nat.one_mul, Nat.add_comm]

/-- The rounds of some parts are those of the parts that were refused a round, all of the same number, and of the
others. -/
private theorem length_allMoves_split {parts : List Part} {limit : Nat}
    (hfull : ∀ p ∈ parts, p.isRefused → p.moves.length = limit) :
    (allMoves parts).length = (allMoves (parts.filter (!·.isRefused))).length + parts.countP isRefused * limit := by
  have hperm := (List.filter_append_perm isRefused parts).flatMap_right Part.moves
  have hrefused : (allMoves (parts.filter isRefused)).length = parts.countP isRefused * limit := by
    rw [length_allMoves (by simpa using hfull), List.countP_eq_length_filter]
  rw [← hrefused, allMoves, ← hperm.length_eq, List.flatMap_append, List.length_append, Nat.add_comm]
  rfl

/-- What some parts tell is told by the parts that were refused a round, and by the others. -/
private theorem countP_allEffects_split (parts : List Part) (kind : Effect → Bool) :
    (allEffects parts).countP kind = (allEffects (parts.filter (!·.isRefused))).countP kind +
      (allEffects (parts.filter (·.isRefused))).countP kind := by
  have hperm := (List.filter_append_perm isRefused parts).flatMap_right effects
  rw [allEffects, ← hperm.countP_eq, List.flatMap_append, List.countP_append, Nat.add_comm]
  rfl

end Part

namespace World

theorem totals_beginAll (host : Host) (trigger : Start → String) (starts : List Start) (w : World) :
    Totals host (w.firstParts host trigger starts) (w.beginAll host trigger starts).1 w
      (w.beginAll host trigger starts).2 := by
  have hsequel := w.sequel_beginAll host trigger starts
  have hfull : ∀ p ∈ w.firstParts host trigger starts, p.isRefused → p.moves.length = host.limit :=
    length_moves_of_isRefused
  rw [firstParts_eq] at hfull ⊢
  have haborted : (w.beginAll host trigger starts).1.aborted = _ := hsequel.aborted.trans (Nat.zero_add _)
  have hvisits := hsequel.visits.trans (Nat.zero_add _)
  have hsuspended := hsequel.suspended.trans (Nat.zero_add _)
  have hmap : (solos host starts w.vars w.calls).countP (fun s => (s.part host).isRefused) =
      ((solos host starts w.vars w.calls).map (Solo.part host)).countP Part.isRefused := by
    rw [List.countP_map]
    rfl
  rw [hmap] at haborted
  have hmoves := Part.length_allMoves_split hfull
  have hpending := hsequel.pending
  rw [← haborted, ← hvisits] at hmoves
  rw [Part.countP_allEffects_split, ← hsuspended, ← Nat.add_assoc] at hpending
  refine ⟨?_, haborted, hvisits, hsuspended, hsequel.pending, hmoves, hpending, by omega, ?_⟩
  · rw [hsequel.chains, List.length_map]
    exact Nat.zero_add _
  · dsimp only at hpending
    omega

end World

namespace Engine

variable {σ : Type}

/-- The starts of a graph from an editor. -/
def startsIn (g : Graph Float32) : List Start :=
  g.events.map fun (i, n) => ⟨Script.make editorScript g, i, n⟩

theorem totals_runGraph (e : Engine σ) (g : Graph Float32) :
    World.Totals e.host (e.world.firstParts e.host (·.node.label) (startsIn g)) (e.runGraph g).1 e.world
      (e.runGraph g).2.world := by
  unfold runGraph startsIn
  cases hevents : g.events with
  | nil =>
    -- the note that there is no start waits for nothing
    have hnone := e.world.totals_beginAll e.host (·.node.label) []
    exact { hnone with }
  | cons p events => exact World.totals_beginAll ..

/-- The totals of a trigger, and of a graph from an editor, are those of all chains that are not stopped in their
first parts.  They are those of all chains exactly if stopped chains have neither visits nor branches left waiting. -/
theorem trigger_totals (e : Engine σ) :
    (∀ trigger : String,
      World.Totals e.host (e.world.firstParts e.host (fun _ => trigger) (e.startsOf trigger)) (e.fire trigger).1
        e.world (e.fire trigger).2.world) ∧
    ∀ g : Graph Float32,
      World.Totals e.host (e.world.firstParts e.host (·.node.label) (startsIn g)) (e.runGraph g).1 e.world
        (e.runGraph g).2.world :=
  ⟨fun _ => World.totals_beginAll .., e.totals_runGraph⟩

end Engine

/-! ### A chain that is stopped after it left a branch waiting -/

/-- A start that leads to a pause and to a message, which comes after the pause as well. -/
def fork : Script :=
  let first := Node.make "first" .event "On Start" ⟨0, 0⟩ .gold
  let pause := Node.make "pause" .logic "Wait" ⟨1, 0⟩ .gray
  let last := Node.make "last" .action "Message" ⟨2, 0⟩ .gray
  Script.make "fork"
    ((((((Graph.empty.add first).add pause).add last).connect 0 1).2.connect 0 2).2.connect 1 2).2

/-- If two visits are allowed, the message is refused, and the branch behind the pause waits. -/
private theorem drive_fork (host : Host) (chain : Nat) {w : Walk} (hmeter : w.meter = ⟨0, 2, false, 1⟩) :
    w.trail host chain fork [.visit 0] = [.visit 0, .visit 1] ∧
      ∃ e v, w.drive host chain fork [.visit 0] = (.error e, v) ∧ v.suspended = w.suspended + 1 := by
  obtain ⟨delay, hdelay⟩ : ∃ delay, Reading.seconds "1" = some delay :=
    Option.isSome_iff_exists.1 (by decide +kernel)
  obtain ⟨first, hfirst, hturn, hnext⟩ : ∃ n, fork.graph.node? 0 = some n ∧ (∀ vars, n.turn vars = .onward) ∧
      n.targets = [1, 2] := ⟨_, rfl, fun _ => rfl, rfl⟩
  obtain ⟨pause, hpause, hturn', hnext'⟩ : ∃ n, fork.graph.node? 1 = some n ∧
      (∀ vars, n.turn vars = .later delay) ∧ n.targets = [2] :=
    ⟨_, rfl, fun _ => Node.turn_eq_later_iff.2 hdelay, rfl⟩
  -- the visit of the start, and that of the pause
  have hcharge : w.charge = (.ok (), w.charged) :=
    Walk.charge_ok_iff.2 ⟨rfl, by rw [hmeter]; decide, by rw [hmeter]⟩
  obtain ⟨u, hvisit, hu, hsuspended⟩ : ∃ u, w.charged.visit host chain fork 0 = ([.visit 1, .visit 2], u) ∧
      u.meter = ⟨1, 2, false, 1⟩ ∧ u.suspended = w.suspended := by
    refine ⟨w.charged.acted host fork first, ?_, by simp only [Walk.acted, Walk.charged, hmeter], rfl⟩
    rw [Walk.visit_of_some hfirst, hturn, hnext]
    rfl
  have hcharge' : u.charge = (.ok (), u.charged) :=
    Walk.charge_ok_iff.2 ⟨rfl, by rw [hu]; decide, by rw [hu]⟩
  obtain ⟨v, hvisit', hv, hsuspended'⟩ : ∃ v, u.charged.visit host chain fork 1 = ([], v) ∧
      v.meter = ⟨2, 2, false, 2⟩ ∧ v.suspended = u.suspended + 1 := by
    refine ⟨(u.charged.acted host fork pause).suspend chain fork pause.id delay pause.targets, ?_,
      by simp only [Walk.suspend, Walk.acted, Walk.charged, Meter.opened, hu], rfl⟩
    rw [Walk.visit_of_some hpause, hturn', hnext']
    rfl
  have hrefused : v.charge = (.error _, v.charged) := Walk.charge_error_iff.2 ⟨rfl, rfl, .inl (by rw [hv])⟩
  constructor
  · rw [Walk.trail_visit_ok hcharge, hvisit, List.append_nil, Walk.trail_visit_ok hcharge', hvisit', List.nil_append,
      Walk.trail_visit_error hrefused]
  · rw [Walk.drive_visit_ok hcharge, hvisit, List.append_nil, Walk.drive_visit_ok hcharge', hvisit', List.nil_append]
    exact ⟨_, _, Walk.drive_visit_error hrefused, hsuspended'.trans (congrArg (· + 1) hsuspended)⟩

/-- A chain that is stopped after two visits, when a branch of it waits, adds to neither of the totals. -/
theorem Engine.totals_without_stopped :
    let e : Engine Unit :=
      (Engine.make { Config.default with maxVisits := 2 } (fun _ _ => .ok ()) .manual () .empty).addScript fork
    let parts := e.world.firstParts e.host (fun _ => "On Start") (e.startsOf "On Start")
    (e.fire "On Start").1 = ⟨1, 0, 0, 1⟩ ∧ (Part.allMoves parts).length = 2 ∧
      e.pending = 0 ∧ (e.fire "On Start").2.pending = 1 := by
  intro e parts
  obtain ⟨first, hstarts⟩ : ∃ first, e.startsOf "On Start" = [⟨fork, 0, first⟩] := by
    obtain ⟨first, hevents, hmatches⟩ : ∃ first, fork.graph.events = [(0, first)] ∧
        Trigger.starts "On Start" first = true := ⟨_, rfl, by decide +kernel⟩
    have hscripts : e.registry.scripts.filter (·.enabled) = [fork] := rfl
    refine ⟨first, ?_⟩
    rw [startsOf, hscripts, List.flatMap_singleton, hevents]
    simp [hmatches]
  let w := e.world.emit fork.name first.id (.started "On Start")
  have hparts : parts = [w.firstPart e.host fork 0] := by
    dsimp only [parts]
    rw [hstarts]
    rfl
  obtain ⟨hmoves, error, v, hdrive, hwaits⟩ := drive_fork e.host w.meters.length (w := w.entry e.host) rfl
  have hmoves' : (w.firstPart e.host fork 0).moves = [.visit 0, .visit 1] := hmoves
  have hrefused : (w.firstPart e.host fork 0).isRefused = true := by
    rw [World.firstPart, Part.isRefused, Part.ofWalk, hdrive]
  have hsuspended : (w.firstPart e.host fork 0).effects.countP Effect.isSuspended = 1 := by
    rw [← World.suspended_firstPart, hdrive, hwaits]
    rfl
  have htotals : World.Totals e.host parts _ e.world _ :=
    e.world.totals_beginAll e.host (fun _ => "On Start") (e.startsOf "On Start")
  rw [hparts] at htotals ⊢
  have hpending := htotals.pending
  rw [Part.allEffects_singleton, hsuspended] at hpending
  refine ⟨?_, by rw [Part.allMoves_singleton, hmoves']; rfl, rfl, hpending⟩
  have hnone : [w.firstPart e.host fork 0].filter (!·.isRefused) = [] := by simp [hrefused]
  have hall (r : TriggerReport) (h : World.Totals e.host [w.firstPart e.host fork 0] r e.world
      (e.fire "On Start").2.world) : r = ⟨1, 0, 0, 1⟩ := by
    obtain ⟨chains, visits, suspended, aborted⟩ := r
    have hvisits := h.visits
    have hsuspended := h.suspended
    have haborted := h.aborted
    rw [hnone] at hvisits hsuspended
    rw [List.countP_singleton, hrefused] at haborted
    cases h.chains
    cases hvisits
    cases hsuspended
    cases haborted
    rfl
  exact hall _ htotals

end ScriptGraph
