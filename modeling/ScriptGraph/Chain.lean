import ScriptGraph.World

/-!
# Chains

A chain starts at a node and follows the connections, each one completely before the next. What is left to do is kept
on a stack, so cycles cost no recursion. The meter of the chain counts every visit and every pass of a loop, and a
chain that goes beyond its limit is stopped; this is also why `drive` ends. Where a node waits, the rest of that
branch is scheduled and the chain goes on with its other branches.
-/

namespace ScriptGraph

/-- Something that is left to do in a chain. -/
inductive Work where
  /-- to come to a node -/
  | visit (node : Nat)
  /-- to follow the connections of a node some times more -/
  | passes (source remaining : Nat)
  deriving DecidableEq, Repr

/-- Summary of a chain up to its first pause. -/
structure ChainReport where
  visits : Nat
  suspended : Nat
  deriving DecidableEq, Repr

/-- A chain on its way: the world, the meter of the chain, and how many branches it has left waiting. -/
structure Walk where
  world : World
  meter : Meter
  suspended : Nat

namespace Walk

/-- Counts a visit. -/
def charge (w : Walk) : Except ScriptError Unit × Walk :=
  let (answer, meter) := w.meter.charge
  (answer, { w with meter })

theorem meter_of_charge_ok {w v : Walk} (h : w.charge = (.ok (), v)) :
    v.meter.limit = w.meter.limit ∧ v.meter.visits = w.meter.visits + 1 ∧ v.meter.visits ≤ v.meter.limit := by
  simp only [charge, Meter.charge, Prod.mk.injEq] at h
  obtain ⟨h, rfl⟩ := h
  split at h
  · simp at h
  · simp_all

/-- Schedules the rest of a branch, which begins with a pause at a node. -/
def suspend (chain : Nat) (script : Script) (node : String) (delay : Duration) (rest : List Nat) (w : Walk) : Walk :=
  let world := w.world.emit script.name node (.suspended delay)
  { world := { world with timers := world.timers.schedule delay ⟨chain, script, node, rest⟩ }
    meter := w.meter.opened
    suspended := w.suspended + 1 }

/-- Comes to a node: what it does, and what is to be done next. -/
def visit (host : Host) (chain : Nat) (script : Script) (i : Nat) (w : Walk) : List Work × Walk :=
  match script.graph.node? i with
  | none => ([], w)
  | some n =>
    let (turn, world) := w.world.act host script.name n
    let w := { w with world }
    match turn with
    | .onward => (n.targets.map .visit, w)
    | .stop => ([], w)
    | .again count => ([.passes i count], w)
    | .later delay =>
      if n.targets.isEmpty then ([], w)
      else ([], w.suspend chain script n.id delay n.targets)

theorem meter_visit (host : Host) (chain : Nat) (script : Script) (i : Nat) (w : Walk) :
    (w.visit host chain script i).2.meter = w.meter ∨
      (w.visit host chain script i).2.meter = w.meter.opened := by
  unfold visit
  split
  · simp
  · dsimp only
    split <;> try simp
    split <;> simp [suspend]

@[simp]
theorem visits_visit (host : Host) (chain : Nat) (script : Script) (i : Nat) (w : Walk) :
    (w.visit host chain script i).2.meter.visits = w.meter.visits := by
  rcases meter_visit host chain script i w with h | h <;> rw [h]
  rfl

@[simp]
theorem limit_visit (host : Host) (chain : Nat) (script : Script) (i : Nat) (w : Walk) :
    (w.visit host chain script i).2.meter.limit = w.meter.limit := by
  rcases meter_visit host chain script i w with h | h <;> rw [h]
  rfl

/-- Carries out what is left to do. It fails when the meter does, with everything after that undone. -/
def drive (host : Host) (chain : Nat) (script : Script) (stack : List Work) (w : Walk) :
    Except ScriptError Unit × Walk :=
  match stack with
  | [] => (.ok (), w)
  | .passes source remaining :: stack =>
    let next := script.graph.successors source
    if remaining = 0 || next.isEmpty then drive host chain script stack w
    else
      match _h : w.charge with
      | (.error e, w) => (.error e, w)
      | (.ok (), w) => drive host chain script (next.map .visit ++ .passes source (remaining - 1) :: stack) w
  | .visit i :: stack =>
    match _h : w.charge with
    | (.error e, w) => (.error e, w)
    | (.ok (), w) =>
      let step := w.visit host chain script i
      drive host chain script (step.1 ++ stack) step.2
termination_by (w.meter.limit + 1 - w.meter.visits, stack.length)
decreasing_by
  · exact Prod.Lex.right _ (by simp)
  · obtain ⟨h1, h2, h3⟩ := meter_of_charge_ok _h
    apply Prod.Lex.left
    omega
  · obtain ⟨h1, h2, h3⟩ := meter_of_charge_ok _h
    apply Prod.Lex.left
    rw [visits_visit, limit_visit]
    omega

/-- Ends a part of a chain that began at a node: the last part tells that the chain is finished, and the first one
that fails tells that it is stopped. -/
def finish (chain : Nat) (script node : String) (answer : Except ScriptError Unit) (w : Walk) : World :=
  let last := w.meter.live == 1
  let meter := w.meter.closed
  match answer with
  | .ok () =>
    let world := w.world.setMeter chain meter
    if last then world.emit script node (.finished meter.spent) else world
  | .error e =>
    let world := w.world.setMeter chain { meter with tripped := true }
    if meter.tripped then world
    else
      (world.record (.note ("Script '" ++ script ++ "' stopped: " ++ e.message))).emit script node
        (.aborted e.message)

end Walk

namespace World

/-- Starts a chain at a node and runs it until all that is left of it waits. -/
def execute (host : Host) (script : Script) (start : Nat) (w : World) : Except ScriptError ChainReport × World :=
  let chain := w.meters.length
  let meter := Meter.start host.limit
  let (answer, walk) :=
    Walk.drive host chain script [.visit start] ⟨{ w with meters := w.meters ++ [meter] }, meter, 0⟩
  let node := match script.graph.node? start with
    | some n => n.id
    | none => ""
  (answer.map fun _ => ⟨walk.meter.spent, walk.suspended⟩, walk.finish chain script.name node answer)

/-- Goes on with a part of a chain that has waited long enough. -/
def resume (host : Host) (k : Continuation) (w : World) : World :=
  let meter := w.meter k.chain
  let (answer, walk) :=
    Walk.drive host k.chain k.script (k.rest.map .visit) ⟨w.emit k.script.name k.node .resumed, meter, 0⟩
  walk.finish k.chain k.script.name k.node answer

/-- A bound on the parts of chains that can still be resumed: those that wait, and one for each visit that is left. -/
def capacity (w : World) : Nat :=
  w.pending + w.meters.foldr (fun m visits => m.left + visits) 0

/-- Moves the clock forward and resumes what falls due. The answer is how many parts were resumed. -/
def advance (host : Host) (elapsed : Duration) (w : World) : Nat × World :=
  (Timers.sweep (resume host) (w.timers.now + elapsed) w.capacity w).getD (0, w)

end World

end ScriptGraph
