import ScriptGraph.Engine
import ScriptGraph.Proofs.Courses

/-!
# The ceiling of a chain

A chain may be cyclic, and a cycle with a pause of no length schedules itself again and again, but the meter of the
chain is shared by all of its parts.  So the visits and passes of a whole chain stay within the limit, and with them
the branches that it ever leaves waiting (`Course.ceiling`).

For the clock this means that a sweep ends.  The measure is `World.capacity`: the branches that wait and the visits
that all meters have left.  A branch that goes on is taken from the first, and each branch that it leaves waiting is
paid for with a visit (`World.capacity_resume_le`).
-/

namespace ScriptGraph

/-! ### Walks end -/

namespace Walk

/-- The loop of `drive`, cut off after some rounds. -/
def driveFor (host : Host) (chain : Nat) (script : Script) :
    Nat → List Work → Walk → Option (Except ScriptError Unit × Walk)
  | _, [], w => some (.ok (), w)
  | 0, _ :: _, _ => none
  | rounds + 1, .passes source remaining :: stack, w =>
    let next := script.graph.successors source
    if remaining = 0 || next.isEmpty then driveFor host chain script rounds stack w
    else
      match w.charge with
      | (.error e, w) => some (.error e, w)
      | (.ok (), w) =>
        driveFor host chain script rounds (next.map .visit ++ .passes source (remaining - 1) :: stack) w
  | rounds + 1, .visit i :: stack, w =>
    match w.charge with
    | (.error e, w) => some (.error e, w)
    | (.ok (), w) =>
      let step := w.visit host chain script i
      driveFor host chain script rounds (step.1 ++ stack) step.2

/-- The loop ends by itself after some number of rounds. -/
theorem exists_driveFor (host : Host) (chain : Nat) (script : Script) (stack : List Work) (w : Walk) :
    ∃ rounds, driveFor host chain script rounds stack w = some (drive host chain script stack w) := by
  induction stack, w using rounds_induction host chain script with
  | nil w => exact ⟨0, by rw [driveFor, drive_nil]⟩
  | idle source remaining stack w h ih =>
    obtain ⟨rounds, ih⟩ := ih
    exact ⟨rounds + 1, by rw [driveFor, if_pos (by simpa using h), ih, drive_passes_idle h]⟩
  | passRefused source remaining stack w v e hnext hcharge =>
    refine ⟨1, ?_⟩
    rw [driveFor, if_neg (by simpa using hnext), hcharge, drive_passes_error hnext hcharge]
  | pass source remaining stack w v hnext hcharge ih =>
    obtain ⟨rounds, ih⟩ := ih
    refine ⟨rounds + 1, ?_⟩
    rw [driveFor, if_neg (by simpa using hnext), hcharge, drive_passes_ok hnext hcharge]
    exact ih
  | refused i stack w v e hcharge =>
    refine ⟨1, ?_⟩
    rw [driveFor, hcharge, drive_visit_error hcharge]
  | visit i stack w v hcharge ih =>
    obtain ⟨rounds, ih⟩ := ih
    refine ⟨rounds + 1, ?_⟩
    rw [driveFor, hcharge, drive_visit_ok hcharge]
    exact ih

end Walk

/-! ### Sweeps end -/

namespace Timers

variable {α σ : Type} [Clocked σ α]

/-- A sweep ends if each task lowers a measure. -/
theorem exists_sweepFrom (measure : σ → Nat) {run : α → σ → σ} {target : Duration}
    (hrun : ∀ s task rest, (Clocked.timers s).takeDue target = some (task, rest) →
      measure (run task (Clocked.withTimers s rest)) < measure s)
    (ran bound : Nat) (s : σ) (hbound : measure s ≤ bound) :
    ∃ answer, sweepFrom ran run target bound s = some answer := by
  induction bound generalizing ran s with
  | zero =>
    rw [sweepFrom]
    split
    · exact ⟨_, rfl⟩
    · next task rest htake =>
      have := hrun s task rest htake
      omega
  | succ bound ih =>
    rw [sweepFrom]
    split
    · exact ⟨_, rfl⟩
    · next task rest htake =>
      have := hrun s task rest htake
      exact ih (ran + 1) _ (by omega)

end Timers

namespace World

private theorem totalLeft_set_le {meters : List Meter} {i d : Nat} {m m' : Meter} (hm : meters[i]? = some m)
    (hle : m'.left + d ≤ m.left) :
    (meters.set i m').foldr (fun m visits => m.left + visits) 0 + d ≤
      meters.foldr (fun m visits => m.left + visits) 0 := by
  induction meters generalizing i with
  | nil => simp at hm
  | cons m₀ meters ih =>
    cases i with
    | zero =>
      rw [List.getElem?_cons_zero, Option.some.injEq] at hm
      subst hm
      rw [List.set_cons_zero, List.foldr_cons, List.foldr_cons]
      omega
    | succ i =>
      rw [List.getElem?_cons_succ] at hm
      have := ih hm
      rw [List.set_cons_succ, List.foldr_cons, List.foldr_cons]
      omega

/-- What the rounds of a walk leave waiting is paid for with visits. -/
private theorem left_finalMeter_le (host : Host) (chain : Nat) (script : Script) (stack : List Work) (w : Walk) :
    ∃ rests : Multiset Continuation,
      (w.drive host chain script stack).2.world.timers.tasks = rests + w.world.timers.tasks ∧
      (w.drive host chain script stack).2.world.meters = w.world.meters ∧ (w.meter.tripped = true → rests.card = 0) ∧
      ((w.drive host chain script stack).2.finalMeter (w.drive host chain script stack).1).left + rests.card ≤
        w.meter.left := by
  obtain ⟨moves, effects, u, hleads, hworld, hlimit, hle⟩ := Walk.exists_leads host chain script stack w
  obtain ⟨rests, htasks, hcard, -⟩ := hleads.waiting
  have hmet := Work.countP_isMet_add_le script moves
  have hsuspended := hleads.suspended
  have hexecuted := hleads.executed
  have hvisits := hleads.visits
  have hulimit := hleads.limit
  have hleft : ((w.drive host chain script stack).2.finalMeter (w.drive host chain script stack).1).left =
      (w.drive host chain script stack).2.meter.limit - (w.drive host chain script stack).2.meter.visits := by
    rcases w.drive host chain script stack with ⟨_ | _, v⟩ <;> rfl
  refine ⟨rests, by rw [hworld, htasks], by rw [hworld, hleads.meters], ?_, ?_⟩
  · -- a chain that was stopped is allowed no round, and so nothing of it is left waiting
    intro htripped
    by_cases hmoves : moves = []
    · rw [hmoves, List.countP_nil] at hexecuted
      omega
    · have := (hleads.allowed hmoves).2
      rw [hleads.tripped, htripped] at this
      cases this
  · rw [hleft, Meter.left]
    by_cases hmoves : moves = []
    · rw [hmoves, List.countP_nil] at hexecuted
      omega
    · have := (hleads.allowed hmoves).1
      omega

/-- A part of a chain does not raise the capacity. -/
theorem capacity_resume_le (host : Host) (k : Continuation) (w : World) :
    (w.resume host k).capacity ≤ w.capacity := by
  obtain ⟨rests, htasks, hmeters, htripped, hleft⟩ :=
    left_finalMeter_le host k.chain k.script (k.rest.map .visit) (w.reentry k)
  rw [resume_eq, Walk.outcome]
  dsimp only
  rw [capacity, capacity, pending, pending, ← Timers.card_tasks, ← Timers.card_tasks, Walk.finish_timers,
    Walk.finish_meters, htasks, hmeters, Multiset.card_add]
  dsimp only [reentry, emit, record] at hleft htripped ⊢
  by_cases hchain : k.chain < w.meters.length
  · have hm : w.meters[k.chain]? = some (w.meter k.chain) := by
      rw [meter, List.getD_eq_getElem?_getD, List.getElem?_eq_getElem hchain, Option.getD_some]
    have := totalLeft_set_le hm hleft
    omega
  · -- the meter of a chain that was never started allows nothing
    rw [Nat.not_lt] at hchain
    have hexhausted : w.meter k.chain = .exhausted := by
      rw [meter, List.getD_eq_getElem?_getD, List.getElem?_eq_none hchain, Option.getD_none]
    rw [List.set_eq_of_length_le hchain, htripped (by rw [hexhausted]; rfl)]
    omega

/-- Whatever waits, a sweep ends. -/
theorem exists_sweep (host : Host) (target : Duration) (w : World) :
    ∃ answer, Timers.sweep (resume host) target w.capacity w = some answer := by
  refine Timers.exists_sweepFrom capacity ?_ 0 w.capacity w (Nat.le_refl _)
  intro s k rest htake
  have hle := capacity_resume_le host k { s with timers := rest }
  have hsize : s.timers.size = rest.size + 1 := Timers.size_of_takeDue htake
  have hlt : capacity { s with timers := rest } < s.capacity := by
    dsimp only [capacity, pending]
    omega
  exact Nat.lt_of_le_of_lt hle hlt

end World

/-- With a clock of its own an engine resumes all that falls due. -/
theorem Engine.exists_update {σ : Type} (e : Engine σ) (elapsed : Duration) (hclock : e.clock = .manual) :
    ∃ count world, Timers.sweep (World.resume e.host) (e.world.timers.now + elapsed) e.world.capacity e.world =
        some (count, world) ∧ e.update elapsed = (count, { e with world }) := by
  obtain ⟨⟨count, world⟩, hsweep⟩ := e.world.exists_sweep e.host (e.world.timers.now + elapsed)
  have hmanual : e.update elapsed = e.onWorld (World.advance e.host elapsed) := by
    rw [update, hclock]
  refine ⟨count, world, hsweep, ?_⟩
  rw [hmanual, onWorld, World.advance, hsweep, Option.getD_some]

/-! ### The limit of a chain -/

/-- Whether a part is refused a round. -/
def Part.isRefused (p : Part) : Bool :=
  match p.answer with
  | .ok _ => false
  | .error _ => true

namespace Course

variable {host : Host} {script : Script} {start chain : Nat} {w : World} {parts : List Part}

theorem executed_add_passes_le (h : Course host script start chain w parts) :
    (Part.allEffects parts).countP Effect.isExecuted + (Part.allMoves parts).countP Work.isPass ≤ host.limit := by
  obtain ⟨m, -, hbalance⟩ := h.balance
  have hmet := Work.countP_isMet_add_le script (Part.allMoves parts)
  have hmoves := hbalance.moves_le
  rw [hbalance.executed, ← hbalance.limit]
  omega

theorem suspended_le (h : Course host script start chain w parts) :
    (Part.allEffects parts).countP Effect.isSuspended ≤ host.limit := by
  obtain ⟨m, -, hbalance⟩ := h.balance
  have hsuspended := hbalance.suspended
  have hexecuted := h.executed_add_passes_le
  omega

/-- Each branch that was left waiting either waits or was a part of the chain. -/
theorem suspended_eq (h : Course host script start chain w parts) :
    (Part.allEffects parts).countP Effect.isSuspended + 1 = parts.length + (w.waitingOf chain).card := by
  obtain ⟨m, -, hbalance⟩ := h.balance
  exact hbalance.scheduled

private theorem find?_isRefused_of_goes {before : List Part} (hgoes : ∀ p ∈ before, p.Goes) :
    before.find? Part.isRefused = none := by
  rw [List.find?_eq_none]
  intro p hp
  rw [Part.isRefused, (hgoes p hp).answer]
  exact Bool.false_ne_true

/-- The first part that is refused a round would have made one visit more than the limit allows. -/
theorem answer_of_find? (h : Course host script start chain w parts) {p : Part}
    (hp : parts.find? Part.isRefused = some p) : p.answer = .error (.runaway (host.limit + 1) host.limit) := by
  obtain ⟨m, -, hbalance⟩ := h.balance
  cases hbalance.verdict with
  | going _ _ hgoes =>
    rw [find?_isRefused_of_goes hgoes] at hp
    cases hp
  | @ended _ _ before last hparts hgoes hlast =>
    rw [hparts, List.find?_append, find?_isRefused_of_goes hgoes, Option.none_or, List.find?_singleton] at hp
    rw [Part.isRefused, hlast.answer] at hp
    cases hp
  | @stopped _ before after q hparts hgoes hstop _ =>
    have hq : q.isRefused = true := by
      rw [Part.isRefused, hstop.answer]
    rw [hparts, List.find?_append, find?_isRefused_of_goes hgoes, Option.none_or, List.find?_cons_of_pos hq] at hp
    cases hp
    rw [hstop.answer, hbalance.limit]

end Course

/-- No chain runs away.  Each of its walks ends.  All of its parts together, in whichever order its branches go on,
execute no more nodes and make no more passes than the limit allows, and they leave no more branches waiting.  The
first refusal is of the visit after the last that is allowed.  So an engine with a clock of its own comes to the end
of each update, whatever waits. -/
theorem Course.ceiling (host : Host) :
    (∀ (chain : Nat) (script : Script) (stack : List Work) (w : Walk), ∃ rounds,
      w.driveFor host chain script rounds stack = some (w.drive host chain script stack)) ∧
    (∀ (script : Script) (start chain : Nat) (w : World) (parts : List Part), Course host script start chain w parts →
      (Part.allEffects parts).countP Effect.isExecuted + (Part.allMoves parts).countP Work.isPass ≤ host.limit ∧
      (Part.allEffects parts).countP Effect.isSuspended ≤ host.limit ∧
      (Part.allEffects parts).countP Effect.isSuspended + 1 = parts.length + (w.waitingOf chain).card ∧
      ∀ p, parts.find? Part.isRefused = some p → p.answer = .error (.runaway (host.limit + 1) host.limit)) ∧
    ∀ (σ : Type) (e : Engine σ) (elapsed : Duration), e.clock = .manual → ∃ count world,
      Timers.sweep (World.resume e.host) (e.world.timers.now + elapsed) e.world.capacity e.world =
          some (count, world) ∧
        e.update elapsed = (count, { e with world }) := by
  refine ⟨fun chain script stack w => w.exists_driveFor host chain script stack, ?_, ?_⟩
  · intro script start chain w parts h
    exact ⟨h.executed_add_passes_le, h.suspended_le, h.suspended_eq, fun p hp => h.answer_of_find? hp⟩
  · intro σ e elapsed hclock
    exact e.exists_update elapsed hclock

/-- Two visits are allowed, and the branch that goes on is refused the third one. -/
theorem Course.ceiling_spin :
    let host : Host := ⟨2, fun _ _ => .ok ()⟩
    let w := ((World.ofVariables .empty).execute host spin 0).2
    let e : Engine Unit := { Engine.make .default host.dispatch .manual () .empty with host, world := w }
    ∃ first next, Course host spin 0 0 (w.advance host 0).2 [first, next] ∧
      (Part.allEffects [first, next]).countP Effect.isExecuted +
        (Part.allMoves [first, next]).countP Work.isPass ≤ 2 ∧
      (Part.allEffects [first, next]).countP Effect.isSuspended + 1 =
        2 + ((w.advance host 0).2.waitingOf 0).card ∧
      [first, next].find? Part.isRefused = some next ∧ next.answer = .error (.runaway 3 2) ∧
      ∃ count world, e.update 0 = (count, { e with world }) := by
  intro host w e
  obtain ⟨next, m, hcourse, hfirst, ⟨error, hnext⟩, -⟩ := advance_spin host (Nat.le_refl 2) (by decide)
  obtain ⟨-, hchain, hupdate⟩ := ceiling host
  obtain ⟨hexecuted, -, hsuspended, hrefused⟩ := hchain spin 0 0 _ _ hcourse
  have hfind : [World.firstPart host spin 0 (.ofVariables .empty), next].find? Part.isRefused = some next := by
    simp only [List.find?_cons, Part.isRefused, hfirst, hnext]
  obtain ⟨count, world, -, hworld⟩ := hupdate Unit e 0 rfl
  exact ⟨_, next, hcourse, hexecuted, hsuspended, hfind, hrefused next hfind, count, world, hworld⟩

end ScriptGraph
