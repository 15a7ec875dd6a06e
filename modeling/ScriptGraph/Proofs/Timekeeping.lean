import ScriptGraph.Proofs.Updates

/-!
# Keeping time

While a walk is made its clock stands still, and all that the walk does to the clock is to leave branches waiting, one
for each round that comes to a pause (`Walk.drive_timers`).  A `Stint` is a walk with the time at which it was made,
and a `History` the stints between two worlds.  What fell due at first and what the stints left waiting is what went
on in other stints and what still waits, each branch with its time (`History.dues`).

So each branch goes on when its clock shows the time of its pause and the delay, no matter how the clock was moved
there.  The pauses on the way to a stint add up to its time (`History.exists_delayed`), and how far an update goes
is in none of these sums.  With `Engine.updates_eq_update` this is `Engine.keeps_time`.
-/

namespace ScriptGraph

/-! ### Several tasks -/

namespace Timers

variable {α : Type}

/-- Schedules tasks with their delays, one after the other. -/
def scheduleAll (ts : Timers α) (tasks : List (Duration × α)) : Timers α :=
  tasks.foldl (fun ts p => ts.schedule p.1 p.2) ts

theorem dues_scheduleAll (ts : Timers α) (tasks : List (Duration × α)) :
    (ts.scheduleAll tasks).dues = (tasks.map fun p => (ts.now + p.1, p.2) : List _) + ts.dues := by
  induction tasks generalizing ts with
  | nil => exact (Multiset.zero_add _).symm
  | cons p tasks ih =>
    have hrest := ih (ts.schedule p.1 p.2)
    rw [dues_schedule] at hrest
    rw [List.map_cons, ← Multiset.cons_coe, Multiset.cons_add, ← Multiset.add_cons]
    exact hrest

theorem tasks_scheduleAll (ts : Timers α) (tasks : List (Duration × α)) :
    (ts.scheduleAll tasks).tasks = (tasks.map (·.2) : List α) + ts.tasks := by
  induction tasks generalizing ts with
  | nil => exact (Multiset.zero_add _).symm
  | cons p tasks ih =>
    have hrest := ih (ts.schedule p.1 p.2)
    rw [tasks_schedule] at hrest
    rw [List.map_cons, ← Multiset.cons_coe, Multiset.cons_add, ← Multiset.add_cons]
    exact hrest

end Timers

/-! ### Pauses -/

/-- How long a chain waits at a node, if it does: at a node of logic that is labelled as a pause and has a delay that
can be read. -/
def Node.pause? (n : Node Float32) : Option Duration :=
  if n.kind = .logic ∧ n.label = "Wait" then Reading.seconds (n.inputValue 0) else none

theorem Node.turn_eq_later_iff {vars : Variables} {n : Node Float32} {delay : Duration} :
    n.turn vars = .later delay ↔ n.pause? = some delay := by
  unfold turn pause?
  cases n.kind with
  | logic =>
    by_cases hlabel : n.label = "Wait"
    · simp only [hlabel, and_self, if_true]
      cases Reading.seconds (n.inputValue 0) <;> simp
    · simp only [hlabel, and_false, if_false, reduceCtorEq, iff_false]
      -- no other label makes a chain wait
      split
      · simp
      · simp
      · split <;> simp
      · simp
      · next h => exact absurd h hlabel
      · simp
  | _ => simp

/-- The pause that a round makes: its delay, and the branch that waits for it. A branch that has no connections to
follow does not wait. -/
def Work.pause? (chain : Nat) (script : Script) : Work → Option (Duration × Continuation)
  | visit i =>
    (script.graph.node? i).bind fun n =>
      if n.targets.isEmpty then none
      else n.pause?.map fun delay => (delay, ⟨chain, script, n.id, n.targets⟩)
  | passes _ _ => none

namespace Walk

variable {host : Host} {chain : Nat} {script : Script} {w : Walk}

private theorem timers_acted (host : Host) (script : Script) (n : Node Float32) (w : Walk) :
    (w.acted host script n).world.timers = w.world.timers := by
  obtain ⟨effects, -, hafter⟩ := w.world.after_act host script.name n
  exact hafter.timers

private theorem timers_visit (host : Host) (chain : Nat) (script : Script) (i : Nat) (w : Walk) :
    (w.visit host chain script i).2.world.timers =
      w.world.timers.scheduleAll ((Work.visit i).pause? chain script).toList := by
  cases hnode : script.graph.node? i with
  | none =>
    rw [visit_of_none hnode, Work.pause?, hnode]
    rfl
  | some n =>
    have hacted := timers_acted host script n w
    rw [visit_of_some hnode, Work.pause?, hnode, Option.bind_some]
    cases hturn : n.turn w.world.vars with
    | later delay =>
      rw [Node.turn_eq_later_iff.1 hturn]
      dsimp only
      split
      · exact hacted
      · rw [Option.map_some, ← hacted]
        rfl
    | _ =>
      have hpause : n.pause? = none := by
        rw [Option.eq_none_iff_forall_ne_some]
        intro delay hdelay
        rw [Node.turn_eq_later_iff.2 hdelay] at hturn
        cases hturn
      rw [hpause, Option.map_none, ite_self]
      exact hacted

/-- All that a walk does to its clock is to leave waiting what pauses. -/
theorem drive_timers (host : Host) (chain : Nat) (script : Script) (stack : List Work) (w : Walk) :
    (drive host chain script stack w).2.world.timers =
      w.world.timers.scheduleAll ((trail host chain script stack w).filterMap (Work.pause? chain script)) := by
  induction stack, w using rounds_induction host chain script with
  | nil w =>
    rw [drive_nil, trail_nil]
    rfl
  | idle source remaining stack w h ih =>
    rw [drive_passes_idle h, trail_passes_idle h]
    exact ih
  | passRefused source remaining stack w v e hnext hcharge =>
    rw [drive_passes_error hnext hcharge, trail_passes_error hnext hcharge]
    obtain ⟨rfl, -, -⟩ := charge_error_iff.1 hcharge
    rfl
  | pass source remaining stack w v hnext hcharge ih =>
    rw [drive_passes_ok hnext hcharge, trail_passes_ok hnext hcharge, List.filterMap_cons_none rfl, ih]
    obtain ⟨rfl, -, -⟩ := charge_ok_iff.1 hcharge
    rfl
  | refused i stack w v e hcharge =>
    rw [drive_visit_error hcharge, trail_visit_error hcharge]
    obtain ⟨rfl, -, -⟩ := charge_error_iff.1 hcharge
    rfl
  | visit i stack w v hcharge ih =>
    rw [drive_visit_ok hcharge, trail_visit_ok hcharge, ih, timers_visit]
    obtain ⟨rfl, -, -⟩ := charge_ok_iff.1 hcharge
    rw [filterMap_cons_toList]
    exact (List.foldl_append ..).symm

theorem outcome_timers (host : Host) (chain : Nat) (script : Script) (node : String) (stack : List Work) (w : Walk) :
    (w.outcome host chain script node stack).timers =
      w.world.timers.scheduleAll ((trail host chain script stack w).filterMap (Work.pause? chain script)) := by
  rw [outcome]
  dsimp only
  rw [finish_timers, drive_timers]

end Walk

/-! ### Stints -/

/-- A walk of a chain at a time: the branch that goes on, unless the chain starts, and the rounds that the meter
allowed. -/
structure Stint where
  clock : Duration
  chain : Nat
  script : Script
  branch : Option Continuation
  moves : List Work

namespace Stint

/-- The pauses of a stint. -/
def pauses (s : Stint) : List (Duration × Continuation) := s.moves.filterMap (Work.pause? s.chain s.script)

/-- The branches that a stint leaves waiting, each with the time of the stint and the delay of its pause. -/
def dues (s : Stint) : List (Duration × Continuation) := s.pauses.map fun p => (s.clock + p.1, p.2)

/-- The branch that goes on in a stint, with the time of the stint. -/
def resumed (s : Stint) : Option (Duration × Continuation) := s.branch.map fun k => (s.clock, k)

end Stint

namespace World

/-- The stint that starts a chain. -/
def firstStint (host : Host) (script : Script) (start : Nat) (w : World) : Stint :=
  ⟨w.timers.now, w.meters.length, script, none, (w.firstPart host script start).moves⟩

/-- The stint in which a branch goes on. -/
def nextStint (host : Host) (k : Continuation) (w : World) : Stint :=
  ⟨w.timers.now, k.chain, k.script, some k, (w.nextPart host k).moves⟩

theorem dues_execute (host : Host) (script : Script) (start : Nat) (w : World) :
    (w.execute host script start).2.timers.dues = (w.firstStint host script start).dues + w.timers.dues := by
  rw [execute_snd, Walk.outcome_timers, Timers.dues_scheduleAll]
  rfl

theorem dues_resume (host : Host) (k : Continuation) (w : World) :
    (w.resume host k).timers.dues = (w.nextStint host k).dues + w.timers.dues := by
  rw [resume_eq, Walk.outcome_timers, Timers.dues_scheduleAll]
  rfl

end World

/-! ### Histories -/

/-- The histories after a world, with their stints.  Chains start at any time, a branch goes on when it is the first
to fall due, and the clock goes on when nothing falls due on the way.  In between the world may change as it likes,
apart from its clock and what waits. -/
inductive History (host : Host) (w₀ : World) : List Stint → World → Prop
  | start : History host w₀ [] w₀
  | execute {stints : List Stint} {w : World} (h : History host w₀ stints w) (script : Script) (start : Nat) :
      History host w₀ (stints ++ [w.firstStint host script start]) (w.execute host script start).2
  | resume {stints : List Stint} {w : World} {target : Duration} {k : Continuation} {rest : Timers Continuation}
      (h : History host w₀ stints w) (htake : w.timers.takeDue target = some (k, rest)) :
      History host w₀ (stints ++ [World.nextStint host k { w with timers := rest }])
        (World.resume host k { w with timers := rest })
  | tick {stints : List Stint} {w : World} {target : Duration} (h : History host w₀ stints w)
      (htake : w.timers.takeDue target = none) : History host w₀ stints (Timers.setNow w target)
  | elsewhere {stints : List Stint} {w w' : World} (h : History host w₀ stints w) (htimers : w'.timers = w.timers) :
      History host w₀ stints w'

/-- The stints that come `origin` and some pauses after the clock began.  The first of them starts a chain or has
waited from the beginning, and each other one goes on with what the one before it left waiting. -/
inductive Delayed (w₀ : World) (stints : List Stint) (origin : Duration) : List Duration → Stint → Prop
  | started {s : Stint} (hs : s ∈ stints) (hbranch : s.branch = none) (hclock : s.clock = origin) :
      Delayed w₀ stints origin [] s
  | waited {s : Stint} {k : Continuation} (hs : s ∈ stints) (hbranch : s.branch = some k) (hclock : s.clock = origin)
      (hdue : (origin, k) ∈ w₀.timers.dues) : Delayed w₀ stints origin [] s
  | paused {pauses : List Duration} {s s' : Stint} {delay : Duration} {k : Continuation}
      (h : Delayed w₀ stints origin pauses s) (hpause : (delay, k) ∈ s.pauses) (hs' : s' ∈ stints)
      (hbranch : s'.branch = some k) (hclock : s'.clock = s.clock + delay) :
      Delayed w₀ stints origin (pauses ++ [delay]) s'

namespace Delayed

variable {w₀ : World} {stints : List Stint} {origin : Duration} {pauses : List Duration} {s : Stint}

theorem append (h : Delayed w₀ stints origin pauses s) (later : List Stint) :
    Delayed w₀ (stints ++ later) origin pauses s := by
  induction h with
  | started hs hbranch hclock => exact .started (List.mem_append_left _ hs) hbranch hclock
  | waited hs hbranch hclock hdue => exact .waited (List.mem_append_left _ hs) hbranch hclock hdue
  | paused _ hpause hs' hbranch hclock ih => exact .paused ih hpause (List.mem_append_left _ hs') hbranch hclock

/-- The pauses on the way to a stint add up. -/
theorem clock_eq (h : Delayed w₀ stints origin pauses s) : s.clock = origin + Duration.total pauses := by
  induction h with
  | started _ _ hclock => rw [hclock, Duration.total, List.foldr_nil, Duration.add_zero]
  | waited _ _ hclock _ => rw [hclock, Duration.total, List.foldr_nil, Duration.add_zero]
  | paused _ _ _ _ hclock ih => rw [hclock, ih, Duration.total_concat, Duration.add_assoc]

end Delayed

namespace History

variable {host : Host} {w₀ w : World} {stints : List Stint}

/-- What fell due at first and what stints left waiting is what went on and what waits. -/
theorem dues (h : History host w₀ stints w) :
    w₀.timers.dues + (stints.flatMap Stint.dues : List _) =
      (stints.filterMap Stint.resumed : List _) + w.timers.dues := by
  induction h with
  | start => exact Multiset.add_comm _ _
  | @execute stints w _ script start ih =>
    have hresumed : (stints ++ [w.firstStint host script start]).filterMap Stint.resumed =
        stints.filterMap Stint.resumed := by
      rw [List.filterMap_append, List.filterMap_cons_none rfl, List.filterMap_nil, List.append_nil]
    rw [hresumed, List.flatMap_append, List.flatMap_singleton, World.dues_execute, ← Multiset.coe_add,
      ← Multiset.add_assoc, ih, Multiset.add_assoc, Multiset.add_comm w.timers.dues]
  | @resume stints w target k rest _ htake ih =>
    have hresumed : (stints ++ [World.nextStint host k { w with timers := rest }]).filterMap Stint.resumed =
        stints.filterMap Stint.resumed ++ [(rest.now, k)] := by
      rw [List.filterMap_append]
      rfl
    -- the branch that waited until now goes on now
    rw [Timers.dues_takeDue htake, ← Multiset.singleton_add] at ih
    rw [hresumed, List.flatMap_append, List.flatMap_singleton, World.dues_resume, ← Multiset.coe_add,
      ← Multiset.coe_add, ← Multiset.add_assoc, ih, Multiset.coe_singleton, Multiset.add_assoc, Multiset.add_assoc,
      Multiset.add_assoc, Multiset.add_comm rest.dues]
  | tick _ _ ih => exact ih
  | elsewhere _ htimers ih => rw [htimers, ih]

/-- A branch that waits fell due at first, or a stint left it waiting. -/
private theorem of_mem_dues (h : History host w₀ stints w) {due : Duration} {k : Continuation}
    (hmem : (due, k) ∈ w.timers.dues) :
    (due, k) ∈ w₀.timers.dues ∨ ∃ s ∈ stints, ∃ delay, (delay, k) ∈ s.pauses ∧ due = s.clock + delay := by
  have hall : (due, k) ∈ w₀.timers.dues + (stints.flatMap Stint.dues : List _) := by
    rw [h.dues]
    exact Multiset.mem_add.2 (.inr hmem)
  rcases Multiset.mem_add.1 hall with hfirst | hstint
  · exact .inl hfirst
  · obtain ⟨s, hs, hdue⟩ := List.mem_flatMap.1 (Multiset.mem_coe.1 hstint)
    obtain ⟨⟨delay, k'⟩, hpause, heq⟩ := List.mem_map.1 hdue
    obtain ⟨rfl, rfl⟩ := Prod.mk.inj heq
    exact .inr ⟨s, hs, delay, hpause, rfl⟩

/-- Each stint comes after the pauses on its way, one after the other. -/
theorem exists_delayed (h : History host w₀ stints w) :
    ∀ s ∈ stints, ∃ origin pauses, Delayed w₀ stints origin pauses s := by
  induction h with
  | start => exact fun s hs => absurd hs List.not_mem_nil
  | @execute stints w _ script start ih =>
    intro s hs
    rcases List.mem_append.1 hs with hold | hnew
    · obtain ⟨origin, pauses, hdelayed⟩ := ih s hold
      exact ⟨origin, pauses, hdelayed.append _⟩
    · rw [List.mem_singleton.1 hnew] at hs ⊢
      exact ⟨w.timers.now, [], .started hs rfl rfl⟩
  | @resume stints w target k rest hhistory htake ih =>
    intro s hs
    rcases List.mem_append.1 hs with hold | hnew
    · obtain ⟨origin, pauses, hdelayed⟩ := ih s hold
      exact ⟨origin, pauses, hdelayed.append _⟩
    · have hdue : (rest.now, k) ∈ w.timers.dues := by
        rw [Timers.dues_takeDue htake]
        exact Multiset.mem_cons_self _ _
      -- the branch waited from the beginning, or since an earlier stint
      rw [List.mem_singleton.1 hnew] at hs ⊢
      rcases hhistory.of_mem_dues hdue with hfirst | ⟨s', hs', delay, hpause, hclock⟩
      · exact ⟨rest.now, [], .waited hs rfl rfl hfirst⟩
      · obtain ⟨origin, pauses, hdelayed⟩ := ih s' hs'
        exact ⟨origin, pauses ++ [delay], .paused (hdelayed.append _) hpause hs rfl hclock⟩
  | tick _ _ ih => exact ih
  | elsewhere _ _ ih => exact ih

/-- When time passes, each part that is resumed is a stint more. -/
theorem advance (h : History host w₀ stints w) (elapsed : Duration) :
    ∃ later, History host w₀ (stints ++ later) (w.advance host elapsed).2 ∧
      later.length = (w.advance host elapsed).1 ∧ ∀ s ∈ later, s.branch.isSome := by
  have hsweep := w.sweepFrom_advance host elapsed
  have hall := Timers.sweepFrom_induction (motive := fun ran _ w' =>
    ∀ stints, History host w₀ stints w' → ∃ later, History host w₀ (stints ++ later) (w.advance host elapsed).2 ∧
      ran + later.length = (w.advance host elapsed).1 ∧ ∀ s ∈ later, s.branch.isSome) ?_ ?_ hsweep stints h
  · obtain ⟨later, hhistory, hcount, hbranches⟩ := hall
    exact ⟨later, hhistory, by rw [← hcount, Nat.zero_add], hbranches⟩
  · intro ran bound w' htake hanswer stints h
    rw [hanswer]
    exact ⟨[], by rw [List.append_nil]; exact h.tick htake, rfl, by simp⟩
  · intro ran bound w' k rest htake ih stints h
    obtain ⟨later, hhistory, hcount, hbranches⟩ := ih _ (h.resume htake)
    refine ⟨World.nextStint host k { w' with timers := rest } :: later, ?_, ?_, ?_⟩
    · rw [List.append_assoc] at hhistory
      exact hhistory
    · rw [List.length_cons, ← hcount]
      omega
    · intro s hs
      rcases List.mem_cons.1 hs with rfl | hs
      · rfl
      · exact hbranches s hs

end History

/-! ### Engines that keep time -/

/-- An engine with a clock of its own keeps time.  It does not matter in how many steps it is updated, only how far
they go together.  In each history all branches go on when the clock shows the time of their pause and the delay, so
the pauses on the way to a stint add up to its time; and an update goes on with the history, by one stint for each
part that it resumes. -/
theorem Engine.keeps_time :
    (∀ (σ : Type) (e : Engine σ) (ds es : List Duration), e.clock = .manual → ds ≠ [] → es ≠ [] →
      Duration.total ds = Duration.total es →
        e.updates ds = e.updates es ∧
        (e.updates ds).2.world.timers.now = e.world.timers.now + Duration.total ds) ∧
    (∀ (host : Host) (w₀ w : World) (stints : List Stint), History host w₀ stints w →
      w₀.timers.dues + (stints.flatMap Stint.dues : List _) =
          (stints.filterMap Stint.resumed : List _) + w.timers.dues ∧
        ∀ s ∈ stints, ∃ origin pauses, Delayed w₀ stints origin pauses s ∧
          s.clock = origin + Duration.total pauses) ∧
    ∀ (σ : Type) (e : Engine σ) (w₀ : World) (stints : List Stint) (elapsed : Duration), e.clock = .manual →
      History e.host w₀ stints e.world → ∃ later,
        History e.host w₀ (stints ++ later) (e.update elapsed).2.world ∧
          later.length = (e.update elapsed).1 ∧ ∀ s ∈ later, s.branch.isSome := by
  refine ⟨?_, ?_, ?_⟩
  · intro σ e ds es hclock hds hes htotal
    have hupdate := updates_eq_update hclock hds
    refine ⟨?_, ?_⟩
    · rw [hupdate, htotal, updates_eq_update hclock hes]
    · rw [hupdate, update_of_manual hclock]
      exact World.now_advance _ _ _
  · intro host w₀ w stints h
    refine ⟨h.dues, fun s hs => ?_⟩
    obtain ⟨origin, pauses, hdelayed⟩ := h.exists_delayed s hs
    exact ⟨origin, pauses, hdelayed, hdelayed.clock_eq⟩
  · intro σ e w₀ stints elapsed hclock h
    rw [update_of_manual hclock]
    exact h.advance elapsed

theorem Engine.keeps_time_spin :
    let host : Host := ⟨2, fun _ _ => .ok ()⟩
    let w := ((World.ofVariables .empty).execute host spin 0).2
    let e : Engine Unit := { Engine.make .default host.dispatch .manual () .empty with host, world := w }
    e.updates [.ofNanos 2] = e.updates [.ofNanos 1, .ofNanos 1] ∧
      ∃ stints, History host (.ofVariables .empty) stints (e.update (.ofNanos 2)).2.world ∧
        ∀ s ∈ stints, ∃ origin pauses, Delayed (.ofVariables .empty) stints origin pauses s ∧
          s.clock = origin + Duration.total pauses := by
  intro host w e
  have hhistory : History host (.ofVariables .empty) [World.firstStint host spin 0 (.ofVariables .empty)] w :=
    .execute .start spin 0
  obtain ⟨later, hlater, -⟩ := keeps_time.2.2 Unit e _ _ (.ofNanos 2) rfl hhistory
  exact ⟨(keeps_time.1 Unit e _ _ rfl (by simp) (by simp) (by decide)).1, _, hlater,
    (keeps_time.2.1 _ _ _ _ hlater).2⟩

end ScriptGraph
