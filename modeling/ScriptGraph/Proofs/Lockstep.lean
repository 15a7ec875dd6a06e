import ScriptGraph.Proofs.Plays

/-!
# Plays in lockstep

Two plays of a script may have different variables, or hosts that answer differently, and still go the same way.  A
`Scene` is what nodes see and change of the world: the variables, the actions that the host was asked for, and the
trace.  What has to be shown of a relation of scenes is in `InStep`, and it is about single nodes only: related scenes
lead to the same turn, and the node leaves related scenes behind.  Then the two worlds are in lockstep all the time,
through every walk (`InStep.drive`) and every step of the clock (`InStep.advance`), and so are whole plays
(`InStep.play`).
-/

namespace ScriptGraph

/-- What nodes see and change of the world. -/
structure Scene where
  vars : Variables
  calls : List Call
  trace : List Effect

namespace Scene

/-- Writes down an effect. -/
def record (s : Scene) (e : Effect) : Scene := { s with trace := s.trace ++ [e] }

/-- The scene after a chain came to a node. -/
def after (host : Host) (script : String) (n : Node Float32) (s : Scene) : Scene where
  vars := n.varsAfter s.vars
  calls := (n.deed s.vars).calls s.calls
  trace := s.trace ++ .event script n.id .executed :: (n.deed s.vars).effects host.dispatch script n.id s.calls

end Scene

namespace World

/-- What nodes see of a world. -/
def scene (w : World) : Scene := ⟨w.vars, w.calls, w.trace.toList⟩

@[simp]
theorem vars_scene (w : World) : w.scene.vars = w.vars := rfl

@[simp]
theorem calls_scene (w : World) : w.scene.calls = w.calls := rfl

@[simp]
theorem trace_scene (w : World) : w.scene.trace = w.trace.toList := rfl

theorem scene_record (w : World) (e : Effect) : (w.record e).scene = w.scene.record e := by
  simp [scene, record, Scene.record]

theorem scene_act (host : Host) (script : String) (n : Node Float32) (w : World) :
    (w.act host script n).2.scene = w.scene.after host script n := by
  rw [act_eq]
  simp [scene, withDeed, emit, record, Scene.after]

end World

/-- Whether an effect is of the chain as a whole, and not of one of its nodes. -/
def Effect.isOuter : Effect → Bool
  | .note _ | .event _ _ (.started _) | .event _ _ (.suspended _) | .event _ _ .resumed => true
  | .event _ _ (.aborted _) | .event _ _ (.finished _) => true
  | _ => false

section

variable (R : Scene → Scene → Prop) (ok : Script → Prop)

/-- Two worlds that go the same way.  Their scenes are related, and all that waits is of scripts in `ok`. -/
structure Lockstep (w w' : World) : Prop where
  scene : R w.scene w'.scene
  timers : w'.timers = w.timers
  meters : w'.meters = w.meters
  waits : ∀ k ∈ w.timers.tasks, ok k.script

/-- What keeps worlds with two hosts in lockstep: no node of a script in `ok` tells related scenes apart. -/
structure InStep (host host' : Host) : Prop where
  limit : host'.limit = host.limit
  turn : ∀ {script n s s'}, ok script → n ∈ script.graph.nodes → R s s' → n.turn s'.vars = n.turn s.vars
  after : ∀ {script n s s'}, ok script → n ∈ script.graph.nodes → R s s' →
    R (s.after host script.name n) (s'.after host' script.name n)
  record : ∀ {e s s'}, e.isOuter → R s s' → R (s.record e) (s'.record e)

/-- Two walks in lockstep. -/
structure Walk.Beside (w w' : Walk) : Prop where
  world : Lockstep R ok w.world w'.world
  meter : w'.meter = w.meter
  suspended : w'.suspended = w.suspended

end

variable {R : Scene → Scene → Prop} {ok : Script → Prop}

theorem Lockstep.schedule {w w' : World} {k : Continuation} (delay : Duration) (hk : ok k.script)
    (hw : Lockstep R ok w w') :
    Lockstep R ok { w with timers := w.timers.schedule delay k }
      { w' with timers := w'.timers.schedule delay k } where
  scene := hw.scene
  timers := by rw [hw.timers]
  meters := hw.meters
  waits j hj := by
    rw [Timers.tasks_schedule, Multiset.mem_cons] at hj
    rcases hj with rfl | hj
    · exact hk
    · exact hw.waits j hj

theorem Walk.Beside.charge {w w' v : Walk} {answer : Except ScriptError Unit} (hw : w.Beside R ok w')
    (hcharge : w.charge = (answer, v)) : ∃ v', w'.charge = (answer, v') ∧ v.Beside R ok v' := by
  unfold Walk.charge at hcharge ⊢
  rw [hw.meter]
  obtain ⟨rfl, rfl⟩ := Prod.mk.inj hcharge
  exact ⟨_, rfl, hw.world, rfl, hw.suspended⟩

namespace InStep

variable {host host' : Host} (h : InStep R ok host host')

include h

theorem worldRecord {w w' : World} {e : Effect} (he : e.isOuter) (hw : Lockstep R ok w w') :
    Lockstep R ok (w.record e) (w'.record e) where
  scene := by
    rw [World.scene_record, World.scene_record]
    exact h.record he hw.scene
  timers := hw.timers
  meters := hw.meters
  waits := hw.waits

/-! ### Walks -/

theorem acted {script : Script} {n : Node Float32} {w w' : Walk} (hok : ok script) (hn : n ∈ script.graph.nodes)
    (hw : w.Beside R ok w') : (w.acted host script n).Beside R ok (w'.acted host' script n) := by
  have hscene : R (w.acted host script n).world.scene (w'.acted host' script n).world.scene := by
    unfold Walk.acted
    rw [World.scene_act, World.scene_act]
    exact h.after hok hn hw.world.scene
  have hacted (host : Host) (w : Walk) : (w.acted host script n).world.timers = w.world.timers ∧
      (w.acted host script n).world.meters = w.world.meters := by
    unfold Walk.acted
    rw [World.act_eq]
    exact ⟨rfl, rfl⟩
  refine ⟨⟨hscene, ?_, ?_, ?_⟩, hw.meter, hw.suspended⟩
  · rw [(hacted host w).1, (hacted host' w').1, hw.world.timers]
  · rw [(hacted host w).2, (hacted host' w').2, hw.world.meters]
  · rw [(hacted host w).1]
    exact hw.world.waits

theorem suspend {script : Script} {w w' : Walk} (chain : Nat) (node : String) (delay : Duration) (rest : List Nat)
    (hok : ok script) (hw : w.Beside R ok w') :
    (w.suspend chain script node delay rest).Beside R ok (w'.suspend chain script node delay rest) where
  world := (h.worldRecord rfl hw.world).schedule delay hok
  meter := congrArg Meter.opened hw.meter
  suspended := congrArg (· + 1) hw.suspended

theorem visit {script : Script} {w w' : Walk} (chain i : Nat) (hok : ok script) (hw : w.Beside R ok w') :
    (w'.visit host' chain script i).1 = (w.visit host chain script i).1 ∧
      (w.visit host chain script i).2.Beside R ok (w'.visit host' chain script i).2 := by
  cases hnode : script.graph.node? i with
  | none =>
    rw [Walk.visit_of_none hnode, Walk.visit_of_none hnode]
    exact ⟨rfl, hw⟩
  | some n =>
    have hn : n ∈ script.graph.nodes := List.mem_of_getElem? hnode
    have hacted := h.acted hok hn hw
    have hturn := h.turn hok hn hw.world.scene
    rw [World.vars_scene, World.vars_scene] at hturn
    rw [Walk.visit_of_some hnode, Walk.visit_of_some hnode, hturn]
    cases n.turn w.world.vars with
    | later delay =>
      dsimp only
      by_cases hnext : n.targets.isEmpty = true
      · rw [if_pos hnext, if_pos hnext]
        exact ⟨rfl, hacted⟩
      · rw [if_neg hnext, if_neg hnext]
        exact ⟨rfl, h.suspend chain n.id delay n.targets hok hacted⟩
    | _ => exact ⟨rfl, hacted⟩

/-- Walks in lockstep have the same answer, and are in lockstep at their end. -/
theorem drive {script : Script} (chain : Nat) (hok : ok script) (stack : List Work) {w w' : Walk}
    (hw : w.Beside R ok w') :
    (w'.drive host' chain script stack).1 = (w.drive host chain script stack).1 ∧
      (w.drive host chain script stack).2.Beside R ok (w'.drive host' chain script stack).2 := by
  induction stack, w using Walk.rounds_induction host chain script generalizing w' with
  | nil w =>
    rw [Walk.drive_nil, Walk.drive_nil]
    exact ⟨rfl, hw⟩
  | idle source remaining stack w hidle ih =>
    rw [Walk.drive_passes_idle hidle, Walk.drive_passes_idle hidle]
    exact ih hw
  | passRefused source remaining stack w v e hnext hcharge =>
    obtain ⟨v', hcharge', hv⟩ := hw.charge hcharge
    rw [Walk.drive_passes_error hnext hcharge, Walk.drive_passes_error hnext hcharge']
    exact ⟨rfl, hv⟩
  | pass source remaining stack w v hnext hcharge ih =>
    obtain ⟨v', hcharge', hv⟩ := hw.charge hcharge
    rw [Walk.drive_passes_ok hnext hcharge, Walk.drive_passes_ok hnext hcharge']
    exact ih hv
  | refused i stack w v e hcharge =>
    obtain ⟨v', hcharge', hv⟩ := hw.charge hcharge
    rw [Walk.drive_visit_error hcharge, Walk.drive_visit_error hcharge']
    exact ⟨rfl, hv⟩
  | visit i stack w v hcharge ih =>
    obtain ⟨v', hcharge', hv⟩ := hw.charge hcharge
    obtain ⟨hnext, hvisit⟩ := h.visit chain i hok hv
    rw [Walk.drive_visit_ok hcharge, Walk.drive_visit_ok hcharge', hnext]
    exact ih hvisit

theorem finish {w w' : Walk} (chain : Nat) (script node : String) (answer : Except ScriptError Unit)
    (hw : w.Beside R ok w') :
    Lockstep R ok (w.finish chain script node answer) (w'.finish chain script node answer) := by
  have hset (m : Meter) : Lockstep R ok (w.world.setMeter chain m) (w'.world.setMeter chain m) :=
    ⟨hw.world.scene, hw.world.timers, congrArg (List.set · chain m) hw.world.meters, hw.world.waits⟩
  unfold Walk.finish
  rw [hw.meter]
  cases answer with
  | ok =>
    dsimp only
    split
    · exact h.worldRecord rfl (hset _)
    · exact hset _
  | error e =>
    dsimp only
    split
    · exact hset _
    · exact h.worldRecord rfl (h.worldRecord rfl (hset _))

theorem outcome {script : Script} {w w' : Walk} (chain : Nat) (hok : ok script) (node : String) (stack : List Work)
    (hw : w.Beside R ok w') :
    Lockstep R ok (w.outcome host chain script node stack) (w'.outcome host' chain script node stack) := by
  obtain ⟨hanswer, hdrive⟩ := h.drive chain hok stack hw
  unfold Walk.outcome
  dsimp only
  rw [hanswer]
  exact h.finish chain script.name node _ hdrive

/-! ### Plays -/

theorem execute {script : Script} {w w' : World} (hok : ok script) (start : Nat) (hw : Lockstep R ok w w') :
    (w'.execute host' script start).1 = (w.execute host script start).1 ∧
      Lockstep R ok (w.execute host script start).2 (w'.execute host' script start).2 := by
  have hentry : (w.entry host).Beside R ok (w'.entry host') := by
    unfold World.entry
    rw [h.limit, hw.meters]
    exact ⟨⟨hw.scene, hw.timers, rfl, hw.waits⟩, rfl, rfl⟩
  obtain ⟨hanswer, hdrive⟩ := h.drive w.meters.length hok [.visit start] hentry
  refine ⟨?_, ?_⟩
  · rw [World.execute_fst, World.execute_fst, hw.meters, hanswer, hdrive.meter, hdrive.suspended]
  · rw [World.execute_snd, World.execute_snd, hw.meters]
    exact h.outcome _ hok _ _ hentry

theorem resume {k : Continuation} {w w' : World} (hok : ok k.script) (hw : Lockstep R ok w w') :
    Lockstep R ok (w.resume host k) (w'.resume host' k) := by
  rw [World.resume_eq, World.resume_eq]
  refine h.outcome _ hok _ _ ⟨h.worldRecord rfl hw, ?_, rfl⟩
  simp only [World.reentry, World.meter, hw.meters]

theorem advance {w w' : World} (elapsed : Duration) (hw : Lockstep R ok w w') :
    (w'.advance host' elapsed).1 = (w.advance host elapsed).1 ∧
      Lockstep R ok (w.advance host elapsed).2 (w'.advance host' elapsed).2 := by
  have hsweep := w.sweepFrom_advance host elapsed
  have hsweep' := w'.sweepFrom_advance host' elapsed
  rw [hw.timers] at hsweep'
  -- worlds in lockstep never part
  have hpair := Timers.sweepFrom_pair (R := Lockstep R ok) (Q := fun _ _ => False) (fun _ _ hs => hs.timers) ?_
    (fun _ _ _ _ hs => hs.elim) (fun _ _ _ _ hs => hs.elim) ?_ (fun _ _ hs => hs.elim) (fun _ _ hs => hs.elim) hw
    hsweep hsweep'
  · exact hpair.resolve_right id
  · intro s s' k rest hs htake
    have htasks : s.timers.tasks = k ::ₘ rest.tasks := Timers.tasks_takeDue htake
    have hrest : Lockstep R ok (Clocked.withTimers s rest) (Clocked.withTimers s' rest) :=
      ⟨hs.scene, rfl, hs.meters, fun j hj => hs.waits j (htasks ▸ Multiset.mem_cons_of_mem hj)⟩
    exact .inl (h.resume (hs.waits k (htasks ▸ Multiset.mem_cons_self k _)) hrest)
  · intro s s' hs
    have htimers : s'.timers = s.timers := hs.timers
    refine ⟨hs.scene, ?_, hs.meters, hs.waits⟩
    simp only [Timers.setNow, Clocked.timers, Clocked.withTimers, htimers]

theorem advances (ds : List Duration) {w w' : World} (hw : Lockstep R ok w w') :
    (w'.advances host' ds).1 = (w.advances host ds).1 ∧
      Lockstep R ok (w.advances host ds).2 (w'.advances host' ds).2 := by
  induction ds generalizing w w' with
  | nil => exact ⟨rfl, hw⟩
  | cons d ds ih =>
    obtain ⟨hcount, hadvance⟩ := h.advance d hw
    obtain ⟨hcounts, hrest⟩ := ih hadvance
    refine ⟨?_, hrest⟩
    simp only [World.advances, hcount, hcounts]

/-- Plays from worlds in lockstep have the same answers, and are in lockstep at their end. -/
theorem play {script : Script} (start : Nat) (ds : List Duration) {w w' : World} (hok : ok script)
    (hw : Lockstep R ok w w') :
    (w'.play host' script start ds).answer = (w.play host script start ds).answer ∧
      (w'.play host' script start ds).resumed = (w.play host script start ds).resumed ∧
      Lockstep R ok (w.play host script start ds).world (w'.play host' script start ds).world := by
  obtain ⟨hanswer, hexecute⟩ := h.execute hok start hw
  exact ⟨hanswer, h.advances ds hexecute⟩

end InStep

end ScriptGraph
