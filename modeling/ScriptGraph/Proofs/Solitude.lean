import ScriptGraph.Proofs.Deeds
import ScriptGraph.Proofs.Timekeeping

/-!
# Chains by themselves

What a chain does until all that is left of it waits depends on the variables and on the actions that the host was
asked for, and on nothing else in the world: not on the other chains, nor on what they left waiting.  Two walks that
agree in this are `Alike`, whatever their chains are called, and they stay alike through all rounds (`Alike.drive`).
 So the first part of a chain is the one that it would have in a world of its own (`firstPart_alone`), and that part
is all that is put to the world (`execute_alone`).
-/

namespace ScriptGraph

/-- Two walks with the same variables, actions of the host and meter, which have added the same to two traces. -/
structure Walk.Alike (before before' : List Effect) (w w' : Walk) : Prop where
  vars : w'.world.vars = w.world.vars
  calls : w'.world.calls = w.world.calls
  trace : ∃ effects, w.world.trace.toList = before ++ effects ∧ w'.world.trace.toList = before' ++ effects
  meter : w'.meter = w.meter
  suspended : w'.suspended = w.suspended

namespace Walk.Alike

variable {before before' : List Effect} {w w' : Walk}

/-! ### Rounds -/

theorem charge {v : Walk} {answer : Except ScriptError Unit} (hw : w.Alike before before' w')
    (hcharge : w.charge = (answer, v)) : ∃ v', w'.charge = (answer, v') ∧ v.Alike before before' v' := by
  unfold Walk.charge at hcharge ⊢
  rw [hw.meter]
  obtain ⟨rfl, rfl⟩ := Prod.mk.inj hcharge
  exact ⟨_, rfl, hw.vars, hw.calls, hw.trace, rfl, hw.suspended⟩

variable (host : Host) (chain chain' : Nat) (script : Script)

theorem acted (hw : w.Alike before before' w') (n : Node Float32) :
    (w.acted host script n).Alike before before' (w'.acted host script n) := by
  obtain ⟨effects, htrace, htrace'⟩ := hw.trace
  unfold Walk.acted
  rw [World.act_eq, World.act_eq, hw.vars]
  refine ⟨rfl, ?_, ?_, hw.meter, hw.suspended⟩
  · simp [World.withDeed, World.emit, World.record, hw.calls]
  · refine ⟨effects ++ .event script.name n.id .executed ::
      (n.deed w.world.vars).effects host.dispatch script.name n.id w.world.calls, ?_, ?_⟩
    · simp [World.withDeed, World.emit, World.record, htrace]
    · simp [World.withDeed, World.emit, World.record, htrace', hw.calls]

theorem suspend (hw : w.Alike before before' w') (node : String) (delay : Duration) (rest : List Nat) :
    (w.suspend chain script node delay rest).Alike before before' (w'.suspend chain' script node delay rest) := by
  obtain ⟨effects, htrace, htrace'⟩ := hw.trace
  refine ⟨hw.vars, hw.calls, ⟨effects ++ [.event script.name node (.suspended delay)], ?_, ?_⟩,
    congrArg Meter.opened hw.meter, congrArg (· + 1) hw.suspended⟩
  · simp [Walk.suspend, World.emit, World.record, htrace]
  · simp [Walk.suspend, World.emit, World.record, htrace']

theorem visit (hw : w.Alike before before' w') (i : Nat) :
    (w'.visit host chain' script i).1 = (w.visit host chain script i).1 ∧
      (w.visit host chain script i).2.Alike before before' (w'.visit host chain' script i).2 := by
  cases hnode : script.graph.node? i with
  | none =>
    rw [visit_of_none hnode, visit_of_none hnode]
    exact ⟨rfl, hw⟩
  | some n =>
    have hacted := hw.acted host script n
    rw [visit_of_some hnode, visit_of_some hnode, hw.vars]
    cases n.turn w.world.vars with
    | later delay =>
      dsimp only
      split
      · exact ⟨rfl, hacted⟩
      · exact ⟨rfl, hacted.suspend chain chain' script n.id delay n.targets⟩
    | _ => exact ⟨rfl, hacted⟩

/-- Walks that are alike make the same rounds, have the same answer, and are alike at their end. -/
theorem drive (stack : List Work) (hw : w.Alike before before' w') :
    (w'.drive host chain' script stack).1 = (w.drive host chain script stack).1 ∧
      (w.drive host chain script stack).2.Alike before before' (w'.drive host chain' script stack).2 ∧
      w'.trail host chain' script stack = w.trail host chain script stack := by
  induction stack, w using rounds_induction host chain script generalizing w' with
  | nil w =>
    rw [drive_nil, drive_nil, trail_nil, trail_nil]
    exact ⟨rfl, hw, rfl⟩
  | idle source remaining stack w hidle ih =>
    rw [drive_passes_idle hidle, drive_passes_idle hidle, trail_passes_idle hidle, trail_passes_idle hidle]
    exact ih hw
  | passRefused source remaining stack w v e hnext hcharge =>
    obtain ⟨v', hcharge', hv⟩ := hw.charge hcharge
    rw [drive_passes_error hnext hcharge, drive_passes_error hnext hcharge', trail_passes_error hnext hcharge,
      trail_passes_error hnext hcharge']
    exact ⟨rfl, hv, rfl⟩
  | pass source remaining stack w v hnext hcharge ih =>
    obtain ⟨v', hcharge', hv⟩ := hw.charge hcharge
    obtain ⟨hanswer, hend, htrail⟩ := ih hv
    rw [drive_passes_ok hnext hcharge, drive_passes_ok hnext hcharge', trail_passes_ok hnext hcharge,
      trail_passes_ok hnext hcharge', htrail]
    exact ⟨hanswer, hend, rfl⟩
  | refused i stack w v e hcharge =>
    obtain ⟨v', hcharge', hv⟩ := hw.charge hcharge
    rw [drive_visit_error hcharge, drive_visit_error hcharge', trail_visit_error hcharge, trail_visit_error hcharge']
    exact ⟨rfl, hv, rfl⟩
  | visit i stack w v hcharge ih =>
    obtain ⟨v', hcharge', hv⟩ := hw.charge hcharge
    obtain ⟨hnext, hvisit⟩ := hv.visit host chain chain' script i
    obtain ⟨hanswer, hend, htrail⟩ := ih hvisit
    rw [drive_visit_ok hcharge, drive_visit_ok hcharge', trail_visit_ok hcharge, trail_visit_ok hcharge', hnext,
      htrail]
    exact ⟨hanswer, hend, rfl⟩

/-- The parts of walks that are alike are the same. -/
theorem ofWalk_eq (stack : List Work) (node : String) (opening : List Effect)
    (hw : w.Alike w.world.trace.toList w'.world.trace.toList w') :
    Part.ofWalk host chain' script node opening stack w' = Part.ofWalk host chain script node opening stack w := by
  obtain ⟨hanswer, hend, htrail⟩ := hw.drive host chain chain' script stack
  obtain ⟨effects, htrace, htrace'⟩ := hend.trace
  unfold Part.ofWalk
  dsimp only
  rw [hanswer, htrail, htrace, htrace', List.drop_left, List.drop_left]
  simp only [Walk.report, hend.meter]

end Walk.Alike

namespace Walk

variable (host : Host) (chain : Nat) (script : Script) (node : String) (stack : List Work) (w : Walk)

/-- The end of a walk changes no variable, and asks the host for nothing. -/
private theorem outcome_vars_calls :
    (w.outcome host chain script node stack).vars = (w.drive host chain script stack).2.world.vars ∧
      (w.outcome host chain script node stack).calls = (w.drive host chain script stack).2.world.calls := by
  unfold outcome finish
  dsimp only
  split <;> split <;> exact ⟨rfl, rfl⟩

end Walk

/-! ### Parts by themselves -/

namespace World

/-- A world in which nothing has happened, but with variables and with actions that the host was asked for. -/
def alone (vars : Variables) (calls : List Call) : World := { ofVariables vars with calls }

variable (host : Host) (script : Script) (start : Nat) (w : World)

theorem alike_entry : (w.entry host).Alike w.trace.toList [] ((alone w.vars w.calls).entry host) :=
  ⟨rfl, rfl, ⟨[], by simp [entry], by simp [entry, alone, ofVariables]⟩, rfl, rfl⟩

/-- The first part of a chain is the same in a world of its own. -/
theorem firstPart_alone :
    (alone w.vars w.calls).firstPart host script start = w.firstPart host script start :=
  Walk.Alike.ofWalk_eq host w.meters.length _ script [.visit start] (nodeName script start) [] (w.alike_entry host)

/-- What a chain leaves waiting is what pauses in its first part. -/
theorem timers_execute : (w.execute host script start).2.timers =
    w.timers.scheduleAll
      ((w.firstPart host script start).moves.filterMap (Work.pause? w.meters.length script)) :=
  Walk.outcome_timers ..

/-- A chain that starts gets the last of all meters. -/
theorem meters_execute : (w.execute host script start).2.meters = w.meters ++
    [((w.entry host).drive host w.meters.length script [.visit start]).2.finalMeter
      ((w.entry host).drive host w.meters.length script [.visit start]).1] := by
  obtain ⟨moves, effects, u, hleads, hworld, -⟩ :=
    (w.entry host).exists_leads host w.meters.length script [.visit start]
  rw [execute_snd, Walk.outcome]
  dsimp only
  rw [Walk.finish_meters, hworld, hleads.meters, entry, List.set_append_right _ _ (Nat.le_refl _), Nat.sub_self]
  rfl

/-- A chain goes as it would in a world of its own: its answer, and what becomes of the variables, of the actions that
the host was asked for and of its meter. -/
theorem execute_alone :
    let solo := (alone w.vars w.calls).execute host script start
    (w.execute host script start).1 = solo.1 ∧ (w.execute host script start).2.vars = solo.2.vars ∧
      (w.execute host script start).2.calls = solo.2.calls ∧
      (w.execute host script start).2.meters = w.meters ++ solo.2.meters := by
  intro solo
  obtain ⟨hanswer, hend, -⟩ := (w.alike_entry host).drive host w.meters.length
    (alone w.vars w.calls).meters.length script [.visit start]
  have hvars (w : World) := ((w.entry host).outcome_vars_calls host w.meters.length script (nodeName script start)
    [.visit start]).1
  have hcalls (w : World) := ((w.entry host).outcome_vars_calls host w.meters.length script (nodeName script start)
    [.visit start]).2
  refine ⟨?_, ?_, ?_, ?_⟩
  · rw [execute_fst, execute_fst, hanswer, hend.meter, hend.suspended]
  · rw [execute_snd, hvars, execute_snd, hvars, hend.vars]
  · rw [execute_snd, hcalls, execute_snd, hcalls, hend.calls]
  · rw [meters_execute, meters_execute, hanswer]
    simp only [Walk.finalMeter, hend.meter]
    rfl

end World

end ScriptGraph
