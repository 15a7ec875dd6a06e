import ScriptGraph.Proofs.Lockstep

/-!
# Hosts that refuse actions

A chain goes on behind an action whether or not the host refuses it, and all that comes of a refusal is that it is
told: a note for the user and an event at the node, right after the call.  `SameButRefusals` relates two traces of
which this is the only difference.  Two plays with any two hosts are in lockstep with this relation, so nothing else
in a play depends on which actions are refused (`World.refusals_steer_nothing`).
-/

namespace ScriptGraph

namespace Effect

/-- Whether an effect comes from asking the host: a call, or the failure of an action. -/
def isAsked : Effect → Bool
  | .call _ | .event _ _ (.failed (.action _)) => true
  | _ => false

/-- Whether an effect may tell of a refusal: a note, or the failure of an action. -/
def mayRefuse : Effect → Bool
  | .note _ | .event _ _ (.failed (.action _)) => true
  | _ => false

theorem isAsked_of_isOuter {e : Effect} (h : e.isOuter) : e.isAsked = false := by
  cases e with
  | event _ _ e => cases e <;> simp_all [isOuter, isAsked]
  | _ => simp_all [isOuter, isAsked]

end Effect

/-- Two traces under two ways to answer actions.  They are the same, but for what is told of a refused action right
after the call.  The lists of calls have the last one first, and those in `before` were made before the traces
begin. -/
inductive SameButRefusals (dispatch dispatch' : List Call → Call → Except ScriptError Unit) (before : List Call) :
    List Call → List Effect → List Effect → Prop
  | nil : SameButRefusals dispatch dispatch' before before [] []
  | alike {calls : List Call} {t t' : List Effect} {e : Effect} (he : e.isAsked = false)
      (h : SameButRefusals dispatch dispatch' before calls t t') :
      SameButRefusals dispatch dispatch' before calls (t ++ [e]) (t' ++ [e])
  | asked {calls : List Call} {t t' : List Effect} (script node : String) (c : Call)
      (h : SameButRefusals dispatch dispatch' before calls t t') :
      SameButRefusals dispatch dispatch' before (c :: calls)
        (t ++ .event script node .executed :: .call c :: Deed.refusal script node c (dispatch calls c))
        (t' ++ .event script node .executed :: .call c :: Deed.refusal script node c (dispatch' calls c))

namespace SameButRefusals

variable {dispatch dispatch' : List Call → Call → Except ScriptError Unit} {before calls : List Call}
  {t t' : List Effect}

theorem append (h : SameButRefusals dispatch dispatch' before calls t t') {effects : List Effect}
    (heffects : ∀ e ∈ effects, e.isAsked = false) :
    SameButRefusals dispatch dispatch' before calls (t ++ effects) (t' ++ effects) := by
  induction effects generalizing t t' with
  | nil =>
    simp only [List.append_nil]
    exact h
  | cons e effects ih =>
    have hrest := ih (h.alike (heffects e List.mem_cons_self)) fun e he => heffects e (List.mem_cons_of_mem _ he)
    simpa only [List.append_assoc, List.singleton_append] using hrest

/-- A deed is the same under both, but for a refusal. -/
theorem act (h : SameButRefusals dispatch dispatch' before calls t t') (script node : String) (d : Deed) :
    SameButRefusals dispatch dispatch' before (d.calls calls)
      (t ++ .event script node .executed :: d.effects dispatch script node calls)
      (t' ++ .event script node .executed :: d.effects dispatch' script node calls) := by
  cases d with
  | ask c => exact h.asked script node c
  | nothing => exact h.append (by simp [Deed.effects, Effect.isAsked])
  | tell text => exact h.append (by simp [Deed.effects, Effect.isAsked])
  | put name value => exact h.append (by simp [Deed.effects, Effect.isAsked])
  | unnamed => exact h.append (by simp [Deed.effects, Effect.isAsked])

private theorem filter_refusal (script node : String) (c : Call) (answer : Except ScriptError Unit) :
    (Deed.refusal script node c answer).filter (!·.mayRefuse) = [] := by
  cases answer with
  | ok => rfl
  | error e => simp [Deed.refusal, Effect.mayRefuse]

/-- Apart from notes and failures of actions the traces are the same. -/
theorem filter_eq (h : SameButRefusals dispatch dispatch' before calls t t') :
    t'.filter (!·.mayRefuse) = t.filter (!·.mayRefuse) := by
  induction h with
  | nil => rfl
  | alike _ _ ih => rw [List.filter_append, List.filter_append, ih]
  | asked script node c _ ih =>
    simp only [List.filter_append, List.filter_cons, filter_refusal, ih]

end SameButRefusals

/-- How scenes are related under two ways to answer actions, since a world. -/
structure World.Unsteered (dispatch dispatch' : List Call → Call → Except ScriptError Unit) (w : World)
    (s s' : Scene) : Prop where
  vars : s'.vars = s.vars
  calls : s'.calls = s.calls
  trace : ∃ later later', s.trace = w.trace.toList ++ later ∧ s'.trace = w.trace.toList ++ later' ∧
    SameButRefusals dispatch dispatch' w.calls s.calls later later'

private theorem World.Unsteered.inStep (limit : Nat) (dispatch dispatch' : List Call → Call → Except ScriptError Unit)
    (w : World) : InStep (w.Unsteered dispatch dispatch') (fun _ => True) ⟨limit, dispatch⟩ ⟨limit, dispatch'⟩ where
  limit := rfl
  turn _ _ hs := by rw [hs.vars]
  after {script n s s'} _ _ hs := by
    obtain ⟨later, later', htrace, htrace', hsame⟩ := hs.trace
    have hact := hsame.act script.name n.id (n.deed s.vars)
    refine ⟨?_, ?_, _, _, ?_, ?_, hact⟩
    · simp only [Scene.after, hs.vars]
    · simp only [Scene.after, hs.vars, hs.calls]
    · simp only [Scene.after, htrace, List.append_assoc]
    · simp only [Scene.after, htrace', hs.vars, hs.calls, List.append_assoc]
  record {e s s'} he hs := by
    obtain ⟨later, later', htrace, htrace', hsame⟩ := hs.trace
    refine ⟨hs.vars, hs.calls, later ++ [e], later' ++ [e], ?_, ?_, hsame.alike (Effect.isAsked_of_isOuter he)⟩
    · simp only [Scene.record, htrace, List.append_assoc]
    · simp only [Scene.record, htrace', List.append_assoc]

/-- Which actions the host refuses steers nothing.  The answer to the start of a chain, the numbers of parts that are
resumed, and the world at the end are the same under any two ways to answer actions, but for the trace.  The traces
are the same, but for what is told of each refused action right after the call.  So apart from notes and failures of
actions the same things happen in the same order: nodes are executed, actions are asked for, variables are set, and
the chain waits, goes on, ends or is stopped. -/
theorem World.refusals_steer_nothing (limit : Nat) (dispatch dispatch' : List Call → Call → Except ScriptError Unit)
    (script : Script) (start : Nat) (ds : List Duration) (w : World) :
    let play := w.play ⟨limit, dispatch⟩ script start ds
    let play' := w.play ⟨limit, dispatch'⟩ script start ds
    play'.answer = play.answer ∧ play'.resumed = play.resumed ∧
      play'.world = { play.world with trace := play'.world.trace } ∧
      SameButRefusals dispatch dispatch' w.calls play.world.calls (w.since play.world) (w.since play'.world) ∧
      (w.since play'.world).filter (!·.mayRefuse) = (w.since play.world).filter (!·.mayRefuse) := by
  intro play play'
  have hstart : Lockstep (w.Unsteered dispatch dispatch') (fun _ => True) w w :=
    ⟨⟨rfl, rfl, [], [], by simp, by simp, .nil⟩, rfl, rfl, fun _ _ => trivial⟩
  obtain ⟨hanswer, hresumed, hend⟩ := (Unsteered.inStep limit dispatch dispatch' w).play start ds trivial hstart
  obtain ⟨later, later', htrace, htrace', hsame⟩ := hend.scene.trace
  have hvars : play'.world.vars = play.world.vars := hend.scene.vars
  have hcalls : play'.world.calls = play.world.calls := hend.scene.calls
  have htimers : play'.world.timers = play.world.timers := hend.timers
  have hmeters : play'.world.meters = play.world.meters := hend.meters
  refine ⟨hanswer, hresumed, ?_, ?_⟩
  · dsimp only
    rw [← hvars, ← hcalls, ← htimers, ← hmeters]
  · rw [since_eq htrace, since_eq htrace']
    exact ⟨hsame, hsame.filter_eq⟩

end ScriptGraph
