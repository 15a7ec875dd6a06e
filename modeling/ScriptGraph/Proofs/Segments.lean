import ScriptGraph.Proofs.WaitingTasks
import ScriptGraph.Proofs.Walks

/-!
# What a walk leaves behind

A walk changes the world in few ways: it adds effects to the trace, it leaves branches waiting, and it changes the
meter of its chain.  `Walk.Leads` says how these belong together, and it holds of the rounds of every walk that the
meter allows (`Walk.drive_leads`): each round is a visit more on the meter, each round that comes to a node executes
it once, and each execution leaves one branch waiting at most.
-/

namespace ScriptGraph

/-! ### Kinds of effects -/

namespace Effect

/-- Whether a chain comes to a node. -/
def isExecuted : Effect → Bool
  | event _ _ .executed => true
  | _ => false

/-- Whether a branch begins to wait. -/
def isSuspended : Effect → Bool
  | event _ _ (.suspended _) => true
  | _ => false

/-- Whether a chain comes to its end, either way. -/
def isTerminal : Effect → Bool
  | event _ _ (.finished _) | event _ _ (.aborted _) => true
  | _ => false

/-- Whether a node has the effect by itself. -/
def isInner : Effect → Bool
  | note _ | call _ | assign _ _ | event _ _ (.notified _) | event _ _ (.failed _) => true
  | event _ _ _ => false

theorem kinds_of_isInner {e : Effect} (h : e.isInner) :
    e.isExecuted = false ∧ e.isSuspended = false ∧ e.isTerminal = false := by
  cases e with
  | event _ _ e => cases e <;> simp_all [isInner, isExecuted, isSuspended, isTerminal]
  | _ => exact ⟨rfl, rfl, rfl⟩

private theorem counts_of_isInner {effects : List Effect} (h : ∀ e ∈ effects, e.isInner) :
    effects.countP isExecuted = 0 ∧ effects.countP isSuspended = 0 ∧ ∀ e ∈ effects, e.isTerminal = false := by
  refine ⟨?_, ?_, fun e he => (kinds_of_isInner (h e he)).2.2⟩
  · rw [List.countP_eq_zero]
    intro e he
    simp [(kinds_of_isInner (h e he)).1]
  · rw [List.countP_eq_zero]
    intro e he
    simp [(kinds_of_isInner (h e he)).2.1]

end Effect

/-! ### The effects of a node -/

namespace World

/-- Some effects are all that is between two worlds, but for the variables and the answers of the host. -/
structure After (effects : List Effect) (w w' : World) : Prop where
  trace : w'.trace.toList = w.trace.toList ++ effects
  timers : w'.timers = w.timers
  meters : w'.meters = w.meters

namespace After

variable {w w' w'' : World} {effects effects' : List Effect}

theorem refl (w : World) : After [] w w := ⟨by simp, rfl, rfl⟩

theorem trans (h : After effects w w') (h' : After effects' w' w'') : After (effects ++ effects') w w'' :=
  ⟨by rw [h'.trace, h.trace, List.append_assoc], h'.timers.trans h.timers, h'.meters.trans h.meters⟩

end After

theorem after_record (w : World) (e : Effect) : After [e] w (w.record e) :=
  ⟨by simp [record], rfl, rfl⟩

theorem after_noteLookups (w : World) (names : List String) : After [] w (w.noteLookups names) :=
  ⟨by simp [noteLookups], rfl, rfl⟩

theorem after_notify (w : World) (script node text : String) :
    After [.note text, .event script node (.notified text)] w (w.notify script node text) :=
  (w.after_record _).trans (after_record _ _)

theorem after_assign (w : World) (name value : String) : After [.assign name value] w (w.assign name value) :=
  ⟨(w.after_record _).trace, rfl, rfl⟩

theorem after_call (host : Host) (c : Call) (w : World) : After [.call c] w (w.call host c).2 :=
  ⟨(w.after_record _).trace, rfl, rfl⟩

private theorem after_runAction (host : Host) (script : String) (n : Node Float32) (w : World) :
    ∃ effects, (∀ e ∈ effects, e.isInner) ∧ After effects w (w.runAction host script n) := by
  unfold runAction
  split
  · split
    · exact ⟨_, by simp [Effect.isInner], (w.after_noteLookups _).trans (after_notify _ _ _ _)⟩
    · exact ⟨_, by simp [Effect.isInner], w.after_notify _ _ _⟩
  · dsimp only
    have hcall := (w.after_noteLookups (Interpolation.namesOfInputs n.inputs)).trans
      (after_call host ⟨n.label, Interpolation.interpolateInputs w.vars n.inputs⟩ _)
    split
    · next h =>
      rw [h] at hcall
      exact ⟨_, by simp [Effect.isInner], hcall⟩
    · next h =>
      rw [h] at hcall
      exact ⟨_, by simp [Effect.isInner], hcall.trans ((after_record _ _).trans (after_record _ _))⟩

private theorem after_runLogic (script : String) (n : Node Float32) (w : World) :
    ∃ effects, (∀ e ∈ effects, e.isInner) ∧ After effects w (w.runLogic script n).2 := by
  unfold runLogic
  split
  · exact ⟨[], by simp, .refl w⟩
  · split <;> exact ⟨[], by simp, .refl w⟩
  · exact ⟨[], by simp, w.after_noteLookups _⟩
  · exact ⟨[], by simp, .refl w⟩
  · dsimp only
    split
    · exact ⟨_, by simp [Effect.isInner], w.after_record _⟩
    · exact ⟨_, by simp [Effect.isInner], (w.after_noteLookups _).trans (after_assign _ _ _)⟩
  · exact ⟨_, by simp [Effect.isInner], (w.after_noteLookups _).trans (after_notify _ _ _ _)⟩

/-- A node is executed once, and what it does by itself comes after that. -/
theorem after_act (host : Host) (script : String) (n : Node Float32) (w : World) :
    ∃ effects, (∀ e ∈ effects, e.isInner) ∧
      After (.event script n.id .executed :: effects) w (w.act host script n).2 := by
  have hemit := w.after_record (.event script n.id .executed)
  unfold act
  cases n.kind with
  | action =>
    obtain ⟨effects, hinner, hafter⟩ := after_runAction host script n (w.emit script n.id .executed)
    exact ⟨effects, hinner, hemit.trans hafter⟩
  | logic =>
    obtain ⟨effects, hinner, hafter⟩ := after_runLogic script n (w.emit script n.id .executed)
    exact ⟨effects, hinner, hemit.trans hafter⟩
  | _ => exact ⟨[], by simp, hemit⟩

end World

/-! ### Rounds that the meter allows -/

namespace Work

/-- Whether a round is a pass of a loop. -/
def isPass : Work → Bool
  | passes _ _ => true
  | visit _ => false

/-- Whether a round comes to a node that exists. -/
def isMet (script : Script) : Work → Bool
  | visit i => (script.graph.node? i).isSome
  | passes _ _ => false

/-- A round comes to a node or is a pass, but not both. -/
theorem countP_isMet_add_le (script : Script) (moves : List Work) :
    moves.countP (isMet script) + moves.countP isPass ≤ moves.length := by
  induction moves with
  | nil => simp
  | cons m moves ih =>
    rw [List.countP_cons, List.countP_cons, List.length_cons]
    cases m with
    | visit i =>
      have : (if isMet script (visit i) then 1 else 0) ≤ 1 := by split <;> omega
      simp only [isPass, Bool.false_eq_true, if_false]
      omega
    | passes source remaining =>
      simp only [isMet, isPass, Bool.false_eq_true, if_false, if_true]
      omega

end Work

/-- What waits is the rest of a branch of a chain: the connections of a node, at least one. -/
structure Continuation.IsRest (chain : Nat) (script : Script) (k : Continuation) : Prop where
  chain_eq : k.chain = chain
  script_eq : k.script = script
  rest_ne : k.rest ≠ []
  rest_eq : ∃ n ∈ script.graph.nodes, k.rest = n.targets

namespace Walk

/-- One walk comes from another by rounds that the meter allowed. -/
structure Leads (chain : Nat) (script : Script) (moves : List Work) (effects : List Effect) (w v : Walk) : Prop where
  trace : v.world.trace.toList = w.world.trace.toList ++ effects
  meters : v.world.meters = w.world.meters
  limit : v.meter.limit = w.meter.limit
  tripped : v.meter.tripped = w.meter.tripped
  visits : v.meter.visits = w.meter.visits + moves.length
  allowed : moves ≠ [] → v.meter.visits ≤ v.meter.limit ∧ v.meter.tripped = false
  live : v.meter.live = w.meter.live + effects.countP Effect.isSuspended
  executed : effects.countP Effect.isExecuted = moves.countP (Work.isMet script)
  suspended : effects.countP Effect.isSuspended ≤ effects.countP Effect.isExecuted
  quiet : ∀ e ∈ effects, e.isTerminal = false
  waiting : ∃ rests : Multiset Continuation, v.world.timers.tasks = rests + w.world.timers.tasks ∧
    rests.card = effects.countP Effect.isSuspended ∧ ∀ k ∈ rests, k.IsRest chain script

namespace Leads

variable {chain : Nat} {script : Script} {moves moves' : List Work} {effects effects' : List Effect} {w v u : Walk}

theorem refl (w : Walk) : Leads chain script [] [] w w where
  trace := by simp
  meters := rfl
  limit := rfl
  tripped := rfl
  visits := rfl
  allowed := by simp
  live := rfl
  executed := rfl
  suspended := Nat.le_refl _
  quiet := by simp
  waiting := ⟨0, by simp, rfl, by simp⟩

theorem trans (h : Leads chain script moves effects w v) (h' : Leads chain script moves' effects' v u) :
    Leads chain script (moves ++ moves') (effects ++ effects') w u where
  trace := by rw [h'.trace, h.trace, List.append_assoc]
  meters := h'.meters.trans h.meters
  limit := h'.limit.trans h.limit
  tripped := h'.tripped.trans h.tripped
  visits := by rw [h'.visits, h.visits, List.length_append, Nat.add_assoc]
  allowed hne := by
    -- the last of all rounds is in the second walk, unless that has none
    by_cases hmoves' : moves' = []
    · subst hmoves'
      have hvisits := h'.visits
      rw [List.length_nil, Nat.add_zero] at hvisits
      rw [List.append_nil] at hne
      rw [hvisits, h'.limit, h'.tripped]
      exact h.allowed hne
    · exact h'.allowed hmoves'
  live := by rw [h'.live, h.live, List.countP_append, Nat.add_assoc]
  executed := by rw [List.countP_append, List.countP_append, h.executed, h'.executed]
  suspended := by
    have := h.suspended
    have := h'.suspended
    rw [List.countP_append, List.countP_append]
    omega
  quiet e he := (List.mem_append.1 he).elim (h.quiet e) (h'.quiet e)
  waiting := by
    obtain ⟨rests, htasks, hcard, hrests⟩ := h.waiting
    obtain ⟨rests', htasks', hcard', hrests'⟩ := h'.waiting
    refine ⟨rests' + rests, ?_, ?_, ?_⟩
    · rw [htasks', htasks, Multiset.add_assoc]
    · rw [Multiset.card_add, List.countP_append, hcard, hcard', Nat.add_comm]
    · intro k hk
      exact (Multiset.mem_add.1 hk).elim (hrests' k) (hrests k)

end Leads

variable {chain : Nat} {script : Script} {w v : Walk}

private theorem leads_charged {m : Work} (h : w.charge = (.ok (), v)) (hm : m.isMet script = false) :
    Leads chain script [m] [] w v := by
  obtain ⟨rfl, hlt, htripped⟩ := charge_ok_iff.1 h
  exact {
    trace := by simp [charged]
    meters := rfl
    limit := rfl
    tripped := rfl
    visits := rfl
    allowed := fun _ => ⟨hlt, htripped⟩
    live := rfl
    executed := by simp [hm]
    suspended := Nat.le_refl _
    quiet := by simp
    waiting := ⟨0, by simp [charged], rfl, by simp⟩ }

private theorem leads_acted (host : Host) (chain : Nat) {i : Nat} {n : Node Float32} (h : w.charge = (.ok (), v))
    (hnode : script.graph.node? i = some n) :
    ∃ effects, effects.countP Effect.isSuspended = 0 ∧
      Leads chain script [.visit i] (.event script.name n.id .executed :: effects) w (v.acted host script n) := by
  obtain ⟨rfl, hlt, htripped⟩ := charge_ok_iff.1 h
  obtain ⟨effects, hinner, hafter⟩ := w.world.after_act host script.name n
  obtain ⟨hexecuted, hsuspended, hquiet⟩ := Effect.counts_of_isInner hinner
  refine ⟨effects, hsuspended, ?_⟩
  exact {
    trace := hafter.trace
    meters := hafter.meters
    limit := rfl
    tripped := rfl
    visits := rfl
    allowed := fun _ => ⟨hlt, htripped⟩
    live := by simp [charged, acted, Effect.isSuspended, hsuspended]
    executed := by simp [List.countP_cons, Effect.isExecuted, Work.isMet, hexecuted, hnode]
    suspended := by simp [Effect.isSuspended, hsuspended]
    quiet := by simpa [Effect.isTerminal] using hquiet
    waiting := ⟨0, by simp [charged, acted, hafter.timers], by simp [Effect.isSuspended, hsuspended], by simp⟩ }

private theorem leads_suspend {i : Nat} {n : Node Float32} {delay : Duration} {effects : List Effect}
    (h : Leads chain script [.visit i] (.event script.name n.id .executed :: effects) w v)
    (hsuspended : effects.countP Effect.isSuspended = 0) (hnode : script.graph.node? i = some n)
    (hnext : n.targets ≠ []) :
    Leads chain script [.visit i]
      (.event script.name n.id .executed :: effects ++ [.event script.name n.id (.suspended delay)]) w
      (v.suspend chain script n.id delay n.targets) where
  trace := by
    simp only [suspend, World.emit, World.record, Array.toList_push, h.trace, List.append_assoc]
  meters := h.meters
  limit := h.limit
  tripped := h.tripped
  visits := h.visits
  allowed := h.allowed
  live := by
    rw [List.countP_append, ← Nat.add_assoc, ← h.live]
    rfl
  executed := by
    rw [List.countP_append, h.executed]
    rfl
  suspended := by
    -- the branch that waits is paid for by the execution of its node
    rw [List.countP_append, List.countP_append]
    simp only [List.countP_cons, List.countP_nil, Effect.isSuspended, Effect.isExecuted, hsuspended, if_true,
      Bool.false_eq_true, if_false]
    omega
  quiet e he := by
    rcases List.mem_append.1 he with he | he
    · exact h.quiet e he
    · rw [List.mem_singleton.1 he]
      rfl
  waiting := by
    obtain ⟨rests, htasks, hcard, hrests⟩ := h.waiting
    have hmem : n ∈ script.graph.nodes := List.mem_of_getElem? hnode
    refine ⟨⟨chain, script, n.id, n.targets⟩ ::ₘ rests, ?_, ?_, ?_⟩
    · simp only [suspend, Timers.tasks_schedule, World.emit, World.record, htasks, Multiset.cons_add]
    · simp_all [Effect.isSuspended]
    · intro k hk
      rcases Multiset.mem_cons.1 hk with rfl | hk
      · exact ⟨rfl, rfl, hnext, n, hmem, rfl⟩
      · exact hrests k hk

private theorem leads_visit (host : Host) (chain : Nat) (script : Script) (i : Nat) (h : w.charge = (.ok (), v)) :
    ∃ effects, Leads chain script [.visit i] effects w (v.visit host chain script i).2 := by
  cases hnode : script.graph.node? i with
  | none =>
    rw [visit_of_none hnode]
    exact ⟨[], leads_charged h (by simp [Work.isMet, hnode])⟩
  | some n =>
    obtain ⟨effects, hsuspended, hacted⟩ := leads_acted host chain h hnode
    rw [visit_of_some hnode]
    split
    · exact ⟨_, hacted⟩
    · exact ⟨_, hacted⟩
    · exact ⟨_, hacted⟩
    · split
      · exact ⟨_, hacted⟩
      · next hnext => exact ⟨_, leads_suspend hacted hsuspended hnode (by simpa using hnext)⟩

/-- A walk goes through its trail, and then it is complete or the meter refuses the next round. -/
theorem drive_leads (host : Host) (chain : Nat) (script : Script) (stack : List Work) (w : Walk) :
    ∃ effects u, Leads chain script (trail host chain script stack w) effects w u ∧
      (drive host chain script stack w = (.ok (), u) ∨
        ∃ e v, u.charge = (.error e, v) ∧ drive host chain script stack w = (.error e, v)) := by
  induction stack, w using rounds_induction host chain script with
  | nil w => exact ⟨[], w, by rw [trail_nil]; exact .refl w, .inl drive_nil⟩
  | idle source remaining stack w h ih =>
    rw [trail_passes_idle h, drive_passes_idle h]
    exact ih
  | passRefused source remaining stack w v e hnext hcharge =>
    rw [trail_passes_error hnext hcharge, drive_passes_error hnext hcharge]
    exact ⟨[], w, .refl w, .inr ⟨e, v, hcharge, rfl⟩⟩
  | pass source remaining stack w v hnext hcharge ih =>
    obtain ⟨effects, u, hleads, hend⟩ := ih
    rw [trail_passes_ok hnext hcharge, drive_passes_ok hnext hcharge]
    exact ⟨_, u, (leads_charged hcharge rfl).trans hleads, hend⟩
  | refused i stack w v e hcharge =>
    rw [trail_visit_error hcharge, drive_visit_error hcharge]
    exact ⟨[], w, .refl w, .inr ⟨e, v, hcharge, rfl⟩⟩
  | visit i stack w v hcharge ih =>
    obtain ⟨effects, u, hleads, hend⟩ := ih
    obtain ⟨effects', hvisit⟩ := leads_visit host chain script i hcharge
    rw [trail_visit_ok hcharge, drive_visit_ok hcharge]
    exact ⟨_, u, hvisit.trans hleads, hend⟩

/-! ### The end of a walk -/

/-- What is told when a walk ends. -/
def report (script node : String) (answer : Except ScriptError Unit) (w : Walk) : List Effect :=
  match answer with
  | .ok () => if w.meter.live = 1 then [.event script node (.finished w.meter.spent)] else []
  | .error e =>
    if w.meter.tripped then []
    else
      [.note ("Script '" ++ script ++ "' stopped: " ++ e.message), .event script node (.aborted e.message)]

/-- The meter of a chain after a walk of it. -/
def finalMeter (answer : Except ScriptError Unit) (w : Walk) : Meter :=
  match answer with
  | .ok () => w.meter.closed
  | .error _ => { w.meter.closed with tripped := true }

theorem finish_meters (chain : Nat) (script node : String) (answer : Except ScriptError Unit) (w : Walk) :
    (w.finish chain script node answer).meters = w.world.meters.set chain (w.finalMeter answer) := by
  unfold finish finalMeter
  cases answer <;> dsimp only <;> split <;> rfl

theorem finish_timers (chain : Nat) (script node : String) (answer : Except ScriptError Unit) (w : Walk) :
    (w.finish chain script node answer).timers = w.world.timers := by
  unfold finish
  cases answer <;> dsimp only <;> split <;> rfl

theorem finish_trace (chain : Nat) (script node : String) (answer : Except ScriptError Unit) (w : Walk) :
    (w.finish chain script node answer).trace.toList = w.world.trace.toList ++ w.report script node answer := by
  unfold finish report
  cases answer with
  | ok =>
    by_cases hlive : w.meter.live = 1
    · simp [hlive, World.emit, World.record, World.setMeter, Meter.closed, Meter.spent]
    · simp [hlive, World.setMeter]
  | error e =>
    by_cases htripped : w.meter.tripped
    · simp [htripped, World.setMeter, Meter.closed]
    · simp [htripped, World.emit, World.record, World.setMeter, Meter.closed]

end Walk

end ScriptGraph
