import ScriptGraph.Proofs.Walks

/-!
# The deeds of nodes

A node does one thing by itself when a chain comes to it: it shows a text, asks the host for an action, sets a
variable, or does nothing.  `Node.deed` says which, from the node and the variables alone, and `World.act_eq` says
that `World.act` does that and nothing else.  So what two runs have in common can be shown of deeds, and the host is
only asked in `Deed.effects`.
-/

namespace ScriptGraph

/-- What a node does by itself. -/
inductive Deed where
  | nothing
  /-- shows a text -/
  | tell (text : String)
  /-- asks the host for an action -/
  | ask (call : Call)
  /-- sets a variable -/
  | put (name value : String)
  /-- would set a variable, but has no name for it -/
  | unnamed

namespace Deed

/-- What is told of an action that the host refuses, at the node that asks for it. -/
def refusal (script node : String) (c : Call) : Except ScriptError Unit → List Effect
  | .ok () => []
  | .error e => [.note (c.label ++ " failed: " ++ e.message), .event script node (.failed (.action e.message))]

/-- The effects of a deed at a node, given the actions that the host was asked for before. -/
def effects (dispatch : List Call → Call → Except ScriptError Unit) (script node : String) (calls : List Call) :
    Deed → List Effect
  | nothing => []
  | tell text => [.note text, .event script node (.notified text)]
  | ask c => .call c :: refusal script node c (dispatch calls c)
  | put name value => [.assign name value]
  | unnamed => [.event script node (.failed (.reference "empty variable name"))]

/-- The actions that the host was asked for, after a deed. -/
def calls (calls : List Call) : Deed → List Call
  | ask c => c :: calls
  | _ => calls

/-- The variables after a deed. -/
def vars (vars : Variables) : Deed → Variables
  | put name value => vars.set name value
  | _ => vars

end Deed

namespace Node

/-- What a node does by itself.  Its kind, its label and its inputs tell. -/
def deed (vars : Variables) (n : Node Float32) : Deed :=
  match n.kind with
  | .event | .value | .mod | .custom _ => .nothing
  | .action =>
    if n.label = "Message" then
      match n.inputs with
      | input :: _ => .tell (Interpolation.interpolate vars input.value)
      | [] => .tell World.defaultMessage
    else .ask ⟨n.label, Interpolation.interpolateInputs vars n.inputs⟩
  | .logic =>
    match n.label with
    | "Set Variable" =>
      if Text.trim (n.inputValue 0) = "" then .unnamed
      else .put (Text.trim (n.inputValue 0)) (Interpolation.interpolate vars (n.inputValue 1))
    | "Get Variable" =>
      .tell (Text.trim (n.inputValue 0) ++ " = " ++ vars.getOr (Text.trim (n.inputValue 0)) World.undefinedValue)
    | _ => .nothing

/-- The names that a node looks up. -/
def lookups (n : Node Float32) : List String :=
  match n.kind with
  | .event | .value | .mod | .custom _ => []
  | .action =>
    if n.label = "Message" then
      match n.inputs with
      | input :: _ => Interpolation.names input.value
      | [] => []
    else Interpolation.namesOfInputs n.inputs
  | .logic =>
    match n.label with
    | "If" => (Condition.parse (n.inputValue 0)).names
    | "Set Variable" => if Text.trim (n.inputValue 0) = "" then [] else Interpolation.names (n.inputValue 1)
    | "Get Variable" => [Text.trim (n.inputValue 0)]
    | _ => []

/-- The variables after a node: its lookups are written down, and it may set one. -/
def varsAfter (vars : Variables) (n : Node Float32) : Variables :=
  (n.deed vars).vars (n.lookups.foldl Variables.noteLookup vars)

end Node

namespace World

/-- A world after some effects of a node. -/
def withDeed (host : Host) (script node : String) (vars : Variables) (d : Deed) (w : World) : World :=
  { w with
    vars
    calls := d.calls w.calls
    trace := w.trace ++ d.effects host.dispatch script node w.calls }

private theorem runAction_eq (host : Host) (script : String) (n : Node Float32) (w : World)
    (hkind : n.kind = .action) :
    w.runAction host script n = w.withDeed host script n.id (n.varsAfter w.vars) (n.deed w.vars) := by
  unfold runAction Node.varsAfter Node.deed Node.lookups
  rw [hkind]
  by_cases hmessage : n.label = "Message"
  · simp only [hmessage, beq_self_eq_true, if_true]
    cases n.inputs with
    | nil => simp [notify, emit, record, withDeed, Deed.vars, Deed.calls, Deed.effects]
    | cons input inputs => simp [notify, emit, record, noteLookups, withDeed, Deed.vars, Deed.calls, Deed.effects]
  · have hbeq : (n.label == "Message") = false := by simpa using hmessage
    simp only [hbeq, hmessage, if_false, Bool.false_eq_true]
    simp only [call, noteLookups, withDeed, Deed.vars, Deed.calls, Deed.effects]
    cases host.dispatch w.calls ⟨n.label, Interpolation.interpolateInputs w.vars n.inputs⟩ with
    | ok => simp [record, Deed.refusal]
    | error e => simp [record, emit, Deed.refusal]

private theorem runLogic_snd (host : Host) (script : String) (n : Node Float32) (w : World)
    (hkind : n.kind = .logic) :
    (w.runLogic script n).2 = w.withDeed host script n.id (n.varsAfter w.vars) (n.deed w.vars) := by
  have hnothing : w = w.withDeed host script n.id w.vars .nothing := by
    simp [withDeed, Deed.calls, Deed.effects]
  unfold runLogic Node.varsAfter
  cases hop : LogicOp.ofLabel? n.label with
  | none =>
    have hne (op : LogicOp) : n.label ≠ op.label := by
      intro h
      rw [h] at hop
      cases op <;> cases hop
    have hdeed : n.deed w.vars = .nothing := by
      unfold Node.deed
      rw [hkind]
      dsimp only
      split
      · next h => exact absurd h (hne .setVariable)
      · next h => exact absurd h (hne .getVariable)
      · rfl
    have hlookups : n.lookups = [] := by
      unfold Node.lookups
      rw [hkind]
      dsimp only
      split
      · next h => exact absurd h (hne .branch)
      · next h => exact absurd h (hne .setVariable)
      · next h => exact absurd h (hne .getVariable)
      · rfl
    rw [hdeed, hlookups]
    exact hnothing
  | some op =>
    unfold Node.deed Node.lookups
    rw [hkind, label_of_ofLabel? hop]
    cases op with
    | wait =>
      simp only [LogicOp.label]
      cases Reading.seconds (n.inputValue 0) <;> exact hnothing
    | branch =>
      simp only [LogicOp.label]
      simp [noteLookups, withDeed, Deed.vars, Deed.calls, Deed.effects]
    | loop =>
      simp only [LogicOp.label]
      exact hnothing
    | setVariable =>
      simp only [LogicOp.label]
      by_cases hname : Text.trim (n.inputValue 0) = ""
      · simp [hname, emit, record, withDeed, Deed.vars, Deed.calls, Deed.effects]
      · simp [hname, noteLookups, assign, record, withDeed, Deed.vars, Deed.calls, Deed.effects]
    | getVariable =>
      simp only [LogicOp.label]
      simp [noteLookups, notify, emit, record, withDeed, Deed.vars, Deed.calls, Deed.effects]

/-- All that a node does when a chain comes to it: it is executed, and it does its deed. -/
theorem act_eq (host : Host) (script : String) (n : Node Float32) (w : World) :
    w.act host script n =
      (n.turn w.vars,
        (w.emit script n.id .executed).withDeed host script n.id (n.varsAfter w.vars) (n.deed w.vars)) := by
  refine Prod.ext (act_fst host script n w) ?_
  have hvars : (w.emit script n.id .executed).vars = w.vars := rfl
  cases hkind : n.kind with
  | action =>
    have := runAction_eq host script n (w.emit script n.id .executed) hkind
    simpa only [act, hkind, hvars] using this
  | logic =>
    have := runLogic_snd host script n (w.emit script n.id .executed) hkind
    simpa only [act, hkind, hvars] using this
  | _ =>
    simp [act, hkind, withDeed, Node.varsAfter, Node.deed, Node.lookups, Deed.vars, Deed.calls, Deed.effects, emit,
      record]

end World

end ScriptGraph
