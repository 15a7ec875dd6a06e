import ScriptGraph.Chain

/-!
# Single rounds of a walk

`Node.turn` says in one place how a chain goes on behind each kind of node, and `World.act_fst` that `World.act` does
so.  The equations of `Walk.visit` and `Walk.drive` follow the ways in which a round of a walk ends: the meter refuses
it, it is for nothing, a loop makes a pass, or the chain comes to a node.  `Walk.rounds_induction` is the induction
over these rounds, and `Walk.trail` lists those that the meter allowed.
-/

namespace ScriptGraph

/-! ### Turns -/

/-- How a chain goes on behind a node.  Its kind, its label and its first input tell. -/
def Node.turn (vars : Variables) (n : Node Float32) : Turn :=
  match n.kind with
  | .event | .action => .onward
  | .value | .mod | .custom _ => .stop
  | .logic =>
    match n.label with
    | "Set Variable" | "Get Variable" => .onward
    | "If" => if Condition.evaluate vars (n.inputValue 0) then .onward else .stop
    | "Loop" => .again (Reading.count (n.inputValue 0))
    | "Wait" =>
      match Reading.seconds (n.inputValue 0) with
      | some delay => .later delay
      | none => .onward
    | _ => .stop

theorem label_of_ofLabel? {s : String} {op : LogicOp} (h : LogicOp.ofLabel? s = some op) : s = op.label := by
  unfold LogicOp.ofLabel? at h
  split at h <;> cases h <;> rfl

private theorem runLogic_fst (script : String) (n : Node Float32) (w : World) (hkind : n.kind = .logic) :
    (w.runLogic script n).1 = n.turn w.vars := by
  unfold World.runLogic Node.turn
  rw [hkind]
  cases hop : LogicOp.ofLabel? n.label with
  | none =>
    dsimp only
    split
    -- the five labels of operations, and all others
    · next h => rw [h] at hop; cases hop
    · next h => rw [h] at hop; cases hop
    · next h => rw [h] at hop; cases hop
    · next h => rw [h] at hop; cases hop
    · next h => rw [h] at hop; cases hop
    · rfl
  | some op =>
    rw [label_of_ofLabel? hop]
    cases op with
    | wait =>
      simp only [LogicOp.label]
      cases Reading.seconds (n.inputValue 0) <;> rfl
    | setVariable =>
      simp only [LogicOp.label]
      split <;> rfl
    | branch =>
      simp only [LogicOp.label]
      rfl
    | loop => simp only [LogicOp.label]
    | getVariable => simp only [LogicOp.label]

/-- A chain goes on behind a node as the node says. -/
theorem World.act_fst (host : Host) (script : String) (n : Node Float32) (w : World) :
    (w.act host script n).1 = n.turn w.vars := by
  cases hkind : n.kind with
  | logic =>
    have := runLogic_fst script n (w.emit script n.id .executed) hkind
    simp only [World.act, hkind, this]
    rfl
  | _ => simp only [World.act, Node.turn, hkind]

namespace Walk

variable {host : Host} {chain : Nat} {script : Script} {w v : Walk} {stack : List Work}

/-! ### Charges -/

/-- A walk with a visit more on its meter. -/
def charged (w : Walk) : Walk :=
  { w with meter := { w.meter with visits := w.meter.visits + 1 } }

theorem charge_ok_iff : w.charge = (.ok (), v) ↔
    w.charged = v ∧ w.meter.visits < w.meter.limit ∧ w.meter.tripped = false := by
  unfold charge Meter.charge
  dsimp only
  split
  · next h =>
    rw [Bool.or_eq_true, decide_eq_true_eq] at h
    constructor
    · rintro ⟨⟩
    · rintro ⟨-, hlt, htripped⟩
      rcases h with h | h
      · omega
      · rw [htripped] at h
        cases h
  · next h =>
    rw [Bool.or_eq_true, decide_eq_true_eq, not_or, Bool.not_eq_true] at h
    constructor
    · rintro ⟨⟩
      exact ⟨rfl, by omega, h.2⟩
    · rintro ⟨rfl, -⟩
      rfl

theorem charge_error_iff {e : ScriptError} : w.charge = (.error e, v) ↔
    w.charged = v ∧ e = .runaway (w.meter.visits + 1) w.meter.limit ∧
      (w.meter.limit ≤ w.meter.visits ∨ w.meter.tripped = true) := by
  unfold charge Meter.charge
  dsimp only
  split
  · next h =>
    rw [Bool.or_eq_true, decide_eq_true_eq, Nat.lt_succ_iff] at h
    constructor
    · rintro ⟨⟩
      exact ⟨rfl, rfl, h⟩
    · rintro ⟨rfl, rfl, -⟩
      rfl
  · next h =>
    rw [Bool.or_eq_true, decide_eq_true_eq, Nat.lt_succ_iff] at h
    constructor
    · rintro ⟨⟩
    · rintro ⟨-, -, h'⟩
      exact absurd h' h

/-! ### Coming to a node -/

/-- A walk after the effect of a node. -/
def acted (host : Host) (script : Script) (n : Node Float32) (w : Walk) : Walk :=
  { w with world := (w.world.act host script.name n).2 }

theorem visit_of_none {i : Nat} (h : script.graph.node? i = none) : w.visit host chain script i = ([], w) := by
  unfold visit
  rw [h]

theorem visit_of_some {i : Nat} {n : Node Float32} (h : script.graph.node? i = some n) :
    w.visit host chain script i =
      match n.turn w.world.vars with
      | .onward => (n.targets.map .visit, w.acted host script n)
      | .stop => ([], w.acted host script n)
      | .again count => ([.passes i count], w.acted host script n)
      | .later delay =>
        if n.targets.isEmpty then ([], w.acted host script n)
        else ([], (w.acted host script n).suspend chain script n.id delay n.targets) := by
  unfold visit
  rw [h, ← World.act_fst host script.name]
  rfl

/-! ### Rounds -/

theorem drive_nil : drive host chain script [] w = (.ok (), w) := by
  rw [drive]

theorem drive_visit_error {i : Nat} {e : ScriptError} (h : w.charge = (.error e, v)) :
    drive host chain script (.visit i :: stack) w = (.error e, v) := by
  rw [drive]
  split
  · next h' => simp_all
  · next h' => simp_all

theorem drive_visit_ok {i : Nat} (h : w.charge = (.ok (), v)) :
    drive host chain script (.visit i :: stack) w =
      drive host chain script ((v.visit host chain script i).1 ++ stack) (v.visit host chain script i).2 := by
  rw [drive]
  split
  · next h' => simp_all
  · next h' => simp_all

/-- Passes that are used up, or that lead nowhere, are left out. -/
theorem drive_passes_idle {source remaining : Nat} (h : remaining = 0 ∨ script.graph.successors source = []) :
    drive host chain script (.passes source remaining :: stack) w = drive host chain script stack w := by
  rw [drive, if_pos (by simpa using h)]

theorem drive_passes_error {source remaining : Nat} {e : ScriptError} (hnext : script.graph.successors source ≠ [])
    (h : w.charge = (.error e, v)) :
    drive host chain script (.passes source (remaining + 1) :: stack) w = (.error e, v) := by
  rw [drive, if_neg (by simpa using hnext)]
  split
  · next h' => simp_all
  · next h' => simp_all

theorem drive_passes_ok {source remaining : Nat} (hnext : script.graph.successors source ≠ [])
    (h : w.charge = (.ok (), v)) :
    drive host chain script (.passes source (remaining + 1) :: stack) w =
      drive host chain script
        ((script.graph.successors source).map .visit ++ .passes source remaining :: stack) v := by
  rw [drive, if_neg (by simpa using hnext)]
  split
  · next h' => simp_all
  · next h' => simp_all

/-- What holds of a walk holds if it holds before each of its rounds, given that it holds after that. -/
@[elab_as_elim]
theorem rounds_induction (host : Host) (chain : Nat) (script : Script) {motive : List Work → Walk → Prop}
    (nil : ∀ w, motive [] w)
    (idle : ∀ source remaining stack w, remaining = 0 ∨ script.graph.successors source = [] → motive stack w →
      motive (.passes source remaining :: stack) w)
    (passRefused : ∀ source remaining stack w v e, script.graph.successors source ≠ [] →
      w.charge = (.error e, v) → motive (.passes source (remaining + 1) :: stack) w)
    (pass : ∀ source remaining stack w v, script.graph.successors source ≠ [] → w.charge = (.ok (), v) →
      motive ((script.graph.successors source).map .visit ++ .passes source remaining :: stack) v →
      motive (.passes source (remaining + 1) :: stack) w)
    (refused : ∀ i stack w v e, w.charge = (.error e, v) → motive (.visit i :: stack) w)
    (visit : ∀ i stack w v, w.charge = (.ok (), v) →
      motive ((v.visit host chain script i).1 ++ stack) (v.visit host chain script i).2 →
      motive (.visit i :: stack) w)
    (stack : List Work) (w : Walk) : motive stack w := by
  induction stack, w using drive.induct host chain script with
  | case1 w => exact nil w
  | case2 w source remaining stack next h ih => exact idle _ _ _ _ (by simpa [next] using h) ih
  | case3 w source remaining stack next h e v hcharge =>
    -- a pass that is asked for is one of a positive number
    cases remaining with
    | zero => simp at h
    | succ remaining => exact passRefused _ _ _ _ v e (by simpa [next] using h) hcharge
  | case4 w source remaining stack next h v hcharge ih =>
    cases remaining with
    | zero => simp at h
    | succ remaining => exact pass _ _ _ _ v (by simpa [next] using h) hcharge ih
  | case5 w i stack e v hcharge => exact refused _ _ _ v e hcharge
  | case6 w i stack v hcharge step ih => exact visit _ _ _ v hcharge ih

/-! ### Trails -/

/-- The rounds of a walk that the meter allows: the visits, and the passes of loops. -/
def trail (host : Host) (chain : Nat) (script : Script) (stack : List Work) (w : Walk) : List Work :=
  match stack with
  | [] => []
  | .passes source remaining :: stack =>
    let next := script.graph.successors source
    if remaining = 0 || next.isEmpty then trail host chain script stack w
    else
      match _h : w.charge with
      | (.error _, _) => []
      | (.ok (), w) =>
        .passes source remaining ::
          trail host chain script (next.map .visit ++ .passes source (remaining - 1) :: stack) w
  | .visit i :: stack =>
    match _h : w.charge with
    | (.error _, _) => []
    | (.ok (), w) =>
      let step := w.visit host chain script i
      .visit i :: trail host chain script (step.1 ++ stack) step.2
termination_by (w.meter.limit + 1 - w.meter.visits, stack.length)
decreasing_by
  · exact Prod.Lex.right _ (by simp)
  · obtain ⟨h1, h2, h3⟩ := meter_of_charge_ok _h
    apply Prod.Lex.left
    omega
  · obtain ⟨h1, h2, h3⟩ := meter_of_charge_ok _h
    apply Prod.Lex.left
    rw [visits_visit, limit_visit]
    omega

theorem trail_nil : trail host chain script [] w = [] := by
  rw [trail]

theorem trail_visit_error {i : Nat} {e : ScriptError} (h : w.charge = (.error e, v)) :
    trail host chain script (.visit i :: stack) w = [] := by
  rw [trail]
  split
  · rfl
  · next h' => simp_all

theorem trail_visit_ok {i : Nat} (h : w.charge = (.ok (), v)) :
    trail host chain script (.visit i :: stack) w =
      .visit i ::
        trail host chain script ((v.visit host chain script i).1 ++ stack) (v.visit host chain script i).2 := by
  rw [trail]
  split
  · next h' => simp_all
  · next h' => simp_all

theorem trail_passes_idle {source remaining : Nat} (h : remaining = 0 ∨ script.graph.successors source = []) :
    trail host chain script (.passes source remaining :: stack) w = trail host chain script stack w := by
  rw [trail, if_pos (by simpa using h)]

theorem trail_passes_error {source remaining : Nat} {e : ScriptError} (hnext : script.graph.successors source ≠ [])
    (h : w.charge = (.error e, v)) :
    trail host chain script (.passes source (remaining + 1) :: stack) w = [] := by
  rw [trail, if_neg (by simpa using hnext)]
  split
  · rfl
  · next h' => simp_all

theorem trail_passes_ok {source remaining : Nat} (hnext : script.graph.successors source ≠ [])
    (h : w.charge = (.ok (), v)) :
    trail host chain script (.passes source (remaining + 1) :: stack) w =
      .passes source (remaining + 1) :: trail host chain script
        ((script.graph.successors source).map .visit ++ .passes source remaining :: stack) v := by
  rw [trail, if_neg (by simpa using hnext)]
  split
  · next h' => simp_all
  · next h' => simp_all

/-- What holds of all that is on the stack holds of all rounds, if each round hands it on to what it puts there. -/
theorem forall_mem_trail {P : Work → Prop}
    (hpass : ∀ source remaining, P (.passes source (remaining + 1)) →
      (∀ i ∈ script.graph.successors source, P (.visit i)) ∧ P (.passes source remaining))
    (hvisit : ∀ i w, P (.visit i) → ∀ m ∈ (visit host chain script i w).1, P m)
    (stack : List Work) (w : Walk) (hstack : ∀ m ∈ stack, P m) : ∀ m ∈ trail host chain script stack w, P m := by
  induction stack, w using rounds_induction host chain script with
  | nil w =>
    rw [trail_nil]
    exact hstack
  | idle source remaining stack w h ih =>
    rw [trail_passes_idle h]
    exact ih fun m hm => hstack m (List.mem_cons_of_mem _ hm)
  | passRefused source remaining stack w v e hnext hcharge =>
    rw [trail_passes_error hnext hcharge]
    exact fun m hm => absurd hm List.not_mem_nil
  | pass source remaining stack w v hnext hcharge ih =>
    rw [List.forall_mem_cons] at hstack
    obtain ⟨hnodes, hpasses⟩ := hpass source remaining hstack.1
    rw [trail_passes_ok hnext hcharge, List.forall_mem_cons]
    refine ⟨hstack.1, ih ?_⟩
    rw [List.forall_mem_append, List.forall_mem_cons, List.forall_mem_map]
    exact ⟨hnodes, hpasses, hstack.2⟩
  | refused i stack w v e hcharge =>
    rw [trail_visit_error hcharge]
    exact fun m hm => absurd hm List.not_mem_nil
  | visit i stack w v hcharge ih =>
    rw [List.forall_mem_cons] at hstack
    rw [trail_visit_ok hcharge, List.forall_mem_cons]
    refine ⟨hstack.1, ih ?_⟩
    rw [List.forall_mem_append]
    exact ⟨hvisit i v hstack.1, hstack.2⟩

/-- What the first round brings about comes first. -/
theorem filterMap_cons_toList {α β : Type} (f : α → Option β) (a : α) (l : List α) :
    (a :: l).filterMap f = (f a).toList ++ l.filterMap f := by
  cases h : f a with
  | none => exact List.filterMap_cons_none h
  | some b => exact List.filterMap_cons_some h

end Walk

end ScriptGraph
