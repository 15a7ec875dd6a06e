import ScriptGraph.Proofs.Walks

/-!
# Chains as a recursion

`Walk.drive` keeps what is left to do on a stack.  `Walk.Runs` describes a chain without one: what a node brings about
is a recursion over its connections, a loop is a recursion over its passes, and the meter of the chain is handed from
each to the next.  Both give the same result (`Walk.runs_node_iff`), which is the whole walk: all that happens, in its
order, what is left waiting, the count of the visits and the error.

A task of the recursion takes the top of the stack, and what is below waits until it is complete
(`Walk.Runs.drive_append`).  The recursion ends because every task but the following of a list is charged to the meter
(`Walk.exists_runs`).
-/

namespace ScriptGraph

/-- What a chain does, as a recursion over the graph. -/
inductive Task where
  /-- to come to a node, and to all that follows from it -/
  | node (i : Nat)
  /-- to come to several nodes, each one completely before the next -/
  | each (is : List Nat)
  /-- to follow the connections of a node several times -/
  | passes (source count : Nat)

namespace Walk

/-- The results of tasks, by recursion.  A task that fails leaves nothing to those after it. -/
inductive Runs (host : Host) (chain : Nat) (script : Script) :
    Task → Walk → Except ScriptError Unit × Walk → Prop
  /-- the limit does not allow the visit -/
  | refused {i : Nat} {w v : Walk} {e : ScriptError} (hcharge : w.charge = (.error e, v)) :
      Runs host chain script (.node i) w (.error e, v)
  /-- the node does not exist -/
  | missing {i : Nat} {w v : Walk} (hcharge : w.charge = (.ok (), v)) (hnode : script.graph.node? i = none) :
      Runs host chain script (.node i) w (.ok (), v)
  /-- the chain goes on to the connections of the node -/
  | onward {i : Nat} {n : Node Float32} {w v : Walk} {a : Except ScriptError Unit × Walk}
      (hcharge : w.charge = (.ok (), v)) (hnode : script.graph.node? i = some n)
      (hturn : n.turn v.world.vars = .onward)
      (hrest : Runs host chain script (.each n.targets) (v.acted host script n) a) :
      Runs host chain script (.node i) w a
  /-- the chain goes on nowhere -/
  | stop {i : Nat} {n : Node Float32} {w v : Walk} (hcharge : w.charge = (.ok (), v))
      (hnode : script.graph.node? i = some n) (hturn : n.turn v.world.vars = .stop) :
      Runs host chain script (.node i) w (.ok (), v.acted host script n)
  /-- the node is a loop -/
  | again {i : Nat} {n : Node Float32} {count : Nat} {w v : Walk} {a : Except ScriptError Unit × Walk}
      (hcharge : w.charge = (.ok (), v)) (hnode : script.graph.node? i = some n)
      (hturn : n.turn v.world.vars = .again count)
      (hrest : Runs host chain script (.passes i count) (v.acted host script n) a) :
      Runs host chain script (.node i) w a
  /-- the node waits, and all of its connections wait with it -/
  | later {i : Nat} {n : Node Float32} {delay : Duration} {w v : Walk} (hcharge : w.charge = (.ok (), v))
      (hnode : script.graph.node? i = some n) (hturn : n.turn v.world.vars = .later delay) (hnext : n.targets ≠ []) :
      Runs host chain script (.node i) w
        (.ok (), (v.acted host script n).suspend chain script n.id delay n.targets)
  /-- the node waits for nothing -/
  | laterNone {i : Nat} {n : Node Float32} {delay : Duration} {w v : Walk} (hcharge : w.charge = (.ok (), v))
      (hnode : script.graph.node? i = some n) (hturn : n.turn v.world.vars = .later delay) (hnext : n.targets = []) :
      Runs host chain script (.node i) w (.ok (), v.acted host script n)
  /-- there are no more nodes to come to -/
  | done {w : Walk} : Runs host chain script (.each []) w (.ok (), w)
  /-- one node after the other -/
  | next {i : Nat} {is : List Nat} {w v : Walk} {a : Except ScriptError Unit × Walk}
      (hfirst : Runs host chain script (.node i) w (.ok (), v)) (hrest : Runs host chain script (.each is) v a) :
      Runs host chain script (.each (i :: is)) w a
  /-- the first node fails -/
  | cut {i : Nat} {is : List Nat} {w v : Walk} {e : ScriptError}
      (hfirst : Runs host chain script (.node i) w (.error e, v)) :
      Runs host chain script (.each (i :: is)) w (.error e, v)
  /-- there are no more passes, or none leads anywhere -/
  | idle {source count : Nat} {w : Walk} (h : count = 0 ∨ script.graph.successors source = []) :
      Runs host chain script (.passes source count) w (.ok (), w)
  /-- one pass after the other -/
  | pass {source count : Nat} {w v u : Walk} {a : Except ScriptError Unit × Walk}
      (hnext : script.graph.successors source ≠ []) (hcharge : w.charge = (.ok (), v))
      (hfirst : Runs host chain script (.each (script.graph.successors source)) v (.ok (), u))
      (hrest : Runs host chain script (.passes source count) u a) :
      Runs host chain script (.passes source (count + 1)) w a
  /-- the limit does not allow the pass -/
  | passRefused {source count : Nat} {w v : Walk} {e : ScriptError} (hnext : script.graph.successors source ≠ [])
      (hcharge : w.charge = (.error e, v)) :
      Runs host chain script (.passes source (count + 1)) w (.error e, v)
  /-- a pass fails -/
  | passCut {source count : Nat} {w v u : Walk} {e : ScriptError} (hnext : script.graph.successors source ≠ [])
      (hcharge : w.charge = (.ok (), v))
      (hfirst : Runs host chain script (.each (script.graph.successors source)) v (.error e, u)) :
      Runs host chain script (.passes source (count + 1)) w (.error e, u)

/-! ### From the recursion to the stack -/

/-- The work on the stack that a task stands for. -/
def work : Task → List Work
  | .node i => [.visit i]
  | .each is => is.map .visit
  | .passes source count => [.passes source count]

/-- What is done after a task, unless the task fails. -/
def andThen (a : Except ScriptError Unit × Walk) (f : Walk → Except ScriptError Unit × Walk) :
    Except ScriptError Unit × Walk :=
  match a with
  | (.ok (), w) => f w
  | (.error e, w) => (.error e, w)

variable {host : Host} {chain : Nat} {script : Script} {t : Task} {w : Walk} {a : Except ScriptError Unit × Walk}

/-- A task on top of the stack is carried out first, and what is below it after that, unless the task fails. -/
theorem Runs.drive_append (h : Runs host chain script t w a) (stack : List Work) :
    drive host chain script (work t ++ stack) w = andThen a (drive host chain script stack) := by
  -- below the first node of a list is the rest of the list, and below a pass are the passes that remain
  induction h generalizing stack with
  | refused hcharge => exact drive_visit_error hcharge
  | missing hcharge hnode =>
    rw [work, List.singleton_append, drive_visit_ok hcharge, visit_of_none hnode]
    rfl
  | onward hcharge hnode hturn _ ih =>
    rw [work, List.singleton_append, drive_visit_ok hcharge, visit_of_some hnode, hturn]
    exact ih stack
  | stop hcharge hnode hturn =>
    rw [work, List.singleton_append, drive_visit_ok hcharge, visit_of_some hnode, hturn]
    rfl
  | again hcharge hnode hturn _ ih =>
    rw [work, List.singleton_append, drive_visit_ok hcharge, visit_of_some hnode, hturn]
    exact ih stack
  | later hcharge hnode hturn hnext =>
    rw [work, List.singleton_append, drive_visit_ok hcharge, visit_of_some hnode, hturn]
    dsimp only
    rw [if_neg (by simpa using hnext)]
    rfl
  | laterNone hcharge hnode hturn hnext =>
    rw [work, List.singleton_append, drive_visit_ok hcharge, visit_of_some hnode, hturn]
    dsimp only
    rw [if_pos (by simpa using hnext)]
    rfl
  | done => rfl
  | next _ _ ihfirst ihrest =>
    rw [work, List.map_cons, List.cons_append]
    exact (ihfirst _).trans (ihrest stack)
  | cut _ ihfirst =>
    rw [work, List.map_cons, List.cons_append]
    exact ihfirst (_ ++ stack)
  | idle h => exact drive_passes_idle h
  | pass hnext hcharge _ _ ihfirst ihrest =>
    rw [work, List.singleton_append, drive_passes_ok hnext hcharge]
    exact (ihfirst _).trans (ihrest stack)
  | passRefused hnext hcharge => exact drive_passes_error hnext hcharge
  | passCut hnext hcharge _ ihfirst =>
    rw [work, List.singleton_append, drive_passes_ok hnext hcharge]
    exact ihfirst _

/-- The stack does what the recursion does. -/
theorem Runs.drive_work (h : Runs host chain script t w a) : drive host chain script (work t) w = a := by
  have := h.drive_append []
  rw [List.append_nil] at this
  rw [this]
  rcases a with ⟨_ | _, v⟩
  · rfl
  · exact drive_nil

/-! ### The recursion ends -/

/-- The visits that a walk may still ask for, those that fail among them. -/
def left (w : Walk) : Nat := w.meter.limit + 1 - w.meter.visits

theorem left_lt_of_charge_ok {w v : Walk} (h : w.charge = (.ok (), v)) : v.left < w.left := by
  obtain ⟨hlimit, hvisits, hle⟩ := meter_of_charge_ok h
  unfold left
  omega

theorem left_le_of_charge {answer : Except ScriptError Unit} {v : Walk} (h : w.charge = (answer, v)) :
    v.left ≤ w.left := by
  simp only [charge, Meter.charge, Prod.mk.injEq] at h
  obtain ⟨-, rfl⟩ := h
  unfold left
  dsimp only
  omega

/-- A task leaves no more visits than there were. -/
theorem Runs.left_le (h : Runs host chain script t w a) : a.2.left ≤ w.left := by
  induction h with
  | refused hcharge => exact left_le_of_charge hcharge
  | missing hcharge _ => exact left_le_of_charge hcharge
  | onward hcharge _ _ _ ih => exact Nat.le_trans ih (left_le_of_charge hcharge :)
  | stop hcharge _ _ => exact (left_le_of_charge hcharge :)
  | again hcharge _ _ _ ih => exact Nat.le_trans ih (left_le_of_charge hcharge :)
  | later hcharge _ _ _ => exact (left_le_of_charge hcharge :)
  | laterNone hcharge _ _ _ => exact (left_le_of_charge hcharge :)
  | done => exact Nat.le_refl _
  | next _ _ ihfirst ihrest => exact Nat.le_trans ihrest ihfirst
  | cut _ ihfirst => exact ihfirst
  | idle _ => exact Nat.le_refl _
  | pass _ hcharge _ _ ihfirst ihrest =>
    exact Nat.le_trans ihrest (Nat.le_trans ihfirst (left_le_of_charge hcharge))
  | passRefused _ hcharge => exact left_le_of_charge hcharge
  | passCut _ hcharge _ ihfirst => exact Nat.le_trans ihfirst (left_le_of_charge hcharge)

/-- The length of what a task goes through without a visit. -/
private def length : Task → Nat
  | .node _ => 0
  | .each is => is.length + 1
  | .passes _ _ => 0

/-- Every task has a result. -/
theorem exists_runs (host : Host) (chain : Nat) (script : Script) (t : Task) (w : Walk) :
    ∃ a, Runs host chain script t w a := by
  match t with
  | .node i =>
    rcases hcharge : w.charge with ⟨_ | _, v⟩
    · exact ⟨_, .refused hcharge⟩
    · have hlt := left_lt_of_charge_ok hcharge
      cases hnode : script.graph.node? i with
      | none => exact ⟨_, .missing hcharge hnode⟩
      | some n =>
        cases hturn : n.turn v.world.vars with
        | onward =>
          obtain ⟨a, ha⟩ := exists_runs host chain script (.each n.targets) (v.acted host script n)
          exact ⟨a, .onward hcharge hnode hturn ha⟩
        | stop => exact ⟨_, .stop hcharge hnode hturn⟩
        | again count =>
          obtain ⟨a, ha⟩ := exists_runs host chain script (.passes i count) (v.acted host script n)
          exact ⟨a, .again hcharge hnode hturn ha⟩
        | later delay =>
          by_cases hnext : n.targets = []
          · exact ⟨_, .laterNone hcharge hnode hturn hnext⟩
          · exact ⟨_, .later hcharge hnode hturn hnext⟩
  | .each [] => exact ⟨_, .done⟩
  | .each (i :: is) =>
    obtain ⟨⟨_ | _, v⟩, hfirst⟩ := exists_runs host chain script (.node i) w
    · exact ⟨_, .cut hfirst⟩
    · have hle : v.left ≤ w.left := hfirst.left_le
      obtain ⟨a, ha⟩ := exists_runs host chain script (.each is) v
      exact ⟨a, .next hfirst ha⟩
  | .passes source 0 => exact ⟨_, .idle (.inl rfl)⟩
  | .passes source (count + 1) =>
    by_cases hnext : script.graph.successors source = []
    · exact ⟨_, .idle (.inr hnext)⟩
    · rcases hcharge : w.charge with ⟨_ | _, v⟩
      · exact ⟨_, .passRefused hnext hcharge⟩
      · have hlt := left_lt_of_charge_ok hcharge
        obtain ⟨⟨_ | _, u⟩, hfirst⟩ := exists_runs host chain script (.each (script.graph.successors source)) v
        · exact ⟨_, .passCut hnext hcharge hfirst⟩
        · have hle : u.left ≤ v.left := hfirst.left_le
          obtain ⟨a, ha⟩ := exists_runs host chain script (.passes source count) u
          exact ⟨a, .pass hnext hcharge hfirst ha⟩
-- what follows a visit or a pass has fewer visits left, and a list gets shorter
termination_by (w.left, length t)
decreasing_by
  · exact Prod.Lex.left _ _ hlt
  · exact Prod.Lex.left _ _ hlt
  · exact Prod.Lex.right _ (by simp [length])
  · rcases Nat.lt_or_eq_of_le hle with hlt | heq
    · exact Prod.Lex.left _ _ hlt
    · rw [heq]
      exact Prod.Lex.right _ (by simp [length])
  · exact Prod.Lex.left _ _ hlt
  · exact Prod.Lex.left _ _ (Nat.lt_of_le_of_lt hle hlt)

/-! ### Both are the same -/

/-- Every task has the one result that the stack gives. -/
theorem runs_iff_drive : Runs host chain script t w a ↔ drive host chain script (work t) w = a := by
  constructor
  · exact Runs.drive_work
  · rintro rfl
    obtain ⟨b, hb⟩ := exists_runs host chain script t w
    rw [hb.drive_work]
    exact hb

/-- A chain that starts at a node does what the recursion says: the walk on the stack and the recursion have the same
result for every graph, node, world, host and meter. -/
theorem runs_node_iff (host : Host) (chain : Nat) (script : Script) (start : Nat) (w : Walk)
    (a : Except ScriptError Unit × Walk) :
    Runs host chain script (.node start) w a ↔ drive host chain script [.visit start] w = a :=
  runs_iff_drive

end Walk

end ScriptGraph
