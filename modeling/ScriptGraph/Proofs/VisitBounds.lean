import Mathlib.Order.WellFoundedSet
import ScriptGraph.Proofs.Reachability
import ScriptGraph.Proofs.Reports
import ScriptGraph.Proofs.Timekeeping

/-!
# Chains without cycles

A graph in which no node can come back to itself tells how long its chains get.  A node weighs one visit and the
weight of its connections, and a loop weighs its visit and, for each of its passes, a visit and the weight of its
connections.  This recursion has exactly one solution on a graph without cycles (`Graph.existsUnique_weight`).

The weight is what a chain may still visit.  Each visit and each pass pays for what it puts on the stack and for the
branch that it leaves waiting (`Walk.drive_weight`), so the visits on the meter and the weight of all that waits never
exceed the weight of the start (`Course.weight_le`), in whichever order the branches go on.
-/

namespace ScriptGraph

/-! ### Totals -/

/-- What a weight comes to on a list. -/
def total {α : Type} (weight : α → Nat) (l : List α) : Nat := l.foldr (fun a sum => weight a + sum) 0

section

variable {α β : Type} {weight : α → Nat}

theorem total_nil : total weight ([] : List α) = 0 := rfl

theorem total_cons (a : α) (l : List α) : total weight (a :: l) = weight a + total weight l := rfl

theorem total_append (l l' : List α) : total weight (l ++ l') = total weight l + total weight l' := by
  induction l with
  | nil => exact (Nat.zero_add _).symm
  | cons a l ih => rw [List.cons_append, total_cons, total_cons, ih, Nat.add_assoc]

theorem total_map (f : β → α) (l : List β) : total weight (l.map f) = total (fun b => weight (f b)) l :=
  List.foldr_map

theorem total_congr {weight' : α → Nat} {l : List α} (h : ∀ a ∈ l, weight a = weight' a) :
    total weight l = total weight' l := by
  induction l with
  | nil => rfl
  | cons a l ih =>
    rw [List.forall_mem_cons] at h
    rw [total_cons, total_cons, h.1, ih h.2]

theorem total_perm {l l' : List α} (h : l.Perm l') : total weight l = total weight l' := by
  induction h with
  | nil => rfl
  | cons a _ ih => rw [total_cons, total_cons, ih]
  | swap a b l => simp only [total_cons]; omega
  | trans _ _ ih ih' => exact ih.trans ih'

end

/-! ### Weights -/

/-- The visits that a node brings about at most, given those that its connections bring about together. -/
def Node.weight (n : Node Float32) (after : Nat) : Nat :=
  if n.kind = .logic ∧ n.label = "Loop" then
    if n.targets = [] then 1 else 1 + Reading.count (n.inputValue 0) * (1 + after)
  else 1 + after

/-- The weight of every position of a graph: where there is no node, a chain makes its one visit. -/
def Graph.IsWeight (g : Graph Float32) (weight : Nat → Nat) : Prop :=
  ∀ i, weight i = match g.node? i with
    | none => 1
    | some n => n.weight (total weight n.targets)

namespace Graph

variable {g : Graph Float32}

/-- On a graph without cycles connections can be followed only so far. -/
theorem wellFounded_edge {S : Type} {g : Graph S} (h : g.isCyclic = false) : WellFounded fun j i => g.Edge i j := by
  have hirrefl (i : Nat) : ¬Relation.TransGen g.Edge i i := fun hi => by
    rw [isCyclic_iff.2 ⟨i, hi⟩] at h
    cases h
  have : IsStrictOrder Nat fun j i => Relation.TransGen g.Edge i j :=
    { irrefl := hirrefl, trans := fun _ _ _ hkj hji => hji.trans hkj }
  -- there are finitely many positions with connections, and from all others none leads on
  have hwf : (Set.Iio g.size).WellFoundedOn fun j i => Relation.TransGen g.Edge i j :=
    (Set.finite_Iio g.size).wellFoundedOn
  refine ⟨fun i => ?_⟩
  by_cases hi : i < g.size
  · refine hwf.induction (Set.mem_Iio.2 hi) fun j _ ih => ⟨j, fun k hjk => ?_⟩
    by_cases hk : k < g.size
    · exact ih k (Set.mem_Iio.2 hk) (.single hjk)
    · exact ⟨k, fun l hkl => absurd hkl.lt hk⟩
  · exact ⟨i, fun j hij => absurd hij.lt hi⟩

theorem isCyclic_eq_false_of_lt {S : Type} {g : Graph S} (h : ∀ i j, g.Edge i j → i < j) : g.isCyclic = false := by
  rw [← Bool.not_eq_true, isCyclic_iff]
  rintro ⟨i, hi⟩
  have hlt (j : Nat) (hj : Relation.TransGen g.Edge i j) : i < j := by
    induction hj with
    | single hedge => exact h _ _ hedge
    | tail _ hedge ih => exact ih.trans (h _ _ hedge)
  exact Nat.lt_irrefl i (hlt i hi)

private theorem edge_of_mem {i t : Nat} {n : Node Float32} (hn : g.node? i = some n) (ht : t ∈ n.targets) :
    g.Edge i t :=
  mem_edges_iff.2 ⟨n, hn, ht⟩

open Classical in
/-- A graph without cycles has a weight, and only one. -/
theorem existsUnique_weight (h : g.isCyclic = false) : ∃! weight, g.IsWeight weight := by
  have hwf := wellFounded_edge h
  let step (i : Nat) (weight : ∀ j, g.Edge i j → Nat) : Nat :=
    match g.node? i with
    | none => 1
    | some n => n.weight (total (fun t => if hedge : g.Edge i t then weight t hedge else 0) n.targets)
  refine ⟨hwf.fix step, fun i => ?_, fun weight hweight => funext fun i => ?_⟩
  · rw [hwf.fix_eq]
    cases hn : g.node? i with
    | none => simp only [step, hn]
    | some n =>
      have hafter : total (fun t => if _ : g.Edge i t then hwf.fix step t else 0) n.targets =
          total (hwf.fix step) n.targets := total_congr fun t ht => dif_pos (edge_of_mem hn ht)
      simp only [step, hn]
      exact congrArg n.weight hafter
  · -- the two agree at a position if they do at all that its connections lead to
    induction i using hwf.induction with
    | _ i ih =>
      rw [hwf.fix_eq, hweight i]
      cases hn : g.node? i with
      | none => simp only [step, hn]
      | some n =>
        have hafter : total weight n.targets =
            total (fun t => if _ : g.Edge i t then hwf.fix step t else 0) n.targets :=
          total_congr fun t ht => by rw [dif_pos (edge_of_mem hn ht), ih t (edge_of_mem hn ht)]
        simp only [step, hn]
        exact congrArg n.weight hafter

end Graph

/-! ### Walks -/

theorem Node.turn_eq_again_iff {vars : Variables} {n : Node Float32} {count : Nat} :
    n.turn vars = .again count ↔ (n.kind = .logic ∧ n.label = "Loop") ∧ count = Reading.count (n.inputValue 0) := by
  unfold turn
  cases n.kind with
  | logic =>
    by_cases hlabel : n.label = "Loop"
    · simp [hlabel, eq_comm]
    · simp only [hlabel, and_false, false_and, iff_false]
      -- no other label makes a chain come back
      split
      · simp
      · simp
      · split <;> simp
      · next h => exact absurd h hlabel
      · split <;> simp
      · simp
  | _ => simp

/-- What is left to do in a chain, in visits and passes. -/
def Work.weight (g : Graph Float32) (weight : Nat → Nat) : Work → Nat
  | visit i => weight i
  | passes source remaining =>
    if g.successors source = [] then 0 else remaining * (1 + total weight (g.successors source))

theorem Work.chain_of_pause? {chain : Nat} {script : Script} {m : Work} {p : Duration × Continuation}
    (h : m.pause? chain script = some p) : p.2.chain = chain := by
  cases m with
  | visit i =>
    obtain ⟨n, -, h⟩ := Option.bind_eq_some_iff.1 h
    split at h
    · cases h
    · obtain ⟨delay, -, rfl⟩ := Option.map_eq_some_iff.1 h
      rfl
  | passes source remaining => cases h

/-- The rest of a branch, in visits and passes. -/
def Continuation.weight (weight : Nat → Nat) (k : Continuation) : Nat := total weight k.rest

namespace Walk

variable {script : Script} {weight : Nat → Nat}

private theorem visits_charged (w : Walk) : w.charged.meter.visits = w.meter.visits + 1 := rfl

theorem total_map_visit (is : List Nat) :
    total (Work.weight script.graph weight) (is.map .visit) = total weight is :=
  total_map _ _

theorem weight_pos (hweight : script.graph.IsWeight weight) (i : Nat) : 0 < weight i := by
  rw [hweight i]
  cases script.graph.node? i with
  | none => exact Nat.one_pos
  | some n =>
    change 0 < n.weight _
    rw [Node.weight]
    split
    · split <;> omega
    · omega

variable (host : Host) (chain : Nat)

/-- A visit pays for what it puts on the stack and for the branch that it leaves waiting. -/
theorem weight_visit (hweight : script.graph.IsWeight weight) (i : Nat) (w : Walk) :
    1 + total (Work.weight script.graph weight) (w.visit host chain script i).1 +
        total (Continuation.weight weight) (((Work.visit i).pause? chain script).toList.map (·.2)) ≤ weight i := by
  rw [hweight i]
  cases hnode : script.graph.node? i with
  | none =>
    rw [visit_of_none hnode, Work.pause?, hnode]
    exact Nat.le_refl _
  | some n =>
    have hsuccessors : script.graph.successors i = n.targets := by
      rw [Graph.node?] at hnode
      rw [Graph.successors, hnode]
    have hplain (hturn : ∀ count, n.turn w.world.vars ≠ .again count) :
        n.weight (total weight n.targets) = 1 + total weight n.targets := by
      rw [Node.weight, if_neg fun hloop => hturn _ (Node.turn_eq_again_iff.2 ⟨hloop, rfl⟩)]
    have hrest (hturn : ∀ delay, n.turn w.world.vars ≠ .later delay) : n.pause? = none :=
      Option.eq_none_iff_forall_ne_some.2 fun delay hdelay => hturn delay (Node.turn_eq_later_iff.2 hdelay)
    rw [visit_of_some hnode, Work.pause?, hnode, Option.bind_some]
    cases hturn : n.turn w.world.vars with
    | onward =>
      dsimp only
      rw [hplain (by simp [hturn]), hrest (by simp [hturn]), Option.map_none, ite_self, total_map_visit]
      exact Nat.le_refl _
    | stop =>
      dsimp only
      rw [hplain (by simp [hturn]), hrest (by simp [hturn]), Option.map_none, ite_self]
      exact Nat.le_add_right _ _
    | again count =>
      obtain ⟨hloop, rfl⟩ := Node.turn_eq_again_iff.1 hturn
      dsimp only
      rw [hrest (by simp [hturn]), Option.map_none, ite_self, Node.weight, if_pos hloop]
      simp only [total_cons, Work.weight, hsuccessors]
      split <;> exact Nat.le_refl _
    | later delay =>
      dsimp only
      rw [hplain (by simp [hturn]), Node.turn_eq_later_iff.1 hturn]
      by_cases hnext : n.targets = []
      · simp [hnext, total]
      · rw [if_neg (by simpa using hnext), if_neg (by simpa using hnext)]
        exact Nat.le_refl _

/-- A walk pays for what it leaves waiting, and even for the visit that is refused. -/
theorem drive_weight (hweight : script.graph.IsWeight weight) (stack : List Work) (w : Walk) :
    (drive host chain script stack w).2.meter.visits +
        total (Continuation.weight weight)
          (((trail host chain script stack w).filterMap (Work.pause? chain script)).map (·.2)) ≤
      w.meter.visits + total (Work.weight script.graph weight) stack := by
  induction stack, w using rounds_induction host chain script with
  | nil w =>
    rw [drive_nil, trail_nil]
    exact Nat.le_refl _
  | idle source remaining stack w h ih =>
    rw [drive_passes_idle h, trail_passes_idle h, total_cons]
    omega
  | passRefused source remaining stack w v e hnext hcharge =>
    obtain ⟨rfl, -, -⟩ := charge_error_iff.1 hcharge
    rw [drive_passes_error hnext hcharge, trail_passes_error hnext hcharge, total_cons, Work.weight, if_neg hnext,
      Nat.succ_mul]
    rw [visits_charged, List.filterMap_nil, List.map_nil, total_nil]
    omega
  | pass source remaining stack w v hnext hcharge ih =>
    obtain ⟨rfl, -, -⟩ := charge_ok_iff.1 hcharge
    rw [drive_passes_ok hnext hcharge, trail_passes_ok hnext hcharge, List.filterMap_cons_none rfl]
    rw [total_append, total_map_visit, total_cons, Work.weight, if_neg hnext] at ih
    rw [total_cons, Work.weight, if_neg hnext, Nat.succ_mul]
    rw [visits_charged] at ih
    omega
  | refused i stack w v e hcharge =>
    have hpos := weight_pos hweight i
    obtain ⟨rfl, -, -⟩ := charge_error_iff.1 hcharge
    rw [drive_visit_error hcharge, trail_visit_error hcharge, total_cons, Work.weight]
    rw [visits_charged, List.filterMap_nil, List.map_nil, total_nil]
    omega
  | visit i stack w v hcharge ih =>
    have hvisit := weight_visit host chain hweight i v
    obtain ⟨rfl, -, -⟩ := charge_ok_iff.1 hcharge
    rw [drive_visit_ok hcharge, trail_visit_ok hcharge]
    rw [total_append, visits_visit] at ih
    rw [filterMap_cons_toList, List.map_append, total_append, total_cons, Work.weight]
    rw [visits_charged] at ih
    omega

/-- What waits of a chain after a walk is what its rounds leave waiting, and what waited before. -/
theorem outcome_waitingOf_trail (node : String) (stack : List Work) (w : Walk) :
    (outcome host chain script node stack w).waitingOf chain =
      (((trail host chain script stack w).filterMap (Work.pause? chain script)).map (·.2) : List _) +
        w.world.waitingOf chain := by
  rw [World.waitingOf, outcome_timers, Timers.tasks_scheduleAll, Multiset.filter_add, World.waitingOf]
  rw [Multiset.filter_eq_self.2]
  intro k hk
  obtain ⟨p, hp, rfl⟩ := List.mem_map.1 (Multiset.mem_coe.1 hk)
  obtain ⟨m, -, hm⟩ := List.mem_filterMap.1 hp
  exact Work.chain_of_pause? hm

/-- The visits on the meter of a chain and the weight of all that waits of it do not become more by a walk. -/
theorem outcome_weight (hweight : script.graph.IsWeight weight) (node : String) (stack : List Work) (w : Walk)
    (hchain : chain < w.world.meters.length) (ks : List Continuation)
    (hks : (ks : Multiset _) = w.world.waitingOf chain) :
    ∃ ks' : List Continuation, (ks' : Multiset _) = (outcome host chain script node stack w).waitingOf chain ∧
      ((outcome host chain script node stack w).meter chain).visits + total (Continuation.weight weight) ks' ≤
        w.meter.visits + total (Work.weight script.graph weight) stack + total (Continuation.weight weight) ks := by
  obtain ⟨moves, effects, u, hleads, hworld, -⟩ := exists_leads host chain script stack w
  have hmeter : ((outcome host chain script node stack w).meter chain).visits =
      (drive host chain script stack w).2.meter.visits := by
    rw [World.meter_eq (outcome_meters rfl (by rwa [hworld, hleads.meters]))]
    rcases drive host chain script stack w with ⟨_ | _, v⟩ <;> rfl
  have hdrive := drive_weight host chain hweight stack w
  refine ⟨((trail host chain script stack w).filterMap (Work.pause? chain script)).map (·.2) ++ ks, ?_, ?_⟩
  · rw [outcome_waitingOf_trail, ← hks, Multiset.coe_add]
  · rw [hmeter, total_append]
    omega

end Walk

/-! ### Courses -/

namespace Course

variable {host : Host} {script : Script} {start chain : Nat} {w : World} {parts : List Part} {weight : Nat → Nat}

/-- The visits of a chain and the weight of all that waits of it never exceed the weight of its start. -/
theorem weight_le (hweight : script.graph.IsWeight weight) (h : Course host script start chain w parts) :
    ∃ ks : List Continuation, (ks : Multiset _) = w.waitingOf chain ∧
      (w.meter chain).visits + total (Continuation.weight weight) ks ≤ weight start := by
  induction h with
  | @begin w hclosed hchain =>
    subst hchain
    have hnone : w.waitingOf w.meters.length = 0 :=
      Multiset.filter_eq_nil.2 fun k hk heq => absurd (hclosed k hk) (by omega)
    obtain ⟨ks, hks, hle⟩ := Walk.outcome_weight host w.meters.length hweight (World.nodeName script start)
      [.visit start] (w.entry host) (by simp [World.entry]) [] hnone.symm
    rw [World.execute_snd]
    exact ⟨ks, hks, hle.trans (Nat.le_of_eq (Nat.zero_add _))⟩
  | @resume w w' parts k hcourse htaken hmeter ih =>
    obtain ⟨ks, hks, hle⟩ := ih
    obtain ⟨m, hm, hbalance⟩ := hcourse.balance
    rw [htaken] at hbalance hks
    obtain ⟨rfl, rfl, -, -⟩ := hbalance.rests k (Multiset.mem_cons_self k _)
    have hm' : w'.meters[k.chain]? = some m := hmeter.trans hm
    -- the branch that goes on is on the stack now
    have hperm : ks.Perm (k :: (w'.waitingOf k.chain).toList) := by
      rw [← Multiset.coe_eq_coe, hks, ← Multiset.cons_coe, Multiset.coe_toList]
    obtain ⟨ks', hks', hle'⟩ := Walk.outcome_weight host k.chain hweight k.node (k.rest.map .visit) (w'.reentry k)
      (List.getElem?_eq_some_iff.1 hm').1 (w'.waitingOf k.chain).toList (Multiset.coe_toList _)
    have hvisits : (w'.reentry k).meter.visits = (w.meter k.chain).visits := by
      rw [World.meter_eq hm, World.reentry, World.meter_eq hm']
    rw [total_perm hperm, total_cons] at hle
    rw [hvisits, Walk.total_map_visit] at hle'
    rw [World.resume_eq]
    refine ⟨ks', hks', hle'.trans ?_⟩
    rw [Nat.add_assoc]
    exact hle
  | @elsewhere w w' parts _ hwaiting hmeter ih =>
    rw [hwaiting, World.meter_congr hmeter]
    exact ih

/-- A chain whose limit allows the weight of its start is never stopped. -/
theorem tripped_eq_false {m : Meter} {waiting : Multiset Continuation}
    (h : Balance host chain script 0 m waiting parts)
    (hvisits : m.visits ≤ weight start) (hlimit : weight start ≤ host.limit) : m.tripped = false := by
  rw [← Bool.not_eq_true]
  intro htripped
  have hexceeded := h.exceeded htripped
  have hm := h.limit
  omega

/-- Without cycles the graph tells how long a chain can get.  The recursion for the weight of nodes has one solution,
and whatever the host and the variables are and in whichever order the branches go on, a chain makes no more visits
and passes than its start weighs.  If so many are allowed, no part of it is refused, and it is finished when nothing
of it waits. -/
theorem within_weight (script : Script) (hcyclic : (Analysis.ofGraph script.graph).cyclic = false) :
    ∃ weight, script.graph.IsWeight weight ∧ (∀ weight', script.graph.IsWeight weight' → weight' = weight) ∧
      ∀ (host : Host) (start chain : Nat) (w : World) (parts : List Part), Course host script start chain w parts →
        (Part.allMoves parts).length ≤ (w.meter chain).visits ∧ (w.meter chain).visits ≤ weight start ∧
        (weight start ≤ host.limit →
          (∀ e ∈ Part.allEffects parts, e.isAborted = false) ∧ (∀ p ∈ parts, p.answer = .ok ()) ∧
          (w.waitingOf chain = 0 → ∃ before last node, parts = before ++ [last] ∧
            last.report = [.event script.name node (.finished (Part.allMoves parts).length)])) := by
  obtain ⟨weight, hweight, hunique⟩ := Graph.existsUnique_weight hcyclic
  refine ⟨weight, hweight, hunique, fun host start chain w parts h => ?_⟩
  obtain ⟨m, hm, hbalance⟩ := h.balance
  obtain ⟨ks, -, hle⟩ := h.weight_le hweight
  rw [World.meter_eq hm] at hle ⊢
  have hvisits : m.visits ≤ weight start := by omega
  have hmoves : (Part.allMoves parts).length ≤ m.visits := by
    cases htripped : m.tripped with
    | false => exact Nat.le_of_eq (hbalance.visits htripped).symm
    | true =>
      have hexceeded := hbalance.exceeded htripped
      have hallowed := hbalance.moves_le
      omega
  refine ⟨hmoves, hvisits, fun hlimit => ?_⟩
  have htripped := tripped_eq_false hbalance hvisits hlimit
  have hnone : ∀ e ∈ Part.allEffects parts, e.isAborted = false := fun e he => by
    rw [← Bool.not_eq_true]
    intro haborted
    rw [hbalance.tripped_iff.2 ⟨e, he, haborted⟩] at htripped
    cases htripped
  refine ⟨hnone, ?_⟩
  cases hbalance.verdict with
  | going _ hlive hgoes =>
    refine ⟨fun p hp => (hgoes p hp).answer, fun hwaiting => absurd ?_ hlive⟩
    rw [hbalance.live, hwaiting]
    rfl
  | @ended _ _ before last hparts hgoes hlast =>
    obtain ⟨node, hreport⟩ := hlast.report
    refine ⟨?_, fun _ => ⟨before, last, node, hparts, hreport⟩⟩
    rw [hparts, List.forall_mem_append, List.forall_mem_singleton]
    exact ⟨fun p hp => (hgoes p hp).answer, hlast.answer⟩
  | stopped htrue =>
    rw [htripped] at htrue
    cases htrue

end Course

/-- A start that leads to a loop of two passes, and the loop to a message. -/
def drumroll : Script :=
  let first := Node.make "first" .event "On Start" ⟨0, 0⟩ .gold
  let again := ((Node.make "again" .logic "Loop" ⟨1, 0⟩ .gray).setInput 0 "2").2
  let last := Node.make "last" .action "Message" ⟨2, 0⟩ .gray
  Script.make "drumroll" (((((Graph.empty.add first).add again).add last).connect 0 1).2.connect 1 2).2

theorem Course.within_weight_drumroll :
    let host : Host := ⟨6, fun _ _ => .ok ()⟩
    let parts := [World.firstPart host drumroll 0 (.ofVariables .empty)]
    ∃ weight, drumroll.graph.IsWeight weight ∧ weight 0 = 6 ∧ (Part.allMoves parts).length ≤ 6 ∧
      ∀ e ∈ Part.allEffects parts, e.isAborted = false := by
  intro host parts
  have hedges : drumroll.graph.edges = [(0, 1), (1, 2)] := rfl
  have hcyclic : drumroll.graph.isCyclic = false := by
    refine Graph.isCyclic_eq_false_of_lt fun i j hedge => ?_
    rw [Graph.Edge, hedges] at hedge
    grind
  obtain ⟨weight, hweight, -, hcourse⟩ := within_weight drumroll hcyclic
  have hlast : weight 2 = 1 := hweight 2
  have hcount : Reading.count "2" = 2 := by decide +kernel
  have hagain : weight 1 = 1 + Reading.count "2" * (1 + (weight 2 + 0)) := hweight 1
  have hfirst : weight 0 = 1 + (weight 1 + 0) := hweight 0
  have hstart : weight 0 = 6 := by rw [hfirst, hagain, hcount, hlast]
  obtain ⟨hmoves, hvisits, hlimit⟩ :=
    hcourse host 0 0 _ parts (.begin (World.closed_ofVariables .empty) rfl)
  exact ⟨weight, hweight, hstart, by omega, (hlimit (Nat.le_of_eq hstart)).1⟩

end ScriptGraph
