import ScriptGraph.Proofs.Construction

/-!
# Parts of graphs

`Graph.induced` keeps some nodes of a graph and the connections between them.  A node that is kept moves down to its
`rank`, the number of kept nodes before it, and the connections that lead to it move with it.  So the edges of the
part are the edges of the graph between kept nodes, in their order and with new numbers (`edges_induced`); the other
edges of kept nodes are the `severed` ones.

All lemmas come from `zipIdx_survivors`: counted once more, the kept nodes with their old positions stand at the ranks
of these positions.
-/

namespace ScriptGraph.Graph

variable {S : Type} {g : Graph S} {kept : Nat → Bool}

/-- The number of kept positions before a position. -/
def rank (kept : Nat → Bool) (i : Nat) : Nat := (List.range i).countP kept

/-- The kept nodes with their positions. -/
def survivors (g : Graph S) (kept : Nat → Bool) : List (Node S × Nat) :=
  g.nodes.zipIdx.filter fun p => kept p.2

/-- The kept nodes with the connections between them. -/
def induced (g : Graph S) (kept : Nat → Bool) : Graph S :=
  ⟨(g.survivors kept).map fun p => { p.1 with targets := (p.1.targets.filter kept).map (rank kept) }⟩

/-- The connections from kept nodes to others. -/
def severed (g : Graph S) (kept : Nat → Bool) : List (Nat × Nat) :=
  g.edges.filter fun e => kept e.1 && !kept e.2

/-! ### Positions of kept nodes -/

theorem rank_succ (kept : Nat → Bool) (i : Nat) :
    rank kept (i + 1) = if kept i then rank kept i + 1 else rank kept i := by
  rw [rank, List.range_succ, List.countP_append, List.countP_singleton, rank]
  split <;> rfl

private theorem zipIdx_filter_zipIdx {α : Type} (kept : Nat → Bool) (l : List α) (k : Nat) :
    ((l.zipIdx k).filter fun p => kept p.2).zipIdx (rank kept k) =
      ((l.zipIdx k).filter fun p => kept p.2).map fun p => (p, rank kept p.2) := by
  -- `k` positions went before, and `rank kept k` of them were kept
  induction l generalizing k with
  | nil => rfl
  | cons a l ih =>
    have hrest := ih (k + 1)
    rw [rank_succ] at hrest
    rw [List.zipIdx_cons]
    by_cases hk : kept k = true
    · rw [if_pos hk] at hrest
      rw [List.filter_cons, if_pos hk, List.zipIdx_cons, List.map_cons, hrest]
    · rw [if_neg hk] at hrest
      rw [List.filter_cons, if_neg hk, hrest]

/-- Among the kept nodes, each one stands at the rank of its position. -/
theorem zipIdx_survivors (g : Graph S) (kept : Nat → Bool) :
    (g.survivors kept).zipIdx = (g.survivors kept).map fun p => (p, rank kept p.2) :=
  zipIdx_filter_zipIdx kept g.nodes 0

theorem mem_survivors {n : Node S} {i : Nat} :
    (n, i) ∈ g.survivors kept ↔ g.nodes[i]? = some n ∧ kept i = true := by
  rw [survivors, List.mem_filter, List.mem_zipIdx_iff_getElem?]

theorem eq_rank_of_survivors {j : Nat} {p : Node S × Nat} (h : (g.survivors kept)[j]? = some p) :
    j = rank kept p.2 := by
  have hcount := congrArg (·[j]?) (zipIdx_survivors g kept)
  simp only [List.getElem?_zipIdx, List.getElem?_map, h, Option.map_some, Nat.zero_add] at hcount
  exact (Prod.mk.inj (Option.some.inj hcount)).2

theorem getElem?_rank {n : Node S} {i : Nat} (hn : g.nodes[i]? = some n) (hi : kept i = true) :
    (g.survivors kept)[rank kept i]? = some (n, i) := by
  obtain ⟨j, hj⟩ := List.mem_iff_getElem?.1 (mem_survivors.2 ⟨hn, hi⟩)
  rw [← eq_rank_of_survivors hj]
  exact hj

/-- Different kept nodes have different ranks. -/
theorem eq_of_rank_eq {i j : Nat} (hi : i < g.size) (hj : j < g.size) (hki : kept i = true) (hkj : kept j = true)
    (h : rank kept i = rank kept j) : i = j := by
  have hni : (g.survivors kept)[rank kept i]? = some (_, i) := getElem?_rank (List.getElem?_eq_getElem hi) hki
  have hnj : (g.survivors kept)[rank kept j]? = some (_, j) := getElem?_rank (List.getElem?_eq_getElem hj) hkj
  rw [h, hnj] at hni
  exact (Prod.mk.inj (Option.some.inj hni)).2.symm

/-! ### Edges -/

private theorem edges_eq (g : Graph S) : g.edges = g.nodes.zipIdx.flatMap fun p => p.1.targets.map (p.2, ·) := by
  rw [edges, indexed, List.flatMap_map]

/-- The edges of kept nodes that go on as another condition says, node by node. -/
private theorem filter_edges (g : Graph S) (kept other : Nat → Bool) :
    (g.edges.filter fun e => kept e.1 && other e.2) =
      (g.survivors kept).flatMap fun p => (p.1.targets.filter other).map (p.2, ·) := by
  rw [edges_eq, survivors]
  induction g.nodes.zipIdx with
  | nil => rfl
  | cons p ps ih =>
    rw [List.flatMap_cons, List.filter_append, ih, List.filter_map]
    by_cases hp : kept p.2 = true
    · rw [List.filter_cons, if_pos hp, List.flatMap_cons]
      congr 2
      apply List.filter_congr
      simp [hp]
    · rw [List.filter_cons, if_neg hp]
      simp [hp, Function.comp_def]

theorem severed_eq (g : Graph S) (kept : Nat → Bool) :
    g.severed kept = (g.survivors kept).flatMap fun p => (p.1.targets.filter (!kept ·)).map (p.2, ·) :=
  filter_edges g kept (!kept ·)

/-- The edges of a part are the edges between its nodes, in their order. -/
theorem edges_induced (g : Graph S) (kept : Nat → Bool) :
    (g.induced kept).edges =
      (g.edges.filter fun e => kept e.1 && kept e.2).map fun e => (rank kept e.1, rank kept e.2) := by
  rw [edges_eq, induced, List.zipIdx_map, zipIdx_survivors, filter_edges, List.map_flatMap, List.map_map,
    List.flatMap_map]
  simp [Function.comp_def]

/-! ### The whole graph -/

theorem rank_of_all (h : ∀ i, kept i = true) (i : Nat) : rank kept i = i := by
  rw [rank, List.countP_eq_length.2 fun i _ => h i, List.length_range]

theorem survivors_of_all (h : ∀ i, kept i = true) : g.survivors kept = g.nodes.zipIdx :=
  List.filter_eq_self.2 fun p _ => h p.2

theorem induced_of_all (h : ∀ i, kept i = true) : g.induced kept = g := by
  have htargets : ∀ targets : List Nat, (targets.filter kept).map (rank kept) = targets := by
    intro targets
    rw [List.filter_eq_self.2 fun i _ => h i, funext (rank_of_all h)]
    exact List.map_id targets
  rw [induced, survivors_of_all h]
  simp only [htargets]
  exact congrArg Graph.mk (List.zipIdx_map_fst 0 g.nodes)

theorem severed_of_all (h : ∀ i, kept i = true) : g.severed kept = [] := by
  rw [severed, List.filter_eq_nil_iff]
  simp [h]

end ScriptGraph.Graph
