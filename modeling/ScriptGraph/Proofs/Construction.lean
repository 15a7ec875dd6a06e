import ScriptGraph.Graph

/-!
# Graphs as they can be built

`Node.Built` and `Graph.Built` are the nodes and graphs that the operations on them lead to, in any order and with any
arguments.  Two facts hold of all of them.  The inputs of a node are those that the catalog has for its label, up to
their values (`Node.Built.inputLabels`).  The connections of a node lead to other nodes of its graph, to each of them
once at most (`Graph.Built.linked`); that is kept when a node is removed because the positions above it move down
together with the connections that lead to them (`Linked.without`).
-/

namespace ScriptGraph

variable {S : Type}

/-! ### Nodes -/

/-- A change to a node: to one of its free fields, to its label or its inputs, or to its summary. -/
inductive Node.Change (S : Type) where
  | identify (id : String)
  | classify (kind : Kind)
  | place (position : Vec2 S)
  | resize (size : Vec2 S)
  | paint (color : Color)
  | relabel (label : String)
  | input (i : Nat) (value : String)
  | overlay (values : List String)
  | refresh
  | restore (summary : String)

namespace Node

/-- Makes a change. -/
def Change.apply : Change S → Node S → Node S
  | identify id, n => { n with id }
  | classify kind, n => { n with kind }
  | place position, n => { n with position }
  | resize size, n => { n with size }
  | paint color, n => { n with color }
  | relabel label, n => n.setLabel label
  | input i value, n => (n.setInput i value).2
  | .overlay values, n => (n.overlay values).2
  | .refresh, n => n.refresh
  | restore summary, n => { n with summary }

/-- The nodes that can be made and changed. -/
inductive Built [Scalar S] : Node S → Prop
  | make (id : String) (kind : Kind) (label : String) (position : Vec2 S) (color : Color) :
      Built (make id kind label position color)
  | change {n : Node S} (hn : Built n) (c : Change S) : Built (c.apply n)

/-- The labels of the inputs that the catalog has for a label. -/
def catalogLabels (label : String) : List String := (Template.inputsOf label).map (·.label)

theorem map_label_overlaid (inputs : List Input) (values : List String) :
    (overlaid inputs values).map (·.label) = inputs.map (·.label) := by
  induction inputs generalizing values with
  | nil => cases values <;> rfl
  | cons input inputs ih =>
    cases values with
    | nil => rfl
    | cons value values => simp only [overlaid, List.map_cons, ih]

private theorem map_label_modify (inputs : List Input) (i : Nat) (value : String) :
    (inputs.modify i fun input => { input with value }).map (·.label) = inputs.map (·.label) := by
  induction inputs generalizing i with
  | nil => simp
  | cons input inputs ih =>
    cases i with
    | zero => rfl
    | succ i => simp only [List.modify_succ_cons, List.map_cons, ih]

private theorem setInput_eq (n : Node S) (i : Nat) (value : String) :
    (n.setInput i value).2 = n ∨
      (n.setInput i value).2 = refresh { n with inputs := n.inputs.modify i fun input => { input with value } } := by
  unfold setInput
  split
  · exact .inr rfl
  · exact .inl rfl

private theorem Change.inputLabels_apply (c : Change S) {n : Node S}
    (hn : n.inputs.map (·.label) = catalogLabels n.label) :
    (c.apply n).inputs.map (·.label) = catalogLabels (c.apply n).label := by
  cases c with
  | relabel label => rfl
  | input i value =>
    change (n.setInput i value).2.inputs.map _ = catalogLabels (n.setInput i value).2.label
    rcases setInput_eq n i value with h | h <;> rw [h]
    · exact hn
    · exact (map_label_modify n.inputs i value).trans hn
  | overlay values => exact (map_label_overlaid n.inputs values).trans hn
  | _ => exact hn

/-- The inputs of a node are those of its label. -/
theorem Built.inputLabels [Scalar S] {n : Node S} (h : n.Built) :
    n.inputs.map (·.label) = catalogLabels n.label := by
  induction h with
  | make => rfl
  | change _ c ih => exact c.inputLabels_apply ih

private theorem Change.targets_apply (c : Change S) (n : Node S) : (c.apply n).targets = n.targets := by
  cases c with
  | input i value =>
    change (n.setInput i value).2.targets = _
    rcases setInput_eq n i value with h | h <;> rw [h]
    rfl
  | _ => rfl

private theorem Change.apply_targets (c : Change S) (n : Node S) (targets : List Nat) :
    c.apply { n with targets } = { c.apply n with targets } := by
  cases c with
  | input i value =>
    change (Node.setInput { n with targets } i value).2 = { (n.setInput i value).2 with targets }
    unfold setInput
    dsimp only
    split <;> rfl
  | _ => rfl

theorem Built.withoutTargets [Scalar S] {n : Node S} (h : n.Built) : Built { n with targets := [] } := by
  induction h with
  | make => exact .make ..
  | @change n _ c ih =>
    rw [← c.apply_targets]
    exact .change ih c

/-- A node of the catalog is built. -/
theorem Built.ofTemplate [Scalar S] (id label : String) (position : Vec2 S) :
    (Node.ofTemplate id label position).Built := by
  unfold Node.ofTemplate
  split <;> exact .make ..

end Node

/-! ### Connections -/

/-- Connections of the node at position `i` among `size` nodes: they lead to other nodes, to each one once. -/
structure Linked (size i : Nat) (targets : List Nat) : Prop where
  lt : ∀ t ∈ targets, t < size
  ne : i ∉ targets
  nodup : targets.Nodup

namespace Linked

variable {size i : Nat} {targets : List Nat}

theorem nil : Linked size i [] := ⟨by simp, by simp, by simp⟩

/-- Connections stay as they are when nodes are put on top. -/
theorem mono {size' : Nat} (h : Linked size i targets) (hle : size ≤ size') : Linked size' i targets :=
  ⟨fun t ht => Nat.lt_of_lt_of_le (h.lt t ht) hle, h.ne, h.nodup⟩

theorem append (h : Linked size i targets) {t : Nat} (hlt : t < size) (hne : i ≠ t) (ht : t ∉ targets) :
    Linked size i (targets ++ [t]) := by
  refine ⟨?_, ?_, ?_⟩
  · intro u hu
    rcases List.mem_append.1 hu with hu | hu
    · exact h.lt u hu
    · rw [List.mem_singleton.1 hu]; exact hlt
  · simp only [List.mem_append, List.mem_singleton, not_or]
    exact ⟨h.ne, hne⟩
  · rw [List.nodup_append]
    refine ⟨h.nodup, by simp, ?_⟩
    intro u hu v hv huv
    rw [List.mem_singleton.1 hv] at huv
    exact ht (huv ▸ hu)

theorem filter (h : Linked size i targets) (p : Nat → Bool) : Linked size i (targets.filter p) :=
  ⟨fun t ht => h.lt t (List.mem_filter.1 ht).1, fun hi => h.ne (List.mem_filter.1 hi).1, h.nodup.filter p⟩

/-- The connections of the node at `i` after the removal of another node `r`, with the position that it has then. -/
theorem without {r : Nat} (h : Linked size i targets) (hir : i ≠ r) (hr : r < size) :
    Linked (size - 1) (if r < i then i - 1 else i) (Graph.targetsWithout r targets) := by
  have hmem : ∀ t, t ∈ targets.filter (· != r) → t ∈ targets ∧ t ≠ r := by
    intro t ht
    simpa using ht
  refine ⟨?_, ?_, ?_⟩
  · intro t ht
    obtain ⟨u, hu, rfl⟩ := List.mem_map.1 ht
    obtain ⟨hu, hur⟩ := hmem u hu
    have := h.lt u hu
    split <;> omega
  · intro hi
    obtain ⟨u, hu, hui⟩ := List.mem_map.1 hi
    obtain ⟨hu, hur⟩ := hmem u hu
    have hne : u ≠ i := fun he => h.ne (he ▸ hu)
    split at hui <;> split at hui <;> omega
  · -- two different targets stay different, for neither is `r`
    unfold Graph.targetsWithout
    rw [List.nodup_iff_pairwise_ne, List.pairwise_map]
    refine List.Pairwise.imp_of_mem ?_ (h.nodup.filter _)
    intro t u ht hu htu he
    have ht' := (hmem t ht).2
    have hu' := (hmem u hu).2
    split at he <;> split at he <;> omega

end Linked

/-! ### Graphs -/

namespace Graph

/-- The graphs that the operations on graphs and on their nodes lead to. -/
inductive Built [Scalar S] : Graph S → Prop
  | empty : Built empty
  | add {g : Graph S} (hg : Built g) {n : Node S} (hn : n.Built) : Built (g.add n)
  | change {g : Graph S} (hg : Built g) (i : Nat) (c : Node.Change S) : Built (g.modify i c.apply)
  | connect {g : Graph S} (hg : Built g) (source target : Nat) : Built (g.connect source target).2
  | disconnect {g : Graph S} (hg : Built g) (source target : Nat) : Built (g.disconnect source target).2
  | remove {g : Graph S} (hg : Built g) (i : Nat) : Built (g.remove i).2

/-- Every node of a graph has connections to other nodes of the graph. -/
def Linked (g : Graph S) : Prop :=
  ∀ i n, g.nodes[i]? = some n → ScriptGraph.Linked g.size i n.targets

theorem size_modify (g : Graph S) (i : Nat) (f : Node S → Node S) : (g.modify i f).size = g.size :=
  List.length_modify ..

/-- What no change of a node shows is the same for all nodes after it. -/
theorem map_modify {β : Type} {f : Node S → Node S} {view : Node S → β} (h : ∀ n, view (f n) = view n) (g : Graph S)
    (i : Nat) : (g.modify i f).nodes.map view = g.nodes.map view := by
  apply List.ext_getElem?
  intro j
  rw [modify, List.getElem?_map, List.getElem?_map, List.getElem?_modify]
  cases g.nodes[j]? with
  | none => rfl
  | some n =>
    by_cases hij : i = j
    · simp [hij, h n]
    · simp [hij]

/-- A change that leaves the node at its position as it is changes nothing. -/
theorem modify_eq_self {g : Graph S} {i : Nat} {f : Node S → Node S}
    (h : ∀ n, g.nodes[i]? = some n → f n = n) : g.modify i f = g := by
  have hnodes : g.nodes.modify i f = g.nodes := by
    apply List.ext_getElem?
    intro j
    rw [List.getElem?_modify]
    by_cases hij : i = j
    · subst hij
      cases hn : g.nodes[i]? with
      | none => rfl
      | some n => simp [h n hn]
    · simp [hij]
  rw [modify, hnodes]

/-- A change of the connections of one node keeps a graph linked if the new connections are. -/
private theorem Linked.modify {g : Graph S} (hg : g.Linked) (i : Nat) (f : Node S → Node S)
    (hf : ∀ n, g.nodes[i]? = some n → ScriptGraph.Linked g.size i (f n).targets) : (g.modify i f).Linked := by
  intro j n hn
  rw [size_modify]
  rw [Graph.modify, List.getElem?_modify] at hn
  obtain ⟨m, hm, rfl⟩ := Option.map_eq_some_iff.1 hn
  split
  · next hij => subst hij; exact hf m hm
  · exact hg j m hm

private theorem Linked.add {g : Graph S} (hg : g.Linked) (n : Node S) : (g.add n).Linked := by
  intro i m hm
  have hsize : g.size ≤ (g.add n).size := by simp [Graph.size, Graph.add]
  simp only [Graph.add, List.getElem?_append] at hm
  split at hm
  · exact (hg i m hm).mono hsize
  · have := List.mem_of_getElem? hm
    rw [List.mem_singleton.1 this]
    exact .nil

private theorem Linked.connect {g : Graph S} (hg : g.Linked) (source target : Nat) :
    (g.connect source target).2.Linked := by
  unfold Graph.connect
  split
  · exact hg
  · next hne =>
    split
    · exact hg
    · next hsize =>
      split
      · exact hg
      · next n hn =>
        split
        · exact hg
        · next ht =>
          refine hg.modify source _ ?_
          intro m hm
          have : m = n := Option.some.inj (hm.symm.trans hn)
          subst this
          exact (hg source m hm).append (by omega) hne (by simpa using ht)

private theorem Linked.disconnect {g : Graph S} (hg : g.Linked) (source target : Nat) :
    (g.disconnect source target).2.Linked := by
  unfold Graph.disconnect
  split
  · exact hg
  · exact hg.modify source _ fun n hn => (hg source n hn).filter _

private theorem Linked.remove {g : Graph S} (hg : g.Linked) (r : Nat) : (g.remove r).2.Linked := by
  unfold Graph.remove
  split
  · exact hg
  · next removed hremoved =>
    have hr : r < g.nodes.length := (List.getElem?_eq_some_iff.1 hremoved).1
    intro i m hm
    have hsize : ((g.nodes.eraseIdx r).map fun n => { n with targets := targetsWithout r n.targets }).length =
        g.size - 1 := by
      rw [List.length_map, List.length_eraseIdx_of_lt hr]; rfl
    simp only [List.getElem?_map, List.getElem?_eraseIdx, Option.map_eq_some_iff] at hm
    obtain ⟨n, hn, rfl⟩ := hm
    rw [Graph.size, hsize]
    -- the node at `i` stood at `i` or one place above it
    split at hn
    · next hlt =>
      have := (hg i n hn).without (r := r) (by omega) hr
      simpa [Nat.not_lt.2 (Nat.le_of_lt hlt)] using this
    · next hge =>
      have := (hg (i + 1) n hn).without (r := r) (by omega) hr
      simpa [show r < i + 1 by omega] using this

/-- The connections of every node lead to other nodes of the graph, to each one once. -/
theorem Built.linked [Scalar S] {g : Graph S} (h : g.Built) : g.Linked := by
  induction h with
  | empty => intro i n hn; simp [Graph.empty] at hn
  | add _ _ ih => exact ih.add _
  | change _ i c ih =>
    exact ih.modify i c.apply fun n hn => by rw [c.targets_apply]; exact ih i n hn
  | connect _ source target ih => exact ih.connect source target
  | disconnect _ source target ih => exact ih.disconnect source target
  | remove _ i ih => exact ih.remove i

private theorem mem_modify {g : Graph S} {i : Nat} {f : Node S → Node S} {n : Node S}
    (hn : n ∈ (g.modify i f).nodes) : ∃ m ∈ g.nodes, n = m ∨ n = f m := by
  obtain ⟨j, hj⟩ := List.mem_iff_getElem?.1 hn
  rw [modify, List.getElem?_modify] at hj
  obtain ⟨m, hm, rfl⟩ := Option.map_eq_some_iff.1 hj
  refine ⟨m, List.mem_of_getElem? hm, ?_⟩
  split
  · exact .inr rfl
  · exact .inl rfl

/-- Without its connections, a node of a graph is a node that can be built, so it may be put into a graph again. -/
theorem Built.node_built [Scalar S] {g : Graph S} (h : g.Built) :
    ∀ n ∈ g.nodes, Node.Built { n with targets := [] } := by
  -- an operation that changes connections only leaves every node as it was in this sense
  have hmodify : ∀ {g : Graph S} {i : Nat} {f : Node S → List Nat},
      (∀ n ∈ g.nodes, Node.Built { n with targets := [] }) →
      ∀ n ∈ (g.modify i fun n => { n with targets := f n }).nodes, Node.Built { n with targets := [] } := by
    intro g i f hg n hn
    obtain ⟨m, hm, hnm⟩ := mem_modify hn
    rcases hnm with rfl | rfl
    · exact hg _ hm
    · exact hg m hm
  induction h with
  | empty => simp [Graph.empty]
  | @add g _ n hn ih =>
    intro m hm
    rcases List.mem_append.1 hm with hm | hm
    · exact ih m hm
    · rw [List.mem_singleton.1 hm]
      exact hn.withoutTargets
  | change _ i c ih =>
    intro n hn
    obtain ⟨m, hm, hnm⟩ := mem_modify hn
    rcases hnm with rfl | rfl
    · exact ih _ hm
    · rw [← c.apply_targets]
      exact .change (ih m hm) c
  | @connect g _ source target ih =>
    unfold Graph.connect
    repeat' split
    all_goals first
      | exact ih
      | exact hmodify ih
  | @disconnect g _ source target ih =>
    unfold Graph.disconnect
    split
    · exact ih
    · exact hmodify ih
  | @remove g _ i ih =>
    unfold Graph.remove
    split
    · exact ih
    · intro n hn
      obtain ⟨m, hm, rfl⟩ := List.mem_map.1 hn
      exact ih m (List.mem_of_mem_eraseIdx hm)

/-- The inputs of the nodes of a graph are those of their labels. -/
theorem Built.inputLabels [Scalar S] {g : Graph S} (h : g.Built) {n : Node S} (hn : n ∈ g.nodes) :
    n.inputs.map (·.label) = Node.catalogLabels n.label :=
  (h.node_built n hn).inputLabels

end Graph

end ScriptGraph
