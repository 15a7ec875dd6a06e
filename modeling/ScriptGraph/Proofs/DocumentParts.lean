import ScriptGraph.Proofs.DocumentRoundTrip

/-!
# Records of some nodes of a graph

The records of some nodes of a graph are read as the part of the graph that consists of these nodes
(`ofRecords_survivors`).  An identifier of a node that is not among them leads nowhere, so as many identifiers are
dropped as there are severed edges.  Only what `Storable` says of the graph is used: it holds of graphs that are built
with different identifiers, and of those that were read.
-/

namespace ScriptGraph.Document

/-- A graph that its document describes completely. -/
structure Storable (g : Graph Float32) : Prop where
  linked : g.Linked
  inputLabels : ∀ n ∈ g.nodes, n.inputs.map (·.label) = Node.catalogLabels n.label
  named : ∀ n ∈ g.nodes, n.id ≠ ""
  nodup : (g.nodes.map (·.id)).Nodup
  kinds : ∀ n ∈ g.nodes, ∃ s, n.kind = Kind.ofName s
  finite : ∀ n ∈ g.nodes, n.position.x.isFinite = true ∧ n.position.y.isFinite = true
  readBack : ∀ n ∈ g.nodes, IsReadBack n.position.x ∧ IsReadBack n.position.y

variable {g : Graph Float32}

theorem Storable.of_built (hbuilt : g.Built) (hid : ∀ n ∈ g.nodes, n.id ≠ "") (hnodup : (g.nodes.map (·.id)).Nodup)
    (hkind : ∀ n ∈ g.nodes, ∃ s, n.kind = Kind.ofName s)
    (hfinite : ∀ n ∈ g.nodes, n.position.x.isFinite = true ∧ n.position.y.isFinite = true)
    (hread : ∀ n ∈ g.nodes, ∀ x ∈ [n.position.x, n.position.y], x.isFinite = true → IsReadBack x) : Storable g where
  linked := hbuilt.linked
  inputLabels _ hn := hbuilt.inputLabels hn
  named := hid
  nodup := hnodup
  kinds := hkind
  finite := hfinite
  readBack n hn := ⟨hread n hn _ (by simp) (hfinite n hn).1, hread n hn _ (by simp) (hfinite n hn).2⟩

/-! ### Reading some of the records -/

/-- The nodes that are read from the records of kept nodes, each with its list of identifiers. -/
private def keptNodes (g : Graph Float32) (kept : Nat → Bool) : List (Node Float32 × List String) :=
  (g.survivors kept).map fun p => (unlinked p.1, targetIds g p.1)

private theorem zipIdx_keptNodes (g : Graph Float32) (kept : Nat → Bool) :
    (keptNodes g kept).zipIdx =
      (g.survivors kept).map fun p => ((unlinked p.1, targetIds g p.1), Graph.rank kept p.2) := by
  rw [keptNodes, List.zipIdx_map, Graph.zipIdx_survivors, List.map_map]
  rfl

private theorem ids_keptNodes (g : Graph Float32) (kept : Nat → Bool) :
    (bare (keptNodes g kept)).nodes.map (·.id) = (g.survivors kept).map (·.1.id) := by
  simp [bare, keptNodes, unlinked, Function.comp_def]

private theorem nodup_survivors (h : Storable g) (kept : Nat → Bool) :
    ((g.survivors kept).map (·.1.id)).Nodup := by
  have hall : g.nodes.zipIdx.map (·.1.id) = g.nodes.map (·.id) := by
    have hfst := congrArg (List.map (·.id)) (List.zipIdx_map_fst 0 g.nodes)
    rwa [List.map_map] at hfst
  have hsub : ((g.survivors kept).map (·.1.id)).Sublist (g.nodes.zipIdx.map (·.1.id)) :=
    List.filter_sublist.map _
  rw [hall] at hsub
  exact h.nodup.sublist hsub

private theorem finds_keptNodes (h : Storable g) (kept : Nat → Bool) : Finds (bare (keptNodes g kept)) g kept := by
  intro t m hm
  by_cases hkt : kept t = true
  · have hnode : (⟨(g.survivors kept).map (·.1)⟩ : Graph Float32).nodes[Graph.rank kept t]? = some m := by
      rw [List.getElem?_map, Graph.getElem?_rank hm hkt]
      rfl
    have hids : (bare (keptNodes g kept)).nodes.map (·.id) = ((g.survivors kept).map (·.1)).map (·.id) := by
      rw [ids_keptNodes, List.map_map]
      rfl
    have hnodup : (((g.survivors kept).map (·.1)).map (·.id)).Nodup := by
      rw [List.map_map]
      exact nodup_survivors h kept
    rw [indexOf?_of_nodup hids hnodup hnode, if_pos hkt]
  · -- a kept node with the same identifier would stand at the same position
    rw [if_neg hkt, Graph.indexOf?_eq_findIdx?, ids_keptNodes, List.findIdx?_eq_none_iff]
    intro id hid
    obtain ⟨⟨n, i⟩, hp, rfl⟩ := List.mem_map.1 hid
    obtain ⟨hn, hki⟩ := Graph.mem_survivors.1 hp
    rw [beq_eq_false_iff_ne]
    intro hsame
    have hi := indexOf?_of_nodup rfl h.nodup hn
    have ht := indexOf?_of_nodup rfl h.nodup hm
    rw [hsame, ht] at hi
    exact hkt (Option.some.inj hi ▸ hki)

private theorem survivor_facts (h : Storable g) {kept : Nat → Bool} {p : Node Float32 × Nat}
    (hp : p ∈ g.survivors kept) : p.2 < g.size ∧ kept p.2 = true ∧ Linked g.size p.2 p.1.targets ∧ p.1 ∈ g.nodes := by
  obtain ⟨hn, hkept⟩ := Graph.mem_survivors.1 hp
  exact ⟨(List.getElem?_eq_some_iff.1 hn).1, hkept, h.linked _ _ hn, List.mem_of_getElem? hn⟩

private theorem linkAll_keptNodes (h : Storable g) (kept : Nat → Bool) :
    linkAll (keptNodes g kept) = ⟨(g.induced kept).nodes.map relinked⟩ := by
  rw [linkAll, zipIdx_keptNodes, List.map_map, Graph.induced, List.map_map]
  refine congrArg Graph.mk (List.map_congr_left ?_)
  intro p hp
  obtain ⟨hi, hkept, hlinked, -⟩ := survivor_facts h hp
  dsimp only [Function.comp_apply]
  rw [resolve_targetIds (finds_keptNodes h kept) hi hkept hlinked]
  rfl

private theorem length_lostIds_keptNodes (h : Storable g) (kept : Nat → Bool) :
    (lostIds (keptNodes g kept)).length = (g.severed kept).length := by
  rw [lostIds, zipIdx_keptNodes, List.flatMap_map, Graph.severed_eq, List.length_flatMap, List.length_flatMap]
  refine congrArg List.sum (List.map_congr_left ?_)
  intro p hp
  obtain ⟨hi, hkept, hlinked, -⟩ := survivor_facts h hp
  have hlost := countP_isLost_targetIds (finds_keptNodes h kept) hi hkept hlinked
  rw [List.countP_eq_length_filter, List.countP_eq_length_filter] at hlost
  rw [List.length_map, hlost]

theorem nodeOfRecord_recordOf_of_storable (h : Storable g) {n : Node Float32} (hn : n ∈ g.nodes) :
    nodeOfRecord (recordOf g n) = unlinked n :=
  nodeOfRecord_recordOf g (h.inputLabels n hn) (h.kinds n hn) (h.readBack n hn).1 (h.readBack n hn).2
    (h.finite n hn).1 (h.finite n hn).2

/-- The records of some nodes give these nodes and the connections between them. -/
theorem ofRecords_survivors (h : Storable g) (fresh : Nat → String) (skipped : Nat) {kept : Nat → Bool}
    (hne : g.survivors kept ≠ []) :
    ofRecords fresh skipped ((g.survivors kept).map fun p => recordOf g p.1) =
      .ok (⟨(g.induced kept).nodes.map relinked⟩, ⟨skipped, (g.severed kept).length, 0⟩) := by
  have hnodes : ((g.survivors kept).map fun p => recordOf g p.1).map nodeOfRecord =
      (keptNodes g kept).map (·.1) := by
    rw [keptNodes, List.map_map, List.map_map]
    apply List.map_congr_left
    intro p hp
    obtain ⟨-, -, -, hmem⟩ := survivor_facts h hp
    rw [Function.comp_apply, nodeOfRecord_recordOf_of_storable h hmem]
    rfl
  have hrekey : rekey fresh 0 [] (((g.survivors kept).map fun p => recordOf g p.1).map nodeOfRecord) =
      (0, (keptNodes g kept).map (·.1)) := by
    rw [hnodes]
    apply rekey_of_nodup
    · intro m hm
      obtain ⟨q, hq, rfl⟩ := List.mem_map.1 hm
      obtain ⟨p, hp, rfl⟩ := List.mem_map.1 hq
      obtain ⟨-, -, -, hmem⟩ := survivor_facts h hp
      exact h.named p.1 hmem
    · have hids := nodup_survivors h kept
      rw [← ids_keptNodes] at hids
      exact hids
    · simp
  have hlists : (keptNodes g kept).map (·.2) =
      ((g.survivors kept).map fun p => recordOf g p.1).map (listField · "connectionIds") := by
    rw [keptNodes, List.map_map, List.map_map]
    apply List.map_congr_left
    intro p _
    rw [Function.comp_apply, Function.comp_apply, listField_connectionIds]
  have hbare : ∀ p ∈ keptNodes g kept, p.1.targets = [] := by
    intro q hq
    obtain ⟨p, -, rfl⟩ := List.mem_map.1 hq
    rfl
  -- what is read depends on nothing but these nodes and lists
  rw [ofRecords_eq skipped (by simpa using hne) hrekey hlists hbare, linkAll_keptNodes h,
    length_lostIds_keptNodes h]

/-! ### Reading all of them -/

/-- The whole document of a graph is read as the whole graph. -/
theorem decodeChars_encodeChars (h : Storable g) (hne : g.nodes ≠ []) (fresh : Nat → String) :
    decodeChars fresh (encodeChars g) = .ok (⟨g.nodes.map relinked⟩, ⟨0, 0, 0⟩) := by
  have hall : g.survivors (fun _ => true) = g.nodes.zipIdx := Graph.survivors_of_all fun _ => rfl
  have hsome : g.survivors (fun _ => true) ≠ [] := by
    rw [hall]
    simpa using hne
  have hrecords : (g.survivors fun _ => true).map (fun p => recordOf g p.1) = g.nodes.map (recordOf g) := by
    rw [hall]
    calc
      g.nodes.zipIdx.map (fun p => recordOf g p.1) = (g.nodes.zipIdx.map (·.1)).map (recordOf g) := by
        rw [List.map_map, Function.comp_def]
      _ = g.nodes.map (recordOf g) := by rw [List.zipIdx_map_fst]
  have hread := ofRecords_survivors h fresh 0 hsome
  rw [hrecords, Graph.induced_of_all fun _ => rfl, Graph.severed_of_all fun _ => rfl] at hread
  rw [decodeChars, records_encodeChars hne h.readBack]
  exact hread

/-! ### Equal documents -/

private theorem targetIds_congr {g g' : Graph Float32} {n n' : Node Float32}
    (hids : g'.nodes.map (·.id) = g.nodes.map (·.id)) (htargets : n'.targets = n.targets) :
    targetIds g' n' = targetIds g n := by
  rw [targetIds, targetIds, htargets]
  apply List.filterMap_congr
  intro t _
  rw [Graph.node?, Graph.node?, ← List.getElem?_map, ← List.getElem?_map, hids]

private theorem map_eq_of_forall₂ {α β : Type} {R : α → α → Prop} {f f' : α → β} {l l' : List α}
    (h : List.Forall₂ R l l') (heq : ∀ a a', R a a' → f' a' = f a) : l'.map f' = l.map f := by
  induction h with
  | nil => rfl
  | cons hR _ ih => rw [List.map_cons, List.map_cons, ih, heq _ _ hR]

/-- The document of a graph holds no more than the records of its nodes. -/
theorem encode_congr {g g' : Graph Float32} (h : List.Forall₂ SameRecord g.nodes g'.nodes) :
    encode g' = encode g := by
  have hids : g'.nodes.map (·.id) = g.nodes.map (·.id) := map_eq_of_forall₂ h fun _ _ hn => hn.id.symm
  have hrecord : ∀ n n', SameRecord n n' → recordChars g' n' = recordChars g n := by
    intro n n' hn
    unfold recordChars
    rw [targetIds_congr hids hn.targets.symm, hn.id, hn.kind, hn.label, hn.position, hn.inputs, hn.summary, hn.color]
  have hrecords : g'.nodes.map (recordChars g') = g.nodes.map (recordChars g) := map_eq_of_forall₂ h hrecord
  have hchars (k : Graph Float32) :
      encodeChars k = (k.nodes.map (recordChars k)).flatMap fun line => line ++ ['\n'] := by
    rw [encodeChars, List.flatMap_map]
  rw [encode, encode, hchars, hchars, hrecords]

end ScriptGraph.Document
