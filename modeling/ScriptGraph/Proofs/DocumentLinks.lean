import Mathlib.Data.List.Induction
import ScriptGraph.Document
import ScriptGraph.Proofs.Construction

/-!
# Connections that are made by identifiers

Once all nodes of a document are there, their lists of identifiers are followed one after the other.  What comes of it
can be said at once: a node is connected to the other nodes that its identifiers lead to, to each one at the first
identifier that leads there (`resolve`), and the identifiers that lead to no other node are lost (`isLost`).  Both
depend only on the identifiers of the nodes, which making connections does not change; so the whole pass is
`ofRecords_eq`.
-/

namespace ScriptGraph

namespace Graph

variable {S : Type}

theorem indexOf?_eq_findIdx? (g : Graph S) (id : String) :
    g.indexOf? id = (g.nodes.map (·.id)).findIdx? (· == id) := by
  rw [List.findIdx?_map]
  rfl

/-- Identifiers lead to the same positions in graphs whose nodes have the same identifiers. -/
theorem indexOf?_congr {g h : Graph S} (hids : h.nodes.map (·.id) = g.nodes.map (·.id)) :
    h.indexOf? = g.indexOf? := by
  funext id
  rw [indexOf?_eq_findIdx?, indexOf?_eq_findIdx?, hids]

/-- Between two nodes that are there, a connection fails only as a loop, and it is made only once. -/
theorem connect_of_lt {g : Graph S} {source target : Nat} {n : Node S} (hn : g.nodes[source]? = some n)
    (hlt : target < g.size) :
    g.connect source target =
      if source = target then (.error (.node ("node " ++ indexName source ++ " cannot connect to itself")), g)
      else if target ∈ n.targets then (.ok false, g)
      else (.ok true, g.modify source fun n => { n with targets := n.targets ++ [target] }) := by
  unfold connect
  rw [hn, if_neg (Nat.not_le.2 hlt)]
  simp only [List.contains_iff_mem]

theorem lt_size_of_indexOf? {g : Graph S} {id : String} {i : Nat} (h : g.indexOf? id = some i) : i < g.size :=
  (List.findIdx?_eq_some_iff_getElem.1 h).1

end Graph

namespace Document

/-! ### Following the identifiers of one node -/

/-- The other nodes that the identifiers of the node at a position lead to, in the order of the first identifiers that
lead there. -/
def resolve (g : Graph Float32) (source : Nat) (ids : List String) : List Nat :=
  ((ids.filterMap g.indexOf?).filter (· != source)).eraseDups

/-- Whether an identifier leads from the node at a position to no other node. -/
def isLost (g : Graph Float32) (source : Nat) (id : String) : Bool :=
  (g.indexOf? id).all (· == source)

private theorem eraseDups_concat (l : List Nat) (a : Nat) :
    (l ++ [a]).eraseDups = if a ∈ l then l.eraseDups else l.eraseDups ++ [a] := by
  rw [List.eraseDups_append]
  split
  · next h => simp [List.removeAll, h]
  · next h => simp [List.removeAll, h, List.eraseDups_cons]

private theorem nodup_eraseDups (l : List Nat) : l.eraseDups.Nodup := by
  induction l using List.reverseRecOn with
  | nil => simp
  | append_singleton l a ih =>
    rw [eraseDups_concat]
    split
    · exact ih
    · next h =>
      rw [List.nodup_append]
      refine ⟨ih, by simp, ?_⟩
      rintro b hb c hc rfl
      rw [List.mem_singleton.1 hc, List.mem_eraseDups] at hb
      exact h hb

theorem eraseDups_of_nodup {l : List Nat} (h : l.Nodup) : l.eraseDups = l := by
  induction l using List.reverseRecOn with
  | nil => rfl
  | append_singleton l a ih =>
    rw [List.nodup_append] at h
    have ha : a ∉ l := fun hmem => h.2.2 a hmem a (by simp) rfl
    rw [eraseDups_concat, if_neg ha, ih h.1]

theorem linked_resolve (g : Graph Float32) (source : Nat) (ids : List String) :
    Linked g.size source (resolve g source ids) := by
  have hmem : ∀ t ∈ resolve g source ids, (∃ id ∈ ids, g.indexOf? id = some t) ∧ t ≠ source := by
    intro t ht
    rw [resolve, List.mem_eraseDups, List.mem_filter, List.mem_filterMap, bne_iff_ne] at ht
    exact ht
  refine ⟨?_, fun h => (hmem source h).2 rfl, nodup_eraseDups _⟩
  intro t ht
  obtain ⟨⟨id, -, hid⟩, -⟩ := hmem t ht
  exact Graph.lt_size_of_indexOf? hid

theorem resolve_concat (g : Graph Float32) (source : Nat) (ids : List String) (id : String) :
    resolve g source (ids ++ [id]) =
      match g.indexOf? id with
      | none => resolve g source ids
      | some t => if t = source ∨ t ∈ resolve g source ids then resolve g source ids
        else resolve g source ids ++ [t] := by
  cases hid : g.indexOf? id with
  | none => simp [resolve, hid]
  | some t =>
    by_cases ht : t = source
    · simp [resolve, hid, ht]
    · simp only [resolve, List.filterMap_append, List.filterMap_cons, hid, List.filterMap_nil, List.filter_append,
        List.filter_cons, bne_iff_ne.2 ht, if_true, List.filter_nil, eraseDups_concat, List.mem_eraseDups, ht,
        false_or]

/-- Following the identifiers of a node without connections gives it the connections that they lead to. -/
theorem connectAll_eq {g : Graph Float32} {source : Nat} {n : Node Float32} (hn : g.nodes[source]? = some n)
    (hbare : n.targets = []) (dropped : Nat) (ids : List String) :
    connectAll source ids (dropped, g) =
      (dropped + ids.countP (isLost g source),
        g.modify source fun n => { n with targets := resolve g source ids }) := by
  -- the last identifier is followed in a graph with the connections of all others
  induction ids using List.reverseRecOn with
  | nil =>
    have hsame : (g.modify source fun n => { n with targets := resolve g source [] }) = g := by
      apply Graph.modify_eq_self
      intro m hm
      rw [hn] at hm
      cases hm
      rw [show resolve g source [] = [] from rfl, ← hbare]
    rw [hsame]
    rfl
  | append_singleton ids id ih =>
    have hids : (g.modify source fun n => { n with targets := resolve g source ids }).nodes.map (·.id) =
        g.nodes.map (·.id) := Graph.map_modify (by simp) g source
    have hnode : (g.modify source fun n => { n with targets := resolve g source ids }).nodes[source]? =
        some { n with targets := resolve g source ids } := by
      rw [Graph.modify, List.getElem?_modify, hn]
      simp
    rw [connectAll, List.foldl_append]
    rw [connectAll] at ih
    rw [ih, List.foldl_cons, List.foldl_nil]
    dsimp only
    rw [Graph.indexOf?_congr hids, List.countP_append, List.countP_singleton, isLost, resolve_concat]
    cases hid : g.indexOf? id with
    | none => rfl
    | some t =>
      have hlt : t < (g.modify source fun n => { n with targets := resolve g source ids }).size := by
        rw [Graph.size_modify]
        exact Graph.lt_size_of_indexOf? hid
      dsimp only [Option.all_some]
      rw [Graph.connect_of_lt hnode hlt]
      -- a connection is an error, there already, or new
      by_cases hloop : source = t
      · simp [hloop, Nat.add_assoc]
      · by_cases hmem : t ∈ resolve g source ids
        · simp [hloop, Ne.symm hloop, hmem]
        · have htwice : (g.modify source fun n => { n with targets := resolve g source ids }).modify source
              (fun n => { n with targets := n.targets ++ [t] }) =
              g.modify source fun n => { n with targets := resolve g source ids ++ [t] } := by
            rw [Graph.modify, Graph.modify, List.modify_modify_eq]
            rfl
          simp [hloop, Ne.symm hloop, hmem, htwice]

/-! ### All nodes -/

/-- Nodes with their lists of identifiers, before they are connected. -/
def bare (ps : List (Node Float32 × List String)) : Graph Float32 := ⟨ps.map (·.1)⟩

/-- Nodes that are connected to those that their identifiers lead to. -/
def linkAll (ps : List (Node Float32 × List String)) : Graph Float32 :=
  ⟨ps.zipIdx.map fun (p, i) => { p.1 with targets := resolve (bare ps) i p.2 }⟩

/-- The identifiers that lead to no other node. -/
def lostIds (ps : List (Node Float32 × List String)) : List String :=
  ps.zipIdx.flatMap fun (p, i) => p.2.filter (isLost (bare ps) i)

theorem modify_length_append {α : Type} (l : List α) (a : α) (r : List α) (f : α → α) :
    (l ++ a :: r).modify l.length f = l ++ f a :: r := by
  induction l with
  | nil => simp
  | cons b l ih => simp [ih]

/-- The pass over the nodes `todo` after some others, which are connected already. -/
theorem foldl_connectAll_append {g : Graph Float32} (todo : List (Node Float32 × List String))
    (done : List (Node Float32)) (dropped : Nat) (hids : (done ++ todo.map (·.1)).map (·.id) = g.nodes.map (·.id))
    (hbare : ∀ p ∈ todo, p.1.targets = []) :
    ((todo.map (·.2)).zipIdx done.length).foldl (fun state (ids, source) => connectAll source ids state)
        (dropped, ⟨done ++ todo.map (·.1)⟩) =
      (dropped + ((todo.zipIdx done.length).flatMap fun (p, i) => p.2.filter (isLost g i)).length,
        ⟨done ++ (todo.zipIdx done.length).map fun (p, i) => { p.1 with targets := resolve g i p.2 }⟩) := by
  -- the identifiers of all nodes are those of `g` at any time, so each node finds the same others
  induction todo generalizing done dropped with
  | nil => simp
  | cons p todo ih =>
    have hn : (done ++ (p :: todo).map (·.1))[done.length]? = some p.1 := by simp
    have hindex : Graph.indexOf? ⟨done ++ (p :: todo).map (·.1)⟩ = g.indexOf? := Graph.indexOf?_congr hids
    have hstep := connectAll_eq (g := ⟨done ++ (p :: todo).map (·.1)⟩) hn (hbare p (by simp)) dropped p.2
    have hresolve : resolve ⟨done ++ (p :: todo).map (·.1)⟩ done.length p.2 = resolve g done.length p.2 := by
      rw [resolve, resolve, hindex]
    have hlost : isLost ⟨done ++ (p :: todo).map (·.1)⟩ done.length = isLost g done.length := by
      funext id
      rw [isLost, isLost, hindex]
    have hrest := ih (done ++ [{ p.1 with targets := resolve g done.length p.2 }])
      (dropped + p.2.countP (isLost g done.length)) (by simpa using hids) (fun q hq => hbare q (by simp [hq]))
    rw [hresolve, hlost, Graph.modify, List.map_cons, modify_length_append] at hstep
    rw [List.map_cons, List.map_cons, List.zipIdx_cons, List.foldl_cons]
    dsimp only
    rw [hstep]
    simp only [List.length_append, List.length_singleton, List.append_assoc, List.singleton_append] at hrest
    rw [hrest, List.zipIdx_cons, List.flatMap_cons, List.map_cons, List.length_append, List.countP_eq_length_filter,
      Nat.add_assoc]

/-- The graph of some records: their nodes with identifiers of their own, connected as their lists of identifiers
say. -/
theorem ofRecords_eq {fresh : Nat → String} {rs : List Record} {ps : List (Node Float32 × List String)}
    {rekeyed : Nat}
    (skipped : Nat) (hne : rs ≠ []) (hnodes : rekey fresh 0 [] (rs.map nodeOfRecord) = (rekeyed, ps.map (·.1)))
    (hlists : ps.map (·.2) = rs.map (listField · "connectionIds")) (hbare : ∀ p ∈ ps, p.1.targets = []) :
    ofRecords fresh skipped rs = .ok (linkAll ps, ⟨skipped, (lostIds ps).length, rekeyed⟩) := by
  have hpass := foldl_connectAll_append (g := bare ps) ps [] 0 rfl hbare
  rw [List.length_nil, List.nil_append, List.nil_append, Nat.zero_add] at hpass
  unfold ofRecords
  rw [if_neg (by simpa using hne), hnodes, ← hlists]
  dsimp only
  rw [hpass]
  rfl

theorem ids_linkAll (ps : List (Node Float32 × List String)) :
    (linkAll ps).nodes.map (·.id) = ps.map (·.1.id) := by
  have hfst := congrArg (List.map (·.1.id)) (List.zipIdx_map_fst 0 ps)
  rw [List.map_map] at hfst
  rw [linkAll, List.map_map]
  exact hfst

/-- Connections made by identifiers lead to other nodes, to each one once. -/
theorem linked_linkAll (ps : List (Node Float32 × List String)) : (linkAll ps).Linked := by
  have hsize : (linkAll ps).size = (bare ps).size := by simp [linkAll, bare, Graph.size]
  intro i n hn
  rw [linkAll, List.getElem?_map] at hn
  obtain ⟨⟨p, j⟩, hp, rfl⟩ := Option.map_eq_some_iff.1 hn
  rw [List.getElem?_zipIdx, Nat.zero_add] at hp
  obtain ⟨q, -, hq⟩ := Option.map_eq_some_iff.1 hp
  obtain ⟨rfl, rfl⟩ := Prod.mk.inj hq
  rw [hsize]
  exact linked_resolve ..

end Document

end ScriptGraph
