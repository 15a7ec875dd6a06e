import Mathlib.Logic.Relation
import ScriptGraph.Analysis

/-!
# What the analysis finds

The depth-first search collects what connections lead to (`Graph.mem_reach_iff`): it stays among the nodes that can be
reached, and when it ends, no connection leads out of what it has collected.  So the answers of the analysis are facts
about paths: a chain can come back to a node if a path does (`Graph.isCyclic_iff`), and a node cannot be reached if no
path from an event leads there (`Graph.mem_unreachable_iff`).
-/

namespace ScriptGraph.Graph

open Relation (ReflTransGen TransGen)

variable {S : Type} {g : Graph S} {i j : Nat}

/-! ### Connections and events -/

theorem mem_edges_iff : (i, j) ∈ g.edges ↔ ∃ n, g.nodes[i]? = some n ∧ j ∈ n.targets := by
  rw [edges, List.mem_flatMap]
  constructor
  · rintro ⟨⟨k, n⟩, hn, hj⟩
    obtain ⟨⟨m, l⟩, hm, heq⟩ := List.mem_map.1 hn
    obtain ⟨rfl, rfl⟩ := Prod.mk.inj heq
    obtain ⟨t, ht, heq⟩ := List.mem_map.1 hj
    obtain ⟨rfl, rfl⟩ := Prod.mk.inj heq
    exact ⟨m, List.mem_zipIdx_iff_getElem?.1 hm, ht⟩
  · rintro ⟨n, hn, hj⟩
    exact ⟨(i, n), List.mem_map.2 ⟨(n, i), List.mem_zipIdx_iff_getElem?.2 hn, rfl⟩, List.mem_map.2 ⟨j, hj, rfl⟩⟩

theorem mem_events {n : Node S} : (i, n) ∈ g.events ↔ g.nodes[i]? = some n ∧ n.kind = .event := by
  rw [events, List.mem_filter, indexed, List.mem_map]
  constructor
  · rintro ⟨⟨⟨m, j⟩, hmem, heq⟩, hkind⟩
    obtain ⟨rfl, rfl⟩ := Prod.mk.inj heq
    exact ⟨List.mem_zipIdx_iff_getElem?.1 hmem, by simpa using hkind⟩
  · rintro ⟨hnode, hkind⟩
    exact ⟨⟨(n, i), List.mem_zipIdx_iff_getElem?.2 hnode, rfl⟩, by simpa using hkind⟩

theorem edgeCount_eq (g : Graph S) : g.edgeCount = g.edges.length := by
  have key (nodes : List (Node S)) (k : Nat) :
      nodes.foldr (fun n count => n.targets.length + count) 0 =
        (((nodes.zipIdx k).map fun p => (p.2, p.1)).flatMap fun p => p.2.targets.map fun t => (p.1, t)).length := by
    induction nodes generalizing k with
    | nil => rfl
    | cons n nodes ih => simp [ih (k + 1)]
  exact key g.nodes 0

/-- A connection leads from one position to another. -/
def Edge (g : Graph S) (i j : Nat) : Prop := (i, j) ∈ g.edges

theorem edge_iff : g.Edge i j ↔ j ∈ g.successors i := by
  rw [Edge, mem_edges_iff, successors]
  cases g.nodes[i]? <;> simp

theorem Edge.lt (h : g.Edge i j) : i < g.size := by
  obtain ⟨n, hn, -⟩ := mem_edges_iff.1 h
  exact (List.getElem?_eq_some_iff.1 hn).1

/-! ### The search -/

/-- Everything that the search collects can be reached. -/
private theorem of_contains_reach {seen : NodeSet} {starts : List Nat} (h : (g.reach seen starts).contains j = true) :
    seen.contains j = true ∨ j < g.size ∧ ∃ s ∈ starts, ReflTransGen g.Edge s j := by
  induction seen, starts using reach.induct g with
  | case1 seen =>
    rw [reach] at h
    exact .inl h
  | case2 seen i rest hnew ih =>
    rw [reach, dif_pos hnew] at h
    rcases ih h with hseen | ⟨hj, s, hs, hpath⟩
    · rw [Std.TreeSet.contains_insert, Bool.or_eq_true, beq_iff_eq] at hseen
      rcases hseen with heq | hseen
      · obtain rfl : i = j := Std.LawfulEqCmp.compare_eq_iff_eq.1 heq
        exact .inr ⟨hnew.1, i, List.mem_cons_self, .refl⟩
      · exact .inl hseen
    · refine .inr ⟨hj, ?_⟩
      rcases List.mem_append.1 hs with hs | hs
      · exact ⟨i, List.mem_cons_self, .head (edge_iff.2 hs) hpath⟩
      · exact ⟨s, List.mem_cons_of_mem _ hs, hpath⟩
  | case3 seen i rest hold ih =>
    rw [reach, dif_neg hold] at h
    rcases ih h with hseen | ⟨hj, s, hs, hpath⟩
    · exact .inl hseen
    · exact .inr ⟨hj, s, List.mem_cons_of_mem _ hs, hpath⟩

/-- What a search has collected from some starts when it ends: no connection of a node that it came to leads
elsewhere. -/
private structure Collects (g : Graph S) (seen : NodeSet) (starts : List Nat) (all : NodeSet) : Prop where
  kept : ∀ i, seen.contains i = true → all.contains i = true
  begun : ∀ i ∈ starts, i < g.size → all.contains i = true
  closed : ∀ i j, all.contains i = true → seen.contains i = false → g.Edge i j → j < g.size → all.contains j = true

private theorem collects_reach (g : Graph S) (seen : NodeSet) (starts : List Nat) :
    Collects g seen starts (g.reach seen starts) := by
  induction seen, starts using reach.induct g with
  | case1 seen =>
    rw [reach]
    refine ⟨fun i hi => hi, by simp, fun i j hi hnot => ?_⟩
    rw [hi] at hnot
    cases hnot
  | case2 seen i rest hnew ih =>
    rw [reach, dif_pos hnew]
    refine ⟨fun k hk => ih.kept k ?_, fun k hk hlt => ?_, fun k j hk hnot hedge hlt => ?_⟩
    · rw [Std.TreeSet.contains_insert, hk, Bool.or_true]
    · rcases List.mem_cons.1 hk with rfl | hk
      · exact ih.kept k Std.TreeSet.contains_insert_self
      · exact ih.begun k (List.mem_append_right _ hk) hlt
    · by_cases hki : k = i
      · subst hki
        exact ih.begun j (List.mem_append_left _ (edge_iff.1 hedge)) hlt
      · refine ih.closed k j hk ?_ hedge hlt
        rw [Std.TreeSet.contains_insert, hnot, Bool.or_false, beq_eq_false_iff_ne]
        exact fun heq => hki (Std.LawfulEqCmp.compare_eq_iff_eq.1 heq).symm
  | case3 seen i rest hold ih =>
    rw [reach, dif_neg hold]
    refine ⟨ih.kept, fun k hk hlt => ?_, ih.closed⟩
    rcases List.mem_cons.1 hk with rfl | hk
    · cases hseen : seen.contains k with
      | true => exact ih.kept k hseen
      | false => exact absurd ⟨hlt, hseen⟩ hold
    · exact ih.begun k hk hlt

/-- The search collects exactly the nodes that can be reached. -/
theorem mem_reach_iff {starts : List Nat} :
    (g.reach ∅ starts).contains j = true ↔ j < g.size ∧ ∃ s ∈ starts, ReflTransGen g.Edge s j := by
  constructor
  · intro h
    rcases of_contains_reach h with hseen | hreached
    · simp at hseen
    · exact hreached
  · rintro ⟨hj, s, hs, hpath⟩
    have hcollects := collects_reach g ∅ starts
    induction hpath with
    | refl => exact hcollects.begun s hs hj
    | tail _ hedge ih => exact hcollects.closed _ _ (ih hedge.lt) (by simp) hedge hj

/-! ### The answers -/

theorem isCyclic_iff : g.isCyclic = true ↔ ∃ i, TransGen g.Edge i i := by
  rw [isCyclic, List.any_eq_true]
  constructor
  · rintro ⟨i, -, hi⟩
    obtain ⟨-, s, hs, hpath⟩ := mem_reach_iff.1 hi
    exact ⟨i, .head' (edge_iff.2 hs) hpath⟩
  · rintro ⟨i, hi⟩
    obtain ⟨s, hedge, hpath⟩ := TransGen.head'_iff.1 hi
    exact ⟨i, List.mem_range.2 hedge.lt, mem_reach_iff.2 ⟨hedge.lt, s, edge_iff.1 hedge, hpath⟩⟩

theorem mem_roots_iff : i ∈ g.roots ↔ i < g.size ∧ ∀ j, ¬g.Edge j i := by
  rw [roots, List.mem_filter, List.mem_range]
  refine and_congr_right fun _ => ?_
  rw [Bool.not_eq_true', ← Bool.not_eq_true, Std.TreeSet.contains_ofList, List.contains_iff_mem, List.mem_flatMap,
    ← not_exists]
  refine not_congr ?_
  constructor
  · rintro ⟨n, hn, hi⟩
    obtain ⟨j, hj⟩ := List.mem_iff_getElem?.1 hn
    exact ⟨j, mem_edges_iff.2 ⟨n, hj, hi⟩⟩
  · rintro ⟨j, hj⟩
    obtain ⟨n, hn, hi⟩ := mem_edges_iff.1 hj
    exact ⟨n, List.mem_of_getElem? hn, hi⟩

/-- A path leads from an event to a position. -/
def IsReached (g : Graph S) (i : Nat) : Prop :=
  ∃ e n, g.nodes[e]? = some n ∧ n.kind = .event ∧ ReflTransGen g.Edge e i

theorem mem_unreachable_iff : i ∈ g.unreachable ↔ i < g.size ∧ ¬g.IsReached i := by
  rw [unreachable, List.mem_filter, List.mem_range]
  refine and_congr_right fun hi => ?_
  rw [Bool.not_eq_true', ← Bool.not_eq_true, mem_reach_iff]
  refine not_congr ?_
  constructor
  · rintro ⟨-, e, he, hpath⟩
    obtain ⟨⟨e, n⟩, hevent, rfl⟩ := List.mem_map.1 he
    obtain ⟨hn, hkind⟩ := mem_events.1 hevent
    exact ⟨e, n, hn, hkind, hpath⟩
  · rintro ⟨e, n, hn, hkind, hpath⟩
    exact ⟨hi, e, List.mem_map.2 ⟨(e, n), mem_events.2 ⟨hn, hkind⟩, rfl⟩, hpath⟩

theorem pairwise_roots (g : Graph S) : g.roots.Pairwise (· < ·) :=
  List.pairwise_lt_range.filter _

theorem pairwise_unreachable (g : Graph S) : g.unreachable.Pairwise (· < ·) :=
  List.pairwise_lt_range.filter _

end ScriptGraph.Graph
