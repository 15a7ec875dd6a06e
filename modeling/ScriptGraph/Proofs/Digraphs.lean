import Mathlib.Data.List.InsertIdx
import Mathlib.Data.List.Nodup
import Mathlib.Data.Option.Basic
import ScriptGraph.Proofs.Construction

/-!
# Positions and permanent tokens

A graph names its nodes by their positions, and a position changes hands when a node before it is removed.
`Digraph` is what the positions stand for: each node has a token that it keeps as long as it lives and that no other
node ever gets, and the edges are pairs of tokens.  Every edit of a graph is the same edit of the digraph
(`Represents.apply`), so whatever edits a graph has seen, its positions lead where the tokens lead
(`represents_edits`).

For a removal the two steps on each list of targets are one step on tokens: dropping the position of the node that
goes, and moving down the positions above it, leaves the tokens of the other targets as they are
(`Represents.remove`).
-/

namespace ScriptGraph

variable {S : Type}

/-! ### Edits -/

/-- An edit of a graph.  Positions may be out of range. -/
inductive Edit (S : Type) where
  | add (n : Node S)
  | addTemplate (id label : String) (position : Vec2 S)
  | connect (source target : Nat)
  | disconnect (source target : Nat)
  | remove (i : Nat)
  | clear

/-- A graph after an edit. -/
def Edit.apply [Scalar S] : Edit S → Graph S → Graph S
  | add n, g => g.add n
  | addTemplate id label position, g => g.addTemplate id label position
  | connect source target, g => (g.connect source target).2
  | disconnect source target, g => (g.disconnect source target).2
  | remove i, g => (g.remove i).2
  | clear, _ => .empty

/-! ### Answers of edits -/

namespace Graph

theorem connect_eq_true_iff {g : Graph S} {source target : Nat} : (g.connect source target).1 = .ok true ↔
    source ≠ target ∧ source < g.size ∧ target < g.size ∧ target ∉ g.successors source := by
  unfold connect successors
  by_cases hloop : source = target
  · simp [hloop]
  by_cases htarget : g.size ≤ target
  · rw [if_neg hloop, if_pos htarget]
    simp
    omega
  rw [if_neg hloop, if_neg htarget]
  cases hn : g.nodes[source]? with
  | none =>
    have : g.size ≤ source := List.getElem?_eq_none_iff.1 hn
    simp
    omega
  | some n =>
    have : source < g.size := (List.getElem?_eq_some_iff.1 hn).1
    dsimp only
    by_cases hmem : target ∈ n.targets
    · simp [hmem]
    · simp [hmem, hloop]
      omega

/-- A new connection comes last. -/
theorem connect_of_true {g : Graph S} {source target : Nat} (h : (g.connect source target).1 = .ok true) :
    (g.connect source target).2 = g.modify source fun n => { n with targets := n.targets ++ [target] } := by
  revert h
  unfold connect
  repeat' split
  all_goals simp

/-- Without a new connection a graph stays as it is. -/
theorem connect_of_ne_true {g : Graph S} {source target : Nat} (h : (g.connect source target).1 ≠ .ok true) :
    (g.connect source target).2 = g := by
  revert h
  unfold connect
  repeat' split
  all_goals simp

theorem disconnect_eq_true_iff {g : Graph S} {source target : Nat} :
    (g.disconnect source target).1 = true ↔ target ∈ g.successors source := by
  unfold disconnect successors
  cases g.nodes[source]? with
  | none => simp
  | some n => simp

theorem disconnect_of_false {g : Graph S} {source target : Nat} (h : (g.disconnect source target).1 = false) :
    (g.disconnect source target).2 = g := by
  unfold disconnect at h ⊢
  split at h
  · rfl
  · next n hn =>
    refine modify_eq_self fun m hm => ?_
    have hself : n.targets.filter (· != target) = n.targets := by
      rw [List.filter_eq_self]
      intro t ht
      rw [bne_iff_ne]
      rintro rfl
      simp [ht] at h
    rw [hn] at hm
    cases hm
    rw [hself]

theorem remove_of_none {g : Graph S} {i : Nat} (h : (g.remove i).1 = none) : (g.remove i).2 = g := by
  revert h
  unfold remove
  split
  · simp
  · simp

end Graph

/-! ### Digraphs on tokens -/

/-- A directed graph on tokens.  The nodes that live and the edges stand in the order in which they were added. -/
structure Digraph (S : Type) where
  /-- how many tokens were given out -/
  issued : Nat
  nodes : List (Nat × Node S)
  edges : List (Nat × Nat)

namespace Digraph

/-- No nodes, and no token given out. -/
def empty : Digraph S := ⟨0, [], []⟩

/-- The tokens of the nodes that live. -/
def tokens (d : Digraph S) : List Nat := d.nodes.map (·.1)

/-- The token of the node at a position. -/
def token? (d : Digraph S) (i : Nat) : Option Nat := d.tokens[i]?

/-- The targets of a token, in the order in which its edges were added. -/
def targetsOf (d : Digraph S) (a : Nat) : List Nat := (d.edges.filter (·.1 == a)).map (·.2)

/-- Gives a token to a node and puts it last. -/
def add (d : Digraph S) (n : Node S) : Digraph S :=
  ⟨d.issued + 1, d.nodes ++ [(d.issued, { n with targets := [] })], d.edges⟩

/-- Puts an edge between two nodes last, unless it is there or would be a loop. -/
def connect (d : Digraph S) (a b : Nat) : Digraph S :=
  if a = b ∨ (a, b) ∈ d.edges then d else { d with edges := d.edges ++ [(a, b)] }

/-- Takes an edge away. -/
def disconnect (d : Digraph S) (a b : Nat) : Digraph S :=
  { d with edges := d.edges.filter (· != (a, b)) }

/-- Takes a node away, with the edges into it and out of it. -/
def remove (d : Digraph S) (a : Nat) : Digraph S :=
  { d with nodes := d.nodes.filter (·.1 != a), edges := d.edges.filter fun e => e.1 != a && e.2 != a }

/-- Takes all nodes and edges away. -/
def clear (d : Digraph S) : Digraph S := { d with nodes := [], edges := [] }

/-- A digraph after an edit, which means the tokens of the nodes at its positions.  Where there is no node, nothing is
meant and nothing happens. -/
def edit [Scalar S] (d : Digraph S) : Edit S → Digraph S
  | .add n => d.add n
  | .addTemplate id label position => d.add (.ofTemplate id label position)
  | .connect source target =>
    match d.token? source, d.token? target with
    | some a, some b => d.connect a b
    | _, _ => d
  | .disconnect source target =>
    match d.token? source, d.token? target with
    | some a, some b => d.disconnect a b
    | _, _ => d
  | .remove i =>
    match d.token? i with
    | some a => d.remove a
    | none => d
  | .clear => d.clear

/-- Tokens are given out in rising order, and edges lead from living nodes to other living nodes, once each. -/
structure WellFormed (d : Digraph S) : Prop where
  rising : d.tokens.Pairwise (· < ·)
  lt_issued : ∀ a ∈ d.tokens, a < d.issued
  alive : ∀ e ∈ d.edges, e.1 ∈ d.tokens ∧ e.2 ∈ d.tokens
  ne : ∀ e ∈ d.edges, e.1 ≠ e.2
  nodup : d.edges.Nodup

/-- A graph has the nodes of a digraph in their order, and the targets of each node are the positions of the targets
of its token. -/
structure Represents (d : Digraph S) (g : Graph S) : Prop where
  fields : g.nodes.map (fun n => { n with targets := [] }) = d.nodes.map (·.2)
  targets : ∀ (i : Nat) (n : Node S) (a : Nat), g.nodes[i]? = some n → d.token? i = some a →
    n.targets.map d.token? = (d.targetsOf a).map some

/-! ### Well-formed digraphs -/

variable {d : Digraph S} {g : Graph S} {a b i t : Nat}

theorem mem_targetsOf : b ∈ d.targetsOf a ↔ (a, b) ∈ d.edges := by
  simp [targetsOf]

/-- Edges that go take the targets with them, and leave the order of the others. -/
theorem targetsOf_filter (d : Digraph S) (p : Nat × Nat → Bool) (a : Nat) :
    targetsOf { d with edges := d.edges.filter p } a = (d.targetsOf a).filter fun b => p (a, b) := by
  rw [targetsOf, targetsOf, List.filter_filter, List.filter_map, List.filter_filter]
  congr 1
  apply List.filter_congr
  rintro ⟨a', b⟩ -
  dsimp only [Function.comp_apply]
  by_cases ha : a' = a
  · rw [ha, Bool.and_comm]
  · have hfalse : (a' == a) = false := by simpa using ha
    rw [hfalse, Bool.false_and, Bool.and_false]

theorem mem_tokens_of_token? (h : d.token? i = some a) : a ∈ d.tokens := List.mem_of_getElem? h

namespace WellFormed

theorem empty : (Digraph.empty : Digraph S).WellFormed := by
  constructor <;> simp [Digraph.empty, tokens]

theorem nodup_tokens (h : d.WellFormed) : d.tokens.Nodup := h.rising.imp Nat.ne_of_lt

theorem position_unique (h : d.WellFormed) {j : Nat} (hi : d.token? i = some a) (hj : d.token? j = some a) :
    i = j := by
  obtain ⟨hlt, rfl⟩ := List.getElem?_eq_some_iff.1 hi
  obtain ⟨hlt', heq⟩ := List.getElem?_eq_some_iff.1 hj
  exact ((List.Nodup.getElem_inj_iff h.nodup_tokens).1 heq).symm

/-- Positions differ where their tokens do. -/
theorem bne_position (h : d.WellFormed) {j : Nat} (hi : d.token? i = some a) (hj : d.token? j = some b) :
    (i != j) = (a != b) := by
  by_cases hab : a = b
  · subst hab
    simp [h.position_unique hi hj]
  · have hij : i ≠ j := by
      rintro rfl
      rw [hi] at hj
      exact hab (Option.some.inj hj)
    rw [bne_iff_ne.2 hij, bne_iff_ne.2 hab]

theorem nodup_targetsOf (h : d.WellFormed) (a : Nat) : (d.targetsOf a).Nodup := by
  rw [targetsOf, List.nodup_iff_pairwise_ne, List.pairwise_map]
  refine List.Pairwise.imp_of_mem ?_ (h.nodup.filter _)
  rintro ⟨a₁, b₁⟩ ⟨a₂, b₂⟩ h₁ h₂ hne rfl
  have h₁' := (List.mem_filter.1 h₁).2
  have h₂' := (List.mem_filter.1 h₂).2
  simp only [beq_iff_eq] at h₁' h₂'
  exact hne (by rw [h₁', h₂'])

theorem add (h : d.WellFormed) (n : Node S) : (d.add n).WellFormed := by
  have htokens : (d.add n).tokens = d.tokens ++ [d.issued] := by simp [Digraph.add, tokens]
  constructor
  · rw [htokens, List.pairwise_append]
    refine ⟨h.rising, by simp, ?_⟩
    intro a ha b hb
    rw [List.mem_singleton.1 hb]
    exact h.lt_issued a ha
  · intro a ha
    rw [htokens, List.mem_append, List.mem_singleton] at ha
    rcases ha with ha | rfl
    · exact Nat.lt_succ_of_lt (h.lt_issued a ha)
    · exact Nat.lt_succ_self _
  · intro e he
    rw [htokens, List.mem_append, List.mem_append]
    exact ⟨.inl (h.alive e he).1, .inl (h.alive e he).2⟩
  · exact h.ne
  · exact h.nodup

theorem connect (h : d.WellFormed) (ha : a ∈ d.tokens) (hb : b ∈ d.tokens) : (d.connect a b).WellFormed := by
  unfold Digraph.connect
  split
  · exact h
  · next hnew =>
    rw [not_or] at hnew
    refine ⟨h.rising, h.lt_issued, ?_, ?_, ?_⟩
    · intro e he
      rcases List.mem_append.1 he with he | he
      · exact h.alive e he
      · rw [List.mem_singleton.1 he]
        exact ⟨ha, hb⟩
    · intro e he
      rcases List.mem_append.1 he with he | he
      · exact h.ne e he
      · rw [List.mem_singleton.1 he]
        exact hnew.1
    · rw [List.nodup_append]
      refine ⟨h.nodup, by simp, ?_⟩
      rintro e he e' he' rfl
      exact hnew.2 (List.mem_singleton.1 he' ▸ he)

theorem disconnect (h : d.WellFormed) (a b : Nat) : (d.disconnect a b).WellFormed :=
  ⟨h.rising, h.lt_issued, fun e he => h.alive e (List.mem_filter.1 he).1, fun e he => h.ne e (List.mem_filter.1 he).1,
    h.nodup.filter _⟩

theorem remove (h : d.WellFormed) (a : Nat) : (d.remove a).WellFormed := by
  have htokens : (d.remove a).tokens = d.tokens.filter (· != a) := by
    rw [tokens, tokens, List.filter_map]
    rfl
  constructor
  · rw [htokens]
    exact h.rising.filter _
  · intro b hb
    rw [htokens] at hb
    exact h.lt_issued b (List.mem_filter.1 hb).1
  · intro e he
    obtain ⟨he, hkept⟩ := List.mem_filter.1 he
    rw [Bool.and_eq_true] at hkept
    rw [htokens, List.mem_filter, List.mem_filter]
    exact ⟨⟨(h.alive e he).1, hkept.1⟩, (h.alive e he).2, hkept.2⟩
  · exact fun e he => h.ne e (List.mem_filter.1 he).1
  · exact h.nodup.filter _

theorem clear (d : Digraph S) : d.clear.WellFormed := by
  constructor <;> simp [Digraph.clear, tokens]

/-- Edits keep a digraph well-formed. -/
theorem edit [Scalar S] (h : d.WellFormed) (e : Edit S) : (d.edit e).WellFormed := by
  cases e with
  | add n => exact h.add n
  | addTemplate id label position => exact h.add _
  | connect source target =>
    unfold Digraph.edit
    dsimp only
    split
    · next ha hb => exact h.connect (mem_tokens_of_token? ha) (mem_tokens_of_token? hb)
    · exact h
  | disconnect source target =>
    unfold Digraph.edit
    dsimp only
    split
    · exact h.disconnect ..
    · exact h
  | remove i =>
    unfold Digraph.edit
    dsimp only
    split
    · exact h.remove _
    · exact h
  | clear => exact .clear d

end WellFormed

/-! ### Positions that stand for tokens -/

/-- Choosing among positions is choosing among their tokens. -/
private theorem map_filter_eq {f : Nat → Option Nat} {targets ts : List Nat} (h : targets.map f = ts.map some)
    {p q : Nat → Bool} (hpq : ∀ t b, f t = some b → p t = q b) :
    (targets.filter p).map f = (ts.filter q).map some := by
  induction targets generalizing ts with
  | nil =>
    cases ts with
    | nil => rfl
    | cons b ts => simp at h
  | cons t targets ih =>
    cases ts with
    | nil => simp at h
    | cons b ts =>
      rw [List.map_cons, List.map_cons, List.cons.injEq] at h
      rw [List.filter_cons, List.filter_cons, hpq t b h.1]
      split
      · rw [List.map_cons, List.map_cons, h.1, ih h.2]
      · exact ih h.2

/-- Without the one member with a given key, a list is what is left when its position is erased. -/
private theorem filter_bne_eq_eraseIdx {α : Type} (key : α → Nat) {l : List α} (h : (l.map key).Nodup)
    (hi : (l.map key)[i]? = some a) : l.filter (key · != a) = l.eraseIdx i := by
  induction l generalizing i with
  | nil => simp at hi
  | cons x l ih =>
    rw [List.map_cons, List.nodup_cons] at h
    cases i with
    | zero =>
      have hx : key x = a := by simpa using hi
      have hrest : l.filter (key · != a) = l := by
        rw [List.filter_eq_self]
        intro y hy
        rw [bne_iff_ne]
        rintro rfl
        exact h.1 (hx ▸ List.mem_map_of_mem hy)
      rw [List.filter_cons_of_neg (by simp [hx]), hrest, List.eraseIdx_cons_zero]
    | succ i =>
      have hi' : (l.map key)[i]? = some a := by simpa using hi
      have hx : key x ≠ a := by
        rintro rfl
        exact h.1 (List.mem_of_getElem? hi')
      rw [List.filter_cons_of_pos (by simpa using hx), List.eraseIdx_cons_succ, ih h.2 hi']

namespace Represents

theorem size_eq (h : d.Represents g) : g.size = d.tokens.length := by
  have := congrArg List.length h.fields
  simpa [Graph.size, tokens] using this

theorem exists_token (h : d.Represents g) {n : Node S} (hn : g.nodes[i]? = some n) : ∃ a, d.token? i = some a := by
  have hlt : i < g.size := (List.getElem?_eq_some_iff.1 hn).1
  rw [h.size_eq] at hlt
  exact ⟨_, List.getElem?_eq_getElem hlt⟩

theorem exists_node (h : d.Represents g) (ha : d.token? i = some a) : ∃ n, g.nodes[i]? = some n := by
  have hlt : i < d.tokens.length := (List.getElem?_eq_some_iff.1 ha).1
  rw [← h.size_eq] at hlt
  exact ⟨_, List.getElem?_eq_getElem hlt⟩

theorem token?_eq_none_iff (h : d.Represents g) : d.token? i = none ↔ g.size ≤ i := by
  rw [h.size_eq]
  exact List.getElem?_eq_none_iff

/-- A target of a node is the position of a target of its token. -/
theorem exists_target (h : d.Represents g) {n : Node S} (hn : g.nodes[i]? = some n) (ha : d.token? i = some a)
    (ht : t ∈ n.targets) : ∃ b, d.token? t = some b ∧ (a, b) ∈ d.edges := by
  have hmem : d.token? t ∈ (d.targetsOf a).map some := h.targets i n a hn ha ▸ List.mem_map_of_mem ht
  obtain ⟨b, hb, hbt⟩ := List.mem_map.1 hmem
  exact ⟨b, hbt.symm, mem_targetsOf.1 hb⟩

/-- A position is a target of a node exactly if its token is a target of the token of the node. -/
theorem mem_targets_iff (h : d.Represents g) (hd : d.WellFormed) {n : Node S} (hn : g.nodes[i]? = some n)
    (ha : d.token? i = some a) (hb : d.token? t = some b) : t ∈ n.targets ↔ (a, b) ∈ d.edges := by
  constructor
  · intro ht
    obtain ⟨b', hb', hedge⟩ := h.exists_target hn ha ht
    rw [hb] at hb'
    cases hb'
    exact hedge
  · intro hedge
    have hmem : some b ∈ n.targets.map d.token? :=
      h.targets i n a hn ha ▸ List.mem_map_of_mem (mem_targetsOf.2 hedge)
    obtain ⟨u, hu, hub⟩ := List.mem_map.1 hmem
    rwa [hd.position_unique hb hub]

/-- The connections of a graph that represents a well-formed digraph lead to other nodes, to each one once. -/
theorem linked (h : d.Represents g) (hd : d.WellFormed) : g.Linked := by
  intro i n hn
  obtain ⟨a, ha⟩ := h.exists_token hn
  refine ⟨?_, ?_, ?_⟩
  · intro t ht
    obtain ⟨b, hb, -⟩ := h.exists_target hn ha ht
    rw [h.size_eq]
    exact (List.getElem?_eq_some_iff.1 hb).1
  · intro hi
    obtain ⟨b, hb, hedge⟩ := h.exists_target hn ha hi
    rw [ha] at hb
    cases hb
    exact hd.ne _ hedge rfl
  · have hmap : (n.targets.map d.token?).Nodup := by
      rw [h.targets i n a hn ha]
      exact List.Nodup.map (Option.some_injective _) (hd.nodup_targetsOf a)
    exact List.Nodup.of_map _ hmap

/-! ### One edit -/

theorem empty : (Digraph.empty : Digraph S).Represents Graph.empty := by
  constructor <;> simp [Digraph.empty, Graph.empty]

theorem add (h : d.Represents g) (hd : d.WellFormed) (n : Node S) : (d.add n).Represents (g.add n) := by
  have htokens : (d.add n).tokens = d.tokens ++ [d.issued] := by simp [Digraph.add, tokens]
  have hold : ∀ j, j < d.tokens.length → (d.add n).token? j = d.token? j := by
    intro j hj
    rw [token?, htokens, List.getElem?_append_left hj, token?]
  refine ⟨?_, ?_⟩
  · simp only [Digraph.add, Graph.add, List.map_append, h.fields, List.map_cons, List.map_nil]
  · intro i m a hm ha
    have hi : i < (g.add n).size := (List.getElem?_eq_some_iff.1 hm).1
    have hsize : (g.add n).size = g.size + 1 := by simp [Graph.size, Graph.add]
    by_cases hlt : i < g.size
    · rw [Graph.add, List.getElem?_append_left hlt] at hm
      rw [hold i (h.size_eq ▸ hlt)] at ha
      have hsame : m.targets.map (d.add n).token? = m.targets.map d.token? := by
        apply List.map_congr_left
        intro t ht
        obtain ⟨b, hb, -⟩ := h.exists_target hm ha ht
        exact hold t (List.getElem?_eq_some_iff.1 hb).1
      rw [hsame]
      exact h.targets i m a hm ha
    · -- the new node has no targets, and no edge has its token
      have hi' : i = g.nodes.length := by
        change ¬ i < g.nodes.length at hlt
        change _ = g.nodes.length + 1 at hsize
        omega
      subst hi'
      have hnone : ∀ b, (d.issued, b) ∉ d.edges := fun b hb =>
        Nat.lt_irrefl _ (hd.lt_issued _ (hd.alive _ hb).1)
      have ha' : a = d.issued := by
        have hlast : g.nodes.length = d.tokens.length := h.size_eq
        rw [token?, htokens, hlast, List.getElem?_concat_length] at ha
        exact (Option.some.inj ha).symm
      have hm' : m.targets = [] := by
        rw [Graph.add, List.getElem?_concat_length] at hm
        rw [← Option.some.inj hm]
      have htargets : (d.add n).targetsOf a = [] := by
        rw [List.eq_nil_iff_forall_not_mem]
        intro b hb
        exact hnone b (ha' ▸ mem_targetsOf.1 hb)
      rw [hm', htargets]
      rfl

/-- The nodes stay, and the targets of one of them change with the edges out of its token. -/
private theorem modify {edges : List (Nat × Nat)} (h : d.Represents g) (hd : d.WellFormed) {n : Node S}
    {f : Node S → List Nat} (hn : g.nodes[i]? = some n) (ha : d.token? i = some a)
    (htargets : (f n).map d.token? = (targetsOf { d with edges } a).map some)
    (hothers : ∀ b, b ≠ a → targetsOf { d with edges } b = d.targetsOf b) :
    Represents { d with edges } (g.modify i fun n => { n with targets := f n }) := by
  refine ⟨(Graph.map_modify (by simp) g i).trans h.fields, ?_⟩
  intro j m b hm hb
  change d.token? j = some b at hb
  change m.targets.map d.token? = _
  rw [Graph.modify, List.getElem?_modify] at hm
  obtain ⟨m', hm', rfl⟩ := Option.map_eq_some_iff.1 hm
  by_cases hij : i = j
  · subst hij
    rw [hn] at hm'
    cases hm'
    rw [ha] at hb
    cases hb
    rw [if_pos rfl]
    exact htargets
  · have hne : b ≠ a := by
      rintro rfl
      exact hij (hd.position_unique ha hb)
    rw [if_neg hij, hothers b hne]
    exact h.targets j m' b hm' hb

theorem connect (h : d.Represents g) (hd : d.WellFormed) {source target : Nat} (ha : d.token? source = some a)
    (hb : d.token? target = some b) : (d.connect a b).Represents (g.connect source target).2 := by
  obtain ⟨n, hn⟩ := h.exists_node ha
  have hlt : ¬ g.size ≤ target := by
    rw [← h.token?_eq_none_iff, hb]
    exact Option.some_ne_none b
  have hloop : source = target ↔ a = b := by
    constructor
    · rintro rfl
      rw [ha] at hb
      exact Option.some.inj hb
    · rintro rfl
      exact hd.position_unique ha hb
  have hedge := h.mem_targets_iff hd hn ha hb
  unfold Graph.connect Digraph.connect
  rw [if_neg hlt, hn]
  by_cases hab : a = b
  · rw [if_pos (hloop.2 hab), if_pos (.inl hab)]
    exact h
  · rw [if_neg (mt hloop.1 hab)]
    dsimp only
    by_cases hmem : (a, b) ∈ d.edges
    · have hcontains : n.targets.contains target = true := by simpa using hedge.2 hmem
      rw [if_pos hcontains, if_pos (.inr hmem)]
      exact h
    · have hcontains : ¬ n.targets.contains target = true := by simpa using mt hedge.1 hmem
      rw [if_neg hcontains, if_neg (not_or.2 ⟨hab, hmem⟩)]
      refine h.modify hd hn ha ?_ ?_
      · have htargets : targetsOf { d with edges := d.edges ++ [(a, b)] } a = d.targetsOf a ++ [b] := by
          simp [targetsOf]
        rw [htargets, List.map_append, List.map_append, h.targets source n a hn ha, List.map_singleton, hb,
          List.map_singleton]
      · intro c hc
        simp [targetsOf, hc.symm]

theorem disconnect (h : d.Represents g) (hd : d.WellFormed) {source target : Nat} (ha : d.token? source = some a)
    (hb : d.token? target = some b) : (d.disconnect a b).Represents (g.disconnect source target).2 := by
  obtain ⟨n, hn⟩ := h.exists_node ha
  unfold Graph.disconnect
  rw [hn]
  refine h.modify hd hn ha ?_ ?_
  · rw [targetsOf_filter]
    apply map_filter_eq (h.targets source n a hn ha)
    intro t c hc
    rw [hd.bne_position hc hb, Bool.eq_iff_iff, bne_iff_ne, bne_iff_ne, ne_eq, ne_eq, Prod.mk.injEq]
    simp
  · intro c hc
    rw [targetsOf_filter, List.filter_eq_self]
    intro x _
    simp [hc]

theorem remove (h : d.Represents g) (hd : d.WellFormed) (ha : d.token? i = some a) :
    (d.remove a).Represents (g.remove i).2 := by
  obtain ⟨r, hr⟩ := h.exists_node ha
  have hnodes : (d.remove a).nodes = d.nodes.eraseIdx i :=
    filter_bne_eq_eraseIdx Prod.fst hd.nodup_tokens ha
  have htoken : ∀ j, (d.remove a).token? j = d.token? (if j < i then j else j + 1) := by
    intro j
    rw [token?, tokens, hnodes, ← List.eraseIdx_map, List.getElem?_eraseIdx, token?, tokens]
    split <;> rfl
  -- a position that is moved down has the token that it had before
  have hmoved : ∀ t, t ≠ i → (d.remove a).token? (if i < t then t - 1 else t) = d.token? t := by
    intro t ht
    rw [htoken]
    congr 1
    split <;> split <;> omega
  unfold Graph.remove
  rw [hr]
  refine ⟨?_, ?_⟩
  · have hfields := congrArg (List.eraseIdx · i) h.fields
    rw [List.eraseIdx_map, List.eraseIdx_map] at hfields
    rw [hnodes, ← hfields, List.map_map]
    rfl
  · intro j m b hm hb
    rw [List.getElem?_map] at hm
    obtain ⟨n, hn, rfl⟩ := Option.map_eq_some_iff.1 hm
    rw [List.getElem?_eraseIdx] at hn
    rw [htoken] at hb
    have hn' : g.nodes[if j < i then j else j + 1]? = some n := by
      rw [← hn]
      split <;> rfl
    -- so all edges out of the token of this node are kept, apart from the one that leads to `a`
    have hne : (b != a) = true := by
      rw [← hd.bne_position hb ha, bne_iff_ne]
      split <;> omega
    have hkept : ((n.targets.filter (· != i)).map d.token?) = ((d.targetsOf b).filter (· != a)).map some := by
      apply map_filter_eq (h.targets _ n b hn' hb)
      intro t c hc
      exact hd.bne_position hc ha
    have hedges : (d.remove a).targetsOf b = (d.targetsOf b).filter (· != a) := by
      refine (targetsOf_filter d (fun e => e.1 != a && e.2 != a) b).trans ?_
      simp [hne]
    rw [hedges, ← hkept, Graph.targetsWithout, List.map_map]
    apply List.map_congr_left
    intro t ht
    exact hmoved t (by simpa using (List.mem_filter.1 ht).2)

/-- The node that is handed over by a removal is that of the token, with all its fields. -/
theorem remove_fst (h : d.Represents g) (i : Nat) : (g.remove i).1 = (d.nodes[i]?).map (·.2) := by
  rw [← List.getElem?_map, ← h.fields, List.getElem?_map, Graph.remove]
  cases g.nodes[i]? <;> rfl

/-- An edit of a graph is the same edit of the digraph. -/
theorem apply [Scalar S] (h : d.Represents g) (hd : d.WellFormed) (e : Edit S) :
    (d.edit e).Represents (e.apply g) := by
  cases e with
  | add n => exact h.add hd n
  | addTemplate id label position => exact h.add hd _
  | connect source target =>
    simp only [edit, Edit.apply]
    split
    · next ha hb => exact h.connect hd ha hb
    · next hnone =>
      -- a position without a node is connected with nothing
      have hne : (g.connect source target).1 ≠ .ok true := by
        rw [ne_eq, Graph.connect_eq_true_iff]
        rintro ⟨-, hsource, htarget, -⟩
        rw [h.size_eq] at hsource htarget
        exact hnone _ _ (List.getElem?_eq_getElem hsource) (List.getElem?_eq_getElem htarget)
      rw [Graph.connect_of_ne_true hne]
      exact h
  | disconnect source target =>
    simp only [edit, Edit.apply]
    split
    · next ha hb => exact h.disconnect hd ha hb
    · next hnone =>
      have hfalse : (g.disconnect source target).1 = false := by
        unfold Graph.disconnect
        split
        · rfl
        · next n hn =>
          obtain ⟨a, ha⟩ := h.exists_token hn
          by_contra hmem
          obtain ⟨b, hb, -⟩ := h.exists_target hn ha (t := target) (by simpa using hmem)
          exact hnone a b ha hb
      rw [Graph.disconnect_of_false hfalse]
      exact h
  | remove i =>
    simp only [edit, Edit.apply]
    split
    · next ha => exact h.remove hd ha
    · next hnone =>
      rw [h.token?_eq_none_iff] at hnone
      have hn : (g.remove i).1 = none := by
        unfold Graph.remove
        rw [List.getElem?_eq_none hnone]
      rw [Graph.remove_of_none hn]
      exact h
  | clear => exact ⟨rfl, by simp [edit, Edit.apply, Graph.empty]⟩

end Represents

/-! ### Any number of edits -/

/-- After any edits the digraph is well-formed and the graph represents it. -/
theorem represents_foldl [Scalar S] (edits : List (Edit S)) (h : d.Represents g) (hd : d.WellFormed) :
    (edits.foldl edit d).WellFormed ∧ (edits.foldl edit d).Represents (edits.foldl (fun g e => e.apply g) g) := by
  induction edits generalizing d g with
  | nil => exact ⟨hd, h⟩
  | cons e edits ih => exact ih (h.apply hd e) (hd.edit e)

/-- The positions of a graph stand for permanent tokens.  After any edits, with positions in range or out of it, the
nodes are those that live in the order of their tokens, and the targets of each are the targets of its token in the
order in which the edges were added; so the targets are positions of other nodes, each once.  Connecting is answered
by `true` exactly if the connection is new, and it comes last then.  Disconnecting is answered by `true` exactly if
there was a connection, and removing by the node of the token.  An edit that is answered by `false`, by an error or
by no node at all leaves the graph as it is. -/
theorem represents_edits [Scalar S] (edits : List (Edit S)) :
    let d : Digraph S := edits.foldl edit .empty
    let g : Graph S := edits.foldl (fun g e => e.apply g) .empty
    d.WellFormed ∧ d.Represents g ∧ g.Linked ∧
      (∀ source target, (g.connect source target).1 = .ok true ↔
        source ≠ target ∧ source < g.size ∧ target < g.size ∧ target ∉ g.successors source) ∧
      (∀ source target, (g.connect source target).1 = .ok true → (g.connect source target).2 =
        g.modify source fun n => { n with targets := n.targets ++ [target] }) ∧
      (∀ source target, (g.connect source target).1 ≠ .ok true → (g.connect source target).2 = g) ∧
      (∀ source target, (g.disconnect source target).1 = true ↔ target ∈ g.successors source) ∧
      (∀ source target, (g.disconnect source target).1 = false → (g.disconnect source target).2 = g) ∧
      (∀ i, (g.remove i).1 = (d.nodes[i]?).map (·.2)) ∧
      ∀ i, (g.remove i).1 = none → (g.remove i).2 = g := by
  intro d g
  obtain ⟨hd, hg⟩ := represents_foldl edits .empty .empty
  exact ⟨hd, hg, hg.linked hd, fun _ _ => Graph.connect_eq_true_iff, fun _ _ => Graph.connect_of_true,
    fun _ _ => Graph.connect_of_ne_true, fun _ _ => Graph.disconnect_eq_true_iff,
    fun _ _ => Graph.disconnect_of_false, hg.remove_fst, fun _ => Graph.remove_of_none⟩

end Digraph

end ScriptGraph
