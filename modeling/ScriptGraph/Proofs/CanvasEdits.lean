import ScriptGraph.Proofs.Digraphs
import ScriptGraph.Proofs.Gestures
import ScriptGraph.Proofs.Reachability

/-!
# What gestures do to a graph

A canvas keeps positions: of the source that waits for its target, and of the node that is dragged.  A `Session` runs
beside it on tokens.  It has the digraph that the positions stand for, and the tokens of the nodes whose presses
selected a source and began a drag last, and it goes by the answers of gestures alone (`Session.follow`).

Positions change hands only when a node is deleted.  Then nothing is dragged and no source waits, because a mode is
chosen before that, which drops both.  So the positions that a canvas keeps stay those of the tokens, and the graph
stays that of the digraph (`Session.Sound`).  What the next gesture does is read off from that
(`Session.edits_follow_answers`).
-/

namespace ScriptGraph

variable {S : Type}

/-! ### The digraph of a graph -/

namespace Digraph

/-- What the positions of a graph stand for: each position is the token of its node. -/
def ofGraph (g : Graph S) : Digraph S :=
  ⟨g.size, g.nodes.zipIdx.map fun p => (p.2, { p.1 with targets := [] }), g.edges⟩

theorem tokens_ofGraph (g : Graph S) : (ofGraph g).tokens = List.range g.size := by
  rw [tokens, ofGraph, List.map_map, List.range_eq_range']
  exact List.zipIdx_map_snd 0 g.nodes

theorem token?_ofGraph {g : Graph S} {i : Nat} (h : i < g.size) : (ofGraph g).token? i = some i := by
  rw [token?, tokens_ofGraph, List.getElem?_range h]

/-- Of nodes with different numbers, the edges out of one number are those of its node. -/
private theorem edges_of_number {ps : List (Node S × Nat)} (hnodup : (ps.map (·.2)).Nodup) {n : Node S} {i : Nat}
    (h : (n, i) ∈ ps) :
    ((ps.flatMap fun p => p.1.targets.map (p.2, ·)).filter (·.1 == i)).map (·.2) = n.targets := by
  have hother {p : Node S × Nat} (hp : p.2 ≠ i) : (p.1.targets.map (p.2, ·)).filter (·.1 == i) = [] := by
    simp [List.filter_eq_nil_iff, hp]
  induction ps with
  | nil => simp at h
  | cons p ps ih =>
    rw [List.map_cons, List.nodup_cons] at hnodup
    rw [List.flatMap_cons, List.filter_append, List.map_append]
    rcases List.mem_cons.1 h with rfl | h
    · have hrest : (ps.flatMap fun p => p.1.targets.map (p.2, ·)).filter (·.1 == i) = [] := by
        rw [List.filter_flatMap, List.flatMap_eq_nil_iff]
        intro q hq
        exact hother fun hqi => hnodup.1 (List.mem_map.2 ⟨q, hq, hqi⟩)
      rw [hrest]
      simp [List.filter_map, Function.comp_def]
    · have hne : p.2 ≠ i := by
        intro hpi
        exact hnodup.1 (List.mem_map.2 ⟨_, h, hpi.symm⟩)
      rw [hother hne, ih hnodup.2 h]
      rfl

theorem targetsOf_ofGraph {g : Graph S} {i : Nat} {n : Node S} (h : g.nodes[i]? = some n) :
    (ofGraph g).targetsOf i = n.targets := by
  have hedges : g.edges = g.nodes.zipIdx.flatMap fun p => p.1.targets.map (p.2, ·) := by
    rw [Graph.edges, Graph.indexed, List.flatMap_map]
  have hnodup : (g.nodes.zipIdx.map (·.2)).Nodup := by
    rw [List.zipIdx_map_snd]
    exact List.nodup_range'
  rw [targetsOf, ofGraph, hedges]
  exact edges_of_number hnodup (List.mem_zipIdx_iff_getElem?.2 h)

theorem wellFormed_ofGraph {g : Graph S} (h : g.Linked) : (ofGraph g).WellFormed where
  rising := by
    rw [tokens_ofGraph]
    exact List.pairwise_lt_range
  lt_issued := by
    rw [tokens_ofGraph]
    exact fun a ha => List.mem_range.1 ha
  alive := by
    rintro ⟨i, t⟩ he
    obtain ⟨n, hn, ht⟩ := Graph.mem_edges_iff.1 he
    rw [tokens_ofGraph, List.mem_range, List.mem_range]
    exact ⟨(List.getElem?_eq_some_iff.1 hn).1, (h i n hn).lt t ht⟩
  ne := by
    rintro ⟨i, t⟩ he
    obtain ⟨n, hn, ht⟩ := Graph.mem_edges_iff.1 he
    intro hloop
    exact (h i n hn).ne (show i ∈ n.targets from (show i = t from hloop) ▸ ht)
  nodup := by
    change g.edges.Nodup
    rw [Graph.edges, Graph.indexed, List.flatMap_map, List.nodup_flatMap]
    refine ⟨?_, ?_⟩
    · rintro ⟨n, i⟩ hn
      refine List.Nodup.map (fun t u htu => (Prod.mk.inj htu).2) ?_
      exact (h i n (List.mem_zipIdx_iff_getElem?.1 hn)).nodup
    · have hnodup : (g.nodes.zipIdx.map (·.2)).Nodup := by
        rw [List.zipIdx_map_snd]
        exact List.nodup_range'
      rw [List.nodup_iff_pairwise_ne, List.pairwise_map] at hnodup
      refine hnodup.imp ?_
      rintro ⟨n, i⟩ ⟨m, j⟩ hij e hi hj
      obtain ⟨t, -, rfl⟩ := List.mem_map.1 hi
      obtain ⟨u, -, hu⟩ := List.mem_map.1 hj
      exact hij (Prod.mk.inj hu).1.symm

theorem represents_ofGraph {g : Graph S} (h : g.Linked) : (ofGraph g).Represents g where
  fields := by
    rw [ofGraph, List.map_map]
    have hfst := congrArg (List.map fun n : Node S => { n with targets := [] }) (List.zipIdx_map_fst 0 g.nodes)
    rw [List.map_map] at hfst
    exact hfst.symm
  targets := by
    intro i n a hn ha
    have hi : i < g.size := (List.getElem?_eq_some_iff.1 hn).1
    rw [token?_ofGraph hi] at ha
    cases ha
    rw [targetsOf_ofGraph hn]
    exact List.map_congr_left fun t ht => token?_ofGraph ((h i n hn).lt t ht)

/-! ### Moving a node -/

/-- Moves the node of a token by a distance. -/
def move [Scalar S] (d : Digraph S) (a : Nat) (delta : Vec2 S) : Digraph S :=
  { d with nodes := d.nodes.map fun p => if p.1 = a then (p.1, { p.2 with position := p.2.position + delta }) else p }

variable [Scalar S] {d : Digraph S} {g : Graph S}

theorem tokens_move (d : Digraph S) (a : Nat) (delta : Vec2 S) : (d.move a delta).tokens = d.tokens := by
  rw [tokens, tokens, move, List.map_map]
  apply List.map_congr_left
  intro p _
  dsimp only [Function.comp_apply]
  split <;> rfl

theorem token?_move (d : Digraph S) (a : Nat) (delta : Vec2 S) : (d.move a delta).token? = d.token? := by
  funext i
  rw [token?, token?, tokens_move]

theorem WellFormed.move (h : d.WellFormed) (a : Nat) (delta : Vec2 S) : (d.move a delta).WellFormed where
  rising := by rw [tokens_move]; exact h.rising
  lt_issued := by rw [tokens_move]; exact h.lt_issued
  alive := by rw [tokens_move]; exact h.alive
  ne := h.ne
  nodup := h.nodup

/-- Moving the node at a position is moving the node of its token. -/
theorem Represents.move (h : d.Represents g) (hd : d.WellFormed) {i a : Nat} (ha : d.token? i = some a)
    (delta : Vec2 S) :
    (d.move a delta).Represents (g.modify i fun n => { n with position := n.position + delta }) where
  fields := by
    apply List.ext_getElem?
    intro j
    have hj := congrArg (·[j]?) h.fields
    simp only [List.getElem?_map] at hj
    rw [Graph.modify, List.getElem?_map, List.getElem?_modify, Digraph.move, List.getElem?_map, List.getElem?_map]
    cases hp : d.nodes[j]? with
    | none =>
      rw [hp] at hj
      simp [Option.map_eq_none_iff.1 hj]
    | some p =>
      rw [hp] at hj
      obtain ⟨n, hn, hnp⟩ := Option.map_eq_some_iff.1 hj
      have hb : d.token? j = some p.1 := by rw [token?, tokens, List.getElem?_map, hp]; rfl
      have hij : i = j ↔ p.1 = a := by
        constructor
        · rintro rfl
          exact Option.some.inj (hb.symm.trans ha)
        · rintro rfl
          exact hd.position_unique ha hb
      rw [hn]
      by_cases hpa : p.1 = a
      · simp [hij.2 hpa, hpa, ← hnp]
      · simp [mt hij.1 hpa, hpa, hnp]
  targets := by
    intro j m b hm hb
    rw [token?_move] at hb
    rw [Graph.modify, List.getElem?_modify] at hm
    obtain ⟨n, hn, rfl⟩ := Option.map_eq_some_iff.1 hm
    have htargets : (if i = j then { n with position := n.position + delta } else n).targets = n.targets := by
      split <;> rfl
    change List.map (d.move a delta).token? (if i = j then _ else n).targets = _
    rw [htargets, token?_move]
    exact h.targets j n b hn hb

end Digraph

/-! ### The node that a press hits -/

namespace Canvas

variable [Scalar S]

/-- The node at a position is the topmost one at a place on the screen. -/
def IsTopmost (c : Canvas S) (g : Graph S) (screen : Vec2 S) (i : Nat) : Prop :=
  (∃ n, g.nodes[i]? = some n ∧ c.hits n (c.viewport.toWorld screen) = true) ∧
    ∀ j n, i < j → g.nodes[j]? = some n → c.hits n (c.viewport.toWorld screen) = false

omit [Scalar S] in
private theorem getElem?_indexed (g : Graph S) (i : Nat) : g.indexed[i]? = g.nodes[i]?.map (i, ·) := by
  rw [Graph.indexed, List.getElem?_map, List.getElem?_zipIdx, Option.map_map, Nat.zero_add]
  rfl

theorem isTopmost_of_nodeAt {c : Canvas S} {g : Graph S} {screen : Vec2 S} {i : Nat}
    (h : c.nodeAt g screen = some i) : c.IsTopmost g screen i := by
  obtain ⟨⟨i', n⟩, hfind, rfl⟩ := Option.map_eq_some_iff.1 h
  obtain ⟨hhit, k, hk, hn, habove⟩ := List.find?_eq_some_iff_getElem.1 hfind
  have hsize : g.indexed.length = g.nodes.length := by simp [Graph.indexed]
  have hentry {k : Nat} (hk : k < g.indexed.length) : g.nodes[k]?.map (k, ·) = some g.indexed[k] := by
    rw [← getElem?_indexed, List.getElem?_eq_getElem hk]
  rw [List.length_reverse] at hk
  rw [List.getElem_reverse] at hn
  -- the nodes above it are those that come before it from the other end
  obtain ⟨m, hm, heq⟩ := Option.map_eq_some_iff.1 (hentry (k := g.indexed.length - 1 - k) (by omega))
  obtain ⟨rfl, rfl⟩ := Prod.mk.inj (heq.trans hn)
  refine ⟨⟨m, hm, hhit⟩, ?_⟩
  intro j n' hj hn'
  have hlt : j < g.nodes.length := (List.getElem?_eq_some_iff.1 hn').1
  have hat {k : Nat} (hk : k < g.indexed.length) (hkj : k = j) : g.indexed[k] = (j, n') := by
    subst hkj
    have hk' := hentry hk
    rw [hn', Option.map_some] at hk'
    exact (Option.some.inj hk').symm
  have hbefore := habove (g.indexed.length - 1 - j) (by dsimp only at hj; omega)
  rw [List.getElem_reverse, hat (by omega) (by omega), Bool.not_eq_true'] at hbefore
  exact hbefore

theorem lt_size_of_nodeAt {c : Canvas S} {g : Graph S} {screen : Vec2 S} {i : Nat}
    (h : c.nodeAt g screen = some i) : i < g.size := by
  obtain ⟨⟨n, hn, -⟩, -⟩ := isTopmost_of_nodeAt h
  exact (List.getElem?_eq_some_iff.1 hn).1

end Canvas

/-! ### Sessions -/

/-- A canvas on a graph, with what the positions of the graph stand for. -/
structure Session (S : Type) where
  canvas : Canvas S
  graph : Graph S
  nodes : Digraph S
  /-- the token of the node whose press selected a source last -/
  selected : Option Nat
  /-- the token of the node whose press began a drag last -/
  grabbed : Option Nat

namespace Session

/-- A canvas on a graph, before any gesture. -/
def start (c : Canvas S) (g : Graph S) : Session S := ⟨c, g, .ofGraph g, none, none⟩

variable [Scalar S]

/-- The answer to a gesture. -/
def answer (s : Session S) (x : Gesture S) : Option (Outcome S) := (x.perform s.canvas s.graph).1

/-- The digraph after a gesture that has an answer.  A press that is answered by a connection connects the selected
node with the one that it hits, a press that is answered by a deletion removes the node that it hits, and a drag
moves the grabbed node. -/
def follow (s : Session S) (x : Gesture S) (answer : Option (Outcome S)) : Digraph S :=
  match x, answer with
  | .press _, some (.connected _ target) =>
    match s.selected, s.nodes.token? target with
    | some a, some b => s.nodes.connect a b
    | _, _ => s.nodes
  | .press screen, some (.deleted _) =>
    match (s.canvas.nodeAt s.graph screen).bind s.nodes.token? with
    | some a => s.nodes.remove a
    | none => s.nodes
  | .dragTo screen, _ =>
    match s.canvas.drag, s.grabbed with
    | some (.node _ last), some a => s.nodes.move a ((screen - last).shrink s.canvas.viewport.zoom)
    | _, _ => s.nodes
  | _, _ => s.nodes

/-- The selected node after an answer. -/
def selectedBy (s : Session S) : Option (Outcome S) → Option Nat
  | some (.sourceSelected i) => s.nodes.token? i
  | _ => s.selected

/-- The grabbed node after an answer. -/
def grabbedBy (s : Session S) : Option (Outcome S) → Option Nat
  | some (.dragStarted i) => s.nodes.token? i
  | _ => s.grabbed

/-- A session after a gesture. -/
def perform (s : Session S) (x : Gesture S) : Session S where
  canvas := (x.perform s.canvas s.graph).2.1
  graph := (x.perform s.canvas s.graph).2.2
  nodes := s.follow x (s.answer x)
  selected := s.selectedBy (s.answer x)
  grabbed := s.grabbedBy (s.answer x)

/-- A session after some gestures. -/
def performAll (s : Session S) (gestures : List (Gesture S)) : Session S := gestures.foldl perform s

/-- The graph is the one of the digraph.  A source that waits for its target is the selected node, and connections are
being made; a node that is dragged is the grabbed one, and nodes are being moved. -/
structure Sound (s : Session S) : Prop where
  wellFormed : s.nodes.WellFormed
  represents : s.nodes.Represents s.graph
  edit : s.canvas.edit = none
  pending : ∀ i, s.canvas.pending = some i →
    s.canvas.mode = .connect ∧ ∃ a, s.selected = some a ∧ s.nodes.token? i = some a
  drag : ∀ i last, s.canvas.drag = some (.node i last) →
    s.canvas.mode = .move ∧ ∃ a, s.grabbed = some a ∧ s.nodes.token? i = some a

variable {s : Session S}

theorem perform_eq {x : Gesture S} {answer : Option (Outcome S)} {c : Canvas S} {g : Graph S}
    (h : x.perform s.canvas s.graph = (answer, c, g)) :
    s.perform x = ⟨c, g, s.follow x answer, s.selectedBy answer, s.grabbedBy answer⟩ := by
  rw [perform, Session.answer, h]

/-- A drag of no node moves the view at most. -/
theorem perform_dragTo_of_ne (screen : Vec2 S) (h : ∀ i last, s.canvas.drag ≠ some (.node i last)) :
    ∃ drag viewport, s.perform (.dragTo screen) = { s with canvas := { s.canvas with drag, viewport } } ∧
      ∀ i last, drag ≠ some (.node i last) := by
  cases hdrag : s.canvas.drag with
  | none =>
    have hperform : (Gesture.dragTo screen).perform s.canvas s.graph = (none, s.canvas, s.graph) := by
      simp only [Gesture.perform, Canvas.dragTo, hdrag]
    have hfollow : s.follow (.dragTo screen) none = s.nodes := by simp only [follow, hdrag]
    refine ⟨s.canvas.drag, s.canvas.viewport, ?_, h⟩
    rw [perform_eq hperform, hfollow]
    rfl
  | some drag =>
    cases drag with
    | node i last => exact absurd hdrag (h i last)
    | view last =>
      have hperform : (Gesture.dragTo screen).perform s.canvas s.graph = (none, { s.canvas with
          drag := some (.view screen), viewport := s.canvas.viewport.pan (screen - last) }, s.graph) := by
        simp only [Gesture.perform, Canvas.dragTo, hdrag]
      have hfollow : s.follow (.dragTo screen) none = s.nodes := by simp only [follow, hdrag]
      refine ⟨some (.view screen), s.canvas.viewport.pan (screen - last), ?_, by rintro _ _ ⟨⟩⟩
      rw [perform_eq hperform, hfollow]
      rfl

namespace Sound

theorem start (size : Vec2 S) (settings : CanvasSettings S) {g : Graph S} (hg : g.Linked) :
    (Session.start (.make size settings) g).Sound where
  wellFormed := Digraph.wellFormed_ofGraph hg
  represents := Digraph.represents_ofGraph hg
  edit := rfl
  pending := by rintro i ⟨⟩
  drag := by rintro i last ⟨⟩

theorem exists_token (h : s.Sound) {screen : Vec2 S} {i : Nat} (hit : s.canvas.nodeAt s.graph screen = some i) :
    ∃ b, s.nodes.token? i = some b := by
  obtain ⟨⟨n, hn, -⟩, -⟩ := Canvas.isTopmost_of_nodeAt hit
  exact h.represents.exists_token hn

/-- Two nodes that are there can be connected. -/
theorem exists_connect (h : s.Sound) {screen : Vec2 S} {source i : Nat}
    (hit : s.canvas.nodeAt s.graph screen = some i) (hpending : s.canvas.pending = some source) (hne : source ≠ i) :
    ∃ new, (s.graph.connect source i).1 = .ok new := by
  obtain ⟨-, a, -, ha⟩ := h.pending source hpending
  obtain ⟨n, hn⟩ := h.represents.exists_node ha
  have hlt := Canvas.lt_size_of_nodeAt hit
  unfold Graph.connect
  rw [if_neg hne, if_neg (Nat.not_le.2 hlt), hn]
  dsimp only
  split
  · exact ⟨false, rfl⟩
  · exact ⟨true, rfl⟩

theorem press (h : s.Sound) (screen : Vec2 S) : (s.perform (.press screen)).Sound := by
  obtain ⟨answer, c, g, hperform, hpressed⟩ := Gesture.exists_perform_press screen s.canvas s.graph
  rw [perform_eq hperform]
  cases hpressed with
  | @grabs i hit mode =>
    obtain ⟨b, hb⟩ := h.exists_token hit
    refine ⟨h.wellFormed, h.represents, h.edit, h.pending, ?_⟩
    rintro _ _ ⟨⟩
    exact ⟨mode, b, hb, hb⟩
  | inspects hit mode edit => exact ⟨h.wellFormed, h.represents, h.edit, h.pending, h.drag⟩
  | edits hit mode edit =>
    rw [h.edit] at edit
    cases edit
  | @selects i hit mode pending =>
    obtain ⟨b, hb⟩ := h.exists_token hit
    refine ⟨h.wellFormed, h.represents, h.edit, ?_, h.drag⟩
    rintro _ ⟨⟩
    exact ⟨mode, b, hb, hb⟩
  | rejects hit mode pending => exact ⟨h.wellFormed, h.represents, h.edit, h.pending, h.drag⟩
  | @links source i hit mode pending ne new =>
    obtain ⟨-, a, hselected, ha⟩ := h.pending source pending
    obtain ⟨b, hb⟩ := h.exists_token hit
    have hfollow : s.follow (.press screen) (some (.connected source i)) = s.nodes.connect a b := by
      simp only [follow, hselected, hb]
    rw [hfollow]
    refine ⟨h.wellFormed.connect (Digraph.mem_tokens_of_token? ha) (Digraph.mem_tokens_of_token? hb),
      h.represents.connect h.wellFormed ha hb, h.edit, by rintro _ ⟨⟩, ?_⟩
    intro j last hdrag
    cases mode.symm.trans (h.drag j last hdrag).1
  | finds hit mode pending ne old =>
    have hsame : (s.graph.connect _ _).2 = s.graph := Graph.connect_of_ne_true (by rw [old]; simp)
    rw [hsame]
    exact ⟨h.wellFormed, h.represents, h.edit, by rintro _ ⟨⟩, h.drag⟩
  | fails hit mode pending ne error =>
    obtain ⟨new, hnew⟩ := h.exists_connect hit pending ne
    rw [error] at hnew
    cases hnew
  | @deletes i n hit mode gone =>
    obtain ⟨b, hb⟩ := h.exists_token hit
    have hfollow : s.follow (.press screen) (some (.deleted n)) = s.nodes.remove b := by
      simp only [follow, hit, Option.bind_some, hb]
    rw [hfollow]
    refine ⟨h.wellFormed.remove b, h.represents.remove h.wellFormed hb, h.edit, ?_, ?_⟩
    · intro j hpending
      cases mode.symm.trans (h.pending j hpending).1
    · intro j last hdrag
      cases mode.symm.trans (h.drag j last hdrag).1
  | deletesNothing hit mode none =>
    rw [Graph.remove_of_none none]
    exact ⟨h.wellFormed, h.represents, h.edit, h.pending, h.drag⟩
  | cancels miss mode pending => exact ⟨h.wellFormed, h.represents, h.edit, by rintro _ ⟨⟩, h.drag⟩
  | pans miss idle => exact ⟨h.wellFormed, h.represents, h.edit, h.pending, by rintro _ _ ⟨⟩⟩

/-- What a drag does while a node is dragged. -/
theorem perform_dragTo (h : s.Sound) (screen : Vec2 S) {last : Vec2 S} {i : Nat}
    (hdrag : s.canvas.drag = some (.node i last)) :
    ∃ a, s.grabbed = some a ∧ s.nodes.token? i = some a ∧ s.perform (.dragTo screen) =
      { s with
        canvas := { s.canvas with drag := some (.node i screen) }
        graph := s.graph.modify i fun n =>
          { n with position := n.position + (screen - last).shrink s.canvas.viewport.zoom }
        nodes := s.nodes.move a ((screen - last).shrink s.canvas.viewport.zoom) } := by
  obtain ⟨-, a, hgrabbed, ha⟩ := h.drag i last hdrag
  have hlt : i < s.graph.size := by
    obtain ⟨n, hn⟩ := h.represents.exists_node ha
    exact (List.getElem?_eq_some_iff.1 hn).1
  have hperform : (Gesture.dragTo screen).perform s.canvas s.graph =
      (none, { s.canvas with drag := some (.node i screen) }, s.graph.modify i fun n =>
        { n with position := n.position + (screen - last).shrink s.canvas.viewport.zoom }) := by
    simp only [Gesture.perform, Canvas.dragTo, hdrag, if_pos hlt]
  have hfollow : s.follow (.dragTo screen) none =
      s.nodes.move a ((screen - last).shrink s.canvas.viewport.zoom) := by
    simp only [follow, hdrag, hgrabbed]
  refine ⟨a, hgrabbed, ha, ?_⟩
  rw [perform_eq hperform, hfollow]
  rfl

theorem dragTo (h : s.Sound) (screen : Vec2 S) : (s.perform (.dragTo screen)).Sound := by
  by_cases hdrag : ∃ i last, s.canvas.drag = some (.node i last)
  · obtain ⟨i, last, hdrag⟩ := hdrag
    obtain ⟨a, hgrabbed, ha, hperform⟩ := h.perform_dragTo screen hdrag
    rw [hperform]
    refine ⟨h.wellFormed.move a _, h.represents.move h.wellFormed ha _, h.edit, ?_, ?_⟩
    · simpa only [Digraph.token?_move] using h.pending
    · rintro _ _ ⟨⟩
      exact ⟨(h.drag i last hdrag).1, a, hgrabbed, by rwa [Digraph.token?_move]⟩
  · obtain ⟨drag, viewport, hperform, hview⟩ := perform_dragTo_of_ne screen
      (fun i last h => hdrag ⟨i, last, h⟩)
    rw [hperform]
    exact ⟨h.wellFormed, h.represents, h.edit, h.pending, fun i last h => absurd h (hview i last)⟩

theorem perform (h : s.Sound) (x : Gesture S) : (s.perform x).Sound := by
  cases x with
  | setMode mode => exact ⟨h.wellFormed, h.represents, h.edit, by rintro _ ⟨⟩, by rintro _ _ ⟨⟩⟩
  | press screen => exact h.press screen
  | dragTo screen => exact h.dragTo screen
  | pressSecondary | release => exact ⟨h.wellFormed, h.represents, h.edit, h.pending, by rintro _ _ ⟨⟩⟩
  | scroll | zoomIn | zoomOut | resize | setZoom | zoomAt =>
    exact ⟨h.wellFormed, h.represents, h.edit, h.pending, h.drag⟩

theorem performAll (h : s.Sound) (gestures : List (Gesture S)) : (s.performAll gestures).Sound := by
  induction gestures generalizing s with
  | nil => exact h
  | cons x gestures ih => exact ih (h.perform x)

end Sound

/-! ### What answers say -/

/-- What the next gesture does, as its answer tells. -/
structure Accounts (s : Session S) (x : Gesture S) : Prop where
  /-- a press that selects a source hits it, and it waits for its target then -/
  selected : ∀ i, s.answer x = some (.sourceSelected i) → ∃ screen, x = .press screen ∧ s.canvas.mode = .connect ∧
    s.canvas.IsTopmost s.graph screen i ∧ (s.perform x).canvas.pending = some i ∧
    (s.perform x).selected = s.nodes.token? i
  /-- a press that grabs a node hits it, and it is dragged then -/
  grabbed : ∀ i, s.answer x = some (.dragStarted i) → ∃ screen, x = .press screen ∧ s.canvas.mode = .move ∧
    s.canvas.IsTopmost s.graph screen i ∧ (s.perform x).canvas.drag = some (.node i screen) ∧
    (s.perform x).grabbed = s.nodes.token? i
  /-- a connection leads from the selected node to another one that is hit, and its edge is new and comes last -/
  connected : ∀ source target, s.answer x = some (.connected source target) → ∃ screen a b, x = .press screen ∧
    s.canvas.mode = .connect ∧ s.canvas.IsTopmost s.graph screen target ∧ s.selected = some a ∧
    s.nodes.token? source = some a ∧ s.nodes.token? target = some b ∧ a ≠ b ∧ (a, b) ∉ s.nodes.edges ∧
    (s.perform x).nodes = { s.nodes with edges := s.nodes.edges ++ [(a, b)] }
  /-- a deletion takes away the topmost node that is hit, with its edges -/
  deleted : ∀ n, s.answer x = some (.deleted n) → ∃ screen i a, x = .press screen ∧ s.canvas.mode = .delete ∧
    s.canvas.IsTopmost s.graph screen i ∧ s.nodes.nodes[i]? = some (a, n) ∧ (s.perform x).nodes = s.nodes.remove a
  /-- a drag of a node moves the grabbed one -/
  moved : ∀ screen i last, x = .dragTo screen → s.canvas.drag = some (.node i last) → ∃ a, s.canvas.mode = .move ∧
    s.grabbed = some a ∧ s.nodes.token? i = some a ∧
    (s.perform x).nodes = s.nodes.move a ((screen - last).shrink s.canvas.viewport.zoom)
  /-- nothing else changes the graph -/
  otherwise : (∀ source target, s.answer x ≠ some (.connected source target)) →
    (∀ n, s.answer x ≠ some (.deleted n)) →
    (∀ screen i last, x = .dragTo screen → s.canvas.drag ≠ some (.node i last)) →
    (s.perform x).nodes = s.nodes ∧ (s.perform x).graph = s.graph
  /-- a source is dropped by a press beside all nodes only, never because it cannot be connected -/
  cancelled : s.answer x = some .cancelled → ∃ screen, x = .press screen ∧ s.canvas.nodeAt s.graph screen = none
  connects : ∀ screen source i, s.canvas.nodeAt s.graph screen = some i → s.canvas.pending = some source →
    source ≠ i → ∃ new, (s.graph.connect source i).1 = .ok new

/-- A press that is answered neither by a connection nor by a deletion edits nothing. -/
private theorem Sound.press_otherwise (h : s.Sound) {screen : Vec2 S}
    (hconnected : ∀ source target, s.answer (.press screen) ≠ some (.connected source target))
    (hdeleted : ∀ n, s.answer (.press screen) ≠ some (.deleted n)) :
    (s.perform (.press screen)).nodes = s.nodes ∧ (s.perform (.press screen)).graph = s.graph := by
  obtain ⟨answer, c, g, hperform, hpressed⟩ := Gesture.exists_perform_press screen s.canvas s.graph
  rw [Session.answer, hperform] at hconnected hdeleted
  rw [perform_eq hperform]
  cases hpressed with
  | links => exact absurd rfl (hconnected _ _)
  | deletes => exact absurd rfl (hdeleted _)
  | edits hit mode edit =>
    rw [h.edit] at edit
    cases edit
  | finds hit mode pending ne old => exact ⟨rfl, Graph.connect_of_ne_true (by rw [old]; simp)⟩
  | fails hit mode pending ne error => exact ⟨rfl, Graph.connect_of_ne_true (by rw [error]; simp)⟩
  | deletesNothing hit mode none => exact ⟨rfl, Graph.remove_of_none none⟩
  | grabs | inspects | selects | rejects | cancels | pans => exact ⟨rfl, rfl⟩

theorem Sound.accounts (h : s.Sound) (x : Gesture S) : s.Accounts x where
  selected := by
    intro i hanswer
    obtain ⟨screen, c, g, rfl, hperform, hpressed⟩ := Gesture.exists_pressed hanswer (by simp)
    rw [perform_eq hperform]
    cases hpressed with
    | selects hit mode pending => exact ⟨screen, rfl, mode, Canvas.isTopmost_of_nodeAt hit, rfl, rfl⟩
  grabbed := by
    intro i hanswer
    obtain ⟨screen, c, g, rfl, hperform, hpressed⟩ := Gesture.exists_pressed hanswer (by simp)
    rw [perform_eq hperform]
    cases hpressed with
    | grabs hit mode => exact ⟨screen, rfl, mode, Canvas.isTopmost_of_nodeAt hit, rfl, rfl⟩
  connected := by
    intro source target hanswer
    obtain ⟨screen, c, g, rfl, hperform, hpressed⟩ := Gesture.exists_pressed hanswer (by simp)
    rw [perform_eq hperform]
    cases hpressed with
    | links hit mode pending ne new =>
      obtain ⟨-, a, hselected, ha⟩ := h.pending source pending
      obtain ⟨b, hb⟩ := h.exists_token hit
      have hab : a ≠ b := by
        rintro rfl
        exact ne (h.wellFormed.position_unique ha hb)
      have hedge : (a, b) ∉ s.nodes.edges := by
        obtain ⟨n, hn⟩ := h.represents.exists_node ha
        rw [← h.represents.mem_targets_iff h.wellFormed hn ha hb]
        have hnew := (Graph.connect_eq_true_iff.1 new).2.2.2
        rwa [Graph.successors, hn] at hnew
      refine ⟨screen, a, b, rfl, mode, Canvas.isTopmost_of_nodeAt hit, hselected, ha, hb, hab, hedge, ?_⟩
      simp only [follow, hselected, hb, Digraph.connect, hab, hedge, or_self, if_false]
  deleted := by
    intro n hanswer
    obtain ⟨screen, c, g, rfl, hperform, hpressed⟩ := Gesture.exists_pressed hanswer (by simp)
    rw [perform_eq hperform]
    cases hpressed with
    | @deletes i n hit mode gone =>
      rw [h.represents.remove_fst, Option.map_eq_some_iff] at gone
      obtain ⟨⟨a, n⟩, hn, rfl⟩ := gone
      have ha : s.nodes.token? i = some a := by
        rw [Digraph.token?, Digraph.tokens, List.getElem?_map, hn]
        rfl
      refine ⟨screen, i, a, rfl, mode, Canvas.isTopmost_of_nodeAt hit, hn, ?_⟩
      simp only [follow, hit, Option.bind_some, ha]
  moved := by
    rintro screen i last rfl hdrag
    obtain ⟨a, hgrabbed, ha, hperform⟩ := h.perform_dragTo screen hdrag
    exact ⟨a, (h.drag i last hdrag).1, hgrabbed, ha, by rw [hperform]⟩
  otherwise := by
    intro hconnected hdeleted hmoved
    cases x with
    | press screen => exact h.press_otherwise hconnected hdeleted
    | dragTo screen =>
      obtain ⟨drag, viewport, hperform, -⟩ := perform_dragTo_of_ne screen
        (fun i last => hmoved screen i last rfl)
      rw [hperform]
      exact ⟨rfl, rfl⟩
    | _ => exact ⟨rfl, rfl⟩
  cancelled := by
    intro hanswer
    obtain ⟨screen, c, g, rfl, -, hpressed⟩ := Gesture.exists_pressed hanswer (by simp)
    cases hpressed with
    | fails hit mode pending ne error =>
      obtain ⟨new, hnew⟩ := h.exists_connect hit pending ne
      rw [error] at hnew
      cases hnew
    | cancels miss => exact ⟨screen, rfl, miss⟩
  connects _ _ _ hit pending ne := h.exists_connect hit pending ne

/-- Gestures edit a graph only as their answers say, from the first canvas on and whatever gestures went before.  The
source that waits for its target is the node whose press selected it last, and a node is dragged only if its press
began that drag.  Nodes keep their fields, apart from the position of the node that is dragged; edges are gained by
connections and lost with deleted nodes only.  Nodes and edges keep their order. -/
theorem edits_follow_answers (size : Vec2 S) (settings : CanvasSettings S) {g : Graph S} (hg : g.Linked)
    (gestures : List (Gesture S)) :
    let s := (Session.start (.make size settings) g).performAll gestures
    s.Sound ∧ ∀ x, s.Accounts x := by
  intro s
  have hsound : s.Sound := (Sound.start size settings hg).performAll gestures
  exact ⟨hsound, hsound.accounts⟩

/-- Two nodes side by side. -/
def pair : Graph Float32 :=
  (Graph.empty.addTemplate "a" "On Start" .zero).addTemplate "b" "Message" ⟨Float32.ofNat 600, Float32.ofNat 0⟩

/-- Connects the first node with the second one, and drags the first one. -/
def strokes : List (Gesture Float32) :=
  [.setMode .connect, .press ⟨Float32.ofNat 500, Float32.ofNat 350⟩, .press ⟨Float32.ofNat 800, Float32.ofNat 350⟩,
    .setMode .move, .press ⟨Float32.ofNat 500, Float32.ofNat 350⟩, .dragTo ⟨Float32.ofNat 520, Float32.ofNat 360⟩]

theorem edits_follow_answers_pair :
    pair.Linked ∧
      let s := (Session.start (.make ⟨Float32.ofNat 800, Float32.ofNat 600⟩ .default) pair).performAll strokes
      (s.Sound ∧ ∀ x, s.Accounts x) ∧ s.selected = some 0 ∧ s.grabbed = some 0 ∧ s.nodes.edges = [(0, 1)] ∧
        s.graph.nodes.map (·.position) =
          [⟨Float32.ofNat 40, Float32.ofNat 20⟩, ⟨Float32.ofNat 600, Float32.ofNat 0⟩] := by
  have hlinked : pair.Linked :=
    ((Graph.Built.empty.add (.ofTemplate ..)).add (.ofTemplate ..)).linked
  refine ⟨hlinked, edits_follow_answers _ _ hlinked strokes, ?_⟩
  decide +kernel

end Session

end ScriptGraph
