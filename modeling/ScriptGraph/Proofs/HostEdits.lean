import ScriptGraph.Proofs.CanvasEdits

/-!
# Gestures between the edits of a host

A host may edit the graph of a canvas between two gestures.  A canvas holds on to nodes by their positions, so it
loses the node that it holds when this node or one before it is removed: the position then stands for another node
or for none.  Nothing else makes it lose the node (`Held.At.iff`).

`Shared` runs a canvas and a host on one graph.  Beside the graph it has a row of tokens, one for each node, which a
node keeps as long as it lives.  For each of the two nodes that presses took hold of last it has the token and the
edits since then.  Whatever was done before, a drag moves the node at the position that the canvas has kept, and a
connection leads from the one at the position of the source: the node that was pressed if no edit since then
displaces it, and otherwise another one (`Shared.held_until_displaced`).
-/

namespace ScriptGraph

variable {S : Type}

/-! ### Tokens -/

/-- The tokens of the nodes of a graph, by position.  No token is given out twice. -/
structure Tokens where
  /-- how many tokens were given out -/
  issued : Nat
  live : List Nat

namespace Tokens

/-- The tokens of a graph that nobody has edited yet. -/
def ofSize (size : Nat) : Tokens := ⟨size, List.range size⟩

/-- The token of a new node comes last. -/
def add (t : Tokens) : Tokens := ⟨t.issued + 1, t.live ++ [t.issued]⟩

/-- The tokens once the node at a position is gone. -/
def remove (t : Tokens) (i : Nat) : Tokens := { t with live := t.live.eraseIdx i }

/-- The tokens after an edit. -/
def edit (t : Tokens) : Edit S → Tokens
  | .add _ | .addTemplate .. => t.add
  | .remove i => t.remove i
  | .clear => { t with live := [] }
  | .connect .. | .disconnect .. => t

/-- Tokens are given out in rising order. -/
structure WellFormed (t : Tokens) : Prop where
  rising : t.live.Pairwise (· < ·)
  lt_issued : ∀ a ∈ t.live, a < t.issued

variable {t : Tokens}

namespace WellFormed

theorem ofSize (size : Nat) : (ofSize size).WellFormed :=
  ⟨List.pairwise_lt_range, fun _ ha => List.mem_range.1 ha⟩

theorem add (h : t.WellFormed) : t.add.WellFormed where
  rising := by
    rw [Tokens.add, List.pairwise_append]
    refine ⟨h.rising, by simp, ?_⟩
    intro a ha b hb
    rw [List.mem_singleton.1 hb]
    exact h.lt_issued a ha
  lt_issued := by
    intro a ha
    rcases List.mem_append.1 ha with ha | ha
    · exact Nat.lt_succ_of_lt (h.lt_issued a ha)
    · rw [List.mem_singleton.1 ha]
      exact Nat.lt_succ_self t.issued

theorem remove (h : t.WellFormed) (i : Nat) : (t.remove i).WellFormed where
  rising := h.rising.sublist (List.eraseIdx_sublist ..)
  lt_issued a ha := h.lt_issued a (List.mem_of_mem_eraseIdx ha)

theorem edit (h : t.WellFormed) (e : Edit S) : (t.edit e).WellFormed := by
  cases e with
  | add | addTemplate => exact h.add
  | remove i => exact h.remove i
  | clear => exact ⟨.nil, by simp [Tokens.edit]⟩
  | connect | disconnect => exact h

/-- Positions rise with their tokens. -/
theorem lt_of_lt (h : t.WellFormed) {i j a b : Nat} (hij : i < j) (ha : t.live[i]? = some a)
    (hb : t.live[j]? = some b) : a < b := by
  obtain ⟨hi, rfl⟩ := List.getElem?_eq_some_iff.1 ha
  obtain ⟨hj, rfl⟩ := List.getElem?_eq_some_iff.1 hb
  exact List.pairwise_iff_getElem.1 h.rising i j hi hj hij

theorem position_unique (h : t.WellFormed) {i j a : Nat} (hi : t.live[i]? = some a) (hj : t.live[j]? = some a) :
    i = j := by
  rcases Nat.lt_trichotomy i j with hij | hij | hij
  · exact absurd (h.lt_of_lt hij hi hj) (Nat.lt_irrefl a)
  · exact hij
  · exact absurd (h.lt_of_lt hij hj hi) (Nat.lt_irrefl a)

end WellFormed

theorem getElem?_remove (t : Tokens) (i k : Nat) :
    (t.remove i).live[k]? = if k < i then t.live[k]? else t.live[k + 1]? := List.getElem?_eraseIdx

/-- A token beside the next one to be given out is one that was there before. -/
theorem getElem?_add_eq_some {k b : Nat} (h : t.add.live[k]? = some b) : t.live[k]? = some b ∨ b = t.issued := by
  rw [add, List.getElem?_append] at h
  split at h
  · exact .inl h
  · exact .inr (List.mem_singleton.1 (List.mem_of_getElem? h))

end Tokens

/-! ### Nodes without their connections -/

namespace Graph

/-- The nodes of a graph without their connections, which edits of other nodes may change. -/
def unlinked (g : Graph S) : List (Node S) := g.nodes.map fun n => { n with targets := [] }

theorem length_unlinked (g : Graph S) : g.unlinked.length = g.size := List.length_map ..

theorem unlinked_add (g : Graph S) (n : Node S) : (g.add n).unlinked = g.unlinked ++ [{ n with targets := [] }] :=
  List.map_append

theorem unlinked_modify (g : Graph S) (i : Nat) (f : List Nat → List Nat) :
    (g.modify i fun n => { n with targets := f n.targets }).unlinked = g.unlinked := by
  refine map_modify ?_ g i
  exact fun _ => rfl

theorem unlinked_connect (g : Graph S) (source target : Nat) : (g.connect source target).2.unlinked = g.unlinked := by
  by_cases h : (g.connect source target).1 = .ok true
  · rw [connect_of_true h]
    exact g.unlinked_modify source (· ++ [target])
  · rw [connect_of_ne_true h]

theorem unlinked_disconnect (g : Graph S) (source target : Nat) :
    (g.disconnect source target).2.unlinked = g.unlinked := by
  unfold disconnect
  split
  · rfl
  · exact g.unlinked_modify source fun targets => targets.filter (· != target)

theorem unlinked_remove (g : Graph S) (i : Nat) : (g.remove i).2.unlinked = g.unlinked.eraseIdx i := by
  unfold remove unlinked
  split
  · next h =>
    rw [List.eraseIdx_of_length_le]
    rw [List.length_map]
    exact List.getElem?_eq_none_iff.1 h
  · rw [List.map_map, List.eraseIdx_map]
    rfl

end Graph

namespace Tokens

variable [Scalar S] {t : Tokens} {g : Graph S}

/-- There are as many nodes as tokens after an edit if there were before it. -/
theorem length_edit (h : t.live.length = g.size) (e : Edit S) : (t.edit e).live.length = (e.apply g).size := by
  rw [← Graph.length_unlinked] at h ⊢
  have hadd (n : Node S) : t.add.live.length = (g.add n).unlinked.length := by
    rw [Graph.unlinked_add, add, List.length_append, h, List.length_append]
    rfl
  cases e with
  | add n => exact hadd n
  | addTemplate id label position => exact hadd _
  | connect source target => rw [Edit.apply, Graph.unlinked_connect, ← h, edit]
  | disconnect source target => rw [Edit.apply, Graph.unlinked_disconnect, ← h, edit]
  | remove i => rw [Edit.apply, Graph.unlinked_remove, edit, remove, List.length_eraseIdx, List.length_eraseIdx, h]
  | clear => rfl

/-- A token stands for the same node before and after an edit: the node keeps all but its connections. -/
theorem node_edit (ht : t.WellFormed) (h : t.live.length = g.size) (e : Edit S) {k k' a : Nat}
    (hk : t.live[k]? = some a) (hk' : (t.edit e).live[k']? = some a) :
    (e.apply g).unlinked[k']? = g.unlinked[k]? := by
  have hlt : k < g.unlinked.length := by
    rw [g.length_unlinked, ← h]
    exact (List.getElem?_eq_some_iff.1 hk).1
  have hadd (n : Node S) (hk' : t.add.live[k']? = some a) : (g.add n).unlinked[k']? = g.unlinked[k]? := by
    rcases getElem?_add_eq_some hk' with hk' | rfl
    · rw [ht.position_unique hk' hk, Graph.unlinked_add, List.getElem?_append_left hlt]
    · exact absurd (ht.lt_issued _ (List.mem_of_getElem? hk)) (Nat.lt_irrefl _)
  cases e with
  | add n => exact hadd n hk'
  | addTemplate id label position => exact hadd _ hk'
  | connect source target => rw [Edit.apply, Graph.unlinked_connect, ht.position_unique hk' hk]
  | disconnect source target => rw [Edit.apply, Graph.unlinked_disconnect, ht.position_unique hk' hk]
  | remove i =>
    rw [edit, getElem?_remove] at hk'
    rw [Edit.apply, Graph.unlinked_remove, List.getElem?_eraseIdx]
    split at hk'
    · next hlt => rw [if_pos hlt, ht.position_unique hk' hk]
    · next hle => rw [if_neg hle, ht.position_unique hk' hk]
  | clear => cases hk'

end Tokens

/-! ### Nodes that a canvas holds on to -/

/-- After the edit the node that stood at a position is gone, or stands elsewhere. -/
def Edit.Displaces (e : Edit S) (i : Nat) : Prop :=
  match e with
  | remove j => j ≤ i
  | clear => True
  | _ => False

/-- A node that a press took hold of. -/
structure Held (S : Type) where
  token : Nat
  /-- the edits of the host since the press -/
  since : List (Edit S)

namespace Held

/-- One edit later. -/
def after (h : Held S) (e : Edit S) : Held S := { h with since := h.since ++ [e] }

/-- No edit of the host has displaced the node from a position. -/
def Stays (h : Held S) (i : Nat) : Prop := ∀ e ∈ h.since, ¬ e.Displaces i

/-- What is known of the position at which a node was pressed.  Once the node is displaced, it stands before that
position if it stands anywhere, and it never comes back. -/
structure At (h : Held S) (t : Tokens) (i : Nat) : Prop where
  lt_issued : h.token < t.issued
  here : h.Stays i → t.live[i]? = some h.token
  past : ¬ h.Stays i → ∀ k b, i ≤ k → t.live[k]? = some b → h.token < b

variable {h : Held S} {t : Tokens} {i : Nat}

theorem stays_after {e : Edit S} : (h.after e).Stays i ↔ h.Stays i ∧ ¬ e.Displaces i := by
  simp only [Stays, after, List.mem_append, List.mem_singleton, or_imp, forall_and, forall_eq]

namespace At

/-- A node is where it was pressed as long as no edit of the host displaces it. -/
theorem iff (hat : h.At t i) : t.live[i]? = some h.token ↔ h.Stays i := by
  refine ⟨fun htoken => ?_, hat.here⟩
  by_contra hgone
  exact Nat.lt_irrefl _ (hat.past hgone i h.token (Nat.le_refl i) htoken)

theorem press (ht : t.WellFormed) {a : Nat} (ha : t.live[i]? = some a) : (Held.mk a [] : Held S).At t i where
  lt_issued := ht.lt_issued a (List.mem_of_getElem? ha)
  here _ := ha
  past hgone := absurd (fun _ he => absurd he List.not_mem_nil) hgone

theorem add (hat : h.At t i) {e : Edit S} (he : ∀ j, ¬ e.Displaces j) : (h.after e).At t.add i where
  lt_issued := Nat.lt_succ_of_lt hat.lt_issued
  here hstays := by
    have hhere := hat.here (stays_after.1 hstays).1
    rw [Tokens.add, List.getElem?_append_left (List.getElem?_eq_some_iff.1 hhere).1]
    exact hhere
  past hgone := by
    intro k b hik hb
    rcases Tokens.getElem?_add_eq_some hb with hb | rfl
    · exact hat.past (fun hstays => hgone (stays_after.2 ⟨hstays, he i⟩)) k b hik hb
    · exact hat.lt_issued

theorem remove (hat : h.At t i) (ht : t.WellFormed) (j : Nat) : (h.after (.remove j)).At (t.remove j) i where
  lt_issued := hat.lt_issued
  here hstays := by
    obtain ⟨hstays, hij⟩ := stays_after.1 hstays
    rw [Tokens.getElem?_remove, if_pos (Nat.not_le.1 hij)]
    exact hat.here hstays
  past hgone := by
    intro k b hik hb
    rw [Tokens.getElem?_remove] at hb
    by_cases hstays : h.Stays i
    · -- the node goes or moves by one position: what stands at its position or behind it stood behind the node
      have hji : j ≤ i := by
        by_contra hij
        exact hgone (stays_after.2 ⟨hstays, hij⟩)
      rw [if_neg (by omega)] at hb
      exact ht.lt_of_lt (by omega) (hat.here hstays) hb
    · split at hb
      · exact hat.past hstays k b hik hb
      · exact hat.past hstays (k + 1) b (by omega) hb

theorem edit (hat : h.At t i) (ht : t.WellFormed) (e : Edit S) : (h.after e).At (t.edit e) i := by
  cases e with
  | add | addTemplate => exact hat.add fun _ => id
  | remove j => exact hat.remove ht j
  | clear =>
    refine ⟨hat.lt_issued, fun hstays => absurd trivial (stays_after.1 hstays).2, ?_⟩
    rintro - k b - ⟨⟩
  | connect | disconnect =>
    refine ⟨hat.lt_issued, fun hstays => hat.here (stays_after.1 hstays).1, fun hgone => hat.past ?_⟩
    exact fun hstays => hgone (stays_after.2 ⟨hstays, id⟩)

end At

end Held

/-! ### A canvas and a host -/

/-- A canvas and a host on one graph, with the tokens of its nodes. -/
structure Shared (S : Type) where
  canvas : Canvas S
  graph : Graph S
  tokens : Tokens
  /-- the node whose press selected a source last -/
  selected : Option (Held S)
  /-- the node whose press began a drag last -/
  grabbed : Option (Held S)

/-- What the user or the host does next. -/
inductive Move (S : Type) where
  | gesture (x : Gesture S)
  | edit (e : Edit S)

namespace Shared

/-- A canvas on a graph, before anything is done. -/
def start (c : Canvas S) (g : Graph S) : Shared S := ⟨c, g, .ofSize g.size, none, none⟩

variable [Scalar S]

/-- The answer to a gesture. -/
def answer (s : Shared S) (x : Gesture S) : Option (Outcome S) := (x.perform s.canvas s.graph).1

/-- The node at a position, as a press takes hold of it. -/
def hold (s : Shared S) (i : Nat) : Option (Held S) := s.tokens.live[i]?.map (⟨·, []⟩)

/-- The tokens after a gesture that has an answer. -/
def tokensBy (s : Shared S) (x : Gesture S) (answer : Option (Outcome S)) : Tokens :=
  match x, answer with
  | .press screen, some (.deleted _) =>
    match s.canvas.nodeAt s.graph screen with
    | some i => s.tokens.remove i
    | none => s.tokens
  | _, _ => s.tokens

/-- The selected node after an answer. -/
def selectedBy (s : Shared S) : Option (Outcome S) → Option (Held S)
  | some (.sourceSelected i) => s.hold i
  | _ => s.selected

/-- The grabbed node after an answer. -/
def grabbedBy (s : Shared S) : Option (Outcome S) → Option (Held S)
  | some (.dragStarted i) => s.hold i
  | _ => s.grabbed

/-- One gesture or one edit later. -/
def perform (s : Shared S) : Move S → Shared S
  | .gesture x =>
    { canvas := (x.perform s.canvas s.graph).2.1
      graph := (x.perform s.canvas s.graph).2.2
      tokens := s.tokensBy x (s.answer x)
      selected := s.selectedBy (s.answer x)
      grabbed := s.grabbedBy (s.answer x) }
  | .edit e =>
    { canvas := s.canvas
      graph := e.apply s.graph
      tokens := s.tokens.edit e
      selected := s.selected.map (·.after e)
      grabbed := s.grabbed.map (·.after e) }

/-- Some gestures and edits later. -/
def performAll (s : Shared S) (moves : List (Move S)) : Shared S := moves.foldl perform s

/-- Each node has a token.  A source that waits for its target was selected by a press at its position while
connections were made, and a node that is dragged was grabbed by a press at its position while nodes were moved. -/
structure Sound (s : Shared S) : Prop where
  wellFormed : s.tokens.WellFormed
  length : s.tokens.live.length = s.graph.size
  pending : ∀ i, s.canvas.pending = some i → s.canvas.mode = .connect ∧ ∃ h, s.selected = some h ∧ h.At s.tokens i
  drag : ∀ i last, s.canvas.drag = some (.node i last) →
    s.canvas.mode = .move ∧ ∃ h, s.grabbed = some h ∧ h.At s.tokens i

variable {s : Shared S}

theorem perform_eq {x : Gesture S} {answer : Option (Outcome S)} {c : Canvas S} {g : Graph S}
    (h : x.perform s.canvas s.graph = (answer, c, g)) :
    s.perform (.gesture x) = ⟨c, g, s.tokensBy x answer, s.selectedBy answer, s.grabbedBy answer⟩ := by
  rw [perform, Shared.answer, h]

namespace Sound

omit [Scalar S] in
theorem start {c : Canvas S} (hpending : c.pending = none) (hdrag : c.drag = none) (g : Graph S) :
    (Shared.start c g).Sound where
  wellFormed := .ofSize g.size
  length := List.length_range
  pending i h := by cases hpending.symm.trans h
  drag i last h := by cases hdrag.symm.trans h

/-- What a press takes hold of stands at its position. -/
theorem exists_hold (h : s.Sound) {screen : Vec2 S} {i : Nat} (hit : s.canvas.nodeAt s.graph screen = some i) :
    ∃ n, s.hold i = some n ∧ n.At s.tokens i := by
  have hlt : i < s.tokens.live.length := by
    rw [h.length]
    exact Canvas.lt_size_of_nodeAt hit
  have ha : s.tokens.live[i]? = some s.tokens.live[i] := List.getElem?_eq_getElem hlt
  exact ⟨⟨s.tokens.live[i], []⟩, by rw [hold, ha]; rfl, .press h.wellFormed ha⟩

theorem press (h : s.Sound) (screen : Vec2 S) : (s.perform (.gesture (.press screen))).Sound := by
  obtain ⟨answer, c, g, hperform, hpressed⟩ := Gesture.exists_perform_press screen s.canvas s.graph
  rw [perform_eq hperform]
  have hconnect (source target : Nat) : s.tokens.live.length = (s.graph.connect source target).2.size :=
    Tokens.length_edit h.length (.connect source target)
  cases hpressed with
  | grabs hit mode =>
    refine ⟨h.wellFormed, h.length, h.pending, ?_⟩
    rintro _ _ ⟨⟩
    exact ⟨mode, h.exists_hold hit⟩
  | selects hit mode pending =>
    refine ⟨h.wellFormed, h.length, ?_, h.drag⟩
    rintro _ ⟨⟩
    exact ⟨mode, h.exists_hold hit⟩
  | inspects | rejects => exact h
  | edits hit mode edit => exact ⟨h.wellFormed, h.length.trans (Graph.size_modify ..).symm, h.pending, h.drag⟩
  | links | finds | fails => exact ⟨h.wellFormed, hconnect .., by rintro _ ⟨⟩, h.drag⟩
  | @deletes i n hit mode gone =>
    have htokens : s.tokensBy (.press screen) (some (.deleted n)) = s.tokens.remove i := by
      simp only [tokensBy, hit]
    rw [htokens]
    -- neither a source nor a drag outlives the choice of the mode
    refine ⟨h.wellFormed.remove i, Tokens.length_edit h.length (.remove i), ?_, ?_⟩
    · intro j hpending
      cases mode.symm.trans (h.pending j hpending).1
    · intro j last hdrag
      cases mode.symm.trans (h.drag j last hdrag).1
  | deletesNothing hit mode none =>
    rw [Graph.remove_of_none none]
    exact h
  | cancels miss mode pending => exact ⟨h.wellFormed, h.length, by rintro _ ⟨⟩, h.drag⟩
  | pans miss idle => exact ⟨h.wellFormed, h.length, h.pending, by rintro _ _ ⟨⟩⟩

theorem dragTo (h : s.Sound) (screen : Vec2 S) : (s.perform (.gesture (.dragTo screen))).Sound := by
  obtain ⟨c, g, hdragTo⟩ : ∃ c g, s.canvas.dragTo s.graph screen = (c, g) := ⟨_, _, rfl⟩
  rw [perform_eq (by rw [Gesture.perform, hdragTo])]
  unfold Canvas.dragTo at hdragTo
  split at hdragTo
  · cases hdragTo
    exact h
  · next i last hdrag =>
    split at hdragTo
    · cases hdragTo
      refine ⟨h.wellFormed, h.length.trans (Graph.size_modify ..).symm, h.pending, ?_⟩
      rintro _ _ ⟨⟩
      exact h.drag i last hdrag
    · cases hdragTo
      exact ⟨h.wellFormed, h.length, h.pending, by rintro _ _ ⟨⟩⟩
  · cases hdragTo
    exact ⟨h.wellFormed, h.length, h.pending, by rintro _ _ ⟨⟩⟩

theorem edit (h : s.Sound) (e : Edit S) : (s.perform (.edit e)).Sound where
  wellFormed := h.wellFormed.edit e
  length := Tokens.length_edit h.length e
  pending i hpending := by
    obtain ⟨hmode, n, hn, hat⟩ := h.pending i hpending
    exact ⟨hmode, n.after e, by rw [perform, hn]; rfl, hat.edit h.wellFormed e⟩
  drag i last hdrag := by
    obtain ⟨hmode, n, hn, hat⟩ := h.drag i last hdrag
    exact ⟨hmode, n.after e, by rw [perform, hn]; rfl, hat.edit h.wellFormed e⟩

theorem perform (h : s.Sound) (m : Move S) : (s.perform m).Sound := by
  cases m with
  | edit e => exact h.edit e
  | gesture x =>
    cases x with
    | press screen => exact h.press screen
    | dragTo screen => exact h.dragTo screen
    | setMode mode => exact ⟨h.wellFormed, h.length, by rintro _ ⟨⟩, by rintro _ _ ⟨⟩⟩
    | pressSecondary | release => exact ⟨h.wellFormed, h.length, h.pending, by rintro _ _ ⟨⟩⟩
    | scroll | zoomIn | zoomOut | resize | setZoom | zoomAt => exact ⟨h.wellFormed, h.length, h.pending, h.drag⟩

theorem performAll (h : s.Sound) (moves : List (Move S)) : (s.performAll moves).Sound := by
  induction moves generalizing s with
  | nil => exact h
  | cons m moves ih => exact ih (h.perform m)

end Sound

/-! ### Whom gestures reach -/

/-- Which nodes the next gesture reaches. -/
structure Reaches (s : Shared S) (x : Gesture S) : Prop where
  /-- a drag moves the node at the position that the canvas has kept, which is the grabbed one as long as it stays -/
  dragged : ∀ screen i last, x = .dragTo screen → s.canvas.drag = some (.node i last) → i < s.graph.size →
    (s.perform (.gesture x)).graph = s.graph.modify i (fun n =>
      { n with position := n.position + (screen - last).shrink s.canvas.viewport.zoom }) ∧
    (s.perform (.gesture x)).canvas.drag = some (.node i screen) ∧
    ∃ h, s.grabbed = some h ∧ (s.tokens.live[i]? = some h.token ↔ h.Stays i)
  /-- without a node there the drag ends -/
  dropped : ∀ screen i last, x = .dragTo screen → s.canvas.drag = some (.node i last) → s.graph.size ≤ i →
    (s.perform (.gesture x)).graph = s.graph ∧ (s.perform (.gesture x)).canvas.drag = none
  /-- a connection leads from the node at the position of the source, which is the selected one as long as it stays -/
  connected : ∀ source target, s.answer x = some (.connected source target) →
    (s.perform (.gesture x)).graph = s.graph.modify source (fun n => { n with targets := n.targets ++ [target] }) ∧
    s.canvas.pending = some source ∧
    ∃ h, s.selected = some h ∧ (s.tokens.live[source]? = some h.token ↔ h.Stays source)
  /-- without a node there nothing is connected -/
  cancelled : ∀ screen source target, x = .press screen → s.canvas.pending = some source → s.graph.size ≤ source →
    s.canvas.nodeAt s.graph screen = some target →
    s.answer x = some .cancelled ∧ (s.perform (.gesture x)).graph = s.graph

theorem Sound.reaches (h : s.Sound) (x : Gesture S) : s.Reaches x where
  dragged := by
    rintro screen i last rfl hdrag hlt
    have hperform : (Gesture.dragTo screen).perform s.canvas s.graph =
        (none, { s.canvas with drag := some (.node i screen) }, s.graph.modify i fun n =>
          { n with position := n.position + (screen - last).shrink s.canvas.viewport.zoom }) := by
      simp only [Gesture.perform, Canvas.dragTo, hdrag, if_pos hlt]
    obtain ⟨-, n, hn, hat⟩ := h.drag i last hdrag
    rw [perform_eq hperform]
    exact ⟨rfl, rfl, n, hn, hat.iff⟩
  dropped := by
    rintro screen i last rfl hdrag hle
    have hperform : (Gesture.dragTo screen).perform s.canvas s.graph =
        (none, { s.canvas with drag := none }, s.graph) := by
      simp only [Gesture.perform, Canvas.dragTo, hdrag, if_neg (Nat.not_lt.2 hle)]
    rw [perform_eq hperform]
    exact ⟨rfl, rfl⟩
  connected := by
    intro source target hanswer
    obtain ⟨screen, c, g, rfl, hperform, hpressed⟩ := Gesture.exists_pressed hanswer (by simp)
    rw [perform_eq hperform]
    cases hpressed with
    | links hit mode pending ne new =>
      obtain ⟨-, n, hn, hat⟩ := h.pending source pending
      exact ⟨Graph.connect_of_true new, pending, n, hn, hat.iff⟩
  cancelled := by
    rintro screen source target rfl hpending hle hit
    have hmode := (h.pending source hpending).1
    have hlt := Canvas.lt_size_of_nodeAt hit
    have hne : source ≠ target := by omega
    have hconnect : s.graph.connect source target =
        (.error (.notFound ("node " ++ Graph.indexName source)), s.graph) := by
      have hnone : s.graph.nodes[source]? = none := List.getElem?_eq_none_iff.2 hle
      rw [Graph.connect, if_neg hne, if_neg (Nat.not_le.2 hlt), hnone]
    have hperform : (Gesture.press screen).perform s.canvas s.graph =
        (some .cancelled, { s.canvas with pending := none }, s.graph) := by
      simp [Gesture.perform, Canvas.press, Canvas.connectClick, hit, hmode, hpending, hne, hconnect]
    rw [perform_eq hperform, Shared.answer, hperform]
    exact ⟨rfl, rfl⟩

/-- Whatever a user and a host have done, gestures reach the nodes at the positions that the canvas has kept.  Those
are the nodes that were pressed, except after an edit that displaces them: the removal of the node at the position
or of one before it, or of all nodes.  Through all edits a token stands for the same node. -/
theorem held_until_displaced (size : Vec2 S) (settings : CanvasSettings S) (edit : Option (Node S → Node S))
    (g : Graph S) (moves : List (Move S)) :
    let s := (Shared.start { Canvas.make size settings with edit } g).performAll moves
    s.Sound ∧ (∀ x, s.Reaches x) ∧
      ∀ (e : Edit S) (k k' a : Nat), s.tokens.live[k]? = some a → (s.perform (.edit e)).tokens.live[k']? = some a →
        (s.perform (.edit e)).graph.unlinked[k']? = s.graph.unlinked[k]? := by
  intro s
  have hsound : s.Sound := (Sound.start rfl rfl g).performAll moves
  exact ⟨hsound, hsound.reaches, fun e _ _ _ => Tokens.node_edit hsound.wellFormed hsound.length e⟩

/-- Three nodes side by side. -/
def trio : Graph Float32 :=
  Session.pair.addTemplate "c" "Message" ⟨Float32.ofNat 1200, Float32.ofNat 0⟩

/-- Three nodes on a screen, after some gestures and edits. -/
def trioAfter (moves : List (Move Float32)) : Shared Float32 :=
  (Shared.start (.make ⟨Float32.ofNat 800, Float32.ofNat 600⟩ .default) trio).performAll moves

/-- Once the first node is removed, a drag of the second one moves the third one, and a connection from the second one
leads from the third one. -/
theorem held_lost_to_removal :
    let press : Gesture Float32 := .press ⟨Float32.ofNat 800, Float32.ofNat 350⟩
    let drag : Gesture Float32 := .dragTo ⟨Float32.ofNat 820, Float32.ofNat 360⟩
    let s := trioAfter [.gesture press, .edit (.remove 0)]
    let t := trioAfter [.gesture (.setMode .connect), .gesture press, .edit (.remove 0)]
    (s.grabbed.map (·.token) = some 1 ∧ s.tokens.live = [1, 2] ∧
      s.graph.nodes.map (·.position) =
        [⟨Float32.ofNat 600, Float32.ofNat 0⟩, ⟨Float32.ofNat 1200, Float32.ofNat 0⟩] ∧
      (s.perform (.gesture drag)).graph.nodes.map (·.position) =
        [⟨Float32.ofNat 600, Float32.ofNat 0⟩, ⟨Float32.ofNat 1240, Float32.ofNat 20⟩]) ∧
    t.selected.map (·.token) = some 1 ∧ t.tokens.live = [1, 2] ∧ t.graph.edges = [] ∧
      t.answer press = some (.connected 1 0) ∧ (t.perform (.gesture press)).graph.edges = [(1, 0)] := by
  exact ⟨by decide +kernel, by decide +kernel, by decide +kernel, by decide +kernel, rfl, by decide +kernel⟩

end Shared

end ScriptGraph
