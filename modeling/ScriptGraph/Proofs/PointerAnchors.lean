import Mathlib.Algebra.Order.Field.Rat
import Mathlib.Tactic.Ring
import ScriptGraph.Proofs.Construction
import ScriptGraph.Proofs.Gestures

/-!
# What stays under the pointer

Over the rational numbers, where nothing is rounded, the plane stays put under the pointer.  Zooming keeps the point
that is shown at its anchor (`Viewport.toWorld_zoomAt`), also when the zoom is clamped.  While something is dragged,
the place where the drag was last is the place of the pointer, so each motion moves the view or the node by as much
of the plane as the pointer passes (`Viewport.toWorld_add_shrink`).  `Pointing.Pans` and `Pointing.Carries` are the
invariants of the two kinds of drags; the second one says where the node is: at the point under the pointer, less
what they were apart when the drag began.
-/

namespace ScriptGraph

/-- Exact arithmetic. -/
instance : Scalar Rat where
  add := Rat.add
  sub := Rat.sub
  mul := Rat.mul
  div := Rat.div
  neg := Rat.neg
  ofNat n := Rat.ofInt n
  le x y := decide (x ≤ y)
  lt x y := decide (x < y)
  isFinite _ := true

namespace Vec2

private theorem ext_coords {a b : Vec2 Rat} (hx : a.x = b.x) (hy : a.y = b.y) : a = b := by
  cases a
  cases b
  exact congrArg₂ mk hx hy

private theorem sub_add_comm (a b d : Vec2 Rat) : a - b + d = a + d - b := by
  have hcoord (x y z : Rat) : x - y + z = x + z - y := by ring
  exact ext_coords (hcoord ..) (hcoord ..)

private theorem sub_sub_self (a b : Vec2 Rat) : a - (a - b) = b := by
  have hcoord (x y : Rat) : x - (x - y) = y := by ring
  exact ext_coords (hcoord ..) (hcoord ..)

end Vec2

/-! ### The view -/

namespace Viewport

/-- The zoom is positive and has a range of positive numbers. -/
structure IsProper (v : Viewport Rat) : Prop where
  zoom : 0 < v.zoom
  minZoom : 0 < v.minZoom
  bounds : v.minZoom ≤ v.maxZoom

variable {v v' : Viewport Rat}

theorem IsProper.setZoom (h : v.IsProper) (zoom : Rat) : 0 < (v.setZoom zoom).zoom := by
  change 0 < clamp zoom v.minZoom v.maxZoom
  rw [clamp]
  split
  · exact h.minZoom
  · next hlow =>
    split
    · exact h.minZoom.trans_le h.bounds
    · have hle : v.minZoom ≤ zoom := by simpa [Scalar.lt] using hlow
      exact h.minZoom.trans_le hle

theorem IsProper.rezoomed (h : v.IsProper) (hv : v.Rezoomed v') : v'.IsProper := by
  refine ⟨?_, hv.minZoom ▸ h.minZoom, by rw [hv.minZoom, hv.maxZoom]; exact h.bounds⟩
  rcases hv.zoom with hsame | ⟨zoom, hset⟩
  · rw [hsame]
    exact h.zoom
  · rw [hset]
    exact h.setZoom zoom

theorem toWorld_toScreen (h : v.IsProper) (world : Vec2 Rat) : v.toWorld (v.toScreen world) = world := by
  have hcoord (x offset center : Rat) : ((x + offset) * v.zoom + center - center) / v.zoom - offset = x := by
    rw [add_sub_cancel_right, mul_div_cancel_right₀ _ h.zoom.ne', add_sub_cancel_right]
  exact Vec2.ext_coords (hcoord ..) (hcoord ..)

theorem toScreen_toWorld (h : v.IsProper) (screen : Vec2 Rat) : v.toScreen (v.toWorld screen) = screen := by
  have hcoord (x offset center : Rat) : ((x - center) / v.zoom - offset + offset) * v.zoom + center = x := by
    rw [sub_add_cancel, div_mul_cancel₀ _ h.zoom.ne', sub_add_cancel]
  exact Vec2.ext_coords (hcoord ..) (hcoord ..)

/-- The anchor shows the same point, whatever becomes of the zoom. -/
theorem toWorld_zoomAt (v : Viewport Rat) (anchor : Vec2 Rat) (zoom : Rat) :
    (v.zoomAt anchor zoom).toWorld anchor = v.toWorld anchor := by
  have hcoord (x offset world : Rat) : x - (offset + (x - offset - world)) = world := by ring
  exact Vec2.ext_coords (hcoord ..) (hcoord ..)

/-- The part of the plane between two places on the screen. -/
theorem toWorld_add_shrink (v : Viewport Rat) (last screen : Vec2 Rat) :
    v.toWorld last + (screen - last).shrink v.zoom = v.toWorld screen := by
  have hcoord (x y offset center : Rat) :
      (x - center) / v.zoom - offset + (y - x) / v.zoom = (y - center) / v.zoom - offset := by ring
  exact Vec2.ext_coords (hcoord ..) (hcoord ..)

/-- The view moves with the pointer. -/
theorem toWorld_pan (v : Viewport Rat) (last screen : Vec2 Rat) :
    (v.pan (screen - last)).toWorld screen = v.toWorld last := by
  have hcoord (x y offset center : Rat) :
      (y - center) / v.zoom - (offset + (y - x) / v.zoom) = (x - center) / v.zoom - offset := by ring
  exact Vec2.ext_coords (hcoord ..) (hcoord ..)

end Viewport

/-! ### Motions while a button is down -/

/-- A node that is put somewhere. -/
def Node.placed {S : Type} (n : Node S) (position : Vec2 S) : Node S := { n with position }

/-- The pointer moves, or scrolls where it is. -/
inductive Motion (S : Type) where
  | drag (screen : Vec2 S)
  | scroll (amount : S)

/-- The gesture of a motion. -/
def Motion.gesture {S : Type} (pointer : Vec2 S) : Motion S → Gesture S
  | drag screen => .dragTo screen
  | scroll amount => .scroll pointer amount

/-- A canvas with a graph on it, and where the pointer is. -/
structure Pointing (S : Type) where
  canvas : Canvas S
  graph : Graph S
  pointer : Vec2 S

namespace Pointing

section

variable {S : Type} [Scalar S]

/-- The point of the plane under the pointer. -/
def world (s : Pointing S) : Vec2 S := s.canvas.viewport.toWorld s.pointer

/-- Makes a motion. -/
def move (s : Pointing S) (m : Motion S) : Pointing S where
  canvas := ((m.gesture s.pointer).perform s.canvas s.graph).2.1
  graph := ((m.gesture s.pointer).perform s.canvas s.graph).2.2
  pointer :=
    match m with
    | .drag screen => screen
    | .scroll _ => s.pointer

/-- Makes motions. -/
def moveAll (s : Pointing S) (ms : List (Motion S)) : Pointing S := ms.foldl move s

end

variable {s : Pointing Rat}

theorem isProper_move (h : s.canvas.viewport.IsProper) (m : Motion Rat) : (s.move m).canvas.viewport.IsProper :=
  h.rezoomed (Gesture.rezoomed_perform ..)

/-- The view is dragged. -/
structure Pans (s : Pointing Rat) : Prop where
  proper : s.canvas.viewport.IsProper
  drag : s.canvas.drag = some (.view s.pointer)

theorem Pans.move (h : s.Pans) (m : Motion Rat) :
    (s.move m).Pans ∧ (s.move m).world = s.world ∧ (s.move m).graph = s.graph := by
  have hproper := isProper_move h.proper m
  cases m with
  | scroll amount => exact ⟨⟨hproper, h.drag⟩, Viewport.toWorld_zoomAt .., rfl⟩
  | drag screen =>
    have hdrag : s.canvas.dragTo s.graph screen =
        ({ s.canvas with drag := some (.view screen), viewport := s.canvas.viewport.pan (screen - s.pointer) },
          s.graph) := by
      rw [Canvas.dragTo, h.drag]
    have hmove : s.move (.drag screen) =
        ⟨{ s.canvas with drag := some (.view screen), viewport := s.canvas.viewport.pan (screen - s.pointer) },
          s.graph, screen⟩ := by
      rw [Pointing.move, Motion.gesture, Gesture.perform, hdrag]
    rw [hmove] at hproper ⊢
    exact ⟨⟨hproper, rfl⟩, Viewport.toWorld_pan .., rfl⟩

theorem Pans.moveAll (h : s.Pans) (ms : List (Motion Rat)) :
    (s.moveAll ms).Pans ∧ (s.moveAll ms).world = s.world ∧ (s.moveAll ms).graph = s.graph := by
  induction ms generalizing s with
  | nil => exact ⟨h, rfl, rfl⟩
  | cons m ms ih =>
    obtain ⟨hstep, hworld, hgraph⟩ := h.move m
    obtain ⟨hrun, hworld', hgraph'⟩ := ih hstep
    exact ⟨hrun, hworld'.trans hworld, hgraph'.trans hgraph⟩

/-- A node is dragged: it stands at a distance from the point under the pointer, and the rest of the graph is as it
was. -/
structure Carries (g : Graph Rat) (i : Nat) (apart : Vec2 Rat) (s : Pointing Rat) : Prop where
  proper : s.canvas.viewport.IsProper
  drag : s.canvas.drag = some (.node i s.pointer)
  inside : i < g.size
  graph : s.graph = g.modify i (·.placed (s.world - apart))

theorem Carries.move {g : Graph Rat} {i : Nat} {apart : Vec2 Rat} (h : s.Carries g i apart) (m : Motion Rat) :
    (s.move m).Carries g i apart := by
  have hproper := isProper_move h.proper m
  cases m with
  | scroll amount =>
    have hworld : (s.move (.scroll amount)).world = s.world := Viewport.toWorld_zoomAt ..
    refine ⟨hproper, h.drag, h.inside, ?_⟩
    rw [hworld]
    exact h.graph
  | drag screen =>
    have hinside : i < s.graph.size := by
      rw [h.graph, Graph.size_modify]
      exact h.inside
    have hmove : s.move (.drag screen) = ⟨{ s.canvas with drag := some (.node i screen) },
        s.graph.modify i fun n =>
          n.placed (n.position + (screen - s.pointer).shrink s.canvas.viewport.zoom), screen⟩ := by
      rw [Pointing.move, Motion.gesture, Gesture.perform, Canvas.dragTo, h.drag]
      dsimp only
      rw [if_pos hinside]
      rfl
    -- the node goes as far as the point under the pointer
    have hposition : s.world - apart + (screen - s.pointer).shrink s.canvas.viewport.zoom =
        s.canvas.viewport.toWorld screen - apart := by
      rw [Vec2.sub_add_comm, world, Viewport.toWorld_add_shrink]
    rw [hmove] at hproper ⊢
    refine ⟨hproper, rfl, h.inside, ?_⟩
    calc s.graph.modify i (fun n => n.placed (n.position + (screen - s.pointer).shrink s.canvas.viewport.zoom))
        = (g.modify i (·.placed (s.world - apart))).modify i
            (fun n => n.placed (n.position + (screen - s.pointer).shrink s.canvas.viewport.zoom)) := by rw [h.graph]
      _ = g.modify i (fun n =>
            n.placed (s.world - apart + (screen - s.pointer).shrink s.canvas.viewport.zoom)) :=
          congrArg Graph.mk (List.modify_modify_eq ..)
      _ = g.modify i (·.placed (s.canvas.viewport.toWorld screen - apart)) := by rw [hposition]

theorem Carries.moveAll {g : Graph Rat} {i : Nat} {apart : Vec2 Rat} (h : s.Carries g i apart)
    (ms : List (Motion Rat)) : (s.moveAll ms).Carries g i apart := by
  induction ms generalizing s with
  | nil => exact h
  | cons m ms ih => exact ih (h.move m)

end Pointing

/-! ### Canvases -/

theorem Gesture.isProper_performAll {c : Canvas Rat} (h : c.viewport.IsProper)
    (gestures : List (Gesture Rat × Graph Rat)) : (Gesture.performAll c gestures).viewport.IsProper := by
  induction gestures generalizing c with
  | nil => exact h
  | cons x gestures ih => exact ih (h.rezoomed (x.1.rezoomed_perform c x.2))

namespace Canvas

variable {c : Canvas Rat}

theorem toWorld_scrolls (c : Canvas Rat) (pointer : Vec2 Rat) (amounts : List Rat) :
    (amounts.foldl (·.scroll pointer) c).viewport.toWorld pointer = c.viewport.toWorld pointer := by
  induction amounts generalizing c with
  | nil => rfl
  | cons amount amounts ih => exact (ih (c.scroll pointer amount)).trans (Viewport.toWorld_zoomAt ..)

/-- Zooms with the buttons, in or out. -/
def zoomSteps {S : Type} [Scalar S] (c : Canvas S) (inwards : List Bool) : Canvas S :=
  inwards.foldl (fun c inward => if inward then c.zoomIn else c.zoomOut) c

theorem toWorld_zoomSteps (c : Canvas Rat) (inwards : List Bool) :
    (c.zoomSteps inwards).viewport.center = c.viewport.center ∧
      (c.zoomSteps inwards).viewport.toWorld c.viewport.center = c.viewport.toWorld c.viewport.center := by
  induction inwards generalizing c with
  | nil => exact ⟨rfl, rfl⟩
  | cons inward inwards ih =>
    have hstep : (if inward then c.zoomIn else c.zoomOut).viewport.center = c.viewport.center ∧
        (if inward then c.zoomIn else c.zoomOut).viewport.toWorld c.viewport.center =
          c.viewport.toWorld c.viewport.center := by
      split
      · exact ⟨rfl, Viewport.toWorld_zoomAt ..⟩
      · exact ⟨rfl, Viewport.toWorld_zoomAt ..⟩
    obtain ⟨hcenter, hworld⟩ := ih (if inward then c.zoomIn else c.zoomOut)
    rw [hstep.1] at hcenter hworld
    exact ⟨hcenter, hworld.trans hstep.2⟩

/-- What stays under the pointer, or in the middle of the screen. -/
structure Anchored (c : Canvas Rat) (g : Graph Rat) : Prop where
  /-- no gesture makes a zoom by which nothing can be divided -/
  proper : ∀ gestures, (Gesture.performAll c gestures).viewport.IsProper
  inverse : ∀ p, c.viewport.toWorld (c.viewport.toScreen p) = p ∧ c.viewport.toScreen (c.viewport.toWorld p) = p
  scroll : ∀ (pointer : Vec2 Rat) (amounts : List Rat),
    (amounts.foldl (·.scroll pointer) c).viewport.toWorld pointer = c.viewport.toWorld pointer
  zoom : ∀ inwards, (c.zoomSteps inwards).viewport.toWorld (c.zoomSteps inwards).viewport.center =
    c.viewport.toWorld c.viewport.center
  pan : ∀ pointer, c.drag = some (.view pointer) → ∀ ms,
    (Pointing.moveAll ⟨c, g, pointer⟩ ms).world = c.viewport.toWorld pointer ∧
      (Pointing.moveAll ⟨c, g, pointer⟩ ms).graph = g
  carry : ∀ pointer i n, c.drag = some (.node i pointer) → g.node? i = some n → ∀ ms,
    ∃ n', (Pointing.moveAll ⟨c, g, pointer⟩ ms).graph.node? i = some n' ∧
      (Pointing.moveAll ⟨c, g, pointer⟩ ms).world - n'.position = c.viewport.toWorld pointer - n.position
  /-- the way does not matter, only its end -/
  place : ∀ pointer i n, c.drag = some (.node i pointer) → g.node? i = some n → ∀ ms,
    (Pointing.moveAll ⟨c, g, pointer⟩ ms).graph = g.modify i (·.placed
      ((Pointing.moveAll ⟨c, g, pointer⟩ ms).world - (c.viewport.toWorld pointer - n.position)))

/-- When a drag of a node begins, the node is as far from the point under the pointer as it is. -/
private theorem carries_of_drag (h : c.viewport.IsProper) {g : Graph Rat} {pointer : Vec2 Rat} {i : Nat}
    {n : Node Rat} (hdrag : c.drag = some (.node i pointer)) (hn : g.node? i = some n) :
    Pointing.Carries g i (c.viewport.toWorld pointer - n.position) ⟨c, g, pointer⟩ := by
  obtain ⟨hinside, -⟩ := List.getElem?_eq_some_iff.1 hn
  refine ⟨h, hdrag, hinside, (Graph.modify_eq_self ?_).symm⟩
  intro m hm
  obtain rfl : n = m := Option.some.inj (hn.symm.trans hm)
  rw [Pointing.world, Vec2.sub_sub_self]
  rfl

/-- Whatever the zoom is, the pointer stays over the same point of the plane while it scrolls or moves the view, and
buttons keep the middle of the screen.  A node that is dragged stays where it is below the pointer. -/
theorem stays_under_pointer (h : c.viewport.IsProper) (g : Graph Rat) : c.Anchored g where
  proper := Gesture.isProper_performAll h
  inverse p := ⟨Viewport.toWorld_toScreen h p, Viewport.toScreen_toWorld h p⟩
  scroll := toWorld_scrolls c
  zoom inwards := by
    obtain ⟨hcenter, hworld⟩ := toWorld_zoomSteps c inwards
    rw [hcenter, hworld]
  pan pointer hdrag ms := by
    have hpans : Pointing.Pans ⟨c, g, pointer⟩ := ⟨h, hdrag⟩
    exact (hpans.moveAll ms).2
  carry pointer i n hdrag hn ms := by
    have hcarries := (carries_of_drag h hdrag hn).moveAll ms
    refine ⟨n.placed _, ?_, Vec2.sub_sub_self ..⟩
    have hnode : g.nodes[i]? = some n := hn
    rw [hcarries.graph, Graph.node?, Graph.modify, List.getElem?_modify, hnode]
    simp
  place pointer i n hdrag hn ms := ((carries_of_drag h hdrag hn).moveAll ms).graph

/-- A screen on which a node is dragged. -/
def held : Canvas Rat where
  viewport := ⟨⟨0, 0⟩, ⟨800, 600⟩, 1 / 2, 1 / 5, 3⟩
  mode := .move
  hitMargin := 20
  zoomStep := 3 / 20
  buttonZoomStep := 1 / 5
  drag := some (.node 0 ⟨410, 310⟩)
  pending := none
  edit := none

/-- The node. -/
def heldNode : Graph Rat := Graph.empty.add (.make "a" .action "Wait" ⟨0, 0⟩ .gray)

theorem stays_under_pointer_held : held.viewport.IsProper ∧ held.Anchored heldNode := by
  have hproper : held.viewport.IsProper := by constructor <;> decide +kernel
  exact ⟨hproper, stays_under_pointer hproper heldNode⟩

/-- With the zoom as far out as its range goes, ten steps on the screen are fifty on the plane. -/
example : (Pointing.moveAll ⟨held, heldNode, ⟨410, 310⟩⟩ [.scroll 5, .drag ⟨420, 310⟩]).graph.nodes.map (·.position) =
    [⟨50, 0⟩] := by decide +kernel

end Canvas

end ScriptGraph
