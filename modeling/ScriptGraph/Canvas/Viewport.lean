import ScriptGraph.Canvas.Settings
import ScriptGraph.Geometry

/-!
# Viewports

The view of a plane on a screen. A point `p` of the plane is shown at `(p + offset) * zoom + size / 2`, so the
middle of the screen shows the point `-offset`.
-/

namespace ScriptGraph

/-- A view of the plane. -/
structure Viewport (S : Type) where
  offset : Vec2 S
  size : Vec2 S
  zoom : S
  minZoom : S
  maxZoom : S

namespace Viewport

variable {S : Type} [Scalar S]

/-- The nearest number between two bounds. -/
def clamp (x low high : S) : S :=
  if Scalar.lt x low then low else if Scalar.lt high x then high else x

/-- Sets the zoom as near as the bounds allow. What is not a finite number changes nothing. -/
def setZoom (v : Viewport S) (zoom : S) : Viewport S :=
  if Scalar.isFinite zoom then { v with zoom := clamp zoom v.minZoom v.maxZoom } else v

/-- The first view on a screen. -/
def make (size : Vec2 S) (c : CanvasSettings S) : Viewport S :=
  setZoom ⟨.zero, size, Scalar.ofNat 1, c.minZoom, c.maxZoom⟩ c.initialZoom

/-- The middle of the screen. -/
def center (v : Viewport S) : Vec2 S := v.size.half

/-- The place on the screen where a point of the plane is shown. -/
def toScreen (v : Viewport S) (world : Vec2 S) : Vec2 S :=
  (world + v.offset).scale v.zoom + v.center

/-- The point of the plane that is shown at a place on the screen. -/
def toWorld (v : Viewport S) (screen : Vec2 S) : Vec2 S :=
  (screen - v.center).shrink v.zoom - v.offset

/-- Sets the zoom and keeps the point that is shown at a place. -/
def zoomAt (v : Viewport S) (anchor : Vec2 S) (zoom : S) : Viewport S :=
  let zoomed := v.setZoom zoom
  { zoomed with offset := zoomed.offset + (zoomed.toWorld anchor - v.toWorld anchor) }

/-- Moves the view by a distance on the screen. -/
def pan (v : Viewport S) (delta : Vec2 S) : Viewport S :=
  { v with offset := v.offset + delta.shrink v.zoom }

/-- The corners of the part of the plane that is shown. -/
def visible (v : Viewport S) : Vec2 S × Vec2 S :=
  (v.toWorld .zero, v.toWorld v.size)

end Viewport

end ScriptGraph
