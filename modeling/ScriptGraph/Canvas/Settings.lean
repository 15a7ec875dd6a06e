import ScriptGraph.Decimal

/-!
# Settings of a canvas
-/

namespace ScriptGraph

/-- How a canvas zooms, and what it counts as a hit. -/
structure CanvasSettings (S : Type) where
  minZoom : S
  maxZoom : S
  initialZoom : S
  /-- change of the zoom for one unit of scrolling -/
  zoomStep : S
  /-- change of the zoom for one press of a button -/
  buttonZoomStep : S
  /-- distance from a node that still counts as a hit -/
  hitMargin : S

namespace CanvasSettings

private def hundredths (n : Nat) : Float32 := singleOfLiteral (.finite false n (-2))

/-- The usual settings. -/
def default : CanvasSettings Float32 :=
  ⟨hundredths 20, hundredths 300, hundredths 50, hundredths 15, hundredths 20, hundredths 2000⟩

/-- Whether the bounds of the zoom are positive and in order. -/
def isValid (c : CanvasSettings Float32) : Bool :=
  Float32.ofNat 0 < c.minZoom && c.minZoom ≤ c.maxZoom

end CanvasSettings

end ScriptGraph
