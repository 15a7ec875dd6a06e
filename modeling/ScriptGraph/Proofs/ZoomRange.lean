import ScriptGraph.Config
import ScriptGraph.Proofs.FloatOrder
import ScriptGraph.Proofs.Gestures

/-!
# The range of the zoom

A configuration is accepted if the bounds of the zoom are positive and in order, so limiting a number to them never
fails.  A finite number that is limited to them lies between them (`Viewport.le_clamp`, `Viewport.clamp_le`), and all
gestures set the zoom in this way.  The first zoom is set in this way too, unless it is no finite number: then the
view keeps the zoom of one that it had before.  So the zoom stays in the range exactly if the lower bound is finite
and the first zoom is either finite or none that matters, because one is in the range (`Canvas.zoom_in_range_iff`).

Of single precision only the comparison of unpacked numbers is used: it is total apart from what is no number, and
a number between finite ones is finite.
-/

namespace ScriptGraph

open Float.Model (UnpackedFloat)

/-! ### Comparing numbers of single precision -/

private theorem infinite_le_eq_false {a : UnpackedFloat} (ha : a.isFinite = true) :
    (UnpackedFloat.infinity .positive).le a = false ∧ a.le (.infinity .negative) = false := by
  rcases a with _ | _ | _ | _
  · cases ha
  · cases ha
  · exact ⟨rfl, rfl⟩
  · exact ⟨rfl, rfl⟩

private theorem single_le_iff {x y : Float32} : x ≤ y ↔ x.toModel.unpack.le y.toModel.unpack = true :=
  decide_eq_true_iff

private theorem single_lt_iff {x y : Float32} : x < y ↔ x.toModel.unpack.compare y.toModel.unpack = some .lt := by
  refine decide_eq_true_iff.trans ?_
  change x.toModel.unpack.lt y.toModel.unpack = true ↔ _
  rw [UnpackedFloat.lt, beq_iff_eq]

/-- Whether this is a number at all. -/
private def IsNumber (x : Float32) : Prop := x.toModel.unpack ≠ .notANumber

private theorem isNumber_of_isFinite {x : Float32} (h : x.isFinite = true) : IsNumber x := by
  intro hx
  rw [Float32.isFinite, Float32.Model.isFinite, hx] at h
  cases h

private theorem isNumber_of_le {x y : Float32} (h : x ≤ y) : IsNumber x ∧ IsNumber y := by
  rw [single_le_iff, UnpackedFloat.le] at h
  constructor
  · intro hx
    rw [hx] at h
    cases h
  · intro hy
    rw [hy, compare_unpacked_swap] at h
    cases h

private theorem single_le_self {x : Float32} (hx : IsNumber x) : x ≤ x := by
  rw [single_le_iff, UnpackedFloat.le, compare_unpacked_self hx]
  rfl

/-- Of two numbers, one is at most as large as the other. -/
private theorem single_le_of_not_lt {x y : Float32} (hx : IsNumber x) (hy : IsNumber y) (h : ¬ x < y) : y ≤ x := by
  obtain ⟨o, ho⟩ := exists_compare_unpacked hx hy
  rw [single_lt_iff, ho] at h
  rw [single_le_iff, UnpackedFloat.le, compare_unpacked_swap, ho]
  cases o with
  | lt => exact absurd rfl h
  | eq | gt => rfl

private theorem single_le_of_lt {x y : Float32} (h : x < y) : x ≤ y := by
  rw [single_le_iff, UnpackedFloat.le, single_lt_iff.1 h]
  rfl

/-- What lies between finite numbers is finite. -/
private theorem isFinite_of_between {x y z : Float32} (hx : x.isFinite = true) (hz : z.isFinite = true) (hxy : x ≤ y)
    (hyz : y ≤ z) : y.isFinite = true := by
  rw [single_le_iff] at hxy hyz
  change y.toModel.unpack.isFinite = true
  cases hy : y.toModel.unpack with
  | notANumber => exact absurd hy (isNumber_of_le (single_le_iff.2 hxy)).2
  | infinity sign =>
    cases sign with
    | positive =>
      rw [hy, (infinite_le_eq_false hz).1] at hyz
      cases hyz
    | negative =>
      rw [hy, (infinite_le_eq_false hx).2] at hxy
      cases hxy
  | zero | finite => rfl

/-! ### Limiting the zoom -/

namespace Viewport

/-- Limiting a number to two bounds, which fails unless the bounds are in order. -/
def clamp? (x low high : Float32) : Option Float32 :=
  if low ≤ high then some (clamp x low high) else none

/-- Setting the zoom, which fails if the zoom cannot be limited. -/
def setZoom? (v : Viewport Float32) (zoom : Float32) : Option (Viewport Float32) :=
  if zoom.isFinite then (clamp? zoom v.minZoom v.maxZoom).map fun zoom => { v with zoom } else some v

variable {x low high : Float32}

theorem le_clamp (hbounds : low ≤ high) (hx : x.isFinite = true) : low ≤ clamp x low high := by
  have hlow : IsNumber low := (isNumber_of_le hbounds).1
  unfold clamp
  split
  · exact single_le_self hlow
  · next hlt =>
    split
    · exact hbounds
    · exact single_le_of_not_lt (isNumber_of_isFinite hx) hlow (by simpa [Scalar.lt] using hlt)

theorem clamp_le (hbounds : low ≤ high) (hx : x.isFinite = true) : clamp x low high ≤ high := by
  have hhigh : IsNumber high := (isNumber_of_le hbounds).2
  unfold clamp
  split
  · exact hbounds
  · split
    · exact single_le_self hhigh
    · next hlt => exact single_le_of_not_lt hhigh (isNumber_of_isFinite hx) (by simpa [Scalar.lt] using hlt)

theorem isFinite_clamp (hbounds : low ≤ high) (hlow : low.isFinite = true) (hx : x.isFinite = true) :
    (clamp x low high).isFinite = true := by
  unfold clamp
  split
  · exact hlow
  · split
    · next hlt => exact isFinite_of_between hlow hx hbounds (single_le_of_lt (by simpa [Scalar.lt] using hlt))
    · exact hx

theorem setZoom?_eq {v : Viewport Float32} (hbounds : v.minZoom ≤ v.maxZoom) (zoom : Float32) :
    v.setZoom? zoom = some (v.setZoom zoom) := by
  unfold setZoom? setZoom clamp?
  rw [if_pos hbounds]
  change (if zoom.isFinite = true then _ else _) = some (if zoom.isFinite = true then _ else _)
  split <;> rfl

/-- A zoom that is finite and in the range of its view. -/
structure InRange (v : Viewport Float32) : Prop where
  isFinite : v.zoom.isFinite = true
  minZoom_le : v.minZoom ≤ v.zoom
  le_maxZoom : v.zoom ≤ v.maxZoom

/-- A finite zoom that is set comes into the range. -/
theorem inRange_setZoom {v : Viewport Float32} (hbounds : v.minZoom ≤ v.maxZoom) (hlow : v.minZoom.isFinite = true)
    {zoom : Float32} (hzoom : zoom.isFinite = true) : (v.setZoom zoom).InRange := by
  have hset : v.setZoom zoom = { v with zoom := clamp zoom v.minZoom v.maxZoom } := if_pos hzoom
  rw [hset]
  exact ⟨isFinite_clamp hbounds hlow hzoom, le_clamp hbounds hzoom, clamp_le hbounds hzoom⟩

theorem setZoom_of_not_isFinite (v : Viewport Float32) {zoom : Float32} (hzoom : zoom.isFinite = false) :
    v.setZoom zoom = v :=
  if_neg (by simpa [Scalar.isFinite] using hzoom)

/-- In the range the zoom stays there, however it is set. -/
theorem InRange.rezoomed {v v' : Viewport Float32} (h : v.InRange) (hbounds : v.minZoom ≤ v.maxZoom)
    (hlow : v.minZoom.isFinite = true) (hv : v.Rezoomed v') : v'.InRange := by
  have hkeep {z : Float32} (hz : z.isFinite = true) (hle : v.minZoom ≤ z) (hge : z ≤ v.maxZoom)
      (hzoom : v'.zoom = z) :
      v'.InRange :=
    ⟨hzoom ▸ hz, by rwa [hv.minZoom, hzoom], by rwa [hv.maxZoom, hzoom]⟩
  rcases hv.zoom with hsame | ⟨zoom, hset⟩
  · exact hkeep h.isFinite h.minZoom_le h.le_maxZoom hsame
  · cases hzoom : zoom.isFinite with
    | false =>
      rw [setZoom_of_not_isFinite v hzoom] at hset
      exact hkeep h.isFinite h.minZoom_le h.le_maxZoom hset
    | true =>
      have hrange := inRange_setZoom hbounds hlow hzoom
      have hv' := v.rezoomed_setZoom zoom
      exact hkeep hrange.isFinite (hv'.minZoom ▸ hrange.minZoom_le) (hv'.maxZoom ▸ hrange.le_maxZoom) hset

end Viewport

/-! ### Gestures -/

/-- No gesture changes the bounds of the zoom. -/
theorem Gesture.bounds_performAll (c : Canvas Float32) (gestures : List (Gesture Float32 × Graph Float32)) :
    (performAll c gestures).viewport.minZoom = c.viewport.minZoom ∧
      (performAll c gestures).viewport.maxZoom = c.viewport.maxZoom := by
  induction gestures generalizing c with
  | nil => exact ⟨rfl, rfl⟩
  | cons p gestures ih =>
    have hstep := p.1.rezoomed_perform c p.2
    obtain ⟨hlow, hhigh⟩ := ih (p.1.perform c p.2).2.1
    exact ⟨hlow.trans hstep.minZoom, hhigh.trans hstep.maxZoom⟩

theorem Gesture.inRange_performAll {c : Canvas Float32} (h : c.viewport.InRange)
    (hbounds : c.viewport.minZoom ≤ c.viewport.maxZoom) (hlow : c.viewport.minZoom.isFinite = true)
    (gestures : List (Gesture Float32 × Graph Float32)) : (performAll c gestures).viewport.InRange := by
  induction gestures generalizing c with
  | nil => exact h
  | cons p gestures ih =>
    have hstep := p.1.rezoomed_perform c p.2
    apply ih (h.rezoomed hbounds hlow hstep)
    · rw [hstep.minZoom, hstep.maxZoom]
      exact hbounds
    · rw [hstep.minZoom]
      exact hlow

/-! ### Configurations -/

/-- An accepted configuration has positive bounds that are in order. -/
theorem Config.bounds_of_load {text : String} {config : Config} (h : Config.load text = .ok config) :
    Float32.ofNat 0 < config.canvas.minZoom ∧ config.canvas.minZoom ≤ config.canvas.maxZoom := by
  have hvalid : config.canvas.isValid = true := by
    unfold Config.load at h
    split at h
    · unfold Config.validate at h
      split at h
      · cases h
      · next hvalid =>
        split at h
        · cases h
        · cases h
          simpa using hvalid
    · cases h
  simpa [CanvasSettings.isValid] using hvalid

namespace Canvas

private theorem isFinite_zero : (Float32.ofNat 0).isFinite = true := by decide +kernel

private theorem isFinite_one : (Float32.ofNat 1).isFinite = true := by decide +kernel

/-- With the bounds of an accepted configuration setting the zoom never fails, and these bounds never change.  From
the first view on, whatever the gestures and the graphs they are made on, the zoom is finite and in the range, just
if the lower bound is finite and the first zoom is finite or one is in the range. -/
theorem zoom_in_range_iff {text : String} {config : Config} (h : Config.load text = .ok config) (size : Vec2 Float32)
    (edit : Option (Node Float32 → Node Float32)) :
    let start : Canvas Float32 := { Canvas.make size config.canvas with edit }
    (∀ v : Viewport Float32, v.minZoom = config.canvas.minZoom → v.maxZoom = config.canvas.maxZoom →
      ∀ zoom, v.setZoom? zoom = some (v.setZoom zoom)) ∧
    (∀ gestures, (Gesture.performAll start gestures).viewport.minZoom = config.canvas.minZoom ∧
      (Gesture.performAll start gestures).viewport.maxZoom = config.canvas.maxZoom) ∧
    ((∀ gestures, (Gesture.performAll start gestures).viewport.InRange) ↔
      config.canvas.minZoom.isFinite = true ∧
        (config.canvas.initialZoom.isFinite = true ∨
          config.canvas.minZoom ≤ Float32.ofNat 1 ∧ Float32.ofNat 1 ≤ config.canvas.maxZoom)) := by
  intro start
  obtain ⟨hpositive, hbounds⟩ := Config.bounds_of_load h
  let bare : Viewport Float32 := ⟨.zero, size, Float32.ofNat 1, config.canvas.minZoom, config.canvas.maxZoom⟩
  have hview : start.viewport = bare.setZoom config.canvas.initialZoom := rfl
  have hstep : bare.Rezoomed start.viewport := hview ▸ bare.rezoomed_setZoom _
  have hminZoom : start.viewport.minZoom = config.canvas.minZoom := hstep.minZoom
  have hmaxZoom : start.viewport.maxZoom = config.canvas.maxZoom := hstep.maxZoom
  refine ⟨?_, ?_, ?_, ?_⟩
  · intro v hlow hhigh zoom
    exact Viewport.setZoom?_eq (by rwa [hlow, hhigh]) zoom
  · intro gestures
    obtain ⟨hlow, hhigh⟩ := Gesture.bounds_performAll start gestures
    exact ⟨hlow.trans hminZoom, hhigh.trans hmaxZoom⟩
  · intro hall
    have hstart : start.viewport.InRange := hall []
    have hle : config.canvas.minZoom ≤ start.viewport.zoom := hminZoom ▸ hstart.minZoom_le
    have hge : start.viewport.zoom ≤ config.canvas.maxZoom := hmaxZoom ▸ hstart.le_maxZoom
    refine ⟨isFinite_of_between isFinite_zero hstart.isFinite (single_le_of_lt hpositive) hle, ?_⟩
    cases hinitial : config.canvas.initialZoom.isFinite with
    | true => exact .inl rfl
    | false =>
      -- the view has the zoom that it had before
      rw [hview, Viewport.setZoom_of_not_isFinite bare hinitial] at hle hge
      exact .inr ⟨hle, hge⟩
  · rintro ⟨hlow, hinitial⟩ gestures
    have hstart : start.viewport.InRange := by
      cases hfinite : config.canvas.initialZoom.isFinite with
      | true => exact hview ▸ Viewport.inRange_setZoom (v := bare) hbounds hlow hfinite
      | false =>
        rw [hfinite] at hinitial
        obtain ⟨hle, hge⟩ := hinitial.resolve_left Bool.false_ne_true
        rw [hview, Viewport.setZoom_of_not_isFinite bare hfinite]
        exact ⟨isFinite_one, hle, hge⟩
    apply Gesture.inRange_performAll hstart
    · rw [hminZoom, hmaxZoom]
      exact hbounds
    · rw [hminZoom]
      exact hlow

/-- A first zoom that is not finite does no harm if one is in the range. -/
def endlessStart : String := "[canvas]\nmin_zoom = 0.5\ninitial_zoom = inf\n"

theorem zoom_in_range_endlessStart :
    ∃ config, Config.load endlessStart = .ok config ∧ ∀ gestures,
      (Gesture.performAll (Canvas.make ⟨Float32.ofNat 800, Float32.ofNat 600⟩ config.canvas)
        gestures).viewport.InRange := by
  have hfacts : ((Config.load endlessStart).toOption.map fun c => decide (c.canvas.minZoom.isFinite = true ∧
      c.canvas.minZoom ≤ Float32.ofNat 1 ∧ Float32.ofNat 1 ≤ c.canvas.maxZoom)) = some true := by
    decide +kernel
  cases hload : Config.load endlessStart with
  | error e =>
    rw [hload] at hfacts
    cases hfacts
  | ok config =>
    rw [hload] at hfacts
    obtain ⟨hlow, hone⟩ := of_decide_eq_true (Option.some.inj hfacts)
    exact ⟨config, rfl, (zoom_in_range_iff hload _ none).2.2.2 ⟨hlow, .inr hone⟩⟩

/-- A first zoom that is no number, where only one zoom is in the range. -/
def strayStart : String := "[canvas]\nmin_zoom = 2.0\nmax_zoom = 2.0\ninitial_zoom = nan\n"

/-- Such a view has a zoom below its lower bound. -/
theorem zoom_below_minimum :
    ∃ config, Config.load strayStart = .ok config ∧
      ¬ config.canvas.minZoom ≤ (Canvas.make ⟨Float32.ofNat 800, Float32.ofNat 600⟩ config.canvas).viewport.zoom := by
  have hfacts : ((Config.load strayStart).toOption.map fun c => decide (¬ c.canvas.minZoom ≤ (Canvas.make
      ⟨Float32.ofNat 800, Float32.ofNat 600⟩ c.canvas).viewport.zoom)) = some true := by
    decide +kernel
  cases hload : Config.load strayStart with
  | error e =>
    rw [hload] at hfacts
    cases hfacts
  | ok config =>
    rw [hload] at hfacts
    exact ⟨config, rfl, of_decide_eq_true (Option.some.inj hfacts)⟩

end Canvas

end ScriptGraph
