import ScriptGraph.Canvas.Controller

/-!
# Gestures

What a user can do to a canvas, as data: the handlers of the pointer, the choice of a mode, and the zoom of the view.
Each gesture is made on some graph, which only a press or a drag may change.  `Canvas.Pressed` says once what a press
can do.  The zoom changes only in the way of `Viewport.setZoom` (`Gesture.rezoomed_perform`).
-/

namespace ScriptGraph

variable {S : Type}

/-- A gesture on a canvas. -/
inductive Gesture (S : Type) where
  | setMode (mode : Mode)
  | press (screen : Vec2 S)
  | pressSecondary (screen : Vec2 S)
  | dragTo (screen : Vec2 S)
  | release
  | scroll (screen : Vec2 S) (amount : S)
  | zoomIn
  | zoomOut
  | resize (size : Vec2 S)
  | setZoom (zoom : S)
  | zoomAt (anchor : Vec2 S) (zoom : S)

/-- What a press of the primary button does: its answer, and the canvas and the graph after it. -/
inductive Canvas.Pressed [Scalar S] (c : Canvas S) (g : Graph S) (screen : Vec2 S) :
    Outcome S → Canvas S → Graph S → Prop
  | grabs {i : Nat} (hit : c.nodeAt g screen = some i) (mode : c.mode = .move) :
    Pressed c g screen (.dragStarted i) { c with drag := some (.node i screen) } g
  | inspects {i : Nat} (hit : c.nodeAt g screen = some i) (mode : c.mode = .inspect) (edit : c.edit = none) :
    Pressed c g screen (.inspected i) c g
  | edits {i : Nat} {f : Node S → Node S} (hit : c.nodeAt g screen = some i) (mode : c.mode = .inspect)
      (edit : c.edit = some f) :
    Pressed c g screen (.inspected i) c (g.modify i f)
  | selects {i : Nat} (hit : c.nodeAt g screen = some i) (mode : c.mode = .connect) (pending : c.pending = none) :
    Pressed c g screen (.sourceSelected i) { c with pending := some i } g
  | rejects {i : Nat} (hit : c.nodeAt g screen = some i) (mode : c.mode = .connect) (pending : c.pending = some i) :
    Pressed c g screen (.rejected i) c g
  | links {source i : Nat} (hit : c.nodeAt g screen = some i) (mode : c.mode = .connect)
      (pending : c.pending = some source) (ne : source ≠ i) (new : (g.connect source i).1 = .ok true) :
    Pressed c g screen (.connected source i) { c with pending := none } (g.connect source i).2
  | finds {source i : Nat} (hit : c.nodeAt g screen = some i) (mode : c.mode = .connect)
      (pending : c.pending = some source) (ne : source ≠ i) (old : (g.connect source i).1 = .ok false) :
    Pressed c g screen (.alreadyConnected source i) { c with pending := none } (g.connect source i).2
  | fails {source i : Nat} {e : ScriptError} (hit : c.nodeAt g screen = some i) (mode : c.mode = .connect)
      (pending : c.pending = some source) (ne : source ≠ i) (error : (g.connect source i).1 = .error e) :
    Pressed c g screen .cancelled { c with pending := none } (g.connect source i).2
  | deletes {i : Nat} {n : Node S} (hit : c.nodeAt g screen = some i) (mode : c.mode = .delete)
      (gone : (g.remove i).1 = some n) :
    Pressed c g screen (.deleted n) c (g.remove i).2
  | deletesNothing {i : Nat} (hit : c.nodeAt g screen = some i) (mode : c.mode = .delete)
      (none : (g.remove i).1 = none) :
    Pressed c g screen .nothing c (g.remove i).2
  | cancels (miss : c.nodeAt g screen = none) (mode : c.mode = .connect) (pending : c.pending ≠ none) :
    Pressed c g screen .cancelled { c with pending := none } g
  | pans (miss : c.nodeAt g screen = none) (idle : c.mode = .connect → c.pending = none) :
    Pressed c g screen .panning { c with drag := some (.view screen) } g

namespace Canvas

variable [Scalar S]

/-- A press on a node while connecting. -/
private theorem pressed_connectClick {c : Canvas S} {g : Graph S} {screen : Vec2 S} {i : Nat}
    (hit : c.nodeAt g screen = some i) (mode : c.mode = .connect) :
    c.Pressed g screen (c.connectClick g i).1 (c.connectClick g i).2.1 (c.connectClick g i).2.2 := by
  cases hpending : c.pending with
  | none =>
    have hclick : c.connectClick g i = (.sourceSelected i, { c with pending := some i }, g) := by
      simp [connectClick, hpending]
    rw [hclick]
    exact .selects hit mode hpending
  | some source =>
    by_cases hne : source = i
    · have hclick : c.connectClick g i = (.rejected i, c, g) := by simp [connectClick, hpending, hne]
      rw [hclick]
      exact .rejects hit mode (hne ▸ hpending)
    · obtain ⟨answer, g', hconnect⟩ : ∃ answer g', g.connect source i = (answer, g') := ⟨_, _, rfl⟩
      have hg : g' = (g.connect source i).2 := by rw [hconnect]
      have hanswer : (g.connect source i).1 = answer := by rw [hconnect]
      rcases answer with e | new
      · have hclick : c.connectClick g i = (.cancelled, { c with pending := none }, g') := by
          simp [connectClick, hpending, hne, hconnect]
        rw [hclick, hg]
        exact .fails hit mode hpending hne hanswer
      · cases new with
        | true =>
          have hclick : c.connectClick g i = (.connected source i, { c with pending := none }, g') := by
            simp [connectClick, hpending, hne, hconnect]
          rw [hclick, hg]
          exact .links hit mode hpending hne hanswer
        | false =>
          have hclick : c.connectClick g i = (.alreadyConnected source i, { c with pending := none }, g') := by
            simp [connectClick, hpending, hne, hconnect]
          rw [hclick, hg]
          exact .finds hit mode hpending hne hanswer

/-- A press on a node. -/
private theorem pressed_of_hit {c : Canvas S} {g : Graph S} {screen : Vec2 S} {i : Nat}
    (hit : c.nodeAt g screen = some i) :
    c.Pressed g screen (c.press g screen).1 (c.press g screen).2.1 (c.press g screen).2.2 := by
  cases hmode : c.mode with
  | move =>
    have hpress : c.press g screen = (.dragStarted i, { c with drag := some (.node i screen) }, g) := by
      simp [press, hit, hmode]
    rw [hpress]
    exact .grabs hit hmode
  | inspect =>
    cases hedit : c.edit with
    | none =>
      have hpress : c.press g screen = (.inspected i, c, g) := by simp [press, hit, hmode, hedit]
      rw [hpress]
      exact .inspects hit hmode hedit
    | some edit =>
      have hpress : c.press g screen = (.inspected i, c, g.modify i edit) := by simp [press, hit, hmode, hedit]
      rw [hpress]
      exact .edits hit hmode hedit
  | connect =>
    have hpress : c.press g screen = c.connectClick g i := by simp [press, hit, hmode]
    rw [hpress]
    exact pressed_connectClick hit hmode
  | delete =>
    obtain ⟨gone, g', hremove⟩ : ∃ gone g', g.remove i = (gone, g') := ⟨_, _, rfl⟩
    have hg : g' = (g.remove i).2 := by rw [hremove]
    have hgone : (g.remove i).1 = gone := by rw [hremove]
    cases gone with
    | none =>
      have hpress : c.press g screen = (.nothing, c, g') := by simp [press, hit, hmode, hremove]
      rw [hpress, hg]
      exact .deletesNothing hit hmode hgone
    | some n =>
      have hpress : c.press g screen = (.deleted n, c, g') := by simp [press, hit, hmode, hremove]
      rw [hpress, hg]
      exact .deletes hit hmode hgone

/-- A press beside all nodes. -/
private theorem pressed_of_miss {c : Canvas S} {g : Graph S} {screen : Vec2 S} (miss : c.nodeAt g screen = none) :
    c.Pressed g screen (c.press g screen).1 (c.press g screen).2.1 (c.press g screen).2.2 := by
  by_cases hidle : c.mode = .connect → c.pending = none
  · have hpress : c.press g screen = (.panning, { c with drag := some (.view screen) }, g) := by
      cases hmode : c.mode <;> simp [press, beginPan, miss, hmode]
      simp [hidle hmode]
    rw [hpress]
    exact .pans miss hidle
  · obtain ⟨hmode, hpending⟩ := Classical.not_imp.1 hidle
    obtain ⟨source, hsource⟩ := Option.ne_none_iff_exists'.1 hpending
    have hpress : c.press g screen = (.cancelled, { c with pending := none }, g) := by
      simp [press, miss, hmode, hsource]
    rw [hpress]
    exact .cancels miss hmode hpending

theorem pressed {c : Canvas S} {g : Graph S} {screen : Vec2 S} {answer : Outcome S} {c' : Canvas S} {g' : Graph S}
    (h : c.press g screen = (answer, c', g')) : c.Pressed g screen answer c' g' := by
  have hpressed : c.Pressed g screen (c.press g screen).1 (c.press g screen).2.1 (c.press g screen).2.2 := by
    cases hit : c.nodeAt g screen with
    | none => exact pressed_of_miss hit
    | some i => exact pressed_of_hit hit
  rwa [h] at hpressed

end Canvas

namespace Gesture

variable [Scalar S]

/-- Makes a gesture.  Presses have an answer. -/
def perform (x : Gesture S) (c : Canvas S) (g : Graph S) : Option (Outcome S) × Canvas S × Graph S :=
  match x with
  | setMode mode => (none, c.setMode mode, g)
  | press screen => (some (c.press g screen).1, (c.press g screen).2)
  | pressSecondary screen => (some (c.pressSecondary g screen).1, (c.pressSecondary g screen).2)
  | dragTo screen => (none, c.dragTo g screen)
  | release => (none, c.release, g)
  | scroll screen amount => (none, c.scroll screen amount, g)
  | zoomIn => (none, c.zoomIn, g)
  | zoomOut => (none, c.zoomOut, g)
  | resize size => (none, c.resize size, g)
  | setZoom zoom => (none, { c with viewport := c.viewport.setZoom zoom }, g)
  | zoomAt anchor zoom => (none, { c with viewport := c.viewport.zoomAt anchor zoom }, g)

/-- A canvas after some gestures, each made on some graph. -/
def performAll (c : Canvas S) (gestures : List (Gesture S × Graph S)) : Canvas S :=
  gestures.foldl (fun c (x, g) => (x.perform c g).2.1) c

/-- What a press may do. -/
theorem exists_perform_press (screen : Vec2 S) (c : Canvas S) (g : Graph S) : ∃ answer c' g',
    (press screen).perform c g = (some answer, c', g') ∧ c.Pressed g screen answer c' g' := by
  obtain ⟨answer, c', g', hpress⟩ : ∃ answer c' g', c.press g screen = (answer, c', g') := ⟨_, _, _, rfl⟩
  exact ⟨answer, c', g', by rw [perform, hpress], Canvas.pressed hpress⟩

/-- Only presses have answers, apart from the one that the view is moved. -/
theorem exists_pressed {x : Gesture S} {c : Canvas S} {g : Graph S} {answer : Outcome S}
    (h : (x.perform c g).1 = some answer) (hne : answer ≠ .panning) : ∃ screen c' g', x = .press screen ∧
      x.perform c g = (some answer, c', g') ∧ c.Pressed g screen answer c' g' := by
  cases x with
  | press screen =>
    obtain ⟨answer', c', g', hperform, hpressed⟩ := exists_perform_press screen c g
    rw [hperform] at h
    cases h
    exact ⟨screen, c', g', rfl, hperform, hpressed⟩
  | pressSecondary screen => exact absurd (Option.some.inj h).symm hne
  | _ => cases h

end Gesture

/-! ### The view -/

namespace Viewport

variable [Scalar S]

/-- A view with the same bounds, and with the same zoom or one that was set. -/
structure Rezoomed (v v' : Viewport S) : Prop where
  minZoom : v'.minZoom = v.minZoom
  maxZoom : v'.maxZoom = v.maxZoom
  zoom : v'.zoom = v.zoom ∨ ∃ zoom, v'.zoom = (v.setZoom zoom).zoom

theorem rezoomed_setZoom (v : Viewport S) (zoom : S) : v.Rezoomed (v.setZoom zoom) := by
  refine ⟨?_, ?_, .inr ⟨zoom, rfl⟩⟩ <;> unfold setZoom <;> split <;> rfl

theorem rezoomed_zoomAt (v : Viewport S) (anchor : Vec2 S) (zoom : S) : v.Rezoomed (v.zoomAt anchor zoom) :=
  ⟨(v.rezoomed_setZoom zoom).minZoom, (v.rezoomed_setZoom zoom).maxZoom, .inr ⟨zoom, rfl⟩⟩

end Viewport

/-- The zoom changes only by being set, and its bounds never change. -/
theorem Gesture.rezoomed_perform [Scalar S] (x : Gesture S) (c : Canvas S) (g : Graph S) :
    c.viewport.Rezoomed (x.perform c g).2.1.viewport := by
  have hsame {c' : Canvas S} (hview : c'.viewport = c.viewport) : c.viewport.Rezoomed c'.viewport :=
    ⟨by rw [hview], by rw [hview], .inl (by rw [hview])⟩
  cases x with
  | setMode | pressSecondary | release => exact hsame rfl
  | resize size => exact ⟨rfl, rfl, .inl rfl⟩
  | press screen =>
    obtain ⟨answer, c', g', hpress⟩ : ∃ answer c' g', c.press g screen = (answer, c', g') := ⟨_, _, _, rfl⟩
    apply hsame
    change (c.press g screen).2.1.viewport = _
    rw [hpress]
    cases Canvas.pressed hpress <;> rfl
  | dragTo screen =>
    change c.viewport.Rezoomed (c.dragTo g screen).1.viewport
    unfold Canvas.dragTo
    repeat' split
    all_goals exact ⟨rfl, rfl, .inl rfl⟩
  | scroll | zoomIn | zoomOut | zoomAt => exact c.viewport.rezoomed_zoomAt _ _
  | setZoom zoom => exact c.viewport.rezoomed_setZoom zoom

end ScriptGraph
