import ScriptGraph.Proofs.Ceiling

/-!
# Updates in slices

An engine with a clock of its own may be updated in many small steps or in a few large ones.  A sweep up to some time
leaves nothing behind that a further sweep would run earlier, and how far the clock got in between is forgotten with
the next task, which sets it to its own time.  So two sweeps one after the other are one sweep
(`Timers.sweepFrom_trans`), two steps of a clock are one step (`World.advance_add`), and any updates are one update
by the time of all of them together (`Engine.updates_eq_update`).
-/

namespace ScriptGraph

/-! ### Sums of durations -/

namespace Duration

theorem add_zero (d : Duration) : d + 0 = d := by
  have hlt := d.le_max
  apply Duration.ext
  rw [nanos_add, nanos_zero, maxNanos]
  omega

theorem add_assoc (a b c : Duration) : a + b + c = a + (b + c) := by
  apply Duration.ext
  simp only [nanos_add]
  omega

theorem le_add (d e : Duration) : d ≤ d + e := by
  have hlt := d.le_max
  change d.nanos ≤ min (d.nanos + e.nanos) maxNanos
  rw [maxNanos]
  omega

/-- The time of some steps together. -/
def total (ds : List Duration) : Duration := ds.foldr (· + ·) 0

theorem total_concat (ds : List Duration) (d : Duration) : total (ds ++ [d]) = total ds + d := by
  induction ds with
  | nil =>
    apply Duration.ext
    simp only [List.nil_append, total, List.foldr_cons, List.foldr_nil, nanos_add, Nat.add_comm]
  | cons d' ds ih =>
    rw [List.cons_append, total, List.foldr_cons, ← total, ih, total, total, List.foldr_cons, add_assoc]

end Duration

/-! ### Sweeps one after the other -/

namespace Timers

variable {α σ : Type} [Clocked σ α] {run : α → σ → σ} {target : Duration}

/-- What falls due does not depend on how far the clock is. -/
theorem takeDue_setNow (ts : Timers α) (now target : Duration) :
    Timers.takeDue { ts with now } target = ts.takeDue target := rfl

theorem takeDue_mono {ts rest : Timers α} {task : α} {target' : Duration} (hle : target ≤ target')
    (h : ts.takeDue target = some (task, rest)) : ts.takeDue target' = some (task, rest) := by
  obtain ⟨a, ha, hdue, hfirst, hrest⟩ := takeDue_eq_some_iff.1 h
  exact takeDue_eq_some_iff.2 ⟨a, ha, Nat.le_trans hdue hle, hfirst, hrest⟩

/-- A sweep leaves the clock at its end. -/
theorem now_of_sweepFrom {ran bound : Nat} {s : σ} {answer : Nat × σ}
    (h : sweepFrom ran run target bound s = some answer) : (Clocked.timers answer.2).now = target := by
  refine sweepFrom_induction (motive := fun _ _ _ => (Clocked.timers answer.2).now = target) ?_ ?_ h
  · rintro ran bound s - rfl
    rw [setNow, Clocked.timers_withTimers]
  · exact fun _ _ _ _ _ _ ih => ih

theorem sweepFrom_mono {ran bound bound' : Nat} {s : σ} {answer : Nat × σ} (hle : bound ≤ bound')
    (h : sweepFrom ran run target bound s = some answer) : sweepFrom ran run target bound' s = some answer := by
  refine sweepFrom_induction (motive := fun ran bound s =>
    ∀ bound', bound ≤ bound' → sweepFrom ran run target bound' s = some answer) ?_ ?_ h bound' hle
  · rintro ran bound s htake rfl bound' -
    exact sweepFrom_of_none htake
  · intro ran bound s task rest htake ih bound' hle
    obtain ⟨bound', rfl⟩ : ∃ b, bound' = b + 1 := ⟨bound' - 1, by omega⟩
    rw [sweepFrom_of_some htake]
    exact ih bound' (Nat.le_of_succ_le_succ hle)

/-- Two sweeps of a state that both end come to the same, whatever their bounds are. -/
theorem sweepFrom_unique {ran bound bound' : Nat} {s : σ} {answer answer' : Nat × σ}
    (h : sweepFrom ran run target bound s = some answer) (h' : sweepFrom ran run target bound' s = some answer') :
    answer = answer' := by
  have hmax := sweepFrom_mono (Nat.le_max_left bound bound') h
  rw [sweepFrom_mono (Nat.le_max_right bound bound') h'] at hmax
  exact (Option.some.inj hmax).symm

/-- Tasks that ran before a sweep are only counted. -/
theorem sweepFrom_add (before : Nat) {ran bound : Nat} {s : σ} {answer : Nat × σ}
    (h : sweepFrom ran run target bound s = some answer) :
    sweepFrom (before + ran) run target bound s = some (before + answer.1, answer.2) := by
  refine sweepFrom_induction (motive := fun ran bound s =>
    sweepFrom (before + ran) run target bound s = some (before + answer.1, answer.2)) ?_ ?_ h
  · rintro ran bound s htake rfl
    exact sweepFrom_of_none htake
  · intro ran bound s task rest htake ih
    rw [sweepFrom_of_some htake]
    exact ih

/-- The clock of a state is forgotten by the next sweep. -/
private theorem sweepFrom_setNow (hput : ∀ (s : σ) (a b : Timers α),
      Clocked.withTimers (Clocked.withTimers s a) b = (Clocked.withTimers s b : σ))
    (ran bound : Nat) (now : Duration) (s : σ) :
    sweepFrom ran run target bound (setNow s now) = sweepFrom ran run target bound s := by
  have htake : (Clocked.timers (setNow s now)).takeDue target = (Clocked.timers s).takeDue target := by
    rw [setNow, Clocked.timers_withTimers, takeDue_setNow]
  rw [sweepFrom, sweepFrom, htake]
  cases (Clocked.timers s).takeDue target with
  | none =>
    dsimp only
    rw [setNow, setNow, setNow, Clocked.timers_withTimers, hput]
  | some p =>
    dsimp only
    rw [setNow, hput]

/-- A sweep that goes on after another one is one sweep together with it. -/
theorem sweepFrom_trans (hput : ∀ (s : σ) (a b : Timers α),
      Clocked.withTimers (Clocked.withTimers s a) b = (Clocked.withTimers s b : σ))
    {target' : Duration} (hle : target ≤ target') {ran bound bound' : Nat} {s : σ} {answer answer' : Nat × σ}
    (h : sweepFrom ran run target bound s = some answer)
    (h' : sweepFrom answer.1 run target' bound' answer.2 = some answer') :
    ∃ bound, sweepFrom ran run target' bound s = some answer' := by
  refine sweepFrom_induction (motive := fun ran _ s =>
    ∃ bound, sweepFrom ran run target' bound s = some answer') ?_ ?_ h
  · -- the second sweep goes on where the first one ended, but for the clock
    rintro ran bound s - rfl
    rw [sweepFrom_setNow hput] at h'
    exact ⟨bound', h'⟩
  · -- the first task up to `target` is the first one up to any later time
    rintro ran - s task rest htake ⟨bound, hbound⟩
    refine ⟨bound + 1, ?_⟩
    rw [sweepFrom_of_some (takeDue_mono hle htake)]
    exact hbound

end Timers

/-! ### Steps of the clock -/

namespace World

/-- A step of the clock is a sweep up to its end. -/
theorem sweepFrom_advance (host : Host) (elapsed : Duration) (w : World) :
    Timers.sweepFrom 0 (resume host) (w.timers.now + elapsed) w.capacity w = some (w.advance host elapsed) := by
  obtain ⟨answer, hsweep⟩ := w.exists_sweep host (w.timers.now + elapsed)
  rw [advance, hsweep]
  exact hsweep

theorem now_advance (host : Host) (elapsed : Duration) (w : World) :
    (w.advance host elapsed).2.timers.now = w.timers.now + elapsed :=
  Timers.now_of_sweepFrom (w.sweepFrom_advance host elapsed)

/-- Two steps of the clock one after the other are one step. -/
theorem advance_add (host : Host) (d e : Duration) (w : World) :
    w.advance host (d + e) =
      ((w.advance host d).1 + ((w.advance host d).2.advance host e).1, ((w.advance host d).2.advance host e).2) := by
  have hfirst := w.sweepFrom_advance host d
  have hsecond := (w.advance host d).2.sweepFrom_advance host e
  have hwhole := w.sweepFrom_advance host (d + e)
  rw [now_advance] at hsecond
  rw [← Duration.add_assoc] at hwhole
  have hlater := Timers.sweepFrom_add (w.advance host d).1 hsecond
  obtain ⟨bound, hboth⟩ := Timers.sweepFrom_trans (fun _ _ _ => rfl) (Duration.le_add _ e) hfirst hlater
  exact Timers.sweepFrom_unique hwhole hboth

end World

/-! ### Updates of an engine -/

namespace Engine

variable {σ : Type}

/-- Updates an engine step by step.  The answer is how many parts of chains were resumed in all steps. -/
def updates (e : Engine σ) : List Duration → Nat × Engine σ
  | [] => (0, e)
  | d :: ds =>
    let (count, e) := e.update d
    let (later, e) := e.updates ds
    (count + later, e)

theorem update_of_manual {e : Engine σ} (hclock : e.clock = .manual) (d : Duration) :
    e.update d = ((e.world.advance e.host d).1, { e with world := (e.world.advance e.host d).2 }) := by
  have hadvance : e.update d = e.onWorld (World.advance e.host d) := by rw [update, hclock]
  rw [hadvance]
  rfl

/-- Two updates one after the other are one update by the time of both. -/
theorem update_add {e : Engine σ} (hclock : e.clock = .manual) (d d' : Duration) :
    e.update (d + d') = ((e.update d).1 + ((e.update d).2.update d').1, ((e.update d).2.update d').2) := by
  have hclock' : (e.update d).2.clock = .manual := by rw [update_of_manual hclock, ← hclock]
  rw [update_of_manual hclock, update_of_manual hclock', update_of_manual hclock, World.advance_add]

/-- Any updates are one update by the time of all of them. -/
theorem updates_eq_update {e : Engine σ} (hclock : e.clock = .manual) {ds : List Duration} (hne : ds ≠ []) :
    e.updates ds = e.update (Duration.total ds) := by
  induction ds generalizing e with
  | nil => exact absurd rfl hne
  | cons d ds ih =>
    rw [updates]
    dsimp only
    rw [Duration.total, List.foldr_cons]
    cases ds with
    | nil =>
      rw [List.foldr_nil, Duration.add_zero]
      rfl
    | cons d' ds =>
      have hclock' : (e.update d).2.clock = .manual := by rw [update_of_manual hclock, ← hclock]
      have hrest := ih hclock' (by simp)
      rw [hrest, ← Duration.total, update_add hclock]

end Engine

end ScriptGraph
