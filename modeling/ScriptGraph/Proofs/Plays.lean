import ScriptGraph.Proofs.Deeds
import ScriptGraph.Proofs.Updates

/-!
# Plays

A play is a chain from its start on, with the steps in which the clock is moved after that.  Two plays that are to be
compared are swept side by side: as long as they are related they come to the same tasks (`Timers.sweepFrom_pair`),
and once they have parted each goes its own way.
-/

namespace ScriptGraph

/-- What a play shows: the answer to the start of the chain, how many parts of chains were resumed in each step of the
clock, and the world at the end. -/
structure Play where
  answer : Except ScriptError ChainReport
  resumed : List Nat
  world : World

namespace World

/-- Moves the clock step by step.  The answers are how many parts of chains were resumed in each step. -/
def advances (host : Host) : List Duration → World → List Nat × World
  | [], w => ([], w)
  | d :: ds, w =>
    let (count, w) := w.advance host d
    let (counts, w) := w.advances host ds
    (count :: counts, w)

/-- Starts a chain at a node, and moves the clock step by step after that. -/
def play (host : Host) (script : Script) (start : Nat) (ds : List Duration) (w : World) : Play :=
  let (answer, w) := w.execute host script start
  let (resumed, w) := w.advances host ds
  ⟨answer, resumed, w⟩

/-- What happened since an earlier time. -/
def since (w₀ w : World) : List Effect := w.trace.toList.drop w₀.trace.toList.length

theorem since_eq {w₀ w : World} {effects : List Effect} (h : w.trace.toList = w₀.trace.toList ++ effects) :
    w₀.since w = effects := by
  rw [since, h, List.drop_left]

end World

/-! ### Two sweeps side by side -/

namespace Timers

variable {α σ : Type} [Clocked σ α] {run run' : α → σ → σ} {target : Duration}

/-- Two related states come to the same tasks, until they part.  `R` is how they are related before that, and `Q` is
how they are afterwards, whichever of them moves. -/
theorem sweepFrom_pair {R Q : σ → σ → Prop} (htimers : ∀ s s', R s s' → Clocked.timers s' = Clocked.timers s)
    (hboth : ∀ s s' task rest, R s s' → (Clocked.timers s).takeDue target = some (task, rest) →
      R (run task (Clocked.withTimers s rest)) (run' task (Clocked.withTimers s' rest)) ∨
        Q (run task (Clocked.withTimers s rest)) (run' task (Clocked.withTimers s' rest)))
    (hleft : ∀ s s' task rest, Q s s' → (Clocked.timers s).takeDue target = some (task, rest) →
      Q (run task (Clocked.withTimers s rest)) s')
    (hright : ∀ s s' task rest, Q s s' → (Clocked.timers s').takeDue target = some (task, rest) →
      Q s (run' task (Clocked.withTimers s' rest)))
    (hnow : ∀ s s', R s s' → R (setNow s target) (setNow s' target))
    (hnowLeft : ∀ s s', Q s s' → Q (setNow s target) s') (hnowRight : ∀ s s', Q s s' → Q s (setNow s' target))
    {ran bound bound' : Nat} {s s' : σ} {answer answer' : Nat × σ} (hR : R s s')
    (h : sweepFrom ran run target bound s = some answer) (h' : sweepFrom ran run' target bound' s' = some answer') :
    answer'.1 = answer.1 ∧ R answer.2 answer'.2 ∨ Q answer.2 answer'.2 := by
  -- the first sweep is kept in the motive, because it goes on alone when the two have parted
  have hboth' := sweepFrom_induction (motive := fun ran bound s => sweepFrom ran run target bound s = some answer ∧
    ∀ bound' s', R s s' → sweepFrom ran run' target bound' s' = some answer' →
      answer'.1 = answer.1 ∧ R answer.2 answer'.2 ∨ Q answer.2 answer'.2) ?_ ?_ h
  · exact hboth'.2 bound' s' hR h'
  · intro ran bound s htake hanswer
    refine ⟨by rw [sweepFrom_of_none htake, hanswer], fun bound' s' hR h' => ?_⟩
    rw [← htimers s s' hR] at htake
    rw [sweepFrom_of_none htake, Option.some.injEq] at h'
    rw [hanswer, ← h']
    exact .inl ⟨rfl, hnow s s' hR⟩
  · rintro ran bound s task rest htake ⟨h, ih⟩
    refine ⟨by rw [sweepFrom_of_some htake, h], fun bound' s' hR h' => ?_⟩
    have hnext := hboth s s' task rest hR htake
    rw [← htimers s s' hR] at htake
    cases bound' with
    | zero =>
      rw [sweepFrom, htake] at h'
      cases h'
    | succ bound' =>
      rw [sweepFrom_of_some htake] at h'
      rcases hnext with hR | hQ
      · exact ih bound' _ hR h'
      · have hQ := sweepFrom_invariant (P := fun s => Q s _) (fun s task rest htake hs => hleft _ _ _ _ hs htake)
          (fun s hs => hnowLeft _ _ hs) hQ h
        exact .inr (sweepFrom_invariant (P := fun s' => Q answer.2 s')
          (fun s task rest htake hs => hright _ _ _ _ hs htake) (fun s hs => hnowRight _ _ hs) hQ h')

end Timers

end ScriptGraph
