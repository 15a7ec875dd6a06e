import ScriptGraph.Timers

/-!
# Planned tasks

Tasks that are known in advance, together with all that they do when they run: schedule further tasks, and move the
clock themselves. `Plan.advance` carries such tasks out and keeps a log.
-/

namespace ScriptGraph

/-- A named task with the steps that it takes when it runs. -/
inductive Plan where
  | task (name : String) (steps : List (Duration × Option Plan))

namespace Plan

/-- A step after a delay: scheduling a task, or moving the clock if there is none. -/
abbrev Step := Duration × Option Plan

/-- What is written down when tasks run. -/
inductive Entry where
  | ran (name : String) (now : Duration)
  | advanced (count : Nat)

/-- The waiting tasks and the log. -/
structure Agenda where
  timers : Timers Plan
  log : List Entry

instance : Clocked Agenda Plan where
  timers := Agenda.timers
  withTimers s timers := { s with timers }
  timers_withTimers _ _ := rfl

mutual

/-- The number of tasks in a plan. -/
def size : Plan → Nat
  | task _ steps => stepsSize steps + 1

/-- The number of tasks in some steps, counting a movement of the clock as one. -/
def stepsSize : List (Duration × Option Plan) → Nat
  | [] => 0
  | (_, some p) :: rest => size p + stepsSize rest
  | (_, none) :: rest => stepsSize rest + 1

end

/-- Tasks in the plans that wait. -/
def Agenda.total (s : Agenda) : Nat :=
  s.timers.waiting.foldr (fun _ plan tasks => size plan + tasks) 0

mutual

/-- Moves the clock, with at most `bound` tasks inside each other. -/
def moveClock (bound : Nat) (elapsed : Duration) (s : Agenda) : Nat × Agenda :=
  match bound with
  | 0 => (0, s)
  | bound + 1 =>
    ((Timers.sweep (perform bound) (s.timers.now + elapsed) s.total s).getD (0, s))
termination_by (bound, 0)

/-- Runs a task: logs it and takes its steps. -/
def perform (bound : Nat) (p : Plan) (s : Agenda) : Agenda :=
  match p with
  | task name steps =>
    steps.foldl
      (fun s step =>
        match step with
        | (delay, some p) => { s with timers := s.timers.schedule delay p }
        | (elapsed, none) =>
          let (count, s) := moveClock bound elapsed s
          { s with log := s.log ++ [.advanced count] })
      { s with log := s.log ++ [.ran name s.timers.now] }
termination_by (bound, 1)

end

/-- Moves the clock forward and runs what falls due. The answer is how many tasks ran, without those that ran while
another task moved the clock. -/
def advance (elapsed : Duration) (s : Agenda) : Nat × Agenda :=
  moveClock (s.total + 1) elapsed s

end Plan

end ScriptGraph
