import ScriptGraph.Timers

/-!
# Wake queues

Tasks that sleep while time passes by itself. One that wakes joins a queue, and runs when the host takes it from
there.  `asleep` counts the tasks that were scheduled and whose waking is not complete: a task joins the queue first
and leaves the count after that, so at no moment is it in neither.
-/

namespace ScriptGraph

/-- Sleeping and waking tasks. -/
structure WakeQueue (α : Type) where
  timers : Timers α
  asleep : Nat
  ready : List α

namespace WakeQueue

variable {α : Type}

/-- No tasks. -/
def start : WakeQueue α := ⟨.start, 0, []⟩

/-- Puts a task to sleep. -/
def schedule (q : WakeQueue α) (delay : Duration) (task : α) : WakeQueue α :=
  { q with asleep := q.asleep + 1, timers := q.timers.schedule delay task }

/-- The first task that wakes by `target` joins the queue, and the clock shows when. -/
def wake (q : WakeQueue α) (target : Duration) : Option (WakeQueue α) :=
  (q.timers.takeDue target).map fun (task, timers) => { q with timers, ready := q.ready ++ [task] }

/-- A task that joined the queue is not counted as sleeping any longer. -/
def settle (q : WakeQueue α) : WakeQueue α :=
  { q with asleep := q.asleep - 1 }

/-- The tasks that are not taken yet. -/
def pending (q : WakeQueue α) : Nat := q.asleep + q.ready.length

/-- Takes a task from the queue. -/
def take (q : WakeQueue α) : Option (α × WakeQueue α) :=
  match q.ready with
  | [] => none
  | task :: ready => some (task, { q with ready })

/-- Waits for a task to take, at most as long as `timeout`. -/
def takeNext (q : WakeQueue α) (timeout : Duration) : Option α × WakeQueue α :=
  if q.asleep = 0 && q.ready.isEmpty then (none, q)
  else
    match q.take with
    | some (task, q) => (some task, q)
    | none =>
      let target := q.timers.now + timeout
      match (q.wake target).bind fun q => q.settle.take with
      | some (task, q) => (some task, q)
      | none => (none, { q with timers := { q.timers with now := target } })

/-- Wakes at most `count` tasks that are due. -/
def wakeDue : Nat → WakeQueue α → WakeQueue α
  | 0, q => q
  | count + 1, q =>
    match q.wake q.timers.now with
    | some q => wakeDue count q.settle
    | none => q

/-- Takes all tasks that are awake. -/
def takeAll (q : WakeQueue α) : List α × WakeQueue α :=
  let q := wakeDue q.timers.size q
  (q.ready, { q with ready := [] })

end WakeQueue

end ScriptGraph
