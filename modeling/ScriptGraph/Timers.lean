import Std.Data.TreeMap
import ScriptGraph.Duration

/-!
# Timers

Tasks that wait on a clock that is moved by hand. They are kept by the time at which they fall due, and those that
fall due at one time in the order in which they were scheduled. `sweep` moves the clock: each task runs when the
clock shows its due time, and what it schedules takes part in the same sweep.
-/

namespace ScriptGraph

/-- When a task falls due. `number` counts the tasks scheduled before it. It has no upper bound, but takes no value
that 64 bits could not hold: tasks are scheduled one at a time, and no run comes to 2 ^ 64 of them. -/
structure Alarm where
  due : Duration
  number : Nat

namespace Alarm

@[ext]
theorem ext {a b : Alarm} (hdue : a.due = b.due) (hnumber : a.number = b.number) : a = b := by
  cases a; cases b; simp_all

/-- An earlier alarm comes first, and of two at the same time the one with the smaller number. -/
instance : Ord Alarm where
  compare a b := (compare a.due.nanos b.due.nanos).then (compare a.number b.number)

theorem compare_eq (a b : Alarm) :
    compare a b = (compare a.due.nanos b.due.nanos).then (compare a.number b.number) := rfl

instance : Std.TransOrd Alarm :=
  inferInstanceAs (Std.TransCmp (compareLex (compareOn fun a : Alarm => a.due.nanos) (compareOn Alarm.number)))

instance : Std.LawfulEqOrd Alarm where
  eq_of_compare h := by
    obtain ⟨hdue, hnumber⟩ := Ordering.then_eq_eq.1 h
    exact Alarm.ext (Duration.ext (Std.LawfulEqOrd.eq_of_compare hdue)) (Std.LawfulEqOrd.eq_of_compare hnumber)

/-- An alarm that comes no later is due no later. -/
theorem due_le_of_isLE {a b : Alarm} (h : (compare a b).isLE) : a.due ≤ b.due := by
  rw [compare_eq, Ordering.isLE_then_iff_and] at h
  exact Nat.isLE_compare.1 h.1

end Alarm

/-- A clock with the tasks that wait on it. The number of the next task is larger than all in use, so no task takes
the place of another. It is `scheduled`, which grows by one for each task, and so no run comes to the end of 64
bits. -/
structure Timers (α : Type) where
  now : Duration
  scheduled : Nat
  waiting : Std.TreeMap Alarm α
  number_lt : ∀ alarm ∈ waiting, alarm.number < scheduled

namespace Timers

variable {α : Type}

/-- A clock at zero. -/
def start : Timers α := ⟨0, 0, ∅, by simp⟩

/-- The alarm of a task that is scheduled now. -/
def alarm (ts : Timers α) (delay : Duration) : Alarm := ⟨ts.now + delay, ts.scheduled⟩

/-- Schedules a task. -/
def schedule (ts : Timers α) (delay : Duration) (task : α) : Timers α where
  now := ts.now
  scheduled := ts.scheduled + 1
  waiting := ts.waiting.insert (ts.alarm delay) task
  number_lt a h := by
    rcases Std.TreeMap.mem_insert.1 h with h | h
    · rw [← Std.LawfulEqOrd.eq_of_compare h]
      exact Nat.lt_succ_self _
    · exact Nat.lt_succ_of_lt (ts.number_lt a h)

/-- The number of tasks that wait. -/
def size (ts : Timers α) : Nat := ts.waiting.size

/-- Sets the clock to the time of an alarm, and leaves out its task. -/
def reach (ts : Timers α) (a : Alarm) : Timers α where
  now := a.due
  scheduled := ts.scheduled
  waiting := ts.waiting.erase a
  number_lt b h := ts.number_lt b (Std.TreeMap.mem_of_mem_erase h)

/-- Takes the first task if it falls due by `target`, and sets the clock to its due time. -/
def takeDue (ts : Timers α) (target : Duration) : Option (α × Timers α) :=
  match ts.waiting.minKey? with
  | none => none
  | some a => if a.due ≤ target then ts.waiting[a]?.map fun task => (task, ts.reach a) else none

theorem alarm_not_mem (ts : Timers α) (delay : Duration) : ts.alarm delay ∉ ts.waiting :=
  fun h => Nat.lt_irrefl _ (ts.number_lt _ h)

/-- A task that is scheduled waits beside all the others. -/
@[simp]
theorem size_schedule (ts : Timers α) (delay : Duration) (task : α) :
    (ts.schedule delay task).size = ts.size + 1 := by
  simp [schedule, size, Std.TreeMap.size_insert, alarm_not_mem]

/-- The task that is taken has the first of all alarms. -/
theorem takeDue_eq_some_iff {ts rest : Timers α} {target : Duration} {task : α} :
    ts.takeDue target = some (task, rest) ↔
      ∃ a, ts.waiting[a]? = some task ∧ a.due ≤ target ∧ (∀ b ∈ ts.waiting, (compare a b).isLE) ∧
        ts.reach a = rest := by
  unfold takeDue
  constructor
  · intro h
    split at h
    · simp at h
    · next a ha =>
      split at h
      · next hdue =>
        obtain ⟨t, ht, hrest⟩ := Option.map_eq_some_iff.1 h
        obtain ⟨rfl, rfl⟩ := Prod.mk.inj hrest
        exact ⟨a, ht, hdue, (Std.TreeMap.minKey?_eq_some_iff_mem_and_forall.1 ha).2, rfl⟩
      · simp at h
  · rintro ⟨a, ha, hdue, hle, rfl⟩
    have hmem : a ∈ ts.waiting := by simp [Std.TreeMap.mem_iff_isSome_getElem?, ha]
    rw [Std.TreeMap.minKey?_eq_some_iff_mem_and_forall.2 ⟨hmem, hle⟩]
    simp [hdue, ha]

/-- No task is taken when all fall due after `target`. -/
theorem takeDue_eq_none_iff {ts : Timers α} {target : Duration} :
    ts.takeDue target = none ↔ ∀ a ∈ ts.waiting, target < a.due := by
  unfold takeDue
  constructor
  · intro h a ha
    split at h
    · next hmin => exact absurd ha (Std.TreeMap.not_mem_of_isEmpty (Std.TreeMap.minKey?_eq_none_iff.1 hmin))
    · next b hb =>
      obtain ⟨hmem, hle⟩ := Std.TreeMap.minKey?_eq_some_iff_mem_and_forall.1 hb
      rw [Std.TreeMap.mem_iff_isSome_getElem?] at hmem
      split at h
      · simp only [Option.map_eq_none_iff] at h
        simp [h] at hmem
      · next hdue => exact Nat.lt_of_lt_of_le (Nat.not_le.1 hdue) (Alarm.due_le_of_isLE (hle a ha))
  · intro h
    split
    · rfl
    · next a ha =>
      exact if_neg (Nat.not_le.2 (h a (Std.TreeMap.minKey?_eq_some_iff_mem_and_forall.1 ha).1))

/-- The task that is taken does not wait any longer. -/
theorem size_of_takeDue {ts rest : Timers α} {target : Duration} {task : α}
    (h : ts.takeDue target = some (task, rest)) : ts.size = rest.size + 1 := by
  obtain ⟨a, ha, -, -, rfl⟩ := takeDue_eq_some_iff.1 h
  have hmem : a ∈ ts.waiting := by simp [Std.TreeMap.mem_iff_isSome_getElem?, ha]
  have hpos : ts.waiting.size ≠ 0 := fun h0 =>
    Std.TreeMap.not_mem_of_isEmpty (by simp [Std.TreeMap.isEmpty_eq_size_eq_zero, h0]) hmem
  simp only [size, reach, Std.TreeMap.size_erase, Std.TreeMap.contains_iff_mem, hmem, if_true]
  omega

end Timers

/-- States with timers in them. -/
class Clocked (σ : Type) (α : outParam Type) where
  timers : σ → Timers α
  withTimers : σ → Timers α → σ
  timers_withTimers : ∀ s ts, timers (withTimers s ts) = ts

namespace Timers

variable {α σ : Type} [Clocked σ α]

/-- Sets the clock of a state. -/
def setNow (s : σ) (now : Duration) : σ :=
  Clocked.withTimers s { Clocked.timers s with now }

/-- Goes on with a sweep in which `ran` tasks ran already. -/
def sweepFrom (ran : Nat) (run : α → σ → σ) (target : Duration) (bound : Nat) (s : σ) : Option (Nat × σ) :=
  match (Clocked.timers s).takeDue target with
  | none => some (ran, setNow s target)
  | some (task, rest) =>
    match bound with
    | 0 => none
    | bound + 1 => sweepFrom (ran + 1) run target bound (run task (Clocked.withTimers s rest))
termination_by bound

/-- Runs the tasks that fall due by `target`, the earliest first, and sets the clock to `target`. The answer is how
many ran; there is none if more than `bound` tasks fall due. -/
def sweep (run : α → σ → σ) (target : Duration) (bound : Nat) (s : σ) : Option (Nat × σ) :=
  sweepFrom 0 run target bound s

end Timers

end ScriptGraph
