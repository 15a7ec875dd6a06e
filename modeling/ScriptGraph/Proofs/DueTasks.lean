import Mathlib
import ScriptGraph.Proofs.Timekeeping
import ScriptGraph.Proofs.WaitingTasks

/-!
# Tasks that fall due

`Errands` are tasks that may schedule any further tasks when they run, with any delays, and do nothing else to the
clock.  A sweep takes one turn after the other (`Errands.Turns`).  The task of a turn has the first of all alarms,
so the ones that wait after it come later: those that waited already because no two alarms are the same, and the new
ones because they fall due no earlier and have larger numbers (`Errands.lt_of_mem_turned`).  From this comes the
order in which the tasks run (`Turns.in_order`).  That a sweep runs no other tasks than those that fall due, and
each of them once, is a matter of counting (`Turns.entries`): what waited and what was scheduled meanwhile either
ran or waits.

`Errands.History` is all that can happen to a clock from its beginning, with every task that was scheduled and every
one that ran, and `Errands.advance_runs_due` is what a step of the clock does after any history.
-/

namespace ScriptGraph

/-! ### Alarms -/

namespace Alarm

theorem compare_trans {a b c : Alarm} (hab : compare a b = .lt) (hbc : compare b c = .lt) : compare a c = .lt :=
  Std.TransCmp.lt_trans hab hbc

/-- The later of two tasks comes after the other one if it falls due no earlier. -/
theorem compare_eq_lt {a b : Alarm} (hdue : a.due ≤ b.due) (hnumber : a.number < b.number) : compare a b = .lt := by
  have hle : a.due.nanos ≤ b.due.nanos := hdue
  rw [compare_eq, Ordering.then_eq_lt]
  rcases Nat.lt_or_eq_of_le hle with hlt | heq
  · exact .inl (Nat.compare_eq_lt.2 hlt)
  · exact .inr ⟨Nat.compare_eq_eq.2 heq, Nat.compare_eq_lt.2 hnumber⟩

theorem due_le_of_lt {a b : Alarm} (h : compare a b = .lt) : a.due ≤ b.due := by
  apply due_le_of_isLE
  rw [h]
  rfl

end Alarm

namespace Timers

variable {α σ : Type}

/-! ### Several tasks -/

/-- Tasks that are scheduled now one after the other, with their alarms. -/
def alarms (ts : Timers α) : List (Duration × α) → List (Alarm × α)
  | [] => []
  | p :: tasks => (ts.alarm p.1, p.2) :: (ts.schedule p.1 p.2).alarms tasks

theorem scheduled_scheduleAll (ts : Timers α) (tasks : List (Duration × α)) :
    (ts.scheduleAll tasks).scheduled = ts.scheduled + (ts.alarms tasks).length := by
  induction tasks generalizing ts with
  | nil => rfl
  | cons p tasks ih =>
    have hrest := ih (ts.schedule p.1 p.2)
    have hone : (ts.schedule p.1 p.2).scheduled = ts.scheduled + 1 := rfl
    rw [hone] at hrest
    rw [alarms, List.length_cons]
    change ((ts.schedule p.1 p.2).scheduleAll tasks).scheduled = _
    omega

theorem entries_scheduleAll (ts : Timers α) (tasks : List (Duration × α)) :
    (ts.scheduleAll tasks).entries = ts.alarms tasks + ts.entries := by
  induction tasks generalizing ts with
  | nil => exact (Multiset.zero_add _).symm
  | cons p tasks ih =>
    have hrest := ih (ts.schedule p.1 p.2)
    rw [entries_schedule, Multiset.add_cons] at hrest
    rw [alarms, ← Multiset.cons_coe, Multiset.cons_add]
    exact hrest

/-- The numbers of tasks go on from those that were scheduled before. -/
theorem map_number_alarms (ts : Timers α) (tasks : List (Duration × α)) :
    (ts.alarms tasks).map (·.1.number) = List.range' ts.scheduled (ts.alarms tasks).length := by
  induction tasks generalizing ts with
  | nil => rfl
  | cons p tasks ih => rw [alarms, List.map_cons, List.length_cons, List.range'_succ, ih]; rfl

/-- What is scheduled now falls due no earlier than now. -/
theorem now_le_of_mem_alarms {ts : Timers α} {tasks : List (Duration × α)} {p : Alarm × α}
    (hp : p ∈ ts.alarms tasks) : ts.now ≤ p.1.due := by
  induction tasks generalizing ts with
  | nil => exact absurd hp List.not_mem_nil
  | cons q tasks ih =>
    rcases List.mem_cons.1 hp with rfl | hp
    · exact Duration.le_add _ _
    · exact @ih (ts.schedule q.1 q.2) hp

theorem scheduled_le_of_mem_alarms {ts : Timers α} {tasks : List (Duration × α)} {p : Alarm × α}
    (hp : p ∈ ts.alarms tasks) : ts.scheduled ≤ p.1.number := by
  have hnumber := List.mem_map_of_mem (f := fun q : Alarm × α => q.1.number) hp
  rw [map_number_alarms, List.mem_range'_1] at hnumber
  exact hnumber.1

theorem number_lt_of_mem_entries {ts : Timers α} {p : Alarm × α} (hp : p ∈ ts.entries) :
    p.1.number < ts.scheduled := by
  apply ts.number_lt
  rw [Std.TreeMap.mem_iff_isSome_getElem?, mem_entries.1 hp]
  rfl

theorem forall_mem_waiting {ts : Timers α} {P : Alarm → Prop} :
    (∀ a ∈ ts.waiting, P a) ↔ ∀ p ∈ ts.entries, P p.1 := by
  constructor
  · intro h p hp
    apply h
    rw [Std.TreeMap.mem_iff_isSome_getElem?, mem_entries.1 hp]
    rfl
  · intro h a ha
    rw [Std.TreeMap.mem_iff_isSome_getElem?, Option.isSome_iff_exists] at ha
    obtain ⟨task, htask⟩ := ha
    exact h (a, task) (mem_entries.2 htask)

/-! ### Turns -/

variable [Clocked σ α]

/-- The state in which the task of an alarm runs: the clock shows the time of the alarm, and the task does not wait
any longer. -/
def reached (s : σ) (a : Alarm) : σ := Clocked.withTimers s ((Clocked.timers s).reach a)

theorem timers_reached (s : σ) (a : Alarm) : Clocked.timers (reached s a) = (Clocked.timers s).reach a :=
  Clocked.timers_withTimers _ _

end Timers

open Timers (reached timers_reached)

/-- Tasks that schedule others when they run, and do nothing else to the clock. -/
structure Errands (σ α : Type) [Clocked σ α] where
  run : α → σ → σ
  /-- what a task schedules when it runs in a state -/
  orders : α → σ → List (Duration × α)
  timers_run : ∀ task s, Clocked.timers (run task s) = (Clocked.timers s).scheduleAll (orders task s)

/-- A task that ran, with its alarm and what the clock showed. -/
structure Firing (α : Type) where
  alarm : Alarm
  task : α
  now : Duration

/-- The task that ran, with its alarm. -/
def Firing.entry {α : Type} (p : Firing α) : Alarm × α := (p.alarm, p.task)

namespace Errands

variable {α σ : Type} [Clocked σ α] (e : Errands σ α)

/-- The state after the turn of a task. -/
def turned (s : σ) (p : Alarm × α) : σ := e.run p.2 (reached s p.1)

/-- What is scheduled in the turn of a task. -/
def added (s : σ) (p : Alarm × α) : List (Alarm × α) :=
  (Clocked.timers (reached s p.1)).alarms (e.orders p.2 (reached s p.1))

/-- Some turns of a sweep up to a time, with the tasks that ran and those that were scheduled meanwhile: always the
first of all tasks is next, and it falls due by that time. -/
inductive Turns (target : Duration) : σ → List (Firing α) → List (Alarm × α) → σ → Prop
  | refl (s : σ) : Turns target s [] [] s
  | turn {s s' : σ} {p : Alarm × α} {ran : List (Firing α)} {added : List (Alarm × α)}
      (waits : p ∈ (Clocked.timers s).entries) (first : ∀ q ∈ (Clocked.timers s).entries, (compare p.1 q.1).isLE)
      (due : p.1.due ≤ target) (rest : Turns target (e.turned s p) ran added s') :
      Turns target s (⟨p.1, p.2, (Clocked.timers (reached s p.1)).now⟩ :: ran) (e.added s p ++ added) s'

variable {e} {s s' : σ} {p : Alarm × α} {target : Duration} {ran : List (Firing α)} {added : List (Alarm × α)}

theorem timers_turned (s : σ) (p : Alarm × α) :
    Clocked.timers (e.turned s p) = ((Clocked.timers s).reach p.1).scheduleAll (e.orders p.2 (reached s p.1)) := by
  rw [turned, e.timers_run, timers_reached]

/-- What waits after a turn waited before it or was scheduled in it. -/
theorem entries_turned (hp : p ∈ (Clocked.timers s).entries) :
    (Clocked.timers s).entries + (e.added s p : Multiset _) = p ::ₘ (Clocked.timers (e.turned s p)).entries := by
  rw [timers_turned, Timers.entries_scheduleAll, Timers.entries_reach (Timers.mem_entries.1 hp), Errands.added,
    timers_reached, Multiset.cons_add, Multiset.add_comm]

/-- After the turn of the first task only later ones wait. -/
theorem lt_of_mem_turned (hp : p ∈ (Clocked.timers s).entries)
    (hfirst : ∀ q ∈ (Clocked.timers s).entries, (compare p.1 q.1).isLE) {q : Alarm × α}
    (hq : q ∈ (Clocked.timers (e.turned s p)).entries) : compare p.1 q.1 = .lt := by
  rw [timers_turned, Timers.entries_scheduleAll, Multiset.mem_add] at hq
  rcases hq with hnew | hold
  · exact Alarm.compare_eq_lt (Timers.now_le_of_mem_alarms hnew)
      (Nat.lt_of_lt_of_le (Timers.number_lt_of_mem_entries hp)
        (@Timers.scheduled_le_of_mem_alarms _ ((Clocked.timers s).reach p.1) _ _ hnew))
  · -- another task that waits has another alarm, because the one of the task was taken away
    have hwaits : q ∈ (Clocked.timers s).entries := by
      rw [Timers.entries_reach (Timers.mem_entries.1 hp)]
      exact Multiset.mem_cons_of_mem hold
    have hne : compare p.1 q.1 ≠ .eq := by
      intro heq
      rw [Timers.mem_entries, Timers.reach, Std.TreeMap.getElem?_erase, if_pos heq] at hold
      cases hold
    have hle := hfirst q hwaits
    cases hcompare : compare p.1 q.1 with
    | lt => rfl
    | eq => exact absurd hcompare hne
    | gt =>
      rw [hcompare] at hle
      cases hle

namespace Turns

/-- What waited at first and what was scheduled meanwhile either ran or waits. -/
theorem entries (h : e.Turns target s ran added s') :
    (Clocked.timers s).entries + (added : Multiset (Alarm × α)) =
      (ran.map Firing.entry : Multiset (Alarm × α)) + (Clocked.timers s').entries := by
  induction h with
  | refl s => rw [List.map_nil, Multiset.coe_nil, Multiset.add_zero, Multiset.zero_add]
  | @turn s s' p ran added hp _ _ _ ih =>
    rw [← Multiset.coe_add, ← Multiset.add_assoc, entries_turned hp, Multiset.cons_add, ih, ← Multiset.cons_add,
      Multiset.cons_coe]
    rfl

theorem on_time (h : e.Turns target s ran added s') : ∀ p ∈ ran, p.now = p.alarm.due ∧ p.alarm.due ≤ target := by
  induction h with
  | refl => exact fun p hp => absurd hp List.not_mem_nil
  | turn _ _ hdue _ ih =>
    intro p hp
    rcases List.mem_cons.1 hp with rfl | hp
    · exact ⟨by rw [timers_reached]; rfl, hdue⟩
    · exact ih p hp

/-- Only what comes after an alarm runs if only that waits. -/
theorem lt_of_forall_lt (h : e.Turns target s ran added s') {a : Alarm}
    (hlater : ∀ q ∈ (Clocked.timers s).entries, compare a q.1 = .lt) : ∀ p ∈ ran, compare a p.alarm = .lt := by
  induction h with
  | refl => exact fun p hp => absurd hp List.not_mem_nil
  | turn hp hfirst _ _ ih =>
    intro p hmem
    rcases List.mem_cons.1 hmem with rfl | hmem
    · exact hlater _ hp
    · exact ih (fun q hq => Alarm.compare_trans (hlater _ hp) (lt_of_mem_turned hp hfirst hq)) p hmem

/-- Tasks run in the order of their alarms. -/
theorem in_order (h : e.Turns target s ran added s') : ran.Pairwise fun p q => compare p.alarm q.alarm = .lt := by
  induction h with
  | refl => exact .nil
  | turn hp hfirst _ hrest ih =>
    exact List.pairwise_cons.2 ⟨hrest.lt_of_forall_lt fun q hq => lt_of_mem_turned hp hfirst hq, ih⟩

/-- The clock goes on from where it was to the times of the tasks that run. -/
theorem forward (h : e.Turns target s ran added s')
    (hahead : ∀ p ∈ (Clocked.timers s).entries, (Clocked.timers s).now ≤ p.1.due)
    (htarget : (Clocked.timers s).now ≤ target) :
    ((Clocked.timers s).now :: (ran.map (·.now) ++ [target])).Pairwise (· ≤ ·) := by
  have hdue := h.on_time
  have hrising : (ran.map (·.now)).Pairwise (· ≤ ·) := by
    rw [List.pairwise_map]
    refine h.in_order.imp_of_mem ?_
    intro p q hp hq hlt
    rw [(hdue p hp).1, (hdue q hq).1]
    exact Alarm.due_le_of_lt hlt
  rw [List.pairwise_cons, List.pairwise_append]
  refine ⟨?_, hrising, List.pairwise_singleton _ _, ?_⟩
  · intro d hd
    rcases List.mem_append.1 hd with hd | hd
    · obtain ⟨p, hp, rfl⟩ := List.mem_map.1 hd
      -- the task that ran first waited already, and the others came no earlier
      cases h with
      | refl => exact absurd hp List.not_mem_nil
      | turn hwaits hfirst _ hrest =>
        rw [(hdue p hp).1]
        rcases List.mem_cons.1 hp with rfl | hlater
        · exact hahead _ hwaits
        · have hlt := hrest.lt_of_forall_lt (fun q hq => lt_of_mem_turned hwaits hfirst hq) p hlater
          exact Nat.le_trans (hahead _ hwaits) (Alarm.due_le_of_lt hlt)
    · rw [List.mem_singleton.1 hd]
      exact htarget
  · intro d hd d' hd'
    obtain ⟨p, hp, rfl⟩ := List.mem_map.1 hd
    rw [List.mem_singleton.1 hd', (hdue p hp).1]
    exact (hdue p hp).2

theorem map_number (h : e.Turns target s ran added s') :
    added.map (·.1.number) = List.range' (Clocked.timers s).scheduled added.length ∧
      (Clocked.timers s').scheduled = (Clocked.timers s).scheduled + added.length := by
  induction h with
  | refl => exact ⟨rfl, rfl⟩
  | @turn s s' p ran added _ _ _ _ ih =>
    have hnow : (Clocked.timers (e.turned s p)).scheduled =
        (Clocked.timers s).scheduled + (e.added s p).length := by
      rw [timers_turned, Timers.scheduled_scheduleAll, Errands.added, timers_reached]
      rfl
    have hfirst : (e.added s p).map (·.1.number) =
        List.range' (Clocked.timers s).scheduled (e.added s p).length := by
      rw [Errands.added, Timers.map_number_alarms, timers_reached]
      rfl
    rw [hnow] at ih
    refine ⟨?_, ?_⟩
    · rw [List.map_append, hfirst, ih.1, List.length_append, List.range'_append_1]
    · rw [ih.2, List.length_append, Nat.add_assoc]

end Turns

/-! ### Sweeps -/

/-- A sweep up to a time, with the tasks that ran and those that were scheduled meanwhile: turns until nothing is
due. -/
def Sweeps (e : Errands σ α) (target : Duration) (s : σ) (ran : List (Firing α)) (added : List (Alarm × α)) (s' : σ) :
    Prop :=
  ∃ last, e.Turns target s ran added last ∧ (∀ p ∈ (Clocked.timers last).entries, target < p.1.due) ∧
    s' = Timers.setNow last target

private theorem turn_of_takeDue {rest : Timers α} {task : α}
    (h : (Clocked.timers s).takeDue target = some (task, rest)) :
    ∃ a, (a, task) ∈ (Clocked.timers s).entries ∧ a.due ≤ target ∧
      (∀ q ∈ (Clocked.timers s).entries, (compare a q.1).isLE) ∧
      e.run task (Clocked.withTimers s rest) = e.turned s (a, task) := by
  obtain ⟨a, ha, hdue, hfirst, rfl⟩ := Timers.takeDue_eq_some_iff.1 h
  exact ⟨a, Timers.mem_entries.2 ha, hdue, Timers.forall_mem_waiting.1 hfirst, rfl⟩

/-- A sweep that ends takes its turns. -/
theorem exists_sweeps {before bound : Nat} {answer : Nat × σ}
    (h : Timers.sweepFrom before e.run target bound s = some answer) :
    ∃ ran added, e.Sweeps target s ran added answer.2 ∧ answer.1 = before + ran.length ∧ ran.length ≤ bound := by
  refine Timers.sweepFrom_induction (motive := fun before bound s =>
    ∃ ran added, e.Sweeps target s ran added answer.2 ∧ answer.1 = before + ran.length ∧ ran.length ≤ bound) ?_ ?_ h
  · rintro before bound s htake rfl
    have hlater := Timers.forall_mem_waiting.1 (Timers.takeDue_eq_none_iff.1 htake)
    exact ⟨[], [], ⟨s, .refl s, hlater, rfl⟩, rfl, Nat.zero_le _⟩
  · rintro before bound s task rest htake ⟨ran, added, ⟨last, hturns, hlater, hend⟩, hcount, hbound⟩
    obtain ⟨a, hwaits, hdue, hfirst, hturned⟩ := turn_of_takeDue (e := e) htake
    rw [hturned] at hturns
    exact ⟨_, _, ⟨last, .turn hwaits hfirst hdue hturns, hlater, hend⟩, by rw [hcount, List.length_cons]; omega,
      Nat.succ_le_succ hbound⟩

/-- A sweep ends if no more tasks fall due than its bound allows. -/
theorem exists_sweepFrom {bound : Nat}
    (h : ∀ ran added s', e.Turns target s ran added s' → ran.length ≤ bound) (before : Nat) :
    ∃ answer, Timers.sweepFrom before e.run target bound s = some answer := by
  induction bound generalizing s before with
  | zero =>
    cases htake : (Clocked.timers s).takeDue target with
    | none => exact ⟨_, Timers.sweepFrom_of_none htake⟩
    | some p =>
      obtain ⟨a, hwaits, hdue, hfirst, -⟩ := turn_of_takeDue (e := e) htake
      exact absurd (h _ _ _ (.turn hwaits hfirst hdue (.refl _))) (by simp)
  | succ bound ih =>
    cases htake : (Clocked.timers s).takeDue target with
    | none => exact ⟨_, Timers.sweepFrom_of_none htake⟩
    | some p =>
      obtain ⟨a, hwaits, hdue, hfirst, hturned⟩ := turn_of_takeDue (e := e) htake
      rw [Timers.sweepFrom_of_some htake, hturned]
      refine ih ?_ (before + 1)
      intro ran added s' hturns
      exact Nat.le_of_succ_le_succ (h _ _ _ (.turn hwaits hfirst hdue hturns))

/-- No more tasks fall due than the bound of a sweep that ends allows. -/
theorem Turns.length_le (h : e.Turns target s ran added s') {before bound : Nat} {answer : Nat × σ}
    (hsweep : Timers.sweepFrom before e.run target bound s = some answer) : ran.length ≤ bound := by
  induction h generalizing before bound with
  | refl => exact Nat.zero_le _
  | @turn s s' p ran added hp hfirst hdue _ ih =>
    have htake : (Clocked.timers s).takeDue target = some (p.2, (Clocked.timers s).reach p.1) :=
      Timers.takeDue_eq_some_iff.2 ⟨p.1, Timers.mem_entries.1 hp, hdue, Timers.forall_mem_waiting.2 hfirst, rfl⟩
    cases bound with
    | zero =>
      rw [Timers.sweepFrom, htake] at hsweep
      cases hsweep
    | succ bound =>
      rw [Timers.sweepFrom_of_some htake] at hsweep
      exact Nat.succ_le_succ (ih hsweep)

/-! ### Histories -/

/-- All that can happen to a clock from its beginning, with every task that was scheduled and every one that ran.  The
host schedules tasks and moves the clock, and in between the state may change as it likes, apart from the clock. -/
inductive History (e : Errands σ α) : List (Alarm × α) → List (Firing α) → σ → Prop
  | start {s : σ} (hstart : Clocked.timers s = .start) : History e [] [] s
  | schedule {added : List (Alarm × α)} {ran : List (Firing α)} {s : σ} (h : History e added ran s) (delay : Duration)
      (task : α) :
      History e (added ++ [((Clocked.timers s).alarm delay, task)]) ran
        (Clocked.withTimers s ((Clocked.timers s).schedule delay task))
  | advance {added added' : List (Alarm × α)} {ran ran' : List (Firing α)} {s s' : σ} (h : History e added ran s)
      (elapsed : Duration) (hsweeps : e.Sweeps ((Clocked.timers s).now + elapsed) s ran' added' s') :
      History e (added ++ added') (ran ++ ran') s'
  | elsewhere {added : List (Alarm × α)} {ran : List (Firing α)} {s s' : σ} (h : History e added ran s)
      (htimers : Clocked.timers s' = Clocked.timers s) : History e added ran s'

/-- What is true of a clock at every time, given every task that was scheduled and every one that ran. -/
structure Accounted (added : List (Alarm × α)) (ran : List (Firing α)) (s : σ) : Prop where
  /-- the numbers of tasks say in which order they were scheduled -/
  numbered : added.map (·.1.number) = List.range (Clocked.timers s).scheduled
  /-- no two tasks share an alarm -/
  distinct : (added.map (·.1)).Nodup
  /-- no task is lost, and none runs twice -/
  kept : (added : Multiset (Alarm × α)) = (ran.map Firing.entry : Multiset (Alarm × α)) + (Clocked.timers s).entries
  /-- no task that waits lies behind the clock -/
  ahead : ∀ p ∈ (Clocked.timers s).entries, (Clocked.timers s).now ≤ p.1.due

theorem entries_setNow (s : σ) (now : Duration) :
    (Clocked.timers (Timers.setNow s now)).entries = (Clocked.timers s).entries := by
  rw [Timers.setNow, Clocked.timers_withTimers]
  rfl

private theorem nodup_of_numbered {n : Nat} (h : added.map (·.1.number) = List.range n) :
    (added.map (·.1)).Nodup := by
  have hnumbers : ((added.map (·.1)).map Alarm.number).Nodup := by
    rw [List.map_map]
    exact h ▸ List.nodup_range
  exact hnumbers.of_map

theorem History.accounted (h : e.History added ran s) : Accounted added ran s := by
  induction h with
  | start hstart =>
    refine ⟨by rw [hstart]; rfl, List.nodup_nil, by rw [hstart]; rfl, ?_⟩
    rw [hstart, Timers.entries_start]
    exact fun p hp => absurd hp (Multiset.notMem_zero p)
  | @schedule added ran s _ delay task ih =>
    have htimers : Clocked.timers (Clocked.withTimers s ((Clocked.timers s).schedule delay task)) =
        (Clocked.timers s).schedule delay task := Clocked.timers_withTimers _ _
    have hnumbered : (added ++ [((Clocked.timers s).alarm delay, task)]).map (·.1.number) =
        List.range ((Clocked.timers s).scheduled + 1) := by
      rw [List.map_append, ih.numbered, List.range_succ]
      rfl
    refine ⟨by rw [htimers]; exact hnumbered, nodup_of_numbered hnumbered, ?_, ?_⟩
    · rw [htimers, Timers.entries_schedule, Multiset.add_cons, ← ih.kept, ← Multiset.coe_add, Multiset.coe_singleton,
        Multiset.add_comm, Multiset.singleton_add]
    · rw [htimers, Timers.entries_schedule]
      intro p hp
      rcases Multiset.mem_cons.1 hp with rfl | hp
      · exact Duration.le_add _ _
      · exact ih.ahead p hp
  | @advance added added' ran ran' s s' _ elapsed hsweeps ih =>
    obtain ⟨last, hturns, hlater, rfl⟩ := hsweeps
    obtain ⟨hnew, hscheduled⟩ := hturns.map_number
    have hnumbered : (added ++ added').map (·.1.number) = List.range (Clocked.timers last).scheduled := by
      rw [List.map_append, ih.numbered, hnew, hscheduled, List.range_eq_range', List.range_eq_range',
        ← List.range'_append_1, Nat.zero_add]
    refine ⟨?_, nodup_of_numbered hnumbered, ?_, ?_⟩
    · rw [Timers.setNow, Clocked.timers_withTimers]
      exact hnumbered
    · rw [entries_setNow, ← Multiset.coe_add, ih.kept, Multiset.add_assoc, hturns.entries, List.map_append,
        ← Multiset.coe_add, Multiset.add_assoc]
    · rw [entries_setNow, Timers.setNow, Clocked.timers_withTimers]
      exact fun p hp => Nat.le_of_lt (hlater p hp)
  | elsewhere _ htimers ih =>
    refine ⟨?_, ih.distinct, ?_, ?_⟩ <;> rw [htimers]
    · exact ih.numbered
    · exact ih.kept
    · exact ih.ahead

/-! ### Steps of the clock -/

/-- What a step of the clock does, given the tasks that it ran and those that were scheduled meanwhile. -/
structure Stepped (elapsed : Duration) (s : σ) (ran : List (Firing α)) (added : List (Alarm × α)) (count : Nat)
    (s' : σ) : Prop where
  target : (Clocked.timers s').now.nanos = min ((Clocked.timers s).now.nanos + elapsed.nanos) Duration.maxNanos
  count_eq : count = ran.length
  /-- those tasks ran that fall due by the target, each of them once -/
  exactly : (ran.map Firing.entry : Multiset (Alarm × α)) =
    ((Clocked.timers s).entries + added).filter (·.1.due ≤ (Clocked.timers s').now)
  in_order : ran.Pairwise fun p q => compare p.alarm q.alarm = .lt
  on_time : ∀ p ∈ ran, p.now = p.alarm.due
  forward : ((Clocked.timers s).now :: (ran.map (·.now) ++ [(Clocked.timers s').now])).Pairwise (· ≤ ·)
  /-- those tasks still wait that fall due later -/
  left : (Clocked.timers s').entries =
    ((Clocked.timers s).entries + added).filter ((Clocked.timers s').now < ·.1.due)
  pending : (Clocked.timers s').size =
    (((Clocked.timers s).entries + added).filter ((Clocked.timers s').now < ·.1.due)).card

private theorem filter_split {P : Alarm × α → Prop} [DecidablePred P] {Q : Alarm × α → Prop} [DecidablePred Q]
    {m m' : Multiset (Alarm × α)} (hm : ∀ p ∈ m, P p ∧ ¬Q p) (hm' : ∀ p ∈ m', Q p ∧ ¬P p) :
    (m + m').filter P = m ∧ (m + m').filter Q = m' := by
  rw [Multiset.filter_add, Multiset.filter_add, Multiset.filter_eq_self.2 fun p hp => (hm p hp).1,
    Multiset.filter_eq_nil.2 fun p hp => (hm' p hp).2, Multiset.filter_eq_nil.2 fun p hp => (hm p hp).2,
    Multiset.filter_eq_self.2 fun p hp => (hm' p hp).1, Multiset.add_zero, Multiset.zero_add]
  exact ⟨rfl, rfl⟩

theorem Sweeps.stepped {elapsed : Duration}
    (hahead : ∀ p ∈ (Clocked.timers s).entries, (Clocked.timers s).now ≤ p.1.due)
    (h : e.Sweeps ((Clocked.timers s).now + elapsed) s ran added s') :
    Stepped elapsed s ran added ran.length s' := by
  obtain ⟨last, hturns, hlater, rfl⟩ := h
  have hnow : (Clocked.timers (Timers.setNow last ((Clocked.timers s).now + elapsed))).now =
      (Clocked.timers s).now + elapsed := by
    rw [Timers.setNow, Clocked.timers_withTimers]
  have hdue : ∀ p ∈ (ran.map Firing.entry : Multiset (Alarm × α)),
      p.1.due ≤ (Clocked.timers s).now + elapsed ∧ ¬(Clocked.timers s).now + elapsed < p.1.due := by
    intro p hp
    obtain ⟨q, hq, rfl⟩ := List.mem_map.1 (Multiset.mem_coe.1 hp)
    exact ⟨(hturns.on_time q hq).2, Nat.not_lt.2 (hturns.on_time q hq).2⟩
  have hwaits : ∀ p ∈ (Clocked.timers last).entries,
      (Clocked.timers s).now + elapsed < p.1.due ∧ ¬p.1.due ≤ (Clocked.timers s).now + elapsed :=
    fun p hp => ⟨hlater p hp, Nat.not_le.2 (hlater p hp)⟩
  obtain ⟨hran, hleft⟩ := filter_split hdue hwaits
  rw [← hturns.entries] at hran hleft
  refine ⟨by rw [hnow]; rfl, rfl, by rw [hnow, hran], hturns.in_order,
    fun p hp => (hturns.on_time p hp).1, ?_, ?_, ?_⟩
  · rw [hnow]
    exact hturns.forward hahead (Duration.le_add _ _)
  · rw [hnow, entries_setNow, hleft]
  · rw [hnow, hleft, ← Timers.card_entries, entries_setNow]

/-- A step of the clock after any history, if only finitely many tasks fall due in it, runs exactly those that fall
due by its end, also if they are scheduled meanwhile: each once, in the order of due times and of scheduling, and
when the clock shows the due time.  The answer counts them, and all others wait for a later time.  These tasks are
those of the turns that the sweep takes from the state before it to the state after it. -/
theorem advance_runs_due (e : Errands σ α) {added : List (Alarm × α)} {ran : List (Firing α)} {s : σ}
    (h : e.History added ran s) (elapsed : Duration)
    (hfinite : ∃ most, ∀ ran' added' s', e.Turns ((Clocked.timers s).now + elapsed) s ran' added' s' →
      ran'.length ≤ most) :
    ∃ count s' ran' added',
      (∃ bound, Timers.sweep e.run ((Clocked.timers s).now + elapsed) bound s = some (count, s')) ∧
      (∀ bound answer, Timers.sweep e.run ((Clocked.timers s).now + elapsed) bound s = some answer →
        answer = (count, s')) ∧
      e.Sweeps ((Clocked.timers s).now + elapsed) s ran' added' s' ∧ Stepped elapsed s ran' added' count s' ∧
      e.History (added ++ added') (ran ++ ran') s' ∧ Accounted (added ++ added') (ran ++ ran') s' := by
  obtain ⟨most, hmost⟩ := hfinite
  obtain ⟨answer, hsweep⟩ := exists_sweepFrom hmost 0
  obtain ⟨ran', added', hsweeps, hcount, -⟩ := exists_sweeps hsweep
  rw [Nat.zero_add] at hcount
  have hhistory := h.advance elapsed hsweeps
  refine ⟨answer.1, answer.2, ran', added', ⟨most, hsweep⟩, ?_, hsweeps, ?_, hhistory, hhistory.accounted⟩
  · intro bound answer' hsweep'
    exact Timers.sweepFrom_unique hsweep' hsweep
  · rw [hcount]
    exact hsweeps.stepped h.accounted.ahead

end Errands

/-! ### Tasks that count down -/

/-- A clock is a state by itself. -/
instance {α : Type} : Clocked (Timers α) α where
  timers ts := ts
  withTimers _ ts := ts
  timers_withTimers _ _ := rfl

/-- Numbers as tasks: each schedules the one before it, without a delay. -/
def countdown : Errands (Timers Nat) Nat where
  run n ts := ts.scheduleAll (if n = 0 then [] else [(0, n - 1)])
  orders n _ := if n = 0 then [] else [(0, n - 1)]
  timers_run _ _ := rfl

theorem Errands.advance_runs_due_countdown :
    let ts : Timers Nat := Timers.start.schedule (.ofNanos 1) 2
    ∃ ts' ran added,
      (∃ bound, Timers.sweep countdown.run (ts.now + .ofNanos 1) bound ts = some (3, ts')) ∧
      countdown.Sweeps (ts.now + .ofNanos 1) ts ran added ts' ∧ Stepped (.ofNanos 1) ts ran added 3 ts' := by
  intro ts
  have hhistory : countdown.History [(Timers.start.alarm (.ofNanos 1), 2)] [] ts :=
    .schedule (.start rfl) (.ofNanos 1) 2
  have hcount : (Timers.sweep countdown.run (ts.now + .ofNanos 1) 3 ts).map (·.1) = some 3 := by cbv
  obtain ⟨⟨count, ts'⟩, hsweep, rfl⟩ := Option.map_eq_some_iff.1 hcount
  obtain ⟨count, last, ran, added, -, hunique, hsweeps, hstepped, -⟩ :=
    advance_runs_due countdown hhistory (.ofNanos 1) ⟨3, fun _ _ _ hturns => hturns.length_le hsweep⟩
  obtain ⟨rfl, rfl⟩ := Prod.mk.inj (hunique 3 _ hsweep)
  exact ⟨_, ran, added, ⟨3, hsweep⟩, hsweeps, hstepped⟩

/-! ### Branches of chains -/

/-- The branches of chains that wait on the clock of a world are such tasks: what one schedules when it goes on are
the pauses on its way. -/
def World.errands (host : Host) : Errands World Continuation where
  run := resume host
  orders k w := (nextStint host k w).pauses
  timers_run k w := by
    change (resume host k w).timers = _
    rw [resume_eq, Walk.outcome_timers]
    rfl

end ScriptGraph
