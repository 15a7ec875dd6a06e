import Mathlib.Data.Multiset.Filter
import ScriptGraph.Timers

/-!
# Waiting tasks

`Timers.tasks` are the tasks that wait on a clock, each as often as it waits, and `Timers.dues` are these tasks with
the times at which they fall due.  Scheduling adds a task (`tasks_schedule`, `dues_schedule`), and reaching an alarm
takes its task away (`tasks_reach`, `dues_takeDue`).  Both come from the same facts about alarms, which `entries`
keeps.
-/

namespace ScriptGraph.Timers

variable {α : Type}

/-- The tasks that wait. -/
def tasks (ts : Timers α) : Multiset α := (ts.waiting.toList.map (·.2) : List α)

/-- The tasks that wait with the times at which they fall due. -/
def dues (ts : Timers α) : Multiset (Duration × α) := (ts.waiting.toList.map fun p => (p.1.due, p.2) : List _)

/-- The tasks that wait with their alarms. -/
def entries (ts : Timers α) : Multiset (Alarm × α) := (ts.waiting.toList : List _)

theorem mem_entries {ts : Timers α} {p : Alarm × α} : p ∈ ts.entries ↔ ts.waiting[p.1]? = some p.2 :=
  Multiset.mem_coe.trans Std.TreeMap.mem_toList_iff_getElem?_eq_some

theorem card_entries (ts : Timers α) : ts.entries.card = ts.size := by
  simp [entries, size, Std.TreeMap.length_toList]

theorem card_tasks (ts : Timers α) : ts.tasks.card = ts.size := by
  simp [tasks, size, Std.TreeMap.length_toList]

/-! ### Alarms -/

private theorem nodup_toList (m : Std.TreeMap Alarm α) : m.toList.Nodup := by
  refine m.distinct_keys_toList.imp ?_
  intro p q hpq heq
  rw [heq] at hpq
  exact hpq Std.ReflCmp.compare_self

private theorem toList_perm_cons {m m' : Std.TreeMap Alarm α} {a : Alarm} {task : α} (ha : m'[a]? = none)
    (h : ∀ b t, m[b]? = some t ↔ b = a ∧ t = task ∨ m'[b]? = some t) : m.toList.Perm ((a, task) :: m'.toList) := by
  rw [List.perm_ext_iff_of_nodup (nodup_toList m)]
  · rintro ⟨b, t⟩
    rw [List.mem_cons, Std.TreeMap.mem_toList_iff_getElem?_eq_some, Std.TreeMap.mem_toList_iff_getElem?_eq_some, h,
      Prod.mk.injEq]
  · refine List.nodup_cons.2 ⟨?_, nodup_toList m'⟩
    rw [Std.TreeMap.mem_toList_iff_getElem?_eq_some, ha]
    simp

private theorem perm_schedule (ts : Timers α) (delay : Duration) (task : α) :
    (ts.schedule delay task).waiting.toList.Perm ((ts.alarm delay, task) :: ts.waiting.toList) := by
  have hnew : ts.waiting[ts.alarm delay]? = none :=
    Std.TreeMap.getElem?_eq_none (ts.alarm_not_mem delay)
  apply toList_perm_cons hnew
  intro b t
  simp only [schedule, Std.TreeMap.getElem?_insert, Std.LawfulEqCmp.compare_eq_iff_eq]
  by_cases hb : ts.alarm delay = b
  · subst hb
    simp [hnew, eq_comm]
  · simp [hb, Ne.symm hb]

private theorem perm_reach {ts : Timers α} {a : Alarm} {task : α} (h : ts.waiting[a]? = some task) :
    ts.waiting.toList.Perm ((a, task) :: (ts.reach a).waiting.toList) := by
  apply toList_perm_cons Std.TreeMap.getElem?_erase_self
  intro b t
  simp only [Std.TreeMap.getElem?_erase, Std.LawfulEqCmp.compare_eq_iff_eq]
  by_cases hb : a = b
  · subst hb
    simp [h, eq_comm]
  · simp [hb, Ne.symm hb]

/-! ### Tasks with their alarms -/

theorem entries_start : (start : Timers α).entries = 0 := rfl

theorem entries_schedule (ts : Timers α) (delay : Duration) (task : α) :
    (ts.schedule delay task).entries = (ts.alarm delay, task) ::ₘ ts.entries :=
  Multiset.coe_eq_coe.2 (perm_schedule ts delay task)

theorem entries_reach {ts : Timers α} {a : Alarm} {task : α} (h : ts.waiting[a]? = some task) :
    ts.entries = (a, task) ::ₘ (ts.reach a).entries :=
  Multiset.coe_eq_coe.2 (perm_reach h)

/-! ### Tasks -/

/-- Scheduling adds a task to those that wait. -/
theorem tasks_schedule (ts : Timers α) (delay : Duration) (task : α) :
    (ts.schedule delay task).tasks = task ::ₘ ts.tasks :=
  Multiset.coe_eq_coe.2 ((perm_schedule ts delay task).map (·.2))

/-- Reaching an alarm takes its task away. -/
theorem tasks_reach {ts : Timers α} {a : Alarm} {task : α} (h : ts.waiting[a]? = some task) :
    ts.tasks = task ::ₘ (ts.reach a).tasks :=
  Multiset.coe_eq_coe.2 ((perm_reach h).map (·.2))

/-- A task that is taken does not wait any longer. -/
theorem tasks_takeDue {ts rest : Timers α} {target : Duration} {task : α}
    (h : ts.takeDue target = some (task, rest)) : ts.tasks = task ::ₘ rest.tasks := by
  obtain ⟨a, ha, -, -, rfl⟩ := takeDue_eq_some_iff.1 h
  exact tasks_reach ha

/-! ### Tasks with their times -/

/-- A task falls due when its delay from now has passed. -/
theorem dues_schedule (ts : Timers α) (delay : Duration) (task : α) :
    (ts.schedule delay task).dues = (ts.now + delay, task) ::ₘ ts.dues :=
  Multiset.coe_eq_coe.2 ((perm_schedule ts delay task).map fun p => (p.1.due, p.2))

/-- A task that is taken falls due at the time that the clock shows then. -/
theorem dues_takeDue {ts rest : Timers α} {target : Duration} {task : α}
    (h : ts.takeDue target = some (task, rest)) : ts.dues = (rest.now, task) ::ₘ rest.dues := by
  obtain ⟨a, ha, -, -, rfl⟩ := takeDue_eq_some_iff.1 h
  exact Multiset.coe_eq_coe.2 ((perm_reach ha).map fun p => (p.1.due, p.2))

/-! ### A task that waits alone -/

private theorem not_mem_of_size_eq_zero {ts : Timers α} (h : ts.size = 0) (a : Alarm) : a ∉ ts.waiting :=
  Std.TreeMap.not_mem_of_isEmpty (Std.TreeMap.isEmpty_eq_size_eq_zero.trans (beq_iff_eq.2 h))

theorem takeDue_of_size_eq_zero {ts : Timers α} (h : ts.size = 0) (target : Duration) : ts.takeDue target = none :=
  takeDue_eq_none_iff.2 fun a ha => absurd ha (not_mem_of_size_eq_zero h a)

/-- A task that waits alone is taken when it falls due. -/
theorem takeDue_schedule {ts : Timers α} (h : ts.size = 0) {delay target : Duration} (task : α)
    (hdue : ts.now + delay ≤ target) :
    ∃ rest, (ts.schedule delay task).takeDue target = some (task, rest) ∧ rest.size = 0 := by
  have hfirst : ∀ b ∈ (ts.schedule delay task).waiting, (compare (ts.alarm delay) b).isLE := by
    intro b hb
    rcases Std.TreeMap.mem_insert.1 hb with heq | hb
    · rw [heq]
      rfl
    · exact absurd hb (not_mem_of_size_eq_zero h b)
  have htake := takeDue_eq_some_iff.2 ⟨ts.alarm delay, Std.TreeMap.getElem?_insert_self, hdue, hfirst, rfl⟩
  have hsize := size_of_takeDue htake
  rw [size_schedule, h] at hsize
  exact ⟨_, htake, by omega⟩

end ScriptGraph.Timers
