import Mathlib.Logic.Relation
import ScriptGraph.Proofs.WaitingTasks
import ScriptGraph.Timers.WakeQueue

/-!
# Wake queues that are shared

Tasks are scheduled, wake and are taken by many threads at a time.  Every access to the count of sleeping tasks, to
the timers and to the queue is a step of its own (`Step`), and the steps of all threads come in any order.  A timer
may fire at any moment, so nothing depends on how time passes.

Each task is in one place at any time: it sleeps, it is in the queue, or it was taken (`Sound.placed`).  The count
holds those that sleep and those that are in the queue but whose timers have not come to the end (`Sound.counted`),
because a timer sends its task before it takes itself out of the count.  So who reads zero knows that all tasks are
in the queue or were taken, and tasks never go back; if the queue is empty when it is read after that, they were taken
(`hides_nothing`).  With either pair of steps the other way round this would not hold.
-/

namespace ScriptGraph.WakeQueue

open Relation (ReflTransGen)

variable {α : Type}

/-! ### Single accesses -/

/-- A task is counted as sleeping. -/
def announce (q : WakeQueue α) : WakeQueue α := { q with asleep := q.asleep + 1 }

/-- A timer starts for a task that is counted already. -/
def startTimer (q : WakeQueue α) (delay : Duration) (task : α) : WakeQueue α :=
  { q with timers := q.timers.schedule delay task }

/-- The timer with an alarm fires: its task joins the queue. -/
def send (q : WakeQueue α) (a : Alarm) : Option (WakeQueue α) :=
  q.timers.waiting[a]?.map fun task => { q with timers := q.timers.reach a, ready := q.ready ++ [task] }

/-- Waking is one of the timers that fire: the one with the first alarm. -/
theorem exists_send_of_wake {q q' : WakeQueue α} {target : Duration} (h : q.wake target = some q') :
    ∃ a, q.send a = some q' := by
  obtain ⟨⟨task, rest⟩, htake, rfl⟩ := Option.map_eq_some_iff.1 h
  obtain ⟨a, ha, -, -, rfl⟩ := Timers.takeDue_eq_some_iff.1 htake
  exact ⟨a, by rw [send, ha]; rfl⟩

/-! ### Threads -/

/-- A call of a host that has begun, and how far it is.  Tasks are numbered in the order in which they are scheduled;
`before` of them had been when the call began. -/
inductive Call (α : Type) where
  /-- asks for the number of tasks that are not taken yet -/
  | pending (before : Nat)
  /-- has read how many tasks sleep -/
  | pendingAsleep (before asleep : Nat)
  /-- asks for the next task -/
  | next (before : Nat)
  /-- has read that no task sleeps -/
  | nextIdle (before : Nat)
  | nextWaiting
  | nextRunning (job : Nat × α)
  | nextDone
  /-- asks for all tasks that are in the queue, and has run some -/
  | all (ran : Nat)
  | allRunning (ran : Nat) (job : Nat × α)

/-- What a call answers. -/
inductive Answer where
  | pending (before count : Nat)
  /-- no next task, without waiting for one -/
  | idle (before : Nat)
  /-- no next task after waiting -/
  | timeout
  | next
  | all (ran : Nat)

namespace Call

/-- The calls that take a task from the queue. -/
def waits : Call α → Bool
  | nextWaiting | all _ => true
  | _ => false

/-- A call that took a task. -/
def holding (job : Nat × α) : Call α → Call α
  | all ran => allRunning ran job
  | _ => nextRunning job

/-- The task that a call took and has not run yet. -/
def held? : Call α → Option (Nat × α)
  | nextRunning job | allRunning _ job => some job
  | _ => none

/-- A call after it ran its task. -/
def after : Call α → Call α
  | allRunning ran _ => all (ran + 1)
  | _ => nextDone

/-- The calls that can begin when so many tasks have been scheduled. -/
inductive Begins (scheduled : Nat) : Call α → Prop
  | pending : Begins scheduled (.pending scheduled)
  | next : Begins scheduled (.next scheduled)
  | all : Begins scheduled (.all 0)

/-- How a call goes on when it reads the count or the queue. -/
inductive Looks (q : WakeQueue (Nat × α)) : Call α → Call α → Prop
  | pending (before : Nat) : Looks q (.pending before) (.pendingAsleep before q.asleep)
  | idle (before : Nat) (hasleep : q.asleep = 0) : Looks q (.next before) (.nextIdle before)
  | busy (before : Nat) (hasleep : q.asleep ≠ 0) : Looks q (.next before) .nextWaiting
  | ready (before : Nat) (hready : q.ready ≠ []) : Looks q (.nextIdle before) .nextWaiting

/-- How a call ends. -/
inductive Answers (q : WakeQueue (Nat × α)) : Call α → Answer → Prop
  | pending (before asleep : Nat) :
      Answers q (.pendingAsleep before asleep) (.pending before (asleep + q.ready.length))
  | idle (before : Nat) (hready : q.ready = []) : Answers q (.nextIdle before) (.idle before)
  | timeout : Answers q .nextWaiting .timeout
  | next : Answers q .nextDone .next
  | all (ran : Nat) (hready : q.ready = []) : Answers q (.all ran) (.all ran)

end Call

/-- A wake queue with the threads that use it. -/
structure Traffic (α : Type) where
  queue : WakeQueue (Nat × α)
  /-- the number of tasks that were scheduled -/
  scheduled : Nat
  /-- tasks that are counted, but whose timers have not started -/
  starting : Multiset (Duration × Nat × α)
  /-- the number of timers that sent their tasks, but are still counted -/
  settling : Nat
  calls : Multiset (Call α)
  /-- the tasks that were taken, in this order -/
  taken : List (Nat × α)
  /-- the tasks that were run, in this order -/
  ran : List (Nat × α)

namespace Traffic

/-- Nothing was scheduled and nobody calls. -/
def start : Traffic α := ⟨.start, 0, 0, 0, 0, [], []⟩

/-- The tasks that were scheduled and did not join the queue yet. -/
def sleeping (s : Traffic α) : Multiset (Nat × α) := s.starting.map (·.2) + s.queue.timers.tasks

/-- The numbers of the tasks that joined the queue. -/
def arrived (s : Traffic α) : List Nat := (s.queue.ready ++ s.taken).map (·.1)

end Traffic

/-- One access by one thread, with the answer if it ends a call. -/
inductive Step (s : Traffic α) : Option Answer → Traffic α → Prop
  | announce (delay : Duration) (task : α) :
      Step s none { s with
        queue := s.queue.announce
        scheduled := s.scheduled + 1
        starting := (delay, s.scheduled, task) ::ₘ s.starting }
  | startTimer {delay : Duration} {job : Nat × α} {rest : Multiset (Duration × Nat × α)}
      (hstarting : s.starting = (delay, job) ::ₘ rest) :
      Step s none { s with queue := s.queue.startTimer delay job, starting := rest }
  | tick (now : Duration) :
      Step s none { s with queue := { s.queue with timers := { s.queue.timers with now } } }
  | send {a : Alarm} {q : WakeQueue (Nat × α)} (hsend : s.queue.send a = some q) :
      Step s none { s with queue := q, settling := s.settling + 1 }
  | settle {n : Nat} (hsettling : s.settling = n + 1) :
      Step s none { s with queue := s.queue.settle, settling := n }
  | begin {c : Call α} (hbegins : c.Begins s.scheduled) : Step s none { s with calls := c ::ₘ s.calls }
  | look {c c' : Call α} {rest : Multiset (Call α)} (hcalls : s.calls = c ::ₘ rest) (hlooks : c.Looks s.queue c') :
      Step s none { s with calls := c' ::ₘ rest }
  | take {c : Call α} {rest : Multiset (Call α)} {job : Nat × α} {q : WakeQueue (Nat × α)}
      (hcalls : s.calls = c ::ₘ rest) (hwaits : c.waits) (htake : s.queue.take = some (job, q)) :
      Step s none { s with queue := q, calls := c.holding job ::ₘ rest, taken := s.taken ++ [job] }
  | run {c : Call α} {rest : Multiset (Call α)} {job : Nat × α} (hcalls : s.calls = c ::ₘ rest)
      (hheld : c.held? = some job) : Step s none { s with calls := c.after ::ₘ rest, ran := s.ran ++ [job] }
  | answer {c : Call α} {answer : Answer} {rest : Multiset (Call α)} (hcalls : s.calls = c ::ₘ rest)
      (hanswers : c.Answers s.queue answer) : Step s (some answer) { s with calls := rest }

/-- The states that the steps of any threads lead to. -/
abbrev Reached (s : Traffic α) : Prop := ReflTransGen (fun s s' => ∃ answer, Step s answer s') .start s

/-! ### What holds at every moment -/

/-- What a call knows of the tasks that were scheduled before it began. -/
def Call.Knows (scheduled : Nat) (arrived : List Nat) : Call α → Prop
  | pending before | next before => before ≤ scheduled
  | pendingAsleep before asleep => asleep = 0 → ∀ i < before, i ∈ arrived
  | nextIdle before => ∀ i < before, i ∈ arrived
  | _ => True

/-- What the steps keep. -/
structure Sound (s : Traffic α) : Prop where
  /-- each task is in one place -/
  placed : (List.range s.scheduled : Multiset Nat) = (s.sleeping + (s.queue.ready + s.taken)).map (·.1)
  counted : s.queue.asleep = s.sleeping.card + s.settling
  /-- each task that was taken was run, or will be by the call that took it -/
  held : (s.taken : Multiset (Nat × α)) = s.ran + s.calls.filterMap Call.held?
  knows : ∀ c ∈ s.calls, c.Knows s.scheduled s.arrived

variable {s s' : Traffic α} {answer : Option Answer}

/-! #### Calls -/

namespace Call

theorem Knows.mono {c : Call α} {scheduled scheduled' : Nat} {arrived arrived' : List Nat}
    (h : c.Knows scheduled arrived) (hscheduled : scheduled ≤ scheduled') (harrived : ∀ i ∈ arrived, i ∈ arrived') :
    c.Knows scheduled' arrived' := by
  cases c with
  | pending | next => exact Nat.le_trans h hscheduled
  | pendingAsleep => exact fun hasleep i hi => harrived i (h hasleep i hi)
  | nextIdle => exact fun i hi => harrived i (h i hi)
  | _ => trivial

private theorem Begins.knows {c : Call α} {scheduled : Nat} (h : c.Begins scheduled) (arrived : List Nat) :
    c.Knows scheduled arrived := by
  cases h with
  | pending | next => exact Nat.le_refl _
  | all => trivial

private theorem held?_of_looks {q : WakeQueue (Nat × α)} {c c' : Call α} (h : c.Looks q c') :
    c.held? = none ∧ c'.held? = none := by
  cases h <;> exact ⟨rfl, rfl⟩

private theorem held?_of_answers {q : WakeQueue (Nat × α)} {c : Call α} {a : Answer} (h : c.Answers q a) :
    c.held? = none := by
  cases h <;> rfl

private theorem held?_holding {c : Call α} (h : c.waits) (job : Nat × α) (scheduled : Nat) (arrived : List Nat) :
    c.held? = none ∧ (c.holding job).held? = some job ∧ (c.holding job).Knows scheduled arrived := by
  cases c with
  | nextWaiting | all => exact ⟨rfl, rfl, trivial⟩
  | _ => cases h

private theorem held?_after {c : Call α} {job : Nat × α} (h : c.held? = some job) (scheduled : Nat)
    (arrived : List Nat) : c.after.held? = none ∧ c.after.Knows scheduled arrived := by
  cases c with
  | nextRunning | allRunning => exact ⟨rfl, trivial⟩
  | _ => cases h

private theorem forall_replaced {P : Call α → Prop} {c c' : Call α} {calls rest : Multiset (Call α)}
    (hcalls : calls = c ::ₘ rest) (h : ∀ d ∈ calls, P d) (hc' : P c') : ∀ d ∈ c' ::ₘ rest, P d := by
  intro d hd
  rcases Multiset.mem_cons.1 hd with rfl | hd
  · exact hc'
  · exact h d (hcalls ▸ Multiset.mem_cons_of_mem hd)

end Call

/-- Who reads that no task sleeps knows that all tasks joined the queue. -/
theorem Sound.mem_arrived (h : Sound s) (hasleep : s.queue.asleep = 0) {i : Nat} (hi : i < s.scheduled) :
    i ∈ s.arrived := by
  have hcounted := h.counted
  have hcard : s.sleeping.card = 0 := by omega
  have hplaced := h.placed
  rw [Multiset.card_eq_zero.1 hcard, Multiset.zero_add, Multiset.coe_add, Multiset.map_coe] at hplaced
  rw [Traffic.arrived, ← Multiset.mem_coe, ← hplaced, Multiset.mem_coe, List.mem_range]
  exact hi

private theorem Sound.knows_of_looks (h : Sound s) {c c' : Call α} (hc : c ∈ s.calls) (hlooks : c.Looks s.queue c') :
    c'.Knows s.scheduled s.arrived := by
  have hbefore := h.knows c hc
  cases hlooks with
  | pending => exact fun hasleep i hi => h.mem_arrived hasleep (Nat.lt_of_lt_of_le hi hbefore)
  | idle _ hasleep => exact fun i hi => h.mem_arrived hasleep (Nat.lt_of_lt_of_le hi hbefore)
  | busy | ready => trivial

/-! #### Tasks that join the queue and leave it -/

private theorem coe_concat {β : Type} (l : List β) (b : β) : ((l ++ [b] : List β) : Multiset β) = b ::ₘ l :=
  Multiset.coe_eq_coe.2 (List.perm_append_singleton b l)

private theorem send_eq_some {β : Type} {q q' : WakeQueue β} {a : Alarm} (h : q.send a = some q') :
    ∃ job, q.timers.tasks = job ::ₘ q'.timers.tasks ∧ q'.ready = q.ready ++ [job] ∧ q'.asleep = q.asleep := by
  obtain ⟨job, hjob, rfl⟩ := Option.map_eq_some_iff.1 h
  exact ⟨job, Timers.tasks_reach hjob, rfl, rfl⟩

private theorem take_eq_some {β : Type} {q q' : WakeQueue β} {job : β} (h : q.take = some (job, q')) :
    q.ready = job :: q'.ready ∧ q'.asleep = q.asleep ∧ q'.timers = q.timers := by
  unfold take at h
  split at h
  · cases h
  · next hready =>
    cases h
    exact ⟨hready, rfl, rfl⟩

private theorem Sound.announce (h : Sound s) (delay : Duration) (task : α) :
    Sound { s with
      queue := s.queue.announce
      scheduled := s.scheduled + 1
      starting := (delay, s.scheduled, task) ::ₘ s.starting } := by
  have hplaced := h.placed
  have hcounted := h.counted
  refine ⟨?_, ?_, h.held, fun c hc => (h.knows c hc).mono (Nat.le_succ _) fun _ hi => hi⟩
  · simp only [Traffic.sleeping, WakeQueue.announce, Multiset.map_cons, Multiset.cons_add] at hplaced ⊢
    rw [← hplaced, List.range_succ, coe_concat]
  · simp only [Traffic.sleeping, WakeQueue.announce, Multiset.map_cons, Multiset.cons_add,
      Multiset.card_cons] at hcounted ⊢
    omega

private theorem Sound.send (h : Sound s) {a : Alarm} {q : WakeQueue (Nat × α)} (hsend : s.queue.send a = some q) :
    Sound { s with queue := q, settling := s.settling + 1 } := by
  obtain ⟨job, htasks, hready, hasleep⟩ := send_eq_some hsend
  have hplaced := h.placed
  have hcounted := h.counted
  refine ⟨?_, ?_, h.held, fun c hc => (h.knows c hc).mono (Nat.le_refl _) fun i hi => ?_⟩
  · simp only [Traffic.sleeping, htasks, hready, coe_concat, Multiset.add_cons, Multiset.cons_add] at hplaced ⊢
    exact hplaced
  · simp only [Traffic.sleeping, htasks, hasleep, Multiset.card_add, Multiset.card_cons] at hcounted ⊢
    omega
  · simp only [Traffic.arrived, hready, List.map_append, List.mem_append] at hi ⊢
    exact hi.imp_left .inl

private theorem Sound.take (h : Sound s) {c : Call α} {rest : Multiset (Call α)} {job : Nat × α}
    {q : WakeQueue (Nat × α)} (hcalls : s.calls = c ::ₘ rest) (hwaits : c.waits)
    (htake : s.queue.take = some (job, q)) :
    Sound { s with queue := q, calls := c.holding job ::ₘ rest, taken := s.taken ++ [job] } := by
  obtain ⟨hready, hasleep, htimers⟩ := take_eq_some htake
  have hplaced := h.placed
  have hcounted := h.counted
  have hheld := h.held
  have hmoved : ∀ i ∈ s.arrived, i ∈ (q.ready ++ (s.taken ++ [job])).map (·.1) := by
    intro i hi
    rw [Traffic.arrived, hready] at hi
    simp only [List.map_append, List.map_cons, List.map_nil, List.mem_append, List.mem_cons, List.cons_append,
      List.not_mem_nil, or_false] at hi ⊢
    tauto
  obtain ⟨hbefore, hafter, hknows⟩ := Call.held?_holding hwaits job s.scheduled
    ((q.ready ++ (s.taken ++ [job])).map (·.1))
  refine ⟨?_, ?_, ?_, ?_⟩
  · simp only [Traffic.sleeping, htimers, hready, coe_concat, ← Multiset.cons_coe, Multiset.add_cons,
      Multiset.cons_add] at hplaced ⊢
    exact hplaced
  · simp only [Traffic.sleeping, htimers, hasleep] at hcounted ⊢
    exact hcounted
  · rw [hcalls, Multiset.filterMap_cons_none _ _ hbefore] at hheld
    rw [Multiset.filterMap_cons_some _ _ _ hafter, Multiset.add_cons, ← hheld, coe_concat]
  · exact Call.forall_replaced hcalls (fun d hd => (h.knows d hd).mono (Nat.le_refl _) hmoved) hknows

/-! #### All steps -/

theorem Sound.start : Sound (.start : Traffic α) where
  placed := rfl
  counted := rfl
  held := rfl
  knows := by simp [Traffic.start]

/-- Every step keeps what holds. -/
theorem Sound.step (h : Sound s) (hstep : Step s answer s') : Sound s' := by
  cases hstep with
  | announce delay task => exact h.announce delay task
  | @startTimer delay job rest hstarting =>
    have hsleeping : rest.map (·.2) + (s.queue.startTimer delay job).timers.tasks = s.sleeping := by
      rw [Traffic.sleeping, hstarting, Multiset.map_cons, WakeQueue.startTimer, Timers.tasks_schedule,
        Multiset.add_cons, Multiset.cons_add]
    exact ⟨by rw [Traffic.sleeping, hsleeping]; exact h.placed, by rw [Traffic.sleeping, hsleeping]; exact h.counted,
      h.held, h.knows⟩
  | tick now => exact ⟨h.placed, h.counted, h.held, h.knows⟩
  | send hsend => exact h.send hsend
  | @settle n hsettling =>
    refine ⟨h.placed, ?_, h.held, h.knows⟩
    have hcounted := h.counted
    change s.queue.asleep - 1 = s.sleeping.card + n
    omega
  | @begin c hbegins =>
    refine ⟨h.placed, h.counted, ?_, ?_⟩
    · rw [Multiset.filterMap_cons_none _ _ (by cases hbegins <;> rfl)]
      exact h.held
    · exact Multiset.forall_mem_cons.2 ⟨hbegins.knows _, h.knows⟩
  | @look c c' rest hcalls hlooks =>
    obtain ⟨hbefore, hafter⟩ := Call.held?_of_looks hlooks
    have hheld := h.held
    rw [hcalls, Multiset.filterMap_cons_none _ _ hbefore] at hheld
    refine ⟨h.placed, h.counted, ?_, ?_⟩
    · rw [Multiset.filterMap_cons_none _ _ hafter]
      exact hheld
    · exact Call.forall_replaced hcalls h.knows (h.knows_of_looks (hcalls ▸ Multiset.mem_cons_self _ _) hlooks)
  | take hcalls hwaits htake => exact h.take hcalls hwaits htake
  | @run c rest job hcalls hjob =>
    obtain ⟨hafter, hknows⟩ := Call.held?_after hjob s.scheduled s.arrived
    have hheld := h.held
    rw [hcalls, Multiset.filterMap_cons_some _ _ _ hjob] at hheld
    refine ⟨h.placed, h.counted, ?_, Call.forall_replaced hcalls h.knows hknows⟩
    rw [hheld, Multiset.filterMap_cons_none _ _ hafter, coe_concat, Multiset.add_cons, Multiset.cons_add]
  | @answer c a rest hcalls hanswers =>
    have hheld := h.held
    rw [hcalls, Multiset.filterMap_cons_none _ _ (Call.held?_of_answers hanswers)] at hheld
    exact ⟨h.placed, h.counted, hheld, fun d hd => h.knows d (hcalls ▸ Multiset.mem_cons_of_mem hd)⟩

theorem Reached.sound (h : Reached s) : Sound s := by
  induction h with
  | refl => exact Sound.start
  | tail _ hstep ih =>
    obtain ⟨_, hstep⟩ := hstep
    exact ih.step hstep

/-! ### Calls without interruption -/

private theorem Reached.wake {target : Duration} {q : WakeQueue (Nat × α)} (h : Reached s)
    (hwake : s.queue.wake target = some q) : Reached { s with queue := q.settle } := by
  obtain ⟨a, hsend⟩ := exists_send_of_wake hwake
  have hsent : Reached { s with queue := q, settling := s.settling + 1 } := .tail h ⟨none, .send hsend⟩
  exact .tail hsent ⟨none, .settle rfl⟩

theorem Reached.schedule (h : Reached s) (delay : Duration) (task : α) :
    Reached { s with queue := s.queue.schedule delay (s.scheduled, task), scheduled := s.scheduled + 1 } := by
  have hannounced := ReflTransGen.tail h ⟨none, .announce delay task⟩
  exact .tail hannounced ⟨none, .startTimer rfl⟩

/-- A call that takes a task runs it and goes on. -/
private theorem Reached.takeAndRun {c : Call α} {q : WakeQueue (Nat × α)} {job : Nat × α}
    (h : Reached { s with calls := c ::ₘ s.calls }) (hwaits : c.waits) (htake : s.queue.take = some (job, q)) :
    Reached { s with
      queue := q, calls := (c.holding job).after ::ₘ s.calls, taken := s.taken ++ [job], ran := s.ran ++ [job] } := by
  have htaken := ReflTransGen.tail h ⟨none, .take rfl hwaits htake⟩
  exact .tail htaken ⟨none, .run rfl (Call.held?_holding hwaits job 0 []).2.1⟩

/-- Taking the next task is a call whose steps nobody interrupts. -/
theorem Reached.takeNext (h : Reached s) (timeout : Duration) :
    Reached { s with
      queue := (s.queue.takeNext timeout).2
      taken := s.taken ++ (s.queue.takeNext timeout).1.toList
      ran := s.ran ++ (s.queue.takeNext timeout).1.toList } := by
  have hbegun : Reached { s with calls := .next s.scheduled ::ₘ s.calls } := .tail h ⟨none, .begin .next⟩
  -- the call does not return at once if a task sleeps or is in the queue
  have hwaiting (hbusy : ¬(s.queue.asleep = 0 && s.queue.ready.isEmpty) = true) :
      Reached { s with calls := .nextWaiting ::ₘ s.calls } := by
    by_cases hasleep : s.queue.asleep = 0
    · have hready : s.queue.ready ≠ [] := fun hready => hbusy (by simp [hasleep, hready])
      have hidle := ReflTransGen.tail hbegun ⟨none, .look rfl (.idle s.scheduled hasleep)⟩
      exact .tail hidle ⟨none, .look rfl (.ready s.scheduled hready)⟩
    · exact .tail hbegun ⟨none, .look rfl (.busy s.scheduled hasleep)⟩
  unfold WakeQueue.takeNext
  split
  · next hidle =>
    simp only [Bool.and_eq_true, decide_eq_true_eq, List.isEmpty_iff] at hidle
    have hlooked := ReflTransGen.tail hbegun ⟨none, .look rfl (.idle s.scheduled hidle.1)⟩
    simpa using ReflTransGen.tail hlooked ⟨_, .answer rfl (.idle s.scheduled hidle.2)⟩
  · next hbusy =>
    have hwaiting := hwaiting hbusy
    split
    · next job q htake =>
      have hran := Reached.takeAndRun hwaiting rfl htake
      exact .tail hran ⟨_, .answer rfl .next⟩
    · dsimp only
      split
      · next job q hwoken =>
        obtain ⟨q', hwake, htake⟩ := Option.bind_eq_some_iff.1 hwoken
        have hwoke := Reached.wake hwaiting hwake
        have hran := Reached.takeAndRun (s := { s with queue := q'.settle }) hwoke rfl htake
        exact .tail hran ⟨_, .answer rfl .next⟩
      · have htimeout := ReflTransGen.tail hwaiting ⟨_, .answer rfl .timeout⟩
        simpa using ReflTransGen.tail htimeout ⟨none, .tick (s.queue.timers.now + timeout)⟩

private theorem Reached.wakeDue (h : Reached s) (count : Nat) :
    Reached { s with queue := WakeQueue.wakeDue count s.queue } := by
  induction count generalizing s with
  | zero => exact h
  | succ count ih =>
    unfold WakeQueue.wakeDue
    split
    · next q hwake => exact ih (h.wake hwake)
    · exact h

private theorem Reached.drain {ran : Nat} (h : Reached { s with calls := .all ran ::ₘ s.calls }) :
    Reached { s with
      queue := { s.queue with ready := [] }
      taken := s.taken ++ s.queue.ready
      ran := s.ran ++ s.queue.ready } := by
  obtain ⟨q, scheduled, starting, settling, calls, taken, done⟩ := s
  obtain ⟨timers, asleep, ready⟩ := q
  induction ready generalizing ran taken done with
  | nil => simpa using ReflTransGen.tail h ⟨_, .answer rfl (.all ran rfl)⟩
  | cons job ready ih =>
    have hran := Reached.takeAndRun (q := ⟨timers, asleep, ready⟩) h rfl rfl
    simpa using ih _ _ hran

/-- Taking all tasks that are awake is a call whose steps nobody interrupts. -/
theorem Reached.takeAll (h : Reached s) :
    Reached { s with
      queue := s.queue.takeAll.2, taken := s.taken ++ s.queue.takeAll.1, ran := s.ran ++ s.queue.takeAll.1 } := by
  have hwoken := h.wakeDue s.queue.timers.size
  have hbegun := ReflTransGen.tail hwoken ⟨none, .begin .all⟩
  exact Reached.drain hbegun

/-- What a call answers that counts the tasks while nothing happens. -/
theorem exists_answer_pending (s : Traffic α) :
    ∃ s₁ s₂ s₃, Step s none s₁ ∧ Step s₁ none s₂ ∧ Step s₂ (some (.pending s.scheduled s.queue.pending)) s₃ :=
  ⟨_, _, _, .begin .pending, .look rfl (.pending s.scheduled), .answer rfl (.pending s.scheduled s.queue.asleep)⟩

/-! ### Nothing is lost or hidden -/

private theorem nodup_of_add_le {β : Type} {a b : Multiset β} (h : (a + b).Nodup) : b.Nodup :=
  Multiset.nodup_of_le (Multiset.le_add_left b a) h

private theorem Sound.nodup (h : Sound s) : (s.taken.map (·.1)).Nodup ∧ (s.ran.map (·.1)).Nodup := by
  have hplaced := h.placed
  rw [Multiset.map_add, Multiset.map_add] at hplaced
  have hall : (List.range s.scheduled : Multiset Nat).Nodup := List.nodup_range
  rw [hplaced] at hall
  have htaken := nodup_of_add_le (nodup_of_add_le hall)
  refine ⟨htaken, ?_⟩
  rw [h.held, Multiset.map_add, Multiset.add_comm] at htaken
  exact nodup_of_add_le htaken

private theorem mem_taken_of_arrived (hready : s.queue.ready = []) {i : Nat} (hi : i ∈ s.arrived) :
    i ∈ s.taken.map (·.1) := by
  rwa [Traffic.arrived, hready, List.nil_append] at hi

private theorem eq_of_answer {a : Answer} (hstep : Step s (some a) s') :
    s'.taken = s.taken ∧ ∃ c ∈ s.calls, c.Answers s.queue a := by
  cases hstep with
  | @answer c _ rest hcalls hanswers => exact ⟨rfl, c, hcalls ▸ Multiset.mem_cons_self _ _, hanswers⟩

/-- Whatever the threads do, and in whatever order their steps come: every task is taken and run at most once; one
that was not taken yet sleeps, and is counted, or is in the queue; the count is positive when a timer takes itself
out; and when the number of tasks that are not taken yet is answered with zero, or no next task is there to wait
for, all tasks that had been scheduled before the call were taken. -/
theorem hides_nothing {s : Traffic α} (h : Reached s) :
    (s.taken.map (·.1)).Nodup ∧ (s.ran.map (·.1)).Nodup ∧ (∀ job ∈ s.ran, job ∈ s.taken) ∧
      (∀ i < s.scheduled, i ∉ s.taken.map (·.1) → i ∈ s.sleeping.map (·.1) ∨ i ∈ s.queue.ready.map (·.1)) ∧
      s.sleeping.card ≤ s.queue.asleep ∧ (0 < s.settling → 0 < s.queue.asleep) ∧
      ∀ answer s', Step s answer s' → ∀ before,
        answer = some (.pending before 0) ∨ answer = some (.idle before) → ∀ i < before, i ∈ s'.taken.map (·.1) := by
  have hsound := h.sound
  have hcounted := hsound.counted
  obtain ⟨htaken, hran⟩ := hsound.nodup
  refine ⟨htaken, hran, ?_, ?_, by omega, by omega, ?_⟩
  · intro job hjob
    rw [← Multiset.mem_coe, hsound.held]
    exact Multiset.mem_add.2 (.inl hjob)
  · intro i hi hnot
    have hplace : i ∈ ((s.sleeping + (s.queue.ready + s.taken)).map (·.1)) := by
      rw [← hsound.placed]
      exact List.mem_range.2 hi
    rw [Multiset.map_add, Multiset.map_add, Multiset.mem_add, Multiset.mem_add] at hplace
    rcases hplace with hsleeps | hready | hgone
    · exact .inl hsleeps
    · exact .inr hready
    · exact absurd hgone hnot
  · rintro answer s' hstep before (rfl | rfl) i hi
    · obtain ⟨hsame, c, hc, hanswers⟩ := eq_of_answer hstep
      have hknows := hsound.knows c hc
      rw [hsame]
      generalize hcount : 0 = count at hanswers
      cases hanswers with
      | pending _ asleep =>
        have hready : s.queue.ready = [] := List.length_eq_zero_iff.1 (by omega)
        exact mem_taken_of_arrived hready (hknows (by omega) i hi)
    · obtain ⟨hsame, c, hc, hanswers⟩ := eq_of_answer hstep
      have hknows := hsound.knows c hc
      rw [hsame]
      cases hanswers with
      | idle _ hready => exact mem_taken_of_arrived hready (hknows i hi)

theorem hides_nothing_handover :
    ∃ s s' : Traffic Unit, Reached s ∧ Step s (some (.pending 1 0)) s' ∧ 0 ∈ s'.taken.map (·.1) := by
  have hzero (s : Traffic Unit) (hcalls : s.calls = {.pendingAsleep 1 0, .allRunning 0 (0, ())})
      (hready : s.queue.ready = []) : Step s (some (.pending 1 0)) { s with calls := {.allRunning 0 (0, ())} } := by
    refine .answer hcalls ?_
    have hanswers := @Call.Answers.pending _ s.queue 1 0
    rwa [hready] at hanswers
  have h₁ : Reached _ := .tail .refl ⟨none, .announce 0 ()⟩
  have h₂ : Reached _ := .tail h₁ ⟨none, @Step.startTimer _ _ 0 (0, ()) 0 rfl⟩
  have h₃ : Reached _ := .tail h₂ ⟨none, @Step.send _ _ ⟨0, 0⟩ _ rfl⟩
  -- the task is taken while its timer is still counted, and a call begins
  have h₄ : Reached _ := .tail h₃ ⟨none, .begin .all⟩
  have h₅ : Reached _ := .tail h₄ ⟨none, @Step.take _ _ (.all 0) 0 _ _ rfl rfl rfl⟩
  have h₆ : Reached _ := .tail h₅ ⟨none, .begin .pending⟩
  have h₇ : Reached _ := .tail h₆ ⟨none, @Step.settle _ _ 0 rfl⟩
  have h₈ : Reached _ := .tail h₇ ⟨none, @Step.look _ _ (.pending 1) _ {.allRunning 0 (0, ())} rfl (.pending 1)⟩
  refine ⟨_, _, h₈, hzero _ rfl rfl, ?_⟩
  exact (hides_nothing h₈).2.2.2.2.2.2 _ _ (hzero _ rfl rfl) 1 (.inl rfl) 0 (by decide)

end ScriptGraph.WakeQueue
