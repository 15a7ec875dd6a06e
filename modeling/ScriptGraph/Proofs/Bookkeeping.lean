import Mathlib.Data.Finset.Card
import ScriptGraph.Engine
import ScriptGraph.Proofs.Tallies
import ScriptGraph.Proofs.Updates

/-!
# Bookkeeping

The counts of an engine balance after all requests.  A chain is open while something of it waits, unless it was
stopped (`World.openChains`).  For each script the chains that started are those that were finished, those that were
stopped and those that are open, and what was suspended is what went on and what waits (`World.Books`).

When a branch goes on, only its own chain can change from open to closed.  That chain has a course, and so it comes to
one end: just when it is closed (`Course.mem_openChains`).  So each part keeps the books, whichever script it is of,
and whether or not that script is still loaded.
-/

namespace ScriptGraph

/-! ### Open chains -/

namespace World

/-- The chains of scripts of a name that something waits of, and that were not stopped. -/
def openChains (name : String) (w : World) : Finset Nat :=
  ((w.timers.tasks.filter fun k => k.script.name = name ∧ (w.meter k.chain).tripped = false).map (·.chain)).toFinset

theorem mem_openChains {name : String} {w : World} {chain : Nat} :
    chain ∈ w.openChains name ↔
      (w.meter chain).tripped = false ∧ ∃ k ∈ w.waitingOf chain, k.script.name = name := by
  simp only [openChains, waitingOf, Multiset.mem_toFinset, Multiset.mem_map, Multiset.mem_filter]
  constructor
  · rintro ⟨k, ⟨hk, hname, htripped⟩, rfl⟩
    exact ⟨htripped, k, ⟨hk, rfl⟩, hname⟩
  · rintro ⟨htripped, k, ⟨hk, rfl⟩, hname⟩
    exact ⟨k, ⟨hk, hname, htripped⟩, rfl⟩

/-- When one chain changes only, the number of open chains changes with that chain. -/
theorem card_openChains {w w' : World} {chain : Nat}
    (hothers : ∀ other ≠ chain, w'.waitingOf other = w.waitingOf other ∧ w'.meters[other]? = w.meters[other]?)
    (name : String) :
    (w'.openChains name).card + (if chain ∈ w.openChains name then 1 else 0) =
      (w.openChains name).card + if chain ∈ w'.openChains name then 1 else 0 := by
  have herase : (w'.openChains name).erase chain = (w.openChains name).erase chain := by
    ext other
    rw [Finset.mem_erase, Finset.mem_erase]
    refine and_congr_right fun hne => ?_
    obtain ⟨hwaiting, hmeter⟩ := hothers other hne
    rw [mem_openChains, mem_openChains, hwaiting, meter_congr hmeter]
  have hcard (s : Finset Nat) : s.card = (s.erase chain).card + if chain ∈ s then 1 else 0 := by
    split
    · next hmem => rw [Finset.card_erase_add_one hmem]
    · next hmem => rw [Finset.erase_eq_of_notMem hmem, Nat.add_zero]
  rw [hcard (w.openChains name), hcard (w'.openChains name), herase]
  omega

theorem openChains_eq_empty {w : World} (name : String) (h : w.pending = 0) : w.openChains name = ∅ := by
  simp [openChains, tasks_eq_zero h]

end World

namespace Course

variable {host : Host} {script : Script} {start chain : Nat} {w : World} {parts : List Part}

theorem countP_isTerminal_le (h : Course host script start chain w parts) :
    (Part.allEffects parts).countP Effect.isTerminal ≤ 1 := by
  obtain ⟨m, -, hbalance⟩ := h.balance
  rw [hbalance.countP_isTerminal]
  split <;> omega

/-- A chain is open exactly until it comes to its end. -/
theorem mem_openChains (h : Course host script start chain w parts) (name : String) :
    chain ∈ w.openChains name ↔
      name = script.name ∧ (Part.allEffects parts).countP Effect.isTerminal = 0 := by
  obtain ⟨m, hm, hbalance⟩ := h.balance
  have hlive := hbalance.live
  rw [World.mem_openChains, World.meter_eq hm, hbalance.countP_isTerminal]
  constructor
  · rintro ⟨htripped, k, hk, hname⟩
    have hcard := Multiset.card_pos_iff_exists_mem.2 ⟨k, hk⟩
    rw [h.script_eq hk] at hname
    exact ⟨hname.symm, if_pos ⟨htripped, by omega⟩⟩
  · rintro ⟨rfl, hnone⟩
    have hopen : m.tripped = false ∧ m.live ≠ 0 := by
      by_contra hclosed
      rw [if_neg hclosed] at hnone
      cases hnone
    have hcard : 0 < (w.waitingOf chain).card := by omega
    obtain ⟨k, hk⟩ := Multiset.card_pos_iff_exists_mem.1 hcard
    exact ⟨hopen.1, k, hk, by rw [h.script_eq hk]⟩

end Course

/-- Of all open chains, a branch that goes on can only close its own. -/
theorem World.card_openChains_resume {host : Host} {script : Script} {start : Nat} {w : World} {parts : List Part}
    {target : Duration} {k : Continuation} {rest : Timers Continuation}
    (h : Course host script start k.chain w parts) (htake : w.timers.takeDue target = some (k, rest))
    (name : String) :
    ((resume host k { w with timers := rest }).openChains name).card +
        (if name = script.name then (nextPart host k { w with timers := rest }).effects.countP Effect.isTerminal
          else 0) =
      (w.openChains name).card := by
  have hnext := h.resume_due htake rfl
  have hend := hnext.countP_isTerminal_le
  have hothers (other : Nat) (hne : other ≠ k.chain) :
      (resume host k { w with timers := rest }).waitingOf other = w.waitingOf other ∧
        (resume host k { w with timers := rest }).meters[other]? = w.meters[other]? := by
    obtain ⟨hwaiting, hmeter⟩ := resume_of_ne host { w with timers := rest } hne
    exact ⟨hwaiting.trans (waitingOf_takeDue_of_ne htake hne), hmeter⟩
  have hcard := card_openChains hothers name
  rw [Part.allEffects_append, Part.allEffects_singleton, List.countP_append] at hend
  simp only [h.mem_openChains, hnext.mem_openChains, Part.allEffects_append, Part.allEffects_singleton,
    List.countP_append] at hcard
  -- the chain is closed when this part comes to its end
  by_cases hname : name = script.name
  · simp only [hname, true_and, if_true] at hcard ⊢
    split_ifs at hcard <;> omega
  · simp only [hname, false_and, if_false] at hcard ⊢
    exact hcard

/-- A chain that starts is open after that, unless it comes to its end. -/
theorem World.card_openChains_execute (host : Host) (script : Script) (start : Nat) {w : World} (hclosed : w.Closed)
    (name : String) :
    ((w.execute host script start).2.openChains name).card +
        (if name = script.name then (w.firstPart host script start).effects.countP Effect.isTerminal else 0) =
      (w.openChains name).card + if name = script.name then 1 else 0 := by
  have hfirst : Course host script start w.meters.length (w.execute host script start).2 _ := .begin hclosed rfl
  have hend := hfirst.countP_isTerminal_le
  have hcard := card_openChains (fun other hne => execute_of_ne host script start (w := w) hne) name
  have hnew : w.meters.length ∉ w.openChains name := by
    rw [mem_openChains]
    rintro ⟨-, k, hk, -⟩
    obtain ⟨hk, hchain⟩ := Multiset.mem_filter.1 hk
    exact Nat.lt_irrefl _ (hchain ▸ hclosed k hk)
  rw [Part.allEffects_singleton] at hend
  simp only [hnew, hfirst.mem_openChains, Part.allEffects_singleton, if_false] at hcard
  by_cases hname : name = script.name
  · simp only [hname, true_and, if_true] at hcard ⊢
    split_ifs at hcard <;> omega
  · simp only [hname, false_and, if_false] at hcard ⊢
    exact hcard

/-! ### Books of a world -/

namespace World

/-- The books of a world.  All that waits is of chains that started, and each of these has a course.  For each script
the chains that started came to an end or are open, and all that was suspended went on or waits. -/
structure Books (host : Host) (w : World) : Prop where
  closed : w.Closed
  courses : ∀ chain < w.meters.length, ∃ script start parts, Course host script start chain w parts
  chains : ∀ name, w.trace.toList.countP (Effect.isOf name Effect.isStarted) =
    w.trace.toList.countP (Effect.isOf name Effect.isTerminal) + (w.openChains name).card
  waits : w.trace.toList.countP Effect.isSuspended = w.timers.tasks.card + w.trace.toList.countP Effect.isResumed

variable {host : Host} {w : World}

theorem books_ofVariables (host : Host) (vars : Variables) : (ofVariables vars).Books host where
  closed := closed_ofVariables vars
  courses chain hchain := by simp [ofVariables] at hchain
  chains name := by
    rw [openChains_eq_empty name rfl]
    rfl
  waits := by
    rw [Timers.card_tasks]
    rfl

/-- What is told to the user is not in the books. -/
theorem Books.note (h : w.Books host) (text : String) : (w.record (.note text)).Books host where
  closed := h.closed
  courses chain hchain := by
    obtain ⟨script, start, parts, hcourse⟩ := h.courses chain hchain
    exact ⟨script, start, parts, hcourse.elsewhere rfl rfl⟩
  chains name := by
    have hopen : (w.record (.note text)).openChains name = w.openChains name := rfl
    rw [hopen]
    simpa [record, List.countP_append, Effect.isOf, Effect.script?] using h.chains name
  waits := by
    simpa [record, List.countP_append, Effect.isSuspended, Effect.isResumed] using h.waits

theorem Books.setNow (h : w.Books host) (now : Duration) : (Timers.setNow w now).Books host where
  closed := h.closed
  courses chain hchain := by
    obtain ⟨script, start, parts, hcourse⟩ := h.courses chain hchain
    exact ⟨script, start, parts, hcourse.elsewhere rfl rfl⟩
  chains := h.chains
  waits := h.waits

/-- A branch that goes on keeps the books. -/
theorem Books.resume (h : w.Books host) {target : Duration} {k : Continuation} {rest : Timers Continuation}
    (htake : w.timers.takeDue target = some (k, rest)) :
    (World.resume host k { w with timers := rest }).Books host := by
  have htasks := Timers.tasks_takeDue htake
  have hmem : k ∈ w.timers.tasks := htasks ▸ Multiset.mem_cons_self k _
  have hchain : k.chain < w.meters.length := h.closed k hmem
  obtain ⟨script, start, parts, hcourse⟩ := h.courses k.chain hchain
  obtain rfl : k.script = script := hcourse.script_eq (Multiset.mem_filter.2 ⟨hmem, rfl⟩)
  have htrace := trace_resume host k { w with timers := rest }
  constructor
  · refine closed_resume host k (fun j hj => h.closed j ?_) hchain
    rw [htasks]
    exact Multiset.mem_cons_of_mem hj
  · intro chain hchain
    rw [resume_eq, Walk.outcome_length] at hchain
    by_cases heq : k.chain = chain
    · exact heq ▸ ⟨k.script, start, _, hcourse.resume_due htake rfl⟩
    · obtain ⟨script, start, parts, hother⟩ := h.courses chain hchain
      exact ⟨script, start, parts, hother.resume_due_other htake heq⟩
  · intro name
    have hbooks := h.chains name
    have hcard := card_openChains_resume hcourse htake name
    obtain ⟨hstarted, hterminal⟩ := ends_nextPart host k { w with timers := rest } name
    rw [htrace, List.countP_append, List.countP_append, hstarted, hterminal]
    dsimp only
    omega
  · have hbooks := h.waits
    rw [htasks, Multiset.card_cons] at hbooks
    rw [htrace, card_tasks_resume, List.countP_append, List.countP_append, countP_isResumed_nextPart]
    dsimp only
    omega

/-- A trigger that starts a chain keeps the books. -/
theorem Books.begin (h : w.Books host) (trigger : String) (s : Start) : (w.begin host trigger s).2.Books host := by
  let told := w.emit s.script.name s.node.id (.started trigger)
  have hclosed : told.Closed := h.closed
  have htrace : (w.begin host trigger s).2.trace.toList = w.trace.toList ++
      .event s.script.name s.node.id (.started trigger) :: (told.firstPart host s.script s.index).effects := by
    rw [World.begin, trace_execute]
    simp [emit, record, told]
  constructor
  · exact closed_execute host s.script s.index hclosed
  · intro chain hchain
    rw [World.begin, execute_snd, Walk.outcome_length] at hchain
    by_cases heq : w.meters.length = chain
    · exact heq ▸ ⟨s.script, s.index, _, .begin hclosed rfl⟩
    · have hlt : chain < w.meters.length := by
        simp only [entry, emit, record, List.length_append, List.length_singleton] at hchain
        omega
      obtain ⟨script, start, parts, hother⟩ := h.courses chain hlt
      have htold : Course host script start chain told parts := hother.elsewhere rfl rfl
      exact ⟨script, start, parts, htold.execute host s.script s.index⟩
  · intro name
    have hbooks := h.chains name
    have hcard : ((w.begin host trigger s).2.openChains name).card + _ = (w.openChains name).card + _ :=
      told.card_openChains_execute host s.script s.index hclosed name
    obtain ⟨hstarted, hterminal⟩ := ends_firstPart host s.script s.index told name
    rw [htrace, List.countP_append, List.countP_append, List.countP_cons, List.countP_cons, hstarted, hterminal]
    simp only [Effect.isOf, Effect.isStarted, Effect.isTerminal, Effect.script?, Bool.true_and, Bool.false_and,
      beq_iff_eq, Option.some.injEq, @eq_comm _ s.script.name name, Bool.false_eq_true, if_false] at hbooks ⊢
    omega
  · have hbooks := h.waits
    have hcard : (w.begin host trigger s).2.timers.tasks.card = w.timers.tasks.card +
        (told.firstPart host s.script s.index).effects.countP Effect.isSuspended := card_tasks_execute ..
    rw [htrace, hcard, List.countP_append, List.countP_append, List.countP_cons, List.countP_cons,
      countP_isResumed_firstPart]
    simp only [Effect.isSuspended, Effect.isResumed, Bool.false_eq_true, if_false]
    omega

theorem Books.beginAll (h : w.Books host) (trigger : Start → String) (starts : List Start) :
    (w.beginAll host trigger starts).2.Books host := by
  unfold World.beginAll
  generalize TriggerReport.zero = report
  induction starts generalizing w report with
  | nil => exact h
  | cons s starts ih => exact ih (h.begin (trigger s) s) _

theorem Books.advance (h : w.Books host) (elapsed : Duration) : (w.advance host elapsed).2.Books host :=
  Timers.sweepFrom_invariant (P := Books host) (fun _ _ _ htake hs => hs.resume htake) (fun _ hs => hs.setNow _) h
    (w.sweepFrom_advance host elapsed)

end World

/-! ### Requests to an engine -/

/-- What an engine is asked for. -/
inductive Request where
  | add (script : Script)
  | remove (name : String)
  | enable (name : String) (enabled : Bool)
  | save (name : String) (graph : Graph Float32)
  | load (name : String)
  | loadAll
  | delete (name : String)
  | fire (trigger : String)
  | run (graph : Graph Float32)
  | update (elapsed : Duration)

namespace Engine

variable {σ : Type}

/-- The counts of a script, which are none if it had no event. -/
def statsOf (e : Engine σ) (name : String) : ScriptStats := (e.stats? name).getD .zero

/-- The names of the scripts that had an event. -/
def heard (e : Engine σ) : List String := (e.world.trace.toList.filterMap Effect.script?).dedup

theorem statsOf_eq (e : Engine σ) (name : String) :
    (e.statsOf name).chains = e.world.trace.toList.countP (Effect.isOf name Effect.isStarted) ∧
    (e.statsOf name).finished + (e.statsOf name).aborted =
      e.world.trace.toList.countP (Effect.isOf name Effect.isTerminal) ∧
    (e.statsOf name).suspended = e.world.trace.toList.countP (Effect.isOf name Effect.isSuspended) := by
  rw [statsOf, stats?, ScriptStats.getD_ofTrace]
  obtain ⟨hchains, hends, hsuspended⟩ := ScriptStats.foldl_count name e.world.trace.toList .zero
  exact ⟨hchains.trans (Nat.zero_add _), hends.trans (Nat.zero_add _), hsuspended.trans (Nat.zero_add _)⟩

/-- All that was suspended was suspended in some script that had an event. -/
theorem foldr_suspended (e : Engine σ) :
    e.heard.foldr (fun name total => (e.statsOf name).suspended + total) 0 =
      e.world.trace.toList.countP Effect.isSuspended := by
  have hnames : ∀ x ∈ e.world.trace.toList, x.isSuspended → ∃ name ∈ e.heard, x.script? = some name := by
    intro x hx hsuspended
    unfold Effect.isSuspended at hsuspended
    split at hsuspended
    · next name node delay =>
      exact ⟨name, List.mem_dedup.2 (List.mem_filterMap.2 ⟨_, hx, rfl⟩), rfl⟩
    · cases hsuspended
  rw [← Effect.foldr_countP_isOf (List.nodup_dedup _) hnames]
  simp only [(e.statsOf_eq _).2.2]
  rfl

/-- An engine with a clock of its own that keeps its books. -/
structure Keeps (e : Engine σ) : Prop where
  clock : e.clock = .manual
  books : e.world.Books e.host

variable {e : Engine σ}

theorem Keeps.fire (h : e.Keeps) (trigger : String) : (e.fire trigger).2.Keeps :=
  ⟨h.clock, h.books.beginAll (fun _ => trigger) (e.startsOf trigger)⟩

theorem Keeps.runGraph (h : e.Keeps) (g : Graph Float32) : (e.runGraph g).2.Keeps := by
  unfold Engine.runGraph
  dsimp only
  split
  · exact ⟨h.clock, h.books.note _⟩
  · exact ⟨h.clock, h.books.beginAll _ _⟩

theorem Keeps.update (h : e.Keeps) (elapsed : Duration) : (e.update elapsed).2.Keeps := by
  rw [update_of_manual h.clock]
  exact ⟨h.clock, h.books.advance elapsed⟩

variable [ScriptStore σ]

theorem Keeps.loadScript (h : e.Keeps) (fresh : Nat → String) (name : String) :
    (Engine.loadScript fresh e name).2.Keeps := by
  unfold Engine.loadScript
  dsimp only
  split <;> exact ⟨h.clock, h.books⟩

theorem Keeps.loadEach (h : e.Keeps) (fresh : Nat → String) (names : List String) :
    (Engine.loadEach fresh names e).2.Keeps := by
  induction names generalizing e with
  | nil => exact h
  | cons name names ih => exact ih (h.loadScript fresh name)

theorem Keeps.loadAllScripts (h : e.Keeps) (fresh : Nat → String) : (Engine.loadAllScripts fresh e).2.Keeps := by
  unfold Engine.loadAllScripts
  dsimp only
  split
  · exact ⟨h.clock, h.books⟩
  · have hempty : Keeps { e with store := (ScriptStore.list e.store).2, registry := .empty } := ⟨h.clock, h.books⟩
    exact hempty.loadEach fresh _

theorem Keeps.deleteScript (h : e.Keeps) (name : String) : (e.deleteScript name).2.Keeps := by
  unfold Engine.deleteScript
  dsimp only
  split <;> exact ⟨h.clock, h.books⟩

/-- An engine after a request.  `fresh` names the nodes that need an identifier. -/
def perform (fresh : Nat → String) (e : Engine σ) : Request → Engine σ
  | .add script => e.addScript script
  | .remove name => (e.removeScript name).2
  | .enable name enabled => (e.setEnabled name enabled).2
  | .save name graph => (e.saveScript name graph).2
  | .load name => (Engine.loadScript fresh e name).2
  | .loadAll => (Engine.loadAllScripts fresh e).2
  | .delete name => (e.deleteScript name).2
  | .fire trigger => (e.fire trigger).2
  | .run graph => (e.runGraph graph).2
  | .update elapsed => (e.update elapsed).2

/-- An engine after some requests. -/
def performAll (fresh : Nat → String) (e : Engine σ) (requests : List Request) : Engine σ :=
  requests.foldl (perform fresh) e

/-- Each request keeps the books.  Only triggers, runs and updates change what is in them. -/
theorem Keeps.perform (h : e.Keeps) (fresh : Nat → String) (request : Request) :
    (e.perform fresh request).Keeps := by
  cases request with
  | add | remove | enable | save => exact ⟨h.clock, h.books⟩
  | load name => exact h.loadScript fresh name
  | loadAll => exact h.loadAllScripts fresh
  | delete name => exact h.deleteScript name
  | fire trigger => exact h.fire trigger
  | run graph => exact h.runGraph graph
  | update elapsed => exact h.update elapsed

theorem Keeps.performAll (h : e.Keeps) (fresh : Nat → String) (requests : List Request) :
    (e.performAll fresh requests).Keeps := by
  induction requests generalizing e with
  | nil => exact h
  | cons request requests ih => exact ih (h.perform fresh request)

/-- The counts of an engine with a clock of its own balance after any requests.  For each script the chains that
started are those that were finished, those that were stopped and those that are open.  What all scripts suspended
is what waits and what went on.  So when nothing waits, each chain that started was finished or stopped.  A chain is
taken for stopped exactly if one of its parts told so. -/
theorem books_balance (config : Config) (dispatch : List Call → Call → Except ScriptError Unit) (store : σ)
    (vars : Variables) (fresh : Nat → String) (requests : List Request) :
    let e := (make config dispatch .manual store vars).performAll fresh requests
    (∀ name, (e.statsOf name).chains =
      (e.statsOf name).finished + (e.statsOf name).aborted + (e.world.openChains name).card) ∧
    e.heard.foldr (fun name total => (e.statsOf name).suspended + total) 0 =
      e.pending + e.world.trace.toList.countP Effect.isResumed ∧
    (e.pending = 0 → ∀ name, (e.statsOf name).chains = (e.statsOf name).finished + (e.statsOf name).aborted) ∧
    ∀ chain < e.world.meters.length, ∃ script start parts, Course e.host script start chain e.world parts ∧
      ((e.world.meter chain).tripped = true ↔ ∃ x ∈ Part.allEffects parts, x.isAborted) := by
  intro e
  have hmake : (make config dispatch .manual store vars).Keeps := ⟨rfl, World.books_ofVariables _ vars⟩
  have hkeeps : e.Keeps := hmake.performAll fresh requests
  have hbalance (name : String) : (e.statsOf name).chains =
      (e.statsOf name).finished + (e.statsOf name).aborted + (e.world.openChains name).card := by
    obtain ⟨hchains, hends, -⟩ := e.statsOf_eq name
    rw [hchains, hends]
    exact hkeeps.books.chains name
  refine ⟨hbalance, ?_, fun hidle name => ?_, fun chain hchain => ?_⟩
  · rw [e.foldr_suspended, hkeeps.books.waits, Timers.card_tasks]
    rfl
  · rw [hbalance, World.openChains_eq_empty name hidle]
    rfl
  · obtain ⟨script, start, parts, hcourse⟩ := hkeeps.books.courses chain hchain
    obtain ⟨m, hm, hbalance⟩ := hcourse.balance
    refine ⟨script, start, parts, hcourse, ?_⟩
    rw [World.meter_eq hm]
    exact hbalance.tripped_iff

end Engine

end ScriptGraph
