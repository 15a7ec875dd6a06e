import ScriptGraph.Proofs.Segments

/-!
# The course of a chain

A chain is a number of walks: the one that starts it, and one for each branch that it left waiting.  They may come in
any order and at any time, and in between the world may change as it likes, apart from the meter of the chain and what
it has left waiting.  `Course` is all of that, with the list of the parts that ran so far.

The invariant is `Balance` (`Course.balance`).  The branches that wait, and the part that runs if there is one, are
what the meter has as `live`.  Every visit is on the meter until the first refusal.  The reports of the parts are
one of three (`Verdict`): nothing while the chain goes on, one end after all parts, or one stop, after which there
are only leftovers that do nothing.
-/

namespace ScriptGraph

/-! ### Parts -/

/-- A part of a chain: the rounds that the meter allowed, the effects before its end and at its end, and whether it
was refused. -/
structure Part where
  moves : List Work
  body : List Effect
  report : List Effect
  answer : Except ScriptError Unit

namespace Part

/-- All effects of a part, in their order. -/
def effects (p : Part) : List Effect := p.body ++ p.report

/-- The rounds that the meter allowed in some parts. -/
def allMoves (parts : List Part) : List Work := parts.flatMap (·.moves)

/-- The effects of some parts. -/
def allEffects (parts : List Part) : List Effect := parts.flatMap effects

/-- The part of a chain that a walk makes, after some effects at its opening. -/
def ofWalk (host : Host) (chain : Nat) (script : Script) (node : String) (opening : List Effect) (stack : List Work)
    (w : Walk) : Part :=
  let (answer, v) := w.drive host chain script stack
  { moves := w.trail host chain script stack
    body := opening ++ v.world.trace.toList.drop w.world.trace.toList.length
    report := v.report script.name node answer
    answer }

/-- A part after which the chain goes on. -/
structure Goes (p : Part) : Prop where
  report : p.report = []
  answer : p.answer = .ok ()

/-- The last part of a chain that comes to an end. -/
structure Ends (script : Script) (visits : Nat) (p : Part) : Prop where
  report : ∃ node, p.report = [.event script.name node (.finished visits)]
  answer : p.answer = .ok ()

/-- The part in which a chain is stopped. -/
structure Stops (script : Script) (limit : Nat) (p : Part) : Prop where
  report : ∃ node, p.report =
    [.note ("Script '" ++ script.name ++ "' stopped: " ++ (ScriptError.runaway (limit + 1) limit).message),
      .event script.name node (.aborted (ScriptError.runaway (limit + 1) limit).message)]
  answer : p.answer = .error (.runaway (limit + 1) limit)

/-- A part of a chain that was stopped before. -/
structure IsLeftover (script : Script) (p : Part) : Prop where
  moves : p.moves = []
  body : ∃ node, p.body = [.event script.name node .resumed]
  report : p.report = []
  answer : ∃ e, p.answer = .error e

end Part

/-- What became of a chain, by its meter and the reports of its parts. -/
inductive Verdict (script : Script) (m : Meter) (parts : List Part) : Prop
  | going (htripped : m.tripped = false) (hlive : m.live ≠ 0) (hgoes : ∀ p ∈ parts, p.Goes)
  | ended (htripped : m.tripped = false) (hlive : m.live = 0) {before : List Part} {last : Part}
      (hparts : parts = before ++ [last]) (hgoes : ∀ p ∈ before, p.Goes)
      (hlast : last.Ends script (Part.allMoves parts).length)
  | stopped (htripped : m.tripped = true) {before after : List Part} {p : Part}
      (hparts : parts = before ++ p :: after)
      (hgoes : ∀ q ∈ before, q.Goes) (hstop : p.Stops script m.limit) (hleft : ∀ q ∈ after, q.IsLeftover script)

/-- How the meter of a chain, its branches that wait and its parts belong together, while a number of parts runs. -/
structure Balance (host : Host) (chain : Nat) (script : Script) (running : Nat) (m : Meter)
    (waiting : Multiset Continuation) (parts : List Part) : Prop where
  limit : m.limit = host.limit
  live : m.live = waiting.card + running
  rests : ∀ k ∈ waiting, k.IsRest chain script
  visits : m.tripped = false → m.visits = (Part.allMoves parts).length
  exceeded : m.tripped = true → m.limit < m.visits
  moves_le : (Part.allMoves parts).length ≤ m.limit
  executed : (Part.allEffects parts).countP Effect.isExecuted = (Part.allMoves parts).countP (Work.isMet script)
  suspended : (Part.allEffects parts).countP Effect.isSuspended ≤ (Part.allEffects parts).countP Effect.isExecuted
  scheduled : (Part.allEffects parts).countP Effect.isSuspended + 1 = parts.length + waiting.card + running
  quiet : ∀ p ∈ parts, ∀ e ∈ p.body, e.isTerminal = false
  verdict : Verdict script m parts

/-! ### Courses -/

namespace World

/-- The branches of a chain that wait. -/
def waitingOf (w : World) (chain : Nat) : Multiset Continuation := w.timers.tasks.filter (·.chain = chain)

/-- All that waits belongs to chains that were started. -/
def Closed (w : World) : Prop := ∀ k ∈ w.timers.tasks, k.chain < w.meters.length

/-- The name of a node of a script, empty if there is no such node. -/
def nodeName (script : Script) (i : Nat) : String :=
  match script.graph.node? i with
  | some n => n.id
  | none => ""

/-- The walk that starts a chain. -/
def entry (host : Host) (w : World) : Walk :=
  ⟨{ w with meters := w.meters ++ [Meter.start host.limit] }, .start host.limit, 0⟩

/-- The walk with which a branch goes on. -/
def reentry (k : Continuation) (w : World) : Walk :=
  ⟨w.emit k.script.name k.node .resumed, w.meter k.chain, 0⟩

/-- The part that starts a chain. -/
def firstPart (host : Host) (script : Script) (start : Nat) (w : World) : Part :=
  .ofWalk host w.meters.length script (nodeName script start) [] [.visit start] (w.entry host)

/-- The part that goes on with a branch. -/
def nextPart (host : Host) (k : Continuation) (w : World) : Part :=
  .ofWalk host k.chain k.script k.node [.event k.script.name k.node .resumed] (k.rest.map .visit) (w.reentry k)

end World

/-- The courses of a chain that starts at a node.  Its branches are taken from those that wait one by one, each at
most once. -/
inductive Course (host : Host) (script : Script) (start chain : Nat) : World → List Part → Prop
  | begin {w : World} (hclosed : w.Closed) (hchain : w.meters.length = chain) :
      Course host script start chain (w.execute host script start).2 [w.firstPart host script start]
  | resume {w w' : World} {parts : List Part} {k : Continuation} (hcourse : Course host script start chain w parts)
      (htaken : w.waitingOf chain = k ::ₘ w'.waitingOf chain) (hmeter : w'.meters[chain]? = w.meters[chain]?) :
      Course host script start chain (w'.resume host k) (parts ++ [w'.nextPart host k])
  | elsewhere {w w' : World} {parts : List Part} (hcourse : Course host script start chain w parts)
      (hwaiting : w'.waitingOf chain = w.waitingOf chain) (hmeter : w'.meters[chain]? = w.meters[chain]?) :
      Course host script start chain w' parts

namespace Walk

/-- The world after a walk and its end. -/
def outcome (host : Host) (chain : Nat) (script : Script) (node : String) (stack : List Work) (w : Walk) : World :=
  let (answer, v) := w.drive host chain script stack
  v.finish chain script.name node answer

end Walk

namespace World

theorem execute_fst (host : Host) (script : Script) (start : Nat) (w : World) :
    (w.execute host script start).1 =
      ((w.entry host).drive host w.meters.length script [.visit start]).1.map fun _ =>
        ⟨((w.entry host).drive host w.meters.length script [.visit start]).2.meter.spent,
          ((w.entry host).drive host w.meters.length script [.visit start]).2.suspended⟩ := rfl

theorem execute_snd (host : Host) (script : Script) (start : Nat) (w : World) :
    (w.execute host script start).2 =
      (w.entry host).outcome host w.meters.length script (nodeName script start) [.visit start] := rfl

theorem resume_eq (host : Host) (k : Continuation) (w : World) :
    w.resume host k = (w.reentry k).outcome host k.chain k.script k.node (k.rest.map .visit) := rfl

theorem meter_eq {chain : Nat} {w : World} {m : Meter} (h : w.meters[chain]? = some m) : w.meter chain = m := by
  rw [meter, List.getD_eq_getElem?_getD, h, Option.getD_some]

theorem meter_congr {chain : Nat} {w w' : World} (h : w'.meters[chain]? = w.meters[chain]?) :
    w'.meter chain = w.meter chain := by
  rw [meter, meter, List.getD_eq_getElem?_getD, List.getD_eq_getElem?_getD, h]

theorem tasks_eq_zero {w : World} (h : w.pending = 0) : w.timers.tasks = 0 := by
  rw [← Multiset.card_eq_zero, Timers.card_tasks]
  exact h

/-- The first task to fall due is of one chain, and what waits of others stays. -/
theorem waitingOf_takeDue_of_ne {w : World} {target : Duration} {k : Continuation} {rest : Timers Continuation}
    (htake : w.timers.takeDue target = some (k, rest)) {other : Nat} (hne : other ≠ k.chain) :
    waitingOf { w with timers := rest } other = w.waitingOf other :=
  ((congrArg _ (Timers.tasks_takeDue htake)).trans (Multiset.filter_cons_of_neg _ hne.symm)).symm

end World

/-! ### Counting parts -/

namespace Part

variable {host : Host} {chain : Nat} {script : Script} {parts : List Part} {p : Part}

theorem allMoves_append (parts parts' : List Part) : allMoves (parts ++ parts') = allMoves parts ++ allMoves parts' :=
  List.flatMap_append

theorem allEffects_append (parts parts' : List Part) :
    allEffects (parts ++ parts') = allEffects parts ++ allEffects parts' :=
  List.flatMap_append

theorem allMoves_singleton (p : Part) : allMoves [p] = p.moves := by simp [allMoves]

theorem allEffects_singleton (p : Part) : allEffects [p] = p.effects := by simp [allEffects]

end Part

private theorem Walk.countP_report {f : Effect → Bool} (hnote : ∀ text, f (.note text) = false)
    (hterminal : ∀ e : Effect, e.isTerminal → f e = false) (script node : String) (answer : Except ScriptError Unit)
    (w : Walk) : (w.report script node answer).countP f = 0 := by
  rw [List.countP_eq_zero]
  intro e he
  rw [Bool.not_eq_true]
  unfold report at he
  cases answer <;> dsimp only at he <;> split at he <;> simp only [List.mem_cons, List.not_mem_nil, or_false] at he
  · rcases he with rfl | rfl
    · exact hnote _
    · exact hterminal _ rfl
  · rw [he]
    exact hterminal _ rfl

namespace Walk.Leads

variable {chain : Nat} {script : Script} {moves : List Work} {effects : List Effect} {w v : Walk}

theorem waitingOf (h : Leads chain script moves effects w v) :
    ∃ rests : Multiset Continuation, v.world.waitingOf chain = rests + w.world.waitingOf chain ∧
      rests.card = effects.countP Effect.isSuspended ∧ ∀ k ∈ rests, k.IsRest chain script := by
  obtain ⟨rests, htasks, hcard, hrests⟩ := h.waiting
  refine ⟨rests, ?_, hcard, hrests⟩
  rw [World.waitingOf, htasks, Multiset.filter_add, World.waitingOf]
  rw [Multiset.filter_eq_self.2 fun k hk => (hrests k hk).chain_eq]

/-- Nothing changes in what waits of other chains. -/
theorem waitingOf_of_ne (h : Leads chain script moves effects w v) {other : Nat} (hne : other ≠ chain) :
    v.world.waitingOf other = w.world.waitingOf other := by
  obtain ⟨rests, htasks, -, hrests⟩ := h.waiting
  rw [World.waitingOf, htasks, Multiset.filter_add, World.waitingOf]
  rw [Multiset.filter_eq_nil.2 fun k hk heq => hne (heq.symm.trans (hrests k hk).chain_eq), Multiset.zero_add]

end Walk.Leads

namespace Balance

variable {host : Host} {chain : Nat} {script : Script} {m m' : Meter} {waiting rests : Multiset Continuation}
  {parts : List Part} {p : Part}

/-- A part that ran is put to the others. -/
theorem add (h : Balance host chain script 1 m waiting parts) (hlimit : m'.limit = m.limit)
    (hlive : m'.live + 1 = m.live + rests.card) (hrests : ∀ k ∈ rests, k.IsRest chain script)
    (hvisits : m'.tripped = false → m'.visits = (Part.allMoves parts).length + p.moves.length)
    (hexceeded : m'.tripped = true → m'.limit < m'.visits)
    (hmoves : (Part.allMoves parts).length + p.moves.length ≤ m.limit)
    (hexecuted : p.effects.countP Effect.isExecuted = p.moves.countP (Work.isMet script))
    (hcard : p.effects.countP Effect.isSuspended = rests.card)
    (hsuspended : p.effects.countP Effect.isSuspended ≤ p.effects.countP Effect.isExecuted)
    (hquiet : ∀ e ∈ p.body, e.isTerminal = false) (hverdict : Verdict script m' (parts ++ [p])) :
    Balance host chain script 0 m' (rests + waiting) (parts ++ [p]) where
  limit := hlimit.trans h.limit
  live := by
    have := h.live
    rw [Multiset.card_add]
    omega
  rests k hk := (Multiset.mem_add.1 hk).elim (hrests k) (h.rests k)
  visits := by rwa [Part.allMoves_append, Part.allMoves_singleton, List.length_append]
  exceeded := hexceeded
  moves_le := by rwa [Part.allMoves_append, Part.allMoves_singleton, List.length_append, hlimit]
  executed := by
    rw [Part.allEffects_append, Part.allEffects_singleton, Part.allMoves_append, Part.allMoves_singleton,
      List.countP_append, List.countP_append, h.executed, hexecuted]
  suspended := by
    have := h.suspended
    rw [Part.allEffects_append, Part.allEffects_singleton, List.countP_append, List.countP_append]
    omega
  scheduled := by
    have := h.scheduled
    rw [Part.allEffects_append, Part.allEffects_singleton, List.countP_append, List.length_append, Multiset.card_add,
      List.length_singleton]
    omega
  quiet q hq := by
    rcases List.mem_append.1 hq with hq | hq
    · exact h.quiet q hq
    · rw [List.mem_singleton.1 hq]
      exact hquiet
  verdict := hverdict

end Balance

/-! ### One part more -/

namespace Walk

variable {host : Host} {chain : Nat} {script : Script} {node : String} {opening : List Effect} {stack : List Work}
  {w u v : Walk}

theorem ofWalk_of_ok {moves : List Work} {effects : List Effect} (hmoves : trail host chain script stack w = moves)
    (hleads : Leads chain script moves effects w u) (hend : drive host chain script stack w = (.ok (), u)) :
    Part.ofWalk host chain script node opening stack w =
      ⟨moves, opening ++ effects, u.report script.name node (.ok ()), .ok ()⟩ := by
  rw [Part.ofWalk, hend, hmoves]
  dsimp only
  rw [hleads.trace, List.drop_left]

theorem ofWalk_of_error {moves : List Work} {effects : List Effect} {e : ScriptError}
    (hmoves : trail host chain script stack w = moves) (hleads : Leads chain script moves effects w u)
    (hcharge : u.charge = (.error e, v)) (hend : drive host chain script stack w = (.error e, v)) :
    Part.ofWalk host chain script node opening stack w =
      ⟨moves, opening ++ effects, v.report script.name node (.error e), .error e⟩ := by
  obtain ⟨rfl, -, -⟩ := charge_error_iff.1 hcharge
  rw [Part.ofWalk, hend, hmoves]
  dsimp only [charged]
  rw [hleads.trace, List.drop_left]

theorem outcome_meters {answer : Except ScriptError Unit} (hend : drive host chain script stack w = (answer, v))
    (hchain : chain < v.world.meters.length) :
    (outcome host chain script node stack w).meters[chain]? = some (v.finalMeter answer) := by
  rw [outcome, hend]
  dsimp only
  rw [finish_meters, List.getElem?_set_self hchain]

theorem outcome_waitingOf {answer : Except ScriptError Unit} (hend : drive host chain script stack w = (answer, v))
    (other : Nat) : (outcome host chain script node stack w).waitingOf other = v.world.waitingOf other := by
  rw [outcome, hend]
  dsimp only
  rw [World.waitingOf, finish_timers, World.waitingOf]

/-- The opening and the report of a part execute nothing and leave nothing waiting. -/
private theorem counts_of_leads {moves : List Work} {effects : List Effect}
    (hleads : Leads chain script moves effects w u)
    (hopening : opening = [] ∨ opening = [.event script.name node .resumed]) (answer : Except ScriptError Unit) :
    let p : Part := ⟨moves, opening ++ effects, v.report script.name node answer, answer⟩
    p.effects.countP Effect.isExecuted = moves.countP (Work.isMet script) ∧
      p.effects.countP Effect.isSuspended = effects.countP Effect.isSuspended ∧
      p.effects.countP Effect.isSuspended ≤ p.effects.countP Effect.isExecuted ∧
      ∀ e ∈ p.body, e.isTerminal = false := by
  have hreport (f : Effect → Bool) (hnote : ∀ text, f (.note text) = false)
      (hterminal : ∀ e : Effect, e.isTerminal → f e = false) :
      (v.report script.name node answer).countP f = 0 := countP_report hnote hterminal _ _ _ _
  have hexecuted := hreport Effect.isExecuted (fun _ => rfl) (by
    intro e he
    unfold Effect.isTerminal at he
    split at he <;> simp_all [Effect.isExecuted])
  have hsuspended := hreport Effect.isSuspended (fun _ => rfl) (by
    intro e he
    unfold Effect.isTerminal at he
    split at he <;> simp_all [Effect.isSuspended])
  have hle := hleads.suspended
  have hmet := hleads.executed
  dsimp only [Part.effects]
  rw [List.countP_append, List.countP_append, List.countP_append, List.countP_append, hexecuted, hsuspended]
  rcases hopening with rfl | rfl
  · refine ⟨by simpa using hmet, by simp, by simpa using hle, ?_⟩
    simpa using hleads.quiet
  · refine ⟨by simpa [Effect.isExecuted] using hmet, by simp [Effect.isSuspended], ?_, ?_⟩
    · simpa [Effect.isSuspended, Effect.isExecuted] using hle
    · simpa [Effect.isTerminal] using hleads.quiet

end Walk

namespace Balance

variable {host : Host} {chain : Nat} {script : Script} {node : String} {opening : List Effect} {stack : List Work}
  {w u v : Walk} {waiting : Multiset Continuation} {parts : List Part}

/-- While a part runs, all parts before it let the chain go on, unless the chain was stopped. -/
private theorem goes {m : Meter} (h : Balance host chain script 1 m waiting parts) (htripped : m.tripped = false) :
    ∀ p ∈ parts, p.Goes := by
  cases h.verdict with
  | going _ _ hgoes => exact hgoes
  | ended _ hlive _ _ _ =>
    have := h.live
    omega
  | stopped htrue _ _ _ _ => exact absurd (htripped.symm.trans htrue) (by decide)

/-- The meter allows no more rounds than its limit. -/
private theorem moves_le_of_leads {moves : List Work} {effects : List Effect}
    (h : Balance host chain script 1 w.meter waiting parts) (htripped : w.meter.tripped = false)
    (hleads : Walk.Leads chain script moves effects w u) :
    u.meter.visits = (Part.allMoves parts).length + moves.length ∧ u.meter.visits ≤ w.meter.limit := by
  have hvisits := hleads.visits
  rw [h.visits htripped] at hvisits
  refine ⟨hvisits, ?_⟩
  by_cases hmoves : moves = []
  · rw [hvisits, hmoves]
    exact h.moves_le
  · rw [← hleads.limit]
    exact (hleads.allowed hmoves).1

/-- A part that is not refused anything. -/
private theorem walk_ok {moves : List Work} {effects : List Effect} {rests : Multiset Continuation}
    (h : Balance host chain script 1 w.meter waiting parts) (htripped : w.meter.tripped = false)
    (hopening : opening = [] ∨ opening = [.event script.name node .resumed])
    (hleads : Walk.Leads chain script moves effects w u) (hcard : rests.card = effects.countP Effect.isSuspended)
    (hrests : ∀ k ∈ rests, k.IsRest chain script) :
    Balance host chain script 0 (u.finalMeter (.ok ())) (rests + waiting)
      (parts ++ [⟨moves, opening ++ effects, u.report script.name node (.ok ()), .ok ()⟩]) := by
  obtain ⟨hexecuted, hsuspended, hle, hquiet⟩ := Walk.counts_of_leads (v := u) hleads hopening (.ok ())
  obtain ⟨hvisits, hmoves⟩ := h.moves_le_of_leads htripped hleads
  have hgoes := h.goes htripped
  have hlive := hleads.live
  have hrunning := h.live
  have hstill : u.meter.tripped = false := hleads.tripped.trans htripped
  refine h.add hleads.limit ?_ hrests (fun _ => hvisits) ?_ (by rwa [← hvisits]) hexecuted
    (hsuspended.trans hcard.symm) hle hquiet ?_
  · dsimp only [Walk.finalMeter, Meter.closed]
    omega
  · intro htrue
    exact absurd (hstill.symm.trans htrue) (by decide)
  · -- nothing waits, apart from this part itself
    by_cases hlast : u.meter.live = 1
    · refine .ended hstill ?_ rfl hgoes ⟨⟨node, ?_⟩, rfl⟩
      · dsimp only [Walk.finalMeter, Meter.closed]
        omega
      · rw [Part.allMoves_append, Part.allMoves_singleton, List.length_append, ← hvisits]
        dsimp only [Walk.report]
        rw [if_pos hlast, Meter.spent, Nat.min_eq_left (hleads.limit ▸ hmoves)]
    · refine .going hstill ?_ ?_
      · dsimp only [Walk.finalMeter, Meter.closed]
        omega
      · intro p hp
        rcases List.mem_append.1 hp with hp | hp
        · exact hgoes p hp
        · rw [List.mem_singleton.1 hp]
          exact ⟨if_neg hlast, rfl⟩

/-- The part in which the meter refuses a round for the first time. -/
private theorem walk_error {moves : List Work} {effects : List Effect} {rests : Multiset Continuation}
    {e : ScriptError} (h : Balance host chain script 1 w.meter waiting parts) (htripped : w.meter.tripped = false)
    (hopening : opening = [] ∨ opening = [.event script.name node .resumed])
    (hleads : Walk.Leads chain script moves effects w u) (hcard : rests.card = effects.countP Effect.isSuspended)
    (hrests : ∀ k ∈ rests, k.IsRest chain script) (hcharge : u.charge = (.error e, v)) :
    Balance host chain script 0 (v.finalMeter (.error e)) (rests + waiting)
      (parts ++ [⟨moves, opening ++ effects, v.report script.name node (.error e), .error e⟩]) := by
  obtain ⟨hexecuted, hsuspended, hle, hquiet⟩ := Walk.counts_of_leads (v := v) hleads hopening (.error e)
  obtain ⟨hvisits, hmoves⟩ := h.moves_le_of_leads htripped hleads
  obtain ⟨rfl, rfl, hrefused⟩ := Walk.charge_error_iff.1 hcharge
  have hgoes := h.goes htripped
  have hlive := hleads.live
  have hrunning := h.live
  have hstill : u.meter.tripped = false := hleads.tripped.trans htripped
  -- the chain was not stopped before, so its limit is used up
  have hfull : u.meter.limit ≤ u.meter.visits := by
    rcases hrefused with hfull | htrue
    · exact hfull
    · exact absurd (hstill.symm.trans htrue) (by decide)
  have hexact : u.meter.visits = u.meter.limit := by
    rw [hleads.limit] at hfull ⊢
    omega
  refine h.add hleads.limit ?_ hrests (fun hfalse => by cases hfalse) ?_ (by rwa [← hvisits]) hexecuted
    (hsuspended.trans hcard.symm) hle hquiet ?_
  · dsimp only [Walk.finalMeter, Meter.closed, Walk.charged]
    omega
  · intro _
    dsimp only [Walk.finalMeter, Meter.closed, Walk.charged]
    omega
  · refine .stopped rfl rfl hgoes ⟨⟨node, ?_⟩, ?_⟩ (by simp)
    · dsimp only [Walk.report, Walk.charged, Walk.finalMeter, Meter.closed]
      rw [hstill, hexact]
      rfl
    · dsimp only [Walk.charged, Walk.finalMeter, Meter.closed]
      rw [hexact]

/-- A part of a chain that was stopped before. -/
private theorem walk_leftover {e : ScriptError} (h : Balance host chain script 1 w.meter waiting parts)
    (htripped : w.meter.tripped = true) (hcharge : w.charge = (.error e, v)) :
    Balance host chain script 0 (v.finalMeter (.error e)) waiting
      (parts ++ [⟨[], [.event script.name node .resumed], v.report script.name node (.error e), .error e⟩]) := by
  obtain ⟨rfl, -, -⟩ := Walk.charge_error_iff.1 hcharge
  have hexceeded := h.exceeded htripped
  have hrunning := h.live
  have hreport : w.charged.report script.name node (.error e) = [] := if_pos htripped
  rw [hreport, ← Multiset.zero_add waiting]
  refine h.add rfl ?_ (by simp) (fun hfalse => by cases hfalse) ?_ h.moves_le rfl rfl (Nat.le_refl _)
    (by simp [Effect.isTerminal]) ?_
  · dsimp only [Walk.finalMeter, Meter.closed, Walk.charged]
    rw [Multiset.card_zero]
    omega
  · intro _
    dsimp only [Walk.finalMeter, Meter.closed, Walk.charged]
    omega
  · cases h.verdict with
    | going hfalse _ _ => exact absurd (hfalse.symm.trans htripped) (by decide)
    | ended hfalse _ _ _ _ => exact absurd (hfalse.symm.trans htripped) (by decide)
    | @stopped _ before after p hparts hgoes hstop hleft =>
      have hmore (q : Part) : parts ++ [q] = before ++ p :: (after ++ [q]) := by
        rw [hparts, List.append_assoc, List.cons_append]
      refine .stopped rfl (hmore _) hgoes hstop ?_
      intro q hq
      rcases List.mem_append.1 hq with hq | hq
      · exact hleft q hq
      · rw [List.mem_singleton.1 hq]
        exact ⟨rfl, ⟨node, rfl⟩, rfl, ⟨e, rfl⟩⟩

/-- A walk of a chain keeps the balance.  If the chain was stopped before, it is the walk of a branch that waited. -/
theorem outcome (h : Balance host chain script 1 w.meter (w.world.waitingOf chain) parts)
    (hchain : chain < w.world.meters.length)
    (hopening : opening = [] ∨ opening = [.event script.name node .resumed])
    (hstopped : w.meter.tripped = true →
      opening = [.event script.name node .resumed] ∧ ∃ i rest, stack = .visit i :: rest) :
    ∃ m, (w.outcome host chain script node stack).meters[chain]? = some m ∧
      Balance host chain script 0 m ((w.outcome host chain script node stack).waitingOf chain)
        (parts ++ [.ofWalk host chain script node opening stack w]) := by
  by_cases htripped : w.meter.tripped = true
  · -- the branch that goes on begins with a visit, and that is refused
    obtain ⟨rfl, i, rest, rfl⟩ := hstopped htripped
    have hcharge := Walk.charge_error_iff.2 ⟨rfl, rfl, .inr htripped⟩
    have hend : w.drive host chain script (.visit i :: rest) = _ := Walk.drive_visit_error hcharge
    have hleads : Walk.Leads chain script [] [] w w := .refl w
    rw [Walk.ofWalk_of_error (Walk.trail_visit_error hcharge) hleads hcharge hend, Walk.outcome_waitingOf hend,
      List.append_nil]
    exact ⟨_, Walk.outcome_meters hend hchain, h.walk_leftover htripped hcharge⟩
  · rw [Bool.not_eq_true] at htripped
    obtain ⟨effects, u, hleads, hend⟩ := Walk.drive_leads host chain script stack w
    obtain ⟨rests, hwaiting, hcard, hrests⟩ := hleads.waitingOf
    have hu : chain < u.world.meters.length := by rwa [hleads.meters]
    rcases hend with hend | ⟨e, v, hcharge, hend⟩
    · rw [Walk.ofWalk_of_ok rfl hleads hend, Walk.outcome_waitingOf hend, hwaiting]
      exact ⟨_, Walk.outcome_meters hend hu, h.walk_ok htripped hopening hleads hcard hrests⟩
    · have hv : v.world = u.world := by
        obtain ⟨rfl, -, -⟩ := Walk.charge_error_iff.1 hcharge
        rfl
      rw [Walk.ofWalk_of_error rfl hleads hcharge hend, Walk.outcome_waitingOf hend, hv, hwaiting]
      exact ⟨_, Walk.outcome_meters hend (hv ▸ hu), h.walk_error htripped hopening hleads hcard hrests hcharge⟩

end Balance

namespace Course

variable {host : Host} {script : Script} {start chain : Nat} {w : World} {parts : List Part}

private theorem balance_begin (hclosed : w.Closed) (hchain : w.meters.length = chain) :
    Balance host chain script 1 (.start host.limit) (w.waitingOf chain) [] := by
  have hnone : w.waitingOf chain = 0 := by
    rw [World.waitingOf, Multiset.filter_eq_nil]
    intro k hk heq
    have := hclosed k hk
    omega
  rw [hnone]
  exact {
    limit := rfl
    live := rfl
    rests := by simp
    visits := fun _ => rfl
    exceeded := fun htrue => by cases htrue
    moves_le := Nat.zero_le _
    executed := rfl
    suspended := Nat.le_refl _
    scheduled := rfl
    quiet := by simp
    verdict := .going rfl Nat.one_ne_zero (by simp) }

private theorem balance_resume {m : Meter} {k : Continuation} {waiting : Multiset Continuation}
    (h : Balance host chain script 0 m (k ::ₘ waiting) parts) : Balance host chain script 1 m waiting parts where
  limit := h.limit
  live := by rw [h.live, Multiset.card_cons]
  rests j hj := h.rests j (Multiset.mem_cons_of_mem hj)
  visits := h.visits
  exceeded := h.exceeded
  moves_le := h.moves_le
  executed := h.executed
  suspended := h.suspended
  scheduled := by rw [h.scheduled, Multiset.card_cons, ← Nat.add_assoc]
  quiet := h.quiet
  verdict := h.verdict

/-- The meter of a chain, its branches that wait and its parts belong together at any time between two parts. -/
theorem balance (h : Course host script start chain w parts) :
    ∃ m, w.meters[chain]? = some m ∧ Balance host chain script 0 m (w.waitingOf chain) parts := by
  induction h with
  | @begin w hclosed hchain =>
    subst hchain
    rw [World.execute_snd]
    have hbegin : Balance host _ script 1 _ _ [] := balance_begin hclosed rfl
    refine Balance.outcome (w := w.entry host) hbegin ?_ (.inl rfl) ?_
    · simp [World.entry]
    · rintro ⟨⟩
  | @resume w w' parts k hcourse htaken hmeter ih =>
    obtain ⟨m, hm, hbalance⟩ := ih
    -- the branch does not wait any longer, but it runs
    rw [htaken] at hbalance
    obtain ⟨rfl, rfl, hne, -⟩ := hbalance.rests k (Multiset.mem_cons_self k _)
    have hchain : w'.meters[k.chain]? = some m := hmeter.trans hm
    have hmeter' := World.meter_eq hchain
    rw [World.resume_eq]
    refine Balance.outcome ?_ (List.getElem?_eq_some_iff.1 hchain).1 (.inr rfl) ?_
    · dsimp only [World.reentry]
      rw [hmeter']
      exact balance_resume hbalance
    · intro _
      obtain ⟨i, rest, hrest⟩ := List.exists_cons_of_ne_nil hne
      exact ⟨rfl, i, rest.map .visit, by rw [hrest, List.map_cons]⟩
  | elsewhere _ hwaiting hmeter ih =>
    rw [hwaiting, hmeter]
    exact ih

/-- What waits of a chain is of its script. -/
theorem script_eq (h : Course host script start chain w parts) {k : Continuation} (hk : k ∈ w.waitingOf chain) :
    k.script = script := by
  obtain ⟨m, -, hbalance⟩ := h.balance
  exact (hbalance.rests k hk).script_eq

end Course

/-! ### What a walk leaves alone -/

namespace Walk

variable {host : Host} {chain : Nat} {script : Script} {node : String} {opening : List Effect} {stack : List Work}
  {w : Walk}

/-- A walk ends after some rounds, with at most a visit more on its meter. -/
theorem exists_leads (host : Host) (chain : Nat) (script : Script) (stack : List Work) (w : Walk) :
    ∃ moves effects u, Leads chain script moves effects w u ∧ (w.drive host chain script stack).2.world = u.world ∧
      (w.drive host chain script stack).2.meter.limit = u.meter.limit ∧
      u.meter.visits ≤ (w.drive host chain script stack).2.meter.visits := by
  obtain ⟨effects, u, hleads, hend | ⟨e, v, hcharge, hend⟩⟩ := drive_leads host chain script stack w
  · rw [hend]
    exact ⟨_, effects, u, hleads, rfl, rfl, Nat.le_refl _⟩
  · obtain ⟨rfl, -, -⟩ := charge_error_iff.1 hcharge
    rw [hend]
    exact ⟨_, effects, u, hleads, rfl, rfl, Nat.le_succ _⟩

/-- The effects of a part are what its walk adds to the trace. -/
theorem outcome_trace (node : String) (opening : List Effect) (stack : List Work) (before : List Effect)
    (hbefore : w.world.trace.toList = before ++ opening) :
    (w.outcome host chain script node stack).trace.toList =
      before ++ (Part.ofWalk host chain script node opening stack w).effects := by
  obtain ⟨moves, effects, u, hleads, hworld, -⟩ := exists_leads host chain script stack w
  rw [outcome, Part.effects, Part.ofWalk]
  dsimp only
  rw [finish_trace, hworld, hleads.trace, List.drop_left, hbefore]
  simp only [List.append_assoc]

theorem outcome_length : (w.outcome host chain script node stack).meters.length = w.world.meters.length := by
  obtain ⟨moves, effects, u, hleads, hworld, -⟩ := exists_leads host chain script stack w
  rw [outcome]
  dsimp only
  rw [finish_meters, List.length_set, hworld, hleads.meters]

/-- A walk touches no meter but that of its chain. -/
theorem outcome_meters_of_ne {other : Nat} (hne : other ≠ chain) :
    (w.outcome host chain script node stack).meters[other]? = w.world.meters[other]? := by
  obtain ⟨moves, effects, u, hleads, hworld, -⟩ := exists_leads host chain script stack w
  rw [outcome]
  dsimp only
  rw [finish_meters, List.getElem?_set_ne hne.symm, hworld, hleads.meters]

/-- A walk leaves nothing waiting of other chains. -/
theorem outcome_waitingOf_of_ne {other : Nat} (hne : other ≠ chain) :
    (w.outcome host chain script node stack).waitingOf other = w.world.waitingOf other := by
  obtain ⟨moves, effects, u, hleads, hworld, -⟩ := exists_leads host chain script stack w
  rw [outcome_waitingOf rfl, hworld, hleads.waitingOf_of_ne hne]

theorem outcome_closed (hchain : chain < w.world.meters.length) (hclosed : w.world.Closed) :
    (w.outcome host chain script node stack).Closed := by
  obtain ⟨moves, effects, u, hleads, hworld, -⟩ := exists_leads host chain script stack w
  obtain ⟨rests, htasks, -, hrests⟩ := hleads.waiting
  intro k hk
  rw [outcome_length]
  rw [outcome] at hk
  dsimp only at hk
  rw [finish_timers, hworld, htasks] at hk
  rcases Multiset.mem_add.1 hk with hk | hk
  · rwa [(hrests k hk).chain_eq]
  · exact hclosed k hk

end Walk

namespace World

theorem trace_execute (host : Host) (script : Script) (start : Nat) (w : World) :
    (w.execute host script start).2.trace.toList = w.trace.toList ++ (w.firstPart host script start).effects :=
  Walk.outcome_trace _ _ _ _ (by simp)

theorem trace_resume (host : Host) (k : Continuation) (w : World) :
    (w.resume host k).trace.toList = w.trace.toList ++ (w.nextPart host k).effects :=
  Walk.outcome_trace _ _ _ _ (by simp [emit, record])

/-- A start of a chain leaves the meters of other chains alone, and what waits of them. -/
theorem execute_of_ne (host : Host) (script : Script) (start : Nat) {w : World} {other : Nat}
    (hne : other ≠ w.meters.length) :
    (w.execute host script start).2.waitingOf other = w.waitingOf other ∧
      (w.execute host script start).2.meters[other]? = w.meters[other]? := by
  rw [execute_snd, Walk.outcome_waitingOf_of_ne hne, Walk.outcome_meters_of_ne hne]
  refine ⟨rfl, ?_⟩
  rw [entry, List.getElem?_append]
  split
  · rfl
  · rw [List.getElem?_eq_none (by simp; omega), List.getElem?_eq_none (by omega)]

/-- A branch leaves the meters of other chains alone, and what waits of them. -/
theorem resume_of_ne (host : Host) {k : Continuation} (w : World) {other : Nat} (hne : other ≠ k.chain) :
    (w.resume host k).waitingOf other = w.waitingOf other ∧
      (w.resume host k).meters[other]? = w.meters[other]? := by
  rw [resume_eq, Walk.outcome_waitingOf_of_ne hne, Walk.outcome_meters_of_ne hne]
  exact ⟨rfl, rfl⟩

theorem closed_ofVariables (vars : Variables) : (ofVariables vars).Closed := by
  intro k hk
  simp [ofVariables, Timers.start, Timers.tasks] at hk

theorem closed_execute (host : Host) (script : Script) (start : Nat) {w : World} (hclosed : w.Closed) :
    (w.execute host script start).2.Closed := by
  rw [execute_snd]
  refine Walk.outcome_closed (by simp [entry]) fun k hk => ?_
  rw [entry, List.length_append]
  exact Nat.lt_of_lt_of_le (hclosed k hk) (Nat.le_add_right _ _)

theorem closed_resume (host : Host) (k : Continuation) {w : World} (hclosed : w.Closed)
    (hchain : k.chain < w.meters.length) : (w.resume host k).Closed :=
  Walk.outcome_closed hchain hclosed

end World

/-! ### Courses between other things -/

namespace Timers

variable {α σ : Type} [Clocked σ α]

theorem sweepFrom_of_none {run : α → σ → σ} {target : Duration} {ran bound : Nat} {s : σ}
    (h : (Clocked.timers s).takeDue target = none) :
    sweepFrom ran run target bound s = some (ran, setNow s target) := by
  rw [sweepFrom, h]

theorem sweepFrom_of_some {run : α → σ → σ} {target : Duration} {ran bound : Nat} {s : σ} {task : α}
    {rest : Timers α} (h : (Clocked.timers s).takeDue target = some (task, rest)) :
    sweepFrom ran run target (bound + 1) s =
      sweepFrom (ran + 1) run target bound (run task (Clocked.withTimers s rest)) := by
  rw [sweepFrom, h]

/-- What holds of a sweep that ends holds if it holds when nothing is due, and before a task if it holds after it. -/
theorem sweepFrom_induction {run : α → σ → σ} {target : Duration} {answer : Nat × σ}
    {motive : Nat → Nat → σ → Prop}
    (none : ∀ ran bound s, (Clocked.timers s).takeDue target = none → answer = (ran, setNow s target) →
      motive ran bound s)
    (task : ∀ ran bound s task rest, (Clocked.timers s).takeDue target = some (task, rest) →
      motive (ran + 1) bound (run task (Clocked.withTimers s rest)) → motive ran (bound + 1) s)
    {ran bound : Nat} {s : σ} (h : sweepFrom ran run target bound s = some answer) : motive ran bound s := by
  induction bound generalizing ran s with
  | zero =>
    rw [sweepFrom] at h
    split at h
    · next htake => exact none _ _ _ htake (Option.some.inj h).symm
    · cases h
  | succ bound ih =>
    rw [sweepFrom] at h
    split at h
    · next htake => exact none _ _ _ htake (Option.some.inj h).symm
    · next htake => exact task _ _ _ _ _ htake (ih h)

/-- A sweep keeps what each of its tasks keeps. -/
theorem sweepFrom_invariant {P : σ → Prop} {run : α → σ → σ} {target : Duration}
    (hrun : ∀ s task rest, (Clocked.timers s).takeDue target = some (task, rest) → P s →
      P (run task (Clocked.withTimers s rest)))
    (hnow : ∀ s, P s → P (setNow s target)) {ran bound : Nat} {s : σ} {answer : Nat × σ} (hs : P s)
    (h : sweepFrom ran run target bound s = some answer) : P answer.2 := by
  refine sweepFrom_induction (motive := fun _ _ s => P s → P answer.2) ?_ ?_ h hs
  · rintro ran bound s - rfl hs
    exact hnow s hs
  · intro ran bound s task rest htake ih hs
    exact ih (hrun s task rest htake hs)

end Timers

namespace Course

variable {host : Host} {script : Script} {start chain : Nat} {w : World} {parts : List Part}

/-- Another chain may start. -/
theorem execute (h : Course host script start chain w parts) (host' : Host) (script' : Script) (start' : Nat) :
    Course host script start chain (w.execute host' script' start').2 parts := by
  obtain ⟨m, hm, -⟩ := h.balance
  have hlt : chain < w.meters.length := (List.getElem?_eq_some_iff.1 hm).1
  obtain ⟨hwaiting, hmeter⟩ := w.execute_of_ne host' script' start' (Nat.ne_of_lt hlt)
  exact h.elsewhere hwaiting hmeter

/-- A branch of another chain may go on. -/
theorem resume_other (h : Course host script start chain w parts) (host' : Host) {k : Continuation}
    (hne : k.chain ≠ chain) : Course host script start chain (w.resume host' k) parts := by
  obtain ⟨hwaiting, hmeter⟩ := w.resume_of_ne host' hne.symm
  exact h.elsewhere hwaiting hmeter

/-- A branch of the chain may be the first to fall due, and goes on. -/
theorem resume_due {target : Duration} {k : Continuation} {rest : Timers Continuation}
    (h : Course host script start chain w parts) (htake : w.timers.takeDue target = some (k, rest))
    (hchain : k.chain = chain) :
    Course host script start chain (World.resume host k { w with timers := rest })
      (parts ++ [World.nextPart host k { w with timers := rest }]) := by
  have htaken : w.waitingOf chain = k ::ₘ World.waitingOf { w with timers := rest } chain :=
    (congrArg _ (Timers.tasks_takeDue htake)).trans (Multiset.filter_cons_of_pos _ hchain)
  exact h.resume htaken rfl

/-- A branch of another chain may be the first to fall due. -/
theorem resume_due_other {target : Duration} {k : Continuation} {rest : Timers Continuation}
    (h : Course host script start chain w parts) (htake : w.timers.takeDue target = some (k, rest))
    (hne : k.chain ≠ chain) :
    Course host script start chain (World.resume host k { w with timers := rest }) parts := by
  have hrest : Course host script start chain { w with timers := rest } parts :=
    h.elsewhere (World.waitingOf_takeDue_of_ne htake hne.symm) rfl
  exact hrest.resume_other host hne

/-- When time passes, the course of each chain goes on. -/
theorem advance (h : Course host script start chain w parts) (elapsed : Duration) :
    ∃ more, Course host script start chain (w.advance host elapsed).2 (parts ++ more) := by
  rw [World.advance]
  cases hsweep : Timers.sweep (World.resume host) (w.timers.now + elapsed) w.capacity w with
  | none => exact ⟨[], by simpa using h⟩
  | some answer =>
    refine Timers.sweepFrom_invariant (P := fun s => ∃ more, Course host script start chain s (parts ++ more)) ?_ ?_
      ⟨[], by simpa using h⟩ hsweep
    · rintro s k rest htake ⟨more, hcourse⟩
      by_cases hchain : k.chain = chain
      · refine ⟨more ++ [World.nextPart host k { s with timers := rest }], ?_⟩
        rw [← List.append_assoc]
        exact hcourse.resume_due htake hchain
      · exact ⟨more, hcourse.resume_due_other htake hchain⟩
    · rintro s ⟨more, hcourse⟩
      exact ⟨more, hcourse.elsewhere rfl rfl⟩

end Course

/-- What waits still belongs to chains that were started when time has passed. -/
theorem World.closed_advance (host : Host) (elapsed : Duration) {w : World} (hclosed : w.Closed) :
    (w.advance host elapsed).2.Closed := by
  rw [advance]
  cases hsweep : Timers.sweep (resume host) (w.timers.now + elapsed) w.capacity w with
  | none => exact hclosed
  | some answer =>
    refine Timers.sweepFrom_invariant (P := Closed) ?_ (fun _ hs => hs) hclosed hsweep
    intro s k rest htake hs
    obtain ⟨a, ha, -, -, rfl⟩ := Timers.takeDue_eq_some_iff.1 htake
    have htasks : s.timers.tasks = k ::ₘ (s.timers.reach a).tasks := Timers.tasks_reach ha
    have hrest : Closed { s with timers := s.timers.reach a } := by
      intro j hj
      exact hs j (htasks ▸ Multiset.mem_cons_of_mem hj)
    exact closed_resume host k hrest (hs k (htasks ▸ Multiset.mem_cons_self k _))

/-! ### A chain that does not come to rest by itself -/

/-- A start that leads to a pause of no length, and from there to itself again. -/
def spin : Script :=
  let first := Node.make "first" .event "On Start" ⟨0, 0⟩ .gold
  let pause := ((Node.make "pause" .logic "Wait" ⟨1, 0⟩ .gray).setInput 0 "0").2
  Script.make "spin" ((((Graph.empty.add first).add pause).connect 0 1).2.connect 1 0).2

theorem Course.begin_spin (host : Host) :
    Course host spin 0 0 ((World.ofVariables .empty).execute host spin 0).2
      [World.firstPart host spin 0 (.ofVariables .empty)] :=
  .begin (World.closed_ofVariables .empty) rfl

namespace Walk

variable {host : Host} {chain : Nat} {w : Walk}

/-- The start of `spin` leads to the pause. -/
private theorem visit_spin_first (host : Host) (chain : Nat) (w : Walk) :
    ∃ u, w.visit host chain spin 0 = ([.visit 1], u) ∧ u.meter = w.meter ∧ u.world.meters = w.world.meters ∧
      u.world.timers = w.world.timers := by
  obtain ⟨n, hn, hturn, hnext⟩ : ∃ n, spin.graph.node? 0 = some n ∧ (∀ vars, n.turn vars = .onward) ∧
      n.targets = [1] := ⟨_, rfl, fun _ => rfl, rfl⟩
  obtain ⟨effects, -, hafter⟩ := w.world.after_act host spin.name n
  refine ⟨w.acted host spin n, ?_, rfl, hafter.meters, hafter.timers⟩
  rw [visit_of_some hn, hturn, hnext]
  rfl

/-- Behind the pause of `spin` its start waits. -/
private theorem visit_spin_pause (host : Host) (chain : Nat) (w : Walk) :
    ∃ u, w.visit host chain spin 1 = ([], u) ∧ u.meter = w.meter.opened ∧ u.world.meters = w.world.meters ∧
      u.world.timers = w.world.timers.schedule 0 ⟨chain, spin, "pause", [0]⟩ := by
  obtain ⟨n, hn, hkind, hlabel, hinput, hid, hnext⟩ : ∃ n, spin.graph.node? 1 = some n ∧ n.kind = .logic ∧
      n.label = "Wait" ∧ n.inputValue 0 = "0" ∧ n.id = "pause" ∧ n.targets = [0] :=
    ⟨_, rfl, rfl, rfl, rfl, rfl, rfl⟩
  have hseconds : Reading.seconds "0" = some 0 := by decide +kernel
  have hturn (vars : Variables) : n.turn vars = .later 0 := by
    simp only [Node.turn, hkind, hlabel, hinput, hseconds]
  obtain ⟨effects, -, hafter⟩ := w.world.after_act host spin.name n
  refine ⟨(w.acted host spin n).suspend chain spin n.id 0 n.targets, ?_, rfl, hafter.meters, ?_⟩
  · rw [visit_of_some hn, hturn, hnext]
    rfl
  · rw [hid, hnext, ← hafter.timers]
    rfl

/-- With two visits left, `spin` comes to its pause. -/
theorem drive_spin_ok (host : Host) (chain : Nat) (hvisits : w.meter.visits + 2 ≤ w.meter.limit)
    (htripped : w.meter.tripped = false) :
    ∃ v, w.drive host chain spin [.visit 0] = (.ok (), v) ∧
      v.meter = ⟨w.meter.visits + 2, w.meter.limit, false, w.meter.live + 1⟩ ∧
      v.world.meters = w.world.meters ∧
      v.world.timers = w.world.timers.schedule 0 ⟨chain, spin, "pause", [0]⟩ := by
  have hcharge : w.charge = (.ok (), w.charged) := charge_ok_iff.2 ⟨rfl, by omega, htripped⟩
  obtain ⟨u, hvisit, hmeter, hmeters, htimers⟩ := visit_spin_first host chain w.charged
  have hcharge' : u.charge = (.ok (), u.charged) := by
    refine charge_ok_iff.2 ⟨rfl, ?_, ?_⟩ <;> rw [hmeter]
    · exact hvisits
    · exact htripped
  obtain ⟨v, hvisit', hmeter', hmeters', htimers'⟩ := visit_spin_pause host chain u.charged
  refine ⟨v, ?_, ?_, hmeters'.trans hmeters, ?_⟩
  · rw [drive_visit_ok hcharge, hvisit, List.append_nil, drive_visit_ok hcharge', hvisit', List.nil_append, drive_nil]
  · rw [hmeter', charged, hmeter, ← htripped]
    rfl
  · rw [htimers', charged, htimers]
    rfl

/-- With less than two left, it is stopped before that. -/
theorem drive_spin_error (host : Host) (chain : Nat) (hle : w.meter.visits ≤ w.meter.limit)
    (hlt : w.meter.limit < w.meter.visits + 2) (htripped : w.meter.tripped = false) :
    ∃ e v, w.drive host chain spin [.visit 0] = (.error e, v) ∧ v.meter.visits = w.meter.limit + 1 ∧
      v.meter.limit = w.meter.limit ∧ v.world.meters = w.world.meters ∧ v.world.timers = w.world.timers := by
  rcases Nat.eq_or_lt_of_le hle with hfull | hleft
  · have hcharge : w.charge = (.error _, w.charged) := charge_error_iff.2 ⟨rfl, rfl, .inl (Nat.le_of_eq hfull.symm)⟩
    exact ⟨_, _, drive_visit_error hcharge, congrArg (· + 1) hfull, rfl, rfl, rfl⟩
  · have hcharge : w.charge = (.ok (), w.charged) := charge_ok_iff.2 ⟨rfl, hleft, htripped⟩
    obtain ⟨u, hvisit, hmeter, hmeters, htimers⟩ := visit_spin_first host chain w.charged
    have hvisits : u.meter.visits = w.meter.limit := by
      rw [hmeter]
      exact Nat.le_antisymm hleft (Nat.le_of_lt_succ hlt)
    have hlimit : u.meter.limit = w.meter.limit := by
      rw [hmeter]
      rfl
    have hcharge' : u.charge = (.error _, u.charged) :=
      charge_error_iff.2 ⟨rfl, rfl, .inl (Nat.le_of_eq (hlimit.trans hvisits.symm))⟩
    refine ⟨.runaway (u.meter.visits + 1) u.meter.limit, u.charged, ?_, congrArg (· + 1) hvisits, hlimit, hmeters,
      htimers⟩
    rw [drive_visit_ok hcharge, hvisit, List.append_nil, drive_visit_error hcharge']

end Walk

/-- The first part of `spin` leaves the branch behind the pause waiting. -/
private theorem World.execute_spin (host : Host) (hle : 2 ≤ host.limit) :
    let w := ((ofVariables .empty).execute host spin 0).2
    (firstPart host spin 0 (ofVariables .empty)).answer = .ok () ∧ w.meters = [⟨2, host.limit, false, 1⟩] ∧
      w.timers = Timers.start.schedule 0 ⟨0, spin, "pause", [0]⟩ := by
  intro w
  obtain ⟨v, hdrive, hmeter, hmeters, htimers⟩ := Walk.drive_spin_ok host (ofVariables .empty).meters.length
    (w := (ofVariables .empty).entry host) hle rfl
  have hw : w = v.finish 0 spin.name (nodeName spin 0) (.ok ()) := by
    dsimp only [w]
    rw [execute_snd, Walk.outcome, hdrive]
    rfl
  refine ⟨?_, ?_, ?_⟩
  · rw [firstPart, Part.ofWalk, hdrive]
  · rw [hw, Walk.finish_meters, hmeters, Walk.finalMeter, hmeter]
    rfl
  · rw [hw, Walk.finish_timers, htimers]
    rfl

/-- If three visits are allowed at most, there is not enough on the meter for that branch to go round. -/
private theorem World.resume_spin (host : Host) (hle : 2 ≤ host.limit) (hlt : host.limit < 4) {w : World}
    (hmeters : w.meters = [⟨2, host.limit, false, 1⟩]) :
    let k : Continuation := ⟨0, spin, "pause", [0]⟩
    (∃ e, (w.nextPart host k).answer = .error e) ∧ (w.resume host k).timers = w.timers ∧
      ∃ m, (w.resume host k).meters = [m] ∧ m.visits = host.limit + 1 ∧ m.limit = host.limit := by
  intro k
  have hmeter : (w.reentry k).meter = ⟨2, host.limit, false, 1⟩ := meter_eq (congrArg (·[0]?) hmeters)
  obtain ⟨e, u, hdrive, hvisits, hlimit, hmeters', htimers⟩ := Walk.drive_spin_error host 0 (w := w.reentry k)
    (by rw [hmeter]; exact hle) (by rw [hmeter]; exact hlt) (by rw [hmeter])
  rw [hmeter] at hvisits hlimit
  have hdrive' : (w.reentry k).drive host k.chain k.script (k.rest.map .visit) = (.error e, u) := hdrive
  have hresume : w.resume host k = u.finish 0 spin.name "pause" (.error e) := by
    rw [resume_eq, Walk.outcome, hdrive']
  refine ⟨⟨e, ?_⟩, ?_, u.finalMeter (.error e), ?_, hvisits, hlimit⟩
  · rw [nextPart, Part.ofWalk, hdrive']
  · rw [hresume, Walk.finish_timers, htimers]
    rfl
  · have hone : (w.reentry k).world.meters = w.meters := rfl
    rw [hresume, Walk.finish_meters, hmeters', hone, hmeters]
    rfl

/-- Under a ceiling of two or three visits `spin` waits once, and when it goes on it is stopped. -/
theorem Course.advance_spin (host : Host) (hle : 2 ≤ host.limit) (hlt : host.limit < 4) :
    let w := (((World.ofVariables .empty).execute host spin 0).2.advance host 0).2
    ∃ p m, Course host spin 0 0 w [World.firstPart host spin 0 (.ofVariables .empty), p] ∧
      (World.firstPart host spin 0 (.ofVariables .empty)).answer = .ok () ∧ (∃ e, p.answer = .error e) ∧
      w.pending = 0 ∧ w.meters = [m] ∧ m.visits = host.limit + 1 ∧ m.limit = host.limit := by
  let w := ((World.ofVariables .empty).execute host spin 0).2
  let k : Continuation := ⟨0, spin, "pause", [0]⟩
  obtain ⟨hanswer, hmeters, htimers⟩ := World.execute_spin host hle
  have hwaits : w.timers.size = 1 := by
    dsimp only [w]
    rw [htimers, Timers.size_schedule]
    rfl
  obtain ⟨rest, htake, hnone⟩ : ∃ rest, w.timers.takeDue (w.timers.now + 0) = some (k, rest) ∧ rest.size = 0 := by
    dsimp only [w]
    rw [htimers]
    exact Timers.takeDue_schedule rfl k (Nat.le_refl _)
  obtain ⟨hrefused, htimers', m, hmeters', hm⟩ :=
    World.resume_spin host hle hlt (w := { w with timers := rest }) hmeters
  have hadvance : (w.advance host 0).2 =
      Timers.setNow (World.resume host k { w with timers := rest }) (w.timers.now + 0) := by
    have hbound : w.capacity = (w.meters.foldr (fun m visits => m.left + visits) 0) + 1 := by
      rw [World.capacity, World.pending, hwaits, Nat.add_comm]
    have hend : (World.resume host k { w with timers := rest }).timers.takeDue (w.timers.now + 0) = none := by
      rw [htimers']
      exact Timers.takeDue_of_size_eq_zero hnone _
    rw [World.advance, Timers.sweep, hbound, Timers.sweepFrom_of_some htake, Timers.sweepFrom_of_none hend]
    rfl
  refine ⟨_, m, ?_, hanswer, hrefused, ?_, ?_, hm⟩
  · exact hadvance ▸ ((Course.begin_spin host).resume_due htake rfl).elsewhere rfl rfl
  · change (w.advance host 0).2.timers.size = 0
    rw [hadvance]
    exact (congrArg Timers.size htimers').trans hnone
  · change (w.advance host 0).2.meters = [m]
    rw [hadvance]
    exact hmeters'

end ScriptGraph
