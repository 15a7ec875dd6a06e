import ScriptGraph.Channel
import ScriptGraph.Proofs.Deeds
import ScriptGraph.Proofs.Reports

/-!
# Tallies of events

The counts of a script are numbers of events in the trace (`ScriptStats.foldl_count`), and the counts of all scripts
add up to the numbers of events of all scripts (`Effect.foldr_countP_isOf`).  So they can be told from the effects
of the parts of chains.  All events of a part are of its own script.  No chain starts in it (`Walk.ends_ofWalk`), no
branch goes on but at its opening (`Walk.countP_isResumed_ofWalk`), and all that it leaves waiting is suspended
(`Walk.card_tasks_outcome`).  The engine listens with stars for scripts and nodes, and so it misses no event
(`Listener.exists_make_star`).
-/

namespace ScriptGraph

/-! ### Events of scripts -/

namespace Effect

/-- The script of an event. -/
def script? : Effect → Option String
  | event script _ _ => some script
  | _ => none

/-- Whether a trigger starts a chain. -/
def isStarted : Effect → Bool
  | event _ _ (.started _) => true
  | _ => false

/-- Whether a branch goes on. -/
def isResumed : Effect → Bool
  | event _ _ .resumed => true
  | _ => false

/-- Whether an effect is of some kind, and an event of a script. -/
def isOf (name : String) (kind : Effect → Bool) (e : Effect) : Bool := kind e && e.script? == some name

/-- The numbers of events of all scripts add up. -/
theorem foldr_countP_isOf {names : List String} {kind : Effect → Bool} {trace : List Effect} (hnodup : names.Nodup)
    (hnames : ∀ e ∈ trace, kind e → ∃ name ∈ names, e.script? = some name) :
    names.foldr (fun name total => trace.countP (isOf name kind) + total) 0 = trace.countP kind := by
  induction names generalizing kind with
  | nil =>
    refine (List.countP_eq_zero.2 fun e he hkind => ?_).symm
    obtain ⟨name, hname, -⟩ := hnames e he hkind
    cases hname
  | cons name names ih =>
    rw [List.nodup_cons] at hnodup
    -- the events of the first script are left out for all others
    let others (e : Effect) : Bool := kind e && !(e.script? == some name)
    have hkind : trace.countP kind = trace.countP (isOf name kind) + trace.countP others := by
      rw [List.countP_eq_countP_filter_add _ kind fun e => e.script? == some name, List.countP_filter,
        List.countP_filter]
      rfl
    have hothers : ∀ name' ∈ names, ∀ total,
        trace.countP (isOf name' kind) + total = trace.countP (isOf name' others) + total := by
      intro name' hname' total
      have hne : name' ≠ name := fun heq => hnodup.1 (heq ▸ hname')
      rw [Nat.add_right_cancel_iff]
      refine List.countP_congr fun e _ => ?_
      simp only [isOf, others, Bool.and_eq_true, Bool.not_eq_true', beq_iff_eq, beq_eq_false_iff_ne]
      constructor
      · rintro ⟨hkind, hname⟩
        exact ⟨⟨hkind, by simpa [hname] using hne⟩, hname⟩
      · rintro ⟨⟨hkind, -⟩, hname⟩
        exact ⟨hkind, hname⟩
    rw [List.foldr_cons, List.foldr_ext _ _ 0 hothers, ih hnodup.2, hkind]
    intro e he hother
    simp only [others, Bool.and_eq_true, Bool.not_eq_true', beq_eq_false_iff_ne] at hother
    obtain ⟨name', hname', hscript⟩ := hnames e he hother.1
    rcases List.mem_cons.1 hname' with rfl | hname'
    · exact absurd hscript hother.2
    · exact ⟨name', hname', hscript⟩

end Effect

namespace ScriptStats

theorem getD_ofTrace (name : String) (trace : List Effect) :
    (ofTrace name trace).getD zero = (eventsOf name trace).foldl count zero := by
  unfold ofTrace
  split
  · next h => rw [h]; rfl
  · rfl

/-- The counts of a script are numbers of its events. -/
theorem foldl_count (name : String) (trace : List Effect) (s : ScriptStats) :
    ((eventsOf name trace).foldl count s).chains = s.chains + trace.countP (Effect.isOf name Effect.isStarted) ∧
    ((eventsOf name trace).foldl count s).finished + ((eventsOf name trace).foldl count s).aborted =
      s.finished + s.aborted + trace.countP (Effect.isOf name Effect.isTerminal) ∧
    ((eventsOf name trace).foldl count s).suspended =
      s.suspended + trace.countP (Effect.isOf name Effect.isSuspended) := by
  induction trace generalizing s with
  | nil => exact ⟨rfl, rfl, rfl⟩
  | cons e trace ih =>
    by_cases hname : e.script? = some name
    · obtain ⟨node, e, rfl⟩ : ∃ node event, e = .event name node event := by
        cases e <;> simp_all [Effect.script?]
      have hcons : eventsOf name (.event name node e :: trace) = e :: eventsOf name trace := by
        simp [eventsOf]
      obtain ⟨hchains, hends, hsuspended⟩ := ih (s.count e)
      rw [hcons, List.foldl_cons, hchains, hends, hsuspended]
      simp only [List.countP_cons, Effect.isOf, hname]
      cases e <;> simp [count, Effect.isStarted, Effect.isTerminal, Effect.isSuspended] <;> omega
    · have hcons : eventsOf name (e :: trace) = eventsOf name trace := by
        cases e <;> simp_all [Effect.script?, eventsOf]
      have hnone (kind : Effect → Bool) : Effect.isOf name kind e = false := by
        simp [Effect.isOf, hname]
      rw [hcons]
      simpa [List.countP_cons, hnone] using ih s

end ScriptStats

/-! ### A listener for everything -/

namespace Glob

theorem parse?_star : parse? "*" = some all := by
  have htext : "*".toList = ['*'] := rfl
  simp [parse?, htext, readFrom, Reading.push, Part.star, Reading.current, Part.toPattern, Text.Pattern.concat, all]

theorem accepts_all (name : String) : all.accepts name = true := by
  have hafter (bs : List Nat) : Text.Pattern.anyBytes.after bs = [Text.Pattern.anyBytes] := by
    unfold Text.Pattern.after
    induction bs with
    | nil => rfl
    | cons b bs ih =>
      have hnext : Text.Pattern.anyBytes.next b = [Text.Pattern.anyBytes] := by
        simp [Text.Pattern.anyBytes, Text.Pattern.anyByte, Text.Pattern.next, Text.Pattern.concat]
      rw [List.foldl_cons, List.flatMap_singleton, hnext]
      exact ih
  rw [accepts, Text.Pattern.accepts, all, hafter]
  rfl

end Glob

/-- With stars for scripts and nodes a listener hears of every event, as the one does that keeps the counts. -/
theorem Listener.exists_make_star (number : Nat) :
    ∃ l, make number .event "*" "*" = .ok l ∧ ∀ script node e, l.hears script node e = true := by
  refine ⟨⟨number, .event, .all, .all⟩, ?_, fun script node e => ?_⟩
  · rw [make, Glob.parse?_star]
  · rw [hears, Glob.accepts_all, Glob.accepts_all]
    rfl

/-! ### The effects of a part -/

/-- Whether an effect may be of a walk of a script, after its opening: if it is an event, it is one of that script,
and no chain starts or goes on with it. -/
def Effect.isWithin (script : String) : Effect → Bool
  | .event _ _ (.started _) | .event _ _ .resumed => false
  | .event name _ _ => name == script
  | _ => true

namespace Walk

private theorem isWithin_effects (host : Host) (script node : String) (calls : List Call) (d : Deed) :
    ∀ e ∈ d.effects host.dispatch script node calls, e.isWithin script := by
  cases d with
  | ask c =>
    rw [Deed.effects]
    cases host.dispatch calls c <;> simp [Deed.refusal, Effect.isWithin]
  | _ => simp [Deed.effects, Effect.isWithin]

private theorem exists_within_visit (host : Host) (chain : Nat) (script : Script) (i : Nat) (w : Walk) :
    ∃ effects, (w.visit host chain script i).2.world.trace.toList = w.world.trace.toList ++ effects ∧
      ∀ e ∈ effects, e.isWithin script.name := by
  cases hnode : script.graph.node? i with
  | none =>
    rw [visit_of_none hnode]
    exact ⟨[], by simp, by simp⟩
  | some n =>
    let deed := (n.deed w.world.vars).effects host.dispatch script.name n.id w.world.calls
    have hdeed : ∀ e ∈ deed, e.isWithin script.name :=
      isWithin_effects host script.name n.id w.world.calls _
    have hacted : (w.acted host script n).world.trace.toList =
        w.world.trace.toList ++ .event script.name n.id .executed :: deed := by
      rw [acted, World.act_eq]
      simp [World.withDeed, World.emit, World.record, deed]
    have hexecuted : (Effect.event script.name n.id .executed).isWithin script.name := by simp [Effect.isWithin]
    rw [visit_of_some hnode]
    cases n.turn w.world.vars with
    | later delay =>
      dsimp only
      split
      · exact ⟨_, hacted, List.forall_mem_cons.2 ⟨hexecuted, hdeed⟩⟩
      · refine ⟨.event script.name n.id .executed :: deed ++ [.event script.name n.id (.suspended delay)], ?_, ?_⟩
        · simp [suspend, World.emit, World.record, hacted]
        · rw [List.forall_mem_append, List.forall_mem_cons]
          exact ⟨⟨hexecuted, hdeed⟩, by simp [Effect.isWithin]⟩
    | _ => exact ⟨_, hacted, List.forall_mem_cons.2 ⟨hexecuted, hdeed⟩⟩

private theorem exists_within_drive (host : Host) (chain : Nat) (script : Script) (stack : List Work) (w : Walk) :
    ∃ effects, (w.drive host chain script stack).2.world.trace.toList = w.world.trace.toList ++ effects ∧
      ∀ e ∈ effects, e.isWithin script.name := by
  induction stack, w using rounds_induction host chain script with
  | nil w =>
    rw [drive_nil]
    exact ⟨[], by simp, by simp⟩
  | idle source remaining stack w hidle ih =>
    rw [drive_passes_idle hidle]
    exact ih
  | passRefused source remaining stack w v e hnext hcharge =>
    rw [drive_passes_error hnext hcharge]
    obtain ⟨rfl, -, -⟩ := charge_error_iff.1 hcharge
    exact ⟨[], by simp [charged], by simp⟩
  | pass source remaining stack w v hnext hcharge ih =>
    rw [drive_passes_ok hnext hcharge]
    obtain ⟨rfl, -, -⟩ := charge_ok_iff.1 hcharge
    exact ih
  | refused i stack w v e hcharge =>
    rw [drive_visit_error hcharge]
    obtain ⟨rfl, -, -⟩ := charge_error_iff.1 hcharge
    exact ⟨[], by simp [charged], by simp⟩
  | visit i stack w v hcharge ih =>
    rw [drive_visit_ok hcharge]
    obtain ⟨rfl, -, -⟩ := charge_ok_iff.1 hcharge
    obtain ⟨first, hfirst, hwithin⟩ := exists_within_visit host chain script i w.charged
    obtain ⟨later, hlater, hwithin'⟩ := ih
    refine ⟨first ++ later, ?_, List.forall_mem_append.2 ⟨hwithin, hwithin'⟩⟩
    rw [hlater, hfirst, List.append_assoc]
    rfl

private theorem isWithin_report (script node : String) (answer : Except ScriptError Unit) (w : Walk) :
    ∀ e ∈ w.report script node answer, e.isWithin script ∧ e.isSuspended = false := by
  unfold report
  cases answer with
  | ok =>
    dsimp only
    split <;> simp [Effect.isWithin, Effect.isSuspended]
  | error e =>
    dsimp only
    split <;> simp [Effect.isWithin, Effect.isSuspended]

private theorem exists_within (host : Host) (chain : Nat) (script : Script) (node : String) (opening : List Effect)
    (stack : List Work) (w : Walk) :
    ∃ effects, (Part.ofWalk host chain script node opening stack w).effects = opening ++ effects ∧
      ∀ e ∈ effects, e.isWithin script.name := by
  obtain ⟨effects, htrace, hwithin⟩ := exists_within_drive host chain script stack w
  refine ⟨effects ++ (w.drive host chain script stack).2.report script.name node (w.drive host chain script stack).1,
    ?_, List.forall_mem_append.2 ⟨hwithin, fun e he => (isWithin_report _ _ _ _ e he).1⟩⟩
  rw [Part.effects, Part.ofWalk]
  dsimp only
  rw [htrace, List.drop_left, List.append_assoc]

/-- No chain starts in a part, and all ends that it tells of are of its own script. -/
theorem ends_ofWalk (host : Host) (chain : Nat) (script : Script) (node : String) {opening : List Effect}
    (stack : List Work) (w : Walk) (hopening : ∀ e ∈ opening, e.isStarted = false ∧ e.isTerminal = false)
    (name : String) :
    let effects := (Part.ofWalk host chain script node opening stack w).effects
    effects.countP (Effect.isOf name Effect.isStarted) = 0 ∧
      effects.countP (Effect.isOf name Effect.isTerminal) =
        if name = script.name then effects.countP Effect.isTerminal else 0 := by
  intro effects
  obtain ⟨within, heffects, hwithin⟩ : ∃ within, effects = opening ++ within ∧ _ :=
    exists_within host chain script node opening stack w
  have hall : ∀ e ∈ effects, e.isStarted = false ∧ (e.isTerminal → e.script? = some script.name) := by
    intro e he
    rw [heffects, List.mem_append] at he
    rcases he with he | he
    · obtain ⟨hstarted, hterminal⟩ := hopening e he
      exact ⟨hstarted, fun h => absurd (hterminal.symm.trans h) Bool.false_ne_true⟩
    · have hkind := hwithin e he
      cases e with
      | event script node event =>
        cases event <;> simp_all [Effect.isWithin, Effect.isStarted, Effect.isTerminal, Effect.script?]
      | _ => simp [Effect.isStarted, Effect.isTerminal]
  refine ⟨?_, ?_⟩
  · rw [List.countP_eq_zero]
    intro e he
    simp [Effect.isOf, (hall e he).1]
  · by_cases hname : name = script.name
    · rw [if_pos hname]
      refine List.countP_congr fun e he => ?_
      simp only [Effect.isOf, Bool.and_eq_true, beq_iff_eq, hname]
      exact ⟨And.left, fun hterminal => ⟨hterminal, (hall e he).2 hterminal⟩⟩
    · rw [if_neg hname, List.countP_eq_zero]
      intro e he hterminal
      simp only [Effect.isOf, Bool.and_eq_true, beq_iff_eq] at hterminal
      have hscript := (hall e he).2 hterminal.1
      rw [hterminal.2, Option.some.injEq] at hscript
      exact hname hscript

/-- A branch goes on at the opening of a part only. -/
theorem countP_isResumed_ofWalk (host : Host) (chain : Nat) (script : Script) (node : String) (opening : List Effect)
    (stack : List Work) (w : Walk) :
    (Part.ofWalk host chain script node opening stack w).effects.countP Effect.isResumed =
      opening.countP Effect.isResumed := by
  obtain ⟨within, heffects, hwithin⟩ := exists_within host chain script node opening stack w
  have hnone : within.countP Effect.isResumed = 0 := by
    rw [List.countP_eq_zero]
    intro e he hresumed
    have hkind := hwithin e he
    unfold Effect.isResumed at hresumed
    split at hresumed
    · cases hkind
    · cases hresumed
  rw [heffects, List.countP_append, hnone, Nat.add_zero]

/-- All that a part leaves waiting is suspended in it. -/
theorem card_tasks_outcome (host : Host) (chain : Nat) (script : Script) (node : String) (opening : List Effect)
    (stack : List Work) (w : Walk) (hopening : opening.countP Effect.isSuspended = 0) :
    (w.outcome host chain script node stack).timers.tasks.card =
      w.world.timers.tasks.card +
        (Part.ofWalk host chain script node opening stack w).effects.countP Effect.isSuspended := by
  obtain ⟨moves, effects, u, hleads, hworld, -⟩ := exists_leads host chain script stack w
  obtain ⟨rests, htasks, hcard, -⟩ := hleads.waiting
  have hreport : ((w.drive host chain script stack).2.report script.name node
      (w.drive host chain script stack).1).countP Effect.isSuspended = 0 := by
    rw [List.countP_eq_zero]
    intro e he
    simp [(isWithin_report _ _ _ _ e he).2]
  rw [outcome, Part.effects, Part.ofWalk]
  dsimp only
  rw [finish_timers, hworld, htasks, hleads.trace, List.drop_left, List.countP_append, List.countP_append, hopening,
    hreport, Multiset.card_add, hcard]
  omega

end Walk

namespace World

theorem ends_firstPart (host : Host) (script : Script) (start : Nat) (w : World) (name : String) :
    (w.firstPart host script start).effects.countP (Effect.isOf name Effect.isStarted) = 0 ∧
      (w.firstPart host script start).effects.countP (Effect.isOf name Effect.isTerminal) =
        if name = script.name then (w.firstPart host script start).effects.countP Effect.isTerminal else 0 :=
  Walk.ends_ofWalk host _ script _ _ _ (by simp) name

theorem ends_nextPart (host : Host) (k : Continuation) (w : World) (name : String) :
    (w.nextPart host k).effects.countP (Effect.isOf name Effect.isStarted) = 0 ∧
      (w.nextPart host k).effects.countP (Effect.isOf name Effect.isTerminal) =
        if name = k.script.name then (w.nextPart host k).effects.countP Effect.isTerminal else 0 :=
  Walk.ends_ofWalk host _ k.script _ _ _ (by simp [Effect.isStarted, Effect.isTerminal]) name

theorem countP_isResumed_firstPart (host : Host) (script : Script) (start : Nat) (w : World) :
    (w.firstPart host script start).effects.countP Effect.isResumed = 0 :=
  Walk.countP_isResumed_ofWalk ..

theorem countP_isResumed_nextPart (host : Host) (k : Continuation) (w : World) :
    (w.nextPart host k).effects.countP Effect.isResumed = 1 :=
  Walk.countP_isResumed_ofWalk ..

theorem card_tasks_execute (host : Host) (script : Script) (start : Nat) (w : World) :
    (w.execute host script start).2.timers.tasks.card =
      w.timers.tasks.card + (w.firstPart host script start).effects.countP Effect.isSuspended :=
  Walk.card_tasks_outcome host _ script _ [] _ _ rfl

theorem card_tasks_resume (host : Host) (k : Continuation) (w : World) :
    (w.resume host k).timers.tasks.card =
      w.timers.tasks.card + (w.nextPart host k).effects.countP Effect.isSuspended :=
  Walk.card_tasks_outcome host _ k.script _ [.event k.script.name k.node .resumed] _ _ rfl

end World

end ScriptGraph
