import ScriptGraph.Proofs.Construction
import ScriptGraph.Proofs.Courses

/-!
# The reports of a chain

A chain that starts at a node of its graph comes to one end, whichever way it goes: it is finished when its last
branch is through, or it is stopped once (`Course.reports`).  Which of the two is the `Verdict` of its balance.  The
number that it reports when it is finished counts the nodes that it executed and the passes that it made, and
nothing else, because the connections of a graph lead to nodes of the graph (`Course.isSound_moves`).
-/

namespace ScriptGraph

namespace Effect

/-- Whether a chain is stopped. -/
def isAborted : Effect → Bool
  | event _ _ (.aborted _) => true
  | _ => false

theorem isTerminal_of_isAborted {e : Effect} (h : e.isAborted) : e.isTerminal := by
  unfold isAborted at h
  split at h
  · rfl
  · cases h

end Effect

/-! ### Rounds come to nodes of the graph -/

namespace Work

/-- Whether a round comes to a node that exists or is a pass. -/
def IsSound (script : Script) (m : Work) : Prop := m.isMet script ∨ m.isPass

theorem isSound_map_visit {script : Script} {targets : List Nat} (h : ∀ t ∈ targets, t < script.graph.size) :
    ∀ m ∈ targets.map visit, m.IsSound script := by
  intro m hm
  obtain ⟨t, ht, rfl⟩ := List.mem_map.1 hm
  refine .inl ?_
  rw [isMet, Graph.node?, List.getElem?_eq_getElem (h t ht)]
  rfl

theorem countP_isMet_add_eq {script : Script} {moves : List Work} (h : ∀ m ∈ moves, m.IsSound script) :
    moves.countP (isMet script) + moves.countP isPass = moves.length := by
  induction moves with
  | nil => rfl
  | cons m moves ih =>
    have := ih fun m' hm' => h m' (List.mem_cons_of_mem _ hm')
    have hm := h m List.mem_cons_self
    rw [List.countP_cons, List.countP_cons, List.length_cons]
    cases m with
    | visit i =>
      have hmet : (visit i).isMet script = true := hm.resolve_right (by simp [isPass])
      rw [if_pos hmet, if_neg (by simp [isPass])]
      omega
    | passes source remaining =>
      simp only [isMet, isPass, Bool.false_eq_true, if_false, if_true]
      omega

end Work

namespace Walk

variable {host : Host} {chain : Nat} {script : Script}

private theorem successors_lt (hlinked : script.graph.Linked) (source : Nat) :
    ∀ t ∈ script.graph.successors source, t < script.graph.size := by
  unfold Graph.successors
  split
  · next n hn => exact (hlinked source n hn).lt
  · simp

private theorem isSound_visit (hlinked : script.graph.Linked) (i : Nat) (w : Walk) :
    ∀ m ∈ (w.visit host chain script i).1, m.IsSound script := by
  cases hnode : script.graph.node? i with
  | none =>
    rw [visit_of_none hnode]
    simp
  | some n =>
    have htargets := Work.isSound_map_visit (hlinked i n hnode).lt
    rw [visit_of_some hnode]
    split
    · exact htargets
    · simp
    · intro m hm
      rw [List.mem_singleton.1 hm]
      exact .inr rfl
    · split <;> simp

/-- On a graph whose connections lead to its nodes, a walk stays on its nodes. -/
theorem isSound_trail (hlinked : script.graph.Linked) (stack : List Work) (w : Walk)
    (hstack : ∀ m ∈ stack, m.IsSound script) : ∀ m ∈ trail host chain script stack w, m.IsSound script := by
  refine forall_mem_trail (fun source remaining _ => ⟨fun t ht => ?_, .inr rfl⟩)
    (fun i w _ => isSound_visit hlinked i w) stack w hstack
  exact Work.isSound_map_visit (successors_lt hlinked source) _ (List.mem_map_of_mem ht)

end Walk

namespace Course

variable {host : Host} {script : Script} {start chain : Nat} {w : World} {parts : List Part}

/-- All rounds of a chain come to nodes of its graph or are passes. -/
theorem isSound_moves (h : Course host script start chain w parts) (hlinked : script.graph.Linked)
    (hstart : start < script.graph.size) : ∀ m ∈ Part.allMoves parts, m.IsSound script := by
  induction h with
  | begin hclosed hchain =>
    rw [Part.allMoves_singleton]
    have hstack : ∀ m ∈ [start].map Work.visit, m.IsSound script := Work.isSound_map_visit (by simpa using hstart)
    exact Walk.isSound_trail hlinked _ _ hstack
  | @resume w w' parts k hcourse htaken hmeter ih =>
    obtain ⟨m, -, hbalance⟩ := hcourse.balance
    rw [htaken] at hbalance
    obtain ⟨-, rfl, -, n, hn, hrest⟩ := hbalance.rests k (Multiset.mem_cons_self k _)
    obtain ⟨i, hi⟩ := List.mem_iff_getElem?.1 hn
    rw [Part.allMoves_append, Part.allMoves_singleton, List.forall_mem_append]
    refine ⟨ih, Walk.isSound_trail hlinked _ _ (Work.isSound_map_visit ?_)⟩
    rw [hrest]
    exact (hlinked i n hi).lt
  | elsewhere _ _ _ ih => exact ih

end Course

/-! ### Ends and stops -/

namespace Part

variable {p : Part} {parts : List Part}

private theorem countP_isTerminal (hquiet : ∀ e ∈ p.body, e.isTerminal = false) :
    p.effects.countP Effect.isTerminal = p.report.countP Effect.isTerminal := by
  have hbody : p.body.countP Effect.isTerminal = 0 := by
    rw [List.countP_eq_zero]
    simpa using hquiet
  rw [effects, List.countP_append, hbody, Nat.zero_add]

private theorem not_terminal (hquiet : ∀ e ∈ p.body, e.isTerminal = false) (hreport : p.report = []) :
    ∀ e ∈ p.effects, e.isTerminal = false := by
  rw [effects, hreport, List.append_nil]
  exact hquiet

private theorem not_aborted (h : ∀ e ∈ p.effects, e.isTerminal = false) : ¬∃ e ∈ p.effects, e.isAborted := by
  rintro ⟨e, he, haborted⟩
  exact absurd ((h e he).symm.trans (Effect.isTerminal_of_isAborted haborted)) Bool.false_ne_true

private theorem countP_allEffects_eq_zero (h : ∀ p ∈ parts, ∀ e ∈ p.effects, e.isTerminal = false) :
    (allEffects parts).countP Effect.isTerminal = 0 := by
  rw [List.countP_eq_zero]
  intro e he
  obtain ⟨p, hp, he⟩ := List.mem_flatMap.1 he
  rw [h p hp e he]
  exact Bool.false_ne_true

end Part

namespace Balance

variable {host : Host} {chain : Nat} {script : Script} {m : Meter} {waiting : Multiset Continuation}
  {parts : List Part}

/-- A chain that does not go on any longer has come to one end, and another one has not. -/
theorem countP_isTerminal (h : Balance host chain script 0 m waiting parts) :
    (Part.allEffects parts).countP Effect.isTerminal =
      if m.tripped = false ∧ m.live ≠ 0 then 0 else 1 := by
  have hquiet := h.quiet
  cases h.verdict with
  | going htripped hlive hgoes =>
    rw [if_pos ⟨htripped, hlive⟩]
    exact Part.countP_allEffects_eq_zero fun p hp => Part.not_terminal (hquiet p hp) (hgoes p hp).report
  | @ended _ hlive before last hparts hgoes hlast =>
    obtain ⟨node, hreport⟩ := hlast.report
    rw [hparts, List.forall_mem_append, List.forall_mem_singleton] at hquiet
    have hbefore := Part.countP_allEffects_eq_zero fun p hp => Part.not_terminal (hquiet.1 p hp) (hgoes p hp).report
    rw [if_neg (fun hand => hand.2 hlive), hparts, Part.allEffects_append, Part.allEffects_singleton,
      List.countP_append, hbefore, Part.countP_isTerminal hquiet.2, hreport]
    rfl
  | @stopped htripped before after p hparts hgoes hstop hleft =>
    obtain ⟨node, hreport⟩ := hstop.report
    rw [hparts, List.forall_mem_append, List.forall_mem_cons] at hquiet
    obtain ⟨hquiet, hp, hquiet'⟩ := hquiet
    have hbefore := Part.countP_allEffects_eq_zero fun q hq => Part.not_terminal (hquiet q hq) (hgoes q hq).report
    have hafter := Part.countP_allEffects_eq_zero fun q hq => Part.not_terminal (hquiet' q hq) (hleft q hq).report
    have hfalse : ¬(m.tripped = false ∧ m.live ≠ 0) := fun hand => by
      rw [htripped] at hand
      cases hand.1
    rw [if_neg hfalse, hparts, ← List.singleton_append, Part.allEffects_append, Part.allEffects_append,
      Part.allEffects_singleton, List.countP_append, List.countP_append, hbefore, hafter, Part.countP_isTerminal hp,
      hreport]
    rfl

/-- The three reports that there are. -/
private theorem report_cases (h : Balance host chain script 0 m waiting parts) {p : Part} (hp : p ∈ parts) :
    p.report = [] ∨ (∃ node visits, p.report = [.event script.name node (.finished visits)]) ∨
      ∃ node reason, p.report =
        [.note ("Script '" ++ script.name ++ "' stopped: " ++ reason),
         .event script.name node (.aborted reason)] := by
  cases h.verdict with
  | going _ _ hgoes => exact .inl (hgoes p hp).report
  | ended _ _ hparts hgoes hlast =>
    rw [hparts, List.mem_append, List.mem_singleton] at hp
    rcases hp with hp | rfl
    · exact .inl (hgoes p hp).report
    · obtain ⟨node, hreport⟩ := hlast.report
      exact .inr (.inl ⟨node, _, hreport⟩)
  | stopped _ hparts hgoes hstop hleft =>
    rw [hparts, List.mem_append, List.mem_cons] at hp
    rcases hp with hp | rfl | hp
    · exact .inl (hgoes p hp).report
    · obtain ⟨node, hreport⟩ := hstop.report
      exact .inr (.inr ⟨node, _, hreport⟩)
    · exact .inl (hleft p hp).report

/-- A chain is finished with all its visits, when nothing of it waits. -/
private theorem of_finished (h : Balance host chain script 0 m waiting parts) {name node : String} {visits : Nat}
    (hmem : .event name node (.finished visits) ∈ Part.allEffects parts) :
    m.live = 0 ∧ visits = (Part.allMoves parts).length := by
  obtain ⟨p, hp, he⟩ := List.mem_flatMap.1 hmem
  have hreport : .event name node (.finished visits) ∈ p.report := by
    rcases List.mem_append.1 he with he | he
    · cases h.quiet p hp _ he
    · exact he
  cases h.verdict with
  | going _ _ hgoes =>
    rw [(hgoes p hp).report] at hreport
    cases hreport
  | ended _ hlive hparts hgoes hlast =>
    rw [hparts, List.mem_append, List.mem_singleton] at hp
    rcases hp with hp | rfl
    · rw [(hgoes p hp).report] at hreport
      cases hreport
    · obtain ⟨node', hlast⟩ := hlast.report
      rw [hlast, List.mem_singleton] at hreport
      cases hreport
      exact ⟨hlive, rfl⟩
  | stopped _ hparts hgoes hstop hleft =>
    rw [hparts, List.mem_append, List.mem_cons] at hp
    rcases hp with hp | rfl | hp
    · rw [(hgoes p hp).report] at hreport
      cases hreport
    · obtain ⟨node', hstop⟩ := hstop.report
      rw [hstop] at hreport
      simp at hreport
    · rw [(hleft p hp).report] at hreport
      cases hreport

/-- After the part in which a chain is stopped, its branches only tell that they went on. -/
private theorem pairwise_aborted (h : Balance host chain script 0 m waiting parts) :
    parts.Pairwise fun p q =>
      (∃ e ∈ p.effects, e.isAborted) → ∃ node, q.effects = [.event script.name node .resumed] := by
  have hquiet := h.quiet
  have hnever (ps : List Part) (hps : ∀ p ∈ ps, ¬∃ e ∈ p.effects, e.isAborted) : ps.Pairwise fun p q =>
      (∃ e ∈ p.effects, e.isAborted) → ∃ node, q.effects = [.event script.name node .resumed] :=
    List.pairwise_of_forall_mem_list fun p hp _ _ haborted => absurd haborted (hps p hp)
  cases h.verdict with
  | going _ _ hgoes =>
    exact hnever parts fun p hp => Part.not_aborted (Part.not_terminal (hquiet p hp) (hgoes p hp).report)
  | @ended _ _ before last hparts hgoes hlast =>
    rw [hparts, List.forall_mem_append, List.forall_mem_singleton] at hquiet
    obtain ⟨node, hreport⟩ := hlast.report
    rw [hparts]
    refine hnever _ ?_
    rw [List.forall_mem_append, List.forall_mem_singleton]
    refine ⟨fun p hp => Part.not_aborted (Part.not_terminal (hquiet.1 p hp) (hgoes p hp).report), ?_⟩
    rintro ⟨e, he, haborted⟩
    rw [Part.effects, hreport, List.mem_append, List.mem_singleton] at he
    rcases he with he | rfl
    · exact absurd ((hquiet.2 e he).symm.trans (Effect.isTerminal_of_isAborted haborted)) Bool.false_ne_true
    · cases haborted
  | @stopped _ before after p hparts hgoes hstop hleft =>
    rw [hparts, List.forall_mem_append, List.forall_mem_cons] at hquiet
    obtain ⟨hquiet, -, hquiet'⟩ := hquiet
    have hbefore := fun q hq => Part.not_aborted (Part.not_terminal (hquiet q hq) (hgoes q hq).report)
    have hafter := fun q hq => Part.not_aborted (Part.not_terminal (hquiet' q hq) (hleft q hq).report)
    -- only the part in the middle is one after which something is said
    rw [hparts, List.pairwise_append, List.pairwise_cons]
    refine ⟨hnever before hbefore, ⟨fun q hq _ => ?_, hnever after hafter⟩, ?_⟩
    · obtain ⟨node, hbody⟩ := (hleft q hq).body
      exact ⟨node, by rw [Part.effects, hbody, (hleft q hq).report, List.append_nil]⟩
    · intro q hq _ _ haborted
      exact absurd haborted (hbefore q hq)

/-- A chain was stopped exactly if one of its parts told so. -/
theorem tripped_iff (h : Balance host chain script 0 m waiting parts) :
    m.tripped = true ↔ ∃ e ∈ Part.allEffects parts, e.isAborted := by
  have hreport : (∃ e ∈ Part.allEffects parts, e.isAborted) ↔ ∃ p ∈ parts, ∃ e ∈ p.report, e.isAborted := by
    constructor
    · rintro ⟨e, he, haborted⟩
      obtain ⟨p, hp, he⟩ := List.mem_flatMap.1 he
      rcases List.mem_append.1 he with he | he
      · exact absurd ((h.quiet p hp e he).symm.trans (Effect.isTerminal_of_isAborted haborted)) Bool.false_ne_true
      · exact ⟨p, hp, e, he, haborted⟩
    · rintro ⟨p, hp, e, he, haborted⟩
      exact ⟨e, List.mem_flatMap.2 ⟨p, hp, List.mem_append_right _ he⟩, haborted⟩
  rw [hreport]
  cases h.verdict with
  | going htripped _ hgoes =>
    refine iff_of_false (by simp [htripped]) ?_
    rintro ⟨p, hp, e, he, -⟩
    rw [(hgoes p hp).report] at he
    cases he
  | ended htripped _ hparts hgoes hlast =>
    refine iff_of_false (by simp [htripped]) ?_
    rintro ⟨p, hp, e, he, haborted⟩
    rw [hparts, List.mem_append, List.mem_singleton] at hp
    rcases hp with hp | rfl
    · rw [(hgoes p hp).report] at he
      cases he
    · obtain ⟨node, hlast⟩ := hlast.report
      rw [hlast, List.mem_singleton] at he
      rw [he] at haborted
      cases haborted
  | @stopped htripped before after p hparts _ hstop _ =>
    obtain ⟨node, hstop⟩ := hstop.report
    refine iff_of_true htripped ⟨p, by simp [hparts], ?_⟩
    rw [hstop]
    exact ⟨_, List.mem_cons_of_mem _ List.mem_cons_self, rfl⟩

end Balance

/-! ### The answer of the first part -/

/-- A chain is refused a visit in its first part exactly if it is stopped there. -/
theorem World.execute_error_iff (host : Host) (script : Script) (start : Nat) (w : World) :
    (∃ e, (w.execute host script start).1 = .error e) ↔
      ∃ e ∈ (w.firstPart host script start).effects, e.isAborted := by
  have hanswer : (w.execute host script start).1 =
      ((w.entry host).drive host w.meters.length script [.visit start]).1.map fun _ =>
        ⟨((w.entry host).drive host w.meters.length script [.visit start]).2.meter.spent,
          ((w.entry host).drive host w.meters.length script [.visit start]).2.suspended⟩ := rfl
  rw [hanswer]
  obtain ⟨effects, u, hleads, hend | ⟨e, v, hcharge, hend⟩⟩ :=
    (w.entry host).drive_leads host w.meters.length script [.visit start]
  · rw [firstPart, Walk.ofWalk_of_ok rfl hleads hend, hend]
    constructor
    · rintro ⟨e, he⟩
      cases he
    · rintro ⟨e, he, haborted⟩
      rw [Part.effects, List.nil_append, List.mem_append] at he
      rcases he with he | he
      · exact absurd ((hleads.quiet e he).symm.trans (Effect.isTerminal_of_isAborted haborted)) Bool.false_ne_true
      · dsimp only [Walk.report] at he
        split at he
        · rw [List.mem_singleton.1 he] at haborted
          cases haborted
        · cases he
  · rw [firstPart, Walk.ofWalk_of_error rfl hleads hcharge hend, hend]
    obtain ⟨rfl, -, -⟩ := Walk.charge_error_iff.1 hcharge
    refine ⟨fun _ => ?_, fun _ => ⟨e, rfl⟩⟩
    have hstill : u.charged.meter.tripped = false := hleads.tripped
    refine ⟨.event script.name (nodeName script start) (.aborted e.message), ?_, rfl⟩
    simp [Part.effects, Walk.report, hstill]

/-! ### All reports of a chain -/

/-- A chain that starts at a node of its graph is finished once or stopped once, and not both, however its branches go
on.  It tells the user that it stops just before it tells the listeners, and does so at the end of a part only.  It is
finished when nothing of it waits, after as many visits as it executed nodes and made passes.  After it was stopped,
the branches that waited do nothing.  And the answer to its start is an error exactly if it is stopped in its first
part. -/
theorem Course.reports {host : Host} {script : Script} {start chain : Nat} {w : World} {parts : List Part}
    (h : Course host script start chain w parts) (hbuilt : script.graph.Built) (hstart : start < script.graph.size) :
    (Part.allEffects parts).countP Effect.isTerminal ≤ 1 ∧
    (w.waitingOf chain = 0 → (Part.allEffects parts).countP Effect.isTerminal = 1) ∧
    (∀ p ∈ parts, (∀ e ∈ p.body, e.isTerminal = false) ∧
      (p.report = [] ∨ (∃ node visits, p.report = [.event script.name node (.finished visits)]) ∨
        ∃ node reason, p.report =
          [.note ("Script '" ++ script.name ++ "' stopped: " ++ reason),
           .event script.name node (.aborted reason)])) ∧
    (∀ name node visits, .event name node (.finished visits) ∈ Part.allEffects parts → w.waitingOf chain = 0 ∧
      visits = (Part.allEffects parts).countP Effect.isExecuted + (Part.allMoves parts).countP Work.isPass) ∧
    (parts.Pairwise fun p q =>
      (∃ e ∈ p.effects, e.isAborted) → ∃ node, q.effects = [.event script.name node .resumed]) ∧
    ∀ w₀ : World, (∃ e, (w₀.execute host script start).1 = .error e) ↔
      ∃ e ∈ (w₀.firstPart host script start).effects, e.isAborted := by
  obtain ⟨m, -, hbalance⟩ := h.balance
  have hcount := hbalance.countP_isTerminal
  have hnone : m.live = 0 ↔ w.waitingOf chain = 0 := by
    rw [hbalance.live, Nat.add_zero, Multiset.card_eq_zero]
  have hmoves := Work.countP_isMet_add_eq (h.isSound_moves hbuilt.linked hstart)
  refine ⟨?_, ?_, fun p hp => ⟨hbalance.quiet p hp, hbalance.report_cases hp⟩, ?_, hbalance.pairwise_aborted,
    World.execute_error_iff host script start⟩
  · rw [hcount]
    split <;> omega
  · intro hwaiting
    rw [hcount, if_neg (fun hand => hand.2 (hnone.2 hwaiting))]
  · intro name node visits hmem
    obtain ⟨hlive, hvisits⟩ := hbalance.of_finished hmem
    refine ⟨hnone.1 hlive, ?_⟩
    rw [hvisits, ← hmoves, hbalance.executed]

/-- The chain is not stopped in its first part, but when its branch goes on, and that is all that is told of its
end. -/
theorem Course.reports_spin :
    let host : Host := ⟨2, fun _ _ => .ok ()⟩
    let w := ((World.ofVariables .empty).execute host spin 0).2
    ∃ first next, Course host spin 0 0 (w.advance host 0).2 [first, next] ∧
      (w.advance host 0).2.waitingOf 0 = 0 ∧ (Part.allEffects [first, next]).countP Effect.isTerminal = 1 ∧
      (¬∃ e ∈ first.effects, e.isAborted) ∧ ∃ e ∈ next.effects, e.isAborted := by
  intro host w
  have hbuilt : spin.graph.Built :=
    .connect (.connect (.add (.add .empty (.make ..)) (.change (.make ..) (.input 0 "0"))) 0 1) 1 0
  obtain ⟨next, m, hcourse, hfirst, -, hpending, hmeters, hvisits, hlimit⟩ :=
    advance_spin host (Nat.le_refl 2) (by decide)
  have hnone : (w.advance host 0).2.waitingOf 0 = 0 := by
    rw [World.waitingOf, World.tasks_eq_zero hpending, Multiset.filter_zero]
  obtain ⟨-, hone, -, -, -, herror⟩ := Course.reports hcourse hbuilt (by decide)
  have hgoes : ¬∃ e ∈ (World.firstPart host spin 0 (.ofVariables .empty)).effects, e.isAborted := by
    rw [← herror (.ofVariables .empty)]
    rintro ⟨e, he⟩
    have hanswer : ((World.ofVariables .empty).execute host spin 0).1 =
        (World.firstPart host spin 0 (.ofVariables .empty)).answer.map _ := rfl
    rw [hanswer, hfirst] at he
    cases he
  -- there are more visits on the meter than are allowed
  obtain ⟨m', hm', hbalance⟩ := hcourse.balance
  obtain rfl : m' = m := Option.some.inj (hm'.symm.trans (congrArg (·[0]?) hmeters))
  have htripped : m'.tripped = true := by
    by_contra hgoing
    have hcount := hbalance.visits (Bool.not_eq_true _ ▸ hgoing)
    have hle := hbalance.moves_le
    omega
  obtain ⟨e, hmem, haborted⟩ := hbalance.tripped_iff.1 htripped
  obtain ⟨p, hp, he⟩ := List.mem_flatMap.1 hmem
  refine ⟨_, next, hcourse, hnone, hone hnone, hgoes, e, ?_, haborted⟩
  rcases List.mem_pair.1 hp with rfl | rfl
  · exact absurd ⟨e, he, haborted⟩ hgoes
  · exact he

end ScriptGraph
