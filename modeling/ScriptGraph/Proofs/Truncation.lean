import ScriptGraph.Proofs.Plays
import ScriptGraph.Proofs.Reports

/-!
# A ceiling only cuts a chain short

Two plays of one script that differ in their ceilings are the same until the lower one refuses a round.  Up to there
the world of the second is that of the first with another limit on the meter (`World.lifted`), and all that a walk
does goes through this (`Walk.drive_lifted`).  The round that is refused to the first is one that the second counts
as well.  From then on they have parted (`World.Cut`): in the first no node does anything any more, and the second
only adds to what its nodes did.  So what nodes do under a ceiling is the beginning of what they do under a higher one
(`World.ceiling_truncates`).
-/

namespace ScriptGraph

/-- Whether an effect is of a node: it is executed, or does something by itself. -/
def Effect.isOfNode : Effect → Bool
  | .call _ | .assign _ _ => true
  | .event _ _ .executed | .event _ _ (.notified _) | .event _ _ (.failed _) => true
  | _ => false

/-- A world with another limit on the meter of a chain. -/
def World.lifted (chain limit : Nat) (w : World) : World :=
  { w with meters := w.meters.modify chain fun m => { m with limit } }

/-- A walk with another limit on the meter of its chain. -/
def Walk.lifted (chain limit : Nat) (w : Walk) : Walk :=
  ⟨w.world.lifted chain limit, { w.meter with limit }, w.suspended⟩

/-! ### Walks under two ceilings -/

namespace Walk

variable {host host' : Host} {chain limit : Nat} {script : Script} {w v : Walk} {stack : List Work}

/-- A walk adds to the trace and to the visits. -/
theorem drive_extends (host : Host) (chain : Nat) (script : Script) (stack : List Work) (w : Walk) :
    w.world.trace.toList <+: (drive host chain script stack w).2.world.trace.toList ∧
      w.meter.visits ≤ (drive host chain script stack w).2.meter.visits := by
  obtain ⟨moves, effects, u, hleads, hworld, -, hvisits⟩ := exists_leads host chain script stack w
  have hmoves := hleads.visits
  rw [hworld, hleads.trace]
  exact ⟨List.prefix_append _ _, by omega⟩

/-- A visit counts, whether or not it is allowed. -/
theorem visits_lt_drive_visit (host : Host) (chain : Nat) (script : Script) (i : Nat) (stack : List Work) (w : Walk) :
    w.meter.visits < (drive host chain script (.visit i :: stack) w).2.meter.visits := by
  rcases hcharge : w.charge with ⟨_ | _, v⟩
  · rw [drive_visit_error hcharge]
    obtain ⟨rfl, -, -⟩ := charge_error_iff.1 hcharge
    exact Nat.lt_succ_self _
  · rw [drive_visit_ok hcharge]
    obtain ⟨rfl, -, -⟩ := charge_ok_iff.1 hcharge
    have hrest := (drive_extends host chain script ((w.charged.visit host chain script i).1 ++ stack)
      (w.charged.visit host chain script i).2).2
    rw [visits_visit] at hrest
    exact hrest

/-- A pass counts, whether or not it is allowed. -/
theorem visits_lt_drive_passes (host : Host) (chain : Nat) {script : Script} {source : Nat} (remaining : Nat)
    (stack : List Work) (w : Walk) (hnext : script.graph.successors source ≠ []) :
    w.meter.visits < (drive host chain script (.passes source (remaining + 1) :: stack) w).2.meter.visits := by
  rcases hcharge : w.charge with ⟨_ | _, v⟩
  · rw [drive_passes_error hnext hcharge]
    obtain ⟨rfl, -, -⟩ := charge_error_iff.1 hcharge
    exact Nat.lt_succ_self _
  · rw [drive_passes_ok hnext hcharge]
    obtain ⟨rfl, -, -⟩ := charge_ok_iff.1 hcharge
    exact (drive_extends host chain script _ w.charged).2

theorem charge_lifted (hle : w.meter.limit ≤ limit) (h : w.charge = (.ok (), v)) :
    (w.lifted chain limit).charge = (.ok (), v.lifted chain limit) := by
  obtain ⟨rfl, hlt, htripped⟩ := charge_ok_iff.1 h
  exact charge_ok_iff.2 ⟨rfl, Nat.lt_of_lt_of_le hlt hle, htripped⟩

theorem acted_lifted (hdispatch : host'.dispatch = host.dispatch) (script : Script) (n : Node Float32) (w : Walk) :
    (w.lifted chain limit).acted host' script n = (w.acted host script n).lifted chain limit := by
  unfold acted lifted World.lifted
  rw [World.act_eq, World.act_eq]
  simp only [World.withDeed, World.emit, World.record, hdispatch]

theorem visit_lifted (hdispatch : host'.dispatch = host.dispatch) (script : Script) (i : Nat) (w : Walk) :
    (w.lifted chain limit).visit host' chain script i =
      ((w.visit host chain script i).1, (w.visit host chain script i).2.lifted chain limit) := by
  cases hnode : script.graph.node? i with
  | none => rw [visit_of_none hnode, visit_of_none hnode]
  | some n =>
    have hvars : (w.lifted chain limit).world.vars = w.world.vars := rfl
    rw [visit_of_some hnode, visit_of_some hnode, acted_lifted hdispatch, hvars]
    cases n.turn w.world.vars with
    | later delay =>
      dsimp only
      split <;> rfl
    | _ => rfl

/-- A walk is the same under a higher ceiling if it is complete.  Otherwise it goes on where it is refused a round,
and that round counts. -/
theorem drive_lifted (hdispatch : host'.dispatch = host.dispatch) (chain : Nat) (script : Script) (stack : List Work)
    (w : Walk) (hle : w.meter.limit ≤ limit) (htripped : w.meter.tripped = false) :
    (∃ v, drive host chain script stack w = (.ok (), v) ∧
      drive host' chain script stack (w.lifted chain limit) = (.ok (), v.lifted chain limit)) ∨
    ∃ e v, drive host chain script stack w = (.error e, v) ∧
      v.world.trace.toList <+: (drive host' chain script stack (w.lifted chain limit)).2.world.trace.toList ∧
      w.meter.limit < (drive host' chain script stack (w.lifted chain limit)).2.meter.visits := by
  induction stack, w using rounds_induction host chain script with
  | nil w => exact .inl ⟨w, drive_nil, drive_nil⟩
  | idle source remaining stack w hidle ih =>
    rw [drive_passes_idle hidle, drive_passes_idle hidle]
    exact ih hle htripped
  | passRefused source remaining stack w v e hnext hcharge =>
    have hvisits := visits_lt_drive_passes host' chain remaining stack (w.lifted chain limit) hnext
    have hextends := (drive_extends host' chain script (.passes source (remaining + 1) :: stack)
      (w.lifted chain limit)).1
    obtain ⟨rfl, -, hrefused⟩ := charge_error_iff.1 hcharge
    -- the chain was not stopped before, so its limit is used up
    have hfull := hrefused.resolve_right (by simp [htripped])
    exact .inr ⟨e, _, drive_passes_error hnext hcharge, hextends, Nat.lt_of_le_of_lt hfull hvisits⟩
  | pass source remaining stack w v hnext hcharge ih =>
    rw [drive_passes_ok hnext hcharge, drive_passes_ok hnext (charge_lifted hle hcharge)]
    obtain ⟨rfl, -, -⟩ := charge_ok_iff.1 hcharge
    exact ih hle htripped
  | refused i stack w v e hcharge =>
    have hvisits := visits_lt_drive_visit host' chain script i stack (w.lifted chain limit)
    have hextends := (drive_extends host' chain script (.visit i :: stack) (w.lifted chain limit)).1
    obtain ⟨rfl, -, hrefused⟩ := charge_error_iff.1 hcharge
    have hfull := hrefused.resolve_right (by simp [htripped])
    exact .inr ⟨e, _, drive_visit_error hcharge, hextends, Nat.lt_of_le_of_lt hfull hvisits⟩
  | visit i stack w v hcharge ih =>
    rw [drive_visit_ok hcharge, drive_visit_ok (charge_lifted hle hcharge), visit_lifted hdispatch]
    obtain ⟨rfl, -, -⟩ := charge_ok_iff.1 hcharge
    have hlimit : (w.charged.visit host chain script i).2.meter.limit = w.meter.limit := limit_visit ..
    have hstill : (w.charged.visit host chain script i).2.meter.tripped = false := by
      rcases meter_visit host chain script i w.charged with h | h <;> rw [h] <;> exact htripped
    have ih := ih (hlimit.trans_le hle) hstill
    rw [hlimit] at ih
    exact ih

/-- An end is the same under a higher ceiling. -/
theorem finish_lifted (chain : Nat) (script node : String) (v : Walk) (hvisits : v.meter.visits ≤ v.meter.limit)
    (hle : v.meter.limit ≤ limit) :
    (v.lifted chain limit).finish chain script node (.ok ()) =
      (v.finish chain script node (.ok ())).lifted chain limit := by
  have hset : (v.world.meters.modify chain fun m => { m with limit }).set chain { v.meter.closed with limit } =
      (v.world.meters.set chain v.meter.closed).modify chain fun m => { m with limit } := by
    apply List.ext_getElem?
    intro i
    by_cases hi : chain = i
    · simp [hi, List.getElem?_set]
    · simp [hi]
  have hworld : (v.lifted chain limit).world.setMeter chain (v.lifted chain limit).meter.closed =
      (v.world.setMeter chain v.meter.closed).lifted chain limit := by
    simp only [World.setMeter, World.lifted, ← hset]
    rfl
  have hspent : (v.lifted chain limit).meter.closed.spent = v.meter.closed.spent := by
    simp only [lifted, Meter.closed, Meter.spent]
    omega
  have hlive : (v.lifted chain limit).meter.live = v.meter.live := rfl
  unfold finish
  dsimp only
  rw [hspent, hlive, hworld]
  split <;> rfl

/-- A walk that begins within its limit stays there. -/
theorem Leads.visits_le {moves : List Work} {effects : List Effect} (h : Leads chain script moves effects w v)
    (hw : w.meter.visits ≤ w.meter.limit) : v.meter.visits ≤ v.meter.limit := by
  by_cases hmoves : moves = []
  · have hvisits := h.visits
    rw [hmoves, List.length_nil, Nat.add_zero] at hvisits
    rw [hvisits, h.limit]
    exact hw
  · exact (h.allowed hmoves).1

end Walk

/-! ### Worlds under two ceilings -/

namespace World

/-- All that waits is of one chain. -/
def IsOnly (chain : Nat) (w : World) : Prop := ∀ k ∈ w.timers.tasks, k.chain = chain ∧ k.rest ≠ []

/-- A world in which nothing was stopped since an earlier time. -/
def Unstopped (w₀ w : World) : Prop :=
  ∃ effects, w.trace.toList = w₀.trace.toList ++ effects ∧ ∀ e ∈ effects, e.isAborted = false

/-- Two worlds under two ceilings, when the lower one has not yet refused anything. -/
structure Along (w₀ : World) (chain limit limit' : Nat) (w w' : World) : Prop where
  eq : w' = w.lifted chain limit'
  meter : ∃ m, w.meters[chain]? = some m ∧ m.limit = limit ∧ m.tripped = false ∧ m.visits ≤ limit
  waits : w.IsOnly chain
  unstopped : w₀.Unstopped w

/-- Two worlds under two ceilings, after the lower one has stopped the chain. -/
structure Cut (w₀ : World) (chain limit limit' : Nat) (w w' : World) : Prop where
  meter : ∃ m, w.meters[chain]? = some m ∧ m.tripped = true
  meter' : ∃ m, w'.meters[chain]? = some m ∧ m.limit = limit' ∧ limit < m.visits
  waits : w.IsOnly chain
  waits' : w'.IsOnly chain
  trace : ∃ effects effects', w.trace.toList = w₀.trace.toList ++ effects ∧
    w'.trace.toList = w₀.trace.toList ++ effects' ∧ (∃ e ∈ effects, e.isAborted) ∧
    effects.filter Effect.isOfNode <+: effects'.filter Effect.isOfNode

theorem Unstopped.append {w₀ w w' : World} {effects : List Effect} (h : w₀.Unstopped w)
    (htrace : w'.trace.toList = w.trace.toList ++ effects) (hnone : ∀ e ∈ effects, e.isAborted = false) :
    w₀.Unstopped w' := by
  obtain ⟨before, hbefore, hquiet⟩ := h
  refine ⟨before ++ effects, by rw [htrace, hbefore, List.append_assoc], ?_⟩
  rw [List.forall_mem_append]
  exact ⟨hquiet, hnone⟩

theorem IsOnly.takeDue {chain : Nat} {w : World} {k : Continuation} {rest : Timers Continuation} {target : Duration}
    (h : w.IsOnly chain) (htake : w.timers.takeDue target = some (k, rest)) :
    k.chain = chain ∧ k.rest ≠ [] ∧ IsOnly chain { w with timers := rest } := by
  have htasks := Timers.tasks_takeDue htake
  obtain ⟨hchain, hrest⟩ := h k (htasks ▸ Multiset.mem_cons_self k _)
  exact ⟨hchain, hrest, fun j hj => h j (htasks ▸ Multiset.mem_cons_of_mem hj)⟩

end World

namespace Walk

variable {host host' : Host} {chain limit limit' : Nat} {script : Script} {w u : Walk} {w₀ : World}

/-- What a walk of a chain leaves waiting is of that chain. -/
theorem Leads.isOnly {moves : List Work} {effects : List Effect} (h : Leads chain script moves effects w u)
    (hw : w.world.IsOnly chain) : u.world.IsOnly chain := by
  obtain ⟨rests, htasks, -, hrests⟩ := h.waiting
  intro k hk
  rw [htasks, Multiset.mem_add] at hk
  rcases hk with hk | hk
  · exact ⟨(hrests k hk).chain_eq, (hrests k hk).rest_ne⟩
  · exact hw k hk

theorem isOnly_outcome (host : Host) (script : Script) (node : String) (stack : List Work)
    (hw : w.world.IsOnly chain) : (w.outcome host chain script node stack).IsOnly chain := by
  obtain ⟨moves, effects, u, hleads, hworld, -⟩ := exists_leads host chain script stack w
  intro k hk
  rw [outcome] at hk
  dsimp only at hk
  rw [finish_timers, hworld] at hk
  exact hleads.isOnly hw k hk

/-- The meter of a chain after a walk: its limit is what it was, and its visits are those of the walk. -/
theorem outcome_meter (host : Host) (script : Script) (node : String) (stack : List Work)
    (hchain : chain < w.world.meters.length) :
    ∃ m, (w.outcome host chain script node stack).meters[chain]? = some m ∧ m.limit = w.meter.limit ∧
      m.visits = (drive host chain script stack w).2.meter.visits := by
  obtain ⟨moves, effects, u, hleads, hworld, hlimit, -⟩ := exists_leads host chain script stack w
  have hchain' : chain < (drive host chain script stack w).2.world.meters.length := by rwa [hworld, hleads.meters]
  refine ⟨_, outcome_meters rfl hchain', ?_⟩
  cases (drive host chain script stack w).1 <;> exact ⟨hlimit.trans hleads.limit, rfl⟩

/-- A walk of a chain that the ceiling did not stop. -/
structure Within (w₀ : World) (chain limit : Nat) (w : Walk) : Prop where
  limit_eq : w.meter.limit = limit
  visits : w.meter.visits ≤ limit
  tripped : w.meter.tripped = false
  length : chain < w.world.meters.length
  waits : w.world.IsOnly chain
  unstopped : w₀.Unstopped w.world

theorem Within.leads {moves : List Work} {effects : List Effect} (h : w.Within w₀ chain limit)
    (hleads : Leads chain script moves effects w u) : u.Within w₀ chain limit where
  limit_eq := hleads.limit.trans h.limit_eq
  visits := by
    have hle := hleads.visits_le (by rw [h.limit_eq]; exact h.visits)
    rwa [hleads.limit, h.limit_eq] at hle
  tripped := hleads.tripped.trans h.tripped
  length := by rw [hleads.meters]; exact h.length
  waits := hleads.isOnly h.waits
  unstopped := h.unstopped.append hleads.trace fun e he => by
    have hquiet := hleads.quiet e he
    rw [← Bool.not_eq_true] at hquiet ⊢
    exact fun haborted => hquiet (Effect.isTerminal_of_isAborted haborted)

/-- After a walk that is complete the worlds under two ceilings are still along each other. -/
theorem Within.finish_along (h : u.Within w₀ chain limit) (hle : limit ≤ limit') (script node : String) :
    World.Along w₀ chain limit limit' (u.finish chain script node (.ok ()))
      ((u.lifted chain limit').finish chain script node (.ok ())) where
  eq := finish_lifted chain script node u (h.limit_eq ▸ h.visits) (h.limit_eq ▸ hle)
  meter := by
    rw [finish_meters, List.getElem?_set_self h.length]
    exact ⟨_, rfl, h.limit_eq, h.tripped, h.visits⟩
  waits k hk := by
    rw [finish_timers] at hk
    exact h.waits k hk
  unstopped := h.unstopped.append (finish_trace ..) fun e he => by
    dsimp only [report] at he
    split at he
    · rw [List.mem_singleton.1 he]
      rfl
    · cases he

/-- A walk that is refused a round cuts the chain, whatever a walk that goes on from there does. -/
theorem Within.finish_cut {v' : Walk} {answer' : Except ScriptError Unit} (h : u.Within w₀ chain limit)
    (hlength : chain < v'.world.meters.length) (hwaits : v'.world.IsOnly chain) (hlimit : v'.meter.limit = limit')
    (hbeyond : limit < v'.meter.visits) (htrace : u.world.trace.toList <+: v'.world.trace.toList)
    (script node : String) (e : ScriptError) :
    World.Cut w₀ chain limit limit' (u.charged.finish chain script node (.error e))
      (v'.finish chain script node answer') where
  meter := by
    have hlength : chain < u.charged.world.meters.length := h.length
    rw [finish_meters, List.getElem?_set_self hlength]
    exact ⟨_, rfl, rfl⟩
  meter' := by
    rw [finish_meters, List.getElem?_set_self hlength]
    cases answer' <;> exact ⟨_, rfl, hlimit, hbeyond⟩
  waits k hk := by
    rw [finish_timers] at hk
    exact h.waits k hk
  waits' k hk := by
    rw [finish_timers] at hk
    exact hwaits k hk
  trace := by
    obtain ⟨before, hbefore, -⟩ := h.unstopped
    obtain ⟨later, hlater⟩ := htrace
    have hreport : u.charged.report script node (.error e) =
        [.note ("Script '" ++ script ++ "' stopped: " ++ e.message), .event script node (.aborted e.message)] := by
      have hstill : u.charged.meter.tripped = false := h.tripped
      simp only [report, hstill, Bool.false_eq_true, if_false]
    refine ⟨before ++ u.charged.report script node (.error e), before ++ later ++ v'.report script node answer',
      ?_, ?_, ⟨.event script node (.aborted e.message), by simp [hreport], rfl⟩, ?_⟩
    · rw [finish_trace, ← List.append_assoc, ← hbefore]
      rfl
    · rw [finish_trace, ← hlater, hbefore]
      simp only [List.append_assoc]
    · rw [hreport, List.append_assoc, List.filter_append, List.filter_append]
      -- what is told of the stop is not of a node
      exact List.prefix_append_right_inj _ |>.2 (by simp [Effect.isOfNode])

/-- After a walk under two ceilings the worlds are still along each other, or the lower ceiling has cut the chain. -/
theorem Within.outcome (h : w.Within w₀ chain limit) (host host' : Host) (hdispatch : host'.dispatch = host.dispatch)
    (hle : limit ≤ limit') (script : Script) (node : String) (stack : List Work) :
    (∃ v, drive host chain script stack w = (.ok (), v) ∧ v.Within w₀ chain limit ∧
      drive host' chain script stack (w.lifted chain limit') = (.ok (), v.lifted chain limit') ∧
      World.Along w₀ chain limit limit' (w.outcome host chain script node stack)
        ((w.lifted chain limit').outcome host' chain script node stack)) ∨
    World.Cut w₀ chain limit limit' (w.outcome host chain script node stack)
      ((w.lifted chain limit').outcome host' chain script node stack) := by
  obtain ⟨effects, u, hleads, hend⟩ := drive_leads host chain script stack w
  have hu := h.leads hleads
  unfold Walk.outcome
  have hlimit : w.meter.limit ≤ limit' := h.limit_eq ▸ hle
  rcases drive_lifted hdispatch chain script stack w hlimit h.tripped with
    ⟨v, hdrive, hdrive'⟩ | ⟨e, v, hdrive, htrace, hbeyond⟩
  · left
    obtain hend | ⟨e, x, -, hend⟩ := hend
    · obtain rfl : u = v := (Prod.mk.inj (hend.symm.trans hdrive)).2
      refine ⟨u, hdrive, hu, hdrive', ?_⟩
      rw [hdrive, hdrive']
      exact hu.finish_along hle script.name node
    · rw [hend] at hdrive
      cases (Prod.mk.inj hdrive).1
  · right
    obtain hend | ⟨e', x, hcharge, hend⟩ := hend
    · rw [hend] at hdrive
      cases (Prod.mk.inj hdrive).1
    · obtain ⟨rfl, -, -⟩ := charge_error_iff.1 hcharge
      obtain rfl : u.charged = v := (Prod.mk.inj (hend.symm.trans hdrive)).2
      obtain ⟨moves, effects', u', hleads', hworld', hlimit', -⟩ :=
        exists_leads host' chain script stack (w.lifted chain limit')
      rw [hdrive]
      refine hu.finish_cut ?_ ?_ (hlimit'.trans hleads'.limit) (h.limit_eq ▸ hbeyond) htrace script.name node e
      · rw [hworld', hleads'.meters]
        simpa [lifted, World.lifted] using h.length
      · rw [hworld']
        exact hleads'.isOnly h.waits

end Walk

/-! ### Branches under two ceilings -/

namespace World

variable {host host' : Host} {chain limit limit' : Nat} {w₀ w w' : World} {k : Continuation}

/-- A branch of a chain that was stopped does nothing. -/
theorem resume_tripped {m : Meter} (host : Host) (hmeter : w.meters[k.chain]? = some m) (htripped : m.tripped = true)
    (hrest : k.rest ≠ []) :
    (∃ m, (w.resume host k).meters[k.chain]? = some m ∧ m.tripped = true) ∧
      (w.resume host k).timers = w.timers ∧
      (w.resume host k).trace.toList = w.trace.toList ++ [.event k.script.name k.node .resumed] := by
  obtain ⟨i, rest, hnext⟩ := List.exists_cons_of_ne_nil hrest
  have hreentry : (w.reentry k).meter.tripped = true := by
    rw [reentry, meter_eq hmeter, htripped]
  have hlength : k.chain < w.meters.length := (List.getElem?_eq_some_iff.1 hmeter).1
  rw [resume_eq, hnext, List.map_cons, Walk.outcome,
    Walk.drive_visit_error (Walk.charge_error_iff.2 ⟨rfl, rfl, .inr hreentry⟩)]
  dsimp only
  refine ⟨?_, Walk.finish_timers .., ?_⟩
  · rw [Walk.finish_meters]
    exact ⟨_, List.getElem?_set_self hlength, rfl⟩
  · have hreport (e : ScriptError) : (w.reentry k).charged.report k.script.name k.node (.error e) = [] :=
      if_pos hreentry
    rw [Walk.finish_trace, hreport, List.append_nil]
    simp [Walk.charged, reentry, emit, record]

theorem Along.resume (h : Along w₀ chain limit limit' w w') (hdispatch : host'.dispatch = host.dispatch)
    (hle : limit ≤ limit') (hchain : k.chain = chain) :
    Along w₀ chain limit limit' (w.resume host k) (w'.resume host' k) ∨
      Cut w₀ chain limit limit' (w.resume host k) (w'.resume host' k) := by
  subst hchain
  obtain ⟨m, hm, hlimit, htripped, hvisits⟩ := h.meter
  have hmeter := meter_eq hm
  have hmeter' : w'.meter k.chain = { m with limit := limit' } := meter_eq (by simp [h.eq, lifted, hm])
  have hreentry : w'.reentry k = (w.reentry k).lifted k.chain limit' := by
    rw [reentry, hmeter', h.eq, reentry, hmeter]
    rfl
  have hwithin : (w.reentry k).Within w₀ k.chain limit := by
    have hresumed : w₀.Unstopped (w.emit k.script.name k.node .resumed) :=
      h.unstopped.append (Array.toList_push ..) (by simp [Effect.isAborted])
    rw [reentry, hmeter]
    exact ⟨hlimit, hvisits, htripped, (List.getElem?_eq_some_iff.1 hm).1, h.waits, hresumed⟩
  rw [resume_eq, resume_eq, hreentry]
  rcases hwithin.outcome host host' hdispatch hle k.script k.node (k.rest.map .visit) with ⟨-, -, -, -, halong⟩ | hcut
  · exact .inl halong
  · exact .inr hcut

/-- After the cut a branch of the chain under the lower ceiling only tells that it goes on. -/
theorem Cut.stepLeft (h : Cut w₀ chain limit limit' w w') (host : Host) {rest : Timers Continuation}
    {target : Duration} (htake : w.timers.takeDue target = some (k, rest)) :
    Cut w₀ chain limit limit' (resume host k { w with timers := rest }) w' := by
  obtain ⟨rfl, hne, hrest⟩ := h.waits.takeDue htake
  obtain ⟨m, hm, htripped⟩ := h.meter
  obtain ⟨effects, effects', htrace, htrace', ⟨e, he, haborted⟩, hprefix⟩ := h.trace
  obtain ⟨hmeter, htimers, hresumed⟩ := resume_tripped (w := { w with timers := rest }) host hm htripped hne
  refine ⟨hmeter, h.meter', fun j hj => hrest j (htimers ▸ hj), h.waits',
    effects ++ [.event k.script.name k.node .resumed], effects', ?_, htrace',
    ⟨e, List.mem_append_left _ he, haborted⟩, ?_⟩
  · rw [hresumed, htrace, List.append_assoc]
  · rw [List.filter_append]
    simpa [Effect.isOfNode] using hprefix

/-- After the cut a branch of the chain under the higher ceiling adds to what its nodes did. -/
theorem Cut.stepRight (h : Cut w₀ chain limit limit' w w') (host' : Host) {rest : Timers Continuation}
    {target : Duration} (htake : w'.timers.takeDue target = some (k, rest)) :
    Cut w₀ chain limit limit' w (resume host' k { w' with timers := rest }) := by
  obtain ⟨rfl, -, hrest⟩ := h.waits'.takeDue htake
  obtain ⟨m, hm, hlimit, hvisits⟩ := h.meter'
  have hlength : k.chain < w'.meters.length := (List.getElem?_eq_some_iff.1 hm).1
  obtain ⟨effects, effects', htrace, htrace', haborted, hprefix⟩ := h.trace
  let before := reentry k { w' with timers := rest }
  have hmeter : before.meter = m := meter_eq hm
  obtain ⟨m', hm', hlimit', hvisits'⟩ := before.outcome_meter host' k.script k.node (k.rest.map .visit) hlength
  have hmore := (before.drive_extends host' k.chain k.script (k.rest.map .visit)).2
  rw [hmeter] at hmore hlimit'
  refine ⟨h.meter, ⟨m', hm', hlimit'.trans hlimit, by omega⟩, h.waits, before.isOnly_outcome host' _ _ _ hrest,
    effects, effects' ++ (nextPart host' k { w' with timers := rest }).effects, htrace, ?_, haborted, ?_⟩
  · rw [trace_resume, htrace', List.append_assoc]
  · rw [List.filter_append]
    exact hprefix.trans (List.prefix_append _ _)

/-! ### Plays under two ceilings -/

theorem Along.advance (h : Along w₀ chain limit limit' w w') (hdispatch : host'.dispatch = host.dispatch)
    (hle : limit ≤ limit') (elapsed : Duration) :
    (w'.advance host' elapsed).1 = (w.advance host elapsed).1 ∧
      Along w₀ chain limit limit' (w.advance host elapsed).2 (w'.advance host' elapsed).2 ∨
    Cut w₀ chain limit limit' (w.advance host elapsed).2 (w'.advance host' elapsed).2 := by
  have hsweep := w.sweepFrom_advance host elapsed
  have hsweep' := w'.sweepFrom_advance host' elapsed
  have htimers (s s' : World) (hs : Along w₀ chain limit limit' s s') : s'.timers = s.timers := by
    rw [hs.eq]
    rfl
  rw [htimers w w' h] at hsweep'
  refine Timers.sweepFrom_pair htimers ?_ (fun _ _ _ _ hs => hs.stepLeft host) (fun _ _ _ _ hs => hs.stepRight host')
    ?_ (fun _ _ hs => ⟨hs.meter, hs.meter', hs.waits, hs.waits', hs.trace⟩)
    (fun _ _ hs => ⟨hs.meter, hs.meter', hs.waits, hs.waits', hs.trace⟩) h hsweep hsweep'
  · intro s s' k rest hs htake
    obtain ⟨hchain, -, hrest⟩ := hs.waits.takeDue htake
    have halong : Along w₀ chain limit limit' { s with timers := rest } { s' with timers := rest } := by
      refine ⟨?_, hs.meter, hrest, hs.unstopped⟩
      rw [hs.eq]
      rfl
    exact halong.resume hdispatch hle hchain
  · intro s s' hs
    refine ⟨?_, hs.meter, hs.waits, hs.unstopped⟩
    rw [hs.eq]
    rfl

theorem Cut.advance (h : Cut w₀ chain limit limit' w w') (host host' : Host) (elapsed : Duration) :
    Cut w₀ chain limit limit' (w.advance host elapsed).2 (w'.advance host' elapsed).2 := by
  have hleft : Cut w₀ chain limit limit' (w.advance host elapsed).2 w' :=
    Timers.sweepFrom_invariant (P := fun s => Cut w₀ chain limit limit' s w')
      (fun s k rest htake hs => hs.stepLeft host htake)
      (fun s hs => ⟨hs.meter, hs.meter', hs.waits, hs.waits', hs.trace⟩) h (w.sweepFrom_advance host elapsed)
  exact Timers.sweepFrom_invariant (P := fun s' => Cut w₀ chain limit limit' (w.advance host elapsed).2 s')
    (fun s' k rest htake hs => hs.stepRight host' htake)
    (fun s' hs => ⟨hs.meter, hs.meter', hs.waits, hs.waits', hs.trace⟩) hleft (w'.sweepFrom_advance host' elapsed)

theorem Cut.advances (h : Cut w₀ chain limit limit' w w') (host host' : Host) (ds : List Duration) :
    Cut w₀ chain limit limit' (w.advances host ds).2 (w'.advances host' ds).2 := by
  induction ds generalizing w w' with
  | nil => exact h
  | cons d ds ih => exact ih (h.advance host host' d)

theorem Along.advances (h : Along w₀ chain limit limit' w w') (host host' : Host)
    (hdispatch : host'.dispatch = host.dispatch) (hle : limit ≤ limit') (ds : List Duration) :
    (w'.advances host' ds).1 = (w.advances host ds).1 ∧
      Along w₀ chain limit limit' (w.advances host ds).2 (w'.advances host' ds).2 ∨
    Cut w₀ chain limit limit' (w.advances host ds).2 (w'.advances host' ds).2 := by
  induction ds generalizing w w' with
  | nil => exact .inl ⟨rfl, h⟩
  | cons d ds ih =>
    rcases h.advance hdispatch hle d with ⟨hcount, halong⟩ | hcut
    · rcases ih halong with ⟨hcounts, hrest⟩ | hrest
      · refine .inl ⟨?_, hrest⟩
        simp only [World.advances, hcount, hcounts]
      · exact .inr hrest
    · exact .inr (hcut.advances host host' ds)

theorem execute_lifted (dispatch : List Call → Call → Except ScriptError Unit) (hle : limit ≤ limit')
    (script : Script) (start : Nat) (w : World) (hidle : w.pending = 0) :
    (w.execute ⟨limit', dispatch⟩ script start).1 = (w.execute ⟨limit, dispatch⟩ script start).1 ∧
      Along w w.meters.length limit limit' (w.execute ⟨limit, dispatch⟩ script start).2
        (w.execute ⟨limit', dispatch⟩ script start).2 ∨
    Cut w w.meters.length limit limit' (w.execute ⟨limit, dispatch⟩ script start).2
      (w.execute ⟨limit', dispatch⟩ script start).2 := by
  have hentry : w.entry ⟨limit', dispatch⟩ = (w.entry ⟨limit, dispatch⟩).lifted w.meters.length limit' := by
    have hmeters : (w.meters ++ [Meter.start limit]).modify w.meters.length (fun m => { m with limit := limit' }) =
        w.meters ++ [Meter.start limit'] := by
      simp [List.modify_eq_set_getElem?, Meter.start]
    rw [entry, entry, Walk.lifted, lifted, hmeters]
    rfl
  have hwithin : (w.entry ⟨limit, dispatch⟩).Within w w.meters.length limit := by
    refine ⟨rfl, Nat.zero_le _, rfl, by simp [entry], ?_, [], by simp [entry], by simp⟩
    intro k hk
    have htasks : k ∈ w.timers.tasks := hk
    rw [tasks_eq_zero hidle] at htasks
    exact absurd htasks (Multiset.notMem_zero k)
  rw [execute_fst, execute_fst, execute_snd, execute_snd, hentry]
  rcases hwithin.outcome ⟨limit, dispatch⟩ ⟨limit', dispatch⟩ rfl hle script (nodeName script start)
    [.visit start] with
    ⟨v, hdrive, hv, hdrive', halong⟩ | hcut
  · refine .inl ⟨?_, halong⟩
    have hspent : (v.lifted w.meters.length limit').meter.spent = v.meter.spent := by
      have hvisits := hv.visits
      have hlimit := hv.limit_eq
      simp only [Walk.lifted, Meter.spent]
      omega
    rw [hdrive, hdrive', hspent]
    rfl
  · exact .inr hcut

theorem play_lifted (dispatch : List Call → Call → Except ScriptError Unit) (hle : limit ≤ limit') (script : Script)
    (start : Nat) (ds : List Duration) (w : World) (hidle : w.pending = 0) :
    let play := w.play ⟨limit, dispatch⟩ script start ds
    let play' := w.play ⟨limit', dispatch⟩ script start ds
    play'.answer = play.answer ∧ play'.resumed = play.resumed ∧
      Along w w.meters.length limit limit' play.world play'.world ∨
    Cut w w.meters.length limit limit' play.world play'.world := by
  rcases execute_lifted dispatch hle script start w hidle with ⟨hanswer, halong⟩ | hcut
  · rcases halong.advances ⟨limit, dispatch⟩ ⟨limit', dispatch⟩ rfl hle ds with
      ⟨hresumed, halong⟩ | hcut
    · exact .inl ⟨hanswer, hresumed, halong⟩
    · exact .inr hcut
  · exact .inr (hcut.advances ⟨limit, dispatch⟩ ⟨limit', dispatch⟩ ds)

theorem Along.not_stopped (h : Along w₀ chain limit limit' w w') : ¬∃ e ∈ w₀.since w, e.isAborted := by
  obtain ⟨effects, htrace, hnone⟩ := h.unstopped
  rw [since_eq htrace]
  rintro ⟨e, he, haborted⟩
  rw [hnone e he] at haborted
  cases haborted

theorem Cut.stopped (h : Cut w₀ chain limit limit' w w') : ∃ e ∈ w₀.since w, e.isAborted := by
  obtain ⟨effects, effects', htrace, -, haborted, -⟩ := h.trace
  rwa [since_eq htrace]

/-- Under a ceiling a chain is stopped exactly if any higher one finds more visits than the ceiling allows. -/
theorem stopped_iff_lt_spent (dispatch : List Call → Call → Except ScriptError Unit) (hlt : limit < limit')
    (script : Script) (start : Nat) (ds : List Duration) (w : World) (hidle : w.pending = 0) :
    (∃ e ∈ w.since (w.play ⟨limit, dispatch⟩ script start ds).world, e.isAborted) ↔
      limit < ((w.play ⟨limit', dispatch⟩ script start ds).world.meter w.meters.length).spent := by
  rcases play_lifted dispatch (Nat.le_of_lt hlt) script start ds w hidle with ⟨-, -, halong⟩ | hcut
  · refine iff_of_false halong.not_stopped ?_
    obtain ⟨m, hm, -, -, hvisits⟩ := halong.meter
    have hmeter : ((w.play ⟨limit', dispatch⟩ script start ds).world.meter w.meters.length).visits = m.visits := by
      rw [halong.eq, meter, List.getD_eq_getElem?_getD]
      simp [lifted, hm]
    rw [Meter.spent, hmeter]
    omega
  · refine iff_of_true hcut.stopped ?_
    obtain ⟨m, hm, hlimit, hvisits⟩ := hcut.meter'
    rw [meter_eq hm, Meter.spent, hlimit]
    exact Nat.lt_min.2 ⟨hvisits, hlt⟩

/-- A ceiling only cuts a chain short.  What nodes do under a ceiling is the beginning of what they do under any
higher one: which nodes are executed, what they tell and where they fail, which actions are asked for, and which
variables are set.  A chain that is not stopped is the same under both: its answer, the numbers of branches that are
resumed, and the world at the end, but for the limit on its meter.  And a chain is stopped exactly if some higher
ceiling finds more visits than its own allows. -/
theorem ceiling_truncates (dispatch : List Call → Call → Except ScriptError Unit) (hle : limit ≤ limit')
    (script : Script) (start : Nat) (ds : List Duration) (w : World) (hidle : w.pending = 0) :
    let play (limit : Nat) := w.play ⟨limit, dispatch⟩ script start ds
    (w.since (play limit).world).filter Effect.isOfNode <+: (w.since (play limit').world).filter Effect.isOfNode ∧
    ((¬∃ e ∈ w.since (play limit).world, e.isAborted) →
      (play limit').answer = (play limit).answer ∧ (play limit').resumed = (play limit).resumed ∧
        (play limit').world = (play limit).world.lifted w.meters.length limit') ∧
    ((∃ e ∈ w.since (play limit).world, e.isAborted) ↔
      ∃ higher, limit < higher ∧ limit < ((play higher).world.meter w.meters.length).spent) := by
  intro play
  have hsame := play_lifted dispatch hle script start ds w hidle
  refine ⟨?_, ?_, fun hstopped => ?_, ?_⟩
  · rcases hsame with ⟨-, -, halong⟩ | hcut
    · have htrace : (play limit').world.trace = (play limit).world.trace := by
        rw [halong.eq]
        rfl
      have hsince : w.since (play limit').world = w.since (play limit).world := by
        rw [since, since, htrace]
      exact hsince ▸ List.prefix_rfl
    · obtain ⟨effects, effects', htrace, htrace', -, hprefix⟩ := hcut.trace
      rwa [since_eq htrace, since_eq htrace']
  · intro hnone
    rcases hsame with ⟨hanswer, hresumed, halong⟩ | hcut
    · exact ⟨hanswer, hresumed, halong.eq⟩
    · exact absurd hcut.stopped hnone
  · exact ⟨limit + 1, Nat.lt_succ_self _,
      (stopped_iff_lt_spent dispatch (Nat.lt_succ_self _) script start ds w hidle).1 hstopped⟩
  · rintro ⟨higher, hlt, hspent⟩
    exact (stopped_iff_lt_spent dispatch hlt script start ds w hidle).2 hspent

/-- With a visit more on its meter the chain makes a third one, and so it is stopped without it. -/
theorem ceiling_truncates_spin :
    let w := ofVariables .empty
    let play (limit : Nat) := w.play ⟨limit, fun _ _ => .ok ()⟩ spin 0 [0]
    (w.since (play 2).world).filter Effect.isOfNode <+: (w.since (play 3).world).filter Effect.isOfNode ∧
      2 < ((play 3).world.meter w.meters.length).spent ∧ ∃ e ∈ w.since (play 2).world, e.isAborted := by
  intro w play
  obtain ⟨-, m, -, -, -, -, hmeters, hvisits, hlimit⟩ :=
    Course.advance_spin ⟨3, fun _ _ => .ok ()⟩ (by decide) (by decide)
  have hmeter : (play 3).world.meter w.meters.length = m := meter_eq (congrArg (·[0]?) hmeters)
  have hspent : 2 < ((play 3).world.meter w.meters.length).spent := by
    rw [hmeter, Meter.spent, hvisits, hlimit]
    decide
  obtain ⟨hbegins, -, hstopped⟩ :=
    ceiling_truncates (fun _ _ => .ok ()) (show 2 ≤ 3 by decide) spin 0 [0] (ofVariables .empty) rfl
  exact ⟨hbegins, hspent, hstopped.2 ⟨3, by decide, hspent⟩⟩

end World

end ScriptGraph
