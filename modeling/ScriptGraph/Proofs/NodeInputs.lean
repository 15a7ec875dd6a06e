import ScriptGraph.Proofs.DocumentMeaning

/-!
# Inputs follow the label, the summary follows the inputs

A node keeps three things that depend on one another: its label, the inputs that the catalog has for it, and a summary
of their values.  `Node.Made` are the nodes of all origins together with what was done to them since, last things
first.  From these alone `Node.written` says what an input holds, and `Node.Follows` says so of the node, after each
change (`Node.Follows.change`).  A summary that was stored with a node is the one thing that does not follow, until
the first change that brings it up to date.
-/

namespace ScriptGraph.Node

variable {S : Type}

/-! ### What changes do to inputs -/

namespace Change

/-- The label that a change gives to a node. -/
def label? : Change S → Option String
  | relabel label => some label
  | _ => none

/-- What a change writes to an input. -/
def value? (j : Nat) : Change S → Option String
  | input i value => if i = j then some value else none
  | overlay values => values[j]?
  | _ => none

/-- Whether a change brings the summary up to date. -/
def summarizes (n : Node S) : Change S → Bool
  | relabel _ | overlay _ | refresh => true
  | input i _ => i < n.inputs.length
  | _ => false

/-- A change that neither gives another kind to a node nor a summary that it did not have. -/
def IsOrdinary : Change S → Prop
  | classify _ | restore _ => False
  | _ => True

end Change

/-- The label that a node has after some changes, last one first. -/
def labelled : List (Change S) → Option String := List.findSome? Change.label?

/-- What was written to an input by some changes, last one first, since the label was changed. -/
def written (j : Nat) : List (Change S) → Option String
  | [] => none
  | c :: cs => if c.label?.isSome then none else (c.value? j).or (written j cs)

/-- The catalog has the inputs of a node for its label, and each holds what was written to it, or its default.  The
summary is the one that was stored, if it is that one still, and otherwise that of the inputs. -/
structure Follows (cs : List (Change S)) (stored : Option String) (n : Node S) : Prop where
  label : labelled cs = some n.label
  inputs : ∀ j : Nat, n.inputs[j]? = (Template.inputsOf n.label)[j]?.map fun input =>
    { input with value := (written j cs).getD input.value }
  summary : n.summary = stored.getD n.currentSummary

variable {n : Node S} {cs : List (Change S)} {stored : Option String}

theorem setInput_of_lt {i : Nat} (h : i < n.inputs.length) (value : String) : n.setInput i value =
    (true, refresh { n with inputs := n.inputs.modify i fun input => { input with value } }) := if_pos h

theorem setInput_of_le {i : Nat} (h : n.inputs.length ≤ i) (value : String) : n.setInput i value = (false, n) :=
  if_neg (Nat.not_lt.2 h)

theorem written_cons {c : Change S} (hc : c.label? = none) (j : Nat) (cs : List (Change S)) :
    written j (c :: cs) = (c.value? j).or (written j cs) := by
  rw [written, hc]
  rfl

/-- A change that writes nothing and changes nothing that inputs and summaries depend on. -/
private theorem Follows.keep (h : n.Follows cs stored) {c : Change S} (hc : c.label? = none)
    (hvalue : ∀ j, written j (c :: cs) = written j cs) {n' : Node S} (hlabel : n'.label = n.label)
    (hinputs : n'.inputs = n.inputs) (hkind : n'.kind = n.kind) (hsummary : n'.summary = n.summary) :
    n'.Follows (c :: cs) stored where
  label := by
    rw [labelled, List.findSome?_cons, hc, hlabel]
    exact h.label
  inputs j := by rw [hinputs, hlabel, h.inputs j, hvalue j]
  summary := by rw [hsummary, h.summary, currentSummary, currentSummary, hkind, hinputs, hlabel]

theorem Follows.setInput (h : n.Follows cs stored) (i : Nat) (value : String) :
    (n.setInput i value).2.Follows (.input i value :: cs) (if i < n.inputs.length then none else stored) := by
  by_cases hi : i < n.inputs.length
  · rw [setInput_of_lt hi, if_pos hi]
    refine ⟨h.label, fun j => ?_, rfl⟩
    change (n.inputs.modify i fun input => { input with value })[j]? = _
    rw [List.getElem?_modify, h.inputs j, Option.map_eq_map, Option.map_map, written_cons rfl, Change.value?]
    congr 1
    funext input
    by_cases hij : i = j
    · simp [hij]
    · simp [hij]
  · rw [setInput_of_le (Nat.not_lt.1 hi), if_neg hi]
    refine ⟨h.label, fun j => ?_, h.summary⟩
    rw [written_cons rfl, Change.value?]
    by_cases hij : i = j
    · -- no input is there that could hold the value
      subst hij
      have hnone := h.inputs i
      rw [List.getElem?_eq_none (Nat.not_lt.1 hi), eq_comm, Option.map_eq_none_iff] at hnone
      rw [List.getElem?_eq_none (Nat.not_lt.1 hi), hnone, Option.map_none]
    · rw [if_neg hij, Option.none_or]
      exact h.inputs j

theorem Follows.overlay (h : n.Follows cs stored) (values : List String) :
    (n.overlay values).2.Follows (.overlay values :: cs) none := by
  refine ⟨h.label, fun j => ?_, rfl⟩
  change (overlaid n.inputs values)[j]? = _
  rw [getElem?_overlaid, h.inputs j, Option.map_map, written_cons rfl, Change.value?]
  congr 1
  funext input
  cases values[j]? <;> rfl

theorem Follows.change (h : n.Follows cs stored) (c : Change S) (hc : c.IsOrdinary) :
    (c.apply n).Follows (c :: cs) (if c.summarizes n then none else stored) := by
  cases c with
  | relabel label =>
    refine ⟨rfl, fun j => ?_, rfl⟩
    exact Option.map_id'.symm
  | input i value =>
    rw [Change.summarizes]
    simp only [decide_eq_true_eq]
    exact h.setInput i value
  | overlay values => exact h.overlay values
  | refresh => exact ⟨h.label, h.inputs, rfl⟩
  | classify | restore => exact hc.elim
  | identify | place | resize | paint => exact h.keep rfl (fun j => rfl) rfl rfl rfl rfl

/-! ### Nodes of all origins -/

/-- Nodes as they are made, read, put into graphs and changed, and copies of them.  With them stand the changes that
led to their inputs, last one first, and the summary that was stored with them, as long as nothing has brought it up
to date. -/
inductive Made : List (Change Float32) → Option String → Node Float32 → Prop
  | make (id : String) (kind : Kind) (label : String) (position : Vec2 Float32) (color : Color) :
      Made [.relabel label] none (.make id kind label position color)
  | ofTemplate (id label : String) (position : Vec2 Float32) :
      Made [.relabel label] none (.ofTemplate id label position)
  | addTemplate {g : Graph Float32} {id label : String} {position : Vec2 Float32} {n : Node Float32}
      (hn : (g.addTemplate id label position).node? g.size = some n) : Made [.relabel label] none n
  | decode {fresh : Nat → String} {text : String} {g : Graph Float32} {report : Document.Report} {i : Nat}
      {r : Document.Record} {n : Node Float32} (h : Document.decode fresh text = .ok (g, report))
      (hr : (Document.records text.toList).2[i]? = some r) (hn : g.node? i = some n) :
      Made [.overlay (Document.listField r "inputValues"),
        .relabel ((Document.stringField r "label").getD Document.unknownLabel)] (Document.stringField r "value") n
  | link {cs : List (Change Float32)} {stored : Option String} {n : Node Float32} (h : Made cs stored n)
      (targets : List Nat) : Made cs stored { n with targets }
  | change {cs : List (Change Float32)} {stored : Option String} {n : Node Float32} (h : Made cs stored n)
      (c : Change Float32) (hc : c.IsOrdinary) :
      Made (c :: cs) (if c.summarizes n then none else stored) (c.apply n)

theorem follows_make [Scalar S] (id : String) (kind : Kind) (label : String) (position : Vec2 S) (color : Color) :
    Follows [.relabel label] none (make id kind label position color) :=
  ⟨rfl, fun _ => Option.map_id'.symm, rfl⟩

theorem follows_ofTemplate [Scalar S] (id label : String) (position : Vec2 S) :
    Follows [.relabel label] none (ofTemplate id label position) := by
  unfold ofTemplate
  split
  · next template hfind =>
    have hlabel : template.label = label := by simpa using List.find?_some hfind
    rw [hlabel]
    exact follows_make ..
  · exact follows_make ..

theorem Follows.link (h : n.Follows cs stored) (targets : List Nat) : Follows cs stored { n with targets } :=
  ⟨h.label, h.inputs, h.summary⟩

theorem Follows.of_describes {r : Document.Record} {n : Node Float32} (h : Document.Describes r n) :
    n.Follows [.overlay (Document.listField r "inputValues"),
      .relabel ((Document.stringField r "label").getD Document.unknownLabel)] (Document.stringField r "value") where
  label := congrArg some h.label.symm
  inputs j := by
    rw [h.inputs j, written_cons rfl, Change.value?]
    congr 1
    funext input
    cases (Document.listField r "inputValues")[j]? <;> rfl
  summary := h.summary

theorem Made.follows {cs : List (Change Float32)} {n : Node Float32} (h : Made cs stored n) :
    n.Follows cs stored := by
  induction h with
  | make => exact follows_make ..
  | ofTemplate => exact follows_ofTemplate ..
  | @addTemplate g id label position n hn =>
    have hlast : (g.addTemplate id label position).node? g.size =
        some { Node.ofTemplate id label position with targets := [] } := by
      simp [Graph.addTemplate, Graph.add, Graph.node?, Graph.size]
    obtain rfl := Option.some.inj (hlast.symm.trans hn)
    exact (follows_ofTemplate id label position).link []
  | @decode fresh text g report i r n h hr hn =>
    -- identifiers and connections aside, the node is what its record describes
    obtain ⟨n', hn', hdescribes, -, -⟩ := (Document.means_of_decode h).nodes i r hr
    obtain rfl : n' = n := Option.some.inj (hn'.symm.trans hn)
    exact .of_describes hdescribes
  | link _ targets ih => exact ih.link targets
  | change _ c hc ih => exact ih.change c hc

/-! ### What follows -/

theorem map_value_overlaid (inputs : List Input) (values : List String) :
    (overlaid inputs values).map (·.value) = values.take (min inputs.length values.length) ++
      (inputs.map (·.value)).drop (min inputs.length values.length) := by
  induction inputs generalizing values with
  | nil => simp [overlaid]
  | cons input inputs ih =>
    cases values with
    | nil => simp [overlaid]
    | cons value values => simp [overlaid, ih]

/-- What a node says of itself, and what the operations on it answer. -/
structure InOrder (cs : List (Change S)) (stored : Option String) (n : Node S) : Prop where
  label : labelled cs = some n.label
  inputLabels : n.inputs.map (·.label) = (Template.inputsOf n.label).map (·.label)
  /-- an input holds what was written last, or its default -/
  value : ∀ (j : Nat) input, (Template.inputsOf n.label)[j]? = some input →
    n.inputValue j = (written j cs).getD input.value
  summary : n.summary = stored.getD
    (if n.kind = .event ∧ n.inputs = [] then n.label else String.intercalate "|" (n.inputs.map (·.value)))
  setInput : ∀ i value, (n.setInput i value).1 = decide (i < (Template.inputsOf n.label).length)
  /-- without such an input nothing happens -/
  setInput_outside : ∀ i value, (Template.inputsOf n.label).length ≤ i → (n.setInput i value).2 = n
  /-- the answer is the number of values that go in, and all other inputs keep theirs -/
  overlay : ∀ values, (n.overlay values).1 = min (Template.inputsOf n.label).length values.length ∧
    (n.overlay values).2.inputs.map (·.value) =
      values.take (n.overlay values).1 ++ (n.inputs.map (·.value)).drop (n.overlay values).1

theorem Follows.inOrder (h : n.Follows cs stored) : n.InOrder cs stored := by
  have hlabels : n.inputs.map (·.label) = (Template.inputsOf n.label).map (·.label) := by
    apply List.ext_getElem?
    intro j
    rw [List.getElem?_map, List.getElem?_map, h.inputs j, Option.map_map]
    rfl
  have hlength : n.inputs.length = (Template.inputsOf n.label).length := by
    simpa using congrArg List.length hlabels
  refine ⟨h.label, hlabels, ?_, ?_, ?_, ?_, ?_⟩
  · intro j input hinput
    rw [inputValue, h.inputs j, hinput, Option.map_some]
  · rw [h.summary, currentSummary]
    simp only [Bool.and_eq_true, decide_eq_true_eq, List.isEmpty_iff]
  · intro i value
    rw [← hlength]
    by_cases hi : i < n.inputs.length
    · rw [setInput_of_lt hi, decide_eq_true hi]
    · rw [setInput_of_le (Nat.not_lt.1 hi), decide_eq_false hi]
  · intro i value hi
    rw [setInput_of_le (hlength ▸ hi)]
  · intro values
    exact ⟨by rw [← hlength]; rfl, map_value_overlaid n.inputs values⟩

/-- However a node was made and whatever was done to it, its inputs are those of its label with the values that were
written last, and its summary is that of the inputs, unless it was stored and nothing was written since. -/
theorem inputs_follow_label {cs : List (Change Float32)} {n : Node Float32} (h : Made cs stored n) :
    n.InOrder cs stored := h.follows.inOrder

/-- A document with a node that has a summary of its own. -/
def summed : String :=
  "\x7b\"label\": \"Set Variable\", \"inputValues\": [\"score\"], \"value\": \"a sum\"\x7d"

/-- The summary of the node stays what it is until the value of the variable is written. -/
theorem inputs_follow_label_summed : ∃ n : Node Float32,
    Made [.overlay ["score"], .relabel "Set Variable"] (some "a sum") n ∧
      n.InOrder [.overlay ["score"], .relabel "Set Variable"] (some "a sum") ∧
      ((Change.input 1 "5").apply n).InOrder [.input 1 "5", .overlay ["score"], .relabel "Set Variable"] none := by
  have hfields : (Document.records summed.toList).2.map (fun r => (Document.stringField r "label",
      Document.listField r "inputValues", Document.stringField r "value")) =
      [(some "Set Variable", ["score"], some "a sum")] := by decide +kernel
  obtain ⟨r, hr, hfield⟩ := List.map_eq_singleton_iff.1 hfields
  obtain ⟨hlabel, hvalues, hsummary⟩ : Document.stringField r "label" = some "Set Variable" ∧
      Document.listField r "inputValues" = ["score"] ∧ Document.stringField r "value" = some "a sum" := by
    simpa using hfield
  obtain ⟨g, report, hdecode, -, hmeans⟩ := Document.exists_means toString summed (by simp [hr])
  obtain ⟨n, hn, -⟩ := hmeans.nodes 0 r (by rw [hr]; rfl)
  have hmade := Made.decode hdecode (by rw [hr]; rfl) hn
  rw [hlabel, hvalues, hsummary, Option.getD_some] at hmade
  have horder := inputs_follow_label hmade
  have hlength : 1 < n.inputs.length := by
    have hcount := congrArg List.length horder.inputLabels
    rw [← Option.some.inj horder.label, List.length_map] at hcount
    rw [hcount]
    decide +kernel
  have hchanged := hmade.change (.input 1 "5") trivial
  rw [Change.summarizes, decide_eq_true hlength, if_pos rfl] at hchanged
  exact ⟨n, hmade, horder, inputs_follow_label hchanged⟩

end ScriptGraph.Node
