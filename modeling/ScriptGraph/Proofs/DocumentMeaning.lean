import ScriptGraph.Proofs.DocumentRepair

/-!
# What a document means

The graph that is read from a text can be said record by record (`decode_meaning`).  Each record is one node, with the
fields that the record describes (`Describes`).  Its identifier is that of the record, or a fresh one if that is
missing, empty or taken (`keptId`), and its connections are those that the identifiers of the record lead to
(`resolve`).  What the report counts is said in the same words (`Means`).

An identifier leads to the first node that has it.  If it is not a fresh one, that is the node of the first record
that has it: no record before it has that identifier, so this record keeps it, and nodes with other identifiers of
their own or with fresh ones are passed over (`findIdx?_rekey`).
-/

namespace ScriptGraph

/-- Values go over the first inputs, and the inputs after them keep their values. -/
theorem Node.getElem?_overlaid (inputs : List Input) (values : List String) (j : Nat) :
    (Node.overlaid inputs values)[j]? =
      inputs[j]?.map fun input => { input with value := values[j]?.getD input.value } := by
  induction inputs generalizing values j with
  | nil => cases values <;> rfl
  | cons input inputs ih =>
    cases values with
    | nil => simp [Node.overlaid]
    | cons value values =>
      cases j with
      | zero => rfl
      | succ j => simpa [Node.overlaid] using ih values j

namespace Document

/-! ### Fields -/

/-- A node has the fields that a record describes: those of the record itself, inputs as its label has them with the
values of the record in the first places, and a summary of these inputs unless the record has one. -/
structure Describes (r : Record) (n : Node Float32) : Prop where
  kind : n.kind = ((stringField r "type").map Kind.ofName).getD .action
  label : n.label = (stringField r "label").getD unknownLabel
  position : n.position = ⟨coordinateField r "x", coordinateField r "y"⟩
  size : n.size = Node.defaultSize
  color : n.color = ((stringField r "color").bind Color.ofHex?).getD .gray
  inputs : ∀ j : Nat, n.inputs[j]? = (Template.inputsOf n.label)[j]?.map fun input =>
    { input with value := (listField r "inputValues")[j]?.getD input.value }
  summary : n.summary = (stringField r "value").getD n.currentSummary

/-- Fields do not depend on the identifier of a node, nor on its connections. -/
theorem Describes.relinked {r : Record} {n : Node Float32} (h : Describes r n) (id : String) (targets : List Nat) :
    Describes r { n with id, targets } :=
  ⟨h.kind, h.label, h.position, h.size, h.color, h.inputs, h.summary⟩

theorem describes_nodeOfRecord (r : Record) : Describes r (nodeOfRecord r) := by
  unfold nodeOfRecord
  dsimp only
  -- values are stored or not, and so is a summary
  by_cases hempty : (listField r "inputValues").isEmpty = true
  · have hinputs : ∀ (inputs : List Input) (j : Nat), inputs[j]? = inputs[j]?.map fun input =>
        { input with value := (listField r "inputValues")[j]?.getD input.value } := by
      intro inputs j
      rw [List.isEmpty_iff.1 hempty]
      simp
    rw [if_pos hempty]
    cases hvalue : stringField r "value" with
    | none => exact ⟨rfl, rfl, rfl, rfl, rfl, hinputs _, by rw [hvalue]; rfl⟩
    | some summary => exact ⟨rfl, rfl, rfl, rfl, rfl, hinputs _, by rw [hvalue]; rfl⟩
  · rw [if_neg hempty]
    cases hvalue : stringField r "value" with
    | none => exact ⟨rfl, rfl, rfl, rfl, rfl, Node.getElem?_overlaid _ _, by rw [hvalue]; rfl⟩
    | some summary => exact ⟨rfl, rfl, rfl, rfl, rfl, Node.getElem?_overlaid _ _, by rw [hvalue]; rfl⟩

/-! ### Identifiers -/

/-- The identifier of a record if a node can have it: it is not empty, and none of those that are taken. -/
def keptId (taken : List String) (r : Record) : Option String :=
  (stringField r "id").filter fun id => id != "" && !taken.contains id

theorem keptId_eq_some {taken : List String} {r : Record} {id : String} :
    keptId taken r = some id ↔ stringField r "id" = some id ∧ id ≠ "" ∧ id ∉ taken := by
  simp [keptId, Option.filter_eq_some_iff]

/-- Which identifiers are taken matters, not their order. -/
private theorem keptId_append_cons (taken : List String) (id : String) (ids : List String) (r : Record) :
    keptId (taken ++ id :: ids) r = keptId (id :: taken ++ ids) r := by
  apply Option.ext
  intro id'
  rw [keptId_eq_some, keptId_eq_some, List.mem_append, List.mem_cons, List.mem_append, List.mem_cons, or_left_comm,
    or_assoc]

/-- The node of a record keeps the identifier of the record, or gets a fresh one, which is counted. -/
private theorem rekey_nodeOfRecord (fresh : Nat → String) (position : Nat) (taken : List String) (r : Record)
    (nodes : List (Node Float32)) :
    rekey fresh position taken (nodeOfRecord r :: nodes) =
      ((rekey fresh (position + 1) ((keptId taken r).getD (fresh position) :: taken) nodes).1 +
          (if (keptId taken r).isNone then 1 else 0),
        { nodeOfRecord r with id := (keptId taken r).getD (fresh position) } ::
          (rekey fresh (position + 1) ((keptId taken r).getD (fresh position) :: taken) nodes).2) := by
  have hid := id_nodeOfRecord r
  rw [rekey]
  cases hkept : keptId taken r with
  | some id =>
    obtain ⟨hfield, hsome, hfree⟩ := keptId_eq_some.1 hkept
    rw [hfield, Option.getD_some] at hid
    have hgood : ¬((nodeOfRecord r).id.isEmpty || taken.contains (nodeOfRecord r).id) = true := by
      simp [hid, hsome, hfree]
    rw [if_neg hgood]
    dsimp only [Option.getD_some, Option.isNone_some]
    rw [← hid]
    rfl
  | none =>
    have hbad : ((nodeOfRecord r).id.isEmpty || taken.contains (nodeOfRecord r).id) = true := by
      by_contra hgood
      rw [Bool.not_eq_true, Bool.or_eq_false_iff] at hgood
      cases hfield : stringField r "id" with
      | none =>
        rw [hid, hfield] at hgood
        exact absurd hgood.1 (by decide)
      | some id =>
        rw [hid, hfield, Option.getD_some] at hgood
        have := keptId_eq_some.2 ⟨hfield, by simpa using hgood.1, by simpa using hgood.2⟩
        rw [hkept] at this
        cases this
    rw [if_pos hbad]
    rfl

/-- Each node has the identifier of its record, unless that is missing, empty or that of a node before it. -/
theorem getElem?_rekey (fresh : Nat → String) (position : Nat) (taken : List String) (rs : List Record) (i : Nat) :
    (rekey fresh position taken (rs.map nodeOfRecord)).2[i]? = rs[i]?.map fun r =>
      { nodeOfRecord r with
        id := (keptId (taken ++ ((rekey fresh position taken (rs.map nodeOfRecord)).2.take i).map (·.id)) r).getD
          (fresh (position + i)) } := by
  induction rs generalizing position taken i with
  | nil => simp [rekey]
  | cons r rs ih =>
    rw [List.map_cons, rekey_nodeOfRecord]
    cases i with
    | zero => simp
    | succ i =>
      have hstep := ih (position + 1) ((keptId taken r).getD (fresh position) :: taken) i
      rw [List.getElem?_cons_succ, hstep, List.getElem?_cons_succ]
      congr 1
      funext r'
      rw [List.take_succ_cons, List.map_cons, keptId_append_cons, Nat.add_right_comm, Nat.add_assoc]

/-- The count is that of the records that do not keep their identifier. -/
theorem fst_rekey (fresh : Nat → String) (position : Nat) (taken : List String) (rs : List Record) :
    (rekey fresh position taken (rs.map nodeOfRecord)).1 = rs.zipIdx.countP fun (r, i) => (keptId (taken ++
      ((rekey fresh position taken (rs.map nodeOfRecord)).2.take i).map (·.id)) r).isNone := by
  induction rs generalizing position taken with
  | nil => rfl
  | cons r rs ih =>
    have hstep := ih (position + 1) ((keptId taken r).getD (fresh position) :: taken)
    rw [List.map_cons, rekey_nodeOfRecord, List.zipIdx_cons', List.countP_cons, List.countP_map]
    dsimp only
    rw [hstep]
    congr 1
    · apply List.countP_congr
      rintro ⟨r', i⟩ -
      simp only [Function.comp, Prod.map, id, List.take_succ_cons, List.map_cons, keptId_append_cons]
    · simp

/-- An identifier that is no fresh one leads to the node of the first record that has it. -/
theorem findIdx?_rekey {fresh : Nat → String} {id : String} (hsome : id ≠ "") (hfresh : ∀ i, id ≠ fresh i)
    (position : Nat) {taken : List String} (hfree : id ∉ taken) (rs : List Record) :
    (rekey fresh position taken (rs.map nodeOfRecord)).2.findIdx? (·.id == id) =
      rs.findIdx? (stringField · "id" == some id) := by
  induction rs generalizing position taken with
  | nil => rfl
  | cons r rs ih =>
    rw [List.map_cons, rekey_nodeOfRecord, List.findIdx?_cons, List.findIdx?_cons]
    have hsame : (keptId taken r).getD (fresh position) = id ↔ stringField r "id" = some id := by
      constructor
      · intro h
        cases hkept : keptId taken r with
        | none =>
          rw [hkept] at h
          exact absurd h.symm (hfresh position)
        | some kept =>
          rw [hkept] at h
          exact h ▸ (keptId_eq_some.1 hkept).1
      · intro h
        rw [keptId_eq_some.2 ⟨h, hsome, hfree⟩, Option.getD_some]
    by_cases h : stringField r "id" = some id
    · simp [h, hsame.2 h]
    · have hne : (keptId taken r).getD (fresh position) ≠ id := fun heq => h (hsame.1 heq)
      have hfree' : id ∉ (keptId taken r).getD (fresh position) :: taken := by simp [hne.symm, hfree]
      have hstep := ih (position + 1) hfree'
      simp only [beq_eq_false_iff_ne.2 hne, beq_eq_false_iff_ne.2 h, Bool.false_eq_true, if_false, hstep]

/-! ### The whole document -/

/-- What is read from records: a node for each of them, with an identifier and connections by the rules above, and
counts of the identifiers that are fresh and of those that lead to no other node. -/
structure Means (fresh : Nat → String) (rs : List Record) (g : Graph Float32) (report : Report) : Prop where
  size : g.size = rs.length
  nodes : ∀ (i : Nat) (r : Record), rs[i]? = some r → ∃ n, g.nodes[i]? = some n ∧ Describes r n ∧
    n.id = (keptId ((g.nodes.take i).map (·.id)) r).getD (fresh i) ∧
    n.targets = resolve g i (listField r "connectionIds")
  rekeyed : report.rekeyed = rs.zipIdx.countP fun (r, i) => (keptId ((g.nodes.take i).map (·.id)) r).isNone
  dropped : report.dropped =
    (rs.zipIdx.flatMap fun (r, i) => (listField r "connectionIds").filter (isLost g i)).length
  leads : ∀ id, id ≠ "" → (∀ i, id ≠ fresh i) → g.indexOf? id = rs.findIdx? (stringField · "id" == some id)

/-- Identifiers lead to the same positions before and after the nodes are connected. -/
private theorem indexOf?_linkAll (ps : List (Node Float32 × List String)) :
    (linkAll ps).indexOf? = (bare ps).indexOf? := by
  apply Graph.indexOf?_congr
  rw [ids_linkAll, bare, List.map_map]
  rfl

private theorem getElem?_linkAll (ps : List (Node Float32 × List String)) (i : Nat) :
    (linkAll ps).nodes[i]? = ps[i]?.map fun p => { p.1 with targets := resolve (linkAll ps) i p.2 } := by
  have hresolve : resolve (bare ps) = resolve (linkAll ps) := by
    funext i ids
    rw [resolve, resolve, indexOf?_linkAll]
  rw [← hresolve, linkAll, List.getElem?_map, List.getElem?_zipIdx, Option.map_map, Nat.zero_add]
  rfl

private theorem lostIds_eq_flatMap (ps : List (Node Float32 × List String)) :
    lostIds ps = (ps.map (·.2)).zipIdx.flatMap fun (ids, i) => ids.filter (isLost (linkAll ps) i) := by
  have hlost : isLost (bare ps) = isLost (linkAll ps) := by
    funext i id
    rw [isLost, isLost, indexOf?_linkAll]
  rw [lostIds, hlost, List.zipIdx_map, List.flatMap_map]
  rfl

theorem means_linkAll (fresh : Nat → String) (rs : List Record) (skipped : Nat) :
    Means fresh rs (linkAll (keyed fresh rs))
      ⟨skipped, (lostIds (keyed fresh rs)).length, (rekey fresh 0 [] (rs.map nodeOfRecord)).1⟩ := by
  have hids : (linkAll (keyed fresh rs)).nodes.map (·.id) =
      (rekey fresh 0 [] (rs.map nodeOfRecord)).2.map (·.id) := by
    rw [ids_linkAll, ← map_fst_keyed, List.map_map]
    rfl
  have hbefore : ∀ i, ((linkAll (keyed fresh rs)).nodes.take i).map (·.id) =
      ((rekey fresh 0 [] (rs.map nodeOfRecord)).2.take i).map (·.id) := by
    intro i
    rw [List.map_take, hids, List.map_take]
  refine ⟨?size, ?nodes, ?rekeyed, ?dropped, ?leads⟩
  case size =>
    have hlength := congrArg List.length hids
    rwa [List.length_map, List.length_map, length_rekey] at hlength
  case nodes =>
    intro i r hr
    have hnode := getElem?_rekey fresh 0 [] rs i
    rw [hr, Option.map_some, List.nil_append, Nat.zero_add, ← hbefore] at hnode
    have hpair : ∀ n, (rekey fresh 0 [] (rs.map nodeOfRecord)).2[i]? = some n →
        (keyed fresh rs)[i]? = some (n, listField r "connectionIds") := by
      intro n hn
      rw [keyed, List.getElem?_zip_eq_some, List.getElem?_map, hr]
      exact ⟨hn, rfl⟩
    refine ⟨_, by rw [getElem?_linkAll, hpair _ hnode, Option.map_some], ?_, rfl, rfl⟩
    exact (describes_nodeOfRecord r).relinked _ _
  case rekeyed =>
    simp only [hbefore]
    exact fst_rekey fresh 0 [] rs
  case dropped =>
    dsimp only
    rw [lostIds_eq_flatMap, map_snd_keyed, List.zipIdx_map, List.flatMap_map]
    rfl
  case leads =>
    intro id hsome hfresh
    rw [Graph.indexOf?_eq_findIdx?, hids, ← findIdx?_rekey hsome hfresh 0 (List.not_mem_nil) rs, List.findIdx?_map]
    rfl

theorem exists_means (fresh : Nat → String) (text : String) (hne : (records text.toList).2 ≠ []) :
    ∃ g report, decode fresh text = .ok (g, report) ∧ report.skipped = (records text.toList).1 ∧
      Means fresh (records text.toList).2 g report :=
  ⟨_, _, ofRecords_eq_linkAll fresh _ hne, rfl, means_linkAll fresh _ _⟩

/-- Each graph that is read is the one that the records mean. -/
theorem means_of_decode {fresh : Nat → String} {text : String} {g : Graph Float32} {report : Report}
    (h : decode fresh text = .ok (g, report)) : Means fresh (records text.toList).2 g report := by
  have hne : (records text.toList).2 ≠ [] := by
    intro hempty
    change ofRecords fresh (records text.toList).1 (records text.toList).2 = .ok (g, report) at h
    rw [hempty] at h
    cases h
  obtain ⟨g', report', hdecode, -, hmeans⟩ := exists_means fresh text hne
  obtain ⟨rfl, rfl⟩ := Prod.mk.inj (Except.ok.inj (hdecode.symm.trans h))
  exact hmeans

/-- What stands in a text.  Without a record there is no graph, and otherwise there is the one that the records
mean. -/
theorem decode_meaning (fresh : Nat → String) (text : String) :
    ((records text.toList).2 = [] → decode fresh text = .error .noNodes) ∧
      ((records text.toList).2 ≠ [] → ∃ g report, decode fresh text = .ok (g, report) ∧
        report.skipped = (records text.toList).1 ∧ Means fresh (records text.toList).2 g report) := by
  constructor
  · intro hempty
    change ofRecords fresh (records text.toList).1 (records text.toList).2 = .error .noNodes
    rw [hempty]
    rfl
  · intro hne
    exact exists_means fresh text hne

end Document

end ScriptGraph
