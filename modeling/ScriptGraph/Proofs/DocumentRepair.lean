import ScriptGraph.Proofs.DocumentParts

/-!
# What was read once needs no more repair

Whatever stands in a text, the graph that is read from it can be written and read again without any further change
(`decode_settles`).  The nodes of records are nodes that can be built (`built_nodeOfRecord`), with kinds that have
names and with finite coordinates, and `rekey` gives them different identifiers (`rekey_spec`).  Together with
`linked_linkAll` that makes the graph `Storable`.
-/

namespace ScriptGraph.Document

/-! ### Nodes of records -/

/-- The node of a record before its stored inputs and its stored summary. -/
private def plainNode (r : Record) : Node Float32 :=
  Node.make ((stringField r "id").getD "") (((stringField r "type").map Kind.ofName).getD .action)
    ((stringField r "label").getD unknownLabel) ⟨coordinateField r "x", coordinateField r "y"⟩
    (((stringField r "color").bind Color.ofHex?).getD .gray)

/-- The stored inputs and the stored summary are changes of a node, and no others. -/
private theorem nodeOfRecord_cases (r : Record) :
    ∃ n, (n = plainNode r ∨ ∃ values, n = (Node.Change.overlay values).apply (plainNode r)) ∧
      (nodeOfRecord r = n ∨ ∃ summary, nodeOfRecord r = (Node.Change.restore summary).apply n) := by
  refine ⟨if (listField r "inputValues").isEmpty then plainNode r
    else ((plainNode r).overlay (listField r "inputValues")).2, ?_, ?_⟩
  · split
    · exact .inl rfl
    · exact .inr ⟨_, rfl⟩
  · unfold nodeOfRecord
    cases stringField r "value" with
    | none => exact .inl rfl
    | some summary => exact .inr ⟨summary, rfl⟩

theorem built_nodeOfRecord (r : Record) : (nodeOfRecord r).Built := by
  obtain ⟨n, hn, hr⟩ := nodeOfRecord_cases r
  have hbuilt : n.Built := by
    rcases hn with rfl | ⟨values, rfl⟩
    · exact .make ..
    · exact .change (.make ..) _
  rcases hr with hr | ⟨summary, hr⟩ <;> rw [hr]
  · exact hbuilt
  · exact .change hbuilt _

/-- The other fields of the node of a record. -/
private theorem nodeOfRecord_fields (r : Record) :
    (nodeOfRecord r).id = (plainNode r).id ∧ (nodeOfRecord r).kind = (plainNode r).kind ∧
      (nodeOfRecord r).position = (plainNode r).position ∧ (nodeOfRecord r).targets = [] := by
  obtain ⟨n, hn, hr⟩ := nodeOfRecord_cases r
  rcases hn with rfl | ⟨values, rfl⟩ <;> rcases hr with hr | ⟨summary, hr⟩ <;> rw [hr] <;> exact ⟨rfl, rfl, rfl, rfl⟩

theorem id_nodeOfRecord (r : Record) : (nodeOfRecord r).id = (stringField r "id").getD "" :=
  (nodeOfRecord_fields r).1

theorem isFinite_coordinateField (r : Record) (key : String) : (coordinateField r key).isFinite = true := by
  have hzero : (Float32.ofNat 0).isFinite = true := by decide +kernel
  unfold coordinateField
  dsimp only
  split
  · split
    · next hfinite => exact hfinite
    · exact hzero
  · exact hzero

theorem exists_kind_nodeOfRecord (r : Record) : ∃ s, (nodeOfRecord r).kind = Kind.ofName s := by
  obtain ⟨-, hkind, -⟩ := nodeOfRecord_fields r
  rw [hkind]
  change ∃ s, ((stringField r "type").map Kind.ofName).getD .action = Kind.ofName s
  cases stringField r "type" with
  | none => exact ⟨"action", by decide⟩
  | some s => exact ⟨s, by rw [Option.map_some, Option.getD_some]⟩

/-! ### Fresh identifiers -/

/-- Nothing but the identifiers of nodes is replaced. -/
theorem rekey_forall₂ (fresh : Nat → String) (position : Nat) (taken : List String) (nodes : List (Node Float32)) :
    List.Forall₂ (fun n n' => n' = { n with id := n'.id }) nodes (rekey fresh position taken nodes).2 := by
  induction nodes generalizing position taken with
  | nil => exact .nil
  | cons n nodes ih =>
    rw [rekey]
    split
    · exact .cons rfl (ih ..)
    · exact .cons rfl (ih ..)

/-- Nodes get different identifiers, none of which is taken. -/
theorem rekey_spec {fresh : Nat → String} (hne : ∀ i, fresh i ≠ "") (hinj : Function.Injective fresh)
    (position : Nat) (taken : List String) (nodes : List (Node Float32))
    (habsent : ∀ n ∈ nodes, ∀ i, n.id ≠ fresh i) (htaken : ∀ i, position ≤ i → fresh i ∉ taken) :
    (∀ n ∈ (rekey fresh position taken nodes).2, n.id ≠ "" ∧ n.id ∉ taken) ∧
      ((rekey fresh position taken nodes).2.map (·.id)).Nodup := by
  induction nodes generalizing position taken with
  | nil => exact ⟨by simp [rekey], by simp [rekey]⟩
  | cons n nodes ih =>
    -- whichever identifier the node gets, it is taken for the nodes after it
    have hstep : ∀ id, id ≠ "" → id ∉ taken → (∀ i, position + 1 ≤ i → fresh i ≠ id) →
        ∀ nodes', nodes' = { n with id } :: (rekey fresh (position + 1) (id :: taken) nodes).2 →
        (∀ n ∈ nodes', n.id ≠ "" ∧ n.id ∉ taken) ∧ (nodes'.map (·.id)).Nodup := by
      rintro id hid hfree hlater nodes' rfl
      have htaken' : ∀ i, position + 1 ≤ i → fresh i ∉ id :: taken := by
        intro i hi hmem
        rcases List.mem_cons.1 hmem with heq | hmem
        · exact hlater i hi heq
        · exact htaken i (by omega) hmem
      obtain ⟨hids, hnodup⟩ := ih (position + 1) (id :: taken) (fun m hm => habsent m (by simp [hm])) htaken'
      refine ⟨?_, ?_⟩
      · intro m hm
        rcases List.mem_cons.1 hm with rfl | hm
        · exact ⟨hid, hfree⟩
        · exact ⟨(hids m hm).1, fun hmem => (hids m hm).2 (by simp [hmem])⟩
      · rw [List.map_cons, List.nodup_cons]
        refine ⟨?_, hnodup⟩
        intro hmem
        obtain ⟨m, hm, hmid⟩ := List.mem_map.1 hmem
        exact (hids m hm).2 (by simp [hmid])
    by_cases hbad : (n.id.isEmpty || taken.contains n.id) = true
    · apply hstep (fresh position) (hne position) (htaken position (Nat.le_refl _))
      · intro i hi heq
        have := hinj heq
        omega
      · rw [rekey, if_pos hbad]
    · rw [Bool.not_eq_true, Bool.or_eq_false_iff] at hbad
      apply hstep n.id
      · simpa using hbad.1
      · simpa using hbad.2
      · exact fun i _ heq => habsent n (by simp) i heq.symm
      · rw [rekey, hbad.1, hbad.2]
        rfl

/-! ### Graphs that were read -/

/-- The nodes of a graph that was read are those of its records, up to their identifiers. -/
private theorem exists_record {fresh : Nat → String} {rs : List Record} {n : Node Float32}
    (hn : n ∈ (rekey fresh 0 [] (rs.map nodeOfRecord)).2) : ∃ r, n = { nodeOfRecord r with id := n.id } := by
  have hsame := rekey_forall₂ fresh 0 [] (rs.map nodeOfRecord)
  rw [List.forall₂_iff_get] at hsame
  obtain ⟨i, hi, rfl⟩ := List.mem_iff_getElem.1 hn
  have hlt : i < (rs.map nodeOfRecord).length := hsame.1 ▸ hi
  refine ⟨rs.get ⟨i, by simpa using hlt⟩, ?_⟩
  simpa using hsame.2 i hlt hi

/-- The nodes of records with identifiers of their own, each with the list of the record. -/
def keyed (fresh : Nat → String) (rs : List Record) : List (Node Float32 × List String) :=
  (rekey fresh 0 [] (rs.map nodeOfRecord)).2.zip (rs.map (listField · "connectionIds"))

theorem length_rekey (fresh : Nat → String) (rs : List Record) :
    (rekey fresh 0 [] (rs.map nodeOfRecord)).2.length = rs.length := by
  rw [← (rekey_forall₂ fresh 0 [] (rs.map nodeOfRecord)).length_eq, List.length_map]

theorem map_fst_keyed (fresh : Nat → String) (rs : List Record) :
    (keyed fresh rs).map (·.1) = (rekey fresh 0 [] (rs.map nodeOfRecord)).2 :=
  List.map_fst_zip (Nat.le_of_eq (by rw [length_rekey, List.length_map]))

theorem map_snd_keyed (fresh : Nat → String) (rs : List Record) :
    (keyed fresh rs).map (·.2) = rs.map (listField · "connectionIds") :=
  List.map_snd_zip (Nat.le_of_eq (by rw [length_rekey, List.length_map]))

/-- A graph that is read has one node for each record, connected as the lists of the records say. -/
theorem ofRecords_eq_linkAll (fresh : Nat → String) (skipped : Nat) {rs : List Record} (hne : rs ≠ []) :
    ofRecords fresh skipped rs =
      .ok (linkAll (keyed fresh rs),
        ⟨skipped, (lostIds (keyed fresh rs)).length, (rekey fresh 0 [] (rs.map nodeOfRecord)).1⟩) := by
  have hbare : ∀ p ∈ keyed fresh rs, p.1.targets = [] := by
    intro p hp
    have hmem : p.1 ∈ (rekey fresh 0 [] (rs.map nodeOfRecord)).2 := map_fst_keyed fresh rs ▸ List.mem_map_of_mem hp
    obtain ⟨r, hr⟩ := exists_record hmem
    obtain ⟨-, -, -, htargets⟩ := nodeOfRecord_fields r
    rw [hr, htargets]
  exact ofRecords_eq skipped hne (Prod.ext rfl (map_fst_keyed fresh rs).symm) (map_snd_keyed fresh rs) hbare

private theorem exists_linkAll {fresh : Nat → String} {text : List Char} {g : Graph Float32} {report : Report}
    (h : decodeChars fresh text = .ok (g, report)) :
    ∃ ps, g = linkAll ps ∧ ps ≠ [] ∧
      ps.map (·.1) = (rekey fresh 0 [] ((records text).2.map nodeOfRecord)).2 := by
  have hnonempty : (records text).2 ≠ [] := by
    intro hempty
    have herror : ofRecords fresh (records text).1 (records text).2 = .error .noNodes := by
      rw [hempty]
      rfl
    cases h.symm.trans herror
  have hsame := h.symm.trans (ofRecords_eq_linkAll fresh (records text).1 hnonempty)
  refine ⟨keyed fresh (records text).2, (Prod.mk.inj (Except.ok.inj hsame)).1, ?_, map_fst_keyed ..⟩
  intro hempty
  have hzero := length_rekey fresh (records text).2
  rw [← map_fst_keyed, hempty] at hzero
  exact hnonempty (List.length_eq_zero_iff.1 hzero.symm)

/-- The nodes of a graph that was read have different identifiers if no fresh one stands in the text, and all else
that makes the graph `Storable`. -/
theorem storable_of_decodeChars {fresh : Nat → String} (hne : ∀ i, fresh i ≠ "") (hinj : Function.Injective fresh)
    {text : List Char} (habsent : ∀ r ∈ (records text).2, ∀ i, stringField r "id" ≠ some (fresh i))
    {g : Graph Float32} {report : Report} (hdecode : decodeChars fresh text = .ok (g, report))
    (hread : ∀ n ∈ g.nodes, ∀ x ∈ [n.position.x, n.position.y], x.isFinite = true → IsReadBack x) :
    Storable g ∧ g.nodes ≠ [] := by
  obtain ⟨ps, rfl, hps, hnodes⟩ := exists_linkAll hdecode
  have hrecord : ∀ n ∈ (linkAll ps).nodes, ∃ r, n = { nodeOfRecord r with id := n.id, targets := n.targets } := by
    intro n hn
    obtain ⟨⟨p, i⟩, hp, rfl⟩ := List.mem_map.1 hn
    have hmem : p.1 ∈ ps.map (·.1) := List.mem_map_of_mem (List.fst_mem_of_mem_zipIdx hp)
    rw [hnodes] at hmem
    obtain ⟨r, hr⟩ := exists_record hmem
    refine ⟨r, ?_⟩
    dsimp only
    rw [hr]
  have habsent' : ∀ n ∈ (records text).2.map nodeOfRecord, ∀ i, n.id ≠ fresh i := by
    intro n hn i hsame
    obtain ⟨r, hr, rfl⟩ := List.mem_map.1 hn
    rw [id_nodeOfRecord] at hsame
    cases hid : stringField r "id" with
    | none => exact hne i (by rw [← hsame, hid]; rfl)
    | some id => exact habsent r hr i (by rw [← hsame, hid]; rfl)
  obtain ⟨hids, hnodup⟩ := rekey_spec hne hinj 0 [] _ habsent' (by simp)
  rw [← hnodes] at hids hnodup
  have hfinite : ∀ n ∈ (linkAll ps).nodes, n.position.x.isFinite = true ∧ n.position.y.isFinite = true := by
    intro n hn
    obtain ⟨r, hr⟩ := hrecord n hn
    rw [hr]
    dsimp only
    rw [(nodeOfRecord_fields r).2.2.1]
    exact ⟨isFinite_coordinateField r "x", isFinite_coordinateField r "y"⟩
  refine ⟨⟨linked_linkAll ps, ?_, ?_, ?_, ?_, hfinite, ?_⟩, by simpa [linkAll] using hps⟩
  · intro n hn
    obtain ⟨r, hr⟩ := hrecord n hn
    rw [hr]
    exact (built_nodeOfRecord r).inputLabels
  · intro n hn
    have hid : n.id ∈ (linkAll ps).nodes.map (·.id) := List.mem_map_of_mem hn
    rw [ids_linkAll] at hid
    obtain ⟨p, hp, hpid⟩ := List.mem_map.1 hid
    rw [← hpid]
    exact (hids p.1 (List.mem_map_of_mem hp)).1
  · rw [ids_linkAll]
    rw [List.map_map] at hnodup
    exact hnodup
  · intro n hn
    obtain ⟨r, hr⟩ := hrecord n hn
    rw [hr]
    exact exists_kind_nodeOfRecord r
  · intro n hn
    exact ⟨hread n hn _ (by simp) (hfinite n hn).1, hread n hn _ (by simp) (hfinite n hn).2⟩

/-- What is read from a text can be read from its own document, with nothing to skip, to drop or to rename, and then
the document stays the same. -/
theorem decode_settles (fresh fresh' : Nat → String) (hne : ∀ i, fresh i ≠ "") (hinj : Function.Injective fresh)
    (text : String) (habsent : ∀ r ∈ (records text.toList).2, ∀ i, stringField r "id" ≠ some (fresh i))
    (g : Graph Float32) (report : Report) (hdecode : decode fresh text = .ok (g, report))
    (hread : ∀ n ∈ g.nodes, ∀ x ∈ [n.position.x, n.position.y], x.isFinite = true → IsReadBack x) :
    g.nodes ≠ [] ∧ (∀ n ∈ g.nodes, n.id ≠ "") ∧ (g.nodes.map (·.id)).Nodup ∧
      (∀ n ∈ g.nodes, n.position.x.isFinite = true ∧ n.position.y.isFinite = true) ∧
      ∃ g', decode fresh' (encode g) = .ok (g', ⟨0, 0, 0⟩) ∧ List.Forall₂ SameRecord g.nodes g'.nodes ∧
        encode g' = encode g := by
  obtain ⟨hstorable, hsome⟩ := storable_of_decodeChars hne hinj habsent hdecode hread
  have hsame := forall₂_relinked g.nodes
  refine ⟨hsome, hstorable.named, hstorable.nodup, hstorable.finite, ⟨g.nodes.map relinked⟩, ?_, hsame, ?_⟩
  · rw [decode, encode, String.toList_ofList]
    exact decodeChars_encodeChars hstorable hsome fresh'
  · exact encode_congr hsame

/-- A document that needs every repair. -/
def rough : String :=
  "\x7b\"id\":\"a\",\"type\":\" Event\",\"connectionIds\":[\"a\",\"b\",\"b\",\"c\"]\x7d\nlost\n" ++
    "[\x7b\"id\":\"a\",\"label\":\"Wait\",\"x\":\"1.5\",\"inputValues\":[1,null,2]\x7d,\n\x7b\"id\":\"b\"\x7d]"

/-- Identifiers that do not stand in it. -/
def marks (i : Nat) : String := String.ofList (List.replicate (i + 1) '#')

private theorem injective_marks : Function.Injective marks := by
  intro i j h
  have hlength := congrArg List.length (String.ofList_injective h)
  simpa using hlength

theorem decode_settles_rough :
    ∃ g g', decode marks rough = .ok (g, ⟨1, 2, 1⟩) ∧ decode marks (encode g) = .ok (g', ⟨0, 0, 0⟩) ∧
      List.Forall₂ SameRecord g.nodes g'.nodes ∧ encode g' = encode g := by
  have hids : (records rough.toList).2.map (stringField · "id") = [some "a", some "a", some "b"] := by decide +kernel
  have habsent : ∀ r ∈ (records rough.toList).2, ∀ i, stringField r "id" ≠ some (marks i) := by
    intro r hr i hid
    have hmem : stringField r "id" ∈ (records rough.toList).2.map (stringField · "id") := List.mem_map_of_mem hr
    rw [hids, hid] at hmem
    simp [marks, String.ext_iff, List.replicate_succ] at hmem
  have hreport : (decode marks rough).toOption.map (·.2) = some ⟨1, 2, 1⟩ := by decide +kernel
  have hreadBack : ((decode marks rough).toOption.map fun p =>
      decide (∀ n ∈ p.1.nodes, ∀ x ∈ [n.position.x, n.position.y], x.isFinite = true → IsReadBack x)) =
        some true := by
    decide +kernel
  cases hdecode : decode marks rough with
  | error e =>
    rw [hdecode] at hreport
    cases hreport
  | ok p =>
    rw [hdecode] at hreport hreadBack
    obtain ⟨-, -, -, -, g', hg', hsame, htext⟩ :=
      decode_settles marks marks (fun i => by simp [marks, String.ext_iff])
      injective_marks rough habsent p.1 p.2 hdecode (of_decide_eq_true (Option.some.inj hreadBack))
    refine ⟨p.1, g', ?_, hg', hsame, htext⟩
    rw [← Option.some.inj hreport]

end ScriptGraph.Document
