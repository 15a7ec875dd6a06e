import ScriptGraph.Proofs.DocumentRepair

/-!
# The choice of fresh identifiers does not matter

Reading gives fresh identifiers to nodes that need one.  With others in their place the same graph comes out, renamed:
`decodeChars_rename`.  It holds of every text in which none of the identifiers stands, so that no node has one already
and no connection leads to one.
-/

namespace ScriptGraph

/-- The node with its identifier changed. -/
def Node.rename (ρ : String → String) (n : Node Float32) : Node Float32 := { n with id := ρ n.id }

/-- The graph with the identifiers of its nodes changed. -/
def Graph.rename (ρ : String → String) (g : Graph Float32) : Graph Float32 := ⟨g.nodes.map (·.rename ρ)⟩

namespace Document

/-- A change of identifiers that takes fresh ones to others and leaves the rest as they are. -/
structure IsRenaming (fresh fresh' : Nat → String) (ρ : String → String) : Prop where
  takes : ∀ i, ρ (fresh i) = fresh' i
  leaves : ∀ id, (∀ i, id ≠ fresh i) → ρ id = id

theorem exists_isRenaming {fresh : Nat → String} (h : Function.Injective fresh) (fresh' : Nat → String) :
    ∃ ρ, IsRenaming fresh fresh' ρ := by
  classical
  refine ⟨fun id => if hid : ∃ i, fresh i = id then fresh' hid.choose else id, ?_, ?_⟩
  · intro i
    have hid : ∃ j, fresh j = fresh i := ⟨i, rfl⟩
    rw [dif_pos hid, h hid.choose_spec]
  · intro id hother
    rw [dif_neg]
    rintro ⟨i, rfl⟩
    exact hother i rfl

/-- No fresh identifier stands in some records, neither as one of theirs nor as that of a node after them. -/
def Avoids (fresh : Nat → String) (rs : List Record) : Prop :=
  ∀ r ∈ rs, ∀ i, stringField r "id" ≠ some (fresh i) ∧ fresh i ∉ listField r "connectionIds"

/-- Only the identifiers of its nodes stand in the document of a graph. -/
theorem avoids_encodeChars {fresh : Nat → String} {g : Graph Float32}
    (hread : ∀ n ∈ g.nodes, IsReadBack n.position.x ∧ IsReadBack n.position.y)
    (hids : ∀ n ∈ g.nodes, ∀ i, n.id ≠ fresh i) : Avoids fresh (records (encodeChars g)).2 := by
  by_cases hne : g.nodes = []
  · intro r hr
    rw [encodeChars, hne] at hr
    exact absurd hr List.not_mem_nil
  · intro r hr i
    rw [records_encodeChars hne hread] at hr
    obtain ⟨n, hn, rfl⟩ := List.mem_map.1 hr
    rw [stringField_id, listField_connectionIds]
    refine ⟨fun hsame => hids n hn i (Option.some.inj hsame), fun hmem => ?_⟩
    obtain ⟨t, -, ht⟩ := List.mem_filterMap.1 hmem
    obtain ⟨m, hm, hid⟩ := Option.map_eq_some_iff.1 ht
    exact hids m (List.mem_of_getElem? hm) i hid

section Renaming

variable {fresh fresh' : Nat → String} {ρ : String → String}

/-- An identifier that is not fresh is no image of another one. -/
theorem IsRenaming.eq_iff (hρ : IsRenaming fresh fresh' ρ) {id : String}
    (hid : ∀ i, id ≠ fresh i ∧ id ≠ fresh' i) (x : String) : ρ x = id ↔ x = id := by
  by_cases hx : ∃ i, x = fresh i
  · obtain ⟨i, rfl⟩ := hx
    rw [hρ.takes]
    exact ⟨fun h => absurd h.symm (hid i).2, fun h => absurd h.symm (hid i).1⟩
  · rw [hρ.leaves x (not_exists.1 hx)]

/-- Nodes get fresh identifiers at the same positions. -/
theorem rekey_rename (hρ : IsRenaming fresh fresh' ρ) (position : Nat) (taken : List String)
    (nodes : List (Node Float32)) (habsent : ∀ n ∈ nodes, n.id ≠ "" → ∀ i, n.id ≠ fresh i ∧ n.id ≠ fresh' i) :
    rekey fresh' position (taken.map ρ) nodes =
      ((rekey fresh position taken nodes).1, (rekey fresh position taken nodes).2.map (·.rename ρ)) := by
  induction nodes generalizing position taken with
  | nil => rfl
  | cons n nodes ih =>
    have hrest : ∀ n ∈ nodes, n.id ≠ "" → ∀ i, n.id ≠ fresh i ∧ n.id ≠ fresh' i :=
      fun m hm => habsent m (List.mem_cons_of_mem _ hm)
    have htaken : (n.id.isEmpty || (taken.map ρ).contains n.id) = (n.id.isEmpty || taken.contains n.id) := by
      cases hempty : n.id.isEmpty with
      | true => rw [Bool.true_or, Bool.true_or]
      | false =>
        have hid := habsent n (List.mem_cons_self ..) (by simpa using hempty)
        rw [Bool.eq_iff_iff]
        simp [hρ.eq_iff hid]
    by_cases hbad : (n.id.isEmpty || taken.contains n.id) = true
    · have hnext := ih (position + 1) (fresh position :: taken) hrest
      rw [List.map_cons, hρ.takes] at hnext
      rw [rekey, rekey, htaken, if_pos hbad, if_pos hbad]
      dsimp only
      rw [hnext]
      simp [Node.rename, hρ.takes]
    · have hne : n.id ≠ "" := by
        rintro hid
        exact hbad (by simp [hid])
      have hsame : ρ n.id = n.id := hρ.leaves _ fun i => (habsent n (List.mem_cons_self ..) hne i).1
      have hnext := ih (position + 1) (n.id :: taken) hrest
      rw [List.map_cons, hsame] at hnext
      rw [rekey, rekey, htaken, if_neg hbad, if_neg hbad]
      dsimp only
      rw [hnext]
      simp [Node.rename, hsame]

/-- Identifiers that are not fresh lead to the same nodes. -/
theorem indexOf?_rename (hρ : IsRenaming fresh fresh' ρ) (g : Graph Float32) {id : String}
    (hid : ∀ i, id ≠ fresh i ∧ id ≠ fresh' i) : (g.rename ρ).indexOf? id = g.indexOf? id := by
  rw [Graph.indexOf?, Graph.indexOf?, Graph.rename, List.findIdx?_map]
  congr 1
  funext n
  rw [Bool.eq_iff_iff]
  simp [Node.rename, hρ.eq_iff hid]

/-- Connecting by identifiers that are not fresh connects the same nodes. -/
theorem linkAll_rename (hρ : IsRenaming fresh fresh' ρ) (ps : List (Node Float32 × List String))
    (hids : ∀ p ∈ ps, ∀ id ∈ p.2, ∀ i, id ≠ fresh i ∧ id ≠ fresh' i) :
    linkAll (ps.map fun p => (p.1.rename ρ, p.2)) = (linkAll ps).rename ρ ∧
      lostIds (ps.map fun p => (p.1.rename ρ, p.2)) = lostIds ps := by
  have hbare : bare (ps.map fun p => (p.1.rename ρ, p.2)) = (bare ps).rename ρ := by
    simp [bare, Graph.rename, Function.comp_def]
  have hindex : ∀ p ∈ ps.zipIdx, ∀ id ∈ p.1.2, ((bare ps).rename ρ).indexOf? id = (bare ps).indexOf? id :=
    fun p hp id hid => indexOf?_rename hρ _ (hids p.1 (List.fst_mem_of_mem_zipIdx hp) id hid)
  refine ⟨?_, ?_⟩
  · rw [linkAll, linkAll, Graph.rename, hbare, List.zipIdx_map, List.map_map, List.map_map]
    refine congrArg Graph.mk (List.map_congr_left ?_)
    intro p hp
    have hresolve : resolve ((bare ps).rename ρ) p.2 p.1.2 = resolve (bare ps) p.2 p.1.2 := by
      rw [resolve, resolve, List.filterMap_congr (hindex p hp)]
    exact congrArg (fun targets => ({ p.1.1.rename ρ with targets } : Node Float32)) hresolve
  · rw [lostIds, lostIds, hbare, List.zipIdx_map, List.flatMap_map]
    refine List.flatMap_congr ?_
    intro p hp
    refine List.filter_congr fun id hid => ?_
    exact congrArg (Option.all (· == p.2)) (hindex p hp id hid)

private theorem Avoids.id_ne {rs : List Record} (h : Avoids fresh rs) {n : Node Float32}
    (hn : n ∈ rs.map nodeOfRecord) (hne : n.id ≠ "") (i : Nat) : n.id ≠ fresh i := by
  obtain ⟨r, hr, rfl⟩ := List.mem_map.1 hn
  rw [id_nodeOfRecord] at hne ⊢
  cases hid : stringField r "id" with
  | none => exact absurd (by rw [hid]; rfl) hne
  | some id => exact fun hsame => (h r hr i).1 (hid.trans (congrArg some hsame))

theorem keyed_rename (hρ : IsRenaming fresh fresh' ρ) {rs : List Record} (h : Avoids fresh rs)
    (h' : Avoids fresh' rs) :
    keyed fresh' rs = (keyed fresh rs).map (fun p => (p.1.rename ρ, p.2)) ∧
      (rekey fresh' 0 [] (rs.map nodeOfRecord)).1 = (rekey fresh 0 [] (rs.map nodeOfRecord)).1 := by
  have hrekey := rekey_rename hρ 0 [] (rs.map nodeOfRecord) fun n hn hne i => ⟨h.id_ne hn hne i, h'.id_ne hn hne i⟩
  rw [List.map_nil] at hrekey
  rw [keyed, keyed, hrekey, List.zip_map_left]
  exact ⟨rfl, rfl⟩

/-- A text is read as the same graph with any fresh identifiers that do not stand in it, up to their renaming. -/
theorem decodeChars_rename (hρ : IsRenaming fresh fresh' ρ) {text : List Char}
    (h : Avoids fresh (records text).2) (h' : Avoids fresh' (records text).2) :
    decodeChars fresh' text = (decodeChars fresh text).map fun p => (p.1.rename ρ, p.2) := by
  by_cases hne : (records text).2 = []
  · simp only [decodeChars, ofRecords, hne]
    rfl
  · obtain ⟨hkeyed, hcount⟩ := keyed_rename hρ h h'
    have hids : ∀ p ∈ keyed fresh (records text).2, ∀ id ∈ p.2, ∀ i, id ≠ fresh i ∧ id ≠ fresh' i := by
      intro p hp id hid i
      have hlist : p.2 ∈ (records text).2.map (listField · "connectionIds") :=
        map_snd_keyed fresh (records text).2 ▸ List.mem_map_of_mem hp
      obtain ⟨r, hr, hlist⟩ := List.mem_map.1 hlist
      rw [← hlist] at hid
      exact ⟨fun hsame => (h r hr i).2 (hsame ▸ hid), fun hsame => (h' r hr i).2 (hsame ▸ hid)⟩
    obtain ⟨hlink, hlost⟩ := linkAll_rename hρ _ hids
    simp only [decodeChars]
    rw [ofRecords_eq_linkAll fresh' _ hne, ofRecords_eq_linkAll fresh _ hne, hkeyed, hcount, hlink, hlost]
    rfl

end Renaming

end Document

end ScriptGraph
