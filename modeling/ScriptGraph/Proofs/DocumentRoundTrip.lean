import Mathlib.Data.List.Forall2
import ScriptGraph.Proofs.DocumentLines
import ScriptGraph.Proofs.DocumentLinks
import ScriptGraph.Proofs.Subgraphs

/-!
# Documents are read as they were written

A graph that was built, with identifiers that tell its nodes apart, is found again in its document
(`decode_encode`).  The record of a node is read field by field (`nodeOfRecord_recordOf`), which gives all nodes
without their connections (`unlinked`).  The second pass then finds every identifier at the position that it came
from, so it makes the connections of one node after the other, each list in its order (`foldl_connectAll`).
-/

namespace ScriptGraph

/-! ### Colors -/

namespace Color

theorem byteOfChannel_le (x : Float32) : byteOfChannel x ≤ 255 := by
  unfold byteOfChannel
  dsimp only
  split
  · exact Nat.min_le_right ..
  · exact Nat.zero_le _

theorem byteOfChannel_channelOfByte : ∀ n < 256, byteOfChannel (channelOfByte n) = n := by
  decide +kernel

private theorem digitChar_spec {n : Nat} (h : n < 16) :
    Text.hexValue? (Nat.digitChar n) = some n ∧ Text.isBlank (Nat.digitChar n) = false ∧
      Nat.digitChar n ≠ '+' ∧ Nat.digitChar n ≠ '#' :=
  (by decide : ∀ n < 16, Text.hexValue? (Nat.digitChar n) = some n ∧ Text.isBlank (Nat.digitChar n) = false ∧
    Nat.digitChar n ≠ '+' ∧ Nat.digitChar n ≠ '#') n h

private theorem byte?_hexByte {n : Nat} (h : n ≤ 255) :
    byte? (Nat.digitChar (n / 16)) (Nat.digitChar (n % 16)) = some n := by
  obtain ⟨hhigh, -, hplus, -⟩ := digitChar_spec (n := n / 16) (by omega)
  obtain ⟨hlow, -⟩ := digitChar_spec (n := n % 16) (by omega)
  have hsum : 16 * (n / 16) + n % 16 = n := by omega
  simp [byte?, hplus, hhigh, hlow, hsum]

/-- The color that the digits of a color stand for. -/
def rounded (c : Color) : Color :=
  ⟨channelOfByte (byteOfChannel c.r), channelOfByte (byteOfChannel c.g), channelOfByte (byteOfChannel c.b),
    channelOfByte (byteOfChannel c.a)⟩

theorem hex_rounded (c : Color) : c.rounded.hex = c.hex := by
  have hbyte (x : Float32) : byteOfChannel (channelOfByte (byteOfChannel x)) = byteOfChannel x :=
    byteOfChannel_channelOfByte _ (Nat.lt_succ_of_le (byteOfChannel_le x))
  simp only [hex, hexChars, rounded, List.flatMap_cons, List.flatMap_nil, hbyte]

theorem ofHex?_hex (c : Color) : ofHex? c.hex = some c.rounded := by
  have hred := byteOfChannel_le c.r
  have halpha := byteOfChannel_le c.a
  obtain ⟨-, hfirst, -, hhash⟩ := digitChar_spec (n := byteOfChannel c.r / 16) (by omega)
  obtain ⟨-, hlast, -, -⟩ := digitChar_spec (n := byteOfChannel c.a % 16) (by omega)
  have htrim : Text.trimChars c.hexChars = c.hexChars := by
    have := Text.trimChars_of_ends hfirst hlast
      ([Nat.digitChar (byteOfChannel c.r % 16)] ++ Text.hexByte (byteOfChannel c.g) ++
        Text.hexByte (byteOfChannel c.b) ++ [Nat.digitChar (byteOfChannel c.a / 16)])
    simpa [hexChars, Text.hexByte] using this
  have hdigits : c.hexChars.dropWhile (· == '#') = c.hexChars := by
    simp [hexChars, Text.hexByte, hhash]
  unfold ofHex? hex
  rw [String.toList_ofList, htrim, hdigits]
  simp [hexChars, Text.hexByte, ofDigits?, byte?_hexByte (byteOfChannel_le _), rounded]

end Color

/-! ### Kinds and inputs -/

/-- A kind that has a name is the kind with that name. -/
theorem Kind.ofName_name {k : Kind} (h : ∃ s, k = ofName s) : ofName k.name = k := by
  obtain ⟨s, rfl⟩ := h
  have hcases : ofName s = .event ∨ ofName s = .action ∨ ofName s = .logic ∨ ofName s = .value ∨ ofName s = .mod ∨
      ofName s = .custom s := by
    unfold ofName
    split <;> simp
  rcases hcases with h | h | h | h | h | h <;> rw [h] <;> first | rfl | exact h

/-- Inputs are given back by their values and the labels that belong there. -/
theorem Node.overlaid_values {schema inputs : List Input} (h : inputs.map (·.label) = schema.map (·.label)) :
    overlaid schema (inputs.map (·.value)) = inputs := by
  induction schema generalizing inputs with
  | nil =>
    rw [List.map_nil, List.map_eq_nil_iff] at h
    rw [h]
    rfl
  | cons input schema ih =>
    cases inputs with
    | nil => simp at h
    | cons input' inputs =>
      simp only [List.map_cons, List.cons.injEq] at h
      simp only [List.map_cons, overlaid, ih h.2, ← h.1]

namespace Document

/-! ### The record of a node -/

/-- What is written for a single-precision number is read back as the same number. -/
def IsReadBack (x : Float32) : Prop :=
  (Json.Number.ofChars? (Json.Number.singleText x).toList).map (fun n => singleOfDouble n.toDouble) = some x

instance (x : Float32) : Decidable (IsReadBack x) := inferInstanceAs (Decidable (_ = _))

/-- The number that is read for a coordinate. -/
private def coordinate (x : Float32) : Json.Number :=
  (Json.Number.ofChars? (Json.Number.singleText x).toList).getD (.int 0)

private theorem coordinate_spec {x : Float32} (h : IsReadBack x) :
    Json.Number.ofChars? (Json.Number.singleText x).toList = some (coordinate x) ∧
      singleOfDouble (coordinate x).toDouble = x := by
  obtain ⟨n, hn, hx⟩ := Option.map_eq_some_iff.1 h
  simp only [coordinate, hn, Option.getD_some]
  exact ⟨trivial, hx⟩

/-- The fields of a node with their written forms. -/
private def fieldsOf (g : Graph Float32) (n : Node Float32) : List (String × List Char × Json) :=
  let list (texts : List String) : List Char × Json :=
    ('[' :: Json.commaChars (texts.map Json.stringChars) ++ [']'], .arr (texts.map .str))
  [("id", Json.stringChars n.id, .str n.id),
    ("type", Json.stringChars n.kind.name, .str n.kind.name),
    ("label", Json.stringChars n.label, .str n.label),
    ("x", (Json.Number.singleText n.position.x).toList, .num (coordinate n.position.x)),
    ("y", (Json.Number.singleText n.position.y).toList, .num (coordinate n.position.y)),
    ("value", Json.stringChars n.summary, .str n.summary),
    ("color", Json.stringChars n.color.hex, .str n.color.hex),
    ("inputValues", list (n.inputs.map (·.value))),
    ("connectionIds", list (targetIds g n))]

/-- The record that a node is read as. -/
def recordOf (g : Graph Float32) (n : Node Float32) : Record := Json.insertFields (fieldsOf g n) []

private theorem recordChars_eq (g : Graph Float32) (n : Node Float32) :
    recordChars g n =
      '{' :: Json.commaChars ((fieldsOf g n).map fun f => Json.stringChars f.1 ++ ':' :: f.2.1) ++ ['}'] := rfl

private theorem reads_strings (texts : List String) :
    Json.Reads ('[' :: Json.commaChars (texts.map Json.stringChars) ++ [']']) (.arr (texts.map .str)) 1 := by
  have hitems : ∀ p ∈ texts.map fun t => (Json.stringChars t, Json.str t), Json.Reads p.1 p.2 0 := by
    intro p hp
    obtain ⟨t, -, rfl⟩ := List.mem_map.1 hp
    exact Json.reads_string t
  simpa only [List.map_map, Function.comp_def] using Json.reads_array _ hitems

private theorem reads_fieldsOf (g : Graph Float32) {n : Node Float32} (hx : IsReadBack n.position.x)
    (hy : IsReadBack n.position.y) : ∀ f ∈ fieldsOf g n, Json.Reads f.2.1 f.2.2 1 := by
  have hstring (s : String) := (Json.reads_string s).mono (Nat.zero_le 1)
  have hnumber {x : Float32} (h : IsReadBack x) :=
    (Json.reads_number (coordinate_spec h).1).mono (Nat.zero_le 1)
  simp only [fieldsOf, List.forall_mem_cons]
  exact ⟨hstring _, hstring _, hstring _, hnumber hx, hnumber hy, hstring _, hstring _, reads_strings _,
    reads_strings _, by simp⟩

theorem parse?_recordChars (g : Graph Float32) {n : Node Float32} (hx : IsReadBack n.position.x)
    (hy : IsReadBack n.position.y) : Json.parse? (recordChars g n) = some (.obj (recordOf g n)) := by
  rw [recordChars_eq]
  exact (Json.reads_object (fieldsOf g n) (reads_fieldsOf g hx hy)).parse (by decide)

theorem isRecordLine_recordChars (g : Graph Float32) {n : Node Float32} (hx : IsReadBack n.position.x)
    (hy : IsReadBack n.position.y) : IsRecordLine (recordChars g n) := by
  have hlist (texts : List String) :
      ∀ c ∈ '[' :: Json.commaChars (texts.map Json.stringChars) ++ [']'], 32 ≤ c.toNat := by
    have htexts : ∀ text ∈ texts.map Json.stringChars, ∀ c ∈ text, 32 ≤ c.toNat := by
      intro t ht
      obtain ⟨s, -, rfl⟩ := List.mem_map.1 ht
      exact Json.plain_stringChars s
    intro c hc
    simp only [List.cons_append, List.mem_cons, List.mem_append, List.not_mem_nil, or_false] at hc
    rcases hc with rfl | hc | rfl
    · decide
    · exact Json.plain_commaChars htexts c hc
    · decide
  have hnumber {x : Float32} (h : IsReadBack x) : ∀ c ∈ (Json.Number.singleText x).toList, 32 ≤ c.toNat :=
    fun c hc => Json.plain_of_isWordChar ((Json.isWordChar_of_ofChars? (coordinate_spec h).1).2 c hc)
  have hfields : ∀ f ∈ fieldsOf g n, ∀ c ∈ f.2.1, 32 ≤ c.toNat := by
    simp only [fieldsOf, List.forall_mem_cons]
    exact ⟨Json.plain_stringChars _, Json.plain_stringChars _, Json.plain_stringChars _, hnumber hx, hnumber hy,
      Json.plain_stringChars _, Json.plain_stringChars _, hlist _, hlist _, by simp⟩
  have htexts : ∀ text ∈ (fieldsOf g n).map fun f => Json.stringChars f.1 ++ ':' :: f.2.1,
      ∀ c ∈ text, 32 ≤ c.toNat := by
    intro t ht c hc
    obtain ⟨f, hf, rfl⟩ := List.mem_map.1 ht
    simp only [List.mem_append, List.mem_cons] at hc
    rcases hc with hc | rfl | hc
    · exact Json.plain_stringChars _ c hc
    · decide
    · exact hfields f hf c hc
  rw [recordChars_eq]
  refine ⟨⟨_, rfl⟩, ?_⟩
  intro c hc
  simp only [List.cons_append, List.mem_cons, List.mem_append, List.not_mem_nil, or_false] at hc
  rcases hc with rfl | hc | rfl
  · decide
  · exact Json.plain_commaChars htexts c hc
  · decide

/-- The node that a node is read as, before the second pass. -/
def unlinked (n : Node Float32) : Node Float32 :=
  { n with size := Node.defaultSize, color := n.color.rounded, targets := [] }

private theorem field?_recordOf (g : Graph Float32) (n : Node Float32) :
    Json.field? "id" (recordOf g n) = some (.str n.id) ∧
    Json.field? "type" (recordOf g n) = some (.str n.kind.name) ∧
    Json.field? "label" (recordOf g n) = some (.str n.label) ∧
    Json.field? "x" (recordOf g n) = some (.num (coordinate n.position.x)) ∧
    Json.field? "y" (recordOf g n) = some (.num (coordinate n.position.y)) ∧
    Json.field? "value" (recordOf g n) = some (.str n.summary) ∧
    Json.field? "color" (recordOf g n) = some (.str n.color.hex) ∧
    Json.field? "inputValues" (recordOf g n) = some (.arr ((n.inputs.map (·.value)).map .str)) ∧
    Json.field? "connectionIds" (recordOf g n) = some (.arr ((targetIds g n).map .str)) := by
  simp only [recordOf, fieldsOf, Json.insertFields, List.foldl_cons, List.foldl_nil, Json.field?_insertField]
  simp

private theorem map_itemText_str (texts : List String) : (texts.map Json.str).map itemText = texts := by
  rw [List.map_map]
  exact List.map_id' texts

theorem stringField_id (g : Graph Float32) (n : Node Float32) : stringField (recordOf g n) "id" = some n.id := by
  obtain ⟨hid, -⟩ := field?_recordOf g n
  simp only [stringField, hid]

theorem listField_connectionIds (g : Graph Float32) (n : Node Float32) :
    listField (recordOf g n) "connectionIds" = targetIds g n := by
  obtain ⟨-, -, -, -, -, -, -, -, hids⟩ := field?_recordOf g n
  simp only [listField, hids, map_itemText_str]

private theorem coordinateField_of_field? {r : Record} {key : String} {x : Float32}
    (hfield : Json.field? key r = some (.num (coordinate x))) (hread : IsReadBack x) (hfinite : x.isFinite = true) :
    coordinateField r key = x := by
  simp only [coordinateField, hfield, (coordinate_spec hread).2, hfinite, if_true]

/-- A node is read from its record with everything but its connections. -/
theorem nodeOfRecord_recordOf (g : Graph Float32) {n : Node Float32}
    (hinputs : n.inputs.map (·.label) = Node.catalogLabels n.label) (hkind : ∃ s, n.kind = Kind.ofName s)
    (hx : IsReadBack n.position.x) (hy : IsReadBack n.position.y) (hfx : n.position.x.isFinite = true)
    (hfy : n.position.y.isFinite = true) : nodeOfRecord (recordOf g n) = unlinked n := by
  obtain ⟨hid, htype, hlabel, hxfield, hyfield, hvalue, hcolor, hvalues, -⟩ := field?_recordOf g n
  have hlist : listField (recordOf g n) "inputValues" = n.inputs.map (·.value) := by
    simp only [listField, hvalues, map_itemText_str]
  have hoverlaid : Node.overlaid (Template.inputsOf n.label) (n.inputs.map (·.value)) = n.inputs :=
    Node.overlaid_values hinputs
  unfold nodeOfRecord
  simp only [stringField, hid, htype, hlabel, hvalue, hcolor, hlist, Option.map_some, Option.getD_some,
    Option.bind_some, coordinateField_of_field? hxfield hx hfx, coordinateField_of_field? hyfield hy hfy,
    Kind.ofName_name hkind, Color.ofHex?_hex]
  -- without values the inputs stay those of the catalog, and then there are none
  split
  · next hempty =>
    have hnone : n.inputs = [] := by simpa using hempty
    have hschema : Template.inputsOf n.label = [] := by
      rw [hnone, List.map_nil] at hoverlaid
      cases h : Template.inputsOf n.label with
      | nil => rfl
      | cons input inputs => rw [h] at hoverlaid; simp [Node.overlaid] at hoverlaid
    simp only [Node.make, Node.setLabel, Node.refresh, unlinked, hschema, hnone]
  · simp only [Node.make, Node.setLabel, Node.refresh, Node.overlay, unlinked, hoverlaid]

/-! ### The second pass -/

/-- No identifier is replaced if there are no two alike and none is empty. -/
theorem rekey_of_nodup (fresh : Nat → String) (position : Nat) (taken : List String)
    (nodes : List (Node Float32)) (hid : ∀ n ∈ nodes, n.id ≠ "") (hnodup : (nodes.map (·.id)).Nodup)
    (htaken : ∀ n ∈ nodes, n.id ∉ taken) : rekey fresh position taken nodes = (0, nodes) := by
  induction nodes generalizing position taken with
  | nil => rfl
  | cons n nodes ih =>
    rw [List.map_cons, List.nodup_cons] at hnodup
    have hn : (n.id.isEmpty || taken.contains n.id) = false := by
      have h1 := hid n (by simp)
      have h2 := htaken n (by simp)
      rw [Bool.or_eq_false_iff, List.contains_eq_mem, decide_eq_false_iff_not]
      exact ⟨by simpa using h1, h2⟩
    have hrest := ih (position + 1) (n.id :: taken) (fun m hm => hid m (by simp [hm])) hnodup.2 (by
      intro m hm hmem
      rcases List.mem_cons.1 hmem with h | h
      · exact hnodup.1 (h ▸ List.mem_map_of_mem hm)
      · exact htaken m (by simp [hm]) h)
    rw [rekey, hn, if_neg (by simp), hrest]

/-- A node is found by its identifier in every graph with the same identifiers. -/
theorem indexOf?_of_nodup {g h : Graph Float32} (hids : h.nodes.map (·.id) = g.nodes.map (·.id))
    (hnodup : (g.nodes.map (·.id)).Nodup) {i : Nat} {n : Node Float32} (hn : g.nodes[i]? = some n) :
    h.indexOf? n.id = some i := by
  have hmap : ∀ k : Graph Float32, k.indexOf? n.id = (k.nodes.map (·.id)).findIdx? (· == n.id) := by
    intro k
    rw [List.findIdx?_map]
    rfl
  obtain ⟨hi, rfl⟩ := List.getElem?_eq_some_iff.1 hn
  rw [hmap, hids, ← hmap, Graph.indexOf?, List.findIdx?_eq_some_iff_getElem]
  refine ⟨hi, by simp, ?_⟩
  intro j hj
  rw [List.nodup_iff_pairwise_ne, List.pairwise_iff_getElem] at hnodup
  have hne := hnodup j i (by simp; omega) (by simpa using hi) hj
  simpa using hne

/-- The identifiers of kept nodes lead to the ranks of these nodes, and those of other nodes lead nowhere. -/
def Finds (h g : Graph Float32) (kept : Nat → Bool) : Prop :=
  ∀ t m, g.nodes[t]? = some m → h.indexOf? m.id = if kept t then some (Graph.rank kept t) else none

private theorem filterMap_ite (p : Nat → Bool) (f : Nat → Nat) (l : List Nat) :
    (l.filterMap fun a => if p a then some (f a) else none) = (l.filter p).map f := by
  induction l with
  | nil => rfl
  | cons a l ih =>
    rw [List.filterMap_cons, List.filter_cons, ih]
    cases p a <;> rfl

section Finds

variable {g h : Graph Float32} {kept : Nat → Bool} {n : Node Float32} {i : Nat}

private theorem indexOf?_target (hfinds : Finds h g kept) {t : Nat} (ht : t < g.size) :
    ((g.node? t).map (·.id)).bind h.indexOf? = if kept t then some (Graph.rank kept t) else none := by
  have hm : g.nodes[t]? = some g.nodes[t] := List.getElem?_eq_getElem ht
  rw [Graph.node?, hm]
  exact hfinds t _ hm

/-- The identifiers of the targets of a kept node lead to those that are kept. -/
theorem resolve_targetIds (hfinds : Finds h g kept) (hi : i < g.size) (hkept : kept i = true)
    (hlinked : Linked g.size i n.targets) :
    resolve h (Graph.rank kept i) (targetIds g n) = (n.targets.filter kept).map (Graph.rank kept) := by
  have hfound : (targetIds g n).filterMap h.indexOf? = (n.targets.filter kept).map (Graph.rank kept) := by
    rw [targetIds, List.filterMap_filterMap, ← filterMap_ite]
    exact List.filterMap_congr fun t ht => indexOf?_target hfinds (hlinked.lt t ht)
  have hmem : ∀ t ∈ n.targets.filter kept, t ∈ n.targets ∧ kept t = true := fun t ht => List.mem_filter.1 ht
  have hother : ∀ r ∈ (n.targets.filter kept).map (Graph.rank kept), (r != Graph.rank kept i) = true := by
    intro r hr
    obtain ⟨t, ht, rfl⟩ := List.mem_map.1 hr
    obtain ⟨ht, hkt⟩ := hmem t ht
    rw [bne_iff_ne]
    intro hrank
    exact hlinked.ne (Graph.eq_of_rank_eq (hlinked.lt t ht) hi hkt hkept hrank ▸ ht)
  have hnodup : ((n.targets.filter kept).map (Graph.rank kept)).Nodup := by
    rw [List.nodup_iff_pairwise_ne, List.pairwise_map]
    refine (hlinked.nodup.filter kept).imp_of_mem ?_
    intro t u ht hu htu hrank
    exact htu (Graph.eq_of_rank_eq (hlinked.lt t (hmem t ht).1) (hlinked.lt u (hmem u hu).1) (hmem t ht).2
      (hmem u hu).2 hrank)
  rw [resolve, hfound, List.filter_eq_self.2 hother, eraseDups_of_nodup hnodup]

/-- As many identifiers are lost as there are targets that are not kept. -/
theorem countP_isLost_targetIds (hfinds : Finds h g kept) (hi : i < g.size) (hkept : kept i = true)
    (hlinked : Linked g.size i n.targets) :
    (targetIds g n).countP (isLost h (Graph.rank kept i)) = n.targets.countP (!kept ·) := by
  rw [targetIds, List.countP_filterMap]
  apply List.countP_congr
  intro t ht
  obtain ⟨m, hm⟩ : ∃ m, g.nodes[t]? = some m := ⟨_, List.getElem?_eq_getElem (hlinked.lt t ht)⟩
  rw [Graph.node?, hm, Option.map_some, Option.map_some, Option.getD_some, isLost, hfinds t _ hm]
  by_cases hkt : kept t = true
  · have hne : Graph.rank kept t ≠ Graph.rank kept i := by
      intro hrank
      exact hlinked.ne (Graph.eq_of_rank_eq (hlinked.lt t ht) hi hkt hkept hrank ▸ ht)
    simp [hkt, hne]
  · simp [hkt]

end Finds

/-- The node that a node is read as, after the second pass. -/
def relinked (n : Node Float32) : Node Float32 :=
  { n with size := Node.defaultSize, color := n.color.rounded }

/-- The second pass gives one node after the other its connections. -/
private theorem foldl_connectAll {g : Graph Float32} (hnodup : (g.nodes.map (·.id)).Nodup) (hlinked : g.Linked)
    (done todo : List (Node Float32)) (hnodes : done ++ todo = g.nodes) :
    ((todo.map (targetIds g)).zipIdx done.length).foldl (fun state (ids, source) => connectAll source ids state)
      (0, (⟨done.map relinked ++ todo.map unlinked⟩ : Graph Float32)) = (0, ⟨g.nodes.map relinked⟩) := by
  have hids : (done.map relinked ++ (todo.map fun n => (unlinked n, targetIds g n)).map (·.1)).map (·.id) =
      g.nodes.map (·.id) := by
    rw [← hnodes]
    simp [relinked, unlinked, Function.comp_def]
  have hpass := foldl_connectAll_append (todo.map fun n => (unlinked n, targetIds g n)) (done.map relinked) 0 hids
    (by simp [unlinked])
  have hfinds : Finds g g fun _ => true := by
    intro t m hm
    rw [indexOf?_of_nodup rfl hnodup hm, if_pos rfl, Graph.rank_of_all fun _ => rfl]
  have hsource : ∀ p ∈ todo.zipIdx done.length, p.2 < g.size ∧ Linked g.size p.2 p.1.targets := by
    rintro ⟨n, i⟩ hp
    obtain ⟨hle, hn⟩ := List.mk_mem_zipIdx_iff_le_and_getElem?_sub.1 hp
    rw [← List.getElem?_append_right hle, hnodes] at hn
    exact ⟨(List.getElem?_eq_some_iff.1 hn).1, hlinked i n hn⟩
  have hlost : ((todo.zipIdx done.length).flatMap fun p => (targetIds g p.1).filter (isLost g p.2)) = [] := by
    rw [List.flatMap_eq_nil_iff]
    intro p hp
    obtain ⟨hi, hp⟩ := hsource p hp
    have hnone := countP_isLost_targetIds hfinds hi rfl hp
    rw [Graph.rank_of_all fun _ => rfl] at hnone
    simpa [List.countP_eq_length_filter] using hnone
  have hresolve : ((todo.zipIdx done.length).map fun p =>
      { unlinked p.1 with targets := resolve g p.2 (targetIds g p.1) }) = todo.map relinked := by
    rw [← List.zipIdx_map_fst done.length todo, List.map_map, List.zipIdx_map_fst]
    apply List.map_congr_left
    intro p hp
    obtain ⟨hi, hp⟩ := hsource p hp
    have hfound := resolve_targetIds hfinds hi rfl hp
    rw [Graph.rank_of_all fun _ => rfl, List.filter_eq_self.2 fun _ _ => rfl,
      funext (Graph.rank_of_all fun _ => rfl)] at hfound
    rw [hfound, List.map_id']
    rfl
  simp only [List.length_map, List.map_map, List.zipIdx_map, List.flatMap_map, Function.comp_def, Prod.map] at hpass
  simp only [List.zipIdx_map]
  rw [hpass, ← hnodes, List.map_append, ← hresolve]
  exact congrArg (fun lost : List String => (0 + lost.length, _)) hlost

/-! ### The round trip -/

/-- What a node keeps when its graph is written and read. -/
structure SameRecord (m n : Node Float32) : Prop where
  id : m.id = n.id
  kind : m.kind = n.kind
  label : m.label = n.label
  position : m.position = n.position
  inputs : m.inputs = n.inputs
  summary : m.summary = n.summary
  color : m.color.hex = n.color.hex
  targets : m.targets = n.targets

theorem sameRecord_relinked (n : Node Float32) : SameRecord n (relinked n) :=
  ⟨rfl, rfl, rfl, rfl, rfl, rfl, n.color.hex_rounded.symm, rfl⟩

theorem forall₂_relinked (nodes : List (Node Float32)) :
    List.Forall₂ SameRecord nodes (nodes.map relinked) := by
  induction nodes with
  | nil => exact .nil
  | cons n nodes ih => exact .cons (sameRecord_relinked n) ih

/-- The records of a document are those of the nodes of its graph. -/
theorem records_encodeChars {g : Graph Float32} (hne : g.nodes ≠ [])
    (hread : ∀ n ∈ g.nodes, IsReadBack n.position.x ∧ IsReadBack n.position.y) :
    records (encodeChars g) = (0, g.nodes.map (recordOf g)) := by
  have hline : ∀ p ∈ g.nodes.map fun n => (recordChars g n, recordOf g n), IsRecordLine p.1 := by
    intro p hp
    obtain ⟨n, hn, rfl⟩ := List.mem_map.1 hp
    exact isRecordLine_recordChars g (hread n hn).1 (hread n hn).2
  have hparse : ∀ p ∈ g.nodes.map fun n => (recordChars g n, recordOf g n), Json.parse? p.1 = some (.obj p.2) := by
    intro p hp
    obtain ⟨n, hn, rfl⟩ := List.mem_map.1 hp
    dsimp only
    rw [parse?_recordChars g (hread n hn).1 (hread n hn).2]
  have hrecords := records_flatMap (by simpa using hne) hline hparse
  simp only [List.flatMap_map, List.map_map, Function.comp_def] at hrecords
  rw [encodeChars, hrecords]

/-- A graph that was built, whose nodes have different identifiers, is read from its document with all nodes and all
connections in their order, and nothing is skipped, dropped or given a fresh identifier.  Of the reading of numbers it
is assumed that what is written for a finite coordinate is read back as the same one. -/
theorem decode_encode (fresh : Nat → String) (g : Graph Float32) (hbuilt : g.Built) (hne : g.nodes ≠ [])
    (hid : ∀ n ∈ g.nodes, n.id ≠ "") (hnodup : (g.nodes.map (·.id)).Nodup)
    (hkind : ∀ n ∈ g.nodes, ∃ s, n.kind = Kind.ofName s)
    (hfinite : ∀ n ∈ g.nodes, n.position.x.isFinite = true ∧ n.position.y.isFinite = true)
    (hread : ∀ n ∈ g.nodes, ∀ x ∈ [n.position.x, n.position.y], x.isFinite = true → IsReadBack x) :
    ∃ g', decode fresh (encode g) = .ok (g', ⟨0, 0, 0⟩) ∧ List.Forall₂ SameRecord g.nodes g'.nodes := by
  refine ⟨⟨g.nodes.map relinked⟩, ?_, forall₂_relinked g.nodes⟩
  have hx : ∀ n ∈ g.nodes, IsReadBack n.position.x := fun n hn => hread n hn _ (by simp) (hfinite n hn).1
  have hy : ∀ n ∈ g.nodes, IsReadBack n.position.y := fun n hn => hread n hn _ (by simp) (hfinite n hn).2
  have hrecords := records_encodeChars hne fun n hn => ⟨hx n hn, hy n hn⟩
  have hnodes : (g.nodes.map (recordOf g)).map nodeOfRecord = g.nodes.map unlinked := by
    rw [List.map_map]
    apply List.map_congr_left
    intro n hn
    rw [Function.comp_apply]
    exact nodeOfRecord_recordOf g (hbuilt.inputLabels hn) (hkind n hn) (hx n hn) (hy n hn) (hfinite n hn).1
      (hfinite n hn).2
  have hrekey : rekey fresh 0 [] (g.nodes.map unlinked) = (0, g.nodes.map unlinked) := by
    apply rekey_of_nodup
    · intro m hm
      obtain ⟨n, hn, rfl⟩ := List.mem_map.1 hm
      exact hid n hn
    · rw [List.map_map]
      exact hnodup
    · simp
  have hlists : (g.nodes.map (recordOf g)).map (listField · "connectionIds") = g.nodes.map (targetIds g) := by
    rw [List.map_map]
    apply List.map_congr_left
    intro n _
    dsimp only [Function.comp_apply]
    rw [listField_connectionIds]
  have hlink := foldl_connectAll hnodup hbuilt.linked [] g.nodes rfl
  rw [List.length_nil, List.map_nil, List.nil_append] at hlink
  unfold decode encode
  rw [String.toList_ofList, decodeChars, hrecords]
  dsimp only
  unfold ofRecords
  rw [if_neg (by simpa using hne), hnodes, hlists, hrekey]
  dsimp only
  rw [hlink]

/-- Two nodes that lead to each other, with marks of the format in all their texts. -/
def knot : Graph Float32 :=
  let a := Node.make "a\n\x7d, [" .event "On Start" ⟨0.1, -20.5⟩ .gold
  let b := (Node.Change.input 1 "]\r\"\\").apply (Node.make "b" (.custom " x") "Set Variable" ⟨1e30, -0⟩ .gray)
  ((((Graph.empty.add a).add b).connect 0 1).2.connect 1 0).2

theorem decode_encode_knot :
    ∃ g', decode toString (encode knot) = .ok (g', ⟨0, 0, 0⟩) ∧ List.Forall₂ SameRecord knot.nodes g'.nodes := by
  refine decode_encode toString knot ?_ ?_ ?_ ?_ ?_ ?_ ?_
  · unfold knot
    exact .connect (.connect (.add (.add .empty (.make ..)) (.change (.make ..) _)) _ _) _ _
  · decide
  · decide
  · decide
  · have hkinds : knot.nodes.map (·.kind) = [.event, .custom " x"] := by decide
    intro n hn
    have hmem : n.kind ∈ knot.nodes.map (·.kind) := List.mem_map_of_mem hn
    rw [hkinds] at hmem
    simp only [List.mem_cons, List.not_mem_nil, or_false] at hmem
    rcases hmem with h | h <;> rw [h]
    · exact ⟨"event", by decide⟩
    · exact ⟨" x", by decide⟩
  · decide +kernel
  · decide +kernel

end Document

end ScriptGraph
