import ScriptGraph.Proofs.DocumentParts
import ScriptGraph.Proofs.JsonPrefix

/-!
# Damaged documents

A document is damaged if some of its lines hold something else, or if it ends too early (`Damaged`).  All that is read
from it is the part of the graph whose records are intact (`decode_damaged`).

Both kinds of damage come to the same for the reader: every line is either the record of the node at its place or
holds no object at all (`Damaged.lines`).  For a document that was cut this is so because a record that lacks its
end is no object, even after brackets and commas at its end are removed (`not_object_of_prefix`).
-/

namespace ScriptGraph.Document

/-! ### Damage -/

/-- A line that may stand in the place of a record, for it does not begin an array and is no record itself. -/
structure IsReplacement (line : List Char) : Prop where
  newline : '\n' ∉ line
  bracket : (Text.trimChars line).head? ≠ some '['
  noObject : ∀ r, Json.parse? (cleanLine line) ≠ some (.obj r)

/-- The document of a graph with other lines in the place of some records, or cut at some character. -/
inductive Damaged (g : Graph Float32) : List Char → Prop
  | replaced {lines : List (List Char)}
      (h : List.Forall₂ (fun n line => line = recordChars g n ∨ IsReplacement line) g.nodes lines) :
      Damaged g (lines.flatMap fun line => line ++ ['\n'])
  | cut (k : Nat) : Damaged g ((encodeChars g).take k)

/-- Whether the record of the node at a position is still the line at this position. -/
def isIntact (g : Graph Float32) (text : List Char) (i : Nat) : Bool :=
  g.nodes[i]?.any fun n => (text.splitOn '\n')[i]? = some (recordChars g n)

/-- The number of lines that are not the records at their positions, nor blank after cleaning. -/
def damage (g : Graph Float32) (text : List Char) : Nat :=
  (text.splitOn '\n').zipIdx.countP fun p => !isIntact g text p.2 && !(cleanLine p.1).isEmpty

/-! ### Records without their ends -/

/-- Cleaning removes nothing from the start of a line that begins with a brace. -/
theorem cleanLine_brace (line : List Char) :
    ∃ line', cleanLine ('{' :: line) = '{' :: line' ∧ line' <+: line := by
  have htrim (l : List Char) : Text.trimChars ('{' :: l) = '{' :: l.rdropWhile Text.isBlank := by
    rw [Text.trimChars_eq, List.dropWhile_cons_of_neg (by decide), Text.rdropWhile_cons_of_not (by decide)]
  have hopen (l : List Char) : ('{' :: l).dropWhile (· == '[') = '{' :: l := by simp
  let inside := ((line.rdropWhile Text.isBlank).rdropWhile (· == ']')).rdropWhile Text.isBlank
  refine ⟨(inside.rdropWhile (· == ',')).rdropWhile Text.isBlank, ?_, ?_⟩
  · rw [cleanLine_eq, htrim, hopen, Text.rdropWhile_cons_of_not (by decide), htrim,
      Text.rdropWhile_cons_of_not (by decide), htrim]
  · exact (List.rdropWhile_prefix ..).trans <| (List.rdropWhile_prefix ..).trans <|
      (List.rdropWhile_prefix ..).trans <| (List.rdropWhile_prefix ..).trans (List.rdropWhile_prefix ..)

/-- The start of a record holds no object. -/
theorem not_object_of_prefix {line start : List Char} {v : Json} (hline : IsRecordLine line)
    (hparse : Json.parse? line = some v) (hstart : start <+: line) (hne : start ≠ line) :
    ∀ r, Json.parse? (cleanLine start) ≠ some (.obj r) := by
  intro r hr
  obtain ⟨inside, hbraced⟩ := hline.braced
  cases start with
  | nil => exact absurd hr (by simp [show Json.parse? (cleanLine []) = none by rfl])
  | cons c start =>
    have hc : c = '{' := by
      obtain ⟨rest, hrest⟩ := hstart
      rw [hbraced] at hrest
      exact (List.cons.inj hrest).1
    subst hc
    obtain ⟨start', hclean, hprefix⟩ := cleanLine_brace start
    rw [hclean] at hr
    obtain ⟨rest, hrest⟩ : ('{' :: start') <+: line := ((List.prefix_cons_inj _).2 hprefix).trans hstart
    rw [← hrest] at hparse
    have hspace := Json.isSpace_of_parse?_append hr hparse
    -- a record ends with a brace, so there is no space after the object and it is the whole record
    have hnil : rest = [] := by
      rcases List.eq_nil_or_concat rest with hnil | ⟨front, last, rfl⟩
      · exact hnil
      · have hends := congrArg List.getLast? hrest
        rw [hbraced, List.concat_eq_append, ← List.append_assoc, List.getLast?_concat, List.getLast?_concat] at hends
        have hlast := hspace last (by simp)
        rw [Option.some.inj hends] at hlast
        exact absurd hlast (by decide)
    rw [hnil, List.append_nil] at hrest
    have hlength : ('{' :: start).length = line.length := by
      refine Nat.le_antisymm hstart.length_le ?_
      rw [← hrest, List.length_cons, List.length_cons]
      exact Nat.succ_le_succ hprefix.length_le
    exact hne (hstart.eq_of_length hlength)

/-! ### The lines of a damaged document -/

private theorem recordLine {g : Graph Float32} (h : Storable g) {n : Node Float32} (hn : n ∈ g.nodes) :
    IsRecordLine (recordChars g n) :=
  isRecordLine_recordChars g (h.readBack n hn).1 (h.readBack n hn).2

private theorem parse?_record {g : Graph Float32} (h : Storable g) {n : Node Float32} (hn : n ∈ g.nodes) :
    Json.parse? (recordChars g n) = some (.obj (recordOf g n)) :=
  parse?_recordChars g (h.readBack n hn).1 (h.readBack n hn).2

private theorem lineRecord?_record {g : Graph Float32} (h : Storable g) {n : Node Float32} (hn : n ∈ g.nodes) :
    lineRecord? (recordChars g n) = some (recordOf g n) := by
  rw [lineRecord?, (recordLine h hn).clean, parse?_record h hn]

private theorem IsReplacement.lineRecord? {line : List Char} (h : IsReplacement line) : lineRecord? line = none := by
  rw [Document.lineRecord?]
  split
  · next r hr => exact absurd hr (h.noObject r)
  · rfl

private theorem isReplacement_nil : IsReplacement [] where
  newline := by simp
  bracket := by decide
  noObject r h := by simp [show Json.parse? (cleanLine []) = none by rfl] at h

/-- A record that lacks its end counts as a replacement. -/
private theorem isReplacement_of_cut {g : Graph Float32} (h : Storable g) {n : Node Float32} (hn : n ∈ g.nodes)
    {start : List Char} (hstart : start <+: recordChars g n) (hne : start ≠ recordChars g n) :
    IsReplacement start where
  newline hmem := (recordLine h hn).newline (hstart.subset hmem)
  bracket := by
    obtain ⟨inside, hbraced⟩ := (recordLine h hn).braced
    obtain ⟨rest, hrest⟩ := hstart
    cases start with
    | nil => decide
    | cons c start =>
      rw [hbraced] at hrest
      rw [(List.cons.inj hrest).1, Text.head?_trimChars, List.find?_cons_of_pos (by decide)]
      decide
  noObject := not_object_of_prefix (recordLine h hn) (parse?_record h hn) hstart hne

/-- The pieces of a text that ends somewhere in its lines: the first lines and the start of the next one. -/
private theorem splitOn_take {ls : List (List Char)} (h : ∀ l ∈ ls, '\n' ∉ l) (k : Nat) :
    ∃ count part, ((ls.flatMap fun l => l ++ ['\n']).take k).splitOn '\n' = ls.take count ++ [part] ∧
      (part = [] ∨ ∃ l, ls[count]? = some l ∧ part <+: l) := by
  induction ls generalizing k with
  | nil => exact ⟨0, [], by simp [List.splitOn_nil], .inl rfl⟩
  | cons l ls ih =>
    have hl := h l (by simp)
    rw [List.flatMap_cons, List.append_assoc, List.singleton_append, List.take_append]
    by_cases hk : k ≤ l.length
    · refine ⟨0, l.take k, ?_, .inr ⟨l, rfl, List.take_prefix k l⟩⟩
      rw [Nat.sub_eq_zero_of_le hk, List.take_zero, List.append_nil,
        Text.splitOn_of_not_mem fun hmem => hl (List.mem_of_mem_take hmem)]
      rfl
    · obtain ⟨m, hm⟩ : ∃ m, k - l.length = m + 1 := ⟨k - l.length - 1, by omega⟩
      obtain ⟨count, part, hpieces, hpart⟩ := ih (fun l hl => h l (by simp [hl])) m
      refine ⟨count + 1, part, ?_, hpart⟩
      rw [hm, List.take_of_length_le (by omega), List.take_succ_cons, Text.splitOn_append_newline hl, hpieces,
        List.take_succ_cons, List.cons_append]

private theorem line_replaced {g : Graph Float32} (h : Storable g) {ls : List (List Char)}
    (hls : List.Forall₂ (fun n line => line = recordChars g n ∨ IsReplacement line) g.nodes ls) {i : Nat}
    {line : List Char} (hline : ((ls.flatMap fun l => l ++ ['\n']).splitOn '\n')[i]? = some line) :
    (∃ n, g.nodes[i]? = some n ∧ line = recordChars g n) ∨ IsReplacement line := by
  have hat : ∀ (j : Nat) l, ls[j]? = some l →
      ∃ n, g.nodes[j]? = some n ∧ (l = recordChars g n ∨ IsReplacement l) := by
    rw [List.forall₂_iff_get] at hls
    intro j l hl
    obtain ⟨hj, rfl⟩ := List.getElem?_eq_some_iff.1 hl
    exact ⟨_, List.getElem?_eq_getElem (hls.1 ▸ hj), hls.2 j (hls.1 ▸ hj) hj⟩
  have hnewline : ∀ l ∈ ls, '\n' ∉ l := by
    intro l hl
    obtain ⟨j, hj⟩ := List.mem_iff_getElem?.1 hl
    obtain ⟨n, hn, hrecord | hreplaced⟩ := hat j l hj
    · rw [hrecord]
      exact (recordLine h (List.mem_of_getElem? hn)).newline
    · exact hreplaced.newline
  rw [Text.splitOn_flatMap hnewline, List.getElem?_append] at hline
  split at hline
  · obtain ⟨n, hn, hrecord | hreplaced⟩ := hat i line hline
    · exact .inl ⟨n, hn, hrecord⟩
    · exact .inr hreplaced
  · -- after the last newline there is nothing
    rw [List.mem_singleton.1 (List.mem_of_getElem? hline)]
    exact .inr isReplacement_nil

private theorem line_cut {g : Graph Float32} (h : Storable g) (k : Nat) {i : Nat} {line : List Char}
    (hline : (((encodeChars g).take k).splitOn '\n')[i]? = some line) :
    (∃ n, g.nodes[i]? = some n ∧ line = recordChars g n) ∨ IsReplacement line := by
  have hnewline : ∀ l ∈ g.nodes.map (recordChars g), '\n' ∉ l := by
    intro l hl
    obtain ⟨n, hn, rfl⟩ := List.mem_map.1 hl
    exact (recordLine h hn).newline
  have hnode : ∀ (j : Nat) l, (g.nodes.map (recordChars g))[j]? = some l →
      ∃ n, g.nodes[j]? = some n ∧ recordChars g n = l := by
    intro j l hl
    rw [List.getElem?_map] at hl
    exact Option.map_eq_some_iff.1 hl
  obtain ⟨count, part, hpieces, hpart⟩ := splitOn_take hnewline k
  rw [List.flatMap_map] at hpieces
  rw [encodeChars, hpieces, List.getElem?_append] at hline
  split at hline
  · next hlt =>
    rw [List.getElem?_take_of_lt (by rw [List.length_take] at hlt; omega)] at hline
    obtain ⟨n, hn, rfl⟩ := hnode i line hline
    exact .inl ⟨n, hn, rfl⟩
  · next hge =>
    -- the line is the last one, which may be a record that lacks no more than the newline
    obtain ⟨hzero, rfl⟩ := List.getElem?_eq_some_iff.1 hline
    rw [List.length_singleton, Nat.lt_one_iff] at hzero
    simp only [hzero, List.getElem_cons_zero]
    rcases hpart with rfl | ⟨l, hl, hprefix⟩
    · exact .inr isReplacement_nil
    · obtain ⟨n, hn, rfl⟩ := hnode count l hl
      have hcount : count < g.nodes.length := (List.getElem?_eq_some_iff.1 hn).1
      have hi : i = count := by
        rw [List.length_take, List.length_map] at hge hzero
        omega
      by_cases hwhole : part = recordChars g n
      · exact .inl ⟨n, hi ▸ hn, hwhole⟩
      · exact .inr (isReplacement_of_cut h (List.mem_of_getElem? hn) hprefix hwhole)

/-- Every line of a damaged document is the record of the node at its position, or it replaces a record. -/
theorem Damaged.lines {g : Graph Float32} (h : Storable g) {text : List Char} (hdamaged : Damaged g text) (i : Nat)
    (line : List Char) (hline : (text.splitOn '\n')[i]? = some line) :
    (∃ n, g.nodes[i]? = some n ∧ line = recordChars g n) ∨ IsReplacement line := by
  cases hdamaged with
  | replaced hls => exact line_replaced h hls hline
  | cut k => exact line_cut h k hline

/-! ### Its records -/

/-- Two lists are gone through side by side: where a position is kept, there is something in both, and where it is
not, the second list holds nothing that counts. -/
private theorem filterMap_eq_kept {α β γ : Type} {f : β → Option γ} {out : α → γ} {kept : Nat → Bool} (as : List α)
    (bs : List β) (k : Nat)
    (hkept : ∀ (j : Nat) a, as[j]? = some a → kept (k + j) = true → ∃ b, bs[j]? = some b ∧ f b = some (out a))
    (hother : ∀ (j : Nat) b, bs[j]? = some b → (∃ a, as[j]? = some a ∧ kept (k + j) = true) ∨ f b = none) :
    bs.filterMap f = ((as.zipIdx k).filter fun p => kept p.2).map fun p => out p.1 := by
  induction bs generalizing as k with
  | nil =>
    have hnone : ((as.zipIdx k).filter fun p => kept p.2) = [] := by
      rw [List.filter_eq_nil_iff]
      rintro ⟨a, i⟩ hp hki
      obtain ⟨hle, ha⟩ := List.mk_mem_zipIdx_iff_le_and_getElem?_sub.1 hp
      obtain ⟨b, hb, -⟩ := hkept (i - k) a ha (by rwa [Nat.add_sub_cancel' hle])
      simp at hb
    rw [hnone]
    rfl
  | cons b bs ih =>
    cases as with
    | nil =>
      rw [List.filterMap_eq_nil_iff.2]
      · rfl
      · intro c hc
        obtain ⟨j, hj⟩ := List.mem_iff_getElem?.1 hc
        rcases hother j c hj with ⟨a, ha, -⟩ | hnone
        · simp at ha
        · exact hnone
    | cons a as =>
      have hshift (j : Nat) : k + 1 + j = k + (j + 1) := by omega
      have hrest := ih as (k + 1) (fun j a ha hki => by simpa using hkept (j + 1) a ha (hshift j ▸ hki))
        (fun j c hc => by simpa [hshift] using hother (j + 1) c hc)
      rw [List.zipIdx_cons, List.filter_cons]
      by_cases hk : kept k = true
      · obtain ⟨c, hc, hout⟩ := hkept 0 a rfl hk
        cases hc
        rw [if_pos hk, List.filterMap_cons, hout, hrest, List.map_cons]
      · rcases hother 0 b rfl with ⟨-, -, hk0⟩ | hnone
        · exact absurd hk0 hk
        · rw [if_neg hk, List.filterMap_cons, hnone, hrest]

private theorem isIntact_iff {g : Graph Float32} {text : List Char} {i : Nat} {n : Node Float32}
    (hn : g.nodes[i]? = some n) :
    isIntact g text i = true ↔ (text.splitOn '\n')[i]? = some (recordChars g n) := by
  simp [isIntact, hn]

/-- The lines that are skipped are those that count as damage. -/
private theorem Damaged.isGarbage_eq {g : Graph Float32} (h : Storable g) {text : List Char}
    (hdamaged : Damaged g text) {i : Nat} {line : List Char} (hline : (text.splitOn '\n')[i]? = some line) :
    isGarbage line = (!isIntact g text i && !(cleanLine line).isEmpty) := by
  rcases hdamaged.lines h i line hline with ⟨n, hn, rfl⟩ | hreplaced
  · rw [isGarbage, lineRecord?_record h (List.mem_of_getElem? hn), (isIntact_iff hn).2 hline]
    simp
  · have hlost : isIntact g text i = false := by
      cases hn : g.nodes[i]? with
      | none => simp [isIntact, hn]
      | some n =>
        rw [Bool.eq_false_iff, ne_eq, isIntact_iff hn, hline]
        intro hrecord
        have hnone := hreplaced.lineRecord?
        rw [Option.some.inj hrecord, lineRecord?_record h (List.mem_of_getElem? hn)] at hnone
        cases hnone
    rw [isGarbage, hreplaced.lineRecord?, hlost]
    simp

/-- A damaged document is read line by line. -/
theorem Damaged.records {g : Graph Float32} (h : Storable g) {text : List Char} (hdamaged : Damaged g text) :
    records text = (damage g text, (g.survivors (isIntact g text)).map fun p => recordOf g p.1) := by
  have hlines := hdamaged.lines h
  have hhead : (Text.trimChars text).head? ≠ some '[' := by
    intro hhead
    obtain ⟨line, hmem, hbracket⟩ := exists_line_of_head? hhead
    obtain ⟨i, hi⟩ := List.mem_iff_getElem?.1 hmem
    rcases hlines i line hi with ⟨n, hn, rfl⟩ | hreplaced
    · rw [(recordLine h (List.mem_of_getElem? hn)).head?] at hbracket
      exact absurd hbracket (by decide)
    · exact hreplaced.bracket hbracket
  have hcount : (text.splitOn '\n').countP isGarbage = damage g text := by
    have hfst := congrArg (List.countP isGarbage) (List.zipIdx_map_fst 0 (text.splitOn '\n'))
    rw [List.countP_map] at hfst
    rw [← hfst, damage]
    apply List.countP_congr
    rintro ⟨line, i⟩ hp
    rw [List.mem_zipIdx_iff_getElem?] at hp
    rw [Function.comp_apply, hdamaged.isGarbage_eq h hp]
  have hobjects : (text.splitOn '\n').filterMap lineRecord? =
      (g.survivors (isIntact g text)).map fun p => recordOf g p.1 := by
    apply filterMap_eq_kept g.nodes (text.splitOn '\n') 0
    · intro j n hn hj
      rw [Nat.zero_add, isIntact_iff hn] at hj
      exact ⟨_, hj, lineRecord?_record h (List.mem_of_getElem? hn)⟩
    · intro j line hline
      rcases hlines j line hline with ⟨n, hn, rfl⟩ | hreplaced
      · exact .inl ⟨n, hn, by rw [Nat.zero_add, isIntact_iff hn, hline]⟩
      · exact .inr hreplaced.lineRecord?
  rw [records_eq hhead, recordsOn, hcount, hobjects]

/-! ### Reading a damaged document -/

/-- From a damaged document the nodes are read whose records are intact, with all connections between them, and
nothing else. -/
theorem decode_damaged (fresh : Nat → String) (g : Graph Float32) (hbuilt : g.Built)
    (hid : ∀ n ∈ g.nodes, n.id ≠ "") (hnodup : (g.nodes.map (·.id)).Nodup)
    (hkind : ∀ n ∈ g.nodes, ∃ s, n.kind = Kind.ofName s)
    (hfinite : ∀ n ∈ g.nodes, n.position.x.isFinite = true ∧ n.position.y.isFinite = true)
    (hread : ∀ n ∈ g.nodes, ∀ x ∈ [n.position.x, n.position.y], x.isFinite = true → IsReadBack x)
    (text : String) (hdamaged : Damaged g text.toList) :
    ((∀ i, isIntact g text.toList i = false) → decode fresh text = .error .noNodes) ∧
      ((∃ i, isIntact g text.toList i = true) →
        ∃ g', decode fresh text =
            .ok (g', ⟨damage g text.toList, (g.severed (isIntact g text.toList)).length, 0⟩) ∧
          List.Forall₂ SameRecord (g.induced (isIntact g text.toList)).nodes g'.nodes) := by
  have hg := Storable.of_built hbuilt hid hnodup hkind hfinite hread
  have hrecords := hdamaged.records hg
  unfold decode decodeChars
  rw [hrecords]
  dsimp only
  constructor
  · intro hnone
    have hempty : g.survivors (isIntact g text.toList) = [] := by
      rw [Graph.survivors, List.filter_eq_nil_iff]
      intro p _
      simp [hnone]
    rw [hempty]
    rfl
  · rintro ⟨i, hi⟩
    have hne : g.survivors (isIntact g text.toList) ≠ [] := by
      intro hempty
      cases hn : g.nodes[i]? with
      | none => simp [isIntact, hn] at hi
      | some n => simpa [hempty] using Graph.mem_survivors.2 ⟨hn, hi⟩
    exact ⟨_, ofRecords_survivors hg fresh _ hne, forall₂_relinked _⟩

private theorem isReplacement_lost : IsReplacement "lost".toList where
  newline := by decide
  bracket := by decide
  noObject r h := by
    rw [show Json.parse? (cleanLine "lost".toList) = none by rfl] at h
    cases h

/-- One of two nodes that lead to each other is left, once with its record before the cut and once after a line that
holds no record. -/
theorem decode_damaged_knot :
    (∃ g', decode toString (String.ofList ((encodeChars knot).take 200)) = .ok (g', ⟨1, 1, 0⟩) ∧
        List.Forall₂ SameRecord (knot.induced (isIntact knot ((encodeChars knot).take 200))).nodes g'.nodes) ∧
      ∃ g', decode toString (String.ofList ("lost\n".toList ++ (encodeChars knot).drop 146)) = .ok (g', ⟨1, 1, 0⟩) ∧
        List.Forall₂ SameRecord
          (knot.induced (isIntact knot ("lost\n".toList ++ (encodeChars knot).drop 146))).nodes g'.nodes := by
  have hbuilt : knot.Built := by
    unfold knot
    exact .connect (.connect (.add (.add .empty (.make ..)) (.change (.make ..) _)) _ _) _ _
  have hkind : ∀ n ∈ knot.nodes, ∃ s, n.kind = Kind.ofName s := by
    have hnames : ∀ k ∈ knot.nodes.map (·.kind), k = Kind.ofName k.name := by decide
    exact fun n hn => ⟨_, hnames _ (List.mem_map_of_mem hn)⟩
  have hread (text : List Char) (hdamaged : Damaged knot text) :=
    decode_damaged toString knot hbuilt (by decide) (by decide) hkind (by decide +kernel) (by decide +kernel)
      (String.ofList text) (by rwa [String.toList_ofList])
  simp only [String.toList_ofList] at hread
  constructor
  · obtain ⟨g', hg', hsame⟩ := (hread _ (.cut 200)).2 ⟨0, by decide +kernel⟩
    have hdamage : damage knot ((encodeChars knot).take 200) = 1 := by decide +kernel
    have hsevered : (knot.severed (isIntact knot ((encodeChars knot).take 200))).length = 1 := by decide +kernel
    rw [hdamage, hsevered] at hg'
    exact ⟨g', hg', hsame⟩
  · have hlines : "lost\n".toList ++ (encodeChars knot).drop 146 =
        ("lost".toList :: (knot.nodes.drop 1).map (recordChars knot)).flatMap fun line => line ++ ['\n'] := by
      decide +kernel
    have hdamaged : Damaged knot ("lost\n".toList ++ (encodeChars knot).drop 146) := by
      rw [hlines]
      exact .replaced (.cons (.inr isReplacement_lost) (.cons (.inl rfl) .nil))
    obtain ⟨g', hg', hsame⟩ := (hread _ hdamaged).2 ⟨1, by decide +kernel⟩
    have hdamage : damage knot ("lost\n".toList ++ (encodeChars knot).drop 146) = 1 := by decide +kernel
    have hsevered : (knot.severed (isIntact knot ("lost\n".toList ++ (encodeChars knot).drop 146))).length = 1 := by
      decide +kernel
    rw [hdamage, hsevered] at hg'
    exact ⟨g', hg', hsame⟩

end ScriptGraph.Document
