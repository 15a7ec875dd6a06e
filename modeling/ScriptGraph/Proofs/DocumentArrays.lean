import ScriptGraph.Proofs.DocumentDamage
import ScriptGraph.Proofs.FreshNames
import ScriptGraph.Proofs.JsonArrays
import ScriptGraph.Proofs.JsonValues

/-!
# Arrays and lines mean the same

Objects may be written on lines (`lineChars`), as an array on one line (`arrayChars`) or as an array with one object
on each line (`spreadChars`).  The first is read line by line, the others as a whole, and the same records come out
(`records_lineChars`, `records_arrayChars`, `records_take_spreadChars`).

An array that was cut is no array, so it is read line by line as well, and the brackets and commas that are left are
removed from the lines.  Which objects are still there is said by the places where they stand (`spans`), and the proof
goes along the objects with the place of the cut fixed (`recordsOn_body`).
-/

namespace ScriptGraph.Document

/-! ### Three ways of writing objects -/

/-- The compact texts of some objects. -/
def objectTexts (objects : List Record) : List (List Char) := objects.map fun r => Json.chars (.obj r)

/-- Objects on lines. -/
def lineChars (texts : List (List Char)) : List Char := ['\n'].intercalate texts

/-- Objects in an array on one line. -/
def arrayChars (texts : List (List Char)) : List Char := '[' :: ([','].intercalate texts ++ [']'])

/-- The end of an array, with a comma after the last object or none. -/
def tailChars (final : Bool) : List Char := (if final then [','] else []) ++ ['\n', ']']

/-- Objects in an array, with the brackets and the objects on lines of their own. -/
def spreadChars (final : Bool) (texts : List (List Char)) : List Char :=
  '[' :: '\n' :: ([',', '\n'].intercalate texts ++ tailChars final)

/-- The places from which and up to which texts stand that begin at `start` and have two characters between them. -/
def spans (start : Nat) : List (List Char) → List (Nat × Nat)
  | [] => []
  | text :: rest => (start, start + text.length) :: spans (start + text.length + 2) rest

/-- How many objects of an array are completely before the place of a cut. -/
def contained (texts : List (List Char)) (k : Nat) : Nat := (spans 2 texts).countP (·.2 ≤ k)

/-- One if the cut goes through an object. -/
def broken (texts : List (List Char)) (k : Nat) : Nat :=
  if (spans 2 texts).any fun s => s.1 < k && k < s.2 then 1 else 0

private theorem drop_take_body {texts : List (List Char)} (front rest : List Char) :
    (spans front.length texts).map (fun s => ((front ++ ([',', '\n'].intercalate texts ++ rest)).take s.2).drop s.1) =
      texts := by
  induction texts generalizing front with
  | nil => rfl
  | cons text texts ih =>
    rw [spans, List.map_cons]
    congr 1
    · cases texts with
      | nil =>
        rw [List.intercalate_singleton, ← List.append_assoc, List.take_left' (by rw [List.length_append]),
          List.drop_left]
      | cons text' texts =>
        rw [List.intercalate_cons_cons, List.append_assoc, List.append_assoc, ← List.append_assoc front,
          List.take_left' (by rw [List.length_append]), List.drop_left]
    · cases texts with
      | nil => rfl
      | cons text' texts =>
        have hnext := ih (front ++ text ++ [',', '\n'])
        rw [List.length_append, List.length_append] at hnext
        rw [List.intercalate_cons_cons]
        simpa using hnext

/-- The spans are the places of the objects in the array. -/
theorem drop_take_spans (final : Bool) (texts : List (List Char)) :
    (spans 2 texts).map (fun s => ((spreadChars final texts).take s.2).drop s.1) = texts :=
  drop_take_body ['[', '\n'] (tailChars final)

/-! ### Objects and their texts -/

/-- A text on one line that is read as an object wherever it stands in an array. -/
structure IsObjectText (text : List Char) (r : Record) : Prop where
  line : IsRecordLine text
  reads : Json.Reads text (.obj r) 126

/-- The compact text of an object that is not too deep. -/
theorem exists_isObjectText {r : Record} (hvalid : (Json.obj r).Valid) (hdepth : (Json.obj r).depth ≤ 126) :
    ∃ r', IsObjectText (Json.chars (.obj r)) r' := by
  obtain ⟨r', hreads⟩ := Json.exists_reads_object hvalid
  refine ⟨r', ⟨⟨Json.commaChars (Json.fieldTexts r), by rw [Json.chars]⟩, Json.plain_chars _ hvalid⟩,
    hreads.mono hdepth⟩

section Objects

variable {text : List Char} {r : Record}

theorem IsObjectText.parse (h : IsObjectText text r) : Json.parse? text = some (.obj r) :=
  h.reads.parse (by decide)

private theorem IsObjectText.length_pos (h : IsObjectText text r) : 0 < text.length := by
  obtain ⟨inside, rfl⟩ := h.line.braced
  simp

private theorem recordsOn_clean {line : List Char} (h : cleanLine line = text)
    (hparse : Json.parse? text = some (.obj r)) :
    recordsOn [line] = (0, [r]) := by
  have hrecord : lineRecord? line = some r := by rw [lineRecord?, h, hparse]
  simp [recordsOn, isGarbage, hrecord]

/-- An object on a line. -/
theorem IsObjectText.recordsOn (h : IsObjectText text r) : recordsOn [text] = (0, [r]) :=
  recordsOn_clean h.line.clean h.parse

/-- Cleaning removes a comma after an object. -/
private theorem cleanLine_comma (h : IsRecordLine text) : cleanLine (text ++ [',']) = text := by
  obtain ⟨inside, rfl⟩ := h.braced
  have htrim : Text.trimChars ('{' :: inside ++ ['}']) = '{' :: inside ++ ['}'] :=
    Text.trimChars_of_ends (by decide) (by decide) inside
  have htrim' : Text.trimChars ('{' :: inside ++ ['}'] ++ [',']) = '{' :: inside ++ ['}'] ++ [','] :=
    Text.trimChars_of_ends (by decide) (by decide) (inside ++ ['}'])
  have hopen : ('{' :: inside ++ ['}'] ++ [',']).dropWhile (· == '[') = '{' :: inside ++ ['}'] ++ [','] := by simp
  have hclose : ('{' :: inside ++ ['}'] ++ [',']).rdropWhile (· == ']') = '{' :: inside ++ ['}'] ++ [','] :=
    List.rdropWhile_concat_neg _ _ _ (by decide)
  have hcomma : ('{' :: inside ++ ['}'] ++ [',']).rdropWhile (· == ',') = '{' :: inside ++ ['}'] := by
    rw [List.rdropWhile_concat_pos _ _ _ (by decide), List.rdropWhile_concat_neg _ _ _ (by decide)]
  rw [cleanLine_eq, htrim', hopen, hclose, htrim', hcomma, htrim]

/-- An object on a line with a comma after it. -/
theorem IsObjectText.recordsOn_comma (h : IsObjectText text r) : Document.recordsOn [text ++ [',']] = (0, [r]) :=
  recordsOn_clean (cleanLine_comma h.line) h.parse

/-- An object that lacks its end counts as garbage if anything of it is there. -/
theorem IsObjectText.recordsOn_start (h : IsObjectText text r) {start : List Char} (hstart : start <+: text)
    (hne : start ≠ text) : Document.recordsOn [start] = (if start = [] then 0 else 1, []) := by
  by_cases hempty : start = []
  · rw [hempty, if_pos rfl, recordsOn_nil]
  · rw [if_neg hempty]
    have hobject := not_object_of_prefix h.line h.parse hstart hne
    have hrecord : lineRecord? start = none := by
      rw [lineRecord?]
      split
      · next r' hr' => exact absurd hr' (hobject r')
      · rfl
    have hclean : cleanLine start ≠ [] := by
      obtain ⟨c, start', rfl⟩ := List.exists_cons_of_ne_nil hempty
      obtain ⟨inside, hbraced⟩ := h.line.braced
      obtain ⟨rest, hrest⟩ := hstart
      rw [hbraced, List.cons_append, List.cons_append, List.cons.injEq] at hrest
      obtain ⟨line', hline', -⟩ := cleanLine_brace start'
      rw [hrest.1, hline']
      exact List.cons_ne_nil _ _
    simp [Document.recordsOn, isGarbage, hrecord, hclean]

end Objects

/-! ### The lines of an array -/

private theorem recordsOn_bracket {line : List Char} {r : Record} (hnewline : '\n' ∉ line)
    (h : recordsOn [line] = (0, [r])) (m : Nat) :
    recordsOn ((line ++ ['\n', ']'].take m).splitOn '\n') = (0, [r]) := by
  match m with
  | 0 => rw [List.take_zero, List.append_nil, Text.splitOn_of_not_mem hnewline, h]
  | 1 =>
    rw [List.take_succ_cons, List.take_zero, Text.splitOn_append_newline hnewline, recordsOn_cons, h]
    rfl
  | m + 2 =>
    rw [List.take_succ_cons, List.take_succ_cons, List.take_nil, Text.splitOn_append_newline hnewline,
      recordsOn_cons, h]
    rfl

/-- The last object of an array, with some of what comes after it. -/
private theorem recordsOn_tail (final : Bool) {text : List Char} {r : Record} (h : IsObjectText text r) (m : Nat) :
    recordsOn ((text ++ (tailChars final).take m).splitOn '\n') = (0, [r]) := by
  have hnewline : '\n' ∉ text := h.line.newline
  cases final with
  | false => exact recordsOn_bracket hnewline h.recordsOn m
  | true =>
    cases m with
    | zero => rw [List.take_zero, List.append_nil, Text.splitOn_of_not_mem hnewline, h.recordsOn]
    | succ m =>
      have hcomma : '\n' ∉ text ++ [','] := by simp [hnewline]
      have htail : text ++ (tailChars true).take (m + 1) = text ++ [','] ++ ['\n', ']'].take m := by
        rw [List.append_assoc]
        rfl
      rw [htail]
      exact recordsOn_bracket hcomma h.recordsOn_comma m

/-- A cut that does not come after the first object. -/
private theorem recordsOn_first {text rest : List Char} {r : Record} (h : IsObjectText text r) {start k : Nat}
    (hk : k < start + text.length) :
    recordsOn (((text ++ rest).take (k - start)).splitOn '\n') = (if start < k then 1 else 0, []) := by
  have hpos := h.length_pos
  have hstart : text.take (k - start) ≠ text := by
    intro hwhole
    have hlength := congrArg List.length hwhole
    rw [List.length_take] at hlength
    omega
  have hempty : text.take (k - start) = [] ↔ ¬start < k := by
    rw [List.take_eq_nil_iff, ← List.length_eq_zero_iff]
    omega
  rw [List.take_append_of_le_length (by omega),
    Text.splitOn_of_not_mem fun hmem => h.line.newline (List.mem_of_mem_take hmem),
    h.recordsOn_start (List.take_prefix _ _) hstart]
  by_cases hsome : start < k
  · rw [if_neg (by rw [hempty]; omega), if_pos hsome]
  · rw [if_pos (hempty.2 hsome), if_neg hsome]

/-- An object with others after it on lines of their own, cut behind the object. -/
private theorem recordsOn_others {text others : List Char} {r : Record} (h : IsObjectText text r) {m n : Nat}
    {rs : List Record} (hothers : recordsOn ((others.take (m - 2)).splitOn '\n') = (n, rs)) :
    recordsOn ((text ++ (',' :: '\n' :: others).take m).splitOn '\n') = (n, r :: rs) := by
  have hnewline : '\n' ∉ text := h.line.newline
  have hcomma : '\n' ∉ text ++ [','] := by simp [hnewline]
  have hnone : recordsOn (([] : List Char).splitOn '\n') = (0, []) := rfl
  match m with
  | 0 =>
    rw [Nat.zero_sub, List.take_zero, hnone] at hothers
    obtain ⟨rfl, rfl⟩ := Prod.mk.inj hothers
    rw [List.take_zero, List.append_nil, Text.splitOn_of_not_mem hnewline, h.recordsOn]
  | 1 =>
    rw [List.take_zero, hnone] at hothers
    obtain ⟨rfl, rfl⟩ := Prod.mk.inj hothers
    rw [List.take_succ_cons, List.take_zero, Text.splitOn_of_not_mem hcomma, h.recordsOn_comma]
  | m + 2 =>
    rw [Nat.add_sub_cancel] at hothers
    rw [List.take_succ_cons, List.take_succ_cons, ← List.singleton_append, ← List.append_assoc,
      Text.splitOn_append_newline hcomma, recordsOn_cons, hothers, h.recordsOn_comma, Nat.zero_add]
    rfl

/-- The objects on the lines of an array that was cut. -/
private theorem recordsOn_body (final : Bool) (k : Nat) :
    ∀ (ps : List (List Char × Record)) (start : Nat), ps ≠ [] → (∀ p ∈ ps, IsObjectText p.1 p.2) →
      recordsOn ((([',', '\n'].intercalate (ps.map (·.1)) ++ tailChars final).take (k - start)).splitOn '\n') =
        (if (spans start (ps.map (·.1))).any fun s => s.1 < k && k < s.2 then 1 else 0,
          (ps.take ((spans start (ps.map (·.1))).countP (·.2 ≤ k))).map (·.2))
  | [], _, hne, _ => absurd rfl hne
  | [p], start, _, h => by
    have hp := h p (by simp)
    simp only [List.map_cons, List.map_nil, List.intercalate_singleton, spans]
    by_cases hk : k < start + p.1.length
    · rw [recordsOn_first hp hk]
      simp [hk, Nat.not_le.2 hk]
    · have hlast := recordsOn_tail final hp (k - start - p.1.length)
      rw [List.take_append, List.take_of_length_le (by omega), hlast]
      simp [hk, Nat.not_lt.1 hk]
  | p :: q :: rest, start, _, h => by
    have hp := h p (by simp)
    have hrest := recordsOn_body final k (q :: rest) (start + p.1.length + 2) (by simp) fun s hs => h s (by simp [hs])
    have htext : [',', '\n'].intercalate ((p :: q :: rest).map (·.1)) ++ tailChars final =
        p.1 ++ ',' :: '\n' :: ([',', '\n'].intercalate ((q :: rest).map (·.1)) ++ tailChars final) := by simp
    have hspans : spans start ((p :: q :: rest).map (·.1)) =
        (start, start + p.1.length) :: spans (start + p.1.length + 2) ((q :: rest).map (·.1)) := rfl
    rw [htext, hspans, List.any_cons, List.countP_cons]
    generalize [',', '\n'].intercalate ((q :: rest).map (·.1)) ++ tailChars final = others at hrest ⊢
    generalize ((spans (start + p.1.length + 2) ((q :: rest).map (·.1))).any fun s => s.1 < k && k < s.2) =
      cut at hrest ⊢
    generalize (spans (start + p.1.length + 2) ((q :: rest).map (·.1))).countP (·.2 ≤ k) = count at hrest ⊢
    by_cases hk : k < start + p.1.length
    · -- nothing of the other objects is there
      rw [Nat.sub_eq_zero_of_le (by omega), List.take_zero, List.splitOn_nil, recordsOn_nil, Prod.mk.injEq] at hrest
      have hcut : cut = false := by
        cases cut with
        | false => rfl
        | true => exact absurd hrest.1 (by decide)
      have hcount : count = 0 := by simpa using hrest.2.symm
      rw [recordsOn_first hp hk, hcut, hcount]
      simp [hk, Nat.not_le.2 hk]
    · rw [show k - (start + p.1.length + 2) = k - start - p.1.length - 2 by omega] at hrest
      rw [List.take_append, List.take_of_length_le (by omega), recordsOn_others hp hrest]
      simp [hk, Nat.not_lt.1 hk]

/-! ### The records of the three documents -/

/-- A text that is no array is read line by line. -/
private theorem records_of_not_array {text : List Char}
    (h : ∀ items, Json.parse? (Text.trimChars text) ≠ some (.arr items)) :
    records text = recordsOn (text.splitOn '\n') := by
  rw [← lineRecords_eq, ← lineRecords_trimChars, records]
  split
  · split
    · next items hitems => exact absurd hitems (h items)
    · rfl
  · rfl

private theorem records_of_array {text : List Char} {rs : List Record} (htrim : Text.trimChars text = text)
    (hhead : text.head? = some '[') (h : Json.parse? text = some (.arr (rs.map .obj))) : records text = (0, rs) := by
  have hselect : selectRecords ((rs.map Json.obj).map some) = (0, rs) := by
    clear h
    induction rs with
    | nil => rfl
    | cons r rs ih => rw [List.map_cons, List.map_cons, selectRecords, ih]
  rw [records, htrim, hhead, if_pos (by simp), h]
  exact hselect

/-- What remains of an array that was cut is no array. -/
private theorem not_array_of_cut {inside text : List Char} {v : Json}
    (hwhole : Json.parse? ('[' :: inside ++ [']']) = some v)
    (htext : text <+: '[' :: inside) : ∀ items, Json.parse? (Text.trimChars text) ≠ some (.arr items) := by
  intro items harray
  have hbegin : Text.trimChars text <+: '[' :: inside := by
    refine List.IsPrefix.trans ?_ htext
    cases text with
    | nil => exact List.nil_prefix
    | cons c text =>
      obtain ⟨rest, hrest⟩ := htext
      rw [(List.cons.inj hrest).1, Text.trimChars_eq, List.dropWhile_cons_of_neg (by decide)]
      exact List.rdropWhile_prefix ..
  obtain ⟨rest, hrest⟩ := hbegin
  rw [← hrest, List.append_assoc] at hwhole
  have hspace := Json.isSpace_of_parse?_container (u := .arr items) trivial harray hwhole ']' (by simp)
  exact absurd hspace (by decide)

private theorem isSpace_newline : ∀ c ∈ ['\n'], Json.Token.isSpace c = true := by simp [Json.Token.isSpace]

section Documents

variable {ps : List (List Char × Record)}

private theorem parse?_spread (gap : List Char) (hgap : ∀ c ∈ gap, Json.Token.isSpace c = true) (hne : ps ≠ [])
    (h : ∀ p ∈ ps, IsObjectText p.1 p.2) :
    Json.parse? ('[' :: (gap ++ ((',' :: gap).intercalate (ps.map (·.1)) ++ (gap ++ [']'])))) =
        some (.arr ((ps.map (·.2)).map .obj)) ∧
      Json.parse? ('[' :: (gap ++ ((',' :: gap).intercalate (ps.map (·.1)) ++ ([','] ++ (gap ++ [']']))))) =
        none := by
  have hreads : ∀ p ∈ ps.map (fun p => (p.1, Json.obj p.2)), Json.Reads p.1 p.2 126 := by
    intro p hp
    obtain ⟨q, hq, rfl⟩ := List.mem_map.1 hp
    exact (h q hq).reads
  have hitems : ps.map (fun p => (p.1, Json.obj p.2)) ≠ [] := by simpa using hne
  have harray := Json.parse?_array hgap hitems hreads (by decide)
  have hcomma := Json.parse?_array_comma hgap hitems hreads
  rw [List.map_map, List.map_map] at harray
  rw [List.map_map] at hcomma
  refine ⟨?_, hcomma⟩
  rw [List.map_map]
  exact harray

theorem records_lineChars (h : ∀ p ∈ ps, IsObjectText p.1 p.2) :
    records (lineChars (ps.map (·.1))) = (0, ps.map (·.2)) := by
  by_cases hne : ps = []
  · rw [hne]
    rfl
  · have hlines : ∀ qs : List (List Char × Record), qs ≠ [] →
        lineChars (qs.map (·.1)) ++ ['\n'] = qs.flatMap fun p => p.1 ++ ['\n'] := by
      intro qs hqs
      induction qs with
      | nil => exact absurd rfl hqs
      | cons q qs ih =>
        cases qs with
        | nil => simp [lineChars]
        | cons q' qs =>
          rw [List.flatMap_cons, ← ih (by simp), lineChars, lineChars]
          simp
    have hend : records (lineChars (ps.map (·.1)) ++ ['\n']) = records (lineChars (ps.map (·.1))) := by
      rw [records, Text.trimChars_concat_of_isBlank (by decide), records]
    rw [← hend, hlines ps hne]
    exact records_flatMap hne (fun p hp => (h p hp).line) fun p hp => (h p hp).parse

theorem records_arrayChars (hne : ps ≠ []) (h : ∀ p ∈ ps, IsObjectText p.1 p.2) :
    records (arrayChars (ps.map (·.1))) = (0, ps.map (·.2)) := by
  have hparse := (parse?_spread [] (by simp) hne h).1
  exact records_of_array (Text.trimChars_of_ends (by decide) (by decide) _) rfl hparse

private theorem recordsOn_spreadChars (final : Bool) (hne : ps ≠ []) (h : ∀ p ∈ ps, IsObjectText p.1 p.2) (k : Nat) :
    recordsOn (((spreadChars final (ps.map (·.1))).take k).splitOn '\n') =
      (broken (ps.map (·.1)) k, (ps.take (contained (ps.map (·.1)) k)).map (·.2)) := by
  have hbody := recordsOn_body final k ps 2 hne h
  rw [broken, contained, ← hbody]
  match k with
  | 0 => rfl
  | 1 => rfl
  | k + 2 =>
    rw [spreadChars, List.take_succ_cons, List.take_succ_cons, ← List.singleton_append,
      Text.splitOn_append_newline (by decide), recordsOn_cons,
      show recordsOn [['[']] = (0, []) from rfl, Nat.zero_add]
    rfl

private theorem spans_le {texts : List (List Char)} (start : Nat) :
    ∀ s ∈ spans start texts, s.2 ≤ start + ([',', '\n'].intercalate texts).length := by
  induction texts generalizing start with
  | nil => simp [spans]
  | cons text texts ih =>
    intro s hs
    rw [spans, List.mem_cons] at hs
    cases texts with
    | nil =>
      rcases hs with rfl | hs
      · simp
      · simp [spans] at hs
    | cons text' texts =>
      rw [List.intercalate_cons_cons, List.length_append, List.length_append]
      rcases hs with rfl | hs
      · dsimp only
        omega
      · have := ih _ s hs
        simp only [List.length_cons, List.length_nil] at this ⊢
        omega

private theorem length_spans (start : Nat) (texts : List (List Char)) :
    (spans start texts).length = texts.length := by
  induction texts generalizing start with
  | nil => rfl
  | cons text texts ih => rw [spans, List.length_cons, ih, List.length_cons]

/-- Nothing is missing of an array that was not cut. -/
theorem contained_of_length_le {final : Bool} {texts : List (List Char)} {k : Nat}
    (hk : (spreadChars final texts).length ≤ k) : contained texts k = texts.length ∧ broken texts k = 0 := by
  have hall : ∀ s ∈ spans 2 texts, s.2 ≤ k := by
    intro s hs
    have := spans_le 2 s hs
    rw [spreadChars, List.length_cons, List.length_cons, List.length_append] at hk
    omega
  constructor
  · rw [contained, List.countP_eq_length.2 (by simpa using hall), length_spans]
  · rw [broken, if_neg]
    rw [Bool.not_eq_true, List.any_eq_false]
    intro s hs
    have := hall s hs
    simp
    omega

private theorem spreadChars_eq (final : Bool) (texts : List (List Char)) :
    spreadChars final texts =
      '[' :: ('\n' :: ([',', '\n'].intercalate texts ++ ((if final then [','] else []) ++ ['\n']))) ++ [']'] := by
  simp [spreadChars, tailChars]

private theorem intercalate_concat {α : Type} (sep last : List α) {l : List (List α)} (hne : l ≠ []) :
    sep.intercalate (l ++ [last]) = sep.intercalate l ++ sep ++ last := by
  induction l with
  | nil => exact absurd rfl hne
  | cons x l ih =>
    cases l with
    | nil => simp
    | cons y l =>
      rw [List.cons_append, List.cons_append, List.intercalate_cons_cons, ← List.cons_append, ih (by simp),
        List.intercalate_cons_cons]
      simp

/-- An array of objects on several lines of which a part is missing is no array. -/
private theorem not_array_of_take {final : Bool} (hne : ps ≠ []) (h : ∀ p ∈ ps, IsObjectText p.1 p.2) {k : Nat}
    (hk : k < (spreadChars final (ps.map (·.1))).length) :
    ∀ items, Json.parse? (Text.trimChars ((spreadChars final (ps.map (·.1))).take k)) ≠ some (.arr items) := by
  rw [spreadChars_eq] at hk ⊢
  have hbegin := List.take_prefix k
    ('[' :: ('\n' :: ([',', '\n'].intercalate (ps.map (·.1)) ++ ((if final then [','] else []) ++ ['\n']))))
  rw [List.length_append, List.length_singleton] at hk
  rw [List.take_append_of_le_length (by omega)]
  cases final with
  | false =>
    have hparse := (parse?_spread ['\n'] isSpace_newline hne h).1
    refine not_array_of_cut (Eq.trans (congrArg Json.parse? ?_) hparse) hbegin
    simp
  | true =>
    -- with one more object after the last comma there would be an array
    obtain ⟨r, hr⟩ := @exists_isObjectText [] trivial (by decide)
    have hmore : ∀ p ∈ ps ++ [(Json.chars (.obj []), r)], IsObjectText p.1 p.2 := by
      intro p hp
      rcases List.mem_append.1 hp with hp | hp
      · exact h p hp
      · rw [List.mem_singleton.1 hp]
        exact hr
    have hparse := (parse?_spread ['\n'] isSpace_newline (by simp) hmore).1
    rw [List.map_append, List.map_singleton, intercalate_concat _ _ (by simpa using hne)] at hparse
    refine @not_array_of_cut ('\n' :: ([',', '\n'].intercalate (ps.map (·.1)) ++ [',', '\n'] ++
      (Json.chars (.obj []) ++ ['\n']))) _ _ (Eq.trans (congrArg Json.parse? ?_) hparse) (hbegin.trans ?_)
    · simp
    · simp

/-- The records of an array on several lines, wherever it is cut. -/
theorem records_take_spreadChars (final : Bool) (hne : ps ≠ []) (h : ∀ p ∈ ps, IsObjectText p.1 p.2) (k : Nat) :
    records ((spreadChars final (ps.map (·.1))).take k) =
      (broken (ps.map (·.1)) k, (ps.take (contained (ps.map (·.1)) k)).map (·.2)) := by
  have hparse := parse?_spread ['\n'] isSpace_newline hne h
  by_cases hk : k < (spreadChars final (ps.map (·.1))).length
  · rw [records_of_not_array (not_array_of_take hne h hk), recordsOn_spreadChars final hne h]
  · have htake : (spreadChars final (ps.map (·.1))).take k = spreadChars final (ps.map (·.1)) :=
      List.take_of_length_le (Nat.not_lt.1 hk)
    have htrim : Text.trimChars (spreadChars final (ps.map (·.1))) = spreadChars final (ps.map (·.1)) := by
      rw [spreadChars_eq]
      exact Text.trimChars_of_ends (by decide) (by decide) _
    cases final with
    | false =>
      have hwhole := contained_of_length_le (Nat.not_lt.1 hk)
      have hall : (ps.take ps.length).map (·.2) = ps.map (·.2) := by rw [List.take_length]
      rw [htake, hwhole.1, hwhole.2, List.length_map, hall]
      exact records_of_array htrim rfl hparse.1
    | true =>
      have hnone : Json.parse? (spreadChars true (ps.map (·.1))) = none := hparse.2
      rw [← recordsOn_spreadChars true hne h, htake]
      refine records_of_not_array fun items hitems => ?_
      rw [htrim, hnone] at hitems
      cases hitems

end Documents

/-! ### Reading the three documents -/

/-- What comes out of reading, with some more records skipped. -/
def withSkipped (n : Nat) (outcome : Except ScriptError (Graph Float32 × Report)) :
    Except ScriptError (Graph Float32 × Report) :=
  outcome.map fun p => (p.1, { p.2 with skipped := p.2.skipped + n })

private theorem ofRecords_eq_withSkipped (fresh : Nat → String) (skipped : Nat) (rs : List Record) :
    ofRecords fresh skipped rs = withSkipped skipped (ofRecords fresh 0 rs) := by
  unfold ofRecords
  split
  · rfl
  · simp [withSkipped, Except.map]

private theorem ofRecords_nodes (fresh : Nat → String) {rs : List Record} (hne : rs ≠ []) :
    ∃ g report, ofRecords fresh 0 rs = .ok (g, report) ∧ g.nodes.length = rs.length ∧ report.skipped = 0 := by
  refine ⟨_, _, ofRecords_eq_linkAll fresh 0 hne, ?_, rfl⟩
  rw [← length_rekey fresh rs, ← map_fst_keyed, linkAll]
  simp

private theorem exists_texts {objects : List Record} (hvalid : ∀ r ∈ objects, (Json.obj r).Valid)
    (hdepth : ∀ r ∈ objects, (Json.obj r).depth ≤ 126) :
    ∃ ps : List (List Char × Record), ps.map (·.1) = objectTexts objects ∧ ∀ p ∈ ps, IsObjectText p.1 p.2 := by
  induction objects with
  | nil => exact ⟨[], rfl, by simp⟩
  | cons r objects ih =>
    obtain ⟨r', hr'⟩ := exists_isObjectText (hvalid r (by simp)) (hdepth r (by simp))
    obtain ⟨ps, htexts, hps⟩ := ih (fun s hs => hvalid s (by simp [hs])) fun s hs => hdepth s (by simp [hs])
    refine ⟨(Json.chars (.obj r), r') :: ps, by rw [List.map_cons, htexts]; rfl, ?_⟩
    intro p hp
    rcases List.mem_cons.1 hp with rfl | hp
    · exact hr'
    · exact hps p hp

/-- The records of objects in each of the ways they are written, and of what is left of an array after a cut. -/
theorem records_objectTexts {objects : List Record} (hne : objects ≠ []) (hvalid : ∀ r ∈ objects, (Json.obj r).Valid)
    (hdepth : ∀ r ∈ objects, (Json.obj r).depth ≤ 126) (final : Bool) :
    ∃ rs : List Record, rs.length = objects.length ∧
      (∀ n, records (lineChars (objectTexts (objects.take n))) = (0, rs.take n)) ∧
      records (arrayChars (objectTexts objects)) = (0, rs) ∧
      ∀ k, records ((spreadChars final (objectTexts objects)).take k) =
        (broken (objectTexts objects) k, rs.take (contained (objectTexts objects) k)) := by
  obtain ⟨ps, htexts, hps⟩ := exists_texts hvalid hdepth
  have hlength : ps.length = objects.length := by simpa [objectTexts] using congrArg List.length htexts
  have hps_ne : ps ≠ [] := by
    rintro rfl
    exact hne (List.length_eq_zero_iff.1 hlength.symm)
  refine ⟨ps.map (·.2), by rw [List.length_map, hlength], ?_, ?_, ?_⟩
  · intro n
    have htake : (ps.take n).map (·.1) = objectTexts (objects.take n) := by
      rw [List.map_take, htexts, objectTexts, objectTexts, List.map_take]
    rw [← htake, ← List.map_take]
    exact records_lineChars fun p hp => hps p (List.mem_of_mem_take hp)
  · rw [← htexts]
    exact records_arrayChars hps_ne hps
  · intro k
    rw [← htexts, ← List.map_take]
    exact records_take_spreadChars final hps_ne hps k

/-- The same objects are read from lines, from an array on one line and from an array on several lines, up to the
choice of fresh identifiers.  Of an array that was cut the objects are read that are completely there, and if anything
of one more is left, one more record is skipped. -/
theorem array_means_lines (objects : List Record) (hne : objects ≠ []) (hvalid : ∀ r ∈ objects, (Json.obj r).Valid)
    (hdepth : ∀ r ∈ objects, (Json.obj r).depth ≤ 126) (fresh : Nat → String) (final : Bool) :
    (∃ g report, decodeChars fresh (lineChars (objectTexts objects)) = .ok (g, report) ∧
        g.nodes.length = objects.length ∧ report.skipped = 0) ∧
      decodeChars fresh (arrayChars (objectTexts objects)) = decodeChars fresh (lineChars (objectTexts objects)) ∧
      decodeChars fresh (spreadChars final (objectTexts objects)) =
        decodeChars fresh (lineChars (objectTexts objects)) ∧
      (∀ k, decodeChars fresh ((spreadChars final (objectTexts objects)).take k) =
          withSkipped (broken (objectTexts objects) k)
            (decodeChars fresh (lineChars (objectTexts (objects.take (contained (objectTexts objects) k))))) ∧
        (contained (objectTexts objects) k = 0 →
          decodeChars fresh ((spreadChars final (objectTexts objects)).take k) = .error .noNodes)) ∧
      ∀ fresh' ρ, IsRenaming fresh fresh' ρ → Avoids fresh (records (lineChars (objectTexts objects))).2 →
        Avoids fresh' (records (lineChars (objectTexts objects))).2 → ∀ text,
        text = lineChars (objectTexts objects) ∨ text = arrayChars (objectTexts objects) ∨
          (∃ k, text = (spreadChars final (objectTexts objects)).take k) →
        decodeChars fresh' text = (decodeChars fresh text).map fun p => (p.1.rename ρ, p.2) := by
  obtain ⟨rs, hlength, hpart, harray, hcut⟩ := records_objectTexts hne hvalid hdepth final
  have hrs : rs ≠ [] := by
    rintro rfl
    exact hne (List.length_eq_zero_iff.1 hlength.symm)
  have hlines : records (lineChars (objectTexts objects)) = (0, rs) := by
    have hall := hpart objects.length
    rwa [List.take_length, ← hlength, List.take_length] at hall
  have hwhole : records (spreadChars final (objectTexts objects)) = (0, rs) := by
    have hall := hcut (spreadChars final (objectTexts objects)).length
    obtain ⟨hcontained, hbroken⟩ := @contained_of_length_le final (objectTexts objects) _ (Nat.le_refl _)
    rwa [List.take_length, hcontained, hbroken, objectTexts, List.length_map, ← hlength, List.take_length] at hall
  refine ⟨?_, ?_, ?_, ?_, ?_⟩
  · obtain ⟨g, report, hread, hnodes, hskipped⟩ := ofRecords_nodes fresh hrs
    refine ⟨g, report, ?_, by rw [hnodes, hlength], hskipped⟩
    rw [decodeChars, hlines]
    exact hread
  · rw [decodeChars, harray, decodeChars, hlines]
  · rw [decodeChars, hwhole, decodeChars, hlines]
  · intro k
    rw [decodeChars, hcut k, decodeChars, hpart]
    refine ⟨ofRecords_eq_withSkipped fresh _ _, fun hnone => ?_⟩
    rw [hnone]
    rfl
  · intro fresh' ρ hρ havoids havoids' text htext
    rw [hlines] at havoids havoids'
    have hrecords : ∀ r ∈ (records text).2, r ∈ rs := by
      intro r hr
      rcases htext with rfl | rfl | ⟨k, rfl⟩
      · rwa [hlines] at hr
      · rwa [harray] at hr
      · rw [hcut k] at hr
        exact List.mem_of_mem_take hr
    exact decodeChars_rename hρ (fun r hr => havoids r (hrecords r hr)) fun r hr => havoids' r (hrecords r hr)

/-- Two objects with brackets, commas and quotes in their strings. -/
private def lanterns : List Record :=
  [[("id", .str "a],["), ("x", .num (.int (-3)))],
    [("connectionIds", .arr [.str "a],["]), ("id", .str "\x7d,\"\x7b"),
     ("y", .num (.double (Float.ofBits 4599075939470750515)))]]

/-- An array of two objects means the same as two lines, and after a cut in the second object the first one is
left. -/
theorem array_means_lines_lanterns :
    decodeChars toString (arrayChars (objectTexts lanterns)) =
      decodeChars toString (lineChars (objectTexts lanterns)) ∧
      decodeChars toString ((spreadChars true (objectTexts lanterns)).take 50) =
        withSkipped 1 (decodeChars toString (lineChars (objectTexts (lanterns.take 1)))) := by
  have hvalid : ∀ r ∈ lanterns, (Json.obj r).Valid := by
    have hfinite : (Float.ofBits 4599075939470750515).isFinite = true := by decide +kernel
    simp [lanterns, Json.Valid, Json.FieldsValid, Json.ItemsValid, Json.Number.Valid, hfinite]
  have hdepth : ∀ r ∈ lanterns, (Json.obj r).depth ≤ 126 := by
    simp [lanterns, Json.depth, Json.fieldDepth, Json.itemDepth]
  obtain ⟨-, harray, -, hcut, -⟩ := array_means_lines lanterns (by simp [lanterns]) hvalid hdepth toString true
  have hcontained : contained (objectTexts lanterns) 50 = 1 := by decide +kernel
  have hbroken : broken (objectTexts lanterns) 50 = 1 := by decide +kernel
  have hpart := (hcut 50).1
  rw [hcontained, hbroken] at hpart
  exact ⟨harray, hpart⟩

end ScriptGraph.Document
