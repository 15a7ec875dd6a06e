import Mathlib.Data.List.Forall2
import Mathlib.Data.List.Induction
import ScriptGraph.Document
import ScriptGraph.Proofs.JsonText
import ScriptGraph.Proofs.Trimming

/-!
# The lines of a document

The records of a text are the objects on its lines, each line read for itself (`records_eq`).  It does not matter that
blanks around the whole text are removed first: a blank belongs to one line, and cleaning removes it there as well
(`lineRecords_trimChars`).  A record is written as one line between braces and without control characters
(`IsRecordLine`), which cleaning leaves as it is, so a document of such lines is read as their objects
(`records_flatMap`).
-/

namespace ScriptGraph

/-! ### Cutting -/

namespace Text

theorem splitOn_cons (c : Char) (text : List Char) :
    (c :: text).splitOn '\n' =
      if c = '\n' then [] :: text.splitOn '\n' else (text.splitOn '\n').modifyHead (c :: ·) := by
  simp [List.splitOn_eq_splitOnP, List.splitOnP_cons_eq_if_modifyHead]

theorem splitOn_of_not_mem {piece : List Char} (h : '\n' ∉ piece) : piece.splitOn '\n' = [piece] := by
  rw [List.splitOn_eq_splitOnP, List.splitOnP_eq_singleton]
  intro c hc
  rw [beq_eq_false_iff_ne]
  rintro rfl
  exact h hc

theorem splitOn_append_newline {piece : List Char} (h : '\n' ∉ piece) (rest : List Char) :
    (piece ++ '\n' :: rest).splitOn '\n' = piece :: rest.splitOn '\n' := by
  induction piece with
  | nil => rw [List.nil_append, splitOn_cons, if_pos rfl]
  | cons c piece ih =>
    rw [List.mem_cons, not_or] at h
    rw [List.cons_append, splitOn_cons, if_neg (Ne.symm h.1), ih h.2, List.modifyHead_cons]

/-- Lines that are ended by newlines are cut apart again, with nothing after the last one. -/
theorem splitOn_flatMap {pieces : List (List Char)} (h : ∀ piece ∈ pieces, '\n' ∉ piece) :
    (pieces.flatMap fun piece => piece ++ ['\n']).splitOn '\n' = pieces ++ [[]] := by
  induction pieces with
  | nil => rfl
  | cons piece pieces ih =>
    rw [List.flatMap_cons, List.append_assoc, List.singleton_append, splitOn_append_newline (h piece (by simp)),
      ih fun p hp => h p (by simp [hp]), List.cons_append]

/-- A character at the end of a text that is no newline stands at the end of the last piece. -/
theorem splitOn_concat {c : Char} (h : c ≠ '\n') (text : List Char) :
    ∃ front last, text.splitOn '\n' = front ++ [last] ∧ (text ++ [c]).splitOn '\n' = front ++ [last ++ [c]] := by
  induction text with
  | nil => exact ⟨[], [], rfl, by simp [splitOn_cons, h]⟩
  | cons d text ih =>
    obtain ⟨front, last, hbefore, hafter⟩ := ih
    rw [List.cons_append, splitOn_cons, splitOn_cons, hbefore, hafter]
    by_cases hd : d = '\n'
    · exact ⟨[] :: front, last, by simp [hd], by simp [hd]⟩
    · cases front with
      | nil => exact ⟨[], d :: last, by simp [hd], by simp [hd]⟩
      | cons piece front => exact ⟨(d :: piece) :: front, last, by simp [hd], by simp [hd]⟩

theorem splitOn_concat_newline (text : List Char) :
    (text ++ ['\n']).splitOn '\n' = text.splitOn '\n' ++ [[]] := by
  induction text with
  | nil => rfl
  | cons d text ih =>
    rw [List.cons_append, splitOn_cons, splitOn_cons, ih]
    by_cases hd : d = '\n'
    · simp [hd]
    · cases hpieces : text.splitOn '\n' with
      | nil => exact absurd hpieces (List.splitOnP_ne_nil _ _)
      | cons piece pieces => simp [hd]

/-- The lines of a text are its pieces between newlines, up to a carriage return at the end of a piece and an empty
piece at the end. -/
private theorem lines_splitOn (text : List Char) :
    ∃ ls, List.Forall₂ (fun l piece => piece = l ∨ piece = l ++ ['\r']) ls (text.splitOn '\n') ∧
      (ls = lines text ∨ ls = lines text ++ [[]]) := by
  induction text using lines.induct with
  | case1 => exact ⟨[[]], .cons (.inl rfl) .nil, .inr rfl⟩
  | case2 rest ih =>
    obtain ⟨ls, hls, hlines⟩ := ih
    refine ⟨[] :: ls, ?_, ?_⟩
    · rw [splitOn_cons, if_pos rfl]
      exact .cons (.inl rfl) hls
    · rw [lines]
      rcases hlines with rfl | rfl
      · exact .inl rfl
      · exact .inr rfl
  | case3 rest ih =>
    obtain ⟨ls, hls, hlines⟩ := ih
    refine ⟨[] :: ls, ?_, ?_⟩
    · rw [splitOn_cons, splitOn_cons, if_neg (by decide), if_pos rfl]
      exact .cons (.inr rfl) hls
    · rw [lines]
      rcases hlines with rfl | rfl
      · exact .inl rfl
      · exact .inr rfl
  -- a character goes to the line after it, which is a new one at the end of the text
  | case4 c rest hnewline _ hnone ih =>
    obtain ⟨ls, hls, hlines⟩ := ih
    rw [hnone] at hlines
    rw [splitOn_cons, if_neg hnewline]
    rcases hlines with rfl | rfl
    · rw [List.forall₂_nil_left_iff] at hls
      exact absurd hls (List.splitOnP_ne_nil _ _)
    · obtain ⟨piece, pieces, hpiece, hpieces, heq⟩ := List.forall₂_cons_left_iff.1 hls
      rw [heq]
      exact ⟨[[c]], .cons (hpiece.imp (congrArg (c :: ·)) (congrArg (c :: ·))) hpieces, .inl (by simp_all [lines])⟩
  | case5 c rest hnewline _ line others hsome ih =>
    obtain ⟨ls, hls, hlines⟩ := ih
    rw [hsome] at hlines
    have hcons : lines (c :: rest) = (c :: line) :: others := by
      simp_all [lines]
    rw [splitOn_cons, if_neg hnewline, hcons]
    rcases hlines with rfl | rfl <;> obtain ⟨piece, pieces, hpiece, hpieces, heq⟩ := List.forall₂_cons_left_iff.1 hls
    · rw [heq]
      exact ⟨_, .cons (hpiece.imp (congrArg (c :: ·)) (congrArg (c :: ·))) hpieces, .inl rfl⟩
    · rw [heq]
      exact ⟨_, .cons (hpiece.imp (congrArg (c :: ·)) (congrArg (c :: ·))) hpieces, .inr rfl⟩

end Text

/-! ### Text without control characters -/

namespace Json

theorem plain_of_isWordChar {c : Char} (h : Token.isWordChar c = true) : 32 ≤ c.toNat := by
  have hcontrol : ∀ n < 32, Token.isWordChar (Char.ofNat n) = false := by decide
  by_cases hlt : c.toNat < 32
  · have hfalse := hcontrol c.toNat hlt
    rw [Char.ofNat_toNat, h] at hfalse
    cases hfalse
  · exact Nat.not_lt.1 hlt

theorem plain_stringChars (s : String) : ∀ c ∈ stringChars s, 32 ≤ c.toNat := by
  have hinside : ∀ c ∈ s.toList.flatMap escapeChar, 32 ≤ c.toNat := by
    intro c hc
    obtain ⟨d, -, hd⟩ := List.mem_flatMap.1 hc
    exact plain_escapeChar d c hd
  intro c hc
  simp only [stringChars, List.cons_append, List.mem_cons, List.mem_append, List.not_mem_nil, or_false] at hc
  rcases hc with rfl | hc | rfl
  · decide
  · exact hinside c hc
  · decide

theorem plain_commaChars {texts : List (List Char)} (h : ∀ text ∈ texts, ∀ c ∈ text, 32 ≤ c.toNat) :
    ∀ c ∈ commaChars texts, 32 ≤ c.toNat := by
  intro c hc
  induction texts with
  | nil => simp [commaChars] at hc
  | cons text texts ih =>
    cases texts with
    | nil => exact h text (by simp) c hc
    | cons text' texts =>
      simp only [commaChars, List.mem_append, List.mem_cons] at hc
      rcases hc with hc | rfl | hc
      · exact h text (by simp) c hc
      · decide
      · exact ih (fun t ht => h t (by simp [ht])) hc

end Json

/-! ### Records -/

namespace Document

/-- The object on a line, if there is one. -/
def lineRecord? (line : List Char) : Option Record :=
  match Json.parse? (cleanLine line) with
  | some (.obj r) => some r
  | _ => none

/-- Whether there is something on a line, but no object. -/
def isGarbage (line : List Char) : Bool :=
  !(cleanLine line).isEmpty && (lineRecord? line).isNone

theorem cleanLine_eq (line : List Char) :
    cleanLine line = Text.trimChars ((Text.trimChars (((Text.trimChars line).dropWhile (· == '[')).rdropWhile
      (· == ']'))).rdropWhile (· == ',')) := by
  rw [cleanLine, Text.dropFinal_eq, Text.dropFinal_eq]

private theorem cleanLine_cons_of_isBlank {c : Char} (h : Text.isBlank c = true) (line : List Char) :
    cleanLine (c :: line) = cleanLine line := by
  rw [cleanLine, Text.trimChars_cons_of_isBlank h, cleanLine]

private theorem cleanLine_concat_of_isBlank {c : Char} (h : Text.isBlank c = true) (line : List Char) :
    cleanLine (line ++ [c]) = cleanLine line := by
  rw [cleanLine, Text.trimChars_concat_of_isBlank h, cleanLine]

/-- How many of some lines hold something that is no object, and the objects on the others. -/
def recordsOn (ls : List (List Char)) : Nat × List Record :=
  (ls.countP isGarbage, ls.filterMap lineRecord?)

private theorem recordsOn_append (ls ls' : List (List Char)) :
    recordsOn (ls ++ ls') = ((recordsOn ls).1 + (recordsOn ls').1, (recordsOn ls).2 ++ (recordsOn ls').2) := by
  simp [recordsOn]

theorem recordsOn_cons (l : List Char) (ls : List (List Char)) :
    recordsOn (l :: ls) = ((recordsOn [l]).1 + (recordsOn ls).1, (recordsOn [l]).2 ++ (recordsOn ls).2) :=
  recordsOn_append [l] ls

theorem recordsOn_nil : recordsOn [[]] = (0, []) := rfl

private theorem recordsOn_concat_nil (ls : List (List Char)) : recordsOn (ls ++ [[]]) = recordsOn ls := by
  rw [recordsOn_append, recordsOn_nil, Nat.add_zero, List.append_nil]

private theorem recordsOn_congr {l l' : List Char} (h : cleanLine l = cleanLine l') :
    recordsOn [l] = recordsOn [l'] := by
  have hrecord : lineRecord? l = lineRecord? l' := by rw [lineRecord?, h, lineRecord?]
  have hgarbage : isGarbage l = isGarbage l' := by rw [isGarbage, h, hrecord, isGarbage]
  simp only [recordsOn, List.countP_singleton, List.filterMap_cons, List.filterMap_nil, hrecord, hgarbage]

private theorem selectRecords_cleanLine (ls : List (List Char)) :
    selectRecords (((ls.map cleanLine).filter (!·.isEmpty)).map Json.parse?) = recordsOn ls := by
  induction ls with
  | nil => rfl
  | cons l ls ih =>
    rw [recordsOn_cons, ← ih]
    cases hempty : (cleanLine l).isEmpty with
    | true =>
      have hnone : recordsOn [l] = recordsOn [[]] := recordsOn_congr (List.isEmpty_iff.1 hempty)
      simp [hempty, hnone, recordsOn_nil]
    | false =>
      simp only [List.map_cons, List.filter_cons, hempty, Bool.not_false, if_true, selectRecords, recordsOn,
        List.countP_cons, List.countP_nil, List.filterMap_cons, List.filterMap_nil, isGarbage, Bool.true_and]
      cases hvalue : Json.parse? (cleanLine l) with
      | none => simp [lineRecord?, hvalue, Nat.add_comm]
      | some v => cases v <;> simp [lineRecord?, hvalue, Nat.add_comm]

/-- The records of a text are the objects on its lines. -/
theorem lineRecords_eq (text : List Char) : lineRecords text = recordsOn (text.splitOn '\n') := by
  obtain ⟨ls, hls, hlines⟩ := Text.lines_splitOn text
  have hpieces : recordsOn ls = recordsOn (text.splitOn '\n') := by
    clear hlines
    generalize text.splitOn '\n' = pieces at hls
    induction hls with
    | nil => rfl
    | @cons l piece ls pieces hpiece _ ih =>
      have hclean : cleanLine l = cleanLine piece := by
        rcases hpiece with rfl | rfl
        · rfl
        · rw [cleanLine_concat_of_isBlank (by decide)]
      rw [recordsOn_cons, recordsOn_congr hclean, ih, ← recordsOn_cons]
  rw [lineRecords, selectRecords_cleanLine, ← hpieces]
  rcases hlines with rfl | rfl
  · rfl
  · exact (recordsOn_concat_nil _).symm

/-- Blanks around a text do not matter for its records. -/
theorem lineRecords_trimChars (text : List Char) : lineRecords (Text.trimChars text) = lineRecords text := by
  refine Text.eq_of_trimChars ?_ ?_ text
  · intro c text hc
    rw [lineRecords_eq, lineRecords_eq, Text.splitOn_cons]
    split
    · rw [recordsOn_cons, recordsOn_nil, Nat.zero_add, List.nil_append]
    · cases text.splitOn '\n' with
      | nil => rfl
      | cons piece pieces =>
        rw [List.modifyHead_cons, recordsOn_cons, recordsOn_congr (cleanLine_cons_of_isBlank hc piece),
          ← recordsOn_cons]
  · intro c text hc
    rw [lineRecords_eq, lineRecords_eq]
    by_cases hnewline : c = '\n'
    · rw [hnewline, Text.splitOn_concat_newline, recordsOn_concat_nil]
    · obtain ⟨front, last, hbefore, hafter⟩ := Text.splitOn_concat hnewline text
      rw [hbefore, hafter, recordsOn_append, recordsOn_congr (cleanLine_concat_of_isBlank hc last),
        ← recordsOn_append]

/-- A text that does not begin with a bracket is read line by line. -/
theorem records_eq {text : List Char} (h : (Text.trimChars text).head? ≠ some '[') :
    records text = recordsOn (text.splitOn '\n') := by
  have hhead : ¬((Text.trimChars text).head? == some '[') = true := by simpa using h
  rw [← lineRecords_eq, ← lineRecords_trimChars, records, if_neg hhead]

/-- The first character of a text that is no blank is the first one on one of its lines. -/
theorem exists_line_of_head? {text : List Char} {c : Char} (h : (Text.trimChars text).head? = some c) :
    ∃ line ∈ text.splitOn '\n', (Text.trimChars line).head? = some c := by
  simp only [Text.head?_trimChars] at h ⊢
  induction text with
  | nil => simp at h
  | cons d text ih =>
    rw [Text.splitOn_cons]
    by_cases hblank : Text.isBlank d = true
    · rw [List.find?_cons_of_neg (by simp [hblank])] at h
      obtain ⟨line, hline, hc⟩ := ih h
      split
      · exact ⟨line, by simp [hline], hc⟩
      · cases hpieces : text.splitOn '\n' with
        | nil => simp [hpieces] at hline
        | cons piece pieces =>
          rw [hpieces, List.mem_cons] at hline
          rcases hline with rfl | hline
          · exact ⟨d :: line, by simp, by rw [List.find?_cons_of_neg (by simp [hblank]), hc]⟩
          · exact ⟨line, by simp [hline], hc⟩
    · rw [List.find?_cons_of_pos (by simpa using hblank)] at h
      have hd : d ≠ '\n' := by
        rintro rfl
        exact hblank (by decide)
      rw [if_neg hd]
      cases hpieces : text.splitOn '\n' with
      | nil => exact absurd hpieces (List.splitOnP_ne_nil _ _)
      | cons piece pieces =>
        exact ⟨d :: piece, by simp, by rw [List.find?_cons_of_pos (by simpa using hblank), h]⟩

/-! ### Records as they are written -/

/-- A text between braces and without control characters, as a record is written. -/
structure IsRecordLine (line : List Char) : Prop where
  braced : ∃ inside, line = '{' :: inside ++ ['}']
  plain : ∀ c ∈ line, 32 ≤ c.toNat

namespace IsRecordLine

variable {line : List Char}

theorem newline (h : IsRecordLine line) : '\n' ∉ line :=
  fun hmem => absurd (h.plain _ hmem) (by decide)

/-- Cleaning leaves a record as it is. -/
theorem clean (h : IsRecordLine line) : cleanLine line = line := by
  obtain ⟨inside, rfl⟩ := h.braced
  have htrim := Text.trimChars_of_ends (show Text.isBlank '{' = false by decide)
    (show Text.isBlank '}' = false by decide) inside
  have hopen : ('{' :: inside ++ ['}']).dropWhile (· == '[') = '{' :: inside ++ ['}'] := by simp
  have hclose : ('{' :: inside ++ ['}']).rdropWhile (· == ']') = '{' :: inside ++ ['}'] :=
    List.rdropWhile_concat_neg _ _ _ (by decide)
  have hcomma : ('{' :: inside ++ ['}']).rdropWhile (· == ',') = '{' :: inside ++ ['}'] :=
    List.rdropWhile_concat_neg _ _ _ (by decide)
  rw [cleanLine_eq, htrim, hopen, hclose, htrim, hcomma, htrim]

theorem head? (h : IsRecordLine line) : (Text.trimChars line).head? = some '{' := by
  obtain ⟨inside, rfl⟩ := h.braced
  rw [Text.trimChars_of_ends (by decide) (by decide)]
  rfl

end IsRecordLine

/-- The records of a document that has one object on each line are these objects. -/
theorem records_flatMap {ps : List (List Char × Record)} (hne : ps ≠ []) (hline : ∀ p ∈ ps, IsRecordLine p.1)
    (hparse : ∀ p ∈ ps, Json.parse? p.1 = some (.obj p.2)) :
    records (ps.flatMap fun p => p.1 ++ ['\n']) = (0, ps.map (·.2)) := by
  have hnewline : ∀ line ∈ ps.map (·.1), '\n' ∉ line := by
    intro line hl
    obtain ⟨p, hp, rfl⟩ := List.mem_map.1 hl
    exact (hline p hp).newline
  have hlines : (ps.flatMap fun p => p.1 ++ ['\n']).splitOn '\n' = ps.map (·.1) ++ [[]] := by
    rw [← Text.splitOn_flatMap hnewline, List.flatMap_map]
  have hrecord : ∀ p ∈ ps, lineRecord? p.1 = some p.2 := by
    intro p hp
    rw [lineRecord?, (hline p hp).clean, hparse p hp]
  have hhead : (Text.trimChars (ps.flatMap fun p => p.1 ++ ['\n'])).head? ≠ some '[' := by
    obtain ⟨p, ps, rfl⟩ := List.exists_cons_of_ne_nil hne
    obtain ⟨inside, hinside⟩ := (hline p (by simp)).braced
    rw [Text.head?_trimChars, List.flatMap_cons, hinside]
    simp [show Text.isBlank '{' = false by decide]
  have hgarbage : (ps.map (·.1)).countP isGarbage = 0 := by
    rw [List.countP_map, List.countP_eq_zero]
    intro p hp
    rw [Function.comp_apply, isGarbage, hrecord p hp]
    simp
  have hrecords : (ps.map (·.1)).filterMap lineRecord? = ps.map (·.2) := by
    rw [List.filterMap_map, ← List.filterMap_eq_map']
    apply List.filterMap_congr
    intro p hp
    rw [Function.comp_apply, hrecord p hp]
  rw [records_eq hhead, hlines, recordsOn_concat_nil, recordsOn, hgarbage, hrecords]

end Document

end ScriptGraph
