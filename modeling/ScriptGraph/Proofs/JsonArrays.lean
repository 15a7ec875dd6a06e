import ScriptGraph.Proofs.JsonText

/-!
# Arrays on several lines

Spaces between tokens do not matter (`Scans.space`, `Scans.join`), so an array whose items stand on lines of
their own has the tokens of the compact one (`ofChars?_array`) and is read as the same value (`parse?_array`).  A
comma after the last item makes it no value at all (`parse?_array_comma`).
-/

namespace ScriptGraph.Json

open Token (scan isSpace isWordChar)

/-! ### Spaces -/

private theorem start_of_isSpace {c : Char} (h : isSpace c = true) : Token.Scan.start c = some ([], .between) := by
  rw [Token.Scan.start, if_pos h]

private theorem isWordChar_of_isSpace {c : Char} (h : isSpace c = true) : isWordChar c = false := by
  simp only [isSpace, Bool.or_eq_true, beq_iff_eq] at h
  rcases h with ((rfl | rfl) | rfl) | rfl <;> decide

theorem scan_space {gap : List Char} (h : ∀ c ∈ gap, isSpace c = true) (rest : List Char) :
    scan .between (gap ++ rest) = scan .between rest := by
  induction gap with
  | nil => rfl
  | cons c gap ih =>
    rw [List.cons_append, scan, start_of_isSpace (h c (by simp))]
    simp only [List.nil_append, Option.map_id']
    exact ih fun d hd => h d (by simp [hd])

/-- Spaces before a text add no tokens. -/
theorem Scans.space {gap text : List Char} {tokens : List Token} (h : Scans text tokens)
    (hgap : ∀ c ∈ gap, isSpace c = true) : Scans (gap ++ text) tokens := by
  intro rest hrest
  rw [List.append_assoc, scan_space hgap, h rest hrest]

private theorem EndsWord.space {gap rest : List Char} (h : EndsWord rest) (hgap : ∀ c ∈ gap, isSpace c = true) :
    EndsWord (gap ++ rest) := by
  cases gap with
  | nil => exact h
  | cons c gap => exact endsWord_cons (isWordChar_of_isSpace (hgap c (by simp))) _

/-- Texts with commas and spaces between them. -/
theorem Scans.join {gap : List Char} (hgap : ∀ c ∈ gap, isSpace c = true) :
    ∀ ps : List (List Char × List Token), ps ≠ [] → (∀ p ∈ ps, Scans p.1 p.2) →
      Scans ((',' :: gap).intercalate (ps.map (·.1))) ([Token.comma].intercalate (ps.map (·.2)))
  | [], hne, _ => absurd rfl hne
  | [p], _, h => by simpa using h p (by simp)
  | p :: q :: rest, _, h => by
    have hrest := Scans.join hgap (q :: rest) (by simp) fun r hr => h r (by simp [hr])
    have hjoin := @Scans.between _ _ _ _ ',' .comma (h p (by simp)) (hrest.space hgap) rfl rfl
    simpa using hjoin

/-! ### Arrays -/

/-- The tokens of an array whose items are read. -/
theorem ofChars?_array {gap : List Char} (hgap : ∀ c ∈ gap, isSpace c = true) {ps : List (List Char × List Token)}
    (hne : ps ≠ []) (h : ∀ p ∈ ps, Scans p.1 p.2) (final : Bool) :
    Token.ofChars? ('[' :: (gap ++ ((',' :: gap).intercalate (ps.map (·.1)) ++
        ((if final then [','] else []) ++ (gap ++ [']']))))) =
      some (.openArray :: ([Token.comma].intercalate (ps.map (·.2)) ++
        ((if final then [Token.comma] else []) ++ [.closeArray]))) := by
  have hclose : scan .between (gap ++ [']']) = some [.closeArray] := by
    rw [scan_space hgap, scan_mark (t := .closeArray) rfl, scan]
    rfl
  have hend : scan .between ((if final then [','] else []) ++ (gap ++ [']'])) =
      some ((if final then [Token.comma] else []) ++ [.closeArray]) := by
    cases final with
    | false => exact hclose
    | true =>
      rw [if_pos rfl, if_pos rfl, List.singleton_append, scan_mark (t := .comma) rfl, hclose]
      rfl
  have hword : EndsWord ((if final then [','] else []) ++ (gap ++ [']'])) := by
    cases final with
    | false =>
      rw [if_neg Bool.false_ne_true, List.nil_append]
      exact EndsWord.space (endsWord_cons rfl []) hgap
    | true => exact endsWord_cons rfl _
  rw [Token.ofChars?, scan_mark (t := .openArray) rfl, scan_space hgap, Scans.join hgap ps hne h _ hword, hend]
  rfl

theorem commaChars_eq (texts : List (List Char)) : commaChars texts = [','].intercalate texts := by
  induction texts with
  | nil => rfl
  | cons text texts ih =>
    cases texts with
    | nil => simp [commaChars]
    | cons text' texts => rw [commaChars, ih, List.intercalate_cons_cons, List.append_assoc, List.singleton_append]

private theorem exists_scans {depth : Nat} {items : List (List Char × Json)} (h : ∀ p ∈ items, Reads p.1 p.2 depth) :
    ∃ ps : List (List Char × List Token), ps.map (·.1) = items.map (·.1) ∧ ∀ p ∈ ps, Scans p.1 p.2 := by
  induction items with
  | nil => exact ⟨[], rfl, by simp⟩
  | cons p items ih =>
    obtain ⟨t, ts, hscan, -⟩ := h p (by simp)
    obtain ⟨ps, htexts, hscans⟩ := ih fun q hq => h q (by simp [hq])
    refine ⟨(p.1, t :: ts) :: ps, by rw [List.map_cons, List.map_cons, htexts], ?_⟩
    intro q hq
    rcases List.mem_cons.1 hq with rfl | hq
    · exact hscan
    · exact hscans q hq

section Items

variable {gap : List Char} {depth : Nat} {items : List (List Char × Json)}

/-- An array is read, with spaces between its tokens or without. -/
theorem parse?_array (hgap : ∀ c ∈ gap, isSpace c = true) (hne : items ≠ [])
    (h : ∀ p ∈ items, Reads p.1 p.2 depth) (hdepth : depth < Expecting.maxDepth) :
    parse? ('[' :: (gap ++ ((',' :: gap).intercalate (items.map (·.1)) ++ (gap ++ [']'])))) =
      some (.arr (items.map (·.2))) := by
  obtain ⟨ps, htexts, hscans⟩ := exists_scans h
  have hps : ps ≠ [] := by
    rintro rfl
    exact hne (List.map_eq_nil_iff.1 htexts.symm)
  have hcompact := (reads_array items h).parse (Nat.succ_le_of_lt hdepth)
  have htokens := ofChars?_array hgap hps hscans false
  have htokens' := @ofChars?_array [] (by simp) ps hps hscans false
  simp only [Bool.false_eq_true, if_false, List.nil_append] at htokens htokens'
  rw [htexts] at htokens htokens'
  rw [commaChars_eq, List.cons_append] at hcompact
  rw [parse?, htokens, ← htokens', ← parse?]
  exact hcompact

/-- After a comma the array may not end. -/
theorem parse?_array_comma (hgap : ∀ c ∈ gap, isSpace c = true) (hne : items ≠ [])
    (h : ∀ p ∈ items, Reads p.1 p.2 depth) :
    parse? ('[' :: (gap ++ ((',' :: gap).intercalate (items.map (·.1)) ++ ([','] ++ (gap ++ [']']))))) = none := by
  obtain ⟨ps, htexts, hscans⟩ := exists_scans h
  have hps : ps ≠ [] := by
    rintro rfl
    exact hne (List.map_eq_nil_iff.1 htexts.symm)
  have hnext : ∀ state : Expecting, [Token.comma, Token.closeArray].foldlM Expecting.next state = none := by
    intro state
    cases state <;> rfl
  have htokens := ofChars?_array hgap hps hscans true
  simp only [if_true, htexts] at htokens
  have hfold : (Token.openArray :: ([Token.comma].intercalate (ps.map (·.2)) ++ [.comma, .closeArray])).foldlM
      Expecting.next (.value []) = none := by
    rw [← List.cons_append, List.foldlM_append]
    cases (Token.openArray :: [Token.comma].intercalate (ps.map (·.2))).foldlM Expecting.next (.value []) with
    | none => rfl
    | some state => exact hnext state
  rw [parse?, htokens]
  exact (congrArg (Option.bind · _) hfold).trans rfl

end Items

end ScriptGraph.Json
