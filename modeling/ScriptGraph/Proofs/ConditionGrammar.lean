import Mathlib.Data.List.Infix
import ScriptGraph.Condition
import ScriptGraph.Proofs.FloatOrder
import ScriptGraph.Proofs.Trimming

/-!
# The grammar of conditions

What a condition says depends on its trimmed text alone, and each of the four forms has texts of its own
(`Condition.grammar`).  An equality is cut at the first `==`, searched from the left, so its left side does not end
with another `=` (`Text.cut_eq_some_iff`), and its right side has no `==` any more.  A text with several of them is no
equality, but it is still a comparison if it has exactly one `>`.

For sides without `=` and `>` there is only one place to cut, with or without blanks (`parse_equality`,
`parse_comparison`), so both operations can be read off their trimmed sides.
-/

namespace ScriptGraph

/-! ### Cutting at a separator -/

namespace Text

variable {separator text left right : List Char}

theorem cut_eq_none_iff (hne : separator ≠ []) : cut separator text = none ↔ ¬separator <:+: text := by
  induction text with
  | nil => simp [cut, hne]
  | cons c rest ih =>
    rw [cut, List.infix_cons_iff, ← List.isPrefixOf_iff_prefix]
    split
    · next h => simp [h]
    · next h => simp [h, ih]

private theorem prefix_of_cut (separator left right : List Char) :
    left ++ separator.dropLast <+: left ++ separator ++ right := by
  rw [List.append_assoc, List.prefix_append_right_inj]
  exact (List.dropLast_prefix _).trans (List.prefix_append ..)

/-- A text is cut where the separator occurs for the first time: not even the end of the left side is the start of an
earlier place. -/
theorem cut_eq_some_iff (hne : separator ≠ []) :
    cut separator text = some (left, right) ↔
      text = left ++ separator ++ right ∧ ¬separator <:+: left ++ separator.dropLast := by
  have hlength : separator.dropLast.length < separator.length := by
    have := List.length_pos_iff.2 hne
    rw [List.length_dropLast]
    omega
  induction text generalizing left with
  | nil => simp [cut, hne]
  | cons c rest ih =>
    rw [cut]
    split
    · next h =>
      -- the separator is right at the start, so the left side is empty
      rw [List.isPrefixOf_iff_prefix] at h
      constructor
      · intro hcut
        obtain ⟨rfl, rfl⟩ := Prod.mk.inj (Option.some.inj hcut)
        refine ⟨by rw [List.nil_append, List.prefix_iff_eq_append.1 h], fun hpart => ?_⟩
        have := hpart.length_le
        rw [List.nil_append] at this
        omega
      · rintro ⟨htext, hfirst⟩
        cases left with
        | nil => simp [htext]
        | cons d left =>
          have hlong : separator.length ≤ (d :: left ++ separator.dropLast).length := by simp; omega
          have hstart : d :: left ++ separator.dropLast <+: c :: rest := htext ▸ prefix_of_cut separator _ right
          exact absurd (List.prefix_of_prefix_length_le h hstart hlong).isInfix hfirst
    · next h =>
      rw [List.isPrefixOf_iff_prefix] at h
      constructor
      · intro hcut
        obtain ⟨⟨left', right'⟩, hcut', ⟨⟩⟩ := Option.map_eq_some_iff.1 hcut
        obtain ⟨htext, hfirst⟩ := ih.1 hcut'
        dsimp only at *
        refine ⟨by rw [htext]; rfl, fun hpart => ?_⟩
        rcases List.infix_cons_iff.1 hpart with hstart | hpart
        · have hsource : c :: left' ++ separator.dropLast <+: c :: rest :=
            htext ▸ prefix_of_cut separator (c :: left') right'
          exact h (hstart.trans hsource)
        · exact hfirst hpart
      · rintro ⟨htext, hfirst⟩
        cases left with
        | nil => exact absurd ⟨right, by rw [htext]; rfl⟩ h
        | cons d left =>
          obtain ⟨rfl, hrest⟩ := List.cons.inj htext
          refine Option.map_eq_some_iff.2 ⟨(left, right), ih.2 ⟨hrest, fun hpart => ?_⟩, rfl⟩
          exact hfirst (List.infix_cons hpart)

theorem pair_eq_some_iff (hne : separator ≠ []) :
    pair separator text = some (left, right) ↔
      text = left ++ separator ++ right ∧ ¬separator <:+: left ++ separator.dropLast ∧ ¬separator <:+: right := by
  rw [← and_assoc, ← cut_eq_some_iff hne, ← cut_eq_none_iff hne, pair]
  constructor
  · intro h
    split at h
    · next hcut =>
      split at h
      · next hnone =>
        obtain ⟨rfl, rfl⟩ := Prod.mk.inj (Option.some.inj h)
        exact ⟨hcut, Option.isNone_iff_eq_none.1 hnone⟩
      · cases h
    · cases h
  · rintro ⟨hcut, hnone⟩
    rw [hcut]
    dsimp only
    rw [if_pos (Option.isNone_iff_eq_none.2 hnone)]

end Text

namespace Condition

/-! ### The forms of a condition -/

/-- A text that is a truth value, in any case of its letters. -/
def IsLiteral (text : List Char) (value : Bool) : Prop :=
  text.map Text.asciiLower = (if value then "true" else "false").toList

/-- A text that is an equality of two sides. -/
structure IsEquality (text left right : List Char) : Prop where
  text_eq : text = left ++ ['=', '='] ++ right
  left_free : ¬['=', '='] <:+: left
  left_end : left.getLast? ≠ some '='
  right_free : ¬['=', '='] <:+: right

/-- A text that is a comparison of two sides. -/
structure IsComparison (text left right : List Char) : Prop where
  text_eq : text = left ++ ['>'] ++ right
  once : text.count '>' = 1

private theorem infix_concat_iff {left : List Char} :
    ['=', '='] <:+: left ++ ['='] ↔ ['=', '='] <:+: left ∨ left.getLast? = some '=' := by
  rw [List.infix_concat_iff, or_comm]
  have hsuffix : ['=', '='] <:+ left ++ ['='] ↔ left.getLast? = some '=' := by
    constructor
    · rintro ⟨before, h⟩
      have hconcat : (before ++ ['=']) ++ ['='] = left ++ ['='] := by simpa using h
      have hleft : before ++ ['='] = left := List.append_inj_left' hconcat rfl
      simp [← hleft]
    · intro h
      obtain ⟨before, rfl⟩ := List.getLast?_eq_some_iff.1 h
      exact ⟨before, by simp⟩
  rw [hsuffix]

theorem pair_equality_iff {text left right : List Char} :
    Text.pair ['=', '='] text = some (left, right) ↔ IsEquality text left right := by
  rw [Text.pair_eq_some_iff (by simp), List.dropLast_cons_cons, List.dropLast_singleton, infix_concat_iff, not_or]
  constructor
  · rintro ⟨htext, ⟨hfree, hend⟩, hright⟩
    exact ⟨htext, hfree, hend, hright⟩
  · rintro ⟨htext, hfree, hend, hright⟩
    exact ⟨htext, ⟨hfree, hend⟩, hright⟩

theorem pair_comparison_iff {text left right : List Char} :
    Text.pair ['>'] text = some (left, right) ↔ IsComparison text left right := by
  rw [Text.pair_eq_some_iff (by simp), List.dropLast_singleton, List.append_nil, List.singleton_infix_iff,
    List.singleton_infix_iff, ← List.count_eq_zero, ← List.count_eq_zero]
  constructor
  · rintro ⟨rfl, hleft, hright⟩
    exact ⟨rfl, by simp [hleft, hright]⟩
  · rintro ⟨rfl, honce⟩
    simp only [List.count_append, List.count_singleton_self] at honce
    exact ⟨rfl, by omega, by omega⟩

theorem exists_isComparison_iff {text : List Char} :
    (∃ left right, IsComparison text left right) ↔ text.count '>' = 1 := by
  constructor
  · rintro ⟨left, right, h⟩
    exact h.once
  · intro honce
    have hmem : '>' ∈ text := List.count_pos_iff.1 (by omega)
    obtain ⟨left, right, htext⟩ := List.append_of_mem hmem
    exact ⟨left, right, by simpa using htext, honce⟩

/-! ### Parsing -/

theorem boolean_eq_some_iff {e : String} {value : Bool} :
    Reading.boolean e = some value ↔ IsLiteral (Text.trimChars e.toList) value := by
  have hsame (word : String) (hword : word.toList.map Text.asciiLower = word.toList) :
      Text.isSameIgnoringAsciiCase (Text.trim e) word = true ↔
        (Text.trimChars e.toList).map Text.asciiLower = word.toList := by
    rw [Text.isSameIgnoringAsciiCase, beq_iff_eq, hword, Text.trim, String.toList_ofList]
  have htrue := hsame "true" (by decide)
  have hfalse := hsame "false" (by decide)
  have hne : "true".toList ≠ "false".toList := by decide
  rw [Reading.boolean, IsLiteral]
  cases value <;> grind

/-- A truth value has no operator in it. -/
theorem IsLiteral.not_mem {text : List Char} {value : Bool} (h : IsLiteral text value) :
    '=' ∉ text ∧ '>' ∉ text := by
  have hword (c : Char) (hc : c ∈ text) : Text.asciiLower c ∈ (if value then "true" else "false").toList := by
    rw [← h]
    exact List.mem_map_of_mem hc
  constructor
  · intro hc
    have := hword '=' hc
    cases value <;> revert this <;> decide
  · intro hc
    have := hword '>' hc
    cases value <;> revert this <;> decide

theorem IsEquality.not_isLiteral {text left right : List Char} (h : IsEquality text left right) (value : Bool) :
    ¬IsLiteral text value := by
  intro hliteral
  exact hliteral.not_mem.1 (by simp [h.text_eq])

variable {e : String} {left right : List Char}

private theorem boolean_eq_none (h : ∀ value, ¬IsLiteral (Text.trimChars e.toList) value) :
    Reading.boolean e = none :=
  Option.eq_none_iff_forall_ne_some.2 fun value hsome => h value (boolean_eq_some_iff.1 hsome)

theorem parse_of_isLiteral {value : Bool} (h : IsLiteral (Text.trimChars e.toList) value) :
    parse e = .literal value := by
  rw [parse, boolean_eq_some_iff.2 h]

theorem parse_of_isEquality (h : IsEquality (Text.trimChars e.toList) left right) :
    parse e = .equal (String.ofList (Text.trimChars left)) (String.ofList (Text.trimChars right)) := by
  rw [parse, boolean_eq_none h.not_isLiteral, pair_equality_iff.2 h]
  rfl

private theorem pair_equality_eq_none {text : List Char} (h : ∀ left right, ¬IsEquality text left right) :
    Text.pair ['=', '='] text = none :=
  Option.eq_none_iff_forall_ne_some.2 fun sides hsome => h sides.1 sides.2 (pair_equality_iff.1 hsome)

theorem parse_of_isComparison (hliteral : ∀ value, ¬IsLiteral (Text.trimChars e.toList) value)
    (hequality : ∀ left right, ¬IsEquality (Text.trimChars e.toList) left right)
    (h : IsComparison (Text.trimChars e.toList) left right) :
    parse e = .greater (String.ofList (Text.trimChars left)) (String.ofList (Text.trimChars right)) := by
  rw [parse, boolean_eq_none hliteral, pair_equality_eq_none hequality, pair_comparison_iff.2 h]
  rfl

theorem parse_of_none (hliteral : ∀ value, ¬IsLiteral (Text.trimChars e.toList) value)
    (hequality : ∀ left right, ¬IsEquality (Text.trimChars e.toList) left right)
    (hcomparison : ∀ left right, ¬IsComparison (Text.trimChars e.toList) left right) :
    parse e = .unrecognized := by
  have hnone : Text.pair ['>'] (Text.trimChars e.toList) = none :=
    Option.eq_none_iff_forall_ne_some.2 fun sides hsome => hcomparison sides.1 sides.2 (pair_comparison_iff.1 hsome)
  rw [parse, boolean_eq_none hliteral, pair_equality_eq_none hequality, hnone]

/-- One of the four forms always applies. -/
private theorem parse_cases (e : String) :
    (∃ value, IsLiteral (Text.trimChars e.toList) value ∧ parse e = .literal value) ∨
      (∃ left right, IsEquality (Text.trimChars e.toList) left right ∧
        parse e = .equal (String.ofList (Text.trimChars left)) (String.ofList (Text.trimChars right))) ∨
      ((∀ value, ¬IsLiteral (Text.trimChars e.toList) value) ∧
        (∀ left right, ¬IsEquality (Text.trimChars e.toList) left right) ∧
        ((∃ left right, IsComparison (Text.trimChars e.toList) left right ∧
            parse e = .greater (String.ofList (Text.trimChars left)) (String.ofList (Text.trimChars right))) ∨
          (∀ left right, ¬IsComparison (Text.trimChars e.toList) left right) ∧ parse e = .unrecognized)) := by
  by_cases hliteral : ∃ value, IsLiteral (Text.trimChars e.toList) value
  · obtain ⟨value, h⟩ := hliteral
    exact .inl ⟨value, h, parse_of_isLiteral h⟩
  by_cases hequality : ∃ left right, IsEquality (Text.trimChars e.toList) left right
  · obtain ⟨left, right, h⟩ := hequality
    exact .inr (.inl ⟨left, right, h, parse_of_isEquality h⟩)
  rw [not_exists] at hliteral
  simp only [not_exists] at hequality
  refine .inr (.inr ⟨hliteral, hequality, ?_⟩)
  by_cases hcomparison : ∃ left right, IsComparison (Text.trimChars e.toList) left right
  · obtain ⟨left, right, h⟩ := hcomparison
    exact .inl ⟨left, right, h, parse_of_isComparison hliteral hequality h⟩
  · simp only [not_exists] at hcomparison
    exact .inr ⟨hcomparison, parse_of_none hliteral hequality hcomparison⟩

theorem parse_eq_literal_iff {value : Bool} :
    parse e = .literal value ↔ IsLiteral (Text.trimChars e.toList) value := by
  refine ⟨fun h => ?_, parse_of_isLiteral⟩
  obtain ⟨value, hliteral, heq⟩ | ⟨_, _, _, heq⟩ | ⟨_, _, ⟨_, _, _, heq⟩ | ⟨_, heq⟩⟩ := parse_cases e <;>
    rw [heq] at h <;> cases h
  exact hliteral

theorem parse_eq_equal_iff {l r : String} :
    parse e = .equal l r ↔
      ∃ left right, IsEquality (Text.trimChars e.toList) left right ∧
        l = String.ofList (Text.trimChars left) ∧ r = String.ofList (Text.trimChars right) := by
  constructor
  · intro h
    obtain ⟨_, _, heq⟩ | ⟨left, right, hequality, heq⟩ | ⟨_, _, ⟨_, _, _, heq⟩ | ⟨_, heq⟩⟩ := parse_cases e <;>
      rw [heq] at h <;> cases h
    exact ⟨left, right, hequality, rfl, rfl⟩
  · rintro ⟨left, right, h, rfl, rfl⟩
    exact parse_of_isEquality h

theorem parse_eq_greater_iff {l r : String} :
    parse e = .greater l r ↔
      (∀ value, ¬IsLiteral (Text.trimChars e.toList) value) ∧
      (∀ left right, ¬IsEquality (Text.trimChars e.toList) left right) ∧
      ∃ left right, IsComparison (Text.trimChars e.toList) left right ∧
        l = String.ofList (Text.trimChars left) ∧ r = String.ofList (Text.trimChars right) := by
  constructor
  · intro h
    obtain ⟨_, _, heq⟩ | ⟨_, _, _, heq⟩ | ⟨hliteral, hequality, ⟨left, right, hcomparison, heq⟩ | ⟨_, heq⟩⟩ :=
      parse_cases e <;> rw [heq] at h <;> cases h
    exact ⟨hliteral, hequality, left, right, hcomparison, rfl, rfl⟩
  · rintro ⟨hliteral, hequality, left, right, h, rfl, rfl⟩
    exact parse_of_isComparison hliteral hequality h

theorem parse_eq_unrecognized_iff :
    parse e = .unrecognized ↔
      (∀ value, ¬IsLiteral (Text.trimChars e.toList) value) ∧
      (∀ left right, ¬IsEquality (Text.trimChars e.toList) left right) ∧
      (Text.trimChars e.toList).count '>' ≠ 1 := by
  simp only [ne_eq, ← exists_isComparison_iff, not_exists]
  constructor
  · intro h
    obtain ⟨_, _, heq⟩ | ⟨_, _, _, heq⟩ | ⟨hliteral, hequality, ⟨_, _, _, heq⟩ | ⟨hcomparison, _⟩⟩ :=
      parse_cases e
    on_goal 4 => exact ⟨hliteral, hequality, hcomparison⟩
    all_goals
      rw [heq] at h
      cases h
  · rintro ⟨hliteral, hequality, hcomparison⟩
    exact parse_of_none hliteral hequality hcomparison

/-! ### Operations on operands -/

/-- A text that no operator is part of. -/
structure IsOperand (s : String) : Prop where
  no_equals : '=' ∉ s.toList
  no_greater : '>' ∉ s.toList

/-- A text with blanks around it. -/
structure IsPadded (padded s : String) : Prop where
  around : ∃ before after : List Char, (∀ c ∈ before, Text.isBlank c = true) ∧ (∀ c ∈ after, Text.isBlank c = true) ∧
    padded.toList = before ++ s.toList ++ after

theorem IsPadded.trim_eq {padded s : String} (h : IsPadded padded s) : Text.trim padded = Text.trim s := by
  obtain ⟨before, after, hbefore, hafter, htext⟩ := h.around
  rw [Text.trim, htext, Text.trimChars_of_blanks hbefore hafter, Text.trim]

theorem IsPadded.isOperand {padded s : String} (h : IsPadded padded s) (hs : IsOperand s) : IsOperand padded := by
  obtain ⟨before, after, hbefore, hafter, htext⟩ := h.around
  have hnot {c : Char} (hc : Text.isBlank c = false) (hmem : c ∉ s.toList) : c ∉ padded.toList := by
    rw [htext, List.mem_append, List.mem_append]
    rintro ((hin | hin) | hin)
    · simp [hbefore c hin] at hc
    · exact hmem hin
    · simp [hafter c hin] at hc
  exact ⟨hnot (by decide) hs.no_equals, hnot (by decide) hs.no_greater⟩

private theorem not_mem_dropWhile {c : Char} {s : List Char} (h : c ∉ s) : c ∉ s.dropWhile Text.isBlank :=
  fun hmem => h ((List.dropWhile_sublist _).subset hmem)

private theorem not_mem_rdropWhile {c : Char} {s : List Char} (h : c ∉ s) : c ∉ s.rdropWhile Text.isBlank :=
  fun hmem => h ((List.rdropWhile_prefix _ _).subset hmem)

variable {l r : String}

/-- The trimmed text of an operation is cut at its operator. -/
private theorem trimChars_operation (operator : List Char) (hne : operator ≠ [])
    (hoperator : ∀ c ∈ operator, Text.isBlank c = false) :
    Text.trimChars (l ++ String.ofList operator ++ r).toList =
      l.toList.dropWhile Text.isBlank ++ operator ++ r.toList.rdropWhile Text.isBlank := by
  rw [String.toList_append, String.toList_append, String.toList_ofList, Text.trimChars_append_append hne hoperator]

theorem parse_equality (hl : IsOperand l) (hr : IsOperand r) :
    parse (l ++ "==" ++ r) = .equal (Text.trim l) (Text.trim r) := by
  have hleft := not_mem_dropWhile hl.no_equals
  have hright := not_mem_rdropWhile hr.no_equals
  have hblank : ∀ c ∈ ['=', '='], Text.isBlank c = false := by
    rw [List.forall_mem_cons, List.forall_mem_singleton]
    exact ⟨rfl, rfl⟩
  refine parse_eq_equal_iff.2 ⟨_, _, ⟨trimChars_operation ['=', '='] (by simp) hblank, ?_, ?_, ?_⟩, ?_, ?_⟩
  · exact fun hpart => hleft (hpart.subset (by simp))
  · exact fun hend => hleft (List.mem_of_getLast? hend)
  · exact fun hpart => hright (hpart.subset (by simp))
  · rw [Text.trimChars_dropWhile, Text.trim]
  · rw [Text.trimChars_rdropWhile, Text.trim]

theorem parse_comparison (hl : IsOperand l) (hr : IsOperand r) :
    parse (l ++ ">" ++ r) = .greater (Text.trim l) (Text.trim r) := by
  have htext : Text.trimChars (l ++ ">" ++ r).toList = _ :=
    trimChars_operation ['>'] (by simp) (List.forall_mem_singleton.2 rfl)
  refine parse_eq_greater_iff.2 ⟨fun value hliteral => ?_, fun left right hequality => ?_, _, _, ⟨htext, ?_⟩, ?_, ?_⟩
  · refine hliteral.not_mem.2 ?_
    rw [htext]
    simp
  · have hmem : '=' ∈ Text.trimChars (l ++ ">" ++ r).toList := by
      rw [hequality.text_eq]
      simp
    rw [htext] at hmem
    simp [not_mem_dropWhile hl.no_equals, not_mem_rdropWhile hr.no_equals] at hmem
  · rw [htext, List.count_append, List.count_append, List.count_singleton_self,
      List.count_eq_zero.2 (not_mem_dropWhile hl.no_greater),
      List.count_eq_zero.2 (not_mem_rdropWhile hr.no_greater)]
  · rw [Text.trimChars_dropWhile, Text.trim]
  · rw [Text.trimChars_rdropWhile, Text.trim]

theorem holds_equal_comm (vars : Variables) (l r : String) : (equal l r).holds vars = (equal r l).holds vars := by
  simp only [holds]
  exact Bool.beq_comm

/-- At most one of two texts is the greater one. -/
theorem not_holds_greater (vars : Variables) {l r : String} (h : (greater l r).holds vars = true) :
    (greater r l).holds vars = false := by
  simp only [holds] at h ⊢
  split at h
  · next x y hx hy =>
    rw [hx, hy]
    exact decide_eq_false (double_lt_asymm (of_decide_eq_true h))
  · cases h

/-- Conditions have an exact grammar: each text is of one of the four forms, according to its trimmed text.  On sides
without operators an equality is symmetric, a comparison is not, and blanks around the sides do not matter. -/
theorem grammar :
    (∀ e : String,
      (∀ value, parse e = .literal value ↔ IsLiteral (Text.trimChars e.toList) value) ∧
      (∀ l r, parse e = .equal l r ↔
        ∃ left right, IsEquality (Text.trimChars e.toList) left right ∧
          l = String.ofList (Text.trimChars left) ∧ r = String.ofList (Text.trimChars right)) ∧
      (∀ l r, parse e = .greater l r ↔
        (∀ value, ¬IsLiteral (Text.trimChars e.toList) value) ∧
        (∀ left right, ¬IsEquality (Text.trimChars e.toList) left right) ∧
        ∃ left right, IsComparison (Text.trimChars e.toList) left right ∧
          l = String.ofList (Text.trimChars left) ∧ r = String.ofList (Text.trimChars right)) ∧
      (parse e = .unrecognized ↔
        (∀ value, ¬IsLiteral (Text.trimChars e.toList) value) ∧
        (∀ left right, ¬IsEquality (Text.trimChars e.toList) left right) ∧
        (Text.trimChars e.toList).count '>' ≠ 1)) ∧
    ∀ (vars : Variables) (l r : String), IsOperand l → IsOperand r →
      evaluate vars (l ++ "==" ++ r) = evaluate vars (r ++ "==" ++ l) ∧
      ¬(evaluate vars (l ++ ">" ++ r) = true ∧ evaluate vars (r ++ ">" ++ l) = true) ∧
      evaluate vars (l ++ ">" ++ l) = false ∧
      ∀ l' r', IsPadded l' l → IsPadded r' r →
        evaluate vars (l' ++ "==" ++ r') = evaluate vars (l ++ "==" ++ r) ∧
        evaluate vars (l' ++ ">" ++ r') = evaluate vars (l ++ ">" ++ r) := by
  refine ⟨fun e => ⟨fun value => parse_eq_literal_iff, fun l r => parse_eq_equal_iff, fun l r => parse_eq_greater_iff,
    parse_eq_unrecognized_iff⟩, fun vars l r hl hr => ⟨?_, ?_, ?_, fun l' r' hl' hr' => ⟨?_, ?_⟩⟩⟩
  · rw [evaluate, parse_equality hl hr, evaluate, parse_equality hr hl, holds_equal_comm]
  · rw [evaluate, parse_comparison hl hr, evaluate, parse_comparison hr hl]
    rintro ⟨hforth, hback⟩
    rw [not_holds_greater vars hforth] at hback
    cases hback
  · rw [evaluate, parse_comparison hl hl]
    by_contra h
    rw [Bool.not_eq_false] at h
    exact absurd h (by simp [not_holds_greater vars h])
  · rw [evaluate, parse_equality (hl'.isOperand hl) (hr'.isOperand hr), hl'.trim_eq, hr'.trim_eq, evaluate,
      parse_equality hl hr]
  · rw [evaluate, parse_comparison (hl'.isOperand hl) (hr'.isOperand hr), hl'.trim_eq, hr'.trim_eq, evaluate,
      parse_comparison hl hr]

theorem grammar_padded_score :
    parse "a===b" = .equal "a" "=b" ∧ IsOperand "score" ∧ IsPadded " score\t" "score" ∧
      evaluate .empty (" score\t" ++ ">" ++ "1") = evaluate .empty ("score" ++ ">" ++ "1") := by
  have hscore : IsOperand "score" := ⟨by decide, by decide⟩
  have hone : IsOperand "1" := ⟨by decide, by decide⟩
  have hpadded : IsPadded " score\t" "score" :=
    ⟨[' '], ['\t'], List.forall_mem_singleton.2 rfl, List.forall_mem_singleton.2 rfl, by decide⟩
  have hplain : IsPadded "1" "1" := ⟨[], [], by simp, by simp, by simp⟩
  refine ⟨((grammar.1 "a===b").2.1 "a" "=b").2 ⟨['a'], ['=', 'b'], ⟨by decide, by decide, by decide, by decide⟩,
    by decide, by decide⟩, hscore, hpadded, ?_⟩
  exact ((grammar.2 .empty "score" "1" hscore hone).2.2.2 " score\t" "1" hpadded hplain).2

end Condition

end ScriptGraph
