import Mathlib.Data.List.DropRight
import Mathlib.Data.List.Induction
import ScriptGraph.Text.Blank

/-!
# Trimming

A blank at an end of a text makes no difference to the trimmed text, and trimming is the only thing to know about it:
what no blank at an end changes, trimming does not change (`eq_of_trimChars`).  A text with something in its middle
that neither begins nor ends with a blank is trimmed on both sides of it separately (`trimChars_append_append`).
-/

namespace ScriptGraph.Text

theorem dropFinal_eq {α : Type} (p : α → Bool) (l : List α) : dropFinal p l = l.rdropWhile p := rfl

theorem trimChars_eq (l : List Char) : trimChars l = (l.dropWhile isBlank).rdropWhile isBlank :=
  dropFinal_eq _ _

theorem rdropWhile_cons_of_not {α : Type} {p : α → Bool} {a : α} (h : p a = false) (l : List α) :
    (a :: l).rdropWhile p = a :: l.rdropWhile p := by
  rw [List.rdropWhile, List.rdropWhile, List.reverse_cons, List.dropWhile_append]
  split
  · next hnone => simp [List.isEmpty_iff.1 hnone, h]
  · simp

theorem trimChars_of_ends {a b : Char} (ha : isBlank a = false) (hb : isBlank b = false) (l : List Char) :
    trimChars (a :: l ++ [b]) = a :: l ++ [b] := by
  rw [trimChars_eq, List.cons_append, List.dropWhile_cons_of_neg (by simp [ha]), ← List.cons_append,
    List.rdropWhile_concat_neg _ _ _ (by simp [hb])]

theorem trimChars_cons_of_isBlank {c : Char} (h : isBlank c = true) (l : List Char) :
    trimChars (c :: l) = trimChars l := by
  rw [trimChars, List.dropWhile_cons_of_pos h, trimChars]

theorem trimChars_concat_of_isBlank {c : Char} (h : isBlank c = true) (l : List Char) :
    trimChars (l ++ [c]) = trimChars l := by
  rw [trimChars_eq, trimChars_eq, List.dropWhile_append]
  split
  · next hnone =>
    rw [List.isEmpty_iff.1 hnone, List.dropWhile_cons_of_pos h]
    rfl
  · rw [List.rdropWhile_concat_pos _ _ _ h]

/-- A second trim finds nothing more. -/
theorem trimChars_trimChars (l : List Char) : trimChars (trimChars l) = trimChars l := by
  have hstart : (trimChars l).dropWhile isBlank = trimChars l := by
    rw [List.dropWhile_eq_self_iff]
    intro hpos
    have hpre : trimChars l <+: l.dropWhile isBlank := List.rdropWhile_prefix _ _
    rw [hpre.getElem hpos]
    exact List.dropWhile_eq_self_iff.1 (List.dropWhile_idempotent _ _) _
  rw [trimChars_eq, hstart]
  exact List.rdropWhile_idempotent _ _

/-- What no blank at an end of a text changes, trimming does not change. -/
theorem eq_of_trimChars {α : Type} {f : List Char → α} (hcons : ∀ c l, isBlank c = true → f (c :: l) = f l)
    (hconcat : ∀ c l, isBlank c = true → f (l ++ [c]) = f l) (l : List Char) : f (trimChars l) = f l := by
  have hstart : ∀ l, f (l.dropWhile isBlank) = f l := by
    intro l
    induction l with
    | nil => rfl
    | cons c l ih =>
      rw [List.dropWhile_cons]
      split
      · next h => rw [ih, hcons c l h]
      · rfl
  have hend : ∀ l, f (l.rdropWhile isBlank) = f l := by
    intro l
    induction l using List.reverseRecOn with
    | nil => rfl
    | append_singleton l c ih =>
      rw [List.rdropWhile_concat]
      split
      · next h => rw [ih, hconcat c l h]
      · rfl
  rw [trimChars_eq, hend, hstart]

/-- A trimmed text begins with the first character that is no blank. -/
theorem head?_trimChars (l : List Char) : (trimChars l).head? = l.find? (!isBlank ·) := by
  rw [trimChars_eq]
  induction l with
  | nil => rfl
  | cons c l ih =>
    rw [List.dropWhile_cons]
    split
    · next h => rw [ih, List.find?_cons_of_neg (by simp [h])]
    · next h => rw [rdropWhile_cons_of_not (by simpa using h), List.find?_cons_of_pos (by simp [h]), List.head?_cons]

theorem length_trimChars_le (l : List Char) : (trimChars l).length ≤ l.length :=
  Nat.le_trans (List.rdropWhile_prefix _ _).length_le (List.dropWhile_suffix _).length_le

/-- A text is trimmed if it neither begins nor ends with a blank. -/
theorem trimChars_eq_self_iff {l : List Char} :
    trimChars l = l ↔ (∀ c ∈ l.head?, isBlank c = false) ∧ ∀ c ∈ l.getLast?, isBlank c = false := by
  constructor
  · intro h
    constructor
    · intro c hc
      rw [← h, head?_trimChars] at hc
      simpa using List.find?_some hc
    · intro c hc
      obtain ⟨l, rfl⟩ := List.getLast?_eq_some_iff.1 hc
      by_contra hblank
      have hle := length_trimChars_le l
      rw [← trimChars_concat_of_isBlank (Bool.not_eq_false _ ▸ hblank), h, List.length_append] at hle
      exact absurd hle (by simp)
  · rintro ⟨hstart, hend⟩
    have hdrop : l.dropWhile isBlank = l := by
      cases l with
      | nil => rfl
      | cons c l => exact List.dropWhile_cons_of_neg (by simp [hstart c rfl])
    rw [trimChars_eq, hdrop]
    cases l using List.reverseRecOn with
    | nil => rfl
    | append_singleton l c => exact List.rdropWhile_concat_neg _ _ _ (by simp [hend c (by simp)])

/-! ### Both sides of an operator -/

private theorem dropWhile_append_of_ne {α : Type} {p : α → Bool} {m : List α} (hm : m.dropWhile p = m) (l : List α) :
    (l ++ m).dropWhile p = l.dropWhile p ++ m := by
  rw [List.dropWhile_append]
  split
  · next hnone => rw [List.isEmpty_iff.1 hnone, hm, List.nil_append]
  · rfl

private theorem rdropWhile_append_of_ne {α : Type} {p : α → Bool} {m : List α} (hm : m.rdropWhile p = m)
    (l : List α) : (m ++ l).rdropWhile p = m ++ l.rdropWhile p := by
  have hreverse : m.reverse.dropWhile p = m.reverse := by
    rw [← List.reverse_inj, List.reverse_reverse]
    exact hm
  rw [List.rdropWhile, List.reverse_append, dropWhile_append_of_ne hreverse, List.reverse_append,
    List.reverse_reverse, List.rdropWhile]

/-- Beside something without blanks, a text is trimmed at its outer ends. -/
theorem trimChars_append_append {m : List Char} (hne : m ≠ []) (hm : ∀ c ∈ m, isBlank c = false) (l r : List Char) :
    trimChars (l ++ m ++ r) = l.dropWhile isBlank ++ m ++ r.rdropWhile isBlank := by
  have hstart : (m ++ r).dropWhile isBlank = m ++ r := by
    obtain ⟨c, m', rfl⟩ := List.exists_cons_of_ne_nil hne
    exact List.dropWhile_cons_of_neg (by simp [hm c List.mem_cons_self])
  have hend : (l.dropWhile isBlank ++ m).rdropWhile isBlank = l.dropWhile isBlank ++ m := by
    rw [← List.dropLast_concat_getLast hne, ← List.append_assoc,
      List.rdropWhile_concat_neg _ _ _ (by simp [hm _ (List.getLast_mem hne)])]
  rw [trimChars_eq, List.append_assoc, dropWhile_append_of_ne hstart, ← List.append_assoc,
    rdropWhile_append_of_ne hend]

theorem trimChars_dropWhile (l : List Char) : trimChars (l.dropWhile isBlank) = trimChars l := by
  rw [trimChars, List.dropWhile_idempotent, trimChars]

theorem trimChars_rdropWhile (l : List Char) : trimChars (l.rdropWhile isBlank) = trimChars l := by
  induction l using List.reverseRecOn with
  | nil => rfl
  | append_singleton l c ih =>
    rw [List.rdropWhile_concat]
    split
    · next h => rw [ih, trimChars_concat_of_isBlank h]
    · rfl

/-- Blanks around a text are trimmed away, however many there are. -/
theorem trimChars_of_blanks {b b' : List Char} (hb : ∀ c ∈ b, isBlank c = true) (hb' : ∀ c ∈ b', isBlank c = true)
    (l : List Char) : trimChars (b ++ l ++ b') = trimChars l := by
  induction b' using List.reverseRecOn with
  | nil =>
    rw [List.append_nil]
    induction b with
    | nil => rfl
    | cons c b ih =>
      rw [List.forall_mem_cons] at hb
      rw [List.cons_append, trimChars_cons_of_isBlank hb.1, ih hb.2]
  | append_singleton b' c ih =>
    rw [List.forall_mem_append, List.forall_mem_singleton] at hb'
    rw [← List.append_assoc, trimChars_concat_of_isBlank hb'.2, ih hb'.1]

end ScriptGraph.Text
