import Mathlib.Data.List.Infix
import Mathlib.Logic.ExistsUnique
import ScriptGraph.Interpolation

/-!
# References in texts

A text with references is cut where they stand: a gap, a reference, and so on, with a gap at the end (`Factors`).  The
references are the leftmost ones if none starts within a gap, however far it would reach (`Factors.IsLeftmost`).  Each
text has one such cut (`Factors.leftmost_unique`, `leftmost_ofPieces`), and interpolation fills in the values there,
so gaps stay as they are and no value is looked at again (`interpolate_leftmost`).

Of two leftmost cuts of a text the first gaps are equal: if one of them were shorter, the reference behind it would
start within the other.
-/

namespace ScriptGraph.Interpolation

/-! ### Where a reference starts -/

/-- A name that can be referred to: it is not empty and has no `$`. -/
def IsName (name : List Char) : Prop := name ≠ [] ∧ '$' ∉ name

/-- Whether a reference starts where a text does. -/
def StartsReference (text : List Char) : Prop :=
  ∃ name after, IsName name ∧ text = (Piece.reference name).source ++ after

private theorem takeWhile_name {name : List Char} (h : '$' ∉ name) (after : List Char) :
    (name ++ '$' :: after).takeWhile (· != '$') = name ∧
      (name ++ '$' :: after).dropWhile (· != '$') = '$' :: after := by
  have hname : ∀ c ∈ name, (c != '$') = true := by
    intro c hc
    rw [bne_iff_ne]
    rintro rfl
    exact h hc
  rw [List.takeWhile_append_of_pos hname, List.dropWhile_append_of_pos hname]
  simp

theorem reference?_eq_some_iff {text name after : List Char} :
    reference? text = some (name, after) ↔ IsName name ∧ text = (Piece.reference name).source ++ after := by
  constructor
  · intro h
    unfold reference? at h
    split at h
    · next rest =>
      split at h
      · next hdrop =>
        split at h
        · cases h
        · next hne =>
          simp only [Option.some.injEq, Prod.mk.injEq] at h
          obtain ⟨rfl, rfl⟩ := h
          refine ⟨⟨by simpa using hne, fun hmem => ?_⟩, ?_⟩
          · simpa using List.all_eq_true.1 List.all_takeWhile _ hmem
          · have hrest := rest.takeWhile_append_dropWhile (p := (· != '$'))
            rw [hdrop] at hrest
            simp [Piece.source, hrest]
      · cases h
    · cases h
  · rintro ⟨⟨hne, hfree⟩, rfl⟩
    obtain ⟨htake, hdrop⟩ := takeWhile_name hfree ('}' :: '}' :: after)
    simp [Piece.source, reference?, htake, hdrop, hne]

theorem reference?_eq_none_iff {text : List Char} : reference? text = none ↔ ¬StartsReference text := by
  rw [Option.eq_none_iff_forall_ne_some]
  constructor
  · rintro h ⟨name, after, hstart⟩
    exact h _ (reference?_eq_some_iff.2 hstart)
  · rintro h ⟨name, after⟩ hsome
    exact h ⟨name, after, reference?_eq_some_iff.1 hsome⟩

/-! ### Texts cut at references -/

/-- A text cut at some of its references: the gap before each of them, and the one after the last. -/
inductive Factors where
  | last (gap : List Char)
  | cons (gap name : List Char) (rest : Factors)

namespace Factors

/-- The text that was cut. -/
def text : Factors → List Char
  | last gap => gap
  | cons gap name rest => gap ++ (Piece.reference name).source ++ rest.text

/-- The text with the value of each variable in place of the references to it.  A reference to a variable that is not
set stays. -/
def filled (vars : Variables) : Factors → List Char
  | last gap => gap
  | cons gap name rest =>
    gap ++ ((vars.get? (String.ofList name)).map String.toList).getD (Piece.reference name).source ++ rest.filled vars

/-- Whether no reference starts within a gap.  One that starts there may reach into the text after the gap. -/
def IsGap (gap after : List Char) : Prop :=
  ∀ start, start ≠ [] → start <:+ gap → ¬StartsReference (start ++ after)

/-- Whether the references are the leftmost ones that do not overlap. -/
def IsLeftmost : Factors → Prop
  | last gap => IsGap gap []
  | cons gap name rest =>
    IsName name ∧ IsGap gap ((Piece.reference name).source ++ rest.text) ∧ rest.IsLeftmost

/-- Puts a character in front of the first gap. -/
def push (c : Char) : Factors → Factors
  | last gap => last (c :: gap)
  | cons gap name rest => cons (c :: gap) name rest

/-- The cut of a text between its parts. -/
def ofPieces : List Piece → Factors
  | [] => last []
  | .char c :: ps => (ofPieces ps).push c
  | .reference name :: ps => cons [] name (ofPieces ps)

theorem text_push (c : Char) (f : Factors) : (f.push c).text = c :: f.text := by
  cases f <;> rfl

theorem filled_push (vars : Variables) (c : Char) (f : Factors) : (f.push c).filled vars = c :: f.filled vars := by
  cases f <;> rfl

theorem filled_ofPieces (vars : Variables) (ps : List Piece) :
    (ofPieces ps).filled vars = ps.flatMap (Piece.value vars) := by
  induction ps with
  | nil => rfl
  | cons p ps ih =>
    rw [List.flatMap_cons]
    cases p with
    | char c => rw [ofPieces, filled_push, ih, Piece.value, List.singleton_append]
    | reference name =>
      rw [ofPieces, filled, ih, List.nil_append, Piece.value]
      cases vars.get? (String.ofList name) <;> rfl

/-! ### The leftmost cut -/

theorem isGap_nil (after : List Char) : IsGap [] after := by
  intro start hne hsuffix
  exact absurd (List.suffix_nil.1 hsuffix) hne

theorem isGap_cons {c : Char} {gap after : List Char} :
    IsGap (c :: gap) after ↔ ¬StartsReference (c :: gap ++ after) ∧ IsGap gap after := by
  simp only [IsGap, List.suffix_cons_iff]
  constructor
  · intro h
    exact ⟨h _ (List.cons_ne_nil _ _) (.inl rfl), fun start hne hsuffix => h start hne (.inr hsuffix)⟩
  · rintro ⟨hfirst, hrest⟩ start hne (rfl | hsuffix)
    · exact hfirst
    · exact hrest start hne hsuffix

theorem IsLeftmost.push {c : Char} {f : Factors} (h : f.IsLeftmost) (hc : ¬StartsReference (c :: f.text)) :
    (f.push c).IsLeftmost := by
  cases f with
  | last gap => exact isGap_cons.2 ⟨by simpa [text] using hc, h⟩
  | cons gap name rest =>
    obtain ⟨hname, hgap, hrest⟩ := h
    exact ⟨hname, isGap_cons.2 ⟨by simpa [text] using hc, hgap⟩, hrest⟩

/-- A text is cut at its leftmost references. -/
theorem leftmost_ofPieces (text : List Char) :
    (ofPieces (pieces text)).text = text ∧ (ofPieces (pieces text)).IsLeftmost := by
  induction text using pieces.induct with
  | case1 =>
    rw [pieces]
    exact ⟨rfl, isGap_nil []⟩
  | case2 c rest name after h ih =>
    obtain ⟨htext, hleft⟩ := ih
    obtain ⟨hname, hsource⟩ := reference?_eq_some_iff.1 h
    have hpieces : pieces (c :: rest) = .reference name :: pieces after := by
      rw [pieces]
      split <;> simp_all
    rw [hpieces, ofPieces, Factors.text, htext, hsource]
    exact ⟨rfl, hname, isGap_nil _, hleft⟩
  | case3 c rest h ih =>
    obtain ⟨htext, hleft⟩ := ih
    have hpieces : pieces (c :: rest) = .char c :: pieces rest := by
      rw [pieces]
      split <;> simp_all
    rw [hpieces, ofPieces, text_push, htext]
    exact ⟨rfl, hleft.push (htext.symm ▸ reference?_eq_none_iff.1 h)⟩

/-- A gap of a leftmost cut is no shorter than the first gap of another cut of the same text. -/
private theorem prefix_of_isGap {gap after gap' after' : List Char} (hgap : IsGap gap' after')
    (hafter : StartsReference after) (h : gap ++ after = gap' ++ after') : gap' <+: gap := by
  rcases List.append_eq_append_iff.1 h with ⟨start, rfl, rfl⟩ | ⟨start, rfl, -⟩
  · -- the reference behind the first gap would start within the second
    by_cases hne : start = []
    · simp [hne]
    · exact absurd hafter (hgap start hne (List.suffix_append gap start))
  · exact List.prefix_append gap' start

/-- A text has one leftmost cut only. -/
theorem leftmost_unique {f g : Factors} (hf : f.IsLeftmost) (hg : g.IsLeftmost) (h : f.text = g.text) : f = g := by
  -- no reference starts in the last gap of a leftmost cut
  have hlast : ∀ {gap gap' name : List Char} {rest : Factors}, IsGap gap [] → IsName name →
      gap ≠ gap' ++ (Piece.reference name).source ++ rest.text := by
    rintro gap gap' name rest hgap hname rfl
    have hne : (Piece.reference name).source ++ rest.text ≠ [] := by simp [Piece.source]
    refine hgap _ hne ?_ ⟨name, rest.text, hname, List.append_nil _⟩
    rw [List.append_assoc]
    exact List.suffix_append ..
  induction f generalizing g with
  | last gap =>
    cases g with
    | last gap' => exact congrArg last h
    | cons gap' name' rest' => exact absurd h (hlast hf hg.1)
  | cons gap name rest ih =>
    cases g with
    | last gap' => exact absurd h.symm (hlast hg hf.1)
    | cons gap' name' rest' =>
      obtain ⟨hname, hgap, hrest⟩ := hf
      obtain ⟨hname', hgap', hrest'⟩ := hg
      simp only [text, List.append_assoc] at h
      have hle : gap' <+: gap := prefix_of_isGap hgap' ⟨name, _, hname, rfl⟩ h
      have hge : gap <+: gap' := prefix_of_isGap hgap ⟨name', _, hname', rfl⟩ h.symm
      obtain rfl : gap = gap' := hge.eq_of_length_le hle.length_le
      have hafter := List.append_cancel_left h
      -- what stands at one place is one reference
      have hsome : some (name, rest.text) = some (name', rest'.text) := by
        rw [← reference?_eq_some_iff.2 ⟨hname, rfl⟩, ← reference?_eq_some_iff.2 ⟨hname', rfl⟩, hafter]
      obtain ⟨rfl, htext⟩ := Prod.mk.inj (Option.some.inj hsome)
      rw [ih hrest hrest' htext]

end Factors

/-! ### Interpolation -/

/-- Interpolation goes through a text once, from left to right.  Each text can be cut in one way at its leftmost
references, and there the values are filled in, between gaps that stay as they are.  A text in which no reference
begins to be written stays as it is. -/
theorem interpolate_leftmost (vars : Variables) (text : String) :
    (∃! f : Factors, f.text = text.toList ∧ f.IsLeftmost) ∧
    (∀ f : Factors, f.text = text.toList → f.IsLeftmost → interpolate vars text = String.ofList (f.filled vars)) ∧
    (¬['{', '{', '$'] <:+: text.toList → interpolate vars text = text) := by
  obtain ⟨htext, hleft⟩ := Factors.leftmost_ofPieces text.toList
  have hfilled : interpolate vars text = String.ofList ((Factors.ofPieces (pieces text.toList)).filled vars) := by
    rw [interpolate, Factors.filled_ofPieces]
  have hunique : ∀ f : Factors, f.text = text.toList ∧ f.IsLeftmost → f = Factors.ofPieces (pieces text.toList) :=
    fun f hf => Factors.leftmost_unique hf.2 hleft (hf.1.trans htext.symm)
  refine ⟨⟨_, ⟨htext, hleft⟩, hunique⟩, fun f hf hf' => ?_, fun hnone => ?_⟩
  · rw [hfilled, hunique f ⟨hf, hf'⟩]
  · rw [hfilled]
    cases hfactors : Factors.ofPieces (pieces text.toList) with
    | last gap =>
      rw [hfactors, Factors.text] at htext
      rw [Factors.filled, htext, String.ofList_toList]
    | cons gap name rest =>
      rw [hfactors] at htext
      refine absurd ⟨gap, name ++ ['$', '}', '}'] ++ rest.text, ?_⟩ hnone
      rw [← htext, Factors.text]
      simp [Piece.source]

-- a value that is a reference itself stays as it is
example :
    interpolate ((Variables.empty.set "a" (String.ofList (Piece.reference ['b']).source)).set "b" "1")
        (String.ofList ((Piece.reference ['a']).source ++ (Piece.reference ['b']).source)) =
      String.ofList ((Piece.reference ['b']).source ++ ['1']) := by
  decide +kernel

end ScriptGraph.Interpolation
