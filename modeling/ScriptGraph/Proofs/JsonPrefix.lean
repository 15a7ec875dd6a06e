import ScriptGraph.Proofs.JsonText

/-!
# No container ends before the end of a text

If a text is read as an array or an object and a longer text is read as a value as well, there are only spaces in
between (`isSpace_of_parse?_container`).  The tokens of the longer text begin with those of the shorter one, because a
container ends with a bracket or a brace, which is a token whatever comes after it (`scan_append`).  With the last of
these tokens a whole value is there, and then no token may come.
-/

namespace ScriptGraph.Json

open Token (scan isSpace isWordChar ofWord? unescape)

/-! ### Tokens of a longer text -/

private theorem getLast?_append_of_mem {α : Type} {a : α} {l : List α} (h : a ∈ l.getLast?) (front : List α) :
    a ∈ (front ++ l).getLast? := by
  rw [List.getLast?_append, Option.mem_def.1 h]
  rfl

/-- The tokens of a text that does not end with a word stay the same when the text goes on. -/
private theorem scan_append {state : Token.Scan} {text : List Char} {tokens : List Token}
    (h : scan state text = some tokens) (hlast : ∀ t ∈ tokens.getLast?, ∀ word, ofWord? word ≠ some t)
    (rest : List Char) : scan state (text ++ rest) = (scan .between rest).map (tokens ++ ·) := by
  induction state, text using Token.scan.induct generalizing tokens with
  | case1 =>
    rw [scan] at h
    cases h
    simp
  | case2 c text hstart =>
    rw [scan, hstart] at h
    cases h
  | case3 c text done next hstart ih =>
    rw [scan, hstart] at h
    obtain ⟨later, hlater, rfl⟩ := Option.map_eq_some_iff.1 h
    rw [List.cons_append, scan, hstart]
    dsimp only
    rw [ih hlater fun t ht => hlast t (getLast?_append_of_mem ht done), Option.map_map]
    simp [Function.comp_def]
  | case4 gathered =>
    rw [scan] at h
    obtain ⟨t, ht, rfl⟩ := Option.map_eq_some_iff.1 h
    exact absurd ht (hlast t (by simp) _)
  | case5 gathered c text hc ih =>
    rw [scan, if_pos hc] at h
    rw [List.cons_append, scan, if_pos hc]
    exact ih h hlast
  | case6 gathered c text hc t done next hstart ht ih =>
    rw [scan, if_neg hc, ht, hstart] at h
    obtain ⟨later, hlater, rfl⟩ := Option.map_eq_some_iff.1 h
    rw [List.cons_append, scan, if_neg hc, ht, hstart]
    dsimp only
    rw [ih hlater fun u hu => hlast u (getLast?_append_of_mem hu (t :: done)), Option.map_map]
    simp [Function.comp_def]
  | case7 gathered c text hc hnone =>
    rw [scan, if_neg hc] at h
    split at h
    · next ht hstart => exact (hnone _ _ _ ht hstart).elim
    · cases h
  | case8 =>
    rw [scan] at h
    cases h
  | case9 gathered text hnone =>
    rw [scan, hnone] at h
    cases h
  | case10 gathered text inside hinside ih =>
    rw [scan, hinside] at h
    obtain ⟨later, hlater, rfl⟩ := Option.map_eq_some_iff.1 h
    rw [List.cons_append, scan, hinside]
    dsimp only
    rw [ih hlater fun u hu => hlast u (getLast?_append_of_mem hu [_]), Option.map_map]
    simp [Function.comp_def]
  | case11 gathered c text ih =>
    rw [scan] at h
    rw [List.cons_append, List.cons_append, scan]
    exact ih h hlast
  | case12 gathered c text hquote hslash ih =>
    -- a backslash at the end of a string leaves it open, so it is not the last character here
    have hopen : ∀ d later, c = '\\' → text ++ rest = d :: later → False := by
      rintro d later rfl happ
      cases text with
      | nil =>
        rw [scan] at h
        · rw [scan] at h
          cases h
        all_goals simp_all
      | cons e text => exact hslash e text rfl rfl
    rw [scan] at h
    · rw [List.cons_append, scan]
      · exact ih h hlast
      · exact hquote
      · exact hopen
    · exact hquote
    · exact hslash

/-- A word or a string that has begun becomes a token. -/
private theorem ne_nil_of_scan {state : Token.Scan} {text : List Char} {tokens : List Token}
    (h : scan state text = some tokens) (hstate : state ≠ .between) : tokens ≠ [] := by
  induction state, text using Token.scan.induct generalizing tokens with
  | case4 gathered =>
    rw [scan] at h
    obtain ⟨t, -, rfl⟩ := Option.map_eq_some_iff.1 h
    simp
  | case5 gathered c text hc ih =>
    rw [scan, if_pos hc] at h
    exact ih h (by simp)
  | case6 gathered c text hc t done next hstart ht ih =>
    rw [scan, if_neg hc, ht, hstart] at h
    obtain ⟨later, -, rfl⟩ := Option.map_eq_some_iff.1 h
    simp
  | case7 gathered c text hc hnone =>
    rw [scan, if_neg hc] at h
    split at h
    · next ht hstart => exact (hnone _ _ _ ht hstart).elim
    · cases h
  | case8 => rw [scan] at h; cases h
  | case9 gathered text hnone => rw [scan, hnone] at h; cases h
  | case10 gathered text inside hinside ih =>
    rw [scan, hinside] at h
    obtain ⟨later, -, rfl⟩ := Option.map_eq_some_iff.1 h
    simp
  | case11 gathered c text ih =>
    rw [scan] at h
    exact ih h (by simp)
  | case12 gathered c text hquote hslash ih =>
    rw [scan] at h
    · exact ih h (by simp)
    · exact hquote
    · exact hslash
  | _ => exact absurd rfl hstate

private theorem isSpace_of_scan {text : List Char} (h : scan .between text = some []) :
    ∀ c ∈ text, isSpace c = true := by
  induction text with
  | nil => simp
  | cons c text ih =>
    rw [scan] at h
    unfold Token.Scan.start at h
    by_cases hspace : isSpace c = true
    · simp only [hspace, if_true, List.nil_append, Option.map_id'] at h
      simpa [hspace] using ih h
    · rw [if_neg hspace] at h
      split at h
      · cases h
      · next done next hstart =>
        obtain ⟨later, hlater, hnil⟩ := Option.map_eq_some_iff.1 h
        obtain ⟨rfl, rfl⟩ := List.append_eq_nil_iff.1 hnil
        refine absurd rfl (ne_nil_of_scan hlater ?_)
        rintro rfl
        split at hstart
        · simp at hstart
        · split at hstart <;> simp at hstart

/-! ### Values -/

private theorem eq_of_complete {v w : Json} {around : List Frame}
    (h : Expecting.complete v around = .nothing w) : v = w := by
  cases around with
  | nil => exact Expecting.nothing.inj h
  | cons frame around => cases frame <;> cases h

/-- Arrays and objects, whose texts show where they end. -/
def IsContainer : Json → Prop
  | .arr _ | .obj _ => True
  | _ => False

private theorem not_container_of_beginValue {around : List Frame} {t : Token} {v : Json} (hv : v.IsContainer) :
    Expecting.beginValue around t ≠ some (.nothing v) := by
  intro h
  cases t <;> simp only [Expecting.beginValue, Option.some.injEq, reduceCtorEq] at h
  case openArray => split at h <;> cases h
  case openObject => split at h <;> cases h
  all_goals
    obtain rfl := eq_of_complete h
    exact hv

/-- A container is there only after its closing bracket or brace. -/
private theorem close_of_next {state : Expecting} {t : Token} {v : Json} (hv : v.IsContainer)
    (h : state.next t = some (.nothing v)) : t = .closeArray ∨ t = .closeObject := by
  unfold Expecting.next at h
  split at h
  · exact absurd h (not_container_of_beginValue hv)
  · exact .inl rfl
  · exact absurd h (not_container_of_beginValue hv)
  · cases h
  · exact .inl rfl
  · exact .inr rfl
  all_goals first
    | cases h
    | exact .inr rfl

private theorem ofWord?_ne_close {t : Token} (ht : t = .closeArray ∨ t = .closeObject) (word : List Char) :
    ofWord? word ≠ some t := by
  unfold ofWord?
  rcases ht with rfl | rfl
  all_goals
    repeat' split
    all_goals simp

/-- What is read as a container is complete: a longer text is only read at all if nothing but spaces is added. -/
theorem isSpace_of_parse?_container {text rest : List Char} {u v : Json} (hu : u.IsContainer)
    (hcontainer : parse? text = some u) (hlonger : parse? (text ++ rest) = some v) :
    ∀ c ∈ rest, isSpace c = true := by
  obtain ⟨tokens, htokens, hstate⟩ := Option.bind_eq_some_iff.1 hcontainer
  obtain ⟨state, hfold, hvalue⟩ := Option.bind_eq_some_iff.1 hstate
  have hdone : state = .nothing u := by
    split at hvalue
    · cases hvalue; rfl
    · cases hvalue
  rw [hdone] at hfold
  have hlast : ∀ t ∈ tokens.getLast?, ∀ word, ofWord? word ≠ some t := by
    intro t ht
    obtain ⟨front, rfl⟩ := List.getLast?_eq_some_iff.1 ht
    rw [List.foldlM_append] at hfold
    obtain ⟨before, -, hnext⟩ := Option.bind_eq_some_iff.1 hfold
    have hlastNext : before.next t = some (.nothing u) := by simpa using hnext
    exact ofWord?_ne_close (close_of_next hu hlastNext)
  obtain ⟨all, hall, hafter⟩ := Option.bind_eq_some_iff.1 hlonger
  rw [Token.ofChars?, scan_append htokens hlast] at hall
  obtain ⟨added, hadded, rfl⟩ := Option.map_eq_some_iff.1 hall
  have hnil : added = [] := by
    cases added with
    | nil => rfl
    | cons t added =>
      obtain ⟨state', hfold', -⟩ := Option.bind_eq_some_iff.1 hafter
      rw [List.foldlM_append, hfold] at hfold'
      simp [Expecting.next] at hfold'
  rw [hnil] at hadded
  exact isSpace_of_scan hadded

/-- What is read as an object is complete: a longer text is only read at all if nothing but spaces is added. -/
theorem isSpace_of_parse?_append {text rest : List Char} {fields : List (String × Json)} {v : Json}
    (hobject : parse? text = some (.obj fields)) (hlonger : parse? (text ++ rest) = some v) :
    ∀ c ∈ rest, isSpace c = true :=
  isSpace_of_parse?_container (u := .obj fields) trivial hobject hlonger

end ScriptGraph.Json
