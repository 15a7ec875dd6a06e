import ScriptGraph.Proofs.DocumentLines
import ScriptGraph.Proofs.NumberText

/-!
# Every written value is read

A valid value, in which every number is one of a document, is read from its compact text with room for as many
containers as it is deep (`exists_reads_chars`), and an object is read as an object (`exists_reads_object`).  Its text
has no control characters (`plain_chars`), so it stays on one line.
-/

namespace ScriptGraph.Json

mutual

/-- How many containers stand inside each other in a value. -/
def depth : Json → Nat
  | .arr items => itemDepth items + 1
  | .obj fields => fieldDepth fields + 1
  | _ => 0

/-- The depth of the deepest item. -/
def itemDepth : List Json → Nat
  | [] => 0
  | v :: rest => max (depth v) (itemDepth rest)

/-- The depth of the deepest field. -/
def fieldDepth : List (String × Json) → Nat
  | [] => 0
  | (_, v) :: rest => max (depth v) (fieldDepth rest)

end

mutual

/-- All numbers in a value are numbers of a document. -/
def Valid : Json → Prop
  | .num n => n.Valid
  | .arr items => ItemsValid items
  | .obj fields => FieldsValid fields
  | _ => True

/-- All items are valid. -/
def ItemsValid : List Json → Prop
  | [] => True
  | v :: rest => Valid v ∧ ItemsValid rest

/-- All fields are valid. -/
def FieldsValid : List (String × Json) → Prop
  | [] => True
  | (_, v) :: rest => Valid v ∧ FieldsValid rest

end

private theorem reads_word {word : List Char} {t : Token} {v : Json} (hne : word ≠ [])
    (hword : word.all Token.isWordChar = true) (ht : Token.ofWord? word = some t) (hclose : t ≠ .closeArray)
    (hnext : ∀ around, Expecting.next (.value around) t = some (Expecting.complete v around)) : Reads word v 0 :=
  ⟨t, [], scans_word hne (List.all_eq_true.1 hword) ht, hclose, fun around _ => by simpa using hnext around⟩

mutual

/-- A valid value is read from its text. -/
theorem exists_reads_chars (v : Json) (h : v.Valid) : ∃ v', Reads (chars v) v' (depth v) := by
  cases v with
  | null => exact ⟨.null, reads_word (by simp [chars]) (by decide) rfl (by simp) fun _ => rfl⟩
  | bool b =>
    refine ⟨.bool b, ?_⟩
    cases b with
    | false => exact reads_word (by simp [chars]) (by decide) rfl (by simp) fun _ => rfl
    | true => exact reads_word (by simp [chars]) (by decide) rfl (by simp) fun _ => rfl
  | num n =>
    rw [Valid] at h
    obtain ⟨n', hn'⟩ := Number.exists_ofChars?_text h
    rw [chars]
    exact ⟨.num n', reads_number hn'⟩
  | str s =>
    rw [chars]
    exact ⟨.str s, reads_string s⟩
  | arr items =>
    rw [Valid] at h
    obtain ⟨ps, htexts, hreads⟩ := exists_reads_items items h
    rw [chars, htexts, depth]
    exact ⟨_, reads_array ps hreads⟩
  | obj fields =>
    rw [Valid] at h
    obtain ⟨ps, htexts, hreads⟩ := exists_reads_fields fields h
    rw [chars, htexts, depth]
    exact ⟨_, reads_object ps hreads⟩

/-- The texts of valid items with what they are read as. -/
theorem exists_reads_items (items : List Json) (h : ItemsValid items) :
    ∃ ps : List (List Char × Json), itemTexts items = ps.map (·.1) ∧ ∀ p ∈ ps, Reads p.1 p.2 (itemDepth items) := by
  cases items with
  | nil => exact ⟨[], rfl, by simp⟩
  | cons v rest =>
    rw [ItemsValid] at h
    obtain ⟨v', hv'⟩ := exists_reads_chars v h.1
    obtain ⟨ps, htexts, hreads⟩ := exists_reads_items rest h.2
    refine ⟨(chars v, v') :: ps, by rw [itemTexts, htexts, List.map_cons], ?_⟩
    rw [itemDepth]
    intro p hp
    rcases List.mem_cons.1 hp with rfl | hp
    · exact hv'.mono (Nat.le_max_left ..)
    · exact (hreads p hp).mono (Nat.le_max_right ..)

/-- The keys of valid fields and their texts with what they are read as. -/
theorem exists_reads_fields (fields : List (String × Json)) (h : FieldsValid fields) :
    ∃ ps : List (String × List Char × Json), fieldTexts fields = ps.map (fun f => stringChars f.1 ++ ':' :: f.2.1) ∧
      ∀ f ∈ ps, Reads f.2.1 f.2.2 (fieldDepth fields) := by
  cases fields with
  | nil => exact ⟨[], rfl, by simp⟩
  | cons field rest =>
    obtain ⟨key, v⟩ := field
    rw [FieldsValid] at h
    obtain ⟨v', hv'⟩ := exists_reads_chars v h.1
    obtain ⟨ps, htexts, hreads⟩ := exists_reads_fields rest h.2
    refine ⟨(key, chars v, v') :: ps, by rw [fieldTexts, htexts, List.map_cons], ?_⟩
    rw [fieldDepth]
    intro f hf
    rcases List.mem_cons.1 hf with rfl | hf
    · exact hv'.mono (Nat.le_max_left ..)
    · exact (hreads f hf).mono (Nat.le_max_right ..)

end

/-- A valid object is read as an object. -/
theorem exists_reads_object {fields : List (String × Json)} (h : (Json.obj fields).Valid) :
    ∃ fields', Reads (chars (.obj fields)) (.obj fields') (depth (.obj fields)) := by
  rw [Valid] at h
  obtain ⟨ps, htexts, hreads⟩ := exists_reads_fields fields h
  rw [chars, htexts, depth]
  exact ⟨_, reads_object ps hreads⟩

/-! ### No control characters -/

private theorem plain_between {text : List Char} {c d : Char} (h : ∀ e ∈ text, 32 ≤ e.toNat) (hc : 32 ≤ c.toNat)
    (hd : 32 ≤ d.toNat) : ∀ e ∈ c :: text ++ [d], 32 ≤ e.toNat := by
  intro e he
  simp only [List.cons_append, List.mem_cons, List.mem_append, List.not_mem_nil, or_false] at he
  rcases he with rfl | he | rfl
  · exact hc
  · exact h e he
  · exact hd

mutual

/-- There are no control characters in the text of a valid value. -/
theorem plain_chars (v : Json) (h : v.Valid) : ∀ c ∈ chars v, 32 ≤ c.toNat := by
  cases v with
  | null => simp [chars]
  | bool b => cases b <;> simp [chars]
  | num n =>
    rw [Valid] at h
    obtain ⟨n', hn'⟩ := Number.exists_ofChars?_text h
    rw [chars]
    exact fun c hc => plain_of_isWordChar ((isWordChar_of_ofChars? hn').2 c hc)
  | str s =>
    rw [chars]
    exact plain_stringChars s
  | arr items =>
    rw [Valid] at h
    rw [chars]
    exact plain_between (plain_commaChars (plain_itemTexts items h)) (by decide) (by decide)
  | obj fields =>
    rw [Valid] at h
    rw [chars]
    exact plain_between (plain_commaChars (plain_fieldTexts fields h)) (by decide) (by decide)

theorem plain_itemTexts (items : List Json) (h : ItemsValid items) :
    ∀ text ∈ itemTexts items, ∀ c ∈ text, 32 ≤ c.toNat := by
  cases items with
  | nil => simp [itemTexts]
  | cons v rest =>
    rw [ItemsValid] at h
    intro text htext
    rw [itemTexts, List.mem_cons] at htext
    rcases htext with rfl | htext
    · exact plain_chars v h.1
    · exact plain_itemTexts rest h.2 text htext

theorem plain_fieldTexts (fields : List (String × Json)) (h : FieldsValid fields) :
    ∀ text ∈ fieldTexts fields, ∀ c ∈ text, 32 ≤ c.toNat := by
  cases fields with
  | nil => simp [fieldTexts]
  | cons field rest =>
    obtain ⟨key, v⟩ := field
    rw [FieldsValid] at h
    intro text htext
    rw [fieldTexts, List.mem_cons] at htext
    rcases htext with rfl | htext
    · intro c hc
      rcases List.mem_append.1 hc with hc | hc
      · exact plain_stringChars key c hc
      · rcases List.mem_cons.1 hc with rfl | hc
        · decide
        · exact plain_chars v h.1 c hc
    · exact plain_fieldTexts rest h.2 text htext

end

end ScriptGraph.Json
