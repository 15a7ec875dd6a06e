import ScriptGraph.Json.Parser
import ScriptGraph.Json.Printer

/-!
# Reading what was written as JSON

`Reads text v depth` says that a text is read as the value `v`, whatever stands around it, as long as the text after
it does not go on with a word and there is room for `depth` more containers.  Strings are read back with every
character (`reads_string`), and arrays and objects of texts that are read are read themselves (`reads_array`,
`reads_object`).

The inside of a string is the one place where characters are not what they stand for; `escapeChar_cases` lists the
three ways in which a character is written there, and both the scan up to the closing quote and `unescape` follow it.
-/

namespace ScriptGraph.Json

open Token (scan unescape isWordChar isSpace mark? ofWord? unit? escaped?)

/-! ### Characters inside strings -/

private theorem unit?_control {n : Nat} (h : n < 32) :
    unit? '0' '0' (Nat.digitChar (n / 16)) (Nat.digitChar (n % 16)) = some n :=
  (by decide : ∀ n : Fin 32, unit? '0' '0' (Nat.digitChar (n / 16)) (Nat.digitChar (n % 16)) = some n.1) ⟨n, h⟩

private theorem digitChar_plain {n : Nat} (h : n < 16) :
    Nat.digitChar n ≠ '"' ∧ Nat.digitChar n ≠ '\\' ∧ 32 ≤ (Nat.digitChar n).toNat :=
  (by decide : ∀ n : Fin 16, Nat.digitChar n ≠ '"' ∧ Nat.digitChar n ≠ '\\' ∧ 32 ≤ (Nat.digitChar n).toNat) ⟨n, h⟩

/-- A character is written with a backslash and a letter, as the number of a control character, or as itself. -/
private theorem escapeChar_cases (c : Char) :
    (∃ x, escapeChar c = ['\\', x] ∧ escaped? x = some c ∧ x ≠ 'u' ∧ 32 ≤ x.toNat) ∨
      (c.toNat < 32 ∧ escapeChar c =
        ['\\', 'u', '0', '0', Nat.digitChar (c.toNat / 16), Nat.digitChar (c.toNat % 16)]) ∨
      (escapeChar c = [c] ∧ c ≠ '"' ∧ c ≠ '\\' ∧ 32 ≤ c.toNat) := by
  unfold escapeChar
  split
  · exact .inl ⟨'"', rfl, rfl, by decide, by decide⟩
  · exact .inl ⟨'\\', rfl, rfl, by decide, by decide⟩
  · exact .inl ⟨'b', rfl, rfl, by decide, by decide⟩
  · exact .inl ⟨'t', rfl, rfl, by decide, by decide⟩
  · exact .inl ⟨'n', rfl, rfl, by decide, by decide⟩
  · exact .inl ⟨'f', rfl, rfl, by decide, by decide⟩
  · exact .inl ⟨'r', rfl, rfl, by decide, by decide⟩
  · next hquote hslash _ _ _ _ _ =>
    split
    · next hcontrol => exact .inr (.inl ⟨hcontrol, rfl⟩)
    · next hplain => exact .inr (.inr ⟨rfl, hquote, hslash, by omega⟩)

theorem plain_escapeChar (c : Char) : ∀ d ∈ escapeChar c, 32 ≤ d.toNat := by
  rcases escapeChar_cases c with ⟨x, hx, -, -, hplain⟩ | ⟨hcontrol, hx⟩ | ⟨hx, -, -, hplain⟩ <;> rw [hx]
  · simp [hplain]
  · have h1 := digitChar_plain (n := c.toNat / 16) (by omega)
    have h2 := digitChar_plain (n := c.toNat % 16) (by omega)
    simp [h1, h2]
  · simp [hplain]

private theorem unescape_plain {c : Char} (hslash : c ≠ '\\') (hplain : 32 ≤ c.toNat) (rest : List Char) :
    unescape (c :: rest) = (unescape rest).map (c :: ·) := by
  rw [unescape]
  · rw [if_neg (by omega)]
  all_goals simp_all

private theorem unescape_letter {x c : Char} (h : escaped? x = some c) (hu : x ≠ 'u') (rest : List Char) :
    unescape ('\\' :: x :: rest) = (unescape rest).map (c :: ·) := by
  rw [unescape]
  · rw [h]
  all_goals simp_all

private theorem unescape_control {n : Nat} (h : n < 32) (rest : List Char) :
    unescape ('\\' :: 'u' :: '0' :: '0' :: Nat.digitChar (n / 16) :: Nat.digitChar (n % 16) :: rest) =
      (unescape rest).map (Char.ofNat n :: ·) := by
  rw [unescape, unit?_control h]
  simp only
  rw [if_neg (by simp; omega), if_neg (by simp; omega)]

/-- What a string is written as stands for the string. -/
theorem unescape_flatMap (s : List Char) : unescape (s.flatMap escapeChar) = some s := by
  induction s with
  | nil => rfl
  | cons c s ih =>
    rw [List.flatMap_cons]
    rcases escapeChar_cases c with ⟨x, hx, hc, hu, -⟩ | ⟨hcontrol, hx⟩ | ⟨hx, -, hslash, hplain⟩ <;> rw [hx]
    · rw [List.cons_append, List.singleton_append, unescape_letter hc hu, ih]; rfl
    · simp only [List.cons_append, List.nil_append]
      rw [unescape_control hcontrol, ih, Char.ofNat_toNat]; rfl
    · rw [List.singleton_append, unescape_plain hslash hplain, ih]; rfl

example : unescape ("a\"\n".toList.flatMap escapeChar) = some "a\"\n".toList := by cbv

private theorem scan_string_plain {c : Char} (hquote : c ≠ '"') (hslash : c ≠ '\\') (gathered rest : List Char) :
    scan (.string gathered) (c :: rest) = scan (.string (c :: gathered)) rest := by
  rw [scan]
  all_goals simp_all

private theorem scan_string_escape (x : Char) (gathered rest : List Char) :
    scan (.string gathered) ('\\' :: x :: rest) = scan (.string (x :: '\\' :: gathered)) rest := by
  rw [scan]

/-- The scan of the inside of a string gathers all that is written for it. -/
private theorem scan_string_flatMap (s gathered rest : List Char) :
    scan (.string gathered) (s.flatMap escapeChar ++ rest) =
      scan (.string ((s.flatMap escapeChar).reverse ++ gathered)) rest := by
  induction s generalizing gathered with
  | nil => rfl
  | cons c s ih =>
    rw [List.flatMap_cons, List.append_assoc, List.reverse_append]
    rcases escapeChar_cases c with ⟨x, hx, -⟩ | ⟨hcontrol, hx⟩ | ⟨hx, hquote, hslash, -⟩ <;> rw [hx]
    · rw [List.cons_append, List.singleton_append, scan_string_escape, ih]; simp
    · have h1 := digitChar_plain (n := c.toNat / 16) (by omega)
      have h2 := digitChar_plain (n := c.toNat % 16) (by omega)
      simp only [List.cons_append, List.nil_append]
      rw [scan_string_escape, scan_string_plain (by decide) (by decide), scan_string_plain (by decide) (by decide),
        scan_string_plain h1.1 h1.2.1, scan_string_plain h2.1 h2.2.1, ih]
      simp
    · rw [List.singleton_append, scan_string_plain hquote hslash, ih]; simp

/-! ### Tokens -/

/-- No word goes on at the start of a text. -/
def EndsWord (rest : List Char) : Prop := ∀ c ∈ rest.head?, isWordChar c = false

/-- A text is cut into the given tokens, whatever comes after it, as long as no word goes on there. -/
def Scans (text : List Char) (tokens : List Token) : Prop :=
  ∀ rest, EndsWord rest → scan .between (text ++ rest) = (scan .between rest).map (tokens ++ ·)

theorem scan_mark {c : Char} {t : Token} (h : Token.Scan.start c = some ([t], .between)) (rest : List Char) :
    scan .between (c :: rest) = (scan .between rest).map (t :: ·) := by
  rw [scan, h]
  rfl

private theorem scan_stringChars (s : String) (rest : List Char) :
    scan .between (stringChars s ++ rest) = (scan .between rest).map (.str s :: ·) := by
  have hstart : Token.Scan.start '"' = some ([], .string []) := rfl
  have happ : stringChars s ++ rest = '"' :: (s.toList.flatMap escapeChar ++ '"' :: rest) := by
    simp [stringChars]
  rw [happ, scan, hstart]
  simp only [List.nil_append, Option.map_id']
  rw [scan_string_flatMap, scan, List.append_nil, List.reverse_reverse, unescape_flatMap]
  simp only [String.ofList_toList]

theorem scans_string (s : String) : Scans (stringChars s) [.str s] :=
  fun rest _ => scan_stringChars s rest

example : scan .between (stringChars "a\"\n") = some [.str "a\"\n"] := by cbv

private theorem scan_word {gathered word rest : List Char} {t : Token} (hword : ∀ c ∈ word, isWordChar c = true)
    (ht : ofWord? (gathered.reverse ++ word) = some t) (hrest : EndsWord rest) :
    scan (.word gathered) (word ++ rest) = (scan .between rest).map (t :: ·) := by
  induction word generalizing gathered with
  | nil =>
    rw [List.append_nil] at ht
    cases rest with
    | nil =>
      have hend : scan (.word gathered) [] = (ofWord? gathered.reverse).map ([·]) := by rw [scan]
      rw [List.append_nil, hend, ht, scan]
      rfl
    | cons c rest =>
      have hc : isWordChar c = false := hrest c rfl
      have hnext : scan .between (c :: rest) =
          (Token.Scan.start c).bind fun p => (scan p.2 rest).map (p.1 ++ ·) := by
        rw [scan]
        cases Token.Scan.start c <;> rfl
      rw [hnext, List.nil_append, scan, hc, if_neg (by simp), ht]
      cases Token.Scan.start c with
      | none => rfl
      | some p => simp [Function.comp_def]
  | cons c word ih =>
    have hc : isWordChar c = true := hword c (by simp)
    rw [List.cons_append, scan, if_pos hc]
    exact ih (fun d hd => hword d (by simp [hd])) (by simpa using ht)

/-- A word is one token. -/
theorem scans_word {word : List Char} {t : Token} (hne : word ≠ []) (hword : ∀ c ∈ word, isWordChar c = true)
    (ht : ofWord? word = some t) : Scans word [t] := by
  intro rest hrest
  cases word with
  | nil => exact absurd rfl hne
  | cons c word =>
    have hc : isWordChar c = true := hword c (by simp)
    have hspace : isSpace c = false := by
      cases hs : isSpace c with
      | false => rfl
      | true =>
        simp only [isSpace, Bool.or_eq_true, beq_iff_eq] at hs
        rcases hs with ((rfl | rfl) | rfl) | rfl <;> simp [isWordChar] at hc
    have hstart : Token.Scan.start c = some ([], .word [c]) := by
      simp [Token.Scan.start, hspace, hc]
    rw [List.cons_append, scan, hstart]
    simp only [List.nil_append, Option.map_id']
    exact scan_word (fun d hd => hword d (by simp [hd])) ht hrest

/-! ### Values -/

/-- A text is read as a value, with room for `depth` containers inside each other. -/
def Reads (text : List Char) (v : Json) (depth : Nat) : Prop :=
  ∃ t ts, Scans text (t :: ts) ∧ t ≠ .closeArray ∧
    ∀ around : List Frame, around.length + depth ≤ Expecting.maxDepth →
      (t :: ts).foldlM Expecting.next (.value around) = some (Expecting.complete v around)

theorem Reads.mono {text : List Char} {v : Json} {depth depth' : Nat} (h : Reads text v depth)
    (hle : depth ≤ depth') : Reads text v depth' := by
  obtain ⟨t, ts, hscan, ht, hparse⟩ := h
  exact ⟨t, ts, hscan, ht, fun around hroom => hparse around (by omega)⟩

theorem Reads.parse {text : List Char} {v : Json} {depth : Nat} (h : Reads text v depth)
    (hle : depth ≤ Expecting.maxDepth) : parse? text = some v := by
  obtain ⟨t, ts, hscan, -, hparse⟩ := h
  have htokens : Token.ofChars? text = some (t :: ts) := by
    have := hscan [] (by simp [EndsWord])
    rw [List.append_nil] at this
    rw [Token.ofChars?, this, scan]
    simp
  have hvalue := hparse [] (by simpa using hle)
  simp only [parse?, htokens, Option.bind_eq_bind, Option.bind_some, hvalue, Expecting.complete]

theorem reads_string (s : String) : Reads (stringChars s) (.str s) 0 :=
  ⟨.str s, [], scans_string s, by simp, fun _ _ => rfl⟩

/-! ### Numbers -/

private theorem isWordChar_of_isDigit {c : Char} (h : c.isDigit = true) : isWordChar c = true := by
  simp [isWordChar, Char.isAlphanum, h]

private theorem append_of_digits? {text run rest : List Char} (h : Number.digits? text = some (run, rest)) :
    text = run ++ rest ∧ run ≠ [] ∧ ∀ c ∈ run, isWordChar c = true := by
  unfold Number.digits? at h
  dsimp only at h
  split at h
  · simp at h
  · next hne =>
    obtain ⟨rfl, rfl⟩ := Prod.mk.inj (Option.some.inj h)
    refine ⟨List.takeWhile_append_dropWhile.symm, by simpa using hne, ?_⟩
    intro c hc
    have hall := List.all_eq_true.1 (List.all_takeWhile (p := Char.isDigit) (l := text)) c hc
    exact isWordChar_of_isDigit hall

private theorem append_of_fraction? {text rest : List Char} {fraction : Option (List Char)}
    (h : Number.fraction? text = some (fraction, rest)) :
    ∃ front, text = front ++ rest ∧ ∀ c ∈ front, isWordChar c = true := by
  unfold Number.fraction? at h
  split at h
  · obtain ⟨⟨run, after⟩, hrun, hpair⟩ := Option.map_eq_some_iff.1 h
    obtain ⟨-, rfl⟩ := Prod.mk.inj hpair
    obtain ⟨rfl, -, hword⟩ := append_of_digits? hrun
    refine ⟨'.' :: run, rfl, ?_⟩
    simp only [List.mem_cons, forall_eq_or_imp]
    exact ⟨by decide, hword⟩
  · obtain ⟨-, rfl⟩ := Prod.mk.inj (Option.some.inj h)
    exact ⟨[], rfl, by simp⟩

private theorem isWordChar_of_takeSign {text : List Char}
    (h : ∀ c ∈ (Literal.takeSign text).2, isWordChar c = true) : ∀ c ∈ text, isWordChar c = true := by
  unfold Literal.takeSign at h
  split at h
  · simp only [List.mem_cons, forall_eq_or_imp]; exact ⟨by decide, h⟩
  · simp only [List.mem_cons, forall_eq_or_imp]; exact ⟨by decide, h⟩
  · exact h

private theorem isWordChar_of_exponent? {text : List Char} {exponent : Option Int}
    (h : Number.exponent? text = some exponent) : ∀ c ∈ text, isWordChar c = true := by
  unfold Number.exponent? at h
  split at h
  · simp
  · next c rest =>
    split at h
    · next hmark =>
      have hc : isWordChar c = true := by
        simp only [Bool.or_eq_true, beq_iff_eq] at hmark
        rcases hmark with rfl | rfl <;> decide
      dsimp only at h
      split at h
      · next run hrun =>
        obtain ⟨htext, -, hword⟩ := append_of_digits? hrun
        rw [List.append_nil] at htext
        simp only [List.mem_cons, forall_eq_or_imp]
        exact ⟨hc, isWordChar_of_takeSign (by rw [htext]; exact hword)⟩
      · simp at h
    · simp at h

private theorem isWordChar_of_unsigned? {negative : Bool} {text : List Char} {n : Number}
    (h : Number.unsigned? negative text = some n) : text ≠ [] ∧ ∀ c ∈ text, isWordChar c = true := by
  unfold Number.unsigned? at h
  obtain ⟨⟨whole, afterWhole⟩, hdigits, h⟩ := Option.bind_eq_some_iff.1 h
  dsimp only at h
  split at h
  · simp at h
  · obtain ⟨⟨fraction, afterFraction⟩, hfraction, h⟩ := Option.bind_eq_some_iff.1 h
    obtain ⟨exponent, hexponent, -⟩ := Option.bind_eq_some_iff.1 h
    obtain ⟨rfl, hne, hwhole⟩ := append_of_digits? hdigits
    obtain ⟨front, rfl, hfront⟩ := append_of_fraction? hfraction
    have hlast := isWordChar_of_exponent? hexponent
    refine ⟨by simp [hne], ?_⟩
    intro c hc
    rw [List.mem_append, List.mem_append] at hc
    rcases hc with hc | hc | hc
    · exact hwhole c hc
    · exact hfront c hc
    · exact hlast c hc

/-- What is read as a number is a word. -/
theorem isWordChar_of_ofChars? {text : List Char} {n : Number} (h : Number.ofChars? text = some n) :
    text ≠ [] ∧ ∀ c ∈ text, isWordChar c = true := by
  unfold Number.ofChars? at h
  split at h
  · obtain ⟨-, hword⟩ := isWordChar_of_unsigned? h
    refine ⟨by simp, ?_⟩
    simp only [List.mem_cons, forall_eq_or_imp]
    exact ⟨by decide, hword⟩
  · exact isWordChar_of_unsigned? h

private theorem ofWord?_of_ofChars? {text : List Char} {n : Number} (h : Number.ofChars? text = some n) :
    ofWord? text = some (.num n) := by
  have hne : ∀ word, Number.ofChars? word = none → text ≠ word := by
    rintro word hword rfl
    simp [hword] at h
  unfold ofWord?
  rw [if_neg (hne _ rfl), if_neg (hne _ rfl), if_neg (hne _ rfl), h]
  rfl

theorem reads_number {text : List Char} {n : Number} (h : Number.ofChars? text = some n) :
    Reads text (.num n) 0 := by
  obtain ⟨hne, hword⟩ := isWordChar_of_ofChars? h
  exact ⟨.num n, [], scans_word hne hword (ofWord?_of_ofChars? h), by simp, fun _ _ => rfl⟩

/-! ### Arrays and objects -/

theorem endsWord_cons {c : Char} (h : isWordChar c = false) (rest : List Char) : EndsWord (c :: rest) := by
  intro d hd
  rw [← Option.some.inj hd]
  exact h

private theorem scans_nil : Scans [] [] := fun rest _ => by simp

/-- Two texts with a mark between them. -/
theorem Scans.between {a b : List Char} {as bs : List Token} {c : Char} {t : Token} (ha : Scans a as)
    (hb : Scans b bs) (h : Token.Scan.start c = some ([t], .between)) (hc : isWordChar c = false) :
    Scans (a ++ c :: b) (as ++ t :: bs) := by
  intro rest hrest
  rw [List.append_assoc, ha _ (by exact endsWord_cons hc _), List.cons_append, scan_mark h, hb rest hrest]
  simp [Function.comp_def]

/-- A text between two marks. -/
private theorem Scans.around {a : List Char} {as : List Token} {c d : Char} {t u : Token} (ha : Scans a as)
    (hc : Token.Scan.start c = some ([t], .between)) (hd : Token.Scan.start d = some ([u], .between))
    (hword : isWordChar d = false) : Scans (c :: a ++ [d]) (t :: as ++ [u]) := by
  intro rest hrest
  rw [List.cons_append, List.cons_append, scan_mark hc, List.append_assoc, List.singleton_append,
    ha _ (endsWord_cons hword rest), scan_mark hd]
  simp [Function.comp_def]

/-- The items of an array, read after some others. -/
private theorem reads_items {depth : Nat} :
    ∀ items : List (List Char × Json), items ≠ [] → (∀ p ∈ items, Reads p.1 p.2 depth) →
      ∃ t ts, Scans (commaChars (items.map (·.1))) (t :: ts) ∧ t ≠ .closeArray ∧
        ∀ (done : List Json) (around : List Frame), around.length + 1 + depth ≤ Expecting.maxDepth →
          (t :: ts).foldlM Expecting.next (.value (.array done :: around)) =
            some (.afterItem ((items.map (·.2)).reverse ++ done) around)
  | [], hne, _ => absurd rfl hne
  | [p], _, h => by
    obtain ⟨t, ts, hscan, ht, hparse⟩ := h p (by simp)
    exact ⟨t, ts, hscan, ht, fun done around hroom => hparse (.array done :: around) (by simpa using hroom)⟩
  | p :: q :: rest, _, h => by
    obtain ⟨t, ts, hscan, ht, hparse⟩ := h p (by simp)
    obtain ⟨u, us, hscan', -, hparse'⟩ := reads_items (q :: rest) (by simp) fun r hr => h r (by simp [hr])
    refine ⟨t, ts ++ .comma :: u :: us, hscan.between hscan' rfl rfl, ht, ?_⟩
    intro done around hroom
    have hfirst := hparse (.array done :: around) (by simpa using hroom)
    have hothers := hparse' (p.2 :: done) around hroom
    rw [← List.cons_append, List.foldlM_append, hfirst]
    refine hothers.trans ?_
    simp

/-- An array of texts that are read is read. -/
theorem reads_array {depth : Nat} (items : List (List Char × Json)) (h : ∀ p ∈ items, Reads p.1 p.2 depth) :
    Reads ('[' :: commaChars (items.map (·.1)) ++ [']']) (.arr (items.map (·.2))) (depth + 1) := by
  cases items with
  | nil =>
    refine ⟨.openArray, [.closeArray], ?_, by simp, ?_⟩
    · exact scans_nil.around rfl rfl rfl
    · intro around hroom
      have : around.length < Expecting.maxDepth := by omega
      simp [Expecting.next, Expecting.beginValue, this]
  | cons p items =>
    obtain ⟨t, ts, hscan, ht, hparse⟩ := reads_items (p :: items) (by simp) h
    refine ⟨.openArray, t :: ts ++ [.closeArray], hscan.around rfl rfl rfl, by simp, ?_⟩
    intro around hroom
    have hopen : Expecting.next (.value around) .openArray = some (.firstItem around) := by
      have : around.length < Expecting.maxDepth := by omega
      simp [Expecting.next, Expecting.beginValue, this]
    -- the first item is read as if others had come before it, because its first token does not close the array
    have hfirst : Expecting.next (.firstItem around) t = Expecting.next (.value (.array [] :: around)) t := by
      cases t <;> first | rfl | exact absurd rfl ht
    have hitems := hparse [] around (by omega)
    rw [List.foldlM_cons, hopen]
    simp only [Option.bind_eq_bind, Option.bind_some]
    rw [List.foldlM_append, List.foldlM_cons, hfirst, ← List.foldlM_cons, hitems]
    simp [Expecting.next]

/-- Fields put under their keys one after the other. -/
def insertFields (fields : List (String × List Char × Json)) (done : List (String × Json)) :
    List (String × Json) :=
  fields.foldl (fun done f => insertField f.1 f.2.2 done) done

/-- The written form of a field. -/
private def fieldText (f : String × List Char × Json) : List Char :=
  stringChars f.1 ++ ':' :: f.2.1

private theorem reads_field {depth : Nat} {f : String × List Char × Json} (h : Reads f.2.1 f.2.2 depth) :
    ∃ ts, Scans (fieldText f) (.str f.1 :: ts) ∧
      ∀ (done : List (String × Json)) (around : List Frame), around.length + 1 + depth ≤ Expecting.maxDepth →
        (Token.str f.1 :: ts).foldlM Expecting.next (.nextKey done around) =
          some (.afterField (insertField f.1 f.2.2 done) around) := by
  obtain ⟨t, ts, hscan, -, hparse⟩ := h
  refine ⟨.colon :: t :: ts, (scans_string f.1).between hscan rfl rfl, ?_⟩
  intro done around hroom
  exact hparse (.object done f.1 :: around) (by simpa using hroom)

/-- The fields of an object, read after some others. -/
private theorem reads_fields {depth : Nat} :
    ∀ fields : List (String × List Char × Json), fields ≠ [] → (∀ f ∈ fields, Reads f.2.1 f.2.2 depth) →
      ∃ key ts, Scans (commaChars (fields.map fieldText)) (.str key :: ts) ∧
        ∀ (done : List (String × Json)) (around : List Frame), around.length + 1 + depth ≤ Expecting.maxDepth →
          (Token.str key :: ts).foldlM Expecting.next (.nextKey done around) =
            some (.afterField (insertFields fields done) around)
  | [], hne, _ => absurd rfl hne
  | [f], _, h => by
    obtain ⟨ts, hscan, hparse⟩ := reads_field (h f (by simp))
    exact ⟨f.1, ts, hscan, hparse⟩
  | f :: g :: rest, _, h => by
    obtain ⟨ts, hscan, hparse⟩ := reads_field (h f (by simp))
    obtain ⟨key, us, hscan', hparse'⟩ := reads_fields (g :: rest) (by simp) fun r hr => h r (by simp [hr])
    refine ⟨f.1, ts ++ .comma :: .str key :: us, hscan.between hscan' rfl rfl, ?_⟩
    intro done around hroom
    have hfirst := hparse done around hroom
    have hothers := hparse' (insertField f.1 f.2.2 done) around hroom
    rw [← List.cons_append, List.foldlM_append, hfirst]
    exact hothers

/-- An object of texts that are read is read. -/
theorem reads_object {depth : Nat} (fields : List (String × List Char × Json))
    (h : ∀ f ∈ fields, Reads f.2.1 f.2.2 depth) :
    Reads ('{' :: commaChars (fields.map fun f => stringChars f.1 ++ ':' :: f.2.1) ++ ['}'])
      (.obj (insertFields fields [])) (depth + 1) := by
  cases fields with
  | nil =>
    refine ⟨.openObject, [.closeObject], ?_, by simp, ?_⟩
    · exact scans_nil.around rfl rfl rfl
    · intro around hroom
      have : around.length < Expecting.maxDepth := by omega
      simp [Expecting.next, Expecting.beginValue, this, insertFields]
  | cons f fields =>
    obtain ⟨key, ts, hscan, hparse⟩ := reads_fields (f :: fields) (by simp) h
    refine ⟨.openObject, .str key :: ts ++ [.closeObject], hscan.around rfl rfl rfl, by simp, ?_⟩
    intro around hroom
    have hopen : Expecting.next (.value around) .openObject = some (.firstKey around) := by
      have : around.length < Expecting.maxDepth := by omega
      simp [Expecting.next, Expecting.beginValue, this]
    have hfirst : Expecting.next (.firstKey around) (.str key) = Expecting.next (.nextKey [] around) (.str key) := rfl
    have hfields := hparse [] around (by omega)
    rw [List.foldlM_cons, hopen]
    simp only [Option.bind_eq_bind, Option.bind_some]
    rw [List.foldlM_append, List.foldlM_cons, hfirst, ← List.foldlM_cons, hfields]
    simp [Expecting.next]

/-! ### Fields -/

/-- Under the key of a field stands its value, under the others what stood there before. -/
theorem field?_insertField (key key' : String) (v : Json) (fields : List (String × Json)) :
    field? key (insertField key' v fields) = if key = key' then some v else field? key fields := by
  unfold field?
  induction fields with
  | nil =>
    simp only [insertField, List.lookup_cons, List.lookup_nil]
    split <;> simp_all
  | cons f fields ih =>
    obtain ⟨k, w⟩ := f
    unfold insertField
    split
    · simp only [List.lookup_cons]
      split <;> simp_all
    · next heq =>
      have hkey : key' = k := Std.LawfulEqOrd.eq_of_compare heq
      subst hkey
      simp only [List.lookup_cons]
      split <;> simp_all
    · next hgt =>
      have hkey : k ≠ key' := by
        rintro rfl
        simp [Std.ReflOrd.compare_self] at hgt
      simp only [List.lookup_cons, ih]
      split <;> simp_all

end ScriptGraph.Json
