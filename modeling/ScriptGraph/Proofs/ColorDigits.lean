import ScriptGraph.Proofs.DocumentMeaning

/-!
# The digits of a color

Six or eight hexadecimal digits are a color, which is written with the same digits in lower case, and with those of
the full opacity after six of them.  Reading accepts a little more than that: the first digit of a byte may be a
plus sign, which counts as a zero (`isSome_ofDigits?_iff`, `hexChars_of_ofDigits?`).  So the texts that are read
without being made of digits are those with a plus sign in such a place, and no other (`Color.reads_bytes`).
-/

namespace ScriptGraph

namespace Text

/-- A hexadecimal digit, which may be in either case. -/
def IsHexDigit (c : Char) : Prop :=
  c ∈ "0123456789abcdefABCDEF".toList

instance : DecidablePred IsHexDigit := fun c => inferInstanceAs (Decidable (c ∈ "0123456789abcdefABCDEF".toList))

/-- A digit is one of the sixteen in lower case, or one of the six in upper case. -/
private theorem hexValue?_cases {c : Char} {n : Nat} (h : hexValue? c = some n) :
    n < 16 ∧ c = Nat.digitChar n ∨ 10 ≤ n ∧ n < 16 ∧ c = Char.ofNat (55 + n) := by
  have hnumber : ∀ k < 10, Nat.digitChar k = Char.ofNat (48 + k) := by decide
  have hletter : ∀ k < 6, Nat.digitChar (10 + k) = Char.ofNat (97 + k) := by decide
  simp only [hexValue?, Bool.and_eq_true, decide_eq_true_eq] at h
  split_ifs at h with hdigit hlower hupper
  · obtain rfl := Option.some.inj h
    rw [hnumber _ (by omega), Nat.add_sub_cancel' hdigit.1, Char.ofNat_toNat]
    exact .inl ⟨by omega, rfl⟩
  · obtain rfl := Option.some.inj h
    have hsum : c.toNat - 87 = 10 + (c.toNat - 97) := by omega
    rw [hsum, hletter _ (by omega), Nat.add_sub_cancel' hlower.1, Char.ofNat_toNat]
    exact .inl ⟨by omega, rfl⟩
  · obtain rfl := Option.some.inj h
    rw [Nat.add_sub_cancel' (by omega), Char.ofNat_toNat]
    exact .inr ⟨by omega, by omega, rfl⟩

theorem isSome_hexValue?_iff {c : Char} : (hexValue? c).isSome ↔ IsHexDigit c := by
  have hlower : ∀ n < 16, IsHexDigit (Nat.digitChar n) := by decide
  have hupper : ∀ n < 16, 10 ≤ n → IsHexDigit (Char.ofNat (55 + n)) := by decide
  have hsome : ("0123456789abcdefABCDEF".toList.all fun c => (hexValue? c).isSome) = true := by decide
  constructor
  · intro h
    obtain ⟨n, hn⟩ := Option.isSome_iff_exists.1 h
    obtain ⟨hlt, rfl⟩ | ⟨hle, hlt, rfl⟩ := hexValue?_cases hn
    · exact hlower n hlt
    · exact hupper n hlt hle
  · exact List.all_eq_true.1 hsome c

/-- A digit is written in lower case. -/
theorem digitChar_of_hexValue? {c : Char} {n : Nat} (h : hexValue? c = some n) :
    n < 16 ∧ Nat.digitChar n = asciiLower c := by
  have hlower : ∀ n < 16, Nat.digitChar n = asciiLower (Nat.digitChar n) := by decide
  have hupper : ∀ n < 16, 10 ≤ n → Nat.digitChar n = asciiLower (Char.ofNat (55 + n)) := by decide
  obtain ⟨hlt, rfl⟩ | ⟨hle, hlt, rfl⟩ := hexValue?_cases h
  · exact ⟨hlt, hlower n hlt⟩
  · exact ⟨hlt, hupper n hlt hle⟩

end Text

namespace Color

open Text (IsHexDigit)

/-! ### Texts of colors -/

/-- What is left of a text without the blanks around it and the `#` before its digits. -/
def digitsOf (s : String) : List Char :=
  (Text.trimChars s.toList).dropWhile (· == '#')

/-- Six or eight digits. -/
structure IsDigitText (text : List Char) : Prop where
  length : text.length = 6 ∨ text.length = 8
  digits : ∀ c ∈ text, IsHexDigit c

/-- Pairs of two digits, or of a plus sign and a digit. -/
def AreBytes : List Char → Prop
  | [] => True
  | [_] => False
  | a :: b :: rest => (a = '+' ∨ IsHexDigit a) ∧ IsHexDigit b ∧ AreBytes rest

/-- Three or four such pairs. -/
structure IsByteText (text : List Char) : Prop where
  length : text.length = 6 ∨ text.length = 8
  bytes : AreBytes text

/-- How a character of a color is written. -/
def written (c : Char) : Char :=
  if c = '+' then '0' else Text.asciiLower c

/-- What is written after the digits of a color if they do not tell its opacity. -/
def opacity (text : List Char) : List Char :=
  if text.length = 6 then ['f', 'f'] else []

private theorem ne_plus_of_isHexDigit {c : Char} (h : IsHexDigit c) : c ≠ '+' := by
  rintro rfl
  exact absurd h (by decide)

private theorem written_of_isHexDigit {c : Char} (h : IsHexDigit c) : written c = Text.asciiLower c :=
  if_neg (ne_plus_of_isHexDigit h)

private theorem areBytes_of_isHexDigit {text : List Char} (heven : text.length % 2 = 0)
    (h : ∀ c ∈ text, IsHexDigit c) : AreBytes text := by
  fun_induction AreBytes text with
  | case1 => trivial
  | case2 => simp at heven
  | case3 a b rest ih =>
    rw [List.forall_mem_cons, List.forall_mem_cons] at h
    rw [List.length_cons, List.length_cons, Nat.add_assoc, Nat.add_mod_right] at heven
    exact ⟨.inr h.1, h.2.1, ih heven h.2.2⟩

private theorem isHexDigit_of_areBytes {text : List Char} (h : AreBytes text) (hplus : '+' ∉ text) :
    ∀ c ∈ text, IsHexDigit c := by
  fun_induction AreBytes text with
  | case1 => simp
  | case2 => exact h.elim
  | case3 a b rest ih =>
    rw [List.mem_cons, List.mem_cons, not_or, not_or] at hplus
    rw [List.forall_mem_cons, List.forall_mem_cons]
    exact ⟨h.1.resolve_left (Ne.symm hplus.1), h.2.1, ih h.2.2 hplus.2.2⟩

/-- Digits are bytes, and the other bytes have a plus sign. -/
theorem isDigitText_iff {text : List Char} : IsDigitText text ↔ IsByteText text ∧ '+' ∉ text := by
  constructor
  · intro h
    have heven : text.length % 2 = 0 := by have := h.length; omega
    exact ⟨⟨h.length, areBytes_of_isHexDigit heven h.digits⟩,
      fun hplus => ne_plus_of_isHexDigit (h.digits _ hplus) rfl⟩
  · rintro ⟨h, hplus⟩
    exact ⟨h.length, isHexDigit_of_areBytes h.bytes hplus⟩

/-! ### Reading -/

theorem isSome_byte?_iff {a b : Char} : (byte? a b).isSome ↔ (a = '+' ∨ IsHexDigit a) ∧ IsHexDigit b := by
  rw [byte?, ← Text.isSome_hexValue?_iff, ← Text.isSome_hexValue?_iff]
  split
  · next hplus => simp [hplus]
  · next hplus =>
    cases Text.hexValue? a <;> cases Text.hexValue? b <;> simp [hplus]

theorem hexByte_of_byte? {a b : Char} {n : Nat} (h : byte? a b = some n) :
    n < 256 ∧ Text.hexByte n = [written a, written b] := by
  have hsecond : IsHexDigit b := (isSome_byte?_iff.1 (Option.isSome_iff_exists.2 ⟨n, h⟩)).2
  rw [byte?] at h
  rw [written_of_isHexDigit hsecond]
  split at h
  · next hplus =>
    obtain ⟨hlt, hlow⟩ := Text.digitChar_of_hexValue? h
    rw [Text.hexByte, Nat.div_eq_of_lt hlt, Nat.mod_eq_of_lt hlt, hlow, hplus]
    exact ⟨by omega, rfl⟩
  · next hplus =>
    simp only [Option.bind_eq_bind, Option.bind_eq_some_iff, Option.some.injEq] at h
    obtain ⟨high, hhigh, low, hlow, rfl⟩ := h
    obtain ⟨hhigh', hfirst⟩ := Text.digitChar_of_hexValue? hhigh
    obtain ⟨hlow', hlast⟩ := Text.digitChar_of_hexValue? hlow
    have hdiv : (16 * high + low) / 16 = high := by omega
    have hmod : (16 * high + low) % 16 = low := by omega
    rw [Text.hexByte, hdiv, hmod, hfirst, hlast, written, if_neg hplus]
    exact ⟨by omega, rfl⟩

/-- The two lengths that the digits of a color may have. -/
private theorem length_cases (text : List Char) :
    (∃ a b c d e f, text = [a, b, c, d, e, f]) ∨ (∃ a b c d e f g h, text = [a, b, c, d, e, f, g, h]) ∨
      ¬(text.length = 6 ∨ text.length = 8) := by
  by_cases hsix : text.length = 6
  · match text, hsix with
    | [a, b, c, d, e, f], _ => exact .inl ⟨a, b, c, d, e, f, rfl⟩
  by_cases height : text.length = 8
  · match text, height with
    | [a, b, c, d, e, f, g, h], _ => exact .inr (.inl ⟨a, b, c, d, e, f, g, h, rfl⟩)
  exact .inr (.inr (not_or.2 ⟨hsix, height⟩))

private theorem ofDigits?_of_length {text : List Char} (h : ¬(text.length = 6 ∨ text.length = 8)) :
    ofDigits? text = none := by
  unfold ofDigits?
  split
  · exact absurd (.inl rfl) h
  · exact absurd (.inr rfl) h
  · rfl

private theorem areBytes_cons_cons {a b : Char} {rest : List Char} :
    AreBytes (a :: b :: rest) ↔ (byte? a b).isSome ∧ AreBytes rest := by
  rw [AreBytes, isSome_byte?_iff, and_assoc]

theorem isSome_ofDigits?_iff {text : List Char} : (ofDigits? text).isSome ↔ IsByteText text := by
  have hbytes (h : text.length = 6 ∨ text.length = 8) : IsByteText text ↔ AreBytes text :=
    ⟨(·.bytes), fun hpairs => ⟨h, hpairs⟩⟩
  obtain ⟨a, b, c, d, e, f, rfl⟩ | ⟨a, b, c, d, e, f, g, h, rfl⟩ | hlength := length_cases text
  · rw [hbytes (.inl rfl), areBytes_cons_cons, areBytes_cons_cons, areBytes_cons_cons, ofDigits?]
    cases byte? a b <;> cases byte? c d <;> cases byte? e f <;> simp [AreBytes]
  · rw [hbytes (.inr rfl), areBytes_cons_cons, areBytes_cons_cons, areBytes_cons_cons, areBytes_cons_cons, ofDigits?]
    cases byte? a b <;> cases byte? c d <;> cases byte? e f <;> cases byte? g h <;> simp [AreBytes]
  · rw [ofDigits?_of_length hlength]
    simp only [Option.isSome_none, Bool.false_eq_true, false_iff]
    exact fun h => hlength h.length

private theorem hexByte_channelOfByte {a b : Char} {n : Nat} (h : byte? a b = some n) :
    Text.hexByte (byteOfChannel (channelOfByte n)) = [written a, written b] := by
  obtain ⟨hlt, hhex⟩ := hexByte_of_byte? h
  rw [byteOfChannel_channelOfByte n hlt, hhex]

/-- A color is written as it was read, in lower case and with zeros for the plus signs. -/
theorem hexChars_of_ofDigits? {text : List Char} {color : Color} (h : ofDigits? text = some color) :
    color.hexChars = text.map written ++ opacity text := by
  obtain ⟨a, b, c, d, e, f, rfl⟩ | ⟨a, b, c, d, e, f, g, i, rfl⟩ | hlength := length_cases text
  · simp only [ofDigits?, Option.bind_eq_bind, Option.bind_eq_some_iff, Option.some.injEq] at h
    obtain ⟨red, hred, green, hgreen, blue, hblue, rfl⟩ := h
    have hfull : Text.hexByte (byteOfChannel (Float32.ofNat 1)) = ['f', 'f'] := by decide +kernel
    simp [hexChars, opacity, hexByte_channelOfByte hred, hexByte_channelOfByte hgreen, hexByte_channelOfByte hblue,
      hfull]
  · simp only [ofDigits?, Option.bind_eq_bind, Option.bind_eq_some_iff, Option.some.injEq] at h
    obtain ⟨red, hred, green, hgreen, blue, hblue, alpha, halpha, rfl⟩ := h
    simp [hexChars, opacity, hexByte_channelOfByte hred, hexByte_channelOfByte hgreen, hexByte_channelOfByte hblue,
      hexByte_channelOfByte halpha]
  · rw [ofDigits?_of_length hlength] at h
    cases h

theorem isSome_ofHex?_iff {s : String} : (ofHex? s).isSome ↔ IsByteText (digitsOf s) := isSome_ofDigits?_iff

theorem hex_of_ofHex? {s : String} {color : Color} (h : ofHex? s = some color) :
    color.hex = String.ofList ((digitsOf s).map written ++ opacity (digitsOf s)) :=
  congrArg String.ofList (hexChars_of_ofDigits? h)

/-- A color is read from bytes, which are digits but for plus signs.  It is written with the digits that it was read
from, in lower case, and a zero for each plus sign.  A node of a document whose color cannot be read is gray. -/
theorem reads_bytes (s : String) :
    ((ofHex? s).isSome ↔ IsByteText (digitsOf s)) ∧
    (IsDigitText (digitsOf s) ↔ IsByteText (digitsOf s) ∧ '+' ∉ digitsOf s) ∧
    (∀ color, ofHex? s = some color →
      color.hex = String.ofList ((digitsOf s).map written ++ opacity (digitsOf s)) ∧
      (IsDigitText (digitsOf s) →
        color.hex = String.ofList ((digitsOf s).map Text.asciiLower ++ opacity (digitsOf s)))) ∧
    ∀ (fresh : Nat → String) (text : String) (g : Graph Float32) (report : Document.Report),
      Document.decode fresh text = .ok (g, report) → ∀ (i : Nat) (r : Document.Record) (n : Node Float32),
        (Document.records text.toList).2[i]? = some r → g.node? i = some n →
        Document.stringField r "color" = some s → n.color = (ofHex? s).getD .gray := by
  refine ⟨isSome_ofHex?_iff, isDigitText_iff, fun color hcolor => ⟨hex_of_ofHex? hcolor, fun hdigits => ?_⟩, ?_⟩
  · have hwritten : (digitsOf s).map written = (digitsOf s).map Text.asciiLower :=
      List.map_congr_left fun c hc => written_of_isHexDigit (hdigits.digits c hc)
    rw [hex_of_ofHex? hcolor, hwritten]
  · intro fresh text g report hdecode i r n hr hn hfield
    obtain ⟨n', hn', hdescribes, -⟩ := (Document.means_of_decode hdecode).nodes i r hr
    obtain rfl : n' = n := Option.some.inj (hn'.symm.trans hn)
    rw [hdescribes.color, hfield, Option.bind_some]

/-- A document with two nodes, one of an orange color and one of a color that nobody can read. -/
def painted : String :=
  "\x7b\"label\": \"Wait\", \"color\": \" #FFA500\"\x7d\n\x7b\"label\": \"Wait\", \"color\": \"#FFA5OO\"\x7d"

theorem reads_bytes_painted :
    (∃ color, ofHex? " #FFA500" = some color ∧ color.hex = "ffa500ff") ∧
    ∃ g report n, Document.decode toString painted = .ok (g, report) ∧ g.node? 1 = some n ∧ n.color = .gray := by
  constructor
  · have hall : ((digitsOf " #FFA500").all fun c => IsHexDigit c) = true := by decide
    have hdigits : IsDigitText (digitsOf " #FFA500") := ⟨.inl (by decide), by simpa using hall⟩
    obtain ⟨hread, hbytes, hwritten, -⟩ := reads_bytes " #FFA500"
    obtain ⟨color, hcolor⟩ := Option.isSome_iff_exists.1 (hread.2 (hbytes.1 hdigits).1)
    exact ⟨color, hcolor, ((hwritten color hcolor).2 hdigits).trans (by decide)⟩
  · have hfields : (Document.records painted.toList).2.map (Document.stringField · "color") =
        [some " #FFA500", some "#FFA5OO"] := by decide +kernel
    obtain ⟨r₀, rs, hrs, -, hrest⟩ := List.map_eq_cons_iff.1 hfields
    obtain ⟨r, rfl, hfield⟩ := List.map_eq_singleton_iff.1 hrest
    obtain ⟨g, report, hdecode, -, hmeans⟩ := Document.exists_means toString painted (by simp [hrs])
    have hr : (Document.records painted.toList).2[1]? = some r := by rw [hrs]; rfl
    obtain ⟨n, hn, -⟩ := hmeans.nodes 1 r hr
    have hgray := (reads_bytes "#FFA5OO").2.2.2 toString painted g report hdecode 1 r n hr hn hfield
    exact ⟨g, report, n, hdecode, hn, hgray.trans (by decide)⟩

/-- Three plus signs are read as zeros. -/
theorem reads_plus_signs : digitsOf "+a+b+c" = "+a+b+c".toList ∧ ¬IsDigitText (digitsOf "+a+b+c") ∧
    (ofHex? "+a+b+c").map hex = some "0a0b0cff" := by
  refine ⟨by decide, fun h => ?_, by decide +kernel⟩
  exact absurd (h.digits '+' (by decide)) (by decide)

end Color

end ScriptGraph
