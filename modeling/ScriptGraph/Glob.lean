import ScriptGraph.Text.Pattern

/-!
# Globs

Patterns for names, as listeners write them. `*` stands for any text and `?` for one byte, `[…]` for one of the
bytes of some characters or, after `!` or `^`, for none of them, and `{…,…}` for one of some globs; a backslash
takes away the meaning of the character after it. Two stars that fill a part of a path, between slashes, stand for
any parts.
-/

namespace ScriptGraph

/-- A compiled glob. -/
structure Glob where
  pattern : Text.Pattern
  deriving DecidableEq, Repr

namespace Glob

/-- A part of a glob. Two stars may later join what is before them, so the parts that they make are kept apart. -/
inductive Part where
  /-- two stars at the front -/
  | leading
  /-- two stars at the end -/
  | trailing
  | pattern (p : Text.Pattern)
  deriving DecidableEq, Repr

/-- The bytes of a character. -/
def charBytes (c : Char) : List Nat :=
  (String.utf8EncodeChar c).map (·.toNat)

/-- A character that stands for itself. -/
def Part.literal (c : Char) : Part := .pattern (.bytes (charBytes c))

/-- Any text. -/
def Part.star : Part := .pattern .anyBytes

private def slash : Text.Pattern := .bytes (charBytes '/')

/-- Two stars between slashes. -/
def Part.inner : Part := .pattern (.alt slash (.concat [slash, .anyBytes, slash]))

/-- The pattern of a part. -/
def Part.toPattern : Part → Text.Pattern
  | leading => .choice [.empty, slash, .concat [.anyBytes, slash]]
  | trailing => .concat [slash, .anyBytes]
  | pattern p => p

/-- A glob that is being read: the parts so far, last one first, and for each open brace the parts before it and the
patterns that were complete inside it. -/
structure Reading where
  parts : List Part
  braces : List (List Part × List Text.Pattern)

namespace Reading

/-- Adds a part. -/
def push (r : Reading) (p : Part) : Reading :=
  { r with parts := p :: r.parts }

/-- Puts a part in place of the last one. -/
def replace (r : Reading) (p : Part) : Reading :=
  { r with parts := p :: r.parts.tail }

/-- The pattern of the parts since the last brace or comma. -/
def current (r : Reading) : Text.Pattern :=
  .concat (r.parts.reverse.map Part.toPattern)

/-- Opens a brace. -/
def openBrace (r : Reading) : Reading :=
  ⟨[], (r.parts, []) :: r.braces⟩

/-- A comma, which stands for itself outside of braces. -/
def comma (r : Reading) : Reading :=
  match r.braces with
  | [] => r.push (.literal ',')
  | (before, done) :: outer => ⟨[], (before, done ++ [r.current]) :: outer⟩

/-- Closes a brace. What is empty inside is left out. -/
def closeBrace (r : Reading) : Option Reading :=
  match r.braces with
  | [] => none
  | (before, done) :: outer =>
    some ⟨.pattern (.choice ((done ++ [r.current]).filter (· != .empty))) :: before, outer⟩

end Reading

/-- The ranges of a class up to its closing bracket, last one first, and the text behind it. `dashed` says that the
last character was a dash that may make a range. A bracket or dash at the very front stands for itself. -/
def classRanges (ranges : List (Char × Char)) (dashed : Bool) :
    List Char → Option (List (Char × Char) × List Char)
  | [] => none
  | c :: rest =>
    if c = ']' && !ranges.isEmpty then
      some (if dashed then ('-', '-') :: ranges else ranges, rest)
    else if c = '-' && !ranges.isEmpty && !dashed then classRanges ranges true rest
    else if dashed then
      match ranges with
      | [] => none
      | (first, _) :: others => if c < first then none else classRanges ((first, c) :: others) false rest
    else classRanges ((c, c) :: ranges) false rest

theorem length_of_classRanges {ranges ranges' : List (Char × Char)} {dashed : Bool} {text rest : List Char}
    (h : classRanges ranges dashed text = some (ranges', rest)) : rest.length < text.length := by
  fun_induction classRanges ranges dashed text <;> simp_all <;> omega

/-- The bytes that a range of characters stands for: its ends are written out, and the dash joins the bytes beside
it. -/
def byteRanges (range : Char × Char) : List (Nat × Nat) :=
  let single (b : Nat) := (b, b)
  if range.1 = range.2 then (charBytes range.1).map single
  else
    let first := charBytes range.1
    let last := charBytes range.2
    first.dropLast.map single ++ [(first.getLastD 0, last.headD 0)] ++ last.tail.map single

/-- A class of bytes, and the text behind it. -/
def charClass (text : List Char) : Option (Part × List Char) :=
  let negated := text.head? == some '!' || text.head? == some '^'
  (classRanges [] false (if negated then text.tail else text)).map fun (ranges, rest) =>
    (.pattern (.oneOf negated (ranges.reverse.flatMap byteRanges)), rest)

theorem length_of_charClass {text rest : List Char} {p : Part} (h : charClass text = some (p, rest)) :
    rest.length < text.length := by
  simp only [charClass, Option.map_eq_some_iff, Prod.mk.injEq] at h
  obtain ⟨⟨ranges, _⟩, h, -, rfl⟩ := h
  have := length_of_classRanges h
  refine Nat.lt_of_lt_of_le this ?_
  split <;> simp

/-- Two stars: `before` is the character before them, `text` what is behind them. They have their meaning if they
begin the glob, or if a slash comes before them, and if a slash or the end comes behind. Inside braces, the comma or
brace beside them counts as a slash or end. The answer says whether a slash behind them is taken. -/
def Reading.twoStars (r : Reading) (before : Option Char) (text : List Char) : Bool × Reading :=
  let plain := (false, (r.push .star).push .star)
  let slashBehind := text.head? == some '/'
  if r.parts.isEmpty then
    if text.isEmpty || slashBehind then (slashBehind, r.push .leading) else plain
  else if !(before == some '/' || !r.braces.isEmpty && (before == some ',' || before == some '{')) then plain
  else
    let ended := text.isEmpty || !r.braces.isEmpty && (text.head? == some ',' || text.head? == some '}')
    if !ended && !slashBehind then plain
    else
      (slashBehind && !ended,
        match r.parts with
        | .leading :: _ => r
        | .trailing :: _ => r
        | _ => r.replace (if ended then .trailing else .inner))

/-- Reads a glob up to its end. `before` is the character before the text. -/
def readFrom (r : Reading) (before : Option Char) (text : List Char) : Option Reading :=
  match text with
  | [] => some r
  | '?' :: rest => readFrom (r.push (.pattern .anyByte)) (some '?') rest
  | '*' :: '*' :: rest =>
    let (taken, r) := r.twoStars before rest
    if taken then readFrom r (some '/') rest.tail else readFrom r (some '*') rest
  | '*' :: rest => readFrom (r.push .star) (some '*') rest
  | '[' :: rest =>
    match _h : charClass rest with
    | some (p, rest) => readFrom (r.push p) (some ']') rest
    | none => none
  | '{' :: rest => readFrom r.openBrace (some '{') rest
  | '}' :: rest =>
    match r.closeBrace with
    | some r => readFrom r (some '}') rest
    | none => none
  | ',' :: rest => readFrom r.comma (some ',') rest
  | ['\\'] => none
  | '\\' :: c :: rest => readFrom (r.push (.literal c)) (some c) rest
  | c :: rest => readFrom (r.push (.literal c)) (some c) rest
termination_by text.length
decreasing_by
  all_goals try (simp only [List.length_cons, List.length_tail]; omega)
  have := length_of_charClass _h
  simp only [List.length_cons]
  omega

/-- Reads a glob. -/
def parse? (s : String) : Option Glob :=
  match readFrom ⟨[], []⟩ none s.toList with
  | some ⟨parts, []⟩ => some ⟨if parts = [.leading] then .anyBytes else Reading.current ⟨parts, []⟩⟩
  | _ => none

/-- Whether a glob matches a whole name. -/
def accepts (g : Glob) (name : String) : Bool :=
  g.pattern.accepts (name.toList.flatMap charBytes)

/-- The glob that every name matches. -/
def all : Glob := ⟨.anyBytes⟩

end Glob

end ScriptGraph
