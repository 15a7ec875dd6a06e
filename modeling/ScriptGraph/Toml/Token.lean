import ScriptGraph.Text.Hex

/-!
# TOML tokens

The words, quoted texts and marks of a document. Blanks between them are tokens too, because some marks must stand
side by side; comments are left out.
-/

namespace ScriptGraph.Toml

/-- A token. -/
inductive Token where
  | newline
  /-- a space or a tabulator -/
  | blank (char : Char)
  | dot
  | equals
  | comma
  | openBracket
  | closeBracket
  | openBrace
  | closeBrace
  | word (chars : List Char)
  /-- a quoted text, which may go over several lines -/
  | quoted (value : String) (multiline : Bool)
  deriving DecidableEq, Repr

namespace Token

/-- Whether a token is a blank. -/
def isBlank : Token → Bool
  | blank _ => true
  | _ => false

/-- Characters that may stand in a comment or in quotes on one line. -/
def isInline (c : Char) : Bool :=
  c == '\t' || (32 ≤ c.toNat && c.toNat != 127)

/-- A text and what comes after it. -/
abbrev Cut := List Char × List Char

private def prepend (cs : List Char) (cut : Option Cut) : Option Cut :=
  cut.map fun parts => (cs ++ parts.1, parts.2)

/-- Text between single quotes, up to the closing one. -/
def literalText : List Char → Option Cut
  | [] => none
  | '\'' :: rest => some ([], rest)
  | c :: rest => if isInline c then prepend [c] (literalText rest) else none

/-- Text between three single quotes. Up to two more may stand before the closing ones. Ends of lines stay as they
are. -/
def literalLines : List Char → Option Cut
  | '\'' :: '\'' :: '\'' :: '\'' :: '\'' :: rest => some (['\'', '\''], rest)
  | '\'' :: '\'' :: '\'' :: '\'' :: rest => some (['\''], rest)
  | '\'' :: '\'' :: '\'' :: rest => some ([], rest)
  | '\r' :: '\n' :: rest => prepend ['\r', '\n'] (literalLines rest)
  | [] => none
  | c :: rest => if c == '\n' || isInline c then prepend [c] (literalLines rest) else none

/-- The character that a letter after a backslash stands for. -/
def escaped? (c : Char) : Option Char :=
  match c with
  | 'b' => some '\x08'
  | 't' => some '\t'
  | 'n' => some '\n'
  | 'f' => some '\x0c'
  | 'r' => some '\r'
  | 'e' => some '\x1b'
  | '"' => some '"'
  | '\\' => some '\\'
  | _ => none

/-- The character with a number in hexadecimal digits. -/
def charOfHex? (digits : List Char) : Option Char := do
  let values ← digits.mapM Text.hexValue?
  let n := values.foldl (fun n d => 16 * n + d) 0
  if h : n.isValidChar then some (Char.ofNatAux n h) else none

/-- Text between double quotes, up to the closing one. -/
def basicText : List Char → Option Cut
  | [] => none
  | '"' :: rest => some ([], rest)
  | '\\' :: 'x' :: a :: b :: rest => do prepend [← charOfHex? [a, b]] (basicText rest)
  | '\\' :: 'u' :: a :: b :: c :: d :: rest => do prepend [← charOfHex? [a, b, c, d]] (basicText rest)
  | '\\' :: 'U' :: a :: b :: c :: d :: e :: f :: g :: h :: rest => do
    prepend [← charOfHex? [a, b, c, d, e, f, g, h]] (basicText rest)
  | '\\' :: c :: rest => do prepend [← escaped? c] (basicText rest)
  | c :: rest => if c != '\\' && isInline c then prepend [c] (basicText rest) else none

private def isGap (c : Char) : Bool := c == ' ' || c == '\t'

private def endsLine : List Char → Bool
  | '\n' :: _ => true
  | '\r' :: '\n' :: _ => true
  | _ => false

/-- Text between three double quotes. A backslash at the end of a line removes all blanks and ends of lines after it;
`skipping` says that one did. -/
def basicLines (skipping : Bool) : List Char → Option Cut
  | '"' :: '"' :: '"' :: '"' :: '"' :: rest => some (['"', '"'], rest)
  | '"' :: '"' :: '"' :: '"' :: rest => some (['"'], rest)
  | '"' :: '"' :: '"' :: rest => some ([], rest)
  | '\\' :: 'x' :: a :: b :: rest => do prepend [← charOfHex? [a, b]] (basicLines false rest)
  | '\\' :: 'u' :: a :: b :: c :: d :: rest => do prepend [← charOfHex? [a, b, c, d]] (basicLines false rest)
  | '\\' :: 'U' :: a :: b :: c :: d :: e :: f :: g :: h :: rest => do
    prepend [← charOfHex? [a, b, c, d, e, f, g, h]] (basicLines false rest)
  | '\r' :: '\n' :: rest => prepend (if skipping then [] else ['\r', '\n']) (basicLines skipping rest)
  | '\\' :: c :: rest =>
    match escaped? c with
    | some e => prepend [e] (basicLines false rest)
    | none =>
      if endsLine ((c :: rest).dropWhile isGap) && (c != '\r') then basicLines true rest
      else if c == '\r' && rest.head? == some '\n' then basicLines true rest
      else none
  | [] => none
  | c :: rest =>
    if skipping && (c == '\n' || isGap c) then basicLines true rest
    else if c != '\\' && (c == '\n' || isInline c) then prepend [c] (basicLines false rest)
    else none

private def withoutFirstNewline : List Char → List Char
  | '\n' :: rest => rest
  | '\r' :: '\n' :: rest => rest
  | rest => rest

private def ofCut (multiline : Bool) (cut : Option Cut) : Option (List Token × List Char) :=
  cut.map fun parts => ([.quoted (String.ofList parts.1) multiline], parts.2)

/-- Characters of words. Quotes are among them, but no word begins with one. -/
def isWordChar (c : Char) : Bool :=
  !([' ', '\t', '\n', '\r', '.', '=', ',', '[', ']', '{', '}', '#'].contains c)

/-- The first token of a text, none if it is a comment. -/
def first : List Char → Option (List Token × List Char)
  | [] => none
  | '\n' :: rest => some ([.newline], rest)
  | '\r' :: '\n' :: rest => some ([.newline], rest)
  | '\'' :: '\'' :: '\'' :: rest => ofCut true (literalLines (withoutFirstNewline rest))
  | '\'' :: rest => ofCut false (literalText rest)
  | '"' :: '"' :: '"' :: rest => ofCut true (basicLines false (withoutFirstNewline rest))
  | '"' :: rest => ofCut false (basicText rest)
  | '#' :: rest =>
    let after := rest.dropWhile isInline
    if after.isEmpty || endsLine after then some ([], after) else none
  | c :: rest =>
    match c with
    | ' ' | '\t' => some ([.blank c], rest)
    | '.' => some ([.dot], rest)
    | '=' => some ([.equals], rest)
    | ',' => some ([.comma], rest)
    | '[' => some ([.openBracket], rest)
    | ']' => some ([.closeBracket], rest)
    | '{' => some ([.openBrace], rest)
    | '}' => some ([.closeBrace], rest)
    | '\r' => none
    | c => some ([.word (c :: rest.takeWhile isWordChar)], rest.dropWhile isWordChar)

/-- The tokens of a text. -/
def ofChars? (text : List Char) : Option (List Token) :=
  if text.isEmpty then some []
  else
    match first text with
    | none => none
    | some (tokens, rest) =>
      if _h : rest.length < text.length then (ofChars? rest).map (tokens ++ ·) else none
termination_by text.length

end Token

end ScriptGraph.Toml
