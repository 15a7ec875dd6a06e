import ScriptGraph.Json.Number
import ScriptGraph.Text.Hex

/-!
# JSON tokens

`Token.ofChars?` cuts a text into tokens in one pass from left to right. Between strings, the characters of words and
numbers gather until another character ends them; a string gathers up to its closing quote and is then unescaped.
-/

namespace ScriptGraph.Json

/-- The tokens of a document. -/
inductive Token where
  | openArray
  | closeArray
  | openObject
  | closeObject
  | comma
  | colon
  | null
  | bool (value : Bool)
  | num (value : Number)
  | str (value : String)

namespace Token

/-- The number that four hexadecimal digits write. -/
def unit? (a b c d : Char) : Option Nat := do
  let a ← Text.hexValue? a
  let b ← Text.hexValue? b
  let c ← Text.hexValue? c
  let d ← Text.hexValue? d
  some (((a * 16 + b) * 16 + c) * 16 + d)

/-- The character that a backslash and a letter stand for. -/
def escaped? : Char → Option Char
  | '"' => some '"'
  | '\\' => some '\\'
  | '/' => some '/'
  | 'b' => some '\x08'
  | 'f' => some '\x0c'
  | 'n' => some '\n'
  | 'r' => some '\r'
  | 't' => some '\t'
  | _ => none

/-- The characters that the raw text between two quotes stands for. Code points beyond the basic plane are escaped as
two surrogates, which may not stand alone; control characters must be escaped. -/
def unescape : List Char → Option (List Char)
  | [] => some []
  | '\\' :: 'u' :: a :: b :: c :: d :: rest =>
    match unit? a b c d with
    | none => none
    | some high =>
      if 0xD800 ≤ high && high ≤ 0xDBFF then
        match rest with
        | '\\' :: 'u' :: a' :: b' :: c' :: d' :: rest' =>
          match unit? a' b' c' d' with
          | none => none
          | some low =>
            if 0xDC00 ≤ low && low ≤ 0xDFFF then
              (unescape rest').map (Char.ofNat (0x10000 + (high - 0xD800) * 0x400 + (low - 0xDC00)) :: ·)
            else none
        | _ => none
      else if 0xDC00 ≤ high && high ≤ 0xDFFF then none
      else (unescape rest).map (Char.ofNat high :: ·)
  | '\\' :: c :: rest =>
    match escaped? c with
    | none => none
    | some x => (unescape rest).map (x :: ·)
  | c :: rest => if c.toNat < 32 then none else (unescape rest).map (c :: ·)

/-- The token that a run of letters, digits and signs stands for. -/
def ofWord? (word : List Char) : Option Token :=
  if word = ['n', 'u', 'l', 'l'] then some .null
  else if word = ['t', 'r', 'u', 'e'] then some (.bool true)
  else if word = ['f', 'a', 'l', 's', 'e'] then some (.bool false)
  else (Number.ofChars? word).map .num

/-- The characters between which tokens may stand. -/
def isSpace (c : Char) : Bool :=
  c == ' ' || c == '\n' || c == '\t' || c == '\r'

/-- The characters of words and numbers. -/
def isWordChar (c : Char) : Bool :=
  c.isAlphanum || c == '+' || c == '-' || c == '.'

/-- The tokens of one character. -/
def mark? : Char → Option Token
  | '[' => some .openArray
  | ']' => some .closeArray
  | '{' => some .openObject
  | '}' => some .closeObject
  | ',' => some .comma
  | ':' => some .colon
  | _ => none

/-- What is being gathered: nothing, a word or the inside of a string, with the last character first. -/
inductive Scan where
  | between
  | word (gathered : List Char)
  | string (gathered : List Char)

/-- The tokens that a character outside of strings completes, and what is gathered after it. -/
def Scan.start (c : Char) : Option (List Token × Scan) :=
  if isSpace c then some ([], .between)
  else if isWordChar c then some ([], .word [c])
  else if c == '"' then some ([], .string [])
  else (mark? c).map fun t => ([t], .between)

/-- The tokens of a text, given what has been gathered before it. -/
def scan : Scan → List Char → Option (List Token)
  | .between, [] => some []
  | .between, c :: rest =>
    match Scan.start c with
    | none => none
    | some (done, next) => (scan next rest).map (done ++ ·)
  | .word gathered, [] => (ofWord? gathered.reverse).map ([·])
  | .word gathered, c :: rest =>
    if isWordChar c then scan (.word (c :: gathered)) rest
    else
      match ofWord? gathered.reverse, Scan.start c with
      | some t, some (done, next) => (scan next rest).map (t :: done ++ ·)
      | _, _ => none
  | .string _, [] => none
  | .string gathered, '"' :: rest =>
    match unescape gathered.reverse with
    | none => none
    | some text => (scan .between rest).map (.str (String.ofList text) :: ·)
  | .string gathered, '\\' :: c :: rest => scan (.string (c :: '\\' :: gathered)) rest
  | .string gathered, c :: rest => scan (.string (c :: gathered)) rest

/-- The tokens of a text. -/
def ofChars? (text : List Char) : Option (List Token) :=
  scan .between text

end Token

end ScriptGraph.Json
