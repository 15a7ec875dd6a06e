import ScriptGraph.Decimal
import ScriptGraph.Text.Hex
import ScriptGraph.Toml.Value

/-!
# TOML scalars

Numbers, truth values and times: everything that is written without quotes. Digits may have single underscores between
them. Some words that only begin like an integer are taken for one that cannot be read.
-/

namespace ScriptGraph.Toml

/-- Digits without the underscores between them. -/
def plainDigits (isDigit : Char → Bool) : List Char → Option (List Char)
  | [] => none
  | [c] => if isDigit c then some [c] else none
  | c :: '_' :: rest => if isDigit c then (plainDigits isDigit rest).map (c :: ·) else none
  | c :: rest => if isDigit c then (plainDigits isDigit rest).map (c :: ·) else none

/-- Decimal digits that do not begin with a zero before others. -/
def wholeDigits (text : List Char) : Option (List Char) :=
  (plainDigits Char.isDigit text).filter fun digits => digits.head? != some '0' || digits.length == 1

/-- The number that digits of some base write. -/
def inBase (base : Nat) (text : List Char) : Option Int :=
  let isDigit (c : Char) : Bool := (Text.hexValue? c).any (· < base)
  (plainDigits isDigit text).map fun digits =>
    (digits.foldl (fun n c => base * n + (Text.hexValue? c).getD 0) 0 : Nat)

/-- Whether an integer fits into 128 bits, with or without a sign. -/
def fits (n : Int) : Bool :=
  decide (-(twoPow 127 : Int) ≤ n) && decide (n < twoPow 128)

/-- An integer. A base other than ten excludes a sign. -/
def integer? (text : List Char) : Option Int :=
  match text with
  | '0' :: 'x' :: rest => inBase 16 rest
  | '0' :: 'o' :: rest => inBase 8 rest
  | '0' :: 'b' :: rest => inBase 2 rest
  | _ =>
    let (negative, body) := Literal.takeSign text
    (wholeDigits body).map fun digits =>
      let n := Literal.natOfDigits digits
      if negative then -(n : Int) else n

private def isHexDigit (c : Char) : Bool := (Text.hexValue? c).isSome

private def isExponentMark (c : Char) : Bool := c == 'e' || c == 'E'

/-- Whether every underscore stands between digits of some base. -/
def underscoresSeparate : List Char → Bool
  | a :: '_' :: rest => isHexDigit a && rest.head?.any isHexDigit && underscoresSeparate rest
  | c :: rest => c != '_' && underscoresSeparate rest
  | [] => true

/-- Whether a word is taken for an integer although it may be none: a base without digits, or decimal digits and an
underscore with something after it that has neither a fraction nor an exponent. -/
def seemsInteger (text : List Char) : Bool :=
  match text with
  | ['0', 'x'] | ['0', 'o'] | ['0', 'b'] => true
  | _ =>
    let (_, body) := Literal.takeSign text
    body.head?.any (fun c => c.isDigit && c != '0') && (body.dropWhile Char.isDigit).head? == some '_' &&
      underscoresSeparate body && !body.any fun c => c == '.' || c == ' ' || isExponentMark c

/-- Digits after a point, and an exponent. -/
private def fraction? (text : List Char) : Option (List Char) :=
  (plainDigits Char.isDigit text).map ('.' :: ·)

private def exponent? (text : List Char) : Option (List Char) :=
  let sign := text.takeWhile fun c => c == '+' || c == '-'
  if 1 < sign.length then none
  else (plainDigits Char.isDigit (text.drop sign.length)).map fun digits => 'e' :: sign ++ digits

/-- The text of a decimal with a fraction or an exponent, without underscores. -/
private def decimal? (body : List Char) : Option (List Char) := do
  let mantissa := body.takeWhile (!isExponentMark ·)
  let exponent ← match body.dropWhile (!isExponentMark ·) with
    | [] => some []
    | _ :: rest => exponent? rest
  let whole ← wholeDigits (mantissa.takeWhile (· != '.'))
  let fraction ← match mantissa.dropWhile (· != '.') with
    | [] => some []
    | _ :: rest => fraction? rest
  if fraction.isEmpty && exponent.isEmpty then none else some (whole ++ fraction ++ exponent)

/-- A number with a fraction or an exponent, or one of the words `inf` and `nan`. -/
def float? (text : List Char) : Option Toml :=
  let (negative, body) := Literal.takeSign text
  if body == ['i', 'n', 'f'] then some (.float (doubleOfLiteral (.infinite negative)))
  else if body == ['n', 'a', 'n'] then some (.float (doubleOfLiteral .nan))
  else do
    let literal ← Literal.ofChars? (← decimal? body)
    let x := doubleOfLiteral literal
    some (if x.isInf then .unreadable else .float (if negative then -x else x))

/-! ## Dates and times -/

/-- A number of exactly so many digits, and the text after it. -/
private def fixed (count : Nat) (text : List Char) : Option (Nat × List Char) :=
  let digits := text.take count
  if digits.length == count && digits.all Char.isDigit then some (Literal.natOfDigits digits, text.drop count)
  else none

private def after (c : Char) : List Char → Option (List Char)
  | [] => none
  | d :: rest => if c == d then some rest else none

/-- The days of a month. -/
def monthDays (year month : Nat) : Nat :=
  if month == 2 then (if year % 4 == 0 && (year % 100 != 0 || year % 400 == 0) then 29 else 28)
  else if month == 4 || month == 6 || month == 9 || month == 11 then 30
  else 31

/-- The text after a date. -/
private def date? (text : List Char) : Option (List Char) := do
  let (year, text) ← fixed 4 text
  let (month, text) ← fixed 2 (← after '-' text)
  let (day, text) ← fixed 2 (← after '-' text)
  if 1 ≤ month && month ≤ 12 && 1 ≤ day && day ≤ monthDays year month then some text else none

/-- The text after a time of the day. Seconds may be absent. -/
private def clock? (text : List Char) : Option (List Char) := do
  let (hour, text) ← fixed 2 text
  let (minute, text) ← fixed 2 (← after ':' text)
  if 23 < hour || 59 < minute then none
  match text with
  | ':' :: rest =>
    let (second, rest) ← fixed 2 rest
    if 60 < second then none
    match rest with
    | '.' :: rest =>
      if (rest.takeWhile Char.isDigit).isEmpty then none else some (rest.dropWhile Char.isDigit)
    | rest => some rest
  | rest => some rest

/-- Whether a text is a distance from universal time. -/
private def isOffset : List Char → Bool
  | ['Z'] | ['z'] => true
  | sign :: rest =>
    (sign == '+' || sign == '-') &&
      ((do
        let (hour, text) ← fixed 2 rest
        let (minute, text) ← fixed 2 (← after ':' text)
        some (decide (hour < 24) && decide (minute < 60) && text.isEmpty)) == some true)
  | [] => false

/-- Whether a text is a date. -/
def isDate (text : List Char) : Bool :=
  date? text == some []

/-- Whether a text is a date, a time of the day, or both. -/
def isTime (text : List Char) : Bool :=
  match date? text with
  | some [] => true
  | some (c :: rest) =>
    (c == 'T' || c == 't' || c == ' ') && (clock? rest).any fun offset => offset.isEmpty || isOffset offset
  | none => clock? text == some []

/-- A value that is written without quotes. -/
def scalar? (text : List Char) : Option Toml :=
  if text == ['t', 'r', 'u', 'e'] then some (.bool true)
  else if text == ['f', 'a', 'l', 's', 'e'] then some (.bool false)
  else match integer? text with
    | some n => some (if fits n then .int n else .unreadable)
    | none => match float? text with
      | some x => some x
      | none =>
        if isTime text then some .time
        else if seemsInteger text then some .unreadable
        else none

end ScriptGraph.Toml
