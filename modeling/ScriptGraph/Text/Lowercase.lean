import ScriptGraph.Text.Ranges

/-!
# Lower case

The full lower case of a text. Each letter has one lower case, with two exceptions: the dotted capital i becomes two
characters, and a capital sigma depends on its neighbours, for it is written differently at the end of a word.
`isSameIgnoringAsciiCase` compares texts up to the case of ASCII letters only.
-/

namespace ScriptGraph.Text

/-- Lower case of an ASCII letter; every other character is its own. -/
def asciiLower (c : Char) : Char :=
  if 65 ≤ c.toNat && c.toNat ≤ 90 then Char.ofNat (c.toNat + 32) else c

/-- Whether two texts differ in the case of ASCII letters at most. -/
def isSameIgnoringAsciiCase (s t : String) : Bool :=
  s.toList.map asciiLower == t.toList.map asciiLower

/-- Whether a code point is that of a letter of a run. -/
def LowercaseRun.contains (run : LowercaseRun) (n : Nat) : Bool :=
  run.first ≤ n && n ≤ run.last && (n - run.first) % run.step == 0

/-- Lower case of a character other than a capital sigma. -/
def lowerChar (c : Char) : List Char :=
  if c.toNat < 128 then [asciiLower c]
  else if c.toNat == 0x130 then ['i', Char.ofNat 0x307]
  else match lowercaseRuns.find? (·.contains c.toNat) with
    | some run => [Char.ofNat ((c.toNat : Int) + run.shift).toNat]
    | none => [c]

/-- Whether the first character that is not case-ignorable is a cased letter. -/
def meetsCased (l : List Char) : Bool :=
  match l.dropWhile (inRanges caseIgnorableRanges) with
  | [] => false
  | c :: _ => inRanges casedRanges c

/-- Lower case of the rest of a text, given the characters before it, last one first. A capital sigma becomes the
final form if a cased letter comes before it and none after it. -/
def lowerFrom (before : List Char) : List Char → List Char
  | [] => []
  | c :: rest =>
    let lower :=
      if c.toNat == 0x3A3 then
        [Char.ofNat (if meetsCased before && !meetsCased rest then 0x3C2 else 0x3C3)]
      else lowerChar c
    lower ++ lowerFrom (c :: before) rest

/-- The full lower case of a text. -/
def lower (s : String) : String :=
  String.ofList (lowerFrom [] s.toList)

end ScriptGraph.Text
