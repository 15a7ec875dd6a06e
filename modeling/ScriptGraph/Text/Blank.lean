/-!
# Blanks

The characters with the property White_Space, and trimming. `trim` removes them from both ends of a text.
-/

namespace ScriptGraph.Text

/-- The characters that `trim` removes. -/
def isBlank (c : Char) : Bool :=
  let n := c.toNat
  (9 ≤ n && n ≤ 13) || n == 0x20 || n == 0x85 || n == 0xA0 || n == 0x1680 || (0x2000 ≤ n && n ≤ 0x200A) ||
    n == 0x2028 || n == 0x2029 || n == 0x202F || n == 0x205F || n == 0x3000

/-- Drops the longest final part of a list in which every member satisfies `p`. -/
def dropFinal {α : Type} (p : α → Bool) (l : List α) : List α :=
  (l.reverse.dropWhile p).reverse

/-- A text without the blanks at its two ends. -/
def trimChars (l : List Char) : List Char :=
  dropFinal isBlank (l.dropWhile isBlank)

@[inherit_doc trimChars]
def trim (s : String) : String :=
  String.ofList (trimChars s.toList)

end ScriptGraph.Text
