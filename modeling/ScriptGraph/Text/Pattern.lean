/-!
# Regular patterns over bytes

A pattern is matched by walking over the bytes with the list of the patterns that may still match the rest: `next`
gives what is left of a pattern behind one byte, in all possible ways.
-/

namespace ScriptGraph.Text

/-- A regular expression over bytes. -/
inductive Pattern where
  /-- the text without bytes -/
  | empty
  /-- one byte in one of some ranges, or in none of them if negated -/
  | oneOf (negated : Bool) (ranges : List (Nat × Nat))
  | seq (first second : Pattern)
  | alt (left right : Pattern)
  | star (repeated : Pattern)
  deriving DecidableEq, Repr

namespace Pattern

/-- Any byte. -/
def anyByte : Pattern := oneOf true []

/-- Any bytes. -/
def anyBytes : Pattern := star anyByte

/-- Whether the second pattern begins with the repetition that the first one is, which then adds nothing before it. -/
def isAbsorbed : Pattern → Pattern → Bool
  | star p, star q => p = q
  | star p, seq (star q) _ => p = q
  | _, _ => false

/-- The patterns one after the other. -/
def concat : List Pattern → Pattern
  | [] => empty
  | p :: rest =>
    match concat rest with
    | empty => p
    | q => if p = empty || isAbsorbed p q then q else seq p q

/-- The bytes of a text, one after the other. -/
def bytes (bs : List Nat) : Pattern :=
  concat (bs.map fun b => oneOf false [(b, b)])

/-- Any of the patterns, or the empty one if there is none. -/
def choice : List Pattern → Pattern
  | [] => empty
  | [p] => p
  | p :: rest => alt p (choice rest)

/-- Whether a pattern matches the text without bytes. -/
def nullable : Pattern → Bool
  | empty => true
  | oneOf _ _ => false
  | seq p q => p.nullable && q.nullable
  | alt p q => p.nullable || q.nullable
  | star _ => true

/-- What may match the rest of a text that begins with a byte. -/
def next (b : Nat) : Pattern → List Pattern
  | empty => []
  | oneOf negated ranges =>
    if ranges.any (fun r => decide (r.1 ≤ b) && decide (b ≤ r.2)) != negated then [empty] else []
  | seq p q => (p.next b).map (fun r => concat [r, q]) ++ if p.nullable then q.next b else []
  | alt p q => p.next b ++ q.next b
  | star p => (p.next b).map fun r => concat [r, star p]

/-- What may match the rest of a text that begins with some bytes. -/
def after (p : Pattern) (bs : List Nat) : List Pattern :=
  bs.foldl (fun states b => (states.flatMap (next b)).eraseDups) [p]

/-- Whether a pattern matches a whole text. -/
def accepts (p : Pattern) (bs : List Nat) : Bool :=
  (p.after bs).any nullable

end Pattern

end ScriptGraph.Text
