/-!
# UTF-8

Bytes as characters. `decode` cuts bytes into characters and faults; a fault is the longest run of bytes that a
character could begin with but that is not continued.
-/

namespace ScriptGraph.Text.Utf8

/-- The number of bytes of a character, its first bits, and the bounds of the byte after the first one, by the first
byte. -/
def lead? (b : Nat) : Option (Nat × Nat × Nat × Nat) :=
  if b < 0x80 then some (1, b, 0, 0)
  else if b < 0xC2 then none
  else if b < 0xE0 then some (2, b - 0xC0, 0x80, 0xBF)
  else if b = 0xE0 then some (3, 0, 0xA0, 0xBF)
  else if b = 0xED then some (3, 0xD, 0x80, 0x9F)
  else if b < 0xF0 then some (3, b - 0xE0, 0x80, 0xBF)
  else if b = 0xF0 then some (4, 0, 0x90, 0xBF)
  else if b < 0xF4 then some (4, b - 0xF0, 0x80, 0xBF)
  else if b = 0xF4 then some (4, 4, 0x80, 0x8F)
  else none

/-- Reads the bytes that continue a character. The answer is the character, if it is complete, and the bytes after
those that belong to it. -/
def continued (n bits low high : Nat) (bs : List Nat) : Option Char × List Nat :=
  match n, bs with
  | 0, bs => (some (Char.ofNat bits), bs)
  | _ + 1, [] => (none, [])
  | n + 1, b :: rest =>
    if low ≤ b ∧ b ≤ high then continued n (64 * bits + (b - 0x80)) 0x80 0xBF rest
    else (none, b :: rest)

theorem length_continued (n bits low high : Nat) (bs : List Nat) :
    (continued n bits low high bs).2.length ≤ bs.length := by
  fun_induction continued n bits low high bs with
  | case1 => exact Nat.le_refl _
  | case2 => exact Nat.le_refl _
  | case3 _ _ _ _ _ _ _ ih => exact Nat.le_succ_of_le ih
  | case4 => exact Nat.le_refl _

/-- The characters of some bytes, `none` in the place of a fault. -/
def decode (bs : List Nat) : List (Option Char) :=
  match bs with
  | [] => []
  | b :: rest =>
    match lead? b with
    | none => none :: decode rest
    | some (n, bits, low, high) =>
      (continued (n - 1) bits low high rest).1 :: decode (continued (n - 1) bits low high rest).2
termination_by bs.length
decreasing_by
  · simp
  · have := length_continued (n - 1) bits low high rest
    simp only [List.length_cons]
    omega

/-- The text of some bytes that have no faults. -/
def text? (bs : List Nat) : Option String :=
  ((decode bs).mapM id).map String.ofList

/-- The text of some bytes, with a mark in the place of each fault. -/
def textWithMarks (bs : List Nat) : String :=
  String.ofList ((decode bs).map (·.getD '\uFFFD'))

end ScriptGraph.Text.Utf8
