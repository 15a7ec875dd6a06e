import ScriptGraph.Template
import ScriptGraph.Variables

/-!
# Interpolation

A reference to a variable in a text is its name between `{{$` and `$}}`. A text is cut once, from left to right, into
references and other characters, and the references to variables that are set are replaced. Values are not searched
again.
-/

namespace ScriptGraph.Interpolation

/-- A part of a text. -/
inductive Piece where
  | char (c : Char)
  | reference (name : List Char)
  deriving DecidableEq, Repr

/-- The name of the reference that a text begins with, and the text after it. The name is not empty and has no `$`. -/
def reference? : List Char → Option (List Char × List Char)
  | '{' :: '{' :: '$' :: rest =>
    match rest.takeWhile (· != '$'), rest.dropWhile (· != '$') with
    | name, '$' :: '}' :: '}' :: after => if name.isEmpty then none else some (name, after)
    | _, _ => none
  | _ => none

theorem length_of_reference? {text name after : List Char} (h : reference? text = some (name, after)) :
    after.length < text.length := by
  unfold reference? at h
  split at h
  next rest =>
    split at h
    next hd =>
      have hle := (List.dropWhile_suffix (l := rest) (fun c => c != '$')).length_le
      rw [hd] at hle
      split at h
      · simp at h
      · simp only [Option.some.injEq, Prod.mk.injEq] at h
        obtain ⟨-, rfl⟩ := h
        simp only [List.length_cons] at hle ⊢
        omega
    · simp at h
  · simp at h

/-- The parts of a text. -/
def pieces (text : List Char) : List Piece :=
  match text with
  | [] => []
  | c :: rest =>
    match _h : reference? (c :: rest) with
    | some (name, after) => .reference name :: pieces after
    | none => .char c :: pieces rest
termination_by text.length
decreasing_by
  · exact length_of_reference? (by assumption)
  · simp

/-- How a part is written. -/
def Piece.source : Piece → List Char
  | char c => [c]
  | reference name => ['{', '{', '$'] ++ name ++ ['$', '}', '}']

/-- The name that a part refers to. -/
def Piece.name? : Piece → Option String
  | char _ => none
  | reference name => some (String.ofList name)

/-- What a part is replaced by: the value of the variable if it is set. -/
def Piece.value (vars : Variables) : Piece → List Char
  | char c => [c]
  | reference name =>
    match vars.get? (String.ofList name) with
    | some value => value.toList
    | none => (reference name).source

/-- A text with the values of its variables in place. -/
def interpolate (vars : Variables) (text : String) : String :=
  String.ofList ((pieces text.toList).flatMap (Piece.value vars))

/-- Inputs with the values of their variables in place. -/
def interpolateInputs (vars : Variables) (inputs : List Input) : List Input :=
  inputs.map fun input => { input with value := interpolate vars input.value }

/-- The names that are looked up to put the values into a text. -/
def names (text : String) : List String := (pieces text.toList).filterMap Piece.name?

/-- The names that are looked up to put the values into inputs. -/
def namesOfInputs (inputs : List Input) : List String := inputs.flatMap fun input => names input.value

end ScriptGraph.Interpolation
