import Std.Data.TreeMap
import ScriptGraph.Variables.Usage

/-!
# Variables

The texts that scripts share by name. A name that was never set stands for itself where a value is looked up to be
compared. Clearing hides the values: nobody sees them any longer, and they are gone when their variables are set anew,
but a removal still hands over the value that it drops. Hidden values do not stay for long: whenever uses are settled,
all hidden values are forgotten, or at least those that were not used for the longest time. The search for them goes
through the order of use up to the first value that is not hidden, and moves a variable that is being changed to the
end.
-/

namespace ScriptGraph

/-- Values by name, the values that are hidden, and how both were used. -/
structure Variables where
  entries : Std.TreeMap String String
  hidden : Std.TreeMap String String
  /-- whether values were ever hidden -/
  wasCleared : Bool
  usage : Usage

namespace Variables

/-- No variables. -/
def empty : Variables := ⟨∅, ∅, false, .start⟩

/-- The value of a variable that is set. -/
def get? (v : Variables) (name : String) : Option String := v.entries[name]?

/-- The value of a variable, or another text if it is not set. -/
def getOr (v : Variables) (name default : String) : String := (v.get? name).getD default

/-- The value of a variable, or the name itself if it is not set. -/
def resolve (v : Variables) (name : String) : String := v.getOr name name

/-! ### Hidden values -/

/-- Hidden values are forgotten in groups of this size. -/
def groupSize : Nat := 384

/-- The lowest rank of the hidden values that stay while a variable is being changed. They are forgotten in the order
of their use, in groups in which that variable counts as well if it has a rank, and its group is the last one. -/
def lowestKept (v : Variables) (changing : Option String) : Option Nat := do
  let rank ← v.usage.ranks[← changing]?
  let ranks := (v.hidden.keys.filterMap (v.usage.ranks[·]?)).mergeSort
  let before := ranks.countP (· < rank)
  ranks[(before / groupSize + 1) * groupSize - 1]?

/-- Whether the search for hidden values finds a variable: it has a rank, and no other variable that is set has a
lower one. Before values were hidden for the first time there is no search. -/
def isFound (v : Variables) (name : String) : Bool :=
  v.wasCleared && v.usage.ranks[name]?.any fun rank =>
    v.entries.all fun other _ => other == name || v.usage.ranks[other]?.all (rank ≤ ·)

/-- Forgets hidden values. -/
def forget (v : Variables) (changing : Option String) : Variables :=
  let lowest := v.lowestKept changing
  let isKept (name : String) : Bool := lowest.any fun rank => v.usage.ranks[name]?.any (rank ≤ ·)
  let usage := v.usage.retire (v.hidden.keys.filter (!isKept ·))
  { v with
    hidden := v.hidden.filter fun name _ => isKept name
    usage := (changing.filter v.isFound).elim usage usage.raise }

/-- Settles uses, and forgets hidden values. -/
def settle (v : Variables) (cause : Option Change) : Variables :=
  { v with usage := v.usage.settle cause }.forget (cause.map Change.name)

/-- Writes down a lookup. -/
def noteLookup (v : Variables) (name : String) : Variables :=
  let found := if v.entries.contains name then some name else none
  let v := if v.usage.isFullOfLookups then v.settle none else v
  { v with usage := { v.usage with lookups := found :: v.usage.lookups } }

/-- Writes down a change. -/
def noteChange (v : Variables) (change : Change) : Variables :=
  let v := if v.usage.isFullOfChanges then v.settle (some change) else v
  { v with usage := { v.usage with changes := change :: v.usage.changes } }

/-- Tells what time it is. -/
def setNow (v : Variables) (now : Duration) : Variables :=
  { v with usage := { v.usage with now } }

/-! ### Changes -/

/-- Sets a variable. -/
def set (v : Variables) (name value : String) : Variables :=
  { v with entries := v.entries.insert name value, hidden := v.hidden.erase name }.noteChange (.put name)

/-- Removes a variable; the answer is the value that it had, be it hidden. -/
def remove (v : Variables) (name : String) : Option String × Variables :=
  match (v.get? name).or v.hidden[name]? with
  | none => (none, v)
  | some old =>
    (some old,
      { v with entries := v.entries.erase name, hidden := v.hidden.erase name }.noteChange (.drop name))

/-- Hides all values. -/
def clear (v : Variables) : Variables :=
  { v with
    entries := ∅
    hidden := v.entries.foldl (fun hidden name value => hidden.insert name value) v.hidden
    wasCleared := true }

/-- The variables in the order of their names. -/
def toList (v : Variables) : List (String × String) := v.entries.toList

/-- The number of variables. -/
def size (v : Variables) : Nat := v.entries.size

@[simp]
theorem entries_noteChange (v : Variables) (change : Change) : (v.noteChange change).entries = v.entries := by
  simp only [noteChange]
  split <;> rfl

@[simp]
theorem entries_noteLookup (v : Variables) (name : String) : (v.noteLookup name).entries = v.entries := by
  simp only [noteLookup]
  split <;> rfl

theorem get?_empty (name : String) : empty.get? name = none := by
  simp [empty, get?]

theorem get?_clear (v : Variables) (name : String) : v.clear.get? name = none := by
  simp [clear, get?]

@[simp]
theorem get?_noteLookup (v : Variables) (name other : String) : (v.noteLookup name).get? other = v.get? other := by
  simp [get?]

theorem get?_set (v : Variables) (name value other : String) :
    (v.set name value).get? other = if name = other then some value else v.get? other := by
  simp [set, get?, Std.TreeMap.getElem?_insert, Std.LawfulEqCmp.compare_eq_iff_eq]

theorem get?_remove (v : Variables) (name other : String) :
    (v.remove name).2.get? other = if name = other then none else v.get? other := by
  unfold remove
  split
  next h =>
    have hnone := (Option.or_eq_none_iff.1 h).1
    by_cases he : name = other
    · subst he
      simp [hnone]
    · simp [he]
  next => simp [get?, Std.TreeMap.getElem?_erase, Std.LawfulEqCmp.compare_eq_iff_eq]

end Variables

end ScriptGraph
