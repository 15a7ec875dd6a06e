import Std.Data.TreeMap
import ScriptGraph.Duration

/-!
# Usage

The order in which names were last used. Lookups and changes are only written down at first. They are settled all at
once, before the next lookup or change, when there are `batchSize` of its kind or when the last settlement was
`period` ago. Lookups are settled first: one moves a name to the end of the order if it is in the order already.
After them a change either moves its name to the end or takes it out. If a change that drops a name settles the
uses, then the name stands for nothing any more, and its lookups and puts move nothing.
-/

namespace ScriptGraph

/-- A change of what a name stands for. -/
inductive Change where
  | put (name : String)
  | drop (name : String)
  deriving DecidableEq, Repr

/-- The name that is changed. -/
def Change.name : Change → String
  | put name => name
  | drop name => name

/-- The order of use of some names, and the uses that are not settled yet, last one first. -/
structure Usage where
  /-- positions in the order: a name that was used later has a higher one -/
  ranks : Std.TreeMap String Nat
  /-- the rank of the next use that is settled -/
  next : Nat
  /-- the names that were looked up, without those that stood for nothing -/
  lookups : List (Option String)
  changes : List Change
  now : Duration
  /-- the time at which uses are settled even if there are few of them -/
  due : Duration

namespace Usage

/-- So many lookups or changes are settled at once. -/
def batchSize : Nat := 64

/-- The time after which uses are settled even if there are few of them. -/
def period : Duration := .ofNanos 300000000

/-- No uses. -/
def start : Usage := ⟨∅, 0, [], [], 0, period⟩

/-- Moves a name to the end of the order. -/
def raise (u : Usage) (name : String) : Usage :=
  { u with ranks := u.ranks.insert name u.next, next := u.next + 1 }

/-- Settles a lookup. -/
def settleLookup (u : Usage) : Option String → Usage
  | none => u
  | some name => if u.ranks.contains name then u.raise name else u

/-- Settles a change. -/
def settleChange (u : Usage) : Change → Usage
  | .put name => u.raise name
  | .drop name => { u with ranks := u.ranks.erase name }

/-- Whether the uses of a name count in a settlement that a change brings about. -/
def counts (cause : Option Change) (name : String) : Bool := cause != some (.drop name)

/-- Settles all uses that count. -/
def settle (u : Usage) (cause : Option Change) : Usage :=
  let lookups := u.lookups.filter fun found => found.any (counts cause)
  let changes := u.changes.filter fun
    | .put name => counts cause name
    | .drop _ => true
  let u' := changes.foldr (fun c u => u.settleChange c) (lookups.foldr (fun l u => u.settleLookup l) u)
  { u' with lookups := [], changes := [], due := u.now + period }

/-- Whether uses are settled before the next lookup. -/
def isFullOfLookups (u : Usage) : Bool := batchSize ≤ u.lookups.length || decide (u.due ≤ u.now)

/-- Whether uses are settled before the next change. -/
def isFullOfChanges (u : Usage) : Bool := batchSize ≤ u.changes.length || decide (u.due ≤ u.now)

/-- Takes names out of the order. -/
def retire (u : Usage) (names : List String) : Usage :=
  { u with ranks := names.foldl (fun ranks name => ranks.erase name) u.ranks }

end Usage

end ScriptGraph
