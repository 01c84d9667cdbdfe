import Std.Data.ExtTreeMap

/-!
# Registries

A registry keeps entries under names in one folded spelling, so that all spellings that fold alike name the same entry.
-/

namespace EventScript

/-- Entries by name. -/
structure Registry (α : Type) where
  /-- The spelling that a name is kept under. -/
  fold : String → String
  entries : Std.ExtTreeMap String α compare

namespace Registry

variable {α : Type}

def empty (fold : String → String) : Registry α := ⟨fold, ∅⟩

/-- Registers an entry in place of the one that may have the name. -/
def insert (r : Registry α) (name : String) (entry : α) : Registry α :=
  { r with entries := r.entries.insert (r.fold name) entry }

def get? (r : Registry α) (name : String) : Option α := r.entries[r.fold name]?

def has (r : Registry α) (name : String) : Bool := r.entries.contains (r.fold name)

def erase (r : Registry α) (name : String) : Registry α := { r with entries := r.entries.erase (r.fold name) }

/-- The names in use, in order. -/
def names (r : Registry α) : List String := r.entries.keys

end Registry

end EventScript
