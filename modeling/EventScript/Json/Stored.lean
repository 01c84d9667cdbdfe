import EventScript.Value.Basic

/-!
# Values that can be stored

What remains of a value in a file: everything but references to objects of the host. `Value.toStored?` goes there and `Stored.value`
back.
-/

namespace EventScript

/-- A value that can be written to a file. -/
inductive Stored where
  | null
  | bool (b : Bool)
  | int (n : Int64)
  | float (x : Float)
  | string (s : String)
deriving DecidableEq, Repr, Inhabited

/-- The stored form of a value; a reference to a host object has none. -/
def Value.toStored? : Value → Option Stored
  | null => some .null
  | bool b => some (.bool b)
  | int n => some (.int n)
  | float x => some (.float x)
  | string s => some (.string s)
  | handle _ => none

/-- The value with this stored form. -/
def Stored.value : Stored → Value
  | null => .null
  | bool b => .bool b
  | int n => .int n
  | float x => .float x
  | string s => .string s

theorem Value.toStored?_eq_none_iff {v : Value} : v.toStored? = none ↔ v.kind = .object := by
  cases v <;> simp [Value.toStored?, Value.kind]

end EventScript
