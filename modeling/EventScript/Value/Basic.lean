import Std.Data.ExtTreeMap
import EventScript.Decimal.Binary

/-!
# Values

What a script computes with. `null` is the neutral value: it is what an unbound name reads as and what an unknown
placeholder answers. A host object passes through a script as a handle, which the script cannot look into.
-/

namespace EventScript

/-- A reference to an object of the host. The identity says which object it is; the type name is what the host calls its
kind of object. -/
structure HostHandle where
  identity : String
  typeName : String
deriving DecidableEq, Repr

/-- A script value. Integers have 64 bits, floating-point numbers are doubles. -/
inductive Value where
  | null
  | bool (b : Bool)
  | int (n : Int64)
  | float (x : Float)
  | string (s : String)
  | handle (h : HostHandle)
deriving DecidableEq, Repr, Inhabited

/-- The kinds of value. -/
inductive Kind where
  | null
  | bool
  | int
  | float
  | string
  | object
deriving DecidableEq, Repr

/-- The name of a kind in messages. -/
def Kind.name : Kind → String
  | .null => "null"
  | .bool => "bool"
  | .int => "int"
  | .float => "float"
  | .string => "string"
  | .object => "object"

/-- The variables of an activation, or of a store: a finite map from names to values. -/
abbrev Variables := Std.ExtTreeMap String Value compare

namespace Value

def kind : Value → Kind
  | null => .null
  | bool _ => .bool
  | int _ => .int
  | float _ => .float
  | string _ => .string
  | handle _ => .object

/-- How a condition takes the value: `null`, `false`, zero and the empty string count as false, all else as true. -/
def isTruthy : Value → Bool
  | null => false
  | bool b => b
  | int n => n != 0
  | float x => x != 0
  | string s => s != ""
  | handle _ => true

def isNull : Value → Bool
  | null => true
  | _ => false

def isNumber : Value → Bool
  | int _ => true
  | float _ => true
  | _ => false

def asBool? : Value → Option Bool
  | bool b => some b
  | _ => none

/-- A number as an integer; a fractional part is dropped and what does not fit is held at the end of the range. -/
def asInt? : Value → Option Int64
  | int n => some n
  | float x => some (Decimal.truncate x)
  | _ => none

/-- A number as a double. -/
def asFloat? : Value → Option Float
  | int n => some (Decimal.ofInt64 n)
  | float x => some x
  | _ => none

def asString? : Value → Option String
  | string s => some s
  | _ => none

def asHandle? : Value → Option HostHandle
  | handle h => some h
  | _ => none

end Value

end EventScript
