import EventScript.Token
import EventScript.Value.Arithmetic

/-!
# Data of extension scripts

What extension scripts compute with: script values, lists of data, and records, which have named fields. A list or record
that is handed back to a script becomes its text.
-/

namespace EventScript

/-- A datum. -/
inductive Datum where
  | unit
  | bool (b : Bool)
  | int (n : Int64)
  | float (x : Float)
  | string (s : String)
  | handle (h : HostHandle)
  | list (items : List Datum)
  | record (fields : List (String × Datum))

namespace Datum

/-- The datum of a script value. -/
def ofValue : Value → Datum
  | .null => unit
  | .bool b => bool b
  | .int n => int n
  | .float x => float x
  | .string s => string s
  | .handle h => handle h

/-- Numbers that are joined to a text are written without an exponent from `1e-13` to `1e13`. Both bounds are taken with
single precision. -/
def joinedLayout : Decimal.Layout := ⟨fun x => 9.9999998245167e-14 ≤ x && x ≤ 9999999827968.0, true, false, .up⟩

mutual

/-- A datum inside a list or a record. Strings stand in quotes there, and a host object is shown by the name given for all
of them. -/
def shown (handleName : String) : Datum → String
  | unit => "()"
  | bool b => if b then "true" else "false"
  | int n => toString n.toInt
  | float x => Token.floatLayout.write x
  | string s => Text.quote s
  | handle _ => handleName
  | list items => "[" ++ ", ".intercalate (shownAll handleName items) ++ "]"
  | record fields => "#\x7b" ++ ", ".intercalate (shownFields handleName fields) ++ "\x7d"

def shownAll (handleName : String) : List Datum → List String
  | [] => []
  | d :: rest => shown handleName d :: shownAll handleName rest

def shownFields (handleName : String) : List (String × Datum) → List String
  | [] => []
  | (name, d) :: rest => (Text.quote name ++ ": " ++ shown handleName d) :: shownFields handleName rest

end

/-- A datum as a part of a text. -/
def joined (handleName : String) : Datum → String
  | unit => ""
  | string s => s
  | float x => if x == 0 then "0.0" else joinedLayout.write x
  | d => d.shown handleName

/-- The script value of a datum. -/
def toValue (handleName : String) : Datum → Value
  | unit => .null
  | bool b => .bool b
  | int n => .int n
  | float x => .float x
  | string s => .string s
  | handle h => .handle h
  | d => .string (d.shown handleName)

/-- The sum of numbers, or two texts joined as soon as one of them is a string. Integers do not overflow. -/
def add? (handleName : String) : Datum → Datum → Option Datum
  | string a, b => some (string (a ++ b.joined handleName))
  | a, string b => some (string (a.joined handleName ++ b))
  | int a, int b => (checkedInt64 (a.toInt + b.toInt)).map int
  | float a, float b => some (float (a + b))
  | int a, float b => some (float (Decimal.ofInt64 a + b))
  | float a, int b => some (float (a + Decimal.ofInt64 b))
  | _, _ => none

/-- The product of numbers. Integers do not overflow. -/
def mul? : Datum → Datum → Option Datum
  | int a, int b => (checkedInt64 (a.toInt * b.toInt)).map int
  | float a, float b => some (float (a * b))
  | int a, float b => some (float (Decimal.ofInt64 a * b))
  | float a, int b => some (float (a * Decimal.ofInt64 b))
  | _, _ => none

/-- An item of a list, counted from zero, or from the end if the index is negative; or a field of a record, which is the
unit if it is missing. -/
def item? : Datum → Datum → Option Datum
  | list items, int n =>
    if 0 ≤ n then items[n.toInt.toNat]?
    else if n.toInt.natAbs ≤ items.length then items[items.length - n.toInt.natAbs]?
    else none
  | record fields, string name => some ((fields.lookup name).getD unit)
  | _, _ => none

/-- A field of a record. -/
def field? : Datum → String → Option Datum
  | record fields, name => some ((fields.lookup name).getD unit)
  | _, _ => none

/-- The number of items, fields or characters. -/
def length? : Datum → Option Datum
  | list items => some (int (Int64.ofInt items.length))
  | record fields => some (int (Int64.ofInt fields.length))
  | string s => some (int (Int64.ofInt s.length))
  | _ => none

/-! ## Limits -/

/-- How much a datum holds, at any depth. -/
structure Extent where
  items : Nat
  fields : Nat
  bytes : Nat
deriving DecidableEq, Repr

instance : Add Extent := ⟨fun a b => ⟨a.items + b.items, a.fields + b.fields, a.bytes + b.bytes⟩⟩

mutual

/-- The items of the lists, the fields of the records and the bytes of the strings in a datum. -/
def extent : Datum → Extent
  | string s => ⟨0, 0, s.utf8ByteSize⟩
  | list items => extentOfItems items
  | record fields => extentOfFields fields
  | _ => ⟨0, 0, 0⟩

def extentOfItems : List Datum → Extent
  | [] => ⟨0, 0, 0⟩
  | d :: rest => ⟨1, 0, 0⟩ + extent d + extentOfItems rest

def extentOfFields : List (String × Datum) → Extent
  | [] => ⟨0, 0, 0⟩
  | (_, d) :: rest => ⟨0, 1, 0⟩ + extent d + extentOfFields rest

end

/-- The most that an operation may give. -/
def limit : Extent := ⟨10000, 1000, 10000⟩

/-- The datum is within the limits. -/
def fits (d : Datum) : Bool :=
  let e := d.extent
  e.items ≤ limit.items && e.fields ≤ limit.fields && e.bytes ≤ limit.bytes

end Datum

end EventScript
