import EventScript.Value.Operator
import EventScript.Value.Order
import EventScript.Value.Text

/-!
# Operators on values

Integer arithmetic is exact or fails: `checkedInt64` holds the range. A floating-point operand makes the whole operation
floating-point. `+` joins texts as soon as one side is a string.
-/

namespace EventScript

/-- Why an operator refuses its operands. -/
inductive OperandFault where
  | mismatch (op : BinaryOp) (left right : Kind)
  | unaryMismatch (operand : Kind)
  | divisionByZero
  | overflow (left : Int64) (op : BinaryOp) (right : Int64)
  | negationOverflow
  | shiftAmount (amount : Int64)
deriving DecidableEq, Repr

def OperandFault.message : OperandFault → String
  | mismatch op left right => s!"cannot apply '{op.symbol}' to {left.name} and {right.name}"
  | unaryMismatch operand => s!"cannot apply unary operator to {operand.name}"
  | divisionByZero => "division by zero"
  | overflow left op right => s!"integer overflow in {left.toInt} {op.symbol} {right.toInt}"
  | negationOverflow => "integer overflow in negation"
  | shiftAmount amount => s!"invalid shift amount {amount.toInt}"

/-- The 64-bit integer of this value, if there is one. -/
def checkedInt64 (n : Int) : Option Int64 :=
  if Int64.minValue.toInt ≤ n ∧ n ≤ Int64.maxValue.toInt then some (Int64.ofInt n) else none

namespace Value

/-- An arithmetic operator, by what it does to integers and to doubles. -/
def numeric (op : BinaryOp) (onInts : Int → Int → Int) (onFloats : Float → Float → Float) (left right : Value) :
    Except OperandFault Value :=
  match left, right with
  | int a, int b =>
    match checkedInt64 (onInts a.toInt b.toInt) with
    | some n => .ok (.int n)
    | none => .error (.overflow a op b)
  | float a, float b => .ok (.float (onFloats a b))
  | int a, float b => .ok (.float (onFloats (Decimal.ofInt64 a) b))
  | float a, int b => .ok (.float (onFloats a (Decimal.ofInt64 b)))
  | _, _ => .error (.mismatch op left.kind right.kind)

/-- An operator on bits, for two integers or two truth values. -/
def bitwise (op : BinaryOp) (onInts : Int64 → Int64 → Int64) (onBools : Bool → Bool → Bool) (left right : Value) :
    Except OperandFault Value :=
  match left, right with
  | int a, int b => .ok (.int (onInts a b))
  | bool a, bool b => .ok (.bool (onBools a b))
  | _, _ => .error (.mismatch op left.kind right.kind)

/-- A shift, by 0 to 63 places. -/
def shift (op : BinaryOp) (move : Int64 → Int64 → Int64) (left right : Value) : Except OperandFault Value :=
  match left, right with
  | int a, int b => if 0 ≤ b ∧ b < 64 then .ok (.int (move a b)) else .error (.shiftAmount b)
  | _, _ => .error (.mismatch op left.kind right.kind)

/-- A test of the order of two values. -/
def ordered (op : BinaryOp) (test : Ordering → Bool) (left right : Value) : Except OperandFault Value :=
  match left.compare? right with
  | some o => .ok (.bool (test o))
  | none => .error (.mismatch op left.kind right.kind)

/-- Both values are integers, and the second is zero. -/
def dividesByZero : Value → Value → Bool
  | int _, int b => b == 0
  | _, _ => false

/-- One of the values is a string. -/
def joins : Value → Value → Bool
  | string _, _ => true
  | _, string _ => true
  | _, _ => false

/-- Applies an operator to two values. Both are at hand, so `&&` and `||` only combine their truth. -/
def binary (op : BinaryOp) (left right : Value) : Except OperandFault Value :=
  match op with
  | .add =>
    if joins left right then .ok (.string (left.text ++ right.text))
    else numeric op (· + ·) (· + ·) left right
  | .sub => numeric op (· - ·) (· - ·) left right
  | .mul => numeric op (· * ·) (· * ·) left right
  | .div =>
    if dividesByZero left right then .error .divisionByZero else numeric op Int.tdiv (· / ·) left right
  | .mod =>
    if dividesByZero left right then .error .divisionByZero
    else match left, right with
      | int a, int b =>
        -- the quotient has to fit, as it does in a division
        if (checkedInt64 (a.toInt.tdiv b.toInt)).isNone then .error (.overflow a op b)
        else numeric op Int.tmod Decimal.remainder left right
      | _, _ => numeric op Int.tmod Decimal.remainder left right
  | .eq => .ok (.bool (left.equals right))
  | .ne => .ok (.bool (!left.equals right))
  | .lt => ordered op (· == .lt) left right
  | .le => ordered op (· != .gt) left right
  | .gt => ordered op (· == .gt) left right
  | .ge => ordered op (· != .lt) left right
  | .and => .ok (.bool (left.isTruthy && right.isTruthy))
  | .or => .ok (.bool (left.isTruthy || right.isTruthy))
  | .bitAnd => bitwise op (· &&& ·) (· && ·) left right
  | .bitOr => bitwise op (· ||| ·) (· || ·) left right
  | .bitXor => bitwise op (· ^^^ ·) (· ^^ ·) left right
  | .shl => shift op (· <<< ·) left right
  | .shr => shift op (· >>> ·) left right

/-- Applies an operator to one value. -/
def unary (op : UnaryOp) (operand : Value) : Except OperandFault Value :=
  match op, operand with
  | .not, v => .ok (.bool (!v.isTruthy))
  | .neg, int n =>
    match checkedInt64 (-n.toInt) with
    | some m => .ok (.int m)
    | none => .error .negationOverflow
  | .neg, float x => .ok (.float (-x))
  | .bitNot, int n => .ok (.int (~~~n))
  | _, v => .error (.unaryMismatch v.kind)

end Value

end EventScript
