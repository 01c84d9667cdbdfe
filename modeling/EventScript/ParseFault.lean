import EventScript.Token

/-!
# Faults in a source text

Why a text is not a script, and where: a character or literal that cannot be read, or a token that cannot stand where it
does.
-/

namespace EventScript

/-- The deepest nesting of blocks, groups, operator chains and unary operators that a script may have. -/
def nestingLimit : Nat := 64

/-- What is wrong with a source text. -/
inductive ParseCause where
  | unexpectedCharacter (c : Char)
  | commandName
  | invalidEscape (c : Char)
  | unterminatedString
  | invalidInteger (digits : String)
  | hexDigits
  | invalidHex (digits : String)
  | expected (wanted : Symbol) (got : Option Token)
  | unexpectedToken (got : Option Token)
  | nestedTooDeep
  | loopVariable
  | breakOutsideLoop
  | continueOutsideLoop
  | assignmentTarget
  | globalName
  | globalAccess
  | placeholderName
  | unterminatedPlaceholder (name : String)
deriving DecidableEq, Repr

def ParseCause.message : ParseCause → String
  | unexpectedCharacter c => s!"Unexpected character: '{c}'"
  | commandName => "Expected command name after '#'"
  | invalidEscape c => s!"Invalid escape sequence: \\{c}"
  | unterminatedString => "Unterminated string"
  | invalidInteger digits => s!"Invalid integer: {digits}"
  | hexDigits => "Expected hex digits after 0x"
  | invalidHex digits => s!"Invalid hex number: 0x{digits}"
  | expected wanted got => s!"Expected {wanted.name}, got {Token.describeNext got}"
  | unexpectedToken got => s!"Unexpected token in expression: {Token.describeNext got}"
  | nestedTooDeep => s!"Script nested deeper than {nestingLimit} levels"
  | loopVariable => "Expected loop variable name"
  | breakOutsideLoop => "BREAK outside of a loop"
  | continueOutsideLoop => "CONTINUE outside of a loop"
  | assignmentTarget => "Invalid assignment target"
  | globalName => "Expected global variable name"
  | globalAccess => "Expected '.' or '[' after GLOBAL"
  | placeholderName => "Expected placeholder name after '%'"
  | unterminatedPlaceholder name => s!"Unterminated placeholder '%{name}'"

/-- A fault in a source text and the place it is reported at. -/
structure ParseFault where
  cause : ParseCause
  position : Position
deriving DecidableEq, Repr

/-- The fault with its place, as one line. -/
def ParseFault.text (f : ParseFault) : String :=
  s!"Parse error at {f.position.line}:{f.position.column}: {f.cause.message}"

end EventScript
