import EventScript.Decimal.Layout
import EventScript.Text.Position
import EventScript.Text.Quoted

/-!
# Tokens

The words of the language: literals, names, commands, keywords and symbols, each with the place where it starts. `describe`
is how a message shows a token.
-/

namespace EventScript

/-- Words that are not names. They may be written in either case. -/
inductive Keyword where
  | ifWord | elseWord | forWord | whileWord | breakWord | continueWord | returnWord | globalWord
  | trueWord | falseWord | nullWord
deriving DecidableEq, Repr

namespace Keyword

def all : List Keyword :=
  [ifWord, elseWord, forWord, whileWord, breakWord, continueWord, returnWord, globalWord, trueWord, falseWord, nullWord]

/-- The keyword in capitals. -/
def spelling : Keyword → String
  | ifWord => "IF"
  | elseWord => "ELSE"
  | forWord => "FOR"
  | whileWord => "WHILE"
  | breakWord => "BREAK"
  | continueWord => "CONTINUE"
  | returnWord => "RETURN"
  | globalWord => "GLOBAL"
  | trueWord => "TRUE"
  | falseWord => "FALSE"
  | nullWord => "NULL"

/-- The name of the keyword in messages. -/
def name : Keyword → String
  | ifWord => "If"
  | elseWord => "Else"
  | forWord => "For"
  | whileWord => "While"
  | breakWord => "Break"
  | continueWord => "Continue"
  | returnWord => "Return"
  | globalWord => "Global"
  | trueWord => "True"
  | falseWord => "False"
  | nullWord => "Null"

/-- The keyword that a word spells, if it spells one. -/
def ofWord? (word : String) : Option Keyword := all.find? fun k => k.spelling == word.map Char.toUpper

end Keyword

/-- Operators and marks. -/
inductive Symbol where
  | plus | minus | star | slash | percent
  | eq | ne | lt | le | gt | ge
  | and | or | not
  | bitAnd | bitOr | bitXor | bitNot | shl | shr
  | assign | question
  | lparen | rparen | lbrace | rbrace | lbracket | rbracket
  | comma | colon | semicolon | dot
deriving DecidableEq, Repr

namespace Symbol

def spelling : Symbol → String
  | plus => "+"
  | minus => "-"
  | star => "*"
  | slash => "/"
  | percent => "%"
  | eq => "=="
  | ne => "!="
  | lt => "<"
  | le => "<="
  | gt => ">"
  | ge => ">="
  | and => "&&"
  | or => "||"
  | not => "!"
  | bitAnd => "&"
  | bitOr => "|"
  | bitXor => "^"
  | bitNot => "~"
  | shl => "<<"
  | shr => ">>"
  | assign => "="
  | question => "?"
  | lparen => "("
  | rparen => ")"
  | lbrace => "\x7b"
  | rbrace => "\x7d"
  | lbracket => "["
  | rbracket => "]"
  | comma => ","
  | colon => ":"
  | semicolon => ";"
  | dot => "."

/-- The name of the symbol in messages. -/
def name : Symbol → String
  | plus => "Plus"
  | minus => "Minus"
  | star => "Star"
  | slash => "Slash"
  | percent => "Percent"
  | eq => "Eq"
  | ne => "Ne"
  | lt => "Lt"
  | le => "Le"
  | gt => "Gt"
  | ge => "Ge"
  | and => "And"
  | or => "Or"
  | not => "Not"
  | bitAnd => "BitAnd"
  | bitOr => "BitOr"
  | bitXor => "BitXor"
  | bitNot => "BitNot"
  | shl => "Shl"
  | shr => "Shr"
  | assign => "Assign"
  | question => "Question"
  | lparen => "LParen"
  | rparen => "RParen"
  | lbrace => "LBrace"
  | rbrace => "RBrace"
  | lbracket => "LBracket"
  | rbracket => "RBracket"
  | comma => "Comma"
  | colon => "Colon"
  | semicolon => "Semicolon"
  | dot => "Dot"

end Symbol

/-- A word of a script. -/
inductive Token where
  | int (n : Int64)
  | float (x : Float)
  | string (s : String)
  | ident (name : String)
  /-- A command word, its name in upper case. -/
  | command (name : String)
  | keyword (k : Keyword)
  | symbol (s : Symbol)
deriving DecidableEq, Repr

/-- Floating-point literals in messages have an exponent from `1e16` on and below `1e-4`. -/
def Token.floatLayout : Decimal.Layout := ⟨fun x => 1e-4 ≤ x && x < 1e16, true, false, .up⟩

/-- The token as messages show it. -/
def Token.describe : Token → String
  | int n => s!"Int({n.toInt})"
  | float x => s!"Float({floatLayout.write x})"
  | string s => s!"String({Text.quote s})"
  | ident s => s!"Ident({Text.quote s})"
  | command s => s!"Command({Text.quote s})"
  | keyword k => k.name
  | symbol s => s.name

/-- A token, or the end of the text, as messages show it. -/
def Token.describeNext : Option Token → String
  | some t => t.describe
  | none => "Eof"

/-- A token and the place of its first character. -/
structure LocatedToken where
  token : Token
  position : Position
deriving DecidableEq, Repr

end EventScript
