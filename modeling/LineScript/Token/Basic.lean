/-!
# Tokens

A token is a kind, the text it was read from (without the mark that shows its kind) and its place
in the source. Preparing a program replaces calls and counting loops by single tokens that carry
the number of a table entry.
-/

namespace LineScript

/-- Kinds of tokens. -/
inductive TokenKind where
  /-- A character that begins no token. -/
  | illegal
  /-- The end of a line. -/
  | eol
  /-- The mark that continues a line on the next one. -/
  | extend
  /-- A quoted text. -/
  | string
  /-- A whole numeral. -/
  | number
  /-- A numeral with a fraction. -/
  | double
  /-- A truth value. -/
  | boolean
  /-- The digits of a binary literal. -/
  | binary
  /-- The keyword for no value. -/
  | kwNull
  /-- The keyword that asks for a default. -/
  | kwDefault
  /-- A name after an at sign. -/
  | macroName
  /-- A comment. -/
  | comment
  /-- A name after a dollar sign. -/
  | variableName
  /-- A name after a number sign. -/
  | flag
  /-- A name that is no keyword. -/
  | identifier
  /-- An opening parenthesis. -/
  | lparen
  /-- A closing parenthesis. -/
  | rparen
  /-- An opening bracket. -/
  | lbracket
  /-- A closing bracket. -/
  | rbracket
  /-- A comma. -/
  | separator
  /-- An operator written in signs. -/
  | operator
  /-- Conjunction. -/
  | kwAnd
  /-- Disjunction. -/
  | kwOr
  /-- Negation of a truth value. -/
  | kwNot
  /-- A call of a library function, by its number in the program's table of calls. -/
  | call (id : Nat)
  /-- A call of a script's function, by its number in the program's table of calls. -/
  | userCall (id : Nat)
  /-- A counting or collection loop, by its number in the program's table of loops. -/
  | loop (id : Nat)
  /-- Opens a function. -/
  | kwFunc
  /-- Closes a function. -/
  | kwEndFunc
  /-- Leaves a function. -/
  | kwReturn
  /-- Opens a choice. -/
  | kwIf
  /-- Ends a condition. -/
  | kwThen
  /-- The last branch of a choice or selection. -/
  | kwElse
  /-- A further condition of a choice. -/
  | kwElseIf
  /-- Closes a choice. -/
  | kwEndIf
  /-- Opens a counting or collection loop. -/
  | kwFor
  /-- Stands between the ends of a range. -/
  | kwTo
  /-- Stands before the step of a counting loop. -/
  | kwStep
  /-- Stands before the collection of a loop. -/
  | kwIn
  /-- Closes a counting or collection loop. -/
  | kwNext
  /-- Opens a loop with its condition first. -/
  | kwWhile
  /-- Closes a loop with its condition first. -/
  | kwWEnd
  /-- Opens an object block. -/
  | kwWith
  /-- Closes an object block. -/
  | kwEndWith
  /-- Opens a loop with its condition last. -/
  | kwDo
  /-- Closes a loop with its condition last. -/
  | kwUntil
  /-- Opens a selection by value. -/
  | kwSwitch
  /-- Closes a selection by value. -/
  | kwEndSwitch
  /-- Opens a selection by conditions. -/
  | kwSelect
  /-- Closes a selection by conditions. -/
  | kwEndSelect
  /-- Opens one alternative of a selection. -/
  | kwCase
  /-- Goes on with the next alternative. -/
  | kwContinueCase
  /-- Goes on with the next round of a loop. -/
  | kwContinueLoop
  /-- Leaves a loop. -/
  | kwExitLoop
  /-- A word that declares: where a variable lives, or that it is constant. -/
  | kwScope
  /-- Resizes an array. -/
  | kwReDim
  /-- Declares counted constants. -/
  | kwEnum
  /-- A reserved word. -/
  | kwVolatile
  /-- Ends the script. -/
  | kwExit
deriving Repr, DecidableEq

namespace TokenKind

/-- The name of a kind, as reports show it. -/
def name : TokenKind → String
  | illegal => "Illegal"
  | eol => "Eol"
  | extend => "Extend"
  | string => "String"
  | number => "Number"
  | double => "Double"
  | boolean => "Boolean"
  | binary => "Binary"
  | kwNull => "Null"
  | kwDefault => "Default"
  | macroName => "Macro"
  | comment => "Comment"
  | variableName => "Variable"
  | flag => "Flag"
  | identifier => "Identifier"
  | lparen => "LParen"
  | rparen => "RParen"
  | lbracket => "LBracket"
  | rbracket => "RBracket"
  | separator => "Separator"
  | operator => "Operator"
  | kwAnd => "And"
  | kwOr => "Or"
  | kwNot => "Not"
  | call _ => "Call"
  | userCall _ => "UserCall"
  | loop _ => "Loop"
  | kwFunc => "Func"
  | kwEndFunc => "EndFunc"
  | kwReturn => "Return"
  | kwIf => "If"
  | kwThen => "Then"
  | kwElse => "Else"
  | kwElseIf => "ElseIf"
  | kwEndIf => "EndIf"
  | kwFor => "For"
  | kwTo => "To"
  | kwStep => "Step"
  | kwIn => "In"
  | kwNext => "Next"
  | kwWhile => "While"
  | kwWEnd => "WEnd"
  | kwWith => "With"
  | kwEndWith => "EndWith"
  | kwDo => "Do"
  | kwUntil => "Until"
  | kwSwitch => "Switch"
  | kwEndSwitch => "EndSwitch"
  | kwSelect => "Select"
  | kwEndSelect => "EndSelect"
  | kwCase => "Case"
  | kwContinueCase => "ContinueCase"
  | kwContinueLoop => "ContinueLoop"
  | kwExitLoop => "ExitLoop"
  | kwScope => "Scope"
  | kwReDim => "ReDim"
  | kwEnum => "Enum"
  | kwVolatile => "Volatile"
  | kwExit => "Exit"

end TokenKind

/-- A token at its place in the source. -/
structure Token where
  /-- What the token is. -/
  kind : TokenKind
  /-- The text it was read from, without the mark that shows its kind. -/
  lexeme : String
  /-- The line it starts on, counted from one; zero for a token that stands in no source. -/
  line : Nat
  /-- The column it starts on, counted from one. -/
  col : Nat
deriving Repr, DecidableEq

namespace Token

/-- A line end that stands in no source. -/
def insertedEol : Token := ⟨.eol, "", 0, 0⟩

/-- The token is this operator. -/
def isOperator (token : Token) (operator : String) : Bool :=
  token.kind == .operator && token.lexeme == operator

/-- A line end or a comment, after which no more of a statement stands on the line. -/
def endsLine (token : Token) : Bool :=
  token.kind == .eol || token.kind == .comment

/-- How a report shows a token. -/
def display (token : Token) : String :=
  match token.kind with
  | .eol => "end of line"
  | .string => "\"" ++ token.lexeme ++ "\""
  | .variableName => "$" ++ token.lexeme
  | .macroName => "@" ++ token.lexeme
  | .flag => "#" ++ token.lexeme
  | .binary => "0x" ++ token.lexeme
  | kind => if token.lexeme.isEmpty then kind.name else token.lexeme

end Token

end LineScript
