import LineScript.Text.Case
import LineScript.Token.Basic

/-!
# Prepared programs

A program is a list of tokens to run and the three tables that its tokens refer to: calls with
their arguments, loops with their headers and bodies, and functions. Everything in the tables is
kept as tokens and evaluated each time it is reached.
-/

namespace LineScript

/-- A run of tokens: a body, an argument, an expression. -/
abbrev TokenBlock := Array Token

/-- A call as it stands in the source. -/
structure CallSite where
  /-- The name called. -/
  name : String
  /-- The tokens of each argument. -/
  args : List TokenBlock
  /-- The line of the name. -/
  line : Nat
deriving Repr, DecidableEq

/-- A parameter of a script's function. -/
structure Param where
  /-- Its name in small letters. -/
  name : String
  /-- The expression of its default. -/
  fallback : Option TokenBlock
deriving Repr, DecidableEq

/-- A function of a script. -/
structure UserFunction where
  /-- Its name as written. -/
  name : String
  /-- Its parameters, in order. -/
  params : List Param
  /-- The tokens it runs. -/
  body : TokenBlock
  /-- The line it starts on. -/
  line : Nat
deriving Repr, DecidableEq

/-- How many arguments a function needs. -/
def UserFunction.required (function : UserFunction) : Nat :=
  (function.params.filter (·.fallback.isNone)).length

/-- What a loop goes through. -/
inductive LoopHead where
  /-- Numbers from a start to an end, by a step. -/
  | range (first last : TokenBlock) (step : Option TokenBlock)
  /-- The members of a collection. -/
  | each (collection : TokenBlock)
deriving Repr, DecidableEq

/-- A counting or collection loop. -/
structure ForLoop where
  /-- The variable that holds the current member. -/
  index : String
  /-- What the loop goes through. -/
  head : LoopHead
  /-- The tokens it repeats. -/
  body : TokenBlock
  /-- The line it starts on. -/
  line : Nat
deriving Repr, DecidableEq

/-- A program that is ready to run. -/
structure Program where
  /-- The statements outside all functions. -/
  tokens : TokenBlock := #[]
  /-- Functions under their names in small letters, in the order of the source. -/
  functions : List (String × UserFunction) := []
  /-- Calls by number. -/
  calls : Array CallSite := #[]
  /-- Loops by number. -/
  loops : Array ForLoop := #[]
deriving Repr, DecidableEq

/-- The function of this name, whatever its case. -/
def Program.function? (program : Program) (name : String) : Option UserFunction :=
  program.functions.lookup (Text.lower name)

end LineScript
