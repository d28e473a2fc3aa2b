import LineScript.Library.Signature

/-!
# Arguments of a library function

The values of a function's parameters in order, defaults filled in, and how many the caller gave.
-/

namespace LineScript

/-- The values of a library function's parameters. -/
structure Args where
  /-- One value for each parameter. -/
  values : List Value
  /-- How many the caller gave. -/
  supplied : Nat

namespace Args

/-- The value of the parameter at a position. -/
def value (args : Args) (position : Nat) : Value := args.values.getD position .null

/-- The value of a parameter as text. -/
def text (args : Args) (position : Nat) : String := (args.value position).display

/-- The value of a parameter as a whole number. -/
def int (args : Args) (position : Nat) : Int64 := (args.value position).asInt

/-- The value of a parameter as a number. -/
def number (args : Args) (position : Nat) : Float := (args.value position).asNumber

/-- The value of each parameter: the argument at its place, or its default when there is none or
the default is asked for. The name of a parameter that has neither is the error. -/
def fill : List BuiltinParam → List Value → Except String (List Value)
  | [], _ => .ok []
  | param :: params, given => do
    let value ←
      match given.head?.getD .defaultWord with
      | .defaultWord =>
        match param.fallback with
        | some value => pure value
        | none => .error param.name
      | value => pure value
    return value :: (← fill params given.tail)

end Args

end LineScript
