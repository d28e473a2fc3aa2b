/-!
# Kinds of runtime faults

A script's fault at run time may be classified. `runtimeError` is the class of all classified
faults, so every kind is an instance of it and of itself.
-/

namespace LineScript

/-- Classes of faults that a running script raises. -/
inductive FaultKind where
  /-- The class that holds all others. -/
  | runtimeError
  /-- A variable, function or macro that does not exist. -/
  | nameError
  /-- A call with the wrong number of arguments. -/
  | arityError
  /-- A value of the wrong type. -/
  | typeError
  /-- A position outside an array. -/
  | indexError
  /-- A key that a map does not hold. -/
  | keyError
  /-- A write to a constant, or a constant without a value. -/
  | constError
  /-- A statement or expression that cannot be read. -/
  | syntaxError
  /-- A file that cannot be read. -/
  | ioError
deriving Repr, DecidableEq

namespace FaultKind

/-- All kinds, the general one first. -/
def all : List FaultKind :=
  [runtimeError, nameError, arityError, typeError, indexError, keyError, constError, syntaxError,
    ioError]

/-- The name under which a kind is reported. -/
def name : FaultKind → String
  | runtimeError => "RuntimeError"
  | nameError => "NameError"
  | arityError => "ArityError"
  | typeError => "TypeError"
  | indexError => "IndexError"
  | keyError => "KeyError"
  | constError => "ConstError"
  | syntaxError => "SyntaxError"
  | ioError => "IOError"

/-- The kind that a name stands for. -/
def ofName? (name : String) : Option FaultKind :=
  all.find? (·.name == name)

/-- A kind is an instance of itself and of the general kind. -/
def isInstanceOf (kind other : FaultKind) : Bool :=
  kind == other || other == runtimeError

end FaultKind

end LineScript
