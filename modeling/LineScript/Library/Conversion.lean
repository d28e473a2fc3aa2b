import LineScript.Library.Args
import LineScript.Machine.Objects
import LineScript.Machine.Variables

/-!
# Library: conversions, types, console and registers
-/

namespace LineScript.Library

open Machine

/-- A truth value as one or zero. -/
def truth (b : Bool) : Value := .number (if b then 1 else 0)

/-- The text of a value; bytes are written as hexadecimal digits. -/
def toText : Value → Value
  | .binary bytes => .string ("0x" ++ Text.Hex.encode bytes)
  | other => .string other.display

/-- The number of a value; numbers stay as they are. -/
def toNumber : Value → Value
  | .number n => .number n
  | .double x => .double x
  | other => Value.parseNumber other.display

/-- The name of a value's type; arrays and maps have names of their own. -/
def typeOf (machine : Machine) (value : Value) : String :=
  match machine.objectOf? value with
  | some (.array _) => "Array"
  | some (.map _) => "Map"
  | _ => value.typeName

/-- Numbers, but not truth values. -/
def isNumber : Value → Bool
  | .number _ | .double _ => true
  | _ => false

/-- Texts. -/
def isString : Value → Bool
  | .string _ => true
  | _ => false

/-- Truth values. -/
def isBool : Value → Bool
  | .bool _ => true
  | _ => false

/-- Bytes. -/
def isBinary : Value → Bool
  | .binary _ => true
  | _ => false

/-- Handles of live arrays. -/
def isArray (machine : Machine) (value : Value) : Bool :=
  match machine.objectOf? value with
  | some (.array _) => true
  | _ => false

/-- Handles of live maps. -/
def isMap (machine : Machine) (value : Value) : Bool :=
  match machine.objectOf? value with
  | some (.map _) => true
  | _ => false

/-- The length of a text in bytes, which the console functions return. -/
def byteCount (text : String) : Value := .number (Int64.ofNat text.utf8ByteSize)

/-- Writes to standard output. -/
def consoleWrite (args : Args) : Exec Value := do
  writeStdout (args.text 0)
  return byteCount (args.text 0)

/-- Writes to the error stream. -/
def consoleWriteError (args : Args) : Exec Value := do
  writeStderr (args.text 0)
  return byteCount (args.text 0)

/-- Sets both codes and the return value of the running frame. -/
def setError (args : Args) : Exec Value := do
  let value := args.value 2
  Machine.setError (args.int 0)
  Machine.setExtended (args.int 1)
  setReturnValue value
  return value

/-- Sets the extended code and the return value of the running frame. -/
def setExtended (args : Args) : Exec Value := do
  let value := args.value 1
  Machine.setExtended (args.int 0)
  setReturnValue value
  return value

/-- Registers the function, named or referred to, that is called when the script ends. -/
def onExit (args : Args) : Exec Value := do
  match args.value 0 with
  | .function name | .string name =>
    modify fun machine => { machine with exitHandler := some name }
    return .number 1
  | _ =>
    Machine.setError 1
    return .number 0

end LineScript.Library
