import LineScript.Library.Collection
import LineScript.Library.Conversion
import LineScript.Library.Files
import LineScript.Library.Number
import LineScript.Library.Strings
import LineScript.Library.Time

/-!
# What the functions of the library do
-/

namespace LineScript

/-- What a function of the library does with its arguments. -/
def Builtin.run (function : Builtin) (args : Args) : Exec Value :=
  match function with
  | toText => return Library.toText (args.value 0)
  | toNumber => return Library.toNumber (args.value 0)
  | toInt => return .number (args.int 0)
  | toBinary => return .binary (args.value 0).asBytes
  | typeOf => do return .string (Library.typeOf (← get) (args.value 0))
  | isNumber => return Library.truth (Library.isNumber (args.value 0))
  | isString => return Library.truth (Library.isString (args.value 0))
  | isBool => return Library.truth (Library.isBool (args.value 0))
  | isBinary => return Library.truth (Library.isBinary (args.value 0))
  | isArray => do return Library.truth (Library.isArray (← get) (args.value 0))
  | isMap => do return Library.truth (Library.isMap (← get) (args.value 0))
  | consoleWrite => Library.consoleWrite args
  | consoleWriteError => Library.consoleWriteError args
  | setError => Library.setError args
  | setExtended => Library.setExtended args
  | onExit => Library.onExit args
  | stringLen => return Library.stringLen args
  | stringUpper => return .string (Text.upper (args.text 0))
  | stringLower => return .string (Text.lower (args.text 0))
  | stringLeft => return Library.stringLeft args
  | stringRight => return Library.stringRight args
  | stringMid => return Library.stringMid args
  | stringInStr => Library.stringInStr args
  | stringReplace => Library.stringReplace args
  | stringSplit => Library.stringSplit args
  | stringStripWS => return Library.stringStripWS args
  | stringRegExp => Library.stringRegExp args
  | abs => return Library.abs (args.value 0)
  | round => return Library.round args
  | sqrt => Library.sqrt args
  | mod => Library.mod args
  | random => Library.random args
  | uBound => Library.uBound args
  | mapKeys => Library.mapKeys args
  | mapExists => Library.mapExists args
  | mapRemove => Library.mapRemove args
  | fileOpen => Library.fileOpen args
  | fileRead => Library.fileRead args
  | fileWrite => Library.fileWrite args
  | fileWriteLine => Library.fileWriteLine args
  | fileClose => Library.fileClose args
  | fileDelete => Library.fileDelete args
  | fileExists => Library.fileExists args
  | inetRead => Library.inetRead args
  | sleep => Library.sleep args
  | timerInit => Library.timerInit
  | timerDiff => Library.timerDiff args

end LineScript
