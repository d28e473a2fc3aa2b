import LineScript.Text.Case
import LineScript.Value.Basic

/-!
# The functions of the standard library

The library's functions by name, each with its parameters. A parameter with a default may be left
out or asked for its default. Names are compared without regard to case.
-/

namespace LineScript

/-- A parameter of a library function. -/
structure BuiltinParam where
  /-- Its name, for reports. -/
  name : String
  /-- What it is when it is left out; nothing for a parameter that must be given. -/
  fallback : Option Value := none
deriving DecidableEq

/-- The functions of the library. -/
inductive Builtin where
  /-- The text of a value, bytes as hexadecimal digits. -/
  | toText
  /-- The number of a value. -/
  | toNumber
  /-- The whole number of a value. -/
  | toInt
  /-- The bytes of a value. -/
  | toBinary
  /-- The name of a value's type. -/
  | typeOf
  /-- Whether a value is a number. -/
  | isNumber
  /-- Whether a value is a text. -/
  | isString
  /-- Whether a value is a truth value. -/
  | isBool
  /-- Whether a value is bytes. -/
  | isBinary
  /-- Whether a value is an array. -/
  | isArray
  /-- Whether a value is a map. -/
  | isMap
  /-- Writes to standard output. -/
  | consoleWrite
  /-- Writes to the error stream. -/
  | consoleWriteError
  /-- Sets the error register. -/
  | setError
  /-- Sets the extended register. -/
  | setExtended
  /-- Registers a function to be called when the script ends. -/
  | onExit
  /-- The number of characters of a text. -/
  | stringLen
  /-- A text in capitals. -/
  | stringUpper
  /-- A text in small letters. -/
  | stringLower
  /-- The first characters of a text. -/
  | stringLeft
  /-- The last characters of a text. -/
  | stringRight
  /-- Characters out of a text. -/
  | stringMid
  /-- The position of a text in another. -/
  | stringInStr
  /-- A text with parts of it replaced. -/
  | stringReplace
  /-- The parts of a text between delimiters. -/
  | stringSplit
  /-- A text without some of its blanks. -/
  | stringStripWS
  /-- Matches of a pattern in a text. -/
  | stringRegExp
  /-- The size of a number. -/
  | abs
  /-- A number rounded to some decimals. -/
  | round
  /-- The square root of a number. -/
  | sqrt
  /-- The remainder of a division. -/
  | mod
  /-- A random number. -/
  | random
  /-- The number of elements. -/
  | uBound
  /-- The keys of a map. -/
  | mapKeys
  /-- Whether a map has a key. -/
  | mapExists
  /-- Takes a key out of a map. -/
  | mapRemove
  /-- Opens a file. -/
  | fileOpen
  /-- Reads from a file. -/
  | fileRead
  /-- Writes to a file. -/
  | fileWrite
  /-- Writes a line to a file. -/
  | fileWriteLine
  /-- Closes a file. -/
  | fileClose
  /-- Deletes a file. -/
  | fileDelete
  /-- Whether a path leads anywhere. -/
  | fileExists
  /-- Downloads. -/
  | inetRead
  /-- Waits. -/
  | sleep
  /-- Starts a timer. -/
  | timerInit
  /-- The time since a timer was started. -/
  | timerDiff
deriving Repr, DecidableEq

namespace Builtin

/-- All functions of the library. -/
def all : List Builtin :=
  [toText, toNumber, toInt, toBinary, typeOf, isNumber, isString, isBool, isBinary, isArray, isMap,
    consoleWrite, consoleWriteError, setError, setExtended, onExit, stringLen, stringUpper,
    stringLower, stringLeft, stringRight, stringMid, stringInStr, stringReplace, stringSplit,
    stringStripWS, stringRegExp, abs, round, sqrt, mod, random, uBound, mapKeys, mapExists,
    mapRemove, fileOpen, fileRead, fileWrite, fileWriteLine, fileClose, fileDelete, fileExists,
    inetRead, sleep, timerInit, timerDiff]

/-- The name under which scripts call a function. -/
def name : Builtin → String
  | toText => "String"
  | toNumber => "Number"
  | toInt => "Int"
  | toBinary => "Binary"
  | typeOf => "VarGetType"
  | isNumber => "IsNumber"
  | isString => "IsString"
  | isBool => "IsBool"
  | isBinary => "IsBinary"
  | isArray => "IsArray"
  | isMap => "IsMap"
  | consoleWrite => "ConsoleWrite"
  | consoleWriteError => "ConsoleWriteError"
  | setError => "SetError"
  | setExtended => "SetExtended"
  | onExit => "OnAutoItExitRegister"
  | stringLen => "StringLen"
  | stringUpper => "StringUpper"
  | stringLower => "StringLower"
  | stringLeft => "StringLeft"
  | stringRight => "StringRight"
  | stringMid => "StringMid"
  | stringInStr => "StringInStr"
  | stringReplace => "StringReplace"
  | stringSplit => "StringSplit"
  | stringStripWS => "StringStripWS"
  | stringRegExp => "StringRegExp"
  | abs => "Abs"
  | round => "Round"
  | sqrt => "Sqrt"
  | mod => "Mod"
  | random => "Random"
  | uBound => "UBound"
  | mapKeys => "MapKeys"
  | mapExists => "MapExists"
  | mapRemove => "MapRemove"
  | fileOpen => "FileOpen"
  | fileRead => "FileRead"
  | fileWrite => "FileWrite"
  | fileWriteLine => "FileWriteLine"
  | fileClose => "FileClose"
  | fileDelete => "FileDelete"
  | fileExists => "FileExists"
  | inetRead => "InetRead"
  | sleep => "Sleep"
  | timerInit => "TimerInit"
  | timerDiff => "TimerDiff"

/-- A parameter that must be given. -/
def needs (name : String) : BuiltinParam := ⟨name, none⟩

/-- A parameter that is a whole number when it is left out. -/
def orElse (name : String) (n : Int64) : BuiltinParam := ⟨name, some (.number n)⟩

/-- The parameters of a function, in order. -/
def params : Builtin → List BuiltinParam
  | toText | toNumber | toInt | toBinary | typeOf | isNumber | isString | isBool | isBinary |
    isArray | isMap | abs | sqrt => [needs "value"]
  | consoleWrite | consoleWriteError => [needs "data"]
  | setError => [needs "code", orElse "extended" 0, orElse "return" 1]
  | setExtended => [needs "code", orElse "return" 1]
  | onExit => [needs "function"]
  | stringLen | stringUpper | stringLower => [needs "string"]
  | stringLeft | stringRight => [needs "string", needs "count"]
  | stringMid => [needs "string", needs "start", orElse "count" (-1)]
  | stringInStr =>
    [needs "string", needs "substring", orElse "casesense" 0, orElse "occurrence" 1]
  | stringReplace =>
    [needs "string", needs "search", needs "replace", orElse "occurrence" 0, orElse "casesense" 0]
  | stringSplit => [needs "string", needs "delimiters", orElse "flag" 0]
  | stringStripWS => [needs "string", needs "flag"]
  | stringRegExp => [needs "string", needs "pattern", orElse "flag" 0]
  | round => [needs "value", orElse "decimals" 0]
  | mod => [needs "dividend", needs "divisor"]
  | random => [orElse "min" 0, orElse "max" 1, orElse "flag" 0]
  | uBound => [needs "array", orElse "dimension" 1]
  | mapKeys => [needs "map"]
  | mapExists | mapRemove => [needs "map", needs "key"]
  | fileOpen => [needs "filename", orElse "mode" 0]
  | fileRead => [needs "file", orElse "count" (-1)]
  | fileWrite => [needs "file", needs "data"]
  | fileWriteLine => [needs "file", needs "line"]
  | fileClose | timerDiff => [needs "handle"]
  | fileDelete => [needs "filename"]
  | fileExists => [needs "path"]
  | inetRead => [needs "url", orElse "options" 0]
  | sleep => [needs "delay"]
  | timerInit => []

/-- How many parameters must be given. -/
def required (function : Builtin) : Nat :=
  (function.params.filter (·.fallback.isNone)).length

/-- All functions under their names in small letters. -/
def index : List (String × Builtin) :=
  all.map fun function => (Text.lower function.name, function)

/-- The function of this name, whatever its case. -/
def ofName? (name : String) : Option Builtin :=
  index.lookup (Text.lower name)

/-- The names of all functions, in alphabetical order whatever their case. -/
def names : List String :=
  (all.map name).mergeSort fun left right => Text.lower left ≤ Text.lower right

end Builtin

end LineScript
