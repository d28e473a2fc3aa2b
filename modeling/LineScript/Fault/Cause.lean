import LineScript.Fault.Kind
import LineScript.Text.Hex

/-!
# Causes of faults

What can go wrong while a script is read as tokens (`LexCause`), prepared for running
(`PrepareCause`) and run (`RunCause`). A cause holds what its report needs, tokens and values
already in the form in which they are shown; the wording of every report is in the `message`
function of its type. Hosts may raise faults of their own with a wording they state.
-/

namespace LineScript

/-- Why a text cannot be read as tokens. -/
inductive LexCause where
  /-- An at sign without a name after it. -/
  | macroName
  /-- A dollar sign without a name after it. -/
  | variableName
  /-- A comment block, opened at this line, that is never closed. -/
  | openComment (line : Nat)
  /-- A wording given by the host. -/
  | stated (text : String)
deriving Repr, DecidableEq

namespace LexCause

/-- The report of a cause. -/
def message : LexCause → String
  | macroName => "expected macro name after '@'"
  | variableName => "expected variable name after '$'"
  | openComment line => "comment block beginning at line " ++ toString line ++ " does not end"
  | stated text => text

end LexCause

/-- Why a token list cannot be prepared for running. -/
inductive PrepareCause where
  /-- A flag that does not begin its line. -/
  | flagInside (name : String)
  /-- An include of a library. -/
  | libraryInclude
  /-- An include without a path. -/
  | includePath
  /-- An include of a file that is being included. -/
  | includeCycle (path : String)
  /-- An include of a file that cannot be read. -/
  | includeUnreadable (path reason : String)
  /-- A token between a continuation mark and the end of its line. -/
  | afterContinuation (token : String)
  /-- A continuation mark on the last line. -/
  | continuationAtEnd
  /-- A call whose closing parenthesis is missing. -/
  | callOpen (name : String)
  /-- A separator inside parentheses of an argument. -/
  | callNestedSeparator (name : String)
  /-- A call with an argument of no tokens. -/
  | callEmptyArgument (name : String)
  /-- A call that does not end on its line. -/
  | callLineEnd (name : String)
  /-- A loop that does not begin its line. -/
  | forInside
  /-- The end of a loop where none is open. -/
  | nextAlone
  /-- A loop without a variable. -/
  | forVariable
  /-- A counting loop without its upper end. -/
  | forTo
  /-- A loop that neither counts nor goes through a collection. -/
  | forAssignment
  /-- A keyword inside an expression of a loop header. -/
  | forHeaderToken (token part : String)
  /-- An empty expression of a loop header. -/
  | forHeaderEmpty (part : String)
  /-- A loop that is never closed. -/
  | forOpen
  /-- A token after the end of a loop on the same line. -/
  | afterNext (token : String)
  /-- A function that does not begin its line. -/
  | funcInside
  /-- The end of a function where none is open. -/
  | endFuncAlone
  /-- A function without a name. -/
  | funcName
  /-- A function without a parameter list. -/
  | funcParameters (name : String)
  /-- A token after a parameter list on the same line. -/
  | afterParameters (token name : String)
  /-- A function that is never closed. -/
  | funcOpen (name : String)
  /-- A function inside a function. -/
  | funcNested (name : String)
  /-- A token after the end of a function on the same line. -/
  | afterEndFunc (token : String)
  /-- A second function of one name. -/
  | funcTwice (name : String)
  /-- A token that is no parameter. -/
  | parameterToken (token function : String)
  /-- A parameter list that is never closed. -/
  | parametersOpen (function : String)
  /-- A second parameter of one name. -/
  | parameterTwice (name function : String)
  /-- A default of no tokens. -/
  | parameterDefault (name function : String)
  /-- A required parameter after an optional one. -/
  | parameterOrder (name function : String)
  /-- A condition without its end. -/
  | ifThen
  /-- A further condition outside a choice. -/
  | elseIfAlone
  /-- A further condition without its end. -/
  | elseIfThen
  /-- A last branch outside a choice. -/
  | elseAlone
  /-- A case outside a selection. -/
  | caseAlone
  /-- A closing keyword for another block than the innermost open one. -/
  | closerMismatch (closer opener : String) (line : Nat)
  /-- A closing keyword where no block is open. -/
  | closerAlone (closer : String)
  /-- A function keyword inside a body. -/
  | functionKeyword (keyword : String)
  /-- A keyword of the language that is not supported. -/
  | unsupported (keyword : String)
  /-- A block that is never closed. -/
  | blockOpen (opener closer : String)
  /-- A wording given by the host. -/
  | stated (text : String)
deriving Repr, DecidableEq

namespace PrepareCause

/-- The report of a cause. -/
def message : PrepareCause → String
  | flagInside name => "unexpected flag #" ++ name
  | libraryInclude => "library includes (#include <...>) are not supported"
  | includePath => "expected string containing path to include"
  | includeCycle path => "include cycle detected at " ++ path
  | includeUnreadable path reason => "cannot include " ++ path ++ ": " ++ reason
  | afterContinuation token => "unexpected " ++ token ++ " after line continuation"
  | continuationAtEnd => "line continuation at end of file"
  | callOpen name => "unterminated call block for " ++ name
  | callNestedSeparator name => "unexpected separator in nested block of " ++ name ++ " call"
  | callEmptyArgument name => "empty argument in call to " ++ name
  | callLineEnd name => "unexpected end of line in call to " ++ name
  | forInside => "For must begin a statement"
  | nextAlone => "Next without matching For"
  | forVariable => "expected variable after For"
  | forTo => "expected To in For loop"
  | forAssignment => "expected '=' or In after For variable"
  | forHeaderToken token part => "unexpected " ++ token ++ " in For loop " ++ part
  | forHeaderEmpty part => "missing " ++ part ++ " in For loop"
  | forOpen => "For without matching Next"
  | afterNext token => "unexpected " ++ token ++ " following Next"
  | funcInside => "Func must begin a statement"
  | endFuncAlone => "EndFunc without matching Func"
  | funcName => "expected function name after Func"
  | funcParameters name => "expected parameter list after Func " ++ name
  | afterParameters token name => "unexpected " ++ token ++ " after parameter list of " ++ name
  | funcOpen name => "unexpected end of func " ++ name
  | funcNested name => "nested Func inside " ++ name ++ " is not allowed"
  | afterEndFunc token => "unexpected " ++ token ++ " following EndFunc"
  | funcTwice name => "func " ++ name ++ " already defined"
  | parameterToken token function => "unexpected " ++ token ++ " in parameter list of " ++ function
  | parametersOpen function => "unterminated parameter list of " ++ function
  | parameterTwice name function => "duplicate parameter $" ++ name ++ " in " ++ function
  | parameterDefault name function => "missing default value for $" ++ name ++ " in " ++ function
  | parameterOrder name function =>
    "parameter $" ++ name ++ " of " ++ function ++ " follows an optional parameter"
  | ifThen => "If without Then"
  | elseIfAlone => "ElseIf without matching If"
  | elseIfThen => "ElseIf without Then"
  | elseAlone => "Else without matching If"
  | caseAlone => "Case outside of Switch or Select"
  | closerMismatch closer opener line =>
    closer ++ " closes " ++ opener ++ " opened at line " ++ toString line
  | closerAlone closer => closer ++ " without matching opener"
  | functionKeyword keyword => keyword ++ " is only allowed at the top level of a script"
  | unsupported keyword => keyword ++ " is not supported"
  | blockOpen opener closer => opener ++ " without matching " ++ closer
  | stated text => text

end PrepareCause

/-- Why a running script stops. -/
inductive RunCause where
  /-- A script file that cannot be read. -/
  | scriptUnreadable (path reason : String)
  /-- A jump out of a loop or case where none is running. -/
  | flowOutside (flow : String)
  /-- A loop level below one. -/
  | loopLevel (keyword : String) (level : Int64)
  /-- A function name that begins a statement without a call. -/
  | bareName (name : String)
  /-- A character that is no token. -/
  | illegalToken (token : String)
  /-- A token that begins no statement. -/
  | noStatement (token : String)
  /-- An include that was not resolved. -/
  | includeLeft (flag : String)
  /-- Too many calls inside each other. -/
  | callDepth (name : String)
  /-- A token after the end of a statement. -/
  | lineEndExpected (token : String)
  /-- A write to a constant. -/
  | constantWrite (name : String)
  /-- A key that a map does not hold. -/
  | keyMissing (key : String)
  /-- A handle that names no object of the needed kind. -/
  | notLive (handle : Nat) (kind : String)
  /-- A position outside an array. -/
  | outOfBounds (index : Int64) (size : Nat)
  /-- Another token than the needed one, or none. -/
  | expected (wanted : String) (found : Option String)
  /-- A token that cannot stand in an expression. -/
  | inExpression (token : String)
  /-- A token that cannot stand where a statement is run. -/
  | notAStatement (token : String)
  /-- A constant without a value. -/
  | constantEmpty (name : String)
  /-- An array declared without a size and given something else. -/
  | openInitialiser (name : String)
  /-- An array declared with a size and given something else. -/
  | sizedInitialiser (name : String)
  /-- A negative number of cells. -/
  | arraySize (size : Int64)
  /-- A step in an enumeration. -/
  | enumStep
  /-- An assignment to an open subscript. -/
  | openAssignment (name : String)
  /-- A subscript on a variable that holds no array or map. -/
  | notContainer (name : String)
  /-- A resize without a size. -/
  | resizeWithoutSize (name : String)
  /-- A token that cannot follow a value. -/
  | afterValue (token : String)
  /-- No tokens where a value is needed. -/
  | valueMissing
  /-- A line that ends where a value is needed. -/
  | valueAtLineEnd
  /-- Hexadecimal digits that are none. -/
  | binaryDigits (digits : String)
  /-- A token between the elements of an array. -/
  | inArray (token : String)
  /-- An array that is never closed. -/
  | arrayOpen
  /-- A subscript on a value that is no handle. -/
  | notIndexable (type : String)
  /-- A variable that was never written. -/
  | variableUnknown (name : String)
  /-- An operator that joins no values. -/
  | operatorUnknown (operator : String)
  /-- A quotient with a divisor of zero. -/
  | divisionByZero
  /-- A block whose closing keyword is missing. -/
  | closerMissing (opener closer : String)
  /-- A token between a selection and its first case. -/
  | beforeCase (token : String)
  /-- A token that cannot stand in a case. -/
  | inCase (token : String)
  /-- A token after the keyword that opens a selection by conditions. -/
  | afterSelect (token : String)
  /-- A loop number that the program does not hold. -/
  | loopUnknown (id : Nat)
  /-- A call number that the program does not hold. -/
  | callUnknown (id : Nat)
  /-- A loop through something that is no collection. -/
  | notCollection (type : String)
  /-- More arguments than parameters. -/
  | tooManyArguments (name : String) (given greatest : Nat)
  /-- Fewer arguments than required parameters. -/
  | tooFewArguments (name : String) (given required : Nat)
  /-- A required parameter that was asked to take its default. -/
  | noDefault (function parameter : String)
  /-- A function that does not exist. -/
  | functionUnknown (name : String)
  /-- A macro that does not exist. -/
  | macroUnknown (name : String)
  /-- A text to be replaced that cannot be looked for. -/
  | replacement (reason : String)
  /-- A class and wording given by the host. -/
  | stated (kind : Option FaultKind) (text : String)
deriving Repr, DecidableEq

namespace RunCause

/-- The class of a cause, where it has one. -/
def kind : RunCause → Option FaultKind
  | scriptUnreadable .. => some .ioError
  | flowOutside _ | loopLevel .. | includeLeft _ | callDepth _ | loopUnknown _ | callUnknown _ |
    replacement _ => none
  | bareName _ | illegalToken _ | noStatement _ | lineEndExpected _ | expected .. |
    inExpression _ | notAStatement _ | enumStep | openAssignment _ | resizeWithoutSize _ |
    afterValue _ | valueMissing | valueAtLineEnd | binaryDigits _ | inArray _ | arrayOpen |
    operatorUnknown _ | closerMissing .. | beforeCase _ | inCase _ | afterSelect _ =>
    some .syntaxError
  | constantWrite _ | constantEmpty _ => some .constError
  | keyMissing _ => some .keyError
  | outOfBounds .. | arraySize _ => some .indexError
  | notLive .. | openInitialiser _ | sizedInitialiser _ | notContainer _ | notIndexable _ |
    divisionByZero | notCollection _ => some .typeError
  | variableUnknown _ | functionUnknown _ | macroUnknown _ => some .nameError
  | tooManyArguments .. | tooFewArguments .. | noDefault .. => some .arityError
  | stated kind _ => kind

/-- The report of a cause. -/
def message : RunCause → String
  | scriptUnreadable path reason => "cannot read script " ++ path ++ ": " ++ reason
  | flowOutside flow => flow ++ " used outside of a loop or Switch"
  | loopLevel keyword level => "invalid " ++ keyword ++ " level " ++ toString level.toInt
  | bareName name => "call to " ++ name ++ " requires a parameter block"
  | illegalToken token => "illegal token '" ++ token ++ "'"
  | noStatement token => "unexpected " ++ token
  | includeLeft flag => "#" ++ flag ++ " reached at runtime (did preprocessing fail?)"
  | callDepth name => "recursion level exceeded calling " ++ name
  | lineEndExpected token => "expected end of line, instead found " ++ token
  | constantWrite name => "cannot assign to constant $" ++ name
  | keyMissing key => "map key \"" ++ key ++ "\" not found"
  | notLive handle kind => "handle 0x" ++ Text.Hex.ofNat 8 handle ++ " is not a live " ++ kind
  | outOfBounds index size =>
    "array index " ++ toString index.toInt ++ " out of bounds (size " ++ toString size ++ ")"
  | expected wanted found =>
    "expected " ++ wanted ++ ", found " ++ found.getD "end of expression"
  | inExpression token => "unexpected " ++ token ++ " in expression"
  | notAStatement token => "illegal " ++ token ++ " when not expecting value"
  | constantEmpty name => "Const $" ++ name ++ " requires an initial value"
  | openInitialiser name => "$" ++ name ++ "[] can only be initialised with an array literal"
  | sizedInitialiser name => "$" ++ name ++ " must be initialised with an array literal"
  | arraySize size => "invalid array size " ++ toString size.toInt
  | enumStep => "Enum Step is not supported"
  | openAssignment name => "cannot assign to $" ++ name ++ "[]"
  | notContainer name => "$" ++ name ++ " is not an array or map"
  | resizeWithoutSize name => "ReDim $" ++ name ++ " needs a size"
  | afterValue token => "unexpected " ++ token ++ " following value"
  | valueMissing => "expected value, found end of expression"
  | valueAtLineEnd => "expected value, found end of line"
  | binaryDigits digits => "malformed binary literal 0x" ++ digits
  | inArray token => "unexpected " ++ token ++ " in array literal"
  | arrayOpen => "unterminated array literal"
  | notIndexable type => "value of type " ++ type ++ " cannot be indexed"
  | variableUnknown name => "undeclared variable $" ++ name
  | operatorUnknown operator => "unexpected operator " ++ operator ++ " in expression"
  | divisionByZero => "division by zero"
  | closerMissing opener closer => opener ++ " without matching " ++ closer
  | beforeCase token => "unexpected " ++ token ++ " before first Case"
  | inCase token => "unexpected " ++ token ++ " in Case"
  | afterSelect token => "unexpected " ++ token ++ " after Select"
  | loopUnknown id => "unknown loop descriptor " ++ toString id
  | callUnknown id => "unknown call site " ++ toString id
  | notCollection type => "For...In needs an array or map, got " ++ type
  | tooManyArguments name given greatest =>
    name ++ " called with too many arguments (" ++ toString given ++ " given, at most " ++
      toString greatest ++ ")"
  | tooFewArguments name given required =>
    name ++ " called with too few arguments (" ++ toString given ++ " given, " ++
      toString required ++ " required)"
  | noDefault function parameter =>
    "parameter " ++ parameter ++ " of " ++ function ++ " has no default value"
  | functionUnknown name => "undefined function " ++ name
  | macroUnknown name => "unknown macro @" ++ name
  | replacement reason => "StringReplace: " ++ reason
  | stated _ text => text

end RunCause

end LineScript
