import LineScript.Token.Basic

/-!
# Keywords

The reserved words, in small letters. A few are given one spelling whatever the source wrote.
-/

namespace LineScript

/-- A reserved word: its kind, and its one spelling where it has one. -/
structure Keyword where
  /-- What the word is. -/
  kind : TokenKind
  /-- The spelling that replaces the source's. -/
  spelling : Option String := none

/-- The reserved word that a name in small letters is. -/
def keyword? (name : String) : Option Keyword :=
  match name with
  | "if" => some ⟨.kwIf, none⟩
  | "then" => some ⟨.kwThen, none⟩
  | "else" => some ⟨.kwElse, none⟩
  | "elseif" => some ⟨.kwElseIf, none⟩
  | "endif" => some ⟨.kwEndIf, none⟩
  | "for" => some ⟨.kwFor, none⟩
  | "to" => some ⟨.kwTo, none⟩
  | "step" => some ⟨.kwStep, none⟩
  | "in" => some ⟨.kwIn, none⟩
  | "next" => some ⟨.kwNext, none⟩
  | "while" => some ⟨.kwWhile, none⟩
  | "wend" => some ⟨.kwWEnd, none⟩
  | "with" => some ⟨.kwWith, none⟩
  | "endwith" => some ⟨.kwEndWith, none⟩
  | "do" => some ⟨.kwDo, none⟩
  | "until" => some ⟨.kwUntil, none⟩
  | "switch" => some ⟨.kwSwitch, none⟩
  | "endswitch" => some ⟨.kwEndSwitch, none⟩
  | "select" => some ⟨.kwSelect, none⟩
  | "endselect" => some ⟨.kwEndSelect, none⟩
  | "case" => some ⟨.kwCase, none⟩
  | "continuecase" => some ⟨.kwContinueCase, none⟩
  | "continueloop" => some ⟨.kwContinueLoop, none⟩
  | "exitloop" => some ⟨.kwExitLoop, none⟩
  | "dim" => some ⟨.kwScope, some "Local"⟩
  | "local" => some ⟨.kwScope, some "Local"⟩
  | "global" => some ⟨.kwScope, some "Global"⟩
  | "const" => some ⟨.kwScope, some "Const"⟩
  | "static" => some ⟨.kwScope, some "Static"⟩
  | "redim" => some ⟨.kwReDim, none⟩
  | "enum" => some ⟨.kwEnum, none⟩
  | "volatile" => some ⟨.kwVolatile, none⟩
  | "func" => some ⟨.kwFunc, none⟩
  | "return" => some ⟨.kwReturn, none⟩
  | "endfunc" => some ⟨.kwEndFunc, none⟩
  | "exit" => some ⟨.kwExit, none⟩
  | "null" => some ⟨.kwNull, none⟩
  | "default" => some ⟨.kwDefault, none⟩
  | "true" => some ⟨.boolean, some "True"⟩
  | "false" => some ⟨.boolean, some "False"⟩
  | "and" => some ⟨.kwAnd, none⟩
  | "or" => some ⟨.kwOr, none⟩
  | "not" => some ⟨.kwNot, none⟩
  | _ => none

/-- The names, in small letters, that are reserved. -/
def reservedNames : List String :=
  ["if", "then", "else", "elseif", "endif", "for", "to", "step", "in", "next", "while", "wend", "with",
    "endwith", "do", "until", "switch", "endswitch", "select", "endselect", "case", "continuecase",
    "continueloop", "exitloop", "dim", "local", "global", "const", "static", "redim", "enum",
    "volatile", "func", "return", "endfunc", "exit", "null", "default", "true", "false", "and", "or",
    "not"]

/-- The reserved words. -/
def reservedWords : List Keyword := reservedNames.filterMap keyword?

/-- What holds of each reserved word can be checked of the list of them. -/
theorem mem_reservedWords {name : String} {word : Keyword} (found : keyword? name = some word) :
    word ∈ reservedWords := by
  refine List.mem_filterMap.mpr ⟨name, ?_, found⟩
  unfold keyword? at found
  split at found
  case h_44 => cases found
  all_goals decide

end LineScript
