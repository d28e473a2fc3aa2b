import LineScript.Text.Case
import LineScript.Text.Category
import LineScript.Text.Property
import LineScript.Text.Script

/-!
# Classes of characters

What one place of a pattern may match: ranges of code points, named classes and their combinations.
A class is kept as it was built, and `CharClass.contains` says what it means.
-/

namespace LineScript.Regex

open Text

/-- How far a letter's other case forms reach. -/
inductive Folding where
  /-- To the letters of the whole character set. -/
  | full
  /-- To the 26 letters of the basic range only. -/
  | basic
deriving Repr, DecidableEq

/-- Classes with a rule of their own. -/
inductive NamedClass where
  /-- Decimal digits. -/
  | digit
  /-- Letters, marks, digits and connectors, as words are made of. -/
  | word
  /-- Blanks. -/
  | blank
  /-- Letters and letter-like signs. -/
  | alphabetic
  /-- Small letters. -/
  | lowercase
  /-- Capitals. -/
  | uppercase
  /-- Characters that take part in case. -/
  | cased
  /-- Characters that case rules look through. -/
  | caseIgnorable
  /-- Characters whose general category is one of these. -/
  | categories (names : List String)
  /-- Characters of a script, by a name of it in small letters. -/
  | script (name : String)
deriving Repr, DecidableEq

namespace NamedClass

/-- A word is made of letters, marks, digits, connectors and the two joining controls. -/
def isWord (c : Char) : Bool :=
  if c.toNat < 128 then c.isAlphanum || c == '_'
  else
    isAlphabetic c || ["Mn", "Mc", "Me", "Nd", "Pc"].contains (category c) ||
      c.toNat == 0x200C || c.toNat == 0x200D

/-- A character belongs to a named class. -/
def contains (name : NamedClass) (c : Char) : Bool :=
  match name with
  | digit => isDecimalDigit c
  | word => isWord c
  | blank => isBlank c
  | alphabetic => isAlphabetic c
  | lowercase => lowercaseSet.contains c.toNat
  | uppercase => uppercaseSet.contains c.toNat
  | cased => isCased c
  | caseIgnorable => isCaseIgnorable c
  | categories names => names.contains (category c)
  | script name =>
    match script? name with
    | some set => set.contains c.toNat
    | none => false

end NamedClass

/-- A class of characters. -/
inductive CharClass where
  /-- The code points from a first to a last one. -/
  | range (first last : Nat)
  /-- A named class. -/
  | named (name : NamedClass)
  /-- What either of two classes holds. -/
  | union (left right : CharClass)
  /-- What both classes hold. -/
  | both (left right : CharClass)
  /-- What the first class holds and the second does not. -/
  | without (left right : CharClass)
  /-- What exactly one of two classes holds. -/
  | either (left right : CharClass)
  /-- What a class does not hold. -/
  | complement (inner : CharClass)
  /-- What has a case form in a class. -/
  | folded (reach : Folding) (inner : CharClass)
deriving Repr, DecidableEq

namespace CharClass

/-- No character. -/
def none : CharClass := range 1 0

/-- Every character. -/
def any : CharClass := range 0 0x10FFFF

/-- One character. -/
def single (c : Char) : CharClass := range c.toNat c.toNat

/-- What one of several classes holds. -/
def unions (classes : List CharClass) : CharClass := classes.foldl union none

/-- A class, or its complement. -/
def complementIf (negated : Bool) (inner : CharClass) : CharClass :=
  if negated then complement inner else inner

/-- The case forms of a character. -/
def variants : Folding → Char → List Char
  | .full, c => caseVariants c
  | .basic, c => [c, c.toLower, c.toUpper]

/-- A character belongs to a class. -/
def contains : CharClass → Char → Bool
  | range first last, c => first ≤ c.toNat && c.toNat ≤ last
  | named name, c => name.contains c
  | union left right, c => left.contains c || right.contains c
  | both left right, c => left.contains c && right.contains c
  | without left right, c => left.contains c && !right.contains c
  | either left right, c => left.contains c != right.contains c
  | complement inner, c => !inner.contains c
  | folded reach inner, c => (variants reach c).any inner.contains

/-- A class over single bytes holds none that is part of a longer character. -/
def isBasic (class' : CharClass) : Bool :=
  (List.range 128).all fun code => !class'.contains (Char.ofNat (code + 128))

end CharClass

/-- The classes of the basic range that are named between brackets and colons. -/
def basicClass? (name : String) : Option CharClass :=
  let of (ranges : List (Char × Char)) : CharClass :=
    .unions (ranges.map fun (first, last) => .range first.toNat last.toNat)
  let lower := ('a', 'z')
  let upper := ('A', 'Z')
  let digit := ('0', '9')
  match name with
  | "alnum" => some (of [digit, upper, lower])
  | "alpha" => some (of [upper, lower])
  | "ascii" => some (.range 0 0x7F)
  | "blank" => some (of [('\t', '\t'), (' ', ' ')])
  | "cntrl" => some (.union (.range 0 0x1F) (.range 0x7F 0x7F))
  | "digit" => some (of [digit])
  | "graph" => some (of [('!', '~')])
  | "lower" => some (of [lower])
  | "print" => some (of [(' ', '~')])
  | "punct" => some (of [('!', '/'), (':', '@'), ('[', Char.ofNat 0x60), ('\x7b', '~')])
  | "space" => some (.union (.range 9 13) (.range 32 32))
  | "upper" => some (of [upper])
  | "word" => some (of [digit, upper, lower, ('_', '_')])
  | "xdigit" => some (of [digit, ('A', 'F'), ('a', 'f')])
  | _ => none

/-- The general categories, each group of them under its names in small letters. -/
def categoryNames : List (List String × List String) :=
  [(["l", "letter"], ["Lu", "Ll", "Lt", "Lm", "Lo"]),
    (["lc", "casedletter"], ["Lu", "Ll", "Lt"]),
    (["lu", "uppercaseletter"], ["Lu"]),
    (["ll", "lowercaseletter"], ["Ll"]),
    (["lt", "titlecaseletter"], ["Lt"]),
    (["lm", "modifierletter"], ["Lm"]),
    (["lo", "otherletter"], ["Lo"]),
    (["m", "mark", "combiningmark"], ["Mn", "Mc", "Me"]),
    (["mn", "nonspacingmark"], ["Mn"]),
    (["mc", "spacingmark"], ["Mc"]),
    (["me", "enclosingmark"], ["Me"]),
    (["n", "number"], ["Nd", "Nl", "No"]),
    (["nd", "decimalnumber", "digit"], ["Nd"]),
    (["nl", "letternumber"], ["Nl"]),
    (["no", "othernumber"], ["No"]),
    (["p", "punctuation", "punct"], ["Pc", "Pd", "Ps", "Pe", "Pi", "Pf", "Po"]),
    (["pc", "connectorpunctuation"], ["Pc"]),
    (["pd", "dashpunctuation"], ["Pd"]),
    (["ps", "openpunctuation"], ["Ps"]),
    (["pe", "closepunctuation"], ["Pe"]),
    (["pi", "initialpunctuation"], ["Pi"]),
    (["pf", "finalpunctuation"], ["Pf"]),
    (["po", "otherpunctuation"], ["Po"]),
    (["s", "symbol"], ["Sm", "Sc", "Sk", "So"]),
    (["sm", "mathsymbol"], ["Sm"]),
    (["sc", "currencysymbol"], ["Sc"]),
    (["sk", "modifiersymbol"], ["Sk"]),
    (["so", "othersymbol"], ["So"]),
    (["z", "separator"], ["Zs", "Zl", "Zp"]),
    (["zs", "spaceseparator"], ["Zs"]),
    (["zl", "lineseparator"], ["Zl"]),
    (["zp", "paragraphseparator"], ["Zp"]),
    (["c", "other"], ["Cc", "Cf", "Cs", "Co", "Cn"]),
    (["cc", "control", "cntrl"], ["Cc"]),
    (["cf", "format"], ["Cf"]),
    (["cs", "surrogate"], ["Cs"]),
    (["co", "privateuse"], ["Co"]),
    (["cn", "unassigned"], ["Cn"])]

/-- The class of a general category, or of one of the three classes that count as such. -/
def categoryClass? (name : String) : Option CharClass :=
  match name with
  | "any" => some .any
  | "assigned" => some (.complement (.named (.categories ["Cn"])))
  | "ascii" => some (.range 0 0x7F)
  | _ =>
    (categoryNames.find? fun entry => entry.1.contains name).map fun entry =>
      .named (.categories entry.2)

/-- The class of a script. -/
def scriptClass? (name : String) : Option CharClass :=
  (script? name).map fun _ => .named (.script name)

/-- The class of a property that a character has or has not. -/
def propertyClass? (name : String) : Option CharClass :=
  match name with
  | "alphabetic" | "alpha" => some (.named .alphabetic)
  | "lowercase" | "lower" => some (.named .lowercase)
  | "uppercase" | "upper" => some (.named .uppercase)
  | "whitespace" | "wspace" | "space" => some (.named .blank)
  | "cased" => some (.named .cased)
  | "caseignorable" | "ci" => some (.named .caseIgnorable)
  | "asciihexdigit" | "ahex" => basicClass? "xdigit"
  | "joincontrol" | "joinc" => some (.range 0x200C 0x200D)
  | _ => Option.none

/-- The plain form of a name: small letters, without blanks, dashes and a leading `is`. -/
def plainName (name : String) : String :=
  let chars := name.toList.map Char.toLower
  let rest := match chars with
    | 'i' :: 's' :: after => after
    | other => other
  let plain := rest.filter fun c => c.toNat < 128 && c != ' ' && c != '_' && c != '-'
  if plain = ['c'] ∧ chars.take 2 = ['i', 's'] then "isc" else String.ofList plain

/-- The class of a name: a property, a general category or a script. -/
def nameClass? (name : String) : Option CharClass :=
  let plain := plainName name
  (propertyClass? plain).or ((categoryClass? plain).or (scriptClass? plain))

/-- The class of a value of a property. -/
def valueClass? (property value : String) : Option CharClass :=
  match plainName property with
  | "gc" | "generalcategory" => categoryClass? (plainName value)
  | "sc" | "script" | "scx" | "scriptextensions" => scriptClass? (plainName value)
  | _ => Option.none

end LineScript.Regex
