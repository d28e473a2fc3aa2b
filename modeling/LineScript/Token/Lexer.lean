import LineScript.Fault.Report
import LineScript.Text.Case
import LineScript.Token.Keyword

/-!
# Reading a source as tokens

A source is read in one pass, one token at a time. `scan` reads one token from its first
character and the characters after it and returns the characters it took and those it left; their
concatenation is what it was given (`scan_taken_append_rest`), so the tokens and the blanks between
them tile the source. `lexChars` repeats it, moving the place in the source past each span.
-/

namespace LineScript

open Text

/-- Characters of names. -/
def isNameChar (c : Char) : Bool := isAlphanumeric c || c == '_'

/-- Characters of flags. -/
def isFlagChar (c : Char) : Bool := isNameChar c || c == '-'

namespace Lexer

/-- Line ends become line feeds and tabs become blanks before a source is read. -/
def normalize : List Char → List Char
  | [] => []
  | '\r' :: '\n' :: rest => '\n' :: normalize rest
  | '\r' :: rest => '\n' :: normalize rest
  | '\t' :: rest => ' ' :: normalize rest
  | c :: rest => c :: normalize rest

/-- A place in a source: line and column, both counted from one. -/
structure Place where
  /-- The line. -/
  line : Nat
  /-- The column. -/
  col : Nat
deriving Repr, DecidableEq

/-- The place after one character. -/
def Place.next (place : Place) (c : Char) : Place :=
  if c = '\n' then ⟨place.line + 1, 1⟩ else ⟨place.line, place.col + 1⟩

/-- The place after some characters. -/
def Place.after (place : Place) (chars : List Char) : Place := chars.foldl Place.next place

/-- A token's kind and text, the characters after its first one that belong to it, and those that
do not. -/
structure Scanned where
  /-- What the token is. -/
  kind : TokenKind
  /-- Its text. -/
  lexeme : String
  /-- The characters after the first that belong to it. -/
  taken : List Char
  /-- The characters after it. -/
  rest : List Char

/-- A quoted text up to its closing quote: its content, the characters read, and those after. A
backslash in front of the quote makes it part of the text; without a closing quote the text runs
to the end of the source. -/
def readString (quote : Char) : List Char → List Char × List Char × List Char
  | [] => ([], [], [])
  | c :: rest =>
    match rest with
    | d :: tail =>
      if c = '\\' ∧ d = quote then
        let (value, taken, after) := readString quote tail
        (quote :: value, c :: d :: taken, after)
      else if c = quote then ([], [c], rest)
      else
        let (value, taken, after) := readString quote (d :: tail)
        (c :: value, c :: taken, after)
    | [] => if c = quote then ([], [c], []) else ([c], [c], [])

/-- The flags that close a comment block. -/
def closesComment (chars : List Char) : Bool :=
  ["ce", "comments-end"].contains (lower (String.ofList (chars.takeWhile isFlagChar)))

/-- The flags that open a comment block. -/
def opensComment (flag : List Char) : Bool :=
  ["cs", "comments-start"].contains (lower (String.ofList flag))

/-- A comment block up to its closing flag: its content, the characters read, and those after. -/
def readComment? : List Char → Option (List Char × List Char × List Char)
  | [] => none
  | c :: rest =>
    if c = '#' ∧ closesComment rest then
      some ([], c :: rest.takeWhile isFlagChar, rest.dropWhile isFlagChar)
    else
      match readComment? rest with
      | some (text, taken, after) => some (c :: text, c :: taken, after)
      | none => none

/-- A token whose text is the longest run of accepted characters after its first one. -/
def scanRun (kind : TokenKind) (accept : Char → Bool) (rest : List Char) : Scanned :=
  ⟨kind, String.ofList (rest.takeWhile accept), rest.takeWhile accept, rest.dropWhile accept⟩

/-- A token of its first character alone. -/
def scanSingle (kind : TokenKind) (first : Char) (rest : List Char) : Scanned :=
  ⟨kind, String.singleton first, [], rest⟩

/-- An operator: one sign, with an equals sign after it if there is one, or both angles. -/
def scanOperator (first : Char) (rest : List Char) : Scanned :=
  match rest with
  | second :: tail =>
    if second = '=' ∨ (first = '<' ∧ second = '>') then
      ⟨.operator, String.ofList [first, second], [second], tail⟩
    else scanSingle .operator first rest
  | [] => scanSingle .operator first rest

/-- The fraction of a numeral, if a point with a digit after it follows: its digits and what is
left. -/
def readFraction? : List Char → Option (List Char × List Char)
  | '.' :: digit :: rest =>
    if digit.isDigit then
      some ((digit :: rest).takeWhile Char.isDigit, (digit :: rest).dropWhile Char.isDigit)
    else none
  | _ => none

/-- A numeral: digits, and perhaps a fraction. -/
def scanNumber (first : Char) (rest : List Char) : Scanned :=
  let whole := rest.takeWhile Char.isDigit
  match readFraction? (rest.dropWhile Char.isDigit) with
  | some (fraction, after) =>
    let taken := whole ++ '.' :: fraction
    ⟨.double, String.ofList (first :: taken), taken, after⟩
  | none => ⟨.number, String.ofList (first :: whole), whole, rest.dropWhile Char.isDigit⟩

/-- A numeral, or the digits of a binary literal after their mark. -/
def scanDigits (first : Char) (rest : List Char) : Scanned :=
  match rest with
  | mark :: tail =>
    if first = '0' ∧ (mark = 'x' ∨ mark = 'X') then
      let digits := tail.takeWhile Hex.isDigit
      ⟨.binary, String.ofList digits, mark :: digits, tail.dropWhile Hex.isDigit⟩
    else scanNumber first rest
  | [] => scanNumber first rest

/-- A name or a reserved word. -/
def scanName (first : Char) (rest : List Char) : Scanned :=
  let taken := rest.takeWhile isNameChar
  let name := String.ofList (first :: taken)
  let word := (keyword? (lower name)).getD ⟨.identifier, none⟩
  ⟨word.kind, word.spelling.getD name, taken, rest.dropWhile isNameChar⟩

/-- A flag or a comment block. -/
def scanFlag (line : Nat) (rest : List Char) : Except LexCause Scanned :=
  let flag := rest.takeWhile isFlagChar
  if opensComment flag then
    match readComment? (rest.dropWhile isFlagChar) with
    | some (text, taken, after) => .ok ⟨.comment, String.ofList text, flag ++ taken, after⟩
    | none => .error (.openComment line)
  else .ok (scanRun .flag isFlagChar rest)

/-- A name after a mark, which must not be empty. -/
def scanMarked (kind : TokenKind) (missing : LexCause) (rest : List Char) :
    Except LexCause Scanned :=
  if rest.takeWhile isNameChar = [] then .error missing else .ok (scanRun kind isNameChar rest)

/-- The signs that begin an operator. -/
def isOperatorSign (c : Char) : Bool := ['=', '&', '+', '-', '*', '/', '<', '>'].contains c

/-- The next character, if there is one, belongs to a name. -/
def nameFollows (rest : List Char) : Bool :=
  match rest with
  | c :: _ => isNameChar c
  | [] => false

/-- Reads one token that begins with `first`, at this line. -/
def scan (line : Nat) (first : Char) (rest : List Char) : Except LexCause Scanned :=
  match first with
  | '\n' => .ok ⟨.eol, "", [], rest⟩
  | '"' | '\'' =>
    let (value, taken, after) := readString first rest
    .ok ⟨.string, String.ofList value, taken, after⟩
  | '#' => scanFlag line rest
  | '@' => scanMarked .macroName .macroName rest
  | ';' => .ok (scanRun .comment (· != '\n') rest)
  | '$' => scanMarked .variableName .variableName rest
  | '(' => .ok (scanSingle .lparen first rest)
  | ')' => .ok (scanSingle .rparen first rest)
  | '[' => .ok (scanSingle .lbracket first rest)
  | ']' => .ok (scanSingle .rbracket first rest)
  | ',' => .ok (scanSingle .separator first rest)
  | _ =>
    if first = '_' ∧ nameFollows rest = false then .ok (scanSingle .extend first rest)
    else if isOperatorSign first then .ok (scanOperator first rest)
    else if first.isDigit then .ok (scanDigits first rest)
    else if isNameChar first then .ok (scanName first rest)
    else .ok (scanSingle .illegal first rest)

/-- What a string takes and what follows it are together the text read. -/
theorem readString_taken_append (quote : Char) (chars : List Char) :
    (readString quote chars).2.1 ++ (readString quote chars).2.2 = chars := by
  fun_induction readString quote chars <;> simp_all

/-- What a comment takes and what follows it are together the text read. -/
theorem readComment?_taken_append {chars text taken after : List Char}
    (read : readComment? chars = some (text, taken, after)) : taken ++ after = chars := by
  induction chars generalizing text taken after with
  | nil => simp [readComment?] at read
  | cons c rest ih =>
    simp only [readComment?] at read
    split at read
    · simp only [Option.some.injEq, Prod.mk.injEq] at read
      obtain ⟨_, rfl, rfl⟩ := read
      simp
    · split at read
      · rename_i inner
        simp only [Option.some.injEq, Prod.mk.injEq] at read
        obtain ⟨_, rfl, rfl⟩ := read
        simp [ih inner]
      · simp at read

/-- A fraction and what follows it are together the text read. -/
theorem readFraction?_taken_append {chars fraction after : List Char}
    (read : readFraction? chars = some (fraction, after)) : '.' :: fraction ++ after = chars := by
  unfold readFraction? at read
  split at read
  · split at read
    · simp only [Option.some.injEq, Prod.mk.injEq] at read
      obtain ⟨rfl, rfl⟩ := read
      simp only [List.cons_append, List.takeWhile_append_dropWhile]
    · simp at read
  · simp at read

/-- What a run takes and what follows it are together the text read. -/
theorem scanRun_taken_append (kind : TokenKind) (accept : Char → Bool) (rest : List Char) :
    (scanRun kind accept rest).taken ++ (scanRun kind accept rest).rest = rest :=
  List.takeWhile_append_dropWhile

/-- What an operator takes and what follows it are together the text read. -/
theorem scanOperator_taken_append (first : Char) (rest : List Char) :
    (scanOperator first rest).taken ++ (scanOperator first rest).rest = rest := by
  unfold scanOperator
  split
  · split <;> simp [scanSingle]
  · simp [scanSingle]

/-- What a number takes and what follows it are together the text read. -/
theorem scanNumber_taken_append (first : Char) (rest : List Char) :
    (scanNumber first rest).taken ++ (scanNumber first rest).rest = rest := by
  simp only [scanNumber]
  split
  · rename_i found
    simp only [List.append_assoc, readFraction?_taken_append found,
      List.takeWhile_append_dropWhile]
  · simp only [List.takeWhile_append_dropWhile]

/-- What the digits take and what follows them are together the text read. -/
theorem scanDigits_taken_append (first : Char) (rest : List Char) :
    (scanDigits first rest).taken ++ (scanDigits first rest).rest = rest := by
  unfold scanDigits
  split
  · split
    · simp
    · exact scanNumber_taken_append _ _
  · exact scanNumber_taken_append _ _

/-- What a flag takes and what follows it are together the text read. -/
theorem scanFlag_taken_append {line : Nat} {rest : List Char} {scanned : Scanned}
    (read : scanFlag line rest = .ok scanned) : scanned.taken ++ scanned.rest = rest := by
  simp only [scanFlag] at read
  split at read
  · split at read
    · rename_i found
      simp only [Except.ok.injEq] at read
      subst read
      simp [readComment?_taken_append found]
    · simp at read
  · simp only [Except.ok.injEq] at read
    subst read
    exact scanRun_taken_append _ _ _

/-- What a marked name takes and what follows it are together the text read. -/
theorem scanMarked_taken_append {kind : TokenKind} {missing : LexCause} {rest : List Char}
    {scanned : Scanned} (read : scanMarked kind missing rest = .ok scanned) :
    scanned.taken ++ scanned.rest = rest := by
  unfold scanMarked at read
  split at read
  · simp at read
  · simp only [Except.ok.injEq] at read
    subst read
    exact scanRun_taken_append _ _ _

/-- After its first character a token takes a beginning of what follows and leaves the rest. -/
theorem scan_taken_append_rest {line : Nat} {first : Char} {rest : List Char} {scanned : Scanned}
    (read : scan line first rest = .ok scanned) : scanned.taken ++ scanned.rest = rest := by
  unfold scan at read
  split at read
  case h_13 =>
    repeat' split at read
    all_goals
      simp only [Except.ok.injEq] at read
      subst read
    · rfl
    · exact scanOperator_taken_append _ _
    · exact scanDigits_taken_append _ _
    · exact List.takeWhile_append_dropWhile
    · rfl
  case h_4 => exact scanFlag_taken_append read
  case h_5 => exact scanMarked_taken_append read
  case h_7 => exact scanMarked_taken_append read
  case h_6 =>
    simp only [Except.ok.injEq] at read
    subst read
    exact scanRun_taken_append _ _ _
  all_goals
    simp only [Except.ok.injEq] at read
    subst read
    first
    | rfl
    | exact readString_taken_append _ _

/-- What a token leaves is no longer than what stood after its first character. -/
theorem scan_rest_length_le {line : Nat} {first : Char} {rest : List Char} {scanned : Scanned}
    (read : scan line first rest = .ok scanned) : scanned.rest.length ≤ rest.length := by
  have total := congrArg List.length (scan_taken_append_rest read)
  simp only [List.length_append] at total
  omega

end Lexer

/-- What reading a source gives: its tokens, up to the fault that stopped it if there was one. -/
structure Lexed where
  /-- The tokens read. -/
  tokens : List Token
  /-- The fault that stopped the reading. -/
  fault : Option Fault
deriving Repr, DecidableEq

namespace Lexer

/-- Reads the tokens of characters that start at a place; blanks between tokens are skipped. -/
def lexChars (place : Place) : List Char → Lexed
  | [] => ⟨[], none⟩
  | first :: rest =>
    if first = ' ' then lexChars (place.next first) rest
    else
      match _read : scan place.line first rest with
      | .error cause => ⟨[], some (.lexing cause place.line)⟩
      | .ok scanned =>
        let token : Token := ⟨scanned.kind, scanned.lexeme, place.line, place.col⟩
        let later := lexChars ((place.next first).after scanned.taken) scanned.rest
        ⟨token :: later.tokens, later.fault⟩
termination_by chars => chars.length
decreasing_by
  · simp
  · have := scan_rest_length_le ‹_›
    simp only [List.length_cons]
    omega

end Lexer

/-- Reads a source. -/
def lex (source : String) : Lexed :=
  Lexer.lexChars ⟨1, 1⟩ (Lexer.normalize source.toList)

/-- The tokens of a source, or the fault that stops its reading. -/
def tokenize (source : String) : Except Fault (List Token) :=
  let lexed := lex source
  match lexed.fault with
  | some fault => .error fault
  | none => .ok lexed.tokens

end LineScript
