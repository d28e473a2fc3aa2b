import LineScript.Token.Lexer
import Mathlib.Data.List.TakeWhile

/-!
# How tokens are written

A line end is written as a line feed, a name behind its mark, a text between quotes with a backslash in
front of each quote of their kind, a comment behind a semicolon or between two flags, and everything else
as it is. What a token takes from a source is its written form (`scan_written`); so line feeds stand in
line ends, texts and comments only.
-/

namespace LineScript.Lexer

/-! ## Quoted texts -/

/-- A text as it stands between quotes of a kind: with a backslash in front of each of them. -/
def escape (quote : Char) (text : List Char) : List Char :=
  text.flatMap fun c => if c = quote then ['\\', c] else [c]

/-- The reading of a quoted text comes to its closing quote before the source ends. -/
def closes (quote : Char) : List Char → Bool
  | [] => false
  | c :: rest =>
    match rest with
    | d :: tail =>
      if c = '\\' ∧ d = quote then closes quote tail
      else if c = quote then true
      else closes quote (d :: tail)
    | [] => c = quote

/-- The last character is a backslash. -/
def endsInBackslash (text : List Char) : Prop := text.getLast? = some '\\'

instance (text : List Char) : Decidable (endsInBackslash text) :=
  inferInstanceAs (Decidable (text.getLast? = some '\\'))

/-- A quote is no backslash. -/
theorem slash_of_isQuote {quote : Char} (isQuote : quote = '"' ∨ quote = '\'') : quote ≠ '\\' := by
  rcases isQuote with rfl | rfl <;> decide

section Quoted

variable {quote : Char}

/-- A text that ends in a backslash does so behind another character. -/
theorem endsInBackslash_cons {c : Char} {text : List Char} (ends : endsInBackslash text) :
    endsInBackslash (c :: text) := by
  cases text with
  | nil => cases ends
  | cons d text => rwa [endsInBackslash, List.getLast?_cons_cons]

/-- The escape of the empty text is empty. -/
@[simp] theorem escape_nil : escape quote [] = [] := rfl

/-- A quote is escaped by a backslash. -/
@[simp] theorem escape_quote (text : List Char) :
    escape quote (quote :: text) = '\\' :: quote :: escape quote text := by
  simp [escape]

/-- Any other character is not escaped. -/
theorem escape_cons {c : Char} (plain : c ≠ quote) (text : List Char) :
    escape quote (c :: text) = c :: escape quote text := by
  simp [escape, plain]

/-- An escaped quote is read as a quote of the text. -/
theorem readString_escaped (chars : List Char) :
    readString quote ('\\' :: quote :: chars) =
      (quote :: (readString quote chars).1, '\\' :: quote :: (readString quote chars).2.1,
        (readString quote chars).2.2) := by
  rw [readString, if_pos ⟨rfl, rfl⟩]

/-- An escaped quote does not close the text. -/
theorem closes_escaped (chars : List Char) :
    closes quote ('\\' :: quote :: chars) = closes quote chars := by
  rw [closes, if_pos ⟨rfl, rfl⟩]

/-- A quote that is not escaped ends the text. -/
theorem readString_quote (slash : quote ≠ '\\') (chars : List Char) :
    readString quote (quote :: chars) = ([], [quote], chars) := by
  cases chars <;> simp [readString, slash]

/-- A quote that is not escaped closes the text. -/
theorem closes_quote (slash : quote ≠ '\\') (chars : List Char) :
    closes quote (quote :: chars) = true := by
  cases chars <;> simp [closes, slash]

/-- A character that is no quote and escapes none is one of the text. -/
theorem readString_plain {c : Char} {chars : List Char} (plain : c ≠ quote)
    (apart : c = '\\' → chars.head? ≠ some quote) :
    readString quote (c :: chars) =
      (c :: (readString quote chars).1, c :: (readString quote chars).2.1,
        (readString quote chars).2.2) := by
  cases chars with
  | nil => simp [readString, plain]
  | cons d tail =>
    have notEscaped : ¬ (c = '\\' ∧ d = quote) := fun escapes =>
      apart escapes.1 (congrArg some escapes.2)
    rw [readString, if_neg notEscaped, if_neg plain]

/-- A plain character does not close the text. -/
theorem closes_plain {c : Char} {chars : List Char} (plain : c ≠ quote)
    (apart : c = '\\' → chars.head? ≠ some quote) :
    closes quote (c :: chars) = closes quote chars := by
  cases chars with
  | nil => simp [closes, plain]
  | cons d tail =>
    have notEscaped : ¬ (c = '\\' ∧ d = quote) := fun escapes =>
      apart escapes.1 (congrArg some escapes.2)
    rw [closes, if_neg notEscaped, if_neg plain]

/-- An escaped text does not begin with a quote. -/
theorem head?_escape (slash : quote ≠ '\\') (text : List Char) :
    (escape quote text).head? ≠ some quote := by
  cases text with
  | nil => nofun
  | cons c text =>
    by_cases plain : c = quote
    · subst plain
      rw [escape_quote]
      exact fun same => slash (Option.some.inj same).symm
    · rw [escape_cons plain]
      exact fun same => plain (Option.some.inj same)

/-- A text between quotes is read back, and the reading stops behind the closing one. -/
theorem readString_closed (slash : quote ≠ '\\') {text : List Char}
    (allowed : ¬ endsInBackslash text) (after : List Char) :
    closes quote (escape quote text ++ quote :: after) = true ∧
      readString quote (escape quote text ++ quote :: after) =
        (text, escape quote text ++ [quote], after) := by
  induction text with
  | nil => exact ⟨closes_quote slash after, readString_quote slash after⟩
  | cons c text ih =>
    obtain ⟨closed, read⟩ := ih fun ends => allowed (endsInBackslash_cons ends)
    by_cases plain : c = quote
    · subst plain
      rw [escape_quote]
      simp only [List.cons_append, closes_escaped, readString_escaped, closed, read, and_self]
    · -- a backslash is not the last character, so an escaped text follows it and no quote does
      have apart : c = '\\' → (escape quote text ++ quote :: after).head? ≠ some quote := by
        rintro rfl
        have more : escape quote text ≠ [] := by
          cases text with
          | nil => exact absurd rfl allowed
          | cons d text => simp [escape]; split <;> simp
        rw [List.head?_append, Option.or_of_isSome (List.isSome_head?.mpr more)]
        exact head?_escape slash text
      rw [escape_cons plain]
      simp only [List.cons_append, closes_plain plain apart, readString_plain plain apart, closed,
        read, and_self]

/-- A text without a closing quote is read to the end of the source. -/
theorem readString_open (slash : quote ≠ '\\') (text : List Char) :
    closes quote (escape quote text) = false ∧
      readString quote (escape quote text) = (text, escape quote text, []) := by
  induction text with
  | nil => exact ⟨rfl, rfl⟩
  | cons c text ih =>
    obtain ⟨opened, read⟩ := ih
    by_cases plain : c = quote
    · subst plain
      rw [escape_quote]
      simp only [closes_escaped, readString_escaped, opened, read, and_self]
    · have apart : c = '\\' → (escape quote text).head? ≠ some quote := fun _ =>
        head?_escape slash text
      rw [escape_cons plain]
      simp only [closes_plain plain apart, readString_plain plain apart, opened, read, and_self]

/-- What follows an opening quote is a text and its closing quote, or a text and no more. -/
inductive Inside (quote : Char) : List Char → Prop
  /-- A closing quote follows the text. -/
  | closed {text : List Char} (allowed : ¬ endsInBackslash text) (after : List Char) :
    Inside quote (escape quote text ++ quote :: after)
  /-- The source ends with the text. -/
  | opened (text : List Char) : Inside quote (escape quote text)

namespace Inside

variable {c : Char} {chars : List Char}

/-- An escaped quote may stand inside. -/
theorem escaped (rest : Inside quote chars) (slash : quote ≠ '\\') :
    Inside quote ('\\' :: quote :: chars) := by
  cases rest with
  | @closed text allowed after =>
    have kept : ¬ endsInBackslash (quote :: text) := by
      cases text with
      | nil => exact fun ends => slash (Option.some.inj ends)
      | cons d text => rwa [endsInBackslash, List.getLast?_cons_cons]
    have written : Inside quote _ := closed kept after
    rwa [escape_quote, List.cons_append, List.cons_append] at written
  | opened text =>
    rw [← escape_quote]
    exact .opened (quote :: text)

/-- A plain character may stand inside. -/
theorem plain (rest : Inside quote chars) (notQuote : c ≠ quote)
    (apart : c = '\\' → chars.head? ≠ some quote) : Inside quote (c :: chars) := by
  cases rest with
  | @closed text allowed after =>
    have kept : ¬ endsInBackslash (c :: text) := by
      cases text with
      | nil => exact fun ends => apart (Option.some.inj ends) rfl
      | cons d text => rwa [endsInBackslash, List.getLast?_cons_cons]
    have written : Inside quote _ := closed kept after
    rwa [escape_cons notQuote, List.cons_append] at written
  | opened text =>
    rw [← escape_cons notQuote]
    exact .opened (c :: text)

end Inside

/-- There is no third possibility. -/
theorem inside (slash : quote ≠ '\\') (chars : List Char) : Inside quote chars := by
  fun_induction closes quote chars with
  | case1 => exact .opened []
  | case2 c d tail escapes rest =>
    obtain ⟨rfl, rfl⟩ := escapes
    exact rest.escaped slash
  | case3 d tail => exact @Inside.closed quote [] nofun (d :: tail)
  | case4 c d tail notEscaped notQuote rest =>
    refine rest.plain notQuote fun isSlash isQuote => notEscaped ⟨isSlash, ?_⟩
    exact Option.some.inj isQuote
  | case5 c =>
    by_cases isQuote : c = quote
    · exact isQuote ▸ @Inside.closed c [] nofun []
    · exact (Inside.opened []).plain isQuote fun _ => nofun

end Quoted

/-! ## Written forms -/

/-- The kinds whose text is what stands in the source. -/
def isVerbatimKind : TokenKind → Bool
  | .illegal | .extend | .number | .double | .lparen | .rparen | .lbracket | .rbracket | .separator
  | .operator => true
  | _ => false

/-- The mark in front of a name. -/
def nameMark? : TokenKind → Option Char
  | .macroName => some '@'
  | .variableName => some '$'
  | .flag => some '#'
  | _ => none

/-- The characters are a way to write a token of a kind and with a text. -/
inductive Written : TokenKind → String → List Char → Prop
  /-- A line end. -/
  | lineEnd : Written .eol "" ['\n']
  /-- A text between quotes. -/
  | closedText {quote : Char} {text : List Char} (isQuote : quote = '"' ∨ quote = '\'')
      (allowed : ¬ endsInBackslash text) :
    Written .string (String.ofList text) (quote :: (escape quote text ++ [quote]))
  /-- A text whose closing quote is missing. -/
  | openText {quote : Char} {text : List Char} (isQuote : quote = '"' ∨ quote = '\'') :
    Written .string (String.ofList text) (quote :: escape quote text)
  /-- A comment up to the end of the line. -/
  | lineComment {text : List Char} (oneLine : '\n' ∉ text) :
    Written .comment (String.ofList text) (';' :: text)
  /-- A comment between flags. -/
  | comment {opener text closer : List Char} (opens : opensComment opener = true)
      (closes : closesComment closer = true) (first : opener.all isFlagChar = true)
      (last : closer.all isFlagChar = true) :
    Written .comment (String.ofList text) ('#' :: (opener ++ (text ++ '#' :: closer)))
  /-- A name behind its mark. -/
  | marked {kind : TokenKind} {mark : Char} {name : List Char} (has : nameMark? kind = some mark)
      (plain : name.all isFlagChar = true) :
    Written kind (String.ofList name) (mark :: name)
  /-- The digits of a binary literal behind their mark. -/
  | binary {mark : Char} {digits : List Char} (isMark : mark = 'x' ∨ mark = 'X')
      (plain : digits.all Text.Hex.isDigit = true) :
    Written .binary (String.ofList digits) ('0' :: mark :: digits)
  /-- A name. -/
  | name {name : List Char} (plain : name.all isNameChar = true)
      (free : keyword? (Text.lower (String.ofList name)) = none) :
    Written .identifier (String.ofList name) name
  /-- A reserved word, which may be given a spelling. -/
  | word {name : List Char} {word : Keyword} (plain : name.all isNameChar = true)
      (reserved : keyword? (Text.lower (String.ofList name)) = some word) :
    Written word.kind (word.spelling.getD (String.ofList name)) name
  /-- Anything else. -/
  | verbatim {kind : TokenKind} {chars : List Char} (isVerbatim : isVerbatimKind kind = true)
      (oneLine : '\n' ∉ chars) :
    Written kind (String.ofList chars) chars

/-- A name character is a flag character. -/
theorem isFlagChar_of_isNameChar {c : Char} (isName : isNameChar c = true) :
    isFlagChar c = true := by
  rw [isFlagChar, isName, Bool.true_or]

/-- A run that stops at line feeds has none. -/
theorem eol_not_mem_of_all {p : Char → Bool} {chars : List Char} (plain : chars.all p = true)
    (stops : p '\n' = false) : '\n' ∉ chars := fun member =>
  Bool.false_ne_true (stops.symm.trans (List.all_eq_true.mp plain _ member))

/-- A line feed in neither part is in no longer text. -/
theorem eol_not_mem_cons {first : Char} {chars : List Char} (notEol : first ≠ '\n')
    (plain : '\n' ∉ chars) : '\n' ∉ first :: chars :=
  List.not_mem_cons_of_ne_of_not_mem notEol.symm plain

/-- A sign that stands for itself. -/
theorem single_written {kind : TokenKind} (first : Char) (rest : List Char)
    (isVerbatim : isVerbatimKind kind = true) (notEol : first ≠ '\n') :
    Written (scanSingle kind first rest).kind (scanSingle kind first rest).lexeme
      (first :: (scanSingle kind first rest).taken) :=
  @Written.verbatim kind [first] isVerbatim (eol_not_mem_cons notEol List.not_mem_nil)

/-- A scanned operator is written as one. -/
theorem operator_written (first : Char) (rest : List Char) (notEol : first ≠ '\n') :
    Written (scanOperator first rest).kind (scanOperator first rest).lexeme
      (first :: (scanOperator first rest).taken) := by
  unfold scanOperator
  split
  · rename_i second tail
    split
    · rename_i both
      have other : second ≠ '\n' := by
        rintro rfl
        simp at both
      exact .verbatim rfl (eol_not_mem_cons notEol (eol_not_mem_cons other List.not_mem_nil))
    · exact single_written first _ rfl notEol
  · exact single_written first _ rfl notEol

/-- The digits of a fraction are digit characters. -/
theorem readFraction?_digits {chars fraction after : List Char}
    (read : readFraction? chars = some (fraction, after)) : fraction.all Char.isDigit = true := by
  unfold readFraction? at read
  split at read
  · split at read
    · cases read
      exact List.all_takeWhile
    · cases read
  · cases read

/-- A scanned number is written as one. -/
theorem number_written (first : Char) (rest : List Char) (notEol : first ≠ '\n') :
    Written (scanNumber first rest).kind (scanNumber first rest).lexeme
      (first :: (scanNumber first rest).taken) := by
  have whole : '\n' ∉ rest.takeWhile Char.isDigit := eol_not_mem_of_all List.all_takeWhile rfl
  simp only [scanNumber]
  split
  · rename_i fraction after found
    have digits := eol_not_mem_of_all (readFraction?_digits found) rfl
    refine .verbatim rfl (eol_not_mem_cons notEol ?_)
    rw [List.mem_append, not_or]
    exact ⟨whole, eol_not_mem_cons (by decide) digits⟩
  · exact .verbatim rfl (eol_not_mem_cons notEol whole)

/-- Scanned digits are written as such. -/
theorem digits_written (first : Char) (rest : List Char) (notEol : first ≠ '\n') :
    Written (scanDigits first rest).kind (scanDigits first rest).lexeme
      (first :: (scanDigits first rest).taken) := by
  unfold scanDigits
  split
  · split
    · rename_i isBinary
      obtain ⟨rfl, isMark⟩ := isBinary
      exact .binary isMark List.all_takeWhile
    · exact number_written first _ notEol
  · exact number_written first _ notEol

/-- A scanned name is written as one. -/
theorem name_written (first : Char) (rest : List Char) (isName : isNameChar first = true) :
    Written (scanName first rest).kind (scanName first rest).lexeme
      (first :: (scanName first rest).taken) := by
  have plain : (first :: rest.takeWhile isNameChar).all isNameChar = true := by
    rw [List.all_cons, isName, List.all_takeWhile, Bool.and_true]
  simp only [scanName]
  cases reserved : keyword? (Text.lower (String.ofList (first :: rest.takeWhile isNameChar))) with
  | none => exact .name plain reserved
  | some word => exact .word plain reserved

/-- A comment block ends with its first closing flag. -/
theorem readComment?_written {chars text taken after : List Char}
    (read : readComment? chars = some (text, taken, after)) :
    ∃ closer, taken = text ++ '#' :: closer ∧ closesComment closer = true ∧
      closer.all isFlagChar = true := by
  induction chars generalizing text taken after with
  | nil => cases read
  | cons c rest ih =>
    rw [readComment?] at read
    split at read
    · rename_i closed
      obtain ⟨rfl, closes⟩ := closed
      cases read
      refine ⟨rest.takeWhile isFlagChar, rfl, ?_, List.all_takeWhile⟩
      rwa [closesComment, List.takeWhile_idem]
    · split at read
      · rename_i inner
        cases read
        obtain ⟨closer, rfl, closes, plain⟩ := ih inner
        exact ⟨closer, rfl, closes, plain⟩
      · cases read

/-- A scanned flag is written as one. -/
theorem flag_written {line : Nat} {rest : List Char} {scanned : Scanned}
    (read : scanFlag line rest = .ok scanned) :
    Written scanned.kind scanned.lexeme ('#' :: scanned.taken) := by
  simp only [scanFlag] at read
  split at read
  · rename_i opens
    split at read
    · rename_i found
      cases read
      obtain ⟨closer, rfl, closes, last⟩ := readComment?_written found
      exact .comment opens closes List.all_takeWhile last
    · cases read
  · cases read
    exact .marked rfl List.all_takeWhile

/-- A scanned marked name is written as one. -/
theorem marked_written {kind : TokenKind} {mark : Char} {missing : LexCause} {rest : List Char}
    {scanned : Scanned} (has : nameMark? kind = some mark)
    (read : scanMarked kind missing rest = .ok scanned) :
    Written scanned.kind scanned.lexeme (mark :: scanned.taken) := by
  unfold scanMarked at read
  split at read
  · cases read
  · cases read
    refine .marked has (List.all_eq_true.mpr fun c member => ?_)
    exact isFlagChar_of_isNameChar (List.all_eq_true.mp List.all_takeWhile c member)

/-- A read text is written as one. -/
theorem text_written {quote : Char} (isQuote : quote = '"' ∨ quote = '\'') (rest : List Char) :
    Written .string (String.ofList (readString quote rest).1)
      (quote :: (readString quote rest).2.1) := by
  have slash := slash_of_isQuote isQuote
  cases inside slash rest with
  | closed allowed after =>
    rw [(readString_closed slash allowed after).2]
    exact .closedText isQuote allowed
  | opened text =>
    rw [(readString_open slash text).2]
    exact .openText isQuote

/-- What a token takes is a way to write it. -/
theorem scan_written {line : Nat} {first : Char} {rest : List Char} {scanned : Scanned}
    (read : scan line first rest = .ok scanned) :
    Written scanned.kind scanned.lexeme (first :: scanned.taken) := by
  unfold scan at read
  split at read
  case h_13 notEol _ _ _ _ _ _ _ _ _ _ _ =>
    repeat' split at read
    all_goals obtain rfl := Except.ok.inj read
    · exact single_written first rest rfl notEol
    · exact operator_written first rest notEol
    · exact digits_written first rest notEol
    · exact name_written first rest ‹_›
    · exact single_written first rest rfl notEol
  case h_4 => exact flag_written read
  case h_5 => exact marked_written rfl read
  case h_7 => exact marked_written rfl read
  case h_1 =>
    cases read
    exact .lineEnd
  case h_2 =>
    cases read
    exact text_written (.inl rfl) rest
  case h_3 =>
    cases read
    exact text_written (.inr rfl) rest
  case h_6 =>
    cases read
    exact .lineComment (eol_not_mem_of_all List.all_takeWhile (by decide))
  all_goals
    cases read
    exact single_written _ rest rfl (by decide)

/-! ## Line feeds -/

/-- The kinds that may stand on more than one line. -/
def mayBreak (kind : TokenKind) : Bool := kind == .string || kind == .comment

/-- Escaping adds no line feed. -/
theorem escape_count (quote : Char) (notEol : quote ≠ '\n') (text : List Char) :
    (escape quote text).count '\n' = text.count '\n' := by
  induction text with
  | nil => rfl
  | cons c text ih =>
    by_cases plain : c = quote
    · subst plain
      simp [escape_quote, List.count_cons, ih]
    · simp [escape_cons plain, List.count_cons, ih]

/-- A run that stops at line feeds counts none. -/
theorem count_eq_zero {p : Char → Bool} {chars : List Char} (plain : chars.all p = true)
    (stops : p '\n' = false) : chars.count '\n' = 0 :=
  List.count_eq_zero.mpr (eol_not_mem_of_all plain stops)

/-- A keyword is no line end and holds no line break. -/
theorem keyword_kind {name : String} {word : Keyword} (reserved : keyword? name = some word) :
    word.kind ≠ .eol ∧ mayBreak word.kind = false := by
  have all : ∀ word ∈ reservedWords, word.kind ≠ .eol ∧ mayBreak word.kind = false := by
    decide +kernel
  exact all word (mem_reservedWords reserved)

/-- Line feeds are line ends or stand in texts and comments. -/
theorem Written.breaks {kind : TokenKind} {lexeme : String} {chars : List Char}
    (written : Written kind lexeme chars) :
    chars.count '\n' = (if kind = .eol then 1 else 0) +
      if mayBreak kind then lexeme.toList.count '\n' else 0 := by
  have notQuote : ∀ {quote : Char}, quote = '"' ∨ quote = '\'' → quote ≠ '\n' := by
    rintro quote (rfl | rfl) <;> decide
  cases written with
  | lineEnd => rfl
  | closedText isQuote =>
    simp [mayBreak, escape_count _ (notQuote isQuote), notQuote isQuote]
  | openText isQuote =>
    simp [mayBreak, escape_count _ (notQuote isQuote), notQuote isQuote]
  | lineComment => simp [mayBreak]
  | comment opens closes first last =>
    simp [mayBreak, count_eq_zero first rfl, count_eq_zero last rfl]
  | @marked kind mark name has plain =>
    have none := count_eq_zero plain rfl
    cases kind <;> cases has <;> simp [mayBreak, none]
  | binary isMark plain =>
    have none := count_eq_zero plain (by decide)
    rcases isMark with rfl | rfl <;> simp [mayBreak, none]
  | name plain => simp [mayBreak, count_eq_zero plain rfl]
  | word plain reserved =>
    obtain ⟨notEol, notBreak⟩ := keyword_kind reserved
    simp [notEol, notBreak, count_eq_zero plain rfl]
  | @verbatim kind _ isVerbatim oneLine =>
    have none := List.count_eq_zero.mpr oneLine
    cases kind <;> simp [isVerbatimKind, mayBreak, none] at isVerbatim ⊢

end LineScript.Lexer
