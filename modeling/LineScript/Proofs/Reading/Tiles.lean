import LineScript.Proofs.Reading.Written
import Mathlib.Data.List.DropRight

/-!
# Tokens tile their source

The reader goes through a source in one pass: it skips a blank or takes the characters of a token, one
after the other. So the spans of the tokens and the blanks between them make up the whole source, each
token stands at the line and column where its span begins, and positions increase. Reading stops early
only at a mark without a name behind it and at a comment block that is never closed (`tokenize_tiles`).

Spans show what a text between quotes can hold: everything that does not end in a backslash
(`quoted_read_back`).
-/

namespace LineScript

namespace Lexer

/-! ## Places -/

/-- Where a source begins. -/
def Place.start : Place := ⟨1, 1⟩

/-- The characters behind the last line feed. -/
def lastLine (chars : List Char) : List Char := chars.rtakeWhile (· ≠ '\n')

/-- Behind a line feed the last line is empty. -/
theorem lastLine_feed (chars : List Char) : lastLine (chars ++ ['\n']) = [] :=
  List.rtakeWhile_concat_neg _ _ _ (by decide)

/-- A character that is no line feed goes at the end of the last line. -/
theorem lastLine_concat (chars : List Char) {c : Char} (notFeed : c ≠ '\n') :
    lastLine (chars ++ [c]) = lastLine chars ++ [c] :=
  List.rtakeWhile_concat_pos _ _ _ (by simpa using notFeed)

namespace Place

/-- No characters leave the place. -/
@[simp] theorem after_nil (place : Place) : place.after [] = place := rfl

/-- The place after characters goes on from the place behind the first. -/
@[simp] theorem after_cons (place : Place) (c : Char) (chars : List Char) :
    place.after (c :: chars) = (place.next c).after chars := rfl

/-- The place after two texts is reached through the place after the first. -/
@[simp] theorem after_append (place : Place) (left right : List Char) :
    place.after (left ++ right) = (place.after left).after right := List.foldl_append

/-- Lines and columns are counted from the beginning of the source and of the line. -/
theorem after_start (chars : List Char) :
    Place.start.after chars = ⟨1 + chars.count '\n', 1 + (lastLine chars).length⟩ := by
  induction chars using List.reverseRecOn with
  | nil => rfl
  | append_singleton chars c ih =>
    rw [after_append, ih, after_cons, after_nil, next]
    by_cases feed : c = '\n'
    · subst feed
      simp [lastLine_feed, Nat.add_assoc]
    · simp [lastLine_concat chars feed, feed, Nat.add_assoc]

/-- The place comes before another one. -/
def Precedes (place other : Place) : Prop :=
  place.line < other.line ∨ place.line = other.line ∧ place.col < other.col

/-- Preceding is transitive. -/
theorem Precedes.trans {first second third : Place} (left : first.Precedes second)
    (right : second.Precedes third) : first.Precedes third := by
  unfold Precedes at *
  omega

/-- A place precedes the next one. -/
theorem precedes_next (place : Place) (c : Char) : place.Precedes (place.next c) := by
  unfold next
  split
  · exact .inl (Nat.lt_succ_self _)
  · exact .inr ⟨rfl, Nat.lt_succ_self _⟩

/-- A place precedes every place after some characters. -/
theorem precedes_after (place : Place) (c : Char) (chars : List Char) :
    place.Precedes (place.after (c :: chars)) := by
  induction chars generalizing place c with
  | nil => exact place.precedes_next c
  | cons d chars ih => exact (place.precedes_next c).trans (ih _ d)

end Place

/-! ## Tiles -/

/-- A part of a source: a blank that is skipped, or a token with the characters it was read from. -/
inductive Tile where
  /-- A blank. -/
  | blank
  /-- A token. -/
  | token (span : List Char) (token : Token)

namespace Tile

/-- The characters of the tile. -/
def chars : Tile → List Char
  | .blank => [' ']
  | .token span _ => span

/-- The token, if there is one. -/
def token? : Tile → Option Token
  | .blank => none
  | .token _ read => some read

end Tile

/-- The characters of some tiles. -/
def charsOf (tiles : List Tile) : List Char := tiles.flatMap Tile.chars

/-- The tokens of some tiles. -/
def tokensOf (tiles : List Tile) : List Token := tiles.filterMap Tile.token?

/-- Reading characters from a place on takes these tiles, one after the other, and leaves the rest. -/
inductive Takes : Place → List Char → List Tile → List Char → Prop
  /-- Nothing more is taken. -/
  | stop (place : Place) (chars : List Char) : Takes place chars [] chars
  /-- A blank is skipped. -/
  | blank {place : Place} {chars left : List Char} {tiles : List Tile}
      (later : Takes (place.next ' ') chars tiles left) :
    Takes place (' ' :: chars) (.blank :: tiles) left
  /-- A token is read. -/
  | token {place : Place} {first : Char} {chars left : List Char} {scanned : Scanned}
      {tiles : List Tile} (notBlank : first ≠ ' ')
      (read : scan place.line first chars = .ok scanned)
      (later : Takes (place.after (first :: scanned.taken)) scanned.rest tiles left) :
    Takes place (first :: chars)
      (.token (first :: scanned.taken) ⟨scanned.kind, scanned.lexeme, place.line, place.col⟩ :: tiles)
      left

/-- Where a token stands. -/
def placeOf (token : Token) : Place := ⟨token.line, token.col⟩

/-- A token stands at a place and is written as its span. -/
structure Stands (place : Place) (span : List Char) (token : Token) : Prop where
  /-- It takes at least a character. -/
  nonempty : span ≠ []
  /-- Its span is a way to write it. -/
  written : Written token.kind token.lexeme span
  /-- Where it stands. -/
  place_eq : placeOf token = place

/-- The lexer skips a blank. -/
theorem lexChars_blank (place : Place) (chars : List Char) :
    lexChars place (' ' :: chars) = lexChars (place.next ' ') chars := by
  rw [lexChars, if_pos rfl]

/-- The lexer puts a scanned token in front of what it reads behind it. -/
theorem lexChars_token {place : Place} {first : Char} {chars : List Char} {scanned : Scanned}
    (notBlank : first ≠ ' ') (read : scan place.line first chars = .ok scanned) :
    let later := lexChars (place.after (first :: scanned.taken)) scanned.rest
    lexChars place (first :: chars) =
      ⟨⟨scanned.kind, scanned.lexeme, place.line, place.col⟩ :: later.tokens, later.fault⟩ := by
  rw [lexChars, if_neg notBlank]
  split
  · rename_i cause fails
    cases read.symm.trans fails
  · rename_i found reads
    cases read.symm.trans reads
    rfl

/-- The lexer stops with the cause of a failed scan at the place's line. -/
theorem lexChars_error {place : Place} {first : Char} {chars : List Char} {cause : LexCause}
    (notBlank : first ≠ ' ') (fails : scan place.line first chars = .error cause) :
    lexChars place (first :: chars) = ⟨[], some (.lexing cause place.line)⟩ := by
  rw [lexChars, if_neg notBlank]
  split
  · rename_i other again
    cases fails.symm.trans again
    rfl
  · rename_i found reads
    cases fails.symm.trans reads

namespace Takes

variable {place : Place} {chars left : List Char} {tiles : List Tile}

/-- Nothing is lost: the tiles are what was taken. -/
theorem charsOf_append (takes : Takes place chars tiles left) : charsOf tiles ++ left = chars := by
  induction takes with
  | stop => rfl
  | blank later ih => exact congrArg (' ' :: ·) ih
  | @token _ first _ _ scanned _ _ read later ih =>
    change (first :: scanned.taken) ++ charsOf _ ++ _ = _
    rw [List.append_assoc, ih, List.cons_append, scan_taken_append_rest read]

/-- What is read from what is left follows the tokens that were taken. -/
theorem lexChars_eq (takes : Takes place chars tiles left) :
    let later := lexChars (place.after (charsOf tiles)) left
    lexChars place chars = ⟨tokensOf tiles ++ later.tokens, later.fault⟩ := by
  induction takes with
  | stop => rfl
  | blank later ih => exact (lexChars_blank _ _).trans ih
  | @token place first chars left scanned tiles notBlank read later ih =>
    have taken : place.after (charsOf (.token (first :: scanned.taken)
        ⟨scanned.kind, scanned.lexeme, place.line, place.col⟩ :: tiles)) =
      (place.after (first :: scanned.taken)).after (charsOf tiles) :=
        place.after_append (first :: scanned.taken) (charsOf tiles)
    dsimp only at ih ⊢
    rw [lexChars_token notBlank read, taken, ih]
    rfl

/-- Each token stands at the place behind what was taken before it, and is written as its span. -/
theorem spans (takes : Takes place chars tiles left) {before after : List Tile} {span : List Char}
    {token : Token} (split : tiles = before ++ .token span token :: after) :
    Stands (place.after (charsOf before)) span token := by
  induction takes generalizing before with
  | stop => simp at split
  | blank later ih =>
    cases before with
    | nil => cases split
    | cons tile before =>
      cases split
      exact ih rfl
  | @token place first chars left scanned tiles notBlank read later ih =>
    cases before with
    | nil =>
      cases split
      exact ⟨List.cons_ne_nil _ _, scan_written read, rfl⟩
    | cons tile before =>
      cases split
      have placed := ih rfl
      rwa [← Place.after_append] at placed

/-- Tokens behind some characters stand behind the place of the first of them. -/
theorem precedes_token {c : Char} {skipped : List Char}
    (takes : Takes (place.after (c :: skipped)) chars tiles left) :
    ∀ token ∈ tokensOf tiles, place.Precedes (placeOf token) := by
  intro token member
  obtain ⟨tile, inside, isToken⟩ := List.mem_filterMap.mp member
  obtain ⟨before, after, split⟩ := List.append_of_mem inside
  cases tile with
  | blank => cases isToken
  | token span other =>
    cases isToken
    rw [(takes.spans split).place_eq, ← Place.after_append]
    exact place.precedes_after c _

/-- Positions increase. -/
theorem ordered (takes : Takes place chars tiles left) :
    (tokensOf tiles).Pairwise fun token later => (placeOf token).Precedes (placeOf later) := by
  induction takes with
  | stop => exact .nil
  | blank later ih => exact ih
  | token notBlank read later ih => exact .cons later.precedes_token ih

/-- Line feeds are line ends or stand in texts and comments. -/
theorem breaks (takes : Takes place chars tiles left) :
    (charsOf tiles).count '\n' = (tokensOf tiles).countP (·.kind = .eol) +
      (((tokensOf tiles).filter (mayBreak ·.kind)).flatMap (·.lexeme.toList)).count '\n' := by
  induction takes with
  | stop => rfl
  | @blank place chars left tiles later ih =>
    have none : (charsOf (.blank :: tiles)).count '\n' = (charsOf tiles).count '\n' := by
      simp [charsOf, Tile.chars]
    exact none.trans ih
  | @token place first chars left scanned tiles notBlank read later ih =>
    have here := (scan_written read).breaks
    have split : (charsOf (.token (first :: scanned.taken)
        ⟨scanned.kind, scanned.lexeme, place.line, place.col⟩ :: tiles)).count '\n' =
      (first :: scanned.taken).count '\n' + (charsOf tiles).count '\n' := List.count_append
    have tokens : tokensOf (.token (first :: scanned.taken)
        ⟨scanned.kind, scanned.lexeme, place.line, place.col⟩ :: tiles) =
      ⟨scanned.kind, scanned.lexeme, place.line, place.col⟩ :: tokensOf tiles := rfl
    rw [split, here, ih, tokens, List.countP_cons, List.filter_cons]
    cases mayBreak scanned.kind <;> simp <;> omega

end Takes

/-! ## Where reading stops -/

/-- No token can be read at the head of the characters. -/
inductive Unreadable (line : Nat) : LexCause → List Char → Prop
  /-- A dollar sign without a name behind it. -/
  | variableName {rest : List Char} (nameless : ∀ c ∈ rest.head?, isNameChar c = false) :
    Unreadable line .variableName ('$' :: rest)
  /-- An at sign without a name behind it. -/
  | macroName {rest : List Char} (nameless : ∀ c ∈ rest.head?, isNameChar c = false) :
    Unreadable line .macroName ('@' :: rest)
  /-- An opening flag with no closing flag anywhere behind it. -/
  | openComment {rest : List Char} (opens : opensComment (rest.takeWhile isFlagChar) = true)
      (never : ∀ before after, rest.dropWhile isFlagChar = before ++ '#' :: after →
        closesComment after = false) :
    Unreadable line (.openComment line) ('#' :: rest)

/-- Why reading stops: the source ends, or no token can be read. -/
inductive Stops (place : Place) : List Char → Option Fault → Prop
  /-- Nothing is left. -/
  | whole : Stops place [] none
  /-- No token can be read here. -/
  | unreadable {cause : LexCause} {left : List Char} (is : Unreadable place.line cause left) :
    Stops place left (some (.lexing cause place.line))

/-- Where no name was taken, no name character stands first. -/
theorem nameless_of_takeWhile {rest : List Char} (none : rest.takeWhile isNameChar = []) :
    ∀ c ∈ rest.head?, isNameChar c = false := by
  intro c isHead
  cases rest with
  | nil => cases isHead
  | cons d rest =>
    cases isHead
    by_contra isName
    rw [Bool.not_eq_false] at isName
    rw [List.takeWhile_cons_of_pos isName] at none
    cases none

/-- A comment block is read unless there is no closing flag. -/
theorem never_of_readComment? {chars : List Char} (none : readComment? chars = none)
    (before after : List Char) (split : chars = before ++ '#' :: after) :
    closesComment after = false := by
  induction chars generalizing before with
  | nil => simp at split
  | cons c rest ih =>
    rw [readComment?] at none
    split at none
    · cases none
    · rename_i notClosed
      split at none
      · cases none
      · rename_i later
        cases before with
        | nil =>
          cases split
          simpa using notClosed
        | cons d before =>
          cases split
          exact ih later before rfl

/-- A scan that fails stands before an unreadable text. -/
theorem scan_unreadable {line : Nat} {first : Char} {rest : List Char} {cause : LexCause}
    (fails : scan line first rest = .error cause) : Unreadable line cause (first :: rest) := by
  unfold scan at fails
  split at fails
  case h_13 =>
    repeat' split at fails
    all_goals cases fails
  case h_4 =>
    simp only [scanFlag] at fails
    split at fails
    · rename_i opens
      split at fails
      · cases fails
      · rename_i none
        cases fails
        exact .openComment opens (never_of_readComment? none)
    · cases fails
  case h_5 | h_7 =>
    unfold scanMarked at fails
    split at fails
    · rename_i none
      cases fails
      first
      | exact .macroName (nameless_of_takeWhile none)
      | exact .variableName (nameless_of_takeWhile none)
    · cases fails
  all_goals cases fails

/-- Every source is taken apart, up to its end or to a place where no token can be read. -/
theorem exists_takes (place : Place) (chars : List Char) :
    ∃ tiles left, Takes place chars tiles left ∧
      Stops (place.after (charsOf tiles)) left (lexChars place chars).fault := by
  fun_induction lexChars place chars with
  | case1 place => exact ⟨[], [], .stop place [], .whole⟩
  | case2 place rest ih =>
    obtain ⟨tiles, left, takes, stops⟩ := ih
    exact ⟨.blank :: tiles, left, .blank takes, stops⟩
  | case3 place first rest notBlank cause fails =>
    exact ⟨[], first :: rest, .stop place _, .unreadable (scan_unreadable fails)⟩
  | case4 place first rest notBlank scanned read token later ih =>
    obtain ⟨tiles, left, takes, stops⟩ := ih
    refine ⟨_, left, .token notBlank read takes, ?_⟩
    exact (place.after_append (first :: scanned.taken) (charsOf tiles)).symm ▸ stops

/-- The tokens of a source tile it. -/
structure Tiling (chars : List Char) (tiles : List Tile) (tokens : List Token) : Prop where
  /-- The tokens are those of the tiles. -/
  tokens_eq : tokens = tokensOf tiles
  /-- The spans of the tokens and the blanks around them are the whole source. -/
  chars_eq : charsOf tiles = chars
  /-- A token stands behind what lies before its span, which is a way to write it. -/
  stands : ∀ before span token after, tiles = before ++ .token span token :: after →
    span ≠ [] ∧ Written token.kind token.lexeme span ∧
      token.line = 1 + (charsOf before).count '\n' ∧
      token.col = 1 + (lastLine (charsOf before)).length
  /-- Positions increase. -/
  ordered : tokens.Pairwise fun token later => (placeOf token).Precedes (placeOf later)
  /-- Line feeds are line ends or stand in texts and comments. -/
  breaks : chars.count '\n' = tokens.countP (·.kind = .eol) +
    ((tokens.filter (mayBreak ·.kind)).flatMap (·.lexeme.toList)).count '\n'

end Lexer

open Lexer

/-- Reading a source always ends. The spans of the tokens and the blanks between them are the whole
normalized source, and each token stands where its span begins; or reading stops at a mark without a
name behind it or at a comment block that is never closed. -/
theorem tokenize_tiles (source : String) :
    match tokenize source with
    | .ok tokens => ∃ tiles, Takes .start (normalize source.toList) tiles [] ∧
        Tiling (normalize source.toList) tiles tokens
    | .error fault => ∃ tiles left cause line,
        Takes .start (normalize source.toList) tiles left ∧
          charsOf tiles ++ left = normalize source.toList ∧
          line = 1 + (charsOf tiles).count '\n' ∧ fault = .lexing cause line ∧
          Unreadable line cause left := by
  obtain ⟨tiles, left, takes, stops⟩ := exists_takes .start (normalize source.toList)
  have whole := takes.charsOf_append
  change Stops _ _ (lex source).fault at stops
  generalize found : (lex source).fault = fault? at stops
  cases stops with
  | whole =>
    have read : lex source = ⟨tokensOf tiles ++ [], none⟩ := takes.lexChars_eq.trans (by rw [lexChars])
    rw [List.append_nil] at read whole
    have tokenized : tokenize source = .ok (tokensOf tiles) := by
      rw [tokenize, read]
    rw [tokenized]
    refine ⟨tiles, takes, rfl, whole, fun before span token after split => ?_, takes.ordered, ?_⟩
    · obtain ⟨nonempty, written, place⟩ := takes.spans split
      rw [Place.after_start] at place
      exact ⟨nonempty, written, congrArg Place.line place, congrArg Place.col place⟩
    · rw [← whole]
      exact takes.breaks
  | @unreadable cause _ unreadable =>
    have tokenized : tokenize source = .error (.lexing cause (Place.start.after (charsOf tiles)).line) := by
      rw [tokenize, found]
    rw [tokenized]
    have line := congrArg Place.line (Place.after_start (charsOf tiles))
    exact ⟨tiles, left, cause, _, takes, whole, line, rfl, unreadable⟩

/-! ## Texts between quotes -/

namespace Lexer

/-- A text between quotes. -/
def literal (quote : Char) (text : List Char) : List Char := quote :: (escape quote text ++ [quote])

/-- The reading of a span that begins with a quote comes to the closing quote. -/
def isClosed : List Char → Bool
  | [] => false
  | quote :: inside => closes quote inside

/-- Reading the source gives a text between quotes of this kind, the closing one included. -/
def Holds (source : String) (quote : Char) (text : String) : Prop :=
  ∃ tiles left span token, Takes .start (normalize source.toList) tiles left ∧
    .token span token ∈ tiles ∧ token.kind = .string ∧ token.lexeme = text ∧
    span.head? = some quote ∧ isClosed span = true

/-- The first character stays, or it is a line end or a tab and becomes a line end or a blank. -/
theorem head?_normalize (chars : List Char) : (normalize chars).head? = chars.head? ∨
    (normalize chars).head? = some '\n' ∨ (normalize chars).head? = some ' ' := by
  fun_cases normalize chars with
  | case1 | case5 => exact .inl rfl
  | case2 | case3 => exact .inr (.inl rfl)
  | case4 => exact .inr (.inr rfl)

/-- Characters that are no line ends and no tabs stay as they are. -/
theorem normalize_append {chars : List Char} (noReturn : '\r' ∉ chars) (noTab : '\t' ∉ chars)
    (rest : List Char) : normalize (chars ++ rest) = chars ++ normalize rest := by
  induction chars with
  | nil => rfl
  | cons c chars ih =>
    rw [List.mem_cons, not_or] at noReturn noTab
    have kept : normalize (c :: (chars ++ rest)) = c :: normalize (chars ++ rest) := by
      rw [normalize]
      · exact fun _ isReturn _ => noReturn.1 isReturn.symm
      · exact fun isReturn => noReturn.1 isReturn.symm
      · exact fun isTab => noTab.1 isTab.symm
    rw [List.cons_append, kept, ih noReturn.2 noTab.2, List.cons_append]

/-- A character that is absent from a text is absent from its literal. -/
theorem not_mem_literal {quote c : Char} {text : List Char} (notQuote : c ≠ quote) (notSlash : c ≠ '\\')
    (absent : c ∉ text) : c ∉ literal quote text := by
  have inside : c ∉ escape quote text := by
    intro member
    obtain ⟨d, isIn, isOne⟩ := List.mem_flatMap.mp member
    split at isOne
    · simp at isOne
      rcases isOne with same | same
      · exact notSlash same
      · exact absent (same ▸ isIn)
    · exact absent (List.mem_singleton.mp isOne ▸ isIn)
  simp [literal, notQuote, inside]

/-- A text between quotes is read as one token, and the reading goes on behind its closing quote. -/
theorem takes_literal {quote : Char} (isQuote : quote = '"' ∨ quote = '\'') {text : List Char}
    (allowed : ¬ endsInBackslash text) (place : Place) (rest : List Char) :
    Takes place (literal quote text ++ rest)
      [.token (literal quote text) ⟨.string, String.ofList text, place.line, place.col⟩] rest := by
  have slash := slash_of_isQuote isQuote
  have read : scan place.line quote (escape quote text ++ quote :: rest) =
      .ok ⟨.string, String.ofList text, escape quote text ++ [quote], rest⟩ := by
    have read := (readString_closed slash allowed rest).2
    rcases isQuote with rfl | rfl <;> simp only [scan, read]
  have split : literal quote text ++ rest = quote :: (escape quote text ++ quote :: rest) := by
    simp [literal]
  have notBlank : quote ≠ ' ' := by
    rcases isQuote with rfl | rfl <;> decide
  rw [split]
  exact .token notBlank read (.stop _ rest)

/-- A text with its closing quote does not end in a backslash. -/
theorem Written.allowed {lexeme : String} {span : List Char} (written : Written .string lexeme span)
    (closed : isClosed span = true) : ¬ endsInBackslash lexeme.toList := by
  generalize isString : TokenKind.string = kind at written
  cases written with
  | closedText isQuote allowed => rwa [String.toList_ofList]
  | @openText quote text isQuote =>
    have opened := (readString_open (slash_of_isQuote isQuote) text).1
    cases opened.symm.trans closed
  | marked has =>
    subst isString
    cases has
  | word plain reserved =>
    have notBreak := (keyword_kind reserved).2
    rw [← isString] at notBreak
    cases notBreak
  | verbatim isVerbatim =>
    subst isString
    cases isVerbatim
  | _ => cases isString

end Lexer

/-- A text that does not end in a backslash is read back from between quotes of either kind when each
quote of the kind in it has a backslash in front, and reading goes on behind the closing quote. No text
that ends in a backslash can stand between quotes. -/
theorem quoted_read_back {quote : Char} (isQuote : quote = '"' ∨ quote = '\'') :
    (∀ text rest : String, '\r' ∉ text.toList → '\t' ∉ text.toList →
      ¬ endsInBackslash text.toList →
        let later := lexChars (Place.start.after (literal quote text.toList)) (normalize rest.toList)
        lex (String.ofList (literal quote text.toList) ++ rest) =
          ⟨⟨.string, text, 1, 1⟩ :: later.tokens, later.fault⟩) ∧
    (∀ source text, Holds source quote text → ¬ endsInBackslash text.toList) ∧
    ∀ text : String, '\r' ∉ text.toList → '\t' ∉ text.toList →
      ((∃ source, Holds source quote text) ↔ ¬ endsInBackslash text.toList) := by
  have taken : ∀ text rest : String, '\r' ∉ text.toList → '\t' ∉ text.toList →
      ¬ endsInBackslash text.toList →
        Takes .start (normalize (String.ofList (literal quote text.toList) ++ rest).toList)
          [.token (literal quote text.toList) ⟨.string, text, 1, 1⟩] (normalize rest.toList) := by
    intro text rest noReturn noTab allowed
    have plain : normalize (literal quote text.toList ++ rest.toList) =
        literal quote text.toList ++ normalize rest.toList :=
      normalize_append
        (not_mem_literal (by rcases isQuote with rfl | rfl <;> decide) (by decide) noReturn)
        (not_mem_literal (by rcases isQuote with rfl | rfl <;> decide) (by decide) noTab) _
    have takes := takes_literal isQuote allowed .start (normalize rest.toList)
    rwa [← plain, String.ofList_toList, ← String.toList_ofList (l := literal quote text.toList),
      ← String.toList_append, String.toList_ofList] at takes
  have closedOnly : ∀ source text, Holds source quote text → ¬ endsInBackslash text.toList := by
    rintro source text ⟨tiles, left, span, token, takes, member, isString, rfl, -, closed⟩
    obtain ⟨before, after, split⟩ := List.append_of_mem member
    exact (isString ▸ (takes.spans split).written).allowed closed
  refine ⟨?_, closedOnly, fun text noReturn noTab => ⟨fun ⟨source, holds⟩ => closedOnly _ _ holds, ?_⟩⟩
  · intro text rest noReturn noTab allowed
    have read := (taken text rest noReturn noTab allowed).lexChars_eq
    rwa [show charsOf [.token (literal quote text.toList) ⟨.string, text, 1, 1⟩] =
      literal quote text.toList from List.append_nil _] at read
  · intro allowed
    refine ⟨_, _, _, _, _, taken text "" noReturn noTab allowed, List.mem_singleton_self _, rfl, rfl,
      rfl, ?_⟩
    exact (readString_closed (slash_of_isQuote isQuote) allowed []).1

/-- Quotes of either kind can stand in a text; a backslash at its end cannot. -/
theorem quoted_read_back_mixed :
    lex (String.ofList (literal '"' "say \"no\" or 'x'".toList) ++ "&1") =
        ⟨[⟨.string, "say \"no\" or 'x'", 1, 1⟩, ⟨.operator, "&", 1, 20⟩, ⟨.number, "1", 1, 21⟩],
          none⟩ ∧
      ¬ ∃ source, Holds source '\'' "C:\\" := by
  obtain ⟨reads, -, -⟩ := @quoted_read_back '"' (.inl rfl)
  obtain ⟨-, -, exactly⟩ := @quoted_read_back '\'' (.inr rfl)
  constructor
  · refine (reads _ "&1" (by decide +kernel) (by decide +kernel) (by decide +kernel)).trans ?_
    decide +kernel
  · rw [exactly _ (by decide +kernel) (by decide +kernel)]
    decide +kernel

end LineScript
