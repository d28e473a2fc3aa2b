import LineScript.Proofs.Lists
import LineScript.Proofs.Reading.Tiles

/-!
# Sources one below the other

No token but a text without its closing quote and an open comment block reaches across the end of a line:
every other token stops at a line feed as it stops at the end of the source. So a source that is put below
another one is read as it is read alone, that many lines further down (`lex_joined`).
-/

namespace LineScript

/-! ## Further down -/

/-- The token, some lines further down. -/
def Token.down (lines : Nat) (token : Token) : Token := { token with line := token.line + lines }

/-- The cause, some lines further down. -/
def LexCause.down (lines : Nat) : LexCause → LexCause
  | openComment line => openComment (line + lines)
  | other => other

/-- The fault of a reading, some lines further down. -/
def Fault.down (lines : Nat) : Fault → Fault
  | lexing cause line => lexing (cause.down lines) (line + lines)
  | other => other

/-- What is read, some lines further down. -/
def Lexed.down (lines : Nat) (lexed : Lexed) : Lexed :=
  ⟨lexed.tokens.map (Token.down lines), lexed.fault.map (Fault.down lines)⟩

namespace Lexer

/-- The place, some lines further down. -/
def Place.down (lines : Nat) (place : Place) : Place := { place with line := place.line + lines }

/-- The next place of a lowered place is the lowered next place. -/
theorem Place.next_down (lines : Nat) (place : Place) (c : Char) :
    (place.down lines).next c = (place.next c).down lines := by
  unfold Place.next Place.down
  split
  · simp only [Nat.add_right_comm]
  · rfl

/-- The place after characters is lowered with the place before them. -/
theorem Place.after_down (lines : Nat) (place : Place) (chars : List Char) :
    (place.down lines).after chars = (place.after chars).down lines := by
  induction chars generalizing place with
  | nil => rfl
  | cons c chars ih => rw [after_cons, after_cons, next_down, ih]

/-- What a token takes does not depend on its line. -/
theorem scan_down (lines line : Nat) (first : Char) (rest : List Char) :
    scan (line + lines) first rest = (scan line first rest).mapError (LexCause.down lines) := by
  have flag : scanFlag (line + lines) rest = (scanFlag line rest).mapError (LexCause.down lines) := by
    simp only [scanFlag]
    split
    · split <;> rfl
    · rfl
  have marked : ∀ kind missing, LexCause.down lines missing = missing →
      scanMarked kind missing rest =
        (scanMarked kind missing rest).mapError (LexCause.down lines) := by
    intro kind missing same
    unfold scanMarked
    split
    · exact congrArg Except.error same.symm
    · rfl
  unfold scan
  split
  case h_4 => exact flag
  case h_5 => exact marked _ _ rfl
  case h_7 => exact marked _ _ rfl
  case h_13 =>
    repeat' split
    all_goals rfl
  all_goals rfl

/-- Reading further down gives the same, further down. -/
theorem lexChars_down (lines : Nat) (place : Place) (chars : List Char) :
    lexChars (place.down lines) chars = (lexChars place chars).down lines := by
  fun_induction lexChars place chars with
  | case1 => rw [lexChars]; rfl
  | case2 place rest ih =>
    rw [lexChars_blank, Place.next_down, ih]
  | case3 place first rest notBlank cause fails =>
    have again := (scan_down lines place.line first rest).trans (congrArg _ fails)
    exact lexChars_error notBlank again
  | case4 place first rest notBlank scanned read token later ih =>
    have again := (scan_down lines place.line first rest).trans (congrArg _ read)
    refine (@lexChars_token (place.down lines) _ _ _ notBlank again).trans ?_
    have placed : (place.down lines).after (first :: scanned.taken) =
        ((place.next first).after scanned.taken).down lines := Place.after_down ..
    simp only [placed, ih]
    rfl

/-! ## Followed by a line feed -/

/-- What was scanned, with a line feed and more characters behind it. -/
def Scanned.followed (scanned : Scanned) (more : List Char) : Scanned :=
  { scanned with rest := scanned.rest ++ '\n' :: more }

/-- Each text among the tiles comes to its closing quote. -/
def AllClosed (tiles : List Tile) : Prop :=
  ∀ span token, .token span token ∈ tiles → token.kind = .string → isClosed span = true

section Followed

variable (more : List Char)

/-- A run that stops at a line feed takes the same before one. -/
theorem takeWhile_feed {p : Char → Bool} (stops : p '\n' = false) (rest : List Char) :
    (rest ++ '\n' :: more).takeWhile p = rest.takeWhile p := by
  induction rest with
  | nil => exact List.takeWhile_cons_of_neg (by simp [stops])
  | cons c rest ih =>
    by_cases goes : p c = true
    · rw [List.cons_append, List.takeWhile_cons_of_pos goes, List.takeWhile_cons_of_pos goes, ih]
    · rw [List.cons_append, List.takeWhile_cons_of_neg goes, List.takeWhile_cons_of_neg goes]

/-- A run that stops at a line feed leaves the feed and what follows. -/
theorem dropWhile_feed {p : Char → Bool} (stops : p '\n' = false) (rest : List Char) :
    (rest ++ '\n' :: more).dropWhile p = rest.dropWhile p ++ '\n' :: more := by
  induction rest with
  | nil => exact List.dropWhile_cons_of_neg (by simp [stops])
  | cons c rest ih =>
    by_cases goes : p c = true
    · rw [List.cons_append, List.dropWhile_cons_of_pos goes, List.dropWhile_cons_of_pos goes, ih]
    · rw [List.cons_append, List.dropWhile_cons_of_neg goes, List.dropWhile_cons_of_neg goes,
        List.cons_append]

/-- Scanning a run is not changed by what follows a line feed. -/
theorem scanRun_followed (kind : TokenKind) {accept : Char → Bool} (stops : accept '\n' = false)
    (rest : List Char) :
    scanRun kind accept (rest ++ '\n' :: more) = (scanRun kind accept rest).followed more := by
  simp only [scanRun, Scanned.followed, takeWhile_feed more stops, dropWhile_feed more stops]

/-- Scanning an operator is not changed by what follows a line feed. -/
theorem scanOperator_followed (first : Char) (rest : List Char) :
    scanOperator first (rest ++ '\n' :: more) = (scanOperator first rest).followed more := by
  cases rest with
  | nil => simp [scanOperator, scanSingle, Scanned.followed]
  | cons second rest =>
    simp only [scanOperator, List.cons_append]
    split <;> rfl

/-- Reading a fraction is not changed by what follows a line feed. -/
theorem readFraction?_followed (rest : List Char) :
    readFraction? (rest ++ '\n' :: more) =
      (readFraction? rest).map fun found => (found.1, found.2 ++ '\n' :: more) := by
  match rest with
  | [] => rfl
  | [c] =>
    by_cases point : c = '.'
    · subst point
      rfl
    · simp [readFraction?, point]
  | c :: digit :: rest =>
    by_cases point : c = '.'
    · subst point
      simp only [readFraction?, List.cons_append]
      split
      · simp only [Option.map_some, ← List.cons_append, takeWhile_feed more (p := Char.isDigit) rfl,
          dropWhile_feed more (p := Char.isDigit) rfl]
      · rfl
    · simp [readFraction?, point]

/-- Scanning a number is not changed by what follows a line feed. -/
theorem scanNumber_followed (first : Char) (rest : List Char) :
    scanNumber first (rest ++ '\n' :: more) = (scanNumber first rest).followed more := by
  simp only [scanNumber, takeWhile_feed more (p := Char.isDigit) rfl,
    dropWhile_feed more (p := Char.isDigit) rfl, readFraction?_followed]
  cases readFraction? (rest.dropWhile Char.isDigit) <;> rfl

/-- Scanning digits is not changed by what follows a line feed. -/
theorem scanDigits_followed (first : Char) (rest : List Char) :
    scanDigits first (rest ++ '\n' :: more) = (scanDigits first rest).followed more := by
  cases rest with
  | nil =>
    have alone := scanNumber_followed more first []
    simpa [scanDigits] using alone
  | cons mark rest =>
    have stops : Text.Hex.isDigit '\n' = false := by decide
    simp only [scanDigits, List.cons_append]
    split
    · simp only [takeWhile_feed more stops, dropWhile_feed more stops, Scanned.followed]
    · exact scanNumber_followed more first (mark :: rest)

/-- Scanning a name is not changed by what follows a line feed. -/
theorem scanName_followed (first : Char) (rest : List Char) :
    scanName first (rest ++ '\n' :: more) = (scanName first rest).followed more := by
  simp only [scanName, Scanned.followed, takeWhile_feed more (p := isNameChar) rfl,
    dropWhile_feed more (p := isNameChar) rfl]

/-- Whether a comment closes is decided before a line feed. -/
theorem closesComment_feed (rest : List Char) :
    closesComment (rest ++ '\n' :: more) = closesComment rest := by
  rw [closesComment, closesComment, takeWhile_feed more rfl]

/-- A comment block ends at its closing flag, whatever follows. -/
theorem readComment?_followed {chars text taken after : List Char}
    (read : readComment? chars = some (text, taken, after)) :
    readComment? (chars ++ '\n' :: more) = some (text, taken, after ++ '\n' :: more) := by
  induction chars generalizing text taken after with
  | nil => cases read
  | cons c rest ih =>
    rw [List.cons_append, readComment?, closesComment_feed]
    rw [readComment?] at read
    split at read
    · rename_i closed
      cases read
      rw [if_pos closed, takeWhile_feed more rfl, dropWhile_feed more rfl]
    · rename_i notClosed
      rw [if_neg notClosed]
      split at read
      · rename_i later
        cases read
        rw [ih later]
      · cases read

/-- Scanning a flag is not changed by what follows a line feed. -/
theorem scanFlag_followed {line : Nat} {rest : List Char} {scanned : Scanned}
    (read : scanFlag line rest = .ok scanned) :
    scanFlag line (rest ++ '\n' :: more) = .ok (scanned.followed more) := by
  have stops : isFlagChar '\n' = false := rfl
  simp only [scanFlag, takeWhile_feed more stops, dropWhile_feed more stops] at read ⊢
  split at read
  · rename_i opens
    rw [if_pos opens]
    split at read
    · rename_i found
      cases read
      rw [readComment?_followed more found]
      rfl
    · cases read
  · rename_i notOpens
    cases read
    rw [if_neg notOpens, scanRun_followed more _ stops]

/-- Scanning a marked name is not changed by what follows a line feed. -/
theorem scanMarked_followed {kind : TokenKind} {missing : LexCause} {rest : List Char}
    {scanned : Scanned} (read : scanMarked kind missing rest = .ok scanned) :
    scanMarked kind missing (rest ++ '\n' :: more) = .ok (scanned.followed more) := by
  have stops : isNameChar '\n' = false := rfl
  unfold scanMarked at read ⊢
  rw [takeWhile_feed more stops]
  split at read
  · cases read
  · rename_i named
    cases read
    rw [if_neg named, scanRun_followed more _ stops]

/-- A text with its closing quote ends there, whatever follows. -/
theorem readString_followed {quote : Char} (isQuote : quote = '"' ∨ quote = '\'') {rest : List Char}
    (closed : closes quote (readString quote rest).2.1 = true) :
    readString quote (rest ++ '\n' :: more) =
      ((readString quote rest).1, (readString quote rest).2.1,
        (readString quote rest).2.2 ++ '\n' :: more) := by
  have slash := slash_of_isQuote isQuote
  cases inside slash rest with
  | closed allowed after =>
    rw [List.append_assoc, List.cons_append, (readString_closed slash allowed _).2,
      (readString_closed slash allowed _).2]
  | opened text =>
    obtain ⟨opened, read⟩ := readString_open slash text
    rw [read] at closed
    cases opened.symm.trans closed

/-- Whether a name follows is decided before a line feed. -/
theorem nameFollows_feed (rest : List Char) :
    nameFollows (rest ++ '\n' :: more) = nameFollows rest := by
  cases rest <;> rfl

/-- A token ends in front of a line feed as it ends at the end of the source, unless it is a text without
its closing quote. -/
theorem scan_followed {line : Nat} {first : Char} {rest : List Char} {scanned : Scanned}
    (read : scan line first rest = .ok scanned)
    (closed : scanned.kind = .string → isClosed (first :: scanned.taken) = true) :
    scan line first (rest ++ '\n' :: more) = .ok (scanned.followed more) := by
  unfold scan at read ⊢
  split at read
  case h_13 =>
    rw [nameFollows_feed, scanOperator_followed, scanDigits_followed, scanName_followed]
    repeat' split at read
    all_goals obtain rfl := Except.ok.inj read
    all_goals simp_all [Scanned.followed, scanSingle]
  case h_4 => exact scanFlag_followed more read
  case h_5 => exact scanMarked_followed more read
  case h_7 => exact scanMarked_followed more read
  case h_6 =>
    cases read
    exact congrArg Except.ok (scanRun_followed more _ rfl rest)
  case h_2 =>
    cases read
    simp only [readString_followed more (.inl rfl) (closed rfl), Scanned.followed]
  case h_3 =>
    cases read
    simp only [readString_followed more (.inr rfl) (closed rfl), Scanned.followed]
  all_goals
    cases read
    rfl

/-- Tiles that leave no text open are taken in front of a line feed as well. -/
theorem Takes.followed {place : Place} {chars left : List Char} {tiles : List Tile}
    (takes : Takes place chars tiles left) (closed : AllClosed tiles) :
    Takes place (chars ++ '\n' :: more) tiles (left ++ '\n' :: more) := by
  induction takes with
  | stop place chars => exact .stop place _
  | blank later ih => exact .blank (ih fun span token member => closed span token (.tail _ member))
  | @token place first chars left scanned tiles notBlank read later ih =>
    have again := scan_followed more read (closed _ _ (.head _))
    have after := ih fun span token member => closed span token (.tail _ member)
    exact @Takes.token place first _ _ (scanned.followed more) _ notBlank again after

end Followed

/-- What is taken is determined, up to where it is left. -/
theorem Takes.isPrefix {place : Place} {chars left : List Char} {tiles all : List Tile}
    (takes : Takes place chars tiles left) (whole : Takes place chars all []) : tiles <+: all := by
  induction takes generalizing all with
  | stop => exact List.nil_prefix
  | blank later ih =>
    cases whole with
    | blank others => exact List.cons_prefix_cons.mpr ⟨rfl, ih others⟩
    | token notBlank => exact absurd rfl notBlank
  | token notBlank read later ih =>
    cases whole with
    | blank others => exact absurd rfl notBlank
    | token _ again others =>
      cases read.symm.trans again
      exact List.cons_prefix_cons.mpr ⟨rfl, ih others⟩

/-- A line feed that follows no carriage return is a line end of its own. -/
theorem normalize_joined {upper : List Char} (notReturn : upper.getLast? ≠ some '\r')
    (lower : List Char) :
    normalize (upper ++ '\n' :: lower) = normalize upper ++ '\n' :: normalize lower := by
  fun_induction normalize upper with
  | case1 => rfl
  | case2 rest ih =>
    rw [List.cons_append, List.cons_append, normalize, ih (getLast?_tail_ne (getLast?_tail_ne notReturn)),
      List.cons_append]
  | case3 rest notFeed ih =>
    have more : ∀ after, rest ++ '\n' :: lower = '\n' :: after → False := by
      intro after split
      cases rest with
      | nil => exact notReturn rfl
      | cons c rest =>
        cases split
        exact notFeed _ rfl
    rw [List.cons_append, normalize, ih (getLast?_tail_ne notReturn), List.cons_append]
    exact more
  | case4 rest ih =>
    rw [List.cons_append, normalize, ih (getLast?_tail_ne notReturn), List.cons_append]
  | case5 c rest notEnd notReturn' notTab ih =>
    rw [List.cons_append, normalize, ih (getLast?_tail_ne notReturn), List.cons_append]
    · exact fun _ isReturn _ => notReturn' isReturn
    · exact notReturn'
    · exact notTab

end Lexer

open Lexer

/-- Each text of the source comes to its closing quote. -/
def TextsClosed (source : String) : Prop :=
  ∀ tiles left, Takes .start (normalize source.toList) tiles left → AllClosed tiles

/-- A source whose tiles are all closed has its texts closed. -/
theorem textsClosed_of_takes {source : String} {tiles : List Tile}
    (takes : Takes .start (normalize source.toList) tiles []) (closed : AllClosed tiles) :
    TextsClosed source := fun _ _ others _ _ member =>
  closed _ _ ((others.isPrefix takes).subset member)

/-- A source below one that is read without a fault and closes its texts is read as it is read alone, further
down by the lines of the upper one. -/
theorem lex_joined (upper lower : String) (notReturn : upper.toList.getLast? ≠ some '\r')
    (reads : (lex upper).fault = none) (closed : TextsClosed upper) :
    let before := normalize upper.toList
    let lines := 1 + before.count '\n'
    let below := (lex lower).down lines
    lex (upper ++ "\n" ++ lower) =
      ⟨(lex upper).tokens ++ ⟨.eol, "", lines, 1 + (lastLine before).length⟩ :: below.tokens,
        below.fault⟩ := by
  intro before lines below
  obtain ⟨tiles, left, takes, stops⟩ := exists_takes .start before
  have nothing : left = [] := by
    change Stops _ _ (lex upper).fault at stops
    rw [reads] at stops
    cases stops
    rfl
  subst nothing
  have alone : (lex upper).tokens = tokensOf tiles := by
    have read : lex upper = ⟨tokensOf tiles ++ [], none⟩ := takes.lexChars_eq.trans (by rw [lexChars])
    rw [read, List.append_nil]
  have whole : charsOf tiles = before := by
    simpa using takes.charsOf_append
  have behind : (Place.start.after before).next '\n' = Place.start.down lines := by
    rw [Place.after_start]
    simp only [Place.next, Place.down, Place.start, if_pos, lines, Nat.add_comm]
  have joined : normalize (upper ++ "\n" ++ lower).toList =
      before ++ '\n' :: normalize lower.toList := by
    rw [String.toList_append, String.toList_append, List.append_assoc]
    exact normalize_joined notReturn lower.toList
  have feed : scan (Place.start.after before).line '\n' (normalize lower.toList) =
      .ok ⟨.eol, "", [], normalize lower.toList⟩ := rfl
  calc lex (upper ++ "\n" ++ lower)
      = lexChars .start (before ++ '\n' :: normalize lower.toList) := congrArg _ joined
    _ = _ := (takes.followed (normalize lower.toList) (closed tiles [] takes)).lexChars_eq
    _ = _ := by
      rw [whole, List.nil_append, lexChars_token (by decide) feed, Place.after_cons, Place.after_nil,
        behind, lexChars_down, alone, Place.after_start]
      rfl

/-- The texts and the comment of the upper source end there, and the lines of the lower one are counted
on. -/
theorem lex_joined_open_comment :
    TextsClosed "'a\r\n\\'b' ;c" ∧
      lex ("'a\r\n\\'b' ;c" ++ "\n" ++ "1 #cs") =
        ⟨[⟨.string, "a\n'b", 1, 1⟩, ⟨.comment, "c", 2, 6⟩, ⟨.eol, "", 2, 8⟩, ⟨.number, "1", 3, 1⟩],
          some (.lexing (.openComment 3) 3)⟩ := by
  have chars : normalize "'a\r\n\\'b' ;c".toList =
      ['\'', 'a', '\n', '\\', '\'', 'b', '\'', ' ', ';', 'c'] := by decide +kernel
  have takes : Takes .start (normalize "'a\r\n\\'b' ;c".toList)
      [.token ['\'', 'a', '\n', '\\', '\'', 'b', '\''] ⟨.string, "a\n'b", 1, 1⟩, .blank,
        .token [';', 'c'] ⟨.comment, "c", 2, 6⟩] [] := by
    rw [chars]
    have comment : Takes ⟨2, 6⟩ [';', 'c'] [.token [';', 'c'] ⟨.comment, "c", 2, 6⟩] [] :=
      @Takes.token _ _ _ _ ⟨.comment, "c", ['c'], []⟩ _ (by decide) rfl (.stop _ _)
    exact @Takes.token _ _ _ _ ⟨.string, _, ['a', '\n', '\\', '\'', 'b', '\''], [' ', ';', 'c']⟩ _
      (by decide) rfl (.blank comment)
  have closed : TextsClosed "'a\r\n\\'b' ;c" := by
    refine textsClosed_of_takes takes fun span token member isString => ?_
    simp only [List.mem_cons, Tile.token.injEq, List.not_mem_nil, or_false, reduceCtorEq,
      false_or] at member
    rcases member with ⟨rfl, -⟩ | ⟨-, rfl⟩
    · decide
    · cases isString
  refine ⟨closed, (lex_joined _ "1 #cs" (by decide +kernel) (by decide +kernel) closed).trans ?_⟩
  decide +kernel

end LineScript
