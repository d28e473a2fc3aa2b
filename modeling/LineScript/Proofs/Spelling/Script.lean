import LineScript.Proofs.Blocks.Accepted
import LineScript.Proofs.Rendition.Engine
import LineScript.Proofs.Run.Script
import LineScript.Proofs.Spelling.Functions
import LineScript.Proofs.Spelling.Source
import LineScript.Proofs.Text.Lower

/-!
# Sources that differ in case

The tokens of two sources are the same but for case if only names and reserved words are written with
other letters of the basic range. Words that declare and truth values have one spelling each once they
are read, so such sources are the same in small letters.
-/

namespace LineScript

/-- Kinds of tokens that are read from marked names and from reserved words. -/
def TokenKind.isWord : TokenKind → Bool
  | illegal | eol | extend | string | number | double | binary | comment | identifier => false
  | lparen | rparen | lbracket | rbracket | separator | operator => false
  | call _ | userCall _ | loop _ => false
  | _ => true

/-- The tokens are the same but for the case of a marked name, of a reserved word or of a name where
`named` says that names are those of functions. -/
structure Token.SameButCase (named : Bool) (token other : Token) : Prop where
  /-- They are of one kind. -/
  kind : other.kind = token.kind
  /-- They stand on one line. -/
  line : other.line = token.line
  /-- They stand at one place of the line. -/
  col : other.col = token.col
  /-- Their texts differ in case at most where that is allowed. -/
  lexeme : other.lexeme = token.lexeme ∨
    (token.kind.isWord = true ∨ token.kind = .identifier ∧ named = true) ∧
      Text.SameLetters token.lexeme other.lexeme

/-- The tokens of two sources are the same but for the case of marked names, of reserved words and of
the names of functions: those behind the word that opens a function, as `named` says of the start,
and those in front of an opening parenthesis. -/
def SameButCase (named : Bool) : List Token → List Token → Prop
  | [], [] => True
  | token :: rest, other :: others =>
    token.SameButCase (named || opensArguments rest) other ∧
      SameButCase (token.kind == .kwFunc) rest others
  | _, _ => False

instance (left right : String) : Decidable (Text.SameLetters left right) :=
  inferInstanceAs (Decidable (_ = _))

instance (named : Bool) (token other : Token) : Decidable (token.SameButCase named other) :=
  decidable_of_iff
    (other.kind = token.kind ∧ other.line = token.line ∧ other.col = token.col ∧
      (other.lexeme = token.lexeme ∨
        (token.kind.isWord = true ∨ token.kind = .identifier ∧ named = true) ∧
          Text.SameLetters token.lexeme other.lexeme))
    ⟨fun same => ⟨same.1, same.2.1, same.2.2.1, same.2.2.2⟩,
      fun same => ⟨same.kind, same.line, same.col, same.lexeme⟩⟩

instance SameButCase.decidable : (named : Bool) → (tokens others : List Token) →
    Decidable (SameButCase named tokens others)
  | _, [], [] => isTrue trivial
  | _, [], _ :: _ => isFalse id
  | _, _ :: _, [] => isFalse id
  | named, token :: rest, other :: others =>
    have := SameButCase.decidable (token.kind == .kwFunc) rest others
    inferInstanceAs (Decidable (token.SameButCase (named || opensArguments rest) other ∧
      SameButCase (token.kind == .kwFunc) rest others))

/-- The spellings of words that are given one spelling when they are read. -/
def TokenKind.spellings? : TokenKind → Option (List String)
  | kwScope => some ["Local", "Global", "Const", "Static"]
  | boolean => some ["True", "False"]
  | _ => none

/-- The text is one of the spellings, where its kind has such. -/
def isSpelled (kind : TokenKind) (lexeme : String) : Prop :=
  ∀ spellings, kind.spellings? = some spellings → lexeme ∈ spellings

/-- A kind that is not given one spelling. -/
theorem isSpelled_of_free {kind : TokenKind} {lexeme : String} (free : kind.spellings? = none) :
    isSpelled kind lexeme := fun spellings given => by rw [free] at given; cases given

/-- A reserved word of a kind with spellings is given one of them. -/
theorem keyword?_spelling {small : String} {word : Keyword} (found : keyword? small = some word) :
    word.kind.spellings?.all (fun spellings => word.spelling.any spellings.contains) = true := by
  have all : ∀ word ∈ reservedWords,
      word.kind.spellings?.all (fun spellings => word.spelling.any spellings.contains) = true := by
    decide +kernel
  exact all word (mem_reservedWords found)

namespace Lexer

/-- A scanned name is spelled as its kind asks. -/
theorem scanName_isSpelled (first : Char) (rest : List Char) :
    isSpelled (scanName first rest).kind (scanName first rest).lexeme := by
  unfold scanName
  dsimp only
  cases found : keyword? (Text.lower (String.ofList (first :: rest.takeWhile isNameChar))) with
  | none => exact isSpelled_of_free rfl
  | some word =>
    intro spellings given
    have spelled := keyword?_spelling found
    rw [Option.getD_some] at given
    rw [given, Option.all_some, Option.any_eq_true] at spelled
    obtain ⟨spelling, is, member⟩ := spelled
    rw [Option.getD_some, is, Option.getD_some]
    exact List.contains_iff_mem.mp member

/-- A scanned token is spelled as its kind asks. -/
theorem scan_isSpelled {line : Nat} {first : Char} {rest : List Char} {scanned : Scanned}
    (read : scan line first rest = .ok scanned) : isSpelled scanned.kind scanned.lexeme := by
  unfold scan at read
  split at read
  case h_4 =>
    unfold scanFlag at read
    dsimp only at read
    repeat' split at read
    all_goals cases read
    all_goals exact isSpelled_of_free rfl
  case h_13 =>
    repeat' split at read
    all_goals obtain rfl := Except.ok.inj read
    · exact isSpelled_of_free rfl
    · unfold scanOperator
      repeat' split
      all_goals exact isSpelled_of_free rfl
    · unfold scanDigits scanNumber
      dsimp only
      repeat' split
      all_goals exact isSpelled_of_free rfl
    · exact scanName_isSpelled first rest
    · exact isSpelled_of_free rfl
  case h_5 | h_7 =>
    unfold scanMarked at read
    split at read <;> cases read
    exact isSpelled_of_free rfl
  all_goals
    cases read
    exact isSpelled_of_free rfl

/-- The lexer spells all tokens as their kinds ask. -/
theorem lexChars_isSpelled (place : Place) (chars : List Char) :
    ∀ token ∈ (lexChars place chars).tokens, isSpelled token.kind token.lexeme := by
  fun_induction lexChars place chars with
  | case1 => exact List.forall_mem_nil _
  | case2 place rest ih => exact ih
  | case3 => exact List.forall_mem_nil _
  | case4 place first rest _ scanned read token later ih =>
    exact List.forall_mem_cons.mpr ⟨scan_isSpelled read, ih⟩

end Lexer

/-- Spellings that differ in case are the same spelling. -/
theorem eq_of_isSpelled {kind : TokenKind} {left right : String} (first : isSpelled kind left)
    (second : isSpelled kind right) (given : kind.spellings?.isSome = true)
    (same : Text.SameLetters left right) : right = left := by
  obtain ⟨spellings, given⟩ := Option.isSome_iff_exists.mp given
  have distinct : ∀ left ∈ spellings, ∀ right ∈ spellings, Text.SameLetters left right →
      right = left := by
    unfold TokenKind.spellings? at given
    split at given <;> cases given <;> decide
  exact distinct left (first _ given) right (second _ given) same

/-- Words that are not given one spelling are put in small letters. -/
theorem isVerbatim_of_isWord {kind : TokenKind} (isWord : kind.isWord = true)
    (free : kind.spellings?.isSome = false) : kind.isVerbatim = false := by
  cases kind <;> first | rfl | cases isWord; done | cases free

/-- Tokens that are the same but for case are the same in small letters. -/
theorem Token.SameButCase.spelledAlike {named : Bool} {token other : Token}
    (same : token.SameButCase named other) (first : isSpelled token.kind token.lexeme)
    (second : isSpelled other.kind other.lexeme) : token.SpelledAlike named other := by
  obtain ⟨kind, lexeme, line, col⟩ := token
  obtain ⟨kind', lexeme', line', col'⟩ := other
  obtain ⟨rfl, rfl, rfl, rfl | ⟨allowed, letters⟩⟩ := same
  · rfl
  · dsimp only at allowed letters first second
    cases given : kind'.spellings?.isSome with
    | true =>
      rw [eq_of_isSpelled first second given letters]
      rfl
    | false =>
      have respelled : (kind'.isVerbatim && !(named && kind' == .identifier)) = false := by
        rcases allowed with isWord | ⟨rfl, rfl⟩
        · rw [isVerbatim_of_isWord isWord given]
          rfl
        · rfl
      simp only [Token.SpelledAlike, Token.small, respelled, Bool.false_eq_true, if_false,
        Text.lower_eq_of_sameLetters letters]

/-- Tokens that differ only in case are spelled alike. -/
theorem SameButCase.spelledAlike {named : Bool} {tokens others : List Token}
    (same : SameButCase named tokens others)
    (first : ∀ token ∈ tokens, isSpelled token.kind token.lexeme)
    (second : ∀ token ∈ others, isSpelled token.kind token.lexeme) :
    SpelledAlike named tokens others := by
  induction tokens generalizing named others with
  | nil =>
    cases others with
    | nil => rfl
    | cons other others => exact same.elim
  | cons token rest ih =>
    cases others with
    | nil => exact same.elim
    | cons other others =>
      obtain ⟨begins, later⟩ := same
      obtain ⟨head, tail⟩ := List.forall_mem_cons.mp first
      obtain ⟨head', tail'⟩ := List.forall_mem_cons.mp second
      exact .cons (begins.spelledAlike head head') id (ih later tail tail')

/-- The tokens of sources that are the same but for case are the same in small letters. -/
theorem lex_spelledAlike {source other : String}
    (same : SameButCase false (lex source).tokens (lex other).tokens) :
    SpelledAlike false (lex source).tokens (lex other).tokens :=
  same.spelledAlike (Lexer.lexChars_isSpelled _ _) (Lexer.lexChars_isSpelled _ _)

/-!
## Programs and scripts do not see case

The check of blocks asks for kinds of tokens only. It accepts no list in which a function is opened,
so in a program that was prepared no name stands behind the word for one. Sources that are alike in
small letters give programs that are the same in small letters, or faults that tell as much.
-/

namespace Structure

variable {tokens other : TokenBlock} (same : tokens.Respelled other)

/-- Closing a block does not depend on case. -/
theorem closeBlock_small (blocks : List OpenBlock) (token : Token) (named : Bool) :
    Tells Eq (closeBlock blocks token) (closeBlock blocks (token.small named)) := by
  unfold closeBlock
  rw [Token.kind_small, Token.line_small]
  split
  · exact .error (.preparing _ _ _)
  · split
    · exact .ok rfl
    · exact .error (.preparing _ _ _)

include same

/-- A step of the checker does not depend on case. -/
theorem step_respelled (pos : Nat) (token : Token) (named : Bool) (blocks : List OpenBlock)
    (skip : Option Nat) :
    Tells Eq (step tokens pos token blocks skip) (step other pos (token.small named) blocks skip) := by
  unfold step
  dsimp only
  simp only [Token.kind_small, Token.line_small, same.size, same.kinds.findThen,
    same.kinds.isSingleLineIf, same.kinds.trailingEndIf,
    same.kinds.hasKind]
  split
  case h_9 | h_10 | h_11 | h_12 | h_13 =>
    refine (closeBlock_small blocks token named).bind fun closed _ kept => ?_
    subst kept
    exact .ok rfl
  all_goals
    repeat' split
    all_goals
      first
      | exact .ok rfl
      | exact .error (.preparing _ _ _)

/-- Checking from a position does not depend on case. -/
theorem checkFrom_respelled (pos : Nat) (blocks : List OpenBlock) (skip : Option Nat) :
    Tells Eq (checkFrom tokens pos blocks skip) (checkFrom other pos blocks skip) := by
  induction left : tokens.size - pos using Nat.strongRecOn generalizing pos blocks skip with
  | ind left ih =>
    subst left
    rw [checkFrom.eq_def tokens, checkFrom.eq_def other]
    by_cases inside : pos < tokens.size
    · have within : pos < other.size := same.size ▸ inside
      obtain ⟨named, spelled⟩ := same.token pos
      rw [Array.getElem?_eq_getElem inside, Array.getElem?_eq_getElem within] at spelled
      have token : other[pos] = tokens[pos].small named := Option.some.inj spelled
      rw [dif_pos inside, dif_pos within, token]
      split
      · exact ih _ (by omega) _ _ _ rfl
      · refine (step_respelled same pos tokens[pos] named blocks skip).elim (fun _ _ => .error)
          fun effect _ kept => ?_
        subst kept
        exact ih _ (by split <;> omega) _ _ _ rfl
    · rw [dif_neg inside, dif_neg (same.size ▸ inside)]
      exact .refl _

/-- Checking a block does not depend on case. -/
theorem check_respelled : Tells Eq (check tokens) (check other) := checkFrom_respelled same 0 [] none

omit same in
/-- Where no function is opened there is one way to put tokens in small letters. -/
theorem smallGroup_of_check (checked : check tokens = .ok ()) : tokens.smallGroup = tokens.small := by
  have closed : ∀ token ∈ tokens.toList, token.kind ≠ .kwFunc := fun token member => by
    obtain ⟨pos, inside, rfl⟩ := List.mem_iff_getElem.mp member
    exact Blocks.not_func_of_check checked
      (show tokens[pos]? = some _ by rw [← Array.getElem?_toList, List.getElem?_eq_getElem inside])
  have pointwise (list : List Token) (closed : ∀ token ∈ list, token.kind ≠ .kwFunc) :
      smallList false list = list.map (Token.small false) := by
    induction list with
    | nil => rfl
    | cons token rest ih =>
      have head := closed token List.mem_cons_self
      rw [smallList, show (token.kind == .kwFunc) = false by simpa using head,
        ih fun token member => closed token (List.mem_cons_of_mem _ member)]
      rfl
  rw [TokenBlock.smallGroup, pointwise _ closed, TokenBlock.small, ← Array.toList_map]

end Structure

namespace Program

/-- Checking a program does not depend on case. -/
theorem check_small (program : Program) :
    Tells Eq program.check (check
      { tokens := program.tokens.small, functions := smallTable program.functions
        calls := program.calls.map CallSite.small, loops := program.loops.map ForLoop.smallGroup }) := by
  unfold check
  dsimp only
  refine (Structure.check_respelled program.tokens.respelled_small).bind fun _ _ _ => ?_
  rw [Array.toList_map]
  have loops : Tells Eq (program.loops.toList.forM fun loop => Structure.check loop.body)
      ((program.loops.toList.map ForLoop.smallGroup).forM fun loop => Structure.check loop.body) := by
    refine .forM (fun loop => ?_) _
    exact Structure.check_respelled loop.body.respelled_smallGroup
  refine loops.bind fun _ _ _ => ?_
  refine .forM (fun entry => ?_) _
  exact Structure.check_respelled entry.2.body.respelled_small

/-- The loops of a program that was checked. -/
theorem smallGroup_loops {program : Program} (checked : program.check = .ok ()) :
    program.loops.map ForLoop.smallGroup = program.loops.map ForLoop.small := by
  obtain ⟨⟨⟩, _, checked⟩ := bind_eq_ok.mp checked
  obtain ⟨⟨⟩, loops, _⟩ := bind_eq_ok.mp checked
  refine Array.map_congr_left fun loop member => ?_
  rw [ForLoop.smallGroup, Structure.smallGroup_of_check
    (check_of_forM loops loop (Array.mem_toList_iff.mpr member))]
  rfl

open Functions

/-- A pure outcome ends alike beside tables that are alike. -/
theorem liftExcept_alike {α β : Type} {agree : α → β → Prop} {left : Except Fault α}
    {right : Except Fault β} (tells : Tells agree left right) {defined other : Defined}
    (same : defined.IsSmall other) :
    EndAlike Fault.Alike Defined.IsSmall agree (assemble.liftExcept left defined)
      (assemble.liftExcept right other) := by
  cases tells with
  | ok held => exact .ok held same
  | error alike => exact .error alike same

/-- The passes make of a source in small letters the program in small letters. -/
theorem assemble_small (tokens : List Token) :
    EndAlike Fault.Alike Defined.IsSmall (fun program other => other = program.small)
      (assemble tokens {}) (assemble (smallSource false tokens) {}) := by
  have start : Defined.IsSmall {} {} := rfl
  unfold assemble
  refine (liftExcept_alike (CallSites.extract_small tokens) start).bind
    fun calls other defined table same kept => ?_
  subst same
  refine (liftExcept_alike (Loops.extract_small calls.1) kept).bind
    fun loops other defined table same kept => ?_
  subst same
  refine EndAlike.bind (scan_small true loops.1 kept) fun left other defined table same kept => ?_
  subst same
  refine .get ?_
  have checks := (check_small
    { tokens := left.toArray, functions := defined.functions, calls := calls.2, loops := loops.2 }).returned
  have tokens : TokenBlock.small left.toArray = (left.map (Token.small false)).toArray := by
    simp [TokenBlock.small]
  rw [tokens, ← kept] at checks
  refine (liftExcept_alike checks kept).bind fun _ _ _ _ checked after => .ok ?_ after
  rw [Program.small, tokens, ← smallGroup_loops checked.2]
  exact congrArg (Program.mk _ · _ _) kept

/-- The passes make of sources that are alike programs that are the same in small letters. -/
theorem prepareJoined_alike {tokens others : List Token} (alike : SpelledAlike false tokens others) :
    Tells (fun program other => other.small = program.small) (prepareJoined tokens).result
      (prepareJoined others).result := by
  unfold prepareJoined
  refine (Continuation.join_alike alike).elim (fun _ _ => .error) fun joined result same => ?_
  have other := assemble_small result
  rw [same] at other
  have assembled := EndAlike.meet (fun _ _ _ first second => first.trans second.symm)
    (assemble_small joined) other
  dsimp only
  generalize assemble joined {} = outcome at assembled ⊢
  generalize assemble result {} = echo at assembled ⊢
  cases assembled with
  | ok held =>
    obtain ⟨program, rfl, same⟩ := held
    exact .ok same.symm
  | error alike => exact .error alike

/-- Preparation of tokens that are spelled alike gives programs alike in small letters. -/
theorem prepare_alike (host : Host) (script : String) {tokens others : List Token}
    (alike : SpelledAlike false tokens others) :
    Tells (fun program other => other.small = program.small) (prepare host script tokens).result
      (prepare host script others).result := by
  have resolved := Include.resolve_alike host script alike {}
  unfold prepare
  generalize Include.resolve host script tokens {} = outcome at resolved ⊢
  generalize Include.resolve host script others {} = echo at resolved ⊢
  cases resolved with
  | ok held => exact prepareJoined_alike held
  | error alike => exact .error alike

end Program

/-!
## Scripts do not see case

Sources whose tokens differ only in the case of names and reserved words are alike in small letters.
They are prepared alike, and no part of the interpreter tells the machines apart, so their runs end
alike: with the same result or with faults of one class and line, and with the same variables, heap,
output and exit code.
-/

open Machine Exec

/-- Reasons to stop that tell as much as a third one tell as much as each other. -/
theorem Stop.Renders.meet {stop other last : Stop} (first : stop.Renders True last)
    (second : other.Renders True last) : stop.Alike other := by
  have alike {stop : Stop} (same : stop.Renders True last) : stop.Alike last := by
    rcases same with rfl | ⟨_, alike⟩
    · exact .refl _
    · exact alike
  exact (alike first).meet (alike second)

/-- The machines are the same in small letters, apart from what their consoles show. -/
def Machine.SpelledAlike (machine other : Machine) : Prop :=
  ∃ small, machine.Renders True [] small ∧ other.Renders True [] small

/-- What does not tell renditions apart does the same to machines that are alike. -/
theorem Machine.SpelledAlike.ends {α : Type} {machine other : Machine}
    (alike : machine.SpelledAlike other) {action : Exec α} (echoes : Echoes True [] Eq action action) :
    EndAlike Stop.Alike Machine.SpelledAlike Eq (action machine) (action other) := by
  obtain ⟨small, first, second⟩ := alike
  have meet (stop other last : Stop) (first : stop.Renders True last)
      (second : other.Renders True last) : stop.Alike other := first.meet second
  refine (EndAlike.meet meet (echoes machine small first) (echoes other small second)).mono ?_
    fun _ _ => id
  rintro value result ⟨middle, rfl, rfl⟩
  rfl

namespace Machine

/-- The exit handler does not tell renditions apart. -/
theorem blind_runExitHandler (respells : Prop) (fuel : Nat) :
    (runExitHandler fuel).Blind respells := by
  unfold Machine.runExitHandler Machine.runExitHandlerBy
  refine .get (fun renders => by cases renders; rfl) fun machine => ?_
  split
  · exact .pure _
  · rename_i name _
    refine .bind (.modify fun _ _ _ _ => rfl) fun _ => .bind (.trace _) fun _ => ?_
    refine .bind (.modify fun _ _ _ _ => rfl) fun _ shifts => ?_
    refine .bind (.attempt ((engine_echoes respells fuel).call [] machine.line (.refl name)))
      fun outcome other ended => ?_
    refine .andThen (Blind.modify (fun _ _ _ _ => rfl) shifts) fun _ => ?_
    exact .andThen (.ofAttempt ended) fun _ => .pure rfl

/-- Going back to the start does not tell renditions apart. -/
theorem steady_rewind : Steady Scope.rewind := by
  rintro respells shift scope _ ⟨same, copies⟩
  have renders := @Scope.Renders.mk _ _ scope.rewind _ _ same copies
  rwa [show shift + scope.rewind.pos = _ from copies.start.symm] at renders

/-- The machine with nothing but its script's scope, in small letters and with another console. -/
def small (console : Console) (machine : Machine) : Machine :=
  { machine with
    stack := { root := machine.stack.root.small }, program := machine.program.small
    host := { machine.host with console } }

/-- A machine that makes no call shows itself in small letters. -/
theorem Renders.of_small {machine small : Machine} (console : Console)
    (alone : machine.stack.inner = []) (same : small = machine.small console) :
    machine.Renders True [] small := by
  subst same
  refine .mk ⟨?_, .inr ⟨trivial, .small trivial _⟩⟩ (.inr ⟨trivial, rfl⟩) (.inr trivial)
  rw [alone]
  exact .nil

/-- Machines of tokens that are spelled alike are prepared alike. -/
theorem prepare_spelledAlike (host : Host) (path : String) {tokens others : List Token}
    (alike : LineScript.SpelledAlike false tokens others) :
    EndAlike Stop.Alike Machine.SpelledAlike Eq (prepare (ofTokens host path tokens))
      (prepare (ofTokens host path others)) := by
  obtain ⟨console, prepared⟩ := prepare_eq (ofTokens host path tokens)
  obtain ⟨console', prepared'⟩ := prepare_eq (ofTokens host path others)
  have outcome := Program.prepare_alike host (host.absolutePath path) alike
  rw [prepared, prepared']
  dsimp only [ofTokens]
  refine outcome.elim (fun fault other alike => ?_) fun program other same => ?_
  · refine .error (.fault alike) ⟨_, .refl _, ?_⟩
    exact .mk ⟨.refl _, .inl rfl⟩ (.refl _) (.inr trivial)
  · have tokens : other.tokens.small = program.tokens.small := congrArg Program.tokens same
    have code : (Window.whole other.tokens).small = (Window.whole program.tokens).small := by
      rw [← Window.small_whole, ← Window.small_whole, tokens]
    refine .ok rfl ⟨_, .of_small console rfl rfl, .of_small console rfl ?_⟩
    simp only [Machine.small, Scope.small, Scope.rewind, same, code]
    rfl

/-- Machines of tokens that are spelled alike run alike. -/
theorem run_spelledAlike (fuel : Nat) (host : Host) (path : String) {tokens others : List Token}
    (alike : LineScript.SpelledAlike false tokens others) :
    EndAlike Stop.Alike Machine.SpelledAlike Eq (run fuel (ofTokens host path tokens))
      (run fuel (ofTokens host path others)) := by
  unfold run
  refine .get ?_
  refine (prepare_spelledAlike host path alike).bind fun _ _ after last _ kept => ?_
  refine kept.ends (.andThen (Blind.modify (fun _ _ _ _ => rfl) _) fun _ => ?_)
  refine .get fun machine last renders => ?_
  have path : last.scriptPath = machine.scriptPath := by cases renders; rfl
  rw [path]
  refine .andThen (Blind.trace _ _) fun _ => ?_
  refine .bind (.attempt ((engine_echoes True fuel).runScope [])) fun outcome other ended => ?_
  refine .andThen (.modify fun machine last renders => ?_) fun _ => ?_
  · have root := renders.stack.root.change steady_rewind
    cases renders with
    | mk placed programs shown => exact @Renders.mk _ _ machine.rewound _ _ _ ⟨.nil, root⟩ programs shown
  · refine .andThen (.ofAttempt ended) fun _ => .andThen (Blind.trace _ _) fun _ => ?_
    exact blind_runExitHandler True fuel []

/-- What a script leaves behind on two machines is the same. -/
structure LeavesSame (machine other : Machine) : Prop where
  /-- Everything written to standard output. -/
  stdout : other.stdout = machine.stdout
  /-- Everything written to the error stream. -/
  stderr : other.stderr = machine.stderr
  /-- The exit code. -/
  exitCode : other.exitCode = machine.exitCode
  /-- The heap. -/
  heap : other.heap = machine.heap
  /-- The variables of all scopes. -/
  vars : other.stack.scopes.map Scope.vars = machine.stack.scopes.map Scope.vars

/-- A rendition leaves the same behind. -/
theorem Renders.leavesSame {machine other : Machine} (renders : machine.Renders True [] other) :
    machine.LeavesSame other where
  stdout := by cases renders; rfl
  stderr := by cases renders; rfl
  exitCode := by cases renders; rfl
  heap := renders.heap
  vars := by
    have inner := renders.stack.inner.map Scope.vars fun same => same.vars
    rw [Stack.scopes, Stack.scopes, List.map_append, List.map_append, inner]
    exact congrArg _ (congrArg (fun vars => [vars]) renders.stack.root.renders.vars)

/-- Machines that are spelled alike leave the same behind. -/
theorem SpelledAlike.leavesSame {machine other : Machine} (alike : machine.SpelledAlike other) :
    machine.LeavesSame other := by
  obtain ⟨small, first, second⟩ := alike
  have left := first.leavesSame
  have right := second.leavesSame
  exact {
    stdout := right.stdout.symm.trans left.stdout
    stderr := right.stderr.symm.trans left.stderr
    exitCode := right.exitCode.symm.trans left.exitCode
    heap := right.heap.symm.trans left.heap
    vars := right.vars.symm.trans left.vars }

/-- Scripts do not see case: sources whose tokens are the same but for the case of names and reserved
words, run as the script at one path on one host, end alike. Either both return or both stop, with
faults of one class and line, and they leave the same output, exit code, heap and variables. -/
theorem run_caseless (fuel : Nat) (host : Host) (path : String) {source other : String}
    (tokens : SameButCase false (lex source).tokens (lex other).tokens)
    (fault : (lex other).fault = (lex source).fault) :
    Tells (fun machine result => EndAlike Stop.Alike LeavesSame Eq (run fuel machine) (run fuel result))
      (ofSource host path source) (ofSource host path other) := by
  have read : Tells (fun tokens others => LineScript.SpelledAlike false tokens others) (tokenize source)
      (tokenize other) := by
    unfold tokenize
    dsimp only
    rw [fault]
    split
    · exact .error (.refl _)
    · exact .ok (lex_spelledAlike tokens)
  refine read.bind fun tokens others alike => .ok ?_
  exact (run_spelledAlike fuel host path alike).mono (fun _ _ => id) fun _ _ => SpelledAlike.leavesSame

/-- What a script has written when it has run. -/
def written? (fuel : Nat) (source : String) : Option String :=
  (ofSource {} "main" source).toOption.bind fun machine =>
    match run fuel machine with
    | .ok _ after => some after.stdout
    | .error _ _ => none

/-- A script with a function, a variable, a macro and reserved words in two spellings writes the same
in both. -/
theorem run_caseless_twice :
    SameButCase false
        (lex "Func Twice($n)\nReturn $n * 2\nEndFunc\n$Sum = Twice(21)\nConsoleWrite($Sum & @LF)\n").tokens
        (lex "FUNC twice($N)\nreturn $n * 2\nEndfunc\n$sum = TWICE(21)\nconsolewrite($SUM & @lf)\n").tokens ∧
      written? 40 "Func Twice($n)\nReturn $n * 2\nEndFunc\n$Sum = Twice(21)\nConsoleWrite($Sum & @LF)\n" =
        some "42\n" ∧
      Tells (fun machine result => EndAlike Stop.Alike LeavesSame Eq (run 40 machine) (run 40 result))
        (ofSource {} "main"
          "Func Twice($n)\nReturn $n * 2\nEndFunc\n$Sum = Twice(21)\nConsoleWrite($Sum & @LF)\n")
        (ofSource {} "main"
          "FUNC twice($N)\nreturn $n * 2\nEndfunc\n$sum = TWICE(21)\nconsolewrite($SUM & @lf)\n") := by
  have tokens : SameButCase false
      (lex "Func Twice($n)\nReturn $n * 2\nEndFunc\n$Sum = Twice(21)\nConsoleWrite($Sum & @LF)\n").tokens
      (lex "FUNC twice($N)\nreturn $n * 2\nEndfunc\n$sum = TWICE(21)\nconsolewrite($SUM & @lf)\n").tokens := by
    decide +kernel
  exact ⟨tokens, by decide +kernel, run_caseless 40 {} "main" tokens (by decide +kernel)⟩

end Machine

end LineScript
