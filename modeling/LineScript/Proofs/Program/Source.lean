import LineScript.Program.Prepare
import LineScript.Proofs.Outcome

/-!
# Tokens of sources

No token that is read from a source carries the number of a table entry, and its punctuation is
spelled in the one way there is. Resolving includes and joining continued lines give tokens of
sources again, so these are what the tables of a program are made from.
-/

namespace LineScript

/-- Kinds that carry the number of a table entry. -/
def TokenKind.isEntry : TokenKind → Bool
  | call _ | userCall _ | loop _ => true
  | _ => false

/-- The one spelling of the punctuation around arguments. -/
def TokenKind.mark? : TokenKind → Option String
  | lparen => some "("
  | rparen => some ")"
  | separator => some ","
  | _ => none

/-- A kind and text that can be read from a source. -/
def isRead (kind : TokenKind) (lexeme : String) : Prop :=
  kind.isEntry = false ∧ ∀ mark, kind.mark? = some mark → lexeme = mark

/-- The token can be read from a source. -/
def Token.isSource (token : Token) : Prop := isRead token.kind token.lexeme

/-- All tokens can be read from a source. -/
def areSource (tokens : List Token) : Prop := ∀ token ∈ tokens, token.isSource

/-- No token carries the number of a table entry. -/
def areFree (tokens : List Token) : Prop := ∀ token ∈ tokens, token.kind.isEntry = false

/-- A list has no entries exactly when its first token is none and the others have none. -/
theorem areFree_cons {token : Token} {rest : List Token} :
    areFree (token :: rest) ↔ token.kind.isEntry = false ∧ areFree rest := List.forall_mem_cons

/-- Source tokens have no entries. -/
theorem areFree_of_areSource {tokens : List Token} (source : areSource tokens) : areFree tokens :=
  fun token member => (source token member).1

/-- A list is of source tokens exactly when its first token and the others are. -/
theorem areSource_cons {token : Token} {rest : List Token} :
    areSource (token :: rest) ↔ token.isSource ∧ areSource rest := List.forall_mem_cons

/-- Two lists are of source tokens exactly when each is. -/
theorem areSource_append {first rest : List Token} :
    areSource (first ++ rest) ↔ areSource first ∧ areSource rest := List.forall_mem_append

/-- Kinds without a mark and without a number are read with any text. -/
theorem isRead_of_plain {kind : TokenKind} {lexeme : String} (free : kind.isEntry = false)
    (unmarked : kind.mark? = none) : isRead kind lexeme :=
  ⟨free, fun mark is => by simp [unmarked] at is⟩

/-- Names and reserved words carry no number and are no marks. -/
theorem keyword?_isRead (name lexeme : String) :
    isRead ((keyword? name).getD ⟨.identifier, none⟩).kind lexeme := by
  cases found : keyword? name with
  | none => exact isRead_of_plain rfl rfl
  | some word =>
    have all : ∀ word ∈ reservedWords, word.kind.isEntry = false ∧ word.kind.mark? = none := by
      decide +kernel
    obtain ⟨free, unmarked⟩ := all word (mem_reservedWords found)
    exact isRead_of_plain free unmarked

namespace Lexer

/-- A scanned name is read as a source token. -/
theorem scanName_isRead (first : Char) (rest : List Char) :
    isRead (scanName first rest).kind (scanName first rest).lexeme := by
  simp only [scanName]
  exact keyword?_isRead _ _

/-- A scanned operator is read as a source token. -/
theorem scanOperator_isRead (first : Char) (rest : List Char) :
    isRead (scanOperator first rest).kind (scanOperator first rest).lexeme := by
  unfold scanOperator
  repeat' split
  all_goals exact isRead_of_plain rfl rfl

/-- Scanned digits are read as a source token. -/
theorem scanDigits_isRead (first : Char) (rest : List Char) :
    isRead (scanDigits first rest).kind (scanDigits first rest).lexeme := by
  unfold scanDigits scanNumber
  dsimp only
  repeat' split
  all_goals exact isRead_of_plain rfl rfl

/-- A scanned flag is read as a source token. -/
theorem scanFlag_isRead {line : Nat} {rest : List Char} {scanned : Scanned}
    (read : scanFlag line rest = .ok scanned) : isRead scanned.kind scanned.lexeme := by
  simp only [scanFlag] at read
  repeat' split at read
  all_goals cases read
  all_goals exact isRead_of_plain rfl rfl

/-- One token that was read. -/
theorem scan_isRead {line : Nat} {first : Char} {rest : List Char} {scanned : Scanned}
    (read : scan line first rest = .ok scanned) : isRead scanned.kind scanned.lexeme := by
  unfold scan at read
  split at read
  case h_4 => exact scanFlag_isRead read
  case h_13 =>
    repeat' split at read
    all_goals obtain rfl := Except.ok.inj read
    · exact isRead_of_plain rfl rfl
    · exact scanOperator_isRead first rest
    · exact scanDigits_isRead first rest
    · exact scanName_isRead first rest
    · exact isRead_of_plain rfl rfl
  case h_5 | h_7 =>
    unfold scanMarked at read
    split at read <;> cases read
    exact isRead_of_plain rfl rfl
  all_goals
    cases read
    first
    | exact isRead_of_plain rfl rfl
    | exact ⟨rfl, fun mark is => by cases is; rfl⟩

/-- The lexer gives source tokens. -/
theorem lexChars_areSource (place : Place) (chars : List Char) :
    areSource (lexChars place chars).tokens := by
  fun_induction lexChars place chars with
  | case1 => exact nofun
  | case2 place rest ih => exact ih
  | case3 => exact nofun
  | case4 place first rest _ scanned read token later ih =>
    exact areSource_cons.mpr ⟨scan_isRead read, ih⟩

end Lexer

/-- The tokens of a source can be read from a source. -/
theorem tokenize_areSource {source : String} {tokens : List Token}
    (read : tokenize source = .ok tokens) : areSource tokens := by
  unfold tokenize at read
  dsimp only at read
  split at read <;> cases read
  exact Lexer.lexChars_areSource _ _

namespace Include

variable {α β : Type}

/-- Whatever an action of including returns is as it should be. -/
def Gives (action : Including α) (post : α → Prop) : Prop :=
  ∀ before value after, action before = .ok value after → post value

/-- Returning a good value gives it. -/
theorem Gives.pure {value : α} {post : α → Prop} (holds : post value) :
    Gives (Pure.pure value : Including α) post := by
  intro before result after ran
  cases ran
  exact holds

/-- A refusal gives nothing. -/
theorem Gives.refuse {cause : PrepareCause} {line : Nat} {post : α → Prop} :
    Gives (Include.refuse cause line : Including α) post := nofun

/-- A sequence gives what its second part gives for every value of its first. -/
theorem Gives.bind {first : Including α} {next : α → Including β} {post : α → Prop}
    {later : β → Prop} (gives : Gives first post)
    (rest : ∀ value, post value → Gives (next value) later) : Gives (first >>= next) later := by
  intro before result after ran
  obtain ⟨value, middle, first, then'⟩ := run_bind_eq_ok.mp ran
  exact rest value (gives before value middle first) middle result after then'

/-- Every action gives something. -/
theorem Gives.any (action : Including α) : Gives action fun _ => True := fun _ _ _ _ => trivial

variable {host : Host} {stack : List String}

/-- A check made before an action. -/
theorem Gives.unless {condition : Prop} [Decidable condition] {cause : PrepareCause} {line : Nat}
    {action : Including α} {post : α → Prop} (gives : Gives action post) :
    Gives (do
      if condition then Include.refuse cause line
      action) post := by
  split
  · exact (Gives.refuse : Gives _ fun _ => False).bind fun _ never => never.elim
  · exact gives

/-- Splicing a file gives source tokens when expanding its tokens does. -/
theorem Gives.spliceFile {expand : List String → List Token → Including (List Token)}
    (expands : ∀ stack tokens, areSource tokens → Gives (expand stack tokens) areSource)
    (path : String) (line : Nat) : Gives (spliceFile host expand stack path line) areSource := by
  unfold Include.spliceFile Resolver.includeFile
  dsimp only [flat_step, flat_done, flat_token, flat_append]
  refine (Gives.any get).bind fun progress _ => ?_
  split
  · exact (Gives.any _).bind fun _ _ => .pure (List.forall_mem_nil _)
  · rw [pure_bind]
    refine .unless ?_
    split
    · exact .refuse
    · split
      · intro before value after ran
        cases ran
      · rename_i tokens read
        intro before value after ran
        unfold noteAfter at ran
        split at ran <;> cases ran
        rename_i expanded
        exact expands _ _ (tokenize_areSource read) _ _ _ expanded

/-- Expanding source tokens gives source tokens when each splice does. -/
theorem Gives.expandWith {splice : String → Nat → Including (List Token)} {current : String}
    (splices : ∀ path line, Gives (splice path line) areSource) :
    ∀ (tokens : List Token) (lineStart : Bool), areSource tokens →
      Gives (expandWith host splice current lineStart tokens) areSource
  | [], lineStart, _ => by
    unfold Include.expandWith Resolver.resolveWith
    dsimp only [flat_step, flat_done, flat_token, flat_append]
    exact .pure nofun
  | token :: rest, lineStart, source => by
    have here := areSource_cons.mp source
    have keeps : ∀ lineStart, Gives (do
        let later ← Include.expandWith host splice current lineStart rest
        return token :: later) areSource := fun lineStart =>
      (Gives.expandWith splices rest lineStart here.2).bind fun later held =>
        .pure (areSource_cons.mpr ⟨here.1, held⟩)
    unfold Include.expandWith Resolver.resolveWith
    dsimp only [flat_step, flat_done, flat_token, flat_append]
    split
    · refine .unless ?_
      exact (Gives.any _).bind fun _ _ => Gives.expandWith splices rest lineStart here.2
    · split
      · refine .unless ?_
        match rest with
        | [] => exact .refuse
        | named :: after =>
          refine (Gives.any _).bind fun path _ => ?_
          refine (splices _ _).bind fun spliced held => ?_
          refine (Gives.expandWith splices after false (areSource_cons.mp here.2).2).bind
            fun later heldLater => .pure ?_
          exact areSource_append.mpr ⟨held, areSource_cons.mpr
            ⟨isRead_of_plain rfl rfl, heldLater⟩⟩
      · split
        · exact .refuse
        · exact keeps token.endsLine

/-- Expanding source tokens gives source tokens. -/
theorem Gives.expand (fuel : Nat) (stack : List String) (tokens : List Token)
    (source : areSource tokens) : Gives (expand host fuel stack tokens) areSource := by
  induction fuel generalizing stack tokens with
  | zero =>
    cases tokens with
    | nil => exact .pure nofun
    | cons => exact .refuse
  | succ fuel ih =>
    exact .expandWith (fun path line => .spliceFile ih path line) tokens true source

end Include

/-- What is read after a continuation mark is still source tokens. -/
theorem Continuation.afterMark_areSource {line : Nat} {tokens rest : List Token}
    (read : afterMark line tokens = .ok rest) (source : areSource tokens) : areSource rest := by
  induction tokens with
  | nil => simp [afterMark] at read
  | cons token tail ih =>
    have here := areSource_cons.mp source
    simp only [afterMark] at read
    repeat' split at read
    · exact ih read here.2
    · cases read
      exact here.2
    · cases read

/-- Joined source tokens are source tokens. -/
theorem Continuation.join_areSource {tokens joined : List Token}
    (read : join tokens = .ok joined) (source : areSource tokens) : areSource joined := by
  fun_induction join tokens generalizing joined with
  | case1 => cases read; exact source
  | case2 token rest _ tail marked ih =>
    exact ih read (afterMark_areSource marked (areSource_cons.mp source).2)
  | case3 => cases read
  | case4 token rest _ later joinedRest ih =>
    cases read
    have here := areSource_cons.mp source
    exact areSource_cons.mpr ⟨here.1, ih joinedRest here.2⟩
  | case5 => cases read

/-- A program is what the passes make of the tokens, one after the other. -/
theorem Program.passes_of_prepare {host : Host} {script : String} {tokens : List Token}
    {program : Program} (prepared : (prepare host script tokens).result = .ok program) :
    ∃ resolved progress joined defined, Include.resolve host script tokens {} = .ok resolved progress ∧
      Continuation.join resolved = .ok joined ∧ assemble joined {} = .ok program defined := by
  unfold prepare at prepared
  split at prepared
  · cases prepared
  · rename_i resolved progress included
    simp only [prepareJoined] at prepared
    split at prepared
    · cases prepared
    · rename_i joined read
      split at prepared
      · rename_i defined assembled
        cases prepared
        exact ⟨resolved, progress, joined, defined, included, read, assembled⟩
      · cases prepared

/-- A program is assembled from tokens that can be read from a source. -/
theorem Program.prepare_eq_ok {host : Host} {script : String} {tokens : List Token}
    {program : Program} (source : areSource tokens)
    (prepared : (prepare host script tokens).result = .ok program) :
    ∃ joined defined, areSource joined ∧ assemble joined {} = .ok program defined := by
  obtain ⟨resolved, progress, joined, defined, included, read, assembled⟩ :=
    passes_of_prepare prepared
  have expanded := Include.Gives.expand _ _ _ source _ _ _ included
  exact ⟨joined, defined, Continuation.join_areSource read expanded, assembled⟩

end LineScript
