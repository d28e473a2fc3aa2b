import LineScript.Interpreter.Run
import LineScript.Proofs.Layout.Seek

/-!
# Structured scripts and what they mean

A script as a tree of statements, how it is written, and what it means by recursion on the tree.
-/

namespace LineScript

/-!
## Structured scripts

A script as a tree of statements, and the tokens it is written as. Only well-formed trees can be
built: every keyword is of its kind, headers and simple statements are made of plain tokens, and
every line has its end.
-/

namespace Structured

/-- A token of a kind. -/
structure Word (kind : TokenKind) where
  /-- The token. -/
  token : Token
  /-- It is of the kind. -/
  isKind : token.kind = kind

/-- The end of a line. -/
structure Ending where
  /-- The token. -/
  token : Token
  /-- It is a line end or a comment. -/
  endsLine : token.endsLine = true

/-- Plain tokens: a condition, the values of a case, a simple statement. -/
structure Phrase where
  /-- The tokens. -/
  tokens : List Token
  /-- All of them are plain. -/
  plain : ∀ token ∈ tokens, token.kind.isPlain = true

/-- A simple statement: a declaration, an assignment, a call, a jump, a loop of the table. -/
structure Sentence extends Phrase where
  /-- Its first token. -/
  nonempty : tokens ≠ []

/-- A choice whose only branch is a simple statement on the same line. -/
structure LineChoice where
  /-- The opening keyword. -/
  opener : Word .kwIf
  /-- The condition. -/
  condition : Phrase
  /-- The keyword that ends the condition. -/
  then' : Word .kwThen
  /-- The only branch. -/
  body : Sentence
  /-- The closing keyword, which may be left out. -/
  closer : Option (Word .kwEndIf)

mutual

/-- A statement that is not a choice on one line. -/
inductive Statement where
  /-- A simple statement. -/
  | simple (sentence : Sentence)
  /-- A choice over several lines. -/
  | choice (opener : Word .kwIf) (condition : Phrase) (then' : Word .kwThen) (body : Body)
      (branches : Branches) (closer : Word .kwEndIf)
  /-- A selection by value. -/
  | switch (opener : Word .kwSwitch) (subject : Phrase) (ending : Ending) (clauses : Clauses)
      (closer : Word .kwEndSwitch)
  /-- A selection by conditions. -/
  | select (opener : Word .kwSelect) (ending : Ending) (clauses : Clauses)
      (closer : Word .kwEndSelect)
  /-- A loop with its condition first. -/
  | whileLoop (opener : Word .kwWhile) (condition : Phrase) (body : Body) (closer : Word .kwWEnd)
  /-- A loop with its condition last. -/
  | doLoop (opener : Word .kwDo) (body : Body) (closer : Word .kwUntil) (condition : Phrase)

/-- Lines of statements. -/
inductive Block where
  /-- No more lines. -/
  | nil
  /-- A line without a statement. -/
  | blank (ending : Ending) (rest : Block)
  /-- A statement, with the end of its last line. -/
  | line (statement : Statement) (ending : Ending) (rest : Block)
  /-- A choice on one line. -/
  | choiceLine (choice : LineChoice) (ending : Word .eol) (rest : Block)

/-- What stands between two keywords: the end of the first one's line, and statements. -/
inductive Body where
  /-- A line end and lines. -/
  | mk (ending : Ending) (lines : Block)

/-- The branches of a choice after the first one. -/
inductive Branches where
  /-- No more branches. -/
  | done
  /-- A branch with a condition. -/
  | elseIf (word : Word .kwElseIf) (condition : Phrase) (then' : Word .kwThen) (body : Body)
      (rest : Branches)
  /-- The last resort. -/
  | otherwise (word : Word .kwElse) (body : Body)

/-- The clauses of a selection. -/
inductive Clauses where
  /-- No more clauses. -/
  | done
  /-- A clause with values or a condition. -/
  | case (word : Word .kwCase) (header : Phrase) (body : Body) (rest : Clauses)
  /-- A clause that always fits. -/
  | otherwise (word : Word .kwCase) (else' : Word .kwElse) (body : Body) (rest : Clauses)

end

/-- The tokens of a choice on one line. -/
def LineChoice.render (choice : LineChoice) : List Token :=
  choice.opener.token :: choice.condition.tokens ++
    (choice.then'.token :: choice.body.tokens ++ (choice.closer.map Word.token).toList)

mutual

/-- The tokens of a statement. -/
@[simp] def Statement.render : Statement → List Token
  | .simple sentence => sentence.tokens
  | .choice opener condition then' body branches closer =>
    opener.token :: condition.tokens ++
      (then'.token :: body.render ++ (branches.render ++ [closer.token]))
  | .switch opener subject ending clauses closer =>
    opener.token :: subject.tokens ++ (ending.token :: clauses.render ++ [closer.token])
  | .select opener ending clauses closer =>
    opener.token :: ending.token :: clauses.render ++ [closer.token]
  | .whileLoop opener condition body closer =>
    opener.token :: condition.tokens ++ (body.render ++ [closer.token])
  | .doLoop opener body closer condition =>
    opener.token :: body.render ++ (closer.token :: condition.tokens)

/-- The tokens of lines. -/
@[simp] def Block.render : Block → List Token
  | .nil => []
  | .blank ending rest => ending.token :: rest.render
  | .line statement ending rest => statement.render ++ (ending.token :: rest.render)
  | .choiceLine choice ending rest => choice.render ++ (ending.token :: rest.render)

/-- The tokens between two keywords. -/
@[simp] def Body.render : Body → List Token
  | .mk ending lines => ending.token :: lines.render

/-- The tokens of further branches. -/
@[simp] def Branches.render : Branches → List Token
  | .done => []
  | .elseIf word condition then' body rest =>
    word.token :: condition.tokens ++ (then'.token :: body.render ++ rest.render)
  | .otherwise word body => word.token :: body.render

/-- The tokens of clauses. -/
@[simp] def Clauses.render : Clauses → List Token
  | .done => []
  | .case word header body rest => word.token :: header.tokens ++ (body.render ++ rest.render)
  | .otherwise word else' body rest =>
    word.token :: else'.token :: body.render ++ rest.render

end

/-- The number of a choice's tokens. -/
def LineChoice.size (choice : LineChoice) : Nat := choice.render.length

/-- The number of a statement's tokens. -/
def Statement.size (statement : Statement) : Nat := statement.render.length

/-- The number of a block's tokens. -/
def Block.size (block : Block) : Nat := block.render.length

/-- The number of a body's tokens. -/
def Body.size (body : Body) : Nat := body.render.length

/-- The number of the branches' tokens. -/
def Branches.size (branches : Branches) : Nat := branches.render.length

/-- The number of the clauses' tokens. -/
def Clauses.size (clauses : Clauses) : Nat := clauses.render.length

/-- The number of a phrase's tokens. -/
def Phrase.size (phrase : Phrase) : Nat := phrase.tokens.length

/-- A simple statement has the size of its sentence. -/
@[simp] theorem Statement.size_simple (sentence : Sentence) :
    (Statement.simple sentence).size = sentence.size := by
  simp [Statement.size, Statement.render, Phrase.size]

/-- A conditional has the size of its parts. -/
@[simp] theorem Statement.size_choice (opener : Word .kwIf) (condition : Phrase)
    (then' : Word .kwThen) (body : Body) (branches : Branches) (closer : Word .kwEndIf) :
    (Statement.choice opener condition then' body branches closer).size =
      1 + condition.size + 1 + body.size + branches.size + 1 := by
  simp [Statement.size, Statement.render, Phrase.size, Body.size, Branches.size]
  omega

/-- A switch has the size of its parts. -/
@[simp] theorem Statement.size_switch (opener : Word .kwSwitch) (subject : Phrase)
    (ending : Ending) (clauses : Clauses) (closer : Word .kwEndSwitch) :
    (Statement.switch opener subject ending clauses closer).size =
      1 + subject.size + 1 + clauses.size + 1 := by
  simp [Statement.size, Statement.render, Phrase.size, Clauses.size]
  omega

/-- A selection has the size of its parts. -/
@[simp] theorem Statement.size_select (opener : Word .kwSelect) (ending : Ending)
    (clauses : Clauses) (closer : Word .kwEndSelect) :
    (Statement.select opener ending clauses closer).size = 2 + clauses.size + 1 := by
  simp [Statement.size, Statement.render, Clauses.size]
  omega

/-- A loop with its condition in front has the size of its parts. -/
@[simp] theorem Statement.size_whileLoop (opener : Word .kwWhile) (condition : Phrase)
    (body : Body) (closer : Word .kwWEnd) :
    (Statement.whileLoop opener condition body closer).size =
      1 + condition.size + body.size + 1 := by
  simp [Statement.size, Statement.render, Phrase.size, Body.size]
  omega

/-- A loop with its condition behind has the size of its parts. -/
@[simp] theorem Statement.size_doLoop (opener : Word .kwDo) (body : Body) (closer : Word .kwUntil)
    (condition : Phrase) :
    (Statement.doLoop opener body closer condition).size =
      1 + body.size + 1 + condition.size := by
  simp [Statement.size, Statement.render, Phrase.size, Body.size]
  omega

/-- No lines have no size. -/
@[simp] theorem Block.size_nil : Block.nil.size = 0 := rfl

/-- A blank line has the size of its end. -/
@[simp] theorem Block.size_blank (ending : Ending) (rest : Block) :
    (Block.blank ending rest).size = 1 + rest.size := by
  simp [Block.size, Block.render]
  omega

/-- A line has the size of its statement and its end. -/
@[simp] theorem Block.size_line (statement : Statement) (ending : Ending) (rest : Block) :
    (Block.line statement ending rest).size = statement.size + 1 + rest.size := by
  simp [Block.size, Block.render, Statement.size]
  omega

/-- A single-line conditional takes its own size and a line feed. -/
@[simp] theorem Block.size_choiceLine (choice : LineChoice) (ending : Word .eol) (rest : Block) :
    (Block.choiceLine choice ending rest).size = choice.size + 1 + rest.size := by
  simp [Block.size, Block.render, LineChoice.size]
  omega

/-- A body has the size of its first line end and its lines. -/
@[simp] theorem Body.size_mk (ending : Ending) (lines : Block) :
    (Body.mk ending lines).size = 1 + lines.size := by
  simp [Body.size, Body.render, Block.size]
  omega

/-- No branches have no size. -/
@[simp] theorem Branches.size_done : Branches.done.size = 0 := rfl

/-- An ElseIf branch has the size of its parts. -/
@[simp] theorem Branches.size_elseIf (word : Word .kwElseIf) (condition : Phrase)
    (then' : Word .kwThen) (body : Body) (rest : Branches) :
    (Branches.elseIf word condition then' body rest).size =
      1 + condition.size + 1 + body.size + rest.size := by
  simp [Branches.size, Branches.render, Phrase.size, Body.size]
  omega

/-- An Else branch has the size of its word and body. -/
@[simp] theorem Branches.size_otherwise (word : Word .kwElse) (body : Body) :
    (Branches.otherwise word body).size = 1 + body.size := by
  simp [Branches.size, Branches.render, Body.size]
  omega

/-- No clauses have no size. -/
@[simp] theorem Clauses.size_done : Clauses.done.size = 0 := rfl

/-- A Case clause has the size of its parts. -/
@[simp] theorem Clauses.size_case (word : Word .kwCase) (header : Phrase) (body : Body)
    (rest : Clauses) :
    (Clauses.case word header body rest).size = 1 + header.size + body.size + rest.size := by
  simp [Clauses.size, Clauses.render, Phrase.size, Body.size]
  omega

/-- A Case Else clause has the size of its two words and its body. -/
@[simp] theorem Clauses.size_otherwise (word : Word .kwCase) (else' : Word .kwElse) (body : Body)
    (rest : Clauses) :
    (Clauses.otherwise word else' body rest).size = 2 + body.size + rest.size := by
  simp [Clauses.size, Clauses.render, Body.size]
  omega

end Structured

/-!
## What a structured script means

The meaning of a tree, by recursion on the tree: no keyword is looked for and no block is matched
with its end. Simple statements and the expressions of headers mean what the engine of the same
fuel does with them; `window` and `pos` say where a part of the tree is written, so that scopes
stand where faults and later statements expect them. A body runs in a new block scope with less
fuel, and every statement, line end and end of a block takes a turn, before which a suspended
machine waits and an ending script stops.
-/

/-- Runs an action in a new innermost scope, which is taken off again however the action ends. -/
def Exec.within {α : Type} (scope : Scope) (action : Exec α) : Exec α := do
  let (outcome, _) ← Exec.inScope scope action
  Exec.ofAttempt outcome

namespace Structured

open Engine

/-- Takes a turn: waits while the machine is suspended, as long as looks are left, and goes on
unless the script is ending. -/
def turn (next : Nat → Exec Flow) : Nat → Exec Flow
  | 0 => Exec.starved
  | looks + 1 => do
    if ← isSuspended then turn next looks
    else if (← get).exitRequested then return .exit
    else next looks

/-- The innermost scope stands at a position, and the token is the one being executed. -/
def arrive (pos : Nat) (token : Token) : Exec Unit := do
  moveTo pos
  if 0 < token.line then modify fun machine => { machine with line := token.line }

/-- Runs what a keyword opens, with the innermost scope at the keyword while it runs and behind
the statement afterwards. -/
def covering (pos size : Nat) (opener : Token) (inner : Exec Flow) : Exec Flow := do
  arrive pos opener
  let flow ← inner
  moveTo (pos + size)
  return flow

/-- Runs the simple statement that the innermost scope stands at. -/
def simple (low : Engine) : Exec Flow := do
  match ← low.step with
  | .leave flow => return flow
  | _ => return .normal

/-- Runs a clause, and what follows it when control asks for the next clause. -/
def falling (clause next : Exec Flow) : Exec Flow := do
  match ← clause with
  | .continueCase => next
  | flow => return flow

/-- Rounds as long as a condition holds before them. -/
def roundsWhile (condition : Exec Value) (body : Exec Flow) : Nat → Exec Flow
  | 0 => Exec.starved
  | rounds + 1 => do
    if (← condition).asBool then
      match Round.ofFlow (← body) with
      | .leave flow => return flow
      | .done => return .normal
      | .next => roundsWhile condition body rounds
    else return .normal

/-- Rounds until a condition holds after them. -/
def roundsUntil (condition : Exec Value) (body : Exec Flow) : Nat → Exec Flow
  | 0 => Exec.starved
  | rounds + 1 => do
    match Round.ofFlow (← body) with
    | .leave flow => return flow
    | .done => return .normal
    | .next => if (← condition).asBool then return .normal else roundsUntil condition body rounds

/-- The value of a phrase written at a position. -/
def Phrase.value (low : Engine) (tokens : TokenBlock) (pos : Nat) (phrase : Phrase) : Exec Value :=
  low.whole (.slice tokens pos (pos + phrase.size))

/-- The values and ranges of a case written at a position. -/
def Phrase.items (low : Engine) (tokens : TokenBlock) (pos : Nat) (phrase : Phrase) :
    Exec (List CaseItem) :=
  low.caseItemsFrom (.slice tokens pos (pos + phrase.size)) low.fuel pos []

/-- The subject of a selection by value, which must be a complete phrase. -/
def Phrase.subject (low : Engine) (window : Window) (pos : Nat) (phrase : Phrase) :
    Exec Value := do
  let (subject, stop) ← low.value window pos
  match (phrase.tokens.drop (stop - pos)).head? with
  | some token => throw (.fault (.running (.beforeCase token.display) token.line []))
  | none => return subject

/-- The branch of a choice on one line: a simple statement in a block of its own. -/
def LineChoice.branch (fuel : Nat) (tokens : TokenBlock) (pos : Nat) (body : Sentence) :
    Exec Flow :=
  Exec.within (blockScope (.slice tokens pos (pos + body.size)) []) do
    match fuel with
    | 0 => Exec.starved
    | fuel + 1 =>
      turn (fun looks => do
        match ← simple (engine fuel) with
        | .normal => turn (fun _ => return .normal) looks
        | flow => return flow) fuel

/-- A choice on one line. -/
def LineChoice.exec (fuel : Nat) (window : Window) (pos : Nat) (choice : LineChoice) : Exec Flow :=
  covering pos choice.size choice.opener.token do
    let found := pos + 1 + choice.condition.size
    if (← choice.condition.value (engine fuel) window.tokens (pos + 1)).asBool then
      branch fuel window.tokens (found + 1) choice.body
    else return .normal

mutual

/-- A statement written at a position of a window. -/
def Statement.exec (fuel : Nat) (window : Window) (pos : Nat) : Statement → Exec Flow
  | .simple _ => simple (engine fuel)
  | .choice opener condition then' body branches closer =>
    covering pos (Statement.choice opener condition then' body branches closer).size
        opener.token do
      let found := pos + 1 + condition.size
      if (← condition.value (engine fuel) window.tokens (pos + 1)).asBool then
        body.run fuel window.tokens (found + 1)
      else branches.run fuel window.tokens (found + 1 + body.size)
  | .switch opener subject ending clauses closer =>
    covering pos (Statement.switch opener subject ending clauses closer).size opener.token do
      let first := pos + 1 + subject.size + 1
      let value ← subject.subject (engine fuel) window (pos + 1)
      let items ← clauses.items fuel window.tokens first
      let chosen := items.findIdx fun
        | none => true
        | some items => items.any (CaseItem.fits value)
      clauses.runFrom fuel window.tokens first chosen
  | .select opener ending clauses closer =>
    covering pos (Statement.select opener ending clauses closer).size opener.token
      (clauses.runFirst fuel window.tokens (pos + 2))
  | .whileLoop opener condition body closer =>
    covering pos (Statement.whileLoop opener condition body closer).size opener.token
      (roundsWhile (condition.value (engine fuel) window.tokens (pos + 1))
        (body.run fuel window.tokens (pos + 1 + condition.size)) (engine fuel).fuel)
  | .doLoop opener body closer condition =>
    covering pos (Statement.doLoop opener body closer condition).size opener.token
      (roundsUntil
        (condition.value (engine fuel) window.tokens (pos + 1 + body.size + 1))
        (body.run fuel window.tokens (pos + 1)) (engine fuel).fuel)

/-- Lines written from a position of a window on, with a number of looks at the suspension. -/
def Block.exec (fuel : Nat) (window : Window) : Block → Nat → Nat → Exec Flow
  | .nil, _, looks => turn (fun _ => return .normal) looks
  | .blank ending rest, pos, looks =>
    turn (fun looks => do
      arrive (pos + 1) ending.token
      rest.exec fuel window (pos + 1) looks) looks
  | .line statement ending rest, pos, looks =>
    turn (fun looks => do
      match ← statement.exec fuel window pos with
      | .normal =>
        turn (fun looks => do
          arrive (pos + statement.size + 1) ending.token
          rest.exec fuel window (pos + statement.size + 1) looks) looks
      | flow => return flow) looks
  | .choiceLine choice ending rest, pos, looks =>
    turn (fun looks => do
      match ← choice.exec fuel window pos with
      | .normal =>
        turn (fun looks => do
          arrive (pos + choice.size + 1) ending.token
          rest.exec fuel window (pos + choice.size + 1) looks) looks
      | flow => return flow) looks

/-- A body written from a position on, in a block scope of its own. -/
def Body.run (fuel : Nat) (tokens : TokenBlock) (pos : Nat) : Body → Exec Flow
  | .mk ending lines =>
    let window := Window.slice tokens pos (pos + 1 + lines.size)
    Exec.within (blockScope window []) do
      match fuel with
      | 0 => Exec.starved
      | fuel + 1 =>
        turn (fun looks => do
          arrive (pos + 1) ending.token
          lines.exec fuel window (pos + 1) looks) fuel

/-- The first of the further branches whose condition holds. -/
def Branches.run (fuel : Nat) (tokens : TokenBlock) (pos : Nat) : Branches → Exec Flow
  | .done => return .normal
  | .elseIf _ condition _ body rest => do
    let found := pos + 1 + condition.size
    if (← condition.value (engine fuel) tokens (pos + 1)).asBool then
      body.run fuel tokens (found + 1)
    else rest.run fuel tokens (found + 1 + body.size)
  | .otherwise _ body => body.run fuel tokens (pos + 1)

/-- The values of all clauses, evaluated once and in order. -/
def Clauses.items (fuel : Nat) (tokens : TokenBlock) (pos : Nat) :
    Clauses → Exec (List (Option (List CaseItem)))
  | .done => return []
  | .case _ header body rest => do
    let items ← header.items (engine fuel) tokens (pos + 1)
    return some items :: (← rest.items fuel tokens (pos + 1 + header.size + body.size))
  | .otherwise _ _ body rest => do
    return none :: (← rest.items fuel tokens (pos + 2 + body.size))

/-- The clause of a number, and the following ones as long as control asks for them. -/
def Clauses.runFrom (fuel : Nat) (tokens : TokenBlock) (pos : Nat) : Clauses → Nat → Exec Flow
  | .done, _ => return .normal
  | .case _ header body rest, chosen =>
    let later := rest.runFrom fuel tokens (pos + 1 + header.size + body.size)
    match chosen with
    | 0 => falling (body.run fuel tokens (pos + 1 + header.size)) (later 0)
    | chosen + 1 => later chosen
  | .otherwise _ _ body rest, chosen =>
    let later := rest.runFrom fuel tokens (pos + 2 + body.size)
    match chosen with
    | 0 => falling (body.run fuel tokens (pos + 2)) (later 0)
    | chosen + 1 => later chosen

/-- The first clause whose condition holds, and the following ones as long as control asks for
them. Conditions after it are not evaluated. -/
def Clauses.runFirst (fuel : Nat) (tokens : TokenBlock) (pos : Nat) : Clauses → Exec Flow
  | .done => return .normal
  | .case _ header body rest => do
    let next := pos + 1 + header.size + body.size
    if (← header.value (engine fuel) tokens (pos + 1)).asBool then
      falling (body.run fuel tokens (pos + 1 + header.size)) (rest.runFrom fuel tokens next 0)
    else rest.runFirst fuel tokens next
  | .otherwise _ _ body rest =>
    falling (body.run fuel tokens (pos + 2)) (rest.runFrom fuel tokens (pos + 2 + body.size) 0)

end

/-- A block that fills a window, in a block scope of its own with variables bound in it. -/
def Block.run (fuel : Nat) (window : Window) (bindings : List (String × Value)) (block : Block) :
    Exec Flow :=
  Exec.within (blockScope window bindings) do
    match fuel with
    | 0 => Exec.starved
    | fuel + 1 => block.exec fuel window window.start fuel

end Structured

end LineScript
