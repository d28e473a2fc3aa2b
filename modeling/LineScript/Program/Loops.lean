import LineScript.Fault.Report
import LineScript.Program.Basic

/-!
# Counting and collection loops

A loop that begins a line is taken out into the table of loops: its variable, its header
expressions, which end with the line, and its body up to the closing word. One token that carries
the loop's number stays. Loops inside a body are taken out first.
-/

namespace LineScript.Loops

/-- One expression of a loop header, up to a stopping word or the end of the line, and the tokens
from there on. -/
def headerTokens (stops : TokenKind → Bool) (part : String) : List Token →
    Except Fault (List Token × List Token)
  | [] => .ok ([], [])
  | token :: rest =>
    if token.endsLine || stops token.kind then .ok ([], token :: rest)
    else if
        token.kind = .kwTo ∨ token.kind = .kwStep ∨ token.kind = .kwFor ∨ token.kind = .kwIn then
      .error (.preparing (.forHeaderToken token.display part) token.line)
    else
      match headerTokens stops part rest with
      | .ok (expression, after) => .ok (token :: expression, after)
      | .error fault => .error fault

/-- Reading one part of a loop header never lengthens the remaining tokens. -/
theorem headerTokens_length_le {stops : TokenKind → Bool} {part : String}
    {tokens expression after : List Token}
    (read : headerTokens stops part tokens = .ok (expression, after)) :
    after.length ≤ tokens.length := by
  induction tokens generalizing expression after with
  | nil => simp_all [headerTokens]
  | cons token rest ih =>
    simp only [headerTokens] at read
    split at read
    · simp only [Except.ok.injEq, Prod.mk.injEq] at read
      simp [← read.2]
    · split at read
      · simp at read
      · split at read
        · rename_i inner
          simp only [Except.ok.injEq, Prod.mk.injEq] at read
          obtain ⟨_, rfl⟩ := read
          exact Nat.le_succ_of_le (ih inner)
        · simp at read

/-- One header expression, which must not be empty; `line` is the loop's. -/
def headerExpression (stops : TokenKind → Bool) (part : String) (line : Nat)
    (tokens : List Token) : Except Fault (TokenBlock × List Token) :=
  match headerTokens stops part tokens with
  | .error fault => .error fault
  | .ok (expression, after) =>
    if expression.isEmpty then .error (.preparing (.forHeaderEmpty part) line)
    else .ok (expression.toArray, after)

/-- The step of a counting loop, if it has one. -/
def stepPart (line : Nat) (tokens : List Token) :
    Except Fault (Option TokenBlock × List Token) :=
  match tokens with
  | token :: rest =>
    if token.kind = .kwStep then
      match headerExpression (fun _ => false) "step" line rest with
      | .ok (step, after) => .ok (some step, after)
      | .error fault => .error fault
    else .ok (none, tokens)
  | [] => .ok (none, tokens)

/-- The header of a counting loop after its equals sign. -/
def rangeHead (line : Nat) (tokens : List Token) : Except Fault (LoopHead × List Token) :=
  match headerExpression (· == .kwTo) "start index" line tokens with
  | .error fault => .error fault
  | .ok (_, []) => .error (.preparing .forTo line)
  | .ok (first, token :: rest) =>
    if token.kind = .kwTo then
      match headerExpression (· == .kwStep) "end index" line rest with
      | .error fault => .error fault
      | .ok (last, after) =>
        match stepPart line after with
        | .error fault => .error fault
        | .ok (step, after) => .ok (.range first last step, after)
    else .error (.preparing .forTo line)

/-- The header of a collection loop after its word. -/
def eachHead (line : Nat) (tokens : List Token) : Except Fault (LoopHead × List Token) :=
  match headerExpression (fun _ => false) "collection" line tokens with
  | .error fault => .error fault
  | .ok (collection, after) => .ok (.each collection, after)

/-- The variable and header of a loop, from the tokens after its opening word. -/
def header (line : Nat) (tokens : List Token) :
    Except Fault (String × LoopHead × List Token) :=
  match tokens with
  | index :: rest =>
    if index.kind = .variableName then
      match rest with
      | mark :: tail =>
        if mark.isOperator "=" then
          match rangeHead line tail with
          | .ok (head, after) => .ok (index.lexeme, head, after)
          | .error fault => .error fault
        else if mark.kind = .kwIn then
          match eachHead line tail with
          | .ok (head, after) => .ok (index.lexeme, head, after)
          | .error fault => .error fault
        else .error (.preparing .forAssignment line)
      | [] => .error (.preparing .forAssignment line)
    else .error (.preparing .forVariable line)
  | [] => .error (.preparing .forVariable line)

/-- Reading one expression of a loop header never lengthens the remaining tokens. -/
theorem headerExpression_length_le {stops : TokenKind → Bool} {part : String} {line : Nat}
    {tokens after : List Token} {block : TokenBlock}
    (read : headerExpression stops part line tokens = .ok (block, after)) :
    after.length ≤ tokens.length := by
  unfold headerExpression at read
  split at read
  · simp at read
  · rename_i inner
    split at read
    · simp at read
    · simp only [Except.ok.injEq, Prod.mk.injEq] at read
      obtain ⟨_, rfl⟩ := read
      exact headerTokens_length_le inner

/-- Reading the optional step never lengthens the remaining tokens. -/
theorem stepPart_length_le {line : Nat} {tokens after : List Token} {step : Option TokenBlock}
    (read : stepPart line tokens = .ok (step, after)) : after.length ≤ tokens.length := by
  unfold stepPart at read
  split at read
  · split at read
    · split at read
      · rename_i inner
        simp only [Except.ok.injEq, Prod.mk.injEq] at read
        obtain ⟨_, rfl⟩ := read
        exact Nat.le_succ_of_le (headerExpression_length_le inner)
      · simp at read
    · simp only [Except.ok.injEq, Prod.mk.injEq] at read
      simp [← read.2]
  · simp only [Except.ok.injEq, Prod.mk.injEq] at read
    simp [← read.2]

/-- Reading a counting header never lengthens the remaining tokens. -/
theorem rangeHead_length_le {line : Nat} {tokens after : List Token} {head : LoopHead}
    (read : rangeHead line tokens = .ok (head, after)) : after.length ≤ tokens.length := by
  unfold rangeHead at read
  split at read
  · simp at read
  · simp at read
  · rename_i inner
    have first := headerExpression_length_le inner
    split at read
    · split at read
      · simp at read
      · rename_i later
        have second := headerExpression_length_le later
        split at read
        · simp at read
        · rename_i last
          simp only [Except.ok.injEq, Prod.mk.injEq] at read
          obtain ⟨_, rfl⟩ := read
          have third := stepPart_length_le last
          simp only [List.length_cons] at first
          omega
    · simp at read

/-- Reading an iterating header never lengthens the remaining tokens. -/
theorem eachHead_length_le {line : Nat} {tokens after : List Token} {head : LoopHead}
    (read : eachHead line tokens = .ok (head, after)) : after.length ≤ tokens.length := by
  unfold eachHead at read
  split at read
  · simp at read
  · rename_i inner
    simp only [Except.ok.injEq, Prod.mk.injEq] at read
    obtain ⟨_, rfl⟩ := read
    exact headerExpression_length_le inner

/-- Reading a header leaves fewer tokens. -/
theorem header_length_le {line : Nat} {tokens after : List Token} {index : String}
    {head : LoopHead} (read : header line tokens = .ok (index, head, after)) :
    after.length ≤ tokens.length := by
  unfold header at read
  split at read
  · split at read
    · split at read
      · split at read
        · split at read
          · rename_i inner
            have := rangeHead_length_le inner
            simp only [Except.ok.injEq, Prod.mk.injEq] at read
            obtain ⟨_, _, rfl⟩ := read
            simp only [List.length_cons]
            omega
          · simp at read
        · split at read
          · split at read
            · rename_i inner
              have := eachHead_length_le inner
              simp only [Except.ok.injEq, Prod.mk.injEq] at read
              obtain ⟨_, _, rfl⟩ := read
              simp only [List.length_cons]
              omega
            · simp at read
          · simp at read
      · simp at read
    · simp at read
  · simp at read

/-- A loop whose closing word has not been reached. -/
structure OpenLoop where
  /-- The opening word. -/
  opener : Token
  /-- The loop's variable. -/
  index : String
  /-- What it goes through. -/
  head : LoopHead
  /-- The tokens of its body, last one first. -/
  body : List Token := []

/-- Where the reading stands. -/
structure State where
  /-- Loops that are not closed yet, innermost first. -/
  opened : List OpenLoop := []
  /-- Tokens outside all loops, last one first. -/
  out : List Token := []
  /-- Finished loops. -/
  loops : Array ForLoop := #[]

/-- Adds a token where the reading stands: to the innermost open loop or to the result. -/
def State.emit (state : State) (token : Token) : State :=
  match state.opened with
  | loop :: outer => { state with opened := { loop with body := token :: loop.body } :: outer }
  | [] => { state with out := token :: state.out }

/-- Closes the innermost open loop. Only a line end or a comment may follow the closing word. -/
def State.close (state : State) (closer : Token) (rest : List Token) : Except Fault State :=
  match state.opened with
  | [] => .error (.preparing .nextAlone closer.line)
  | loop :: outer =>
    let closed : State :=
      { state with
        opened := outer
        loops := state.loops.push
          { index := loop.index, head := loop.head, body := loop.body.reverse.toArray,
            line := loop.opener.line } }
    let token : Token := { loop.opener with kind := .loop state.loops.size, lexeme := "For" }
    match rest with
    | next :: _ =>
      if next.endsLine then .ok (closed.emit token)
      else .error (.preparing (.afterNext next.display) next.line)
    | [] => .ok (closed.emit token)

/-- Reads all tokens. `lineStart` says that the next token begins its line. Outside loops an opening
word must begin its line; inside a body one that does not is left where it is. -/
def scan (state : State) (lineStart : Bool) : List Token → Except Fault State
  | [] =>
    match state.opened with
    | loop :: _ => .error (.preparing .forOpen loop.opener.line)
    | [] => .ok state
  | token :: rest =>
    if token.kind = .kwFor ∧ lineStart then
      match _read : header token.line rest with
      | .error fault => .error fault
      | .ok (index, head, after) =>
        scan { state with opened := { opener := token, index, head } :: state.opened } false after
    else if token.kind = .kwFor ∧ state.opened.isEmpty then
      .error (.preparing .forInside token.line)
    else if token.kind = .kwNext then
      match state.close token rest with
      | .error fault => .error fault
      | .ok state => scan state false rest
    else scan (state.emit token) token.endsLine rest
termination_by tokens => tokens.length
decreasing_by
  · have := header_length_le ‹_›
    simp only [List.length_cons]
    omega
  · simp
  · simp

/-- The tokens with loops replaced, and the table of loops. -/
def extract (tokens : List Token) : Except Fault (List Token × Array ForLoop) := do
  let state ← scan {} true tokens
  return (state.out.reverse, state.loops)

end LineScript.Loops
