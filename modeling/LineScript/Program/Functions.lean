import LineScript.Fault.Report
import LineScript.Program.Basic

/-!
# Functions

Functions are taken out of the tokens into the table of functions, each under its name in small
letters. A parameter list names each parameter once, and parameters with a default come last.
-/

namespace LineScript.Functions

/-- The expression of a default, up to a comma or parenthesis that belongs to the parameter list
or the end of the line, and the tokens from there on. `depth` counts open brackets. -/
def fallbackTokens (depth : Nat) : List Token → List Token × List Token
  | [] => ([], [])
  | token :: rest =>
    let go (depth : Nat) :=
      let (expression, after) := fallbackTokens depth rest
      (token :: expression, after)
    match token.kind with
    | .separator => if depth = 0 then ([], token :: rest) else go depth
    | .rparen => if depth = 0 then ([], token :: rest) else go (depth - 1)
    | .lparen | .lbracket => go (depth + 1)
    | .rbracket => go (depth - 1)
    | .eol | .comment => ([], token :: rest)
    | _ => go depth

/-- The tokens left after a default value are a tail of the tokens before it. -/
theorem fallbackTokens_length_le (depth : Nat) (tokens : List Token) :
    (fallbackTokens depth tokens).2.length ≤ tokens.length := by
  induction tokens generalizing depth with
  | nil => simp [fallbackTokens]
  | cons token rest ih =>
    have step (depth : Nat) : (fallbackTokens depth rest).2.length ≤ rest.length + 1 :=
      Nat.le_succ_of_le (ih depth)
    simp only [fallbackTokens]
    repeat' split
    all_goals first | exact step _ | exact Nat.le_refl _

/-- The default after a parameter's name, if it has one. -/
def fallback? (name function : String) (line : Nat) (earlier : List Param) (tokens : List Token) :
    Except Fault (Option TokenBlock × List Token) :=
  let required : Except Fault (Option TokenBlock × List Token) :=
    if earlier.any (·.fallback.isSome) then
      .error (.preparing (.parameterOrder name function) line)
    else .ok (none, tokens)
  match tokens with
  | token :: rest =>
    if token.isOperator "=" then
      let (expression, after) := fallbackTokens 0 rest
      if expression.isEmpty then .error (.preparing (.parameterDefault name function) line)
      else .ok (some expression.toArray, after)
    else required
  | [] => required

/-- Reading an optional default never lengthens the remaining tokens. -/
theorem fallback?_length_le {name function : String} {line : Nat} {earlier : List Param}
    {tokens after : List Token} {found : Option TokenBlock}
    (read : fallback? name function line earlier tokens = .ok (found, after)) :
    after.length ≤ tokens.length := by
  unfold fallback? at read
  simp only at read
  split at read
  · split at read
    · split at read
      · simp at read
      · simp only [Except.ok.injEq, Prod.mk.injEq] at read
        obtain ⟨_, rfl⟩ := read
        exact Nat.le_succ_of_le (fallbackTokens_length_le _ _)
    · split at read
      · simp at read
      · simp only [Except.ok.injEq, Prod.mk.injEq] at read
        simp [← read.2]
  · split at read
    · simp at read
    · simp only [Except.ok.injEq, Prod.mk.injEq] at read
      simp [← read.2]

/-- The parameters from here to the closing parenthesis, after those read earlier, and the tokens
after it. -/
def parameters (function : String) (line : Nat) (earlier : List Param) :
    List Token → Except Fault (List Param × List Token)
  | [] => .error (.preparing (.parametersOpen function) line)
  | token :: rest =>
    if token.kind ≠ .variableName then
      .error (.preparing (.parameterToken token.display function) token.line)
    else
      let name := Text.lower token.lexeme
      if earlier.any (·.name == name) then
        .error (.preparing (.parameterTwice name function) line)
      else
        match _read : fallback? name function line earlier rest with
        | .error fault => .error fault
        | .ok (found, after) =>
          let params := earlier ++ [⟨name, found⟩]
          match after with
          | [] => .error (.preparing (.parametersOpen function) line)
          | next :: tail =>
            if next.kind = .separator then parameters function line params tail
            else if next.kind = .rparen then .ok (params, tail)
            else .error (.preparing (.parametersOpen function) line)
termination_by tokens => tokens.length
decreasing_by
  have := fallback?_length_le ‹_›
  simp only [List.length_cons] at this ⊢
  omega

/-- A parameter list after its opening parenthesis. -/
def parameterList (function : String) (line : Nat) (tokens : List Token) :
    Except Fault (List Param × List Token) :=
  match tokens with
  | token :: rest =>
    if token.kind = .rparen then .ok ([], rest) else parameters function line [] tokens
  | [] => parameters function line [] tokens

/-- The body of a function up to its closing word, and the tokens after that. -/
def bodyTokens (function : String) (line : Nat) : List Token →
    Except Fault (List Token × List Token)
  | [] => .error (.preparing (.funcOpen function) line)
  | token :: rest =>
    if token.kind = .kwEndFunc then .ok ([], rest)
    else if token.kind = .kwFunc then .error (.preparing (.funcNested function) token.line)
    else
      match bodyTokens function line rest with
      | .ok (body, after) => .ok (token :: body, after)
      | .error fault => .error fault

/-- The name and opening parenthesis of a function, and the tokens after them. -/
def functionName (line : Nat) : List Token → Except Fault (String × List Token)
  | token :: rest =>
    if token.kind = .identifier then
      match rest with
      | next :: tail =>
        if next.kind = .lparen then .ok (token.lexeme, tail)
        else .error (.preparing (.funcParameters token.lexeme) line)
      | [] => .error (.preparing (.funcParameters token.lexeme) line)
    else .error (.preparing .funcName line)
  | [] => .error (.preparing .funcName line)

/-- The next token, if there is one, ends the line. -/
def expectLineEnd (cause : String → PrepareCause) (tokens : List Token) : Except Fault Unit :=
  match tokens with
  | token :: _ =>
    if token.endsLine then .ok () else .error (.preparing (cause token.display) token.line)
  | [] => .ok ()

/-- A function, from the tokens after its opening word, and the tokens after its closing word. -/
def function (line : Nat) (tokens : List Token) : Except Fault (UserFunction × List Token) := do
  let (name, rest) ← functionName line tokens
  let (params, rest) ← parameterList name line rest
  expectLineEnd (.afterParameters · name) rest
  let (body, rest) ← bodyTokens name line rest
  expectLineEnd .afterEndFunc rest
  return ({ name, params, body := body.toArray, line }, rest)

/-- Reading a function's name never lengthens the remaining tokens. -/
theorem functionName_length_le {line : Nat} {tokens after : List Token} {name : String}
    (read : functionName line tokens = .ok (name, after)) : after.length ≤ tokens.length := by
  unfold functionName at read
  repeat' split at read
  all_goals simp only [Except.ok.injEq, Prod.mk.injEq, reduceCtorEq] at read
  obtain ⟨_, rfl⟩ := read
  simp only [List.length_cons]
  omega

/-- Reading parameters up to the closing parenthesis never lengthens the remaining tokens. -/
theorem parameters_length_le {function : String} {line : Nat} {earlier params : List Param}
    {tokens after : List Token}
    (read : parameters function line earlier tokens = .ok (params, after)) :
    after.length ≤ tokens.length := by
  fun_induction parameters function line earlier tokens generalizing params after with
  | case6 earlier token rest _ name _ found params' next tail inner =>
    rename_i ih
    have := fallback?_length_le inner
    have := ih read
    simp only [List.length_cons] at *
    omega
  | case7 earlier token rest _ name _ found params' next tail inner =>
    have := fallback?_length_le inner
    simp only [Except.ok.injEq, Prod.mk.injEq] at read
    obtain ⟨_, rfl⟩ := read
    simp only [List.length_cons] at *
    omega
  | _ => simp at read

/-- Reading a whole parameter list never lengthens the remaining tokens. -/
theorem parameterList_length_le {function : String} {line : Nat} {params : List Param}
    {tokens after : List Token}
    (read : parameterList function line tokens = .ok (params, after)) :
    after.length ≤ tokens.length := by
  unfold parameterList at read
  split at read
  · split at read
    · simp only [Except.ok.injEq, Prod.mk.injEq] at read
      simp [← read.2]
    · exact parameters_length_le read
  · exact parameters_length_le read

/-- Reading a body up to its closer never lengthens the remaining tokens. -/
theorem bodyTokens_length_le {function : String} {line : Nat} {tokens body after : List Token}
    (read : bodyTokens function line tokens = .ok (body, after)) :
    after.length ≤ tokens.length := by
  induction tokens generalizing body after with
  | nil => simp [bodyTokens] at read
  | cons token rest ih =>
    simp only [bodyTokens] at read
    repeat' split at read
    · simp only [Except.ok.injEq, Prod.mk.injEq] at read
      simp [← read.2]
    · simp at read
    · rename_i inner
      simp only [Except.ok.injEq, Prod.mk.injEq] at read
      obtain ⟨_, rfl⟩ := read
      exact Nat.le_succ_of_le (ih inner)
    · simp at read

/-- Reading a function leaves no more tokens than stood after its opening word. -/
theorem function_length_le {line : Nat} {tokens after : List Token} {found : UserFunction}
    (read : function line tokens = .ok (found, after)) : after.length ≤ tokens.length := by
  simp only [function, bind, Except.bind, pure, Except.pure] at read
  repeat' split at read
  all_goals simp only [Except.ok.injEq, Prod.mk.injEq, reduceCtorEq] at read
  rename_i named _ _ listed _ _ _ _ _ body _ _ _
  obtain ⟨_, rfl⟩ := read
  exact Nat.le_trans (bodyTokens_length_le body)
    (Nat.le_trans (parameterList_length_le listed) (functionName_length_le named))

/-- The functions found so far and notes for the trace. -/
structure Defined where
  /-- Functions under their names in small letters, in the order of the source. -/
  functions : List (String × UserFunction) := []
  /-- Notes for the trace, in order. -/
  notes : Array String := #[]

/-- Adds a function to the table, unless its name is taken. -/
def Defined.add (defined : Defined) (function : UserFunction) : Except Fault Defined :=
  let key := Text.lower function.name
  if (defined.functions.lookup key).isSome then
    .error (.preparing (.funcTwice function.name) function.line)
  else
    .ok
      { functions := defined.functions ++ [(key, function)]
        notes := defined.notes.push
          ("preprocess: func " ++ function.name ++ "(" ++ toString function.params.length ++
            " params)") }

/-- Reads all tokens and returns those outside functions. `lineStart` says that the next token
begins its line; a fault keeps what was defined before it. -/
def scan (lineStart : Bool) : List Token → EStateM Fault Defined (List Token)
  | [] => pure []
  | token :: rest =>
    if token.kind = .kwFunc then
      if lineStart then
        match _read : function token.line rest with
        | .error fault => throw fault
        | .ok (found, after) => do
          match (← get).add found with
          | .error fault => throw fault
          | .ok defined =>
            set defined
            scan false after
      else throw (.preparing .funcInside token.line)
    else if token.kind = .kwEndFunc then throw (.preparing .endFuncAlone token.line)
    else do
      let later ← scan token.endsLine rest
      return token :: later
termination_by tokens => tokens.length
decreasing_by
  · have := function_length_le ‹_›
    simp only [List.length_cons]
    omega
  · simp

/-- The tokens outside all functions; the functions go into the table. -/
def extract (tokens : List Token) : EStateM Fault Defined (List Token) :=
  scan true tokens

end LineScript.Functions
