import LineScript.Host.Basic
import LineScript.Token.Lexer

/-!
# Includes

An include is replaced by the tokens of the file it names, and a line end. Files are known by
their canonical paths: one that is being included is not included again inside itself, and one
that asks to be included once contributes its tokens once. A file on the stack is never read
again, so the depth of includes is bounded by the number of files.
-/

namespace LineScript.Include

/-- What including changes. -/
structure Progress where
  /-- Files that are not included again. -/
  once : List String := []
  /-- Notes for the trace, in order. -/
  notes : Array String := #[]

/-- Including either goes on or stops with a fault; what was noted stays noted. -/
abbrev Including := EStateM Fault Progress

/-- Stops with a fault. -/
def refuse {α : Type} (cause : PrepareCause) (line : Nat) : Including α :=
  throw (.preparing cause line)

/-- Adds a note for the trace. -/
def note (text : String) : Including Unit :=
  modify fun progress => { progress with notes := progress.notes.push text }

/-- Adds a note for the trace after an action, whether or not it stops with a fault. -/
def noteAfter {α : Type} (text : String) (action : Including α) : Including α := fun progress =>
  match action progress with
  | .ok result progress => .ok result { progress with notes := progress.notes.push text }
  | .error fault progress => .error fault { progress with notes := progress.notes.push text }

/-- The path that the token after an include's flag names. -/
def target (flag token : Token) : Including String :=
  if token.kind = .string then pure token.lexeme
  else if token.isOperator "<" then refuse .libraryInclude token.line
  else refuse .includePath flag.line

/-- The canonical path of a file named by an include in the file `current`. -/
def located (host : Host) (current path : String) : String :=
  let base := (Path.parent? current).getD "."
  host.files.canonical host.directory (Path.join base path)

/-- What is made of tokens as their includes are resolved, and what the steps of that are done in. -/
structure Resolver (m : Type → Type) (Out : Type) where
  /-- Does a step of including. -/
  step : {α : Type} → Including α → m α
  /-- No token is left. -/
  done : Out
  /-- A token, in front of what is behind it. -/
  token : Token → Out → Out
  /-- What was included, in front of what is behind it. -/
  append : Out → Out → Out

namespace Resolver

variable {m : Type → Type} [Monad m] {Out : Type} (resolver : Resolver m Out)

/-- Includes one file. `isOpen` says whether it is being included already, and `inside` resolves its
own includes. -/
def includeFile (read : String → Except FileError Text.Bytes) (isOpen : String → m Bool)
    (inside : String → List Token → m Out) (path : String) (line : Nat) : m Out := do
  if (← resolver.step get).once.any (Path.same path) then
    resolver.step (note ("preprocess: skipping " ++ path ++ " (include-once)"))
    return resolver.done
  if ← isOpen path then
    resolver.step (refuse (.includeCycle path) line)
  match read path with
  | .error reason => resolver.step (refuse (.includeUnreadable path reason.message) line)
  | .ok bytes =>
    match tokenize (Text.Utf8.decode bytes) with
    | .error fault => resolver.step (throw fault)
    | .ok tokens => inside path tokens

/-- Resolves the includes of the tokens of the file `current`. `lineStart` says that only line ends
and comments stand before the next token on its line; `splice` includes the file of a path. -/
def resolveWith (splice : String → Nat → m Out) (located : String → String) (current : String)
    (lineStart : Bool) (tokens : List Token) : m Out := do
  match tokens with
  | [] => return resolver.done
  | token :: rest =>
    if token.kind = .flag ∧ Text.lower token.lexeme = "include-once" then
      if !lineStart then
        resolver.step (refuse (.flagInside "include-once") token.line)
      resolver.step (modify fun progress => { progress with once := current :: progress.once })
      resolveWith splice located current lineStart rest
    else if token.kind = .flag ∧ Text.lower token.lexeme = "include" then
      if !lineStart then
        resolver.step (refuse (.flagInside "include") token.line)
      match rest with
      | [] => resolver.step (refuse .includePath token.line)
      | named :: after =>
        let path ← resolver.step (target token named)
        let spliced ← splice (located path) token.line
        let later ← resolveWith splice located current false after
        return resolver.append spliced (resolver.token .insertedEol later)
    else if token.kind = .flag ∧ !lineStart then
      resolver.step (refuse (.flagInside token.lexeme) token.line)
    else
      let later ← resolveWith splice located current token.endsLine rest
      return resolver.token token later

end Resolver

/-- Tokens are resolved to the tokens that a script is run with. -/
def flat : Resolver Including (List Token) where
  step action := action
  done := []
  token := List.cons
  append spliced later := spliced ++ later

/-- The flat reading adds nothing to a step. -/
@[simp] theorem flat_step {α : Type} (action : Including α) : flat.step action = action := rfl

/-- The flat reading of no tokens is the empty list. -/
@[simp] theorem flat_done : flat.done = [] := rfl

/-- The flat reading puts a token in front of the later ones. -/
@[simp] theorem flat_token (token : Token) (later : List Token) : flat.token token later = token :: later :=
  rfl

/-- The flat reading of spliced tokens is plain concatenation. -/
@[simp] theorem flat_append (spliced later : List Token) : flat.append spliced later = spliced ++ later := rfl

/-- A file's tokens, included with the file on the stack. -/
def spliceFile (host : Host) (expand : List String → List Token → Including (List Token))
    (stack : List String) (path : String) (line : Nat) : Including (List Token) :=
  flat.includeFile (host.files.read host.directory)
    (fun path => return stack.any (Path.same path))
    (fun path tokens =>
      noteAfter ("preprocess: include " ++ path ++ " preloaded successfully")
        (expand (path :: stack) tokens))
    path line

/-- Resolves the includes of the tokens of the file on top of the stack. -/
def expandWith (host : Host) (splice : String → Nat → Including (List Token)) (current : String)
    (lineStart : Bool) (tokens : List Token) : Including (List Token) :=
  flat.resolveWith splice (located host current) current lineStart tokens

/-- Resolves includes to a depth of at most `fuel` files. -/
def expand (host : Host) : (fuel : Nat) → (stack : List String) → List Token →
    Including (List Token)
  | 0, _, [] => return []
  | 0, stack, token :: _ => refuse (.includeCycle (stack.headD "")) token.line
  | fuel + 1, stack, tokens =>
    expandWith host (spliceFile host (expand host fuel) stack) (stack.headD "") true tokens

/-- As many files as can be on the stack at most: they differ from each other, and the path of a
file that can be read is no longer than the limit. -/
@[irreducible] def depth : Nat := Nat.pow (0x110000 + 1) FileSystem.pathLimit

/-- The tokens of a script with all its includes resolved. -/
def resolve (host : Host) (script : String) (tokens : List Token) : Including (List Token) :=
  expand host (depth + 1) [host.files.canonical host.directory script] tokens

end LineScript.Include
