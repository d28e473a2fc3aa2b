import LineScript.Fault.Report
import LineScript.Layout.Scan

/-!
# Balanced blocks

Before a program runs, every list of tokens in it is checked: conditions are complete, blocks are
closed by the words that belong to them in the order in which they were opened, branches and
cases stand in the blocks they belong to, and no word stands where it cannot run.
-/

namespace LineScript.Structure

open Layout

/-- A block that is not closed yet: the word that opened it and its line. -/
structure OpenBlock where
  /-- The opening word. -/
  opener : TokenKind
  /-- Its line. -/
  line : Nat
deriving Repr, DecidableEq

/-- The innermost open block was opened by one of these words. -/
def insideOf (accept : TokenKind → Bool) (blocks : List OpenBlock) : Bool :=
  match blocks with
  | block :: _ => accept block.opener
  | [] => false

/-- Closes the innermost open block with this word. -/
def closeBlock (blocks : List OpenBlock) (token : Token) : Except Fault (List OpenBlock) :=
  match blocks with
  | [] => .error (.preparing (.closerAlone token.lexeme) token.line)
  | block :: outer =>
    if closer? block.opener = some token.kind then .ok outer
    else
      .error (.preparing (.closerMismatch token.lexeme block.opener.name block.line) token.line)

/-- What one token does to the open blocks: the blocks after it, whether the next token belongs to
it, and the closing word of a choice on one line, which closes nothing. -/
structure Effect where
  /-- Blocks open after the token, innermost first. -/
  blocks : List OpenBlock
  /-- The token after this one is part of it. -/
  takesNext : Bool := false
  /-- A closing word to leave out. -/
  skip : Option Nat

/-- Checks the token at a position. -/
def step (tokens : Array Token) (pos : Nat) (token : Token) (blocks : List OpenBlock)
    (skip : Option Nat) : Except Fault Effect :=
  let stop := tokens.size
  match token.kind with
  | .kwIf =>
    if (findThen tokens pos stop).isNone then .error (.preparing .ifThen token.line)
    else if isSingleLineIf tokens pos stop then
      .ok { blocks, skip := trailingEndIf tokens pos stop }
    else .ok { blocks := ⟨.kwIf, token.line⟩ :: blocks, skip }
  | .kwElseIf =>
    if !insideOf (· == .kwIf) blocks then .error (.preparing .elseIfAlone token.line)
    else if (findThen tokens pos stop).isNone then .error (.preparing .elseIfThen token.line)
    else .ok { blocks, skip }
  | .kwElse =>
    if !insideOf (· == .kwIf) blocks then .error (.preparing .elseAlone token.line)
    else .ok { blocks, skip }
  | .kwCase =>
    if !insideOf (fun opener => opener == .kwSwitch || opener == .kwSelect) blocks then
      .error (.preparing .caseAlone token.line)
    else .ok { blocks, takesNext := hasKind tokens (pos + 1) .kwElse, skip }
  | .kwSwitch | .kwSelect | .kwWhile | .kwDo =>
    .ok { blocks := ⟨token.kind, token.line⟩ :: blocks, skip }
  | .kwEndIf | .kwEndSwitch | .kwEndSelect | .kwWEnd | .kwUntil => do
    return { blocks := ← closeBlock blocks token, skip }
  | .kwFunc | .kwEndFunc => .error (.preparing (.functionKeyword token.lexeme) token.line)
  | .kwWith | .kwEndWith | .kwVolatile => .error (.preparing (.unsupported token.lexeme) token.line)
  | _ => .ok { blocks, skip }

/-- Checks the tokens from a position on. -/
def checkFrom (tokens : Array Token) (pos : Nat) (blocks : List OpenBlock) (skip : Option Nat) :
    Except Fault Unit :=
  if inside : pos < tokens.size then
    if skip = some pos then checkFrom tokens (pos + 1) blocks skip
    else
      match step tokens pos tokens[pos] blocks skip with
      | .error fault => .error fault
      | .ok effect =>
        checkFrom tokens (pos + 1 + if effect.takesNext then 1 else 0) effect.blocks effect.skip
  else
    match blocks with
    | [] => .ok ()
    | block :: _ =>
      .error (.preparing
        (.blockOpen block.opener.name ((closer? block.opener).getD block.opener).name) block.line)
termination_by tokens.size - pos

/-- Checks one list of tokens. -/
def check (tokens : Array Token) : Except Fault Unit :=
  checkFrom tokens 0 [] none

end LineScript.Structure
