import LineScript.Token.Basic

/-!
# Where statements and blocks end

Blocks are not stored: their extent is found by looking through the tokens of a window, from a
position up to a stop. This module finds ends of lines and statements, tells apart a choice that
stands on one line from one that opens a block, and visits the tokens that stand at the outermost
level of a window (`scanOutermost`).
-/

namespace LineScript.Layout

/-- The first position from `pos` up to `stop` whose token is accepted, or `stop`; `pos` itself
when it is not before `stop`. -/
def seek (accept : Token → Bool) (tokens : Array Token) (pos stop : Nat) : Nat :=
  if pos < stop then
    match tokens[pos]? with
    | some token => if accept token then pos else seek accept tokens (pos + 1) stop
    | none => pos
  else pos
termination_by stop - pos

/-- The end of the line that holds `pos`. -/
def lineEnd (tokens : Array Token) (pos stop : Nat) : Nat :=
  seek (fun token => token.kind == .eol) tokens pos stop

/-- The end of the statement that holds `pos`: a line end or a comment. -/
def statementEnd (tokens : Array Token) (pos stop : Nat) : Nat :=
  seek Token.endsLine tokens pos stop

/-- The position of the word that ends the condition begun at `pos`, on the same line. -/
def findThen (tokens : Array Token) (pos stop : Nat) : Option Nat :=
  let found := seek (fun token => token.kind == .kwThen || token.kind == .eol) tokens (pos + 1) stop
  if found < stop then
    match tokens[found]? with
    | some token => if token.kind == .kwThen then some found else none
    | none => none
  else none

/-- The choice at `pos` has its only branch on the same line. -/
def isSingleLineIf (tokens : Array Token) (pos stop : Nat) : Bool :=
  match findThen tokens pos stop with
  | some found =>
    if found + 1 < stop then
      match tokens[found + 1]? with
      | some token => !token.endsLine
      | none => false
    else false
  | none => false

/-- The token at a position is of this kind. -/
def hasKind (tokens : Array Token) (pos : Nat) (kind : TokenKind) : Bool :=
  match tokens[pos]? with
  | some token => token.kind == kind
  | none => false

/-- The position of a closing word that ends the line of a choice on one line. -/
def trailingEndIf (tokens : Array Token) (pos stop : Nat) : Option Nat :=
  if hasKind tokens pos .kwIf && isSingleLineIf tokens pos stop then
    let ending := statementEnd tokens pos stop
    if pos + 1 < ending && hasKind tokens (ending - 1) .kwEndIf then some (ending - 1) else none
  else none

/-- The token at `pos` opens a block that a closing word ends. -/
def opensBlock (tokens : Array Token) (pos stop : Nat) : Bool :=
  match tokens[pos]? with
  | some token =>
    match token.kind with
    | .kwIf => !isSingleLineIf tokens pos stop
    | .kwSwitch | .kwSelect | .kwWhile | .kwDo => true
    | _ => false
  | none => false

/-- The word that closes what another word opens. -/
def closer? : TokenKind → Option TokenKind
  | .kwIf => some .kwEndIf
  | .kwSwitch => some .kwEndSwitch
  | .kwSelect => some .kwEndSelect
  | .kwWhile => some .kwWEnd
  | .kwDo => some .kwUntil
  | _ => none

/-- Words that close a block. -/
def closesBlock : TokenKind → Bool
  | .kwEndIf | .kwEndSwitch | .kwEndSelect | .kwWEnd | .kwUntil => true
  | _ => false

/-- What a scan met: the positions it visited, and the one it halted at. -/
structure Visit where
  /-- Positions visited, in order, the one halted at included. -/
  visited : List Nat
  /-- The position halted at. -/
  halted : Option Nat
deriving Repr, DecidableEq

/-- Visits the tokens of a window that stand inside no block opened in it, until `halt` accepts
one. `depth` counts the blocks open at `pos`; `skip` is the closing word of a choice on one line,
which closes nothing. -/
def scanFrom (halt : Token → Bool) (tokens : Array Token) (stop : Nat) (pos depth : Nat)
    (skip : Option Nat) : Visit :=
  if pos < stop then
    match tokens[pos]? with
    | none => ⟨[], none⟩
    | some token =>
      if skip = some pos then scanFrom halt tokens stop (pos + 1) depth skip
      else if depth = 0 ∧ halt token then ⟨[pos], some pos⟩
      else
        let later :=
          match trailingEndIf tokens pos stop with
          | some ending => scanFrom halt tokens stop (pos + 1) depth (some ending)
          | none =>
            if opensBlock tokens pos stop then scanFrom halt tokens stop (pos + 1) (depth + 1) skip
            else if closesBlock token.kind then
              scanFrom halt tokens stop (pos + 1) (depth - 1) skip
            else scanFrom halt tokens stop (pos + 1) depth skip
        if depth = 0 then ⟨pos :: later.visited, later.halted⟩ else later
  else ⟨[], none⟩
termination_by stop - pos

/-- Visits the outermost tokens of a window until `halt` accepts one. -/
def scanOutermost (tokens : Array Token) (start stop : Nat) (halt : Token → Bool) : Visit :=
  scanFrom halt tokens stop start 0 none

end LineScript.Layout
