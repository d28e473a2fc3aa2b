import LineScript.Interpreter.Expression

/-!
# Choices and selections

A choice runs the body of the first condition that holds. A selection compares one value with the
values and ranges of its clauses, or tries a condition for each clause, and runs the body of the
first clause that fits; from there control may go on into the next body. The extent of each part
is found by looking through the tokens when the statement is run.
-/

namespace LineScript

/-- The fault of a keyword whose partner is missing. -/
def closerFault (opener : Token) (closer : String) : Fault :=
  .running (.closerMissing opener.lexeme closer) opener.line []

/-- A branch of a choice. -/
structure Branch where
  /-- The condition under which it is taken; none for the last resort. -/
  condition : Option Window
  /-- What it runs. -/
  body : Window

namespace Branch

/-- The branches of a choice in a window that ends with the closing keyword at `close`: one with
the given condition from `start` on, and one for each keyword at a later position. -/
def split (window : Window) (close : Nat) :
    Option Window → Nat → List Nat → Except Fault (List Branch)
  | condition, start, [] => .ok [⟨condition, .slice window.tokens start close⟩]
  | condition, start, marker :: markers => do
    let branch : Branch := ⟨condition, .slice window.tokens start marker⟩
    match window.tokens[marker]? with
    | none => return [branch]
    | some token =>
      if token.kind = .kwElseIf then
        match Layout.findThen window.tokens marker window.stop with
        | some found =>
          let condition := Window.slice window.tokens (marker + 1) found
          return branch :: (← split window close (some condition) (found + 1) markers)
        | none => .error (closerFault token "Then")
      else return branch :: (← split window close none (marker + 1) markers)

end Branch

/-- The positions among some whose token is of a kind that is accepted. -/
def positionsOf (tokens : TokenBlock) (accept : TokenKind → Bool) (positions : List Nat) :
    List Nat :=
  positions.filter fun pos =>
    match tokens[pos]? with
    | some token => accept token.kind
    | none => false

/-- The branches of the choice over several lines whose keyword stands at `pos` and whose first
condition ends at `found`, with the position of its closing keyword. -/
def choiceBranches (window : Window) (opener : Token) (pos found : Nat) :
    Except Fault (List Branch × Nat) :=
  let visit := Layout.scanOutermost window.tokens (found + 1) window.stop
    fun token => token.kind == .kwEndIf
  match visit.halted with
  | none => .error (closerFault opener "EndIf")
  | some close => do
    let markers := positionsOf window.tokens (fun kind => kind == .kwElseIf || kind == .kwElse)
      visit.visited
    let condition := Window.slice window.tokens (pos + 1) found
    return (← Branch.split window close (some condition) (found + 1) markers, close)

/-- A clause of a selection. -/
structure Clause where
  /-- Its values or its condition. -/
  header : Window
  /-- What it runs. -/
  body : Window
  /-- It fits whenever no earlier clause does. -/
  isElse : Bool

/-- The clauses that begin at some positions; the last one ends at `close`. -/
def clausesAt (tokens : TokenBlock) (close : Nat) : List Nat → List Clause
  | [] => []
  | case' :: cases =>
    let headerEnd := Layout.statementEnd tokens (case' + 1) close
    { header := .slice tokens (case' + 1) headerEnd
      body := .slice tokens headerEnd (cases.head?.getD close)
      isElse := Layout.hasKind tokens (case' + 1) .kwElse } :: clausesAt tokens close cases

/-- The clauses of a selection from a position on, up to its closing keyword, and the position of
that keyword. Nothing may stand before the first clause. -/
def clauses (window : Window) (opener : Token) (start : Nat) (closer : TokenKind) (name : String) :
    Except Fault (List Clause × Nat) :=
  let tokens := window.tokens
  let visit := Layout.scanOutermost tokens start window.stop fun token => token.kind == closer
  match visit.halted with
  | none => .error (closerFault opener name)
  | some close =>
    let cases := positionsOf tokens (· == .kwCase) visit.visited
    let first := cases.head?.getD close
    let stray := Layout.seek (fun token => !token.endsLine) tokens start first
    if stray < first then
      match tokens[stray]? with
      | some token => .error (.running (.beforeCase token.display) token.line [])
      | none => .ok (clausesAt tokens close cases, close)
    else .ok (clausesAt tokens close cases, close)

/-- What a clause compares a value with. -/
inductive CaseItem where
  /-- A value it must equal. -/
  | single (value : Value)
  /-- Two values it must lie between, both included. -/
  | range (low high : Value)

/-- A value fits an item. -/
def CaseItem.fits (subject : Value) : CaseItem → Bool
  | single value => subject.looseEquals value
  | range low high => subject.compare low != .lt && subject.compare high != .gt

namespace Engine

/-- Runs the body of the first branch whose condition holds. -/
def runBranches (low : Engine) : List Branch → Exec Flow
  | [] => return .normal
  | branch :: branches => do
    match branch.condition with
    | none => low.runBlock branch.body
    | some condition =>
      if (← low.whole condition).asBool then low.runBlock branch.body
      else runBranches low branches

/-- The choice on one line whose keyword stands at `pos` and whose condition ends at `found`. -/
def choiceOnLine (low : Engine) (window : Window) (pos found : Nat) : Exec (Flow × Nat) := do
  let tokens := window.tokens
  let lineEnd := Layout.lineEnd tokens (found + 1) window.stop
  let bodyEnd := (Layout.trailingEndIf tokens pos window.stop).getD
    (Layout.statementEnd tokens (found + 1) lineEnd)
  let condition ← low.whole (.slice tokens (pos + 1) found)
  if condition.asBool then
    return (← low.runBlock (.slice tokens (found + 1) bodyEnd), lineEnd)
  else return (.normal, lineEnd)

/-- The choice whose keyword stands at a position. -/
def choice (low : Engine) (window : Window) (opener : Token) (pos : Nat) : Exec (Flow × Nat) := do
  match Layout.findThen window.tokens pos window.stop with
  | none => Exec.ofExcept (.error (closerFault opener "Then"))
  | some found =>
    if Layout.isSingleLineIf window.tokens pos window.stop then low.choiceOnLine window pos found
    else
      let (branches, close) ← Exec.ofExcept (choiceBranches window opener pos found)
      return (← low.runBranches branches, close + 1)

/-- Runs the first clause's body, and the following ones as long as control asks for them. -/
def runClauses (low : Engine) : List Clause → Exec Flow
  | [] => return .normal
  | clause :: clauses => do
    match ← low.runBlock clause.body with
    | .continueCase => runClauses low clauses
    | flow => return flow

/-- The items of a clause from a position of its header on, after those already read. -/
def caseItemsFrom (low : Engine) (header : Window) :
    Nat → Nat → List CaseItem → Exec (List CaseItem)
  | 0, _, _ => Exec.starved
  | fuel + 1, pos, items => do
    let (first, pos) ← low.value header pos
    let (item, pos) ←
      if header.hasKind pos .kwTo then do
        let (last, pos) ← low.value header (pos + 1)
        pure (CaseItem.range first last, pos)
      else pure (CaseItem.single first, pos)
    match header.token? pos with
    | none => return items ++ [item]
    | some token =>
      if token.kind = .separator then
        caseItemsFrom low header fuel (pos + 1) (items ++ [item])
      else Exec.failAt header pos (.inCase token.display)

/-- The items of each clause in order; none for a last resort. All are evaluated, before any
clause is chosen. -/
def caseItems (low : Engine) : List Clause → Exec (List (Option (List CaseItem)))
  | [] => return []
  | clause :: clauses => do
    let items ←
      if clause.isElse then pure none
      else some <$> low.caseItemsFrom clause.header low.fuel clause.header.start []
    return items :: (← caseItems low clauses)

/-- The selection by value whose keyword stands at a position. -/
def switch (low : Engine) (window : Window) (opener : Token) (pos : Nat) : Exec (Flow × Nat) := do
  let (subject, pos) ← low.value window (pos + 1)
  let (clauses, close) ← Exec.ofExcept (clauses window opener pos .kwEndSwitch "EndSwitch")
  let items ← low.caseItems clauses
  let chosen := items.findIdx fun
    | none => true
    | some items => items.any (CaseItem.fits subject)
  return (← low.runClauses (clauses.drop chosen), close + 1)

/-- Runs from the first clause whose condition holds. -/
def selectFrom (low : Engine) : List Clause → Exec Flow
  | [] => return .normal
  | clause :: clauses => do
    if clause.isElse then low.runClauses (clause :: clauses)
    else if (← low.whole clause.header).asBool then low.runClauses (clause :: clauses)
    else selectFrom low clauses

/-- The selection by conditions whose keyword stands at a position. -/
def select (low : Engine) (window : Window) (opener : Token) (pos : Nat) : Exec (Flow × Nat) := do
  match (window.token? (pos + 1)).filter (!·.endsLine) with
  | some token => Exec.failAt window (pos + 1) (.afterSelect token.display)
  | none =>
    let (clauses, close) ←
      Exec.ofExcept (clauses window opener (pos + 1) .kwEndSelect "EndSelect")
    return (← low.selectFrom clauses, close + 1)

end Engine

end LineScript
