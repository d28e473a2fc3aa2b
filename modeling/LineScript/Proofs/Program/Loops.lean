import LineScript.Program.CallSites
import LineScript.Program.Loops
import LineScript.Proofs.Outcome

/-!
# Taking calls and loops out, token by token

Each of the two scans makes one of a few moves at a token.
-/

namespace LineScript

/-!
## Taking calls out, token by token

Whatever the scan for calls does with a token is one of five moves (`CallSites.Moves`). What every
move keeps holds when the scan ends, and nothing is open then.
-/

namespace CallSites

variable {state : State} {call : OpenCall} {outer : List OpenCall} {token : Token}

/-- A token that an open call reads joins its argument, or ends it. -/
theorem OpenCall.accept_eq_ok {after : OpenCall} (read : call.accept token = .ok after) :
    (∃ parens brackets, after = { call.push token with parens, brackets }) ∨
      token.kind = .separator ∧ call.group ≠ [] ∧
        after = { call with groups := call.group.reverse :: call.groups, group := [] } := by
  unfold accept at read
  split at read
  case h_5 separator =>
    repeat' split at read
    · cases read
      exact .inl ⟨_, _, rfl⟩
    · cases read
    · cases read
    · rename_i nonempty
      cases read
      exact .inr ⟨separator, by simpa using nonempty, rfl⟩
  case h_6 | h_7 => cases read
  all_goals
    cases read
    exact .inl ⟨_, _, rfl⟩

/-- A call that is closed has no empty argument behind a comma. -/
theorem OpenCall.close_eq_ok {site : CallSite} (closed : call.close = .ok site) :
    site.name = call.name.lexeme ∧ (site.args.map Array.toList =
      call.groups.reverse ++ (if call.group = [] then [] else [call.group.reverse])) ∧
      (call.group = [] → call.groups = []) := by
  unfold close at closed
  dsimp only at closed
  repeat' split at closed
  · rename_i nonempty
    cases closed
    have some' : call.group ≠ [] := by simpa using nonempty
    simp [some', Function.comp_def]
  · rename_i empty none'
    cases closed
    have empty' : call.group = [] := by simpa using empty
    have none'' : call.groups = [] := by simpa using none'
    simp [empty', none'']
  · cases closed

/-- A property of the state and the tokens still to read that every move of the scan keeps. -/
structure Moves (kept : State → List Token → Prop) : Prop where
  /-- A token outside all calls. -/
  outside : ∀ {state token rest}, kept state (token :: rest) → state.opened = [] →
    kept { state with out := token :: state.out } rest
  /-- A token of an argument. -/
  inside : ∀ {state token rest call outer} (parens brackets : Nat), kept state (token :: rest) →
    state.opened = call :: outer →
    kept { state with opened := { call.push token with parens, brackets } :: outer } rest
  /-- The comma behind an argument. -/
  divides : ∀ {state token rest call outer}, kept state (token :: rest) →
    state.opened = call :: outer → token.kind = .separator →
    kept { state with opened :=
      { call with groups := call.group.reverse :: call.groups, group := [] } :: outer } rest
  /-- The name and opening parenthesis of a call. -/
  opens : ∀ {state token next rest}, kept state (token :: next :: rest) →
    token.kind = .identifier → next.kind = .lparen →
    kept { state with opened := { name := token } :: state.opened } rest
  /-- The closing parenthesis of a call. -/
  closes : ∀ {state token rest call outer site}, kept state (token :: rest) →
    state.opened = call :: outer → token.kind = .rparen → call.close = .ok site →
    kept (State.emit { state with opened := outer, calls := state.calls.push site }
      (call.token state.calls.size)) rest

namespace Moves

variable {kept : State → List Token → Prop} (moves : Moves kept)
include moves

/-- Reading one token is a move. -/
theorem accept {after : State} {rest : List Token} (holds : kept state (token :: rest))
    (read : state.accept token = .ok after) : kept after rest := by
  unfold State.accept at read
  split at read
  · rename_i none'
    cases read
    exact moves.outside holds none'
  · rename_i call outer open'
    split at read
    · rename_i closing
      obtain ⟨site, closed, same⟩ := bind_eq_ok.mp read
      cases same
      exact moves.closes holds open' closing.1 closed
    · obtain ⟨later, taken, same⟩ := bind_eq_ok.mp read
      cases same
      rcases OpenCall.accept_eq_ok taken with ⟨parens, brackets, rfl⟩ | ⟨comma, _, rfl⟩
      · exact moves.inside parens brackets holds open'
      · exact moves.divides holds open' comma

/-- What every move keeps holds when the scan ends, outside all calls. -/
theorem scan {last : State} {tokens : List Token} (holds : kept state tokens)
    (read : CallSites.scan state tokens = .ok last) : kept last [] ∧ last.opened = [] := by
  fun_induction CallSites.scan state tokens generalizing last with
  | case1 => cases read
  | case2 state none' =>
    cases read
    exact ⟨holds, none'⟩
  | case3 state token ih =>
    obtain ⟨after, accepted, later⟩ := bind_eq_ok.mp read
    exact ih after (moves.accept holds accepted) later
  | case4 state token next rest func ih =>
    have none' : state.opened = [] := by simpa using func.2
    have first := moves.outside holds none'
    exact ih (moves.outside first none') read
  | case5 state token next rest _ name ih => exact ih (moves.opens holds name.1 name.2) read
  | case6 state token next rest _ _ after accepted ih =>
    exact ih (moves.accept holds accepted) read
  | case7 => cases read

/-- The tokens and the table that are extracted come from a state that every move led to. -/
theorem extract {tokens out : List Token} {calls : Array CallSite} (start : kept {} tokens)
    (read : CallSites.extract tokens = .ok (out, calls)) :
    kept { out := out.reverse, calls } [] := by
  obtain ⟨last, scanned, same⟩ := bind_eq_ok.mp read
  obtain ⟨held, closed⟩ := moves.scan start scanned
  cases same
  rcases last with ⟨opened, out, calls⟩
  cases closed
  rw [List.reverse_reverse]
  exact held

end Moves

end CallSites

/-!
## Taking loops out, token by token

The parts of a loop's header are the tokens between its words. Whatever the scan for loops does is
one of three moves (`Loops.Moves`): a token is kept, a loop with its header is opened, the innermost
loop is closed. What every move keeps holds when the scan ends, and nothing is open then.
-/

namespace Loops

variable {line : Nat} {tokens after : List Token} {stops : TokenKind → Bool} {part : String}

/-- An expression of a header and what follows it are the tokens it was read from. -/
theorem headerTokens_append {expression : List Token}
    (read : headerTokens stops part tokens = .ok (expression, after)) :
    tokens = expression ++ after := by
  induction tokens generalizing expression after with
  | nil =>
    cases read
    rfl
  | cons token rest ih =>
    simp only [headerTokens] at read
    repeat' split at read
    · cases read
      rfl
    · cases read
    · rename_i inner
      cases read
      rw [ih inner]
      rfl
    · cases read

/-- An expression of a header and what follows it are together the tokens read. -/
theorem headerExpression_append {block : TokenBlock}
    (read : headerExpression stops part line tokens = .ok (block, after)) :
    tokens = block.toList ++ after := by
  unfold headerExpression at read
  repeat' split at read
  · cases read
  · cases read
  · rename_i inner _
    cases read
    exact headerTokens_append inner

/-- A token of this kind. -/
def IsWord (kind : TokenKind) (token : Token) : Prop := token.kind = kind

/-- A header that is written as these tokens. -/
inductive Writes : LoopHead → List Token → Prop
  /-- A range without a step. -/
  | range {first last : TokenBlock} {equals to' : Token} : equals.isOperator "=" = true →
    IsWord .kwTo to' →
    Writes (.range first last none) (equals :: first.toList ++ to' :: last.toList)
  /-- A range with a step. -/
  | stepped {first last step : TokenBlock} {equals to' word : Token} :
    equals.isOperator "=" = true → IsWord .kwTo to' → IsWord .kwStep word →
    Writes (.range first last (some step))
      (equals :: first.toList ++ (to' :: last.toList ++ word :: step.toList))
  /-- A collection. -/
  | each {collection : TokenBlock} {word : Token} : IsWord .kwIn word →
    Writes (.each collection) (word :: collection.toList)

/-- A step is written as its word and its expression, and no step as nothing. -/
theorem stepPart_writes {step : Option TokenBlock}
    (read : stepPart line tokens = .ok (step, after)) :
    step = none ∧ tokens = after ∨
      ∃ word block, IsWord .kwStep word ∧ step = some block ∧
        tokens = word :: block.toList ++ after := by
  unfold stepPart at read
  repeat' split at read
  · rename_i word rest isStep _ block _ readBlock
    cases read
    exact .inr ⟨word, block, isStep, rfl, by rw [headerExpression_append readBlock]; rfl⟩
  · cases read
  · cases read
    exact .inl ⟨rfl, rfl⟩
  · cases read
    exact .inl ⟨rfl, rfl⟩

/-- A counting header that is read is written in front of what follows it. -/
theorem rangeHead_writes {head : LoopHead} {equals : Token} (mark : equals.isOperator "=" = true)
    (read : rangeHead line tokens = .ok (head, after)) :
    ∃ written, Writes head written ∧ equals :: tokens = written ++ after := by
  unfold rangeHead at read
  repeat' split at read
  all_goals try cases read
  rename_i _ first to' rest readFirst isTo _ last middle readLast _ step readStep
  rw [headerExpression_append readFirst, headerExpression_append readLast]
  rcases stepPart_writes readStep with ⟨rfl, rfl⟩ | ⟨word, block, isStep, rfl, rfl⟩
  · exact ⟨_, .range mark isTo, by simp⟩
  · exact ⟨_, .stepped mark isTo isStep, by simp⟩

/-- An iterating header that is read is written in front of what follows it. -/
theorem eachHead_writes {head : LoopHead} {word : Token} (isIn : IsWord .kwIn word)
    (read : eachHead line tokens = .ok (head, after)) :
    ∃ written, Writes head written ∧ word :: tokens = written ++ after := by
  unfold eachHead at read
  split at read <;> cases read
  rename_i collection readCollection
  exact ⟨_, .each isIn, by rw [headerExpression_append readCollection]; rfl⟩

/-- A header is written as the variable and the tokens of its head. -/
theorem header_writes {index : String} {head : LoopHead}
    (read : header line tokens = .ok (index, head, after)) :
    ∃ variable' written, IsWord .variableName variable' ∧ variable'.lexeme = index ∧
      Writes head written ∧ tokens = variable' :: written ++ after := by
  unfold header at read
  split at read
  · rename_i variable' rest
    split at read
    · rename_i isVariable
      have part : ∀ head, (∃ written, Writes head written ∧ rest = written ++ after) →
          ∃ variable'' written, IsWord .variableName variable'' ∧
            variable''.lexeme = variable'.lexeme ∧ Writes head written ∧
            variable' :: rest = variable'' :: written ++ after := by
        rintro head ⟨written, writes, rfl⟩
        exact ⟨variable', written, isVariable, rfl, writes, rfl⟩
      repeat' split at read
      all_goals try cases read
      · rename_i isEquals _ readHead
        exact part _ (rangeHead_writes isEquals readHead)
      · rename_i isIn _ readHead
        exact part _ (eachHead_writes isIn readHead)
    · cases read
  · cases read

/-- The table entry of an open loop whose closing word is reached. -/
def OpenLoop.closed (loop : OpenLoop) : ForLoop :=
  { index := loop.index, head := loop.head, body := loop.body.reverse.toArray,
    line := loop.opener.line }

/-- The token that stands for the loop of this number. -/
def OpenLoop.token (loop : OpenLoop) (id : Nat) : Token :=
  { loop.opener with kind := .loop id, lexeme := "For" }

/-- A property of the state and the tokens still to read that every move of the scan keeps. -/
structure Moves (kept : State → List Token → Prop) : Prop where
  /-- A token that stays. -/
  stays : ∀ {state token rest}, kept state (token :: rest) → kept (state.emit token) rest
  /-- The opening word of a loop and its header. -/
  opens : ∀ {state token variable' written head rest},
    kept state (token :: variable' :: written ++ rest) → IsWord .kwFor token →
    IsWord .variableName variable' → Writes head written →
    kept { state with opened :=
      { opener := token, index := variable'.lexeme, head } :: state.opened } rest
  /-- The closing word of a loop. -/
  closes : ∀ {state token rest loop outer}, kept state (token :: rest) →
    state.opened = loop :: outer → IsWord .kwNext token →
    kept (State.emit { state with opened := outer, loops := state.loops.push loop.closed }
      (loop.token state.loops.size)) rest

namespace Moves

variable {kept : State → List Token → Prop} (moves : Moves kept)
include moves

/-- Reading a closing word is a move. -/
theorem close {state last : State} {token : Token} {rest : List Token}
    (holds : kept state (token :: rest)) (isNext : IsWord .kwNext token)
    (read : state.close token rest = .ok last) : kept last rest := by
  unfold State.close at read
  split at read
  · cases read
  · rename_i open'
    have closed := moves.closes holds open' isNext
    dsimp only at read
    repeat' split at read
    · cases read
      exact closed
    · cases read
    · cases read
      exact closed

/-- What every move keeps holds when the scan ends, outside all loops. -/
theorem scan {state last : State} {lineStart : Bool} {tokens : List Token}
    (holds : kept state tokens) (read : Loops.scan state lineStart tokens = .ok last) :
    kept last [] ∧ last.opened = [] := by
  fun_induction Loops.scan state lineStart tokens generalizing last with
  | case1 => cases read
  | case2 state lineStart none' =>
    cases read
    exact ⟨holds, none'⟩
  | case3 => cases read
  | case4 state lineStart token rest isFor index head after readHead ih =>
    obtain ⟨variable', written, isVariable, rfl, writes, rfl⟩ := header_writes readHead
    exact ih (moves.opens holds isFor.1 isVariable writes) read
  | case5 => cases read
  | case6 => cases read
  | case7 state lineStart token rest _ _ isNext after closed ih =>
    exact ih (moves.close holds isNext closed) read
  | case8 state lineStart token rest _ _ _ ih => exact ih (moves.stays holds) read

/-- The tokens and the table that are extracted come from a state that every move led to. -/
theorem extract {tokens out : List Token} {loops : Array ForLoop} (start : kept {} tokens)
    (read : Loops.extract tokens = .ok (out, loops)) :
    kept { out := out.reverse, loops } [] := by
  obtain ⟨last, scanned, same⟩ := bind_eq_ok.mp read
  obtain ⟨held, closed⟩ := moves.scan start scanned
  cases same
  rcases last with ⟨opened, out, loops⟩
  cases closed
  rw [List.reverse_reverse]
  exact held

end Moves

end Loops

end LineScript
