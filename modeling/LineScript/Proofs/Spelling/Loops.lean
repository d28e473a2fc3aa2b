import LineScript.Proofs.Spelling.Source

/-!
# Taking out calls and loops does not see case

What is taken out of a source in small letters is what is taken out of the source, in small letters.
-/

namespace LineScript

/-!
## Taking out calls does not see case

Reading the tokens of a source in small letters takes out the same calls, in small letters. A name
in front of a parenthesis becomes the name of a call or follows the word that opens a function, so
what is left has names of functions behind that word only.
-/

/-- The word that opens a function stands at the end of tokens given last one first. -/
def endsInFunc (before : List Token) : Bool := (before.head?.map (·.kind == .kwFunc)).getD false

/-- Tokens in small letters, last one first. -/
def smallBack : List Token → List Token
  | [] => []
  | token :: before => token.small (endsInFunc before) :: smallBack before

/-- Small letters keep whether a list is empty. -/
@[simp] theorem isEmpty_smallBack (before : List Token) :
    (smallBack before).isEmpty = before.isEmpty := by
  cases before <;> rfl

/-- The last token of a list in small letters depends on the token before it. -/
theorem smallList_concat (named : Bool) (tokens : List Token) (token : Token) :
    smallList named (tokens ++ [token]) = smallList named tokens ++
      [token.small ((tokens.getLast?.map (·.kind == .kwFunc)).getD named)] := by
  induction tokens generalizing named with
  | nil => rfl
  | cons first rest ih =>
    simp only [List.cons_append, smallList, ih]
    congr 3
    cases rest with
    | nil => rfl
    | cons next rest => simp [List.getLast?_cons]

/-- In the order of the source. -/
theorem reverse_smallBack (before : List Token) :
    (smallBack before).reverse = smallList false before.reverse := by
  induction before with
  | nil => rfl
  | cons token before ih =>
    simp only [smallBack, List.reverse_cons, ih, smallList_concat, List.getLast?_reverse, endsInFunc]

namespace CallSites

/-- An open call in small letters. -/
def OpenCall.small (call : OpenCall) : OpenCall :=
  { call with
    name := { call.name with lexeme := Text.lower call.name.lexeme }
    groups := call.groups.map (smallList false), group := smallBack call.group }

/-- Where the reading of a source in small letters stands. -/
def State.small (state : State) : State where
  opened := state.opened.map OpenCall.small
  out := smallBack state.out
  calls := state.calls.map CallSite.small

/-- The tokens of the argument or of the result that are being read, last one first. -/
def State.current (state : State) : List Token :=
  match state.opened with
  | call :: _ => call.group
  | [] => state.out

/-- A token that ends up in a call. -/
theorem OpenCall.accept_small (call : OpenCall) (token : Token) :
    Tells (fun after other => other = after.small ∧
        endsInFunc after.group = (token.kind == .kwFunc))
      (call.accept token) (call.small.accept (token.small (endsInFunc call.group))) := by
  have pushed : Tells (fun (after other : OpenCall) => other = after.small ∧
        endsInFunc after.group = (token.kind == .kwFunc))
      (.ok (call.push token)) (.ok (call.small.push (token.small (endsInFunc call.group)))) :=
    .ok ⟨rfl, rfl⟩
  have group : call.small.group.isEmpty = call.group.isEmpty := isEmpty_smallBack _
  unfold OpenCall.accept
  rw [Token.kind_small, Token.line_small]
  split
  case h_5 isSeparator =>
    split
    · rename_i inBrackets
      rw [if_pos (show 0 < call.small.brackets from inBrackets)]
      exact pushed
    · rename_i outside
      rw [if_neg (show ¬0 < call.small.brackets from outside)]
      split
      · rename_i inParens
        rw [if_pos (show 0 < call.small.parens from inParens)]
        exact .error (.preparing _ _ _)
      · rename_i outermost
        rw [if_neg (show ¬0 < call.small.parens from outermost), group]
        split
        · exact .error (.preparing _ _ _)
        · refine .ok ⟨?_, by rw [isSeparator]; rfl⟩
          simp [OpenCall.small, smallBack, reverse_smallBack]
  case h_6 | h_7 => exact .error (.preparing _ _ _)
  all_goals exact .ok ⟨rfl, rfl⟩

/-- A call is closed alike in small letters. -/
theorem OpenCall.close_small (call : OpenCall) :
    Tells (fun site other => other = site.small) call.close call.small.close := by
  have group : call.small.group.isEmpty = call.group.isEmpty := isEmpty_smallBack _
  have groups : call.small.groups.isEmpty = call.groups.isEmpty := by simp [OpenCall.small]
  unfold OpenCall.close
  dsimp only
  rw [group, groups]
  split
  · refine .ok ?_
    simp [OpenCall.small, CallSite.small, reverse_smallBack, TokenBlock.smallGroup]
  · split
    · exact .ok rfl
    · exact .error (.preparing _ _ _)

/-- The token for a call is that for the call in small letters. -/
theorem OpenCall.token_small (call : OpenCall) (id : Nat) (named : Bool) :
    (call.token id).small named = call.small.token id := by
  have name : Builtin.ofName? call.small.name.lexeme = Builtin.ofName? call.name.lexeme := by
    simp [Builtin.ofName?, OpenCall.small]
  unfold OpenCall.token
  rw [name]
  split <;> simp [Token.small, TokenKind.isVerbatim, OpenCall.small]

namespace State

/-- An emitted token is the last one of the innermost call. -/
@[simp] theorem current_emit (state : State) (token : Token) :
    (state.emit token).current = token :: state.current := by
  rcases state with ⟨_ | ⟨call, outer⟩, out, calls⟩ <;> rfl

/-- A token is emitted alike in small letters. -/
theorem emit_small (state : State) (token : Token) :
    (state.emit token).small = state.small.emit (token.small (endsInFunc state.current)) := by
  rcases state with ⟨_ | ⟨call, outer⟩, out, calls⟩ <;> rfl

/-- A token that ends up anywhere. -/
theorem accept_small (state : State) (token : Token) :
    Tells (fun after other => other = after.small ∧
        endsInFunc after.current = (token.kind == .kwFunc))
      (state.accept token) (state.small.accept (token.small (endsInFunc state.current))) := by
  rcases state with ⟨_ | ⟨call, outer⟩, out, calls⟩
  · exact .ok ⟨rfl, rfl⟩
  · have small : State.small ⟨call :: outer, out, calls⟩ =
        ⟨call.small :: outer.map OpenCall.small, smallBack out, calls.map CallSite.small⟩ := rfl
    rw [small]
    unfold State.accept
    dsimp only
    rw [Token.kind_small]
    split
    · rename_i closes
      rw [if_pos (show token.kind = .rparen ∧ call.small.parens = 0 from closes)]
      refine call.close_small.bind fun site other same => .ok ⟨?_, ?_⟩
      · subst same
        rw [emit_small, OpenCall.token_small, Array.size_map]
        simp [State.small]
      · have notFunc : ((call.token calls.size).kind == .kwFunc) = false := by
          unfold OpenCall.token
          dsimp only
          split <;> rfl
        simp [endsInFunc, notFunc, closes.1]
    · rename_i goesOn
      rw [if_neg (show ¬(token.kind = .rparen ∧ call.small.parens = 0) from goesOn)]
      refine (call.accept_small token).bind fun after other same => .ok ⟨?_, same.2⟩
      rw [same.1]
      rfl

end State

/-- A name that opens no call is that of a function only behind the word for one. -/
theorem small_of_not_call {token next : Token} (named : Bool) (rest : List Token)
    (notCall : ¬(token.kind = .identifier ∧ next.kind = .lparen)) :
    token.small (named || opensArguments (next :: rest)) = token.small named := by
  by_cases isName : token.kind = .identifier
  · have other : next.kind ≠ .lparen := fun opens => notCall ⟨isName, opens⟩
    have closed : (next.kind == .lparen) = false := by simpa using other
    simp [opensArguments, closed]
  · rw [Token.small_of_ne_identifier isName, ← Token.small_of_ne_identifier isName named]

/-- Calls are scanned alike in small letters. -/
theorem scan_small (state : State) (tokens : List Token) :
    Tells (fun after other => other = after.small) (scan state tokens)
      (scan state.small (smallSource (endsInFunc state.current) tokens)) := by
  have small (state : State) : state.small.opened = state.opened.map OpenCall.small := rfl
  have isEmpty (state : State) : state.small.opened.isEmpty = state.opened.isEmpty := by simp [small]
  fun_induction scan state tokens with
  | case1 state call outer opened =>
    unfold smallSource scan
    rw [small, opened]
    exact .error (.preparing _ _ _)
  | case2 state opened =>
    unfold smallSource scan
    rw [small, opened]
    exact .ok rfl
  | case3 state token ih =>
    have last : smallSource (endsInFunc state.current) [token] =
        [token.small (endsInFunc state.current)] := by simp [smallSource, opensArguments]
    rw [last]
    refine (state.accept_small token).bind fun after other same => ?_
    rw [same.1]
    exact ih after
  | case4 state token next rest opens ih =>
    obtain ⟨isFunc, outside⟩ := opens
    rcases state with ⟨_ | ⟨call, outer⟩, out, calls⟩
    · have func (named : Bool) : token.small named = token.small (endsInFunc out) := by
        have word : token.kind ≠ .identifier := by simp [isFunc]
        rw [Token.small_of_ne_identifier word named, Token.small_of_ne_identifier word (endsInFunc out)]
      rw [smallSource, smallSource, scan, Token.kind_small, if_pos ⟨isFunc, rfl⟩, func]
      simpa [State.small, State.current, smallBack, endsInFunc, isFunc] using ih
    · cases outside
  | case5 state token next rest notFunc opens ih =>
    rw [smallSource, smallSource, scan, Token.kind_small, Token.kind_small, isEmpty, if_neg notFunc,
      if_pos opens]
    have name : token.small (endsInFunc state.current || opensArguments (next :: rest)) =
        { token with lexeme := Text.lower token.lexeme } := by
      simp [opensArguments, opens, Token.small]
    have first : (next.kind == .kwFunc) = false := by simp [opens.2]
    rw [name, first]
    exact ih
  | case6 state token next rest notFunc notCall after read ih =>
    have accepted := state.accept_small token
    rw [smallSource, small_of_not_call _ _ notCall]
    rw [smallSource, scan, Token.kind_small, Token.kind_small, isEmpty, if_neg notFunc, if_neg notCall,
      ← smallSource]
    rw [read] at accepted
    generalize state.small.accept (token.small (endsInFunc state.current)) = outcome at accepted ⊢
    cases accepted with
    | ok same =>
      dsimp only
      rw [same.1, ← same.2]
      exact ih
  | case7 state token next rest notFunc notCall fault read =>
    have accepted := state.accept_small token
    rw [smallSource, small_of_not_call _ _ notCall]
    rw [smallSource, scan, Token.kind_small, Token.kind_small, isEmpty, if_neg notFunc, if_neg notCall]
    rw [read] at accepted
    generalize state.small.accept (token.small (endsInFunc state.current)) = outcome at accepted ⊢
    cases accepted with
    | error alike => exact .error alike

/-- Taking out the calls of a source in small letters. -/
theorem extract_small (tokens : List Token) :
    Tells (fun found other => other = (smallList false found.1, found.2.map CallSite.small))
      (extract tokens) (extract (smallSource false tokens)) := by
  have start : ({} : State).small = {} := by simp [State.small, smallBack]
  have scanned := scan_small {} tokens
  rw [start] at scanned
  refine scanned.bind fun state other same => ?_
  subst same
  exact .ok (by rw [← reverse_smallBack]; rfl)

end CallSites

/-!
## Taking out loops does not see case

Reading tokens in small letters takes out the same loops, in small letters: what a loop goes through
ends at the same words, and so does its body.
-/

/-- A loop in small letters, before it is known that no function is opened in its body. -/
def ForLoop.smallGroup (loop : ForLoop) : ForLoop :=
  { loop with index := Text.lower loop.index, head := loop.head.small, body := loop.body.smallGroup }

namespace Loops

/-- A part of a header is read alike in small letters. -/
theorem headerTokens_small (stops : TokenKind → Bool) (part : String) (named : Bool)
    (tokens : List Token) (passed : stops .identifier = false) :
    Tells (fun found other => other = (smallList named found.1, smallList false found.2))
      (headerTokens stops part tokens) (headerTokens stops part (smallList named tokens)) := by
  induction tokens generalizing named with
  | nil => exact .ok rfl
  | cons token rest ih =>
    rw [smallList]
    unfold headerTokens
    rw [Token.endsLine_small, Token.kind_small, Token.line_small]
    split
    · rename_i stopped
      have other : token.kind ≠ .identifier := fun isName => by
        simp [Token.endsLine, isName, passed] at stopped
      rw [Token.small_of_ne_identifier other]
      exact .ok (by rw [smallList, smallList])
    · split
      · exact .error (.preparing _ _ _)
      · refine (ih (token.kind == .kwFunc)).elim (fun _ _ => .error) fun found other same => ?_
        subst same
        exact .ok rfl

/-- An expression of a header is read alike in small letters. -/
theorem headerExpression_small (stops : TokenKind → Bool) (part : String) (line : Nat)
    (tokens : List Token) (passed : stops .identifier = false) :
    Tells (fun found other => other = (found.1.smallGroup, smallList false found.2))
      (headerExpression stops part line tokens)
      (headerExpression stops part line (smallList false tokens)) := by
  unfold headerExpression
  refine (headerTokens_small stops part false tokens passed).elim (fun _ _ => .error)
    fun found other same => ?_
  subst same
  have isEmpty : (smallList false found.1).isEmpty = found.1.isEmpty := by cases found.1 <;> rfl
  dsimp only
  rw [isEmpty]
  split
  · exact .error (.preparing _ _ _)
  · exact .ok rfl

/-- The optional step is read alike in small letters. -/
theorem stepPart_small (line : Nat) (tokens : List Token) :
    Tells (fun found other =>
        other = (found.1.map TokenBlock.smallGroup, smallList false found.2))
      (stepPart line tokens) (stepPart line (smallList false tokens)) := by
  cases tokens with
  | nil => exact .ok rfl
  | cons token rest =>
    rw [smallList]
    unfold stepPart
    dsimp only
    rw [Token.kind_small]
    split
    · rename_i isStep
      rw [show (token.kind == .kwFunc) = false by simp [isStep]]
      refine (headerExpression_small (fun _ => false) "step" line rest rfl).elim (fun _ _ => .error)
        fun found other same => ?_
      subst same
      exact .ok rfl
    · exact .ok rfl

/-- A counting header is read alike in small letters. -/
theorem rangeHead_small (line : Nat) (tokens : List Token) :
    Tells (fun found other => other = (found.1.small, smallList false found.2))
      (rangeHead line tokens) (rangeHead line (smallList false tokens)) := by
  unfold rangeHead
  refine (headerExpression_small (· == .kwTo) "start index" line tokens rfl).elim (fun _ _ => .error)
    fun found other same => ?_
  subst same
  obtain ⟨first, _ | ⟨token, rest⟩⟩ := found
  · exact .error (.preparing _ _ _)
  · rw [smallList]
    dsimp only
    rw [Token.kind_small]
    split
    · rename_i isTo
      rw [show (token.kind == .kwFunc) = false by simp [isTo]]
      refine (headerExpression_small (· == .kwStep) "end index" line rest rfl).elim (fun _ _ => .error)
        fun found other same => ?_
      subst same
      dsimp only
      refine (stepPart_small line found.2).elim (fun _ _ => .error) fun found other same => ?_
      subst same
      exact .ok rfl
    · exact .error (.preparing _ _ _)

/-- An iterating header is read alike in small letters. -/
theorem eachHead_small (line : Nat) (tokens : List Token) :
    Tells (fun found other => other = (found.1.small, smallList false found.2))
      (eachHead line tokens) (eachHead line (smallList false tokens)) := by
  unfold eachHead
  refine (headerExpression_small (fun _ => false) "collection" line tokens rfl).elim (fun _ _ => .error)
    fun found other same => ?_
  subst same
  exact .ok rfl

/-- The header of a loop, behind its opening word. -/
theorem header_small (line : Nat) (tokens : List Token) :
    Tells (fun found other =>
        other = (Text.lower found.1, found.2.1.small, smallList false found.2.2))
      (header line tokens) (header line (smallList false tokens)) := by
  rcases tokens with _ | ⟨index, _ | ⟨mark, tail⟩⟩
  · exact .error (.refl _)
  · rw [smallList, smallList]
    unfold header
    dsimp only
    rw [Token.kind_small]
    split
    · exact .error (.refl _)
    · exact .error (.refl _)
  · rw [smallList, smallList]
    unfold header
    dsimp only
    rw [Token.kind_small, Token.kind_small, Token.isOperator_small]
    split
    · rename_i isVariable
      have name : (index.small false).lexeme = Text.lower index.lexeme := by
        simp [Token.small, isVariable, TokenKind.isVerbatim]
      rw [name]
      split
      · rename_i equals
        have isOperator : mark.kind = .operator := by
          simp only [Token.isOperator, Bool.and_eq_true, beq_iff_eq] at equals
          exact equals.1
        rw [show (mark.kind == .kwFunc) = false by simp [isOperator]]
        refine (rangeHead_small line tail).elim (fun _ _ => .error) fun found other same => ?_
        subst same
        exact .ok rfl
      · split
        · rename_i isIn
          rw [show (mark.kind == .kwFunc) = false by simp [isIn]]
          refine (eachHead_small line tail).elim (fun _ _ => .error) fun found other same => ?_
          subst same
          exact .ok rfl
        · exact .error (.refl _)
    · exact .error (.refl _)

/-! ### Reading all tokens -/

/-- An open loop in small letters. -/
def OpenLoop.small (loop : OpenLoop) : OpenLoop where
  opener := loop.opener.small false
  index := Text.lower loop.index
  head := loop.head.small
  body := smallBack loop.body

namespace State

/-- Where the reading of tokens in small letters stands. -/
def small (state : State) : State where
  opened := state.opened.map OpenLoop.small
  out := smallBack state.out
  loops := state.loops.map ForLoop.smallGroup

/-- The tokens of the body or of the result that are being read, last one first. -/
def current (state : State) : List Token :=
  match state.opened with
  | loop :: _ => loop.body
  | [] => state.out

/-- An emitted token is the last one of the innermost loop. -/
@[simp] theorem current_emit (state : State) (token : Token) :
    (state.emit token).current = token :: state.current := by
  rcases state with ⟨_ | ⟨loop, outer⟩, out, loops⟩ <;> rfl

/-- A token is emitted into the loops alike in small letters. -/
theorem emit_small (state : State) (token : Token) :
    (state.emit token).small = state.small.emit (token.small (endsInFunc state.current)) := by
  rcases state with ⟨_ | ⟨loop, outer⟩, out, loops⟩ <;> rfl

/-- A closing word closes the same loop, whatever stands behind it. -/
theorem close_small (state : State) (closer : Token) (named earlier : Bool) (rest : List Token) :
    Tells (fun after other => other = after.small ∧ endsInFunc after.current = false)
      (state.close closer rest)
      (state.small.close (closer.small named) (smallList earlier rest)) := by
  rcases state with ⟨_ | ⟨loop, outer⟩, out, loops⟩
  · exact .error (by rw [Token.line_small]; exact .refl _)
  · have small : State.small ⟨loop :: outer, out, loops⟩ =
        ⟨loop.small :: outer.map OpenLoop.small, smallBack out, loops.map ForLoop.smallGroup⟩ := rfl
    have closed : Tells (fun (after other : State) => other = after.small ∧
          endsInFunc after.current = false)
        (.ok (emit ⟨outer, out, loops.push ⟨loop.index, loop.head, loop.body.reverse.toArray,
          loop.opener.line⟩⟩ { loop.opener with kind := .loop loops.size, lexeme := "For" }))
        (.ok (emit ⟨outer.map OpenLoop.small, smallBack out, (loops.map ForLoop.smallGroup).push
            ⟨loop.small.index, loop.small.head, loop.small.body.reverse.toArray, loop.small.opener.line⟩⟩
          { loop.small.opener with
            kind := .loop (loops.map ForLoop.smallGroup).size, lexeme := "For" })) := by
      refine .ok ⟨?_, by rw [current_emit]; rfl⟩
      have verbatim (named : Bool) :
          ({ loop.opener with kind := .loop loops.size, lexeme := "For" } : Token).small named =
            { loop.opener with kind := .loop loops.size, lexeme := "For" } :=
        Token.small_of_isVerbatim rfl fun name => by cases name
      rw [emit_small, verbatim]
      simp [State.small, OpenLoop.small, ForLoop.smallGroup, reverse_smallBack, TokenBlock.smallGroup]
    rw [small]
    unfold close
    cases rest with
    | nil => exact closed
    | cons next rest =>
      rw [smallList]
      dsimp only
      rw [Token.endsLine_small, Token.line_small]
      split
      · exact closed
      · exact .error (.preparing _ _ _)

end State

/-- Loops are scanned alike in small letters. -/
theorem scan_small (state : State) (lineStart : Bool) (tokens : List Token) :
    Tells (fun after other => other = after.small) (scan state lineStart tokens)
      (scan state.small lineStart (smallList (endsInFunc state.current) tokens)) := by
  have small (state : State) : state.small.opened = state.opened.map OpenLoop.small := rfl
  have isEmpty (state : State) : state.small.opened.isEmpty = state.opened.isEmpty := by simp [small]
  fun_induction scan state lineStart tokens with
  | case1 state lineStart loop outer opened =>
    rw [smallList, scan, small, opened]
    exact .error (by
      rw [show (loop.small).opener.line = loop.opener.line from Token.line_small _ _]
      exact .refl _)
  | case2 state lineStart opened =>
    rw [smallList, scan, small, opened]
    exact .ok rfl
  | case3 state lineStart token rest opens fault read =>
    have header := header_small token.line rest
    rw [smallList, scan, Token.kind_small, Token.line_small, if_pos opens,
      show (token.kind == .kwFunc) = false by simp [opens.1]]
    rw [read] at header
    generalize Loops.header token.line (smallList false rest) = outcome at header ⊢
    cases header with
    | error alike => exact .error alike
  | case4 state lineStart token rest opens index head after read ih =>
    have header := header_small token.line rest
    rw [smallList, scan, Token.kind_small, Token.line_small, if_pos opens,
      show (token.kind == .kwFunc) = false by simp [opens.1],
      Token.small_of_ne_identifier (by simp [opens.1])]
    rw [read] at header
    generalize Loops.header token.line (smallList false rest) = outcome at header ⊢
    cases header with
    | ok same =>
      subst same
      exact ih
  | case5 state lineStart token rest inside opens =>
    rw [smallList, scan, Token.kind_small, Token.line_small, if_neg inside, isEmpty, if_pos opens]
    exact .error (.refl _)
  | case6 state lineStart token rest inside inner closes fault read =>
    have closed := state.close_small token (endsInFunc state.current) (token.kind == .kwFunc) rest
    rw [smallList, scan, Token.kind_small, if_neg inside, isEmpty, if_neg inner, if_pos closes]
    rw [read] at closed
    generalize state.small.close _ (smallList (token.kind == .kwFunc) rest) = outcome at closed ⊢
    cases closed with
    | error alike => exact .error alike
  | case7 state lineStart token rest inside inner closes after read ih =>
    have closed := state.close_small token (endsInFunc state.current) (token.kind == .kwFunc) rest
    have word : (token.kind == .kwFunc) = false := by simp [closes]
    rw [smallList, scan, Token.kind_small, if_neg inside, isEmpty, if_neg inner, if_pos closes]
    rw [read] at closed
    generalize state.small.close _ (smallList (token.kind == .kwFunc) rest) = outcome at closed ⊢
    cases closed with
    | ok same =>
      rw [same.2] at ih
      dsimp only
      rw [same.1, word]
      exact ih
  | case8 state lineStart token rest inside inner goesOn ih =>
    rw [smallList, scan, Token.kind_small, if_neg inside, isEmpty, if_neg inner, if_neg goesOn,
      Token.endsLine_small, ← State.emit_small]
    rw [State.current_emit] at ih
    exact ih

/-- Taking out the loops of tokens in small letters. -/
theorem extract_small (tokens : List Token) :
    Tells (fun found other => other = (smallList false found.1, found.2.map ForLoop.smallGroup))
      (extract tokens) (extract (smallList false tokens)) := by
  have start : ({} : State).small = {} := by simp [State.small, smallBack]
  have scanned := scan_small {} true tokens
  rw [start] at scanned
  refine scanned.bind fun state other same => ?_
  subst same
  exact .ok (by rw [← reverse_smallBack]; rfl)

end Loops

end LineScript
