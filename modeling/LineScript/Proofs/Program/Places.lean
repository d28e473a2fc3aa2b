import LineScript.Program.Prepare
import LineScript.Proofs.Spelling.Functions

/-!
# Where tokens stand

The passes of preparing look at the kinds and texts of tokens. The place of a token is kept beside
it and ends up in reports only, so tokens that differ in their places only give programs that differ
in places only, or are refused alike.
-/

namespace LineScript

/-- The token without its place. -/
def Token.unplaced (token : Token) : Token := { token with line := 0, col := 0 }

namespace Token

variable (token : Token)

/-- Taking the place away keeps the kind. -/
@[simp] theorem kind_unplaced : token.unplaced.kind = token.kind := rfl

/-- Taking the place away keeps the lexeme. -/
@[simp] theorem lexeme_unplaced : token.unplaced.lexeme = token.lexeme := rfl

/-- Whether a token ends a line does not depend on its place. -/
@[simp] theorem endsLine_unplaced : token.unplaced.endsLine = token.endsLine := rfl

/-- Whether a token is an operator does not depend on its place. -/
@[simp] theorem isOperator_unplaced (operator : String) :
    token.unplaced.isOperator operator = token.isOperator operator := rfl

/-- How a token is shown does not depend on its place. -/
@[simp] theorem display_unplaced : token.unplaced.display = token.display := rfl

/-- A place is taken away once. -/
@[simp] theorem unplaced_unplaced : token.unplaced.unplaced = token.unplaced := rfl

end Token

/-- Tokens without their places. -/
def TokenBlock.unplaced (block : TokenBlock) : TokenBlock := block.map Token.unplaced

/-- A call without its place. -/
def CallSite.unplaced (site : CallSite) : CallSite :=
  { site with args := site.args.map TokenBlock.unplaced, line := 0 }

/-- A parameter without places. -/
def Param.unplaced (param : Param) : Param :=
  { param with fallback := param.fallback.map TokenBlock.unplaced }

/-- A function without places. -/
def UserFunction.unplaced (function : UserFunction) : UserFunction :=
  { function with
    params := function.params.map Param.unplaced, body := function.body.unplaced, line := 0 }

/-- A loop's header without places. -/
def LoopHead.unplaced : LoopHead → LoopHead
  | range first last step => range first.unplaced last.unplaced (step.map TokenBlock.unplaced)
  | each collection => each collection.unplaced

/-- A loop without places. -/
def ForLoop.unplaced (loop : ForLoop) : ForLoop :=
  { loop with head := loop.head.unplaced, body := loop.body.unplaced, line := 0 }

/-- A program without places. -/
def Program.unplaced (program : Program) : Program where
  tokens := program.tokens.unplaced
  functions := program.functions.map fun entry => (entry.1, entry.2.unplaced)
  calls := program.calls.map CallSite.unplaced
  loops := program.loops.map ForLoop.unplaced

/-- Taking the places from a block's tokens is taking them from the list. -/
@[simp] theorem TokenBlock.toArray_unplaced (tokens : List Token) :
    TokenBlock.unplaced tokens.toArray = (tokens.map Token.unplaced).toArray := by
  simp [TokenBlock.unplaced]

variable {α β γ δ : Type}

/-- Both computations fail, or the second gives what the first gives, changed. -/
inductive Images (change : α → β) : Except Fault α → Except Fault β → Prop where
  /-- Both succeed. -/
  | ok (value : α) : Images change (.ok value) (.ok (change value))
  /-- Both fail. -/
  | error (fault other : Fault) : Images change (.error fault) (.error other)

namespace Images

variable {change : α → β} {later : γ → δ} {left : Except Fault α} {right : Except Fault β}

/-- A result equal to the change of another is its image. -/
theorem of_eq {value : α} {other : β} (image : other = change value) :
    Images change (.ok value) (.ok other) := image ▸ .ok value

/-- What follows holds whether both computations succeed or both fail. -/
@[elab_as_elim]
theorem elim {motive : Except Fault α → Except Fault β → Prop} (images : Images change left right)
    (fails : ∀ fault other, motive (.error fault) (.error other))
    (succeeds : ∀ value, left = .ok value → motive (.ok value) (.ok (change value))) :
    motive left right := by
  cases images with
  | ok value => exact succeeds value rfl
  | error fault other => exact fails fault other

/-- Sequences are images of each other when both parts are. -/
theorem bind {next : α → Except Fault γ} {other : β → Except Fault δ}
    (first : Images change left right)
    (rest : ∀ value, left = .ok value → Images later (next value) (other (change value))) :
    Images later (left >>= next) (right >>= other) := by
  cases first with
  | ok value => exact rest value rfl
  | error => exact .error _ _

/-- A computation for each member of a list. -/
theorem forM {first : α → Except Fault Unit} {other : β → Except Fault Unit}
    (each : ∀ member, Images id (first member) (other (change member))) (list : List α) :
    Images id (list.forM first) ((list.map change).forM other) := by
  induction list with
  | nil => exact .ok ()
  | cons member list ih => exact (each member).bind fun _ _ => ih

/-- The value of an image is the change of the value. -/
theorem toOption (images : Images change left right) : right.toOption = left.toOption.map change := by
  cases images <;> rfl

end Images

/-! ### Calls -/

namespace CallSites

/-- An open call without places. -/
def OpenCall.unplaced (call : OpenCall) : OpenCall :=
  { call with
    name := call.name.unplaced, groups := call.groups.map (List.map Token.unplaced)
    group := call.group.map Token.unplaced }

/-- Where the reading of tokens without places stands. -/
def State.unplaced (state : State) : State where
  opened := state.opened.map OpenCall.unplaced
  out := state.out.map Token.unplaced
  calls := state.calls.map CallSite.unplaced

/-- Accepting a token into an open call does not depend on places. -/
theorem OpenCall.accept_unplaced (call : OpenCall) (token : Token) :
    Images OpenCall.unplaced (call.accept token) (call.unplaced.accept token.unplaced) := by
  have group : call.unplaced.group.isEmpty = call.group.isEmpty := List.isEmpty_map
  unfold OpenCall.accept
  rw [Token.kind_unplaced]
  split
  case h_5 =>
    rw [group]
    change Images _ _ (if 0 < call.brackets then _ else if 0 < call.parens then _ else _)
    repeat' split
    · exact .ok (call.push token)
    · exact .error _ _
    · exact .error _ _
    · exact .of_eq (by simp [OpenCall.unplaced])
  case h_6 | h_7 => exact .error _ _
  all_goals exact .ok _

/-- Closing a call does not depend on places. -/
theorem OpenCall.close_unplaced (call : OpenCall) :
    Images CallSite.unplaced call.close call.unplaced.close := by
  have group : call.unplaced.group.isEmpty = call.group.isEmpty := List.isEmpty_map
  have groups : call.unplaced.groups.isEmpty = call.groups.isEmpty := List.isEmpty_map
  have site (parts : List (List Token)) :
      (⟨call.unplaced.name.lexeme, (parts.map (List.map Token.unplaced)).reverse.map List.toArray,
          call.unplaced.name.line⟩ : CallSite) =
        CallSite.unplaced ⟨call.name.lexeme, parts.reverse.map List.toArray, call.name.line⟩ := by
    simp [CallSite.unplaced, OpenCall.unplaced, List.map_reverse, Function.comp_def]
    rfl
  unfold OpenCall.close
  dsimp only
  rw [group, groups]
  split
  · have finished : call.unplaced.group.reverse :: call.unplaced.groups =
        (call.group.reverse :: call.groups).map (List.map Token.unplaced) := by
      simp [OpenCall.unplaced]
    rw [finished, site]
    exact .ok _
  · split
    · exact .ok _
    · exact .error _ _

namespace State

/-- Emitting a token does not depend on places. -/
theorem emit_unplaced (state : State) (token : Token) :
    (state.emit token).unplaced = state.unplaced.emit token.unplaced := by
  rcases state with ⟨_ | ⟨call, outer⟩, out, calls⟩ <;> rfl

/-- Accepting a token does not depend on places. -/
theorem accept_unplaced (state : State) (token : Token) :
    Images State.unplaced (state.accept token) (state.unplaced.accept token.unplaced) := by
  rcases state with ⟨_ | ⟨call, outer⟩, out, calls⟩
  · exact .ok _
  · unfold State.accept
    change Images _ _ (if token.kind = .rparen ∧ call.parens = 0 then _ else _)
    dsimp only
    split
    · refine call.close_unplaced.bind fun site _ => ?_
      refine .of_eq ?_
      rw [emit_unplaced]
      simp only [State.unplaced, Array.map_push, Array.size_map]
      rfl
    · exact (call.accept_unplaced token).bind fun after _ => .ok _

end State

/-- Scanning for calls does not depend on places. -/
theorem scan_unplaced (state : State) (tokens : List Token) :
    Images State.unplaced (scan state tokens)
      (scan state.unplaced (tokens.map Token.unplaced)) := by
  have opened (state : State) : state.unplaced.opened = state.opened.map OpenCall.unplaced := rfl
  have isEmpty (state : State) : state.unplaced.opened.isEmpty = state.opened.isEmpty :=
    List.isEmpty_map
  fun_induction scan state tokens with
  | case1 state call outer found =>
    rw [List.map_nil, scan, opened, found]
    exact .error _ _
  | case2 state found =>
    rw [List.map_nil, scan, opened, found]
    exact .ok state
  | case3 state token ih => exact (state.accept_unplaced token).bind fun after _ => ih after
  | case4 state token next rest opens ih =>
    rw [List.map_cons, List.map_cons, scan, Token.kind_unplaced, isEmpty, if_pos opens]
    exact ih
  | case5 state token next rest notFunc opens ih =>
    rw [List.map_cons, List.map_cons, scan, Token.kind_unplaced, Token.kind_unplaced, isEmpty,
      if_neg notFunc, if_pos opens]
    exact ih
  | case6 state token next rest notFunc notCall after read ih =>
    have accepted := state.accept_unplaced token
    rw [List.map_cons, List.map_cons, scan, Token.kind_unplaced, Token.kind_unplaced, isEmpty,
      if_neg notFunc, if_neg notCall]
    rw [read] at accepted
    generalize state.unplaced.accept token.unplaced = outcome at accepted ⊢
    cases accepted with
    | ok => exact ih
  | case7 state token next rest notFunc notCall fault read =>
    have accepted := state.accept_unplaced token
    rw [List.map_cons, List.map_cons, scan, Token.kind_unplaced, Token.kind_unplaced, isEmpty,
      if_neg notFunc, if_neg notCall]
    rw [read] at accepted
    generalize state.unplaced.accept token.unplaced = outcome at accepted ⊢
    cases accepted with
    | error => exact .error _ _

/-- Extracting calls does not depend on places. -/
theorem extract_unplaced (tokens : List Token) :
    Images (fun found => (found.1.map Token.unplaced, found.2.map CallSite.unplaced))
      (extract tokens) (extract (tokens.map Token.unplaced)) := by
  have start : ({} : State).unplaced = {} := by simp [State.unplaced]
  have scanned := scan_unplaced {} tokens
  rw [start] at scanned
  refine scanned.bind fun state _ => ?_
  have out : state.unplaced.out.reverse = state.out.reverse.map Token.unplaced :=
    List.map_reverse.symm
  rw [out]
  exact .ok _

end CallSites

/-! ### Loops -/

namespace Loops

/-- Something read from the front of tokens, and the tokens after it, without places. -/
def unplacedFront {part : Type} (change : part → part) (read : part × List Token) :
    part × List Token := (change read.1, read.2.map Token.unplaced)

/-- Reading a part of a header does not depend on places. -/
theorem headerTokens_unplaced (stops : TokenKind → Bool) (part : String) (tokens : List Token) :
    Images (unplacedFront (List.map Token.unplaced)) (headerTokens stops part tokens)
      (headerTokens stops part (tokens.map Token.unplaced)) := by
  induction tokens with
  | nil => exact .ok ([], [])
  | cons token rest ih =>
    rw [List.map_cons]
    unfold headerTokens
    rw [Token.endsLine_unplaced, Token.kind_unplaced]
    split
    · exact .ok ([], token :: rest)
    · split
      · exact .error _ _
      · exact ih.elim .error fun found _ => .ok (token :: found.1, found.2)

/-- Reading an expression of a header does not depend on places. -/
theorem headerExpression_unplaced (stops : TokenKind → Bool) (part : String) (line other : Nat)
    (tokens : List Token) :
    Images (unplacedFront TokenBlock.unplaced) (headerExpression stops part line tokens)
      (headerExpression stops part other (tokens.map Token.unplaced)) := by
  unfold headerExpression
  refine (headerTokens_unplaced stops part tokens).elim .error fun found _ => ?_
  simp only [unplacedFront, List.isEmpty_map, ← TokenBlock.toArray_unplaced]
  split
  · exact .error _ _
  · exact .ok (found.1.toArray, found.2)

/-- Reading an optional step does not depend on places. -/
theorem stepPart_unplaced (line other : Nat) (tokens : List Token) :
    Images (unplacedFront (Option.map TokenBlock.unplaced)) (stepPart line tokens)
      (stepPart other (tokens.map Token.unplaced)) := by
  cases tokens with
  | nil => exact .ok (none, [])
  | cons token rest =>
    rw [List.map_cons]
    unfold stepPart
    dsimp only
    rw [Token.kind_unplaced]
    split
    · exact (headerExpression_unplaced _ _ line other rest).elim .error fun found _ =>
        .ok (some found.1, found.2)
    · exact .ok (none, token :: rest)

/-- Reading a counting header does not depend on places. -/
theorem rangeHead_unplaced (line other : Nat) (tokens : List Token) :
    Images (unplacedFront LoopHead.unplaced) (rangeHead line tokens)
      (rangeHead other (tokens.map Token.unplaced)) := by
  unfold rangeHead
  refine (headerExpression_unplaced _ _ line other tokens).elim .error fun found _ => ?_
  obtain ⟨first, _ | ⟨token, rest⟩⟩ := found
  · exact .error _ _
  · dsimp only [unplacedFront]
    rw [List.map_cons]
    dsimp only
    rw [Token.kind_unplaced]
    split
    · refine (headerExpression_unplaced _ _ line other rest).elim .error fun found _ => ?_
      dsimp only [unplacedFront]
      exact (stepPart_unplaced line other found.2).elim .error fun step _ =>
        .ok (LoopHead.range first found.1 step.1, step.2)
    · exact .error _ _

/-- Reading an iterating header does not depend on places. -/
theorem eachHead_unplaced (line other : Nat) (tokens : List Token) :
    Images (unplacedFront LoopHead.unplaced) (eachHead line tokens)
      (eachHead other (tokens.map Token.unplaced)) := by
  unfold eachHead
  exact (headerExpression_unplaced _ _ line other tokens).elim .error fun found _ =>
    .ok (LoopHead.each found.1, found.2)

/-- Reading a header does not depend on places. -/
theorem header_unplaced (line other : Nat) (tokens : List Token) :
    Images (fun found => (found.1, unplacedFront LoopHead.unplaced found.2)) (header line tokens)
      (header other (tokens.map Token.unplaced)) := by
  rcases tokens with _ | ⟨index, _ | ⟨mark, tail⟩⟩
  · exact .error _ _
  · rw [List.map_cons, List.map_nil]
    unfold header
    dsimp only
    rw [Token.kind_unplaced]
    split <;> exact .error _ _
  · rw [List.map_cons, List.map_cons]
    unfold header
    dsimp only
    rw [Token.kind_unplaced, Token.kind_unplaced, Token.isOperator_unplaced]
    split
    · split
      · exact (rangeHead_unplaced line other tail).elim .error fun found _ =>
          .ok (index.lexeme, found)
      · split
        · exact (eachHead_unplaced line other tail).elim .error fun found _ =>
            .ok (index.lexeme, found)
        · exact .error _ _
    · exact .error _ _

/-- An open loop without places. -/
def OpenLoop.unplaced (loop : OpenLoop) : OpenLoop where
  opener := loop.opener.unplaced
  index := loop.index
  head := loop.head.unplaced
  body := loop.body.map Token.unplaced

namespace State

/-- Where the reading of tokens without places stands. -/
def unplaced (state : State) : State where
  opened := state.opened.map OpenLoop.unplaced
  out := state.out.map Token.unplaced
  loops := state.loops.map ForLoop.unplaced

/-- Emitting a token into the loops does not depend on places. -/
theorem emit_unplaced (state : State) (token : Token) :
    (state.emit token).unplaced = state.unplaced.emit token.unplaced := by
  rcases state with ⟨_ | ⟨loop, outer⟩, out, loops⟩ <;> rfl

/-- Closing a loop does not depend on places. -/
theorem close_unplaced (state : State) (closer : Token) (rest : List Token) :
    Images State.unplaced (state.close closer rest)
      (state.unplaced.close closer.unplaced (rest.map Token.unplaced)) := by
  rcases state with ⟨_ | ⟨loop, outer⟩, out, loops⟩
  · exact .error _ _
  · have small : State.unplaced ⟨loop :: outer, out, loops⟩ = ⟨loop.unplaced ::
        outer.map OpenLoop.unplaced, out.map Token.unplaced, loops.map ForLoop.unplaced⟩ := rfl
    have closed : Images State.unplaced
        (.ok (emit ⟨outer, out, loops.push ⟨loop.index, loop.head, loop.body.reverse.toArray,
          loop.opener.line⟩⟩ { loop.opener with kind := .loop loops.size, lexeme := "For" }))
        (.ok (emit ⟨outer.map OpenLoop.unplaced, out.map Token.unplaced,
            (loops.map ForLoop.unplaced).push ⟨loop.unplaced.index, loop.unplaced.head,
              loop.unplaced.body.reverse.toArray, loop.unplaced.opener.line⟩⟩
          { loop.unplaced.opener with
            kind := .loop (loops.map ForLoop.unplaced).size, lexeme := "For" })) := by
      refine .of_eq ?_
      rw [emit_unplaced, Array.size_map]
      simp [State.unplaced, OpenLoop.unplaced, ForLoop.unplaced, Token.unplaced]
    rw [small]
    unfold close
    cases rest with
    | nil => exact closed
    | cons next rest =>
      rw [List.map_cons]
      dsimp only
      rw [Token.endsLine_unplaced]
      split
      · exact closed
      · exact .error _ _

end State

/-- Scanning for loops does not depend on places. -/
theorem scan_unplaced (state : State) (lineStart : Bool) (tokens : List Token) :
    Images State.unplaced (scan state lineStart tokens)
      (scan state.unplaced lineStart (tokens.map Token.unplaced)) := by
  have opened (state : State) : state.unplaced.opened = state.opened.map OpenLoop.unplaced := rfl
  have isEmpty (state : State) : state.unplaced.opened.isEmpty = state.opened.isEmpty :=
    List.isEmpty_map
  fun_induction scan state lineStart tokens with
  | case1 state lineStart loop outer found =>
    rw [List.map_nil, scan, opened, found]
    exact .error _ _
  | case2 state lineStart found =>
    rw [List.map_nil, scan, opened, found]
    exact .ok state
  | case3 state lineStart token rest opens fault read =>
    have head := header_unplaced token.line token.unplaced.line rest
    rw [List.map_cons, scan, Token.kind_unplaced, if_pos opens]
    rw [read] at head
    generalize header token.unplaced.line (rest.map Token.unplaced) = outcome at head ⊢
    cases head with
    | error => exact .error _ _
  | case4 state lineStart token rest opens index head after read ih =>
    have head := header_unplaced token.line token.unplaced.line rest
    rw [List.map_cons, scan, Token.kind_unplaced, if_pos opens]
    rw [read] at head
    generalize header token.unplaced.line (rest.map Token.unplaced) = outcome at head ⊢
    cases head with
    | ok => exact ih
  | case5 state lineStart token rest inside opens =>
    rw [List.map_cons, scan, Token.kind_unplaced, if_neg inside, isEmpty, if_pos opens]
    exact .error _ _
  | case6 state lineStart token rest inside inner closes fault read =>
    have closed := state.close_unplaced token rest
    rw [List.map_cons, scan, Token.kind_unplaced, if_neg inside, isEmpty, if_neg inner,
      if_pos closes]
    rw [read] at closed
    generalize state.unplaced.close token.unplaced (rest.map Token.unplaced) = outcome at closed ⊢
    cases closed with
    | error => exact .error _ _
  | case7 state lineStart token rest inside inner closes after read ih =>
    have closed := state.close_unplaced token rest
    rw [List.map_cons, scan, Token.kind_unplaced, if_neg inside, isEmpty, if_neg inner,
      if_pos closes]
    rw [read] at closed
    generalize state.unplaced.close token.unplaced (rest.map Token.unplaced) = outcome at closed ⊢
    cases closed with
    | ok => exact ih
  | case8 state lineStart token rest inside inner goesOn ih =>
    rw [List.map_cons, scan, Token.kind_unplaced, if_neg inside, isEmpty, if_neg inner,
      if_neg goesOn, ← State.emit_unplaced]
    exact ih

/-- Extracting loops does not depend on places. -/
theorem extract_unplaced (tokens : List Token) :
    Images (fun found => (found.1.map Token.unplaced, found.2.map ForLoop.unplaced))
      (extract tokens) (extract (tokens.map Token.unplaced)) := by
  have start : ({} : State).unplaced = {} := by simp [State.unplaced]
  have scanned := scan_unplaced {} true tokens
  rw [start] at scanned
  refine scanned.bind fun state _ => ?_
  have out : state.unplaced.out.reverse = state.out.reverse.map Token.unplaced :=
    List.map_reverse.symm
  rw [out]
  exact .ok _

end Loops

/-! ### Functions -/

namespace Functions

open Loops (unplacedFront)

/-- Reading a default value does not depend on places. -/
theorem fallbackTokens_unplaced (depth : Nat) (tokens : List Token) :
    fallbackTokens depth (tokens.map Token.unplaced) =
      unplacedFront (List.map Token.unplaced) (fallbackTokens depth tokens) := by
  induction tokens generalizing depth with
  | nil => rfl
  | cons token rest ih =>
    rw [List.map_cons]
    unfold fallbackTokens
    rw [Token.kind_unplaced]
    dsimp only
    repeat' split
    all_goals first | rfl | (rw [ih]; rfl)

/-- Reading an optional default does not depend on places. -/
theorem fallback?_unplaced (name function : String) (line other : Nat) (earlier : List Param)
    (tokens : List Token) :
    Images (unplacedFront (Option.map TokenBlock.unplaced))
      (fallback? name function line earlier tokens)
      (fallback? name function other (earlier.map Param.unplaced) (tokens.map Token.unplaced)) := by
  have isSome : (earlier.map Param.unplaced).any (·.fallback.isSome) =
      earlier.any (·.fallback.isSome) := by simp [List.any_map, Function.comp_def, Param.unplaced]
  cases tokens with
  | nil =>
    simp only [List.map_nil, fallback?, isSome]
    split
    · exact .error _ _
    · exact .ok (none, [])
  | cons token rest =>
    rw [List.map_cons]
    unfold fallback?
    dsimp only
    rw [Token.isOperator_unplaced, fallbackTokens_unplaced, isSome]
    split
    · simp only [unplacedFront, List.isEmpty_map, ← TokenBlock.toArray_unplaced]
      split
      · exact .error _ _
      · exact .ok (some (fallbackTokens 0 rest).1.toArray, (fallbackTokens 0 rest).2)
    · split
      · exact .error _ _
      · exact .ok (none, token :: rest)

/-- Reading parameters does not depend on places. -/
theorem parameters_unplaced (function : String) (line other : Nat) (earlier : List Param)
    (tokens : List Token) :
    Images (unplacedFront (List.map Param.unplaced)) (parameters function line earlier tokens)
      (parameters function other (earlier.map Param.unplaced) (tokens.map Token.unplaced)) := by
  have taken (earlier : List Param) (name : String) :
      (earlier.map Param.unplaced).any (·.name == name) = earlier.any (·.name == name) := by
    simp [List.any_map, Function.comp_def, Param.unplaced]
  induction size : tokens.length using Nat.strongRecOn generalizing earlier tokens with
  | ind size ih =>
    subst size
    cases tokens with
    | nil =>
      rw [List.map_nil, parameters, parameters]
      exact .error _ _
    | cons token rest =>
      by_cases isVariable : token.kind = .variableName
      · cases fresh : earlier.any (·.name == Text.lower token.lexeme) with
        | true =>
          rw [List.map_cons, parameters, parameters, Token.kind_unplaced, Token.lexeme_unplaced]
          dsimp only
          rw [if_neg (not_not_intro isVariable), if_neg (not_not_intro isVariable), taken,
            if_pos fresh, if_pos fresh]
          exact .error _ _
        | false =>
          have isVariable' : token.unplaced.kind = .variableName := isVariable
          rw [List.map_cons, parameters_cons isVariable fresh,
            parameters_cons isVariable' (by rwa [Token.lexeme_unplaced, taken]),
            Token.lexeme_unplaced]
          refine (fallback?_unplaced _ function line other earlier rest).bind fun found read => ?_
          obtain ⟨fallback, after⟩ := found
          have shorter := fallback?_length_le read
          have params : earlier.map Param.unplaced ++
                [Param.mk (Text.lower token.lexeme) (fallback.map TokenBlock.unplaced)] =
              (earlier ++ [Param.mk (Text.lower token.lexeme) fallback]).map Param.unplaced := by
            simp [Param.unplaced]
          cases after with
          | nil => exact .error _ _
          | cons next tail =>
            dsimp only [unplacedFront]
            rw [params, List.map_cons]
            unfold afterParameter
            dsimp only
            rw [Token.kind_unplaced]
            split
            · exact ih tail.length (by simp at shorter ⊢; omega) _ _ rfl
            · split
              · exact .ok (earlier ++ [⟨Text.lower token.lexeme, fallback⟩], tail)
              · exact .error _ _
      · rw [List.map_cons, parameters, parameters, Token.kind_unplaced, if_pos isVariable,
          if_pos isVariable]
        exact .error _ _

/-- Reading a parameter list does not depend on places. -/
theorem parameterList_unplaced (function : String) (line other : Nat) (tokens : List Token) :
    Images (unplacedFront (List.map Param.unplaced)) (parameterList function line tokens)
      (parameterList function other (tokens.map Token.unplaced)) := by
  cases tokens with
  | nil => exact parameters_unplaced function line other [] []
  | cons token rest =>
    have params := parameters_unplaced function line other [] (token :: rest)
    rw [List.map_cons] at params ⊢
    unfold parameterList
    dsimp only
    rw [Token.kind_unplaced]
    split
    · exact .ok ([], rest)
    · exact params

/-- Reading a function's name does not depend on places. -/
theorem functionName_unplaced (line other : Nat) (tokens : List Token) :
    Images (unplacedFront id) (functionName line tokens)
      (functionName other (tokens.map Token.unplaced)) := by
  cases tokens with
  | nil => exact .error _ _
  | cons token rest =>
    rw [List.map_cons]
    unfold functionName
    dsimp only
    rw [Token.kind_unplaced]
    split
    · cases rest with
      | nil => exact .error _ _
      | cons next tail =>
        rw [List.map_cons]
        dsimp only
        rw [Token.kind_unplaced]
        split
        · exact .ok (token.lexeme, tail)
        · exact .error _ _
    · exact .error _ _

/-- Reading a body does not depend on places. -/
theorem bodyTokens_unplaced (function : String) (line other : Nat) (tokens : List Token) :
    Images (unplacedFront (List.map Token.unplaced)) (bodyTokens function line tokens)
      (bodyTokens function other (tokens.map Token.unplaced)) := by
  induction tokens with
  | nil => exact .error _ _
  | cons token rest ih =>
    rw [List.map_cons]
    unfold bodyTokens
    rw [Token.kind_unplaced]
    split
    · exact .ok ([], rest)
    · split
      · exact .error _ _
      · exact ih.elim .error fun found _ => .ok (token :: found.1, found.2)

/-- Expecting the end of a line does not depend on places. -/
theorem expectLineEnd_unplaced (cause : String → PrepareCause) (tokens : List Token) :
    Images id (expectLineEnd cause tokens) (expectLineEnd cause (tokens.map Token.unplaced)) := by
  cases tokens with
  | nil => exact .ok ()
  | cons token rest =>
    rw [List.map_cons]
    unfold expectLineEnd
    dsimp only
    rw [Token.endsLine_unplaced]
    split
    · exact .ok ()
    · exact .error _ _

/-- Reading a function does not depend on places. -/
theorem function_unplaced (line : Nat) (tokens : List Token) :
    Images (unplacedFront UserFunction.unplaced) (function line tokens)
      (function 0 (tokens.map Token.unplaced)) := by
  unfold function
  refine (functionName_unplaced line 0 tokens).bind fun name _ => ?_
  refine (parameterList_unplaced name.1 line 0 name.2).bind fun params _ => ?_
  refine (expectLineEnd_unplaced _ params.2).bind fun _ _ => ?_
  refine (bodyTokens_unplaced name.1 line 0 params.2).bind fun body _ => ?_
  refine (expectLineEnd_unplaced _ body.2).bind fun _ _ => .of_eq ?_
  simp [unplacedFront, UserFunction.unplaced]

/-- A table of functions without places. -/
def unplacedTable (functions : List (String × UserFunction)) : List (String × UserFunction) :=
  functions.map fun entry => (entry.1, entry.2.unplaced)

/-- What has been defined, without places. -/
def Defined.unplaced (defined : Defined) : Defined :=
  { defined with functions := unplacedTable defined.functions }

/-- Looking up a function does not depend on places. -/
theorem lookup_unplacedTable (functions : List (String × UserFunction)) (key : String) :
    (unplacedTable functions).lookup key = (functions.lookup key).map UserFunction.unplaced := by
  induction functions with
  | nil => rfl
  | cons entry rest ih =>
    obtain ⟨name, function⟩ := entry
    simp only [unplacedTable, List.map_cons, List.lookup_cons] at ih ⊢
    split
    · rfl
    · exact ih

/-- Adding a function does not depend on places. -/
theorem add_unplaced (defined : Defined) (function : UserFunction) :
    Images Defined.unplaced (defined.add function)
      (defined.unplaced.add function.unplaced) := by
  unfold Defined.add
  dsimp only
  rw [show defined.unplaced.functions = unplacedTable defined.functions from rfl,
    lookup_unplacedTable, Option.isSome_map]
  change Images _ (if (defined.functions.lookup (Text.lower function.name)).isSome then _ else _)
    (if (defined.functions.lookup (Text.lower function.name)).isSome then _ else _)
  split
  · exact .error _ _
  · refine .of_eq ?_
    simp [Defined.unplaced, unplacedTable, UserFunction.unplaced]

/-- Two actions on what is defined end as the passes before them did. -/
abbrev EndsUnplaced (change : α → β) : EStateM.Result Fault Defined α →
    EStateM.Result Fault Defined β → Prop :=
  EndAlike (fun _ _ => True) (fun defined other => other = defined.unplaced)
    fun value other => other = change value

/-- Scanning for functions does not depend on places. -/
theorem scan_unplaced (lineStart : Bool) (tokens : List Token) (defined : Defined) :
    EndsUnplaced (List.map Token.unplaced) (scan lineStart tokens defined)
      (scan lineStart (tokens.map Token.unplaced) defined.unplaced) := by
  induction size : tokens.length using Nat.strongRecOn generalizing lineStart tokens defined with
  | ind size ih =>
    subst size
    cases tokens with
    | nil =>
      rw [List.map_nil, scan]
      exact .ok rfl rfl
    | cons token rest =>
      rw [List.map_cons, scan, scan, Token.kind_unplaced, Token.endsLine_unplaced]
      split
      · split
        · refine (function_unplaced token.line rest).elim (fun _ _ => .error trivial rfl)
            fun found read => ?_
          have shorter := function_length_le read
          refine .get ?_
          have added := add_unplaced defined found.1
          generalize defined.unplaced.add found.1.unplaced = result at added ⊢
          generalize defined.add found.1 = outcome at added ⊢
          cases added with
          | ok table =>
            exact ih found.2.length (by simp only [List.length_cons]; omega) false found.2 table rfl
          | error => exact .error trivial rfl
        · exact .error trivial rfl
      · split
        · exact .error trivial rfl
        · refine (ih rest.length (by simp) _ _ _ rfl).bind
            fun found result after last held kept => ?_
          subst held
          exact .ok rfl kept

/-- Extracting functions does not depend on places. -/
theorem extract_unplaced (tokens : List Token) (defined : Defined) :
    EndsUnplaced (List.map Token.unplaced) (extract tokens defined)
      (extract (tokens.map Token.unplaced) defined.unplaced) :=
  scan_unplaced true tokens defined

end Functions

/-! ### The check of blocks -/

/-- A block keeps its kinds when the places are taken away. -/
theorem TokenBlock.kinds_unplaced (tokens : TokenBlock) :
    Layout.SameKinds tokens tokens.unplaced := fun pos => by
  simp [TokenBlock.unplaced, Function.comp_def]

namespace Structure

/-- A block that is not closed yet, without its place. -/
def OpenBlock.unplaced (block : OpenBlock) : OpenBlock := { block with line := 0 }

/-- What a token does to blocks without places. -/
def Effect.unplaced (effect : Effect) : Effect :=
  { effect with blocks := effect.blocks.map OpenBlock.unplaced }

/-- Whether a block is inside another does not depend on places. -/
theorem insideOf_unplaced (accept : TokenKind → Bool) (blocks : List OpenBlock) :
    insideOf accept (blocks.map OpenBlock.unplaced) = insideOf accept blocks := by
  cases blocks <;> rfl

/-- Closing a block does not depend on places. -/
theorem closeBlock_unplaced (blocks : List OpenBlock) (token : Token) :
    Images (List.map OpenBlock.unplaced) (closeBlock blocks token)
      (closeBlock (blocks.map OpenBlock.unplaced) token.unplaced) := by
  cases blocks with
  | nil => exact .error _ _
  | cons block outer =>
    change Images _ (if Layout.closer? block.opener = some token.kind then _ else _)
      (if Layout.closer? block.opener = some token.kind then _ else _)
    split
    · exact .ok outer
    · exact .error _ _

/-- A step of the checker does not depend on places. -/
theorem step_unplaced (tokens : TokenBlock) (pos : Nat) (token : Token) (blocks : List OpenBlock)
    (skip : Option Nat) :
    Images Effect.unplaced (step tokens pos token blocks skip)
      (step tokens.unplaced pos token.unplaced (blocks.map OpenBlock.unplaced) skip) := by
  have size : tokens.unplaced.size = tokens.size := Array.size_map
  have kinds := tokens.kinds_unplaced
  unfold step
  dsimp only
  rw [Token.kind_unplaced, size]
  simp only [insideOf_unplaced, kinds.findThen, kinds.isSingleLineIf, kinds.trailingEndIf,
    kinds.hasKind]
  split
  case h_9 | h_10 | h_11 | h_12 | h_13 =>
    exact (closeBlock_unplaced blocks token).bind fun closed _ => .ok _
  all_goals
    repeat' split
    all_goals first | exact .ok _ | exact .error _ _

/-- Checking from a position does not depend on places. -/
theorem checkFrom_unplaced (tokens : TokenBlock) (pos : Nat) (blocks : List OpenBlock)
    (skip : Option Nat) :
    Images id (checkFrom tokens pos blocks skip)
      (checkFrom tokens.unplaced pos (blocks.map OpenBlock.unplaced) skip) := by
  have size : tokens.unplaced.size = tokens.size := Array.size_map
  induction left : tokens.size - pos using Nat.strongRecOn generalizing pos blocks skip with
  | ind left ih =>
    subst left
    rw [checkFrom.eq_def tokens, checkFrom.eq_def tokens.unplaced]
    by_cases inside : pos < tokens.size
    · have within : pos < tokens.unplaced.size := size ▸ inside
      have token : tokens.unplaced[pos] = tokens[pos].unplaced := Array.getElem_map ..
      rw [dif_pos inside, dif_pos within, token]
      split
      · exact ih _ (by omega) _ _ _ rfl
      · exact (step_unplaced tokens pos tokens[pos] blocks skip).elim .error fun effect _ =>
          ih _ (by split <;> omega) _ _ _ rfl
    · rw [dif_neg inside, dif_neg (size ▸ inside)]
      cases blocks with
      | nil => exact .ok ()
      | cons block outer => exact .error _ _

/-- Checking a block does not depend on places. -/
theorem check_unplaced (tokens : TokenBlock) : Images id (check tokens) (check tokens.unplaced) :=
  checkFrom_unplaced tokens 0 [] none

end Structure

/-! ### Programs -/

namespace Program

/-- Checking a program does not depend on places. -/
theorem check_unplaced (program : Program) : Images id program.check program.unplaced.check := by
  unfold check
  refine (Structure.check_unplaced program.tokens).bind fun _ _ => ?_
  rw [show program.unplaced.loops.toList = program.loops.toList.map ForLoop.unplaced from
    Array.toList_map ..]
  have loops : Images id (program.loops.toList.forM fun loop => Structure.check loop.body)
      ((program.loops.toList.map ForLoop.unplaced).forM fun loop => Structure.check loop.body) := by
    refine .forM (fun loop => ?_) _
    exact Structure.check_unplaced loop.body
  refine loops.bind fun _ _ => .forM (fun entry => ?_) _
  exact Structure.check_unplaced entry.2.body

open Functions

/-- An image of a pure outcome is one beside any table of functions. -/
theorem liftExcept_unplaced {change : α → β} {left : Except Fault α} {right : Except Fault β}
    (images : Images change left right) (defined : Defined) :
    EndsUnplaced change (assemble.liftExcept left defined)
      (assemble.liftExcept right defined.unplaced) := by
  cases images with
  | ok value => exact .ok rfl rfl
  | error => exact .error trivial rfl

/-- Assembling a program does not depend on places. -/
theorem assemble_unplaced (tokens : List Token) :
    EndsUnplaced Program.unplaced (assemble tokens {}) (assemble (tokens.map Token.unplaced) {}) := by
  unfold assemble
  refine (liftExcept_unplaced (CallSites.extract_unplaced tokens) {}).bind
    fun calls other defined table same kept => ?_
  subst same kept
  refine (liftExcept_unplaced (Loops.extract_unplaced calls.1) defined).bind
    fun loops other defined table same kept => ?_
  subst same kept
  refine EndAlike.bind (extract_unplaced loops.1 defined) fun left other defined table same kept => ?_
  subst same kept
  refine .get ?_
  let program : Program :=
    { tokens := left.toArray, functions := defined.functions, calls := calls.2, loops := loops.2 }
  have image : (⟨(left.map Token.unplaced).toArray, defined.unplaced.functions,
      calls.2.map CallSite.unplaced, loops.2.map ForLoop.unplaced⟩ : Program) = program.unplaced := by
    simp [Program.unplaced, program, Defined.unplaced, unplacedTable]
  change EndsUnplaced _ ((do
    assemble.liftExcept program.check
    return program) defined) _
  rw [image]
  exact (liftExcept_unplaced program.check_unplaced defined).bind fun _ _ _ _ _ kept =>
    .ok rfl kept

end Program

end LineScript
