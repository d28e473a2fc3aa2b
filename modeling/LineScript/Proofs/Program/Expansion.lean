import LineScript.Proofs.Lists
import LineScript.Proofs.Program.Numbering
import Mathlib.Data.List.Basic

/-!
# Spelling the tables out

A token that carries a number can be spelled out again: a call as its name and its arguments, a
loop as its header, body and closing word, and what they mention in turn. What calls and loops were
extracted from is what their tokens spell out, so extracting loses nothing and moves nothing.
-/

namespace LineScript

/-- The number of the call that a token of a kind stands for. -/
def TokenKind.callId? : TokenKind → Option Nat
  | call id | userCall id => some id
  | _ => none

/-- The number of the loop that a token of a kind stands for. -/
def TokenKind.loopId? : TokenKind → Option Nat
  | loop id => some id
  | _ => none

/-- A kind with a loop number is the loop entry of that number. -/
theorem TokenKind.eq_loop_of_loopId? {kind : TokenKind} {id : Nat} (is : kind.loopId? = some id) :
    kind = .loop id := by
  cases kind <;> cases is
  rfl

/-- A token that stands in no source. -/
def Token.spelled (kind : TokenKind) (lexeme : String) : Token := ⟨kind, lexeme, 0, 0⟩

/-- A call spelled out: its name and its arguments with commas between them, in parentheses. -/
def CallSite.spell (site : CallSite) (args : List (List Token)) : List Token :=
  .spelled .identifier site.name :: .spelled .lparen "(" ::
    ([Token.spelled .separator ","].intercalate args ++ [.spelled .rparen ")"])

/-- The head of a loop spelled out, from its expressions spelled out. -/
def LoopHead.spell (expression : TokenBlock → List Token) : LoopHead → List Token
  | range first last none =>
    .spelled .operator "=" :: expression first ++ .spelled .kwTo "To" :: expression last
  | range first last (some step) =>
    .spelled .operator "=" :: expression first ++
      (.spelled .kwTo "To" :: expression last ++ .spelled .kwStep "Step" :: expression step)
  | each collection => .spelled .kwIn "In" :: expression collection

/-- A loop spelled out, from its runs of tokens spelled out. -/
def ForLoop.spell (loop : ForLoop) (expression : TokenBlock → List Token) : List Token :=
  .spelled .kwFor "For" :: .spelled .variableName loop.index ::
    (loop.head.spell expression ++ (expression loop.body ++ [.spelled .kwNext "Next"]))

/-- What a token stands for. The arguments of a call are spelled out with earlier calls only, and
the parts of a loop with earlier loops only. -/
def expandToken (calls : Array CallSite) (loops : Array ForLoop) (loopBound callBound : Nat)
    (token : Token) : List Token :=
  match token.kind.callId? with
  | some id =>
    if _earlier : id < callBound then
      match calls[id]? with
      | some site => site.spell (site.args.map fun arg =>
          arg.toList.flatMap fun token => expandToken calls loops loopBound id token)
      | none => [token]
    else [token]
  | none =>
    match token.kind.loopId? with
    | some id =>
      if _earlier : id < loopBound then
        match loops[id]? with
        | some loop => loop.spell fun block =>
            block.toList.flatMap fun token => expandToken calls loops id calls.size token
        | none => [token]
      else [token]
    | none => [token]
termination_by (loopBound, callBound)

/-- What tokens stand for. -/
def expand (calls : Array CallSite) (loops : Array ForLoop) (tokens : List Token) : List Token :=
  tokens.flatMap (expandToken calls loops loops.size calls.size)

/-- The words of a loop, which may be spelled in any case. -/
def TokenKind.word? : TokenKind → Option String
  | kwFor => some "For"
  | kwTo => some "To"
  | kwStep => some "Step"
  | kwIn => some "In"
  | kwNext => some "Next"
  | _ => none

/-- Kind and text of a token; punctuation around arguments has one spelling. -/
def Token.reads (token : Token) : TokenKind × String :=
  (token.kind, token.kind.mark?.getD token.lexeme)

/-- Kind and text of a token, whatever the spelling of the words of loops. -/
def Token.readsLoosely (token : Token) : TokenKind × String :=
  (token.kind, token.kind.word?.getD token.reads.2)

section

variable {calls : Array CallSite} {loops : Array ForLoop} {loopBound callBound : Nat}
  {token : Token} {id : Nat}

/-- A token without a number stands for itself. -/
theorem expandToken_free (free : token.kind.isEntry = false) :
    expandToken calls loops loopBound callBound token = [token] := by
  rw [expandToken]
  generalize token.kind = kind at free
  cases kind <;> first | rfl | cases free

/-- The token of a call stands for the call. -/
theorem expandToken_call {site : CallSite} (is : token.kind.callId? = some id)
    (earlier : id < callBound) (stored : calls[id]? = some site) :
    expandToken calls loops loopBound callBound token =
      site.spell (site.args.map fun arg =>
        arg.toList.flatMap (expandToken calls loops loopBound id)) := by
  rw [expandToken]
  simp only [is, earlier, dif_pos, stored]

/-- The token of a loop stands for the loop. -/
theorem expandToken_loop {loop : ForLoop} (is : token.kind = .loop id)
    (earlier : id < loopBound) (stored : loops[id]? = some loop) :
    expandToken calls loops loopBound callBound token =
      loop.spell fun block => block.toList.flatMap (expandToken calls loops id calls.size) := by
  rw [expandToken]
  simp only [is, TokenKind.callId?, TokenKind.loopId?, earlier, dif_pos, stored]

/-- A later call does not change what tokens stand for that mention earlier ones. -/
theorem expandToken_push_call (site : CallSite) (within : callBound ≤ calls.size) (token : Token) :
    expandToken (calls.push site) loops 0 callBound token =
      expandToken calls loops 0 callBound token := by
  induction callBound using Nat.strongRecOn generalizing token with
  | ind callBound ih =>
    rw [expandToken, expandToken]
    cases number : token.kind.callId? with
    | none => simp
    | some id =>
      by_cases earlier : id < callBound
      · have inside : id < calls.size := by omega
        have inner := fun token => ih id earlier (by omega) token
        simp only [earlier, dif_pos, Array.getElem?_push, Nat.ne_of_lt inside, if_false, inner]
      · simp only [earlier, dif_neg, not_false_iff]

/-- How far calls are spelled out does not matter beyond the call that is mentioned. -/
theorem expandToken_callBound {other : Nat}
    (first : ∀ id, token.kind.callId? = some id → id < callBound ∧ id < other) :
    expandToken calls loops loopBound callBound token =
      expandToken calls loops loopBound other token := by
  rw [expandToken, expandToken]
  cases number : token.kind.callId? with
  | none => rfl
  | some id =>
    obtain ⟨one, two⟩ := first id number
    simp only [one, two, dif_pos]

end

/-- A token is a call's entry exactly when its kind has the call's number. -/
theorem isCall_iff_callId? {token : Token} {id : Nat} :
    token.isCall id ↔ token.kind.callId? = some id := by
  unfold Token.isCall
  cases token.kind <;> simp [TokenKind.callId?]

/-- A token with the one spelling of its kind, where it has one. -/
def Token.canonical (token : Token) : Token :=
  .spelled token.kind (token.kind.mark?.getD token.lexeme)

namespace CallSites

/-- What has been read of an open call, spelled out. -/
def OpenCall.spell (expands : Token → List Token) (call : OpenCall) : List Token :=
  .spelled .identifier call.name.lexeme :: .spelled .lparen "(" ::
    (call.groups.reverse.flatMap (fun group =>
      group.flatMap expands ++ [.spelled .separator ","]) ++ call.group.reverse.flatMap expands)

/-- What has been read, spelled out. -/
def State.spell (expands : Token → List Token) (state : State) : List Token :=
  state.out.reverse.flatMap expands ++ state.opened.reverse.flatMap (OpenCall.spell expands)

variable {expands : Token → List Token}

/-- Expansions that agree on an open call's tokens spell it alike. -/
theorem OpenCall.spell_congr {other : Token → List Token} {call : OpenCall}
    (same : ∀ token ∈ call.tokens, expands token = other token) :
    call.spell expands = call.spell other := by
  have group : ∀ tokens : List Token, (∀ token ∈ tokens, token ∈ call.tokens) →
      tokens.flatMap expands = tokens.flatMap other := fun tokens among =>
    List.flatMap_congr fun token member => same token (among token member)
  have groups : call.groups.reverse.flatMap (fun group =>
      group.flatMap expands ++ [Token.spelled .separator ","]) =
        call.groups.reverse.flatMap fun group =>
          group.flatMap other ++ [Token.spelled .separator ","] := by
    refine List.flatMap_congr fun tokens member => ?_
    rw [group tokens fun token inside => List.mem_append_right _
      (List.mem_flatten.mpr ⟨tokens, List.mem_reverse.mp member, inside⟩)]
  rw [spell, spell, groups, group call.group.reverse fun token member =>
    List.mem_append_left _ (List.mem_reverse.mp member)]

/-- Expansions that agree on a state's tokens spell it alike. -/
theorem State.spell_congr {other : Token → List Token} {state : State}
    (same : ∀ token ∈ state.tokens, expands token = other token) :
    state.spell expands = state.spell other := by
  have out : state.out.reverse.flatMap expands = state.out.reverse.flatMap other :=
    List.flatMap_congr fun token member => same token
      (List.mem_append_left _ (List.mem_append_left _ (List.mem_reverse.mp member)))
  have opened : state.opened.reverse.flatMap (OpenCall.spell expands) =
      state.opened.reverse.flatMap (OpenCall.spell other) :=
    List.flatMap_congr fun call member => OpenCall.spell_congr fun token inside =>
      same token (List.mem_append_left _ (List.mem_append_right _
        (List.mem_flatMap.mpr ⟨call, List.mem_reverse.mp member, inside⟩)))
  rw [spell, spell, out, opened]

/-- A token that joins an argument is spelled out behind what was read. -/
theorem OpenCall.spell_push (call : OpenCall) (token : Token) (parens brackets : Nat) :
    OpenCall.spell expands { call.push token with parens, brackets } =
      call.spell expands ++ expands token := by
  simp [OpenCall.spell, OpenCall.push]

/-- A comma is spelled out behind what was read. -/
theorem OpenCall.spell_divide (call : OpenCall) :
    OpenCall.spell expands
      { call with groups := call.group.reverse :: call.groups, group := [] } =
        call.spell expands ++ [.spelled .separator ","] := by
  simp [OpenCall.spell]

/-- The innermost open call is spelled last. -/
theorem State.spell_opened {state : State} {call : OpenCall} {outer : List OpenCall}
    (open' : state.opened = call :: outer) :
    state.spell expands =
      State.spell expands { state with opened := outer } ++ call.spell expands := by
  simp [State.spell, open']

/-- An emitted token is spelled last. -/
theorem State.spell_emit (state : State) (token : Token) :
    (state.emit token).spell expands = state.spell expands ++ expands token := by
  unfold State.emit
  split
  · rename_i call outer open'
    have pushed : OpenCall.spell expands (call.push token) = _ :=
      call.spell_push token call.parens call.brackets
    rw [State.spell_opened open', State.spell_opened rfl, pushed]
    exact (List.append_assoc _ _ _).symm
  · rename_i none'
    simp [State.spell, none']

/-- A call that is closed is spelled out as what was read of it and the closing parenthesis. -/
theorem OpenCall.spell_close {call : OpenCall} {site : CallSite} (closed : call.close = .ok site) :
    site.spell (site.args.map fun arg => arg.toList.flatMap expands) =
      call.spell expands ++ [.spelled .rparen ")"] := by
  obtain ⟨name, args, alone⟩ := OpenCall.close_eq_ok closed
  have lists : site.args.map (fun arg => arg.toList.flatMap expands) =
      (site.args.map Array.toList).map fun tokens => tokens.flatMap expands := by
    rw [List.map_map]
    rfl
  rw [CallSite.spell, OpenCall.spell, lists, args, name]
  by_cases empty : call.group = []
  · simp [empty, alone empty]
  · simp only [empty, if_false, List.map_append, List.map_cons, List.map_nil,
      intercalate_append _ _ (List.cons_ne_nil _ _), List.intercalate_singleton,
      List.flatMap_map, List.cons_append, List.append_assoc]

section

variable {β : Type} (view : Token → β)

/-- What a state's tokens stand for, with its own table. -/
def State.meaning (state : State) : Token → List Token :=
  expandToken state.calls #[] 0 state.calls.size

/-- Emitting a token keeps what the state means. -/
theorem State.meaning_emit (state : State) (token : Token) :
    (state.emit token).meaning = state.meaning := by
  rw [meaning, meaning, calls_emit]

/-- A new call changes nothing for tokens that mention earlier ones. -/
theorem expandToken_push_known {calls : Array CallSite} (site : CallSite) {token : Token}
    (known : ∀ id, token.kind.callId? = some id → id < calls.size) :
    expandToken (calls.push site) #[] 0 (calls.size + 1) token =
      expandToken calls #[] 0 calls.size token := by
  have bound : expandToken (calls.push site) #[] 0 (calls.size + 1) token =
      expandToken (calls.push site) #[] 0 calls.size token :=
    expandToken_callBound fun id is => ⟨Nat.lt_succ_of_lt (known id is), known id is⟩
  exact bound.trans (expandToken_push_call site (Nat.le_refl _) token)

/-- The token of a call that was closed stands for what was read of the call and the closing
parenthesis. -/
theorem OpenCall.expandToken_token {calls : Array CallSite} {call : OpenCall} {site : CallSite}
    (closed : call.close = .ok site) :
    expandToken (calls.push site) #[] 0 (calls.size + 1) (call.token calls.size) =
      call.spell (expandToken calls #[] 0 calls.size) ++ [.spelled .rparen ")"] := by
  have args : expandToken (calls.push site) #[] 0 calls.size = expandToken calls #[] 0 calls.size :=
    funext fun other => expandToken_push_call site (Nat.le_refl _) other
  rw [expandToken_call (isCall_iff_callId?.mp (call.token_isCall _)) (Nat.lt_succ_self _)
    Array.getElem?_push_size, args, OpenCall.spell_close closed]

/-- What was read mentions no call that is not in the table. -/
theorem InOrder.known {state : State} {rest : List Token} (order : InOrder state rest) {token : Token}
    (member : token ∈ state.tokens) {id : Nat} (is : token.kind.callId? = some id) :
    id < state.calls.size := by
  have mentioned : 0 < (Census.calls id).of state.tokens :=
    Program.of_pos member (Program.counts_of_isCall (isCall_iff_callId?.mpr is))
  exact lt_of_once_pos (order.calls id ▸ mentioned)

/-- A mark around arguments looks like its one spelling. -/
theorem view_mark {kind : TokenKind} {text : String} {token : Token} (is : token.kind = kind)
    (spelling : kind.mark? = some text) (same : view token = view token.canonical) :
    view token = view (.spelled kind text) := by
  rw [same, Token.canonical, is, spelling]
  rfl

/-- What has been read and what is still to read is, as far as it is looked at, always the same. -/
structure Spells (total : List β) (state : State) (rest : List Token) : Prop where
  /-- The calls are in order. -/
  order : InOrder state rest
  /-- The spelling of punctuation is not looked at. -/
  same : ∀ token ∈ rest, view token = view token.canonical
  /-- What has been read, spelled out, and what is still to read. -/
  text : (state.spell state.meaning).map view ++ rest.map view = total

variable {view} {total : List β} {state : State} {rest : List Token}

/-- Tokens are read: what they look like is spelled out behind what was. -/
theorem Spells.move (read : List Token) (kept : Spells view total state (read ++ rest)) {later : State}
    (order : InOrder later rest)
    (spells : (later.spell later.meaning).map view =
      (state.spell state.meaning).map view ++ read.map view) : Spells view total later rest := by
  refine ⟨order, fun token member => kept.same token (List.mem_append_right _ member), ?_⟩
  rw [spells, List.append_assoc, ← List.map_append]
  exact kept.text

variable {token : Token}

/-- A token in front of the rest stands for itself. -/
theorem Spells.itself (kept : Spells view total state (token :: rest)) :
    state.meaning token = [token] := expandToken_free (areFree_cons.mp kept.order.free).1

/-- A token outside of all calls is kept. -/
theorem Spells.outside (kept : Spells view total state (token :: rest)) (none' : state.opened = []) :
    Spells view total { state with out := token :: state.out } rest := by
  refine Spells.move [token] kept (moves_inOrder.outside kept.order none') ?_
  show (State.spell state.meaning { state with out := token :: state.out }).map view = _
  simp [State.spell, none', kept.itself]

/-- A token joins an argument. -/
theorem Spells.inside {call : OpenCall} {outer : List OpenCall} (parens brackets : Nat)
    (kept : Spells view total state (token :: rest)) (open' : state.opened = call :: outer) :
    Spells view total
      { state with opened := { call.push token with parens, brackets } :: outer } rest := by
  refine Spells.move [token] kept
    (moves_inOrder.inside parens brackets kept.order open') ?_
  show (State.spell state.meaning { state with
    opened := { call.push token with parens, brackets } :: outer }).map view = _
  rw [State.spell_opened rfl, call.spell_push, kept.itself, State.spell_opened open']
  simp

/-- A comma ends an argument. -/
theorem Spells.divides {call : OpenCall} {outer : List OpenCall}
    (kept : Spells view total state (token :: rest)) (open' : state.opened = call :: outer)
    (comma : token.kind = .separator) :
    Spells view total { state with opened :=
      { call with groups := call.group.reverse :: call.groups, group := [] } :: outer } rest := by
  have looks := view_mark view comma rfl (kept.same token List.mem_cons_self)
  refine Spells.move [token] kept (moves_inOrder.divides kept.order open' comma) ?_
  show (State.spell state.meaning { state with opened :=
    { call with groups := call.group.reverse :: call.groups, group := [] } :: outer }).map view = _
  rw [State.spell_opened rfl, call.spell_divide, State.spell_opened open']
  simp [looks]

/-- A name and a parenthesis open a call. -/
theorem Spells.opens {next : Token} (kept : Spells view total state (token :: next :: rest))
    (isName : token.kind = .identifier) (isOpening : next.kind = .lparen) :
    Spells view total { state with opened := { name := token } :: state.opened } rest := by
  have name : view token = view (.spelled .identifier token.lexeme) := by
    rw [kept.same token List.mem_cons_self, Token.canonical, isName]
    rfl
  have opening := view_mark view isOpening rfl
    (kept.same next (List.mem_cons_of_mem _ List.mem_cons_self))
  refine Spells.move [token, next] kept
    (moves_inOrder.opens kept.order isName isOpening) ?_
  show (State.spell state.meaning { state with
    opened := { name := token } :: state.opened }).map view = _
  rw [State.spell_opened rfl]
  simp [OpenCall.spell, name, opening]

/-- A parenthesis closes a call, whose token stands for it from then on. -/
theorem Spells.closes {call : OpenCall} {outer : List OpenCall} {site : CallSite}
    (kept : Spells view total state (token :: rest)) (open' : state.opened = call :: outer)
    (isClosing : token.kind = .rparen) (closed : call.close = .ok site) :
    Spells view total
      (State.emit { state with opened := outer, calls := state.calls.push site }
        (call.token state.calls.size)) rest := by
  have closing := view_mark view isClosing rfl (kept.same token List.mem_cons_self)
  -- The new entry changes nothing for tokens that were there before it.
  have before : ∀ other ∈ State.tokens { state with opened := outer },
      expandToken (state.calls.push site) #[] 0 (state.calls.size + 1) other =
        expandToken state.calls #[] 0 state.calls.size other := by
    intro other member
    have among : other ∈ state.tokens := by
      simp only [State.tokens, open', List.mem_append, List.flatMap_cons] at member ⊢
      tauto
    exact expandToken_push_known site fun id => kept.order.known among
  refine Spells.move [token] kept
    (moves_inOrder.closes kept.order open' isClosing closed) ?_
  rw [State.meaning_emit, State.spell_emit]
  simp only [State.meaning, Array.size_push]
  rw [OpenCall.expandToken_token closed, State.spell_opened open', ← State.spell_congr before]
  simp [closing, State.spell]

/-- Every move of the scan keeps what the tokens spell out. -/
theorem moves_spells : Moves (Spells view total) where
  outside := .outside
  inside := .inside
  divides := .divides
  opens := .opens
  closes := .closes

variable (view)

/-- The calls that are extracted spell out the tokens they were extracted from. -/
theorem extract_spells {tokens out : List Token} {calls : Array CallSite} (free : areFree tokens)
    (same : ∀ token ∈ tokens, view token = view token.canonical)
    (read : extract tokens = .ok (out, calls)) :
    (out.flatMap (expandToken calls #[] 0 calls.size)).map view = tokens.map view := by
  have start : Spells view (tokens.map view) {} tokens :=
    ⟨⟨free, fun id => by simp [State.tokens, once], fun id => by simp [State.tokens], nofun⟩, same,
      by simp [State.spell]⟩
  have kept := moves_spells.extract start read
  simpa [State.spell, State.meaning] using kept.text

end

end CallSites

section

variable {calls : Array CallSite} {loops : Array ForLoop} {loopBound callBound : Nat}

/-- No argument of a call mentions a loop. -/
def ArgsFree (calls : Array CallSite) : Prop :=
  ∀ (id : Nat) (site : CallSite), calls[id]? = some site → ∀ arg ∈ site.args,
    ∀ token ∈ arg.toList, token.kind.loopId? = none

/-- What mentions no loop does not depend on the loops. -/
theorem expandToken_loopFree (args : ArgsFree calls) {token : Token}
    (free : token.kind.loopId? = none) :
    expandToken calls loops loopBound callBound token = expandToken calls #[] 0 callBound token := by
  induction callBound using Nat.strongRecOn generalizing token with
  | ind callBound ih =>
    rw [expandToken, expandToken]
    cases number : token.kind.callId? with
    | none => simp only [free]
    | some id =>
      by_cases earlier : id < callBound
      · simp only [earlier, dif_pos]
        cases stored : calls[id]? with
        | none => rfl
        | some site =>
          have inner : ∀ arg ∈ site.args,
              (arg.toList.flatMap fun token => expandToken calls loops loopBound id token) =
                arg.toList.flatMap fun token => expandToken calls #[] 0 id token :=
            fun arg member => List.flatMap_congr fun other inside =>
              ih id earlier (args id site stored arg member other inside)
          simp only [List.map_congr_left inner]
      · simp only [earlier, dif_neg, not_false_iff]

/-- A later loop does not change what tokens stand for that mention earlier ones. -/
theorem expandToken_push_loop (loop : ForLoop) (within : loopBound ≤ loops.size) (token : Token) :
    expandToken calls (loops.push loop) loopBound callBound token =
      expandToken calls loops loopBound callBound token := by
  induction loopBound using Nat.strongRecOn generalizing callBound token with
  | ind loopBound outer =>
    induction callBound using Nat.strongRecOn generalizing token with
    | ind callBound inner =>
      rw [expandToken, expandToken]
      cases number : token.kind.callId? with
      | some id =>
        by_cases earlier : id < callBound
        · have args := fun token => inner id earlier token
          simp only [earlier, dif_pos, args]
        · simp only [earlier, dif_neg, not_false_iff]
      | none =>
        cases entry : token.kind.loopId? with
        | none => rfl
        | some id =>
          by_cases earlier : id < loopBound
          · have inside : id < loops.size := by omega
            have parts := fun token => @outer id earlier calls.size (by omega) token
            simp only [earlier, dif_pos, Array.getElem?_push, Nat.ne_of_lt inside, if_false, parts]
          · simp only [earlier, dif_neg, not_false_iff]

end

/-- How far loops are spelled out does not matter beyond the loop that is mentioned. -/
theorem expandToken_loopBound {calls : Array CallSite} {loops : Array ForLoop}
    {loopBound other callBound id : Nat} {token : Token} (is : token.kind = .loop id)
    (one : id < loopBound) (two : id < other) :
    expandToken calls loops loopBound callBound token =
      expandToken calls loops other callBound token := by
  rw [expandToken, expandToken]
  simp only [is, TokenKind.callId?, TokenKind.loopId?, one, two, dif_pos]

/-- A head is spelled out from its expressions only. -/
theorem LoopHead.spell_congr {expression other : TokenBlock → List Token} {head : LoopHead}
    (same : ∀ block ∈ head.blocks, expression block = other block) :
    head.spell expression = head.spell other := by
  cases head with
  | range first last step => cases step <;> simp_all [LoopHead.spell, LoopHead.blocks]
  | each collection => simp_all [LoopHead.spell, LoopHead.blocks]

/-- A token with the one spelling of its kind, also for the words of loops. -/
def Token.loosely (token : Token) : Token :=
  .spelled token.kind (token.kind.word?.getD token.canonical.lexeme)

namespace Loops

/-- What has been read of an open loop, spelled out. Its head mentions no loop. -/
def OpenLoop.spell (header body : Token → List Token) (loop : OpenLoop) : List Token :=
  .spelled .kwFor "For" :: .spelled .variableName loop.index ::
    (loop.head.spell (fun block => block.toList.flatMap header) ++ loop.body.reverse.flatMap body)

/-- What has been read, spelled out. -/
def State.spell (header body : Token → List Token) (state : State) : List Token :=
  state.out.reverse.flatMap body ++ state.opened.reverse.flatMap (OpenLoop.spell header body)

variable {header body : Token → List Token}

/-- Expansions that agree on a state's tokens spell it alike. -/
theorem State.spell_congr {other : Token → List Token} {state : State}
    (same : ∀ token ∈ state.tokens, body token = other token) :
    state.spell header body = state.spell header other := by
  have out : state.out.reverse.flatMap body = state.out.reverse.flatMap other :=
    List.flatMap_congr fun token member => same token
      (List.mem_append_left _ (List.mem_append_left _ (List.mem_reverse.mp member)))
  have opened : state.opened.reverse.flatMap (OpenLoop.spell header body) =
      state.opened.reverse.flatMap (OpenLoop.spell header other) := by
    refine List.flatMap_congr fun loop member => ?_
    have inner : loop.body.reverse.flatMap body = loop.body.reverse.flatMap other :=
      List.flatMap_congr fun token inside => same token (List.mem_append_left _
        (List.mem_append_right _ (List.mem_flatMap.mpr ⟨loop, List.mem_reverse.mp member,
          List.mem_append_left _ (List.mem_reverse.mp inside)⟩)))
    rw [OpenLoop.spell, OpenLoop.spell, inner]
  rw [spell, spell, out, opened]

/-- The innermost open loop is spelled last. -/
theorem State.spell_opened {state : State} {loop : OpenLoop} {outer : List OpenLoop}
    (open' : state.opened = loop :: outer) :
    state.spell header body =
      State.spell header body { state with opened := outer } ++ loop.spell header body := by
  simp [State.spell, open']

/-- An emitted token is spelled last. -/
theorem State.spell_emit (state : State) (token : Token) :
    (state.emit token).spell header body = state.spell header body ++ body token := by
  unfold State.emit
  split
  · rename_i loop outer open'
    rw [State.spell_opened open', State.spell_opened rfl]
    simp [OpenLoop.spell, State.spell]
  · rename_i none'
    simp [State.spell, none']

/-- Tokens among which no loop is counted mention none. -/
theorem loopId?_eq_none {tokens : List Token} (free : ∀ id, (Census.loops id).of tokens = 0)
    {token : Token} (member : token ∈ tokens) : token.kind.loopId? = none := by
  cases kind : token.kind with
  | loop id =>
    have counted : 0 < (Census.loops id).of tokens :=
      Program.of_pos member (by simp [Census.loops, kind])
    have none' := free id
    omega
  | _ => rfl

section

variable {β : Type} (view : Token → β) (calls : Array CallSite)

/-- What a token stands for that mentions no loop. -/
def loopless : Token → List Token := expandToken calls #[] 0 calls.size

/-- What a state's tokens stand for, with its own table. -/
def State.meaning (state : State) : Token → List Token :=
  expandToken calls state.loops state.loops.size calls.size

/-- Emitting a token keeps what the state means. -/
theorem State.meaning_emit (state : State) (token : Token) :
    (state.emit token).meaning calls = state.meaning calls := by
  rw [meaning, meaning, loops_emit]

/-- A word of a header looks like its spelling. -/
theorem view_word {kind : TokenKind} {text : String} {token : Token} (word : IsWord kind token)
    (spelling : kind.word? = some text)
    (same : token.kind.isEntry = false → view token = view token.loosely) :
    view token = view (.spelled kind text) := by
  have is : token.kind = kind := word
  have free : token.kind.isEntry = false := by
    rw [is]
    cases kind <;> first | rfl | cases spelling
  rw [same free, Token.loosely, is, spelling]
  rfl

/-- A header is spelled out as it was written. -/
theorem Writes.spells {head : LoopHead} {written : List Token} (writes : Writes head written)
    (same : ∀ token ∈ written, token.kind.isEntry = false → view token = view token.loosely) :
    (written.flatMap (loopless calls)).map view =
      (head.spell fun block => block.toList.flatMap (loopless calls)).map view := by
  have word : ∀ {token : Token}, token.kind.isEntry = false → loopless calls token = [token] :=
    fun free => expandToken_free free
  have equals : ∀ {token : Token}, token.isOperator "=" = true → token ∈ written →
      view token = view (.spelled .operator "=") := by
    intro token is member
    have parts : token.kind = .operator ∧ token.lexeme = "=" := by simp_all [Token.isOperator]
    rw [same token member (isEntry_of_isOperator is), Token.loosely, Token.canonical, parts.1,
      parts.2]
    rfl
  cases writes with
  | range mark to' =>
    have first := equals mark List.mem_cons_self
    have second := view_word view to' rfl (same _ (by simp))
    simp [LoopHead.spell, word (isEntry_of_isOperator mark), word (to'.isEntry rfl), first, second]
  | stepped mark to' step =>
    have first := equals mark List.mem_cons_self
    have second := view_word view to' rfl (same _ (by simp))
    have third := view_word view step rfl (same _ (by simp))
    simp [LoopHead.spell, word (isEntry_of_isOperator mark), word (to'.isEntry rfl), word (step.isEntry rfl),
      first, second, third]
  | each in' =>
    have first := view_word view in' rfl (same _ (by simp))
    simp [LoopHead.spell, word (in'.isEntry rfl), first]

/-- What has been read and what is still to read is, as far as it is looked at, always the same. -/
structure Spells (count : Census → Nat) (total : List β) (state : State) (rest : List Token) :
    Prop where
  /-- The loops are in order. -/
  order : Conserves count state rest
  /-- No head mentions a loop. -/
  heads : ∀ loop ∈ state.opened, ∀ block ∈ loop.head.blocks, ∀ token ∈ block.toList,
    token.kind.loopId? = none
  /-- The spelling of words and punctuation is not looked at. -/
  same : ∀ token ∈ rest, token.kind.isEntry = false → view token = view token.loosely
  /-- What has been read and what is still to read, spelled out. -/
  text : (state.spell (loopless calls) (state.meaning calls)).map view ++
    (rest.flatMap (loopless calls)).map view = total

variable {calls} (args : ArgsFree calls)
include args

/-- A new loop changes nothing for tokens that mention earlier ones. -/
theorem expandToken_push_known {loops : Array ForLoop} (loop : ForLoop) {token : Token}
    (known : ∀ id, token.kind.loopId? = some id → id < loops.size) :
    expandToken calls (loops.push loop) (loops.size + 1) calls.size token =
      expandToken calls loops loops.size calls.size token := by
  cases mentions : token.kind.loopId? with
  | none =>
    exact (expandToken_loopFree args mentions).trans (expandToken_loopFree args mentions).symm
  | some id =>
    have is := TokenKind.eq_loop_of_loopId? mentions
    exact (expandToken_loopBound is (Nat.lt_succ_of_lt (known id mentions)) (known id mentions)).trans
      (expandToken_push_loop _ (Nat.le_refl _) token)

/-- The token of a loop that was closed stands for what was read of the loop and the closing word. -/
theorem OpenLoop.expandToken_token {loops : Array ForLoop} {loop : OpenLoop}
    (free : ∀ block ∈ loop.head.blocks, ∀ token ∈ block.toList, token.kind.loopId? = none) :
    expandToken calls (loops.push loop.closed) (loops.size + 1) calls.size (loop.token loops.size) =
      loop.spell (loopless calls) (expandToken calls loops loops.size calls.size) ++
        [.spelled .kwNext "Next"] := by
  have inner : expandToken calls (loops.push loop.closed) loops.size calls.size =
      expandToken calls loops loops.size calls.size :=
    funext fun other => expandToken_push_loop _ (Nat.le_refl _) other
  have head : loop.head.spell (fun block => block.toList.flatMap
      (expandToken calls loops loops.size calls.size)) =
      loop.head.spell fun block => block.toList.flatMap (loopless calls) :=
    LoopHead.spell_congr fun block member => List.flatMap_congr fun other inside =>
      expandToken_loopFree args (free block member other inside)
  rw [expandToken_loop rfl (Nat.lt_succ_self _) Array.getElem?_push_size, inner]
  simp [ForLoop.spell, OpenLoop.closed, OpenLoop.spell, head]

omit args in
/-- What was read mentions no loop that is not in the table. -/
theorem Conserves.known {count : Census → Nat} {state : State} {rest : List Token}
    (order : Conserves count state rest) {token : Token} (member : token ∈ state.tokens) {id : Nat}
    (is : token.kind.loopId? = some id) : id < state.loops.size := by
  have counted : 0 < (Census.loops id).of state.tokens :=
    Program.of_pos member (by simp [Census.loops, TokenKind.eq_loop_of_loopId? is])
  exact lt_of_once_pos (order.loops id ▸ counted)

variable {view} {count : Census → Nat} {total : List β} {state : State} {rest : List Token}

omit args in
/-- Tokens are read: what they stand for is spelled out behind what was. -/
theorem Spells.move (read : List Token) (kept : Spells view calls count total state (read ++ rest))
    {later : State} (order : Conserves count later rest)
    (heads : ∀ loop ∈ later.opened, ∀ block ∈ loop.head.blocks, ∀ token ∈ block.toList,
      token.kind.loopId? = none)
    (spells : (later.spell (loopless calls) (later.meaning calls)).map view =
      (state.spell (loopless calls) (state.meaning calls)).map view ++
        (read.flatMap (loopless calls)).map view) : Spells view calls count total later rest := by
  refine ⟨order, heads, fun token member => kept.same token (List.mem_append_right _ member), ?_⟩
  rw [spells, List.append_assoc, ← List.map_append, ← List.flatMap_append]
  exact kept.text

omit args in
/-- A token that joins the innermost loop, or stands outside of all, changes no head. -/
theorem State.heads_emit (token : Token)
    (heads : ∀ loop ∈ state.opened, ∀ block ∈ loop.head.blocks, ∀ token ∈ block.toList,
      token.kind.loopId? = none) :
    ∀ loop ∈ (state.emit token).opened, ∀ block ∈ loop.head.blocks, ∀ token ∈ block.toList,
      token.kind.loopId? = none := by
  unfold State.emit
  split
  · rename_i loop outer open'
    rw [open'] at heads
    exact List.forall_mem_cons.mpr (List.forall_mem_cons.mp heads)
  · exact heads

variable {token : Token}

/-- A token that stays stands for what it stood for. -/
theorem Spells.stays (kept : Spells view calls count total state (token :: rest)) :
    Spells view calls count total (state.emit token) rest := by
  have itself : state.meaning calls token = loopless calls token :=
    expandToken_loopFree args (loopId?_eq_none kept.order.source List.mem_cons_self)
  refine Spells.move [token] kept ((moves_conserves count).stays kept.order)
    (State.heads_emit token kept.heads) ?_
  rw [State.meaning_emit, State.spell_emit, itself]
  simp

omit args in
/-- The opening word of a loop and its header open the loop. -/
theorem Spells.opens {variable' : Token} {written : List Token} {head : LoopHead}
    (kept : Spells view calls count total state (token :: variable' :: written ++ rest))
    (isFor : IsWord .kwFor token) (isVariable : IsWord .variableName variable')
    (writes : Writes head written) :
    Spells view calls count total
      { state with opened := { opener := token, index := variable'.lexeme, head } :: state.opened }
      rest := by
  have among : ∀ other ∈ token :: variable' :: written,
      other.kind.isEntry = false → view other = view other.loosely :=
    fun other member => kept.same other (List.mem_append_left _ member)
  have free : ∀ id, (Census.loops id).of (tokensOf head.blocks) = 0 := by
    intro id
    have none' := kept.order.source id
    rw [List.cons_append, List.cons_append, Census.of_cons_free _ (isFor.isEntry rfl),
      Census.of_cons_free _ (isVariable.isEntry rfl), Census.of_append, writes.census] at none'
    exact Nat.eq_zero_of_add_eq_zero_right none'
  have opener := view_word view isFor rfl (among token List.mem_cons_self)
  have index : view variable' = view (.spelled .variableName variable'.lexeme) := by
    have is : variable'.kind = .variableName := isVariable
    rw [among variable' (List.mem_cons_of_mem _ List.mem_cons_self) (isVariable.isEntry rfl),
      Token.loosely, Token.canonical, is]
    rfl
  have header := writes.spells view calls fun other member =>
    among other (List.mem_cons_of_mem _ (List.mem_cons_of_mem _ member))
  have itself : ∀ {other : Token}, other.kind.isEntry = false → loopless calls other = [other] :=
    fun free => expandToken_free free
  refine Spells.move _ kept ((moves_conserves count).opens kept.order isFor isVariable writes)
    (List.forall_mem_cons.mpr ⟨fun block member other inside =>
      loopId?_eq_none free (List.mem_flatMap.mpr ⟨block, member, inside⟩), kept.heads⟩) ?_
  show (State.spell (loopless calls) (state.meaning calls) { state with opened :=
    { opener := token, index := variable'.lexeme, head } :: state.opened }).map view = _
  rw [State.spell_opened rfl]
  simp [OpenLoop.spell, itself (isFor.isEntry rfl), itself (isVariable.isEntry rfl), opener, index, ← header]

/-- The closing word closes a loop, whose token stands for it from then on. -/
theorem Spells.closes {loop : OpenLoop} {outer : List OpenLoop}
    (kept : Spells view calls count total state (token :: rest)) (open' : state.opened = loop :: outer)
    (isNext : IsWord .kwNext token) :
    Spells view calls count total
      (State.emit { state with opened := outer, loops := state.loops.push loop.closed }
        (loop.token state.loops.size)) rest := by
  obtain ⟨free, others⟩ := List.forall_mem_cons.mp (open' ▸ kept.heads)
  -- The new entry changes nothing for tokens that were there before it.
  have before : ∀ other ∈ State.tokens { state with opened := outer },
      expandToken calls (state.loops.push loop.closed) (state.loops.size + 1) calls.size other =
        expandToken calls state.loops state.loops.size calls.size other := by
    intro other member
    have among : other ∈ state.tokens := by
      simp only [State.tokens, open', List.mem_append, List.flatMap_cons] at member ⊢
      tauto
    exact expandToken_push_known args _ fun id => kept.order.known among
  have closing := view_word view isNext rfl (kept.same token List.mem_cons_self)
  have itself : loopless calls token = [token] := expandToken_free (isNext.isEntry rfl)
  refine Spells.move [token] kept
    ((moves_conserves count).closes kept.order open' isNext) (State.heads_emit _ others) ?_
  rw [State.meaning_emit, State.spell_emit]
  simp only [State.meaning, Array.size_push]
  rw [OpenLoop.expandToken_token args free, State.spell_opened open', ← State.spell_congr before]
  simp [closing, itself, State.spell]

/-- Every move of the scan keeps what the tokens spell out. -/
theorem moves_spells : Moves (Spells view calls count total) where
  stays := .stays args
  opens := .opens
  closes := .closes args

variable (view)

/-- The loops that are extracted spell out the tokens they were extracted from. -/
theorem extract_spells {tokens out : List Token} {loops : Array ForLoop}
    (free : ∀ id, (Census.loops id).of tokens = 0)
    (same : ∀ token ∈ tokens, token.kind.isEntry = false → view token = view token.loosely)
    (read : extract tokens = .ok (out, loops)) :
    (expand calls loops out).map view = (tokens.flatMap (loopless calls)).map view := by
  have start : Spells view calls (fun census => census.of tokens)
      ((tokens.flatMap (loopless calls)).map view) {} tokens :=
    ⟨⟨fun census _ => by simp [State.tokens], free, fun id => by simp [State.tokens, once],
      by simp⟩, List.forall_mem_nil _, same, by simp [State.spell]⟩
  have kept := (moves_spells args).extract start read
  simpa [State.spell, State.meaning, expand] using kept.text

end

end Loops

/-- Punctuation around arguments has its one spelling. -/
def Token.isPlainlyMarked (token : Token) : Prop :=
  ∀ mark, token.kind.mark? = some mark → token.lexeme = mark

/-- Kind and text of a token. -/
def Token.text (token : Token) : TokenKind × String := (token.kind, token.lexeme)

/-- Kind and text of a token, whatever the spelling of the words of loops. -/
def Token.textLoosely (token : Token) : TokenKind × String :=
  (token.kind, token.kind.word?.getD token.lexeme)

/-- A plainly marked token keeps its lexeme. -/
theorem Token.canonical_lexeme {token : Token} (marked : token.isPlainlyMarked) :
    token.canonical.lexeme = token.lexeme := by
  unfold canonical spelled
  cases found : token.kind.mark? with
  | none => rfl
  | some mark => exact (marked mark found).symm

/-- Tokens outside calls are marked as those that the calls were taken out of. -/
theorem CallSites.extract_marked {tokens out : List Token} {calls : Array CallSite}
    (marked : ∀ token ∈ tokens, token.isPlainlyMarked)
    (read : CallSites.extract tokens = .ok (out, calls)) :
    ∀ token ∈ out, token.isPlainlyMarked := by
  have moves : Moves fun state rest =>
      (∀ token ∈ state.out, token.isPlainlyMarked) ∧ ∀ token ∈ rest, token.isPlainlyMarked :=
    { outside := by
        intro state token rest kept _
        have here := List.forall_mem_cons.mp kept.2
        exact ⟨List.forall_mem_cons.mpr ⟨here.1, kept.1⟩, here.2⟩
      inside := fun _ _ kept _ => ⟨kept.1, (List.forall_mem_cons.mp kept.2).2⟩
      divides := fun kept _ _ => ⟨kept.1, (List.forall_mem_cons.mp kept.2).2⟩
      opens := fun kept _ _ =>
        ⟨kept.1, (List.forall_mem_cons.mp (List.forall_mem_cons.mp kept.2).2).2⟩
      closes := by
        intro state token rest call outer site kept _ _ _
        refine ⟨?_, (List.forall_mem_cons.mp kept.2).2⟩
        have entry : (call.token state.calls.size).isPlainlyMarked := by
          intro mark is
          rcases call.token_isCall state.calls.size with kind | kind <;>
            simp [kind, TokenKind.mark?] at is
        unfold State.emit
        split
        · exact kept.1
        · exact List.forall_mem_cons.mpr ⟨entry, kept.1⟩ }
  have kept := moves.extract ⟨nofun, marked⟩ read
  exact fun token member => kept.1 token (List.mem_reverse.mpr member)

/-- What is looked at does not change when the words of a token are spelled anew. -/
theorem Token.readsLoosely_loosely (token : Token) :
    token.readsLoosely = token.loosely.readsLoosely := by
  unfold readsLoosely reads loosely canonical spelled
  cases token.kind <;> rfl

/-- The loose text of a plainly marked token is that of its loose form. -/
theorem Token.textLoosely_loosely {token : Token} (marked : token.isPlainlyMarked) :
    token.textLoosely = token.loosely.textLoosely := by
  unfold textLoosely loosely
  rw [canonical_lexeme marked]
  unfold spelled
  cases token.kind <;> rfl

/-- Spelling out the calls that were extracted, and the loops extracted after them, gives back the
tokens they were extracted from, in the same order and with the same kinds and texts. Only the
words of loops, and punctuation that no source can hold, may have been spelled differently. -/
theorem expand_extract {tokens : List Token} (free : areFree tokens) :
    (∀ (out : List Token) (calls : Array CallSite), CallSites.extract tokens = .ok (out, calls) →
      (expand calls #[] out).map Token.reads = tokens.map Token.reads ∧
      (areSource tokens → (expand calls #[] out).map Token.text = tokens.map Token.text)) ∧
    (∀ (called out : List Token) (calls : Array CallSite) (loops : Array ForLoop),
      CallSites.extract tokens = .ok (called, calls) → Loops.extract called = .ok (out, loops) →
      (expand calls loops out).map Token.readsLoosely = tokens.map Token.readsLoosely ∧
      (areSource tokens →
        (expand calls loops out).map Token.textLoosely = tokens.map Token.textLoosely)) := by
  have marked : areSource tokens → ∀ token ∈ tokens, token.isPlainlyMarked :=
    fun source token member => (source token member).2
  have canonical : ∀ token : Token, token.reads = token.canonical.reads := by
    intro token
    unfold Token.reads Token.canonical Token.spelled
    cases token.kind <;> rfl
  refine ⟨fun out calls read => ⟨?_, fun source => ?_⟩,
    fun called out calls loops read looped => ?_⟩
  · exact CallSites.extract_spells _ free (fun token _ => canonical token) read
  · refine CallSites.extract_spells _ free (fun token member => ?_) read
    exact Prod.ext rfl (Token.canonical_lexeme (marked source token member)).symm
  · have order := CallSites.extract_inOrder free read
    have none' : ∀ id, (Census.loops id).of called = 0 ∧
        (Census.loops id).of (tokensOf (calls.toList.flatMap CallSite.args)) = 0 := by
      intro id
      have counted := order.loops id
      simp only [CallSites.State.tokens, Census.of_append, Census.of_reverse] at counted
      omega
    have args : ArgsFree calls := by
      intro id site stored arg member token inside
      refine Loops.loopId?_eq_none (fun id => (none' id).2) ?_
      refine List.mem_flatMap.mpr ⟨arg, List.mem_flatMap.mpr ⟨site, ?_, member⟩, inside⟩
      exact Array.mem_toList_iff.mpr (Array.mem_of_getElem? stored)
    constructor
    · rw [Loops.extract_spells Token.readsLoosely args (fun id => (none' id).1)
        (fun token _ _ => token.readsLoosely_loosely) looped]
      refine CallSites.extract_spells Token.readsLoosely free (fun token _ => ?_) read
      exact Prod.ext rfl (congrArg token.kind.word?.getD (congrArg Prod.snd (canonical token)))
    · intro source
      rw [Loops.extract_spells Token.textLoosely args (fun id => (none' id).1) (fun token member _ =>
        Token.textLoosely_loosely (CallSites.extract_marked (marked source) read token member))
        looped]
      refine CallSites.extract_spells Token.textLoosely free (fun token member => ?_) read
      exact Prod.ext rfl (congrArg token.kind.word?.getD
        (Token.canonical_lexeme (marked source token member)).symm)

/-- A loop with nested calls in its header is spelled out as it was written. -/
theorem expand_extract_nested : ∃ tokens called out calls loops,
    tokenize "for $i = 1 to f($a[1, 2], g(3))\nnext\n" = .ok tokens ∧
      CallSites.extract tokens = .ok (called, calls) ∧ Loops.extract called = .ok (out, loops) ∧
      calls.size = 2 ∧ loops.size = 1 ∧
      (expand calls loops out).map Token.textLoosely = tokens.map Token.textLoosely := by
  have sizes : (tokenize "for $i = 1 to f($a[1, 2], g(3))\nnext\n").toOption.bind (fun tokens =>
      (CallSites.extract tokens).toOption.bind fun called =>
        (Loops.extract called.1).toOption.map fun looped =>
          (called.2.size, looped.2.size)) = some (2, 1) := by decide +kernel
  cases read : tokenize "for $i = 1 to f($a[1, 2], g(3))\nnext\n" with
  | error => simp [read, Except.toOption] at sizes
  | ok tokens =>
    cases called : CallSites.extract tokens with
    | error => simp [read, called, Except.toOption] at sizes
    | ok first =>
      cases looped : Loops.extract first.1 with
      | error => simp [read, called, looped, Except.toOption] at sizes
      | ok second =>
        simp only [read, called, looped, Except.toOption, Option.bind_some, Option.map_some,
          Option.some.injEq, Prod.mk.injEq] at sizes
        have source := tokenize_areSource read
        exact ⟨tokens, first.1, second.1, first.2, second.2, rfl, called, looped, sizes.1, sizes.2,
          ((expand_extract (areFree_of_areSource source)).2 _ _ _ _ called looped).2 source⟩

end LineScript
