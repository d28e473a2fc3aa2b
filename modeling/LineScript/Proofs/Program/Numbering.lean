import LineScript.Proofs.Program.Functions
import LineScript.Proofs.Program.Loops

/-!
# Numbers of calls and loops

The tables of a program are in order: each number that a token carries is that of an entry, every
entry is mentioned by exactly one token, and the tokens of an entry mention earlier entries only.
The passes that take calls, loops and functions out move tokens but neither lose nor copy them.
-/

namespace LineScript

/-- The numbers below a bound are mentioned once each, and no others. -/
def once (id bound : Nat) : Nat := if id < bound then 1 else 0

/-- A bound one larger counts one more number. -/
theorem once_succ (id bound : Nat) :
    once id (bound + 1) = once id bound + if id = bound then 1 else 0 := by
  unfold once
  split <;> split <;> split <;> omega

/-- A number that is counted is below the bound. -/
theorem lt_of_once_pos {id bound : Nat} (mentioned : 0 < once id bound) : id < bound := by
  unfold once at mentioned
  split at mentioned
  · assumption
  · omega

/-- A call's entry is counted once by the census of its own number. -/
theorem Census.of_call (id number : Nat) {token : Token}
    (is : token.kind = .call number ∨ token.kind = .userCall number) :
    (Census.calls id).of [token] = if id = number then 1 else 0 := by
  by_cases same : id = number
  · subst same
    rcases is with is | is <;> simp [Census.of, Census.calls, is]
  · have other : number ≠ id := fun is => same is.symm
    rcases is with is | is <;> simp [Census.of, Census.calls, is, same, other]

/-- A loop's entry is counted once by the census of its own number. -/
theorem Census.of_loop (id number : Nat) {token : Token} (is : token.kind = .loop number) :
    (Census.loops id).of [token] = if id = number then 1 else 0 := by
  by_cases same : id = number
  · subst same
    simp [Census.of, Census.loops, is]
  · have other : number ≠ id := fun is => same is.symm
    simp [Census.of, Census.loops, is, same, other]

/-- The order of groups of tokens does not matter. -/
theorem Census.of_flatten_reverse (census : Census) (groups : List (List Token)) :
    census.of groups.reverse.flatten = census.of groups.flatten := by
  induction groups with
  | nil => rfl
  | cons group groups ih =>
    rw [List.reverse_cons, List.flatten_append, census.of_append, ih]
    simp only [List.flatten_cons, List.flatten_nil, List.append_nil, census.of_append]
    omega

/-- The tokens of blocks are the blocks' lists joined. -/
theorem tokensOf_eq_flatten (blocks : List TokenBlock) :
    tokensOf blocks = (blocks.map Array.toList).flatten := by
  rw [tokensOf, List.flatMap_def]

namespace CallSites

/-- The tokens read into an open call. -/
def OpenCall.tokens (call : OpenCall) : List Token := call.group ++ call.groups.flatten

/-- All tokens that a state keeps. -/
def State.tokens (state : State) : List Token :=
  state.out ++ state.opened.flatMap OpenCall.tokens ++
    tokensOf (state.calls.toList.flatMap CallSite.args)

/-- The token made for an open call is an entry of the call's number. -/
theorem OpenCall.token_isCall (call : OpenCall) (id : Nat) : (call.token id).isCall id := by
  unfold OpenCall.token Token.isCall
  split
  · exact .inl rfl
  · exact .inr rfl

/-- Emitting a token adds no call site. -/
@[simp] theorem State.calls_emit (state : State) (token : Token) :
    (state.emit token).calls = state.calls := by
  unfold State.emit
  split <;> rfl

/-- A token that is added where the reading stands is added to what the state keeps. -/
theorem State.of_emit (census : Census) (state : State) (token : Token) :
    census.of (state.emit token).tokens = census.of [token] + census.of state.tokens := by
  unfold State.emit
  split
  · rename_i call outer open'
    simp only [State.tokens, open', List.flatMap_cons, OpenCall.tokens, OpenCall.push,
      census.of_append, census.of_cons token call.group]
    omega
  · simp only [State.tokens, census.of_append, census.of_cons token state.out]
    omega

/-- The tokens of a call that is closed are those read into it. -/
theorem OpenCall.of_close (census : Census) {call : OpenCall} {site : CallSite}
    (closed : call.close = .ok site) :
    census.of (tokensOf site.args) = census.of call.tokens := by
  obtain ⟨_, args, _⟩ := OpenCall.close_eq_ok closed
  rw [tokensOf_eq_flatten, args, List.flatten_append, census.of_append,
    census.of_flatten_reverse, OpenCall.tokens, census.of_append]
  by_cases empty : call.group = []
  · simp [empty]
  · simp only [empty, if_false, List.flatten_cons, List.flatten_nil, List.append_nil,
      census.of_reverse]
    omega

/-- The state after a call is closed keeps what it kept, and the token of the call. -/
theorem State.of_close (census : Census) {state : State} {call : OpenCall} {outer : List OpenCall}
    {site : CallSite} (open' : state.opened = call :: outer) (closed : call.close = .ok site) :
    census.of (State.emit { state with opened := outer, calls := state.calls.push site }
      (call.token state.calls.size)).tokens =
        census.of [call.token state.calls.size] + census.of state.tokens := by
  rw [State.of_emit]
  simp only [State.tokens, open', List.flatMap_cons, census.of_append, Array.toList_push,
    List.flatMap_append, List.flatMap_nil, tokensOf_append, List.append_nil,
    OpenCall.of_close census closed]
  omega

/-- The calls of a state are in order, and the tokens still to read mention no entry. -/
structure InOrder (state : State) (rest : List Token) : Prop where
  /-- No entry is mentioned by a token still to read. -/
  free : areFree rest
  /-- Each call is mentioned once. -/
  calls : ∀ id, (Census.calls id).of state.tokens = once id state.calls.size
  /-- No loop is mentioned. -/
  loops : ∀ id, (Census.loops id).of state.tokens = 0
  /-- The arguments of a call mention earlier calls only. -/
  earlier : ∀ (number : Nat) (site : CallSite), state.calls[number]? = some site →
    ∀ id, 0 < (Census.calls id).of (tokensOf site.args) → id < number

/-- A state that keeps the same table and counts the same keeps its calls in order. -/
theorem InOrder.of_same {state later : State} {rest after : List Token}
    (order : InOrder state rest) (free : areFree after) (table : later.calls = state.calls)
    (same : ∀ census : Census, census.of later.tokens = census.of state.tokens) :
    InOrder later after := by
  refine ⟨free, fun id => ?_, fun id => ?_, ?_⟩
  · rw [same, table]
    exact order.calls id
  · rw [same]
    exact order.loops id
  · rw [table]
    exact order.earlier

/-- What a closing call mentions was mentioned before, so it is in the table already. -/
theorem InOrder.earlier_close {state : State} {rest : List Token} (order : InOrder state rest)
    {call : OpenCall} {outer : List OpenCall} {site : CallSite}
    (open' : state.opened = call :: outer) (closed : call.close = .ok site) {id : Nat}
    (mentioned : 0 < (Census.calls id).of (tokensOf site.args)) : id < state.calls.size := by
  have before := order.calls id
  rw [OpenCall.of_close _ closed] at mentioned
  simp only [State.tokens, open', List.flatMap_cons, Census.of_append] at before
  exact lt_of_once_pos (by omega)

/-- Every move of the scan keeps the calls in order. -/
theorem moves_inOrder : Moves InOrder where
  outside := by
    intro state token rest order none'
    have here := areFree_cons.mp order.free
    refine order.of_same here.2 rfl fun census => ?_
    simp only [State.tokens, census.of_append, census.of_cons_free here.1]
  inside := by
    intro state token rest call outer parens brackets order open'
    have here := areFree_cons.mp order.free
    refine order.of_same here.2 rfl fun census => ?_
    simp only [State.tokens, open', List.flatMap_cons, OpenCall.tokens, OpenCall.push,
      census.of_append, census.of_cons_free here.1]
  divides := by
    intro state token rest call outer order open' comma
    refine order.of_same (areFree_cons.mp order.free).2 rfl fun census => ?_
    simp only [State.tokens, open', List.flatMap_cons, OpenCall.tokens, List.flatten_cons,
      census.of_append, census.of_reverse, census.of_nil]
    omega
  opens := by
    intro state token next rest order isName isOpening
    refine order.of_same (areFree_cons.mp (areFree_cons.mp order.free).2).2 rfl
      fun census => ?_
    simp [State.tokens, OpenCall.tokens]
  closes := by
    intro state token rest call outer site order open' isClosing closed
    have kept (census : Census) := State.of_close census open' closed
    refine ⟨(areFree_cons.mp order.free).2, fun id => ?_, fun id => ?_, ?_⟩
    · rw [kept, State.calls_emit, Array.size_push, once_succ, order.calls id,
        Census.of_call id _ (call.token_isCall _)]
      omega
    · have free : (Census.loops id).of [call.token state.calls.size] = 0 := by
        rcases call.token_isCall state.calls.size with is | is <;>
          simp [Census.of, Census.loops, is]
      rw [kept, free, order.loops id]
    · rw [State.calls_emit]
      intro number found stored id mentioned
      rw [Array.getElem?_push] at stored
      split at stored
      · rename_i last
        cases stored
        rw [last]
        exact order.earlier_close open' closed mentioned
      · exact order.earlier number found stored id mentioned

/-- The calls that are extracted from tokens without entries are in order. -/
theorem extract_inOrder {tokens out : List Token} {calls : Array CallSite}
    (free : areFree tokens) (read : extract tokens = .ok (out, calls)) :
    InOrder { out := out.reverse, calls } [] := by
  refine moves_inOrder.extract ⟨free, fun id => ?_, fun id => ?_, nofun⟩ read
  · simp [State.tokens, once]
  · simp [State.tokens]

end CallSites

namespace Loops

/-- The tokens read into an open loop. -/
def OpenLoop.tokens (loop : OpenLoop) : List Token := loop.body ++ tokensOf loop.head.blocks

/-- All tokens that a state keeps. -/
def State.tokens (state : State) : List Token :=
  state.out ++ state.opened.flatMap OpenLoop.tokens ++
    tokensOf (state.loops.toList.flatMap ForLoop.blocks)

/-- An operator is no entry. -/
theorem isEntry_of_isOperator {token : Token} {operator : String}
    (is : token.isOperator operator = true) : token.kind.isEntry = false := by
  have kind : token.kind = .operator := by simp_all [Token.isOperator]
  rw [kind]
  rfl

/-- A keyword is no entry. -/
theorem IsWord.isEntry {kind : TokenKind} {token : Token} (word : IsWord kind token)
    (free : kind.isEntry = false) : token.kind.isEntry = false := by
  rw [show token.kind = kind from word]
  exact free

/-- The entries of a header are those of its expressions. -/
theorem Writes.census (census : Census) {head : LoopHead} {written : List Token}
    (writes : Writes head written) : census.of written = census.of (tokensOf head.blocks) := by
  cases writes with
  | range equals to' =>
    simp only [List.cons_append, census.of_cons_free (isEntry_of_isOperator equals),
      census.of_append, census.of_cons_free (to'.isEntry rfl), LoopHead.blocks, Option.toList_none,
      tokensOf_cons, tokensOf_nil, census.of_nil, Nat.add_zero]
  | stepped equals to' word =>
    simp only [List.cons_append, census.of_cons_free (isEntry_of_isOperator equals),
      census.of_append, census.of_cons_free (to'.isEntry rfl), census.of_cons_free (word.isEntry rfl),
      LoopHead.blocks, Option.toList_some, tokensOf_cons, tokensOf_nil, census.of_nil,
      Nat.add_zero]
  | each word =>
    simp only [census.of_cons_free (word.isEntry rfl), LoopHead.blocks, tokensOf_cons, tokensOf_nil,
      List.append_nil]

/-- Emitting a token adds no loop. -/
@[simp] theorem State.loops_emit (state : State) (token : Token) :
    (state.emit token).loops = state.loops := by
  unfold State.emit
  split <;> rfl

/-- An emitted token is counted beside the state's tokens. -/
theorem State.of_emit (census : Census) (state : State) (token : Token) :
    census.of (state.emit token).tokens = census.of [token] + census.of state.tokens := by
  unfold State.emit
  split
  · rename_i loop outer open'
    simp only [State.tokens, open', List.flatMap_cons, OpenLoop.tokens, census.of_append,
      census.of_cons token loop.body]
    omega
  · simp only [State.tokens, census.of_append, census.of_cons token state.out]
    omega

/-- What a state keeps and what is still to read have the same entries before and after each move,
apart from those of the new loops. -/
structure Conserves (total : Census → Nat) (state : State) (rest : List Token) : Prop where
  /-- Entries other than loops are neither lost nor copied. -/
  others : ∀ census : Census, (∀ token id, token.kind = .loop id → census.counts token = false) →
    census.of state.tokens + census.of rest = total census
  /-- No loop is mentioned by a token still to read. -/
  source : ∀ id, (Census.loops id).of rest = 0
  /-- Each loop is mentioned once. -/
  loops : ∀ id, (Census.loops id).of state.tokens = once id state.loops.size
  /-- The body of a loop mentions earlier loops only. -/
  earlier : ∀ (number : Nat) (loop : ForLoop), state.loops[number]? = some loop →
    ∀ id, 0 < (Census.loops id).of loop.body.toList → id < number

/-- The state after a loop is closed keeps what it kept, and the token of the loop. -/
theorem State.of_close (census : Census) {state : State} {loop : OpenLoop}
    {outer : List OpenLoop} (open' : state.opened = loop :: outer) :
    census.of (State.emit { state with opened := outer, loops := state.loops.push loop.closed }
      (loop.token state.loops.size)).tokens =
        census.of [loop.token state.loops.size] + census.of state.tokens := by
  rw [State.of_emit]
  simp only [State.tokens, open', List.flatMap_cons, census.of_append, Array.toList_push,
    List.flatMap_append, List.flatMap_nil, tokensOf_append, List.append_nil, ForLoop.blocks,
    OpenLoop.closed, OpenLoop.tokens, tokensOf_cons, census.of_reverse]
  omega

/-- The state after a loop is opened keeps what it kept, and the expressions of its head. -/
theorem State.of_open (census : Census) (state : State) (opener : Token) (index : String)
    (head : LoopHead) :
    census.of (State.tokens { state with opened := { opener, index, head } :: state.opened }) =
      census.of (tokensOf head.blocks) + census.of state.tokens := by
  simp only [State.tokens, List.flatMap_cons, OpenLoop.tokens, census.of_append, census.of_nil]
  omega

/-- What the body of a closing loop mentions was mentioned before, so it is in the table already. -/
theorem Conserves.earlier_close {total : Census → Nat} {state : State} {rest : List Token}
    (kept : Conserves total state rest) {loop : OpenLoop} {outer : List OpenLoop}
    (open' : state.opened = loop :: outer) {id : Nat}
    (mentioned : 0 < (Census.loops id).of loop.closed.body.toList) : id < state.loops.size := by
  have before := kept.loops id
  simp only [State.tokens, open', List.flatMap_cons, OpenLoop.tokens, Census.of_append] at before
  simp only [OpenLoop.closed, List.toList_toArray, Census.of_reverse] at mentioned
  exact lt_of_once_pos (by omega)

/-- A token that stays is counted where it goes. -/
theorem Conserves.stays {total : Census → Nat} {state : State} {token : Token} {rest : List Token}
    (kept : Conserves total state (token :: rest)) : Conserves total (state.emit token) rest := by
  have free : ∀ id, (Census.loops id).of [token] = 0 ∧ (Census.loops id).of rest = 0 := by
    intro id
    have none' := kept.source id
    rw [Census.of_cons] at none'
    omega
  refine ⟨fun census others => ?_, fun id => (free id).2, fun id => ?_, ?_⟩
  · have before := kept.others census others
    rw [census.of_cons] at before
    rw [State.of_emit]
    omega
  · rw [State.of_emit, (free id).1, State.loops_emit, kept.loops id, Nat.zero_add]
  · rw [State.loops_emit]
    exact kept.earlier

/-- The entries of a header are counted in the loop that it opens. -/
theorem Conserves.opens {total : Census → Nat} {state : State} {token variable' : Token}
    {written rest : List Token} {head : LoopHead}
    (kept : Conserves total state (token :: variable' :: written ++ rest))
    (isFor : IsWord .kwFor token) (isVariable : IsWord .variableName variable')
    (writes : Writes head written) :
    Conserves total
      { state with opened := { opener := token, index := variable'.lexeme, head } :: state.opened }
      rest := by
  have header : ∀ census : Census, census.of (token :: variable' :: written ++ rest) =
      census.of (tokensOf head.blocks) + census.of rest := by
    intro census
    rw [List.cons_append, List.cons_append, census.of_cons_free (isFor.isEntry rfl),
      census.of_cons_free (isVariable.isEntry rfl), census.of_append, writes.census]
  have opened (census : Census) := State.of_open census state token variable'.lexeme head
  have free : ∀ id, (Census.loops id).of (tokensOf head.blocks) = 0 ∧
      (Census.loops id).of rest = 0 := by
    intro id
    have none' := kept.source id
    rw [header] at none'
    omega
  refine ⟨fun census others => ?_, fun id => (free id).2, fun id => ?_, kept.earlier⟩
  · have before := kept.others census others
    rw [header] at before
    rw [opened]
    omega
  · rw [opened, (free id).1, Nat.zero_add]
    exact kept.loops id

/-- The entry of a loop that is closed is new, and mentions earlier ones. -/
theorem Conserves.closes {total : Census → Nat} {state : State} {token : Token} {rest : List Token}
    {loop : OpenLoop} {outer : List OpenLoop} (kept : Conserves total state (token :: rest))
    (open' : state.opened = loop :: outer) (isNext : IsWord .kwNext token) :
    Conserves total
      (State.emit { state with opened := outer, loops := state.loops.push loop.closed }
        (loop.token state.loops.size)) rest := by
  refine ⟨fun census others => ?_, fun id => ?_, fun id => ?_, ?_⟩
  · have before := kept.others census others
    rw [census.of_cons_free (isNext.isEntry rfl)] at before
    have none' : census.of [loop.token state.loops.size] = 0 := by
      simp [Census.of, others (loop.token state.loops.size) _ rfl]
    rw [State.of_close census open', none', Nat.zero_add]
    exact before
  · have none' := kept.source id
    rwa [Census.of_cons_free _ (isNext.isEntry rfl)] at none'
  · rw [State.of_close _ open', State.loops_emit, Array.size_push, once_succ, kept.loops id,
      Census.of_loop id _ rfl]
    omega
  · rw [State.loops_emit]
    intro number found stored id mentioned
    rw [Array.getElem?_push] at stored
    split at stored
    · rename_i last
      cases stored
      rw [last]
      exact kept.earlier_close open' mentioned
    · exact kept.earlier number found stored id mentioned

/-- Every move of the scan neither loses nor copies an entry. -/
theorem moves_conserves (total : Census → Nat) : Moves (Conserves total) where
  stays := .stays
  opens := .opens
  closes := .closes

/-- Extracting the loops neither loses nor copies an entry. -/
theorem extract_conserves {tokens out : List Token} {loops : Array ForLoop}
    (free : ∀ id, (Census.loops id).of tokens = 0) (read : extract tokens = .ok (out, loops)) :
    Conserves (fun census => census.of tokens) { out := out.reverse, loops } [] := by
  refine (moves_conserves _).extract ⟨fun census _ => ?_, free, fun id => ?_, nofun⟩ read
  · simp [State.tokens]
  · simp [State.tokens, once]

end Loops

namespace Program

/-- A program is what its passes took out of the joined tokens, and all of its parts are checked. -/
theorem assemble_eq_ok {joined : List Token} {program : Program} {defined : Functions.Defined}
    (assembled : assemble joined {} = .ok program defined) :
    ∃ called looped out, CallSites.extract joined = .ok (called, program.calls) ∧
      Loops.extract called = .ok (looped, program.loops) ∧
      Functions.extract looped {} = .ok out defined ∧
      program.tokens = out.toArray ∧ program.functions = defined.functions ∧
      program.check = .ok () := by
  have lifted : ∀ {α : Type} {outcome : Except Fault α} {value : α}
      {before after : Functions.Defined},
      assemble.liftExcept outcome before = .ok value after → outcome = .ok value ∧ after = before := by
    intro α outcome value before after ran
    cases outcome <;> cases ran
    exact ⟨rfl, rfl⟩
  unfold assemble at assembled
  obtain ⟨⟨called, calls⟩, _, first, assembled⟩ := run_bind_eq_ok.mp assembled
  obtain ⟨called', rfl⟩ := lifted first
  obtain ⟨⟨looped, loops⟩, _, second, assembled⟩ := run_bind_eq_ok.mp assembled
  obtain ⟨looped', rfl⟩ := lifted second
  obtain ⟨out, middle, extracted, assembled⟩ := run_bind_eq_ok.mp assembled
  obtain ⟨now, _, ⟨⟩, assembled⟩ := run_bind_eq_ok.mp assembled
  obtain ⟨_, _, third, assembled⟩ := run_bind_eq_ok.mp assembled
  obtain ⟨checked, rfl⟩ := lifted third
  cases assembled
  exact ⟨called, looped, out, called', looped', extracted, rfl, rfl, checked⟩

/-- The tables of a program are in order. -/
structure Ordered (program : Program) : Prop where
  /-- Each call is mentioned once, and no other number is mentioned as that of a call. -/
  calls : ∀ id, program.everyToken.countP
    (fun token => token.kind == .call id || token.kind == .userCall id) =
      if id < program.calls.size then 1 else 0
  /-- Each loop is mentioned once, and no other number is mentioned as that of a loop. -/
  loops : ∀ id, program.everyToken.countP (fun token => token.kind == .loop id) =
    if id < program.loops.size then 1 else 0
  /-- The arguments of a call mention earlier calls only. -/
  args : ∀ (number : Nat) (site : CallSite), program.calls[number]? = some site →
    ∀ arg ∈ site.args, ∀ token ∈ arg.toList, ∀ id, token.isCall id → id < number
  /-- The body of a loop mentions earlier loops only. -/
  bodies : ∀ (number : Nat) (loop : ForLoop), program.loops[number]? = some loop →
    ∀ token ∈ loop.body.toList, ∀ id, token.kind = .loop id → id < number

/-- A token that passes a test is counted. -/
theorem of_pos {census : Census} {tokens : List Token} {token : Token} (member : token ∈ tokens)
    (counted : census.counts token = true) : 0 < census.of tokens :=
  List.countP_pos_iff.mpr ⟨token, member, counted⟩

/-- An entry of a call is counted by the census of that call. -/
theorem counts_of_isCall {token : Token} {id : Nat} (is : token.isCall id) :
    (Census.calls id).counts token = true := by
  rcases is with is | is <;> simp [Census.calls, is]

/-- A program assembled from tokens of sources has its tables in order. -/
theorem ordered_of_assemble {joined : List Token} {program : Program}
    {defined : Functions.Defined} (source : areSource joined)
    (assembled : assemble joined {} = .ok program defined) : program.Ordered := by
  obtain ⟨called, looped, out, callsRead, loopsRead, functionsRead, isOut, isDefined, _⟩ :=
    assemble_eq_ok assembled
  have first := CallSites.extract_inOrder (areFree_of_areSource source) callsRead
  have free : ∀ id, (Census.loops id).of called = 0 := by
    intro id
    have none' := first.loops id
    simp only [CallSites.State.tokens, Census.of_append, Census.of_reverse] at none'
    omega
  have second := Loops.extract_conserves free loopsRead
  -- A census of the whole program, in terms of what the passes left.
  have whole : ∀ census : Census, census.of program.everyToken = census.of looped +
      census.of (tokensOf (program.loops.toList.flatMap ForLoop.blocks)) +
      census.of (tokensOf (program.calls.toList.flatMap CallSite.args)) := by
    intro census
    have third : census.of looped + Functions.ofDefined census {} =
        census.of out + Functions.ofDefined census defined :=
      Functions.scan_census census functionsRead
    simp only [Functions.ofDefined, List.flatMap_nil, tokensOf_nil, census.of_nil] at third
    simp only [everyToken, blocks, tokensOf_cons, tokensOf_append, census.of_append, isOut,
      isDefined]
    omega
  refine ⟨fun id => ?_, fun id => ?_, fun number site stored arg member token inside id is => ?_,
    fun number loop stored token inside id is => ?_⟩
  · show (Census.calls id).of program.everyToken = once id program.calls.size
    have inTable := first.calls id
    have moved := second.others (Census.calls id) fun token number is => by
      simp [Census.calls, is]
    simp only [CallSites.State.tokens, Loops.State.tokens, Census.of_append, Census.of_reverse,
      List.flatMap_nil, Census.of_nil] at inTable moved
    rw [whole]
    omega
  · show (Census.loops id).of program.everyToken = once id program.loops.size
    have inTable := second.loops id
    have inArgs := first.loops id
    simp only [CallSites.State.tokens, Loops.State.tokens, Census.of_append, Census.of_reverse,
      List.flatMap_nil, Census.of_nil] at inTable inArgs
    rw [whole]
    omega
  · exact first.earlier number site stored id
      (of_pos (List.mem_flatMap.mpr ⟨arg, member, inside⟩) (counts_of_isCall is))
  · exact second.earlier number loop stored id (of_pos inside (by simp [Census.loops, is]))

end Program

end LineScript
