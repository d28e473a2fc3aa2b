import LineScript.Proofs.Origin.Calls

/-!
# What taking loops and functions out keeps of the tokens

Headers and bodies of loops, defaults and bodies of functions and what is left of the script are
made of the tokens that were there, and of those that stand for loops.
-/

namespace LineScript

variable {kept : Token → Prop} {line : Nat} {tokens : List Token}

/-- Blocks are all kept exactly when the first and the others are. -/
theorem blocksKept_cons {block : TokenBlock} {blocks : List TokenBlock} :
    BlocksKept kept (block :: blocks) ↔ AllKept kept block.toList ∧ BlocksKept kept blocks :=
  List.forall_mem_cons

namespace Loops

/-- The tokens of some runs are kept, and so are those behind them. -/
abbrev PartKept (kept : Token → Prop) (blocks : List TokenBlock) (after : List Token) : Prop :=
  BlocksKept kept blocks ∧ AllKept kept after

/-- A part of a header is kept, and so is what follows it. -/
theorem headerTokens_yields (stops : TokenKind → Bool) (part : String)
    (all : AllKept kept tokens) : Yields kept (headerTokens stops part tokens) fun result =>
      AllKept kept result.1 ∧ AllKept kept result.2 := by
  induction tokens with
  | nil => exact .ok ⟨allKept_nil, allKept_nil⟩
  | cons token rest ih =>
    have here := allKept_cons.mp all
    unfold headerTokens
    split
    · exact .ok ⟨allKept_nil, all⟩
    · split
      · rename_i goesOn word
        refine .error (anchored_of_kind here.1 ?_)
        rcases word with kind | kind | kind | kind <;> simp [kind]
      · have later := ih here.2
        split
        · rename_i read
          obtain ⟨expression, after⟩ := later.of_eq_ok read
          exact .ok ⟨allKept_cons.mpr ⟨here.1, expression⟩, after⟩
        · exact later.of_eq_error ‹_›

section

variable (anchored : Anchored kept line)
include anchored

/-- An expression of a header is kept, and so is what follows it. -/
theorem headerExpression_yields (stops : TokenKind → Bool) (part : String)
    (all : AllKept kept tokens) : Yields kept (headerExpression stops part line tokens)
      fun result => AllKept kept result.1.toList ∧ AllKept kept result.2 := by
  have read := headerTokens_yields stops part all
  unfold headerExpression
  split
  · exact read.of_eq_error ‹_›
  · rename_i expression after found
    split
    · exact .error anchored
    · exact .ok (read.of_eq_ok found)

/-- An optional step is kept, and so is what follows it. -/
theorem stepPart_yields (all : AllKept kept tokens) : Yields kept (stepPart line tokens)
    fun result => PartKept kept result.1.toList result.2 := by
  unfold stepPart
  split
  · rename_i token rest
    have here := allKept_cons.mp all
    split
    · have read := headerExpression_yields anchored (fun _ => false) "step" here.2
      split
      · rename_i found
        obtain ⟨step, after⟩ := read.of_eq_ok found
        exact .ok ⟨blocksKept_cons.mpr ⟨step, List.forall_mem_nil _⟩, after⟩
      · exact read.of_eq_error ‹_›
    · exact .ok ⟨List.forall_mem_nil _, all⟩
  · exact .ok ⟨List.forall_mem_nil _, List.forall_mem_nil _⟩

/-- A counting header is kept, and so is what follows it. -/
theorem rangeHead_yields (all : AllKept kept tokens) : Yields kept (rangeHead line tokens)
    fun result => PartKept kept result.1.blocks result.2 := by
  have readFirst := headerExpression_yields anchored (· == .kwTo) "start index" all
  unfold rangeHead
  split
  · exact readFirst.of_eq_error ‹_›
  · exact .error anchored
  · rename_i first token rest found
    obtain ⟨firstKept, after⟩ := readFirst.of_eq_ok found
    split
    · have readLast := headerExpression_yields anchored (· == .kwStep) "end index"
        (allKept_cons.mp after).2
      split
      · exact readLast.of_eq_error ‹_›
      · rename_i last after found
        obtain ⟨lastKept, after⟩ := readLast.of_eq_ok found
        have readStep := stepPart_yields anchored after
        split
        · exact readStep.of_eq_error ‹_›
        · rename_i step after found
          obtain ⟨stepKept, after⟩ := readStep.of_eq_ok found
          exact .ok ⟨blocksKept_cons.mpr ⟨firstKept, blocksKept_cons.mpr ⟨lastKept, stepKept⟩⟩, after⟩
    · exact .error anchored

/-- An iterating header is kept, and so is what follows it. -/
theorem eachHead_yields (all : AllKept kept tokens) : Yields kept (eachHead line tokens)
    fun result => PartKept kept result.1.blocks result.2 := by
  have read := headerExpression_yields anchored (fun _ => false) "collection" all
  unfold eachHead
  split
  · exact read.of_eq_error ‹_›
  · rename_i found
    obtain ⟨collection, after⟩ := read.of_eq_ok found
    exact .ok ⟨blocksKept_cons.mpr ⟨collection, List.forall_mem_nil _⟩, after⟩

/-- A header is made of the tokens behind the opening word. -/
theorem header_yields (all : AllKept kept tokens) : Yields kept (header line tokens)
    fun result => PartKept kept result.2.1.blocks result.2.2 := by
  unfold header
  split
  · rename_i index rest
    have afterIndex := (allKept_cons.mp all).2
    split
    · split
      · rename_i mark tail
        have afterMark := (allKept_cons.mp afterIndex).2
        split
        · have read := rangeHead_yields anchored afterMark
          split
          · exact .ok (read.of_eq_ok ‹_›)
          · exact read.of_eq_error ‹_›
        · split
          · have read := eachHead_yields anchored afterMark
            split
            · exact .ok (read.of_eq_ok ‹_›)
            · exact read.of_eq_error ‹_›
          · exact .error anchored
      · exact .error anchored
    · exact .error anchored
  · exact .error anchored

end

/-- What has been read of an open loop is kept. -/
structure OpenLoop.Kept (kept : Token → Prop) (loop : OpenLoop) : Prop where
  /-- The opening word. -/
  opener : kept loop.opener
  /-- It opens a loop. -/
  isFor : loop.opener.kind = .kwFor
  /-- The header. -/
  head : BlocksKept kept loop.head.blocks
  /-- The body. -/
  body : AllKept kept loop.body

/-- The tokens of a loop are kept, and it begins where a token stands. -/
structure LoopKept (kept : Token → Prop) (loop : ForLoop) : Prop where
  /-- The header and the body. -/
  blocks : BlocksKept kept loop.blocks
  /-- The line. -/
  line : Anchored kept loop.line

/-- Everything that has been read is kept. -/
structure State.Kept (kept : Token → Prop) (state : State) : Prop where
  /-- Open loops. -/
  opened : ∀ loop ∈ state.opened, loop.Kept kept
  /-- Tokens outside loops. -/
  out : AllKept kept state.out
  /-- Finished loops. -/
  loops : ∀ loop ∈ state.loops, LoopKept kept loop

variable {state : State} {token : Token}

/-- An open loop of kept tokens anchors the line of its opener. -/
theorem OpenLoop.Kept.anchored {loop : OpenLoop} (holds : loop.Kept kept) :
    Anchored kept loop.opener.line := anchored_of_kind holds.opener (by simp [holds.isFor])

/-- Emitting a kept token keeps the state kept. -/
theorem State.Kept.emit (holds : state.Kept kept) (here : kept token) :
    (state.emit token).Kept kept := by
  unfold State.emit
  split
  · rename_i loop outer open'
    have opened := holds.opened
    rw [open'] at opened
    obtain ⟨first, rest⟩ := List.forall_mem_cons.mp opened
    have more : OpenLoop.Kept kept { loop with body := token :: loop.body } :=
      ⟨first.opener, first.isFor, first.head, allKept_cons.mpr ⟨here, first.body⟩⟩
    exact ⟨List.forall_mem_cons.mpr ⟨more, rest⟩, holds.out, holds.loops⟩
  · exact ⟨holds.opened, allKept_cons.mpr ⟨here, holds.out⟩, holds.loops⟩

section

variable (inherited : Inherited kept)
include inherited

/-- Closing a loop of kept tokens keeps the state kept, and a fault there is anchored. -/
theorem State.Kept.close {rest : List Token} (holds : state.Kept kept) (here : kept token)
    (isNext : token.kind = .kwNext) (all : AllKept kept rest) :
    Yields kept (state.close token rest) (State.Kept kept) := by
  unfold State.close
  split
  · exact .error (anchored_of_kind here (by simp [isNext]))
  · rename_i loop outer open'
    have opened := holds.opened
    rw [open'] at opened
    obtain ⟨first, others⟩ := List.forall_mem_cons.mp opened
    let finished : ForLoop :=
      { index := loop.index, head := loop.head, body := loop.body.reverse.toArray,
        line := loop.opener.line }
    have finishedKept : LoopKept kept finished :=
      ⟨blocksKept_cons.mpr ⟨allKept_reverse.mpr first.body, first.head⟩, first.anchored⟩
    have loops : ∀ loop ∈ state.loops.push finished, LoopKept kept loop :=
      fun other member => (Array.mem_push.mp member).elim (holds.loops other)
        fun same => same ▸ finishedKept
    have entry : kept { loop.opener with kind := .loop state.loops.size, lexeme := "For" } :=
      inherited loop.opener _ _ first.opener (by simp [first.isFor]) rfl
    have outside : State.Kept kept
        { state with opened := outer, loops := state.loops.push finished } :=
      ⟨others, holds.out, loops⟩
    have closed := outside.emit entry
    dsimp only
    split
    · rename_i next _
      split
      · exact .ok closed
      · rename_i goesOn
        exact .error (anchored_of_kind (allKept_cons.mp all).1 (ne_eol_of_endsLine goesOn))
    · exact .ok closed

/-- Scanning kept tokens keeps the state kept, and a fault there is anchored. -/
theorem scan_yields {lineStart : Bool} (holds : state.Kept kept) (all : AllKept kept tokens) :
    Yields kept (scan state lineStart tokens) (State.Kept kept) := by
  fun_induction scan state lineStart tokens with
  | case1 state lineStart loop outer open' =>
    have opened := holds.opened
    rw [open'] at opened
    exact .error (List.forall_mem_cons.mp opened).1.anchored
  | case2 => exact .ok holds
  | case3 state lineStart token rest isFor fault read =>
    have here := allKept_cons.mp all
    have anchored := anchored_of_kind here.1 (by simp [isFor.1])
    exact (header_yields anchored here.2).of_eq_error read
  | case4 state lineStart token rest isFor index head after read ih =>
    have here := allKept_cons.mp all
    have anchored := anchored_of_kind here.1 (by simp [isFor.1])
    obtain ⟨headKept, afterKept⟩ := (header_yields anchored here.2).of_eq_ok read
    exact ih ⟨List.forall_mem_cons.mpr ⟨⟨here.1, isFor.1, headKept, nofun⟩, holds.opened⟩,
      holds.out, holds.loops⟩ afterKept
  | case5 state lineStart token rest _ outside =>
    exact .error (anchored_of_kind (allKept_cons.mp all).1 (by simp [outside.1]))
  | case6 state lineStart token rest _ _ isNext fault closed =>
    have here := allKept_cons.mp all
    exact (holds.close inherited here.1 isNext here.2).of_eq_error closed
  | case7 state lineStart token rest _ _ isNext later closed ih =>
    have here := allKept_cons.mp all
    exact ih ((holds.close inherited here.1 isNext here.2).of_eq_ok closed) here.2
  | case8 state lineStart token rest _ _ _ ih =>
    have here := allKept_cons.mp all
    exact ih (holds.emit here.1) here.2

/-- Taking loops out moves tokens and puts in those that stand for the loops. -/
theorem extract_yields (all : AllKept kept tokens) : Yields kept (extract tokens) fun result =>
    AllKept kept result.1 ∧ ∀ loop ∈ result.2, LoopKept kept loop := by
  have start : State.Kept kept {} := ⟨List.forall_mem_nil _, allKept_nil, by simp⟩
  exact (scan_yields inherited start all).bind fun _ held =>
    .ok ⟨allKept_reverse.mpr held.out, held.loops⟩

end

end Loops

namespace Functions

variable {name function : String} {earlier : List Param} {defined : Defined}

/-- The defaults of parameters are kept. -/
abbrev ParamsKept (kept : Token → Prop) (params : List Param) : Prop :=
  BlocksKept kept (params.filterMap Param.fallback)

/-- A default value of kept tokens is kept, and so is what follows it. -/
theorem fallbackTokens_kept (depth : Nat) (all : AllKept kept tokens) :
    AllKept kept (fallbackTokens depth tokens).1 ∧ AllKept kept (fallbackTokens depth tokens).2 := by
  rw [fallbackTokens_append depth tokens] at all
  exact allKept_append.mp all

section

variable (anchored : Anchored kept line)
include anchored

/-- An optional default is kept, and so is what follows it. -/
theorem fallback?_yields (all : AllKept kept tokens) :
    Yields kept (fallback? name function line earlier tokens) fun result =>
      BlocksKept kept result.1.toList ∧ AllKept kept result.2 := by
  have required : Yields kept (if earlier.any (·.fallback.isSome) then
      (.error (.preparing (.parameterOrder name function) line) :
        Except Fault (Option TokenBlock × List Token))
    else .ok (none, tokens)) fun result =>
      BlocksKept kept result.1.toList ∧ AllKept kept result.2 := by
    split
    · exact .error anchored
    · exact .ok ⟨List.forall_mem_nil _, all⟩
  unfold fallback?
  dsimp only
  split
  · rename_i token rest
    split
    · have both := fallbackTokens_kept 0 (allKept_cons.mp all).2
      split
      · exact .error anchored
      · exact .ok ⟨blocksKept_cons.mpr ⟨both.1, List.forall_mem_nil _⟩, both.2⟩
    · exact required
  · exact required

/-- Parameters of kept tokens are kept, and so is what follows them. -/
theorem parameters_yields (before : ParamsKept kept earlier) (all : AllKept kept tokens) :
    Yields kept (parameters function line earlier tokens) fun result =>
      ParamsKept kept result.1 ∧ AllKept kept result.2 := by
  have more : ∀ {earlier : List Param} {found : Option TokenBlock} (name : String),
      ParamsKept kept earlier → BlocksKept kept found.toList →
      ParamsKept kept (earlier ++ [⟨name, found⟩]) := by
    intro earlier found name before foundKept
    rw [ParamsKept, List.filterMap_append]
    refine List.forall_mem_append.mpr ⟨before, ?_⟩
    cases found <;> exact foundKept
  fun_induction parameters function line earlier tokens with
  | case1 => exact .error anchored
  | case2 earlier token rest => exact ⟨_, token, (allKept_cons.mp all).1, rfl, fun _ => rfl⟩
  | case3 => exact .error anchored
  | case4 earlier token rest _ name _ fault read =>
    exact (fallback?_yields anchored (allKept_cons.mp all).2).of_eq_error read
  | case5 => exact .error anchored
  | case6 earlier token rest _ name _ found params next tail read _ _ ih =>
    obtain ⟨foundKept, afterKept⟩ :=
      (fallback?_yields anchored (allKept_cons.mp all).2).of_eq_ok read
    exact ih (more name before foundKept) (allKept_cons.mp afterKept).2
  | case7 earlier token rest _ name _ found params next tail read =>
    obtain ⟨foundKept, afterKept⟩ :=
      (fallback?_yields anchored (allKept_cons.mp all).2).of_eq_ok read
    exact .ok ⟨more name before foundKept, (allKept_cons.mp afterKept).2⟩
  | case8 => exact .error anchored

/-- A parameter list of kept tokens is kept, and so is what follows it. -/
theorem parameterList_yields (all : AllKept kept tokens) :
    Yields kept (parameterList function line tokens) fun result =>
      ParamsKept kept result.1 ∧ AllKept kept result.2 := by
  unfold parameterList
  split
  · split
    · exact .ok ⟨List.forall_mem_nil _, (allKept_cons.mp all).2⟩
    · exact parameters_yields anchored (List.forall_mem_nil _) all
  · exact parameters_yields anchored (List.forall_mem_nil _) all

/-- A body of kept tokens is kept, and so is what follows it. -/
theorem bodyTokens_yields (all : AllKept kept tokens) :
    Yields kept (bodyTokens function line tokens) fun result =>
      AllKept kept result.1 ∧ AllKept kept result.2 := by
  induction tokens with
  | nil => exact .error anchored
  | cons token rest ih =>
    have here := allKept_cons.mp all
    unfold bodyTokens
    split
    · exact .ok ⟨allKept_nil, here.2⟩
    · split
      · rename_i isFunc
        exact .error (anchored_of_kind here.1 (by simp [isFunc]))
      · have later := ih here.2
        split
        · rename_i read
          obtain ⟨body, after⟩ := later.of_eq_ok read
          exact .ok ⟨allKept_cons.mpr ⟨here.1, body⟩, after⟩
        · exact later.of_eq_error ‹_›

/-- What follows a function's name is kept. -/
theorem functionName_yields (all : AllKept kept tokens) :
    Yields kept (functionName line tokens) fun result => AllKept kept result.2 := by
  unfold functionName
  split
  · split
    · split
      · split
        · exact .ok (allKept_cons.mp (allKept_cons.mp all).2).2
        · exact .error anchored
      · exact .error anchored
    · exact .error anchored
  · exact .error anchored

omit anchored in
/-- A fault for a line that goes on is anchored. -/
theorem expectLineEnd_yields (cause : String → PrepareCause) (all : AllKept kept tokens) :
    Yields kept (expectLineEnd cause tokens) fun _ => True := by
  unfold expectLineEnd
  split
  · split
    · exact .ok trivial
    · rename_i goesOn
      exact .error (anchored_of_kind (allKept_cons.mp all).1 (ne_eol_of_endsLine goesOn))
  · exact .ok trivial

/-- A function is made of the tokens behind the opening word. -/
theorem function_yields (all : AllKept kept tokens) :
    Yields kept (Functions.function line tokens) fun result =>
      (BlocksKept kept result.1.blocks ∧ Anchored kept result.1.line) ∧ AllKept kept result.2 := by
  refine (functionName_yields anchored all).bind fun ⟨name, afterName⟩ all => ?_
  refine (parameterList_yields anchored all).bind fun ⟨params, afterParams⟩ ⟨paramsKept, all⟩ => ?_
  refine (expectLineEnd_yields _ all).bind fun _ _ => ?_
  refine (bodyTokens_yields anchored all).bind fun ⟨body, afterBody⟩ ⟨bodyKept, all⟩ => ?_
  refine (expectLineEnd_yields _ all).bind fun _ _ => ?_
  exact .ok ⟨⟨blocksKept_cons.mpr ⟨bodyKept, paramsKept⟩, anchored⟩, all⟩

end

/-- The tokens of the functions found so far are kept. -/
def Defined.Kept (kept : Token → Prop) (defined : Defined) : Prop :=
  ∀ entry ∈ defined.functions, BlocksKept kept entry.2.blocks

/-- Adding a kept function keeps the table kept, and a fault there is anchored. -/
theorem Defined.Kept.add {found : UserFunction} (holds : defined.Kept kept)
    (foundKept : BlocksKept kept found.blocks) (anchored : Anchored kept found.line) :
    Yields kept (defined.add found) (Defined.Kept kept) := by
  unfold Defined.add
  dsimp only
  split
  · exact .error anchored
  · refine .ok fun entry member => ?_
    rcases List.mem_append.mp member with member | member
    · exact holds entry member
    · cases List.mem_singleton.mp member
      exact foundKept

/-- Taking functions out moves tokens. -/
theorem scan_yields (lineStart : Bool) (holds : defined.Kept kept) (all : AllKept kept tokens) :
    match scan lineStart tokens defined with
    | .ok out last => AllKept kept out ∧ last.Kept kept
    | .error fault _ => fault.IsAt kept := by
  fun_induction scan lineStart tokens generalizing defined with
  | case1 => exact ⟨allKept_nil, holds⟩
  | case2 token rest isFunc fault read =>
    have here := allKept_cons.mp all
    exact (function_yields (anchored_of_kind here.1 (by simp [isFunc])) here.2).of_eq_error read
  | case3 token rest isFunc found after read ih =>
    have here := allKept_cons.mp all
    obtain ⟨⟨foundKept, anchored⟩, afterKept⟩ :=
      (function_yields (anchored_of_kind here.1 (by simp [isFunc])) here.2).of_eq_ok read
    have added := holds.add foundKept anchored
    simp only [bind, EStateM.bind, run_get]
    cases more : defined.add found with
    | error fault => exact added.of_eq_error more
    | ok later => exact ih (added.of_eq_ok more) afterKept
  | case4 lineStart token rest isFunc =>
    exact (anchored_of_kind (allKept_cons.mp all).1 (by simp [isFunc])).isAt
  | case5 lineStart token rest _ isEndFunc =>
    exact (anchored_of_kind (allKept_cons.mp all).1 (by simp [isEndFunc])).isAt
  | case6 lineStart token rest _ _ ih =>
    have here := allKept_cons.mp all
    have later := ih holds here.2
    simp only [bind, EStateM.bind]
    cases ran : scan token.endsLine rest defined with
    | ok out last =>
      rw [ran] at later
      exact ⟨allKept_cons.mpr ⟨here.1, later.1⟩, later.2⟩
    | error fault last =>
      rw [ran] at later
      exact later

end Functions

end LineScript
