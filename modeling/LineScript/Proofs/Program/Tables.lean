import LineScript.Proofs.Lists
import LineScript.Proofs.Program.Numbering
import LineScript.Proofs.Run.Script
import LineScript.Proofs.Text.Lower

/-!
# Tables and parameters of prepared programs

The tables of every program that is prepared from a source are in order, whatever files it
includes. So no run of it misses the entry of a call or a loop.
-/

namespace LineScript

/-- The cause is the missing entry of a call or a loop. -/
def RunCause.isUnknown : RunCause → Bool
  | loopUnknown _ | callUnknown _ => true
  | _ => false

/-- The reason to stop is the missing entry of a call or a loop. -/
def Stop.isUnknown : Stop → Bool
  | fault (.running cause _ _) => cause.isUnknown
  | _ => false

namespace Program

variable {program : Program}

/-- Every number that a token of the run carries is that of an entry. -/
def Knows (program : Program) (tokens : TokenBlock) : Prop :=
  ∀ token ∈ tokens.toList, (∀ id, token.isCall id → id < program.calls.size) ∧
    ∀ id, token.kind = .loop id → id < program.loops.size

/-- A program whose tables are in order knows all its runs of tokens. -/
theorem Ordered.knows (ordered : program.Ordered) {tokens : TokenBlock}
    (member : tokens ∈ program.blocks) : program.Knows tokens := by
  intro token inside
  have among : token ∈ program.everyToken := List.mem_flatMap.mpr ⟨tokens, member, inside⟩
  constructor
  · intro id is
    have counted : 0 < (Census.calls id).of program.everyToken :=
      of_pos among (counts_of_isCall is)
    have once' : (Census.calls id).of program.everyToken = once id program.calls.size :=
      ordered.calls id
    exact lt_of_once_pos (once' ▸ counted)
  · intro id is
    have counted : 0 < (Census.loops id).of program.everyToken :=
      of_pos among (by simp [Census.loops, is])
    have once' : (Census.loops id).of program.everyToken = once id program.loops.size :=
      ordered.loops id
    exact lt_of_once_pos (once' ▸ counted)

/-- An argument of a stored call is a block of the program. -/
theorem mem_blocks_arg {id : Nat} {site : CallSite} (stored : program.calls[id]? = some site)
    {arg : TokenBlock} (member : arg ∈ site.args) : arg ∈ program.blocks :=
  mem_blocks_of_site (Array.mem_of_getElem? stored) member

/-- A part of a stored loop is a block of the program. -/
theorem mem_blocks_loop {id : Nat} {loop : ForLoop} (stored : program.loops[id]? = some loop)
    {tokens : TokenBlock} (member : tokens ∈ loop.blocks) : tokens ∈ program.blocks :=
  mem_blocks_of_loop (Array.mem_of_getElem? stored) member

/-- A function that is found is in the table. -/
theorem mem_of_function? {name : String} {function : UserFunction}
    (found : program.function? name = some function) :
    ∃ key, (key, function) ∈ program.functions := by
  refine ⟨Text.lower name, ?_⟩
  have : ∀ (functions : List (String × UserFunction)) (key : String),
      functions.lookup key = some function → (key, function) ∈ functions := by
    intro functions key
    induction functions with
    | nil => simp
    | cons entry rest ih =>
      obtain ⟨other, held⟩ := entry
      intro found
      rw [List.lookup_cons] at found
      split at found
      · rename_i same
        cases found
        rw [eq_of_beq same]
        exact List.mem_cons_self
      · exact List.mem_cons_of_mem _ (ih found)
  exact this _ _ found

/-- A block of a found function is a block of the program. -/
theorem mem_blocks_function {name : String} {function : UserFunction}
    (found : program.function? name = some function) {tokens : TokenBlock}
    (member : tokens ∈ function.blocks) : tokens ∈ program.blocks := by
  obtain ⟨key, entry⟩ := mem_of_function? found
  exact mem_blocks_of_entry entry member

/-- The runs of tokens that hold statements. -/
def streams (program : Program) : List TokenBlock :=
  program.tokens :: (program.loops.toList.map ForLoop.body ++
    program.functions.map fun entry => entry.2.body)

/-- The body of a stored loop is a stream of the program. -/
theorem mem_streams_loop {id : Nat} {loop : ForLoop} (stored : program.loops[id]? = some loop) :
    loop.body ∈ program.streams := by
  have entry : loop ∈ program.loops.toList := Array.mem_toList_iff.mpr (Array.mem_of_getElem? stored)
  exact List.mem_cons_of_mem _ (List.mem_append_left _ (List.mem_map_of_mem entry))

/-- The body of a found function is a stream of the program. -/
theorem mem_streams_function {name : String} {function : UserFunction}
    (found : program.function? name = some function) : function.body ∈ program.streams := by
  obtain ⟨key, entry⟩ := mem_of_function? found
  exact List.mem_cons_of_mem _ (List.mem_append_right _ (List.mem_map.mpr ⟨_, entry, rfl⟩))

/-- Every stream is a block. -/
theorem mem_blocks_of_mem_streams {tokens : TokenBlock} (member : tokens ∈ program.streams) :
    tokens ∈ program.blocks := by
  simp only [streams, List.mem_cons, List.mem_append, List.mem_map] at member
  simp only [blocks, List.mem_cons, List.mem_append, List.mem_flatMap]
  rcases member with rfl | ⟨loop, inside, rfl⟩ | ⟨entry, inside, rfl⟩
  · exact .inl rfl
  · exact .inr (.inr (.inl ⟨loop, inside, List.mem_cons_self⟩))
  · exact .inr (.inl ⟨entry, inside, List.mem_cons_self⟩)

/-- The guard of a program that misses no entry: its statements and expressions stand in runs of
tokens that it knows. -/
def knownGuard (program : Program) (known : ∀ tokens ∈ program.blocks, program.Knows tokens) :
    Guard where
  program
  block := program.Knows
  place window _ := program.Knows window.tokens
  allows cause := cause.isUnknown = false
  allows_of_free cause free := by
    cases cause <;> first | rfl | cases free
  call_known := by
    intro tokens pos token id knows stored is missing
    have inside := (knows token (Array.mem_toList_iff.mpr (Array.mem_of_getElem? stored))).1 id is
    simp [inside] at missing
  loop_known := by
    intro tokens pos token id knows stored is missing
    have inside := (knows token (Array.mem_toList_iff.mpr (Array.mem_of_getElem? stored))).2 id is
    simp [inside] at missing
  block_arg stored arg member := known arg (mem_blocks_arg stored member)
  block_head stored tokens member :=
    known tokens (mem_blocks_loop stored (List.mem_cons_of_mem _ member))
  place_loop stored := known _ (mem_blocks_loop stored List.mem_cons_self)
  block_default found param member tokens isDefault := known tokens
    (mem_blocks_function found
      (List.mem_cons_of_mem _ (List.mem_filterMap.mpr ⟨param, member, isDefault⟩)))
  place_function found := known _ (mem_blocks_function found List.mem_cons_self)
  block_of_place knows := knows
  place_pass knows _ := knows
  place_line knows _ _ := knows
  place_skip knows _ _ := knows
  choice := by
    intro window pos opener knows _ _
    split
    · exact fun _ => rfl
    · dsimp only
      split
      · exact ⟨knows, knows⟩
      · split
        · rename_i failed
          rcases choiceBranches_fault failed with ⟨_, rfl⟩ | ⟨_, _, _, _, _, _, rfl⟩ <;> rfl
        · rename_i made
          refine ⟨fun branch member => ?_, knows⟩
          rw [(choiceBranches_isOf made branch member).1]
          exact knows
  selection := by
    intro window pos opener start closer name knows _ _ _
    split
    · rename_i failed
      rcases clauses_fault failed with ⟨_, rfl⟩ | ⟨_, _, rfl⟩ <;> rfl
    · rename_i made
      refine ⟨fun clause member => ?_, knows⟩
      rw [(clauses_isOf made clause member).1]
      exact knows
  whileLoop := by
    intro window pos opener knows _ _
    dsimp only
    split
    · exact fun _ => rfl
    · exact ⟨knows, knows⟩
  doLoop := by
    intro window pos opener knows _ _
    split
    · exact fun _ => rfl
    · exact ⟨knows, knows⟩

/-- The tables of a program that was prepared from a source are in order, and no run of it, and no
call of one of its functions, stops for want of an entry. -/
theorem tables_ordered {source : String} {tokens : List Token} {host : Host} {script : String}
    {program : Program} (read : tokenize source = .ok tokens)
    (prepared : (prepare host script tokens).result = .ok program) :
    program.Ordered ∧
      (∀ (machine after : Machine) (fuel : Nat) (stop : Stop), machine.Poised program →
        Machine.run fuel machine = .error stop after → stop.isUnknown = false) ∧
      (∀ (machine after : Machine) (fuel : Nat) (stop : Stop) (name : String)
        (args : List Value) (line : Nat), machine.program = program →
        Machine.call fuel name args line machine = .error stop after →
        stop.isUnknown = false) := by
  obtain ⟨joined, defined, source, assembled⟩ := prepare_eq_ok (tokenize_areSource read) prepared
  have ordered := ordered_of_assemble source assembled
  have known : ∀ tokens ∈ program.blocks, program.Knows tokens :=
    fun tokens member => ordered.knows member
  have permitted : ∀ stop, (program.knownGuard known).permits stop → stop.isUnknown = false := by
    rintro (⟨_ | _ | _⟩ | _) permits <;> first | rfl | exact permits
  refine ⟨ordered, fun machine after fuel stop poised stopped => ?_,
    fun machine after fuel stop name args line same stopped => ?_⟩
  · exact permitted stop (Guard.permits_run (known _ List.mem_cons_self) poised stopped)
  · exact permitted stop (Guard.permits_call same stopped)

/-- A loop over what a call gives has its tables in order. -/
theorem tables_ordered_loop : ∃ tokens program,
    tokenize "For $i In f(g(1))\nNext\n" = .ok tokens ∧
      (Machine.ofTokens {} "main" tokens).Poised program ∧ program.calls.size = 2 ∧
      program.loops.size = 1 ∧ program.Ordered := by
  have sizes : (tokenize "For $i In f(g(1))\nNext\n").toOption.bind (fun tokens =>
      (prepare {} (Host.absolutePath {} "main") tokens).result.toOption.map fun program =>
        (program.calls.size, program.loops.size)) = some (2, 1) := by decide +kernel
  cases read : tokenize "For $i In f(g(1))\nNext\n" with
  | error => simp [read, Except.toOption] at sizes
  | ok tokens =>
    cases prepared : (prepare {} (Host.absolutePath {} "main") tokens).result with
    | error => simp [read, prepared, Except.toOption] at sizes
    | ok program =>
      simp only [read, prepared, Except.toOption, Option.bind_some, Option.map_some,
        Option.some.injEq, Prod.mk.injEq] at sizes
      exact ⟨tokens, program, rfl, .inl ⟨rfl, tokens, rfl, prepared⟩, sizes.1, sizes.2,
        (tables_ordered read prepared).1⟩

end Program

/-!
## The parameters of prepared functions

The parameters of a function that was read from a script have different names in small letters, and
those that must be given stand first (`Program.function_wellFormed`).
-/

/-- The parameters of a function as a parameter list that is accepted gives them. -/
structure UserFunction.WellFormed (function : UserFunction) : Prop where
  /-- Names are in small letters. -/
  small : ∀ param ∈ function.params, Text.lower param.name = param.name
  /-- No name occurs twice. -/
  distinct : (function.params.map Param.name).Nodup
  /-- Those without a default are the first ones. -/
  required : ∀ (position : Nat) (param : Param), function.params[position]? = some param →
    (param.fallback = none ↔ position < function.required)

namespace Functions

/-- The parameters read so far: names in small letters, each once, and none without a default behind
one that has it. -/
structure InOrder (params : List Param) : Prop where
  /-- Names are in small letters. -/
  small : ∀ param ∈ params, Text.lower param.name = param.name
  /-- No name occurs twice. -/
  distinct : (params.map Param.name).Nodup
  /-- Behind a parameter with a default all have one. -/
  defaults : params.Pairwise fun earlier later => later.fallback = none → earlier.fallback = none

/-- No parameters are in order. -/
theorem InOrder.nil : InOrder [] := ⟨nofun, List.nodup_nil, .nil⟩

/-- One more parameter, under a new name, with a default unless no other has one. -/
theorem InOrder.append {earlier : List Param} (holds : InOrder earlier) {name : String}
    {found : Option TokenBlock} (small : Text.lower name = name)
    (fresh : ∀ param ∈ earlier, param.name ≠ name)
    (defaults : found = none → ∀ param ∈ earlier, param.fallback = none) :
    InOrder (earlier ++ [⟨name, found⟩]) where
  small := List.forall_mem_append.mpr ⟨holds.small, by simpa using small⟩
  distinct := by
    rw [List.map_append, List.map_singleton, List.nodup_append]
    refine ⟨holds.distinct, by simp, fun other member last among => ?_⟩
    obtain ⟨param, inside, rfl⟩ := List.mem_map.mp member
    rw [List.mem_singleton.mp among]
    exact fresh param inside
  defaults := by
    refine List.pairwise_append.mpr ⟨holds.defaults, List.pairwise_singleton _ _, ?_⟩
    intro param member last among none'
    rw [List.mem_singleton.mp among] at none'
    exact defaults none' param member

/-- Where no default was read, no earlier parameter has one. -/
theorem fallback?_none {name function : String} {line : Nat} {earlier : List Param}
    {tokens after : List Token} (read : fallback? name function line earlier tokens = .ok (none, after)) :
    ∀ param ∈ earlier, param.fallback = none := by
  have refused : ∀ (fault : Fault) (rest : List Token),
      (if earlier.any (·.fallback.isSome) then (.error fault) else .ok (none, rest) :
        Except Fault (Option TokenBlock × List Token)) = .ok (none, after) →
      ∀ param ∈ earlier, param.fallback = none := by
    intro fault rest read
    split at read
    · cases read
    · rename_i noDefault
      intro param member
      cases given : param.fallback with
      | none => rfl
      | some tokens =>
        exact absurd (List.any_eq_true.mpr ⟨param, member, by simp [given]⟩) noDefault
  unfold fallback? at read
  dsimp only at read
  split at read
  · split at read
    · split at read <;> cases read
    · exact refused _ _ read
  · exact refused _ _ read

/-- Parameters read after ones in order are in order. -/
theorem parameters_inOrder {function : String} {line : Nat} {earlier params : List Param}
    {tokens after : List Token} (holds : InOrder earlier)
    (read : parameters function line earlier tokens = .ok (params, after)) : InOrder params := by
  have more : ∀ {earlier : List Param} {token : Token} {found : Option TokenBlock}
      {rest after : List Token}, InOrder earlier →
      ¬earlier.any (·.name == Text.lower token.lexeme) →
      fallback? (Text.lower token.lexeme) function line earlier rest = .ok (found, after) →
      InOrder (earlier ++ [⟨Text.lower token.lexeme, found⟩]) := by
    intro earlier token found rest after holds fresh read
    refine holds.append (Text.lower_lower _) (by simpa using fresh) ?_
    rintro rfl
    exact fallback?_none read
  fun_induction parameters function line earlier tokens generalizing params after with
  | case6 earlier token rest _ name fresh found _ next tail inner =>
    rename_i ih
    exact ih (more holds fresh inner) read
  | case7 earlier token rest _ name fresh found _ next tail inner =>
    cases read
    exact more holds fresh inner
  | _ => cases read

/-- A parameter list that is read is in order. -/
theorem parameterList_inOrder {function : String} {line : Nat} {params : List Param}
    {tokens after : List Token} (read : parameterList function line tokens = .ok (params, after)) :
    InOrder params := by
  unfold parameterList at read
  repeat' split at read
  · cases read
    exact .nil
  · exact parameters_inOrder .nil read
  · exact parameters_inOrder .nil read

/-- In ordered parameters the required ones are those in front. -/
theorem InOrder.required {params : List Param} (holds : InOrder params) {position : Nat}
    {param : Param} (at' : params[position]? = some param) :
    param.fallback = none ↔ position < (params.filter (·.fallback.isNone)).length := by
  have first : params.Pairwise fun earlier later => later.fallback.isNone → earlier.fallback.isNone :=
    holds.defaults.imp fun one => by simpa using one
  rw [← Option.isNone_iff_eq_none, first_of_pairwise first at']

/-- A function that is read is well formed. -/
theorem function_wellFormed {line : Nat} {tokens after : List Token} {found : UserFunction}
    (read : function line tokens = .ok (found, after)) : found.WellFormed := by
  unfold function at read
  obtain ⟨⟨name, rest⟩, _, read⟩ := bind_eq_ok.mp read
  obtain ⟨⟨params, rest⟩, listed, read⟩ := bind_eq_ok.mp read
  obtain ⟨_, _, read⟩ := bind_eq_ok.mp read
  obtain ⟨⟨body, rest⟩, _, read⟩ := bind_eq_ok.mp read
  obtain ⟨_, _, read⟩ := bind_eq_ok.mp read
  cases read
  have inOrder := parameterList_inOrder listed
  exact ⟨inOrder.small, inOrder.distinct, fun _ _ => inOrder.required⟩

/-- All functions found so far have their parameters in order. -/
def Defined.WellFormed (defined : Defined) : Prop :=
  ∀ entry ∈ defined.functions, entry.2.WellFormed

/-- An empty table of functions is well formed. -/
theorem Defined.wellFormed_empty : Defined.WellFormed {} := List.forall_mem_nil _

/-- Adding a well-formed function keeps the table well formed. -/
theorem Defined.WellFormed.add {defined later : Defined} {found : UserFunction}
    (holds : defined.WellFormed) (wellFormed : found.WellFormed)
    (added : defined.add found = .ok later) : later.WellFormed := by
  unfold Defined.add at added
  dsimp only at added
  split at added <;> cases added
  exact List.forall_mem_append.mpr ⟨holds, by simpa using wellFormed⟩

/-- Scanning for functions keeps the table well formed. -/
theorem scan_wellFormed {lineStart : Bool} {tokens out : List Token} {defined last : Defined}
    (holds : defined.WellFormed) (read : scan lineStart tokens defined = .ok out last) :
    last.WellFormed := by
  have scans := scans_of_scan read
  clear read
  induction scans with
  | done => exact holds
  | define _ read added _ later => exact later (holds.add (function_wellFormed read) added)
  | keep _ _ later => exact later holds

end Functions

/-- Every function of a prepared program has its parameters in order. -/
theorem Program.function_wellFormed {host : Host} {script : String} {tokens : List Token}
    {program : Program} (prepared : (prepare host script tokens).result = .ok program)
    {name : String} {function : UserFunction} (found : program.function? name = some function) :
    function.WellFormed := by
  obtain ⟨_, _, _, _, _, _, assembled⟩ := passes_of_prepare prepared
  obtain ⟨_, _, _, _, _, extracted, _, functions, _⟩ := assemble_eq_ok assembled
  obtain ⟨key, member⟩ := mem_of_function? found
  rw [functions] at member
  exact Functions.scan_wellFormed Functions.Defined.wellFormed_empty extracted _ member

end LineScript
