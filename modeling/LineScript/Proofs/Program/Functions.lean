import LineScript.Program.Functions
import LineScript.Proofs.Program.Source
import LineScript.Proofs.Run.Guard

/-!
# The tokens of a program and its functions

A program keeps tokens in many places: its statements, the bodies and defaults of its functions,
the heads and bodies of its loops and the arguments of its calls. `Program.everyToken` lists them
all, so that how often a token occurs in a program is how often it occurs in this list.
-/

namespace LineScript

/-- All tokens of some runs. -/
def tokensOf (blocks : List TokenBlock) : List Token := blocks.flatMap Array.toList

/-- The runs of tokens of a function. -/
def UserFunction.blocks (function : UserFunction) : List TokenBlock :=
  function.body :: function.params.filterMap Param.fallback

/-- The runs of tokens of a loop. -/
def ForLoop.blocks (loop : ForLoop) : List TokenBlock := loop.body :: loop.head.blocks

namespace Program

/-- All runs of tokens of a program. -/
def blocks (program : Program) : List TokenBlock :=
  program.tokens :: (program.functions.flatMap (·.2.blocks) ++
    (program.loops.toList.flatMap ForLoop.blocks ++ program.calls.toList.flatMap CallSite.args))

variable {program : Program} {block : TokenBlock}

/-- The tokens of a program are one of its blocks. -/
theorem tokens_mem_blocks : program.tokens ∈ program.blocks := List.mem_cons_self

/-- A block of a function in the table is a block of the program. -/
theorem mem_blocks_of_entry {entry : String × UserFunction} (member : entry ∈ program.functions)
    (inside : block ∈ entry.2.blocks) : block ∈ program.blocks :=
  List.mem_cons_of_mem _ (List.mem_append_left _ (List.mem_flatMap.mpr ⟨entry, member, inside⟩))

/-- A block of a loop in the table is a block of the program. -/
theorem mem_blocks_of_loop {loop : ForLoop} (member : loop ∈ program.loops)
    (inside : block ∈ loop.blocks) : block ∈ program.blocks :=
  List.mem_cons_of_mem _ (List.mem_append_right _ (List.mem_append_left _
    (List.mem_flatMap.mpr ⟨loop, Array.mem_toList_iff.mpr member, inside⟩)))

/-- An argument of a call in the table is a block of the program. -/
theorem mem_blocks_of_site {site : CallSite} (member : site ∈ program.calls)
    (inside : block ∈ site.args) : block ∈ program.blocks :=
  List.mem_cons_of_mem _ (List.mem_append_right _ (List.mem_append_right _
    (List.mem_flatMap.mpr ⟨site, Array.mem_toList_iff.mpr member, inside⟩)))

/-- Every token of a program. -/
def everyToken (program : Program) : List Token := tokensOf program.blocks

end Program

/-- No blocks have no tokens. -/
@[simp] theorem tokensOf_nil : tokensOf [] = [] := rfl

/-- The tokens of blocks are those of the first and then those of the others. -/
@[simp] theorem tokensOf_cons (block : TokenBlock) (blocks : List TokenBlock) :
    tokensOf (block :: blocks) = block.toList ++ tokensOf blocks := rfl

/-- The tokens of two lists of blocks are those of the first and then those of the second. -/
@[simp] theorem tokensOf_append (first rest : List TokenBlock) :
    tokensOf (first ++ rest) = tokensOf first ++ tokensOf rest := List.flatMap_append

/-- A test that only tokens with the number of a table entry pass. -/
structure Census where
  /-- The test. -/
  counts : Token → Bool
  /-- Only table entries pass it. -/
  isEntry : ∀ token, counts token = true → token.kind.isEntry = true

namespace Census

variable (census : Census)

/-- How many tokens pass the test. -/
def of (tokens : List Token) : Nat := tokens.countP census.counts

/-- A census of no tokens counts nothing. -/
@[simp] theorem of_nil : census.of [] = 0 := rfl

/-- A census of two lists counts both. -/
@[simp] theorem of_append (first rest : List Token) :
    census.of (first ++ rest) = census.of first + census.of rest := List.countP_append

/-- A census does not depend on the order. -/
@[simp] theorem of_reverse (tokens : List Token) : census.of tokens.reverse = census.of tokens :=
  List.countP_reverse

/-- A census counts the first token and the others. -/
theorem of_cons (token : Token) (rest : List Token) :
    census.of (token :: rest) = census.of [token] + census.of rest :=
  census.of_append [token] rest

/-- A token without a number does not count. -/
theorem of_free {token : Token} (free : token.kind.isEntry = false) : census.of [token] = 0 := by
  have fails : census.counts token = false := by
    cases counted : census.counts token with
    | false => rfl
    | true => simp [census.isEntry token counted] at free
  simp [of, fails]

/-- A token that is no entry is not counted. -/
theorem of_cons_free {token : Token} {rest : List Token} (free : token.kind.isEntry = false) :
    census.of (token :: rest) = census.of rest := by
  rw [of_cons, census.of_free free, Nat.zero_add]

/-- Calls of a number. -/
def calls (id : Nat) : Census where
  counts token := token.kind == .call id || token.kind == .userCall id
  isEntry token counted := by
    rcases Bool.or_eq_true_iff.mp counted with is | is <;> rw [eq_of_beq is] <;> rfl

/-- Loops of a number. -/
def loops (id : Nat) : Census where
  counts token := token.kind == .loop id
  isEntry token counted := by
    rw [eq_of_beq counted]
    rfl

end Census

/-!
## Taking functions out

Every table entry that the tokens of a script mention is found again, once, among the tokens
outside functions or in the defaults and body of one function.
-/

namespace Functions

variable {name : String} {line : Nat} {tokens after : List Token} (census : Census)

/-- A default value and what follows it are together the tokens read. -/
theorem fallbackTokens_append (depth : Nat) (tokens : List Token) :
    tokens = (fallbackTokens depth tokens).1 ++ (fallbackTokens depth tokens).2 := by
  induction tokens generalizing depth with
  | nil => rfl
  | cons token rest ih =>
    have step (depth : Nat) :
        token :: rest = token :: (fallbackTokens depth rest).1 ++ (fallbackTokens depth rest).2 :=
      congrArg (token :: ·) (ih depth)
    simp only [fallbackTokens]
    repeat' split
    all_goals first | exact step _ | rfl

/-- The entries of a default. -/
def ofFallback (fallback : Option TokenBlock) : Nat := census.of (tokensOf fallback.toList)

/-- Reading an optional default loses no entry. -/
theorem fallback?_census {found : Option TokenBlock} {earlier : List Param} {function : String}
    (read : fallback? name function line earlier tokens = .ok (found, after)) :
    census.of tokens = ofFallback census found + census.of after := by
  unfold fallback? at read
  dsimp only at read
  repeat' split at read
  all_goals try cases read
  · rename_i token rest isEquals _
    have free : token.kind.isEntry = false := by
      have kind : token.kind = .operator := by simp_all [Token.isOperator]
      rw [kind]
      rfl
    have parts := congrArg census.of (fallbackTokens_append 0 rest)
    rw [census.of_append] at parts
    rw [census.of_cons_free free, parts]
    simp [ofFallback]
  · simp [ofFallback]
  · simp [ofFallback]

/-- The entries of the defaults of parameters. -/
def ofParams (params : List Param) : Nat := census.of (tokensOf (params.filterMap Param.fallback))

/-- A parameter behind others adds what its default counts. -/
theorem ofParams_append (earlier : List Param) (found : Option TokenBlock) :
    ofParams census (earlier ++ [⟨name, found⟩]) =
      ofParams census earlier + ofFallback census found := by
  cases found <;> simp [ofParams, ofFallback]

/-- A token of a kind that is no entry is none. -/
theorem isEntry_of_kind {token : Token} {kind : TokenKind} (is : token.kind = kind)
    (free : kind.isEntry = false) : token.kind.isEntry = false := is ▸ free

/-- Reading parameters loses no entry. -/
theorem parameters_census {function : String} {earlier params : List Param}
    (read : parameters function line earlier tokens = .ok (params, after)) :
    census.of tokens + ofParams census earlier = ofParams census params + census.of after := by
  fun_induction parameters function line earlier tokens generalizing params after with
  | case6 =>
    rename_i earlier token rest isVariable name _ found _ next tail inner isComma _ ih
    have first := fallback?_census census inner
    have later := ih read
    rw [ofParams_append] at later
    rw [census.of_cons_free (isEntry_of_kind (Decidable.not_not.mp isVariable) rfl), first,
      census.of_cons_free (isEntry_of_kind isComma rfl)]
    omega
  | case7 =>
    rename_i earlier token rest isVariable name _ found _ next tail inner _ isClosing _
    have first := fallback?_census census inner
    cases read
    rw [ofParams_append, census.of_cons_free (isEntry_of_kind (Decidable.not_not.mp isVariable) rfl),
      first, census.of_cons_free (isEntry_of_kind isClosing rfl)]
    omega
  | _ => cases read

/-- Reading a parameter list loses no entry. -/
theorem parameterList_census {function : String} {params : List Param}
    (read : parameterList function line tokens = .ok (params, after)) :
    census.of tokens = ofParams census params + census.of after := by
  unfold parameterList at read
  repeat' split at read
  · rename_i token rest isClosing
    cases read
    rw [census.of_cons_free (isEntry_of_kind isClosing rfl)]
    simp [ofParams]
  · exact parameters_census census read
  · exact parameters_census census read

/-- Reading a body loses no entry. -/
theorem bodyTokens_census {body : List Token}
    (read : bodyTokens name line tokens = .ok (body, after)) :
    census.of tokens = census.of body + census.of after := by
  induction tokens generalizing body after with
  | nil => simp [bodyTokens] at read
  | cons token rest ih =>
    simp only [bodyTokens] at read
    repeat' split at read
    · rename_i isClosing
      cases read
      rw [census.of_cons_free (isEntry_of_kind isClosing rfl), census.of_nil, Nat.zero_add]
    · cases read
    · rename_i inside _ inner
      cases read
      rw [census.of_cons token rest, census.of_cons token inside, ih inner, Nat.add_assoc]
    · cases read

/-- A function's name is no entry. -/
theorem functionName_census (read : functionName line tokens = .ok (name, after)) :
    census.of tokens = census.of after := by
  unfold functionName at read
  repeat' split at read
  all_goals try cases read
  rename_i isName _ next isOpening
  rw [census.of_cons_free (isEntry_of_kind isName rfl), census.of_cons_free (isEntry_of_kind isOpening rfl)]

/-- The entries of the tokens of a function are those of its defaults and its body. -/
theorem function_census {found : UserFunction} (read : function line tokens = .ok (found, after)) :
    census.of tokens = census.of (tokensOf found.blocks) + census.of after := by
  unfold function at read
  obtain ⟨⟨name, rest⟩, named, read⟩ := bind_eq_ok.mp read
  obtain ⟨⟨params, rest⟩, listed, read⟩ := bind_eq_ok.mp read
  obtain ⟨_, _, read⟩ := bind_eq_ok.mp read
  obtain ⟨⟨body, rest⟩, bodied, read⟩ := bind_eq_ok.mp read
  obtain ⟨_, _, read⟩ := bind_eq_ok.mp read
  cases read
  rw [functionName_census census named, parameterList_census census listed,
    bodyTokens_census census bodied]
  simp only [UserFunction.blocks, tokensOf_cons, census.of_append, ofParams]
  omega

/-- The entries of the functions defined so far. -/
def ofDefined (defined : Defined) : Nat :=
  census.of (tokensOf (defined.functions.flatMap (·.2.blocks)))

/-- An added function adds what its blocks count. -/
theorem add_census {defined later : Defined} {found : UserFunction}
    (added : defined.add found = .ok later) :
    ofDefined census later = ofDefined census defined + census.of (tokensOf found.blocks) := by
  unfold Defined.add at added
  dsimp only at added
  split at added <;> cases added
  simp [ofDefined]

/-- Of some tokens, the functions go into the table and the others are left. -/
inductive Scans : List Token → Defined → List Token → Defined → Prop where
  /-- Nothing is left to read. -/
  | done (defined : Defined) : Scans [] defined [] defined
  /-- A function is taken out. -/
  | define {token : Token} {rest after out : List Token} {found : UserFunction}
    {defined more last : Defined} (isFunc : token.kind = .kwFunc)
    (read : function token.line rest = .ok (found, after)) (added : defined.add found = .ok more)
    (later : Scans after more out last) : Scans (token :: rest) defined out last
  /-- A token outside functions is left. -/
  | keep (token : Token) {rest out : List Token} {defined last : Defined}
    (later : Scans rest defined out last) : Scans (token :: rest) defined (token :: out) last

/-- A scan that succeeds is a run of the scan. -/
theorem scans_of_scan {lineStart : Bool} {defined last : Defined} {out : List Token}
    (read : scan lineStart tokens defined = .ok out last) : Scans tokens defined out last := by
  fun_induction scan lineStart tokens generalizing defined last out with
  | case1 =>
    cases read
    exact .done _
  | case3 token rest isFunc found after inner ih =>
    obtain ⟨now, _, got, read⟩ := run_bind_eq_ok.mp read
    cases got
    cases added : defined.add found with
    | error fault =>
      rw [added] at read
      cases read
    | ok more =>
      simp only [added] at read
      obtain ⟨_, _, ⟨⟩, read⟩ := run_bind_eq_ok.mp read
      exact .define isFunc inner added (ih read)
  | case6 lineStart token rest _ _ ih =>
    obtain ⟨later, _, inner, read⟩ := run_bind_eq_ok.mp read
    cases read
    exact .keep token (ih inner)
  | _ => cases read

/-- The entries of the tokens of a script are those outside functions and those of functions. -/
theorem scan_census {lineStart : Bool} {defined last : Defined} {out : List Token}
    (read : scan lineStart tokens defined = .ok out last) :
    census.of tokens + ofDefined census defined = census.of out + ofDefined census last := by
  have scans := scans_of_scan read
  clear read
  induction scans with
  | done => rfl
  | define isFunc read added _ later =>
    rw [census.of_cons_free (isEntry_of_kind isFunc rfl), function_census census read]
    rw [add_census census added] at later
    omega
  | @keep token rest out _ _ _ later =>
    rw [census.of_cons token rest, census.of_cons token out]
    omega

end Functions

end LineScript
