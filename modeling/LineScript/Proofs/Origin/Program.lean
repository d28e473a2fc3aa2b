import LineScript.Proofs.Blocks.Accepted
import LineScript.Proofs.Origin.Include
import LineScript.Proofs.Origin.Tables
import LineScript.Proofs.Program.Numbering

/-!
# Where the tokens and faults of a program come from

Each token of a prepared program stands on a line of a source that was read for it, or is a line
end that was put behind an included file. The fault of a preparation that fails points at such a
line, except that a call or a list of parameters may run into a line end that stands on none
(`Program.prepare_yields`).
-/

namespace LineScript

variable {kept : Token → Prop}

namespace Structure

variable {tokens : TokenBlock} {pos : Nat} {token : Token} {blocks : List OpenBlock}
  {skip : Option Nat}

/-- Every open block begins where a token stands. -/
abbrev BlocksAnchored (kept : Token → Prop) (blocks : List OpenBlock) : Prop :=
  ∀ block ∈ blocks, Anchored kept block.line

/-- Closing a block keeps the opened blocks anchored, and a fault there is anchored. -/
theorem closeBlock_yields (anchored : Anchored kept token.line)
    (opened : BlocksAnchored kept blocks) :
    Yields kept (closeBlock blocks token) (BlocksAnchored kept) := by
  unfold closeBlock
  split
  · exact .error anchored
  · split
    · exact .ok (List.forall_mem_cons.mp opened).2
    · exact .error anchored

/-- A step of the checker keeps the opened blocks anchored, and a fault there is anchored. -/
theorem step_yields (here : kept token) (opened : BlocksAnchored kept blocks) :
    Yields kept (step tokens pos token blocks skip) fun effect =>
      BlocksAnchored kept effect.blocks := by
  by_cases isEol : token.kind = .eol
  · rw [step_passed (by rw [isEol]; rfl)]
    exact .ok opened
  have anchored := anchored_of_kind here isEol
  have closes : Yields kept (do return { blocks := ← closeBlock blocks token, skip })
      fun effect : Effect => BlocksAnchored kept effect.blocks :=
    (closeBlock_yields anchored opened).bind fun _ left => .ok left
  have opens : ∀ kind, BlocksAnchored kept (⟨kind, token.line⟩ :: blocks) :=
    fun kind => List.forall_mem_cons.mpr ⟨anchored, opened⟩
  unfold step
  dsimp only
  split
  · split
    · exact .error anchored
    · split
      · exact .ok opened
      · exact .ok (opens _)
  · repeat' split
    · exact .error anchored
    · exact .error anchored
    · exact .ok opened
  · split
    · exact .error anchored
    · exact .ok opened
  · split
    · exact .error anchored
    · exact .ok opened
  all_goals first | exact .ok (opens _) | exact closes | exact .error anchored | exact .ok opened

/-- A fault of the checker from any position is anchored. -/
theorem checkFrom_yields {pos : Nat} {blocks : List OpenBlock} {skip : Option Nat}
    (all : AllKept kept tokens.toList) (opened : BlocksAnchored kept blocks) :
    Yields kept (checkFrom tokens pos blocks skip) fun _ => True := by
  fun_induction checkFrom tokens pos blocks skip with
  | case1 pos blocks inside ih => exact ih opened
  | case2 pos blocks skip inside left fault stepped =>
    have here : kept tokens[pos] := all _ (Array.getElem_mem_toList inside)
    exact (step_yields here opened).of_eq_error stepped
  | case3 pos blocks skip inside left effect stepped ih =>
    have here : kept tokens[pos] := all _ (Array.getElem_mem_toList inside)
    exact ih ((step_yields here opened).of_eq_ok stepped)
  | case4 => exact .ok trivial
  | case5 pos skip beyond block outer => exact .error (List.forall_mem_cons.mp opened).1

/-- A fault of the check of blocks points at a token. -/
theorem check_yields (all : AllKept kept tokens.toList) :
    Yields kept (check tokens) fun _ => True := checkFrom_yields all (List.forall_mem_nil _)

end Structure

namespace Program

/-- All tokens of a program are kept, and its calls and loops begin where tokens stand. -/
structure Kept (kept : Token → Prop) (program : Program) : Prop where
  /-- The tokens. -/
  blocks : BlocksKept kept program.blocks
  /-- The lines of calls. -/
  calls : ∀ site ∈ program.calls, Anchored kept site.line
  /-- The lines of loops. -/
  loops : ∀ loop ∈ program.loops, Anchored kept loop.line

variable {program : Program}

/-- Checking entries one after another yields when each check does. -/
theorem forM_yields {entries : List α} {check : α → Except Fault Unit}
    (each : ∀ entry ∈ entries, Yields kept (check entry) fun _ => True) :
    Yields kept (entries.forM check) fun _ => True := by
  induction entries with
  | nil => exact .ok trivial
  | cons entry rest ih =>
    have here := List.forall_mem_cons.mp each
    exact here.1.bind fun _ _ => ih here.2

/-- A fault of the check of a program of kept blocks is anchored. -/
theorem check_yields (all : BlocksKept kept program.blocks) :
    Yields kept program.check fun _ => True := by
  refine (Structure.check_yields (all _ tokens_mem_blocks)).bind fun _ _ => ?_
  refine (forM_yields fun loop member => Structure.check_yields (all _ ?_)).bind fun _ _ => ?_
  · exact mem_blocks_of_loop (Array.mem_toList_iff.mp member) List.mem_cons_self
  · exact forM_yields fun entry member =>
      Structure.check_yields (all _ (mem_blocks_of_entry member List.mem_cons_self))

/-- The parts of a program are kept if its tables and the tokens that are left are. -/
theorem kept_of_tables {out : List Token} {calls : Array CallSite} {loops : Array ForLoop}
    {defined : Functions.Defined} (outKept : AllKept kept out) (definedKept : defined.Kept kept)
    (callsKept : ∀ site ∈ calls, CallSites.SiteKept kept site)
    (loopsKept : ∀ loop ∈ loops, Loops.LoopKept kept loop) :
    Kept kept { tokens := out.toArray, functions := defined.functions, calls, loops } := by
  refine ⟨blocksKept_cons.mpr ⟨outKept, List.forall_mem_append.mpr ⟨fun block member => ?_,
    List.forall_mem_append.mpr ⟨fun block member => ?_, fun block member => ?_⟩⟩⟩,
    fun site member => (callsKept site member).line,
    fun loop member => (loopsKept loop member).line⟩
  · obtain ⟨entry, inside, member⟩ := List.mem_flatMap.mp member
    exact definedKept entry inside block member
  · obtain ⟨loop, inside, member⟩ := List.mem_flatMap.mp member
    exact (loopsKept loop (Array.mem_toList_iff.mp inside)).blocks block member
  · obtain ⟨site, inside, member⟩ := List.mem_flatMap.mp member
    exact (callsKept site (Array.mem_toList_iff.mp inside)).args block member

section

variable {outcome : Except Fault α} {post : α → Prop} {before after : Functions.Defined}

/-- A pass that changes no state returned what it gives. -/
theorem of_liftExcept_ok {value : α} (yields : Yields kept outcome post)
    (ran : assemble.liftExcept outcome before = .ok value after) : post value ∧ after = before := by
  cases outcome <;> cases ran
  exact ⟨yields, rfl⟩

/-- A pass that changes no state stopped at a token. -/
theorem of_liftExcept_error {fault : Fault} (yields : Yields kept outcome post)
    (ran : assemble.liftExcept outcome before = .error fault after) : fault.IsAt kept := by
  cases outcome <;> cases ran
  exact yields

end

variable (inherited : Inherited kept)
include inherited

/-- A program is made of the tokens that it is assembled from, and a fault points at one. -/
theorem assemble_yields {tokens : List Token} (all : AllKept kept tokens) :
    match assemble tokens {} with
    | .ok program _ => program.Kept kept
    | .error fault _ => fault.IsAt kept := by
  have calling := CallSites.extract_yields inherited all
  have start : Functions.Defined.Kept kept {} := nofun
  cases assembled : assemble tokens {} with
  | ok program defined =>
    obtain ⟨called, looped, out, ranCalls, ranLoops, ranFunctions, isOut, isDefined, _⟩ :=
      assemble_eq_ok assembled
    obtain ⟨calledKept, calls⟩ := calling.of_eq_ok ranCalls
    obtain ⟨loopedKept, loops⟩ := (Loops.extract_yields inherited calledKept).of_eq_ok ranLoops
    have scanned := Functions.scan_yields true start loopedKept
    rw [show Functions.scan true looped {} = .ok out defined from ranFunctions] at scanned
    have whole := kept_of_tables scanned.1 scanned.2 calls loops
    rw [← isOut, ← isDefined] at whole
    exact whole
  | error fault defined =>
    unfold assemble at assembled
    rcases run_bind_eq_error.mp assembled with failed | ⟨called, _, ran, assembled⟩
    · exact of_liftExcept_error calling failed
    obtain ⟨⟨calledKept, calls⟩, rfl⟩ := of_liftExcept_ok calling ran
    have looping := Loops.extract_yields inherited calledKept
    rcases run_bind_eq_error.mp assembled with failed | ⟨looped, _, ran, assembled⟩
    · exact of_liftExcept_error looping failed
    obtain ⟨⟨loopedKept, loops⟩, rfl⟩ := of_liftExcept_ok looping ran
    have scanned := Functions.scan_yields true start loopedKept
    rcases run_bind_eq_error.mp assembled with failed | ⟨out, middle, ran, assembled⟩
    · rw [show Functions.scan true looped.1 {} = .error fault defined from failed] at scanned
      exact scanned
    rw [show Functions.scan true looped.1 {} = .ok out middle from ran] at scanned
    have whole := kept_of_tables scanned.1 scanned.2 calls loops
    rcases run_bind_eq_error.mp assembled with failed | ⟨now, _, ⟨⟩, assembled⟩
    · cases failed
    rcases run_bind_eq_error.mp assembled with failed | ⟨_, _, ran, assembled⟩
    · exact of_liftExcept_error (check_yields whole.blocks) failed
    · cases assembled

/-- No mark of a continued line is left in a program. -/
theorem prepareJoined_yields {tokens : List Token} (all : AllKept kept tokens) :
    Yields kept (prepareJoined tokens).result
      (Kept fun token => kept token ∧ token.kind ≠ .extend) := by
  have joined := Continuation.join_yields all
  have inherited' : Inherited fun token => kept token ∧ token.kind ≠ .extend := by
    intro token kind lexeme holds notEol isEntry
    refine ⟨inherited token kind lexeme holds.1 notEol isEntry, ?_⟩
    rintro rfl
    cases isEntry
  unfold prepareJoined
  split
  · exact joined.of_eq_error ‹_›
  · rename_i joinedTokens read
    have assembled := assemble_yields inherited' (joined.of_eq_ok read)
    split
    · rename_i ran
      rw [ran] at assembled
      exact .ok assembled
    · rename_i ran
      rw [ran] at assembled
      exact Fault.IsAt.mono assembled fun _ => And.left

end Program

namespace Include

variable (host : Host) (script : String) (main : Lexed)

/-- A line end was put behind an included file. -/
def Splices : Prop := ∃ resolved progress,
  resolve host script main.tokens {} = .ok resolved progress ∧ Token.insertedEol ∈ resolved

/-- A token of the program: it stands on a line of a source, or it is a line end that was put behind
an included file. -/
def Sited (token : Token) : Prop :=
  IsLine host script main token.line ∨ Splices host script main ∧ token = .insertedEol

end Include

namespace Include

variable {host : Host} {script : String} {main : Lexed} {token : Token}

/-- A token that does not end a line stands on a line of a source. -/
theorem Sited.isLine (sited : Sited host script main token) (notEol : token.kind ≠ .eol) :
    IsLine host script main token.line := by
  rcases sited with isLine | ⟨_, rfl⟩
  · exact isLine
  · exact absurd rfl notEol

/-- Coming from a source file and asking for no include is inherited. -/
theorem inherited_sited : Inherited fun token =>
    Sited host script main token ∧ token.isInclude = false := by
  intro token kind lexeme holds notEol isEntry
  refine ⟨.inl (holds.1.isLine notEol), ?_⟩
  cases kind <;> first | rfl | cases isEntry

end Include

open Include in
/-- The tokens of a program come from the sources that were read for it, and the fault of a
preparation that fails points at a line of one of them, or at a line end behind an included file. -/
theorem Program.prepare_yields (host : Host) (script : String) (main : Lexed) :
    match (prepare host script main.tokens).result with
    | .ok program => program.Kept fun token =>
      (Sited host script main token ∧ token.isInclude = false) ∧ token.kind ≠ .extend
    | .error fault => Blames host script main fault ∨ fault.IsAt (Sited host script main) := by
  have resolved := resolve_ends host script main {}
  unfold prepare
  cases ran : resolve host script main.tokens {} with
  | error fault progress =>
    rw [ran] at resolved
    exact .inl resolved
  | ok tokens progress =>
    rw [ran] at resolved
    have all : AllKept (fun token => Sited host script main token ∧ token.isInclude = false)
        tokens := fun token member => by
      obtain ⟨notInclude, isLine | rfl⟩ := resolved token member
      · exact ⟨.inl isLine, notInclude⟩
      · exact ⟨.inr ⟨⟨tokens, progress, ran, member⟩, rfl⟩, notInclude⟩
    have yields := prepareJoined_yields inherited_sited all
    dsimp only
    cases joined : (prepareJoined tokens).result with
    | ok program => exact yields.of_eq_ok joined
    | error fault => exact .inr ((yields.of_eq_error joined).mono fun _ => And.left)

end LineScript
