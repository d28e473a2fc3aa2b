import LineScript.Program.Prepare
import LineScript.Proofs.Outcome

/-!
# The order in which functions are checked

The bodies of functions are checked one after the other, up to the first that is refused, in the
order in which the table of functions is gone through. A program is accepted in every order or in
none, and the program is always the same one. Only the fault can differ: when several bodies are
refused, the one that is gone through first is reported.
-/

namespace LineScript

/-- A way to go through tables of functions that comes to each entry once. -/
structure Walk where
  /-- The entries of a table, first one first. -/
  order : List (String × UserFunction) → List (String × UserFunction)
  /-- Nothing is left out and nothing visited twice. -/
  covers : ∀ entries, (order entries).Perm entries

namespace Walk

/-- From the first function of the source to the last. -/
def forward : Walk := ⟨id, fun _ => .rfl⟩

/-- From the last function of the source to the first. -/
def backward : Walk := ⟨List.reverse, List.reverse_perm⟩

end Walk

section

variable {α : Type} {check : α → Except Fault Unit} {entries others : List α} {fault : Fault}

/-- The fault of the first entry that is refused. -/
def FirstRefusal (check : α → Except Fault Unit) (entries : List α) (fault : Fault) : Prop :=
  ∃ before entry after, entries = before ++ entry :: after ∧
    (∀ earlier ∈ before, check earlier = .ok ()) ∧ check entry = .error fault

/-- A check of all entries stops at the first that is refused. -/
theorem firstRefusal_of_forM (stopped : entries.forM check = .error fault) :
    FirstRefusal check entries fault := by
  induction entries with
  | nil => cases stopped
  | cons entry rest ih =>
    rw [List.forM_eq_forM, List.forM_cons, bind_eq_error] at stopped
    obtain here | ⟨⟨⟩, here, later⟩ := stopped
    · exact ⟨[], entry, rest, rfl, nofun, here⟩
    · obtain ⟨before, refused, after, split, passed, reason⟩ := ih later
      exact ⟨entry :: before, refused, after, by rw [split, List.cons_append],
        List.forall_mem_cons.mpr ⟨here, passed⟩, reason⟩

/-- In every order a check passes, or in every order it stops at the first refusal. -/
theorem forM_perm (check : α → Except Fault Unit) (perm : entries.Perm others) :
    entries.forM check = .ok () ∧ others.forM check = .ok () ∨
      ∃ first second, (entries.forM check = .error first ∧ FirstRefusal check entries first) ∧
        others.forM check = .error second ∧ FirstRefusal check others second := by
  cases passed : entries.forM check with
  | ok =>
    have all := forM_eq_ok.mp passed
    exact .inl ⟨rfl, forM_eq_ok.mpr fun entry member => all entry (perm.mem_iff.mpr member)⟩
  | error first =>
    cases again : others.forM check with
    | ok =>
      have all := forM_eq_ok.mp again
      rw [forM_eq_ok.mpr fun entry member => all entry (perm.mem_iff.mp member)] at passed
      cases passed
    | error second =>
      exact .inr ⟨first, second, ⟨rfl, firstRefusal_of_forM passed⟩, rfl,
        firstRefusal_of_forM again⟩

end

namespace Program

/-- Checks the body of a function. -/
def checkEntry (entry : String × UserFunction) : Except Fault Unit :=
  Structure.check entry.2.body

/-- Checks the statements outside functions, then all loop bodies. -/
def checkOutside (program : Program) : Except Fault Unit := do
  Structure.check program.tokens
  program.loops.toList.forM fun loop => Structure.check loop.body

/-- Checks what is outside functions, then all function bodies as the walk comes to them. -/
def checkIn (walk : Walk) (program : Program) : Except Fault Unit := do
  program.checkOutside
  (walk.order program.functions).forM checkEntry

/-- The program that the passes make, before it is checked; the functions go into the state. -/
def draft (tokens : List Token) : EStateM Fault Functions.Defined Program := do
  let (tokens, calls) ← assemble.liftExcept (CallSites.extract tokens)
  let (tokens, loops) ← assemble.liftExcept (Loops.extract tokens)
  let tokens ← Functions.extract tokens
  return { tokens := tokens.toArray, functions := (← get).functions, calls, loops }

/-- The passes after continued lines are joined, with the functions checked along a walk. -/
def assembleIn (walk : Walk) (tokens : List Token) : EStateM Fault Functions.Defined Program := do
  let program ← draft tokens
  assemble.liftExcept (program.checkIn walk)
  return program

/-- Joins continued lines and runs the passes after that, with the functions checked along a
walk. -/
def prepareJoinedIn (walk : Walk) (tokens : List Token) : Prepared :=
  match Continuation.join tokens with
  | .error fault => ⟨.error fault, #[]⟩
  | .ok joined =>
    match assembleIn walk joined {} with
    | .ok program defined => ⟨.ok program, defined.notes.push program.summary⟩
    | .error fault defined => ⟨.error fault, defined.notes⟩

/-- Prepares the tokens of the script at a path, with the functions checked along a walk. -/
def prepareIn (walk : Walk) (host : Host) (script : String) (tokens : List Token) : Prepared :=
  match Include.resolve host script tokens {} with
  | .error fault progress => ⟨.error fault, progress.notes⟩
  | .ok resolved progress =>
    let later := prepareJoinedIn walk resolved
    ⟨later.result, progress.notes ++ later.notes⟩

/-- The program that all passes make of a script, before it is checked. No walk has a part in
it. -/
def drafted (host : Host) (script : String) (tokens : List Token) : Except Fault Program :=
  match Include.resolve host script tokens {} with
  | .error fault _ => .error fault
  | .ok resolved _ => do
    let joined ← Continuation.join resolved
    match draft joined {} with
    | .ok program _ => .ok program
    | .error fault _ => .error fault

/-- The forward walk is the check itself. -/
theorem checkIn_forward (program : Program) : program.checkIn .forward = program.check := by
  simp only [checkIn, checkOutside, check, bind_assoc]
  rfl

/-- Walking forward is what preparing does. -/
theorem prepareIn_forward : prepareIn .forward = prepare := by
  have passes (tokens : List Token) : assembleIn .forward tokens = assemble tokens := by
    simp only [assembleIn, draft, checkIn_forward, bind_assoc, pure_bind]
    rfl
  funext host script tokens
  simp only [prepareIn, prepareJoinedIn, passes]
  rfl

/-- Preparing is drafting and then checking. -/
theorem prepareIn_result (walk : Walk) (host : Host) (script : String) (tokens : List Token) :
    (prepareIn walk host script tokens).result = do
      let program ← drafted host script tokens
      program.checkIn walk
      return program := by
  simp only [prepareIn, drafted, prepareJoinedIn]
  cases Include.resolve host script tokens {} with
  | error fault progress => rfl
  | ok resolved progress =>
    dsimp only
    cases Continuation.join resolved with
    | error fault => rfl
    | ok joined =>
      simp only [assembleIn, bind, EStateM.bind, Except.bind]
      cases draft joined {} with
      | error fault defined => rfl
      | ok program defined =>
        dsimp only
        cases program.checkIn walk with
        | error fault => rfl
        | ok => rfl

/-- Preparing walks forward. In any two orders it gives the same program or fault, or stops at the first
function whose body is refused in each of them. -/
theorem prepareIn_agrees (one two : Walk) (host : Host) (script : String) (tokens : List Token) :
    prepareIn .forward = prepare ∧
    ((prepareIn one host script tokens).result = (prepareIn two host script tokens).result ∨
      ∃ program first second, drafted host script tokens = .ok program ∧
        (prepareIn one host script tokens).result = .error first ∧
        FirstRefusal checkEntry (one.order program.functions) first ∧
        (prepareIn two host script tokens).result = .error second ∧
        FirstRefusal checkEntry (two.order program.functions) second) := by
  refine ⟨prepareIn_forward, ?_⟩
  rw [prepareIn_result, prepareIn_result]
  cases drafted host script tokens with
  | error fault => exact .inl rfl
  | ok program =>
    simp only [bind, Except.bind, checkIn]
    cases program.checkOutside with
    | error fault => exact .inl rfl
    | ok =>
      have perm := (one.covers program.functions).trans (two.covers program.functions).symm
      obtain ⟨passed, again⟩ | ⟨first, second, ⟨stopped, refused⟩, again, other⟩ :=
        forM_perm checkEntry perm
      · exact .inl (by simp only [passed, again])
      · exact .inr ⟨program, first, second, rfl, by simp only [stopped], refused,
          by simp only [again], other⟩

/-- The fault with which a source without files around it is refused along a walk. -/
def refusal? (walk : Walk) (source : String) : Option Fault :=
  match tokenize source with
  | .error _ => none
  | .ok tokens =>
    match (prepareIn walk {} "/main" tokens).result with
    | .error fault => some fault
    | .ok _ => none

/-- A refusal read from a source is the fault of its preparation under the walk. -/
theorem refusal?_eq_some (walk : Walk) (source : String) {fault : Fault}
    (refused : refusal? walk source = some fault) : ∃ tokens, tokenize source = .ok tokens ∧
      (prepareIn walk {} "/main" tokens).result = .error fault := by
  unfold refusal? at refused
  split at refused
  · cases refused
  · rename_i tokens read
    split at refused <;> cases refused
    rename_i stopped
    exact ⟨tokens, read, stopped⟩

/-- Of two functions with blocks that stay open, the one that the walk comes to first is
reported. -/
theorem prepareIn_reports_first : ∃ tokens,
    tokenize "Func F()\nIf True Then\nEndFunc\nFunc G()\nWhile True\nEndFunc\n" = .ok tokens ∧
      (prepareIn .forward {} "/main" tokens).result =
        .error (.preparing (.blockOpen "If" "EndIf") 2) ∧
      (prepareIn .backward {} "/main" tokens).result =
        .error (.preparing (.blockOpen "While" "WEnd") 5) ∧
      (prepareIn .forward {} "/main" tokens).result ≠
        (prepareIn .backward {} "/main" tokens).result := by
  have forward : refusal? .forward
      "Func F()\nIf True Then\nEndFunc\nFunc G()\nWhile True\nEndFunc\n" =
        some (.preparing (.blockOpen "If" "EndIf") 2) := by decide +kernel
  have backward : refusal? .backward
      "Func F()\nIf True Then\nEndFunc\nFunc G()\nWhile True\nEndFunc\n" =
        some (.preparing (.blockOpen "While" "WEnd") 5) := by decide +kernel
  obtain ⟨tokens, read, first⟩ := refusal?_eq_some _ _ forward
  obtain ⟨others, again, second⟩ := refusal?_eq_some _ _ backward
  obtain rfl : tokens = others := Except.ok.inj (read.symm.trans again)
  refine ⟨tokens, read, first, second, ?_⟩
  rw [first, second]
  simp

end Program

end LineScript
