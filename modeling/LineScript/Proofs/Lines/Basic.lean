import LineScript.Proofs.Congruence.Logic
import LineScript.Proofs.Machine.Library
import LineScript.Proofs.Origin.Program
import LineScript.Proofs.Run.Control

/-!
# Lines of running scripts

A machine runs the tokens of its program, and a fault points at the line of one of them or of the
statement being executed. `Sites` says which lines there are. An action does its work on site when,
from a machine whose tokens and statement stand on these lines, it leaves such a machine and stops
only with a fault that points at one of them; just two causes may point at a line end that was put
behind an included file and stands on no line.
-/

namespace LineScript

open Machine

namespace Fault

/-- A line end is to blame for the fault. -/
def isLineEnd : Fault → Bool
  | lexing .. => false
  | preparing cause _ => cause.isLineEnd
  | running cause _ _ => cause.isLineEnd

/-- The fault stopped a running script. -/
def isRunning : Fault → Bool
  | running .. => true
  | _ => false

end Fault

/-- Where tokens stand. -/
structure Sites where
  /-- Lines of sources. -/
  isLine : Nat → Prop
  /-- Line ends were put behind included files. -/
  gaps : Prop
  /-- Lines are counted from one. -/
  positive : ∀ line, isLine line → 0 < line

namespace Sites

variable (sites : Sites)

/-- A token that stands on a line, or a line end that was put behind a file. -/
def Holds (token : Token) : Prop := sites.isLine token.line ∨ sites.gaps ∧ token = .insertedEol

/-- A run of such tokens. -/
abbrev Covers (tokens : TokenBlock) : Prop := AllKept sites.Holds tokens.toList

/-- The fault points at a line and left calls on such lines. At a line end on no line it points with
the number zero. -/
structure Blames (fault : Fault) : Prop where
  /-- Where it points. -/
  line : sites.isLine fault.line ∨ sites.gaps ∧ fault.line = 0 ∧ fault.isLineEnd = true
  /-- The calls it left. -/
  calls : ∀ frame ∈ fault.calls, sites.isLine frame.line

/-- The action stopped with a fault of a running script that points at a line, or was halted. -/
def Permits : Stop → Prop
  | .fault fault => sites.Blames fault ∧ fault.isRunning = true
  | .halted _ => True

/-- All tokens that the machine can run stand on site, and so does its statement; on an idle machine
none need have been executed yet. -/
structure Stands (idle : Prop) (machine : Machine) : Prop where
  /-- Its program. -/
  program : machine.program.Kept sites.Holds
  /-- The tokens of its scopes. -/
  code : ∀ scope ∈ machine.stack.scopes, sites.Covers scope.code.tokens
  /-- Its statement. -/
  line : sites.isLine machine.line ∨ idle ∧ machine.exitHandler = none

/-- The action works on site while a statement is executed, and what it returns is as it should
be. -/
def Does {α : Type} (action : Exec α) (post : α → Prop) : Prop :=
  ∀ machine, sites.Stands False machine → match action machine with
    | .ok value after => sites.Stands False after ∧ post value
    | .error stop after => sites.Stands False after ∧ sites.Permits stop

variable {sites} {token : Token}

/-- A token on site that ends no line stands on a line. -/
theorem Holds.isLine (holds : sites.Holds token) (notEol : token.kind ≠ .eol) :
    sites.isLine token.line := by
  rcases holds with isLine | ⟨_, rfl⟩
  · exact isLine
  · exact absurd rfl notEol

/-- A token on site with a line number stands on a line. -/
theorem Holds.isLine_of_pos (holds : sites.Holds token) (positive : 0 < token.line) :
    sites.isLine token.line := by
  rcases holds with isLine | ⟨_, rfl⟩
  · exact isLine
  · cases positive

/-- An anchored line is a line. -/
theorem isLine_of_anchored {line : Nat} (anchored : Anchored sites.Holds line) :
    sites.isLine line := by
  obtain ⟨token, holds, notEol, rfl⟩ := anchored
  exact holds.isLine notEol

/-- A token of a window stands on site. -/
theorem covers_token {window : Window} {pos : Nat} (covers : sites.Covers window.tokens)
    (found : window.token? pos = some token) : sites.Holds token := by
  unfold Window.token? at found
  split at found
  · exact covers token (Array.mem_toList_iff.mpr (Array.mem_of_getElem? found))
  · cases found

/-- The whole of tokens on site is on site. -/
theorem covers_whole {tokens : TokenBlock} (covers : sites.Covers tokens) :
    sites.Covers (Window.whole tokens).tokens := covers

/-- Stopping a running script at a line is permitted. -/
theorem permits_running {cause : RunCause} {line : Nat} (isLine : sites.isLine line) :
    sites.Permits (.fault (.running cause line [])) := ⟨⟨.inl isLine, nofun⟩, rfl⟩

namespace Stands

variable {idle : Prop} {machine : Machine}

/-- The statement being executed stands on a line. -/
theorem isLine (stands : sites.Stands False machine) : sites.isLine machine.line :=
  stands.line.resolve_right fun never => never.1

/-- A machine on site is on site when more may be idle. -/
theorem mono {wider : Prop} (stands : sites.Stands idle machine) (weaker : idle → wider) :
    sites.Stands wider machine :=
  ⟨stands.program, stands.code, stands.line.imp_right (And.imp_left weaker)⟩

/-- Another machine with the same program, whose scopes run the same tokens. -/
theorem recoded {after : Machine} (stands : sites.Stands idle machine)
    (program : after.program = machine.program)
    (codes : after.stack.scopes.map Scope.code = machine.stack.scopes.map Scope.code)
    (line : sites.isLine after.line ∨ idle ∧ after.exitHandler = none) :
    sites.Stands idle after := by
  refine ⟨program ▸ stands.program, fun scope member => ?_, line⟩
  have coded : scope.code ∈ after.stack.scopes.map Scope.code := List.mem_map_of_mem member
  rw [codes] at coded
  obtain ⟨other, among, same⟩ := List.mem_map.mp coded
  exact same ▸ stands.code other among

/-- A change of one scope that leaves its tokens alone. -/
theorem modifyAt (stands : sites.Stands idle machine) (position : Nat) {change : Scope → Scope}
    (stays : ∀ scope, (change scope).code = scope.code) :
    sites.Stands idle { machine with stack := machine.stack.modifyAt position change } :=
  stands.recoded rfl (Stack.map_scopes_modifyAt Scope.code _ _ _ stays) stands.line

/-- Entering a scope whose tokens stand on site stays on site. -/
theorem push (stands : sites.Stands idle machine) {scope : Scope}
    (covers : sites.Covers scope.code.tokens) :
    sites.Stands idle { machine with stack := machine.stack.push scope } :=
  ⟨stands.program, List.forall_mem_cons.mpr ⟨covers, stands.code⟩, stands.line⟩

/-- Leaving a scope stays on site. -/
theorem pop (stands : sites.Stands idle machine) :
    sites.Stands idle { machine with stack := machine.stack.pop } :=
  ⟨stands.program, fun scope member => stands.code scope (Stack.mem_scopes_pop member),
    stands.line⟩

/-- The tokens of the innermost scope. -/
theorem top (stands : sites.Stands idle machine) : sites.Covers machine.stack.top.code.tokens :=
  stands.code _ machine.stack.top_mem_scopes

end Stands

namespace Does

variable {α β : Type} {action : Exec α} {post : α → Prop} {later : β → Prop}

/-- Returning a value works on site. -/
theorem pure {value : α} (holds : post value) :
    sites.Does (Pure.pure value : Exec α) post := fun _ stands => ⟨stands, holds⟩

/-- A sequence works on site when both parts do. -/
theorem bind {next : α → Exec β} (first : sites.Does action post)
    (rest : ∀ value, post value → sites.Does (next value) later) :
    sites.Does (action >>= next) later := by
  intro machine stands
  have here := first machine stands
  simp only [Bind.bind, EStateM.bind]
  cases ran : action machine with
  | ok value middle =>
    rw [ran] at here
    exact rest value here.2 middle here.1
  | error stop middle =>
    rw [ran] at here
    exact here

/-- An action whose result does not matter, before another one. -/
theorem andThen {next : α → Exec β} (first : sites.Does action fun _ => True)
    (rest : ∀ value, sites.Does (next value) later) : sites.Does (action >>= next) later :=
  first.bind fun value _ => rest value

/-- What works on site returns what is weaker than before. -/
theorem mono {weaker : α → Prop} (does : sites.Does action post)
    (weakens : ∀ value, post value → weaker value) : sites.Does action weaker := by
  intro machine stands
  have here := does machine stands
  cases ran : action machine with
  | ok value after =>
    rw [ran] at here
    exact ⟨here.1, weakens value here.2⟩
  | error stop after =>
    rw [ran] at here
    exact here

/-- An action that looks at the machine first. -/
theorem get {next : Machine → Exec β}
    (rest : ∀ machine, sites.Stands False machine → sites.Does (next machine) later) :
    sites.Does (MonadState.get >>= next) later :=
  fun machine stands => rest machine stands machine stands

/-- A change that keeps machines on site works on site. -/
theorem modify {change : Machine → Machine}
    (keeps : ∀ machine, sites.Stands False machine → sites.Stands False (change machine)) :
    sites.Does (MonadState.modifyGet fun machine => (PUnit.unit, change machine)) fun _ => True :=
  fun machine stands => ⟨keeps machine stands, trivial⟩

/-- A change of something that runs no tokens. -/
theorem aside {change : Machine → Machine}
    (same : ∀ machine, (change machine).program = machine.program ∧
      (change machine).stack = machine.stack ∧ (change machine).line = machine.line) :
    sites.Does (MonadState.modifyGet fun machine => (PUnit.unit, change machine)) fun _ => True := by
  refine modify fun machine stands => ?_
  obtain ⟨program, stack, line⟩ := same machine
  exact stands.recoded program (by rw [stack]) (.inl (line ▸ stands.isLine))

/-- Stopping works on site. -/
theorem throw {stop : Stop} (permits : sites.Permits stop) :
    sites.Does (MonadExcept.throw stop : Exec α) post := fun _ stands => ⟨stands, permits⟩

/-- Running out of fuel works on site. -/
theorem starved : sites.Does (Exec.starved : Exec α) post := throw trivial

/-- A failure works on site. -/
theorem fail {cause : RunCause} {line : Nat} (isLine : sites.isLine line) :
    sites.Does (Exec.fail cause line : Exec α) post := throw (permits_running isLine)

/-- Reading the current line works on site. -/
theorem currentLine : sites.Does Exec.currentLine sites.isLine :=
  .get fun _ stands => .pure stands.isLine

/-- Reading a line number works on site. -/
theorem lineAt {window : Window} (covers : sites.Covers window.tokens) (pos : Nat) :
    sites.Does (Exec.lineAt window pos) sites.isLine := by
  unfold Exec.lineAt
  split
  · split
    · exact .pure ((covers_token covers ‹_›).isLine_of_pos ‹_›)
    · exact currentLine
  · exact currentLine

/-- A failure at a position works on site. -/
theorem failAt {window : Window} {pos : Nat} {cause : RunCause}
    (covers : sites.Covers window.tokens) :
    sites.Does (Exec.failAt window pos cause : Exec α) post :=
  (lineAt covers pos).bind fun _ isLine => fail isLine

/-- Tracing works on site. -/
theorem trace (text : Unit → String) : sites.Does (Exec.trace text) fun _ => True :=
  aside fun _ => ⟨rfl, rfl, rfl⟩

/-- The outcome of an attempt works on site. -/
theorem ofAttempt {outcome : Except Stop α}
    (permits : ∀ stop, outcome = .error stop → sites.Permits stop) :
    sites.Does (Exec.ofAttempt outcome) fun _ => True := by
  cases outcome with
  | ok value => exact .pure trivial
  | error stop => exact throw (permits stop rfl)

/-- An action in a scope of its own, whose tokens stand on site. -/
theorem inScope {scope : Scope} (covers : sites.Covers scope.code.tokens)
    (does : sites.Does action post) :
    sites.Does (Exec.inScope scope action) fun result =>
      ∀ stop, result.1 = .error stop → sites.Permits stop := by
  intro machine stands
  have inside := does _ (stands.push covers)
  rw [Exec.inScope_eq]
  cases ran : action { machine with stack := machine.stack.push scope } with
  | ok value after =>
    rw [ran] at inside
    exact ⟨inside.1.pop, nofun⟩
  | error stop after =>
    rw [ran] at inside
    refine ⟨inside.1.pop, ?_⟩
    rintro _ ⟨⟩
    exact inside.2

/-- A function of the library runs no tokens. It stops at the line of the statement. -/
theorem builtin (function : Builtin) (args : Args) :
    sites.Does (function.run args) fun _ => True := by
  intro machine stands
  have tame := function.tame_run args
  have codes : ((function.run args).final machine).stack.scopes.map Scope.code =
      machine.stack.scopes.map Scope.code := by
    have same := congrArg (List.map fun place : ScopeKind × Window × Nat => place.2.1)
      (tame.stays machine)
    simpa [Stack.places, Scope.place, Function.comp_def] using same
  have kept := stands.recoded (tame.evolves machine).program_eq codes
    (.inl ((tame.spares machine).line ▸ stands.isLine))
  unfold Exec.final at kept
  cases ran : function.run args machine with
  | ok value after =>
    rw [ran] at kept
    exact ⟨kept, trivial⟩
  | error stop after =>
    rw [ran] at kept
    cases tame.stops ran with
    | replacement => exact ⟨kept, permits_running stands.isLine⟩
    | crashed => exact ⟨kept, trivial⟩

end Does

end Sites

end LineScript
