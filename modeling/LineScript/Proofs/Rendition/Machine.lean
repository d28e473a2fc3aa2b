import LineScript.Proofs.Machine.Handling
import LineScript.Proofs.Machine.Library
import LineScript.Proofs.Rendition.Parts
import LineScript.Proofs.Run.Control

/-!
# Renditions of machines

The scopes of one machine may run the same tokens as those of another, each so much further on. Nothing
else tells the machines apart but, where names may be spelled anew, how the program and the scopes spell
them, and what traces have quoted. An action echoes another one when it does to each rendition of a
machine what the other one does to the machine.
-/

namespace LineScript

variable {respells : Prop} {shift : Nat} {shifts : List Nat}

/-! ### Scopes -/

/-- The other scope stands so much further on in another window, and is the same otherwise. -/
inductive Scope.Renders (respells : Prop) (shift : Nat) (scope : Scope) : Scope → Prop where
  /-- Its window shows that of the scope. -/
  | mk {kind : ScopeKind} {code : Window} (same : Anew respells ScopeKind.small scope.kind kind)
      (copies : scope.code.Copies respells shift code) :
      Renders respells shift scope { scope with kind, code, pos := shift + scope.pos }

namespace Scope.Renders

variable {scope other : Scope}

/-- A scope stands where it stands. -/
theorem refl (scope : Scope) : scope.Renders respells 0 scope := by
  have same : ({ scope with pos := 0 + scope.pos } : Scope) = scope := by rw [Nat.zero_add]
  have renders : scope.Renders respells 0 { scope with pos := 0 + scope.pos } :=
    .mk (.refl scope.kind) (.refl scope.code)
  rwa [same] at renders

/-- A scope shows itself in small letters. -/
theorem small (may : respells) (scope : Scope) : scope.Renders respells 0 scope.small := by
  have same : ({ scope.small with pos := 0 + scope.pos } : Scope) = scope.small := by
    rw [Nat.zero_add]
    rfl
  have renders : scope.Renders respells 0 { scope.small with pos := 0 + scope.pos } :=
    .mk (.inr ⟨may, rfl⟩) (.small may scope.code)
  rwa [same] at renders

variable (renders : scope.Renders respells shift other)
include renders

/-- It runs a window that shows that of the scope. -/
theorem code : scope.code.Copies respells shift other.code := by
  cases renders with
  | mk same copies => exact copies

/-- It is at the place that corresponds. -/
theorem pos : other.pos = shift + scope.pos := by cases renders; rfl

/-- It has the same variables. -/
theorem vars : other.vars = scope.vars := by cases renders; rfl

/-- It has the same registers. -/
theorem registers : other.registers = scope.registers := by cases renders; rfl

/-- It has the same number of parameters. -/
theorem numParams : other.numParams = scope.numParams := by cases renders; rfl

/-- It is a frame if the scope is. -/
theorem isFrame : other.isFrame = scope.isFrame := by
  cases renders with
  | mk same copies =>
    exact same.look (fun kind => kind != .block) fun kind => by cases kind <;> rfl

/-- It is at the same token. -/
theorem showsCurrent : scope.code.ShowsAt respells False shift other.code scope.pos :=
  renders.code.showsAt scope.pos

end Scope.Renders

/-- The other scope stands where its list of distances says: so much further on, or, if none is left,
where the scope stands. -/
def Scope.Fits (respells : Prop) : List Nat → Scope → Scope → Prop
  | [], scope, other => other = scope ∨ respells ∧ scope.Renders respells 0 other
  | shift :: _, scope, other => scope.Renders respells shift other

/-- A scope that stands where it should is a rendition. -/
theorem Scope.Fits.renders {scope other : Scope} (fits : scope.Fits respells shifts other) :
    scope.Renders respells (shifts.headD 0) other := by
  cases shifts with
  | nil =>
    rcases fits with rfl | ⟨_, renders⟩
    · exact .refl _
    · exact renders
  | cons shift shifts => exact fits

/-- A change that does to each rendition of a scope what it does to the scope. -/
def Steady (change : Scope → Scope) : Prop :=
  ∀ {respells : Prop} {shift : Nat} {scope other : Scope}, scope.Renders respells shift other →
    (change scope).Renders respells shift (change other)

/-- Changing the registers is steady. -/
theorem steady_registers (change : Registers → Registers) :
    Steady fun scope => { scope with registers := change scope.registers } := by
  rintro respells shift scope _ ⟨same, copies⟩
  exact @Scope.Renders.mk _ _ { scope with registers := change scope.registers } _ _ same copies

/-- Changing the variables is steady. -/
theorem steady_vars (change : Variables → Variables) :
    Steady fun scope => { scope with vars := change scope.vars } := by
  rintro respells shift scope _ ⟨same, copies⟩
  exact @Scope.Renders.mk _ _ { scope with vars := change scope.vars } _ _ same copies

/-- A steady change keeps where a scope stands. -/
theorem Scope.Fits.change {change : Scope → Scope} (steady : Steady change) {scope other : Scope}
    (fits : scope.Fits respells shifts other) :
    (change scope).Fits respells shifts (change other) := by
  cases shifts with
  | nil =>
    rcases fits with rfl | ⟨may, renders⟩
    · exact .inl rfl
    · exact .inr ⟨may, steady renders⟩
  | cons shift shifts => exact steady fits

/-- The other scopes stand where the distances say, the innermost ones first. -/
inductive Scope.AllFit (respells : Prop) : List Nat → List Scope → List Scope → Prop where
  /-- There are none. -/
  | nil : AllFit respells [] [] []
  /-- The innermost one stands where the first distance says. -/
  | cons {shifts : List Nat} {scope other : Scope} {scopes others : List Scope}
      (here : scope.Fits respells shifts other) (rest : AllFit respells shifts.tail scopes others) :
      AllFit respells shifts (scope :: scopes) (other :: others)

namespace Scope.AllFit

variable {scopes others : List Scope} (fits : AllFit respells shifts scopes others)
include fits

/-- What does not tell a scope from its renditions tells no scopes apart. -/
theorem map {Look : Type} (look : Scope → Look)
    (blind : ∀ {shift : Nat} {scope other : Scope}, scope.Renders respells shift other →
      look other = look scope) : others.map look = scopes.map look := by
  induction fits with
  | nil => rfl
  | cons here _ ih => rw [List.map_cons, List.map_cons, blind here.renders, ih]

/-- There are as many. -/
theorem length : others.length = scopes.length := by
  simpa using congrArg List.length (fits.map (fun _ => ()) fun _ => rfl)

/-- The same scopes of the frame bind a name. -/
theorem positionInFrame? (key : String) :
    Stack.positionInFrame? key others = Stack.positionInFrame? key scopes := by
  induction fits with
  | nil => rfl
  | cons here _ ih =>
    rw [Stack.positionInFrame?, Stack.positionInFrame?, here.renders.vars, here.renders.isFrame, ih]

/-- A steady change of one scope. -/
theorem modify {change : Scope → Scope} (steady : Steady change) (position : Nat) :
    AllFit respells shifts (scopes.modify position change) (others.modify position change) := by
  induction fits generalizing position with
  | nil => cases position <;> exact .nil
  | cons here rest ih =>
    cases position with
    | zero => exact .cons (here.change steady) rest
    | succ position => exact .cons here (ih position)

/-- The innermost scope is left. -/
theorem tail : AllFit respells shifts.tail scopes.tail others.tail := by
  cases fits with
  | nil => exact .nil
  | cons _ rest => exact rest

end Scope.AllFit

/-- Scopes stand where they stand. -/
theorem Scope.AllFit.refl (scopes : List Scope) : AllFit respells [] scopes scopes := by
  induction scopes with
  | nil => exact .nil
  | cons scope scopes ih => exact .cons (.inl rfl) ih

/-! ### Stacks -/

/-- The scopes of the other stack stand where the distances say; the script's own stays in place. -/
structure Stack.Renders (respells : Prop) (shifts : List Nat) (stack other : Stack) : Prop where
  /-- Calls and blocks. -/
  inner : Scope.AllFit respells shifts stack.inner other.inner
  /-- The script's scope. -/
  root : stack.root.Fits respells [] other.root

namespace Stack.Renders

variable {stack other : Stack} (renders : stack.Renders respells shifts other)
include renders

/-- The innermost scopes correspond. -/
theorem top : stack.top.Renders respells (shifts.headD 0) other.top := by
  obtain ⟨scopes, root⟩ := stack
  obtain ⟨others, root'⟩ := other
  obtain ⟨inner, rootFits⟩ := renders
  cases inner with
  | nil => exact rootFits.renders
  | cons here _ => exact here.renders

/-- What does not tell a scope from its renditions is the same of the scopes at one position. -/
theorem look_scopeAt {Look : Type} (look : Scope → Look)
    (blind : ∀ {shift : Nat} {scope other : Scope}, scope.Renders respells shift other →
      look other = look scope) (position : Nat) :
    look (other.scopeAt position) = look (stack.scopeAt position) := by
  have seen (stack : Stack) : look (stack.scopeAt position) =
      (stack.inner.map look)[position]?.getD (look stack.root) := by
    rw [List.getElem?_map, scopeAt]
    cases stack.inner[position]? <;> rfl
  rw [seen, seen, renders.inner.map look blind, blind renders.root.renders]

/-- The frame is at the same position. -/
theorem framePosition : other.framePosition = stack.framePosition := by
  have seen (stack : Stack) : stack.framePosition =
      (stack.inner.map Scope.isFrame).findIdx id := by
    rw [List.findIdx_map]
    rfl
  rw [seen, seen, renders.inner.map _ fun same => same.isFrame]

/-- The same of the innermost frame. -/
theorem look_frame {Look : Type} (look : Scope → Look)
    (blind : ∀ {shift : Nat} {scope other : Scope}, scope.Renders respells shift other →
      look other = look scope) : look other.frame = look stack.frame := by
  unfold frame
  rw [renders.framePosition]
  exact renders.look_scopeAt look blind _

/-- Names are bound to the same. -/
theorem lookup? (key : String) : other.lookup? key = stack.lookup? key := by
  have seen (scopes : List Scope) : (scopes.findSome? fun scope => scope.vars.get? key) =
      (scopes.map Scope.vars).findSome? fun vars => vars.get? key := by
    rw [List.findSome?_map]
    rfl
  unfold Stack.lookup?
  rw [seen, seen, renders.inner.map _ fun same => same.vars, renders.root.renders.vars]

/-- Assignments write to the same position. -/
theorem assignPosition (key : String) : other.assignPosition key = stack.assignPosition key := by
  unfold Stack.assignPosition
  rw [renders.inner.positionInFrame?, renders.inner.length, renders.root.renders.vars]

/-- Declarations write to the same position. -/
theorem declPosition (target : DeclScope) : other.declPosition target = stack.declPosition target := by
  cases target with
  | inner => rfl
  | static => exact renders.framePosition
  | global => exact renders.inner.length

/-- A steady change of the scope at a position. -/
theorem modifyAt {change : Scope → Scope} (steady : Steady change) (position : Nat) :
    (stack.modifyAt position change).Renders respells shifts (other.modifyAt position change) := by
  unfold Stack.modifyAt
  rw [renders.inner.length]
  split
  · exact ⟨renders.inner.modify steady position, renders.root⟩
  · exact ⟨renders.inner, renders.root.change steady⟩

/-- The innermost scopes move on to places that correspond. -/
theorem moveTo (pos : Nat) :
    (stack.modifyTop fun scope => { scope with pos }).Renders respells shifts
      (other.modifyTop fun scope => { scope with pos := shifts.headD 0 + pos }) := by
  have moved {shift : Nat} {scope other : Scope} (same : scope.Renders respells shift other) :
      Scope.Renders respells shift { scope with pos } { other with pos := shift + pos } := by
    obtain ⟨same, copies⟩ := same
    exact @Scope.Renders.mk _ _ { scope with pos } _ _ same copies
  have fits {scope other : Scope} (here : scope.Fits respells shifts other) :
      Scope.Fits respells shifts { scope with pos } { other with pos := shifts.headD 0 + pos } := by
    cases shifts with
    | nil =>
      rcases here with rfl | ⟨may, same⟩
      · exact .inl (by simp)
      · exact .inr ⟨may, moved same⟩
    | cons shift shifts => exact moved here
  obtain ⟨scopes, root⟩ := stack
  obtain ⟨others, root'⟩ := other
  obtain ⟨inner, rootFits⟩ := renders
  cases inner with
  | nil => exact ⟨.nil, fits rootFits⟩
  | cons here rest => exact ⟨.cons (fits here) rest, rootFits⟩

/-- A scope is put on, so much further on. -/
theorem push {scope scope' : Scope} (same : scope.Renders respells shift scope') :
    (stack.push scope).Renders respells (shift :: shifts) (other.push scope') :=
  ⟨.cons same renders.inner, renders.root⟩

/-- The innermost scope is taken off. -/
theorem pop : stack.pop.Renders respells shifts.tail other.pop := ⟨renders.inner.tail, renders.root⟩

end Stack.Renders

/-! ### Machines -/

/-- Two actions stop for the same reason or, where names may be spelled anew, for reasons that tell as
much. -/
def Stop.Renders (respells : Prop) (stop other : Stop) : Prop :=
  other = stop ∨ respells ∧ stop.Alike other

/-- The other machine runs the same program or its spelling, in scopes that stand where the distances
say. Where names may be spelled anew, its console may show something else. -/
inductive Machine.Renders (respells : Prop) (shifts : List Nat) (machine : Machine) : Machine → Prop
  /-- It is the machine in everything else. -/
  | mk {stack : Stack} {program : Program} {console : Console}
      (placed : machine.stack.Renders respells shifts stack)
      (programs : machine.program.Renders respells program)
      (shown : console = machine.host.console ∨ respells) :
      Renders respells shifts machine
        { machine with stack, program, host := { machine.host with console } }

namespace Machine.Renders

variable {machine other : Machine}

/-- A machine is a rendition of itself. -/
theorem refl (machine : Machine) : machine.Renders respells [] machine :=
  .mk ⟨.refl _, .inl rfl⟩ (.refl _) (.inl rfl)

variable (renders : machine.Renders respells shifts other)
include renders

/-- Its scopes stand where the distances say. -/
theorem stack : machine.stack.Renders respells shifts other.stack := by
  cases renders with
  | mk placed programs shown => exact placed

/-- It runs the same program or its spelling. -/
theorem program : machine.program.Renders respells other.program := by
  cases renders with
  | mk placed programs shown => exact programs

/-- It is at the same line. -/
theorem line : other.line = machine.line := by cases renders; rfl

/-- It holds the same objects. -/
theorem heap : other.heap = machine.heap := by cases renders; rfl

/-- It has declared the same static variables. -/
theorem declaredStatic {name spelled : String} (same : Text.lower spelled = Text.lower name) :
    other.declaredStatic spelled = machine.declaredStatic name := by
  unfold Machine.declaredStatic
  rw [same]
  exact renders.stack.look_frame (fun scope => scope.vars.has (Text.lower name))
    fun same => by rw [same.vars]

/-- It has the same macros. -/
theorem macroValue? (key : String) : other.macroValue? key = machine.macroValue? key := by
  have registers : other.registers = machine.registers :=
    renders.stack.look_frame Scope.registers fun same => same.registers
  have numParams : other.numParams = machine.numParams :=
    renders.stack.look_frame Scope.numParams fun same => same.numParams
  unfold Machine.macroValue?
  rw [registers, numParams]
  cases renders
  rfl

/-- What is looked at when values are handled is the same. -/
theorem shares : machine.Shares other :=
  ⟨renders.heap, renders.line, renders.stack.lookup?, renders.macroValue?⟩

/-- What a routine of the library looks at is the same. -/
theorem lend : other = machine.lend other other.host.console := by cases renders; rfl

/-- A change of the scopes. -/
theorem withStack {later : List Nat} {stack stack' : Stack}
    (same : stack.Renders respells later stack') :
    Machine.Renders respells later { machine with stack } { other with stack := stack' } := by
  cases renders with
  | mk placed programs shown =>
    exact @Machine.Renders.mk _ _ { machine with stack } _ _ _ same programs shown

omit renders in
/-- Where no name may be spelled anew and no scope stands elsewhere, nothing tells machines apart. -/
theorem eq (never : ¬ respells) (renders : machine.Renders respells [] other) : other = machine := by
  have places {scope other : Scope} (fits : scope.Fits respells [] other) : other = scope :=
    fits.resolve_right fun may => never may.1
  have scopes : ∀ {scopes others : List Scope}, Scope.AllFit respells [] scopes others →
      others = scopes := by
    intro scopes others fits
    generalize none : ([] : List Nat) = shifts at fits
    induction fits with
    | nil => rfl
    | cons here _ ih =>
      subst none
      rw [places here, ih rfl]
  cases renders with
  | mk placed programs shown =>
    obtain rfl := programs.resolve_right fun may => never may.1
    obtain rfl := shown.resolve_right never
    obtain ⟨inner, root⟩ := placed
    rename_i stack
    have same : stack = machine.stack := by
      obtain ⟨others, root'⟩ := stack
      rw [show root' = machine.stack.root from places root, show others = _ from scopes inner]
    rw [same]

end Machine.Renders

variable {α β γ δ : Type}

/-- The right action does to each rendition of a machine what the left one does to the machine. -/
def Exec.Echoes (respells : Prop) (shifts : List Nat) (agree : α → β → Prop) (left : Exec α)
    (right : Exec β) : Prop :=
  ∀ machine other : Machine, machine.Renders respells shifts other →
    EndAlike (Stop.Renders respells) (Machine.Renders respells shifts) agree (left machine)
      (right other)

/-- The action does the same to each rendition of a machine. -/
abbrev Exec.Blind (respells : Prop) (action : Exec α) : Prop :=
  ∀ shifts, Exec.Echoes respells shifts Eq action action

namespace Exec.Echoes

variable {agree : α → β → Prop} {later : γ → δ → Prop} {left : Exec α} {right : Exec β}

/-- Returning echoes returning what agrees. -/
theorem pure {value : α} {other : β} (held : agree value other) :
    Echoes respells shifts agree (Pure.pure value) (Pure.pure other) :=
  fun _ _ renders => .ok held renders

/-- Stopping echoes stopping for a reason that tells as much. -/
theorem throw {stop other : Stop} (same : stop.Renders respells other) :
    Echoes respells shifts agree (MonadExcept.throw stop) (MonadExcept.throw other) :=
  fun _ _ renders => .error same renders

/-- Running out of fuel echoes itself. -/
theorem starved : Echoes respells shifts agree Exec.starved Exec.starved := throw (.inl rfl)

/-- Sequences echo each other when both parts do. -/
theorem bind {next : α → Exec γ} {other : β → Exec δ}
    (first : Echoes respells shifts agree left right)
    (rest : ∀ value result, agree value result →
      Echoes respells shifts later (next value) (other result)) :
    Echoes respells shifts later (left >>= next) (right >>= other) :=
  fun machine other renders => (first machine other renders).bind
    fun value result after last held kept => rest value result held after last kept

/-- Actions that go on with one result. -/
theorem andThen {left right : Exec α} {next : α → Exec γ} {other : α → Exec δ}
    (first : Echoes respells shifts Eq left right)
    (rest : ∀ value, Echoes respells shifts later (next value) (other value)) :
    Echoes respells shifts later (left >>= next) (right >>= other) :=
  first.bind fun value _ same => same ▸ rest value

/-- Changing what echoing actions return keeps the echo. -/
theorem map (echoes : Echoes respells shifts agree left right) {change : α → γ} {other : β → δ}
    (keeps : ∀ value result, agree value result → later (change value) (other result)) :
    Echoes respells shifts later (change <$> left) (other <$> right) := by
  rw [map_eq_pure_bind, map_eq_pure_bind]
  exact bind echoes fun value result held => pure (keeps value result held)

/-- Actions that look at the machine first. -/
theorem get {next : Machine → Exec γ} {other : Machine → Exec δ}
    (rest : ∀ machine last : Machine, machine.Renders respells shifts last →
      Echoes respells shifts later (next machine) (other last)) :
    Echoes respells shifts later (MonadState.get >>= next) (MonadState.get >>= other) :=
  fun machine last renders => rest machine last renders machine last renders

/-- Changes after which a rendition is one. -/
theorem modify {change other : Machine → Machine}
    (kept : ∀ machine last : Machine, machine.Renders respells shifts last →
      (change machine).Renders respells shifts (other last)) :
    Echoes respells shifts Eq (MonadState.modifyGet fun machine => (PUnit.unit, change machine))
      (MonadState.modifyGet fun machine => (PUnit.unit, other machine)) :=
  fun machine last renders => .ok rfl (kept machine last renders)

/-- A failure echoes one whose cause tells as much. -/
theorem fail {cause other : RunCause} (same : cause.Renders respells other) (line : Nat) :
    Echoes respells shifts agree (Exec.fail cause line) (Exec.fail other line) := by
  rcases same with rfl | ⟨may, kind⟩
  · exact throw (.inl rfl)
  · exact throw (.inr ⟨may, .fault (.running line [] [] kind)⟩)

/-- What was worked out from windows goes on alike. -/
theorem ofExcept {outcome : Except Fault α} {other : Except Fault β}
    (ended : EndedAlike (Fault.Renders respells) agree outcome other) :
    Echoes respells shifts agree (Exec.ofExcept outcome) (Exec.ofExcept other) := by
  cases ended with
  | ok held => exact pure held
  | error alike =>
    rcases alike with rfl | ⟨may, alike⟩
    · exact throw (.inl rfl)
    · exact throw (.inr ⟨may, .fault alike⟩)

/-- A trace echoes one that is the same or may be spelled anew. -/
theorem trace {text other : Unit → String} (same : other = text ∨ respells) :
    Echoes respells shifts Eq (Exec.trace text) (Exec.trace other) := by
  have traced (host : Host) (console : Console) : ∃ shown,
      ({ host with console } : Host).trace other = { host.trace text with console := shown } ∧
        (console = host.console → other = text → shown = (host.trace text).console) := by
    unfold Host.trace
    dsimp only
    split
    · refine ⟨_, rfl, ?_⟩
      rintro rfl rfl
      rfl
    · exact ⟨console, rfl, fun shown _ => shown⟩
  refine modify fun machine _ renders => ?_
  cases renders with
  | @mk stack program console placed programs shown =>
    obtain ⟨console', eq, kept⟩ := traced machine.host console
    dsimp only
    rw [eq]
    refine @Machine.Renders.mk _ _ { machine with host := machine.host.trace text } _ _ _ placed
      programs ?_
    rcases same with rfl | may
    · exact shown.imp_left fun shown => kept shown rfl
    · exact .inr may

end Exec.Echoes

/-! ### Actions that do the same to every rendition -/

namespace Exec.Blind

/-- Returning a value is blind. -/
theorem pure (value : α) : Blind respells (Pure.pure value : Exec α) := fun _ => .pure rfl

/-- A sequence is blind when both parts are. -/
theorem bind {action : Exec α} {next : α → Exec β} (first : action.Blind respells)
    (rest : ∀ value, (next value).Blind respells) : (action >>= next).Blind respells :=
  fun shifts => .andThen (first shifts) fun value => rest value shifts

/-- An action that looks at something that is the same of every rendition. -/
theorem get {next : Machine → Exec β}
    (unseen : ∀ {shifts : List Nat} {machine other : Machine},
      machine.Renders respells shifts other → next other = next machine)
    (rest : ∀ machine, (next machine).Blind respells) :
    (MonadState.get >>= next).Blind respells := by
  refine fun shifts => .get fun machine other renders => ?_
  rw [unseen renders]
  exact rest machine shifts

/-- A choice is blind when both actions are. -/
theorem ite {condition : Prop} [Decidable condition] {action other : Exec α}
    (holds : action.Blind respells) (fails : other.Blind respells) :
    (if condition then action else other).Blind respells := by
  split
  · exact holds
  · exact fails

/-- A failure is blind. -/
theorem fail (cause : RunCause) (line : Nat) : (Exec.fail cause line : Exec α).Blind respells :=
  fun _ => .fail (.refl cause) line

/-- A change beside the scopes and the program, which shows on the console the same on top of whatever
stands there. -/
theorem modifyShowing {change : Machine → Machine} (shows' : Machine → Console → Console)
    (beside : ∀ (machine : Machine) (stack : Stack) (program : Program) (console : Console),
      change { machine with stack, program, host := { machine.host with console } } =
        { change machine with
          stack, program, host := { (change machine).host with console := shows' machine console } }) :
    Blind respells (MonadState.modifyGet fun machine => (PUnit.unit, change machine)) := by
  refine fun shifts => .modify fun machine _ renders => ?_
  have same := beside machine machine.stack machine.program machine.host.console
  have keptStack : (change machine).stack = machine.stack := by rw [same]
  have keptProgram : (change machine).program = machine.program := by rw [same]
  have showsAnew : (change machine).host.console = shows' machine machine.host.console := by rw [same]
  cases renders with
  | @mk stack program console placed programs shown =>
    have there := beside machine stack program console
    dsimp only at there ⊢
    rw [there]
    refine @Machine.Renders.mk _ _ (change machine) _ _ _ (keptStack ▸ placed)
      (keptProgram ▸ programs) ?_
    rw [showsAnew]
    exact shown.imp_left fun shown => by rw [shown]

/-- A change beside the scopes, the program and the console. -/
theorem modify {change : Machine → Machine}
    (beside : ∀ (machine : Machine) (stack : Stack) (program : Program) (console : Console),
      change { machine with stack, program, host := { machine.host with console } } =
        { change machine with stack, program, host := { (change machine).host with console } }) :
    Blind respells (MonadState.modifyGet fun machine => (PUnit.unit, change machine)) :=
  modifyShowing (fun _ console => console) beside

/-- Tracing is blind. -/
theorem trace (text : Unit → String) : (Exec.trace text).Blind respells := fun _ => .trace (.inl rfl)

/-- Reading the line of the statement is blind. -/
theorem currentLine : Exec.currentLine.Blind respells :=
  get (fun renders => by rw [renders.line]) fun _ => pure _

/-! ### Objects -/

/-- Replacing an object is blind. -/
theorem setObject (id : HandleId) (object : HeapObject) :
    (Machine.setObject id object).Blind respells := modify fun _ _ _ _ => rfl

/-- Changing an object is blind. -/
theorem modifyObject (id : HandleId) (change : HeapObject → HeapObject) :
    (Machine.modifyObject id change).Blind respells := modify fun _ _ _ _ => rfl

/-- Adding an object is blind. -/
theorem addObject (object : HeapObject) : (Machine.addObject object).Blind respells :=
  get (fun renders => by rw [renders.heap]) fun _ =>
    bind (modify fun _ _ _ _ => rfl) fun _ => bind (trace _) fun _ => pure _

/-! ### Variables and registers -/

/-- A steady change of the scope at a position. -/
theorem modifyAt (position : Machine → Nat) {change : Scope → Scope} (steady : Steady change)
    (unseen : ∀ {shifts : List Nat} {machine other : Machine},
      machine.Renders respells shifts other → position other = position machine) :
    Blind respells (MonadState.modifyGet fun machine : Machine =>
      (PUnit.unit,
        { machine with stack := machine.stack.modifyAt (position machine) change })) := by
  refine fun shifts => .modify fun machine other renders => ?_
  rw [unseen renders]
  exact renders.withStack (renders.stack.modifyAt steady _)

/-- Changing the registers is blind. -/
theorem modifyRegisters (change : Registers → Registers) :
    (Machine.modifyRegisters change).Blind respells :=
  modifyAt (fun machine => machine.stack.framePosition) (steady_registers change)
    fun renders => renders.stack.framePosition

/-- Setting the error register is blind. -/
theorem setError (code : Int64) : (Machine.setError code).Blind respells := modifyRegisters _

/-- Setting the extended register is blind. -/
theorem setExtended (code : Int64) : (Machine.setExtended code).Blind respells := modifyRegisters _

/-- Setting the return register is blind. -/
theorem setReturnValue (value : Value) : (Machine.setReturnValue value).Blind respells :=
  modifyRegisters _

/-- Clearing the registers is blind. -/
theorem resetRegisters : Machine.resetRegisters.Blind respells := modifyRegisters _

end Exec.Blind

/-! ### Names -/

/-- The other name is the same or, where names may be spelled anew, the same but for case. -/
structure NameRenders (respells : Prop) (name other : String) : Prop where
  /-- It names the same. -/
  same : Text.lower other = Text.lower name
  /-- It is spelled anew only where names may be. -/
  spelled : other = name ∨ respells

namespace NameRenders

variable {name other : String}

/-- A name is spelled again. -/
theorem refl (name : String) : NameRenders respells name name := ⟨rfl, .inl rfl⟩

/-- A name in small letters. -/
theorem small (same : Anew respells Text.lower name other) : NameRenders respells name other := by
  rcases same with rfl | ⟨may, rfl⟩
  · exact .refl _
  · exact ⟨Text.lower_lower _, .inr may⟩

/-- The name that a token gives. -/
theorem ofToken {named : Prop} {token result : Token}
    (same : token.Renders respells named result) :
    NameRenders respells token.lexeme result.lexeme :=
  ⟨same.name, same.spelled.imp_left fun same => by rw [same]⟩

variable (same : NameRenders respells name other)
include same

/-- A cause that tells a name is one of a kind, however the name is spelled. -/
theorem cause (tells : String → RunCause)
    (kind : ∀ name other, (tells other).kind = (tells name).kind) :
    (tells name).Renders respells (tells other) := by
  rcases same.spelled with rfl | may
  · exact .refl _
  · exact .inr ⟨may, kind name other⟩

/-- A trace that tells a name. -/
theorem text (tells : String → Unit → String) : tells other = tells name ∨ respells :=
  same.spelled.imp_left fun same => by rw [same]

end NameRenders

namespace Exec.Echoes

variable {agree : α → β → Prop}

/-- A variable is written under every spelling of its name. -/
theorem writeVariable (position : Nat) {name other : String}
    (same : NameRenders respells name other) (value : Value) (constant : Bool) :
    Echoes respells shifts Eq (Machine.writeVariable position name value constant)
      (Machine.writeVariable position other value constant) := by
  unfold Machine.writeVariable
  refine get fun machine last renders => ?_
  dsimp only
  rw [same.same, renders.stack.look_scopeAt Scope.vars (fun same => same.vars), renders.line]
  split
  · exact fail (same.cause _ fun _ _ => rfl) _
  · exact Blind.modifyAt (fun _ => position) (steady_vars _) (fun _ => rfl) shifts

/-- Setting a variable echoes itself. -/
theorem setVariable {name other : String} (same : NameRenders respells name other) (value : Value) :
    Echoes respells shifts Eq (Machine.setVariable name value) (Machine.setVariable other value) :=
  writeVariable 0 same value false

/-- Assigning a variable echoes itself. -/
theorem assignVariable (name : String) (value : Value) :
    Echoes respells shifts Eq (Machine.assignVariable name value)
      (Machine.assignVariable name value) := by
  refine get fun machine last renders => ?_
  rw [renders.stack.assignPosition]
  exact writeVariable _ (.refl _) value false

/-- Declaring a variable echoes itself. -/
theorem declareVariable (target : DeclScope) {name other : String}
    (same : NameRenders respells name other) (value : Value) (constant : Bool) :
    Echoes respells shifts Eq (Machine.declareVariable target name value constant)
      (Machine.declareVariable target other value constant) := by
  refine get fun machine last renders => ?_
  rw [renders.stack.declPosition]
  exact writeVariable _ same value constant

/-! ### Windows -/

section Windows

variable {near far : Window} (window : near.Renders respells shift far) (pos : Nat)
include window

/-- Reading a line number echoes itself. -/
theorem lineAt : Echoes respells shifts Eq (Exec.lineAt near pos)
    (Exec.lineAt far (shift + pos)) := by
  unfold Exec.lineAt
  rcases window.token pos with ⟨here, there⟩ | ⟨token, other, here, there, same⟩
  · rw [here, there]
    exact Blind.currentLine shifts
  · rw [here, there]
    dsimp only
    rw [same.line]
    split
    · exact pure rfl
    · exact Blind.currentLine shifts

/-- A failure at a position echoes one at the place that corresponds. -/
theorem failAt {cause other : RunCause} (same : cause.Renders respells other) :
    Echoes respells shifts agree (Exec.failAt near pos cause)
      (Exec.failAt far (shift + pos) other) :=
  andThen (lineAt window pos) fun _ => fail same _

/-- Expecting a token echoes itself. -/
theorem expect (kind : TokenKind) (wanted : String) :
    Echoes respells shifts (fun token other => token.Renders respells True other)
      (Exec.expect near pos kind wanted) (Exec.expect far (shift + pos) kind wanted) := by
  unfold Exec.expect
  rcases window.token pos with ⟨here, there⟩ | ⟨token, other, here, there, same⟩
  · rw [here, there]
    exact failAt window pos (.refl _)
  · rw [here, there]
    dsimp only
    rw [same.kind]
    split
    · exact pure same
    · exact failAt window pos (same.cause (fun token => .expected wanted token.display)
        fun _ _ => rfl)

end Windows

end Exec.Echoes

/-! ### Handling values -/

/-- Faults may be reported at places that correspond, and names may be spelled anew if at all. -/
def Permit.rendition (respells : Prop) : Permit where
  line _ := True
  place near pos far other := ∃ shift, near.Renders respells shift far ∧ other = shift + pos
  object _ := True
  respells
  writes := True

/-- A token names what its rendition names. -/
theorem Token.Renders.names {named : Prop} {token other : Token}
    (same : token.Renders respells named other) :
    (Permit.rendition respells).Names token other where
  name := same.name
  spelled := same.spelled
  line := same.line
  known := trivial

/-- A place corresponds to the one further on. -/
theorem Window.Renders.permits {near far : Window} (window : near.Renders respells shift far)
    (pos : Nat) : (Permit.rendition respells).place near pos far (shift + pos) :=
  ⟨shift, window, rfl⟩

namespace Exec.Echoes

/-- Values are handled alike where faults are reported at places that correspond. -/
theorem of_permitted {permit : Permit} {left right : Exec α}
    (handling : Exec.Handling permit left right) (respelled : permit.respells → respells)
    (places : ∀ {near far : Window} {pos other : Nat}, permit.place near pos far other →
      (Permit.rendition respells).place near pos far other) :
    Echoes respells shifts Eq left right := by
  induction handling with
  | pure value => exact .pure rfl
  | bind _ _ first rest =>
    exact .andThen (first respelled places) fun value => rest value respelled places
  | look shared _ rest =>
    refine .get fun machine last renders => ?_
    rw [shared machine last renders.shares]
    exact rest machine respelled places
  | fail alike => exact .fail (alike.imp_right fun anew => ⟨respelled anew.1, anew.2⟩) _
  | failAt _ placed =>
    obtain ⟨shift, window, rfl⟩ := places placed
    exact .failAt window _ (.refl _)
  | crash => exact .throw (.inl rfl)
  | addObject object => exact Blind.addObject object shifts
  | setObject _ object => exact Blind.setObject _ object shifts
  | modifyObject _ change => exact Blind.modifyObject _ change shifts
  | assignVariable _ name value => exact .assignVariable name value

/-- Everything that is done with values echoes itself. -/
theorem handles {left right : Exec α}
    (handling : Exec.Handling (.rendition respells) left right) :
    Echoes respells shifts Eq left right := of_permitted handling id id

/-! ### Scopes -/

/-- The innermost scopes correspond. -/
theorem topScope : Echoes respells shifts
    (fun scope other => scope.Renders respells (shifts.headD 0) other)
    LineScript.topScope LineScript.topScope := get fun _ _ renders => pure renders.stack.top

/-- Moving the cursor echoes moving it to the place that corresponds. -/
theorem moveTo (pos : Nat) : Echoes respells shifts Eq (LineScript.moveTo pos)
    (LineScript.moveTo (shifts.headD 0 + pos)) :=
  modify fun _ _ renders => renders.withStack (renders.stack.moveTo pos)

variable {agree : α → β → Prop} {left : Exec α} {right : Exec β}

/-- Attempts of echoing actions echo each other. -/
theorem attempt (echoes : Echoes respells shifts agree left right) :
    Echoes respells shifts (EndedAlike (Stop.Renders respells) agree) (Exec.attempt left)
      (Exec.attempt right) := by
  intro machine other renders
  have ended := echoes machine other renders
  unfold Exec.attempt
  generalize left machine = outcome at ended ⊢
  generalize right other = echo at ended ⊢
  cases ended with
  | ok held kept => exact .ok (.ok held) kept
  | error alike kept => exact .ok (.error alike) kept

/-- The outcome of an attempt echoes itself. -/
theorem ofAttempt {outcome : Except Stop α} {other : Except Stop β}
    (ended : EndedAlike (Stop.Renders respells) agree outcome other) :
    Echoes respells shifts agree (Exec.ofAttempt outcome) (Exec.ofAttempt other) := by
  cases ended with
  | ok held => exact pure held
  | error alike => exact throw alike

/-- An action in a scope of its own echoes one in a scope that stands further on. -/
theorem inScope {scope other : Scope} (same : scope.Renders respells shift other)
    (echoes : Echoes respells (shift :: shifts) agree left right) :
    Echoes respells shifts
      (fun result last => EndedAlike (Stop.Renders respells) agree result.1 last.1 ∧
        result.2.Renders respells shift last.2)
      (Exec.inScope scope left) (Exec.inScope other right) := by
  intro machine last renders
  have ended := echoes _ _ (renders.withStack (renders.stack.push same))
  rw [Exec.inScope_eq, Exec.inScope_eq]
  generalize left { machine with stack := machine.stack.push scope } = outcome at ended ⊢
  generalize right { last with stack := last.stack.push other } = echo at ended ⊢
  cases ended with
  | ok held kept => exact .ok ⟨.ok held, kept.stack.top⟩ (kept.withStack kept.stack.pop)
  | error alike kept => exact .ok ⟨.error alike, kept.stack.top⟩ (kept.withStack kept.stack.pop)

end Exec.Echoes

/-! ### The library -/

namespace Machine

/-- Writing to the output is blind. -/
theorem blind_writeStdout (text : String) : (writeStdout text).Blind respells := by
  refine .modifyShowing (fun machine console =>
    if machine.echo then { console with output := console.output ++ text } else console) ?_
  intro machine stack program console
  dsimp only [Host.writeOutput]
  split <;> rfl

/-- Writing to the error output is blind. -/
theorem blind_writeStderr (text : String) : (writeStderr text).Blind respells := by
  unfold writeStderr
  refine .get (fun renders => by cases renders; rfl) fun machine => .ite (blind_writeStdout text) ?_
  refine .modifyShowing (fun machine console =>
    if machine.echo then
      if machine.host.errorsToOutput then { console with output := console.output ++ text }
      else { console with errors := console.errors ++ text }
    else console) ?_
  intro machine stack program console
  dsimp only [Host.writeErrors, Host.writeOutput]
  split
  · split <;> rfl
  · rfl

end Machine

/-- A routine of the library is blind. -/
theorem Exec.Routine.blind {sets : Prop} {reach : HandleId → Prop} {action : Exec α}
    (routine : action.Routine sets reach) : action.Blind respells := by
  induction routine with
  | pure value => exact .pure value
  | bind _ _ first rest => exact .bind first rest
  | look lent _ rest =>
    refine .get (fun {shifts machine other} renders => ?_) rest
    rw [renders.lend]
    exact lent machine other other.host.console
  | trace text => exact .trace text
  | writeStdout text => exact Machine.blind_writeStdout text
  | writeStderr text => exact Machine.blind_writeStderr text
  | setError code => exact .setError code
  | setExtended code => exact .setExtended code
  | setReturnValue _ value => exact .setReturnValue value
  | handler | setFiles | elapse => exact .modify fun _ _ _ _ => rfl
  | draw | download =>
    intro shifts machine other renders
    cases renders with
    | mk placed programs shown => exact .ok rfl (.mk placed programs shown)
  | replacement reason =>
    exact .bind .currentLine fun line => .fail (.replacement reason) line
  | crash => exact fun _ => .throw (.inl rfl)
  | addObject object => exact .addObject object
  | setObject _ object => exact .setObject _ object
  | destroyObject =>
    exact .bind (.trace _) fun _ => .get (fun renders => by rw [renders.heap]) fun _ =>
      .bind (.modify fun _ _ _ _ => rfl) fun _ => .pure _

/-- No function of the library tells renditions apart. -/
theorem Builtin.blind_run (function : Builtin) (args : Args) : (function.run args).Blind respells :=
  (function.routine_run args).blind

end LineScript
