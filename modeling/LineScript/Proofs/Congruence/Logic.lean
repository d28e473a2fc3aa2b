import LineScript.Proofs.Layout.Parts
import LineScript.Proofs.Machine.Margin
import LineScript.Proofs.Run.Guard

/-!
# Logics of evaluation

Two engines that run the same tokens put the same steps together and differ only in what they do at
the parts. What is proved of them is therefore proved along the constructs of the language, and for
every property in the same way. A `Logic` says what has to be known for that: what holds of the steps
that look at values and of chains of steps. The walk over the constructs is made once, for every logic.
A property of a single engine is a logic that looks at one side only.
-/

namespace LineScript

/-- Causes of faults that may point at the end of a line. -/
def RunCause.isLineEnd : RunCause → Bool
  | valueAtLineEnd | inArray _ => true
  | _ => false

/-- The value names no object. -/
def Value.IsFree : Value → Prop
  | handle _ => False
  | _ => True

namespace Value

/-- A number made of a double names no object. -/
theorem isFree_ofFloat (x : Float) : (ofFloat x).IsFree := by
  unfold ofFloat
  split <;> trivial

/-- A parsed number names no object. -/
theorem isFree_parseNumber (text : String) : (parseNumber text).IsFree := by
  unfold parseNumber
  dsimp only
  split
  · trivial
  · split <;> trivial

/-- A negated value names no object. -/
theorem isFree_negate (value : Value) : value.negate.IsFree := by
  unfold negate
  split
  · split <;> trivial
  · exact isFree_ofFloat _

/-- A signed value names no object. -/
theorem isFree_signed (value : Value) : value.signed.IsFree := by
  unfold signed
  split
  · trivial
  · trivial
  · exact isFree_ofFloat _

end Value

/-- What a logic takes for granted of tokens: which of them are evaluated, where statements stand, and
which lines and faults are reported. -/
structure Ground where
  /-- Runs of tokens that hold expressions. -/
  block : TokenBlock → Prop
  /-- Positions of windows at which statements begin. -/
  place : Window → Nat → Prop
  /-- Lines that are reported. -/
  isLine : Nat → Prop
  /-- Faults with which a run may stop. -/
  permits : Fault → Prop
  /-- From one position to another, an expression is read. -/
  Path : Window → Nat → Nat → Prop
  /-- From a position inside a bracket to another one, the bracket is read up to its end. -/
  Inner : Window → Nat → Nat → Prop
  /-- From one position to another, parts of a statement are read. -/
  Course : Window → Nat → Nat → Prop
  /-- The statement that begins at one position may end at another one. -/
  Ends : Window → Nat → Nat → Prop
  /-- Nothing is read from a position to itself. -/
  path_refl : ∀ window pos, Path window pos pos
  /-- What is read after an expression is read with it. -/
  path_trans : ∀ {window : Window} {pos later last : Nat}, Path window pos later →
    Path window later last → Path window pos last
  /-- One token that is no bracket. -/
  path_one : ∀ {window : Window} {pos : Nat} {token : Token}, window.token? pos = some token →
    token.kind.isPlain = true → token.kind.shapesList = false → Path window pos (pos + 1)
  /-- A bracket and what stands in it. -/
  path_brackets : ∀ {window : Window} {pos later : Nat}, window.hasKind pos .lbracket = true →
    Inner window (pos + 1) later → Path window pos later
  /-- The end of a bracket. -/
  inner_bracket : ∀ {window : Window} {pos : Nat} {token : Token}, window.token? pos = some token →
    token.kind = .rbracket → Inner window pos (pos + 1)
  /-- A comma in a bracket. -/
  inner_comma : ∀ {window : Window} {pos last : Nat} {token : Token},
    window.token? pos = some token → token.kind = .separator → Inner window (pos + 1) last →
    Inner window pos last
  /-- An expression in a bracket. -/
  inner_path : ∀ {window : Window} {pos later last : Nat}, Path window pos later →
    Inner window later last → Inner window pos last
  /-- Statements hold expressions. -/
  block_of_place : ∀ {window : Window} {pos : Nat}, place window pos → block window.tokens
  /-- An expression is a part of a statement. -/
  course_path : ∀ {window : Window} {pos later : Nat}, Path window pos later →
    Course window pos later
  /-- Plain tokens are parts of a statement. -/
  course_pass : ∀ {window : Window} {pos later : Nat}, window.Passes pos later →
    Course window pos later
  /-- What is read after parts of a statement is read with them. -/
  course_trans : ∀ {window : Window} {pos later last : Nat}, Course window pos later →
    Course window later last → Course window pos last
  /-- A statement may end behind parts of it. -/
  ends_course : ∀ {window : Window} {pos later : Nat}, place window pos →
    Course window pos later → Ends window pos later
  /-- A token that ends no line stands on one that is reported. -/
  line_of_token : ∀ {window : Window} {pos : Nat} {token : Token}, block window.tokens →
    window.token? pos = some token → token.kind ≠ .eol → isLine token.line
  /-- So does a token that stands in a source. -/
  line_of_pos : ∀ {window : Window} {pos : Nat} {token : Token}, block window.tokens →
    window.token? pos = some token → 0 < token.line → isLine token.line
  /-- A run may stop for every cause that does not point at a broken program. -/
  permits_free : ∀ {cause : RunCause} {line : Nat}, cause.isStructural = false → isLine line →
    permits (.running cause line [])
  /-- A run may stop at the end of a line where a value is missing. -/
  permits_end : ∀ {window : Window} {pos : Nat} {token : Token} {cause : RunCause},
    block window.tokens → window.token? pos = some token → cause.isLineEnd = true →
    permits (.running cause token.line [])
  /-- The parts of a choice. -/
  choice : ∀ {window : Window} {pos : Nat} {opener : Token}, place window pos →
    window.token? pos = some opener → opener.kind = .kwIf →
    match Layout.findThen window.tokens pos window.stop with
    | none => permits (closerFault opener "Then")
    | some found =>
      let lineEnd := Layout.lineEnd window.tokens (found + 1) window.stop
      if Layout.isSingleLineIf window.tokens pos window.stop then
        place (.slice window.tokens (found + 1)
          ((Layout.trailingEndIf window.tokens pos window.stop).getD
            (Layout.statementEnd window.tokens (found + 1) lineEnd))) (found + 1) ∧
        Ends window pos lineEnd
      else
        match choiceBranches window opener pos found with
        | .error fault => permits fault
        | .ok (branches, close) =>
          (∀ branch ∈ branches, place branch.body branch.body.start) ∧
            Ends window pos (close + 1)
  /-- The parts of a selection; its clauses are looked for from a position after its keyword. -/
  selection : ∀ {window : Window} {pos : Nat} {opener : Token} {start : Nat}
    {closer : TokenKind} {name : String}, place window pos →
    window.token? pos = some opener →
    (opener.kind = .kwSwitch ∧ closer = .kwEndSwitch ∨
      opener.kind = .kwSelect ∧ closer = .kwEndSelect) →
    Path window (pos + 1) start →
    match clauses window opener start closer name with
    | .error fault => permits fault
    | .ok (clauses, close) =>
      (∀ clause ∈ clauses, place clause.body clause.body.start) ∧ Ends window pos (close + 1)
  /-- The parts of a loop with its condition first. -/
  whileLoop : ∀ {window : Window} {pos : Nat} {opener : Token}, place window pos →
    window.token? pos = some opener → opener.kind = .kwWhile →
    let header := Layout.statementEnd window.tokens (pos + 1) window.stop
    match (Layout.scanOutermost window.tokens header window.stop
      fun token => token.kind == .kwWEnd).halted with
    | none => permits (closerFault opener "WEnd")
    | some close =>
      place (.slice window.tokens header close) header ∧ Ends window pos (close + 1)
  /-- The parts of a loop with its condition last. -/
  doLoop : ∀ {window : Window} {pos : Nat} {opener : Token}, place window pos →
    window.token? pos = some opener → opener.kind = .kwDo →
    match (Layout.scanOutermost window.tokens (pos + 1) window.stop
      fun token => token.kind == .kwUntil).halted with
    | none => permits (closerFault opener "Until")
    | some close =>
      place (.slice window.tokens (pos + 1) close) (pos + 1) ∧
      Ends window pos (Layout.statementEnd window.tokens (close + 1) window.stop)

/-- What is proved of two actions that are made of the same steps, in a world in which something is
known already. What they return is judged in a later world, in which more may be known. -/
structure Logic extends Ground where
  /-- What may be known. -/
  World : Type
  /-- More is known in a later world. -/
  Leads : World → World → Prop
  /-- What is known of the machine when it is looked at. -/
  Knows : World → Machine → Prop
  /-- Values that may be kept. -/
  Admits : World → Value → Prop
  /-- Variables that may be declared, by their names in small letters. -/
  MayDeclare : World → DeclScope → String → Prop
  /-- The left engine may make fewer rounds. -/
  lax : Prop
  /-- With this flow control leaves the function, and nothing more is done there. -/
  leaves : Flow → Bool
  /-- The two actions go together. The first argument says with which results control leaves. -/
  Gives : ∀ {α : Type}, (α → Bool) → World → Exec α → Exec α → (World → α → Prop) → Prop
  leads_refl : ∀ world, Leads world world
  leads_trans : ∀ {world after last}, Leads world after → Leads after last → Leads world last
  admits_free : ∀ {world value}, value.IsFree → Admits world value
  admits_mono : ∀ {world after value}, Admits world value → Leads world after → Admits after value
  mayDeclare_mono : ∀ {world after target key}, MayDeclare world target key → Leads world after →
    MayDeclare after target key
  /-- After a comma the rest of a list may be declared if the list may. -/
  mayDeclare_comma : ∀ {world target} {window : Window} {pos later : Nat}, Path window pos later →
    window.hasKind later .separator = true →
    (∀ key ∈ window.listed pos, MayDeclare world target key) →
    ∀ key ∈ window.listed (later + 1), MayDeclare world target key
  leaves_out : ∀ {flow}, leaves flow = true → flow = .exit ∨ ∃ value, flow = .returned value
  /-- Both return the same. -/
  pure : ∀ {α : Type} {leaving : α → Bool} {world} {value : α} {post : World → α → Prop},
    (∀ after, Leads world after → post after value) →
    Gives leaving world (Pure.pure value) (Pure.pure value) post
  /-- What follows; where control leaves, nothing but a result does. -/
  follow : ∀ {α β : Type} {leaving : α → Bool} {leavingNext : β → Bool} {world}
    {left right : Exec α} {next other : α → Exec β} {post : World → α → Prop}
    {later : World → β → Prop}, Gives leaving world left right post →
    (∀ after value, Leads world after → post after value → leaving value = false →
      Gives leavingNext after (next value) (other value) later) →
    (∀ after value, Leads world after → post after value → leaving value = true →
      ∃ result, next value = Pure.pure result ∧ other value = Pure.pure result ∧
        leavingNext result = true ∧ ∀ last, Leads after last → later last result) →
    Gives leavingNext world (left >>= next) (right >>= other) later
  /-- Less is claimed of the result. -/
  mono : ∀ {α : Type} {leaving : α → Bool} {world} {left right : Exec α}
    {post weaker : World → α → Prop}, Gives leaving world left right post →
    (∀ after value, Leads world after → post after value → weaker after value) →
    Gives leaving world left right weaker
  /-- Both look at the machine, but not at its margin. -/
  get : ∀ {β : Type} {leaving : β → Bool} {world} {next other : Machine → Exec β}
    {post : World → β → Prop},
    (∀ (machine : Machine) (margin : Margin), other (machine.withMargin margin) = other machine) →
    (∀ after machine, Leads world after → Knows after machine →
      Gives leaving after (next machine) (other machine) post) →
    Gives leaving world (MonadState.get >>= next) (MonadState.get >>= other) post
  /-- Both stop with a permitted fault. -/
  raise : ∀ {α : Type} {leaving : α → Bool} {world} {fault : Fault} {post : World → α → Prop},
    permits fault →
    Gives leaving world (throw (.fault fault) : Exec α) (throw (.fault fault)) post
  /-- Both run out of fuel. -/
  starved : ∀ {α : Type} {leaving : α → Bool} {world} {post : World → α → Prop},
    Gives leaving world (Exec.starved : Exec α) Exec.starved post
  /-- The left one runs out of fuel early. -/
  starve : ∀ {α : Type} {leaving : α → Bool} {world} {left right : Exec α}
    {post : World → α → Prop}, lax → Gives leaving world left right post →
    Gives leaving world Exec.starved right post
  /-- Both read a macro. -/
  macroValue : ∀ {world line} (name : String), isLine line →
    Gives (fun _ => false) world (Machine.macroValue name line) (Machine.macroValue name line) Admits
  /-- Both read a variable. -/
  variableValue : ∀ {world} {token : Token}, isLine token.line →
    Gives (fun _ => false) world (LineScript.variableValue token) (LineScript.variableValue token)
      Admits
  /-- Both read an element. -/
  element : ∀ {world} {window : Window} (pos : Nat) (base key : Value), block window.tokens →
    Gives (fun _ => false) world (LineScript.element window pos base key)
      (LineScript.element window pos base key) Admits
  /-- Both make an array of values that may be kept. -/
  newArray : ∀ {world} {items : Array Value}, (∀ item ∈ items, Admits world item) →
    Gives (fun _ => false) world (Machine.newArray items) (Machine.newArray items) Admits
  /-- Both apply an operator. -/
  combine : ∀ {world line} (operator : String) (first second : Value), isLine line →
    Gives (fun _ => false) world (Exec.ofExcept (Value.combine operator first second line))
      (Exec.ofExcept (Value.combine operator first second line)) Admits
  /-- The statement that is executed stands on a line that is reported. -/
  line_known : ∀ {world} {machine : Machine}, Knows world machine → isLine machine.line
  /-- The arguments of a call hold expressions, and it is made from a line that is reported. -/
  site_known : ∀ {world} {machine : Machine} {id : Nat} {site : CallSite}, Knows world machine →
    machine.program.calls[id]? = some site →
    (∀ arg ∈ site.args, block arg) ∧ isLine site.line
  /-- Calls have entries in the table, or a run may stop for want of one. -/
  site_missing : ∀ {world} {machine : Machine} {window : Window} {pos id line : Nat} {token : Token},
    Knows world machine → block window.tokens → window.token? pos = some token → token.isCall id →
    machine.program.calls[id]? = none → isLine line → permits (.running (.callUnknown id) line [])
  /-- The head of a loop holds expressions, its body statements, and it stands on a line that is
  reported. -/
  loop_known : ∀ {world} {machine : Machine} {id : Nat} {loop : ForLoop}, Knows world machine →
    machine.program.loops[id]? = some loop →
    (∀ tokens ∈ loop.head.blocks, block tokens) ∧ place (.whole loop.body) 0 ∧ isLine loop.line
  /-- Loops have entries in the table, or a run may stop for want of one. -/
  loop_missing : ∀ {world} {machine : Machine} {window : Window} {pos id : Nat} {token : Token},
    Knows world machine → block window.tokens → window.token? pos = some token →
    token.kind = .loop id → machine.program.loops[id]? = none →
    permits (.running (.loopUnknown id) token.line [])
  /-- The members of a collection may be kept. -/
  members_admitted : ∀ {world} {machine : Machine} {collection : Value} {members : List Value},
    Knows world machine → members? machine collection = some members →
    ∀ member ∈ members, Admits world member

namespace Logic

/-- No flow is one with which control leaves, in a logic where it never does. -/
theorem out_of_never {flow : Flow} (never : false = true) :
    flow = .exit ∨ ∃ value, flow = .returned value := by cases never

variable (logic : Logic) {α β : Type} {leaving : α → Bool} {leavingNext : β → Bool}
  {world : logic.World} {left right : Exec α} {next other : α → Exec β}
  {post : logic.World → α → Prop} {later : logic.World → β → Prop}

/-- Two actions that go together, and after which control goes on. -/
abbrev Does (world : logic.World) (left right : Exec α) (post : logic.World → α → Prop) : Prop :=
  logic.Gives (fun _ => false) world left right post

/-- An expression was read from a position on, and its value may be kept. -/
def Reads (window : Window) (pos : Nat) (world : logic.World) (result : Value × Nat) : Prop :=
  logic.Path window pos result.2 ∧ logic.Admits world result.1

/-- The value with which control leaves may be kept. -/
def AdmitsFlow (world : logic.World) (flow : Flow) : Prop :=
  ∀ value, flow = .returned value → logic.Admits world value

variable {logic}

/-- Control that goes on carries no value. -/
theorem admitsFlow_normal : logic.AdmitsFlow world .normal := fun _ never => by cases never

/-- The value with which control leaves may still be kept later. -/
theorem AdmitsFlow.mono {after : logic.World} {flow : Flow} (admits : logic.AdmitsFlow world flow)
    (leads : logic.Leads world after) : logic.AdmitsFlow after flow :=
  fun value same => logic.admits_mono (admits value same) leads

/-- One action after another. -/
theorem bind (first : logic.Does world left right post)
    (rest : ∀ after value, logic.Leads world after → post after value →
      logic.Gives leavingNext after (next value) (other value) later) :
    logic.Gives leavingNext world (left >>= next) (right >>= other) later :=
  logic.follow first (fun after value leads holds _ => rest after value leads holds)
    fun _ _ _ _ never => by cases never

/-- Changing what actions return. -/
theorem map {change : α → β} (first : logic.Does world left right post)
    (holds : ∀ after value, post after value → ∀ last, logic.Leads after last →
      later last (change value)) :
    logic.Gives leavingNext world (change <$> left) (change <$> right) later := by
  rw [map_eq_pure_bind, map_eq_pure_bind]
  exact bind first fun after value _ held => logic.pure (holds after value held)

/-- A change of the result with which control leaves as before. -/
theorem change {result : α → β} (first : logic.Gives leaving world left right post)
    (same : ∀ value, leavingNext (result value) = leaving value)
    (holds : ∀ after value, post after value → ∀ last, logic.Leads after last →
      later last (result value)) :
    logic.Gives leavingNext world (left >>= fun value => Pure.pure (result value))
      (right >>= fun value => Pure.pure (result value)) later :=
  logic.follow first (fun after value _ held _ => logic.pure (holds after value held))
    fun after value _ held away => ⟨_, rfl, rfl, (same value).trans away, holds after value held⟩

/-- What would come after a permitted fault does not matter. -/
theorem raiseFirst {fault : Fault} (permitted : logic.permits fault) :
    logic.Gives leavingNext world ((throw (.fault fault) : Exec α) >>= next)
      ((throw (.fault fault) : Exec α) >>= other) later := by
  have failed : logic.Does world (throw (.fault fault) : Exec α) (throw (.fault fault))
      fun _ _ => False := logic.raise permitted
  exact bind failed fun _ _ _ => False.elim

/-- A failure that does not point at a broken program. -/
theorem failFree {cause : RunCause} {line : Nat} (free : cause.isStructural = false)
    (isLine : logic.isLine line) :
    logic.Gives leaving world (Exec.fail cause line : Exec α) (Exec.fail cause line) post :=
  logic.raise (logic.permits_free free isLine)

/-- A failure at a token that may end a line. -/
theorem failToken {window : Window} {pos : Nat} {token : Token} {cause : RunCause}
    (inside : logic.block window.tokens) (found : window.token? pos = some token)
    (free : cause.isStructural = false) (sure : token.kind ≠ .eol ∨ cause.isLineEnd = true) :
    logic.Gives leaving world (Exec.fail cause token.line : Exec α) (Exec.fail cause token.line)
      post := by
  rcases sure with notEol | isEnd
  · exact failFree free (logic.line_of_token inside found notEol)
  · exact logic.raise (logic.permits_end inside found isEnd)

/-- The line to report at a position is one that may be reported. -/
theorem lineAt {window : Window} (inside : logic.block window.tokens) (pos : Nat) :
    logic.Does world (Exec.lineAt window pos) (Exec.lineAt window pos)
      fun _ line => logic.isLine line := by
  have current : logic.Does world Exec.currentLine Exec.currentLine fun _ line => logic.isLine line :=
    logic.get (fun _ _ => rfl) fun _ _ _ known => logic.pure fun _ _ => logic.line_known known
  unfold Exec.lineAt
  split
  · rename_i token found
    split
    · rename_i positive
      exact logic.pure fun _ _ => logic.line_of_pos inside found positive
    · exact current
  · exact current

/-- A permitted failure at a position. -/
theorem failAt {window : Window} {pos : Nat} {cause : RunCause} (inside : logic.block window.tokens)
    (permitted : ∀ line, logic.isLine line → logic.permits (.running cause line [])) :
    logic.Gives leaving world (Exec.failAt window pos cause : Exec α)
      (Exec.failAt window pos cause) post :=
  bind (lineAt inside pos) fun _ line _ isLine => logic.raise (permitted line isLine)

/-- A failure at a position that does not point at a broken program. -/
theorem failAtFree {window : Window} {pos : Nat} {cause : RunCause}
    (inside : logic.block window.tokens) (free : cause.isStructural = false) :
    logic.Gives leaving world (Exec.failAt window pos cause : Exec α)
      (Exec.failAt window pos cause) post :=
  failAt inside fun _ isLine => logic.permits_free free isLine

/-- The token that was asked for stands at the position. -/
theorem expect {window : Window} (inside : logic.block window.tokens) (pos : Nat) (kind : TokenKind)
    (wanted : String) :
    logic.Does world (Exec.expect window pos kind wanted) (Exec.expect window pos kind wanted)
      fun _ token => window.token? pos = some token ∧ token.kind = kind := by
  unfold Exec.expect
  split
  · rename_i token found
    split
    · rename_i same
      exact logic.pure fun _ _ => ⟨found, same⟩
    · exact failAtFree inside rfl
  · exact failAtFree inside rfl

/-- A loop that makes as many rounds on both sides, or where the logic is lax at most as many on the
left, over whatever it carries from round to round. -/
theorem rounds {ι : Type} (left right : Nat → ι → Exec α) (pre : logic.World → ι → Prop)
    (post : ι → logic.World → α → Prop) (leftZero : ∀ carried, left 0 carried = Exec.starved)
    (rightZero : ∀ carried, right 0 carried = Exec.starved)
    (succ : ∀ fuel more,
      (∀ world carried, pre world carried →
        logic.Gives leaving world (left fuel carried) (right more carried) (post carried)) →
      ∀ world carried, pre world carried →
        logic.Gives leaving world (left (fuel + 1) carried) (right (more + 1) carried) (post carried))
    {fuel more : Nat} (bound : fuel = more ∨ logic.lax ∧ fuel ≤ more) (carried : ι)
    (holds : pre world carried) :
    logic.Gives leaving world (left fuel carried) (right more carried) (post carried) := by
  have equal : ∀ fuel world carried, pre world carried →
      logic.Gives leaving world (left fuel carried) (right fuel carried) (post carried) := by
    intro fuel
    induction fuel with
    | zero =>
      intro world carried _
      rw [leftZero, rightZero]
      exact logic.starved
    | succ fuel ih => exact succ fuel fuel ih
  rcases bound with rfl | ⟨lax, bound⟩
  · exact equal fuel world carried holds
  · induction fuel generalizing more world carried with
    | zero =>
      rw [leftZero]
      exact logic.starve lax (equal more world carried holds)
    | succ fuel ih =>
      cases more with
      | zero => cases bound
      | succ more =>
        exact succ fuel more (fun _ other holds => ih other holds (Nat.le_of_succ_le_succ bound))
          world carried holds

end Logic

/-- A logic that also covers what declarations and assignments do with the values they are given. -/
structure Logic.Writes (logic : Logic) : Prop where
  /-- Both compute what a declaration stores. -/
  declaredValue : ∀ {world} {variable' : Token} (subscripts : Subscripts) {initial : Option Value},
    logic.isLine variable'.line → (∀ value, initial = some value → logic.Admits world value) →
    logic.Does world (LineScript.declaredValue variable' subscripts initial)
      (LineScript.declaredValue variable' subscripts initial) logic.Admits
  /-- Both declare a variable. -/
  declareVariable : ∀ {world} {target : DeclScope} {name : String} {value : Value} (constant : Bool),
    logic.MayDeclare world target (Text.lower name) → logic.Admits world value →
    logic.Does world (Machine.declareVariable target name value constant)
      (Machine.declareVariable target name value constant) fun _ _ => True
  /-- Both set a variable of the innermost scope. -/
  setVariable : ∀ {world} (name : String) {value : Value}, logic.Admits world value →
    logic.Does world (Machine.setVariable name value) (Machine.setVariable name value)
      fun _ _ => True
  /-- Both assign along a path. -/
  assignTo : ∀ {world} {window : Window} (pos : Nat) {variable' : Token} (subscripts : List Value)
    (operator : String) {given : Value}, logic.block window.tokens → logic.isLine variable'.line →
    logic.Admits world given →
    logic.Does world (LineScript.assignTo window pos variable' subscripts operator given)
      (LineScript.assignTo window pos variable' subscripts operator given) fun _ _ => True
  /-- Both introduce a variable. -/
  introduce : ∀ {world} {variable' : Token} (subscripts : Subscripts), logic.isLine variable'.line →
    logic.Does world (LineScript.introduce variable' subscripts)
      (LineScript.introduce variable' subscripts) fun _ _ => True
  /-- Both resize an array. -/
  resize : ∀ {world} {variable' : Token} (sizes : List Value) (first : Value),
    logic.isLine variable'.line →
    logic.Does world (LineScript.resize variable' sizes first)
      (LineScript.resize variable' sizes first) fun _ _ => True

/-- Two engines go together in everything that expressions ask of them. -/
structure Logic.Relates (logic : Logic) (left right : Engine) : Prop where
  /-- They may make the same number of rounds, or the left one fewer where the logic is lax. -/
  fuel : left.fuel = right.fuel ∨ logic.lax ∧ left.fuel ≤ right.fuel
  /-- Terms. -/
  term : ∀ world (window : Window) (pos : Nat), logic.block window.tokens →
    logic.Does world (left.term window pos) (right.term window pos) (logic.Reads window pos)
  /-- Expressions. -/
  value : ∀ world (window : Window) (pos : Nat), logic.block window.tokens →
    logic.Does world (left.value window pos) (right.value window pos) (logic.Reads window pos)
  /-- Calls, from lines that are reported, with arguments that may be kept. -/
  call : ∀ {world} (name : String) {args : List Value} {line : Nat}, logic.isLine line →
    (∀ value ∈ args, logic.Admits world value) →
    logic.Does world (left.call name args line) (right.call name args line) logic.Admits

/-- Two engines go together in everything that statements ask of them. -/
structure Logic.Runs (logic : Logic) (left right : Engine) : Prop extends
    logic.Relates left right where
  /-- Blocks at places of the logic. -/
  block : ∀ {world} {code : Window} {bindings : List (String × Value)}, logic.place code code.start →
    (∀ binding ∈ bindings, logic.Admits world binding.2) →
    logic.Gives logic.leaves world (left.runBlock code bindings) (right.runBlock code bindings)
      logic.AdmitsFlow

end LineScript
