import LineScript.Interpreter.Call
import LineScript.Proofs.Congruence.Control
import LineScript.Proofs.Lines.Basic
import LineScript.Proofs.Machine.Evolution
import LineScript.Proofs.Machine.Handling
import LineScript.Proofs.Program.Tables

/-!
# Evaluating and running on site

What reads and writes values, what evaluates tokens and what runs statements, stops on site.
-/

namespace LineScript

/-!
## Reading and writing on site

Reading and writing variables, registers and objects runs no tokens. What stops it points at the
token that asked for it, at a position of the window that is read, or at the statement: all three are
lines and windows on site.
-/

section

open Machine

/-- What may be reported on site: its lines, and what is found in windows that stand there. -/
def Sites.permit (sites : Sites) : Permit where
  line := sites.isLine
  place _ _ window _ := sites.Covers window.tokens
  object _ := True
  respells := False
  writes := True

namespace Sites.Does

variable {sites : Sites} {α : Type} {line : Nat}

/-- Replacing an object works on site. -/
theorem setObject (id : HandleId) (object : HeapObject) :
    sites.Does (Machine.setObject id object) fun _ => True := aside fun _ => ⟨rfl, rfl, rfl⟩

/-- Changing an object works on site. -/
theorem modifyObject (id : HandleId) (change : HeapObject → HeapObject) :
    sites.Does (Machine.modifyObject id change) fun _ => True := aside fun _ => ⟨rfl, rfl, rfl⟩

/-- Adding an object works on site. -/
theorem addObject (object : HeapObject) :
    sites.Does (Machine.addObject object) fun _ => True := by
  refine .get fun _ _ => andThen ?_ fun _ => (trace _).andThen fun _ => .pure trivial
  exact aside fun _ => ⟨rfl, rfl, rfl⟩

/-- Writing a variable works on site. -/
theorem writeVariable (position : Nat) (name : String) (value : Value) (constant : Bool) :
    sites.Does (Machine.writeVariable position name value constant) fun _ => True := by
  refine .get fun machine stands => ?_
  dsimp only
  split
  · exact fail stands.isLine
  · exact .modify fun machine stands => stands.modifyAt position fun _ => rfl

/-- Assigning a variable works on site. -/
theorem assignVariable (name : String) (value : Value) :
    sites.Does (Machine.assignVariable name value) fun _ => True :=
  .get fun _ _ => writeVariable _ _ _ _

/-- Declaring a variable works on site. -/
theorem declareVariable (scope : DeclScope) (name : String) (value : Value) (constant : Bool) :
    sites.Does (Machine.declareVariable scope name value constant) fun _ => True :=
  .get fun _ _ => writeVariable _ _ _ _

/-- Handling values works on site where the lines and the windows that may be reported are on site. -/
theorem of_permitted {permit : Permit} {own action : Exec α}
    (handling : Exec.Handling permit own action)
    (lines : ∀ line, permit.line line → sites.isLine line)
    (places : ∀ {near window : Window} {place pos : Nat}, permit.place near place window pos →
      sites.Covers window.tokens) : sites.Does action fun _ => True := by
  induction handling with
  | pure => exact .pure trivial
  | bind _ _ first rest => exact (first lines places).andThen fun value => rest value lines places
  | look _ _ rest =>
    refine .get fun machine stands => rest machine (fun line known => ?_) places
    rcases known with known | rfl
    · exact lines line known
    · exact stands.isLine
  | fail _ _ known => exact .fail (lines _ known)
  | failAt _ placed => exact .failAt (places placed)
  | crash => exact .throw trivial
  | addObject object => exact .addObject object
  | setObject _ object => exact .setObject _ object
  | modifyObject _ change => exact .modifyObject _ change
  | assignVariable _ name value => exact .assignVariable name value

/-- Everything that is done with values on site works on site. -/
theorem handles {action : Exec α} (handling : Exec.Handling sites.permit action action) :
    sites.Does action fun _ => True := of_permitted handling (fun _ => id) id

/-- Changing the registers works on site. -/
theorem modifyRegisters (change : Registers → Registers) :
    sites.Does (Machine.modifyRegisters change) fun _ => True :=
  .modify fun _ stands => stands.modifyAt _ fun _ => rfl

/-- Moving the cursor works on site. -/
theorem moveTo (pos : Nat) : sites.Does (LineScript.moveTo pos) fun _ => True := by
  refine .modify fun machine stands => ?_
  rw [Stack.modifyTop_eq_modifyAt]
  exact stands.modifyAt 0 fun _ => rfl

/-- The innermost scope runs tokens on site. -/
theorem topScope : sites.Does LineScript.topScope fun scope => sites.Covers scope.code.tokens :=
  .get fun _ stands => .pure stands.top

/-- Looking for the end of a line works on site. -/
theorem atLineEnd : sites.Does LineScript.atLineEnd fun _ => True :=
  topScope.bind fun _ _ => .pure trivial

/-- Expecting the end of a line works on site. -/
theorem expectLineEnd : sites.Does LineScript.expectLineEnd fun _ => True := by
  refine topScope.bind fun scope covers => ?_
  split
  · rename_i token found
    split
    · exact .pure trivial
    · rename_i goesOn
      exact fail ((covers_token covers found).isLine (ne_eol_of_endsLine goesOn))
  · exact .pure trivial

/-- Checking a number of arguments works on site. -/
theorem checkArity (name : String) (greatest required given : Nat) (isLine : sites.isLine line) :
    sites.Does (LineScript.checkArity name greatest required given line) fun _ => True := by
  unfold LineScript.checkArity
  split
  · exact fail isLine
  · split
    · exact fail isLine
    · exact .pure trivial

end Sites.Does

end

/-!
## The logic of sites

What evaluates tokens that stand on site, and what runs them, works on site when the engine it asks does.
A word whose partner is missing ends no line, and a call is made from the line of its name.
-/

namespace Sites

variable {sites : Sites}

/-- The arguments of a call stand on site, and so does its name. -/
theorem Stands.site {idle : Prop} {machine : Machine} (stands : sites.Stands idle machine)
    {id : Nat} {site : CallSite} (stored : machine.program.calls[id]? = some site) :
    (∀ arg ∈ site.args, sites.Covers arg) ∧ sites.isLine site.line :=
  ⟨fun _ member => stands.program.blocks _ (Program.mem_blocks_arg stored member),
    isLine_of_anchored (stands.program.calls site (Array.mem_of_getElem? stored))⟩

/-- The tokens of a loop stand on site, and so does its first word. -/
theorem Stands.loop {idle : Prop} {machine : Machine} (stands : sites.Stands idle machine)
    {id : Nat} {loop : ForLoop} (stored : machine.program.loops[id]? = some loop) :
    (∀ block ∈ loop.blocks, sites.Covers block) ∧ sites.isLine loop.line :=
  ⟨fun _ member => stands.program.blocks _ (Program.mem_blocks_loop stored member),
    isLine_of_anchored (stands.program.loops loop (Array.mem_of_getElem? stored))⟩

/-- A fault that stops the splitting of a choice points at one of its words. -/
theorem permits_choiceBranches {window : Window} {opener : Token} {pos found : Nat} {fault : Fault}
    (covers : sites.Covers window.tokens) (isLine : sites.isLine opener.line)
    (failed : choiceBranches window opener pos found = .error fault) :
    sites.Permits (.fault fault) := by
  rcases choiceBranches_fault failed with ⟨_, rfl⟩ | ⟨marker, _, token, stored, isElseIf, _, rfl⟩
  · exact permits_running isLine
  · have holds := covers token (Array.mem_toList_iff.mpr (Array.mem_of_getElem? stored))
    exact permits_running (holds.isLine (by rw [isElseIf]; nofun))

/-- A fault that stops the splitting of a selection points at its first word or at one that stands
before its clauses and ends no line. -/
theorem permits_clauses {window : Window} {opener : Token} {start : Nat} {closer : TokenKind}
    {name : String} {fault : Fault} (covers : sites.Covers window.tokens)
    (isLine : sites.isLine opener.line)
    (failed : clauses window opener start closer name = .error fault) :
    sites.Permits (.fault fault) := by
  unfold clauses at failed
  dsimp only at failed
  repeat' split at failed
  all_goals cases failed
  · exact permits_running isLine
  · rename_i token stored
    have holds := covers token (Array.mem_toList_iff.mpr (Array.mem_of_getElem? stored))
    have goesOn := Layout.accept_seek ‹_› stored
    exact permits_running (holds.isLine (ne_eol_of_endsLine (by simpa using goesOn)))

/-- A line end may be to blame for a missing value. -/
theorem permits_lineEnd {token : Token} {cause : RunCause} (holds : sites.Holds token)
    (isEnd : cause.isLineEnd = true) :
    sites.Permits (.fault (.running cause token.line [])) := by
  rcases holds with isLine | ⟨gaps, rfl⟩
  · exact permits_running isLine
  · exact ⟨⟨.inr ⟨gaps, rfl, isEnd⟩, nofun⟩, rfl⟩

variable (sites)

/-- Tokens that stand on site, and faults that are permitted there. -/
def ground : Ground where
  block := sites.Covers
  place window _ := sites.Covers window.tokens
  isLine := sites.isLine
  permits fault := sites.Permits (.fault fault)
  Path _ _ _ := True
  Inner _ _ _ := True
  Course _ _ _ := True
  Ends _ _ _ := True
  path_refl _ _ := trivial
  path_trans _ _ := trivial
  path_one _ _ _ := trivial
  path_brackets _ _ := trivial
  inner_bracket _ _ := trivial
  inner_comma _ _ _ := trivial
  inner_path _ _ := trivial
  block_of_place covers := covers
  course_path _ := trivial
  course_pass _ := trivial
  course_trans _ _ := trivial
  ends_course _ _ := trivial
  line_of_token covers found := (covers_token covers found).isLine
  line_of_pos covers found := (covers_token covers found).isLine_of_pos
  permits_free _ := permits_running
  permits_end covers found := permits_lineEnd (covers_token covers found)
  choice {window pos opener} covers found isChoice := by
    have isLine := (covers_token covers found).isLine (by rw [isChoice]; nofun)
    split
    · exact permits_running isLine
    · dsimp only
      split
      · exact ⟨covers, trivial⟩
      · split
        · rename_i failed
          exact permits_choiceBranches covers isLine failed
        · rename_i made
          refine ⟨fun branch member => ?_, trivial⟩
          rw [(choiceBranches_isOf made branch member).1]
          exact covers
  selection {window pos opener start closer name} covers found isSelection _ := by
    have isLine := (covers_token covers found).isLine (by
      rcases isSelection with ⟨kind, _⟩ | ⟨kind, _⟩ <;> rw [kind] <;> nofun)
    split
    · rename_i failed
      exact permits_clauses covers isLine failed
    · rename_i made
      refine ⟨fun clause member => ?_, trivial⟩
      rw [(clauses_isOf made clause member).1]
      exact covers
  whileLoop {window pos opener} covers found isLoop := by
    dsimp only
    split
    · exact permits_running ((covers_token covers found).isLine (by rw [isLoop]; nofun))
    · exact ⟨covers, trivial⟩
  doLoop {window pos opener} covers found isLoop := by
    split
    · exact permits_running ((covers_token covers found).isLine (by rw [isLoop]; nofun))
    · exact ⟨covers, trivial⟩

/-- Actions that work on site, looked at for one engine only. -/
def logic : Logic where
  toGround := sites.ground
  World := Unit
  Leads _ _ := True
  Knows _ machine := sites.Stands False machine
  Admits _ _ := True
  MayDeclare _ _ _ := True
  lax := False
  leaves _ := false
  Gives _ world _ right post := sites.Does right (post world)
  leads_refl _ := trivial
  leads_trans _ _ := trivial
  admits_free _ := trivial
  admits_mono _ _ := trivial
  mayDeclare_mono _ _ := trivial
  mayDeclare_comma _ _ _ _ _ := trivial
  leaves_out := Logic.out_of_never
  pure holds := .pure (holds () trivial)
  follow {_ _ leaving} _ _ _ _ _ _ _ _ first rest out := first.bind fun value held => by
    cases away : leaving value with
    | false => exact rest () value trivial held away
    | true =>
      obtain ⟨result, _, same, _, holds⟩ := out () value trivial held away
      rw [same]
      exact .pure (holds () trivial)
  mono gives weaker := gives.mono fun value held => weaker () value trivial held
  get _ rest := .get fun machine stands => rest () machine trivial stands
  raise permitted := .throw permitted
  starved := .starved
  starve := False.elim
  macroValue _ isLine := .handles (.macroValue rfl (.inl rfl) isLine)
  variableValue isLine := .handles (.variableValue (.refl isLine))
  element _ _ _ covers := .handles (.element covers _ _)
  newArray _ := .handles (.newArray _)
  combine _ _ _ isLine := .handles (.combine isLine _ _ _)
  line_known stands := stands.isLine
  site_known stands stored := stands.site stored
  site_missing _ _ _ _ _ isLine := permits_running isLine
  loop_known {_ machine id loop} stands stored := by
    obtain ⟨covers, isLine⟩ := stands.loop stored
    obtain ⟨body, heads⟩ := List.forall_mem_cons.mp covers
    exact ⟨heads, body, isLine⟩
  loop_missing _ covers found isLoop _ :=
    permits_running ((covers_token covers found).isLine (by rw [isLoop]; nofun))
  members_admitted _ _ _ _ := trivial

/-- Declarations and assignments work on site. -/
theorem writes : sites.logic.Writes where
  declaredValue _ _ named _ := Does.handles (.declaredValue (.refl named) _ _)
  declareVariable _ _ _ := Does.declareVariable _ _ _ _
  setVariable _ _ _ := Does.writeVariable _ _ _ _
  assignTo _ _ _ _ _ covers named _ :=
    Does.handles (.assignTo (.refl named) trivial (fun _ => trivial) covers _ _ _)
  introduce _ named := Does.handles (.introduce (.refl named) trivial _)
  resize _ _ named := Does.handles (.resize (.refl named) trivial _ _)

variable {sites}

/-- What goes along with the logic of sites works on site. -/
theorem Does.of_gives {α : Type} {leaving : α → Bool} {left right : Exec α} {post : Unit → α → Prop}
    (gives : sites.logic.Gives leaving () left right post) : sites.Does right (post ()) := gives

end Sites

/-- The engine works on site: on windows of tokens that stand on site, and for calls from lines. -/
structure Engine.OnSite (low : Engine) (sites : Sites) : Prop where
  /-- Terms. -/
  term : ∀ {window : Window} (pos : Nat), sites.Covers window.tokens →
    sites.Does (low.term window pos) fun _ => True
  /-- Expressions. -/
  value : ∀ {window : Window} (pos : Nat), sites.Covers window.tokens →
    sites.Does (low.value window pos) fun _ => True
  /-- Calls. -/
  call : ∀ (name : String) (args : List Value) {line : Nat}, sites.isLine line →
    sites.Does (low.call name args line) fun _ => True
  /-- Scopes. -/
  runScope : sites.Does low.runScope fun _ => True

namespace Engine.OnSite

variable {sites : Sites} {low : Engine} (onSite : low.OnSite sites) {window : Window}
include onSite

/-- An engine that works on site goes along with the logic of sites in what it evaluates. -/
theorem relates : sites.logic.Relates low low where
  fuel := .inl rfl
  term _ _ pos covers := (onSite.term pos covers).mono fun _ _ => ⟨trivial, trivial⟩
  value _ _ pos covers := (onSite.value pos covers).mono fun _ _ => ⟨trivial, trivial⟩
  call _ _ _ isLine _ := onSite.call _ _ isLine

/-- Reading a term works on site. -/
theorem evalTerm (covers : sites.Covers window.tokens) (pos : Nat) :
    sites.Does (low.evalTerm window pos) fun _ => True :=
  (Sites.Does.of_gives (onSite.relates.evalTerm covers pos)).mono fun _ _ => trivial

/-- Evaluating an expression works on site. -/
theorem evalValue (covers : sites.Covers window.tokens) (pos : Nat) :
    sites.Does (low.evalValue window pos) fun _ => True :=
  (Sites.Does.of_gives (onSite.relates.evalValue covers pos)).mono fun _ _ => trivial

/-- Binding parameters works on site. -/
theorem bindParams (function : UserFunction) {line : Nat} (isLine : sites.isLine line)
    {params : List Param}
    (covers : ∀ param ∈ params, ∀ block, param.fallback = some block → sites.Covers block)
    (args : List Value) : sites.Does (low.bindParams function line params args) fun _ => True :=
  .of_gives (onSite.relates.bindParams sites.writes function isLine covers fun _ _ => trivial)

/-- Running a block works on site. -/
theorem runBlock {code : Window} (covers : sites.Covers code.tokens)
    (bindings : List (String × Value) := []) :
    sites.Does (low.runBlock code bindings) fun _ => True :=
  (Sites.Does.inScope covers onSite.runScope).bind fun _ permits => .ofAttempt permits

/-- So it does in the blocks it runs. -/
theorem runs : sites.logic.Runs low low where
  toRelates := onSite.relates
  block covers _ := (onSite.runBlock covers _).mono fun _ _ _ _ => trivial

/-- A statement works on site. -/
theorem statement (covers : sites.Covers window.tokens) (pos : Nat) :
    sites.Does (low.statement window pos) fun _ => True :=
  (Sites.Does.of_gives (onSite.runs.statement sites.writes covers fun _ _ _ => trivial)).mono
    fun _ _ => trivial

end Engine.OnSite

end LineScript
