import LineScript.Proofs.Blocks.Pairing
import LineScript.Proofs.Run.Engine

/-!
# Cursors stay in their window

What is read from a position of a window on ends in the window, and not before that position. So it
is with expressions, with whole statements and with every step that goes on: no position is ever
behind the end of its window, and none is left of the one that reading began at.
-/

namespace LineScript

/-- The position is not before the first one, and not behind the end of the window. -/
structure Window.Keeps (window : Window) (first pos : Nat) : Prop where
  /-- It is not before the first one. -/
  le : first ≤ pos
  /-- It is not behind the end of the window. -/
  stop : pos ≤ window.stop

variable {window : Window} {pos last : Nat}

namespace Window

/-- A position kept from a later start is kept from an earlier one. -/
theorem Keeps.later {first : Nat} (keeps : window.Keeps pos last) (le : first ≤ pos) :
    window.Keeps first last := ⟨Nat.le_trans le keeps.le, keeps.stop⟩

/-- A token of the window is passed. -/
theorem keeps_next {token : Token} (found : window.token? pos = some token) :
    window.Keeps pos (pos + 1) := ⟨Nat.le_succ pos, (token?_eq_some.mp found).1⟩

/-- Tokens of the window are passed. -/
theorem Passes.keeps (passes : window.Passes pos last) (inside : pos ≤ window.stop) :
    window.Keeps pos last := by
  refine ⟨passes.le, ?_⟩
  rcases Nat.eq_or_lt_of_le passes.le with rfl | before
  · exact inside
  · obtain ⟨token, found, _⟩ := passes.plain (last - 1) (by omega) (by omega)
    have := (token?_eq_some.mp found).1
    omega

end Window

/-- A scan that halts does so between its start and the end of the window. -/
theorem Layout.scan_keeps {halt : Token → Bool} {start close : Nat}
    (halted : (scanOutermost window.tokens start window.stop halt).halted = some close) :
    window.Keeps start close ∧ window.Keeps start (close + 1) := by
  have after := (le_scanFrom halt window.tokens window.stop start 0 none).2 close halted
  have before := (scanFrom_within halt window.tokens window.stop start 0 none).halted close halted
  exact ⟨⟨after, Nat.le_of_lt before.1⟩, ⟨Nat.le_succ_of_le after, before.1⟩⟩

/-- The end of a statement or of a line stands in the window. -/
theorem Layout.seek_keeps (accept : Token → Bool) (inside : pos ≤ window.stop) :
    window.Keeps pos (seek accept window.tokens pos window.stop) :=
  ⟨le_seek _ _ _ _, seek_le _ _ inside⟩

/-- Nothing that is looked for from a position up to a stop is found before the one or behind the
other, and no token on the way is missing. -/
structure Layout.Stays (tokens : TokenBlock) (pos stop : Nat) : Prop where
  /-- The ends of lines and of statements are not outside. -/
  ends : ∀ accept, pos ≤ seek accept tokens pos stop ∧ seek accept tokens pos stop ≤ stop
  /-- Unless it is the stop, what was looked for stands there. -/
  found : ∀ accept, seek accept tokens pos stop = stop ∨
    ∃ token, tokens[seek accept tokens pos stop]? = some token ∧ accept token = true
  /-- The end of a condition is inside. -/
  condition : ∀ last, findThen tokens pos stop = some last → pos < last ∧ last < stop
  /-- The closing word of a choice on one line is inside. -/
  closing : ∀ last, trailingEndIf tokens pos stop = some last → pos < last ∧ last < stop
  /-- All that a scan visits is inside. -/
  visited : ∀ halt, ∀ at' ∈ (scanOutermost tokens pos stop halt).visited, pos ≤ at' ∧ at' < stop
  /-- What a scan halts at is inside. -/
  halted : ∀ halt close, (scanOutermost tokens pos stop halt).halted = some close →
    pos ≤ close ∧ close < stop

/-- A search in stored tokens stays within its bounds. -/
theorem Layout.stays {tokens : TokenBlock} {stop : Nat} (inside : pos ≤ stop)
    (stored : stop ≤ tokens.size) : Stays tokens pos stop where
  ends accept := ⟨le_seek _ _ _ _, seek_le _ _ inside⟩
  found accept := by
    rcases Nat.eq_or_lt_of_le (seek_le accept tokens inside) with same | before
    · exact .inl same
    · have present := Array.getElem?_eq_getElem (Nat.lt_of_lt_of_le before stored)
      exact .inr ⟨_, present, accept_seek before present⟩
  condition _ ends := ⟨lt_of_findThen ends, (findThen_eq_some.mp ends).2.1⟩
  closing last trailing := by
    obtain ⟨_, _, ending, before, _⟩ := trailingEndIf_eq_some.mp trailing
    have := seek_le Token.endsLine tokens inside
    unfold statementEnd at ending
    exact ⟨before, by omega⟩
  visited halt at' member :=
    ⟨(le_scanFrom halt tokens stop pos 0 none).1 at' member,
      (scanFrom_within halt tokens stop pos 0 none).visited at' member⟩
  halted halt close halts :=
    ⟨(le_scanFrom halt tokens stop pos 0 none).2 close halts,
      ((scanFrom_within halt tokens stop pos 0 none).halted close halts).1⟩

/-- The word that ends a choice over several lines stands in the window. -/
theorem choiceBranches_keeps {opener : Token} {found close : Nat} {branches : List Branch}
    (made : choiceBranches window opener pos found = .ok (branches, close)) :
    window.Keeps (found + 1) (close + 1) := by
  unfold choiceBranches at made
  dsimp only at made
  split at made
  · cases made
  · rename_i halted
    obtain ⟨others, _, same⟩ := bind_eq_ok.mp made
    cases same
    exact (Layout.scan_keeps halted).2

/-- The word that ends a selection stands in the window. -/
theorem clauses_keeps {opener : Token} {start close : Nat} {closer : TokenKind} {name : String}
    {parts : List Clause} (made : clauses window opener start closer name = .ok (parts, close)) :
    window.Keeps start (close + 1) := by
  unfold clauses at made
  dsimp only at made
  split at made
  · cases made
  · rename_i halted
    have keeps := (Layout.scan_keeps halted).2
    repeat' split at made
    all_goals cases made
    all_goals exact keeps

/-- After a step the innermost scope stands in its window, unless control leaves the scope; and no
step is left only where there is no token. -/
def StepResult.Keeps (before after : Machine) : StepResult → Prop
  | goOn => after.stack.top.code = before.stack.top.code ∧
    before.stack.top.code.Keeps before.stack.top.pos after.stack.top.pos
  | ended => after = before ∧ before.stack.top.current? = none
  | leave flow => flow ≠ .normal

/-!
## Expressions and statements
-/

variable {program : Program}

namespace Guard

/-- A run that is free may stop with every fault. -/
theorem free_permits (fault : Fault) : (Guard.free program).ground.permits fault :=
  Stop.isAllowed_true fault

/-- Free ground on which it is known of a statement that it ends in its window, if it begins there. -/
def cursorGround (program : Program) : Ground :=
  { (Guard.free program).ground with
    Ends := fun window pos later => pos ≤ window.stop → window.Keeps pos later
    ends_course := fun _ read => read.keeps
    choice := by
      intro window pos opener _ _ _
      split
      · exact free_permits _
      · rename_i ending ends
        have next : pos ≤ ending + 1 := Nat.le_succ_of_le (Nat.le_of_lt (Layout.lt_of_findThen ends))
        split
        · refine ⟨trivial, fun _ => ?_⟩
          exact (Layout.seek_keeps _ (Layout.findThen_eq_some.mp ends).2.1).later next
        · split
          · exact free_permits _
          · rename_i made
            exact ⟨fun _ _ => trivial, fun _ => (choiceBranches_keeps made).later next⟩
    selection := by
      intro window pos opener start closer name _ _ _ read
      split
      · exact free_permits _
      · rename_i made
        exact ⟨fun _ _ => trivial, fun _ =>
          (clauses_keeps made).later (Nat.le_of_succ_le read.le)⟩
    whileLoop := by
      intro window pos opener _ _ _
      dsimp only
      split
      · exact free_permits _
      · rename_i halted
        have after := Layout.le_seek Token.endsLine window.tokens (pos + 1) window.stop
        exact ⟨trivial, fun _ =>
          (Layout.scan_keeps halted).2.later (Nat.le_of_succ_le after)⟩
    doLoop := by
      intro window pos opener _ _ _
      split
      · exact free_permits _
      · rename_i close halted
        have closed := (Layout.scan_keeps halted).2
        have after : pos ≤ close + 1 := Nat.le_of_succ_le closed.le
        exact ⟨trivial, fun _ => (Layout.seek_keeps Token.endsLine closed.stop).later after⟩ }

/-- The logic of a free guard on that ground. -/
def cursor (program : Program) : Logic :=
  { (Guard.free program).logic with toGround := cursorGround program }

/-- It covers declarations and assignments as the logic of the guard does. -/
theorem cursor_writes : (Guard.cursor program).Writes where
  declaredValue _ _ _ _ := Does.handles (.declaredValue (.refl trivial) _ _)
  declareVariable _ _ _ := Does.declareVariable _ _ _ _
  setVariable _ _ _ := Does.setVariable _ _
  assignTo _ _ _ _ _ _ _ _ :=
    Does.handles (.assignTo (.refl trivial) trivial (fun _ => trivial) trivial _ _ _)
  introduce _ _ := Does.handles (.introduce (.refl trivial) trivial _)
  resize _ _ _ := Does.handles (.resize (.refl trivial) trivial _ _)

end Guard

namespace Engine.Obeys

variable {low : Engine} (obeys : low.Obeys (Guard.free program))
include obeys

/-- What obeys a free guard goes along with that logic. -/
theorem cursor : (Guard.cursor program).Runs low low where
  fuel := .inl rfl
  term _ window pos _ := (obeys.term window pos trivial).mono fun _ read => ⟨read, trivial⟩
  value _ window pos _ := (obeys.value window pos trivial).mono fun _ read => ⟨read, trivial⟩
  call _ _ _ _ _ := obeys.call _ _ _
  block _ _ := (obeys.runBlock trivial _).mono fun _ _ _ _ => trivial

/-- An expression ends in its window. -/
theorem value_keeps (inside : pos ≤ window.stop) :
    (Guard.free program).Does (low.value window pos) fun result => window.Keeps pos result.2 :=
  (obeys.value window pos trivial).mono fun _ read => read.keeps inside

/-- A statement ends in its window. -/
theorem statement_keeps (inside : pos ≤ window.stop) :
    (Guard.free program).Does (low.statement window pos) fun result =>
      window.Keeps pos result.2 := by
  have ran : (Guard.free program).Does (low.statement window pos) fun result =>
      (Guard.cursor program).Ran window pos () result :=
    obeys.cursor.statement Guard.cursor_writes trivial fun _ _ _ => trivial
  exact ran.mono fun _ held => held.1 inside

omit obeys in
/-- Going past a function stops at the end of the window at the latest. -/
theorem skipFunction_keeps {machine : Machine}
    (inside : machine.stack.top.pos ≤ machine.stack.top.code.stop) :
    (Guard.free program).Ends machine skipFunction fun _ after =>
      machine.stack.top.code.Keeps machine.stack.top.pos after.stack.top.pos := by
  have after := Layout.le_seek (fun token => token.kind == .kwEndFunc)
    machine.stack.top.code.tokens machine.stack.top.pos machine.stack.top.code.stop
  refine .topScope (Guard.Ends.mono (.moveTo _) fun _ last _ top => ?_)
  rw [top]
  exact ⟨Nat.le_min.mpr ⟨Nat.le_succ_of_le after, inside⟩, Nat.min_le_right _ _⟩

omit obeys in
/-- A function that stands among statements is gone past. -/
theorem step_func {machine : Machine} {token : Token}
    (found : machine.stack.top.current? = some token) (isFunc : token.kind = .kwFunc) :
    (Guard.free program).Ends machine low.step fun result after => result = .goOn ∧
      machine.stack.top.code.Keeps machine.stack.top.pos after.stack.top.pos := by
  have read := Window.keeps_next found
  have run (middle : Machine) (code : middle.stack.top.code = machine.stack.top.code)
      (stands : middle.stack.top.pos = machine.stack.top.pos + 1) :
      (Guard.free program).Ends middle (low.runToken token) fun result after => result = .goOn ∧
        machine.stack.top.code.Keeps machine.stack.top.pos after.stack.top.pos := by
    have inside : middle.stack.top.pos ≤ middle.stack.top.code.stop := by
      rw [code, stands]
      exact read.stop
    unfold Engine.runToken
    rw [isFunc]
    refine .bind (skipFunction_keeps inside) fun _ last _ keeps => ?_
    refine .bind .expectLineEnd fun _ after _ held => .pure ⟨rfl, ?_⟩
    rw [held.1]
    rw [code, stands] at keeps
    exact keeps.later read.le
  unfold Engine.step
  refine .topScope ?_
  rw [found]
  refine .bind (.moveTo _) fun _ middle evolves top => ?_
  dsimp only
  split
  · exact .bind (.modify (.aside rfl rfl rfl ⟨rfl, rfl⟩)) fun _ after _ changed =>
      run after (by rw [changed, top]) (by rw [changed, top])
  · exact run middle (by rw [top]) (by rw [top])

/-- A step leaves the innermost scope in its window, unless control leaves the scope. -/
theorem step_keeps {machine : Machine} (same : machine.program = program)
    (inside : machine.stack.top.pos ≤ machine.stack.top.code.stop) :
    (Guard.free program).Ends machine low.step fun result after =>
      result.Keeps machine after := by
  cases found : machine.stack.top.current? with
  | none =>
    unfold Engine.step
    refine .topScope ?_
    rw [found]
    exact .pure ⟨rfl, found⟩
  | some token =>
    by_cases isFunc : token.kind = .kwFunc
    · refine (step_func found isFunc).mono fun result after evolves ended => ?_
      obtain ⟨rfl, keeps⟩ := ended
      exact ⟨evolves.top_code, keeps⟩
    · have stepped := obeys.step_token same rfl rfl trivial found (obeys.statement_keeps inside)
        (fun _ => Window.keeps_next found) (fun read => read.keeps inside)
        fun kind => absurd kind isFunc
      refine stepped.mono fun result after evolves ended => ?_
      rcases ended with ⟨flow, rfl, leaves⟩ | ⟨rfl, keeps, _⟩
      · exact leaves
      · exact ⟨evolves.top_code, keeps⟩

end Engine.Obeys

end LineScript
