import LineScript.Proofs.Rendition.Engine
import LineScript.Proofs.Views.Cursor

/-!
# A block depends on its window only

Two windows show the same tokens when one stands a fixed number of positions further on than the
other (`View`). Everything that is looked for in the layout is found in both, at places that
correspond, whatever stands around the windows; and it is found inside them. Running the tokens of a
window inside a longer run does what running them alone does: the flow, the fault with its line and
trace, and the machine that is left are the same. So it is with expressions and statements at every
position of the window.
-/

namespace LineScript

/-- A window, and one that shows the same tokens `shift` positions further on. -/
structure View where
  /-- The first window. -/
  near : Window
  /-- The window further on. -/
  far : Window
  /-- How far it is. -/
  shift : Nat
  /-- The windows begin at places that correspond. -/
  start : far.start = shift + near.start
  /-- They end at places that correspond. -/
  stop : far.stop = shift + near.stop
  /-- The same tokens stand in them. -/
  stored : ∀ pos, pos < near.stop → far.tokens[shift + pos]? = near.tokens[pos]?
  /-- A part of them is cut off by the ends of both runs or by none. -/
  ends : ∀ pos, pos ≤ near.stop →
    min (shift + pos) far.tokens.size = shift + min pos near.tokens.size

namespace View

/-- The end of a part lies as far behind its start as it is long. -/
theorem part_stop {first last size : Nat} (ordered : first ≤ last) (inside : last ≤ size) :
    min last size = first + (min last size - first) := by omega

/-- A position of a part is the start and the position within it. -/
theorem part_ends {first last size pos : Nat} (ordered : first ≤ last) (inside : last ≤ size)
    (le : pos ≤ min last size - first) :
    min (first + pos) size = first + min pos (min last size - first) := by omega

/-- A part of a run, taken out of it, and the same part in its place. -/
def part (tokens : TokenBlock) {first last : Nat} (ordered : first ≤ last)
    (inside : last ≤ tokens.size) : View where
  near := .whole (tokens.extract first last)
  far := .slice tokens first last
  shift := first
  start := rfl
  stop := by
    simp only [Window.slice, Window.whole, Array.size_extract]
    exact part_stop ordered inside
  stored pos before := by
    simp only [Window.whole, Array.size_extract] at before
    simp only [Window.slice, Window.whole, Array.getElem?_extract]
    rw [if_pos before]
  ends pos le := by
    simp only [Window.whole, Window.slice, Array.size_extract] at le ⊢
    exact part_ends ordered inside le

variable (view : View)

/-- The window further on shows the near one. -/
theorem copies : view.near.Copies False view.shift view.far where
  start := view.start
  stop := view.stop
  stored pos inside := by
    rw [view.stored pos inside]
    cases view.near.tokens[pos]? with
    | none => exact .inl ⟨rfl, rfl⟩
    | some token => exact .inr ⟨token, token, rfl, rfl, .inl rfl⟩
  ends := view.ends

/-- What is looked for in the layout is found in both windows, at places that correspond. -/
structure Searches : Prop where
  /-- The ends of lines and of statements. -/
  seek : ∀ accept pos, Layout.seek accept view.far.tokens (view.shift + pos) view.far.stop =
    view.shift + Layout.seek accept view.near.tokens pos view.near.stop
  /-- The ends of conditions. -/
  findThen : ∀ pos, Layout.findThen view.far.tokens (view.shift + pos) view.far.stop =
    (Layout.findThen view.near.tokens pos view.near.stop).map (view.shift + ·)
  /-- Choices on one line. -/
  isSingleLineIf : ∀ pos, Layout.isSingleLineIf view.far.tokens (view.shift + pos) view.far.stop =
    Layout.isSingleLineIf view.near.tokens pos view.near.stop
  /-- The closing words that they may have. -/
  trailingEndIf : ∀ pos, pos < view.near.stop →
    Layout.trailingEndIf view.far.tokens (view.shift + pos) view.far.stop =
      (Layout.trailingEndIf view.near.tokens pos view.near.stop).map (view.shift + ·)
  /-- The openings of blocks. -/
  opensBlock : ∀ pos, pos < view.near.stop →
    Layout.opensBlock view.far.tokens (view.shift + pos) view.far.stop =
      Layout.opensBlock view.near.tokens pos view.near.stop
  /-- The outermost tokens. -/
  scanOutermost : ∀ halt pos,
    Layout.scanOutermost view.far.tokens (view.shift + pos) view.far.stop halt =
      (Layout.scanOutermost view.near.tokens pos view.near.stop halt).shifted view.shift

/-- The tokens look the same to whatever looks at one at a time. -/
theorem agree {α : Type} (look : Token → α) :
    Layout.Agree look view.near.tokens view.far.tokens view.shift view.near.stop :=
  fun pos inside => by rw [view.stored pos inside]

/-- All searches of a view correspond. -/
theorem searches : view.Searches where
  seek accept pos := view.stop ▸ (view.agree accept).seek (Nat.le_refl _) pos
  findThen := view.copies.findThen
  isSingleLineIf := view.copies.isSingleLineIf
  trailingEndIf _ inside := view.copies.trailingEndIf inside
  opensBlock _ inside := view.stop ▸ view.copies.kinds.opensBlock (Nat.le_refl _) inside
  scanOutermost halt pos :=
    view.stop ▸ view.copies.kinds.scanFrom (Nat.le_refl _) (view.agree halt) pos 0 none

end View

/-- Actions that do the same to a machine, which is the only one that shows it in place, are the same. -/
theorem Exec.Echoes.eq {α : Type} {left right : Exec α} (echoes : Echoes False [] Eq left right) :
    right = left := by
  funext machine
  have ended := echoes machine machine (.refl machine)
  generalize left machine = outcome at ended ⊢
  generalize right machine = other at ended ⊢
  cases ended with
  | ok same kept => rw [same, kept.eq id]
  | error same kept => rw [same.resolve_right And.left, kept.eq id]

namespace Machine

/-- What was read further on is as much. -/
theorem evalExpression_far (fuel : Nat) (view : View) (pos : Nat) :
    evalExpression fuel view.far (view.shift + pos) = evalExpression fuel view.near pos := by
  refine Exec.Echoes.eq ?_
  refine .bind ((engine_echoes False fuel).value view.copies.renders (view.copies.showsAt pos)) ?_
  rintro ⟨value, after⟩ _ rfl
  refine .pure ?_
  rw [Nat.add_sub_add_left]

/-- A statement further on is executed as the near one is. -/
theorem evalStatement_far (fuel : Nat) (view : View) (pos : Nat) :
    evalStatement fuel view.far (view.shift + pos) = evalStatement fuel view.near pos := by
  refine Exec.Echoes.eq ?_
  refine .bind ((engine_echoes False fuel).statement view.copies pos) ?_
  rintro ⟨flow, after⟩ _ rfl
  refine .pure ?_
  rw [Nat.add_sub_add_left]

/-- A block further on runs as the near one does. -/
theorem runBlock_far (fuel : Nat) (view : View) (bindings : List (String × Value)) :
    runBlock fuel view.far bindings = runBlock fuel view.near bindings :=
  Exec.Echoes.eq ((engine_echoes False fuel).runBlock view.copies (.refl bindings))

/-- A block, an expression and a statement depend on their window only, and so does all that is
looked for in it. Nothing is found outside the window, and neither an expression nor a statement nor
a step that goes on stops before it began or behind the end of the window. -/
theorem block_depends_on_window (fuel : Nat) (tokens : TokenBlock) {first last : Nat}
    (ordered : first ≤ last) (inside : last ≤ tokens.size) :
    (∀ bindings, runBlock fuel (.slice tokens first last) bindings =
      runBlock fuel (.whole (tokens.extract first last)) bindings) ∧
    (∀ pos, evalExpression fuel (.slice tokens first last) (first + pos) =
        evalExpression fuel (.whole (tokens.extract first last)) pos ∧
      evalStatement fuel (.slice tokens first last) (first + pos) =
        evalStatement fuel (.whole (tokens.extract first last)) pos) ∧
    (View.part tokens ordered inside).Searches ∧
    (∀ pos, pos ≤ last → Layout.Stays tokens pos last) ∧
    (∀ pos machine, pos ≤ last →
      (∀ result after, (engine fuel).value (.slice tokens first last) pos machine =
        .ok result after → pos ≤ result.2 ∧ result.2 ≤ last) ∧
      ∀ result after, (engine fuel).statement (.slice tokens first last) pos machine =
        .ok result after → pos ≤ result.2 ∧ result.2 ≤ last) ∧
    ∀ machine result after, machine.stack.top.code = .slice tokens first last →
      machine.stack.top.pos ≤ last → step fuel machine = .ok result after →
      result.Keeps machine after := by
  have stop : (Window.slice tokens first last).stop = last := Nat.min_eq_left inside
  let view := View.part tokens ordered inside
  have obeys (machine : Machine) : (engine fuel).Obeys (.free machine.program) :=
    engine_obeys _ fuel
  refine ⟨runBlock_far fuel view,
    fun pos => ⟨evalExpression_far fuel view pos, evalStatement_far fuel view pos⟩,
    view.searches, fun pos before => Layout.stays before inside, ?_, ?_⟩
  · intro pos machine before
    have within : pos ≤ (Window.slice tokens first last).stop := stop.symm ▸ before
    refine ⟨fun result after ran => ?_, fun result after ran => ?_⟩
    · have keeps := ((obeys machine).value_keeps within machine rfl).1.returned ran
      exact ⟨keeps.le, stop ▸ keeps.stop⟩
    · have keeps := ((obeys machine).statement_keeps within machine rfl).1.returned ran
      exact ⟨keeps.le, stop ▸ keeps.stop⟩
  · intro machine result after code before ran
    have within : machine.stack.top.pos ≤ machine.stack.top.code.stop := by
      rw [code, stop]
      exact before
    exact ((obeys machine).step_keeps rfl within).returned ran

/-- The fault with which a window ends as a block of an empty script. -/
def blockFault? (window : Window) : Option Fault :=
  match runBlock 20 window [] (ofTokens {} "main" []) with
  | .error (.fault raised) _ => some raised
  | _ => none

/-- A choice whose closing word stands right behind the window is as open as if nothing stood there;
with that word it runs. -/
theorem block_depends_on_window_cut : ∃ tokens : TokenBlock, 10 ≤ tokens.size ∧
    blockFault? (.slice tokens 2 10) = some (.running (.closerMissing "If" "EndIf") 2 []) ∧
    blockFault? (.slice tokens 2 12) = none ∧
    ∀ fuel, (∀ bindings, runBlock fuel (.slice tokens 2 10) bindings =
        runBlock fuel (.whole (tokens.extract 2 10)) bindings) ∧
      evalStatement fuel (.slice tokens 2 10) (2 + 4) =
        evalStatement fuel (.whole (tokens.extract 2 10)) 4 := by
  refine ⟨(lex "Else\nIf True Then\n$X = 1\nEndIf\n").tokens.toArray, by decide +kernel,
    by decide +kernel, by decide +kernel, fun fuel => ?_⟩
  obtain ⟨blocks, positions, -⟩ := block_depends_on_window fuel
    (lex "Else\nIf True Then\n$X = 1\nEndIf\n").tokens.toArray (show 2 ≤ 10 by decide)
    (by decide +kernel)
  exact ⟨blocks, (positions 4).2⟩

end Machine

end LineScript
