import LineScript.Proofs.Blocks.Grammar
import LineScript.Proofs.Origin.Program

/-!
# What preparing leaves for the interpreter

A prepared program has no marks of continued lines, no includes and no words of functions in it, and
no words of counting loops outside the bodies of such loops. In a body, the word that opens a loop
is taken out where it begins a line, and is left where it does not (`Program.prepare_residue`).
-/

namespace LineScript

/-- Only preparing knows the token: it continues a line, asks for an include, or is a word of a
function or of a counting loop. -/
def Token.isResidue (token : Token) : Bool :=
  token.isInclude || [.extend, .kwFor, .kwNext, .kwFunc, .kwEndFunc].contains token.kind

namespace Loops

variable {line : Nat} {tokens after : List Token}

/-- Nothing follows, or something that ends the line. -/
def LineOver (tokens : List Token) : Prop := ∀ token ∈ tokens.head?, token.endsLine = true

/-- An expression of a header ends with the line or before a word that stops it. -/
theorem headerTokens_stop {stops : TokenKind → Bool} {part : String} {expression : List Token}
    (read : headerTokens stops part tokens = .ok (expression, after)) :
    ∀ token ∈ after.head?, token.endsLine = true ∨ stops token.kind = true := by
  induction tokens generalizing expression after with
  | nil =>
    cases read
    exact nofun
  | cons token rest ih =>
    simp only [headerTokens] at read
    repeat' split at read
    · rename_i stopped
      cases read
      rintro _ ⟨⟩
      exact Bool.or_eq_true_iff.mp stopped
    · cases read
    · rename_i inner
      cases read
      exact ih inner
    · cases read

/-- A header expression stops at a line's end or at a stop word. -/
theorem headerExpression_stop {stops : TokenKind → Bool} {part : String} {block : TokenBlock}
    (read : headerExpression stops part line tokens = .ok (block, after)) :
    ∀ token ∈ after.head?, token.endsLine = true ∨ stops token.kind = true := by
  unfold headerExpression at read
  repeat' split at read
  · cases read
  · cases read
  · rename_i inner _
    cases read
    exact headerTokens_stop inner

/-- The expression that ends a header ends with the line. -/
theorem headerExpression_lineOver {part : String} {block : TokenBlock}
    (read : headerExpression (fun _ => false) part line tokens = .ok (block, after)) :
    LineOver after := fun token first =>
  (headerExpression_stop read token first).resolve_right (by simp)

/-- After the optional step the line is over. -/
theorem stepPart_lineOver {step : Option TokenBlock}
    (stop : ∀ token ∈ tokens.head?, token.endsLine = true ∨ token.kind = .kwStep)
    (read : stepPart line tokens = .ok (step, after)) : LineOver after := by
  unfold stepPart at read
  repeat' split at read
  · rename_i inner
    cases read
    exact headerExpression_lineOver inner
  · cases read
  · rename_i token rest notStep
    cases read
    exact fun other first => (stop other first).resolve_right (by cases first; exact notStep)
  · cases read
    exact nofun

/-- The line of a loop's opening word is over behind its header. -/
theorem header_lineOver {index : String} {head : LoopHead}
    (read : header line tokens = .ok (index, head, after)) : LineOver after := by
  unfold header at read
  repeat' split at read
  all_goals try cases read
  · rename_i isRange
    unfold rangeHead at isRange
    repeat' split at isRange
    all_goals try cases isRange
    rename_i readLast _ _ readStep
    have stop := headerExpression_stop readLast
    exact stepPart_lineOver (fun token first => by simpa using stop token first) readStep
  · rename_i isEach
    unfold eachHead at isEach
    split at isEach <;> cases isEach
    exact headerExpression_lineOver ‹_›

/-- In the tokens of a body, last one first, no loop is closed, and one is opened only behind a token
on the same line. -/
def Inside : List Token → Prop
  | [] => True
  | token :: earlier => token.kind ≠ .kwNext ∧
      (token.kind = .kwFor → ∃ before ∈ earlier.head?, before.endsLine = false) ∧ Inside earlier

/-- No loop is opened or closed outside bodies, and in bodies only on the line of another token. -/
structure State.Clear (state : State) : Prop where
  /-- Tokens outside loops. -/
  out : ∀ token ∈ state.out, token.kind ≠ .kwFor ∧ token.kind ≠ .kwNext
  /-- Bodies of open loops. -/
  opened : ∀ loop ∈ state.opened, Inside loop.body
  /-- Bodies of finished loops. -/
  loops : ∀ loop ∈ state.loops, Inside loop.body.toList.reverse

/-- Where no line begins, the next token opens no loop, or the innermost body ends with a token of
the same line. -/
def State.Follows (state : State) (lineStart : Bool) (tokens : List Token) : Prop :=
  lineStart = false → (∀ token ∈ tokens.head?, token.kind ≠ .kwFor) ∨
    ∀ loop ∈ state.opened.head?, ∃ before ∈ loop.body.head?, before.endsLine = false

variable {state : State} {token : Token}

/-- Behind a line that is over no loop is opened on the same line. -/
theorem State.Follows.of_lineOver {rest : List Token} (lineOver : LineOver rest) :
    state.Follows false rest := by
  refine fun _ => .inl fun token first kind => ?_
  have ends := lineOver token first
  simp [Token.endsLine, kind] at ends

/-- Emitting a token keeps the state clear when it is no Next and opens no loop at a line's start. -/
theorem State.Clear.emit (clear : state.Clear) (notNext : token.kind ≠ .kwNext)
    (outside : state.opened = [] → token.kind ≠ .kwFor)
    (inside : token.kind = .kwFor →
      ∀ loop ∈ state.opened.head?, ∃ before ∈ loop.body.head?, before.endsLine = false) :
    (state.emit token).Clear := by
  unfold State.emit
  split
  · rename_i loop outer open'
    have opened := clear.opened
    rw [open'] at opened inside
    obtain ⟨first, rest⟩ := List.forall_mem_cons.mp opened
    exact ⟨clear.out, List.forall_mem_cons.mpr
      ⟨⟨notNext, fun isFor => inside isFor loop rfl, first⟩, rest⟩, clear.loops⟩
  · rename_i none'
    exact ⟨List.forall_mem_cons.mpr ⟨⟨outside none', notNext⟩, clear.out⟩, clear.opened,
      clear.loops⟩

/-- A token of a body goes before the next token on its line. -/
theorem State.Follows.emit {rest : List Token} :
    (state.emit token).Follows token.endsLine rest := by
  refine fun goesOn => .inr fun loop first => ?_
  unfold State.emit at first
  split at first
  · cases first
    exact ⟨token, rfl, goesOn⟩
  · rename_i none'
    rw [show ({ state with out := token :: state.out } : State).opened = [] from none'] at first
    cases first

/-- Closing a loop keeps the state clear and leaves the line over. -/
theorem State.Clear.close {rest : List Token} {closed : State} (clear : state.Clear)
    (read : state.close token rest = .ok closed) : closed.Clear ∧ LineOver rest := by
  unfold State.close at read
  split at read
  · cases read
  · rename_i loop outer open'
    have opened := clear.opened
    rw [open'] at opened
    obtain ⟨first, others⟩ := List.forall_mem_cons.mp opened
    let finished : ForLoop :=
      { index := loop.index, head := loop.head, body := loop.body.reverse.toArray,
        line := loop.opener.line }
    have loops : ∀ loop ∈ state.loops.push finished, Inside loop.body.toList.reverse := by
      intro other member
      rcases Array.mem_push.mp member with member | rfl
      · exact clear.loops other member
      · simpa [finished] using first
    have outside : State.Clear
        { state with opened := outer, loops := state.loops.push finished } :=
      ⟨clear.out, others, loops⟩
    have emitted : State.Clear (State.emit
        { state with opened := outer, loops := state.loops.push finished }
        { loop.opener with kind := .loop state.loops.size, lexeme := "For" }) :=
      outside.emit nofun (fun _ => nofun) nofun
    dsimp only at read
    repeat' split at read
    · rename_i lineOver
      cases read
      exact ⟨emitted, fun _ same => by cases same; exact lineOver⟩
    · cases read
    · cases read
      exact ⟨emitted, nofun⟩

/-- Every step of the scan keeps loops out, so the whole scan does. -/
theorem scan_clear {lineStart : Bool} {last : State} (clear : state.Clear)
    (follows : state.Follows lineStart tokens) (read : scan state lineStart tokens = .ok last) :
    last.Clear := by
  fun_induction scan state lineStart tokens generalizing last with
  | case1 => cases read
  | case2 =>
    cases read
    exact clear
  | case3 => cases read
  | case4 state lineStart token rest _ index head after readHead ih =>
    exact ih ⟨clear.out, List.forall_mem_cons.mpr ⟨trivial, clear.opened⟩, clear.loops⟩
      (.of_lineOver (header_lineOver readHead)) read
  | case5 => cases read
  | case6 => cases read
  | case7 state lineStart token rest _ _ _ later closed ih =>
    obtain ⟨clearLater, lineOver⟩ := clear.close closed
    exact ih clearLater (.of_lineOver lineOver) read
  | case8 state lineStart token rest notOpening notOutside notNext ih =>
    refine ih (clear.emit notNext (fun none' isFor => ?_) fun isFor => ?_) .emit read
    · exact notOutside ⟨isFor, by rw [none']; rfl⟩
    · have notStart : lineStart = false := Bool.eq_false_iff.mpr fun start => notOpening ⟨isFor, start⟩
      exact (follows notStart).resolve_left fun never => never token rfl isFor

/-- Outside the bodies of loops no loop is opened or closed. -/
theorem extract_clear {out : List Token} {loops : Array ForLoop}
    (read : extract tokens = .ok (out, loops)) :
    (∀ token ∈ out, token.kind ≠ .kwFor ∧ token.kind ≠ .kwNext) ∧
      ∀ loop ∈ loops, Inside loop.body.toList.reverse := by
  obtain ⟨last, scanned, same⟩ := bind_eq_ok.mp read
  have start : State.Clear {} := ⟨List.forall_mem_nil _, List.forall_mem_nil _, by simp⟩
  have begins : State.Follows {} true tokens := fun never => nomatch never
  have clear := scan_clear start begins scanned
  cases same
  exact ⟨fun token member => clear.out token (List.mem_reverse.mp member), clear.loops⟩

/-- What is inside for a later run of tokens is inside for the earlier part. -/
theorem Inside.of_append {later earlier : List Token} (inside : Inside (later ++ earlier)) :
    Inside earlier := by
  induction later with
  | nil => exact inside
  | cons token rest ih => exact ih inside.2.2

/-- What stands at a position of a body, in the order of the source. -/
theorem Inside.split {body earlier later : List Token} (inside : Inside body.reverse)
    (isBody : body = earlier ++ token :: later) : token.kind ≠ .kwNext ∧
      (token.kind = .kwFor → ∃ before ∈ earlier.getLast?, before.endsLine = false) := by
  have reversed : body.reverse = later.reverse ++ token :: earlier.reverse := by
    rw [isBody, List.reverse_append, List.reverse_cons, List.append_assoc, List.singleton_append]
  rw [reversed] at inside
  obtain ⟨notNext, behind, _⟩ := inside.of_append
  rw [List.head?_reverse] at behind
  exact ⟨notNext, behind⟩

end Loops

namespace Program

variable {program : Program} {token : Token}

/-- No word of a function is left in a program whose blocks are balanced. -/
theorem not_refused_of_check (checked : program.check = .ok ()) :
    (∀ token ∈ program.tokens, Blocks.isRefused token.kind = false) ∧
      (∀ entry ∈ program.functions, ∀ token ∈ entry.2.body, Blocks.isRefused token.kind = false) ∧
      ∀ loop ∈ program.loops, ∀ token ∈ loop.body, Blocks.isRefused token.kind = false := by
  obtain ⟨_, outside, checked⟩ := bind_eq_ok.mp checked
  obtain ⟨_, loops, functions⟩ := bind_eq_ok.mp checked
  exact ⟨Blocks.not_refused_of_check outside,
    fun entry member => Blocks.not_refused_of_check (check_of_forM functions entry member),
    fun loop member => Blocks.not_refused_of_check
      (check_of_forM loops loop (Array.mem_toList_iff.mpr member))⟩

/-- Nothing that only preparing knows is left of a token that is none of its words. -/
theorem isResidue_eq_false (plain : token.isInclude = false ∧ token.kind ≠ .extend)
    (runs : Blocks.isRefused token.kind = false) (notFor : token.kind ≠ .kwFor)
    (notNext : token.kind ≠ .kwNext) : token.isResidue = false := by
  rw [Token.isResidue, plain.1, Bool.false_or]
  generalize token.kind = kind at plain runs notFor notNext
  cases kind <;> first
    | rfl
    | exact absurd rfl plain.2
    | exact absurd rfl notFor
    | exact absurd rfl notNext
    | cases runs

/-- A prepared program holds nothing that only preparing knows: not outside functions and loops, not
in the bodies of functions, and in the bodies of loops nothing but words that open a loop behind
another token on their line. -/
theorem prepare_residue (host : Host) (script : String) (tokens : List Token) (program : Program)
    (prepared : (prepare host script tokens).result = .ok program) :
    (∀ token ∈ program.tokens, token.isResidue = false) ∧
      (∀ entry ∈ program.functions, ∀ token ∈ entry.2.body, token.isResidue = false) ∧
      ∀ loop ∈ program.loops, ∀ earlier token later, loop.body.toList = earlier ++ token :: later →
        token.isResidue = false ∨
          token.kind = .kwFor ∧ ∃ before ∈ earlier.getLast?, before.endsLine = false := by
  have kept := prepare_yields host script ⟨tokens, none⟩
  rw [prepared] at kept
  have plain : ∀ block ∈ program.blocks, ∀ token ∈ block,
      token.isInclude = false ∧ token.kind ≠ .extend := fun block member token inside =>
    have holds := kept.blocks block member token (Array.mem_toList_iff.mpr inside)
    ⟨holds.1.2, holds.2⟩
  obtain ⟨_, _, joined, defined, _, _, assembled⟩ := passes_of_prepare prepared
  obtain ⟨called, looped, out, _, looping, defining, isOut, isDefined, checked⟩ :=
    assemble_eq_ok assembled
  obtain ⟨clear, bodies⟩ := Loops.extract_clear looping
  have start : Functions.Defined.Kept (fun token => token.kind ≠ .kwFor ∧ token.kind ≠ .kwNext) {} :=
    nofun
  have scanned := Functions.scan_yields true start clear
  rw [show Functions.scan true looped {} = .ok out defined from defining] at scanned
  obtain ⟨runsOutside, runsFunctions, runsLoops⟩ := not_refused_of_check checked
  refine ⟨fun token member => ?_, fun entry member token inside => ?_,
    fun loop member earlier token later isBody => ?_⟩
  · obtain ⟨notFor, notNext⟩ := scanned.1 token (by simpa [isOut] using member)
    exact isResidue_eq_false (plain _ tokens_mem_blocks token member) (runsOutside token member)
      notFor notNext
  · obtain ⟨notFor, notNext⟩ := scanned.2 entry (isDefined ▸ member) entry.2.body
      List.mem_cons_self token (Array.mem_toList_iff.mpr inside)
    exact isResidue_eq_false
      (plain _ (mem_blocks_of_entry member List.mem_cons_self) token inside)
      (runsFunctions entry member token inside) notFor notNext
  · obtain ⟨notNext, behind⟩ := (bodies loop member).split isBody
    have inside : token ∈ loop.body := Array.mem_toList_iff.mp (by rw [isBody]; simp)
    by_cases isFor : token.kind = .kwFor
    · exact .inr ⟨isFor, behind isFor⟩
    · exact .inl (isResidue_eq_false
        (plain _ (mem_blocks_of_loop member List.mem_cons_self) token inside)
        (runsLoops loop member token inside) isFor notNext)

/-- The program of a source without files around it. -/
def ofSource? (source : String) : Option Program :=
  (tokenize source).toOption.bind fun tokens => (prepare {} "/main" tokens).result.toOption

/-- A program read from a source is the preparation of its tokens. -/
theorem ofSource?_eq_some {source : String} (read : ofSource? source = some program) :
    ∃ tokens, tokenize source = .ok tokens ∧
      (prepare {} "/main" tokens).result = .ok program := by
  obtain ⟨tokens, lexed, prepared⟩ := Option.bind_eq_some_iff.mp read
  exact ⟨tokens, eq_ok_of_toOption lexed, eq_ok_of_toOption prepared⟩

/-- Loops that begin their lines, in a function and in one another, leave nothing behind. -/
theorem prepare_residue_nested : ∃ tokens program,
    tokenize "Func F()\nFor $i = 1 To 2\nFor $j In $a\nNext\nNext\nEndFunc\nF()\n" = .ok tokens ∧
      (prepare {} "/main" tokens).result = .ok program ∧ program.functions.length = 1 ∧
      program.loops.size = 2 ∧ ∀ token ∈ program.tokens, token.isResidue = false := by
  have tried : (ofSource? "Func F()\nFor $i = 1 To 2\nFor $j In $a\nNext\nNext\nEndFunc\nF()\n").map
      (fun program => (program.functions.length, program.loops.size)) = some (1, 2) := by
    decide +kernel
  obtain ⟨program, read, sizes⟩ := Option.map_eq_some_iff.mp tried
  obtain ⟨tokens, lexed, prepared⟩ := ofSource?_eq_some read
  simp only [Prod.mk.injEq] at sizes
  exact ⟨tokens, program, lexed, prepared, sizes.1, sizes.2,
    (prepare_residue {} "/main" tokens program prepared).1⟩

/-- A loop that begins on the line of a choice inside a body is not taken out. -/
theorem residue_in_body : ∃ tokens program loop token,
    tokenize "For $i = 1 To 2\nIf True Then For $j = 1 To 2\nNext\n" = .ok tokens ∧
      (prepare {} "/main" tokens).result = .ok program ∧ loop ∈ program.loops ∧
      token ∈ loop.body ∧ token.kind = .kwFor ∧ token.isResidue = true := by
  have tried : (ofSource? "For $i = 1 To 2\nIf True Then For $j = 1 To 2\nNext\n").any
      (fun program => program.loops.any fun loop => loop.body.any fun token =>
        token.kind == .kwFor) = true := by
    decide +kernel
  obtain ⟨program, read, tried⟩ := (Option.any_eq_true _ _).mp tried
  obtain ⟨tokens, lexed, prepared⟩ := ofSource?_eq_some read
  obtain ⟨loop, member, tried⟩ := Array.any_eq_true'.mp tried
  obtain ⟨token, inside, isFor⟩ := Array.any_eq_true'.mp tried
  have kind := eq_of_beq isFor
  refine ⟨tokens, program, loop, token, lexed, prepared, member, inside, kind, ?_⟩
  simp [Token.isResidue, kind]

end Program

end LineScript
