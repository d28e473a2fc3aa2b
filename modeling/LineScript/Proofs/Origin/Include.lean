import LineScript.Proofs.Program.Source

/-!
# Where included tokens come from

Resolving the includes of a script reads the script and the files that it includes, directly or
through others (`Include.Reads`). Every token that comes out stands on a line of one of these
sources or is the line end put behind a file, no include is left, and whatever stops the resolving
points at such a line (`Include.resolve_ends`).
-/

namespace LineScript

/-- The lines of a source at which tokens stand, and the one at which it cannot be read. -/
def Lexed.lines (lexed : Lexed) : List Nat :=
  lexed.tokens.map Token.line ++ lexed.fault.toList.map Fault.line

/-- The token is a flag of this name, whatever its case. -/
def Token.isFlag (token : Token) (name : String) : Bool :=
  token.kind == .flag && Text.lower token.lexeme == name

/-- A token is a flag of a name exactly when it is a flag and spells the name in some case. -/
theorem Token.isFlag_iff {token : Token} {name : String} :
    token.isFlag name = true ↔ token.kind = .flag ∧ Text.lower token.lexeme = name := by
  simp [isFlag]

/-- A flag that asks for a file is not the one that asks for once. -/
theorem Token.isFlag_once {flag : Token} (asks : flag.isFlag "include" = true) :
    flag.isFlag "include-once" = false := by
  simp_all [isFlag]

/-- A string is no flag. -/
theorem Token.isFlag_of_string {token : Token} (isPath : token.kind = .string) (name : String) :
    token.isFlag name = false := by
  simp [isFlag, isPath]

/-- The token asks for an include, or to be included once. -/
def Token.isInclude (token : Token) : Bool := token.isFlag "include" || token.isFlag "include-once"

namespace Include

section

variable (host : Host) (script : String) (main : Lexed)

/-- The sources that are read for a script, under their paths. -/
inductive Reads : String → Lexed → Prop where
  /-- The script itself. -/
  | script : Reads (host.files.canonical host.directory script) main
  /-- A file that one of them includes. -/
  | file {path : String} {outer : Lexed} {flag named : Token} {bytes : Text.Bytes}
    (reads : Reads path outer) (asks : [flag, named] <:+: outer.tokens)
    (isInclude : flag.isFlag "include" = true) (isPath : named.kind = .string)
    (read : host.files.read host.directory (located host path named.lexeme) = .ok bytes) :
    Reads (located host path named.lexeme) (lex (Text.Utf8.decode bytes))

/-- A line of one of the sources that are read for a script. -/
def IsLine (line : Nat) : Prop := ∃ path source, Reads host script main path source ∧
  line ∈ source.lines

/-- A token that comes from one of the sources, or from between them. -/
def Comes (token : Token) : Prop :=
  token.isInclude = false ∧ (IsLine host script main token.line ∨ token = .insertedEol)

/-- A fault that points at a line of one of the sources. -/
def Blames (fault : Fault) : Prop := IsLine host script main fault.line ∧ fault.calls = []

end

variable {α β : Type} {host : Host} {script : String} {main : Lexed}

/-- Whatever an action of including returns is as it should be, and so is the fault that stops it. -/
def Ends (action : Including α) (post : α → Prop) (blame : Fault → Prop) : Prop :=
  ∀ before, match action before with
    | .ok value _ => post value
    | .error fault _ => blame fault

namespace Ends

variable {post : α → Prop} {blame : Fault → Prop}

/-- Returning a good value ends well. -/
theorem pure {value : α} (holds : post value) :
    Ends (Pure.pure value : Including α) post blame := fun _ => holds

/-- A blamed fault ends well. -/
theorem throw {fault : Fault} (blamed : blame fault) :
    Ends (MonadExcept.throw fault : Including α) post blame := fun _ => blamed

/-- A blamed refusal ends well. -/
theorem refuse {cause : PrepareCause} {line : Nat} (blamed : blame (.preparing cause line)) :
    Ends (Include.refuse cause line : Including α) post blame := throw blamed

/-- A sequence ends well when both parts do. -/
theorem bind {first : Including α} {next : α → Including β} {later : β → Prop}
    (ends : Ends first post blame) (rest : ∀ value, post value → Ends (next value) later blame) :
    Ends (first >>= next) later blame := by
  intro before
  have here := ends before
  simp only [Bind.bind, EStateM.bind]
  cases ran : first before with
  | ok value middle =>
    rw [ran] at here
    exact rest value here middle
  | error fault middle =>
    rw [ran] at here
    exact here

/-- An action that looks at what was included first. -/
theorem get {next : Progress → Including β} {later : β → Prop}
    (rest : ∀ progress, Ends (next progress) later blame) :
    Ends (MonadState.get >>= next) later blame := fun before => rest before before

/-- Changing the progress ends well. -/
theorem modify {change : Progress → Progress} :
    Ends (MonadState.modifyGet fun progress => (PUnit.unit, change progress)) (fun _ => True)
      blame := fun _ => trivial

/-- A check made before an action. -/
theorem checked {condition : Prop} [Decidable condition] {cause : PrepareCause} {line : Nat}
    {action : Including α} (blamed : blame (.preparing cause line)) (ends : Ends action post blame) :
    Ends (do
      if condition then Include.refuse cause line
      action) post blame := by
  split
  · exact (refuse blamed : Ends _ (fun _ => False) blame).bind fun _ never => never.elim
  · exact ends

/-- Noting a file after an action ends well when the action does. -/
theorem noteAfter {text : String} {action : Including α} (ends : Ends action post blame) :
    Ends (Include.noteAfter text action) post blame := by
  intro before
  have here := ends before
  unfold Include.noteAfter
  cases ran : action before <;> (rw [ran] at here; exact here)

end Ends

/-- Lines of tokens that a source holds are lines of the source. -/
theorem Reads.isLine {path : String} {source : Lexed} {token : Token}
    (reads : Reads host script main path source) (member : token ∈ source.tokens) :
    IsLine host script main token.line :=
  ⟨path, source, reads, List.mem_append_left _ (List.mem_map_of_mem member)⟩

/-- The fault that stops the reading of a source points at a line of it. -/
theorem Reads.blames {path : String} {source : Lexed} {fault : Fault}
    (reads : Reads host script main path source) (stops : source.fault = some fault)
    (calls : fault.calls = []) : Blames host script main fault :=
  ⟨⟨path, source, reads, List.mem_append_right _ (by simp [stops])⟩, calls⟩

/-- A fault of the lexer lists no calls. -/
theorem lexChars_fault {place : Lexer.Place} {chars : List Char} {fault : Fault}
    (stops : (Lexer.lexChars place chars).fault = some fault) : fault.calls = [] := by
  fun_induction Lexer.lexChars place chars with
  | case1 => cases stops
  | case2 _ _ ih => exact ih stops
  | case3 =>
    cases stops
    rfl
  | case4 _ _ _ _ _ _ _ _ ih => exact ih stops

/-- The token after an include's flag names a path. -/
theorem target_ends {flag token : Token} (flagLine : IsLine host script main flag.line)
    (tokenLine : IsLine host script main token.line) :
    Ends (target flag token) (fun path => path = token.lexeme ∧ token.kind = .string)
      (Blames host script main) := by
  unfold target
  split
  · exact .pure ⟨rfl, ‹_›⟩
  · split
    · exact .refuse ⟨tokenLine, rfl⟩
    · exact .refuse ⟨flagLine, rfl⟩

/-- A list of tokens of which each comes from a source or from between them. -/
abbrev AllCome (host : Host) (script : String) (main : Lexed) (tokens : List Token) : Prop :=
  ∀ token ∈ tokens, Comes host script main token

/-- Splicing a file ends well when expanding its tokens does. -/
theorem spliceFile_ends {expand : List String → List Token → Including (List Token)}
    {stack : List String} {path : String} {line : Nat}
    (expands : ∀ source, Reads host script main path source →
      Ends (expand (path :: stack) source.tokens) (AllCome host script main)
        (Blames host script main))
    (reads : ∀ bytes, host.files.read host.directory path = .ok bytes →
      Reads host script main path (lex (Text.Utf8.decode bytes)))
    (isLine : IsLine host script main line) :
    Ends (spliceFile host expand stack path line) (AllCome host script main)
      (Blames host script main) := by
  unfold spliceFile Resolver.includeFile
  dsimp only [flat_step, flat_done, flat_token, flat_append]
  refine .get fun progress => ?_
  split
  · exact Ends.modify.bind fun _ _ => .pure (List.forall_mem_nil _)
  · refine .checked ⟨isLine, rfl⟩ ?_
    split
    · exact .refuse ⟨isLine, rfl⟩
    · rename_i bytes read
      have reached := reads bytes read
      cases stops : (lex (Text.Utf8.decode bytes)).fault with
      | some fault =>
        rw [show tokenize (Text.Utf8.decode bytes) = .error fault by simp [tokenize, stops]]
        exact .throw (reached.blames stops (lexChars_fault stops))
      | none =>
        rw [show tokenize (Text.Utf8.decode bytes) =
          .ok (lex (Text.Utf8.decode bytes)).tokens by simp [tokenize, stops]]
        exact .noteAfter (expands _ reached)

/-- A token that is neither flag of an include asks for none. -/
theorem isInclude_eq_false {token : Token}
    (once : ¬(token.kind = .flag ∧ Text.lower token.lexeme = "include-once"))
    (plain : ¬(token.kind = .flag ∧ Text.lower token.lexeme = "include")) :
    token.isInclude = false := by
  rw [Bool.eq_false_iff]
  intro asks
  simp only [Token.isInclude, Bool.or_eq_true, Token.isFlag_iff] at asks
  exact asks.elim plain once

/-- Expanding a source ends well when each splice does. -/
theorem expandWith_ends {splice : String → Nat → Including (List Token)} {current : String}
    {source : Lexed} (reads : Reads host script main current source)
    (splices : ∀ flag named line, [flag, named] <:+: source.tokens →
      flag.isFlag "include" = true → named.kind = .string → IsLine host script main line →
      Ends (splice (located host current named.lexeme) line) (AllCome host script main)
        (Blames host script main)) :
    ∀ (tokens : List Token) (lineStart : Bool), tokens <:+ source.tokens →
      Ends (expandWith host splice current lineStart tokens) (AllCome host script main)
        (Blames host script main)
  | [], lineStart, _ => by
    unfold expandWith Resolver.resolveWith
    dsimp only [flat_step, flat_done, flat_token, flat_append]
    exact .pure (List.forall_mem_nil _)
  | token :: rest, lineStart, inSource => by
    have isLine : IsLine host script main token.line :=
      reads.isLine (inSource.subset List.mem_cons_self)
    have restInSource : rest <:+ source.tokens := (List.suffix_cons token rest).trans inSource
    unfold expandWith Resolver.resolveWith
    dsimp only [flat_step, flat_done, flat_token, flat_append]
    split
    · refine .checked ⟨isLine, rfl⟩ ?_
      exact Ends.modify.bind fun _ _ => expandWith_ends reads splices rest lineStart restInSource
    · rename_i notOnce
      split
      · rename_i asks
        refine .checked ⟨isLine, rfl⟩ ?_
        cases rest with
        | nil => exact .refuse ⟨isLine, rfl⟩
        | cons named after =>
          have namedLine := reads.isLine (restInSource.subset List.mem_cons_self)
          refine (target_ends isLine namedLine).bind fun path held => ?_
          obtain ⟨rfl, isString⟩ := held
          have both : [token, named] <:+: source.tokens :=
            (List.prefix_append [token, named] after).isInfix.trans inSource.isInfix
          have isFlag : token.isFlag "include" = true := Token.isFlag_iff.mpr asks
          refine (splices token named token.line both isFlag isString isLine).bind fun spliced held => ?_
          refine (expandWith_ends reads splices after false
            ((List.suffix_cons named after).trans restInSource)).bind fun later heldLater => .pure ?_
          exact List.forall_mem_append.mpr ⟨held, List.forall_mem_cons.mpr
            ⟨⟨rfl, .inr rfl⟩, heldLater⟩⟩
      · rename_i notInclude
        split
        · exact .refuse ⟨isLine, rfl⟩
        · exact (expandWith_ends reads splices rest token.endsLine restInSource).bind
            fun later held => .pure (List.forall_mem_cons.mpr
              ⟨⟨isInclude_eq_false notOnce notInclude, .inl isLine⟩, held⟩)

/-- Expansion gives tokens that come from the files read, and blames only lines of theirs. -/
theorem expand_ends (fuel : Nat) {path : String} {stack : List String} {source : Lexed}
    (reads : Reads host script main path source) :
    Ends (expand host fuel (path :: stack) source.tokens) (AllCome host script main)
      (Blames host script main) := by
  induction fuel generalizing path stack source with
  | zero =>
    cases tokens : source.tokens with
    | nil => exact .pure nofun
    | cons token rest =>
      have isLine := reads.isLine (tokens ▸ List.mem_cons_self)
      exact .refuse ⟨isLine, rfl⟩
  | succ fuel ih =>
    refine expandWith_ends reads (fun flag named line asks isFlag isString isLine => ?_) _ true
      (List.suffix_refl _)
    exact spliceFile_ends (fun _ reached => ih reached)
      (fun bytes read => .file reads asks isFlag isString read) isLine

/-- Every token of a script whose includes are resolved comes from one of the sources that are read
for it, or from between them, and no other fault than one of these sources stops the resolving. -/
theorem resolve_ends (host : Host) (script : String) (main : Lexed) :
    Ends (resolve host script main.tokens) (AllCome host script main) (Blames host script main) :=
  expand_ends _ .script

end Include

end LineScript
