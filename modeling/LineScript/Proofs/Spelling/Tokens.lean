import LineScript.Interpreter.Run
import LineScript.Proofs.Layout.Correspondence
import LineScript.Proofs.Text.Lower

/-!
# Programs in small letters

Names and reserved words are read without regard to case. A program in small letters has the text of
all of them in small letters; literals, signs and names that stand for themselves stay as they are.
Such a name is spelled anew only behind the word that opens a function, where it would be the name
of one. Where blocks and statements end is the same in both programs.
-/

namespace LineScript

/-- Kinds of tokens whose text counts letter by letter: literals, signs, names that stand for
themselves and words that are given one spelling. -/
def TokenKind.isVerbatim : TokenKind → Bool
  | illegal | eol | extend | string | number | double | boolean | binary | comment | identifier => true
  | lparen | rparen | lbracket | rbracket | separator | operator | loop _ | kwScope => true
  | _ => false

namespace Token

/-- The token in small letters where case does not count; `named` says that a name at its place is
that of a function. -/
def small (named : Bool) (token : Token) : Token :=
  if token.kind.isVerbatim && !(named && token.kind == .identifier) then token
  else { token with lexeme := Text.lower token.lexeme }

variable {named : Bool} {token : Token}

/-- Small letters keep the kind. -/
@[simp] theorem kind_small (named : Bool) (token : Token) : (token.small named).kind = token.kind := by
  unfold small
  split <;> rfl

/-- Small letters keep the line. -/
@[simp] theorem line_small (named : Bool) (token : Token) : (token.small named).line = token.line := by
  unfold small
  split <;> rfl

/-- Small letters keep the column. -/
@[simp] theorem col_small (named : Bool) (token : Token) : (token.small named).col = token.col := by
  unfold small
  split <;> rfl

/-- A lexeme in small letters reads the same in small letters. -/
@[simp] theorem lower_lexeme_small (named : Bool) (token : Token) :
    Text.lower (token.small named).lexeme = Text.lower token.lexeme := by
  unfold small
  split
  · rfl
  · exact Text.lower_lower _

/-- A token whose text counts stays as it is, unless it is the name of a function. -/
theorem small_of_isVerbatim (verbatim : token.kind.isVerbatim = true)
    (free : token.kind = .identifier → named = false) : token.small named = token := by
  unfold small
  rw [if_pos]
  cases named with
  | false => simpa using verbatim
  | true =>
    have other : token.kind ≠ .identifier := fun name => by cases free name
    simp [verbatim, other]

/-- Away from the names of functions a token is spelled in one way. -/
theorem small_of_ne_identifier (other : token.kind ≠ .identifier) (named : Bool) :
    token.small named = token.small false := by
  unfold small
  simp [other]

/-- Small letters keep whether a token ends a line. -/
@[simp] theorem endsLine_small (named : Bool) (token : Token) :
    (token.small named).endsLine = token.endsLine := by
  simp only [endsLine, kind_small]

/-- Small letters keep whether a token is an operator. -/
@[simp] theorem isOperator_small (named : Bool) (token : Token) (operator : String) :
    (token.small named).isOperator operator = token.isOperator operator := by
  by_cases isOperator : token.kind = .operator
  · rw [small_of_isVerbatim (by rw [isOperator]; rfl) fun name => by rw [isOperator] at name; cases name]
  · have word : (token.kind == .operator) = false := by simpa using isOperator
    simp [Token.isOperator, word]

/-- Spelling a token anew twice changes no more than once. -/
theorem small_small (named earlier : Bool) (weaker : earlier = true → named = true) (token : Token) :
    (token.small earlier).small named = token.small named := by
  cases token with
  | mk kind lexeme line col =>
    cases named <;> cases earlier <;> simp_all [small] <;> grind [Text.lower_lower]

end Token

/-- Tokens in small letters; `named` says that a name at the start is that of a function. -/
def smallList (named : Bool) : List Token → List Token
  | [] => []
  | token :: rest => token.small named :: smallList (token.kind == .kwFunc) rest

namespace TokenBlock

/-- The tokens of statements in small letters, among which no function is opened. -/
def small (block : TokenBlock) : TokenBlock := block.map (Token.small false)

/-- The tokens of an expression in small letters. -/
def smallGroup (block : TokenBlock) : TokenBlock := (smallList false block.toList).toArray

end TokenBlock

/-- A call in small letters. -/
def CallSite.small (site : CallSite) : CallSite :=
  { site with name := Text.lower site.name, args := site.args.map TokenBlock.smallGroup }

/-- A parameter in small letters; its name is in small letters already. -/
def Param.small (param : Param) : Param :=
  { param with fallback := param.fallback.map TokenBlock.smallGroup }

/-- A function in small letters. -/
def UserFunction.small (function : UserFunction) : UserFunction :=
  { function with
    name := Text.lower function.name, params := function.params.map Param.small
    body := function.body.small }

/-- A loop's header in small letters. -/
def LoopHead.small : LoopHead → LoopHead
  | range first last step => range first.smallGroup last.smallGroup (step.map TokenBlock.smallGroup)
  | each collection => each collection.smallGroup

/-- A loop in small letters. -/
def ForLoop.small (loop : ForLoop) : ForLoop :=
  { loop with index := Text.lower loop.index, head := loop.head.small, body := loop.body.small }

/-- A program in small letters. -/
def Program.small (program : Program) : Program where
  tokens := program.tokens.small
  functions := program.functions.map fun entry => (entry.1, entry.2.small)
  calls := program.calls.map CallSite.small
  loops := program.loops.map ForLoop.small

/-- What a scope belongs to, in small letters. -/
def ScopeKind.small : ScopeKind → ScopeKind
  | function name => function (Text.lower name)
  | other => other

/-- A window in small letters. -/
def Window.small (window : Window) : Window := { window with tokens := window.tokens.small }

/-- A scope in small letters; its variables are in small letters already. -/
def Scope.small (scope : Scope) : Scope :=
  { scope with kind := scope.kind.small, code := scope.code.small }

/-- The other tokens are the same but for their spelling. -/
structure TokenBlock.Respelled (tokens other : TokenBlock) : Prop where
  /-- There are as many. -/
  size : other.size = tokens.size
  /-- Each of them is spelled anew. -/
  token : ∀ pos : Nat, ∃ named, other[pos]? = tokens[pos]?.map (Token.small named)

/-- A token of a list in small letters is the list's token in small letters. -/
theorem getElem?_smallList (first : Bool) (tokens : List Token) (pos : Nat) :
    ∃ named, (smallList first tokens)[pos]? = tokens[pos]?.map (Token.small named) := by
  induction tokens generalizing first pos with
  | nil => exact ⟨false, rfl⟩
  | cons token rest ih =>
    cases pos with
    | zero => exact ⟨first, rfl⟩
    | succ pos => exact ih (token.kind == .kwFunc) pos

/-- Small letters keep the length of a list. -/
@[simp] theorem length_smallList (named : Bool) (tokens : List Token) :
    (smallList named tokens).length = tokens.length := by
  induction tokens generalizing named with
  | nil => rfl
  | cons token rest ih => simp [smallList, ih]

namespace TokenBlock

/-- A block in small letters is a respelling of the block. -/
theorem respelled_small (tokens : TokenBlock) : tokens.Respelled tokens.small :=
  ⟨Array.size_map, fun _ => ⟨false, Array.getElem?_map⟩⟩

/-- A group in small letters is a respelling of the group. -/
theorem respelled_smallGroup (tokens : TokenBlock) : tokens.Respelled tokens.smallGroup := by
  refine ⟨by simp [smallGroup], fun pos => ?_⟩
  obtain ⟨named, same⟩ := getElem?_smallList false tokens.toList pos
  exact ⟨named, by simpa [smallGroup] using same⟩

end TokenBlock

/-- Spelling tokens anew leaves their kinds. -/
theorem TokenBlock.Respelled.kinds {tokens other : TokenBlock} (same : tokens.Respelled other) :
    Layout.SameKinds tokens other := fun pos => by
  obtain ⟨named, spelled⟩ := same.token pos
  rw [spelled]
  cases tokens[pos]? with
  | none => rfl
  | some token => exact congrArg some (Token.kind_small named token)

/-- Behind a token of known kind a token is spelled by that kind. -/
theorem getElem?_smallList_succ {first : Bool} {tokens : List Token} {pos : Nat} {token : Token}
    (before : tokens[pos]? = some token) :
    (smallList first tokens)[pos + 1]? = tokens[pos + 1]?.map (Token.small (token.kind == .kwFunc)) := by
  induction tokens generalizing first pos with
  | nil => cases before
  | cons head rest ih =>
    cases pos with
    | zero =>
      cases before
      cases rest with
      | nil => rfl
      | cons next rest => rfl
    | succ pos => exact ih before

namespace Window

/-- A whole block in small letters is the whole of the block in small letters. -/
@[simp] theorem small_whole (tokens : TokenBlock) : whole tokens.small = (whole tokens).small := by
  simp [whole, small, TokenBlock.small]

end Window

/-- A table of functions in small letters. -/
def smallTable (functions : List (String × UserFunction)) : List (String × UserFunction) :=
  functions.map fun entry => (entry.1, entry.2.small)

/-- A function is found in the table in small letters as in the table. -/
theorem lookup_smallTable (functions : List (String × UserFunction)) (key : String) :
    (smallTable functions).lookup key = (functions.lookup key).map UserFunction.small := by
  induction functions with
  | nil => rfl
  | cons entry rest ih =>
    obtain ⟨other, function⟩ := entry
    simp only [smallTable, List.map_cons, List.lookup_cons] at ih ⊢
    split
    · rfl
    · exact ih

/-- A program in small letters has the same functions in small letters. -/
theorem Program.function?_small (program : Program) (name : String) :
    program.small.function? name = (program.function? name).map UserFunction.small :=
  lookup_smallTable program.functions _

/-- Small letters keep the number of required parameters. -/
@[simp] theorem UserFunction.required_small (function : UserFunction) :
    function.small.required = function.required := by
  simp only [required, small, List.filter_map, List.length_map]
  congr 2
  funext param
  simp [Param.small]

end LineScript
