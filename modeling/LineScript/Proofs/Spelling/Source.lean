import LineScript.Program.Prepare
import LineScript.Proofs.Spelling.Outcome
import LineScript.Proofs.Spelling.Tokens

/-!
# Sources in small letters

In the tokens of a source the name of a function stands behind the word that opens a function or in
front of an opening parenthesis; there, and nowhere else, a name is put in small letters. Resolving
includes and joining continued lines bring tokens together and never apart, so sources that are alike
in small letters stay alike.
-/

namespace LineScript

/-- An opening parenthesis comes next. -/
def opensArguments (tokens : List Token) : Bool := tokens.head?.any (·.kind == .lparen)

/-- The tokens of a source in small letters; `named` says that a name at the start is that of a
function. -/
def smallSource (named : Bool) : List Token → List Token
  | [] => []
  | token :: rest =>
    token.small (named || opensArguments rest) :: smallSource (token.kind == .kwFunc) rest

/-- Two tokens are the same in small letters. -/
def Token.SpelledAlike (named : Bool) (token other : Token) : Prop :=
  other.small named = token.small named

/-- Two sources are the same in small letters. -/
def SpelledAlike (named : Bool) (tokens other : List Token) : Prop :=
  smallSource named other = smallSource named tokens

namespace Token.SpelledAlike

variable {named earlier : Bool} {token other : Token} (alike : token.SpelledAlike named other)
include alike

/-- A token spelled alike has the same kind. -/
theorem kind : other.kind = token.kind := by
  simpa using congrArg Token.kind alike

/-- A token spelled alike stands on the same line. -/
theorem line : other.line = token.line := by
  simpa using congrArg Token.line alike

/-- A token spelled alike reads the same in small letters. -/
theorem lower : Text.lower other.lexeme = Text.lower token.lexeme := by
  simpa using congrArg (fun token => Text.lower token.lexeme) alike

/-- A token spelled alike ends a line when the other does. -/
theorem endsLine : other.endsLine = token.endsLine := by
  simpa using congrArg Token.endsLine alike

/-- A token spelled alike is the same operator. -/
theorem isOperator (operator : String) : other.isOperator operator = token.isOperator operator := by
  simpa using congrArg (Token.isOperator · operator) alike

/-- A token whose text counts letter by letter is the same. -/
theorem eq_of_isVerbatim (verbatim : token.kind.isVerbatim = true) (other' : token.kind ≠ .identifier) :
    other = token := by
  have same := alike
  unfold Token.SpelledAlike at same
  rwa [small_of_isVerbatim verbatim fun name => absurd name other',
    small_of_isVerbatim (by rwa [alike.kind]) fun name => absurd (alike.kind ▸ name) other'] at same

/-- Tokens that are alike are alike where more names are those of functions. -/
theorem mono {later : Bool} (weaker : named = true → later = true) : token.SpelledAlike later other := by
  unfold Token.SpelledAlike at alike ⊢
  rw [← small_small later named weaker token, ← small_small later named weaker other, alike]

end Token.SpelledAlike

/-- Small letters keep whether arguments open. -/
theorem opensArguments_smallSource (named : Bool) (tokens : List Token) :
    opensArguments (smallSource named tokens) = opensArguments tokens := by
  cases tokens with
  | nil => rfl
  | cons token rest => simp [opensArguments, smallSource]

namespace SpelledAlike

variable {named : Bool} {token other : Token} {tokens rest others : List Token}

/-- Tokens are spelled alike to themselves. -/
theorem refl (named : Bool) (tokens : List Token) : SpelledAlike named tokens tokens := rfl

/-- Tokens that are spelled alike open arguments alike. -/
theorem opensArguments (alike : SpelledAlike named tokens others) :
    LineScript.opensArguments others = LineScript.opensArguments tokens := by
  rw [← opensArguments_smallSource named, alike, opensArguments_smallSource]

/-- Only the empty list is spelled alike to the empty list. -/
theorem eq_nil (alike : SpelledAlike named [] others) : others = [] := by
  cases others with
  | nil => rfl
  | cons other others => cases alike

/-- A source that is alike begins with a token that is alike. -/
theorem uncons (alike : SpelledAlike named (token :: rest) others) :
    ∃ other later, others = other :: later ∧
      token.SpelledAlike (named || LineScript.opensArguments rest) other ∧
      SpelledAlike (token.kind == .kwFunc) rest later := by
  cases others with
  | nil => cases alike
  | cons other later =>
    obtain ⟨first, after⟩ := List.cons.inj alike
    have kind : other.kind = token.kind := by simpa using congrArg Token.kind first
    rw [kind] at after
    have opens := SpelledAlike.opensArguments after
    rw [opens] at first
    exact ⟨other, later, rfl, first, after⟩

/-- Tokens that are alike in front of sources that are alike. -/
theorem cons {earlier : Bool} (first : token.SpelledAlike earlier other)
    (weaker : earlier = true → (named || LineScript.opensArguments rest) = true)
    (later : SpelledAlike (token.kind == .kwFunc) rest others) :
    SpelledAlike named (token :: rest) (other :: others) := by
  have same := first.mono weaker
  unfold SpelledAlike
  rw [smallSource, smallSource, later.opensArguments, first.kind, same, later]

/-- Sources stay alike where more names are those of functions. -/
theorem mono {stronger : Bool} (alike : SpelledAlike stronger tokens others)
    (weaker : stronger = true → named = true) : SpelledAlike named tokens others := by
  cases tokens with
  | nil =>
    rw [alike.eq_nil]
    exact refl named []
  | cons token rest =>
    obtain ⟨other, later, rfl, first, after⟩ := alike.uncons
    refine cons first (fun either => ?_) after
    rw [Bool.or_eq_true] at either ⊢
    exact either.imp weaker id

/-- Sources that are alike are so wherever they stand. -/
theorem anywhere (alike : SpelledAlike false tokens others) : SpelledAlike named tokens others :=
  alike.mono fun never => by cases never

/-- A line end lies between the sources before and behind it. -/
theorem append_eol {end' : Token} (isEol : end'.kind = .eol) (first : List Token)
    (later : SpelledAlike false rest others) :
    SpelledAlike named (first ++ end' :: rest) (first ++ end' :: others) := by
  induction first generalizing named with
  | nil =>
    exact cons (show end'.SpelledAlike false end' from rfl) (fun never => by cases never)
      (by rwa [isEol])
  | cons token first ih =>
    exact cons rfl id ih

end SpelledAlike

/-! ### Continued lines -/

namespace Continuation

/-- What follows a continuation mark is read alike. -/
theorem afterMark_alike {named : Bool} (line : Nat) {tokens others : List Token}
    (alike : SpelledAlike named tokens others) :
    Tells (SpelledAlike false) (afterMark line tokens) (afterMark line others) := by
  induction tokens generalizing named others with
  | nil =>
    rw [alike.eq_nil]
    exact .error (.refl _)
  | cons token rest ih =>
    obtain ⟨other, later, rfl, first, after⟩ := alike.uncons
    unfold afterMark
    rw [first.kind, first.line]
    split
    · exact ih after
    · split
      · rename_i isEol
        rw [isEol] at after
        exact .ok after
      · exact .error (.preparing _ _ _)

/-- A parenthesis that opens a source opens it when its continued lines are joined. -/
theorem opensArguments_join {tokens joined : List Token} (read : join tokens = .ok joined)
    (opens : opensArguments tokens = true) : opensArguments joined = true := by
  cases tokens with
  | nil => cases opens
  | cons token rest =>
    have isLparen : token.kind = .lparen := by simpa [opensArguments] using opens
    rw [join, if_neg (by simp [isLparen])] at read
    split at read
    · cases read
      exact opens
    · cases read

/-- Tokens that are spelled alike are joined alike. -/
theorem join_alike {named : Bool} {tokens others : List Token}
    (alike : SpelledAlike named tokens others) :
    Tells (SpelledAlike named) (join tokens) (join others) := by
  induction size : tokens.length using Nat.strongRecOn generalizing named tokens others with
  | ind size ih =>
    subst size
    cases tokens with
    | nil =>
      rw [alike.eq_nil, join]
      exact .ok rfl
    | cons token rest =>
      obtain ⟨other, later, rfl, first, after⟩ := alike.uncons
      rw [join, join, first.kind]
      split
      · have marks := afterMark_alike token.line after
        rw [first.line]
        split
        · rename_i tail read
          have shorter := afterMark_length_lt read
          rw [read] at marks
          generalize afterMark token.line later = outcome at marks ⊢
          cases marks with
          | ok same => exact ih _ (by simp; omega) same.anywhere rfl
        · rename_i fault read
          rw [read] at marks
          generalize afterMark token.line later = outcome at marks ⊢
          cases marks with
          | error same => exact .error same
      · have rests := ih rest.length (by simp) after rfl
        split
        · rename_i joined read
          rw [read] at rests
          generalize join later = outcome at rests ⊢
          cases rests with
          | ok same =>
            refine .ok (.cons first (fun either => ?_) same)
            rw [Bool.or_eq_true] at either ⊢
            exact either.imp id (opensArguments_join read)
        · rename_i fault read
          rw [read] at rests
          generalize join later = outcome at rests ⊢
          cases rests with
          | error same => exact .error same

end Continuation

/-! ### Includes -/

namespace Include

variable {α β γ δ : Type}

/-- Two ways of including end alike and note the same. -/
def EndsAlike (agree : α → β → Prop) (left : Including α) (right : Including β) : Prop :=
  ∀ progress, EndAlike Fault.Alike Eq agree (left progress) (right progress)

namespace EndsAlike

variable {agree : α → β → Prop} {later : γ → δ → Prop} {left : Including α} {right : Including β}

/-- Returning a value echoes itself in small letters. -/
theorem pure {value : α} {other : β} (held : agree value other) :
    EndsAlike agree (Pure.pure value) (Pure.pure other) := fun _ => .ok held rfl

/-- Sequences end alike when both parts do. -/
theorem bind {next : α → Including γ} {other : β → Including δ} (first : EndsAlike agree left right)
    (rest : ∀ value result, agree value result → EndsAlike later (next value) (other result)) :
    EndsAlike later (left >>= next) (right >>= other) := by
  intro progress
  refine (first progress).bind fun value result after last held kept => ?_
  subst kept
  exact rest value result held after

/-- Refusals end alike. -/
theorem refuse (cause other : PrepareCause) (line : Nat) :
    EndsAlike agree (Include.refuse cause line) (Include.refuse other line) :=
  fun _ => .error (.preparing _ _ _) rfl

/-- What would come after a refusal does not matter. -/
theorem refuseBefore {next : α → Including γ} {other : β → Including δ} (cause result : PrepareCause)
    (line : Nat) :
    EndsAlike later (Include.refuse cause line >>= next) (Include.refuse result line >>= other) :=
  fun _ => .error (.preparing _ _ _) rfl

/-- Readings that end alike end alike under a weaker condition. -/
theorem mono {weaker : α → β → Prop} (ends : EndsAlike agree left right)
    (weakens : ∀ value other, agree value other → weaker value other) :
    EndsAlike weaker left right := fun progress => (ends progress).mono weakens fun _ _ => id

/-- What is noted does not depend on the spelling. -/
theorem refl (action : Including α) : EndsAlike Eq action action := by
  intro progress
  cases action progress with
  | ok result last => exact .ok rfl rfl
  | error fault last => exact .error (.refl fault) rfl

end EndsAlike

/-- An include names one file. -/
theorem target_alike {flag other token result : Token} {named : Bool} (line : other.line = flag.line)
    (alike : token.SpelledAlike named result) :
    EndsAlike (fun path file => file = path ∧ token.kind = .string) (target flag token)
      (target other result) := by
  unfold target
  rw [alike.kind, alike.isOperator, alike.line, line]
  split
  · rename_i isString
    rw [alike.eq_of_isVerbatim (by rw [isString]; rfl) (by simp [isString])]
    exact .pure ⟨rfl, isString⟩
  · split
    · exact .refuse _ _ _
    · exact .refuse _ _ _

/-- Sources that are alike stay alike when their includes are resolved. A parenthesis that opens one of
them still opens it then. -/
theorem expandWith_alike (host : Host) (splice : String → Nat → Including (List Token))
    (current : String) {lineStart named : Bool} {tokens others : List Token}
    (begins : lineStart = true → named = false) (alike : SpelledAlike named tokens others) :
    EndsAlike (fun found result => SpelledAlike named found result ∧
        (opensArguments tokens = true → opensArguments found = true))
      (expandWith host splice current lineStart tokens)
      (expandWith host splice current lineStart others) := by
  induction size : tokens.length using Nat.strongRecOn generalizing lineStart named tokens others with
  | ind size ih =>
    subst size
    cases tokens with
    | nil =>
      rw [alike.eq_nil]
      exact .pure ⟨rfl, id⟩
    | cons token rest =>
      obtain ⟨other, later, rfl, first, after⟩ := alike.uncons
      -- A flag is neither a name nor the word in front of one.
      have onFlag (isFlag : token.kind = .flag) : opensArguments (token :: rest) = false ∧
          (token.kind == .kwFunc) = false := by simp [opensArguments, isFlag]
      unfold expandWith Resolver.resolveWith
      dsimp only [flat_step, flat_done, flat_token, flat_append]
      rw [first.kind, first.lower, first.line, first.endsLine]
      split
      · rename_i once
        obtain ⟨closed, plain⟩ := onFlag once.1
        rw [plain] at after
        split
        · exact .refuseBefore _ _ _
        · refine .bind (.refl _) fun _ _ _ => (ih rest.length (by simp) (fun _ => rfl) after rfl).mono ?_
          exact fun found result same => ⟨same.1.anywhere, by simp [closed]⟩
      · split
        · rename_i include'
          obtain ⟨closed, plain⟩ := onFlag include'.1
          rw [plain] at after
          split
          · exact .refuseBefore _ _ _
          · cases rest with
            | nil =>
              rw [after.eq_nil]
              exact .refuse _ _ _
            | cons file rest =>
              obtain ⟨other', later, rfl, second, after⟩ := after.uncons
              refine .bind (target_alike first.line second) fun path _ located => ?_
              obtain ⟨rfl, isString⟩ := located
              rw [isString] at after
              refine .bind (.refl _) fun spliced _ same => ?_
              subst same
              have shorter : rest.length < (token :: file :: rest).length := by
                simp only [List.length_cons]
                omega
              refine .bind (ih rest.length shorter (fun _ => rfl) after rfl) fun found result same => ?_
              exact .pure ⟨.append_eol rfl spliced same.1, by simp [closed]⟩
        · split
          · exact .refuse _ _ _
          · refine .bind (ih rest.length (by simp) (fun ends => ?_) after rfl) fun found result same => ?_
            · have notFunc : token.kind ≠ .kwFunc := fun isFunc => by
                simp [Token.endsLine, isFunc] at ends
              simpa using notFunc
            · refine .pure ⟨.cons first (fun either => ?_) same.1, id⟩
              rw [Bool.or_eq_true] at either ⊢
              exact either.imp id same.2

/-- Includes are resolved alike. -/
theorem resolve_alike (host : Host) (script : String) {tokens others : List Token}
    (alike : SpelledAlike false tokens others) :
    EndsAlike (SpelledAlike false) (resolve host script tokens) (resolve host script others) :=
  (expandWith_alike host _ _ (fun _ => rfl) alike).mono fun _ _ same => same.1

end Include

end LineScript
