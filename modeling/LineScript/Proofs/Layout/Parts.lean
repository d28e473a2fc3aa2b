import LineScript.Interpreter.Assignment
import LineScript.Interpreter.Declaration
import LineScript.Interpreter.Selection
import LineScript.Proofs.Layout.Seek
import LineScript.Proofs.Outcome

/-!
# Parts of statements

The parts of choices and selections are windows of the tokens that the statement stands among, and
what is missing is reported in one of a few ways. What a declaration declares is read off its words
and its list.
-/

namespace LineScript

/-!
## Parts of choices and selections
-/

/-- The parts of a branch are windows of a run of tokens. -/
def Branch.IsOf (tokens : TokenBlock) (branch : Branch) : Prop :=
  branch.body.tokens = tokens ∧ ∀ header ∈ branch.condition, header.tokens = tokens

/-- The parts of a clause are windows of a run of tokens. -/
def Clause.IsOf (tokens : TokenBlock) (clause : Clause) : Prop :=
  clause.body.tokens = tokens ∧ clause.header.tokens = tokens

/-- All parts of a choice are windows of the same run of tokens. -/
theorem Branch.split_isOf {window : Window} {close : Nat} {condition : Option Window}
    {start : Nat} {markers : List Nat} {branches : List Branch}
    (made : split window close condition start markers = .ok branches)
    (first : ∀ header ∈ condition, header.tokens = window.tokens) :
    ∀ branch ∈ branches, branch.IsOf window.tokens := by
  have head : ∀ stop, Branch.IsOf window.tokens
      ⟨condition, .slice window.tokens start stop⟩ := fun stop => ⟨rfl, first⟩
  induction markers generalizing condition start branches with
  | nil =>
    cases made
    exact List.forall_mem_singleton.mpr (head close)
  | cons marker markers ih =>
    -- Each marker ends one branch and begins the next one.
    have rest : ∀ {condition start others},
        split window close condition start markers = .ok others →
        (∀ header ∈ condition, header.tokens = window.tokens) →
        ∀ branch ∈ others, branch.IsOf window.tokens :=
      fun made first => ih made first fun _ => ⟨rfl, first⟩
    simp only [split] at made
    split at made
    · cases made
      exact List.forall_mem_singleton.mpr (head marker)
    · split at made
      · split at made
        · obtain ⟨others, madeOthers, same⟩ := bind_eq_ok.mp made
          cases same
          exact List.forall_mem_cons.mpr ⟨head marker, rest madeOthers (by simp [Window.slice])⟩
        · cases made
      · obtain ⟨others, madeOthers, same⟩ := bind_eq_ok.mp made
        cases same
        exact List.forall_mem_cons.mpr ⟨head marker, rest madeOthers nofun⟩

/-- All parts of a choice over several lines are windows of the same run of tokens. -/
theorem choiceBranches_isOf {window : Window} {opener : Token} {pos found close : Nat}
    {branches : List Branch}
    (made : choiceBranches window opener pos found = .ok (branches, close)) :
    ∀ branch ∈ branches, branch.IsOf window.tokens := by
  unfold choiceBranches at made
  dsimp only at made
  split at made
  · cases made
  · obtain ⟨others, split, same⟩ := bind_eq_ok.mp made
    cases same
    exact Branch.split_isOf split (by simp [Window.slice])

/-- The clauses between cases are parts of their block. -/
theorem clausesAt_isOf (tokens : TokenBlock) (close : Nat) (cases' : List Nat) :
    ∀ clause ∈ clausesAt tokens close cases', clause.IsOf tokens := by
  induction cases' with
  | nil => simp [clausesAt]
  | cons case' cases' ih => exact List.forall_mem_cons.mpr ⟨⟨rfl, rfl⟩, ih⟩

/-- All parts of a selection are windows of the same run of tokens. -/
theorem clauses_isOf {window : Window} {opener : Token} {start close : Nat} {closer : TokenKind}
    {name : String} {found : List Clause}
    (made : clauses window opener start closer name = .ok (found, close)) :
    ∀ clause ∈ found, clause.IsOf window.tokens := by
  unfold clauses at made
  dsimp only at made
  repeat' split at made
  all_goals cases made
  all_goals exact clausesAt_isOf _ _ _

/-- A choice is split into branches unless a condition among its keywords has no end. -/
theorem Branch.split_fault {window : Window} {close : Nat} {condition : Option Window}
    {start : Nat} {markers : List Nat} {fault : Fault}
    (failed : split window close condition start markers = .error fault) :
    ∃ marker ∈ markers, ∃ token, window.tokens[marker]? = some token ∧ token.kind = .kwElseIf ∧
      Layout.findThen window.tokens marker window.stop = none ∧
      fault = closerFault token "Then" := by
  induction markers generalizing condition start with
  | nil => cases failed
  | cons marker markers ih =>
    have later : ∀ {condition start}, split window close condition start markers = .error fault →
        ∃ other ∈ marker :: markers, ∃ token, window.tokens[other]? = some token ∧
          token.kind = .kwElseIf ∧ Layout.findThen window.tokens other window.stop = none ∧
          fault = closerFault token "Then" := by
      intro condition start failed
      obtain ⟨other, member, rest⟩ := ih failed
      exact ⟨other, List.mem_cons_of_mem _ member, rest⟩
    simp only [split] at failed
    split at failed
    · cases failed
    · rename_i token stored
      split at failed
      · rename_i isElseIf
        split at failed
        · obtain failed | ⟨_, _, ⟨⟩⟩ := bind_eq_error.mp failed
          exact later failed
        · rename_i none'
          cases failed
          exact ⟨marker, List.mem_cons_self, token, stored, isElseIf, none', rfl⟩
      · obtain failed | ⟨_, _, ⟨⟩⟩ := bind_eq_error.mp failed
        exact later failed

/-- A choice over several lines is found unless its closing word, or the end of one of its
conditions, is missing. -/
theorem choiceBranches_fault {window : Window} {opener : Token} {pos found : Nat} {fault : Fault}
    (failed : choiceBranches window opener pos found = .error fault) :
    let visit := Layout.scanOutermost window.tokens (found + 1) window.stop
      fun token => token.kind == .kwEndIf
    visit.halted = none ∧ fault = closerFault opener "EndIf" ∨
      ∃ marker ∈ visit.visited, ∃ token, window.tokens[marker]? = some token ∧
        token.kind = .kwElseIf ∧ Layout.findThen window.tokens marker window.stop = none ∧
        fault = closerFault token "Then" := by
  unfold choiceBranches at failed
  dsimp only at failed ⊢
  split at failed
  · rename_i none'
    cases failed
    exact .inl ⟨none', rfl⟩
  · obtain failed | ⟨_, _, ⟨⟩⟩ := bind_eq_error.mp failed
    obtain ⟨marker, member, rest⟩ := Branch.split_fault failed
    exact .inr ⟨marker, (List.mem_filter.mp member).1, rest⟩

/-- The clauses of a selection are found unless its closing word is missing or something stands
before the first one. -/
theorem clauses_fault {window : Window} {opener : Token} {start : Nat} {closer : TokenKind}
    {name : String} {fault : Fault}
    (failed : clauses window opener start closer name = .error fault) :
    (Layout.scanOutermost window.tokens start window.stop
        fun token => token.kind == closer).halted = none ∧ fault = closerFault opener name ∨
      ∃ text line, fault = .running (.beforeCase text) line [] := by
  unfold clauses at failed
  dsimp only at failed
  split at failed
  · rename_i none'
    cases failed
    exact .inl ⟨none', rfl⟩
  · repeat' split at failed
    all_goals cases failed
    exact .inr ⟨_, _, rfl⟩

/-!
## What a declaration declares

The words in front of a declaration say where its variables go. The variables stand at the beginning
of its list and after the commas of the list; commas inside brackets separate the elements of arrays.
What an expression reads is closed in itself, so it can be left out when the variables of a list are
looked for (`Window.Skips`).
-/

/-- The name, in small letters, of the variable that stands first among tokens. -/
def firstVariable (tokens : List Token) : List String :=
  match tokens with
  | token :: _ => if token.kind = .variableName then [Text.lower token.lexeme] else []
  | [] => []

/-- The names, in small letters, of the variables that stand right after a comma of a list, up to the
end of the line; `depth` counts the brackets that are open. -/
def laterVariables (depth : Nat) : List Token → List String
  | [] => []
  | token :: rest =>
    match token.kind with
    | .eol | .comment => []
    | .lbracket => laterVariables (depth + 1) rest
    | .rbracket => laterVariables (depth - 1) rest
    | .separator =>
      if depth = 0 then firstVariable rest ++ laterVariables depth rest
      else laterVariables depth rest
    | _ => laterVariables depth rest

/-- Kinds of tokens that mean something to the list of a declaration. -/
def TokenKind.shapesList : TokenKind → Bool
  | eol | comment | lbracket | rbracket | separator => true
  | _ => false

/-- A token that shapes no list names no variable. -/
theorem laterVariables_cons {token : Token} (other : token.kind.shapesList = false) (depth : Nat)
    (rest : List Token) : laterVariables depth (token :: rest) = laterVariables depth rest := by
  rw [laterVariables]
  generalize token.kind = kind at other
  cases kind <;> first | rfl | cases other

namespace Window

/-- The tokens of a window from a position on. -/
def rest (window : Window) (pos : Nat) : List Token :=
  (window.tokens.toList.take window.stop).drop pos

/-- The variables of a list that begins at a position. -/
def listed (window : Window) (pos : Nat) : List String :=
  firstVariable (window.rest pos) ++ laterVariables 0 (window.rest pos)

/-- The position behind the words in front of a declaration. -/
def behindWords (window : Window) (pos : Nat) : Nat :=
  Layout.seek (fun token => token.kind != .kwScope) window.tokens pos window.stop

/-- What the words in front of a declaration say. -/
def modifiers (window : Window) (pos : Nat) : Modifiers :=
  ((window.tokens.extract pos (window.behindWords pos)).toList.map Token.lexeme).foldl
    Modifiers.add {}

/-- Where the variables go that the statement at a position declares, and their names in small
letters; none if it is no declaration. -/
def declared (window : Window) (pos : Nat) : DeclScope × List String :=
  let first := window.behindWords pos
  if window.hasKind pos .kwScope || window.hasKind pos .kwEnum then
    if window.hasKind first .kwEnum then ((window.modifiers pos).target, window.listed (first + 1))
    else ((window.modifiers pos).scope, window.listed first)
  else (.inner, [])

/-- The statement at a position declares a variable. -/
def Declares (window : Window) (pos : Nat) (target : DeclScope) (key : String) : Prop :=
  (window.declared pos).1 = target ∧ key ∈ (window.declared pos).2

instance (window : Window) (pos : Nat) (target : DeclScope) (key : String) :
    Decidable (window.Declares pos target key) :=
  inferInstanceAs (Decidable (_ ∧ _))

variable {window : Window} {pos later last : Nat} {token : Token}

/-- The tokens from a stored one on start with it. -/
theorem rest_of_token? (found : window.token? pos = some token) :
    window.rest pos = token :: window.rest (pos + 1) := by
  obtain ⟨inside, stored⟩ := token?_eq_some.mp found
  obtain ⟨bound, rfl⟩ := Array.getElem?_eq_some_iff.mp stored
  have long : pos < (window.tokens.toList.take window.stop).length := by
    rw [List.length_take]
    exact Nat.lt_min.mpr ⟨inside, by simpa using bound⟩
  rw [rest, rest, List.drop_eq_getElem_cons long, List.getElem_take]
  rfl

/-- The words in front of a declaration are plain. -/
theorem passes_behindWords (window : Window) (pos : Nat) :
    window.Passes pos (window.behindWords pos) := by
  refine ⟨Layout.le_seek _ _ _ _, fun at' after before => ?_⟩
  obtain ⟨token, stored, isWord⟩ := Layout.not_accept_of_lt_seek after before
  have inside : at' < window.stop := by
    by_cases le : pos ≤ window.stop
    · have := Layout.seek_le (fun token => token.kind != .kwScope) window.tokens le
      unfold behindWords at before
      omega
    · rw [behindWords, Layout.seek, if_neg (by omega)] at before
      omega
  refine ⟨token, Window.token?_eq_some.mpr ⟨inside, stored⟩, ?_⟩
  have kind : token.kind = .kwScope := by simpa using isWord
  rw [kind]
  rfl

/-- An assignment begins with an operator. -/
theorem exists_of_assignment? {operator : String} (assigns : window.assignment? pos = some operator) :
    ∃ token, window.token? pos = some token ∧ token.kind = .operator := by
  unfold Window.assignment? at assigns
  split at assigns
  · rename_i token found
    split at assigns
    · rename_i isOperator
      exact ⟨token, found, isOperator.1⟩
    · simp at assigns
  · simp at assigns

/-- An enumeration without words in front of it. -/
theorem declared_enum (word : window.hasKind pos .kwEnum = true) :
    window.declared pos = (.inner, window.listed (pos + 1)) := by
  obtain ⟨token, found, kind⟩ := exists_of_hasKind word
  obtain ⟨inside, stored⟩ := token?_eq_some.mp found
  have behind : window.behindWords pos = pos := by
    unfold behindWords Layout.seek
    simp [inside, stored, kind]
  simp [declared, behind, word, modifiers]

/-- What stands between two positions is closed in itself: it adds nothing to a list. -/
def Skips (window : Window) (pos later : Nat) : Prop :=
  ∀ depth, laterVariables depth (window.rest pos) = laterVariables depth (window.rest later)

/-- From a position inside a bracket up to another one, the bracket is closed. -/
def Closes (window : Window) (pos later : Nat) : Prop :=
  ∀ depth, laterVariables (depth + 1) (window.rest pos) = laterVariables depth (window.rest later)

namespace Skips

/-- Nothing is skipped from a position to itself. -/
theorem refl (window : Window) (pos : Nat) : window.Skips pos pos := fun _ => rfl

/-- Skipping is transitive. -/
theorem trans (earlier : window.Skips pos later) (after : window.Skips later last) :
    window.Skips pos last := fun depth => (earlier depth).trans (after depth)

/-- One token that means nothing to the list. -/
theorem one (found : window.token? pos = some token) (other : token.kind.shapesList = false) :
    window.Skips pos (pos + 1) := by
  intro depth
  rw [rest_of_token? found, laterVariables_cons other]

/-- A pair of brackets with something between them. -/
theorem brackets (opened : window.hasKind pos .lbracket = true)
    (inside : window.Closes (pos + 1) later) : window.Skips pos later := by
  obtain ⟨token, found, kind⟩ := exists_of_hasKind opened
  intro depth
  rw [rest_of_token? found, laterVariables, kind]
  exact inside depth

end Skips

namespace Closes

/-- What closes after a skipped stretch closes with it. -/
theorem skips (earlier : window.Skips pos later) (closes : window.Closes later last) :
    window.Closes pos last := fun depth => (earlier (depth + 1)).trans (closes depth)

/-- The closing bracket. -/
theorem bracket (found : window.token? pos = some token) (kind : token.kind = .rbracket) :
    window.Closes pos (pos + 1) := by
  intro depth
  rw [rest_of_token? found, laterVariables, kind]
  rfl

/-- A comma inside brackets. -/
theorem comma (found : window.token? pos = some token) (kind : token.kind = .separator)
    (closes : window.Closes (pos + 1) last) : window.Closes pos last := by
  intro depth
  rw [rest_of_token? found, laterVariables, kind]
  simpa using closes depth

end Closes

/-- The variable at the beginning of a list. -/
theorem mem_listed_first (found : window.token? pos = some token)
    (kind : token.kind = .variableName) : Text.lower token.lexeme ∈ window.listed pos := by
  rw [listed, rest_of_token? found, firstVariable, if_pos kind]
  exact List.mem_append_left _ (List.mem_singleton_self _)

/-- After a comma the rest of a list follows. -/
theorem listed_subset_comma (skips : window.Skips pos later)
    (comma : window.hasKind later .separator = true) :
    ∀ key ∈ window.listed (later + 1), key ∈ window.listed pos := by
  intro key member
  obtain ⟨token, found, kind⟩ := exists_of_hasKind comma
  refine List.mem_append_right _ ?_
  rw [skips 0, rest_of_token? found, laterVariables, kind]
  simpa [listed] using member

end Window

/-- A declaration is an enumeration or a list, behind its scope words. -/
theorem Engine.declaration_eq (low : Engine) (window : Window) (pos : Nat) :
    low.declaration window pos =
      if window.hasKind (window.behindWords pos) .kwEnum then
        low.enumeration window (window.modifiers pos).target (window.behindWords pos + 1)
      else low.declareEach window (window.modifiers pos) low.fuel (window.behindWords pos) := rfl

end LineScript
