import LineScript.Proofs.Layout.Correspondence
import LineScript.Proofs.Spelling.Tokens
import Mathlib.Data.List.Forall2

/-!
# Renditions of tokens and programs

A rendition of a script shows its tokens again: some positions further on in another run, or, where
names may be spelled anew, in small letters. What a window shows in one place and what it shows in
another are compared here, and so are the tables of two programs. A name behind the word that opens a
function may be spelled anew although it stands for itself elsewhere; an expression is never read from
there, so what is known of the token that was read is carried along to the one behind it
(`Window.ShowsAt`).
-/

namespace LineScript

variable {respells named : Prop} {shift : Nat}

/-! ### Tokens -/

/-- The other token is the same or, where names may be spelled anew, the token in small letters; a name
that stands for itself may be spelled anew where it is the name of a function. -/
def Token.Renders (respells named : Prop) (token other : Token) : Prop :=
  other = token ∨ respells ∧ ∃ isName : Bool, (isName = true → named) ∧ other = token.small isName

/-- The other cause is the same or, where names may be spelled anew, one of the same kind. -/
def RunCause.Renders (respells : Prop) (cause other : RunCause) : Prop :=
  other = cause ∨ respells ∧ other.kind = cause.kind

/-- A cause is given again. -/
theorem RunCause.Renders.refl (cause : RunCause) : cause.Renders respells cause := .inl rfl

namespace Token.Renders

variable {token other : Token} (renders : token.Renders respells named other)
include renders

/-- It is of the same kind. -/
theorem kind : other.kind = token.kind := by
  rcases renders with rfl | ⟨_, _, _, rfl⟩
  · rfl
  · exact token.kind_small _

/-- It stands on the same line. -/
theorem line : other.line = token.line := by
  rcases renders with rfl | ⟨_, _, _, rfl⟩
  · rfl
  · exact token.line_small _

/-- It names the same. -/
theorem name : Text.lower other.lexeme = Text.lower token.lexeme := by
  rcases renders with rfl | ⟨_, _, _, rfl⟩
  · rfl
  · exact token.lower_lexeme_small _

/-- It ends a line if the token does. -/
theorem endsLine : other.endsLine = token.endsLine := by
  rw [Token.endsLine, Token.endsLine, renders.kind]

/-- It is the same operator. -/
theorem isOperator (operator : String) : other.isOperator operator = token.isOperator operator := by
  rcases renders with rfl | ⟨_, _, _, rfl⟩
  · rfl
  · exact token.isOperator_small _ _

/-- It is spelled anew only where names may be. -/
theorem spelled : other = token ∨ respells := renders.imp_right And.left

/-- A token whose text counts is the same, unless it is the name of a function. -/
theorem eq_of_isVerbatim (verbatim : token.kind.isVerbatim = true)
    (free : token.kind = .identifier → ¬ named) : other = token := by
  rcases renders with rfl | ⟨_, isName, permitted, rfl⟩
  · rfl
  · exact Token.small_of_isVerbatim verbatim fun kind =>
      Bool.eq_false_iff.mpr fun isName => free kind (permitted isName)

/-- A cause that tells of a token is one of a kind, however the token is spelled. -/
theorem cause (tells : Token → RunCause)
    (kind : ∀ token other : Token, (tells other).kind = (tells token).kind) :
    (tells token).Renders respells (tells other) := by
  rcases renders.spelled with rfl | may
  · exact .refl _
  · exact .inr ⟨may, kind token other⟩

end Token.Renders

/-! ### Windows -/

namespace Window

/-- The far window shows what stands at a position of the near one, so much further on. -/
def ShowsAt (respells named : Prop) (shift : Nat) (near far : Window) (pos : Nat) : Prop :=
  near.token? pos = none ∧ far.token? (shift + pos) = none ∨
    ∃ token other, near.token? pos = some token ∧ far.token? (shift + pos) = some other ∧
      token.Renders respells named other

/-- The far window shows the near one so much further on. Behind a word that opens a function a name may
be spelled anew, but not at the start. -/
structure Renders (respells : Prop) (shift : Nat) (near far : Window) : Prop where
  /-- They start at places that correspond. -/
  start : far.start = shift + near.start
  /-- Every token is shown. -/
  token : ∀ pos, near.ShowsAt respells True shift far pos
  /-- At the start stands no name of a function. -/
  first : near.ShowsAt respells False shift far near.start
  /-- Behind any other word stands no name of a function. -/
  next : ∀ {pos token}, near.token? pos = some token → token.kind ≠ .kwFunc →
    near.ShowsAt respells False shift far (pos + 1)

/-- The far window shows the near one so much further on, where no name of a function stands. -/
structure Copies (respells : Prop) (shift : Nat) (near far : Window) : Prop where
  /-- They start at places that correspond. -/
  start : far.start = shift + near.start
  /-- They end at places that correspond. -/
  stop : far.stop = shift + near.stop
  /-- Every token is shown. -/
  stored : ∀ pos, pos < near.stop →
    near.tokens[pos]? = none ∧ far.tokens[shift + pos]? = none ∨
      ∃ token other, near.tokens[pos]? = some token ∧ far.tokens[shift + pos]? = some other ∧
        token.Renders respells False other
  /-- A part of them is cut off by the ends of both runs or by none. -/
  ends : ∀ pos, pos ≤ near.stop →
    min (shift + pos) far.tokens.size = shift + min pos near.tokens.size

variable {near far window : Window} {pos : Nat}

/-- Where no name of a function stands, none is spelled anew. -/
theorem ShowsAt.weaken (shows' : near.ShowsAt respells False shift far pos) :
    near.ShowsAt respells named shift far pos := by
  rcases shows' with missing | ⟨token, other, found, found', same | ⟨may, isName, permitted, same⟩⟩
  · exact .inl missing
  · exact .inr ⟨token, other, found, found', .inl same⟩
  · exact .inr ⟨token, other, found, found', .inr ⟨may, isName, fun is => (permitted is).elim, same⟩⟩

namespace Renders

variable (renders : near.Renders respells shift far)
include renders

/-- Corresponding positions hold the same kinds. -/
theorem hasKind (pos : Nat) (kind : TokenKind) :
    far.hasKind (shift + pos) kind = near.hasKind pos kind := by
  unfold Window.hasKind
  rcases renders.token pos with ⟨here, there⟩ | ⟨token, other, here, there, same⟩
  · rw [here, there]
  · rw [here, there]
    dsimp only
    rw [same.kind]

/-- Corresponding positions hold the same operators. -/
theorem hasOperator (pos : Nat) (operator : String) :
    far.hasOperator (shift + pos) operator = near.hasOperator pos operator := by
  unfold Window.hasOperator
  rcases renders.token pos with ⟨here, there⟩ | ⟨token, other, here, there, same⟩
  · rw [here, there]
  · rw [here, there]
    exact same.isOperator operator

/-- Lines end at corresponding positions. -/
theorem endsLine (pos : Nat) : far.endsLine (shift + pos) = near.endsLine pos := by
  unfold Window.endsLine
  rcases renders.token pos with ⟨here, there⟩ | ⟨token, other, here, there, same⟩
  · rw [here, there]
  · rw [here, there]
    exact same.endsLine

/-- Corresponding positions hold the same assigning operators. -/
theorem assignment? (pos : Nat) : far.assignment? (shift + pos) = near.assignment? pos := by
  unfold Window.assignment?
  rcases renders.token pos with ⟨here, there⟩ | ⟨token, other, here, there, same⟩
  · rw [here, there]
  · rw [here, there]
    dsimp only
    rw [same.kind]
    by_cases kind : token.kind = .operator
    · rw [same.eq_of_isVerbatim (by rw [kind]; rfl) (by simp [kind])]
    · rw [if_neg fun both => kind both.1, if_neg fun both => kind both.1]

/-- Behind a token of a kind that is asked for. -/
theorem behind {kind : TokenKind} (stored : near.hasKind pos kind = true)
    (notFunc : kind ≠ .kwFunc) : near.ShowsAt respells False shift far (pos + 1) := by
  obtain ⟨token, found, rfl⟩ := exists_of_hasKind stored
  exact renders.next found notFunc

/-- Behind an operator that is asked for. -/
theorem behindOperator {operator : String} (stored : near.hasOperator pos operator = true) :
    near.ShowsAt respells False shift far (pos + 1) := by
  obtain ⟨token, found, kind⟩ := exists_of_hasOperator stored
  exact renders.next found (by simp [kind])

/-- Behind an assigning operator. -/
theorem behindAssignment {operator : String} (stored : near.assignment? pos = some operator) :
    near.ShowsAt respells False shift far (pos + 1) := by
  unfold Window.assignment? at stored
  split at stored
  · rename_i token found
    split at stored
    · rename_i assigning
      exact renders.next found (by simp [assigning.1])
    · cases stored
  · cases stored

end Renders

namespace Copies

/-- A window shows itself. -/
theorem refl (window : Window) : window.Copies respells 0 window where
  start := (Nat.zero_add _).symm
  stop := (Nat.zero_add _).symm
  stored pos _ := by
    rw [Nat.zero_add]
    cases window.tokens[pos]? with
    | none => exact .inl ⟨rfl, rfl⟩
    | some token => exact .inr ⟨token, token, rfl, rfl, .inl rfl⟩
  ends pos _ := by rw [Nat.zero_add, Nat.zero_add]

/-- A window shows itself in small letters. -/
theorem small (may : respells) (window : Window) : window.Copies respells 0 window.small where
  start := (Nat.zero_add _).symm
  stop := (Nat.zero_add _).symm
  stored pos _ := by
    rw [Nat.zero_add, Window.small, TokenBlock.small, Array.getElem?_map]
    cases window.tokens[pos]? with
    | none => exact .inl ⟨rfl, rfl⟩
    | some token => exact .inr ⟨token, _, rfl, rfl, .inr ⟨may, false, Bool.false_ne_true, rfl⟩⟩
  ends pos _ := by
    rw [Nat.zero_add, Nat.zero_add, Window.small, TokenBlock.small, Array.size_map]

variable (copies : near.Copies respells shift far) {last stop : Nat}
include copies

/-- The tokens are of the same kinds. -/
theorem kinds : Layout.Agree Token.kind near.tokens far.tokens shift near.stop := by
  intro pos inside
  rcases copies.stored pos inside with ⟨here, there⟩ | ⟨token, other, here, there, same⟩
  · rw [here, there]
  · rw [here, there]
    exact congrArg some same.kind

/-- Every token is shown. -/
theorem showsAt (pos : Nat) : near.ShowsAt respells False shift far pos := by
  unfold ShowsAt Window.token?
  rw [copies.stop]
  by_cases inside : pos < near.stop
  · rw [if_pos inside, if_pos (by omega)]
    exact copies.stored pos inside
  · rw [if_neg inside, if_neg (by omega)]
    exact .inl ⟨rfl, rfl⟩

/-- What is shown without names of functions is shown. -/
theorem renders : near.Renders respells shift far where
  start := copies.start
  token pos := (copies.showsAt pos).weaken
  first := copies.showsAt _
  next _ _ := copies.showsAt _

/-- Parts of the windows show each other. -/
theorem slice (first : Nat) (le : last ≤ near.stop) :
    (Window.slice near.tokens first last).Copies respells shift
      (.slice far.tokens (shift + first) (shift + last)) where
  start := rfl
  stop := copies.ends last le
  stored pos before := copies.stored pos
    (Nat.lt_of_lt_of_le before (Nat.le_trans (Nat.min_le_left _ _) le))
  ends pos inside := copies.ends pos (Nat.le_trans inside (Nat.le_trans (Nat.min_le_left _ _) le))

/-- The words that declare are the same. -/
theorem extract_words (pos : Nat) :
    far.tokens.extract (shift + pos)
        (shift + Layout.seek (fun token => token.kind != .kwScope) near.tokens pos near.stop) =
      near.tokens.extract pos
        (Layout.seek (fun token => token.kind != .kwScope) near.tokens pos near.stop) := by
  by_cases inside : pos ≤ near.stop
  · have le := Layout.seek_le (fun token => token.kind != .kwScope) near.tokens inside
    have cut := copies.ends _ le
    refine Array.ext_getElem? fun offset => ?_
    rw [Array.getElem?_extract, Array.getElem?_extract]
    by_cases before : offset < min (Layout.seek (fun token => token.kind != .kwScope) near.tokens pos
        near.stop) near.tokens.size - pos
    · obtain ⟨token, here, word⟩ := Layout.not_accept_of_lt_seek (Nat.le_add_right pos offset)
        (show pos + offset < Layout.seek (fun token => token.kind != .kwScope) near.tokens pos
          near.stop by omega)
      have isWord : token.kind = .kwScope := by simpa using word
      rw [if_pos before, if_pos (by omega), Nat.add_assoc, here]
      rcases copies.stored (pos + offset) (by omega) with ⟨missing, _⟩ | ⟨_, other, found, there, same⟩
      · rw [missing] at here
        cases here
      · obtain rfl := Option.some.inj (here.symm.trans found)
        rw [there, same.eq_of_isVerbatim (by rw [isWord]; rfl) (by simp [isWord])]
    · rw [if_neg before, if_neg (by omega)]
  · -- No word is passed over behind the windows.
    rw [Layout.seek, if_neg (by omega), Array.extract_eq_empty_of_le (by omega),
      Array.extract_eq_empty_of_le (by omega)]

end Copies

end Window

/-! ### Expressions that are set aside -/

/-- The other tokens show an expression again. -/
abbrev TokenBlock.Renders (respells : Prop) (group other : TokenBlock) : Prop :=
  (Window.whole group).Renders respells 0 (.whole other)

namespace TokenBlock.Renders

/-- An expression shows itself. -/
theorem refl (group : TokenBlock) : group.Renders respells group :=
  (Window.Copies.refl (.whole group)).renders

/-- The token of a whole group at a position. -/
theorem token?_whole (group : TokenBlock) (pos : Nat) :
    (Window.whole group).token? pos = group.toList[pos]? := by
  rw [Array.getElem?_toList]
  unfold Window.token?
  split
  · rfl
  · rename_i beyond
    exact (Array.getElem?_eq_none (Nat.le_of_not_lt beyond)).symm

/-- What stands in a list in small letters at a position. -/
theorem showsAt_small (may : respells) {group : TokenBlock} {pos : Nat} (isName : Bool)
    (permitted : isName = true → named)
    (same : (smallList false group.toList)[pos]? = group.toList[pos]?.map (Token.small isName)) :
    (Window.whole group).ShowsAt respells named 0 (.whole group.smallGroup) pos := by
  unfold Window.ShowsAt
  rw [Nat.zero_add, token?_whole, token?_whole, TokenBlock.smallGroup, same]
  cases group.toList[pos]? with
  | none => exact .inl ⟨rfl, rfl⟩
  | some token => exact .inr ⟨token, _, rfl, rfl, .inr ⟨may, isName, permitted, rfl⟩⟩

/-- An expression shows itself in small letters. -/
theorem small (may : respells) (group : TokenBlock) : group.Renders respells group.smallGroup where
  start := rfl
  token pos := by
    obtain ⟨isName, same⟩ := getElem?_smallList false group.toList pos
    exact showsAt_small may isName (fun _ => trivial) same
  first := by
    refine showsAt_small may false Bool.false_ne_true ?_
    cases group.toList with
    | nil => rfl
    | cons token rest => rfl
  next {pos token} found other := by
    rw [token?_whole] at found
    have behind := @getElem?_smallList_succ false _ _ _ found
    have word : (token.kind == .kwFunc) = false := by simpa using other
    rw [word] at behind
    exact showsAt_small may false Bool.false_ne_true behind

end TokenBlock.Renders

/-! ### Tables -/

/-- The other value is the same or, where names may be spelled anew, the value in small letters. -/
def Anew {α : Type} (respells : Prop) (small : α → α) (value other : α) : Prop :=
  other = value ∨ respells ∧ other = small value

namespace Anew

variable {α β : Type} {small : α → α} {value other : α}

/-- A value is the same. -/
theorem refl (value : α) : Anew respells small value value := .inl rfl

/-- What is not spelled is the same in small letters. -/
theorem look (renders : Anew respells small value other) (look : α → β)
    (blind : ∀ value, look (small value) = look value) : look other = look value := by
  rcases renders with rfl | ⟨_, rfl⟩
  · rfl
  · exact blind value

/-- What is spelled is the same, or in small letters. -/
theorem map (renders : Anew respells small value other) (look : α → β) {smallLook : β → β}
    (spells : ∀ value, look (small value) = smallLook (look value)) :
    Anew respells smallLook (look value) (look other) := by
  rcases renders with rfl | ⟨may, rfl⟩
  · exact .refl _
  · exact .inr ⟨may, spells value⟩

/-- What is found under one key in two tables. -/
theorem found {values others : Option α}
    (same : Anew respells (Option.map small) values others) :
    Option.Rel (Anew respells small) values others := by
  rcases same with rfl | ⟨may, rfl⟩
  · cases others with
    | none => exact .none
    | some value => exact .some (.refl value)
  · cases values with
    | none => exact .none
    | some value => exact .some (.inr ⟨may, rfl⟩)

/-- The members of a list. -/
theorem forall₂ {values others : List α} (same : Anew respells (List.map small) values others) :
    List.Forall₂ (Anew respells small) values others := by
  rcases same with rfl | ⟨may, rfl⟩
  · exact List.forall₂_same.mpr fun value _ => .refl value
  · exact List.forall₂_map_right_iff.mpr (List.forall₂_same.mpr fun value _ => .inr ⟨may, rfl⟩)

end Anew

/-- An expression of a table shows itself again. -/
theorem TokenBlock.Renders.of_anew {group other : TokenBlock}
    (same : Anew respells TokenBlock.smallGroup group other) : group.Renders respells other := by
  rcases same with rfl | ⟨may, rfl⟩
  · exact .refl _
  · exact .small may _

/-- Lists of expressions that show themselves again. -/
theorem TokenBlock.Renders.forall₂ {groups others : List TokenBlock}
    (same : Anew respells (List.map TokenBlock.smallGroup) groups others) :
    List.Forall₂ (TokenBlock.Renders respells) groups others :=
  same.forall₂.imp fun _ _ => .of_anew

/-- An expression that may be absent shows itself again. -/
theorem TokenBlock.Renders.rel {group other : Option TokenBlock}
    (same : Anew respells (Option.map TokenBlock.smallGroup) group other) :
    Option.Rel (TokenBlock.Renders respells) group other := by
  cases same.found with
  | none => exact .none
  | some here => exact .some (.of_anew here)

/-- The other program is the same or, where names may be spelled anew, the program in small letters. -/
abbrev Program.Renders (respells : Prop) (program other : Program) : Prop :=
  Anew respells Program.small program other

namespace Program.Renders

variable {program other : Program} (renders : program.Renders respells other)
include renders

/-- The calls of a number. -/
theorem call (id : Nat) :
    Option.Rel (Anew respells CallSite.small) program.calls[id]? other.calls[id]? :=
  (renders.map (fun program => program.calls[id]?) fun _ => Array.getElem?_map).found

/-- The loops of a number. -/
theorem loop (id : Nat) :
    Option.Rel (Anew respells ForLoop.small) program.loops[id]? other.loops[id]? :=
  (renders.map (fun program => program.loops[id]?) fun _ => Array.getElem?_map).found

/-- The functions of a name, however it is spelled. -/
theorem function? {name spelled : String} (same : Text.lower spelled = Text.lower name) :
    Option.Rel (Anew respells UserFunction.small) (program.function? name)
      (other.function? spelled) := by
  have key : other.function? spelled = other.function? name := by
    rw [Program.function?, Program.function?, same]
  rw [key]
  exact (renders.map (fun program => program.function? name)
    fun program => program.function?_small name).found

end Program.Renders

end LineScript
