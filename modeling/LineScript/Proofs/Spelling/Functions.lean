import LineScript.Proofs.Spelling.Loops

/-!
# Taking out functions does not see case

Reading tokens in small letters takes out the same functions, in small letters. The name of a
function stands behind the word that opens it and is put in small letters there; what is left behind
opens no function any more.
-/

namespace LineScript.Functions

/-- A default value is read alike in small letters. -/
theorem fallbackTokens_small (depth : Nat) (named : Bool) (tokens : List Token) :
    fallbackTokens depth (smallList named tokens) =
      (smallList named (fallbackTokens depth tokens).1,
        smallList false (fallbackTokens depth tokens).2) := by
  induction tokens generalizing depth named with
  | nil => rfl
  | cons token rest ih =>
    have stops (other : token.kind ≠ .identifier) :
        token.small named :: smallList (token.kind == .kwFunc) rest = smallList false (token :: rest) := by
      rw [smallList, Token.small_of_ne_identifier other]
    rw [smallList]
    unfold fallbackTokens
    rw [Token.kind_small]
    dsimp only
    split
    case h_1 kind =>
      split
      · rw [stops (by simp [kind])]
        rfl
      · rw [ih]
        rfl
    case h_2 kind =>
      split
      · rw [stops (by simp [kind])]
        rfl
      · rw [ih]
        rfl
    case h_6 kind | h_7 kind =>
      rw [stops (by simp [kind])]
      rfl
    all_goals
      rw [ih]
      rfl

/-- An optional default is read alike in small letters. -/
theorem fallback?_small (name other function result : String) (line : Nat) (earlier : List Param)
    (tokens : List Token) :
    Tells (fun found other => other = (found.1.map TokenBlock.smallGroup, smallList false found.2))
      (fallback? name function line earlier tokens)
      (fallback? other result line (earlier.map Param.small) (smallList false tokens)) := by
  have isSome : (earlier.map Param.small).any (·.fallback.isSome) =
      earlier.any (·.fallback.isSome) := by simp [List.any_map, Function.comp_def, Param.small]
  have required : Tells (fun (found other : Option TokenBlock × List Token) =>
        other = (found.1.map TokenBlock.smallGroup, smallList false found.2))
      (if earlier.any (·.fallback.isSome) then
        .error (.preparing (.parameterOrder name function) line) else .ok (none, tokens))
      (if (earlier.map Param.small).any (·.fallback.isSome) then
        .error (.preparing (.parameterOrder other result) line)
        else .ok (none, smallList false tokens)) := by
    rw [isSome]
    split
    · exact .error (.preparing _ _ _)
    · exact .ok rfl
  cases tokens with
  | nil => exact required
  | cons token rest =>
    rw [smallList] at required ⊢
    unfold fallback?
    dsimp only
    rw [Token.isOperator_small]
    split
    · rename_i equals
      have word : (token.kind == .kwFunc) = false := by
        simp only [Token.isOperator, Bool.and_eq_true, beq_iff_eq] at equals
        simp [equals.1]
      have isEmpty (tokens : List Token) : (smallList false tokens).isEmpty = tokens.isEmpty := by
        cases tokens <;> rfl
      rw [word, fallbackTokens_small]
      dsimp only
      rw [isEmpty]
      split
      · exact .error (.preparing _ _ _)
      · exact .ok rfl
    · exact required

/-- What a parameter list does behind a parameter. -/
def afterParameter (function : String) (line : Nat) (params : List Param) (after : List Token) :
    Except Fault (List Param × List Token) :=
  match after with
  | [] => .error (.preparing (.parametersOpen function) line)
  | next :: tail =>
    if next.kind = .separator then parameters function line params tail
    else if next.kind = .rparen then .ok (params, tail)
    else .error (.preparing (.parametersOpen function) line)

/-- A parameter that is given for the first time. -/
theorem parameters_cons {function : String} {line : Nat} {earlier : List Param} {token : Token}
    {rest : List Token} (isVariable : token.kind = .variableName)
    (fresh : earlier.any (·.name == Text.lower token.lexeme) = false) :
    parameters function line earlier (token :: rest) =
      fallback? (Text.lower token.lexeme) function line earlier rest >>= fun found =>
        afterParameter function line (earlier ++ [⟨Text.lower token.lexeme, found.1⟩]) found.2 := by
  rw [parameters, if_neg (by simp [isVariable])]
  dsimp only
  rw [if_neg (by simp [fresh])]
  split
  · rename_i fault read
    rw [read]
    rfl
  · rename_i found after read
    conv => rhs; rw [read]
    cases after with
    | nil => rfl
    | cons next tail => rfl

/-- Parameters are read alike in small letters. -/
theorem parameters_small (function other : String) (line : Nat) (earlier : List Param)
    (tokens : List Token) :
    Tells (fun found result => result = (found.1.map Param.small, smallList false found.2))
      (parameters function line earlier tokens)
      (parameters other line (earlier.map Param.small) (smallList false tokens)) := by
  induction size : tokens.length using Nat.strongRecOn generalizing earlier tokens with
  | ind size ih =>
    subst size
    cases tokens with
    | nil =>
      rw [smallList, parameters, parameters]
      exact .error (.preparing _ _ _)
    | cons token rest =>
      have taken : (earlier.map Param.small).any (·.name == Text.lower token.lexeme) =
          earlier.any (·.name == Text.lower token.lexeme) := by
        simp [List.any_map, Function.comp_def, Param.small]
      by_cases isVariable : token.kind = .variableName
      · cases fresh : earlier.any (·.name == Text.lower token.lexeme) with
        | true =>
          rw [smallList, parameters, parameters, Token.kind_small, Token.lower_lexeme_small]
          dsimp only
          rw [if_neg (not_not_intro isVariable), if_neg (not_not_intro isVariable), taken, if_pos fresh,
            if_pos fresh]
          exact .error (.preparing _ _ _)
        | false =>
          rw [smallList, show (token.kind == .kwFunc) = false by simp [isVariable],
            parameters_cons isVariable fresh,
            parameters_cons (by rwa [Token.kind_small]) (by rwa [Token.lower_lexeme_small, taken]),
            Token.lower_lexeme_small]
          refine (fallback?_small _ _ _ _ _ _ _).returned.bind fun found result same => ?_
          obtain ⟨rfl, read⟩ := same
          obtain ⟨fallback, after⟩ := found
          have params : earlier.map Param.small ++
                [Param.mk (Text.lower token.lexeme) (fallback.map TokenBlock.smallGroup)] =
              (earlier ++ [Param.mk (Text.lower token.lexeme) fallback]).map Param.small := by
            simp [Param.small]
          have shorter := fallback?_length_le read
          dsimp only
          rw [params]
          cases after with
          | nil => exact .error (.preparing _ _ _)
          | cons next tail =>
            rw [smallList]
            unfold afterParameter
            dsimp only
            rw [Token.kind_small]
            split
            · rename_i isSeparator
              rw [show (next.kind == .kwFunc) = false by simp [isSeparator]]
              exact ih tail.length (by simp at shorter ⊢; omega) _ _ rfl
            · split
              · rename_i closes
                rw [show (next.kind == .kwFunc) = false by simp [closes]]
                exact .ok rfl
              · exact .error (.preparing _ _ _)
      · rw [smallList, parameters, parameters, Token.kind_small, Token.line_small, if_pos isVariable,
          if_pos isVariable]
        exact .error (.preparing _ _ _)

/-- A parameter list is read alike in small letters. -/
theorem parameterList_small (function other : String) (line : Nat) (tokens : List Token) :
    Tells (fun found result => result = (found.1.map Param.small, smallList false found.2))
      (parameterList function line tokens) (parameterList other line (smallList false tokens)) := by
  cases tokens with
  | nil => exact parameters_small _ _ _ _ _
  | cons token rest =>
    have params := parameters_small function other line [] (token :: rest)
    rw [smallList] at params ⊢
    unfold parameterList
    dsimp only
    rw [Token.kind_small]
    split
    · rename_i closes
      rw [show (token.kind == .kwFunc) = false by simp [closes]]
      exact .ok rfl
    · exact params

/-- A function's name is read alike in small letters. -/
theorem functionName_small (line : Nat) (tokens : List Token) :
    Tells (fun found other => other = (Text.lower found.1, smallList false found.2))
      (functionName line tokens) (functionName line (smallList true tokens)) := by
  cases tokens with
  | nil => exact .error (.refl _)
  | cons token rest =>
    rw [smallList]
    unfold functionName
    dsimp only
    rw [Token.kind_small]
    split
    · rename_i isName
      have name : (token.small true).lexeme = Text.lower token.lexeme := by
        simp [Token.small, isName]
      rw [name]
      cases rest with
      | nil => exact .error (.preparing _ _ _)
      | cons next tail =>
        rw [smallList]
        dsimp only
        rw [Token.kind_small]
        split
        · rename_i opens
          rw [show (next.kind == .kwFunc) = false by simp [opens]]
          exact .ok rfl
        · exact .error (.preparing _ _ _)
    · exact .error (.refl _)

/-- A body is read alike in small letters. -/
theorem bodyTokens_small (function other : String) (line : Nat) (tokens : List Token) :
    Tells (fun found result => result = (found.1.map (Token.small false), smallList false found.2))
      (bodyTokens function line tokens) (bodyTokens other line (smallList false tokens)) := by
  induction tokens with
  | nil => exact .error (.preparing _ _ _)
  | cons token rest ih =>
    rw [smallList]
    unfold bodyTokens
    rw [Token.kind_small, Token.line_small]
    split
    · rename_i closes
      rw [show (token.kind == .kwFunc) = false by simp [closes]]
      exact .ok rfl
    · split
      · exact .error (.preparing _ _ _)
      · rename_i notFunc
        rw [show (token.kind == .kwFunc) = false by simpa using notFunc]
        refine ih.elim (fun _ _ => .error) fun found other same => ?_
        subst same
        exact .ok rfl

/-- The end of a line is expected alike in small letters. -/
theorem expectLineEnd_small (cause other : String → PrepareCause) (named : Bool) (tokens : List Token) :
    Tells Eq (expectLineEnd cause tokens) (expectLineEnd other (smallList named tokens)) := by
  cases tokens with
  | nil => exact .ok rfl
  | cons token rest =>
    rw [smallList]
    unfold expectLineEnd
    dsimp only
    rw [Token.endsLine_small, Token.line_small]
    split
    · exact .ok rfl
    · exact .error (.preparing _ _ _)

/-- A function, behind its opening word. -/
theorem function_small (line : Nat) (tokens : List Token) :
    Tells (fun found other => other = (found.1.small, smallList false found.2))
      (function line tokens) (function line (smallList true tokens)) := by
  unfold function
  refine (functionName_small line tokens).bind fun name other same => ?_
  subst same
  refine (parameterList_small _ _ _ _).bind fun params other same => ?_
  subst same
  refine (expectLineEnd_small _ _ _ _).bind fun _ _ _ => ?_
  refine (bodyTokens_small _ _ _ _).bind fun body other same => ?_
  subst same
  refine (expectLineEnd_small _ _ _ _).bind fun _ _ _ => .ok ?_
  simp [UserFunction.small, TokenBlock.small]

/-! ### Reading all tokens -/

/-- The other table is the table in small letters; the notes may quote the source. -/
def Defined.IsSmall (defined other : Defined) : Prop := other.functions = smallTable defined.functions

/-- A function is added alike in small letters. -/
theorem add_small {defined other : Defined} (same : defined.IsSmall other) (function : UserFunction) :
    Tells Defined.IsSmall (defined.add function) (other.add function.small) := by
  have key : Text.lower function.small.name = Text.lower function.name := Text.lower_lower _
  unfold Defined.add
  dsimp only
  rw [key, same, lookup_smallTable, Option.isSome_map]
  split
  · exact .error (.preparing _ _ _)
  · exact .ok (by simp [Defined.IsSmall, smallTable])

/-- Functions are scanned alike in small letters. -/
theorem scan_small (lineStart : Bool) (tokens : List Token) {defined other : Defined}
    (same : defined.IsSmall other) :
    EndAlike Fault.Alike Defined.IsSmall (fun found result => result = found.map (Token.small false))
      (scan lineStart tokens defined) (scan lineStart (smallList false tokens) other) := by
  induction size : tokens.length using Nat.strongRecOn generalizing lineStart tokens defined other with
  | ind size ih =>
    subst size
    cases tokens with
    | nil =>
      rw [smallList, scan]
      exact .ok rfl same
    | cons token rest =>
      rw [smallList, scan, scan, Token.kind_small, Token.line_small, Token.endsLine_small]
      split
      · rename_i opens
        rw [show (token.kind == .kwFunc) = true by simp [opens]]
        split
        · refine (function_small token.line rest).returned.elim (fun _ _ alike => .error alike same)
            fun found other same' => ?_
          obtain ⟨rfl, read⟩ := same'
          have shorter := function_length_le read
          refine .get ?_
          have added := add_small same found.1
          generalize other.add found.1.small = result at added ⊢
          generalize defined.add found.1 = outcome at added ⊢
          cases added with
          | ok table => exact ih found.2.length (by simp; omega) false found.2 table rfl
          | error alike => exact .error alike same
        · exact .error (.refl _) same
      · rename_i notFunc
        rw [show (token.kind == .kwFunc) = false by simpa using notFunc]
        split
        · exact .error (.refl _) same
        · refine (ih rest.length (by simp) _ _ same rfl).bind fun found result after last held kept => ?_
          subst held
          exact .ok rfl kept

end LineScript.Functions
