import LineScript.Proofs.Origin.Include
import LineScript.Proofs.Program.Places

/-!
# Lines can be continued

A mark and a line end between two tokens of a line are dropped again before calls, loops and
functions are taken out, so a line may be written on two. Includes are resolved before that, while
the mark is still there. It must therefore not stand between an include and the file that it names,
nor in front of a flag inside a line, which would begin a line then.
-/

namespace LineScript

namespace Continuation

/-- The next token begins a line, where `lineStart` says whether the first of the tokens does. -/
def beginsLine (lineStart : Bool) : List Token → Bool
  | [] => lineStart
  | token :: rest => beginsLine (if token.isFlag "include-once" then lineStart else token.endsLine) rest

/-- The line goes on after these tokens on the next one: its mark stands at their end or before
comments there. `marked` says the same of the tokens before them. -/
def isMarked (marked : Bool) : List Token → Bool
  | [] => marked
  | token :: rest =>
    isMarked (token.kind == .extend || marked && (token.kind == .comment || token.isFlag "include-once")) rest

/-- The line can be continued between these tokens. -/
structure Continues (before after : List Token) : Prop where
  /-- It has not been continued already. -/
  unmarked : isMarked false before = false
  /-- No include is parted from the file that it names. -/
  named : before.getLast?.any (·.isFlag "include") = true → after.head?.any (·.kind == .string) = false
  /-- A flag comes next only where it begins a line. -/
  begins : after.head?.any (·.kind == .flag) = true → beginsLine true before = true

/-! ### Joining -/

section

variable {mark lineEnd : Token} {front back : List Token}

/-- Whether a list ends behind a mark is decided by its last part from what the first part left. -/
theorem isMarked_append (marked : Bool) (front back : List Token) :
    isMarked marked (front ++ back) = isMarked (isMarked marked front) back := by
  induction front generalizing marked with
  | nil => rfl
  | cons token rest ih => exact ih _

/-- Behind any other token than a mark, a comment or a flag that is dropped no mark counts. -/
theorem isMarked_cons {token : Token} (marked : Bool) (rest : List Token)
    (notMark : token.kind ≠ .extend) (notComment : token.kind ≠ .comment)
    (notOnce : token.isFlag "include-once" = false) :
    isMarked marked (token :: rest) = isMarked false rest := by
  rw [isMarked, notOnce, beq_eq_false_iff_ne.mpr notMark, beq_eq_false_iff_ne.mpr notComment,
    Bool.false_or, Bool.false_or, Bool.and_false]

/-- What follows a mark is refused, or the line end that belongs to it is found. -/
theorem afterMark_append (line : Nat) (ended : isMarked true front = false) :
    (∃ fault, ∀ back, afterMark line (front ++ back) = .error fault) ∨
      ∃ rest, rest.length < front.length ∧ isMarked false rest = false ∧
        ∀ back, afterMark line (front ++ back) = .ok (rest ++ back) := by
  induction front with
  | nil => cases ended
  | cons token front ih =>
    by_cases isComment : token.kind = .comment
    · have skips (back : List Token) :
          afterMark line (token :: front ++ back) = afterMark line (front ++ back) := by
        rw [List.cons_append, afterMark, if_pos isComment]
      simp only [isMarked, isComment, beq_self_eq_true, Bool.true_or, Bool.and_true,
        Bool.or_true] at ended
      simp only [skips]
      refine (ih ended).imp id ?_
      rintro ⟨rest, shorter, open', found⟩
      exact ⟨rest, Nat.lt_succ_of_lt shorter, open', found⟩
    · by_cases isEol : token.kind = .eol
      · have notOnce : token.isFlag "include-once" = false := by simp [Token.isFlag, isEol]
        refine .inr ⟨front, Nat.lt_succ_self _, ?_, fun back => ?_⟩
        · rwa [isMarked_cons _ _ (by simp [isEol]) isComment notOnce] at ended
        · rw [List.cons_append, afterMark, if_neg isComment, if_pos isEol]
      · refine .inl ⟨.preparing (.afterContinuation token.display) token.line, fun back => ?_⟩
        rw [List.cons_append, afterMark, if_neg isComment, if_neg isEol]

/-- A mark that ends its line joins what follows. -/
theorem join_eq_of_afterMark {rest tail : List Token} (isMark : mark.kind = .extend)
    (found : afterMark mark.line rest = .ok tail) : join (mark :: rest) = join tail := by
  rw [join.eq_def]
  dsimp only
  rw [if_pos isMark]
  split
  · rename_i read
    cases found.symm.trans read
    rfl
  · rename_i read
    cases found.symm.trans read

/-- A mark that does not end its line is refused. -/
theorem join_eq_error_of_afterMark {rest : List Token} {fault : Fault}
    (isMark : mark.kind = .extend) (refused : afterMark mark.line rest = .error fault) :
    join (mark :: rest) = .error fault := by
  rw [join.eq_def]
  dsimp only
  rw [if_pos isMark]
  split
  · rename_i read
    cases refused.symm.trans read
  · rename_i read
    cases refused.symm.trans read
    rfl

/-- A token that is no mark stays in front of the joined rest. -/
theorem join_cons_of_ne {token : Token} {rest : List Token} (plain : token.kind ≠ .extend) :
    join (token :: rest) = do
      let later ← join rest
      return token :: later := by
  rw [join.eq_def]
  dsimp only
  rw [if_neg plain]
  cases join rest <;> rfl

/-- A mark and a line end in a line that is not marked are dropped. -/
theorem join_insert (isMark : mark.kind = .extend) (isEnd : lineEnd.kind = .eol)
    (back : List Token) (unmarked : isMarked false front = false) :
    join (front ++ mark :: lineEnd :: back) = join (front ++ back) := by
  induction size : front.length using Nat.strongRecOn generalizing front with
  | ind size ih =>
    subst size
    cases front with
    | nil =>
      refine join_eq_of_afterMark isMark ?_
      rw [afterMark, if_neg (by simp [isEnd]), if_pos isEnd, List.nil_append]
    | cons token front =>
      rw [List.cons_append, List.cons_append]
      by_cases marks : token.kind = .extend
      · have ended : isMarked true front = false := by simpa [isMarked, marks] using unmarked
        obtain ⟨fault, refused⟩ | ⟨rest, shorter, open', found⟩ :=
          afterMark_append token.line ended
        · rw [join_eq_error_of_afterMark marks (refused _),
            join_eq_error_of_afterMark marks (refused _)]
        · rw [join_eq_of_afterMark marks (found _), join_eq_of_afterMark marks (found _)]
          exact ih rest.length (Nat.lt_succ_of_lt shorter) open' rfl
      · have plain : (token.kind == .extend) = false := by simpa using marks
        have rest : isMarked false front = false := by simpa [isMarked, plain] using unmarked
        rw [join_cons_of_ne marks, join_cons_of_ne marks, ih front.length (by simp) rest rfl]

/-- Reading after a mark does not depend on where the tokens stand. -/
theorem afterMark_unplaced (line other : Nat) (tokens : List Token) :
    Images (List.map Token.unplaced) (afterMark line tokens)
      (afterMark other (tokens.map Token.unplaced)) := by
  induction tokens with
  | nil => exact .error _ _
  | cons token rest ih =>
    rw [List.map_cons, afterMark, afterMark, Token.kind_unplaced]
    split
    · exact ih
    · split
      · exact .ok rest
      · exact .error _ _

/-- Joining does not depend on where the tokens stand. -/
theorem join_unplaced (tokens : List Token) :
    Images (List.map Token.unplaced) (join tokens) (join (tokens.map Token.unplaced)) := by
  induction size : tokens.length using Nat.strongRecOn generalizing tokens with
  | ind size ih =>
    subst size
    cases tokens with
    | nil =>
      rw [List.map_nil, join]
      exact .ok []
    | cons token rest =>
      rw [List.map_cons]
      by_cases marks : token.kind = .extend
      · have marks' : token.unplaced.kind = .extend := marks
        have found := afterMark_unplaced token.line token.unplaced.line rest
        cases read : afterMark token.line rest with
        | error fault =>
          rw [read] at found
          generalize read' : afterMark token.unplaced.line (rest.map Token.unplaced) = outcome at found
          cases found
          rw [join_eq_error_of_afterMark marks read, join_eq_error_of_afterMark marks' read']
          exact .error _ _
        | ok tail =>
          rw [read] at found
          generalize read' : afterMark token.unplaced.line (rest.map Token.unplaced) = outcome at found
          cases found
          rw [join_eq_of_afterMark marks read, join_eq_of_afterMark marks' read']
          exact ih tail.length (Nat.lt_succ_of_lt (afterMark_length_lt read)) tail rfl
      · have plain : token.unplaced.kind ≠ .extend := marks
        rw [join_cons_of_ne marks, join_cons_of_ne plain]
        exact (ih rest.length (by simp) rest rfl).bind fun later _ => .ok _

end

end Continuation

/-! ### Resolving includes -/

namespace Include

open Continuation

variable {host : Host} {splice : String → Nat → Including (List Token)} {current : String}

/-- Two ways of including stop together, or return what agrees; they note the same. -/
abbrev Meets {α β : Type} (agree : α → β → Prop) (left : Including α) (right : Including β) : Prop :=
  ∀ progress, EndAlike (fun _ _ => True) Eq agree (left progress) (right progress)

/-- Every reading meets itself. -/
theorem meets_refl {α : Type} (action : Including α) : Meets Eq action action := by
  intro progress
  cases action progress with
  | ok => exact .ok rfl rfl
  | error => exact .error trivial rfl

/-- The target of an include does not depend on where its tokens stand. -/
theorem target_unplaced (flag other token : Token) :
    Meets Eq (target flag token) (target other token.unplaced) := by
  intro progress
  unfold target
  rw [Token.kind_unplaced, Token.isOperator_unplaced]
  split
  · exact .ok rfl rfl
  · split <;> exact .error trivial rfl

/-- Only a text names a file. -/
theorem target_refuses (flag : Token) {token : Token} (other : token.kind ≠ .string)
    (progress : Progress) : ∃ fault, target flag token progress = .error fault progress := by
  unfold target
  rw [if_neg other]
  split <;> exact ⟨_, rfl⟩

/-- Expansion does not depend on where the tokens stand when splicing does not depend on the line. -/
theorem expandWith_unplaced
    (blind : ∀ path line other, Meets Eq (splice path line) (splice path other))
    (lineStart : Bool) (tokens : List Token) :
    Meets (fun found result => result.map Token.unplaced = found.map Token.unplaced)
      (expandWith host splice current lineStart tokens)
      (expandWith host splice current lineStart (tokens.map Token.unplaced)) := by
  induction size : tokens.length using Nat.strongRecOn generalizing lineStart tokens with
  | ind size ih =>
    subst size
    intro progress
    cases tokens with
    | nil =>
      rw [List.map_nil]
      unfold expandWith Resolver.resolveWith
      dsimp only [flat_step, flat_done, flat_token, flat_append]
      exact .ok rfl rfl
    | cons token rest =>
      rw [List.map_cons]
      unfold expandWith Resolver.resolveWith
      dsimp only [flat_step, flat_done, flat_token, flat_append]
      rw [Token.kind_unplaced, Token.lexeme_unplaced, Token.endsLine_unplaced]
      split
      · split
        · exact .error trivial rfl
        · exact ih rest.length (by simp) lineStart rest rfl _
      · split
        · split
          · exact .error trivial rfl
          · cases rest with
            | nil => exact .error trivial rfl
            | cons named after =>
              rw [List.map_cons]
              dsimp only
              refine (target_unplaced token token.unplaced named progress).bind
                fun path _ last _ same kept => ?_
              subst same kept
              refine (blind _ token.line token.unplaced.line last).bind
                fun spliced _ last _ same kept => ?_
              subst same kept
              refine (ih after.length (by simp only [List.length_cons]; omega) false after rfl last).bind
                fun found result last _ same kept => ?_
              subst kept
              exact .ok (by simp [same]) rfl
        · split
          · exact .error trivial rfl
          · refine (ih rest.length (by simp) token.endsLine rest rfl progress).bind
              fun found result last final same kept => ?_
            subst kept
            exact .ok (by simp [same]) rfl

/-- What a file gives does not depend on the line that includes it. -/
theorem spliceFile_blind (host : Host)
    (expand : List String → List Token → Including (List Token)) (stack : List String)
    (path : String) (line other : Nat) :
    Meets Eq (spliceFile host expand stack path line) (spliceFile host expand stack path other) := by
  intro progress
  unfold spliceFile Resolver.includeFile
  dsimp only [flat_step, flat_done, flat_token, flat_append]
  refine .get ?_
  split
  · exact .ok rfl rfl
  · rw [pure_bind, pure_bind]
    split
    · exact .error trivial rfl
    · cases host.files.read host.directory path with
      | error reason => exact .error trivial rfl
      | ok bytes => exact meets_refl _ progress

/-- Resolution of includes does not depend on where the tokens stand. -/
theorem resolve_unplaced (host : Host) (script : String) (tokens : List Token) :
    Meets (fun found result => result.map Token.unplaced = found.map Token.unplaced)
      (resolve host script tokens) (resolve host script (tokens.map Token.unplaced)) := by
  unfold resolve expand
  exact expandWith_unplaced (fun path line other => spliceFile_blind _ _ _ path line other) _ _

/-! #### A continued line -/

variable {mark lineEnd : Token}

/-- A token that is no flag is kept. -/
theorem expandWith_plain (host : Host) (splice : String → Nat → Including (List Token))
    (current : String) (lineStart : Bool) {token : Token} (rest : List Token)
    (plain : token.kind ≠ .flag) :
    expandWith host splice current lineStart (token :: rest) = do
      let later ← expandWith host splice current token.endsLine rest
      return token :: later := by
  rw [expandWith, Resolver.resolveWith.eq_def]
  dsimp only [flat_step, flat_done, flat_token, flat_append]
  rw [if_neg fun once => plain once.1, if_neg fun asks => plain asks.1, if_neg fun flag => plain flag.1]
  rfl

/-- An include that no text follows is refused. -/
theorem expandWith_unnamed (host : Host) (splice : String → Nat → Including (List Token))
    (current : String) (lineStart : Bool) {token : Token} {rest : List Token}
    (asks : token.isFlag "include" = true) (unnamed : rest.head?.any (·.kind == .string) = false)
    (progress : Progress) :
    ∃ fault, expandWith host splice current lineStart (token :: rest) progress = .error fault progress := by
  obtain ⟨isFlag, name⟩ := Token.isFlag_iff.mp asks
  rw [expandWith, Resolver.resolveWith.eq_def]
  dsimp only [flat_step, flat_done, flat_token, flat_append]
  rw [if_neg (by simp [name]), if_pos ⟨isFlag, name⟩]
  split
  · exact ⟨_, rfl⟩
  · cases rest with
    | nil => exact ⟨_, rfl⟩
    | cons next rest =>
      obtain ⟨fault, refused⟩ := target_refuses token (by simpa using unnamed : next.kind ≠ .string) progress
      exact ⟨fault, run_bind_eq_error.mpr (.inl refused)⟩

/-- An include gives the tokens of the file that it names. -/
theorem expandWith_named (host : Host) (splice : String → Nat → Including (List Token))
    (current : String) (lineStart : Bool) {token : Token} (file : Token) (rest : List Token)
    (asks : token.isFlag "include" = true) :
    expandWith host splice current lineStart (token :: file :: rest) = do
      if !lineStart then
        refuse (.flagInside "include") token.line
      let path ← target token file
      let spliced ← splice (located host current path) token.line
      let later ← expandWith host splice current false rest
      return spliced ++ Token.insertedEol :: later := by
  obtain ⟨isFlag, name⟩ := Token.isFlag_iff.mp asks
  rw [expandWith, Resolver.resolveWith.eq_def]
  dsimp only [flat_step, flat_done, flat_token, flat_append]
  rw [if_neg (by simp [name]), if_pos ⟨isFlag, name⟩]
  rfl

/-- Where no flag comes next it does not matter whether a line begins. -/
theorem expandWith_begins {lineStart : Bool} {tokens : List Token}
    (begins : tokens.head?.any (·.kind == .flag) = true → lineStart = true) :
    expandWith host splice current lineStart tokens =
      expandWith host splice current true tokens := by
  cases tokens with
  | nil => unfold expandWith; rfl
  | cons token rest =>
    by_cases isFlag : token.kind = .flag
    · rw [begins (by simp [isFlag])]
    · rw [expandWith_plain _ _ _ _ _ isFlag, expandWith_plain _ _ _ _ _ isFlag]

/-- What a line gives in two pieces, and in one. -/
def Joins (mark lineEnd : Token) (before continued whole : List Token) : Prop :=
  ∃ front back, continued = front ++ mark :: lineEnd :: back ∧ whole = front ++ back ∧
    ∀ marked, isMarked marked front = isMarked marked before

namespace Joins

variable {before continued whole : List Token} {token : Token}

/-- A token that is kept stands in front of both. -/
theorem cons (joins : Joins mark lineEnd before continued whole) (token : Token) :
    Joins mark lineEnd (token :: before) (token :: continued) (token :: whole) := by
  obtain ⟨front, back, rfl, rfl, same⟩ := joins
  exact ⟨token :: front, back, rfl, rfl, fun marked => same _⟩

/-- A flag that is dropped stands in front of neither. -/
theorem cons_once (joins : Joins mark lineEnd before continued whole)
    (once : token.isFlag "include-once" = true) :
    Joins mark lineEnd (token :: before) continued whole := by
  obtain ⟨front, back, rfl, rfl, same⟩ := joins
  have isFlag : token.kind = .flag := (Token.isFlag_iff.mp once).1
  refine ⟨front, back, rfl, rfl, fun marked => ?_⟩
  rw [same, isMarked, isFlag, once, Bool.or_true, Bool.and_true]
  rfl

/-- The tokens of a file and a line end stand in front of both for the include. -/
theorem cons_file {file : Token} (joins : Joins mark lineEnd before continued whole)
    (isPath : file.kind = .string) (token : Token) (spliced : List Token) :
    Joins mark lineEnd (token :: file :: before) (spliced ++ .insertedEol :: continued)
      (spliced ++ .insertedEol :: whole) := by
  obtain ⟨front, back, rfl, rfl, same⟩ := joins
  refine ⟨spliced ++ .insertedEol :: front, back, by simp, by simp, fun marked => ?_⟩
  have plain := Token.isFlag_of_string isPath "include-once"
  rw [isMarked_append, isMarked_cons _ _ (by decide) (by decide) rfl, same, isMarked,
    isMarked_cons _ _ (by simp [isPath]) (by simp [isPath]) plain]

end Joins

/-- A continued line that begins with the mark. -/
theorem expandWith_insert_first (isMark : mark.kind = .extend) (isEnd : lineEnd.kind = .eol)
    {lineStart : Bool} {after : List Token}
    (begins : after.head?.any (·.kind == .flag) = true → lineStart = true) :
    Meets (Joins mark lineEnd []) (expandWith host splice current lineStart (mark :: lineEnd :: after))
      (expandWith host splice current lineStart after) := by
  intro progress
  have ends : lineEnd.endsLine = true := by simp [Token.endsLine, isEnd]
  rw [expandWith_plain _ _ _ _ _ (by simp [isMark]), expandWith_plain _ _ _ _ _ (by simp [isEnd]),
    ends, expandWith_begins begins]
  simp only [bind, EStateM.bind]
  cases expandWith host splice current true after progress with
  | ok found last => exact .ok ⟨[], found, rfl, rfl, fun _ => rfl⟩ rfl
  | error => exact .error trivial rfl

/-- A continued line that begins with an include. The mark is not what the include asks for, and what
is behind it is no path. -/
theorem expandWith_insert_include {token : Token} (isMark : mark.kind = .extend)
    (asks : token.isFlag "include" = true) {lineStart : Bool} {before after : List Token}
    (named : before = [] → after.head?.any (·.kind == .string) = false)
    (deeper : ∀ file rest, before = file :: rest → file.kind = .string →
      Meets (Joins mark lineEnd rest)
        (expandWith host splice current false (rest ++ mark :: lineEnd :: after))
        (expandWith host splice current false (rest ++ after))) :
    Meets (Joins mark lineEnd (token :: before))
      (expandWith host splice current lineStart (token :: (before ++ mark :: lineEnd :: after)))
      (expandWith host splice current lineStart (token :: (before ++ after))) := by
  intro progress
  have refused (unnamed : (before ++ mark :: lineEnd :: after).head?.any (·.kind == .string) = false)
      (unnamed' : (before ++ after).head?.any (·.kind == .string) = false) :
      EndAlike (fun _ _ => True) Eq (Joins mark lineEnd (token :: before))
        (expandWith host splice current lineStart (token :: (before ++ mark :: lineEnd :: after)) progress)
        (expandWith host splice current lineStart (token :: (before ++ after)) progress) := by
    obtain ⟨_, left⟩ := expandWith_unnamed host splice current lineStart asks unnamed progress
    obtain ⟨_, right⟩ := expandWith_unnamed host splice current lineStart asks unnamed' progress
    rw [left, right]
    exact .error trivial rfl
  cases before with
  | nil => exact refused (by simp [isMark]) (named rfl)
  | cons file rest =>
    by_cases isPath : file.kind = .string
    · rw [List.cons_append, List.cons_append, expandWith_named _ _ _ _ _ _ asks,
        expandWith_named _ _ _ _ _ _ asks]
      split
      · exact .error trivial rfl
      · refine (meets_refl (target token file) progress).bind fun path _ last _ same kept => ?_
        subst same kept
        refine (meets_refl (splice _ token.line) last).bind fun spliced _ last _ same kept => ?_
        subst same kept
        refine (deeper file rest rfl isPath last).bind fun continued whole last _ joins kept => ?_
        subst kept
        exact .ok (joins.cons_file isPath token spliced) rfl
    · exact refused (by simpa using isPath) (by simpa using isPath)

/-- A continued line is expanded as the whole one is, and the mark stays in its place. -/
theorem expandWith_insert (isMark : mark.kind = .extend) (isEnd : lineEnd.kind = .eol)
    (lineStart : Bool) (before after : List Token)
    (named : before.getLast?.any (·.isFlag "include") = true →
      after.head?.any (·.kind == .string) = false)
    (begins : after.head?.any (·.kind == .flag) = true → beginsLine lineStart before = true) :
    Meets (Joins mark lineEnd before)
      (expandWith host splice current lineStart (before ++ mark :: lineEnd :: after))
      (expandWith host splice current lineStart (before ++ after)) := by
  induction size : before.length using Nat.strongRecOn generalizing lineStart before with
  | ind size ih =>
    subst size
    cases before with
    | nil => exact expandWith_insert_first isMark isEnd begins
    | cons token rest =>
      have onLast (rest before : List Token) (last : rest.getLast?.any (·.isFlag "include") = true) :
          (before ++ rest).getLast?.any (·.isFlag "include") = true := by
        cases ending : rest.getLast? with
        | none => simp [ending] at last
        | some token => simpa [List.getLast?_append, ending] using last
      rw [List.cons_append, List.cons_append]
      by_cases asks : token.isFlag "include" = true
      · refine expandWith_insert_include isMark asks (fun last => named (by simp [last, asks])) ?_
        rintro file rest rfl isPath
        have inLine : file.endsLine = false := by simp [Token.endsLine, isPath]
        refine ih rest.length (by simp only [List.length_cons]; omega) false rest
          (fun last => named (onLast rest [token, file] last)) (fun flagged => ?_) rfl
        simpa [beginsLine, Token.isFlag_once asks, Token.isFlag_of_string isPath, inLine] using begins flagged
      intro progress
      unfold expandWith Resolver.resolveWith
      dsimp only [flat_step, flat_token]
      split
      · rename_i once
        have isOnce : token.isFlag "include-once" = true := Token.isFlag_iff.mpr once
        have begins' : after.head?.any (·.kind == .flag) = true → beginsLine lineStart rest = true := by
          simpa [beginsLine, isOnce] using begins
        split
        · exact .error trivial rfl
        · refine (ih rest.length (by simp) lineStart rest (fun last => named (onLast rest [token] last))
            begins' rfl _).mono ?_ fun _ _ => id
          exact fun _ _ joins => joins.cons_once isOnce
      · rename_i other
        have notOnce : token.isFlag "include-once" = false :=
          Bool.eq_false_iff.mpr fun once => other (Token.isFlag_iff.mp once)
        have silent : ¬ (token.kind = .flag ∧ Text.lower token.lexeme = "include") :=
          fun include' => asks (Token.isFlag_iff.mpr include')
        rw [if_neg silent, if_neg silent]
        split
        · exact .error trivial rfl
        · have begins' : after.head?.any (·.kind == .flag) = true →
              beginsLine token.endsLine rest = true := by
            simpa [beginsLine, notOnce] using begins
          refine (ih rest.length (by simp) token.endsLine rest
            (fun last => named (onLast rest [token] last)) begins' rfl progress).bind
            fun continued whole last _ joins kept => ?_
          subst kept
          exact .ok (joins.cons token) rfl

/-- A continuation inserted into the tokens stays in the resolved ones. -/
theorem resolve_insert (host : Host) (script : String) {before after : List Token}
    (isMark : mark.kind = .extend) (isEnd : lineEnd.kind = .eol)
    (continues : Continues before after) :
    Meets (Joins mark lineEnd before) (resolve host script (before ++ mark :: lineEnd :: after))
      (resolve host script (before ++ after)) :=
  expandWith_insert isMark isEnd true before after continues.named continues.begins

end Include

/-! ### Preparing -/

namespace Program

variable {host : Host} {script : String}

open Continuation

/-- Preparation of joined tokens does not depend on where they stand. -/
theorem prepareJoined_unplaced (tokens : List Token) :
    Images Program.unplaced (prepareJoined tokens).result
      (prepareJoined (tokens.map Token.unplaced)).result := by
  unfold prepareJoined
  refine (join_unplaced tokens).elim (fun _ _ => .error _ _) fun joined _ => ?_
  have assembled := assemble_unplaced joined
  dsimp only
  generalize assemble joined {} = outcome at assembled ⊢
  generalize assemble (joined.map Token.unplaced) {} = other at assembled ⊢
  cases assembled with
  | ok held => exact .of_eq held
  | error => exact .error _ _

/-- Tokens that differ in their places only give programs that differ in places only. -/
theorem prepare_places {tokens others : List Token}
    (alike : others.map Token.unplaced = tokens.map Token.unplaced) :
    (prepare host script others).result.toOption.map Program.unplaced =
      (prepare host script tokens).result.toOption.map Program.unplaced := by
  have unplaced (tokens : List Token) :
      (prepare host script tokens).result.toOption.map Program.unplaced =
        (prepare host script (tokens.map Token.unplaced)).result.toOption.map Program.unplaced := by
    have resolved := Include.resolve_unplaced host script tokens {}
    unfold prepare
    generalize Include.resolve host script tokens {} = outcome at resolved ⊢
    generalize Include.resolve host script (tokens.map Token.unplaced) {} = other at resolved ⊢
    cases resolved with
    | error => rfl
    | ok same =>
      dsimp only
      rw [← (prepareJoined_unplaced _).toOption, ← (prepareJoined_unplaced _).toOption, same]
  rw [unplaced others, unplaced tokens, alike]

/-- A program prepared with a continuation inserted is the one prepared without it, up to places. -/
theorem prepare_insert {before after : List Token} {mark lineEnd : Token}
    (continues : Continues before after) (isMark : mark.kind = .extend)
    (isEnd : lineEnd.kind = .eol) :
    (prepare host script (before ++ mark :: lineEnd :: after)).result.toOption =
      (prepare host script (before ++ after)).result.toOption := by
  have resolved := Include.resolve_insert host script isMark isEnd continues {}
  unfold prepare
  generalize Include.resolve host script (before ++ mark :: lineEnd :: after) {} = outcome
    at resolved ⊢
  generalize Include.resolve host script (before ++ after) {} = other at resolved ⊢
  cases resolved with
  | error => rfl
  | ok joins =>
    obtain ⟨front, back, rfl, rfl, same⟩ := joins
    have joined := join_insert isMark isEnd back ((same false).trans continues.unmarked)
    dsimp only
    rw [prepareJoined, joined]
    rfl

/-- A line that is continued on the next one is prepared as the whole line is: both are refused, or
both give the same program but for the places of tokens. -/
theorem prepare_continued (host : Host) (script : String) {before after others : List Token}
    {mark lineEnd : Token} (continues : Continues before after)
    (isMark : mark.kind = .extend) (isEnd : lineEnd.kind = .eol)
    (moved : others.map Token.unplaced =
      (before ++ mark :: lineEnd :: after).map Token.unplaced) :
    (prepare host script others).result.toOption.map Program.unplaced =
      (prepare host script (before ++ after)).result.toOption.map Program.unplaced := by
  rw [prepare_places moved, prepare_insert continues isMark isEnd]

/-- An assignment is continued behind an operator. -/
theorem prepare_continued_sum : ∃ before mark lineEnd after others program,
    tokenize "$x = 1 + 2\n" = .ok (before ++ after) ∧ tokenize "$x = 1 + _\n2\n" = .ok others ∧
      others.map Token.unplaced = (before ++ mark :: lineEnd :: after).map Token.unplaced ∧
      Continues before after ∧ mark.kind = .extend ∧ lineEnd.kind = .eol ∧
      (prepare {} "/main" (before ++ after)).result = .ok program ∧
      (prepare {} "/main" others).result.toOption.map Program.unplaced = some program.unplaced := by
  let before : List Token := [⟨.variableName, "x", 1, 1⟩, ⟨.operator, "=", 1, 4⟩,
    ⟨.number, "1", 1, 6⟩, ⟨.operator, "+", 1, 8⟩]
  let after : List Token := [⟨.number, "2", 1, 10⟩, ⟨.eol, "", 1, 11⟩]
  let others : List Token := before ++ ⟨.extend, "_", 1, 10⟩ :: ⟨.eol, "", 1, 11⟩ ::
    [⟨.number, "2", 2, 1⟩, ⟨.eol, "", 2, 2⟩]
  have continues : Continues before after :=
    ⟨by decide +kernel, by decide +kernel, by decide +kernel⟩
  have moved : others.map Token.unplaced =
      (before ++ ⟨.extend, "_", 1, 10⟩ :: ⟨.eol, "", 1, 11⟩ :: after).map Token.unplaced := rfl
  have accepted : (prepare {} "/main" (before ++ after)).result.toOption.isSome = true := by
    decide +kernel
  obtain ⟨program, prepared⟩ := Option.isSome_iff_exists.mp accepted
  have same := prepare_continued {} "/main" continues rfl rfl moved
  rw [prepared] at same
  exact ⟨before, _, _, after, others, program, eq_ok_of_toOption (by decide +kernel),
    eq_ok_of_toOption (by decide +kernel), moved, continues, rfl, rfl, eq_ok_of_toOption prepared,
    same⟩

/-- An include that is continued before its file is refused, and a flag inside a line is not refused
when the line is continued before it. -/
theorem continued_at_flags :
    (∃ host before mark lineEnd after others,
      tokenize "#include \"a\"\n" = .ok (before ++ after) ∧
        tokenize "#include _\n\"a\"\n" = .ok others ∧
        others.map Token.unplaced = (before ++ mark :: lineEnd :: after).map Token.unplaced ∧
        mark.kind = .extend ∧ lineEnd.kind = .eol ∧
        (prepare host "/main" (before ++ after)).result.toOption.isSome = true ∧
        (prepare host "/main" others).result.toOption = none) ∧
    ∃ before mark lineEnd after others,
      tokenize "$x = 1 #include-once\n" = .ok (before ++ after) ∧
        tokenize "$x = 1 _\n#include-once\n" = .ok others ∧
        others.map Token.unplaced = (before ++ mark :: lineEnd :: after).map Token.unplaced ∧
        mark.kind = .extend ∧ lineEnd.kind = .eol ∧
        (prepare {} "/main" (before ++ after)).result.toOption = none ∧
        (prepare {} "/main" others).result.toOption.isSome = true := by
  constructor
  · let host : Host := { files := ⟨#[.directory [("a", 1)], .file (Text.Utf8.encode "$x = 1\n")]⟩ }
    exact ⟨host, [⟨.flag, "include", 1, 1⟩], ⟨.extend, "_", 1, 10⟩, ⟨.eol, "", 1, 11⟩,
      [⟨.string, "a", 1, 10⟩, ⟨.eol, "", 1, 13⟩],
      [⟨.flag, "include", 1, 1⟩, ⟨.extend, "_", 1, 10⟩, ⟨.eol, "", 1, 11⟩, ⟨.string, "a", 2, 1⟩,
        ⟨.eol, "", 2, 4⟩],
      eq_ok_of_toOption (by decide +kernel), eq_ok_of_toOption (by decide +kernel), rfl, rfl, rfl,
      by decide +kernel, by decide +kernel⟩
  · let before : List Token := [⟨.variableName, "x", 1, 1⟩, ⟨.operator, "=", 1, 4⟩,
      ⟨.number, "1", 1, 6⟩]
    exact ⟨before, ⟨.extend, "_", 1, 8⟩, ⟨.eol, "", 1, 9⟩,
      [⟨.flag, "include-once", 1, 8⟩, ⟨.eol, "", 1, 21⟩],
      before ++ [⟨.extend, "_", 1, 8⟩, ⟨.eol, "", 1, 9⟩, ⟨.flag, "include-once", 2, 1⟩,
        ⟨.eol, "", 2, 14⟩],
      eq_ok_of_toOption (by decide +kernel), eq_ok_of_toOption (by decide +kernel), rfl, rfl, rfl,
      by decide +kernel, by decide +kernel⟩

end Program

end LineScript
