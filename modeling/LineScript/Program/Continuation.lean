import LineScript.Fault.Report
import LineScript.Token.Basic

/-!
# Continued lines

A line that ends in a continuation mark goes on with the next one: the mark, comments after it and
the line end are dropped.
-/

namespace LineScript.Continuation

/-- The tokens after a continuation mark at this line, without the comments and the line end that
must follow it. -/
def afterMark (line : Nat) : List Token → Except Fault (List Token)
  | [] => .error (.preparing .continuationAtEnd line)
  | token :: rest =>
    if token.kind = .comment then afterMark line rest
    else if token.kind = .eol then .ok rest
    else .error (.preparing (.afterContinuation token.display) token.line)

/-- What is read after a continuation mark is shorter than what stood before it. -/
theorem afterMark_length_lt {line : Nat} {tokens rest : List Token}
    (read : afterMark line tokens = .ok rest) : rest.length < tokens.length := by
  induction tokens with
  | nil => simp [afterMark] at read
  | cons token tail ih =>
    simp only [afterMark] at read
    split at read
    · exact Nat.lt_succ_of_lt (ih read)
    · split at read
      · simp only [Except.ok.injEq] at read
        subst read
        simp
      · simp at read

/-- Tokens with all continued lines joined. -/
def join : List Token → Except Fault (List Token)
  | [] => .ok []
  | token :: rest =>
    if token.kind = .extend then
      match _read : afterMark token.line rest with
      | .ok tail => join tail
      | .error fault => .error fault
    else
      match join rest with
      | .ok later => .ok (token :: later)
      | .error fault => .error fault
termination_by tokens => tokens.length
decreasing_by
  · have := afterMark_length_lt ‹_›
    simp only [List.length_cons]
    omega
  · simp

end LineScript.Continuation
