import LineScript.Text.Case

/-!
# Searching and cutting text

Occurrences of a text in another are found from left to right and do not overlap. `Cut.scan` takes a
text apart at all of them; splitting, counting positions and the spans to replace are readings of the result.
-/

namespace LineScript.Text

/-- The text begins with characters that agree with `wanted` one by one. -/
def beginsWith (same : Char → Char → Bool) : (wanted chars : List Char) → Bool
  | [], _ => true
  | _ :: _, [] => false
  | w :: wanted, c :: chars => same w c && beginsWith same wanted chars

/-- What stands before an occurrence, and the occurrence itself. -/
structure Piece where
  /-- The characters before it, since the last one. -/
  before : List Char
  /-- The occurrence. -/
  found : List Char
deriving Repr, DecidableEq

/-- A text taken apart at its occurrences. -/
structure Cut where
  /-- The pieces that end with an occurrence. -/
  pieces : List Piece
  /-- The characters after the last occurrence. -/
  tail : List Char
deriving Repr, DecidableEq

namespace Cut

/-- Takes a text apart at the places where `occurs` holds of what follows; each occurrence has
`length` characters. `part` holds the characters since the last one, in reverse, and `skip` counts
the characters of an occurrence that are still to be passed. -/
def scan (occurs : List Char → Bool) (length : Nat) :
    (skip : Nat) → (part chars : List Char) → Cut
  | _, part, [] => ⟨[], part.reverse⟩
  | skip + 1, part, _ :: rest => scan occurs length skip part rest
  | 0, part, c :: rest =>
    if occurs (c :: rest) then
      let later := scan occurs length (length - 1) [] rest
      ⟨⟨part.reverse, (c :: rest).take length⟩ :: later.pieces, later.tail⟩
    else scan occurs length 0 (c :: part) rest

/-- The parts of the text between occurrences. -/
def parts (cut : Cut) : List (List Char) := cut.pieces.map Piece.before ++ [cut.tail]

/-- The positions of the occurrences, counted from `start`. -/
def positionsFrom (start : Nat) : List Piece → List Nat
  | [] => []
  | piece :: rest =>
    let position := start + piece.before.length
    position :: positionsFrom (position + piece.found.length) rest

/-- The positions of the occurrences, counted from zero. -/
def positions (cut : Cut) : List Nat := positionsFrom 0 cut.pieces

/-- Where the occurrences begin and end, counted from `start`. -/
def spansFrom (start : Nat) : List Piece → List (Nat × Nat)
  | [] => []
  | piece :: rest =>
    let position := start + piece.before.length
    let stop := position + piece.found.length
    (position, stop) :: spansFrom stop rest

/-- Where the occurrences begin and end, counted from zero. -/
def spans (cut : Cut) : List (Nat × Nat) := spansFrom 0 cut.pieces

end Cut

/-- What stands in a text from a place on, with a replacement for each of the spans. -/
def spliced (chars replacement : List Char) : (place : Nat) → List (Nat × Nat) → List Char
  | place, [] => chars.drop place
  | place, (start, stop) :: spans =>
    (chars.drop place).take (start - place) ++ replacement ++ spliced chars replacement stop spans

/-- Takes a text apart at the occurrences of one that is not empty. -/
def cutAtText (same : Char → Char → Bool) (wanted chars : List Char) : Cut :=
  Cut.scan (beginsWith same wanted) wanted.length 0 [] chars

/-- Takes a text apart at single characters. -/
def cutAtChars (accept : Char → Bool) (chars : List Char) : Cut :=
  Cut.scan (fun rest => rest.head?.any accept) 1 0 [] chars

end LineScript.Text
