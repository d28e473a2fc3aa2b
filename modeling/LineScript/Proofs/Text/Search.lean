import LineScript.Proofs.Lists
import LineScript.Text.Search

/-!
# Occurrences from left to right

A text is taken apart at the first place where something occurs, then at the first one behind that occurrence,
and so on (`Leftmost`). The search that the library runs does exactly this, for a text that is looked for and for
single characters that are (`scan_leftmost`). What follows about parts, positions and replacements is derived
from there.
-/

namespace LineScript.Text

open List

variable {occurs : List Char → Bool} {length : Nat} {wanted : List Char}

/-- A text begins with another exactly when the other is a prefix. -/
theorem beginsWith_iff (wanted chars : List Char) :
    beginsWith (· == ·) wanted chars = true ↔ wanted <+: chars := by
  induction wanted generalizing chars with
  | nil => exact ⟨fun _ => nil_prefix, fun _ => rfl⟩
  | cons w wanted ih =>
    cases chars with
    | nil => simp [beginsWith]
    | cons c chars => rw [beginsWith, Bool.and_eq_true, beq_iff_eq, ih, cons_prefix_cons]

/-- A cut at the leftmost occurrences that do not overlap, each of which has `length` characters. -/
inductive Leftmost (occurs : List Char → Bool) (length : Nat) : List Char → Cut → Prop
  /-- Nothing occurs any more. -/
  | last {chars : List Char} (absent : ∀ place, occurs (chars.drop place) = false) :
    Leftmost occurs length chars ⟨[], chars⟩
  /-- The first occurrence stands here, and the others behind it. -/
  | next {before rest : List Char} {later : Cut}
      (first : ∀ place < before.length, occurs ((before ++ rest).drop place) = false)
      (here : occurs rest = true) (others : Leftmost occurs length (rest.drop length) later) :
    Leftmost occurs length (before ++ rest) ⟨⟨before, rest.take length⟩ :: later.pieces, later.tail⟩

/-- What is left of an occurrence is passed. -/
theorem scan_skip (occurs : List Char → Bool) (length skip : Nat) (part chars : List Char) :
    Cut.scan occurs length skip part chars = Cut.scan occurs length 0 part (chars.drop skip) := by
  induction chars generalizing skip with
  | nil => simp [Cut.scan]
  | cons c chars ih =>
    cases skip with
    | zero => rfl
    | succ skip => rw [Cut.scan, drop_succ_cons, ih]

/-- The search takes a text apart at the leftmost occurrences, when none begins in what it has passed. -/
theorem scan_leftmost (never : occurs [] = false) (positive : 0 < length) (part chars : List Char)
    (passed : ∀ place < part.length, occurs ((part.reverse ++ chars).drop place) = false) :
    Leftmost occurs length (part.reverse ++ chars) (Cut.scan occurs length 0 part chars) := by
  cases chars with
  | nil =>
    rw [append_nil, Cut.scan]
    refine .last fun place => ?_
    by_cases inside : place < part.length
    · simpa using passed place inside
    · rw [drop_eq_nil_of_le (by rw [length_reverse]; omega), never]
  | cons c rest =>
    rw [Cut.scan]
    split
    · rename_i here
      have later := scan_leftmost never positive [] (rest.drop (length - 1)) nofun
      have behind : (c :: rest).drop length = rest.drop (length - 1) := drop_cons positive
      rw [scan_skip]
      rw [reverse_nil, nil_append, ← behind] at later
      rw [← behind]
      refine .next ?_ here later
      simpa using passed
    · rename_i notHere
      have passed' : ∀ place < (c :: part).length,
          occurs (((c :: part).reverse ++ rest).drop place) = false := by
        intro place bound
        rw [reverse_cons, append_assoc, singleton_append]
        by_cases inside : place < part.length
        · exact passed place inside
        · have here : place = part.reverse.length := by
            rw [length_cons] at bound
            rw [length_reverse]
            omega
          rw [here, drop_left]
          exact Bool.eq_false_iff.mpr notHere
      have later := scan_leftmost never positive (c :: part) rest passed'
      rwa [reverse_cons, append_assoc, singleton_append] at later
termination_by chars.length

/-- Cutting at a text cuts at its leftmost occurrences. -/
theorem cutAtText_leftmost (same : Char → Char → Bool) (nonempty : wanted ≠ []) (chars : List Char) :
    Leftmost (beginsWith same wanted) wanted.length chars (cutAtText same wanted chars) := by
  refine scan_leftmost ?_ (length_pos_iff.mpr nonempty) [] chars nofun
  cases wanted with
  | nil => exact absurd rfl nonempty
  | cons => rfl

/-- Cutting at characters cuts at each accepted one. -/
theorem cutAtChars_leftmost (accept : Char → Bool) (chars : List Char) :
    Leftmost (fun rest => rest.head?.any accept) 1 chars (cutAtChars accept chars) :=
  scan_leftmost rfl Nat.one_pos [] chars nofun

/-- There is one such cut only. -/
theorem Leftmost.unique {chars : List Char} {cut other : Cut} (leftmost : Leftmost occurs length chars cut)
    (second : Leftmost occurs length chars other) : cut = other := by
  induction leftmost generalizing other with
  | last absent =>
    cases second with
    | last => rfl
    | @next before rest _ _ here _ =>
      have notHere := absent before.length
      rw [drop_left, here] at notHere
      cases notHere
  | @next before rest later first here _ ih =>
    generalize whole : before ++ rest = chars at second
    cases second with
    | last absent =>
      have notHere := absent before.length
      rw [← whole, drop_left, here] at notHere
      cases notHere
    | @next before' rest' later' first' here' others' =>
      -- Neither of the two first occurrences stands before the other one.
      have size : before.length = before'.length := by
        rcases Nat.lt_trichotomy before.length before'.length with less | same | more
        · have notHere := first' _ less
          rw [← whole, drop_left, here] at notHere
          cases notHere
        · exact same
        · have notHere := first _ more
          rw [whole, drop_left, here'] at notHere
          cases notHere
      obtain ⟨rfl, rfl⟩ := append_inj whole size
      rw [ih others']

/-! ## Positions -/

/-- The wanted text occurs at every position of a leftmost cut. -/
theorem Leftmost.occurs_at {chars : List Char} {cut : Cut} (leftmost : Leftmost occurs length chars cut)
    (start : Nat) {position : Nat} (member : position ∈ Cut.positionsFrom start cut.pieces) :
    ∃ place, position = start + place ∧ occurs (chars.drop place) = true := by
  induction leftmost generalizing start with
  | last => cases member
  | @next before rest later _ here _ ih =>
    rw [Cut.positionsFrom, mem_cons] at member
    rcases member with rfl | member
    · exact ⟨before.length, rfl, by rwa [drop_left]⟩
    · obtain ⟨place, rfl, found⟩ := ih _ member
      refine ⟨before.length + ((rest.take length).length + place), by simp only [Nat.add_assoc], ?_⟩
      rwa [drop_length_add_append, ← drop_drop, drop_length_take]

/-- At each position of a cut the text that is looked for stands. -/
theorem prefix_drop_of_mem_positions {chars : List Char} (nonempty : wanted ≠ []) {position : Nat}
    (member : position ∈ (cutAtText (· == ·) wanted chars).positions) : wanted <+: chars.drop position := by
  obtain ⟨place, rfl, found⟩ := (cutAtText_leftmost _ nonempty chars).occurs_at 0 member
  rw [Nat.zero_add]
  exact (beginsWith_iff _ _).mp found

/-! ## Parts -/

/-- The characters of pieces, in a row. -/
def pieceChars (pieces : List Piece) : List Char := pieces.flatMap fun piece => piece.before ++ piece.found

/-- Where all occurrences are the text that is looked for, it stands behind each part. -/
theorem pieceChars_eq {pieces : List Piece} (founds : ∀ piece ∈ pieces, piece.found = wanted) :
    pieceChars pieces = (pieces.map Piece.before).flatMap (· ++ wanted) := by
  have same : pieces.map (fun piece => piece.before ++ piece.found) =
      pieces.map fun piece => piece.before ++ wanted :=
    map_congr_left fun piece member => by rw [founds piece member]
  rw [pieceChars, flatMap_map, flatMap_def, same, ← flatMap_def]

namespace Leftmost

variable {chars : List Char} {cut : Cut}

/-- What is looked for stands in no part. -/
theorem not_infix (leftmost : Leftmost (beginsWith (· == ·) wanted) length chars cut)
    (nonempty : wanted ≠ []) {part : List Char} (member : part ∈ cut.parts) : ¬ wanted <:+: part := by
  intro within
  obtain ⟨place, inside, begins⟩ := exists_place_of_infix within nonempty
  induction leftmost with
  | @last chars absent =>
    obtain rfl : part = chars := mem_singleton.mp member
    have stands := (beginsWith_iff _ _).mpr (begins [])
    rw [append_nil, absent] at stands
    cases stands
  | @next before rest later first _ _ ih =>
    rcases mem_cons.mp member with rfl | member
    · have stands := (beginsWith_iff _ _).mpr (begins rest)
      rw [first place inside] at stands
      cases stands
    · exact ih member

/-- Each occurrence is the text that is looked for. -/
theorem found_eq (leftmost : Leftmost (beginsWith (· == ·) wanted) wanted.length chars cut) :
    ∀ piece ∈ cut.pieces, piece.found = wanted := by
  induction leftmost with
  | last => exact nofun
  | next _ here _ ih =>
    have begins := (beginsWith_iff _ _).mp here
    exact forall_mem_cons.mpr ⟨(prefix_iff_eq_take.mp begins).symm, ih⟩

/-- Nothing is lost. -/
theorem flatten (leftmost : Leftmost occurs length chars cut) :
    pieceChars cut.pieces ++ cut.tail = chars := by
  induction leftmost with
  | last => rfl
  | @next before rest later _ _ _ ih =>
    rw [pieceChars, flatMap_cons, append_assoc, append_assoc, ← pieceChars, ih, take_append_drop]

/-- A part holds no character at which the text is cut, and there is one part more than such characters. -/
theorem chars_parts {accept : Char → Bool}
    (leftmost : Leftmost (fun rest => rest.head?.any accept) 1 chars cut) :
    (∀ part ∈ cut.parts, ∀ c ∈ part, accept c = false) ∧ cut.parts.length = 1 + chars.countP accept := by
  induction leftmost with
  | @last chars absent =>
    have free : ∀ c ∈ chars, accept c = false := by
      refine @not_accept_of_mem _ accept chars [] fun place _ => ?_
      rw [append_nil, absent]
    refine ⟨by simpa [Cut.parts] using free, ?_⟩
    rw [countP_eq_zero.mpr fun c member => Bool.eq_false_iff.mp (free c member)]
    rfl
  | @next before rest later first here _ ih =>
    obtain ⟨free, counted⟩ := ih
    have freeBefore := not_accept_of_mem first
    cases rest with
    | nil => cases here
    | cons c rest =>
      refine ⟨forall_mem_cons.mpr ⟨freeBefore, free⟩, ?_⟩
      have none : before.countP accept = 0 :=
        countP_eq_zero.mpr fun c member => Bool.eq_false_iff.mp (freeBefore c member)
      have one : accept c = true := here
      rw [countP_append, none, countP_cons_of_pos one, Nat.zero_add]
      change later.parts.length + 1 = _
      rw [counted]
      rfl

end Leftmost

/-! ## Replacements -/

/-- The parts, joined with the text that is looked for, are the whole text. -/
theorem Leftmost.intercalate_parts {chars : List Char} {cut : Cut}
    (leftmost : Leftmost (beginsWith (· == ·) wanted) wanted.length chars cut) :
    wanted.intercalate cut.parts = chars := by
  rw [Cut.parts, intercalate_append _ _ (cons_ne_nil _ _), intercalate_singleton,
    ← pieceChars_eq leftmost.found_eq, leftmost.flatten]

/-- The spans of pieces behind others are counted from where those end. -/
theorem spansFrom_append (start : Nat) (front back : List Piece) :
    Cut.spansFrom start (front ++ back) =
      Cut.spansFrom start front ++ Cut.spansFrom (start + (pieceChars front).length) back := by
  induction front generalizing start with
  | nil => rfl
  | cons piece front ih =>
    have size : start + (pieceChars (piece :: front)).length =
        start + piece.before.length + piece.found.length + (pieceChars front).length := by
      simp only [pieceChars, flatMap_cons, length_append]
      omega
    rw [cons_append, Cut.spansFrom, Cut.spansFrom, ih, size, cons_append]

/-- There are as many spans as pieces. -/
theorem length_spansFrom (start : Nat) (pieces : List Piece) :
    (Cut.spansFrom start pieces).length = pieces.length := by
  induction pieces generalizing start with
  | nil => rfl
  | cons piece pieces ih => rw [Cut.spansFrom, length_cons, length_cons, ih]

/-- Splicing behind some characters keeps what stands between them and the pieces, and puts the replacement where
the pieces have their occurrences. -/
theorem spliced_spansFrom (passed between : List Char) (pieces : List Piece) (tail replacement : List Char) :
    spliced (passed ++ (between ++ (pieceChars pieces ++ tail))) replacement passed.length
        (Cut.spansFrom (passed.length + between.length) pieces) =
      between ++ ((pieces.map Piece.before).flatMap (· ++ replacement) ++ tail) := by
  induction pieces generalizing passed between with
  | nil => exact drop_left
  | cons piece pieces ih =>
    have upTo : passed.length + between.length + piece.before.length - passed.length =
        (between ++ piece.before).length := by
      rw [length_append]
      omega
    have behind := ih (passed ++ (between ++ (piece.before ++ piece.found))) []
    have size : (passed ++ (between ++ (piece.before ++ piece.found))).length =
        passed.length + between.length + piece.before.length + piece.found.length := by
      simp only [length_append, Nat.add_assoc]
    rw [length_nil, Nat.add_zero, size, nil_append] at behind
    simp only [pieceChars, map_cons, flatMap_cons, append_assoc, nil_append] at behind ⊢
    rw [Cut.spansFrom, spliced, upTo, drop_left, behind, ← append_assoc between, take_left]
    simp only [append_assoc]

/-- The parts around some occurrences in the middle joined with the replacement, and all others with the text that
is looked for. -/
theorem intercalate_middle (front middle back : List Piece) (tail replacement : List Char) :
    let parts := (Cut.mk (front ++ (middle ++ back)) tail).parts
    let upTo := front.length + middle.length + 1
    wanted.intercalate (parts.take front.length ++
        replacement.intercalate ((parts.take upTo).drop front.length) :: parts.drop upTo) =
      (front.map Piece.before).flatMap (· ++ wanted) ++
        ((middle.map Piece.before).flatMap (· ++ replacement) ++
          ((back.map Piece.before).flatMap (· ++ wanted) ++ tail)) := by
  dsimp only
  obtain ⟨next, rest, behind⟩ := exists_cons_of_ne_nil
    (append_ne_nil_of_right_ne_nil (back.map Piece.before) (cons_ne_nil tail []))
  have parts : (Cut.mk (front ++ (middle ++ back)) tail).parts =
      front.map Piece.before ++ (middle.map Piece.before ++ [next]) ++ rest := by
    simp only [Cut.parts, map_append, append_assoc, behind, singleton_append]
  have upTo : (front.map Piece.before ++ (middle.map Piece.before ++ [next])).length =
      front.length + middle.length + 1 := by
    simp only [length_append, length_map, length_singleton]
    omega
  rw [parts, take_left' upTo, drop_left' upTo, drop_left' (length_map _), append_assoc,
    take_left' (length_map _), intercalate_append _ _ (cons_ne_nil _ _),
    intercalate_append _ _ (cons_ne_nil _ _), intercalate_singleton, intercalate_append_cons, ← behind,
    intercalate_append _ _ (cons_ne_nil _ _), intercalate_singleton]

/-- Replacing the occurrences from one number on up to another one joins the parts around them with the
replacement, and all others as they were. -/
theorem spliced_spans {cut : Cut} {chars : List Char}
    (leftmost : Leftmost (beginsWith (· == ·) wanted) wanted.length chars cut) {first last : Nat}
    (ordered : first ≤ last) (bound : last ≤ cut.pieces.length) (replacement : List Char) :
    spliced chars replacement 0 ((cut.spans.take last).drop first) =
      wanted.intercalate (cut.parts.take first ++
        replacement.intercalate ((cut.parts.take (last + 1)).drop first) :: cut.parts.drop (last + 1)) := by
  obtain ⟨pieces, tail⟩ := cut
  dsimp only at bound
  have founds := leftmost.found_eq
  have whole : pieceChars pieces ++ tail = chars := leftmost.flatten
  obtain ⟨front, middle, back, rfl, rfl, rfl⟩ := exists_middle ordered bound
  obtain ⟨frontFounds, others⟩ := forall_mem_append.mp founds
  obtain ⟨-, backFounds⟩ := forall_mem_append.mp others
  have chosen : ((Cut.mk (front ++ (middle ++ back)) tail).spans.take (front.length + middle.length)).drop
      front.length = Cut.spansFrom (pieceChars front).length middle := by
    rw [Cut.spans, spansFrom_append, spansFrom_append, Nat.zero_add, ← append_assoc,
      take_left' (by simp only [length_append, length_spansFrom]), drop_left' (length_spansFrom _ _)]
  have result := spliced_spansFrom [] (pieceChars front) middle (pieceChars back ++ tail) replacement
  have inRow : [] ++ (pieceChars front ++ (pieceChars middle ++ (pieceChars back ++ tail))) = chars := by
    rw [← whole]
    simp only [pieceChars, flatMap_append, append_assoc, nil_append]
  rw [inRow, length_nil, Nat.zero_add] at result
  rw [chosen, result, intercalate_middle, pieceChars_eq frontFounds, pieceChars_eq backFounds]

end LineScript.Text
