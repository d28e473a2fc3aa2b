import LineScript.Proofs.Run.Calls
import LineScript.Proofs.Text.Search
import LineScript.Value.Operation
import Mathlib.Algebra.Group.Nat.Defs

/-!
# Splitting, replacing and searching texts

Splitting a text at a delimiter cuts it at the leftmost occurrences that do not overlap. Replacing asks the host for
the places, and where these are the same occurrences (`Regex.Finder.Finds`), what is left of the text after some of
them are replaced is its parts, joined with the replacement there and with the delimiter elsewhere
(`split_and_replace_agree`).
-/

namespace LineScript

section

open Machine Text Library

/-- The action returns a text, leaves all objects as they are and leaves an extended code. -/
def Exec.GivesText (action : Exec Value) (machine : Machine) (text : String) (extended : Int64) : Prop :=
  ∃ after, action machine = .ok (.string text) after ∧ after.heap = machine.heap ∧
    after.registers.extended = extended

/-- A call that splits a text. -/
def splitting (text delimiters : String) (flag : Int64) (line : Nat) : Exec Value :=
  callBuiltin .stringSplit [.string text, .string delimiters, .number flag] line

/-- A call that replaces occurrences of a text, by their number, with regard to case. -/
def replacing (text wanted replacement : String) (number : Int64) (line : Nat) : Exec Value :=
  callBuiltin .stringReplace [.string text, .string wanted, .string replacement, .number number, .number 1] line

/-- The items that splitting makes out of parts: the parts, with their number in front unless the flag leaves it
out. -/
def splitItems (flag : Int64) (parts : List (List Char)) : List Value :=
  (if flag &&& 2 = 0 then [.number (Int64.ofNat parts.length)] else []) ++ parts.map ofChars

/-- Splitting makes an array of the parts, and the error code says that there is one part only. -/
theorem splitting_gives (text delimiters : String) (flag : Int64) (line : Nat) (machine : Machine)
    {parts : List (List Char)} (split : splitText (flag &&& 1 = 1) delimiters.toList text.toList = parts) :
    (splitting text delimiters flag line).GivesArray machine (splitItems flag parts)
      (if parts.length = 1 then 1 else 0) := by
  let ready := machine.readied .stringSplit 3
  have called : splitting text delimiters flag line machine = (do
      if (splitText (flag &&& 1 = 1) delimiters.toList text.toList).length = 1 then Machine.setError 1
      newArray (splitItems flag (splitText (flag &&& 1 = 1) delimiters.toList text.toList)).toArray : Exec Value)
        ready :=
    @callBuiltin_readied .stringSplit [.string text, .string delimiters, .number flag] _ (Nat.le_refl 3)
      (Nat.le_succ 2) rfl line machine
  rw [split] at called
  by_cases single : parts.length = 1
  · obtain ⟨after, made, heap, error⟩ := newArray_gives (splitItems flag parts)
      (ready.recoded fun registers => { registers with error := 1 })
    rw [if_pos single] at called
    refine ⟨after, called.trans made, heap, ?_⟩
    rw [error, registers_recoded, if_pos single]
  · obtain ⟨after, made, heap, error⟩ := newArray_gives (splitItems flag parts) ready
    rw [if_neg single] at called
    refine ⟨after, called.trans made, heap, ?_⟩
    rw [error, registers_readied, if_neg single]

/-- The occurrences that a number chooses stand in a row: all for zero, the first ones for a positive number, the
last ones for a negative one. -/
theorem chosen_eq {α : Type} (number : Int64) (found : List α) :
    ∃ first last, chosen number.toInt found = (found.take last).drop first ∧ first ≤ last ∧ last ≤ found.length ∧
      (number = 0 → first = 0 ∧ last = found.length) ∧
      (0 < number → first = 0 ∧ last = min number.toInt.toNat found.length) ∧
      (number < 0 → first = found.length - min (-number.toInt).toNat found.length ∧ last = found.length) := by
  have zero : number = 0 ↔ number.toInt = 0 := Int64.toInt_inj.symm
  have positive : 0 < number ↔ 0 < number.toInt := Int64.lt_iff_toInt_lt
  have negative : number < 0 ↔ number.toInt < 0 := Int64.lt_iff_toInt_lt
  rw [zero, positive, negative]
  unfold chosen
  split
  · refine ⟨0, min number.toInt.toNat found.length, ?_, by omega, by omega, by omega, by omega, by omega⟩
    rw [List.drop_zero, ← List.take_eq_take_min]
  · split
    · refine ⟨found.length - min (-number.toInt).toNat found.length, found.length, ?_, by omega, by omega, by omega,
        by omega, by omega⟩
      rw [List.take_length]
      congr 1
      omega
    · refine ⟨0, found.length, ?_, by omega, by omega, by omega, by omega, by omega⟩
      rw [List.drop_zero, List.take_length]

/-- What is found for a word is the leftmost occurrences that do not overlap. -/
def Regex.Finder.Finds (finder : Regex.Finder) (word : String) : Prop :=
  ∃ find, finder.ofWord false word = .ok find ∧
    ∀ chars, ∃ cut, Leftmost (beginsWith (· == ·) word.toList) word.toList.length chars cut ∧ find chars = cut.spans

/-- Words that are not too large are found by comparing them at every place. -/
theorem Regex.Finder.byAutomata_finds {word : String} (nonempty : word.toList ≠ [])
    (fits : word.utf8ByteSize ≤ Regex.maxWeight) : Regex.Finder.byAutomata.Finds word :=
  ⟨_, if_neg (Nat.not_lt.mpr fits), fun chars => ⟨_, cutAtText_leftmost (· == ·) nonempty chars, rfl⟩⟩

/-- A call that begins leaves what the host finds words with. -/
theorem finder_readied (machine : Machine) (function : Builtin) (count : Nat) :
    (machine.readied function count).host.finder = machine.host.finder := by
  unfold Machine.readied Host.trace
  split <;> rfl

section

variable {text delimiter : String} {cut : Cut} {parts : List String}

/-- A call that replaces asks the host what to look for, and stops where there is nothing. -/
theorem replacing_readied (text : String) (nonempty : delimiter.toList ≠ []) (replacement : String) (number : Int64)
    (line : Nat) (machine : Machine) :
    replacing text delimiter replacement number line machine =
      (match machine.host.finder.ofWord false delimiter with
        | .error reason => Exec.failHere (.replacement reason)
        | .ok find => do
          let replaced := chosen number.toInt (find text.toList)
          Machine.setExtended (Int64.ofNat replaced.length)
          return ofChars (spliced text.toList replacement.toList 0 replaced) : Exec Value)
        (machine.readied .stringReplace 5) := by
  have called : replacing text delimiter replacement number line machine =
      (if delimiter.toList = [] then return .string text else do
        match (← get).host.finder.ofWord ((1 : Int64) != 1) delimiter with
        | .error reason => Exec.failHere (.replacement reason)
        | .ok find =>
          let replaced := chosen number.toInt (find text.toList)
          Machine.setExtended (Int64.ofNat replaced.length)
          return ofChars (spliced text.toList replacement.toList 0 replaced) : Exec Value)
        (machine.readied .stringReplace 5) :=
    @callBuiltin_readied .stringReplace
      [.string text, .string delimiter, .string replacement, .number number, .number 1] _ (Nat.le_refl 5)
      (Nat.le_add_right 3 2) rfl line machine
  have same : ((1 : Int64) != 1) = false := rfl
  rw [called, if_neg nonempty, same, ← finder_readied machine .stringReplace 5]
  rfl

/-- What is left after some occurrences are replaced is the parts, joined with the replacement there. -/
theorem replacing_parts (nonempty : delimiter.toList ≠ [])
    (taken : cutAtText (· == ·) delimiter.toList text.toList = cut) (read : cut.parts = parts.map String.toList)
    (replacement : String) (number : Int64) (line : Nat) {machine : Machine}
    (finds : machine.host.finder.Finds delimiter) {first last : Nat}
    (taking : chosen number.toInt cut.spans = (cut.spans.take last).drop first) (ordered : first ≤ last)
    (bound : last ≤ cut.pieces.length) :
    (replacing text delimiter replacement number line).GivesText machine
      (delimiter.intercalate (parts.take first ++
        replacement.intercalate ((parts.take (last + 1)).drop first) :: parts.drop (last + 1)))
      (Int64.ofNat (last - first)) := by
  obtain ⟨find, made, finds⟩ := finds
  have leftmost := cutAtText_leftmost (· == ·) nonempty text.toList
  rw [taken] at leftmost
  have found : find text.toList = cut.spans := by
    obtain ⟨other, second, found⟩ := finds text.toList
    rw [found, leftmost.unique second]
  have count : ((cut.spans.take last).drop first).length = last - first := by
    rw [List.length_drop, List.length_take, Cut.spans, length_spansFrom, Nat.min_eq_left bound]
  have joined : String.ofList (spliced text.toList replacement.toList 0 ((cut.spans.take last).drop first)) =
      delimiter.intercalate (parts.take first ++
        replacement.intercalate ((parts.take (last + 1)).drop first) :: parts.drop (last + 1)) := by
    apply String.toList_inj.mp
    rw [spliced_spans leftmost ordered bound, read, String.toList_ofList, String.toList_intercalate]
    simp only [List.map_append, List.map_cons, List.map_take, List.map_drop, String.toList_intercalate]
  have called := replacing_readied text nonempty replacement number line machine
  rw [made] at called
  dsimp only at called
  rw [found, taking, count, ofChars, joined] at called
  refine ⟨(machine.readied .stringReplace 5).recoded fun registers =>
    { registers with extended := Int64.ofNat (last - first) }, called, rfl, ?_⟩
  rw [registers_recoded]

/-- Where the host finds nothing to look for, replacing stops with its reason. -/
theorem replacing_refused (text : String) (nonempty : delimiter.toList ≠ []) (replacement : String) (number : Int64)
    (line : Nat) {machine : Machine} {reason : String}
    (refused : machine.host.finder.ofWord false delimiter = .error reason) :
    ∃ after, replacing text delimiter replacement number line machine =
      .error (.fault (.running (.replacement reason) machine.line [])) after ∧ after.heap = machine.heap := by
  have called := replacing_readied text nonempty replacement number line machine
  rw [refused] at called
  exact ⟨_, called, rfl⟩

/-- The parts of a text between the leftmost occurrences of a delimiter that do not overlap. -/
structure Parted (text delimiter : String) (parts : List String) : Prop where
  /-- The parts are what such a cut leaves. -/
  leftmost : ∃ cut, Leftmost (beginsWith (· == ·) delimiter.toList) delimiter.toList.length text.toList cut ∧
    cut.parts = parts.map String.toList
  /-- The delimiter stands in none of them. -/
  free : ∀ part ∈ parts, ¬ delimiter.toList <:+: part.toList
  /-- Joined with the delimiter they are the text. -/
  joined : delimiter.intercalate parts = text

/-- The parts read from a cut at a text are the text's parts. -/
theorem parted (nonempty : delimiter.toList ≠ []) (taken : cutAtText (· == ·) delimiter.toList text.toList = cut)
    (read : cut.parts = parts.map String.toList) : Parted text delimiter parts := by
  have leftmost := cutAtText_leftmost (· == ·) nonempty text.toList
  rw [taken] at leftmost
  refine ⟨⟨cut, leftmost, read⟩, fun part member => ?_, ?_⟩
  · refine leftmost.not_infix nonempty ?_
    rw [read]
    exact List.mem_map_of_mem member
  · apply String.toList_inj.mp
    rw [String.toList_intercalate, ← read, leftmost.intercalate_parts]

/-- The parts of a text between single characters that are delimiters. -/
structure PartedAtChars (text delimiters : String) (parts : List String) : Prop where
  /-- The parts are what such a cut leaves. -/
  leftmost : ∃ cut, Leftmost (fun rest => rest.head?.any delimiters.toList.contains) 1 text.toList cut ∧
    cut.parts = parts.map String.toList
  /-- None of the characters stands in a part. -/
  free : ∀ part ∈ parts, ∀ c ∈ part.toList, c ∉ delimiters.toList
  /-- There is one part more than such characters in the text. -/
  counted : parts.length = 1 + text.toList.countP (· ∈ delimiters.toList)

/-- The parts read from a cut at characters are the text's parts. -/
theorem partedAtChars (taken : cutAtChars delimiter.toList.contains text.toList = cut)
    (read : cut.parts = parts.map String.toList) : PartedAtChars text delimiter parts := by
  have leftmost := cutAtChars_leftmost delimiter.toList.contains text.toList
  rw [taken] at leftmost
  obtain ⟨free, counted⟩ := leftmost.chars_parts
  rw [read] at free counted
  refine ⟨⟨cut, leftmost, read⟩, fun part member c inside => ?_, ?_⟩
  · have absent := free _ (List.mem_map_of_mem member) c inside
    rwa [List.contains_eq_mem, decide_eq_false_iff_not] at absent
  · have same : (fun c => decide (c ∈ delimiter.toList)) = delimiter.toList.contains :=
      funext fun c => (List.contains_eq_mem c _).symm
    rw [same, ← counted, List.length_map]

end

/-- The parts of a cut can be read as texts. -/
theorem exists_parts (cut : Cut) :
    ∃ parts : List String, cut.parts = parts.map String.toList ∧ parts.length = cut.pieces.length + 1 := by
  refine ⟨cut.parts.map String.ofList, by simp, ?_⟩
  rw [List.length_map, Cut.parts, List.length_append, List.length_map, List.length_singleton]

/-- Splitting a text at a delimiter that is not empty cuts it at the leftmost occurrences that do not overlap.
Where the host finds these for the delimiter, replacing cuts the text there as well: a number of occurrences to
replace, zero for all, joins as many parts with the replacement, from the front or from the end. Where the host
refuses the delimiter, replacing stops the script with its reason. -/
theorem split_and_replace_agree (text : String) {delimiter : String} (nonempty : delimiter ≠ "")
    (replacement : String) (line : Nat) (machine : Machine) :
    (∃ parts count, Parted text delimiter parts ∧ parts.length = count + 1 ∧
      (splitting text delimiter 3 line).GivesArray machine (parts.map Value.string)
        (if parts.length = 1 then 1 else 0) ∧
      (splitting text delimiter 1 line).GivesArray machine
        (.number (Int64.ofNat parts.length) :: parts.map Value.string) (if parts.length = 1 then 1 else 0) ∧
      (machine.host.finder.Finds delimiter →
        (replacing text delimiter replacement 0 line).GivesText machine (replacement.intercalate parts)
          (Int64.ofNat count) ∧
        (∀ (number : Int64) (front : Nat), 0 < number → front = min number.toInt.toNat count →
          (replacing text delimiter replacement number line).GivesText machine
            (delimiter.intercalate (replacement.intercalate (parts.take (front + 1)) :: parts.drop (front + 1)))
            (Int64.ofNat front)) ∧
        ∀ (number : Int64) (back : Nat), number < 0 → back = min (-number.toInt).toNat count →
          (replacing text delimiter replacement number line).GivesText machine
            (delimiter.intercalate (parts.take (count - back) ++ [replacement.intercalate (parts.drop (count - back))]))
            (Int64.ofNat back)) ∧
      ∀ (number : Int64) (reason : String), machine.host.finder.ofWord false delimiter = .error reason →
        ∃ after, replacing text delimiter replacement number line machine =
          .error (.fault (.running (.replacement reason) machine.line [])) after ∧ after.heap = machine.heap) ∧
    ∃ parts, PartedAtChars text delimiter parts ∧
      (splitting text delimiter 0 line).GivesArray machine
        (.number (Int64.ofNat parts.length) :: parts.map Value.string) (if parts.length = 1 then 1 else 0) := by
  have some : delimiter.toList ≠ [] := fun none => nonempty (String.toList_eq_nil_iff.mp none)
  have shown (parts : List String) : (parts.map String.toList).map ofChars = parts.map Value.string := by
    simp [ofChars]
  constructor
  · obtain ⟨cut, taken⟩ : ∃ cut, cutAtText (· == ·) delimiter.toList text.toList = cut := ⟨_, rfl⟩
    obtain ⟨parts, read, size⟩ := exists_parts cut
    have splits (flag : Int64) (whole : flag &&& 1 = 1) :
        splitText (flag &&& 1 = 1) delimiter.toList text.toList = parts.map String.toList := by
      rw [splitText, if_neg some, if_pos (decide_eq_true whole), taken, read]
    have upTo : parts.take (cut.pieces.length + 1) = parts := List.take_of_length_le (Nat.le_of_eq size)
    have behind : parts.drop (cut.pieces.length + 1) = [] := List.drop_of_length_le (Nat.le_of_eq size)
    have spans : cut.spans.length = cut.pieces.length := length_spansFrom 0 cut.pieces
    have replaces (number : Int64) := chosen_eq number cut.spans
    rw [spans] at replaces
    refine ⟨parts, cut.pieces.length, parted some taken read, size, ?_, ?_, fun finds => ⟨?_, ?_, ?_⟩, ?_⟩
    · have gives := splitting_gives text delimiter 3 line machine (splits 3 rfl)
      rwa [splitItems, shown, List.length_map] at gives
    · have gives := splitting_gives text delimiter 1 line machine (splits 1 rfl)
      rwa [splitItems, shown, List.length_map] at gives
    · obtain ⟨first, last, taking, ordered, bound, all, -, -⟩ := replaces 0
      obtain ⟨rfl, rfl⟩ := all rfl
      have gives := replacing_parts some taken read replacement 0 line finds taking ordered bound
      rwa [upTo, behind] at gives
    · intro number front positive count
      obtain ⟨first, last, taking, ordered, bound, -, forward, -⟩ := replaces number
      obtain ⟨rfl, rfl⟩ := forward positive
      rw [← count] at taking ordered bound
      exact replacing_parts some taken read replacement number line finds taking ordered bound
    · intro number back negative count
      obtain ⟨first, last, taking, ordered, bound, -, -, backward⟩ := replaces number
      obtain ⟨rfl, rfl⟩ := backward negative
      have gives := replacing_parts some taken read replacement number line finds taking ordered bound
      rwa [upTo, behind, ← count, Nat.sub_sub_self (by omega)] at gives
    · exact fun number reason refused => replacing_refused text some replacement number line refused
  · obtain ⟨cut, taken⟩ : ∃ cut, cutAtChars delimiter.toList.contains text.toList = cut := ⟨_, rfl⟩
    obtain ⟨parts, read, -⟩ := exists_parts cut
    have splits : splitText ((0 : Int64) &&& 1 = 1) delimiter.toList text.toList = parts.map String.toList := by
      rw [splitText, if_neg some, if_neg (by decide), taken, read]
    have gives := splitting_gives text delimiter 0 line machine splits
    rw [splitItems, shown, List.length_map] at gives
    exact ⟨parts, partedAtChars taken read, gives⟩

/-- A delimiter that overlaps itself, at both ends of the text and in the replacement. -/
theorem split_and_replace_agree_overlapping :
    "aa" ≠ "" ∧ ∃ machine, machine.host.finder.Finds "aa" ∧ Parted "aaabaa" "aa" ["", "ab", ""] ∧
      (replacing "aaabaa" "aa" "aac" 0 1).GivesText machine "aacabaac" 2 ∧
      (replacing "aaabaa" "aa" "aac" 1 1).GivesText machine "aacabaa" 1 ∧
      (replacing "aaabaa" "aa" "aac" (-1) 1).GivesText machine "aaabaac" 1 := by
  have nonempty : "aa" ≠ "" := by decide
  let machine := ofTokens {} "main" []
  have finds : machine.host.finder.Finds "aa" :=
    Regex.Finder.byAutomata_finds (by decide) (by decide)
  obtain ⟨⟨parts, count, parted, size, split, -, replaces, -⟩, -⟩ :=
    split_and_replace_agree "aaabaa" nonempty "aac" 1 machine
  obtain ⟨all, front, back⟩ := replaces finds
  have found := @splitting_gives "aaabaa" "aa" 3 1 machine [[], ['a', 'b'], []] (by decide +kernel)
  have same : parts = ["", "ab", ""] :=
    (List.map_inj_right fun _ _ => Value.string.inj).mp (split.items_eq found)
  subst same
  obtain rfl : count = 2 := by
    rw [List.length_cons, List.length_cons, List.length_singleton] at size
    omega
  exact ⟨nonempty, machine, finds, parted, all, front 1 1 (by decide) (by decide),
    back (-1) 1 (by decide) (by decide)⟩

end

/-!
## Positions of a text in another

A position that the search finds is one in the text that is searched. With regard to case that is the text itself.
Without it both texts are searched in small letters, and the position counts characters of the small form: it is a
position of the text as long as no dotted capital I, whose small form has two characters, stands before it
(`found_position_stands`). Where one does, the position points behind the place (`found_position_passes`).
-/

open Machine Text Library

namespace Text

/-- The small form of a character that keeps its size, between its neighbours. -/
def smallOf (before : List Char) (c : Char) (rest : List Char) : Char :=
  if c.toNat = 0x3A3 then Char.ofNat (if meetsCased before && !meetsCased rest then 0x3C2 else 0x3C3)
  else Char.ofNat (lowerCode c.toNat)

variable {before chars : List Char}

/-- A character other than the dotted capital lowers to one character. -/
theorem lowerChars_cons {c : Char} (undotted : 'İ' ≠ c) (before rest : List Char) :
    lowerChars before (c :: rest) = smallOf before c rest :: lowerChars (c :: before) rest := by
  have plain : c.toNat ≠ 0x130 := fun same => undotted (Char.toNat_inj.mp same.symm)
  rw [lowerChars, smallOf, lowerChar, if_neg plain]
  split <;> rfl

/-- The small form of any character but a capital sigma is the same wherever it stands. -/
theorem smallOf_eq {c : Char} (noSigma : 'Σ' ≠ c) (before rest : List Char) :
    smallOf before c rest = Char.ofNat (lowerCode c.toNat) :=
  if_neg fun same => noSigma (Char.toNat_inj.mp same.symm)

/-- A text without the dotted capital keeps its length when it is lowered. -/
theorem length_lowerChars (undotted : 'İ' ∉ chars) : (lowerChars before chars).length = chars.length := by
  induction chars generalizing before with
  | nil => rfl
  | cons c rest ih =>
    rw [lowerChars_cons (List.ne_of_not_mem_cons undotted), List.length_cons,
      ih (List.not_mem_of_not_mem_cons undotted), List.length_cons]

/-- What stands behind some characters is made small on its own, with them before it. -/
theorem drop_lowerChars {count : Nat} (undotted : 'İ' ∉ chars.take count) :
    (lowerChars before chars).drop count =
      lowerChars ((chars.take count).reverse ++ before) (chars.drop count) := by
  induction count generalizing before chars with
  | zero => rfl
  | succ count ih =>
    cases chars with
    | nil => rfl
    | cons c rest =>
      rw [List.take_succ_cons] at undotted
      rw [lowerChars_cons (List.ne_of_not_mem_cons undotted), List.drop_succ_cons,
        ih (List.not_mem_of_not_mem_cons undotted), List.take_succ_cons, List.reverse_cons,
        List.append_assoc, List.singleton_append, List.drop_succ_cons]

/-- Without a capital sigma the neighbours do not matter. -/
theorem take_lowerChars {count : Nat} (undotted : 'İ' ∉ chars.take count) (noSigma : 'Σ' ∉ chars.take count)
    (other : List Char) : (lowerChars before chars).take count = lowerChars other (chars.take count) := by
  induction count generalizing before chars other with
  | zero => rfl
  | succ count ih =>
    cases chars with
    | nil => rfl
    | cons c rest =>
      rw [List.take_succ_cons] at undotted noSigma
      have plain := List.ne_of_not_mem_cons undotted
      have fixed := smallOf_eq (List.ne_of_not_mem_cons noSigma)
      rw [List.take_succ_cons, lowerChars_cons plain, lowerChars_cons plain, List.take_succ_cons, fixed, fixed,
        ih (List.not_mem_of_not_mem_cons undotted) (List.not_mem_of_not_mem_cons noSigma) (c :: other)]

end Text

/-- Positions in the text and in its small form can be counted, as in every text that fits the memory. -/
def FitsMemory (text : String) : Prop := text.length < 2 ^ 63 ∧ (lower text).length < 2 ^ 63

instance (text : String) : Decidable (FitsMemory text) :=
  inferInstanceAs (Decidable (text.length < 2 ^ 63 ∧ (lower text).length < 2 ^ 63))

/-- The action returns a value on every machine and leaves all objects as they are. -/
def Exec.Always (action : Exec Value) (value : Value) : Prop := ∀ machine, action.Gives machine value

/-- An action always gives one value only. -/
theorem Exec.Always.value_eq {action : Exec Value} {value other : Value} (always : action.Always value)
    (again : action.Always other) : value = other :=
  (always (ofTokens {} "main" [])).value_eq (again _)

/-- A call that searches a text in another one. -/
def finding (text wanted : String) (casesense occurrence : Int64) (line : Nat) : Exec Value :=
  callBuiltin .stringInStr [.string text, .string wanted, .number casesense, .number occurrence] line

/-- A call that takes as many characters from a position on. -/
def middle (text : String) (position count : Int64) (line : Nat) : Exec Value :=
  callBuiltin .stringMid [.string text, .number position, .number count] line

/-- An occurrence that is taken is one of those found. -/
theorem mem_of_occurrence? {α : Type} {found : List α} {number : Int} {item : α}
    (taken : occurrence? found number = some item) : item ∈ found := by
  unfold occurrence? at taken
  split at taken
  · exact List.mem_of_getElem? taken
  · exact List.mem_reverse.mp (List.mem_of_getElem? taken)

/-- The form in which a text is searched. -/
def searchForm (casesense : Int64) (text : String) : List Char :=
  (if casesense = 1 then text else lower text).toList

/-- The place of an occurrence in the form that is searched, counted from zero. -/
def foundPlace? (text wanted : String) (casesense occurrence : Int64) : Option Nat :=
  if occurrence.toInt = 0 ∨ searchForm casesense wanted = [] then none
  else
    occurrence? (cutAtText (· == ·) (searchForm casesense wanted) (searchForm casesense text)).positions
      occurrence.toInt

/-- The text that is looked for is not empty and stands at the place that is found. -/
theorem stands_of_foundPlace? {text wanted : String} {casesense occurrence : Int64} {place : Nat}
    (found : foundPlace? text wanted casesense occurrence = some place) :
    searchForm casesense wanted ≠ [] ∧
      searchForm casesense wanted <+: (searchForm casesense text).drop place := by
  unfold foundPlace? at found
  split at found
  · cases found
  · rename_i accepted
    obtain ⟨-, some⟩ := not_or.mp accepted
    exact ⟨some, prefix_drop_of_mem_positions some (mem_of_occurrence? found)⟩

/-- The position that a place has for a script, which counts from one and has zero for none. -/
def positionOf (place : Option Nat) : Int64 := Int64.ofNat ((place.map (· + 1)).getD 0)

/-- A search always gives the position of the place found. -/
theorem finding_always (text wanted : String) (casesense occurrence : Int64) (line : Nat) :
    (finding text wanted casesense occurrence line).Always
      (.number (positionOf (foundPlace? text wanted casesense occurrence))) := by
  intro machine
  have called : finding text wanted casesense occurrence line machine =
      (if occurrence.toInt = 0 ∨ searchForm casesense wanted = [] then do
        Machine.setError 1
        return .number 0
      else
        let found := (cutAtText (· == ·) (searchForm casesense wanted) (searchForm casesense text)).positions
        return .number (positionOf (occurrence? found occurrence.toInt)) :
          Exec Value) (machine.readied .stringInStr 4) :=
    @callBuiltin_readied .stringInStr
      [.string text, .string wanted, .number casesense, .number occurrence] _ (Nat.le_refl 4)
      (Nat.le_add_right 2 2) rfl line machine
  unfold foundPlace?
  split
  · rename_i refused
    rw [if_pos refused] at called
    exact ⟨_, called, rfl⟩
  · rename_i accepted
    rw [if_neg accepted] at called
    exact ⟨_, called, rfl⟩

/-- The position of a place leads back to the place. -/
theorem positionOf_back {place : Nat} (placed : place + 1 < 2 ^ 63) :
    (positionOf (some place)).toInt.toNat - 1 = place := by
  have start : (positionOf (some place)).toInt = (place + 1 : Nat) := Int64.toInt_ofNat_of_lt placed
  omega

/-- Taking the middle at a found position always gives the text that stands there. -/
theorem middle_always (text : String) {place size : Nat} (placed : place + 1 < 2 ^ 63) (sized : size < 2 ^ 63)
    (line : Nat) : (middle text (positionOf (some place)) (Int64.ofNat size) line).Always
      (.string (String.ofList ((text.toList.drop place).take size))) := by
  intro machine
  have called : middle text (positionOf (some place)) (Int64.ofNat size) line machine =
      .ok (ofChars (if (Int64.ofNat size).toInt < 0 then
        text.toList.drop ((positionOf (some place)).toInt.toNat - 1) else
        (text.toList.drop ((positionOf (some place)).toInt.toNat - 1)).take (Int64.ofNat size).toInt.toNat))
        (machine.readied .stringMid 3) :=
    @callBuiltin_readied .stringMid
      [.string text, .number (positionOf (some place)), .number (Int64.ofNat size)] _ (Nat.le_refl 3)
      (Nat.le_succ 2) rfl line machine
  have count : (Int64.ofNat size).toInt = size := Int64.toInt_ofNat_of_lt sized
  rw [positionOf_back placed, count, if_neg (by omega), Int.toNat_natCast] at called
  exact ⟨_, called, rfl⟩

/-- The length is always the number of characters. -/
theorem length_always (text : String) (line : Nat) :
    (callBuiltin .stringLen [.string text] line).Always (.number (Int64.ofNat text.toList.length)) :=
  fun machine => ⟨_, @callBuiltin_readied .stringLen [.string text] _ (Nat.le_refl 1) (Nat.le_refl 1) rfl line
    machine, rfl⟩

/-- The searched form of a text that fits memory fits it too. -/
theorem FitsMemory.searchForm {text : String} (fits : FitsMemory text) (casesense : Int64) :
    (searchForm casesense text).length < 2 ^ 63 := by
  unfold LineScript.searchForm
  rw [String.length_toList]
  split
  · exact fits.1
  · exact fits.2

/-- Where the small form of a text stands in the small form of another one, so many characters of that one have
the same small form. -/
theorem lower_middle {text wanted : String} {place : Nat}
    (stands : (lower wanted).toList <+: (lower text).toList.drop place) (undottedWanted : 'İ' ∉ wanted.toList)
    (undotted : 'İ' ∉ text.toList.take (place + wanted.toList.length))
    (noSigma : 'Σ' ∉ (text.toList.drop place).take wanted.toList.length) :
    lower (String.ofList ((text.toList.drop place).take wanted.toList.length)) = lower wanted := by
  unfold lower at stands ⊢
  rw [String.toList_ofList, String.toList_ofList] at stands
  rw [List.take_add, List.mem_append, not_or] at undotted
  have read := List.prefix_iff_eq_take.mp stands
  rw [length_lowerChars undottedWanted, drop_lowerChars undotted.1, take_lowerChars undotted.2 noSigma []] at read
  rw [String.toList_ofList, read]

/-- At a position that the search returns stands the text that was looked for: itself with regard to case, and its
small form in the small form of the text without. Up to there the two forms have the same positions when no
dotted capital I occurs, and the found part is then equal to the text that was looked for, unless it has a capital
sigma, whose small form depends on what stands around it. -/
theorem found_position_stands {text wanted : String} (fits : FitsMemory text)
    (fitsWanted : FitsMemory wanted) (casesense occurrence : Int64) (line : Nat) :
    ∃ position, (finding text wanted casesense occurrence line).Always (.number position) ∧
      (0 < position → ∃ size found,
        (callBuiltin .stringLen [.string wanted] line).Always (.number size) ∧
        (middle text position size line).Always (.string found) ∧
        (casesense = 1 → found = wanted) ∧
        (casesense ≠ 1 →
          (lower wanted).toList <+: (lower text).toList.drop (position.toInt.toNat - 1) ∧
          ('İ' ∉ wanted.toList → 'İ' ∉ text.toList.take (position.toInt.toNat - 1 + wanted.toList.length) →
            'Σ' ∉ found.toList → Value.looseEquals (.string found) (.string wanted) = true))) := by
  refine ⟨_, finding_always text wanted casesense occurrence line, fun positive => ?_⟩
  obtain ⟨place, found⟩ : ∃ place, foundPlace? text wanted casesense occurrence = some place := by
    cases found : foundPlace? text wanted casesense occurrence with
    | none =>
      rw [found] at positive
      exact absurd positive (by decide)
    | some place => exact ⟨place, rfl⟩
  obtain ⟨some, stands⟩ := stands_of_foundPlace? found
  rw [found]
  have placed : place + 1 < 2 ^ 63 := by
    have inside := lt_length_of_prefix_drop stands some
    have fits := fits.searchForm casesense
    omega
  have sized : wanted.toList.length < 2 ^ 63 := String.length_toList ▸ fitsWanted.1
  refine ⟨_, String.ofList ((text.toList.drop place).take wanted.toList.length),
    length_always wanted line, middle_always text placed sized line, fun same => ?_, fun small => ?_⟩
  · rw [searchForm, searchForm, if_pos same, if_pos same] at stands
    rw [← List.prefix_iff_eq_take.mp stands, String.ofList_toList]
  · rw [searchForm, searchForm, if_neg small, if_neg small] at stands
    rw [positionOf_back placed]
    refine ⟨stands, fun undottedWanted undotted noSigma => ?_⟩
    rw [String.toList_ofList] at noSigma
    exact beq_iff_eq.mpr (lower_middle stands undottedWanted undotted noSigma)

/-- The search without regard to case returns a position at which another text stands. -/
def Astray (text wanted : String) : Prop :=
  ∃ position size found, (finding text wanted 0 1 1).Always (.number position) ∧ 0 < position ∧
    (callBuiltin .stringLen [.string wanted] 1).Always (.number size) ∧
    (middle text position size 1).Always (.string found) ∧
    Value.looseEquals (.string found) (.string wanted) = false

/-- A place at which the found text differs from the wanted one is astray. -/
theorem astray_of_foundPlace? {text wanted : String} {place : Nat}
    (found : foundPlace? text wanted 0 1 = some place) (near : place < 5) (short : wanted.toList.length < 5)
    (other : Value.looseEquals (.string (String.ofList ((text.toList.drop place).take wanted.toList.length)))
      (.string wanted) = false) : Astray text wanted := by
  have gives := finding_always text wanted 0 1 1
  rw [found] at gives
  have positive : ∀ place < 5, 0 < positionOf (some place) := by decide
  exact ⟨_, _, _, gives, positive place near, length_always wanted 1,
    middle_always text (by omega) (by omega) 1, other⟩

/-- A dotted capital I stands before the place, one is looked for, and a capital sigma stands at the end of a
word. -/
theorem found_position_passes : Astray "İa" "a" ∧ Astray "i̇" "İ" ∧ Astray "AΣ B" "ς" := by
  have before : foundPlace? "İa" "a" 0 1 = some 2 := by decide +kernel
  have wanted : foundPlace? "i̇" "İ" 0 1 = some 0 := by decide +kernel
  have final : foundPlace? "AΣ B" "ς" 0 1 = some 1 := by decide +kernel
  refine ⟨astray_of_foundPlace? before ?_ ?_ ?_, astray_of_foundPlace? wanted ?_ ?_ ?_,
    astray_of_foundPlace? final ?_ ?_ ?_⟩ <;> decide +kernel

/-- The last occurrence, without regard to case, behind characters of more than one byte and before a dotted
capital I. -/
theorem found_position_stands_last :
    FitsMemory "äb ÄB İ" ∧ FitsMemory "Äb" ∧ 'İ' ∉ "Äb".toList ∧ 'İ' ∉ "äb ÄB İ".toList.take 5 ∧
      'Σ' ∉ "ÄB".toList ∧
      (finding "äb ÄB İ" "Äb" 0 (-1) 1).Always (.number 4) ∧
      (middle "äb ÄB İ" 4 2 1).Always (.string "ÄB") ∧
      Value.looseEquals (.string "ÄB") (.string "Äb") = true := by
  have fits : FitsMemory "äb ÄB İ" := by decide +kernel
  have fitsWanted : FitsMemory "Äb" := by decide +kernel
  have plain : 'İ' ∉ "Äb".toList := by decide +kernel
  have before : 'İ' ∉ "äb ÄB İ".toList.take 5 := by decide +kernel
  have noSigma : 'Σ' ∉ "ÄB".toList := by decide +kernel
  obtain ⟨position, gives, stands⟩ := found_position_stands fits fitsWanted 0 (-1) 1
  have place : foundPlace? "äb ÄB İ" "Äb" 0 (-1) = some 3 := by decide +kernel
  have found := finding_always "äb ÄB İ" "Äb" 0 (-1) 1
  rw [place] at found
  obtain rfl : position = 4 := Value.number.inj (gives.value_eq found)
  obtain ⟨size, part, sized, taken, -, small⟩ := stands (by decide)
  obtain rfl : size = 2 := Value.number.inj (sized.value_eq (length_always "Äb" 1))
  obtain rfl : part = "ÄB" :=
    Value.string.inj (taken.value_eq (@middle_always "äb ÄB İ" 3 2 (by decide) (by decide) 1))
  exact ⟨fits, fitsWanted, plain, before, noSigma, gives, taken,
    (small (by decide)).2 plain before noSigma⟩

end LineScript
