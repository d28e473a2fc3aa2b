import LineScript.Proofs.Expression.Refinement
import LineScript.Proofs.Reading.Tiles

/-!
# Bytes and their digits

Every byte has two digits, and a text of digits stands for bytes. The two ways are inverse but for the case of
letters and for the zero that an odd number of digits lacks. A binary literal is the mark of such digits before
them: it ends where no digit follows, and its value is the bytes whose digits it has
(`binary_read_back`).
-/

namespace LineScript

namespace Text.Hex

/-- The digits of both cases. -/
def alphabet : List Char := "0123456789abcdefABCDEF".toList

/-- A character between two others is a digit if all those from the first to the second are. -/
theorem mem_alphabet_of_between {c first last : Char} (least : first ≤ c) (greatest : c ≤ last)
    (listed : ∀ offset < last.toNat - first.toNat + 1, Char.ofNat (first.toNat + offset) ∈ alphabet) :
    c ∈ alphabet := by
  have lower : first.toNat ≤ c.toNat := UInt32.le_iff_toNat_le.mp least
  have upper : c.toNat ≤ last.toNat := UInt32.le_iff_toNat_le.mp greatest
  have among := listed (c.toNat - first.toNat) (by omega)
  rwa [Nat.add_sub_cancel' lower, Char.ofNat_toNat] at among

/-- What a digit stands for: its value is written as its capital form. -/
theorem digit?_of_mem {c : Char} (listed : c ∈ alphabet) : ∃ value < 16,
    digit? c = some value ∧ upperChar c = [digitChar value] := by
  have all : alphabet.all fun c =>
      (digit? c).any fun value => value < 16 && upperChar c == [digitChar value] := by
    decide +kernel
  obtain ⟨value, read, both⟩ := (Option.any_eq_true _ _).mp (List.all_eq_true.mp all c listed)
  rw [Bool.and_eq_true, decide_eq_true_eq, beq_iff_eq] at both
  exact ⟨value, both.1, read, both.2⟩

/-- A character that reads as a digit is in the alphabet. -/
theorem mem_of_digit? {c : Char} {value : Nat} (read : digit? c = some value) : c ∈ alphabet := by
  unfold digit? at read
  split at read
  · rename_i between
    exact mem_alphabet_of_between between.1 between.2 (by decide +kernel)
  · split at read
    · rename_i between
      exact mem_alphabet_of_between between.1 between.2 (by decide +kernel)
    · split at read
      · rename_i between
        exact mem_alphabet_of_between between.1 between.2 (by decide +kernel)
      · cases read

/-- The characters read as digits are the listed ones. -/
theorem isDigit_iff (c : Char) : isDigit c = true ↔ c ∈ alphabet := by
  unfold isDigit
  rw [Option.isSome_iff_exists]
  constructor
  · rintro ⟨value, read⟩
    exact mem_of_digit? read
  · intro listed
    obtain ⟨value, -, read, -⟩ := digit?_of_mem listed
    exact ⟨value, read⟩

/-- The digit of a value is read as that value. -/
theorem digit?_digitChar : ∀ value < 16, digit? (digitChar value) = some value := by
  decide +kernel

/-- The two digits of a byte. -/
def pair (byte : UInt8) : List Char := [digitChar (byte.toNat / 16), digitChar (byte.toNat % 16)]

/-- The encoded text is the pairs of the bytes joined. -/
theorem toList_encode (bytes : Bytes) : (encode bytes).toList = bytes.flatMap pair :=
  String.toList_ofList

/-- The high half of a byte is below sixteen. -/
theorem high_lt (byte : UInt8) : byte.toNat / 16 < 16 := by
  have bound := byte.toNat_lt
  omega

/-- The low half of a byte is below sixteen. -/
theorem low_lt (byte : UInt8) : byte.toNat % 16 < 16 := Nat.mod_lt _ (by decide)

/-- Bytes are written in digits. -/
theorem mem_alphabet_of_mem_encode {bytes : Bytes} {c : Char} (member : c ∈ (encode bytes).toList) :
    c ∈ alphabet := by
  rw [toList_encode, List.mem_flatMap] at member
  obtain ⟨byte, -, isOne⟩ := member
  obtain rfl | rfl : c = digitChar (byte.toNat / 16) ∨ c = digitChar (byte.toNat % 16) := by
    simpa [pair] using isOne
  · exact mem_of_digit? (digit?_digitChar _ (high_lt byte))
  · exact mem_of_digit? (digit?_digitChar _ (low_lt byte))

/-- Pairs of digits are read as the bytes they were written for. -/
theorem decodePairs_pairs (bytes : Bytes) : decodePairs (bytes.flatMap pair) = some bytes := by
  induction bytes with
  | nil => rfl
  | cons byte bytes ih =>
    have high := digit?_digitChar _ (high_lt byte)
    have low := digit?_digitChar _ (low_lt byte)
    have whole : byte.toNat / 16 * 16 + byte.toNat % 16 = byte.toNat := Nat.div_add_mod' _ _
    change decodePairs (digitChar _ :: digitChar _ :: bytes.flatMap pair) = _
    simp only [decodePairs, high, low, ih, whole, UInt8.ofNat_toNat, Option.bind_eq_bind,
      Option.bind_some, Option.pure_def]

/-- A text with a zero in front if its length is odd. -/
def padded (text : String) : String := if text.toList.length % 2 = 1 then "0" ++ text else text

/-- Decoding a text is decoding the pairs of its padded characters. -/
theorem decode?_eq (text : String) : decode? text = decodePairs (padded text).toList := by
  unfold decode? padded
  dsimp only
  by_cases odd : text.toList.length % 2 = 1
  · rw [if_pos odd, if_pos odd, String.toList_append]
    rfl
  · rw [if_neg odd, if_neg odd]

/-- The padded text has an even number of characters. -/
theorem even_padded (text : String) : (padded text).toList.length % 2 = 0 := by
  unfold padded
  split
  · rw [String.toList_append, List.length_append]
    change (1 + text.toList.length) % 2 = 0
    omega
  · omega

/-- Padding keeps a text within the alphabet. -/
theorem mem_padded {text : String} : (∀ c ∈ (padded text).toList, c ∈ alphabet) ↔
    ∀ c ∈ text.toList, c ∈ alphabet := by
  unfold padded
  split
  · rw [String.toList_append, List.forall_mem_append]
    have zero : '0' ∈ alphabet := by decide +kernel
    exact and_iff_right (List.forall_mem_singleton.mpr zero)
  · exact Iff.rfl

/-- A byte made of two halves is written as their two digits. -/
theorem pair_ofNat {high low : Nat} (highBound : high < 16) (lowBound : low < 16) :
    pair (UInt8.ofNat (high * 16 + low)) = [digitChar high, digitChar low] := by
  have small : (UInt8.ofNat (high * 16 + low)).toNat = high * 16 + low := by
    rw [UInt8.toNat_ofNat']
    exact Nat.mod_eq_of_lt (by omega)
  have first : (high * 16 + low) / 16 = high := by omega
  have second : (high * 16 + low) % 16 = low := by omega
  unfold pair
  rw [small, first, second]

/-- An even number of characters is read exactly if all of them are digits, and what is read is written as their
capital forms. -/
theorem decodePairs_iff (chars : List Char) (even : chars.length % 2 = 0) :
    ((decodePairs chars).isSome ↔ ∀ c ∈ chars, c ∈ alphabet) ∧
      ∀ bytes, decodePairs chars = some bytes → bytes.flatMap pair = chars.flatMap upperChar := by
  fun_induction decodePairs chars with
  | case1 =>
    refine ⟨by simp, ?_⟩
    rintro _ ⟨⟩
    rfl
  | case2 high low rest ih =>
    simp only [List.length_cons] at even
    obtain ⟨isSome, written⟩ := ih (by omega)
    rw [List.forall_mem_cons, List.forall_mem_cons, ← isSome, ← isDigit_iff, ← isDigit_iff]
    cases readHigh : digit? high with
    | none => simp [isDigit, readHigh]
    | some first =>
      cases readLow : digit? low with
      | none => simp [isDigit, readLow]
      | some second =>
        cases readRest : decodePairs rest with
        | none => simp
        | some bytes =>
          refine ⟨by simp [isDigit, readHigh, readLow], ?_⟩
          rintro _ ⟨⟩
          obtain ⟨_, firstBound, sameFirst, upperHigh⟩ := digit?_of_mem (mem_of_digit? readHigh)
          obtain ⟨_, secondBound, sameSecond, upperLow⟩ := digit?_of_mem (mem_of_digit? readLow)
          cases readHigh.symm.trans sameFirst
          cases readLow.symm.trans sameSecond
          rw [List.flatMap_cons, pair_ofNat firstBound secondBound, written bytes readRest,
            List.flatMap_cons, List.flatMap_cons, upperHigh, upperLow]
          rfl
  | case3 => simp at even

/-- Bytes as a text: the mark of binary literals and their digits. -/
def written (bytes : Bytes) : String := "0x" ++ encode bytes

/-- The written form is the prefix and then the digits. -/
theorem toList_written (bytes : Bytes) :
    (written bytes).toList = '0' :: 'x' :: (encode bytes).toList := String.toList_append

/-- No digit stands at the beginning. -/
def NoDigit (chars : List Char) : Prop := ∀ c ∈ chars.head?, c ∉ alphabet

end Text.Hex

open Text Hex Lexer Expression

/-- What line ends and tabs become is no digit. -/
theorem noDigit_normalize {chars : List Char} (free : NoDigit chars) : NoDigit (normalize chars) := by
  have blanks : '\n' ∉ alphabet ∧ ' ' ∉ alphabet := by decide +kernel
  unfold NoDigit at free ⊢
  obtain same | lineEnd | blank := head?_normalize chars
  · rwa [same]
  · rw [lineEnd]
    rintro _ ⟨⟩
    exact blanks.1
  · rw [blank]
    rintro _ ⟨⟩
    exact blanks.2

/-- The lexer reads the written form as one binary token. -/
theorem scanDigits_written (bytes : Bytes) {rest : List Char} (free : NoDigit rest) :
    scanDigits '0' ('x' :: (encode bytes).toList ++ rest) =
      ⟨.binary, encode bytes, 'x' :: (encode bytes).toList, rest⟩ := by
  have all : ∀ c ∈ (encode bytes).toList, isDigit c = true := fun c member =>
    (isDigit_iff c).mpr (mem_alphabet_of_mem_encode member)
  have none : rest.takeWhile isDigit = [] ∧ rest.dropWhile isDigit = rest := by
    cases rest with
    | nil => exact ⟨rfl, rfl⟩
    | cons c rest =>
      have notDigit : ¬ isDigit c = true := fun isOne => free c rfl ((isDigit_iff c).mp isOne)
      exact ⟨List.takeWhile_cons_of_neg notDigit, List.dropWhile_cons_of_neg notDigit⟩
  have taken : ((encode bytes).toList ++ rest).takeWhile isDigit = (encode bytes).toList := by
    rw [List.takeWhile_append_of_pos all, none.1, List.append_nil]
  have left : ((encode bytes).toList ++ rest).dropWhile isDigit = rest := by
    rw [List.dropWhile_append_of_pos all, none.2]
  simp only [scanDigits, List.cons_append, taken, left, String.ofList_toList]
  rfl

/-- A binary literal is one token, and the reading goes on where no digit follows. -/
theorem takes_written (bytes : Bytes) {rest : List Char} (free : NoDigit rest) (place : Place) :
    Takes place ((written bytes).toList ++ rest)
      [.token (written bytes).toList ⟨.binary, encode bytes, place.line, place.col⟩] rest := by
  have read : scan place.line '0' ('x' :: (encode bytes).toList ++ rest) =
      .ok ⟨.binary, encode bytes, 'x' :: (encode bytes).toList, rest⟩ :=
    congrArg Except.ok (scanDigits_written bytes free)
  rw [toList_written]
  exact .token (by decide) read (.stop _ rest)

/-- Evaluating a token gives these bytes wherever it stands, and nothing but the token is read where an
expression ends behind it. -/
structure Evaluates (token : Token) (bytes : Bytes) : Prop where
  /-- As a part of an expression. -/
  part : ∀ (low : Engine) (window : Window) (pos : Nat),
    low.atom window token pos = pure (.binary bytes, pos)
  /-- As an expression. -/
  whole : ∀ (window : Window) (pos : Nat), window.token? pos = some token →
    Ends (window.token? (pos + 1)) → ∀ (fuel : Nat) (machine : Machine), 6 ≤ fuel →
      Machine.evalExpression fuel window pos machine =
        .ok { value := some (.binary bytes), flow := .normal, consumed := 1 } machine

/-- A binary literal has the bytes that its digits stand for. -/
theorem evaluates_of_decode? {token : Token} {bytes : Bytes} (kind : token.kind = .binary)
    (read : decode? token.lexeme = some bytes) : Evaluates token bytes where
  part low window pos := by
    unfold Engine.atom
    simp only [kind, read]
  whole window pos found ends fuel machine enough := by
    let tree : Expr := .mk (.selected (.leaf (.bytes ⟨token, kind⟩)) .done) .done
    have shown : window.Shows pos tree.render := ⟨found, trivial⟩
    have meant : tree.read (engine 0) (window.token? (pos + tree.size)) machine =
        .ok { value := some (.binary bytes), flow := .normal, consumed := 1 } machine := by
      simp only [tree, Expr.read, Expr.value, Term.value, Atom.value, Leaf.value, read, Chain.select,
        Tail.fold, pure_bind]
      rfl
    have finished : ∀ last, EStateM.Result.ok
        ({ value := some (.binary bytes), flow := .normal, consumed := 1 } : Machine.Evaluated) machine ≠
          .error Stop.starved last := by
      intro last other
      cases other
    exact (Machine.evalExpression_means tree window pos shown ends machine 0 _ finished).2 meant fuel enough

/-- Bytes are read back from their digits. A text is read as bytes exactly if all of its characters are digits,
and these bytes are written as the text in capitals, with a zero in front if its length is odd. The text that a
script gets for bytes is a binary literal whose value is these bytes, whatever follows it but another digit. -/
theorem binary_read_back :
    (∀ bytes, decode? (encode bytes) = some bytes) ∧
    (∀ text, ((decode? text).isSome ↔ ∀ c ∈ text.toList, c ∈ alphabet) ∧
      ∀ bytes, decode? text = some bytes → encode bytes = upper (padded text)) ∧
    ∀ (bytes : Bytes) (rest : String), NoDigit rest.toList →
      Builtin.toText.run ⟨[.binary bytes], 1⟩ = pure (.string (written bytes)) ∧
      ∃ token, token.kind = .binary ∧ Evaluates token bytes ∧
        let later := lexChars (Place.start.after (written bytes).toList) (normalize rest.toList)
        lex (written bytes ++ rest) = ⟨token :: later.tokens, later.fault⟩ := by
  have again (bytes : Bytes) : decode? (encode bytes) = some bytes := by
    have even : (bytes.flatMap pair).length % 2 = 0 := by
      rw [List.length_flatMap]
      simp [pair]
    unfold decode?
    rw [toList_encode]
    dsimp only
    rw [even, if_neg (by decide), decodePairs_pairs]
  refine ⟨again, fun text => ?_, fun bytes rest free => ⟨rfl, ?_⟩⟩
  · obtain ⟨isSome, read⟩ := decodePairs_iff _ (even_padded text)
    rw [decode?_eq]
    refine ⟨isSome.trans mem_padded, fun bytes found => ?_⟩
    rw [← String.toList_inj, toList_encode, read bytes found, upper, String.toList_ofList]
  · have plain : normalize ((written bytes).toList ++ rest.toList) =
        (written bytes).toList ++ normalize rest.toList := by
      have marked (c : Char) (other : c ≠ '0' ∧ c ≠ 'x' ∧ c ∉ alphabet) : c ∉ (written bytes).toList := by
        rw [toList_written, List.mem_cons, List.mem_cons]
        rintro (same | same | member)
        · exact other.1 same
        · exact other.2.1 same
        · exact other.2.2 (mem_alphabet_of_mem_encode member)
      exact normalize_append (marked '\r' (by decide +kernel)) (marked '\t' (by decide +kernel)) _
    refine ⟨⟨.binary, encode bytes, 1, 1⟩, rfl, evaluates_of_decode? rfl (again bytes), ?_⟩
    have takes := (takes_written bytes (noDigit_normalize free) .start).lexChars_eq
    rw [← plain, ← String.toList_append] at takes
    have span : charsOf [.token (written bytes).toList
        ⟨.binary, encode bytes, Place.start.line, Place.start.col⟩] = (written bytes).toList :=
      List.append_nil _
    rwa [span] at takes

/-- Three digits are read as two bytes; behind their text a letter that is no digit begins a name. -/
theorem binary_read_back_odd :
    decode? "aF5" = some [0x0A, 0xF5] ∧ encode [0x0A, 0xF5] = upper (padded "aF5") ∧
      decode? "aG" = none ∧ NoDigit "g1".toList ∧
      ∃ token, Evaluates token [0x0A, 0xF5] ∧
        lex ("0x0AF5" ++ "g1") = ⟨[token, ⟨.identifier, "g1", 1, 7⟩], none⟩ := by
  obtain ⟨-, reads, literal⟩ := binary_read_back
  have found : decode? "aF5" = some [0x0A, 0xF5] := by decide +kernel
  have free : NoDigit "g1".toList := by
    rintro _ ⟨⟩
    decide +kernel
  refine ⟨found, (reads "aF5").2 _ found, ?_, free, ?_⟩
  · have noDigit : 'G' ∉ alphabet := by decide +kernel
    have inside : 'G' ∈ "aG".toList := by decide +kernel
    exact Option.not_isSome_iff_eq_none.mp fun isSome => noDigit ((reads "aG").1.mp isSome _ inside)
  · obtain ⟨-, token, -, evaluates, lexed⟩ := literal [0x0A, 0xF5] "g1" free
    refine ⟨token, evaluates, ?_⟩
    have shown : written [0x0A, 0xF5] = "0x0AF5" := by decide +kernel
    have later : lexChars (Place.start.after (written [0x0A, 0xF5]).toList) (normalize "g1".toList) =
        ⟨[⟨.identifier, "g1", 1, 7⟩], none⟩ := by decide +kernel
    dsimp only at lexed
    rwa [later, shown] at lexed

end LineScript
