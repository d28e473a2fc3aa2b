import LineScript.Machine.Heap
import LineScript.Text.Utf8

/-!
# The entries of a map

A map is a list of entries in strictly increasing order of their keys (`Entries.Sorted`). Putting a value under a key
and taking a key out keep the order, and change what stands under that key and under no other one. The order of
the keys is that of their characters, which is that of their bytes.
-/

namespace LineScript

namespace Entries

variable {entries : Entries} {key : String}

/-- The keys are in strictly increasing order. -/
def Sorted (entries : Entries) : Prop := entries.Pairwise fun entry later => entry.1 < later.1

/-- No entries are sorted. -/
theorem Sorted.nil : Sorted [] := List.Pairwise.nil

/-- The keys of sorted entries increase. -/
theorem Sorted.keys (sorted : entries.Sorted) : entries.keys.Pairwise (· < ·) :=
  List.pairwise_map.mpr sorted

/-- Of two different keys that are not less, the other one is less. -/
theorem lt_of_not {key other : String} (notLess : ¬ key < other) (apart : key ≠ other) : other < key :=
  Decidable.byContradiction fun notGreater => apart (String.le_antisymm notGreater notLess)

/-! ## What stands under a key -/

/-- After an insertion the key reads as the value, and every other one as before. -/
theorem get?_insert (key : String) (value : Value) (entries : Entries) (other : String) :
    (insert key value entries).get? other = if other = key then some value else entries.get? other := by
  induction entries with
  | nil => exact get?_cons key value [] other
  | cons entry rest ih =>
    obtain ⟨first, held⟩ := entry
    rw [insert]
    split
    · exact get?_cons key value _ other
    · split
      · rename_i _ same
        rw [get?_cons, get?_cons, ← same]
        split <;> rfl
      · rename_i _ apart
        rw [get?_cons, get?_cons, ih]
        by_cases here : other = first
        · rw [if_pos here, if_pos here, if_neg fun same => apart (same.symm.trans here)]
        · rw [if_neg here, if_neg here]

/-- After a removal the key reads as nothing, and every other one as before. -/
theorem get?_erase (key : String) (entries : Entries) (other : String) :
    (entries.erase key).get? other = if other = key then none else entries.get? other := by
  induction entries with
  | nil => exact (ite_self none).symm
  | cons entry rest ih =>
    obtain ⟨first, held⟩ := entry
    unfold erase at ih ⊢
    by_cases here : first = key
    · rw [List.filter_cons_of_neg (by simpa using here), ih, get?_cons]
      split
      · rfl
      · rename_i apart
        rw [if_neg fun same => apart (same.trans here)]
    · rw [List.filter_cons_of_pos (by simpa using here), get?_cons, get?_cons, ih]
      by_cases same : other = first
      · rw [if_pos same, if_pos same, if_neg fun taken => here (same.symm.trans taken)]
      · rw [if_neg same, if_neg same]

/-- The keys are those under which something stands. -/
theorem mem_keys_iff : key ∈ entries.keys ↔ (entries.get? key).isSome := by
  unfold keys get?
  rw [List.lookup_isSome_iff, List.mem_map]
  constructor
  · rintro ⟨entry, member, rfl⟩
    exact ⟨entry, member, beq_self_eq_true _⟩
  · rintro ⟨entry, member, same⟩
    exact ⟨entry, member, (beq_iff_eq.mp same).symm⟩

/-! ## The order -/

/-- A key after an insertion is the new one or an old one. -/
theorem fst_of_mem_insert {value : Value} {entry : String × Value} (member : entry ∈ insert key value entries) :
    entry.1 = key ∨ entry ∈ entries := by
  induction entries with
  | nil => exact .inl (congrArg Prod.fst (List.mem_singleton.mp member))
  | cons first rest ih =>
    rw [insert] at member
    split at member
    · rcases List.mem_cons.mp member with rfl | old
      · exact .inl rfl
      · exact .inr old
    · split at member
      · rcases List.mem_cons.mp member with rfl | old
        · exact .inl rfl
        · exact .inr (List.mem_cons_of_mem _ old)
      · rcases List.mem_cons.mp member with rfl | later
        · exact .inr List.mem_cons_self
        · exact (ih later).imp_right (List.mem_cons_of_mem _)

/-- Insertion keeps the entries sorted. -/
theorem Sorted.insert (sorted : entries.Sorted) (key : String) (value : Value) :
    (Entries.insert key value entries).Sorted := by
  induction entries with
  | nil => exact List.pairwise_singleton _ _
  | cons first rest ih =>
    obtain ⟨least, others⟩ := List.pairwise_cons.mp sorted
    rw [Entries.insert]
    split
    · rename_i less
      refine List.pairwise_cons.mpr ⟨fun entry member => ?_, sorted⟩
      rcases List.mem_cons.mp member with rfl | later
      · exact less
      · exact String.lt_trans less (least entry later)
    · rename_i notLess
      split
      · rename_i same
        exact List.pairwise_cons.mpr ⟨fun entry member => same ▸ least entry member, others⟩
      · rename_i apart
        refine List.pairwise_cons.mpr ⟨fun entry member => ?_, ih others⟩
        rcases fst_of_mem_insert member with same | old
        · rw [same]
          exact lt_of_not notLess apart
        · exact least entry old

/-- Removal keeps the entries sorted. -/
theorem Sorted.erase (sorted : entries.Sorted) (key : String) : (entries.erase key).Sorted :=
  sorted.filter _

end Entries

/-!
## The order of texts

Texts are ordered by their characters, one by one. Their bytes are ordered alike (`encode_lt_encode`): a greater
character has a greater first byte, or the same first byte and a greater one behind it.
-/

namespace Text.Utf8

/-- The loop that lists the bytes puts those from the index on behind what it has read. -/
theorem toList_loop (bytes : ByteArray) (index : Nat) (read : Bytes) :
    ByteArray.toList.loop bytes index read = read.reverse ++ bytes.data.toList.drop index := by
  fun_induction ByteArray.toList.loop bytes index read with
  | case1 index read inside ih =>
    have bound : index < bytes.data.toList.length := inside
    have byte : bytes.get! index = bytes.data.toList[index] :=
      getElem!_pos bytes.data index inside
    rw [ih, List.drop_eq_getElem_cons bound, byte, List.reverse_cons, List.append_assoc, List.singleton_append]
  | case2 index read beyond =>
    rw [List.drop_eq_nil_of_le (Nat.le_of_not_lt beyond), List.append_nil]

/-- The bytes of a text are those of its characters. -/
theorem encode_eq (text : String) : encode text = text.toList.flatMap String.utf8EncodeChar := by
  change ByteArray.toList.loop text.toByteArray 0 [] = _
  rw [toList_loop, ← String.utf8Encode_toList]
  exact List.toList_data_toByteArray

/-- Of two numbers the smaller one has a smaller quotient, or the same quotient and a smaller last digit. -/
theorem digit_lt {v w : Nat} (less : v < w) : v / 64 < w / 64 ∨ v / 64 = w / 64 ∧ v % 64 < w % 64 := by
  omega

/-- A smaller character has smaller bytes, whatever stands behind them. -/
theorem encodeChar_lt {c d : Char} (less : c < d) (rest other : Bytes) :
    String.utf8EncodeChar c ++ rest < String.utf8EncodeChar d ++ other := by
  have below : c.val.toNat < d.val.toNat := less
  have most : d.val.toNat < 0x110000 := by
    rcases d.valid with small | ⟨-, small⟩
    · omega
    · exact small
  unfold String.utf8EncodeChar
  dsimp only
  generalize c.val.toNat = v at below
  generalize d.val.toNat = w at below most
  have last := digit_lt below
  have middle := @digit_lt (v / 64) (w / 64)
  have first := @digit_lt (v / 64 / 64) (w / 64 / 64)
  have second (n : Nat) : n / 4096 = n / 64 / 64 := (Nat.div_div_eq_div_mul n 64 64).symm
  have third (n : Nat) : n / 262144 = n / 64 / 64 / 64 := by
    rw [Nat.div_div_eq_div_mul n 64 64, Nat.div_div_eq_div_mul]
  -- one case for each two numbers of bytes; the digits of a number go from the greatest to the least
  repeat' split
  all_goals
    simp only [List.cons_append, List.nil_append, List.cons_lt_cons_iff, UInt8.lt_iff_toNat_lt,
      ← UInt8.toNat_inj, UInt8.toNat_ofNat', second, third]
    omega

/-- A smaller text has the smaller encoding. -/
theorem flatMap_encodeChar_lt {chars others : List Char} (less : chars < others) :
    chars.flatMap String.utf8EncodeChar < others.flatMap String.utf8EncodeChar := by
  induction less with
  | nil =>
    rename_i c others
    obtain ⟨byte, bytes, encoded⟩ := List.exists_cons_of_ne_nil (@String.utf8EncodeChar_ne_nil c)
    rw [List.flatMap_cons, encoded]
    exact .nil
  | rel less => exact encodeChar_lt less _ _
  | cons _ ih => exact List.append_left_lt ih

/-- A smaller text has smaller bytes. -/
theorem encode_lt_encode {text other : String} (less : text < other) : encode text < encode other := by
  rw [encode_eq, encode_eq]
  exact flatMap_encodeChar_lt (String.lt_iff.mp less)

end Text.Utf8

end LineScript
