/-!
# Lists

What is used of lists in more than one place, or is about nothing but lists: joining them with a separator,
places in them, and which of their members pass a test.
-/

namespace LineScript

open List

variable {α : Type}

/-! ## Joined lists -/

/-- Joined behind others, each of which has the separator behind it. -/
theorem intercalate_append (separator : List α) (parts : List (List α)) {others : List (List α)}
    (some : others ≠ []) : separator.intercalate (parts ++ others) =
      parts.flatMap (· ++ separator) ++ separator.intercalate others := by
  induction parts with
  | nil => rfl
  | cons part parts ih =>
    have more : parts ++ others ≠ [] := append_ne_nil_of_right_ne_nil _ some
    rw [cons_append, intercalate_cons_of_ne_nil more, ih, flatMap_cons, append_assoc, append_assoc,
      append_assoc]

/-- What is put before the first part of a joined list stands before the whole. -/
theorem intercalate_append_cons (separator before part : List α) (parts : List (List α)) :
    separator.intercalate ((before ++ part) :: parts) = before ++ separator.intercalate (part :: parts) := by
  cases parts with
  | nil => simp only [intercalate_singleton]
  | cons next parts => simp only [intercalate_cons_cons, append_assoc]

/-! ## Places -/

/-- A list falls into what stands before two places, between them and behind them. -/
theorem exists_middle {items : List α} {first last : Nat} (ordered : first ≤ last)
    (bound : last ≤ items.length) : ∃ front middle back, items = front ++ (middle ++ back) ∧
      first = front.length ∧ last = front.length + middle.length := by
  refine ⟨items.take first, (items.drop first).take (last - first), items.drop last, ?_, ?_, ?_⟩
  · have joined : items.drop last = (items.drop first).drop (last - first) := by
      rw [drop_drop, Nat.add_sub_cancel' ordered]
    rw [joined, take_append_drop, take_append_drop]
  · rw [length_take]
    omega
  · simp only [length_take, length_drop]
    omega

/-- Dropping as many elements as were taken drops as many as were to be taken, or all. -/
theorem drop_length_take (count : Nat) (items : List α) :
    items.drop (items.take count).length = items.drop count := by
  rw [length_take]
  by_cases short : count ≤ items.length
  · rw [Nat.min_eq_left short]
  · have long : items.length ≤ count := by omega
    rw [Nat.min_eq_right long, drop_length, drop_eq_nil_of_le long]

/-- A list that is within another one begins at a place of it. -/
theorem exists_place_of_infix {wanted items : List α} (within : wanted <:+: items) (nonempty : wanted ≠ []) :
    ∃ place < items.length, ∀ rest, wanted <+: (items ++ rest).drop place := by
  obtain ⟨front, back, rfl⟩ := within
  have some := length_pos_iff.mpr nonempty
  refine ⟨front.length, by simp only [length_append]; omega, fun rest => ?_⟩
  rw [append_assoc, append_assoc, drop_left]
  exact prefix_append _ _

/-- What stands behind some elements begins before the end. -/
theorem lt_length_of_prefix_drop {place : Nat} {wanted items : List α} (stands : wanted <+: items.drop place)
    (some : wanted ≠ []) : place < items.length := by
  have short := stands.length_le
  have positive := length_pos_iff.mpr some
  rw [length_drop] at short
  omega

/-- An element that does not end a list does not end what follows its first one. -/
theorem getLast?_tail_ne {first last : α} {items : List α} (differs : (first :: items).getLast? ≠ some last) :
    items.getLast? ≠ some last := by
  cases items with
  | nil => nofun
  | cons next items => rwa [getLast?_cons_cons] at differs

/-! ## Members that pass a test -/

/-- Elements in front that no test at their place accepts are not accepted. -/
theorem not_accept_of_mem {accept : α → Bool} {part rest : List α}
    (passed : ∀ place < part.length, ((part ++ rest).drop place).head?.any accept = false) :
    ∀ item ∈ part, accept item = false := by
  intro item member
  obtain ⟨place, inside, rfl⟩ := mem_iff_getElem.mp member
  have here := passed place inside
  rwa [head?_drop, getElem?_append_left inside, getElem?_eq_getElem inside, Option.any_some] at here

/-- Tests that agree on the members find the same first one. -/
theorem findIdx_congr {p q : α → Bool} {members : List α}
    (same : ∀ member ∈ members, p member = q member) : members.findIdx p = members.findIdx q := by
  induction members with
  | nil => rfl
  | cons member members ih =>
    rw [findIdx_cons, findIdx_cons, same member (.head _),
      ih fun other inside => same other (.tail _ inside)]

/-- Where no member that passes a test stands behind one that fails it, those that pass are the first of
their number. -/
theorem first_of_pairwise {passes : α → Bool} {members : List α}
    (first : members.Pairwise fun earlier later => passes later → passes earlier) {position : Nat}
    {member : α} (at' : members[position]? = some member) :
    passes member = true ↔ position < (members.filter passes).length := by
  induction members generalizing position with
  | nil => cases at'
  | cons head rest ih =>
    obtain ⟨later, inner⟩ := pairwise_cons.mp first
    cases pass : passes head with
    | true =>
      rw [filter_cons_of_pos pass, length_cons]
      cases position with
      | zero =>
        cases at'
        simp [pass]
      | succ position => simpa using ih inner at'
    | false =>
      -- Behind one that fails all fail.
      have all : ∀ other ∈ head :: rest, ¬passes other = true :=
        forall_mem_cons.mpr ⟨by simp [pass], fun other inside passed => by
          simpa [pass] using later other inside passed⟩
      rw [filter_eq_nil_iff.mpr all]
      simpa using all member (mem_of_getElem? at')

/-- Of entries that exclude each other at most one counts. -/
theorem countP_le_one {counts : α → Bool} {entries : List α}
    (exclude : entries.Pairwise fun earlier later =>
      counts earlier = true → counts later = false) : entries.countP counts ≤ 1 := by
  induction exclude with
  | nil => exact Nat.zero_le _
  | @cons entry rest here _ ih =>
    cases first : counts entry with
    | false => rwa [countP_cons_of_neg (by simp [first])]
    | true =>
      have none : rest.countP counts = 0 :=
        countP_eq_zero.mpr fun later member => by simp [here later member first]
      have once : (entry :: rest).countP counts = 1 := by
        rw [countP_cons_of_pos first, none]
      exact Nat.le_of_eq once

/-- Counting in a range that is one number longer also looks at that number. -/
theorem countP_range'_succ {first pos : Nat} {accept : Nat → Bool} (le : first ≤ pos) :
    (range' first (pos + 1 - first)).countP accept =
      (range' first (pos - first)).countP accept + if accept pos then 1 else 0 := by
  rw [show pos + 1 - first = pos - first + 1 by omega, range'_1_concat, countP_append,
    countP_singleton, show first + (pos - first) = pos by omega]

end LineScript
