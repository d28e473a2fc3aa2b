import Mathlib.Data.List.Basic
import LineScript.Proofs.Custody.Heap
import LineScript.Proofs.Expression.Assignment

/-!
# Arrays of arrays

An array of given sizes is made of objects that share nothing: every row is an array of its own, made before
the array that holds it. So the arrays of one row have numbers that follow each other, the rows of an array
lie side by side, and the array itself comes behind its last row (`Heap.Grid`). A write to a cell changes one
of these arrays, which belongs to one row only, and all other cells keep what they hold
(`Machine.sized_arrays`). Room for the cells of an array is made before its rows, so a size that memory
cannot have crashes the program even where a negative size follows it.
-/

namespace LineScript

open Machine Exec

/-- The index names one of so many elements. -/
def Within (size index : Int64) : Prop := 0 ≤ index ∧ index < size

instance (size index : Int64) : Decidable (Within size index) :=
  inferInstanceAs (Decidable (0 ≤ index ∧ index < size))

/-- An index is within a size exactly when it is from zero to below it. -/
theorem within_iff {size index : Int64} :
    Within size index ↔ 0 ≤ index.toInt ∧ index.toInt < size.toInt := by
  rw [Within, Int64.le_iff_toInt_le, Int64.lt_iff_toInt_lt]
  rfl

/-- The position of an index in an array of a size is the index, when it is within. -/
theorem position?_eq {items : Array Value} {size : Int64} (measured : (items.size : Int) = size.toInt)
    (index : Int64) :
    position? items index = if Within size index then some index.toInt.toNat else none := by
  simp only [position?, within_iff, measured]

namespace Within

variable {size index other : Int64}

/-- An index is determined by the position it names. -/
theorem eq_of_position (within : Within size index) (others : Within size other)
    (same : index.toInt.toNat = other.toInt.toNat) : index = other := by
  rw [within_iff] at within others
  exact Int64.toInt_inj.mp (by omega)

end Within

/-! ## Paths -/

/-- Indices, each within its size, that lead to an array of the sizes that are left, or to a cell if none
are. -/
inductive Inside : List Int64 → List Int64 → List Int64 → Prop
  /-- No index leads to the whole. -/
  | whole (sizes : List Int64) : Inside sizes [] sizes
  /-- An index leads to a row. -/
  | row {size index : Int64} {sizes path left : List Int64} : Within size index → Inside sizes path left →
      Inside (size :: sizes) (index :: path) left

/-- How many arrays make up an array of given sizes. -/
def arrayCount : List Int64 → Nat
  | [] => 0
  | size :: sizes => size.toInt.toNat * arrayCount sizes + 1

/-- Where the row of an index begins, when the whole begins at `low`. -/
def rowStart (sizes : List Int64) (low : Nat) (index : Int64) : Nat :=
  low + index.toInt.toNat * arrayCount sizes

/-- The number of the array that a path leads to, when the first one has the number `low`. -/
def rowNumber : List Int64 → Nat → List Int64 → Nat
  | [], low, _ => low
  | size :: sizes, low, [] => rowStart sizes low size
  | _ :: sizes, low, index :: path => rowNumber sizes (rowStart sizes low index) path

namespace Within

variable {size index other : Int64}

/-- A row ends before all rows end. -/
theorem rowStart_le (within : Within size index) (sizes : List Int64) (low : Nat) :
    rowStart sizes low index + arrayCount sizes ≤ rowStart sizes low size := by
  rw [within_iff] at within
  have rows : (index.toInt.toNat + 1) * arrayCount sizes ≤ size.toInt.toNat * arrayCount sizes :=
    Nat.mul_le_mul_right _ (by omega)
  rw [Nat.succ_mul] at rows
  unfold rowStart
  omega

/-- Of two rows, one ends before the other one begins. -/
theorem rowStart_apart (within : Within size index) (others : Within size other) (different : index ≠ other)
    (sizes : List Int64) (low : Nat) :
    rowStart sizes low index + arrayCount sizes ≤ rowStart sizes low other ∨
      rowStart sizes low other + arrayCount sizes ≤ rowStart sizes low index := by
  have positions : index.toInt.toNat ≠ other.toInt.toNat := fun same =>
    different (within.eq_of_position others same)
  unfold rowStart
  rcases Nat.lt_or_gt_of_ne positions with before | behind
  · have rows := Nat.mul_le_mul_right (arrayCount sizes) (Nat.succ_le_of_lt before)
    rw [Nat.succ_mul] at rows
    exact .inl (by omega)
  · have rows := Nat.mul_le_mul_right (arrayCount sizes) (Nat.succ_le_of_lt behind)
    rw [Nat.succ_mul] at rows
    exact .inr (by omega)

end Within

/-- A row never starts below the first cell. -/
theorem low_le_rowStart (sizes : List Int64) (low : Nat) (index : Int64) : low ≤ rowStart sizes low index :=
  Nat.le_add_right _ _

/-- The cells of all rows end where a further row would start. -/
theorem low_add_arrayCount (size : Int64) (sizes : List Int64) (low : Nat) :
    low + arrayCount (size :: sizes) = rowStart sizes low size + 1 := rfl

namespace Inside

variable {sizes path left : List Int64} {size : Int64}

/-- The number of a cell is never below the first one. -/
theorem low_le_number (inside : Inside sizes path (size :: left)) (low : Nat) :
    low ≤ rowNumber sizes low path := by
  generalize kept : size :: left = rest at inside
  induction inside generalizing low with
  | whole => exact kept ▸ low_le_rowStart _ _ _
  | row _ _ ih => exact Nat.le_trans (low_le_rowStart _ _ _) (ih _ kept)

/-- The number of a cell is below the count of arrays. -/
theorem number_lt (inside : Inside sizes path (size :: left)) (low : Nat) :
    rowNumber sizes low path < low + arrayCount sizes := by
  generalize kept : size :: left = rest at inside
  induction inside generalizing low with
  | whole => exact kept ▸ Nat.lt_succ_self _
  | @row size index sizes path rest within _ ih =>
    have below := ih (rowStart sizes low index) kept
    have fits := within.rowStart_le sizes low
    rw [low_add_arrayCount]
    exact Nat.lt_succ_of_le (Nat.le_trans (Nat.le_of_lt below) fits)

/-- An array within a row comes before the array that holds the row. -/
theorem number_ne {index first : Int64} (inside : Inside sizes path (size :: left))
    (within : Within first index) (low : Nat) :
    rowNumber sizes (rowStart sizes low index) path ≠ rowStart sizes low first :=
  Nat.ne_of_lt (Nat.lt_of_lt_of_le (inside.number_lt _) (within.rowStart_le sizes low))

/-- Different paths lead to arrays with different numbers. -/
theorem number_inj {other rest : List Int64} {last : Int64} (inside : Inside sizes path (size :: left))
    (second : Inside sizes other (last :: rest)) (low : Nat)
    (same : rowNumber sizes low path = rowNumber sizes low other) : path = other := by
  induction path generalizing sizes low other with
  | nil =>
    cases inside
    cases second with
    | whole => rfl
    | row within second => exact absurd same.symm (second.number_ne within low)
  | cons index path ih =>
    cases inside with
    | @row first _ sizes _ _ within inside =>
    cases second with
    | whole => exact absurd same (inside.number_ne within low)
    | @row _ place _ others _ where' second =>
      by_cases here : index = place
      · subst here
        rw [ih inside second _ same]
      · have lower := inside.low_le_number (rowStart sizes low index)
        have lowerEnd := inside.number_lt (rowStart sizes low index)
        have upper := second.low_le_number (rowStart sizes low place)
        have upperEnd := second.number_lt (rowStart sizes low place)
        have apart := within.rowStart_apart where' here sizes low
        simp only [rowNumber] at same
        omega

/-- The path to a cell ends in an index of the array that holds the cell. -/
theorem last {keys : List Value} (inside : Inside sizes (keys.map Value.asInt) []) (some : sizes ≠ []) :
    ∃ path key size, keys = path ++ [key] ∧ Inside sizes (path.map Value.asInt) [size] ∧
      Within size key.asInt := by
  induction keys generalizing sizes with
  | nil =>
    cases inside
    exact absurd rfl some
  | cons key keys ih =>
    rw [List.map_cons] at inside
    cases inside with
    | @row size _ sizes _ _ within inside =>
      by_cases flat : sizes = []
      · subst flat
        cases keys with
        | nil => exact ⟨[], key, size, rfl, .whole _, within⟩
        | cons => cases inside
      · obtain ⟨path, key, last, rfl, leads, bound⟩ := ih inside flat
        exact ⟨_ :: path, key, last, rfl, .row within leads, bound⟩

/-- Indices that do not all lie within their sizes have a first one that does not. -/
theorem first_outside {keys : List Value} (length : keys.length = sizes.length)
    (outside : ¬ Inside sizes (keys.map Value.asInt) []) :
    ∃ path key rest size left, keys = path ++ key :: rest ∧
      Inside sizes (path.map Value.asInt) (size :: left) ∧ ¬ Within size key.asInt := by
  induction keys generalizing sizes with
  | nil =>
    cases List.length_eq_zero_iff.mp length.symm
    exact absurd (.whole []) outside
  | cons key keys ih =>
    cases sizes with
    | nil => cases length
    | cons size sizes =>
      by_cases within : Within size key.asInt
      · obtain ⟨path, other, rest, last, left, rfl, leads, beyond⟩ :=
          ih (Nat.succ.inj length) fun inside => outside (.row within inside)
        exact ⟨key :: path, other, rest, last, left, rfl, .row within leads, beyond⟩
      · exact ⟨[], key, keys, size, sizes, rfl, .whole _, within⟩

end Inside

/-! ## The objects of an array of arrays -/

namespace Heap

/-- An array of given sizes whose arrays have the numbers from `low` on; `cells` says what its cells hold. -/
def Grid (heap : Heap) : List Int64 → Nat → Value → (List Int64 → Value) → Prop
  | [], _, value, cells => value = cells []
  | size :: sizes, low, value, cells =>
    value = .handle (rowStart sizes low size) ∧
      ∃ items, heap.get? (rowStart sizes low size) = some (.array items) ∧
        (items.size : Int) = size.toInt ∧
        ∀ index, Within size index → ∃ item, items[index.toInt.toNat]? = some item ∧
          heap.Grid sizes (rowStart sizes low index) item fun rest => cells (index :: rest)

namespace Grid

variable {heap other : Heap} {sizes left : List Int64} {low : Nat} {base : Value}
  {cells : List Int64 → Value}

/-- Changes elsewhere in the heap leave an array of arrays as it is. -/
theorem frame (grid : heap.Grid sizes low base cells)
    (same : ∀ id : Nat, low ≤ id → id < low + arrayCount sizes → other.get? id = heap.get? id) :
    other.Grid sizes low base cells := by
  induction sizes generalizing low base cells with
  | nil => exact grid
  | cons size sizes ih =>
    obtain ⟨named, items, stored, measured, rows⟩ := grid
    simp only [low_add_arrayCount] at same
    refine ⟨named, items, ?_, measured, fun index within => ?_⟩
    · rw [same _ (low_le_rowStart _ _ _) (Nat.lt_succ_self _), stored]
    · obtain ⟨item, found, row⟩ := rows index within
      have fits := within.rowStart_le sizes low
      have starts := low_le_rowStart sizes low index
      exact ⟨item, found, ih row fun id above below => same id (by omega) (by omega)⟩

/-- An index within the first size selects a row. -/
theorem element {machine : Machine} {size : Int64} {key : Value}
    (grid : machine.heap.Grid (size :: sizes) low base cells) (within : Within size key.asInt) :
    ∃ item, machine.element? base key = some item ∧
      machine.heap.Grid sizes (rowStart sizes low key.asInt) item fun rest => cells (key.asInt :: rest) := by
  obtain ⟨rfl, items, stored, measured, rows⟩ := grid
  obtain ⟨item, found, row⟩ := rows key.asInt within
  refine ⟨item, ?_, row⟩
  simp only [element?, stored, position?_eq measured, if_pos within, Option.bind_some, found]

/-- A path that leads to a cell leads to what it holds. -/
theorem cell {machine : Machine} {path : List Value} (grid : machine.heap.Grid sizes low base cells)
    (inside : Inside sizes (path.map Value.asInt) []) :
    machine.descend? base path = some (cells (path.map Value.asInt)) := by
  induction path generalizing sizes low base cells with
  | nil =>
    cases inside
    exact congrArg some grid
  | cons key path ih =>
    rw [List.map_cons] at inside
    cases inside with
    | row within inside =>
      obtain ⟨item, selected, row⟩ := grid.element within
      rw [descend?, selected, Option.bind_some, ih row inside]
      rfl

/-- A path that leads to an array leads to the one with its number, which has the next size. -/
theorem holder {machine : Machine} {path : List Value} {size : Int64}
    (grid : machine.heap.Grid sizes low base cells)
    (inside : Inside sizes (path.map Value.asInt) (size :: left)) :
    machine.descend? base path = some (.handle (rowNumber sizes low (path.map Value.asInt))) ∧
      ∃ items, machine.heap.get? (rowNumber sizes low (path.map Value.asInt)) = some (.array items) ∧
        (items.size : Int) = size.toInt := by
  induction path generalizing sizes low base cells with
  | nil =>
    cases inside
    obtain ⟨rfl, items, stored, measured, -⟩ := grid
    exact ⟨rfl, items, stored, measured⟩
  | cons key path ih =>
    rw [List.map_cons] at inside
    cases inside with
    | row within inside =>
      obtain ⟨item, selected, row⟩ := grid.element within
      rw [descend?, selected, Option.bind_some]
      exact ih row inside

/-- Writing to an array of cells changes one cell. -/
theorem write_flat {size last : Int64} (grid : heap.Grid [size] low base cells) (within : Within size last)
    (value : Value) :
    (heap.modify (rowStart [] low size) (.setElement last.toInt.toNat value)).Grid
      [size] low base (Function.update cells [last] value) := by
  obtain ⟨named, items, stored, measured, rows⟩ := grid
  refine ⟨named, items.setIfInBounds last.toInt.toNat value, ?_, ?_, fun index others => ?_⟩
  · rw [get?_modify, if_pos rfl, stored]
    rfl
  · rw [Array.size_setIfInBounds, measured]
  · obtain ⟨item, found, holds⟩ := rows index others
    by_cases here : index = last
    · subst here
      have bound := (Array.getElem?_eq_some_iff.mp found).1
      refine ⟨value, Array.getElem?_setIfInBounds_self_of_lt bound, ?_⟩
      exact (Function.update_self [index] value cells).symm
    · have apart : last.toInt.toNat ≠ index.toInt.toNat := fun same =>
        here (others.eq_of_position within same.symm)
      refine ⟨item, ?_, holds.trans (Function.update_of_ne ?_ _ _).symm⟩
      · rw [Array.getElem?_setIfInBounds_ne apart, found]
      · exact fun same => here (List.cons.inj same).1

/-- Writing to a cell changes this cell alone: the array that holds it is one of its own row. -/
theorem write {path : List Int64} {size last : Int64} (grid : heap.Grid sizes low base cells)
    (inside : Inside sizes path [size]) (within : Within size last) (value : Value) :
    (heap.modify (rowNumber sizes low path) (.setElement last.toInt.toNat value)).Grid
      sizes low base (Function.update cells (path ++ [last]) value) := by
  induction path generalizing sizes low base cells with
  | nil =>
    cases inside
    exact grid.write_flat within value
  | cons place path ih =>
    cases inside with
    | @row first _ sizes _ _ here inside =>
    obtain ⟨named, items, stored, measured, rows⟩ := grid
    refine ⟨named, items, ?_, measured, fun index others => ?_⟩
    · rw [rowNumber, get?_modify, if_neg (inside.number_ne here low).symm, stored]
    · obtain ⟨item, found, row⟩ := rows index others
      refine ⟨item, found, ?_⟩
      -- The row that the path leads into is written by the induction; the others lie elsewhere.
      by_cases same : index = place
      · subst same
        have written := ih row inside
        rwa [← Function.update_comp_eq_of_injective' cells List.cons_injective] at written
      · rw [List.cons_append,
          Function.update_comp_eq_of_forall_ne' cells _ fun _ equal => same (List.cons.inj equal).1]
        refine row.frame fun id above below => ?_
        have lower := inside.low_le_number (rowStart sizes low place)
        have upper := inside.number_lt (rowStart sizes low place)
        have apart := here.rowStart_apart others (Ne.symm same) sizes low
        have away : id ≠ rowNumber sizes (rowStart sizes low place) path := by omega
        rw [rowNumber, get?_modify, if_neg away]

end Grid

end Heap

/-! ## Building -/

namespace Machine

/-- So many objects were added to a machine, and nothing else changed but what the host traces. -/
structure Adds (before after : Machine) (count : Nat) : Prop where
  /-- The new objects have the next numbers. -/
  next : after.heap.nextId = before.heap.nextId + count
  /-- The older objects are as they were. -/
  older : ∀ id, id < before.heap.nextId → after.heap.get? id = before.heap.get? id
  /-- The rest is as it was. -/
  rest : after = { before with heap := after.heap, host := after.host }

namespace Adds

variable {first second third : Machine} {count more : Nat}

/-- A machine adds nothing to itself. -/
theorem refl (machine : Machine) : machine.Adds machine 0 := ⟨rfl, fun _ _ => rfl, rfl⟩

/-- What two parts of a run add is added together. -/
theorem trans (earlier : first.Adds second count) (later : second.Adds third more) :
    first.Adds third (count + more) where
  next := by rw [later.next, earlier.next, Nat.add_assoc]
  older id old := by
    have still : id < second.heap.nextId := by
      rw [earlier.next]
      exact Nat.lt_add_right _ old
    rw [later.older id still, earlier.older id old]
  rest := by
    rw [later.rest, earlier.rest]

end Adds

/-- A new array is one more object. -/
theorem newArray_adds (items : Array Value) (machine : Machine) :
    ∃ after, newArray items machine = .ok (.handle machine.heap.nextId) after ∧ machine.Adds after 1 ∧
      after.heap = machine.heap.add (.array items) := by
  refine ⟨_, rfl, ⟨?_, fun id old => ?_, rfl⟩, rfl⟩
  · change (machine.heap.add (.array items)).nextId = _
    simp only [Heap.nextId, Heap.size_add]
  · change (machine.heap.add (.array items)).get? id = _
    rw [Heap.get?_add, if_neg (Nat.ne_of_lt old)]

/-- Memory can have an array of this size. -/
def HasRoom (size : Value) : Prop := size.asInt.toInt ≤ maxCells

instance (size : Value) : Decidable (HasRoom size) :=
  inferInstanceAs (Decidable (size.asInt.toInt ≤ maxCells))

/-- The size belongs to an array that is asked for: all arrays that hold it have elements, and room for
them. -/
def SizeReached (sizes : List Value) (size : Value) : Prop :=
  ∃ outer inner, sizes = outer ++ size :: inner ∧ ∀ other ∈ outer, 0 < other.asInt ∧ HasRoom other

/-- Room for a size that memory can have is made. -/
theorem reserve_eq {size : Value} (room : HasRoom size) (machine : Machine) :
    reserve 0 size.asInt.toInt.toNat machine = .ok () machine := by
  unfold HasRoom at room
  have fits : ¬(0 < size.asInt.toInt.toNat ∧ maxCells < size.asInt.toInt.toNat) := by omega
  rw [reserve, if_neg fits]
  rfl

/-- A size that memory cannot have crashes the program. -/
theorem reserve_crash {size : Value} (excess : ¬HasRoom size) (machine : Machine) :
    reserve 0 size.asInt.toInt.toNat machine =
      .error (.crashed (.capacity size.asInt.toInt.toNat)) machine := by
  unfold HasRoom at excess
  have beyond : 0 < size.asInt.toInt.toNat ∧ maxCells < size.asInt.toInt.toNat := by omega
  rw [reserve, if_pos beyond]
  rfl

/-- An array of given sizes was made, every cell an empty text. -/
structure Makes (sizes : List Value) (before : Machine) (value : Value) (after : Machine) : Prop where
  /-- Its arrays are new. -/
  adds : before.Adds after (arrayCount (sizes.map Value.asInt))
  /-- They lie side by side. -/
  grid : after.heap.Grid (sizes.map Value.asInt) before.heap.nextId value fun _ => .string ""

/-- Rows are made one after the other and side by side. -/
theorem replicate_makes {line : Nat} {sizes : List Value} {count : Nat}
    (row : 0 < count → ∀ machine, ∃ value after, sizedArray line sizes machine = .ok value after ∧
      Makes sizes machine value after)
    (items : Array Value) (machine : Machine) :
    ∃ rows after, Exec.replicate (sizedArray line sizes) count items machine = .ok (items ++ rows) after ∧
      machine.Adds after (count * arrayCount (sizes.map Value.asInt)) ∧ rows.size = count ∧
      ∀ position, position < count → ∃ item, rows[position]? = some item ∧
        after.heap.Grid (sizes.map Value.asInt)
          (machine.heap.nextId + position * arrayCount (sizes.map Value.asInt)) item fun _ => .string "" := by
  induction count generalizing items machine with
  | zero =>
    refine ⟨#[], machine, ?_, ?_, rfl, nofun⟩
    · rw [Array.append_empty]
      rfl
    · rw [Nat.zero_mul]
      exact .refl machine
  | succ count ih =>
    obtain ⟨value, middle, made, makes⟩ := row (Nat.succ_pos count) machine
    obtain ⟨rows, after, ran, adds, size, grids⟩ :=
      ih (fun _ => row (Nat.succ_pos count)) (items.push value) middle
    refine ⟨#[value] ++ rows, after, ?_, ?_, ?_, fun position below => ?_⟩
    · rw [← Array.append_assoc, Array.append_singleton, ← ran]
      simp only [Exec.replicate, Bind.bind, EStateM.bind, made]
    · rw [Nat.succ_mul, Nat.add_comm]
      exact makes.adds.trans adds
    · rw [Array.size_append, size, Nat.add_comm]
      rfl
    · cases position with
      | zero =>
        refine ⟨value, ?_, ?_⟩
        · rw [Array.getElem?_append_left Nat.one_pos]
          rfl
        · rw [Nat.zero_mul, Nat.add_zero]
          refine makes.grid.frame fun id _ old => adds.older id ?_
          rwa [makes.adds.next]
      | succ position =>
        obtain ⟨item, found, grid⟩ := grids position (Nat.lt_of_succ_lt_succ below)
        refine ⟨item, ?_, ?_⟩
        · rw [Array.getElem?_append_right (Nat.succ_pos position)]
          exact found
        · rwa [Nat.succ_mul, Nat.add_comm (position * _), ← Nat.add_assoc, ← makes.adds.next]

/-- An array of given sizes is made unless a size is reached that is negative or for which there is no
room. -/
theorem sizedArray_makes (line : Nat) {sizes : List Value}
    (positive : ∀ size, SizeReached sizes size → 0 ≤ size.asInt ∧ HasRoom size) (machine : Machine) :
    ∃ value after, sizedArray line sizes machine = .ok value after ∧ Makes sizes machine value after := by
  induction sizes generalizing machine with
  | nil => exact ⟨.string "", machine, rfl, .refl machine, rfl⟩
  | cons first sizes ih =>
    obtain ⟨least, room⟩ := positive first ⟨[], sizes, rfl, nofun⟩
    have nonneg : ¬ first.asInt < 0 := Int64.not_lt.mpr least
    have measured : (first.asInt.toInt.toNat : Int) = first.asInt.toInt :=
      Int.toNat_of_nonneg (Int64.le_iff_toInt_le.mp least)
    -- Sizes behind an empty one are not reached, so the rows are only good if there are any.
    have row (some : 0 < first.asInt.toInt.toNat) (machine : Machine) := by
      refine ih (fun size reached => positive size ?_) machine
      obtain ⟨outer, inner, rfl, large⟩ := reached
      refine ⟨first :: outer, inner, rfl, List.forall_mem_cons.mpr ⟨⟨?_, room⟩, large⟩⟩
      exact Int64.lt_iff_toInt_lt.mpr (Int.pos_iff_toNat_pos.mpr some)
    obtain ⟨rows, filled, ran, adds, size, grids⟩ := replicate_makes row #[] machine
    obtain ⟨after, stored, one, heap⟩ := newArray_adds rows filled
    rw [Array.empty_append] at ran
    have last : rowStart (sizes.map Value.asInt) machine.heap.nextId first.asInt = filled.heap.nextId :=
      adds.next.symm
    refine ⟨.handle filled.heap.nextId, after, ?_, adds.trans one, congrArg Value.handle last.symm, rows, ?_,
      ?_, fun index within => ?_⟩
    · simp only [sizedArray, if_neg nonneg, Bind.bind, EStateM.bind, reserve_eq room, ran, stored]
    · rw [heap, Heap.get?_add, if_pos last]
    · rw [size, measured]
    · have fits := within.rowStart_le (sizes.map Value.asInt) machine.heap.nextId
      have bounds := within_iff.mp within
      obtain ⟨item, found, grid⟩ := grids index.toInt.toNat (by omega)
      refine ⟨item, found, grid.frame fun id _ old => one.older id ?_⟩
      rw [← last]
      exact Nat.lt_of_lt_of_le old fits

/-- Where the making of an array that is asked for stops at once, the whole stops there, before anything
is made. -/
theorem sizedArray_stops (line : Nat) {sizes : List Value} {size : Value} (reached : SizeReached sizes size)
    {stop : Stop} {machine : Machine}
    (stops : ∀ inner, sizedArray line (size :: inner) machine = .error stop machine) :
    sizedArray line sizes machine = .error stop machine := by
  obtain ⟨outer, inner, rfl, large⟩ := reached
  induction outer with
  | nil => exact stops inner
  | cons first outer ih =>
    obtain ⟨⟨positive, room⟩, large⟩ := List.forall_mem_cons.mp large
    have nonneg : ¬ first.asInt < 0 := Int64.not_lt.mpr (Int64.le_of_lt positive)
    obtain ⟨count, counted⟩ : ∃ count, first.asInt.toInt.toNat = count + 1 :=
      Nat.exists_eq_succ_of_ne_zero
        (Nat.ne_of_gt (Int.pos_iff_toNat_pos.mp (Int64.lt_iff_toInt_lt.mp positive)))
    have reserved := reserve_eq room machine
    rw [counted] at reserved
    simp only [List.cons_append, sizedArray, if_neg nonneg, counted, Exec.replicate, Bind.bind, EStateM.bind,
      reserved, ih large]

/-- A negative size that is reached stops the script. -/
theorem sizedArray_negative (line : Nat) {sizes : List Value} {size : Value} (reached : SizeReached sizes size)
    (negative : size.asInt < 0) (machine : Machine) :
    sizedArray line sizes machine = .error (.fault (.running (.arraySize size.asInt) line [])) machine :=
  sizedArray_stops line reached fun _ => by
    rw [sizedArray, if_pos negative]
    rfl

/-- A size that is reached crashes the program if there is no room for it. -/
theorem sizedArray_excess (line : Nat) {sizes : List Value} {size : Value} (reached : SizeReached sizes size)
    (excess : ¬HasRoom size) (machine : Machine) :
    sizedArray line sizes machine =
      .error (.crashed (.capacity size.asInt.toInt.toNat)) machine := by
  have nonneg : ¬ size.asInt < 0 := by
    unfold HasRoom at excess
    rw [Int64.lt_iff_toInt_lt]
    have zero : (0 : Int64).toInt = 0 := rfl
    omega
  refine sizedArray_stops line reached fun inner => ?_
  simp only [sizedArray, if_neg nonneg, Bind.bind, EStateM.bind, reserve_crash excess]

end Machine

/-- The action stops with a fault of a class and leaves the machine as it is. -/
def Exec.Faults {α : Type} (action : Exec α) (machine : Machine) (kind : FaultKind) (cause : RunCause)
    (line : Nat) : Prop :=
  action machine = .error (.fault (.running cause line [])) machine ∧ cause.kind = some kind

namespace Machine

/-! ## Reading and assigning -/

/-- Descending along two paths is descending along the first and then along the second. -/
theorem descend_append (window : Window) (pos : Nat) (base : Value) (path keys : List Value) :
    descend window pos base (path ++ keys) =
      descend window pos base path >>= fun value => descend window pos value keys := by
  induction path generalizing base with
  | nil => rfl
  | cons key path ih => simp only [List.cons_append, descend, bind_assoc, ih]

/-- Reading outside of an array is an index error. -/
theorem element_outside {machine : Machine} {id : HandleId} {items : Array Value} {size : Int64}
    {key : Value} (stored : machine.heap.get? id = some (.array items))
    (measured : (items.size : Int) = size.toInt) (outside : ¬ Within size key.asInt)
    (window : Window) (pos : Nat) :
    element window pos (.handle id) key machine =
      .error (.fault (.running (.outOfBounds key.asInt size.toInt.toNat) machine.line [])) machine := by
  have counted : items.size = size.toInt.toNat := by omega
  have nothing : (position? items key.asInt).bind (items[·]?) = none := by
    rw [position?_eq measured, if_neg outside]
    rfl
  simp only [element, arrayGet, Bind.bind, EStateM.bind, run_get, stored, nothing, counted, Exec.fail]
  rfl

/-- Storing within an array replaces the element. -/
theorem storeElement_array {machine : Machine} {id : HandleId} {items : Array Value} {size : Int64}
    {key : Value} (stored : machine.heap.get? id = some (.array items))
    (measured : (items.size : Int) = size.toInt) (within : Within size key.asInt) (value : Value) :
    storeElement id key value machine = .ok ()
      { machine with heap := machine.heap.modify id (.setElement key.asInt.toInt.toNat value) } := by
  have position : position? items key.asInt = some key.asInt.toInt.toNat := by
    rw [position?_eq measured, if_pos within]
  simp only [storeElement, arraySet, Bind.bind, EStateM.bind, run_get, stored, position]
  rfl

/-- The value to store depends on the current value only. -/
theorem storedValue_found {machine : Machine} {current : Exec Value} {held : Value}
    (found : current machine = .ok held machine) (operator : String) (given : Value) (line : Nat) :
    storedValue operator current given line machine = storedValue operator (pure held) given line machine := by
  unfold storedValue
  cases compoundBase? operator with
  | none => rfl
  | some base => simp only [Bind.bind, EStateM.bind, found]; rfl

variable {sizes : List Int64} {low : Nat} {base : Value} {machine : Machine} {cells : List Int64 → Value}

/-- Indices into an array of arrays read what its cells hold. -/
structure ShowsCells (sizes : List Int64) (base : Value) (cells : List Int64 → Value) (machine : Machine) :
    Prop where
  /-- Indices within all sizes read a cell. -/
  inside : ∀ (window : Window) (pos : Nat) (keys : List Value), Inside sizes (keys.map Value.asInt) [] →
    descend window pos base keys machine = .ok (cells (keys.map Value.asInt)) machine
  /-- Of other indices the first one that is not within its size is a fault. -/
  outside : ∀ (window : Window) (pos : Nat) (keys : List Value), keys.length = sizes.length →
    ¬ Inside sizes (keys.map Value.asInt) [] →
    ∃ path key rest size left, keys = path ++ key :: rest ∧
      Inside sizes (path.map Value.asInt) (size :: left) ∧ ¬ Within size key.asInt ∧
      Exec.Faults (descend window pos base keys) machine .indexError
        (.outOfBounds key.asInt size.toInt.toNat) machine.line

/-- A stored grid shows its cells. -/
theorem ShowsCells.of_grid (grid : machine.heap.Grid sizes low base cells) :
    ShowsCells sizes base cells machine where
  inside window pos keys inside := by
    have found := descend_finds machine window pos base keys
    rwa [grid.cell inside] at found
  outside window pos keys length outside := by
    obtain ⟨path, key, rest, size, left, rfl, leads, beyond⟩ := Inside.first_outside length outside
    refine ⟨path, key, rest, size, left, rfl, leads, beyond, ?_, rfl⟩
    obtain ⟨reached, items, stored, measured⟩ := grid.holder leads
    have found := descend_finds machine window pos base path
    rw [reached] at found
    rw [descend_append, found.then_eq]
    simp only [descend, Bind.bind, EStateM.bind, element_outside stored measured beyond]

/-- What an assignment of a value to a cell does: it writes to one array, whose number is from `low` on and
before `high`. -/
def WritesOne (low high : Nat) (value : Value) (before after : Machine) : Prop :=
  ∃ (holder position : Nat), low ≤ holder ∧ holder < high ∧
    after = { before with heap := before.heap.modify holder (.setElement position value) }

/-- Assigning to a cell writes to one of the arrays that it is in, so that it holds what was stored. -/
theorem assignTo_cell (grid : machine.heap.Grid sizes low base cells) (nonempty : sizes ≠ [])
    {variable' : Token} (named : machine.varValue? variable'.lexeme = some base) {keys : List Value}
    (inside : Inside sizes (keys.map Value.asInt) []) {operator : String} {given value : Value}
    (stores : storedValue operator (pure (cells (keys.map Value.asInt))) given variable'.line machine =
      .ok value machine) (window : Window) (pos : Nat) :
    ∃ after, assignTo window pos variable' keys operator given machine = .ok () after ∧
      WritesOne low (low + arrayCount sizes) value machine after ∧
      after.heap.Grid sizes low base (Function.update cells (keys.map Value.asInt) value) := by
  have held := (ShowsCells.of_grid grid).inside window pos keys inside
  obtain ⟨path, key, size, rfl, leads, within⟩ := inside.last nonempty
  obtain ⟨reached, items, stored, measured⟩ := grid.holder leads
  have walk := holder_finds machine window pos variable' path
  rw [target?, named, Option.bind_some, reached] at walk
  have down := descend_finds machine window pos base path
  rw [reached] at down
  have current : element window pos (.handle (rowNumber sizes low (path.map Value.asInt))) key machine =
      .ok (cells ((path ++ [key]).map Value.asInt)) machine := by
    rw [descend_append, down.then_eq] at held
    exact (bind_pure (element window pos _ key)) ▸ held
  have step := storeElement_array stored measured within value
  refine ⟨_, ?_, ⟨_, key.asInt.toInt.toNat, leads.low_le_number low, leads.number_lt low, rfl⟩, ?_⟩
  · rw [assignTo_element, walk.then_eq]
    simp only [Bind.bind, EStateM.bind, storedValue_found current, stores, step]
  · rw [List.map_append]
    exact grid.write leads within value

/-- How the cells of an array of arrays, made between two machines, come to hold what they hold: by assignments
to them, while anything else may happen that leaves alone the arrays that were made. -/
inductive Filled (sizes : List Int64) (start made : Machine) (base : Value) :
    (List Int64 → Value) → Machine → Prop
  /-- At first every cell is an empty text. -/
  | made : Filled sizes start made base (fun _ => .string "") made
  /-- Something else happens. -/
  | elsewhere {cells : List Int64 → Value} {machine after : Machine} :
    Filled sizes start made base cells machine →
    (∀ id : Nat, start.heap.nextId ≤ id → id < made.heap.nextId →
      after.heap.get? id = machine.heap.get? id) →
    Filled sizes start made base cells after
  /-- A cell is assigned to. -/
  | cell {cells : List Int64 → Value} {machine after : Machine} {window : Window} {pos : Nat}
    {variable' : Token} {keys : List Value} {operator : String} {given value : Value} :
    Filled sizes start made base cells machine → machine.varValue? variable'.lexeme = some base →
    Inside sizes (keys.map Value.asInt) [] →
    storedValue operator (pure (cells (keys.map Value.asInt))) given variable'.line machine =
      .ok value machine →
    assignTo window pos variable' keys operator given machine = .ok () after →
    Filled sizes start made base (Function.update cells (keys.map Value.asInt) value) after

/-- Whatever happened, the array of arrays is in the heap with what its cells hold. -/
theorem Filled.grid {start made : Machine} (filled : Filled sizes start made base cells machine)
    (nonempty : sizes ≠ []) (adds : start.Adds made (arrayCount sizes))
    (grid : made.heap.Grid sizes start.heap.nextId base fun _ => .string "") :
    machine.heap.Grid sizes start.heap.nextId base cells := by
  induction filled with
  | made => exact grid
  | elsewhere _ same ih =>
    refine ih.frame fun id above below => same id above ?_
    rwa [adds.next]
  | @cell _ _ _ window pos _ _ _ _ _ _ named inside stores assigned ih =>
    obtain ⟨_, again, _, grid⟩ := assignTo_cell ih nonempty named inside stores window pos
    rw [assigned] at again
    cases again
    exact grid

/-- The arrays that were made between two machines, `row` being the one that a path leads to. -/
structure OwnRows (sizes : List Int64) (start made : Machine) (base : Value) (row : List Int64 → HandleId) :
    Prop where
  /-- Nothing but new arrays was made. -/
  adds : start.Adds made (arrayCount sizes)
  /-- A path that ends before a cell leads to an array. -/
  leads : ∀ (window : Window) (pos : Nat) (path : List Value) (size : Int64) (left : List Int64),
    Inside sizes (path.map Value.asInt) (size :: left) →
    descend window pos base path made = .ok (.handle (row (path.map Value.asInt))) made
  /-- It is a new one. -/
  fresh : ∀ (path : List Int64) (size : Int64) (left : List Int64), Inside sizes path (size :: left) →
    start.heap.nextId ≤ row path ∧ row path < made.heap.nextId
  /-- Different paths lead to different ones. -/
  distinct : ∀ (path other : List Int64) (size last : Int64) (left rest : List Int64),
    Inside sizes path (size :: left) → Inside sizes other (last :: rest) → row path = row other →
    path = other

/-- An assignment to a cell of an array of arrays, with any operator, succeeds if there is a value to store. It
changes what is read at this cell, and writes to one of the arrays that were made. -/
def AssignsCells (sizes : List Int64) (start made : Machine) (base : Value) (cells : List Int64 → Value)
    (machine : Machine) : Prop :=
  ∀ (window : Window) (pos : Nat) (variable' : Token) (keys : List Value) (operator : String)
    (given value : Value), machine.varValue? variable'.lexeme = some base →
    Inside sizes (keys.map Value.asInt) [] →
    storedValue operator (pure (cells (keys.map Value.asInt))) given variable'.line machine =
      .ok value machine →
    ∃ after, assignTo window pos variable' keys operator given machine = .ok () after ∧
      ShowsCells sizes base (Function.update cells (keys.map Value.asInt) value) after ∧
      WritesOne start.heap.nextId made.heap.nextId value machine after

/-- Arrays of given sizes have cells of their own. If every size that is reached is one that an array can
have, one is made of nothing but new arrays, which no two rows share; each of its cells is an empty text
until it is assigned to, and an assignment to it changes no other cell and no older object. A negative size
that is reached stops the script, and one that memory cannot have crashes the program; in both cases nothing
is made. -/
theorem sized_arrays (line : Nat) (first : Value) (others : List Value) (machine : Machine) :
    ((∀ size, SizeReached (first :: others) size → 0 ≤ size.asInt ∧ HasRoom size) →
      ∃ base row made, sizedArray line (first :: others) machine = .ok base made ∧
        OwnRows ((first :: others).map Value.asInt) machine made base row ∧
        ∀ cells later, Filled ((first :: others).map Value.asInt) machine made base cells later →
          ShowsCells ((first :: others).map Value.asInt) base cells later ∧
          AssignsCells ((first :: others).map Value.asInt) machine made base cells later) ∧
    (∀ size, SizeReached (first :: others) size → size.asInt < 0 →
      (sizedArray line (first :: others)).Faults machine .indexError (.arraySize size.asInt) line) ∧
    ∀ size, SizeReached (first :: others) size → ¬HasRoom size →
      sizedArray line (first :: others) machine =
        .error (.crashed (.capacity size.asInt.toInt.toNat)) machine := by
  refine ⟨fun positive => ?_, fun size reached negative =>
    ⟨sizedArray_negative line reached negative machine, rfl⟩,
    fun size reached excess => sizedArray_excess line reached excess machine⟩
  obtain ⟨base, made, ran, adds, grid⟩ := sizedArray_makes line positive machine
  have nonempty : (first :: others).map Value.asInt ≠ [] := nofun
  refine ⟨base, rowNumber ((first :: others).map Value.asInt) machine.heap.nextId, made, ran, ?_,
    fun cells later filled => ⟨.of_grid (filled.grid nonempty adds grid), ?_⟩⟩
  · refine ⟨adds, fun window pos path size left inside => ?_, fun path size left inside => ?_,
      fun path other size last left rest inside second same => inside.number_inj second _ same⟩
    · have found := descend_finds made window pos base path
      rwa [(grid.holder inside).1] at found
    · rw [adds.next]
      exact ⟨inside.low_le_number _, inside.number_lt _⟩
  · intro window pos variable' keys operator given value named inside stores
    obtain ⟨after, assigned, one, grid⟩ :=
      assignTo_cell (filled.grid nonempty adds grid) nonempty named inside stores window pos
    rw [← adds.next] at one
    exact ⟨after, assigned, .of_grid grid, one⟩

/-- A machine on which nothing happened yet. -/
def blank : Machine := ofTokens {} "main" []

/-- The machine with an array of arrays under a name. -/
def named (machine : Machine) (base : Value) : Machine :=
  { machine with stack := { root := { machine.stack.root with vars := [("grid", ⟨base, false⟩)] } } }

/-- A sized matrix can be written and read at a cell, and holds an empty text everywhere else. -/
theorem sized_arrays_matrix :
    (∃ base made after, sizedArray 1 [.number 2, .number 3] blank = .ok base made ∧
      assignTo (.whole #[]) 0 ⟨.variableName, "grid", 1, 1⟩ [.number 1, .number 2] "=" (.string "z")
        (made.named base) = .ok () after ∧
      descend (.whole #[]) 0 base [.number 1, .number 2] after = .ok (.string "z") after ∧
      descend (.whole #[]) 0 base [.number 0, .number 2] after = .ok (.string "") after) ∧
    (sizedArray 1 [.number 2, .number (-1), .number 3]).Faults blank .indexError (.arraySize (-1)) 1 := by
  constructor
  · obtain ⟨base, row, made, ran, -, after⟩ := (sized_arrays 1 (.number 2) [.number 3] blank).1 (by
      rintro size ⟨outer, inner, same, -⟩
      have member : size ∈ [Value.number 2, .number 3] := same ▸ List.mem_append_right _ List.mem_cons_self
      rcases List.mem_pair.mp member with rfl | rfl <;> decide +kernel)
    obtain ⟨-, assigns⟩ := after _ (made.named base) (.elsewhere .made fun _ _ _ => rfl)
    have inside (index : Int64) (within : Within 2 index) : Inside [2, 3] [index, 2] [] :=
      .row within (.row (by decide) (.whole []))
    obtain ⟨last, assigned, shows, -⟩ := assigns (.whole #[]) 0 ⟨.variableName, "grid", 1, 1⟩
      [.number 1, .number 2] "=" (.string "z") (.string "z") rfl (inside 1 (by decide)) rfl
    refine ⟨base, made, last, ran, assigned, ?_, ?_⟩
    · exact shows.inside (.whole #[]) 0 [.number 1, .number 2] (inside 1 (by decide))
    · exact shows.inside (.whole #[]) 0 [.number 0, .number 2] (inside 0 (by decide))
  · exact (sized_arrays 1 (.number 2) [.number (-1), .number 3] blank).2.1 (.number (-1))
      ⟨[.number 2], [.number 3], rfl, by decide +kernel⟩ (by decide)

/-- The greatest size crashes the program, also where the size behind it is negative. -/
theorem sized_arrays_crash :
    sizedArray 1 [.number 9223372036854775807] blank =
      .error (.crashed (.capacity 9223372036854775807)) blank ∧
    (0 < (Value.number 9223372036854775807).asInt ∧ (Value.number (-1)).asInt < 0) ∧
    sizedArray 1 [.number 9223372036854775807, .number (-1)] blank =
      .error (.crashed (.capacity 9223372036854775807)) blank ∧
    ¬(sizedArray 1 [.number 9223372036854775807, .number (-1)]).Faults blank .indexError
      (.arraySize (-1)) 1 := by
  have excess : ¬HasRoom (.number 9223372036854775807) := by decide +kernel
  have crash (inner : List Value) : sizedArray 1 (.number 9223372036854775807 :: inner) blank =
      .error (.crashed (.capacity 9223372036854775807)) blank :=
    sizedArray_excess 1 ⟨[], inner, rfl, nofun⟩ excess blank
  refine ⟨crash [], by decide, crash _, fun faults => ?_⟩
  cases (crash _).symm.trans faults.1

end Machine

end LineScript
