import LineScript.Machine.Objects

/-!
# How a heap grows

Numbers of objects are given out in order and stay given out. A live object may change, but not its
kind, and only an open file may be removed; a removed object does not come back. `Heap.Leads` holds
between two heaps when such changes lead from one to the other, with a say in which objects may be
removed at all.
-/

namespace LineScript

namespace Heap

/-- The number was given out. -/
def Issued (heap : Heap) (id : HandleId) : Prop := 1 ≤ id ∧ id < heap.nextId

/-- An object has the number. -/
def Live (heap : Heap) (id : HandleId) : Prop := ∃ object, heap.get? id = some object

/-- A handle has been issued exactly when it is a positive number up to the size of the heap. -/
theorem issued_iff {heap : Heap} {id : HandleId} :
    heap.Issued id ↔ 1 ≤ id ∧ id ≤ heap.slots.size :=
  and_congr_right fun _ => Nat.lt_succ_iff

/-- A live handle has been issued. -/
theorem Live.issued {heap : Heap} {id : HandleId} (live : heap.Live id) : heap.Issued id := by
  obtain ⟨object, found⟩ := live
  cases id with
  | zero => cases found
  | succ slot =>
    have inside : slot < heap.slots.size := by
      refine Nat.lt_of_not_le fun beyond => ?_
      simp [get?, Array.getElem?_eq_none beyond] at found
    exact issued_iff.mpr ⟨Nat.succ_pos slot, inside⟩

/-- Adding an object gives one more slot. -/
@[simp] theorem size_add (heap : Heap) (object : HeapObject) :
    (heap.add object).slots.size = heap.slots.size + 1 := by simp [add]

/-- Replacing an object keeps the number of slots. -/
@[simp] theorem size_set (heap : Heap) (id : HandleId) (object : HeapObject) :
    (heap.set id object).slots.size = heap.slots.size := by
  cases id <;> simp [set]

/-- Changing an object keeps the number of slots. -/
@[simp] theorem size_modify (heap : Heap) (id : HandleId) (change : HeapObject → HeapObject) :
    (heap.modify id change).slots.size = heap.slots.size := by
  cases id <;> simp [modify]

/-- Destroying an object keeps the number of slots. -/
@[simp] theorem size_destroy (heap : Heap) (id : HandleId) :
    (heap.destroy id).slots.size = heap.slots.size := by
  cases id <;> simp [destroy]

/-- After an addition the new handle reads as the object, and every other one as before. -/
theorem get?_add (heap : Heap) (object : HeapObject) (id : HandleId) :
    (heap.add object).get? id = if id = heap.nextId then some object else heap.get? id := by
  cases id with
  | zero => simp [get?, nextId]
  | succ slot =>
    by_cases here : slot = heap.slots.size
    · simp [get?, add, nextId, here]
    · simp [get?, add, nextId, here, Array.getElem?_push]

/-- An issued handle reads as the object put there. -/
theorem get?_set_self {heap : Heap} {id : HandleId} (issued : heap.Issued id)
    (object : HeapObject) : (heap.set id object).get? id = some object := by
  obtain ⟨positive, inside⟩ := issued_iff.mp issued
  cases id with
  | zero => cases positive
  | succ slot =>
    have within : slot < heap.slots.size := inside
    simp [get?, set, within]

/-- Replacing an object changes no other handle. -/
theorem get?_set_ne (heap : Heap) {id other : HandleId} (apart : other ≠ id)
    (object : HeapObject) : (heap.set id object).get? other = heap.get? other := by
  rcases id with _ | slot <;> rcases other with _ | place
  · rfl
  · rfl
  · rfl
  · have different : slot ≠ place := fun same => apart (same ▸ rfl)
    simp [get?, set, Array.getElem?_setIfInBounds_ne different]

/-- After a destruction the handle reads as nothing, and every other one as before. -/
theorem get?_destroy (heap : Heap) (id other : HandleId) :
    (heap.destroy id).get? other = if other = id then none else heap.get? other := by
  rcases id with _ | slot <;> rcases other with _ | place
  · simp [get?]
  · simp [destroy]
  · simp [get?]
  · by_cases here : slot = place
    · subst here
      by_cases inside : slot < heap.slots.size
      · simp [get?, destroy, inside]
      · simp [get?, destroy, inside]
    · simp [get?, destroy, Array.getElem?_setIfInBounds_ne here, Ne.symm here]

/-- After a change the handle reads as the changed object, and every other one as before. -/
theorem get?_modify (heap : Heap) (id other : HandleId) (change : HeapObject → HeapObject) :
    (heap.modify id change).get? other =
      if other = id then (heap.get? id).map change else heap.get? other := by
  rcases id with _ | slot <;> rcases other with _ | place
  · simp [get?]
  · simp [modify]
  · simp [get?]
  · by_cases here : slot = place
    · subst here
      simp only [get?, modify, Array.getElem?_modify, if_true]
      cases heap.slots[slot]? <;> simp
    · have apart : ¬ place = slot := fun same => here same.symm
      simp [get?, modify, Array.getElem?_modify, here, apart]

/-- Changes of a heap that remove no object but open files whose number is among the closable
ones. -/
structure Leads (closable : HandleId → Prop) (before after : Heap) : Prop where
  /-- Numbers that were given out stay given out. -/
  size : before.slots.size ≤ after.slots.size
  /-- An object that is gone stays gone. -/
  gone : ∀ id, before.Issued id → before.get? id = none → after.get? id = none
  /-- A live object keeps its kind, or was a file and is gone. -/
  kept : ∀ id object, before.get? id = some object →
    (∃ other, after.get? id = some other ∧ other.kind = object.kind) ∨
      closable id ∧ object.kind = "file" ∧ after.get? id = none
  /-- A number that is new has a live object, or one that could be removed. -/
  new : ∀ id, ¬ before.Issued id → after.Issued id → after.Live id ∨ closable id

namespace Leads

variable {closable : HandleId → Prop}

/-- Every heap leads to itself. -/
theorem refl (heap : Heap) : heap.Leads closable heap where
  size := Nat.le_refl _
  gone _ _ dead := dead
  kept _ object found := .inl ⟨object, found, rfl⟩
  new _ old new := absurd new old

/-- A handle stays issued in every heap that follows. -/
theorem issued {before after : Heap} (leads : before.Leads closable after) {id : HandleId}
    (issued : before.Issued id) : after.Issued id :=
  ⟨issued.1, Nat.lt_of_lt_of_le issued.2 (Nat.succ_le_succ leads.size)⟩

/-- Heaps lead on transitively. -/
theorem trans {first second third : Heap} (earlier : first.Leads closable second)
    (later : second.Leads closable third) : first.Leads closable third where
  size := Nat.le_trans earlier.size later.size
  gone id issued dead := later.gone id (earlier.issued issued) (earlier.gone id issued dead)
  kept id object found := by
    have wasIssued : first.Issued id := Live.issued ⟨object, found⟩
    rcases earlier.kept id object found with ⟨middle, foundMiddle, sameKind⟩ | ⟨may, isFile, dead⟩
    · rcases later.kept id middle foundMiddle with ⟨last, foundLast, same⟩ | ⟨may, isFile, dead⟩
      · exact .inl ⟨last, foundLast, same.trans sameKind⟩
      · exact .inr ⟨may, sameKind ▸ isFile, dead⟩
    · exact .inr ⟨may, isFile, later.gone id (earlier.issued wasIssued) dead⟩
  new id fresh issued := by
    by_cases between : second.Issued id
    · rcases earlier.new id fresh between with ⟨object, found⟩ | may
      · rcases later.kept id object found with ⟨last, foundLast, _⟩ | ⟨may, _⟩
        · exact .inl ⟨last, foundLast⟩
        · exact .inr may
      · exact .inr may
    · exact later.new id between issued

/-- An object that may not be removed is there if its number was given out. -/
theorem live_of_not {before after : Heap} (leads : before.Leads closable after) {id : HandleId}
    (never : ¬ closable id) (live : before.Issued id → before.Live id)
    (issued : after.Issued id) : after.Live id := by
  by_cases old : before.Issued id
  · obtain ⟨object, found⟩ := live old
    obtain ⟨other, foundAfter, _⟩ :=
      (leads.kept id object found).resolve_right fun gone => never gone.1
    exact ⟨other, foundAfter⟩
  · exact (leads.new id old issued).resolve_right never

/-- A new object gets a number that was not given out before. -/
theorem add (heap : Heap) (object : HeapObject) : heap.Leads closable (heap.add object) where
  size := by simp
  gone id issued dead := by
    have old : id ≠ heap.nextId := Nat.ne_of_lt issued.2
    rw [get?_add, if_neg old, dead]
  kept id held found := by
    have old : id ≠ heap.nextId := Nat.ne_of_lt (Live.issued ⟨held, found⟩).2
    exact .inl ⟨held, by rw [get?_add, if_neg old, found], rfl⟩
  new id fresh issued := by
    have atMost : id ≤ heap.nextId :=
      Nat.le_trans (issued_iff.mp issued).2 (Nat.le_of_eq (size_add _ _))
    have here : id = heap.nextId :=
      Nat.le_antisymm atMost (Nat.le_of_not_lt fun before => fresh ⟨issued.1, before⟩)
    exact .inl ⟨object, by rw [get?_add, if_pos here]⟩

/-- A change of one slot that keeps the kind of what is there. -/
theorem of_slot {before after : Heap} (id : HandleId)
    (size : after.slots.size = before.slots.size)
    (others : ∀ other, other ≠ id → after.get? other = before.get? other)
    (dead : before.get? id = none → after.get? id = none)
    (live : ∀ object, before.get? id = some object →
      (∃ changed, after.get? id = some changed ∧ changed.kind = object.kind) ∨
        closable id ∧ object.kind = "file" ∧ after.get? id = none) :
    before.Leads closable after where
  size := Nat.le_of_eq size.symm
  gone other _ none := by
    by_cases here : other = id
    · subst here
      exact dead none
    · rw [others other here, none]
  kept other object found := by
    by_cases here : other = id
    · subst here
      exact live object found
    · exact .inl ⟨object, by rw [others other here, found], rfl⟩
  new other fresh issued := by
    rw [issued_iff] at fresh issued
    rw [size] at issued
    exact absurd issued fresh

/-- A live object is replaced by one of its kind. -/
theorem set {heap : Heap} {id : HandleId} {held object : HeapObject}
    (live : heap.get? id = some held) (kind : object.kind = held.kind) :
    heap.Leads closable (heap.set id object) := by
  have issued : heap.Issued id := Live.issued ⟨held, live⟩
  refine of_slot id (size_set _ _ _) (fun other apart => ?_) (fun none => ?_) fun old found => ?_
  · rw [get?_set_ne _ apart]
  · rw [live] at none
    cases none
  · rw [live] at found
    cases found
    exact .inl ⟨object, get?_set_self issued object, kind⟩

/-- A change that keeps the kind of every object. -/
theorem modify (heap : Heap) (id : HandleId) {change : HeapObject → HeapObject}
    (kind : ∀ object, (change object).kind = object.kind) :
    heap.Leads closable (heap.modify id change) := by
  refine of_slot id (size_modify _ _ _) (fun other apart => ?_) (fun none => ?_) fun old found => ?_
  · rw [get?_modify, if_neg apart]
  · rw [get?_modify, if_pos rfl, none]
    rfl
  · exact .inl ⟨change old, by rw [get?_modify, if_pos rfl, found]; rfl, kind old⟩

/-- An open file is removed. -/
theorem destroy {heap : Heap} {id : HandleId} {file : OpenFile} (may : closable id)
    (live : heap.get? id = some (.file file)) : heap.Leads closable (heap.destroy id) := by
  refine of_slot id (size_destroy _ _) (fun other apart => ?_) (fun _ => ?_) fun old found => ?_
  · rw [get?_destroy, if_neg apart]
  · rw [get?_destroy, if_pos rfl]
  · rw [live] at found
    cases found
    exact .inr ⟨may, rfl, by rw [get?_destroy, if_pos rfl]⟩

end Leads

end Heap

/-- Setting an element keeps the kind of the object. -/
@[simp] theorem HeapObject.kind_setElement (position : Nat) (value : Value) (object : HeapObject) :
    (object.setElement position value).kind = object.kind := by
  cases object <;> rfl

end LineScript
