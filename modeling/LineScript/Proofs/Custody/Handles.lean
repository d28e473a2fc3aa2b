import LineScript.Proofs.Custody.Engine
import LineScript.Proofs.Exit.Prompt

/-!
# Handles never dangle, except those of closed files

A script cannot make up a handle: each one that is kept anywhere was given out for an object. The
object stays until a file is closed by its handle, and its kind stays as well. A number that was
given out is never given out again.
-/

namespace LineScript

open Machine

namespace Machine

/-- Every handle that the machine keeps, in a variable, a register, an array or a map, was given out
for an object. -/
def Sound (machine : Machine) : Prop :=
  machine.Holds fun value => ∀ id, value = .handle id → 1 ≤ id ∧ id < machine.heap.nextId

/-- A host has made the machine and done nothing but run its script, any number of times. -/
inductive OnlyRun : Machine → Prop where
  /-- Not yet. -/
  | fresh (host : Host) (path : String) (tokens : List Token) : OnlyRun (ofTokens host path tokens)
  /-- Once more. -/
  | again {machine : Machine} (before : OnlyRun machine) (fuel : Nat) :
      OnlyRun ((run fuel).final machine)

end Machine

/-- The function that closes files is called with the handle of an open file. -/
def Occurrence.closes (id : HandleId) (occurrence : Occurrence) (state : Machine) : Bool :=
  match occurrence with
  | .library .fileClose args =>
    args.value 0 == .handle id && (state.heap.get? id).any (·.kind == "file")
  | _ => false

/-- A value that is read as a handle is that handle. -/
theorem Value.eq_handle {value : Value} {id : HandleId} (same : value.asHandle? = some id) :
    value = .handle id := by
  cases value with
  | handle other =>
    cases same
    rfl
  | _ => cases same

/-- A value is within a count exactly when the handle it may be has been issued. -/
theorem Value.within_iff {count : Nat} {value : Value} :
    value.Within count ↔ ∀ id, value = .handle id → 1 ≤ id ∧ id ≤ count := by
  cases value with
  | handle id =>
    constructor
    · intro within other same
      cases same
      exact within
    · exact fun issued => issued id rfl
  | _ => exact ⟨fun _ _ same => (by cases same), fun _ => trivial⟩

namespace Custody

/-- Custody of handles, with a say in which files may be closed. -/
def ofHandles (closable : HandleId → Prop) (start : Heap) : Custody :=
  { strict := True, closable, lax := False, full := False, start }

variable {closable : HandleId → Prop} {start : Heap} {machine : Machine}

/-- A machine is sound exactly when it holds only values admitted at the size of its heap. -/
theorem sound_iff : machine.Sound ↔
    machine.Holds ((ofHandles closable start).Admits machine.heap.slots.size) := by
  constructor
  · exact fun sound => sound.mono fun value issued _ => Value.within_iff.mpr
      fun id same => ⟨(issued id same).1, Nat.le_of_lt_succ (issued id same).2⟩
  · exact fun holds => holds.mono fun value admits id same =>
      have within := Value.within_iff.mp (admits trivial) id same
      ⟨within.1, Nat.lt_succ_of_le within.2⟩

/-- A machine that is sound is in custody from its own heap on. -/
theorem keeps_of_sound (sound : machine.Sound) :
    (ofHandles closable machine.heap).Keeps machine := ⟨sound_iff.mp sound, .refl _⟩

/-- A kept machine is sound. -/
theorem Keeps.sound (keeps : (ofHandles closable start).Keeps machine) : machine.Sound :=
  sound_iff.mpr keeps.holds

/-- What is sure in custody holds throughout a run. -/
theorem throughout {base : Watch} {holds : Occurrence → Machine → Prop}
    (tends : (ofHandles closable machine.heap).Tends base base) (sound : machine.Sound)
    (sure : ∀ occurrence state, (ofHandles closable machine.heap).Keeps state →
      holds occurrence state) (fuel : Nat) : machine.Throughout base fuel holds := by
  intro watch quiet
  have same : (ofHandles closable machine.heap).Tends (watch.andThen base) base := by
    refine ⟨fun occurrence state keeps => ?_, tends.closing⟩
    have silent : (watch.andThen base) occurrence state = base occurrence state := by
      unfold Watch.andThen
      rw [Exec.bind_ok (quiet occurrence state (sure occurrence state keeps))]
    unfold Ends
    rw [silent]
    exact tends.ends occurrence state keeps
  have ends := (watchedEngine_pairs id same (.inl rfl : fuel = fuel ∨ _)).runBy machine
    (keeps_of_sound sound) (Nat.zero_le _)
  exact ends.same.resolve_right fun ⟨lax, _⟩ => lax

/-- The machine that a watched run leaves is in custody. -/
theorem keeps_watchedRun {base : Watch} (tends : (ofHandles closable machine.heap).Tends base base)
    (sound : machine.Sound) (fuel : Nat) :
    (ofHandles closable machine.heap).Keeps ((watchedRun base fuel).final machine) :=
  ((watchedEngine_pairs id tends (.inl rfl : fuel = fuel ∨ _)).runBy machine
    (keeps_of_sound sound) (Nat.zero_le _)).keeps

/-- Nobody watches, and every file may be closed. -/
theorem tends_always (start : Heap) : (ofHandles (fun _ => True) start).Tends .idle .idle :=
  tends_idle fun _ => trivial

/-- Where a run stops when one file is to be closed, all other files may be closed. -/
theorem tends_closes (id : HandleId) (start : Heap) :
    (ofHandles (· ≠ id) start).Tends (.stopAt (Occurrence.closes id))
      (.stopAt (Occurrence.closes id)) := by
  constructor
  · intro occurrence state keeps
    unfold Ends Watch.stopAt
    split
    · exact .error keeps (.refl state) False.elim
    · exact .ok keeps (.refl state) trivial
  · intro function args state after _ passed closes other file named found here
    subst closes here
    unfold Watch.stopAt at passed
    split at passed
    · cases passed
    · rename_i others
      cases passed
      refine others ?_
      simp only [Occurrence.closes, named, found, Bool.and_eq_true, beq_self_eq_true, Option.any_some,
        HeapObject.kind, true_and]

/-- Two runs of which the first may stop earlier. -/
theorem tends_stopAt (first second : Occurrence → Machine → Bool) (start : Heap) :
    (loose start).Tends
      (.stopAt fun occurrence state => first occurrence state || second occurrence state)
      (.stopAt second) := by
  refine ⟨fun occurrence state keeps => ?_, fun _ _ _ _ _ _ _ _ _ _ _ => trivial⟩
  unfold Ends Watch.stopAt
  have goes : Custody.Reached _ state (.ok () state) (.ok () state) fun _ _ => True :=
    .ok keeps (.refl state) trivial
  by_cases stops : second occurrence state = true
  · simp only [stops, Bool.or_true, if_true]
    exact .error keeps (.refl state) False.elim
  · simp only [stops, Bool.or_false]
    split
    · exact goes.starve trivial (.refl _)
    · exact goes

end Custody

namespace Machine

/-- A machine that has only run scripts is sound. -/
theorem OnlyRun.sound {machine : Machine} (only : machine.OnlyRun) : machine.Sound := by
  induction only with
  | fresh host path tokens =>
    refine ⟨fun scope member => ?_, fun id object found => ?_⟩
    · rw [List.mem_singleton.mp member]
      exact ⟨fun entry among => (by cases among), fun id same => (by cases same)⟩
    · cases id <;> simp [ofTokens, Heap.get?] at found
  | again before fuel ih =>
    have keeps := Custody.keeps_watchedRun (Custody.tends_always _) ih fuel
    rw [watchedRun_idle] at keeps
    exact keeps.sound

/-- Two points of a run: where it is stopped first, and where it is stopped at the latest. -/
theorem leads_watchedRun (earlier later : Occurrence → Machine → Bool) (fuel : Nat)
    (machine : Machine) :
    ((watchedRun (.stopAt fun occurrence state =>
        earlier occurrence state || later occurrence state) fuel).final machine).heap.Leads
      (fun _ => True) ((watchedRun (.stopAt later) fuel).final machine).heap := by
  have keeps : (Custody.loose machine.heap).Keeps machine := .of_not_strict id (.refl _)
  have ends := (Custody.watchedEngine_pairs id (Custody.tends_stopAt earlier later machine.heap)
    (.inl rfl : fuel = fuel ∨ _)).runBy machine keeps (Nat.zero_le _)
  rcases ends.same with same | ⟨_, stopped, same, leads⟩
  · unfold watchedRun Exec.final
    rw [same]
    exact .refl _
  · unfold watchedRun Exec.final
    rw [same]
    exact leads

/-- Handles are unforgeable, and never dangle except those of closed files. Throughout the runs of a
script, every handle that is kept was given out. Its object is there until a file is closed by it.
Of any two points of a run, the numbers given out by the earlier one are given out at the later one,
what is gone stays gone, and the rest keeps its kind. A new object gets a number that was not given
out before. -/
theorem handles_never_dangle {machine : Machine} (only : machine.OnlyRun) (fuel : Nat) :
    machine.Sound ∧
    machine.Throughout .idle fuel (fun _ state => state.Sound) ∧
    (∀ id, (machine.heap.Issued id → machine.heap.Live id) →
      let last := (watchedRun (.stopAt (Occurrence.closes id)) fuel).final machine
      machine.Throughout (.stopAt (Occurrence.closes id)) fuel
        (fun _ state => state.heap.Issued id → state.heap.Live id) ∧
      (last.heap.Issued id → last.heap.Live id)) ∧
    (∀ earlier later : Occurrence → Machine → Bool,
      ((watchedRun (.stopAt fun occurrence state =>
          earlier occurrence state || later occurrence state) fuel).final machine).heap.Leads
        (fun _ => True) ((watchedRun (.stopAt later) fuel).final machine).heap) ∧
    ∀ object state, ∃ last, addObject object state = .ok state.heap.nextId last ∧
      ¬ state.heap.Issued state.heap.nextId ∧ last.heap.Issued state.heap.nextId := by
  have sound := only.sound
  refine ⟨sound, Custody.throughout (Custody.tends_always _) sound (fun _ _ keeps => keeps.sound) fuel,
    fun id live => ?_, fun earlier later => leads_watchedRun earlier later fuel machine,
    fun object state => ⟨_, rfl, fun issued => Nat.lt_irrefl _ issued.2, ?_⟩⟩
  · have stays : ∀ state, (Custody.ofHandles (· ≠ id) machine.heap).Keeps state →
        state.heap.Issued id → state.heap.Live id := fun state keeps =>
      keeps.grown.live_of_not (fun apart => apart rfl) live
    have tends := Custody.tends_closes id machine.heap
    exact ⟨Custody.throughout tends sound (fun _ state => stays state) fuel,
      stays _ (Custody.keeps_watchedRun tends sound fuel)⟩
  · exact Heap.issued_iff.mpr ⟨Nat.succ_pos _, (Nat.le_of_eq (Heap.size_add _ _).symm)⟩

/-- A script that keeps the handle of a file it closes, and opens the file again. -/
def reopens : String :=
  "$a = [FileOpen(\"x\", 2)]\n$f = $a[0]\nFileClose($f)\n$g = FileOpen(\"x\", 1)\n"

/-- The run is stopped where the first object is gone. -/
def firstGone : Watch := .stopAt fun _ state => state.heap.nextId != 1 && (state.heap.get? 1).isNone

/-- The handles that a script keeps in `f` and `g`, which of the first two objects are there in the
end, whether the first one is where it is about to be closed, and whether the script returns, as it
is and stopped where the first object is gone. -/
def reopensTrial (tokens : List Token) : List (Option HandleId) × List Bool :=
  let last := (run 20).final (ofTokens {} "main" tokens)
  let closing := (watchedRun (.stopAt (Occurrence.closes 1)) 20).final (ofTokens {} "main" tokens)
  (["f", "g"].map fun name => (varValue? last name).bind Value.asHandle?,
    [(last.heap.get? 1).isSome, (last.heap.get? 2).isSome, (closing.heap.get? 1).isSome,
      returns (run 20 (ofTokens {} "main" tokens)),
      returns (watchedRun (firstGone.andThen .idle) 20 (ofTokens {} "main" tokens))])

/-- The first handle is kept although its file is gone, and its number is not given out again. Up to
where the file is closed it was there. -/
theorem handles_never_dangle_reopened :
    ∃ tokens, tokenize reopens = .ok tokens ∧
      let machine := ofTokens {} "main" tokens
      let last := (run 20).final machine
      let closing := (watchedRun (.stopAt (Occurrence.closes 1)) 20).final machine
      machine.OnlyRun ∧ last.OnlyRun ∧ last.Sound ∧ varValue? last "f" = some (.handle 1) ∧
      varValue? last "g" = some (.handle 3) ∧ ¬ last.heap.Live 1 ∧ last.heap.Live 2 ∧
      closing.heap.Live 1 ∧ closing.heap.Leads (fun _ => True) last.heap ∧
      machine.Throughout (.stopAt (Occurrence.closes 1)) 20
        (fun _ state => state.heap.Issued 1 → state.heap.Live 1) ∧
      ¬ machine.Throughout .idle 20 fun _ state => state.heap.Issued 1 → state.heap.Live 1 := by
  have seen : (tokenize reopens).toOption.map reopensTrial =
      some ([some 1, some 3], [false, true, true, true, false]) := by
    decide +kernel
  obtain ⟨tokens, read, seen⟩ := Option.map_eq_some_iff.mp seen
  simp only [reopensTrial, Prod.mk.injEq, List.map_cons, List.map_nil, List.cons.injEq, and_true,
    Option.bind_eq_some_iff, Option.isSome_eq_false_iff, Option.isNone_iff_eq_none,
    Option.isSome_iff_exists] at seen
  obtain ⟨⟨⟨first, foundFirst, isFirst⟩, second, foundSecond, isSecond⟩, gone, live, before,
    returned, stopped⟩ := seen
  have fresh : (ofTokens {} "main" tokens).OnlyRun := .fresh {} "main" tokens
  have nothing : ¬ (ofTokens {} "main" tokens).heap.Issued 1 := fun issued =>
    Nat.lt_irrefl 1 issued.2
  obtain ⟨_, _, stays, leads, _⟩ := handles_never_dangle fresh 20
  have order := leads (Occurrence.closes 1) fun _ _ => false
  simp only [Bool.or_false, watchedRun_never] at order
  have sound : ((run 20).final (ofTokens {} "main" tokens)).Sound :=
    (handles_never_dangle (fresh.again 20) 20).1
  refine ⟨tokens, eq_ok_of_toOption read, fresh, fresh.again 20, sound, ?_, ?_, ?_, live, before,
    order, (stays 1 fun issued => absurd issued nothing).1, fun always => ?_⟩
  · rw [foundFirst, Value.eq_handle isFirst]
  · rw [foundSecond, Value.eq_handle isSecond]
  · rintro ⟨object, found⟩
    rw [gone] at found
    cases found
  · have quiet : ∀ occurrence state, (Heap.Issued state.heap 1 → state.heap.Live 1) →
        firstGone occurrence state = .ok () state := by
      intro occurrence state there
      unfold firstGone Watch.stopAt
      rw [if_neg]
      simp only [Bool.and_eq_true, bne_iff_ne, Option.isNone_iff_eq_none, not_and]
      intro made none
      have issued : state.heap.Issued 1 :=
        Heap.issued_iff.mpr ⟨Nat.le_refl 1, Nat.pos_of_ne_zero fun empty => made (by
          rw [Heap.nextId, empty])⟩
      obtain ⟨object, found⟩ := there issued
      rw [none] at found
      cases found
    rw [always firstGone quiet, watchedRun_idle, returned] at stopped
    cases stopped

end Machine

end LineScript
