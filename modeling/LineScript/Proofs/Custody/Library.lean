import LineScript.Library.Dispatch
import LineScript.Proofs.Custody.Objects

/-!
# The library keeps values in custody

A function of the library returns a plain value, one of its arguments or a handle of an object that
it made. The only one that removes an object is the one that closes files, and it removes nothing
but an open file.
-/

namespace LineScript

open Machine

/-- Closing a file is only asked for where the file may be removed. -/
def Custody.MayClose (c : Custody) (function : Builtin) (args : Args) (machine : Machine) : Prop :=
  function = .fileClose → ∀ id file, args.value 0 = .handle id →
    machine.heap.get? id = some (.file file) → c.closable id

namespace Custody

variable {c : Custody} {count : Nat}

/-- An argument that was given, or none. -/
theorem admits_value {args : Args} (good : ∀ value ∈ args.values, c.Admits count value)
    (position : Nat) : c.Admits count (args.value position) := by
  unfold Args.value
  rw [List.getD_eq_getElem?_getD]
  cases found : args.values[position]? with
  | none => exact fun _ => trivial
  | some value => exact good value (List.mem_of_getElem? found)

/-- An open file is removed. -/
theorem Keeps.destroy {machine : Machine} (keeps : c.Keeps machine) {id : HandleId}
    {file : OpenFile} (may : c.closable id) (live : machine.heap.get? id = some (.file file)) :
    c.Keeps { machine with heap := machine.heap.destroy id } ∧
      c.Later machine { machine with heap := machine.heap.destroy id } := by
  have later : c.Later machine { machine with heap := machine.heap.destroy id } :=
    ⟨.destroy may live, fun awake => ⟨awake.1, awake.2⟩⟩
  refine ⟨keeps.later later ⟨?_, fun other held found => ?_⟩, later⟩
  · rw [Heap.size_destroy]
    exact keeps.holds.scopes
  · rw [Heap.size_destroy]
    rw [Heap.get?_destroy] at found
    split at found
    · cases found
    · exact keeps.holds.objects other held found

namespace Does

/-- A value that is no handle. -/
theorem plain {value : Value} (free : ∀ more, value.Within more) :
    c.Does count (Pure.pure value : Exec Value) (Pure.pure value) c.Admits :=
  .pure fun more _ _ => free more

/-- A register is set, and a value that is no handle returned. -/
theorem setError_plain (code : Int64) {value : Value}
    (free : ∀ more, value.Within more) :
    c.Does count (do Machine.setError code; return value : Exec Value)
      (do Machine.setError code; return value : Exec Value) c.Admits :=
  (setError code).bind fun _ _ _ _ => plain free

/-- A choice between two actions keeps the custody when both do. -/
theorem ite {α : Type} {condition : Prop} [Decidable condition] {first second : Exec α}
    {post : Nat → α → Prop} (holds : c.Does count first first post)
    (fails : c.Does count second second post) :
    c.Does count (if condition then first else second) (if condition then first else second)
      post := by
  split
  · exact holds
  · exact fails

/-- Writing to the output keeps the custody. -/
theorem writeStdout (text : String) :
    c.Does count (Machine.writeStdout text) (Machine.writeStdout text) fun _ _ => True :=
  modify fun _ => ⟨rfl, rfl, fun awake => ⟨awake.1, awake.2⟩⟩

/-- Writing to the error output keeps the custody. -/
theorem writeStderr (text : String) :
    c.Does count (Machine.writeStderr text) (Machine.writeStderr text) fun _ _ => True := by
  unfold Machine.writeStderr
  refine .get fun machine _ _ => ?_
  split
  · exact writeStdout text
  · exact modify fun _ => ⟨rfl, rfl, fun awake => ⟨awake.1, awake.2⟩⟩

/-- Replacing the files of the host keeps the custody. -/
theorem setFiles (files : FileSystem) :
    c.Does count (Library.setFiles files) (Library.setFiles files) fun _ _ => True :=
  modify fun _ => ⟨rfl, rfl, fun awake => ⟨awake.1, awake.2⟩⟩

/-- Reading the clock keeps the custody. -/
theorem readClock :
    c.Does count Library.readClock Library.readClock fun _ _ => True :=
  .bind (modify fun _ => ⟨rfl, rfl, fun awake => ⟨awake.1, awake.2⟩⟩) fun _ _ _ _ =>
    .get fun _ _ _ => .pure fun _ _ => trivial

/-- What asks the host, and changes nothing but the host. -/
theorem consult {α : Type} {action : Exec α} {answer : Machine → α} {host : Machine → Host}
    (same : ∀ machine, action machine = .ok (answer machine) { machine with host := host machine }) :
    c.Does count action action fun _ _ => True := by
  intro machine keeps _
  have later : c.Later machine { machine with host := host machine } :=
    ⟨.refl _, fun awake => ⟨awake.1, awake.2⟩⟩
  unfold Ends
  rw [same]
  exact .ok (keeps.later later ⟨keeps.holds.scopes, keeps.holds.objects⟩) later trivial

/-- Drawing from the generator keeps the custody. -/
theorem draw {α : Type} (next : Generator → UInt64 → α × UInt64) :
    c.Does count (Library.draw next) (Library.draw next) fun _ _ => True :=
  consult fun _ => rfl

/-- Downloading keeps the custody. -/
theorem download (address : String) :
    c.Does count (Library.download address) (Library.download address) fun _ _ => True :=
  consult fun _ => rfl

end Does

end Custody

namespace Library

open Custody

variable {c : Custody} {count : Nat} {args : Args}

/-- The text of a value holds no handle. -/
theorem within_toText (more : Nat) (value : Value) : (toText value).Within more := by
  cases value <;> trivial

/-- The number of a value holds no handle. -/
theorem within_toNumber (more : Nat) (value : Value) : (toNumber value).Within more := by
  unfold toNumber
  split
  · trivial
  · trivial
  · exact (Value.isFree_parseNumber _).within _

/-- The absolute value holds no handle. -/
theorem within_abs (more : Nat) (value : Value) : (abs value).Within more := by
  unfold abs
  split
  · split <;> trivial
  · exact (Value.isFree_ofFloat _).within _

/-- A stripped text holds no handle. -/
theorem within_stringStripWS (more : Nat) (args : Args) : (stringStripWS args).Within more := by
  unfold stringStripWS
  dsimp only
  split <;> trivial

/-- SetError gives an admitted value when its arguments are admitted. -/
theorem does_setError (good : ∀ value ∈ args.values, c.Admits count value) :
    c.Does count (setError args) (setError args) c.Admits := by
  have admits := admits_value good 2
  refine (Does.setError _).bind fun _ _ first _ => (Does.setExtended _).bind fun _ _ second _ => ?_
  refine (Does.setReturnValue (admits.mono (Nat.le_trans first second))).bind fun _ _ third _ => ?_
  exact .pure fun _ fourth => admits.mono (by omega)

/-- SetExtended gives an admitted value when its arguments are admitted. -/
theorem does_setExtended (good : ∀ value ∈ args.values, c.Admits count value) :
    c.Does count (setExtended args) (setExtended args) c.Admits := by
  have admits := admits_value good 1
  refine (Does.setExtended _).bind fun _ _ first _ => ?_
  refine (Does.setReturnValue (admits.mono first)).bind fun _ _ second _ => ?_
  exact .pure fun _ third => admits.mono (by omega)

/-- Registering an exit handler gives an admitted value. -/
theorem does_onExit (args : Args) : c.Does count (onExit args) (onExit args) c.Admits := by
  unfold onExit
  split
  · exact .bind (.modify fun _ => ⟨rfl, rfl, fun awake => ⟨awake.1, awake.2⟩⟩) fun _ _ _ _ =>
      .plain fun _ => trivial
  · exact .bind (.modify fun _ => ⟨rfl, rfl, fun awake => ⟨awake.1, awake.2⟩⟩) fun _ _ _ _ =>
      .plain fun _ => trivial
  · exact .setError_plain _ fun _ => trivial

/-- Searching a text gives an admitted value. -/
theorem does_stringInStr (args : Args) :
    c.Does count (stringInStr args) (stringInStr args) c.Admits :=
  .ite (.setError_plain _ fun _ => trivial) (.plain fun _ => trivial)

/-- Replacing in a text gives an admitted value. -/
theorem does_stringReplace (args : Args) :
    c.Does count (stringReplace args) (stringReplace args) c.Admits := by
  unfold stringReplace
  refine .ite (.plain fun _ => trivial) (.get fun machine _ _ => ?_)
  split
  · exact .failHere _
  · exact .bind (.setExtended _) fun _ _ _ _ => .plain fun _ => trivial

/-- A new array of texts and numbers. -/
theorem does_newArray {items : List Value} (free : ∀ item ∈ items, ∀ more, item.Within more) :
    c.Does count (newArray items.toArray) (newArray items.toArray) c.Admits :=
  .newArray fun item member _ => free item (List.mem_toArray.mp member) _

/-- The handle of a split text's array is admitted. -/
theorem does_stringSplit (args : Args) :
    c.Does count (stringSplit args) (stringSplit args) c.Admits := by
  have made : ∀ (more : Nat) (flag : Int64) (parts : List (List Char)), c.Does more
      (newArray ((if flag &&& 2 = 0 then [Value.number (Int64.ofNat parts.length)] else []) ++
        parts.map ofChars).toArray)
      (newArray ((if flag &&& 2 = 0 then [Value.number (Int64.ofNat parts.length)] else []) ++
        parts.map ofChars).toArray) c.Admits := by
    intro more flag parts
    refine does_newArray fun item member _ => ?_
    rcases List.mem_append.mp member with size | part
    · split at size
      · rw [List.mem_singleton.mp size]
        trivial
      · cases size
    · obtain ⟨_, _, rfl⟩ := List.mem_map.mp part
      trivial
  exact .ite (.bind (.setError _) fun _ _ _ _ => made _ _ _) (made _ _ _)

/-- The result of a pattern search is admitted. -/
theorem does_stringRegExp (args : Args) :
    c.Does count (stringRegExp args) (stringRegExp args) c.Admits := by
  have group : ∀ text found, ∀ item ∈ groupsOf text found, ∀ more, item.Within more := by
    intro text found item member more
    unfold groupsOf at member
    split at member
    · rw [List.mem_singleton.mp member]
      trivial
    · obtain ⟨part, _, rfl⟩ := List.mem_map.mp member
      cases part <;> trivial
  unfold stringRegExp
  refine .get fun machine _ _ => ?_
  dsimp only
  split
  · exact .setError_plain _ fun _ => trivial
  · split
    · exact .plain fun _ => trivial
    · split
      · exact .setError_plain _ fun _ => trivial
      · refine does_newArray fun item member => ?_
        obtain ⟨match', _, among⟩ := List.mem_flatMap.mp member
        exact group _ _ item among

/-- A square root is an admitted value. -/
theorem does_sqrt (args : Args) : c.Does count (sqrt args) (sqrt args) c.Admits :=
  .ite (.setError_plain _ fun _ => trivial) (.plain fun _ => (Value.isFree_ofFloat _).within _)

/-- A remainder is an admitted value. -/
theorem does_mod (args : Args) : c.Does count (mod args) (mod args) c.Admits := by
  unfold mod
  split
  · exact .setError_plain _ fun _ => trivial
  · split
    · exact .plain fun _ => trivial
    · exact .plain fun _ => (Value.isFree_ofFloat _).within _

/-- A random number is an admitted value. -/
theorem does_random (args : Args) : c.Does count (random args) (random args) c.Admits := by
  unfold random
  split
  all_goals
    have wrong := (.setError_plain 1 fun _ => trivial :
      c.Does count (do Machine.setError 1; return Value.number 0) _ c.Admits)
    refine .ite wrong (.ite (.ite wrong ?_) (.ite (.plain fun _ => trivial) (.ite ?_ ?_)))
    · exact (Does.draw _).bind fun _ _ _ _ => .plain fun _ => trivial
    · exact (Does.draw _).bind fun _ _ _ _ => .plain fun _ => trivial
    · exact .throw fun _ => nofun

/-- The size of a container is an admitted value. -/
theorem does_uBound (args : Args) : c.Does count (uBound args) (uBound args) c.Admits := by
  unfold uBound
  refine .get fun machine _ _ => ?_
  split
  · exact .plain fun _ => trivial
  · exact .setError_plain _ fun _ => trivial

/-- The handle of the array of a map's keys is admitted. -/
theorem does_mapKeys (args : Args) : c.Does count (mapKeys args) (mapKeys args) c.Admits := by
  unfold mapKeys
  refine .get fun machine _ _ => ?_
  split
  · refine .newArray fun item member => ?_
    obtain ⟨key, _, rfl⟩ := List.mem_map.mp (List.mem_toArray.mp member)
    exact fun _ => trivial
  · exact .setError_plain _ fun _ => trivial

/-- Looking for a key gives an admitted value. -/
theorem does_mapExists (args : Args) :
    c.Does count (mapExists args) (mapExists args) c.Admits := by
  unfold mapExists
  refine .get fun machine _ _ => ?_
  split
  · exact .plain fun _ => trivial
  · exact .setError_plain _ fun _ => trivial

/-- Removing a key gives an admitted value. -/
theorem does_mapRemove (args : Args) :
    c.Does count (mapRemove args) (mapRemove args) c.Admits := by
  have refused : c.Does 0 (do Machine.setError 1; return Value.bool false)
      (do Machine.setError 1; return Value.bool false) c.Admits := .setError_plain 1 fun _ => trivial
  unfold mapRemove
  dsimp only
  split
  · refine .look fun machine keeps _ => ?_
    split
    · rename_i id entries found
      obtain ⟨kept, later⟩ := keeps.set found (.map (entries.erase (args.text 1))) rfl
        fun entry member => keeps.entries found entry ((List.mem_filter.mp member).1)
      exact (Ends.modify kept later).bind fun _ _ _ keeps _ _ => .pure keeps fun _ => trivial
    · exact refused machine keeps (Nat.zero_le _)
  · exact .setError_plain _ fun _ => trivial

/-- The handle of an opened file is admitted. -/
theorem does_fileOpen (args : Args) : c.Does count (fileOpen args) (fileOpen args) c.Admits := by
  unfold fileOpen
  refine .get fun machine _ _ => ?_
  split
  · exact .setError_plain _ fun _ => trivial
  · refine (Does.setFiles _).bind fun _ _ _ _ => .get fun opened _ _ => ?_
    split
    · exact (Does.trace _).bind fun _ _ _ _ => .setError_plain _ fun _ => trivial
    · refine (Does.setFiles _).bind fun _ _ _ _ => ?_
      have made : ∀ file more, (HeapObject.file file).Holds (c.Admits more) := fun _ _ => trivial
      refine (Does.addObject (made _ _)).bind fun _ id _ named => ?_
      exact (Does.trace _).bind fun _ _ grows _ => .pure fun _ further _ =>
        ⟨named.1, Nat.le_trans named.2 (Nat.le_trans grows further)⟩

/-- Reading a file gives an admitted value. -/
theorem does_fileRead (args : Args) : c.Does count (fileRead args) (fileRead args) c.Admits := by
  have finish : ∀ (more : Nat) (bytes : Text.Bytes) (wanted : Int64), c.Does more (do
      if bytes = [] ∧ wanted ≠ 0 then Machine.setError (-1)
      return Value.string (Text.Utf8.decode bytes) : Exec Value) (do
      if bytes = [] ∧ wanted ≠ 0 then Machine.setError (-1)
      return Value.string (Text.Utf8.decode bytes) : Exec Value) c.Admits := by
    intro more bytes wanted
    split
    · exact .setError_plain _ fun _ => trivial
    · exact .plain fun _ => trivial
  unfold fileRead
  refine .look fun machine keeps enough => ?_
  have wrong : c.Does 0 (do Machine.setError 1; return Value.string "")
      (do Machine.setError 1; return Value.string "") c.Admits := .setError_plain 1 fun _ => trivial
  have failed := wrong machine keeps (Nat.zero_le _)
  split
  · split
    · rename_i file found
      split
      · rename_i bytes file' _
        obtain ⟨kept, later⟩ := keeps.set found (.file file') rfl trivial
        exact (Ends.modify kept later).bind fun _ after _ keeps _ _ =>
          finish 0 _ _ after keeps (Nat.zero_le _)
      · exact failed
    · exact failed
  · split
    · exact finish 0 _ _ machine keeps (Nat.zero_le _)
    · exact failed

/-- Writing to a file or a path gives an admitted value. -/
theorem does_writeTo (target : Value) (data : Text.Bytes) :
    c.Does count (writeTo target data) (writeTo target data) c.Admits := by
  have failed : ∀ more, c.Does more (do Machine.setError 1; return Value.number 0)
      (do Machine.setError 1; return Value.number 0) c.Admits :=
    fun _ => .setError_plain 1 fun _ => trivial
  unfold writeTo
  refine .look fun machine keeps _ => ?_
  split
  · split
    · rename_i file found
      split
      · rename_i files file' _
        obtain ⟨kept, later⟩ := (keeps.host { machine.host with files }).set found
          (.file file') rfl trivial
        have after : c.Later machine { machine with host := { machine.host with files } } :=
          ⟨.refl _, fun awake => ⟨awake.1, awake.2⟩⟩
        exact .ok kept (after.trans later) fun _ => trivial
      · exact failed _ machine keeps (Nat.le_refl _)
    · exact failed _ machine keeps (Nat.le_refl _)
  · split
    · refine ((Does.setFiles _).bind fun _ _ _ _ => ?_ : c.Does 0 _ _ _) machine keeps
        (Nat.zero_le _)
      split
      · exact (Does.setFiles _).bind fun _ _ _ _ => .plain fun _ => trivial
      · exact failed _
    · exact failed _ machine keeps (Nat.le_refl _)

/-- Closing a file removes it, and nothing else. -/
theorem ends_fileClose {machine : Machine} (keeps : c.Keeps machine)
    (may : c.MayClose .fileClose args machine) :
    c.Ends machine (fileClose args) (fileClose args) c.Admits := by
  unfold fileClose
  split
  · rename_i id named
    refine .look ?_
    split
    · rename_i file found
      have destroyed : c.Ends machine (destroyObject id) (destroyObject id) fun _ _ => True := by
        obtain ⟨kept, later⟩ := (keeps.host (machine.host.trace fun _ =>
          "handle: destroying " ++ HandleId.display id)).destroy (may rfl id file named found) found
        exact .ok kept ⟨later.heap, fun awake => ⟨awake.1, awake.2⟩⟩ trivial
      refine destroyed.bind fun _ middle _ kept _ _ => ?_
      refine Does.bind (Does.trace _) (fun _ _ _ _ => ?_) middle kept (Nat.zero_le _)
      exact .plain fun _ => trivial
    · exact .pure keeps fun _ => trivial
  · exact .pure keeps fun _ => trivial

/-- Deleting a file gives an admitted value. -/
theorem does_fileDelete (args : Args) :
    c.Does count (fileDelete args) (fileDelete args) c.Admits := by
  unfold fileDelete
  refine .get fun machine _ _ => ?_
  dsimp only
  split
  · exact (Does.setFiles _).bind fun _ _ _ _ => .plain fun _ => trivial
  · exact .plain fun _ => trivial

/-- Starting a timer gives an admitted value. -/
theorem does_timerInit : c.Does count timerInit timerInit c.Admits := by
  have made : ∀ started more, (HeapObject.timer started).Holds (c.Admits more) :=
    fun _ _ => trivial
  exact Does.readClock.bind fun _ _ _ _ => (Does.addObject (made _ _)).bind fun _ _ _ named =>
    .pure fun _ grows _ => ⟨named.1, Nat.le_trans named.2 grows⟩

/-- Reading a timer gives an admitted value. -/
theorem does_timerDiff (args : Args) :
    c.Does count (timerDiff args) (timerDiff args) c.Admits := by
  unfold timerDiff
  refine .get fun machine _ _ => ?_
  split
  · exact Does.readClock.bind fun _ _ _ _ => .plain fun _ => trivial
  · exact .setError_plain _ fun _ => trivial

/-- A download gives an admitted value. -/
theorem does_inetRead (args : Args) : c.Does count (inetRead args) (inetRead args) c.Admits := by
  unfold inetRead
  refine (Does.download _).bind fun _ answer _ _ => ?_
  split
  · exact (Does.trace _).bind fun _ _ _ _ => (Does.setExtended _).bind fun _ _ _ _ =>
      .plain fun _ => trivial
  · exact (Does.trace _).bind fun _ _ _ _ => .setError_plain _ fun _ => trivial

end Library

open Library Custody in
/-- Every function of the library keeps values in custody. -/
theorem Builtin.ends_run {c : Custody} {machine : Machine} (function : Builtin) {args : Args}
    (keeps : c.Keeps machine)
    (good : ∀ value ∈ args.values, c.Admits machine.heap.slots.size value)
    (may : c.MayClose function args machine) :
    c.Ends machine (function.run args) (function.run args) c.Admits := by
  have ends : ∀ {action : Exec Value}, c.Does machine.heap.slots.size action action c.Admits →
      c.Ends machine action action c.Admits := fun does => does machine keeps (Nat.le_refl _)
  cases function with
  | typeOf | isArray | isMap => exact ends (.get fun _ _ _ => .plain fun _ => trivial)
  | consoleWrite => exact ends ((Does.writeStdout _).bind fun _ _ _ _ => .plain fun _ => trivial)
  | consoleWriteError =>
    exact ends ((Does.writeStderr _).bind fun _ _ _ _ => .plain fun _ => trivial)
  | setError => exact ends (does_setError good)
  | setExtended => exact ends (does_setExtended good)
  | onExit => exact ends (does_onExit args)
  | stringInStr => exact ends (does_stringInStr args)
  | stringReplace => exact ends (does_stringReplace args)
  | stringSplit => exact ends (does_stringSplit args)
  | stringRegExp => exact ends (does_stringRegExp args)
  | sqrt => exact ends (does_sqrt args)
  | mod => exact ends (does_mod args)
  | random => exact ends (does_random args)
  | uBound => exact ends (does_uBound args)
  | mapKeys => exact ends (does_mapKeys args)
  | mapExists => exact ends (does_mapExists args)
  | mapRemove => exact ends (does_mapRemove args)
  | fileOpen => exact ends (does_fileOpen args)
  | fileRead => exact ends (does_fileRead args)
  | fileWrite | fileWriteLine => exact ends (does_writeTo _ _)
  | fileClose => exact ends_fileClose keeps may
  | fileDelete => exact ends (does_fileDelete args)
  | fileExists => exact ends (.get fun _ _ _ => .plain fun _ => trivial)
  | inetRead => exact ends (does_inetRead args)
  | sleep => exact ends (.bind (.modify fun _ => ⟨rfl, rfl, fun awake => ⟨awake.1, awake.2⟩⟩)
      fun _ _ _ _ => .plain fun _ => trivial)
  | timerInit => exact ends does_timerInit
  | timerDiff => exact ends (does_timerDiff args)
  | toText => exact ends (.plain fun _ => within_toText _ _)
  | toNumber => exact ends (.plain fun _ => within_toNumber _ _)
  | abs => exact ends (.plain fun _ => within_abs _ _)
  | round => exact ends (.plain fun _ => (Value.isFree_ofFloat _).within _)
  | stringStripWS => exact ends (.plain fun _ => within_stringStripWS _ _)
  | _ => exact ends (.plain fun _ => trivial)

end LineScript
