import LineScript.Program.Include
import LineScript.Proofs.Outcome
import Mathlib.Data.Nat.Digits.Lemmas

/-!
# Files that are told apart

Paths are the same when they begin at the same place and the same segments of them name something,
so files are told apart by these. A library is what including sees of files: it brings paths to
their canonical form and reads. Of the files of a host only so many can be told apart
(`Include.Library.ofHost_bounded`), and spellings of one canonical path lead to one content
(`Include.Library.ofHost_steady`).
-/

namespace LineScript

namespace Path

/-- What paths are compared by: where they begin, and the segments that name something. -/
def key (path : String) : Bool × List String :=
  (isAbsolute path, ((marked (segments path)).filter Prod.fst).map Prod.snd)

/-- Two paths are the same exactly when their keys are. -/
theorem same_iff {left right : String} : same left right = true ↔ key left = key right := by
  simp only [same, key, Bool.and_eq_true, beq_iff_eq, Prod.mk.injEq]

/-- Every path is the same as itself. -/
@[simp] theorem same_self (path : String) : same path path = true := same_iff.mpr rfl

/-- Paths that are the same are the same as the same others. -/
theorem same_congr {left right other : String} (same' : same left right = true) :
    same left other = same right other := by
  rw [Bool.eq_iff_iff, same_iff, same_iff, same_iff.mp same']

/-- Sameness of paths is symmetric. -/
theorem same_comm (left right : String) : same left right = same right left := by
  rw [Bool.eq_iff_iff, same_iff, same_iff, eq_comm]

/-- No two of the paths are the same. -/
def Distinct (paths : List String) : Prop :=
  paths.Pairwise fun left right => same left right = false

instance (paths : List String) : Decidable (Distinct paths) :=
  inferInstanceAs (Decidable (List.Pairwise _ paths))

/-- Paths are distinct exactly when no key occurs twice. -/
theorem distinct_iff {paths : List String} : Distinct paths ↔ (paths.map key).Nodup := by
  simp only [Distinct, List.Nodup, List.pairwise_map, ne_eq, ← same_iff, Bool.not_eq_true]

/-- A path in front of distinct ones keeps them distinct exactly when none of them is the same. -/
theorem distinct_cons {path : String} {paths : List String} :
    Distinct (path :: paths) ↔ paths.any (same path) = false ∧ Distinct paths := by
  simp only [Distinct, List.pairwise_cons, List.any_eq_false, Bool.not_eq_true]

/-- Paths that are not the same are different. -/
theorem ne_of_not_same {left right : String} (apart : same left right = false) : left ≠ right := by
  rintro rfl
  simp at apart

/-- There are no more distinct paths than files that they lead to. -/
theorem Distinct.length_le {paths files : List String} (distinct : Distinct paths)
    (lead : ∀ path ∈ paths, ∃ file ∈ files, same path file = true) :
    paths.length ≤ files.length := by
  have subset : paths.map key ⊆ files.map key := by
    intro found member
    obtain ⟨path, inPaths, rfl⟩ := List.mem_map.mp member
    obtain ⟨file, inFiles, same⟩ := lead path inPaths
    exact List.mem_map.mpr ⟨file, inFiles, (same_iff.mp same).symm⟩
  simpa using (distinct_iff.mp distinct).length_le_of_subset subset

/-- Marking the parts of a path keeps the parts. -/
theorem marked_map_snd (parts : List String) : (marked parts).map Prod.snd = parts := by
  refine List.ext_getElem (by simp [marked]) fun position _ _ => ?_
  simp [marked]

/-- What names nothing is empty or a dot. -/
theorem eq_of_marked {parts : List String} :
    ∀ step ∈ marked parts, step.1 = false → step.2 = "" ∨ step.2 = "." := by
  intro step member unnamed
  obtain ⟨position, _, rfl⟩ := List.mem_mapIdx.mp member
  simp only [names] at unnamed
  grind

end Path

namespace FileSystem

variable {files : FileSystem} {directory path : String} {bytes : Text.Bytes}

/-- A path read from the root is short enough and is the joined path's parts. -/
theorem fromRoot_eq_ok {parts : List String}
    (rooted : fromRoot directory path = .ok parts) :
    path.utf8ByteSize ≤ pathLimit ∧ parts = Path.segments (Path.join directory path) := by
  unfold fromRoot at rooted
  repeat' split at rooted
  all_goals cases rooted
  exact ⟨Nat.le_of_not_lt ‹_›, rfl⟩

/-- A path that is read is short enough and leads to a node with the content read. -/
theorem read_eq_ok (succeeds : files.read directory path = .ok bytes) :
    path.utf8ByteSize ≤ pathLimit ∧
      ∃ trail, files.walk [] (Path.segments (Path.join directory path)) = .ok trail ∧
        files.contentOf trail.node = .ok bytes := by
  unfold read resolve at succeeds
  obtain ⟨trail, resolved, content⟩ := bind_eq_ok.mp succeeds
  obtain ⟨parts, rooted, walked⟩ := bind_eq_ok.mp resolved
  obtain ⟨short, rfl⟩ := fromRoot_eq_ok rooted
  exact ⟨short, trail, walked, content⟩

/-- Steps that name nothing lead nowhere, so a walk without them ends at the same place. -/
theorem walk_named {trail last : Trail} {steps : List (Bool × String)}
    (skipped : ∀ step ∈ steps, step.1 = false → step.2 = "" ∨ step.2 = ".")
    (walked : files.walk trail (steps.map Prod.snd) = .ok last) :
    files.walk trail ((steps.filter Prod.fst).map Prod.snd) = .ok last := by
  induction steps generalizing trail with
  | nil => exact walked
  | cons step steps ih =>
    obtain ⟨named, segment⟩ := step
    have later (trail : Trail) :=
      @ih trail fun step member => skipped step (List.mem_cons_of_mem _ member)
    rw [List.map_cons, walk] at walked
    cases named with
    | false =>
      have empty := skipped _ List.mem_cons_self rfl
      split at walked
      · cases walked
      · rw [if_pos empty] at walked
        exact later trail walked
    | true =>
      rw [List.filter_cons_of_pos rfl, List.map_cons, walk]
      split at walked
      · cases walked
      · repeat' split at walked
        all_goals first | cases walked | simp_all

/-- A canonical path that something was read at begins at the root. -/
theorem isAbsolute_canonical
    (succeeds : files.read directory (files.canonical directory path) = .ok bytes) :
    Path.isAbsolute (files.canonical directory path) = true := by
  cases resolved : files.resolve directory path with
  | ok trail => simp [canonical, resolved, Trail.path, Path.isAbsolute]
  | error reason =>
    rw [canonical, resolved, read, resolved] at succeeds
    cases succeeds

end FileSystem

namespace Text

/-- A text has at least as many bytes as characters. -/
theorem length_le_size (text : String) : text.length ≤ text.utf8ByteSize := by
  induction text using String.push_induction with
  | empty => exact Nat.zero_le _
  | push text char ih =>
    have positive := char.utf8Size_pos
    rw [String.length_push, String.utf8ByteSize_push]
    omega

/-- The characters of a text as digits that are not zero. -/
def digits (text : String) : List Nat := text.toList.map fun char => char.toNat + 1

/-- Different texts have different digits. -/
theorem digits_injective : Function.Injective digits := fun _ _ same =>
  String.toList_injective (List.map_injective_iff.mpr
    (fun _ _ same => Char.toNat_inj.mp (Nat.succ.inj same)) same)

/-- Every digit is below the base. -/
theorem digits_lt {text : String} : ∀ digit ∈ digits text, digit < 0x110000 + 1 := by
  intro digit member
  obtain ⟨char, _, rfl⟩ := List.mem_map.mp member
  have valid := char.valid
  simp only [UInt32.isValidChar, Nat.isValidChar] at valid
  simp only [Char.toNat]
  omega

/-- A number for every text. -/
def code (text : String) : Nat := Nat.ofDigits (0x110000 + 1) (digits text)

/-- The digits of a text's code are the text's digits. -/
theorem digits_code (text : String) : Nat.digits (0x110000 + 1) (code text) = digits text :=
  Nat.digits_ofDigits _ (by decide) _ digits_lt fun some => by simp [digits]

/-- Different texts have different codes. -/
theorem code_injective : Function.Injective code := fun left right same =>
  digits_injective <| by rw [← digits_code left, same, digits_code right]

end Text

namespace Include

/-- What including sees of files. -/
structure Library where
  /-- The canonical form of a path. -/
  canonical : String → String
  /-- The content of the file at a path. -/
  read : String → Except FileError Text.Bytes

namespace Library

/-- The files of a host. -/
def ofHost (host : Host) : Library :=
  ⟨host.files.canonical host.directory, host.files.read host.directory⟩

variable (library : Library)

/-- There is a file at the path, which is in canonical form. -/
def Has (path : String) : Prop :=
  (∃ spelling, library.canonical spelling = path) ∧ ∃ bytes, library.read path = .ok bytes

/-- The tokens of the file at a path, if they can be read. -/
def source? (path : String) : Option (List Token) :=
  match library.read path with
  | .ok bytes => (tokenize (Text.Utf8.decode bytes)).toOption
  | .error _ => none

/-- Every file is one of those listed. -/
def Covered (files : List String) : Prop :=
  ∀ path, library.Has path → ∃ file ∈ files, Path.same path file = true

/-- At most so many files can be told apart. -/
def Bounded (count : Nat) : Prop :=
  ∀ paths, Path.Distinct paths → (∀ path ∈ paths, library.Has path) → paths.length ≤ count

/-- Canonical paths that are the same lead to the same content. -/
def Steady : Prop :=
  ∀ left right, library.Has left → library.Has right → Path.same left right = true →
    library.read left = library.read right

variable {library} {host : Host} {path : String}

/-- A library covered by a list of files has no more files than the list. -/
theorem Covered.bounded {files : List String} (covered : library.Covered files) :
    library.Bounded files.length :=
  fun _ distinct has => distinct.length_le fun path member => covered path (has path member)

/-- A path that reads and lexes has the lexed tokens as its source. -/
theorem source?_eq_some {bytes : Text.Bytes} {source : List Token}
    (read : library.read path = .ok bytes)
    (lexed : tokenize (Text.Utf8.decode bytes) = .ok source) :
    library.source? path = some source := by
  rw [source?, read]
  exact congrArg Except.toOption lexed

/-- A path with a source can be read. -/
theorem read_of_source? {source : List Token} (holds : library.source? path = some source) :
    ∃ bytes, library.read path = .ok bytes := by
  unfold source? at holds
  split at holds
  · exact ⟨_, ‹_›⟩
  · cases holds

/-- The code of a short path is below the depth. -/
theorem code_lt_depth (short : path.utf8ByteSize ≤ FileSystem.pathLimit) :
    Text.code path < depth := by
  have length : (Text.digits path).length ≤ FileSystem.pathLimit := by
    rw [Text.digits, List.length_map, String.length_toList]
    exact (Text.length_le_size path).trans short
  calc Text.code path
      < (0x110000 + 1) ^ (Text.digits path).length :=
        Nat.ofDigits_lt_base_pow_length (by decide) Text.digits_lt
    _ ≤ depth := by
      unfold depth
      rw [Nat.pow_eq]
      exact Nat.pow_le_pow_right (by decide) length

/-- Of the files of a host, no more can be told apart than there are short texts. -/
theorem ofHost_bounded (host : Host) : (ofHost host).Bounded depth := by
  intro paths distinct has
  have nodup : (paths.map Text.code).Nodup :=
    List.Nodup.map Text.code_injective (distinct.imp Path.ne_of_not_same)
  have below : paths.map Text.code ⊆ List.range depth := by
    intro code member
    obtain ⟨path, inPaths, rfl⟩ := List.mem_map.mp member
    obtain ⟨_, bytes, read⟩ := has path inPaths
    exact List.mem_range.mpr (code_lt_depth (FileSystem.read_eq_ok read).1)
  simpa using nodup.length_le_of_subset below

/-- What is at a canonical path is found by the steps of it that name something. -/
theorem walk_canonical {spelling : String} {bytes : Text.Bytes}
    (read : (ofHost host).read ((ofHost host).canonical spelling) = .ok bytes) :
    ∃ trail, host.files.walk [] (Path.key ((ofHost host).canonical spelling)).2 = .ok trail ∧
      host.files.contentOf trail.node = .ok bytes := by
  obtain ⟨_, trail, walked, content⟩ := FileSystem.read_eq_ok read
  have absolute : Path.isAbsolute ((ofHost host).canonical spelling) = true :=
    FileSystem.isAbsolute_canonical read
  rw [Path.join, if_pos (by simp [absolute]), ← Path.marked_map_snd (Path.segments _)] at walked
  simp only [Path.key]
  exact ⟨trail, FileSystem.walk_named Path.eq_of_marked walked, content⟩

/-- Spellings of one canonical path lead to one content. -/
theorem ofHost_steady (host : Host) : (ofHost host).Steady := by
  rintro _ _ ⟨⟨left, rfl⟩, bytes, readLeft⟩ ⟨⟨right, rfl⟩, other, readRight⟩ same
  obtain ⟨trail, walked, content⟩ := walk_canonical readLeft
  obtain ⟨trail', walked', content'⟩ := walk_canonical readRight
  rw [Path.same_iff.mp same, walked'] at walked
  cases walked
  rw [readLeft, readRight, ← content, ← content']

/-- Where only so many files can be told apart, they can be listed. -/
theorem Bounded.covered {count : Nat} (bounded : library.Bounded count) :
    ∃ files, library.Covered files := by
  by_contra uncovered
  have longer (length : Nat) : ∃ paths : List String,
      paths.length = length ∧ Path.Distinct paths ∧ ∀ path ∈ paths, library.Has path := by
    induction length with
    | zero => exact ⟨[], rfl, .nil, nofun⟩
    | succ length ih =>
      obtain ⟨paths, isLength, distinct, has⟩ := ih
      obtain ⟨path, here, apart⟩ : ∃ path, library.Has path ∧
          ∀ file ∈ paths, ¬Path.same path file = true := by
        by_contra none
        push Not at none
        exact uncovered ⟨paths, none⟩
      refine ⟨path :: paths, by rw [List.length_cons, isLength], ?_, ?_⟩
      · exact Path.distinct_cons.mpr ⟨List.any_eq_false.mpr apart, distinct⟩
      · exact List.forall_mem_cons.mpr ⟨here, has⟩
  obtain ⟨paths, isLength, distinct, has⟩ := longer (count + 1)
  have most := bounded paths distinct has
  omega

/-- The files of a host can be listed. -/
theorem ofHost_covered (host : Host) : ∃ files, (ofHost host).Covered files :=
  (ofHost_bounded host).covered

end Library

end Include

end LineScript
