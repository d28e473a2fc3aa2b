import LineScript.Proofs.Include.Running
import LineScript.Proofs.Lists

/-!
# Files that are included once

A file that asks to be included once is put in once at most. Until it is read to where it asks, it
is on the stack and cannot be put in again; from there on it is known and left out. So nothing
depends on where in the file that is, on who includes the file, or on how its path is spelt
(`Include.asked_once_included_once`).
-/

namespace LineScript

namespace Include

/-- One of the tokens asks for their file to be included once. -/
def asksOnce (tokens : List Token) : Bool := tokens.any (·.isFlag "include-once")

/-- Behind an include, the file asks to be included once if it does so at all. -/
theorem asksOnce_include {flag named : Token} {after : List Token}
    (asks : flag.isFlag "include" = true) (isPath : named.kind = .string) :
    asksOnce (flag :: named :: after) = asksOnce after := by
  simp [asksOnce, Token.isFlag_once asks, Token.isFlag_of_string isPath]

/-- A file that is known is not the same as one that is not. -/
theorem not_same_of_known {once : List String} {left right : String}
    (known : once.any (Path.same left) = true) (unknown : once.any (Path.same right) = false) :
    Path.same right left = false := by
  rw [Bool.eq_false_iff]
  intro same
  have alike : Path.same right = Path.same left := funext fun _ => Path.same_congr same
  rw [alike, known] at unknown
  cases unknown

/-- No file that was put in is one of the outer ones. -/
theorem Pieces.Apart.files {pieces : Pieces} {outer : List String} (apart : pieces.Apart outer) :
    ∀ entry ∈ pieces.files, outer.any (Path.same entry.1) = false := by
  induction pieces generalizing outer with
  | done => exact nofun
  | token first rest ih => exact ih apart
  | file path source inside rest ihInside ihRest =>
    obtain ⟨here, within, later⟩ := apart
    have inner (entry) (member : entry ∈ inside.files) :
        outer.any (Path.same entry.1) = false := by
      have both := ihInside within entry member
      rw [List.any_cons, Bool.or_eq_false_iff] at both
      exact both.2
    exact List.forall_mem_cons.mpr ⟨here, List.forall_mem_append.mpr ⟨inner, ihRest later⟩⟩

namespace Library

variable {library : Library} {current path : String} {stack once last : List String}
  {tokens : List Token} {pieces : Pieces}

namespace Made

/-- A file that is not included again is never included again. -/
theorem grows (made : library.Made current stack once tokens pieces last)
    (known : once.any (Path.same path) = true) : last.any (Path.same path) = true := by
  induction made with
  | done => exact known
  | once _ _ ih => exact ih (by simp [known])
  | skip _ _ _ _ ih => exact ih known
  | file _ _ _ _ _ _ _ within later => exact later (within known)
  | plain _ _ ih => exact ih known

/-- A file that asks to be included once is known when its tokens are resolved. -/
theorem marks (made : library.Made current stack once tokens pieces last)
    (asks : asksOnce tokens = true) : last.any (Path.same current) = true := by
  induction made with
  | done => cases asks
  | once _ later _ => exact later.grows (by simp)
  | skip isInclude isPath _ _ ih => exact ih (asksOnce_include isInclude isPath ▸ asks)
  | file isInclude isPath _ _ _ _ _ _ ih => exact ih (asksOnce_include isInclude isPath ▸ asks)
  | plain stays _ ih =>
    refine ih ?_
    rwa [asksOnce, List.any_cons, stays, Bool.false_or] at asks

/-- What was put in for a path are the tokens of the file there. -/
theorem holds (made : library.Made current stack once tokens pieces last) :
    ∀ entry ∈ pieces.files, (∃ spelling, library.canonical spelling = entry.1) ∧
      library.source? entry.1 = some entry.2 := by
  induction made with
  | done => exact nofun
  | once _ _ ih => exact ih
  | skip _ _ _ _ ih => exact ih
  | file _ _ _ _ holds _ _ within later =>
    exact List.forall_mem_cons.mpr
      ⟨⟨⟨_, rfl⟩, holds⟩, List.forall_mem_append.mpr ⟨within, later⟩⟩
  | plain _ _ ih => exact ih

/-- No file that was known is put in. -/
theorem fresh (made : library.Made current stack once tokens pieces last) :
    ∀ entry ∈ pieces.files, once.any (Path.same entry.1) = false := by
  induction made with
  | done => exact nofun
  | once _ _ ih =>
    intro entry member
    have both := ih entry member
    rw [List.any_cons, Bool.or_eq_false_iff] at both
    exact both.2
  | skip _ _ _ _ ih => exact ih
  | file _ _ fresh _ _ within _ inside later =>
    refine List.forall_mem_cons.mpr ⟨fresh, List.forall_mem_append.mpr ⟨inside, ?_⟩⟩
    intro entry member
    have unknown := later entry member
    rw [Bool.eq_false_iff] at unknown ⊢
    exact fun known => unknown (within.grows known)
  | plain _ _ ih => exact ih

/-- The files that were put in and ask to be included once are known. -/
theorem known (made : library.Made current stack once tokens pieces last) :
    ∀ entry ∈ pieces.files, asksOnce entry.2 = true → last.any (Path.same entry.1) = true := by
  induction made with
  | done => exact nofun
  | once _ _ ih => exact ih
  | skip _ _ _ _ ih => exact ih
  | file _ _ _ _ _ within after inside later =>
    refine List.forall_mem_cons.mpr ⟨fun asks => after.grows (within.marks asks), ?_⟩
    refine List.forall_mem_append.mpr ⟨fun entry member asks => ?_, later⟩
    exact after.grows (inside entry member asks)
  | plain _ _ ih => exact ih

/-- A file that was put in and asks to be included once is not put in again. -/
theorem single (made : library.Made current stack once tokens pieces last) :
    pieces.files.Pairwise fun earlier later =>
      asksOnce earlier.2 = true → Path.same later.1 earlier.1 = false := by
  induction made with
  | done => exact .nil
  | once _ _ ih => exact ih
  | skip _ _ _ _ ih => exact ih
  | file _ _ _ _ _ within after inside later =>
    refine List.pairwise_cons.mpr ⟨List.forall_mem_append.mpr ⟨?_, ?_⟩, ?_⟩
    · -- While the file is on the stack it cannot be put in again.
      intro entry member _
      have outer := within.apart.files entry member
      rw [List.any_cons, Bool.or_eq_false_iff] at outer
      exact outer.1
    · intro entry member asks
      exact not_same_of_known (within.marks asks) (after.fresh entry member)
    · refine List.pairwise_append.mpr ⟨inside, later, fun earlier member entry member' asks => ?_⟩
      exact not_same_of_known (within.known earlier member asks) (after.fresh entry member')
  | plain _ _ ih => exact ih

end Made

/-- The file at a path asks to be included once. -/
def AsksOnce (library : Library) (path : String) : Prop :=
  (library.source? path).any asksOnce = true

/-- However its path is spelt, a file that asks to be included once, the script among them, is once
at most among the script and the files that were put in. -/
def OnceOnly (library : Library) (script : String) (tokens : List Token) (pieces : Pieces) : Prop :=
  ∀ spelling, library.AsksOnce (library.canonical spelling) ∨
      Path.same (library.canonical spelling) (library.canonical script) = true ∧
        asksOnce tokens = true →
    ((library.canonical script, tokens) :: pieces.files).countP
      (fun entry => Path.same (library.canonical spelling) entry.1) ≤ 1

/-- What was put in for a file asks to be included once if the file does. -/
theorem Made.asks (made : library.Made current stack once tokens pieces last)
    (steady : library.Steady) {spelling : String}
    (asked : library.AsksOnce (library.canonical spelling)) {entry : String × List Token}
    (member : entry ∈ pieces.files)
    (same : Path.same (library.canonical spelling) entry.1 = true) : asksOnce entry.2 = true := by
  obtain ⟨source, found, asks⟩ := (Option.any_eq_true _ _).mp asked
  obtain ⟨canonical, holds⟩ := made.holds entry member
  have content := steady _ _ ⟨⟨_, rfl⟩, read_of_source? found⟩ ⟨canonical, read_of_source? holds⟩
    same
  rw [source?, content] at found
  rw [source?] at holds
  rwa [Option.some.inj (found.symm.trans holds)] at asks

/-- In a steady library, what is made for a script includes each once-only file once. -/
theorem onceOnly_of_made {script : String} (steady : library.Steady)
    (made : library.Made (library.canonical script) [library.canonical script] once tokens pieces
      last) : library.OnceOnly script tokens pieces := by
  intro spelling asked
  have apart (entry) (member : entry ∈ pieces.files) :
      Path.same (library.canonical script) entry.1 = false := by
    have outer := made.apart.files entry member
    rwa [List.any_cons, List.any_nil, Bool.or_false, Path.same_comm] at outer
  refine countP_le_one (List.pairwise_cons.mpr ⟨fun entry member isScript => ?_, ?_⟩)
  · rw [Path.same_congr isScript]
    exact apart entry member
  · rcases asked with asked | ⟨isScript, _⟩
    · refine made.single.imp_of_mem fun {earlier later} member _ exclude same => ?_
      rw [Path.same_congr same, Path.same_comm]
      exact exclude (made.asks steady asked member same)
    · refine List.pairwise_of_forall_mem_list fun earlier member later _ same => ?_
      rw [Path.same_congr isScript, apart earlier member] at same
      cases same

/-- What a script resolves to is made for it. -/
theorem made_of_resolveScript {fuel : Nat} {script : String} {progress : Progress}
    {after : Session}
    (ends : library.resolveScript fuel script tokens progress = .ok pieces after) :
    library.Made (library.canonical script) [library.canonical script] progress.once tokens pieces
      after.progress.once := by
  have fits : library.Fits [library.canonical script] := .script _
  have settled := resolve_settles 0 fuel (library.canonical script) fits tokens
    (.start (library.canonical script) progress) rfl rfl
  unfold resolveScript at ends
  rw [ends] at settled
  exact settled.2

end Library

/-- A file that asks to be included once contributes its tokens once at most: to what a session
resolves with the files of any library, and to what a script's includes are resolved to. -/
theorem asked_once_included_once :
    (∀ (library : Library) (fuel : Nat) (script : String) (tokens : List Token)
      (progress : Progress) (pieces : Pieces) (last : Session), library.Steady →
      library.resolveScript fuel script tokens progress = .ok pieces last →
      library.OnceOnly script tokens pieces) ∧
    ∀ (host : Host) (script : String) (tokens out : List Token) (progress last : Progress),
      resolve host script tokens progress = .ok out last →
      ∃ pieces session,
        (Library.ofHost host).resolveScript (depth + 1) script tokens progress =
          .ok pieces session ∧
        pieces.tokens = out ∧ (Library.ofHost host).OnceOnly script tokens pieces := by
  refine ⟨fun library fuel script tokens progress pieces last steady ends =>
    Library.onceOnly_of_made steady (Library.made_of_resolveScript ends), ?_⟩
  intro host script tokens out progress last included
  have shows := Library.resolveScript_shows (Library.ofHost_bounded host) (Nat.lt_succ_self depth)
    script tokens progress
  rw [included] at shows
  unfold Library.Shows at shows
  split at shows
  · rename_i pieces session ends
    cases shows
    exact ⟨pieces, session, ends, rfl, Library.onceOnly_of_made (Library.ofHost_steady host)
      (Library.made_of_resolveScript ends)⟩
  · cases shows
  · cases shows

/-- A script and a file that asks to be included once, in its last line, with a file that includes
it. -/
def sharedHost : Host :=
  { files := ⟨#[.directory [("script", 1), ("part", 2), ("folder", 3)],
      .file (Text.Utf8.encode "#include \"part\"\n#include \"./part\"\n#include \"folder/user\""),
      .file (Text.Utf8.encode "$x = 1\n#include-once"),
      .directory [("user", 4)],
      .file (Text.Utf8.encode "#include \"../part\"")]⟩ }

/-- The tokens of the script. -/
def sharedTokens : List Token :=
  (tokenize "#include \"part\"\n#include \"./part\"\n#include \"folder/user\"").toOption.getD []

/-- A file that two includes share and that asks for it is spliced in once. -/
theorem asked_once_included_once_shared :
    ∃ out last pieces session, resolve sharedHost "script" sharedTokens {} = .ok out last ∧
      (Library.ofHost sharedHost).resolveScript (depth + 1) "script" sharedTokens {} =
        .ok pieces session ∧
      pieces.tokens = out ∧
      (((Library.ofHost sharedHost).canonical "script", sharedTokens) :: pieces.files).countP
        (fun entry =>
          Path.same ((Library.ofHost sharedHost).canonical "folder/../part") entry.1) ≤ 1 := by
  have asks : (Library.ofHost sharedHost).AsksOnce
      ((Library.ofHost sharedHost).canonical "folder/../part") := by
    unfold Library.AsksOnce
    decide +kernel
  have succeeds : (resolve sharedHost "script" sharedTokens {} matches .ok _ _) = true := by
    decide +kernel
  cases included : resolve sharedHost "script" sharedTokens {} with
  | error fault last =>
    rw [included] at succeeds
    cases succeeds
  | ok out last =>
    obtain ⟨pieces, session, ends, tokens, _⟩ :=
      asked_once_included_once.2 sharedHost "script" sharedTokens out {} last included
    have once := asked_once_included_once.1 (.ofHost sharedHost) (depth + 1) "script" sharedTokens
      {} pieces session (Library.ofHost_steady sharedHost) ends
    exact ⟨out, last, pieces, session, rfl, ends, tokens, once _ (.inl asks)⟩

end Include

end LineScript
