import LineScript.Proofs.Include.Stack

/-!
# Includes are always resolved

A session in which files may be nested as deeply as there are files is never cut off, and what it
does no longer depends on how deep that is. It comes to the same end as including the files of the
host does. So includes are resolved or refused whatever files include each other, and the stack is
as it was in both cases (`Include.Library.includes_end`).
-/

namespace LineScript.Include

namespace Resolving

variable {α β : Type}

/-- The left action ends as the right one does, unless it is cut off. -/
def Below (left right : Resolving α) : Prop :=
  ∀ session, left session = right session ∨ ∃ last, left session = .error .starved last

namespace Below

/-- Every reading is below itself. -/
theorem refl (action : Resolving α) : action.Below action := fun _ => .inl rfl

/-- Sequences of readings below each other are below each other. -/
theorem bind {left right : Resolving α} {next other : α → Resolving β} (first : left.Below right)
    (rest : ∀ value, (next value).Below (other value)) :
    (left >>= next).Below (right >>= other) := by
  intro session
  simp only [Bind.bind, EStateM.bind]
  rcases first session with same | ⟨last, cut⟩
  · rw [same]
    cases right session with
    | ok value middle => exact rest value middle
    | error stop middle => exact .inl rfl
  · rw [cut]
    exact .inr ⟨last, rfl⟩

/-- A check made before an action. -/
theorem checked {condition : Prop} [Decidable condition] {cause : PrepareCause} {line : Nat}
    {left right : Resolving α} (below : left.Below right) :
    Below
      (do
        if condition then within (refuse cause line)
        left)
      (do
        if condition then within (refuse cause line)
        right) := by
  split
  · exact (refl _).bind fun _ => below
  · exact below

/-- Opening a file around readings keeps the order between them. -/
theorem opened {left right : Resolving α} {path : String} (below : left.Below right) :
    (left.opened path).Below (right.opened path) := by
  intro session
  unfold Resolving.opened
  rcases below (session.enter path) with same | ⟨last, cut⟩
  · exact .inl (by rw [same])
  · exact .inr ⟨_, by rw [cut]⟩

/-- A reading that does not lack fuel agrees with every reading above it. -/
theorem eq_of_not_cut {left right : Resolving α} (below : left.Below right) {session : Session}
    (ended : ∀ halt last, left session ≠ .error (.halted halt) last) :
    right session = left session := by
  rcases below session with same | ⟨last, cut⟩
  · exact same.symm
  · exact absurd cut (ended _ last)

end Below

/-- Begun with this stack, a session comes to the end that including comes to, unless it is cut off.
The stack is as it was if it goes on. -/
def Mirrors (stack : List String) (flat : α → β) (staged : Resolving α) (plain : Including β) :
    Prop :=
  ∀ session : Session, session.stack = stack →
    match staged session with
    | .ok value last =>
      last.stack = stack ∧ plain session.progress = .ok (flat value) last.progress
    | .error (.fault fault) last => plain session.progress = .error fault last.progress
    | .error (.halted _) _ => True

namespace Mirrors

variable {stack : List String} {flat : α → β}

/-- Returning a value mirrors returning what it flattens to. -/
theorem pure {value : α} {result : β} (same : flat value = result) :
    Mirrors stack flat (Pure.pure value) (Pure.pure result) :=
  fun _ isStack => ⟨isStack, congrArg (EStateM.Result.ok · _) same.symm⟩

/-- Faults mirror each other. -/
theorem throw {fault : Fault} :
    Mirrors stack flat (throw (.fault fault) : Resolving α) (throw fault) := fun _ _ => rfl

/-- A plain reading mirrors itself within a session. -/
theorem within {action : Including α} : Mirrors stack id (within action) action := by
  intro session isStack
  unfold Resolving.within
  cases action session.progress with
  | ok value progress => exact ⟨isStack, rfl⟩
  | error fault progress => rfl

/-- Refusals mirror each other. -/
theorem refuse {cause : PrepareCause} {line : Nat} :
    Mirrors stack flat (Resolving.within (Include.refuse cause line : Including α))
      (Include.refuse cause line) := fun _ _ => rfl

/-- Sequences of readings that mirror each other mirror each other. -/
theorem bind {γ δ : Type} {first : Resolving α} {plain : Including β} {next : α → Resolving γ}
    {other : β → Including δ} {flat' : γ → δ} (mirrors : Mirrors stack flat first plain)
    (rest : ∀ value, Mirrors stack flat' (next value) (other (flat value))) :
    Mirrors stack flat' (first >>= next) (plain >>= other) := by
  intro session isStack
  have here := mirrors session isStack
  simp only [Bind.bind, EStateM.bind]
  rcases ran : first session with ⟨value, middle⟩ | ⟨_ | _, middle⟩ <;> rw [ran] at here
  · rw [here.2]
    exact rest value middle here.1
  · rw [here]
  · trivial

/-- What the session makes of its value does not change what the value stands for. -/
theorem map {γ : Type} {action : Resolving α} {plain : Including β} {make : α → γ} {flat' : γ → β}
    (mirrors : Mirrors stack flat action plain) (same : ∀ value, flat' (make value) = flat value) :
    Mirrors stack flat' (action >>= fun value => Pure.pure (make value)) plain := by
  rw [← bind_pure plain]
  exact mirrors.bind fun value => .pure (same value)

/-- Both look at what was included. -/
theorem get {next : Session → Resolving α} {other : Progress → Including β}
    (rest : ∀ session : Session, session.stack = stack →
      Mirrors stack flat (next session) (other session.progress)) :
    Mirrors stack flat (MonadState.get >>= next) (MonadState.get >>= other) :=
  fun session isStack => rest session isStack session isStack

/-- The session looks at its stack. -/
theorem look {next : Session → Resolving α} {plain : Including β}
    (rest : ∀ session : Session, session.stack = stack → Mirrors stack flat (next session) plain) :
    Mirrors stack flat (MonadState.get >>= next) plain :=
  fun session isStack => rest session isStack session isStack

/-- A check made before an action. -/
theorem checked {condition : Prop} [Decidable condition] {cause : PrepareCause} {line : Nat}
    {action : Resolving α} {plain : Including β} (mirrors : Mirrors stack flat action plain) :
    Mirrors stack flat
      (do
        if condition then Resolving.within (Include.refuse cause line)
        action)
      (do
        if condition then Include.refuse cause line
        plain) := by
  split
  · exact (refuse : Mirrors stack id _ _).bind fun _ => mirrors
  · exact mirrors

/-- What is done with a file on the stack. -/
theorem opened {path : String} {action : Resolving α} {plain : Including β}
    (mirrors : Mirrors (path :: stack) flat action plain) :
    Mirrors stack flat (Resolving.opened path action)
      (noteAfter ("preprocess: include " ++ path ++ " preloaded successfully") plain) := by
  intro session isStack
  subst isStack
  have here : match action (session.enter path) with
      | .ok value last =>
        last.stack = path :: session.stack ∧
          plain session.progress = .ok (flat value) last.progress
      | .error (.fault fault) last => plain session.progress = .error fault last.progress
      | .error (.halted _) _ => True := mirrors (session.enter path) rfl
  unfold Resolving.opened noteAfter
  dsimp only
  rcases ran : action (session.enter path) with ⟨value, last⟩ | ⟨_ | _, last⟩ <;> rw [ran] at here
  · rw [here.2]
    exact ⟨congrArg List.tail here.1, rfl⟩
  · rw [here]
    rfl
  · trivial

end Mirrors

end Resolving

namespace Library

open Resolving

variable {library : Library} {host : Host} {stack : List String}

/-- Including a file keeps the order between the ways to resolve it. -/
theorem includeFile_below {low high : String → List Token → Resolving Pieces}
    (below : ∀ path source, (low path source).Below (high path source)) (path : String)
    (line : Nat) :
    (library.includeFile low path line).Below (library.includeFile high path line) := by
  unfold includeFile Resolver.includeFile
  dsimp only [pieced]
  refine (Below.refl _).bind fun session => ?_
  split
  · exact .refl _
  · refine (Below.refl _).bind fun session => .checked ?_
    split
    · exact .refl _
    · split
      · exact .refl _
      · exact (below _ _).opened.bind fun _ => .refl _

/-- Resolving tokens keeps the order between the ways to splice. -/
theorem resolveWith_below {low high : String → Nat → Resolving Pieces} {current : String}
    (below : ∀ path line, (low path line).Below (high path line)) :
    ∀ (tokens : List Token) (lineStart : Bool),
      (library.resolveWith low current lineStart tokens).Below
        (library.resolveWith high current lineStart tokens)
  | [], _ => by
    unfold resolveWith Resolver.resolveWith
    dsimp only [pieced]
    exact .refl _
  | token :: rest, lineStart => by
    unfold resolveWith Resolver.resolveWith
    dsimp only [pieced]
    split
    · exact .checked ((Below.refl _).bind fun _ => resolveWith_below below rest lineStart)
    · split
      · refine .checked ?_
        cases rest with
        | nil => exact .refl _
        | cons named after =>
          exact (Below.refl _).bind fun path => (below _ _).bind fun spliced =>
            (resolveWith_below below after false).bind fun later => .refl _
      · split
        · exact .refl _
        · exact (resolveWith_below below rest token.endsLine).bind fun later => .refl _

/-- A session is cut off no sooner when more files may be nested. -/
theorem resolve_below {fuel more : Nat} (le : fuel ≤ more) (current : String)
    (tokens : List Token) :
    (library.resolve fuel current tokens).Below (library.resolve more current tokens) := by
  induction fuel generalizing more current tokens with
  | zero => exact fun session => .inr ⟨session, rfl⟩
  | succ fuel ih =>
    obtain ⟨more, rfl⟩ := Nat.exists_eq_add_of_lt le
    exact resolveWith_below
      (includeFile_below fun path source => ih (Nat.le_add_right _ _) path source) tokens true

/-- Including a file mirrors the plain way when resolving its tokens does. -/
theorem includeFile_mirrors {resolve : String → List Token → Resolving Pieces}
    {expand : List String → List Token → Including (List Token)} {path : String} {line : Nat}
    (mirrors : ∀ source, Mirrors (path :: stack) Pieces.tokens (resolve path source)
      (expand (path :: stack) source)) :
    Mirrors stack Pieces.tokens ((ofHost host).includeFile resolve path line)
      (spliceFile host expand stack path line) := by
  unfold includeFile spliceFile Resolver.includeFile
  dsimp only [pieced, flat_step, flat_done, flat_token, flat_append]
  refine .get fun session isStack => ?_
  split
  · exact Mirrors.within.bind fun _ => .pure rfl
  · refine .look fun session isStack => ?_
    rw [isStack]
    refine .checked ?_
    rw [show (ofHost host).read path = host.files.read host.directory path from rfl]
    cases host.files.read host.directory path with
    | error reason => exact .refuse
    | ok bytes =>
      dsimp only
      cases tokenize (Text.Utf8.decode bytes) with
      | error fault => exact .throw
      | ok source =>
        exact (mirrors source).opened.map fun inside => by simp [Pieces.tokens]

/-- Resolving tokens mirrors the plain way when splicing does. -/
theorem resolveWith_mirrors {splice : String → Nat → Resolving Pieces}
    {plain : String → Nat → Including (List Token)} {current : String}
    (mirrors : ∀ path line, Mirrors stack Pieces.tokens (splice path line) (plain path line)) :
    ∀ (tokens : List Token) (lineStart : Bool),
      Mirrors stack Pieces.tokens ((ofHost host).resolveWith splice current lineStart tokens)
        (expandWith host plain current lineStart tokens)
  | [], _ => by
    unfold resolveWith expandWith Resolver.resolveWith
    dsimp only [pieced, flat_step, flat_done, flat_token, flat_append]
    exact .pure rfl
  | token :: rest, lineStart => by
    unfold resolveWith expandWith Resolver.resolveWith
    dsimp only [pieced, flat_step, flat_done, flat_token, flat_append]
    split
    · exact .checked (Mirrors.within.bind fun _ => resolveWith_mirrors mirrors rest lineStart)
    · split
      · refine .checked ?_
        cases rest with
        | nil => exact .refuse
        | cons named after =>
          exact Mirrors.within.bind fun path => (mirrors _ _).bind fun spliced =>
            (resolveWith_mirrors mirrors after false).bind fun later =>
              .pure (by rw [Pieces.tokens_append]; rfl)
      · split
        · exact .refuse
        · exact (resolveWith_mirrors mirrors rest token.endsLine).bind fun later => .pure rfl

/-- Including the files of a host is what a session does with them. -/
theorem resolve_mirrors (host : Host) (fuel : Nat) (current : String) (outer : List String)
    (tokens : List Token) :
    Mirrors (current :: outer) Pieces.tokens ((ofHost host).resolve fuel current tokens)
      (expand host fuel (current :: outer) tokens) := by
  induction fuel generalizing current outer tokens with
  | zero => exact fun _ _ => trivial
  | succ fuel ih =>
    exact resolveWith_mirrors (fun path line => includeFile_mirrors fun source => ih _ _ _) tokens
      true

section

variable {count fuel more : Nat} {session : Session} (current : String) (tokens : List Token)

/-- A session that may nest as many files as there are is not cut off. -/
theorem resolve_uncut (bounded : library.Bounded count) (fits : library.Fits session.stack)
    (enough : count + 1 < fuel + session.stack.length) (halt : Halt) (last : Session) :
    library.resolve fuel current tokens session ≠ .error (.halted halt) last := by
  intro cut
  have settled := resolve_settles count fuel current fits tokens session rfl rfl
  rw [cut] at settled
  exact settled.2 ⟨bounded, enough⟩ halt rfl

variable {current tokens}

/-- What a session does that is not cut off does not depend on how many files may be nested. -/
theorem resolve_eq
    (uncut : ∀ halt last,
      library.resolve fuel current tokens session ≠ .error (.halted halt) last)
    (uncut' : ∀ halt last,
      library.resolve more current tokens session ≠ .error (.halted halt) last) :
    library.resolve fuel current tokens session = library.resolve more current tokens session := by
  rcases Nat.le_total fuel more with le | le
  · exact ((resolve_below le current tokens).eq_of_not_cut uncut).symm
  · exact (resolve_below le current tokens).eq_of_not_cut uncut'

end

/-- The stack holds no file twice and is no higher than this. -/
def Orderly (height : Nat) (stack : List String) : Prop :=
  Path.Distinct stack ∧ stack.length ≤ height

/-- A session came to an end without being cut off. Its stack is as it was at the beginning, every
stack on the way was orderly, and if it did not stop with a fault, no file was put inside itself. -/
def Completes (height : Nat) (entry : Session) (outcome : EStateM.Result Stop Session Pieces) :
    Prop :=
  match outcome with
  | .ok pieces last => entry.Keeps (Orderly height) last ∧ pieces.Apart entry.stack
  | .error stop last => entry.Keeps (Orderly height) last ∧ ∀ halt, stop ≠ .halted halt

/-- In a library of so many files, resolving completes with one more look than there are files. -/
theorem resolve_completes {count fuel : Nat} {entry : Session} (bounded : library.Bounded count)
    (fits : library.Fits entry.stack) (enough : count + 1 < fuel + entry.stack.length)
    (current : String) (tokens : List Token) :
    Completes (count + 1) entry (library.resolve fuel current tokens entry) := by
  have settled := resolve_settles count fuel current fits tokens entry rfl rfl
  have orderly (stack : List String) (fits : library.Fits stack) : Orderly (count + 1) stack :=
    ⟨fits.distinct, fits.length_le bounded⟩
  unfold Completes
  cases ran : library.resolve fuel current tokens entry with
  | ok pieces last =>
    rw [ran] at settled
    exact ⟨settled.1.mono orderly, settled.2.apart⟩
  | error stop last =>
    rw [ran] at settled
    exact ⟨settled.1.mono orderly, settled.2 ⟨bounded, enough⟩⟩

/-- Including comes to the end that a session comes to. -/
def Shows (outcome : EStateM.Result Stop Session Pieces)
    (included : EStateM.Result Fault Progress (List Token)) : Prop :=
  match outcome with
  | .ok pieces last => included = .ok pieces.tokens last.progress
  | .error (.fault fault) last => included = .error fault last.progress
  | .error (.halted _) _ => False

/-- A session with a script that may nest as many files as there are is not cut off. -/
theorem resolveScript_uncut {count fuel : Nat} (bounded : library.Bounded count)
    (enough : count < fuel) (script : String) (tokens : List Token) (progress : Progress)
    (halt : Halt) (last : Session) :
    library.resolveScript fuel script tokens progress ≠ .error (.halted halt) last := by
  have fits : library.Fits (Session.start (library.canonical script) progress).stack := .script _
  exact resolve_uncut _ tokens bounded fits (Nat.succ_lt_succ enough) halt last

/-- Including the files of a host comes to the end that every session comes to that may nest as many
files as the host has. -/
theorem resolveScript_shows {count fuel : Nat} (bounded : (ofHost host).Bounded count)
    (enough : count < fuel) (script : String) (tokens : List Token) (progress : Progress) :
    Shows ((ofHost host).resolveScript fuel script tokens progress)
      (Include.resolve host script tokens progress) := by
  have uncut := resolveScript_uncut (ofHost_bounded host) (Nat.lt_succ_self depth) script tokens
    progress
  have same : (ofHost host).resolveScript fuel script tokens progress =
      (ofHost host).resolveScript (depth + 1) script tokens progress :=
    resolve_eq (resolveScript_uncut bounded enough script tokens progress) uncut
  have mirrors := resolve_mirrors host (depth + 1) ((ofHost host).canonical script) [] tokens
    (.start ((ofHost host).canonical script) progress) rfl
  rw [same]
  unfold resolveScript Shows Include.resolve
  rcases ran : (ofHost host).resolve (depth + 1) ((ofHost host).canonical script) tokens
    (.start ((ofHost host).canonical script) progress) with ⟨pieces, last⟩ | ⟨_ | _, last⟩ <;>
    rw [ran] at mirrors
  · exact mirrors.2
  · exact mirrors
  · exact uncut _ last ran

/-- Includes are resolved or refused whatever files include each other. A session entered with any
stack of files comes to an end, which does not depend on how many files may be nested if that is
more than there are. It keeps its stack, which at no time holds a file twice or is higher than the
number of files and one, and no file is put inside itself. Including the files of a host comes to
the same end, and the files of every host can be listed. -/
theorem includes_end (library : Library) (files : List String) (covered : library.Covered files)
    (current : String) (tokens : List Token) (entry : Session) (fits : library.Fits entry.stack) :
    (∃ outcome, Completes (files.length + 1) entry outcome ∧
      ∀ fuel, files.length + 1 < fuel + entry.stack.length →
        library.resolve fuel current tokens entry = outcome) ∧
    Orderly (files.length + 1) entry.stack ∧
    (∀ host script progress fuel, library = ofHost host → files.length < fuel →
      Shows (library.resolveScript fuel script tokens progress)
        (Include.resolve host script tokens progress)) ∧
    ∀ host, ∃ listed, (ofHost host).Covered listed := by
  have bounded := covered.bounded
  have enough : files.length + 1 < files.length + 2 + entry.stack.length := by omega
  refine ⟨⟨_, resolve_completes bounded fits enough current tokens, fun fuel enough' => ?_⟩,
    ⟨fits.distinct, fits.length_le bounded⟩, ?_, ofHost_covered⟩
  · exact resolve_eq (resolve_uncut current tokens bounded fits enough')
      (resolve_uncut current tokens bounded fits enough)
  · rintro host script progress fuel rfl enough
    exact resolveScript_shows bounded enough script tokens progress

/-- Two files that include each other. -/
def mutualFiles : Library where
  canonical path := path
  read path :=
    if path = "/first" then .ok (Text.Utf8.encode "#include \"second\"")
    else if path = "/second" then .ok (Text.Utf8.encode "#include \"first\"")
    else .error .notFound

/-- The two files that include each other are covered by their list. -/
theorem mutualFiles_covered : mutualFiles.Covered ["/first", "/second"] := by
  rintro path ⟨_, bytes, read⟩
  simp only [mutualFiles] at read
  split at read
  · exact ⟨_, List.mem_cons_self, by simp [*]⟩
  · split at read
    · exact ⟨"/second", by simp, by simp [*]⟩
    · cases read

/-- The tokens of the first file. -/
def firstTokens : List Token := (tokenize "#include \"second\"").toOption.getD []

/-- Two files that include each other come to an end, and the second is not entered again. -/
theorem includes_end_mutual :
    mutualFiles.Covered ["/first", "/second"] ∧
    mutualFiles.Fits (Session.start "/first" {}).stack ∧
    ∃ outcome, Completes 3 (.start "/first" {}) outcome ∧ ∀ fuel, 3 < fuel + 1 →
      mutualFiles.resolve fuel "/first" firstTokens (.start "/first" {}) = outcome :=
  ⟨mutualFiles_covered, .script _, (includes_end mutualFiles _ mutualFiles_covered "/first"
    firstTokens (.start "/first" {}) (.script _)).1⟩

/-- The first file is found on the stack when the second one includes it. -/
example : (match mutualFiles.resolve 3 "/first" firstTokens (.start "/first" {}) with
    | .error (.fault fault) last =>
      fault == .preparing (.includeCycle "/first") 1 && last.moments ==
        [["/first"], ["/second", "/first"], ["/first"]]
    | _ => false) = true := by decide +kernel

end Library

end LineScript.Include
