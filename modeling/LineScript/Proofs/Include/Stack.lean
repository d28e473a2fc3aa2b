import LineScript.Machine.Basic
import LineScript.Proofs.Include.Paths
import LineScript.Proofs.Origin.Include

/-!
# The stack of includes

Including is watched in sessions, which keep the files that are being included in view. From what sessions
do follows how high their stack gets.
-/

namespace LineScript

/-!
## Including with a stack in view

Resolving includes asks which files are being included, and forgets what was included where. A
session keeps both in view: its stack of paths is pushed and popped as files begin and end, every
stack that there ever was is recorded, and the tokens are kept in the pieces that they came in. The
files are those of any library, and a session is cut off rather than refused when files are nested
too deeply. `Include.Library.resolve` does in a session what `Include.resolve` does.
-/

namespace Include

/-- What the tokens of a file were resolved to, with the files that were put in. -/
inductive Pieces where
  /-- Nothing is left. -/
  | done
  /-- A token, and what is behind it. -/
  | token (token : Token) (rest : Pieces)
  /-- What the tokens of an included file were resolved to, and what is behind the file. -/
  | file (path : String) (source : List Token) (inside rest : Pieces)
deriving DecidableEq

namespace Pieces

/-- The first pieces with the others behind them. -/
def append : Pieces → Pieces → Pieces
  | done, later => later
  | token first rest, later => token first (rest.append later)
  | file path source inside rest, later => file path source inside (rest.append later)

instance : Append Pieces := ⟨append⟩

/-- The tokens of all pieces. -/
def tokens : Pieces → List Token
  | done => []
  | token first rest => first :: rest.tokens
  | file _ _ inside rest => inside.tokens ++ rest.tokens

/-- The files that were put in, wherever, each with its own tokens. -/
def files : Pieces → List (String × List Token)
  | done => []
  | token _ rest => rest.files
  | file path source inside rest => (path, source) :: (inside.files ++ rest.files)

/-- No file was put in that is one of the outer ones, and none was put inside itself. -/
def Apart : List String → Pieces → Prop
  | _, done => True
  | outer, token _ rest => rest.Apart outer
  | outer, file path _ inside rest =>
    outer.any (Path.same path) = false ∧ inside.Apart (path :: outer) ∧ rest.Apart outer

/-- No pieces in front of others are those others. -/
@[simp] theorem done_append (later : Pieces) : done ++ later = later := rfl

/-- A file in front of other pieces has them behind it. -/
@[simp] theorem file_append (path : String) (source : List Token) (inside rest later : Pieces) :
    file path source inside rest ++ later = file path source inside (rest ++ later) := rfl

/-- The tokens of appended pieces are the appended tokens. -/
@[simp] theorem tokens_append (first later : Pieces) :
    (first ++ later).tokens = first.tokens ++ later.tokens := by
  induction first with
  | done => rfl
  | token first rest ih => exact congrArg (first :: ·) ih
  | file path source inside rest _ ih =>
    simp only [file_append, tokens, ih, List.append_assoc]

end Pieces

/-- What resolving includes changes, with the files that are being included. -/
structure Session where
  /-- Files to be included once, and notes. -/
  progress : Progress
  /-- The paths of the files that are being included, innermost first. -/
  stack : List String
  /-- Every stack that there was, the latest first. -/
  moments : List (List String)

namespace Session

/-- A session that begins with a script. -/
def start (script : String) (progress : Progress) : Session := ⟨progress, [script], [[script]]⟩

/-- A file is being included. -/
def enter (path : String) (session : Session) : Session :=
  { session with stack := path :: session.stack
                 moments := (path :: session.stack) :: session.moments }

/-- The file on top of the stack is left. -/
def leave (session : Session) : Session :=
  { session with stack := session.stack.tail
                 moments := session.stack.tail :: session.moments }

/-- A note for the trace. -/
def noted (text : String) (session : Session) : Session :=
  { session with
    progress := { session.progress with notes := session.progress.notes.push text } }

end Session

/-- What is done in a session goes on, stops with a fault, or is cut off. -/
abbrev Resolving := EStateM Stop Session

namespace Resolving

variable {α : Type}

/-- Does in a session what including does. -/
def within (action : Including α) : Resolving α := fun session =>
  match action session.progress with
  | .ok value progress => .ok value { session with progress }
  | .error fault progress => .error (.fault fault) { session with progress }

/-- Does something with a file on the stack, which is taken off again however that ends. -/
def opened (path : String) (action : Resolving α) : Resolving α := fun session =>
  let closed (last : Session) : Session :=
    last.leave.noted ("preprocess: include " ++ path ++ " preloaded successfully")
  match action (session.enter path) with
  | .ok value last => .ok value (closed last)
  | .error stop last => .error stop (closed last)

end Resolving

namespace Library

open Resolving

variable (library : Library)

/-- The canonical path of a file named by an include in the file `current`. -/
def located (current path : String) : String :=
  library.canonical (Path.join ((Path.parent? current).getD ".") path)

/-- Tokens are resolved in a session, to the pieces that they come in. -/
def pieced : Resolver Resolving Pieces where
  step := within
  done := .done
  token := .token
  append spliced later := spliced ++ later

/-- Includes one file. -/
def includeFile (resolve : String → List Token → Resolving Pieces) (path : String) (line : Nat) :
    Resolving Pieces :=
  pieced.includeFile library.read (fun path => return (← get).stack.any (Path.same path))
    (fun path source => do
      let inside ← opened path (resolve path source)
      return .file path source inside .done)
    path line

/-- Resolves the includes of the tokens of the file `current`; `splice` includes one file. -/
def resolveWith (splice : String → Nat → Resolving Pieces) (current : String) (lineStart : Bool)
    (tokens : List Token) : Resolving Pieces :=
  pieced.resolveWith splice (library.located current) current lineStart tokens

/-- Resolves the includes of the tokens of the file `current`. Where more than `fuel` files are
nested this is cut off. -/
def resolve : (fuel : Nat) → (current : String) → List Token → Resolving Pieces
  | 0, _, _ => throw .starved
  | fuel + 1, current, tokens =>
    library.resolveWith (library.includeFile (resolve fuel)) current true tokens

/-- A whole session: resolves the includes of a script. -/
def resolveScript (fuel : Nat) (script : String) (tokens : List Token) (progress : Progress) :
    EStateM.Result Stop Session Pieces :=
  library.resolve fuel (library.canonical script) tokens
    (.start (library.canonical script) progress)

end Library

/-!
## The stack of includes

A file goes on the stack only if it is neither on it nor asked to be included once, and it comes off
again however its own includes end. So the stack never holds a file twice, and it is no higher than
there are files (`Include.Library.resolve_settles`). What a successful run did is kept as a
derivation (`Include.Library.Made`), which says for every file that was put in why it could be.
-/

namespace Library

variable {library : Library} {stack : List String} {path : String} {count : Nat}

/-- No file is on the stack twice, and all but the outermost one are files of the library. -/
structure Fits (library : Library) (stack : List String) : Prop where
  /-- No two paths of the stack are the same. -/
  distinct : Path.Distinct stack
  /-- All but the script were read. -/
  has : ∀ path ∈ stack.dropLast, library.Has path

/-- The stack of the script alone fits. -/
theorem Fits.script (path : String) : library.Fits [path] :=
  ⟨List.pairwise_singleton _ _, nofun⟩

/-- A file of the library that is not on the stack may be put on it. -/
theorem Fits.cons (fits : library.Fits stack) (apart : stack.any (Path.same path) = false)
    (has : library.Has path) : library.Fits (path :: stack) := by
  refine ⟨Path.distinct_cons.mpr ⟨apart, fits.distinct⟩, ?_⟩
  cases stack with
  | nil => exact nofun
  | cons top outer =>
    rw [List.dropLast_cons_of_ne_nil (List.cons_ne_nil _ _)]
    exact List.forall_mem_cons.mpr ⟨has, fits.has⟩

/-- The stack is no higher than there are files, the script aside. -/
theorem Fits.length_le (fits : library.Fits stack) (bounded : library.Bounded count) :
    stack.length ≤ count + 1 := by
  have below := bounded _ (fits.distinct.sublist (List.dropLast_sublist stack)) fits.has
  rw [List.length_dropLast] at below
  omega

/-- How the tokens of the file `current` were resolved, from the files asked to be included once
before to those after. -/
inductive Made (library : Library) : (current : String) → (stack once : List String) →
    List Token → Pieces → (last : List String) → Prop
  /-- No token is left. -/
  | done {current : String} {stack once : List String} :
    Made library current stack once [] .done once
  /-- The file asks to be included once. -/
  | once {current : String} {stack once last : List String} {flag : Token} {rest : List Token}
    {pieces : Pieces} (asks : flag.isFlag "include-once" = true)
    (later : Made library current stack (current :: once) rest pieces last) :
    Made library current stack once (flag :: rest) pieces last
  /-- An include of a file that is not included again. -/
  | skip {current : String} {stack once last : List String} {flag named : Token}
    {after : List Token} {pieces : Pieces} (asks : flag.isFlag "include" = true)
    (isPath : named.kind = .string)
    (known : once.any (Path.same (library.located current named.lexeme)) = true)
    (later : Made library current stack once after pieces last) :
    Made library current stack once (flag :: named :: after) (.token .insertedEol pieces) last
  /-- An include of a file that is put in. -/
  | file {current : String} {stack once middle last : List String} {flag named : Token}
    {after source : List Token} {inside pieces : Pieces}
    (asks : flag.isFlag "include" = true) (isPath : named.kind = .string)
    (fresh : once.any (Path.same (library.located current named.lexeme)) = false)
    (apart : stack.any (Path.same (library.located current named.lexeme)) = false)
    (holds : library.source? (library.located current named.lexeme) = some source)
    (within : Made library (library.located current named.lexeme)
      (library.located current named.lexeme :: stack) once source inside middle)
    (later : Made library current stack middle after pieces last) :
    Made library current stack once (flag :: named :: after)
      (.file (library.located current named.lexeme) source inside (.token .insertedEol pieces)) last
  /-- A token that stays. -/
  | plain {current : String} {stack once last : List String} {token : Token} {rest : List Token}
    {pieces : Pieces} (stays : token.isFlag "include-once" = false)
    (later : Made library current stack once rest pieces last) :
    Made library current stack once (token :: rest) (.token token pieces) last

/-- A file is put in only where it is not being included. -/
theorem Made.apart {current : String} {once last : List String} {tokens : List Token}
    {pieces : Pieces} (made : library.Made current stack once tokens pieces last) :
    pieces.Apart stack := by
  induction made with
  | done => trivial
  | once _ _ ih => exact ih
  | skip _ _ _ _ ih => exact ih
  | file _ _ _ apart _ _ _ inner ih => exact ⟨apart, inner, ih⟩
  | plain _ _ ih => exact ih

end Library

/-- The stack is as it was, and every stack on the way was good. -/
structure Session.Keeps (good : List String → Prop) (before after : Session) : Prop where
  /-- The stack is as it was. -/
  stack : after.stack = before.stack
  /-- What was recorded stays recorded, and the stacks that were added are good. -/
  moments : ∃ fresh, after.moments = fresh ++ before.moments ∧ ∀ stack ∈ fresh, good stack

namespace Session.Keeps

variable {good : List String → Prop} {first middle last : Session}

/-- A session with the same stack and moments keeps what the first one had. -/
theorem of_same (stack : last.stack = first.stack) (moments : last.moments = first.moments) :
    first.Keeps good last :=
  ⟨stack, [], moments, nofun⟩

/-- Every session keeps its own. -/
theorem refl (session : Session) : session.Keeps good session := .of_same rfl rfl

/-- What is kept under a property is kept under a weaker one. -/
theorem mono {weaker : List String → Prop} (keeps : first.Keeps good last)
    (implies : ∀ stack, good stack → weaker stack) : first.Keeps weaker last := by
  obtain ⟨fresh, same, holds⟩ := keeps.moments
  exact ⟨keeps.stack, fresh, same, fun stack member => implies stack (holds stack member)⟩

/-- Keeping is transitive. -/
theorem trans (earlier : first.Keeps good middle) (later : middle.Keeps good last) :
    first.Keeps good last := by
  obtain ⟨fresh, same, holds⟩ := earlier.moments
  obtain ⟨fresh', same', holds'⟩ := later.moments
  refine ⟨later.stack.trans earlier.stack, fresh' ++ fresh, by simp [same, same'], ?_⟩
  exact List.forall_mem_append.mpr ⟨holds', holds⟩

/-- A file goes on the stack and comes off again. -/
theorem opened {path text : String} (outer : good first.stack)
    (inner : good (path :: first.stack)) (keeps : (first.enter path).Keeps good last) :
    first.Keeps good (last.leave.noted text) := by
  obtain ⟨fresh, same, holds⟩ := keeps.moments
  have stack : last.stack.tail = first.stack := by rw [keeps.stack]; rfl
  refine ⟨stack, first.stack :: fresh ++ [path :: first.stack], ?_, ?_⟩
  · simp [leave, noted, same, enter, keeps.stack]
  · exact List.forall_mem_append.mpr ⟨List.forall_mem_cons.mpr ⟨outer, holds⟩,
      List.forall_mem_singleton.mpr inner⟩

end Session.Keeps

namespace Resolving

variable {α β : Type} {good : List String → Prop} {enough : Prop} {stack once : List String}

/-- An action that begins with this stack and these files asked to be included once keeps the stack,
whether or not it stops. It is not cut off if there is enough fuel. -/
def Settles (good : List String → Prop) (enough : Prop) (stack once : List String)
    (action : Resolving α) (post : α → List String → Prop) : Prop :=
  ∀ before : Session, before.stack = stack → before.progress.once = once →
    match action before with
    | .ok value after => before.Keeps good after ∧ post value after.progress.once
    | .error stop after => before.Keeps good after ∧ (enough → ∀ halt, stop ≠ .halted halt)

namespace Settles

variable {post : α → List String → Prop} {later : β → List String → Prop}

/-- Returning a good value settles. -/
theorem pure {value : α} (holds : post value once) :
    Settles good enough stack once (Pure.pure value) post :=
  fun before _ same => ⟨.refl before, same ▸ holds⟩

/-- A fault settles. -/
theorem fault {fault : Fault} :
    Settles good enough stack once (throw (.fault fault) : Resolving α) post :=
  fun before _ _ => ⟨.refl before, fun _ _ => nofun⟩

/-- One reading after another settles when both do. -/
theorem bind {first : Resolving α} {next : α → Resolving β}
    (settles : Settles good enough stack once first post)
    (rest : ∀ value middle, post value middle →
      Settles good enough stack middle (next value) later) :
    Settles good enough stack once (first >>= next) later := by
  intro before isStack isOnce
  have here := settles before isStack isOnce
  simp only [Bind.bind, EStateM.bind]
  cases ran : first before with
  | error stop middle =>
    rw [ran] at here
    exact here
  | ok value middle =>
    rw [ran] at here
    obtain ⟨keeps, holds⟩ := here
    have there := rest value _ holds middle (keeps.stack.trans isStack) rfl
    dsimp only
    cases ended : next value middle <;> rw [ended] at there <;>
      exact ⟨keeps.trans there.1, there.2⟩

/-- A reading that settles settles with a weaker result. -/
theorem mono {action : Resolving α} {weaker : α → List String → Prop}
    (settles : Settles good enough stack once action post)
    (implies : ∀ value last, post value last → weaker value last) :
    Settles good enough stack once action weaker := by
  intro before isStack isOnce
  have here := settles before isStack isOnce
  cases ran : action before <;> rw [ran] at here
  · exact ⟨here.1, implies _ _ here.2⟩
  · exact here

/-- An action that looks at the session first. -/
theorem get {next : Session → Resolving β}
    (rest : ∀ session : Session, session.stack = stack → session.progress.once = once →
      Settles good enough stack once (next session) later) :
    Settles good enough stack once (MonadState.get >>= next) later :=
  fun before isStack isOnce => rest before isStack isOnce before isStack isOnce

/-- What including does leaves the stack alone. -/
theorem within {action : Including α}
    (does : ∀ progress : Progress, progress.once = once → match action progress with
      | .ok value progress => post value progress.once
      | .error _ _ => True) :
    Settles good enough stack once (Resolving.within action) post := by
  intro before _ isOnce
  have here := does before.progress isOnce
  unfold Resolving.within
  cases ran : action before.progress with
  | ok value progress =>
    rw [ran] at here
    exact ⟨.of_same rfl rfl, here⟩
  | error fault progress => exact ⟨.of_same rfl rfl, fun _ _ => nofun⟩

/-- A refused include settles. -/
theorem refuse {cause : PrepareCause} {line : Nat} :
    Settles good enough stack once (Resolving.within (Include.refuse cause line : Including α))
      post :=
  .within fun _ _ => trivial

/-- A check made before an action. -/
theorem checked {condition : Prop} [Decidable condition] {cause : PrepareCause} {line : Nat}
    {action : Resolving α}
    (settles : ¬condition → Settles good enough stack once action post) :
    Settles good enough stack once (do
      if condition then Resolving.within (Include.refuse cause line)
      action) post := by
  split
  · exact (refuse : Settles _ _ _ _ _ fun _ _ => False).bind fun _ _ never => never.elim
  · exact settles ‹_›

/-- What is done with a file on the stack. -/
theorem opened {path : String} {action : Resolving α} (outer : good stack)
    (inner : good (path :: stack))
    (settles : Settles good enough (path :: stack) once action post) :
    Settles good enough stack once (Resolving.opened path action) post := by
  intro before isStack isOnce
  subst isStack
  have here := settles (before.enter path) rfl isOnce
  unfold Resolving.opened
  dsimp only
  cases ran : action (before.enter path) <;> rw [ran] at here <;>
    exact ⟨here.1.opened outer inner, here.2⟩

/-- The target of an include is the text of its string token, and no file is marked by it. -/
theorem target {flag token : Token} :
    Settles good enough stack once (Resolving.within (Include.target flag token))
      fun path last => path = token.lexeme ∧ token.kind = .string ∧ last = once := by
  refine .within fun progress isOnce => ?_
  unfold Include.target
  by_cases isPath : token.kind = .string
  · rw [if_pos isPath]
    exact ⟨rfl, isPath, isOnce⟩
  · rw [if_neg isPath]
    by_cases library : token.isOperator "<" = true
    · rw [if_pos library]
      trivial
    · rw [if_neg library]
      trivial

end Settles

end Resolving

namespace Library

open Resolving

variable {library : Library} {count : Nat} {enough : Prop} {stack once : List String}

/-- What one include does: it leaves out a file that is not included again, or puts in one that was
not yet being included. -/
inductive Spliced (library : Library) (stack once : List String) (path : String) :
    Pieces → (last : List String) → Prop
  /-- The file is not included again. -/
  | skip (known : once.any (Path.same path) = true) : Spliced library stack once path .done once
  /-- The file is put in. -/
  | file {source : List Token} {inside : Pieces} {last : List String}
    (fresh : once.any (Path.same path) = false) (apart : stack.any (Path.same path) = false)
    (holds : library.source? path = some source)
    (within : Made library path (path :: stack) once source inside last) :
    Spliced library stack once path (.file path source inside .done) last

/-- Including a file settles when resolving its tokens does. -/
theorem includeFile_settles {resolve : String → List Token → Resolving Pieces} {path : String}
    {line : Nat} (canonical : ∃ spelling, library.canonical spelling = path)
    (fits : library.Fits stack)
    (resolves : ∀ source, library.Fits (path :: stack) →
      Settles library.Fits enough (path :: stack) once (resolve path source)
        (Made library path (path :: stack) once source)) :
    Settles library.Fits enough stack once (library.includeFile resolve path line)
      (Spliced library stack once path) := by
  unfold includeFile Resolver.includeFile
  dsimp only [pieced]
  refine .get fun session isStack isOnce => ?_
  rw [isOnce]
  split
  · rename_i known
    have noted (text : String) :
        Settles library.Fits enough stack once (within (note text)) fun _ last => last = once :=
      .within fun _ same => same
    refine (noted _).bind ?_
    rintro _ _ rfl
    exact .pure (.skip known)
  · rename_i fresh
    refine .get fun session isStack isOnce => ?_
    rw [isStack]
    refine .checked fun apart => ?_
    rw [Bool.not_eq_true] at fresh apart
    split
    · exact .refuse
    · rename_i bytes read
      split
      · exact .fault
      · rename_i source lexed
        have inner := fits.cons apart ⟨canonical, bytes, read⟩
        exact ((resolves source inner).opened fits inner).bind
          fun inside last made => .pure (.file fresh apart (source?_eq_some read lexed) made)

/-- Resolving a list of tokens settles when each splice does. -/
theorem resolveWith_settles {splice : String → Nat → Resolving Pieces} {current : String}
    (splices : ∀ once path line, (∃ spelling, library.canonical spelling = path) →
      Settles library.Fits enough stack once (splice path line)
        (Spliced library stack once path)) :
    ∀ (tokens : List Token) (lineStart : Bool) (once : List String),
      Settles library.Fits enough stack once (library.resolveWith splice current lineStart tokens)
        (Made library current stack once tokens)
  | [], _, _ => by
    unfold resolveWith Resolver.resolveWith
    dsimp only [pieced]
    exact .pure .done
  | token :: rest, lineStart, once => by
    unfold resolveWith Resolver.resolveWith
    dsimp only [pieced]
    split
    · rename_i asks
      have marked : Settles library.Fits enough stack once
          (within (modify fun progress => { progress with once := current :: progress.once }))
          fun _ last => last = current :: once :=
        .within fun _ same => congrArg (current :: ·) same
      refine .checked fun _ => marked.bind ?_
      rintro _ _ rfl
      exact (resolveWith_settles splices rest lineStart _).mono fun pieces last made =>
        .once (Token.isFlag_iff.mpr asks) made
    · rename_i notOnce
      split
      · rename_i asks
        have isInclude : token.isFlag "include" = true := Token.isFlag_iff.mpr asks
        refine .checked fun _ => ?_
        cases rest with
        | nil => exact .refuse
        | cons named after =>
          refine Settles.target.bind fun path middle found => ?_
          obtain ⟨rfl, isPath, rfl⟩ := found
          refine (splices _ _ _ ⟨_, rfl⟩).bind fun spliced middle put => ?_
          refine (resolveWith_settles splices after false middle).bind fun pieces last made => ?_
          refine .pure ?_
          cases put with
          | skip known => exact .skip isInclude isPath known made
          | file fresh apart holds within =>
            exact .file isInclude isPath fresh apart holds within made
      · split
        · exact .refuse
        · have stays : token.isFlag "include-once" = false := by simpa [Token.isFlag] using notOnce
          exact (resolveWith_settles splices rest token.endsLine once).bind
            fun pieces last made => .pure (.plain stays made)

/-- Resolving the includes of a file keeps the stack, whether or not it stops, and it is not cut off
when it may nest as many files as there are. -/
theorem resolve_settles (count fuel : Nat) (current : String) (fits : library.Fits stack)
    (tokens : List Token) :
    Settles library.Fits (library.Bounded count ∧ count + 1 < fuel + stack.length) stack once
      (library.resolve fuel current tokens) (Made library current stack once tokens) := by
  induction fuel generalizing current stack once tokens with
  | zero =>
    refine fun before _ _ => ⟨.refl before, fun ⟨bounded, enough⟩ => ?_⟩
    have height := fits.length_le bounded
    omega
  | succ fuel ih =>
    refine resolveWith_settles (fun once path line canonical => ?_) tokens true once
    refine includeFile_settles canonical fits fun source inner => ?_
    have enough : count + 1 < fuel + 1 + stack.length ↔
        count + 1 < fuel + (path :: stack).length := by
      rw [List.length_cons]
      omega
    rw [enough]
    exact ih path inner source

end Library

end Include

end LineScript
