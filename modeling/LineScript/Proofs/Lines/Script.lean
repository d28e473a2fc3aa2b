import LineScript.Proofs.Lines.Attempt

/-!
# Faults of a script point at its sources

Lines are counted from one when a source is read. So whatever stops the reading, preparing or running
of a script points at a line of the script or of a file that it includes, and so does every call that
the fault left. The exception is a value, call or parameter that is missing where an included file
ends without a line end: there the fault points at the line end put behind the file, with the line
zero (`Machine.faults_located`). A script that cannot be prepared leaves nothing behind to run.
-/

namespace LineScript

section

open Machine

namespace Lexer

/-- The next place is on no earlier line. -/
theorem Place.line_le_next (place : Place) (c : Char) : place.line ≤ (place.next c).line := by
  unfold Place.next
  split <;> simp

/-- The place after characters is on no earlier line. -/
theorem Place.line_le_after (place : Place) (chars : List Char) :
    place.line ≤ (place.after chars).line := by
  induction chars generalizing place with
  | nil => exact Nat.le_refl _
  | cons c chars ih => exact Nat.le_trans (place.line_le_next c) (ih _)

/-- No token stands above the place where reading starts. -/
theorem le_of_mem_lines (place : Place) (chars : List Char) :
    ∀ line ∈ (lexChars place chars).lines, place.line ≤ line := by
  unfold Lexed.lines
  fun_induction lexChars place chars with
  | case1 => exact List.forall_mem_nil _
  | case2 place rest ih =>
    exact fun line member => Nat.le_trans (place.line_le_next _) (ih line member)
  | case3 => simp [Fault.line]
  | case4 place first rest notBlank scanned _ token later ih =>
    have below : place.line ≤ ((place.next first).after scanned.taken).line :=
      Nat.le_trans (place.line_le_next _) (Place.line_le_after _ _)
    exact List.forall_mem_cons.mpr
      ⟨Nat.le_refl _, fun line member => Nat.le_trans below (ih line member)⟩

end Lexer

/-- The lines of a source are counted from one. -/
theorem pos_of_mem_lines (source : String) : ∀ line ∈ (lex source).lines, 0 < line :=
  Lexer.le_of_mem_lines _ _

namespace Program.Kept

/-- A program of kept tokens is one of tokens kept in a wider sense. -/
theorem mono {kept wider : Token → Prop} {program : Program} (holds : program.Kept kept)
    (widens : ∀ token, kept token → wider token) : program.Kept wider := by
  have anchored : ∀ {line : Nat}, Anchored kept line → Anchored wider line :=
    fun ⟨token, holds, same⟩ => ⟨token, widens token holds, same⟩
  exact ⟨fun block member token inside => widens token (holds.blocks block member token inside),
    fun site member => anchored (holds.calls site member),
    fun loop member => anchored (holds.loops loop member)⟩

end Program.Kept

namespace Include

variable {host : Host} {script source : String}

/-- The lines of a file that is read are counted from one. -/
theorem Reads.lines_pos {path : String} {lexed : Lexed}
    (reads : Reads host script (lex source) path lexed) : ∀ line ∈ lexed.lines, 0 < line := by
  cases reads with
  | script => exact pos_of_mem_lines _
  | file => exact pos_of_mem_lines _

/-- A line of the sources is counted from one. -/
theorem IsLine.pos {line : Nat} (isLine : IsLine host script (lex source) line) : 0 < line := by
  obtain ⟨_, _, reads, member⟩ := isLine
  exact reads.lines_pos line member

variable (host script source)

/-- The lines at which the tokens of a script stand. -/
def sites : Sites where
  isLine := IsLine host script (lex source)
  gaps := Splices host script (lex source)
  positive _ isLine := isLine.pos

/-- The fault points at a line of the script or of a file that it includes, or at a line end that
stands in none of them; the calls it left stand on such lines. -/
structure Locates (fault : Fault) : Prop where
  /-- Where it points. -/
  line : IsLine host script (lex source) fault.line ∧ 1 ≤ fault.line ∨
    Splices host script (lex source) ∧ fault.line = 0 ∧ fault.isLineEnd = true
  /-- The calls it left. -/
  calls : ∀ frame ∈ fault.calls, IsLine host script (lex source) frame.line ∧ 1 ≤ frame.line

variable {host script source} {fault : Fault}

/-- A fault that is blamed on the sites is located. -/
theorem locates_of_blames (blames : (sites host script source).Blames fault) :
    Locates host script source fault :=
  ⟨blames.line.imp_left fun isLine => ⟨isLine, IsLine.pos isLine⟩,
    fun frame member => ⟨blames.calls frame member, IsLine.pos (blames.calls frame member)⟩⟩

/-- What the passes blame stands at a token of the script. -/
theorem blames_of_isAt (isAt : fault.IsAt (Sited host script (lex source))) :
    (sites host script source).Blames fault := by
  obtain ⟨cause, token, sited, rfl, atEnd⟩ := isAt
  refine ⟨?_, nofun⟩
  rcases sited with isLine | ⟨gaps, rfl⟩
  · exact .inl isLine
  · exact .inr ⟨gaps, rfl, atEnd rfl⟩

end Include

namespace Machine

open Include

variable {host : Host} {path source : String}

/-- A machine is made for a source that can be read, and nothing else is done to it. -/
theorem ofSource_eq (host : Host) (path source : String) :
    ofSource host path source =
      match (lex source).fault with
      | some fault => .error fault
      | none => .ok (ofTokens host path (lex source).tokens) := by
  unfold ofSource tokenize
  dsimp only
  cases (lex source).fault <;> rfl

/-- A machine built from a source holds the tokens of the source. -/
theorem eq_ofTokens {host : Host} {path source : String} {machine : Machine}
    (built : ofSource host path source = .ok machine) :
    machine = ofTokens host path (lex source).tokens := by
  rw [ofSource_eq] at built
  split at built
  · cases built
  · cases built
    rfl

/-- A machine that was just made awaits its script. -/
theorem awaits_ofTokens (host : Host) (path source : String) :
    (sites host (host.absolutePath path) source).Awaits
      (ofTokens host path (lex source).tokens) := by
  refine ⟨⟨⟨?_, by simp [ofTokens], by simp [ofTokens]⟩, ?_, .inr ⟨trivial, rfl⟩⟩, ?_⟩
  · exact List.forall_mem_singleton.mpr allKept_nil
  · exact List.forall_mem_singleton.mpr allKept_nil
  · rintro _ ⟨⟩
    have yields := Program.prepare_yields host (host.absolutePath path) (lex source)
    show (sites host (host.absolutePath path) source).Prepares
      (Program.prepare host (host.absolutePath path) (lex source).tokens).result
    cases result : (Program.prepare host (host.absolutePath path) (lex source).tokens).result with
    | ok program =>
      rw [result] at yields
      exact Program.Kept.mono yields fun _ holds => holds.1.1
    | error fault =>
      rw [result] at yields
      rcases yields with ⟨isLine, none'⟩ | isAt
      · exact ⟨.inl isLine, by simp [none']⟩
      · exact blames_of_isAt isAt

/-- Whenever the reading, preparing or running of a script fails, however often that was tried
before, the fault and all calls that it left point at lines of the script and of the files that it
includes, counted from one. Only when a value, call or parameter is missing at the end of an included
file that does not end its last line, the fault points at line zero. -/
theorem faults_located (host : Host) (path source : String) :
    match ofSource host path source with
    | .error fault => Locates host (host.absolutePath path) source fault
    | .ok machine => ∀ (earlier : List Attempt) (attempt : Attempt),
      match attempt.act (machine.afterAll earlier) with
      | .error (.fault fault) _ => Locates host (host.absolutePath path) source fault
      | _ => True := by
  rw [ofSource_eq]
  cases stops : (lex source).fault with
  | some fault =>
    have blames := Reads.blames (.script : Reads host (host.absolutePath path) (lex source) _ _)
      stops (lexChars_fault stops)
    exact locates_of_blames ⟨.inl blames.1, by rw [blames.2]; exact nofun⟩
  | none =>
    intro earlier attempt
    have awaits := (awaits_ofTokens host path source).afterAll earlier
    split
    · rename_i fault after stopped
      exact locates_of_blames (awaits.explains stopped)
    · trivial

/-- The fault with which the preparing of a script stops. -/
def preparingFault? (host : Host) (path source : String) : Option Fault :=
  match ofSource host path source with
  | .error _ => none
  | .ok machine =>
    match prepare machine with
    | .error (.fault fault) _ => some fault
    | _ => none

/-- A fault read from a preparation stops the preparation of a built machine. -/
theorem preparingFault?_eq_some {fault : Fault}
    (stops : preparingFault? host path source = some fault) : ∃ machine after,
      ofSource host path source = .ok machine ∧ prepare machine = .error (.fault fault) after := by
  unfold preparingFault? at stops
  split at stops
  · cases stops
  · rename_i machine made
    split at stops
    · rename_i reason after prepared
      cases stops
      exact ⟨machine, after, made, prepared⟩
    · cases stops

/-- A call that is still open at the end of an included file is reported at line zero. -/
theorem faults_unlocated : ∃ host machine fault after,
    ofSource host "/main" "#include \"a\"\n" = .ok machine ∧
      Attempt.act .prepare machine = .error (.fault fault) after ∧ fault.line = 0 := by
  have tried : (preparingFault?
      { files := ⟨#[.directory [("a", 1)], .file (Text.Utf8.encode "Foo(1")]⟩ } "/main"
      "#include \"a\"\n").map Fault.line = some 0 := by
    decide +kernel
  obtain ⟨fault, stops, isZero⟩ := Option.map_eq_some_iff.mp tried
  obtain ⟨machine, after, made, prepared⟩ := preparingFault?_eq_some stops
  exact ⟨_, machine, fault, after, made, prepared, isZero⟩

end Machine

end

/-!
## Scripts that cannot be prepared

A script is prepared once. When that fails, its tokens are gone and everything else of its machine is
as it was, so that the machine is one of an empty script: whatever is attempted after that succeeds
and does nothing (`Machine.failed_preparation_spends`). With its tokens put back, and while the files
stay as they are, every attempt would fail as the first one did.
-/

section

variable {host other : Host} (files : other.files = host.files)
  (directory : other.directory = host.directory)
include files directory

namespace Include

/-- Hosts with the same files locate the same paths. -/
theorem located_congr : located other = located host := by
  funext current path
  simp only [located, files, directory]

/-- Hosts with the same files splice the same files. -/
theorem spliceFile_congr : spliceFile other = spliceFile host := by
  funext expand stack path line
  simp only [spliceFile, files, directory]

/-- Hosts with the same files expand with the same splices alike. -/
theorem expandWith_congr : expandWith other = expandWith host := by
  funext splice current lineStart tokens
  simp only [expandWith, located_congr files directory]

/-- Hosts with the same files expand alike. -/
theorem expand_congr (fuel : Nat) : expand other fuel = expand host fuel := by
  induction fuel with
  | zero =>
    funext stack tokens
    cases tokens <;> rfl
  | succ fuel ih =>
    funext stack tokens
    simp only [expand, ih, spliceFile_congr files directory, expandWith_congr files directory]

end Include

/-- Of its host a script that is prepared sees the files and the directory. -/
theorem Program.prepare_congr : prepare other = prepare host := by
  funext script tokens
  simp only [prepare, Include.resolve, Include.expand_congr files directory, files, directory]

end

namespace Machine

/-- Nothing is left to be prepared, and otherwise only the console shows something else. -/
def Spent (machine after : Machine) : Prop :=
  ∃ console, after = { machine with pending := none, host := { machine.host with console } }

/-- A script that has no statement ends at once. -/
theorem runScope_ended {machine : Machine} (awake : machine.suspended = false)
    (alone : machine.interference = []) (going : machine.exitRequested = false)
    (atEnd : machine.stack.top.current? = none) (fuel : Nat) :
    runScope (fuel + 2) machine = .ok .normal machine := by
  have looked : Engine.isSuspended machine = .ok false machine := by
    simp only [Engine.isSuspended, bind, EStateM.bind, run_modify, run_get, pure, EStateM.pure,
      alone, awake]
  have stepped : (engine (fuel + 1)).step machine = .ok .ended machine := by
    simp only [Engine.step_eq, atEnd]
  show (engine (fuel + 1)).runStatements (fuel + 1) machine = .ok .normal machine
  rw [Engine.runStatements_going _ _ looked going]
  simp only [Bool.false_eq_true, if_false, Engine.advance, Exec.bind_ok stepped]
  rfl

namespace Spent

variable {machine after : Machine}

/-- Tracing works on site. -/
theorem trace (spent : machine.Spent after) (text : Unit → String) :
    machine.Spent { after with host := after.host.trace text } := by
  obtain ⟨console, rfl⟩ := spent
  obtain ⟨shown, traced⟩ := Host.trace_eq { machine.host with console } text
  exact ⟨shown, by rw [traced]⟩

variable {host : Host} {path : String} {tokens : List Token}
  (spent : (ofTokens host path tokens).Spent machine)
include spent

/-- A spent machine is prepared without effect. -/
theorem prepare_eq : prepare machine = .ok () machine := by
  obtain ⟨console, rfl⟩ := spent
  rfl

/-- A spent machine runs nothing, and is spent again. -/
theorem run (fuel : Nat) : (ofTokens host path tokens).Spent ((Machine.run fuel).final machine) ∧
    (2 ≤ fuel → ∃ after, Machine.run fuel machine = .ok () after) := by
  have prepared := spent.prepare_eq
  have started := spent.trace fun _ => "run: " ++ machine.scriptPath
  have same : machine.started.rewound =
      { machine with host := machine.host.trace fun _ => "run: " ++ machine.scriptPath } := by
    obtain ⟨console, rfl⟩ := spent
    rfl
  have stopped : machine.running = false := by
    obtain ⟨console, rfl⟩ := spent
    rfl
  rw [← same] at started
  unfold Exec.final
  rw [run_eq, if_neg (by simp [stopped]), prepared]
  match fuel with
  | 0 | 1 => exact ⟨started, nofun⟩
  | fuel + 2 =>
    have ran : runScope (fuel + 2) machine.started = .ok .normal machine.started := by
      obtain ⟨console, rfl⟩ := spent
      exact runScope_ended rfl rfl rfl rfl fuel
    have finished := started.trace fun _ => "run: finished with " ++ Flow.normal.trace
    have quiet : (machine.started.finished .normal).exitHandler = none := by
      obtain ⟨console, rfl⟩ := spent
      rfl
    simp only [ran, runExitHandler_eq, quiet]
    exact ⟨finished, fun _ => ⟨_, rfl⟩⟩

/-- Attempts leave a spent machine spent. -/
theorem afterAll (attempts : List Attempt) :
    (ofTokens host path tokens).Spent (machine.afterAll attempts) := by
  induction attempts generalizing machine with
  | nil => exact spent
  | cons attempt attempts ih =>
    refine ih ?_
    cases attempt with
    | run fuel => exact (spent.run fuel).1
    | prepare =>
      show (ofTokens host path tokens).Spent (Exec.left (prepare machine))
      rw [spent.prepare_eq]
      exact spent

end Spent

variable {host : Host} {path source : String} {machine failed : Machine} {attempt : Attempt}
  {fault : Fault}

/-- A machine that was just made and stops with a fault of preparing stops when it is prepared. -/
theorem prepare_of_attempt
    (stopped : attempt.act (ofTokens host path (lex source).tokens) = .error (.fault fault) failed)
    (preparing : fault.isRunning = false) :
    prepare (ofTokens host path (lex source).tokens) = .error (.fault fault) failed := by
  have here := (awaits_ofTokens host path source).attempt attempt
  rw [stopped] at here
  rcases here.2 with prepared | ⟨_, isRunning⟩
  · exact prepared
  · rw [preparing] at isRunning
    cases isRunning

/-- Where preparing fails every attempt fails. -/
theorem attempt_of_prepare (again : machine.running = false)
    (stopped : prepare machine = .error (.fault fault) failed) (attempt : Attempt) :
    attempt.act machine = .error (.fault fault) failed := by
  cases attempt with
  | prepare => exact stopped
  | run fuel =>
    show Machine.run fuel machine = .error (.fault fault) failed
    rw [run_eq, if_neg (by simp [again]), stopped]

/-- Preparing fails with the fault that the passes give, and takes the tokens away. -/
theorem prepare_eq_error {tokens : List Token} (pending : machine.pending = some tokens) :
    prepare machine = .error (.fault fault) failed →
      (Program.prepare machine.host machine.scriptPath tokens).result = .error fault ∧
        machine.Spent failed := by
  intro stopped
  obtain ⟨console, prepared⟩ := prepare_eq machine
  simp only [pending] at prepared
  rw [prepared] at stopped
  cases result : (Program.prepare machine.host machine.scriptPath tokens).result with
  | ok program =>
    rw [result] at stopped
    cases stopped
  | error reason =>
    rw [result] at stopped
    cases stopped
    exact ⟨rfl, console, rfl⟩

/-- When the first attempt on the machine of a source fails before the script runs, the machine has
lost its tokens and is otherwise as it was, except for the console. From then on every attempt leaves
it like that; it is prepared without effect, and a run that has fuel for looking at it succeeds. With
the tokens back in their place every attempt fails as the first one did, as long as the files are the
same. -/
theorem failed_preparation_spends
    (built : ofSource host path source = .ok machine)
    (stopped : attempt.act machine = .error (.fault fault) failed)
    (preparing : fault.isRunning = false) :
    machine.Spent failed ∧
      (∀ later : List Attempt, let spent := failed.afterAll later
        machine.Spent spent ∧ prepare spent = .ok () spent ∧
          ∀ fuel, 2 ≤ fuel → ∃ after, run fuel spent = .ok () after) ∧
      ∀ again : Machine, again.pending = machine.pending →
        again.scriptPath = machine.scriptPath → again.host.files = machine.host.files →
        again.host.directory = machine.host.directory → again.running = false →
        ∀ other : Attempt, ∃ left, other.act again = .error (.fault fault) left := by
  obtain rfl := eq_ofTokens built
  obtain ⟨result, spent⟩ := prepare_eq_error rfl (prepare_of_attempt stopped preparing)
  refine ⟨spent, fun later => ?_, fun again pending scriptPath files directory stops other => ?_⟩
  · have left := spent.afterAll later
    exact ⟨left, left.prepare_eq, fun fuel => (left.run fuel).2⟩
  · obtain ⟨console, prepared⟩ := prepare_eq again
    have same : (Program.prepare again.host again.scriptPath (lex source).tokens).result =
        .error fault := by
      rw [Program.prepare_congr files directory, scriptPath]
      exact result
    rw [show again.pending = some (lex source).tokens from pending] at prepared
    simp only [same] at prepared
    exact ⟨_, attempt_of_prepare stops prepared other⟩

/-- An open choice: preparing fails, the machine forgets it, and would fail again with its tokens. -/
theorem failed_preparation_spends_choice : ∃ machine fault failed,
    ofSource {} "/main" "If True Then\n" = .ok machine ∧
      Attempt.act .prepare machine = .error (.fault fault) failed ∧ fault.isRunning = false ∧
      machine.Spent failed ∧ machine.Spent (failed.afterAll [.run 2, .prepare]) ∧
      ∃ left, Attempt.act (.run 2) { failed with pending := machine.pending } =
        .error (.fault fault) left := by
  have tried : (preparingFault? {} "/main" "If True Then\n").map Fault.isRunning = some false := by
    decide +kernel
  obtain ⟨fault, stops, preparing⟩ := Option.map_eq_some_iff.mp tried
  obtain ⟨machine, failed, built, stopped⟩ := preparingFault?_eq_some stops
  have stopped' : Attempt.act .prepare machine = .error (.fault fault) failed := stopped
  obtain ⟨spent, later, again⟩ := failed_preparation_spends built stopped' preparing
  refine ⟨machine, fault, failed, built, stopped, preparing, spent, (later _).1, ?_⟩
  have kept : failed.scriptPath = machine.scriptPath ∧ failed.host.files = machine.host.files ∧
      failed.host.directory = machine.host.directory ∧ failed.running = machine.running := by
    obtain ⟨console, rfl⟩ := spent
    exact ⟨rfl, rfl, rfl, rfl⟩
  have stopped : machine.running = false := by rw [eq_ofTokens built]; rfl
  exact again { failed with pending := machine.pending } rfl kept.1 kept.2.1 kept.2.2.1
    (kept.2.2.2.trans stopped) _

/-- A script that was refused runs to its end when that is tried again. -/
theorem failed_preparation_forgotten : ∃ machine fault failed after,
    ofSource {} "/main" "If True Then\n" = .ok machine ∧
      Attempt.act .prepare machine = .error (.fault fault) failed ∧ fault.isRunning = false ∧
      Attempt.act (.run 2) failed = .ok () after := by
  have tried : (preparingFault? {} "/main" "If True Then\n").map Fault.isRunning = some false := by
    decide +kernel
  obtain ⟨fault, stops, preparing⟩ := Option.map_eq_some_iff.mp tried
  obtain ⟨machine, failed, built, stopped⟩ := preparingFault?_eq_some stops
  obtain rfl := eq_ofTokens built
  obtain ⟨after, ran⟩ := ((prepare_eq_error rfl stopped).2.run 2).2 (Nat.le_refl 2)
  exact ⟨_, fault, failed, after, built, stopped, preparing, ran⟩

end Machine

end LineScript
