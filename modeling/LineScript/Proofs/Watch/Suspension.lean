import LineScript.Proofs.Congruence.Statement
import LineScript.Proofs.Exit.Prompt
import LineScript.Proofs.Run.Script
import LineScript.Proofs.Watch.Engine

/-!
# Suspending a script

Another party may suspend a script and let it go on again as often as it likes. The script looks at
this before each statement, of whatever scope, and waits there while it is suspended. Nothing else
that it does looks at it, so a suspended script does the same as one that is left alone, only later.
The clock of a machine does not move while it waits, so this is so for what reads the clock, too.

Two runs of one script are compared that differ in the margin of the machine. At the same point of
the script both do the same; only a wait is made by one of the two, which costs that one steps. So
either both end alike, or the one that waits runs out of steps before the other. As runs that are
cut off are compared too, what a run has done so far is kept in a ledger on the margin.
-/

namespace LineScript

open Exec Machine

/-!
## The ledger
-/

namespace Margin

/-- What the ledger of a run holds. It is kept where a machine has its script until it runs. -/
def noted (margin : Margin) : List Token := margin.pending.getD []

/-- The margin with more in the ledger. -/
def noting (margin : Margin) (tokens : List Token) : Margin :=
  { margin with pending := some (margin.noted ++ tokens) }

/-- Of two margins with the same pending calls, the second has noted at least what the first has. -/
theorem noted_prefix {margin other : Margin} (same : margin.pending = other.pending) :
    margin.noted <+: other.noted := by
  unfold noted
  exact same ▸ List.prefix_refl _

end Margin

/-- What the ledger of a machine holds. -/
abbrev Machine.noted (machine : Machine) : List Token := machine.margin.noted

/-- Each statement that begins is noted, by the token it begins with; an empty one by the end of its
line. -/
def Watch.ledger : Watch
  | .statement => modify fun machine =>
    machine.withMargin (machine.margin.noting machine.stack.top.current?.toList)
  | _ => pure ()

/-- The statements that a run begins, each by the token it begins with. -/
def Machine.begun (fuel : Nat) (machine : Machine) : List Token :=
  if machine.running then [] else ((watchedRun .ledger fuel).final machine).noted

/-- Looking at the suspension takes over what the other party has set it to. -/
theorem Engine.isSuspended_looked (machine : Machine) :
    Engine.isSuspended machine =
      .ok machine.margin.looked.suspended (machine.withMargin machine.margin.looked) := by
  have same : machine.margin.interference = machine.interference := rfl
  unfold Margin.looked
  rw [same]
  cases coming : machine.interference <;>
    simp only [Engine.isSuspended, bind, EStateM.bind, run_modify, coming] <;> rfl

/-!
## Two runs side by side
-/

/-- What two runs of one script may differ in, all of it on their margins. -/
structure Bond where
  /-- The margins that the two may have at the same point of the script. -/
  admits : Margin → Margin → Prop
  /-- The first may run out of steps before the second does. -/
  lags : Prop
  /-- At the same point the ledger of the second holds what that of the first does. -/
  noted : lags → ∀ {own other : Margin}, admits own other → own.noted <+: other.noted
  /-- The script can be taken from both margins. -/
  taken : ∀ {own other : Margin}, admits own other → admits own.taken other.taken

/-- The second of two actions only adds to the ledger. -/
def Exec.Grows : ExecRelation := fun _ _ action =>
  ∀ machine : Machine, machine.noted <+: (action.final machine).noted

namespace Bond

variable (bond : Bond) {α β : Type}

/-- Two outcomes are the same but for the margins, or the first ran out of steps, with nothing in
its ledger that the other does not have. -/
inductive Meets : EStateM.Result Stop Machine α → EStateM.Result Stop Machine α → Prop
  /-- Both return. -/
  | ok {value : α} {machine : Machine} {own other : Margin} (admitted : bond.admits own other) :
      Meets (.ok value (machine.withMargin own)) (.ok value (machine.withMargin other))
  /-- Both stop. -/
  | error {stop : Stop} {machine : Machine} {own other : Margin}
      (admitted : bond.admits own other) :
      Meets (.error stop (machine.withMargin own)) (.error stop (machine.withMargin other))
  /-- Only the first stops. -/
  | behind {after : Machine} {outcome : EStateM.Result Stop Machine α} (lags : bond.lags)
      (less : after.noted <+: (Exec.left outcome).noted) : Meets (.error .starved after) outcome

/-- Two actions do the same at the same point of the script, unless the first falls behind. -/
structure Abreast ⦃α : Type⦄ (own other : Exec α) : Prop where
  /-- The second action only adds to the ledger. -/
  grows : Grows own other
  /-- What they make of one machine with two margins. -/
  meets : ∀ (machine : Machine) {margin margin' : Margin}, bond.admits margin margin' →
    bond.Meets (own (machine.withMargin margin)) (other (machine.withMargin margin'))

variable {bond}

/-- The same is done in both runs after they did the same. -/
theorem Meets.bind {own other : Exec α} {next next' : α → Exec β} {machine machine' : Machine}
    (met : bond.Meets (own machine) (other machine'))
    (rest : ∀ value, bond.Abreast (next value) (next' value)) :
    bond.Meets ((own >>= next) machine) ((other >>= next') machine') := by
  simp only [Bind.bind, EStateM.bind]
  generalize own machine = outcome, other machine' = outcome' at met
  cases met with
  | ok admitted => exact (rest _).meets _ admitted
  | error admitted => exact .error admitted
  | behind lags less =>
    refine .behind lags (less.trans ?_)
    cases outcome' with
    | ok value after => exact (rest value).grows after
    | error stop after => exact List.prefix_refl _

/-- An outcome that is the same for any margin. -/
theorem Meets.of_amend {own other : EStateM.Result Stop Machine α} {margin margin' : Margin}
    (admitted : bond.admits margin margin') (outcome : EStateM.Result Stop Machine α)
    (isOwn : own = amend (·.withMargin margin) outcome)
    (isOther : other = amend (·.withMargin margin') outcome) : bond.Meets own other := by
  subst isOwn isOther
  cases outcome with
  | ok value after => exact .ok admitted
  | error stop after => exact .error admitted

end Bond

/-!
## What may stand in both runs
-/

section

variable {α β : Type} {bond : Bond}

/-- An action that is oblivious of the margin leaves it as it is. -/
theorem Exec.Oblivious.final_margin {action : Exec α} (oblivious : action.Oblivious)
    (machine : Machine) : (action.final machine).margin = machine.margin := by
  unfold Exec.final
  cases ran : action machine with
  | ok value after => exact oblivious.ok ran
  | error stop after => exact oblivious.error ran

namespace Exec.Grows

/-- An action oblivious of the margin lets it grow. -/
theorem of_oblivious {action : Exec α} (oblivious : action.Oblivious) : Grows action action := by
  intro machine
  exact Margin.noted_prefix (congrArg Margin.pending (oblivious.final_margin machine).symm)

/-- A sequence lets the margin grow when both parts do. -/
theorem bind {own other : Exec α} {next next' : α → Exec β} (first : Grows own other)
    (rest : ∀ value, Grows (next value) (next' value)) :
    Grows (own >>= next) (other >>= next') := by
  intro machine
  refine final_bind (Q := fun after => machine.noted <+: after.noted) (first machine)
    fun value middle grown => ?_
  exact grown.trans (rest value middle)

/-- Only statements note something. -/
theorem congruence : LevelCongruence Grows where
  beside beside := of_oblivious beside.oblivious
  bind := bind
  get _ rest machine := rest machine machine
  level unseen _ := of_oblivious (.modify unseen)

/-- Looking at the suspension notes nothing. -/
theorem isSuspended : Grows Engine.isSuspended Engine.isSuspended := by
  intro machine
  unfold Exec.final
  rw [Engine.isSuspended_looked]
  exact Margin.noted_prefix machine.margin.pending_looked.symm

end Exec.Grows

namespace Bond.Abreast

/-- An action oblivious of the margin runs abreast of itself. -/
theorem of_oblivious {action : Exec α} (oblivious : action.Oblivious) :
    bond.Abreast action action where
  grows := .of_oblivious oblivious
  meets machine _ _ admitted := .of_amend admitted _ (oblivious machine _) (oblivious machine _)

/-- Sequences run abreast when both parts do. -/
theorem bind {own other : Exec α} {next next' : α → Exec β} (first : bond.Abreast own other)
    (rest : ∀ value, bond.Abreast (next value) (next' value)) :
    bond.Abreast (own >>= next) (other >>= next') where
  grows := first.grows.bind fun value => (rest value).grows
  meets machine _ _ admitted := (first.meets machine admitted).bind rest

/-- Everything between two looks at the suspension is done alike. -/
theorem congruence (bond : Bond) : LevelCongruence bond.Abreast where
  beside beside := of_oblivious beside.oblivious
  bind := bind
  get {_ next other} unseen rest :=
    { grows := fun machine => (rest machine).grows machine
      meets := fun machine margin margin' admitted => by
        have met := (rest (machine.withMargin margin)).meets machine admitted
        rw [unseen, ← unseen machine margin'] at met
        exact met }
  level unseen _ := of_oblivious (.modify unseen)

/-- A change that does not see the margin runs abreast of itself. -/
theorem modify {change : Machine → Machine}
    (unseen : ∀ (machine : Machine) (margin : Margin),
      change (machine.withMargin margin) = (change machine).withMargin margin) :
    bond.Abreast (MonadState.modifyGet fun machine => (PUnit.unit, change machine))
      (MonadState.modifyGet fun machine => (PUnit.unit, change machine)) :=
  of_oblivious (.modify unseen)

/-- What follows an attempt passes on that no steps remain, and notes nothing before. -/
def Forwards (next : Except Stop α → Exec β) : Prop :=
  ∀ machine : Machine, ∃ after, next (.error .starved) machine = .error .starved after ∧
    after.noted = machine.noted

/-- An attempt, and what follows it. The first run may get no further than into the attempt. -/
theorem attempt {own other : Exec α} {next next' : Except Stop α → Exec β}
    (inside : bond.Abreast own other)
    (rest : ∀ outcome, bond.Abreast (next outcome) (next' outcome))
    (forwards : Forwards next) :
    bond.Abreast (Exec.attempt own >>= next) (Exec.attempt other >>= next') where
  grows machine := by
    have grown := inside.grows machine
    unfold Exec.final at *
    simp only [Bind.bind, EStateM.bind, Exec.attempt]
    cases outcome : other machine with
    | ok value after | error stop after =>
      rw [outcome] at grown
      exact grown.trans ((rest _).grows after)
  meets machine margin margin' admitted := by
    have met := inside.meets machine admitted
    simp only [Bind.bind, EStateM.bind, Exec.attempt]
    generalize own (machine.withMargin margin) = outcome,
      other (machine.withMargin margin') = outcome' at met
    cases met with
    | ok admitted | error admitted => exact (rest _).meets _ admitted
    | @behind last _ lags less =>
      -- The first run gets no further, while the second goes on with what follows the attempt.
      obtain ⟨after, forwarded, same⟩ := forwards last
      dsimp only
      rw [forwarded]
      refine .behind lags ?_
      rw [same]
      cases outcome' with
      | ok value after | error stop after => exact less.trans ((rest _).grows after)

/-- An action in a scope of its own, and what follows it. -/
theorem inScope {scope : Scope} {own other : Exec α} {next next' : Except Stop α × Scope → Exec β}
    (inside : bond.Abreast own other) (rest : ∀ result, bond.Abreast (next result) (next' result))
    (forwards : ∀ top, Forwards fun outcome => next (outcome, top)) :
    bond.Abreast (Exec.inScope scope own >>= next) (Exec.inScope scope other >>= next') := by
  unfold Exec.inScope Exec.inScopeBy
  simp only [bind_assoc, pure_bind]
  refine .bind (.modify fun _ _ => rfl) fun _ => ?_
  refine .attempt inside (fun outcome => ?_) fun machine => ?_
  · refine (congruence bond).get (fun _ _ => rfl) fun machine => ?_
    exact .bind (.modify fun _ _ => rfl) fun _ => rest _
  · exact forwards machine.stack.top { machine with stack := machine.stack.pop }

end Bond.Abreast

end

/-!
## The statements of a scope
-/

namespace Engine

/-- A scope looks at the suspension, and then looks again or goes on. -/
theorem watchedStatements_succ (watch : Watch) (low : Engine) (fuel : Nat) :
    low.watchedStatements watch (fuel + 1) = (do
      if ← isSuspended then low.watchedStatements watch fuel
      else low.awake (watch .statement) (low.watchedStatements watch fuel)) := rfl

/-- Watched scopes are related when the looks at the suspension are, and what is done as statements
begin. -/
theorem RunsAlike.watchedStatements {R : ExecRelation} {left right : Engine}
    (alike : left.RunsAlike R right) (law : LevelCongruence R) {own other : Watch}
    (begins : R (own .statement) (other .statement)) (looks : R isSuspended isSuspended)
    (fuel : Nat) : R (left.watchedStatements own fuel) (right.watchedStatements other fuel) := by
  induction fuel with
  | zero => exact law.starved
  | succ fuel ih =>
    refine law.bind looks fun suspended => ?_
    split
    · exact ih
    · exact alike.awake law begins ih

variable {watch : Watch} {low : Engine} {fuel : Nat} {margin : Margin}

/-- A scope that waits looks again. -/
theorem watchedStatements_waiting (waits : margin.looked.suspended = true) (machine : Machine) :
    low.watchedStatements watch (fuel + 1) (machine.withMargin margin) =
      low.watchedStatements watch fuel (machine.withMargin margin.looked) := by
  rw [watchedStatements_succ, bind_ok (isSuspended_looked _), margin_withMargin, waits]
  rfl

/-- A scope that does not wait goes on. -/
theorem watchedStatements_awake (goes : margin.looked.suspended = false) (machine : Machine) :
    low.watchedStatements watch (fuel + 1) (machine.withMargin margin) =
      low.awake (watch .statement) (low.watchedStatements watch fuel)
        (machine.withMargin margin.looked) := by
  rw [watchedStatements_succ, bind_ok (isSuspended_looked _), margin_withMargin, goes]
  rfl

end Engine

/-!
## Whole runs
-/

section

variable {bond : Bond} {own other : Watch}
  (begins : ∀ occurrence, occurrence ≠ .statement →
    bond.Abreast (own occurrence) (other occurrence))

namespace Engine

variable {left right : Engine}

/-- Blocks run abreast when scopes do. -/
theorem abreast_runBlock (scopes : bond.Abreast left.runScope right.runScope) (code : Window)
    (bindings : List (String × Value)) :
    bond.Abreast (left.runBlock code bindings) (right.runBlock code bindings) := by
  unfold Engine.runBlock
  refine .inScope scopes (fun ⟨outcome, top⟩ => ?_) fun _ machine => ⟨machine, rfl, rfl⟩
  cases outcome with
  | ok flow => exact .of_oblivious (.pure flow)
  | error stop => exact .of_oblivious (.throw stop)

include begins

/-- Watched terms run abreast. -/
theorem abreast_watchedTerm (alike : left.Alike bond.Abreast right) (window : Window) (pos : Nat) :
    bond.Abreast (left.watchedTerm own window pos) (right.watchedTerm other window pos) := by
  have law := Bond.Abreast.congruence bond
  exact .bind (begins .term nofun) fun _ => alike.evalTerm law.toCongruence window pos

/-- Watched calls of library functions run abreast. -/
theorem abreast_watchedBuiltin (function : Builtin) (args : List Value) (line : Nat) :
    bond.Abreast (watchedBuiltin own function args line)
      (watchedBuiltin other function args line) := by
  have law := Bond.Abreast.congruence bond
  unfold Engine.watchedBuiltin callBuiltinBy
  refine law.after (.checkArity _ _ _ _ _) fun _ => ?_
  split
  · exact law.fail _ _
  · refine law.bind (law.writing.modifyRegisters _) fun _ => law.after (.trace _) fun _ => ?_
    exact .bind (begins _ nofun) fun _ => .of_oblivious (function.tame_run _).oblivious

/-- Watched calls of the script's functions run abreast. -/
theorem abreast_watchedUser (alike : left.Alike bond.Abreast right)
    (scopes : bond.Abreast left.runScope right.runScope) (function : UserFunction)
    (args : List Value) (line : Nat) :
    bond.Abreast (left.watchedUser own function args line)
      (right.watchedUser other function args line) := by
  have law := Bond.Abreast.congruence bond
  unfold Engine.watchedUser
  refine law.after (.checkArity _ _ _ _ _) fun _ => ?_
  refine law.bind (law.writing.modifyRegisters _) fun _ => ?_
  have enters : bond.Abreast (enterCall function.name line) (enterCall function.name line) := by
    refine law.get (fun _ _ => rfl) fun machine => ?_
    split
    · exact law.fail _ _
    · exact .modify fun _ _ => rfl
  refine law.bind enters fun _ => law.after (.trace _) fun _ => ?_
  refine .inScope ?_ (fun ⟨outcome, top⟩ => ?_) fun _ machine => ⟨_, rfl, rfl⟩
  · refine .bind (begins _ nofun) fun _ => ?_
    exact .bind (alike.bindParams law.writing _ _ _ _) fun _ => scopes
  · refine .bind (.modify fun _ _ => rfl) fun _ => ?_
    cases outcome with
    | error stop => exact .of_oblivious (.throw _)
    | ok flow => exact law.bind (law.writing.modifyRegisters _) fun _ => law.pure _

/-- Watched calls by name run abreast. -/
theorem abreast_watchedCall (alike : left.Alike bond.Abreast right)
    (scopes : bond.Abreast left.runScope right.runScope) (name : String) (args : List Value)
    (line : Nat) :
    bond.Abreast (left.watchedCall own name args line)
      (right.watchedCall other name args line) := by
  have law := Bond.Abreast.congruence bond
  unfold Engine.watchedCall Engine.callNamed
  refine law.get (fun _ _ => rfl) fun machine => ?_
  split
  · exact law.pure _
  · split
    · exact abreast_watchedUser begins alike scopes _ _ _
    · split
      · exact abreast_watchedBuiltin begins _ _ _
      · exact law.fail _ _

end Engine

include begins in
/-- Runs whose scopes go abreast do so altogether. -/
theorem watchedEngine_abreast
    (scopes : ∀ {left right : Engine}, left.RunsAlike bond.Abreast right → ∀ fuel,
      bond.Abreast (left.watchedStatements own fuel) (right.watchedStatements other fuel))
    (fuel : Nat) :
    (watchedEngine own fuel).RunsAlike bond.Abreast (watchedEngine other fuel) ∧
      bond.Abreast (watchedEngine own fuel).runScope (watchedEngine other fuel).runScope := by
  have law := Bond.Abreast.congruence bond
  induction fuel with
  | zero =>
    refine ⟨⟨⟨rfl, ?_, ?_, ?_⟩, Engine.abreast_runBlock law.starved⟩, law.starved⟩
    · exact fun _ _ => law.starved
    · exact fun _ _ => law.starved
    · exact fun _ _ _ => law.starved
  | succ fuel ih =>
    obtain ⟨alike, scope⟩ := ih
    have runs : bond.Abreast (watchedEngine own (fuel + 1)).runScope
        (watchedEngine other (fuel + 1)).runScope := scopes alike fuel
    refine ⟨⟨⟨rfl, ?_, ?_, ?_⟩, Engine.abreast_runBlock runs⟩, runs⟩
    · exact Engine.abreast_watchedTerm begins alike.toAlike
    · exact alike.evalValue law.toCongruence
    · exact Engine.abreast_watchedCall begins alike.toAlike scope

namespace Machine

/-- Loading a prepared program runs abreast of itself. -/
theorem load_abreast (bond : Bond) (prepared : Program.Prepared) :
    bond.Abreast (load prepared) (load prepared) := by
  have law := Bond.Abreast.congruence bond
  have notes : ∀ texts : List String, bond.Abreast (traceNotes texts) (traceNotes texts) := by
    intro texts
    induction texts with
    | nil => exact law.pure _
    | cons text texts ih => exact law.after (.trace _) fun _ => ih
  refine law.bind (notes _) fun _ => law.bind ?_ fun program => .modify fun _ _ => rfl
  cases prepared.result with
  | ok program => exact law.pure program
  | error fault => exact .of_oblivious (.throw _)

/-- Preparing a script takes it from the margin and looks at nothing else there. -/
theorem prepare_meets (machine : Machine) {margin margin' : Margin}
    (admitted : bond.admits margin margin') (same : margin.pending = margin'.pending) :
    bond.Meets (prepare (machine.withMargin margin)) (prepare (machine.withMargin margin')) := by
  cases waits : margin'.pending with
  | none =>
    rw [prepare_none (same.trans waits), prepare_none waits]
    exact .ok admitted
  | some tokens =>
    rw [prepare_some (same.trans waits), prepare_some waits]
    exact (load_abreast bond _).meets machine (bond.taken admitted)

/-- Exit handlers run abreast. -/
theorem runExitHandlerBy_abreast {high high' : Engine} (alike : high.Alike bond.Abreast high') :
    bond.Abreast (runExitHandlerBy Exec.attempt high) (runExitHandlerBy Exec.attempt high') := by
  have law := Bond.Abreast.congruence bond
  unfold Machine.runExitHandlerBy
  refine law.get (fun _ _ => rfl) fun machine => ?_
  split
  · exact law.pure _
  · refine .bind (.modify fun _ _ => rfl) fun _ => law.after (.trace _) fun _ => ?_
    refine .bind (.modify fun _ _ => rfl) fun _ => ?_
    refine .attempt (alike.call _ _ _) (fun outcome => ?_) fun machine => ⟨_, rfl, rfl⟩
    refine .bind (.modify fun _ _ => rfl) fun _ => ?_
    cases outcome with
    | ok value => exact law.pure _
    | error stop => exact .of_oblivious (.throw _)

/-- Runs by engines that go abreast end alike, or the first falls behind. -/
theorem runBy_meets {high high' : Engine} (alike : high.Alike bond.Abreast high')
    (scopes : bond.Abreast high.runScope high'.runScope) (machine : Machine)
    {margin margin' : Margin} (admitted : bond.admits margin margin')
    (same : margin.pending = margin'.pending) :
    bond.Meets (runBy Exec.attempt high (machine.withMargin margin))
      (runBy Exec.attempt high' (machine.withMargin margin')) := by
  have law := Bond.Abreast.congruence bond
  have own : (machine.withMargin margin).running = machine.running := rfl
  have other : (machine.withMargin margin').running = machine.running := rfl
  unfold Machine.runBy
  rw [bind_ok (run_get _), bind_ok (run_get _), own, other]
  split
  · exact .ok admitted
  · refine (prepare_meets machine admitted same).bind fun _ => ?_
    refine .bind (.modify fun _ _ => rfl) fun _ => law.get (fun _ _ => rfl) fun _ => ?_
    refine law.after (.trace _) fun _ => ?_
    refine .attempt scopes (fun outcome => ?_) fun machine => ⟨_, rfl, rfl⟩
    refine .bind (.modify fun _ _ => rfl) fun _ => ?_
    cases outcome with
    | ok flow => exact law.after (.trace _) fun _ => runExitHandlerBy_abreast alike
    | error stop => exact .of_oblivious (.throw _)

end Machine

end

/-!
## What another party asks for
-/

/-- What another party can ask of a script, at any time. -/
inductive HandleCall where
  /-- To wait before the next statement. -/
  | suspend
  /-- To go on. -/
  | resume

namespace HandleCall

/-- Whether a script is suspended after some calls, one after the other. -/
def settle (suspended : Bool) (calls : List HandleCall) : Bool :=
  calls.foldl (fun _ call => match call with | suspend => true | resume => false) suspended

/-- The call, made on a machine. -/
def act : HandleCall → Exec Unit
  | suspend => Machine.suspend
  | resume => Machine.resume

/-- Calls made on a machine, one after the other, suspend it or let it go on, and nothing else. -/
theorem act_settles (calls : List HandleCall) (machine : Machine) :
    calls.forM act machine =
      .ok () { machine with suspended := settle machine.suspended calls } := by
  induction calls generalizing machine with
  | nil => rfl
  | cons call calls ih =>
    cases call with
    | suspend => exact ih { machine with suspended := true }
    | resume => exact ih { machine with suspended := false }

/-- What the looks at the suspension find, given the calls before each of them. -/
def found (suspended : Bool) : List (List HandleCall) → List Bool
  | [] => []
  | calls :: later => settle suspended calls :: found (settle suspended calls) later

/-- Settling two lists of calls settles the first and then the second. -/
theorem settle_append (suspended : Bool) (calls later : List HandleCall) :
    settle suspended (calls ++ later) = settle (settle suspended calls) later := List.foldl_append

end HandleCall

/-- After some looks at the suspension of a script, the last of them found what the other party had
asked for by then, and what it asks for before the next ones is still to come. -/
structure Margin.Heard (margin : Margin) (suspended : Bool) (calls : List (List HandleCall))
    (looks : Nat) : Prop where
  /-- What the last look found, or the suspension before any look. -/
  found : margin.suspended = HandleCall.settle suspended (calls.take looks).flatten
  /-- What the next looks find. -/
  coming : margin.interference = HandleCall.found margin.suspended (calls.drop looks)

/-- One more look. Once the other party is done, a look finds what the one before it did. -/
theorem Margin.Heard.looked {margin : Margin} {suspended : Bool} {calls : List (List HandleCall)}
    {looks : Nat} (heard : margin.Heard suspended calls looks) :
    margin.looked.Heard suspended calls (looks + 1) := by
  obtain ⟨found, coming⟩ := heard
  unfold Margin.looked
  rw [coming]
  cases later : calls.drop looks with
  | nil =>
    have all : calls.length ≤ looks := List.drop_eq_nil_iff.mp later
    refine ⟨?_, ?_⟩
    · rw [List.take_of_length_le (by omega)]
      rw [List.take_of_length_le all] at found
      exact found
    · rw [List.drop_of_length_le (by omega)]
      rw [later] at coming
      exact coming
  | cons batch rest =>
    refine ⟨?_, ?_⟩
    · have next : calls[looks]? = some batch := by
        rw [← List.head?_drop, later]
        rfl
      rw [List.take_add_one, next, List.flatten_append, HandleCall.settle_append, ← found,
        Option.toList_some, List.flatten_singleton]
      rfl
    · rw [← List.tail_drop, later]
      rfl

/-!
## A run that is suspended, and one that is not
-/

namespace Bond

/-- The second run is never suspended. -/
def calm : Bond where
  admits own other :=
    other.suspended = false ∧ other.interference = [] ∧ own.pending = other.pending
  lags := True
  noted _ _ _ admitted := Margin.noted_prefix admitted.2.2
  taken admitted := ⟨admitted.1, admitted.2.1, rfl⟩

/-- Both runs look at the same suspension; only their ledgers differ. -/
def noting : Bond where
  admits own other := own.suspended = other.suspended ∧ own.interference = other.interference
  lags := False
  noted impossible := impossible.elim
  taken admitted := admitted

/-- Both runs are the same, with another party that makes some calls. -/
def equal (suspended : Bool) (calls : List (List HandleCall)) : Bond where
  admits own other := own = other ∧ ∃ looks, own.Heard suspended calls looks
  lags := False
  noted impossible := impossible.elim
  taken admitted := by
    obtain ⟨rfl, looks, heard⟩ := admitted
    exact ⟨rfl, looks, heard.found, heard.coming⟩

end Bond

/-- A watched scope that waits now and then goes abreast with the same scope that never does and may
make as many rounds or more. -/
theorem Engine.calm_watchedStatements {watch : Watch} {left right : Engine}
    (begins : Bond.calm.Abreast (watch .statement) (watch .statement))
    (alike : left.RunsAlike Bond.calm.Abreast right) {fuel fuel' : Nat} (more : fuel ≤ fuel') :
    Bond.calm.Abreast (left.watchedStatements watch fuel)
      (right.watchedStatements watch fuel') := by
  have grows : ∀ fuel,
      Grows (left.watchedStatements watch fuel) (right.watchedStatements watch fuel) :=
    (alike.imp Bond.Abreast.grows).watchedStatements Grows.congruence begins.grows Grows.isSuspended
  have law := Bond.Abreast.congruence Bond.calm
  induction fuel generalizing fuel' with
  | zero =>
    refine ⟨fun machine => grows fuel' machine, fun machine margin margin' admitted => ?_⟩
    exact .behind trivial ((Bond.calm.noted trivial admitted).trans
      (grows fuel' (machine.withMargin margin')))
  | succ fuel ih =>
    obtain ⟨fuel', rfl⟩ : ∃ rest, fuel' = rest + 1 := ⟨fuel' - 1, by omega⟩
    refine ⟨fun machine => grows (fuel' + 1) machine, fun machine margin margin' admitted => ?_⟩
    obtain ⟨awake, untouched, same⟩ := admitted
    have still : margin'.looked = margin' := by rw [Margin.looked, untouched]
    have later : Bond.calm.admits margin.looked margin' :=
      ⟨awake, untouched, margin.pending_looked.trans same⟩
    cases waits : margin.looked.suspended with
    | true =>
      -- The first looks again with a round less; the second is still where it was.
      rw [watchedStatements_waiting waits]
      have again := @ih (fuel' + 1) (by omega)
      exact again.meets machine later
    | false =>
      have goes : margin'.looked.suspended = false := by rw [still, awake]
      rw [watchedStatements_awake waits, watchedStatements_awake goes]
      rw [still]
      exact (alike.awake law begins (ih (by omega))).meets machine later

/-- When a statement begins, the last look at the suspension found the script not suspended, after
all that the other party had asked for by then. -/
def Occurrence.Awake (suspended : Bool) (calls : List (List HandleCall)) (occurrence : Occurrence)
    (state : Machine) : Prop :=
  occurrence = .statement → state.suspended = false ∧
    ∃ looks, 0 < looks ∧ state.margin.Heard suspended calls looks

/-- A watcher that does something only where a statement begins while the script is suspended does
nothing at all: statements begin right after a look. -/
theorem Engine.wakeful_watchedStatements {suspended : Bool} {calls : List (List HandleCall)}
    {watch : Watch} (wakeful : ∀ occurrence state, occurrence.Awake suspended calls state →
      watch occurrence state = .ok () state) {left right : Engine}
    (alike : left.RunsAlike (Bond.equal suspended calls).Abreast right) (fuel : Nat) :
    (Bond.equal suspended calls).Abreast (left.watchedStatements watch fuel)
      (right.watchedStatements .idle fuel) := by
  have law := Bond.Abreast.congruence (Bond.equal suspended calls)
  have idle : (Bond.equal suspended calls).Abreast (Watch.idle .statement)
      (Watch.idle .statement) := .of_oblivious (.pure ())
  induction fuel with
  | zero => exact law.starved
  | succ fuel ih =>
    have grows : Grows (left.watchedStatements .idle (fuel + 1))
        (right.watchedStatements .idle (fuel + 1)) :=
      (alike.imp Bond.Abreast.grows).watchedStatements Grows.congruence idle.grows
        Grows.isSuspended _
    refine ⟨fun machine => grows machine, fun machine margin margin' admitted => ?_⟩
    obtain ⟨rfl, looks, heard⟩ := admitted
    have later : (Bond.equal suspended calls).admits margin.looked margin.looked :=
      ⟨rfl, looks + 1, heard.looked⟩
    cases waits : margin.looked.suspended with
    | true =>
      rw [watchedStatements_waiting waits, watchedStatements_waiting waits]
      exact ih.meets machine later
    | false =>
      rw [watchedStatements_awake waits, watchedStatements_awake waits]
      have met := (alike.awake law idle ih).meets machine later
      have awake : Occurrence.statement.Awake suspended calls (machine.withMargin margin.looked) :=
        fun _ => ⟨waits, looks + 1, by omega, heard.looked⟩
      have same : left.awake (watch .statement) (left.watchedStatements watch fuel)
          (machine.withMargin margin.looked) =
          left.awake (Watch.idle .statement) (left.watchedStatements watch fuel)
            (machine.withMargin margin.looked) := by
        unfold Engine.awake
        rw [bind_ok (run_get _), bind_ok (run_get _)]
        split
        · rfl
        · rw [bind_ok (wakeful .statement _ awake)]
          rfl
      rw [same]
      exact met

namespace Machine

/-- The machine of a script with another party that makes some calls before each of the next looks
at the suspension, and none after them. -/
def disturbed (machine : Machine) (calls : List (List HandleCall)) : Machine :=
  { machine with interference := HandleCall.found machine.suspended calls }

/-- The machine of the script without the other party, and not suspended. -/
def undisturbed (machine : Machine) : Machine :=
  { machine with suspended := false, interference := [] }

/-- An undisturbed machine is the machine with the calm margin. -/
theorem undisturbed_withMargin (machine : Machine) {own other : Margin}
    (admitted : Bond.calm.admits own other) :
    (machine.withMargin own).undisturbed = machine.withMargin other := by
  obtain ⟨awake, untouched, same⟩ := admitted
  rw [withMargin, withMargin, undisturbed, awake, untouched, same]

/-- A watched run that waits now and then meets the one that never does. -/
theorem watchedRun_meets {watch : Watch}
    (begins : ∀ occurrence, Bond.calm.Abreast (watch occurrence) (watch occurrence)) (fuel : Nat)
    (machine : Machine) (calls : List (List HandleCall)) :
    Bond.calm.Meets (watchedRun watch fuel (machine.disturbed calls))
      (watchedRun watch fuel machine.undisturbed) := by
  obtain ⟨alike, scopes⟩ := watchedEngine_abreast (fun occurrence _ => begins occurrence)
    (fun alike fuel => Engine.calm_watchedStatements (begins .statement) alike (Nat.le_refl fuel))
    fuel
  have admitted : Bond.calm.admits ⟨machine.suspended, HandleCall.found machine.suspended calls,
    machine.pending⟩ ⟨false, [], machine.pending⟩ := ⟨rfl, rfl, rfl⟩
  exact runBy_meets alike.toAlike scopes machine admitted rfl

/-- A watcher that does something only where a statement begins while the script is suspended makes
no difference to the run. -/
theorem watchedRun_wakeful {machine : Machine} {calls : List (List HandleCall)} {watch : Watch}
    (wakeful : ∀ occurrence state, occurrence.Awake machine.suspended calls state →
      watch occurrence state = .ok () state) (fuel : Nat) :
    watchedRun watch fuel (machine.disturbed calls) =
      watchedRun .idle fuel (machine.disturbed calls) := by
  have begins : ∀ occurrence, occurrence ≠ .statement →
      (Bond.equal machine.suspended calls).Abreast (watch occurrence) (Watch.idle occurrence) := by
    intro occurrence other
    have idle : watch occurrence = Watch.idle occurrence :=
      funext fun state => wakeful occurrence state fun same => absurd same other
    rw [idle]
    exact .of_oblivious (.pure ())
  obtain ⟨alike, scopes⟩ :=
    watchedEngine_abreast begins (Engine.wakeful_watchedStatements wakeful) fuel
  have admitted : (Bond.equal machine.suspended calls).admits (machine.disturbed calls).margin
      (machine.disturbed calls).margin := ⟨rfl, 0, rfl, rfl⟩
  have met := runBy_meets alike.toAlike scopes (machine.disturbed calls) admitted rfl
  rw [withMargin_margin, ← watchedRun, ← watchedRun] at met
  generalize watchedRun watch fuel (machine.disturbed calls) = outcome,
    watchedRun .idle fuel (machine.disturbed calls) = outcome' at met ⊢
  cases met with
  | ok admitted | error admitted => rw [admitted.1]
  | behind lags less => exact lags.elim

/-- Noting what begins keeps the ledgers of the two runs alike. -/
theorem ledger_calm (occurrence : Occurrence) :
    Bond.calm.Abreast (Watch.ledger occurrence) (Watch.ledger occurrence) := by
  cases occurrence with
  | term | body _ | library _ _ => exact .of_oblivious (.pure ())
  | statement =>
    refine ⟨fun machine => List.prefix_append _ _, fun machine margin margin' admitted => .ok ?_⟩
    obtain ⟨awake, untouched, same⟩ := admitted
    refine ⟨awake, untouched, ?_⟩
    simp only [Margin.noting, Margin.noted, margin_withMargin, same]
    rfl

/-- The ledger makes no difference to a run, except for what it holds. -/
theorem watchedRun_ledger (fuel : Nat) (machine : Machine) :
    amend (fun after => after.withMargin after.margin.taken) (watchedRun .ledger fuel machine) =
      amend (fun after => after.withMargin after.margin.taken) (run fuel machine) := by
  have law := Bond.Abreast.congruence Bond.noting
  have begins : ∀ occurrence,
      Bond.noting.Abreast (Watch.idle occurrence) (Watch.ledger occurrence) := by
    intro occurrence
    cases occurrence with
    | term | body _ | library _ _ => exact .of_oblivious (.pure ())
    | statement =>
      refine ⟨fun machine => List.prefix_append _ _, fun machine margin margin' admitted => ?_⟩
      exact .ok admitted
  have looks : Bond.noting.Abreast Engine.isSuspended Engine.isSuspended := by
    refine ⟨Grows.isSuspended, fun machine margin margin' admitted => ?_⟩
    obtain ⟨suspended, interference⟩ := admitted
    have same : Bond.noting.admits margin.looked margin'.looked := by
      unfold Margin.looked
      rw [interference]
      split
      · exact ⟨suspended, interference⟩
      · exact ⟨rfl, rfl⟩
    rw [Engine.isSuspended_looked, Engine.isSuspended_looked, margin_withMargin, margin_withMargin,
      same.1]
    exact .ok same
  obtain ⟨alike, scopes⟩ := watchedEngine_abreast (fun occurrence _ => begins occurrence)
    (fun alike fuel => alike.watchedStatements law (begins .statement) looks fuel) fuel
  have admitted : Bond.noting.admits machine.margin machine.margin := ⟨rfl, rfl⟩
  have met := runBy_meets alike.toAlike scopes machine admitted rfl
  rw [withMargin_margin, ← watchedRun, watchedRun_idle, ← watchedRun] at met
  generalize run fuel machine = outcome, watchedRun .ledger fuel machine = outcome' at met
  cases met with
  | @ok value after own other admitted | @error stop after own other admitted =>
    simp only [amend, margin_withMargin, withMargin_withMargin, Margin.taken, admitted.1,
      admitted.2]
  | behind lags less => exact lags.elim

/-- The statements that begin are a prefix of those of the run that is never suspended, and all of
those if the run ends. -/
theorem begun_calm (fuel : Nat) (machine : Machine) (calls : List (List HandleCall)) :
    begun fuel (machine.disturbed calls) <+: begun fuel machine.undisturbed ∧
    ((∃ after, run fuel (machine.disturbed calls) = .error .starved after) ∨
      begun fuel (machine.disturbed calls) = begun fuel machine.undisturbed) := by
  have met := watchedRun_meets ledger_calm fuel machine calls
  have noted := watchedRun_ledger fuel (machine.disturbed calls)
  have same : (machine.disturbed calls).running = machine.undisturbed.running := rfl
  unfold begun
  rw [same]
  split
  · exact ⟨List.prefix_refl _, .inr rfl⟩
  · unfold Exec.final
    generalize watchedRun .ledger fuel (machine.disturbed calls) = outcome,
      watchedRun .ledger fuel machine.undisturbed = outcome' at met noted
    cases met with
    | @ok value after own other admitted | @error stop after own other admitted =>
      have equal : own.noted = other.noted := by rw [Margin.noted, Margin.noted, admitted.2.2]
      exact ⟨Bond.calm.noted trivial admitted, .inr equal⟩
    | behind lags less =>
      refine ⟨less, .inl ?_⟩
      cases ran : run fuel (machine.disturbed calls) with
      | ok value after =>
        rw [ran] at noted
        cases noted
      | error stop after =>
        rw [ran] at noted
        rw [← (EStateM.Result.error.inj noted).1]
        exact ⟨after, rfl⟩

/-- If the run ends, it ends like the run that is never suspended. -/
theorem run_calm (fuel : Nat) (machine : Machine) (calls : List (List HandleCall)) :
    (∃ after, run fuel (machine.disturbed calls) = .error .starved after) ∨
      amend undisturbed (run fuel (machine.disturbed calls)) = run fuel machine.undisturbed := by
  have begins : ∀ occurrence, Bond.calm.Abreast (Watch.idle occurrence) (Watch.idle occurrence) :=
    fun occurrence => .of_oblivious (.pure ())
  have met := watchedRun_meets begins fuel machine calls
  rw [watchedRun_idle] at met
  generalize run fuel (machine.disturbed calls) = outcome,
    run fuel machine.undisturbed = outcome' at met
  cases met with
  | @ok value after own other admitted | @error stop after own other admitted =>
    right
    rw [amend, undisturbed_withMargin after admitted]
  | @behind after outcome lags less => exact .inl ⟨after, rfl⟩

/-- Suspending a script does not change what it does. What another party asks for suspends the machine or
lets it go on, and changes nothing else. However that party does so between the looks at the suspension,
a statement begins only if the last look found the script not suspended; the statements that have begun
are a prefix of those of the run that is never suspended; and if the run ends, it began the same
statements as that one and ends like it, with the same machine except for the suspension. -/
theorem suspension_unseen (fuel : Nat) (machine : Machine) (calls : List (List HandleCall)) :
    (∀ made : List HandleCall, made.forM HandleCall.act machine =
      .ok () { machine with suspended := HandleCall.settle machine.suspended made }) ∧
    Throughout .idle fuel (machine.disturbed calls) (Occurrence.Awake machine.suspended calls) ∧
    begun fuel (machine.disturbed calls) <+: begun fuel machine.undisturbed ∧
    ((∃ after, run fuel (machine.disturbed calls) = .error .starved after) ∨
      begun fuel (machine.disturbed calls) = begun fuel machine.undisturbed ∧
      amend undisturbed (run fuel (machine.disturbed calls)) = run fuel machine.undisturbed) := by
  obtain ⟨less, whole⟩ := begun_calm fuel machine calls
  refine ⟨fun made => HandleCall.act_settles made machine, fun watch wakeful =>
    watchedRun_wakeful (fun occurrence state awake => ?_) fuel, less, ?_⟩
  · unfold Watch.andThen
    rw [bind_ok (wakeful occurrence state awake)]
    rfl
  · rcases whole, run_calm fuel machine calls with ⟨cut | all, cut' | ends⟩
    · exact .inl cut
    · exact .inl cut
    · exact .inl cut'
    · exact .inr ⟨all, ends⟩

/-- A script that is suspended twice still does all that it does. -/
example : (do
    let tokens ← (tokenize "ConsoleWrite(1)\nConsoleWrite(2)").toOption
    let calls := [[.suspend], [], [.resume], [.suspend, .resume], [.suspend], [.resume]]
    let machine := (ofTokens {} "main" tokens).disturbed calls
    let _ ← returned? (run 12 machine)
    return (((run 12).final machine).stdout, (begun 12 machine).map (·.line))) =
      some ("12", [1, 1, 2]) := by decide +kernel

end Machine

end LineScript
