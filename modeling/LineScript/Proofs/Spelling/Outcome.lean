import LineScript.Interpreter.Call

/-!
# Outcomes that tell as much

A fault tells its stage, its class and its line; what else it says may quote the source. Two
computations tell as much when they end alike: both with results that agree, or both with faults
that tell as much, and in states that agree.
-/

namespace LineScript

/-- Two faults of one stage, one class and one line. -/
structure Fault.Alike (fault other : Fault) : Prop where
  /-- The reports begin with one heading. -/
  heading : other.heading = fault.heading
  /-- The class is the same, if there is one. -/
  kind : other.kind = fault.kind
  /-- The line is the same. -/
  line : other.line = fault.line

namespace Fault.Alike

variable {first second third : Fault}

/-- A fault tells as much as itself. -/
theorem refl (fault : Fault) : fault.Alike fault := ⟨rfl, rfl, rfl⟩

/-- Telling as much is symmetric. -/
theorem symm (alike : first.Alike second) : second.Alike first :=
  ⟨alike.heading.symm, alike.kind.symm, alike.line.symm⟩

/-- Telling as much is transitive. -/
theorem trans (earlier : first.Alike second) (later : second.Alike third) : first.Alike third :=
  ⟨later.heading.trans earlier.heading, later.kind.trans earlier.kind, later.line.trans earlier.line⟩

/-- Faults of preparation at one line. -/
theorem preparing (cause other : PrepareCause) (line : Nat) :
    Alike (.preparing cause line) (.preparing other line) := ⟨rfl, rfl, rfl⟩

/-- Faults of a running script of one class at one line. -/
theorem running {cause other : RunCause} (line : Nat) (calls others : List CallFrame)
    (kind : other.kind = cause.kind) :
    Alike (.running cause line calls) (.running other line others) :=
  ⟨by simp only [Fault.heading, kind], kind, rfl⟩

/-- The calls that a fault leaves do not matter. -/
theorem leaving (alike : first.Alike second) (function other : String) (line : Nat) :
    (first.leaving function line).Alike (second.leaving other line) := by
  have stays (fault : Fault) (function : String) : fault.Alike (fault.leaving function line) := by
    cases fault <;> exact ⟨rfl, rfl, rfl⟩
  exact ((stays first function).symm.trans alike).trans (stays second other)

end Fault.Alike

/-- Two actions stop for want of fuel, or with faults that tell as much. -/
inductive Stop.Alike : Stop → Stop → Prop where
  /-- Both stop with a fault. -/
  | fault {fault other : Fault} (alike : fault.Alike other) : Alike (.fault fault) (.fault other)
  /-- Both stop for want of fuel. -/
  | halted (halt : Halt) : Alike (.halted halt) (.halted halt)

namespace Stop.Alike

variable {stop other last : Stop}

/-- A reason to stop tells as much as itself. -/
theorem refl (stop : Stop) : stop.Alike stop := by
  cases stop with
  | fault fault => exact .fault (.refl fault)
  | halted halt => exact .halted halt

/-- Two stops alike to a third are alike. -/
theorem meet (first : stop.Alike last) (second : other.Alike last) : stop.Alike other := by
  cases first with
  | fault alike =>
    cases second with
    | fault alike' => exact .fault (alike.trans alike'.symm)
  | halted halt =>
    cases second with
    | halted => exact .halted halt

/-- The stop of a call is left behind with that call. -/
theorem leaving (alike : stop.Alike other) (function name : String) (line : Nat) :
    (stop.leaving function line).Alike (other.leaving name line) := by
  cases alike with
  | fault alike => exact .fault (alike.leaving function name line)
  | halted halt => exact .halted halt

end Stop.Alike

variable {α β γ δ ε σ τ : Type}

/-- Two computations both fail alike, or have results that agree. -/
inductive Tells (agree : α → β → Prop) : Except Fault α → Except Fault β → Prop where
  /-- Both succeed. -/
  | ok {value : α} {other : β} (held : agree value other) : Tells agree (.ok value) (.ok other)
  /-- Both fail. -/
  | error {fault other : Fault} (alike : fault.Alike other) : Tells agree (.error fault) (.error other)

namespace Tells

/-- What follows holds whether both computations succeed or both fail. -/
@[elab_as_elim]
theorem elim {agree : α → β → Prop} {left : Except Fault α} {right : Except Fault β}
    {motive : Except Fault α → Except Fault β → Prop} (tells : Tells agree left right)
    (fails : ∀ fault other, fault.Alike other → motive (.error fault) (.error other))
    (succeeds : ∀ value other, agree value other → motive (.ok value) (.ok other)) :
    motive left right := by
  cases tells with
  | ok held => exact succeeds _ _ held
  | error alike => exact fails _ _ alike

variable {agree : α → β → Prop} {later : γ → δ → Prop} {left : Except Fault α} {right : Except Fault β}

/-- An outcome tells as much as itself. -/
theorem refl (outcome : Except Fault α) : Tells Eq outcome outcome := by
  cases outcome with
  | ok value => exact .ok rfl
  | error fault => exact .error (.refl fault)

/-- Sequences tell as much when both parts do. -/
theorem bind {next : α → Except Fault γ} {other : β → Except Fault δ} (first : Tells agree left right)
    (rest : ∀ value result, agree value result → Tells later (next value) (other result)) :
    Tells later (left >>= next) (right >>= other) := by
  cases first with
  | ok held => exact rest _ _ held
  | error alike => exact .error alike

/-- What agrees is what the computations return. -/
theorem returned (tells : Tells agree left right) :
    Tells (fun value other => agree value other ∧ left = .ok value) left right := by
  cases tells with
  | ok held => exact .ok ⟨held, rfl⟩
  | error alike => exact .error alike

/-- A computation for each member of a list. -/
theorem forM {first : α → Except Fault PUnit} {other : β → Except Fault PUnit} {change : α → β}
    (each : ∀ member, Tells Eq (first member) (other (change member))) (list : List α) :
    Tells Eq (list.forM first) ((list.map change).forM other) := by
  induction list with
  | nil => exact .ok rfl
  | cons member list ih => exact (each member).bind fun _ _ _ => ih

end Tells

/-- Two computations on states both stop alike, or have results that agree, in states that agree. -/
inductive EndAlike (stops : ε → ε → Prop) (states : σ → τ → Prop) (agree : α → β → Prop) :
    EStateM.Result ε σ α → EStateM.Result ε τ β → Prop where
  /-- Both return. -/
  | ok {value : α} {other : β} {after : σ} {last : τ} (held : agree value other)
    (kept : states after last) : EndAlike stops states agree (.ok value after) (.ok other last)
  /-- Both stop. -/
  | error {stop other : ε} {after : σ} {last : τ} (alike : stops stop other)
    (kept : states after last) : EndAlike stops states agree (.error stop after) (.error other last)

namespace EndAlike

variable {stops : ε → ε → Prop} {states kept : σ → τ → Prop} {agree weaker : α → β → Prop}

/-- Ends that are alike are alike under weaker conditions. -/
theorem mono {left : EStateM.Result ε σ α} {right : EStateM.Result ε τ β}
    (ended : EndAlike stops states agree left right)
    (weakens : ∀ value other, agree value other → weaker value other)
    (keeps : ∀ after last, states after last → kept after last) : EndAlike stops kept weaker left right := by
  cases ended with
  | ok held same => exact .ok (weakens _ _ held) (keeps _ _ same)
  | error alike same => exact .error alike (keeps _ _ same)

/-- Two computations that end like a third one. -/
theorem meet {ζ ρ : Type} {joint : ε → ε → Prop} {others : ρ → τ → Prop} {claims : ζ → β → Prop}
    {left : EStateM.Result ε σ α} {middle : EStateM.Result ε τ β} {right : EStateM.Result ε ρ ζ}
    (common : ∀ stop other last, stops stop last → stops other last → joint stop other)
    (first : EndAlike stops states agree left middle) (second : EndAlike stops others claims right middle) :
    EndAlike joint (fun after last => ∃ end', states after end' ∧ others last end')
      (fun value other => ∃ result, agree value result ∧ claims other result) left right := by
  cases first with
  | ok held kept =>
    cases second with
    | ok held' kept' => exact .ok ⟨_, held, held'⟩ ⟨_, kept, kept'⟩
  | error alike kept =>
    cases second with
    | error alike' kept' => exact .error (common _ _ _ alike alike') ⟨_, kept, kept'⟩

/-- Steps that follow computations which end alike. -/
theorem bind {later : γ → δ → Prop} {left : EStateM ε σ α} {right : EStateM ε τ β} {before : σ} {start : τ}
    {next : α → EStateM ε σ γ} {other : β → EStateM ε τ δ}
    (first : EndAlike stops states agree (left before) (right start))
    (rest : ∀ value result after last, agree value result → states after last →
      EndAlike stops states later (next value after) (other result last)) :
    EndAlike stops states later ((left >>= next) before) ((right >>= other) start) := by
  simp only [Bind.bind, EStateM.bind]
  generalize left before = ended at first ⊢
  generalize right start = finished at first ⊢
  cases first with
  | ok held kept => exact rest _ _ _ _ held kept
  | error alike kept => exact .error alike kept

/-- Steps that look at the states first. -/
theorem get {later : γ → δ → Prop} {before : σ} {start : τ} {next : σ → EStateM ε σ γ}
    {other : τ → EStateM ε τ δ}
    (rest : EndAlike stops states later (next before before) (other start start)) :
    EndAlike stops states later ((MonadState.get >>= next) before) ((MonadState.get >>= other) start) := rest

end EndAlike

end LineScript
