import LineScript.Fault.Report

/-!
# Outcomes of chained computations

A chain of computations succeeds only if each of them does.
-/

namespace LineScript

variable {ε σ α β : Type}

/-- What is left of an outcome without its reason. -/
theorem eq_ok_of_toOption {outcome : Except ε α} {value : α}
    (same : outcome.toOption = some value) : outcome = .ok value := by
  cases outcome with
  | error reason => cases same
  | ok found =>
    cases same
    rfl

/-- A chain succeeds exactly when its parts do. -/
theorem bind_eq_ok {first : Except ε α} {next : α → Except ε β} {result : β} :
    (first >>= next) = .ok result ↔ ∃ value, first = .ok value ∧ next value = .ok result := by
  cases first with
  | error reason => simp [Bind.bind, Except.bind]
  | ok value => simp [Bind.bind, Except.bind]

/-- A chain fails where the first of its parts fails. -/
theorem bind_eq_error {first : Except ε α} {next : α → Except ε β} {reason : ε} :
    (first >>= next) = .error reason ↔
      first = .error reason ∨ ∃ value, first = .ok value ∧ next value = .error reason := by
  cases first with
  | error other => simp [Bind.bind, Except.bind]
  | ok value => simp [Bind.bind, Except.bind]

/-- A chain along a list succeeds exactly when it does at each member. -/
theorem forM_eq_ok {check : α → Except ε Unit} {entries : List α} :
    entries.forM check = .ok () ↔ ∀ entry ∈ entries, check entry = .ok () := by
  induction entries with
  | nil => exact ⟨fun _ => nofun, fun _ => rfl⟩
  | cons entry rest ih =>
    rw [List.forM_eq_forM, List.forM_cons, bind_eq_ok, List.forall_mem_cons, ← ih]
    constructor
    · rintro ⟨⟨⟩, here, later⟩
      exact ⟨here, later⟩
    · rintro ⟨here, later⟩
      exact ⟨(), here, later⟩

/-- Reading the state of a chain of actions. -/
theorem run_get (state : σ) : (get : EStateM ε σ σ) state = .ok state state := rfl

/-- Changing the state of a chain of actions. -/
theorem run_modify (change : σ → σ) (state : σ) :
    (modify change : EStateM ε σ PUnit) state = .ok ⟨⟩ (change state) := rfl

/-- What a chain of actions on a state returns, if it does. -/
def returned? : EStateM.Result ε σ α → Option α
  | .ok value _ => some value
  | .error .. => none

/-- An outcome whose returned value is read has returned it. -/
theorem eq_ok_of_returned? {outcome : EStateM.Result ε σ α} {value : α}
    (same : returned? outcome = some value) : ∃ last, outcome = .ok value last := by
  cases outcome with
  | error reason last => cases same
  | ok found last =>
    cases same
    exact ⟨last, rfl⟩

/-- Why a chain of actions on a state stops, if it does. -/
def stopped? : EStateM.Result ε σ α → Option ε
  | .ok .. => none
  | .error reason _ => some reason

/-- An outcome whose reason to stop is read has stopped for it. -/
theorem eq_error_of_stopped? {outcome : EStateM.Result ε σ α} {reason : ε}
    (same : stopped? outcome = some reason) : ∃ last, outcome = .error reason last := by
  cases outcome with
  | error found last =>
    cases same
    exact ⟨last, rfl⟩
  | ok value last => cases same

/-- A chain of actions on a state succeeds exactly when its parts do, one after the other. -/
theorem run_bind_eq_ok {first : EStateM ε σ α} {next : α → EStateM ε σ β} {state last : σ}
    {result : β} : (first >>= next) state = .ok result last ↔
      ∃ value middle, first state = .ok value middle ∧ next value middle = .ok result last := by
  simp only [Bind.bind, EStateM.bind]
  cases first state with
  | error reason middle => simp
  | ok value middle =>
    constructor
    · exact fun later => ⟨value, middle, rfl, later⟩
    · rintro ⟨_, _, ⟨⟩, later⟩
      exact later

/-- A chain of actions on a state stops where the first of its parts stops. -/
theorem run_bind_eq_error {first : EStateM ε σ α} {next : α → EStateM ε σ β} {state last : σ}
    {reason : ε} : (first >>= next) state = .error reason last ↔
      first state = .error reason last ∨
        ∃ value middle, first state = .ok value middle ∧
          next value middle = .error reason last := by
  simp only [Bind.bind, EStateM.bind]
  cases first state with
  | error other middle => simp
  | ok value middle =>
    constructor
    · exact fun later => .inr ⟨value, middle, rfl, later⟩
    · rintro (stopped | ⟨_, _, ⟨⟩, later⟩)
      · cases stopped
      · exact later

end LineScript
