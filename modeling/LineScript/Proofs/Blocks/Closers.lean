import LineScript.Proofs.Blocks.Accepted
import LineScript.Proofs.Blocks.Windows
import LineScript.Proofs.Program.Tables

/-!
# Closing words are found

Every statement of an accepted program whose runs of tokens are tidy finds the words that end its
conditions and close its blocks, in whatever window it is run. Without tidiness it may not: a
block can be opened in the branch of a choice on one line and closed on a later line, where the
check finds the closing word and a run does not.
-/

namespace LineScript

/-- The cause is a keyword without its partner. -/
def RunCause.isCloserMissing : RunCause → Bool
  | closerMissing .. => true
  | _ => false

/-- The reason to stop is a keyword without its partner. -/
def Stop.isCloserMissing : Stop → Bool
  | fault (.running cause _ _) => cause.isCloserMissing
  | _ => false

namespace Program

open Layout Structure Structured Blocks

variable {program : Program}

/-- All statements of the program are tidy. -/
def isTidy (program : Program) : Bool := program.streams.all Blocks.isTidy

/-- The guard of a program that misses no partner of a keyword: its statements stand in regular
windows. -/
def closedGuard (program : Program)
    (regular : ∀ tokens ∈ program.streams, Regular tokens 0 tokens.size) : Guard where
  program
  block _ := True
  place := Placed
  allows cause := cause.isCloserMissing = false
  allows_of_free cause free := by
    cases cause <;> first | rfl | cases free
  call_known _ _ _ _ := rfl
  loop_known _ _ _ _ := rfl
  block_arg _ _ _ := trivial
  block_head _ _ _ := trivial
  place_loop stored := .inr (regular _ (mem_streams_loop stored))
  block_default _ _ _ _ _ := trivial
  place_function found := .inr (regular _ (mem_streams_function found))
  block_of_place _ := trivial
  place_pass placed passes := placed.later passes.le
  place_line placed _ _ := placed.later (Nat.le_succ _)
  place_skip placed here isFunc := by
    obtain ⟨before, stored, regular⟩ := placed.regular here
    exact absurd isFunc (regular.not_func before stored)
  choice := by
    intro window pos opener placed here isIf
    obtain ⟨before, stored, regular⟩ := placed.regular here
    have head := (regular.heads pos opener (Nat.le_refl _) before stored).choice (.inl isIf)
    obtain ⟨found, ends, _⟩ := head
    have order := lt_of_findThen ends
    rw [ends]
    dsimp only
    by_cases single : isSingleLineIf window.tokens pos window.stop = true
    · rw [if_pos single]
      have lineEnd : found + 1 ≤ lineEnd window.tokens (found + 1) window.stop := le_seek ..
      exact ⟨regular.choiceOnLine before stored isIf single ends,
        placed.later (Nat.le_trans (Nat.le_of_lt order) (Nat.le_of_succ_le lineEnd))⟩
    · rw [if_neg single]
      obtain ⟨branches, close, made, behind, bodies⟩ :=
        regular.choice before stored isIf (Bool.eq_false_iff.mpr single) ends
      rw [made]
      exact ⟨bodies, placed.later (Nat.le_succ_of_le behind)⟩
  selection := by
    intro window pos opener start closer name placed here isSelection read
    obtain ⟨before, stored, regular⟩ := placed.regular here
    obtain ⟨close', markers, parts⟩ := regular.selects before stored isSelection read
    have closes : closesBlock closer = true := by
      rcases isSelection with ⟨_, rfl⟩ | ⟨_, rfl⟩ <;> rfl
    split
    · rename_i failed
      rcases clauses_fault failed with ⟨none', _⟩ | ⟨_, _, rfl⟩
      · cases none'.symm.trans (parts.halts none (.nothing _)).1
      · rfl
    · rename_i made
      obtain ⟨behind, bodies⟩ := regular.selection (Nat.le_of_lt read.le) parts closes made
      exact ⟨bodies, placed.later (Nat.le_succ_of_le behind)⟩
  whileLoop := by
    intro window pos opener placed here isWhile
    obtain ⟨before, stored, regular⟩ := placed.regular here
    have quiet := (regular.heads pos opener (Nat.le_refl _) before stored).loop isWhile
    obtain ⟨close, halted, behind, body⟩ := regular.loop before stored
      (show closer? opener.kind = some .kwWEnd by rw [isWhile]; rfl)
      (by simp [opensBlock, stored, isWhile]) quiet (le_seek ..) (seek_le _ _ before)
    have found : (scanOutermost window.tokens (statementEnd window.tokens (pos + 1) window.stop)
        window.stop fun token => token.kind == .kwWEnd).halted = some close := halted
    dsimp only
    rw [found]
    exact ⟨body, placed.later (Nat.le_succ_of_le behind)⟩
  doLoop := by
    intro window pos opener placed here isDo
    obtain ⟨before, stored, regular⟩ := placed.regular here
    have nothing : Quiet window.tokens (pos + 1) (pos + 1) := fun _ from' earlier =>
      absurd from' (Nat.not_le_of_lt earlier)
    obtain ⟨close, halted, behind, body⟩ := regular.loop before stored
      (show closer? opener.kind = some .kwUntil by rw [isDo]; rfl)
      (by simp [opensBlock, stored, isDo]) nothing (Nat.lt_succ_self pos) before
    have found : (scanOutermost window.tokens (pos + 1) window.stop
        fun token => token.kind == .kwUntil).halted = some close := halted
    have ending : close + 1 ≤ statementEnd window.tokens (close + 1) window.stop := le_seek ..
    rw [found]
    exact ⟨body, placed.later (Nat.le_trans behind (Nat.le_of_succ_le ending))⟩

/-- All statements of a program that was checked are accepted. -/
theorem check_streams (checked : program.check = .ok ()) :
    ∀ tokens ∈ program.streams, Structure.check tokens = .ok () := by
  obtain ⟨⟨⟩, script, checked⟩ := bind_eq_ok.mp checked
  obtain ⟨⟨⟩, loops, functions⟩ := bind_eq_ok.mp checked
  refine List.forall_mem_cons.mpr ⟨script, fun tokens member => ?_⟩
  rcases List.mem_append.mp member with member | member
  · obtain ⟨loop, entry, rfl⟩ := List.mem_map.mp member
    exact check_of_forM loops loop entry
  · obtain ⟨function, entry, rfl⟩ := List.mem_map.mp member
    exact check_of_forM functions function entry

/-- No run of an accepted program that is tidy, and no call of one of its functions, stops for want
of the word that ends a condition or closes a block. -/
theorem closers_found {host : Host} {script : String} {tokens : List Token} {program : Program}
    (prepared : (prepare host script tokens).result = .ok program)
    (tidy : program.isTidy = true) :
    (∀ (machine after : Machine) (fuel : Nat) (stop : Stop), machine.Poised program →
      Machine.run fuel machine = .error stop after → stop.isCloserMissing = false) ∧
    (∀ (machine after : Machine) (fuel : Nat) (stop : Stop) (name : String)
      (args : List Value) (line : Nat), machine.program = program →
      Machine.call fuel name args line machine = .error stop after →
      stop.isCloserMissing = false) := by
  obtain ⟨_, _, joined, defined, _, _, assembled⟩ := passes_of_prepare prepared
  obtain ⟨_, _, _, _, _, _, _, _, checked⟩ := assemble_eq_ok assembled
  have regular : ∀ tokens ∈ program.streams, Regular tokens 0 tokens.size := fun tokens member =>
    regular_of_check (List.all_eq_true.mp tidy tokens member) (check_streams checked tokens member)
  have permitted : ∀ stop, (program.closedGuard regular).permits stop →
      stop.isCloserMissing = false := by
    rintro (⟨_ | _ | _⟩ | _) permits <;> first | rfl | exact permits
  refine ⟨fun machine after fuel stop poised stopped => ?_,
    fun machine after fuel stop name args line same stopped => ?_⟩
  · exact permitted stop
      (Guard.permits_run (.inr (regular _ List.mem_cons_self)) poised stopped)
  · exact permitted stop (Guard.permits_call same stopped)

/-- What becomes of a script: whether it is tidy, and whether its run stops for want of a closing
word; nothing if it is not accepted. -/
def trial (source : String) : Option (Bool × Bool) :=
  (tokenize source).toOption.bind fun tokens =>
    (prepare {} (Host.absolutePath {} "main") tokens).result.toOption.map fun program =>
      (program.isTidy, match Machine.run 20 (.ofTokens {} "main" tokens) with
        | .error stop _ => stop.isCloserMissing
        | .ok .. => false)

/-- A finished trial gives the tokens, the prepared program and the two readings it reports. -/
theorem trial_eq_some {source : String} {tidy misses : Bool} (tried : trial source = some (tidy, misses)) :
    ∃ tokens program, tokenize source = .ok tokens ∧
      (prepare {} (Host.absolutePath {} "main") tokens).result = .ok program ∧
      program.isTidy = tidy ∧ (match Machine.run 20 (.ofTokens {} "main" tokens) with
        | .error stop _ => stop.isCloserMissing
        | .ok .. => false) = misses := by
  unfold trial at tried
  obtain ⟨tokens, read, tried⟩ := Option.bind_eq_some_iff.mp tried
  obtain ⟨program, prepared, same⟩ := Option.map_eq_some_iff.mp tried
  cases same
  have ok : ∀ {α : Type} {outcome : Except Fault α} {value : α},
      outcome.toOption = some value → outcome = .ok value := by
    intro α outcome value is
    cases outcome <;> cases is
    rfl
  exact ⟨tokens, program, ok read, ok prepared, rfl, rfl⟩

/-- Choices on one line, one in the other, keep an accepted script tidy. -/
theorem closers_found_nested : ∃ tokens program,
    tokenize "If True Then If True Then $x = 1 EndIf\nWhile False\nWEnd\n" = .ok tokens ∧
      (Machine.ofTokens {} "main" tokens).Poised program ∧ program.isTidy = true ∧
      ∀ fuel stop after, Machine.run fuel (.ofTokens {} "main" tokens) = .error stop after →
        stop.isCloserMissing = false := by
  have tried : trial "If True Then If True Then $x = 1 EndIf\nWhile False\nWEnd\n" =
      some (true, false) := by decide +kernel
  obtain ⟨tokens, program, read, prepared, tidy, _⟩ := trial_eq_some tried
  have poised : (Machine.ofTokens {} "main" tokens).Poised program :=
    .inl ⟨rfl, tokens, rfl, prepared⟩
  exact ⟨tokens, program, read, poised, tidy, fun fuel stop after =>
    (closers_found prepared tidy).1 _ after fuel stop poised⟩

/-- A script that is accepted but not tidy, and that stops for want of a closing word. -/
def Misses (source : String) : Prop :=
  ∃ tokens program stop after, tokenize source = .ok tokens ∧
    (Machine.ofTokens {} "main" tokens).Poised program ∧ program.isTidy = false ∧
    Machine.run 20 (.ofTokens {} "main" tokens) = .error stop after ∧
    stop.isCloserMissing = true

/-- An untidy source whose trial reports a missing closer misses one. -/
theorem misses_of_trial {source : String} (tried : trial source = some (false, true)) :
    Misses source := by
  obtain ⟨tokens, program, read, prepared, tidy, ran⟩ := trial_eq_some tried
  split at ran
  · rename_i stop after stopped
    exact ⟨tokens, program, stop, after, read, .inl ⟨rfl, tokens, rfl, prepared⟩, tidy, stopped, ran⟩
  · cases ran

/-- Accepted scripts that are not tidy may stop for want of a closing word: with a block in a branch
on one line, and with words of blocks in conditions of loops and of choices. -/
theorem closers_missed :
    Misses "If True Then While False\nWEnd\n" ∧ Misses "While False WEnd\n" ∧
    Misses "If False EndIf Then\n" ∧
    Misses "While True\nIf False Then\nElseIf True EndIf WEnd Then\n" := by
  have tried : ∀ source ∈ ["If True Then While False\nWEnd\n", "While False WEnd\n",
      "If False EndIf Then\n", "While True\nIf False Then\nElseIf True EndIf WEnd Then\n"],
      trial source = some (false, true) := by decide +kernel
  exact ⟨misses_of_trial (tried _ (by simp)), misses_of_trial (tried _ (by simp)),
    misses_of_trial (tried _ (by simp)), misses_of_trial (tried _ (by simp))⟩

end Program

end LineScript
