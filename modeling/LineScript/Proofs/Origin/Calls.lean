import LineScript.Program.Prepare
import LineScript.Proofs.Program.Functions

/-!
# What preparing keeps of the tokens

The passes that make a program move tokens into its tables and put new ones in their place only for
calls and loops. So whatever holds of all tokens of a script, and of a token that stands for a call
or loop if it holds of the one that begins it, holds of all tokens of the program
(`Program.prepareJoined_yields`). A fault that stops a pass points at the line of a token; only a
call and a list of parameters can be stopped by the end of a line.
-/

namespace LineScript

/-- Causes of faults that may point at the end of a line. -/
def PrepareCause.isLineEnd : PrepareCause → Bool
  | callLineEnd _ | parameterToken .. => true
  | _ => false

/-- A line on which one of some tokens stands that does not end it. -/
def Anchored (kept : Token → Prop) (line : Nat) : Prop :=
  ∃ token, kept token ∧ token.kind ≠ .eol ∧ token.line = line

/-- The fault of a preparation points at the line of one of some tokens. -/
def Fault.IsAt (kept : Token → Prop) (fault : Fault) : Prop :=
  ∃ cause token, kept token ∧ fault = .preparing cause token.line ∧
    (token.kind = .eol → cause.isLineEnd = true)

variable {α β : Type} {kept : Token → Prop}

/-- A fault at an anchored line is at a kept token. -/
theorem Anchored.isAt {line : Nat} {cause : PrepareCause} (anchored : Anchored kept line) :
    Fault.IsAt kept (.preparing cause line) := by
  obtain ⟨token, holds, kind, rfl⟩ := anchored
  exact ⟨cause, token, holds, rfl, fun isEol => absurd isEol kind⟩

/-- A fault at a kept token is at one under a wider choice of tokens. -/
theorem Fault.IsAt.mono {wider : Token → Prop} {fault : Fault} (isAt : fault.IsAt kept)
    (widens : ∀ token, kept token → wider token) : fault.IsAt wider := by
  obtain ⟨cause, token, holds, same, atEnd⟩ := isAt
  exact ⟨cause, token, widens token holds, same, atEnd⟩

/-- Whatever a pass gives is as it should be, and its fault points at one of some tokens. -/
def Yields (kept : Token → Prop) (outcome : Except Fault α) (post : α → Prop) : Prop :=
  match outcome with
  | .ok value => post value
  | .error fault => fault.IsAt kept

namespace Yields

variable {outcome : Except Fault α} {post : α → Prop}

/-- A good result is yielded. -/
theorem ok {value : α} (holds : post value) : Yields kept (.ok value) post := holds

/-- A fault at an anchored line is yielded. -/
theorem error {cause : PrepareCause} {line : Nat} (anchored : Anchored kept line) :
    Yields kept (.error (.preparing cause line) : Except Fault α) post := anchored.isAt

/-- A sequence yields when both parts do. -/
theorem bind {next : α → Except Fault β} {later : β → Prop} (yields : Yields kept outcome post)
    (rest : ∀ value, post value → Yields kept (next value) later) :
    Yields kept (outcome >>= next) later := by
  cases outcome with
  | ok value => exact rest value yields
  | error fault => exact yields

/-- What a pass gave is as it should be. -/
theorem of_eq_ok {value : α} (yields : Yields kept outcome post) (ran : outcome = .ok value) :
    post value := by
  rw [ran] at yields
  exact yields

/-- The fault of a pass points at a token. -/
theorem of_eq_error {fault : Fault} (yields : Yields kept outcome post)
    (ran : outcome = .error fault) : fault.IsAt kept := by
  rw [ran] at yields
  exact yields

end Yields

/-- All tokens are kept. -/
abbrev AllKept (kept : Token → Prop) (tokens : List Token) : Prop := ∀ token ∈ tokens, kept token

/-- No tokens are all kept. -/
theorem allKept_nil : AllKept kept [] := List.forall_mem_nil _

/-- All of a list are kept exactly when its first token and the others are. -/
theorem allKept_cons {token : Token} {rest : List Token} :
    AllKept kept (token :: rest) ↔ kept token ∧ AllKept kept rest := List.forall_mem_cons

/-- All of two lists are kept exactly when all of each are. -/
theorem allKept_append {first rest : List Token} :
    AllKept kept (first ++ rest) ↔ AllKept kept first ∧ AllKept kept rest := List.forall_mem_append

/-- Reversing a list keeps its tokens kept. -/
theorem allKept_reverse {tokens : List Token} :
    AllKept kept tokens.reverse ↔ AllKept kept tokens := by simp [AllKept]

/-- A kept token that ends no line anchors its line. -/
theorem anchored_of_kind {token : Token} (holds : kept token) (kind : token.kind ≠ .eol) :
    Anchored kept token.line := ⟨token, holds, kind, rfl⟩

/-- A token that does not end a line is no line end. -/
theorem ne_eol_of_endsLine {token : Token} (goesOn : ¬token.endsLine = true) :
    token.kind ≠ .eol := by
  rintro kind
  simp [Token.endsLine, kind] at goesOn

namespace Continuation

/-- What is read after a continuation mark is kept, and a fault there is anchored. -/
theorem afterMark_yields {line : Nat} {tokens : List Token} (anchored : Anchored kept line)
    (all : AllKept kept tokens) : Yields kept (afterMark line tokens) (AllKept kept) := by
  induction tokens with
  | nil => exact .error anchored
  | cons token rest ih =>
    have here := allKept_cons.mp all
    unfold afterMark
    split
    · exact ih here.2
    · split
      · exact .ok here.2
      · rename_i notEol
        exact .error (anchored_of_kind here.1 notEol)

/-- Joining lines takes the marks out and adds nothing. -/
theorem join_yields {tokens : List Token} (all : AllKept kept tokens) :
    Yields kept (join tokens) (AllKept fun token => kept token ∧ token.kind ≠ .extend) := by
  fun_induction join tokens with
  | case1 => exact .ok allKept_nil
  | case2 token rest isMark tail read ih =>
    have here := allKept_cons.mp all
    have anchored := anchored_of_kind here.1 (by simp [isMark])
    exact ih ((afterMark_yields anchored here.2).of_eq_ok read)
  | case3 token rest isMark fault read =>
    have here := allKept_cons.mp all
    have anchored := anchored_of_kind here.1 (by simp [isMark])
    exact (afterMark_yields anchored here.2).of_eq_error read
  | case4 token rest notMark later read ih =>
    have here := allKept_cons.mp all
    exact .ok (allKept_cons.mpr ⟨⟨here.1, notMark⟩, (ih here.2).of_eq_ok read⟩)
  | case5 token rest notMark fault read ih => exact (ih (allKept_cons.mp all).2).of_eq_error read

end Continuation

/-- What holds of a token that does not end a line holds of the token that stands for the call or
loop that it begins. -/
def Inherited (kept : Token → Prop) : Prop :=
  ∀ (token : Token) (kind : TokenKind) (lexeme : String), kept token → token.kind ≠ .eol →
    kind.isEntry = true → kept { token with kind, lexeme }

/-- All tokens of some runs are kept. -/
abbrev BlocksKept (kept : Token → Prop) (blocks : List TokenBlock) : Prop :=
  ∀ block ∈ blocks, AllKept kept block.toList

namespace CallSites

/-- What has been read of an open call is kept. -/
structure OpenCall.Kept (kept : Token → Prop) (call : OpenCall) : Prop where
  /-- The name. -/
  name : kept call.name
  /-- It is a name. -/
  isName : call.name.kind = .identifier
  /-- Finished arguments. -/
  groups : ∀ group ∈ call.groups, AllKept kept group
  /-- The argument being read. -/
  group : AllKept kept call.group

/-- The arguments of a call are kept, and it begins where a token stands. -/
structure SiteKept (kept : Token → Prop) (site : CallSite) : Prop where
  /-- The arguments. -/
  args : BlocksKept kept site.args
  /-- The line. -/
  line : Anchored kept site.line

/-- Everything that has been read is kept. -/
structure State.Kept (kept : Token → Prop) (state : State) : Prop where
  /-- Open calls. -/
  opened : ∀ call ∈ state.opened, call.Kept kept
  /-- Tokens outside calls. -/
  out : AllKept kept state.out
  /-- Finished calls. -/
  calls : ∀ site ∈ state.calls, SiteKept kept site

variable {call : OpenCall} {state : State} {token : Token}

/-- An open call of kept tokens anchors the line of its name. -/
theorem OpenCall.Kept.anchored (holds : call.Kept kept) : Anchored kept call.name.line :=
  anchored_of_kind holds.name (by simp [holds.isName])

/-- Pushing a kept token keeps an open call kept. -/
theorem OpenCall.Kept.push (holds : call.Kept kept) (here : kept token) (parens brackets : Nat) :
    OpenCall.Kept kept { call.push token with parens, brackets } :=
  ⟨holds.name, holds.isName, holds.groups, allKept_cons.mpr ⟨here, holds.group⟩⟩

/-- Accepting a kept token keeps an open call kept, and a fault there is anchored. -/
theorem OpenCall.Kept.accept (holds : call.Kept kept) (here : kept token) :
    Yields kept (call.accept token) (OpenCall.Kept kept) := by
  unfold OpenCall.accept
  split
  case h_5 isComma =>
    have anchored : Anchored kept token.line := anchored_of_kind here (by simp [isComma])
    split
    · exact .ok (holds.push here _ _)
    · split
      · exact .error anchored
      · split
        · exact .error anchored
        · exact .ok ⟨holds.name, holds.isName,
            List.forall_mem_cons.mpr ⟨allKept_reverse.mpr holds.group, holds.groups⟩, allKept_nil⟩
  case h_6 | h_7 => exact ⟨_, token, here, rfl, fun _ => rfl⟩
  all_goals exact .ok (holds.push here _ _)

/-- Closing an open call of kept tokens gives a kept call site, and a fault there is anchored. -/
theorem OpenCall.Kept.close (holds : call.Kept kept) :
    Yields kept call.close (SiteKept kept) := by
  have site : ∀ groups : List (List Token), (∀ group ∈ groups, AllKept kept group) →
      SiteKept kept ⟨call.name.lexeme, groups.reverse.map List.toArray, call.name.line⟩ := by
    intro groups all
    refine ⟨fun block member => ?_, holds.anchored⟩
    obtain ⟨group, inside, rfl⟩ := List.mem_map.mp member
    exact all group (List.mem_reverse.mp inside)
  unfold OpenCall.close
  dsimp only
  split
  · exact .ok (site _ (List.forall_mem_cons.mpr ⟨allKept_reverse.mpr holds.group, holds.groups⟩))
  · split
    · exact .ok (site _ nofun)
    · exact .error holds.anchored

/-- Emitting a kept token keeps the state kept. -/
theorem State.Kept.emit (holds : state.Kept kept) (here : kept token) :
    (state.emit token).Kept kept := by
  unfold State.emit
  split
  · rename_i open'
    have opened := holds.opened
    rw [open'] at opened
    obtain ⟨first, rest⟩ := List.forall_mem_cons.mp opened
    exact ⟨List.forall_mem_cons.mpr ⟨first.push here _ _, rest⟩, holds.out, holds.calls⟩
  · exact ⟨holds.opened, allKept_cons.mpr ⟨here, holds.out⟩, holds.calls⟩

variable (inherited : Inherited kept)
include inherited

/-- The token that stands for a call of kept tokens is kept. -/
theorem OpenCall.Kept.entry (holds : call.Kept kept) (id : Nat) : kept (call.token id) := by
  unfold OpenCall.token
  refine inherited call.name _ call.name.lexeme holds.name (by simp [holds.isName]) ?_
  split <;> rfl

/-- Accepting a kept token keeps the state kept, and a fault there is anchored. -/
theorem State.Kept.accept (holds : state.Kept kept) (here : kept token) :
    Yields kept (state.accept token) (State.Kept kept) := by
  unfold State.accept
  split
  · exact .ok ⟨holds.opened, allKept_cons.mpr ⟨here, holds.out⟩, holds.calls⟩
  · rename_i call outer open'
    have opened := holds.opened
    rw [open'] at opened
    obtain ⟨first, rest⟩ := List.forall_mem_cons.mp opened
    split
    · refine first.close.bind fun site closed => .ok (State.Kept.emit ⟨rest, holds.out, ?_⟩
        (first.entry inherited _))
      exact fun other member => (Array.mem_push.mp member).elim (holds.calls other) fun same =>
        same ▸ closed
    · exact (first.accept here).bind fun call taken =>
        .ok ⟨List.forall_mem_cons.mpr ⟨taken, rest⟩, holds.out, holds.calls⟩

/-- Scanning kept tokens keeps the state kept, and a fault there is anchored. -/
theorem scan_yields {tokens : List Token} (holds : state.Kept kept) (all : AllKept kept tokens) :
    Yields kept (scan state tokens) fun last => last.Kept kept := by
  fun_induction scan state tokens with
  | case1 state call outer open' =>
    have opened := holds.opened
    rw [open'] at opened
    exact .error (List.forall_mem_cons.mp opened).1.anchored
  | case2 => exact .ok holds
  | case3 state token ih =>
    exact (holds.accept inherited (allKept_cons.mp all).1).bind fun state kept => ih state kept nofun
  | case4 state token next rest _ ih =>
    obtain ⟨here, all⟩ := allKept_cons.mp all
    obtain ⟨hereNext, all⟩ := allKept_cons.mp all
    exact ih ⟨holds.opened, allKept_cons.mpr ⟨hereNext, allKept_cons.mpr ⟨here, holds.out⟩⟩,
      holds.calls⟩ all
  | case5 state token next rest _ isCall ih =>
    obtain ⟨here, all⟩ := allKept_cons.mp all
    exact ih ⟨List.forall_mem_cons.mpr ⟨⟨here, isCall.1, nofun, nofun⟩, holds.opened⟩, holds.out,
      holds.calls⟩ (allKept_cons.mp all).2
  | case6 state token next rest _ _ later accepted ih =>
    obtain ⟨here, all⟩ := allKept_cons.mp all
    exact ih ((holds.accept inherited here).of_eq_ok accepted) all
  | case7 state token next rest _ _ fault accepted =>
    exact (holds.accept inherited (allKept_cons.mp all).1).of_eq_error accepted

/-- Taking calls out moves tokens and puts in those that stand for the calls. -/
theorem extract_yields {tokens : List Token} (all : AllKept kept tokens) :
    Yields kept (extract tokens) fun result =>
      AllKept kept result.1 ∧ ∀ site ∈ result.2, SiteKept kept site := by
  have start : State.Kept kept {} := ⟨List.forall_mem_nil _, allKept_nil, by simp⟩
  exact (scan_yields inherited start all).bind fun _ held =>
    .ok ⟨allKept_reverse.mpr held.out, held.calls⟩

end CallSites

end LineScript
