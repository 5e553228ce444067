/-! # Scripts

A script issues one operation after the other to a machine and goes on with what
the machine answers. It may end early with an exit status. The machine answers
as an environment chooses, and it may stop in the middle of an operation.
-/

namespace Foundation

/-! ## Syntax -/

inductive Script (Op : Type) (Result : Op → Type) (α : Type) where
  | done (value : α)
  | exit (status : Nat)
  | call (op : Op) (next : Result op → Script Op Result α)

namespace Script

variable {Op : Type} {Result : Op → Type} {α β : Type}

protected def bind : Script Op Result α → (α → Script Op Result β) → Script Op Result β
  | .done value, rest => rest value
  | .exit status, _ => .exit status
  | .call op next, rest => .call op fun result => (next result).bind rest

instance : Monad (Script Op Result) where
  pure := .done
  bind := Script.bind

/-- The operation alone. -/
def issue (op : Op) : Script Op Result (Result op) :=
  .call op .done

/-- An early exit ends the inner script only, as in a command substitution. -/
def subshell : Script Op Result α → Script Op Result (Except Nat α)
  | .done value => .done (.ok value)
  | .exit status => .done (.error status)
  | .call op next => .call op fun result => (next result).subshell

section Embedding

variable {Op' : Type} {Result' : Op' → Type} (send : Op → Op')
  (back : (op : Op) → Result' (send op) → Result op)

/-- A script among more operations. -/
def embed : Script Op Result α → Script Op' Result' α
  | .done value => .done value
  | .exit status => .exit status
  | .call op next => .call (send op) fun result => (next (back op result)).embed

end Embedding

/-- Every operation of the script is of a kind. -/
def Only (kind : Op → Prop) : Script Op Result α → Prop
  | .done _ => True
  | .exit _ => True
  | .call op next => kind op ∧ ∀ result, (next result).Only kind

theorem only_issue {kind : Op → Prop} {op : Op} (ofKind : kind op) :
    (issue op : Script Op Result (Result op)).Only kind :=
  ⟨ofKind, fun _ => trivial⟩

theorem only_bind {kind : Op → Prop} {first : Script Op Result α} {rest : α → Script Op Result β}
    (ofFirst : first.Only kind) (ofRest : ∀ value, (rest value).Only kind) :
    (first >>= rest).Only kind := by
  induction first with
  | done value => exact ofRest value
  | exit status => trivial
  | call op next induction => exact ⟨ofFirst.1, fun result => induction result (ofFirst.2 result)⟩

theorem only_of_forall {kind : Op → Prop} (all : ∀ op, kind op) (script : Script Op Result α) :
    script.Only kind := by
  induction script with
  | done value => trivial
  | exit status => trivial
  | call op next induction => exact ⟨all op, induction⟩

/-! ## Semantics -/

inductive Outcome (α : Type) where
  | done (value : α)
  | exited (status : Nat)
  | stopped
  deriving DecidableEq, Repr

section Semantics

variable {Choice World : Type}

/-- What a machine does: it answers, or it stops on the way. -/
abbrev Machine (Op : Type) (Result : Op → Type) (Choice World : Type) : Type :=
  (op : Op) → Choice → World → Option (Result op) × World

variable (machine : Machine Op Result Choice World)

/-- The run under a list of choices. It stops where the list ends. -/
def exec : Script Op Result α → List Choice → World → Outcome α × World
  | .done value, _, world => (.done value, world)
  | .exit status, _, world => (.exited status, world)
  | .call _ _, [], world => (.stopped, world)
  | .call op next, choice :: choices, world =>
      match machine op choice world with
      | (some result, after) => (next result).exec choices after
      | (none, after) => (.stopped, after)

/-- The operations that the run issues, each with the state it is issued in. -/
def issued : Script Op Result α → List Choice → World → List (Op × World)
  | .done _, _, _ => []
  | .exit _, _, _ => []
  | .call _ _, [], _ => []
  | .call op next, choice :: choices, world =>
      (op, world) ::
        match machine op choice world with
        | (some result, after) => (next result).issued choices after
        | (none, _) => []

/-- Where a run that completes the script leaves off: the value, the choices that
are left, and the state. -/
def finish : Script Op Result α → List Choice → World → Option (α × List Choice × World)
  | .done value, choices, world => some (value, choices, world)
  | .exit _, _, _ => none
  | .call _ _, [], _ => none
  | .call op next, choice :: choices, world =>
      match machine op choice world with
      | (some result, after) => (next result).finish choices after
      | (none, _) => none

/-- Every choice that the run takes is admissible for its operation. -/
def admits (admissible : Op → Choice → World → Bool) :
    Script Op Result α → List Choice → World → Bool
  | .done _, _, _ => true
  | .exit _, _, _ => true
  | .call _ _, [], _ => true
  | .call op next, choice :: choices, world =>
      admissible op choice world &&
        match machine op choice world with
        | (some result, after) => (next result).admits admissible choices after
        | (none, _) => true

/-- The machine that stops at a choice that is not admissible. -/
def Machine.restrict (admissible : Op → Choice → World → Bool) :
    Machine Op Result Choice World :=
  fun op choice world => if admissible op choice world then machine op choice world else (none, world)

/-! ## One operation of a run -/

section Step

variable {machine} {op : Op} {next : Result op → Script Op Result α} {result : Result op}
  {choice : Choice} {choices : List Choice} {world after : World}

theorem exec_some (answer : machine op choice world = (some result, after)) :
    (call op next).exec machine (choice :: choices) world =
      (next result).exec machine choices after := by
  rw [exec, answer]

theorem issued_some (answer : machine op choice world = (some result, after)) :
    (call op next).issued machine (choice :: choices) world =
      (op, world) :: (next result).issued machine choices after := by
  rw [issued, answer]

theorem finish_some (answer : machine op choice world = (some result, after)) :
    (call op next).finish machine (choice :: choices) world =
      (next result).finish machine choices after := by
  rw [finish, answer]

theorem admits_call {admissible : Op → Choice → World → Bool} :
    (call op next).admits machine admissible (choice :: choices) world = true ↔
      admissible op choice world = true ∧
        ∀ result after, machine op choice world = (some result, after) →
          (next result).admits machine admissible choices after = true := by
  rw [admits, Bool.and_eq_true]
  refine and_congr Iff.rfl ?_
  rcases machine op choice world with ⟨_ | result, after⟩
  · exact ⟨fun _ _ _ answer => (nomatch answer), fun _ => rfl⟩
  · constructor
    · intro later result' after' answer
      cases answer
      exact later
    · exact fun later => later result after rfl

theorem exec_none (answer : machine op choice world = (none, after)) :
    (call op next).exec machine (choice :: choices) world = (.stopped, after) := by
  rw [exec, answer]

theorem issued_none (answer : machine op choice world = (none, after)) :
    (call op next).issued machine (choice :: choices) world = [(op, world)] := by
  rw [issued, answer]

theorem finish_none (answer : machine op choice world = (none, after)) :
    (call op next).finish machine (choice :: choices) world = none := by
  rw [finish, answer]

theorem call_mem_issued (op : Op) (next : Result op → Script Op Result α) (choice : Choice)
    (choices : List Choice) (world : World) :
    (op, world) ∈ (Script.call op next).issued machine (choice :: choices) world := by
  rcases answer : machine op choice world with ⟨_ | result, after⟩
  · rw [issued_none answer]
    exact List.mem_cons_self
  · rw [issued_some answer]
    exact List.mem_cons_self

end Step

/-! ## Contracts -/

/-- What a script may rely on when it issues an operation, what it guarantees
then, and what holds wherever it stops or exits. -/
structure Contract (Op World : Type) where
  rely : Op → World → Prop
  guard : Op → World → Prop
  stop : World → Prop
  exit : Nat → World → Prop

/-- The script keeps a contract from a state on and meets a postcondition. -/
def Ensures (contract : Contract Op World) :
    Script Op Result α → (α → World → Prop) → World → Prop
  | .done value, post, world => post value world
  | .exit status, _, world => contract.exit status world
  | .call op next, post, world =>
      contract.stop world ∧ (contract.rely op world → contract.guard op world ∧
        ∀ choice, match machine op choice world with
          | (some result, after) => (next result).Ensures contract post after
          | (none, after) => contract.stop after)

variable {machine} {contract : Contract Op World}

/-- The rule of one operation: what an answer ensures, and what a stop leaves. -/
theorem Ensures.issue {op : Op} {post : Result op → World → Prop} {world : World}
    (stops : contract.stop world) (guarded : contract.guard op world)
    (answers : contract.rely op world → ∀ choice,
      (∃ result after, machine op choice world = (some result, after) ∧ post result after) ∨
        ∃ after, machine op choice world = (none, after) ∧ contract.stop after) :
    (issue op).Ensures machine contract post world := by
  rw [Script.issue, Ensures]
  refine ⟨stops, fun relied => ⟨guarded, fun choice => ?_⟩⟩
  rcases answers relied choice with ⟨result, after, same, holds⟩ | ⟨after, same, holds⟩
  · rw [same]
    exact holds
  · rw [same]
    exact holds

theorem ensures_bind {first : Script Op Result α} {rest : α → Script Op Result β}
    {post : β → World → Prop} {world : World} :
    (first >>= rest).Ensures machine contract post world ↔
      first.Ensures machine contract
        (fun value after => (rest value).Ensures machine contract post after) world := by
  induction first generalizing world with
  | done value => exact Iff.rfl
  | exit status => exact Iff.rfl
  | call op next induction =>
      refine and_congr Iff.rfl (forall_congr' fun _ => and_congr Iff.rfl
        (forall_congr' fun choice => ?_))
      rcases machine op choice world with ⟨_ | result, after⟩
      · exact Iff.rfl
      · exact induction result

theorem Ensures.mono {script : Script Op Result α} {post weaker : α → World → Prop}
    {world : World} (ensures : script.Ensures machine contract post world)
    (implies : ∀ value after, post value after → weaker value after) :
    script.Ensures machine contract weaker world := by
  induction script generalizing world with
  | done value => exact implies value world ensures
  | exit status => exact ensures
  | call op next induction =>
      refine ⟨ensures.1, fun relied => ⟨(ensures.2 relied).1, fun choice => ?_⟩⟩
      have answered := (ensures.2 relied).2 choice
      rcases answer : machine op choice world with ⟨_ | result, after⟩
      · rw [answer] at answered
        exact answered
      · rw [answer] at answered
        exact induction result answered

/-- The rule of sequence, with a postcondition in the middle. -/
theorem Ensures.bind {first : Script Op Result α} {rest : α → Script Op Result β}
    {middle : α → World → Prop} {post : β → World → Prop} {world : World}
    (ensures : first.Ensures machine contract middle world)
    (goesOn : ∀ value after, middle value after →
      (rest value).Ensures machine contract post after) :
    (first >>= rest).Ensures machine contract post world :=
  ensures_bind.mpr (ensures.mono goesOn)

/-- An exit of a subshell is one of its results. -/
theorem ensures_subshell {script : Script Op Result α} {post : Except Nat α → World → Prop}
    {world : World} :
    script.subshell.Ensures machine contract post world ↔
      script.Ensures machine
        { contract with exit := fun status after => post (.error status) after }
        (fun value after => post (.ok value) after) world := by
  induction script generalizing world with
  | done value => exact Iff.rfl
  | exit status => exact Iff.rfl
  | call op next induction =>
      refine and_congr Iff.rfl (forall_congr' fun _ => and_congr Iff.rfl
        (forall_congr' fun choice => ?_))
      rcases machine op choice world with ⟨_ | result, after⟩
      · exact Iff.rfl
      · exact induction result

section Embedding

variable {Op' : Type} {Result' : Op' → Type}

/-- The machine of an embedded script. -/
def Machine.pull (machine : Machine Op' Result' Choice World) (send : Op → Op')
    (back : (op : Op) → Result' (send op) → Result op) : Machine Op Result Choice World :=
  fun op choice world => (machine (send op) choice world).map (Option.map (back op)) id

def Contract.pull (contract : Contract Op' World) (send : Op → Op') : Contract Op World where
  rely op := contract.rely (send op)
  guard op := contract.guard (send op)
  stop := contract.stop
  exit := contract.exit

/-- What a script ensures of its own machine, it ensures where it is embedded. -/
theorem ensures_embed {machine : Machine Op' Result' Choice World} {contract : Contract Op' World}
    {send : Op → Op'} {back : (op : Op) → Result' (send op) → Result op}
    {script : Script Op Result α} {post : α → World → Prop} {world : World} :
    (script.embed send back).Ensures machine contract post world ↔
      script.Ensures (machine.pull send back) (contract.pull send) post world := by
  induction script generalizing world with
  | done value => exact Iff.rfl
  | exit status => exact Iff.rfl
  | call op next induction =>
      refine and_congr Iff.rfl (forall_congr' fun _ => and_congr Iff.rfl
        (forall_congr' fun choice => ?_))
      rw [Machine.pull]
      rcases machine (send op) choice world with ⟨_ | result, after⟩
      · exact Iff.rfl
      · exact induction (back op result)

end Embedding

/-! ## Runs keep contracts -/

/-- How a run may end under a contract. -/
def Outcome.Meets (contract : Contract Op World) (post : α → World → Prop) :
    Outcome α × World → Prop
  | (.done value, world) => post value world
  | (.exited status, world) => contract.exit status world
  | (.stopped, world) => contract.stop world

/-- What holds however a run ends. -/
theorem Outcome.Meets.state {post : α → World → Prop} {ending : Outcome α × World}
    (holds : World → Prop) (meets : Outcome.Meets contract post ending)
    (finishes : ∀ value world, post value world → holds world)
    (exits : ∀ status world, contract.exit status world → holds world)
    (stops : ∀ world, contract.stop world → holds world) : holds ending.2 := by
  rcases ending with ⟨value | status | _, world⟩
  · exact finishes value world meets
  · exact exits status world meets
  · exact stops world meets

theorem Ensures.exec {script : Script Op Result α} {post : α → World → Prop} {world : World}
    (ensures : script.Ensures machine contract post world) (choices : List Choice)
    (relied : ∀ entry ∈ script.issued machine choices world, contract.rely entry.1 entry.2) :
    (∀ entry ∈ script.issued machine choices world, contract.guard entry.1 entry.2) ∧
      Outcome.Meets contract post (script.exec machine choices world) := by
  induction script generalizing world choices with
  | done value => exact ⟨fun _ member => (List.not_mem_nil member).elim, ensures⟩
  | exit status => exact ⟨fun _ member => (List.not_mem_nil member).elim, ensures⟩
  | call op next induction =>
      rcases choices with _ | ⟨choice, choices⟩
      · exact ⟨fun _ member => (List.not_mem_nil member).elim, ensures.1⟩
      · have step := ensures.2 (relied (op, world) (call_mem_issued op next choice choices world))
        have answered := step.2 choice
        rcases answer : machine op choice world with ⟨_ | result, after⟩
        · rw [answer] at answered
          rw [issued_none answer, exec_none answer]
          refine ⟨fun entry member => ?_, answered⟩
          cases List.mem_singleton.mp member
          exact step.1
        · rw [answer] at answered
          rw [issued_some answer] at relied ⊢
          rw [exec_some answer]
          have later := induction result answered choices
            fun entry member => relied entry (List.mem_cons_of_mem _ member)
          refine ⟨fun entry member => ?_, later.2⟩
          rcases List.mem_cons.mp member with equal | member
          · cases equal
            exact step.1
          · exact later.1 entry member

/-- What the operations that a run issues keep is kept by the run. -/
theorem exec_invariant_of_issued (invariant : World → Prop) {script : Script Op Result α}
    {choices : List Choice} {world : World} (holds : invariant world)
    (kept : ∀ entry ∈ script.issued machine choices world, ∀ choice,
      invariant entry.2 → invariant (machine entry.1 choice entry.2).2) :
    invariant (script.exec machine choices world).2 := by
  induction script generalizing world choices with
  | done value => exact holds
  | exit status => exact holds
  | call op next induction =>
      rcases choices with _ | ⟨choice, choices⟩
      · exact holds
      · have step := kept (op, world) (call_mem_issued op next choice choices world) choice holds
        rcases answer : machine op choice world with ⟨_ | result, after⟩
        · rw [answer] at step
          rw [exec_none answer]
          exact step
        · rw [answer] at step
          rw [issued_some answer] at kept
          rw [exec_some answer]
          exact induction result step fun entry member =>
            kept entry (List.mem_cons_of_mem _ member)

/-- What every answer of the machine keeps is kept by a run. -/
theorem exec_invariant (invariant : World → Prop)
    (kept : ∀ op choice world, invariant world → invariant (machine op choice world).2)
    {script : Script Op Result α} {choices : List Choice} {world : World} (holds : invariant world) :
    invariant (script.exec machine choices world).2 :=
  exec_invariant_of_issued invariant holds fun entry _ choice =>
    kept entry.1 choice entry.2

/-- A contract without a rely is what holds of every run. -/
theorem ensures_iff_exec [Nonempty Choice] (always : ∀ op world, contract.rely op world)
    {script : Script Op Result α} {post : α → World → Prop} {world : World} :
    script.Ensures machine contract post world ↔ ∀ choices,
      (∀ entry ∈ script.issued machine choices world, contract.guard entry.1 entry.2) ∧
        Outcome.Meets contract post (script.exec machine choices world) := by
  constructor
  · exact fun ensures choices => ensures.exec choices fun entry _ => always entry.1 entry.2
  · intro runs
    induction script generalizing world with
    | done value => exact (runs []).2
    | exit status => exact (runs []).2
    | call op next induction =>
        refine ⟨(runs []).2, fun _ => ⟨?_, fun choice => ?_⟩⟩
        · rcases ‹Nonempty Choice› with ⟨choice⟩
          exact (runs [choice]).1 (op, world) (call_mem_issued op next choice [] world)
        · rcases answer : machine op choice world with ⟨_ | result, after⟩
          · have stopped := (runs [choice]).2
            rw [exec_none answer] at stopped
            exact stopped
          · refine induction result fun choices => ?_
            have later := runs (choice :: choices)
            rw [exec_some answer, issued_some answer] at later
            exact ⟨fun entry member => later.1 entry (List.mem_cons_of_mem _ member), later.2⟩

/-! ## Parts of a run -/

/-- A sequence issues what its first part issues, and what the second part issues
where the first one leaves off. -/
theorem issued_bind {first : Script Op Result α} {rest : α → Script Op Result β}
    {choices : List Choice} {world : World} :
    (first >>= rest).issued machine choices world = first.issued machine choices world ++
      match first.finish machine choices world with
      | some (value, left, after) => (rest value).issued machine left after
      | none => [] := by
  induction first generalizing choices world with
  | done value => rfl
  | exit status => rfl
  | call op next induction =>
      rcases choices with _ | ⟨choice, choices⟩
      · rfl
      · change (Script.call op fun result => next result >>= rest).issued machine _ _ = _
        rcases answer : machine op choice world with ⟨_ | result, after⟩
        · rw [issued_none answer, issued_none answer, finish_none answer]
          rfl
        · rw [issued_some answer, issued_some answer, finish_some answer]
          exact congrArg (List.cons (op, world)) (induction result)

theorem exec_of_finish {script : Script Op Result α} {choices left : List Choice}
    {world after : World} {value : α}
    (finishes : script.finish machine choices world = some (value, left, after)) :
    script.exec machine choices world = (.done value, after) := by
  induction script generalizing choices world with
  | done value => cases finishes; rfl
  | exit status => cases finishes
  | call op next induction =>
      rcases choices with _ | ⟨choice, choices⟩
      · cases finishes
      · rcases answer : machine op choice world with ⟨_ | result, between⟩
        · rw [finish_none answer] at finishes
          cases finishes
        · rw [finish_some answer] at finishes
          rw [exec_some answer]
          exact induction result finishes

/-- The first operation is issued in the state the run starts in. -/
theorem mem_issued_start {script : Script Op Result α} {choices : List Choice} {world : World}
    {entry : Op × World} (member : entry ∈ script.issued machine choices world) :
    world ∈ (script.issued machine choices world).map Prod.snd := by
  cases script with
  | done value => exact (List.not_mem_nil member).elim
  | exit status => exact (List.not_mem_nil member).elim
  | call op next =>
      rcases choices with _ | ⟨choice, choices⟩
      · exact (List.not_mem_nil member).elim
      · exact List.mem_map_of_mem (call_mem_issued op next choice choices world)

/-! ## Admissible choices -/

section Admissible

variable {admissible : Op → Choice → World → Bool} {script : Script Op Result α}
  {choices : List Choice} {world : World}

theorem restrict_of_admissible {op : Op} {choice : Choice}
    (allowed : admissible op choice world = true) :
    machine.restrict admissible op choice world = machine op choice world :=
  if_pos allowed

/-- Under admissible choices the restricted machine runs as the machine does. -/
theorem finish_restrict (admitted : script.admits machine admissible choices world = true) :
    script.finish (machine.restrict admissible) choices world =
      script.finish machine choices world := by
  induction script generalizing choices world with
  | done value => rfl
  | exit status => rfl
  | call op next induction =>
      rcases choices with _ | ⟨choice, choices⟩
      · rfl
      · rcases admits_call.mp admitted with ⟨allowed, later⟩
        rcases answer : machine op choice world with ⟨_ | result, after⟩
        · rw [finish_none answer, finish_none ((restrict_of_admissible allowed).trans answer)]
        · rw [finish_some answer, finish_some ((restrict_of_admissible allowed).trans answer)]
          exact induction result (later result after answer)

theorem exec_restrict (admitted : script.admits machine admissible choices world = true) :
    script.exec (machine.restrict admissible) choices world =
      script.exec machine choices world := by
  induction script generalizing choices world with
  | done value => rfl
  | exit status => rfl
  | call op next induction =>
      rcases choices with _ | ⟨choice, choices⟩
      · rfl
      · rcases admits_call.mp admitted with ⟨allowed, later⟩
        rcases answer : machine op choice world with ⟨_ | result, after⟩
        · rw [exec_none answer, exec_none ((restrict_of_admissible allowed).trans answer)]
        · rw [exec_some answer, exec_some ((restrict_of_admissible allowed).trans answer)]
          exact induction result (later result after answer)

theorem issued_restrict (admitted : script.admits machine admissible choices world = true) :
    script.issued (machine.restrict admissible) choices world =
      script.issued machine choices world := by
  induction script generalizing choices world with
  | done value => rfl
  | exit status => rfl
  | call op next induction =>
      rcases choices with _ | ⟨choice, choices⟩
      · rfl
      · rcases admits_call.mp admitted with ⟨allowed, later⟩
        rcases answer : machine op choice world with ⟨_ | result, after⟩
        · rw [issued_none answer, issued_none ((restrict_of_admissible allowed).trans answer)]
        · rw [issued_some answer, issued_some ((restrict_of_admissible allowed).trans answer)]
          exact congrArg (List.cons (op, world)) (induction result (later result after answer))

theorem admits_of_mem
    (allowed : ∀ choice ∈ choices, ∀ op world, admissible op choice world = true) :
    script.admits machine admissible choices world = true := by
  induction script generalizing choices world with
  | done value => rfl
  | exit status => rfl
  | call op next induction =>
      rcases choices with _ | ⟨choice, choices⟩
      · rfl
      · rw [List.forall_mem_cons] at allowed
        exact admits_call.mpr ⟨allowed.1 op world, fun result after _ => induction result allowed.2⟩

end Admissible

/-- Under one choice that every operation answers, a run of enough choices ends. -/
theorem exists_ending {choice : Choice}
    (answers : ∀ op world, ∃ result after, machine op choice world = (some result, after))
    (script : Script Op Result α) (world : World) :
    ∃ length, ∀ more, length ≤ more →
      (script.exec machine (List.replicate more choice) world).1 ≠ .stopped := by
  induction script generalizing world with
  | done value => exact ⟨0, fun _ _ => nofun⟩
  | exit status => exact ⟨0, fun _ _ => nofun⟩
  | call op next induction =>
      rcases answers op world with ⟨result, after, answer⟩
      rcases induction result after with ⟨length, ends⟩
      refine ⟨length + 1, fun more enough => ?_⟩
      rcases more with _ | more
      · exact absurd enough (Nat.not_succ_le_zero _)
      · rw [List.replicate_succ, exec_some answer]
        exact ends more (Nat.le_of_succ_le_succ enough)

/-- Whatever a machine that always answers is to choose, a run of enough choices ends. -/
theorem exists_ending_of_stream
    (answers : ∀ op choice world, ∃ result after, machine op choice world = (some result, after))
    (script : Script Op Result α) (stream : Nat → Choice) (world : World) :
    ∃ length, ∀ more, length ≤ more →
      (script.exec machine ((List.range more).map stream) world).1 ≠ .stopped := by
  induction script generalizing stream world with
  | done value => exact ⟨0, fun _ _ => nofun⟩
  | exit status => exact ⟨0, fun _ _ => nofun⟩
  | call op next induction =>
      rcases answers op (stream 0) world with ⟨result, after, answer⟩
      rcases induction result (fun count => stream (count + 1)) after with ⟨length, ends⟩
      refine ⟨length + 1, fun more enough => ?_⟩
      rcases more with _ | more
      · exact absurd enough (Nat.not_succ_le_zero _)
      · rw [List.range_succ_eq_map, List.map_cons, List.map_map, exec_some answer]
        exact ends more (Nat.le_of_succ_le_succ enough)

end Semantics

end Script

end Foundation
