import Mathlib.Logic.Function.Basic
import Zlyme.Foundation.Execution
import Zlyme.Foundation.Script

/-! # Scripts side by side

Any number of threads run one script each over a shared state. A label says which
thread issues its next operation, and what the machine chooses to answer. Each thread
is verified by itself, against what the others may do between two of its operations.
-/

namespace Foundation

/-! ## Runs -/

structure Concurrent (Id Op : Type) (Result : Op → Type) (World : Type) where
  rest : Id → Script Op Result Unit
  world : World

namespace Concurrent

variable {Id Op : Type} {Result : Op → Type} {Choice World : Type}

/-- What an operation of a thread does, unless it has to wait. -/
abbrev Machine (Id Op : Type) (Result : Op → Type) (Choice World : Type) : Type :=
  Id → (op : Op) → Choice → World → Option (Result op × World)

section Steps

variable [DecidableEq Id]

def step (machine : Machine Id Op Result Choice World) (state : Concurrent Id Op Result World)
    (label : Id × Choice) : Concurrent Id Op Result World :=
  match state.rest label.1 with
  | .done _ | .exit _ => state
  | .call op next =>
      match machine label.1 op label.2 state.world with
      | some (result, world) => ⟨Function.update state.rest label.1 (next result), world⟩
      | none => state

end Steps

/-- The thread is about to issue the operation. -/
def Issues (state : Concurrent Id Op Result World) (who : Id) (op : Op) : Prop :=
  ∃ next, state.rest who = .call op next

/-! ## Disciplines -/

/-- What always holds of the state, and what a thread relies on between two of its
operations. -/
structure Discipline (Id World : Type) where
  inv : World → Prop
  rely : Id → World → World → Prop
  refl : ∀ who world, inv world → rely who world world
  trans : ∀ who first second third,
    rely who first second → rely who second third → rely who first third

variable (machine : Machine Id Op Result Choice World) (discipline : Discipline Id World)
  (guard : Id → Op → World → Prop)

/-- What a thread guarantees of one of its operations. -/
structure Discipline.Keeps (who : Id) (before after : World) : Prop where
  inv : discipline.inv after
  others : ∀ other, other ≠ who → discipline.rely other before after

/-- The thread keeps the discipline, issues each operation where its guard holds, and meets a
postcondition where its script ends. -/
def Safe {α : Type} (who : Id) : Script Op Result α → (α → World → Prop) → World → Prop
  | .done value, post, world => post value world
  | .exit _, _, _ => True
  | .call op next, post, world => ∀ now, discipline.inv now → discipline.rely who world now →
      guard who op now ∧ ∀ choice result after,
        machine who op choice now = some (result, after) →
          discipline.Keeps who now after ∧ Safe who (next result) post after

variable {machine discipline guard} {α β : Type} {who : Id} {world : World}

/-- The rule of one operation. -/
theorem Safe.issue {op : Op} {post : Result op → World → Prop}
    (operates : ∀ now, discipline.inv now → discipline.rely who world now →
      guard who op now ∧ ∀ choice result after,
        machine who op choice now = some (result, after) →
          discipline.Keeps who now after ∧ post result after) :
    Safe machine discipline guard who (Script.issue op) post world :=
  operates

theorem Safe.mono {script : Script Op Result α} {post weaker : α → World → Prop}
    (safe : Safe machine discipline guard who script post world)
    (implies : ∀ value after, post value after → weaker value after) :
    Safe machine discipline guard who script weaker world := by
  induction script generalizing world with
  | done value => exact implies value world safe
  | exit status => trivial
  | call op next induction =>
      intro now inv relied
      rcases safe now inv relied with ⟨guarded, answers⟩
      refine ⟨guarded, fun choice result after answer => ?_⟩
      rcases answers choice result after answer with ⟨keeps, later⟩
      exact ⟨keeps, induction result later⟩

/-- The rule of sequence. -/
theorem Safe.bind {first : Script Op Result α} {rest : α → Script Op Result β}
    {middle : α → World → Prop} {post : β → World → Prop}
    (safe : Safe machine discipline guard who first middle world)
    (goesOn : ∀ value after, middle value after →
      Safe machine discipline guard who (rest value) post after) :
    Safe machine discipline guard who (first >>= rest) post world := by
  induction first generalizing world with
  | done value => exact goesOn value world safe
  | exit status => trivial
  | call op next induction =>
      intro now inv relied
      rcases safe now inv relied with ⟨guarded, answers⟩
      refine ⟨guarded, fun choice result after answer => ?_⟩
      rcases answers choice result after answer with ⟨keeps, later⟩
      exact ⟨keeps, induction result later⟩

/-- What the others do leaves a thread safe. -/
theorem Safe.rely {script : Script Op Result α} {post : α → World → Prop} {later : World}
    (safe : Safe machine discipline guard who script post world)
    (relied : discipline.rely who world later)
    (stable : ∀ value, post value world → post value later) :
    Safe machine discipline guard who script post later := by
  cases script with
  | done value => exact stable value safe
  | exit status => trivial
  | call op next =>
      exact fun now inv further =>
        safe now inv (discipline.trans who world later now relied further)

/-- The rule of another discipline: it suffices to look at the operations that the script
issues, where their guards hold. -/
theorem Safe.transfer {script : Script Op Result α} {post : α → World → Prop} {kind : Op → Prop}
    {other : Discipline Id World} {guard' : Id → Op → World → Prop}
    (safe : Safe machine discipline guard who script post world) (only : script.Only kind)
    (inv : ∀ now, other.inv now → discipline.inv now)
    (rely : ∀ before after, other.rely who before after → discipline.rely who before after)
    (guards : ∀ op now, kind op → guard who op now → guard' who op now)
    (keeps : ∀ op now choice result after, kind op → guard who op now → other.inv now →
      machine who op choice now = some (result, after) → discipline.Keeps who now after →
        other.Keeps who now after) :
    Safe machine other guard' who script post world := by
  induction script generalizing world with
  | done value => exact safe
  | exit status => trivial
  | call op next induction =>
      intro now isInv relied
      rcases safe now (inv now isInv) (rely world now relied) with ⟨guarded, answers⟩
      refine ⟨guards op now only.1 guarded, fun choice result after answer => ?_⟩
      rcases answers choice result after answer with ⟨kept, later⟩
      exact ⟨keeps op now choice result after only.1 guarded isInv answer kept,
        induction result later (only.2 result)⟩

/-- A script that issues operations of a kind may have other guards on the rest. -/
theorem Safe.guard_of_only {script : Script Op Result α} {post : α → World → Prop}
    {kind : Op → Prop} {guard' : Id → Op → World → Prop}
    (safe : Safe machine discipline guard who script post world) (only : script.Only kind)
    (implies : ∀ op now, kind op → guard who op now → guard' who op now) :
    Safe machine discipline guard' who script post world :=
  safe.transfer only (fun _ inv => inv) (fun _ _ relied => relied) implies
    fun _ _ _ _ _ _ _ _ _ keeps => keeps

/-- The frame rule: a fact that the others leave true, and the operations of the script too,
holds where the script ends. -/
theorem Safe.frame {script : Script Op Result α} {post : α → World → Prop} {kind : Op → Prop}
    (safe : Safe machine discipline guard who script post world) (only : script.Only kind)
    (fact : World → Prop)
    (stable : ∀ before after, discipline.rely who before after → fact before → fact after)
    (kept : ∀ op, kind op → ∀ before choice result after,
      machine who op choice before = some (result, after) → fact before → fact after)
    (holds : fact world) :
    Safe machine discipline guard who script (fun value after => post value after ∧ fact after) world := by
  induction script generalizing world with
  | done value => exact ⟨safe, holds⟩
  | exit status => trivial
  | call op next induction =>
      intro now inv relied
      rcases safe now inv relied with ⟨guarded, answers⟩
      refine ⟨guarded, fun choice result after answer => ?_⟩
      rcases answers choice result after answer with ⟨keeps, later⟩
      exact ⟨keeps, induction result later (only.2 result)
        (kept op only.1 now choice result after answer (stable world now relied holds))⟩

/-! ## Loops -/

/-- A loop whose body says how it goes on. A run has finitely many rounds, and a thread
that has used up its own goes no further. -/
def loop {σ : Type} (body : σ → Script Op Result (σ ⊕ α)) : Nat → σ → Script Op Result α
  | 0, _ => .exit 0
  | rounds + 1, state => do
      match ← body state with
      | .inl next => loop body rounds next
      | .inr value => return value

/-- The rule of a loop, with an invariant of its rounds. -/
theorem Safe.loop {σ : Type} {body : σ → Script Op Result (σ ⊕ α)} {post : α → World → Prop}
    (invariant : σ → World → Prop)
    (kept : ∀ state between, invariant state between →
      Safe machine discipline guard who (body state)
        (fun result after => result.elim (fun next => invariant next after)
          (fun value => post value after)) between)
    (rounds : Nat) {state : σ} (holds : invariant state world) :
    Safe machine discipline guard who (Concurrent.loop body rounds state) post world := by
  induction rounds generalizing state world with
  | zero => trivial
  | succ rounds induction =>
      refine Safe.bind (kept state world holds) fun result after ends => ?_
      cases result with
      | inl next => exact induction ends
      | inr value => exact ends

/-- A list gone through item by item. -/
def each {ι : Type} (body : ι → Script Op Result Unit) : List ι → Script Op Result Unit
  | [] => return ()
  | item :: rest => do
      body item
      each body rest

/-- The rule of a list, with an invariant of the items to come. -/
theorem Safe.each {ι : Type} {body : ι → Script Op Result Unit} {post : World → Prop}
    (invariant : List ι → World → Prop)
    (kept : ∀ item rest between, invariant (item :: rest) between →
      Safe machine discipline guard who (body item) (fun _ after => invariant rest after) between)
    (ends : ∀ between, invariant [] between → post between)
    (items : List ι) (holds : invariant items world) :
    Safe machine discipline guard who (Concurrent.each body items) (fun _ after => post after) world := by
  induction items generalizing world with
  | nil => exact ends world holds
  | cons item rest induction =>
      exact Safe.bind (kept item rest world holds) fun _ after further => induction further

/-! ## All the threads -/

/-- Every thread keeps the discipline from a state on. -/
structure AllSafe (machine : Machine Id Op Result Choice World)
    (discipline : Discipline Id World) (guard : Id → Op → World → Prop)
    (state : Concurrent Id Op Result World) : Prop where
  inv : discipline.inv state.world
  threads : ∀ who, Safe machine discipline guard who (state.rest who) (fun _ _ => True) state.world

variable {state : Concurrent Id Op Result World}

theorem AllSafe.guarded (safe : AllSafe machine discipline guard state) {op : Op}
    (issues : state.Issues who op) : guard who op state.world := by
  rcases issues with ⟨next, script⟩
  have own := safe.threads who
  rw [script] at own
  exact (own state.world safe.inv (discipline.refl who _ safe.inv)).1

variable [DecidableEq Id]

/-- One step of one thread leaves all of them safe. -/
theorem AllSafe.step (safe : AllSafe machine discipline guard state) (label : Id × Choice) :
    AllSafe machine discipline guard (Concurrent.step machine state label) := by
  have own := safe.threads label.1
  rw [Concurrent.step]
  cases script : state.rest label.1 with
  | done value => exact safe
  | exit status => exact safe
  | call op next =>
      rw [script] at own
      dsimp only
      cases answer : machine label.1 op label.2 state.world with
      | none => exact safe
      | some response =>
          rcases response with ⟨result, after⟩
          rcases (own state.world safe.inv (discipline.refl label.1 _ safe.inv)).2 label.2 result
            after answer with ⟨keeps, later⟩
          refine ⟨keeps.inv, fun who => ?_⟩
          by_cases same : who = label.1
          · cases same
            dsimp only
            rw [Function.update_self]
            exact later
          · dsimp only
            rw [Function.update_of_ne same]
            exact (safe.threads who).rely (keeps.others who same) fun _ _ => trivial

/-- What is proved of each thread by itself holds of every run of all of them. -/
theorem AllSafe.run (safe : AllSafe machine discipline guard state) (labels : List (Id × Choice)) :
    AllSafe machine discipline guard (Execution.run (Concurrent.step machine) state labels) :=
  Execution.run_invariant (AllSafe machine discipline guard) (fun _ label holds => holds.step label)
    safe labels

end Concurrent

end Foundation
