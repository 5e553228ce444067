import Mathlib.Logic.Function.Basic
import Zlyme.Foundation.Execution

/-! # Interleaved threads

Any number of threads take turns over a shared state. A label says which thread
moves, and what its environment answers. A thread that waits leaves everything as
it is.
-/

namespace Foundation

structure Threads (Id Local Shared : Type) where
  locals : Id → Local
  shared : Shared

namespace Threads

variable {Id Local Choice Shared : Type} [DecidableEq Id]

/-! ## Steps -/

/-- What a thread does next, when it can move. -/
abbrev Act (Local Choice Shared : Type) : Type :=
  Local → Choice → Shared → Option (Local × Shared)

def step (act : Act Local Choice Shared) (threads : Threads Id Local Shared)
    (label : Id × Choice) : Threads Id Local Shared :=
  match act (threads.locals label.1) label.2 threads.shared with
  | some (next, shared) => ⟨Function.update threads.locals label.1 next, shared⟩
  | none => threads

/-- The threads after one of them has moved. -/
abbrev move (threads : Threads Id Local Shared) (who : Id) (next : Local) (shared : Shared) :
    Threads Id Local Shared :=
  ⟨Function.update threads.locals who next, shared⟩

@[simp] theorem move_locals_self (threads : Threads Id Local Shared) (who : Id) (next : Local)
    (shared : Shared) : (threads.move who next shared).locals who = next :=
  Function.update_self ..

theorem move_locals_of_ne (threads : Threads Id Local Shared) {who other : Id} (next : Local)
    (shared : Shared) (isOther : other ≠ who) :
    (threads.move who next shared).locals other = threads.locals other :=
  Function.update_of_ne isOther ..

variable {act : Act Local Choice Shared} {threads : Threads Id Local Shared}

theorem step_of_moves {who : Id} {choice : Choice} {next : Local} {shared : Shared}
    (moves : act (threads.locals who) choice threads.shared = some (next, shared)) :
    threads.step act (who, choice) = threads.move who next shared := by
  rw [step, moves]

/-- A step is a move of its thread, or nothing. -/
theorem step_invariant {invariant : Threads Id Local Shared → Prop} {label : Id × Choice}
    (holds : invariant threads)
    (kept : ∀ next shared,
      act (threads.locals label.1) label.2 threads.shared = some (next, shared) →
        invariant (threads.move label.1 next shared)) :
    invariant (threads.step act label) := by
  rw [step]
  split
  · rename_i next shared moves
    exact kept next shared moves
  · exact holds

/-- One thread by itself. -/
def alone (act : Act Local Choice Shared) (state : Local × Shared) (choice : Choice) :
    Local × Shared :=
  (act state.1 choice state.2).getD state

theorem step_eq_alone (threads : Threads Id Local Shared) (who : Id) (choice : Choice) :
    threads.step act (who, choice) =
      threads.move who (alone act (threads.locals who, threads.shared) choice).1
        (alone act (threads.locals who, threads.shared) choice).2 := by
  rw [step, alone]
  cases act (threads.locals who) choice threads.shared with
  | none =>
      show threads = ⟨Function.update threads.locals who (threads.locals who), threads.shared⟩
      rw [Function.update_eq_self]
  | some result => rfl

/-- While only one thread has its turns, the others stay as they are. -/
theorem run_alone (threads : Threads Id Local Shared) (who : Id) (choices : List Choice) :
    Execution.run (step act) threads (choices.map (who, ·)) =
      threads.move who (choices.foldl (alone act) (threads.locals who, threads.shared)).1
        (choices.foldl (alone act) (threads.locals who, threads.shared)).2 := by
  induction choices generalizing threads with
  | nil =>
      show threads = ⟨Function.update threads.locals who (threads.locals who), threads.shared⟩
      rw [Function.update_eq_self]
  | cons choice rest induction =>
      rw [List.map_cons, Execution.run_cons, step_eq_alone, induction]
      dsimp only [move]
      rw [Function.update_self, Function.update_idem]
      rfl

/-! ## Facts about every thread -/

section Locals

variable {locals : Id → Local} {who : Id} {next : Local}

/-- What holds of every thread, once one of them has moved. -/
theorem forall_update (fact : Local → Prop) (own : fact next)
    (others : ∀ other, other ≠ who → fact (locals other)) (id : Id) :
    fact (Function.update locals who next id) := by
  by_cases same : id = who
  · cases same
    rw [Function.update_self]
    exact own
  · rw [Function.update_of_ne same]
    exact others id same

/-- What holds of some thread, once one of them has moved. -/
theorem exists_update (fact : Local → Prop)
    (found : fact next ∨ ∃ other, other ≠ who ∧ fact (locals other)) :
    ∃ id, fact (Function.update locals who next id) := by
  rcases found with own | ⟨other, isOther, holds⟩
  · refine ⟨who, ?_⟩
    rw [Function.update_self]
    exact own
  · refine ⟨other, ?_⟩
    rw [Function.update_of_ne isOther]
    exact holds

/-! ## Locks -/

/-- A lock is held by at most one thread, and by one exactly when it is taken. -/
structure Exclusive (holds : Local → Prop) (taken : Prop) (locals : Id → Local) : Prop where
  unique : ∀ first second, holds (locals first) → holds (locals second) → first = second
  holder : taken → ∃ who, holds (locals who)
  taken_of : ∀ who, holds (locals who) → taken

variable {holds : Local → Prop} {taken taken' : Prop}

omit [DecidableEq Id] in
theorem Exclusive.start (idle : ∀ id, ¬holds (locals id)) (free : ¬taken) :
    Exclusive holds taken locals where
  unique first _ holdsFirst := absurd holdsFirst (idle first)
  holder isTaken := absurd isTaken free
  taken_of who holdsWho := absurd holdsWho (idle who)

theorem Exclusive.acquire (exclusive : Exclusive holds taken locals) (free : ¬taken)
    (acquires : holds next) (isTaken : taken') :
    Exclusive holds taken' (Function.update locals who next) := by
  have alone : ∀ id, holds (Function.update locals who next id) → id = who := by
    intro id holdsId
    by_contra other
    rw [Function.update_of_ne other] at holdsId
    exact free (exclusive.taken_of id holdsId)
  refine ⟨fun first second isFirst isSecond => ?_, fun _ => ⟨who, ?_⟩, fun _ _ => isTaken⟩
  · rw [alone first isFirst, alone second isSecond]
  · rw [Function.update_self]
    exact acquires

theorem Exclusive.release (exclusive : Exclusive holds taken locals)
    (holder : holds (locals who)) (releases : ¬holds next) (free : ¬taken') :
    Exclusive holds taken' (Function.update locals who next) := by
  apply Exclusive.start
  · intro id holdsId
    by_cases same : id = who
    · cases same
      rw [Function.update_self] at holdsId
      exact releases holdsId
    · rw [Function.update_of_ne same] at holdsId
      exact same (exclusive.unique id who holdsId holder)
  · exact free

theorem Exclusive.keep (exclusive : Exclusive holds taken locals)
    (same : holds next ↔ holds (locals who)) (sameTaken : taken' ↔ taken) :
    Exclusive holds taken' (Function.update locals who next) := by
  have back : ∀ id, holds (Function.update locals who next id) ↔ holds (locals id) := by
    intro id
    by_cases isWho : id = who
    · cases isWho
      rw [Function.update_self]
      exact same
    · rw [Function.update_of_ne isWho]
  refine ⟨fun first second isFirst isSecond => ?_, fun isTaken => ?_, fun id holdsId => ?_⟩
  · exact exclusive.unique first second ((back first).mp isFirst) ((back second).mp isSecond)
  · rcases exclusive.holder (sameTaken.mp isTaken) with ⟨id, holdsId⟩
    exact ⟨id, (back id).mpr holdsId⟩
  · exact sameTaken.mpr (exclusive.taken_of id ((back id).mp holdsId))

/-- What one move of a thread does to a lock. -/
inductive Handoff (holds : Local → Prop) (before after : Local) (taken taken' : Prop) : Prop
  | acquire (free : ¬taken) (acquires : holds after) (isTaken : taken')
  | release (holder : holds before) (releases : ¬holds after) (free : ¬taken')
  | keep (same : holds after ↔ holds before) (sameTaken : taken' ↔ taken)

theorem Exclusive.handoff (exclusive : Exclusive holds taken locals)
    (handoff : Handoff holds (locals who) next taken taken') :
    Exclusive holds taken' (Function.update locals who next) := by
  cases handoff with
  | acquire free acquires isTaken => exact exclusive.acquire free acquires isTaken
  | release holder releases free => exact exclusive.release holder releases free
  | keep same sameTaken => exact exclusive.keep same sameTaken

end Locals

/-! ## Endless runs -/

section Endless

variable {schedule : Nat → Id × Choice} {start : Threads Id Local Shared}

/-- The state before the step with a given number. -/
def states (act : Act Local Choice Shared) (start : Threads Id Local Shared)
    (schedule : Nat → Id × Choice) : Nat → Threads Id Local Shared
  | 0 => start
  | count + 1 => (states act start schedule count).step act (schedule count)

theorem states_eq_run (act : Act Local Choice Shared) (start : Threads Id Local Shared)
    (schedule : Nat → Id × Choice) (count : Nat) :
    states act start schedule count =
      Execution.run (step act) start ((List.range count).map schedule) := by
  induction count with
  | zero => rfl
  | succ count induction =>
      rw [states, List.range_succ, List.map_append, Execution.run_append, ← induction]
      rfl

/-- Every thread gets its turn again and again. -/
def Fair (schedule : Nat → Id × Choice) : Prop :=
  ∀ who count, ∃ later, count ≤ later ∧ (schedule later).1 = who

/-- The goal is reached when some thread is always responsible for it: its own turn
brings the goal nearer, and the turns of the others do not take it further away. -/
theorem reaches_of_responsible (goal : Threads Id Local Shared → Prop)
    (responsible : Nat → Id → Threads Id Local Shared → Prop) (fair : Fair schedule)
    (advance : ∀ count rank who, responsible rank who (states act start schedule count) →
      goal (states act start schedule (count + 1)) ∨
        (∃ less who', less < rank ∧ responsible less who' (states act start schedule (count + 1))) ∨
        (schedule count).1 ≠ who ∧ responsible rank who (states act start schedule (count + 1)))
    {rank : Nat} {who : Id} {count : Nat}
    (isResponsible : responsible rank who (states act start schedule count)) :
    ∃ later, goal (states act start schedule later) := by
  induction rank using Nat.strongRecOn generalizing who count with
  | ind rank induction =>
      -- The inner induction is on the number of steps until the responsible thread's turn.
      rcases fair who count with ⟨turn, after, isTurn⟩
      rcases Nat.exists_eq_add_of_le after with ⟨wait, rfl⟩
      induction wait generalizing count with
      | zero =>
          rcases advance count rank who isResponsible with
            reached | ⟨less, who', smaller, next⟩ | ⟨isOther, -⟩
          · exact ⟨_, reached⟩
          · exact induction less smaller next
          · exact absurd isTurn isOther
      | succ wait waiting =>
          rcases advance count rank who isResponsible with
            reached | ⟨less, who', smaller, next⟩ | ⟨-, next⟩
          · exact ⟨_, reached⟩
          · exact induction less smaller next
          · apply waiting next (by omega)
            rw [← isTurn]
            congr 2
            omega

end Endless

end Threads

end Foundation
