import Zlyme.Foundation.Interleaving

/-! # The network services worker

`net_services` of `zlyme-wifi` leaves a mark, and starts a worker unless one is
there. The worker removes the mark before each pass and looks for it after the
pass, and once more after it has removed its own directory. A caller that finds a
worker leaves its pass to it.
-/

namespace Zlyme.Net

open Foundation Foundation.Execution Foundation.Threads

/-! ## One caller -/

/-- Where a caller stands, or the worker that it has become: the next operation of
each. The time is the one at which the caller has saved its flag. -/
inductive Caller
  | idle
  | preparing (saved : Nat)
  | marking (saved : Nat)
  | claiming (saved : Nat)
  | clearing
  | stamping
  /-- `zlyme-net-services apply` runs since that time. -/
  | applying (begun : Nat)
  | checking
  | dropping
  | rechecking
  | reclaiming
  | finished
  deriving DecidableEq, Repr

structure Shared where
  /-- `$state/dirty` -/
  dirty : Bool
  /-- `$state/worker` -/
  worker : Bool
  clock : Nat
  /-- When each caller has saved its flag. -/
  saves : List Nat
  /-- When each pass that is complete has begun. -/
  passes : List Nat
  deriving DecidableEq, Repr

def Shared.tick (shared : Shared) : Shared :=
  { shared with clock := shared.clock + 1 }

/-- One operation. -/
def act : Act Caller Unit Shared
  | .idle, _, shared =>
      some (.preparing shared.clock, { shared with saves := shared.clock :: shared.saves }.tick)
  -- mkdir -p "$state"
  | .preparing saved, _, shared => some (.marking saved, shared.tick)
  | .marking saved, _, shared => some (.claiming saved, { shared with dirty := true }.tick)
  | .claiming _, _, shared =>
      if shared.worker then some (.finished, shared.tick)
      else some (.clearing, { shared with worker := true }.tick)
  | .clearing, _, shared => some (.stamping, { shared with dirty := false }.tick)
  -- the line in the log
  | .stamping, _, shared => some (.applying shared.clock, shared.tick)
  | .applying begun, _, shared =>
      some (.checking, { shared with passes := begun :: shared.passes }.tick)
  | .checking, _, shared =>
      if shared.dirty then some (.clearing, shared.tick) else some (.dropping, shared.tick)
  | .dropping, _, shared => some (.rechecking, { shared with worker := false }.tick)
  | .rechecking, _, shared =>
      if shared.dirty then some (.reclaiming, shared.tick) else some (.finished, shared.tick)
  | .reclaiming, _, shared =>
      if shared.worker then some (.finished, shared.tick)
      else some (.clearing, { shared with worker := true }.tick)
  | .finished, _, _ => none

/-- The worker whose directory is there. -/
def Caller.Owns : Caller → Prop
  | .clearing => True
  | .stamping => True
  | .applying _ => True
  | .checking => True
  | .dropping => True
  | _ => False

abbrev System (Id : Type) : Type :=
  Threads Id Caller Shared

/-- Nobody has called yet. A mark may be left of an earlier worker. -/
def System.start (Id : Type) (dirty : Bool) : System Id where
  locals _ := .idle
  shared := ⟨dirty, false, 0, [], []⟩

/-- Every caller that has come is through, and so is every worker. -/
def System.Quiet {Id : Type} (system : System Id) : Prop :=
  ∀ id, system.locals id = .idle ∨ system.locals id = .finished

/-- A pass that began after a time is complete. -/
def Shared.Covered (shared : Shared) (time : Nat) : Prop :=
  ∃ begun ∈ shared.passes, time < begun

/-! ## What is responsible for a request -/

/-- How many operations a caller or a worker is away from a pass for the flag that was
saved at a time, when it is up to this one. -/
inductive Caller.Responsible (shared : Shared) (time : Nat) : Nat → Caller → Prop
  | preparing : Responsible shared time 21 (.preparing time)
  | marking : Responsible shared time 20 (.marking time)
  | dropping (dirty : shared.dirty = true) : Responsible shared time 9 .dropping
  | rechecking (dirty : shared.dirty = true) (free : shared.worker = false) :
      Responsible shared time 8 .rechecking
  | reclaiming (dirty : shared.dirty = true) (free : shared.worker = false) :
      Responsible shared time 7 .reclaiming
  | claiming (saved : Nat) (dirty : shared.dirty = true) (free : shared.worker = false) :
      Responsible shared time 7 (.claiming saved)
  | applyingOld (begun : Nat) (dirty : shared.dirty = true) :
      Responsible shared time 5 (.applying begun)
  | checking (dirty : shared.dirty = true) : Responsible shared time 4 .checking
  | clearing : Responsible shared time 3 .clearing
  | stamping : Responsible shared time 2 .stamping
  | applying (begun : Nat) (later : time < begun) : Responsible shared time 1 (.applying begun)

/-- Somebody is responsible, at most some operations away. -/
def Near {Id : Type} (system : System Id) (time bound : Nat) : Prop :=
  ∃ rank who, rank < bound ∧ Caller.Responsible system.shared time rank (system.locals who)

section Steps

variable {Id : Type} [DecidableEq Id] {system : System Id} {time rank : Nat} {who other : Id}
  {choice : Unit} {next : Caller} {shared : Shared}

omit [DecidableEq Id] in
/-- The worker that owns the directory is responsible while the mark is there. -/
theorem Caller.Owns.responsible {caller : Caller} (owns : caller.Owns)
    (dirty : shared.dirty = true) (time : Nat) :
    ∃ rank, rank < 10 ∧ Caller.Responsible shared time rank caller := by
  cases caller with
  | clearing => exact ⟨3, by decide, .clearing⟩
  | stamping => exact ⟨2, by decide, .stamping⟩
  | applying begun => exact ⟨5, by decide, .applyingOld begun dirty⟩
  | checking => exact ⟨4, by decide, .checking dirty⟩
  | dropping => exact ⟨9, by decide, .dropping dirty⟩
  | _ => exact owns.elim

theorem near_move {bound : Nat} (less : rank < bound)
    (responsible : Caller.Responsible shared time rank next) :
    Near (system.move who next shared) time bound := by
  refine ⟨rank, who, less, ?_⟩
  dsimp only
  rw [Function.update_self]
  exact responsible

theorem near_other {bound : Nat} (isOther : other ≠ who) (less : rank < bound)
    (responsible : Caller.Responsible shared time rank (system.locals other)) :
    Near (system.move who next shared) time bound := by
  refine ⟨rank, other, less, ?_⟩
  dsimp only
  rw [Function.update_of_ne isOther]
  exact responsible

/-- The responsible one moves, and the pass comes nearer. -/
theorem own_step (exclusive : Exclusive Caller.Owns (system.shared.worker = true) system.locals)
    (past : time < system.shared.clock)
    (responsible : Caller.Responsible system.shared time rank (system.locals who))
    (moves : act (system.locals who) choice system.shared = some (next, shared)) :
    shared.Covered time ∨ Near (system.move who next shared) time rank := by
  generalize isCaller : system.locals who = caller at responsible moves
  cases responsible with
  | preparing =>
      cases moves
      exact .inr (near_move (by decide) .marking)
  | marking =>
      cases moves
      by_cases taken : system.shared.worker = true
      · -- A worker is there: it is another one, and it will see the mark.
        rcases exclusive.holder taken with ⟨owner, owns⟩
        have isOther : owner ≠ who := by
          rintro rfl
          rw [isCaller] at owns
          exact owns
        have isDirty : ({ system.shared with dirty := true }.tick).dirty = true := rfl
        rcases owns.responsible isDirty time with ⟨rank, less, responsible⟩
        exact .inr (near_other isOther (by omega) responsible)
      · exact .inr (near_move (by decide) (.claiming time rfl (Bool.eq_false_iff.mpr taken)))
  | dropping dirty =>
      cases moves
      exact .inr (near_move (by decide) (.rechecking dirty rfl))
  | rechecking dirty free =>
      simp only [act, dirty, if_true] at moves
      cases moves
      exact .inr (near_move (by decide) (.reclaiming dirty free))
  | reclaiming dirty free =>
      simp only [act, free] at moves
      cases moves
      exact .inr (near_move (by decide) .clearing)
  | claiming saved dirty free =>
      simp only [act, free] at moves
      cases moves
      exact .inr (near_move (by decide) .clearing)
  | applyingOld begun dirty =>
      cases moves
      exact .inr (near_move (by decide) (.checking dirty))
  | checking dirty =>
      simp only [act, dirty, if_true] at moves
      cases moves
      exact .inr (near_move (by decide) .clearing)
  | clearing =>
      cases moves
      exact .inr (near_move (by decide) .stamping)
  | stamping =>
      cases moves
      exact .inr (near_move (by decide) (.applying _ past))
  | applying begun later =>
      cases moves
      exact .inl ⟨begun, List.mem_cons_self, later⟩

omit [DecidableEq Id] in
/-- Only the worker removes the mark. -/
theorem dirty_kept {caller : Caller} {before : Shared} (other : ¬caller.Owns)
    (moves : act caller choice before = some (next, shared)) (dirty : before.dirty = true) :
    shared.dirty = true := by
  cases caller with
  | clearing => exact absurd trivial other
  | finished => cases moves
  | claiming | checking | rechecking | reclaiming =>
      simp only [act] at moves
      split at moves <;> cases moves <;> exact dirty
  | marking => cases moves; rfl
  | _ => cases moves; exact dirty

/-- The directory comes only with a new worker. -/
theorem free_kept {caller : Caller} {before : Shared}
    (moves : act caller choice before = some (next, shared)) (free : before.worker = false) :
    shared.worker = false ∨ next = .clearing := by
  cases caller with
  | finished => cases moves
  | claiming | reclaiming =>
      simp only [act, free] at moves
      cases moves
      exact .inr rfl
  | checking | rechecking =>
      simp only [act] at moves
      split at moves <;> cases moves <;> exact .inl free
  | dropping => cases moves; exact .inl rfl
  | _ => cases moves; exact .inl free

/-- Another one moves: the responsible one stays so, or the pass comes nearer. -/
theorem others_step (exclusive : Exclusive Caller.Owns (system.shared.worker = true) system.locals)
    (responsible : Caller.Responsible system.shared time rank (system.locals other))
    (isOther : other ≠ who)
    (moves : act (system.locals who) choice system.shared = some (next, shared)) :
    Caller.Responsible shared time rank (system.locals other) ∨
      Near (system.move who next shared) time rank := by
  have alone : (system.locals other).Owns → ¬(system.locals who).Owns :=
    fun owns owns' => isOther (exclusive.unique other who owns owns')
  have unowned : system.shared.worker = false → ¬(system.locals who).Owns := by
    intro free owns
    rw [exclusive.taken_of who owns] at free
    cases free
  generalize system.locals other = kept at responsible alone ⊢
  cases responsible with
  | preparing => exact .inl .preparing
  | marking => exact .inl .marking
  | clearing => exact .inl .clearing
  | stamping => exact .inl .stamping
  | applying begun later => exact .inl (.applying begun later)
  | dropping dirty => exact .inl (.dropping (dirty_kept (alone trivial) moves dirty))
  | checking dirty => exact .inl (.checking (dirty_kept (alone trivial) moves dirty))
  | applyingOld begun dirty =>
      exact .inl (.applyingOld begun (dirty_kept (alone trivial) moves dirty))
  | rechecking dirty free =>
      have dirty' := dirty_kept (unowned free) moves dirty
      rcases free_kept moves free with free' | rfl
      · exact .inl (.rechecking dirty' free')
      · exact .inr (near_move (by decide) .clearing)
  | reclaiming dirty free =>
      have dirty' := dirty_kept (unowned free) moves dirty
      rcases free_kept moves free with free' | rfl
      · exact .inl (.reclaiming dirty' free')
      · exact .inr (near_move (by decide) .clearing)
  | claiming saved dirty free =>
      have dirty' := dirty_kept (unowned free) moves dirty
      rcases free_kept moves free with free' | rfl
      · exact .inl (.claiming saved dirty' free')
      · exact .inr (near_move (by decide) .clearing)

omit [DecidableEq Id] in
/-- What an operation leaves in the account of the saves and the passes. -/
theorem account_step {caller : Caller} {before : Shared}
    (moves : act caller choice before = some (next, shared)) :
    shared.clock = before.clock + 1 ∧ before.passes ⊆ shared.passes ∧
      (shared.saves = before.saves ∨
        shared.saves = before.clock :: before.saves ∧ next = .preparing before.clock) := by
  cases caller with
  | finished => cases moves
  | idle => cases moves; exact ⟨rfl, List.Subset.refl _, .inr ⟨rfl, rfl⟩⟩
  | applying begun => cases moves; exact ⟨rfl, List.subset_cons_self _ _, .inl rfl⟩
  | claiming | checking | rechecking | reclaiming =>
      simp only [act] at moves
      split at moves <;> cases moves <;> exact ⟨rfl, List.Subset.refl _, .inl rfl⟩
  | _ => cases moves; exact ⟨rfl, List.Subset.refl _, .inl rfl⟩

omit [DecidableEq Id] in
/-- The directory is made, removed or left. -/
theorem handoff_step {caller : Caller} {before : Shared}
    (moves : act caller choice before = some (next, shared)) :
    Handoff Caller.Owns caller next (before.worker = true) (shared.worker = true) := by
  cases caller with
  | finished => cases moves
  | claiming | reclaiming =>
      simp only [act] at moves
      split at moves
      · cases moves
        exact .keep Iff.rfl Iff.rfl
      · rename_i free
        cases moves
        exact .acquire free trivial rfl
  | dropping =>
      cases moves
      exact .release trivial not_false Bool.false_ne_true
  | checking | rechecking =>
      simp only [act] at moves
      split at moves <;> cases moves <;> exact .keep Iff.rfl Iff.rfl
  | _ =>
      cases moves
      exact .keep Iff.rfl Iff.rfl

/-- Whoever moves: the request is covered, its pass is nearer, or the responsible one
still has its turn before it. -/
theorem responsible_move
    (exclusive : Exclusive Caller.Owns (system.shared.worker = true) system.locals)
    (past : time < system.shared.clock)
    (responsible : Caller.Responsible system.shared time rank (system.locals other))
    (moves : act (system.locals who) choice system.shared = some (next, shared)) :
    shared.Covered time ∨ Near (system.move who next shared) time rank ∨
      who ≠ other ∧
        Caller.Responsible shared time rank ((system.move who next shared).locals other) := by
  by_cases isOther : other = who
  · cases isOther
    exact (own_step exclusive past responsible moves).imp_right .inl
  · rcases others_step exclusive responsible isOther moves with kept | nearer
    · refine .inr (.inr ⟨Ne.symm isOther, ?_⟩)
      dsimp only
      rw [Function.update_of_ne isOther]
      exact kept
    · exact .inr (.inl nearer)

end Steps

/-! ## Runs -/

/-- What holds between any two operations. -/
structure Consistent {Id : Type} (system : System Id) : Prop where
  exclusive : Exclusive Caller.Owns (system.shared.worker = true) system.locals
  past : ∀ time ∈ system.shared.saves, time < system.shared.clock
  served : ∀ time ∈ system.shared.saves, system.shared.Covered time ∨ Near system time 22

theorem System.start_consistent (Id : Type) (dirty : Bool) : Consistent (start Id dirty) where
  exclusive := .start (fun _ => not_false) Bool.false_ne_true
  past _ saved := absurd saved List.not_mem_nil
  served _ saved := absurd saved List.not_mem_nil

section Runs

variable {Id : Type} [DecidableEq Id]

theorem Consistent.move {system : System Id} (consistent : Consistent system) {who : Id}
    {choice : Unit} {next : Caller} {shared : Shared}
    (moves : act (system.locals who) choice system.shared = some (next, shared)) :
    Consistent (system.move who next shared) := by
  rcases account_step moves with ⟨clock, passes, saves⟩
  -- The requests of before stay covered, or somebody stays responsible for them.
  have earlier : ∀ time ∈ system.shared.saves,
      shared.Covered time ∨ Near (system.move who next shared) time 22 := by
    intro time saved
    rcases consistent.served time saved with ⟨begun, pass, later⟩ | near
    · exact .inl ⟨begun, passes pass, later⟩
    · rcases near with ⟨rank, who, less, responsible⟩
      rcases responsible_move consistent.exclusive (consistent.past time saved) responsible moves
        with covered | ⟨rank', who', less', nearer⟩ | ⟨-, kept⟩
      · exact .inl covered
      · exact .inr ⟨rank', who', by omega, nearer⟩
      · exact .inr ⟨rank, who, less, kept⟩
  refine ⟨consistent.exclusive.handoff (handoff_step moves), ?_, ?_⟩
  · intro time saved
    show time < shared.clock
    rcases saves with same | ⟨more, -⟩
    · have := consistent.past time (same ▸ saved)
      omega
    · rcases List.mem_cons.mp (more ▸ saved) with rfl | old
      · omega
      · have := consistent.past time old
        omega
  · intro time saved
    rcases saves with same | ⟨more, rfl⟩
    · exact earlier time (same ▸ saved)
    · rcases List.mem_cons.mp (more ▸ saved) with rfl | old
      · exact .inr (near_move (by decide) .preparing)
      · exact earlier time old

theorem Consistent.step {system : System Id} (consistent : Consistent system)
    (label : Id × Unit) : Consistent (system.step act label) :=
  step_invariant consistent fun _ _ moves => consistent.move moves

theorem run_consistent (dirty : Bool) (labels : List (Id × Unit)) :
    Consistent (run (Threads.step act) (System.start Id dirty) labels) :=
  run_invariant Consistent (fun _ label holds => Consistent.step holds label)
    (System.start_consistent Id dirty) labels

omit [DecidableEq Id] in
theorem Consistent.covered {system : System Id} (consistent : Consistent system)
    (quiet : system.Quiet) : ∀ time ∈ system.shared.saves, system.shared.Covered time := by
  intro time saved
  rcases consistent.served time saved with covered | ⟨rank, who, -, responsible⟩
  · exact covered
  · rcases quiet who with isIdle | isFinished
    · rw [isIdle] at responsible
      cases responsible
    · rw [isFinished] at responsible
      cases responsible

omit [DecidableEq Id] in
theorem finished_of_stuck {caller : Caller} {choice : Unit} {shared : Shared}
    (stuck : act caller choice shared = none) : caller = .finished := by
  cases caller with
  | finished => rfl
  | claiming | checking | rechecking | reclaiming =>
      simp only [act] at stuck
      split at stuck <;> cases stuck
  | _ => cases stuck

/-- One step of a run, seen from the one that is responsible. -/
theorem Consistent.advance {system : System Id} (consistent : Consistent system)
    {time rank : Nat} {who : Id} (past : time < system.shared.clock)
    (responsible : Caller.Responsible system.shared time rank (system.locals who))
    (label : Id × Unit) :
    (system.step act label).shared.Covered time ∨ Near (system.step act label) time rank ∨
      label.1 ≠ who ∧ Caller.Responsible (system.step act label).shared time rank
        ((system.step act label).locals who) := by
  cases moves : act (system.locals label.1) label.2 system.shared with
  | none =>
      have same : system.step act label = system := by rw [Threads.step, moves]
      rw [same]
      refine .inr (.inr ⟨?_, responsible⟩)
      rintro rfl
      rw [finished_of_stuck moves] at responsible
      cases responsible
  | some result =>
      rcases result with ⟨next, shared⟩
      rw [show system.step act label = system.move label.1 next shared from step_of_moves moves]
      exact responsible_move consistent.exclusive past responsible moves

theorem clock_le_step (system : System Id) (label : Id × Unit) :
    system.shared.clock ≤ (system.step act label).shared.clock := by
  rw [Threads.step]
  split
  · rename_i moves
    have := (account_step moves).1
    dsimp only
    omega
  · exact Nat.le_refl _

/-- A request that has somebody responsible is covered once each has had its turns. -/
theorem covered_of_responsible {start : System Id} {schedule : Nat → Id × Unit}
    (fair : Fair schedule) (consistent : ∀ count, Consistent (states act start schedule count))
    {count time rank : Nat} {who : Id}
    (past : time < (states act start schedule count).shared.clock)
    (responsible : Caller.Responsible (states act start schedule count).shared time rank
      ((states act start schedule count).locals who)) :
    ∃ later, (states act start schedule later).shared.Covered time := by
  apply reaches_of_responsible (fun system : System Id => system.shared.Covered time)
    (fun rank who system =>
      time < system.shared.clock ∧ Caller.Responsible system.shared time rank (system.locals who))
    fair ?_ ⟨past, responsible⟩
  rintro count rank who ⟨past, responsible⟩
  have past' : time < (states act start schedule (count + 1)).shared.clock :=
    Nat.lt_of_lt_of_le past (clock_le_step _ _)
  rcases (consistent count).advance past responsible (schedule count) with
    covered | ⟨less, who', smaller, next⟩ | ⟨isOther, kept⟩
  · exact .inl covered
  · exact .inr (.inl ⟨less, who', smaller, past', next⟩)
  · exact .inr (.inr ⟨isOther, past', kept⟩)

/-- However many call, and in whatever order they and the workers move: no two workers
apply; when all are through, every request is covered; and when each gets its turn
again and again, the pass that covers a request comes. -/
theorem services_covered (Id : Type) [DecidableEq Id] (dirty : Bool) :
    (∀ labels, let system := run (Threads.step act) (System.start Id dirty) labels
      (∀ first second begun begun', system.locals first = .applying begun →
        system.locals second = .applying begun' → first = second) ∧
      (System.Quiet system → ∀ time ∈ system.shared.saves, system.shared.Covered time)) ∧
    ∀ schedule, Fair schedule → ∀ count,
      ∀ time ∈ (states act (System.start Id dirty) schedule count).shared.saves,
        ∃ later, (states act (System.start Id dirty) schedule later).shared.Covered time := by
  refine ⟨fun labels => ?_, fun schedule fair count time saved => ?_⟩
  · have consistent : Consistent (run (Threads.step act) (System.start Id dirty) labels) :=
      run_consistent dirty labels
    refine ⟨fun first second begun begun' isFirst isSecond => ?_, consistent.covered⟩
    apply consistent.exclusive.unique
    · rw [isFirst]
      trivial
    · rw [isSecond]
      trivial
  · have consistent : ∀ count, Consistent (states act (System.start Id dirty) schedule count) := by
      intro count
      rw [states_eq_run]
      exact run_consistent dirty _
    rcases (consistent count).served time saved with covered | ⟨rank, who, -, responsible⟩
    · exact ⟨count, covered⟩
    · have past := (consistent count).past time saved
      exact covered_of_responsible fair consistent past responsible

/-- Two callers that take turns: the first one becomes the worker, and covers both. -/
theorem services_covered_alternately :
    ∃ schedule : Nat → Bool × Unit, Fair schedule ∧
      0 ∈ (states act (System.start Bool true) schedule 2).shared.saves ∧
      ∃ later, (states act (System.start Bool true) schedule later).shared.Covered 0 := by
  have fair : Fair (fun count => (count % 2 == 0, ())) := by
    intro who count
    cases who with
    | true => exact ⟨2 * count, by omega, by simp⟩
    | false => exact ⟨2 * count + 1, by omega, by simp⟩
  refine ⟨fun count => (count % 2 == 0, ()), fair, by decide, ?_⟩
  exact (services_covered Bool true).2 _ fair 2 0 (by decide)

end Runs

end Zlyme.Net
