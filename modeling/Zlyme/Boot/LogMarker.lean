import Zlyme.Foundation.Interleaving

/-! # The boot log marker

`/boot/zlyme-logs` is for the next boot. `zlyme-ctl` saves the setting without any
lock; the marker changes only inside a transaction of `zlyme-boot-write`, which reads
the setting again.
-/

namespace Zlyme.Boot.LogMarker

open Foundation Foundation.Execution Foundation.Threads

/-! ## The setting -/

/-- `get logs`, of what the file holds. -/
def get (file : Option String) : String :=
  let value := (file.getD "").toList.filter fun c => c ∉ [' ', '\t', '\r', '\n']
  if value = [] then "off" else String.ofList value

def savedOn (file : Option String) : Bool :=
  get file = "on" || get file = "1" || get file = "yes"

/-- How the redirection of `setv` ends: a full disk leaves the file empty. -/
inductive Saving
  | written
  | truncated
  | refused
  deriving DecidableEq

def setv (file : Option String) (value : String) : Saving → Option String
  | .written => some (value ++ "\n")
  | .truncated => some ""
  | .refused => file

/-! ## The transactions -/

/-- What the marker becomes, if nothing fails. -/
def applyLogsLocked (file : Option String) (marker writes : Bool) : Option Bool :=
  if savedOn file then
    if marker then some marker else if writes then some true else none
  else if marker then if writes then some false else none
  else some marker

def reconcileBootLogsLocked (file : Option String) (marker writes : Bool) : Option Bool :=
  if savedOn file then some marker
  else if marker then if writes then some false else none
  else some marker

/-- How a transaction of `zlyme-boot-write` goes. -/
structure Transaction where
  /-- It comes to run its command. -/
  runs : Bool
  /-- The volume takes what the command writes. -/
  writes : Bool
  /-- The volume is read-only again. -/
  restored : Bool
  deriving DecidableEq

/-- Whether the transaction exits with 0, and the marker after it. -/
def Transaction.run (transaction : Transaction) (command : Bool → Bool → Option Bool)
    (marker : Bool) : Bool × Bool :=
  if transaction.runs then
    match command marker transaction.writes with
    | some left => (transaction.restored, left)
    | none => (false, marker)
  else (false, marker)

/-! ## The callers -/

inductive Caller
  | idle
  /-- `saved_on logs` of `toggle` -/
  | toggling
  | saving (value : String)
  /-- The transaction of `apply-logs` is next. -/
  | applying
  /-- `saved_on logs` of `reconcile-boot-logs`, outside of the lock. -/
  | checking
  | looking
  | cleaning
  | finished
  deriving DecidableEq

structure Shared where
  file : Option String
  marker : Bool
  /-- Whether the last `apply-logs` has succeeded. -/
  last : Option Bool
  deriving DecidableEq

inductive Choice
  | set (value : String)
  | toggle
  | apply
  | reconcile
  | proceed
  | save (saving : Saving)
  | transact (transaction : Transaction)
  deriving DecidableEq

def act : Act Caller Choice Shared
  | .idle, .set value, shared => some (.saving value, shared)
  | .idle, .toggle, shared => some (.toggling, shared)
  | .idle, .apply, shared => some (.applying, shared)
  | .idle, .reconcile, shared => some (.checking, shared)
  | .toggling, .proceed, shared =>
      some (.saving (if savedOn shared.file then "off" else "on"), shared)
  | .saving value, .save saving, shared =>
      some (.applying, { shared with file := setv shared.file value saving })
  | .applying, .transact transaction, shared =>
      let result := transaction.run (applyLogsLocked shared.file) shared.marker
      some (.finished, { shared with marker := result.2, last := some result.1 })
  | .checking, .proceed, shared =>
      if savedOn shared.file then some (.finished, shared) else some (.looking, shared)
  | .looking, .proceed, shared =>
      if shared.marker then some (.cleaning, shared) else some (.finished, shared)
  | .cleaning, .transact transaction, shared =>
      let result := transaction.run (reconcileBootLogsLocked shared.file) shared.marker
      some (.finished, { shared with marker := result.2 })
  | _, _, _ => none

abbrev System (Id : Type) : Type :=
  Threads Id Caller Shared

/-- Any setting, with any marker that an earlier boot has left. -/
def System.start (Id : Type) (file : Option String) (marker : Bool) : System Id where
  locals _ := .idle
  shared := ⟨file, marker, none⟩

/-- No invocation is running. -/
def System.Quiet {Id : Type} (system : System Id) : Prop :=
  ∀ id, system.locals id = .idle ∨ system.locals id = .finished

/-! ## The marker follows the setting -/

def Shared.Follows (shared : Shared) : Prop :=
  shared.marker = savedOn shared.file

theorem applyLogsLocked_eq_some {file : Option String} {marker writes left : Bool}
    (applied : applyLogsLocked file marker writes = some left) : left = savedOn file := by
  unfold applyLogsLocked at applied
  split at applied
  · rename_i isOn
    rw [isOn]
    split at applied
    · rename_i isThere
      cases applied
      exact isThere
    · split at applied <;> cases applied
      rfl
  · rename_i isOff
    rw [Bool.eq_false_iff.mpr isOff]
    split at applied
    · split at applied <;> cases applied
      rfl
    · rename_i absent
      cases applied
      exact Bool.eq_false_iff.mpr absent

/-- An `apply-logs` that succeeds leaves the marker of the setting that it has read under
the lock. -/
theorem Transaction.run_applyLogsLocked {transaction : Transaction} {file : Option String}
    {marker : Bool} (succeeds : (transaction.run (applyLogsLocked file) marker).1 = true) :
    (transaction.run (applyLogsLocked file) marker).2 = savedOn file := by
  unfold Transaction.run at succeeds ⊢
  split
  · rename_i runs
    rw [if_pos runs] at succeeds
    cases applied : applyLogsLocked file marker transaction.writes with
    | some left => exact applyLogsLocked_eq_some applied
    | none =>
        rw [applied] at succeeds
        cases succeeds
  · rename_i refused
    rw [if_neg refused] at succeeds
    cases succeeds

/-- The cleanup never turns a marker that is right into one that is wrong, however it
goes, and whatever has been decided outside of the lock. -/
theorem Transaction.run_reconcileBootLogsLocked (transaction : Transaction)
    {file : Option String} {marker : Bool} (follows : marker = savedOn file) :
    (transaction.run (reconcileBootLogsLocked file) marker).2 = savedOn file := by
  subst follows
  unfold Transaction.run reconcileBootLogsLocked
  cases savedOn file <;> cases transaction.runs <;> rfl

/-- The last `apply-logs` that succeeded is not behind the setting, or another one is
still to come. -/
def Consistent {Id : Type} (system : System Id) : Prop :=
  system.shared.last = some true →
    system.shared.Follows ∨ ∃ id, system.locals id = .applying

theorem System.start_consistent {Id : Type} (file : Option String) (marker : Bool) :
    Consistent (start Id file marker) :=
  nofun

/-- What one move does to the setting, the marker and the last result. -/
inductive Effect (before shared : Shared) : Caller → Caller → Prop
  | keep {caller next : Caller} (others : caller ≠ .applying) (same : shared = before) :
      Effect before shared caller next
  | save (caller : Caller) : Effect before shared caller .applying
  | apply (follows : shared.last = some true → shared.Follows) :
      Effect before shared .applying .finished
  | clean (last : shared.last = before.last) (follows : before.Follows → shared.Follows) :
      Effect before shared .cleaning .finished

theorem effect_of_moves {caller next : Caller} {choice : Choice} {before shared : Shared}
    (moves : act caller choice before = some (next, shared)) :
    Effect before shared caller next := by
  cases caller with
  | idle => cases choice <;> cases moves <;> exact .keep nofun rfl
  | saving value =>
      cases choice <;> cases moves
      exact .save _
  | applying =>
      cases choice <;> cases moves
      refine .apply fun succeeds => ?_
      exact Transaction.run_applyLogsLocked (Option.some.inj succeeds)
  | cleaning =>
      cases choice <;> cases moves
      exact .clean rfl fun follows => Transaction.run_reconcileBootLogsLocked _ follows
  | toggling => cases choice <;> cases moves; exact .keep nofun rfl
  | checking | looking =>
      cases choice <;> simp only [act] at moves <;> try cases moves
      split at moves <;> cases moves <;> exact .keep nofun rfl
  | finished => cases choice <;> cases moves

theorem Consistent.move {Id : Type} [DecidableEq Id] {system : System Id}
    (consistent : Consistent system) {who : Id} {choice : Choice} {next : Caller}
    {shared : Shared}
    (moves : act (system.locals who) choice system.shared = some (next, shared)) :
    Consistent (system.move who next shared) := by
  intro succeeded
  have effect := effect_of_moves moves
  refine Or.imp_right (exists_update (· = Caller.applying)) ?_
  generalize isCaller : system.locals who = caller at effect
  -- Whoever else is still to apply goes on to be.
  have others : caller ≠ .applying → (∃ id, system.locals id = .applying) →
      ∃ other, other ≠ who ∧ system.locals other = .applying := by
    rintro notApplying ⟨other, isApplying⟩
    refine ⟨other, ?_, isApplying⟩
    rintro rfl
    exact notApplying (isCaller.symm.trans isApplying)
  cases effect with
  | keep notApplying same =>
      subst same
      exact (consistent succeeded).imp_right fun found => .inr (others notApplying found)
  | save => exact .inr (.inl rfl)
  | apply follows => exact .inl (follows succeeded)
  | clean last follows =>
      rcases consistent (last ▸ succeeded) with done | found
      · exact .inl (follows done)
      · exact .inr (.inr (others nofun found))

/-- However many switch the setting, apply it or clean up, in whatever order and however
their transactions go: when none of them is running and the last `apply-logs` has
succeeded, the marker is there exactly when the saved setting is on. -/
theorem marker_follows_setting (Id : Type) [DecidableEq Id] (file : Option String)
    (marker : Bool) (labels : List (Id × Choice)) :
    let system := run (Threads.step act) (System.start Id file marker) labels
    System.Quiet system → system.shared.last = some true →
      (system.shared.marker = true ↔ savedOn system.shared.file = true) := by
  intro system quiet succeeded
  have consistent : Consistent system :=
    run_invariant Consistent
      (fun _ _ consistent => step_invariant consistent fun _ _ moves => consistent.move moves)
      (System.start_consistent file marker) labels
  rcases consistent succeeded with follows | ⟨id, isApplying⟩
  · rw [show system.shared.marker = savedOn system.shared.file from follows]
  · rcases quiet id with isIdle | isFinished
    · cases isIdle.symm.trans isApplying
    · cases isFinished.symm.trans isApplying

/-- The cleanup has decided to remove the marker, and then the setting is switched on. -/
def lateCleanup : List (Bool × Choice) :=
  [(false, .reconcile), (false, .proceed), (false, .proceed), (true, .set "on"),
    (true, .save .written), (true, .transact ⟨true, true, true⟩),
    (false, .transact ⟨true, true, true⟩)]

theorem marker_follows_setting_late :
    let system := run (Threads.step act) (System.start Bool (some "off\n") true) lateCleanup
    system.shared.marker = true ∧ savedOn system.shared.file = true := by
  have quiet : System.Quiet
      (run (Threads.step act) (System.start Bool (some "off\n") true) lateCleanup) := by
    intro id
    cases id <;> exact .inr (by decide +kernel)
  have marked := marker_follows_setting Bool (some "off\n") true lateCleanup quiet
    (by decide +kernel)
  exact ⟨by decide +kernel, marked.mp (by decide +kernel)⟩

end Zlyme.Boot.LogMarker
