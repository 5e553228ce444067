import Zlyme.Scrape.QueueSafety

/-! # The file of the scrape queue

The application and its daemon leave the queue to each other in `queue.json`. Only the
foreground of a process is at the file, and its calls leave the file alone.
-/

namespace Zlyme.Scrape

open Foundation Foundation.Concurrent

variable {before after world : World} {who : ThreadId}

/-! ## Jobs -/

/-- The queue has the jobs of the file, as they stand there or as they have been loaded,
and what was finished is as it was. -/
def Carries (origin current : List QueueItem) : Prop :=
  Progress origin current ∨
    ∃ resolve, Progress ((origin.take queueMaxItems).map (loaded resolve)) current

theorem Carries.progress {origin current later : List QueueItem} (carries : Carries origin current)
    (progress : Progress current later) : Carries origin later :=
  carries.imp (·.trans progress) fun ⟨resolve, upToHere⟩ => ⟨resolve, upToHere.trans progress⟩

/-- A change of the items that keeps their jobs, and leaves alone what is finished. -/
theorem Progress.map {change : QueueItem → QueueItem}
    (job : ∀ item, (change item).job = item.job)
    (finished : ∀ item, ¬item.Unfinished → change item = item) (items : List QueueItem) :
    Progress items (items.map change) where
  jobs index := by
    rw [List.getElem?_map, Option.map_map]
    exact congrArg (items[index]?.map ·) (funext job)
  finished index item there isFinished := by
    rw [List.getElem?_map, there, Option.map_some, finished item isFinished]

theorem progress_cancelAll (queue : Queue) : Progress queue.items queue.cancelAll.items := by
  refine Progress.map (fun item => ?_) (fun item isFinished => ?_) queue.items
  · rw [Queue.cancelled]
    split <;> rfl
  · exact if_pos (by simpa [QueueItem.Unfinished] using isFinished)

theorem progress_handoff (queue : Queue) : Progress queue.items queue.handoff.items := by
  refine Progress.map (fun item => ?_) (fun item isFinished => ?_) queue.items
  · rw [Queue.requeued]
    split <;> rfl
  · exact if_pos (by simpa [QueueItem.Unfinished] using isFinished)

/-! ## Operations -/

/-- The operation is at the file. -/
def Action.onFile : Action → Bool
  | .serialize _ | .cleanupAll => true
  | _ => false

theorem perform_file {action : Action} (elsewhere : action.onFile = false) {choice : Choice}
    {result : action.Result} (answer : perform who action choice before = some (result, after)) :
    after.file = before.file := by
  cases action
  case serialize => cases elsewhere
  case cleanupAll => cases elsewhere
  case begin =>
    cases who with
    | foreground => cases answer
    | created number =>
        rcases Option.map_eq_some_iff.mp answer with ⟨pthread, -, same⟩
        cases same
        rfl
  case «return» =>
    cases answer
    cases who <;> rfl
  case create =>
    rw [perform] at answer
    split at answer <;>
      · cases answer
        rfl
  case join =>
    rcases Option.map_eq_some_iff.mp answer with ⟨joined, isJoined, same⟩
    rcases World.join_some isJoined with ⟨-, rfl⟩
    cases same
    rfl
  case joinManager =>
    rcases Option.map_eq_some_iff.mp answer with ⟨joined, isJoined, same⟩
    rcases Option.bind_eq_some_iff.mp isJoined with ⟨thread, -, isJoined⟩
    rcases World.join_some isJoined with ⟨-, rfl⟩
    cases same
    rfl
  case claimItem index type next =>
    rw [perform, Option.some.injEq] at answer
    rcases claimed : before.queue.claimItem index type next with ⟨_ | item, queue⟩
    all_goals
      rw [claimed] at answer
      cases answer
      rfl
  case startManager =>
    rw [perform] at answer
    split at answer <;>
      · cases answer
        rfl
  all_goals
    cases answer
    rfl

/-- The foreground operation leaves the jobs of the queue as they are. -/
def Action.steady : Action → Bool
  | .create _ | .storeInterrupt _ | .startManager | .managerFailed | .managerStarted => true
  | .joinManager | .managerStopped | .cancelAll | .handoff | .checkDirty | .snapshot => true
  | .getStats | .readCommand | .serialize _ | .cleanupAll => true
  | _ => false

theorem perform_progress {action : Action} (steady : action.steady = true) {choice : Choice}
    {result : action.Result}
    (answer : perform .foreground action choice before = some (result, after)) :
    Progress before.queue.items after.queue.items := by
  cases action <;> try cases steady
  case create =>
    rw [perform] at answer
    split at answer <;>
      · cases answer
        exact .refl _
  case startManager =>
    rw [perform] at answer
    split at answer <;>
      · cases answer
        exact .refl _
  case joinManager =>
    rcases Option.map_eq_some_iff.mp answer with ⟨joined, isJoined, same⟩
    rcases Option.bind_eq_some_iff.mp isJoined with ⟨thread, -, isJoined⟩
    rcases World.join_some isJoined with ⟨-, rfl⟩
    cases same
    exact .refl _
  case cancelAll =>
    cases answer
    exact progress_cancelAll before.queue
  case handoff =>
    cases answer
    exact progress_handoff before.queue
  case serialize =>
    rw [perform, Option.some.injEq] at answer
    cases answer
    split <;> exact .refl _
  all_goals
    cases answer
    exact .refl _

/-! ## The scripts that leave the file alone -/

abbrev OffFile {α : Type} (script : Program α) : Prop :=
  script.Only fun action => action.onFile = false

/-- It leaves the jobs of the queue as they are, besides. -/
abbrev IsSteady {α : Type} (script : Program α) : Prop :=
  script.Only fun action => action.onFile = false ∧ action.steady = true

theorem IsSteady.offFile {α : Type} {script : Program α} (steady : IsSteady script) :
    OffFile script := by
  induction script with
  | done value => trivial
  | exit status => trivial
  | call action next induction => exact ⟨steady.1.1, fun result => induction result (steady.2 result)⟩

theorem ensureManagerStarted_steady : IsSteady ensureManagerStarted := by
  refine Script.only_bind (Script.only_issue ⟨rfl, rfl⟩) fun starts => ?_
  cases starts with
  | false => trivial
  | true =>
  refine Script.only_bind (Script.only_issue ⟨rfl, rfl⟩) fun thread => ?_
  cases thread with
  | none => exact Script.only_issue ⟨rfl, rfl⟩
  | some thread => trivial

theorem stopManagerForTransition_steady : IsSteady stopManagerForTransition := by
  refine Script.only_bind (Script.only_issue ⟨rfl, rfl⟩) fun _ => ?_
  refine Script.only_bind (Script.only_issue ⟨rfl, rfl⟩) fun started => ?_
  have rest : IsSteady (do
      issue .managerStopped
      issue (.storeInterrupt false)) :=
    Script.only_bind (Script.only_issue ⟨rfl, rfl⟩) fun _ => Script.only_issue ⟨rfl, rfl⟩
  cases started with
  | false => exact rest
  | true => exact Script.only_bind (Script.only_issue ⟨rfl, rfl⟩) fun _ => rest

theorem queueCancelAll_steady : IsSteady queueCancelAll :=
  Script.only_bind stopManagerForTransition_steady fun _ => Script.only_issue ⟨rfl, rfl⟩

theorem queueHandoffSnapshot_steady : IsSteady queueHandoffSnapshot :=
  Script.only_bind stopManagerForTransition_steady fun _ => Script.only_issue ⟨rfl, rfl⟩

theorem queueInit_offFile : OffFile queueInit := by
  refine Script.only_bind (Script.only_issue rfl) fun _ => ?_
  exact Script.only_bind (Script.only_issue rfl) fun _ => Script.only_issue rfl

theorem queueShutdown_offFile : OffFile queueShutdown := by
  refine Script.only_bind (Script.only_issue rfl) fun started => ?_
  have rest : OffFile (do
      issue .clearCheatRepoState
      issue .emptyQueue) :=
    Script.only_bind (Script.only_issue rfl) fun _ => Script.only_issue rfl
  cases started with
  | false => exact rest
  | true =>
  refine Script.only_bind (Script.only_issue rfl) fun _ => ?_
  refine Script.only_bind (Script.only_issue rfl) fun _ => ?_
  exact Script.only_bind (Script.only_issue rfl) fun _ => rest

theorem queueLoadItems_offFile (items : List QueueItem) : OffFile (queueLoadItems items) := by
  refine Script.only_bind (Script.only_issue rfl) fun pending => ?_
  cases pending with
  | false => trivial
  | true => exact ensureManagerStarted_steady.offFile

theorem call_offFile (request : Request) : OffFile request.call := by
  cases request with
  | add type request =>
      change OffFile (queueAdd type request)
      rw [queueAdd]
      split
      · trivial
      · refine Script.only_bind (Script.only_issue rfl) fun added => ?_
        cases added with
        | false => trivial
        | true => exact ensureManagerStarted_steady.offFile
  | cancelAll => exact queueCancelAll_steady.offFile
  | beginMappingEdit =>
      refine Script.only_bind (Script.only_issue rfl) fun unfinished => ?_
      cases unfinished with
      | true => trivial
      | false =>
      refine Script.only_bind stopManagerForTransition_steady.offFile fun _ => ?_
      refine Script.only_bind (Script.only_issue rfl) fun unfinished => ?_
      cases unfinished with
      | true => trivial
      | false => exact Script.only_issue rfl
  | invalidateCheatRepoState =>
      refine Script.only_bind (Script.only_issue rfl) fun unfinished => ?_
      cases unfinished with
      | true => trivial
      | false => exact Script.only_issue rfl
  | clearDone => exact Script.only_issue rfl
  | background launched => trivial
  | _ => exact Script.only_bind (Script.only_issue rfl) fun _ => trivial

/-! ## The start of a process -/

theorem start_inv (file : Option (List QueueItem)) : Inv (World.start file) where
  lineage _ _ has := by cases has
  claims _ _ claimed := by cases claimed
  work _ _ _ live := by
    rcases live with ⟨pthread, has, -⟩
    cases has

theorem start_quiet (file : Option (List QueueItem)) : (World.start file).Quiet := by
  intro number pthread has
  cases has

/-! ## The discipline of the file -/

/-- The threads keep what they kept, only the foreground is at the file, and what the file
holds is always of a kind. -/
def ledger (kept : Option (List QueueItem) → Prop) : Discipline ThreadId World where
  inv world := Inv world ∧ kept world.file
  rely who before after := Rely who before after ∧ (who = .foreground → after.file = before.file)
  refl who world inv := ⟨discipline.refl who world inv.1, fun _ => rfl⟩
  trans who first second third relied more :=
    ⟨discipline.trans who first second third relied.1 more.1,
      fun foreground => (more.2 foreground).trans (relied.2 foreground)⟩

/-- What holds, besides, where the foreground is at the file. -/
def LedgerGuard (contract : Action → World → Prop) (who : ThreadId) (action : Action)
    (world : World) : Prop :=
  Guard who action world ∧ (action.onFile = true → contract action world)

theorem offFile_of_guard {number : Nat} {action : Action}
    (guarded : Guard (.created number) action world) : action.onFile = false := by
  cases action with
  | serialize items => exact guarded.choose_spec.2.elim
  | cleanupAll => exact guarded.choose_spec.2.elim
  | _ => rfl

section Ledger

variable {kept : Option (List QueueItem) → Prop} {contract : Action → World → Prop}

theorem ledger_keeps (keeps : Keeps who before after) (isKept : kept after.file)
    (same : who ≠ .foreground → after.file = before.file) : (ledger kept).Keeps who before after where
  inv := ⟨keeps.inv, isKept⟩
  others other isOther :=
    ⟨keeps.others other isOther, fun foreground => same fun equal => isOther (foreground.trans equal.symm)⟩

/-- A script that leaves the file alone keeps the discipline of the file. -/
theorem ledger_of_offFile {α : Type} {script : Program α} {post : α → World → Prop}
    (safe : Safe perform discipline Guard who script post world) (offFile : OffFile script) :
    Safe perform (ledger kept) (LedgerGuard contract) who script post world := by
  refine safe.transfer offFile (fun _ inv => inv.1) (fun _ _ relied => relied.1)
    (fun action now elsewhere guarded => ⟨guarded, fun onFile => ?_⟩)
    fun action now choice result after elsewhere _ inv answer keeps => ?_
  · rw [elsewhere] at onFile
    cases onFile
  · have same := perform_file elsewhere answer
    exact ledger_keeps keeps (same ▸ inv.2) fun _ => same

/-- A thread that the process creates keeps it, since it is never at the file. -/
theorem ledger_created {number : Nat} {script : Program Unit}
    (safe : Safe perform discipline Guard (.created number) script (fun _ _ => True) world) :
    Safe perform (ledger kept) (LedgerGuard contract) (.created number) script (fun _ _ => True)
      world := by
  have any : script.Only fun _ => True := Script.only_of_forall (fun _ => trivial) script
  refine safe.transfer any (fun _ inv => inv.1) (fun _ _ relied => relied.1)
    (fun action now _ guarded => ⟨guarded, fun onFile => ?_⟩)
    fun action now choice result after _ guarded inv answer keeps => ?_
  · rw [offFile_of_guard guarded] at onFile
    cases onFile
  · have same := perform_file (offFile_of_guard guarded) answer
    exact ledger_keeps keeps (same ▸ inv.2) fun _ => same

abbrev LedgerSafe (kept : Option (List QueueItem) → Prop) (contract : Action → World → Prop)
    {α : Type} : Program α → (α → World → Prop) → World → Prop :=
  Safe perform (ledger kept) (LedgerGuard contract) .foreground

/-- What is known of the file is still known after a script that leaves it alone. -/
theorem LedgerSafe.offFile {α : Type} {script : Program α} {post : α → World → Prop}
    (safe : ForegroundSafe script post world) (offFile : OffFile script)
    (fact : Option (List QueueItem) → Prop) (holds : fact world.file) :
    LedgerSafe kept contract script (fun value after => post value after ∧ fact after.file) world := by
  refine (ledger_of_offFile safe offFile).frame offFile (fun now => fact now.file)
    (fun before after relied known => ?_) (fun action elsewhere before choice result after answer
      known => ?_) holds
  · rw [relied.2 rfl]
    exact known
  · rw [perform_file elsewhere answer]
    exact known

/-- What is known of the file and of the jobs is still known after a steady script. -/
theorem LedgerSafe.steady {α : Type} {script : Program α} {post : α → World → Prop}
    (safe : ForegroundSafe script post world) (steady : IsSteady script)
    (fact : Option (List QueueItem) → List QueueItem → Prop)
    (stable : ∀ file items later, Progress items later → fact file items → fact file later)
    (holds : fact world.file world.queue.items) :
    LedgerSafe kept contract script
      (fun value after => post value after ∧ fact after.file after.queue.items) world := by
  refine (ledger_of_offFile safe steady.offFile).frame steady
    (fun now => fact now.file now.queue.items)
    (fun before after relied known => ?_) (fun action isSteady before choice result after answer
      known => ?_) holds
  · rw [relied.2 rfl]
    exact stable _ _ _ relied.1.progress known
  · rw [perform_file isSteady.1 answer]
    exact stable _ _ _ (perform_progress isSteady.2 answer) known

/-- The rule of the operations at the file. -/
theorem LedgerSafe.atFile {action : Action} (onFile : action.onFile = true)
    (facts : World → Prop) {post : action.Result → World → Prop}
    (stable : ∀ before after, ForegroundRely before after → after.file = before.file →
      facts before → facts after)
    (holds : facts world)
    (contracts : ∀ now, facts now → contract action now)
    (operates : ∀ now choice result after, facts now → kept now.file →
      perform .foreground action choice now = some (result, after) →
        kept after.file ∧ post result after) :
    LedgerSafe kept contract (issue action) post world := by
  refine Safe.issue fun now inv relied => ?_
  have known := stable world now relied.1 (relied.2 rfl) holds
  refine ⟨⟨?_, fun _ => contracts now known⟩, fun choice result after answer => ?_⟩
  · cases action <;> trivial
  · have frame : Frame now after := by
      refine Frame.of_looks ?_ answer
      cases action <;> trivial
    rcases operates now choice result after known inv.2 answer with ⟨isKept, holds⟩
    exact ⟨ledger_keeps (.foreground_frame inv.1 frame) isKept fun other => absurd rfl other, holds⟩

/-- A program that keeps the discipline of the file keeps it with all the threads that it
creates. -/
theorem run_ledger {foreground : Program Unit} {file : Option (List QueueItem)}
    (isKept : kept file)
    (safe : LedgerSafe kept contract foreground (fun _ _ => True) (World.start file)) (rounds : Nat)
    (labels : List (ThreadId × Choice)) :
    AllSafe perform (ledger kept) (LedgerGuard contract)
      (run (process foreground rounds (World.start file)) labels) := by
  have start : AllSafe perform (ledger kept) (LedgerGuard contract)
      (process foreground rounds (World.start file)) := by
    refine ⟨⟨start_inv file, isKept⟩, fun who => ?_⟩
    cases who with
    | foreground => exact safe
    | created number =>
        have unborn : Unborn number (World.start file) := by
          refine ⟨fun _ _ has => ?_, fun _ has => ?_⟩
          · cases has
          · cases has
        exact ledger_created (createdThread_safe rounds unborn)
  exact start.run labels

end Ledger

end Zlyme.Scrape
