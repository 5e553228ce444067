import Zlyme.Scrape.Process

/-! # What the threads of the scrape queue rely on

Each item that a worker has is claimed by one thread, which is alive, and is still the
item that it took. The threads that are alive are one manager and what it has created.
-/

namespace Zlyme.Scrape

open Foundation Foundation.Concurrent

/-! ## Threads that are alive -/

def World.Has (world : World) (number : Nat) (pthread : Pthread) : Prop :=
  world.pthreads[number]? = some pthread

theorem World.Has.unique {world : World} {number : Nat} {pthread other : Pthread}
    (has : world.Has number pthread) (hasOther : world.Has number other) : pthread = other :=
  Option.some.inj (has.symm.trans hasOther)

def World.LiveAs (world : World) (number : Nat) (routine : Routine) : Prop :=
  ∃ pthread, world.Has number pthread ∧ pthread.returned = false ∧
    pthread.routine = routine

/-- The foreground is alone. -/
def World.Quiet (world : World) : Prop :=
  ∀ number pthread, world.Has number pthread → pthread.returned = true

/-- Of what a thread has created, nothing with the routine is left. -/
def World.Joined (world : World) (creator : Nat) (routine : Routine) : Prop :=
  ∀ number pthread, world.Has number pthread →
    pthread.creator = .created creator → pthread.routine = routine → pthread.returned = true

def World.Settled (world : World) : Prop :=
  ∀ item ∈ world.queue.items, ¬item.Unfinished

/-- The list is in the cache, and it is the list of the directory. -/
def World.Cached (world : World) (list : ListRef) (dir : Bytes) : Prop :=
  list.epoch = world.repo.epoch ∧ world.repo.lists[list.slot]? = some dir

/-- The jobs of a queue are the same, and what was finished is as it was. -/
structure Progress (before after : List QueueItem) : Prop where
  jobs : ∀ index : Nat, after[index]?.map QueueItem.job = before[index]?.map QueueItem.job
  finished : ∀ (index : Nat) item, before[index]? = some item → ¬item.Unfinished →
    after[index]? = some item

theorem Progress.refl (items : List QueueItem) : Progress items items :=
  ⟨fun _ => rfl, fun _ _ there _ => there⟩

theorem Progress.trans {first second third : List QueueItem} (left : Progress first second)
    (right : Progress second third) : Progress first third where
  jobs index := (right.jobs index).trans (left.jobs index)
  finished index item there isFinished :=
    right.finished index item (left.finished index item there isFinished) isFinished

theorem Progress.eq_of_settled {before after : List QueueItem} (progress : Progress before after)
    (settled : ∀ item ∈ before, ¬item.Unfinished) : after = before := by
  apply List.ext_getElem?
  intro index
  cases there : before[index]? with
  | none =>
      have same := progress.jobs index
      rw [there] at same
      exact Option.map_eq_none_iff.mp same
  | some item =>
      exact progress.finished index item there (settled item (List.mem_of_getElem? there))

/-! ## Invariant -/

/-- The claim of an item that the worker still has. -/
structure Claim.Held (world : World) (index : Nat) (claim : Claim) : Prop where
  thread : ∃ number routine, claim.thread = .created number ∧ world.LiveAs number routine ∧
    (routine = .manager ∨ routine = workerRoutine claim.item.type)
  item : ∃ item, world.queue.items[index]? = some item ∧ item.Active ∧ item.job = claim.item.job

structure Inv (world : World) : Prop where
  lineage : ∀ number pthread, world.Has number pthread → pthread.returned = false →
    (pthread.routine = .manager ∧ world.managerThread = some number ∧
        world.queue.managerStarted = true) ∨
      ∃ creator, pthread.creator = .created creator ∧ pthread.routine ≠ .manager ∧
        world.LiveAs creator .manager
  claims : ∀ index claim, world.claims index = some claim → claim.Held world index
  work : ∀ number type, type ≠ .cheat → world.LiveAs number (workerRoutine type) →
    (world.work type).indices.isSome = true

/-! ## Guards -/

/-- The thread may write the item at an index: it has claimed it, or it is the manager
and nobody may claim the item. -/
def MayWrite (world : World) (number : Nat) (routine : Routine) (index : Nat) : Prop :=
  ∃ item, world.queue.items[index]? = some item ∧ item.Unfinished ∧
    ((∃ snapshot, world.claims index = some ⟨.created number, snapshot⟩ ∧
        item.job = snapshot.job) ∨
      (routine = .manager ∧ item.status = .idle ∧ world.claims index = none ∧
        world.Joined number (workerRoutine item.type)))

/-- What holds where a created thread issues an operation. -/
def ThreadGuard (world : World) (number : Nat) (routine : Routine) : Action → Prop
  | .return => ∀ child pthread, world.Has child pthread →
      pthread.creator = .created number → pthread.returned = true
  | .create created => routine = .manager ∧ created ≠ .manager ∧
      ∀ type, type ≠ .cheat → created = workerRoutine type →
        (world.work type).indices.isSome = true
  | .join thread => ∃ pthread, world.Has thread pthread ∧
      pthread.creator = .created number ∧ pthread.joined = false
  | .claimItem _ type next => (routine = .manager ∨ routine = workerRoutine type) ∧
      isTerminalStatus next = false ∧ next ≠ .idle
  | .setItemStatus index status => MayWrite world number routine index ∧ status ≠ .idle
  | .setItemError index status _ => MayWrite world number routine index ∧ status ≠ .idle
  | .openWork _ _ => routine = .manager
  | .closeWork type => routine = .manager ∧ world.Joined number (workerRoutine type)
  | .readIndex type _ => (world.work type).indices.isSome = true
  | .matchCheat list item => world.Cached list item.cheatDir
  | .copyCheatFile list item => world.Cached list item.cheatDir
  | .storeInterrupt _ | .init | .add _ _ | .startManager | .managerFailed => False
  | .joinManager | .managerStopped | .clearDone | .cancelAll | .clearCheatRepoState => False
  | .handoff | .load _ | .checkDirty | .stopRunning | .clearStarted | .emptyQueue => False
  | .serialize _ | .cleanupAll => False
  | _ => True

/-- What holds where the foreground issues an operation. -/
def ForegroundGuard (world : World) : Action → Prop
  | .create routine => routine = .manager ∧ world.Quiet ∧ world.queue.managerStarted = true
  | .joinManager => ∃ number pthread, world.managerThread = some number ∧
      world.Has number pthread ∧ pthread.creator = .foreground ∧
      pthread.joined = false
  | .init | .managerFailed | .managerStopped | .cancelAll | .handoff | .load _ => world.Quiet
  | .stopRunning | .add _ _ | .clearDone => True
  | .clearStarted | .emptyQueue => world.Quiet
  | .clearCheatRepoState => world.Quiet ∨ world.Settled
  | .begin | .return | .join _ | .endManager | .claimItem _ _ _ | .setItemStatus _ _ => False
  | .setItemError _ _ _ | .openWork _ _ | .closeWork _ | .takeIndex _ => False
  | .storeNextIndex _ _ | .readIndex _ _ | .ensureCheatList _ | .matchCheat _ _ => False
  | .copyCheatFile _ _ => False
  | _ => True

def Guard : ThreadId → Action → World → Prop
  | .foreground, action, world => ForegroundGuard world action
  | .created _, .begin, _ => True
  | .created number, action, world =>
      ∃ routine, world.LiveAs number routine ∧ ThreadGuard world number routine action

/-! ## Rely -/

/-- Threads come and return, and only the creator of a thread joins it. -/
structure Grows (who : ThreadId) (before after : World) : Prop where
  kept : ∀ number pthread, before.Has number pthread →
    ∃ pthread', after.Has number pthread' ∧ pthread'.routine = pthread.routine ∧
      pthread'.creator = pthread.creator ∧ (pthread.returned = true → pthread'.returned = true)
  children : ∀ number pthread', after.Has number pthread' →
    pthread'.creator = who →
      ∃ pthread, before.Has number pthread ∧ pthread.joined = pthread'.joined

/-- What a created thread relies on. -/
structure ThreadRely (number : Nat) (before after : World) : Prop
    extends Grows (.created number) before after where
  own : ∀ pthread', after.Has number pthread' → pthread'.returned = true →
    ∃ pthread, before.Has number pthread ∧ pthread.returned = true
  claims : ∀ index claim, before.claims index = some claim → claim.thread = .created number →
    after.claims index = some claim ∧ after.queue.items[index]? = before.queue.items[index]?
  idle : before.LiveAs number .manager → ∀ index item,
    before.queue.items[index]? = some item → item.status = .idle →
      before.Joined number (workerRoutine item.type) →
        after.queue.items[index]? = some item ∧ after.claims index = before.claims index
  work : before.LiveAs number .manager → ∀ type,
    (after.work type).indices = (before.work type).indices
  repo : (∃ index claim, before.claims index = some claim ∧ claim.thread = .created number) →
    after.repo.epoch = before.repo.epoch ∧ before.repo.lists <+: after.repo.lists

/-- What the foreground relies on. -/
structure ForegroundRely (before after : World) : Prop
    extends Grows .foreground before after where
  started : after.queue.managerStarted = before.queue.managerStarted
  managerThread : after.managerThread = before.managerThread
  quiet : before.Quiet → after = before
  progress : Progress before.queue.items after.queue.items

def Rely : ThreadId → World → World → Prop
  | .foreground => ForegroundRely
  | .created number => ThreadRely number

section Rely

variable {who : ThreadId} {number : Nat} {before middle after world : World}

theorem Grows.refl (who : ThreadId) (world : World) : Grows who world world where
  kept _ pthread found := ⟨pthread, found, rfl, rfl, id⟩
  children _ pthread found _ := ⟨pthread, found, rfl⟩

theorem Grows.trans (first : Grows who before middle) (second : Grows who middle after) :
    Grows who before after where
  kept number pthread found := by
    rcases first.kept number pthread found with ⟨next, there, routine, creator, returned⟩
    rcases second.kept number next there with ⟨last, later, routine', creator', returned'⟩
    exact ⟨last, later, routine'.trans routine, creator'.trans creator,
      fun isReturned => returned' (returned isReturned)⟩
  children number pthread found isChild := by
    rcases second.children number pthread found isChild with ⟨next, there, joined⟩
    have creator : next.creator = who := by
      rcases second.kept number next there with ⟨last, later, -, creator, -⟩
      rw [← creator, later.unique found]
      exact isChild
    rcases first.children number next there creator with ⟨old, here, joined'⟩
    exact ⟨old, here, joined'.trans joined⟩

theorem Grows.joined (grows : Grows (.created number) before after) {routine : Routine}
    (joined : before.Joined number routine) : after.Joined number routine := by
  intro child pthread found isChild isRoutine
  rcases grows.children child pthread found isChild with ⟨old, here, -⟩
  rcases grows.kept child old here with ⟨new, there, sameRoutine, sameCreator, returned⟩
  cases there.unique found
  exact returned (joined child old here (sameCreator.symm.trans isChild)
    (sameRoutine.symm.trans isRoutine))

theorem ThreadRely.liveAs (relied : ThreadRely number before after) {routine : Routine}
    (live : before.LiveAs number routine) : after.LiveAs number routine := by
  rcases live with ⟨old, here, alive, isRoutine⟩
  rcases relied.kept number old here with ⟨new, there, sameRoutine, -, -⟩
  refine ⟨new, there, ?_, sameRoutine.trans isRoutine⟩
  by_contra returned
  rw [Bool.not_eq_false] at returned
  rcases relied.own new there returned with ⟨pthread, found, isReturned⟩
  rw [here.unique found, isReturned] at alive
  cases alive

theorem ThreadRely.refl (number : Nat) (world : World) : ThreadRely number world world where
  toGrows := .refl _ _
  own pthread found returned := ⟨pthread, found, returned⟩
  claims _ _ claimed _ := ⟨claimed, rfl⟩
  idle _ _ _ found _ _ := ⟨found, rfl⟩
  work _ _ := rfl
  repo _ := ⟨rfl, List.prefix_rfl⟩

theorem ThreadRely.trans (first : ThreadRely number before middle)
    (second : ThreadRely number middle after) : ThreadRely number before after where
  toGrows := first.toGrows.trans second.toGrows
  own pthread found returned := by
    rcases second.own pthread found returned with ⟨next, there, isReturned⟩
    exact first.own next there isReturned
  claims index claim claimed own := by
    rcases first.claims index claim claimed own with ⟨still, same⟩
    rcases second.claims index claim still own with ⟨last, same'⟩
    exact ⟨last, same'.trans same⟩
  idle live index item found isIdle joined := by
    rcases first.idle live index item found isIdle joined with ⟨still, same⟩
    rcases second.idle (first.liveAs live) index item still isIdle (first.joined joined)
      with ⟨last, same'⟩
    exact ⟨last, same'.trans same⟩
  work live type := (second.work (first.liveAs live) type).trans (first.work live type)
  repo claimed := by
    rcases first.repo claimed with ⟨epoch, lists⟩
    rcases claimed with ⟨index, claim, claimed, own⟩
    rcases second.repo ⟨index, claim, (first.claims index claim claimed own).1, own⟩
      with ⟨epoch', lists'⟩
    exact ⟨epoch'.trans epoch, lists.trans lists'⟩

theorem ForegroundRely.refl (world : World) : ForegroundRely world world where
  toGrows := .refl _ _
  started := rfl
  managerThread := rfl
  quiet _ := rfl
  progress := .refl _

theorem ForegroundRely.trans (first : ForegroundRely before middle)
    (second : ForegroundRely middle after) : ForegroundRely before after where
  toGrows := first.toGrows.trans second.toGrows
  started := second.started.trans first.started
  managerThread := second.managerThread.trans first.managerThread
  quiet alone := by
    have same := first.quiet alone
    subst same
    exact second.quiet alone
  progress := first.progress.trans second.progress

end Rely

/-- What the threads of the process keep between them. -/
def discipline : Discipline ThreadId World where
  inv := Inv
  rely := Rely
  refl who world _ := by
    cases who with
    | foreground => exact ForegroundRely.refl world
    | created number => exact ThreadRely.refl number world
  trans who first second third := by
    cases who with
    | foreground => exact ForegroundRely.trans
    | created number => exact ThreadRely.trans

end Zlyme.Scrape
