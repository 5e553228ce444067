import Zlyme.Scrape.Threads

/-! # The process of the scrape queue

What the operations of the threads do to the state that they share.
-/

namespace Zlyme.Scrape

open Foundation

/-! ## State -/

inductive ThreadId
  | foreground
  | created (number : Nat)
  deriving DecidableEq, Repr

structure Pthread where
  routine : Routine
  creator : ThreadId
  returned : Bool
  joined : Bool
  deriving DecidableEq, Repr

/-- `g_artwork_work` or `g_manual_work`. -/
structure Work where
  /-- The indices of the batch, unless they are freed. -/
  indices : Option (List Nat)
  nextIndex : Nat
  deriving DecidableEq, Repr

/-- What `g_cheat_state_mutex` protects. -/
structure CheatRepo where
  ready : Bool
  /-- The directories of the lists in the cache. -/
  lists : List Bytes
  /-- How often the lists have been freed. -/
  epoch : Nat
  deriving DecidableEq, Repr

/-- Which thread has taken an item, and the item as it took it. -/
structure Claim where
  thread : ThreadId
  item : QueueItem
  deriving DecidableEq, Repr

structure World where
  queue : Queue
  interrupt : Bool
  work : ItemType → Work
  repo : CheatRepo
  /-- `g_manager_thread` -/
  managerThread : Option Nat
  pthreads : List Pthread
  /-- The claims of the threads, by the index of the item. No operation reads them. -/
  claims : Nat → Option Claim
  /-- `queue.json` -/
  file : Option (List QueueItem)

/-- The process before its first call. -/
def World.start (file : Option (List QueueItem)) : World where
  queue := .init
  interrupt := false
  work _ := ⟨none, 0⟩
  repo := ⟨false, [], 0⟩
  managerThread := none
  pthreads := []
  claims _ := none
  file := file

/-- What lies outside of the process. -/
structure Choice where
  /-- Whether the operation succeeds, where it may fail. -/
  ok : Bool
  search : SearchResult
  download : DownloadResult
  /-- Whether the cheat repository can be set up or brought up to date. -/
  repoReady : Bool
  checkedOut : Bool
  resolve : Bytes → Bytes → Mapping
  command : DaemonCommand

/-! ## Operations -/

/-- `ensure_cheat_list` where the directory has no list yet. It comes from a buffer of the
size of the entry's. -/
def CheatRepo.build (choice : Choice) (dir : Bytes) (repo : CheatRepo) :
    Option ListRef × CheatRepo :=
  if !repo.ready && !choice.repoReady then (none, repo)
  else if !choice.checkedOut || decide (64 ≤ repo.lists.length) || !choice.ok then
    (none, { repo with ready := true })
  else
    (some ⟨repo.epoch, repo.lists.length⟩,
      { repo with ready := true, lists := repo.lists ++ [dir] })

/-- `ensure_cheat_list` -/
def CheatRepo.ensure (choice : Choice) (dir : Bytes) (repo : CheatRepo) :
    Option ListRef × CheatRepo :=
  if dir = [] then (none, repo)
  else
    match repo.lists.idxOf? dir with
    | some slot => (some ⟨repo.epoch, slot⟩, repo)
    | none => repo.build choice dir

/-- `clear_cheat_repo_state_locked` -/
def CheatRepo.clear (repo : CheatRepo) : CheatRepo where
  ready := false
  lists := []
  epoch := repo.epoch + 1

namespace World

variable (world : World)

def setWork (type : ItemType) (work : Work) : World :=
  { world with work := Function.update world.work type work }

@[simp] theorem setWork_work_self (type : ItemType) (work : Work) :
    (world.setWork type work).work type = work :=
  Function.update_self ..

theorem setWork_work_of_ne {type other : ItemType} (isOther : other ≠ type) (work : Work) :
    (world.setWork type work).work other = world.work other :=
  Function.update_of_ne isOther ..

/-- `pthread_create` -/
def create (who : ThreadId) (routine : Routine) : World :=
  { world with
    pthreads := world.pthreads ++ [⟨routine, who, false, false⟩]
    managerThread := if routine = .manager then some world.pthreads.length else world.managerThread }

def modifyPthread (number : Nat) (change : Pthread → Pthread) : World :=
  { world with pthreads := world.pthreads.modify number change }

/-- `pthread_join` waits until the thread has returned. -/
def join (number : Nat) : Option World :=
  match world.pthreads[number]? with
  | some pthread =>
      if pthread.returned then
        some (world.modifyPthread number fun pthread => { pthread with joined := true })
      else none
  | none => none

/-- The thread is done, also with an item that it leaves as it is. -/
def finish (who : ThreadId) : World :=
  match who with
  | .created number =>
      { world.modifyPthread number fun pthread => { pthread with returned := true } with
        claims := fun index => (world.claims index).filter (·.thread != who) }
  | .foreground => world

/-- The item at an index is written, and released when it is done with. -/
def write (index : Nat) (status : ItemStatus) (queue : Queue) : World :=
  { world with
    queue := queue
    claims := if isTerminalStatus status then Function.update world.claims index none
      else world.claims }

def claim (who : ThreadId) (index : Nat) : Option QueueItem × Queue → Option QueueItem × World
  | (some item, queue) =>
      (some item,
        { world with
          queue := queue, claims := Function.update world.claims index (some ⟨who, item⟩) })
  | (none, queue) => (none, { world with queue := queue })

end World

def perform (who : ThreadId) (action : Action) (choice : Choice) (world : World) :
    Option (action.Result × World) :=
  match action with
  | .begin =>
      match who with
      | .foreground => none
      | .created number => world.pthreads[number]?.map fun pthread => (pthread.routine, world)
  | .return => some ((), world.finish who)
  | .create routine =>
      if choice.ok then some (some world.pthreads.length, world.create who routine)
      else some (none, world)
  | .join thread => (world.join thread).map fun after => ((), after)
  | .loadInterrupt => some (world.interrupt, world)
  | .storeInterrupt value => some ((), { world with interrupt := value })
  | .managerShouldRun => some (world.queue.workerRunning, world)
  | .hasIdleItems => some (world.queue.hasIdleItems, world)
  | .idleTypes =>
      some ((world.queue.hasIdle .artwork, world.queue.hasIdle .cheat, world.queue.hasIdle .manual),
        world)
  | .endManager => some ((), { world with queue := { world.queue with workerRunning := false } })
  | .claimItem index type next =>
      some (world.claim who index (world.queue.claimItem index type next))
  | .setItemStatus index status =>
      some ((), world.write index status (world.queue.setItemStatus index status))
  | .setItemError index status message =>
      some ((), world.write index status (world.queue.setItemError index status message))
  | .findNextCheatIndex => some (world.queue.findNextCheatIndex, world)
  | .idleIndices type =>
      some (if choice.ok then some (world.queue.idleIndices type) else none, world)
  | .openWork type indices => some ((), world.setWork type ⟨some indices, 0⟩)
  | .closeWork type => some ((), world.setWork type ⟨none, (world.work type).nextIndex⟩)
  | .takeIndex type =>
      some ((world.work type).nextIndex,
        world.setWork type { world.work type with nextIndex := (world.work type).nextIndex + 1 })
  | .storeNextIndex type value =>
      some ((), world.setWork type { world.work type with nextIndex := value })
  | .readIndex type batchIndex =>
      some ((world.work type).indices.bind (·[batchIndex]?), world)
  | .buildTypes => some (choice.ok, world)
  | .allocateWorkers => some (choice.ok, world)
  | .search _ => some (choice.search, world)
  | .download _ => some (choice.download, world)
  | .cheatRepoIsReady => some (world.repo.ready, world)
  | .cheatExists _ => some (choice.ok, world)
  | .ensureCheatList dir =>
      some ((world.repo.ensure choice dir).1,
        { world with repo := (world.repo.ensure choice dir).2 })
  | .buildRegionTypes => some (choice.ok, world)
  | .matchCheat _ _ => some (choice.ok, world)
  | .copyCheatFile _ _ => some (choice.ok, world)
  | .init => some ((), { world with queue := .init })
  | .add rom item =>
      some ((world.queue.add rom item).1, { world with queue := (world.queue.add rom item).2 })
  | .startManager =>
      if world.queue.managerStarted then some (false, world)
      else some (true,
        { world with
          queue := { world.queue with managerStarted := true, workerRunning := true }
          interrupt := false })
  | .managerFailed | .managerStopped =>
      some ((),
        { world with queue := { world.queue with managerStarted := false, workerRunning := false } })
  | .managerStarted => some (world.queue.managerStarted, world)
  | .joinManager =>
      (world.managerThread.bind world.join).map fun after => ((), after)
  | .clearDone => some ((), { world with queue := world.queue.clearDone })
  | .cancelAll => some ((), { world with queue := world.queue.cancelAll })
  | .hasNonTerminal => some (world.queue.hasNonTerminal, world)
  | .hasUnfinishedWork => some (world.queue.hasNonTerminal || world.queue.hasIdleItems, world)
  | .clearCheatRepoState => some ((), { world with repo := world.repo.clear })
  | .handoff => some (world.queue.handoff.items, { world with queue := world.queue.handoff })
  | .load items =>
      some ((world.queue.load choice.resolve items).1,
        { world with queue := (world.queue.load choice.resolve items).2 })
  | .checkDirty =>
      some (world.queue.dirty, { world with queue := { world.queue with dirty := false } })
  | .snapshot => some (world.queue.items, world)
  | .getStats => some (world.queue.getStats, world)
  | .isQueued romPath type => some (world.queue.isQueued romPath type, world)
  | .getRomStatus romPath type => some (world.queue.romStatus romPath type, world)
  | .stopRunning =>
      some (world.queue.managerStarted,
        { world with queue := { world.queue with workerRunning := false } })
  | .clearStarted =>
      some ((), { world with queue := { world.queue with managerStarted := false } })
  | .emptyQueue =>
      some ((), { world with queue := { world.queue with items := [], dirty := false } })
  | .readCommand => some (choice.command, world)
  | .serialize items =>
      some (choice.ok, if choice.ok then { world with file := some items } else world)
  | .cleanupAll => some ((), { world with file := none })

/-! ## System -/

/-- The start routine of a thread, with the rounds that its loop may take. -/
def startRoutine (rounds : Nat) : Routine → Program Unit
  | .manager => managerThreadFn rounds
  | .artworkWorker => artworkWorkerFn rounds
  | .manualWorker => manualWorkerFn rounds
  | .cheatThread => cheatThreadFn rounds

/-- A thread that may be created. -/
def createdThread (rounds : Nat) : Program Unit := do
  let routine ← issue .begin
  startRoutine rounds routine
  issue .return

/-- A process with the script of its foreground thread. -/
def process (foreground : Program Unit) (rounds : Nat) (world : World) :
    Concurrent ThreadId Action Action.Result World where
  rest
    | .foreground => foreground
    | .created _ => createdThread rounds
  world := world

/-- The process after the threads have taken their turns. -/
def run (state : Concurrent ThreadId Action Action.Result World)
    (labels : List (ThreadId × Choice)) : Concurrent ThreadId Action Action.Result World :=
  Execution.run (Concurrent.step perform) state labels

end Zlyme.Scrape
