import Zlyme.Foundation.Concurrent
import Zlyme.Scrape.Queue

/-! # The threads of the scrape queue

The manager, the workers and the cheat thread of `queue.c`, the calls that the
foreground makes, and the two programs that make them: the application and its
background daemon. An operation is one region of a mutex, one access to an atomic, or
one step outside of the process.
-/

namespace Zlyme.Scrape

open Foundation

/-! ## Operations -/

/-- The start routine of a thread. -/
inductive Routine
  | manager
  | artworkWorker
  | manualWorker
  | cheatThread
  deriving DecidableEq, Repr

/-- The thread that works on the items of a kind, apart from the manager. -/
def workerRoutine : ItemType → Routine
  | .artwork => .artworkWorker
  | .manual => .manualWorker
  | .cheat => .cheatThread

/-- A `cheat_list` in `g_cheat_cache`. The entries are numbered anew once they are freed. -/
structure ListRef where
  epoch : Nat
  slot : Nat
  deriving DecidableEq, Repr

/-- What `ss_search_rom` answers. -/
inductive SearchResult
  | interrupted
  | notFound
  | found (maxThreads : Nat)
  | failed (message : Bytes)
  deriving Repr

/-- What `ss_download_media` answers. -/
inductive DownloadResult
  | interrupted
  | done
  | failed (message : Bytes)
  deriving Repr

inductive DaemonCommand
  | none
  | stop
  | handoff
  deriving DecidableEq, Repr

inductive Action
  /-- The thread begins, once it has been created. -/
  | begin
  /-- The thread returns from its start routine. -/
  | return
  | create (routine : Routine)
  | join (thread : Nat)
  | loadInterrupt
  | storeInterrupt (value : Bool)
  | managerShouldRun
  | hasIdleItems
  | idleTypes
  | endManager
  | claimItem (index : Nat) (type : ItemType) (next : ItemStatus)
  | setItemStatus (index : Nat) (status : ItemStatus)
  | setItemError (index : Nat) (status : ItemStatus) (message : Bytes)
  | findNextCheatIndex
  | idleIndices (type : ItemType)
  /-- The manager fills `g_artwork_work` or `g_manual_work`. -/
  | openWork (type : ItemType) (indices : List Nat)
  /-- The manager frees what it has filled. -/
  | closeWork (type : ItemType)
  /-- `atomic_fetch_add` on `next_index` -/
  | takeIndex (type : ItemType)
  | storeNextIndex (type : ItemType) (value : Nat)
  /-- The bound of the batch, and the index at a place of it. -/
  | readIndex (type : ItemType) (batchIndex : Nat)
  | buildTypes
  | allocateWorkers
  | search (item : QueueItem)
  | download (item : QueueItem)
  | cheatRepoIsReady
  | cheatExists (item : QueueItem)
  | ensureCheatList (dir : Bytes)
  | buildRegionTypes
  | matchCheat (list : ListRef) (item : QueueItem)
  | copyCheatFile (list : ListRef) (item : QueueItem)
  | init
  | add (rom : Rom) (item : QueueItem)
  | startManager
  | managerFailed
  | managerStarted
  /-- `pthread_join` on `g_manager_thread` -/
  | joinManager
  | managerStopped
  | clearDone
  | cancelAll
  | hasNonTerminal
  | hasUnfinishedWork
  | clearCheatRepoState
  | handoff
  | load (items : List QueueItem)
  | checkDirty
  | snapshot
  | getStats
  | isQueued (romPath : Bytes) (type : ItemType)
  | getRomStatus (romPath : Bytes) (type : ItemType)
  /-- The first region of `queue_shutdown`. -/
  | stopRunning
  | clearStarted
  /-- The last region of `queue_shutdown`. -/
  | emptyQueue
  | readCommand
  | serialize (items : List QueueItem)
  /-- `daemon_cleanup_all` -/
  | cleanupAll

/-- What an operation answers. -/
abbrev Action.Result : Action → Type
  | .begin => Routine
  | .create _ => Option Nat
  | .loadInterrupt | .managerShouldRun | .hasIdleItems | .buildTypes | .allocateWorkers => Bool
  | .idleTypes => Bool × Bool × Bool
  | .claimItem _ _ _ => Option QueueItem
  | .findNextCheatIndex | .readIndex _ _ => Option Nat
  | .idleIndices _ => Option (List Nat)
  | .takeIndex _ => Nat
  | .search _ => SearchResult
  | .download _ => DownloadResult
  | .cheatRepoIsReady | .cheatExists _ | .buildRegionTypes | .matchCheat _ _ => Bool
  | .copyCheatFile _ _ => Bool
  | .ensureCheatList _ => Option ListRef
  | .add _ _ | .startManager | .managerStarted | .hasUnfinishedWork | .load _ => Bool
  | .checkDirty | .isQueued _ _ | .stopRunning | .hasNonTerminal | .serialize _ => Bool
  | .handoff | .snapshot => List QueueItem
  | .getStats => Queue.Stats
  | .getRomStatus _ _ => Option ItemStatus
  | .readCommand => DaemonCommand
  | .return | .join _ | .storeInterrupt _ | .endManager | .setItemStatus _ _ => Unit
  | .setItemError _ _ _ | .openWork _ _ | .closeWork _ | .storeNextIndex _ _ => Unit
  | .init | .managerFailed | .joinManager | .managerStopped | .clearDone | .cancelAll => Unit
  | .clearCheatRepoState | .clearStarted | .emptyQueue | .cleanupAll => Unit

abbrev Program : Type → Type :=
  Script Action Action.Result

def issue (action : Action) : Program action.Result :=
  Script.issue action

/-! ## Workers -/

/-- One round of `artwork_worker_fn`, and of `manual_worker_fn`. -/
def workerRound (type : ItemType) : Program (Unit ⊕ Unit) := do
  if ← issue .loadInterrupt then return .inr ()
  else if !(← issue .managerShouldRun) then return .inr ()
  else
    let batchIndex ← issue (.takeIndex type)
    match ← issue (.readIndex type batchIndex) with
    | none => return .inr ()
    | some queueIndex =>
        match ← issue (.claimItem queueIndex type .searching) with
        | none => return .inl ()
        | some item =>
            match ← issue (.search item) with
            | .interrupted => return .inr ()
            | .notFound => do
                issue (.setItemStatus queueIndex .notFound)
                return .inl ()
            | .failed message => do
                issue (.setItemError queueIndex .error message)
                return .inl ()
            | .found _ => do
                issue (.setItemStatus queueIndex .downloading)
                match ← issue (.download item) with
                | .interrupted => return .inr ()
                | .done => do
                    issue (.setItemStatus queueIndex .done)
                    return .inl ()
                | .failed message => do
                    issue (.setItemError queueIndex .error message)
                    return .inl ()

def workerFn (type : ItemType) (rounds : Nat) : Program Unit :=
  Concurrent.loop (fun _ => workerRound type) rounds ()

def artworkWorkerFn : Nat → Program Unit := workerFn .artwork

def manualWorkerFn : Nat → Program Unit := workerFn .manual

/-! ## Cheats -/

/-- `process_cheat_item` where there is no list, or the interrupt is set. -/
def processCheatItem.withoutList (queueIndex : Nat) (item : QueueItem) : Program Unit := do
  if ← issue .loadInterrupt then return ()
  else issue (.setItemError queueIndex .error
    (ascii "Failed to build cheat list for '" ++ item.systemTag ++ ascii "'"))

/-- `process_cheat_item` from the matching on. -/
def processCheatItem.withList (queueIndex : Nat) (item : QueueItem) (list : ListRef) :
    Program Unit := do
  issue (.setItemStatus queueIndex .matching)
  if !(← issue .buildRegionTypes) then
    issue (.setItemError queueIndex .error (ascii "Failed to build region priority list"))
  else if !(← issue (.matchCheat list item)) then
    issue (.setItemStatus queueIndex .notFound)
  else if ← issue (.copyCheatFile list item) then
    issue (.setItemStatus queueIndex .done)
  else
    issue (.setItemError queueIndex .error (ascii "Failed to copy cheat file"))

/-- `process_cheat_item` from the cheat list on. -/
def processCheatItem.download (queueIndex : Nat) (item : QueueItem) : Program Unit := do
  match ← issue (.ensureCheatList item.cheatDir) with
  | none => withoutList queueIndex item
  | some list =>
      if ← issue .loadInterrupt then withoutList queueIndex item
      else withList queueIndex item list

def processCheatItem (queueIndex : Nat) : Program Unit := do
  let ready ← issue .cheatRepoIsReady
  match ← issue (.claimItem queueIndex .cheat (if ready then .matching else .cloning)) with
  | none => return ()
  | some item =>
      if item.cheatDir = [] then
        issue (.setItemError queueIndex .error (noDatabase item.systemTag))
      else if item.force then
        processCheatItem.download queueIndex item
      else if ← issue (.cheatExists item) then
        issue (.setItemStatus queueIndex .skipped)
      else
        processCheatItem.download queueIndex item

def cheatRound : Program (Unit ⊕ Unit) := do
  if ← issue .loadInterrupt then return .inr ()
  else
    match ← issue .findNextCheatIndex with
    | none => return .inr ()
    | some index => do
        processCheatItem index
        return .inl ()

def cheatThreadFn (rounds : Nat) : Program Unit :=
  Concurrent.loop (fun _ => cheatRound) rounds ()

/-! ## Manager -/

/-- The first item of a batch, which tells how many threads the account may use. -/
def processBatch.first (type : ItemType) (queueIndex : Nat) : Program Nat := do
  match ← issue (.claimItem queueIndex type .searching) with
  | none => return 1
  | some item =>
      match ← issue (.search item) with
      | .interrupted => return 1
      | .notFound => do
          issue (.setItemStatus queueIndex .notFound)
          return 1
      | .failed message => do
          issue (.setItemError queueIndex .error message)
          return 1
      | .found maxThreads => do
          issue (.setItemStatus queueIndex .downloading)
          match ← issue (.download item) with
          | .done => issue (.setItemStatus queueIndex .done)
          -- Unlike a worker, the manager takes an interrupt for an error here.
          | .interrupted => issue (.setItemError queueIndex .error (ascii "Download failed"))
          | .failed message => issue (.setItemError queueIndex .error message)
          return max 1 maxThreads

/-- The threads that `pthread_create` starts, until it fails. -/
def processBatch.start (type : ItemType) : Nat → List Nat → Program (List Nat)
  | 0, started => return started
  | count + 1, started => do
      match ← issue (.create (workerRoutine type)) with
      | none => return started
      | some thread => start type count (started ++ [thread])

def processBatch.workers (type : ItemType) (count : Nat) : Program Unit := do
  if ← issue .allocateWorkers then
    let started ← processBatch.start type count []
    Concurrent.each (fun thread => issue (.join thread)) started
  else return ()

/-- `process_artwork_batch`, and `process_manual_batch`. -/
def processBatch (type : ItemType) (settingsError : Bytes) : Program Unit := do
  match ← issue (.idleIndices type) with
  | none | some [] => return ()
  | some (first :: rest) => do
      let built ← issue .buildTypes
      issue (.openWork type (first :: rest))
      if !built then
        Concurrent.each (fun index => issue (.setItemError index .error settingsError))
          (first :: rest)
        issue (.closeWork type)
      else
        let maxThreads ← processBatch.first type first
        issue (.storeNextIndex type 1)
        if rest = [] then issue (.closeWork type)
        else if ← issue .loadInterrupt then issue (.closeWork type)
        else
          processBatch.workers type (min maxThreads rest.length)
          issue (.closeWork type)

def processArtworkBatch : Program Unit :=
  processBatch .artwork (ascii "Failed to build artwork/region settings")

def processManualBatch : Program Unit :=
  processBatch .manual (ascii "Failed to build region settings")

/-- A part of the round that an interrupt skips. -/
def unlessInterrupted (wanted : Bool) (part : Program Unit) : Program Unit := do
  if wanted then
    if ← issue .loadInterrupt then return ()
    else part
  else return ()

/-- The cheat thread, where one is wanted. -/
def startCheatThread (wanted : Bool) : Program (Option Nat) := do
  if wanted then
    if ← issue .loadInterrupt then return none
    else issue (.create .cheatThread)
  else return none

def managerRound : Program (Unit ⊕ Unit) := do
  if !(← issue .managerShouldRun) then return .inr ()
  else if ← issue .loadInterrupt then return .inr ()
  else if !(← issue .hasIdleItems) then return .inl ()
  else
    let (hasIdleArtwork, hasIdleCheats, hasIdleManuals) ← issue .idleTypes
    let cheatThread ← startCheatThread hasIdleCheats
    unlessInterrupted hasIdleArtwork processArtworkBatch
    unlessInterrupted hasIdleManuals processManualBatch
    match cheatThread with
    | some thread => do
        issue (.join thread)
        return .inl ()
    | none => return .inl ()

def managerThreadFn (rounds : Nat) : Program Unit := do
  Concurrent.loop (fun _ => managerRound) rounds ()
  issue .endManager

/-! ## Calls -/

def ensureManagerStarted : Program Unit := do
  if ← issue .startManager then
    match ← issue (.create .manager) with
    | some _ => return ()
    | none => issue .managerFailed
  else return ()

def stopManagerForTransition : Program Unit := do
  issue (.storeInterrupt true)
  if ← issue .managerStarted then
    issue .joinManager
  issue .managerStopped
  issue (.storeInterrupt false)

def queueInit : Program Unit := do
  issue .init
  issue .clearCheatRepoState
  issue (.storeInterrupt false)

def queueShutdown : Program Unit := do
  if ← issue .stopRunning then
    issue (.storeInterrupt true)
    issue .joinManager
    issue .clearStarted
  issue .clearCheatRepoState
  issue .emptyQueue

/-- `queue_add_artwork_internal`, `queue_add_cheat_internal` and
`queue_add_manual_internal`. -/
def queueAdd (type : ItemType) (request : AddRequest) : Program Unit := do
  match request.newItem type with
  | none => return ()
  | some item =>
      if ← issue (.add request.rom item) then ensureManagerStarted
      else return ()

def queueCancelAll : Program Unit := do
  stopManagerForTransition
  issue .cancelAll

def queueBeginMappingEdit : Program Unit := do
  if ← issue .hasUnfinishedWork then return ()
  else
    stopManagerForTransition
    if ← issue .hasUnfinishedWork then return ()
    else issue .clearCheatRepoState

def queueInvalidateCheatRepoState : Program Unit := do
  if ← issue .hasNonTerminal then return ()
  else issue .clearCheatRepoState

def queueHandoffSnapshot : Program (List QueueItem) := do
  stopManagerForTransition
  issue .handoff

def queueLoadItems (items : List QueueItem) : Program Unit := do
  if ← issue (.load items) then ensureManagerStarted
  else return ()

/-! ## The application -/

/-- What the user does with the application, and what it asks of the queue meanwhile. -/
inductive Request
  | add (type : ItemType) (request : AddRequest)
  | clearDone
  | cancelAll
  | beginMappingEdit
  | invalidateCheatRepoState
  | checkDirty
  | snapshot
  | getStats
  | isQueued (romPath : Bytes) (type : ItemType)
  | getRomStatus (romPath : Bytes) (type : ItemType)
  | isActive
  /-- The application is to go on in the background. `launched` says whether the daemon
  reports that it is ready. -/
  | background (launched : Bool)

/-- A request that leaves the application open. -/
def Request.call : Request → Program Unit
  | .add type request => queueAdd type request
  | .clearDone => issue .clearDone
  | .cancelAll => queueCancelAll
  | .beginMappingEdit => queueBeginMappingEdit
  | .invalidateCheatRepoState => queueInvalidateCheatRepoState
  | .checkDirty => do
      let _ ← issue .checkDirty
  | .snapshot => do
      let _ ← issue .snapshot
  | .getStats => do
      let _ ← issue .getStats
  | .isQueued romPath type => do
      let _ ← issue (.isQueued romPath type)
  | .getRomStatus romPath type => do
      let _ ← issue (.getRomStatus romPath type)
  | .isActive => do
      let _ ← issue .hasNonTerminal
  | .background _ => return ()

def daemonLaunch (items : List QueueItem) (launched : Bool) : Program Bool := do
  if ← issue (.serialize items) then return launched
  else return false

/-- The main menu, until the user quits. -/
def serve : List Request → Program Unit
  | [] => return ()
  | .background launched :: rest => do
      let items ← queueHandoffSnapshot
      if !(items.any fun item => !isTerminalStatus item.status) then return ()
      else if ← daemonLaunch items launched then return ()
      else
        issue .cleanupAll
        queueLoadItems items
        serve rest
  | request :: rest => do
      request.call
      serve rest

/-- `restore_daemon_queue`, with the queue that is read from the file. -/
def restoreDaemonQueue (items : List QueueItem) : Program Bool := do
  if items = [] then return false
  else
    queueLoadItems items
    issue .cleanupAll
    return true

/-- What becomes of a daemon when the application starts. -/
inductive Takeover
  /-- There has been none. -/
  | absent
  /-- It has handed over its queue, or it has stopped. -/
  | gone
  /-- It goes on. -/
  | running
  deriving DecidableEq, Repr

/-- `check_daemon_on_startup`, from the queue of the daemon on. -/
def checkDaemonOnStartup (items : List QueueItem) : Takeover → Program Bool
  | .absent => do
      let _ ← restoreDaemonQueue items
      return true
  | .gone => do
      if ← restoreDaemonQueue items then return true
      else
        issue .cleanupAll
        return true
  | .running => return false

/-- `main`, with the queue that an earlier daemon has left. -/
def appMain (restored : List QueueItem) (takeover : Takeover) (requests : List Request) :
    Program Unit := do
  queueInit
  if ← checkDaemonOnStartup restored takeover then serve requests
  queueShutdown

/-! ## The daemon -/

/-- One round of the poll loop of `daemon_main`. -/
def daemonRound : Program (Unit ⊕ DaemonCommand) := do
  let command ← issue .readCommand
  if command ≠ .none then return .inr command
  else
    let stats ← issue .getStats
    if stats.pending = 0 then return .inr .none
    else
      if ← issue .checkDirty then
        let items ← issue .snapshot
        let _ ← issue (.serialize items)
      let sleeping ← issue .readCommand
      if sleeping ≠ .none then return .inr sleeping
      else return .inl ()

/-- What `daemon_main` leaves in the file at last. -/
def lastSnapshot (command : DaemonCommand) : Program (List QueueItem) :=
  if command = .handoff then queueHandoffSnapshot else issue .snapshot

/-- `daemon_main`, with the queue that it finds in its file. -/
def daemonMain (items : List QueueItem) (rounds : Nat) : Program Unit := do
  if items = [] then return ()
  else
    queueInit
    queueLoadItems items
    let command ← Concurrent.loop (fun _ => daemonRound) rounds ()
    if command = .stop then queueCancelAll
    let last ← lastSnapshot command
    let _ ← issue (.serialize last)
    queueShutdown

end Zlyme.Scrape
