import Mathlib.Data.UInt
import Zlyme.Foundation.Bytes

/-! # The scrape queue

The state that `queue.c` keeps under `g_mutex`, and what its threads and its callers do
to it while they hold that mutex.
-/

namespace Zlyme.Scrape

open Foundation

def ascii (literal : String) : Bytes :=
  literal.toList.map fun char => UInt8.ofNat char.toNat

/-- `snprintf(buf, size, "%s", text)` -/
def snprintf (size : Nat) (text : Bytes) : Bytes :=
  text.take (size - 1)

def pathMax : Nat := 4096

def queueMaxItems : Nat := 2048

/-! ## Items -/

inductive ItemType
  | artwork
  | cheat
  | manual
  deriving DecidableEq, Repr

inductive ItemStatus
  | idle
  | searching
  | downloading
  | cloning
  | matching
  | done
  | notFound
  | error
  | skipped
  deriving DecidableEq, Repr

def isTerminalStatus : ItemStatus → Bool
  | .done | .notFound | .error | .skipped => true
  | .idle | .searching | .downloading | .cloning | .matching => false

structure QueueItem where
  id : UInt32
  type : ItemType
  romDisplay : Bytes
  romPath : Bytes
  systemTag : Bytes
  systemDisplay : Bytes
  consolePath : Bytes
  systemId : Int
  cheatDir : Bytes
  status : ItemStatus
  errorMsg : Bytes
  force : Bool
  deriving DecidableEq, Repr

namespace QueueItem

/-- The item is queued or still being worked on. -/
def Unfinished (item : QueueItem) : Prop :=
  isTerminalStatus item.status = false

instance (item : QueueItem) : Decidable item.Unfinished :=
  inferInstanceAs (Decidable (_ = _))

theorem unfinished_of_idle {item : QueueItem} (isIdle : item.status = .idle) :
    item.Unfinished := by
  rw [Unfinished, isIdle]
  rfl

/-- A worker has the item. -/
def Active (item : QueueItem) : Prop :=
  item.Unfinished ∧ item.status ≠ .idle

def withStatus (item : QueueItem) (status : ItemStatus) : QueueItem :=
  { item with status := status }

/-- What `set_item_error` leaves. -/
def withError (item : QueueItem) (status : ItemStatus) (message : Bytes) : QueueItem :=
  { item with status := status, errorMsg := snprintf 256 message }

/-- What the item stands for, whatever has become of it. -/
def job (item : QueueItem) : QueueItem :=
  { item with status := .idle, errorMsg := [] }

@[simp] theorem job_withStatus (item : QueueItem) (status : ItemStatus) :
    (item.withStatus status).job = item.job := rfl

@[simp] theorem job_withError (item : QueueItem) (status : ItemStatus) (message : Bytes) :
    (item.withError status message).job = item.job := rfl

end QueueItem

/-! ## Requests -/

structure Platform where
  ssId : Int
  libretroDir : Option Bytes
  deriving DecidableEq, Repr

/-- What `systems_resolve` answers for a folder. -/
structure Mapping where
  platform : Option Platform
  hidden : Bool
  deriving DecidableEq, Repr

/-- `rom_file`, whose path fits its buffer. -/
structure Rom where
  path : Bytes
  display : Bytes
  path_fits : path.length < pathMax

structure Console where
  tag : Bytes
  path : Bytes
  display : Bytes

/-- One call of `queue_add_artwork_internal` and the like: the arguments, and what is
found of the folder's mapping, of the file to download, and of the settings. -/
structure AddRequest where
  rom : Rom
  console : Console
  mapping : Mapping
  present : Bool
  force : Bool
  manualDir : Bytes

namespace AddRequest

variable (request : AddRequest)

/-- The fields that all three kinds of item are filled with. -/
def item (type : ItemType) (systemId : Int) (cheatDir : Bytes) : QueueItem where
  id := 0
  type := type
  romDisplay := snprintf 256 request.rom.display
  romPath := snprintf pathMax request.rom.path
  systemTag := snprintf 64 request.console.tag
  systemDisplay := snprintf 256 request.console.display
  consolePath := snprintf pathMax request.console.path
  systemId := systemId
  cheatDir := cheatDir
  status := .idle
  errorMsg := []
  force := request.force

/-- `queue_add_artwork_internal` before it takes the mutex. -/
def artworkItem : Option QueueItem :=
  match request.mapping.hidden, request.mapping.platform with
  | false, some platform =>
      if platform.ssId < 0 then none
      else if !request.force && request.present then none
      else some (request.item .artwork platform.ssId [])
  | _, _ => none

/-- `queue_add_cheat_internal` before it takes the mutex. -/
def cheatItem : Option QueueItem :=
  match request.mapping.hidden, request.mapping.platform with
  | false, some platform =>
      match platform.libretroDir with
      | some cheatDir =>
          if 256 ≤ cheatDir.length then none
          else if !request.force && request.present then none
          else some (request.item .cheat platform.ssId (snprintf 256 cheatDir))
      | none => none
  | _, _ => none

/-- `queue_add_manual_internal` before it takes the mutex. -/
def manualItem : Option QueueItem :=
  match request.mapping.hidden, request.mapping.platform with
  | false, some platform =>
      if platform.ssId < 0 then none
      else if request.manualDir = [] then none
      else if !request.force && request.present then none
      else some (request.item .manual platform.ssId [])
  | _, _ => none

def newItem : ItemType → Option QueueItem
  | .artwork => request.artworkItem
  | .cheat => request.cheatItem
  | .manual => request.manualItem

end AddRequest

/-! ## Regions of the mutex -/

structure Queue where
  /-- `g_items`, up to `g_count`. -/
  items : List QueueItem
  nextItemId : UInt32
  dirty : Bool
  managerStarted : Bool
  workerRunning : Bool
  deriving DecidableEq, Repr

namespace Queue

/-- The first region of `queue_init`. -/
def init : Queue where
  items := []
  nextItemId := 1
  dirty := false
  managerStarted := false
  workerRunning := false

variable (queue : Queue)

def hasNonTerminal : Bool :=
  queue.items.any fun item => !isTerminalStatus item.status

def hasIdleItems : Bool :=
  queue.items.any fun item => item.status == .idle

def hasIdle (type : ItemType) : Bool :=
  queue.items.any fun item => item.status == .idle && item.type == type

/-- `claim_item_locked`, with the snapshot. -/
def claimItem (index : Nat) (type : ItemType) (next : ItemStatus) : Option QueueItem × Queue :=
  match queue.items[index]? with
  | some item =>
      if item.type ≠ type ∨ item.status ≠ .idle then (none, queue)
      else (some item,
        { queue with items := queue.items.set index (item.withStatus next), dirty := true })
  | none => (none, queue)

/-- The region of `set_item_status` and of `set_item_error`. -/
def modify (index : Nat) (change : QueueItem → QueueItem) : Queue :=
  if index < queue.items.length then
    { queue with items := queue.items.modify index change, dirty := true }
  else queue

def setItemStatus (index : Nat) (status : ItemStatus) : Queue :=
  queue.modify index (·.withStatus status)

def setItemError (index : Nat) (status : ItemStatus) (message : Bytes) : Queue :=
  queue.modify index (·.withError status message)

def findNextCheatIndex : Option Nat :=
  queue.items.findIdx? fun item => item.type == .cheat && item.status == .idle

/-- The indices that `process_artwork_batch` and `process_manual_batch` collect. -/
def idleIndices (type : ItemType) : List Nat :=
  queue.items.findIdxs fun item => item.type == type && item.status == .idle

/-- The item is queued already, and not done with. -/
def isQueued (romPath : Bytes) (type : ItemType) : Bool :=
  queue.items.any fun item =>
    item.type == type && item.romPath == romPath && !isTerminalStatus item.status

def itemIdAfter (id : UInt32) : UInt32 :=
  if id + 1 = 0 then 1 else id + 1

/-- The region that the three `queue_add_*_internal` have in common. -/
def add (rom : Rom) (item : QueueItem) : Bool × Queue :=
  if queue.isQueued rom.path item.type then (false, queue)
  else if queueMaxItems ≤ queue.items.length then (false, queue)
  else (true,
    { queue with
      items := queue.items ++ [{ item with id := queue.nextItemId }]
      nextItemId := itemIdAfter queue.nextItemId
      dirty := true })

def romStatus (romPath : Bytes) (type : ItemType) : Option ItemStatus :=
  (queue.items.reverse.find? fun item => item.type == type && item.romPath == romPath).map
    (·.status)

/-- `queue_clear_done` -/
def clearDone : Queue :=
  if queue.hasNonTerminal then queue
  else
    let kept := queue.items.filter fun item => !isTerminalStatus item.status
    { queue with items := kept, dirty := queue.dirty || kept.length != queue.items.length }

/-- What `queue_cancel_all` leaves of an item. -/
def cancelled (item : QueueItem) : QueueItem :=
  if isTerminalStatus item.status then item else item.withError .skipped (ascii "Cancelled")

/-- The region of `queue_cancel_all`. -/
def cancelAll : Queue where
  items := queue.items.map cancelled
  nextItemId := queue.nextItemId
  dirty := true
  managerStarted := false
  workerRunning := false

/-- What `queue_handoff_snapshot` leaves of an item. -/
def requeued (item : QueueItem) : QueueItem :=
  if isTerminalStatus item.status then item else item.job

/-- The region of `queue_handoff_snapshot`. -/
def handoff : Queue :=
  { queue with items := queue.items.map requeued, dirty := queue.dirty || queue.hasNonTerminal }

structure Stats where
  total : Nat
  done : Nat
  failed : Nat
  pending : Nat

def getStats : Stats where
  total := queue.items.length
  done := queue.items.countP fun item => item.status == .done || item.status == .skipped
  failed := queue.items.countP fun item => item.status == .notFound || item.status == .error
  pending := queue.items.countP fun item => !(item.status == .done || item.status == .skipped ||
    item.status == .notFound || item.status == .error)

end Queue

/-! ## Loading -/

/-- `systems_valid_provider_dir` -/
def validProviderDir (dir : Bytes) : Bool :=
  !dir.isEmpty && decide (dir.length ≤ 200) && !dir.contains 0x2f && !dir.contains 0x5c &&
    dir != ascii "." && dir != ascii ".."

/-- The message of a cheat item without a database. -/
def noDatabase (systemTag : Bytes) : Bytes :=
  ascii "No cheat database selected for '" ++ systemTag ++ ascii "'"

/-- `restore_cheat_target_locked` -/
def restoreCheatTarget (resolve : Bytes → Bytes → Mapping) (item : QueueItem) : QueueItem :=
  if item.type ≠ .cheat ∨ isTerminalStatus item.status then item
  else if item.cheatDir ≠ [] then
    if validProviderDir item.cheatDir then item
    else item.withError .error (ascii "Saved cheat database name is invalid")
  else
    let mapping := resolve item.consolePath item.systemTag
    match mapping.hidden, mapping.platform.bind (·.libretroDir) with
    | false, some dir =>
        if 256 ≤ dir.length then item.withError .error (noDatabase item.systemTag)
        else { item with cheatDir := snprintf 256 dir }
    | _, _ => item.withError .error (noDatabase item.systemTag)

/-- What `queue_load_items` makes of an item. -/
def loaded (resolve : Bytes → Bytes → Mapping) (item : QueueItem) : QueueItem :=
  restoreCheatTarget resolve (Queue.requeued item)

/-- `g_next_item_id` after the item is loaded. -/
def idAfterLoading (next : UInt32) (item : QueueItem) : UInt32 :=
  if next ≤ item.id then item.id + 1 else next

/-- The region of `queue_load_items`, and whether anything is pending. -/
def Queue.load (resolve : Bytes → Bytes → Mapping) (queue : Queue) (items : List QueueItem) :
    Bool × Queue :=
  let items := items.take queueMaxItems
  (items.any fun item => !isTerminalStatus item.status,
    { queue with
      items := items.map (loaded resolve)
      nextItemId := items.foldl idAfterLoading queue.nextItemId
      dirty := true })

end Zlyme.Scrape
