import Mathlib.Data.List.Basic
import Zlyme.Foundation.Execution
import Zlyme.Foundation.Script

/-! # Capturing a log

What `zlyme-logs` does to one of the live logs that it follows. Others write the log
before any of its operations. A byte is known by its number: how many had been written
to the log in this boot before it.
-/

namespace Zlyme.Logs

open Foundation Foundation.Execution

/-! ## World -/

/-- What another program does to the live log. -/
inductive Write
  | append (count : Nat)
  | truncate (keep : Nat)
  | remove
  deriving DecidableEq, Repr

/-- What is known of the bytes; the script does not read it. -/
structure Ledger where
  /-- Logging is on: from the boot or the watermark until the flag is dropped. -/
  enabled : Bool
  /-- The first byte after the watermark. -/
  since : Nat
  /-- The byte was written while logging was on. -/
  wanted : Nat → Bool
  /-- The bytes that a copy has taken from the log, one after the other. -/
  taken : List Nat
  /-- The bytes before those that a limited `tail` reads. -/
  missed : List Nat
  /-- A limit, a cap or another rotation has kept bytes from the saved file. -/
  cut : Bool
  /-- How many bytes had been written when the size was last read. -/
  bound : Nat
  /-- How many bytes had been written when the size was read that was last recorded. -/
  complete : Nat

structure Files extends Ledger where
  /-- The live log, when it is a regular file. -/
  log : Option (List Nat)
  written : Nat
  /-- The file in `system-0`. -/
  saved : Option (List Nat)

/-- The files in `/tmp` that the script keeps for itself. -/
structure World extends Files where
  /-- The stored offset. -/
  offset : Option Nat
  unread : Bool
  stale : Bool
  /-- `$MARK`. -/
  mark : Bool
  /-- `$MARK.on`. -/
  on : Bool
  incomplete : Bool

def Files.bytes (files : Files) : List Nat :=
  files.log.getD []

def Files.savedBytes (files : Files) : List Nat :=
  files.saved.getD []

def Files.write (files : Files) : Write → Files
  | .append count =>
      { files with
        log := some (files.bytes ++ List.range' files.written count)
        written := files.written + count
        wanted := fun byte => if files.written ≤ byte then files.enabled else files.wanted byte }
  | .truncate keep => { files with log := files.log.map (·.take keep) }
  | .remove => { files with log := none }

def World.writes (world : World) (writes : List Write) : World :=
  { world with toFiles := run Files.write world.toFiles writes }

/-- The log's bytes from here on are wanted, and those before are not. -/
def Files.watermark (files : Files) : Files :=
  { files with
    enabled := true
    since := files.written
    bound := files.written }

/-! ## Operations -/

inductive Call
  | want
  | storageReady
  | lock
  /-- A command that only the rest of a function depends on: `mkdir`, `mktemp`, a copy
  to a temporary file. -/
  | attempt
  | isMarked
  | isOn
  | isIncomplete
  | isUnread
  | isStale
  | rotate
  | touchMark
  | touchOn
  | touchIncomplete
  | touchUnread
  | touchStale
  | removeOn
  | removeIncomplete
  | removeUnread
  | removeStale
  | removeOffset
  /-- `rm -f` of all files of an interval; not every stream's offset is among them. -/
  | removeInterval (named : Bool)
  /-- `regular_file`; a note of a missing file is a watermark. -/
  | isRegular (noting : Bool)
  /-- `read_size`; in a note, and of an unread stream, it is a watermark. -/
  | readSize (noting : Bool)
  | offset
  | writeOffset (size : Nat)
  /-- `printf 0` in the seed of a boot. -/
  | seed
  /-- `tail -c +N`, from the byte after the offset. -/
  | tail (skip : Nat)
  /-- `tail -c N`. -/
  | tailLast (limit : Nat)
  /-- `cat` of the saved file, if there is one. -/
  | readSaved
  /-- `mv -f` of the new file onto the saved one. -/
  | publish (piece content : List Nat)
  /-- `cap_generation`. -/
  | trim

@[reducible] def Call.Result : Call → Type
  | .readSize _ => Option Nat
  | .offset => Option Nat
  | .tail _ => Option (List Nat)
  | .tailLast _ => Option (List Nat)
  | .readSaved => Option (List Nat)
  | _ => Bool

/-- What the environment decides about one operation. -/
structure Choice where
  /-- What is written to the log before. -/
  meanwhile : List Write
  ok : Bool
  /-- The offset that a failed write leaves. -/
  left : Option Nat
  /-- How many bytes a cap takes. -/
  drop : Nat
  deriving DecidableEq, Repr

/-- The last `limit` bytes. -/
def lastBytes (limit : Nat) (bytes : List Nat) : List Nat :=
  bytes.drop (bytes.length - limit)

def Call.perform (choice : Choice) (world : World) : (call : Call) → call.Result × World
  | .want => (choice.ok, world)
  | .storageReady => (choice.ok, world)
  | .lock => (choice.ok, world)
  | .attempt => (choice.ok, world)
  | .isMarked => (world.mark, world)
  | .isOn => (world.on, world)
  | .isIncomplete => (world.incomplete, world)
  | .isUnread => (world.unread, world)
  | .isStale => (world.stale, world)
  | .rotate =>
      if choice.ok then
        (true, { world with saved := none, cut := world.cut || !world.savedBytes.isEmpty })
      else (false, world)
  | .touchMark => (choice.ok, { world with mark := world.mark || choice.ok })
  | .touchOn => (choice.ok, { world with on := world.on || choice.ok })
  | .touchIncomplete =>
      (choice.ok, { world with incomplete := world.incomplete || choice.ok, enabled := false })
  | .touchUnread => (choice.ok, { world with unread := world.unread || choice.ok })
  | .touchStale => (choice.ok, { world with stale := world.stale || choice.ok })
  | .removeOn => (choice.ok, { world with on := world.on && !choice.ok, enabled := false })
  | .removeIncomplete => (choice.ok, { world with incomplete := world.incomplete && !choice.ok })
  | .removeUnread => (choice.ok, { world with unread := world.unread && !choice.ok })
  | .removeStale => (choice.ok, { world with stale := world.stale && !choice.ok })
  | .removeOffset =>
      (choice.ok, { world with offset := if choice.ok then none else world.offset })
  | .removeInterval named =>
      if choice.ok then
        (true, { world with
          on := false
          enabled := false
          offset := if named then none else world.offset
          stale := false
          unread := false
          incomplete := false })
      else (false, { world with enabled := false })
  | .isRegular noting =>
      (world.log.isSome,
        if noting && world.log.isNone then { world with toFiles := world.watermark } else world)
  | .readSize noting =>
      match choice.ok, world.log with
      | true, some bytes =>
          (some bytes.length,
            if noting || world.unread then { world with toFiles := world.watermark }
            else { world with bound := world.written })
      | _, _ => (none, world)
  | .offset => (world.offset, world)
  | .writeOffset size =>
      if choice.ok then (true, { world with offset := some size, complete := world.bound })
      else (false, { world with offset := choice.left })
  | .seed => (choice.ok, { world with offset := if choice.ok then some 0 else choice.left })
  | .tail skip =>
      match choice.ok, world.log with
      | true, some bytes => (some (bytes.drop skip), { world with missed := [] })
      | _, _ => (none, world)
  | .tailLast limit =>
      match choice.ok, world.log with
      | true, some bytes =>
          (some (lastBytes limit bytes),
            { world with
              missed := bytes.take (bytes.length - limit)
              cut := world.cut || decide (limit < bytes.length) })
      | _, _ => (none, world)
  | .readSaved => (if choice.ok then some world.savedBytes else none, world)
  | .publish piece content =>
      if choice.ok then
        (true, { world with
          saved := some content
          taken := world.taken ++ (world.missed ++ piece)
          cut := world.cut || decide (content ≠ world.savedBytes ++ piece) })
      else (false, world)
  | .trim =>
      (choice.ok, { world with
        saved := world.saved.map (·.drop choice.drop)
        cut := world.cut || decide (choice.drop ≠ 0) })

/-- A run that is cut short is one whose choices end there. -/
def machine : Script.Machine Call Call.Result Choice World :=
  fun call choice world => (call.perform choice (world.writes choice.meanwhile)).map some id

abbrev Program : Type → Type :=
  Script Call Call.Result

/-! ## The script -/

/-- The functions that follow a log. -/
inductive Kind
  /-- `append_since`. -/
  | session
  /-- `capture_stream`. -/
  | service
  /-- `capture_weston`. -/
  | weston
  deriving DecidableEq, Repr

/-- One of the logs. -/
structure Stream where
  kind : Kind
  /-- `SERVICE_TAIL`. -/
  serviceTail : Nat
  /-- Its offset is one of the files that a new interval removes by name. -/
  named : Bool

namespace Program

def issue (call : Call) : Program call.Result := Script.issue call

/-- A command whose status is not asked for. -/
def ignore (call : Call) : Program Unit := do
  let _ ← issue call
  return ()

def noteSize : Program Unit := do
  if ← issue (.isRegular true) then
    match ← issue (.readSize true) with
    | none => ignore .touchUnread
    | some size => do
        ignore (.writeOffset size)
        ignore .removeUnread
  else
    ignore (.writeOffset 0)
    ignore .removeUnread

/-- A stream that could not be watermarked. -/
def recordUnread (size : Nat) : Program Unit := do
  ignore (.writeOffset size)
  ignore .removeUnread

/-- The end of `append_since`: the new file, and then the offset. -/
def appendPiece (size : Nat) (piece : List Nat) : Program Unit := do
  if ← issue .attempt then
    match ← issue .readSaved with
    | none => return ()
    | some held =>
        if ← issue .attempt then
          if ← issue (.publish piece (held ++ piece)) then ignore (.writeOffset size)
          else return ()
        else return ()
  else return ()

def appendSince : Program Unit := do
  if ← issue (.isRegular false) then
    match ← issue (.readSize false) with
    | none => return ()
    | some size =>
        if ← issue .isUnread then recordUnread size
        else
          let offset := (← issue .offset).getD 0
          if size ≤ offset then ignore (.writeOffset size)
          else if ← issue .attempt then
            if ← issue .attempt then
              match ← issue (.tail offset) with
              | none => return ()
              | some piece => appendPiece size piece
            else return ()
          else return ()
  else return ()

/-- `append_file`. -/
def appendFile (limit : Nat) (piece : List Nat) : Program Bool := do
  if ← issue .attempt then
    match ← issue .readSaved with
    | none => return false
    | some held =>
        if ← issue .attempt then
          if ← issue .attempt then
            if limit < (held ++ piece).length then
              if ← issue .attempt then
                if ← issue .attempt then
                  if ← issue .attempt then
                    issue (.publish piece (lastBytes limit (held ++ piece)))
                  else return false
                else return false
              else return false
            else issue (.publish piece (held ++ piece))
          else return false
        else return false
  else return false

/-- `copy_tail`, to a file of the script. -/
def copyTail (limit : Nat) : Program (Option (List Nat)) := do
  if ← issue (.isRegular false) then
    if ← issue .attempt then
      if ← issue .attempt then
        match ← issue (.tailLast limit) with
        | none => return none
        | some piece =>
            if ← issue .attempt then return some piece else return none
      else return none
    else return none
  else return none

def takePiece (limit size : Nat) (known : Option Nat) : Program (Option (List Nat)) :=
  if known = none ∨ size < known.getD 0 then copyTail limit
  else issue (.tail (known.getD 0))

def captureStream (limit : Nat) : Program Unit := do
  if ← issue (.isRegular false) then
    match ← issue (.readSize false) with
    | none => return ()
    | some size =>
        if ← issue .isUnread then recordUnread size
        else
          let known ← issue .offset
          if ← issue .attempt then
            if known = some size then return ()
            else if ← issue .attempt then
              match ← takePiece limit size known with
              | none => return ()
              | some piece =>
                  if ← appendFile limit piece then ignore (.writeOffset size) else return ()
            else return ()
          else return ()
  else return ()

def dropStale : Program Unit := do
  if ← issue .isStale then ignore .removeOffset else return ()

def captureWeston (limit : Nat) : Program Unit := do
  if ← issue (.isRegular false) then
    dropStale
    captureStream limit
    if (← issue .offset).isSome then ignore .removeStale else return ()
  else ignore .removeOffset

def followCapture (stream : Stream) : Program Unit := do
  if ← issue .attempt then
    match stream.kind with
    | .session => appendSince
    | .service => captureStream stream.serviceTail
    | .weston => captureWeston stream.serviceTail
  else return ()

/-- The cursor of Weston's log belongs to this interval. -/
def ownCursor (stream : Stream) : Program Unit :=
  match stream.kind with
  | .weston => do
      if ← issue .isUnread then return () else ignore .removeStale
  | _ => return ()

def beginCapture (stream : Stream) : Program Unit := do
  noteSize
  ownCursor stream
  ignore .touchOn

/-- Whether the boot's generation is new. -/
def openGeneration : Program Bool := do
  if ← issue .isMarked then return false
  else
    ignore .rotate
    ignore .touchMark
    return true

def dropInterval (named : Bool) : Program Unit := do
  if ← issue .isIncomplete then ignore (.removeInterval named) else return ()

def capture (stream : Stream) (boot fresh : Bool) : Program Unit := do
  if ← issue .isOn then followCapture stream
  else if boot && fresh then
    ignore .seed
    ignore .touchOn
    followCapture stream
  else beginCapture stream

/-- `start`, with or without `boot`. -/
def start (stream : Stream) (boot : Bool) : Program Unit := do
  if ← issue .want then
    if ← issue .storageReady then
      if ← issue .attempt then
        if ← issue .lock then
          if ← issue .want then
            let fresh ← openGeneration
            dropInterval stream.named
            capture stream boot fresh
            ignore .trim
          else ignore .removeOn
        else return ()
      else return ()
    else return ()
  else return ()

def finishCapture (stream : Stream) : Program Unit := do
  if ← issue .isOn then
    followCapture stream
    ignore .trim
    ignore .removeOn
  else return ()

def stop (stream : Stream) : Program Unit := do
  if ← issue .attempt then
    if ← issue .lock then
      ignore .removeIncomplete
      finishCapture stream
    else ignore .touchIncomplete
  else return ()

def westonClosed : Program Unit := do
  if ← issue .lock then
    ignore .removeOffset
    ignore .removeStale
  else ignore .touchStale

end Program

/-! ## Runs -/

inductive Command
  | start (boot : Bool)
  | stop
  | westonClosed
  deriving DecidableEq, Repr

def Command.program (stream : Stream) : Command → Program Unit
  | .start boot => Program.start stream boot
  | .stop => Program.stop stream
  | .westonClosed => Program.westonClosed

structure Invocation where
  command : Command
  choices : List Choice

/-- A boot, whose log has some bytes before the script runs. Logging is on or off from
the start. -/
def World.boot (log : Option Nat) (enabled : Bool) : World where
  enabled := enabled
  since := 0
  wanted _ := enabled
  taken := []
  missed := []
  cut := false
  bound := 0
  complete := 0
  log := log.map List.range
  written := log.getD 0
  saved := none
  offset := none
  unread := false
  stale := false
  mark := false
  on := false
  incomplete := false

/-- The state after a run of the script, which may be cut short. -/
def World.invoke (stream : Stream) (world : World) (invocation : Invocation) : World :=
  ((invocation.command.program stream).exec machine invocation.choices world).2

end Zlyme.Logs
