import Zlyme.Foundation.Execution
import Zlyme.Foundation.KeyedRows

/-! # The hotkey of a pak

`zlyme-pak-hotkey.c` beside the folder `/dev/input`. Devices come and go at any
time, a pad is known to the program by the number of its descriptor, and a call of
`poll` looks at one descriptor after the other.
-/

namespace Zlyme.Pak

open Foundation.Execution
open Foundation.KeyedRows

/-! ## Buttons -/

structure InputEvent where
  type : UInt16
  code : UInt16
  value : Int32
  deriving DecidableEq, Repr

def evKey : UInt16 :=
  1

/-- `BTN_MODE`, which is the menu button. -/
def btnMode : UInt16 :=
  0x13c

def btnStart : UInt16 :=
  0x13b

structure Held where
  menu : Bool
  start : Bool
  deriving DecidableEq, Repr

/-- `zlyme_hotkey_reset` -/
def Held.reset : Held :=
  ⟨false, false⟩

def Held.both (held : Held) : Bool :=
  held.menu && held.start

/-- `zlyme_hotkey_apply`, which returns whether both are held. -/
def zlymeHotkeyApply (held : Held) (code : UInt16) (down : Bool) : Held :=
  if code = btnMode then { held with menu := down }
  else if code = btnStart then { held with start := down }
  else held

/-- What one event leaves of the two flags in `read_pad`. -/
def Held.after (held : Held) (event : InputEvent) : Held :=
  if event.type = evKey then zlymeHotkeyApply held event.code (event.value != 0) else held

/-- What a pad's own events leave. -/
def heldAfter (events : List InputEvent) : Held :=
  events.foldl Held.after Held.reset

/-! ## Devices and descriptors -/

inductive Status
  | live
  /-- The node is gone, and the descriptors still work. -/
  | unlinked
  | gone
  deriving DecidableEq, Repr

/-- A device with an event node. No two that are not gone have a node in common. -/
structure Device where
  /-- The number in the name of the node. -/
  node : Nat
  /-- `zlyme_is_virtpad` -/
  virtpad : Bool
  status : Status
  /-- The events so far. -/
  history : List InputEvent
  deriving DecidableEq, Repr

/-- An open descriptor: the device by its number, the events before the opening, and
those that have been read or came before it. -/
structure OpenFile where
  device : Nat
  opened : Nat
  read : Nat
  deriving DecidableEq, Repr

/-! ## The program -/

structure AppPad where
  fd : Nat
  held : Held
  node : Nat
  deriving DecidableEq, Repr

inductive Source
  | inotify
  | pad (fd : Nat)
  deriving DecidableEq, Repr

/-- An entry of `pf` after `poll`: `POLLIN`, and `POLLHUP` with `POLLERR`. -/
structure Revent where
  source : Source
  input : Bool
  hangup : Bool
  deriving DecidableEq, Repr

/-- What follows a scan. -/
inductive Resume
  | watch
  | batch (todo : List Revent)
  deriving DecidableEq, Repr

inductive Phase
  /-- `opendir` comes next. -/
  | opening (resume : Resume)
  /-- The names that `readdir` may still give, and those that it has to give. -/
  | scanning (resume : Resume) (may must : List Nat)
  /-- `inotify_add_watch` comes next. -/
  | watching
  /-- In `poll`, which has looked at some descriptors. -/
  | polling (results : List Revent)
  | batch (todo : List Revent)
  | reading (fd : Nat) (hangup : Bool) (todo : List Revent)
  /-- After `read_pad`, or without it. -/
  | leaving (fd : Nat) (hangup : Bool) (todo : List Revent)
  /-- After the loop; `stop_pak` has been called if `fire` is set. -/
  | stopped
  deriving DecidableEq, Repr

def Resume.phase : Resume → Phase
  | .watch => .watching
  | .batch todo => .batch todo

structure State where
  devices : List Device
  files : Nat → Option OpenFile
  /-- The records of the watch that have not been read: the device that was created,
  and `none` for any other record. -/
  pending : List (Option Nat)
  /-- The devices whose creation has been read. -/
  told : List Nat
  watched : Bool
  pads : List AppPad
  fire : Bool
  phase : Phase

namespace State

def initial : State where
  devices := []
  files _ := none
  pending := []
  told := []
  watched := false
  pads := []
  fire := false
  phase := .opening .watch

def maxPads : Nat :=
  8

/-! ## The kernel -/

/-- The number of the device that a node is opened as. -/
def liveAt (s : State) (node : Nat) : Option Nat :=
  s.devices.findIdx? fun device => device.node == node && device.status == .live

/-- The event nodes in the folder. -/
def nodes (s : State) : List Nat :=
  (s.devices.filter fun device => device.status == .live).map Device.node

def record (s : State) (note : Option Nat) : List (Option Nat) :=
  if s.watched then s.pending ++ [note] else s.pending

/-- A new node, which a scan may still come to. -/
def appeared (node : Nat) : Phase → Phase
  | .scanning resume may must => .scanning resume (node :: may) must
  | phase => phase

/-- A scan need not come to a node that is gone. -/
def vanished (node : Nat) : Phase → Phase
  | .scanning resume may must => .scanning resume may (must.filter (· ≠ node))
  | phase => phase

def create (s : State) (node : Nat) (virtpad : Bool) : State :=
  if s.devices.any fun device => device.node == node && device.status != .gone then s
  else
    { s with
      devices := s.devices ++ [⟨node, virtpad, .live, []⟩]
      pending := s.record (some s.devices.length)
      phase := appeared node s.phase }

def change (s : State) (id : Nat) (device : Device) : State :=
  { s with devices := s.devices.set id device }

def unlink (s : State) (id : Nat) : State :=
  match s.devices[id]? with
  | some device =>
      if device.status = .live then
        { s.change id { device with status := .unlinked } with
          pending := s.record none
          phase := vanished device.node s.phase }
      else s
  | none => s

def hangup (s : State) (id : Nat) : State :=
  match s.devices[id]? with
  | some device =>
      if device.status = .unlinked then s.change id { device with status := .gone } else s
  | none => s

def emit (s : State) (id : Nat) (event : InputEvent) : State :=
  match s.devices[id]? with
  | some device =>
      if device.status = .gone then s
      else s.change id { device with history := device.history ++ [event] }
  | none => s

/-- What `poll` finds of one descriptor. A device that is gone reports a hangup,
beside what has not been read. -/
def lookAt (s : State) (source : Source) : Revent :=
  match source with
  | .inotify => ⟨source, !s.pending.isEmpty, false⟩
  | .pad fd =>
      match s.files fd with
      | none => ⟨source, false, false⟩
      | some file =>
          match s.devices[file.device]? with
          | none => ⟨source, false, false⟩
          | some device =>
              ⟨source, decide (file.read < device.history.length), device.status == .gone⟩

/-- What `read` gives of a pad; it fails on a device that is gone. -/
def nextEvent (s : State) (fd : Nat) : Option InputEvent :=
  match s.files fd with
  | none => none
  | some file =>
      match s.devices[file.device]? with
      | none => none
      | some device => if device.status = .gone then none else device.history[file.read]?

def setFile (s : State) (fd : Nat) (file : Option OpenFile) : Nat → Option OpenFile :=
  fun other => if other = fd then file else s.files other

/-! ## The functions of the program -/

def padFind (s : State) (node : Nat) : Bool :=
  s.pads.any fun pad => pad.node == node

def padIndex (s : State) (fd : Nat) : Nat :=
  s.pads.findIdx fun pad => pad.fd == fd

/-- `drop_fd` -/
def dropFd (s : State) (fd : Nat) : State :=
  if s.pads.any fun pad => pad.fd == fd then
    { s with
      files := s.setFile fd none
      pads := swapRemove s.pads (s.padIndex fd) }
  else s

/-- The opening of a node, and the pad that is stored for a virtual controller. -/
def addPad (s : State) (node fd : Nat) : State :=
  match s.liveAt node with
  | none => s
  | some id =>
      match s.devices[id]? with
      | none => s
      | some device =>
          if device.virtpad then
            { s with
              files := s.setFile fd (some ⟨id, device.history.length, device.history.length⟩)
              pads := s.pads ++ [⟨fd, Held.reset, node⟩] }
          else s

/-- Whether an event ends `read_pad`: a key, after which both buttons are held. -/
def chord (s : State) (fd : Nat) (event : InputEvent) : Bool :=
  event.type == evKey && s.pads[s.padIndex fd]?.any fun pad => (pad.held.after event).both

/-- One event of `read_pad`. -/
def readOne (s : State) (fd : Nat) (event : InputEvent) : State :=
  { s with
    files := s.setFile fd ((s.files fd).map fun file => { file with read := file.read + 1 })
    pads := s.pads.modify (s.padIndex fd) fun pad => { pad with held := pad.held.after event }
    fire := s.fire || s.chord fd event }

/-- The descriptors of `pf`, in its order. -/
def sources (s : State) : List Source :=
  (if s.watched then [.inotify] else []) ++ s.pads.map fun pad => .pad pad.fd

/-- The end of the loop's body and its start. -/
def loopTop (s : State) : State :=
  { s with phase := if s.fire || s.sources.isEmpty then .stopped else .polling [] }

/-- One name of `scan_pads`, with the descriptor that `open` gives or its failure. -/
def scanEntry (s : State) (resume : Resume) (may must : List Nat) (node : Nat)
    (opened : Option Nat) : State :=
  let next := Phase.scanning resume (may.erase node) (must.filter (· ≠ node))
  if s.padFind node then { s with phase := next }
  else if maxPads ≤ s.pads.length then { s with phase := resume.phase }
  else
    match opened with
    | none => { s with phase := next }
    | some fd => if (s.files fd).isSome then s else { s.addPad node fd with phase := next }

/-- `poll` looks at the next descriptor, or it has seen all of them. -/
def check (s : State) (results : List Revent) : State :=
  match s.sources[results.length]? with
  | some source => { s with phase := .polling (results ++ [s.lookAt source]) }
  | none =>
      if results.any fun revent => revent.input || revent.hangup then
        { s with phase := .batch results }
      else { s with phase := .polling [] }

/-- The entry of `pf` that comes next. -/
def nextRevent (s : State) (revent : Revent) (todo : List Revent) : State :=
  match revent.source with
  | .inotify =>
      if revent.input then
        { s with
          told := s.told ++ s.pending.filterMap id
          pending := []
          phase := .opening (.batch todo) }
      else { s with phase := .batch todo }
  | .pad fd =>
      if s.pads.any fun pad => pad.fd == fd then
        { s with
          phase := if revent.input then .reading fd revent.hangup todo
            else .leaving fd revent.hangup todo }
      else { s with phase := .batch todo }

/-- The rest of the program, which takes no answer. -/
def advance (s : State) : State :=
  match s.phase with
  | .polling results => s.check results
  | .batch [] => s.loopTop
  | .batch (revent :: todo) => s.nextRevent revent todo
  | .reading fd hangup todo =>
      match s.nextEvent fd with
      | none => { s with phase := .leaving fd hangup todo }
      | some event =>
          if s.chord fd event then { s.readOne fd event with phase := .leaving fd hangup todo }
          else s.readOne fd event
  | .leaving fd hangup todo =>
      if hangup then { s.dropFd fd with phase := .batch todo } else { s with phase := .batch todo }
  | _ => s

end State

/-! ## Steps -/

inductive Label
  | create (node : Nat) (virtpad : Bool)
  | unlink (device : Nat)
  | hangup (device : Nat)
  | emit (device : Nat) (event : InputEvent)
  /-- A record for a node that is no event node. -/
  | note
  | opendir (ok : Bool)
  | entry (node : Nat) (opened : Option Nat)
  | endOfDir
  | addWatch (ok : Bool)
  | interrupt
  | advance
  deriving DecidableEq, Repr

open State in
def step (s : State) : Label → State
  | .create node virtpad => s.create node virtpad
  | .unlink id => s.unlink id
  | .hangup id => s.hangup id
  | .emit id event => s.emit id event
  | .note => { s with pending := s.record none }
  | .opendir ok =>
      match s.phase with
      | .opening resume =>
          { s with phase := if ok then .scanning resume s.nodes s.nodes else resume.phase }
      | _ => s
  | .entry node opened =>
      match s.phase with
      | .scanning resume may must =>
          if node ∈ may then s.scanEntry resume may must node opened else s
      | _ => s
  | .endOfDir =>
      match s.phase with
      | .scanning resume _ [] => { s with phase := resume.phase }
      | _ => s
  | .addWatch ok =>
      match s.phase with
      | .watching =>
          if ok then { s with watched := true, phase := .opening (.batch []) } else s.loopTop
      | _ => s
  | .interrupt =>
      match s.phase with
      | .polling _ => s.loopTop
      | _ => s
  | .advance => s.advance

end Zlyme.Pak
