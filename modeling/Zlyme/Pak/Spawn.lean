import Zlyme.Foundation.Population
import Zlyme.Foundation.Script
import Zlyme.Pak.ProcStat

/-! # The supervisor of a pak

`zlyme-pak-spawn.c` runs a pak in a session of its own and does not end while a process of
that session is left. It sees the processes through `/proc` only, and they go on forking,
exiting and taking each other's numbers between any two of its system calls.
-/

namespace Zlyme.Pak.Spawn

open Foundation

/-! ## Processes -/

/-- A process for good: no later one has both its number and its start time. -/
structure Identity where
  pid : Int32
  starttime : UInt64
  deriving DecidableEq, Repr

def identity (process : Process) : Identity :=
  ⟨process.pid, process.starttime⟩

/-- `'Z'` -/
def zombie : UInt8 := 0x5a

/-- A process stays in its session, or it becomes the leader of one of its own. -/
def lineage : Lineage Process Identity Int32 where
  identity := identity
  key := Identity.pid
  allowed old next := next.session == old.session || next.session == next.pid

abbrev TableChange : Type :=
  Population.Change Process Int32

structure World where
  table : Population Process Identity
  /-- The process that `fork` has returned. -/
  child : Option Identity
  /-- The child has been waited for. -/
  reaped : Bool
  /-- The child has sent its identity, and its leader file is wanted. -/
  started : Bool
  /-- What the open directory stream still has to give: the processes that have lived since
  it was opened. -/
  owed : List Int32
  /-- The processes that have been live members of the child's session since then. -/
  members : List Identity
  /-- What the process descriptors stand for. -/
  descriptors : List Identity
  /-- The process whose stat line was read last. -/
  observed : Option Process

def World.at? (world : World) (pid : Int32) : Option Process :=
  lineage.at? world.table pid

/-- Nobody waits for the child but its parent. -/
def World.keeps (world : World) : TableChange → Bool
  | .vanish pid => !world.reaped && world.child.any fun child => child.pid == pid
  | .appear _ | .become _ => false

def World.isMember (world : World) (id : Identity) : Bool :=
  match world.child with
  | none => false
  | some child => world.table.live.any fun process =>
      identity process == id && process.session == child.pid && process.state != zombie

/-- What is said of the processes since the directory was opened is kept up to date. -/
def World.refresh (world : World) : World :=
  { world with
    owed := world.owed.filter fun pid => (world.at? pid).isSome
    members := world.members.filter world.isMember }

def World.event (world : World) (change : TableChange) : World :=
  if world.keeps change then world
  else World.refresh { world with table := lineage.change world.table change }

def World.evolve (world : World) (changes : List TableChange) : World :=
  changes.foldl World.event world

/-! ## System calls -/

inductive Signal
  | term
  | kill
  deriving DecidableEq, Repr

/-- What `waitpid` returns. With these options it fails with `EINTR` or `ECHILD` only. -/
inductive WaitAnswer
  | exited (status : Int32)
  | nothing
  | interrupted
  | noChild
  deriving DecidableEq, Repr

inductive Opened
  | descriptor (index : Nat)
  /-- `ESRCH` -/
  | missing
  | failed
  deriving DecidableEq, Repr

inductive Call
  | pipe
  | fork
  /-- The read from the pipe of the child. -/
  | identityOf
  /-- Its own stat line. -/
  | self
  | writeLeader (leader waiter : Identity)
  | unlinkLeader
  | release
  | stopRequested
  | read (pid : Int32)
  | openDirectory
  | nextEntry
  | endDirectory
  | closeDirectory
  | pidfdOpen (pid : Int32)
  | pidfdSend (descriptor : Nat) (signal : Signal)
  | kill (pid : Int32) (signal : Signal)
  | wait
  | sleep

/-- A `Bool` is true when the call succeeds. A stream says when it is opened how many
entries it will give. -/
abbrev Call.Result : Call → Type
  | .pipe | .release | .stopRequested | .endDirectory | .closeDirectory | .kill _ _ => Bool
  | .writeLeader _ _ => Bool
  | .unlinkLeader | .sleep => Unit
  | .fork => Option Int32
  | .identityOf | .self => Option UInt64
  | .read _ => Reading
  | .openDirectory => Option Nat
  | .nextEntry => Text
  | .pidfdOpen _ => Opened
  | .pidfdSend _ _ => Opened
  | .wait => WaitAnswer

abbrev Program (α : Type) : Type :=
  Script Call Call.Result α

/-- What the rest of the system does before a call, and what the call meets. -/
structure Choice where
  changes : List TableChange
  succeeds : Bool
  process : Option Process
  entries : Nat
  name : Text
  time : UInt64
  wait : WaitAnswer

/-- The name of a process directory. -/
def entryName (pid : Int32) : Text :=
  Decimal.signedDecimal pid.toInt

def World.fork (world : World) (process : Process) : World :=
  { world with
    table := lineage.change world.table (.appear process)
    child := some (identity process)
    reaped := false }

def World.reap (world : World) : World :=
  World.refresh
    { world with
      reaped := true
      table := match world.child with
        | some child => lineage.change world.table (.vanish child.pid)
        | none => world.table }

def World.openDirectory (world : World) : World :=
  { world with
    owed := world.table.live.map Process.pid
    members := (world.table.live.map identity).filter world.isMember }

/-- What a call does to the world at its moment, and its result. A machine that stops
stands for an answer that the kernel does not give. -/
def Call.perform (choice : Choice) (world : World) : (call : Call) → Option call.Result × World
  | .pipe | .release | .stopRequested | .closeDirectory | .kill _ _ =>
      (some choice.succeeds, world)
  | .writeLeader _ _ => (some choice.succeeds, world)
  | .unlinkLeader | .sleep => (some (), world)
  | .fork =>
      match choice.process with
      | none => (some none, world)
      | some process =>
          -- The number is free, and the kernel tells the new process from all before it.
          if world.child = none ∧ world.at? process.pid = none ∧
              identity process ∉ world.table.used then
            (some (some process.pid), world.fork process)
          else (none, world)
  | .identityOf =>
      -- The child writes its start time after `setsid` and after reading its stat line.
      if choice.succeeds then
        match world.child.bind fun child => world.at? child.pid with
        | none => (none, world)
        | some process =>
            if process.session = process.pid then
              (some (some process.starttime),
                { world with started := process.starttime != 0 })
            else (none, world)
      else (some none, world)
  | .self => (some (if choice.succeeds then some choice.time else none), world)
  | .read pid =>
      if choice.succeeds then
        match world.at? pid with
        | none => (some .absent, world)
        | some process =>
            (some (.text process.statLine), { world with observed := some process })
      else (some .failed, world)
  | .openDirectory =>
      if choice.succeeds then (some (some choice.entries), world.openDirectory)
      else (some none, world)
  | .nextEntry =>
      (some choice.name, { world with
        owed := world.owed.filter fun pid => entryName pid != choice.name })
  | .endDirectory =>
      if choice.succeeds then
        -- A stream that ends has given every process that lived all along.
        if world.owed = [] then (some true, world) else (none, world)
      else (some false, world)
  | .pidfdOpen pid =>
      if choice.succeeds then
        match world.at? pid with
        | none => (some .missing, world)
        | some process => (some (.descriptor world.descriptors.length),
            { world with descriptors := world.descriptors ++ [identity process] })
      else (some .failed, world)
  | .pidfdSend descriptor _ =>
      if choice.succeeds then
        match world.descriptors[descriptor]?.bind fun id =>
            (world.at? id.pid).filter fun process => identity process == id with
        | none => (some .missing, world)
        | some _ => (some (.descriptor descriptor), world)
      else (some .failed, world)
  | .wait =>
      -- `SIGCHLD` is not ignored: there is a child until it has been waited for.
      if world.reaped then (some .noChild, world)
      else
        match choice.wait with
        | .exited status => (some (.exited status), world.reap)
        | .noChild => (none, world)
        | .nothing => (some .nothing, world)
        | .interrupted => (some .interrupted, world)

def machine : Script.Machine Call Call.Result Choice World :=
  fun call choice world => call.perform choice (world.evolve choice.changes)

/-! ## Reading processes -/

/-- The supervisor itself: `getpid`, `getsid` and `getpgrp`. -/
structure Self where
  pid : Int32
  session : Int32
  group : Int32
  deriving DecidableEq, Repr

def issue (call : Call) : Program call.Result :=
  Script.issue call

/-- `read_info` -/
def readProcess (pid : Int32) : Program Inspection :=
  if pid ≤ 0 then pure .error
  else do
    let reading ← issue (.read pid)
    return readInfo reading pid

/-- `own_session` -/
def ownSession (self : Self) (leader : Int32) : Bool :=
  leader ≤ 1 || 0 < self.session && (leader == self.session || leader == self.group)

/-- `leader_session_state`: 1 is `some true`, 0 is `some false`, and an error is `none`. -/
def leaderSessionState (leader : Identity) : Program (Option Bool) := do
  match ← readProcess leader.pid with
  | .error => return none
  | .disappeared => return some false
  | .process info =>
      if info.starttime ≠ leader.starttime then return none
      else if info.state = zombie then return some false
      else if info.pgid ≠ leader.pid ∨ info.sid ≠ leader.pid then return none
      else return some true

/-- The number that an entry of `/proc` stands for. A number that is out of range becomes
`LONG_MAX`, which is -1 as a `pid_t`. -/
def entryPid (name : Text) : Option Int32 :=
  match name with
  | [] => none
  | first :: _ =>
      if first < 0x31 || 0x39 < first then none
      else (parseNumber name).map Int32.ofInt

/-- The loop over the entries: `none` is a scan error. -/
def scanEntries (self : Self) (leader : Identity) :
    Nat → List ProcInfo → Program (Option (List ProcInfo))
  | 0, list => do
      if ← issue .endDirectory then return some list else return none
  | entries + 1, list => do
      let name ← issue .nextEntry
      match entryPid name with
      | none => scanEntries self leader entries list
      | some pid =>
          if pid ≤ 1 ∨ pid = self.pid ∨ pid = leader.pid then scanEntries self leader entries list
          else
            match ← readProcess pid with
            | .disappeared => scanEntries self leader entries list
            | .error => return none
            | .process info =>
                if info.sid ≠ leader.pid ∨ info.state = zombie then
                  scanEntries self leader entries list
                else scanEntries self leader entries (list ++ [info])

/-- `collect_members`: `none` is -1. -/
def collectMembers (self : Self) (leader : Identity) : Program (Option (List ProcInfo)) := do
  if ownSession self leader.pid then return none
  else
    match ← leaderSessionState leader with
    | none => return none
    | some _ =>
        match ← issue .openDirectory with
        | none => return none
        | some entries =>
            let scanned ← scanEntries self leader entries []
            let closed ← issue .closeDirectory
            match scanned with
            | none => return none
            | some list =>
                if !closed then return none
                else
                  match ← leaderSessionState leader with
                  | none => return none
                  | some _ => return some list

/-- `session_busy` -/
def sessionBusy (self : Self) (leader : Identity) : Program (Option Bool) := do
  match ← collectMembers self leader with
  | none => return none
  | some list => return some (!list.isEmpty)

/-! ## Signals -/

def sameProcess (a b : ProcInfo) : Bool :=
  a.pid == b.pid && a.pgid == b.pgid && a.sid == b.sid && a.starttime == b.starttime &&
    b.state != zombie

/-- `signal_verified`: false is -1. -/
def signalVerified (expected : ProcInfo) (signal : Signal) : Program Bool := do
  match ← readProcess expected.pid with
  | .disappeared => return true
  | .error => return false
  | .process current =>
      if !sameProcess expected current then return true
      else
        match ← issue (.pidfdOpen expected.pid) with
        | .missing => return true
        | .failed => return false
        | .descriptor pidfd =>
            match ← readProcess expected.pid with
            | .error => return false
            | .disappeared => return true
            | .process again =>
                if !sameProcess expected again then return true
                else
                  match ← issue (.pidfdSend pidfd signal) with
                  | .failed => return false
                  | .missing | .descriptor _ => return true

def signalAll (signal : Signal) : List ProcInfo → Program Bool
  | [] => return true
  | info :: rest => do
      let sent ← signalVerified info signal
      let others ← signalAll signal rest
      return sent && others

/-- `signal_session`: false is -1. -/
def signalSession (self : Self) (leader : Identity) (signal : Signal) : Program Bool := do
  if ownSession self leader.pid then return false
  else
    match ← leaderSessionState leader with
    | none => return false
    | some false =>
        match ← collectMembers self leader with
        | none => return false
        | some list => signalAll signal list
    | some true =>
        match ← readProcess leader.pid with
        | .disappeared | .error => return false
        | .process info =>
            let sent ← signalVerified info signal
            match ← collectMembers self leader with
            | none => return false
            | some list => return (← signalAll signal list) && sent

/-! ## Ending a session -/

def termPolls : Nat := 30
def killPolls : Nat := 10

/-- The polls after a signal: `some true` when the session is empty, `some false` when it
is not in the end. -/
def pollSession (self : Self) (leader : Identity) : Nat → Program (Option Bool)
  | 0 => return some false
  | polls + 1 => do
      match ← sessionBusy self leader with
      | none => return none
      | some false => return some true
      | some true =>
          issue .sleep
          pollSession self leader polls

/-- `reap_session`: true is 0. -/
def reapSession (self : Self) (leader : Identity) : Program Bool := do
  match ← sessionBusy self leader with
  | none => return false
  | some false => return true
  | some true =>
      if !(← signalSession self leader .term) then return false
      else
        match ← pollSession self leader termPolls with
        | none => return false
        | some true => return true
        | some false =>
            if !(← signalSession self leader .kill) then return false
            else
              match ← pollSession self leader killPolls with
              | some true => return true
              | none | some false => return false

/-- What `wait_child_bounded` returns: 1 with a status, 0, or -1. -/
inductive Waited
  | done (status : Int32)
  | pending
  | failed
  deriving DecidableEq, Repr

def waitChildBounded : Nat → Program Waited
  | 0 => return .pending
  | polls + 1 => do
      match ← issue .wait with
      | .exited status => return .done status
      | .interrupted => waitChildBounded polls
      | .noChild => return .failed
      | .nothing =>
          issue .sleep
          waitChildBounded polls

/-- `stop_child_bounded`: true is 0. A `kill` that finds no process has succeeded here. -/
def stopChildBounded (pid : Int32) : Program Bool := do
  if !(← issue (.kill pid .term)) then return false
  else
    match ← waitChildBounded termPolls with
    | .done _ => return true
    | .failed => return false
    | .pending =>
        if !(← issue (.kill pid .kill)) then return false
        else
          match ← waitChildBounded killPolls with
          | .done _ => return true
          | .pending | .failed => return false

/-- `stop_session_bounded`: true is 0. -/
def stopSessionBounded (self : Self) (leader : Identity) : Program Bool := do
  let _ ← signalSession self leader .term
  let first ← waitChildBounded termPolls
  let last ← (match first with
    | .pending => do
        let _ ← signalSession self leader .kill
        let _ ← issue (.kill leader.pid .kill)
        waitChildBounded killPolls
    | .done status => pure (.done status)
    | .failed => pure .failed)
  reapWaited last
where
  reapWaited : Waited → Program Bool
    | .pending | .failed => return false
    | .done _ => reapSession self leader

/-! ## The program -/

def cleanupFailed : Nat := 125

/-- `child_status`, on the status word of `waitpid`. -/
def childStatus (status : Int32) : Nat :=
  let signal := status.toUInt32.toNat % 128
  let code := status.toUInt32.toNat / 256 % 256
  if signal = 0 then if code = cleanupFailed then 126 else code
  else if signal = 127 then 1
  else 128 + signal

/-- The loop that waits for the pak. `none` stands for a program that still waits after so
many rounds. -/
def superviseLoop (self : Self) (leader : Identity) : Nat → Program (Option Nat)
  | 0 => return none
  | rounds + 1 => do
      if ← issue .stopRequested then
        if ← stopSessionBounded self leader then return some (128 + 15)
        else return some cleanupFailed
      else
        match ← issue .wait with
        | .interrupted | .nothing => superviseLoop self leader rounds
        | .exited status =>
            if ← reapSession self leader then return some (childStatus status)
            else return some cleanupFailed
        | .noChild =>
            if ← reapSession self leader then return some (childStatus 0)
            else return some cleanupFailed

/-- `main` from the first pipe on, in the parent. -/
def main (self : Self) (rounds : Nat) : Program (Option Nat) := do
  if !(← issue .pipe) then return some 127
  else if !(← issue .pipe) then return some 127
  else
    match ← issue .fork with
    | none => return some 127
    | some child =>
        match ← issue .identityOf with
        | none => handshakeFailed child
        | some starttime =>
            if starttime = 0 then handshakeFailed child
            else
              let leader : Identity := ⟨child, starttime⟩
              match ← issue .self with
              | none => unreported leader
              | some own =>
                  if !(← issue (.writeLeader leader ⟨self.pid, own⟩)) then unreported leader
                  else if !(← issue .release) then
                    issue .unlinkLeader
                    unreported leader
                  else superviseLoop self leader rounds
where
  handshakeFailed (child : Int32) : Program (Option Nat) := do
    match ← waitChildBounded 1 with
    | .done _ => return some 127
    | .pending | .failed =>
        if ← stopChildBounded child then return some 127
        else return some cleanupFailed
  unreported (leader : Identity) : Program (Option Nat) := do
    if ← stopSessionBounded self leader then return some 127
    else return some cleanupFailed

end Zlyme.Pak.Spawn
