import Zlyme.Foundation.Execution

/-! # The reaper of a USB session

A start leaves a reaper outside its process group, which cleans up when the group
dies. Starts, stops and cleanups hold the lifecycle lock; a reaper starts up and
watches without it. A step that has to wait for the lock leaves everything as it is.
-/

namespace Zlyme.Usb

open Foundation.Execution

/-- Where a reaper is in `cmd_reap`. -/
inductive ReaperPhase
  | begun
  | pidWritten
  | watchWritten
  | watching
  /-- The leader is gone; the lock comes next. -/
  | woken
  | gone
  deriving DecidableEq, Repr

structure Reaper where
  pid : Nat
  watch : Nat
  start : Nat
  gen : Nat
  phase : ReaperPhase
  deriving DecidableEq, Repr

inductive StartStage
  /-- The reaper has been spawned and has not shown its process group yet. -/
  | polling
  | building
  deriving DecidableEq, Repr

/-- The process group of a start, with its leader at that time. -/
structure Group where
  id : Nat
  leader : Option Nat
  deriving DecidableEq, Repr

/-- A start that holds the lock. -/
structure Starting where
  group : Group
  stage : StartStage
  deriving DecidableEq, Repr

structure Lifecycle where
  /-- The start time of each group's leader while it lives. -/
  leaders : Nat → Option Nat
  /-- The leaders so far. A start time is a leader's own, also under a reused id. -/
  births : Nat
  generation : Option Nat
  reaperPid : Option Nat
  reaperWatch : Option Nat
  reaperPgid : Option Nat
  linkGen : Option Nat
  /-- The reapers ever spawned. -/
  reapers : List Reaper
  starting : Option Starting
  /-- `session_left`: a gadget, a mount or a responder. -/
  session : Bool
  /-- The starts so far. A start's process and start time are its own. -/
  starts : Nat
  /-- The group of the last start, if it returned 0 and no stop came since. -/
  lastStart : Option Group
  /-- A reaper has run the cleanup since that start. -/
  reaped : Bool

def Lifecycle.initial : Lifecycle where
  leaders _ := none
  births := 0
  generation := none
  reaperPid := none
  reaperWatch := none
  reaperPgid := none
  linkGen := none
  reapers := []
  starting := none
  session := false
  starts := 0
  lastStart := none
  reaped := false

/-- Why a start fails before it has a reaper. -/
inductive StartFault
  /-- No controller name, no jail, or a staged update. -/
  | check
  | noSetsid
  | generationWrite
  deriving DecidableEq, Repr

/-- How a start with a reaper ends. -/
inductive StartEnd
  /-- The session is healthy or waits for a cable already. -/
  | already
  | built
  /-- A step failed, with what its cleanup left of the session. -/
  | failed (left : Bool)
  deriving DecidableEq, Repr

inductive UsbStep
  | leaderBorn (group : Nat)
  | leaderGone (group : Nat)
  | start (group : Nat) (fault : Option StartFault) (pid : Nat)
  /-- The end of the wait for the reaper. -/
  | poll (ok : Bool)
  | finish (result : StartEnd)
  /-- The start is killed, with what it leaves of the session. -/
  | killed (left : Bool)
  | stop (left : Bool)
  | linkWake (responder left : Bool)
  /-- A reaper goes on, with its own process group and what a cleanup leaves. -/
  | reaper (index : Nat) (pgid : Option Nat) (left : Bool)
  deriving DecidableEq, Repr

namespace Lifecycle

variable (usb : Lifecycle)

/-- `reaper_alive`: the recorded process is a reaper. -/
def reaperAlive : Bool :=
  usb.reapers.any fun reaper => reaper.phase ≠ .gone && usb.reaperPid = some reaper.pid

/-- The reuse of a running reaper in `spawn_reaper`. -/
def reusable (group : Nat) : Bool :=
  usb.reaperAlive && usb.reaperWatch = some group

/-- A start that returned 1. -/
def startFailed : Lifecycle :=
  { usb with starting := none, lastStart := none }

/-- `cmd_start` up to the wait for the reaper. -/
def startBegin (group : Nat) (fault : Option StartFault) (pid : Nat) : Lifecycle :=
  let self := usb.starts
  let starter : Group := ⟨group, usb.leaders group⟩
  let usb := { usb with starts := usb.starts + 1, lastStart := none }
  if fault = some .check then usb.startFailed
  else if group ≤ 1 then usb.startFailed
  else if usb.reusable group then { usb with starting := some ⟨starter, .building⟩ }
  else if fault = some .noSetsid then usb.startFailed
  else
    match usb.leaders group with
    | none => usb.startFailed
    | some start =>
        if fault = some .generationWrite then
          { usb with generation := none }.startFailed
        else
          { usb with
            generation := some self
            reaperPid := none
            reaperWatch := none
            reaperPgid := none
            reapers := usb.reapers ++ [⟨pid, group, start, self, .begun⟩]
            starting := some ⟨starter, .polling⟩ }

/-- The poll of `spawn_reaper` takes any process group but the starter's. -/
def pollEnd (group : Group) (ok : Bool) : Lifecycle :=
  if ok then
    match usb.reaperPgid with
    | none => usb
    | some pgid =>
        if pgid = group.id then usb
        else { usb with starting := some ⟨group, .building⟩ }
  else usb.startFailed

def startReturned (group : Group) : Lifecycle :=
  { usb with starting := none, lastStart := some group, reaped := false }

/-- `cmd_start` from the reaper on. -/
def startFinish (group : Group) : StartEnd → Lifecycle
  | .already => if usb.session then usb.startReturned group else usb
  | .built => { usb with session := true, linkGen := usb.generation }.startReturned group
  | .failed left => { usb with session := left, linkGen := none }.startFailed

/-- `cleanup_owned`, which never touches the generation. -/
def cleanupOwned (left : Bool) : Lifecycle :=
  { usb with session := left, linkGen := none }

def cmdStop (left : Bool) : Lifecycle :=
  let usb := { usb with lastStart := none }
  if usb.session then usb.cleanupOwned left
  else { usb with generation := none, linkGen := none }

/-- A round of the link loop that finds its responder dead cleans up. -/
def linkRound (responder left : Bool) : Lifecycle :=
  if usb.session && usb.linkGen.isSome && usb.generation = usb.linkGen && !responder then
    usb.cleanupOwned left
  else usb

def setReaper (index : Nat) (reaper : Reaper) (phase : ReaperPhase) : Lifecycle :=
  { usb with reapers := usb.reapers.set index { reaper with phase := phase } }

/-- The next step of `cmd_reap`. -/
def reap (index : Nat) (reaper : Reaper) (pgid : Option Nat) (left : Bool) : Lifecycle :=
  match reaper.phase with
  | .begun => { usb.setReaper index reaper .pidWritten with reaperPid := some reaper.pid }
  | .pidWritten => { usb.setReaper index reaper .watchWritten with reaperWatch := some reaper.watch }
  | .watchWritten =>
      match pgid with
      | none => usb.setReaper index reaper .gone
      | some pgid =>
          { usb.setReaper index reaper (if pgid = reaper.watch then .gone else .watching) with
            reaperPgid := some pgid }
  | .watching =>
      if usb.leaders reaper.watch = some reaper.start then usb
      else usb.setReaper index reaper .woken
  | .woken =>
      if usb.starting.isSome then usb
      else if usb.generation = some reaper.gen then
        { (usb.setReaper index reaper .gone).cleanupOwned left with reaped := true }
      else usb.setReaper index reaper .gone
  | .gone => usb

def step (usb : Lifecycle) : UsbStep → Lifecycle
  | .leaderBorn group =>
      if (usb.leaders group).isSome then usb
      else
        { usb with
          leaders := fun other => if other = group then some usb.births else usb.leaders other
          births := usb.births + 1 }
  | .leaderGone group =>
      { usb with leaders := fun other => if other = group then none else usb.leaders other }
  | .start group fault pid =>
      if usb.starting.isSome then usb else usb.startBegin group fault pid
  | .poll ok =>
      match usb.starting with
      | some ⟨group, .polling⟩ => usb.pollEnd group ok
      | _ => usb
  | .finish result =>
      match usb.starting with
      | some ⟨group, .building⟩ => usb.startFinish group result
      | _ => usb
  | .killed left =>
      if usb.starting.isSome then { usb with starting := none, session := left } else usb
  | .stop left => if usb.starting.isSome then usb else usb.cmdStop left
  | .linkWake responder left => if usb.starting.isSome then usb else usb.linkRound responder left
  | .reaper index pgid left =>
      match usb.reapers[index]? with
      | none => usb
      | some reaper => usb.reap index reaper pgid left

end Lifecycle

end Zlyme.Usb
