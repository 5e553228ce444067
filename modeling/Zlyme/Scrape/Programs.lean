import Zlyme.Scrape.QueueFile

/-! # The programs of the scrape queue

The application and its daemon, with all the threads that they create. Whatever the order in
which the threads take their turns, each of them writes an item that is its own, nothing that
one uses is freed before it is done, and no job is lost between the queue and the file.
-/

namespace Zlyme.Scrape

open Foundation Foundation.Concurrent

variable {world : World} {who : ThreadId}

/-! ## The daemon -/

section Daemon

variable {origin : List QueueItem}

/-- The file has the jobs that the daemon has been given. -/
def Carried (origin : List QueueItem) (file : Option (List QueueItem)) : Prop :=
  ∃ current, file = some current ∧ Carries origin current

/-- What the daemon writes carries the jobs, and it never removes them. -/
def DaemonContract (origin : List QueueItem) (action : Action) (_ : World) : Prop :=
  match action with
  | .serialize items => Carries origin items
  | .cleanupAll => False
  | _ => True

abbrev DaemonSafe (origin : List QueueItem) {α : Type} :
    Program α → (α → World → Prop) → World → Prop :=
  LedgerSafe (Carried origin) (DaemonContract origin)

/-- The daemon is at work on the jobs. -/
def Carrying (origin : List QueueItem) (world : World) : Prop :=
  world.Ready ∧ Carries origin world.queue.items

theorem DaemonSafe.steady {α : Type} {script : Program α} {post : α → World → Prop}
    (safe : ForegroundSafe script post world) (isSteady : IsSteady script)
    (carries : Carries origin world.queue.items) :
    DaemonSafe origin script
      (fun value after => post value after ∧ Carries origin after.queue.items) world :=
  LedgerSafe.steady safe isSteady (fun _ items => Carries origin items)
    (fun _ _ _ progress carries => carries.progress progress) carries

theorem Carrying.ask {action : Action} (carrying : Carrying origin world)
    (asked : action.asked = true) (steady : action.onFile = false ∧ action.steady = true) :
    DaemonSafe origin (issue action) (fun _ => Carrying origin) world :=
  DaemonSafe.steady (ForegroundSafe.ask World.Ready.lasting asked carrying.1)
    (Script.only_issue steady) carrying.2

theorem Carrying.serialize (carrying : Carrying origin world) {items : List QueueItem}
    (carries : Carries origin items) :
    DaemonSafe origin (issue (.serialize items)) (fun _ => Carrying origin) world := by
  refine LedgerSafe.atFile rfl (Carrying origin) ?_ carrying (fun _ _ => carries) ?_
  · intro before after relied _ carrying
    exact ⟨World.Ready.lasting.rely before after relied carrying.1,
      carrying.2.progress relied.progress⟩
  · intro now choice result after carrying kept answer
    rw [perform, Option.some.injEq] at answer
    cases answer
    split
    · exact ⟨⟨items, rfl, carries⟩, carrying⟩
    · exact ⟨kept, carrying⟩

theorem Carrying.snapshot (carrying : Carrying origin world) :
    DaemonSafe origin (issue .snapshot)
      (fun items after => Carrying origin after ∧ Carries origin items) world := by
  refine (DaemonSafe.steady (snapshot_safe carrying.1) (Script.only_issue ⟨rfl, rfl⟩)
    carrying.2).mono ?_
  rintro items after ⟨⟨ready, rfl⟩, carries⟩
  exact ⟨⟨ready, carries⟩, carries⟩

theorem daemonRound_safe (carrying : Carrying origin world) :
    DaemonSafe origin daemonRound (fun result after =>
      result.elim (fun _ => Carrying origin after) (fun _ => Carrying origin after)) world := by
  refine Safe.bind (carrying.ask rfl ⟨rfl, rfl⟩) fun command first carrying => ?_
  split
  · exact carrying
  · refine Safe.bind (carrying.ask rfl ⟨rfl, rfl⟩) fun stats second carrying => ?_
    split
    · exact carrying
    · refine Safe.bind (carrying.ask rfl ⟨rfl, rfl⟩) fun dirty third carrying => ?_
      have sleep : ∀ {between : World}, Carrying origin between → DaemonSafe origin (do
          let sleeping ← issue .readCommand
          if sleeping ≠ .none then return .inr sleeping
          else return .inl ()) (fun (result : Unit ⊕ DaemonCommand) after => result.elim
            (fun _ => Carrying origin after) (fun _ => Carrying origin after)) between := by
        intro between carrying
        refine Safe.bind (carrying.ask rfl ⟨rfl, rfl⟩) fun sleeping after carrying => ?_
        split
        · exact carrying
        · exact carrying
      cases dirty with
      | false => exact sleep carrying
      | true =>
          refine Safe.bind carrying.snapshot fun items fourth ⟨carrying, carries⟩ => ?_
          exact Safe.bind (carrying.serialize carries) fun _ fifth carrying => sleep carrying

theorem lastSnapshot_safe (command : DaemonCommand) (carrying : Carrying origin world) :
    DaemonSafe origin (lastSnapshot command)
      (fun items after => Carrying origin after ∧ Carries origin items) world := by
  rw [lastSnapshot]
  split
  · refine (DaemonSafe.steady (queueHandoffSnapshot_safe carrying.1) queueHandoffSnapshot_steady
      carrying.2).mono ?_
    rintro items after ⟨⟨-, stopped, rfl⟩, carries⟩
    exact ⟨⟨stopped.ready, carries⟩, carries⟩
  · exact carrying.snapshot

theorem daemonLoad_safe (stopped : world.Stopped) :
    DaemonSafe origin (queueLoadItems origin) (fun _ => Carrying origin) world := by
  have loads : DaemonSafe origin (issue (.load origin)) (fun _ after =>
      after.Stopped ∧ Carries origin after.queue.items) world := by
    refine (ledger_of_offFile (load_safe origin stopped) (Script.only_issue rfl)).mono ?_
    rintro pending after ⟨stopped, resolve, isLoaded⟩
    refine ⟨stopped, .inr ⟨resolve, ?_⟩⟩
    rw [isLoaded]
    exact .refl _
  refine Safe.bind loads fun pending first ⟨stopped, carries⟩ => ?_
  cases pending with
  | false => exact ⟨stopped.ready, carries⟩
  | true =>
      exact DaemonSafe.steady (ensureManagerStarted_safe stopped.ready)
        ensureManagerStarted_steady carries

theorem daemonMain_safe (rounds : Nat) (quiet : world.Quiet) :
    DaemonSafe origin (daemonMain origin rounds) (fun _ _ => True) world := by
  rw [daemonMain]
  split
  · trivial
  · refine Safe.bind (ledger_of_offFile (queueInit_safe quiet) queueInit_offFile)
      fun _ first stopped => ?_
    refine Safe.bind (daemonLoad_safe stopped) fun _ second carrying => ?_
    refine Safe.bind (Safe.loop (fun _ => Carrying origin)
      (fun _ _ carrying => daemonRound_safe carrying) rounds carrying)
      fun command third carrying => ?_
    have finish : ∀ {between : World}, Carrying origin between → DaemonSafe origin (do
        let last ← lastSnapshot command
        let _ ← issue (.serialize last)
        queueShutdown) (fun _ _ => True) between := by
      intro between carrying
      refine Safe.bind (lastSnapshot_safe command carrying) fun last fourth ⟨carrying, carries⟩ => ?_
      exact Safe.bind (carrying.serialize carries) fun _ fifth carrying =>
        ledger_of_offFile (queueShutdown_safe carrying.1) queueShutdown_offFile
    dsimp only
    split
    · exact Safe.bind (DaemonSafe.steady (queueCancelAll_safe carrying.1) queueCancelAll_steady
        carrying.2) fun _ fourth carrying => finish carrying
    · exact finish carrying

end Daemon

/-! ## The application -/

/-- The jobs of the file are in the queue. -/
def Backed (file : Option (List QueueItem)) (items : List QueueItem) : Prop :=
  ∀ saved, file = some saved → saved ≠ [] → Carries saved items

/-- There is no job in the file. -/
def Spent (file : Option (List QueueItem)) : Prop :=
  ∀ saved, file = some saved → saved = []

theorem Spent.backed {file : Option (List QueueItem)} (spent : Spent file)
    (items : List QueueItem) : Backed file items :=
  fun saved isSaved some => absurd (spent saved isSaved) some

/-- What the application hands over is its queue, and nobody is at it any more. It removes the
file once the jobs are in the queue. -/
def AppContract (action : Action) (world : World) : Prop :=
  match action with
  | .serialize items => world.Handed items
  | .cleanupAll => Backed world.file world.queue.items
  | _ => True

abbrev AppSafe {α : Type} : Program α → (α → World → Prop) → World → Prop :=
  LedgerSafe (fun _ => True) AppContract

theorem cleanupAll_safe {facts : World → Prop} (lasting : Lasting facts) (holds : facts world)
    (backed : Backed world.file world.queue.items) :
    AppSafe (issue .cleanupAll) (fun _ after => facts after ∧ Spent after.file) world := by
  refine LedgerSafe.atFile rfl (fun now => facts now ∧ Backed now.file now.queue.items) ?_
    ⟨holds, backed⟩ (fun _ known => known.2) ?_
  · rintro before after relied same ⟨holds, backed⟩
    refine ⟨lasting.rely before after relied holds, fun saved isSaved some => ?_⟩
    exact (backed saved (same ▸ isSaved) some).progress relied.progress
  · intro now choice result after known _ answer
    have frame := Frame.of_looks rfl answer
    cases answer
    exact ⟨trivial, lasting.frame _ _ frame known.1, fun _ isSaved => nomatch isSaved⟩

theorem daemonLaunch_safe {items : List QueueItem} (launched : Bool) (handed : world.Handed items)
    (spent : Spent world.file) :
    AppSafe (daemonLaunch items launched)
      (fun _ after => after.Handed items ∧ Backed after.file after.queue.items) world := by
  have written : AppSafe (issue (.serialize items))
      (fun _ after => after.Handed items ∧ Backed after.file after.queue.items) world := by
    refine LedgerSafe.atFile rfl (fun now => now.Handed items ∧ Spent now.file) ?_
      ⟨handed, spent⟩ (fun _ known => known.1) ?_
    · rintro before after relied same ⟨handed, spent⟩
      exact ⟨handed.rely relied, same ▸ spent⟩
    · rintro now choice result after ⟨handed, spent⟩ _ answer
      rw [perform, Option.some.injEq] at answer
      cases answer
      refine ⟨trivial, ?_⟩
      split
      · refine ⟨handed, fun saved isSaved _ => .inl ?_⟩
        cases isSaved
        rw [handed.2.2]
        exact .refl _
      · exact ⟨handed, spent.backed _⟩
  refine Safe.bind written fun done after known => ?_
  cases done with
  | false => exact known
  | true => exact known

/-- The jobs that are restored are in the queue. -/
theorem restoredLoad_safe {restored : List QueueItem} (stopped : world.Stopped)
    (file : ∀ saved, world.file = some saved → saved = restored) :
    AppSafe (queueLoadItems restored)
      (fun _ after => after.Ready ∧ Backed after.file after.queue.items) world := by
  have loads : AppSafe (issue (.load restored))
      (fun _ after => after.Stopped ∧ Backed after.file after.queue.items) world := by
    refine (LedgerSafe.offFile (load_safe restored stopped) (Script.only_issue rfl)
      (fun file => ∀ saved, file = some saved → saved = restored) file).mono ?_
    rintro pending after ⟨⟨stopped, resolve, isLoaded⟩, file⟩
    refine ⟨stopped, fun saved isSaved _ => .inr ⟨resolve, ?_⟩⟩
    rw [file saved isSaved, isLoaded]
    exact .refl _
  refine Safe.bind loads fun pending first ⟨stopped, backed⟩ => ?_
  cases pending with
  | false => exact ⟨stopped.ready, backed⟩
  | true =>
      exact LedgerSafe.steady (ensureManagerStarted_safe stopped.ready) ensureManagerStarted_steady
        Backed (fun _ _ _ progress backed saved isSaved some =>
          (backed saved isSaved some).progress progress) backed

theorem restoreDaemonQueue_safe {restored : List QueueItem} (stopped : world.Stopped)
    (file : ∀ saved, world.file = some saved → saved = restored) :
    AppSafe (restoreDaemonQueue restored) (fun _ after => after.Ready ∧ Spent after.file) world := by
  rw [restoreDaemonQueue]
  split
  · rename_i empty
    exact ⟨stopped.ready, fun saved isSaved => (file saved isSaved).trans empty⟩
  · refine Safe.bind (restoredLoad_safe stopped file) fun _ first ⟨ready, backed⟩ => ?_
    exact Safe.bind (cleanupAll_safe World.Ready.lasting ready backed) fun _ second known => known

/-- The application goes on without a job in the file. -/
theorem checkDaemonOnStartup_safe {restored : List QueueItem} (takeover : Takeover)
    (stopped : world.Stopped) (file : ∀ saved, world.file = some saved → saved = restored) :
    AppSafe (checkDaemonOnStartup restored takeover)
      (fun goesOn after => after.Ready ∧ (goesOn = true → Spent after.file)) world := by
  cases takeover with
  | running => exact ⟨stopped.ready, fun goesOn => nomatch goesOn⟩
  | absent =>
      exact Safe.bind (restoreDaemonQueue_safe stopped file) fun _ first ⟨ready, spent⟩ =>
        ⟨ready, fun _ => spent⟩
  | gone =>
      refine Safe.bind (restoreDaemonQueue_safe stopped file) fun found first ⟨ready, spent⟩ => ?_
      cases found with
      | true => exact ⟨ready, fun _ => spent⟩
      | false =>
          exact Safe.bind (cleanupAll_safe World.Ready.lasting ready (spent.backed _))
            fun _ second ⟨ready, spent⟩ => ⟨ready, fun _ => spent⟩

theorem serve_safe (requests : List Request) (ready : world.Ready) (spent : Spent world.file) :
    AppSafe (serve requests) (fun _ => World.Ready) world := by
  induction requests generalizing world with
  | nil => exact ready
  | cons request rest induction =>
      have goesOn : AppSafe (do
          request.call
          serve rest) (fun _ => World.Ready) world :=
        Safe.bind (LedgerSafe.offFile (call_safe request ready) (call_offFile request) Spent spent)
          fun _ _ known => induction known.1 known.2
      cases request with
      | background launched =>
          refine Safe.bind (LedgerSafe.offFile (queueHandoffSnapshot_safe ready)
            queueHandoffSnapshot_steady.offFile Spent spent) fun items first ⟨handed, spent⟩ => ?_
          split
          · exact handed.2.1.ready
          · refine Safe.bind (daemonLaunch_safe launched handed spent)
              fun done second ⟨handed, backed⟩ => ?_
            cases done with
            | true => exact handed.2.1.ready
            | false =>
            refine Safe.bind (cleanupAll_safe World.Stopped.lasting handed.2.1 backed)
              fun _ third ⟨stopped, spent⟩ => ?_
            exact Safe.bind (LedgerSafe.offFile (queueLoadItems_safe items stopped)
              (queueLoadItems_offFile items) Spent spent) fun _ _ known => induction known.1 known.2
      | _ => exact goesOn

theorem appMain_safe (restored : List QueueItem) (takeover : Takeover) (requests : List Request)
    (quiet : world.Quiet) (file : ∀ saved, world.file = some saved → saved = restored) :
    AppSafe (appMain restored takeover requests) (fun _ _ => True) world := by
  refine Safe.bind (LedgerSafe.offFile (queueInit_safe quiet) queueInit_offFile
    (fun file => ∀ saved, file = some saved → saved = restored) file)
    fun _ first ⟨stopped, file⟩ => ?_
  refine Safe.bind (checkDaemonOnStartup_safe takeover stopped file)
    fun goesOn second ⟨ready, spent⟩ => ?_
  have finish : ∀ {between : World}, between.Ready → AppSafe queueShutdown (fun _ _ => True) between :=
    fun ready => ledger_of_offFile (queueShutdown_safe ready) queueShutdown_offFile
  cases goesOn with
  | false => exact finish ready
  | true => exact Safe.bind (serve_safe requests ready (spent rfl)) fun _ third ready => finish ready

/-! ## Every run -/

/-- The two programs, each with the file that it finds. -/
inductive Main
  | app (saved : Option (List QueueItem)) (takeover : Takeover) (requests : List Request)
  | daemon (items : List QueueItem)

namespace Main

def file : Main → Option (List QueueItem)
  | .app saved _ _ => saved
  | .daemon items => some items

def script (rounds : Nat) : Main → Program Unit
  | .app saved takeover requests => appMain (saved.getD []) takeover requests
  | .daemon items => daemonMain items rounds

/-- What always holds of the file. -/
def Kept : Main → Option (List QueueItem) → Prop
  | .app _ _ _ => fun _ => True
  | .daemon items => Carried items

/-- What holds where the program writes the file, or removes it. -/
def Contract : Main → Action → World → Prop
  | .app _ _ _ => AppContract
  | .daemon items => DaemonContract items

/-- A run of the program, from its start, under an order of its threads. -/
def runs (main : Main) (rounds : Nat) (labels : List (ThreadId × Choice)) :
    Concurrent ThreadId Action Action.Result World :=
  run (process (main.script rounds) rounds (World.start main.file)) labels

theorem safe (main : Main) (rounds : Nat) (labels : List (ThreadId × Choice)) :
    AllSafe perform (ledger main.Kept) (LedgerGuard main.Contract) (main.runs rounds labels) := by
  cases main with
  | app saved takeover requests =>
      refine run_ledger trivial (appMain_safe _ takeover requests (start_quiet saved) ?_) rounds labels
      rintro _ rfl
      rfl
  | daemon items =>
      exact run_ledger ⟨items, rfl, .inl (.refl items)⟩
        (daemonMain_safe rounds (start_quiet (some items))) rounds labels

end Main

/-! ## What every run keeps -/

/-- The item that the operation writes without asking for its status. -/
def Action.target : Action → Option Nat
  | .setItemStatus index _ | .setItemError index _ _ => some index
  | _ => none

/-- The cheat list that the operation goes through, and the item it does so for. -/
def Action.reads : Action → Option (ListRef × QueueItem)
  | .matchCheat list item | .copyCheatFile list item => some (list, item)
  | _ => none

/-- The operation replaces the items of the queue, or what becomes of all of them. -/
def Action.rewrites : Action → Bool
  | .init | .cancelAll | .handoff | .load _ | .emptyQueue => true
  | _ => false

/-- What holds of the process between two operations. -/
structure Orderly (state : Concurrent ThreadId Action Action.Result World) : Prop where
  manager : ∀ number other, state.world.LiveAs number .manager →
    state.world.LiveAs other .manager → number = other
  held : ∀ index claim, state.world.claims index = some claim → claim.Held state.world index
  /-- No two threads have an item at a time. -/
  unclaimed : ∀ who index type next item queue, state.Issues who (.claimItem index type next) →
    state.world.queue.claimItem index type next = (some item, queue) →
      state.world.claims index = none
  written : ∀ who action index, state.Issues who action → action.target = some index →
    ∃ number routine, who = .created number ∧ state.world.LiveAs number routine ∧
      MayWrite state.world number routine index
  cached : ∀ who action list item, state.Issues who action → action.reads = some (list, item) →
    state.world.Cached list item.cheatDir
  /-- No thread is at a batch that is freed. -/
  batch : ∀ who type batchIndex, state.Issues who (.readIndex type batchIndex) →
    (state.world.work type).indices.isSome = true
  alone : ∀ who action, state.Issues who action → action.rewrites = true →
    who = .foreground ∧ state.world.Quiet
  /-- No thread is at the cheat lists when they are freed. -/
  freed : ∀ who index, state.Issues who .clearCheatRepoState → state.world.claims index = none
  joins : ∀ who thread, state.Issues who (.join thread) → ∃ pthread,
    state.world.Has thread pthread ∧ pthread.creator = who ∧ pthread.joined = false
  joinsManager : ∀ who, state.Issues who .joinManager → ∃ thread pthread,
    state.world.managerThread = some thread ∧ state.world.Has thread pthread ∧
      pthread.creator = who ∧ pthread.joined = false

section Orderly

variable {state : Concurrent ThreadId Action Action.Result World}

theorem written_of_guard {action : Action} {index : Nat} (guarded : Guard who action world)
    (writes : action.target = some index) :
    ∃ number routine, who = .created number ∧ world.LiveAs number routine ∧
      MayWrite world number routine index := by
  cases action with
  | setItemStatus target status =>
      cases writes
      cases who with
      | foreground => exact guarded.elim
      | created number =>
          rcases guarded with ⟨routine, live, mayWrite, -⟩
          exact ⟨number, routine, rfl, live, mayWrite⟩
  | setItemError target status message =>
      cases writes
      cases who with
      | foreground => exact guarded.elim
      | created number =>
          rcases guarded with ⟨routine, live, mayWrite, -⟩
          exact ⟨number, routine, rfl, live, mayWrite⟩
  | _ => cases writes

theorem cached_of_guard {action : Action} {list : ListRef} {item : QueueItem}
    (guarded : Guard who action world) (reads : action.reads = some (list, item)) :
    world.Cached list item.cheatDir := by
  cases action with
  | matchCheat found own =>
      cases reads
      cases who with
      | foreground => exact guarded.elim
      | created number => exact guarded.choose_spec.2
  | copyCheatFile found own =>
      cases reads
      cases who with
      | foreground => exact guarded.elim
      | created number => exact guarded.choose_spec.2
  | _ => cases reads

theorem alone_of_guard {action : Action} (guarded : Guard who action world)
    (rewrites : action.rewrites = true) : who = .foreground ∧ world.Quiet := by
  cases who with
  | foreground =>
      refine ⟨rfl, ?_⟩
      cases action with
      | init | cancelAll | handoff | load items | emptyQueue => exact guarded
      | _ => cases rewrites
  | created number =>
      cases action with
      | init | cancelAll | handoff | load items | emptyQueue => exact guarded.choose_spec.2.elim
      | _ => cases rewrites

/-- What the guards say of a process whose threads keep the discipline. -/
theorem orderly_of_guarded (inv : Inv state.world)
    (guarded : ∀ who action, state.Issues who action → Guard who action state.world) :
    Orderly state where
  manager number other live liveOther :=
    Option.some.inj ((inv.manager live).1.symm.trans (inv.manager liveOther).1)
  held := inv.claims
  unclaimed who index type next item queue issues claimed := by
    rcases Queue.claimItem_some claimed with ⟨there, -, isIdle, -⟩
    exact inv.no_claim_of_idle there isIdle
  written who action index issues := written_of_guard (guarded who action issues)
  cached who action list item issues := cached_of_guard (guarded who action issues)
  batch who type batchIndex issues := by
    have guards := guarded who _ issues
    cases who with
    | foreground => exact guards.elim
    | created number => exact guards.choose_spec.2
  alone who action issues := alone_of_guard (guarded who action issues)
  freed who index issues := by
    have guards := guarded who _ issues
    cases who with
    | foreground =>
        rcases guards with quiet | settled
        · exact inv.no_claims_of_quiet quiet index
        · exact inv.no_claims_of_settled settled index
    | created number => exact guards.choose_spec.2.elim
  joins who thread issues := by
    have guards := guarded who _ issues
    cases who with
    | foreground => exact guards.elim
    | created number => exact guards.choose_spec.2
  joinsManager who issues := by
    have guards := guarded who _ issues
    cases who with
    | foreground => exact guards
    | created number => exact guards.choose_spec.2.elim

end Orderly

/-- The application hands over its queue as it stands, and removes the file only once it has
the jobs. -/
structure HandsOver (state : Concurrent ThreadId Action Action.Result World) : Prop where
  writes : ∀ who items, state.Issues who (.serialize items) → state.world.Handed items
  removes : ∀ who, state.Issues who .cleanupAll →
    Backed state.world.file state.world.queue.items

end Zlyme.Scrape
