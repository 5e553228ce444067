import Zlyme.Scrape.Discipline

/-! # What the operations of the scrape queue keep

Each kind of change that an operation makes to the shared state, and what it leaves to
the other threads.
-/

namespace Zlyme.Scrape

open Foundation Foundation.Concurrent

variable {before after world : World} {number : Nat} {who : ThreadId}

abbrev Keeps : ThreadId → World → World → Prop :=
  discipline.Keeps

/-! ## Threads that are alive -/

theorem World.LiveAs.not_quiet {routine : Routine} (live : world.LiveAs number routine) :
    ¬world.Quiet := by
  intro quiet
  rcases live with ⟨pthread, has, alive, -⟩
  rw [quiet number pthread has] at alive
  cases alive

theorem World.LiveAs.unique {routine other : Routine} (live : world.LiveAs number routine)
    (liveOther : world.LiveAs number other) : routine = other := by
  rcases live with ⟨pthread, has, -, isRoutine⟩
  rcases liveOther with ⟨pthread', has', -, isOther⟩
  rw [← isRoutine, ← isOther, has.unique has']

/-- There is one manager. -/
theorem Inv.manager (inv : Inv world) (live : world.LiveAs number .manager) :
    world.managerThread = some number ∧ world.queue.managerStarted = true := by
  rcases live with ⟨pthread, has, alive, isManager⟩
  rcases inv.lineage number pthread has alive with ⟨-, thread, started⟩ | ⟨_, -, other, -⟩
  · exact ⟨thread, started⟩
  · exact absurd isManager other

theorem Inv.quiet_of_not_started (inv : Inv world) (started : world.queue.managerStarted = false) :
    world.Quiet := by
  intro number pthread has
  by_contra alive
  rw [Bool.not_eq_true] at alive
  rcases inv.lineage number pthread has alive with ⟨-, -, isStarted⟩ | ⟨creator, -, -, live⟩
  · rw [started] at isStarted
    cases isStarted
  · rw [(inv.manager live).2] at started
    cases started

/-- Another thread is a child of the manager. -/
theorem Inv.creator (inv : Inv world) {other : Nat} {routine : Routine}
    (live : world.LiveAs number .manager) (liveOther : world.LiveAs other routine)
    (isOther : number ≠ other) :
    ∃ pthread, world.Has other pthread ∧ pthread.creator = .created number ∧
      pthread.returned = false ∧ pthread.routine = routine ∧ routine ≠ .manager := by
  rcases liveOther with ⟨pthread, has, alive, isRoutine⟩
  rcases inv.lineage other pthread has alive with ⟨-, thread, -⟩ | ⟨creator, created, notManager, up⟩
  · rw [(inv.manager live).1, Option.some.injEq] at thread
    exact absurd thread isOther
  · have same : creator = number :=
      Option.some.inj ((inv.manager up).1.symm.trans (inv.manager live).1)
    subst same
    exact ⟨pthread, has, created, alive, isRoutine, isRoutine ▸ notManager⟩

theorem Inv.no_claims_of_quiet (inv : Inv world) (quiet : world.Quiet) (index : Nat) :
    world.claims index = none := by
  cases claimed : world.claims index with
  | none => rfl
  | some claim =>
      rcases (inv.claims index claim claimed).thread with ⟨number, routine, -, live, -⟩
      exact absurd quiet live.not_quiet

theorem Inv.no_claims_of_settled (inv : Inv world) (settled : world.Settled) (index : Nat) :
    world.claims index = none := by
  cases claimed : world.claims index with
  | none => rfl
  | some claim =>
      rcases (inv.claims index claim claimed).item with ⟨item, there, active, -⟩
      exact absurd active.1 (settled item (List.mem_of_getElem? there))

theorem Inv.no_claim_of_idle (inv : Inv world) {index : Nat} {item : QueueItem}
    (there : world.queue.items[index]? = some item) (isIdle : item.status = .idle) :
    world.claims index = none := by
  cases claimed : world.claims index with
  | none => rfl
  | some claim =>
      rcases (inv.claims index claim claimed).item with ⟨held, found, active, -⟩
      rw [there, Option.some.injEq] at found
      exact absurd (found ▸ isIdle) active.2

/-! ## Nothing that matters -/

/-- What the other threads rely on is as before. -/
structure Frame (before after : World) : Prop where
  items : after.queue.items = before.queue.items
  started : after.queue.managerStarted = before.queue.managerStarted
  managerThread : after.managerThread = before.managerThread
  pthreads : after.pthreads = before.pthreads
  claims : after.claims = before.claims
  repo : after.repo = before.repo
  work : ∀ type, (after.work type).indices = (before.work type).indices

theorem World.has_congr (same : after.pthreads = before.pthreads) {pthread : Pthread} :
    after.Has number pthread ↔ before.Has number pthread := by
  rw [World.Has, World.Has, same]

theorem World.liveAs_congr (same : after.pthreads = before.pthreads) {routine : Routine} :
    after.LiveAs number routine ↔ before.LiveAs number routine := by
  simp only [World.LiveAs, World.has_congr same]

theorem Grows.of_same (same : after.pthreads = before.pthreads) : Grows who before after where
  kept _ pthread found := ⟨pthread, (World.has_congr same).mpr found, rfl, rfl, id⟩
  children _ pthread found _ := ⟨pthread, (World.has_congr same).mp found, rfl⟩

theorem Claim.Held.congr {index : Nat} {claim : Claim} (held : claim.Held before index)
    (live : ∀ number routine, before.LiveAs number routine → after.LiveAs number routine)
    (item : after.queue.items[index]? = before.queue.items[index]?) :
    claim.Held after index where
  thread := by
    rcases held.thread with ⟨number, routine, own, isLive, fits⟩
    exact ⟨number, routine, own, live number routine isLive, fits⟩
  item := by
    rw [item]
    exact held.item

/-- The invariant of the same threads at the same batches, whatever they have claimed. -/
theorem Inv.recast (inv : Inv before) (pthreads : after.pthreads = before.pthreads)
    (managerThread : after.managerThread = before.managerThread)
    (started : after.queue.managerStarted = before.queue.managerStarted)
    (work : ∀ type, (after.work type).indices = (before.work type).indices)
    (claims : ∀ index claim, after.claims index = some claim → claim.Held after index) :
    Inv after where
  lineage number pthread has alive := by
    rw [managerThread, started]
    rcases inv.lineage number pthread ((World.has_congr pthreads).mp has) alive with
      manager | ⟨creator, created, notManager, up⟩
    · exact .inl manager
    · exact .inr ⟨creator, created, notManager, (World.liveAs_congr pthreads).mpr up⟩
  claims := claims
  work number type notCheat live := by
    rw [work]
    exact inv.work number type notCheat ((World.liveAs_congr pthreads).mp live)

theorem Inv.frame (inv : Inv before) (frame : Frame before after) : Inv after := by
  refine inv.recast frame.pthreads frame.managerThread frame.started frame.work
    fun index claim claimed => ?_
  rw [frame.claims] at claimed
  exact (inv.claims index claim claimed).congr
    (fun _ _ => (World.liveAs_congr frame.pthreads).mpr) (by rw [frame.items])

theorem ThreadRely.frame (frame : Frame before after) : ThreadRely number before after where
  toGrows := .of_same frame.pthreads
  own pthread has returned := ⟨pthread, (World.has_congr frame.pthreads).mp has, returned⟩
  claims _ _ claimed _ := by
    rw [frame.claims, frame.items]
    exact ⟨claimed, rfl⟩
  idle _ _ _ there _ _ := by
    rw [frame.claims, frame.items]
    exact ⟨there, rfl⟩
  work _ := frame.work
  repo _ := by
    rw [frame.repo]
    exact ⟨rfl, List.prefix_rfl⟩

theorem ForegroundRely.frame (frame : Frame before after) (busy : ¬before.Quiet) :
    ForegroundRely before after where
  toGrows := .of_same frame.pthreads
  started := frame.started
  managerThread := frame.managerThread
  quiet alone := absurd alone busy
  progress := by
    rw [frame.items]
    exact .refl _

/-- The threads of the process by name. -/
theorem keeps_of_thread (inv : Inv after) (foreground : ForegroundRely before after)
    (others : ∀ other, other ≠ number → ThreadRely other before after) :
    Keeps (.created number) before after where
  inv := inv
  others other isOther := by
    cases other with
    | foreground => exact foreground
    | created other => exact others other fun same => isOther (congrArg ThreadId.created same)

theorem keeps_of_foreground (inv : Inv after)
    (others : ∀ other, ThreadRely other before after) : Keeps .foreground before after where
  inv := inv
  others other isOther := by
    cases other with
    | foreground => exact absurd rfl isOther
    | created other => exact others other

theorem Keeps.thread_frame (inv : Inv before) {routine : Routine}
    (live : before.LiveAs number routine) (frame : Frame before after) :
    Keeps (.created number) before after :=
  keeps_of_thread (inv.frame frame) (.frame frame live.not_quiet) fun _ _ => .frame frame

theorem Keeps.foreground_frame (inv : Inv before) (frame : Frame before after) :
    Keeps .foreground before after :=
  keeps_of_foreground (inv.frame frame) fun _ => .frame frame

theorem Frame.refl (world : World) : Frame world world :=
  ⟨rfl, rfl, rfl, rfl, rfl, rfl, fun _ => rfl⟩

/-! ## Items -/

/-- Only the item at one index and its claim have changed, and a thread that is alive has
changed them. -/
structure Touches (number index : Nat) (before after : World) : Prop where
  started : after.queue.managerStarted = before.queue.managerStarted
  managerThread : after.managerThread = before.managerThread
  pthreads : after.pthreads = before.pthreads
  repo : after.repo = before.repo
  work : ∀ type, (after.work type).indices = (before.work type).indices
  items : ∀ other, other ≠ index → after.queue.items[other]? = before.queue.items[other]?
  claims : ∀ other, other ≠ index → after.claims other = before.claims other
  held : ∀ claim, after.claims index = some claim → claim.Held after index
  mine : ∀ claim, before.claims index = some claim → claim.thread = .created number
  /-- An idle item is taken by the manager, or by a worker of its own kind, or nobody else can
  take it. -/
  taken : ∀ item, before.queue.items[index]? = some item → item.status = .idle →
    before.LiveAs number .manager ∨ before.LiveAs number (workerRoutine item.type)
  unfinished : ∃ item item', before.queue.items[index]? = some item ∧ item.Unfinished ∧
    after.queue.items[index]? = some item' ∧ item'.job = item.job

theorem Touches.inv {index : Nat} (touches : Touches number index before after)
    (inv : Inv before) : Inv after := by
  refine inv.recast touches.pthreads touches.managerThread touches.started touches.work
    fun other claim claimed => ?_
  by_cases same : other = index
  · subst same
    exact touches.held claim claimed
  · rw [touches.claims other same] at claimed
    exact (inv.claims other claim claimed).congr
      (fun _ _ => (World.liveAs_congr touches.pthreads).mpr) (touches.items other same)

theorem Touches.threadRely {index other : Nat} (touches : Touches number index before after)
    (inv : Inv before) (isOther : other ≠ number) : ThreadRely other before after where
  toGrows := .of_same touches.pthreads
  own pthread has returned := ⟨pthread, (World.has_congr touches.pthreads).mp has, returned⟩
  claims at_ claim claimed own := by
    have elsewhere : at_ ≠ index := by
      intro same
      subst same
      have mine := touches.mine claim claimed
      rw [own, ThreadId.created.injEq] at mine
      exact isOther mine
    exact ⟨(touches.claims at_ elsewhere).trans claimed, touches.items at_ elsewhere⟩
  idle live at_ item there isIdle joined := by
    have elsewhere : at_ ≠ index := by
      intro same
      subst same
      rcases touches.taken item there isIdle with manager | worker
      · have same := (inv.manager live).1.symm.trans (inv.manager manager).1
        exact isOther (Option.some.inj same)
      · rcases inv.creator live worker isOther with ⟨pthread, has, created, alive, isRoutine, -⟩
        rw [joined number pthread has created isRoutine] at alive
        cases alive
    exact ⟨(touches.items at_ elsewhere).trans there, touches.claims at_ elsewhere⟩
  work _ := touches.work
  repo _ := by
    rw [touches.repo]
    exact ⟨rfl, List.prefix_rfl⟩

theorem Touches.foregroundRely {index : Nat} (touches : Touches number index before after)
    (busy : ¬before.Quiet) : ForegroundRely before after where
  toGrows := .of_same touches.pthreads
  started := touches.started
  managerThread := touches.managerThread
  quiet alone := absurd alone busy
  progress := by
    rcases touches.unfinished with ⟨item, item', there, unfinished, later, sameJob⟩
    refine ⟨fun other => ?_, fun other found thereToo isFinished => ?_⟩
    · by_cases same : other = index
      · rw [same, there, later, Option.map_some, Option.map_some, sameJob]
      · rw [touches.items other same]
    · by_cases same : other = index
      · rw [same, there, Option.some.injEq] at thereToo
        exact absurd (thereToo ▸ unfinished) isFinished
      · rw [touches.items other same, thereToo]

theorem Touches.keeps {index : Nat} (touches : Touches number index before after)
    (inv : Inv before) {routine : Routine} (live : before.LiveAs number routine) :
    Keeps (.created number) before after :=
  keeps_of_thread (touches.inv inv) (touches.foregroundRely live.not_quiet)
    fun _ isOther => touches.threadRely inv isOther

/-- What a claim finds and leaves, when it succeeds. -/
theorem Queue.claimItem_some {queue after : Queue} {index : Nat} {type : ItemType}
    {next : ItemStatus} {item : QueueItem}
    (claimed : queue.claimItem index type next = (some item, after)) :
    queue.items[index]? = some item ∧ item.type = type ∧ item.status = .idle ∧
      after.items = queue.items.set index (item.withStatus next) ∧
      after.managerStarted = queue.managerStarted := by
  rw [Queue.claimItem] at claimed
  split at claimed
  · rename_i found there
    split at claimed
    · cases claimed
    · rename_i fits
      cases claimed
      rw [not_or, not_not, not_not] at fits
      exact ⟨there, fits.1, fits.2, rfl, rfl⟩
  · cases claimed

/-- A claim that fails leaves the queue as it is. -/
theorem Queue.claimItem_none {queue after : Queue} {index : Nat} {type : ItemType}
    {next : ItemStatus} (failed : queue.claimItem index type next = (none, after)) :
    after = queue := by
  rw [Queue.claimItem] at failed
  split at failed
  · split at failed
    · cases failed
      rfl
    · cases failed
  · cases failed
    rfl

theorem Keeps.claim (inv : Inv before) {routine : Routine} (live : before.LiveAs number routine)
    {index : Nat} {type : ItemType} {next : ItemStatus}
    (fits : routine = .manager ∨ routine = workerRoutine type)
    (active : isTerminalStatus next = false ∧ next ≠ .idle) :
    Keeps (.created number) before
      (before.claim (.created number) index (before.queue.claimItem index type next)).2 := by
  rcases claimed : before.queue.claimItem index type next with ⟨_ | item, queue⟩
  · rw [Queue.claimItem_none claimed]
    exact .thread_frame inv live (.refl before)
  · rcases Queue.claimItem_some claimed with ⟨there, isType, isIdle, items, started⟩
    have inside := (List.getElem?_eq_some_iff.mp there).1
    have unclaimed := inv.no_claim_of_idle there isIdle
    suffices touches : Touches number index before
        (before.claim (.created number) index (some item, queue)).2 from touches.keeps inv live
    exact {
      started := started
      managerThread := rfl
      pthreads := rfl
      repo := rfl
      work := fun _ => rfl
      items := fun other isOther => by
        rw [World.claim, items, List.getElem?_set_ne (Ne.symm isOther)]
      claims := fun other isOther => Function.update_of_ne isOther ..
      held := fun claim isClaim => by
        have isNew := (Function.update_self index _ before.claims).symm.trans isClaim
        cases isNew
        refine ⟨⟨number, routine, rfl, live, ?_⟩, item.withStatus next, ?_, active, rfl⟩
        · rw [isType]
          exact fits
        · rw [World.claim, items, List.getElem?_set_self inside]
      mine := fun claim isClaim => by
        rw [unclaimed] at isClaim
        cases isClaim
      taken := fun found thereToo _ => by
        rw [there, Option.some.injEq] at thereToo
        subst thereToo
        rw [isType]
        rcases fits with isManager | isWorker
        · exact .inl (isManager ▸ live)
        · exact .inr (isWorker ▸ live)
      unfinished := by
        refine ⟨item, item.withStatus next, there, QueueItem.unfinished_of_idle isIdle, ?_, rfl⟩
        rw [World.claim, items, List.getElem?_set_self inside] }

theorem Queue.modify_getElem? (queue : Queue) (index : Nat) (change : QueueItem → QueueItem)
    (other : Nat) : (queue.modify index change).items[other]? =
      if index = other then queue.items[other]?.map change else queue.items[other]? := by
  rw [Queue.modify]
  split
  · rw [List.getElem?_modify]
    split
    · rfl
    · exact Option.map_id' ..
  · rename_i outside
    split
    · rename_i same
      subst same
      rw [List.getElem?_eq_none (Nat.le_of_not_lt outside)]
      rfl
    · rfl

theorem Queue.modify_managerStarted (queue : Queue) (index : Nat)
    (change : QueueItem → QueueItem) :
    (queue.modify index change).managerStarted = queue.managerStarted := by
  rw [Queue.modify]
  split <;> rfl

/-- The write of an item that the thread may write. -/
theorem Keeps.write (inv : Inv before) {routine : Routine} (live : before.LiveAs number routine)
    {index : Nat} {status : ItemStatus} {change : QueueItem → QueueItem}
    (mayWrite : MayWrite before number routine index) (notIdle : status ≠ .idle)
    (sets : ∀ item, (change item).status = status ∧ (change item).job = item.job) :
    Keeps (.created number) before (before.write index status (before.queue.modify index change)) := by
  rcases mayWrite with ⟨item, there, unfinished, right⟩
  suffices touches : Touches number index before
      (before.write index status (before.queue.modify index change)) from touches.keeps inv live
  exact {
    started := Queue.modify_managerStarted ..
    managerThread := rfl
    pthreads := rfl
    repo := rfl
    work := fun _ => rfl
    items := fun other isOther => by
      rw [World.write, Queue.modify_getElem?, if_neg (Ne.symm isOther)]
    claims := fun other isOther => by
      rw [World.write]
      split
      · exact Function.update_of_ne isOther ..
      · rfl
    held := fun claim isClaim => by
      rw [World.write] at isClaim
      split at isClaim
      · cases (Function.update_self index _ before.claims).symm.trans isClaim
      · rename_i goesOn
        rcases inv.claims index claim isClaim with ⟨thread, held, thereToo, -, sameJob⟩
        rw [there, Option.some.injEq] at thereToo
        subst thereToo
        refine ⟨thread, change item, ?_, ?_, (sets item).2.trans sameJob⟩
        · rw [World.write, Queue.modify_getElem?, if_pos rfl, there]
          rfl
        · rw [QueueItem.Active, QueueItem.Unfinished, (sets item).1]
          exact ⟨by simpa using goesOn, notIdle⟩
    mine := fun claim isClaim => by
      rcases right with ⟨snapshot, mine, -⟩ | ⟨-, -, unclaimed, -⟩
      · rw [mine, Option.some.injEq] at isClaim
        rw [← isClaim]
      · rw [unclaimed] at isClaim
        cases isClaim
    taken := fun found thereToo isIdle => by
      rcases right with ⟨snapshot, mine, -⟩ | ⟨isManager, -⟩
      · rw [inv.no_claim_of_idle thereToo isIdle] at mine
        cases mine
      · exact .inl (isManager ▸ live)
    unfinished := by
      refine ⟨item, change item, there, unfinished, ?_, (sets item).2⟩
      rw [World.write, Queue.modify_getElem?, if_pos rfl, there]
      rfl }

/-! ## The cheat lists and the batches -/

theorem CheatRepo.ensure_grows (choice : Choice) (dir : Bytes) (repo : CheatRepo) :
    (repo.ensure choice dir).2.epoch = repo.epoch ∧
      repo.lists <+: (repo.ensure choice dir).2.lists := by
  rw [CheatRepo.ensure]
  split
  · exact ⟨rfl, List.prefix_rfl⟩
  · split
    · exact ⟨rfl, List.prefix_rfl⟩
    · rw [CheatRepo.build]
      split_ifs
      · exact ⟨rfl, List.prefix_rfl⟩
      · exact ⟨rfl, List.prefix_rfl⟩
      · exact ⟨rfl, List.prefix_append _ _⟩

/-- The list that is found or built is the one of the directory. -/
theorem CheatRepo.ensure_some {choice : Choice} {dir : Bytes} {repo : CheatRepo} {list : ListRef}
    (built : (repo.ensure choice dir).1 = some list) :
    list.epoch = (repo.ensure choice dir).2.epoch ∧
      (repo.ensure choice dir).2.lists[list.slot]? = some dir := by
  rw [CheatRepo.ensure] at built ⊢
  split at built
  · cases built
  · rename_i named
    rw [if_neg named]
    split at built
    · rename_i slot found
      cases built
      refine ⟨rfl, ?_⟩
      rcases List.findIdx?_eq_some_iff_getElem.mp found with ⟨inside, isDir, -⟩
      rw [List.getElem?_eq_getElem inside, beq_iff_eq.mp isDir]
    · rw [CheatRepo.build] at built ⊢
      split_ifs at built ⊢
      cases built
      exact ⟨rfl, List.getElem?_concat_length⟩

/-- Only the cheat lists grow. -/
theorem Keeps.ensureCheatList (inv : Inv before) {routine : Routine}
    (live : before.LiveAs number routine) (choice : Choice) (dir : Bytes) :
    Keeps (.created number) before { before with repo := (before.repo.ensure choice dir).2 } where
  inv := inv.recast rfl rfl rfl (fun _ => rfl) fun index claim claimed =>
    (inv.claims index claim claimed).congr (fun _ _ alive => alive) rfl
  others other isOther := by
    cases other with
    | foreground =>
        exact { ForegroundRely.refl before with quiet := fun alone => absurd alone live.not_quiet }
    | created other =>
        exact { ThreadRely.refl other before with
          repo := fun _ => CheatRepo.ensure_grows choice dir before.repo }

/-- The manager opens a batch, or closes one that no worker is at. -/
theorem Keeps.setWork (inv : Inv before) (live : before.LiveAs number .manager) {type : ItemType}
    {work : Work} (open_ : work.indices.isSome = true ∨ before.Joined number (workerRoutine type)) :
    Keeps (.created number) before (before.setWork type work) where
  inv := {
    lineage := inv.lineage
    claims := fun index claim claimed =>
      (inv.claims index claim claimed).congr (fun _ _ alive => alive) rfl
    work := fun other kind notCheat worker => by
      by_cases same : kind = type
      · subst same
        rw [World.setWork_work_self]
        rcases open_ with isOpen | joined
        · exact isOpen
        · have isOther : number ≠ other := by
            intro equal
            subst equal
            have isManager := World.LiveAs.unique live worker
            cases kind <;> cases isManager
          rcases inv.creator live worker isOther with ⟨pthread, has, created, alive, isRoutine, -⟩
          rw [joined other pthread has created isRoutine] at alive
          cases alive
      · rw [World.setWork_work_of_ne _ same]
        exact inv.work other kind notCheat worker }
  others other isOther := by
    cases other with
    | foreground =>
        exact { ForegroundRely.refl before with quiet := fun alone => absurd alone live.not_quiet }
    | created other =>
        exact { ThreadRely.refl other before with
          work := fun manager => by
            have same := (inv.manager live).1.symm.trans (inv.manager manager).1
            exact absurd (congrArg ThreadId.created (Option.some.inj same).symm) isOther }

/-! ## The threads -/

theorem World.has_create {routine : Routine} {other : Nat} {pthread : Pthread} :
    (before.create who routine).Has other pthread ↔
      before.Has other pthread ∨
        other = before.pthreads.length ∧ pthread = ⟨routine, who, false, false⟩ := by
  rw [World.Has, World.Has, World.create, List.getElem?_append]
  split
  · rename_i inside
    exact ⟨.inl, fun has => has.elim id fun new => absurd new.1 (Nat.ne_of_lt inside)⟩
  · rename_i outside
    rw [List.getElem?_eq_none (Nat.le_of_not_lt outside), List.getElem?_singleton]
    constructor
    · intro has
      split at has
      · rename_i last
        exact .inr ⟨by omega, (Option.some.inj has).symm⟩
      · cases has
    · rintro (absurd_ | ⟨rfl, rfl⟩)
      · cases absurd_
      · rw [if_pos (Nat.sub_self _)]

theorem World.has_modify {change : Pthread → Pthread} {target other : Nat} {pthread : Pthread} :
    (before.modifyPthread target change).Has other pthread ↔
      ∃ old, before.Has other old ∧ pthread = if target = other then change old else old := by
  rw [World.Has, World.modifyPthread, List.getElem?_modify]
  constructor
  · intro has
    rcases Option.map_eq_some_iff.mp has with ⟨old, there, rfl⟩
    exact ⟨old, there, rfl⟩
  · rintro ⟨old, there, rfl⟩
    rw [there]
    rfl

theorem Grows.create (who : ThreadId) {other : ThreadId} (isOther : other ≠ who)
    (routine : Routine) : Grows other before (before.create who routine) where
  kept _ pthread has := ⟨pthread, World.has_create.mpr (.inl has), rfl, rfl, id⟩
  children _ pthread has isChild := by
    rcases World.has_create.mp has with old | ⟨-, rfl⟩
    · exact ⟨pthread, old, rfl⟩
    · exact absurd isChild.symm isOther

theorem World.LiveAs.create {routine : Routine} (live : before.LiveAs number routine)
    (who : ThreadId) (created : Routine) : (before.create who created).LiveAs number routine := by
  rcases live with ⟨pthread, has, alive, isRoutine⟩
  exact ⟨pthread, World.has_create.mpr (.inl has), alive, isRoutine⟩

theorem ThreadRely.create (who : ThreadId) {other : Nat} (isOther : .created other ≠ who)
    (routine : Routine) : ThreadRely other before (before.create who routine) where
  toGrows := .create who isOther routine
  own pthread has returned := by
    rcases World.has_create.mp has with old | ⟨-, rfl⟩
    · exact ⟨pthread, old, returned⟩
    · cases returned
  claims _ _ claimed _ := ⟨claimed, rfl⟩
  idle _ _ _ there _ _ := ⟨there, rfl⟩
  work _ _ := rfl
  repo _ := ⟨rfl, List.prefix_rfl⟩

/-- A thread that is created has a live manager above it, or it is the manager. -/
theorem Inv.create (inv : Inv before) {routine : Routine}
    (lineage : (routine = .manager ∧ before.Quiet ∧ before.queue.managerStarted = true) ∨
      routine ≠ .manager ∧ ∃ creator, who = .created creator ∧ before.LiveAs creator .manager)
    (work : ∀ type, type ≠ .cheat → routine = workerRoutine type →
      (before.work type).indices.isSome = true) :
    Inv (before.create who routine) where
  lineage other pthread has alive := by
    rcases World.has_create.mp has with old | ⟨rfl, rfl⟩
    · rcases lineage with ⟨-, quiet, -⟩ | ⟨notManager, -⟩
      · rw [quiet other pthread old] at alive
        cases alive
      · rcases inv.lineage other pthread old alive with
          ⟨isManager, thread, started⟩ | ⟨creator, created, other, up⟩
        · refine .inl ⟨isManager, ?_, started⟩
          rw [World.create, if_neg notManager]
          exact thread
        · exact .inr ⟨creator, created, other, up.create who routine⟩
    · rcases lineage with ⟨rfl, -, started⟩ | ⟨notManager, creator, created, up⟩
      · exact .inl ⟨rfl, rfl, started⟩
      · exact .inr ⟨creator, created, notManager, up.create who routine⟩
  claims index claim claimed :=
    (inv.claims index claim claimed).congr (fun _ _ live => live.create who routine) rfl
  work other type notCheat live := by
    rcases live with ⟨pthread, has, alive, isRoutine⟩
    rcases World.has_create.mp has with old | ⟨-, rfl⟩
    · exact inv.work other type notCheat ⟨pthread, old, alive, isRoutine⟩
    · exact work type notCheat isRoutine

/-- The manager creates a thread. -/
theorem Keeps.create (inv : Inv before) (live : before.LiveAs number .manager) {routine : Routine}
    (notManager : routine ≠ .manager)
    (work : ∀ type, type ≠ .cheat → routine = workerRoutine type →
      (before.work type).indices.isSome = true) :
    Keeps (.created number) before (before.create (.created number) routine) :=
  keeps_of_thread (inv.create (.inr ⟨notManager, number, rfl, live⟩) work)
    { toGrows := .create _ (by simp) routine
      started := rfl
      managerThread := if_neg notManager
      quiet := fun alone => absurd alone live.not_quiet
      progress := .refl _ }
    fun _ isOther => .create _ (by simpa using isOther) routine

/-- The foreground creates the manager. -/
theorem Keeps.createManager (inv : Inv before) (quiet : before.Quiet)
    (started : before.queue.managerStarted = true) :
    Keeps .foreground before (before.create .foreground .manager) :=
  keeps_of_foreground
    (inv.create (.inl ⟨rfl, quiet, started⟩) fun type _ isManager => by
      cases type <;> cases isManager)
    fun _ => .create _ (by simp) .manager

/-- A thread that has returned is joined by its creator. -/
theorem World.join_some {target : Nat} (joined : before.join target = some after) :
    (∃ pthread, before.Has target pthread ∧ pthread.returned = true) ∧
      after = before.modifyPthread target fun pthread => { pthread with joined := true } := by
  rw [World.join] at joined
  split at joined
  · rename_i pthread has
    split at joined
    · rename_i returned
      exact ⟨⟨pthread, has, returned⟩, (Option.some.inj joined).symm⟩
    · cases joined
  · cases joined

section Join

variable {target : Nat}

abbrev World.joined (world : World) (target : Nat) : World :=
  world.modifyPthread target fun pthread => { pthread with joined := true }

theorem World.has_joined {other : Nat} {pthread : Pthread}
    (has : (before.joined target).Has other pthread) :
    ∃ old, before.Has other old ∧ pthread.routine = old.routine ∧ pthread.creator = old.creator ∧
      pthread.returned = old.returned ∧ (target ≠ other → pthread = old) := by
  rcases World.has_modify.mp has with ⟨old, there, rfl⟩
  refine ⟨old, there, ?_⟩
  split
  · rename_i same
    exact ⟨rfl, rfl, rfl, fun other => absurd same other⟩
  · exact ⟨rfl, rfl, rfl, fun _ => rfl⟩

theorem World.joined_has {other : Nat} {pthread : Pthread} (has : before.Has other pthread) :
    ∃ new, (before.joined target).Has other new ∧ new.routine = pthread.routine ∧
      new.creator = pthread.creator ∧ new.returned = pthread.returned := by
  refine ⟨_, World.has_modify.mpr ⟨pthread, has, rfl⟩, ?_⟩
  split <;> exact ⟨rfl, rfl, rfl⟩

theorem World.liveAs_joined {other : Nat} {routine : Routine} :
    (before.joined target).LiveAs other routine ↔ before.LiveAs other routine := by
  constructor
  · rintro ⟨pthread, has, alive, isRoutine⟩
    rcases World.has_joined has with ⟨old, there, sameRoutine, -, sameReturned, -⟩
    exact ⟨old, there, sameReturned ▸ alive, sameRoutine ▸ isRoutine⟩
  · rintro ⟨pthread, has, alive, isRoutine⟩
    rcases World.joined_has has with ⟨new, there, sameRoutine, -, sameReturned⟩
    exact ⟨new, there, sameReturned.trans alive, sameRoutine.trans isRoutine⟩

theorem Inv.joined (inv : Inv before) (target : Nat) : Inv (before.joined target) where
  lineage other pthread has alive := by
    rcases World.has_joined has with ⟨old, there, sameRoutine, sameCreator, sameReturned, -⟩
    rw [sameReturned] at alive
    rw [sameRoutine, sameCreator]
    rcases inv.lineage other old there alive with manager | ⟨creator, created, notManager, up⟩
    · exact .inl manager
    · exact .inr ⟨creator, created, notManager, World.liveAs_joined.mpr up⟩
  claims index claim claimed :=
    (inv.claims index claim claimed).congr (fun _ _ => World.liveAs_joined.mpr) rfl
  work other type notCheat live := inv.work other type notCheat (World.liveAs_joined.mp live)

theorem Grows.joined_of_child {pthread : Pthread} (has : before.Has target pthread)
    {other : ThreadId} (isOther : other ≠ pthread.creator) :
    Grows other before (before.joined target) where
  kept number old there := by
    rcases World.joined_has there with ⟨new, found, sameRoutine, sameCreator, same⟩
    exact ⟨new, found, sameRoutine, sameCreator, fun returned => same.trans returned⟩
  children number new found isChild := by
    rcases World.has_joined found with ⟨old, there, -, sameCreator, -, same⟩
    refine ⟨old, there, ?_⟩
    rw [same]
    intro equal
    subst equal
    rw [has.unique there, ← sameCreator] at isOther
    exact isOther isChild.symm

theorem ThreadRely.joined {pthread : Pthread} (has : before.Has target pthread) {other : Nat}
    (isOther : .created other ≠ pthread.creator) :
    ThreadRely other before (before.joined target) where
  toGrows := .joined_of_child has isOther
  own new found returned := by
    rcases World.has_joined found with ⟨old, there, -, -, same, -⟩
    exact ⟨old, there, same ▸ returned⟩
  claims _ _ claimed _ := ⟨claimed, rfl⟩
  idle _ _ _ there _ _ := ⟨there, rfl⟩
  work _ _ := rfl
  repo _ := ⟨rfl, List.prefix_rfl⟩

/-- A thread joins one that it has created. -/
theorem Keeps.join (inv : Inv before) {routine : Routine} (live : before.LiveAs number routine)
    {pthread : Pthread} (has : before.Has target pthread)
    (isChild : pthread.creator = .created number) :
    Keeps (.created number) before (before.joined target) :=
  keeps_of_thread (inv.joined target)
    { toGrows := .joined_of_child has (by rw [isChild]; simp)
      started := rfl
      managerThread := rfl
      quiet := fun alone => absurd alone live.not_quiet
      progress := .refl _ }
    fun _ isOther => .joined has (by rw [isChild]; simpa using isOther)

/-- The foreground joins the manager. -/
theorem Keeps.joinManager (inv : Inv before) {pthread : Pthread} (has : before.Has target pthread)
    (isChild : pthread.creator = .foreground) : Keeps .foreground before (before.joined target) :=
  keeps_of_foreground (inv.joined target) fun _ => .joined has (by rw [isChild]; simp)

end Join

section Finish

theorem World.has_finish {other : Nat} {pthread : Pthread}
    (has : (before.finish (.created number)).Has other pthread) :
    ∃ old, before.Has other old ∧ pthread.routine = old.routine ∧ pthread.creator = old.creator ∧
      pthread.joined = old.joined ∧ (other = number → pthread.returned = true) ∧
      (other ≠ number → pthread = old) := by
  rcases World.has_modify.mp has with ⟨old, there, rfl⟩
  refine ⟨old, there, ?_⟩
  split
  · rename_i same
    exact ⟨rfl, rfl, rfl, fun _ => rfl, fun isOther => absurd same.symm isOther⟩
  · rename_i isOther
    exact ⟨rfl, rfl, rfl, fun same => absurd same.symm isOther, fun _ => rfl⟩

theorem World.finish_has {other : Nat} {pthread : Pthread} (has : before.Has other pthread) :
    ∃ new, (before.finish (.created number)).Has other new ∧ new.routine = pthread.routine ∧
      new.creator = pthread.creator ∧ (pthread.returned = true → new.returned = true) ∧
      (other ≠ number → new = pthread) := by
  refine ⟨_, World.has_modify.mpr ⟨pthread, has, rfl⟩, ?_⟩
  split
  · rename_i same
    exact ⟨rfl, rfl, fun _ => rfl, fun isOther => absurd same.symm isOther⟩
  · exact ⟨rfl, rfl, id, fun _ => rfl⟩

theorem World.liveAs_finish {other : Nat} {routine : Routine} :
    (before.finish (.created number)).LiveAs other routine ↔
      before.LiveAs other routine ∧ other ≠ number := by
  constructor
  · rintro ⟨pthread, has, alive, isRoutine⟩
    rcases World.has_finish has with ⟨old, there, -, -, -, ended, same⟩
    have isOther : other ≠ number := by
      intro equal
      rw [ended equal] at alive
      cases alive
    cases same isOther
    exact ⟨⟨pthread, there, alive, isRoutine⟩, isOther⟩
  · rintro ⟨⟨pthread, has, alive, isRoutine⟩, isOther⟩
    rcases World.finish_has has with ⟨new, there, -, -, -, same⟩
    cases same isOther
    exact ⟨_, there, alive, isRoutine⟩

theorem World.claims_finish {index : Nat} {claim : Claim} :
    (before.finish (.created number)).claims index = some claim ↔
      before.claims index = some claim ∧ claim.thread ≠ .created number := by
  change (before.claims index).filter _ = _ ↔ _
  rw [Option.filter_eq_some_iff, bne_iff_ne]

theorem Inv.finish (inv : Inv before)
    (joined : ∀ child pthread, before.Has child pthread → pthread.creator = .created number →
      pthread.returned = true) : Inv (before.finish (.created number)) where
  lineage other pthread has alive := by
    rcases World.has_finish has with ⟨old, there, -, -, -, ended, same⟩
    have isOther : other ≠ number := by
      intro equal
      rw [ended equal] at alive
      cases alive
    cases same isOther
    rcases inv.lineage other pthread there alive with manager | ⟨creator, created, notManager, up⟩
    · exact .inl manager
    · refine .inr ⟨creator, created, notManager, World.liveAs_finish.mpr ⟨up, ?_⟩⟩
      intro equal
      rw [joined other pthread there (equal ▸ created)] at alive
      cases alive
  claims index claim claimed := by
    rcases World.claims_finish.mp claimed with ⟨old, isOther⟩
    rcases inv.claims index claim old with ⟨⟨owner, routine, own, live, fits⟩, item⟩
    refine ⟨⟨owner, routine, own, World.liveAs_finish.mpr ⟨live, ?_⟩, fits⟩, item⟩
    intro equal
    exact isOther (equal ▸ own)
  work other type notCheat live :=
    inv.work other type notCheat (World.liveAs_finish.mp live).1

theorem Grows.finish (who : ThreadId) : Grows who before (before.finish (.created number)) where
  kept other pthread has := by
    rcases World.finish_has has with ⟨new, there, routine, creator, returned, -⟩
    exact ⟨new, there, routine, creator, returned⟩
  children other pthread has _ := by
    rcases World.has_finish has with ⟨old, there, -, -, joined, -⟩
    exact ⟨old, there, joined.symm⟩

/-- A thread whose children have all returned may return. -/
theorem Keeps.finish (inv : Inv before) {routine : Routine} (live : before.LiveAs number routine)
    (joined : ∀ child pthread, before.Has child pthread → pthread.creator = .created number →
      pthread.returned = true) :
    Keeps (.created number) before (before.finish (.created number)) :=
  keeps_of_thread (inv.finish joined)
    { toGrows := .finish _
      started := rfl
      managerThread := rfl
      quiet := fun alone => absurd alone live.not_quiet
      progress := .refl _ }
    fun other isOther => {
      toGrows := .finish _
      own := fun pthread has returned => by
        rcases World.has_finish has with ⟨old, there, -, -, -, -, same⟩
        cases same isOther
        exact ⟨pthread, there, returned⟩
      claims := fun index claim claimed own => by
        refine ⟨World.claims_finish.mpr ⟨claimed, ?_⟩, rfl⟩
        rw [own]
        simpa using isOther
      idle := fun _ index item there isIdle _ => by
        refine ⟨there, ?_⟩
        have unclaimed := inv.no_claim_of_idle there isIdle
        change (before.claims index).filter _ = _
        rw [unclaimed]
        rfl
      work := fun _ _ => rfl
      repo := fun _ => ⟨rfl, List.prefix_rfl⟩ }

end Finish

/-! ## The foreground -/

/-- The foreground appends to the queue. -/
theorem Keeps.append (inv : Inv before) {queue : Queue}
    (items : before.queue.items <+: queue.items)
    (started : queue.managerStarted = before.queue.managerStarted) :
    Keeps .foreground before { before with queue := queue } := by
  have same : ∀ (index : Nat) item, before.queue.items[index]? = some item →
      queue.items[index]? = some item := by
    intro index item there
    rcases items with ⟨added, isQueue⟩
    rw [← isQueue, List.getElem?_append_left (List.getElem?_eq_some_iff.mp there).1, there]
  refine keeps_of_foreground ?_ fun other => ?_
  · refine inv.recast rfl rfl started (fun _ => rfl) fun index claim claimed => ?_
    rcases inv.claims index claim claimed with ⟨thread, item, there, active, sameJob⟩
    exact ⟨thread, item, same index item there, active, sameJob⟩
  · exact {
      ThreadRely.refl other before with
      claims := fun index claim claimed _ => by
        rcases (inv.claims index claim claimed).item with ⟨item, there, -⟩
        exact ⟨claimed, (same index item there).trans there.symm⟩
      idle := fun _ index item there _ _ => ⟨same index item there, rfl⟩ }

/-- While nothing is unfinished, or no thread is left, the foreground may do more. -/
theorem Keeps.idle (inv : Inv before)
    (idle : before.Quiet ∨ before.Settled ∧
      after.queue.managerStarted = before.queue.managerStarted ∧
        after.managerThread = before.managerThread)
    (pthreads : after.pthreads = before.pthreads) (claims : after.claims = before.claims)
    (work : after.work = before.work) : Keeps .foreground before after := by
  have unclaimed : ∀ index, before.claims index = none := fun index =>
    idle.elim (inv.no_claims_of_quiet · index) fun settled => inv.no_claims_of_settled settled.1 index
  refine keeps_of_foreground ?_ fun other => ?_
  · exact {
      lineage := fun number pthread has alive => by
        have hasBefore := (World.has_congr pthreads).mp has
        rcases idle with quiet | ⟨-, started, thread⟩
        · rw [quiet number pthread hasBefore] at alive
          cases alive
        · rw [started, thread]
          rcases inv.lineage number pthread hasBefore alive with
            manager | ⟨creator, created, notManager, up⟩
          · exact .inl manager
          · exact .inr ⟨creator, created, notManager, (World.liveAs_congr pthreads).mpr up⟩
      claims := fun index claim claimed => by
        rw [claims, unclaimed index] at claimed
        cases claimed
      work := fun number type notCheat live => by
        rw [work]
        exact inv.work number type notCheat ((World.liveAs_congr pthreads).mp live) }
  · exact {
      toGrows := .of_same pthreads
      own := fun pthread has returned => ⟨pthread, (World.has_congr pthreads).mp has, returned⟩
      claims := fun index claim claimed _ => by
        rw [unclaimed index] at claimed
        cases claimed
      idle := fun live index item there isIdle _ => by
        rcases idle with quiet | ⟨settled, -⟩
        · exact absurd quiet live.not_quiet
        · exact absurd (QueueItem.unfinished_of_idle isIdle)
            (settled item (List.mem_of_getElem? there))
      work := fun _ _ => by rw [work]
      repo := fun ⟨index, claim, claimed, _⟩ => by
        rw [unclaimed index] at claimed
        cases claimed }

end Zlyme.Scrape
