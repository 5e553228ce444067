import Zlyme.Scrape.ManagerSafety

/-! # The calls of the scrape queue are safe

The calls of the foreground keep the discipline as well: it stops the manager, and waits for
it, before it does what no thread may see.
-/

namespace Zlyme.Scrape

open Foundation Foundation.Concurrent

variable {before after world : World} {who : ThreadId}

/-! ## What the foreground knows -/

/-- The manager that has been started can be joined. -/
def World.Ready (world : World) : Prop :=
  world.queue.managerStarted = true → ∃ number pthread, world.managerThread = some number ∧
    world.Has number pthread ∧ pthread.creator = .foreground ∧ pthread.joined = false

def World.Stopped (world : World) : Prop :=
  world.queue.managerStarted = false

theorem World.Stopped.ready (stopped : world.Stopped) : world.Ready := by
  intro started
  rw [stopped] at started
  cases started

/-- The others leave it true, and so does what changes nothing that matters. -/
structure Lasting (facts : World → Prop) : Prop where
  rely : ∀ before after, ForegroundRely before after → facts before → facts after
  frame : ∀ before after, Frame before after → facts before → facts after

theorem Lasting.and {facts more : World → Prop} (lasting : Lasting facts)
    (lastingMore : Lasting more) : Lasting fun world => facts world ∧ more world where
  rely before after relied holds :=
    ⟨lasting.rely before after relied holds.1, lastingMore.rely before after relied holds.2⟩
  frame before after frame holds :=
    ⟨lasting.frame before after frame holds.1, lastingMore.frame before after frame holds.2⟩

theorem World.Ready.lasting : Lasting World.Ready where
  rely before after relied ready started := by
    rw [relied.started] at started
    rcases ready started with ⟨number, pthread, thread, has, isChild, unjoined⟩
    rcases relied.kept number pthread has with ⟨new, found, -, sameCreator, -⟩
    rcases relied.children number new found (sameCreator.trans isChild) with ⟨old, there, same⟩
    cases there.unique has
    exact ⟨number, new, relied.managerThread.trans thread, found, sameCreator.trans isChild,
      same.symm.trans unjoined⟩
  frame before after frame ready started := by
    rw [frame.started] at started
    rcases ready started with ⟨number, pthread, thread, has, rest⟩
    exact ⟨number, pthread, frame.managerThread.trans thread,
      (World.has_congr frame.pthreads).mpr has, rest⟩

theorem World.Stopped.lasting : Lasting World.Stopped where
  rely _ _ relied stopped := relied.started.trans stopped
  frame _ _ frame stopped := frame.started.trans stopped

theorem World.Quiet.lasting : Lasting World.Quiet where
  rely _ _ relied quiet := by
    rw [relied.quiet quiet]
    exact quiet
  frame _ _ frame quiet number pthread has :=
    quiet number pthread ((World.has_congr frame.pthreads).mp has)

theorem World.Settled.lasting : Lasting World.Settled where
  rely _ _ relied settled := by
    rw [World.Settled, relied.progress.eq_of_settled settled]
    exact settled
  frame _ _ frame settled := by
    rw [World.Settled, frame.items]
    exact settled

/-- The manager has been joined, or there is none. -/
def World.Joinable (world : World) : Prop :=
  world.Quiet ∨ world.Stopped

theorem World.Joinable.lasting : Lasting World.Joinable where
  rely before after relied :=
    Or.imp (World.Quiet.lasting.rely before after relied)
      (World.Stopped.lasting.rely before after relied)
  frame before after frame :=
    Or.imp (World.Quiet.lasting.frame before after frame)
      (World.Stopped.lasting.frame before after frame)

theorem World.Joinable.quiet (joinable : world.Joinable) (inv : Inv world) : world.Quiet :=
  joinable.elim id inv.quiet_of_not_started

/-! ## Rules -/

abbrev ForegroundSafe {α : Type} : Program α → (α → World → Prop) → World → Prop :=
  Safe perform discipline Guard .foreground

theorem ForegroundSafe.operate {action : Action} {facts : World → Prop}
    {post : action.Result → World → Prop} (lasting : Lasting facts) (holds : facts world)
    (guarded : ∀ now, Inv now → facts now → ForegroundGuard now action)
    (operates : ∀ now choice result after, Inv now → facts now →
      perform .foreground action choice now = some (result, after) →
        Keeps .foreground now after ∧ post result after) :
    ForegroundSafe (issue action) post world := by
  refine Safe.issue fun now inv relied => ?_
  have known := lasting.rely world now relied holds
  exact ⟨guarded now inv known, fun choice result after answer =>
    operates now choice result after inv known answer⟩

/-- What the foreground may always ask, and what it may set. -/
def Action.asked : Action → Bool
  | .storeInterrupt _ | .managerStarted | .hasNonTerminal | .hasUnfinishedWork => true
  | .checkDirty | .snapshot | .getStats | .isQueued _ _ | .getRomStatus _ _ => true
  | .stopRunning | .readCommand | .serialize _ | .cleanupAll => true
  | _ => false

theorem ForegroundSafe.ask {action : Action} {facts : World → Prop} (lasting : Lasting facts)
    (asked : action.asked = true) (holds : facts world) :
    ForegroundSafe (issue action) (fun _ => facts) world := by
  refine ForegroundSafe.operate lasting holds (fun now _ _ => ?_) ?_
  · cases action <;> trivial
  · intro now choice result after inv known answer
    have frame : Frame now after := by
      refine Frame.of_looks ?_ answer
      cases action <;> trivial
    exact ⟨.foreground_frame inv frame, lasting.frame now after frame known⟩

/-- The rule of an operation for which the foreground has to be alone. -/
theorem ForegroundSafe.alone {action : Action} {facts : World → Prop}
    {post : action.Result → World → Prop} (lasting : Lasting facts) (holds : facts world)
    (quiet : ∀ now, Inv now → facts now → now.Quiet)
    (guarded : ∀ now, now.Quiet → facts now → ForegroundGuard now action)
    (changes : ∀ now choice result after, facts now → now.Quiet →
      perform .foreground action choice now = some (result, after) →
        after.pthreads = now.pthreads ∧ after.claims = now.claims ∧ after.work = now.work ∧
          post result after) :
    ForegroundSafe (issue action) post world := by
  refine ForegroundSafe.operate lasting holds
    (fun now inv known => guarded now (quiet now inv known) known) ?_
  intro now choice result after inv known answer
  have isQuiet := quiet now inv known
  rcases changes now choice result after known isQuiet answer with ⟨pthreads, claims, work, holds⟩
  exact ⟨.idle inv (.inl isQuiet) pthreads claims work, holds⟩

/-! ## Starting and stopping -/

theorem joinManager_safe (ready : world.Ready) (started : world.queue.managerStarted = true) :
    ForegroundSafe (issue .joinManager) (fun _ => World.Quiet) world := by
  have lasting : Lasting fun world => world.Ready ∧ world.queue.managerStarted = true :=
    World.Ready.lasting.and
      ⟨fun _ _ relied => relied.started.trans, fun _ _ frame => frame.started.trans⟩
  refine ForegroundSafe.operate lasting ⟨ready, started⟩ (fun now _ known => known.1 known.2) ?_
  intro now choice result after inv ⟨ready, started⟩ answer
  rcases ready started with ⟨number, pthread, thread, has, isChild, -⟩
  rw [perform, thread] at answer
  rcases Option.map_eq_some_iff.mp answer with ⟨joined, isJoined, same⟩
  rcases World.join_some isJoined with ⟨⟨child, there, returned⟩, rfl⟩
  cases same
  cases there.unique has
  refine ⟨.joinManager inv has isChild, fun other new found => ?_⟩
  -- Whoever is alive is the manager or its child, and the manager has returned.
  by_contra alive
  rw [Bool.not_eq_true] at alive
  rcases World.has_joined found with ⟨old, here, sameRoutine, -, sameReturned, -⟩
  rw [sameReturned] at alive
  have isDead : ∀ creator, now.LiveAs creator .manager → False := by
    intro creator live
    have same := Option.some.inj ((inv.manager live).1.symm.trans thread)
    subst same
    rcases live with ⟨up, hasUp, aliveUp, -⟩
    rw [hasUp.unique has, returned] at aliveUp
    cases aliveUp
  rcases inv.lineage other old here alive with ⟨isManager, -⟩ | ⟨creator, -, -, live⟩
  · exact isDead other ⟨old, here, alive, isManager⟩
  · exact isDead creator live

/-- The two regions that forget the manager. -/
theorem forgetManager_safe {action : Action} (joinable : world.Joinable)
    (forgets : action = .managerStopped ∨ action = .managerFailed ∨ action = .clearStarted) :
    ForegroundSafe (issue action) (fun _ => World.Stopped) world := by
  refine ForegroundSafe.alone World.Joinable.lasting joinable
    (fun _ inv known => known.quiet inv) (fun now quiet _ => ?_) ?_
  · rcases forgets with rfl | rfl | rfl <;> exact quiet
  · intro now choice result after known quiet answer
    rcases forgets with rfl | rfl | rfl <;>
      · cases answer
        exact ⟨rfl, rfl, rfl, rfl⟩

theorem stopManagerForTransition_safe (ready : world.Ready) :
    ForegroundSafe stopManagerForTransition (fun _ => World.Stopped) world := by
  refine Safe.bind (ForegroundSafe.ask World.Ready.lasting rfl ready) fun _ first ready => ?_
  have asked : ForegroundSafe (issue .managerStarted) (fun started after =>
      after.Ready ∧ after.queue.managerStarted = started) first := by
    refine ForegroundSafe.operate World.Ready.lasting ready (fun _ _ _ => trivial) ?_
    intro now choice result after inv known answer
    cases answer
    exact ⟨.foreground_frame inv (.refl now), known, rfl⟩
  refine Safe.bind asked fun started second ⟨ready, isStarted⟩ => ?_
  have rest : ∀ {between : World}, between.Joinable → ForegroundSafe (do
      issue .managerStopped
      issue (.storeInterrupt false)) (fun _ => World.Stopped) between := by
    intro between joinable
    refine Safe.bind (forgetManager_safe joinable (.inl rfl)) fun _ after stopped => ?_
    exact ForegroundSafe.ask World.Stopped.lasting rfl stopped
  cases started with
  | true => exact Safe.bind (joinManager_safe ready isStarted) fun _ third quiet => rest (.inl quiet)
  | false => exact rest (.inr isStarted)

/-- The manager is about to be created. -/
def World.Starting (world : World) : Prop :=
  world.Quiet ∧ world.queue.managerStarted = true

theorem World.Starting.lasting : Lasting World.Starting :=
  World.Quiet.lasting.and
    ⟨fun _ _ relied => relied.started.trans, fun _ _ frame => frame.started.trans⟩

theorem startManager_safe (ready : world.Ready) :
    ForegroundSafe (issue .startManager) (fun starts after =>
      if starts then after.Starting else after.Ready) world := by
  refine ForegroundSafe.operate World.Ready.lasting ready (fun _ _ _ => trivial) ?_
  intro now choice result after inv known answer
  rw [perform] at answer
  split at answer
  · cases answer
    exact ⟨.foreground_frame inv (.refl now), known⟩
  · rename_i notStarted
    rw [Bool.not_eq_true] at notStarted
    have quiet := inv.quiet_of_not_started notStarted
    cases answer
    exact ⟨.idle inv (.inl quiet) rfl rfl rfl, quiet, rfl⟩

theorem createManager_safe (starting : world.Starting) :
    ForegroundSafe (issue (.create .manager)) (fun thread after =>
      thread.elim after.Starting fun _ => after.Ready) world := by
  refine ForegroundSafe.operate World.Starting.lasting starting
    (fun now _ known => ⟨rfl, known⟩) ?_
  intro now choice result after inv known answer
  rw [perform] at answer
  split at answer
  · cases answer
    refine ⟨.createManager inv known.1 known.2, fun _ => ?_⟩
    exact ⟨_, _, rfl, World.has_create.mpr (.inr ⟨rfl, rfl⟩), rfl, rfl⟩
  · cases answer
    exact ⟨.foreground_frame inv (.refl now), known⟩

theorem ensureManagerStarted_safe (ready : world.Ready) :
    ForegroundSafe ensureManagerStarted (fun _ => World.Ready) world := by
  refine Safe.bind (startManager_safe ready) fun starts first known => ?_
  cases starts with
  | false => exact known
  | true =>
  refine Safe.bind (createManager_safe known) fun thread second known => ?_
  cases thread with
  | some thread => exact known
  | none =>
      exact (forgetManager_safe (.inl known.1) (.inr (.inl rfl))).mono
        fun _ _ stopped => stopped.ready

/-! ## Calls -/

theorem settled_of_hasNonTerminal (none : world.queue.hasNonTerminal = false) :
    world.Settled := by
  intro item member unfinished
  have found : world.queue.hasNonTerminal = true :=
    List.any_eq_true.mpr ⟨item, member, by rw [unfinished]; rfl⟩
  rw [none] at found
  cases found

theorem clearCheatRepoState_safe {facts : World → Prop} (lasting : Lasting facts)
    (holds : facts world)
    (allowed : ∀ now, Inv now → facts now → now.Quiet ∨ now.Settled)
    (kept : ∀ now, facts now → facts { now with repo := now.repo.clear }) :
    ForegroundSafe (issue .clearCheatRepoState) (fun _ => facts) world := by
  refine ForegroundSafe.operate lasting holds allowed ?_
  intro now choice result after inv known answer
  cases answer
  exact ⟨.idle inv ((allowed now inv known).imp id fun settled => ⟨settled, rfl, rfl⟩) rfl rfl rfl,
    kept now known⟩

/-- Nothing is unfinished, or the answer is that something is. -/
theorem askNonTerminal_safe (ready : world.Ready) :
    ForegroundSafe (issue .hasNonTerminal) (fun unfinished after =>
      after.Ready ∧ (unfinished = false → after.Settled)) world := by
  refine ForegroundSafe.operate World.Ready.lasting ready (fun _ _ _ => trivial) ?_
  intro now choice result after inv known answer
  cases answer
  exact ⟨.foreground_frame inv (.refl now), known, settled_of_hasNonTerminal⟩

theorem queueInit_safe (quiet : world.Quiet) :
    ForegroundSafe queueInit (fun _ => World.Stopped) world := by
  have started : ForegroundSafe (issue .init) (fun _ => World.Stopped) world := by
    refine ForegroundSafe.alone World.Quiet.lasting quiet (fun _ _ known => known)
      (fun _ quiet _ => quiet) ?_
    intro now choice result after known quiet answer
    cases answer
    exact ⟨rfl, rfl, rfl, rfl⟩
  refine Safe.bind started fun _ first stopped => ?_
  refine Safe.bind (clearCheatRepoState_safe World.Stopped.lasting stopped
    (fun now inv stopped => .inl (inv.quiet_of_not_started stopped)) fun _ stopped => stopped)
    fun _ second stopped => ?_
  exact ForegroundSafe.ask World.Stopped.lasting rfl stopped

theorem queueShutdown_safe (ready : world.Ready) :
    ForegroundSafe queueShutdown (fun _ _ => True) world := by
  have asked : ForegroundSafe (issue .stopRunning) (fun started after =>
      after.Ready ∧ after.queue.managerStarted = started) world := by
    refine ForegroundSafe.operate World.Ready.lasting ready (fun _ _ _ => trivial) ?_
    intro now choice result after inv known answer
    have frame := Frame.of_looks rfl answer
    cases answer
    exact ⟨.foreground_frame inv frame, World.Ready.lasting.frame _ _ frame known, rfl⟩
  refine Safe.bind asked fun started first ⟨ready, isStarted⟩ => ?_
  have rest : ∀ {between : World}, between.Stopped → ForegroundSafe (do
      issue .clearCheatRepoState
      issue .emptyQueue) (fun _ _ => True) between := by
    intro between stopped
    refine Safe.bind (clearCheatRepoState_safe World.Stopped.lasting stopped
      (fun now inv stopped => .inl (inv.quiet_of_not_started stopped)) fun _ stopped => stopped)
      fun _ second stopped => ?_
    refine ForegroundSafe.alone World.Stopped.lasting stopped
      (fun _ inv stopped => inv.quiet_of_not_started stopped) (fun _ quiet _ => quiet) ?_
    intro now choice result after known quiet answer
    cases answer
    exact ⟨rfl, rfl, rfl, trivial⟩
  cases started with
  | false => exact rest isStarted
  | true =>
  have lasting : Lasting fun world => world.Ready ∧ world.queue.managerStarted = true :=
    World.Ready.lasting.and
      ⟨fun _ _ relied => relied.started.trans, fun _ _ frame => frame.started.trans⟩
  refine Safe.bind (ForegroundSafe.ask lasting rfl ⟨ready, isStarted⟩)
    fun _ second ⟨ready, isStarted⟩ => ?_
  refine Safe.bind (joinManager_safe ready isStarted) fun _ third quiet => ?_
  exact Safe.bind (forgetManager_safe (.inl quiet) (.inr (.inr rfl))) fun _ fourth stopped =>
    rest stopped

theorem queueAdd_safe (type : ItemType) (request : AddRequest) (ready : world.Ready) :
    ForegroundSafe (queueAdd type request) (fun _ => World.Ready) world := by
  rw [queueAdd]
  split
  · exact ready
  · rename_i item isItem
    have added : ForegroundSafe (issue (.add request.rom item)) (fun _ => World.Ready) world := by
      refine ForegroundSafe.operate World.Ready.lasting ready (fun _ _ _ => trivial) ?_
      intro now choice result after inv known answer
      rw [perform, Option.some.injEq] at answer
      cases answer
      rw [Queue.add]
      split
      · exact ⟨.append inv List.prefix_rfl rfl, known⟩
      · split
        · exact ⟨.append inv List.prefix_rfl rfl, known⟩
        · exact ⟨.append inv (List.prefix_append _ _) rfl, known⟩
    refine Safe.bind added fun isAdded first ready => ?_
    cases isAdded with
    | false => exact ready
    | true => exact ensureManagerStarted_safe ready

theorem clearDone_safe (ready : world.Ready) :
    ForegroundSafe (issue .clearDone) (fun _ => World.Ready) world := by
  refine ForegroundSafe.operate World.Ready.lasting ready (fun _ _ _ => trivial) ?_
  intro now choice result after inv known answer
  cases answer
  rw [Queue.clearDone]
  split
  · exact ⟨.foreground_frame inv (.refl now), known⟩
  · rename_i none
    rw [Bool.not_eq_true] at none
    exact ⟨.idle inv (.inr ⟨settled_of_hasNonTerminal none, rfl, rfl⟩) rfl rfl rfl, known⟩

/-- A region that rewrites the whole queue, once the manager is stopped. -/
theorem stoppedQueue_safe {action : Action} {post : action.Result → World → Prop}
    (stopped : world.Stopped)
    (guarded : ∀ now : World, now.Quiet → ForegroundGuard now action)
    (changes : ∀ now choice result after, now.Stopped →
      perform .foreground action choice now = some (result, after) →
        after.pthreads = now.pthreads ∧ after.claims = now.claims ∧ after.work = now.work ∧
          post result after) :
    ForegroundSafe (issue action) post world :=
  ForegroundSafe.alone World.Stopped.lasting stopped
    (fun _ inv stopped => inv.quiet_of_not_started stopped) (fun now quiet _ => guarded now quiet)
    fun now choice result after stopped _ answer => changes now choice result after stopped answer

theorem queueCancelAll_safe (ready : world.Ready) :
    ForegroundSafe queueCancelAll (fun _ => World.Ready) world := by
  refine Safe.bind (stopManagerForTransition_safe ready) fun _ first stopped => ?_
  refine stoppedQueue_safe stopped (fun _ quiet => quiet) ?_
  intro now choice result after stopped answer
  cases answer
  exact ⟨rfl, rfl, rfl, World.Stopped.ready rfl⟩

/-- The queue is handed off: nobody is at it, and its items are those that go. -/
def World.Handed (world : World) (items : List QueueItem) : Prop :=
  world.Quiet ∧ world.Stopped ∧ world.queue.items = items

theorem World.Handed.rely {items : List QueueItem} (handed : before.Handed items)
    (relied : ForegroundRely before after) : after.Handed items := by
  rw [relied.quiet handed.1]
  exact handed

theorem queueHandoffSnapshot_safe (ready : world.Ready) :
    ForegroundSafe queueHandoffSnapshot (fun items after => after.Handed items) world := by
  refine Safe.bind (stopManagerForTransition_safe ready) fun _ first stopped => ?_
  refine ForegroundSafe.alone World.Stopped.lasting stopped
    (fun _ inv stopped => inv.quiet_of_not_started stopped) (fun _ quiet _ => quiet) ?_
  intro now choice result after stopped quiet answer
  cases answer
  exact ⟨rfl, rfl, rfl, quiet, stopped, rfl⟩

theorem snapshot_safe (ready : world.Ready) :
    ForegroundSafe (issue .snapshot)
      (fun items after => after.Ready ∧ after.queue.items = items) world := by
  refine ForegroundSafe.operate World.Ready.lasting ready (fun _ _ _ => trivial) ?_
  intro now choice result after inv known answer
  cases answer
  exact ⟨.foreground_frame inv (.refl now), known, rfl⟩

theorem load_safe (items : List QueueItem) (stopped : world.Stopped) :
    ForegroundSafe (issue (.load items)) (fun _ after => after.Stopped ∧
      ∃ resolve, after.queue.items = (items.take queueMaxItems).map (loaded resolve)) world := by
  refine stoppedQueue_safe stopped (fun _ quiet => quiet) ?_
  intro now choice result after stopped answer
  cases answer
  exact ⟨rfl, rfl, rfl, stopped, choice.resolve, rfl⟩

theorem queueLoadItems_safe (items : List QueueItem) (stopped : world.Stopped) :
    ForegroundSafe (queueLoadItems items) (fun _ => World.Ready) world := by
  refine Safe.bind (load_safe items stopped) fun pending first ⟨stopped, _⟩ => ?_
  cases pending with
  | false => exact stopped.ready
  | true => exact ensureManagerStarted_safe stopped.ready

theorem queueBeginMappingEdit_safe (ready : world.Ready) :
    ForegroundSafe queueBeginMappingEdit (fun _ => World.Ready) world := by
  refine Safe.bind (ForegroundSafe.ask World.Ready.lasting rfl ready)
    fun unfinished first ready => ?_
  cases unfinished with
  | true => exact ready
  | false =>
  refine Safe.bind (stopManagerForTransition_safe ready) fun _ second stopped => ?_
  refine Safe.bind (ForegroundSafe.ask World.Stopped.lasting rfl stopped)
    fun unfinished third stopped => ?_
  cases unfinished with
  | true => exact stopped.ready
  | false =>
      exact (clearCheatRepoState_safe World.Stopped.lasting stopped
        (fun now inv stopped => .inl (inv.quiet_of_not_started stopped))
        fun _ stopped => stopped).mono fun _ _ stopped => stopped.ready

/-- Nothing is unfinished where the lists are freed, so that no thread has one of them. -/
theorem queueInvalidateCheatRepoState_safe (ready : world.Ready) :
    ForegroundSafe queueInvalidateCheatRepoState (fun _ => World.Ready) world := by
  refine Safe.bind (askNonTerminal_safe ready)
    fun unfinished first known => ?_
  cases unfinished with
  | true => exact known.1
  | false =>
      exact (clearCheatRepoState_safe (World.Ready.lasting.and World.Settled.lasting)
        ⟨known.1, known.2 rfl⟩ (fun _ _ known => .inr known.2) fun _ known => known).mono
        fun _ _ known => known.1

theorem call_safe (request : Request) (ready : world.Ready) :
    ForegroundSafe request.call (fun _ => World.Ready) world := by
  have ask : ∀ {action : Action}, action.asked = true →
      ForegroundSafe (issue action >>= fun _ => pure ()) (fun _ => World.Ready) world := by
    intro action asked
    exact Safe.bind (ForegroundSafe.ask World.Ready.lasting asked ready) fun _ _ ready => ready
  cases request with
  | add type request => exact queueAdd_safe type request ready
  | clearDone => exact clearDone_safe ready
  | cancelAll => exact queueCancelAll_safe ready
  | beginMappingEdit => exact queueBeginMappingEdit_safe ready
  | invalidateCheatRepoState => exact queueInvalidateCheatRepoState_safe ready
  | checkDirty => exact ask rfl
  | snapshot => exact ask rfl
  | getStats => exact ask rfl
  | isQueued romPath type => exact ask rfl
  | getRomStatus romPath type => exact ask rfl
  | isActive => exact ask rfl
  | background launched => exact ready

end Zlyme.Scrape
