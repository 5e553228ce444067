import Zlyme.Scrape.WorkerSafety

/-! # The manager of the scrape queue is safe

The manager starts workers on a batch and joins them before it frees the batch, and it
returns with no thread of its own left.
-/

namespace Zlyme.Scrape

open Foundation Foundation.Concurrent

variable {number : Nat} {before after world : World} {children : List (Nat × Routine)}

/-! ## Children -/

theorem Mine.create {routine : Routine} (mine : Mine number routine children before)
    (created : Routine) : Mine number routine (children ++ [(before.pthreads.length, created)])
      (before.create (.created number) created) where
  live := mine.live.create _ created
  alive child pthread has isChild alive := by
    rcases World.has_create.mp has with old | ⟨rfl, rfl⟩
    · exact List.mem_append_left _ (mine.alive child pthread old isChild alive)
    · exact List.mem_append_right _ (List.mem_singleton.mpr rfl)
  unjoined entry member := by
    rcases List.mem_append.mp member with old | new
    · rcases mine.unjoined entry old with ⟨pthread, has, rest⟩
      exact ⟨pthread, World.has_create.mpr (.inl has), rest⟩
    · cases List.mem_singleton.mp new
      exact ⟨_, World.has_create.mpr (.inr ⟨rfl, rfl⟩), rfl, rfl⟩
  nodup := by
    rw [List.map_append, List.nodup_append]
    refine ⟨mine.nodup, List.nodup_singleton _, fun child member other new => ?_⟩
    cases List.mem_singleton.mp new
    rcases List.mem_map.mp member with ⟨entry, isEntry, rfl⟩
    rcases mine.unjoined entry isEntry with ⟨pthread, has, -⟩
    exact Nat.ne_of_lt (List.getElem?_eq_some_iff.mp has).1

theorem Mine.join {routine : Routine} {front back : List (Nat × Routine)} {entry : Nat × Routine}
    (mine : Mine number routine (front ++ entry :: back) before) {pthread : Pthread}
    (has : before.Has entry.1 pthread) (returned : pthread.returned = true) :
    Mine number routine (front ++ back) (before.joined entry.1) where
  live := World.liveAs_joined.mpr mine.live
  alive child new found isChild alive := by
    rcases World.has_joined found with ⟨old, there, sameRoutine, sameCreator, same, -⟩
    rw [same] at alive
    rw [sameRoutine]
    have member := mine.alive child old there (sameCreator.symm.trans isChild) alive
    rw [List.mem_append, List.mem_cons] at member
    rcases member with inFront | isEntry | inBack
    · exact List.mem_append_left _ inFront
    · have isTarget : child = entry.1 := congrArg Prod.fst isEntry
      subst isTarget
      rw [has.unique there, alive] at returned
      cases returned
    · exact List.mem_append_right _ inBack
  unjoined other member := by
    have nodup := mine.nodup
    rw [List.map_append, List.map_cons, List.nodup_middle, List.nodup_cons,
      ← List.map_append] at nodup
    have isOther : entry.1 ≠ other.1 := by
      intro same
      exact nodup.1 (same ▸ List.mem_map_of_mem member)
    have isChild : other ∈ front ++ entry :: back := by
      rw [List.mem_append, List.mem_cons]
      rcases List.mem_append.mp member with inFront | inBack
      · exact .inl inFront
      · exact .inr (.inr inBack)
    rcases mine.unjoined other isChild with ⟨pthread, there, rest⟩
    refine ⟨pthread, World.has_modify.mpr ⟨pthread, there, ?_⟩, rest⟩
    rw [if_neg isOther]
  nodup := by
    have nodup := mine.nodup
    rw [List.map_append, List.map_cons, List.nodup_middle, List.nodup_cons] at nodup
    rw [List.map_append]
    exact nodup.2

theorem Mine.joinThread {front back : List (Nat × Routine)} {entry : Nat × Routine}
    {routine : Routine} (mine : Mine number routine (front ++ entry :: back) world) :
    ThreadSafe number (issue (.join entry.1))
      (fun _ => Mine number routine (front ++ back)) world := by
  have isChild : entry ∈ front ++ entry :: back :=
    List.mem_append_right _ List.mem_cons_self
  refine ThreadSafe.operate Mine.stable mine (by simp)
    (fun now _ known => ⟨routine, known.live, known.unjoined entry isChild⟩) ?_
  intro now choice result after inv known answer
  rw [perform] at answer
  rcases Option.map_eq_some_iff.mp answer with ⟨joined, isJoined, same⟩
  rcases World.join_some isJoined with ⟨⟨pthread, has, returned⟩, rfl⟩
  cases same
  rcases known.unjoined entry isChild with ⟨child, there, created, -⟩
  exact ⟨.join inv known.live there created, known.join has returned⟩

/-! ## Batches -/

section Batch

variable {type : ItemType}

/-- Nobody has taken these items yet. -/
def Waiting (type : ItemType) (indices : List Nat) (world : World) : Prop :=
  ∀ index ∈ indices, ∃ item, world.queue.items[index]? = some item ∧ item.type = type ∧
    item.status = .idle

/-- While the manager has no workers of a kind, nobody else takes an item of the kind. -/
theorem Waiting.stable {indices : List Nat}
    (none : ∀ entry ∈ children, entry.2 ≠ workerRoutine type) :
    Stable number fun world => Mine number .manager children world ∧
      Waiting type indices world := by
  intro before after relied ⟨mine, waiting⟩
  refine ⟨Mine.stable before after relied mine, fun index member => ?_⟩
  rcases waiting index member with ⟨item, there, isType, isIdle⟩
  have joined := mine.joined_of_not_mem none
  rw [← isType] at joined
  exact ⟨item, (relied.idle mine.live index item there isIdle joined).1, isType, isIdle⟩

theorem idleIndices_waiting (queue : Queue) (type : ItemType) :
    ∀ index ∈ queue.idleIndices type, ∃ item, queue.items[index]? = some item ∧
      item.type = type ∧ item.status = .idle := by
  intro index member
  rcases List.mem_findIdxs_iff_exists_getElem_pos.mp member with ⟨inside, fits⟩
  rw [Bool.and_eq_true, beq_iff_eq, beq_iff_eq] at fits
  exact ⟨_, List.getElem?_eq_getElem inside, fits⟩

theorem idleIndices_safe (mine : Mine number .manager children world) :
    ThreadSafe number (issue (.idleIndices type)) (fun indices after =>
      Mine number .manager children after ∧ ∀ batch, indices = some batch →
        batch.Nodup ∧ Waiting type batch after) world := by
  refine ThreadSafe.operate Mine.stable mine (by simp)
    (fun now _ known => ⟨_, known.live, trivial⟩) ?_
  intro now choice result after inv known answer
  rw [perform, Option.some.injEq] at answer
  cases answer
  refine ⟨.thread_frame inv known.live (.refl now), known, fun batch isBatch => ?_⟩
  split at isBatch
  · cases isBatch
    exact ⟨List.nodup_findIdxs, idleIndices_waiting now.queue type⟩
  · cases isBatch

theorem closeWork_safe (mine : Mine number .manager children world)
    (none : ∀ entry ∈ children, entry.2 ≠ workerRoutine type) :
    ThreadSafe number (issue (.closeWork type)) (fun _ => Mine number .manager children) world := by
  refine ThreadSafe.operate Mine.stable mine (by simp)
    (fun now _ known => ⟨_, known.live, rfl, known.joined_of_not_mem none⟩) ?_
  intro now choice result after inv known answer
  cases answer
  exact ⟨.setWork inv known.live (.inr (known.joined_of_not_mem none)), known.congr rfl⟩

/-- The items of a batch without settings are marked one by one. -/
theorem failItems_safe (none : ∀ entry ∈ children, entry.2 ≠ workerRoutine type)
    {indices : List Nat} (nodup : indices.Nodup) (message : Bytes)
    (mine : Mine number .manager children world) (waiting : Waiting type indices world) :
    ThreadSafe number
      (Concurrent.each (fun index => issue (.setItemError index .error message)) indices)
      (fun _ => Mine number .manager children) world := by
  refine Safe.each (fun rest world => rest.Nodup ∧ Mine number .manager children world ∧
    Waiting type rest world) ?_ (fun _ holds => holds.2.1) indices ⟨nodup, mine, waiting⟩
  intro index rest between ⟨nodup, mine, waiting⟩
  have mayWrite : ∀ now, Inv now → Mine number .manager children now →
      Waiting type (index :: rest) now → MayWrite now number .manager index := by
    intro now inv mine waiting
    rcases waiting index List.mem_cons_self with ⟨item, there, isType, isIdle⟩
    refine ⟨item, there, QueueItem.unfinished_of_idle isIdle,
      .inr ⟨rfl, isIdle, inv.no_claim_of_idle there isIdle, ?_⟩⟩
    rw [isType]
    exact mine.joined_of_not_mem none
  refine ThreadSafe.operate (Waiting.stable none) ⟨mine, waiting⟩ (by simp)
    (fun now inv known => ⟨_, known.1.live, mayWrite now inv known.1 known.2, by simp⟩) ?_
  intro now choice result after inv known answer
  cases answer
  refine ⟨.write inv known.1.live (mayWrite now inv known.1 known.2) (by decide)
    fun item => ⟨rfl, item.job_withError .error message⟩, (List.nodup_cons.mp nodup).2,
    known.1.congr rfl, fun other member => ?_⟩
  rcases known.2 other (List.mem_cons_of_mem _ member) with ⟨item, there, fits⟩
  have isOther : index ≠ other := by
    rintro rfl
    exact (List.nodup_cons.mp nodup).1 member
  refine ⟨item, ?_, fits⟩
  rw [World.write, Queue.setItemError, Queue.modify_getElem?, if_neg isOther]
  exact there

theorem first_safe (mine : Mine number .manager children world) (index : Nat) :
    ThreadSafe number (processBatch.first type index)
      (fun _ => Mine number .manager children) world := by
  refine Safe.bind (mine.claimItem (.inl rfl) ⟨rfl, by simp⟩) fun claimed first known => ?_
  cases claimed with
  | none => exact known.1
  | some item =>
  refine Safe.bind (known.1.askHolding (known.2 item rfl) rfl) fun found second ⟨mine, holds⟩ => ?_
  cases found with
  | interrupted => exact mine
  | notFound =>
      exact Safe.bind (mine.setItemStatus holds (by simp)) fun _ after wrote => wrote.1
  | failed message =>
      exact Safe.bind (mine.setItemError holds message (by simp)) fun _ after mine => mine
  | found maxThreads =>
  refine Safe.bind (mine.setItemStatus holds (by simp)) fun _ third wrote => ?_
  refine Safe.bind (wrote.1.askHolding (wrote.2 rfl) rfl) fun downloaded fourth ⟨mine, holds⟩ => ?_
  cases downloaded with
  | interrupted =>
      exact Safe.bind (mine.setItemError holds _ (by simp)) fun _ after mine => mine
  | done => exact Safe.bind (mine.setItemStatus holds (by simp)) fun _ after wrote => wrote.1
  | failed message =>
      exact Safe.bind (mine.setItemError holds message (by simp)) fun _ after mine => mine

/-- The workers of a batch, as children of the manager. -/
abbrev workersOf (type : ItemType) (started : List Nat) : List (Nat × Routine) :=
  started.map fun thread => (thread, workerRoutine type)

/-- The batch stays open while the manager is at it. -/
def Opened (type : ItemType) (world : World) : Prop :=
  (world.work type).indices.isSome = true

theorem Opened.stable : Stable number fun world => Mine number .manager children world ∧
    Opened type world := by
  intro before after relied ⟨mine, isOpen⟩
  refine ⟨Mine.stable before after relied mine, ?_⟩
  rw [Opened, relied.work mine.live]
  exact isOpen

theorem start_safe (count : Nat) {started : List Nat}
    (mine : Mine number .manager (children ++ workersOf type started) world)
    (isOpen : Opened type world) :
    ThreadSafe number (processBatch.start type count started)
      (fun started => Mine number .manager (children ++ workersOf type started)) world := by
  induction count generalizing started world with
  | zero => exact mine
  | succ count induction =>
      have created : ThreadSafe number (issue (.create (workerRoutine type))) (fun thread after =>
          Opened type after ∧ Mine number .manager (children ++ workersOf type
            (started ++ thread.toList)) after) world := by
        have onlyWorkers : ∀ now, Opened type now → ∀ other, other ≠ .cheat →
            workerRoutine type = workerRoutine other →
              (now.work other).indices.isSome = true := by
          intro now isOpen other _ same
          have isType : type = other := by
            cases type <;> cases other <;> first | rfl | cases same
          exact isType ▸ isOpen
        have notManager : workerRoutine type ≠ .manager := by
          cases type <;> simp [workerRoutine]
        refine ThreadSafe.operate Opened.stable ⟨mine, isOpen⟩ (by simp)
          (fun now _ known => ⟨_, known.1.live, rfl, notManager, onlyWorkers now known.2⟩) ?_
        intro now choice result after inv known answer
        rw [perform] at answer
        split at answer
        · cases answer
          refine ⟨.create inv known.1.live notManager (onlyWorkers now known.2), known.2, ?_⟩
          have more := known.1.create (workerRoutine type)
          rw [List.append_assoc] at more
          rw [Option.toList_some, workersOf, List.map_append]
          exact more
        · cases answer
          rw [Option.toList_none, List.append_nil]
          exact ⟨.thread_frame inv known.1.live (.refl now), known.2, known.1⟩
      refine Safe.bind created fun thread after known => ?_
      cases thread with
      | none =>
          rw [Option.toList_none, List.append_nil] at known
          exact known.2
      | some thread => exact induction known.2 known.1

theorem openWork_safe (none : ∀ entry ∈ children, entry.2 ≠ workerRoutine type)
    {indices : List Nat} (mine : Mine number .manager children world)
    (waiting : Waiting type indices world) :
    ThreadSafe number (issue (.openWork type indices)) (fun _ after =>
      Mine number .manager children after ∧ Waiting type indices after ∧ Opened type after)
      world := by
  refine ThreadSafe.operate (Waiting.stable none) ⟨mine, waiting⟩ (by simp)
    (fun now _ known => ⟨_, known.1.live, rfl⟩) ?_
  intro now choice result after inv known answer
  cases answer
  refine ⟨.setWork inv known.1.live (.inl rfl), known.1.congr rfl, known.2, ?_⟩
  rw [Opened, World.setWork_work_self]
  rfl

theorem storeNextIndex_safe (mine : Mine number .manager children world)
    (isOpen : Opened type world) (next : Nat) :
    ThreadSafe number (issue (.storeNextIndex type next)) (fun _ after =>
      Mine number .manager children after ∧ Opened type after) world := by
  refine ThreadSafe.operate Opened.stable ⟨mine, isOpen⟩ (by simp)
    (fun now _ known => ⟨_, known.1.live, trivial⟩) ?_
  intro now choice result after inv known answer
  have frame := Frame.of_looks rfl answer
  refine ⟨.thread_frame inv known.1.live frame, known.1.congr frame.pthreads, ?_⟩
  rw [Opened, frame.work]
  exact known.2

/-- What the manager does to the first item of a batch leaves the batch open. -/
def Action.onItem : Action → Prop
  | .claimItem _ _ _ | .setItemStatus _ _ | .setItemError _ _ _ => True
  | .search _ | .download _ => True
  | _ => False

theorem first_only (index : Nat) : (processBatch.first type index).Only Action.onItem := by
  refine Script.only_bind (Script.only_issue trivial) fun claimed => ?_
  cases claimed with
  | none => trivial
  | some item =>
  refine Script.only_bind (Script.only_issue trivial) fun found => ?_
  cases found with
  | interrupted => trivial
  | notFound => exact Script.only_bind (Script.only_issue trivial) fun _ => trivial
  | failed message => exact Script.only_bind (Script.only_issue trivial) fun _ => trivial
  | found maxThreads =>
  refine Script.only_bind (Script.only_issue trivial) fun _ => ?_
  refine Script.only_bind (Script.only_issue trivial) fun downloaded => ?_
  cases downloaded <;> exact Script.only_bind (Script.only_issue trivial) fun _ => trivial

theorem onItem_same {who : ThreadId} {action : Action} (onItem : action.onItem) {choice : Choice}
    {result : action.Result} (answer : perform who action choice before = some (result, after)) :
    after.pthreads = before.pthreads ∧ after.work = before.work := by
  cases action <;> try cases onItem
  case claimItem index type next =>
    rw [perform, Option.some.injEq] at answer
    rcases claimed : before.queue.claimItem index type next with ⟨_ | item, queue⟩
    all_goals
      rw [claimed] at answer
      cases answer
      exact ⟨rfl, rfl⟩
  all_goals
    cases answer
    exact ⟨rfl, rfl⟩

theorem first_keeps_open (mine : Mine number .manager children world)
    (isOpen : Opened type world) (index : Nat) :
    ThreadSafe number (processBatch.first type index)
      (fun _ after => Mine number .manager children after ∧ Opened type after) world := by
  have stable : ∀ before after, ThreadRely number before after →
      before.LiveAs number .manager ∧ Opened type before →
        after.LiveAs number .manager ∧ Opened type after := by
    intro before after relied ⟨live, isOpen⟩
    refine ⟨relied.liveAs live, ?_⟩
    rw [Opened, relied.work live]
    exact isOpen
  have framed : ThreadSafe number (processBatch.first type index) (fun _ after =>
      Mine number .manager children after ∧ after.LiveAs number .manager ∧ Opened type after)
      world := by
    refine (first_safe mine index).frame (first_only index) _ stable ?_ ⟨mine.live, isOpen⟩
    intro action onItem before choice result after answer ⟨live, isOpen⟩
    rcases onItem_same onItem answer with ⟨pthreads, work⟩
    refine ⟨(World.liveAs_congr pthreads).mpr live, ?_⟩
    rw [Opened, work]
    exact isOpen
  exact framed.mono fun _ _ known => ⟨known.1, known.2.2⟩

theorem workers_safe (count : Nat) (mine : Mine number .manager children world)
    (isOpen : Opened type world) :
    ThreadSafe number (processBatch.workers type count)
      (fun _ => Mine number .manager children) world := by
  refine Safe.bind (ThreadSafe.ask Opened.stable rfl ⟨mine, isOpen⟩ fun _ known => known.1.live)
    fun allocated first known => ?_
  cases allocated with
  | false => exact known.1
  | true =>
  have none : Mine number .manager (children ++ workersOf type []) first := by
    rw [workersOf, List.map_nil, List.append_nil]
    exact known.1
  refine Safe.bind (start_safe count none known.2) fun started second mine => ?_
  refine Safe.each (fun rest => Mine number .manager (children ++ workersOf type rest))
    (fun thread rest between mine => ?_) (fun between mine => ?_) started mine
  · exact mine.joinThread
  · rw [workersOf, List.map_nil, List.append_nil] at mine
    exact mine

theorem processBatch_safe (settingsError : Bytes)
    (none : ∀ entry ∈ children, entry.2 ≠ workerRoutine type)
    (mine : Mine number .manager children world) :
    ThreadSafe number (processBatch type settingsError)
      (fun _ => Mine number .manager children) world := by
  refine Safe.bind (idleIndices_safe mine) fun indices first known => ?_
  rcases known with ⟨mine, known⟩
  rcases indices with _ | _ | ⟨index, rest⟩
  · exact mine
  · exact mine
  rcases known _ rfl with ⟨nodup, waiting⟩
  refine Safe.bind (ThreadSafe.ask (Waiting.stable none) rfl ⟨mine, waiting⟩
    fun _ known => known.1.live) fun built second known => ?_
  refine Safe.bind (openWork_safe none known.1 known.2) fun _ third known => ?_
  rcases known with ⟨mine, waiting, isOpen⟩
  cases built with
  | false =>
      exact Safe.bind (failItems_safe none nodup settingsError mine waiting)
        fun _ after mine => closeWork_safe mine none
  | true =>
  refine Safe.bind (first_keeps_open mine isOpen index) fun maxThreads fourth known => ?_
  refine Safe.bind (storeNextIndex_safe known.1 known.2 1) fun _ fifth known => ?_
  split
  · exact closeWork_safe known.1 none
  · refine Safe.bind (ThreadSafe.ask Opened.stable rfl known fun _ known => known.1.live)
      fun interrupted sixth known => ?_
    cases interrupted with
    | true => exact closeWork_safe known.1 none
    | false =>
        exact Safe.bind (workers_safe _ known.1 known.2)
          fun _ after mine => closeWork_safe mine none

end Batch

/-! ## The manager -/

theorem unlessInterrupted_safe (wanted : Bool) {part : Program Unit}
    (mine : Mine number .manager children world)
    (safe : ∀ between, Mine number .manager children between →
      ThreadSafe number part (fun _ => Mine number .manager children) between) :
    ThreadSafe number (unlessInterrupted wanted part)
      (fun _ => Mine number .manager children) world := by
  cases wanted with
  | false => exact mine
  | true =>
  refine Safe.bind (mine.ask rfl) fun interrupted after mine => ?_
  cases interrupted with
  | true => exact mine
  | false => exact safe after mine

/-- The cheat thread, as a child of the manager. -/
abbrev cheatChild (thread : Option Nat) : List (Nat × Routine) :=
  thread.toList.map fun thread => (thread, .cheatThread)

theorem startCheatThread_safe (wanted : Bool) (mine : Mine number .manager [] world) :
    ThreadSafe number (startCheatThread wanted)
      (fun thread => Mine number .manager (cheatChild thread)) world := by
  cases wanted with
  | false => exact mine
  | true =>
  refine Safe.bind (mine.ask rfl) fun interrupted after mine => ?_
  cases interrupted with
  | true => exact mine
  | false =>
  have onlyCheats : ∀ now : World, ∀ other : ItemType, other ≠ .cheat →
      Routine.cheatThread = workerRoutine other → (now.work other).indices.isSome = true := by
    intro now other notCheat same
    cases other <;> first | exact absurd rfl notCheat | cases same
  refine ThreadSafe.operate Mine.stable mine (by simp)
    (fun now _ known => ⟨_, known.live, rfl, by simp, onlyCheats now⟩) ?_
  intro now choice result after inv known answer
  rw [perform] at answer
  split at answer
  · cases answer
    exact ⟨.create inv known.live (by simp) (onlyCheats now), known.create .cheatThread⟩
  · cases answer
    exact ⟨.thread_frame inv known.live (.refl now), known⟩

theorem managerRound_safe (mine : Mine number .manager [] world) :
    ThreadSafe number managerRound (afterRound (Mine number .manager [])) world := by
  refine Safe.bind (mine.ask rfl) fun runs first mine => ?_
  cases runs with
  | false => exact mine
  | true =>
  refine Safe.bind (mine.ask rfl) fun interrupted second mine => ?_
  cases interrupted with
  | true => exact mine
  | false =>
  refine Safe.bind (mine.ask rfl) fun hasIdle third mine => ?_
  cases hasIdle with
  | false => exact mine
  | true =>
  refine Safe.bind (mine.ask rfl) fun types fourth mine => ?_
  refine Safe.bind (startCheatThread_safe types.2.1 mine) fun cheatThread fifth mine => ?_
  have notWorker : ∀ type, type ≠ .cheat → ∀ entry ∈ cheatChild cheatThread,
      entry.2 ≠ workerRoutine type := by
    intro type notCheat entry member
    rcases List.mem_map.mp member with ⟨thread, -, rfl⟩
    cases type <;> first | exact absurd rfl notCheat | simp [workerRoutine]
  refine Safe.bind (unlessInterrupted_safe types.1 mine fun _ mine =>
    processBatch_safe _ (notWorker .artwork (by simp)) mine) fun _ sixth mine => ?_
  refine Safe.bind (unlessInterrupted_safe types.2.2 mine fun _ mine =>
    processBatch_safe _ (notWorker .manual (by simp)) mine) fun _ seventh mine => ?_
  cases cheatThread with
  | none => exact mine
  | some thread =>
      have only : Mine number .manager ([] ++ (thread, .cheatThread) :: []) seventh := mine
      exact Safe.bind only.joinThread fun _ after mine => mine

theorem managerThreadFn_safe (rounds : Nat) (mine : Mine number .manager [] world) :
    ThreadSafe number (managerThreadFn rounds) (fun _ => Mine number .manager []) world := by
  refine Safe.bind (Safe.loop (fun _ => Mine number .manager [])
    (fun _ _ known => managerRound_safe known) rounds mine) fun _ after mine => ?_
  exact mine.ask rfl

/-! ## Threads that may be created -/

/-- The thread has not begun. -/
structure Unborn (number : Nat) (world : World) : Prop where
  childless : ∀ child pthread, world.Has child pthread → pthread.creator ≠ .created number
  alive : ∀ pthread, world.Has number pthread → pthread.returned = false

theorem Unborn.stable : Stable number (Unborn number) := by
  intro before after relied unborn
  refine ⟨fun child pthread has isChild => ?_, fun pthread has => ?_⟩
  · rcases relied.children child pthread has isChild with ⟨old, there, -⟩
    rcases relied.kept child old there with ⟨new, found, -, sameCreator, -⟩
    cases found.unique has
    exact unborn.childless child old there (sameCreator.symm.trans isChild)
  · by_contra returned
    rw [Bool.not_eq_false] at returned
    rcases relied.own pthread has returned with ⟨old, there, wasReturned⟩
    rw [unborn.alive old there] at wasReturned
    cases wasReturned

theorem begin_safe (unborn : Unborn number world) :
    ThreadSafe number (issue .begin) (fun routine => Mine number routine []) world := by
  refine Safe.issue fun now inv relied => ⟨trivial, fun choice result after answer => ?_⟩
  have known := Unborn.stable world now relied unborn
  rw [perform] at answer
  rcases Option.map_eq_some_iff.mp answer with ⟨pthread, has, same⟩
  cases same
  have live : now.LiveAs number pthread.routine := ⟨pthread, has, known.alive pthread has, rfl⟩
  refine ⟨Keeps.thread_frame inv live (.refl now), live, fun child other there isChild => ?_,
    fun entry member => ?_, List.nodup_nil⟩
  · exact absurd isChild (known.childless child other there)
  · cases member

theorem return_safe {routine : Routine} (mine : Mine number routine [] world) :
    ThreadSafe number (issue .return) (fun _ _ => True) world := by
  have joined : ∀ now, Mine number routine [] now → ∀ child pthread, now.Has child pthread →
      pthread.creator = .created number → pthread.returned = true := by
    intro now known child pthread has isChild
    by_contra alive
    rw [Bool.not_eq_true] at alive
    cases known.alive child pthread has isChild alive
  refine ThreadSafe.operate Mine.stable mine (by simp)
    (fun now _ known => ⟨routine, known.live, joined now known⟩) ?_
  intro now choice result after inv known answer
  cases answer
  exact ⟨.finish inv known.live (joined now known), trivial⟩

/-- A thread keeps the discipline from its creation to its return. -/
theorem createdThread_safe (rounds : Nat) (unborn : Unborn number world) :
    ThreadSafe number (createdThread rounds) (fun _ _ => True) world := by
  refine Safe.bind (begin_safe unborn) fun routine first mine => ?_
  refine Safe.bind (?_ : ThreadSafe number (startRoutine rounds routine)
    (fun _ => Mine number routine []) first) fun _ _ mine => return_safe mine
  cases routine with
  | manager => exact managerThreadFn_safe rounds mine
  | artworkWorker => exact workerFn_safe (by decide : ItemType.artwork ≠ .cheat) rounds mine
  | manualWorker => exact workerFn_safe (by decide : ItemType.manual ≠ .cheat) rounds mine
  | cheatThread => exact cheatThreadFn_safe rounds mine

end Zlyme.Scrape
