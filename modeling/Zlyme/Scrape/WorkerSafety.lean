import Zlyme.Scrape.Keeping

/-! # The threads of the scrape queue are safe

Each thread that the queue creates keeps the discipline, whatever the others do between
two of its operations.
-/

namespace Zlyme.Scrape

open Foundation Foundation.Concurrent

variable {number : Nat} {routine : Routine} {before after world : World}

/-! ## What a thread knows -/

/-- The others leave it true. -/
def Stable (number : Nat) (facts : World → Prop) : Prop :=
  ∀ before after, ThreadRely number before after → facts before → facts after

theorem Stable.and {facts more : World → Prop} (stable : Stable number facts)
    (stableMore : Stable number more) : Stable number fun world => facts world ∧ more world :=
  fun before after relied holds =>
    ⟨stable before after relied holds.1, stableMore before after relied holds.2⟩

/-- The thread runs its start routine, and these are the threads that it has created and not
joined yet. -/
structure Mine (number : Nat) (routine : Routine) (children : List (Nat × Routine))
    (world : World) : Prop where
  live : world.LiveAs number routine
  alive : ∀ child pthread, world.Has child pthread → pthread.creator = .created number →
    pthread.returned = false → (child, pthread.routine) ∈ children
  unjoined : ∀ entry ∈ children, ∃ pthread, world.Has entry.1 pthread ∧
    pthread.creator = .created number ∧ pthread.joined = false
  nodup : (children.map Prod.fst).Nodup

variable {children : List (Nat × Routine)}

theorem Mine.stable : Stable number (Mine number routine children) := by
  intro before after relied mine
  refine ⟨relied.liveAs mine.live, fun child pthread has isChild alive => ?_,
    fun entry member => ?_, mine.nodup⟩
  · rcases relied.children child pthread has isChild with ⟨old, there, -⟩
    rcases relied.kept child old there with ⟨new, found, sameRoutine, sameCreator, returned⟩
    cases found.unique has
    have wasAlive : old.returned = false := by
      by_contra hasReturned
      rw [Bool.not_eq_false] at hasReturned
      rw [returned hasReturned] at alive
      cases alive
    rw [sameRoutine]
    exact mine.alive child old there (sameCreator.symm.trans isChild) wasAlive
  · rcases mine.unjoined entry member with ⟨old, there, isChild, unjoined⟩
    rcases relied.kept entry.1 old there with ⟨new, found, -, sameCreator, -⟩
    rcases relied.children entry.1 new found (sameCreator.trans isChild) with ⟨same, here, joined⟩
    cases here.unique there
    exact ⟨new, found, sameCreator.trans isChild, joined.symm.trans unjoined⟩

theorem Mine.congr (mine : Mine number routine children before)
    (same : after.pthreads = before.pthreads) : Mine number routine children after where
  live := (World.liveAs_congr same).mpr mine.live
  alive child pthread has := mine.alive child pthread ((World.has_congr same).mp has)
  unjoined entry member := by
    rcases mine.unjoined entry member with ⟨pthread, has, rest⟩
    exact ⟨pthread, (World.has_congr same).mpr has, rest⟩
  nodup := mine.nodup

theorem Mine.joined_of_not_mem (mine : Mine number routine children world) {other : Routine}
    (none : ∀ entry ∈ children, entry.2 ≠ other) : world.Joined number other := by
  intro child pthread has isChild isRoutine
  by_contra alive
  rw [Bool.not_eq_true] at alive
  exact none _ (mine.alive child pthread has isChild alive) isRoutine

/-- The thread has claimed the item at an index. -/
def Holds (number index : Nat) (item : QueueItem) (world : World) : Prop :=
  world.claims index = some ⟨.created number, item⟩

theorem Holds.stable {index : Nat} {item : QueueItem} : Stable number (Holds number index item) :=
  fun _ _ relied holds => (relied.claims index _ holds rfl).1

theorem Holds.mayWrite {index : Nat} {item : QueueItem} (holds : Holds number index item world)
    (inv : Inv world) : MayWrite world number routine index := by
  rcases (inv.claims index _ holds).item with ⟨held, there, active, sameJob⟩
  exact ⟨held, there, active.1, .inl ⟨item, holds, sameJob⟩⟩

/-- The list that the thread holds is not freed while it has an item. -/
theorem stable_cached {index : Nat} {item : QueueItem} {list : ListRef} {dir : Bytes} :
    Stable number fun world => Holds number index item world ∧ world.Cached list dir := by
  intro before after relied ⟨holds, epoch, slot⟩
  rcases relied.repo ⟨index, _, holds, rfl⟩ with ⟨sameEpoch, lists, isAfter⟩
  refine ⟨Holds.stable before after relied holds, epoch.trans sameEpoch.symm, ?_⟩
  rw [← isAfter, List.getElem?_append_left (List.getElem?_eq_some_iff.mp slot).1]
  exact slot

/-! ## Rules -/

abbrev ThreadSafe (number : Nat) {α : Type} : Program α → (α → World → Prop) → World → Prop :=
  Safe perform discipline Guard (.created number)

/-- The rule of an operation, from facts that the others leave true. -/
theorem ThreadSafe.operate {action : Action} {facts : World → Prop}
    {post : action.Result → World → Prop} (stable : Stable number facts) (holds : facts world)
    (notBegin : action ≠ .begin)
    (guarded : ∀ now, Inv now → facts now →
      ∃ routine, now.LiveAs number routine ∧ ThreadGuard now number routine action)
    (operates : ∀ now choice result after, Inv now → facts now →
      perform (.created number) action choice now = some (result, after) →
        Keeps (.created number) now after ∧ post result after) :
    ThreadSafe number (issue action) post world := by
  refine Safe.issue fun now inv relied => ?_
  have known := stable world now relied holds
  refine ⟨?_, fun choice result after answer => operates now choice result after inv known answer⟩
  cases action
  case begin => exact absurd rfl notBegin
  all_goals exact guarded now inv known

/-- The operation changes nothing that the others rely on. -/
def Action.looks : Action → Bool
  | .loadInterrupt | .managerShouldRun | .hasIdleItems | .idleTypes | .endManager => true
  | .findNextCheatIndex | .idleIndices _ | .takeIndex _ | .storeNextIndex _ _ => true
  | .readIndex _ _ | .buildTypes | .allocateWorkers | .search _ | .download _ => true
  | .cheatRepoIsReady | .cheatExists _ | .buildRegionTypes | .matchCheat _ _ => true
  | .copyCheatFile _ _ | .managerStarted | .hasNonTerminal | .hasUnfinishedWork => true
  | .storeInterrupt _ | .checkDirty | .snapshot | .getStats | .isQueued _ _ => true
  | .getRomStatus _ _ | .stopRunning | .readCommand | .serialize _ | .cleanupAll => true
  | _ => false

theorem setWork_indices {type : ItemType} {work : Work}
    (same : work.indices = (world.work type).indices) (other : ItemType) :
    ((world.setWork type work).work other).indices = (world.work other).indices := by
  by_cases isType : other = type
  · subst isType
    rw [World.setWork_work_self, same]
  · rw [World.setWork_work_of_ne _ isType]

theorem Frame.of_looks {who : ThreadId} {action : Action} (looks : action.looks = true)
    {choice : Choice} {result : action.Result}
    (answer : perform who action choice before = some (result, after)) : Frame before after := by
  cases action <;> try cases looks
  case takeIndex type =>
    cases answer
    exact ⟨rfl, rfl, rfl, rfl, rfl, rfl, setWork_indices rfl⟩
  case storeNextIndex type value =>
    cases answer
    exact ⟨rfl, rfl, rfl, rfl, rfl, rfl, setWork_indices rfl⟩
  case serialize items =>
    rw [perform] at answer
    split at answer <;>
      · cases answer
        exact ⟨rfl, rfl, rfl, rfl, rfl, rfl, fun _ => rfl⟩
  all_goals
    cases answer
    exact ⟨rfl, rfl, rfl, rfl, rfl, rfl, fun _ => rfl⟩

/-- The rule of an operation that changes nothing of the kind. -/
theorem ThreadSafe.look {action : Action} {facts : World → Prop} (stable : Stable number facts)
    (looks : action.looks = true) (holds : facts world)
    (guarded : ∀ now, Inv now → facts now →
      ∃ routine, now.LiveAs number routine ∧ ThreadGuard now number routine action) :
    ThreadSafe number (issue action) (fun _ after => facts after) world := by
  refine ThreadSafe.operate stable holds (by rintro rfl; cases looks) guarded ?_
  intro now choice result after inv known answer
  have frame := Frame.of_looks looks answer
  rcases guarded now inv known with ⟨routine, live, -⟩
  exact ⟨.thread_frame inv live frame, stable now after (.frame frame) known⟩

/-- What nobody has to be allowed. -/
def Action.free : Action → Bool
  | .loadInterrupt | .managerShouldRun | .hasIdleItems | .idleTypes | .endManager => true
  | .findNextCheatIndex | .idleIndices _ | .takeIndex _ | .storeNextIndex _ _ => true
  | .buildTypes | .allocateWorkers | .search _ | .download _ => true
  | .cheatRepoIsReady | .cheatExists _ | .buildRegionTypes => true
  | _ => false

theorem ThreadSafe.ask {action : Action} {facts : World → Prop} (stable : Stable number facts)
    (free : action.free = true) (holds : facts world)
    (live : ∀ now, facts now → now.LiveAs number routine) :
    ThreadSafe number (issue action) (fun _ after => facts after) world := by
  refine ThreadSafe.look stable ?_ holds fun now _ known => ⟨routine, live now known, ?_⟩
  · cases action <;> trivial
  · cases action <;> trivial

theorem Mine.ask (mine : Mine number routine children world) {action : Action}
    (free : action.free = true) :
    ThreadSafe number (issue action) (fun _ => Mine number routine children) world :=
  ThreadSafe.ask Mine.stable free mine fun _ known => known.live

/-- The thread asks with an item in hand. -/
theorem Mine.askHolding (mine : Mine number routine children world) {index : Nat}
    {item : QueueItem} (holds : Holds number index item world) {action : Action}
    (free : action.free = true) :
    ThreadSafe number (issue action) (fun _ after =>
      Mine number routine children after ∧ Holds number index item after) world :=
  ThreadSafe.ask (Mine.stable.and Holds.stable) free ⟨mine, holds⟩ fun _ known => known.1.live

/-- The rule of a claim. -/
theorem Mine.claimItem (mine : Mine number routine children world) {index : Nat}
    {type : ItemType} {next : ItemStatus}
    (fits : routine = .manager ∨ routine = workerRoutine type)
    (active : isTerminalStatus next = false ∧ next ≠ .idle) :
    ThreadSafe number (issue (.claimItem index type next)) (fun claimed after =>
      Mine number routine children after ∧
        ∀ item, claimed = some item → Holds number index item after) world := by
  refine ThreadSafe.operate Mine.stable mine (by simp)
    (fun now _ known => ⟨routine, known.live, fits, active⟩) ?_
  intro now choice result after inv known answer
  rw [perform, Option.some.injEq] at answer
  have same : after = (now.claim (.created number) index (now.queue.claimItem index type next)).2 :=
    congrArg Prod.snd answer.symm
  have claimed : result = (now.claim (.created number) index
      (now.queue.claimItem index type next)).1 := congrArg Prod.fst answer.symm
  subst same claimed
  refine ⟨.claim inv known.live fits active, ?_⟩
  rcases now.queue.claimItem index type next with ⟨_ | item, queue⟩
  · exact ⟨known.congr rfl, fun item none => by cases none⟩
  · refine ⟨known.congr rfl, fun item isItem => ?_⟩
    cases isItem
    exact Function.update_self ..

/-- What the write of an item leaves to the thread that has claimed it. -/
theorem Mine.write (inv : Inv before) (mine : Mine number routine children before) {index : Nat}
    {item : QueueItem} (holds : Holds number index item before) {status : ItemStatus}
    {change : QueueItem → QueueItem} (notIdle : status ≠ .idle)
    (sets : ∀ item, (change item).status = status ∧ (change item).job = item.job)
    (isAfter : after = before.write index status (before.queue.modify index change)) :
    Keeps (.created number) before after ∧ Mine number routine children after ∧
      (isTerminalStatus status = false → Holds number index item after) := by
  subst isAfter
  refine ⟨.write inv mine.live (holds.mayWrite inv) notIdle sets, mine.congr rfl, ?_⟩
  intro goesOn
  rw [Holds, World.write, goesOn]
  exact holds

theorem Mine.setItemStatus (mine : Mine number routine children world) {index : Nat}
    {item : QueueItem} (holds : Holds number index item world) {status : ItemStatus}
    (notIdle : status ≠ .idle) :
    ThreadSafe number (issue (.setItemStatus index status)) (fun _ after =>
      Mine number routine children after ∧
        (isTerminalStatus status = false → Holds number index item after)) world := by
  refine ThreadSafe.operate (Mine.stable.and Holds.stable) ⟨mine, holds⟩ (by simp)
    (fun now inv known => ⟨routine, known.1.live, known.2.mayWrite inv, notIdle⟩) ?_
  intro now choice result after inv known answer
  cases answer
  exact known.1.write inv known.2 notIdle (fun item => ⟨rfl, item.job_withStatus status⟩) rfl

theorem Mine.setItemError (mine : Mine number routine children world) {index : Nat}
    {item : QueueItem} (holds : Holds number index item world) {status : ItemStatus}
    (message : Bytes) (notIdle : status ≠ .idle) :
    ThreadSafe number (issue (.setItemError index status message)) (fun _ after =>
      Mine number routine children after) world := by
  refine ThreadSafe.operate (Mine.stable.and Holds.stable) ⟨mine, holds⟩ (by simp)
    (fun now inv known => ⟨routine, known.1.live, known.2.mayWrite inv, notIdle⟩) ?_
  intro now choice result after inv known answer
  cases answer
  rcases known.1.write inv known.2 notIdle (fun item => ⟨rfl, item.job_withError status message⟩)
    rfl with ⟨keeps, mine, -⟩
  exact ⟨keeps, mine⟩

/-! ## Workers -/

/-- What a loop leaves after a round, whether it goes on or not. -/
abbrev afterRound (facts : World → Prop) : Unit ⊕ Unit → World → Prop :=
  fun result after => result.elim (fun _ => facts after) (fun _ => facts after)

theorem workerRound_safe {type : ItemType} (notCheat : type ≠ .cheat)
    (mine : Mine number (workerRoutine type) [] world) :
    ThreadSafe number (workerRound type)
      (afterRound (Mine number (workerRoutine type) [])) world := by
  refine Safe.bind (mine.ask rfl) fun interrupted first mine => ?_
  cases interrupted with
  | true => exact mine
  | false =>
  refine Safe.bind (mine.ask rfl) fun runs second mine => ?_
  cases runs with
  | false => exact mine
  | true =>
  refine Safe.bind (mine.ask rfl) fun batchIndex third mine => ?_
  refine Safe.bind (ThreadSafe.look Mine.stable rfl mine fun now inv known =>
    ⟨_, known.live, inv.work number type notCheat known.live⟩) fun queueIndex fourth mine => ?_
  cases queueIndex with
  | none => exact mine
  | some queueIndex =>
  refine Safe.bind (mine.claimItem (.inr rfl) ⟨rfl, by simp⟩) fun claimed fifth known => ?_
  cases claimed with
  | none => exact known.1
  | some item =>
  refine Safe.bind (known.1.askHolding (known.2 item rfl) rfl) fun found sixth ⟨mine, holds⟩ => ?_
  cases found with
  | interrupted => exact mine
  | notFound =>
      exact Safe.bind (mine.setItemStatus holds (by simp)) fun _ after wrote => wrote.1
  | failed message =>
      exact Safe.bind (mine.setItemError holds message (by simp)) fun _ after mine => mine
  | found maxThreads =>
  refine Safe.bind (mine.setItemStatus holds (by simp)) fun _ seventh wrote => ?_
  refine Safe.bind (wrote.1.askHolding (wrote.2 rfl) rfl) fun downloaded eighth ⟨mine, holds⟩ => ?_
  cases downloaded with
  | interrupted => exact mine
  | done => exact Safe.bind (mine.setItemStatus holds (by simp)) fun _ after wrote => wrote.1
  | failed message =>
      exact Safe.bind (mine.setItemError holds message (by simp)) fun _ after mine => mine

theorem workerFn_safe {type : ItemType} (notCheat : type ≠ .cheat) (rounds : Nat)
    (mine : Mine number (workerRoutine type) [] world) :
    ThreadSafe number (workerFn type rounds) (fun _ => Mine number (workerRoutine type) [])
      world :=
  Safe.loop (fun _ => Mine number (workerRoutine type) [])
    (fun _ _ known => workerRound_safe notCheat known) rounds mine

/-! ## Cheats -/

section Cheats

variable {index : Nat} {item : QueueItem}

theorem withoutList_safe (mine : Mine number .cheatThread [] world)
    (holds : Holds number index item world) :
    ThreadSafe number (processCheatItem.withoutList index item)
      (fun _ => Mine number .cheatThread []) world := by
  refine Safe.bind (mine.askHolding holds rfl) fun interrupted after ⟨mine, holds⟩ => ?_
  cases interrupted with
  | true => exact mine
  | false => exact mine.setItemError holds _ (by simp)

/-- While the thread has its item, the list is not freed. -/
theorem withList_safe {list : ListRef} (mine : Mine number .cheatThread [] world)
    (holds : Holds number index item world) (cached : world.Cached list item.cheatDir) :
    ThreadSafe number (processCheatItem.withList index item list)
      (fun _ => Mine number .cheatThread []) world := by
  let facts : World → Prop := fun world => Mine number .cheatThread [] world ∧
    Holds number index item world ∧ world.Cached list item.cheatDir
  have stable : Stable number facts := Mine.stable.and stable_cached
  have wrote : ThreadSafe number (issue (.setItemStatus index .matching))
      (fun _ => facts) world := by
    refine ThreadSafe.operate stable ⟨mine, holds, cached⟩ (by simp)
      (fun now inv known => ⟨_, known.1.live, known.2.1.mayWrite inv, by simp⟩) ?_
    intro now choice result after inv known answer
    cases answer
    rcases known.1.write inv known.2.1 (by decide : ItemStatus.matching ≠ .idle)
      (fun item => ⟨rfl, item.job_withStatus .matching⟩) rfl with ⟨keeps, mine, holds⟩
    exact ⟨keeps, mine, holds rfl, known.2.2⟩
  refine Safe.bind wrote fun _ first known => ?_
  refine Safe.bind (ThreadSafe.ask stable rfl known fun _ known => known.1.live)
    fun built second known => ?_
  cases built with
  | false => exact known.1.setItemError known.2.1 _ (by simp)
  | true =>
  refine Safe.bind (ThreadSafe.look stable rfl known fun now _ known =>
    ⟨_, known.1.live, known.2.2⟩) fun found third known => ?_
  cases found with
  | false =>
      exact (known.1.setItemStatus known.2.1 (by simp)).mono fun _ _ wrote => wrote.1
  | true =>
  refine Safe.bind (ThreadSafe.look stable rfl known fun now _ known =>
    ⟨_, known.1.live, known.2.2⟩) fun copied fourth known => ?_
  cases copied with
  | true => exact (known.1.setItemStatus known.2.1 (by simp)).mono fun _ _ wrote => wrote.1
  | false => exact known.1.setItemError known.2.1 _ (by simp)

theorem download_safe (mine : Mine number .cheatThread [] world)
    (holds : Holds number index item world) :
    ThreadSafe number (processCheatItem.download index item)
      (fun _ => Mine number .cheatThread []) world := by
  have built : ThreadSafe number (issue (.ensureCheatList item.cheatDir)) (fun list after =>
      Mine number .cheatThread [] after ∧ Holds number index item after ∧
        ∀ ref, list = some ref → after.Cached ref item.cheatDir) world := by
    refine ThreadSafe.operate (Mine.stable.and Holds.stable) ⟨mine, holds⟩ (by simp)
      (fun now inv known => ⟨_, known.1.live, trivial⟩) ?_
    intro now choice result after inv known answer
    rw [perform, Option.some.injEq] at answer
    cases answer
    exact ⟨.ensureCheatList inv known.1.live choice item.cheatDir, known.1.congr rfl, known.2,
      fun ref isRef => CheatRepo.ensure_some isRef⟩
  refine Safe.bind built fun list first ⟨mine, holds, cached⟩ => ?_
  cases list with
  | none => exact withoutList_safe mine holds
  | some list =>
  refine Safe.bind (ThreadSafe.ask (Mine.stable.and stable_cached) rfl
    ⟨mine, holds, cached list rfl⟩ fun _ known => known.1.live) fun interrupted second known => ?_
  cases interrupted with
  | true => exact withoutList_safe known.1 known.2.1
  | false => exact withList_safe known.1 known.2.1 known.2.2

end Cheats

theorem processCheatItem_safe (mine : Mine number .cheatThread [] world) (index : Nat) :
    ThreadSafe number (processCheatItem index) (fun _ => Mine number .cheatThread []) world := by
  refine Safe.bind (mine.ask rfl) fun ready first mine => ?_
  refine Safe.bind (mine.claimItem (.inr rfl) (by cases ready <;> simp [isTerminalStatus]))
    fun claimed second known => ?_
  cases claimed with
  | none => exact known.1
  | some item =>
  have holds := known.2 item rfl
  dsimp only
  split
  · exact known.1.setItemError holds _ (by simp)
  · split
    · exact download_safe known.1 holds
    · refine Safe.bind (known.1.askHolding holds rfl) fun found third ⟨mine, holds⟩ => ?_
      cases found with
      | true => exact (mine.setItemStatus holds (by simp)).mono fun _ _ wrote => wrote.1
      | false => exact download_safe mine holds

theorem cheatThreadFn_safe (rounds : Nat) (mine : Mine number .cheatThread [] world) :
    ThreadSafe number (cheatThreadFn rounds) (fun _ => Mine number .cheatThread []) world := by
  refine Safe.loop (fun _ => Mine number .cheatThread []) (fun _ between mine => ?_) rounds mine
  refine Safe.bind (mine.ask rfl) fun interrupted first mine => ?_
  cases interrupted with
  | true => exact mine
  | false =>
  refine Safe.bind (mine.ask rfl) fun index second mine => ?_
  cases index with
  | none => exact mine
  | some index => exact Safe.bind (processCheatItem_safe mine index) fun _ _ mine => mine

end Zlyme.Scrape
