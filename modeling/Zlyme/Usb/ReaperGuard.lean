import Mathlib.Data.List.Nodup
import Zlyme.Usb.Reaper

/-! # Every session has its reaper

A start that returns 0 leaves a reaper that watches its group and that the
generation file names, as long as a reused reaper is one the file names.
-/

namespace Zlyme.Usb

open Foundation.Execution

namespace Lifecycle

variable {usb : Lifecycle} {group : Group}

/-! ## Guards -/

/-- The leader a start was made under is gone. -/
def LeaderGone (usb : Lifecycle) (group : Group) : Prop :=
  ∀ start, group.leader = some start → usb.leaders group.id ≠ some start

/-- A reaper that has left the group, watches its leader and owns the generation. -/
structure Guards (usb : Lifecycle) (group : Group) (reaper : Reaper) : Prop where
  up : reaper.phase = .watching ∨ reaper.phase = .woken
  watch : reaper.watch = group.id
  leader : group.leader = some reaper.start ∨
    (group.leader = none ∧ usb.leaders reaper.watch ≠ some reaper.start)
  generation : usb.generation = some reaper.gen

def Guarded (usb : Lifecycle) (group : Group) : Prop :=
  ∃ reaper ∈ usb.reapers, Guards usb group reaper

/-- Two more steps of a reaper whose generation matches run the cleanup. -/
def WillReap (usb : Lifecycle) : Prop :=
  ∃ index reaper, usb.reapers[index]? = some reaper ∧ reaper.phase ≠ .gone ∧
    usb.generation = some reaper.gen ∧ ∀ pgid left,
      (run step usb [.reaper index pgid left, .reaper index pgid left]).reaped = true

/-- The last start returned 0 and no stop came since: once the leader is gone,
and not before, a reaper runs the cleanup. -/
structure Reaps (usb : Lifecycle) : Prop where
  afterDeath : ∀ group, usb.lastStart = some group → usb.LeaderGone group →
    usb.reaped = true ∨ usb.WillReap
  notBefore : ∀ group, usb.lastStart = some group → usb.reaped = true → usb.LeaderGone group

/-! ## The condition -/

/-- A start that reuses a reaper, or takes the process group of one, has its own
reaper: one that watches its leader under the generation of the file. -/
def OwnReaper (usb : Lifecycle) : UsbStep → Prop
  | .start group fault _ => usb.starting = none → fault ≠ some .check →
      usb.reusable group = true → usb.Guarded ⟨group, usb.leaders group⟩
  | .poll true => ∀ group, usb.starting = some ⟨group, .polling⟩ → usb.Guarded group
  | _ => True

/-! ## The books -/

/-- Start times and generations are each given out once. -/
structure Books (usb : Lifecycle) : Prop where
  leaderOld : ∀ id start, usb.leaders id = some start → start < usb.births
  reaperOld : ∀ reaper ∈ usb.reapers, reaper.start < usb.births
  genOld : ∀ reaper ∈ usb.reapers, reaper.gen < usb.starts
  genOwn : (usb.reapers.map Reaper.gen).Nodup
  woken : ∀ reaper ∈ usb.reapers, reaper.phase = .woken →
    usb.leaders reaper.watch ≠ some reaper.start

theorem Books.initial : Books .initial where
  leaderOld _ _ isLeader := nomatch isLeader
  reaperOld _ member := nomatch member
  genOld _ member := nomatch member
  genOwn := List.nodup_nil
  woken _ member := nomatch member

/-- A gone leader does not come back under a new one. -/
theorem leaderBorn_ne {id start : Nat} (old : start < usb.births)
    (notLeader : usb.leaders id ≠ some start) (born : Nat) :
    (usb.step (.leaderBorn born)).leaders id ≠ some start := by
  rw [step]
  split
  · exact notLeader
  · simp only
    split
    · intro same
      exact absurd (Option.some.inj same) (Nat.ne_of_gt old)
    · exact notLeader

theorem leaderGone_ne {id start : Nat} (notLeader : usb.leaders id ≠ some start) (gone : Nat) :
    (usb.step (.leaderGone gone)).leaders id ≠ some start := by
  simp only [step]
  split
  · exact nofun
  · exact notLeader

theorem Books.leaderBorn (books : Books usb) (born : Nat) :
    Books (usb.step (.leaderBorn born)) := by
  rw [step]
  split
  · exact books
  · exact {
      leaderOld := by
        intro id start isLeader
        simp only at isLeader ⊢
        split at isLeader
        · cases isLeader
          exact Nat.lt_succ_self _
        · exact Nat.lt_succ_of_lt (books.leaderOld id start isLeader)
      reaperOld := fun reaper member => Nat.lt_succ_of_lt (books.reaperOld reaper member)
      genOld := books.genOld
      genOwn := books.genOwn
      woken := by
        intro reaper member isWoken
        have back := leaderBorn_ne (books.reaperOld reaper member)
          (books.woken reaper member isWoken) born
        rwa [step, if_neg ‹_›] at back }

theorem Books.leaderGone (books : Books usb) (gone : Nat) :
    Books (usb.step (.leaderGone gone)) where
  leaderOld := by
    intro id start isLeader
    simp only [step] at isLeader
    split at isLeader
    · cases isLeader
    · exact books.leaderOld id start isLeader
  reaperOld := books.reaperOld
  genOld := books.genOld
  genOwn := books.genOwn
  woken reaper member isWoken := leaderGone_ne (books.woken reaper member isWoken) gone

theorem Books.congr {other : Lifecycle} (books : Books usb)
    (leaders : other.leaders = usb.leaders) (births : other.births = usb.births)
    (reapers : other.reapers = usb.reapers) (starts : other.starts = usb.starts) :
    Books other where
  leaderOld := by rw [leaders, births]; exact books.leaderOld
  reaperOld := by rw [reapers, births]; exact books.reaperOld
  genOld := by rw [reapers, starts]; exact books.genOld
  genOwn := by rw [reapers]; exact books.genOwn
  woken := by rw [reapers, leaders]; exact books.woken

/-- One more start, with a reaper or without. -/
theorem Books.anotherStart (books : Books usb) :
    Books { usb with starts := usb.starts + 1, lastStart := none } where
  leaderOld := books.leaderOld
  reaperOld := books.reaperOld
  genOld reaper member := Nat.lt_succ_of_lt (books.genOld reaper member)
  genOwn := books.genOwn
  woken := books.woken

theorem Books.startBegin (books : Books usb) (group : Nat) (fault : Option StartFault)
    (pid : Nat) : Books (usb.startBegin group fault pid) := by
  have another := books.anotherStart
  unfold Lifecycle.startBegin
  simp only
  split
  · exact another.congr rfl rfl rfl rfl
  split
  · exact another.congr rfl rfl rfl rfl
  split
  · exact another.congr rfl rfl rfl rfl
  split
  · exact another.congr rfl rfl rfl rfl
  split
  · exact another.congr rfl rfl rfl rfl
  rename_i start isLeader
  split
  · exact another.congr rfl rfl rfl rfl
  · exact {
      leaderOld := another.leaderOld
      reaperOld := by
        intro reaper member
        rcases List.mem_append.mp member with earlier | new
        · exact another.reaperOld reaper earlier
        · cases List.mem_singleton.mp new
          exact books.leaderOld group start isLeader
      genOld := by
        intro reaper member
        rcases List.mem_append.mp member with earlier | new
        · exact another.genOld reaper earlier
        · cases List.mem_singleton.mp new
          exact Nat.lt_succ_self _
      genOwn := by
        rw [List.map_append, List.map_singleton]
        refine List.nodup_append.mpr ⟨another.genOwn, List.nodup_singleton _, ?_⟩
        intro gen earlier other new same
        rcases List.mem_map.mp earlier with ⟨reaper, member, rfl⟩
        cases List.mem_singleton.mp new
        exact Nat.ne_of_lt (books.genOld reaper member) same
      woken := by
        intro reaper member isWoken
        rcases List.mem_append.mp member with earlier | new
        · exact another.woken reaper earlier isWoken
        · cases List.mem_singleton.mp new
          cases isWoken }

/-! ## One reaper goes on -/

section Reaper

variable {index : Nat} {reaper : Reaper} {phase : ReaperPhase}

/-- Another reaper stays in the list as it was. -/
theorem mem_setReaper (phase : ReaperPhase) (found : usb.reapers[index]? = some reaper) {other : Reaper}
    (member : other ∈ usb.reapers) :
    other = reaper ∨ other ∈ (usb.setReaper index reaper phase).reapers := by
  rcases List.mem_iff_getElem?.mp member with ⟨place, isOther⟩
  by_cases same : place = index
  · subst same
    exact .inl (Option.some.inj (isOther.symm.trans found))
  · right
    refine List.mem_iff_getElem?.mpr ⟨place, ?_⟩
    rw [setReaper, List.getElem?_set_ne (Ne.symm same)]
    exact isOther

theorem mem_setReaper_self (found : usb.reapers[index]? = some reaper) :
    { reaper with phase := phase } ∈ (usb.setReaper index reaper phase).reapers := by
  rcases List.getElem?_eq_some_iff.mp found with ⟨inside, _⟩
  exact List.mem_set inside _

/-- Every reaper after the step was there before, but for the phase of one. -/
theorem of_mem_setReaper (found : usb.reapers[index]? = some reaper) {other : Reaper}
    (member : other ∈ (usb.setReaper index reaper phase).reapers) :
    other ∈ usb.reapers ∨ (reaper ∈ usb.reapers ∧ other = { reaper with phase := phase }) := by
  rcases List.mem_or_eq_of_mem_set member with earlier | same
  · exact .inl earlier
  · exact .inr ⟨List.mem_of_getElem? found, same⟩

theorem setReaper_gens (found : usb.reapers[index]? = some reaper) :
    (usb.setReaper index reaper phase).reapers.map Reaper.gen = usb.reapers.map Reaper.gen := by
  rcases List.getElem?_eq_some_iff.mp found with ⟨inside, rfl⟩
  rw [setReaper, List.map_set]
  apply List.ext_getElem?
  intro place
  by_cases same : place = index
  · subst same
    simp [inside]
  · rw [List.getElem?_set_ne (Ne.symm same)]

theorem Books.setReaper (books : Books usb) (found : usb.reapers[index]? = some reaper)
    (wakes : phase = .woken → usb.leaders reaper.watch ≠ some reaper.start) :
    Books (usb.setReaper index reaper phase) where
  leaderOld := books.leaderOld
  reaperOld other member := by
    rcases of_mem_setReaper found member with earlier | ⟨earlier, rfl⟩
    · exact books.reaperOld other earlier
    · exact books.reaperOld reaper earlier
  genOld other member := by
    rcases of_mem_setReaper found member with earlier | ⟨earlier, rfl⟩
    · exact books.genOld other earlier
    · exact books.genOld reaper earlier
  genOwn := (setReaper_gens found).symm ▸ books.genOwn
  woken other member isWoken := by
    rcases of_mem_setReaper found member with earlier | ⟨_, rfl⟩
    · exact books.woken other earlier isWoken
    · exact wakes isWoken

end Reaper

theorem Books.reap (books : Books usb) {index : Nat} {reaper : Reaper}
    (found : usb.reapers[index]? = some reaper) (pgid : Option Nat) (left : Bool) :
    Books (usb.reap index reaper pgid left) := by
  unfold Lifecycle.reap
  split
  · refine (books.setReaper found ?_).congr rfl rfl rfl rfl
    exact nofun
  · refine (books.setReaper found ?_).congr rfl rfl rfl rfl
    exact nofun
  · split
    · exact books.setReaper found nofun
    · refine (books.setReaper found ?_).congr rfl rfl rfl rfl
      split <;> exact nofun
  · split
    · exact books
    · exact books.setReaper found fun _ => ‹_›
  · split
    · exact books
    split
    · refine (books.setReaper found ?_).congr rfl rfl rfl rfl
      exact nofun
    · exact books.setReaper found nofun
  · exact books

theorem Books.step (books : Books usb) (label : UsbStep) : Books (usb.step label) := by
  cases label with
  | leaderBorn born => exact books.leaderBorn born
  | leaderGone gone => exact books.leaderGone gone
  | start group fault pid =>
      rw [Lifecycle.step]
      split
      · exact books
      · exact books.startBegin group fault pid
  | poll ok =>
      simp only [Lifecycle.step]
      split
      · unfold pollEnd
        repeat' split
        all_goals exact books.congr rfl rfl rfl rfl
      · exact books
  | finish result =>
      simp only [Lifecycle.step]
      split
      · cases result <;> simp only [startFinish]
        · split <;> exact books.congr rfl rfl rfl rfl
        all_goals exact books.congr rfl rfl rfl rfl
      · exact books
  | killed left =>
      rw [Lifecycle.step]
      split <;> exact books.congr rfl rfl rfl rfl
  | stop left =>
      rw [Lifecycle.step]
      split
      · exact books
      · simp only [cmdStop]
        split <;> exact books.congr rfl rfl rfl rfl
  | linkWake responder left =>
      rw [Lifecycle.step]
      split
      · exact books
      · rw [linkRound]
        split <;> exact books.congr rfl rfl rfl rfl
  | reaper index pgid left =>
      simp only [Lifecycle.step]
      split
      · exact books
      · exact books.reap ‹_› pgid left

/-! ## The watch -/

/-- Every session that a start returned 0 for is guarded or reaped. -/
structure Watch (usb : Lifecycle) : Prop where
  building : ∀ group, usb.starting = some ⟨group, .building⟩ → usb.Guarded group
  idle : usb.lastStart.isSome = true → usb.starting = none
  startingOld : ∀ starting, usb.starting = some starting →
    ∀ start, starting.group.leader = some start → start < usb.births
  lastOld : ∀ group, usb.lastStart = some group →
    ∀ start, group.leader = some start → start < usb.births
  guarded : ∀ group, usb.lastStart = some group → usb.reaped = false → usb.Guarded group
  reaped : ∀ group, usb.lastStart = some group → usb.reaped = true → usb.LeaderGone group

/-- Without a start that owes a cleanup there is nothing to watch. -/
theorem Watch.of_none (noStarting : usb.starting = none) (noLast : usb.lastStart = none) :
    Watch usb where
  building _ isStarting := nomatch noStarting.symm.trans isStarting
  idle _ := noStarting
  startingOld _ isStarting := nomatch noStarting.symm.trans isStarting
  lastOld _ isLast := nomatch noLast.symm.trans isLast
  guarded _ isLast := nomatch noLast.symm.trans isLast
  reaped _ isLast := nomatch noLast.symm.trans isLast

theorem Watch.lastStart_none (watch : Watch usb) {starting : Starting}
    (isStarting : usb.starting = some starting) : usb.lastStart = none := by
  cases isLast : usb.lastStart with
  | none => rfl
  | some group =>
      have idle := watch.idle (by rw [isLast]; rfl)
      rw [idle] at isStarting
      cases isStarting

/-- Guards of a state whose reapers, leaders and generation are the same. -/
theorem Guarded.congr {other : Lifecycle} (guarded : usb.Guarded group)
    (leaders : other.leaders = usb.leaders) (reapers : other.reapers = usb.reapers)
    (generation : other.generation = usb.generation) : other.Guarded group := by
  rcases guarded with ⟨reaper, member, guards⟩
  refine ⟨reaper, reapers ▸ member, guards.up, guards.watch, ?_, generation ▸ guards.generation⟩
  rw [leaders]
  exact guards.leader

theorem LeaderGone.congr {other : Lifecycle} (gone : usb.LeaderGone group)
    (leaders : other.leaders = usb.leaders) : other.LeaderGone group := by
  rw [LeaderGone, leaders]
  exact gone

/-- A step that touches no reaper, leader, generation or start. -/
theorem Watch.congr {other : Lifecycle} (watch : Watch usb)
    (leaders : other.leaders = usb.leaders) (births : other.births = usb.births)
    (reapers : other.reapers = usb.reapers) (generation : other.generation = usb.generation)
    (starting : other.starting = usb.starting) (lastStart : other.lastStart = usb.lastStart)
    (reaped : other.reaped = usb.reaped) : Watch other where
  building group isStarting :=
    (watch.building group (starting ▸ isStarting)).congr leaders reapers generation
  idle := by rw [lastStart, starting]; exact watch.idle
  startingOld := by rw [starting, births]; exact watch.startingOld
  lastOld := by rw [lastStart, births]; exact watch.lastOld
  guarded group isLast notReaped :=
    (watch.guarded group (lastStart ▸ isLast) (reaped ▸ notReaped)).congr leaders reapers generation
  reaped group isLast isReaped :=
    (watch.reaped group (lastStart ▸ isLast) (reaped ▸ isReaped)).congr leaders

/-- A leader that comes or goes leaves every guard in place. -/
theorem Guarded.newLeaders (books : Books usb) {other : Lifecycle} (guarded : usb.Guarded group)
    (reapers : other.reapers = usb.reapers) (generation : other.generation = usb.generation)
    (back : ∀ id start, start < usb.births → usb.leaders id ≠ some start →
      other.leaders id ≠ some start) : other.Guarded group := by
  rcases guarded with ⟨reaper, member, guards⟩
  refine ⟨reaper, reapers ▸ member, guards.up, guards.watch, ?_, generation ▸ guards.generation⟩
  rcases guards.leader with same | ⟨none, gone⟩
  · exact .inl same
  · exact .inr ⟨none, back _ _ (books.reaperOld reaper member) gone⟩

theorem Watch.newLeaders (books : Books usb) (watch : Watch usb) {other : Lifecycle}
    (births : usb.births ≤ other.births) (reapers : other.reapers = usb.reapers)
    (generation : other.generation = usb.generation) (starting : other.starting = usb.starting)
    (lastStart : other.lastStart = usb.lastStart) (reaped : other.reaped = usb.reaped)
    (back : ∀ id start, start < usb.births → usb.leaders id ≠ some start →
      other.leaders id ≠ some start) : Watch other where
  building group isStarting :=
    (watch.building group (starting ▸ isStarting)).newLeaders books reapers generation back
  idle := by rw [lastStart, starting]; exact watch.idle
  startingOld one isStarting start isLeader :=
    Nat.lt_of_lt_of_le (watch.startingOld one (starting ▸ isStarting) start isLeader) births
  lastOld group isLast start isLeader :=
    Nat.lt_of_lt_of_le (watch.lastOld group (lastStart ▸ isLast) start isLeader) births
  guarded group isLast notReaped :=
    (watch.guarded group (lastStart ▸ isLast) (reaped ▸ notReaped)).newLeaders books reapers
      generation back
  reaped group isLast isReaped start isLeader :=
    back _ _ (watch.lastOld group (lastStart ▸ isLast) start isLeader)
      (watch.reaped group (lastStart ▸ isLast) (reaped ▸ isReaped) start isLeader)

theorem Watch.leaderBorn (books : Books usb) (watch : Watch usb) (born : Nat) :
    Watch (usb.step (.leaderBorn born)) := by
  cases taken : (usb.leaders born).isSome with
  | true =>
      have same : usb.step (.leaderBorn born) = usb := if_pos taken
      exact same.symm ▸ watch
  | false =>
      have back (id start : Nat) (old : start < usb.births)
          (notLeader : usb.leaders id ≠ some start) := leaderBorn_ne old notLeader born
      rw [step, if_neg (Bool.eq_false_iff.mp taken)] at *
      exact watch.newLeaders books (Nat.le_succ _) rfl rfl rfl rfl rfl back

theorem Watch.leaderGone (books : Books usb) (watch : Watch usb) (gone : Nat) :
    Watch (usb.step (.leaderGone gone)) :=
  watch.newLeaders books (Nat.le_refl _) rfl rfl rfl rfl rfl
    fun _ _ _ notLeader => leaderGone_ne notLeader gone

/-- A start that goes on to build, with nothing owed for earlier ones. -/
theorem Watch.of_building (isStarting : usb.starting = some ⟨group, .building⟩)
    (noLast : usb.lastStart = none) (guarded : usb.Guarded group)
    (old : ∀ start, group.leader = some start → start < usb.births) : Watch usb where
  building other same := by
    cases Option.some.inj (isStarting.symm.trans same)
    exact guarded
  idle isLast := by rw [noLast] at isLast; cases isLast
  startingOld starting same := by
    cases Option.some.inj (isStarting.symm.trans same)
    exact old
  lastOld _ isLast := nomatch noLast.symm.trans isLast
  guarded _ isLast := nomatch noLast.symm.trans isLast
  reaped _ isLast := nomatch noLast.symm.trans isLast

theorem Watch.startBegin (books : Books usb) {id : Nat} {fault : Option StartFault} {pid : Nat}
    (own : fault ≠ some .check → usb.reusable id = true → usb.Guarded ⟨id, usb.leaders id⟩) :
    Watch (usb.startBegin id fault pid) := by
  unfold Lifecycle.startBegin
  simp only
  split
  · exact .of_none rfl rfl
  rename_i checked
  split
  · exact .of_none rfl rfl
  split
  · rename_i reused
    exact .of_building rfl rfl ((own checked reused).congr rfl rfl rfl) (books.leaderOld id)
  split
  · exact .of_none rfl rfl
  split
  · exact .of_none rfl rfl
  split
  · exact .of_none rfl rfl
  · exact {
      building := fun _ same => nomatch same
      idle := fun isLast => nomatch isLast
      startingOld := by
        intro starting same
        cases same
        exact books.leaderOld id
      lastOld := fun _ isLast => nomatch isLast
      guarded := fun _ isLast => nomatch isLast
      reaped := fun _ isLast => nomatch isLast }

theorem Watch.pollEnd (watch : Watch usb) (isStarting : usb.starting = some ⟨group, .polling⟩)
    {ok : Bool} (own : ok = true → usb.Guarded group) : Watch (usb.pollEnd group ok) := by
  rw [Lifecycle.pollEnd]
  cases ok with
  | false => exact .of_none rfl rfl
  | true =>
      rw [if_pos rfl]
      split
      · exact watch
      split
      · exact watch
      · exact .of_building rfl (watch.lastStart_none isStarting)
          ((own rfl).congr rfl rfl rfl) (watch.startingOld _ isStarting)

theorem Watch.startFinish (watch : Watch usb)
    (isStarting : usb.starting = some ⟨group, .building⟩) (result : StartEnd) :
    Watch (usb.startFinish group result) := by
  have returned (other : Lifecycle) (leaders : other.leaders = usb.leaders)
      (births : other.births = usb.births) (reapers : other.reapers = usb.reapers)
      (generation : other.generation = usb.generation) : Watch (other.startReturned group) := {
    building := fun _ same => nomatch same
    idle := fun _ => rfl
    startingOld := fun _ same => nomatch same
    lastOld := by
      intro last same
      cases Option.some.inj same
      exact births.symm ▸ watch.startingOld _ isStarting
    guarded := by
      intro last same _
      cases Option.some.inj same
      exact (watch.building group isStarting).congr leaders reapers generation
    reaped := fun _ _ isReaped => nomatch isReaped }
  cases result with
  | already =>
      rw [Lifecycle.startFinish]
      split
      · exact returned usb rfl rfl rfl rfl
      · exact watch
  | built => exact returned _ rfl rfl rfl rfl
  | failed left => exact .of_none rfl rfl

section Reaper

variable {index : Nat} {reaper : Reaper} {phase : ReaperPhase}

/-- A reaper that goes on keeps its guard as long as it still watches. -/
theorem Guarded.setReaper (guarded : usb.Guarded group)
    (found : usb.reapers[index]? = some reaper)
    (keeps : Guards usb group reaper → phase = .watching ∨ phase = .woken) :
    (usb.setReaper index reaper phase).Guarded group := by
  rcases guarded with ⟨other, member, guards⟩
  rcases mem_setReaper phase found member with rfl | stays
  · exact ⟨_, mem_setReaper_self found, keeps guards, guards.watch, guards.leader,
      guards.generation⟩
  · exact ⟨other, stays, guards.up, guards.watch, guards.leader, guards.generation⟩

theorem Watch.setReaper (watch : Watch usb) (found : usb.reapers[index]? = some reaper)
    (keeps : ∀ group, Guards usb group reaper → phase = .watching ∨ phase = .woken) :
    Watch (usb.setReaper index reaper phase) where
  building group isStarting := (watch.building group isStarting).setReaper found (keeps group)
  idle := watch.idle
  startingOld := watch.startingOld
  lastOld := watch.lastOld
  guarded group isLast notReaped :=
    (watch.guarded group isLast notReaped).setReaper found (keeps group)
  reaped := watch.reaped

/-- The generation names one reaper. -/
theorem Books.gen_inj (books : Books usb) {first second : Reaper} (isFirst : first ∈ usb.reapers)
    (isSecond : second ∈ usb.reapers) (same : first.gen = second.gen) : first = second :=
  List.inj_on_of_nodup_map books.genOwn isFirst isSecond same

/-- The cleanup of a reaper that owns the generation comes after its leader. -/
theorem Watch.reaped_of_woken (books : Books usb) (watch : Watch usb) (isReaper : reaper ∈ usb.reapers)
    (woken : reaper.phase = .woken) (owns : usb.generation = some reaper.gen)
    (isLast : usb.lastStart = some group) : usb.LeaderGone group := by
  cases isReaped : usb.reaped with
  | true => exact watch.reaped group isLast isReaped
  | false =>
      rcases watch.guarded group isLast isReaped with ⟨other, member, guards⟩
      have same : other = reaper := books.gen_inj member isReaper
        (Option.some.inj (guards.generation.symm.trans owns))
      subst same
      intro start isLeader
      rcases guards.leader with under | ⟨none, _⟩
      · rw [← guards.watch, Option.some.inj (isLeader.symm.trans under)]
        exact books.woken other member woken
      · rw [none] at isLeader
        cases isLeader

theorem Watch.reap (books : Books usb) (watch : Watch usb)
    (found : usb.reapers[index]? = some reaper) (pgid : Option Nat) (left : Bool) :
    Watch (usb.reap index reaper pgid left) := by
  unfold Lifecycle.reap
  split
  case h_1 begun =>
    refine (watch.setReaper found fun group guards => ?_).congr rfl rfl rfl rfl rfl rfl rfl
    rcases guards.up with up | up <;> rw [begun] at up <;> cases up
  case h_2 written =>
    refine (watch.setReaper found fun group guards => ?_).congr rfl rfl rfl rfl rfl rfl rfl
    rcases guards.up with up | up <;> rw [written] at up <;> cases up
  case h_3 written =>
    have down (group : Group) (guards : Guards usb group reaper) : False := by
      rcases guards.up with up | up <;> rw [written] at up <;> cases up
    split
    · exact watch.setReaper found fun group guards => (down group guards).elim
    · exact (watch.setReaper found fun group guards => (down group guards).elim).congr
        rfl rfl rfl rfl rfl rfl rfl
  case h_4 =>
    split
    · exact watch
    · exact watch.setReaper found fun _ _ => .inr rfl
  case h_5 woken =>
    split
    · exact watch
    rename_i unlocked
    have noStarting : usb.starting = none := by simpa using unlocked
    split
    · rename_i owns
      have gone (group : Group) (isLast : usb.lastStart = some group) : usb.LeaderGone group :=
        watch.reaped_of_woken books (List.mem_of_getElem? found) woken owns isLast
      exact {
        building := fun _ same => nomatch noStarting.symm.trans same
        idle := fun _ => noStarting
        startingOld := fun _ same => nomatch noStarting.symm.trans same
        lastOld := watch.lastOld
        guarded := fun _ _ notReaped => nomatch notReaped
        reaped := fun group isLast _ => (gone group isLast).congr rfl }
    · rename_i other
      exact watch.setReaper found fun group guards => absurd guards.generation other
  case h_6 => exact watch

end Reaper

theorem Watch.step (books : Books usb) (watch : Watch usb) (label : UsbStep)
    (own : usb.OwnReaper label) : Watch (usb.step label) := by
  cases label with
  | leaderBorn born => exact watch.leaderBorn books born
  | leaderGone gone => exact watch.leaderGone books gone
  | start id fault pid =>
      rw [Lifecycle.step]
      split
      · exact watch
      · rename_i unlocked
        have noStarting : usb.starting = none := by simpa using unlocked
        exact .startBegin books (own noStarting)
  | poll ok =>
      simp only [Lifecycle.step]
      split
      · rename_i isStarting
        refine watch.pollEnd isStarting fun isOk => ?_
        subst isOk
        exact own _ isStarting
      · exact watch
  | finish result =>
      simp only [Lifecycle.step]
      split
      · exact watch.startFinish ‹_› result
      · exact watch
  | killed left =>
      rw [Lifecycle.step]
      split
      · rename_i locked
        rcases Option.isSome_iff_exists.mp locked with ⟨starting, isStarting⟩
        exact .of_none rfl (watch.lastStart_none isStarting)
      · exact watch
  | stop left =>
      rw [Lifecycle.step]
      split
      · exact watch
      · rename_i unlocked
        have noStarting : usb.starting = none := by simpa using unlocked
        simp only [cmdStop]
        split
        · exact .of_none noStarting rfl
        · exact .of_none noStarting rfl
  | linkWake responder left =>
      rw [Lifecycle.step]
      split
      · exact watch
      · rw [linkRound]
        split
        · exact watch.congr rfl rfl rfl rfl rfl rfl rfl
        · exact watch
  | reaper index pgid left =>
      simp only [Lifecycle.step]
      split
      · exact watch
      · exact watch.reap books ‹_› pgid left

/-! ## What a watched session has -/

theorem getElem?_setReaper {index : Nat} {reaper : Reaper} {phase : ReaperPhase}
    (found : usb.reapers[index]? = some reaper) :
    (usb.setReaper index reaper phase).reapers[index]? = some { reaper with phase := phase } := by
  rcases List.getElem?_eq_some_iff.mp found with ⟨inside, _⟩
  exact List.getElem?_set_self inside

theorem step_reaper {index : Nat} {reaper : Reaper} (found : usb.reapers[index]? = some reaper)
    (pgid : Option Nat) (left : Bool) :
    usb.step (.reaper index pgid left) = usb.reap index reaper pgid left := by
  simp only [step, found]

/-- A woken reaper that owns the generation cleans up. -/
theorem reap_woken (usb : Lifecycle) {index : Nat} {reaper : Reaper} (woken : reaper.phase = .woken)
    (noStarting : usb.starting = none) (owns : usb.generation = some reaper.gen)
    (pgid : Option Nat) (left : Bool) : usb.reap index reaper pgid left =
      { (usb.setReaper index reaper .gone).cleanupOwned left with reaped := true } := by
  simp [reap, woken, noStarting, owns]

theorem step_gone (usb : Lifecycle) {index : Nat} {reaper : Reaper}
    (found : usb.reapers[index]? = some reaper) (gone : reaper.phase = .gone)
    (pgid : Option Nat) (left : Bool) : usb.step (.reaper index pgid left) = usb := by
  rw [step_reaper found]
  simp [reap, gone]

theorem willReap_of_guarded (guarded : usb.Guarded group) (noStarting : usb.starting = none)
    (gone : usb.LeaderGone group) : usb.WillReap := by
  rcases guarded with ⟨reaper, member, guards⟩
  rcases List.mem_iff_getElem?.mp member with ⟨index, found⟩
  have dead : usb.leaders reaper.watch ≠ some reaper.start := by
    rcases guards.leader with under | ⟨_, dead⟩
    · exact guards.watch ▸ gone reaper.start under
    · exact dead
  have live : reaper.phase ≠ .gone := by
    rcases guards.up with up | up <;> rw [up] <;> decide
  refine ⟨index, reaper, found, live, guards.generation, fun pgid left => ?_⟩
  rw [run_cons, run_cons, run_nil, step_reaper found]
  rcases guards.up with watching | woken
  · have wakes : usb.reap index reaper pgid left = usb.setReaper index reaper .woken := by
      simp [reap, watching, dead]
    rw [wakes, step_reaper (getElem?_setReaper found)]
    have owns : (usb.setReaper index reaper .woken).generation =
        some ({ reaper with phase := .woken } : Reaper).gen := guards.generation
    rw [reap_woken (usb.setReaper index reaper .woken) rfl noStarting owns]
  · rw [reap_woken usb woken noStarting guards.generation]
    have still : (usb.setReaper index reaper .gone).reapers[index]? =
        some { reaper with phase := .gone } := getElem?_setReaper found
    exact congrArg Lifecycle.reaped (step_gone
      { (usb.setReaper index reaper .gone).cleanupOwned left with reaped := true } still rfl pgid left)

theorem Watch.reaps (watch : Watch usb) : Reaps usb where
  afterDeath group isLast gone := by
    cases isReaped : usb.reaped with
    | true => exact .inl rfl
    | false =>
        exact .inr (willReap_of_guarded (watch.guarded group isLast isReaped)
          (watch.idle (by rw [isLast]; rfl)) gone)
  notBefore := watch.reaped

/-- In every run whose starts have their own reaper, every session a start
returned 0 for is cleaned up by a reaper once its leader is gone. -/
theorem reaper_runs_cleanup (labels : List UsbStep)
    (own : Along step OwnReaper .initial labels) : Throughout step Reaps .initial labels := by
  refine own.throughout (fun usb => Books usb ∧ Watch usb) ?_ ?_ ⟨.initial, .of_none rfl rfl⟩
  · rintro usb ⟨_, watch⟩
    exact watch.reaps
  · rintro usb label ⟨books, watch⟩ ownReaper
    exact ⟨books.step label, watch.step books label ownReaper⟩

/-! ## Sample runs -/

/-- A start in group 7 that builds its session. Its reaper has process group 20. -/
def sampleStart : List UsbStep :=
  [.leaderBorn 7, .start 7 none 20, .reaper 0 none false, .reaper 0 none false,
    .reaper 0 (some 20) false, .poll true, .finish .built]

theorem sampleStart_own : Along step OwnReaper .initial sampleStart := by
  refine ⟨trivial, fun _ _ reused => ?_, trivial, trivial, trivial, ?_, trivial, trivial⟩
  · cases reused
  · intro group isStarting
    cases isStarting
    exact ⟨⟨20, 7, 0, 0, .watching⟩, List.mem_singleton_self _, .inl rfl, rfl, .inl rfl, rfl⟩

/-- The session of the sample is cleaned up after its leader. -/
theorem sampleStart_reaped : Throughout step Reaps .initial (sampleStart ++ [.leaderGone 7]) :=
  have gone : Along step OwnReaper (run step .initial sampleStart) [.leaderGone 7] :=
    ⟨trivial, trivial⟩
  reaper_runs_cleanup (sampleStart ++ [.leaderGone 7]) (along_append.mpr ⟨sampleStart_own, gone⟩)

/-- The second stop finds nothing left and takes the generation with it; the next
start finds the reaper running. -/
def staleReuse : List UsbStep :=
  sampleStart ++ [.stop false, .stop false, .start 7 none 21, .finish .built, .leaderGone 7]

/-- The reused reaper owns no generation, so the dead group's session stays. -/
theorem stale_reuse_not_reaped :
    ¬Reaps (run step .initial staleReuse) ∧
      (run step .initial (staleReuse ++ [.reaper 0 none false, .reaper 0 none false])).session =
        true := by
  refine ⟨fun reaps => ?_, rfl⟩
  have gone : (run step .initial staleReuse).LeaderGone ⟨7, some 0⟩ := fun _ _ => nofun
  rcases reaps.afterDeath ⟨7, some 0⟩ rfl gone with reaped | ⟨_, _, _, _, owns, _⟩
  · cases reaped
  · cases owns

end Lifecycle

end Zlyme.Usb
