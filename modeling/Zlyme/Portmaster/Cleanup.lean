import Zlyme.Portmaster.Ownership

/-! # What the cleanup unmounts

The cleanup unmounts a path only when the mount of a line of the registry is what is
detached there.
-/

namespace Zlyme.Portmaster

open Foundation Foundation.Script Foundation.Execution Foundation.MountTree

/-! ## The cleanup -/

/-- An unmount detaches one mount, which the wrapper brought there and recorded. -/
def Detachable (world : World) (args : List Text) : Prop :=
  ∃ path, args = [path] ∧ pmProtected world.libraries path = false ∧
    ∃ mount, (∀ there, world.space.Detaches path there ↔ there = mount) ∧
      mount.id ∈ world.recorded ∧ (mount.id ∈ world.created ∨ mount.id ∈ world.moved)

def cleaning : Contract Call World where
  rely _ _ := True
  guard call world := ∀ args, call = .umount args → Detachable world args
  stop := Sound
  exit _ := Sound

/-- No mount of others and no unmount brings an id that was in use before. -/
def lawfulMeanwhile (call : Call) (choice : Choice) (world : World) : Bool :=
  lawful call choice world && (call.others choice).all fun other => isFresh world other.1

abbrev cleanup : Script.Machine Call Call.Result Choice World :=
  cleanupMachine.restrict lawfulMeanwhile

section Cleanup

variable {world : World}

theorem meanwhile_later (sound : Sound world) {call : Call} {choice : Choice}
    (admitted : lawfulMeanwhile call choice world = true) :
    Later world (world.meanwhile call choice) := by
  have fresh := (Bool.and_eq_true_iff.mp admitted).2
  unfold World.meanwhile
  rcases isOthers : call.others choice with _ | ⟨next, readable⟩
  · exact Later.refl sound
  · rw [isOthers] at fresh
    have later := change_later sound fresh
    exact ⟨⟨later.sound.used, later.sound.owned⟩, later.owned, later.libraries⟩

theorem clean_ensures {call : Call} {post : call.Result → World → Prop} (sound : Sound world)
    (guarded : ∀ args, call = .umount args → Detachable world args)
    (answers : ∀ choice between, Later world between →
      (∀ args, call = .umount args → between = world ∧ choice.next.all (isFresh world) = true) →
      post (call.perform choice between).1 (call.perform choice between).2) :
    (Program.issue call).Ensures cleanup cleaning post world := by
  refine Ensures.issue sound guarded fun _ choice => ?_
  unfold cleanup Script.Machine.restrict
  by_cases admitted : lawfulMeanwhile call choice world = true
  · rw [if_pos admitted]
    refine .inl ⟨_, _, rfl, answers choice _ (meanwhile_later sound admitted) fun args isUmount => ?_⟩
    subst isUmount
    exact ⟨rfl, (Bool.and_eq_true_iff.mp admitted).1⟩
  · rw [if_neg admitted]
    exact .inr ⟨world, rfl, sound⟩

/-- An operation of the cleanup that only looks. -/
theorem clean_ask {call : Call} (sound : Sound world) (notUmount : ∀ args, call ≠ .umount args)
    (quiet : ∀ choice world, (call.perform choice world).2 = world) :
    (Program.issue call).Ensures cleanup cleaning
      (fun value after => Later world after ∧ ∃ choice, value = (call.perform choice after).1)
      world := by
  refine clean_ensures sound (fun args same => absurd same (notUmount args)) ?_
  intro choice between later _
  rw [quiet choice between]
  exact ⟨later, choice, rfl⟩

theorem clean_umount (sound : Sound world) {args : List Text} (detachable : Detachable world args) :
    (Program.umount args).Ensures cleanup cleaning (fun _ after => Later world after) world := by
  refine clean_ensures sound (fun other same => ?_) fun choice between later isUmount => ?_
  · cases same
    exact detachable
  · rcases isUmount args rfl with ⟨rfl, fresh⟩
    change Later between ((choice.next.map between.change).getD between)
    rcases isNext : choice.next with _ | next
    · exact later
    · rw [isNext] at fresh
      exact change_later sound fresh

theorem clean_replace (sound : Sound world) {lines : List Text}
    (owned : ∀ line ∈ lines, Owned world line) :
    (Program.replace lines).Ensures cleanup cleaning (fun _ after => Later world after) world := by
  refine clean_ensures sound nofun fun choice between later _ => ?_
  change Later world (if choice.ok then { between with registry := lines } else between)
  split
  · exact later.trans (replace_later later.sound fun line member =>
      later.owned line (owned line member))
  · exact later

theorem clean_mktemp : Keeps cleanup cleaning Program.mktemp := fun _ sound =>
  Ensures.mono (clean_ask sound nofun fun _ _ => rfl) fun _ _ => And.left

theorem clean_check : Keeps cleanup cleaning Program.check := fun _ sound =>
  Ensures.mono (clean_ask sound nofun fun _ _ => rfl) fun _ _ => And.left

theorem clean_readable : Keeps cleanup cleaning Program.readable := fun _ sound =>
  Ensures.mono (clean_ask sound nofun fun _ _ => rfl) fun _ _ => And.left

theorem clean_isProtected (path : Text) : Keeps cleanup cleaning (Program.isProtected path) :=
  fun _ sound => Ensures.mono (clean_ask sound nofun fun _ _ => rfl) fun _ _ => And.left

theorem clean_role (path id : Text) : Keeps cleanup cleaning (Program.role path id) :=
  fun _ sound => Ensures.mono (clean_ask sound nofun fun _ _ => rfl) fun _ _ => And.left

theorem clean_idsAt (path : Text) : Keeps cleanup cleaning (Program.idsAt path) :=
  fun _ sound => Ensures.mono (clean_ask sound nofun fun _ _ => rfl) fun _ _ => And.left

/-- The lines that are read are owned. -/
theorem clean_registry (sound : Sound world) :
    Program.registry.Ensures cleanup cleaning
      (fun lines after => Later world after ∧ ∀ line ∈ lines, Owned after line) world := by
  refine Ensures.mono (clean_ask sound nofun fun _ _ => rfl) ?_
  rintro _ after ⟨later, _, rfl⟩
  exact ⟨later, later.sound.owned⟩

theorem pmDropExact_keeps (line : Text) : Keeps cleanup cleaning (Program.pmDropExact line) := by
  refine clean_mktemp.bind fun _ => .ite (.pure _) fun world sound => ?_
  refine Ensures.bind (clean_registry sound) fun lines between ⟨first, owned⟩ => ?_
  refine Ensures.mono (clean_replace first.sound fun other member => owned other ?_)
    fun _ _ => first.trans
  exact List.mem_of_mem_erase (List.mem_of_mem_filter member)

theorem pmIdStill_keeps (id path : Text) : Keeps cleanup cleaning (Program.pmIdStill id path) := by
  refine clean_mktemp.bind fun _ => .ite (.pure _) ((clean_idsAt path).bind fun ids => ?_)
  split <;> exact .pure _

open Program in
theorem cleanupVisible_ensures (sound : Sound world) {state : Progress} {line id path : Text}
    (detachable : Detachable world [path]) :
    (cleanupVisible state line id path).Ensures cleanup cleaning
      (fun _ after => Later world after) world := by
  refine Ensures.bind (clean_umount sound detachable) fun status between first => ?_
  refine Keeps.after (.ite ?_ (.pure _)) first
  refine (pmIdStill_keeps id path).bind fun _ => .ite (.pure _) ?_
  exact (pmDropExact_keeps line).bind fun _ => .pure _

open Program in
/-- A line of the registry is handled: an unmount detaches the mount of the line. -/
theorem cleanupLine_ensures (sound : Sound world) (state : Progress) {line : Text}
    (owned : Owned world line) :
    (cleanupLine state line).Ensures cleanup cleaning (fun _ after => Later world after) world := by
  have dropped : ∀ next : Progress, Keeps cleanup cleaning (do pmDropExact line; return next) :=
    fun next => (pmDropExact_keeps line).bind fun _ => .pure next
  rcases owned with ⟨id, path, rfl, number, isNorm, rest⟩
  have owned : Owned world (entry id path) := ⟨id, path, rfl, number, isNorm, rest⟩
  unfold cleanupLine
  rw [pmEntryPath_entry number, pmEntryId_entry number]
  change Ensures _ _ (if path = [] then _ else _) _ _
  split
  · exact Later.refl sound
  · refine Ensures.bind (clean_ask sound nofun fun _ _ => rfl) ?_
    rintro isProtected first ⟨later, _, isValue⟩
    change isProtected = pmProtected first.libraries path at isValue
    split
    · exact (dropped state).after later
    · rename_i free
      refine Ensures.bind (clean_readable first later.sound) fun _ second next => ?_
      have later := later.trans next
      split
      · exact later
      · split
        · exact later
        · refine Ensures.bind (clean_ask later.sound nofun fun _ _ => rfl) ?_
          rintro role third ⟨asked, choice, isRole⟩
          have last := later.trans asked
          split
          · exact (dropped _).after last
          · rcases World.detaches_of_role isNorm isRole.symm with ⟨live, mount, isId, detaches⟩
            rcases last.owned _ owned with ⟨other, otherPath, same, otherNumber, _, recorded, _, mine⟩
            have sameCut := congrArg (Foundation.Text.cut tab) same
            rw [entry_cut number, entry_cut otherNumber] at sameCut
            cases sameCut
            refine Ensures.mono (cleanupVisible_ensures last.sound ⟨path, rfl, ?_, mount, detaches,
              isId ▸ recorded, isId ▸ mine live⟩) fun _ _ => last.trans
            rw [next.trans asked |>.libraries, ← isValue]
            simpa using free
          · exact last

open Program in
theorem cleanupLines_ensures (sound : Sound world) {lines : List Text} (state : Progress)
    (owned : ∀ line ∈ lines, Owned world line) :
    (cleanupLines lines state).Ensures cleanup cleaning
      (fun _ after => Later world after) world := by
  induction lines generalizing world state with
  | nil => exact Later.refl sound
  | cons line rest induction =>
      refine Ensures.bind (cleanupLine_ensures sound state (owned line List.mem_cons_self)) ?_
      intro next between first
      refine Ensures.mono (induction first.sound next fun other member =>
        first.owned other (owned other (List.mem_cons_of_mem line member))) fun _ _ => first.trans

open Program in
theorem cleanupPasses_keeps (left : Nat) (state : Progress) :
    Keeps cleanup cleaning (cleanupPasses left state) := by
  induction left generalizing state with
  | zero => exact .pure _
  | succ left induction =>
      refine clean_mktemp.bind fun _ => .ite (.pure _) fun world sound => ?_
      refine Ensures.bind (clean_registry sound) fun lines between ⟨first, owned⟩ => ?_
      refine Ensures.bind (cleanupLines_ensures first.sound _ fun line member => owned line ?_) ?_
      · exact List.mem_of_mem_filter (List.mem_mergeSort.mp member)
      · exact fun next after second =>
          Keeps.after (.ite (induction next) (.pure _)) (first.trans second)

open Program in
theorem reportLine_keeps (state : Progress) (line : Text) :
    Keeps cleanup cleaning (reportLine state line) := by
  have dropped : ∀ next : Progress, Keeps cleanup cleaning (do pmDropExact line; return next) :=
    fun next => (pmDropExact_keeps line).bind fun _ => .pure next
  refine .ite (.pure _) ((clean_isProtected _).bind fun _ => .ite (dropped state) ?_)
  split
  · exact .pure _
  · refine .ite (.pure _) (clean_readable.bind fun _ => .ite (.pure _) ?_)
    refine (clean_role _ _).bind fun role => ?_
    split
    · exact dropped state
    · exact .pure _
    · exact .pure _

open Program in
theorem reportLines_keeps (lines : List Text) (state : Progress) :
    Keeps cleanup cleaning (reportLines lines state) := by
  induction lines generalizing state with
  | nil => exact .pure _
  | cons line rest induction => exact (reportLine_keeps state line).bind induction

open Program in
theorem pmCleanupOwned_keeps : Keeps cleanup cleaning pmCleanupOwned := by
  refine clean_check.bind fun _ => .ite (.pure _) (clean_mktemp.bind fun _ => .ite (.pure _) ?_)
  refine (cleanupPasses_keeps 64 _).bind fun state => clean_mktemp.bind fun _ => .ite (.pure _) ?_
  have listed : Keeps cleanup cleaning registry := fun _ sound =>
    Ensures.mono (clean_registry sound) fun _ _ => And.left
  exact listed.bind fun lines => (reportLines_keeps _ state).bind fun _ => .pure _

end Cleanup

/-! ## Runs -/

/-- Nothing was recorded yet. -/
def Start (world : World) : Prop :=
  world.registry = [] ∧ ∀ id ∈ world.space.ids, id ∈ world.used

/-- No id is used again in a step. -/
def Lawful (world : World) : Event → Prop
  | .foreign next _ _ => next.all (isFresh world) = true
  | .mount loaded words choices =>
      (Program.execMount loaded words).admits machine lawful choices world = true
  | .umount loaded words choices =>
      (Program.execUmount loaded words).admits machine lawful choices world = true

/-- What a step of the wrapper issues. -/
def issuedBy (world : World) : Event → List (Call × World)
  | .foreign _ _ _ => []
  | .mount loaded words choices => (Program.execMount loaded words).issued machine choices world
  | .umount loaded words choices => (Program.execUmount loaded words).issued machine choices world

/-- What a step records was brought to its path by the mount command before. -/
def RecordsBrought (world : World) (event : Event) : Prop :=
  ∀ issue ∈ issuedBy world event, ∀ line, issue.1 = .append line → Recordable issue.2 line

theorem exec_sound {program : Program Nat} {choices : List Choice} {world : World}
    (keeps : Keeps wrapping recording program) (sound : Sound world)
    (admitted : program.admits machine lawful choices world = true) :
    Sound (program.exec machine choices world).2 ∧
      ∀ issue ∈ program.issued machine choices world, ∀ line, issue.1 = .append line →
        Recordable issue.2 line := by
  have run := (keeps world sound).exec choices fun _ _ => trivial
  rw [issued_restrict admitted, exec_restrict admitted] at run
  exact ⟨run.2.state Sound (fun _ _ => Later.sound) (fun _ _ => id) (fun _ => id), run.1⟩

theorem step_sound {world : World} {event : Event} (sound : Sound world)
    (isLawful : Lawful world event) :
    Sound (step world event) ∧ RecordsBrought world event := by
  cases event with
  | foreign next readable libraries =>
      refine ⟨?_, nofun⟩
      have changed : Later world ((next.map world.change).getD world) := by
        rcases next with _ | next
        · exact Later.refl sound
        · exact change_later sound isLawful
      exact ⟨changed.sound.used, changed.sound.owned⟩
  | mount loaded words choices => exact exec_sound (execMount_keeps loaded words) sound isLawful
  | umount loaded words choices => exact exec_sound (execUmount_keeps loaded words) sound isLawful

theorem run_sound {world : World} {events : List Event} (sound : Sound world)
    (isLawful : Along step Lawful world events) :
    Sound (run step world events) ∧ Along step RecordsBrought world events :=
  ⟨along_run_invariant Sound (fun _ _ sound isLawful => (step_sound sound isLawful).1) isLawful
      sound,
    isLawful.of_invariant Sound (fun _ _ sound isLawful => (step_sound sound isLawful).1)
      (fun _ _ sound isLawful => (step_sound sound isLawful).2) sound⟩

/-- Over every run of recorded mounts, unmounts and what others mount and unmount, and a
cleanup after it: what is recorded was brought to its path by the mount command before,
and each unmount of the cleanup detaches a recorded mount that the wrapper brought. -/
theorem cleanup_detaches_owned (world : World) (start : Start world) (events : List Event)
    (isLawful : Along step Lawful world events) (choices : List Choice)
    (cleaned : Program.pmCleanupOwned.admits cleanupMachine lawfulMeanwhile choices
      (run step world events) = true) :
    Along step RecordsBrought world events ∧
      ∀ issue ∈ Program.pmCleanupOwned.issued cleanupMachine choices (run step world events),
        ∀ args, issue.1 = .umount args → Detachable issue.2 args := by
  have sound : Sound world := ⟨start.2, by rw [start.1]; exact nofun⟩
  have ran := run_sound sound isLawful
  refine ⟨ran.2, ?_⟩
  have cleanups := (pmCleanupOwned_keeps _ ran.1).exec choices fun _ _ => trivial
  rw [issued_restrict cleaned] at cleanups
  exact cleanups.1

/-! ### Sample runs -/

def rootMount : Mount Text Text :=
  ⟨ascii "22", ascii "1", []⟩

/-- A mount beside the root, at a name of the root directory. -/
def mountAt (name : String) : Mount Text Text :=
  ⟨ascii "40", ascii "22", [ascii name]⟩

theorem isTree_root : IsTree [rootMount] rootMount where
  unique := by unfold DistinctIds; decide
  member := by decide
  atRoot := rfl
  parentless := by unfold Child; decide
  above mount member := List.mem_singleton.mp member ▸ .self

theorem isTree_mountAt (name : String) : IsTree [rootMount, mountAt name] rootMount where
  unique := by
    intro first isFirst second isSecond same
    rcases List.mem_pair.mp isFirst with rfl | rfl <;>
      rcases List.mem_pair.mp isSecond with rfl | rfl
    · rfl
    · exact absurd same (show ascii "22" ≠ ascii "40" by decide)
    · exact absurd same (show ascii "40" ≠ ascii "22" by decide)
    · rfl
  member := List.mem_cons_self
  atRoot := rfl
  parentless mount member := by
    rcases List.mem_pair.mp member with rfl | rfl
    · exact fun child => child.2 rfl
    · exact fun child => absurd child.1 (show ascii "1" ≠ ascii "40" by decide)
  above mount member := by
    rcases List.mem_pair.mp member with rfl | rfl
    · exact .self
    · exact .child .self (List.mem_cons_of_mem _ List.mem_cons_self)
        ⟨rfl, show ascii "40" ≠ ascii "22" by decide⟩ List.nil_prefix

def emptySpace : Space where
  mounts := [rootMount]
  root := rootMount
  mountinfo := ascii "22 1 179:2 / / rw\n"
  describes := ⟨by decide +kernel, by decide +kernel, by unfold IsName; decide, isTree_root⟩

def spaceAt : Space where
  mounts := [rootMount, mountAt "x"]
  root := rootMount
  mountinfo := ascii "22 1 179:2 / / rw\n40 22 0:40 / /x rw\n"
  describes := ⟨by decide +kernel, by decide +kernel, by unfold IsName; decide, isTree_mountAt "x"⟩

/-- The same mount, moved. -/
def movedSpace : Space where
  mounts := [rootMount, mountAt "y"]
  root := rootMount
  mountinfo := ascii "22 1 179:2 / / rw\n40 22 0:40 / /y rw\n"
  describes := ⟨by decide +kernel, by decide +kernel, by unfold IsName; decide, isTree_mountAt "y"⟩

def worldOf (space : Space) : World :=
  ⟨space, true, [], [], [], [], [], [], space.ids⟩

/-- An operation that succeeds, and the mounts after it. -/
def succeeds (next : Option Space) : Choice :=
  ⟨true, 0, next, none, ⟨id, fun _ _ => Iff.rfl⟩⟩

def mountsTmpfs : List Event :=
  [.mount true [ascii "-t", ascii "tmpfs", ascii "tmpfs", ascii "/x"]
    (List.replicate 3 (succeeds none) ++ succeeds (some spaceAt) :: List.replicate 7 (succeeds none))]

/-- A mount is recorded, and the cleanup unmounts it. -/
def cleansUp : List Choice :=
  List.replicate 7 (succeeds none) ++ succeeds (some emptySpace) :: List.replicate 20 (succeeds none)

theorem mountsTmpfs_cleaned :
    Call.umount [ascii "/x"] ∈ (Program.pmCleanupOwned.issued cleanupMachine cleansUp
        (run step (worldOf emptySpace) mountsTmpfs)).map Prod.fst ∧
      ∀ issue ∈ Program.pmCleanupOwned.issued cleanupMachine cleansUp
          (run step (worldOf emptySpace) mountsTmpfs),
        ∀ args, issue.1 = .umount args → Detachable issue.2 args :=
  ⟨by decide +kernel, (cleanup_detaches_owned (worldOf emptySpace) ⟨rfl, fun _ => id⟩ mountsTmpfs
    ⟨by unfold Lawful; decide +kernel, trivial⟩ cleansUp (by decide +kernel)).2⟩

/-- Somebody else's mount is moved by the wrapper. -/
def movesMount : List Event :=
  [.mount true [ascii "--move", ascii "/x", ascii "/y"]
    (List.replicate 3 (succeeds none) ++ succeeds (some movedSpace) :: List.replicate 7 (succeeds none))]

/-- A mount that the wrapper did not make is recorded when it is moved, and the cleanup
unmounts it. -/
theorem moved_unmounted :
    ∃ issue ∈ Program.pmCleanupOwned.issued cleanupMachine cleansUp
        (run step (worldOf spaceAt) movesMount),
      issue.1 = .umount [ascii "/y"] ∧
        ∃ mount, (∀ there, issue.2.space.Detaches (ascii "/y") there ↔ there = mount) ∧
          mount.id ∉ issue.2.created := by
  have found : ((Program.pmCleanupOwned.issued cleanupMachine cleansUp
      (run step (worldOf spaceAt) movesMount)).any fun issue =>
        issue.1 = .umount [ascii "/y"] && issue.2.created = [] &&
          issue.2.role (succeeds none).visit (ascii "/y") (ascii "40") = some .visible) = true := by
    decide +kernel
  rcases List.any_eq_true.mp found with ⟨issue, member, holds⟩
  simp only [Bool.and_eq_true, decide_eq_true_eq] at holds
  rcases World.detaches_of_role (by decide +kernel) holds.2 with ⟨_, mount, _, detaches⟩
  refine ⟨issue, member, holds.1.1, mount, detaches, ?_⟩
  rw [holds.1.2]
  exact List.not_mem_nil

end Zlyme.Portmaster
