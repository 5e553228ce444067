import Zlyme.Portmaster.Cleanup
import Zlyme.Portmaster.Sweeps

/-! # The cleanup is complete or says so

Where nobody else mounts or unmounts anything, the passes of the cleanup are sweeps over the
registry it starts with.
-/

namespace Zlyme.Portmaster

open Foundation Foundation.Execution Foundation.Script Foundation.Text Foundation.MountTree

/-! ## The environment -/

/-- The system, and the lines whose unmount has failed. -/
structure Watched where
  world : World
  failed : List Text

namespace Watched

def table (state : Watched) : Table :=
  state.world.space.table

def sweep (state : Watched) : Sweep :=
  ⟨state.table, state.failed⟩

def withRegistry (state : Watched) (lines : List Text) : Watched :=
  { state with world := { state.world with registry := lines } }

end Watched

/-- Whether an unmount works is up to the environment; everything else works, and nothing else
changes the mounts. -/
def kernel (works : Table → Text → Bool) (visit : Visit) (world : World) : Call → Choice
  | .umount [path] =>
      let gone := world.space.table.umount works path
      { ok := true, status := if gone.isSome then 0 else 1, next := gone.map world.space.without,
        meanwhile := none, visit }
  | _ => { ok := true, status := 0, next := none, meanwhile := none, visit }

/-- What an unmount detaches is where the walk along the path ends. -/
theorem Space.umount_detaches {space : Space} {works : Table → Text → Bool} {path id : Text}
    (isNorm : pmNorm path = some path) (detached : space.table.umount works path = some id) :
    id ∈ space.ids ∧ ∃ mount, mount.id = id ∧ ∀ there, space.Detaches path there ↔ there = mount := by
  rw [Table.umount, isNorm, Option.bind_some] at detached
  split at detached
  · cases detached
  · have isTop := (Option.filter_eq_some_iff.mp detached).1
    apply space.detaches_of_roleOf fun point => (Iff.rfl : point ∈ space.table.paths ↔ _)
    exact (Table.visible_iff_roleOf (Table.read_distinct _) fun _ => Iff.rfl).mp isTop

/-- The line of the mount that an unmount of its path leaves there. -/
def failure (works : Table → Text → Bool) (table : Table) : Call → List Text
  | .umount [path] =>
      if table.umount works path = none then
        ((pmNorm path).bind fun norm => table.visible table.paths norm).toList.map fun id =>
          entry id path
      else []
  | _ => []

/-- The choices are the orders in which awk visits the paths of the table. -/
def quiet (works : Table → Text → Bool) : Script.Machine Call Call.Result Visit Watched :=
  fun call visit state =>
    let answer := call.perform (kernel works visit state.world call) state.world
    (some answer.1, ⟨answer.2, state.failed ++ failure works state.table call⟩)

/-- Any run is allowed, and no run exits early. -/
def anyway : Contract Call Watched where
  rely _ _ := True
  guard _ _ := True
  stop _ := True
  exit _ _ := False

section Quiet

variable {works : Table → Text → Bool} {state : Watched}

theorem quiet_ensures {call : Call} {post : call.Result → Watched → Prop}
    (answers : ∀ visit, post (call.perform (kernel works visit state.world call) state.world).1
      ⟨(call.perform (kernel works visit state.world call) state.world).2,
        state.failed ++ failure works state.table call⟩) :
    (Program.issue call).Ensures (quiet works) anyway post state :=
  Ensures.issue trivial trivial fun _ visit => .inl ⟨_, _, rfl, answers visit⟩

/-- An operation that only looks. -/
theorem quiet_ask {call : Call} (looks : ∀ choice, (call.perform choice state.world).2 = state.world)
    (notUmount : failure works state.table call = []) :
    (Program.issue call).Ensures (quiet works) anyway
      (fun value after => after = state ∧
        ∃ visit, value = (call.perform (kernel works visit state.world call) state.world).1) state := by
  apply quiet_ensures
  intro visit
  rw [looks, notUmount, List.append_nil]
  exact ⟨rfl, visit, rfl⟩

theorem quiet_mktemp : Program.mktemp.Ensures (quiet works) anyway
    (fun made after => after = state ∧ made = true) state :=
  Ensures.mono (quiet_ask (fun _ => rfl) rfl) fun _ _ => And.imp_right fun ⟨_, same⟩ => same

theorem quiet_registry : Program.registry.Ensures (quiet works) anyway
    (fun lines after => after = state ∧ lines = state.world.registry) state :=
  Ensures.mono (quiet_ask (fun _ => rfl) rfl) fun _ _ => And.imp_right fun ⟨_, same⟩ => same

theorem quiet_readable : Program.readable.Ensures (quiet works) anyway
    (fun isReadable after => after = state ∧ isReadable = state.world.readable) state :=
  Ensures.mono (quiet_ask (fun _ => rfl) rfl) fun _ _ => And.imp_right fun ⟨_, same⟩ => same

theorem quiet_isProtected (path : Text) : (Program.isProtected path).Ensures (quiet works) anyway
    (fun isProtected after => after = state ∧
      isProtected = pmProtected state.world.libraries path) state :=
  Ensures.mono (quiet_ask (fun _ => rfl) rfl) fun _ _ => And.imp_right fun ⟨_, same⟩ => same

theorem quiet_idsAt (path : Text) : (Program.idsAt path).Ensures (quiet works) anyway
    (fun ids after => after = state ∧ ids = state.world.idsAt path) state :=
  Ensures.mono (quiet_ask (fun _ => rfl) rfl) fun _ _ => And.imp_right fun ⟨_, same⟩ => same

/-- Whatever order awk takes, it tells what is gone and what is visible. -/
theorem quiet_role (isReadable : state.world.readable = true) (path id : Text) :
    (Program.role path id).Ensures (quiet works) anyway
      (fun role after => after = state ∧
        (role = some .absent ↔ state.table.sees path id = some .absent) ∧
        (role = some .visible ↔ state.table.sees path id = some .visible)) state := by
  refine Ensures.mono (quiet_ask (fun _ => rfl) rfl) fun _ _ => And.imp_right ?_
  rintro ⟨visit, rfl⟩
  refine ⟨?_, World.role_eq_visible isReadable⟩
  change state.world.role visit path id = some .absent ↔ _
  rw [World.role, if_pos isReadable, Table.sees]
  cases pmNorm path with
  | none => exact Iff.rfl
  | some norm =>
      cases isNumber id with
      | false => exact Iff.rfl
      | true =>
          simp only [Option.map_some, if_true, Option.some.injEq]
          exact Table.role_eq_absent.trans Table.role_eq_absent.symm

theorem quiet_replace (lines : List Text) : (Program.replace lines).Ensures (quiet works) anyway
    (fun _ after => after = state.withRegistry lines) state := by
  apply quiet_ensures
  intro visit
  simp [Watched.withRegistry, failure, Call.perform, kernel]

/-- `pm_drop_exact` takes one copy of the line out of the registry. -/
theorem quiet_drop (line : Text) : (Program.pmDropExact line).Ensures (quiet works) anyway
    (fun _ after => after =
      state.withRegistry ((state.world.registry.erase line).filter fun other => other ≠ [])) state := by
  refine Ensures.bind quiet_mktemp ?_
  rintro _ _ ⟨rfl, rfl⟩
  refine Ensures.bind quiet_registry ?_
  rintro _ _ ⟨rfl, rfl⟩
  exact quiet_replace _

/-- Without a change of the mount, the id is still there exactly when it is in the table. -/
theorem quiet_idStill (isReadable : state.world.readable = true) {id path norm : Text}
    (isNorm : pmNorm path = some norm) : (Program.pmIdStill id path).Ensures (quiet works) anyway
      (fun still after => after = state ∧ still = (state.table.idsAt norm).contains id) state := by
  refine Ensures.bind quiet_mktemp ?_
  rintro _ _ ⟨rfl, rfl⟩
  refine Ensures.bind (quiet_idsAt path) ?_
  rintro _ _ ⟨rfl, rfl⟩
  rw [World.idsAt_eq isNorm, if_pos isReadable]
  exact ⟨rfl, rfl⟩

/-- The state after the unmount of a mount. -/
def Watched.detached (state : Watched) (id : Text) : Watched :=
  { state with world := state.world.change (state.world.space.without id) }

theorem Watched.table_detached {path id : Text} (visible : state.table.sees path id = some .visible)
    (idle : ¬state.table.Busy path id) : (state.detached id).table = state.table.without id :=
  Space.table_detached visible idle

/-- An unmount detaches the mount that is visible, or the mount is noted. -/
theorem quiet_umount {path id : Text} (visible : state.table.sees path id = some .visible) :
    (Program.umount [path]).Ensures (quiet works) anyway
      (fun status after => (¬state.table.Busy path id ∧ works state.table path = true ∧ status = 0 ∧
          after = state.detached id) ∨
        ((state.table.Busy path id ∨ works state.table path = false) ∧ status = 1 ∧
          after = { state with failed := state.failed ++ [entry id path] })) state := by
  apply quiet_ensures
  intro visit
  have answer := @Table.umount_of_visible works _ path id visible
  by_cases stuck : state.table.Busy path id ∨ works state.table path = false
  · rw [if_pos stuck] at answer
    have isTop : ((pmNorm path).bind fun norm => state.table.visible state.table.paths norm) = some id := by
      rcases Table.sees_eq_visible.mp visible with ⟨norm, isNorm, -, shown⟩
      rw [isNorm]
      exact Table.visible_eq_some.mpr (Table.shown_iff.mp shown).2.2
    have noted : failure works state.table (.umount [path]) = [entry id path] := by
      rw [failure, if_pos answer, isTop]
      rfl
    change state.world.space.table.umount works path = none at answer
    refine .inr ⟨stuck, ?_, ?_⟩
    · simp [Call.perform, kernel, answer]
    · rw [noted]
      simp [Call.perform, kernel, answer]
  · rw [if_neg stuck] at answer
    have noted : failure works state.table (.umount [path]) = [] := by
      rw [failure, if_neg (by rw [answer]; exact nofun)]
    change state.world.space.table.umount works path = some id at answer
    rw [not_or, Bool.not_eq_false] at stuck
    refine .inl ⟨stuck.1, stuck.2, ?_, ?_⟩
    · simp [Call.perform, kernel, answer]
    · rw [noted, List.append_nil]
      simp [Call.perform, kernel, answer, Watched.detached]

end Quiet

/-! ## Lines and passes -/

/-- What holds between two lines of the cleanup. -/
structure Tracks (libraries lines : List Text) (state : Watched)
    (progress : Program.Progress) : Prop where
  readable : state.world.readable = true
  shelf : state.world.libraries = libraries
  blocked : progress.blocked = state.failed
  status : progress.status = if state.failed = [] then 0 else 1
  registry : ∀ line, ¬Dropped libraries state.table line →
    state.world.registry.count line = lines.count line

section Passes

variable {works : Table → Text → Bool} {libraries lines : List Text} {state : Watched}
  {progress : Program.Progress}

/-- A line that is dropped from the registry. -/
theorem Tracks.drop (tracks : Tracks libraries lines state progress) {line : Text}
    (dropped : Dropped libraries state.table line) (moved : Bool) :
    Tracks libraries lines
      (state.withRegistry ((state.world.registry.erase line).filter fun other => other ≠ []))
      { progress with progress := moved } where
  readable := tracks.readable
  shelf := tracks.shelf
  blocked := tracks.blocked
  status := tracks.status
  registry other kept := by
    have differs : line ≠ other := fun same => kept (same ▸ dropped)
    have nonempty : other ≠ [] := fun empty => kept (.inl empty)
    rw [← tracks.registry other kept]
    change ((state.world.registry.erase line).filter _).count other = _
    rw [List.count_filter (by simpa using nonempty), List.count_erase_of_ne differs.symm]

theorem Tracks.detached (tracks : Tracks libraries lines state progress) {id : Text}
    (table : (state.detached id).table = state.table.without id) :
    Tracks libraries lines (state.detached id) progress where
  readable := tracks.readable
  shelf := tracks.shelf
  blocked := tracks.blocked
  status := tracks.status
  registry other kept := by
    apply tracks.registry
    intro dropped
    rw [table] at kept
    exact kept (dropped.without id)

theorem Tracks.fail (tracks : Tracks libraries lines state progress) (line : Text) :
    Tracks libraries lines { state with failed := state.failed ++ [line] }
      { progress with status := 1, blocked := progress.blocked ++ [line] } where
  readable := tracks.readable
  shelf := tracks.shelf
  blocked := congrArg (· ++ [line]) tracks.blocked
  status := by simp
  registry := tracks.registry

/-- What one line of a pass does: it is a line of a sweep. -/
def LineDone (works : Table → Text → Bool) (libraries lines : List Text) (state : Watched)
    (progress : Program.Progress) (line : Text) (next : Program.Progress) (after : Watched) : Prop :=
  Tracks libraries lines after next ∧ after.sweep = state.sweep.line works libraries line ∧
    (next.progress = false → progress.progress = false ∧ after.table = state.table ∧
      Exhausted libraries after.sweep line)

open Program in
theorem quiet_cleanupVisible (tracks : Tracks libraries lines state progress) {line id : Text}
    (isRecord : record libraries line = some (id, pmEntryPath line)) (fresh : line ∉ state.failed)
    (visible : state.table.sees (pmEntryPath line) id = some .visible) :
    (cleanupVisible progress line id (pmEntryPath line)).Ensures (quiet works) anyway
      (LineDone works libraries lines state progress line) state := by
  rcases record_eq_some.mp isRecord with ⟨nonempty, -, isId, -⟩
  have isEntry : entry id (pmEntryPath line) = line := (entry_of_pmEntryId isId).1
  have swept : state.sweep.line works libraries line = _ :=
    Sweep.line_of_visible isRecord fresh visible
  refine Ensures.bind (quiet_umount visible) ?_
  rintro status after (⟨idle, working, rfl, rfl⟩ | ⟨stuck, rfl, rfl⟩)
  · rcases Table.sees_eq_visible.mp visible with ⟨norm, isNorm, number, shown⟩
    have table := Watched.table_detached visible idle
    have readable : (state.detached id).world.readable = true := tracks.readable
    refine Ensures.bind (quiet_idStill readable isNorm) ?_
    rintro _ _ ⟨rfl, rfl⟩
    have gone : ((state.detached id).table.idsAt norm).contains id = false := by
      rw [table]
      simpa using Table.not_mem_idsAt_without state.table id norm
    rw [gone]
    have dropped : Dropped libraries (state.detached id).table line := by
      refine .inr ⟨nonempty, .inr ⟨id, isId, ?_⟩⟩
      rw [table]
      exact Table.sees_eq_absent.mpr ⟨norm, isNorm, number, (Table.shown_iff.mp shown).1,
        Table.pointOf_without_self state.table id⟩
    refine Ensures.bind (quiet_drop line) ?_
    rintro _ _ rfl
    refine ⟨(tracks.detached table).drop dropped true, ?_, nofun⟩
    have works' : ¬(state.sweep.table.Busy (pmEntryPath line) id ∨
        works state.sweep.table (pmEntryPath line) = false) := by
      rintro (busy | fails)
      · exact idle busy
      · exact Bool.false_ne_true (fails.symm.trans working)
    rw [swept, if_neg works']
    exact congrArg (fun table => Sweep.mk table state.failed) table
  · rw [isEntry]
    refine ⟨tracks.fail line, swept.trans (if_pos stuck) |>.symm, fun still => ⟨still, rfl, ?_⟩⟩
    exact fun _ _ _ _ => List.mem_append_right _ (List.mem_singleton_self line)

/-- A line that leaves the mounts as they are, whether it is dropped or not. -/
theorem LineDone.idle (tracks : Tracks libraries lines state progress) {line : Text}
    (exhausted : Exhausted libraries state.sweep line) :
    LineDone works libraries lines state progress line progress state :=
  ⟨tracks, (line_of_exhausted exhausted).symm, fun still => ⟨still, rfl, exhausted⟩⟩

open Program in
theorem quiet_cleanupLine (tracks : Tracks libraries lines state progress) (line : Text) :
    (cleanupLine progress line).Ensures (quiet works) anyway
      (LineDone works libraries lines state progress line) state := by
  have noRecord : record libraries line = none → Exhausted libraries state.sweep line := by
    intro none id path isRecord
    rw [none] at isRecord
    cases isRecord
  unfold cleanupLine
  by_cases empty : pmEntryPath line = []
  · rw [if_pos empty]
    apply LineDone.idle tracks
    apply noRecord
    simp [record, empty]
  · rw [if_neg empty]
    refine Ensures.bind (quiet_isProtected _) ?_
    rintro _ _ ⟨rfl, rfl⟩
    rw [tracks.shelf]
    cases isProtected : pmProtected libraries (pmEntryPath line) with
    | true =>
        refine Ensures.bind (quiet_drop line) ?_
        rintro _ _ rfl
        refine LineDone.idle (tracks.drop (.inr ⟨empty, .inl isProtected⟩) _) (noRecord ?_)
        simp [record, isProtected]
    | false =>
        rw [if_neg Bool.false_ne_true]
        cases isId : pmEntryId line with
        | none =>
            apply LineDone.idle tracks
            apply noRecord
            simp [record, isId]
        | some id =>
            have isRecord : record libraries line = some (id, pmEntryPath line) :=
              record_eq_some.mpr ⟨empty, isProtected, isId, rfl⟩
            have isEntry : entry id (pmEntryPath line) = line := (entry_of_pmEntryId isId).1
            refine Ensures.bind quiet_readable ?_
            rintro _ state ⟨rfl, rfl⟩
            rw [tracks.readable, isEntry]
            by_cases hasFailed : line ∈ state.failed
            · have blocked : progress.blocked.contains line = true := by
                rw [tracks.blocked]
                exact List.contains_iff_mem.mpr hasFailed
              rw [blocked]
              exact LineDone.idle tracks fun _ _ _ _ => hasFailed
            · have fresh : progress.blocked.contains line = false := by
                rw [tracks.blocked]
                simpa using hasFailed
              rw [fresh]
              refine Ensures.bind (quiet_role tracks.readable (pmEntryPath line) id) ?_
              rintro role state ⟨rfl, absent, visible⟩
              split
              · have dropped : Dropped libraries state.table line :=
                  .inr ⟨empty, .inr ⟨id, isId, absent.mp rfl⟩⟩
                refine Ensures.bind (quiet_drop line) ?_
                rintro _ _ rfl
                exact ⟨tracks.drop dropped true, (line_of_dropped dropped).symm, nofun⟩
              · exact quiet_cleanupVisible tracks isRecord hasFailed (visible.mp rfl)
              · rename_i notVisible
                apply LineDone.idle tracks
                intro other path isOther isVisible
                rw [isRecord] at isOther
                cases isOther
                exact absurd (visible.mpr isVisible) notVisible

/-- What a row of lines does: it is a part of a sweep. -/
theorem quiet_cleanupLines (some : List Text) (tracks : Tracks libraries lines state progress) :
    (Program.cleanupLines some progress).Ensures (quiet works) anyway
      (fun next after => Tracks libraries lines after next ∧
        after.sweep = state.sweep.through works libraries some ∧
        (next.progress = false → progress.progress = false ∧ after.table = state.table ∧
          ∀ line ∈ some, Exhausted libraries after.sweep line)) state := by
  induction some generalizing state progress with
  | nil => exact ⟨tracks, rfl, fun still => ⟨still, rfl, nofun⟩⟩
  | cons line rest induction =>
      refine Ensures.bind (quiet_cleanupLine tracks line) ?_
      rintro next between ⟨tracks', swept, still⟩
      refine Ensures.mono (induction tracks') ?_
      rintro last after ⟨tracks'', swept', still'⟩
      refine ⟨tracks'', ?_, fun none => ?_⟩
      · rw [swept', swept]
        rfl
      · rcases still' none with ⟨noneBefore, table', exhausted'⟩
        rcases still noneBefore with ⟨noneFirst, table, exhausted⟩
        refine ⟨noneFirst, table'.trans table, ?_⟩
        intro other member
        rcases List.mem_cons.mp member with rfl | later
        · intro id path isRecord visible
          rw [swept']
          apply failed_subset_through
          apply exhausted id path isRecord
          change after.table.sees path id = some .visible at visible
          rwa [table'] at visible
        · exact exhausted' other later

/-- The passes are sweeps over the registry that the cleanup starts with. -/
theorem quiet_cleanupPasses (left : Nat) (tracks : Tracks libraries lines state progress) :
    (Program.cleanupPasses left progress).Ensures (quiet works) anyway
      (fun next after => Tracks libraries lines after next ∧
        after.sweep = state.sweep.sweeps works libraries lines left) state := by
  induction left generalizing state progress with
  | zero => exact ⟨tracks, rfl⟩
  | succ left induction =>
      refine Ensures.bind quiet_mktemp ?_
      rintro _ _ ⟨rfl, rfl⟩
      refine Ensures.bind quiet_registry ?_
      rintro _ state ⟨rfl, rfl⟩
      have started : Tracks libraries lines state { progress with progress := false } :=
        ⟨tracks.readable, tracks.shelf, tracks.blocked, tracks.status, tracks.registry⟩
      refine Ensures.bind (quiet_cleanupLines _ started) ?_
      rintro next after ⟨tracks', swept, still⟩
      rw [through_ranked state.sweep tracks.registry] at swept
      cases moved : next.progress with
      | true =>
          rw [if_pos rfl]
          refine Ensures.mono (induction tracks') ?_
          rintro last final ⟨tracks'', swept'⟩
          refine ⟨tracks'', ?_⟩
          rw [swept', swept]
          rfl
      | false =>
          rw [if_neg Bool.false_ne_true]
          rcases still moved with ⟨-, table, exhausted⟩
          refine ⟨tracks', ?_⟩
          rw [Sweep.sweeps, ← swept]
          refine (sweeps_of_exhausted ?_ left).symm
          intro line member
          by_cases dropped : Dropped libraries state.table line
          · rw [← table] at dropped
            exact dropped.exhausted
          · apply exhausted
            apply mem_ranked.mpr
            refine ⟨?_, fun empty => dropped (.inl empty)⟩
            rw [← List.count_pos_iff, tracks.registry line dropped, List.count_pos_iff]
            exact member

end Passes

/-! ## The report -/

section Report

variable {works : Table → Text → Bool} {libraries : List Text} {state : Watched}
  {progress : Program.Progress}

/-- What the report keeps. -/
structure Reports (libraries : List Text) (state : Watched) (progress : Program.Progress) : Prop where
  readable : state.world.readable = true
  shelf : state.world.libraries = libraries
  blocked : progress.blocked = state.failed

/-- What the report makes of one line. -/
def LineTold (libraries : List Text) (state : Watched) (progress : Program.Progress) (line : Text)
    (next : Program.Progress) (after : Watched) : Prop :=
  Reports libraries after next ∧ after.sweep = state.sweep ∧
    (next.status = 0 ↔ progress.status = 0 ∧ ¬Told libraries state.sweep line)

theorem LineTold.quiet (reports : Reports libraries state progress) {line : Text}
    (silent : ¬Told libraries state.sweep line) :
    LineTold libraries state progress line progress state :=
  ⟨reports, rfl, (and_iff_left silent).symm⟩

theorem LineTold.loud (reports : Reports libraries state progress) {line : Text}
    (told : Told libraries state.sweep line) :
    LineTold libraries state progress line { progress with status := 1 } state :=
  ⟨⟨reports.readable, reports.shelf, reports.blocked⟩, rfl, by simp [told]⟩

open Program in
theorem quiet_reportLine (reports : Reports libraries state progress) (line : Text) :
    (reportLine progress line).Ensures (quiet works) anyway
      (LineTold libraries state progress line) state := by
  unfold reportLine
  by_cases empty : pmEntryPath line = []
  · rw [if_pos empty]
    exact LineTold.quiet reports fun told => told.1 empty
  · rw [if_neg empty]
    refine Ensures.bind (quiet_isProtected _) ?_
    rintro _ state ⟨rfl, rfl⟩
    rw [reports.shelf]
    cases isProtected : pmProtected libraries (pmEntryPath line) with
    | true =>
        refine Ensures.bind (quiet_drop line) ?_
        rintro _ _ rfl
        have silent : ¬Told libraries state.sweep line := fun told =>
          Bool.false_ne_true (told.2.1.symm.trans isProtected)
        exact ⟨⟨reports.readable, reports.shelf, reports.blocked⟩, rfl, (and_iff_left silent).symm⟩
    | false =>
        rw [if_neg Bool.false_ne_true]
        cases isId : pmEntryId line with
        | none =>
            refine LineTold.loud reports ⟨empty, isProtected, fun id same => ?_⟩
            rw [isId] at same
            cases same
        | some id =>
            have isEntry : entry id (pmEntryPath line) = line := (entry_of_pmEntryId isId).1
            dsimp only
            rw [isEntry]
            by_cases hasFailed : line ∈ state.failed
            · have blocked : progress.blocked.contains line = true := by
                rw [reports.blocked]
                exact List.contains_iff_mem.mpr hasFailed
              rw [blocked]
              exact LineTold.quiet reports fun told => (told.2.2 id isId).1 hasFailed
            · have fresh : progress.blocked.contains line = false := by
                rw [reports.blocked]
                simpa using hasFailed
              rw [fresh, if_neg Bool.false_ne_true]
              refine Ensures.bind quiet_readable ?_
              rintro _ state ⟨rfl, rfl⟩
              rw [reports.readable]
              refine Ensures.bind (quiet_role reports.readable (pmEntryPath line) id) ?_
              rintro role state ⟨rfl, absent, visible⟩
              split
              · refine Ensures.bind (quiet_drop line) ?_
                rintro _ _ rfl
                have silent : ¬Told libraries state.sweep line := fun told =>
                  (told.2.2 id isId).2.1 (absent.mp rfl)
                exact ⟨⟨reports.readable, reports.shelf, reports.blocked⟩, rfl,
                  (and_iff_left silent).symm⟩
              · exact LineTold.quiet reports fun told => (told.2.2 id isId).2.2 (visible.mp rfl)
              · rename_i notAbsent notVisible
                refine LineTold.loud reports ⟨empty, isProtected, fun other isOther => ?_⟩
                cases isId.symm.trans isOther
                exact ⟨hasFailed, fun isAbsent => notAbsent (absent.mpr isAbsent),
                  fun isVisible => notVisible (visible.mpr isVisible)⟩

theorem quiet_reportLines (some : List Text) (reports : Reports libraries state progress) :
    (Program.reportLines some progress).Ensures (quiet works) anyway
      (fun last after => after.sweep = state.sweep ∧
        (last.status = 0 ↔ progress.status = 0 ∧ ∀ line ∈ some, ¬Told libraries state.sweep line))
      state := by
  induction some generalizing state progress with
  | nil => exact ⟨rfl, by simp⟩
  | cons line rest induction =>
      refine Ensures.bind (quiet_reportLine reports line) ?_
      rintro next between ⟨reports', same, told⟩
      refine Ensures.mono (induction reports') ?_
      rintro last after ⟨same', told'⟩
      refine ⟨same'.trans same, ?_⟩
      rw [told', told, same, List.forall_mem_cons, and_assoc]

end Report

/-! ## The cleanup -/

section Cleanup

variable {works : Table → Text → Bool} {state : Watched}

open Program in
theorem quiet_pmCleanupOwned (isReadable : state.world.readable = true) (fresh : state.failed = []) :
    pmCleanupOwned.Ensures (quiet works) anyway
      (fun status after =>
        after.sweep = Sweep.sweeps works state.world.libraries state.world.registry 64 ⟨state.table, []⟩ ∧
          (status = 0 ↔ Silent state.world.libraries state.world.registry after.sweep)) state := by
  have tracks : Tracks state.world.libraries state.world.registry state ⟨false, [], 0⟩ :=
    ⟨isReadable, rfl, fresh.symm, (if_pos fresh).symm, fun _ _ => rfl⟩
  have started : state.sweep = ⟨state.table, []⟩ := by rw [Watched.sweep, fresh]
  refine Ensures.bind (quiet_ask (fun _ => rfl) rfl) ?_
  rintro _ state ⟨rfl, visit, rfl⟩
  refine Ensures.bind quiet_mktemp ?_
  rintro _ state ⟨rfl, rfl⟩
  refine Ensures.bind (quiet_cleanupPasses 64 tracks) ?_
  rintro progress between ⟨tracks', swept⟩
  refine Ensures.bind quiet_mktemp ?_
  rintro _ between ⟨rfl, rfl⟩
  refine Ensures.bind quiet_registry ?_
  rintro _ between ⟨rfl, rfl⟩
  refine Ensures.bind
    (quiet_reportLines _ ⟨tracks'.readable, tracks'.shelf, tracks'.blocked⟩) ?_
  rintro last after ⟨same, told⟩
  refine ⟨by rw [same, swept, started], told.trans (and_congr ?_ ?_)⟩
  · rw [tracks'.status, same]
    change (if between.failed = [] then 0 else 1) = 0 ↔ between.failed = []
    by_cases none : between.failed = [] <;> simp [none]
  · rw [same]
    -- the lines that are not in both registries are dropped, and not reported
    have listed : ∀ line, Told state.world.libraries between.sweep line →
        (line ∈ between.world.registry ↔ line ∈ state.world.registry) := by
      intro line isTold
      rw [← List.count_pos_iff, ← List.count_pos_iff,
        tracks'.registry line fun dropped => dropped.not_told isTold]
    constructor
    · intro silent line member isTold
      refine silent line (List.mem_filter.mpr ⟨(listed line isTold).mpr member, ?_⟩) isTold
      apply decide_eq_true
      rintro rfl
      exact isTold.1 rfl
    · intro silent line member isTold
      exact silent line ((listed line isTold).mp (List.mem_of_mem_filter member)) isTold

/-- What the cleanup promises: whatever could be unmounted by lines whose unmount did not fail is
gone, in whatever order it could be, and a status of 0 means that nothing recorded is left. -/
structure Cleaned (world : World) (status : Nat) (after : Watched) : Prop where
  gone : ∀ ids, Along Table.without (Free world.libraries world.registry after.failed)
    world.space.table ids → ∀ id ∈ ids, id ∉ after.world.space.ids
  told : status = 0 → ∀ line ∈ world.registry, ∀ id path,
    record world.libraries line = some (id, path) → id ∉ after.world.space.ids

theorem cleaned_iff_complete {world : World} {status : Nat} {after : Watched} :
    Cleaned world status after ↔
      Complete world.libraries world.registry world.space.table status after.sweep := by
  have absent : ∀ id, id ∉ after.world.space.ids ↔ after.sweep.table.pointOf id = none := by
    intro id
    rw [Space.mem_ids_iff_point, not_not]
    rfl
  constructor
  · rintro ⟨gone, told⟩
    simp only [absent] at gone told
    exact ⟨gone, told⟩
  · rintro ⟨gone, told⟩
    simp only [← absent] at gone told
    exact ⟨gone, told⟩

/-- The start of the cleanup. The mount table can be read. -/
def uncleaned (world : World) : Watched :=
  ⟨{ world with readable := true }, []⟩

theorem cleanup_ends (works : Table → Text → Bool) (world : World) (visits : Nat → Visit) :
    ∃ length, ∀ more, length ≤ more →
      (Program.pmCleanupOwned.exec (quiet works) ((List.range more).map visits)
        (uncleaned world)).1 ≠ .stopped :=
  exists_ending_of_stream (fun _ _ _ => ⟨_, _, rfl⟩) _ visits _

/-- How a run of the cleanup has ended: with the mounts of 64 sweeps. -/
structure Ended (works : Table → Text → Bool) (world : World) (visits : List Visit) (status : Nat)
    (after : Watched) : Prop where
  run : Program.pmCleanupOwned.exec (quiet works) visits (uncleaned world) = (.done status, after)
  swept : after.sweep =
    Sweep.sweeps works world.libraries world.registry 64 ⟨world.space.table, []⟩
  status : status = 0 ↔ Silent world.libraries world.registry after.sweep

theorem Ended.cleaned_iff {works : Table → Text → Bool} {world : World} {visits : List Visit}
    {status : Nat} {after : Watched} (ended : Ended works world visits status after) :
    Cleaned world status after ↔
      Enough works world.libraries world.registry world.space.table := by
  have isStatus := ended.status
  rw [ended.swept] at isStatus
  rw [cleaned_iff_complete, ended.swept]
  exact complete_iff_enough (Table.read_distinct world.space.mountinfo) isStatus

theorem cleanup_run (works : Table → Text → Bool) (world : World) (visits : List Visit) :
    (Program.pmCleanupOwned.exec (quiet works) visits (uncleaned world)).1 = .stopped ∨
      ∃ status after, Ended works world visits status after := by
  have ensures := @quiet_pmCleanupOwned works (uncleaned world) rfl rfl
  have met := (ensures.exec visits fun _ _ => trivial).2
  rcases run : Program.pmCleanupOwned.exec (quiet works) visits (uncleaned world) with
    ⟨status | status | _, after⟩
  · rw [run] at met
    exact .inr ⟨status, after, run, met.1, met.2⟩
  · rw [run] at met
    exact met.elim
  · exact .inl rfl

theorem exists_cleanup_run (works : Table → Text → Bool) (world : World) :
    ∃ visits status after, Ended works world visits status after := by
  rcases cleanup_ends works world fun _ => ⟨id, fun _ _ => Iff.rfl⟩ with ⟨length, ending⟩
  exact ⟨_, (cleanup_run works world _).resolve_left (ending length le_rfl)⟩

/-- Every run of the cleanup ends, and it is complete or says so exactly when 64 sweeps leave no
mount visible that was not tried, or only busy ones beside something that is reported. -/
theorem cleanup_complete_iff (works : Table → Text → Bool) (world : World) :
    ((∀ visits : Nat → Visit, ∃ length, ∀ more, length ≤ more →
        (Program.pmCleanupOwned.exec (quiet works) ((List.range more).map visits)
          (uncleaned world)).1 ≠ .stopped) ∧
      ∀ visits, Outcome.Meets anyway (Cleaned world)
        (Program.pmCleanupOwned.exec (quiet works) visits (uncleaned world))) ↔
      Enough works world.libraries world.registry world.space.table := by
  constructor
  · rintro ⟨-, meets⟩
    rcases exists_cleanup_run works world with ⟨visits, status, after, ended⟩
    have met := meets visits
    rw [ended.run] at met
    exact ended.cleaned_iff.mp met
  · intro enough
    refine ⟨cleanup_ends works world, fun visits => ?_⟩
    rcases cleanup_run works world visits with stopped | ⟨status, after, ended⟩
    · rcases run : Program.pmCleanupOwned.exec (quiet works) visits (uncleaned world) with
        ⟨outcome, after⟩
      rw [run] at stopped
      cases stopped
      exact trivial
    · rw [ended.run]
      exact ended.cleaned_iff.mpr enough

end Cleanup

/-! ### Nested mounts

Each of these mounts was there before the one above it, which hides it. A sweep that goes over the
longest path first unmounts one of them only.
-/

def nestPath (level : Nat) : List Text :=
  List.replicate (level + 1) (ascii "a")

def nestId (level : Nat) : Text :=
  [0x31, UInt8.ofNat (0x30 + level / 10), UInt8.ofNat (0x30 + level % 10)]

def nestMount (level : Nat) : Mount Text Text :=
  ⟨nestId level, rootMount.id, nestPath level⟩

/-- The mounts from one level on. -/
def nestFrom (level : Nat) : List (Mount Text Text) :=
  rootMount :: (List.range' level (65 - level)).map nestMount

def nestTable (level : Nat) : Table :=
  ⟨(nestFrom level).map Row.of, false⟩

def nestLine (level : Nat) : Text :=
  entry (nestId level) (render (nestPath level))

theorem nestId_injective {level other : Nat} (small : level < 65) (otherSmall : other < 65)
    (same : nestId level = nestId other) : level = other := by
  have tens : (0x30 + level / 10) % 2 ^ 8 = (0x30 + other / 10) % 2 ^ 8 :=
    congrArg (fun id => (id.getD 1 0).toNat) same
  have units : (0x30 + level % 10) % 2 ^ 8 = (0x30 + other % 10) % 2 ^ 8 :=
    congrArg (fun id => (id.getD 2 0).toNat) same
  omega

theorem nestId_ne_root (level : Nat) : nestId level ≠ rootMount.id := by
  intro same
  exact absurd (congrArg List.length same) (show 3 ≠ 2 by decide)

theorem nestPath_names (level : Nat) : ∀ name ∈ nestPath level, IsName name := by
  intro name member
  rw [List.eq_of_mem_replicate member]
  unfold IsName
  decide

theorem render_nestPath_injective {level other : Nat}
    (same : render (nestPath level) = render (nestPath other)) : level = other := by
  have paths := render_injective (nestPath_names level) (nestPath_names other) same
  simpa [nestPath] using congrArg List.length paths

theorem render_nestPath_ne_root (level : Nat) : render (nestPath level) ≠ [slash] := by
  intro same
  have paths : nestPath level = [] := render_injective (nestPath_names level) nofun same
  exact absurd (congrArg List.length paths) (by simp [nestPath])

/-- A level is above the ones that it hides. -/
theorem isPrefix_nestPath {level other : Nat} (less : level < other) :
    isPrefix (render (nestPath level)) (render (nestPath other)) = true := by
  apply isPrefix_render (nestPath_names other)
  · refine ⟨List.replicate (other - level) (ascii "a"), ?_⟩
    rw [nestPath, nestPath, List.replicate_append_replicate]
    congr 1
    omega
  · intro same
    have lengths := congrArg List.length same
    simp only [nestPath, List.length_replicate] at lengths
    omega

theorem nestFrom_tree (level : Nat) : IsTree (nestFrom level) rootMount where
  unique := by
    intro first isFirst second isSecond same
    rcases List.mem_cons.mp isFirst with rfl | inFirst <;>
      rcases List.mem_cons.mp isSecond with rfl | inSecond
    · rfl
    · rcases List.mem_map.mp inSecond with ⟨other, -, rfl⟩
      exact absurd same.symm (nestId_ne_root other)
    · rcases List.mem_map.mp inFirst with ⟨other, -, rfl⟩
      exact absurd same (nestId_ne_root other)
    · rcases List.mem_map.mp inFirst with ⟨one, isOne, rfl⟩
      rcases List.mem_map.mp inSecond with ⟨two, isTwo, rfl⟩
      rw [List.mem_range'_1] at isOne isTwo
      rw [nestId_injective (by omega) (by omega) same]
  member := List.mem_cons_self
  atRoot := rfl
  parentless mount member := by
    rcases List.mem_cons.mp member with rfl | inRest
    · exact fun child => child.2 rfl
    · rcases List.mem_map.mp inRest with ⟨other, -, rfl⟩
      intro child
      exact absurd (congrArg List.length child.1) (show 1 ≠ 3 by decide)
  above mount member := by
    rcases List.mem_cons.mp member with rfl | inRest
    · exact .self
    · rcases List.mem_map.mp inRest with ⟨other, -, rfl⟩
      exact .child .self member ⟨rfl, nestId_ne_root other⟩ List.nil_prefix

theorem nestTable_describes (level : Nat) : (nestTable level).Describes (nestFrom level) rootMount where
  good := rfl
  rows := rfl
  names mount member := by
    rcases List.mem_cons.mp member with rfl | inRest
    · exact nofun
    · rcases List.mem_map.mp inRest with ⟨other, -, rfl⟩
      exact nestPath_names other
  tree := nestFrom_tree level

theorem nestTable_distinct (level : Nat) : KeyedRows.Distinct Row.id (nestTable level).rows := by
  have ids : (nestTable level).rows.map Row.id =
      rootMount.id :: (List.range' level (65 - level)).map nestId := by
    simp [nestTable, nestFrom, Row.of, nestMount, Function.comp_def]
  rw [KeyedRows.Distinct, ids, List.nodup_cons]
  constructor
  · intro member
    rcases List.mem_map.mp member with ⟨other, -, same⟩
    exact nestId_ne_root other same
  · apply List.Nodup.map_on _ List.nodup_range'
    intro one isOne two isTwo same
    rw [List.mem_range'_1] at isOne isTwo
    exact nestId_injective (by omega) (by omega) same

section Nest

variable {level other : Nat} (small : other < 65) (inside : level ≤ other)

include small inside

theorem mem_nestFrom : nestMount other ∈ nestFrom level := by
  apply List.mem_cons_of_mem
  apply List.mem_map_of_mem
  rw [List.mem_range'_1]
  omega

theorem nestTable_parent : (nestTable level).parentOf (nestId other) = some rootMount.id :=
  (nestTable_describes level).parentOf (nestTable_distinct level) (mem_nestFrom small inside)

theorem nestTable_point :
    (nestTable level).pointOf (nestId other) = some (render (nestPath other)) := by
  apply (Table.pointOf_eq_some (nestTable_distinct level)).mpr
  exact ⟨Row.of (nestMount other), List.mem_map_of_mem (mem_nestFrom small inside), rfl, rfl⟩

/-- One mount is at each path. -/
theorem nestTable_idsAt : (nestTable level).idsAt (render (nestPath other)) = [nestId other] := by
  have rootElsewhere : (Row.of rootMount).point ≠ render (nestPath other) :=
    (render_nestPath_ne_root other).symm
  rw [Table.idsAt, nestTable, nestFrom, List.map_cons,
    List.filter_cons_of_neg (by simpa using rootElsewhere), List.map_map, List.filter_map]
  have only : (List.range' level (65 - level)).filter
      ((fun row => decide (row.point = render (nestPath other))) ∘ Row.of ∘ nestMount) = [other] := by
    have same : ∀ one, ((fun row : Row => decide (row.point = render (nestPath other))) ∘
        Row.of ∘ nestMount) one = (one == other) := by
      intro one
      rw [Bool.eq_iff_iff, beq_iff_eq]
      refine decide_eq_true_iff.trans ⟨render_nestPath_injective, ?_⟩
      rintro rfl
      rfl
    rw [List.filter_congr fun one _ => same one, List.filter_beq, List.count_eq_one_of_mem]
    · rfl
    · exact List.nodup_range'
    · rw [List.mem_range'_1]
      omega
  rw [only]
  rfl

theorem nestTable_topCount :
    (nestTable level).topCount (render (nestPath other)) = (1, nestId other) := by
  rw [Table.topCount_eq_one, Table.tops, nestTable_idsAt small inside]
  simp

end Nest

theorem nestTable_topCount_root (level : Nat) :
    (nestTable level).topCount [slash] = (1, rootMount.id) := by
  have ids : (nestTable level).idsAt [slash] = [rootMount.id] := by
    have others : ((List.range' level (65 - level)).map (Row.of ∘ nestMount)).filter
        (fun row => decide (row.point = [slash])) = [] := by
      rw [List.filter_eq_nil_iff]
      intro row member
      rcases List.mem_map.mp member with ⟨other, -, rfl⟩
      exact fun isRoot => render_nestPath_ne_root other (of_decide_eq_true isRoot)
    rw [Table.idsAt, nestTable, nestFrom, List.map_cons, List.map_map,
      List.filter_cons_of_pos (by decide), others]
    rfl
  rw [Table.topCount_eq_one, Table.tops, ids]
  simp

theorem nestTable_parent_root (level : Nat) : (nestTable level).parentOf rootMount.id = some (ascii "1") :=
  (nestTable_describes level).parentOf (nestTable_distinct level) (nestFrom_tree level).member

/-- A mount is on the root, and on nothing else. -/
theorem nestTable_ancestor {level other : Nat} (small : other < 65) (inside : level ≤ other)
    (target : Text) : (nestTable level).ancestor (nestId other) target = .yes ↔
      target = nestId other ∨ target = rootMount.id ∨ target = ascii "1" := by
  have noParent : (nestTable level).parentOf (ascii "1") = none := by
    rw [Table.parentOf, Option.map_eq_none_iff, KeyedRows.lookup_eq_none_iff]
    intro row member
    rcases (nestTable_describes level).mem_rows.mp member with ⟨mount, isMount, rfl⟩
    rcases List.mem_cons.mp isMount with rfl | inRest
    · decide
    · rcases List.mem_map.mp inRest with ⟨one, -, rfl⟩
      intro same
      exact absurd (congrArg List.length same) (show 3 ≠ 1 by decide)
  have differs : rootMount.id ≠ nestId other := (nestId_ne_root other).symm
  have rootParent : ascii "1" ≠ rootMount.id := by decide
  have notSeen : ascii "1" ≠ nestId other := fun same =>
    absurd (congrArg List.length same) (show 1 ≠ 3 by decide)
  rw [Table.ancestor]
  by_cases isSelf : nestId other = target
  · simp [isSelf]
  · rw [if_neg isSelf, Table.climb, nestTable_parent small inside]
    dsimp only
    by_cases isRoot : rootMount.id = target
    · simp [isRoot]
    · rw [if_neg isRoot, if_neg differs, if_neg (by simpa using differs), Table.climb,
        nestTable_parent_root]
      dsimp only
      by_cases isOne : ascii "1" = target
      · simp [isOne]
      · rw [if_neg isOne, if_neg rootParent, if_neg (by simp [rootParent, notSeen]), Table.climb,
          noParent]
        simp [Ne.symm isSelf, Ne.symm isRoot, Ne.symm isOne]

theorem render_nestPath_length (level : Nat) :
    (render (nestPath level)).length = 2 * (level + 1) := by
  have joined : ∀ count, (joined slash (List.replicate (count + 1) (ascii "a"))).length =
      2 * count + 1 := by
    intro count
    induction count with
    | zero => rfl
    | succ count induction =>
        rw [List.replicate_succ, List.replicate_succ, joined_cons, ← List.replicate_succ,
          List.length_append, List.length_cons, induction]
        have one : (ascii "a").length = 1 := rfl
        omega
  rw [render, nestPath, List.length_cons, joined]
  omega

theorem nestPath_norm {level : Nat} (small : level < 65) :
    pmNorm (render (nestPath level)) = some (render (nestPath level)) ∧
      isNumber (nestId level) = true := by
  have all : ∀ level < 65, pmNorm (render (nestPath level)) = some (render (nestPath level)) ∧
      isNumber (nestId level) = true := by
    decide
  exact all level small

theorem isPrefix_length {pre path : Text} (isAbove : isPrefix pre path = true) :
    pre = [slash] ∨ pre.length < path.length := by
  unfold isPrefix at isAbove
  split at isAbove
  · cases isAbove
  · split at isAbove
    · exact .inl ‹_›
    · right
      have bound := (List.isPrefixOf_iff_prefix.mp isAbove).length_le
      rw [List.length_append] at bound
      exact bound

/-- The mount of a level is visible once the ones above it are gone. -/
theorem nestTable_visible {level other : Nat} (small : other < 65) (inside : level ≤ other) :
    (nestTable level).sees (render (nestPath other)) (nestId other) = some .visible ↔
      other = level := by
  rcases nestPath_norm small with ⟨isNorm, number⟩
  have levelSmall : level < 65 := inside.trans_lt small
  rw [Table.sees_eq_visible]
  constructor
  · rintro ⟨norm, same, -, shown⟩
    rw [isNorm] at same
    cases same
    by_contra differs
    -- the mount of the level is on top of a path above, and not below the mount
    have isAbove := isPrefix_nestPath (Nat.lt_of_le_of_ne inside (Ne.symm differs))
    have inPaths : render (nestPath level) ∈ (nestTable level).paths :=
      List.mem_map_of_mem (List.mem_map_of_mem (mem_nestFrom levelSmall le_rfl))
    have below := ((Table.shown_iff.mp shown).2.2.2 _ inPaths isAbove).2
    rw [nestTable_topCount levelSmall le_rfl, nestTable_ancestor small inside] at below
    rcases below with same | isRoot | isOne
    · exact differs (nestId_injective levelSmall small same).symm
    · exact nestId_ne_root level isRoot
    · exact absurd (congrArg List.length isOne) (show 3 ≠ 1 by decide)
  · rintro rfl
    refine ⟨_, isNorm, number, Table.shown_iff.mpr ⟨rfl, nestTable_point small le_rfl,
      nestTable_topCount small le_rfl, ?_⟩⟩
    intro path member isAbove
    rcases List.mem_map.mp member with ⟨row, inRows, rfl⟩
    rcases (nestTable_describes other).mem_rows.mp inRows with ⟨mount, isMount, rfl⟩
    rcases List.mem_cons.mp isMount with rfl | inRest
    · change ((nestTable other).topCount [slash]).1 = 1 ∧
        (nestTable other).ancestor (nestId other) ((nestTable other).topCount [slash]).2 = .yes
      rw [nestTable_topCount_root, nestTable_ancestor small le_rfl]
      exact ⟨rfl, .inr (.inl rfl)⟩
    · -- the others are further down
      rcases List.mem_map.mp inRest with ⟨one, isOne, rfl⟩
      rw [List.mem_range'_1] at isOne
      rcases isPrefix_length isAbove with isRoot | shorter
      · exact absurd isRoot (render_nestPath_ne_root one)
      · change (render (nestPath one)).length < _ at shorter
        rw [render_nestPath_length, render_nestPath_length] at shorter
        omega

theorem nestTable_gone {level other : Nat} (small : other < 65) (above : other < level) :
    (nestTable level).pointOf (nestId other) = none := by
  rw [Table.pointOf, Option.map_eq_none_iff, KeyedRows.lookup_eq_none_iff]
  intro row member
  rcases (nestTable_describes level).mem_rows.mp member with ⟨mount, isMount, rfl⟩
  rcases List.mem_cons.mp isMount with rfl | inRest
  · exact (nestId_ne_root other).symm
  · rcases List.mem_map.mp inRest with ⟨one, isOne, rfl⟩
    rw [List.mem_range'_1] at isOne
    intro same
    have equal := nestId_injective (by omega) small same
    omega

theorem nestTable_without {level : Nat} (small : level < 65) :
    (nestTable level).without (nestId level) = nestTable (level + 1) := by
  have first : List.range' level (65 - level) = level :: List.range' (level + 1) (65 - (level + 1)) := by
    rw [show 65 - level = 65 - (level + 1) + 1 by omega, List.range'_succ]
  have rest : ∀ row ∈ (List.range' (level + 1) (65 - (level + 1))).map (Row.of ∘ nestMount),
      decide (row.id ≠ nestId level) = true := by
    intro row member
    rcases List.mem_map.mp member with ⟨one, isOne, rfl⟩
    rw [List.mem_range'_1] at isOne
    apply decide_eq_true
    intro same
    have equal := nestId_injective (by omega) small same
    omega
  have kept : decide ((Row.of rootMount).id ≠ nestId level) = true :=
    decide_eq_true (nestId_ne_root level).symm
  have left : ¬decide ((Row.of (nestMount level)).id ≠ nestId level) = true := by
    simp [Row.of, nestMount]
  simp only [Table.without, nestTable, nestFrom, first, List.map_cons, List.map_map]
  rw [List.filter_cons, if_pos kept, List.filter_cons, if_neg left, List.filter_eq_self.mpr rest]

theorem nestLine_record {level : Nat} (small : level < 65) :
    record [] (nestLine level) = some (nestId level, render (nestPath level)) := by
  have all : ∀ level < 65,
      record [] (nestLine level) = some (nestId level, render (nestPath level)) := by
    decide
  exact all level small

/-- Whether an unmount works. Here each of them does. -/
def always : Table → Text → Bool :=
  fun _ _ => true

theorem nest_exhausted {level other : Nat} (small : other < 65) (differs : other ≠ level) :
    Exhausted [] ⟨nestTable level, []⟩ (nestLine other) := by
  intro id path isRecord visible
  rw [nestLine_record small] at isRecord
  cases isRecord
  rcases Nat.lt_or_gt_of_ne differs with above | below
  · exact absurd (nestTable_gone small above) (Table.pointOf_of_visible visible)
  · exact absurd ((nestTable_visible small below.le).mp visible) differs

theorem nest_not_busy {level : Nat} (small : level < 65) :
    ¬(nestTable level).Busy (render (nestPath level)) (nestId level) := by
  rintro (isRoot | bears)
  · rw [(nestPath_norm small).1, Option.some_inj] at isRoot
    exact render_nestPath_ne_root level isRoot
  · rcases List.any_eq_true.mp bears with ⟨row, member, holds⟩
    simp only [Bool.and_eq_true, decide_eq_true_eq] at holds
    rcases (nestTable_describes level).mem_rows.mp member with ⟨mount, isMount, rfl⟩
    rcases List.mem_cons.mp isMount with rfl | inRest
    · exact absurd (congrArg List.length holds.1) (show 1 ≠ 3 by decide)
    · rcases List.mem_map.mp inRest with ⟨one, -, rfl⟩
      exact nestId_ne_root level holds.1.symm

theorem nest_line {level : Nat} (small : level < 65) :
    (Sweep.mk (nestTable level) []).line always [] (nestLine level) = ⟨nestTable (level + 1), []⟩ := by
  rw [Sweep.line_of_visible (nestLine_record small) List.not_mem_nil
    ((nestTable_visible small le_rfl).mpr rfl), if_neg, ← nestTable_without small]
  rintro (busy | fails)
  · exact nest_not_busy small busy
  · cases fails

/-- The lines from the deepest level up: the one of the outermost mount does something. -/
theorem nest_through {level count : Nat} (bound : count ≤ 65) :
    (Sweep.mk (nestTable level) []).through always [] ((List.range count).reverse.map nestLine) =
      ⟨nestTable (if level < count then level + 1 else level), []⟩ := by
  induction count generalizing level with
  | zero => rfl
  | succ count induction =>
      have next : ∀ sweep : Sweep,
          sweep.through always [] ((List.range (count + 1)).reverse.map nestLine) =
            (sweep.line always [] (nestLine count)).through always []
              ((List.range count).reverse.map nestLine) := by
        intro sweep
        rw [List.range_succ, List.reverse_append]
        rfl
      rw [next]
      by_cases here : count = level
      · subst here
        rw [nest_line bound, induction (by omega), if_neg (by omega), if_pos (by omega)]
      · rw [line_of_exhausted (nest_exhausted bound here), induction (by omega)]
        congr 2
        split <;> split <;> omega

def nestLines : List Text :=
  (List.range 65).map nestLine

/-- The deepest mount comes first. -/
theorem nest_ranked : Program.ranked nestLines = (List.range 65).reverse.map nestLine := by
  have path : ∀ {level}, level ∈ List.range 65 →
      pmEntryPath (nestLine level) = render (nestPath level) := fun member =>
    (record_eq_some.mp (nestLine_record (List.mem_range.mp member))).2.2.2
  have nonempty : ∀ line ∈ nestLines, decide (line ≠ []) = true := by
    intro line member
    rcases List.mem_map.mp member with ⟨level, -, rfl⟩
    exact decide_eq_true (List.cons_ne_nil _ _)
  apply List.Perm.eq_of_pairwise (fun _ _ _ _ => precedes_antisymm) (ranked_sorted nestLines)
  · rw [List.pairwise_map, List.pairwise_reverse]
    refine List.pairwise_lt_range.imp_of_mem fun isFirst isSecond less => ?_
    rw [precedes_iff, path isFirst, path isSecond, render_nestPath_length, render_nestPath_length]
    omega
  · rw [Program.ranked, List.filter_eq_self.mpr nonempty]
    exact (List.mergeSort_perm _ _).trans ((List.reverse_perm _).symm.map nestLine)

/-- Each sweep unmounts the outermost mount. -/
theorem nest_sweeps {level count : Nat} (bound : level + count ≤ 65) :
    Sweep.sweeps always [] nestLines count ⟨nestTable level, []⟩ = ⟨nestTable (level + count), []⟩ := by
  induction count generalizing level with
  | zero => rfl
  | succ count induction =>
      rw [Sweep.sweeps, nest_ranked, nest_through le_rfl, if_pos (by omega), induction (by omega)]
      congr 2
      omega

def nestInfo : Text :=
  unlines newline (ascii "22 1 179:2 / / rw" :: (List.range 65).map fun level =>
    nestId level ++ ascii " 22 0:40 / " ++ render (nestPath level) ++ ascii " rw")

theorem read_nestInfo : Table.read nestInfo = nestTable 0 := by
  decide +kernel

def nestSpace : Space where
  mounts := nestFrom 0
  root := rootMount
  mountinfo := nestInfo
  describes := by
    rw [read_nestInfo]
    exact nestTable_describes 0

/-- All of them were recorded. -/
def nestWorld : World :=
  { worldOf nestSpace with registry := nestLines }

/-- After 64 passes the last of the mounts is visible and recorded, and the status is 0. -/
theorem nested_are_left : ∃ visits after,
    Program.pmCleanupOwned.exec (quiet always) visits (uncleaned nestWorld) = (.done 0, after) ∧
      nestLine 64 ∈ nestWorld.registry ∧ nestId 64 ∈ after.world.space.ids ∧
        ¬Cleaned nestWorld 0 after := by
  rcases exists_cleanup_run always nestWorld with ⟨visits, status, after, ended⟩
  have table : nestWorld.space.table = nestTable 0 := read_nestInfo
  have left : after.sweep = ⟨nestTable 64, []⟩ := by
    rw [ended.swept, table]
    exact nest_sweeps (by omega)
  have listed : nestLine 64 ∈ nestWorld.registry := List.mem_map_of_mem (by decide)
  have mounted : nestId 64 ∈ after.world.space.ids := by
    rw [Space.mem_ids_iff_point]
    change after.sweep.table.pointOf (nestId 64) ≠ none
    rw [left, nestTable_point (by omega) le_rfl]
    exact nofun
  have isZero : status = 0 := by
    refine ended.status.mpr ⟨by rw [left], fun line member => ?_⟩
    rcases List.mem_map.mp member with ⟨level, inRange, rfl⟩
    have small : level < 65 := List.mem_range.mp inRange
    rcases record_eq_some.mp (nestLine_record small) with ⟨-, -, isId, path⟩
    rintro ⟨-, -, told⟩
    rcases told _ isId with ⟨-, notAbsent, notVisible⟩
    rw [left, path] at notAbsent notVisible
    rcases Nat.lt_or_eq_of_le (Nat.le_of_lt_succ small) with above | rfl
    · exact notAbsent (Table.sees_eq_absent.mpr
        ⟨_, (nestPath_norm small).1, (nestPath_norm small).2, rfl, nestTable_gone small above⟩)
    · exact notVisible ((nestTable_visible small le_rfl).mpr rfl)
  subst isZero
  refine ⟨visits, after, ended.run, listed, mounted, fun cleaned => ?_⟩
  exact cleaned.told rfl _ listed _ _ (nestLine_record (by omega)) mounted

end Zlyme.Portmaster
