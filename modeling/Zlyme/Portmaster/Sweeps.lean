import Zlyme.Portmaster.Removal

/-! # Sweeps over the registry

A sweep goes once over the lines of the registry, longest path first, and unmounts each mount
that is visible then. The cleanup is a number of sweeps.
-/

namespace Zlyme.Portmaster

open Foundation Foundation.Text Foundation.KeyedRows Foundation.MountTree Foundation.Execution

/-! ## Unmounts -/

/-- What an unmount of a path detaches. It may fail, and it fails where the mount is busy. -/
def Table.umount (works : Table → Text → Bool) (table : Table) (path : Text) : Option Text :=
  (pmNorm path).bind fun norm =>
    if norm = [slash] then none
    else (table.visible table.paths norm).filter fun id => !table.bears id && works table path

/-- The mount cannot be unmounted: it is the root, or something is attached to it. -/
def Table.Busy (table : Table) (path id : Text) : Prop :=
  pmNorm path = some [slash] ∨ table.bears id = true

instance (table : Table) (path id : Text) : Decidable (table.Busy path id) :=
  inferInstanceAs (Decidable (_ ∨ _))

/-- The id and the path of a line, unless the path is protected. -/
def record (libraries : List Text) (line : Text) : Option (Text × Text) :=
  let path := pmEntryPath line
  if path = [] || pmProtected libraries path then none
  else (pmEntryId line).map fun id => (id, path)

/-! ## Sweeps -/

/-- The mounts, and the lines whose unmount has failed. -/
structure Sweep where
  table : Table
  failed : List Text

section Sweeps

variable (works : Table → Text → Bool) (libraries : List Text)

namespace Sweep

def line (sweep : Sweep) (line : Text) : Sweep :=
  match record libraries line with
  | none => sweep
  | some (id, path) =>
      if line ∈ sweep.failed then sweep
      else if sweep.table.sees path id = some .visible then
        match sweep.table.umount works path with
        | some gone => { sweep with table := sweep.table.without gone }
        | none => { sweep with failed := sweep.failed ++ [line] }
      else sweep

def through (sweep : Sweep) (lines : List Text) : Sweep :=
  lines.foldl (line works libraries) sweep

/-- A number of sweeps over the lines of the registry. -/
def sweeps (lines : List Text) : Nat → Sweep → Sweep
  | 0, sweep => sweep
  | left + 1, sweep => sweeps lines left (sweep.through works libraries (Program.ranked lines))

end Sweep

end Sweeps

/-! ## Lines -/

theorem entry_of_pmEntryId {line id : Text} (isId : pmEntryId line = some id) :
    entry id (pmEntryPath line) = line ∧ isNumber id = true := by
  unfold pmEntryId at isId
  unfold pmEntryPath
  cases isCut : cut tab line with
  | none =>
      rw [isCut] at isId
      cases isId
  | some parts =>
      rw [isCut] at isId
      dsimp only at isId
      split at isId
      · rename_i number
        cases isId
        exact ⟨(cut_eq_some.mp isCut).1.symm, number⟩
      · cases isId

theorem record_eq_some {libraries : List Text} {line id path : Text} :
    record libraries line = some (id, path) ↔ path ≠ [] ∧ pmProtected libraries path = false ∧
      pmEntryId line = some id ∧ pmEntryPath line = path := by
  unfold record
  dsimp only
  split
  · rename_i skipped
    simp only [Bool.or_eq_true, decide_eq_true_eq] at skipped
    refine ⟨nofun, ?_⟩
    rintro ⟨nonempty, free, -, rfl⟩
    rcases skipped with empty | isProtected
    · exact absurd empty nonempty
    · rw [free] at isProtected
      cases isProtected
  · rename_i kept
    simp only [Bool.or_eq_true, decide_eq_true_eq, not_or, Bool.not_eq_true] at kept
    constructor
    · intro isRecord
      rcases Option.map_eq_some_iff.mp isRecord with ⟨found, isId, same⟩
      cases same
      exact ⟨kept.1, kept.2, isId, rfl⟩
    · rintro ⟨-, -, isId, rfl⟩
      rw [isId]
      rfl

namespace Table

theorem roleBelow_ne_absent {table : Table} {held want : Text} {order : List Text} :
    table.roleBelow held want order ≠ .absent := by
  induction order with
  | nil => exact fun same => by cases same
  | cons path rest induction =>
      rw [roleBelow]
      split
      · exact induction
      · split
        · exact fun same => by cases same
        · split
          · exact fun same => by cases same
          · exact fun same => by cases same
          · exact induction

theorem roleOf_eq_absent {table : Table} {order : List Text} {id want : Text} :
    table.roleOf order id want = .absent ↔ table.pointOf id = none := by
  unfold roleOf
  cases table.pointOf id with
  | none => simp
  | some point =>
      refine ⟨fun absent => ?_, nofun⟩
      dsimp only at absent
      split at absent
      · cases absent
      · split at absent
        · cases absent
        · split at absent
          · cases absent
          · exact absurd absent roleBelow_ne_absent

theorem role_eq_absent {table : Table} {order : List Text} {id want : Text} :
    table.role order id want = .absent ↔ table.bad = false ∧ table.pointOf id = none := by
  unfold role
  cases table.bad <;> simp [roleOf_eq_absent]

theorem sees_eq_visible {table : Table} {path id : Text} :
    table.sees path id = some .visible ↔
      ∃ norm, pmNorm path = some norm ∧ isNumber id = true ∧ table.Shown id norm := by
  rw [sees, Option.map_eq_some_iff]
  refine exists_congr fun norm => and_congr_right fun _ => ?_
  cases isNumber id <;> simp [Shown]

theorem sees_eq_absent {table : Table} {path id : Text} :
    table.sees path id = some .absent ↔ ∃ norm, pmNorm path = some norm ∧ isNumber id = true ∧
      table.bad = false ∧ table.pointOf id = none := by
  rw [sees, Option.map_eq_some_iff]
  refine exists_congr fun norm => and_congr_right fun _ => ?_
  cases isNumber id <;> simp [role_eq_absent]

theorem pointOf_of_visible {table : Table} {path id : Text}
    (visible : table.sees path id = some .visible) : table.pointOf id ≠ none := by
  rcases sees_eq_visible.mp visible with ⟨norm, -, -, shown⟩
  rw [(shown_iff.mp shown).2.1]
  exact nofun

/-- Where an id is visible, an unmount detaches it, unless it is busy or the unmount fails. -/
theorem umount_of_visible {works : Table → Text → Bool} {table : Table} {path id : Text}
    (visible : table.sees path id = some .visible) : table.umount works path =
      if table.Busy path id ∨ works table path = false then none else some id := by
  rcases sees_eq_visible.mp visible with ⟨norm, isNorm, -, shown⟩
  rcases shown_iff.mp shown with ⟨-, -, one, tops⟩
  have isTop : table.visible table.paths norm = some id := visible_eq_some.mpr ⟨one, tops⟩
  have isBusy : table.Busy path id ↔ norm = [slash] ∨ table.bears id = true := by
    unfold Busy
    rw [isNorm, Option.some_inj]
  rw [umount, isNorm, Option.bind_some, isTop]
  simp only [isBusy]
  by_cases isRoot : norm = [slash]
  · simp [isRoot]
  · cases bears : table.bears id <;> cases works table path <;> simp [isRoot, bears]

/-! ## Absent mounts stay absent -/

theorem pointOf_without_eq_none {table : Table} {id gone : Text} (absent : table.pointOf id = none) :
    (table.without gone).pointOf id = none := by
  by_cases same : id = gone
  · rw [same]
    exact pointOf_without_self table gone
  · rw [pointOf_without table same]
    exact absent

theorem absent_without {table : Table} {path id gone : Text}
    (absent : table.sees path id = some .absent) :
    (table.without gone).sees path id = some .absent := by
  rcases sees_eq_absent.mp absent with ⟨norm, isNorm, number, good, none⟩
  exact sees_eq_absent.mpr ⟨norm, isNorm, number, good, pointOf_without_eq_none none⟩

theorem pointOf_run_without {table : Table} {ids : List Text} {id : Text}
    (absent : id ∈ ids ∨ table.pointOf id = none) : (run without table ids).pointOf id = none := by
  induction ids generalizing table with
  | nil => exact absent.resolve_left List.not_mem_nil
  | cons first rest induction =>
      apply induction
      rcases absent with member | none
      · rcases List.mem_cons.mp member with rfl | later
        · exact .inr (pointOf_without_self table id)
        · exact .inl later
      · exact .inr (pointOf_without_eq_none none)

end Table

theorem pointOf_root (space : Space) : space.table.pointOf space.root.id = some [slash] := by
  apply (Table.pointOf_eq_some (Table.read_distinct space.mountinfo)).mpr
  refine ⟨Row.of space.root, ?_, rfl, ?_⟩
  · rw [space.describes.rows]
    exact List.mem_map_of_mem space.describes.tree.member
  · rw [Row.of, space.describes.tree.atRoot]
    rfl

/-- An unmount takes the visible mount out of the table. -/
theorem Space.table_detached {space : Space} {path id : Text}
    (visible : space.table.sees path id = some .visible) (idle : ¬space.table.Busy path id) :
    (space.without id).table = space.table.without id := by
  rcases Table.sees_eq_visible.mp visible with ⟨norm, isNorm, -, shown⟩
  apply Space.table_without
  · rintro rfl
    have isPoint := (Table.shown_iff.mp shown).2.1
    rw [pointOf_root, Option.some_inj] at isPoint
    exact idle (.inl (isPoint ▸ isNorm))
  · rw [← Bool.not_eq_true]
    exact fun bears => idle (.inr bears)

/-- Whatever order awk takes, the same mounts are visible. -/
theorem World.role_eq_visible {world : World} (isReadable : world.readable = true) {visit : Visit}
    {path id : Text} : world.role visit path id = some .visible ↔
      world.space.table.sees path id = some .visible := by
  rw [World.role, if_pos isReadable, Table.sees]
  cases pmNorm path with
  | none => exact Iff.rfl
  | some norm =>
      cases isNumber id with
      | false => exact Iff.rfl
      | true =>
          simp only [Option.map_some, if_true, Option.some.injEq]
          rw [Table.role_eq_visible, Table.role_eq_visible]
          apply and_congr_right
          intro _
          have distinct := Table.read_distinct world.space.mountinfo
          rw [← Table.visible_iff_roleOf distinct fun path => (visit.property _ path).symm]
          exact Table.visible_iff_roleOf distinct fun _ => Iff.rfl

/-! ## What can be unmounted -/

section Free

variable {libraries lines failed : List Text}

/-- A line names the mount, it is visible there, and it is not busy. -/
structure Free (libraries lines failed : List Text) (table : Table) (id : Text) : Prop where
  distinct : Distinct Row.id table.rows
  visible : ∃ line ∈ lines, line ∉ failed ∧ ∃ path, record libraries line = some (id, path) ∧
    table.sees path id = some .visible ∧ ¬table.Busy path id

theorem Free.leaf {table : Table} {id : Text} (free : Free libraries lines failed table id) :
    table.bears id = false := by
  rcases free.visible with ⟨_, _, _, _, _, _, idle⟩
  simpa using fun bears => idle (.inr bears)

theorem Table.bears_without {table : Table} {id gone : Text} (leaf : table.bears id = false) :
    (table.without gone).bears id = false :=
  bears_eq_false.mpr fun row member => bears_eq_false.mp leaf row (List.mem_of_mem_filter member)

theorem Free.without {table : Table} {id gone : Text} (free : Free libraries lines failed table id)
    (other : Free libraries lines failed table gone) (differs : id ≠ gone) :
    Free libraries lines failed (table.without gone) id := by
  rcases free.visible with ⟨line, member, notFailed, path, isRecord, visible, idle⟩
  rcases other.visible with ⟨_, _, _, _, _, otherVisible, _⟩
  rcases Table.sees_eq_visible.mp visible with ⟨norm, isNorm, number, shown⟩
  rcases Table.sees_eq_visible.mp otherVisible with ⟨_, _, _, otherShown⟩
  refine ⟨distinct_filter free.distinct _, line, member, notFailed, path, isRecord, ?_, ?_⟩
  · exact Table.sees_eq_visible.mpr
      ⟨norm, isNorm, number, shown.without free.distinct otherShown other.leaf differs⟩
  · rintro (isRoot | bears)
    · exact idle (.inl isRoot)
    · rw [Table.bears_without free.leaf] at bears
      cases bears

/-- The order of the unmounts does not decide what can be unmounted. -/
theorem persistent_free :
    Peeling.Persistent Table.without (Free libraries lines failed) where
  commutes := Table.without_comm
  stays _ _ _ free other differs := free.without other differs

end Free

/-! ## What a sweep has unmounted -/

section Peeled

variable {works : Table → Text → Bool} {libraries lines : List Text} {start : Table}

/-- The mounts that are gone were unmounted one after the other, each by a line whose unmount has
not failed, and never fails later on. -/
structure Peeled (libraries lines : List Text) (start : Table) (sweep : Sweep) : Prop where
  distinct : Distinct Row.id sweep.table.rows
  peeled : ∃ ids, sweep.table = run Table.without start ids ∧
    ∀ failed : List Text, (∀ line ∈ failed, line ∈ sweep.failed ∨
        ∃ id path, record libraries line = some (id, path) ∧ sweep.table.pointOf id ≠ none) →
      Along Table.without (Free libraries lines failed) start ids

/-- A line that names a visible mount is tried once. -/
theorem Sweep.line_of_visible {sweep : Sweep} {line id path : Text}
    (isRecord : record libraries line = some (id, path)) (fresh : line ∉ sweep.failed)
    (visible : sweep.table.sees path id = some .visible) : sweep.line works libraries line =
      if sweep.table.Busy path id ∨ works sweep.table path = false then
        { sweep with failed := sweep.failed ++ [line] }
      else { sweep with table := sweep.table.without id } := by
  rw [Sweep.line, isRecord]
  dsimp only
  rw [if_neg fresh, if_pos visible, Table.umount_of_visible visible]
  by_cases stuck : sweep.table.Busy path id ∨ works sweep.table path = false
  · rw [if_pos stuck, if_pos stuck]
  · rw [if_neg stuck, if_neg stuck]

/-- What one line does to a sweep. -/
theorem Sweep.line_cases (sweep : Sweep) (line : Text) :
    sweep.line works libraries line = sweep ∨
    ∃ id path, record libraries line = some (id, path) ∧ line ∉ sweep.failed ∧
      sweep.table.sees path id = some .visible ∧
      ((¬sweep.table.Busy path id ∧
          sweep.line works libraries line = { sweep with table := sweep.table.without id }) ∨
        sweep.line works libraries line = { sweep with failed := sweep.failed ++ [line] }) := by
  cases isRecord : record libraries line with
  | none =>
      left
      rw [Sweep.line, isRecord]
  | some pair =>
      rcases pair with ⟨id, path⟩
      by_cases hasFailed : line ∈ sweep.failed
      · left
        rw [Sweep.line, isRecord]
        exact if_pos hasFailed
      · by_cases visible : sweep.table.sees path id = some .visible
        · refine .inr ⟨id, path, rfl, hasFailed, visible, ?_⟩
          rw [Sweep.line_of_visible isRecord hasFailed visible]
          by_cases stuck : sweep.table.Busy path id ∨ works sweep.table path = false
          · rw [if_pos stuck]
            exact .inr rfl
          · rw [if_neg stuck]
            exact .inl ⟨fun busy => stuck (.inl busy), rfl⟩
        · left
          rw [Sweep.line, isRecord]
          dsimp only
          rw [if_neg hasFailed, if_neg visible]

theorem peeled_start (distinct : Distinct Row.id start.rows) :
    Peeled libraries lines start ⟨start, []⟩ :=
  ⟨distinct, [], rfl, fun _ _ => trivial⟩

theorem Peeled.line {sweep : Sweep} (peeled : Peeled libraries lines start sweep) {line : Text}
    (member : line ∈ lines) : Peeled libraries lines start (sweep.line works libraries line) := by
  rcases sweep.line_cases line with same | ⟨id, path, isRecord, fresh, visible, ⟨idle, gone⟩ | failed⟩
  · rw [same]
    exact peeled
  · rw [gone]
    rcases peeled.peeled with ⟨ids, isRun, along⟩
    refine ⟨distinct_filter peeled.distinct _, ids ++ [id], ?_, ?_⟩
    · rw [run_append, ← isRun]
      rfl
    · intro failed later
      have before : Along Table.without (Free libraries lines failed) start ids := by
        apply along
        intro other isFailed
        refine (later other isFailed).imp_right ?_
        rintro ⟨otherId, otherPath, otherRecord, there⟩
        exact ⟨otherId, otherPath, otherRecord, fun none => there (Table.pointOf_without_eq_none none)⟩
      rw [along_append, ← isRun]
      refine ⟨before, ⟨peeled.distinct, line, member, ?_, path, isRecord, visible, idle⟩, trivial⟩
      intro isFailed
      rcases later line isFailed with old | ⟨otherId, otherPath, otherRecord, there⟩
      · exact fresh old
      · rw [isRecord] at otherRecord
        cases otherRecord
        exact there (Table.pointOf_without_self _ _)
  · rw [failed]
    rcases peeled.peeled with ⟨ids, isRun, along⟩
    refine ⟨peeled.distinct, ids, isRun, fun failed later => along failed fun other isFailed => ?_⟩
    rcases later other isFailed with inFailed | there
    · rcases List.mem_append.mp inFailed with old | new
      · exact .inl old
      · rw [List.mem_singleton.mp new]
        exact .inr ⟨id, path, isRecord, Table.pointOf_of_visible visible⟩
    · exact .inr there

theorem Peeled.through {sweep : Sweep} (peeled : Peeled libraries lines start sweep)
    {some : List Text} (inside : ∀ line ∈ some, line ∈ lines) :
    Peeled libraries lines start (sweep.through works libraries some) := by
  induction some generalizing sweep with
  | nil => exact peeled
  | cons line rest induction =>
      exact induction (peeled.line (inside line List.mem_cons_self))
        fun other member => inside other (List.mem_cons_of_mem _ member)

theorem mem_ranked {line : Text} : line ∈ Program.ranked lines ↔ line ∈ lines ∧ line ≠ [] := by
  rw [Program.ranked, List.mem_mergeSort, List.mem_filter, decide_eq_true_iff]

theorem Peeled.sweeps {sweep : Sweep} (peeled : Peeled libraries lines start sweep) (count : Nat) :
    Peeled libraries lines start (sweep.sweeps works libraries lines count) := by
  induction count generalizing sweep with
  | zero => exact peeled
  | succ count induction =>
      exact induction (peeled.through fun line member => (mem_ranked.mp member).1)

end Peeled

/-! ## What is left -/

section Left

variable {works : Table → Text → Bool} {libraries lines : List Text}

/-- A line is reported: it has no id, or it can neither be dropped nor unmounted. -/
def Told (libraries : List Text) (sweep : Sweep) (line : Text) : Prop :=
  pmEntryPath line ≠ [] ∧ pmProtected libraries (pmEntryPath line) = false ∧
    ∀ id ∈ pmEntryId line, line ∉ sweep.failed ∧
      sweep.table.sees (pmEntryPath line) id ≠ some .absent ∧
      sweep.table.sees (pmEntryPath line) id ≠ some .visible

/-- The status of the cleanup. -/
def Silent (libraries lines : List Text) (sweep : Sweep) : Prop :=
  sweep.failed = [] ∧ ∀ line ∈ lines, ¬Told libraries sweep line

/-- After the last sweep, a mount that is visible and was not tried is busy, and something is
reported. -/
def Enough (works : Table → Text → Bool) (libraries lines : List Text) (table : Table) : Prop :=
  let last := Sweep.sweeps works libraries lines 64 ⟨table, []⟩
  ∀ line ∈ lines, ∀ id path, record libraries line = some (id, path) → line ∉ last.failed →
    last.table.sees path id = some .visible → last.table.Busy path id ∧ ¬Silent libraries lines last

/-- Whatever can be unmounted in any order is gone, and nothing is left in silence. -/
structure Complete (libraries lines : List Text) (start : Table) (status : Nat) (last : Sweep) :
    Prop where
  gone : ∀ ids, Along Table.without (Free libraries lines last.failed) start ids →
    ∀ id ∈ ids, last.table.pointOf id = none
  told : status = 0 → ∀ line ∈ lines, ∀ id path, record libraries line = some (id, path) →
    last.table.pointOf id = none

theorem complete_iff_enough {start : Table} (distinct : Distinct Row.id start.rows) {status : Nat}
    (isStatus : status = 0 ↔
      Silent libraries lines (Sweep.sweeps works libraries lines 64 ⟨start, []⟩)) :
    Complete libraries lines start status (Sweep.sweeps works libraries lines 64 ⟨start, []⟩) ↔
      Enough works libraries lines start := by
  have peeled : Peeled libraries lines start (Sweep.sweeps works libraries lines 64 ⟨start, []⟩) :=
    (peeled_start distinct).sweeps 64
  dsimp only [Enough]
  generalize Sweep.sweeps works libraries lines 64 ⟨start, []⟩ = last at *
  rcases peeled.peeled with ⟨removed, isRun, along⟩
  have removable := along last.failed fun line isFailed => .inl isFailed
  constructor
  · intro complete line member id path isRecord fresh visible
    have there := Table.pointOf_of_visible visible
    constructor
    · -- otherwise the mount could be unmounted as well
      by_contra idle
      have further : Along Table.without (Free libraries lines last.failed) start (removed ++ [id]) := by
        rw [along_append, ← isRun]
        exact ⟨removable, ⟨peeled.distinct, line, member, fresh, path, isRecord, visible, idle⟩, trivial⟩
      exact there (complete.gone _ further id (List.mem_append_right _ (List.mem_singleton_self id)))
    · intro silent
      exact there (complete.told (isStatus.mpr silent) line member id path isRecord)
  · intro enough
    constructor
    · intro ids isRemovable id member
      have exhausted : ∀ other,
          ¬Free libraries lines last.failed (run Table.without start removed) other := by
        rintro other ⟨-, line, inLines, fresh, path, isRecord, visible, idle⟩
        rw [← isRun] at visible idle
        exact idle (enough line inLines other path isRecord fresh visible).1
      rw [isRun]
      exact Table.pointOf_run_without
        (.inl (persistent_free.subset_of_exhausted removable exhausted isRemovable member))
    · intro isZero line member id path isRecord
      have silent := isStatus.mp isZero
      rcases record_eq_some.mp isRecord with ⟨nonempty, free, isId, rfl⟩
      have fresh : line ∉ last.failed := by
        rw [silent.1]
        exact List.not_mem_nil
      by_contra there
      apply silent.2 line member
      refine ⟨nonempty, free, fun other isOther => ?_⟩
      cases isId.symm.trans isOther
      refine ⟨fresh, fun absent => ?_, fun visible => ?_⟩
      · rcases Table.sees_eq_absent.mp absent with ⟨-, -, -, -, none⟩
        exact there none
      · exact (enough line member id _ isRecord fresh visible).2 silent

end Left

/-! ## Lines that are dropped -/

section Dropped

variable {works : Table → Text → Bool} {libraries lines : List Text}

/-- The line names a path that is protected, or a mount that is gone. -/
def Dropped (libraries : List Text) (table : Table) (line : Text) : Prop :=
  line = [] ∨ pmEntryPath line ≠ [] ∧ (pmProtected libraries (pmEntryPath line) = true ∨
    ∃ id ∈ pmEntryId line, table.sees (pmEntryPath line) id = some .absent)

theorem Dropped.without {table : Table} {line : Text} (dropped : Dropped libraries table line)
    (gone : Text) : Dropped libraries (table.without gone) line := by
  refine dropped.imp_right (And.imp_right (Or.imp_right ?_))
  rintro ⟨id, isId, absent⟩
  exact ⟨id, isId, Table.absent_without absent⟩

theorem Dropped.not_told {sweep : Sweep} {line : Text} (dropped : Dropped libraries sweep.table line) :
    ¬Told libraries sweep line := by
  rintro ⟨nonempty, free, told⟩
  rcases dropped with rfl | ⟨-, isProtected | ⟨id, isId, absent⟩⟩
  · exact nonempty rfl
  · rw [free] at isProtected
    cases isProtected
  · exact (told id isId).2.1 absent

/-- Where the line names a visible mount, it was tried and has failed. -/
def Exhausted (libraries : List Text) (sweep : Sweep) (line : Text) : Prop :=
  ∀ id path, record libraries line = some (id, path) →
    sweep.table.sees path id = some .visible → line ∈ sweep.failed

theorem line_of_exhausted {sweep : Sweep} {line : Text} (exhausted : Exhausted libraries sweep line) :
    sweep.line works libraries line = sweep := by
  rcases sweep.line_cases line with same | ⟨id, path, isRecord, fresh, visible, -⟩
  · exact same
  · exact absurd (exhausted id path isRecord visible) fresh

theorem Dropped.exhausted {sweep : Sweep} {line : Text}
    (dropped : Dropped libraries sweep.table line) : Exhausted libraries sweep line := by
  intro id path isRecord visible
  rcases record_eq_some.mp isRecord with ⟨nonempty, free, isId, rfl⟩
  rcases dropped with rfl | ⟨-, isProtected | ⟨other, isOther, absent⟩⟩
  · exact absurd rfl nonempty
  · rw [free] at isProtected
    cases isProtected
  · cases isId.symm.trans isOther
    rw [visible] at absent
    cases absent

theorem line_of_dropped {sweep : Sweep} {line : Text} (dropped : Dropped libraries sweep.table line) :
    sweep.line works libraries line = sweep :=
  line_of_exhausted dropped.exhausted

theorem dropped_line {sweep : Sweep} {line other : Text}
    (dropped : Dropped libraries sweep.table other) :
    Dropped libraries (sweep.line works libraries line).table other := by
  rcases sweep.line_cases line with same | ⟨id, path, -, -, -, ⟨-, gone⟩ | failed⟩
  · rw [same]
    exact dropped
  · rw [gone]
    exact dropped.without id
  · rw [failed]
    exact dropped

open Classical in
/-- The lines that are dropped have no part in a sweep. -/
theorem through_filter (sweep : Sweep) (table : Table) (some : List Text)
    (dropped : ∀ line, Dropped libraries table line → Dropped libraries sweep.table line) :
    sweep.through works libraries some =
      sweep.through works libraries (some.filter fun line => ¬Dropped libraries table line) := by
  induction some generalizing sweep with
  | nil => rfl
  | cons line rest induction =>
      have next : ∀ sweep : Sweep,
          sweep.through works libraries (line :: rest) =
            (sweep.line works libraries line).through works libraries rest := fun _ => rfl
      rw [next]
      by_cases isDropped : Dropped libraries table line
      · rw [List.filter_cons_of_neg (by simpa using isDropped), line_of_dropped (dropped line isDropped)]
        exact induction sweep dropped
      · rw [List.filter_cons_of_pos (by simpa using isDropped)]
        exact induction _ fun other isOther => dropped_line (dropped other isOther)

/-- The order of two lines of a sweep. -/
def precedes (first second : Text) : Bool :=
  (pmEntryPath second).length < (pmEntryPath first).length ||
    ((pmEntryPath second).length = (pmEntryPath first).length && decide (first ≤ second))

theorem precedes_iff {first second : Text} : precedes first second = true ↔
    (pmEntryPath second).length < (pmEntryPath first).length ∨
      (pmEntryPath second).length = (pmEntryPath first).length ∧ first ≤ second := by
  simp [precedes]

theorem ranked_sorted (lines : List Text) :
    (Program.ranked lines).Pairwise fun first second => precedes first second = true := by
  refine List.pairwise_mergeSort (fun first second third one two => ?_) (fun first second => ?_) _
  · rcases precedes_iff.mp one with longer | ⟨same, le⟩ <;>
      rcases precedes_iff.mp two with longer' | ⟨same', le'⟩
    · exact precedes_iff.mpr (.inl (by omega))
    · exact precedes_iff.mpr (.inl (by omega))
    · exact precedes_iff.mpr (.inl (by omega))
    · exact precedes_iff.mpr (.inr ⟨by omega, List.le_trans le le'⟩)
  · rw [Bool.or_eq_true]
    rw [precedes_iff, precedes_iff]
    rcases Nat.lt_trichotomy (pmEntryPath second).length (pmEntryPath first).length with
      less | same | more
    · exact .inl (.inl less)
    · exact (List.le_total first second).imp (fun le => .inr ⟨same, le⟩)
        fun le => .inr ⟨same.symm, le⟩
    · exact .inr (.inl more)

theorem precedes_antisymm {first second : Text} (one : precedes first second = true)
    (two : precedes second first = true) : first = second := by
  rcases precedes_iff.mp one with longer | ⟨same, le⟩ <;>
    rcases precedes_iff.mp two with longer' | ⟨same', le'⟩
  · omega
  · omega
  · omega
  · exact List.le_antisymm le le'

open Classical in
/-- Two registries with the same lines, but for those that are dropped, are swept alike. -/
theorem through_ranked {others : List Text} (sweep : Sweep)
    (same : ∀ line, ¬Dropped libraries sweep.table line → others.count line = lines.count line) :
    sweep.through works libraries (Program.ranked others) =
      sweep.through works libraries (Program.ranked lines) := by
  rw [through_filter sweep sweep.table (Program.ranked others) fun _ => id,
    through_filter sweep sweep.table (Program.ranked lines) fun _ => id]
  congr 1
  apply List.Perm.eq_of_pairwise (fun _ _ _ _ => precedes_antisymm)
    ((ranked_sorted others).filter _) ((ranked_sorted lines).filter _)
  apply List.perm_iff_count.mpr
  intro line
  by_cases dropped : Dropped libraries sweep.table line
  · rw [List.count_eq_zero_of_not_mem (by simp [dropped]),
      List.count_eq_zero_of_not_mem (by simp [dropped])]
  · have nonempty : line ≠ [] := fun empty => dropped (.inl empty)
    have counted : ∀ some : List Text, (Program.ranked some).count line = some.count line := by
      intro some
      rw [Program.ranked, (List.mergeSort_perm _ _).count_eq, List.count_filter (by simpa using nonempty)]
    rw [List.count_filter (by simpa using dropped), List.count_filter (by simpa using dropped),
      counted, counted, same line dropped]

theorem failed_subset_through (sweep : Sweep) (some : List Text) :
    sweep.failed ⊆ (sweep.through works libraries some).failed := by
  induction some generalizing sweep with
  | nil => exact List.Subset.refl _
  | cons line rest induction =>
      refine List.Subset.trans ?_ (induction (sweep.line works libraries line))
      rcases sweep.line_cases line with same | ⟨id, path, -, -, -, ⟨-, gone⟩ | failed⟩
      · rw [same]
        exact List.Subset.refl _
      · rw [gone]
        exact List.Subset.refl _
      · rw [failed]
        exact List.subset_append_left _ _

/-- A sweep that finds nothing to try changes nothing, and neither do the later ones. -/
theorem sweeps_of_exhausted {sweep : Sweep} (exhausted : ∀ line ∈ lines, Exhausted libraries sweep line)
    (count : Nat) : sweep.sweeps works libraries lines count = sweep := by
  have idle : ∀ some : List Text, (∀ line ∈ some, line ∈ lines) →
      sweep.through works libraries some = sweep := by
    intro some inside
    induction some with
    | nil => rfl
    | cons line rest induction =>
        have next : sweep.through works libraries (line :: rest) =
            (sweep.line works libraries line).through works libraries rest := rfl
        rw [next, line_of_exhausted (exhausted line (inside line List.mem_cons_self))]
        exact induction fun other member => inside other (List.mem_cons_of_mem _ member)
  induction count with
  | zero => rfl
  | succ count induction =>
      rw [Sweep.sweeps, idle _ fun line member => (mem_ranked.mp member).1]
      exact induction

end Dropped

end Zlyme.Portmaster
