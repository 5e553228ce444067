import Zlyme.Portmaster.Registry

/-! # What the registry records

A line of the registry names a mount that a mount command of the wrapper made or moved.
-/

namespace Zlyme.Portmaster

open Foundation Foundation.Script Foundation.Execution Foundation.MountTree

/-! ## Lines and paths -/

theorem entry_cut {id path : Text} (number : isNumber id = true) :
    Text.cut tab (entry id path) = some (id, path) := by
  apply Text.cut_append
  intro member
  rw [isNumber, Bool.and_eq_true, List.all_eq_true] at number
  exact absurd (number.2 tab member) (by decide)

theorem pmEntryPath_entry {id path : Text} (number : isNumber id = true) :
    pmEntryPath (entry id path) = path := by
  rw [pmEntryPath, entry_cut number]

theorem pmEntryId_entry {id path : Text} (number : isNumber id = true) :
    pmEntryId (entry id path) = some id := by
  rw [pmEntryId, entry_cut number]
  exact if_pos number

theorem stripSlashes_idem (path : Text) : stripSlashes (stripSlashes path) = stripSlashes path := by
  unfold stripSlashes
  split
  · rfl
  · rw [List.rdropWhile_idempotent]
    rw [if_neg ‹_›]

theorem stripSlashes_head {path : Text} (starts : path.head? = some slash) :
    (stripSlashes path).head? = some slash := by
  unfold stripSlashes
  split
  · rfl
  · rename_i nonempty
    rcases List.rdropWhile_prefix (l := path) (· == slash) with ⟨rest, whole⟩
    rcases stripped : path.rdropWhile (· == slash) with _ | ⟨first, tail⟩
    · exact absurd stripped nonempty
    · rw [stripped] at whole
      rw [← whole] at starts
      exact starts

theorem pmNorm_idem {path norm : Text} (isNorm : pmNorm path = some norm) :
    pmNorm norm = some norm := by
  unfold pmNorm at isNorm
  split at isNorm
  · rename_i starts
    split at isNorm
    · cases isNorm
    · rename_i plain
      cases isNorm
      rw [pmNorm, stripSlashes_idem, if_pos (stripSlashes_head starts), if_neg plain]
  · cases isNorm

/-! ## The mounts at a path -/

theorem Space.mem_idsAt (space : Space) {path id : Text} :
    id ∈ (Table.read space.mountinfo).idsAt path ↔
      ∃ mount ∈ space.mounts, render mount.point = path ∧ mount.id = id := by
  rw [Table.mem_idsAt]
  constructor
  · rintro ⟨row, member, point, isId⟩
    rcases space.describes.mem_rows.mp member with ⟨mount, isMount, rfl⟩
    exact ⟨mount, isMount, point, isId⟩
  · rintro ⟨mount, isMount, point, isId⟩
    exact ⟨Row.of mount, space.describes.mem_rows.mpr ⟨mount, isMount, rfl⟩, point, isId⟩

theorem Space.mem_ids {space : Space} {id : Text} :
    id ∈ space.ids ↔ ∃ mount ∈ space.mounts, mount.id = id :=
  List.mem_map

theorem World.idsAt_eq {world : World} {path norm : Text} (isNorm : pmNorm path = some norm) :
    world.idsAt path = if world.readable then some ((Table.read world.space.mountinfo).idsAt norm)
      else none := by
  rw [World.idsAt, isNorm]
  simp [pmMountinfoAwk, world.space.describes.good]

/-- An id that is called visible at a path names the mount that an unmount detaches. -/
theorem Space.detaches_of_roleOf {space : Space} {order : List Text} {id path : Text}
    (lists : ∀ point, point ∈ order ↔ point ∈ (Table.read space.mountinfo).paths)
    (visible : (Table.read space.mountinfo).roleOf order id path = .visible) :
    id ∈ space.ids ∧ ∃ mount, mount.id = id ∧ ∀ there, space.Detaches path there ↔ there = mount := by
  rcases space.describes.resolves (Table.read_distinct _) lists visible with
    ⟨mount, member, isId, point, only⟩
  refine ⟨Space.mem_ids.mpr ⟨mount, member, isId⟩, mount, isId, fun there => ⟨?_, ?_⟩⟩
  · rintro ⟨isMount, isPoint, resolves⟩
    have same : there.point = mount.point :=
      render_injective (space.describes.names there isMount)
        (space.describes.names mount member) (isPoint.trans point.symm)
    exact (only there).mp (same ▸ resolves)
  · rintro rfl
    exact ⟨member, point, (only there).mpr rfl⟩

theorem World.detaches_of_role {world : World} {visit : Visit} {id path : Text}
    (isNorm : pmNorm path = some path) (visible : world.role visit path id = some .visible) :
    id ∈ world.space.ids ∧ ∃ mount, mount.id = id ∧
      ∀ there, world.space.Detaches path there ↔ there = mount := by
  have role : (Table.read world.space.mountinfo).roleOf
      (visit.val (Table.read world.space.mountinfo).paths) id path = .visible := by
    unfold World.role at visible
    rw [isNorm] at visible
    split at visible
    · by_cases number : isNumber id = true
      · simp only [Option.map_some, number, if_true, Option.some.injEq] at visible
        exact (Table.role_eq_visible.mp visible).2
      · simp [number] at visible
    · cases visible
  exact world.space.detaches_of_roleOf (visit.property _) role

/-! ## Owned lines -/

/-- A line that was recorded, and whose mount, while it is there, is one that the
wrapper made or moved. -/
def Owned (world : World) (line : Text) : Prop :=
  ∃ id path, line = entry id path ∧ isNumber id = true ∧ pmNorm path = some path ∧
    id ∈ world.recorded ∧ id ∈ world.used ∧
    (id ∈ world.space.ids → id ∈ world.created ∨ id ∈ world.moved)

structure Sound (world : World) : Prop where
  used : ∀ id ∈ world.space.ids, id ∈ world.used
  owned : ∀ line ∈ world.registry, Owned world line

/-- What every operation keeps. -/
structure Later (before after : World) : Prop where
  sound : Sound after
  owned : ∀ line, Owned before line → Owned after line
  libraries : after.libraries = before.libraries

theorem Later.refl {world : World} (sound : Sound world) : Later world world :=
  ⟨sound, fun _ => id, rfl⟩

theorem Later.trans {before between after : World} (first : Later before between)
    (second : Later between after) : Later before after :=
  ⟨second.sound, fun line owned => second.owned line (first.owned line owned),
    second.libraries.trans first.libraries⟩

/-- No id is used again. -/
def isFresh (world : World) (next : Space) : Bool :=
  next.ids.all fun id => world.space.ids.contains id || !world.used.contains id

theorem isFresh_iff {world : World} {next : Space} : isFresh world next = true ↔
    ∀ id ∈ next.ids, id ∈ world.used → id ∈ world.space.ids := by
  simp [isFresh, or_iff_not_imp_right]

section Steps

variable {world : World} {next : Space}

theorem change_later (sound : Sound world) (fresh : isFresh world next = true) :
    Later world (world.change next) := by
  have owned : ∀ line, Owned world line → Owned (world.change next) line := by
    rintro line ⟨id, path, isEntry, number, isNorm, recorded, used, mine⟩
    refine ⟨id, path, isEntry, number, isNorm, recorded, List.mem_append_left _ used, ?_⟩
    intro live
    have before := isFresh_iff.mp fresh id live used
    have kept : world.space.ids.contains id = true := List.contains_iff_mem.mpr before
    exact (mine before).imp (fun created => List.mem_filter.mpr ⟨created, kept⟩)
      fun moved => List.mem_filter.mpr ⟨moved, kept⟩
  refine ⟨⟨fun id live => List.mem_append_right _ live, fun line member => ?_⟩, owned, rfl⟩
  exact owned line (sound.owned line member)

theorem create_later (sound : Sound world) (fresh : isFresh world next = true) :
    Later world (world.create next) := by
  have changed := change_later sound fresh
  have owned : ∀ line, Owned (world.change next) line → Owned (world.create next) line := by
    rintro line ⟨id, path, isEntry, number, isNorm, recorded, used, mine⟩
    refine ⟨id, path, isEntry, number, isNorm, recorded, used, fun live => ?_⟩
    exact (mine live).imp (List.mem_append_left _) (List.mem_append_left _)
  exact ⟨⟨changed.sound.used, fun line member => owned line (changed.sound.owned line member)⟩,
    fun line before => owned line (changed.owned line before), rfl⟩

theorem replace_later (sound : Sound world) {lines : List Text}
    (owned : ∀ line ∈ lines, Owned world line) :
    Later world { world with registry := lines } :=
  ⟨⟨sound.used, owned⟩, fun _ => id, rfl⟩

end Steps

/-! ## Programs that keep the registry sound -/

section Keeps

variable (machine : Script.Machine Call Call.Result Choice World) (contract : Contract Call World)

def Keeps {α : Type} (program : Program α) : Prop :=
  ∀ world, Sound world → program.Ensures machine contract (fun _ after => Later world after) world

variable {machine contract} {α β : Type}

theorem Keeps.pure (value : α) : Keeps machine contract (Pure.pure value : Program α) :=
  fun _ sound => Later.refl sound

theorem Keeps.bind {first : Program α} {rest : α → Program β}
    (keeps : Keeps machine contract first) (keepsRest : ∀ value, Keeps machine contract (rest value)) :
    Keeps machine contract (first >>= rest) := by
  intro world sound
  refine Ensures.bind (keeps world sound) fun value between first => ?_
  exact Ensures.mono (keepsRest value between first.sound) fun _ _ => first.trans

/-- What follows a step that kept the registry sound. -/
theorem Keeps.after {program : Program α} (keeps : Keeps machine contract program)
    {world between : World} (first : Later world between) :
    program.Ensures machine contract (fun _ after => Later world after) between :=
  Ensures.mono (keeps between first.sound) fun _ _ => first.trans

theorem Keeps.ite {condition : Prop} [Decidable condition] {first second : Program α}
    (keeps : Keeps machine contract first) (keepsOther : Keeps machine contract second) :
    Keeps machine contract (if condition then first else second) := by
  split
  · exact keeps
  · exact keepsOther

end Keeps

/-! ## The wrappers -/

/-- The id of a line that may be recorded was brought to the path by the last mount
command. -/
def Recordable (world : World) (line : Text) : Prop :=
  ∃ id path, line = entry id path ∧ isNumber id = true ∧ pmNorm path = some path ∧
    pmProtected world.libraries path = false ∧ id ∈ world.last ∧
    (id ∈ world.created ∨ id ∈ world.moved) ∧
    ∃ mount ∈ world.space.mounts, render mount.point = path ∧ mount.id = id

def recording : Contract Call World where
  rely _ _ := True
  guard call world := ∀ line, call = .append line → Recordable world line
  stop := Sound
  exit _ := Sound

/-- No mount command brings an id that was in use before. -/
def lawful (call : Call) (choice : Choice) (world : World) : Bool :=
  match call with
  | .mount _ => choice.next.all (isFresh world)
  | .umount _ => choice.next.all (isFresh world)
  | _ => true

abbrev wrapping : Script.Machine Call Call.Result Choice World :=
  machine.restrict lawful

section Wrapping

variable {world : World}

theorem append_later (sound : Sound world) {line : Text} (recordable : Recordable world line) :
    Later world { world with
      registry := world.registry ++ [line]
      recorded := world.recorded ++ (pmEntryId line).toList } := by
  have owned : ∀ other, Owned world other → Owned { world with
      registry := world.registry ++ [line]
      recorded := world.recorded ++ (pmEntryId line).toList } other := by
    rintro other ⟨id, path, isEntry, number, isNorm, recorded, rest⟩
    exact ⟨id, path, isEntry, number, isNorm, List.mem_append_left _ recorded, rest⟩
  refine ⟨⟨sound.used, fun other member => ?_⟩, owned, rfl⟩
  rcases List.mem_append.mp member with before | new
  · exact owned other (sound.owned other before)
  · cases List.mem_singleton.mp new
    rcases recordable with ⟨id, path, rfl, number, isNorm, _, _, mine, mount, isMount, _, isId⟩
    refine ⟨id, path, rfl, number, isNorm, ?_, ?_, fun _ => mine⟩
    · rw [pmEntryId_entry number]
      simp
    · exact sound.used id (Space.mem_ids.mpr ⟨mount, isMount, isId⟩)

theorem issue_ensures {call : Call} {post : call.Result → World → Prop} (sound : Sound world)
    (guarded : ∀ line, call = .append line → Recordable world line)
    (answers : ∀ choice, lawful call choice world = true →
      post (call.perform choice world).1 (call.perform choice world).2) :
    (Program.issue call).Ensures wrapping recording post world := by
  refine Ensures.issue sound guarded fun _ choice => ?_
  unfold wrapping Script.Machine.restrict
  by_cases admitted : lawful call choice world = true
  · rw [if_pos admitted]
    exact .inl ⟨_, _, rfl, answers choice admitted⟩
  · rw [if_neg admitted]
    exact .inr ⟨world, rfl, sound⟩

/-- An operation that only looks. -/
theorem ask_ensures {call : Call} (sound : Sound world)
    (guarded : ∀ line, call ≠ .append line)
    (quiet : ∀ choice, (call.perform choice world).2 = world) :
    (Program.issue call).Ensures wrapping recording
      (fun value after => after = world ∧ ∃ choice, value = (call.perform choice world).1) world :=
  issue_ensures sound (fun line same => absurd same (guarded line))
    fun choice _ => ⟨quiet choice, choice, rfl⟩

theorem ask_keeps {call : Call} (guarded : ∀ line, call ≠ .append line)
    (quiet : ∀ choice world, (call.perform choice world).2 = world) :
    Keeps wrapping recording (Program.issue call) := by
  intro world sound
  refine Ensures.mono (ask_ensures sound guarded fun choice => quiet choice world) ?_
  rintro _ after ⟨rfl, _⟩
  exact Later.refl sound

theorem umount_keeps (args : List Text) : Keeps wrapping recording (Program.umount args) := by
  intro world sound
  refine issue_ensures sound nofun fun choice admitted => ?_
  change Later world ((choice.next.map world.change).getD world)
  have fresh : choice.next.all (isFresh world) = true := admitted
  rcases isNext : choice.next with _ | next
  · exact Later.refl sound
  · rw [isNext] at fresh
    exact change_later sound fresh

theorem replace_keeps {lines : List Text → List Text}
    (inside : ∀ all, ∀ line ∈ lines all, line ∈ all) :
    Keeps wrapping recording (do Program.replace (lines (← Program.registry))) := by
  intro world sound
  refine Ensures.bind (ask_ensures sound nofun fun _ => rfl) ?_
  rintro _ _ ⟨rfl, _, rfl⟩
  refine issue_ensures sound nofun fun choice _ => ?_
  change Later _ (if choice.ok then _ else _)
  split
  · exact replace_later sound fun line member => sound.owned line (inside _ line member)
  · exact Later.refl sound

/-! ### A watched mount -/

/-- Every id at a path that was not there before was brought by the last mount command. -/
def Brought (world : World) (path : Text) (before : List Text) : Prop :=
  world.readable = true → ∀ norm, pmNorm path = some norm →
    ∀ id ∈ (Table.read world.space.mountinfo).idsAt norm, id ∉ before →
      id ∈ world.last ∧ (id ∈ world.created ∨ id ∈ world.moved)

theorem brought_create {next : Space} (path : Text) :
    Brought (world.create next) path ((world.idsAt path).getD []) := by
  intro isReadable norm isNorm id isThere isNew
  rcases next.mem_idsAt.mp isThere with ⟨mount, member, point, rfl⟩
  have notBefore : mount.id ∉ (Table.read world.space.mountinfo).idsAt norm := by
    have table : world.idsAt path = some ((Table.read world.space.mountinfo).idsAt norm) :=
      (World.idsAt_eq isNorm).trans (if_pos isReadable)
    rw [table] at isNew
    exact isNew
  by_cases old : mount.id ∈ world.space.ids
  · rcases Space.mem_ids.mp old with ⟨before, isBefore, sameId⟩
    have differs : before.point ≠ mount.point := by
      intro same
      exact notBefore (world.space.mem_idsAt.mpr ⟨before, isBefore, same ▸ point, sameId⟩)
    have moved : mount.id ∈ world.space.movedIn next := by
      refine List.mem_map.mpr ⟨mount, List.mem_filter.mpr ⟨member, ?_⟩, rfl⟩
      exact List.any_eq_true.mpr ⟨before, isBefore, by simp [sameId, differs]⟩
    exact ⟨List.mem_append_right _ moved, .inr (List.mem_append_right _ moved)⟩
  · have new : mount.id ∈ world.space.newIn next := by
      refine List.mem_filter.mpr ⟨Space.mem_ids.mpr ⟨mount, member, rfl⟩, ?_⟩
      simpa using old
    exact ⟨List.mem_append_left _ new, .inl (List.mem_append_right _ new)⟩

theorem brought_unchanged (path : Text) :
    Brought { world with last := [] } path ((world.idsAt path).getD []) := by
  intro isReadable norm isNorm id isThere isNew
  have table : world.idsAt path = some ((Table.read world.space.mountinfo).idsAt norm) :=
    (World.idsAt_eq isNorm).trans (if_pos isReadable)
  rw [table] at isNew
  exact absurd isThere isNew

theorem mount_ensures (sound : Sound world) (args : List Text) :
    (Program.mount args).Ensures wrapping recording (fun _ after => Later world after ∧
      ∀ path, Brought after path ((world.idsAt path).getD [])) world := by
  refine issue_ensures sound nofun fun choice admitted => ?_
  change Later world ((choice.next.map world.create).getD { world with last := [] }) ∧
    ∀ path, Brought ((choice.next.map world.create).getD { world with last := [] }) path _
  have fresh : choice.next.all (isFresh world) = true := admitted
  rcases isNext : choice.next with _ | next
  · exact ⟨⟨⟨sound.used, sound.owned⟩, fun _ => id, rfl⟩, brought_unchanged⟩
  · rw [isNext] at fresh
    exact ⟨create_later sound fresh, brought_create⟩

theorem mount_keeps (args : List Text) : Keeps wrapping recording (Program.mount args) :=
  fun _ sound => Ensures.mono (mount_ensures sound args) fun _ _ => And.left

theorem pmWatch_ensures (sound : Sound world) (path : Text) :
    (Program.pmWatch path).Ensures wrapping recording (fun watched after => after = world ∧
      ∀ before, watched = some before → before = (world.idsAt path).getD []) world := by
  unfold Program.pmWatch
  refine Ensures.bind (ask_ensures sound nofun fun _ => rfl) ?_
  rintro made _ ⟨rfl, _⟩
  split
  · exact ⟨rfl, nofun⟩
  · refine Ensures.bind (ask_ensures sound nofun fun _ => rfl) ?_
    rintro _ _ ⟨rfl, _, rfl⟩
    exact ⟨rfl, fun before same => (Option.some.inj same).symm⟩

theorem pmStoreId_ensures (sound : Sound world) {id path : Text} (isNorm : pmNorm path = some path)
    (brought : id ∈ world.last ∧ (id ∈ world.created ∨ id ∈ world.moved))
    (isThere : id ∈ (Table.read world.space.mountinfo).idsAt path) :
    (Program.pmStoreId id path).Ensures wrapping recording
      (fun _ after => Later world after) world := by
  unfold Program.pmStoreId
  rw [isNorm]
  change Ensures _ _ (if isNumber id = false then _ else _) _ _
  split
  · exact Later.refl sound
  · rename_i number
    refine Ensures.bind (ask_ensures sound nofun fun _ => rfl) ?_
    rintro isProtected after ⟨rfl, _, isValue⟩
    change isProtected = pmProtected after.libraries path at isValue
    split
    · exact Later.refl sound
    · rename_i free
      refine Ensures.bind (ask_ensures sound nofun fun _ => rfl) ?_
      rintro made _ ⟨rfl, _⟩
      split
      · exact Later.refl sound
      · have recordable : Recordable _ (entry id path) :=
          ⟨id, path, rfl, by simpa using number, isNorm, by simpa [isValue] using free, brought.1,
            brought.2, Space.mem_idsAt _ |>.mp isThere⟩
        refine issue_ensures sound (fun line same => ?_) fun _ _ => append_later sound recordable
        cases same
        exact recordable

theorem pmRegisterNew_ensures (sound : Sound world) {path : Text} {before : List Text}
    (brought : Brought world path before) :
    (Program.pmRegisterNew path before).Ensures wrapping recording
      (fun _ after => Later world after) world := by
  unfold Program.pmRegisterNew
  rcases isNorm : pmNorm path with _ | norm
  · exact Later.refl sound
  · refine Ensures.bind (ask_ensures sound nofun fun _ => rfl) ?_
    rintro made _ ⟨rfl, _⟩
    split
    · exact Later.refl sound
    · refine Ensures.bind (ask_ensures sound nofun fun _ => rfl) ?_
      rintro after _ ⟨rfl, _, isAfter⟩
      rcases after with _ | after
      · exact Later.refl sound
      · refine Ensures.bind (ask_ensures sound nofun fun _ => rfl) ?_
        rintro made _ ⟨rfl, _⟩
        split
        · exact Later.refl sound
        · split
          · rename_i id only
            have new : id ∈ Program.newIds before after := by simp [only]
            rcases List.mem_filter.mp new with ⟨isThere, isNew⟩
            change some after = World.idsAt _ norm at isAfter
            rw [World.idsAt_eq (pmNorm_idem isNorm)] at isAfter
            split at isAfter
            · rename_i isReadable
              cases isAfter
              have notBefore : id ∉ before := by
                simp only [Bool.and_eq_true, Bool.not_eq_true', List.contains_eq_mem,
                  decide_eq_false_iff_not] at isNew
                exact isNew.2
              exact pmStoreId_ensures sound (pmNorm_idem isNorm)
                (brought isReadable norm isNorm id isThere notBefore) isThere
            · cases isAfter
          · exact Later.refl sound

theorem pmCommit_ensures (sound : Sound world) {path : Text} {watched : Option (List Text)}
    (brought : ∀ before, watched = some before → Brought world path before) :
    (Program.pmCommit path watched).Ensures wrapping recording
      (fun _ after => Later world after) world := by
  rcases watched with _ | before
  · exact Later.refl sound
  · exact pmRegisterNew_ensures sound (brought before rfl)

/-! ### The rest of the wrappers -/

theorem count_keeps (path : Text) : Keeps wrapping recording (Program.count path) :=
  ask_keeps nofun fun _ _ => rfl

theorem check_keeps : Keeps wrapping recording Program.check :=
  ask_keeps nofun fun _ _ => rfl

theorem isThere_keeps (path : Text) : Keeps wrapping recording (Program.isThere path) :=
  ask_keeps nofun fun _ _ => rfl

theorem mktemp_keeps : Keeps wrapping recording Program.mktemp :=
  ask_keeps nofun fun _ _ => rfl

theorem mountedAt_keeps (path : Text) : Keeps wrapping recording (Program.mountedAt path) :=
  (count_keeps path).bind fun _ => .pure _

theorem pmReleaseGone_keeps (path : Text) :
    Keeps wrapping recording (Program.pmReleaseGone path) := by
  unfold Program.pmReleaseGone
  split
  · exact .pure _
  · refine mktemp_keeps.bind fun _ => .ite (.pure _) ?_
    refine Keeps.bind (ask_keeps nofun fun _ _ => rfl) fun ids => ?_
    split
    · exact .pure _
    · refine mktemp_keeps.bind fun _ => .ite (.pure _) ?_
      exact replace_keeps fun all line member => List.mem_of_mem_filter member

section Loaded

variable (loaded : Bool)

theorem pmNoteUmount_keeps (path : Text) :
    Keeps wrapping recording (Program.pmNoteUmount loaded path) :=
  .ite (pmReleaseGone_keeps path) (.pure _)

theorem unmountWrapperBind_keeps : Keeps wrapping recording Program.unmountWrapperBind :=
  (mountedAt_keeps wrap).bind fun _ =>
    .ite ((umount_keeps _).bind fun _ => .pure _) (.pure _)

theorem failClosed_keeps : Keeps wrapping recording (Program.failClosed loaded) := by
  refine unmountWrapperBind_keeps.bind fun _ => ?_
  refine (pmNoteUmount_keeps loaded wrap).bind fun _ => ?_
  refine (mountedAt_keeps weston).bind fun _ => .ite ?_ ?_
  · exact (umount_keeps _).bind fun _ => (pmNoteUmount_keeps loaded weston).bind fun _ => .pure _
  · exact (pmNoteUmount_keeps loaded weston).bind fun _ => .pure _

theorem wrapperReady_keeps (left : Nat) :
    Keeps wrapping recording (Program.wrapperReady left) := by
  induction left with
  | zero => exact .pure _
  | succ left induction => exact check_keeps.bind fun _ => .ite induction (.pure _)

/-- A watch, when the helpers are there. -/
theorem watch_ensures (sound : Sound world) (path : Text) :
    (Program.watch loaded path).Ensures wrapping recording
      (fun watched after => after = world ∧
        ∀ before, watched = some before → before = (world.idsAt path).getD []) world := by
  cases loaded with
  | true => exact pmWatch_ensures sound path
  | false => exact ⟨rfl, nofun⟩

/-- A commit of what was watched before the mount. -/
theorem commit_keeps {before after : World} {path : Text} {watched : Option (List Text)}
    (isWatched : ∀ ids, watched = some ids → ids = (before.idsAt path).getD [])
    (brought : ∀ path, Brought after path ((before.idsAt path).getD [])) (sound : Sound after) :
    (Program.pmCommit path watched).Ensures wrapping recording
      (fun _ last => Later after last) after :=
  pmCommit_ensures sound fun ids same => isWatched ids same ▸ brought path

theorem bindWrapper_keeps : Keeps wrapping recording (Program.bindWrapper loaded) := by
  intro world sound
  refine Ensures.bind (wrapperReady_keeps 5 world sound) ?_
  intro ready between first
  split
  · exact (failClosed_keeps loaded).after first
  · refine Ensures.bind (watch_ensures loaded first.sound wrap) ?_
    rintro watched _ ⟨rfl, isWatched⟩
    refine Ensures.bind (mount_ensures first.sound _) ?_
    rintro status mounted ⟨second, brought⟩
    have later := first.trans second
    split
    · exact (failClosed_keeps loaded).after later
    · refine Ensures.bind (commit_keeps isWatched brought later.sound) ?_
      intro _ committed third
      refine Keeps.after ?_ (later.trans third)
      refine (count_keeps wrap).bind fun one => ?_
      split
      · exact .pure _
      · exact .ite (.pure _) (failClosed_keeps loaded)

theorem preparePanfrostWrapper_keeps :
    Keeps wrapping recording (Program.preparePanfrostWrapper loaded) := by
  have failed := failClosed_keeps loaded
  refine (mountedAt_keeps weston).bind fun _ => .ite failed ?_
  refine check_keeps.bind fun _ => .ite failed ?_
  refine (mountedAt_keeps wrap).bind fun _ => .ite (bindWrapper_keeps loaded) ?_
  refine (count_keeps wrap).bind fun one => .ite ?_ failed
  refine (umount_keeps _).bind fun _ => .ite failed ?_
  exact (pmNoteUmount_keeps loaded wrap).bind fun _ => bindWrapper_keeps loaded

theorem mountWeston_keeps (args : List Text) :
    Keeps wrapping recording (Program.mountWeston loaded args) := by
  intro world sound
  have counted : (Program.countBefore loaded weston).Ensures wrapping recording
      (fun _ after => after = world) world := by
    cases loaded with
    | true => exact Ensures.mono (ask_ensures sound nofun fun _ => rfl) fun _ _ => And.left
    | false => exact (rfl : world = world)
  unfold Program.mountWeston
  refine Ensures.bind counted ?_
  rintro before _ rfl
  refine Ensures.bind (watch_ensures loaded sound weston) ?_
  rintro watched _ ⟨rfl, isWatched⟩
  refine Ensures.bind (mount_ensures sound args) ?_
  rintro status mounted ⟨first, brought⟩
  split
  · exact first
  · refine Ensures.bind (ask_ensures first.sound nofun fun _ => rfl) ?_
    rintro after _ ⟨rfl, _⟩
    split
    · exact first
    · split
      · exact ((umount_keeps [weston]).bind fun _ => .pure _).after first
      · refine Ensures.bind (commit_keeps isWatched brought first.sound) ?_
        intro _ committed second
        refine Keeps.after ?_ (first.trans second)
        exact check_keeps.bind fun _ => .ite (.pure _) (preparePanfrostWrapper_keeps loaded)

theorem mountOther_keeps (args : List Text) :
    Keeps wrapping recording (Program.mountOther loaded args) := by
  intro world sound
  unfold Program.mountOther
  rcases if loaded then pmMountDest args else none with _ | dest
  · exact mount_keeps args world sound
  · refine Ensures.bind (ask_ensures sound nofun fun _ => rfl) ?_
    rintro before _ ⟨rfl, _⟩
    refine Ensures.bind (pmWatch_ensures sound dest) ?_
    rintro watched _ ⟨rfl, isWatched⟩
    refine Ensures.bind (mount_ensures sound args) ?_
    rintro status mounted ⟨first, brought⟩
    split
    · exact first
    · refine Ensures.bind (ask_ensures first.sound nofun fun _ => rfl) ?_
      rintro after _ ⟨rfl, _⟩
      split
      · refine Ensures.bind (commit_keeps isWatched brought first.sound) ?_
        exact fun _ _ second => first.trans second
      · exact first

theorem rewrite_keeps (take : Bool) (words : List Text) :
    Keeps wrapping recording (Program.rewrite take words) := by
  have operand : ∀ word, Keeps wrapping recording (Program.pmNormOperand word) := fun word =>
    .ite ((isThere_keeps _).bind fun _ => .ite (.pure _) (.pure _)) (.pure _)
  induction words generalizing take with
  | nil => exact .pure _
  | cons word rest induction =>
      cases take with
      | true => exact (induction false).bind fun _ => .pure _
      | false =>
          refine .ite ((induction true).bind fun _ => .pure _)
            (.ite ((induction false).bind fun _ => .pure _) ?_)
          exact (operand word).bind fun _ => (induction false).bind fun _ => .pure _

theorem execMount_keeps (words : List Text) :
    Keeps wrapping recording (Program.execMount loaded words) :=
  (rewrite_keeps false words).bind fun args =>
    .ite (mountWeston_keeps loaded args) (mountOther_keeps loaded args)

theorem execUmount_keeps (words : List Text) :
    Keeps wrapping recording (Program.execUmount loaded words) := by
  unfold Program.execUmount
  refine (rewrite_keeps false words).bind fun args => .ite ?_ ?_
  · refine unmountWrapperBind_keeps.bind fun _ => .ite (.pure _) ?_
    refine (pmNoteUmount_keeps loaded wrap).bind fun _ => ?_
    refine (umount_keeps args).bind fun _ => .ite ?_ (.pure _)
    exact (pmNoteUmount_keeps loaded weston).bind fun _ => .pure _
  · refine (umount_keeps args).bind fun _ => ?_
    split
    · exact .pure _
    · exact .ite ((pmNoteUmount_keeps loaded _).bind fun _ => .pure _) (.pure _)

end Loaded

end Wrapping

end Zlyme.Portmaster
