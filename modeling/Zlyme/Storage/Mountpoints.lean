import Zlyme.Foundation.Interleaving
import Zlyme.Storage.LibraryList

/-! # Mountpoints of volumes

Each event of `udev` runs its own `zlyme-storage`, and no lock is taken: between the reads of the
mount table and the mounts of one run, any steps of the others take place.
-/

namespace Zlyme.Storage.Mountpoints

open Foundation Foundation.Execution Foundation.Threads
open Portmaster (Text ascii decode)

/-! ## Components of paths -/

/-- One safe component: it names a child of a directory, and breaks no line. -/
structure IsComponent (text : Text) : Prop where
  nonempty : text ≠ []
  notDot : text ≠ ascii "."
  notDotDot : text ≠ ascii ".."
  bytes : ∀ byte ∈ text, byte ≠ 0x2f ∧ 0x20 ≤ byte ∧ byte ≠ 0x7f

instance (text : Text) : Decidable (IsComponent text) :=
  decidable_of_iff (text ≠ [] ∧ text ≠ ascii "." ∧ text ≠ ascii ".." ∧
      text.all (fun byte => byte ≠ 0x2f ∧ 0x20 ≤ byte ∧ byte ≠ 0x7f) = true)
    ⟨fun ⟨nonempty, notDot, notDotDot, bytes⟩ =>
      ⟨nonempty, notDot, notDotDot, by simpa using bytes⟩,
    fun ⟨nonempty, notDot, notDotDot, bytes⟩ =>
      ⟨nonempty, notDot, notDotDot, by simpa using bytes⟩⟩

/-- A name that the kernel gives to a device. -/
structure DeviceName where
  text : Text
  component : IsComponent text

theorem trByte_safe (byte : UInt8) :
    trByte byte ≠ 0x2f ∧ 0x20 ≤ trByte byte ∧ trByte byte ≠ 0x7f := by
  unfold trByte
  split
  · decide
  · rename_i other
    simp only [not_or] at other
    exact ⟨other.1, UInt8.not_lt.mp other.2.1, other.2.2⟩

theorem mem_of_mem_trimmed {text : Text} {byte : UInt8}
    (member : byte ∈ (text.dropWhile isSpace).rdropWhile isSpace) : byte ∈ text :=
  (List.dropWhile_sublist _).subset ((List.rdropWhile_prefix _ _).subset member)

/-- Whatever the label is, one safe component comes out. -/
theorem mediaComponent_isComponent (label : Text) (name : DeviceName) :
    IsComponent (mediaComponent label name.text) := by
  have named := name.component
  unfold mediaComponent
  split
  · exact named
  · let trimmed := ((label.map trByte).dropWhile isSpace).rdropWhile isSpace
    have safe : ∀ byte ∈ trimmed, byte ≠ 0x2f ∧ 0x20 ≤ byte ∧ byte ≠ 0x7f := by
      intro byte member
      rcases List.mem_map.mp (mem_of_mem_trimmed member) with ⟨source, -, rfl⟩
      exact trByte_safe source
    cases replaced : (trimmed.isEmpty || trimmed == ascii "." || trimmed == ascii "..") with
    | true =>
        simp only [trimmed] at replaced
        simp only [replaced, if_true]
        split <;> exact named
    | false =>
        simp only [trimmed] at replaced
        simp only [replaced, Bool.false_eq_true, if_false]
        split
        · exact named
        · simp only [Bool.or_eq_false_iff, List.isEmpty_eq_false_iff, beq_eq_false_iff_ne] at replaced
          exact ⟨replaced.1.1, replaced.1.2, replaced.2, safe⟩

/-! ## The code -/

/-- What `ensure_media` leaves in `MEDIA`. -/
inductive MediaDir
  | mnt
  | tmp
  deriving DecidableEq, Repr

def MediaDir.path : MediaDir → Text
  | .mnt => mediaDir
  | .tmp => ascii "/tmp/zlyme-media"

def probePrefix : Text :=
  ascii "/tmp/zlyme-probe."

/-- The mounts, and the probe directories that `mktemp` has made. -/
structure World where
  mounts : List Mount
  probes : List Text

/-- One run of `zlyme-storage add`, with what the system answers about its device. -/
structure Add where
  name : DeviceName
  label : Text
  isBlock : Bool
  childPart : Bool
  secondary : Bool
  media : MediaDir

namespace Add

def dev (add : Add) : Text :=
  devPath add.name.text

def mount (add : Add) (path : Text) : Mount where
  source := add.dev
  device := some add.name.text
  path

def child (add : Add) (name : Text) : Text :=
  add.media.path ++ 0x2f :: name

def component (add : Add) : Text :=
  mediaComponent add.label add.name.text

end Add

/-- Where a run of `add` is. Each phase ends with one read of the mount table, one mount or one
`umount`. -/
inductive Phase
  /-- `os_disk` has these directories before it. -/
  | os (dirs : List Text)
  /-- `mounts_has_source` -/
  | present
  /-- `mktemp` and the mount of the probe. -/
  | probe
  /-- `mounts_has` of the second card. -/
  | second (tmp : Text)
  /-- The two reads of `choose_mountpoint`. -/
  | first (tmp : Text)
  | other (tmp : Text)
  /-- `mount --move` to the place that is chosen. -/
  | move (tmp path : Text)
  /-- The `umount` of the probe after it could not be moved. -/
  | unprobe (tmp path : Text)
  /-- The mount of the device at the place that is chosen. -/
  | remount (tmp path : Text)
  /-- The `umount` of the probe where there is no place. -/
  | drop (tmp : Text)
  /-- `rmdir` -/
  | tidy (tmp : Text)
  | done
  deriving DecidableEq, Repr

/-- One run of the script. -/
inductive Job
  | idle
  | add (call : Add) (phase : Phase)
  /-- A `remove` that reads where its device is. -/
  | remove (name : DeviceName)
  /-- The `umount` of a `remove`. -/
  | unmount (path : Text)
  | ended

/-- What starts a run, and what its environment answers. -/
inductive Choice
  | startAdd (call : Add)
  | startRemove (name : DeviceName)
  /-- The next step, with the answer of its command and the directory of a `mktemp`. -/
  | go (works : Bool) (tmp : Text)

def mounted (mounts : List Mount) (path : Text) : Bool :=
  mounts.any fun mount => mount.path == path

/-- `mount --move`. Only the probe is mounted on its directory. -/
def relocate (mounts : List Mount) (tmp path : Text) : List Mount :=
  mounts.map fun mount => if mount.path = tmp then { mount with path := path } else mount

def osDirs : List Text :=
  [ascii "/", ascii "/boot", ascii "/storage"]

/-- `add_dev` after `is_os_dev`, up to the next read of the table. -/
def Add.checked (add : Add) : Phase :=
  if add.childPart || isReserved add.label then .done else .present

/-- The tests of `place_volume` on the place that is chosen. -/
def Add.target (add : Add) (tmp name : Text) : Phase :=
  if name.contains 0x2f || name == ascii "." || name == ascii ".." then .drop tmp
  else .move tmp (add.child name)

/-- One step of a run of `add`. -/
def Add.step (add : Add) (phase : Phase) (works : Bool) (tmp' : Text) (world : World) :
    Option (Phase × World) :=
  match phase with
  | .os [] => some (add.checked, world)
  | .os (dir :: rest) =>
      let source := mountsSource world.mounts dir
      if source ≠ [] then
        some (if diskOf source = diskOf add.dev then .done else add.checked, world)
      else
        some (if rest = [] then add.checked else .os rest, world)
  | .present => some (if mountsHasSource world.mounts add.dev then .done else .probe, world)
  | .probe =>
      -- `mktemp` makes a directory that is not there
      if probePrefix.isPrefixOf tmp' ∧ tmp' ∉ world.probes then
        if works then
          some (if add.secondary then .second tmp' else .first tmp',
            ⟨world.mounts ++ [add.mount tmp'], world.probes ++ [tmp']⟩)
        else some (.tidy tmp', { world with probes := world.probes ++ [tmp'] })
      else none
  | .second tmp => some (if mountsHas world.mounts sd2 then .first tmp else .move tmp sd2, world)
  | .first tmp =>
      some (if isFree world.mounts (add.child add.component) add.dev then
          add.target tmp add.component
        else .other tmp, world)
  | .other tmp =>
      let name := add.component ++ 0x2d :: add.name.text
      some (if isFree world.mounts (add.child name) add.dev then add.target tmp name
        else .drop tmp, world)
  | .move tmp path =>
      if works && mounted world.mounts tmp then
        some (.tidy tmp, { world with mounts := relocate world.mounts tmp path })
      else some (.unprobe tmp path, world)
  | .unprobe tmp path =>
      some (.remount tmp path,
        { world with mounts := if works then detach world.mounts tmp else world.mounts })
  | .remount tmp path =>
      if works then some (.tidy tmp, { world with mounts := world.mounts ++ [add.mount path] })
      else some (if path = sd2 then .done else .tidy tmp, world)
  | .drop tmp =>
      some (.tidy tmp,
        { world with mounts := if works then detach world.mounts tmp else world.mounts })
  | .tidy tmp =>
      some (.done, { world with
        probes := if mounted world.mounts tmp then world.probes else world.probes.erase tmp })
  | .done => none

/-- One step of a run of the script. -/
def act : Act Job Choice World
  | .idle, .startAdd add, world =>
      if !add.isBlock || diskOf add.dev == ascii "mmcblk0" then some (.ended, world)
      else some (.add add (.os osDirs), world)
  | .idle, .startRemove name, world => some (.remove name, world)
  | .add add phase, .go works tmp, world =>
      (add.step phase works tmp world).map fun next => (.add add next.1, next.2)
  | .remove name, .go _ _, world =>
      let path := mountsTargetOf world.mounts (devPath name.text)
      some (if path = [] then .ended else .unmount path, world)
  | .unmount path, .go works _, world =>
      some (.ended, { world with mounts := if works then detach world.mounts path else world.mounts })
  | _, _, _ => none

/-! ## The law -/

/-- The second card, and what is below a media directory. -/
def IsPlace (path : Text) : Prop :=
  path = sd2 ∨ ∃ media : MediaDir, media.path ++ [0x2f] <+: path

instance (path : Text) : Decidable (IsPlace path) :=
  decidable_of_iff (path = sd2 ∨ (MediaDir.mnt.path ++ [0x2f]) <+: path ∨
      (MediaDir.tmp.path ++ [0x2f]) <+: path) <| by
    rw [IsPlace]
    apply or_congr_right
    constructor
    · rintro (isMnt | isTmp)
      · exact ⟨.mnt, isMnt⟩
      · exact ⟨.tmp, isTmp⟩
    · rintro ⟨media, inside⟩
      cases media with
      | mnt => exact .inl inside
      | tmp => exact .inr inside

/-- Two devices are never mounted on one of these. -/
def OneDevice (mounts : List Mount) : Prop :=
  ∀ first ∈ mounts, ∀ second ∈ mounts, IsPlace first.path → first.path = second.path →
    ∀ one ∈ first.device, ∀ other ∈ second.device, one = other

/-- A device of the disk that `/boot` or `/storage` is on. `disk` is what the kernel knows. -/
def IsOs (disk : Text → Text) (start : List Mount) (device : Text) : Prop :=
  ∃ mount ∈ start, (mount.path = ascii "/boot" ∨ mount.path = ascii "/storage") ∧
    ∃ volume ∈ mount.device, disk volume = disk device

/-- None of these is mounted at a place of the script. -/
def NoOs (disk : Text → Text) (start mounts : List Mount) : Prop :=
  ∀ mount ∈ mounts, IsPlace mount.path → ∀ device ∈ mount.device, ¬IsOs disk start device

/-- A mount shows a source, and where that is a node of a device, it is a mount of it. -/
def Honest (mount : Mount) : Prop :=
  mount.source ≠ [] ∧
    ((ascii "/dev/").isPrefixOf mount.source = true → mount.device = some (mount.source.drop 5))

/-- What holds before the first event. -/
structure Fit (disk : Text → Text) (start : List Mount) : Prop where
  honest : ∀ mount ∈ start, IsPlace mount.path → Honest mount
  oneDevice : OneDevice start
  noOs : NoOs disk start start
  noProbe : ∀ mount ∈ start, ¬probePrefix <+: mount.path

/-- The probe directory of a phase. -/
def Phase.tmp : Phase → Option Text
  | .second tmp | .first tmp | .other tmp | .move tmp _ | .unprobe tmp _ | .remount tmp _ | .drop tmp
  | .tidy tmp => some tmp
  | _ => none

/-- The place that a run has chosen and is not done with. -/
def Phase.chosen : Phase → Option Text
  | .move _ path | .unprobe _ path | .remount _ path => some path
  | _ => none

/-- Whether the run has been let through the tests of its device. -/
def Phase.passed : Phase → Bool
  | .os _ | .done => false
  | _ => true

def Job.tmp : Job → Option Text
  | .add _ phase => phase.tmp
  | _ => none

/-- The device and the place of a run that has chosen one. -/
def Job.chosen : Job → Option (Text × Text)
  | .add call phase => phase.chosen.map fun path => (call.name.text, path)
  | _ => none

section Runs

variable {Id : Type}

def initial (Id : Type) (start : List Mount) : Threads Id Job World :=
  ⟨fun _ => .idle, ⟨start, []⟩⟩

/-- The place that a run finds free and takes. -/
def Add.found (add : Add) (mounts : List Mount) : Phase → Option Text
  | .second _ => if mountsHas mounts sd2 then none else some sd2
  | .first _ =>
      let path := add.child add.component
      if isFree mounts path add.dev then some path else none
  | .other _ =>
      let path := add.child (add.component ++ 0x2d :: add.name.text)
      if isFree mounts path add.dev then some path else none
  | _ => none

/-- A run does not take a place that a run for another device has chosen. -/
def Uncontested (threads : Threads Id Job World) (who : Id) (add : Add) (phase : Phase) : Prop :=
  ∀ path ∈ add.found threads.shared.mounts phase, ∀ other, other ≠ who →
    ∀ theirs ∈ (threads.locals other).chosen, theirs.2 = path → theirs.1 = add.name.text

/-- A device of the OS disk is recognised by the first source that `os_disk` finds, unless the
other tests stop it. -/
def Recognised (disk : Text → Text) (start : List Mount) (add : Add) (world : World)
    (phase : Phase) : Prop :=
  match phase with
  | .os dirs => IsOs disk start add.name.text → add.checked = .done ∨
      match dirs with
      | [] => False
      | dir :: rest =>
          if mountsSource world.mounts dir ≠ [] then
            diskOf (mountsSource world.mounts dir) = diskOf add.dev
          else rest ≠ []
  | _ => True

/-- What a step must meet. -/
def Orderly (disk : Text → Text) (start : List Mount) (threads : Threads Id Job World)
    (label : Id × Choice) : Prop :=
  match threads.locals label.1 with
  | .add call phase => Uncontested threads label.1 call phase ∧
      Recognised disk start call threads.shared phase
  | _ => True

/-! ## The invariant -/

/-- What a run of `add` knows. -/
structure Knows (disk : Text → Text) (start : List Mount) (world : World) (call : Add)
    (phase : Phase) : Prop where
  notOs : phase.passed = true → ¬IsOs disk start call.name.text
  probe : ∀ tmp ∈ phase.tmp, tmp ∈ world.probes ∧ probePrefix <+: tmp ∧
    ∀ mount ∈ world.mounts, mount.path = tmp →
      mount.device = some call.name.text ∧ mount.source = call.dev
  place : ∀ path ∈ phase.chosen, IsPlace path ∧
    ∀ mount ∈ world.mounts, mount.path = path → ∀ device ∈ mount.device, device = call.name.text

def Job.Knows (disk : Text → Text) (start : List Mount) (world : World) : Job → Prop
  | .add call phase => Mountpoints.Knows disk start world call phase
  | _ => True

structure Kept (disk : Text → Text) (start : List Mount) (threads : Threads Id Job World) : Prop where
  jobs : ∀ id, (threads.locals id).Knows disk start threads.shared
  probesApart : ∀ id other, id ≠ other →
    ∀ tmp ∈ (threads.locals id).tmp, ∀ tmp' ∈ (threads.locals other).tmp, tmp ≠ tmp'
  placesApart : ∀ id other, id ≠ other →
    ∀ mine ∈ (threads.locals id).chosen, ∀ theirs ∈ (threads.locals other).chosen,
      mine.2 = theirs.2 → mine.1 = theirs.1
  honest : ∀ mount ∈ threads.shared.mounts, IsPlace mount.path → Honest mount
  oneDevice : OneDevice threads.shared.mounts
  noOs : NoOs disk start threads.shared.mounts
  probed : ∀ mount ∈ threads.shared.mounts, probePrefix <+: mount.path →
    mount.path ∈ threads.shared.probes

theorem kept_initial {disk : Text → Text} {start : List Mount} (fit : Fit disk start) :
    Kept disk start (initial Id start) where
  jobs _ := trivial
  probesApart _ _ _ _ isTmp := by cases isTmp
  placesApart _ _ _ _ isMine := by cases isMine
  honest := fit.honest
  oneDevice := fit.oneDevice
  noOs := fit.noOs
  probed mount member isProbe := absurd isProbe (fit.noProbe mount member)

/-- No probe directory is a place. -/
theorem not_probe_of_place {path : Text} (isPlace : IsPlace path) : ¬probePrefix <+: path := by
  intro isProbe
  rcases isPlace with rfl | ⟨media, isMedia⟩
  · exact absurd isProbe (by decide)
  · rcases List.prefix_or_prefix_of_prefix isProbe isMedia with inside | inside
    · cases media <;> exact absurd inside (by decide)
    · cases media <;> exact absurd inside (by decide)

section Change

variable {disk : Text → Text} {start : List Mount} {threads : Threads Id Job World} {who : Id}
  {job : Job} {world : World}

/-- A mount that a run of `add` makes: on a new probe directory, or at the place it has chosen. -/
def IsNew (threads : Threads Id Job World) (who : Id) (mount : Mount) : Prop :=
  ∃ call phase, threads.locals who = .add call phase ∧ phase.passed = true ∧
    mount.device = some call.name.text ∧ mount.source = call.dev ∧
    ((probePrefix <+: mount.path ∧ mount.path ∉ threads.shared.probes) ∨
      phase.chosen = some mount.path)

/-- What one step does to the world. -/
structure Change (threads : Threads Id Job World) (who : Id) (world : World) : Prop where
  mounts : ∀ mount ∈ world.mounts, mount ∈ threads.shared.mounts ∨ IsNew threads who mount
  probes : ∀ other, other ≠ who → ∀ tmp ∈ (threads.locals other).tmp, tmp ∈ world.probes
  probed : ∀ mount ∈ world.mounts, probePrefix <+: mount.path → mount.path ∈ world.probes

theorem Kept.knows_other (kept : Kept disk start threads) (change : Change threads who world)
    {other : Id} (differs : other ≠ who) : (threads.locals other).Knows disk start world := by
  have knows := kept.jobs other
  cases isJob : threads.locals other with
  | idle | remove name | unmount path | ended => trivial
  | add call phase =>
      rw [isJob] at knows
      have isTmp : ∀ tmp ∈ phase.tmp, tmp ∈ (threads.locals other).tmp := by
        intro tmp member
        rw [isJob]
        exact member
      have isChosen : ∀ path ∈ phase.chosen, (call.name.text, path) ∈ (threads.locals other).chosen := by
        intro path member
        rw [isJob]
        exact Option.mem_map_of_mem _ member
      refine ⟨knows.notOs, ?_, ?_⟩
      · intro tmp member
        rcases knows.probe tmp member with ⟨inProbes, isProbe, only⟩
        refine ⟨change.probes other differs tmp (isTmp tmp member), isProbe, ?_⟩
        rintro mount inMounts rfl
        rcases change.mounts mount inMounts with old | ⟨_, _, isWho, -, -, -, fresh | chosen⟩
        · exact only mount old rfl
        · exact absurd inProbes fresh.2
        · have knowsWho := kept.jobs who
          rw [isWho] at knowsWho
          exact absurd isProbe (not_probe_of_place (knowsWho.place _ chosen).1)
      · intro path member
        rcases knows.place path member with ⟨isPlace, only⟩
        refine ⟨isPlace, ?_⟩
        rintro mount inMounts rfl device isDevice
        rcases change.mounts mount inMounts with
          old | ⟨mine, phase', isWho, -, isMine, -, fresh | chosen⟩
        · exact only mount old rfl device isDevice
        · exact absurd fresh.1 (not_probe_of_place isPlace)
        · have mineChosen : (mine.name.text, mount.path) ∈ (threads.locals who).chosen := by
            rw [isWho]
            exact Option.mem_map_of_mem _ chosen
          have same := kept.placesApart other who differs _ (isChosen _ member) _ mineChosen rfl
          rw [isMine] at isDevice
          cases isDevice
          exact same.symm

theorem Kept.changed [DecidableEq Id] (kept : Kept disk start threads) (change : Change threads who world)
    (own : job.Knows disk start world)
    (tmpApart : ∀ other, other ≠ who → ∀ tmp ∈ job.tmp, tmp ∉ (threads.locals other).tmp)
    (placeApart : ∀ other, other ≠ who → ∀ mine ∈ job.chosen,
      ∀ theirs ∈ (threads.locals other).chosen, theirs.2 = mine.2 → theirs.1 = mine.1) :
    Kept disk start (threads.move who job world) := by
  have newName : ∀ mount, IsNew threads who mount → IsPlace mount.path →
      ∃ call phase, threads.locals who = .add call phase ∧ phase.passed = true ∧
        mount.device = some call.name.text ∧ mount.source = call.dev ∧
        phase.chosen = some mount.path := by
    rintro mount ⟨call, phase, isWho, passed, isDevice, isSource, fresh | chosen⟩ isPlace
    · exact absurd fresh.1 (not_probe_of_place isPlace)
    · exact ⟨call, phase, isWho, passed, isDevice, isSource, chosen⟩
  constructor
  · intro id
    by_cases same : id = who
    · subst same
      rw [move_locals_self]
      exact own
    · rw [move_locals_of_ne _ _ _ same]
      exact kept.knows_other change same
  · intro id other differs tmp isTmp tmp' isTmp' sameTmp
    subst sameTmp
    by_cases isWho : id = who
    · subst isWho
      rw [move_locals_self] at isTmp
      rw [move_locals_of_ne _ _ _ (Ne.symm differs)] at isTmp'
      exact tmpApart other (Ne.symm differs) tmp isTmp isTmp'
    · rw [move_locals_of_ne _ _ _ isWho] at isTmp
      by_cases otherWho : other = who
      · subst otherWho
        rw [move_locals_self] at isTmp'
        exact tmpApart id differs tmp isTmp' isTmp
      · rw [move_locals_of_ne _ _ _ otherWho] at isTmp'
        exact kept.probesApart id other differs tmp isTmp tmp isTmp' rfl
  · intro id other differs mine isMine theirs isTheirs samePlace
    by_cases isWho : id = who
    · subst isWho
      rw [move_locals_self] at isMine
      rw [move_locals_of_ne _ _ _ (Ne.symm differs)] at isTheirs
      exact (placeApart other (Ne.symm differs) mine isMine theirs isTheirs samePlace.symm).symm
    · rw [move_locals_of_ne _ _ _ isWho] at isMine
      by_cases otherWho : other = who
      · subst otherWho
        rw [move_locals_self] at isTheirs
        exact placeApart id differs theirs isTheirs mine isMine samePlace
      · rw [move_locals_of_ne _ _ _ otherWho] at isTheirs
        exact kept.placesApart id other differs mine isMine theirs isTheirs samePlace
  · intro mount member isPlace
    rcases change.mounts mount member with old | isNew
    · exact kept.honest mount old isPlace
    · rcases newName mount isNew isPlace with ⟨call, phase, -, -, isDevice, isSource, -⟩
      rw [Honest, isDevice, isSource, Add.dev, devPath]
      have prefixed : (ascii "/dev/" ++ call.name.text).drop 5 = call.name.text :=
        List.drop_left' (by decide)
      rw [prefixed]
      exact ⟨by simp [ascii], fun _ => rfl⟩
  · intro first isFirst second isSecond isPlace samePath one isOne other isOther
    have knowsWho := kept.jobs who
    rcases change.mounts first isFirst with oldFirst | newFirst
    · rcases change.mounts second isSecond with oldSecond | newSecond
      · exact kept.oneDevice first oldFirst second oldSecond isPlace samePath one isOne other isOther
      · rcases newName second newSecond (samePath ▸ isPlace) with
          ⟨call, phase, isWho, -, isDevice, -, chosen⟩
        rw [isWho] at knowsWho
        rw [isDevice] at isOther
        cases isOther
        exact (knowsWho.place _ chosen).2 first oldFirst samePath one isOne
    · rcases newName first newFirst isPlace with ⟨call, phase, isWho, -, isDevice, -, chosen⟩
      rw [isDevice] at isOne
      cases isOne
      rcases change.mounts second isSecond with oldSecond | newSecond
      · rw [isWho] at knowsWho
        exact ((knowsWho.place _ chosen).2 second oldSecond samePath.symm other isOther).symm
      · rcases newName second newSecond (samePath ▸ isPlace) with
          ⟨call', phase', isWho', -, isDevice', -⟩
        rw [isWho] at isWho'
        cases isWho'
        rw [isDevice'] at isOther
        cases isOther
        rfl
  · intro mount member isPlace device isDevice
    rcases change.mounts mount member with old | isNew
    · exact kept.noOs mount old isPlace device isDevice
    · rcases newName mount isNew isPlace with ⟨call, phase, isWho, passed, isName, -, -⟩
      have knowsWho := kept.jobs who
      rw [isWho] at knowsWho
      rw [isName] at isDevice
      cases isDevice
      exact knowsWho.notOs passed
  · exact change.probed

end Change

/-! ## What the reads tell -/

theorem isPlace_child (add : Add) (name : Text) : IsPlace (add.child name) := by
  refine .inr ⟨add.media, name, ?_⟩
  rw [Add.child, List.append_assoc]
  rfl

theorem place_ne_probe {path tmp : Text} (isPlace : IsPlace path) (isProbe : probePrefix <+: tmp) :
    path ≠ tmp := by
  rintro rfl
  exact not_probe_of_place isPlace isProbe

/-- Where a place is free, only the device itself may be mounted on it. -/
theorem only_of_isFree {mounts : List Mount} {path name : Text}
    (honest : ∀ mount ∈ mounts, IsPlace mount.path → Honest mount) (oneDevice : OneDevice mounts)
    (isPlace : IsPlace path) (free : isFree mounts path (devPath name) = true) :
    ∀ mount ∈ mounts, mount.path = path → ∀ device ∈ mount.device, device = name := by
  rintro mount member rfl device isDevice
  have has : (mounts.find? fun other => decode other.shownPath == mount.path).isSome := by
    rw [List.find?_isSome]
    exact ⟨mount, member, by simp [Mount.shownPath]⟩
  rcases Option.isSome_iff_exists.mp has with ⟨found, isFound⟩
  have foundMember := List.mem_of_find?_eq_some isFound
  have foundThere : found.path = mount.path := by
    simpa [Mount.shownPath] using List.find?_some isFound
  have source : mountsSource mounts mount.path = found.source := by
    simp [mountsSource, isFound, Mount.shownSource]
  have foundPlace : IsPlace found.path := foundThere ▸ isPlace
  have foundHonest := honest found foundMember foundPlace
  rw [isFree, source, Bool.or_eq_true, List.isEmpty_iff, beq_iff_eq] at free
  rcases free with empty | same
  · exact absurd empty foundHonest.1
  · have named : found.device = some name := by
      rw [foundHonest.2 (by simp [same, devPath]), same, devPath, List.drop_left' (by decide)]
    exact oneDevice mount member found foundMember isPlace foundThere.symm device isDevice name named

/-! ## What one run knows after its step -/

section Step

variable {disk : Text → Text} {start : List Mount} {threads : Threads Id Job World} {who : Id}
  {call : Add} {phase phase' : Phase} {world world' : World}

theorem knows_done : Knows disk start world call .done where
  notOs passed := by cases passed
  probe _ isTmp := by cases isTmp
  place _ isChosen := by cases isChosen

/-- With fewer mounts, a run that keeps its directory and its place knows as much. -/
theorem Knows.keep (knows : Knows disk start world call phase)
    (passed : phase'.passed = true → phase.passed = true)
    (tmp : ∀ path ∈ phase'.tmp, path ∈ phase.tmp)
    (chosen : ∀ path ∈ phase'.chosen, path ∈ phase.chosen)
    (fewer : ∀ mount ∈ world'.mounts, mount ∈ world.mounts)
    (probes : ∀ path ∈ phase'.tmp, path ∈ world'.probes) :
    Knows disk start world' call phase' where
  notOs isPassed := knows.notOs (passed isPassed)
  probe path isTmp := by
    rcases knows.probe path (tmp path isTmp) with ⟨-, isProbe, only⟩
    exact ⟨probes path isTmp, isProbe, fun mount member => only mount (fewer mount member)⟩
  place path isChosen := by
    rcases knows.place path (chosen path isChosen) with ⟨isPlace, only⟩
    exact ⟨isPlace, fun mount member => only mount (fewer mount member)⟩

/-- A run that has just chosen its place. -/
theorem Knows.choose {tmp path : Text} (knows : Knows disk start world call phase)
    (passed : phase.passed = true) (isTmp : tmp ∈ phase.tmp) (isPlace : IsPlace path)
    (only : ∀ mount ∈ world.mounts, mount.path = path →
      ∀ device ∈ mount.device, device = call.name.text) :
    Knows disk start world call (.move tmp path) where
  notOs _ := knows.notOs passed
  probe _ same := Option.some_inj.mp same ▸ knows.probe tmp isTmp
  place _ same := Option.some_inj.mp same ▸ ⟨isPlace, only⟩

/-- The tests of `place_volume` either let the place through, or there is none. -/
theorem Knows.target {tmp name : Text} (knows : Knows disk start world call phase)
    (passed : phase.passed = true) (isTmp : phase.tmp = some tmp)
    (honest : ∀ mount ∈ world.mounts, IsPlace mount.path → Honest mount)
    (oneDevice : OneDevice world.mounts)
    (free : isFree world.mounts (call.child name) call.dev = true) :
    Knows disk start world call (call.target tmp name) := by
  unfold Add.target
  split
  · apply knows.keep
    · exact fun _ => passed
    · intro path same
      rw [isTmp]
      exact same
    · exact fun _ isChosen => by cases isChosen
    · exact fun _ member => member
    · intro path same
      exact (knows.probe path (isTmp ▸ same)).1
  · exact knows.choose passed (isTmp ▸ rfl) (isPlace_child call name)
      (only_of_isFree honest oneDevice (isPlace_child call name) free)

theorem target_tmp (add : Add) (tmp name : Text) : (add.target tmp name).tmp = some tmp := by
  unfold Add.target
  split <;> rfl

theorem target_chosen {add : Add} {tmp name path : Text}
    (isChosen : path ∈ (add.target tmp name).chosen) : path ∈ some (add.child name) := by
  unfold Add.target at isChosen
  split at isChosen
  · cases isChosen
  · exact isChosen

theorem checked_tmp (add : Add) : add.checked.tmp = none := by
  unfold Add.checked
  split <;> rfl

theorem checked_chosen (add : Add) : add.checked.chosen = none := by
  unfold Add.checked
  split <;> rfl

theorem knows_os (dirs : List Text) : Knows disk start world call (.os dirs) where
  notOs passed := by cases passed
  probe _ isTmp := by cases isTmp
  place _ isChosen := by cases isChosen

theorem knows_present (notOs : ¬IsOs disk start call.name.text) :
    Knows disk start world call .present where
  notOs _ := notOs
  probe _ isTmp := by cases isTmp
  place _ isChosen := by cases isChosen

/-- What `is_os_dev` lets through is not of the OS disk. -/
theorem knows_checked (notOs : IsOs disk start call.name.text → call.checked = .done) :
    Knows disk start world call call.checked := by
  cases checked : (call.childPart || isReserved call.label) with
  | true =>
      rw [Add.checked, checked, if_pos rfl]
      exact knows_done
  | false =>
      have present : call.checked = .present := by
        rw [Add.checked, checked]
        rfl
      rw [present]
      apply knows_present
      intro isOs
      exact absurd (present.symm.trans (notOs isOs)) (by decide)

end Step

/-! ## What one step does to the mounts -/

section Kept

variable {disk : Text → Text} {start : List Mount} {threads : Threads Id Job World} {who : Id}
  {call : Add} {phase phase' : Phase} {world : World}

theorem Kept.tmp_probes (kept : Kept disk start threads) {id : Id} {tmp : Text}
    (isTmp : tmp ∈ (threads.locals id).tmp) : tmp ∈ threads.shared.probes := by
  have knows := kept.jobs id
  cases isJob : threads.locals id with
  | add call phase =>
      rw [isJob] at knows isTmp
      exact (knows.probe tmp isTmp).1
  | idle | remove name | unmount path | ended =>
      rw [isJob] at isTmp
      cases isTmp

/-- With fewer mounts, and every probe directory still there. -/
theorem Kept.change_fewer (kept : Kept disk start threads) {mounts : List Mount}
    (fewer : ∀ mount ∈ mounts, mount ∈ threads.shared.mounts) :
    Change threads who { threads.shared with mounts } where
  mounts mount member := .inl (fewer mount member)
  probes _ _ _ isTmp := kept.tmp_probes isTmp
  probed mount member := kept.probed mount (fewer mount member)

/-- The move of a probe to the place that was chosen for it. -/
theorem Kept.change_relocate (kept : Kept disk start threads) {tmp path : Text}
    (isJob : threads.locals who = .add call (.move tmp path)) :
    Change threads who { threads.shared with
      mounts := relocate threads.shared.mounts tmp path } := by
  have knows := kept.jobs who
  rw [isJob] at knows
  rcases knows.probe tmp rfl with ⟨-, isProbe, only⟩
  rcases knows.place path rfl with ⟨isPlace, -⟩
  constructor
  · intro mount member
    rcases List.mem_map.mp member with ⟨before, inBefore, rfl⟩
    split
    · rename_i isThere
      rcases only before inBefore isThere with ⟨isDevice, isSource⟩
      exact .inr ⟨call, _, isJob, rfl, isDevice, isSource, .inr rfl⟩
    · exact .inl inBefore
  · exact fun _ _ _ isTmp => kept.tmp_probes isTmp
  · intro mount member
    rcases List.mem_map.mp member with ⟨before, inBefore, rfl⟩
    split
    · exact fun isTmp => absurd isTmp (not_probe_of_place isPlace)
    · exact kept.probed before inBefore

/-- Nothing is left at a directory that is moved away. -/
theorem relocate_empties {mounts : List Mount} {tmp path : Text} (differs : path ≠ tmp) :
    ∀ mount ∈ relocate mounts tmp path, mount.path ≠ tmp := by
  intro mount member
  rcases List.mem_map.mp member with ⟨before, -, rfl⟩
  split
  · exact differs
  · assumption

/-- The mount of the device at the place that was chosen for it. -/
theorem Kept.change_remount (kept : Kept disk start threads) {tmp path : Text}
    (isJob : threads.locals who = .add call (.remount tmp path)) :
    Change threads who { threads.shared with
      mounts := threads.shared.mounts ++ [call.mount path] } := by
  have knows := kept.jobs who
  rw [isJob] at knows
  constructor
  · intro mount member
    rcases List.mem_append.mp member with old | new
    · exact .inl old
    · rw [List.mem_singleton.mp new]
      exact .inr ⟨call, _, isJob, rfl, rfl, rfl, .inr rfl⟩
  · exact fun _ _ _ isTmp => kept.tmp_probes isTmp
  · intro mount member
    rcases List.mem_append.mp member with old | new
    · exact kept.probed mount old
    · rw [List.mem_singleton.mp new]
      exact fun isTmp => absurd isTmp (not_probe_of_place (knows.place path rfl).1)

/-- A new probe directory, with or without the mount of its device. -/
theorem Kept.change_probe (kept : Kept disk start threads) {tmp : Text}
    (isJob : threads.locals who = .add call .probe) (isProbe : probePrefix <+: tmp)
    (fresh : tmp ∉ threads.shared.probes) {mounts : List Mount}
    (only : ∀ mount ∈ mounts, mount ∈ threads.shared.mounts ∨ mount = call.mount tmp) :
    Change threads who ⟨mounts, threads.shared.probes ++ [tmp]⟩ := by
  constructor
  · intro mount member
    rcases only mount member with old | rfl
    · exact .inl old
    · exact .inr ⟨call, _, isJob, rfl, rfl, rfl, .inl ⟨isProbe, fresh⟩⟩
  · exact fun _ _ _ isTmp => List.mem_append_left _ (kept.tmp_probes isTmp)
  · intro mount member isThere
    rcases only mount member with old | rfl
    · exact List.mem_append_left _ (kept.probed mount old isThere)
    · exact List.mem_append_right _ (List.mem_singleton_self tmp)

/-- The `rmdir` of a probe directory. -/
theorem Kept.change_tidy (kept : Kept disk start threads) {tmp : Text}
    (isJob : threads.locals who = .add call (.tidy tmp)) :
    Change threads who { threads.shared with
      probes := if mounted threads.shared.mounts tmp then threads.shared.probes
        else threads.shared.probes.erase tmp } := by
  refine ⟨fun _ member => .inl member, ?_, ?_⟩
  · intro other differs path isTmp
    have isMine : tmp ∈ (threads.locals who).tmp := by
      rw [isJob]
      rfl
    have apart : path ≠ tmp := kept.probesApart other who differs path isTmp tmp isMine
    split
    · exact kept.tmp_probes isTmp
    · exact (List.mem_erase_of_ne apart).mpr (kept.tmp_probes isTmp)
  · intro mount member isProbe
    have inProbes := kept.probed mount member isProbe
    split
    · exact inProbes
    · rename_i unmounted
      have apart : mount.path ≠ tmp := by
        intro same
        apply unmounted
        exact List.any_eq_true.mpr ⟨mount, member, beq_iff_eq.mpr same⟩
      exact (List.mem_erase_of_ne apart).mpr inProbes

/-! ## Steps -/

/-- What one step of a run of `add` does, and what the run knows after it. -/
structure Effect (disk : Text → Text) (start : List Mount) (threads : Threads Id Job World)
    (who : Id) (call : Add) (phase phase' : Phase) (world : World) : Prop where
  change : Change threads who world
  knows : Knows disk start world call phase'
  tmps : ∀ tmp ∈ phase'.tmp, tmp ∈ phase.tmp ∨ tmp ∉ threads.shared.probes
  places : ∀ path ∈ phase'.chosen,
    path ∈ phase.chosen ∨ path ∈ call.found threads.shared.mounts phase

/-- A run of `add` after one of its steps. -/
theorem Kept.add_moved [DecidableEq Id] (kept : Kept disk start threads)
    (isJob : threads.locals who = .add call phase)
    (uncontested : Uncontested threads who call phase)
    (effect : Effect disk start threads who call phase phase' world) :
    Kept disk start (threads.move who (.add call phase') world) := by
  have knows : Job.Knows disk start world (.add call phase') := effect.knows
  apply kept.changed effect.change knows
  · intro other differs tmp isTmp isTheirs
    rcases effect.tmps tmp isTmp with same | fresh
    · have isMine : tmp ∈ (threads.locals who).tmp := by
        rw [isJob]
        exact same
      exact kept.probesApart other who differs tmp isTheirs tmp isMine rfl
    · exact fresh (kept.tmp_probes isTheirs)
  · intro other differs mine isMine theirs isTheirs samePlace
    rcases Option.mem_map.mp isMine with ⟨path, isPath, rfl⟩
    rcases effect.places path isPath with same | found
    · have isChosen : (call.name.text, path) ∈ (threads.locals who).chosen := by
        rw [isJob]
        exact Option.mem_map_of_mem _ same
      exact kept.placesApart other who differs theirs isTheirs _ isChosen samePlace
    · exact uncontested path found other differs theirs isTheirs samePlace

theorem Kept.effect_done (kept : Kept disk start threads) :
    Effect disk start threads who call phase .done threads.shared where
  change := kept.change_fewer fun _ member => member
  knows := knows_done
  tmps _ isTmp := by cases isTmp
  places _ isChosen := by cases isChosen

/-- A step that keeps the directory of its run, or leaves it. -/
theorem Kept.effect_keep (kept : Kept disk start threads)
    (isJob : threads.locals who = .add call phase) {mounts : List Mount}
    (fewer : ∀ mount ∈ mounts, mount ∈ threads.shared.mounts)
    (passed : phase.passed = true) (tmp : ∀ path ∈ phase'.tmp, path ∈ phase.tmp)
    (chosen : ∀ path ∈ phase'.chosen, path ∈ phase.chosen) :
    Effect disk start threads who call phase phase' { threads.shared with mounts } := by
  have knows := kept.jobs who
  rw [isJob] at knows
  refine ⟨kept.change_fewer fewer, ?_, fun path isTmp => .inl (tmp path isTmp),
    fun path isChosen => .inl (chosen path isChosen)⟩
  apply knows.keep (fun _ => passed) tmp chosen fewer
  exact fun path isTmp => (knows.probe path (tmp path isTmp)).1

theorem Kept.effect_checked (kept : Kept disk start threads)
    (notOs : IsOs disk start call.name.text → call.checked = .done) :
    Effect disk start threads who call phase call.checked threads.shared := by
  refine ⟨kept.change_fewer fun _ member => member, knows_checked notOs, ?_, ?_⟩
  · rw [checked_tmp]
    exact fun _ isTmp => by cases isTmp
  · rw [checked_chosen]
    exact fun _ isChosen => by cases isChosen

theorem Kept.effect_os (kept : Kept disk start threads) (dirs : List Text)
    (recognised : Recognised disk start call threads.shared (.os dirs)) {works : Bool} {tmp' : Text}
    (moves : call.step (.os dirs) works tmp' threads.shared = some (phase', world)) :
    Effect disk start threads who call (.os dirs) phase' world := by
  cases dirs with
  | nil =>
      cases moves
      apply kept.effect_checked
      intro isOs
      exact (recognised isOs).resolve_right id
  | cons dir rest =>
      rw [Add.step] at moves
      by_cases found : mountsSource threads.shared.mounts dir ≠ []
      · rw [if_pos found] at moves
        cases moves
        by_cases same : diskOf (mountsSource threads.shared.mounts dir) = diskOf call.dev
        · rw [if_pos same]
          exact kept.effect_done
        · rw [if_neg same]
          apply kept.effect_checked
          intro isOs
          apply (recognised isOs).resolve_right
          dsimp only
          rw [if_pos found]
          exact same
      · rw [if_neg found] at moves
        cases moves
        by_cases last : rest = []
        · rw [if_pos last]
          apply kept.effect_checked
          intro isOs
          apply (recognised isOs).resolve_right
          dsimp only
          rw [if_neg found]
          exact fun more => more last
        · rw [if_neg last]
          refine ⟨kept.change_fewer fun _ member => member, knows_os rest, ?_, ?_⟩
          · exact fun _ isTmp => by cases isTmp
          · exact fun _ isChosen => by cases isChosen

theorem Kept.effect_probe (kept : Kept disk start threads)
    (isJob : threads.locals who = .add call .probe) {works : Bool} {tmp' : Text}
    (moves : call.step .probe works tmp' threads.shared = some (phase', world)) :
    Effect disk start threads who call .probe phase' world := by
  have knows := kept.jobs who
  rw [isJob] at knows
  rw [Add.step] at moves
  split at moves
  case isFalse => cases moves
  case isTrue made =>
    rcases made with ⟨isProbe, fresh⟩
    have prefixed := List.isPrefixOf_iff_prefix.mp isProbe
    have unmounted : ∀ mount ∈ threads.shared.mounts, mount.path ≠ tmp' := by
      rintro mount member rfl
      exact fresh (kept.probed mount member prefixed)
    cases works with
    | true =>
        cases moves
        have noPlace : ∀ path, path ∉ (if call.secondary then Phase.second tmp'
            else Phase.first tmp').chosen := by
          intro path isChosen
          split at isChosen <;> cases isChosen
        refine ⟨kept.change_probe isJob prefixed fresh ?_, ⟨fun _ => knows.notOs rfl, ?_, ?_⟩, ?_,
          fun path isChosen => absurd isChosen (noPlace path)⟩
        · intro mount member
          simpa using member
        · intro tmp isTmp
          have same : tmp = tmp' := by
            split at isTmp <;> exact (Option.some_inj.mp isTmp).symm
          subst same
          refine ⟨List.mem_append_right _ (List.mem_singleton_self tmp), prefixed, ?_⟩
          intro mount member isThere
          rcases List.mem_append.mp member with old | new
          · exact absurd isThere (unmounted mount old)
          · rw [List.mem_singleton.mp new]
            exact ⟨rfl, rfl⟩
        · exact fun path isChosen => absurd isChosen (noPlace path)
        · intro tmp isTmp
          have same : tmp = tmp' := by
            split at isTmp <;> exact (Option.some_inj.mp isTmp).symm
          exact .inr (same ▸ fresh)
    | false =>
        cases moves
        refine ⟨kept.change_probe isJob prefixed fresh fun _ member => .inl member,
          ⟨fun _ => knows.notOs rfl, ?_, fun _ isChosen => by cases isChosen⟩, ?_,
          fun _ isChosen => by cases isChosen⟩
        · intro tmp isTmp
          cases isTmp
          exact ⟨List.mem_append_right _ (List.mem_singleton_self tmp'), prefixed,
            fun mount member isThere => absurd isThere (unmounted mount member)⟩
        · intro tmp isTmp
          cases isTmp
          exact .inr fresh

/-- The two ends of `choose_mountpoint`: the name is taken, or the run goes on. -/
theorem Kept.effect_target (kept : Kept disk start threads)
    (isJob : threads.locals who = .add call phase) (passed : phase.passed = true) {tmp name : Text}
    (isTmp : phase.tmp = some tmp)
    (free : isFree threads.shared.mounts (call.child name) call.dev = true)
    (found : call.found threads.shared.mounts phase = some (call.child name)) :
    Effect disk start threads who call phase (call.target tmp name) threads.shared := by
  have knows := kept.jobs who
  rw [isJob] at knows
  refine ⟨kept.change_fewer fun _ member => member,
    knows.target passed isTmp kept.honest kept.oneDevice free, ?_, ?_⟩
  · rw [target_tmp, isTmp]
    exact fun _ same => .inl same
  · intro path isChosen
    rw [found]
    exact .inr (target_chosen isChosen)

theorem Kept.effect_move (kept : Kept disk start threads) {tmp path : Text}
    (isJob : threads.locals who = .add call (.move tmp path)) {works : Bool} {tmp' : Text}
    (moves : call.step (.move tmp path) works tmp' threads.shared = some (phase', world)) :
    Effect disk start threads who call (.move tmp path) phase' world := by
  have knows := kept.jobs who
  rw [isJob] at knows
  rcases knows.probe tmp rfl with ⟨inProbes, isProbe, -⟩
  rw [Add.step] at moves
  split at moves
  · cases moves
    refine ⟨kept.change_relocate isJob, ?_, fun _ isTmp => .inl isTmp,
      fun _ isChosen => by cases isChosen⟩
    refine ⟨fun _ => knows.notOs rfl, ?_, fun _ isChosen => by cases isChosen⟩
    intro path' same
    cases same
    refine ⟨inProbes, isProbe, fun mount member isThere => ?_⟩
    exact absurd isThere
      (relocate_empties (place_ne_probe (knows.place path rfl).1 isProbe) mount member)
  · cases moves
    exact kept.effect_keep isJob (fun _ member => member) rfl (fun _ same => same)
      (fun _ same => same)

theorem Kept.effect_remount (kept : Kept disk start threads) {tmp path : Text}
    (isJob : threads.locals who = .add call (.remount tmp path)) {works : Bool} {tmp' : Text}
    (moves : call.step (.remount tmp path) works tmp' threads.shared = some (phase', world)) :
    Effect disk start threads who call (.remount tmp path) phase' world := by
  have knows := kept.jobs who
  rw [isJob] at knows
  rcases knows.probe tmp rfl with ⟨inProbes, isProbe, only⟩
  cases works with
  | true =>
      cases moves
      refine ⟨kept.change_remount isJob, ?_, fun _ isTmp => .inl isTmp,
        fun _ isChosen => by cases isChosen⟩
      refine ⟨fun _ => knows.notOs rfl, ?_, fun _ isChosen => by cases isChosen⟩
      intro path' same
      cases same
      refine ⟨inProbes, isProbe, fun mount member isThere => ?_⟩
      rcases List.mem_append.mp member with old | new
      · exact only mount old isThere
      · rw [List.mem_singleton.mp new]
        exact ⟨rfl, rfl⟩
  | false =>
      cases moves
      split
      · exact kept.effect_done
      · exact kept.effect_keep isJob (fun _ member => member) rfl (fun _ same => same)
          (fun _ isChosen => by cases isChosen)

theorem Kept.effect_tidy (kept : Kept disk start threads) {tmp : Text}
    (isJob : threads.locals who = .add call (.tidy tmp)) {works : Bool} {tmp' : Text}
    (moves : call.step (.tidy tmp) works tmp' threads.shared = some (phase', world)) :
    Effect disk start threads who call (.tidy tmp) phase' world := by
  cases moves
  refine ⟨kept.change_tidy isJob, knows_done, ?_, ?_⟩
  · exact fun _ isTmp => by cases isTmp
  · exact fun _ isChosen => by cases isChosen

theorem mem_of_umount {mounts : List Mount} {works : Bool} {path : Text} {mount : Mount}
    (member : mount ∈ if works then detach mounts path else mounts) : mount ∈ mounts := by
  split at member
  · exact mem_of_mem_detach member
  · exact member

/-- What each step of a run of `add` does. -/
theorem Kept.effect (kept : Kept disk start threads) (isJob : threads.locals who = .add call phase)
    (recognised : Recognised disk start call threads.shared phase) {works : Bool} {tmp' : Text}
    (moves : call.step phase works tmp' threads.shared = some (phase', world)) :
    Effect disk start threads who call phase phase' world := by
  have knows := kept.jobs who
  rw [isJob] at knows
  cases phase with
  | os dirs => exact kept.effect_os dirs recognised moves
  | present =>
      cases moves
      split
      · exact kept.effect_done
      · exact kept.effect_keep isJob (fun _ member => member) rfl (fun _ isTmp => by cases isTmp)
          (fun _ isChosen => by cases isChosen)
  | probe => exact kept.effect_probe isJob moves
  | second tmp =>
      cases moves
      split
      · exact kept.effect_keep isJob (fun _ member => member) rfl (fun _ same => same)
          (fun _ isChosen => by cases isChosen)
      · rename_i free
        refine ⟨kept.change_fewer fun _ member => member, ?_, fun _ same => .inl same, ?_⟩
        · apply knows.choose rfl rfl (.inl rfl)
          intro mount member isThere
          exact absurd (mountsHas_iff.mpr ⟨mount, member, isThere⟩) free
        · intro path isChosen
          rw [Add.found, if_neg free]
          exact .inr isChosen
  | first tmp =>
      cases moves
      split
      · rename_i free
        exact kept.effect_target isJob rfl rfl free (if_pos free)
      · exact kept.effect_keep isJob (fun _ member => member) rfl (fun _ same => same)
          (fun _ isChosen => by cases isChosen)
  | other tmp =>
      cases moves
      split
      · rename_i free
        exact kept.effect_target isJob rfl rfl free (if_pos free)
      · exact kept.effect_keep isJob (fun _ member => member) rfl (fun _ same => same)
          (fun _ isChosen => by cases isChosen)
  | move tmp path => exact kept.effect_move isJob moves
  | unprobe tmp path =>
      cases moves
      exact kept.effect_keep isJob (fun _ => mem_of_umount) rfl (fun _ same => same)
        (fun _ same => same)
  | remount tmp path => exact kept.effect_remount isJob moves
  | drop tmp =>
      cases moves
      exact kept.effect_keep isJob (fun _ => mem_of_umount) rfl (fun _ same => same)
        (fun _ isChosen => by cases isChosen)
  | tidy tmp => exact kept.effect_tidy isJob moves
  | done => cases moves

end Kept

/-! ## Runs -/

variable [DecidableEq Id] {disk : Text → Text} {start : List Mount}

/-- A step that leaves its run without a directory and a place, and at most unmounts. -/
theorem Kept.other_step {threads : Threads Id Job World} (kept : Kept disk start threads) (who : Id)
    {job : Job} (noTmp : job.tmp = none) (noPlace : job.chosen = none) {mounts : List Mount}
    (fewer : ∀ mount ∈ mounts, mount ∈ threads.shared.mounts)
    (knows : job.Knows disk start { threads.shared with mounts }) :
    Kept disk start (threads.move who job { threads.shared with mounts }) := by
  apply kept.changed (kept.change_fewer fewer) knows
  · rw [noTmp]
    exact fun _ _ _ isTmp => by cases isTmp
  · rw [noPlace]
    exact fun _ _ _ isMine => by cases isMine

theorem kept_step {threads : Threads Id Job World} {label : Id × Choice}
    (kept : Kept disk start threads) (orderly : Orderly disk start threads label) :
    Kept disk start (threads.step act label) := by
  rcases label with ⟨who, choice⟩
  apply step_invariant kept
  intro job world moves
  rw [Orderly] at orderly
  dsimp only at moves orderly
  cases isJob : threads.locals who with
  | idle =>
      rw [isJob] at moves
      cases choice with
      | startAdd call =>
          rw [act] at moves
          split at moves
          · cases moves
            exact kept.other_step who rfl rfl (fun _ member => member) trivial
          · cases moves
            exact kept.other_step who rfl rfl (fun _ member => member) (knows_os osDirs)
      | startRemove name =>
          cases moves
          exact kept.other_step who rfl rfl (fun _ member => member) trivial
      | go works tmp => cases moves
  | add call phase =>
      rw [isJob] at moves orderly
      cases choice with
      | go works tmp =>
          rcases Option.map_eq_some_iff.mp moves with ⟨⟨phase', after⟩, isNext, same⟩
          cases same
          exact kept.add_moved isJob orderly.1 (kept.effect isJob orderly.2 isNext)
      | startAdd call | startRemove name => cases moves
  | remove name =>
      rw [isJob] at moves
      cases choice with
      | go works tmp =>
          rw [act] at moves
          cases moves
          split
          · exact kept.other_step who rfl rfl (fun _ member => member) trivial
          · exact kept.other_step who rfl rfl (fun _ member => member) trivial
      | startAdd call | startRemove name => cases moves
  | unmount path =>
      rw [isJob] at moves
      cases choice with
      | go works tmp =>
          cases moves
          exact kept.other_step who rfl rfl (fun _ => mem_of_umount) trivial
      | startAdd call | startRemove name => cases moves
  | ended =>
      rw [isJob] at moves
      cases moves

end Runs

/-! ## Two cards with one label, and a partition of the OS disk -/

/-- The step that is taken when every command works. -/
def goOn (digit : UInt8) : Choice :=
  .go true (probePrefix ++ [digit])

def usbAdd (name : DeviceName) : Add where
  name
  label := ascii "CARD"
  isBlock := true
  childPart := false
  secondary := false
  media := .mnt

def firstUsb : Add :=
  usbAdd ⟨ascii "sda1", by decide⟩

def secondUsb : Add :=
  usbAdd ⟨ascii "sdb1", by decide⟩

/-- The second disk is plugged in a little later, and each run chooses before one of them moves. -/
def race : List (Fin 2 × Choice) :=
  (0, .startAdd firstUsb) :: List.replicate 6 (0, goOn 0x61) ++
    (1, .startAdd secondUsb) :: List.replicate 8 (1, goOn 0x62) ++ List.replicate 2 (0, goOn 0x61)

def osMounts : List Mount :=
  [⟨ascii "/dev/loop0", some (ascii "loop0"), ascii "/"⟩,
    ⟨ascii "/dev/mmcblk1p3", some (ascii "mmcblk1p3"), ascii "/boot"⟩]

def osAdd : Add :=
  usbAdd ⟨ascii "mmcblk1p6", by decide⟩

def addAlone (add : Add) : List (Unit × Choice) :=
  ((), .startAdd add) :: List.replicate 6 ((), goOn 0x61)

def kernelDisk (name : Text) : Text :=
  diskOf (devPath name)

theorem fit_of_no_place {disk : Text → Text} {start : List Mount}
    (noPlace : ∀ mount ∈ start, ¬IsPlace mount.path ∧ ¬probePrefix <+: mount.path) :
    Fit disk start where
  honest mount member isPlace := absurd isPlace (noPlace mount member).1
  oneDevice mount member _ _ isPlace := absurd isPlace (noPlace mount member).1
  noOs mount member isPlace := absurd isPlace (noPlace mount member).1
  noProbe mount member := (noPlace mount member).2

theorem fit_osMounts : Fit kernelDisk osMounts := by
  apply fit_of_no_place
  intro mount member
  simp only [osMounts, List.mem_cons, List.not_mem_nil, or_false] at member
  rcases member with rfl | rfl <;> decide

end Zlyme.Storage.Mountpoints
