import Zlyme.Foundation.Execution
import Zlyme.Preloader.Recovery
import Zlyme.Preloader.Transaction

/-! # The backups stay sufficient

A command overwrites a backup only with the image that the NAND holds, and changes
the NAND only once that copy is complete. An armed device keeps its manifest, since
its image is not derived again, and its source backup, since that is another image's.
-/

namespace Zlyme.Preloader

open Foundation Foundation.Script Foundation.Execution

/-! ## What one command leaves -/

/-- The copy of an image is complete. -/
def Stored (host : Host) (hashed : Set Bytes) (image : Bytes) (storage : Storage) : Prop :=
  image ∈ hashed ∧ storage.lookup (savedPath host image) = some image

/-- What holds at every point of a command. Under `frozen` it changes no file but the
copy of the NAND; otherwise only no other backup. -/
structure Within (host : Host) (hashed : Set Bytes) (start : World) (installs : Path → Prop)
    (frozen : Prop) (world : World) : Prop where
  nand : world.nand = start.nand ∨ Stored host hashed start.nand world.storage
  files : ∀ path, frozen ∨ path.dir = .backups →
    world.storage.lookup path = start.storage.lookup path ∨
      path = savedPath host start.nand ∧ start.nand ∈ hashed
  written : ∀ image, .nandWrite image ∈ world.received →
    Stored host hashed start.nand world.storage ∧
      (image = savedPath host start.nand ∨ installs image)

section Commands

variable {host : Host} {hashed : Set Bytes} {start world : World} {installs : Path → Prop}
  {frozen : Prop}

theorem within_start (fresh : start.received = []) :
    Within host hashed start installs frozen start where
  nand := .inl rfl
  files _ _ := .inl rfl
  written image member := by
    rw [fresh] at member
    cases member

theorem Within.congr {after : World} (within : Within host hashed start installs frozen world)
    (nand : after.nand = world.nand) (storage : after.storage = world.storage)
    (received : after.received = world.received) :
    Within host hashed start installs frozen after where
  nand := by
    rw [nand, storage]
    exact within.nand
  files := by
    rw [storage]
    exact within.files
  written := by
    rw [received, storage]
    exact within.written

theorem machine_state (call : Call) (choice : Choice) (world : World) :
    ∃ choice', (machine host call choice world).2 = (call.perform host choice' world).2 := by
  rw [machine]
  split_ifs
  · exact ⟨_, rfl⟩
  · exact ⟨choice, rfl⟩

theorem perform_brief {call : Call} (brief : ¬call.lasts) (choice : Choice) :
    (call.perform host choice world).2.nand = world.nand ∧
      (call.perform host choice world).2.storage = world.storage ∧
      (call.perform host choice world).2.received = world.received := by
  cases call with
  | copy source dest => exact absurd trivial brief
  | flashErase => exact absurd trivial brief
  | nandWrite image => exact absurd trivial brief
  | mktemp =>
      rw [Call.perform]
      split_ifs <;> exact ⟨rfl, rfl, rfl⟩
  | output name content =>
      rw [Call.perform]
      split_ifs <;> exact ⟨rfl, rfl, rfl⟩
  | readNand out =>
      rw [Call.perform]
      split_ifs <;> exact ⟨rfl, rfl, rfl⟩
  | _ => exact ⟨rfl, rfl, rfl⟩

theorem perform_copy (source : File) (dest : Path) (choice : Choice) :
    ((Call.copy source dest).perform host choice world).2.nand = world.nand ∧
      ((Call.copy source dest).perform host choice world).2.received = world.received ∧
      ∀ path, path ≠ dest → ((Call.copy source dest).perform host choice world).2.storage.lookup
        path = world.storage.lookup path := by
  rw [Call.perform]
  split
  · exact ⟨rfl, rfl, fun path other => AList.lookup_insert_ne other⟩
  · refine ⟨rfl, rfl, fun path other => ?_⟩
    rcases choice.content with _ | bytes
    · rfl
    · exact AList.lookup_insert_ne other

/-- Every operation of a command keeps `Within`. -/
def withinDiscipline (host : Host) (hashed : Set Bytes) (start : World) (installs : Path → Prop)
    (frozen : Prop) : Discipline where
  guard call world := ∀ choice, Within host hashed start installs frozen world →
    Within host hashed start installs frozen (machine host call choice world).2
  free call world brief choice within := by
    rcases machine_state call choice world with ⟨choice', same⟩
    rcases perform_brief brief choice' with ⟨nand, storage, received⟩
    rw [same]
    exact within.congr nand storage received

theorem withinDiscipline_guard {call : Call}
    (kept : Within host hashed start installs frozen world → ∀ choice,
      Within host hashed start installs frozen (call.perform host choice world).2) :
    (withinDiscipline host hashed start installs frozen).guard call world := by
  intro choice within
  rcases machine_state call choice world with ⟨choice', same⟩
  rw [same]
  exact kept within choice'

/-- A copy to a file that is no backup, by a command that may change such files. -/
theorem withinDiscipline_publish (changes : ¬frozen) {dir : Dir} {name : String}
    (notBackup : dir ≠ .backups) (source : File) :
    (withinDiscipline host hashed start installs frozen).guard (.copy source ⟨dir, name⟩)
      world := by
  refine withinDiscipline_guard fun within choice => ?_
  rcases perform_copy source ⟨dir, name⟩ choice with ⟨nand, received, others⟩
  have backups : ∀ path : Path, path.dir = .backups → path ≠ ⟨dir, name⟩ :=
    fun path inBackups same => notBackup ((congrArg Path.dir same).symm.trans inBackups)
  have stored : Stored host hashed start.nand world.storage → Stored host hashed start.nand
      ((Call.copy source ⟨dir, name⟩).perform host choice world).2.storage :=
    fun stored => ⟨stored.1, (others _ (backups _ rfl)).trans stored.2⟩
  refine ⟨?_, ?_, ?_⟩
  · rw [nand]
    exact within.nand.imp_right stored
  · intro path covered
    have inBackups := covered.resolve_left changes
    rw [others path (backups path inBackups)]
    exact within.files path covered
  · rw [received]
    exact fun image member => ⟨stored (within.written image member).1,
      (within.written image member).2⟩

theorem Settled.stored (settled : Settled host hashed start world) :
    Stored host hashed start.nand world.storage :=
  ⟨settled.isHashed, settled.copy⟩

theorem withinDiscipline_permits (fresh : start.received = []) :
    (withinDiscipline host hashed start installs frozen).Permits host hashed start installs where
  save source world quiet isHashed := by
    refine withinDiscipline_guard fun within choice => ?_
    rcases perform_copy source (savedPath host start.nand) choice with ⟨nand, received, others⟩
    refine ⟨.inl (nand.trans quiet.nand), fun path covered => ?_, ?_⟩
    · by_cases isSaved : path = savedPath host start.nand
      · exact .inr ⟨isSaved, isHashed⟩
      · rw [others path isSaved]
        exact within.files path covered
    · rw [received, quiet.received, fresh]
      exact nofun
  erase world settled := by
    refine withinDiscipline_guard fun within choice => ⟨.inr settled.stored, within.files, ?_⟩
    intro image member
    rcases List.mem_cons.mp member with same | member
    · cases same
    · exact within.written image member
  write image world settled allowed := by
    refine withinDiscipline_guard fun within choice => ⟨.inr settled.stored, within.files, ?_⟩
    intro other member
    rcases List.mem_cons.mp member with same | member
    · cases same
      exact ⟨settled.stored, allowed⟩
    · exact within.written other member

/-! ## Prepare -/

section Prepare

variable {board : Board} {discipline : Discipline} {exit : Nat → World → Prop}

theorem output_ensures (quiet : Quiet start world) (name : String) (content : Bytes) :
    (Program.output name content).Ensures (machine host) (discipline.contract hashed exit)
      (fun _ after => Quiet start after) world := by
  refine ensures_free not_false fun _ choice => ?_
  rw [Call.perform]
  split_ifs <;> exact ⟨quiet.nand, quiet.received, quiet.storage, quiet.current⟩

theorem removeAll_ensures (quiet : Quiet start world) (names : List String) :
    (Program.removeAll names).Ensures (machine host) (discipline.contract hashed exit)
      (fun _ after => Quiet start after) world :=
  forEach_ensures (fun name _ quiet => remove_ensures quiet name) names quiet

/-- A recovery image is produced only of an image that can be derived. -/
theorem derive_ensures {source : Path} {image : Bytes} (quiet : Quiet start world)
    (isSource : start.storage.lookup source = some image) (dest : String) :
    (Program.derive host source dest).Ensures (machine host) (discipline.contract hashed exit)
      (fun ok after => Quiet start after ∧
        (ok = true → ∃ produced, deriveBytes host.layout host.sha image = .ok produced)) world := by
  refine (storage_ensures quiet).bind fun storage after ⟨quiet, same⟩ => ?_
  cases same
  rw [load, isSource]
  dsimp only
  split
  · rename_i error _
    exact (refused_ensures quiet error).bind fun _ _ quiet => ⟨quiet, fun ok => by cases ok⟩
  · rename_i produced derived
    exact (output_ensures quiet dest produced).mono fun _ _ quiet =>
      ⟨quiet, fun _ => ⟨produced, derived⟩⟩

theorem recoveryManifest_ensures (quiet : Quiet start world) (source : Path)
    (recovery dest : String) :
    (Program.recoveryManifest host source recovery dest).Ensures (machine host)
      (discipline.contract hashed exit) (fun _ after => Quiet start after) world := by
  refine (storage_ensures quiet).bind fun storage after ⟨quiet, _⟩ => ?_
  refine (read_ensures quiet _).bind fun image after ⟨quiet, _, _⟩ => ?_
  dsimp only
  split
  · rename_i error _
    exact (refused_ensures quiet error).bind fun _ _ quiet => quiet
  · exact output_ensures quiet dest _

/-- The contract of a command of which only the operations matter. -/
def withinContract (host : Host) (hashed : Set Bytes) (start : World) (installs : Path → Prop)
    (frozen : Prop) : Contract Call World :=
  (withinDiscipline host hashed start installs frozen).contract hashed fun _ _ => True

theorem publishBoot_ensures (changes : ¬frozen) (source : File) (name : String) :
    (Program.publishBoot source name).Ensures (machine host)
      (withinContract host hashed start installs frozen) (fun _ _ => True) world := by
  have publish : (Program.copy source ⟨.boot, name⟩).Ensures (machine host)
      (withinContract host hashed start installs frozen) (fun _ _ => True) world :=
    (copy_ensures (withinDiscipline_publish changes (by decide) source)).mono fun _ _ _ => trivial
  rw [Program.publishBoot]
  split_ifs
  · exact die_ensures (Quiet.refl world) (fun _ _ => trivial) _
  · refine publish.bind fun ok _ _ => ?_
    cases ok <;> trivial

theorem storeRecovery_ensures (changes : ¬frozen) (current : Path) (image man note : String) :
    (Program.storeRecovery host current image man note).Ensures (machine host)
      (withinContract host hashed start installs frozen) (fun _ _ => True) world := by
  have refuses : ∀ (message : String) (before : World),
      (do
        Program.removeAll [image, man, note]
        Program.die message : Program Unit).Ensures (machine host)
          (withinContract host hashed start installs frozen) (fun _ _ => True) before :=
    fun message before => (removeAll_ensures (Quiet.refl before) _).bind fun _ _ quiet =>
      die_ensures quiet (fun _ _ => trivial) message
  refine (shaFile_ensures _).bind fun sum after _ => ?_
  refine (copy_ensures (withinDiscipline_publish changes (by decide) _)).bind fun ok after _ => ?_
  cases ok with
  | false => exact refuses _ after
  | true =>
  refine (sync_ensures (Quiet.refl after)).bind fun ok after _ => ?_
  cases ok with
  | false => trivial
  | true =>
  refine (shaFile_ensures _).bind fun stored after _ => ?_
  dsimp only
  split_ifs
  · exact refuses _ after
  refine (copy_ensures (withinDiscipline_publish changes (by decide) _)).bind fun ok after _ => ?_
  cases ok with
  | false => trivial
  | true =>
  refine (sync_ensures (Quiet.refl after)).bind fun ok after _ => ?_
  cases ok with
  | false => trivial
  | true =>
  refine (shaFile_ensures _).bind fun source after _ => ?_
  refine (output_ensures (Quiet.refl after) _ _).bind fun ok after _ => ?_
  cases ok with
  | false => trivial
  | true =>
  refine (publishBoot_ensures changes (.kept current) current.name).bind fun _ after _ => ?_
  refine (publishBoot_ensures changes (.temp note) _).bind fun _ after _ => ?_
  refine Ensures.bind (publishBoot_ensures changes (.kept manifestPath) _) fun _ after _ => ?_
  exact (removeAll_ensures (Quiet.refl after) _).mono fun _ _ _ => trivial

theorem cmdPrepareRecovery_ensures (fresh : start.received = [])
    (equalSha : Set.InjOn host.shaText hashed)
    (isFrozen : frozen ↔ ∀ produced, deriveBytes host.layout host.sha start.nand ≠ .ok produced) :
    (Program.cmdPrepareRecovery host board).Ensures (machine host)
      (withinContract host hashed start installs frozen) (fun _ _ => True) start := by
  refine (prepareWrite_ensures (fun _ _ => trivial) (Quiet.refl start)).bind
    fun dev after ⟨quiet, python⟩ => ?_
  refine (mkdir_ensures quiet _).bind fun made after quiet => ?_
  cases made with
  | false => exact die_ensures quiet (fun _ _ => trivial) _
  | true =>
  refine (saveCurrent_ensures quiet (withinDiscipline_permits fresh) (fun _ _ => trivial) python
    equalSha dev).bind fun current kept ⟨saved, _⟩ => ?_
  refine (mktemp_ensures (Quiet.refl kept)).bind fun image after quiet => ?_
  rcases image with _ | image
  · trivial
  refine (mktemp_ensures quiet).bind fun man after quiet => ?_
  rcases man with _ | man
  · trivial
  refine (mktemp_ensures quiet).bind fun note after quiet => ?_
  rcases note with _ | note
  · trivial
  refine (derive_ensures quiet saved.copy image).bind fun ok after ⟨quiet, derived⟩ => ?_
  cases ok with
  | false =>
      exact (removeAll_ensures quiet _).bind fun _ _ quiet =>
        die_ensures quiet (fun _ _ => trivial) _
  | true =>
  rcases derived rfl with ⟨produced, derived⟩
  have changes : ¬frozen := fun holds => isFrozen.mp holds produced derived
  refine (recoveryManifest_ensures quiet current image man).bind fun ok after quiet => ?_
  cases ok with
  | false =>
      exact (removeAll_ensures quiet _).bind fun _ _ quiet =>
        die_ensures quiet (fun _ _ => trivial) _
  | true =>
  refine (storeRecovery_ensures changes current image man note).bind fun _ after _ => ?_
  refine (log_ensures (Quiet.refl after) _).bind fun _ after quiet => ?_
  refine (log_ensures quiet _).bind fun _ after quiet => ?_
  exact (log_ensures quiet _).mono fun _ _ _ => trivial

/-! ## Erase -/

theorem cmdErase_ensures
    (permits : discipline.Permits host hashed start installs) (fresh : start.received = [])
    (equalSha : Set.InjOn host.shaText hashed) :
    (Program.cmdErase host board).Ensures (machine host)
      (discipline.contract hashed (ExitOk start.nand)) (fun _ _ => True) start := by
  have exits : ∀ after, Untouched start after → ExitOk start.nand 1 after :=
    fun _ untouched => untouched_exit fresh untouched
  refine (prepareWrite_ensures (fun _ quiet => exits _ quiet.untouched) (Quiet.refl start)).bind
    fun dev after ⟨quiet, python⟩ => ?_
  refine (saveCurrent_ensures quiet permits exits python equalSha dev).bind
    fun current kept ⟨saved, settled⟩ => ?_
  have isCurrent : current = savedPath host start.nand :=
    Option.some.inj (saved.current.symm.trans settled.current)
  refine (flashErase_ensures (permits.erase kept settled) ⟨rfl, rfl⟩).bind
    fun erased after programmed => ?_
  cases erased with
  | true => exact logAll_ensures _ fun _ _ => trivial
  | false =>
      exact fallback_ensures saved (permits.writes settled (.inl isCurrent)) programmed equalSha
        python dev _ _ _

end Prepare

/-! ## Every command -/

/-- What a command may install. -/
def Subcommand.Installs (host : Host) (start : World) : Subcommand → Path → Prop
  | .install command, image => command.Installs host start image
  | .prepareRecovery, _ => False
  | .erasePreloader, _ => False

/-- The commands that change no file but the copy of the NAND. -/
def Subcommand.Frozen (host : Host) (start : World) : Subcommand → Prop
  | .prepareRecovery => ∀ produced, deriveBytes host.layout host.sha start.nand ≠ .ok produced
  | _ => True

theorem subcommand_ensures (board : Board) (subcommand : Subcommand) (fresh : start.received = [])
    (equalSha : Set.InjOn host.shaText hashed) :
    ∃ exit, (subcommand.program host board).Ensures (machine host)
      ((withinDiscipline host hashed start (subcommand.Installs host start)
        (subcommand.Frozen host start)).contract hashed exit) (fun _ _ => True) start := by
  cases subcommand with
  | install command =>
      exact ⟨_, (command_ensures equalSha fresh (withinDiscipline_permits fresh)
        (Quiet.refl start)).mono fun _ _ _ => trivial⟩
  | prepareRecovery => exact ⟨_, cmdPrepareRecovery_ensures fresh equalSha Iff.rfl⟩
  | erasePreloader =>
      exact ⟨_, cmdErase_ensures (withinDiscipline_permits fresh) fresh equalSha⟩

end Commands

/-- Every use of the tool, wherever it ends. -/
theorem Device.after_within {host : Host} {hashed : Set Bytes} (device : Device)
    (invocation : Invocation) (equalSha : Set.InjOn host.shaText hashed)
    (covers : hashedIn ((invocation.subcommand.program host invocation.board).issued
      (machine host) invocation.choices (device.world invocation)) ⊆ hashed) :
    Within host hashed (device.world invocation)
      (invocation.subcommand.Installs host (device.world invocation))
      (invocation.subcommand.Frozen host (device.world invocation))
      (device.after host invocation) := by
  have fresh : (device.world invocation).received = [] := rfl
  rcases subcommand_ensures invocation.board invocation.subcommand fresh equalSha with
    ⟨exit, ensures⟩
  have run := ensures.exec invocation.choices fun entry member file bytes isSum found =>
    covers ⟨entry, member, file, isSum, found⟩
  exact exec_invariant_of_issued _ (within_start rfl) fun entry member choice =>
    run.1 entry member choice

/-! ## Armed devices -/

section Armed

variable {host : Host} {hashed : Set Bytes} {storage storage' : Storage} {live : Bytes}

/-- An image whose boot order is the right slot alone is not derived. -/
theorem deriveBytes_refuses (order : host.liveOrder live = .ok [rightSlotName]) (produced : Bytes) :
    deriveBytes host.layout host.sha live ≠ .ok produced := by
  intro derived
  rcases bind_eq_ok.mp derived with ⟨rebuilt, built, _⟩
  have facts := rebuild_eq_ok built
  rcases facts.tree with ⟨blob, edited, isTree, replaced, _⟩
  rcases bind_eq_ok.mp replaced with ⟨_, _, replaced⟩
  rcases bind_eq_ok.mp replaced with ⟨found, isOrder, replaced⟩
  rcases bind_eq_ok.mp replaced with ⟨_, notRecovery, _⟩
  rcases bind_eq_ok.mp order with ⟨pair, isPair, order⟩
  cases facts.accepted.symm.trans isPair
  rcases bind_eq_ok.mp order with ⟨blob', isTree', order⟩
  cases isTree.symm.trans isTree'
  rcases bind_eq_ok.mp order with ⟨found', isOrder', order⟩
  cases isOrder.symm.trans isOrder'
  exact refuseIf_eq_ok notRecovery (Except.ok.inj order)

theorem load_congr {path : Path} (same : storage'.lookup path = storage.lookup path)
    (missing : String) : load storage' path missing = load storage path missing := by
  rw [load, load, same]

theorem manifest_congr (same : storage'.lookup manifestPath = storage.lookup manifestPath) :
    host.manifest storage' manifestPath = host.manifest storage manifestPath := by
  rw [Host.manifest, Host.manifest, load_congr same]

/-- The binding of a recovery image to its source. -/
structure BoundTo (host : Host) (storage : Storage) (live : Bytes) (doc : Manifest)
    (source : Bytes) : Prop where
  accepted : host.manifest storage manifestPath = .ok doc
  recoverySha : host.shaText live = doc.recoverySha256
  isSource : storage.lookup doc.sourceBackup = some source
  sourceSha : host.shaText source = doc.sourceSha256
  sameBuild : host.sameBuild doc source live = .ok ()
  derived : deriveBytes host.layout host.sha source = .ok live
  order : host.liveOrder live = .ok [rightSlotName]

theorem BoundTo.boundSource {doc : Manifest} {source : Bytes}
    (bound : BoundTo host storage live doc source) :
    host.boundSource storage live = .ok doc.sourceBackup := by
  rcases bind_eq_ok.mp bound.order with ⟨pair, isPair, _⟩
  refine bind_eq_ok.mpr ⟨doc, bound.accepted, bind_eq_ok.mpr ⟨pair, isPair, ?_⟩⟩
  refine bind_eq_ok.mpr ⟨(), refuseIf_of_not (not_not_intro bound.recoverySha) _, ?_⟩
  refine bind_eq_ok.mpr ⟨source, load_eq_ok.mpr bound.isSource, ?_⟩
  refine bind_eq_ok.mpr ⟨(), refuseIf_of_not (not_not_intro bound.sourceSha) _, ?_⟩
  refine bind_eq_ok.mpr ⟨(), bound.sameBuild, ?_⟩
  simp only [bound.derived]
  exact bind_eq_ok.mpr ⟨(), refuseIf_of_not (not_not_intro rfl) _, rfl⟩

theorem BoundTo.source_ne {doc : Manifest} {source : Bytes}
    (bound : BoundTo host storage live doc source) : source ≠ live := by
  rintro rfl
  exact deriveBytes_refuses bound.order _ bound.derived

theorem BoundTo.backup {doc : Manifest} {source : Bytes}
    (bound : BoundTo host storage live doc source) :
    doc.sourceBackup = savedPath host source := by
  rw [Manifest.sourceBackup, savedPath, bound.sourceSha]

/-- The binding reads the manifest and the source backup only. -/
theorem BoundTo.congr {doc : Manifest} {source : Bytes}
    (bound : BoundTo host storage live doc source)
    (manifest : storage'.lookup manifestPath = storage.lookup manifestPath)
    (backup : storage'.lookup doc.sourceBackup = storage.lookup doc.sourceBackup) :
    BoundTo host storage' live doc source :=
  { bound with
    accepted := (manifest_congr manifest).trans bound.accepted
    isSource := backup.trans bound.isSource }

theorem backupName_inj {first second : String} (same : backupName first = backupName second) :
    first = second := by
  have stems := (String.append_left_inj ".img").mp same
  exact (String.append_right_inj "preloader-current-").mp stems

theorem savedPath_injOn (equalSha : Set.InjOn host.shaText hashed) :
    Set.InjOn (savedPath host) hashed := by
  intro first isFirst second isSecond same
  exact equalSha isFirst isSecond (backupName_inj (congrArg Path.name same))

theorem manifestPath_ne (image : Bytes) : manifestPath ≠ savedPath host image :=
  fun same => nomatch congrArg Path.dir same

/-- What an armed device keeps. -/
def ArmedOk (host : Host) (hashed : Set Bytes) (storage : Storage) (live : Bytes) : Prop :=
  ∃ doc source, BoundTo host storage live doc source ∧ source ∈ hashed

/-- Neither the manifest nor the source backup is the copy of an armed image. -/
theorem ArmedOk.keep (armed : ArmedOk host hashed storage live)
    (equalSha : Set.InjOn host.shaText hashed)
    (files : ∀ path, storage'.lookup path = storage.lookup path ∨
      path = savedPath host live ∧ live ∈ hashed) : ArmedOk host hashed storage' live := by
  rcases armed with ⟨doc, source, bound, isHashed⟩
  refine ⟨doc, source, bound.congr ?_ ?_, isHashed⟩
  · exact (files _).resolve_right fun both => manifestPath_ne live both.1
  · refine (files _).resolve_right ?_
    rintro ⟨same, liveHashed⟩
    rw [bound.backup] at same
    exact bound.source_ne (savedPath_injOn equalSha isHashed liveHashed same)

theorem armTarget_ne {target : Path} {image : Bytes}
    (isTarget : Command.armRecovery.target host storage = some target) :
    target ≠ savedPath host image := by
  rintro rfl
  rcases Option.map_eq_some_iff.mp isTarget with ⟨doc, _, same⟩
  cases congrArg Path.dir same

/-- What `arm_bind` has checked is the binding of the target, once the copy is there. -/
theorem armBind_bound {source target : Bytes} {image : Path} {want : String}
    (bound : host.armBind storage source = .ok (image, want))
    (isTarget : storage.lookup image = some target)
    (stored : Stored host hashed source storage')
    (files : ∀ path, storage'.lookup path = storage.lookup path ∨
      path = savedPath host source ∧ source ∈ hashed) : ArmedOk host hashed storage' target := by
  rcases armBind_eq_ok bound with ⟨doc, recovery, facts⟩
  rw [facts.target] at isTarget
  cases facts.prepared.symm.trans isTarget
  have manifest : storage'.lookup manifestPath = storage.lookup manifestPath :=
    (files _).resolve_right fun both => manifestPath_ne source both.1
  have backup : doc.sourceBackup = savedPath host source := by
    rw [Manifest.sourceBackup, savedPath, facts.liveSha]
  refine ⟨doc, source, ?_, stored.1⟩
  exact {
    accepted := (manifest_congr manifest).trans facts.accepted
    recoverySha := facts.recoverySha
    isSource := by
      rw [backup]
      exact stored.2
    sourceSha := facts.liveSha
    sameBuild := facts.sameBuild
    derived := facts.derived
    order := facts.order }

end Armed

/-! ## Runs -/

section Runs

variable {host : Host} {hashed : Set Bytes} {device : Device} {invocation : Invocation}

/-- An image is in the NAND, or its copy is complete. -/
def Device.Keeps (host : Host) (hashed : Set Bytes) (image : Bytes) (device : Device) : Prop :=
  device.nand = image ∨ Stored host hashed image device.storage

/-- What an armed device needs in order to be disarmed. -/
def Device.Disarmable (host : Host) (hashed : Set Bytes) (device : Device) : Prop :=
  device.armed = true → ArmedOk host hashed device.storage device.nand

theorem Device.keeps_step (equalSha : Set.InjOn host.shaText hashed)
    (covers : hashedIn ((invocation.subcommand.program host invocation.board).issued
      (machine host) invocation.choices (device.world invocation)) ⊆ hashed)
    {image : Bytes} (keeps : device.Keeps host hashed image) :
    (device.step host invocation).Keeps host hashed image := by
  have within := device.after_within invocation equalSha covers
  rcases keeps with rfl | ⟨isHashed, stored⟩
  · exact within.nand
  rcases within.files (savedPath host image) (.inr rfl) with same | ⟨same, nandHashed⟩
  · exact .inr ⟨isHashed, same.trans stored⟩
  · cases savedPath_injOn equalSha isHashed nandHashed same
    exact within.nand

theorem Device.disarmable_step (equalSha : Set.InjOn host.shaText hashed)
    (covers : hashedIn ((invocation.subcommand.program host invocation.board).issued
      (machine host) invocation.choices (device.world invocation)) ⊆ hashed)
    (disarmable : device.Disarmable host hashed) :
    (device.step host invocation).Disarmable host hashed := by
  have within := device.after_within invocation equalSha covers
  intro armed
  rcases Bool.or_eq_true_iff.mp armed with stays | arms
  · -- The NAND holds the armed image still, and no command derives that one again.
    rcases Bool.and_eq_true_iff.mp stays with ⟨wasArmed, sameNand⟩
    have sameNand : (device.after host invocation).nand = device.nand := beq_iff_eq.mp sameNand
    have was := disarmable wasArmed
    have frozen : invocation.subcommand.Frozen host (device.world invocation) := by
      rcases was with ⟨doc, source, bound, _⟩
      cases invocation.subcommand with
      | prepareRecovery => exact deriveBytes_refuses bound.order
      | install command => trivial
      | erasePreloader => trivial
    have kept := was.keep equalSha fun path => within.files path (.inl frozen)
    rw [← sameNand] at kept
    exact kept
  · rw [Device.arms, Bool.and_eq_true_iff] at arms
    rcases arms with ⟨isArm, arms⟩
    rw [beq_iff_eq.mp isArm] at within
    rcases (Option.any_eq_true _ _).mp arms with ⟨target, isTarget, checked⟩
    rcases Bool.and_eq_true_iff.mp checked with ⟨received, held⟩
    rcases within.written target (List.contains_iff_mem.mp received) with ⟨stored, isSaved | installs⟩
    · exact absurd isSaved (armTarget_ne isTarget)
    · rcases installs.2 rfl with ⟨want, bound⟩
      exact armBind_bound bound (beq_iff_eq.mp held) stored fun path =>
        within.files path (.inl trivial)

/-- The hypothesis of the steps, along a run. -/
theorem covers_along {invocations : List Invocation}
    (covers : hashedIn (issuedIn host device invocations) ⊆ hashed) :
    Along (Device.step host) (fun device invocation =>
      hashedIn ((invocation.subcommand.program host invocation.board).issued (machine host)
        invocation.choices (device.world invocation)) ⊆ hashed) device invocations := by
  induction invocations generalizing device with
  | nil => trivial
  | cons invocation rest induction =>
      constructor
      · rintro bytes ⟨entry, member, isHashed⟩
        exact covers ⟨entry, List.mem_append_left _ member, isHashed⟩
      · apply induction
        rintro bytes ⟨entry, member, isHashed⟩
        exact covers ⟨entry, List.mem_append_right _ member, isHashed⟩

end Runs

/-- In every run, wherever it stops: an image that the NAND held when a command began
is there still, or is completely stored under its hash; and while the NAND holds what
`arm-recovery` has installed, `disarm-recovery` finds its source. -/
theorem backups_suffice (host : Host) (nand : Bytes) (storage : Storage)
    (invocations : List Invocation) (equalSha : Set.InjOn host.shaText
      (hashedIn (issuedIn host (Device.fresh nand storage) invocations))) :
    let last := run (Device.step host) (Device.fresh nand storage) invocations
    (∀ earlier later, invocations = earlier ++ later →
      let found := (run (Device.step host) (Device.fresh nand storage) earlier).nand
      last.nand = found ∨ last.storage.lookup (savedPath host found) = some found) ∧
    (last.armed = true → ∃ path, host.boundSource last.storage last.nand = .ok path) := by
  have along : Along (Device.step host) _ (Device.fresh nand storage) invocations :=
    covers_along Set.Subset.rfl
  constructor
  · rintro earlier later rfl
    have keeps := along_run_invariant _ (fun _ _ keeps covers =>
      Device.keeps_step equalSha covers keeps) (along_append.mp along).2 (.inl rfl)
    rw [← run_append] at keeps
    exact keeps.imp_right And.right
  · intro armed
    have disarmable := along_run_invariant (Device.Disarmable host _) (fun _ _ disarmable covers =>
      Device.disarmable_step equalSha covers disarmable) along nofun
    rcases disarmable armed with ⟨doc, source, bound, _⟩
    exact ⟨_, bound.boundSource⟩

/-! ### Two small runs -/

/-- The original image is restored, and then erased. -/
def restoredRun : List Invocation :=
  [{ subcommand := .install .restore
     board := smallBoard
     temp := ∅
     choices := smallChoices },
    { subcommand := .erasePreloader
      board := smallBoard
      temp := ∅
      choices := List.replicate 13 (succeeds none) ++ [succeeds (some [])] ++
        List.replicate 4 (succeeds none) }]

/-- The restore writes its image, cannot read it back, and erases it for the next
attempt, when the power goes. -/
def failedAttempt : Invocation where
  subcommand := .install .restore
  board := smallBoard
  temp := ∅
  choices := List.replicate 21 (succeeds none) ++
    [succeeds (some (smallImage 0x22)), { succeeds none with ok := false }, succeeds none,
      succeeds none, succeeds none, succeeds (some [])]

def erases : Call → Bool
  | .flashErase => true
  | _ => false

/-- Both runs begin with the same operations, which are evaluated once. -/
theorem smallRuns_evaluated :
    ((run (Device.step smallHost) (Device.fresh smallStart.nand smallStart.storage)
      restoredRun).nand = [] ∧
      hashesOnly (smallImage 0x22) (smallImage 0x33)
        (issuedIn smallHost (Device.fresh smallStart.nand smallStart.storage) restoredRun) =
          true) ∧
    hashesOnly (smallImage 0x22) (smallImage 0x33)
      (issuedIn smallHost (Device.fresh smallStart.nand smallStart.storage) [failedAttempt]) =
        true ∧
      (issuedIn smallHost (Device.fresh smallStart.nand smallStart.storage)
        [failedAttempt]).any (fun entry => erases entry.1 &&
          decide ((parse smallHost.layout smallHost.sha entry.2.nand).toOption.isSome = true ∧
            (run (Device.step smallHost) (Device.fresh smallStart.nand smallStart.storage)
              [failedAttempt]).nand ≠ entry.2.nand ∧
            (run (Device.step smallHost) (Device.fresh smallStart.nand smallStart.storage)
              [failedAttempt]).storage.lookup (savedPath smallHost entry.2.nand) ≠
                some entry.2.nand)) = true := by
  decide +kernel

theorem restoredRun_sufficient :
    let start := Device.fresh smallStart.nand smallStart.storage
    let last := run (Device.step smallHost) start restoredRun
    last.nand = [] ∧
    ((∀ earlier later, restoredRun = earlier ++ later →
      let found := (run (Device.step smallHost) start earlier).nand
      last.nand = found ∨ last.storage.lookup (savedPath smallHost found) = some found) ∧
    (last.armed = true → ∃ path, smallHost.boundSource last.storage last.nand = .ok path)) := by
  rcases smallRuns_evaluated with ⟨⟨erased, only⟩, -⟩
  intro start last
  constructor
  · exact erased
  · exact backups_suffice smallHost smallStart.nand smallStart.storage restoredRun
      (hashedIn_injOn only smallImages_differ)

/-- An image that an attempt of the command itself has left is neither kept nor there. -/
theorem failedAttempt_erased :
    let start := Device.fresh smallStart.nand smallStart.storage
    let last := run (Device.step smallHost) start [failedAttempt]
    Set.InjOn smallHost.shaText (hashedIn (issuedIn smallHost start [failedAttempt])) ∧
    ∃ entry ∈ issuedIn smallHost start [failedAttempt], entry.1 = .flashErase ∧
      (parse smallHost.layout smallHost.sha entry.2.nand).toOption.isSome = true ∧
      last.nand ≠ entry.2.nand ∧
      last.storage.lookup (savedPath smallHost entry.2.nand) ≠ some entry.2.nand := by
  rcases smallRuns_evaluated with ⟨-, only, erasure⟩
  refine ⟨hashedIn_injOn only smallImages_differ, ?_⟩
  rcases List.any_eq_true.mp erasure with ⟨⟨call, world⟩, member, checked⟩
  rcases Bool.and_eq_true_iff.mp checked with ⟨isErase, checked⟩
  have found := of_decide_eq_true checked
  refine ⟨_, member, ?_, found⟩
  cases call with
  | flashErase => rfl
  | _ => cases isErase

end Zlyme.Preloader
