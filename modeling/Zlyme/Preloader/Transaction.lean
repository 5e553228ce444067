import Mathlib.Data.Set.Function
import Zlyme.Preloader.Commands
import Zlyme.Preloader.State

/-! # The NAND transaction

Until `CURRENT` holds a verified copy of the NAND, a command changes nothing but
that copy, temporary files and messages. From then on the copy stays, and every way
out says what the NAND holds.
-/

namespace Zlyme.Preloader

open Foundation Foundation.Script

/-! ## What a step leaves alone -/

/-- Only temporary files and messages differ. -/
structure Quiet (start after : World) : Prop where
  nand : after.nand = start.nand
  received : after.received = start.received
  storage : after.storage = start.storage
  current : after.current = start.current

/-- The NAND has seen no command. -/
structure Untouched (start after : World) : Prop where
  nand : after.nand = start.nand
  received : after.received = start.received

/-- The NAND may differ; files and `CURRENT` do not. -/
structure Programmed (start after : World) : Prop where
  storage : after.storage = start.storage
  current : after.current = start.current

theorem Quiet.refl (world : World) : Quiet world world :=
  ⟨rfl, rfl, rfl, rfl⟩

theorem Quiet.untouched {start after : World} (quiet : Quiet start after) :
    Untouched start after :=
  ⟨quiet.nand, quiet.received⟩

theorem Quiet.programmed {start middle after : World} (quiet : Quiet middle after)
    (programmed : Programmed start middle) : Programmed start after :=
  ⟨quiet.storage.trans programmed.storage, quiet.current.trans programmed.current⟩

/-! ## Contract -/

/-- `CURRENT` holds a copy of an image. -/
def HoldsCopy (nand : Bytes) (world : World) : Prop :=
  ∃ path, world.current = some path ∧ world.storage.lookup path = some nand

/-- The operations that the NAND does not forget. -/
def Call.changesNand : Call → Prop
  | .flashErase => True
  | .nandWrite _ => True
  | _ => False

/-- Whenever the NAND is about to change, the copy is there; only strings of a given
set are hashed. -/
def nandContract (nand : Bytes) (hashed : Set Bytes) (exit : Nat → World → Prop) :
    Contract Call World where
  rely call world := ∀ file bytes, call = .sha256sum file → world.read file = some bytes →
    bytes ∈ hashed
  guard call world := call.changesNand → HoldsCopy nand world
  stop _ := True
  exit := exit

/-- The operations whose effect outlives a command. -/
def Call.lasts : Call → Prop
  | .copy _ _ => True
  | .flashErase => True
  | .nandWrite _ => True
  | _ => False

/-- What a command promises before an operation whose effect outlives it. -/
structure Discipline where
  guard : Call → World → Prop
  free : ∀ call world, ¬call.lasts → guard call world

def Discipline.contract (discipline : Discipline) (hashed : Set Bytes)
    (exit : Nat → World → Prop) : Contract Call World where
  rely call world := ∀ file bytes, call = .sha256sum file → world.read file = some bytes →
    bytes ∈ hashed
  guard := discipline.guard
  stop _ := True
  exit := exit

/-- The discipline of `nandContract`. -/
def nandDiscipline (nand : Bytes) : Discipline where
  guard call world := call.changesNand → HoldsCopy nand world
  free call world brief changes := by
    cases call with
    | flashErase => exact absurd trivial brief
    | nandWrite _ => exact absurd trivial brief
    | _ => exact changes.elim

/-- The file that `save_current` keeps an image in. -/
def savedPath (host : Host) (image : Bytes) : Path :=
  ⟨.backups, backupName (host.shaText image)⟩

/-- The copy of the NAND's first contents is complete, and no other file has changed. -/
structure Settled (host : Host) (hashed : Set Bytes) (start world : World) : Prop where
  isHashed : start.nand ∈ hashed
  current : world.current = some (savedPath host start.nand)
  copy : world.storage.lookup (savedPath host start.nand) = some start.nand
  others : ∀ path, path ≠ savedPath host start.nand →
    world.storage.lookup path = start.storage.lookup path

/-- A discipline under which a command may save the NAND, and change it once the copy
is there. It writes the copy or an image that it is to install. -/
structure Discipline.Permits (discipline : Discipline) (host : Host) (hashed : Set Bytes)
    (start : World) (installs : Path → Prop) : Prop where
  save : ∀ source world, Quiet start world → start.nand ∈ hashed →
    discipline.guard (.copy source (savedPath host start.nand)) world
  erase : ∀ world, Settled host hashed start world → discipline.guard .flashErase world
  write : ∀ image world, Settled host hashed start world →
    image = savedPath host start.nand ∨ installs image → discipline.guard (.nandWrite image) world

section Steps

variable {host : Host} {board : Board} {discipline : Discipline} {nand : Bytes}
  {hashed : Set Bytes} {exit : Nat → World → Prop} {start world : World}

theorem ensures_call {call : Call} {post : call.Result → World → Prop}
    (guarded : discipline.guard call world)
    (answers : (discipline.contract hashed exit).rely call world → ∀ choice,
      post (call.perform host choice world).1 (call.perform host choice world).2) :
    (Program.issue call).Ensures (machine host) (discipline.contract hashed exit) post world := by
  apply Ensures.issue trivial guarded
  intro relied choice
  cases lost : choice.powerLost with
  | true => exact .inr ⟨_, if_pos lost, trivial⟩
  | false => exact .inl ⟨_, _, if_neg (Bool.not_eq_true _ ▸ lost), answers relied choice⟩

theorem ensures_free {call : Call} {post : call.Result → World → Prop} (brief : ¬call.lasts)
    (answers : (discipline.contract hashed exit).rely call world → ∀ choice,
      post (call.perform host choice world).1 (call.perform host choice world).2) :
    (Program.issue call).Ensures (machine host) (discipline.contract hashed exit) post world :=
  ensures_call (discipline.free call world brief) answers

/-! ### Operations -/

theorem read_ensures (quiet : Quiet start world) (file : File) :
    (Program.read file).Ensures (machine host) (discipline.contract hashed exit)
      (fun bytes after => Quiet start after ∧ bytes = after.read file ∧ after = world) world :=
  ensures_free not_false fun _ _ => ⟨quiet, rfl, rfl⟩

theorem storage_ensures (quiet : Quiet start world) :
    Program.storage.Ensures (machine host) (discipline.contract hashed exit)
      (fun storage after => Quiet start after ∧ storage = start.storage) world :=
  ensures_free not_false fun _ _ => ⟨quiet, quiet.storage⟩

theorem shaFile_ensures (file : File) :
    (Program.shaFile file).Ensures (machine host) (discipline.contract hashed exit)
      (fun sum after => after = world ∧ ∀ bytes, world.read file = some bytes →
        sum = host.shaText bytes ∧ bytes ∈ hashed) world := by
  refine ensures_free not_false fun relied _ => ⟨rfl, fun bytes found => ?_⟩
  refine ⟨?_, relied file bytes rfl found⟩
  simp [Call.perform, found]

theorem log_ensures (quiet : Quiet start world) (message : String) :
    (Program.log message).Ensures (machine host) (discipline.contract hashed exit)
      (fun _ after => Quiet start after) world :=
  ensures_free not_false fun _ _ => ⟨quiet.nand, quiet.received, quiet.storage, quiet.current⟩

theorem refused_ensures (quiet : Quiet start world) (error : PyError) :
    (Program.refused error).Ensures (machine host) (discipline.contract hashed exit)
      (fun _ after => Quiet start after) world := by
  cases error <;>
    exact ensures_free not_false fun _ _ =>
      ⟨quiet.nand, quiet.received, quiet.storage, quiet.current⟩

theorem remove_ensures (quiet : Quiet start world) (name : String) :
    (Program.remove name).Ensures (machine host) (discipline.contract hashed exit)
      (fun _ after => Quiet start after) world :=
  ensures_free not_false fun _ _ => ⟨quiet.nand, quiet.received, quiet.storage, quiet.current⟩

theorem mktemp_ensures (quiet : Quiet start world) :
    Program.mktemp.Ensures (machine host) (discipline.contract hashed exit)
      (fun _ after => Quiet start after) world := by
  refine ensures_free not_false fun _ choice => ?_
  simp only [Call.perform]
  split_ifs
  · exact ⟨quiet.nand, quiet.received, quiet.storage, quiet.current⟩
  · exact quiet

theorem readNand_ensures (quiet : Quiet start world) (out : String) :
    (Program.readNand out).Ensures (machine host) (discipline.contract hashed exit)
      (fun ok after => Quiet start after ∧
        (ok = true → after.temp.lookup out = some start.nand)) world := by
  refine ensures_free not_false fun _ choice => ?_
  simp only [Call.perform]
  split_ifs
  · refine ⟨⟨quiet.nand, quiet.received, quiet.storage, quiet.current⟩, fun _ => ?_⟩
    rw [← quiet.nand]
    exact AList.lookup_insert world.temp
  · exact ⟨⟨quiet.nand, quiet.received, quiet.storage, quiet.current⟩, nofun⟩

/-! ### Helpers -/

/-- `die` under an exit condition that its state meets. -/
theorem die_ensures {α : Type} {post : α → World → Prop} (quiet : Quiet start world)
    (exits : ∀ after, Quiet start after → exit 1 after) (message : String) :
    (Program.die message : Program α).Ensures (machine host) (discipline.contract hashed exit)
      post world :=
  (log_ensures quiet message).bind fun _ after quiet => exits after quiet

theorem needTool_ensures (quiet : Quiet start world) {tool : String}
    (present : board.tools.contains tool = true) :
    (Program.needTool board tool).Ensures (machine host) (discipline.contract hashed exit)
      (fun _ after => Quiet start after) world := by
  rw [Program.needTool, if_pos present]
  exact quiet

theorem imageOk_ensures (quiet : Quiet start world)
    (python : board.tools.contains "python3" = true) (file : File) :
    (Program.imageOk host board file).Ensures (machine host) (discipline.contract hashed exit)
      (fun ok after => Quiet start after ∧ (ok = true → ∃ bytes, world.read file = some bytes))
      world := by
  refine (read_ensures quiet file).bind fun bytes after ⟨quiet, found, same⟩ => ?_
  cases same
  rcases bytes with _ | bytes
  · exact ⟨quiet, nofun⟩
  · dsimp only
    split_ifs
    · exact ⟨quiet, nofun⟩
    · refine (needTool_ensures quiet python).bind fun _ after quiet => ?_
      rcases parse host.layout host.sha bytes with error | entries
      · exact (refused_ensures quiet error).bind fun _ _ quiet => ⟨quiet, nofun⟩
      · exact ⟨quiet, fun _ => ⟨bytes, found.symm⟩⟩

theorem validateImage_ensures (quiet : Quiet start world)
    (exits : ∀ after, Quiet start after → exit 1 after)
    (python : board.tools.contains "python3" = true) (file : File) :
    (Program.validateImage host board file).Ensures (machine host)
      (discipline.contract hashed exit) (fun _ after => Quiet start after) world := by
  refine (imageOk_ensures quiet python file).bind fun ok after ⟨quiet, _⟩ => ?_
  cases ok with
  | true => exact quiet
  | false => exact die_ensures quiet exits _

theorem readLive_ensures (quiet : Quiet start world) (dev out : String) :
    (Program.readLive host dev out).Ensures (machine host) (discipline.contract hashed exit)
      (fun ok after => Quiet start after ∧
        (ok = true → after.temp.lookup out = some start.nand)) world := by
  rw [Program.readLive]
  split_ifs
  · exact (log_ensures quiet _).bind fun _ _ quiet => ⟨quiet, nofun⟩
  · exact (log_ensures quiet _).bind fun _ _ quiet => ⟨quiet, nofun⟩
  · refine (readNand_ensures quiet out).bind fun ok after ⟨quiet, held⟩ => ?_
    cases ok with
    | false => exact (log_ensures quiet _).bind fun _ _ quiet => ⟨quiet, nofun⟩
    | true =>
        refine (read_ensures quiet _).bind fun bytes again ⟨quiet, _, same⟩ => ?_
        cases same
        split_ifs
        · exact ⟨quiet, fun _ => held rfl⟩
        · exact (log_ensures quiet _).bind fun _ _ quiet => ⟨quiet, nofun⟩

/-! ### The saved copy -/

/-- The state in which `save_current` returns. -/
structure Saved (start : World) (dest : Path) (after : World) : Prop where
  untouched : Untouched start after
  current : after.current = some dest
  inBackups : dest.dir = .backups
  copy : after.storage.lookup dest = some start.nand
  others : ∀ path, path ≠ dest → after.storage.lookup path = start.storage.lookup path

theorem Saved.quiet {dest : Path} {after : World} (saved : Saved start dest world)
    (quiet : Quiet world after) : Saved start dest after where
  untouched := ⟨quiet.nand.trans saved.untouched.nand,
    quiet.received.trans saved.untouched.received⟩
  current := quiet.current.trans saved.current
  inBackups := saved.inBackups
  copy := by
    rw [quiet.storage]
    exact saved.copy
  others := by
    rw [quiet.storage]
    exact saved.others

theorem copy_ensures {source : File} {dest : Path}
    (guarded : discipline.guard (.copy source dest) world) :
    (Program.copy source dest).Ensures (machine host) (discipline.contract hashed exit)
      (fun ok after => Untouched world after ∧
        (ok = true → ∃ bytes, after.storage = world.storage.insert dest bytes)) world := by
  refine ensures_call guarded fun _ choice => ?_
  simp only [Call.perform]
  split
  · exact ⟨⟨rfl, rfl⟩, fun _ => ⟨_, rfl⟩⟩
  · exact ⟨⟨rfl, rfl⟩, nofun⟩

theorem sync_ensures (quiet : Quiet start world) :
    Program.sync.Ensures (machine host) (discipline.contract hashed exit)
      (fun _ after => Quiet start after ∧ after = world) world :=
  ensures_free not_false fun _ _ => ⟨quiet, rfl⟩

theorem mkdir_ensures (quiet : Quiet start world) (dir : Dir) :
    (Program.mkdir dir).Ensures (machine host) (discipline.contract hashed exit)
      (fun _ after => Quiet start after) world :=
  ensures_free not_false fun _ _ => quiet

theorem setCurrent_ensures (path : Path) :
    (Program.setCurrent path).Ensures (machine host) (discipline.contract hashed exit)
      (fun _ after => after = { world with current := some path }) world :=
  ensures_free not_false fun _ _ => rfl

theorem saveCurrent_ensures {installs : Path → Prop} (quiet : Quiet start world)
    (permits : discipline.Permits host hashed start installs)
    (exits : ∀ after, Untouched start after → exit 1 after)
    (python : board.tools.contains "python3" = true) (equalSha : Set.InjOn host.shaText hashed)
    (dev : String) :
    (Program.saveCurrent host board dev).Ensures (machine host) (discipline.contract hashed exit)
      (fun dest after => Saved start dest after ∧ Settled host hashed start after) world := by
  have quietExits : ∀ after, Quiet start after → exit 1 after :=
    fun after quiet => exits after quiet.untouched
  refine (mkdir_ensures quiet .backups).bind fun made after quiet => ?_
  cases made with
  | false => exact die_ensures quiet quietExits _
  | true =>
  refine (mktemp_ensures quiet).bind fun tmp after quiet => ?_
  rcases tmp with _ | tmp
  · exact quietExits after quiet
  refine (readLive_ensures quiet dev tmp).bind fun ok after ⟨quiet, held⟩ => ?_
  cases ok with
  | false => exact quietExits after quiet
  | true =>
  refine (shaFile_ensures (.temp tmp)).bind fun sum again ⟨same, isSum⟩ => ?_
  cases same
  rcases isSum start.nand (held rfl) with ⟨isSum, nandHashed⟩
  have isDest : (⟨.backups, backupName sum⟩ : Path) = savedPath host start.nand := by
    rw [isSum]
    rfl
  have guarded := permits.save (.temp tmp) after quiet nandHashed
  rw [← isDest] at guarded
  refine (copy_ensures guarded).bind fun ok copied ⟨untouched, written⟩ => ?_
  have untouched : Untouched start copied :=
    ⟨untouched.nand.trans quiet.nand, untouched.received.trans quiet.received⟩
  have copiedExits : ∀ after, Quiet copied after → exit 1 after := fun after quiet =>
    exits after ⟨quiet.nand.trans untouched.nand, quiet.received.trans untouched.received⟩
  cases ok with
  | false =>
      exact (remove_ensures (Quiet.refl copied) tmp).bind fun _ after quiet =>
        die_ensures quiet copiedExits _
  | true =>
  rcases written rfl with ⟨bytes, isCopy⟩
  refine (sync_ensures (Quiet.refl copied)).bind fun ok after ⟨quietCopied, same⟩ => ?_
  cases same
  cases ok with
  | false => exact copiedExits _ quietCopied
  | true =>
  refine (shaFile_ensures (.kept _)).bind fun found after ⟨same, isFound⟩ => ?_
  cases same
  have held : copied.storage.lookup ⟨.backups, backupName sum⟩ = some bytes := by
    rw [isCopy]
    exact AList.lookup_insert _
  rcases isFound bytes held with ⟨isFound, bytesHashed⟩
  dsimp only
  split_ifs with differs
  · exact (remove_ensures quietCopied tmp).bind fun _ after quiet =>
      die_ensures quiet copiedExits _
  have sameSum : host.shaText bytes = host.shaText start.nand := by
    rw [← isFound, ← isSum]
    exact Decidable.of_not_not differs
  have sameBytes : bytes = start.nand := equalSha bytesHashed nandHashed sameSum
  refine (remove_ensures quietCopied tmp).bind fun _ after quietCopied => ?_
  refine (validateImage_ensures quietCopied copiedExits python _).bind fun _ after quietCopied => ?_
  refine (setCurrent_ensures _).bind fun _ settled same => ?_
  have saved : Saved start ⟨.backups, backupName sum⟩ settled := by
    rw [same]
    exact {
      untouched := ⟨quietCopied.nand.trans untouched.nand,
        quietCopied.received.trans untouched.received⟩
      current := rfl
      inBackups := rfl
      copy := by
        dsimp only
        rw [quietCopied.storage, held, sameBytes]
      others := by
        intro path other
        dsimp only
        rw [quietCopied.storage, isCopy, AList.lookup_insert_ne other, quiet.storage] }
  refine (log_ensures (Quiet.refl settled) _).bind fun _ after quiet => ?_
  have saved := saved.quiet quiet
  refine ⟨saved, nandHashed, ?_, ?_, ?_⟩
  · rw [← isDest]
    exact saved.current
  · rw [← isDest]
    exact saved.copy
  · rw [← isDest]
    exact saved.others

/-! ### Writing -/

/-- The copy is there, and stays so while only the NAND changes. -/
theorem Settled.programmed {after : World} (settled : Settled host hashed start world)
    (programmed : Programmed world after) : Settled host hashed start after where
  isHashed := settled.isHashed
  current := programmed.current.trans settled.current
  copy := by
    rw [programmed.storage]
    exact settled.copy
  others := by
    rw [programmed.storage]
    exact settled.others

theorem Settled.quiet {after : World} (settled : Settled host hashed start world)
    (quiet : Quiet world after) : Settled host hashed start after :=
  settled.programmed ⟨quiet.storage, quiet.current⟩

theorem Settled.holdsCopy (settled : Settled host hashed start world) :
    HoldsCopy start.nand world :=
  ⟨_, settled.current, settled.copy⟩

/-- The discipline lets the NAND be erased, and written with one image. -/
def Discipline.Writes (discipline : Discipline) (start : World) (img : Path) : Prop :=
  ∀ after, Programmed start after →
    discipline.guard .flashErase after ∧ discipline.guard (.nandWrite img) after

theorem Discipline.Permits.writes {installs : Path → Prop} {image : Path}
    (permits : discipline.Permits host hashed start installs)
    (settled : Settled host hashed start world)
    (allowed : image = savedPath host start.nand ∨ installs image) :
    discipline.Writes world image :=
  fun after programmed => ⟨permits.erase after (settled.programmed programmed),
    permits.write image after (settled.programmed programmed) allowed⟩

theorem flashErase_ensures (guarded : discipline.guard .flashErase world)
    (programmed : Programmed start world) :
    Program.flashErase.Ensures (machine host) (discipline.contract hashed exit)
      (fun _ after => Programmed start after) world :=
  ensures_call guarded fun _ _ => ⟨programmed.storage, programmed.current⟩

theorem nandWrite_ensures {image : Path} (guarded : discipline.guard (.nandWrite image) world)
    (programmed : Programmed start world) :
    (Program.nandWrite image).Ensures (machine host) (discipline.contract hashed exit)
      (fun _ after => Programmed start after) world :=
  ensures_call guarded fun _ _ => ⟨programmed.storage, programmed.current⟩

/-- A matching read-back means that the NAND holds the wanted bytes. -/
theorem readBackMatches_ensures (quiet : Quiet start world)
    (equalSha : Set.InjOn host.shaText hashed) {bytes : Bytes} (isHashed : bytes ∈ hashed)
    (dev : String) :
    (Program.readBackMatches host dev (host.shaText bytes)).Ensures (machine host)
      (discipline.contract hashed exit)
      (fun ok after => Quiet start after ∧ (ok = true → start.nand = bytes)) world := by
  refine (mktemp_ensures quiet).bind fun tmp after quiet => ?_
  rcases tmp with _ | tmp
  · exact (log_ensures quiet _).bind fun _ _ quiet => ⟨quiet, nofun⟩
  refine (readLive_ensures quiet dev tmp).bind fun ok after ⟨quiet, held⟩ => ?_
  cases ok with
  | false => exact ⟨quiet, nofun⟩
  | true =>
  refine (shaFile_ensures (.temp tmp)).bind fun got again ⟨same, isGot⟩ => ?_
  cases same
  rcases isGot start.nand (held rfl) with ⟨isGot, nandHashed⟩
  refine (remove_ensures quiet tmp).bind fun _ after quiet => ⟨quiet, fun isEqual => ?_⟩
  have sameSum : host.shaText start.nand = host.shaText bytes := by
    rw [← isGot]
    exact beq_iff_eq.mp isEqual
  exact equalSha nandHashed isHashed sameSum

/-- One turn keeps the copy; a turn that ends the loop has verified the image. -/
theorem writeLoop_ensures {img : Path} (writes : discipline.Writes start img)
    (equalSha : Set.InjOn host.shaText hashed) {bytes : Bytes} (isHashed : bytes ∈ hashed)
    (dev : String) (left : Nat) (programmed : Programmed start world) :
    (Program.writeLoop host dev (host.shaText bytes) img left).Ensures (machine host)
      (discipline.contract hashed exit)
      (fun ok after => Programmed start after ∧ (ok = true → after.nand = bytes)) world := by
  induction left generalizing world with
  | zero => exact ⟨programmed, nofun⟩
  | succ left induction =>
      refine (log_ensures (Quiet.refl world) _).bind fun _ after quiet => ?_
      have programmed := quiet.programmed programmed
      refine (flashErase_ensures (writes after programmed).1 programmed).bind
        fun erased after programmed => ?_
      cases erased with
      | false =>
          exact (log_ensures (Quiet.refl after) _).bind fun _ again quiet =>
            induction (quiet.programmed programmed)
      | true =>
      refine (nandWrite_ensures (writes after programmed).2 programmed).bind
        fun written after programmed => ?_
      cases written with
      | false =>
          exact (log_ensures (Quiet.refl after) _).bind fun _ again quiet =>
            induction (quiet.programmed programmed)
      | true =>
      refine (readBackMatches_ensures (Quiet.refl after) equalSha isHashed dev).bind
        fun ok again ⟨quiet, verified⟩ => ?_
      cases ok with
      | true => exact ⟨quiet.programmed programmed, fun _ => quiet.nand.trans (verified rfl)⟩
      | false =>
          exact (log_ensures (Quiet.refl again) _).bind fun _ last quietAgain =>
            induction (quietAgain.programmed (quiet.programmed programmed))

theorem writeAndVerify_ensures {img : Path} (writes : discipline.Writes start img)
    (programmed : Programmed start world) (equalSha : Set.InjOn host.shaText hashed)
    (python : board.tools.contains "python3" = true) (dev : String) :
    (Program.writeAndVerify host board dev img).Ensures (machine host)
      (discipline.contract hashed exit)
      (fun ok after => Programmed start after ∧
        (ok = true → start.storage.lookup img = some after.nand)) world := by
  refine (imageOk_ensures (Quiet.refl world) python (.kept img)).bind
    fun ok after ⟨quiet, found⟩ => ?_
  have programmed' := quiet.programmed programmed
  cases ok with
  | false => exact ⟨programmed', nofun⟩
  | true =>
  rcases found rfl with ⟨bytes, found⟩
  refine (shaFile_ensures (.kept img)).bind fun expect again ⟨same, isExpect⟩ => ?_
  cases same
  have foundNow : after.read (.kept img) = some bytes := by
    rw [World.read, quiet.storage]
    exact found
  rcases isExpect bytes foundNow with ⟨isExpect, isHashed⟩
  rw [isExpect]
  refine (writeLoop_ensures writes equalSha isHashed dev _ programmed').mono
    fun ok last ⟨programmed, verified⟩ => ⟨programmed, fun isOk => ?_⟩
  rw [verified isOk, ← programmed'.storage]
  exact foundNow

theorem rollbackCurrent_ensures {current : Path} (writes : discipline.Writes start current)
    (programmed : Programmed start world) (equalSha : Set.InjOn host.shaText hashed)
    (python : board.tools.contains "python3" = true) (dev : String) :
    (Program.rollbackCurrent host board dev current).Ensures (machine host)
      (discipline.contract hashed exit)
      (fun ok after => Programmed start after ∧
        (ok = true → start.storage.lookup current = some after.nand)) world :=
  (log_ensures (Quiet.refl world) _).bind fun _ _ quiet =>
    writeAndVerify_ensures writes (quiet.programmed programmed) equalSha python dev

/-! ### The write with its fallback -/

/-- The NAND's own way out: the status is not 0; 3 means that the NAND holds the
prior image; any other one without a critical report means that it saw no command. -/
structure ExitOk (nand : Bytes) (status : Nat) (world : World) : Prop where
  failed : status ≠ 0
  rolledBack : status = 3 → world.nand = nand
  untouched : status ≠ 3 →
    (∃ what, "zlyme-preloader: " ++ Program.criticalLine what ∈ world.stderr) ∨
      world.received = [] ∧ world.nand = nand

theorem log_prints (message : String) :
    (Program.log message).Ensures (machine host) (discipline.contract hashed exit)
      (fun _ after => "zlyme-preloader: " ++ message ∈ after.stderr) world :=
  ensures_free not_false fun _ _ => List.mem_append_right _ List.mem_cons_self

theorem log_keeps {line : String} (printed : line ∈ world.stderr) (message : String) :
    (Program.log message).Ensures (machine host) (discipline.contract hashed exit)
      (fun _ after => line ∈ after.stderr) world :=
  ensures_free not_false fun _ _ => List.mem_append_left _ printed

theorem criticalFailure_ensures (what : String) (current : Path) {post : Unit → World → Prop} :
    (Program.criticalFailure what current).Ensures (machine host)
      (discipline.contract hashed (ExitOk nand)) post world := by
  refine (log_prints _).bind fun _ after printed => ?_
  refine (log_keeps printed _).bind fun _ after printed => ?_
  refine (log_keeps printed _).bind fun _ after printed => ?_
  refine (shaFile_ensures _).bind fun sum again ⟨same, _⟩ => ?_
  cases same
  refine (log_keeps printed _).bind fun _ after printed => ?_
  refine (log_keeps printed _).bind fun _ after printed => ?_
  exact ⟨nofun, nofun, fun _ => .inl ⟨what, printed⟩⟩

/-- The rule of a loop whose turns stay quiet. -/
theorem forEach_ensures {each : String → Program Unit}
    (turn : ∀ name {before : World}, Quiet start before →
      (each name).Ensures (machine host) (discipline.contract hashed exit)
        (fun _ after => Quiet start after) before)
    (names : List String) (quiet : Quiet start world) :
    (names.forM each : Program Unit).Ensures (machine host) (discipline.contract hashed exit)
      (fun _ after => Quiet start after) world := by
  induction names generalizing world with
  | nil => exact quiet
  | cons name rest induction => exact (turn name quiet).bind fun _ after quiet => induction quiet

theorem logAll_ensures {post : World → Prop} (messages : List String)
    (kept : ∀ after, Quiet world after → post after) :
    (messages.forM Program.log : Program Unit).Ensures (machine host)
      (discipline.contract hashed exit) (fun _ after => post after) world :=
  (forEach_ensures (fun message _ quiet => log_ensures quiet message) messages
    (Quiet.refl world)).mono fun _ after quiet => kept after quiet

/-- What the commands do once the NAND does not hold what they wanted. -/
theorem fallback_ensures {current : Path} {settled : World} {post : Unit → World → Prop}
    (saved : Saved start current settled) (returns : discipline.Writes settled current)
    (programmed : Programmed settled world) (equalSha : Set.InjOn host.shaText hashed)
    (python : board.tools.contains "python3" = true) (dev failed what rolledBack : String) :
    (do
      Program.log failed
      if ← Program.rollbackCurrent host board dev current then
        Program.log rolledBack
        .exit 3
      else Program.criticalFailure what current : Program Unit).Ensures (machine host)
        (discipline.contract hashed (ExitOk start.nand)) post world := by
  refine (log_ensures (Quiet.refl world) _).bind fun _ after quiet => ?_
  have programmed := quiet.programmed programmed
  refine (rollbackCurrent_ensures returns programmed equalSha python dev).bind
    fun ok last ⟨_, restored⟩ => ?_
  cases ok with
  | false => exact criticalFailure_ensures what current
  | true =>
      refine (log_ensures (Quiet.refl last) _).bind fun _ exited quiet => ?_
      have nandBack : exited.nand = start.nand := by
        rw [quiet.nand]
        exact Option.some.inj ((restored rfl).symm.trans saved.copy)
      exact ⟨nofun, fun _ => nandBack, fun other => absurd rfl other⟩

theorem install_ensures {current target : Path} (saved : Saved start current world)
    (writes : discipline.Writes world target) (returns : discipline.Writes world current)
    (equalSha : Set.InjOn host.shaText hashed)
    (python : board.tools.contains "python3" = true) (dev what : String)
    (installed : List String) (rolledBack : String) :
    (Program.install host board dev target current what installed rolledBack).Ensures
      (machine host) (discipline.contract hashed (ExitOk start.nand))
      (fun _ after => world.storage.lookup target = some after.nand) world := by
  refine (writeAndVerify_ensures writes ⟨rfl, rfl⟩ equalSha python dev).bind
    fun ok after ⟨programmed, verified⟩ => ?_
  cases ok with
  | true =>
      refine logAll_ensures installed fun last quiet => ?_
      rw [quiet.nand]
      exact verified rfl
  | false => exact fallback_ensures saved returns programmed equalSha python dev _ what rolledBack

/-! ## Before the copy is saved -/

theorem gate_ensures {α : Type} (quiet : Quiet start world) (checked : Except String α) :
    (Program.gate checked).Ensures (machine host) (discipline.contract hashed exit)
      (fun value after => Quiet start after ∧ checked.toOption = value) world := by
  cases checked with
  | ok value => exact ⟨quiet, rfl⟩
  | error message => exact (log_ensures quiet message).bind fun _ _ quiet => ⟨quiet, rfl⟩

theorem require_eq_ok {condition : Bool} {message : String} {value : Unit}
    (passed : (require condition message).toOption = some value) : condition = true := by
  cases condition with
  | true => rfl
  | false => cases passed

/-- A command that passes its gates finds Python. -/
theorem prepareRead_ensures (quiet : Quiet start world) :
    (Program.prepareRead host board).Ensures (machine host) (discipline.contract hashed exit)
      (fun dev after => Quiet start after ∧
        (dev.isSome = true → board.tools.contains "python3" = true)) world := by
  refine (gate_ensures quiet _).bind fun passed after ⟨quiet, _⟩ => ?_
  rcases passed with _ | _
  · exact ⟨quiet, nofun⟩
  refine (gate_ensures quiet _).bind fun dev after ⟨quiet, _⟩ => ?_
  rcases dev with _ | dev
  · exact ⟨quiet, nofun⟩
  refine (gate_ensures quiet _).bind fun line after ⟨quiet, _⟩ => ?_
  rcases line with _ | line
  · exact ⟨quiet, nofun⟩
  refine (log_ensures quiet line).bind fun _ after quiet => ?_
  refine (gate_ensures quiet _).bind fun passed after ⟨quiet, _⟩ => ?_
  rcases passed with _ | _
  · exact ⟨quiet, nofun⟩
  refine (gate_ensures quiet _).bind fun passed after ⟨quiet, _⟩ => ?_
  rcases passed with _ | _
  · exact ⟨quiet, nofun⟩
  refine (gate_ensures quiet _).bind fun passed after ⟨quiet, python⟩ => ?_
  rcases passed with _ | _
  · exact ⟨quiet, nofun⟩
  · exact ⟨quiet, fun _ => require_eq_ok python⟩

section Unsaved

variable (exits : ∀ after, Quiet start after → exit 1 after)

include exits

theorem needTool_ensures_or_exit (quiet : Quiet start world) (tool : String) :
    (Program.needTool board tool).Ensures (machine host) (discipline.contract hashed exit)
      (fun _ after => Quiet start after) world := by
  rw [Program.needTool]
  split_ifs
  · exact quiet
  · exact die_ensures quiet exits _

theorem prepareWrite_ensures (quiet : Quiet start world) :
    (Program.prepareWrite host board).Ensures (machine host) (discipline.contract hashed exit)
      (fun _ after => Quiet start after ∧ board.tools.contains "python3" = true) world := by
  refine (prepareRead_ensures quiet).bind fun dev after ⟨quiet, python⟩ => ?_
  rcases dev with _ | dev
  · exact exits after quiet
  refine Ensures.bind ?_ fun _ after quiet => ⟨quiet, python rfl⟩
  refine (needTool_ensures_or_exit exits quiet _).bind fun _ after quiet => ?_
  refine (needTool_ensures_or_exit exits quiet _).bind fun _ after quiet => ?_
  refine (needTool_ensures_or_exit exits quiet _).bind fun _ after quiet => ?_
  refine (needTool_ensures_or_exit exits quiet _).bind fun _ after quiet => ?_
  exact needTool_ensures_or_exit exits quiet _

theorem requireBootReadonly_ensures (quiet : Quiet start world) :
    (Program.requireBootReadonly board).Ensures (machine host) (discipline.contract hashed exit)
      (fun _ after => Quiet start after) world := by
  rw [Program.requireBootReadonly]
  split
  · exact die_ensures quiet exits _
  · split
    · exact die_ensures quiet exits _
    · exact die_ensures quiet exits _
    · split_ifs
      · exact die_ensures quiet exits _
      · exact quiet
      · exact die_ensures quiet exits _

theorem ddrCompatible_ensures (quiet : Quiet start world) (left right : Path) :
    (Program.ddrCompatible host left right).Ensures (machine host)
      (discipline.contract hashed exit) (fun _ after => Quiet start after) world := by
  refine (storage_ensures quiet).bind fun storage after ⟨quiet, _⟩ => ?_
  dsimp only
  split
  · exact quiet
  · exact (refused_ensures quiet _).bind fun _ after quiet => die_ensures quiet exits _

end Unsaved

/-! ### The image to restore -/

theorem structureRefused_ne (path : String) :
    "image structure refused: " ++ path ≠ Program.noOriginal := by
  intro same
  have first := congrArg (fun text : String => text.toList.head?) same
  simp [Program.noOriginal, String.toList_append] at first

theorem findOriginal_ensures (quiet : Quiet start world)
    (python : board.tools.contains "python3" = true) :
    (Program.findOriginal host board).Ensures (machine host) (discipline.contract hashed exit)
      (fun found after => Quiet start after ∧ match found with
        | .ok path => ∃ want, Program.originals start.storage = [(path, want)]
        | .error message => message = Program.noOriginal →
            Program.originals start.storage = []) world := by
  rw [Program.findOriginal]
  split_ifs
  · exact ⟨quiet, fun same => absurd same (by decide)⟩
  refine (storage_ensures quiet).bind fun storage after ⟨quiet, same⟩ => ?_
  cases same
  split
  · rename_i none
    exact ⟨quiet, fun _ => none⟩
  · rename_i path want one
    split_ifs
    · exact ⟨quiet, fun same => absurd same (by decide)⟩
    refine (shaFile_ensures (.kept path)).bind fun sum again ⟨same, _⟩ => ?_
    cases same
    split_ifs
    · exact ⟨quiet, fun same => absurd same (by decide)⟩
    refine (imageOk_ensures quiet python _).bind fun ok after ⟨quiet, _⟩ => ?_
    cases ok with
    | true => exact ⟨quiet, want, one⟩
    | false => exact ⟨quiet, fun same => absurd same (structureRefused_ne path.path)⟩
  · exact ⟨quiet, fun same => absurd same (by decide)⟩

section Unsaved

variable (exits : ∀ after, Quiet start after → exit 1 after)

include exits

theorem selectStockFallback_ensures (quiet : Quiet start world)
    (python : board.tools.contains "python3" = true) (dev : String) :
    (Program.selectStockFallback host board dev).Ensures (machine host)
      (discipline.contract hashed exit)
      (fun path after => Quiet start after ∧ path = Program.stockPath) world := by
  refine (mktemp_ensures quiet).bind fun tmp after quiet => ?_
  rcases tmp with _ | tmp
  · exact exits after quiet
  refine (readLive_ensures quiet dev tmp).bind fun ok after ⟨quiet, _⟩ => ?_
  cases ok with
  | false => exact exits after quiet
  | true =>
  refine (shaFile_ensures (.temp tmp)).bind fun live again ⟨same, _⟩ => ?_
  cases same
  refine (remove_ensures quiet tmp).bind fun _ after quiet => ?_
  split_ifs
  · exact die_ensures quiet exits _
  refine (read_ensures quiet _).bind fun stock after ⟨quiet, _, _⟩ => ?_
  split_ifs
  · exact die_ensures quiet exits _
  refine (shaFile_ensures _).bind fun sum again ⟨same, _⟩ => ?_
  cases same
  split_ifs
  · exact die_ensures quiet exits _
  refine (validateImage_ensures quiet exits python _).bind fun _ after quiet => ?_
  exact (log_ensures quiet _).bind fun _ after quiet => ⟨quiet, rfl⟩

/-- The restored image is the command's target, which is no saved copy. -/
theorem selectRestoreImage_ensures (quiet : Quiet start world)
    (python : board.tools.contains "python3" = true) (dev : String) :
    (Program.selectRestoreImage host board dev).Ensures (machine host)
      (discipline.contract hashed exit)
      (fun path after => Quiet start after ∧
        Command.restore.target host start.storage = some path) world := by
  refine (findOriginal_ensures quiet python).bind fun found after ⟨quiet, isFound⟩ => ?_
  rcases found with message | path
  · dsimp only
    split_ifs with other
    · exact die_ensures quiet exits _
    · have none := isFound (Decidable.of_not_not other)
      refine (selectStockFallback_ensures exits quiet python dev).mono
        fun path after ⟨quiet, isStock⟩ => ⟨quiet, ?_⟩
      rw [Command.target, none, isStock]
  · rcases isFound with ⟨want, one⟩
    refine ⟨quiet, ?_⟩
    rw [Command.target, one]

end Unsaved

theorem restoreSubshell_ensures (quiet : Quiet start world)
    (python : board.tools.contains "python3" = true) (dev : String) :
    (Program.selectRestoreImage host board dev).subshell.Ensures (machine host)
      (discipline.contract hashed exit)
      (fun selected after => Quiet start after ∧ match selected with
        | .ok path => Command.restore.target host start.storage = some path
        | .error status => status = 1) world := by
  have inner : (Program.selectRestoreImage host board dev).Ensures (machine host)
      (discipline.contract hashed fun status after => Quiet start after ∧ status = 1)
      (fun path after => Quiet start after ∧
        Command.restore.target host start.storage = some path) world :=
    selectRestoreImage_ensures (fun _ quiet => ⟨quiet, rfl⟩) quiet python dev
  exact ensures_subshell.mpr inner

theorem restoreTarget_dir {path : Path}
    (isTarget : Command.restore.target host start.storage = some path) :
    path.dir ≠ .backups := by
  rw [Command.target] at isTarget
  split at isTarget
  · cases isTarget
    decide
  · rename_i found want one
    cases isTarget
    have member : (path, want) ∈ Program.originals start.storage := by
      rw [one]
      exact List.mem_cons_self
    rcases List.mem_filterMap.mp member with ⟨other, _, isOriginal⟩
    split_ifs at isOriginal with inBoot
    rcases Option.map_eq_some_iff.mp isOriginal with ⟨_, _, same⟩
    cases same
    rw [inBoot]
    decide
  · cases isTarget

/-! ## The image to install -/

theorem nandDiscipline_permits {installs : Path → Prop} :
    (nandDiscipline start.nand).Permits host hashed start installs where
  save _ _ _ _ := False.elim
  erase _ settled _ := settled.holdsCopy
  write _ _ settled _ _ := settled.holdsCopy

theorem boundSource_target {live : Bytes} {origin : Path}
    (bound : host.boundSource start.storage live = .ok origin) :
    Command.disarmRecovery.target host start.storage = some origin := by
  rcases bind_eq_ok.mp bound with ⟨doc, isDoc, bound⟩
  rcases bind_eq_ok.mp bound with ⟨_, _, bound⟩
  rcases bind_eq_ok.mp bound with ⟨_, _, bound⟩
  rcases bind_eq_ok.mp bound with ⟨source, _, bound⟩
  rcases bind_eq_ok.mp bound with ⟨_, _, bound⟩
  rcases bind_eq_ok.mp bound with ⟨_, _, bound⟩
  split at bound
  · cases bound
  · cases bound
  · rcases bind_eq_ok.mp bound with ⟨_, _, same⟩
    cases same
    rw [Command.target, isDoc]
    rfl

theorem armBind_target {live : Bytes} {target : Path} {want : String}
    (bound : host.armBind start.storage live = .ok (target, want)) :
    Command.armRecovery.target host start.storage = some target ∧ target.dir = .recovery := by
  rcases armBind_eq_ok bound with ⟨doc, recovery, facts⟩
  rw [Command.target, facts.accepted, facts.target]
  exact ⟨rfl, rfl⟩

/-- The images that a command may write: what `arm_bind` gives for the NAND's first
contents, and the target of the other two. -/
def Command.Installs (command : Command) (host : Host) (start : World) (image : Path) : Prop :=
  command.target host start.storage = some image ∧
    (command = .armRecovery → ∃ want, host.armBind start.storage start.nand = .ok (image, want))

/-! ## The commands -/

section Commands

variable (equalSha : Set.InjOn host.shaText hashed)

include equalSha

/-- The end of every command: the copy is saved, and then the target is written. -/
theorem install_target {command : Command} {current target : Path} {after : World}
    (permits : discipline.Permits host hashed start (command.Installs host start))
    (saved : Saved start current after) (settled : Settled host hashed start after)
    (python : board.tools.contains "python3" = true)
    (installs : command.Installs host start target) (other : target ≠ current)
    (dev what : String) (installed : List String) (rolledBack : String) :
    (Program.install host board dev target current what installed rolledBack).Ensures
      (machine host) (discipline.contract hashed (ExitOk start.nand))
      (fun _ after => ∃ path, command.target host start.storage = some path ∧
        start.storage.lookup path = some after.nand) after := by
  have isCurrent : current = savedPath host start.nand :=
    Option.some.inj (saved.current.symm.trans settled.current)
  refine (install_ensures saved (permits.writes settled (.inr installs))
    (permits.writes settled (.inl isCurrent)) equalSha python dev what installed rolledBack).mono
    fun _ last written => ⟨target, installs.1, ?_⟩
  rw [← saved.others target other]
  exact written

variable (fresh : start.received = [])

include fresh

omit equalSha in
theorem untouched_exit {after : World} (untouched : Untouched start after) :
    ExitOk start.nand 1 after :=
  ⟨nofun, nofun, fun _ => .inr ⟨untouched.received.trans fresh, untouched.nand⟩⟩

theorem cmdRestore_ensures
    (permits : discipline.Permits host hashed start (Command.restore.Installs host start))
    (quiet : Quiet start world) :
    (Program.cmdRestore host board).Ensures (machine host)
      (discipline.contract hashed (ExitOk start.nand))
      (fun _ after => ∃ path, Command.restore.target host start.storage = some path ∧
        start.storage.lookup path = some after.nand) world := by
  have exits : ∀ after, Untouched start after → ExitOk start.nand 1 after :=
    fun _ untouched => untouched_exit fresh untouched
  have quietExits : ∀ after, Quiet start after → ExitOk start.nand 1 after :=
    fun _ quiet => exits _ quiet.untouched
  refine (prepareWrite_ensures quietExits quiet).bind fun dev after ⟨quiet, python⟩ => ?_
  refine (restoreSubshell_ensures quiet python dev).bind fun selected after ⟨quiet, isSelected⟩ => ?_
  rcases selected with status | orig
  · cases isSelected
    exact quietExits after quiet
  refine (saveCurrent_ensures quiet permits exits python equalSha dev).bind
    fun current after ⟨saved, settled⟩ => ?_
  have savedExits : ∀ last, Quiet after last → ExitOk start.nand 1 last :=
    fun _ quiet => exits _ (saved.quiet quiet).untouched
  refine (ddrCompatible_ensures savedExits (Quiet.refl after) _ _).bind fun _ last quiet => ?_
  refine install_target equalSha permits (saved.quiet quiet) (settled.quiet quiet) python
    ⟨isSelected, nofun⟩ ?_ dev _ _ _
  intro same
  exact restoreTarget_dir isSelected (same ▸ saved.inBackups)

theorem cmdDisarmRecovery_ensures
    (permits : discipline.Permits host hashed start (Command.disarmRecovery.Installs host start))
    (quiet : Quiet start world) :
    (Program.cmdDisarmRecovery host board).Ensures (machine host)
      (discipline.contract hashed (ExitOk start.nand))
      (fun _ after => ∃ path, Command.disarmRecovery.target host start.storage = some path ∧
        start.storage.lookup path = some after.nand) world := by
  have exits : ∀ after, Untouched start after → ExitOk start.nand 1 after :=
    fun _ untouched => untouched_exit fresh untouched
  have quietExits : ∀ after, Quiet start after → ExitOk start.nand 1 after :=
    fun _ quiet => exits _ quiet.untouched
  refine (prepareWrite_ensures quietExits quiet).bind fun dev after ⟨quiet, python⟩ => ?_
  refine (mktemp_ensures quiet).bind fun live after quiet => ?_
  rcases live with _ | live
  · exact quietExits after quiet
  refine (readLive_ensures quiet dev live).bind fun ok after ⟨quiet, _⟩ => ?_
  cases ok with
  | false => exact quietExits after quiet
  | true =>
  refine (validateImage_ensures quiet quietExits python _).bind fun _ after quiet => ?_
  refine (storage_ensures quiet).bind fun storage after ⟨quiet, same⟩ => ?_
  cases same
  split_ifs
  · exact (remove_ensures quiet live).bind fun _ after quiet => die_ensures quiet quietExits _
  refine (read_ensures quiet _).bind fun bytes after ⟨quiet, _, _⟩ => ?_
  split
  · rename_i error _
    exact (refused_ensures quiet error).bind fun _ after quiet =>
      (remove_ensures quiet live).bind fun _ after quiet => die_ensures quiet quietExits _
  rename_i origin bound
  refine (remove_ensures quiet live).bind fun _ after quiet => ?_
  refine (read_ensures quiet _).bind fun source after ⟨quiet, _, _⟩ => ?_
  split_ifs
  · exact die_ensures quiet quietExits _
  refine (saveCurrent_ensures quiet permits exits python equalSha dev).bind
    fun current after ⟨saved, settled⟩ => ?_
  have savedExits : ∀ last, Quiet after last → ExitOk start.nand 1 last :=
    fun _ quiet => exits _ (saved.quiet quiet).untouched
  split_ifs with differs
  · exact die_ensures (Quiet.refl after) savedExits _
  refine (ddrCompatible_ensures savedExits (Quiet.refl after) _ _).bind fun _ last quiet => ?_
  exact install_target equalSha permits (saved.quiet quiet) (settled.quiet quiet) python
    ⟨boundSource_target bound, nofun⟩ (Ne.symm differs) dev _ _ _

theorem cmdArmRecovery_ensures
    (permits : discipline.Permits host hashed start (Command.armRecovery.Installs host start))
    (quiet : Quiet start world) :
    (Program.cmdArmRecovery host board).Ensures (machine host)
      (discipline.contract hashed (ExitOk start.nand))
      (fun _ after => ∃ path, Command.armRecovery.target host start.storage = some path ∧
        start.storage.lookup path = some after.nand) world := by
  have exits : ∀ after, Untouched start after → ExitOk start.nand 1 after :=
    fun _ untouched => untouched_exit fresh untouched
  have quietExits : ∀ after, Quiet start after → ExitOk start.nand 1 after :=
    fun _ quiet => exits _ quiet.untouched
  refine (prepareWrite_ensures quietExits quiet).bind fun dev after ⟨quiet, python⟩ => ?_
  refine (requireBootReadonly_ensures quietExits quiet).bind fun _ after quiet => ?_
  refine (mktemp_ensures quiet).bind fun live after quiet => ?_
  rcases live with _ | live
  · exact quietExits after quiet
  refine (readLive_ensures quiet dev live).bind fun ok after ⟨quiet, _⟩ => ?_
  cases ok with
  | false => exact quietExits after quiet
  | true =>
  refine (validateImage_ensures quiet quietExits python _).bind fun _ after quiet => ?_
  refine (storage_ensures quiet).bind fun storage after ⟨quiet, same⟩ => ?_
  cases same
  split_ifs
  · exact (remove_ensures quiet live).bind fun _ after quiet => die_ensures quiet quietExits _
  refine (read_ensures quiet _).bind fun bytes after ⟨quiet, _, _⟩ => ?_
  split
  · rename_i error _
    exact (refused_ensures quiet error).bind fun _ after quiet =>
      (remove_ensures quiet live).bind fun _ after quiet => die_ensures quiet quietExits _
  rename_i target want bound
  refine (remove_ensures quiet live).bind fun _ after quiet => ?_
  refine (read_ensures quiet _).bind fun prepared after ⟨quiet, _, _⟩ => ?_
  split_ifs
  · exact die_ensures quiet quietExits _
  refine (saveCurrent_ensures quiet permits exits python equalSha dev).bind
    fun current after ⟨saved, settled⟩ => ?_
  have savedExits : ∀ last, Quiet after last → ExitOk start.nand 1 last :=
    fun _ quiet => exits _ (saved.quiet quiet).untouched
  refine (shaFile_ensures _).bind fun sum again ⟨same, _⟩ => ?_
  cases same
  refine (read_ensures (Quiet.refl _) _).bind fun held last ⟨quiet, isHeld, _⟩ => ?_
  refine (read_ensures quiet _).bind fun published last ⟨quiet', isPublished, same⟩ => ?_
  cases same
  split_ifs with refused
  · exact die_ensures quiet savedExits _
  have isTarget := armBind_target bound
  have installs : Command.armRecovery.Installs host start target := by
    refine ⟨isTarget.1, fun _ => ⟨want, ?_⟩⟩
    rcases armBind_eq_ok bound with ⟨doc, recovery, facts⟩
    have settled := settled.quiet quiet
    have current_eq : current = savedPath host start.nand :=
      Option.some.inj ((saved.quiet quiet).current.symm.trans settled.current)
    have isHeld : held = some start.nand := by
      rw [isHeld, current_eq]
      exact settled.copy
    have inBoot : (⟨.boot, backupName want⟩ : Path) ≠ savedPath host start.nand :=
      fun same => nomatch congrArg Path.dir same
    have isFat := (settled.others _ inBoot).trans facts.fat
    have same : held = published :=
      Decidable.of_not_not fun differs => refused (.inr (.inl differs))
    rw [isHeld, isPublished] at same
    rw [Option.some.inj (same.trans isFat)]
    exact bound
  refine install_target equalSha permits (saved.quiet quiet) (settled.quiet quiet) python
    installs ?_ dev _ _ _
  intro same
  have inRecovery := isTarget.2
  rw [same, saved.inBackups] at inRecovery
  exact absurd inRecovery (by decide)

theorem command_ensures {command : Command}
    (permits : discipline.Permits host hashed start (command.Installs host start))
    (quiet : Quiet start world) :
    (command.program host board).Ensures (machine host)
      (discipline.contract hashed (ExitOk start.nand))
      (fun _ after => ∃ path, command.target host start.storage = some path ∧
        start.storage.lookup path = some after.nand) world := by
  cases command with
  | restore => exact cmdRestore_ensures equalSha fresh permits quiet
  | armRecovery => exact cmdArmRecovery_ensures equalSha fresh permits quiet
  | disarmRecovery => exact cmdDisarmRecovery_ensures equalSha fresh permits quiet

end Commands

end Steps

/-! ## Runs -/

/-- The byte strings that a run hashes with `sha256sum`. -/
def hashedIn (issued : List (Call × World)) : Set Bytes :=
  { bytes | ∃ entry ∈ issued, ∃ file, entry.1 = .sha256sum file ∧
    entry.2.read file = some bytes }

/-- How a command may end: with status 0 the NAND holds the target, with status 3 the
prior image, and with any other status it has reported a critical failure or has left
the NAND alone. -/
def NandSettled (host : Host) (command : Command) (start : World) :
    Outcome Unit × World → Prop
  | (.done _, after) => ∃ path, command.target host start.storage = some path ∧
      start.storage.lookup path = some after.nand
  | (.exited status, after) => ExitOk start.nand status after
  | (.stopped, _) => True

/-- Every run of every command, however its operations end. -/
theorem nand_transaction (host : Host) (board : Board) (command : Command) (nand : Bytes)
    (storage : Storage) (temp : AList fun _ : String => Bytes) (choices : List Choice)
    (equalSha : Set.InjOn host.shaText (hashedIn ((command.program host board).issued
      (machine host) choices (startWorld nand storage temp)))) :
    (∀ entry ∈ (command.program host board).issued (machine host) choices
        (startWorld nand storage temp),
      entry.1.changesNand → HoldsCopy nand entry.2) ∧
    NandSettled host command (startWorld nand storage temp)
      ((command.program host board).exec (machine host) choices
        (startWorld nand storage temp)) := by
  have ensures : (command.program host board).Ensures (machine host)
      (nandContract nand _ (ExitOk nand)) _ _ :=
    command_ensures equalSha rfl nandDiscipline_permits (Quiet.refl (startWorld nand storage temp))
  have run := ensures.exec choices fun entry member file bytes isSum found =>
    ⟨entry, member, file, isSum, found⟩
  refine ⟨run.1, ?_⟩
  have settled := run.2
  generalize (command.program host board).exec (machine host) choices
    (startWorld nand storage temp) = last at settled ⊢
  rcases last with ⟨_ | _ | _, after⟩ <;> exact settled

/-! ### A small restore -/

/-- Two copies that share their payloads, with the tree where `sampleLayout` has it. -/
def smallLayout : Layout where
  size := 2048
  firstCopy := 0
  secondCopy := 512
  dtbOff := 512
  bootCall := 0x40
  copies_apart := by decide
  copies_inside := by decide
  table_before_tree := sampleLayout.table_before_tree
  call_before_tree := sampleLayout.call_before_tree

/-- SHA-256 at the payloads and the images of the sample, which are told apart by
their lengths and their last bytes. -/
def smallSha : Sha256 where
  digest bytes :=
    match bytes.length, bytes.getLast? with
    | 512, some 0x11 =>
        bytes32 0x981b8ac0e448c2a01df760648f17ba027d1ed0a9ada17aa4cc74b9694b45d4ad
    | 512, some 0x22 =>
        bytes32 0x1eac5232727c050943510355b423e62b953a3a1fe99d8cb15f79737b1d81a6bd
    | 512, some 0x33 =>
        bytes32 0xfa208fd33608e8a21ed13a7c9a92cdbbd6a936acd1a377f4ac10e9d333113866
    | 2048, some 0x22 =>
        bytes32 0x89879931f28896b0460734ed8b8fd908893d091e6251f3175251680941dd0479
    | 2048, some 0x33 =>
        bytes32 0x6e49beec46190f91483f15fc49b3866c8be68d760b3ed7bd2f2267dd93fe6a4f
    | _, _ => zeros 32
  digest_length bytes := by
    split <;> rfl

def smallHost : Host where
  layout := smallLayout
  sha := smallSha
  loads _ := none

def smallHeader (ddrSector splSector : UInt8) (fill : UInt8) : Bytes :=
  text "RKNS" ++ zeros 116 ++ [ddrSector, 0, 1, 0] ++ zeros 20 ++
    smallSha.digest (List.replicate 512 0x11) ++ zeros 32 ++ [splSector, 0, 1, 0] ++ zeros 20 ++
    smallSha.digest (List.replicate 512 fill) ++ zeros 248

/-- An image whose SPL is filled with one byte. -/
def smallImage (fill : UInt8) : Bytes :=
  smallHeader 2 3 fill ++ smallHeader 1 2 fill ++ List.replicate 512 0x11 ++
    List.replicate 512 fill

def smallBoard : Board where
  deviceId := some "my355"
  model := text "Miyoo Flip"
  compatible := text "miyoo,flip" ++ text "rockchip,rk3566"
  mtdTable := some [["dev:", "size", "erasesize", "name"],
    ["mtd0:", "00200000", "00020000", "\"preloader\""]]
  mtdName := "preloader"
  mtdType := "nand"
  mtdSize := "2048"
  mtdEraseSize := "131072"
  mtdWriteSize := "2048"
  mtdOobSize := "64"
  mtdBadBlocks := "0"
  capacity := some "80"
  online := []
  tools := ["flash_erase", "nandwrite", "mtdinfo", "dd", "sha256sum", "python3"]
  bootDirectory := true
  mounts := some []

def originalPath : Path :=
  ⟨.boot, "mtd5-original-89879931f28896b0460734ed8b8fd908893d091e6251f3175251680941dd0479.img"⟩

def smallStart : World :=
  startWorld (smallImage 0x33) (AList.insert originalPath (smallImage 0x22) ∅) ∅

/-- Every operation succeeds, and leaves what is given for it. -/
def succeeds (content : Option Bytes) : Choice where
  ok := true
  content := content
  name := "tmp.a"
  powerLost := false

def smallChoices : List Choice :=
  List.replicate 21 (succeeds none) ++ [succeeds (some (smallImage 0x22))] ++
    List.replicate 6 (succeeds none)

/-- Whether everything that is hashed is one of two images. -/
def hashesOnly (left right : Bytes) (issued : List (Call × World)) : Bool :=
  issued.all fun entry =>
    match entry.1 with
    | .sha256sum file => (entry.2.read file).all fun bytes => bytes == left || bytes == right
    | _ => true

theorem hashedIn_injOn {host : Host} {left right : Bytes} {issued : List (Call × World)}
    (only : hashesOnly left right issued = true)
    (differ : host.shaText left ≠ host.shaText right) :
    Set.InjOn host.shaText (hashedIn issued) := by
  have cases : ∀ bytes ∈ hashedIn issued, bytes = left ∨ bytes = right := by
    rintro bytes ⟨⟨call, world⟩, member, file, isSum, found⟩
    have checked := List.all_eq_true.mp only _ member
    dsimp only at isSum found
    cases isSum
    simpa [found] using checked
  intro first isFirst second isSecond same
  rcases cases first isFirst with rfl | rfl <;> rcases cases second isSecond with rfl | rfl
  · rfl
  · exact absurd same differ
  · exact absurd same.symm differ
  · rfl

theorem smallImages_differ :
    smallHost.shaText (smallImage 0x22) ≠ smallHost.shaText (smallImage 0x33) := by
  decide +kernel

/-- A restore in which every operation succeeds ends with status 0. -/
theorem smallRestore_settled :
    ((Command.restore.program smallHost smallBoard).exec (machine smallHost) smallChoices
      smallStart).1 = .done () ∧
    NandSettled smallHost .restore smallStart ((Command.restore.program smallHost smallBoard).exec
      (machine smallHost) smallChoices smallStart) := by
  -- One evaluation of the run for both facts.
  have computed : ((Command.restore.program smallHost smallBoard).exec (machine smallHost)
      smallChoices smallStart).1 = .done () ∧
      hashesOnly (smallImage 0x22) (smallImage 0x33)
        ((Command.restore.program smallHost smallBoard).issued (machine smallHost) smallChoices
          smallStart) = true := by decide +kernel
  refine ⟨computed.1, ?_⟩
  exact (nand_transaction smallHost smallBoard .restore _ _ _ smallChoices
    (hashedIn_injOn computed.2 smallImages_differ)).2

end Zlyme.Preloader
