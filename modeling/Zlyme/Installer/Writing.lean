import Zlyme.Installer.Backups

/-! # Writing and rolling back

The loops write until a read-back has the hash of the image, and otherwise until one
has the hash of the prior image. Only then is it reported as restored.
-/

namespace Zlyme.Installer

open Foundation Foundation.Script

section Steps

variable {size : Nat} {setting : Setting size} {base world : World size}

/-! ## Programming -/

/-- The NAND may differ; the card and the images of `/tmp` do not. -/
structure Programs (base world : World size) : Prop where
  card : world.card = base.card
  tmp : ∀ file, file ≠ .readback → world.tmp file = base.tmp file
  silent : Program.restored ∉ world.printed

theorem Programs.truthful (programs : Programs base world) : setting.Truthful world :=
  fun reported => absurd reported programs.silent

theorem Programs.touches {after : World size} (programs : Programs base world)
    (touches : Touches [.readback] world after) : Programs base after where
  card := touches.card.trans programs.card
  tmp file other := (touches.tmp file (by simpa using other)).trans (programs.tmp file other)
  silent := touches.silent

theorem Programs.read (programs : Programs base world) {file : File}
    (other : file ≠ .tmp .readback) : world.read file = base.read file := by
  cases file with
  | card name => rw [World.read, World.read, programs.card]
  | tmp file => exact programs.tmp file fun same => other (congrArg File.tmp same)

theorem flashErase_ensures (programs : Programs base world) (backed : setting.backed world) :
    setting.Ensures Program.flashErase (fun _ after => Programs base after) world :=
  ensures_call programs.truthful (fun _ => backed) fun _ _ _ =>
    ⟨programs.card, programs.tmp, programs.silent⟩

theorem nandWrite_ensures (programs : Programs base world) (backed : setting.backed world)
    {file : File} {image : Flash size} (found : world.read file = some image.1) :
    setting.Ensures (Program.nandWrite file) (fun _ after => Programs base after ∧
      (after.nand = image ∨ setting.failure)) world := by
  refine ensures_call programs.truthful (fun _ => backed) fun _ choice allowed =>
    ⟨⟨programs.card, programs.tmp, programs.silent⟩, ?_⟩
  refine (clean_or_failure setting allowed).imp_left fun clean => ?_
  subst clean
  change world.nand.write ((world.read file).getD []) = image
  rw [found]
  exact Flash.write_image image _

theorem issueLogged_ensures (programs : Programs base world) {line : String}
    (plain : line ≠ Program.restored) :
    setting.Ensures (Program.issue (.log line)) (fun _ after => Programs base after ∧
      after.nand = world.nand) world :=
  (issueLog_ensures (Touches.refl programs.silent) plain).mono fun _ _ ⟨quiet, _⟩ =>
    ⟨programs.touches quiet.1, quiet.1.nand⟩

/-! ## Reading back -/

/-- A read-back with the hash of an image has found that image, and it finds the image
where no operation fails. -/
structure ReadsBack (setting : Setting size) (image : Flash size) (world : World size) (ok : Bool)
    (after : World size) : Prop where
  touches : Touches [.readback] world after
  sound : ok = true → world.nand = image
  complete : ok = true ∨ world.nand ≠ image ∨ setting.failure

theorem readbackOk_ensures (silent : Program.restored ∉ world.printed) {image : Flash size}
    (isHashed : image.1 ∈ setting.hashed) :
    setting.Ensures (Program.readbackOk size (setting.host.shaText image.1))
      (ReadsBack setting image world) world := by
  refine (readNand_ensures silent .readback).bind fun ok after ⟨touches, isOk, found⟩ => ?_
  cases ok with
  | false => exact ⟨touches, nofun, .inr (.inr (isOk.resolve_left nofun))⟩
  | true =>
  rcases found rfl with ⟨bytes, found, whole, isNand⟩
  refine (read_ensures touches.truthful _).bind fun content again ⟨same, isContent⟩ => ?_
  cases same
  have isContent : content = some bytes := isContent.trans found
  cases isContent
  split_ifs with long
  · have same := whole (Option.some.inj long)
    refine (shaFile_ensures touches.truthful _).bind fun sum again ⟨same', isSum, bytesHashed⟩ => ?_
    cases same'
    have isSum : sum = setting.host.shaText world.nand.1 := by
      rw [isSum, World.read, found, same]
      rfl
    refine ⟨touches, fun isEqual => ?_, ?_⟩
    · have sameSum := isSum.symm.trans (beq_iff_eq.mp isEqual)
      exact Subtype.ext (setting.equalSha (same ▸ bytesHashed bytes found) isHashed sameSum)
    · rcases em (world.nand = image) with rfl | differs
      · exact .inl (beq_iff_eq.mpr isSum)
      · exact .inr (.inl differs)
  · refine ⟨touches, nofun, .inr (.inr (isNand.resolve_left fun same => long ?_))⟩
    rw [same]
    exact congrArg some world.nand.2

theorem remove_ensures (silent : Program.restored ∉ world.printed) (file : Temp) :
    setting.Ensures (Program.remove (.tmp file)) (fun ok after => Touches [file] world after ∧
      (ok = true ∨ setting.failure)) world := by
  refine ensures_call (fun reported => absurd reported silent) nofun fun _ choice allowed => ?_
  cases isOk : choice.ok with
  | true =>
      simp only [Call.perform, isOk, if_true]
      exact ⟨(Touches.refl silent).writeTmp List.mem_cons_self _, .inl trivial⟩
  | false =>
      simp only [Call.perform, isOk, Bool.false_eq_true, if_false]
      exact ⟨Touches.refl silent, .inr ((ok_or_failure setting allowed).resolve_left (by simp [isOk]))⟩

theorem readbackMatches_ensures (silent : Program.restored ∉ world.printed) {image : Flash size}
    (isHashed : image.1 ∈ setting.hashed) :
    setting.Ensures (Program.readbackMatches size (setting.host.shaText image.1))
      (ReadsBack setting image world) world := by
  have truthful : setting.Truthful world := fun reported => absurd reported silent
  refine (mktemp_ensures truthful).bind fun made after ⟨same, isMade⟩ => ?_
  cases same
  cases made with
  | false => exact ⟨Touches.refl silent, nofun, .inr (.inr (isMade.resolve_left nofun))⟩
  | true =>
  refine (readbackOk_ensures silent isHashed).bind fun ok after reads => ?_
  refine (remove_ensures reads.touches.silent .readback).bind fun _ last ⟨removed, _⟩ => ?_
  exact ⟨reads.touches.trans removed, reads.sound, reads.complete⟩

/-! ## Loops -/

theorem flashLoop_ensures {target : File} {image : Flash size} (other : target ≠ .tmp .readback)
    (found : base.read target = some image.1) (isHashed : image.1 ∈ setting.hashed)
    (backed : ∀ after, Programs base after → setting.backed after) (left : Nat)
    (programs : Programs base world) :
    setting.Ensures (Program.flashLoop size target (setting.host.shaText image.1) left)
      (fun ok after => Programs base after ∧ (ok = true → after.nand = image) ∧
        (ok = true ∨ left = 0 ∨ setting.failure)) world := by
  induction left generalizing world with
  | zero => exact ⟨programs, nofun, .inr (.inl rfl)⟩
  | succ left induction =>
      refine (issueLogged_ensures programs (append_ne (by decide))).bind
        fun _ after ⟨programs, _⟩ => ?_
      refine (flashErase_ensures programs (backed _ programs)).bind fun _ after programs => ?_
      refine (nandWrite_ensures programs (backed _ programs)
        ((programs.read other).trans found)).bind fun _ after ⟨programs, written⟩ => ?_
      refine (echo_ensures programs.truthful _ _).bind fun _ again ⟨same, _⟩ => ?_
      cases same
      refine (readbackMatches_ensures programs.silent isHashed).bind fun ok last reads => ?_
      have programs := programs.touches reads.touches
      cases ok with
      | true => exact ⟨programs, fun _ => reads.touches.nand.trans (reads.sound rfl), .inl rfl⟩
      | false =>
          have failed : setting.failure := by
            rcases reads.complete.resolve_left nofun with differs | failed
            · exact written.resolve_left differs
            · exact failed
          refine (issueLogged_ensures programs (by decide)).bind fun _ after ⟨programs, _⟩ => ?_
          exact (induction programs).mono fun ok after ⟨programs, isImage, _⟩ =>
            ⟨programs, isImage, .inr (.inr failed)⟩

/-- The prior image is there when it is reported. -/
theorem report_ensures (truthful : setting.Truthful world) (isPrior : world.nand = setting.nand) :
    setting.Ensures (Program.issue (.log Program.restored)) (fun _ after => setting.Truthful after)
      world :=
  ensures_call truthful nofun fun _ _ _ _ => isPrior

theorem rollbackLoop_ensures {rollback : File} (other : rollback ≠ .tmp .readback)
    (found : base.read rollback = some setting.nand.1) (isHashed : setting.nand.1 ∈ setting.hashed)
    (backed : ∀ after, Programs base after → setting.backed after) (left : Nat)
    (programs : Programs base world) :
    setting.Ensures (Program.rollbackLoop size rollback (setting.host.shaText setting.nand.1) left)
      (fun ok after => setting.Truthful after ∧ (ok = true ∨ Programs base after)) world := by
  induction left generalizing world with
  | zero => exact ⟨programs.truthful, .inr programs⟩
  | succ left induction =>
      refine (issueLogged_ensures programs (append_ne (by decide))).bind
        fun _ after ⟨programs, _⟩ => ?_
      refine (flashErase_ensures programs (backed _ programs)).bind fun _ after programs => ?_
      refine (nandWrite_ensures programs (backed _ programs)
        ((programs.read other).trans found)).bind fun _ after ⟨programs, _⟩ => ?_
      refine (readbackMatches_ensures programs.silent isHashed).bind fun ok last reads => ?_
      have programs := programs.touches reads.touches
      cases ok with
      | true =>
          have isPrior : last.nand = setting.nand := reads.touches.nand.trans (reads.sound rfl)
          exact (report_ensures programs.truthful isPrior).bind
            fun _ after truthful => ⟨truthful, .inl rfl⟩
      | false => exact induction programs

/-- What `write_and_rollback` leaves: the target, or a true report and a reason. -/
structure Written (setting : Setting size) (image : Flash size) (base : World size) (status : Nat)
    (after : World size) : Prop where
  truthful : setting.Truthful after
  target : status = 0 → Programs base after ∧ after.nand = image
  failed : status ≠ 0 → setting.failure

theorem writeAndRollback_ensures {target rollback : File} {image : Flash size}
    (silent : Program.restored ∉ world.printed)
    (otherTarget : target ≠ .tmp .readback) (foundTarget : world.read target = some image.1)
    (isHashed : image.1 ∈ setting.hashed)
    (otherPrior : rollback ≠ .tmp .readback) (foundPrior : world.read rollback = some setting.nand.1)
    (priorHashed : setting.nand.1 ∈ setting.hashed)
    (backed : ∀ after, Programs world after → setting.backed after) :
    setting.Ensures (Program.writeAndRollback size target (setting.host.shaText image.1) rollback
      (setting.host.shaText setting.nand.1)) (Written setting image world) world := by
  have programs : Programs world world := ⟨rfl, fun _ _ => rfl, silent⟩
  refine (flashLoop_ensures otherTarget foundTarget isHashed backed _ programs).bind
    fun ok after ⟨programs, isImage, isOk⟩ => ?_
  cases ok with
  | true =>
      exact ⟨programs.truthful, fun _ => ⟨programs, isImage rfl⟩, fun other => absurd rfl other⟩
  | false =>
  have failed : setting.failure := (isOk.resolve_left nofun).resolve_left (by decide)
  refine (issueLogged_ensures programs (by decide)).bind fun _ after ⟨programs, _⟩ => ?_
  refine (rollbackLoop_ensures otherPrior foundPrior priorHashed backed _ programs).bind
    fun ok after ⟨truthful, isBack⟩ => ?_
  cases ok with
  | true => exact ⟨truthful, nofun, fun _ => failed⟩
  | false =>
      refine (issueLogged_ensures (isBack.resolve_left nofun) (by decide)).bind
        fun _ after ⟨programs, _⟩ => ?_
      exact ⟨programs.truthful, nofun, fun _ => failed⟩

/-! ## After the write -/

/-- Only the installer is taken from the card. -/
structure TidiesUp (world after : World size) : Prop where
  nand : after.nand = world.nand
  others : ∀ name, name ≠ Program.installerName → after.card.lookup name = world.card.lookup name
  silent : Program.restored ∉ after.printed

theorem TidiesUp.touches {after : World size} {files : List Temp} (tidies : TidiesUp base world)
    (touches : Touches files world after) : TidiesUp base after where
  nand := touches.nand.trans tidies.nand
  others name other := by
    rw [touches.card]
    exact tidies.others name other
  silent := touches.silent

theorem removeInstaller_ensures (silent : Program.restored ∉ world.printed) :
    setting.Ensures Program.removeInstaller (fun _ after => TidiesUp world after) world := by
  have truthful : setting.Truthful world := fun reported => absurd reported silent
  refine (read_ensures truthful _).bind ?_
  rintro content again ⟨same, _⟩
  cases same
  rcases content with _ | content
  · exact ⟨rfl, fun _ _ => rfl, silent⟩
  have removes : setting.Ensures (Program.remove (.card Program.installerName)) (fun ok after =>
      setting.Truthful after ∧ (ok = true ∨ setting.failure) ∧ (ok = true → TidiesUp world after))
      world := by
    refine ensures_call truthful (fun changes => ?_) fun _ choice allowed => ?_
    · cases changes
    simp only [Call.perform]
    split_ifs with isOk
    · exact ⟨truthful, .inl rfl, fun _ => ⟨rfl, fun name other => AList.lookup_erase_ne other, silent⟩⟩
    · refine ⟨truthful, .inr ((ok_or_failure setting allowed).resolve_left isOk), fun ok => ?_⟩
      cases ok
  refine (must_ensures removes).bind fun _ after tidies => ?_
  have touches : Touches [] after after := Touches.refl tidies.silent
  refine (mustStay_ensures touches.truthful (issueSync_ensures touches.truthful)).bind
    fun _ again same => ?_
  cases same
  exact (log_ensures touches (by decide)).mono fun _ last logs => tidies.touches logs.1

theorem logAll_ensures (tidies : TidiesUp base world) {lines : List String}
    (plain : ∀ line ∈ lines, line ≠ Program.restored) :
    setting.Ensures (lines.forM Program.log : Program Unit) (fun _ after => TidiesUp base after)
      world := by
  induction lines generalizing world with
  | nil => exact tidies
  | cons line rest induction =>
      rw [List.forall_mem_cons] at plain
      have touches : Touches [] world world := Touches.refl tidies.silent
      exact (log_ensures touches plain.1).bind fun _ after ⟨quiet, _⟩ =>
        induction (tidies.touches quiet) plain.2

/-- The lines of `writeTarget`. -/
structure PlainLines (dryRun verified : String) (installed : List String) : Prop where
  dryRun : dryRun ≠ Program.restored
  verified : verified ≠ Program.restored
  installed : ∀ line ∈ installed, line ≠ Program.restored

/-- What has to be there before the target is written. -/
structure ReadyToWrite (setting : Setting size) (target : File) (image : Flash size)
    (world : World size) : Prop where
  silent : Program.restored ∉ world.printed
  isTarget : target ≠ .tmp .readback
  found : world.read target = some image.1
  isHashed : image.1 ∈ setting.hashed
  live : world.tmp .live = some setting.nand.1
  liveHashed : setting.nand.1 ∈ setting.hashed
  backed : ∀ after, Programs world after → setting.backed after

theorem writeTarget_ensures {board : Board} {target : File} {image : Flash size}
    {expect before dryRun verified : String} {installed : List String} {post : Unit → World size → Prop}
    (plain : PlainLines dryRun verified installed) (ready : ReadyToWrite setting target image world)
    (isExpect : expect = setting.host.shaText image.1)
    (isBefore : before = setting.host.shaText setting.nand.1)
    (dry : board.dry = true → ∀ after, Touches [] world after → setting.success after)
    (written : ∀ after, after.nand = image → (∀ name, name ≠ Program.installerName →
      after.card.lookup name = world.card.lookup name) → setting.success after) :
    setting.Ensures (Program.writeTarget size board target expect before dryRun verified installed)
      post world := by
  have touches : Touches [] world world := Touches.refl ready.silent
  rw [Program.writeTarget, isExpect, isBefore]
  split_ifs with isDry
  · exact (log_ensures touches plain.dryRun).bind fun _ after ⟨quiet, _⟩ =>
      finish_ensures quiet.truthful (fun _ => dry isDry after quiet) (fun other => absurd rfl other)
  refine (progress_ensures touches 40).bind fun _ again same => ?_
  cases same
  have isLive : world.read (.tmp .live) = some setting.nand.1 := ready.live
  refine (writeAndRollback_ensures ready.silent ready.isTarget ready.found ready.isHashed
    (by decide) isLive ready.liveHashed ready.backed).bind fun status after isWritten => ?_
  split_ifs with isZero
  · rcases isWritten.target isZero with ⟨programs, isImage⟩
    have start : TidiesUp after after := ⟨rfl, fun _ _ => rfl, programs.silent⟩
    have touches : Touches [] after after := Touches.refl programs.silent
    refine (log_ensures touches plain.verified).bind fun _ logged ⟨quiet, _⟩ => ?_
    refine (removeInstaller_ensures quiet.silent).bind fun _ tidied tidies => ?_
    refine (logAll_ensures tidies plain.installed).bind fun _ last tidies => ?_
    have lastTouches : Touches [] last last := Touches.refl tidies.silent
    refine (progress_ensures lastTouches 95).bind fun _ again same => ?_
    cases same
    refine finish_ensures lastTouches.truthful (fun _ => written last ?_ fun name other => ?_)
      fun other => absurd rfl other
    · rw [tidies.nand, quiet.nand, isImage]
    · rw [tidies.others name other, quiet.card, programs.card]
  · exact finish_ensures isWritten.truthful nofun fun _ => isWritten.failed isZero

end Steps

end Zlyme.Installer
