import Zlyme.Installer.Writing

/-! # The NAND transaction of the installer

A status of 0 after a write means that the NAND holds what the script was to write,
and the report of the restored preloader is true. Whenever the NAND is about to
change, the card holds the image that was read from it, and for the install an
original that the image comes from.
-/

namespace Zlyme.Installer

open Foundation Foundation.Script

/-! ## Names on the card -/

theorem originalHash_iff {name want : String} :
    Preloader.Program.originalHash name = some want ↔ name = Program.originalName want := by
  rw [Preloader.Program.originalHash, Program.originalName]
  constructor
  · intro found
    split_ifs at found with framed
    rw [Bool.and_eq_true, List.isPrefixOf_iff_prefix, List.isSuffixOf_iff_suffix] at framed
    rcases framed with ⟨⟨rest, isRest⟩, suffixes⟩
    rw [← isRest, List.drop_left] at suffixes found
    rcases suffixes with ⟨middle, isMiddle⟩
    rw [← isMiddle, List.length_append, Nat.add_sub_cancel, List.take_left] at found
    apply String.toList_inj.mp
    rw [← isRest, ← isMiddle, ← Option.some.inj found]
    simp
  · rintro rfl
    simp

theorem originalName_inj {first second : String}
    (same : Program.originalName first = Program.originalName second) : first = second := by
  have isFirst := originalHash_iff.mpr (Eq.refl (Program.originalName first))
  rw [same, originalHash_iff.mpr (Eq.refl (Program.originalName second))] at isFirst
  exact (Option.some.inj isFirst).symm

theorem originalHash_currentName (before : String) :
    Preloader.Program.originalHash (Program.currentName before) = none := by
  change Preloader.Program.originalHash ("preloader-current-" ++ before ++ ".img") = none
  rw [Preloader.Program.originalHash]
  simp

theorem originalName_ne_current (first second : String) :
    Program.originalName first ≠ Program.currentName second := by
  intro same
  have isOriginal := originalHash_iff.mpr (Eq.refl (Program.originalName first))
  rw [same, originalHash_currentName] at isOriginal
  cases isOriginal

theorem originalName_ne_installer (before : String) :
    Program.originalName before ≠ Program.installerName := by
  rw [Program.originalName, String.append_assoc]
  exact append_ne (by decide)

theorem currentName_ne_installer (before : String) :
    Program.currentName before ≠ Program.installerName := by
  change "preloader-current-" ++ before ++ ".img" ≠ _
  rw [String.append_assoc]
  exact append_ne (by decide)

/-! ## The install -/

/-- How the recovery image comes from the live one. A repaired live image has to come
from the one original that is on the card. -/
inductive Recovers {size : Nat} (host : Host size) (card : Card) (live target : Bytes) : Bool → Prop
  | stock {patched : Bytes} (isPatched : host.patch live = .patched patched)
      (isEdited : host.applyBootOrder patched = .edited target) : Recovers host card live target true
  | repaired {entry : String × String} {orig : Bytes} (isRepaired : host.patch live = .repaired)
      (isEdited : host.applyBootOrder live = .edited target) (only : card.originals = [entry])
      (holds : Holds host card entry orig) (isImage : host.checkImage orig = true)
      (sameDdr : host.ddrSame orig live = true) (isPatched : host.patch orig = .patched live) :
      Recovers host card live target false

/-- The names under which an install keeps the live image. -/
def savedNames {size : Nat} (host : Host size) (live : Bytes) (stock : Bool) : List String :=
  if stock then [Program.originalName (host.shaText live), Program.currentName (host.shaText live)]
  else [Program.currentName (host.shaText live)]

/-- The card has no original of another image. -/
def OwnOriginal {size : Nat} (host : Host size) (live : Bytes) (card : Card) : Prop :=
  card.originals = [] ∨
    ∃ want, card.originals = [(Program.originalName (host.shaText live), want)]

/-- How an install ends with status 0: the preloader is one already, or the copies are
on the card, and the NAND is as it was found or holds the recovery image. -/
inductive Installed {size : Nat} (host : Host size) (start after : World size) : Prop
  | already (isRepaired : host.patch start.nand.1 = .repaired)
      (isAlready : host.applyBootOrder start.nand.1 = .already) (nand : after.nand = start.nand)
      (received : after.received = start.received) (card : after.card = start.card)
  | recovery {stock : Bool} {target : Flash size} (isImage : host.checkImage start.nand.1 = true)
      (recovers : Recovers host start.card start.nand.1 target.1 stock)
      (isTarget : host.checkImage target.1 = true)
      (sameDdr : host.ddrSame start.nand.1 target.1 = true)
      (distinct : host.shaText target.1 = host.shaText start.nand.1 → target = start.nand)
      (own : stock = true → OwnOriginal host start.nand.1 start.card)
      (nand : after.nand = start.nand ∧ after.received = start.received ∨ after.nand = target)
      (copies : ∀ name ∈ savedNames host start.nand.1 stock,
        after.card.lookup name = some start.nand.1)
      (others : ∀ name, name ∉ savedNames host start.nand.1 stock → name ≠ Program.installerName →
        after.card.lookup name = start.card.lookup name)

/-- What the card holds before an install changes the NAND. -/
structure Backed {size : Nat} (host : Host size) (live : Bytes) (card : Card) : Prop where
  current : card.lookup (Program.currentName (host.shaText live)) = some live
  original : ∃ orig, card.lookup (Program.originalName (host.shaText orig)) = some orig ∧
    (orig = live ∨ host.patch orig = .patched live)

section Install

variable {size : Nat} {setting : Setting size} {base world : World size}

/-- What is known of `/tmp/zlyme-new.img` before it is checked. -/
structure Prepared (setting : Setting size) (base : World size) (live : Bytes) (stock : Bool)
    (after : World size) : Prop where
  touches : Touches [.patched, .new, .fromOrig] base after
  target : ∃ bytes, after.tmp .new = some bytes ∧ Recovers setting.host base.card live bytes stock

theorem checkOriginal_ensures {orig : File} {image live : Bytes}
    (silent : Program.restored ∉ world.printed) (found : world.read orig = some image)
    (isLive : world.read (.tmp .live) = some live)
    (isImage : setting.host.checkImage image = false → setting.failure)
    (sameDdr : setting.host.ddrSame image live = false → setting.failure) :
    setting.Ensures (Program.checkOriginal orig) (fun _ after => after = world ∧
      setting.host.checkImage image = true ∧ setting.host.ddrSame image live = true) world := by
  have touches : Touches [] world world := Touches.refl silent
  refine (orRefuse_ensures touches (by decide) (fun wrong => isImage ?_)
    (checkImage_ensures touches.truthful _)).bind fun _ again ⟨same, passed⟩ => ?_
  · rw [← wrong, verdict_of_read found]
  cases same
  refine (orRefuse_ensures touches (by decide) (fun wrong => sameDdr ?_)
    (ddrCmp_ensures touches.truthful _ _)).mono fun _ again ⟨same, alike⟩ => ?_
  · rw [← wrong, ddrVerdict_of_read found isLive]
  · rw [verdict_of_read found] at passed
    rw [ddrVerdict_of_read found isLive] at alike
    exact ⟨same, passed, alike⟩

variable (may : setting.failure)

include may

theorem fromStock_ensures (silent : Program.restored ∉ world.printed) {live : Bytes}
    (isLive : world.read (.tmp .live) = some live) :
    setting.Ensures Program.fromStock (fun stock after => Touches [.patched] world after ∧
      (stock = true → ∃ bytes, setting.host.patch live = .patched bytes ∧
        after.tmp .patched = some bytes) ∧
      (stock = false → setting.host.patch live = .repaired)) world := by
  refine (patch_ensures silent isLive .patched).bind fun status after ends => ?_
  rcases ends.ending with ⟨ending, rfl, isEnding, written⟩
  cases ending with
  | patched bytes =>
      refine (logPatch_ensures ends.touches).bind fun _ again same => ?_
      cases same
      exact ⟨ends.touches, fun _ => ⟨bytes, (isEnding.resolve_right nofun).symm, written bytes rfl⟩,
        nofun⟩
  | repaired =>
      refine (logPatch_ensures ends.touches).bind fun _ again same => ?_
      cases same
      exact ⟨ends.touches, nofun, fun _ => (isEnding.resolve_right nofun).symm⟩
  | refused =>
      refine (logPatch_ensures ends.touches).bind fun _ again same => ?_
      cases same
      exact refuse_ensures ends.touches (by decide) may

theorem prepareStock_ensures (silent : Program.restored ∉ world.printed) {live patched : Bytes}
    (isPatched : setting.host.patch live = .patched patched)
    (found : world.read (.tmp .patched) = some patched) :
    setting.Ensures Program.prepareStock (fun _ after => Prepared setting world live true after)
      world := by
  refine (applyBootOrder_ensures silent found .new).bind fun status after ends => ?_
  rcases ends.ending with ⟨ending, rfl, isEnding, written⟩
  cases ending with
  | edited bytes =>
      exact ⟨ends.touches.mono (by decide), bytes, written bytes rfl,
        .stock isPatched (isEnding.resolve_right nofun).symm⟩
  | already => exact refuse_ensures ends.touches (by decide) may
  | refused => exact refuse_ensures ends.touches (by decide) may

theorem prepareRepaired_ensures (silent : Program.restored ∉ world.printed) {live : Bytes}
    (isLive : world.read (.tmp .live) = some live) (isRepaired : setting.host.patch live = .repaired)
    (already : setting.host.applyBootOrder live = .already → ∀ after, Touches [.new] world after →
      setting.success after) :
    setting.Ensures (Program.prepareRepaired size)
      (fun _ after => Prepared setting world live false after) world := by
  refine (applyBootOrder_ensures silent isLive .new).bind fun status edited ends => ?_
  rcases ends.ending with ⟨ending, rfl, isEnding, written⟩
  cases ending with
  | already =>
      refine (log_ensures ends.touches (by decide)).bind fun _ after ⟨touches, _⟩ => ?_
      exact finish_ensures touches.truthful
        (fun _ => already (isEnding.resolve_right nofun).symm after touches) fun other => absurd rfl other
  | refused => exact refuse_ensures ends.touches (by decide) may
  | edited bytes =>
  refine (collectOriginals_ensures ends.touches fun _ _ _ => may).bind
    fun names again ⟨same, isNames, verified⟩ => ?_
  cases same
  rcases names with _ | ⟨orig, _ | ⟨second, rest⟩⟩
  · exact refuse_ensures ends.touches (by decide) may
  · rcases originals_eq_singleton isNames.symm with ⟨want, only⟩
    rw [only, List.forall_mem_singleton] at verified
    rcases verified with ⟨image, holds, _⟩
    have isOrig : edited.read (.card orig) = some image := holds.found
    have stillLive : edited.read (.tmp .live) = some live :=
      (ends.touches.readTmp (by decide)).trans isLive
    refine (checkOriginal_ensures ends.touches.silent isOrig stillLive (fun _ => may)
      fun _ => may).bind fun _ again ⟨same, isImage, sameDdr⟩ => ?_
    cases same
    refine (patch_ensures ends.touches.silent isOrig .fromOrig).bind fun status patched patchEnds => ?_
    rcases patchEnds.ending with ⟨ending, rfl, isPatch, output⟩
    cases ending with
    | patched bytes' =>
        have touches := patchEnds.touches
        refine (orRefuse_ensures touches (by decide) (fun _ => may)
          (cmp_ensures touches.truthful _ _)).mono fun _ again ⟨same, alike⟩ => ?_
        cases same
        have isOutput : patched.read (.tmp .fromOrig) = some bytes' := output bytes' rfl
        have isLiveNow : patched.read (.tmp .live) = some live :=
          (touches.readTmp (by decide)).trans stillLive
        rw [isOutput, isLiveNow] at alike
        have alike : bytes' = live := by simpa using alike
        subst alike
        refine ⟨(ends.touches.mono (by decide)).trans (touches.mono (by decide)), bytes,
          (touches.tmp _ (by decide)).trans (written bytes rfl), ?_⟩
        rw [ends.touches.card] at only holds
        exact .repaired isRepaired (isEnding.resolve_right nofun).symm only holds isImage sameDdr
          (isPatch.resolve_right nofun).symm
    | repaired => exact refuse_ensures patchEnds.touches (by decide) may
    | refused => exact refuse_ensures patchEnds.touches (by decide) may
  · exact refuse_ensures ends.touches (by decide) may

/-- What is known of the recovery image once it is checked. -/
structure NewImage (setting : Setting size) (base : World size) (live : Bytes) (stock : Bool)
    (target : Flash size) (expect : String) (after : World size) : Prop where
  touches : Touches [.patched, .new, .fromOrig] base after
  found : after.tmp .new = some target.1
  recovers : Recovers setting.host base.card live target.1 stock
  sameDdr : setting.host.ddrSame live target.1 = true
  isImage : setting.host.checkImage target.1 = true
  isExpect : expect = setting.host.shaText target.1
  isHashed : target.1 ∈ setting.hashed

theorem prepareNew_ensures (silent : Program.restored ∉ world.printed) {live : Bytes} {stock : Bool}
    (isLive : world.read (.tmp .live) = some live)
    (isStock : stock = true → ∃ bytes, setting.host.patch live = .patched bytes ∧
      world.read (.tmp .patched) = some bytes)
    (isRepaired : stock = false → setting.host.patch live = .repaired)
    (already : setting.host.patch live = .repaired → setting.host.applyBootOrder live = .already →
      ∀ after, Touches [.new] world after → setting.success after) :
    setting.Ensures (Program.prepareNew size stock)
      (fun expect after => ∃ target, NewImage setting world live stock target expect after)
      world := by
  have prepares : setting.Ensures (Program.prepareImage size stock)
      (fun _ after => Prepared setting world live stock after) world := by
    cases stock with
    | true =>
        rcases isStock rfl with ⟨patched, isPatched, held⟩
        exact prepareStock_ensures may silent isPatched held
    | false =>
        exact prepareRepaired_ensures may silent isLive (isRepaired rfl) (already (isRepaired rfl))
  refine prepares.bind fun _ prepared ⟨touches, bytes, found, recovers⟩ => ?_
  have isNew : prepared.read (.tmp .new) = some bytes := found
  have stillLive : prepared.read (.tmp .live) = some live :=
    (touches.readTmp (by decide)).trans isLive
  refine (orRefuse_ensures touches (by decide) (fun _ => may)
    (checkImage_ensures touches.truthful _)).bind fun _ again ⟨same, isImage⟩ => ?_
  cases same
  refine (orRefuse_ensures touches (by decide) (fun _ => may)
    (ddrCmp_ensures touches.truthful _ _)).bind fun _ again ⟨same, sameDdr⟩ => ?_
  cases same
  rw [verdict_of_read isNew] at isImage
  rw [ddrVerdict_of_read stillLive isNew] at sameDdr
  refine (shaFile_ensures touches.truthful _).bind fun sum again ⟨same, isSum, isHashed⟩ => ?_
  cases same
  refine (log_ensures touches (append_ne (by decide))).bind fun _ after ⟨touches, sameTmp⟩ => ?_
  refine (progress_ensures touches 30).bind fun _ again same => ?_
  cases same
  refine ⟨⟨bytes, setting.host.checkImage_length bytes isImage⟩, touches, ?_, recovers, sameDdr,
    isImage, ?_, isHashed bytes isNew⟩
  · rw [sameTmp, found]
  · rw [isSum, isNew]
    rfl

theorem keepOriginal_ensures (silent : Program.restored ∉ world.printed) {live : Bytes}
    (isLive : world.read (.tmp .live) = some live) (isHashed : live ∈ setting.hashed) :
    setting.Ensures (Program.keepOriginal size (setting.host.shaText live)) (fun _ after =>
      Saves (Program.originalName (setting.host.shaText live)) live world after ∧
        OwnOriginal setting.host live world.card) world := by
  have touches : Touches [] world world := Touches.refl silent
  refine (collectOriginals_ensures touches fun _ _ _ => may).bind
    fun names again ⟨same, isNames, _⟩ => ?_
  cases same
  have save : setting.Ensures (Program.saveVerifiedCopy (.tmp .live)
      (Program.originalName (setting.host.shaText live)) (setting.host.shaText live))
      (fun _ after => Saves (Program.originalName (setting.host.shaText live)) live world after)
      world :=
    saveVerifiedCopy_ensures silent isLive isHashed rfl fun _ _ _ => may
  rcases names with _ | ⟨only, _ | ⟨second, rest⟩⟩
  · exact save.mono fun _ _ saves => ⟨saves, .inl (List.map_eq_nil_iff.mp isNames.symm)⟩
  · rcases originals_eq_singleton isNames.symm with ⟨want, isOnly⟩
    dsimp only
    split_ifs with own
    · subst own
      exact save.mono fun _ _ saves => ⟨saves, .inr ⟨want, isOnly⟩⟩
    · exact refuse_ensures touches (by decide) may
  · exact refuse_ensures touches (by decide) may

theorem keepCopies_ensures (silent : Program.restored ∉ world.printed) {live : Bytes}
    (isLive : world.read (.tmp .live) = some live) (isHashed : live ∈ setting.hashed)
    (stock : Bool) :
    setting.Ensures (Program.keepCopies size stock (setting.host.shaText live)) (fun _ after =>
      Keeps (savedNames setting.host live stock) live world after ∧
        (stock = true → OwnOriginal setting.host live world.card)) world := by
  cases stock with
  | false =>
      exact (saveVerifiedCopy_ensures silent isLive isHashed rfl fun _ _ _ => may).mono
        fun _ _ saves => ⟨saves.keeps, nofun⟩
  | true =>
      refine (keepOriginal_ensures may silent isLive isHashed).bind fun _ kept ⟨saves, own⟩ => ?_
      have isLive : kept.read (.tmp .live) = some live := by
        rw [World.read, saves.tmp]
        exact isLive
      exact (saveVerifiedCopy_ensures saves.silent isLive isHashed rfl fun _ _ _ => may).mono
        fun _ _ later => ⟨saves.keeps.saves later, fun _ => own⟩

omit may in
/-- A verified original lies under its own name. -/
theorem Holds.originalName {card : Card} {entry : String × String} {image : Bytes}
    (holds : Holds setting.host card entry image) (member : entry ∈ card.originals) :
    card.lookup (Program.originalName (setting.host.shaText image)) = some image := by
  rw [holds.isSum, ← originalHash_iff.mp (mem_originals.mp member).2]
  exact holds.found

omit may in
theorem Recovers.backed {live target : Bytes} {stock : Bool} {after : World size}
    (recovers : Recovers setting.host world.card live target stock)
    (keeps : Keeps (savedNames setting.host live stock) live world after) :
    Backed setting.host live after.card := by
  cases recovers with
  | stock isPatched isEdited =>
      exact ⟨keeps.copies _ (List.mem_cons_of_mem _ List.mem_cons_self), live,
        keeps.copies _ List.mem_cons_self, .inl rfl⟩
  | repaired isRepaired isEdited only holds isImage sameDdr isPatched =>
      refine ⟨keeps.copies _ List.mem_cons_self, _, ?_, .inr isPatched⟩
      rw [keeps.others _ fun member => originalName_ne_current _ _ (List.mem_singleton.mp member)]
      exact holds.originalName (only ▸ List.mem_cons_self)

omit may in
theorem installer_notMem_savedNames (host : Host size) (live : Bytes) (stock : Bool) :
    Program.installerName ∉ savedNames host live stock := by
  cases stock with
  | false => exact fun member => currentName_ne_installer _ (List.mem_singleton.mp member).symm
  | true =>
      intro member
      rcases List.mem_cons.mp member with same | member
      · exact originalName_ne_installer _ same.symm
      · exact currentName_ne_installer _ (List.mem_singleton.mp member).symm

theorem installMaskrom_ensures {board : Board} {post : Unit → World size → Prop}
    (silent : Program.restored ∉ world.printed) (isStart : setting.nand = world.nand)
    (backed : ∀ after, Backed setting.host world.nand.1 after.card → setting.backed after)
    (success : ∀ after, Installed setting.host world after → setting.success after) :
    setting.Ensures (Program.installMaskrom size board) post world := by
  refine (examineLive_ensures silent (by decide) (fun _ => may) (fun _ => may)
    fun _ => may).bind fun before read examined => ?_
  have isLive : read.read (.tmp .live) = some world.nand.1 := examined.live
  refine (fromStock_ensures may examined.touches.silent isLive).bind
    fun stock repaired ⟨touchesPatched, isStock, isRepaired⟩ => ?_
  have stillLive : repaired.read (.tmp .live) = some world.nand.1 :=
    (touchesPatched.readTmp (by decide)).trans isLive
  refine (prepareNew_ensures may touchesPatched.silent stillLive isStock isRepaired
    fun isRepaired isAlready after touches => success after ?_).bind
    fun expect prepared ⟨target, isNew⟩ => ?_
  · exact .already isRepaired isAlready
      (touches.nand.trans (touchesPatched.nand.trans examined.touches.nand))
      (touches.received.trans (touchesPatched.received.trans examined.touches.received))
      (touches.card.trans (touchesPatched.card.trans examined.touches.card))
  have sameCard : prepared.card = world.card :=
    isNew.touches.card.trans (touchesPatched.card.trans examined.touches.card)
  have sameNand : prepared.nand = world.nand :=
    isNew.touches.nand.trans (touchesPatched.nand.trans examined.touches.nand)
  have sameReceived : prepared.received = world.received :=
    isNew.touches.received.trans (touchesPatched.received.trans examined.touches.received)
  have liveNow : prepared.read (.tmp .live) = some world.nand.1 :=
    (isNew.touches.readTmp (by decide)).trans stillLive
  rw [examined.before_eq]
  refine (keepCopies_ensures may isNew.touches.silent liveNow examined.isHashed stock).bind
    fun _ kept ⟨keeps, own⟩ => ?_
  have recovers := isNew.recovers
  rw [touchesPatched.card, examined.touches.card] at recovers
  have isBacked : Backed setting.host world.nand.1 kept.card :=
    Recovers.backed (sameCard.symm ▸ recovers) keeps
  rw [sameCard] at own
  have plain : PlainLines "dry run - would erase /dev/mtd5 and write the recovery preloader"
      "readback verified" ["recovery preloader installed; power the device off before changing cards",
        "use a bootable card in the right-hand slot for normal boot"] :=
    ⟨by decide, by decide, by decide⟩
  -- What both ends of the write leave on the card.
  have ends : ∀ after : World size,
      (after.nand = world.nand ∧ after.received = world.received ∨ after.nand = target) →
      (∀ name, name ≠ Program.installerName → after.card.lookup name = kept.card.lookup name) →
      setting.success after := by
    intro after nand others
    refine success after (.recovery examined.isImage recovers isNew.isImage isNew.sameDdr
      (fun same => Subtype.ext (setting.equalSha isNew.isHashed examined.isHashed same)) own nand
      (fun name member => ?_) fun name absent other => ?_)
    · rw [others name fun same => installer_notMem_savedNames _ _ _ (same ▸ member)]
      exact keeps.copies name member
    · rw [others name other, keeps.others name absent, sameCard]
  refine writeTarget_ensures plain
    { silent := keeps.silent
      isTarget := by decide
      found := ?_
      isHashed := isNew.isHashed
      live := ?_
      liveHashed := ?_
      backed := fun after programs => backed after (programs.card.symm ▸ isBacked) }
    isNew.isExpect (by rw [isStart]) (fun _ after touches => ends after (.inl ?_) fun name _ => ?_)
    fun after isTarget others => ends after (.inr isTarget) others
  · rw [World.read, keeps.tmp]
    exact isNew.found
  · rw [isStart, keeps.tmp]
    exact liveNow
  · rw [isStart]
    exact examined.isHashed
  · exact ⟨touches.nand.trans (keeps.nand.trans sameNand),
      touches.received.trans (keeps.received.trans sameReceived)⟩
  · rw [touches.card]

end Install

/-! ## The restore -/

/-- The live image is what an install makes of an original. -/
def Formed {size : Nat} (host : Host size) (orig live : Bytes) : Prop :=
  host.patch orig = .patched live ∨
    ∃ patched, host.patch orig = .patched patched ∧ host.applyBootOrder patched = .edited live

/-- An original that a restore accepts. -/
structure Eligible {size : Nat} (host : Host size) (card : Card) (live : Bytes)
    (entry : String × String) (orig : Bytes) : Prop where
  only : card.originals = [entry]
  holds : Holds host card entry orig
  isImage : host.checkImage orig = true
  sameDdr : host.ddrSame orig live = true

/-- What a restore needs to write an original. -/
structure Restorable {size : Nat} (host : Host size) (board : Board) (start : World size)
    (orig : Bytes) : Prop where
  arguments : board.arguments = []
  ground : (checkGround board).toOption ≠ none
  isImage : host.checkImage start.nand.1 = true
  eligible : ∃ entry, Eligible host start.card start.nand.1 entry orig
  formed : orig = start.nand.1 ∨ Formed host orig start.nand.1
  current : ∀ old, start.card.lookup (Program.currentName (host.shaText start.nand.1)) = some old →
    host.shaText old = host.shaText start.nand.1

/-- How a restore ends with status 0: the NAND holds the one original, or in a dry run
is as it was found. -/
structure Restored {size : Nat} (host : Host size) (board : Board) (start : World size)
    (after : World size) : Prop where
  intro ::
  eligible : ∃ entry orig, Eligible host start.card start.nand.1 entry orig ∧
    (after.nand.1 = orig ∨ board.dry = true ∧ after.nand = start.nand ∧
      after.received = start.received)

section Restore

variable {size : Nat} {setting : Setting size} {base world : World size}

theorem isRepairedForm_ensures (silent : Program.restored ∉ world.printed) {file : File}
    {orig live : Bytes} (isOrig : world.read file = some orig)
    (isLive : world.read (.tmp .live) = some live) :
    setting.Ensures (Program.isRepairedForm file) (fun ok after => Touches [.fromOrig] world after ∧
      (ok = true ∨ setting.failure ∨ ∀ patched, setting.host.patch orig = .patched patched →
        patched ≠ live ∧ after.tmp .fromOrig = some patched)) world := by
  refine (patch_ensures silent isOrig .fromOrig).bind fun status after ends => ?_
  rcases ends.ending with ⟨ending, rfl, isEnding, written⟩
  cases ending with
  | patched bytes =>
      have isOutput : after.read (.tmp .fromOrig) = some bytes := written bytes rfl
      have stillLive : after.read (.tmp .live) = some live :=
        (ends.touches.readTmp (by decide)).trans isLive
      refine (cmp_ensures ends.touches.truthful _ _).mono fun ok again ⟨same, judges⟩ => ?_
      cases same
      refine ⟨ends.touches, ?_⟩
      rcases judges.complete with passed | differs | failed
      · exact .inl passed
      · refine .inr (.inr fun patched isPatched => ?_)
        rw [← isEnding.resolve_right nofun] at isPatched
        cases isPatched
        rw [isOutput, stillLive] at differs
        exact ⟨by simpa using differs, isOutput⟩
      · exact .inr (.inl failed)
  | repaired =>
      refine ⟨ends.touches, .inr (.inr fun patched isPatched => ?_)⟩
      rw [← isEnding.resolve_right nofun] at isPatched
      cases isPatched
  | refused =>
      refine ⟨ends.touches, .inr ?_⟩
      refine isEnding.symm.imp And.right fun isRefused patched isPatched => ?_
      rw [← isRefused] at isPatched
      cases isPatched

theorem isRecoveryForm_ensures (silent : Program.restored ∉ world.printed) {live : Bytes}
    (isLive : world.read (.tmp .live) = some live) :
    setting.Ensures Program.isRecoveryForm (fun ok after => Touches [.fromRec] world after ∧
      (ok = true ∨ setting.failure ∨ ∀ patched, world.tmp .fromOrig = some patched →
        setting.host.applyBootOrder patched ≠ .edited live)) world := by
  have touches : Touches [] world world := Touches.refl silent
  refine (read_ensures touches.truthful _).bind fun content again ⟨same, isContent⟩ => ?_
  cases same
  rcases content with _ | patched
  · refine ⟨Touches.refl silent, .inr (.inr fun patched found => ?_)⟩
    cases isContent.trans found
  have isPatched : world.read (.tmp .fromOrig) = some patched := isContent.symm
  refine (applyBootOrder_ensures silent isPatched .fromRec).bind fun status after ends => ?_
  rcases ends.ending with ⟨ending, rfl, isEnding, written⟩
  have others : ∀ other, world.tmp .fromOrig = some other → other = patched :=
    fun other found => Option.some.inj (found.symm.trans isPatched)
  cases ending with
  | edited bytes =>
      have isOutput : after.read (.tmp .fromRec) = some bytes := written bytes rfl
      have stillLive : after.read (.tmp .live) = some live :=
        (ends.touches.readTmp (by decide)).trans isLive
      refine (cmp_ensures ends.touches.truthful _ _).mono fun ok again ⟨same, judges⟩ => ?_
      cases same
      refine ⟨ends.touches, ?_⟩
      rcases judges.complete with passed | differs | failed
      · exact .inl passed
      · refine .inr (.inr fun other found isEdited => ?_)
        rw [others other found, ← isEnding.resolve_right nofun] at isEdited
        cases isEdited
        rw [isOutput, stillLive] at differs
        simp at differs
      · exact .inr (.inl failed)
  | already =>
      refine ⟨ends.touches, .inr (.inr fun other found isEdited => ?_)⟩
      rw [others other found, ← isEnding.resolve_right nofun] at isEdited
      cases isEdited
  | refused =>
      refine ⟨ends.touches, .inr ?_⟩
      refine isEnding.symm.imp And.right fun isRefused other found isEdited => ?_
      rw [others other found, ← isRefused] at isEdited
      cases isEdited

theorem mustRemove_ensures (silent : Program.restored ∉ world.printed) (file : Temp) :
    setting.Ensures (Program.must (Program.remove (.tmp file)))
      (fun _ after => Touches [file] world after) world :=
  must_ensures ((remove_ensures silent file).mono fun _ _ ⟨touches, isOk⟩ =>
    ⟨touches.truthful, isOk, fun _ => touches⟩)

theorem checkForm_ensures (silent : Program.restored ∉ world.printed) {name : String}
    {orig live : Bytes} (isOrig : world.read (.card name) = some orig)
    (isLive : world.read (.tmp .live) = some live)
    (unformed : ¬Formed setting.host orig live → setting.failure) :
    setting.Ensures (Program.checkForm (.card name))
      (fun _ after => Touches [.fromOrig, .fromRec] world after) world := by
  refine (mustRemove_ensures silent .fromOrig).bind fun _ first touchesFirst => ?_
  refine (mustRemove_ensures touchesFirst.silent .fromRec).bind fun _ second touchesSecond => ?_
  have touches : Touches [.fromOrig, .fromRec] world second :=
    (touchesFirst.mono (by decide)).trans (touchesSecond.mono (by decide))
  have secondLive : second.read (.tmp .live) = some live :=
    (touches.readTmp (by decide)).trans isLive
  refine (isRepairedForm_ensures touches.silent ((touches.readCard name).trans isOrig)
    secondLive).bind fun isRepaired third ⟨touchesThird, repairedEnds⟩ => ?_
  have touches := touches.trans (touchesThird.mono (by decide))
  cases isRepaired with
  | true =>
      refine (logPatch_ensures touches).bind fun _ again same => ?_
      cases same
      exact (log_ensures touches (by decide)).mono fun _ _ quiet => quiet.1
  | false =>
  have thirdLive : third.read (.tmp .live) = some live :=
    (touchesThird.readTmp (by decide)).trans secondLive
  refine (isRecoveryForm_ensures touches.silent thirdLive).bind
    fun isRecovery last ⟨touchesLast, recoveryEnds⟩ => ?_
  have touches := touches.trans (touchesLast.mono (by decide))
  cases isRecovery with
  | true => exact (log_ensures touches (by decide)).mono fun _ _ quiet => quiet.1
  | false =>
  refine (echo_ensures touches.truthful _ _).bind fun _ again ⟨same, _⟩ => ?_
  cases same
  refine refuse_ensures touches (by decide) ?_
  rcases repairedEnds.resolve_left nofun with failed | notRepaired
  · exact failed
  rcases recoveryEnds.resolve_left nofun with failed | notRecovery
  · exact failed
  refine unformed fun formed => ?_
  rcases formed with isPatched | ⟨patched, isPatched, isEdited⟩
  · exact (notRepaired live isPatched).1 rfl
  · exact notRecovery patched (notRepaired patched isPatched).2 isEdited

/-- The one original is the one that a restore needs. -/
theorem Restorable.of_only {host : Host size} {board : Board} {entry : String × String}
    {other orig : Bytes} (ready : Restorable host board world other)
    (only : world.card.originals = [entry]) (holds : Holds host world.card entry orig) :
    Restorable host board world orig := by
  rcases ready.eligible with ⟨_, eligible⟩
  cases only.symm.trans eligible.only
  cases holds.found.symm.trans eligible.holds.found
  exact ready

theorem restoreFrom_ensures {board : Board} {post : Unit → World size → Prop}
    {entry : String × String} {orig : Bytes} {read : World size} {before : String}
    (isStart : setting.nand = world.nand)
    (backed : ∀ after, after.card.lookup (Program.currentName
      (setting.host.shaText world.nand.1)) = some world.nand.1 → setting.backed after)
    (success : ∀ after, Restored setting.host board world after → setting.success after)
    (examined : Examined setting world before read) (only : world.card.originals = [entry])
    (holds : Holds setting.host world.card entry orig) (isHashed : orig ∈ setting.hashed)
    (unfit : ¬Restorable setting.host board world orig → setting.failure) :
    setting.Ensures (Program.restoreFrom size board (setting.host.shaText world.nand.1)
      (.card entry.1)) post read := by
  have touches := examined.touches
  have isOrig : read.read (.card entry.1) = some orig := (touches.readCard _).trans holds.found
  have isLive : read.read (.tmp .live) = some world.nand.1 := examined.live
  refine (checkOriginal_ensures touches.silent isOrig isLive
    (fun wrong => unfit fun ready => ?_) fun wrong => unfit fun ready => ?_).bind
    fun _ again ⟨same, isImage, sameDdr⟩ => ?_
  · rcases ready.eligible with ⟨_, eligible⟩
    rw [eligible.isImage] at wrong
    cases wrong
  · rcases ready.eligible with ⟨_, eligible⟩
    rw [eligible.sameDdr] at wrong
    cases wrong
  cases same
  have eligible : Eligible setting.host world.card world.nand.1 entry orig :=
    ⟨only, holds, isImage, sameDdr⟩
  refine (cmp_ensures touches.truthful _ _).bind fun isSame again ⟨same, judges⟩ => ?_
  cases same
  rw [isOrig, isLive] at judges
  cases isSame with
  | true =>
      have sameImage : orig = world.nand.1 := by simpa using judges.sound rfl
      refine (log_ensures touches (by decide)).bind fun _ after ⟨quiet, _⟩ => ?_
      refine finish_ensures quiet.truthful (fun _ => success after ⟨entry, orig, eligible, .inl ?_⟩)
        fun other => absurd rfl other
      rw [quiet.nand, sameImage]
  | false =>
  refine (checkForm_ensures touches.silent isOrig isLive fun unformed => ?_).bind
    fun _ formed touchesForm => ?_
  · rcases judges.complete.resolve_left nofun with differs | failed
    · refine unfit fun ready => ready.formed.elim (fun same => ?_) unformed
      simp [same] at differs
    · exact failed
  have formedOrig : formed.read (.card entry.1) = some orig :=
    (touchesForm.readCard _).trans isOrig
  have formedLive : formed.read (.tmp .live) = some world.nand.1 :=
    (touchesForm.readTmp (by decide)).trans isLive
  refine (shaFile_ensures touchesForm.truthful _).bind fun expect again ⟨same, isExpect, _⟩ => ?_
  cases same
  have isExpect : expect = setting.host.shaText orig := by
    rw [isExpect, formedOrig]
    rfl
  refine (log_ensures touchesForm (append_ne (by decide))).bind fun _ logged ⟨quiet, sameTmp⟩ => ?_
  refine (progress_ensures quiet 30).bind fun _ again same => ?_
  cases same
  have loggedLive : logged.read (.tmp .live) = some world.nand.1 := by
    rw [World.read, sameTmp]
    exact formedLive
  have sameCard : logged.card = world.card := quiet.card.trans touches.card
  refine (saveVerifiedCopy_ensures quiet.silent loggedLive examined.isHashed rfl
    fun old found differs => unfit fun ready => differs (ready.current old ?_)).bind
    fun _ saved saves => ?_
  · rw [← sameCard]
    exact found
  have notCurrent : entry.1 ≠ Program.currentName (setting.host.shaText world.nand.1) := by
    rw [originalHash_iff.mp (mem_originals.mp (only ▸ List.mem_cons_self)).2]
    exact originalName_ne_current _ _
  have plain : PlainLines "dry run - would erase /dev/mtd5 and write the saved original"
      "readback verified; this unit's saved original preloader is installed"
      ["original preloader restored; power the device off before changing cards"] :=
    ⟨by decide, by decide, by decide⟩
  have ready : ReadyToWrite setting (.card entry.1) ⟨orig, holds.long⟩ saved := by
    refine ⟨saves.silent, fun same => (by cases same), ?_, isHashed, ?_, ?_, fun after programs =>
      backed after (programs.card.symm ▸ saves.copy)⟩
    · rw [World.read, saves.others _ notCurrent, sameCard]
      exact holds.found
    · rw [isStart, saves.tmp]
      exact loggedLive
    · rw [isStart]
      exact examined.isHashed
  refine writeTarget_ensures plain ready isExpect (by rw [isStart])
    (fun isDry after dried => success after ⟨entry, orig, eligible, .inr ⟨isDry, ?_, ?_⟩⟩)
    fun after isTarget _ => success after ⟨entry, orig, eligible, .inl ?_⟩
  · exact dried.nand.trans (saves.nand.trans (quiet.nand.trans touches.nand))
  · exact dried.received.trans (saves.received.trans (quiet.received.trans touches.received))
  · rw [isTarget]

theorem installRestore_ensures {board : Board} {post : Unit → World size → Prop}
    (silent : Program.restored ∉ world.printed) (isStart : setting.nand = world.nand)
    (backed : ∀ after, after.card.lookup (Program.currentName
      (setting.host.shaText world.nand.1)) = some world.nand.1 → setting.backed after)
    (success : ∀ after, Restored setting.host board world after → setting.success after)
    (unready : (¬∃ orig, Restorable setting.host board world orig) → setting.failure) :
    setting.Ensures (Program.installRestore size board) post world := by
  refine (examineLive_ensures silent (by decide)
    (fun wrong => unready fun ⟨_, ready⟩ => wrong ready.arguments)
    (fun wrong => unready fun ⟨_, ready⟩ => ready.ground wrong)
    (fun wrong => unready fun ⟨_, ready⟩ => ?_)).bind fun before read examined => ?_
  · rw [ready.isImage] at wrong
    cases wrong
  have isLive : read.read (.tmp .live) = some world.nand.1 := examined.live
  have touches := examined.touches
  refine (collectOriginals_ensures touches fun entry member unverified =>
    unready fun ⟨orig, ready⟩ => ?_).bind fun names again ⟨same, isNames, verified⟩ => ?_
  · rcases ready.eligible with ⟨only, eligible⟩
    rw [touches.card] at member unverified
    rw [eligible.only, List.mem_singleton] at member
    exact unverified ⟨orig, member ▸ eligible.holds⟩
  cases same
  rw [touches.card] at isNames verified
  have single : (∃ orig, Restorable setting.host board world orig) → ∃ name, names = [name] := by
    rintro ⟨orig, ready⟩
    rcases ready.eligible with ⟨entry, eligible⟩
    rw [isNames, eligible.only]
    exact ⟨entry.1, rfl⟩
  rcases names with _ | ⟨name, _ | ⟨second, rest⟩⟩
  · refine refuse_ensures touches (by decide) (unready fun ready => ?_)
    exact (single ready).elim fun _ same => nomatch same
  · rcases originals_eq_singleton isNames.symm with ⟨want, only⟩
    rw [only, List.forall_mem_singleton] at verified
    rcases verified with ⟨orig, holds, isHashed⟩
    rw [examined.before_eq]
    exact restoreFrom_ensures isStart backed success examined only holds isHashed fun unfit =>
      unready fun ⟨other, ready⟩ => unfit (ready.of_only only holds)
  · refine refuse_ensures touches (by decide) (unready fun ready => ?_)
    exact (single ready).elim fun _ same => nomatch same

end Restore

/-! ## Runs -/

section Runs

variable {size : Nat}

/-- The byte strings that a run hashes with `sha256sum`. -/
def hashedIn (issued : List (Call × World size)) : Set Bytes :=
  { bytes | ∃ entry ∈ issued, ∃ file, entry.1 = .sha256sum file ∧
    entry.2.read file = some bytes }

/-- The two scripts. -/
inductive Mode
  | maskrom
  | restore
  deriving DecidableEq, Repr

def Mode.program (mode : Mode) (size : Nat) (board : Board) : Program Unit :=
  match mode with
  | .maskrom => Program.installMaskrom size board
  | .restore => Program.installRestore size board

/-- The image that a script is to write. -/
def Mode.target (mode : Mode) (host : Host size) (live : Bytes) (card : Card) : Option Bytes :=
  match mode with
  | .maskrom =>
      match host.patch live with
      | .patched patched => (host.applyBootOrder patched).image
      | .repaired => (host.applyBootOrder live).image
      | .refused => none
  | .restore =>
      match card.originals with
      | [entry] => card.lookup entry.1
      | _ => none

/-- The copies that have to be on the card before the NAND changes. -/
def Mode.Backed (mode : Mode) (host : Host size) (live : Bytes) (card : Card) : Prop :=
  match mode with
  | .maskrom => Installer.Backed host live card
  | .restore => card.lookup (Program.currentName (host.shaText live)) = some live

/-- How a script ends with status 0. -/
def Mode.Success (mode : Mode) (host : Host size) (board : Board) (start after : World size) : Prop :=
  match mode with
  | .maskrom => Installed host start after
  | .restore => Restored host board start after

/-- Any choices, and any exit. -/
def Mode.setting (mode : Mode) (host : Host size) (board : Board) (start : World size)
    {hashed : Set Bytes} (equalSha : Set.InjOn host.shaText hashed) : Setting size where
  host := host
  allowed _ := true
  hashed := hashed
  equalSha := equalSha
  nand := start.nand
  backed world := mode.Backed host start.nand.1 world.card
  success := mode.Success host board start
  failure := True
  faulty _ _ _ := trivial

theorem program_ensures (mode : Mode) (host : Host size) (board : Board) {start : World size}
    (silent : Program.restored ∉ start.printed) {hashed : Set Bytes}
    (equalSha : Set.InjOn host.shaText hashed) {post : Unit → World size → Prop} :
    (mode.setting host board start equalSha).Ensures (mode.program size board) post start := by
  cases mode with
  | maskrom =>
      exact installMaskrom_ensures trivial silent rfl (fun _ backed => backed) fun _ success => success
  | restore =>
      exact installRestore_ensures silent rfl (fun _ backed => backed) (fun _ success => success)
        fun _ => trivial

theorem Recovers.target {host : Host size} {card : Card} {live target : Bytes} {stock : Bool}
    (recovers : Recovers host card live target stock) :
    Mode.target .maskrom host live card = some target := by
  cases recovers with
  | stock isPatched isEdited => simp [Mode.target, isPatched, isEdited, Edited.image]
  | repaired isRepaired isEdited => simp [Mode.target, isRepaired, isEdited, Edited.image]

/-- A script that ends with status 0 and has sent the NAND a command has written its
target. -/
theorem Mode.Success.target {mode : Mode} {host : Host size} {board : Board} {start after : World size}
    (success : mode.Success host board start after) (fresh : start.received = [])
    (sent : after.received ≠ []) :
    mode.target host start.nand.1 start.card = some after.nand.1 := by
  cases mode with
  | maskrom =>
      cases success with
      | already _ _ _ received _ => exact absurd (received.trans fresh) sent
      | recovery _ recovers _ _ _ _ nand _ _ =>
          rcases nand with ⟨_, received⟩ | isTarget
          · exact absurd (received.trans fresh) sent
          · rw [isTarget]
            exact recovers.target
  | restore =>
      rcases success.eligible with ⟨entry, orig, eligible, isOrig | ⟨_, _, received⟩⟩
      · rw [isOrig, Mode.target, eligible.only]
        exact eligible.holds.found
      · exact absurd (received.trans fresh) sent

/-- What is known of every run of a script: its copies are on the card whenever the
NAND is about to change, an exit with status 0 tells what it left, and so does a report
of the restored preloader. -/
theorem run_keeps (mode : Mode) (host : Host size) (board : Board) {start : World size}
    (silent : Program.restored ∉ start.printed) (choices : List (Choice size))
    (equalSha : Set.InjOn host.shaText
      (hashedIn ((mode.program size board).issued (machine host) choices start))) :
    (∀ entry ∈ (mode.program size board).issued (machine host) choices start,
      entry.1.changesNand → mode.Backed host start.nand.1 entry.2.card) ∧
    let run := (mode.program size board).exec (machine host) choices start
    (run.1 = .exited 0 → mode.Success host board start run.2) ∧
    (Program.restored ∈ run.2.printed → run.2.nand = start.nand) := by
  have ensures : (mode.setting host board start equalSha).Ensures (mode.program size board)
      (fun _ _ => False) start := program_ensures mode host board silent equalSha
  have run := Script.Ensures.exec ensures choices fun entry member file bytes isSum found =>
    ⟨entry, member, file, isSum, found⟩
  refine ⟨run.1, ?_⟩
  have meets := run.2
  change Outcome.Meets _ _ ((mode.program size board).exec (machine host) choices start) at meets
  generalize (mode.program size board).exec (machine host) choices start = last at meets ⊢
  rcases last with ⟨_ | status | _, after⟩
  · exact meets.elim
  · exact ⟨fun isZero => meets.2.1 (Outcome.exited.inj isZero), meets.1⟩
  · exact ⟨nofun, meets⟩

/-- Every run of both scripts, however its operations end. -/
theorem installer_transaction (mode : Mode) (host : Host size) (board : Board) (nand : Flash size)
    (card : Card) (tmp : Temp → Option Bytes) (choices : List (Choice size))
    (equalSha : Set.InjOn host.shaText (hashedIn ((mode.program size board).issued (machine host)
      choices (startWorld nand card tmp)))) :
    (∀ entry ∈ (mode.program size board).issued (machine host) choices (startWorld nand card tmp),
      entry.1.changesNand → mode.Backed host nand.1 entry.2.card) ∧
    let run := (mode.program size board).exec (machine host) choices (startWorld nand card tmp)
    (run.1 = .exited 0 → run.2.received ≠ [] →
      mode.target host nand.1 card = some run.2.nand.1) ∧
    (Program.restored ∈ run.2.printed → run.2.nand = nand) := by
  rcases run_keeps mode host board List.not_mem_nil choices equalSha with ⟨backed, success, report⟩
  exact ⟨backed, fun isZero sent => (success isZero).target rfl sent, report⟩

end Runs

/-! ### A small install -/

/-- A digest that tells images apart by their first byte. -/
def sampleSha : Preloader.Sha256 where
  digest bytes := bytes.headD 0 :: List.replicate 31 0
  digest_length _ := rfl

/-- Images of one byte: stock is 1, repaired is 2, and recovery is 3. -/
def sampleHost : Host 1 where
  sha := sampleSha
  checkImage image := image.length == 1
  ddrSame _ _ := true
  patch image := if image = [1] then .patched [2] else .repaired
  applyBootOrder image := if image = [2] then .edited [3] else .already
  checkImage_length _ long := beq_iff_eq.mp long
  ddrSame_refl _ _ := rfl

def sampleBoard : Board where
  arguments := []
  baseosDry := none
  tools := requiredTools
  procMtd := [["mtd5:", "00200000", "00020000", "\"spl\""]]
  sysfs key :=
    [("name", "spl"), ("size", "2097152"), ("erasesize", "131072"), ("writesize", "2048"),
      ("oobsize", "64"), ("bad_blocks", "0")].lookup key
  capacity := some "80"
  online := []

def sampleStart : World 1 :=
  startWorld ⟨[1], rfl⟩ ∅ fun _ => none

/-- Whether everything that is hashed is one of some images. -/
def hashesOnly {size : Nat} (images : List Bytes) (issued : List (Call × World size)) : Bool :=
  issued.all fun entry =>
    match entry.1 with
    | .sha256sum file => (entry.2.read file).all (images.contains ·)
    | _ => true

theorem mem_of_hashesOnly {size : Nat} {images : List Bytes} {issued : List (Call × World size)}
    (only : hashesOnly images issued = true) {bytes : Bytes} (isHashed : bytes ∈ hashedIn issued) :
    bytes ∈ images := by
  rcases isHashed with ⟨⟨call, world⟩, member, file, isSum, found⟩
  have checked := List.all_eq_true.mp only _ member
  dsimp only at isSum found
  cases isSum
  simpa [found] using checked

theorem hashedIn_injOn {size : Nat} {host : Host size} {images : List Bytes}
    {issued : List (Call × World size)} (only : hashesOnly images issued = true)
    (differ : (images.map host.shaText).Nodup) : Set.InjOn host.shaText (hashedIn issued) :=
  fun _ first _ second same =>
    List.inj_on_of_nodup_map differ (mem_of_hashesOnly only first) (mem_of_hashesOnly only second) same

/-- An install in which every operation does what it should. -/
def sampleChoices : List (Choice 1) :=
  List.replicate 60 (Choice.clean 1)

theorem installer_transaction_sample :
    let run := (Mode.maskrom.program 1 sampleBoard).exec (machine sampleHost) sampleChoices sampleStart
    run.1 = .exited 0 ∧ run.2.received ≠ [] ∧
    Mode.maskrom.target sampleHost [1] ∅ = some run.2.nand.1 := by
  have only : hashesOnly [[1], [3]] ((Mode.maskrom.program 1 sampleBoard).issued
      (machine sampleHost) sampleChoices sampleStart) = true := by decide +kernel
  have differ : ([[1], [3]].map sampleHost.shaText).Nodup := by decide +kernel
  have ends : ((Mode.maskrom.program 1 sampleBoard).exec (machine sampleHost) sampleChoices
      sampleStart).1 = .exited 0 := by decide +kernel
  have sent : ((Mode.maskrom.program 1 sampleBoard).exec (machine sampleHost) sampleChoices
      sampleStart).2.received ≠ [] := by decide +kernel
  exact ⟨ends, sent, (installer_transaction .maskrom sampleHost sampleBoard ⟨[1], rfl⟩ ∅ (fun _ => none)
    sampleChoices (hashedIn_injOn only differ)).2.1 ends sent⟩

end Zlyme.Installer
