import Zlyme.Foundation.Execution
import Zlyme.Installer.Transaction

/-! # Install, then restore

What an install leaves is enough for a restore: the card has one original, the NAND
holds it or what the install makes of it, and every current backup has the hash in its
name. Further installs keep that, and a restore writes the original back.
-/

namespace Zlyme.Installer

open Foundation Foundation.Script Foundation.Execution

variable {size : Nat}

/-! ## Names and hashes -/

theorem currentName_inj {first second : String}
    (same : Program.currentName first = Program.currentName second) : first = second := by
  have stems := (String.append_left_inj ".img").mp same
  exact (String.append_right_inj "preloader-current-").mp stems

theorem hexByte_digits (byte : UInt8) :
    ∀ digit ∈ Preloader.hexByte byte, digit ∈ "0123456789abcdef".toList := by
  have digits : ∀ value : Fin 16, Nat.digitChar value ∈ "0123456789abcdef".toList := by decide
  intro digit member
  have bound := byte.toNat_lt
  rcases List.mem_cons.mp member with rfl | member
  · exact digits ⟨byte.toNat / 16, by omega⟩
  · cases List.mem_singleton.mp member
    exact digits ⟨byte.toNat % 16, by omega⟩

theorem isSha256Name_shaText (host : Host size) (image : Bytes) :
    Program.isSha256Name (host.shaText image) = true := by
  rw [Program.isSha256Name, Bool.and_eq_true, List.all_eq_true]
  refine ⟨decide_eq_true (shaText_length host image), fun digit member => ?_⟩
  rw [Host.shaText, String.toList_ofList, List.mem_flatMap] at member
  rcases member with ⟨byte, _, inByte⟩
  exact List.contains_iff_mem.mpr (hexByte_digits byte digit inByte)

theorem originals_nodup (card : Card) : card.originals.Nodup := by
  refine List.Nodup.filterMap (fun first second entry isFirst isSecond => ?_) card.nodupKeys
  rcases Option.map_eq_some_iff.mp isFirst with ⟨_, _, rfl⟩
  rcases Option.map_eq_some_iff.mp isSecond with ⟨_, _, same⟩
  exact (congrArg Prod.fst same).symm

/-- A card with one original under the name of its hash. -/
theorem originals_of_only {card : Card} {want : String} {image : Bytes}
    (found : card.lookup (Program.originalName want) = some image)
    (only : ∀ other, (card.lookup (Program.originalName other)).isSome = true → other = want) :
    card.originals = [(Program.originalName want, want)] := by
  have own : ∀ entry ∈ card.originals, entry = (Program.originalName want, want) := by
    rintro ⟨name, other⟩ member
    rcases mem_originals.mp member with ⟨isName, isHash⟩
    have isOriginal : name = Program.originalName other := originalHash_iff.mp isHash
    subst isOriginal
    rw [only other (AList.lookup_isSome.mpr (AList.mem_keys.mpr isName))]
  have present : (Program.originalName want, want) ∈ card.originals :=
    mem_originals.mpr ⟨AList.mem_keys.mp (AList.lookup_isSome.mp (by rw [found]; rfl)),
      originalHash_iff.mpr rfl⟩
  have nodup := originals_nodup card
  rcases isList : card.originals with _ | ⟨first, rest⟩
  · rw [isList] at present
    cases present
  · rw [isList, List.forall_mem_cons] at own
    rw [isList, List.nodup_cons] at nodup
    rw [own.1, List.cons.injEq, List.eq_nil_iff_forall_not_mem]
    refine ⟨rfl, fun entry member => nodup.1 ?_⟩
    rw [own.1, ← own.2 entry member]
    exact member

/-! ## Devices -/

/-- What is left between two runs. -/
structure Device (size : Nat) where
  nand : Flash size
  card : Card

/-- A run of a script, with the files that it finds in `/tmp`. -/
structure Invocation (size : Nat) where
  board : Board
  tmp : Temp → Option Bytes
  choices : List (Choice size)

def Device.start (device : Device size) (invocation : Invocation size) : World size :=
  startWorld device.nand device.card invocation.tmp

def Device.run (host : Host size) (mode : Mode) (device : Device size)
    (invocation : Invocation size) : Outcome Unit × World size :=
  (mode.program size invocation.board).exec (machine host) invocation.choices
    (device.start invocation)

/-- The byte strings that the run hashes. -/
def Device.hashes (host : Host size) (mode : Mode) (device : Device size)
    (invocation : Invocation size) : Set Bytes :=
  hashedIn ((mode.program size invocation.board).issued (machine host) invocation.choices
    (device.start invocation))

def Device.after (host : Host size) (mode : Mode) (device : Device size)
    (invocation : Invocation size) : Device size where
  nand := (device.run host mode invocation).2.nand
  card := (device.run host mode invocation).2.card

theorem Device.run_success {host : Host size} {mode : Mode} {device : Device size}
    {invocation : Invocation size}
    (equalSha : Set.InjOn host.shaText (device.hashes host mode invocation))
    (ends : (device.run host mode invocation).1 = .exited 0) :
    mode.Success host invocation.board (device.start invocation)
      (device.run host mode invocation).2 :=
  (run_keeps mode host invocation.board List.not_mem_nil invocation.choices equalSha).2.1 ends

/-! ## What installs keep -/

/-- The current backups hold images with the hashes in their names. -/
def CurrentSound (host : Host size) (card : Card) : Prop :=
  ∀ image bytes, card.lookup (Program.currentName (host.shaText image)) = some bytes →
    host.shaText bytes = host.shaText image

/-- The original of a stock preloader is on the card, and the NAND holds it or what
the install makes of it. -/
structure Undoable (host : Host size) (orig target : Flash size) (device : Device size) : Prop where
  stock : ∃ patched, host.patch orig.1 = .patched patched ∧
    host.applyBootOrder patched = .edited target.1
  isImage : host.checkImage orig.1 = true
  isTarget : host.checkImage target.1 = true
  sameDdr : host.ddrSame orig.1 target.1 = true
  distinct : host.shaText target.1 = host.shaText orig.1 → target = orig
  found : device.card.lookup (Program.originalName (host.shaText orig.1)) = some orig.1
  only : ∀ other, (device.card.lookup (Program.originalName other)).isSome = true →
    other = host.shaText orig.1
  nand : device.nand = orig ∨ device.nand = target
  sound : CurrentSound host device.card

/-- A card on which copies of one image are saved. -/
structure Saved (host : Host size) (live : Bytes) (stock : Bool) (card after : Card) : Prop where
  copies : ∀ name ∈ savedNames host live stock, after.lookup name = some live
  others : ∀ name, name ∉ savedNames host live stock → name ≠ Program.installerName →
    after.lookup name = card.lookup name

theorem currentName_mem_savedNames {host : Host size} {live : Bytes} {stock : Bool} {hash : String} :
    Program.currentName hash ∈ savedNames host live stock ↔ hash = host.shaText live := by
  cases stock with
  | false =>
      exact List.mem_singleton.trans ⟨currentName_inj, fun same => congrArg _ same⟩
  | true =>
      refine List.mem_cons.trans ((or_iff_right fun same => ?_).trans
        (List.mem_singleton.trans ⟨currentName_inj, fun same => congrArg _ same⟩))
      exact originalName_ne_current _ _ same.symm

theorem originalName_mem_savedNames {host : Host size} {live : Bytes} {stock : Bool} {hash : String}
    (member : Program.originalName hash ∈ savedNames host live stock) :
    stock = true ∧ hash = host.shaText live := by
  cases stock with
  | false => exact absurd (List.mem_singleton.mp member) (originalName_ne_current _ _)
  | true =>
      rcases List.mem_cons.mp member with same | member
      · exact ⟨rfl, originalName_inj same⟩
      · exact absurd (List.mem_singleton.mp member) (originalName_ne_current _ _)

theorem CurrentSound.saved {host : Host size} {live : Bytes} {stock : Bool} {card after : Card}
    (sound : CurrentSound host card) (saved : Saved host live stock card after) :
    CurrentSound host after := by
  intro image bytes found
  by_cases member : Program.currentName (host.shaText image) ∈ savedNames host live stock
  · rw [saved.copies _ member] at found
    cases found
    exact (currentName_mem_savedNames.mp member).symm
  · rw [saved.others _ member (currentName_ne_installer _)] at found
    exact sound image bytes found

/-- The first install. -/
theorem undoable_of_installed {host : Host size} {start after : World size} {patched : Bytes}
    (stock : host.patch start.nand.1 = .patched patched) (sound : CurrentSound host start.card)
    (installed : Installed host start after) :
    ∃ target, Undoable host start.nand target ⟨after.nand, after.card⟩ := by
  cases installed with
  | already isRepaired =>
      rw [stock] at isRepaired
      cases isRepaired
  | @recovery isStock target isImage recovers isTarget sameDdr distinct own nand copies others =>
      have saved : Saved host start.nand.1 isStock start.card after.card := ⟨copies, others⟩
      cases recovers with
      | repaired isRepaired =>
          rw [stock] at isRepaired
          cases isRepaired
      | stock isPatched isEdited =>
          refine ⟨target, {
            stock := ⟨_, isPatched, isEdited⟩
            isImage := isImage
            isTarget := isTarget
            sameDdr := sameDdr
            distinct := distinct
            found := copies _ List.mem_cons_self
            only := fun other present => ?_
            nand := nand.imp_left And.left
            sound := sound.saved saved }⟩
          by_cases member : Program.originalName other ∈ savedNames host start.nand.1 true
          · exact (originalName_mem_savedNames member).2
          · rw [others _ member (originalName_ne_installer _)] at present
            have listed : (Program.originalName other, other) ∈ start.card.originals :=
              mem_originals.mpr ⟨AList.mem_keys.mp (AList.lookup_isSome.mp present),
                originalHash_iff.mpr rfl⟩
            rcases own rfl with none | ⟨want, only⟩
            · rw [none] at listed
              cases listed
            · rw [only, List.mem_singleton] at listed
              exact originalName_inj (congrArg Prod.fst listed)

section Undoable

variable {host : Host size} {orig target : Flash size} {device : Device size}

theorem Undoable.originals (undoable : Undoable host orig target device) :
    device.card.originals =
      [(Program.originalName (host.shaText orig.1), host.shaText orig.1)] :=
  originals_of_only undoable.found undoable.only

theorem Undoable.holds (undoable : Undoable host orig target device) :
    Holds host device.card (Program.originalName (host.shaText orig.1), host.shaText orig.1)
      orig.1 where
  found := undoable.found
  named := isSha256Name_shaText host orig.1
  isSum := rfl
  long := orig.2

/-- The image that a repeated install makes is the one that the first one made. -/
theorem Undoable.recovers (undoable : Undoable host orig target device) {stock : Bool}
    {again : Flash size} (recovers : Recovers host device.card device.nand.1 again.1 stock)
    (own : stock = true → OwnOriginal host device.nand.1 device.card) :
    again = target ∧ (stock = true → device.nand = orig) := by
  rcases undoable.stock with ⟨patched, isPatched, isEdited⟩
  cases recovers with
  | stock againPatched againEdited =>
      have isOrig : device.nand = orig := by
        rcases undoable.nand with isOrig | isTarget
        · exact isOrig
        · rw [isTarget]
          apply undoable.distinct
          rcases own rfl with none | ⟨want, only⟩
          · cases undoable.originals.symm.trans none
          · have names := congrArg (List.map Prod.fst) (undoable.originals.symm.trans only)
            have sameName := List.head_eq_of_cons_eq names
            rw [isTarget] at sameName
            exact (originalName_inj sameName).symm
      rw [isOrig, isPatched] at againPatched
      cases againPatched
      rw [isEdited] at againEdited
      exact ⟨Subtype.ext (Edited.edited.inj againEdited).symm, fun _ => isOrig⟩
  | repaired isRepaired againEdited only holds isImage sameDdr againPatched =>
      cases undoable.originals.symm.trans only
      cases undoable.found.symm.trans holds.found
      rw [isPatched] at againPatched
      cases againPatched
      rw [isEdited] at againEdited
      exact ⟨Subtype.ext (Edited.edited.inj againEdited).symm, nofun⟩

/-- A repeated install that ends with status 0. -/
theorem Undoable.installed (undoable : Undoable host orig target device) {start after : World size}
    (sameNand : start.nand = device.nand) (sameCard : start.card = device.card)
    (installed : Installed host start after) :
    Undoable host orig target ⟨after.nand, after.card⟩ := by
  cases installed with
  | already _ _ nand _ card =>
      rw [nand, card, sameNand, sameCard]
      exact undoable
  | @recovery stock again isImage recovers isTarget sameDdr distinct own nand copies others =>
      have saved : Saved host start.nand.1 stock start.card after.card := ⟨copies, others⟩
      rw [sameNand, sameCard] at recovers own saved
      rcases undoable.recovers recovers own with ⟨rfl, isOrig⟩
      refine { undoable with
        found := ?_
        only := fun other present => ?_
        nand := ?_
        sound := undoable.sound.saved saved }
      · by_cases member : Program.originalName (host.shaText orig.1) ∈
            savedNames host device.nand.1 stock
        · have isLive := isOrig (originalName_mem_savedNames member).1
          exact (saved.copies _ member).trans (congrArg (fun live => some live.1) isLive)
        · exact (saved.others _ member (originalName_ne_installer _)).trans undoable.found
      · by_cases member : Program.originalName other ∈ savedNames host device.nand.1 stock
        · rcases originalName_mem_savedNames member with ⟨isStock, isLive⟩
          rw [isLive, isOrig isStock]
        · rw [saved.others _ member (originalName_ne_installer _)] at present
          exact undoable.only other present
      · rcases nand with ⟨same, _⟩ | isAgain
        · rw [same, sameNand]
          exact undoable.nand
        · exact .inr isAgain

/-! ## The restore -/

/-- What a restore needs is there. -/
theorem Undoable.restorable (undoable : Undoable host orig target device) {board : Board}
    {start : World size} (sameNand : start.nand = device.nand) (sameCard : start.card = device.card)
    (arguments : board.arguments = []) (ground : (checkGround board).toOption ≠ none) :
    Restorable host board start orig.1 := by
  rcases undoable.stock with ⟨patched, isPatched, isEdited⟩
  have live : host.checkImage device.nand.1 = true ∧ host.ddrSame orig.1 device.nand.1 = true ∧
      (orig.1 = device.nand.1 ∨ Formed host orig.1 device.nand.1) := by
    rcases undoable.nand with isOrig | isTarget
    · rw [isOrig]
      exact ⟨undoable.isImage, host.ddrSame_refl _ undoable.isImage, .inl rfl⟩
    · rw [isTarget]
      exact ⟨undoable.isTarget, undoable.sameDdr, .inr (.inr ⟨patched, isPatched, isEdited⟩)⟩
  rw [← sameNand] at live
  have eligible : Eligible host start.card start.nand.1
      (Program.originalName (host.shaText orig.1), host.shaText orig.1) orig.1 := by
    refine ⟨(congrArg Card.originals sameCard).trans undoable.originals, ?_, undoable.isImage,
      live.2.1⟩
    rw [sameCard]
    exact undoable.holds
  refine ⟨arguments, ground, live.1, ⟨_, eligible⟩, live.2.2, ?_⟩
  rw [sameCard]
  exact undoable.sound start.nand.1

/-- A restore that ends with status 0 has written the original. -/
theorem Undoable.restored (undoable : Undoable host orig target device) {board : Board}
    {start after : World size} (sameCard : start.card = device.card) (wet : board.dry = false)
    (restored : Restored host board start after) : after.nand = orig := by
  rcases restored.eligible with ⟨entry, image, eligible, isImage⟩
  have only := eligible.only
  have holds := eligible.holds
  rw [sameCard] at only holds
  cases undoable.originals.symm.trans only
  cases undoable.found.symm.trans holds.found
  rcases isImage with isImage | ⟨isDry, _⟩
  · exact Subtype.ext isImage
  · rw [wet] at isDry
    cases isDry

end Undoable

/-- No operation fails, and a refusal needs a restore that is not possible. -/
def cleanSetting (host : Host size) (board : Board) (start : World size) {hashed : Set Bytes}
    (equalSha : Set.InjOn host.shaText hashed) : Setting size where
  host := host
  allowed choice := decide (choice = Choice.clean size)
  hashed := hashed
  equalSha := equalSha
  nand := start.nand
  backed _ := True
  success := Restored host board start
  failure := ¬∃ orig, Restorable host board start orig
  faulty _ allowed other := absurd (of_decide_eq_true allowed) other

theorem cleanRestore_ends (host : Host size) (board : Board) {start : World size} {length : Nat}
    (silent : Program.restored ∉ start.printed)
    (equalSha : Set.InjOn host.shaText (hashedIn ((Program.installRestore size board).issued
      (machine host) (List.replicate length (Choice.clean size)) start)))
    (ends : ((Program.installRestore size board).exec (machine host)
      (List.replicate length (Choice.clean size)) start).1 ≠ .stopped)
    {orig : Bytes} (restorable : Restorable host board start orig) :
    let run := (Program.installRestore size board).exec (machine host)
      (List.replicate length (Choice.clean size)) start
    run.1 = .exited 0 ∧ Restored host board start run.2 := by
  have admitted : (Program.installRestore size board).admits (machine host)
      (fun _ choice _ => decide (choice = Choice.clean size))
      (List.replicate length (Choice.clean size)) start = true :=
    admits_of_mem fun choice member _ _ => decide_eq_true (List.eq_of_mem_replicate member)
  have ensures : (cleanSetting host board start equalSha).Ensures
      (Program.installRestore size board) (fun _ _ => False) start :=
    installRestore_ensures silent rfl (fun _ _ => trivial) (fun _ restored => restored) id
  have sameIssued := issued_restrict admitted
  have sameExec := exec_restrict admitted
  have meets := (Script.Ensures.exec ensures (List.replicate length (Choice.clean size))
    fun entry member file bytes isSum found => ⟨entry, sameIssued ▸ member, file, isSum, found⟩).2
  replace meets := (congrArg (Outcome.Meets _ _) sameExec).mp meets
  generalize (Program.installRestore size board).exec (machine host)
    (List.replicate length (Choice.clean size)) start = last at meets ends ⊢
  rcases last with ⟨_ | status | _, after⟩
  · exact meets.elim
  · by_cases isZero : status = 0
    · exact ⟨congrArg _ isZero, meets.2.1 isZero⟩
    · exact absurd ⟨orig, restorable⟩ (meets.2.2 isZero)
  · exact absurd rfl ends

/-! ## Runs -/

/-- A further install ends with status 0, or leaves the card and the NAND as it found
them. -/
def Repeats (host : Host size) (hashed : Set Bytes) (device : Device size)
    (invocation : Invocation size) : Prop :=
  device.hashes host .maskrom invocation ⊆ hashed ∧
    ((device.run host .maskrom invocation).1 = .exited 0 ∨
      device.after host .maskrom invocation = device)

theorem undoable_step {host : Host size} {orig target : Flash size} {hashed : Set Bytes}
    (equalSha : Set.InjOn host.shaText hashed) {device : Device size} {invocation : Invocation size}
    (undoable : Undoable host orig target device) (again : Repeats host hashed device invocation) :
    Undoable host orig target (device.after host .maskrom invocation) := by
  rcases again with ⟨hashes, ends | same⟩
  · exact undoable.installed rfl rfl (Device.run_success (equalSha.mono hashes) ends)
  · rw [same]
    exact undoable

/-- After an install of a stock preloader, and any further ones, the restore selects
the original. If it ends with status 0, it has written it; and without a failing
operation it does end with status 0. -/
theorem install_then_restore (host : Host size) (device : Device size) {patched : Bytes}
    (stock : host.patch device.nand.1 = .patched patched) (sound : CurrentSound host device.card)
    {hashed : Set Bytes} (equalSha : Set.InjOn host.shaText hashed) (first : Invocation size)
    (hashes : device.hashes host .maskrom first ⊆ hashed)
    (succeeds : (device.run host .maskrom first).1 = .exited 0) (repeats : List (Invocation size))
    (along : Along (Device.after host .maskrom) (Repeats host hashed)
      (device.after host .maskrom first) repeats) :
    let last := run (Device.after host .maskrom) (device.after host .maskrom first) repeats
    Mode.restore.target host last.nand.1 last.card = some device.nand.1 ∧
    (∀ restore : Invocation size, restore.board.dry = false →
      last.hashes host .restore restore ⊆ hashed →
      (last.run host .restore restore).1 = .exited 0 →
      (last.after host .restore restore).nand = device.nand) ∧
    ∀ board tmp, board.arguments = [] → (checkGround board).toOption ≠ none → board.dry = false →
      ∃ length, ∀ more, length ≤ more →
        let restore : Invocation size := ⟨board, tmp, List.replicate more (Choice.clean size)⟩
        last.hashes host .restore restore ⊆ hashed →
        (last.run host .restore restore).1 = .exited 0 ∧
          (last.after host .restore restore).nand = device.nand := by
  intro last
  rcases undoable_of_installed stock sound
    (Device.run_success (equalSha.mono hashes) succeeds) with ⟨target, undoable⟩
  have undoable : Undoable host device.nand target last :=
    along_run_invariant _ (fun _ _ undoable again => undoable_step equalSha undoable again) along
      undoable
  refine ⟨?_, ?_, ?_⟩
  · rw [Mode.target, undoable.originals]
    exact undoable.found
  · intro restore wet hashes ends
    exact undoable.restored rfl wet (Device.run_success (equalSha.mono hashes) ends)
  · intro board tmp arguments ground wet
    have answers : ∀ call world, ∃ result after,
        machine host call (Choice.clean size) world = (some result, after) :=
      fun _ _ => ⟨_, _, rfl⟩
    rcases exists_ending answers (Program.installRestore size board) (startWorld last.nand last.card tmp) with ⟨length, ending⟩
    refine ⟨length, fun more enough hashes => ?_⟩
    have ends := cleanRestore_ends host board
      List.not_mem_nil (equalSha.mono hashes) (ending more enough)
      (undoable.restorable rfl rfl arguments ground)
    exact ⟨ends.1, undoable.restored rfl wet ends.2⟩

/-! ### A small round trip -/

def sampleDevice : Device 1 where
  nand := sampleStart.nand
  card := ∅

def sampleInvocation : Invocation 1 where
  board := sampleBoard
  tmp _ := none
  choices := sampleChoices

/-- Stock is installed twice and restored. -/
theorem install_then_restore_sample :
    let step := Device.after sampleHost .maskrom
    let last := step (step sampleDevice sampleInvocation) sampleInvocation
    last.nand.1 = [3] ∧ (last.after sampleHost .restore sampleInvocation).nand = sampleDevice.nand := by
  have differ : ([[1], [3]].map sampleHost.shaText).Nodup := by decide +kernel
  have equalSha : Set.InjOn sampleHost.shaText { bytes | bytes ∈ [[1], [3]] } :=
    fun _ first _ second same => List.inj_on_of_nodup_map differ first second same
  have sound : CurrentSound sampleHost sampleDevice.card := by
    intro image bytes found
    cases found
  have hashes : ∀ {mode : Mode} {device : Device 1},
      hashesOnly [[1], [3]] ((mode.program 1 sampleBoard).issued (machine sampleHost)
        sampleChoices (device.start sampleInvocation)) = true →
      device.hashes sampleHost mode sampleInvocation ⊆ { bytes | bytes ∈ [[1], [3]] } :=
    fun only _ isHashed => mem_of_hashesOnly only isHashed
  refine ⟨by decide +kernel, ?_⟩
  exact (install_then_restore sampleHost sampleDevice (by decide : sampleHost.patch [1] = .patched [2]) sound equalSha
    sampleInvocation (hashes (by decide +kernel)) (by decide +kernel) [sampleInvocation]
    ⟨⟨hashes (by decide +kernel), .inl (by decide +kernel)⟩, trivial⟩).2.1 sampleInvocation
      (by decide) (hashes (by decide +kernel)) (by decide +kernel)

end Zlyme.Installer
