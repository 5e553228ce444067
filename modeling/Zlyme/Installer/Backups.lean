import Zlyme.Installer.Contract

/-! # What is established before the first erase

The live image is read and checked, the originals on the card are verified, and the
copies on the card are verified. A refusal needs a verdict against the image, or an
operation that may fail.
-/

namespace Zlyme.Installer

open Foundation Foundation.Script

section Steps

variable {size : Nat} {setting : Setting size} {files : List Temp} {base world : World size}

/-! ## Checks -/

/-- A check passes only where its verdict is right; where it does not pass, the verdict
is wrong or an operation has failed. -/
structure Judges (setting : Setting size) (verdict ok : Bool) : Prop where
  sound : ok = true → verdict = true
  complete : ok = true ∨ verdict = false ∨ setting.failure

theorem Judges.exact (verdict : Bool) : Judges setting verdict verdict :=
  ⟨id, by cases verdict <;> simp⟩

theorem Judges.tool {choice : Choice size} (allowed : setting.allowed choice = true)
    (verdict : Bool) : Judges setting verdict (choice.ok && verdict) := by
  refine ⟨fun passed => (Bool.and_eq_true_iff.mp passed).2, ?_⟩
  rcases ok_or_failure setting allowed with isOk | failed
  · rw [isOk]
    cases verdict <;> simp
  · exact .inr (.inr failed)

theorem orRefuse_ensures {check : Program Bool} {verdict : Bool} {line : String}
    (touches : Touches files base world) (plain : line ≠ Program.restored)
    (wrong : verdict = false → setting.failure)
    (checks : setting.Ensures check (fun ok after => after = world ∧ Judges setting verdict ok)
      world) :
    setting.Ensures (Program.orRefuse check line) (fun _ after => after = world ∧ verdict = true)
      world := by
  refine checks.bind fun ok after ⟨same, judges⟩ => ?_
  cases same
  cases ok with
  | true => exact ⟨rfl, judges.sound rfl⟩
  | false =>
      refine refuse_ensures touches plain ?_
      exact (judges.complete.resolve_left nofun).elim wrong id

theorem checkImage_ensures (truthful : setting.Truthful world) (image : File) :
    setting.Ensures (Program.checkImage image) (fun ok after => after = world ∧
      Judges setting ((world.read image).any setting.host.checkImage) ok) world :=
  ensures_call truthful nofun fun _ _ allowed => ⟨rfl, Judges.tool allowed _⟩

/-- The verdict of `--ddr-cmp` on two files. -/
def Host.ddrVerdict (host : Host size) (world : World size) (left right : File) : Bool :=
  (world.read left).any fun first => (world.read right).any fun second => host.ddrSame first second

theorem ddrCmp_ensures (truthful : setting.Truthful world) (left right : File) :
    setting.Ensures (Program.ddrCmp left right) (fun ok after => after = world ∧
      Judges setting (setting.host.ddrVerdict world left right) ok) world :=
  ensures_call truthful nofun fun _ _ allowed => ⟨rfl, Judges.tool allowed _⟩

theorem cmp_ensures (truthful : setting.Truthful world) (left right : File) :
    setting.Ensures (Program.cmp left right) (fun ok after => after = world ∧
      Judges setting ((world.read left).isSome && world.read left == world.read right) ok)
      world := by
  refine (read_ensures truthful left).bind fun first after ⟨same, isFirst⟩ => ?_
  cases same
  refine (read_ensures truthful right).bind fun second after ⟨same, isSecond⟩ => ?_
  cases same
  cases isFirst
  cases isSecond
  exact ⟨rfl, Judges.exact _⟩

theorem verdict_of_read {check : Bytes → Bool} {content : Option Bytes} {image : Bytes}
    (found : content = some image) : content.any check = check image := by
  rw [found]
  rfl

theorem ddrVerdict_of_read {left right : File} {first second : Bytes}
    (isFirst : world.read left = some first) (isSecond : world.read right = some second) :
    setting.host.ddrVerdict world left right = setting.host.ddrSame first second := by
  rw [Host.ddrVerdict, isFirst, isSecond]
  rfl

/-! ## Image tools -/

theorem toolOutput_touches (silent : Program.restored ∉ world.printed) (choice : Choice size)
    (out : Temp) (written : Option Bytes) : Touches [out] world (world.toolOutput choice out written) := by
  cases written <;>
    exact (Touches.refl silent).writeTmp List.mem_cons_self _

/-- A tool ends as it should with this image, unless an operation fails. -/
theorem ending_cases {choice : Choice size} (allowed : setting.allowed choice = true) {Ending : Type}
    (ending refused : Ending) :
    (if choice.ok then ending else refused) = ending ∨
      (if choice.ok then ending else refused) = refused ∧ setting.failure := by
  rcases ok_or_failure setting allowed with isOk | failed
  · exact .inl (if_pos isOk)
  · cases choice.ok with
    | true => exact .inl rfl
    | false => exact .inr ⟨rfl, failed⟩

/-- What is left of a run of `patch-preloader.sh`. -/
structure PatchEnds (setting : Setting size) (image : Bytes) (out : Temp) (before after : World size)
    (status : PatchStatus) : Prop where
  touches : Touches [out] before after
  ending : ∃ ending, status = ending.status ∧
    (ending = setting.host.patch image ∨ ending = .refused ∧ setting.failure) ∧
    ∀ bytes, ending = .patched bytes → after.tmp out = some bytes

theorem patch_ensures (silent : Program.restored ∉ world.printed) {file : File} {image : Bytes}
    (found : world.read file = some image) (out : Temp) :
    setting.Ensures (Program.patch file out)
      (fun status after => PatchEnds setting image out world after status) world := by
  refine ensures_call (fun reported => absurd reported silent) nofun fun _ choice allowed => ?_
  simp only [Call.perform, found, Option.map_some, Option.getD_some]
  refine ⟨toolOutput_touches silent choice out _, _, rfl, ending_cases allowed _ _, ?_⟩
  intro bytes patched
  rw [patched]
  exact Function.update_self ..

/-- What is left of a run of `apply-boot-order.sh`. -/
structure EditEnds (setting : Setting size) (image : Bytes) (out : Temp) (before after : World size)
    (status : Nat) : Prop where
  touches : Touches [out] before after
  ending : ∃ ending, status = ending.status ∧
    (ending = setting.host.applyBootOrder image ∨ ending = .refused ∧ setting.failure) ∧
    ∀ bytes, ending = .edited bytes → after.tmp out = some bytes

theorem applyBootOrder_ensures (silent : Program.restored ∉ world.printed) {file : File}
    {image : Bytes} (found : world.read file = some image) (out : Temp) :
    setting.Ensures (Program.applyBootOrder file out)
      (fun status after => EditEnds setting image out world after status) world := by
  refine ensures_call (fun reported => absurd reported silent) nofun fun _ choice allowed => ?_
  simp only [Call.perform, found, Option.map_some, Option.getD_some]
  refine ⟨toolOutput_touches silent choice out _, _, rfl, ending_cases allowed _ _, ?_⟩
  intro bytes edited
  rw [edited]
  exact Function.update_self ..

/-! ## The live image -/

theorem ground_ensures (touches : Touches files base world) {board : Board}
    (grounded : (checkGround board).toOption = none → setting.failure) :
    setting.Ensures (Program.ground board) (fun _ after => Touches files base after ∧
      after.tmp = world.tmp) world := by
  have plain := checkGround_plain board
  rw [Program.ground]
  cases checked : checkGround board with
  | ok line =>
      rw [checked] at plain
      exact log_ensures touches plain
  | error line =>
      rw [checked] at plain
      exact refuse_ensures touches plain (grounded (congrArg Except.toOption checked))

theorem readNand_ensures (silent : Program.restored ∉ world.printed) (out : Temp) :
    setting.Ensures (Program.readNand out) (fun ok after => Touches [out] world after ∧
      (ok = true ∨ setting.failure) ∧ (ok = true → ∃ bytes, after.tmp out = some bytes ∧
        (bytes.length = size → bytes = world.nand.1) ∧ (bytes = world.nand.1 ∨ setting.failure)))
      world := by
  refine ensures_call (fun reported => absurd reported silent) nofun fun _ choice allowed => ?_
  have whole : world.nand.1.take size = world.nand.1 :=
    List.take_of_length_le (Nat.le_of_eq world.nand.2)
  simp only [Call.perform]
  split_ifs with isOk
  · refine ⟨(Touches.refl silent).writeTmp List.mem_cons_self _, .inl rfl, fun _ =>
      ⟨_, Function.update_self .., fun long => ?_, ?_⟩⟩
    · rw [List.length_take, world.nand.2] at long
      exact List.take_of_length_le (by rw [world.nand.2]; omega)
    · refine (clean_or_failure setting allowed).imp_left fun clean => ?_
      subst clean
      exact whole
  · exact ⟨(Touches.refl silent).writeTmp List.mem_cons_self _,
      .inr ((ok_or_failure setting allowed).resolve_left isOk), nofun⟩

/-- What is known of the live image once it is checked. -/
structure Examined (setting : Setting size) (base : World size) (before : String)
    (after : World size) : Prop where
  touches : Touches [.live] base after
  live : after.tmp .live = some base.nand.1
  before_eq : before = setting.host.shaText base.nand.1
  isHashed : base.nand.1 ∈ setting.hashed
  isImage : setting.host.checkImage base.nand.1 = true

theorem readLive_ensures (silent : Program.restored ∉ world.printed) :
    setting.Ensures Program.readLive (fun before after => Touches [.live] world after ∧
      ∃ bytes, after.tmp .live = some bytes ∧ (bytes.length = size → bytes = world.nand.1) ∧
        (bytes = world.nand.1 ∨ setting.failure) ∧ before = setting.host.shaText bytes ∧
        bytes ∈ setting.hashed) world := by
  refine (must_ensures ((readNand_ensures silent .live).mono
    fun ok after ⟨touches, isOk, found⟩ => ⟨touches.truthful, isOk, fun ok =>
      And.intro touches (found ok)⟩)).bind fun _ after ⟨touches, bytes, found, whole, isNand⟩ => ?_
  refine (shaFile_ensures touches.truthful (.tmp .live)).bind
    fun before again ⟨same, isSum, isHashed⟩ => ?_
  cases same
  have isSum : before = setting.host.shaText bytes := by
    rw [isSum, World.read, found]
    rfl
  refine (log_ensures touches (append_ne (by decide))).bind ?_
  rintro _ last ⟨touches, sameTmp⟩
  refine ⟨touches, bytes, ?_, whole, isNand, isSum, isHashed bytes found⟩
  rw [sameTmp, found]

theorem examineLive_ensures (silent : Program.restored ∉ world.printed) {board : Board}
    {title : String} (plain : title ≠ Program.restored)
    (called : board.arguments ≠ [] → setting.failure)
    (grounded : (checkGround board).toOption = none → setting.failure)
    (isImage : setting.host.checkImage world.nand.1 = false → setting.failure) :
    setting.Ensures (Program.examineLive board title) (Examined setting world) world := by
  rw [Program.examineLive]
  split_ifs with arguments
  · exact ⟨fun reported => absurd reported silent, nofun, fun _ => called arguments⟩
  have touches : Touches [.live] world world := Touches.refl silent
  refine (log_ensures touches plain).bind fun _ after ⟨touches, _⟩ => ?_
  refine (progress_ensures touches 5).bind fun _ again same => ?_
  cases same
  refine (ground_ensures touches grounded).bind fun _ after ⟨touches, _⟩ => ?_
  refine (progress_ensures touches 10).bind fun _ again same => ?_
  cases same
  refine (readLive_ensures touches.silent).bind fun before after ⟨read, bytes, found, whole, isNand,
    isBefore, isHashed⟩ => ?_
  rw [touches.nand] at whole isNand
  have isLive : after.read (.tmp .live) = some bytes := found
  have touches := touches.trans read
  refine (orRefuse_ensures touches (by decide) (fun wrong => ?_)
    (checkImage_ensures touches.truthful _)).bind fun _ again ⟨same, passed⟩ => ?_
  · rw [verdict_of_read isLive] at wrong
    rcases isNand with same | failed
    · exact isImage (same ▸ wrong)
    · exact failed
  cases same
  rw [verdict_of_read isLive] at passed
  have same := whole (setting.host.checkImage_length bytes passed)
  subst same
  refine (progress_ensures touches 20).bind fun _ again same => ?_
  cases same
  exact ⟨touches, found, isBefore, isHashed, passed⟩

/-! ## The originals -/

/-- A file that `collect_originals` passes, with the image that it holds. -/
structure Holds (host : Host size) (card : Card) (entry : String × String) (image : Bytes) :
    Prop where
  found : card.lookup entry.1 = some image
  named : Program.isSha256Name entry.2 = true
  isSum : host.shaText image = entry.2
  long : image.length = size

theorem checkOriginals_ensures (touches : Touches files base world) (entries : List (String × String))
    (present : ∀ entry ∈ entries, ∃ image, world.card.lookup entry.1 = some image)
    (unverified : ∀ entry ∈ entries, (¬∃ image, Holds setting.host world.card entry image) →
      setting.failure) :
    setting.Ensures (Program.checkOriginals size entries) (fun _ after => after = world ∧
      ∀ entry ∈ entries, ∃ image, Holds setting.host world.card entry image ∧
        image ∈ setting.hashed) world := by
  induction entries with
  | nil => exact ⟨rfl, nofun⟩
  | cons entry rest induction =>
      rcases entry with ⟨name, want⟩
      rw [List.forall_mem_cons] at present unverified
      rcases present with ⟨⟨image, found⟩, present⟩
      have isImage : world.read (.card name) = some image := found
      rw [Program.checkOriginals]
      split_ifs with named
      · refine refuse_ensures touches (append_ne (by decide)) (unverified.1 ?_)
        rintro ⟨other, holds⟩
        rw [holds.named] at named
        exact absurd named (by decide)
      refine (shaFile_ensures touches.truthful _).bind fun sum again ⟨same, isSum, isHashed⟩ => ?_
      cases same
      rw [isImage] at isSum isHashed
      split_ifs with differs
      · refine refuse_ensures touches (append_ne (by decide)) (unverified.1 ?_)
        rintro ⟨other, holds⟩
        cases found.symm.trans holds.found
        exact differs (isSum.trans holds.isSum)
      refine (read_ensures touches.truthful _).bind fun content again ⟨same, isContent⟩ => ?_
      cases same
      rw [isImage] at isContent
      cases isContent
      split_ifs with short
      · refine refuse_ensures touches (append_ne (by decide)) (unverified.1 ?_)
        rintro ⟨other, holds⟩
        cases found.symm.trans holds.found
        exact short (congrArg some holds.long)
      refine (mustStay_ensures touches.truthful (echo_ensures touches.truthful _ _)).bind
        fun _ again same => ?_
      cases same
      refine (induction present unverified.2).mono fun _ after ⟨same, later⟩ => ⟨same, ?_⟩
      rw [List.forall_mem_cons]
      refine ⟨⟨image, ⟨found, ?_, ?_, ?_⟩, isHashed image rfl⟩, later⟩
      · simpa using named
      · exact isSum.symm.trans (Decidable.of_not_not differs)
      · exact Option.some.inj (Decidable.of_not_not short)

theorem mem_originals {names : List String} {entry : String × String} :
    entry ∈ Program.originals names ↔
      entry.1 ∈ names ∧ Preloader.Program.originalHash entry.1 = some entry.2 := by
  rcases entry with ⟨name, want⟩
  simp only [Program.originals, List.mem_filterMap, Option.map_eq_some_iff, Prod.mk.injEq]
  constructor
  · rintro ⟨_, member, _, found, rfl, rfl⟩
    exact ⟨member, found⟩
  · rintro ⟨member, found⟩
    exact ⟨name, member, want, found, rfl, rfl⟩

/-- The originals on a card. -/
def Card.originals (card : Card) : List (String × String) :=
  Program.originals card.keys

theorem present_of_mem_originals {card : Card} {entry : String × String}
    (member : entry ∈ card.originals) : ∃ image, card.lookup entry.1 = some image :=
  Option.isSome_iff_exists.mp (AList.lookup_isSome.mpr (AList.mem_keys.mpr (mem_originals.mp member).1))

theorem originals_eq_singleton {card : Card} {name : String}
    (only : card.originals.map Prod.fst = [name]) : ∃ want, card.originals = [(name, want)] := by
  rcases List.map_eq_singleton_iff.mp only with ⟨⟨_, want⟩, isOnly, rfl⟩
  exact ⟨want, isOnly⟩

theorem collectOriginals_ensures (touches : Touches files base world)
    (unverified : ∀ entry ∈ world.card.originals,
      (¬∃ image, Holds setting.host world.card entry image) → setting.failure) :
    setting.Ensures (Program.collectOriginals size) (fun names after => after = world ∧
      names = world.card.originals.map Prod.fst ∧ ∀ entry ∈ world.card.originals,
        ∃ image, Holds setting.host world.card entry image ∧ image ∈ setting.hashed) world := by
  refine (mustStay_ensures touches.truthful (echo_ensures touches.truthful _ _)).bind
    fun _ again same => ?_
  cases same
  refine (names_ensures touches.truthful).bind fun names again ⟨same, isNames⟩ => ?_
  cases same
  cases isNames
  exact (checkOriginals_ensures touches _ (fun _ => present_of_mem_originals) unverified).bind
    fun _ after ⟨same, held⟩ => ⟨same, rfl, held⟩

/-! ## Copies on the card -/

/-- A copy of an image is on the card, and nothing else has changed. -/
structure Saves (dest : String) (image : Bytes) (world after : World size) : Prop where
  nand : after.nand = world.nand
  received : after.received = world.received
  tmp : after.tmp = world.tmp
  copy : after.card.lookup dest = some image
  others : ∀ name, name ≠ dest → after.card.lookup name = world.card.lookup name
  silent : Program.restored ∉ after.printed

theorem Saves.truthful {dest : String} {image : Bytes} (saves : Saves dest image base world) :
    setting.Truthful world :=
  fun reported => absurd reported saves.silent

theorem partialWrite_others (card : Card) (dest : String) (content : Option Bytes) {name : String}
    (other : name ≠ dest) : (Preloader.partialWrite card dest content).lookup name = card.lookup name := by
  cases content with
  | none => rfl
  | some bytes => exact AList.lookup_insert_ne other

/-- What a copy that may fail leaves on the card. -/
structure Copies (setting : Setting size) (dest : String) (image : Bytes) (world after : World size) :
    Prop where
  nand : after.nand = world.nand
  received : after.received = world.received
  tmp : after.tmp = world.tmp
  copy : after.card.lookup dest = some image ∨ setting.failure
  others : ∀ name, name ≠ dest → after.card.lookup name = world.card.lookup name
  silent : Program.restored ∉ after.printed

theorem Copies.truthful {dest : String} {image : Bytes} (copies : Copies setting dest image base world) :
    setting.Truthful world :=
  fun reported => absurd reported copies.silent

theorem copy_ensures (silent : Program.restored ∉ world.printed) {image : Bytes} {source : File}
    (found : world.read source = some image) (dest : String) :
    setting.Ensures (Program.copy source dest)
      (fun ok after => Copies setting dest image world after ∧ (ok = true ∨ setting.failure))
      world := by
  refine ensures_call (fun reported => absurd reported silent) nofun fun _ choice allowed => ?_
  cases isOk : choice.ok with
  | true =>
      simp only [Call.perform, isOk, found]
      refine ⟨⟨rfl, rfl, rfl, ?_, fun name other => AList.lookup_insert_ne other, silent⟩,
        .inl trivial⟩
      refine (clean_or_failure setting allowed).imp_left fun clean => ?_
      subst clean
      exact AList.lookup_insert _
  | false =>
      have failed : setting.failure := (ok_or_failure setting allowed).resolve_left (by simp [isOk])
      simp only [Call.perform, isOk]
      exact ⟨⟨rfl, rfl, rfl, .inr failed, fun name other => partialWrite_others _ _ _ other, silent⟩,
        .inr failed⟩

/-- The hash of the copy decides. -/
theorem verifyCopy_ensures {dest expect : String} {image : Bytes} (isHashed : image ∈ setting.hashed)
    (isExpect : expect = setting.host.shaText image)
    (copies : Copies setting dest image base world) :
    setting.Ensures (do
      if (← Program.shaFile (.card dest)) ≠ expect then
        Program.refuse ("copy to the card did not verify: " ++ dest)
      else Program.log ("saved " ++ dest)) (fun _ after => Saves dest image base after) world := by
  refine (shaFile_ensures copies.truthful _).bind fun sum again ⟨same, isSum, contentHashed⟩ => ?_
  cases same
  have touches : Touches [] world world := Touches.refl copies.silent
  split_ifs with differs
  · refine refuse_ensures touches (append_ne (by decide)) ?_
    refine copies.copy.resolve_left fun copied => differs ?_
    rw [isSum, isExpect, World.read, copied]
    rfl
  · have copied := eq_of_sumOf setting contentHashed isHashed
      (isSum.symm.trans ((Decidable.of_not_not differs).trans isExpect))
    refine (log_ensures touches (append_ne (by decide))).mono ?_
    rintro _ after ⟨quiet, sameTmp⟩
    exact {
      nand := quiet.nand.trans copies.nand
      received := quiet.received.trans copies.received
      tmp := sameTmp.trans copies.tmp
      copy := by
        rw [quiet.card]
        exact copied
      others := by
        rw [quiet.card]
        exact copies.others
      silent := quiet.silent }

theorem saveVerifiedCopy_ensures (silent : Program.restored ∉ world.printed) {source : File}
    {dest expect : String} {image : Bytes} (found : world.read source = some image)
    (isHashed : image ∈ setting.hashed) (isExpect : expect = setting.host.shaText image)
    (clash : ∀ old, world.card.lookup dest = some old →
      setting.host.shaText old ≠ setting.host.shaText image → setting.failure) :
    setting.Ensures (Program.saveVerifiedCopy source dest expect)
      (fun _ after => Saves dest image world after) world := by
  have truthful : setting.Truthful world := fun reported => absurd reported silent
  refine (read_ensures truthful _).bind fun old again ⟨same, isOld⟩ => ?_
  cases same
  rcases old with _ | old
  · refine (copy_ensures silent found dest).bind fun ok after ⟨copies, isOk⟩ => ?_
    cases ok with
    | true =>
        refine (mustStay_ensures copies.truthful (issueSync_ensures copies.truthful)).bind
          fun _ again same => ?_
        cases same
        exact verifyCopy_ensures isHashed isExpect copies
    | false => exact verifyCopy_ensures isHashed isExpect copies
  · have isOld : world.card.lookup dest = some old := isOld.symm
    refine (shaFile_ensures truthful _).bind fun sum again ⟨same, isSum, oldHashed⟩ => ?_
    cases same
    have touches : Touches [] world world := Touches.refl silent
    have isSum : sum = setting.host.shaText old := by
      rw [isSum, World.read, isOld]
      rfl
    split_ifs with differs
    · refine refuse_ensures touches ?_ (clash old isOld fun same => differs ?_)
      · rw [String.append_assoc]
        exact append_ne (by decide)
      · rw [isSum, same, isExpect]
    · have sameHash := isSum.symm.trans ((Decidable.of_not_not differs).trans isExpect)
      have same := setting.equalSha (oldHashed old isOld) isHashed sameHash
      refine (log_ensures touches (append_ne (by decide))).mono ?_
      rintro _ after ⟨quiet, sameTmp⟩
      exact {
        nand := quiet.nand
        received := quiet.received
        tmp := sameTmp
        copy := by
          rw [quiet.card, isOld, same]
        others := by
          rw [quiet.card]
          exact fun _ _ => rfl
        silent := quiet.silent }

/-- The copies of the live image are on the card, and nothing else has changed. -/
structure Keeps (saved : List String) (live : Bytes) (world after : World size) : Prop where
  nand : after.nand = world.nand
  received : after.received = world.received
  tmp : after.tmp = world.tmp
  copies : ∀ name ∈ saved, after.card.lookup name = some live
  others : ∀ name, name ∉ saved → after.card.lookup name = world.card.lookup name
  silent : Program.restored ∉ after.printed

theorem Saves.keeps {name : String} {live : Bytes} {after : World size}
    (saves : Saves name live world after) : Keeps [name] live world after where
  nand := saves.nand
  received := saves.received
  tmp := saves.tmp
  copies other member := List.mem_singleton.mp member ▸ saves.copy
  others other absent := saves.others other (by simpa using absent)
  silent := saves.silent

theorem Keeps.saves {saved : List String} {name : String} {live : Bytes} {after : World size}
    (keeps : Keeps saved live base world) (saves : Saves name live world after) :
    Keeps (saved ++ [name]) live base after where
  nand := saves.nand.trans keeps.nand
  received := saves.received.trans keeps.received
  tmp := saves.tmp.trans keeps.tmp
  copies other member := by
    by_cases same : other = name
    · rw [same, saves.copy]
    · rw [saves.others other same]
      exact keeps.copies other ((List.mem_append.mp member).resolve_right (by simpa using same))
  others other absent := by
    rw [List.mem_append, not_or, List.mem_singleton] at absent
    rw [saves.others other absent.2, keeps.others other absent.1]
  silent := saves.silent

end Steps

end Zlyme.Installer
