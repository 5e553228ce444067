import Zlyme.Preloader.WalkExceptions

/-! # What the recovery state handles

`recovery_state` catches `SystemExit` around its tests. The bytes of the images and the text
of the manifest decide whether something else comes out of them.
-/

namespace Zlyme.Preloader

open Foundation Foundation.Bytes

/-! ## The boot order -/

/-- The tree can be walked, and the strings of its one boot-order property are UTF-8. -/
structure OrderReadable (blob : Bytes) : Prop where
  tree : TreeReadable blob
  strings : HeaderFits blob → ∀ items path name value pos,
    Walks blob (stringsOf blob) ((readHeader blob).offStruct + (readHeader blob).sizeStruct)
      (readHeader blob).offStruct [] items →
    items.filter FdtItem.isBootOrder = [.prop path name value pos] →
    value.getLast? = some 0 → ∀ part ∈ (splitNul value).dropLast, utf8Valid [] part = true

theorem handled_mapM_decode_iff {parts : List Bytes} :
    Handled (parts.mapM decode) ↔ ∀ part ∈ parts, utf8Valid [] part = true := by
  induction parts with
  | nil => exact ⟨fun _ => nofun, fun _ => .ok []⟩
  | cons part parts induction =>
      rw [List.mapM_cons, handled_bind_iff, handled_decode_iff, List.forall_mem_cons]
      refine and_congr_right fun valid => ?_
      have decoded : decode part = .ok part := if_pos valid
      constructor
      · exact fun goesOn => induction.mp (handled_bind_iff.mp (goesOn part decoded)).1
      · intro later value _
        exact handled_bind_iff.mpr ⟨induction.mpr later, fun _ _ => .ok _⟩

theorem handled_stringlist_iff {value : Bytes} :
    Handled (stringlist value) ↔
      (value.getLast? = some 0 → ∀ part ∈ (splitNul value).dropLast, utf8Valid [] part = true) := by
  rw [stringlist]
  split
  · rename_i unterminated
    exact ⟨fun _ terminated => absurd terminated unterminated, fun _ => .exit _⟩
  · rename_i terminated
    rw [handled_mapM_decode_iff]
    exact ⟨fun valid _ => valid, fun valid => valid (Decidable.of_not_not terminated)⟩

theorem walk_of_walks {blob : Bytes} {items : List FdtItem} (fits : HeaderFits blob)
    (walks : Walks blob (stringsOf blob)
      ((readHeader blob).offStruct + (readHeader blob).sizeStruct)
      (readHeader blob).offStruct [] items) :
    walk blob = .ok { header := readHeader blob, strings := stringsOf blob, items } := by
  have looped := (walkLoop_eq_ok_iff _ _ _ (Nat.le_refl _)).mpr walks
  have magic : ¬(blob.length < 40 ∨ blob.take 4 ≠ fdtMagic) :=
    not_or.mpr ⟨Nat.not_lt.mpr fits.long, not_not_intro fits.magic⟩
  have range : ¬((readHeader blob).total ≠ blob.length ∨
      (readHeader blob).offStruct + (readHeader blob).sizeStruct > blob.length ∨
      (readHeader blob).offStr + (readHeader blob).sizeStr > blob.length) :=
    not_or.mpr ⟨not_not_intro fits.total, not_or.mpr
      ⟨Nat.not_lt.mpr fits.structInside, Nat.not_lt.mpr fits.stringsInside⟩⟩
  rw [walk, if_neg magic]
  dsimp only
  rw [if_neg range]
  exact bind_eq_ok.mpr ⟨items, looped, rfl⟩

theorem WalkFacts.fits {blob : Bytes} {walked : Walked} (facts : WalkFacts blob walked) :
    HeaderFits blob ∧ walked.strings = stringsOf blob ∧
      Walks blob (stringsOf blob) ((readHeader blob).offStruct + (readHeader blob).sizeStruct)
        (readHeader blob).offStruct [] walked.items := by
  have strings := facts.strings
  have walks := facts.walks
  rw [facts.header] at strings
  rw [facts.header, strings] at walks
  exact ⟨⟨facts.long, facts.magic, facts.header ▸ facts.total, facts.header ▸ facts.structInside,
    facts.header ▸ facts.stringsInside⟩, strings, walks⟩

theorem handled_bootOrder_iff {blob : Bytes} : Handled (bootOrder blob) ↔ OrderReadable blob := by
  rw [bootOrder, handled_bind_iff, handled_walk_iff]
  constructor
  · rintro ⟨tree, goesOn⟩
    refine ⟨tree, fun fits items path name value pos walks once terminated => ?_⟩
    have handled := goesOn _ (walk_of_walks fits walks)
    simp only [once] at handled
    exact handled_stringlist_iff.mp (handled_bind_iff.mp handled).1 terminated
  · intro readable
    refine ⟨readable.tree, fun walked accepted => ?_⟩
    rcases (walk_eq_ok accepted).fits with ⟨fits, -, walks⟩
    split
    · rename_i path name value pos once
      exact handled_bind_iff.mpr ⟨handled_stringlist_iff.mpr
        (readable.strings fits _ _ _ _ _ walks once), fun _ _ => .ok _⟩
    · exact .exit _

theorem handled_requireRightSlot {rightSlot blob : Bytes} (readable : TreeReadable blob) :
    Handled (requireRightSlot rightSlot blob) :=
  handled_bind_iff.mpr ⟨handled_walk_iff.mpr readable, fun _ _ =>
    handled_refuseIf_bind.mpr fun _ => handled_refuseIf_bind.mpr fun _ =>
      handled_refuseIf _ _⟩

/-! ## The edit -/

/-- `struct.pack_into` has room, and the value is an unsigned word. -/
structure PackFits (buffer : Bytes) (off : Nat) (value : Int) : Prop where
  nonneg : 0 ≤ value
  small : value < 2 ^ 32
  room : off + 4 ≤ buffer.length

theorem packInto_of_fits {buffer : Bytes} {off : Nat} {value : Int}
    (fits : PackFits buffer off value) :
    packInto buffer off value = .ok (splice buffer off (packBe32 value.toNat)) :=
  if_pos ⟨fits.nonneg, fits.small, fits.room⟩

theorem handled_packInto_iff {buffer : Bytes} {off : Nat} {value : Int} :
    Handled (packInto buffer off value) ↔ PackFits buffer off value := by
  constructor
  · intro handled
    rw [packInto] at handled
    split at handled
    · rename_i fits
      exact ⟨fits.1, fits.2.1, fits.2.2⟩
    · cases handled
  · intro fits
    rw [packInto_of_fits fits]
    exact .ok _

theorem splice_packBe32_length {buffer : Bytes} {off : Nat} {value : Int}
    (fits : PackFits buffer off value) :
    (splice buffer off (packBe32 value.toNat)).length = buffer.length :=
  splice_length fits.room

/-- The four words that the edit writes fit their places. -/
structure WordsFit (blob : Bytes) (walked : Walked) (pos : Nat) (old new : Bytes) : Prop where
  head : PackFits (slice blob pos (pos + 12)) 4 new.length
  total : PackFits (rebuiltBody blob walked pos old (newHead blob pos new) new) 4
    (walked.header.total + valueShift pos old new)
  offStr : PackFits (rebuiltBody blob walked pos old (newHead blob pos new) new) 12
    (walked.header.offStr + valueShift pos old new)
  sizeStruct : PackFits (rebuiltBody blob walked pos old (newHead blob pos new) new) 36
    (walked.header.sizeStruct + valueShift pos old new)

theorem PackFits.of_length {buffer other : Bytes} {off : Nat} {value : Int}
    (fits : PackFits buffer off value) (same : other.length = buffer.length) :
    PackFits other off value :=
  ⟨fits.nonneg, fits.small, same ▸ fits.room⟩

theorem handled_rebuiltTree_iff {blob : Bytes} {walked : Walked} {pos : Nat} {old new : Bytes} :
    Handled (rebuiltTree blob walked pos old new) ↔ WordsFit blob walked pos old new := by
  constructor
  · intro handled
    rcases handled_bind_iff.mp handled with ⟨head, handled⟩
    have headFits := handled_packInto_iff.mp head
    rcases handled_bind_iff.mp (handled _ (packInto_of_fits headFits)) with ⟨total, handled⟩
    have totalFits := handled_packInto_iff.mp total
    rcases handled_bind_iff.mp (handled _ (packInto_of_fits totalFits)) with ⟨offStr, handled⟩
    have offStrFits := handled_packInto_iff.mp offStr
    have sizeFits := handled_packInto_iff.mp (handled _ (packInto_of_fits offStrFits))
    have afterTotal := splice_packBe32_length totalFits
    have afterOffStr := splice_packBe32_length offStrFits
    exact ⟨headFits, totalFits, offStrFits.of_length afterTotal.symm,
      sizeFits.of_length (afterOffStr.trans afterTotal).symm⟩
  · intro fits
    have afterTotal := splice_packBe32_length fits.total
    have offStrFits := fits.offStr.of_length afterTotal
    have afterOffStr := splice_packBe32_length offStrFits
    rw [rebuiltTree, packInto_of_fits fits.head, ok_bind]
    change Handled (packInto (rebuiltBody blob walked pos old (newHead blob pos new) new) 4
      (walked.header.total + valueShift pos old new) >>= _)
    rw [packInto_of_fits fits.total, ok_bind, packInto_of_fits offStrFits, ok_bind]
    exact handled_packInto_iff.mpr
      (fits.sizeStruct.of_length (afterOffStr.trans afterTotal))

/-- What `_replace_boot_order` needs of a tree that it gets to edit. -/
structure EditReadable (rightSlot blob : Bytes) : Prop where
  order : OrderReadable blob
  words : ∀ walked pos old, walk blob = .ok walked → bootOrder blob = .ok (pos, old, sourceOrder) →
    sourceOrder ≠ [rightSlot] → requireRightSlot rightSlot blob = .ok () →
    WordsFit blob walked pos old (rightSlot ++ [0])
  rebuilt : ∀ walked pos old out, walk blob = .ok walked →
    bootOrder blob = .ok (pos, old, sourceOrder) →
    sourceOrder ≠ [rightSlot] → requireRightSlot rightSlot blob = .ok () →
    rebuiltTree blob walked pos old (rightSlot ++ [0]) = .ok out →
    (out.length : Int) = walked.header.total + valueShift pos old (rightSlot ++ [0]) →
    OrderReadable out

theorem handled_replaceBootOrder_iff {rightSlot blob : Bytes} :
    Handled (replaceBootOrder rightSlot blob) ↔ EditReadable rightSlot blob := by
  rw [replaceBootOrder, handled_bind_iff]
  constructor
  · rintro ⟨isWalked, goesOn⟩
    have order : Handled (bootOrder blob) := by
      rcases accepted : walk blob with error | walked
      · rw [bootOrder, accepted]
        rw [accepted] at isWalked
        cases isWalked with
        | exit message => exact .exit message
      · exact (handled_bind_iff.mp (goesOn walked accepted)).1
    have reached : ∀ walked pos old, walk blob = .ok walked →
        bootOrder blob = .ok (pos, old, sourceOrder) → sourceOrder ≠ [rightSlot] →
        requireRightSlot rightSlot blob = .ok () →
        Handled (rebuiltTree blob walked pos old (rightSlot ++ [0])) ∧
          ∀ out, rebuiltTree blob walked pos old (rightSlot ++ [0]) = .ok out →
            (out.length : Int) = walked.header.total + valueShift pos old (rightSlot ++ [0]) →
            OrderReadable out := by
      intro walked pos old accepted found other right
      have handled := (handled_bind_iff.mp (goesOn walked accepted)).2 _ found
      have handled := handled_refuseIf_bind.mp handled other
      have handled := handled_refuseIf_bind.mp handled (not_not_intro rfl)
      have handled := handled_bind_iff.mp ((handled_bind_iff.mp handled).2 () right)
      refine ⟨handled.1, fun out isOut length => ?_⟩
      have handled := handled_refuseIf_bind.mp (handled.2 out isOut) (not_not_intro length)
      exact handled_bootOrder_iff.mp (handled_bind_iff.mp handled).1
    exact ⟨handled_bootOrder_iff.mp order,
      fun walked pos old accepted found other right =>
        handled_rebuiltTree_iff.mp (reached walked pos old accepted found other right).1,
      fun walked pos old out accepted found other right =>
        (reached walked pos old accepted found other right).2 out⟩
  · intro readable
    refine ⟨handled_walk_iff.mpr readable.order.tree, fun walked accepted => ?_⟩
    refine handled_bind_iff.mpr ⟨handled_bootOrder_iff.mpr readable.order, ?_⟩
    rintro ⟨pos, old, order⟩ found
    refine handled_refuseIf_bind.mpr fun other => handled_refuseIf_bind.mpr fun isSource => ?_
    have isSource := Decidable.of_not_not isSource
    subst isSource
    refine handled_bind_iff.mpr ⟨handled_requireRightSlot readable.order.tree, ?_⟩
    rintro ⟨⟩ right
    have words := readable.words walked pos old accepted found other right
    refine handled_bind_iff.mpr ⟨handled_rebuiltTree_iff.mpr words, fun out isOut => ?_⟩
    refine handled_refuseIf_bind.mpr fun length => ?_
    have again := readable.rebuilt walked pos old out accepted found other right isOut
      (Decidable.of_not_not length)
    exact handled_bind_iff.mpr ⟨handled_bootOrder_iff.mpr again, fun _ _ =>
      handled_refuseIf_bind.mpr fun _ => .ok _⟩

/-! ## The derivative of an image -/

/-- The tree in the SPL of an accepted image has a property. -/
def TreeOf (host : Host) (image : Bytes) (readable : Bytes → Prop) : Prop :=
  ∀ ddr first second blob, paired host.layout host.sha image = .ok (ddr, first, second) →
    fdt host.layout first.payload = .ok blob → readable blob

theorem handled_rebuild_iff {host : Host} {image : Bytes} :
    Handled (rebuild host.layout host.sha image) ↔
      TreeOf host image (EditReadable rightSlotName) := by
  rw [rebuild, handled_bind_iff]
  constructor
  · rintro ⟨-, goesOn⟩ ddr first second blob isPaired isTree
    have handled := (handled_bind_iff.mp (goesOn _ isPaired)).2 blob isTree
    exact handled_replaceBootOrder_iff.mp (handled_bind_iff.mp handled).1
  · intro readable
    refine ⟨handled_paired _ _ _, ?_⟩
    rintro ⟨ddr, first, second⟩ isPaired
    refine handled_bind_iff.mpr ⟨handled_fdt _ _, fun blob isTree => ?_⟩
    have edit := readable ddr first second blob isPaired isTree
    exact handled_bind_iff.mpr ⟨handled_replaceBootOrder_iff.mpr edit, fun _ _ =>
      handled_refuseIf_bind.mpr fun _ => handled_refuseIf_bind.mpr fun _ =>
        handled_refuseIf_bind.mpr fun _ => .ok _⟩

theorem handled_deriveBytes_iff {host : Host} {image : Bytes} :
    Handled (deriveBytes host.layout host.sha image) ↔
      TreeOf host image (EditReadable rightSlotName) := by
  rw [deriveBytes, handled_bind_iff, handled_rebuild_iff]
  exact ⟨fun handled => handled.1, fun readable => ⟨readable, fun _ _ =>
    (handled_paired _ _ _).bind fun _ => handled_refuseIf_bind.mpr fun _ =>
      handled_refuseIf_bind.mpr fun _ => .ok _⟩⟩

theorem handled_liveOrder_iff {host : Host} {live : Bytes} :
    Handled (host.liveOrder live) ↔ TreeOf host live OrderReadable := by
  rw [Host.liveOrder, handled_bind_iff]
  constructor
  · rintro ⟨-, goesOn⟩ ddr first second blob isPaired isTree
    have handled := (handled_bind_iff.mp (goesOn _ isPaired)).2 blob isTree
    exact handled_bootOrder_iff.mp (handled_bind_iff.mp handled).1
  · intro readable
    refine ⟨handled_paired _ _ _, ?_⟩
    rintro ⟨ddr, first, second⟩ isPaired
    refine handled_bind_iff.mpr ⟨handled_fdt _ _, fun blob isTree => ?_⟩
    exact handled_bind_iff.mpr ⟨handled_bootOrder_iff.mpr
      (readable ddr first second blob isPaired isTree), fun _ _ => .ok _⟩

/-! ## The manifest -/

theorem handled_hex64 (value : Json) (label : String) : Handled (hex64 value label) := by
  rw [hex64.eq_def]
  split
  · split
    · exact .exit _
    · exact .ok _
  · exact .exit _

theorem handled_manifest (host : Host) (storage : Storage) (path : Path) :
    Handled (host.manifest storage path) := by
  rw [Host.manifest]
  refine (handled_load _ _ _).bind fun raw => ?_
  split
  · exact .exit _
  split
  · exact handled_refuseIf_bind.mpr fun _ => handled_refuseIf_bind.mpr fun _ =>
      handled_refuseIf_bind.mpr fun _ => handled_refuseIf_bind.mpr fun _ =>
        (handled_hex64 _ _).bind fun _ => (handled_hex64 _ _).bind fun _ =>
          (handled_hex64 _ _).bind fun _ => (handled_hex64 _ _).bind fun _ =>
            handled_refuseIf_bind.mpr fun _ => handled_refuseIf_bind.mpr fun _ => .ok _
  · exact .exit _

theorem handled_sameBuild (host : Host) (doc : Manifest) (source image : Bytes) :
    Handled (host.sameBuild doc source image) := by
  rw [Host.sameBuild]
  exact (handled_paired _ _ _).bind fun _ => (handled_paired _ _ _).bind fun _ =>
    handled_refuseIf_bind.mpr fun _ => handled_refuseIf_bind.mpr fun _ =>
      handled_refuseIf_bind.mpr fun _ => handled_refuseIf _ _

/-- The interpreter, with the texts on which `json.loads` raises something else than
`JSONDecodeError`: one that is nested too deep, or an integer with too many digits. -/
structure Python where
  host : Host
  loadsRaises : Bytes → Bool

namespace Python

/-- `_manifest`, which catches what `open` raises and `JSONDecodeError`. -/
def manifest (python : Python) (storage : Storage) (path : Path) : Except PyError Manifest :=
  match storage.lookup path with
  | some raw =>
      if utf8Valid [] raw && python.loadsRaises raw then .error .valueError
      else python.host.manifest storage path
  | none => python.host.manifest storage path

def boundSource (python : Python) (storage : Storage) (live : Bytes) : Except PyError Path := do
  let host := python.host
  let doc ← python.manifest storage manifestPath
  let _ ← paired host.layout host.sha live
  refuseIf (host.shaText live ≠ doc.recoverySha256)
    "live preloader is not the recovery image in the manifest"
  let source ← load storage doc.sourceBackup "source backup is missing"
  refuseIf (host.shaText source ≠ doc.sourceSha256)
    "source backup sha does not match the manifest"
  host.sameBuild doc source live
  match deriveBytes host.layout host.sha source with
  | .error (.systemExit message) =>
      throw (.systemExit ("source backup is a different SPL build: " ++ message))
  | .error error => throw error
  | .ok expected =>
      refuseIf (expected ≠ live)
        "live recovery image is not the derivative of the source backup"
      return doc.sourceBackup

def recoveryState (python : Python) (storage : Storage) (live : Bytes) :
    Except PyError StateReport := do
  let host := python.host
  let _ ← paired host.layout host.sha live
  let order ← catchExit (host.liveOrder live)
  match storage.lookup manifestPath with
  | none =>
      return ⟨if order = some sourceOrder then .normal else .unknown, .notPrepared, .missing⟩
  | some _ =>
      match ← catchExit (python.manifest storage manifestPath) with
      | none => return ⟨.unknown, .invalid, .missing⟩
      | some doc =>
          let saved := (storage.lookup doc.sourceBackup).any
            fun source => host.shaText source == doc.sourceSha256
          match ← catchExit (python.boundSource storage live) with
          | some _ => return ⟨.recovery, .armed, .available⟩
          | none =>
              let sourceBackup := if saved then .available else .missing
              if ← host.isPrepared storage live doc then
                return ⟨.normal, .ready, sourceBackup⟩
              return ⟨.unknown, .invalid, sourceBackup⟩

/-- `json.loads` reads the file or raises `JSONDecodeError`. -/
def LoadsQuietly (python : Python) (storage : Storage) (path : Path) : Prop :=
  ∀ raw, storage.lookup path = some raw → utf8Valid [] raw = true →
    python.loadsRaises raw = false

section Quiet

variable {python : Python} {storage : Storage} {path : Path}

theorem manifest_of_quiet (quiet : python.LoadsQuietly storage path) :
    python.manifest storage path = python.host.manifest storage path := by
  rw [manifest]
  split
  · rename_i raw found
    refine if_neg fun raises => ?_
    rw [Bool.and_eq_true] at raises
    have reads := quiet raw found raises.1
    rw [raises.2] at reads
    cases reads
  · rfl

theorem handled_manifest_iff :
    Handled (python.manifest storage path) ↔ python.LoadsQuietly storage path := by
  constructor
  · intro handled raw found valid
    cases raises : python.loadsRaises raw with
    | false => rfl
    | true =>
        simp only [manifest, found, valid, raises, Bool.and_self, if_true] at handled
        cases handled
  · intro quiet
    rw [manifest_of_quiet quiet]
    exact handled_manifest _ _ _

theorem boundSource_of_quiet (quiet : python.LoadsQuietly storage manifestPath) (live : Bytes) :
    python.boundSource storage live = python.host.boundSource storage live := by
  rw [boundSource, manifest_of_quiet quiet]
  rfl

/-- With a quiet reader the two descriptions of `recovery_state` are one. -/
theorem recoveryState_of_quiet (quiet : python.LoadsQuietly storage manifestPath)
    (live : Bytes) :
    python.recoveryState storage live = python.host.recoveryState storage live := by
  rw [recoveryState, manifest_of_quiet quiet, boundSource_of_quiet quiet]
  rfl

end Quiet

end Python

/-! ## The recovery state -/

section State

variable {host : Host} {storage : Storage} {live : Bytes}

/-- The saved source, when `bound_source` comes to deriving the live image from it. -/
def SourceReadable (host : Host) (storage : Storage) (live : Bytes) : Prop :=
  ∀ doc source, host.manifest storage manifestPath = .ok doc →
    host.shaText live = doc.recoverySha256 → storage.lookup doc.sourceBackup = some source →
    host.shaText source = doc.sourceSha256 → host.sameBuild doc source live = .ok () →
    TreeOf host source (EditReadable rightSlotName)

/-- The live image, when it is compared with the prepared one. -/
def PreparedReadable (host : Host) (storage : Storage) (live : Bytes) : Prop :=
  ∀ doc prepared, host.manifest storage manifestPath = .ok doc →
    (∀ path, host.boundSource storage live ≠ .ok path) →
    storage.lookup doc.sourceBackup = some live → host.shaText live = doc.sourceSha256 →
    storage.lookup doc.prepared = some prepared → host.shaText prepared = doc.recoverySha256 →
    TreeOf host live (EditReadable rightSlotName)

theorem handled_boundSource_iff (isPaired : ∃ found, paired host.layout host.sha live = .ok found) :
    Handled (host.boundSource storage live) ↔ SourceReadable host storage live := by
  rw [Host.boundSource, handled_bind_iff]
  constructor
  · rintro ⟨-, goesOn⟩ doc source accepted isRecovery isSource sourceSha same
    rcases isPaired with ⟨found, isPaired⟩
    have handled := (handled_bind_iff.mp (goesOn doc accepted)).2 found isPaired
    have handled := handled_refuseIf_bind.mp handled (not_not_intro isRecovery)
    have handled := (handled_bind_iff.mp handled).2 source (load_eq_ok.mpr isSource)
    have handled := handled_refuseIf_bind.mp handled (not_not_intro sourceSha)
    have handled := (handled_bind_iff.mp handled).2 () same
    rw [← handled_deriveBytes_iff]
    cases derived : deriveBytes host.layout host.sha source with
    | ok produced => exact .ok produced
    | error error =>
        rw [derived] at handled
        cases error with
        | systemExit message => exact .exit message
        | structError | valueError | unicodeDecodeError => cases handled
  · intro readable
    refine ⟨handled_manifest _ _ _, fun doc accepted => ?_⟩
    refine handled_bind_iff.mpr ⟨handled_paired _ _ _, fun found _ => ?_⟩
    refine handled_refuseIf_bind.mpr fun isRecovery => ?_
    refine handled_bind_iff.mpr ⟨handled_load _ _ _, fun source isSource => ?_⟩
    refine handled_refuseIf_bind.mpr fun sourceSha => ?_
    refine handled_bind_iff.mpr ⟨handled_sameBuild _ _ _ _, ?_⟩
    rintro ⟨⟩ same
    have derives := handled_deriveBytes_iff.mpr (readable doc source accepted
      (Decidable.of_not_not isRecovery) (load_eq_ok.mp isSource) (Decidable.of_not_not sourceSha)
      same)
    cases derived : deriveBytes host.layout host.sha source with
    | ok expected => exact handled_refuseIf_bind.mpr fun _ => .ok _
    | error error =>
        rw [derived] at derives
        cases derives with
        | exit message => exact .exit _

theorem handled_isPrepared_iff {doc : Manifest} :
    Handled (host.isPrepared storage live doc) ↔
      ∀ prepared, storage.lookup doc.sourceBackup = some live →
        host.shaText live = doc.sourceSha256 → storage.lookup doc.prepared = some prepared →
        host.shaText prepared = doc.recoverySha256 →
        TreeOf host live (EditReadable rightSlotName) := by
  rw [Host.isPrepared]
  split
  · rename_i source prepared isSource isPrepared
    split
    · rename_i matching
      rcases matching with ⟨-, liveSha, rfl, preparedSha⟩
      rw [handled_bind_iff, handled_catchExit_iff, handled_deriveBytes_iff]
      constructor
      · exact fun handled _ _ _ _ _ => handled.1
      · exact fun readable =>
          ⟨readable prepared isSource liveSha isPrepared preparedSha, fun _ _ => .ok _⟩
    · rename_i different
      refine ⟨fun _ prepared' isLive liveSha isFound preparedSha => ?_, fun _ => .ok _⟩
      cases isSource.symm.trans isLive
      cases isPrepared.symm.trans isFound
      exact absurd ⟨liveSha, liveSha, rfl, preparedSha⟩ different
  · rename_i missing
    refine ⟨fun _ prepared isLive _ isFound _ => ?_, fun _ => .ok _⟩
    exact (missing live prepared isLive isFound).elim

/-- What `recovery_state` reads of an accepted live image and its directories. -/
structure StateReadable (host : Host) (storage : Storage) (live : Bytes) : Prop where
  order : TreeOf host live OrderReadable
  source : SourceReadable host storage live
  prepared : PreparedReadable host storage live

theorem catchExit_eq_none {α : Type} {attempt : Except PyError α} :
    catchExit attempt = .ok none ↔ ∃ message, attempt = .error (.systemExit message) := by
  rcases attempt with (message | _ | _ | _) | value <;> simp [catchExit]

theorem Handled.exists_catchExit {α : Type} {attempt : Except PyError α}
    (handled : Handled attempt) : ∃ found, catchExit attempt = .ok found := by
  cases handled with
  | ok value => exact ⟨some value, rfl⟩
  | exit message => exact ⟨none, rfl⟩

theorem Handled.refused_of_ne_ok {α : Type} {attempt : Except PyError α}
    (handled : Handled attempt) (notOk : ∀ value, attempt ≠ .ok value) :
    catchExit attempt = .ok none := by
  cases handled with
  | ok value => exact absurd rfl (notOk value)
  | exit message => rfl

theorem handled_recoveryState_iff :
    Handled (host.recoveryState storage live) ↔
      ∀ found, paired host.layout host.sha live = .ok found →
        StateReadable host storage live := by
  rw [Host.recoveryState, handled_bind_iff]
  constructor
  · rintro ⟨-, goesOn⟩ found isPaired
    have handled := handled_bind_iff.mp (goesOn found isPaired)
    have order := handled_liveOrder_iff.mp (handled_catchExit_iff.mp handled.1)
    have classified : ∀ doc, host.manifest storage manifestPath = .ok doc →
        Handled (host.boundSource storage live) ∧
          ((∀ path, host.boundSource storage live ≠ .ok path) →
            Handled (host.isPrepared storage live doc)) := by
      intro doc accepted
      rcases manifest_present accepted with ⟨raw, present⟩
      rcases (handled_liveOrder_iff.mpr order).exists_catchExit with ⟨found, caught⟩
      have handled := handled.2 found caught
      simp only [present] at handled
      have handled := (handled_bind_iff.mp handled).2 (some doc) (catchExit_eq_some.mpr accepted)
      have handled := handled_bind_iff.mp handled
      have bound := handled_catchExit_iff.mp handled.1
      refine ⟨bound, fun notArmed => ?_⟩
      exact (handled_bind_iff.mp (handled.2 none (bound.refused_of_ne_ok notArmed))).1
    refine ⟨order, ?_, ?_⟩
    · intro doc source accepted
      exact (handled_boundSource_iff ⟨found, isPaired⟩).mp (classified doc accepted).1
        doc source accepted
    · intro doc prepared accepted notArmed
      exact handled_isPrepared_iff.mp ((classified doc accepted).2 notArmed) prepared
  · intro readable
    refine ⟨handled_paired _ _ _, fun found isPaired => ?_⟩
    have readable := readable found isPaired
    have order := handled_catchExit_iff.mpr (handled_liveOrder_iff.mpr readable.order)
    refine handled_bind_iff.mpr ⟨order, fun _ _ => ?_⟩
    split
    · exact .ok _
    refine handled_bind_iff.mpr ⟨handled_catchExit_iff.mpr (handled_manifest _ _ _), ?_⟩
    rintro (_ | doc) caught
    · exact .ok _
    have accepted := catchExit_eq_some.mp caught
    have bound := (handled_boundSource_iff ⟨found, isPaired⟩).mpr readable.source
    refine handled_bind_iff.mpr ⟨handled_catchExit_iff.mpr bound, ?_⟩
    rintro (_ | path) caught
    · rcases catchExit_eq_none.mp caught with ⟨message, refused⟩
      have notArmed : ∀ path, host.boundSource storage live ≠ .ok path := by
        intro path isBound
        rw [refused] at isBound
        cases isBound
      refine handled_bind_iff.mpr ⟨handled_isPrepared_iff.mpr fun prepared =>
        readable.prepared doc prepared accepted notArmed, fun isReady _ => ?_⟩
      split
      · exact .ok _
      · exact .ok _
    · exact .ok _

end State

theorem Python.quiet_of_handled {python : Python} {storage : Storage} {live : Bytes}
    (handled : Handled (python.recoveryState storage live))
    (isPaired : ∃ found, paired python.host.layout python.host.sha live = .ok found) :
    python.LoadsQuietly storage manifestPath := by
  rcases isPaired with ⟨found, isPaired⟩
  rw [Python.recoveryState, handled_bind_iff] at handled
  have handled := handled_bind_iff.mp (handled.2 found isPaired)
  rcases (handled_catchExit_iff.mp handled.1).exists_catchExit with ⟨order, caught⟩
  have handled := handled.2 order caught
  cases present : storage.lookup manifestPath with
  | none =>
      intro raw found
      rw [present] at found
      cases found
  | some raw =>
      simp only [present] at handled
      exact Python.handled_manifest_iff.mp
        (handled_catchExit_iff.mp (handled_bind_iff.mp handled).1)

theorem Python.handled_recoveryState_iff {python : Python} {storage : Storage} {live : Bytes} :
    Handled (python.recoveryState storage live) ↔
      ∀ found, paired python.host.layout python.host.sha live = .ok found →
        python.LoadsQuietly storage manifestPath ∧ StateReadable python.host storage live := by
  constructor
  · intro handled found isPaired
    have quiet := Python.quiet_of_handled handled ⟨found, isPaired⟩
    rw [Python.recoveryState_of_quiet quiet] at handled
    exact ⟨quiet, Preloader.handled_recoveryState_iff.mp handled found isPaired⟩
  · intro readable
    by_cases isPaired : ∃ found, paired python.host.layout python.host.sha live = .ok found
    · rcases isPaired with ⟨found, isPaired⟩
      rw [Python.recoveryState_of_quiet (readable found isPaired).1]
      exact Preloader.handled_recoveryState_iff.mpr fun found isPaired =>
        (readable found isPaired).2
    · rw [Python.recoveryState, handled_bind_iff]
      exact ⟨handled_paired _ _ _, fun found accepted => absurd ⟨found, accepted⟩ isPaired⟩

/-- The tests of the images handle every byte string; the walk handles the trees whose tokens
can be read, in at most as many turns as the struct block has bytes; and `recovery_state`
handles the images and manifests whose trees and text can be read. -/
theorem preloader_handles (python : Python) (storage : Storage) (live : Bytes)
    (layout : Layout) (sha : Sha256) (data payload blob : Bytes) :
    (Handled (parse layout sha data) ∧ Handled (paired layout sha data)) ∧
    Handled (fdt layout payload) ∧
    (Handled (walk blob) ↔ TreeReadable blob) ∧
    (∀ strings offStruct sizeStruct more stack, sizeStruct ≤ more →
      walkLoop blob strings (offStruct + sizeStruct) more offStruct stack =
        walkLoop blob strings (offStruct + sizeStruct) sizeStruct offStruct stack) ∧
    (Handled (python.recoveryState storage live) ↔
      ∀ found, paired python.host.layout python.host.sha live = .ok found →
        python.LoadsQuietly storage manifestPath ∧ StateReadable python.host storage live) :=
  ⟨⟨handled_parse layout sha data, handled_paired layout sha data⟩,
    handled_fdt layout payload, handled_walk_iff,
    fun _ _ _ _ _ least => walkLoop_turns (Nat.le_refl _) least,
    Python.handled_recoveryState_iff⟩

/-! ### A name without an end -/

/-- A tree whose struct block opens a node, and whose last bytes are its name. -/
def unendedBlob : Bytes :=
  sampleHeader 96 88 40 40 8 ++ zeros 48 ++ packBe32 1 ++ text "root"

/-- The search for the end of the name raises a `ValueError`. -/
theorem walk_raises : ¬∀ blob, Handled (walk blob) := by
  intro handled
  have tree := handled_walk_iff.mp (handled unendedBlob)
  have fits : HeaderFits unendedBlob := by
    constructor <;> decide +kernel
  have start : (readHeader unendedBlob).offStruct = 88 ∧
      88 < (readHeader unendedBlob).offStruct + (readHeader unendedBlob).sizeStruct := by
    decide +kernel
  have readable := tree fits 88 (start.1 ▸ .here (start.1.symm ▸ start.2))
  have named := readable.node (by decide +kernel)
  exact absurd named.1 (by decide +kernel)

end Zlyme.Preloader
