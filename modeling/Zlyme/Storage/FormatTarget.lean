import Mathlib.Data.List.DropRight
import Zlyme.Storage.Format

/-! # What reaches `mkfs`

The device that `zlyme-storage-format` formats, against the disks, mounts and labels that are
really there.
-/

namespace Zlyme.Storage

open Foundation Foundation.Decimal
open Portmaster (Text ascii)

/-! ## Fields of the mount table -/

/-- A field that the mount table prints as it is. -/
def Plain (field : Text) : Prop :=
  ∀ byte ∈ field, mangleByte byte = [byte]

instance (field : Text) : Decidable (Plain field) :=
  inferInstanceAs (Decidable (∀ byte ∈ field, mangleByte byte = [byte]))

theorem mangle_of_plain {field : Text} (plain : Plain field) : mangle field = field := by
  induction field with
  | nil => rfl
  | cons byte rest induction =>
      have head := plain byte List.mem_cons_self
      have tail := induction fun other member => plain other (List.mem_cons_of_mem _ member)
      rw [mangle] at tail ⊢
      rw [List.flatMap_cons, head, tail]
      rfl

theorem mangleByte_cases (byte : UInt8) :
    mangleByte byte = [byte] ∨ 0x5c ∈ mangleByte byte := by
  rw [mangleByte]
  split_ifs
  · exact .inr (by decide)
  · exact .inr (by decide)
  · exact .inr (by decide)
  · exact .inr (by decide)
  · exact .inr (by decide)
  · exact .inl rfl

/-- What is printed without a backslash is printed as it is. -/
theorem plain_of_mangle {field : Text} (noEscape : 0x5c ∉ mangle field) : Plain field := by
  intro byte member
  rcases mangleByte_cases byte with same | escaped
  · exact same
  · exact absurd (List.mem_flatMap.mpr ⟨byte, member, escaped⟩) noEscape

theorem mangle_eq_iff {field shown : Text} (noEscape : 0x5c ∉ shown) (plain : Plain shown) :
    mangle field = shown ↔ field = shown := by
  constructor
  · rintro rfl
    exact (mangle_of_plain (plain_of_mangle noEscape)).symm
  · rintro rfl
    exact mangle_of_plain plain

theorem osPaths_plain :
    ∀ os ∈ ["/", "/boot", "/storage"], 0x5c ∉ ascii os ∧ Plain (ascii os) := by
  decide +kernel

theorem isOsPath_shownPath (mount : Mount) :
    Media.isOsPath mount.shownPath = Media.isOsPath mount.path := by
  have same : ∀ os ∈ ["/", "/boot", "/storage"],
      (mount.shownPath == ascii os) = (mount.path == ascii os) := by
    intro os member
    have literal := osPaths_plain os member
    rw [Bool.eq_iff_iff, beq_iff_eq, beq_iff_eq]
    exact mangle_eq_iff literal.1 literal.2
  rw [Media.isOsPath, Media.isOsPath, Bool.eq_iff_iff, List.any_eq_true, List.any_eq_true]
  constructor
  · rintro ⟨os, member, found⟩
    exact ⟨os, member, same os member ▸ found⟩
  · rintro ⟨os, member, found⟩
    exact ⟨os, member, (same os member).symm ▸ found⟩

/-! ## Names of devices -/

theorem isPrefixOf_append (front rest : Text) : front.isPrefixOf (front ++ rest) = true :=
  List.isPrefixOf_iff_prefix.mpr (List.prefix_append front rest)

theorem stripDev_devPath (name : Text) : stripDev (devPath name) = name := by
  rw [stripDev, devPath, if_pos (isPrefixOf_append _ name)]
  exact List.drop_left' rfl

theorem decimal_no_byte {number : Nat} {byte : UInt8} (other : isDigit byte = false) :
    byte ∉ decimal number := by
  intro member
  rw [isDigit_of_mem_decimal member] at other
  cases other

theorem takeWhile_before (front rest : Text) {stop : UInt8} (absent : stop ∉ front) :
    (front ++ stop :: rest).takeWhile (· != stop) = front := by
  refine (takeWhile_run (fun byte member => ?_) ?_).1
  · rw [bne_iff_ne]
    rintro rfl
    exact absent member
  · rintro byte ⟨⟩
    exact bne_self_eq_false stop

theorem rdropWhile_digits {front : Text} {number : Nat}
    (stops : ∀ byte ∈ front.getLast?, isDigit byte = false) :
    (front ++ decimal number).rdropWhile isDigit = front := by
  have digits : ∀ byte ∈ (decimal number).reverse, isDigit byte = true := fun byte member =>
    isDigit_of_mem_decimal (List.mem_reverse.mp member)
  have stopsThere : ∀ byte ∈ front.reverse.head?, isDigit byte = false := by
    rw [List.head?_reverse]
    exact stops
  have dropped := (takeWhile_run digits stopsThere).2
  rw [List.rdropWhile, List.reverse_append, dropped, List.reverse_reverse]

/-! ## The disk of a device -/

namespace DiskName

theorem mmc_no_p (number : Nat) : 0x70 ∉ (mmc number).text := by
  rw [text, List.mem_append, not_or]
  exact ⟨by decide, decimal_no_byte rfl⟩

theorem isMmcPart_partition (number part : Nat) :
    isMmcPart ((mmc number).partition part) = true := by
  have split : (mmc number).partition part =
      ascii "mmcblk" ++ (decimal number ++ (ascii "p" ++ decimal part)) := by
    simp [partition, text]
  have rest : ((mmc number).partition part).drop 6 =
      decimal number ++ (ascii "p" ++ decimal part) := by
    rw [split]
    exact List.drop_left' rfl
  rw [isMmcPart, rest, split, isPrefixOf_append, Bool.true_and, List.contains_iff_mem]
  exact List.mem_append_right _ (List.mem_append_left _ (by decide))

theorem diskOf_mmc_partition (number part : Nat) :
    diskOf (devPath ((mmc number).partition part)) = (mmc number).text := by
  rw [diskOf, stripDev_devPath, isMmcPart_partition]
  have split : (mmc number).partition part = (mmc number).text ++ 0x70 :: decimal part :=
    List.append_assoc _ _ _
  rw [Bool.true_or, if_pos rfl, split]
  exact takeWhile_before _ _ (mmc_no_p number)

theorem scsi_stops {letters : Text} (named : (scsi letters).WellNamed) :
    ∀ byte ∈ (scsi letters).text.getLast?, isDigit byte = false := by
  intro byte last
  rw [text, List.getLast?_append_of_ne_nil _ named.1] at last
  have letter := named.2 byte (List.mem_of_getLast? last)
  rw [← Bool.not_eq_true, isDigit_iff]
  have low := UInt8.le_iff_toNat_le.mp letter.1
  rw [show (0x61 : UInt8).toNat = 97 from rfl] at low
  omega

theorem diskOf_scsi (letters rest : Text) :
    diskOf (devPath ((scsi letters).text ++ rest)) =
      ((scsi letters).text ++ rest).rdropWhile isDigit := by
  have notMmc : isMmcPart ((scsi letters).text ++ rest) = false := rfl
  have notNvme : isNvmePart ((scsi letters).text ++ rest) = false := rfl
  rw [diskOf, stripDev_devPath, notMmc, notNvme]
  rfl

theorem diskOf_scsi_partition {letters : Text} (named : (scsi letters).WellNamed) (part : Nat) :
    diskOf (devPath ((scsi letters).partition part)) = (scsi letters).text :=
  (diskOf_scsi letters (decimal part)).trans (rdropWhile_digits (scsi_stops named))

theorem diskOf_scsi_whole {letters : Text} (named : (scsi letters).WellNamed) :
    diskOf (devPath (scsi letters).text) = (scsi letters).text := by
  have whole := diskOf_scsi letters []
  rw [List.append_nil] at whole
  rw [whole, List.rdropWhile_eq_self_iff]
  intro nonempty digit
  have last := scsi_stops named _ (List.getLast_mem_getLast? nonempty)
  rw [last] at digit
  cases digit

end DiskName

/-! ## Candidates -/

def candidates : List Text :=
  [ascii "mmcblk1", ascii "mmcblk1p1", ascii "mmcblk2", ascii "mmcblk2p1", ascii "sda",
    ascii "sda1", ascii "sdb", ascii "sdb1", ascii "sdc", ascii "sdc1"]

theorem exists_candidate {dev : Text} (isPath : (ascii "/dev/").isPrefixOf dev = true)
    (candidate : isCandidateName dev = true) : ∃ name ∈ candidates, dev = devPath name := by
  rcases List.isPrefixOf_iff_prefix.mp isPath with ⟨name, rfl⟩
  refine ⟨name, ?_, rfl⟩
  rw [isCandidateName, show ascii "/dev/" ++ name = devPath name from rfl,
    stripDev_devPath] at candidate
  simp only [List.any_cons, List.any_nil, Bool.or_false, Bool.or_eq_true, beq_iff_eq] at candidate
  simp only [candidates, List.mem_cons, List.not_mem_nil, or_false]
  exact candidate

/-- No disk of the third kind has a candidate. -/
theorem nvme_no_candidate {controller unit : Nat} {rest name : Text}
    (isName : (DiskName.nvme controller unit).text ++ rest = name) : name ∉ candidates := by
  subst isName
  have start : ((DiskName.nvme controller unit).text ++ rest).take 4 = ascii "nvme" := rfl
  intro member
  have others : ∀ name ∈ candidates, name.take 4 ≠ ascii "nvme" := by decide
  exact others _ member start

/-! ## What the tests have seen -/

theorem reject_eq_ok {condition : Bool} {message : String} {result : Unit} :
    reject condition message = .ok result ↔ condition = false := by
  cases condition
  · exact ⟨fun _ => rfl, fun _ => rfl⟩
  · exact ⟨nofun, nofun⟩

/-- What an accepted argument has passed. -/
structure Accepted (media : Media) (dev : Text) : Prop where
  isPath : (ascii "/dev/").isPrefixOf dev = true
  candidate : isCandidateName dev = true
  otherDisk : media.isOsDisk (diskOf dev) = false
  noChild : media.hasChildPart dev = false
  notReserved : isReserved (fieldOf (media.blkidLine dev) (ascii "LABEL")) = false

theorem validate_eq_ok {media : Media} {dev : Text} {result : Unit}
    (accepted : media.validate dev = .ok result) : Accepted media dev := by
  rcases bind_eq_ok.mp accepted with ⟨_, isPath, accepted⟩
  rcases bind_eq_ok.mp accepted with ⟨_, _, accepted⟩
  rcases bind_eq_ok.mp accepted with ⟨_, _, accepted⟩
  rcases bind_eq_ok.mp accepted with ⟨_, candidate, accepted⟩
  rcases bind_eq_ok.mp accepted with ⟨_, _, accepted⟩
  rcases bind_eq_ok.mp accepted with ⟨_, otherDisk, accepted⟩
  rcases bind_eq_ok.mp accepted with ⟨_, noChild, accepted⟩
  rcases bind_eq_ok.mp accepted with ⟨_, notReserved, _⟩
  exact {
    isPath := by simpa using reject_eq_ok.mp isPath
    candidate := by simpa using reject_eq_ok.mp candidate
    otherDisk := reject_eq_ok.mp otherDisk
    noChild := reject_eq_ok.mp noChild
    notReserved := reject_eq_ok.mp notReserved }

/-! ## The disks of the OS volumes -/

theorem mangleByte_of_isDigit {byte : UInt8} (digit : isDigit byte = true) :
    mangleByte byte = [byte] := by
  have other : ∀ special, isDigit special = false → byte ≠ special := by
    rintro special notDigit rfl
    rw [notDigit] at digit
    cases digit
  rw [mangleByte, if_neg (other _ rfl), if_neg (other _ rfl), if_neg (other _ rfl),
    if_neg (other _ rfl), if_neg (other _ rfl)]

theorem mangleByte_of_letter {byte : UInt8} (letter : 0x61 ≤ byte) :
    mangleByte byte = [byte] := by
  have other : ∀ special : UInt8, special < 0x61 → byte ≠ special := by
    rintro special below rfl
    exact absurd below (UInt8.not_lt.mpr letter)
  rw [mangleByte, if_neg (other _ (by decide)), if_neg (other _ (by decide)),
    if_neg (other _ (by decide)), if_neg (other _ (by decide)), if_neg (other _ (by decide))]

theorem Plain.append {front rest : Text} (first : Plain front) (second : Plain rest) :
    Plain (front ++ rest) := by
  intro byte member
  rcases List.mem_append.mp member with inFront | inRest
  · exact first byte inFront
  · exact second byte inRest

theorem plain_decimal (number : Nat) : Plain (decimal number) := fun _ member =>
  mangleByte_of_isDigit (isDigit_of_mem_decimal member)

theorem nameParts_plain :
    ∀ part ∈ ["/dev/", "mmcblk", "sd", "nvme", "n", "p"], Plain (ascii part) := by
  decide +kernel

theorem DiskName.text_plain {name : DiskName} (named : name.WellNamed) : Plain name.text := by
  cases name with
  | mmc number => exact (nameParts_plain "mmcblk" (by simp)).append (plain_decimal number)
  | scsi letters =>
      exact (nameParts_plain "sd" (by simp)).append fun byte member =>
        mangleByte_of_letter (named.2 byte member).1
  | nvme controller unit =>
      exact (((nameParts_plain "nvme" (by simp)).append (plain_decimal controller)).append
        (nameParts_plain "n" (by simp))).append (plain_decimal unit)

theorem DiskName.partition_plain {name : DiskName} (named : name.WellNamed) (part : Nat) :
    Plain (name.partition part) := by
  have whole := text_plain named
  cases name with
  | mmc number =>
      exact (whole.append (nameParts_plain "p" (by simp))).append (plain_decimal part)
  | scsi letters => exact whole.append (plain_decimal part)
  | nvme controller unit =>
      exact (whole.append (nameParts_plain "p" (by simp))).append (plain_decimal part)

theorem Disk.node_cases {disk : Disk} {name : Text} (member : name ∈ disk.nodes) :
    name = disk.name.text ∨ ∃ part ∈ disk.parts, name = disk.name.partition part := by
  rcases List.mem_cons.mp member with whole | isPart
  · exact .inl whole
  · rcases List.mem_map.mp isPart with ⟨part, inside, rfl⟩
    exact .inr ⟨part, inside, rfl⟩

theorem Disk.node_plain {disk : Disk} {name : Text} (member : name ∈ disk.nodes) :
    Plain (devPath name) := by
  refine (nameParts_plain "/dev/" (by simp)).append ?_
  rcases disk.node_cases member with rfl | ⟨part, -, rfl⟩
  · exact DiskName.text_plain disk.wellNamed
  · exact DiskName.partition_plain disk.wellNamed part

/-- Exactly one of two devices is a whole card, and the other one of its partitions. -/
def MixedCard (disk : Disk) (name device : Text) : Prop :=
  ∃ number, disk.name = .mmc number ∧ ¬(name = disk.name.text ↔ device = disk.name.text)

theorem diskOf_same {disk : Disk} {name device : Text} (isCandidate : name ∈ candidates)
    (here : name ∈ disk.nodes) (there : device ∈ disk.nodes)
    (notMixed : ¬MixedCard disk name device) :
    diskOf (devPath name) = diskOf (devPath device) := by
  have named := disk.wellNamed
  have whole := disk.node_cases here
  have other := disk.node_cases there
  cases isName : disk.name with
  | mmc number =>
      have both : name = disk.name.text ↔ device = disk.name.text :=
        not_not.mp fun differs => notMixed ⟨number, isName, differs⟩
      rw [isName] at whole other both
      rcases whole with rfl | ⟨part, -, rfl⟩
      · rw [both.mp rfl]
      · rcases other with rfl | ⟨part', -, rfl⟩
        · rw [both.mpr rfl]
        · rw [DiskName.diskOf_mmc_partition, DiskName.diskOf_mmc_partition]
  | scsi letters =>
      rw [isName] at whole other named
      have sameDisk : ∀ node, (node = (DiskName.scsi letters).text ∨
          ∃ part ∈ disk.parts, node = (DiskName.scsi letters).partition part) →
          diskOf (devPath node) = (DiskName.scsi letters).text := by
        rintro node (rfl | ⟨part, -, rfl⟩)
        · exact DiskName.diskOf_scsi_whole named
        · exact DiskName.diskOf_scsi_partition named part
      rw [sameDisk name whole, sameDisk device other]
  | nvme controller unit =>
      rw [isName] at whole
      rcases whole with rfl | ⟨part, -, rfl⟩
      · exact absurd isCandidate (nvme_no_candidate (List.append_nil _))
      · exact absurd isCandidate (nvme_no_candidate (List.append_assoc _ _ _).symm)

/-- An OS volume on the disk of a device that the script does not connect with it. -/
def HiddenOs (media : Media) (name : Text) : Prop :=
  ∃ mount ∈ media.mounts, Media.isOsPath mount.path = true ∧
    ∃ device, mount.device = some device ∧ ∃ disk ∈ media.disks,
      name ∈ disk.nodes ∧ device ∈ disk.nodes ∧
        (mount.source ≠ devPath device ∨ MixedCard disk name device)

/-- A device is not on the disk of any OS volume. -/
def OffOsDisks (media : Media) (name : Text) : Prop :=
  ∀ mount ∈ media.mounts, Media.isOsPath mount.path = true →
    ∀ device, mount.device = some device → ∀ disk ∈ media.disks,
      ¬(name ∈ disk.nodes ∧ device ∈ disk.nodes)

theorem offOsDisks_iff {media : Media} {name : Text} (isCandidate : name ∈ candidates)
    (accepted : Accepted media (devPath name)) :
    OffOsDisks media name ↔ ¬HiddenOs media name := by
  constructor
  · rintro off ⟨mount, member, isOs, device, behind, disk, isDisk, here, there, -⟩
    exact off mount member isOs device behind disk isDisk ⟨here, there⟩
  · intro shown mount member isOs device behind disk isDisk both
    have notHidden : ¬(mount.source ≠ devPath device ∨ MixedCard disk name device) :=
      fun hidden => shown ⟨mount, member, isOs, device, behind, disk, isDisk, both.1, both.2, hidden⟩
    rw [not_or, not_not] at notHidden
    have same := diskOf_same isCandidate both.1 both.2 notHidden.2
    have listed : mount.shownSource = devPath device := by
      rw [Mount.shownSource, notHidden.1]
      exact mangle_of_plain (disk.node_plain both.2)
    have found : media.isOsDisk (diskOf (devPath name)) = true := by
      rw [Media.isOsDisk, List.any_eq_true]
      refine ⟨mount, List.mem_filter.mpr ⟨member, ?_⟩, ?_⟩
      · rw [isOsPath_shownPath]
        exact isOs
      · rw [listed, same]
        exact beq_self_eq_true _
    rw [accepted.otherDisk] at found
    cases found

/-! ## Labels -/

theorem afterLast_of_append {key text rest : Text} (front : Text)
    (found : afterLast key text = some rest) : afterLast key (front ++ text) = some rest := by
  induction front with
  | nil => exact found
  | cons byte front induction =>
      rw [List.cons_append, afterLast, induction]

theorem afterLast_cons_none {key text : Text} {byte : UInt8} (later : afterLast key text = none)
    (here : key.isPrefixOf (byte :: text) = false) : afterLast key (byte :: text) = none := by
  rw [afterLast, later]
  exact if_neg (by rw [here]; exact Bool.false_ne_true)

theorem afterLast_label {rest : Text} (later : afterLast (ascii "LABEL=") rest = none) :
    afterLast (ascii "LABEL=") (ascii "LABEL=" ++ rest) = some rest := by
  have inner : afterLast (ascii "LABEL=") (ascii "ABEL=" ++ rest) = none :=
    afterLast_cons_none (afterLast_cons_none (afterLast_cons_none (afterLast_cons_none
      (afterLast_cons_none later rfl) rfl) rfl) rfl) rfl
  change afterLast (ascii "LABEL=") (0x4c :: (ascii "ABEL=" ++ rest)) = some rest
  rw [afterLast, inner]
  rfl

theorem firstWord_reserved {label : Text} (reserved : isReserved label = true) (rest : Text) :
    firstWord (ascii "\"" ++ label ++ ascii "\"" ++ rest) = label := by
  rw [isReserved, Bool.or_eq_true, beq_iff_eq, beq_iff_eq] at reserved
  rcases reserved with rfl | rfl <;> rfl

/-- A reserved label with another `LABEL=` behind it in the line. -/
def HiddenLabel (media : Media) (dev : Text) : Prop :=
  ∃ before label after, media.tags dev = before ++ (ascii "LABEL", label) :: after ∧
    (∀ tag ∈ before, (ascii "LABEL" != tag.1) = true) ∧ isReserved label = true ∧
    afterLast (ascii "LABEL=") (ascii "\"" ++ label ++ ascii "\"" ++ after.flatMap quoted) ≠ none

def NotReserved (media : Media) (dev : Text) : Prop :=
  ∀ label, (media.tags dev).lookup (ascii "LABEL") = some label → isReserved label = false

theorem fieldOf_label {media : Media} {dev label : Text} {before after : List (Text × Text)}
    (isTags : media.tags dev = before ++ (ascii "LABEL", label) :: after)
    (reserved : isReserved label = true)
    (later : afterLast (ascii "LABEL=")
      (ascii "\"" ++ label ++ ascii "\"" ++ after.flatMap quoted) = none) :
    fieldOf (media.blkidLine dev) (ascii "LABEL") = label := by
  have line : media.blkidLine dev = (dev ++ ascii ":" ++ before.flatMap quoted ++ ascii " ") ++
      (ascii "LABEL=" ++ (ascii "\"" ++ label ++ ascii "\"" ++ after.flatMap quoted)) := by
    have equal : ascii "=\"" = ascii "=" ++ ascii "\"" := rfl
    have key : ascii "LABEL=" = ascii "LABEL" ++ ascii "=" := rfl
    rw [Media.blkidLine, isTags]
    split
    · rename_i none
      exact absurd none (by simp)
    · simp only [List.flatMap_append, List.flatMap_cons, quoted, equal, key, List.append_assoc]
  have found := afterLast_of_append (dev ++ ascii ":" ++ before.flatMap quoted ++ ascii " ")
    (afterLast_label later)
  rw [← line] at found
  rw [fieldOf, show ascii "LABEL" ++ ascii "=" = ascii "LABEL=" from rfl, found]
  exact firstWord_reserved reserved _

theorem notReserved_iff {media : Media} {dev : Text} (accepted : Accepted media dev) :
    NotReserved media dev ↔ ¬HiddenLabel media dev := by
  constructor
  · rintro free ⟨before, label, after, isTags, first, reserved, -⟩
    have found : (media.tags dev).lookup (ascii "LABEL") = some label :=
      List.lookup_eq_some_iff.mpr ⟨before, after, isTags, first⟩
    rw [free label found] at reserved
    cases reserved
  · intro shown label found
    rcases List.lookup_eq_some_iff.mp found with ⟨before, after, isTags, first⟩
    by_contra reserved
    have reserved : isReserved label = true := by simpa using reserved
    have later := not_not.mp fun hidden =>
      shown ⟨before, label, after, isTags, first, reserved, hidden⟩
    have refused := accepted.notReserved
    rw [fieldOf_label isTags reserved later, reserved] at refused
    cases refused

/-! ## Mounts of the device -/

def Idle (media : Media) (name : Text) : Prop :=
  ∀ mount ∈ media.mounts, mount.device ≠ some name

def mountsOf (mounts : List Mount) (name : Text) : List Mount :=
  mounts.filter fun mount => mount.device = some name

/-- The device is not mounted, or once, where the one unmount of the script takes it away. -/
def ReleasedAtOnce (media : Media) (dev name : Text) : Prop :=
  mountsOf media.mounts name = [] ∨
    (mountsOf media.mounts name).length = 1 ∧ ∃ path mount, media.listedAt dev = some path ∧
      topAt media.mounts path = some mount ∧ mount.device = some name

theorem idle_iff {media : Media} {name : Text} :
    Idle media name ↔ mountsOf media.mounts name = [] := by
  rw [Idle, mountsOf, List.filter_eq_nil_iff]
  simp only [decide_eq_true_eq, ne_eq]

theorem release_idle_iff {media after : Media} {dev name : Text} {busy : Bool}
    (released : media.release dev busy = some after) :
    Idle after name ↔ ReleasedAtOnce media dev name := by
  rw [Media.release] at released
  split at released
  · rename_i unlisted
    cases released
    rw [idle_iff]
    refine ⟨.inl, ?_⟩
    rintro (none | ⟨-, path, mount, listed, -⟩)
    · exact none
    · rw [unlisted] at listed
      cases listed
  · rename_i path listed
    split_ifs at released with refused
    cases released
    rw [not_or] at refused
    rcases Option.ne_none_iff_exists'.mp refused.2 with ⟨mount, top⟩
    rcases detach_spec top with ⟨front, back, split, detached⟩
    rw [idle_iff, detached, ReleasedAtOnce, split, mountsOf, mountsOf, List.filter_append,
      List.filter_append, List.filter_cons]
    by_cases own : mount.device = some name
    · rw [if_pos (decide_eq_true own)]
      constructor
      · intro empty
        rw [List.append_eq_nil_iff] at empty
        rw [empty.1, empty.2]
        exact .inr ⟨rfl, path, mount, listed, split ▸ top, own⟩
      · rintro (empty | ⟨single, -⟩)
        · simp at empty
        · rw [List.append_eq_nil_iff, ← List.length_eq_zero_iff, ← List.length_eq_zero_iff]
          rw [List.length_append, List.length_cons] at single
          omega
    · rw [if_neg (by simpa using own)]
      refine ⟨.inl, ?_⟩
      rintro (empty | ⟨-, other, found, isListed, isTop, isOwn⟩)
      · exact empty
      · cases listed.symm.trans isListed
        rw [← split] at isTop
        cases top.symm.trans isTop
        exact absurd isOwn own

/-! ## Partitions of a whole disk -/

def Unpartitioned (media : Media) (name : Text) : Prop :=
  ∀ disk ∈ media.disks, disk.name.text = name → disk.parts = []

/-- A partition that is not the first one. -/
def OtherPartition (media : Media) (name : Text) : Prop :=
  ∃ disk ∈ media.disks, disk.name.text = name ∧ ∃ part ∈ disk.parts, part ≠ 1

theorem existsDev_node {media : Media} {disk : Disk} {name : Text} (isDisk : disk ∈ media.disks)
    (member : name ∈ disk.nodes) : media.existsDev (devPath name) = true := by
  rw [Media.existsDev, List.any_eq_true]
  exact ⟨name, List.mem_append_left _ (List.mem_flatMap.mpr ⟨disk, isDisk, member⟩),
    beq_self_eq_true _⟩

/-- Where a whole disk is a candidate the script looks for its first partition. -/
theorem hasChildPart_eq {media : Media} {disk : DiskName} (named : disk.WellNamed)
    (isCandidate : disk.text ∈ candidates) :
    media.hasChildPart (devPath disk.text) = media.existsDev (devPath (disk.partition 1)) := by
  cases disk with
  | nvme controller unit => exact absurd isCandidate (nvme_no_candidate (List.append_nil _))
  | mmc number =>
      have ends : ∀ name ∈ candidates, name.drop 6 = ascii "1" ∨ name.drop 6 = ascii "2" ∨
          0x70 ∈ name.drop 6 ∨ name.drop 6 = [] := by decide +kernel
      have rest : (DiskName.mmc number).text.drop 6 = decimal number := List.drop_left' rfl
      rcases rest ▸ ends _ isCandidate with one | two | letter | empty
      · rw [DiskName.partition, DiskName.text, one]
        rfl
      · rw [DiskName.partition, DiskName.text, two]
        rfl
      · exact absurd letter (decimal_no_byte rfl)
      · exact absurd empty (decimal_ne_nil number)
  | scsi letters =>
      have ends : ∀ name ∈ candidates, name.drop 2 = ascii "a" ∨ name.drop 2 = ascii "b" ∨
          name.drop 2 = ascii "c" ∨ ∃ byte ∈ name.drop 2, byte < 0x61 := by decide +kernel
      have rest : (DiskName.scsi letters).text.drop 2 = letters := List.drop_left' rfl
      rcases rest ▸ ends _ isCandidate with rfl | rfl | rfl | ⟨byte, member, below⟩
      · rfl
      · rfl
      · rfl
      · exact absurd below (UInt8.not_lt.mpr (named.2 byte member).1)

theorem unpartitioned_iff {media : Media} {name : Text} (isCandidate : name ∈ candidates)
    (accepted : Accepted media (devPath name)) :
    Unpartitioned media name ↔ ¬OtherPartition media name := by
  constructor
  · rintro whole ⟨disk, isDisk, isName, part, member, -⟩
    rw [whole disk isDisk isName] at member
    cases member
  · rintro first disk isDisk rfl
    refine List.eq_nil_iff_forall_not_mem.mpr fun part member => ?_
    have isFirst : part = 1 := not_not.mp fun other =>
      first ⟨disk, isDisk, rfl, part, member, other⟩
    subst isFirst
    have node : disk.name.partition 1 ∈ disk.nodes :=
      List.mem_cons_of_mem _ (List.mem_map_of_mem member)
    have child := accepted.noChild
    rw [hasChildPart_eq disk.wellNamed isCandidate, existsDev_node isDisk node] at child
    cases child

/-! ## The format -/

/-- A device that may be formatted, when the script looks at it and when `mkfs` runs. -/
structure Eligible (before after : Media) (name : Text) : Prop where
  offOsDisks : OffOsDisks before name
  notReserved : NotReserved after (devPath name)
  idle : Idle after name
  unpartitioned : Unpartitioned after name

/-- What the tests of the script cannot see does not occur. -/
structure Shown (media : Media) (name : Text) : Prop where
  os : ¬HiddenOs media name
  label : ¬HiddenLabel media (devPath name)
  mounts : ReleasedAtOnce media (devPath name) name
  parts : ¬OtherPartition media name

/-- The arguments with which the script comes to `mkfs`. -/
structure Goes (media : Media) (dev fs : Text) (busy : Bool) : Prop where
  known : readFilesystem fs ≠ none
  accepted : media.validate dev = .ok ()
  released : media.release dev busy ≠ none

theorem release_frame {media after : Media} {dev : Text} {busy : Bool}
    (released : media.release dev busy = some after) :
    after.disks = media.disks ∧ after.tags = media.tags := by
  rw [Media.release] at released
  split at released
  · cases released
    exact ⟨rfl, rfl⟩
  · split_ifs at released
    cases released
    exact ⟨rfl, rfl⟩

theorem eligible_iff {media after : Media} {name : Text} {busy : Bool}
    (isCandidate : name ∈ candidates) (accepted : Accepted media (devPath name))
    (released : media.release (devPath name) busy = some after) :
    Eligible media after name ↔ Shown media name := by
  have frame := release_frame released
  have reserved : NotReserved after (devPath name) ↔ ¬HiddenLabel media (devPath name) := by
    rw [NotReserved, frame.2]
    exact notReserved_iff accepted
  have whole : Unpartitioned after name ↔ ¬OtherPartition media name := by
    rw [Unpartitioned, frame.1]
    exact unpartitioned_iff isCandidate accepted
  have off := offOsDisks_iff isCandidate accepted
  have idle : Idle after name ↔ ReleasedAtOnce media (devPath name) name :=
    release_idle_iff released
  constructor
  · exact fun eligible => ⟨off.mp eligible.offOsDisks, reserved.mp eligible.notReserved,
      idle.mp eligible.idle, whole.mp eligible.unpartitioned⟩
  · exact fun shown => ⟨off.mpr shown.os, reserved.mpr shown.label, idle.mpr shown.mounts,
      whole.mpr shown.parts⟩

theorem formatDev_mkfs {media : Media} {dev fs label : Text} {busy mkfsWorks : Bool}
    {call : MkfsCall} (reached : (media.formatDev dev fs label busy mkfsWorks).mkfs = some call) :
    Goes media dev fs busy ∧ call.dev = dev ∧ media.release dev busy = some call.media := by
  rw [Media.formatDev] at reached
  split at reached
  · cases reached
  · rename_i known
    split at reached
    · cases reached
    · rename_i accepted
      split at reached
      · cases reached
      · rename_i released
        cases reached
        exact ⟨⟨by simp [known], accepted, by simp [released]⟩, rfl, released⟩

theorem mkfs_of_goes {media : Media} {dev fs : Text} {busy : Bool} (goes : Goes media dev fs busy)
    (label : Text) (mkfsWorks : Bool) :
    ∃ call, (media.formatDev dev fs label busy mkfsWorks).mkfs = some call := by
  rcases Option.ne_none_iff_exists'.mp goes.known with ⟨filesystem, known⟩
  rcases Option.ne_none_iff_exists'.mp goes.released with ⟨after, released⟩
  rw [Media.formatDev, known]
  simp only [goes.accepted, released]
  exact ⟨_, rfl⟩

/-- `mkfs` spares the OS disks, the reserved labels, the mounted devices and the partitioned
disks exactly where nothing of these is hidden from the tests. -/
theorem format_spares (media : Media) (dev fs label : Text) (busy mkfsWorks : Bool) :
    (∀ call, (media.formatDev dev fs label busy mkfsWorks).mkfs = some call →
      call.dev = dev ∧ Eligible media call.media (stripDev call.dev)) ↔
    (Goes media dev fs busy → Shown media (stripDev dev)) := by
  have exact : ∀ after, Goes media dev fs busy → media.release dev busy = some after →
      (Eligible media after (stripDev dev) ↔ Shown media (stripDev dev)) := by
    intro after goes released
    have accepted := validate_eq_ok goes.accepted
    rcases exists_candidate accepted.isPath accepted.candidate with ⟨name, isCandidate, rfl⟩
    rw [stripDev_devPath]
    exact eligible_iff isCandidate accepted released
  constructor
  · intro spares goes
    rcases mkfs_of_goes goes label mkfsWorks with ⟨call, reached⟩
    have facts := formatDev_mkfs reached
    have eligible := (spares call reached).2
    rw [facts.2.1] at eligible
    exact (exact call.media goes facts.2.2).mp eligible
  · intro shown call reached
    have facts := formatDev_mkfs reached
    refine ⟨facts.2.1, ?_⟩
    rw [facts.2.1]
    exact (exact call.media facts.1 facts.2.2).mpr (shown facts.1)

/-! ### A drive that is mounted twice -/

/-- A drive with one partition, which is mounted, and bound to a second directory. -/
def boundDrive : Media where
  disks := [⟨.scsi (ascii "a"), [1], by decide, by decide +kernel⟩]
  others := []
  mounts :=
    [⟨ascii "/dev/sda1", some (ascii "sda1"), ascii "/media/USB"⟩,
      ⟨ascii "/dev/sda1", some (ascii "sda1"), ascii "/storage/ports"⟩]
  tags := fun _ => [(ascii "LABEL", ascii "USB"), (ascii "TYPE", ascii "exfat")]

/-- The script unmounts the first directory, and formats what the second one still shows. -/
theorem format_mounted : ¬∀ (media : Media) (dev fs label : Text) (busy mkfsWorks : Bool) call,
    (media.formatDev dev fs label busy mkfsWorks).mkfs = some call →
      call.dev = dev ∧ Eligible media call.media (stripDev call.dev) := by
  intro spares
  have goes : Goes boundDrive (ascii "/dev/sda1") (ascii "exfat") false :=
    ⟨by decide +kernel, eq_ok_of_toOption (by decide +kernel),
      Option.isSome_iff_ne_none.mp (by decide +kernel)⟩
  have shown := (format_spares _ _ _ (ascii "USB") _ true).mp (spares _ _ _ _ _ _) goes
  have twice : ¬(mountsOf boundDrive.mounts (stripDev (ascii "/dev/sda1")) = [] ∨
      (mountsOf boundDrive.mounts (stripDev (ascii "/dev/sda1"))).length = 1) := by
    decide +kernel
  exact twice (shown.mounts.imp_right And.left)

end Zlyme.Storage
