import Zlyme.Installer.ImageTools

/-! # What the image check accepts

`check-image.sh` accepts an image when the Python tool finds two equal pairs of entries in
it, and each entry lies in its own copy, at the same place as in the other copy and apart
from its neighbour.
-/

namespace Zlyme.Installer

open Foundation Foundation.Bytes
open Preloader (Layout Sha256 IdbEntry PyError u16le parseEntry parseCopy parse paired)

/-! ## Passed checks -/

theorem orDie_eq_ok {condition : Prop} [Decidable condition] {message : String} {result : Unit} :
    orDie condition message = .ok result ↔ condition := by
  rw [orDie]
  split
  · rename_i holds
    exact iff_of_true rfl holds
  · rename_i fails
    exact iff_of_false (by intro same; cases same) fails

theorem orDie_of {condition : Prop} [Decidable condition] (holds : condition) (message : String) :
    orDie condition message = .ok () :=
  orDie_eq_ok.mpr holds

theorem slice_length_iff (file : Bytes) (off count : Nat) (positive : 0 < count) :
    (slice file off (off + count)).length = count ↔ off + count ≤ file.length := by
  rw [slice, Nat.add_sub_cancel_left, List.length_take, List.length_drop]
  omega

theorem readField_eq_ok {file : Bytes} {off value : Nat} :
    readField file off = .ok value ↔ off + 2 ≤ file.length ∧ u16le file off = value := by
  constructor
  · intro read
    rcases bind_eq_ok.mp read with ⟨_, long, same⟩
    cases same
    exact ⟨(slice_length_iff file off 2 (by decide)).mp (orDie_eq_ok.mp long), rfl⟩
  · rintro ⟨long, rfl⟩
    exact bind_eq_ok.mpr
      ⟨(), orDie_of ((slice_length_iff file off 2 (by decide)).mpr long) _, rfl⟩

/-! ## One entry -/

/-- The entry lies in its own copy, behind the sector of the entry table. -/
structure Extent.Inside (layout : Layout) (base limit : Nat) (extent : Extent) : Prop where
  off_pos : 1 ≤ extent.off
  cnt_pos : 1 ≤ extent.cnt
  inCopy : extent.start base + extent.length ≤ limit
  inImage : extent.start base + extent.length ≤ layout.size

theorem entryInCopy_eq_ok {layout : Layout} {base limit : Nat} {extent : Extent} {result : Unit} :
    entryInCopy layout base extent limit = .ok result ↔ extent.Inside layout base limit := by
  constructor
  · intro passed
    rcases bind_eq_ok.mp passed with ⟨_, offPos, passed⟩
    rcases bind_eq_ok.mp passed with ⟨_, _, passed⟩
    rcases bind_eq_ok.mp passed with ⟨_, cntPos, passed⟩
    rcases bind_eq_ok.mp passed with ⟨_, _, passed⟩
    rcases bind_eq_ok.mp passed with ⟨_, _, passed⟩
    rcases bind_eq_ok.mp passed with ⟨_, _, passed⟩
    rcases bind_eq_ok.mp passed with ⟨_, inCopy, inImage⟩
    exact ⟨orDie_eq_ok.mp offPos, orDie_eq_ok.mp cntPos, orDie_eq_ok.mp inCopy,
      orDie_eq_ok.mp inImage⟩
  · rintro ⟨offPos, cntPos, inCopy, inImage⟩
    have start : extent.start base = base + extent.off * 512 := rfl
    have length : extent.length = extent.cnt * 512 := rfl
    exact bind_eq_ok.mpr ⟨(), orDie_of offPos _,
      bind_eq_ok.mpr ⟨(), orDie_of (by omega) _, bind_eq_ok.mpr ⟨(), orDie_of cntPos _,
      bind_eq_ok.mpr ⟨(), orDie_of (by omega) _, bind_eq_ok.mpr ⟨(), orDie_of (by omega) _,
      bind_eq_ok.mpr ⟨(), orDie_of (by omega) _, bind_eq_ok.mpr ⟨(), orDie_of inCopy _,
      orDie_of inImage _⟩⟩⟩⟩⟩⟩⟩

/-- The two fields of an entry. -/
structure Extent.Listed (file : Bytes) (base i : Nat) (extent : Extent) : Prop where
  readable : entryAt base i + 4 ≤ file.length
  off : u16le file (entryAt base i) = extent.off
  cnt : u16le file (entryAt base i + 2) = extent.cnt

/-- The stored hash is the one of the payload. -/
abbrev Extent.Sealed (sha : Sha256) (file : Bytes) (base i : Nat) (extent : Extent) : Prop :=
  storedHash file (entryAt base i) = shaRange sha file (extent.start base) extent.length

theorem checkEntry_eq_ok {layout : Layout} {sha : Sha256} {file : Bytes} {base limit i : Nat}
    {extent : Extent} :
    checkEntry layout sha file base limit i = .ok extent ↔
      extent.Listed file base i ∧ extent.Inside layout base limit ∧
        extent.Sealed sha file base i := by
  constructor
  · intro passed
    rcases bind_eq_ok.mp passed with ⟨off, readOff, passed⟩
    rcases bind_eq_ok.mp passed with ⟨cnt, readCnt, passed⟩
    rcases bind_eq_ok.mp passed with ⟨_, inside, passed⟩
    rcases bind_eq_ok.mp passed with ⟨_, isSealed, same⟩
    cases same
    rcases readField_eq_ok.mp readOff with ⟨_, offIs⟩
    rcases readField_eq_ok.mp readCnt with ⟨long, cntIs⟩
    exact ⟨⟨by omega, offIs, cntIs⟩, entryInCopy_eq_ok.mp inside, orDie_eq_ok.mp isSealed⟩
  · rintro ⟨⟨readable, offIs, cntIs⟩, inside, isSealed⟩
    exact bind_eq_ok.mpr ⟨_, readField_eq_ok.mpr ⟨by omega, offIs⟩,
      bind_eq_ok.mpr ⟨_, readField_eq_ok.mpr ⟨by omega, cntIs⟩,
      bind_eq_ok.mpr ⟨(), entryInCopy_eq_ok.mpr inside,
      bind_eq_ok.mpr ⟨(), orDie_of isSealed _, rfl⟩⟩⟩⟩

/-! ## One image -/

/-- Both copies start at a sector, so that `dd` reads what the fields say. -/
def Sectored (layout : Layout) : Prop :=
  layout.firstCopy % 512 = 0 ∧ layout.secondCopy % 512 = 0

theorem my355_sectored : Sectored Preloader.my355 :=
  ⟨by decide, by decide⟩

theorem sectors_eq {base : Nat} (aligned : base % 512 = 0) (file : Bytes) (extent : Extent) :
    sectors file (extent.start base) extent.length =
      slice file (extent.start base) (extent.start base + extent.length) := by
  have start : (base + extent.off * 512) / 512 * 512 = base + extent.off * 512 := by omega
  rw [sectors, Extent.start, Extent.length, start, Nat.mul_div_left _ (by decide)]

theorem sectored_ddr {base : Nat} (aligned : base % 512 = 0) (extent : Extent) :
    (base / 512 + extent.off) * 512 = extent.start base := by
  rw [Extent.start]
  omega

/-- The places of the entries, as `check-image.sh` wants them. -/
structure OwnCopies (layout : Layout) (file : Bytes) (ddr spl : Extent) : Prop where
  listed : ∀ base ∈ [layout.firstCopy, layout.secondCopy],
    ddr.Listed file base 0 ∧ spl.Listed file base 1
  inside : ∀ extent ∈ [ddr, spl],
    extent.Inside layout layout.firstCopy layout.secondCopy ∧
      extent.Inside layout layout.secondCopy layout.size
  apart : ¬(ddr.off < spl.off + spl.cnt ∧ spl.off < ddr.off + ddr.cnt)

/-- What is equal in the two copies. -/
structure SealedCopies (layout : Layout) (sha : Sha256) (file : Bytes) (ddr spl : Extent) :
    Prop where
  length : file.length = layout.size
  magic : ∀ base ∈ [layout.firstCopy, layout.secondCopy],
    slice file base (base + 4) = Preloader.text "RKNS"
  isSealed : ∀ base ∈ [layout.firstCopy, layout.secondCopy],
    ddr.Sealed sha file base 0 ∧ spl.Sealed sha file base 1
  same : ∀ extent ∈ [ddr, spl], shaRange sha file (extent.start layout.firstCopy) extent.length =
    shaRange sha file (extent.start layout.secondCopy) extent.length

theorem checkCopy_eq_ok {layout : Layout} {sha : Sha256} {file : Bytes} {base limit : Nat}
    {ddr spl : Extent} :
    checkCopy layout sha file base limit = .ok (ddr, spl) ↔
      slice file base (base + 4) = Preloader.text "RKNS" ∧
        checkEntry layout sha file base limit 0 = .ok ddr ∧
        checkEntry layout sha file base limit 1 = .ok spl := by
  constructor
  · intro passed
    rcases bind_eq_ok.mp passed with ⟨_, magic, passed⟩
    rcases bind_eq_ok.mp passed with ⟨_, isDdr, passed⟩
    rcases bind_eq_ok.mp passed with ⟨_, isSpl, same⟩
    cases same
    exact ⟨orDie_eq_ok.mp magic, isDdr, isSpl⟩
  · rintro ⟨magic, isDdr, isSpl⟩
    exact bind_eq_ok.mpr ⟨(), orDie_of magic _, bind_eq_ok.mpr ⟨ddr, isDdr,
      bind_eq_ok.mpr ⟨spl, isSpl, rfl⟩⟩⟩

theorem checkOne_eq_ok {layout : Layout} {sha : Sha256} {file : Bytes} {ddr spl : Extent} :
    checkOne layout sha file = .ok (ddr, spl) ↔
      OwnCopies layout file ddr spl ∧ SealedCopies layout sha file ddr spl := by
  constructor
  · intro passed
    rcases bind_eq_ok.mp passed with ⟨_, length, passed⟩
    rcases bind_eq_ok.mp passed with ⟨⟨ddr', spl'⟩, first, passed⟩
    rcases bind_eq_ok.mp passed with ⟨⟨ddrOther, splOther⟩, second, passed⟩
    rcases bind_eq_ok.mp passed with ⟨_, geometry, passed⟩
    rcases bind_eq_ok.mp passed with ⟨_, apart, passed⟩
    rcases bind_eq_ok.mp passed with ⟨_, splSame, passed⟩
    rcases bind_eq_ok.mp passed with ⟨_, ddrSame, same⟩
    cases same
    rcases orDie_eq_ok.mp geometry with ⟨rfl, rfl⟩
    rcases checkCopy_eq_ok.mp first with ⟨magic, ddrFirst, splFirst⟩
    rcases checkCopy_eq_ok.mp second with ⟨magic', ddrSecond, splSecond⟩
    rcases checkEntry_eq_ok.mp ddrFirst with ⟨ddrListed, ddrInside, ddrSealed⟩
    rcases checkEntry_eq_ok.mp splFirst with ⟨splListed, splInside, splSealed⟩
    rcases checkEntry_eq_ok.mp ddrSecond with ⟨ddrListed', ddrInside', ddrSealed'⟩
    rcases checkEntry_eq_ok.mp splSecond with ⟨splListed', splInside', splSealed'⟩
    constructor
    · exact {
        listed := by simpa using ⟨⟨ddrListed, splListed⟩, ddrListed', splListed'⟩
        inside := by simpa using ⟨⟨ddrInside, ddrInside'⟩, splInside, splInside'⟩
        apart := orDie_eq_ok.mp apart }
    · exact {
        length := orDie_eq_ok.mp length
        magic := by simpa using ⟨magic, magic'⟩
        isSealed := by simpa using ⟨⟨ddrSealed, splSealed⟩, ddrSealed', splSealed'⟩
        same := by simpa using ⟨orDie_eq_ok.mp ddrSame, orDie_eq_ok.mp splSame⟩ }
  · rintro ⟨own, isSealed⟩
    have copy : ∀ base limit, base ∈ [layout.firstCopy, layout.secondCopy] →
        ddr.Inside layout base limit → spl.Inside layout base limit →
        checkCopy layout sha file base limit = .ok (ddr, spl) := by
      intro base limit member ddrInside splInside
      exact checkCopy_eq_ok.mpr ⟨isSealed.magic base member,
        checkEntry_eq_ok.mpr
          ⟨(own.listed base member).1, ddrInside, (isSealed.isSealed base member).1⟩,
        checkEntry_eq_ok.mpr
          ⟨(own.listed base member).2, splInside, (isSealed.isSealed base member).2⟩⟩
    have ddrInside := own.inside ddr (by simp)
    have splInside := own.inside spl (by simp)
    exact bind_eq_ok.mpr ⟨(), orDie_of isSealed.length _,
      bind_eq_ok.mpr ⟨_, copy _ _ (by simp) ddrInside.1 splInside.1,
      bind_eq_ok.mpr ⟨_, copy _ _ (by simp) ddrInside.2 splInside.2,
      bind_eq_ok.mpr ⟨(), orDie_of ⟨rfl, rfl⟩ _, bind_eq_ok.mpr ⟨(), orDie_of own.apart _,
      bind_eq_ok.mpr ⟨(), orDie_of (isSealed.same spl (by simp)) _,
      bind_eq_ok.mpr ⟨(), orDie_of (isSealed.same ddr (by simp)) _, rfl⟩⟩⟩⟩⟩⟩⟩

/-! ## The Python tool on the same image -/

/-- The entry that the Python tool finds. -/
def itemOf (file : Bytes) (base i : Nat) (extent : Extent) : IdbEntry where
  copy := base
  index := i
  entry := entryAt base i
  start := extent.start base
  payload := slice file (extent.start base) (extent.start base + extent.length)

section Entry

variable {sha : Sha256} {file : Bytes} {base i : Nat} {extent : Extent}

theorem parseEntry_of_sealed (aligned : base % 512 = 0) (listed : extent.Listed file base i)
    (positive : 1 ≤ extent.cnt) (inside : extent.start base + extent.length ≤ file.length)
    (isSealed : extent.Sealed sha file base i) :
    parseEntry sha file base i = .ok (itemOf file base i extent) := by
  rw [Extent.Sealed, shaRange, sectors_eq aligned, storedHash] at isSealed
  have off : u16le file (base + 0x78 + i * Preloader.entrySize) = extent.off := listed.off
  have cnt : u16le file (base + 0x78 + i * Preloader.entrySize + 2) = extent.cnt := listed.cnt
  rw [parseEntry]
  dsimp only
  rw [off, cnt, Preloader.refuseIf_of_not (show ¬extent.cnt ≤ 0 by omega), ok_bind]
  exact bind_eq_ok.mpr ⟨(), Preloader.refuseIf_of_not (Nat.not_lt_of_le inside) _,
    bind_eq_ok.mpr ⟨(), Preloader.refuseIf_of_not (not_not_intro isSealed.symm) _, rfl⟩⟩

/-- An entry that is parsed is the one of the two fields. -/
theorem sealed_of_facts {item : IdbEntry} (aligned : base % 512 = 0)
    (listed : extent.Listed file base i) (facts : Preloader.EntryFacts sha file base i item) :
    item.start = extent.start base ∧
      item.payload = slice file (extent.start base) (extent.start base + extent.length) ∧
      extent.Sealed sha file base i := by
  have entry : item.entry = entryAt base i := facts.entry
  have start := facts.start
  have payload := facts.payload
  have isSealed := facts.sealed
  rw [entry, listed.off] at start
  rw [entry, listed.cnt, start] at payload
  rw [entry, payload] at isSealed
  refine ⟨start, payload, ?_⟩
  rw [Extent.Sealed, shaRange, sectors_eq aligned, storedHash]
  exact isSealed.symm

end Entry

/-- The entries of one image that share a digest share their bytes. -/
def NoTwins (layout : Layout) (sha : Sha256) (file : Bytes) : Prop :=
  ∀ found, parse layout sha file = .ok found → ∀ left ∈ found, ∀ right ∈ found,
    sha.digest left.payload = sha.digest right.payload → left.payload = right.payload

section Image

variable {layout : Layout} {sha : Sha256} {file : Bytes} {ddr spl : Extent}
  (sectored : Sectored layout) (own : OwnCopies layout file ddr spl)

include sectored own

theorem parse_of_sealed (isSealed : SealedCopies layout sha file ddr spl) :
    parse layout sha file = .ok
      [itemOf file layout.firstCopy 0 ddr, itemOf file layout.firstCopy 1 spl,
        itemOf file layout.secondCopy 0 ddr, itemOf file layout.secondCopy 1 spl] := by
  have length := isSealed.length
  have copy : ∀ base ∈ [layout.firstCopy, layout.secondCopy], base % 512 = 0 →
      ddr.start base + ddr.length ≤ layout.size → spl.start base + spl.length ≤ layout.size →
      parseCopy sha file base = .ok [itemOf file base 0 ddr, itemOf file base 1 spl] := by
    intro base member aligned ddrInside splInside
    have listed := own.listed base member
    have hashes := isSealed.isSealed base member
    have ddrPositive := (own.inside ddr (by simp)).1.cnt_pos
    have splPositive := (own.inside spl (by simp)).1.cnt_pos
    have isDdr := parseEntry_of_sealed aligned listed.1 ddrPositive (by omega) hashes.1
    have isSpl := parseEntry_of_sealed aligned listed.2 splPositive (by omega) hashes.2
    exact bind_eq_ok.mpr ⟨(), Preloader.refuseIf_of_not
      (not_not_intro (isSealed.magic base member)) _, bind_eq_ok.mpr ⟨_, isDdr,
      bind_eq_ok.mpr ⟨_, isSpl, rfl⟩⟩⟩
  have ddrInside := own.inside ddr (by simp)
  have splInside := own.inside spl (by simp)
  exact bind_eq_ok.mpr ⟨(), Preloader.refuseIf_of_not (not_not_intro length) _,
    bind_eq_ok.mpr ⟨_, copy _ (by simp) sectored.1 ddrInside.1.inImage splInside.1.inImage,
    bind_eq_ok.mpr ⟨_, copy _ (by simp) sectored.2 ddrInside.2.inImage splInside.2.inImage, rfl⟩⟩⟩

theorem paired_of_sealed (isSealed : SealedCopies layout sha file ddr spl)
    (noTwins : NoTwins layout sha file) :
    paired layout sha file = .ok
      ((itemOf file layout.firstCopy 0 ddr).payload, itemOf file layout.firstCopy 1 spl,
        itemOf file layout.secondCopy 1 spl) := by
  have parsed := parse_of_sealed sectored own isSealed
  have ddrSame := isSealed.same ddr (by simp)
  have splSame := isSealed.same spl (by simp)
  rw [shaRange, shaRange, sectors_eq sectored.1, sectors_eq sectored.2] at ddrSame splSame
  have ddrTwin := noTwins _ parsed (itemOf file layout.firstCopy 0 ddr) (by simp)
    (itemOf file layout.secondCopy 0 ddr) (by simp) ddrSame
  have splTwin := noTwins _ parsed (itemOf file layout.firstCopy 1 spl) (by simp)
    (itemOf file layout.secondCopy 1 spl) (by simp) splSame
  refine bind_eq_ok.mpr ⟨_, parsed, ?_⟩
  exact bind_eq_ok.mpr ⟨(), Preloader.refuseIf_of_not (not_not_intro ddrTwin) _,
    bind_eq_ok.mpr ⟨(), Preloader.refuseIf_of_not (not_not_intro splTwin) _, rfl⟩⟩

theorem sealed_of_paired {payload : Bytes} {first second : IdbEntry}
    (accepted : paired layout sha file = .ok (payload, first, second)) :
    SealedCopies layout sha file ddr spl ∧
      payload = (itemOf file layout.firstCopy 0 ddr).payload ∧
      first.start = spl.start layout.firstCopy ∧ second.start = spl.start layout.secondCopy ∧
      first.payload = (itemOf file layout.firstCopy 1 spl).payload ∧
      second.payload = (itemOf file layout.secondCopy 1 spl).payload := by
  have facts := Preloader.paired_eq_ok accepted
  rcases facts.parsed with ⟨ddrFirst, ddrSecond, parsed, _, _, isFirst, isSecond⟩
  rcases bind_eq_ok.mp parsed with ⟨_, length, parsed⟩
  rcases bind_eq_ok.mp parsed with ⟨copyFirst, firstParsed, parsed⟩
  rcases bind_eq_ok.mp parsed with ⟨copySecond, secondParsed, same⟩
  rcases bind_eq_ok.mp firstParsed with ⟨_, firstMagic, _⟩
  rcases bind_eq_ok.mp secondParsed with ⟨_, secondMagic, _⟩
  rcases Preloader.parseCopy_eq_ok firstParsed with ⟨ddr0, spl0, rfl, ddr0Facts, spl0Facts⟩
  rcases Preloader.parseCopy_eq_ok secondParsed with ⟨ddr1, spl1, rfl, ddr1Facts, spl1Facts⟩
  cases same
  have listed := own.listed layout.firstCopy (by simp)
  have listed' := own.listed layout.secondCopy (by simp)
  rcases sealed_of_facts sectored.1 listed.1 ddr0Facts with ⟨_, ddr0Payload, ddr0Sealed⟩
  rcases sealed_of_facts sectored.1 listed.2 spl0Facts with ⟨spl0Start, spl0Payload, spl0Sealed⟩
  rcases sealed_of_facts sectored.2 listed'.1 ddr1Facts with ⟨_, ddr1Payload, ddr1Sealed⟩
  rcases sealed_of_facts sectored.2 listed'.2 spl1Facts with ⟨spl1Start, spl1Payload, spl1Sealed⟩
  have ddrSame : ddrFirst.payload = ddrSecond.payload := isFirst.trans isSecond.symm
  have splSame := facts.same
  rw [ddr0Payload, ddr1Payload] at ddrSame
  rw [spl0Payload, spl1Payload] at splSame
  refine ⟨?_, isFirst.symm.trans ddr0Payload, spl0Start, spl1Start, spl0Payload, spl1Payload⟩
  exact {
    length := facts.length
    magic := by
      simpa using ⟨Decidable.of_not_not (Preloader.refuseIf_eq_ok firstMagic),
        Decidable.of_not_not (Preloader.refuseIf_eq_ok secondMagic)⟩
    isSealed := by simpa using ⟨⟨ddr0Sealed, spl0Sealed⟩, ddr1Sealed, spl1Sealed⟩
    same := by
      simp only [shaRange, sectors_eq sectored.1, sectors_eq sectored.2]
      simpa using ⟨congrArg sha.digest ddrSame, congrArg sha.digest splSame⟩ }

end Image

theorem sampleLayout_sectored : Sectored Preloader.sampleLayout :=
  ⟨by decide, by decide⟩

theorem stockImage_own : OwnCopies Preloader.sampleLayout Preloader.stockImage ⟨1, 1⟩ ⟨2, 2⟩ where
  listed := by
    have copy := Preloader.sampleCopy_length Preloader.stockSpl_length
      (rfl : Preloader.stockDigest.length = 32)
    have long : Preloader.stockImage.length = 4096 := by
      rw [Preloader.stockImage, List.length_append, copy]
    rcases Preloader.sampleCopy_slices Preloader.stockSpl_length
      (rfl : Preloader.stockDigest.length = 32) with ⟨_, ddrOff, ddrCnt, _, splOff, splCnt, _⟩
    intro base member
    have places : base = 0 ∨ base = 2048 := by simpa [Preloader.sampleLayout] using member
    have read : ∀ start stop, stop ≤ 2048 →
        slice Preloader.stockImage (base + start) (base + stop) =
          slice (Preloader.sampleCopy Preloader.stockSpl Preloader.stockDigest) start stop := by
      intro start stop inside
      rcases places with rfl | rfl
      · rw [Nat.zero_add, Nat.zero_add]
        exact slice_append_left (by omega)
      · rw [Preloader.stockImage, slice_append_right (by omega), copy, Nat.add_sub_cancel_left,
          Nat.add_sub_cancel_left]
    refine ⟨⟨?_, congrArg fromLe ((read 0x78 0x7a (by decide)).trans ddrOff),
        congrArg fromLe ((read 0x7a 0x7c (by decide)).trans ddrCnt)⟩,
      ?_, congrArg fromLe ((read 0xd0 0xd2 (by decide)).trans splOff),
        congrArg fromLe ((read 0xd2 0xd4 (by decide)).trans splCnt)⟩
    all_goals
      rw [long]
      rcases places with rfl | rfl <;> decide
  inside extent member := by
    have extents : extent = ⟨1, 1⟩ ∨ extent = ⟨2, 2⟩ := by simpa using member
    rcases extents with rfl | rfl <;>
      exact ⟨⟨by decide, by decide, by decide, by decide⟩, by decide, by decide, by decide,
        by decide⟩
  apart := by decide

theorem stockImage_checkOne :
    checkOne Preloader.sampleLayout Preloader.sampleSha Preloader.stockImage =
      .ok (⟨1, 1⟩, ⟨2, 2⟩) :=
  checkOne_eq_ok.mpr ⟨stockImage_own, (sealed_of_paired sampleLayout_sectored stockImage_own
    (Preloader.stockImage_pair Preloader.sampleSha_digests)).1⟩

theorem stockImage_noTwins :
    NoTwins Preloader.sampleLayout Preloader.sampleSha Preloader.stockImage := by
  have facts := Preloader.paired_eq_ok
    (Preloader.stockImage_pair Preloader.sampleSha_digests)
  rcases facts.parsed with ⟨ddrFirst, ddrSecond, parsed, _, _, isFirst, isSecond⟩
  have differ : Preloader.sampleSha.digest Preloader.sampleDdr ≠
      Preloader.sampleSha.digest Preloader.stockSpl := by
    rw [Preloader.sampleSha_ddr, Preloader.sampleSha_stock]
    decide +kernel
  have payloads : ∀ item ∈ [ddrFirst, Preloader.sampleEntry 0 Preloader.stockSpl, ddrSecond,
      Preloader.sampleEntry 2048 Preloader.stockSpl],
      item.payload = Preloader.sampleDdr ∨ item.payload = Preloader.stockSpl := by
    intro item member
    simp only [List.mem_cons, List.not_mem_nil, or_false] at member
    rcases member with rfl | rfl | rfl | rfl
    · exact .inl isFirst
    · exact .inr rfl
    · exact .inl isSecond
    · exact .inr rfl
  intro found isFound left inLeft right inRight same
  cases parsed.symm.trans isFound
  rcases payloads left inLeft with isLeft | isLeft <;>
    rcases payloads right inRight with isRight | isRight <;> rw [isLeft, isRight] at same ⊢
  · exact absurd same differ
  · exact absurd same.symm differ

end Zlyme.Installer
