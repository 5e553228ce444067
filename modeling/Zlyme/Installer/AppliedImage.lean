import Zlyme.Installer.BootOrderImage
import Zlyme.Installer.Shell

/-! # An image that was written by the script

What `apply-boot-order.sh` writes passes `check-image.sh`, keeps the DDR payload, and
differs from its input in the tree and the hash of each copy only. So the two checks that
the installer makes of it never refuse.
-/

namespace Zlyme.Installer

open Foundation Foundation.Bytes
open Preloader (Layout Sha256 zeros u16le)

/-! ## What the script has checked -/

structure Applied (layout : Layout) (sha : Sha256) (file out : Bytes) (ddr spl : Extent)
    (total : Nat) (new : Bytes) : Prop where
  own : OwnCopies layout file ddr spl
  isSealed : SealedCopies layout sha file ddr spl
  inside : spl.start layout.firstCopy + layout.dtbOff + total ≤
    spl.start layout.firstCopy + spl.length
  shrunk : new.length < total
  image : ∃ hash, hash.length = 32 ∧ out = writeHash
    (writeHash
      (writeTree (writeTree file new (spl.start layout.firstCopy + layout.dtbOff) total) new
        (spl.start layout.firstCopy + layout.dtbOff + layout.secondCopy - layout.firstCopy) total)
      hash layout.firstCopy) hash layout.secondCopy
  length : out.length = layout.size
  verified : ∀ base ∈ [layout.firstCopy, layout.secondCopy], ∀ i ≤ 1,
    verifyEntry sha out base i = .ok ()

theorem oldTree_eq_ok {layout : Layout} {file old : Bytes} {start length total : Nat}
    (read : oldTree layout file start length = .ok (total, old)) :
    start + layout.dtbOff + total ≤ start + length := by
  rcases bind_eq_ok.mp read with ⟨_, _, read⟩
  rcases bind_eq_ok.mp read with ⟨_, _, read⟩
  rcases bind_eq_ok.mp read with ⟨_, _, read⟩
  rcases bind_eq_ok.mp read with ⟨_, _, read⟩
  rcases bind_eq_ok.mp read with ⟨_, inside, read⟩
  rcases bind_eq_ok.mp read with ⟨_, _, same⟩
  cases same
  have inside := orDie_eq_ok.mp inside
  omega

theorem newTree_eq_ok {total : Nat} {old new : Bytes} (edited : newTree total old = .ok new) :
    new.length < total := by
  rcases bind_eq_ok.mp edited with ⟨tree, _, edited⟩
  rcases bind_eq_ok.mp edited with ⟨_, shrunk, edited⟩
  rcases bind_eq_ok.mp edited with ⟨_, _, same⟩
  cases same
  exact orDie_eq_ok.mp shrunk

theorem applyBootOrder_eq_ok {layout : Layout} {sha : Sha256} {file out : Bytes}
    (applied : applyBootOrder layout sha file = .ok out) :
    ∃ ddr spl total new, Applied layout sha file out ddr spl total new := by
  rcases bind_eq_ok.mp applied with ⟨⟨ddr, spl⟩, checked, applied⟩
  rcases bind_eq_ok.mp applied with ⟨⟨total, old⟩, isOld, applied⟩
  rcases bind_eq_ok.mp applied with ⟨new, isNew, applied⟩
  rcases bind_eq_ok.mp applied with ⟨_, length, applied⟩
  rcases bind_eq_ok.mp applied with ⟨_, first0, applied⟩
  rcases bind_eq_ok.mp applied with ⟨_, first1, applied⟩
  rcases bind_eq_ok.mp applied with ⟨_, second0, applied⟩
  rcases bind_eq_ok.mp applied with ⟨_, second1, applied⟩
  rcases bind_eq_ok.mp applied with ⟨_, _, applied⟩
  rcases bind_eq_ok.mp applied with ⟨_, _, applied⟩
  rcases bind_eq_ok.mp applied with ⟨_, _, same⟩
  cases same
  rcases checkOne_eq_ok.mp checked with ⟨own, isSealed⟩
  refine ⟨ddr, spl, total, new, ?_⟩
  exact {
    own, isSealed
    inside := oldTree_eq_ok isOld
    shrunk := newTree_eq_ok isNew
    image := ⟨_, sha.digest_length _, rfl⟩
    length := orDie_eq_ok.mp length
    verified := by
      intro base isCopy i small
      have isBase : base = layout.firstCopy ∨ base = layout.secondCopy := by simpa using isCopy
      have isEntry : i = 0 ∨ i = 1 := by omega
      rcases isBase with rfl | rfl
      · rcases isEntry with rfl | rfl
        · exact first0
        · exact first1
      · rcases isEntry with rfl | rfl
        · exact second0
        · exact second1 }

/-! ## What is not written to -/

theorem getElem?_writeTree {out new : Bytes} {place total index : Nat}
    (shrunk : new.length < total) (inside : place + total ≤ out.length)
    (outside : index < place ∨ place + total ≤ index) :
    (writeTree out new place total)[index]? = out[index]? := by
  have zerosLength : (zeros (total - new.length)).length = total - new.length :=
    List.length_replicate
  have written : (splice out place new).length = out.length := splice_length (by omega)
  rw [writeTree, getElem?_splice (by omega), if_neg (by omega), getElem?_splice (by omega),
    if_neg (by omega)]

theorem writeTree_length {out new : Bytes} {place total : Nat} (shrunk : new.length < total)
    (inside : place + total ≤ out.length) : (writeTree out new place total).length = out.length := by
  have zerosLength : (zeros (total - new.length)).length = total - new.length :=
    List.length_replicate
  have written : (splice out place new).length = out.length := splice_length (by omega)
  rw [writeTree, splice_length (by omega), written]

/-- A position in the tree or in the hash of one copy. -/
def Extent.MayWrite (layout : Layout) (base total : Nat) (spl : Extent) (index : Nat) : Prop :=
  (spl.start base + layout.dtbOff ≤ index ∧ index < spl.start base + layout.dtbOff + total) ∨
    (base + 0x78 + 0x58 + 0x18 ≤ index ∧ index < base + 0x78 + 0x58 + 0x38)

namespace Applied

variable {layout : Layout} {sha : Sha256} {file out : Bytes} {ddr spl : Extent} {total : Nat}
  {new : Bytes} (applied : Applied layout sha file out ddr spl total new)
include applied

/-- How the two entries lie in the two copies. -/
theorem places :
    (∀ extent ∈ [ddr, spl], layout.firstCopy + 0x200 ≤ extent.start layout.firstCopy ∧
      extent.start layout.firstCopy + extent.length ≤ layout.secondCopy ∧
      layout.secondCopy + 0x200 ≤ extent.start layout.secondCopy ∧
      extent.start layout.secondCopy + extent.length ≤ file.length ∧
      extent.start layout.firstCopy + layout.secondCopy =
        extent.start layout.secondCopy + layout.firstCopy) ∧
    (ddr.start layout.firstCopy + ddr.length ≤ spl.start layout.firstCopy ∨
      spl.start layout.firstCopy + spl.length ≤ ddr.start layout.firstCopy) := by
  have length := applied.isSealed.length
  constructor
  · intro extent member
    have inside := applied.own.inside extent member
    have offPos := inside.1.off_pos
    have inCopy := inside.1.inCopy
    have inImage := inside.2.inImage
    simp only [Extent.start] at inCopy inImage ⊢
    omega
  · have apart := applied.own.apart
    simp only [Extent.start, Extent.length]
    omega

theorem frame {index : Nat} (first : ¬spl.MayWrite layout layout.firstCopy total index)
    (second : ¬spl.MayWrite layout layout.secondCopy total index) : out[index]? = file[index]? := by
  rcases applied.places with ⟨places, _⟩
  have places := places spl (by simp)
  have inside := applied.inside
  have shrunk := applied.shrunk
  have copiesInside := layout.copies_inside
  have apart := layout.copies_apart
  have length := applied.isSealed.length
  rcases applied.image with ⟨hash, hashLength, image⟩
  simp only [Extent.MayWrite, not_or, not_and, Nat.not_lt] at first second
  have firstLength := writeTree_length shrunk
    (show spl.start layout.firstCopy + layout.dtbOff + total ≤ file.length by omega)
  have secondLength := writeTree_length shrunk
    (show spl.start layout.firstCopy + layout.dtbOff + layout.secondCopy - layout.firstCopy +
      total ≤ (writeTree file new (spl.start layout.firstCopy + layout.dtbOff) total).length by
      omega)
  have firstHashed : (writeHash (writeTree
      (writeTree file new (spl.start layout.firstCopy + layout.dtbOff) total) new
      (spl.start layout.firstCopy + layout.dtbOff + layout.secondCopy - layout.firstCopy) total)
      hash layout.firstCopy).length = file.length := by
    rw [writeHash, splice_length (by omega), secondLength, firstLength]
  rw [image, writeHash, getElem?_splice (by omega), if_neg (by omega), writeHash,
    getElem?_splice (by omega), if_neg (by omega), getElem?_writeTree shrunk (by omega) (by omega),
    getElem?_writeTree shrunk (by omega) (by omega)]

/-- The entry tables stay, up to the hash of the SPL. -/
theorem table_kept {base index : Nat} (isCopy : base ∈ [layout.firstCopy, layout.secondCopy])
    (lower : base ≤ index) (upper : index < base + 0x78 + 0x58 + 0x18) :
    out[index]? = file[index]? := by
  have places := applied.places.1 spl (by simp)
  have inside := applied.inside
  have apart := layout.copies_apart
  have isBase : base = layout.firstCopy ∨ base = layout.secondCopy := by simpa using isCopy
  apply applied.frame
  · rw [Extent.MayWrite]
    omega
  · rw [Extent.MayWrite]
    omega

theorem own_out : OwnCopies layout out ddr spl := by
  have length := applied.isSealed.length.trans applied.length.symm
  have kept : ∀ base ∈ [layout.firstCopy, layout.secondCopy], ∀ i ≤ 1, ∀ extent : Extent,
      extent.Listed file base i → extent.Listed out base i := by
    intro base isCopy i small extent listed
    have entry : entryAt base i = base + 0x78 + i * 0x58 := rfl
    have readable := listed.readable
    exact {
      readable := by omega
      off := (Preloader.u16le_congr fun index lower upper =>
        applied.table_kept isCopy (by omega) (by omega)).trans listed.off
      cnt := (Preloader.u16le_congr fun index lower upper =>
        applied.table_kept isCopy (by omega) (by omega)).trans listed.cnt }
  exact {
    listed := fun base isCopy =>
      ⟨kept base isCopy 0 (by omega) ddr (applied.own.listed base isCopy).1,
        kept base isCopy 1 (by omega) spl (applied.own.listed base isCopy).2⟩
    inside := applied.own.inside
    apart := applied.own.apart }

theorem sealed_out {base i : Nat} (isCopy : base ∈ [layout.firstCopy, layout.secondCopy])
    (small : i ≤ 1) {extent : Extent} (listed : extent.Listed out base i) :
    extent.Sealed sha out base i := by
  rcases bind_eq_ok.mp (applied.verified base isCopy i small) with ⟨off, readOff, verified⟩
  rcases bind_eq_ok.mp verified with ⟨cnt, readCnt, verified⟩
  have isOff := (readField_eq_ok.mp readOff).2.symm.trans listed.off
  have isCnt := (readField_eq_ok.mp readCnt).2.symm.trans listed.cnt
  subst isOff
  subst isCnt
  exact orDie_eq_ok.mp verified

/-- The hash of the SPL is written into both copies. -/
theorem splHash_out : storedHash out (entryAt layout.firstCopy 1) =
    storedHash out (entryAt layout.secondCopy 1) := by
  have places := applied.places.1 spl (by simp)
  have inside := applied.inside
  have shrunk := applied.shrunk
  have copiesInside := layout.copies_inside
  have apart := layout.copies_apart
  have length := applied.isSealed.length
  rcases applied.image with ⟨hash, hashLength, image⟩
  have outLength := applied.length
  have firstLength := writeTree_length shrunk
    (show spl.start layout.firstCopy + layout.dtbOff + total ≤ file.length by omega)
  have secondLength := writeTree_length shrunk
    (show spl.start layout.firstCopy + layout.dtbOff + layout.secondCopy - layout.firstCopy +
      total ≤ (writeTree file new (spl.start layout.firstCopy + layout.dtbOff) total).length by
      omega)
  have firstHashed : (writeHash (writeTree
      (writeTree file new (spl.start layout.firstCopy + layout.dtbOff) total) new
      (spl.start layout.firstCopy + layout.dtbOff + layout.secondCopy - layout.firstCopy) total)
      hash layout.firstCopy).length = file.length := by
    rw [writeHash, splice_length (by omega), secondLength, firstLength]
  have first : storedHash out (entryAt layout.firstCopy 1) = hash := by
    rw [storedHash, image, writeHash, entryAt, slice_splice_of_disjoint (by omega) (by omega),
      writeHash, ← hashLength]
    exact slice_splice_self (by omega)
  have second : storedHash out (entryAt layout.secondCopy 1) = hash := by
    rw [storedHash, image, writeHash, entryAt, ← hashLength]
    exact slice_splice_self (by omega)
  rw [first, second]

theorem ddrHash_out {base : Nat} (isCopy : base ∈ [layout.firstCopy, layout.secondCopy]) :
    storedHash out (entryAt base 0) = storedHash file (entryAt base 0) := by
  have entry : entryAt base 0 = base + 0x78 + 0 * 0x58 := rfl
  exact slice_congr fun index lower upper => applied.table_kept isCopy (by omega) (by omega)

theorem sealed_copies_out : SealedCopies layout sha out ddr spl := by
  have own := applied.own_out
  have firstCopy : layout.firstCopy ∈ [layout.firstCopy, layout.secondCopy] := by simp
  have secondCopy : layout.secondCopy ∈ [layout.firstCopy, layout.secondCopy] := by simp
  have sealedOut : ∀ base ∈ [layout.firstCopy, layout.secondCopy],
      ddr.Sealed sha out base 0 ∧ spl.Sealed sha out base 1 := fun base isCopy =>
    ⟨applied.sealed_out isCopy (by omega) (own.listed base isCopy).1,
      applied.sealed_out isCopy (by omega) (own.listed base isCopy).2⟩
  have ddrSame := applied.isSealed.same ddr (by simp)
  have ddrFirst := applied.ddrHash_out firstCopy
  have ddrSecond := applied.ddrHash_out secondCopy
  have fileFirst := (applied.isSealed.isSealed _ firstCopy).1
  have fileSecond := (applied.isSealed.isSealed _ secondCopy).1
  have splHash := applied.splHash_out
  exact {
    length := applied.length
    magic := fun base isCopy => (slice_congr fun index lower upper =>
      applied.table_kept isCopy lower (by omega)).trans (applied.isSealed.magic base isCopy)
    isSealed := sealedOut
    same := by
      have outFirst := sealedOut _ firstCopy
      have outSecond := sealedOut _ secondCopy
      simp only [Extent.Sealed] at outFirst outSecond fileFirst fileSecond
      have ddrOut : shaRange sha out (ddr.start layout.firstCopy) ddr.length =
          shaRange sha out (ddr.start layout.secondCopy) ddr.length := by
        rw [← outFirst.1, ← outSecond.1, ddrFirst, ddrSecond, fileFirst, fileSecond, ddrSame]
      have splOut : shaRange sha out (spl.start layout.firstCopy) spl.length =
          shaRange sha out (spl.start layout.secondCopy) spl.length := by
        rw [← outFirst.2, ← outSecond.2, splHash]
      simpa using ⟨ddrOut, splOut⟩ }

/-- The DDR payload of the first copy is not written to. -/
theorem ddr_kept :
    slice out (ddr.start layout.firstCopy) (ddr.start layout.firstCopy + ddr.length) =
      slice file (ddr.start layout.firstCopy) (ddr.start layout.firstCopy + ddr.length) := by
  have ddrPlaces := applied.places.1 ddr (by simp)
  have splPlaces := applied.places.1 spl (by simp)
  have apart := applied.places.2
  have inside := applied.inside
  apply slice_congr
  intro index lower upper
  apply applied.frame
  · rw [Extent.MayWrite]
    omega
  · rw [Extent.MayWrite]
    omega

end Applied

/-! ## The checks of the installer -/

theorem ddrOf_eq {layout : Layout} (sectored : Sectored layout) {file : Bytes} {ddr spl : Extent}
    (own : OwnCopies layout file ddr spl) :
    ddrOf layout file = .ok
      (slice file (ddr.start layout.firstCopy) (ddr.start layout.firstCopy + ddr.length)) := by
  have listed := (own.listed layout.firstCopy (by simp)).1
  have readable := listed.readable
  have off : u16le file (layout.firstCopy + 0x78) = ddr.off := listed.off
  have cnt : u16le file (layout.firstCopy + 0x78 + 2) = ddr.cnt := listed.cnt
  have positive := (own.inside ddr (by simp)).1.cnt_pos
  have entry : entryAt layout.firstCopy 0 = layout.firstCopy + 0x78 := rfl
  refine bind_eq_ok.mpr ⟨ddr.off, readField_eq_ok.mpr ⟨by omega, off⟩,
    bind_eq_ok.mpr ⟨ddr.cnt, readField_eq_ok.mpr ⟨by omega, cnt⟩,
    bind_eq_ok.mpr ⟨(), orDie_of positive _, ?_⟩⟩⟩
  rw [sectored_ddr sectored.1]
  rfl

/-- Where the output of the script may differ from its input. -/
def SplWritten (layout : Layout) (file : Bytes) (index : Nat) : Prop :=
  ∃ ddr spl total, OwnCopies layout file ddr spl ∧ layout.dtbOff + total ≤ spl.length ∧
    (spl.MayWrite layout layout.firstCopy total index ∨
      spl.MayWrite layout layout.secondCopy total index)

theorem Applied.accepted {layout : Layout} {sha : Sha256} {file out : Bytes} {ddr spl : Extent}
    {total : Nat} {new : Bytes} (applied : Applied layout sha file out ddr spl total new)
    (sectored : Sectored layout) :
    checkImage layout sha out = .ok () ∧ ddrCmp layout sha file out = .ok () := by
  have fileChecked := checkOne_eq_ok.mpr ⟨applied.own, applied.isSealed⟩
  have outChecked := checkOne_eq_ok.mpr ⟨applied.own_out, applied.sealed_copies_out⟩
  exact ⟨bind_eq_ok.mpr ⟨_, outChecked, rfl⟩, bind_eq_ok.mpr ⟨_, fileChecked,
    bind_eq_ok.mpr ⟨_, outChecked, bind_eq_ok.mpr ⟨_, ddrOf_eq sectored applied.own,
    bind_eq_ok.mpr ⟨_, ddrOf_eq sectored applied.own_out,
    orDie_of applied.ddr_kept.symm _⟩⟩⟩⟩⟩

/-- The image tools of the installer, beside the tool that patches an image. -/
def scriptHost (layout : Layout) (sha : Sha256) (sectored : Sectored layout)
    (patch : Bytes → Patched) : Host layout.size where
  sha
  checkImage image := (checkImage layout sha image).isOk
  ddrSame left right := (ddrCmp layout sha left right).isOk
  patch
  applyBootOrder image :=
    match applyBootOrder layout sha image with
    | .ok out => .edited out
    | .error .already => .already
    | .error _ => .refused
  checkImage_length := by
    intro image accepted
    cases checked : checkImage layout sha image with
    | error reason => rw [checked] at accepted; cases accepted
    | ok =>
        rcases bind_eq_ok.mp checked with ⟨⟨ddr, spl⟩, passed, _⟩
        exact (checkOne_eq_ok.mp passed).2.length
  ddrSame_refl := by
    intro image accepted
    cases checked : checkImage layout sha image with
    | error reason => rw [checked] at accepted; cases accepted
    | ok =>
        rcases bind_eq_ok.mp checked with ⟨⟨ddr, spl⟩, passed, _⟩
        have ddr := ddrOf_eq sectored (checkOne_eq_ok.mp passed).1
        have same : ddrCmp layout sha image image = .ok () :=
          bind_eq_ok.mpr ⟨_, passed, bind_eq_ok.mpr ⟨_, passed, bind_eq_ok.mpr ⟨_, ddr,
            bind_eq_ok.mpr ⟨_, ddr, orDie_of rfl _⟩⟩⟩⟩
        rw [same]
        rfl

/-- The checks that the installer makes of an edited image pass. -/
theorem scriptHost_passes {layout : Layout} {sha : Sha256} (sectored : Sectored layout)
    (patch : Bytes → Patched) {image out : Bytes}
    (edited : (scriptHost layout sha sectored patch).applyBootOrder image = .edited out) :
    (scriptHost layout sha sectored patch).checkImage out = true ∧
      (scriptHost layout sha sectored patch).ddrSame image out = true := by
  have written : applyBootOrder layout sha image = .ok out := by
    simp only [scriptHost] at edited
    split at edited
    · rename_i isOut
      cases edited
      exact isOut
    · cases edited
    · cases edited
  rcases applyBootOrder_eq_ok written with ⟨ddr, spl, total, new, applied⟩
  rcases applied.accepted sectored with ⟨checked, sameDdr⟩
  simp only [scriptHost]
  rw [checked, sameDdr]
  exact ⟨rfl, rfl⟩

end Zlyme.Installer
