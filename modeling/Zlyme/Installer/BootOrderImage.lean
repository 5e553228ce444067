import Zlyme.Installer.ImageCheck

/-! # The installer's transform of an image

`apply-boot-order.sh` writes the image of `derive_bytes`, in another order: both trees
first, then both hashes.
-/

namespace Zlyme.Installer

open Foundation Foundation.Bytes
open Preloader (Layout Sha256 zeros u16le paired fdt rebuildPayload replaceBootOrder)

/-! ## Writes -/

section Writes

variable {α : Type} {xs ys zs : List α} {start other : Nat}

theorem slice_slice {a b count : Nat} (inside : b ≤ count) :
    slice (slice xs start (start + count)) a b = slice xs (start + a) (start + b) := by
  apply List.ext_getElem?
  intro index
  rw [getElem?_slice, getElem?_slice, getElem?_slice, Nat.add_sub_add_left, Nat.add_assoc,
    Nat.add_sub_cancel_left]
  by_cases within : index < b - a
  · rw [if_pos within, if_pos within, if_pos (by omega)]
  · rw [if_neg within, if_neg within]

/-- Two writes that do not meet commute. -/
theorem splice_comm (apart : start + ys.length ≤ other) (inside : other + zs.length ≤ xs.length) :
    splice (splice xs other zs) start ys = splice (splice xs start ys) other zs := by
  have firstLength : (splice xs start ys).length = xs.length := splice_length (by omega)
  have secondLength : (splice xs other zs).length = xs.length := splice_length inside
  apply List.ext_getElem?
  intro index
  rw [getElem?_splice (by omega), getElem?_splice (by omega), getElem?_splice (by omega),
    getElem?_splice (by omega)]
  by_cases within : start ≤ index ∧ index < start + ys.length
  · rw [if_pos within, if_neg (by omega), if_pos within]
  · rw [if_neg within, if_neg within]

end Writes

section Payload

variable {layout : Layout} {payload blob edited : Bytes}

theorem getElem?_rebuildPayload (fits : layout.dtbOff + edited.length ≤ payload.length) {index : Nat}
    (within : index < payload.length) :
    (rebuildPayload layout payload edited)[index]? =
      if index < layout.dtbOff then payload[index]?
      else if index < layout.dtbOff + edited.length then edited[index - layout.dtbOff]?
      else some 0 := by
  have taken : (payload.take layout.dtbOff).length = layout.dtbOff := by
    rw [List.length_take]
    omega
  rw [rebuildPayload, List.append_assoc, List.getElem?_append, taken]
  by_cases before : index < layout.dtbOff
  · rw [if_pos before, if_pos before, List.getElem?_take, if_pos before]
  · rw [if_neg before, if_neg before, List.getElem?_append]
    by_cases inTree : index < layout.dtbOff + edited.length
    · rw [if_pos inTree, if_pos (by omega)]
    · rw [if_neg inTree, if_neg (by omega), List.getElem?_replicate, if_pos (by omega)]

/-- The tree and the zeros behind it make the payload that the Python tool builds. -/
theorem writeTree_eq {out : Bytes} {start : Nat} (isTree : fdt layout payload = .ok blob)
    (shrunk : edited.length < blob.length)
    (held : slice out start (start + payload.length) = payload)
    (inside : start + payload.length ≤ out.length) :
    writeTree out edited (start + layout.dtbOff) blob.length =
      splice out start (rebuildPayload layout payload edited) := by
  have tree := Preloader.fdt_eq_ok_iff.mp isTree
  have treeInside := tree.inside
  have blobLength : blob.length = Preloader.treeTotal layout payload := by
    rw [tree.tree, slice_length treeInside, Nat.add_sub_cancel_left]
  have rebuiltLength : (rebuildPayload layout payload edited).length = payload.length :=
    Preloader.rebuildPayload_length (by omega)
  have zerosLength : (zeros (blob.length - edited.length)).length =
      blob.length - edited.length := List.length_replicate
  have firstLength : (splice out (start + layout.dtbOff) edited).length = out.length :=
    splice_length (by omega)
  have byte : ∀ index, start ≤ index → index < start + payload.length →
      out[index]? = payload[index - start]? := by
    intro index lower upper
    rw [← held, getElem?_slice, if_pos (by omega), Nat.add_sub_cancel' lower]
  have tail : ∀ index, layout.dtbOff + blob.length ≤ index → index < payload.length →
      payload[index]? = some 0 := by
    intro index lower upper
    have rest := congrArg (·[index - (layout.dtbOff + blob.length)]?) tree.rest
    simp only [← blobLength, List.getElem?_drop, List.getElem?_replicate] at rest
    rwa [if_pos (by omega), Nat.add_sub_cancel' lower] at rest
  apply List.ext_getElem?
  intro index
  rw [writeTree, getElem?_splice (by omega), getElem?_splice (by omega),
    getElem?_splice (by omega), rebuiltLength, zerosLength]
  by_cases within : start ≤ index ∧ index < start + payload.length
  · rw [if_pos within, getElem?_rebuildPayload (by omega) (by omega)]
    by_cases before : index - start < layout.dtbOff
    · rw [if_neg (by omega), if_neg (by omega), if_pos before]
      exact byte index within.1 within.2
    · rw [if_neg before]
      by_cases inTree : index - start < layout.dtbOff + edited.length
      · rw [if_neg (by omega), if_pos (by omega), if_pos inTree, Nat.sub_sub]
      · rw [if_neg inTree]
        by_cases inOld : index - start < layout.dtbOff + blob.length
        · rw [if_pos (by omega), List.getElem?_replicate, if_pos (by omega)]
        · rw [if_neg (by omega), if_neg (by omega), byte index within.1 within.2]
          exact tail _ (by omega) (by omega)
  · rw [if_neg within, if_neg (by omega), if_neg (by omega)]

/-- A word is stored as its bytes, least significant byte first. -/
theorem packBe32_fromLe {bytes : Bytes} (four : bytes.length = 4) :
    bytes = (packBe32 (fromLe bytes)).reverse := by
  match bytes, four with
  | [b0, b1, b2, b3], _ =>
      have unpacked : unpackBe32 [b3, b2, b1, b0] = some (fromLe [b0, b1, b2, b3]) := rfl
      rw [← BootOrder.take_of_unpackBe32 unpacked]
      rfl

/-- The checks of the Python tool on a payload are those of the script on the image. -/
theorem oldTree_of_fdt {file : Bytes} {start : Nat} (isTree : fdt layout payload = .ok blob)
    (nonempty : 0 < blob.length)
    (held : slice file start (start + payload.length) = payload) :
    oldTree layout file start payload.length = .ok (blob.length, blob) := by
  have tree := Preloader.fdt_eq_ok_iff.mp isTree
  have treeInside := tree.inside
  have long := tree.long
  have tableBefore := layout.table_before_tree
  have callBefore := layout.call_before_tree
  have blobLength : blob.length = Preloader.treeTotal layout payload := by
    rw [tree.tree, slice_length treeInside, Nat.add_sub_cancel_left]
  have part : ∀ a b, b ≤ payload.length →
      slice file (start + a) (start + b) = slice payload a b := by
    intro a b inside
    rw [← slice_slice inside, held]
  have offset : slice file (start + 16) (start + 16 + 4) = (packBe32 layout.dtbOff).reverse := by
    rw [Nat.add_assoc, part 16 20 (by omega), ← tree.offset]
    exact packBe32_fromLe (slice_length (by omega))
  have call : slice file (start + layout.bootCall) (start + layout.bootCall + 4) =
      Preloader.bootCallInsn := by
    rw [Nat.add_assoc, part _ _ (by omega), tree.call]
  have banner : Preloader.contains Preloader.splBanner
      (slice file start (start + layout.dtbOff)) = true := by
    have front := part 0 layout.dtbOff (by omega)
    rw [Nat.add_zero] at front
    rw [front, slice, List.drop_zero, Nat.sub_zero, tree.banner]
  have magic : slice file (start + layout.dtbOff) (start + layout.dtbOff + 4) =
      Preloader.fdtMagic := by
    rw [Nat.add_assoc, part _ _ (by omega), tree.magic]
  have total : fromBe (slice file (start + layout.dtbOff + 4) (start + layout.dtbOff + 4 + 4)) =
      blob.length := by
    rw [Nat.add_assoc, Nat.add_assoc, Nat.add_assoc, part _ _ (by omega), blobLength]
    rfl
  have tail : (slice file (start + layout.dtbOff + blob.length) (start + payload.length)).filter
      (· ≠ 0) = [] := by
    have rest := tree.rest
    rw [← blobLength] at rest
    rw [Nat.add_assoc, part _ _ (Nat.le_refl _), slice, rest, List.filter_eq_nil_iff]
    intro byte member
    have isZero := List.eq_of_mem_replicate (List.mem_of_mem_take member)
    simp [isZero]
  have whole : slice file (start + layout.dtbOff) (start + layout.dtbOff + blob.length) = blob := by
    rw [Nat.add_assoc, part _ _ (by omega), blobLength, ← tree.tree]
  rw [oldTree]
  dsimp only
  rw [total]
  exact bind_eq_ok.mpr ⟨(), orDie_of offset _, bind_eq_ok.mpr ⟨(), orDie_of call _,
    bind_eq_ok.mpr ⟨(), orDie_of banner _, bind_eq_ok.mpr ⟨(), orDie_of magic _,
    bind_eq_ok.mpr ⟨(), orDie_of (by omega) _,
    bind_eq_ok.mpr ⟨(), orDie_of (congrArg List.length tail) _, by rw [whole]; rfl⟩⟩⟩⟩⟩⟩

/-- The blocks of the tree follow one another. -/
abbrev StringsFollow (blob : Bytes) : Prop :=
  (Preloader.readHeader blob).offStr =
    (Preloader.readHeader blob).offStruct + (Preloader.readHeader blob).sizeStruct

theorem newTree_of_edit (replaced : replaceBootOrder Preloader.rightSlotName blob = .ok edited)
    (shrunk : edited.length < blob.length) (follow : StringsFollow blob) :
    newTree blob.length blob = .ok edited := by
  rcases Preloader.replaceBootOrder_eq_ok replaced with ⟨edit⟩
  rcases edit.rebuilt with ⟨pos, value, rebuilt⟩
  rcases Preloader.bootOrder_eq_ok rebuilt with ⟨walked, accepted, _⟩
  have magic := (Preloader.walk_eq_ok accepted).magic
  have printed := BootOrder.bootorder_of_edit edit
    (by rw [(Preloader.walk_eq_ok edit.accepted).header, follow])
  rw [newTree, awkTree, printed]
  dsimp only
  rw [Hex.toBytes_ofBytes, ok_bind]
  exact bind_eq_ok.mpr ⟨(), orDie_of shrunk _, bind_eq_ok.mpr ⟨(), orDie_of magic _, rfl⟩⟩

end Payload

/-! ## The image that is written -/

/-- An image that the check accepts and the Python tool derives an image from. -/
structure Transform (layout : Layout) (sha : Sha256) (file : Bytes) (ddr spl : Extent)
    (rebuilt : Preloader.Rebuilt) (blob edited : Bytes) : Prop where
  sectored : Sectored layout
  own : OwnCopies layout file ddr spl
  facts : Preloader.RebuildFacts layout sha file rebuilt
  isTree : fdt layout rebuilt.first.payload = .ok blob
  replaced : replaceBootOrder Preloader.rightSlotName blob = .ok edited
  shrunk : edited.length < blob.length
  payload : rebuilt.payload = rebuildPayload layout rebuilt.first.payload edited

namespace Transform

variable {layout : Layout} {sha : Sha256} {file : Bytes} {ddr spl : Extent}
  {rebuilt : Preloader.Rebuilt} {blob edited : Bytes}
  (transform : Transform layout sha file ddr spl rebuilt blob edited)
include transform

theorem sealed_copies : SealedCopies layout sha file ddr spl :=
  (sealed_of_paired transform.sectored transform.own transform.facts.accepted).1

theorem starts :
    rebuilt.first.start = spl.start layout.firstCopy ∧
      rebuilt.second.start = spl.start layout.secondCopy := by
  rcases sealed_of_paired transform.sectored transform.own transform.facts.accepted with
    ⟨_, _, first, second, _, _⟩
  exact ⟨first, second⟩

theorem entries :
    rebuilt.first.entry + 0x18 = layout.firstCopy + 0x78 + 0x58 + 0x18 ∧
      rebuilt.second.entry + 0x18 = layout.secondCopy + 0x78 + 0x58 + 0x18 := by
  have first := transform.facts.pair.firstFacts.entry
  have second := transform.facts.pair.secondFacts.entry
  rw [Preloader.splIndex, Preloader.entrySize] at first second
  omega

theorem payload_length : rebuilt.first.payload.length = spl.length := by
  have length := transform.sealed_copies.length
  have inImage := (transform.own.inside spl (by simp)).1.inImage
  rcases sealed_of_paired transform.sectored transform.own transform.facts.accepted with
    ⟨_, _, _, _, payload, _⟩
  rw [payload, itemOf, slice_length (by omega), Nat.add_sub_cancel_left]

/-- The same payload stands in both copies. -/
theorem held :
    slice file (spl.start layout.firstCopy)
        (spl.start layout.firstCopy + rebuilt.first.payload.length) = rebuilt.first.payload ∧
      slice file (spl.start layout.secondCopy)
        (spl.start layout.secondCopy + rebuilt.first.payload.length) = rebuilt.first.payload := by
  have length := transform.payload_length
  have same := transform.facts.pair.same
  rcases sealed_of_paired transform.sectored transform.own transform.facts.accepted with
    ⟨_, _, _, _, first, second⟩
  rw [length]
  exact ⟨first.symm, (same.trans second).symm⟩

/-- How the parts of the image lie. -/
theorem places :
    layout.firstCopy + 0x200 ≤ spl.start layout.firstCopy ∧
      spl.start layout.firstCopy + rebuilt.first.payload.length ≤ layout.secondCopy ∧
      layout.secondCopy + 0x200 ≤ spl.start layout.secondCopy ∧
      spl.start layout.secondCopy + rebuilt.first.payload.length ≤ file.length ∧
      spl.start layout.firstCopy + layout.secondCopy =
        spl.start layout.secondCopy + layout.firstCopy ∧
      rebuilt.payload.length = rebuilt.first.payload.length := by
  have length := transform.sealed_copies.length
  have sized := transform.payload_length
  have rebuiltLength := transform.facts.payload_length
  have inside := transform.own.inside spl (by simp)
  have offPos := inside.1.off_pos
  have inCopy := inside.1.inCopy
  have inImage := inside.2.inImage
  simp only [Extent.start] at inCopy inImage ⊢
  omega

/-- Both trees are written as the Python tool writes both payloads. -/
theorem trees_written :
    writeTree
        (writeTree file edited (spl.start layout.firstCopy + layout.dtbOff) blob.length) edited
        (spl.start layout.firstCopy + layout.dtbOff + layout.secondCopy - layout.firstCopy)
        blob.length =
      splice (splice file (spl.start layout.firstCopy) rebuilt.payload)
        (spl.start layout.secondCopy) rebuilt.payload := by
  rcases transform.places with ⟨_, inFirst, afterSecond, inSecond, shifted, sized⟩
  have held := transform.held
  have firstLength : (splice file (spl.start layout.firstCopy) rebuilt.payload).length =
      file.length := splice_length (by omega)
  have heldSecond : slice (splice file (spl.start layout.firstCopy) rebuilt.payload)
      (spl.start layout.secondCopy)
      (spl.start layout.secondCopy + rebuilt.first.payload.length) = rebuilt.first.payload := by
    rw [slice_splice_of_disjoint (by omega) (by omega), held.2]
  have other : spl.start layout.firstCopy + layout.dtbOff + layout.secondCopy -
      layout.firstCopy = spl.start layout.secondCopy + layout.dtbOff := by omega
  rw [writeTree_eq transform.isTree transform.shrunk held.1 (by omega), ← transform.payload, other,
    writeTree_eq transform.isTree transform.shrunk heldSecond (by omega), ← transform.payload]

/-- The hash that is written is the one of the new payload. -/
theorem hash_written :
    shaRange sha (splice (splice file (spl.start layout.firstCopy) rebuilt.payload)
      (spl.start layout.secondCopy) rebuilt.payload) (spl.start layout.firstCopy) spl.length =
      sha.digest rebuilt.payload := by
  rcases transform.places with ⟨_, inFirst, afterSecond, inSecond, shifted, sized⟩
  have firstLength : (splice file (spl.start layout.firstCopy) rebuilt.payload).length =
      file.length := splice_length (by omega)
  have stored : slice (splice file (spl.start layout.firstCopy) rebuilt.payload)
      (spl.start layout.firstCopy) (spl.start layout.firstCopy + rebuilt.payload.length) =
      rebuilt.payload := slice_splice_self (by omega)
  rw [shaRange, sectors_eq transform.sectored.1,
    slice_splice_of_disjoint (by omega) (by rw [← transform.payload_length]; omega),
    ← transform.payload_length, ← sized, stored]

/-- The image that the script writes is the one that the Python tool returns. -/
theorem image_written :
    writeHash
        (writeHash
          (splice (splice file (spl.start layout.firstCopy) rebuilt.payload)
            (spl.start layout.secondCopy) rebuilt.payload)
          (sha.digest rebuilt.payload) layout.firstCopy)
        (sha.digest rebuilt.payload) layout.secondCopy =
      Preloader.resealBoth sha rebuilt file := by
  rcases transform.places with ⟨_, inFirst, afterSecond, inSecond, shifted, sized⟩
  have digest := sha.digest_length rebuilt.payload
  have apart := layout.copies_apart
  have firstLength : (splice file (spl.start layout.firstCopy) rebuilt.payload).length =
      file.length := splice_length (by omega)
  have swap : splice
        (splice (splice file (spl.start layout.firstCopy) rebuilt.payload)
          (spl.start layout.secondCopy) rebuilt.payload)
        (layout.firstCopy + 0x78 + 0x58 + 0x18) (sha.digest rebuilt.payload) =
      splice
        (splice (splice file (spl.start layout.firstCopy) rebuilt.payload)
          (layout.firstCopy + 0x78 + 0x58 + 0x18) (sha.digest rebuilt.payload))
        (spl.start layout.secondCopy) rebuilt.payload := splice_comm (by omega) (by omega)
  rw [Preloader.resealBoth, Preloader.reseal, Preloader.reseal, transform.starts.1,
    transform.starts.2, transform.entries.1, transform.entries.2, writeHash, writeHash, swap]

/-- The fields of the entry tables stay. -/
theorem table_kept {base index : Nat} (isCopy : base ∈ [layout.firstCopy, layout.secondCopy])
    (lower : base + 0x78 ≤ index) (upper : index < base + 0x78 + 0x58 + 0x18) :
    (Preloader.resealBoth sha rebuilt file)[index]? = file[index]? := by
  rcases transform.places with ⟨afterFirst, inFirst, afterSecond, inSecond, shifted, sized⟩
  have starts := transform.starts
  have entries := transform.entries
  have apart := layout.copies_apart
  have sameLength := congrArg List.length transform.facts.pair.same
  have isBase : base = layout.firstCopy ∨ base = layout.secondCopy := by simpa using isCopy
  apply transform.facts.frame
  · rw [Preloader.MayChange]
    omega
  · rw [Preloader.MayChange]
    omega

theorem own_written : OwnCopies layout (Preloader.resealBoth sha rebuilt file) ddr spl := by
  have length := transform.facts.resealBoth_length
  have kept : ∀ base ∈ [layout.firstCopy, layout.secondCopy], ∀ i ≤ 1, ∀ extent : Extent,
      extent.Listed file base i →
      extent.Listed (Preloader.resealBoth sha rebuilt file) base i := by
    intro base isCopy i small extent listed
    have entry : entryAt base i = base + 0x78 + i * 0x58 := rfl
    have readable := listed.readable
    exact {
      readable := by omega
      off := (Preloader.u16le_congr fun index lower upper =>
        transform.table_kept isCopy (by omega) (by omega)).trans listed.off
      cnt := (Preloader.u16le_congr fun index lower upper =>
        transform.table_kept isCopy (by omega) (by omega)).trans listed.cnt }
  exact {
    listed := fun base isCopy =>
      ⟨kept base isCopy 0 (by omega) ddr (transform.own.listed base isCopy).1,
        kept base isCopy 1 (by omega) spl (transform.own.listed base isCopy).2⟩
    inside := transform.own.inside
    apart := transform.own.apart }

/-- The payload that is written is read back. -/
theorem written_payload :
    slice (Preloader.resealBoth sha rebuilt file) (spl.start layout.firstCopy)
      (spl.start layout.firstCopy + rebuilt.payload.length) = rebuilt.payload := by
  rcases transform.places with ⟨afterFirst, inFirst, afterSecond, inSecond, shifted, sized⟩
  have digest := sha.digest_length rebuilt.payload
  have apart := layout.copies_apart
  have firstLength : (splice file (spl.start layout.firstCopy) rebuilt.payload).length =
      file.length := splice_length (by omega)
  have secondLength : (splice (splice file (spl.start layout.firstCopy) rebuilt.payload)
      (spl.start layout.secondCopy) rebuilt.payload).length = file.length := by
    rw [splice_length (by omega), firstLength]
  have hashedLength : (splice (splice (splice file (spl.start layout.firstCopy) rebuilt.payload)
      (spl.start layout.secondCopy) rebuilt.payload) (layout.firstCopy + 0x78 + 0x58 + 0x18)
      (sha.digest rebuilt.payload)).length = file.length := by
    rw [splice_length (by omega), secondLength]
  rw [← transform.image_written, writeHash, writeHash,
    slice_splice_of_disjoint (by omega) (by omega), slice_splice_of_disjoint (by omega) (by omega),
    slice_splice_of_disjoint (by omega) (by omega)]
  exact slice_splice_self (by omega)

/-- The code before the tree is not written to. -/
theorem written_code {a b : Nat} (inside : b ≤ layout.dtbOff) :
    slice (Preloader.resealBoth sha rebuilt file) (spl.start layout.firstCopy + a)
      (spl.start layout.firstCopy + b) =
    slice file (spl.start layout.firstCopy + a) (spl.start layout.firstCopy + b) := by
  have long := (Preloader.fdt_eq_ok_iff.mp transform.isTree).long
  rcases transform.places with ⟨_, _, _, _, _, sized⟩
  rw [← slice_slice (show b ≤ rebuilt.payload.length by omega), transform.written_payload,
    transform.payload, Preloader.slice_rebuildPayload_before (by omega) inside,
    ← slice_slice (show b ≤ rebuilt.first.payload.length by omega), transform.held.1]

end Transform

theorem verifyEntry_of_sealed {sha : Sha256} {out : Bytes} {base i : Nat} {extent : Extent}
    (listed : extent.Listed out base i) (isSealed : extent.Sealed sha out base i) :
    verifyEntry sha out base i = .ok () := by
  have readable := listed.readable
  exact bind_eq_ok.mpr ⟨_, readField_eq_ok.mpr ⟨by omega, listed.off⟩,
    bind_eq_ok.mpr ⟨_, readField_eq_ok.mpr ⟨by omega, listed.cnt⟩, orDie_of isSealed _⟩⟩

/-! ## The transform -/

/-- The device tree that the Python tool edits. -/
def splTree (layout : Layout) (sha : Sha256) (file : Bytes) : Except Preloader.PyError Bytes := do
  let (_, first, _) ← paired layout sha file
  fdt layout first.payload

section Derive

variable {layout : Layout} {sha : Sha256} {file produced : Bytes}

theorem transform_of_derive (sectored : Sectored layout) {ddr spl : Extent}
    (own : OwnCopies layout file ddr spl)
    (derived : Preloader.deriveBytes layout sha file = .ok produced) :
    ∃ rebuilt blob edited, Transform layout sha file ddr spl rebuilt blob edited ∧
      splTree layout sha file = .ok blob ∧ produced = Preloader.resealBoth sha rebuilt file ∧
      ∃ first second, paired layout sha produced = .ok (rebuilt.ddr, first, second) := by
  rcases Preloader.deriveBytes_eq_ok derived with ⟨rebuilt, first, second, facts⟩
  have built := Preloader.rebuild_eq_ok facts.built
  rcases built.tree with ⟨blob, edited, isTree, replaced, shrunk, payload⟩
  exact ⟨rebuilt, blob, edited, ⟨sectored, own, built, isTree, replaced, shrunk, payload⟩,
    bind_eq_ok.mpr ⟨_, built.accepted, isTree⟩, facts.image, first, second, facts.accepted⟩

/-- With the strings block behind the struct block, the script writes the image that the
Python tool returns. -/
theorem Transform.applyBootOrder_eq {ddr spl : Extent} {rebuilt : Preloader.Rebuilt}
    {blob edited : Bytes} (transform : Transform layout sha file ddr spl rebuilt blob edited)
    (follow : StringsFollow blob) (isProduced : produced = Preloader.resealBoth sha rebuilt file)
    {first second : Preloader.IdbEntry}
    (accepted : paired layout sha produced = .ok (rebuilt.ddr, first, second)) :
    applyBootOrder layout sha file = .ok produced := by
  have checked : checkOne layout sha file = .ok (ddr, spl) :=
    checkOne_eq_ok.mpr ⟨transform.own, transform.sealed_copies⟩
  have nonempty : 0 < blob.length := Nat.zero_lt_of_lt transform.shrunk
  have old := oldTree_of_fdt transform.isTree nonempty transform.held.1
  rw [transform.payload_length] at old
  have new := newTree_of_edit transform.replaced transform.shrunk follow
  subst isProduced
  have own := transform.own_written
  rcases sealed_of_paired transform.sectored own accepted with ⟨isSealed, sameDdr, _⟩
  rcases sealed_of_paired transform.sectored transform.own transform.facts.accepted with
    ⟨_, isDdr, _⟩
  have firstListed := own.listed layout.firstCopy (by simp)
  have secondListed := own.listed layout.secondCopy (by simp)
  have firstSealed := isSealed.isSealed layout.firstCopy (by simp)
  have secondSealed := isSealed.isSealed layout.secondCopy (by simp)
  have ddrKept : slice file (ddr.start layout.firstCopy)
        (ddr.start layout.firstCopy + ddr.length) =
      slice (Preloader.resealBoth sha rebuilt file) (ddr.start layout.firstCopy)
        (ddr.start layout.firstCopy + ddr.length) := isDdr.symm.trans sameDdr
  have tree := Preloader.fdt_eq_ok_iff.mp transform.isTree
  have long := tree.long
  have callBefore := layout.call_before_tree
  have code : slice (Preloader.resealBoth sha rebuilt file) (spl.start layout.firstCopy)
        (spl.start layout.firstCopy + layout.dtbOff) =
      slice file (spl.start layout.firstCopy) (spl.start layout.firstCopy + layout.dtbOff) :=
    transform.written_code (a := 0) (Nat.le_refl _)
  have call : slice (Preloader.resealBoth sha rebuilt file)
      (spl.start layout.firstCopy + layout.bootCall)
      (spl.start layout.firstCopy + layout.bootCall + 4) = Preloader.bootCallInsn := by
    rw [Nat.add_assoc, transform.written_code callBefore,
      ← slice_slice (show layout.bootCall + 4 ≤ rebuilt.first.payload.length by omega),
      transform.held.1, tree.call]
  rw [applyBootOrder, checked, ok_bind]
  dsimp only
  rw [old, ok_bind]
  dsimp only
  rw [new, ok_bind, transform.trees_written, transform.hash_written, transform.image_written,
    sectored_ddr transform.sectored.1]
  exact bind_eq_ok.mpr ⟨(), orDie_of isSealed.length _,
    bind_eq_ok.mpr ⟨(), verifyEntry_of_sealed firstListed.1 firstSealed.1,
    bind_eq_ok.mpr ⟨(), verifyEntry_of_sealed firstListed.2 firstSealed.2,
    bind_eq_ok.mpr ⟨(), verifyEntry_of_sealed secondListed.1 secondSealed.1,
    bind_eq_ok.mpr ⟨(), verifyEntry_of_sealed secondListed.2 secondSealed.2,
    bind_eq_ok.mpr ⟨(), orDie_of (congrArg sha.digest ddrKept) _,
    bind_eq_ok.mpr ⟨(), orDie_of (congrArg sha.digest code.symm) _,
    bind_eq_ok.mpr ⟨(), orDie_of call _, rfl⟩⟩⟩⟩⟩⟩⟩⟩

/-- Without it, awk refuses the tree. -/
theorem Transform.applyBootOrder_refuses {ddr spl : Extent} {rebuilt : Preloader.Rebuilt}
    {blob edited : Bytes} (transform : Transform layout sha file ddr spl rebuilt blob edited)
    (apart : ¬StringsFollow blob) :
    applyBootOrder layout sha file = .error (.die "boot-order edit failed") := by
  have checked : checkOne layout sha file = .ok (ddr, spl) :=
    checkOne_eq_ok.mpr ⟨transform.own, transform.sealed_copies⟩
  have nonempty : 0 < blob.length := Nat.zero_lt_of_lt transform.shrunk
  have old := oldTree_of_fdt transform.isTree nonempty transform.held.1
  rw [transform.payload_length] at old
  rw [applyBootOrder, checked, ok_bind]
  dsimp only
  rw [old, ok_bind]
  dsimp only
  rw [newTree, awkTree, BootOrder.bootorder_refuses transform.replaced apart]
  rfl

/-- The image that is written holds the edited tree, which the script leaves alone. -/
theorem Transform.applyBootOrder_again {ddr spl : Extent} {rebuilt : Preloader.Rebuilt}
    {blob edited : Bytes} (transform : Transform layout sha file ddr spl rebuilt blob edited)
    (inOrder : Preloader.BlocksInOrder blob)
    (isProduced : produced = Preloader.resealBoth sha rebuilt file)
    {first second : Preloader.IdbEntry}
    (accepted : paired layout sha produced = .ok (rebuilt.ddr, first, second)) :
    applyBootOrder layout sha produced = .error .already := by
  subst isProduced
  have own := transform.own_written
  have isSealed := (sealed_of_paired transform.sectored own accepted).1
  have checked : checkOne layout sha (Preloader.resealBoth sha rebuilt file) = .ok (ddr, spl) :=
    checkOne_eq_ok.mpr ⟨own, isSealed⟩
  rcases Preloader.replaceBootOrder_eq_ok transform.replaced with ⟨edit⟩
  rcases edit.rebuilt with ⟨pos, value, again⟩
  rcases Preloader.bootOrder_eq_ok again with ⟨walked, isWalked, _⟩
  have walkFacts := Preloader.walk_eq_ok isWalked
  have long := walkFacts.long
  have total : Preloader.headerWord edited 1 = edited.length := by
    rw [← walkFacts.total, walkFacts.header]
    rfl
  have isTree : fdt layout rebuilt.payload = .ok edited := by
    rw [transform.payload]
    exact Preloader.fdt_rebuildPayload transform.isTree (Nat.le_of_lt transform.shrunk) long
      walkFacts.magic total
  have old := oldTree_of_fdt isTree (by omega) transform.written_payload
  rw [transform.places.2.2.2.2.2, transform.payload_length] at old
  rw [applyBootOrder, checked, ok_bind]
  dsimp only
  rw [old, ok_bind]
  dsimp only
  rw [newTree, awkTree, BootOrder.bootorder_again edit inOrder]
  rfl

end Derive

/-! ### A small image -/

theorem stockImage_produces :
    Preloader.deriveBytes Preloader.sampleLayout Preloader.sampleSha Preloader.stockImage =
      .ok Preloader.preparedImage :=
  Preloader.stockImage_deriveBytes Preloader.sampleSha_digests

theorem stockImage_tree :
    splTree Preloader.sampleLayout Preloader.sampleSha Preloader.stockImage =
      .ok Preloader.sampleBlob :=
  bind_eq_ok.mpr ⟨_, Preloader.stockImage_pair Preloader.sampleSha_digests,
    Preloader.stockSpl_tree⟩

theorem sampleBlob_inOrder : Preloader.BlocksInOrder Preloader.sampleBlob where
  after_header := by decide +kernel
  strings_follow := by decide +kernel

end Zlyme.Installer
