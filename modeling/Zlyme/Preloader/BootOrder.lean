import Zlyme.Preloader.WalkLocality

/-! # Replacing the boot order

`_replace_boot_order` shortens one property of the device tree to the right-hand
slot and moves what follows it. It writes the strings block behind the struct
block, and moves the header's offset of the strings by the same amount. The two
agree when the strings block followed the struct block in the input.
-/

namespace Zlyme.Preloader

open Foundation Foundation.Bytes

/-! ## The edit -/

/-- `RIGHT_SLOT`. -/
def rightSlotName : Bytes := text "/dwmmc@fe2b0000"

/-- `SOURCE_ORDER`. -/
def sourceOrder : List Bytes :=
  [text "/dwmmc@fe2b0000", text "/sdhci@fe310000", text "/nandc@fe330000",
    text "/sfc@fe300000/flash@0", text "/sfc@fe300000/flash@1"]

/-- `struct.pack_into(">I", buffer, off, value)`. -/
def packInto (buffer : Bytes) (off : Nat) (value : Int) : Except PyError Bytes :=
  if 0 ≤ value ∧ value < 2 ^ 32 ∧ off + 4 ≤ buffer.length then
    .ok (splice buffer off (packBe32 value.toNat))
  else .error .structError

/-- The end of a property value that starts 12 bytes after `pos`. -/
def valueEnd (pos : Nat) (value : Bytes) : Nat :=
  alignDown (pos + 12 + value.length + 3)

/-- How far the bytes after the value move: `delta`. -/
def valueShift (pos : Nat) (old new : Bytes) : Int :=
  (valueEnd pos new : Int) - valueEnd pos old

/-- The bytes of the tree around a new value, with the old header words. -/
def rebuiltBody (blob : Bytes) (walked : Walked) (pos : Nat) (old head new : Bytes) : Bytes :=
  blob.take pos ++ head ++ new ++ zeros ((4 - new.length % 4) % 4) ++
    slice blob (valueEnd pos old) (walked.header.offStruct + walked.header.sizeStruct) ++
    walked.strings

/-- The tree with the new value, before it is checked. -/
def rebuiltTree (blob : Bytes) (walked : Walked) (pos : Nat) (old new : Bytes) :
    Except PyError Bytes := do
  let delta := valueShift pos old new
  let head ← packInto (slice blob pos (pos + 12)) 4 new.length
  let out ← packInto (rebuiltBody blob walked pos old head new) 4 (walked.header.total + delta)
  let out ← packInto out 12 (walked.header.offStr + delta)
  packInto out 36 (walked.header.sizeStruct + delta)

def replaceBootOrder (rightSlot blob : Bytes) : Except PyError Bytes := do
  let walked ← walk blob
  let (pos, old, order) ← bootOrder blob
  refuseIf (order = [rightSlot]) "image is already a right-slot recovery preloader"
  refuseIf (order ≠ sourceOrder) "SPL boot order is not the Nov 02 list"
  requireRightSlot rightSlot blob
  let new := rightSlot ++ [0]
  let out ← rebuiltTree blob walked pos old new
  refuseIf ((out.length : Int) ≠ walked.header.total + valueShift pos old new)
    "rebuilt device tree size is inconsistent"
  let (_, _, rebuilt) ← bootOrder out
  refuseIf (rebuilt ≠ [rightSlot]) "rebuilt boot order is not the right-hand slot"
  return out

/-! ## What an accepted tree is -/

theorem packInto_eq_ok {buffer out : Bytes} {off : Nat} {value : Int}
    (packed : packInto buffer off value = .ok out) :
    (0 ≤ value ∧ value < 2 ^ 32) ∧ off + 4 ≤ buffer.length ∧
      out = splice buffer off (packBe32 value.toNat) := by
  rw [packInto] at packed
  split at packed
  · rename_i fits
    exact ⟨⟨fits.1, fits.2.1⟩, fits.2.2, (Except.ok.inj packed).symm⟩
  · cases packed

/-- What a successful walk has checked. -/
structure WalkFacts (blob : Bytes) (walked : Walked) : Prop where
  long : 40 ≤ blob.length
  magic : blob.take 4 = fdtMagic
  header : walked.header = readHeader blob
  total : walked.header.total = blob.length
  structInside : walked.header.offStruct + walked.header.sizeStruct ≤ blob.length
  stringsInside : walked.header.offStr + walked.header.sizeStr ≤ blob.length
  strings : walked.strings =
    slice blob walked.header.offStr (walked.header.offStr + walked.header.sizeStr)
  walks : Walks blob walked.strings (walked.header.offStruct + walked.header.sizeStruct)
    walked.header.offStruct [] walked.items

theorem walk_eq_ok {blob : Bytes} {walked : Walked} (accepted : walk blob = .ok walked) :
    WalkFacts blob walked := by
  rw [walk] at accepted
  split at accepted
  · cases accepted
  · rename_i magic
    dsimp only at accepted
    split at accepted
    · cases accepted
    · rename_i range
      rcases bind_eq_ok.mp accepted with ⟨items, looped, same⟩
      cases same
      simp only [not_or, Decidable.not_not, Nat.not_lt] at magic range
      exact ⟨magic.1, magic.2, rfl, range.1, range.2.1, range.2.2, rfl,
        (walkLoop_eq_ok_iff blob _ _ (Nat.le_refl _)).mp looped⟩

/-- The boot-order property of a tree, which occurs once. -/
structure BootOrderFacts (walked : Walked) (pos : Nat) (value : Bytes) (order : List Bytes) :
    Prop where
  once : walked.items.filter FdtItem.isBootOrder =
    [.prop chosenPath bootOrderName value pos]
  strings : stringlist value = .ok order

theorem isBootOrder_prop {path name value : Bytes} {pos : Nat}
    (isBootOrder : (FdtItem.prop path name value pos).isBootOrder = true) :
    path = chosenPath ∧ name = bootOrderName := by
  simpa [FdtItem.isBootOrder] using isBootOrder

theorem bootOrder_eq_ok {blob value : Bytes} {pos : Nat} {order : List Bytes}
    (found : bootOrder blob = .ok (pos, value, order)) :
    ∃ walked, walk blob = .ok walked ∧ BootOrderFacts walked pos value order := by
  rcases bind_eq_ok.mp found with ⟨walked, accepted, found⟩
  refine ⟨walked, accepted, ?_⟩
  split at found
  · rename_i path name value' pos' once
    rcases bind_eq_ok.mp found with ⟨strings, split, same⟩
    cases same
    have member : FdtItem.prop path name value pos ∈
        walked.items.filter FdtItem.isBootOrder := by
      rw [once]
      exact List.mem_singleton_self _
    rcases isBootOrder_prop (List.mem_filter.mp member).2 with ⟨rfl, rfl⟩
    exact ⟨once, split⟩
  · cases found

/-- The head of a property with the length of its new value. -/
def newHead (blob : Bytes) (pos : Nat) (new : Bytes) : Bytes :=
  splice (slice blob pos (pos + 12)) 4 (packBe32 new.length)

/-- A tree with the three header words written over it. -/
def withWords (body : Bytes) (total offStr sizeStruct : Nat) : Bytes :=
  splice (splice (splice body 4 (packBe32 total)) 12 (packBe32 offStr)) 36
    (packBe32 sizeStruct)

/-- What `rebuiltTree` returns. -/
structure TreeFacts (blob : Bytes) (walked : Walked) (pos : Nat) (old new edited : Bytes) where
  total : Nat
  offStr : Nat
  sizeStruct : Nat
  total_eq : (total : Int) = walked.header.total + valueShift pos old new
  offStr_eq : (offStr : Int) = walked.header.offStr + valueShift pos old new
  sizeStruct_eq : (sizeStruct : Int) = walked.header.sizeStruct + valueShift pos old new
  total_small : total < 2 ^ 32
  offStr_small : offStr < 2 ^ 32
  sizeStruct_small : sizeStruct < 2 ^ 32
  new_small : new.length < 2 ^ 32
  headRoom : 8 ≤ (slice blob pos (pos + 12)).length
  bodyRoom : 40 ≤ (rebuiltBody blob walked pos old (newHead blob pos new) new).length
  edited_eq : edited = withWords (rebuiltBody blob walked pos old (newHead blob pos new) new)
    total offStr sizeStruct

theorem rebuiltTree_eq_ok {blob : Bytes} {walked : Walked} {pos : Nat} {old new edited : Bytes}
    (rebuilt : rebuiltTree blob walked pos old new = .ok edited) :
    Nonempty (TreeFacts blob walked pos old new edited) := by
  rcases bind_eq_ok.mp rebuilt with ⟨head, headPacked, rebuilt⟩
  rcases bind_eq_ok.mp rebuilt with ⟨withTotal, totalPacked, rebuilt⟩
  rcases bind_eq_ok.mp rebuilt with ⟨withOffStr, offStrPacked, sizePacked⟩
  rcases packInto_eq_ok headPacked with ⟨headRange, headRoom, rfl⟩
  rcases packInto_eq_ok totalPacked with ⟨totalRange, totalRoom, rfl⟩
  rcases packInto_eq_ok offStrPacked with ⟨offStrRange, offStrRoom, rfl⟩
  rcases packInto_eq_ok sizePacked with ⟨sizeRange, sizeRoom, rfl⟩
  have bodyRoom := sizeRoom
  rw [splice_length offStrRoom, splice_length totalRoom] at bodyRoom
  exact ⟨{
    total := (walked.header.total + valueShift pos old new).toNat
    offStr := (walked.header.offStr + valueShift pos old new).toNat
    sizeStruct := (walked.header.sizeStruct + valueShift pos old new).toNat
    total_eq := Int.toNat_of_nonneg totalRange.1
    offStr_eq := Int.toNat_of_nonneg offStrRange.1
    sizeStruct_eq := Int.toNat_of_nonneg sizeRange.1
    total_small := by omega
    offStr_small := by omega
    sizeStruct_small := by omega
    new_small := by omega
    headRoom, bodyRoom
    edited_eq := rfl }⟩

/-- An accepted replacement. -/
structure Edit (rightSlot blob edited : Bytes) where
  walked : Walked
  pos : Nat
  old : Bytes
  accepted : walk blob = .ok walked
  source : BootOrderFacts walked pos old sourceOrder
  tree : TreeFacts blob walked pos old (rightSlot ++ [0]) edited
  edited_length : edited.length = tree.total
  rebuilt : ∃ pos' value, bootOrder edited = .ok (pos', value, [rightSlot])

theorem replaceBootOrder_eq_ok {rightSlot blob edited : Bytes}
    (replaced : replaceBootOrder rightSlot blob = .ok edited) :
    Nonempty (Edit rightSlot blob edited) := by
  rcases bind_eq_ok.mp replaced with ⟨walked, accepted, replaced⟩
  rcases bind_eq_ok.mp replaced with ⟨⟨pos, old, order⟩, found, replaced⟩
  rcases bind_eq_ok.mp replaced with ⟨_, _, replaced⟩
  rcases bind_eq_ok.mp replaced with ⟨_, isSource, replaced⟩
  rcases bind_eq_ok.mp replaced with ⟨_, _, replaced⟩
  rcases bind_eq_ok.mp replaced with ⟨out, rebuiltOut, replaced⟩
  rcases bind_eq_ok.mp replaced with ⟨_, sameLength, replaced⟩
  rcases bind_eq_ok.mp replaced with ⟨⟨pos', value, rebuilt⟩, again, replaced⟩
  rcases bind_eq_ok.mp replaced with ⟨_, isRight, same⟩
  cases same
  rcases bootOrder_eq_ok found with ⟨walked', accepted', source⟩
  cases accepted.symm.trans accepted'
  cases Decidable.of_not_not (refuseIf_eq_ok isSource)
  cases Decidable.of_not_not (refuseIf_eq_ok isRight)
  have sameLength := Decidable.of_not_not (refuseIf_eq_ok sameLength)
  rcases rebuiltTree_eq_ok rebuiltOut with ⟨tree⟩
  have total_eq := tree.total_eq
  exact ⟨{
    walked, pos, old, accepted, source, tree
    edited_length := by omega
    rebuilt := ⟨pos', value, again⟩ }⟩

end Zlyme.Preloader
