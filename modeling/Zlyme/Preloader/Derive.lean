import Mathlib.Tactic.SplitIfs
import Zlyme.Preloader.EditedTree

/-! # Deriving the recovery image

`derive_bytes` edits the device tree of the SPL, writes the payload into both
copies and reseals their hashes.
-/

namespace Zlyme.Preloader

open Foundation Foundation.Bytes

/-! ## The transform -/

/-- The new SPL payload, with what the image holds now. -/
structure Rebuilt where
  ddr : Bytes
  first : IdbEntry
  second : IdbEntry
  payload : Bytes

/-- The first half of `derive_bytes`, up to `rebuilt` and its checks. -/
def rebuild (layout : Layout) (sha : Sha256) (data : Bytes) : Except PyError Rebuilt := do
  let (ddr, first, second) ← paired layout sha data
  let payload := first.payload
  let blob ← fdt layout payload
  let edited ← replaceBootOrder rightSlotName blob
  refuseIf (edited.length ≥ blob.length) "recovery device tree did not shrink"
  let rebuilt := rebuildPayload layout payload edited
  refuseIf (rebuilt.take layout.dtbOff ≠ payload.take layout.dtbOff)
    "recovery transform changed SPL executable bytes"
  refuseIf (slice rebuilt layout.bootCall (layout.bootCall + 4) ≠ bootCallInsn)
    "recovery transform changed the boot-order call"
  return { ddr, first, second, payload := rebuilt }

/-- One turn of the loop that writes a payload and its digest. -/
def reseal (sha : Sha256) (rebuilt : Bytes) (out : Bytes) (item : IdbEntry) : Bytes :=
  splice (splice out item.start rebuilt) (item.entry + 0x18) (sha.digest rebuilt)

/-- The image after the loop over both copies. -/
def resealBoth (sha : Sha256) (rebuilt : Rebuilt) (data : Bytes) : Bytes :=
  reseal sha rebuilt.payload (reseal sha rebuilt.payload data rebuilt.first) rebuilt.second

def deriveBytes (layout : Layout) (sha : Sha256) (data : Bytes) : Except PyError Bytes := do
  let rebuilt ← rebuild layout sha data
  let produced := resealBoth sha rebuilt data
  let (newDdr, _, _) ← paired layout sha produced
  refuseIf (newDdr ≠ rebuilt.ddr) "recovery transform changed the DDR payload"
  refuseIf (slice produced rebuilt.first.start (rebuilt.first.start + layout.dtbOff) ≠
    rebuilt.first.payload.take layout.dtbOff) "resealed SPL executable bytes changed"
  return produced

/-! ## What a parsed image is -/

structure EntryFacts (sha : Sha256) (data : Bytes) (base i : Nat) (item : IdbEntry) : Prop where
  index : item.index = i
  entry : item.entry = base + 0x78 + i * entrySize
  start : item.start = base + u16le data item.entry * 512
  inside : item.start + u16le data (item.entry + 2) * 512 ≤ data.length
  payload : item.payload = slice data item.start
    (item.start + u16le data (item.entry + 2) * 512)
  sealed : sha.digest item.payload = slice data (item.entry + 0x18) (item.entry + 0x18 + 32)

theorem parseEntry_eq_ok {sha : Sha256} {data : Bytes} {base i : Nat} {item : IdbEntry}
    (parsed : parseEntry sha data base i = .ok item) : EntryFacts sha data base i item := by
  rcases bind_eq_ok.mp parsed with ⟨_, _, parsed⟩
  rcases bind_eq_ok.mp parsed with ⟨_, inside, parsed⟩
  rcases bind_eq_ok.mp parsed with ⟨_, isSealed, same⟩
  cases same
  exact ⟨rfl, rfl, rfl, Nat.le_of_not_lt (refuseIf_eq_ok inside), rfl,
    Decidable.of_not_not (refuseIf_eq_ok isSealed)⟩

/-- The four entries of an accepted image, with both pairs equal. -/
structure PairedFacts (layout : Layout) (sha : Sha256) (data : Bytes) (ddr : Bytes)
    (first second : IdbEntry) : Prop where
  length : data.length = layout.size
  parsed : ∃ ddrFirst ddrSecond, parse layout sha data = .ok [ddrFirst, first, ddrSecond, second] ∧
    ddrFirst.index = ddrIndex ∧ ddrSecond.index = ddrIndex ∧
    ddrFirst.payload = ddr ∧ ddrSecond.payload = ddr
  firstFacts : EntryFacts sha data layout.firstCopy splIndex first
  secondFacts : EntryFacts sha data layout.secondCopy splIndex second
  same : first.payload = second.payload

theorem parseCopy_eq_ok {sha : Sha256} {data : Bytes} {base : Nat} {found : List IdbEntry}
    (parsed : parseCopy sha data base = .ok found) :
    ∃ ddr spl, found = [ddr, spl] ∧ EntryFacts sha data base ddrIndex ddr ∧
      EntryFacts sha data base splIndex spl := by
  rcases bind_eq_ok.mp parsed with ⟨_, _, parsed⟩
  rcases bind_eq_ok.mp parsed with ⟨ddr, isDdr, parsed⟩
  rcases bind_eq_ok.mp parsed with ⟨spl, isSpl, same⟩
  cases same
  exact ⟨ddr, spl, rfl, parseEntry_eq_ok isDdr, parseEntry_eq_ok isSpl⟩

theorem paired_eq_ok {layout : Layout} {sha : Sha256} {data ddr : Bytes}
    {first second : IdbEntry} (accepted : paired layout sha data = .ok (ddr, first, second)) :
    PairedFacts layout sha data ddr first second := by
  rcases bind_eq_ok.mp accepted with ⟨found, parsed, accepted⟩
  have isParsed := parsed
  rcases bind_eq_ok.mp parsed with ⟨_, length, parsed⟩
  rcases bind_eq_ok.mp parsed with ⟨copyFirst, isFirst, parsed⟩
  rcases bind_eq_ok.mp parsed with ⟨copySecond, isSecond, same⟩
  cases same
  rcases parseCopy_eq_ok isFirst with ⟨ddr0, spl0, rfl, ddr0Facts, spl0Facts⟩
  rcases parseCopy_eq_ok isSecond with ⟨ddr1, spl1, rfl, ddr1Facts, spl1Facts⟩
  simp only [List.cons_append, List.nil_append, List.filter_cons, List.filter_nil,
    ddr0Facts.index, spl0Facts.index, ddr1Facts.index, spl1Facts.index, ddrIndex, splIndex,
    beq_self_eq_true, Nat.reduceBEq, if_true, Bool.false_eq_true, if_false, List.map_cons,
    List.map_nil] at accepted
  rcases bind_eq_ok.mp accepted with ⟨_, ddrSame, accepted⟩
  rcases bind_eq_ok.mp accepted with ⟨_, splSame, same⟩
  cases same
  exact {
    length := Decidable.of_not_not (refuseIf_eq_ok length)
    parsed := ⟨ddr0, ddr1, isParsed, ddr0Facts.index, ddr1Facts.index, rfl,
      (Decidable.of_not_not (refuseIf_eq_ok ddrSame)).symm⟩
    firstFacts := spl0Facts
    secondFacts := spl1Facts
    same := Decidable.of_not_not (refuseIf_eq_ok splSame) }

/-- What the first half has found and built. -/
structure RebuildFacts (layout : Layout) (sha : Sha256) (data : Bytes) (rebuilt : Rebuilt) :
    Prop where
  pair : PairedFacts layout sha data rebuilt.ddr rebuilt.first rebuilt.second
  accepted : paired layout sha data = .ok (rebuilt.ddr, rebuilt.first, rebuilt.second)
  tree : ∃ blob edited, fdt layout rebuilt.first.payload = .ok blob ∧
    replaceBootOrder rightSlotName blob = .ok edited ∧ edited.length < blob.length ∧
    rebuilt.payload = rebuildPayload layout rebuilt.first.payload edited

theorem rebuild_eq_ok {layout : Layout} {sha : Sha256} {data : Bytes} {rebuilt : Rebuilt}
    (built : rebuild layout sha data = .ok rebuilt) : RebuildFacts layout sha data rebuilt := by
  rcases bind_eq_ok.mp built with ⟨⟨ddr, first, second⟩, accepted, built⟩
  rcases bind_eq_ok.mp built with ⟨blob, isTree, built⟩
  rcases bind_eq_ok.mp built with ⟨edited, replaced, built⟩
  rcases bind_eq_ok.mp built with ⟨_, shrunk, built⟩
  rcases bind_eq_ok.mp built with ⟨_, _, built⟩
  rcases bind_eq_ok.mp built with ⟨_, _, same⟩
  cases same
  exact ⟨paired_eq_ok accepted, accepted, blob, edited, isTree, replaced,
    Nat.lt_of_not_le (refuseIf_eq_ok shrunk), rfl⟩

/-! ## The rebuilt payload -/

section Rebuilt

variable {layout : Layout} {sha : Sha256} {data : Bytes} {rebuilt : Rebuilt}

theorem RebuildFacts.tree_inside (facts : RebuildFacts layout sha data rebuilt) :
    layout.dtbOff + 40 ≤ rebuilt.first.payload.length := by
  rcases facts.tree with ⟨blob, edited, accepted, _, _, _⟩
  exact (fdt_eq_ok_iff.mp accepted).long

theorem RebuildFacts.payload_length (facts : RebuildFacts layout sha data rebuilt) :
    rebuilt.payload.length = rebuilt.first.payload.length := by
  rcases facts.tree with ⟨blob, edited, accepted, _, shrunk, payload⟩
  have tree := fdt_eq_ok_iff.mp accepted
  have inside := tree.inside
  have blobLength : blob.length = treeTotal layout rebuilt.first.payload := by
    rw [tree.tree, slice_length inside, Nat.add_sub_cancel_left]
  rw [payload]
  exact rebuildPayload_length (by omega)

theorem RebuildFacts.payload_take (facts : RebuildFacts layout sha data rebuilt) :
    rebuilt.payload.take layout.dtbOff = rebuilt.first.payload.take layout.dtbOff := by
  have inside := facts.tree_inside
  rcases facts.tree with ⟨blob, edited, _, _, _, payload⟩
  rw [payload]
  exact rebuildPayload_take (by omega)

/-- The rebuilt payload holds a tree whose boot order is the right slot alone. -/
theorem RebuildFacts.rebuilt_tree (facts : RebuildFacts layout sha data rebuilt) :
    ∃ edited pos value, fdt layout rebuilt.payload = .ok edited ∧
      bootOrder edited = .ok (pos, value, [rightSlotName]) := by
  rcases facts.tree with ⟨blob, edited, accepted, replaced, shrunk, payload⟩
  rcases replaceBootOrder_eq_ok replaced with ⟨edit⟩
  rcases edit.rebuilt with ⟨pos, value, again⟩
  rcases bootOrder_eq_ok again with ⟨walked, isWalked, _⟩
  have walkFacts := walk_eq_ok isWalked
  have total : headerWord edited 1 = edited.length := by
    rw [← walkFacts.total, walkFacts.header]
    rfl
  refine ⟨edited, pos, value, ?_, again⟩
  rw [payload]
  exact fdt_rebuildPayload accepted (Nat.le_of_lt shrunk) walkFacts.long walkFacts.magic total

end Rebuilt

/-! ## The produced image -/

/-- A position that the transform may write: the device tree part of an SPL
payload, or its hash field. -/
def MayChange (layout : Layout) (item : IdbEntry) (index : Nat) : Prop :=
  (item.start + layout.dtbOff ≤ index ∧ index < item.start + item.payload.length) ∨
    (item.entry + 0x18 ≤ index ∧ index < item.entry + 0x38)

section Produced

variable {layout : Layout} {sha : Sha256} {data : Bytes}

theorem EntryFacts.payload_inside {base i : Nat} {item : IdbEntry}
    (facts : EntryFacts sha data base i item) :
    item.start + item.payload.length ≤ data.length ∧
      item.payload = slice data item.start (item.start + item.payload.length) := by
  have inside := facts.inside
  have length : item.payload.length = u16le data (item.entry + 2) * 512 := by
    rw [facts.payload, slice_length inside, Nat.add_sub_cancel_left]
  rw [length]
  exact ⟨inside, facts.payload⟩

/-- Resealing one entry changes only what it may. -/
theorem reseal_getElem? {out rebuilt : Bytes} {item : IdbEntry}
    (sameLength : rebuilt.length = item.payload.length)
    (sameCode : rebuilt.take layout.dtbOff = item.payload.take layout.dtbOff)
    (payloadInside : item.start + item.payload.length ≤ out.length)
    (hashInside : item.entry + 0x38 ≤ out.length) {index : Nat}
    (fixed : ¬MayChange layout item index)
    (held : item.start ≤ index → index < item.start + item.payload.length →
      out[index]? = item.payload[index - item.start]?) :
    (reseal sha rebuilt out item)[index]? = out[index]? := by
  have written : (splice out item.start rebuilt).length = out.length :=
    splice_length (by omega)
  have digest := sha.digest_length rebuilt
  simp only [MayChange, not_or, not_and, Nat.not_lt] at fixed
  rw [reseal, getElem?_splice (by omega), if_neg (by omega), getElem?_splice (by omega)]
  split
  · rename_i within
    have before : index - item.start < layout.dtbOff := by
      have := fixed.1
      omega
    have same := congrArg (·[index - item.start]?) sameCode
    simp only [List.getElem?_take, if_pos before] at same
    rw [same]
    exact (held within.1 (by omega)).symm
  · rfl

theorem reseal_length {out rebuilt : Bytes} {item : IdbEntry}
    (payloadInside : item.start + rebuilt.length ≤ out.length)
    (hashInside : item.entry + 0x38 ≤ out.length) :
    (reseal sha rebuilt out item).length = out.length := by
  have written : (splice out item.start rebuilt).length = out.length :=
    splice_length payloadInside
  have digest := sha.digest_length rebuilt
  rw [reseal, splice_length (by omega), written]

theorem EntryFacts.held {base i : Nat} {item : IdbEntry}
    (facts : EntryFacts sha data base i item) {index : Nat} (start : item.start ≤ index)
    (stop : index < item.start + item.payload.length) :
    data[index]? = item.payload[index - item.start]? := by
  rw [facts.payload_inside.2, getElem?_slice, if_pos (by omega), Nat.add_sub_cancel' start]

section Both

variable {rebuilt : Rebuilt} (facts : RebuildFacts layout sha data rebuilt)

include facts

theorem RebuildFacts.places :
    (rebuilt.first.start + rebuilt.payload.length ≤ data.length ∧
      rebuilt.second.start + rebuilt.payload.length ≤ data.length) ∧
    (rebuilt.first.entry + 0x38 ≤ layout.secondCopy ∧
      rebuilt.second.entry + 0x38 ≤ data.length) := by
  have pair := facts.pair
  have first := pair.firstFacts.payload_inside.1
  have second := pair.secondFacts.payload_inside.1
  have firstEntry := pair.firstFacts.entry
  have secondEntry := pair.secondFacts.entry
  have apart := layout.copies_apart
  have inside := layout.copies_inside
  have length := pair.length
  have sized := facts.payload_length
  rw [← pair.same] at second
  rw [splIndex, entrySize] at firstEntry secondEntry
  omega

theorem RebuildFacts.firstReseal_length :
    (reseal sha rebuilt.payload data rebuilt.first).length = data.length := by
  have places := facts.places
  have inside := layout.copies_inside
  have length := facts.pair.length
  exact reseal_length places.1.1 (by omega)

theorem RebuildFacts.resealBoth_length :
    (resealBoth sha rebuilt data).length = data.length := by
  have places := facts.places
  have first := facts.firstReseal_length
  rw [resealBoth, reseal_length (by omega) (by omega), first]

/-- Everything that may not change stays. -/
theorem RebuildFacts.frame {index : Nat} (fixedFirst : ¬MayChange layout rebuilt.first index)
    (fixedSecond : ¬MayChange layout rebuilt.second index) :
    (resealBoth sha rebuilt data)[index]? = data[index]? := by
  have pair := facts.pair
  have places := facts.places
  have inside := layout.copies_inside
  have length := pair.length
  have sized := facts.payload_length
  have firstLength := facts.firstReseal_length
  have sameFirst : (reseal sha rebuilt.payload data rebuilt.first)[index]? = data[index]? :=
    reseal_getElem? sized facts.payload_take (by omega) (by omega) fixedFirst
      fun start stop => pair.firstFacts.held start stop
  have sizedSecond : rebuilt.payload.length = rebuilt.second.payload.length := by
    rw [sized, pair.same]
  have codeSecond : rebuilt.payload.take layout.dtbOff =
      rebuilt.second.payload.take layout.dtbOff := by
    rw [facts.payload_take, pair.same]
  rw [resealBoth, reseal_getElem? sizedSecond codeSecond (by omega) (by omega) fixedSecond, sameFirst]
  intro start stop
  rw [sameFirst]
  exact pair.secondFacts.held start stop

/-- The entry table of the first copy lies before everything that may change,
except for its own hash field. -/
theorem RebuildFacts.table_fixed {index : Nat} (lower : layout.firstCopy ≤ index)
    (upper : index < rebuilt.first.entry + 0x18) :
    (resealBoth sha rebuilt data)[index]? = data[index]? := by
  have pair := facts.pair
  have firstEntry := pair.firstFacts.entry
  have secondEntry := pair.secondFacts.entry
  have firstStart := pair.firstFacts.start
  have secondStart := pair.secondFacts.start
  have apart := layout.copies_apart
  have table := layout.table_before_tree
  rw [splIndex, entrySize] at firstEntry secondEntry
  apply facts.frame
  · rw [MayChange]
    omega
  · rw [MayChange]
    omega

/-- The hash field of the first copy holds the new digest. -/
theorem RebuildFacts.first_sealed :
    slice (resealBoth sha rebuilt data) (rebuilt.first.entry + 0x18)
      (rebuilt.first.entry + 0x18 + 32) = sha.digest rebuilt.payload := by
  have pair := facts.pair
  have places := facts.places
  have inside := layout.copies_inside
  have length := pair.length
  have secondEntry := pair.secondFacts.entry
  have secondStart := pair.secondFacts.start
  have firstLength := facts.firstReseal_length
  have digest := sha.digest_length rebuilt.payload
  have secondWritten : (splice (reseal sha rebuilt.payload data rebuilt.first)
      rebuilt.second.start rebuilt.payload).length = data.length := by
    rw [splice_length (by omega), firstLength]
  have firstWritten : (splice data rebuilt.first.start rebuilt.payload).length = data.length :=
    splice_length places.1.1
  rw [resealBoth, reseal, slice_splice_of_disjoint (by omega) (by omega),
    slice_splice_of_disjoint (by omega) (by omega), reseal]
  rw [← digest]
  exact slice_splice_self (by omega)

end Both

end Produced

/-! ## What a derived image is -/

/-- The part of SHA-256 that the second refusal rests on: no payload of the
produced image is another string with the digest of the rebuilt payload. -/
def NoCollision (layout : Layout) (sha : Sha256) (data produced : Bytes) : Prop :=
  ∀ rebuilt found, rebuild layout sha data = .ok rebuilt →
    parse layout sha produced = .ok found → ∀ item ∈ found,
      sha.digest item.payload = sha.digest rebuilt.payload → item.payload = rebuilt.payload

structure Derived (layout : Layout) (sha : Sha256) (data produced : Bytes) : Prop where
  /-- The result passes the checks of a live image. -/
  accepted : ∃ ddr first second, paired layout sha produced = .ok (ddr, first, second)
  /-- Both parses, entry by entry: the DDR copies are unchanged, the SPL copies are
  equal, their executables are unchanged, and no other byte differs. -/
  parsed : ∃ ddrFirst first ddrSecond second ddrFirst' first' ddrSecond' second',
    parse layout sha data = .ok [ddrFirst, first, ddrSecond, second] ∧
    parse layout sha produced = .ok [ddrFirst', first', ddrSecond', second'] ∧
    ddrFirst'.payload = ddrFirst.payload ∧ ddrSecond'.payload = ddrSecond.payload ∧
    first'.payload = second'.payload ∧
    first'.payload.take layout.dtbOff = first.payload.take layout.dtbOff ∧
    second'.payload.take layout.dtbOff = second.payload.take layout.dtbOff ∧
    produced.length = data.length ∧
    ∀ index, produced[index]? ≠ data[index]? →
      MayChange layout first index ∨ MayChange layout second index
  /-- A derived image is not derived again. -/
  refuses : NoCollision layout sha data produced →
    ∀ again, deriveBytes layout sha produced ≠ .ok again

theorem u16le_congr {left right : Bytes} {off : Nat}
    (same : ∀ index, off ≤ index → index < off + 2 → left[index]? = right[index]?) :
    u16le left off = u16le right off := by
  rw [u16le, u16le, slice_congr same]

/-- The first SPL entry is where it was, and as long. -/
theorem RebuildFacts.first_stays {layout : Layout} {sha : Sha256} {data : Bytes}
    {rebuilt : Rebuilt} (facts : RebuildFacts layout sha data rebuilt) {item : IdbEntry}
    (itemFacts : EntryFacts sha (resealBoth sha rebuilt data) layout.firstCopy splIndex item) :
    item.payload = slice (resealBoth sha rebuilt data) rebuilt.first.start
      (rebuilt.first.start + rebuilt.first.payload.length) ∧
    sha.digest item.payload = sha.digest rebuilt.payload := by
  have firstFacts := facts.pair.firstFacts
  have entry : item.entry = rebuilt.first.entry := itemFacts.entry.trans firstFacts.entry.symm
  have lower : layout.firstCopy ≤ rebuilt.first.entry := by
    rw [firstFacts.entry]
    omega
  have off : u16le (resealBoth sha rebuilt data) rebuilt.first.entry =
      u16le data rebuilt.first.entry :=
    u16le_congr fun index _ _ => facts.table_fixed (by omega) (by omega)
  have count : u16le (resealBoth sha rebuilt data) (rebuilt.first.entry + 2) =
      u16le data (rebuilt.first.entry + 2) :=
    u16le_congr fun index _ _ => facts.table_fixed (by omega) (by omega)
  have length : rebuilt.first.payload.length = u16le data (rebuilt.first.entry + 2) * 512 := by
    rw [firstFacts.payload, slice_length firstFacts.inside, Nat.add_sub_cancel_left]
  constructor
  · rw [itemFacts.payload, itemFacts.start, entry, off, count, length, firstFacts.start]
  · rw [itemFacts.sealed, entry, facts.first_sealed]

/-- What `derive_bytes` has built, and checked of the image that it returns. -/
structure ProducedFacts (layout : Layout) (sha : Sha256) (data produced : Bytes)
    (rebuilt : Rebuilt) (first second : IdbEntry) : Prop where
  built : rebuild layout sha data = .ok rebuilt
  image : produced = resealBoth sha rebuilt data
  accepted : paired layout sha produced = .ok (rebuilt.ddr, first, second)
  code : first.payload.take layout.dtbOff = rebuilt.first.payload.take layout.dtbOff
  digest : sha.digest first.payload = sha.digest rebuilt.payload

theorem deriveBytes_eq_ok {layout : Layout} {sha : Sha256} {data produced : Bytes}
    (derived : deriveBytes layout sha data = .ok produced) :
    ∃ rebuilt first second, ProducedFacts layout sha data produced rebuilt first second := by
  rcases bind_eq_ok.mp derived with ⟨rebuilt, built, derived⟩
  rcases bind_eq_ok.mp derived with ⟨⟨ddr, first, second⟩, accepted, derived⟩
  rcases bind_eq_ok.mp derived with ⟨_, sameDdr, derived⟩
  rcases bind_eq_ok.mp derived with ⟨_, sameCode, same⟩
  cases same
  have facts := rebuild_eq_ok built
  have sameDdr : ddr = rebuilt.ddr := Decidable.of_not_not (refuseIf_eq_ok sameDdr)
  have sameCode := Decidable.of_not_not (refuseIf_eq_ok sameCode)
  rcases facts.first_stays (paired_eq_ok accepted).firstFacts with ⟨stays, digest⟩
  have treeInside := facts.tree_inside
  refine ⟨rebuilt, first, second, built, rfl, sameDdr ▸ accepted, ?_, digest⟩
  rw [← sameCode, stays, slice, slice, List.take_take]
  congr 1
  omega

/-- Without a collision the first SPL payload is the rebuilt one. -/
theorem ProducedFacts.payload {layout : Layout} {sha : Sha256} {data produced : Bytes}
    {rebuilt : Rebuilt} {first second : IdbEntry}
    (facts : ProducedFacts layout sha data produced rebuilt first second)
    (noCollision : NoCollision layout sha data produced) : first.payload = rebuilt.payload := by
  rcases (paired_eq_ok facts.accepted).parsed with ⟨_, _, parsed, _⟩
  exact noCollision rebuilt _ facts.built parsed first (by simp) facts.digest

/-- Every image that `derive_bytes` produces. -/
theorem deriveBytes_derived {layout : Layout} {sha : Sha256} {data produced : Bytes}
    (derived : deriveBytes layout sha data = .ok produced) :
    Derived layout sha data produced := by
  rcases deriveBytes_eq_ok derived with ⟨rebuilt, first', second', produced⟩
  have facts := rebuild_eq_ok produced.built
  have pair := facts.pair
  have pair' := paired_eq_ok produced.accepted
  have code := produced.code
  rcases pair.parsed with ⟨ddrFirst, ddrSecond, parsed, _, _, isFirst, isSecond⟩
  rcases pair'.parsed with ⟨ddrFirst', ddrSecond', parsed', _, _, isFirst', isSecond'⟩
  refine ⟨⟨rebuilt.ddr, first', second', produced.accepted⟩, ?_, ?_⟩
  · refine ⟨ddrFirst, rebuilt.first, ddrSecond, rebuilt.second, ddrFirst', first', ddrSecond',
      second', parsed, parsed', ?_, ?_, pair'.same, code, ?_, ?_, ?_⟩
    · rw [isFirst', isFirst]
    · rw [isSecond', isSecond]
    · rw [← pair'.same, ← pair.same, code]
    · rw [produced.image, facts.resealBoth_length]
    · intro index differs
      rw [produced.image] at differs
      by_cases changes : MayChange layout rebuilt.first index
      · exact .inl changes
      · by_cases changes' : MayChange layout rebuilt.second index
        · exact .inr changes'
        · exact absurd (facts.frame changes changes') differs
  · intro noCollision again derived'
    have isRebuilt := produced.payload noCollision
    rcases bind_eq_ok.mp derived' with ⟨rebuilt', built', _⟩
    have facts' := rebuild_eq_ok built'
    have sameFirst : rebuilt'.first = first' :=
      congrArg (·.2.1) (Except.ok.inj (facts'.accepted.symm.trans produced.accepted))
    -- The second run finds the edited tree, whose order is not the source order.
    rcases facts'.tree with ⟨blob', edited', isTree', replaced', _, _⟩
    rcases facts.rebuilt_tree with ⟨edited, pos, value, isTree, order⟩
    rw [sameFirst, isRebuilt] at isTree'
    cases isTree.symm.trans isTree'
    rcases replaceBootOrder_eq_ok replaced' with ⟨edit⟩
    rcases bootOrder_eq_ok order with ⟨walked, isWalked, found⟩
    cases isWalked.symm.trans edit.accepted
    have source := edit.source
    have sameItem := found.once.symm.trans source.once
    cases sameItem
    have sameOrder : [rightSlotName] = sourceOrder :=
      Except.ok.inj (found.strings.symm.trans source.strings)
    exact absurd (congrArg List.length sameOrder) (by decide)

/-! ### A small image -/

/-- Two copies of 2048 bytes, with the device tree 512 bytes into the SPL. -/
def sampleLayout : Layout where
  size := 4096
  firstCopy := 0
  secondCopy := 2048
  dtbOff := 512
  bootCall := 0x40
  copies_apart := by decide
  copies_inside := by decide
  table_before_tree := by decide
  call_before_tree := by decide

def sampleDdr : Bytes :=
  List.replicate 512 0x11

def sampleSpl (tree : Bytes) : Bytes :=
  zeros 16 ++ [0x00, 0x02, 0x00, 0x00] ++ zeros 44 ++ bootCallInsn ++ zeros 60 ++ splBanner ++
    zeros 341 ++ tree ++ zeros (512 - tree.length)

def stockSpl : Bytes :=
  sampleSpl sampleBlob

def recoverySpl : Bytes :=
  sampleSpl recoveryBlob

/-- A number of 32 bytes, most significant byte first. -/
def bytes32 (value : Nat) : Bytes :=
  (List.range 32).map fun index => UInt8.ofNat (value / 256 ^ (31 - index))

def ddrDigest : Bytes :=
  bytes32 0x981b8ac0e448c2a01df760648f17ba027d1ed0a9ada17aa4cc74b9694b45d4ad

def stockDigest : Bytes :=
  bytes32 0xfdac4eb756705c43de18a04ab34dab2964beda3e53ddcc87a81c6a38a1ebae63

def recoveryDigest : Bytes :=
  bytes32 0xaf36adf366b84c62c37f38421032ac2046e02dbb9dcdaed065158af4a279687f

/-- SHA-256 at the three payloads of the sample. -/
def sampleSha : Sha256 where
  digest bytes :=
    if bytes = sampleDdr then ddrDigest
    else if bytes = stockSpl then stockDigest
    else if bytes = recoverySpl then recoveryDigest
    else zeros 32
  digest_length bytes := by
    split_ifs <;> rfl

/-- The DDR at sector 1 and the SPL at sectors 2 and 3. -/
def sampleCopy (spl splDigest : Bytes) : Bytes :=
  text "RKNS" ++ zeros 116 ++ [1, 0, 1, 0] ++ zeros 20 ++ ddrDigest ++ zeros 32 ++
    [2, 0, 2, 0] ++ zeros 20 ++ splDigest ++ zeros 248 ++ sampleDdr ++ spl

def stockImage : Bytes :=
  sampleCopy stockSpl stockDigest ++ sampleCopy stockSpl stockDigest

theorem eq_recoverySpl_of_digest {bytes : Bytes}
    (same : sampleSha.digest bytes = recoveryDigest) : bytes = recoverySpl := by
  simp only [sampleSha] at same
  split_ifs at same with _ _ isRecovery
  · exact absurd same (by decide)
  · exact absurd same (by decide)
  · exact isRecovery
  · exact absurd same (by decide)

/-- The SPL entry of the copy at a position. -/
def sampleEntry (copy : Nat) (spl : Bytes) : IdbEntry where
  copy := copy
  index := splIndex
  entry := copy + 0xd0
  start := copy + 1024
  payload := spl

def stockRebuilt : Rebuilt where
  ddr := sampleDdr
  first := sampleEntry 0 stockSpl
  second := sampleEntry 2048 stockSpl
  payload := recoverySpl

/-- The image that replaces the stock image. -/
def preparedImage : Bytes :=
  resealBoth sampleSha stockRebuilt stockImage

theorem ddrDigest_length : ddrDigest.length = 32 := rfl

theorem sampleDdr_length : sampleDdr.length = 512 := List.length_replicate

section Copies

variable {spl splDigest : Bytes} (splLength : spl.length = 1024)
  (digestLength : splDigest.length = 32)
include splLength digestLength

theorem sampleCopy_length : (sampleCopy spl splDigest).length = 2048 := by
  simp only [sampleCopy, List.length_append, List.length_replicate, List.length_cons,
    List.length_nil, splLength, digestLength, ddrDigest_length, sampleDdr_length, magic_length]

/-- Where the parser reads a copy. -/
theorem sampleCopy_slices :
    slice (sampleCopy spl splDigest) 0 4 = text "RKNS" ∧
    slice (sampleCopy spl splDigest) 0x78 0x7a = [1, 0] ∧
    slice (sampleCopy spl splDigest) 0x7a 0x7c = [1, 0] ∧
    slice (sampleCopy spl splDigest) 0x90 0xb0 = ddrDigest ∧
    slice (sampleCopy spl splDigest) 0xd0 0xd2 = [2, 0] ∧
    slice (sampleCopy spl splDigest) 0xd2 0xd4 = [2, 0] ∧
    slice (sampleCopy spl splDigest) 0xe8 0x108 = splDigest ∧
    slice (sampleCopy spl splDigest) 0x200 0x400 = sampleDdr ∧
    slice (sampleCopy spl splDigest) 0x400 0x800 = spl := by
  refine ⟨?_, ?_, ?_, ?_, ?_, ?_, ?_, ?_, ?_⟩ <;>
    simp (disch := simp [splLength, digestLength, ddrDigest_length, sampleDdr_length, magic_length]) only
      [sampleCopy, slice_append_right, slice_append_left, slice_of_length_le, List.length_append,
        List.length_replicate, List.length_cons, List.length_nil, digestLength, ddrDigest_length,
        sampleDdr_length, magic_length, Nat.reduceAdd, Nat.reduceSub, Nat.sub_self]
  all_goals rfl

variable {sha : Sha256} (ddrSealed : sha.digest sampleDdr = ddrDigest)
  (splSealed : sha.digest spl = splDigest)
include ddrSealed splSealed

/-- A copy is read wherever it stands in an image. -/
theorem sampleCopy_parsed (front back : Bytes) :
    parseCopy sha (front ++ sampleCopy spl splDigest ++ back) front.length =
      .ok [{ copy := front.length, index := ddrIndex, entry := front.length + 0x78,
             start := front.length + 512, payload := sampleDdr },
        sampleEntry front.length spl] := by
  have length := sampleCopy_length splLength digestLength
  rcases sampleCopy_slices splLength digestLength with
    ⟨magic, ddrOff, ddrCount, ddrHash, splOff, splCount, splHash, isDdr, isSpl⟩
  have read : ∀ start stop, stop ≤ 2048 →
      slice (front ++ sampleCopy spl splDigest ++ back) (front.length + start)
        (front.length + stop) = slice (sampleCopy spl splDigest) start stop := by
    intro start stop inside
    rw [slice_append_left (by rw [List.length_append, length]; omega),
      slice_append_right (by omega), Nat.add_sub_cancel_left, Nat.add_sub_cancel_left]
  have long : front.length + 2048 ≤ (front ++ sampleCopy spl splDigest ++ back).length := by
    simp only [List.length_append, length]
    omega
  generalize front ++ sampleCopy spl splDigest ++ back = image at read long
  have ddr : parseEntry sha image front.length ddrIndex = .ok
      { copy := front.length, index := ddrIndex, entry := front.length + 0x78,
        start := front.length + 512, payload := sampleDdr } := by
    have off : u16le image (front.length + 0x78 + ddrIndex * entrySize) = 1 :=
      congrArg fromLe ((read 0x78 0x7a (by decide)).trans ddrOff)
    have count : u16le image (front.length + 0x78 + ddrIndex * entrySize + 2) = 1 :=
      congrArg fromLe ((read 0x7a 0x7c (by decide)).trans ddrCount)
    have payload : slice image (front.length + 1 * 512) (front.length + 1 * 512 + 1 * 512) =
      sampleDdr := (read 0x200 0x400 (by decide)).trans isDdr
    have want : slice image (front.length + 0x78 + ddrIndex * entrySize + 0x18)
        (front.length + 0x78 + ddrIndex * entrySize + 0x18 + 32) = ddrDigest :=
      (read 0x90 0xb0 (by decide)).trans ddrHash
    rw [parseEntry]
    dsimp only
    rw [off, count, refuseIf_of_not (by decide), refuseIf_of_not (by omega), payload, want,
      ddrSealed, refuseIf_of_not (not_not_intro rfl)]
    rfl
  have spl : parseEntry sha image front.length splIndex = .ok (sampleEntry front.length spl) := by
    have off : u16le image (front.length + 0x78 + splIndex * entrySize) = 2 :=
      congrArg fromLe ((read 0xd0 0xd2 (by decide)).trans splOff)
    have count : u16le image (front.length + 0x78 + splIndex * entrySize + 2) = 2 :=
      congrArg fromLe ((read 0xd2 0xd4 (by decide)).trans splCount)
    have payload : slice image (front.length + 2 * 512) (front.length + 2 * 512 + 2 * 512) =
      spl := (read 0x400 0x800 (by decide)).trans isSpl
    have want : slice image (front.length + 0x78 + splIndex * entrySize + 0x18)
        (front.length + 0x78 + splIndex * entrySize + 0x18 + 32) = splDigest :=
      (read 0xe8 0x108 (by decide)).trans splHash
    rw [parseEntry]
    dsimp only
    rw [off, count, refuseIf_of_not (by decide), refuseIf_of_not (by omega), payload, want,
      splSealed, refuseIf_of_not (not_not_intro rfl)]
    rfl
  have found : slice image front.length (front.length + 4) = text "RKNS" :=
    (read 0 4 (by decide)).trans magic
  rw [parseCopy, found, refuseIf_of_not (not_not_intro rfl), ddr, spl]
  rfl

/-- An image of two such copies is accepted. -/
theorem sampleCopies_paired :
    paired sampleLayout sha (sampleCopy spl splDigest ++ sampleCopy spl splDigest) =
      .ok (sampleDdr, sampleEntry 0 spl, sampleEntry 2048 spl) := by
  have length := sampleCopy_length splLength digestLength
  have first := sampleCopy_parsed splLength digestLength ddrSealed splSealed []
    (sampleCopy spl splDigest)
  have second := sampleCopy_parsed splLength digestLength ddrSealed splSealed
    (sampleCopy spl splDigest) []
  rw [List.nil_append, List.length_nil] at first
  rw [List.append_nil, length] at second
  have whole : (sampleCopy spl splDigest ++ sampleCopy spl splDigest).length =
      sampleLayout.size := by
    rw [List.length_append, length]
    rfl
  refine bind_eq_ok.mpr ⟨_, bind_eq_ok.mpr ⟨(), refuseIf_of_not (not_not_intro whole) _,
    bind_eq_ok.mpr ⟨_, first, bind_eq_ok.mpr ⟨_, second, rfl⟩⟩⟩, ?_⟩
  exact bind_eq_ok.mpr ⟨(), refuseIf_of_not (not_not_intro rfl) _,
    bind_eq_ok.mpr ⟨(), refuseIf_of_not (not_not_intro rfl) _, rfl⟩⟩

end Copies

/-- Resealing a copy leaves a copy with the new payload. -/
theorem sampleCopy_resealed (sha : Sha256) {spl spl' splDigest : Bytes}
    (digestLength : splDigest.length = 32) (sameLength : spl'.length = spl.length)
    (front back : Bytes) :
    reseal sha spl' (front ++ sampleCopy spl splDigest ++ back) (sampleEntry front.length spl) =
      front ++ sampleCopy spl' (sha.digest spl') ++ back := by
  have head : ∃ table : Bytes, table.length = 0xe8 ∧ ∀ payload digest,
      sampleCopy payload digest = table ++ digest ++ (zeros 248 ++ sampleDdr) ++ payload := by
    refine ⟨text "RKNS" ++ zeros 116 ++ [1, 0, 1, 0] ++ zeros 20 ++ ddrDigest ++ zeros 32 ++
      [2, 0, 2, 0] ++ zeros 20, ?_, fun payload digest => ?_⟩
    · simp only [List.length_append, List.length_replicate, List.length_cons, List.length_nil,
        magic_length, ddrDigest_length]
    · simp only [sampleCopy, List.append_assoc]
  rcases head with ⟨table, tableLength, isCopy⟩
  have payloadAt : front.length + 1024 =
      (front ++ (table ++ splDigest ++ (zeros 248 ++ sampleDdr))).length := by
    simp only [List.length_append, tableLength, digestLength, List.length_replicate,
      sampleDdr_length]
  have hashAt : front.length + 0xd0 + 0x18 = (front ++ table).length := by
    rw [List.length_append, tableLength]
  have written : splice (front ++ sampleCopy spl splDigest ++ back) (front.length + 1024) spl' =
      front ++ sampleCopy spl' splDigest ++ back := by
    rw [isCopy, isCopy, payloadAt, ← List.append_assoc front, splice_between sameLength,
      ← List.append_assoc front (table ++ splDigest ++ (zeros 248 ++ sampleDdr))]
  have hashed : splice (front ++ sampleCopy spl' splDigest ++ back) (front.length + 0xd0 + 0x18)
      (sha.digest spl') = front ++ sampleCopy spl' (sha.digest spl') ++ back := by
    rw [isCopy, isCopy, hashAt]
    have sameDigest : (sha.digest spl').length = splDigest.length :=
      (sha.digest_length spl').trans digestLength.symm
    have between : splice (front ++ table ++ splDigest ++
        (zeros 248 ++ sampleDdr ++ spl' ++ back)) (front ++ table).length (sha.digest spl') =
        front ++ table ++ sha.digest spl' ++ (zeros 248 ++ sampleDdr ++ spl' ++ back) :=
      splice_between sameDigest
    simpa only [List.append_assoc] using between
  rw [reseal, sampleEntry, written, hashed]

/-- The SPL of the sample is its code, its device tree and zeros. -/
theorem sampleSpl_eq : ∃ code : Bytes, code.length = sampleLayout.dtbOff ∧ ∀ tree,
    sampleSpl tree = code ++ tree ++ zeros (512 - tree.length) := by
  refine ⟨_, ?_, fun _ => rfl⟩
  simp only [bootCallInsn, List.length_append, List.length_replicate, List.length_cons,
    List.length_nil, splBanner_length]
  rfl

theorem sampleSpl_length {tree : Bytes} (fits : tree.length ≤ 512) :
    (sampleSpl tree).length = 1024 := by
  rcases sampleSpl_eq with ⟨code, length, isSpl⟩
  have offset : sampleLayout.dtbOff = 512 := rfl
  rw [isSpl, List.length_append, List.length_append, length, List.length_replicate]
  omega

theorem sampleSpl_code : ∃ code : Bytes, ∀ tree,
    (sampleSpl tree).take sampleLayout.dtbOff = code := by
  rcases sampleSpl_eq with ⟨code, length, isSpl⟩
  refine ⟨code, fun tree => ?_⟩
  rw [isSpl, ← length, List.append_assoc, List.take_left]

/-- What is evaluated of the two trees: they fit, the edit is shorter, and it shows in the
length that stands in the second word. -/
theorem sampleBlobs_fit : sampleBlob.length ≤ 512 ∧ recoveryBlob.length < sampleBlob.length ∧
    recoverySpl.getD 519 0 ≠ stockSpl.getD 519 0 := by
  decide +kernel

theorem stockSpl_length : stockSpl.length = 1024 :=
  sampleSpl_length sampleBlobs_fit.1

theorem recoverySpl_length : recoverySpl.length = 1024 :=
  sampleSpl_length (Nat.le_of_lt (Nat.lt_of_lt_of_le sampleBlobs_fit.2.1 sampleBlobs_fit.1))

theorem sampleSha_ddr : sampleSha.digest sampleDdr = ddrDigest := by
  simp only [sampleSha, if_true]

theorem sampleSha_stock : sampleSha.digest stockSpl = stockDigest := by
  have other : stockSpl ≠ sampleDdr := fun same =>
    absurd (congrArg List.length same) (by rw [stockSpl_length, sampleDdr_length]; decide)
  simp only [sampleSha, if_neg other, if_true]

theorem sampleSha_recovery : sampleSha.digest recoverySpl = recoveryDigest := by
  have other : recoverySpl ≠ sampleDdr := fun same =>
    absurd (congrArg List.length same) (by rw [recoverySpl_length, sampleDdr_length]; decide)
  have edited : recoverySpl ≠ stockSpl := fun same =>
    absurd (congrArg (·.getD 519 0) same) sampleBlobs_fit.2.2
  simp only [sampleSha, if_neg other, if_neg edited, if_true]

theorem sampleCopies_resealed (sha : Sha256) :
    resealBoth sha stockRebuilt stockImage =
      sampleCopy recoverySpl (sha.digest recoverySpl) ++
        sampleCopy recoverySpl (sha.digest recoverySpl) := by
  have same : recoverySpl.length = stockSpl.length := recoverySpl_length.trans stockSpl_length.symm
  have digest : stockDigest.length = 32 := rfl
  have first := sampleCopy_resealed sha digest same [] (sampleCopy stockSpl stockDigest)
  have second := sampleCopy_resealed sha digest same
    (sampleCopy recoverySpl (sha.digest recoverySpl)) []
  rw [List.nil_append, List.nil_append, List.length_nil] at first
  rw [List.append_nil, List.append_nil, sampleCopy_length recoverySpl_length (sha.digest_length _)] at second
  rw [resealBoth, stockRebuilt]
  dsimp only
  rw [stockImage, first, second]

/-- A digest function that is SHA-256 at the payloads of the sample. -/
structure SampleDigests (sha : Sha256) : Prop where
  ddr : sha.digest sampleDdr = ddrDigest
  stock : sha.digest stockSpl = stockDigest
  recovery : sha.digest recoverySpl = recoveryDigest

theorem sampleSha_digests : SampleDigests sampleSha :=
  ⟨sampleSha_ddr, sampleSha_stock, sampleSha_recovery⟩

theorem stockSpl_tree : fdt sampleLayout stockSpl = .ok sampleBlob :=
  eq_ok_of_toOption (by decide +kernel)

theorem preparedImage_eq : preparedImage =
    sampleCopy recoverySpl recoveryDigest ++ sampleCopy recoverySpl recoveryDigest := by
  rw [preparedImage, sampleCopies_resealed, sampleSha_recovery]

section Stock

variable {sha : Sha256} (digests : SampleDigests sha)
include digests

theorem stockImage_pair : paired sampleLayout sha stockImage =
    .ok (sampleDdr, sampleEntry 0 stockSpl, sampleEntry 2048 stockSpl) :=
  sampleCopies_paired stockSpl_length rfl digests.ddr digests.stock

theorem preparedImage_pair : paired sampleLayout sha preparedImage =
    .ok (sampleDdr, sampleEntry 0 recoverySpl, sampleEntry 2048 recoverySpl) := by
  rw [preparedImage_eq]
  exact sampleCopies_paired recoverySpl_length rfl digests.ddr digests.recovery

theorem stockImage_rebuild : rebuild sampleLayout sha stockImage = .ok stockRebuilt := by
  have shrunk : ¬recoveryBlob.length ≥ sampleBlob.length :=
    Nat.not_le_of_lt sampleBlobs_fit.2.1
  have code : recoverySpl.take sampleLayout.dtbOff = stockSpl.take sampleLayout.dtbOff := by
    rcases sampleSpl_code with ⟨code, isCode⟩
    rw [recoverySpl, stockSpl, isCode, isCode]
  have payload : rebuildPayload sampleLayout stockSpl recoveryBlob = recoverySpl := by
    rw [rebuildPayload, ← code, stockSpl_length]
    rcases sampleSpl_eq with ⟨front, length, isSpl⟩
    rw [recoverySpl, isSpl, ← length, List.append_assoc front, List.take_left, length,
      ← List.append_assoc]
    rfl
  have call : slice recoverySpl sampleLayout.bootCall (sampleLayout.bootCall + 4) =
      bootCallInsn := by decide
  refine bind_eq_ok.mpr ⟨_, stockImage_pair digests, bind_eq_ok.mpr ⟨_, stockSpl_tree,
    bind_eq_ok.mpr ⟨_, sampleBlob_replaced, bind_eq_ok.mpr ⟨(), refuseIf_of_not shrunk _, ?_⟩⟩⟩⟩
  dsimp only [sampleEntry]
  rw [payload]
  exact bind_eq_ok.mpr ⟨(), refuseIf_of_not (not_not_intro code) _,
    bind_eq_ok.mpr ⟨(), refuseIf_of_not (not_not_intro call) _, rfl⟩⟩

theorem stockImage_deriveBytes :
    deriveBytes sampleLayout sha stockImage = .ok preparedImage := by
  have image : resealBoth sha stockRebuilt stockImage = preparedImage := by
    rw [sampleCopies_resealed, digests.recovery, preparedImage_eq]
  have code : slice preparedImage stockRebuilt.first.start
      (stockRebuilt.first.start + sampleLayout.dtbOff) =
      stockRebuilt.first.payload.take sampleLayout.dtbOff := by
    have copy : (sampleCopy recoverySpl recoveryDigest).length = 2048 :=
      sampleCopy_length recoverySpl_length rfl
    have isSpl : slice (sampleCopy recoverySpl recoveryDigest) 1024 2048 = recoverySpl :=
      (sampleCopy_slices recoverySpl_length rfl).2.2.2.2.2.2.2.2
    rcases sampleSpl_code with ⟨executable, isCode⟩
    have same : recoverySpl.take 512 = stockSpl.take 512 :=
      (isCode recoveryBlob).trans (isCode sampleBlob).symm
    rw [preparedImage_eq]
    change slice (_ ++ _) 1024 (1024 + 512) = stockSpl.take 512
    rw [slice_append_left (by rw [copy]; decide), ← take_slice (by decide : 1024 + 512 ≤ 2048),
      isSpl, same]
  refine bind_eq_ok.mpr ⟨_, stockImage_rebuild digests, ?_⟩
  dsimp only
  rw [image]
  exact bind_eq_ok.mpr ⟨_, preparedImage_pair digests, bind_eq_ok.mpr
    ⟨(), refuseIf_of_not (not_not_intro rfl) _,
      bind_eq_ok.mpr ⟨(), refuseIf_of_not (not_not_intro code) _, rfl⟩⟩⟩

end Stock

/-- The recovery image of the stock image is refused. -/
theorem stockImage_derived : ∃ produced,
    deriveBytes sampleLayout sampleSha stockImage = .ok produced ∧
      Derived sampleLayout sampleSha stockImage produced ∧
      ∀ again, deriveBytes sampleLayout sampleSha produced ≠ .ok again := by
  have computed := stockImage_deriveBytes sampleSha_digests
  have derived := deriveBytes_derived computed
  refine ⟨_, computed, derived, derived.refuses ?_⟩
  intro rebuilt found built _ item _ same
  cases (stockImage_rebuild sampleSha_digests).symm.trans built
  exact eq_recoverySpl_of_digest (same.trans sampleSha_recovery)

end Zlyme.Preloader
