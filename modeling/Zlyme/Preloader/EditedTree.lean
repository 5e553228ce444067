import Zlyme.Preloader.BootOrder

/-! # What the edited tree says

The walk of the edited tree is the walk of the input with one value replaced, and
its header describes where its blocks are, exactly when the blocks of the input
lay one behind the other.
-/

namespace Zlyme.Preloader

open Foundation Foundation.Bytes

/-! ## Header words -/

section Words

variable {body : Bytes} (room : 40 ≤ body.length) (total offStr sizeStruct : Nat)

include room

theorem withWords_length : (withWords body total offStr sizeStruct).length = body.length := by
  have first : (splice body 4 (packBe32 total)).length = body.length :=
    splice_length (by rw [packBe32_length]; omega)
  have second : (splice (splice body 4 (packBe32 total)) 12 (packBe32 offStr)).length =
      body.length := by
    rw [splice_length (by rw [packBe32_length, first]; omega), first]
  rw [withWords, splice_length (by rw [packBe32_length, second]; omega), second]

theorem getElem?_withWords (index : Nat) :
    (withWords body total offStr sizeStruct)[index]? =
      if 36 ≤ index ∧ index < 40 then (packBe32 sizeStruct)[index - 36]?
      else if 12 ≤ index ∧ index < 16 then (packBe32 offStr)[index - 12]?
      else if 4 ≤ index ∧ index < 8 then (packBe32 total)[index - 4]?
      else body[index]? := by
  have first : (splice body 4 (packBe32 total)).length = body.length :=
    splice_length (by rw [packBe32_length]; omega)
  have second : (splice (splice body 4 (packBe32 total)) 12 (packBe32 offStr)).length =
      body.length := by
    rw [splice_length (by rw [packBe32_length, first]; omega), first]
  rw [withWords, getElem?_splice (by omega), getElem?_splice (by omega),
    getElem?_splice (by omega)]
  rfl

theorem withWords_drop {count : Nat} (beyond : 40 ≤ count) :
    (withWords body total offStr sizeStruct).drop count = body.drop count := by
  apply List.ext_getElem?
  intro index
  rw [List.getElem?_drop, List.getElem?_drop, getElem?_withWords room, if_neg (by omega),
    if_neg (by omega), if_neg (by omega)]

theorem readHeader_withWords (totalSmall : total < 2 ^ 32) (offStrSmall : offStr < 2 ^ 32)
    (sizeStructSmall : sizeStruct < 2 ^ 32) :
    readHeader (withWords body total offStr sizeStruct) =
      { readHeader body with total := total, offStr := offStr, sizeStruct := sizeStruct } := by
  have same : ∀ index, index ≠ 1 → index ≠ 3 → index ≠ 9 →
      headerWord (withWords body total offStr sizeStruct) index = headerWord body index := by
    intro index notTotal notOffStr notSize
    rw [headerWord, headerWord]
    congr 1
    apply slice_congr
    intro byte lower upper
    rw [getElem?_withWords room, if_neg (by omega), if_neg (by omega), if_neg (by omega)]
  have written : ∀ index value, value < 2 ^ 32 →
      (∀ byte, 4 * index ≤ byte → byte < 4 * index + 4 →
        (withWords body total offStr sizeStruct)[byte]? = (packBe32 value)[byte - 4 * index]?) →
      headerWord (withWords body total offStr sizeStruct) index = value := by
    intro index value small agree
    rw [headerWord]
    refine Eq.trans (congrArg fromBe ?_) (fromBe_packBe32 small)
    apply List.ext_getElem?
    intro byte
    rw [getElem?_slice]
    split
    · rw [agree _ (by omega) (by omega), Nat.add_sub_cancel_left]
    · exact (List.getElem?_eq_none (by rw [packBe32_length]; omega)).symm
  rw [readHeader, readHeader, same 2 (by decide) (by decide) (by decide),
    same 4 (by decide) (by decide) (by decide), same 5 (by decide) (by decide) (by decide),
    same 6 (by decide) (by decide) (by decide), same 7 (by decide) (by decide) (by decide),
    same 8 (by decide) (by decide) (by decide),
    written 1 total totalSmall, written 3 offStr offStrSmall,
    written 9 sizeStruct sizeStructSmall]
  · intro byte lower upper
    rw [getElem?_withWords room, if_pos (by omega)]
  · intro byte lower upper
    rw [getElem?_withWords room, if_neg (by omega), if_pos (by omega)]
  · intro byte lower upper
    rw [getElem?_withWords room, if_neg (by omega), if_neg (by omega), if_pos (by omega)]

end Words

/-! ## The edited property -/

section Property

variable {blob strings : Bytes} {pos next : Nat} {stack : List Bytes}
  {path name value : Bytes}

/-- The value that a property token carries ends where the token does. -/
theorem Token.value_end {stack' : List Bytes}
    (token : Token strings (blob.drop pos) pos stack next stack'
      (some (.prop path name value pos)))
    (inside : next ≤ blob.length) :
    path = pathOf stack ∧ pos + 12 + value.length ≤ blob.length ∧ next = valueEnd pos value := by
  cases token with
  | @prop length nameoff name token lengthRead nameoffRead named =>
      have full : pos + 12 + length ≤ blob.length := by
        simp only [alignDown] at inside
        omega
      have sized : (((blob.drop pos).drop 12).take length).length = length := by
        rw [List.length_take, List.length_drop, List.length_drop]
        omega
      rw [valueEnd, sized]
      exact ⟨rfl, full, rfl⟩

/-- With a new length in its head and a new value behind it, the token reads as
the same property with that value. -/
theorem Token.newValue {stack' : List Bytes}
    (token : Token strings (blob.drop pos) pos stack next stack'
      (some (.prop path name value pos)))
    (headInside : pos + 12 ≤ blob.length) {new : Bytes} (small : new.length < 2 ^ 32)
    (rest : Bytes) :
    Token strings (newHead blob pos new ++ (new ++ rest)) pos stack (valueEnd pos new) stack'
      (some (.prop path name new pos)) := by
  have headLength : (slice blob pos (pos + 12)).length = 12 := by
    rw [slice_length headInside, Nat.add_sub_cancel_left]
  have split := drop_eq_slice_append blob (Nat.le_add_right pos 12)
  rw [newHead]
  match head : slice blob pos (pos + 12), headLength with
  | [b0, b1, b2, b3, b4, b5, b6, b7, b8, b9, b10, b11], _ =>
      rw [head] at split
      cases token with
      | @prop length nameoff name token lengthRead nameoffRead named =>
          rw [split] at token nameoffRead
          have newLength : unpackBe32 (packBe32 new.length ++ (b8 :: b9 :: b10 :: b11 ::
              (new ++ rest))) = some new.length := by
            rw [unpackBe32_append (show 4 ≤ (packBe32 new.length).length from Nat.le_refl 4)]
            exact congrArg some (fromBe_packBe32 small)
          have built : Token strings
              ([b0, b1, b2, b3] ++ (packBe32 new.length ++ (b8 :: b9 :: b10 :: b11 ::
                (new ++ rest)))) pos stack (alignDown (pos + 12 + new.length + 3)) stack
              (some (.prop (pathOf stack) name ((new ++ rest).take new.length) pos)) :=
            .prop token newLength nameoffRead named
          rw [List.take_left] at built
          exact built

end Property

/-! ## The body around a new value -/

section Body

variable {blob : Bytes} {pos : Nat} (walked : Walked) (old new : Bytes)

theorem newHead_length (inside : pos + 12 ≤ blob.length) : (newHead blob pos new).length = 12 := by
  have sized : (slice blob pos (pos + 12)).length = 12 := by
    rw [slice_length inside, Nat.add_sub_cancel_left]
  rw [newHead, splice_length (by rw [packBe32_length, sized]; omega), sized]

theorem rebuiltBody_drop_pos (inside : pos ≤ blob.length) :
    (rebuiltBody blob walked pos old (newHead blob pos new) new).drop pos =
      newHead blob pos new ++ (new ++ (zeros ((4 - new.length % 4) % 4) ++
        (slice blob (valueEnd pos old) (walked.header.offStruct + walked.header.sizeStruct) ++
          walked.strings))) := by
  have taken : (blob.take pos).length = pos := by
    rw [List.length_take]
    omega
  simp only [rebuiltBody, List.append_assoc]
  exact List.drop_left' taken

theorem rebuiltBody_drop_end (inside : pos + 12 ≤ blob.length) (aligned : pos % 4 = 0) :
    (rebuiltBody blob walked pos old (newHead blob pos new) new).drop (valueEnd pos new) =
      slice blob (valueEnd pos old) (walked.header.offStruct + walked.header.sizeStruct) ++
        walked.strings := by
  have front : (blob.take pos ++ newHead blob pos new ++ new ++
      zeros ((4 - new.length % 4) % 4)).length = valueEnd pos new := by
    simp only [List.length_append, List.length_take, List.length_replicate,
      newHead_length new inside, valueEnd, alignDown]
    omega
  simp only [rebuiltBody]
  rw [List.append_assoc]
  exact List.drop_left' front

theorem getElem?_rebuiltBody (head : Bytes) {index : Nat} (before : index < pos)
    (inside : pos ≤ blob.length) :
    (rebuiltBody blob walked pos old head new)[index]? = blob[index]? := by
  have taken : index < (blob.take pos).length := by
    rw [List.length_take]
    omega
  simp only [rebuiltBody, List.append_assoc]
  rw [List.getElem?_append_left taken, List.getElem?_take, if_pos before]

/-- When the strings block follows the struct block and ends the tree, the body
after the new value is the input after the old one. -/
theorem strings_follow {walked : Walked} {old : Bytes} (facts : WalkFacts blob walked)
    (follows : walked.header.offStr = walked.header.offStruct + walked.header.sizeStruct)
    (ends : walked.header.offStr + walked.header.sizeStr = blob.length)
    (before : valueEnd pos old ≤ walked.header.offStruct + walked.header.sizeStruct) :
    slice blob (valueEnd pos old) (walked.header.offStruct + walked.header.sizeStruct) ++
      walked.strings = blob.drop (valueEnd pos old) := by
  have strings : walked.strings =
      blob.drop (walked.header.offStruct + walked.header.sizeStruct) := by
    rw [facts.strings, slice, ends, follows, ← List.length_drop, List.take_length]
  rw [strings]
  exact (drop_eq_slice_append blob before).symm

end Body

/-! ## The old value -/

theorem splitNul_ne_nil (data : Bytes) : splitNul data ≠ [] := by
  cases data with
  | nil => simp [splitNul]
  | cons byte rest =>
      rw [splitNul]
      split
      · simp
      · split <;> simp

/-- Every byte is in one part or ends one. -/
theorem splitNul_lengths (data : Bytes) :
    ((splitNul data).map List.length).sum + (splitNul data).length = data.length + 1 := by
  induction data with
  | nil => rfl
  | cons byte rest induction =>
      rw [splitNul]
      split
      · simp only [List.map_cons, List.sum_cons, List.length_cons, List.length_nil]
        omega
      · split
        · rename_i part parts split
          rw [split] at induction
          simp only [List.map_cons, List.sum_cons, List.length_cons] at induction ⊢
          omega
        · rename_i empty
          exact absurd empty (splitNul_ne_nil rest)

theorem splitNul_concat_nul (data : Bytes) : splitNul (data ++ [0]) = splitNul data ++ [[]] := by
  induction data with
  | nil => rfl
  | cons byte rest induction =>
      rw [List.cons_append, splitNul, splitNul, induction]
      split
      · rfl
      · cases parts : splitNul rest with
        | nil => exact absurd parts (splitNul_ne_nil rest)
        | cons part parts => rfl

theorem mapM_decode_eq_ok {parts texts : List Bytes} (decoded : parts.mapM decode = .ok texts) :
    texts = parts := by
  induction parts generalizing texts with
  | nil =>
      cases decoded
      rfl
  | cons part parts induction =>
      rw [List.mapM_cons] at decoded
      rcases bind_eq_ok.mp decoded with ⟨text, isText, decoded⟩
      rcases bind_eq_ok.mp decoded with ⟨rest, isRest, same⟩
      cases same
      rw [decode_eq_ok isText, induction isRest]

theorem stringlist_length {data : Bytes} {order : List Bytes}
    (split : stringlist data = .ok order) :
    data.length = (order.map List.length).sum + order.length := by
  rw [stringlist] at split
  split at split
  · cases split
  · rename_i terminated
    have terminated := Decidable.of_not_not terminated
    rw [List.getLast?_eq_some_iff] at terminated
    rcases terminated with ⟨front, rfl⟩
    have lengths := splitNul_lengths front
    rw [mapM_decode_eq_ok split, splitNul_concat_nul, List.dropLast_concat, lengths,
      List.length_append, List.length_singleton]

theorem sourceOrder_length {old : Bytes} (split : stringlist old = .ok sourceOrder) :
    old.length = 92 := by
  rw [stringlist_length split]
  decide +kernel

/-! ## An edit -/

theorem Walks.inside {blob strings : Bytes} {stop p : Nat} {stack : List Bytes}
    {items : List FdtItem} (walks : Walks blob strings stop p stack items) : p < stop := by
  cases walks <;> assumption

/-- Where the edited property stands in the walk of the input. -/
structure Located (blob : Bytes) (walked : Walked) (pos : Nat) (old : Bytes) : Prop where
  aligned : pos % 4 = 0
  after_start : walked.header.offStruct ≤ pos
  value_inside : pos + 12 + old.length ≤ blob.length
  before_stop : valueEnd pos old < walked.header.offStruct + walked.header.sizeStruct
  splits : ∃ before after inner,
    walked.items = before ++ .prop chosenPath bootOrderName old pos :: after ∧
    (∀ item ∈ before ++ after, item.isBootOrder = false) ∧
    Token walked.strings (blob.drop pos) pos inner (valueEnd pos old) inner
      (some (.prop chosenPath bootOrderName old pos)) ∧
    Walks blob walked.strings (walked.header.offStruct + walked.header.sizeStruct)
      (valueEnd pos old) inner after ∧
    ∀ edited stop', (∀ index, walked.header.offStruct ≤ index → index < pos →
        edited[index]? = blob[index]?) → pos < stop' →
      ∀ items', Walks edited walked.strings stop' pos inner items' →
        Walks edited walked.strings stop' walked.header.offStruct [] (before ++ items')

theorem chosenPath_nested {stack : List Bytes} (path : chosenPath = pathOf stack) :
    stack ≠ [] := by
  rintro rfl
  have differs : chosenPath ≠ pathOf [] := by decide +kernel
  exact differs path

theorem filter_split {before after : List FdtItem} {item : FdtItem}
    (once : (before ++ item :: after).filter FdtItem.isBootOrder = [item])
    (isBootOrder : item.isBootOrder = true) :
    ∀ other ∈ before ++ after, other.isBootOrder = false := by
  rw [List.filter_append, List.filter_cons, if_pos isBootOrder] at once
  have lengths := congrArg List.length once
  simp only [List.length_append, List.length_cons, List.length_nil] at lengths
  have noneBefore : before.filter FdtItem.isBootOrder = [] :=
    List.eq_nil_of_length_eq_zero (by omega)
  have noneAfter : after.filter FdtItem.isBootOrder = [] :=
    List.eq_nil_of_length_eq_zero (by omega)
  intro other member
  rcases List.mem_append.mp member with inBefore | inAfter
  · simpa using List.filter_eq_nil_iff.mp noneBefore other inBefore
  · simpa using List.filter_eq_nil_iff.mp noneAfter other inAfter

theorem located {blob : Bytes} {walked : Walked} {pos : Nat} {old : Bytes} {order : List Bytes}
    (facts : WalkFacts blob walked) (source : BootOrderFacts walked pos old order) :
    Located blob walked pos old := by
  have member : FdtItem.prop chosenPath bootOrderName old pos ∈ walked.items := by
    have filtered : FdtItem.prop chosenPath bootOrderName old pos ∈
        walked.items.filter FdtItem.isBootOrder := by
      rw [source.once]
      exact List.mem_singleton_self _
    exact (List.mem_filter.mp filtered).1
  rcases facts.walks.split facts.structInside (by simp) member with
    ⟨before, after, inner, next, splits, aligned, posInside, token, later, transfer⟩
  have laterInside := later.inside
  have structInside := facts.structInside
  rcases token.value_end (by omega) with ⟨path, valueInside, rfl⟩
  have once := source.once
  rw [splits] at once
  exact {
    aligned := aligned (chosenPath_nested path)
    after_start := facts.walks.pos_ge member
    value_inside := valueInside
    before_stop := laterInside
    splits := ⟨before, after, inner, splits,
      filter_split once (by simp [FdtItem.isBootOrder]), token, later, transfer⟩ }

/-! ## The contract of the edit -/

/-- The content of an item, with another boot-order value. -/
def withBootOrder (value : Bytes) : Bytes × Option (Bytes × Bytes) →
    Bytes × Option (Bytes × Bytes)
  | (path, some (name, old)) =>
      if path = chosenPath ∧ name = bootOrderName then (path, some (name, value))
      else (path, some (name, old))
  | (path, none) => (path, none)

theorem withBootOrder_of_not {item : FdtItem} (other : item.isBootOrder = false) (value : Bytes) :
    withBootOrder value item.content = item.content := by
  cases item with
  | node path => rfl
  | prop path name old pos =>
      have differs : ¬(path = chosenPath ∧ name = bootOrderName) := by
        simpa [FdtItem.isBootOrder] using other
      exact if_neg differs

/-- Replacing the value of the only boot-order property. -/
theorem contents_replaced {before after after' : List FdtItem} {old new : Bytes} {pos : Nat}
    (others : ∀ item ∈ before ++ after, item.isBootOrder = false)
    (same : after'.map FdtItem.content = after.map FdtItem.content) :
    (before ++ .prop chosenPath bootOrderName new pos :: after').map FdtItem.content =
      ((before ++ .prop chosenPath bootOrderName old pos :: after).map FdtItem.content).map
        (withBootOrder new) := by
  have kept : ∀ items : List FdtItem, (∀ item ∈ items, item.isBootOrder = false) →
      (items.map FdtItem.content).map (withBootOrder new) = items.map FdtItem.content := by
    intro items other
    rw [List.map_map]
    exact List.map_congr_left fun item member => withBootOrder_of_not (other item member) new
  have own : withBootOrder new (chosenPath, some (bootOrderName, old)) =
      (chosenPath, some (bootOrderName, new)) := if_pos ⟨rfl, rfl⟩
  simp only [List.map_append, List.map_cons, same,
    kept before fun item member => others item (List.mem_append_left after member),
    kept after fun item member => others item (List.mem_append_right before member)]
  simp only [FdtItem.content, own]

/-- The edited tree: the same nodes and properties in order except for the one
value, a header that describes the blocks as they lie, and a payload around it
that `_fdt` accepts and that keeps its size. -/
structure EditedTree (layout : Layout) (rightSlot blob edited : Bytes) : Prop where
  walked : ∃ before after, walk blob = .ok before ∧ walk edited = .ok after ∧
    after.items.map FdtItem.content =
      (before.items.map FdtItem.content).map (withBootOrder (rightSlot ++ [0]))
  shifted : ∃ shift : Int, 4 ∣ shift ∧
    ((readHeader edited).total : Int) = (readHeader blob).total + shift ∧
    ((readHeader edited).offStr : Int) = (readHeader blob).offStr + shift ∧
    ((readHeader edited).sizeStruct : Int) = (readHeader blob).sizeStruct + shift ∧
    (readHeader edited).offStruct = (readHeader blob).offStruct ∧
    (readHeader edited).sizeStr = (readHeader blob).sizeStr
  consistent : 40 ≤ (readHeader edited).offStruct ∧
    (readHeader edited).offStr = (readHeader edited).offStruct + (readHeader edited).sizeStruct ∧
    (readHeader edited).offStr + (readHeader edited).sizeStr = (readHeader edited).total ∧
    (readHeader edited).total = edited.length
  fits : edited.length ≤ blob.length
  payload : ∀ payload, fdt layout payload = .ok blob →
    (rebuildPayload layout payload edited).length = payload.length ∧
      fdt layout (rebuildPayload layout payload edited) = .ok edited

/-- The blocks of the input lie one behind the other, after the header. -/
structure BlocksInOrder (blob : Bytes) : Prop where
  after_header : 40 ≤ (readHeader blob).offStruct
  strings_follow : (readHeader blob).offStr =
    (readHeader blob).offStruct + (readHeader blob).sizeStruct

section Contract

variable {rightSlot blob edited : Bytes}

theorem Edit.located (edit : Edit rightSlot blob edited) :
    Located blob edit.walked edit.pos edit.old :=
  Preloader.located (walk_eq_ok edit.accepted) edit.source

/-- The edited tree from the new value on. -/
theorem Edit.drop_end (edit : Edit rightSlot blob edited)
    (beyond : 40 ≤ valueEnd edit.pos (rightSlot ++ [0])) :
    edited.drop (valueEnd edit.pos (rightSlot ++ [0])) =
      slice blob (valueEnd edit.pos edit.old)
        (edit.walked.header.offStruct + edit.walked.header.sizeStruct) ++
      edit.walked.strings := by
  have inside := edit.located.value_inside
  have dropped := withWords_drop edit.tree.bodyRoom edit.tree.total edit.tree.offStr
    edit.tree.sizeStruct beyond
  rw [← edit.tree.edited_eq] at dropped
  rw [dropped, rebuiltBody_drop_end edit.walked edit.old _ (by omega) edit.located.aligned]

/-- The length check leaves no room before the struct block's end and the strings
block's length but the end of the tree. -/
theorem Edit.ends (edit : Edit rightSlot blob edited) :
    edit.walked.header.offStruct + edit.walked.header.sizeStruct +
      edit.walked.header.sizeStr = blob.length := by
  have facts := walk_eq_ok edit.accepted
  have inside := edit.located.value_inside
  have beforeStop := edit.located.before_stop
  have headInside : edit.pos + 12 ≤ blob.length := by omega
  have dropped := congrArg List.length (rebuiltBody_drop_end edit.walked edit.old
    (rightSlot ++ [0]) headInside edit.located.aligned)
  have bodyLength := withWords_length edit.tree.bodyRoom edit.tree.total edit.tree.offStr
    edit.tree.sizeStruct
  rw [← edit.tree.edited_eq, edit.edited_length] at bodyLength
  have strings : edit.walked.strings.length = edit.walked.header.sizeStr := by
    rw [facts.strings, slice_length facts.stringsInside, Nat.add_sub_cancel_left]
  rw [List.length_drop, List.length_append, slice_length facts.structInside, strings] at dropped
  have total := edit.tree.total_eq
  have blobTotal := facts.total
  rw [valueShift] at total
  omega

/-- The header of the edited tree, when the struct block lies after the header. -/
theorem Edit.header (edit : Edit rightSlot blob edited)
    (afterHeader : 40 ≤ edit.walked.header.offStruct) :
    readHeader edited =
      { edit.walked.header with
        total := edit.tree.total, offStr := edit.tree.offStr
        sizeStruct := edit.tree.sizeStruct } := by
  have facts := walk_eq_ok edit.accepted
  have afterStart := edit.located.after_start
  have inside := edit.located.value_inside
  have words := readHeader_withWords edit.tree.bodyRoom edit.tree.total edit.tree.offStr
    edit.tree.sizeStruct edit.tree.total_small edit.tree.offStr_small
    edit.tree.sizeStruct_small
  have sameWord : ∀ index, index < 10 → headerWord (rebuiltBody blob edit.walked edit.pos edit.old
      (newHead blob edit.pos (rightSlot ++ [0])) (rightSlot ++ [0])) index =
        headerWord blob index := by
    intro index small
    rw [headerWord, headerWord]
    congr 1
    apply slice_congr
    intro byte _ upper
    exact getElem?_rebuiltBody _ _ _ _ (by omega) (by omega)
  rw [← edit.tree.edited_eq] at words
  rw [words, facts.header, readHeader, readHeader]
  simp only [sameWord 2 (by decide), sameWord 4 (by decide), sameWord 5 (by decide),
    sameWord 6 (by decide), sameWord 7 (by decide), sameWord 8 (by decide)]

/-- The shift is a multiple of four. -/
theorem Edit.shift_dvd (edit : Edit rightSlot blob edited) :
    4 ∣ valueShift edit.pos edit.old (rightSlot ++ [0]) := by
  have old := alignDown_mod (edit.pos + 12 + edit.old.length + 3)
  have new := alignDown_mod (edit.pos + 12 + (rightSlot ++ [0]).length + 3)
  rw [valueShift, valueEnd, valueEnd]
  omega

theorem Walks.unique {blob strings : Bytes} {stop p : Nat} {stack : List Bytes}
    {items items' : List FdtItem} (walks : Walks blob strings stop p stack items)
    (walks' : Walks blob strings stop p stack items') : items = items' := by
  have looped := (walkLoop_eq_ok_iff blob strings stop (Nat.le_add_left stop p)).mpr walks
  have looped' := (walkLoop_eq_ok_iff blob strings stop (Nat.le_add_left stop p)).mpr walks'
  exact Except.ok.inj (looped.symm.trans looped')

/-- The strings block is where the header of the edited tree says. -/
theorem Edit.strings_edited (edit : Edit rightSlot blob edited)
    (follows : edit.walked.header.offStr =
      edit.walked.header.offStruct + edit.walked.header.sizeStruct)
    (beyond : 40 ≤ valueEnd edit.pos (rightSlot ++ [0])) :
    slice edited edit.tree.offStr (edit.tree.offStr + edit.walked.header.sizeStr) =
      edit.walked.strings := by
  have facts := walk_eq_ok edit.accepted
  have beforeStop := edit.located.before_stop
  have offStr := edit.tree.offStr_eq
  rw [valueShift] at offStr
  have moved : edit.tree.offStr = valueEnd edit.pos (rightSlot ++ [0]) +
      (edit.walked.header.offStruct + edit.walked.header.sizeStruct -
        valueEnd edit.pos edit.old) := by
    omega
  have strings : edit.walked.strings.length = edit.walked.header.sizeStr := by
    rw [facts.strings, slice_length facts.stringsInside, Nat.add_sub_cancel_left]
  rw [slice, Nat.add_sub_cancel_left, moved, ← List.drop_drop, edit.drop_end beyond,
    List.drop_left' (slice_length facts.structInside), ← strings, List.take_length]

/-- The walk of the edited tree, when the blocks of the input are in order. -/
theorem Edit.walk_edited (edit : Edit rightSlot blob edited) (inOrder : BlocksInOrder blob) :
    ∃ after, walk edited = .ok after ∧ after.items.map FdtItem.content =
      (edit.walked.items.map FdtItem.content).map (withBootOrder (rightSlot ++ [0])) := by
  have facts := walk_eq_ok edit.accepted
  have afterHeader := inOrder.after_header
  have follows := inOrder.strings_follow
  rw [← facts.header] at afterHeader follows
  have at' := edit.located
  have afterStart := at'.after_start
  have inside := at'.value_inside
  have beforeStop := at'.before_stop
  have ends := edit.ends
  have newEnd : edit.pos + 12 ≤ valueEnd edit.pos (rightSlot ++ [0]) := by
    rw [valueEnd, alignDown]
    have := at'.aligned
    omega
  have headInside : edit.pos + 12 ≤ blob.length := by omega
  have sizeStruct := edit.tree.sizeStruct_eq
  rw [valueShift] at sizeStruct
  rcases at'.splits with ⟨before, after, inner, splits, others, token, later, transfer⟩
  -- The property itself.
  have dropPos := withWords_drop edit.tree.bodyRoom edit.tree.total edit.tree.offStr
    edit.tree.sizeStruct (Nat.le_trans afterHeader afterStart)
  rw [← edit.tree.edited_eq, rebuiltBody_drop_pos edit.walked edit.old (rightSlot ++ [0])
    (Nat.le_of_add_right_le headInside)] at dropPos
  have newToken := token.newValue headInside edit.tree.new_small
    (zeros ((4 - (rightSlot ++ [0]).length % 4) % 4) ++
      (slice blob (valueEnd edit.pos edit.old)
        (edit.walked.header.offStruct + edit.walked.header.sizeStruct) ++ edit.walked.strings))
  rw [← dropPos] at newToken
  -- What follows it.
  have tail : edited.drop (valueEnd edit.pos (rightSlot ++ [0])) =
      blob.drop (valueEnd edit.pos edit.old) := by
    rw [edit.drop_end (by omega), strings_follow facts follows (by omega) (by omega)]
  have sameAlign : valueEnd edit.pos edit.old % 4 =
      valueEnd edit.pos (rightSlot ++ [0]) % 4 := by
    rw [valueEnd, valueEnd, alignDown_mod, alignDown_mod]
  have sameStop : edit.walked.header.offStruct + edit.walked.header.sizeStruct +
      valueEnd edit.pos (rightSlot ++ [0]) =
      edit.walked.header.offStruct + edit.tree.sizeStruct + valueEnd edit.pos edit.old := by
    omega
  rcases later.shift tail sameAlign sameStop with ⟨items', walks', sameItems⟩
  have walksInside := walks'.inside
  -- What precedes it.
  have agree : ∀ index, edit.walked.header.offStruct ≤ index → index < edit.pos →
      edited[index]? = blob[index]? := by
    intro index lower upper
    rw [edit.tree.edited_eq, getElem?_withWords edit.tree.bodyRoom, if_neg (by omega),
      if_neg (by omega), if_neg (by omega)]
    exact getElem?_rebuiltBody _ _ _ _ upper (by omega)
  have whole := transfer edited (edit.walked.header.offStruct + edit.tree.sizeStruct) agree
    (by omega) _ (.next (by omega) newToken walks')
  rcases edit.rebuilt with ⟨pos', value, rebuilt⟩
  rcases bootOrder_eq_ok rebuilt with ⟨walked', accepted', _⟩
  have facts' := walk_eq_ok accepted'
  have header := facts'.header.trans (edit.header afterHeader)
  have found := facts'.walks
  rw [facts'.strings, header] at found
  dsimp only at found
  rw [edit.strings_edited follows (by omega)] at found
  refine ⟨walked', accepted', ?_⟩
  rw [found.unique whole, splits]
  exact contents_replaced others sameItems

end Contract

/-! ## The payload around the edited tree -/

section Payload

variable {layout : Layout} {payload edited : Bytes}

theorem rebuildPayload_length (fits : layout.dtbOff + edited.length ≤ payload.length) :
    (rebuildPayload layout payload edited).length = payload.length := by
  simp only [rebuildPayload, List.length_append, List.length_take, List.length_replicate]
  omega

theorem rebuildPayload_take (inside : layout.dtbOff ≤ payload.length) :
    (rebuildPayload layout payload edited).take layout.dtbOff =
      payload.take layout.dtbOff := by
  rw [rebuildPayload, List.append_assoc]
  exact List.take_left' (by rw [List.length_take]; omega)

theorem rebuildPayload_drop (inside : layout.dtbOff ≤ payload.length) :
    (rebuildPayload layout payload edited).drop layout.dtbOff =
      edited ++ zeros (payload.length - layout.dtbOff - edited.length) := by
  rw [rebuildPayload, List.append_assoc]
  exact List.drop_left' (by rw [List.length_take]; omega)

/-- The executable part of the payload reads as before. -/
theorem slice_rebuildPayload_before (inside : layout.dtbOff ≤ payload.length) {start stop : Nat}
    (before : stop ≤ layout.dtbOff) :
    slice (rebuildPayload layout payload edited) start stop = slice payload start stop := by
  have taken : (rebuildPayload layout payload edited).take layout.dtbOff = _ :=
    rebuildPayload_take inside
  apply slice_congr
  intro index _ upper
  have same := congrArg (·[index]?) taken
  simpa only [List.getElem?_take, if_pos (show index < layout.dtbOff by omega)] using same

/-- The tree part of the payload reads as the edited tree. -/
theorem slice_rebuildPayload_tree (inside : layout.dtbOff ≤ payload.length) (start : Nat)
    {stop : Nat} (within : stop ≤ edited.length) :
    slice (rebuildPayload layout payload edited) (layout.dtbOff + start) (layout.dtbOff + stop) =
      slice edited start stop := by
  rw [slice, ← List.drop_drop, rebuildPayload_drop inside, Nat.add_sub_add_left]
  exact slice_append_left within

theorem fdt_rebuildPayload {blob : Bytes} (accepted : fdt layout payload = .ok blob)
    (fits : edited.length ≤ blob.length) (long : 40 ≤ edited.length)
    (magic : edited.take 4 = fdtMagic) (total : headerWord edited 1 = edited.length) :
    fdt layout (rebuildPayload layout payload edited) = .ok edited := by
  have facts := fdt_eq_ok_iff.mp accepted
  have tableBefore := layout.table_before_tree
  have callBefore := layout.call_before_tree
  have inside : layout.dtbOff ≤ payload.length := Nat.le_of_add_right_le facts.long
  have treeInside := facts.inside
  have blobLength : blob.length = treeTotal layout payload := by
    rw [facts.tree, slice_length facts.inside, Nat.add_sub_cancel_left]
  have length : (rebuildPayload layout payload edited).length = payload.length :=
    rebuildPayload_length (by omega)
  have newTotal : treeTotal layout (rebuildPayload layout payload edited) = edited.length := by
    rw [treeTotal, slice_rebuildPayload_tree inside 4 (by omega)]
    exact total
  have newTree : slice (rebuildPayload layout payload edited) layout.dtbOff
      (layout.dtbOff + edited.length) = edited := by
    have whole := slice_rebuildPayload_tree inside 0 (Nat.le_refl edited.length)
    rw [Nat.add_zero] at whole
    rw [whole, slice, List.drop_zero, Nat.sub_zero, List.take_length]
  refine fdt_eq_ok_iff.mpr {
    long := by omega
    offset := ?_, call := ?_, banner := ?_, magic := ?_
    inside := by omega
    rest := ?_, tree := by rw [newTotal, newTree] }
  · rw [slice_rebuildPayload_before inside (by omega)]
    exact facts.offset
  · rw [slice_rebuildPayload_before inside (by omega)]
    exact facts.call
  · rw [rebuildPayload_take inside]
    exact facts.banner
  · have head := slice_rebuildPayload_tree inside 0 (show 4 ≤ edited.length by omega)
    rw [Nat.add_zero] at head
    rw [head]
    exact magic
  · rw [newTotal, ← List.drop_drop, rebuildPayload_drop inside, List.drop_left, length]

end Payload

/-! ## Exactly when the contract holds -/

/-- For every accepted tree the result is the edited tree exactly when the blocks
of the input lie in order and the new value is not longer than the old one. -/
theorem replaceBootOrder_edits_iff (layout : Layout) {rightSlot blob edited : Bytes}
    (replaced : replaceBootOrder rightSlot blob = .ok edited) :
    EditedTree layout rightSlot blob edited ↔
      BlocksInOrder blob ∧ rightSlot.length < 92 := by
  rcases replaceBootOrder_eq_ok replaced with ⟨edit⟩
  have facts := walk_eq_ok edit.accepted
  have oldLength := sourceOrder_length edit.source.strings
  have aligned := edit.located.aligned
  have total := edit.tree.total_eq
  have blobTotal := facts.total
  have editedLength := edit.edited_length
  have newLength : (rightSlot ++ [0]).length = rightSlot.length + 1 := List.length_append
  have shorter : edited.length ≤ blob.length ↔ rightSlot.length < 92 := by
    rw [valueShift, valueEnd, valueEnd, alignDown, alignDown] at total
    omega
  constructor
  · intro contract
    rcases contract.shifted with ⟨shift, _, _, offStr, sizeStruct, offStruct, _⟩
    have consistent := contract.consistent
    refine ⟨⟨by omega, by omega⟩, shorter.mp contract.fits⟩
  · rintro ⟨inOrder, short⟩
    have fits := shorter.mpr short
    have afterHeader := inOrder.after_header
    have follows := inOrder.strings_follow
    have header := edit.header (by rw [facts.header]; exact afterHeader)
    have ends := edit.ends
    have offStr := edit.tree.offStr_eq
    have sizeStruct := edit.tree.sizeStruct_eq
    rcases edit.walk_edited inOrder with ⟨after, accepted', contents⟩
    have facts' := walk_eq_ok accepted'
    rw [← facts.header] at afterHeader follows
    have total' : (readHeader edited).total = edited.length := by
      rw [header]
      exact editedLength.symm
    exact {
      walked := ⟨edit.walked, after, edit.accepted, accepted', contents⟩
      shifted := by
        refine ⟨valueShift edit.pos edit.old (rightSlot ++ [0]), edit.shift_dvd, ?_⟩
        rw [header, ← facts.header]
        exact ⟨total, offStr, sizeStruct, rfl, rfl⟩
      consistent := by
        rw [header]
        refine ⟨afterHeader, ?_, ?_, editedLength.symm⟩
        · dsimp only
          omega
        · dsimp only
          omega
      fits := fits
      payload := by
        intro payload accepted
        have treeFacts := fdt_eq_ok_iff.mp accepted
        have inside := treeFacts.inside
        have blobLength : blob.length = treeTotal layout payload := by
          rw [treeFacts.tree, slice_length inside, Nat.add_sub_cancel_left]
        exact ⟨rebuildPayload_length (by omega),
          fdt_rebuildPayload accepted fits facts'.long facts'.magic total'⟩ }

/-! ### Two small trees -/

def propBytes (nameoff : Nat) (value : Bytes) : Bytes :=
  packBe32 3 ++ packBe32 value.length ++ packBe32 nameoff ++ value ++
    zeros ((4 - value.length % 4) % 4)

def nodeBytes (name : Bytes) : Bytes :=
  packBe32 1 ++ name ++ zeros (4 - name.length % 4)

/-- `/chosen` with a boot order, the `mmc1` alias and the right slot. -/
def sampleStruct (order : List Bytes) : Bytes :=
  nodeBytes [] ++
    (nodeBytes (text "chosen") ++ propBytes 0 (order.flatMap (· ++ [0])) ++ packBe32 2) ++
    (nodeBytes (text "aliases") ++ propBytes 22 (rightSlotName ++ [0]) ++ packBe32 2) ++
    (nodeBytes (text "dwmmc@fe2b0000") ++ propBytes 27 (text "okay" ++ [0]) ++
      propBytes 34 [] ++ packBe32 2) ++
    packBe32 2 ++ packBe32 9

def sampleStrings (mmc1Alias : Bytes) : Bytes :=
  [bootOrderName, mmc1Alias, text "status", text "u-boot,dm-spl"].flatMap (· ++ [0])

def sampleHeader (total offStruct offStr rsv sizeStruct : Nat) : Bytes :=
  fdtMagic ++ [total, offStruct, offStr, rsv, 17, 16, 0, 48, sizeStruct].flatMap packBe32

/-- Header, reservation map, struct block and strings block in this order. -/
def sampleTree (order : List Bytes) (sizeStruct : Nat) : Bytes :=
  sampleHeader (104 + sizeStruct) 56 (56 + sizeStruct) 40 sizeStruct ++ zeros 16 ++
    sampleStruct order ++ sampleStrings (text "mmc1")

def sampleBlob : Bytes :=
  sampleTree sourceOrder 236

/-- The strings block before the struct block, as many bytes behind it, and another
strings block 76 bytes before the real one. -/
def decoyBlob : Bytes :=
  sampleHeader 448 164 116 400 236 ++ sampleStrings (text "mmc0") ++ zeros 28 ++
    sampleStrings (text "mmc1") ++ sampleStruct sourceOrder ++ zeros 48

def recoveryBlob : Bytes :=
  sampleTree [rightSlotName] 160

theorem sampleBlob_replaced : replaceBootOrder rightSlotName sampleBlob = .ok recoveryBlob :=
  eq_ok_of_toOption (by decide +kernel)

/-- The edit of the tree with its blocks in order meets the contract. -/
theorem sampleBlob_edited : EditedTree my355 rightSlotName sampleBlob recoveryBlob := by
  have header : 40 ≤ (readHeader sampleBlob).offStruct ∧ (readHeader sampleBlob).offStr =
      (readHeader sampleBlob).offStruct + (readHeader sampleBlob).sizeStruct := by decide
  exact (replaceBootOrder_edits_iff my355 sampleBlob_replaced).mpr
    ⟨⟨header.1, header.2⟩, by decide +kernel⟩

/-- Whether the walk of the edited tree is the walk of the input but for the one
value. -/
def editsOnlyBootOrder (rightSlot blob : Bytes) : Except PyError Bool := do
  let before ← walk blob
  let edited ← replaceBootOrder rightSlot blob
  let after ← walk edited
  return decide (after.items.map FdtItem.content =
    (before.items.map FdtItem.content).map (withBootOrder (rightSlot ++ [0])))

/-- The edit of the other tree is accepted, and the alias `mmc1` reads `mmc0`
afterwards. -/
theorem decoyBlob_not_edited : ∃ edited, replaceBootOrder rightSlotName decoyBlob = .ok edited ∧
    ¬EditedTree my355 rightSlotName decoyBlob edited := by
  have differs : editsOnlyBootOrder rightSlotName decoyBlob = .ok false :=
    eq_ok_of_toOption (by decide +kernel)
  rcases bind_eq_ok.mp differs with ⟨before, accepted, differs⟩
  rcases bind_eq_ok.mp differs with ⟨edited, replaced, differs⟩
  rcases bind_eq_ok.mp differs with ⟨after, accepted', differs⟩
  refine ⟨edited, replaced, fun contract => ?_⟩
  rcases contract.walked with ⟨before', after', isBefore, isAfter, same⟩
  cases accepted.symm.trans isBefore
  cases accepted'.symm.trans isAfter
  exact of_decide_eq_false (Except.ok.inj differs) same

end Zlyme.Preloader
