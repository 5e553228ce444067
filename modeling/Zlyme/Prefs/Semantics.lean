import Zlyme.Prefs.Store

/-! # What the preference store holds

The file of a run of calls has one row for each key, and the value found for a
key is the last one set there and not cleared.
-/

namespace Zlyme.Prefs

open Foundation Foundation.Text Foundation.KeyedRows

/-! ## Keys and values -/

abbrev Key : Type :=
  Text × Text × Text

def keyOf (kind tag rel : Text) : Key :=
  (kind, tag.map toLower, rel)

def Pref.key (row : Pref) : Key :=
  keyOf row.kind row.tag row.rel

def Pref.value (row : Pref) : Value :=
  (row.governor, row.emu)

/-- The value found in a table, which is empty where no row is found. -/
def valueIn (rows : List Pref) (key : Key) : Value :=
  ((lookup Pref.key rows key).map Pref.value).getD ([], [])

theorem isFor_iff {row : Pref} {kind tag rel : Text} :
    row.isFor kind tag rel = true ↔ row.key = keyOf kind tag rel := by
  rw [Pref.isFor, sameCaseless, Pref.key, keyOf, keyOf]
  simp only [Bool.and_eq_true, beq_iff_eq, Prod.mk.injEq, and_assoc]

theorem find?_isFor (rows : List Pref) (kind tag rel : Text) :
    rows.find? (fun row => row.isFor kind tag rel) = lookup Pref.key rows (keyOf kind tag rel) := by
  rw [lookup]
  congr 1
  funext row
  exact Bool.eq_iff_iff.mpr (isFor_iff.trans decide_eq_true_iff.symm)

/-! ## Rows that come back -/

/-- A field without tab, carriage return, newline or trailing blank that fits
its array. -/
structure GoodField (size : Nat) (text : Text) : Prop where
  plain : ∀ byte ∈ text, byte ≠ 0x09 ∧ byte ≠ 0x0d ∧ byte ≠ 0x0a ∧ byte ≠ 0
  ends : ∀ byte ∈ text.getLast?, byte ≠ 0x20
  fits : text.length < size

structure GoodRow (maxPath : Nat) (row : Pref) : Prop where
  kind : GoodField kindSize row.kind
  notComment : row.kind.head? ≠ some 0x23
  tag : GoodField tagSize row.tag
  rel : GoodField maxPath row.rel
  governor : GoodField governorSize row.governor
  emu : GoodField emuSize row.emu

/-- A field that stays one field of its line. -/
structure PlainField (size : Nat) (text : Text) : Prop where
  whole : ∀ byte ∈ text, byte ≠ 0 ∧ byte ≠ 0x09 ∧ byte ≠ 0x0a
  fits : text.length < size

/-- A row that its line tells in full: a trailing blank of a value would be trimmed. -/
structure PlainRow (maxPath : Nat) (row : Pref) : Prop where
  kind : PlainField kindSize row.kind
  tag : PlainField tagSize row.tag
  rel : PlainField maxPath row.rel
  governor : PlainField governorSize row.governor
  emu : PlainField emuSize row.emu
  governorEnds : ∀ byte ∈ row.governor.getLast?, isTrimmed byte = false
  emuEnds : ∀ byte ∈ row.emu.getLast?, isTrimmed byte = false

section Fields

variable {size : Nat} {text : Text}

theorem PlainField.noTab (plain : PlainField size text) : (0x09 : UInt8) ∉ text :=
  fun member => (plain.whole _ member).2.1 rfl

theorem PlainField.snprintf_eq (plain : PlainField size text) : snprintf size text = text := by
  have fits := plain.fits
  exact List.take_of_length_le (by omega)

theorem trim_append (ends : ∀ byte ∈ text.getLast?, isTrimmed byte = false) (nonempty : text ≠ [])
    (front : Text) : trimField (front ++ text) = front ++ text := by
  apply List.rdropWhile_eq_self_iff.mpr
  intro _ trimmed
  rw [List.getLast_append_of_ne_nil _ nonempty] at trimmed
  rw [ends _ (List.getLast?_eq_some_getLast nonempty)] at trimmed
  cases trimmed

theorem GoodField.plainField (good : GoodField size text) : PlainField size text where
  whole byte member := by
    have plain := good.plain byte member
    tauto
  fits := good.fits

theorem GoodField.untrimmed (good : GoodField size text) :
    ∀ byte ∈ text.getLast?, isTrimmed byte = false := by
  intro byte isLast
  have plain := good.plain byte (List.mem_of_getLast? isLast)
  have blank := good.ends byte isLast
  simp only [isTrimmed, Bool.or_eq_false_iff, beq_eq_false_iff_ne]
  tauto

end Fields

theorem GoodRow.plain {maxPath : Nat} {row : Pref} (good : GoodRow maxPath row) :
    PlainRow maxPath row where
  kind := good.kind.plainField
  tag := good.tag.plainField
  rel := good.rel.plainField
  governor := good.governor.plainField
  emu := good.emu.plainField
  governorEnds := good.governor.untrimmed
  emuEnds := good.emu.untrimmed

/-- Whether a row sets anything: only such rows are read back. -/
def Pref.isSet (row : Pref) : Bool :=
  decide (row.governor ≠ [] ∨ row.emu ≠ [])

/-- Whether a line with these fields is read as a row. -/
def Pref.isRead (row : Pref) : Bool :=
  row.isSet && row.kind.head? != some 0x23

theorem trim_tabs (text rest : Text) (trimmed : rest.all isTrimmed = true) :
    trimField (text ++ rest) = trimField text := by
  induction rest using List.reverseRecOn with
  | nil => rw [List.append_nil]
  | append_singleton rest last induction =>
      rw [List.all_append, Bool.and_eq_true] at trimmed
      have isLast : isTrimmed last = true := by simpa using trimmed.2
      rw [← List.append_assoc, trimField, List.rdropWhile_concat_pos _ _ _ isLast]
      exact induction trimmed.1

theorem splitRow_fields {maxPath : Nat} {kind tag rel : Text} (kindTab : (0x09 : UInt8) ∉ kind)
    (tagTab : (0x09 : UInt8) ∉ tag) (relTab : (0x09 : UInt8) ∉ rel) (rest : Text) :
    splitRow maxPath (kind ++ 0x09 :: (tag ++ 0x09 :: (rel ++ 0x09 :: rest))) =
      some (makePref maxPath kind tag rel ((cut 0x09 rest).getD (rest, [])).1
        ((cut 0x09 rest).getD (rest, [])).2) := by
  simp only [splitRow, cut_append kindTab, cut_append tagTab, cut_append relTab,
    Option.bind_eq_bind, Option.bind_some, Option.pure_def]

/-- Three cuts need three separators. -/
theorem splitRow_short {maxPath : Nat} {line : Text} (few : line.count 0x09 ≤ 2) :
    splitRow maxPath line = none := by
  rw [splitRow]
  cases first : cut 0x09 line with
  | none => rfl
  | some parts =>
      rcases parts with ⟨kind, afterKind⟩
      cases second : cut 0x09 afterKind with
      | none => simp [second]
      | some parts =>
          rcases parts with ⟨tag, afterTag⟩
          cases third : cut 0x09 afterTag with
          | none => simp [second, third]
          | some parts =>
              rcases parts with ⟨rel, rest⟩
              exfalso
              rw [(cut_eq_some.mp first).1, (cut_eq_some.mp second).1, (cut_eq_some.mp third).1] at few
              simp only [List.count_append, List.count_cons_self] at few
              omega

section Rows

variable {maxPath : Nat} {row : Pref} (plain : PlainRow maxPath row)

include plain

theorem PlainRow.makePref_eq :
    makePref maxPath row.kind row.tag row.rel row.governor row.emu = row := by
  rw [makePref, plain.kind.snprintf_eq, plain.tag.snprintf_eq, plain.rel.snprintf_eq,
    plain.governor.snprintf_eq, plain.emu.snprintf_eq]

theorem PlainRow.mem_line {byte : UInt8} (member : byte ∈ row.line) : byte ≠ 0 ∧ byte ≠ 0x0a := by
  rcases mem_joined member with rfl | ⟨field, isField, inside⟩
  · decide
  · have whole : byte ≠ 0 ∧ byte ≠ 0x09 ∧ byte ≠ 0x0a := by
      simp only [List.mem_cons, List.not_mem_nil, or_false] at isField
      rcases isField with rfl | rfl | rfl | rfl | rfl
      · exact plain.kind.whole _ inside
      · exact plain.tag.whole _ inside
      · exact plain.rel.whole _ inside
      · exact plain.governor.whole _ inside
      · exact plain.emu.whole _ inside
    exact ⟨whole.1, whole.2.2⟩

theorem PlainRow.line_length : row.line.length ≤ maxPath + 87 := by
  have kind := plain.kind.fits
  have tag := plain.tag.fits
  have rel := plain.rel.fits
  have governor := plain.governor.fits
  have emu := plain.emu.fits
  rw [kindSize] at kind
  rw [tagSize] at tag
  rw [governorSize] at governor
  rw [emuSize] at emu
  simp only [Pref.line, joined_cons, joined_single, List.length_append, List.length_cons]
  omega

/-- The line of a row that sets anything is not trimmed within its fields. -/
theorem PlainRow.trim_line (isSet : row.isSet = true) :
    ∃ rest, trimField row.line = row.kind ++ 0x09 :: (row.tag ++ 0x09 :: (row.rel ++ 0x09 :: rest)) ∧
      (cut 0x09 rest).getD (rest, []) = (row.governor, row.emu) := by
  by_cases emu : row.emu = []
  · have governor : row.governor ≠ [] := by
      simpa [Pref.isSet, emu] using isSet
    have front : row.line =
        (row.kind ++ 0x09 :: (row.tag ++ 0x09 :: (row.rel ++ [0x09])) ++ row.governor) ++ [0x09] := by
      simp [Pref.line, emu]
    refine ⟨row.governor, ?_, by rw [cut_eq_none plain.governor.noTab, emu]; rfl⟩
    rw [front, trim_tabs _ _ (by rfl), trim_append plain.governorEnds governor]
    simp
  · have front : row.line = (row.kind ++ 0x09 :: (row.tag ++ 0x09 :: (row.rel ++ 0x09 ::
        (row.governor ++ [0x09])))) ++ row.emu := by
      simp [Pref.line]
    refine ⟨row.governor ++ 0x09 :: row.emu, ?_, by rw [cut_append plain.governor.noTab]; rfl⟩
    rw [front, trim_append plain.emuEnds emu]
    simp

/-- The line of a row that sets nothing loses its last two tabs. -/
theorem PlainRow.trim_silent (silent : row.isSet = false) : (trimField row.line).count 0x09 ≤ 2 := by
  have nothing : row.governor = [] ∧ row.emu = [] := by
    simpa [Pref.isSet] using silent
  have tabs : row.line = (row.kind ++ 0x09 :: (row.tag ++ 0x09 :: row.rel)) ++ [0x09, 0x09] := by
    simp [Pref.line, nothing]
  rw [tabs, trim_tabs _ _ (by rfl)]
  refine (List.rdropWhile_prefix _ _).sublist.count_le 0x09 |>.trans ?_
  simp [List.count_eq_zero.mpr plain.kind.noTab, List.count_eq_zero.mpr plain.tag.noTab,
    List.count_eq_zero.mpr plain.rel.noTab]

/-- A row comes back from its line if it sets anything and is no comment. -/
theorem PlainRow.parseRow_line :
    parseRow maxPath (row.line ++ [0x0a]) = if row.isRead then some row else none := by
  have noNul : (row.line ++ [0x0a]).takeWhile (· != 0) = row.line ++ [0x0a] := by
    rw [List.takeWhile_eq_self_iff]
    intro byte member
    rcases List.mem_append.mp member with inLine | isNewline
    · exact bne_iff_ne.mpr (plain.mem_line inLine).1
    · rw [List.mem_singleton.mp isNewline]
      rfl
  rw [parseRow, noNul, trim_tabs _ _ (by rfl), Pref.isRead]
  cases isSet : row.isSet with
  | false =>
      rw [splitRow_short (plain.trim_silent isSet)]
      simp
  | true =>
      rcases plain.trim_line isSet with ⟨rest, trimmed, values⟩
      have head : (row.kind ++ 0x09 :: (row.tag ++ 0x09 :: (row.rel ++ 0x09 :: rest))).head? =
          some 0x23 ↔ row.kind.head? = some 0x23 := by
        cases row.kind with
        | nil => simp
        | cons byte kind => simp
      rw [trimmed]
      simp only [head, List.append_eq_nil_iff, List.cons_ne_nil, and_false, false_or, Bool.true_and,
        bne_iff_ne, ne_eq, ite_not]
      rw [splitRow_fields plain.kind.noTab plain.tag.noTab plain.rel.noTab, values, plain.makePref_eq]

end Rows

/-- A file that was written is read back without the rows that set nothing and
without those that begin as comments. -/
theorem fileRows_formatRows_plain {maxPath : Nat} (roomy : 89 ≤ maxPath) {rows : List Pref}
    (plain : ∀ row ∈ rows, PlainRow maxPath row) :
    fileRows maxPath (formatRows rows) = rows.filter Pref.isRead := by
  have unbroken : ∀ line ∈ rows.map Pref.line, ∀ byte ∈ line, (byte == 0x0a) = false := by
    intro line isLine byte member
    rcases List.mem_map.mp isLine with ⟨row, isRow, rfl⟩
    exact beq_eq_false_iff_ne.mpr ((plain row isRow).mem_line member).2
  have fits : ∀ line ∈ rows.map Pref.line, line.length < maxPath * 2 - 1 := by
    intro line isLine
    rcases List.mem_map.mp isLine with ⟨row, isRow, rfl⟩
    have short := (plain row isRow).line_length
    omega
  rw [fileRows, formatRows, chunks_unlines unbroken rfl fits]
  clear unbroken fits
  induction rows with
  | nil => rfl
  | cons row rest induction =>
      have read := (plain row List.mem_cons_self).parseRow_line
      have tail := induction fun other member => plain other (List.mem_cons_of_mem _ member)
      rw [List.map_cons, List.map_cons, List.filter_cons]
      by_cases isRead : row.isRead = true
      · rw [if_pos isRead] at read ⊢
        rw [List.filterMap_cons_some read, tail]
      · rw [if_neg isRead] at read ⊢
        rw [List.filterMap_cons_none read, tail]

/-- A file that was written is read back without the rows that set nothing. -/
theorem fileRows_formatRows {maxPath : Nat} (roomy : 89 ≤ maxPath) {rows : List Pref}
    (good : ∀ row ∈ rows, GoodRow maxPath row) :
    fileRows maxPath (formatRows rows) = rows.filter Pref.isSet := by
  rw [fileRows_formatRows_plain roomy fun row member => (good row member).plain]
  apply List.filter_congr
  intro row member
  rw [Pref.isRead, bne_iff_ne.mpr (good row member).notComment, Bool.and_true]

/-! ## What a table holds -/

/-- The rows hold the values, and each row that sets something has a live key. -/
structure Table (maxPath : Nat) (rows : List Pref) (values : Key → Value) (live : List Key) :
    Prop where
  good : ∀ row ∈ rows, GoodRow maxPath row
  distinct : Distinct Pref.key rows
  values : ∀ key, valueIn rows key = values key
  live : ∀ row ∈ rows, row.isSet = true → row.key ∈ live
  few : rows.length ≤ prefsMax

theorem value_of_not_isSet {row : Pref} (silent : row.isSet = false) : row.value = ([], []) := by
  have nothing := of_decide_eq_false silent
  simp only [not_or, ne_eq, not_not] at nothing
  rw [Pref.value, nothing.1, nothing.2]

theorem valueIn_filter {rows : List Pref} (distinct : Distinct Pref.key rows) (key : Key) :
    valueIn (rows.filter Pref.isSet) key = valueIn rows key := by
  rw [valueIn, valueIn, lookup_filter distinct]
  cases found : lookup Pref.key rows key with
  | none => rfl
  | some row =>
      cases isSet : row.isSet with
      | true => simp [Option.filter, isSet]
      | false => simp [Option.filter, isSet, value_of_not_isSet isSet]

section Tables

variable {maxPath : Nat} {rows : List Pref} {values : Key → Value} {live : List Key}

theorem Table.kept (table : Table maxPath rows values live) :
    Table maxPath (rows.filter Pref.isSet) values live where
  good row member := table.good row (List.mem_of_mem_filter member)
  distinct := distinct_filter table.distinct _
  values key := (valueIn_filter table.distinct key).trans (table.values key)
  live row member := table.live row (List.mem_of_mem_filter member)
  few := (List.length_filter_le _ _).trans table.few

/-- There are no more rows than live keys, less one that no row has. -/
theorem Table.room (table : Table maxPath rows values live)
    (isSet : ∀ row ∈ rows, row.isSet = true) {key : Key} (absent : ∀ row ∈ rows, row.key ≠ key)
    (full : live.length ≤ prefsMax) (room : key ∈ live ∨ live.length < prefsMax) :
    rows.length < prefsMax := by
  have inside : ∀ rowKey ∈ rows.map Pref.key, rowKey ∈ live.erase key := by
    intro rowKey member
    rcases List.mem_map.mp member with ⟨row, isRow, rfl⟩
    exact (List.mem_erase_of_ne (absent row isRow)).mpr (table.live row isRow (isSet row isRow))
  have bound := (List.subperm_of_subset table.distinct inside).length_le
  rw [List.length_map] at bound
  rcases room with isLive | short
  · have erased := List.length_erase_of_mem isLive
    have positive := List.length_pos_of_mem isLive
    omega
  · have erased := (List.erase_sublist (a := key) (l := live)).length_le
    omega

end Tables

/-! ## The calls as they are meant -/

/-- A key stays live until it is cleared. -/
def addKey (live : List Key) (key : Key) : List Key :=
  if key ∈ live then live else key :: live

def Call.values (values : Key → Value) : Call → Key → Value
  | .set kind tag rel gov emu => Function.update values (keyOf kind tag rel) (gov, emu)
  | .clear kind tag rel => Function.update values (keyOf kind tag rel) ([], [])
  | .get _ _ _ => values

def Call.live (live : List Key) : Call → List Key
  | .set kind tag rel _ _ => addKey live (keyOf kind tag rel)
  | .clear kind tag rel => live.erase (keyOf kind tag rel)
  | .get _ _ _ => live

/-- Whether a call takes effect: the lock was taken and the file was replaced. -/
def Host.takes (host : Host) : Bool :=
  host.locks && host.write != .failed

def valuesAfter (values : Key → Value) (call : Host × Call) : Key → Value :=
  if call.1.takes then call.2.values values else values

def liveAfter (live : List Key) (call : Host × Call) : List Key :=
  if call.1.takes then call.2.live live else live

/-- The last value set for each key and not cleared. -/
def valuesOf (calls : List (Host × Call)) : Key → Value :=
  calls.foldl valuesAfter fun _ => ([], [])

/-- The keys set and not cleared. -/
def liveKeys (calls : List (Host × Call)) : List Key :=
  calls.foldl liveAfter []

/-! ## The table after one call -/

section Changes

variable {maxPath : Nat} {rows : List Pref} {values : Key → Value} {live : List Key}
  {kind tag rel gov emu : Text}

/-- The fields of a call on one key, as its callers pass them. -/
structure GoodKey (maxPath : Nat) (kind tag rel : Text) : Prop where
  kindGood : GoodField kindSize kind
  notComment : kind.head? ≠ some 0x23
  tagGood : GoodField tagSize tag
  relGood : GoodField maxPath rel

theorem mem_addKey (live : List Key) (key : Key) : key ∈ addKey live key := by
  rw [addKey]
  split
  · assumption
  · exact List.mem_cons_self

theorem subset_addKey {live : List Key} {key other : Key} (member : other ∈ live) :
    other ∈ addKey live key := by
  rw [addKey]
  split
  · exact member
  · exact List.mem_cons_of_mem _ member

theorem Table.set (table : Table maxPath rows values live) (govGood : GoodField governorSize gov)
    (emuGood : GoodField emuSize emu) {i : Nat} (inside : i < rows.length)
    (isKey : rows[i].key = keyOf kind tag rel) :
    Table maxPath
      (rows.modify i fun row =>
        { row with governor := snprintf governorSize gov, emu := snprintf emuSize emu })
      ((Call.set kind tag rel gov emu).values values) ((Call.set kind tag rel gov emu).live live) := by
  rw [govGood.plainField.snprintf_eq, emuGood.plainField.snprintf_eq]
  refine ⟨?_, distinct_modify inside (by rfl) table.distinct, ?_, ?_, ?_⟩
  · intro row member
    rcases mem_modify inside member with old | rfl
    · exact table.good row old
    · have good := table.good _ (List.getElem_mem inside)
      exact ⟨good.kind, good.notComment, good.tag, good.rel, govGood, emuGood⟩
  · intro key
    have same := table.values key
    rw [valueIn] at same ⊢
    rw [lookup_modify inside (by rfl) table.distinct, isKey, Call.values, Function.update_apply]
    split
    · rfl
    · exact same
  · intro row member isSet
    rcases mem_modify inside member with old | rfl
    · exact subset_addKey (table.live row old isSet)
    · rw [Call.live, ← isKey]
      exact mem_addKey _ _
  · rw [List.length_modify]
    exact table.few

theorem Table.add (table : Table maxPath rows values live) (keyGood : GoodKey maxPath kind tag rel)
    (govGood : GoodField governorSize gov) (emuGood : GoodField emuSize emu)
    (absent : ∀ row ∈ rows, row.key ≠ keyOf kind tag rel) (room : rows.length < prefsMax) :
    Table maxPath (rows ++ [makePref maxPath kind tag rel gov emu])
      ((Call.set kind tag rel gov emu).values values) ((Call.set kind tag rel gov emu).live live) := by
  have made : makePref maxPath kind tag rel gov emu = ⟨kind, tag, rel, gov, emu⟩ := by
    rw [makePref, keyGood.kindGood.plainField.snprintf_eq, keyGood.tagGood.plainField.snprintf_eq,
      keyGood.relGood.plainField.snprintf_eq,
      govGood.plainField.snprintf_eq, emuGood.plainField.snprintf_eq]
  rw [made]
  refine ⟨?_, distinct_append table.distinct absent, ?_, ?_, ?_⟩
  · intro row member
    rcases List.mem_append.mp member with old | new
    · exact table.good row old
    · rw [List.mem_singleton.mp new]
      exact ⟨keyGood.kindGood, keyGood.notComment, keyGood.tagGood, keyGood.relGood, govGood, emuGood⟩
  · intro key
    have same := table.values key
    rw [valueIn] at same ⊢
    rw [lookup_append absent, Call.values, Function.update_apply]
    have isKey : (⟨kind, tag, rel, gov, emu⟩ : Pref).key = keyOf kind tag rel := rfl
    rw [isKey]
    split
    · rfl
    · exact same
  · intro row member isSet
    rcases List.mem_append.mp member with old | new
    · exact subset_addKey (table.live row old isSet)
    · rw [List.mem_singleton.mp new]
      exact mem_addKey _ _
  · rw [List.length_append, List.length_singleton]
    exact room

theorem Table.clear (table : Table maxPath rows values live) {i : Nat} (inside : i < rows.length)
    (isKey : rows[i].key = keyOf kind tag rel) :
    Table maxPath (swapRemove rows i) ((Call.clear kind tag rel).values values)
      ((Call.clear kind tag rel).live live) := by
  refine ⟨?_, distinct_swapRemove table.distinct inside, ?_, ?_, ?_⟩
  · intro row member
    exact table.good row ((mem_swapRemove table.distinct inside).mp member).1
  · intro key
    have same := table.values key
    rw [valueIn] at same ⊢
    rw [lookup_swapRemove table.distinct inside, isKey, Call.values, Function.update_apply]
    split
    · rfl
    · exact same
  · intro row member isSet
    rcases (mem_swapRemove table.distinct inside).mp member with ⟨old, differs⟩
    rw [isKey] at differs
    exact (List.mem_erase_of_ne differs).mpr (table.live row old isSet)
  · have length := (swapRemove_perm inside).length_eq
    have erased := (List.eraseIdx_sublist rows i).length_le
    have few := table.few
    omega

/-- Clearing a key that no row has. -/
theorem Table.clear_absent (table : Table maxPath rows values live)
    (absent : ∀ row ∈ rows, row.isSet = true → row.key ≠ keyOf kind tag rel) :
    Table maxPath rows ((Call.clear kind tag rel).values values)
      ((Call.clear kind tag rel).live live) where
  good := table.good
  distinct := table.distinct
  values key := by
    rw [Call.values, Function.update_apply]
    split
    · rename_i isKey
      rw [valueIn]
      cases found : lookup Pref.key rows key with
      | none => rfl
      | some row =>
          rcases mem_of_lookup found with ⟨member, rowKey⟩
          cases isSet : row.isSet with
          | true => exact absurd (rowKey.trans isKey) (absent row member isSet)
          | false => exact value_of_not_isSet isSet
    · exact table.values key
  live row member isSet :=
    (List.mem_erase_of_ne (absent row member isSet)).mpr (table.live row member isSet)
  few := table.few

end Changes

/-! ## One call -/

def World.text (w : World) : Text :=
  (w.file.map Prod.fst).getD []

/-- What is true between two calls. -/
structure Holds (maxPath : Nat) (w : World) (values : Key → Value) (live : List Key) : Prop where
  unlocked : w.memory.locked = false
  table : ∃ rows, w.text = formatRows rows ∧ Table maxPath rows values live
  cached : w.memory.loaded = true → w.memory.seen = w.file.map Prod.snd →
    ∀ key, valueIn w.memory.rows key = values key

theorem prefsReload_eq (maxPath : Nat) (w : World) :
    prefsReload maxPath w =
      { w with memory := { w.memory with
          rows := (fileRows maxPath w.text).take prefsMax
          loaded := true
          overflow := decide (prefsMax < (fileRows maxPath w.text).length)
          seen := w.file.map Prod.snd } } := by
  rcases w with ⟨file, memory⟩
  cases file with
  | none => rfl
  | some version => rfl

section Calls

variable {maxPath : Nat} {w : World} {values : Key → Value} {live : List Key}

/-- A file in good order is read as a table without rows that set nothing. -/
theorem prefsReload_table {rows : List Pref} (roomy : 89 ≤ maxPath) (isFile : w.text = formatRows rows)
    (table : Table maxPath rows values live) :
    prefsReload maxPath w =
      { w with memory := { w.memory with
          rows := rows.filter Pref.isSet
          loaded := true
          overflow := false
          seen := w.file.map Prod.snd } } := by
  have few := table.kept.few
  rw [prefsReload_eq, isFile, fileRows_formatRows roomy table.good, List.take_of_length_le few,
    decide_eq_false (Nat.not_lt.mpr few)]

theorem prefsEnsure_holds (roomy : 89 ≤ maxPath) (holds : Holds maxPath w values live) :
    Holds maxPath (prefsEnsure maxPath w) values live ∧
      (prefsEnsure maxPath w).file = w.file ∧
      ∀ key, valueIn (prefsEnsure maxPath w).memory.rows key = values key := by
  rcases holds.table with ⟨rows, isFile, table⟩
  have reloaded : Holds maxPath (prefsReload maxPath w) values live ∧
      (prefsReload maxPath w).file = w.file ∧
      ∀ key, valueIn (prefsReload maxPath w).memory.rows key = values key := by
    rw [prefsReload_table roomy isFile table]
    exact ⟨⟨holds.unlocked, ⟨rows, isFile, table⟩, fun _ _ => table.kept.values⟩, rfl,
      table.kept.values⟩
  rw [prefsEnsure]
  split
  · rename_i text stamp isVersion
    split
    · rename_i fresh
      rw [Bool.and_eq_true, beq_iff_eq] at fresh
      refine ⟨holds, rfl, holds.cached fresh.1 ?_⟩
      rw [fresh.2, isVersion]
      rfl
    · exact reloaded
  · rename_i absent
    split
    · rename_i fresh
      rw [Bool.and_eq_true, beq_iff_eq] at fresh
      refine ⟨holds, rfl, holds.cached fresh.1 ?_⟩
      rw [fresh.2, absent]
      rfl
    · exact reloaded

/-- The end of a call that changed the table: either the write failed and the old
file stands, or the new table is the file. -/
theorem saveRows_holds {host : Host} {rows changed : List Pref} {newValues : Key → Value}
    {newLive : List Key} (locked : w.memory.locked = true) (whole : w.memory.overflow = false)
    (isFile : w.text = formatRows rows) (table : Table maxPath rows values live)
    (newTable : Table maxPath changed newValues newLive) :
    Holds maxPath (saveRows maxPath host w changed)
      (if host.write = .failed then values else newValues)
      (if host.write = .failed then live else newLive) := by
  rw [saveRows, prefsSave]
  simp only [locked, if_true, writeRows, prefsWrite, whole, Bool.false_eq_true, if_false]
  cases written : host.write with
  | failed =>
      rw [if_pos rfl, if_pos rfl]
      exact ⟨rfl, ⟨rows, isFile, table⟩, nofun⟩
  | unsynced stamp =>
      rw [if_neg nofun, if_neg nofun]
      exact ⟨rfl, ⟨changed, rfl, newTable⟩, nofun⟩
  | written stamp =>
      rw [if_neg nofun, if_neg nofun]
      exact ⟨rfl, ⟨changed, rfl, newTable⟩, fun _ _ => newTable.values⟩

theorem valuesAfter_of_locks {host : Host} (locks : host.locks = true) (call : Call) :
    valuesAfter values (host, call) = if host.write = .failed then values else call.values values := by
  rw [valuesAfter, Host.takes, locks, Bool.true_and]
  by_cases failed : host.write = .failed <;> simp [failed]

theorem liveAfter_of_locks {host : Host} (locks : host.locks = true) (call : Call) :
    liveAfter live (host, call) = if host.write = .failed then live else call.live live := by
  rw [liveAfter, Host.takes, locks, Bool.true_and]
  by_cases failed : host.write = .failed <;> simp [failed]

theorem valuesAfter_of_not_locks {host : Host} (locks : host.locks = false) (call : Call) :
    valuesAfter values (host, call) = values := by
  rw [valuesAfter, Host.takes, locks, Bool.false_and, if_neg Bool.false_ne_true]

theorem liveAfter_of_not_locks {host : Host} (locks : host.locks = false) (call : Call) :
    liveAfter live (host, call) = live := by
  rw [liveAfter, Host.takes, locks, Bool.false_and, if_neg Bool.false_ne_true]

/-- The search of `prefsSet` and `prefsClear`. -/
theorem findIdx?_isFor {rows : List Pref} {kind tag rel : Text} {i : Nat}
    (found : rows.findIdx? (fun row => row.isFor kind tag rel) = some i) :
    ∃ inside : i < rows.length, rows[i].key = keyOf kind tag rel := by
  rcases List.findIdx?_eq_some_iff_getElem.mp found with ⟨inside, isRow, _⟩
  exact ⟨inside, isFor_iff.mp isRow⟩

theorem findIdx?_isFor_none {rows : List Pref} {kind tag rel : Text}
    (found : rows.findIdx? (fun row => row.isFor kind tag rel) = none) :
    ∀ row ∈ rows, row.key ≠ keyOf kind tag rel := by
  intro row member isKey
  have absent := List.findIdx?_eq_none_iff.mp found row member
  rw [isFor_iff.mpr isKey] at absent
  cases absent

theorem prefsSet_holds (roomy : 89 ≤ maxPath) (holds : Holds maxPath w values live) (host : Host)
    {kind tag rel gov emu : Text} (keyGood : GoodKey maxPath kind tag rel)
    (govGood : GoodField governorSize gov) (emuGood : GoodField emuSize emu)
    (full : live.length ≤ prefsMax) (room : keyOf kind tag rel ∈ live ∨ live.length < prefsMax) :
    Holds maxPath (prefsSet maxPath host kind tag rel gov emu w)
      (valuesAfter values (host, .set kind tag rel gov emu))
      (liveAfter live (host, .set kind tag rel gov emu)) := by
  rcases holds.table with ⟨rows, isFile, table⟩
  rw [prefsSet, prefsLock, holds.unlocked, if_neg Bool.false_ne_true]
  cases locks : host.locks with
  | false =>
      rw [valuesAfter_of_not_locks locks, liveAfter_of_not_locks locks, if_neg Bool.false_ne_true]
      exact holds
  | true =>
      rw [valuesAfter_of_locks locks, liveAfter_of_locks locks, if_pos rfl]
      dsimp only
      rw [prefsReload_table roomy (w := { w with memory := { w.memory with locked := true } })
        isFile table]
      dsimp only
      split
      · rename_i i found
        rcases findIdx?_isFor found with ⟨inside, isKey⟩
        exact saveRows_holds rfl rfl isFile table (table.kept.set govGood emuGood inside isKey)
      · rename_i found
        have absent := findIdx?_isFor_none found
        have space := table.kept.room (fun row member => (List.mem_filter.mp member).2) absent full room
        rw [if_neg (Nat.not_le.mpr space)]
        exact saveRows_holds rfl rfl isFile table
          (table.kept.add keyGood govGood emuGood absent space)

theorem prefsClear_holds (roomy : 89 ≤ maxPath) (holds : Holds maxPath w values live) (host : Host)
    (kind tag rel : Text) :
    Holds maxPath (prefsClear maxPath host kind tag rel w)
      (valuesAfter values (host, .clear kind tag rel))
      (liveAfter live (host, .clear kind tag rel)) := by
  rcases holds.table with ⟨rows, isFile, table⟩
  rw [prefsClear, prefsLock, holds.unlocked, if_neg Bool.false_ne_true]
  cases locks : host.locks with
  | false =>
      rw [valuesAfter_of_not_locks locks, liveAfter_of_not_locks locks, if_neg Bool.false_ne_true]
      exact holds
  | true =>
      rw [valuesAfter_of_locks locks, liveAfter_of_locks locks, if_pos rfl]
      dsimp only
      rw [prefsReload_table roomy (w := { w with memory := { w.memory with locked := true } })
        isFile table]
      dsimp only
      split
      · rename_i i found
        rcases findIdx?_isFor found with ⟨inside, isKey⟩
        exact saveRows_holds rfl rfl isFile table (table.kept.clear inside isKey)
      · rename_i found
        have absent : ∀ row ∈ rows, row.isSet = true → row.key ≠ keyOf kind tag rel :=
          fun row member isSet =>
            findIdx?_isFor_none found row (List.mem_filter.mpr ⟨member, isSet⟩)
        have cleared := table.clear_absent absent
        have keptCleared := cleared.kept
        split
        · exact ⟨rfl, ⟨rows, isFile, table⟩, fun _ _ => table.kept.values⟩
        · exact ⟨rfl, ⟨rows, isFile, cleared⟩, fun _ _ => keptCleared.values⟩

theorem prefsGetExact_eq (roomy : 89 ≤ maxPath) (holds : Holds maxPath w values live)
    (kind tag rel : Text) (gn en : Nat) :
    Holds maxPath (prefsGetExact maxPath kind tag rel gn en w).1 values live ∧
      (prefsGetExact maxPath kind tag rel gn en w).2 =
        (snprintf gn (values (keyOf kind tag rel)).1, snprintf en (values (keyOf kind tag rel)).2) := by
  rcases prefsEnsure_holds roomy holds with ⟨ensured, _, found⟩
  have value := found (keyOf kind tag rel)
  rw [valueIn, ← find?_isFor] at value
  rw [prefsGetExact]
  split
  · rename_i row isRow
    rw [isRow] at value
    rw [← value]
    exact ⟨ensured, rfl⟩
  · rename_i absent
    rw [absent] at value
    rw [← value]
    exact ⟨ensured, by simp [snprintf]⟩

end Calls

/-! ## Runs -/

/-- The fields of a set have no tab, carriage return, newline or trailing blank,
fit their arrays, and the kind does not begin a comment. -/
def Call.Good (maxPath : Nat) : Call → Prop
  | .set kind tag rel gov emu =>
      GoodKey maxPath kind tag rel ∧ GoodField governorSize gov ∧ GoodField emuSize emu
  | .clear _ _ _ => True
  | .get _ _ _ => True

/-- A key that is not live yet finds fewer than the maximum rows. -/
def Call.HasRoom (live : List Key) : Call → Prop
  | .set kind tag rel _ _ => keyOf kind tag rel ∈ live ∨ live.length < prefsMax
  | .clear _ _ _ => True
  | .get _ _ _ => True

def Call.key : Call → Key
  | .set kind tag rel _ _ => keyOf kind tag rel
  | .clear kind tag rel => keyOf kind tag rel
  | .get kind tag rel => keyOf kind tag rel

def Admissible (maxPath : Nat) (calls : List (Host × Call)) : Prop :=
  ∀ front call back, calls = front ++ call :: back →
    call.2.Good maxPath ∧ call.2.HasRoom (liveKeys front)

theorem Admissible.front {maxPath : Nat} {calls : List (Host × Call)} {call : Host × Call}
    (admissible : Admissible maxPath (calls ++ [call])) : Admissible maxPath calls := by
  intro front other back isCalls
  refine admissible front other (back ++ [call]) ?_
  rw [isCalls, List.append_assoc, List.cons_append]

theorem valuesOf_append (calls : List (Host × Call)) (call : Host × Call) :
    valuesOf (calls ++ [call]) = valuesAfter (valuesOf calls) call :=
  List.foldl_concat ..

theorem liveKeys_append (calls : List (Host × Call)) (call : Host × Call) :
    liveKeys (calls ++ [call]) = liveAfter (liveKeys calls) call :=
  List.foldl_concat ..

theorem run_append (maxPath : Nat) (calls : List (Host × Call)) (call : Host × Call) :
    run maxPath (calls ++ [call]) = call.2.perform maxPath call.1 (run maxPath calls) :=
  List.foldl_concat ..

theorem liveAfter_length {live : List Key} (call : Host × Call) (full : live.length ≤ prefsMax)
    (room : call.2.HasRoom live) : (liveAfter live call).length ≤ prefsMax := by
  rcases call with ⟨host, call⟩
  rw [liveAfter]
  split
  · cases call with
    | set kind tag rel gov emu =>
        rw [Call.live, addKey]
        split
        · exact full
        · rename_i absent
          exact Nat.succ_le_of_lt (room.resolve_left absent)
    | clear kind tag rel => exact (List.erase_sublist).length_le.trans full
    | get kind tag rel => exact full
  · exact full

theorem perform_holds {maxPath : Nat} (roomy : 89 ≤ maxPath) {w : World} {values : Key → Value}
    {live : List Key} (holds : Holds maxPath w values live) (call : Host × Call)
    (good : call.2.Good maxPath) (full : live.length ≤ prefsMax) (room : call.2.HasRoom live) :
    Holds maxPath (call.2.perform maxPath call.1 w) (valuesAfter values call)
      (liveAfter live call) := by
  rcases call with ⟨host, call⟩
  cases call with
  | set kind tag rel gov emu =>
      exact prefsSet_holds roomy holds host good.1 good.2.1 good.2.2 full room
  | clear kind tag rel => exact prefsClear_holds roomy holds host kind tag rel
  | get kind tag rel =>
      have unchanged := (prefsGetExact_eq roomy holds kind tag rel governorSize emuSize).1
      rw [valuesAfter, liveAfter, Call.values, Call.live, ite_self, ite_self]
      exact unchanged

theorem run_holds {maxPath : Nat} (roomy : 89 ≤ maxPath) {calls : List (Host × Call)}
    (admissible : Admissible maxPath calls) :
    Holds maxPath (run maxPath calls) (valuesOf calls) (liveKeys calls) ∧
      (liveKeys calls).length ≤ prefsMax := by
  induction calls using List.reverseRecOn with
  | nil =>
      refine ⟨⟨rfl, ⟨[], rfl, ?_⟩, nofun⟩, Nat.zero_le _⟩
      exact ⟨nofun, List.nodup_nil, fun _ => rfl, nofun, Nat.zero_le _⟩
  | append_singleton calls call induction =>
      rcases induction admissible.front with ⟨holds, full⟩
      rcases admissible calls call [] rfl with ⟨good, room⟩
      rw [run_append, valuesOf_append, liveKeys_append]
      exact ⟨perform_holds roomy holds call good full room, liveAfter_length call full room⟩

/-! ## Files with too many rows -/

theorem prefsReload_file (maxPath : Nat) (w : World) : (prefsReload maxPath w).file = w.file := by
  rw [prefsReload_eq]

theorem prefsEnsure_file (maxPath : Nat) (w : World) : (prefsEnsure maxPath w).file = w.file := by
  rw [prefsEnsure]
  split
  · split
    · rfl
    · exact prefsReload_file maxPath w
  · split
    · rfl
    · exact prefsReload_file maxPath w

theorem saveRows_overflow {maxPath : Nat} {host : Host} {w : World} {rows : List Pref}
    (locked : w.memory.locked = true) (overflow : w.memory.overflow = true) :
    (saveRows maxPath host w rows).file = w.file := by
  simp [saveRows, prefsSave, locked, writeRows, prefsWrite, overflow, prefsUnlock]

theorem prefsLock_eq {host : Host} {w locked : World} (isLocked : prefsLock host w = some locked) :
    locked.memory.locked = true ∧ locked.file = w.file := by
  rw [prefsLock] at isLocked
  split at isLocked
  · rename_i held
    cases isLocked
    exact ⟨held, rfl⟩
  · split at isLocked
    · cases isLocked
      exact ⟨rfl, rfl⟩
    · cases isLocked

theorem perform_overflow {maxPath : Nat} {w : World}
    (many : prefsMax < (fileRows maxPath w.text).length) (call : Host × Call) :
    (call.2.perform maxPath call.1 w).file = w.file := by
  rcases call with ⟨host, call⟩
  have reloaded : ∀ locked, prefsLock host w = some locked →
      (prefsReload maxPath locked).memory.locked = true ∧
        (prefsReload maxPath locked).memory.overflow = true ∧
        (prefsReload maxPath locked).file = w.file := by
    intro locked isLocked
    rcases prefsLock_eq isLocked with ⟨held, sameFile⟩
    have sameText : locked.text = w.text := by rw [World.text, sameFile, World.text]
    rw [prefsReload_eq, sameText]
    exact ⟨held, decide_eq_true many, sameFile⟩
  cases call with
  | set kind tag rel gov emu =>
      rw [Call.perform, prefsSet]
      split
      · rfl
      · rename_i locked isLocked
        rcases reloaded locked isLocked with ⟨held, overflow, sameFile⟩
        dsimp only
        split
        · exact (saveRows_overflow held overflow).trans sameFile
        · split
          · exact sameFile
          · exact (saveRows_overflow held overflow).trans sameFile
  | clear kind tag rel =>
      rw [Call.perform, prefsClear]
      split
      · rfl
      · rename_i locked isLocked
        rcases reloaded locked isLocked with ⟨held, overflow, sameFile⟩
        dsimp only
        split
        · exact (saveRows_overflow held overflow).trans sameFile
        · exact sameFile
  | get kind tag rel =>
      rw [Call.perform, prefsGetExact]
      split
      · exact prefsEnsure_file maxPath w
      · exact prefsEnsure_file maxPath w

/-- A file with more rows than the table is left as it is by every run. -/
theorem runFrom_overflow {maxPath : Nat} {w : World}
    (many : prefsMax < (fileRows maxPath w.text).length) (calls : List (Host × Call)) :
    (runFrom maxPath w calls).file = w.file := by
  induction calls generalizing w with
  | nil => rfl
  | cons call rest induction =>
      have same := perform_overflow many call
      have sameText : (call.2.perform maxPath call.1 w).text = w.text := by
        rw [World.text, same, World.text]
      exact (induction (sameText.symm ▸ many)).trans same

/-! ## The store -/

theorem valuesAfter_other {values : Key → Value} {call : Host × Call} {key : Key}
    (other : key ≠ call.2.key) : valuesAfter values call key = values key := by
  rcases call with ⟨host, call⟩
  rw [valuesAfter]
  split
  · cases call with
    | set kind tag rel gov emu => exact Function.update_of_ne other _ _
    | clear kind tag rel => exact Function.update_of_ne other _ _
    | get kind tag rel => rfl
  · rfl

/-- In every run from an absent file, the value found for a key is the last one
set there and not cleared, a call on one key leaves the others as they are, and
the file has one row for each key. A file with too many rows is never replaced. -/
theorem prefs_store {maxPath : Nat} (roomy : 89 ≤ maxPath) :
    (∀ calls, Admissible maxPath calls →
      (∀ kind tag rel gn en,
        (prefsGetExact maxPath kind tag rel gn en (run maxPath calls)).2 =
          (snprintf gn (valuesOf calls (keyOf kind tag rel)).1,
            snprintf en (valuesOf calls (keyOf kind tag rel)).2)) ∧
      (∀ call, Admissible maxPath (calls ++ [call]) →
        ∀ kind tag rel gn en, keyOf kind tag rel ≠ call.2.key →
          (prefsGetExact maxPath kind tag rel gn en (run maxPath (calls ++ [call]))).2 =
            (prefsGetExact maxPath kind tag rel gn en (run maxPath calls)).2) ∧
      ∀ text stamp, (run maxPath calls).file = some (text, stamp) →
        ∃ rows : List Pref, text = formatRows rows ∧ (rows.map Pref.key).Nodup ∧
          fileRows maxPath text = rows.filter Pref.isSet) ∧
    ∀ w text stamp, w.file = some (text, stamp) →
      prefsMax < (fileRows maxPath text).length →
      ∀ calls, (runFrom maxPath w calls).file = some (text, stamp) := by
  constructor
  · intro calls admissible
    have holds := (run_holds roomy admissible).1
    refine ⟨?_, ?_, ?_⟩
    · intro kind tag rel gn en
      exact (prefsGetExact_eq roomy holds kind tag rel gn en).2
    · intro call admissibleCall kind tag rel gn en other
      have holdsAfter := (run_holds roomy admissibleCall).1
      rw [(prefsGetExact_eq roomy holdsAfter kind tag rel gn en).2,
        (prefsGetExact_eq roomy holds kind tag rel gn en).2, valuesOf_append,
        valuesAfter_other other]
    · intro text stamp isFile
      rcases holds.table with ⟨rows, isText, table⟩
      rw [World.text, isFile] at isText
      have same : text = formatRows rows := isText
      exact ⟨rows, same, table.distinct, same ▸ fileRows_formatRows roomy table.good⟩
  · intro w text stamp isFile many calls
    have isText : w.text = text := by rw [World.text, isFile]; rfl
    rw [runFrom_overflow (isText.symm ▸ many) calls, isFile]

theorem goodField_of {size : Nat} {text : Text}
    (plain : text.all (fun byte => byte != 0x09 && byte != 0x0d && byte != 0x0a && byte != 0) = true)
    (ends : text.getLast? ≠ some 0x20) (fits : text.length < size) : GoodField size text where
  plain byte member := by
    have checked := List.all_eq_true.mp plain byte member
    simp only [Bool.and_eq_true, bne_iff_ne] at checked
    tauto
  ends byte isLast blank := ends (blank ▸ isLast)
  fits := fits

def sampleHost : Host where
  locks := true
  write := .written ⟨1, 2, 3, 4, 5⟩

def sampleSet : Host × Call :=
  (sampleHost, .set (ascii "rom") (ascii "GB") (ascii "a.gb") (ascii "play") (ascii "gambatte"))

theorem sampleSet_found :
    (prefsGetExact 512 (ascii "rom") (ascii "gb") (ascii "a.gb") governorSize emuSize
      (run 512 [sampleSet])).2 = (ascii "play", ascii "gambatte") := by
  have admissible : Admissible 512 [sampleSet] := by
    intro front call back isCalls
    cases front with
    | nil =>
        cases isCalls
        refine ⟨⟨⟨?_, by decide, ?_, ?_⟩, ?_, ?_⟩, .inr (by decide)⟩
        all_goals exact goodField_of (by decide) (by decide) (by decide)
    | cons first rest => simp at isCalls
  rw [((prefs_store (by decide)).1 _ admissible).1]
  decide

/-- A row whose kind begins with `#` is read back as a comment: the next set of
another key drops it. -/
theorem comment_kind_lost :
    let calls := [(sampleHost, .set (ascii "#rom") (ascii "GB") (ascii "a.gb") (ascii "play") []),
      sampleSet]
    valuesOf calls (keyOf (ascii "#rom") (ascii "GB") (ascii "a.gb")) = (ascii "play", []) ∧
      (prefsGetExact 512 (ascii "#rom") (ascii "GB") (ascii "a.gb") governorSize emuSize
        (run 512 calls)).2 = ([], []) := by
  decide +kernel

end Zlyme.Prefs
