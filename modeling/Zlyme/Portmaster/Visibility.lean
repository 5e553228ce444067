import Mathlib.Data.List.Nodup
import Zlyme.Foundation.MountTree
import Zlyme.Portmaster.MountInfo

/-! # Mount visibility

When the table describes a tree of mounts, an id that is called visible at a path is
where the walk along the path ends.
-/

namespace Zlyme.Portmaster

open Foundation.Text Foundation.KeyedRows Foundation.MountTree

/-! ## Paths -/

/-- A path of names as the kernel prints it, before the escapes. -/
def render (path : List Text) : Text :=
  slash :: joined slash path

def IsName (name : Text) : Prop :=
  name ≠ [] ∧ slash ∉ name

theorem words_render {path : List Text} (names : ∀ name ∈ path, IsName name) :
    words (· == slash) (render path) = path := by
  have separated : words (· == slash) (render path) = words (· == slash) (joined slash path) := by
    simp [words, render, lines]
  rw [separated]
  refine words_joined (fun name member => (names name member).1) (fun name member byte inside => ?_)
    (by simp)
  exact beq_eq_false_iff_ne.mpr fun same => (names name member).2 (same ▸ inside)

theorem render_injective {first second : List Text} (firstNames : ∀ name ∈ first, IsName name)
    (secondNames : ∀ name ∈ second, IsName name) (same : render first = render second) :
    first = second := by
  rw [← words_render firstNames, same, words_render secondNames]

theorem joined_append {front : List Text} (nonempty : front ≠ []) (name : Text)
    (rest : List Text) :
    joined slash (front ++ name :: rest) = joined slash front ++ slash :: joined slash (name :: rest) := by
  induction front with
  | nil => exact absurd rfl nonempty
  | cons head tail induction =>
      cases tail with
      | nil => simp
      | cons next tail =>
          have later := induction (List.cons_ne_nil next tail)
          rw [List.cons_append] at later
          rw [List.cons_append, List.cons_append, joined_cons, later, joined_cons]
          simp

/-- A shorter path is a prefix in the sense of the program. -/
theorem isPrefix_render {path longer : List Text} (names : ∀ name ∈ longer, IsName name)
    (inside : path <+: longer) (differs : path ≠ longer) :
    isPrefix (render path) (render longer) = true := by
  rcases inside with ⟨rest, rfl⟩
  rcases rest with _ | ⟨name, rest⟩
  · exact absurd (List.append_nil path).symm differs
  have pathNames : ∀ name ∈ path, IsName name := fun name member =>
    names name (List.mem_append_left _ member)
  have distinct : render path ≠ render (path ++ name :: rest) := fun same =>
    differs (render_injective pathNames names same)
  unfold isPrefix
  rw [if_neg distinct]
  split
  · rfl
  · rename_i notRoot
    have nonempty : path ≠ [] := by
      rintro rfl
      exact notRoot rfl
    rw [List.isPrefixOf_iff_prefix, render, render, joined_append nonempty]
    exact ⟨joined slash (name :: rest), by simp⟩

/-! ## Tables -/

namespace Table

theorem readLine_distinct {table : Table} (distinct : Distinct Row.id table.rows) (line : Text) :
    Distinct Row.id (table.readLine line).rows := by
  unfold readLine
  split
  · exact distinct
  · split
    · rename_i id parent _ _ point _ _ read
      simp only [Bool.and_eq_true, parentOf, Option.isNone_map, Option.isNone_iff_eq_none] at read
      have fresh : ∀ row ∈ table.rows, row.id ≠ id := lookup_eq_none_iff.mp read.2
      exact distinct_append distinct fresh
    · exact distinct
  · exact distinct

/-- What every line keeps holds of the table. -/
theorem read_invariant (holds : Table → Prop) (start : holds ⟨[], false⟩)
    (kept : ∀ table line, holds table → holds (table.readLine line)) (file : Text) :
    holds (read file) := by
  have folded : ∀ (texts : List Text) (table : Table), holds table →
      holds (texts.foldl readLine table) := by
    intro texts
    induction texts with
    | nil => exact fun _ => id
    | cons line rest induction => exact fun table before => induction _ (kept table line before)
  exact folded _ _ start

/-- An id is in one row only. -/
theorem read_distinct (file : Text) : Distinct Row.id (read file).rows :=
  read_invariant (fun table => Distinct Row.id table.rows) List.nodup_nil
    (fun _ line distinct => readLine_distinct distinct line) file

/-- Every id is a number. -/
theorem read_numbers (file : Text) : ∀ row ∈ (read file).rows, isNumber row.id = true := by
  apply read_invariant fun table => ∀ row ∈ table.rows, isNumber row.id = true
  · exact fun _ member => absurd member List.not_mem_nil
  intro table line numbers
  unfold readLine
  split
  · exact numbers
  · split
    · rename_i id parent _ _ point _ _ read
      simp only [Bool.and_eq_true] at read
      intro row member
      rcases List.mem_append.mp member with old | new
      · exact numbers row old
      · rw [List.mem_singleton.mp new]
        exact read.1.1
    · exact numbers
  · exact numbers

/-! ## The two modes -/

/-- The condition that both modes check at the shorter paths. -/
def TopsHold (table : Table) (held want : Text) (order : List Text) : Prop :=
  ∀ path ∈ order, isPrefix path want = true →
    (table.topCount path).1 = 1 ∧ table.ancestor held (table.topCount path).2 = .yes

theorem roleBelow_eq_visible {table : Table} {held want : Text} {order : List Text} :
    table.roleBelow held want order = .visible ↔ table.TopsHold held want order := by
  induction order with
  | nil => exact ⟨fun _ => nofun, fun _ => rfl⟩
  | cons path rest induction =>
      rw [TopsHold, List.forall_mem_cons, roleBelow]
      cases isPrefix path want with
      | false => simpa [TopsHold] using induction
      | true =>
          by_cases one : (table.topCount path).1 = 1
          · cases table.ancestor held (table.topCount path).2 <;> simp [one]
            exact induction
          · simp [one]

theorem visibleBelow_iff {table : Table} {held want : Text} {order : List Text} :
    table.visibleBelow held want order = true ↔ table.TopsHold held want order := by
  induction order with
  | nil => exact ⟨fun _ => nofun, fun _ => rfl⟩
  | cons path rest induction =>
      rw [TopsHold, List.forall_mem_cons, visibleBelow]
      cases isPrefix path want with
      | false => simpa [TopsHold] using induction
      | true =>
          by_cases one : (table.topCount path).1 = 1
          · cases table.ancestor held (table.topCount path).2 <;> simp [one]
            exact induction
          · simp [one]

theorem roleOf_eq_visible {table : Table} {order : List Text} {id want : Text} :
    table.roleOf order id want = .visible ↔ table.pointOf id = some want ∧
      table.topCount want = (1, id) ∧ table.TopsHold id want order := by
  unfold roleOf
  rcases table.pointOf id with _ | point
  · simp
  · by_cases isPoint : point = want
    · by_cases one : (table.topCount want).1 = 1
      · by_cases isTop : (table.topCount want).2 = id
        · simp [isPoint, one, isTop, roleBelow_eq_visible, Prod.ext_iff]
        · simp [isPoint, one, isTop, Prod.ext_iff]
      · simp [isPoint, one, Prod.ext_iff]
    · simp [isPoint]

theorem visible_eq_some {table : Table} {order : List Text} {id want : Text} :
    table.visible order want = some id ↔
      table.topCount want = (1, id) ∧ table.TopsHold id want order := by
  unfold visible
  constructor
  · intro isVisible
    split at isVisible
    · cases isVisible
    · rename_i one
      split at isVisible
      · rename_i holds
        cases isVisible
        exact ⟨Prod.ext (not_not.mp one) rfl, visibleBelow_iff.mp holds⟩
      · cases isVisible
  · rintro ⟨one, holds⟩
    simp [one, visibleBelow_iff.mpr holds]

theorem topCount_eq_one {table : Table} {path id : Text} :
    table.topCount path = (1, id) ↔ table.tops path = [id] := by
  unfold topCount
  rcases table.tops path with _ | ⟨first, _ | ⟨second, rest⟩⟩ <;> simp

theorem mem_tops {table : Table} {path id : Text} : id ∈ table.tops path ↔
    id ∈ table.idsAt path ∧
      ∀ other ∈ table.idsAt path, other ≠ id → table.parentOf other ≠ some id := by
  simp [tops]

theorem mem_idsAt {table : Table} {path id : Text} :
    id ∈ table.idsAt path ↔ ∃ row ∈ table.rows, row.point = path ∧ row.id = id := by
  simp [idsAt, and_assoc]

theorem pointOf_eq_some {table : Table} (distinct : Distinct Row.id table.rows)
    {id point : Text} : table.pointOf id = some point ↔
      ∃ row ∈ table.rows, row.id = id ∧ row.point = point := by
  simp [pointOf, lookup_eq_some_iff distinct, and_assoc]

theorem parentOf_eq_some {table : Table} (distinct : Distinct Row.id table.rows)
    {id parent : Text} : table.parentOf id = some parent ↔
      ∃ row ∈ table.rows, row.id = id ∧ row.parent = parent := by
  simp [parentOf, lookup_eq_some_iff distinct, and_assoc]

/-- Both modes name one id at a path, in whatever order they visit the paths. -/
theorem visible_iff_roleOf {table : Table} (distinct : Distinct Row.id table.rows)
    {order other : List Text} (same : ∀ path, path ∈ order ↔ path ∈ other) {id want : Text} :
    table.visible order want = some id ↔ table.roleOf other id want = .visible := by
  rw [visible_eq_some, roleOf_eq_visible]
  have orders : table.TopsHold id want order ↔ table.TopsHold id want other :=
    forall_congr' fun path => imp_congr (same path) Iff.rfl
  rw [orders]
  refine ⟨fun both => ⟨?_, both⟩, And.right⟩
  have isTop : id ∈ table.tops want := by simp [topCount_eq_one.mp both.1]
  rcases mem_idsAt.mp (mem_tops.mp isTop).1 with ⟨row, member, point, isId⟩
  exact (pointOf_eq_some distinct).mpr ⟨row, member, isId, point⟩

end Table

/-! ## Tables of a tree -/

def Row.of (mount : Mount Text Text) : Row :=
  ⟨mount.id, mount.parent, render mount.point⟩

/-- The table lists the mounts of a tree, in any order. -/
structure Table.Describes (table : Table) (mounts : List (Mount Text Text))
    (root : Mount Text Text) : Prop where
  good : table.bad = false
  rows : table.rows = mounts.map Row.of
  names : ∀ mount ∈ mounts, ∀ name ∈ mount.point, IsName name
  tree : IsTree mounts root

namespace Table.Describes

variable {table : Table} {mounts : List (Mount Text Text)} {root : Mount Text Text}
  (describes : table.Describes mounts root) (distinct : Distinct Row.id table.rows)

include describes

theorem mem_rows {row : Row} : row ∈ table.rows ↔ ∃ mount ∈ mounts, Row.of mount = row := by
  rw [describes.rows, List.mem_map]

theorem mem_idsAt {path : List Text} (names : ∀ name ∈ path, IsName name) {id : Text} :
    id ∈ table.idsAt (render path) ↔ ∃ mount ∈ mounts, mount.point = path ∧ mount.id = id := by
  rw [Table.mem_idsAt]
  constructor
  · rintro ⟨row, member, point, isId⟩
    rcases describes.mem_rows.mp member with ⟨mount, isMount, rfl⟩
    exact ⟨mount, isMount, render_injective (describes.names mount isMount) names point, isId⟩
  · rintro ⟨mount, isMount, point, isId⟩
    exact ⟨Row.of mount, describes.mem_rows.mpr ⟨mount, isMount, rfl⟩, congrArg render point, isId⟩

include distinct

theorem parentOf {mount : Mount Text Text} (member : mount ∈ mounts) :
    table.parentOf mount.id = some mount.parent :=
  (parentOf_eq_some distinct).mpr
    ⟨Row.of mount, describes.mem_rows.mpr ⟨mount, member, rfl⟩, rfl, rfl⟩

theorem mem_tops {path : List Text} (names : ∀ name ∈ path, IsName name)
    {mount : Mount Text Text} (member : mount ∈ mounts) :
    mount.id ∈ table.tops (render path) ↔ IsTop mounts path mount := by
  rw [Table.mem_tops, describes.mem_idsAt names]
  constructor
  · rintro ⟨⟨other, isOther, point, same⟩, uncovered⟩
    cases describes.tree.unique _ isOther _ member same
    refine ⟨member, point, fun upper covers => ?_⟩
    refine uncovered upper.id ((describes.mem_idsAt names).mpr ⟨upper, covers.1, covers.2.1, rfl⟩)
      covers.2.2.2 ?_
    rw [describes.parentOf distinct covers.1, covers.2.2.1]
  · rintro ⟨_, point, uncovered⟩
    refine ⟨⟨mount, member, point, rfl⟩, fun other isAt differs isParent => ?_⟩
    rcases (describes.mem_idsAt names).mp isAt with ⟨upper, isUpper, upperPoint, rfl⟩
    rw [describes.parentOf distinct isUpper] at isParent
    exact uncovered upper ⟨isUpper, upperPoint, Option.some.inj isParent, differs⟩

/-- Where the program counts one top, one mount is topmost. -/
theorem isTop_iff {path : List Text} (names : ∀ name ∈ path, IsName name) {id : Text}
    (one : table.topCount (render path) = (1, id)) :
    ∃ top, top.id = id ∧ ∀ other, IsTop mounts path other ↔ other = top := by
  have only := topCount_eq_one.mp one
  have member : id ∈ table.tops (render path) := by simp [only]
  rcases (describes.mem_idsAt names).mp (Table.mem_tops.mp member).1 with ⟨top, isTop, _, rfl⟩
  refine ⟨top, rfl, fun other => ⟨fun isOther => ?_, ?_⟩⟩
  · have otherMember := (describes.mem_tops distinct names isOther.1).mpr isOther
    rw [only, List.mem_singleton] at otherMember
    exact describes.tree.unique _ isOther.1 _ isTop otherMember
  · rintro rfl
    exact (describes.mem_tops distinct names isTop).mp member

theorem mount_of_climb {target id : Text} {guard : Nat} {seen : List Text}
    (climbs : table.climb target guard seen id = .yes) : ∃ mount ∈ mounts, mount.id = id := by
  rcases guard with _ | guard
  · cases climbs
  · rw [Table.climb] at climbs
    rcases isParent : table.parentOf id with _ | parent
    · rw [isParent] at climbs
      cases climbs
    · rcases (parentOf_eq_some distinct).mp isParent with ⟨row, isRow, isId, _⟩
      rcases describes.mem_rows.mp isRow with ⟨mount, member, rfl⟩
      exact ⟨mount, member, isId⟩

/-- What the climb finds is below. -/
theorem above_of_climb {target : Mount Text Text} (isTarget : target ∈ mounts) {guard : Nat}
    {seen : List Text} {mount : Mount Text Text} (member : mount ∈ mounts)
    (differs : mount.id ≠ target.id)
    (climbs : table.climb target.id guard seen mount.id = .yes) : Above mounts target mount := by
  induction guard generalizing seen mount with
  | zero => cases climbs
  | succ guard induction =>
      rw [Table.climb, describes.parentOf distinct member] at climbs
      by_cases isParent : mount.parent = target.id
      · exact describes.tree.above_of_child isTarget member ⟨isParent, differs⟩
      · by_cases isRoot : mount.parent = mount.id
        · simp [isRoot, differs] at climbs
        · by_cases again : mount.parent ∈ seen
          · simp [isParent, isRoot, again] at climbs
          · simp only [isParent, isRoot, again, if_false] at climbs
            rcases describes.mount_of_climb distinct climbs with ⟨lower, isLower, sameId⟩
            rw [← sameId] at climbs isParent
            have below := induction isLower isParent climbs
            have isChild : Child lower mount := ⟨sameId.symm, fun same => isRoot (sameId ▸ same).symm⟩
            exact below.trans (describes.tree.above_of_child isLower member isChild)

theorem above_of_ancestor {target mount : Mount Text Text} (isTarget : target ∈ mounts)
    (member : mount ∈ mounts) (found : table.ancestor mount.id target.id = .yes) :
    Above mounts target mount := by
  unfold Table.ancestor at found
  by_cases same : mount.id = target.id
  · exact describes.tree.unique _ member _ isTarget same ▸ .self
  · rw [if_neg same] at found
    exact describes.above_of_climb distinct isTarget member same found

/-- An id that is called visible is at the end of the walk along the path. -/
theorem resolves {order : List Text} (lists : ∀ path, path ∈ order ↔ path ∈ table.paths)
    {id want : Text} (visible : table.roleOf order id want = .visible) :
    ∃ mount ∈ mounts, mount.id = id ∧ render mount.point = want ∧
      ∀ there, Resolves mounts root mount.point there ↔ there = mount := by
  rcases roleOf_eq_visible.mp visible with ⟨isPoint, one, holds⟩
  rcases (pointOf_eq_some distinct).mp isPoint with ⟨row, isRow, isId, point⟩
  rcases describes.mem_rows.mp isRow with ⟨mount, member, rfl⟩
  have names := describes.names mount member
  refine ⟨mount, member, isId, point, describes.tree.resolves fun path onTheWay attached => ?_⟩
  have pathNames : ∀ name ∈ path, IsName name := fun name inPath =>
    names name (onTheWay.subset inPath)
  by_cases whole : path = mount.point
  · subst whole
    rcases describes.isTop_iff distinct names (point.symm ▸ one) with ⟨top, isTopId, only⟩
    refine ⟨top, ?_, only⟩
    have isTop : top ∈ mounts := ((only top).mpr rfl).1
    exact describes.tree.unique _ isTop _ member (isTopId.trans isId.symm) ▸ .self
  · rcases attached with ⟨other, isOther, otherPoint⟩
    have listed : render path ∈ order := (lists _).mpr (by
      rw [Table.paths, describes.rows, List.map_map]
      exact List.mem_map.mpr ⟨other, isOther, congrArg render otherPoint⟩)
    rcases holds _ listed (point ▸ isPrefix_render names onTheWay whole) with ⟨one, found⟩
    rcases describes.isTop_iff distinct pathNames (Prod.ext one rfl) with ⟨top, isTopId, only⟩
    refine ⟨top, ?_, only⟩
    have isTop : top ∈ mounts := ((only top).mpr rfl).1
    have sameId : mount.id = id := isId
    rw [show (table.topCount (render path)).2 = top.id from isTopId.symm, ← sameId] at found
    exact describes.above_of_ancestor distinct isTop member found

end Table.Describes

/-! ## What the program prints -/

theorem Table.role_eq_visible {table : Table} {order : List Text} {id want : Text} :
    table.role order id want = .visible ↔
      table.bad = false ∧ table.roleOf order id want = .visible := by
  unfold Table.role
  cases table.bad <;> simp

theorem word_eq_visible {role : Table.Role} :
    role.word = Table.Role.visible.word ↔ role = .visible := by
  cases role <;> decide

section Printed

variable {file want id : Text} {order : List Text}

theorem role_prints_visible :
    pmMountinfoAwk order .role want id file = some [Table.Role.visible.word] ↔
      (Table.read file).role order id want = .visible := by
  simp [pmMountinfoAwk, word_eq_visible]

theorem visible_prints : pmMountinfoAwk order .visible want [] file = some [id] ↔
    (Table.read file).bad = false ∧ (Table.read file).visible order want = some id := by
  rcases isBad : (Table.read file).bad with _ | _ <;> simp [pmMountinfoAwk, isBad]

end Printed

/-- When a table describes a tree of mounts: an id that is called visible at a path is
at the end of the walk along it, one id at most is called visible there, and the two
modes agree. -/
theorem visibility_sound (file : Text) (mounts : List (Mount Text Text))
    (root : Mount Text Text) (describes : (Table.read file).Describes mounts root)
    (order other : List Text) (lists : ∀ path, path ∈ order ↔ path ∈ (Table.read file).paths)
    (alsoLists : ∀ path, path ∈ other ↔ path ∈ (Table.read file).paths) (want : Text) :
    (∀ id, pmMountinfoAwk order .role want id file = some [Table.Role.visible.word] →
      ∃ mount ∈ mounts, mount.id = id ∧ render mount.point = want ∧
        ∀ there, Resolves mounts root mount.point there ↔ there = mount) ∧
    (∀ first second, pmMountinfoAwk order .role want first file = some [Table.Role.visible.word] →
      pmMountinfoAwk other .role want second file = some [Table.Role.visible.word] →
      first = second) ∧
    ∀ id, pmMountinfoAwk order .visible want [] file = some [id] ↔
      pmMountinfoAwk other .role want id file = some [Table.Role.visible.word] := by
  have distinct := Table.read_distinct file
  refine ⟨fun id prints => ?_, fun first second one two => ?_, fun id => ?_⟩
  · exact describes.resolves distinct lists
      (Table.role_eq_visible.mp (role_prints_visible.mp prints)).2
  · have firstRole := (Table.role_eq_visible.mp (role_prints_visible.mp one)).2
    have secondRole := (Table.role_eq_visible.mp (role_prints_visible.mp two)).2
    have firstTop := (Table.roleOf_eq_visible.mp firstRole).2.1
    have secondTop := (Table.roleOf_eq_visible.mp secondRole).2.1
    exact (Prod.mk.inj (firstTop.symm.trans secondTop)).2
  · rw [visible_prints, role_prints_visible, Table.role_eq_visible]
    exact and_congr Iff.rfl (Table.visible_iff_roleOf distinct
      fun path => (lists path).trans (alsoLists path).symm)

/-! ### A sample table -/

/-- A card, another one mounted over it, and a mount inside that. -/
def sampleFile : Text :=
  ascii "31 33 0:7 / /mnt/c rw\n22 1 179:2 / / rw\n33 30 0:6 / /mnt rw\n30 22 8:1 / /mnt rw\n"

def sampleRoot : Mount Text Text :=
  ⟨ascii "22", ascii "1", []⟩

def sampleCard : Mount Text Text :=
  ⟨ascii "30", ascii "22", [ascii "mnt"]⟩

def sampleOver : Mount Text Text :=
  ⟨ascii "33", ascii "30", [ascii "mnt"]⟩

def sampleInside : Mount Text Text :=
  ⟨ascii "31", ascii "33", [ascii "mnt", ascii "c"]⟩

def sampleMounts : List (Mount Text Text) :=
  [sampleInside, sampleRoot, sampleOver, sampleCard]

theorem sampleMounts_tree : IsTree sampleMounts sampleRoot where
  unique := by unfold DistinctIds; decide
  member := by decide
  atRoot := rfl
  parentless := by unfold Child; decide
  above := by
    have card : Above sampleMounts sampleRoot sampleCard :=
      .child .self (by decide) ⟨rfl, by decide⟩ (by decide)
    have stacked : Above sampleMounts sampleRoot sampleOver :=
      .child card (by decide) ⟨rfl, by decide⟩ (by decide)
    have inside : Above sampleMounts sampleRoot sampleInside :=
      .child stacked (by decide) ⟨rfl, by decide⟩ (by decide)
    intro mount member
    simp only [sampleMounts, List.mem_cons, List.not_mem_nil, or_false] at member
    rcases member with rfl | rfl | rfl | rfl
    · exact inside
    · exact .self
    · exact stacked
    · exact card

theorem sampleFile_describes : (Table.read sampleFile).Describes sampleMounts sampleRoot where
  good := by decide
  rows := by decide
  names := by unfold IsName; decide
  tree := sampleMounts_tree

theorem sampleFile_visible :
    pmMountinfoAwk (Table.read sampleFile).paths .visible (ascii "/mnt/c") [] sampleFile =
        some [ascii "31"] ∧
      ∃ mount ∈ sampleMounts, mount.id = ascii "31" ∧ render mount.point = ascii "/mnt/c" ∧
        ∀ there, Resolves sampleMounts sampleRoot mount.point there ↔ there = mount := by
  have sound := visibility_sound sampleFile sampleMounts sampleRoot sampleFile_describes
    (Table.read sampleFile).paths (Table.read sampleFile).paths (fun _ => Iff.rfl)
    (fun _ => Iff.rfl) (ascii "/mnt/c")
  have prints : pmMountinfoAwk (Table.read sampleFile).paths .role (ascii "/mnt/c") (ascii "31")
      sampleFile = some [Table.Role.visible.word] := by decide
  exact ⟨(sound.2.2 _).mpr prints, sound.1 _ prints⟩

end Zlyme.Portmaster
