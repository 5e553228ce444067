import Zlyme.Foundation.Peeling
import Zlyme.Portmaster.Ownership

/-! # The mount table without a mount

An unmount takes one line out of the mount table. What is visible stays visible when another
visible mount is unmounted.
-/

namespace Zlyme.Portmaster

open Foundation Foundation.Text Foundation.KeyedRows Foundation.MountTree

namespace Table

/-- The table without one mount. -/
def without (table : Table) (id : Text) : Table :=
  { table with rows := table.rows.filter fun row => row.id ≠ id }

/-- Something is attached to the mount, which makes it busy. -/
def bears (table : Table) (id : Text) : Bool :=
  table.rows.any fun row => row.parent = id && row.id ≠ id

/-- What `pm_mount_role` answers. -/
def sees (table : Table) (path id : Text) : Option Role :=
  (pmNorm path).map fun norm => if isNumber id then table.role table.paths id norm else .ambiguous

/-! ## Rows -/

theorem without_comm (table : Table) (first second : Text) :
    (table.without first).without second = (table.without second).without first := by
  simp only [without, List.filter_filter, Bool.and_comm]

theorem lookup_without (table : Table) {id other : Text} (differs : other ≠ id) :
    lookup Row.id (table.without id).rows other = lookup Row.id table.rows other := by
  rw [lookup, lookup, without, List.find?_filter]
  congr 1
  funext row
  by_cases same : row.id = other
  · simp [same, differs]
  · simp [same]

theorem parentOf_without (table : Table) {id other : Text} (differs : other ≠ id) :
    (table.without id).parentOf other = table.parentOf other := by
  rw [parentOf, parentOf, lookup_without table differs]

theorem pointOf_without (table : Table) {id other : Text} (differs : other ≠ id) :
    (table.without id).pointOf other = table.pointOf other := by
  rw [pointOf, pointOf, lookup_without table differs]

theorem pointOf_without_self (table : Table) (id : Text) : (table.without id).pointOf id = none := by
  rw [pointOf, Option.map_eq_none_iff, lookup_eq_none_iff]
  intro row member
  exact of_decide_eq_true (List.mem_filter.mp member).2

theorem not_mem_idsAt_without (table : Table) (id path : Text) :
    id ∉ (table.without id).idsAt path := by
  intro member
  rcases mem_idsAt.mp member with ⟨row, inRows, -, isId⟩
  exact of_decide_eq_true (List.mem_filter.mp inRows).2 isId

theorem bears_eq_false {table : Table} {id : Text} :
    table.bears id = false ↔ ∀ row ∈ table.rows, row.parent = id → row.id = id := by
  simp [bears]

section Leaf

variable {table : Table} {gone : Text}

/-- The mounts at another path stay as they are. -/
theorem idsAt_without {path : Text} (elsewhere : ∀ row ∈ table.rows, row.id = gone → row.point ≠ path) :
    (table.without gone).idsAt path = table.idsAt path := by
  rw [idsAt, idsAt, without, List.filter_filter]
  congr 1
  apply List.filter_congr
  intro row member
  by_cases atPath : row.point = path
  · have stays : row.id ≠ gone := fun same => elsewhere row member same atPath
    simp [atPath, stays]
  · simp [atPath]

theorem tops_without {path : Text} (elsewhere : ∀ row ∈ table.rows, row.id = gone → row.point ≠ path) :
    (table.without gone).tops path = table.tops path := by
  rw [tops, tops, idsAt_without elsewhere]
  apply List.filter_congr
  intro id _
  congr 1
  rw [Bool.eq_iff_iff, List.any_eq_true, List.any_eq_true]
  refine exists_congr fun other => and_congr_right fun isAt => ?_
  have differs : other ≠ gone := by
    rintro rfl
    rcases mem_idsAt.mp isAt with ⟨row, member, point, isId⟩
    exact elsewhere row member isId point
  rw [parentOf_without table differs]

theorem topCount_without {path : Text}
    (elsewhere : ∀ row ∈ table.rows, row.id = gone → row.point ≠ path) :
    (table.without gone).topCount path = table.topCount path := by
  rw [topCount, topCount, tops_without elsewhere]

variable (leaf : table.bears gone = false)

include leaf

/-- No climb of another mount passes a leaf. -/
theorem parent_ne_leaf {id parent : Text} (differs : id ≠ gone)
    (isParent : table.parentOf id = some parent) : parent ≠ gone := by
  rintro rfl
  rw [parentOf, Option.map_eq_some_iff] at isParent
  rcases isParent with ⟨row, found, rowParent⟩
  rcases mem_of_lookup found with ⟨member, isId⟩
  exact differs (isId ▸ bears_eq_false.mp leaf row member rowParent)

theorem climb_without {target : Text} {guard : Nat} {seen : List Text} {id : Text}
    (differs : id ≠ gone) :
    (table.without gone).climb target guard seen id = table.climb target guard seen id := by
  induction guard generalizing seen id with
  | zero => rfl
  | succ guard induction =>
      rw [climb, climb, parentOf_without table differs]
      cases isParent : table.parentOf id with
      | none => rfl
      | some parent => simp only [induction (parent_ne_leaf leaf differs isParent)]

theorem climb_leaf {guard : Nat} {seen : List Text} {id : Text} (differs : id ≠ gone) :
    table.climb gone guard seen id ≠ .yes := by
  induction guard generalizing seen id with
  | zero => exact fun same => by cases same
  | succ guard induction =>
      rw [climb]
      cases isParent : table.parentOf id with
      | none => exact fun same => by cases same
      | some parent =>
          have parentDiffers := parent_ne_leaf leaf differs isParent
          dsimp only
          rw [if_neg parentDiffers]
          split
          · exact fun same => by cases same
          · split
            · exact fun same => by cases same
            · exact induction parentDiffers

theorem ancestor_without {id target : Text} (differs : id ≠ gone) :
    (table.without gone).ancestor id target = table.ancestor id target := by
  rw [ancestor, ancestor, climb_without leaf differs]

/-- A leaf is below nothing else. -/
theorem eq_of_ancestor_leaf {id : Text} (found : table.ancestor id gone = .yes) : id = gone := by
  by_contra differs
  rw [ancestor, if_neg differs] at found
  exact climb_leaf leaf differs found

end Leaf

/-! ## What stays visible -/

/-- Shown at a path, to awk. -/
def Shown (table : Table) (id norm : Text) : Prop :=
  table.role table.paths id norm = .visible

theorem shown_iff {table : Table} {id norm : Text} : table.Shown id norm ↔ table.bad = false ∧
    table.pointOf id = some norm ∧ table.topCount norm = (1, id) ∧
      table.TopsHold id norm table.paths := by
  rw [Shown, role_eq_visible, roleOf_eq_visible]

/-- Where two mounts are visible, the one stays visible without the other one. -/
theorem Shown.without {table : Table} {id norm gone norm' : Text}
    (distinct : Distinct Row.id table.rows) (shown : table.Shown id norm)
    (other : table.Shown gone norm') (leaf : table.bears gone = false) (differs : id ≠ gone) :
    (table.without gone).Shown id norm := by
  rcases shown_iff.mp shown with ⟨good, isPoint, one, tops⟩
  rcases shown_iff.mp other with ⟨-, otherPoint, otherOne, -⟩
  -- the mount is not at a path that has another one on top
  have elsewhere : ∀ {path top}, table.topCount path = (1, top) → top ≠ gone →
      ∀ row ∈ table.rows, row.id = gone → row.point ≠ path := by
    rintro path top isTop notGone row member isGone rfl
    have samePoint : row.point = norm' := by
      rw [pointOf_eq_some distinct] at otherPoint
      rcases otherPoint with ⟨found, inRows, isId, point⟩
      rw [List.inj_on_of_nodup_map distinct member inRows (isGone.trans isId.symm), point]
    rw [samePoint, otherOne] at isTop
    exact notGone (Prod.ext_iff.mp isTop).2.symm
  refine shown_iff.mpr ⟨good, ?_, ?_, ?_⟩
  · rw [pointOf_without table differs]
    exact isPoint
  · rw [topCount_without (elsewhere one differs)]
    exact one
  · intro path member isAbove
    have inPaths : path ∈ table.paths := by
      rcases List.mem_map.mp member with ⟨row, inRows, rfl⟩
      exact List.mem_map_of_mem (List.mem_of_mem_filter inRows)
    rcases tops path inPaths isAbove with ⟨single, below⟩
    have notGone : (table.topCount path).2 ≠ gone := by
      intro same
      rw [same] at below
      exact differs (eq_of_ancestor_leaf leaf below)
    rw [topCount_without (elsewhere (Prod.ext single rfl) notGone), ancestor_without leaf differs]
    exact ⟨single, below⟩

/-- What is visible stays visible under another mount that is not on the way to it. -/
theorem Shown.of_without {table : Table} {id norm gone : Text} (leaf : table.bears gone = false)
    (differs : id ≠ gone)
    (apart : ∀ row ∈ table.rows, row.id = gone → row.point ≠ norm ∧ isPrefix row.point norm = false)
    (shown : (table.without gone).Shown id norm) : table.Shown id norm := by
  rcases shown_iff.mp shown with ⟨good, isPoint, one, tops⟩
  rw [pointOf_without table differs] at isPoint
  rw [topCount_without fun row member isGone => (apart row member isGone).1] at one
  refine shown_iff.mpr ⟨good, isPoint, one, fun path member isAbove => ?_⟩
  have elsewhere : ∀ row ∈ table.rows, row.id = gone → row.point ≠ path := by
    rintro row inRows isGone rfl
    rw [(apart row inRows isGone).2] at isAbove
    cases isAbove
  have stays : path ∈ (table.without gone).paths := by
    rcases List.mem_map.mp member with ⟨row, inRows, rfl⟩
    refine List.mem_map_of_mem (List.mem_filter.mpr ⟨inRows, decide_eq_true ?_⟩)
    exact fun isGone => elsewhere row inRows isGone rfl
  have found := tops path stays isAbove
  rw [topCount_without elsewhere, ancestor_without leaf differs] at found
  exact found

/-! ## Lines -/

/-- A table with a bad line stays bad. -/
theorem bad_readLine {table : Table} (line : Text) (bad : table.bad = true) :
    (table.readLine line).bad = true := by
  unfold readLine
  split
  · exact bad
  · split
    · exact bad
    · rfl
  · rfl

theorem bad_foldl {table : Table} (texts : List Text) (bad : table.bad = true) :
    (texts.foldl readLine table).bad = true := by
  induction texts generalizing table with
  | nil => exact bad
  | cons line rest induction => exact induction (bad_readLine line bad)

def isLineOf (id line : Text) : Bool :=
  (words isBlank line).head? = some id

/-- A line of the mount is not read, and every other one is read as before. -/
theorem readLine_without {table : Table} (id line : Text) (good : (table.readLine line).bad = false) :
    (table.readLine line).without id =
      if isLineOf id line then table.without id else (table.without id).readLine line := by
  have wasGood : table.bad = false := by
    by_contra bad
    rw [bad_readLine line (by simpa using bad)] at good
    cases good
  unfold readLine isLineOf at *
  split at good
  · rename_i blank
    simp [blank]
  · rename_i first parent _ _ point _ isLine
    simp only [isLine, List.head?_cons] at *
    split at good
    · rename_i read
      simp only [Bool.and_eq_true, Option.isNone_iff_eq_none] at read
      simp only [read, Option.isNone_none, Bool.and_self, if_true]
      by_cases same : first = id
      · simp [same, without]
      · have absent : (table.without id).parentOf first = none := by
          rw [parentOf_without table same]
          exact read.2
        simp only [Option.some.injEq, same, decide_false, Bool.false_eq_true, if_false, absent,
          Option.isNone_none, Bool.and_self, if_true]
        simp [without, same]
    · cases good
  · cases good

theorem foldl_without {table : Table} (id : Text) (texts : List Text)
    (good : (texts.foldl readLine table).bad = false) :
    (texts.foldl readLine table).without id =
      (texts.filter fun line => !isLineOf id line).foldl readLine (table.without id) := by
  induction texts generalizing table with
  | nil => rfl
  | cons line rest induction =>
      have lineGood : (table.readLine line).bad = false := by
        by_contra bad
        rw [List.foldl_cons, bad_foldl rest (by simpa using bad)] at good
        cases good
      rw [List.foldl_cons, induction good, readLine_without id line lineGood]
      cases isLine : isLineOf id line <;> simp [isLine]

end Table

/-- The lines of the mount table without those of one mount. -/
def withoutLines (file id : Text) : Text :=
  unlines newline ((lines (· == newline) file).filter fun line => !Table.isLineOf id line)

theorem read_withoutLines {file : Text} (id : Text) (good : (Table.read file).bad = false) :
    Table.read (withoutLines file id) = (Table.read file).without id := by
  have unbroken : ∀ line ∈ (lines (· == newline) file).filter fun line => !Table.isLineOf id line,
      ∀ byte ∈ line, (byte == newline) = false :=
    fun line member byte inside => (mem_of_mem_lines (List.mem_of_mem_filter member) inside).2
  rw [Table.read, withoutLines, lines_unlines unbroken rfl, Table.read, Table.foldl_without id _ good]
  rfl

/-! ## Spaces -/

theorem Table.Describes.without {table : Table} {mounts : List (Mount Text Text)}
    {root : Mount Text Text} {id : Text} (describes : table.Describes mounts root)
    (notRoot : id ≠ root.id) (leaf : ∀ mount ∈ mounts, mount.parent = id → mount.id = id) :
    (table.without id).Describes (mounts.filter fun mount => mount.id ≠ id) root where
  good := describes.good
  rows := by
    rw [Table.without, describes.rows, List.filter_map]
    rfl
  names mount member := describes.names mount (List.mem_of_mem_filter member)
  tree := describes.tree.without_leaf notRoot leaf

/-- The mounts that are left after the unmount of one that nothing is attached to. -/
def Space.without (space : Space) (id : Text) : Space :=
  if able : id ≠ space.root.id ∧ ∀ mount ∈ space.mounts, mount.parent = id → mount.id = id then
    { mounts := space.mounts.filter fun mount => mount.id ≠ id
      root := space.root
      mountinfo := withoutLines space.mountinfo id
      describes := by
        rw [read_withoutLines id space.describes.good]
        exact space.describes.without able.1 able.2 }
  else space

def Space.table (space : Space) : Table :=
  Table.read space.mountinfo

theorem Space.table_without {space : Space} {id : Text} (notRoot : id ≠ space.root.id)
    (leaf : space.table.bears id = false) : (space.without id).table = space.table.without id := by
  have able : ∀ mount ∈ space.mounts, mount.parent = id → mount.id = id := by
    intro mount member isParent
    apply Table.bears_eq_false.mp leaf (Row.of mount) _ isParent
    rw [Space.table, space.describes.rows]
    exact List.mem_map_of_mem member
  rw [Space.without, dif_pos ⟨notRoot, able⟩, Space.table]
  exact read_withoutLines id space.describes.good

theorem Space.mem_ids_iff_point {space : Space} {id : Text} :
    id ∈ space.ids ↔ space.table.pointOf id ≠ none := by
  rw [Table.pointOf, ne_eq, Option.map_eq_none_iff, lookup_eq_none_iff, Space.table,
    space.describes.rows]
  simp [Space.ids, Row.of]

end Zlyme.Portmaster
