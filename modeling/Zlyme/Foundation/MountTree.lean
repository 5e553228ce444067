import Mathlib.Data.List.Infix

/-! # Trees of mounts

A mount is attached at a path of the tree, on another mount. A walk along a path
starts at the root and crosses, at every component, into what is attached there, and
into what is attached on that, up to the topmost mount.
-/

namespace Foundation.MountTree

structure Mount (Id Name : Type) where
  id : Id
  parent : Id
  /-- The path the mount is attached at, from the root of the tree. -/
  point : List Name
  deriving DecidableEq, Repr

variable {Id Name : Type}

/-! ## Trees -/

/-- One mount is attached to another one. -/
def Child (lower upper : Mount Id Name) : Prop :=
  upper.parent = lower.id ∧ upper.id ≠ lower.id

section Trees

variable (mounts : List (Mount Id Name))

/-- No two mounts have one id. -/
def DistinctIds : Prop :=
  ∀ first ∈ mounts, ∀ second ∈ mounts, first.id = second.id → first = second

/-- A mount is another one, or is above it. -/
inductive Above (lower : Mount Id Name) : Mount Id Name → Prop
  | self : Above lower lower
  | child {between upper : Mount Id Name} : Above lower between → upper ∈ mounts →
      Child between upper → between.point <+: upper.point → Above lower upper

/-- Every mount is attached inside the mountpoint of its parent, and one of them is at
the bottom. -/
structure IsTree (root : Mount Id Name) : Prop where
  unique : DistinctIds mounts
  member : root ∈ mounts
  atRoot : root.point = []
  parentless : ∀ mount ∈ mounts, ¬Child mount root
  above : ∀ mount ∈ mounts, Above mounts root mount

/-! ## Walks -/

/-- What is attached to a mount at a path. -/
def Covers (path : List Name) (lower upper : Mount Id Name) : Prop :=
  upper ∈ mounts ∧ upper.point = path ∧ Child lower upper

/-- From a mount to the topmost one at a path. -/
inductive Crosses (path : List Name) : Mount Id Name → Mount Id Name → Prop
  | stay {mount : Mount Id Name} : (∀ upper, ¬Covers mounts path mount upper) →
      Crosses path mount mount
  | up {lower upper top : Mount Id Name} : Covers mounts path lower upper →
      Crosses path upper top → Crosses path lower top

/-- The walk along the components that are left, from a path and a mount on. -/
def Walks : List Name → List Name → Mount Id Name → Mount Id Name → Prop
  | _, [], here, there => here = there
  | path, name :: rest, here, there => ∃ next, Crosses mounts (path ++ [name]) here next ∧
      Walks (path ++ [name]) rest next there

/-- The walk along a path from the root of the tree. -/
def Resolves (root : Mount Id Name) (path : List Name) (there : Mount Id Name) : Prop :=
  ∃ start, Crosses mounts [] root start ∧ Walks mounts [] path start there

/-- The mounts at a path that nothing covers there. -/
def IsTop (path : List Name) (mount : Mount Id Name) : Prop :=
  mount ∈ mounts ∧ mount.point = path ∧ ∀ upper, ¬Covers mounts path mount upper

end Trees

variable {mounts : List (Mount Id Name)} {root lower between upper mount : Mount Id Name}
  {path : List Name}

/-! ## Above -/

theorem Above.trans (first : Above mounts lower between) (second : Above mounts between upper) :
    Above mounts lower upper := by
  induction second with
  | self => exact first
  | child _ member isChild inside induction => exact .child induction member isChild inside

theorem Above.within (above : Above mounts lower upper) : lower.point <+: upper.point := by
  induction above with
  | self => exact List.prefix_refl _
  | child _ _ _ inside induction => exact induction.trans inside

theorem Above.mem (above : Above mounts lower upper) (member : lower ∈ mounts) :
    upper ∈ mounts := by
  cases above with
  | self => exact member
  | child _ member _ _ => exact member

/-- The first mount on the way up. -/
theorem Above.first (above : Above mounts lower upper) : lower = upper ∨
    ∃ next, next ∈ mounts ∧ Child lower next ∧ lower.point <+: next.point ∧
      Above mounts next upper := by
  induction above with
  | self => exact .inl rfl
  | child _ member isChild inside induction =>
      right
      rcases induction with rfl | ⟨next, isMount, isNext, within, above⟩
      · exact ⟨_, member, isChild, inside, .self⟩
      · exact ⟨next, isMount, isNext, within, .child above member isChild inside⟩

/-- What is below a mount is the mount, or is below its parent. -/
theorem Above.parent (unique : DistinctIds mounts) (member : lower ∈ mounts)
    (parentMember : between ∈ mounts) (isChild : Child between upper)
    (above : Above mounts lower upper) : lower = upper ∨ Above mounts lower between := by
  cases above with
  | self => exact .inl rfl
  | child below _ otherChild _ =>
      right
      exact unique _ (below.mem member) _ parentMember (otherChild.1.symm.trans isChild.1) ▸ below

/-- What is below one mount is in one line. -/
theorem Above.linear (unique : DistinctIds mounts) {first second : Mount Id Name}
    (firstMember : first ∈ mounts) (secondMember : second ∈ mounts)
    (firstBelow : Above mounts first mount) (secondBelow : Above mounts second mount) :
    Above mounts first second ∨ Above mounts second first := by
  induction firstBelow with
  | self => exact .inr secondBelow
  | child below member isChild inside induction =>
      rcases secondBelow.parent unique secondMember (below.mem firstMember) isChild with rfl | below'
      · exact .inl (.child below member isChild inside)
      · exact induction below'

/-- In a tree, what is attached to a mount is above it. -/
theorem IsTree.above_of_child (tree : IsTree mounts root) (lowerMember : lower ∈ mounts)
    (member : upper ∈ mounts) (isChild : Child lower upper) : Above mounts lower upper := by
  cases tree.above upper member with
  | self => exact absurd isChild (tree.parentless lower lowerMember)
  | child above _ otherChild inside =>
      have same := tree.unique _ (above.mem tree.member) _ lowerMember
        (otherChild.1.symm.trans isChild.1)
      exact .child .self member isChild (same ▸ inside)

/-! ## Crossing -/

theorem Crosses.stays_or_top {top : Mount Id Name} (crosses : Crosses mounts path mount top) :
    (top = mount ∧ ∀ upper, ¬Covers mounts path mount upper) ∨ IsTop mounts path top := by
  induction crosses with
  | stay uncovered => exact .inl ⟨rfl, uncovered⟩
  | up covers _ induction =>
      right
      rcases induction with ⟨rfl, uncovered⟩ | isTop
      · exact ⟨covers.1, covers.2.1, uncovered⟩
      · exact isTop

/-- Mounts on each other at one path are crossed together. -/
theorem Above.crosses {top : Mount Id Name} (above : Above mounts mount upper)
    (atLeast : path <+: mount.point) (point : upper.point = path)
    (crosses : Crosses mounts path upper top) : Crosses mounts path mount top := by
  induction above with
  | self => exact crosses
  | @child between upper below member isChild inside induction =>
      have longer : path <+: between.point := atLeast.trans below.within
      have same : between.point = path :=
        (point ▸ inside : between.point <+: path).eq_of_length_le longer.length_le
      exact induction same (.up ⟨member, point, isChild⟩ crosses)

/-! ## Where a walk stands -/

/-- A walk to a mount stands, after a path, on the last mount below it that is attached
inside the path. -/
structure Stands (mounts : List (Mount Id Name)) (mount : Mount Id Name) (path : List Name)
    (here : Mount Id Name) : Prop where
  member : here ∈ mounts
  below : Above mounts here mount
  inside : here.point <+: path
  last : here = mount ∨ ∃ next, next ∈ mounts ∧ Child here next ∧ Above mounts next mount ∧
    ¬next.point <+: path

/-- Wherever something is attached on the way, one topmost mount is there, and it is
below the mount. -/
def TopsBelow (mounts : List (Mount Id Name)) (mount : Mount Id Name) : Prop :=
  ∀ path, path <+: mount.point → (∃ other ∈ mounts, other.point = path) →
    ∃ top, Above mounts top mount ∧ ∀ other, IsTop mounts path other ↔ other = top

/-- The topmost mount at a path is where the walk stands after it. -/
theorem Above.stands (isTop : IsTop mounts path lower) (below : Above mounts lower mount) :
    Stands mounts mount path lower where
  member := isTop.1
  below := below
  inside := isTop.2.1 ▸ List.prefix_refl _
  last := by
    refine below.first.imp id ?_
    rintro ⟨next, isMount, isChild, inside, above⟩
    refine ⟨next, isMount, isChild, above, fun short => isTop.2.2 next ⟨isMount, ?_, isChild⟩⟩
    exact short.eq_of_length_le (isTop.2.1 ▸ inside).length_le

theorem not_append_within (path : List Name) (name : Name) : ¬path ++ [name] <+: path := by
  intro longer
  have bound := longer.length_le
  rw [List.length_append] at bound
  exact Nat.not_succ_le_self _ bound

/-- One component further, the walk stands on the mount that it crosses to. -/
theorem Stands.step (unique : DistinctIds mounts) {here : Mount Id Name} {name : Name}
    (tops : TopsBelow mounts mount) (stands : Stands mounts mount path here)
    (onTheWay : path ++ [name] <+: mount.point) :
    ∃ next, Stands mounts mount (path ++ [name]) next ∧
      ∀ other, Crosses mounts (path ++ [name]) here other ↔ other = next := by
  -- the walk is not yet at the mount
  rcases stands.last with rfl | ⟨next, isNext, isChild, above, beyond⟩
  · exact absurd (onTheWay.trans stands.inside) (not_append_within path name)
  by_cases attached : ∃ other ∈ mounts, other.point = path ++ [name]
  · rcases tops _ onTheWay attached with ⟨top, below, only⟩
    have isTop : IsTop mounts (path ++ [name]) top := (only top).mpr rfl
    -- the topmost mount is above the next one, which is attached at the component
    have nextBelow : Above mounts next top := by
      rcases above.linear unique isNext isTop.1 below with nextBelow | topBelow
      · exact nextBelow
      · rcases topBelow.parent unique isTop.1 stands.member isChild with rfl | topBelow
        · exact .self
        · exact absurd (isTop.2.1 ▸ topBelow.within.trans stands.inside)
            (not_append_within path name)
    have nextPoint : next.point = path ++ [name] :=
      (List.prefix_concat_iff.mp (isTop.2.1 ▸ nextBelow.within)).resolve_right beyond
    have covers : Covers mounts (path ++ [name]) here next := ⟨isNext, nextPoint, isChild⟩
    refine ⟨top, below.stands isTop, fun other => ⟨fun crosses => ?_, ?_⟩⟩
    · rcases crosses.stays_or_top with ⟨_, uncovered⟩ | isOther
      · exact absurd covers (uncovered next)
      · exact (only other).mp isOther
    · rintro rfl
      exact .up covers (nextBelow.crosses (nextPoint ▸ List.prefix_refl _) isTop.2.1
        (.stay isTop.2.2))
  · -- nothing is attached here, and the walk stays
    have uncovered : ∀ upper, ¬Covers mounts (path ++ [name]) here upper :=
      fun upper covers => attached ⟨upper, covers.1, covers.2.1⟩
    refine ⟨here, ⟨stands.member, stands.below, stands.inside.trans (List.prefix_append _ _),
      .inr ⟨next, isNext, isChild, above, fun inside => ?_⟩⟩, fun other => ⟨fun crosses => ?_, ?_⟩⟩
    · rcases List.prefix_concat_iff.mp inside with atIt | inside
      · exact attached ⟨next, isNext, atIt⟩
      · exact beyond inside
    · cases crosses with
      | stay _ => rfl
      | up covers _ => exact absurd covers (uncovered _)
    · rintro rfl
      exact .stay uncovered

theorem Stands.walks (unique : DistinctIds mounts) {here : Mount Id Name}
    (tops : TopsBelow mounts mount) {rest : List Name} (stands : Stands mounts mount path here)
    (whole : path ++ rest = mount.point) (there : Mount Id Name) :
    Walks mounts path rest here there ↔ there = mount := by
  induction rest generalizing path here with
  | nil =>
      have arrived : here = mount := by
        rcases stands.last with same | ⟨next, _, _, above, beyond⟩
        · exact same
        · rw [List.append_nil] at whole
          exact absurd (whole ▸ above.within) beyond
      exact ⟨fun same => same ▸ arrived, fun same => arrived.trans same.symm⟩
  | cons name rest induction =>
      have further : (path ++ [name]) ++ rest = mount.point := by simpa using whole
      rcases stands.step unique tops (further ▸ List.prefix_append _ _) with ⟨next, later, only⟩
      constructor
      · rintro ⟨other, crosses, walks⟩
        cases (only other).mp crosses
        exact (induction later further).mp walks
      · intro same
        exact ⟨next, (only next).mpr rfl, (induction later further).mpr same⟩

/-- When one topmost mount is below a mount wherever something is attached on the way to
it, the walk along its path ends at the mount. -/
theorem IsTree.resolves (tree : IsTree mounts root) (tops : TopsBelow mounts mount)
    (there : Mount Id Name) :
    Resolves mounts root mount.point there ↔ there = mount := by
  rcases tops [] List.nil_prefix ⟨root, tree.member, tree.atRoot⟩ with ⟨start, below, only⟩
  have isTop : IsTop mounts [] start := (only start).mpr rfl
  have crossed : ∀ other, Crosses mounts [] root other ↔ other = start := by
    refine fun other => ⟨fun crosses => ?_, ?_⟩
    · rcases crosses.stays_or_top with ⟨rfl, uncovered⟩ | isOther
      · exact (only other).mp ⟨tree.member, tree.atRoot, uncovered⟩
      · exact (only other).mp isOther
    · rintro rfl
      exact (tree.above other isTop.1).crosses List.nil_prefix isTop.2.1 (.stay isTop.2.2)
  have walked := (below.stands isTop).walks tree.unique tops rfl there
  constructor
  · rintro ⟨other, crosses, walks⟩
    cases (crossed other).mp crosses
    exact walked.mp walks
  · exact fun same => ⟨start, (crossed start).mpr rfl, walked.mpr same⟩

/-! ## Leaves -/

section Leaves

variable [DecidableEq Id] {leaf : Id}

theorem Above.without_leaf (isLeaf : ∀ mount ∈ mounts, mount.parent = leaf → mount.id = leaf)
    (above : Above mounts lower upper) (stays : upper.id ≠ leaf) :
    Above (mounts.filter fun mount => mount.id ≠ leaf) lower upper := by
  induction above with
  | self => exact .self
  | @child between upper _ member isChild inside induction =>
      have betweenStays : between.id ≠ leaf := by
        intro same
        exact stays (isLeaf upper member (isChild.1.trans same))
      refine .child (induction betweenStays) ?_ isChild inside
      exact List.mem_filter.mpr ⟨member, decide_eq_true stays⟩

/-- A tree without a mount that nothing is attached to is a tree. -/
theorem IsTree.without_leaf (tree : IsTree mounts root) (notRoot : leaf ≠ root.id)
    (isLeaf : ∀ mount ∈ mounts, mount.parent = leaf → mount.id = leaf) :
    IsTree (mounts.filter fun mount => mount.id ≠ leaf) root where
  unique first isFirst second isSecond :=
    tree.unique first (List.mem_of_mem_filter isFirst) second (List.mem_of_mem_filter isSecond)
  member := List.mem_filter.mpr ⟨tree.member, decide_eq_true (Ne.symm notRoot)⟩
  atRoot := tree.atRoot
  parentless mount member := tree.parentless mount (List.mem_of_mem_filter member)
  above mount member := by
    rcases List.mem_filter.mp member with ⟨inMounts, stays⟩
    exact (tree.above mount inMounts).without_leaf isLeaf (of_decide_eq_true stays)

end Leaves

theorem Above.mono {more : List (Mount Id Name)} (inside : mounts ⊆ more)
    (above : Above mounts lower upper) : Above more lower upper := by
  induction above with
  | self => exact .self
  | child _ member isChild within induction =>
      exact .child induction (inside member) isChild within

/-- A tree with one more mount, that is attached to one of it, is a tree. -/
theorem IsTree.with_leaf (tree : IsTree mounts root) (lower leaf : Mount Id Name)
    (lowerMember : lower ∈ mounts) (isParent : leaf.parent = lower.id)
    (inside : lower.point <+: leaf.point) (fresh : ∀ mount ∈ mounts, mount.id ≠ leaf.id)
    (notBelow : root.parent ≠ leaf.id) : IsTree (mounts ++ [leaf]) root where
  unique first isFirst second isSecond same := by
    rcases List.mem_append.mp isFirst with old | new <;>
      rcases List.mem_append.mp isSecond with old' | new'
    · exact tree.unique first old second old' same
    · exact absurd (List.mem_singleton.mp new' ▸ same) (fresh first old)
    · exact absurd (List.mem_singleton.mp new ▸ same).symm (fresh second old')
    · rw [List.mem_singleton.mp new, List.mem_singleton.mp new']
  member := List.mem_append_left _ tree.member
  atRoot := tree.atRoot
  parentless mount member := by
    rcases List.mem_append.mp member with old | new
    · exact tree.parentless mount old
    · rw [List.mem_singleton.mp new]
      exact fun isChild => notBelow isChild.1
  above mount member := by
    have more : mounts ⊆ mounts ++ [leaf] := List.subset_append_left _ _
    rcases List.mem_append.mp member with old | new
    · exact (tree.above mount old).mono more
    · rw [List.mem_singleton.mp new]
      exact .child ((tree.above lower lowerMember).mono more)
        (List.mem_append_right _ (List.mem_singleton.mpr rfl))
        ⟨isParent, (fresh lower lowerMember).symm⟩ inside

end Foundation.MountTree
