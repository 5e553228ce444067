import Zlyme.Portmaster.Sweeps

/-! # The mount table with one more mount

A bind adds one mount to the table. What is visible stays visible, unless the new mount is on
the way to it.
-/

namespace Zlyme.Portmaster

open Foundation Foundation.Text Foundation.KeyedRows Foundation.MountTree

/-- The mount that is new, where two spaces differ in nothing else. -/
def Space.attached (space next : Space) : Option (Mount Text Text) :=
  (next.mounts.find? fun mount => !space.ids.contains mount.id).filter fun mount =>
    next.root = space.root ∧ (next.mounts.filter fun other => other.id ≠ mount.id) = space.mounts

structure Space.Attaches (space next : Space) (mount : Mount Text Text) : Prop where
  member : mount ∈ next.mounts
  fresh : mount.id ∉ space.ids
  root : next.root = space.root
  others : (next.mounts.filter fun other => other.id ≠ mount.id) = space.mounts

theorem Space.attaches_of_attached {space next : Space} {mount : Mount Text Text}
    (isNew : space.attached next = some mount) : space.Attaches next mount := by
  rcases Option.filter_eq_some_iff.mp isNew with ⟨found, same⟩
  have fresh := List.find?_some found
  simp only [decide_eq_true_eq] at same
  exact ⟨List.mem_of_find?_eq_some found, by simpa using fresh, same.1, same.2⟩

/-- The ids of a mount table are numbers. -/
theorem Space.isNumber_of_mem {space : Space} {id : Text} (member : id ∈ space.ids) :
    isNumber id = true := by
  rcases List.mem_map.mp member with ⟨mount, isMount, rfl⟩
  apply Table.read_numbers space.mountinfo (Row.of mount)
  exact space.describes.mem_rows.mpr ⟨mount, isMount, rfl⟩

namespace Space.Attaches

variable {space next : Space} {mount : Mount Text Text} (attaches : space.Attaches next mount)

include attaches

theorem mem_ids {id : Text} : id ∈ next.ids ↔ id ∈ space.ids ∨ id = mount.id := by
  constructor
  · intro member
    rcases List.mem_map.mp member with ⟨other, isOther, rfl⟩
    by_cases same : other.id = mount.id
    · exact .inr same
    · left
      rw [Space.ids, ← attaches.others]
      exact List.mem_map_of_mem (List.mem_filter.mpr ⟨isOther, decide_eq_true same⟩)
  · rintro (member | rfl)
    · rcases List.mem_map.mp member with ⟨other, isOther, rfl⟩
      rw [← attaches.others] at isOther
      exact List.mem_map_of_mem (List.mem_of_mem_filter isOther)
    · exact List.mem_map_of_mem attaches.member

theorem table : next.table.without mount.id = space.table := by
  have rows : (next.table.without mount.id).rows = space.table.rows := by
    rw [Table.without, Space.table, Space.table, next.describes.rows, space.describes.rows,
      ← attaches.others, List.filter_map]
    rfl
  have bad : (next.table.without mount.id).bad = space.table.bad :=
    next.describes.good.trans space.describes.good.symm
  cases same : next.table.without mount.id
  cases other : space.table
  rw [same, other] at rows bad
  exact congrArg₂ Table.mk rows bad

theorem of_row {row : Row} (member : row ∈ next.table.rows) (isId : row.id = mount.id) :
    row.point = render mount.point := by
  rcases next.describes.mem_rows.mp member with ⟨other, isOther, rfl⟩
  rw [next.describes.tree.unique other isOther mount attaches.member isId]
  rfl

/-- Nothing is attached to the new mount. -/
theorem leaf : next.table.bears mount.id = false := by
  apply Table.bears_eq_false.mpr
  intro row member isParent
  rcases next.describes.mem_rows.mp member with ⟨other, isOther, rfl⟩
  by_contra differs
  have old : other ∈ space.mounts := by
    rw [← attaches.others]
    exact List.mem_filter.mpr ⟨isOther, decide_eq_true differs⟩
  cases space.describes.tree.above other old with
  | self =>
      apply next.describes.tree.parentless mount attaches.member
      rw [attaches.root]
      exact ⟨isParent, differs⟩
  | @child between _ above _ isChild _ =>
      apply attaches.fresh
      rw [← isParent, show (Row.of other).parent = between.id from isChild.1]
      exact List.mem_map_of_mem (above.mem space.describes.tree.member)

/-- A mount stays visible, where the new one is neither at its path nor above it. -/
theorem shown {id norm : Text} (differs : render mount.point ≠ norm)
    (apart : isPrefix (render mount.point) norm = false) (shown : space.table.Shown id norm) :
    next.table.Shown id norm := by
  have old : id ∈ space.ids := by
    apply Space.mem_ids_iff_point.mpr
    rw [(Table.shown_iff.mp shown).2.1]
    exact nofun
  rw [← attaches.table] at shown
  refine shown.of_without attaches.leaf (fun same => attaches.fresh (same ▸ old)) ?_
  intro row member isId
  rw [attaches.of_row member isId]
  exact ⟨differs, apart⟩

theorem idsAt_elsewhere {path : Text} (differs : render mount.point ≠ path) :
    next.table.idsAt path = space.table.idsAt path := by
  rw [← attaches.table]
  apply Eq.symm
  apply Table.idsAt_without
  intro row member isId
  rw [attaches.of_row member isId]
  exact differs

theorem idsAt_here (empty : space.table.idsAt (render mount.point) = []) :
    next.table.idsAt (render mount.point) = [mount.id] := by
  have distinct : (next.table.idsAt (render mount.point)).Nodup :=
    (Table.read_distinct next.mountinfo).sublist (List.filter_sublist.map Row.id)
  apply List.perm_singleton.mp
  apply (List.perm_ext_iff_of_nodup distinct (List.nodup_singleton _)).mpr
  intro id
  rw [List.mem_singleton]
  constructor
  · intro member
    by_contra differs
    rcases Table.mem_idsAt.mp member with ⟨row, inRows, point, rfl⟩
    have old : row.id ∈ space.table.idsAt (render mount.point) := by
      rw [← attaches.table]
      exact Table.mem_idsAt.mpr
        ⟨row, List.mem_filter.mpr ⟨inRows, decide_eq_true differs⟩, point, rfl⟩
    rw [empty] at old
    cases old
  · rintro rfl
    exact next.mem_idsAt.mpr ⟨mount, attaches.member, rfl, rfl⟩

end Space.Attaches

end Zlyme.Portmaster
