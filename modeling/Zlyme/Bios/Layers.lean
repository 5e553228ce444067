import Zlyme.Bios.Places

/-! # Trees in layers

What a sequence of links leaves, and the sequences that go through.
-/

namespace Zlyme.Bios

open Foundation

/-! ## What the view has to show -/

/-- A path that is linked, and what it is linked to. -/
abbrev Row := Path × Target

def last (done : List Row) (path : Path) : Option Target :=
  done.reverse.lookup path

/-- The last link of a path, or a directory above one. -/
noncomputable def expected (done : List Row) (path : Path) : Option Entry :=
  open Classical in
  match last done path with
  | some target => some (.link target)
  | none => if ∃ row ∈ done, path <:+ row.1 then some .dir else none

/-- No path is above another one. -/
def Layered (rows : List Row) : Prop :=
  ∀ first ∈ rows, ∀ second ∈ rows, first.1 <:+ second.1 → first.1 = second.1

/-- The path is neither above nor below one of the rows. -/
def Fits (done : List Row) (path : Path) : Prop :=
  ∀ row ∈ done, (row.1 <:+ path → row.1 = path) ∧ (path <:+ row.1 → path = row.1)

/-- The view shows exactly the rows. -/
structure Shows (done : List Row) (view : View) : Prop where
  layered : Layered done
  named : ∀ row ∈ done, row.1 ≠ []
  lookup : ∀ path, path ≠ [] → view.lookup path = expected done path

section Rows

variable {done rows : List Row} {row : Row} {path : Path}

theorem last_append (done : List Row) (row : Row) (path : Path) : last (done ++ [row]) path =
    if path = row.1 then some row.2 else last done path := by
  rw [last, List.reverse_append, List.reverse_singleton, List.singleton_append, List.lookup_cons]
  by_cases same : path = row.1
  · simp [same]
  · rw [if_neg same, beq_false_of_ne same]
    rfl

theorem last_eq_none : last done path = none ↔ ∀ row ∈ done, row.1 ≠ path := by
  rw [last, List.lookup_eq_none_iff]
  constructor
  · intro absent row member same
    exact absurd (absent row (List.mem_reverse.mpr member)) (by simp [same])
  · intro absent row member
    simpa using Ne.symm (absent row (List.mem_reverse.mp member))

theorem expected_of_last {target : Target} (isLast : last done path = some target) :
    expected done path = some (.link target) := by
  rw [expected, isLast]

theorem expected_above (absent : last done path = none) (above : ∃ row ∈ done, path <:+ row.1) :
    expected done path = some .dir := by
  rw [expected, absent]
  exact if_pos above

theorem expected_none (absent : last done path = none) (free : ∀ row ∈ done, ¬path <:+ row.1) :
    expected done path = none := by
  rw [expected, absent]
  exact if_neg fun ⟨row, member, suffix⟩ => free row member suffix

theorem layered_append : Layered (done ++ [row]) ↔ Layered done ∧ Fits done row.1 := by
  constructor
  · intro layered
    refine ⟨fun first isFirst second isSecond =>
      layered first (List.mem_append_left _ isFirst) second (List.mem_append_left _ isSecond),
      fun other member => ?_⟩
    have isOther := List.mem_append_left [row] member
    have isRow := List.mem_append_right done (List.mem_singleton_self row)
    exact ⟨layered other isOther row isRow, layered row isRow other isOther⟩
  · rintro ⟨layered, fits⟩ first isFirst second isSecond suffix
    rcases List.mem_append.mp isFirst with isFirst | isFirst
    · rcases List.mem_append.mp isSecond with isSecond | isSecond
      · exact layered first isFirst second isSecond suffix
      · cases List.mem_singleton.mp isSecond
        exact (fits first isFirst).1 suffix
    · cases List.mem_singleton.mp isFirst
      rcases List.mem_append.mp isSecond with isSecond | isSecond
      · exact (fits second isSecond).2 suffix
      · cases List.mem_singleton.mp isSecond
        rfl

theorem Layered.left (layered : Layered (done ++ rows)) : Layered done :=
  fun first isFirst second isSecond =>
    layered first (List.mem_append_left _ isFirst) second (List.mem_append_left _ isSecond)

end Rows

/-! ## One link -/

section Link

variable {done : List Row} {view after : View} {name : Name} {parent : Path} {target : Target}
  {entry : Entry}

theorem suffix_ne_cons {other : Path} (suffix : other <:+ parent) : other ≠ name :: parent := by
  rintro rfl
  exact absurd suffix.length_le (Nat.not_succ_le_self _)

theorem relink_eq_ok (linked : relink view name parent entry = .ok after) :
    AllDirs view parent ∧ view.lookup (name :: parent) ≠ some .dir ∧
      ∀ other, after.lookup other =
        if other = name :: parent then some entry else view.lookup other := by
  rw [relink] at linked
  split at linked
  · rename_i inDir
    refine ⟨place_eq_dir.mp inDir, ?_⟩
    split at linked
    · rename_i absent
      cases linked
      refine ⟨?_, fun other => lookup_set⟩
      rw [absent]
      exact nofun
    · cases linked
    · rename_i isEntry notDir found
      cases linked
      refine ⟨?_, fun other => lookup_remove_set⟩
      rw [found]
      intro same
      exact notDir (Option.some.inj same)
  · cases linked
  · cases linked
  · cases linked

theorem relink_of_dirs (dirs : AllDirs view parent) (free : view.lookup (name :: parent) ≠ some .dir) :
    ∃ after, relink view name parent entry = .ok after := by
  rw [relink, place_eq_dir.mpr dirs]
  cases found : view.lookup (name :: parent) with
  | none => exact ⟨_, rfl⟩
  | some other =>
      cases other with
      | dir => exact absurd found free
      | link target => exact ⟨_, rfl⟩
      | relative path => exact ⟨_, rfl⟩
      | ready => exact ⟨_, rfl⟩

theorem link_eq_ok : link view (name :: parent) entry = .ok after ↔
    ∃ made, makedirs view parent = .ok made ∧ relink made name parent entry = .ok after :=
  bind_eq_ok

/-- A path that is linked already is not below another one, nor above it. -/
theorem Shows.fits (shows : Shows done view)
    (linked : link view (name :: parent) entry = .ok after) : Fits done (name :: parent) := by
  rcases link_eq_ok.mp linked with ⟨made, isMade, relinked⟩
  rcases relink_eq_ok relinked with ⟨dirs, notDir, _⟩
  intro row member
  rcases Option.ne_none_iff_exists'.mp fun none => last_eq_none.mp none row member rfl with
    ⟨target, isLast⟩
  constructor
  · intro below
    rcases List.suffix_cons_iff.mp below with same | above
    · exact same
    · have there := shows.lookup row.1 (shows.named row member)
      rw [expected_of_last isLast] at there
      have kept := makedirs_keeps isMade there
      rw [dirs row.1 (shows.named row member) above] at kept
      cases kept
  · intro above
    by_contra different
    have absent : last done (name :: parent) = none := by
      rw [last_eq_none]
      rintro other isOther same
      exact different (same ▸ shows.layered other isOther row member (same ▸ above))
    have there := shows.lookup (name :: parent) (List.cons_ne_nil _ _)
    rw [expected_above absent ⟨row, member, above⟩] at there
    exact notDir (makedirs_keeps isMade there)

theorem Shows.clear (shows : Shows done view) (fits : Fits done (name :: parent)) :
    Clear view parent := by
  intro dir nonempty suffix
  have absent : last done dir = none := by
    rw [last_eq_none]
    rintro row member rfl
    exact suffix_ne_cons suffix ((fits row member).1 (suffix.trans (List.suffix_cons _ _)))
  rw [shows.lookup dir nonempty]
  by_cases above : ∃ row ∈ done, dir <:+ row.1
  · exact .inr (expected_above absent above)
  · exact .inl (expected_none absent fun row member suffix => above ⟨row, member, suffix⟩)

/-- A path that fits can be linked, and the view shows it then. -/
theorem Shows.link (shows : Shows done view) (fits : Fits done (name :: parent)) (target : Target) :
    ∃ after, Bios.link view (name :: parent) (.link target) = .ok after ∧
      Shows (done ++ [(name :: parent, target)]) after := by
  rcases makedirs_of_clear (shows.clear fits) with ⟨made, isMade, withDirs⟩
  have same : made.lookup (name :: parent) = expected done (name :: parent) := by
    rw [withDirs, if_neg, shows.lookup _ (List.cons_ne_nil _ _)]
    exact fun inside => suffix_ne_cons inside.2 rfl
  have free : made.lookup (name :: parent) ≠ some .dir := by
    rw [same]
    cases isLast : last done (name :: parent) with
    | some target =>
        rw [expected_of_last isLast]
        exact nofun
    | none =>
        rw [expected_none isLast]
        · exact nofun
        · intro row member above
          exact last_eq_none.mp isLast row member ((fits row member).2 above).symm
  rcases relink_of_dirs withDirs.allDirs free with ⟨after, relinked⟩
  refine ⟨after, link_eq_ok.mpr ⟨made, isMade, relinked⟩,
    layered_append.mpr ⟨shows.layered, fits⟩, ?_, ?_⟩
  · intro row member
    rcases List.mem_append.mp member with old | isNew
    · exact shows.named row old
    · rw [List.mem_singleton.mp isNew]
      exact List.cons_ne_nil _ _
  · intro path nonempty
    rw [(relink_eq_ok relinked).2.2]
    have lastAfter := last_append done (name :: parent, target) path
    by_cases here : path = name :: parent
    · rw [if_pos here] at lastAfter ⊢
      exact (expected_of_last lastAfter).symm
    rw [if_neg here] at lastAfter ⊢
    rw [withDirs]
    by_cases inside : path <:+ parent
    · have above : path <:+ name :: parent := inside.trans (List.suffix_cons _ _)
      have absent : last done path = none := by
        rw [last_eq_none]
        rintro row member rfl
        exact here ((fits row member).1 above)
      rw [if_pos ⟨nonempty, inside⟩, expected_above (lastAfter.trans absent)]
      exact ⟨_, List.mem_append_right _ (List.mem_singleton_self _), above⟩
    · rw [if_neg fun both => inside both.2, shows.lookup path nonempty]
      cases isLast : last done path with
      | some found => rw [expected_of_last isLast, expected_of_last (lastAfter.trans isLast)]
      | none =>
          by_cases above : ∃ row ∈ done, path <:+ row.1
          · rcases above with ⟨row, member, suffix⟩
            rw [expected_above isLast ⟨row, member, suffix⟩, expected_above (lastAfter.trans isLast)
              ⟨row, List.mem_append_left _ member, suffix⟩]
          · rw [expected_none isLast fun row member suffix => above ⟨row, member, suffix⟩,
              expected_none (lastAfter.trans isLast)]
            intro row member suffix
            rcases List.mem_append.mp member with old | isNew
            · exact above ⟨row, old, suffix⟩
            · rw [List.mem_singleton.mp isNew] at suffix
              rcases List.suffix_cons_iff.mp suffix with same | under
              · exact here same
              · exact inside under

end Link

/-! ## All links -/

def addRow (view : View) (row : Row) : Except Fault View :=
  link view row.1 (.link row.2)

section Rows

variable {done rows : List Row} {view after : View}

/-- Rows without a conflict can all be linked. -/
theorem Shows.addRows (shows : Shows done view) (named : ∀ row ∈ rows, row.1 ≠ [])
    (layered : Layered (done ++ rows)) :
    ∃ after, rows.foldlM addRow view = .ok after ∧ Shows (done ++ rows) after := by
  induction rows generalizing done view with
  | nil => exact ⟨view, rfl, (List.append_nil done).symm ▸ shows⟩
  | cons row rest induction =>
      rw [List.forall_mem_cons] at named
      rw [List.append_cons] at layered ⊢
      rcases row with ⟨path, target⟩
      rcases path with _ | ⟨name, parent⟩
      · exact absurd rfl named.1
      rcases shows.link (layered_append.mp layered.left).2 target with ⟨next, linked, showsNext⟩
      rcases induction showsNext named.2 layered with ⟨after, isAfter, showsAfter⟩
      refine ⟨after, ?_, showsAfter⟩
      rw [List.foldlM_cons, addRow, linked]
      exact isAfter

/-- Rows that are all linked have no conflict. -/
theorem Shows.layered_of_addRows (shows : Shows done view) (named : ∀ row ∈ rows, row.1 ≠ [])
    (added : rows.foldlM addRow view = .ok after) : Layered (done ++ rows) := by
  induction rows generalizing done view with
  | nil => exact (List.append_nil done).symm ▸ shows.layered
  | cons row rest induction =>
      rw [List.forall_mem_cons] at named
      rw [List.foldlM_cons, bind_eq_ok] at added
      rcases added with ⟨next, linked, later⟩
      rcases row with ⟨path, target⟩
      rcases path with _ | ⟨name, parent⟩
      · exact absurd rfl named.1
      rcases shows.link (shows.fits linked) target with ⟨other, isOther, showsNext⟩
      cases isOther.symm.trans linked
      rw [List.append_cons]
      exact induction showsNext named.2 later

end Rows

end Zlyme.Bios
