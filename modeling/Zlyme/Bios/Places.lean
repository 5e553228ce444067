import Mathlib.Data.List.Infix
import Zlyme.Bios.Union

/-! # One link

When a path can be linked into a view, and what the view is then.
-/

namespace Zlyme.Bios

open Foundation

/-! ## Entries -/

section Entries

variable {view : View} {path other : Path} {entry : Entry}

theorem lookup_set :
    (view.set path entry).lookup other = if other = path then some entry else view.lookup other := by
  rw [View.set, List.lookup_cons]
  by_cases same : other = path
  · simp [same]
  · rw [if_neg same, beq_false_of_ne same]

theorem lookup_remove (different : other ≠ path) :
    (view.remove path).lookup other = view.lookup other := by
  induction view with
  | nil => rfl
  | cons row rest induction =>
      rcases row with ⟨key, value⟩
      rw [View.remove] at induction ⊢
      by_cases removed : key = path
      · have skipped : (other == key) = false := by simpa [removed] using different
        rw [List.filter_cons_of_neg (by simp [removed]), induction, List.lookup_cons, skipped]
      · rw [List.filter_cons_of_pos (by simp [removed]), List.lookup_cons, List.lookup_cons,
          induction]

theorem lookup_remove_set :
    ((view.remove path).set path entry).lookup other =
      if other = path then some entry else view.lookup other := by
  rw [lookup_set]
  split
  · rfl
  · rename_i different
    exact lookup_remove different

end Entries

/-! ## Directories of the view -/

section Places

variable {view : View} {path : Path}

/-- All of the path's directories are directories of the view. -/
def AllDirs (view : View) (path : Path) : Prop :=
  ∀ dir, dir ≠ [] → dir <:+ path → view.lookup dir = some .dir

theorem AllDirs.parent {name : Name} {parent : Path} (dirs : AllDirs view (name :: parent)) :
    AllDirs view parent :=
  fun dir nonempty suffix => dirs dir nonempty (suffix.trans (List.suffix_cons name parent))

theorem allDirs_cons {name : Name} {parent : Path} : AllDirs view (name :: parent) ↔
    AllDirs view parent ∧ view.lookup (name :: parent) = some .dir := by
  constructor
  · exact fun dirs => ⟨dirs.parent, dirs _ (List.cons_ne_nil _ _) (List.suffix_refl _)⟩
  · rintro ⟨dirs, here⟩ dir nonempty suffix
    rcases List.suffix_cons_iff.mp suffix with rfl | above
    · exact here
    · exact dirs dir nonempty above

theorem place_eq_dir : place view path = .dir ↔ AllDirs view path := by
  induction path with
  | nil => exact iff_of_true rfl fun dir nonempty suffix => absurd (List.suffix_nil.mp suffix) nonempty
  | cons name parent induction =>
      rw [allDirs_cons, ← induction, place]
      cases place view parent with
      | dir =>
          rw [and_iff_right rfl]
          rcases view.lookup (name :: parent) with _ | entry
          · simp
          · cases entry with
            | dir => simp
            | link target => cases isDir : target.isDir <;> simp [isDir]
            | relative path => simp
            | ready => simp
      | outside => simp
      | other => simp
      | missing => simp

/-- There is nothing on the path but directories of the view. -/
def Clear (view : View) (path : Path) : Prop :=
  ∀ dir, dir ≠ [] → dir <:+ path → view.lookup dir = none ∨ view.lookup dir = some .dir

theorem Clear.parent {name : Name} {parent : Path} (clear : Clear view (name :: parent)) :
    Clear view parent :=
  fun dir nonempty suffix => clear dir nonempty (suffix.trans (List.suffix_cons name parent))

theorem Clear.place (clear : Clear view path) :
    Bios.place view path = .dir ∨ Bios.place view path = .missing := by
  induction path with
  | nil => exact .inl rfl
  | cons name parent induction =>
      rw [Bios.place]
      rcases induction clear.parent with dir | missing
      · rw [dir]
        rcases clear _ (List.cons_ne_nil name parent) (List.suffix_refl _) with none | isDir
        · rw [none]
          exact .inr rfl
        · rw [isDir]
          exact .inl rfl
      · rw [missing]
        exact .inr rfl

end Places

/-! ## Making directories -/

/-- The view with the directories of a path. -/
def WithDirs (view : View) (path : Path) (made : View) : Prop :=
  ∀ other, made.lookup other = if other ≠ [] ∧ other <:+ path then some .dir else view.lookup other

theorem WithDirs.allDirs {view made : View} {path : Path} (withDirs : WithDirs view path made) :
    AllDirs made path := by
  intro dir nonempty suffix
  rw [withDirs, if_pos ⟨nonempty, suffix⟩]

theorem withDirs_self {view : View} {path : Path} (dirs : AllDirs view path) :
    WithDirs view path view := by
  intro other
  split
  · rename_i inside
    exact dirs other inside.1 inside.2
  · rfl

/-- `mkdir` in a directory of the view adds at most its own entry. -/
theorem mkdir_of_dir {view : View} {name : Name} {parent : Path} (dirs : AllDirs view parent)
    (free : view.lookup (name :: parent) = none ∨ view.lookup (name :: parent) = some .dir) :
    ∃ made, mkdir view name parent = .ok made ∧ WithDirs view (name :: parent) made := by
  have inDir := place_eq_dir.mpr dirs
  rw [mkdir, inDir, place, inDir]
  rcases free with none | isDir
  · rw [none]
    refine ⟨_, rfl, fun other => ?_⟩
    rw [lookup_set]
    by_cases here : other = name :: parent
    · rw [if_pos here, if_pos ⟨by rw [here]; exact List.cons_ne_nil _ _, by rw [here]⟩]
    · rw [if_neg here]
      split
      · rename_i inside
        rcases List.suffix_cons_iff.mp inside.2 with same | above
        · exact absurd same here
        · exact dirs other inside.1 above
      · rfl
  · rw [isDir]
    exact ⟨view, rfl, withDirs_self (allDirs_cons.mpr ⟨dirs, isDir⟩)⟩

theorem makedirs_of_clear {view : View} {path : Path} (clear : Clear view path) :
    ∃ made, makedirs view path = .ok made ∧ WithDirs view path made := by
  induction path with
  | nil => exact ⟨view, rfl, withDirs_self fun dir nonempty suffix =>
      absurd (List.suffix_nil.mp suffix) nonempty⟩
  | cons name parent induction =>
      have free := clear _ (List.cons_ne_nil name parent) (List.suffix_refl _)
      rw [makedirs]
      rcases clear.parent.place with dir | missing
      · rw [dir]
        exact mkdir_of_dir (place_eq_dir.mp dir) free
      · rw [missing]
        rcases induction clear.parent with ⟨made, isMade, withDirs⟩
        rw [isMade]
        have same : made.lookup (name :: parent) = view.lookup (name :: parent) := by
          rw [withDirs, if_neg]
          rintro ⟨_, suffix⟩
          exact absurd suffix.length_le (Nat.not_succ_le_self _)
        rcases mkdir_of_dir withDirs.allDirs (by rw [same]; exact free) with ⟨last, isLast, lastDirs⟩
        refine ⟨last, isLast, fun other => ?_⟩
        rw [lastDirs, withDirs]
        by_cases above : other ≠ [] ∧ other <:+ parent
        · have inside : other ≠ [] ∧ other <:+ name :: parent :=
            ⟨above.1, above.2.trans (List.suffix_cons name parent)⟩
          rw [if_pos above, if_pos inside, if_pos inside]
        · rw [if_neg above]

/-- `mkdir` and `makedirs` keep what is there. -/
theorem mkdir_keeps {view made : View} {name : Name} {parent other : Path} {entry : Entry}
    (isMade : mkdir view name parent = .ok made) (there : view.lookup other = some entry) :
    made.lookup other = some entry := by
  rw [mkdir] at isMade
  split at isMade
  · rename_i inDir
    split at isMade
    · rename_i missing
      cases isMade
      rw [lookup_set, if_neg]
      · exact there
      · rintro rfl
        rw [place, inDir, there] at missing
        cases entry with
        | dir => cases missing
        | link target => cases isDir : target.isDir <;> simp [isDir] at missing
        | relative path => cases missing
        | ready => cases missing
    · cases isMade
      exact there
    · cases isMade
      exact there
    · cases isMade
  · cases isMade
  · cases isMade
  · cases isMade

theorem makedirs_keeps {view made : View} {path other : Path} {entry : Entry}
    (isMade : makedirs view path = .ok made) (there : view.lookup other = some entry) :
    made.lookup other = some entry := by
  induction path generalizing made with
  | nil =>
      cases isMade
      exact there
  | cons name parent induction =>
      rw [makedirs] at isMade
      split at isMade
      · split at isMade
        · rename_i between isBetween
          exact mkdir_keeps isMade (induction isBetween)
        · cases isMade
      · exact mkdir_keeps isMade there

end Zlyme.Bios
