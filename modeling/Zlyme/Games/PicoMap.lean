import Zlyme.Games.DeleteRom

/-! # The titles of the Splore carts

`zlyme-pico-bbs` rewrites the `map.txt` of each Pico-8 folder. It takes out the rows of the
carts that are there now and of those it wrote before, and appends the rows of the carts that
are there now.
-/

namespace Zlyme.Games.PicoMap

open Prefs (Text ascii)

def tab : UInt8 :=
  0x09

/-- The first field of a line. -/
def key (line : Text) : Text :=
  line.takeWhile (· != tab)

structure Cart where
  name : Text
  title : Text

def Cart.row (cart : Cart) : Text :=
  cart.name ++ tab :: cart.title

/-- `$work/rows` -/
def rows (carts : List Cart) : List Text :=
  sortUnique (carts.map Cart.row)

/-! ## The join -/

/-- What `awk` knows between two records. -/
structure Awk where
  nr : Nat
  drop : List Text
  printed : List Text

def Awk.start : Awk where
  nr := 0
  drop := []
  printed := []

/-- The record `fnr` of a file. -/
def Awk.record (awk : Awk) (fnr : Nat) (line : Text) : Awk :=
  let nr := awk.nr + 1
  if nr = fnr then
    if key line = [] then { awk with nr } else { awk with nr, drop := key line :: awk.drop }
  else if key line = [] ∨ key line ∈ awk.drop then { awk with nr }
  else { awk with nr, printed := awk.printed ++ [line] }

/-- The records of a file of which `fnr` are read. -/
def Awk.file (awk : Awk) (fnr : Nat) : List Text → Awk
  | [] => awk
  | line :: rest => (awk.record (fnr + 1) line).file (fnr + 1) rest

/-- The two files of the join in turn. -/
def join (drop map : List Text) : List Text :=
  ((Awk.start.file 0 drop).file 0 map).printed

/-! ## The folders -/

/-- The two lists of a Pico-8 folder, `map.txt` and `.zlyme-bbs-map`. -/
structure Folder where
  map : Option (List Text)
  owned : Option (List Text)
  deriving DecidableEq

/-- One turn of the loop, with what `$work/drop` has at its start. -/
def mergeFolder (rows drop : List Text) (folder : Folder) : Folder :=
  let drop := drop ++ folder.owned.getD []
  let kept :=
    match folder.map with
    | some map => join drop map
    | none => []
  { map := some (kept ++ rows), owned := some (rows.map key) }

/-- The Pico-8 folders that there are. -/
abbrev Disk : Type :=
  Text → Option Folder

def mergeAll (rows : List Text) : (drop dirs : List Text) → Disk → Disk
  | _, [], disk => disk
  | drop, dir :: dirs, disk =>
      match disk dir with
      | none => mergeAll rows drop dirs disk
      | some folder =>
          mergeAll rows (rows.map key) dirs
            (Function.update disk dir (some (mergeFolder rows drop folder)))

/-- A run, with the folders that `each_romdir` prints. -/
def run (carts : List Cart) (dirs : List Text) (disk : Disk) : Disk :=
  mergeAll (rows carts) ((rows carts).map key) dirs disk

/-! ## Whose a row is -/

def Folder.lines (folder : Folder) : List Text :=
  folder.map.getD []

def Folder.ownedKeys (folder : Folder) : List Text :=
  (folder.owned.getD []).map key

/-- The row has a key, which neither a cart has nor a previous run wrote. -/
def Folder.IsUsers (folder : Folder) (rows : List Text) (line : Text) : Prop :=
  key line ≠ [] ∧ key line ∉ rows.map key ∧ key line ∉ folder.ownedKeys

instance (folder : Folder) (rows : List Text) (line : Text) :
    Decidable (folder.IsUsers rows line) :=
  inferInstanceAs (Decidable (_ ∧ _ ∧ _))

def Folder.users (folder : Folder) (rows : List Text) : List Text :=
  folder.lines.filter fun line => folder.IsUsers rows line

/-- What a run owes to a folder. -/
structure Merged (rows : List Text) (before after : Folder) : Prop where
  keeps : (after.lines.filter fun line => before.IsUsers rows line) = before.users rows
  lists : ∀ row ∈ rows, row ∈ after.lines
  drops : ∀ line ∈ after.lines, key line ∈ before.ownedKeys → key line ∈ rows.map key

/-! ## What the join prints -/

theorem key_key (line : Text) : key (key line) = key line := by
  exact List.takeWhile_idem

/-- While `NR` and `FNR` are the same the keys are stored. -/
theorem Awk.file_first (lines : List Text) (awk : Awk) :
    awk.file awk.nr lines = { awk with
      nr := awk.nr + lines.length
      drop := ((lines.map key).filter (· ≠ [])).reverse ++ awk.drop } := by
  induction lines generalizing awk with
  | nil => rfl
  | cons line rest induction =>
      rw [Awk.file]
      by_cases blank : key line = []
      · have stored : awk.record (awk.nr + 1) line = { awk with nr := awk.nr + 1 } := by
          simp only [Awk.record, blank, if_true]
        rw [stored]
        refine (induction { awk with nr := awk.nr + 1 }).trans ?_
        simp [blank, Nat.add_assoc, Nat.add_comm 1]
      · have stored : awk.record (awk.nr + 1) line =
            { awk with nr := awk.nr + 1, drop := key line :: awk.drop } := by
          simp only [Awk.record, blank, if_true, if_false]
        rw [stored]
        refine (induction { awk with nr := awk.nr + 1, drop := key line :: awk.drop }).trans ?_
        simp [blank, Nat.add_assoc, Nat.add_comm 1]

/-- Once `NR` is ahead the rows that are not stored are printed. -/
theorem Awk.file_later (lines : List Text) (awk : Awk) {fnr : Nat} (ahead : fnr < awk.nr) :
    (awk.file fnr lines).printed =
      awk.printed ++ lines.filter fun line => key line ≠ [] ∧ key line ∉ awk.drop := by
  induction lines generalizing awk fnr with
  | nil => rw [Awk.file, List.filter_nil, List.append_nil]
  | cons line rest induction =>
      have apart : awk.nr + 1 ≠ fnr + 1 := by omega
      rw [Awk.file]
      by_cases out : key line = [] ∨ key line ∈ awk.drop
      · have skipped : awk.record (fnr + 1) line = { awk with nr := awk.nr + 1 } := by
          simp only [Awk.record, apart, out, if_true, if_false]
        rw [skipped, induction _ (by simpa using ahead), List.filter_cons_of_neg]
        simpa [Classical.or_iff_not_imp_left] using out
      · have printed : awk.record (fnr + 1) line =
            { awk with nr := awk.nr + 1, printed := awk.printed ++ [line] } := by
          simp only [Awk.record, apart, out, if_false]
        rw [printed, induction _ (by simpa using ahead), List.filter_cons_of_pos]
        · simp
        · simpa [not_or] using out

/-- The join is the difference, but for an empty first file: then the rows of the second one
are stored and nothing is printed. -/
theorem join_eq (drop map : List Text) :
    join drop map =
      if drop = [] then []
      else map.filter fun line => key line ≠ [] ∧ key line ∉ drop.map key := by
  rw [join]
  by_cases empty : drop = []
  · have stored := Awk.start.file_first map
    rw [if_pos empty, empty]
    exact congrArg Awk.printed stored
  · have ahead : 0 < drop.length := List.length_pos_iff.mpr empty
    rw [if_neg empty]
    have stored : Awk.start.file 0 drop = _ := Awk.start.file_first drop
    rw [stored, Awk.file_later]
    · simp only [Awk.start, List.nil_append, List.append_nil, List.mem_reverse]
      refine List.filter_congr fun line _ => ?_
      have found : key line ≠ [] →
          (key line ∈ (drop.map key).filter (· ≠ []) ↔ key line ∈ drop.map key) := by
        intro named
        simp [named]
      by_cases blank : key line = []
      · simp [blank]
      · simp only [found blank]
    · simpa [Awk.start] using ahead

/-! ## One turn -/

theorem rows_eq_nil_iff {carts : List Cart} : rows carts = [] ↔ carts = [] := by
  constructor
  · intro none'
    rcases carts with _ | ⟨cart, carts⟩
    · rfl
    · have member : cart.row ∈ rows (cart :: carts) := mem_sortUnique.mpr (by simp)
      rw [none'] at member
      exact absurd member List.not_mem_nil
  · rintro rfl
    rfl

/-- A turn of the loop, which finds the keys of the carts in `$work/drop`. -/
def merge (rows : List Text) (folder : Folder) : Folder :=
  mergeFolder rows (rows.map key) folder

section Turn

variable (rows : List Text) (folder : Folder)

@[simp] theorem merge_owned : (merge rows folder).owned = some (rows.map key) := rfl

@[simp] theorem ownedKeys_merge : (merge rows folder).ownedKeys = rows.map key := by
  rw [Folder.ownedKeys, merge_owned, Option.getD_some, List.map_map]
  exact List.map_congr_left fun row _ => key_key row

/-- With something to drop the turn keeps the rows of the user. -/
theorem lines_merge : (merge rows folder).lines =
    (if rows = [] ∧ folder.ownedKeys = [] then [] else folder.users rows) ++ rows := by
  have joined (map : List Text) : join (rows.map key ++ folder.owned.getD []) map =
      if rows = [] ∧ folder.ownedKeys = [] then []
      else map.filter fun line => folder.IsUsers rows line := by
    have keys : (rows.map key ++ folder.owned.getD []).map key =
        rows.map key ++ folder.ownedKeys := by
      rw [List.map_append, List.map_map, Folder.ownedKeys]
      congr 1
      exact List.map_congr_left fun row _ => key_key row
    rw [join_eq, keys]
    simp only [List.append_eq_nil_iff, List.map_eq_nil_iff, Folder.ownedKeys]
    split
    · rfl
    · refine List.filter_congr fun line _ => ?_
      simp [Folder.IsUsers, Folder.ownedKeys, not_or]
  rw [merge, mergeFolder, Folder.lines, Folder.users, Folder.lines]
  cases folder.map with
  | none => simp
  | some map => simp only [joined, Option.getD_some]

/-- The row of a cart is no row of the user. -/
theorem users_of_lines {after : Folder} {users : List Text}
    (lines : after.lines = users ++ rows) (kept : ∀ line ∈ users, folder.IsUsers rows line) :
    (after.lines.filter fun line => folder.IsUsers rows line) = users := by
  have carts : (rows.filter fun line => folder.IsUsers rows line) = [] := by
    refine List.filter_eq_nil_iff.mpr fun row member users => ?_
    exact (of_decide_eq_true users).2.1 (List.mem_map_of_mem member)
  have all : (users.filter fun line => folder.IsUsers rows line) = users :=
    List.filter_eq_self.mpr fun line member => decide_eq_true (kept line member)
  rw [lines, List.filter_append, carts, all, List.append_nil]

theorem isUsers_of_mem {line : Text} (member : line ∈ folder.users rows) :
    folder.IsUsers rows line :=
  of_decide_eq_true (List.mem_filter.mp member).2

section Kept

variable {rows folder} (safe : rows = [] → folder.users rows = [])

include safe

theorem lines_merge_of_safe : (merge rows folder).lines = folder.users rows ++ rows := by
  rw [lines_merge]
  split
  · rename_i nothing
    rw [safe nothing.1]
  · rfl

theorem merged_merge : Merged rows folder (merge rows folder) where
  keeps := users_of_lines rows folder (lines_merge_of_safe safe) fun _ =>
    isUsers_of_mem rows folder
  lists row member := by
    rw [lines_merge_of_safe safe]
    exact List.mem_append_right _ member
  drops line member stale := by
    rw [lines_merge_of_safe safe, List.mem_append] at member
    rcases member with users | cart
    · exact absurd stale (isUsers_of_mem rows folder users).2.2
    · exact List.mem_map_of_mem cart

/-- A second turn finds the rows of the user, and the rows that the first one wrote. -/
theorem merge_merge : merge rows (merge rows folder) = merge rows folder := by
  have again : (merge rows folder).users rows = folder.users rows := by
    have kept (line : Text) (member : line ∈ folder.users rows) :
        (merge rows folder).IsUsers rows line := by
      have users := isUsers_of_mem rows folder member
      exact ⟨users.1, users.2.1, ownedKeys_merge rows folder ▸ users.2.1⟩
    exact users_of_lines rows (merge rows folder) (lines_merge_of_safe safe) kept
  have lines : (merge rows (merge rows folder)).lines = (merge rows folder).lines := by
    rw [lines_merge_of_safe (fun none' => again.trans (safe none')), again,
      lines_merge_of_safe safe]
  have mapOf (before : Folder) : (merge rows before).map = some (merge rows before).lines := rfl
  have maps : (merge rows (merge rows folder)).map = (merge rows folder).map := by
    rw [mapOf, mapOf, lines]
  rw [Folder.mk.injEq]
  exact ⟨maps, rfl⟩

theorem iterate_merge {count : Nat} (some' : count ≠ 0) :
    (merge rows)^[count] folder = merge rows folder := by
  rcases count with _ | count
  · exact absurd rfl some'
  · rw [Function.iterate_succ_apply]
    exact Function.iterate_fixed (merge_merge safe) count

end Kept

/-- Without carts the second turn empties the map. -/
theorem lines_merge_twice : (merge [] (merge [] folder)).lines = [] := by
  rw [lines_merge, if_pos ⟨rfl, ownedKeys_merge [] folder⟩, List.append_nil]

/-! ## A run -/

/-- A folder takes as many turns as the list names it. -/
theorem mergeAll_apply (dirs : List Text) (disk : Disk) (dir : Text) :
    mergeAll rows (rows.map key) dirs disk dir =
      (disk dir).map (merge rows)^[dirs.count dir] := by
  induction dirs generalizing disk with
  | nil => simp [mergeAll]
  | cons next dirs induction =>
      rw [mergeAll, List.count_cons]
      by_cases same : next = dir
      · subst same
        cases found : disk next with
        | none => simp [induction, found]
        | some folder =>
            simp only [induction, Function.update_self, beq_self_eq_true, if_true,
              Option.map_some, Function.iterate_succ_apply]
            rfl
      · have other : (next == dir) = false := beq_false_of_ne same
        cases found : disk next with
        | none => simp [induction, other]
        | some folder => simp [induction, other, Function.update_of_ne (Ne.symm same)]

end Turn

/-- A run keeps the rows of the user, writes the rows of the carts, takes out the rows of the
carts that are gone and is settled, in every folder, exactly when there is a cart or there is
no row of the user. -/
theorem run_merges_iff (carts : List Cart) (dirs : List Text) (disk : Disk) :
    (∀ dir ∈ dirs, ∀ folder, disk dir = some folder →
      ∃ after, run carts dirs disk dir = some after ∧ Merged (rows carts) folder after ∧
        run carts dirs (run carts dirs disk) dir = some after) ↔
    (carts = [] → ∀ dir ∈ dirs, ∀ folder, disk dir = some folder →
      folder.users (rows carts) = []) := by
  constructor
  · rintro merged rfl dir member folder found
    rcases merged dir member folder found with ⟨after, first, owed, second⟩
    have turns : 0 < dirs.count dir := List.count_pos_iff.mpr member
    have settled : (merge [])^[dirs.count dir + dirs.count dir] folder = after := by
      rw [run, mergeAll_apply, first, Option.map_some, Option.some_inj] at second
      rw [run, mergeAll_apply, found, Option.map_some, Option.some_inj] at first
      rw [Function.iterate_add_apply]
      exact first.symm ▸ second
    have emptied : after.lines = [] := by
      obtain ⟨turns', both⟩ : ∃ turns', dirs.count dir + dirs.count dir = turns' + 2 :=
        ⟨dirs.count dir + dirs.count dir - 2, by omega⟩
      rw [← settled, both, Nat.add_comm, Function.iterate_add_apply]
      exact lines_merge_twice _
    have keeps := owed.keeps
    rw [emptied, List.filter_nil] at keeps
    exact keeps.symm
  · intro safe dir member folder found
    have safe' : rows carts = [] → folder.users (rows carts) = [] := fun none' =>
      safe (rows_eq_nil_iff.mp none') dir member folder found
    have turns : dirs.count dir ≠ 0 := (List.count_pos_iff.mpr member).ne'
    have first : run carts dirs disk dir = some (merge (rows carts) folder) := by
      rw [run, mergeAll_apply, found, Option.map_some, iterate_merge safe' turns]
    refine ⟨merge (rows carts) folder, first, merged_merge safe', ?_⟩
    rw [run, mergeAll_apply, first, Option.map_some, Function.iterate_fixed (merge_merge safe')]

/-- A folder with a row of the user, and no carts. -/
def own : Folder where
  map := some [ascii "MyGame.p8\tMine"]
  owned := none

/-- Without carts and with nothing owned the row of the user is gone. -/
theorem own_row_is_lost :
    own.users (rows []) = [ascii "MyGame.p8\tMine"] ∧
      run [] [ascii "Pico-8 (PICO)"] (fun _ => some own) (ascii "Pico-8 (PICO)") =
        some { map := some [], owned := some [] } := by
  decide +kernel

end Zlyme.Games.PicoMap
