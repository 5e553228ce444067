import Zlyme.Storage.Libraries

/-! # The library list is exact

What every command leaves in the file, and the volumes it does not see.
-/

namespace Zlyme.Storage

open Foundation Foundation.Decimal Foundation.Text Foundation.Execution
open Portmaster (Text ascii decode)

/-! ## The decoder -/

theorem decode_cons {byte : UInt8} (other : byte ≠ Portmaster.backslash) (rest : Text) :
    decode (byte :: rest) = byte :: decode rest := by
  rcases rest with _ | ⟨a, _ | ⟨b, _ | ⟨c, rest⟩⟩⟩
  · rfl
  · rfl
  · rfl
  · rw [decode, if_neg fun escape => other escape.1]

theorem decode_escape {a b c : UInt8}
    (octal : Portmaster.isOctal a ∧ Portmaster.isOctal b ∧ Portmaster.isOctal c) (rest : Text) :
    decode (Portmaster.backslash :: a :: b :: c :: rest) =
      UInt8.ofNat (digitValue a * 64 + digitValue b * 8 + digitValue c) :: decode rest := by
  rw [decode, if_pos ⟨rfl, octal⟩]

theorem decode_mangleByte (byte : UInt8) (rest : Text) :
    decode (mangleByte byte ++ rest) = byte :: decode rest := by
  rw [mangleByte]
  split_ifs with space tab newline backslash hash
  · exact space ▸ decode_escape (by decide) rest
  · exact tab ▸ decode_escape (by decide) rest
  · exact newline ▸ decode_escape (by decide) rest
  · exact backslash ▸ decode_escape (by decide) rest
  · exact hash ▸ decode_escape (by decide) rest
  · exact decode_cons backslash rest

/-- What the kernel prints for a field is read back. -/
@[simp] theorem decode_mangle (field : Text) : decode (mangle field) = field := by
  induction field with
  | nil => rfl
  | cons byte rest induction =>
      rw [mangle, List.flatMap_cons, decode_mangleByte]
      exact congrArg (byte :: ·) induction

/-! ## Mounts -/

def Mounted (mounts : List Mount) (path : Text) : Prop :=
  ∃ mount ∈ mounts, mount.path = path

def atPath (mounts : List Mount) (path : Text) : List Mount :=
  mounts.filter fun mount => mount.path = path

@[simp] theorem mountsHas_iff {mounts : List Mount} {path : Text} :
    mountsHas mounts path = true ↔ Mounted mounts path := by
  simp [mountsHas, Mounted, Mount.shownPath]

theorem mounted_iff_atPath {mounts : List Mount} {path : Text} :
    Mounted mounts path ↔ atPath mounts path ≠ [] := by
  simp [Mounted, atPath, List.filter_eq_nil_iff]

theorem topAt_eq_none {mounts : List Mount} {path : Text} :
    topAt mounts path = none ↔ ¬Mounted mounts path := by
  simp [topAt, Mounted]

theorem detach_of_not_mounted {mounts : List Mount} {path : Text}
    (free : ¬Mounted mounts path) : detach mounts path = mounts := by
  have unmatched : ∀ mount ∈ mounts.reverse, ¬(decide (mount.path = path) = true) := by
    intro mount member isThere
    exact free ⟨mount, List.mem_reverse.mp member, of_decide_eq_true isThere⟩
  rw [detach, List.eraseP_of_forall_not unmatched, List.reverse_reverse]

/-- One mount less at the path, and the others as they were. -/
theorem atPath_detach (mounts : List Mount) (path other : Text) :
    (atPath (detach mounts path) other).length =
      (atPath mounts other).length - if other = path then 1 else 0 := by
  by_cases mounted : Mounted mounts path
  · rcases Option.ne_none_iff_exists'.mp (fun none => topAt_eq_none.mp none mounted) with
      ⟨mount, top⟩
    have here : mount.path = path := by simpa using List.find?_some top
    rcases detach_spec top with ⟨front, back, split, detached⟩
    rw [detached, split, atPath, atPath, List.filter_append, List.filter_append, List.filter_cons,
      List.length_append, List.length_append]
    by_cases same : other = path
    · subst same
      rw [if_pos (decide_eq_true here), if_pos rfl, List.length_cons]
      omega
    · rw [if_neg (by simpa [here] using Ne.symm same), if_neg same]
      omega
  · rw [detach_of_not_mounted mounted]
    split
    · rename_i same
      subst same
      have none : atPath mounts other = [] := by
        by_contra some
        exact mounted (mounted_iff_atPath.mpr some)
      rw [none]
      rfl
    · rfl

theorem mem_of_mem_detach {mounts : List Mount} {path : Text} {mount : Mount}
    (member : mount ∈ detach mounts path) : mount ∈ mounts := by
  rw [detach, List.mem_reverse] at member
  exact List.mem_reverse.mp (List.mem_of_mem_eraseP member)

theorem Mounted.of_detach {mounts : List Mount} {path other : Text}
    (mounted : Mounted (detach mounts path) other) : Mounted mounts other := by
  rcases mounted with ⟨mount, member, isThere⟩
  exact ⟨mount, mem_of_mem_detach member, isThere⟩

/-! ## Places -/

/-- The name of one child of `$MEDIA`. -/
def IsName (name : Text) : Prop :=
  name ≠ [] ∧ 0x2f ∉ name

/-- Where the script mounts volumes. -/
def IsPlace (path : Text) : Prop :=
  path = sd2 ∨ ∃ name, IsName name ∧ path = childPath name

theorem childPath_injective {name other : Text} (same : childPath name = childPath other) :
    name = other :=
  (List.cons.inj (List.append_cancel_left same)).2

theorem childPath_ne_sd2 (name : Text) : childPath name ≠ sd2 := by
  intro same
  have start : ascii "/mnt/med" = ascii "/mnt/sd2" := congrArg (List.take 8) same
  exact absurd start (by decide)

theorem childPath_ne_storageDir (name : Text) : childPath name ≠ storageDir := by
  intro same
  have start : ascii "/m" = ascii "/s" := congrArg (List.take 2) same
  exact absurd start (by decide)

theorem childPath_unbroken {name : Text} (unbroken : 0x0a ∉ name) : 0x0a ∉ childPath name := by
  rw [childPath, List.mem_append, List.mem_cons, not_or, not_or]
  exact ⟨by decide, by decide, unbroken⟩

/-- What holds of the mounts and directories at any time. -/
structure Library.Ok (library : Library) : Prop where
  distinct : library.entries.Nodup
  named : ∀ name ∈ library.entries, IsName name
  single : ∀ path, IsPlace path → (atPath library.mounts path).length ≤ 1
  entered : ∀ name, IsName name → Mounted library.mounts (childPath name) →
    name ∈ library.entries ∧ 0x0a ∉ name
  owned : ∀ mount ∈ library.mounts, IsPlace mount.path → mount.source ≠ []

/-- No volume is mounted under a name that `*` leaves out. -/
def Library.AllShown (library : Library) : Prop :=
  ∀ name, IsName name → Mounted library.mounts (childPath name) → name.head? ≠ some 0x2e

/-- The places that the file has to list. -/
def Library.Listed (library : Library) (path : Text) : Prop :=
  path = storageDir ∨ (IsPlace path ∧ Mounted library.mounts path)

/-- The lines of the file are the places, each of them once. -/
def Library.Exact (library : Library) : Prop :=
  ∃ file, library.file = some file ∧ (Foundation.Text.lines (· == 0x0a) file).Nodup ∧
    ∀ path, path ∈ Foundation.Text.lines (· == 0x0a) file ↔ library.Listed path

/-! ## The written file -/

theorem mem_glob {entries : List Text} {name : Text} :
    name ∈ glob entries ↔ name ∈ entries ∧ name.head? ≠ some 0x2e := by
  simp [glob, List.mem_insertionSort]

theorem glob_nodup {entries : List Text} (distinct : entries.Nodup) : (glob entries).Nodup :=
  (List.perm_insertionSort _ _).nodup_iff.mpr (distinct.filter _)

theorem Library.mem_lines {library : Library} {path : Text} :
    path ∈ library.lines ↔ path = storageDir ∨ (path = sd2 ∧ Mounted library.mounts sd2) ∨
      ∃ name, name ∈ library.entries ∧ name.head? ≠ some 0x2e ∧ path = childPath name ∧
        Mounted library.mounts path := by
  rw [Library.lines, List.cons_append, List.mem_cons, List.mem_append, List.mem_filter,
    List.mem_map]
  refine or_congr_right (or_congr ?_ ?_)
  · split
    · rename_i mounted
      simp [mountsHas_iff.mp mounted]
    · rename_i unmounted
      simp [mt mountsHas_iff.mpr unmounted]
  · rw [mountsHas_iff]
    constructor
    · rintro ⟨⟨name, inGlob, rfl⟩, mounted⟩
      exact ⟨name, (mem_glob.mp inGlob).1, (mem_glob.mp inGlob).2, rfl, mounted⟩
    · rintro ⟨name, member, shown, rfl, mounted⟩
      exact ⟨⟨name, mem_glob.mpr ⟨member, shown⟩, rfl⟩, mounted⟩

section Written

variable {library : Library} (ok : library.Ok)

include ok

theorem lines_unbroken : ∀ line ∈ library.lines, ∀ byte ∈ line, (byte == 0x0a) = false := by
  intro line member byte inside
  refine beq_false_of_ne ?_
  rintro rfl
  rcases Library.mem_lines.mp member with rfl | ⟨rfl, mounted⟩ | ⟨name, entry, shown, rfl, mounted⟩
  · exact absurd inside (by decide)
  · exact absurd inside (by decide)
  · exact childPath_unbroken (ok.entered name (ok.named name entry) mounted).2 inside

theorem lines_nodup : library.lines.Nodup := by
  have children : ((glob library.entries).map childPath).Nodup :=
    (glob_nodup ok.distinct).map fun _ _ => childPath_injective
  rw [Library.lines, List.cons_append, List.nodup_cons, List.nodup_append]
  refine ⟨?_, ?_, children.filter _, ?_⟩
  · rw [List.mem_append, List.mem_filter, List.mem_map]
    rintro (inSd2 | ⟨⟨name, inGlob, same⟩, mounted⟩)
    · split at inSd2
      · exact absurd (List.mem_singleton.mp inSd2) (by decide)
      · cases inSd2
    · exact childPath_ne_storageDir name same
  · split
    · exact List.nodup_singleton sd2
    · exact List.nodup_nil
  · intro path inSd2 other member
    rcases List.mem_map.mp (List.mem_filter.mp member).1 with ⟨name, inGlob, rfl⟩
    split at inSd2
    · cases List.mem_singleton.mp inSd2
      exact (childPath_ne_sd2 name).symm
    · cases inSd2

/-- A list that is just written has every volume but those whose names begin with a dot. -/
theorem exact_write : library.writeLibraries.Exact ↔ library.AllShown := by
  have written : lines (· == 0x0a) (unlines 0x0a library.lines) = library.lines :=
    lines_unlines (lines_unbroken ok) rfl
  constructor
  · rintro ⟨file, hasFile, distinct, listed⟩ name isName mounted
    cases hasFile
    rw [written] at listed
    have member := (listed (childPath name)).mpr (.inr ⟨.inr ⟨name, isName, rfl⟩, mounted⟩)
    rcases Library.mem_lines.mp member with same | ⟨same, _⟩ | ⟨other, _, shown, same, _⟩
    · exact absurd same (childPath_ne_storageDir name)
    · exact absurd same (childPath_ne_sd2 name)
    · exact childPath_injective same ▸ shown
  · intro allShown
    refine ⟨_, rfl, ?_, ?_⟩
    · rw [written]
      exact lines_nodup ok
    intro path
    rw [written, Library.mem_lines]
    refine or_congr_right ?_
    constructor
    · rintro (⟨rfl, mounted⟩ | ⟨name, entry, shown, rfl, mounted⟩)
      · exact ⟨.inl rfl, mounted⟩
      · exact ⟨.inr ⟨name, ok.named name entry, rfl⟩, mounted⟩
    · rintro ⟨rfl | ⟨name, isName, rfl⟩, mounted⟩
      · exact .inl ⟨rfl, mounted⟩
      · exact .inr ⟨name, (ok.entered name isName mounted).1, allShown name isName mounted, rfl,
          mounted⟩

end Written

end Zlyme.Storage
