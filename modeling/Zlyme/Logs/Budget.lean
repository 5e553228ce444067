import Mathlib.Algebra.BigOperators.Group.List.Basic
import Mathlib.Algebra.GroupWithZero.Nat
import Mathlib.Data.List.Infix
import Mathlib.Data.List.Nodup
import Mathlib.Logic.Function.Basic

/-! # The budgets of the logs

`zlyme-logs` cuts the two long files of the newest generation to its cap, and deletes the
oldest history while all that it owns is over the total.
-/

namespace Zlyme.Logs.Budget

abbrev Text : Type :=
  List UInt8

def ascii (literal : String) : Text :=
  literal.toList.map Char.toUInt8

/-! ## The files -/

/-- A path under `$LOGDIR`. -/
inductive Path
  /-- `system-generation/name` -/
  | snapshot (generation : Nat) (name : Text)
  /-- `system-generation/services/name` -/
  | service (generation : Nat) (name : Text)
  /-- `paks/name` -/
  | pak (name : Text)
  /-- `paks/OPENBOR/name` -/
  | openbor (name : Text)
  | other (path : Text)
  deriving DecidableEq

inductive Node
  | regular (content : Text)
  /-- A link, a directory and so on. -/
  | other
  deriving DecidableEq

/-- The files, and the names in the two folders that are globbed. -/
structure Disk where
  node : Path → Option Node
  paks : List Text
  openbor : List Text
  distinct : paks.Nodup

def Disk.isRegular (disk : Disk) (path : Path) : Bool :=
  match disk.node path with
  | some (.regular _) => true
  | _ => false

/-- The size that `file_size` adds for a regular file. -/
def Disk.size (disk : Disk) (path : Path) : Nat :=
  match disk.node path with
  | some (.regular content) => content.length
  | _ => 0

def Disk.set (disk : Disk) (path : Path) (node : Option Node) : Disk :=
  { disk with node := Function.update disk.node path node }

/-! ## What is owned -/

def snapshotNames : List Text :=
  [ascii "dmesg.txt", ascii "dmesg-boot.txt", ascii "boot-timing.txt", ascii "nextui.txt",
    ascii "session.txt", ascii "next.txt"]

def serviceNames : List Text :=
  [ascii "input-late.log", ascii "inputplumber.log", ascii "zlyme-input.log",
    ascii "pipewire-late.log", ascii "bluetooth-late.log", ascii "storage.log", ascii "led.log",
    ascii "wifi-async.log", ascii "weston.log"]

def generationPaths (generation : Nat) : List Path :=
  snapshotNames.map (.snapshot generation) ++ serviceNames.map (.service generation)

/-- The pattern `*suffix`, which takes no name that begins with a dot. -/
def glob (suffix : String) (names : List Text) : List Text :=
  names.filter fun name => (ascii suffix).isSuffixOf name && name.head? != some 0x2e

def Disk.pakGlob (disk : Disk) (suffix : String) : List Path :=
  (glob suffix disk.paks).map .pak

/-- The rotated logs of the paks, the older ones first. -/
def Disk.rotated (disk : Disk) : List Path :=
  disk.pakGlob ".log.2" ++ disk.pakGlob ".log.1"

def Disk.ownedPaths (disk : Disk) : List Path :=
  (List.range 5).flatMap generationPaths ++ disk.pakGlob ".log" ++ disk.rotated ++
    .pak (ascii "portmaster.txt") :: (glob "" disk.openbor).map .openbor

def Disk.total (disk : Disk) (paths : List Path) : Nat :=
  (paths.map disk.size).sum

def Disk.ownedBytes (disk : Disk) : Nat :=
  disk.total disk.ownedPaths

def Disk.generationBytes (disk : Disk) : Nat :=
  disk.total (generationPaths 0)

/-! ## The cap of the newest generation -/

def session : Path :=
  .snapshot 0 (ascii "session.txt")

def next : Path :=
  .snapshot 0 (ascii "next.txt")

/-- `tail -c count` -/
def tail (count : Nat) (content : Text) : Text :=
  content.drop (content.length - count)

def capOne (path : Path) (most : Nat) (disk : Disk) : Disk :=
  match disk.node path with
  | some (.regular content) =>
      if most < content.length then disk.set path (some (.regular (tail most content))) else disk
  | _ => disk

/-- The loop of `cap_generation`. -/
def capLoop : (excess : Nat) → List Path → Disk → Disk
  | _, [], disk => disk
  | excess, path :: paths, disk =>
      if ¬disk.isRegular path then capLoop excess paths disk
      else if ¬65536 < disk.size path then capLoop excess paths disk
      else
        let room := disk.size path - 65536
        let keep := if room ≤ excess then 65536 else disk.size path - excess
        let left := if room ≤ excess then excess - room else 0
        let disk := capOne path keep disk
        if left = 0 then disk else capLoop left paths disk

/-- The files after the two caps of their own. -/
def capFiles (disk : Disk) : Disk :=
  capOne next 1048576 (capOne session 1048576 disk)

def capGeneration (most : Nat) (disk : Disk) : Disk :=
  let disk := capFiles disk
  if disk.generationBytes ≤ most then disk
  else capLoop (disk.generationBytes - most) [session, next] disk

/-! ## The reclaim -/

def remove (disk : Disk) (path : Path) : Disk :=
  disk.set path none

/-- `drop_generation_files` -/
def dropGenerationFiles (generation : Nat) (disk : Disk) : Disk :=
  ((generationPaths generation).filter disk.isRegular).foldl remove disk

/-- The loop over the rotated logs of the paks. -/
def dropRotated (most : Nat) : List Path → Disk → Disk
  | [], disk => disk
  | path :: paths, disk =>
      if ¬disk.isRegular path then dropRotated most paths disk
      else
        let disk := remove disk path
        if most < disk.ownedBytes then dropRotated most paths disk else disk

def reclaim (most : Nat) (disk : Disk) : Disk :=
  if ¬most < disk.ownedBytes then disk
  else
    let disk := dropGenerationFiles 4 disk
    if ¬most < disk.ownedBytes then disk
    else
      let disk := dropGenerationFiles 3 disk
      if ¬most < disk.ownedBytes then disk
      else dropRotated most disk.rotated disk

/-! ## Files that are cut -/

/-- The file is as it was, or it has lost bytes at its front. -/
def IsCut (before after : Option Node) : Prop :=
  after = before ∨ ∃ content kept, before = some (.regular content) ∧
    after = some (.regular kept) ∧ kept <:+ content

theorem IsCut.trans {first second third : Option Node} (one : IsCut first second)
    (two : IsCut second third) : IsCut first third := by
  rcases one with rfl | ⟨content, kept, rfl, rfl, ends⟩
  · exact two
  · rcases two with rfl | ⟨_, later, same, rfl, laterEnds⟩
    · exact .inr ⟨content, kept, rfl, rfl, ends⟩
    · cases same
      exact .inr ⟨content, later, rfl, rfl, laterEnds.trans ends⟩

@[simp] theorem node_set_same (disk : Disk) (path : Path) (node : Option Node) :
    (disk.set path node).node path = node := by
  simp only [Disk.set, Function.update_self]

theorem node_set_other (disk : Disk) {path other : Path} (node : Option Node)
    (differs : other ≠ path) : (disk.set path node).node other = disk.node other := by
  simp only [Disk.set, ne_eq, differs, not_false_eq_true, Function.update_of_ne]

theorem size_of_node {disk other : Disk} {path : Path} (same : disk.node path = other.node path) :
    disk.size path = other.size path := by
  rw [Disk.size, Disk.size, same]

theorem size_of_not_isRegular {disk : Disk} {path : Path} (absent : disk.isRegular path ≠ true) :
    disk.size path = 0 := by
  rw [Disk.isRegular] at absent
  rw [Disk.size]
  split
  · rename_i content found
    simp [found] at absent
  · rfl

section CapOne

variable (path : Path) (most : Nat) (disk : Disk)

theorem node_capOne_other {other : Path} (differs : other ≠ path) :
    (capOne path most disk).node other = disk.node other := by
  rw [capOne]
  split
  · split
    · exact node_set_other disk _ differs
    · rfl
  · rfl

theorem isCut_capOne (other : Path) : IsCut (disk.node other) ((capOne path most disk).node other) := by
  by_cases same : other = path
  · subst same
    rw [capOne]
    split
    · rename_i content found
      split
      · rw [node_set_same, found]
        exact .inr ⟨content, tail most content, rfl, rfl, List.drop_suffix _ _⟩
      · exact .inl rfl
    · exact .inl rfl
  · exact .inl (node_capOne_other path most disk same)

theorem size_capOne : (capOne path most disk).size path = min (disk.size path) most := by
  cases found : disk.node path with
  | none => simp [capOne, Disk.size, found]
  | some node =>
      cases node with
      | other => simp [capOne, Disk.size, found]
      | regular content =>
          have before : disk.size path = content.length := by
            rw [Disk.size, found]
          rw [capOne, found]
          by_cases long : most < content.length
          · simp only [long, if_true, Disk.size, node_set_same, tail, List.length_drop, found]
            omega
          · simp only [long, if_false, before]
            omega

end CapOne

/-! ## The loop -/

theorem total_congr {disk other : Disk} {paths : List Path}
    (same : ∀ path ∈ paths, disk.node path = other.node path) :
    disk.total paths = other.total paths := by
  rw [Disk.total, Disk.total, List.map_congr_left fun path member => size_of_node (same path member)]

theorem total_cons (disk : Disk) (path : Path) (paths : List Path) :
    disk.total (path :: paths) = disk.size path + disk.total paths :=
  rfl

/-- What the loop may do to the files. -/
structure Loop (excess : Nat) (paths : List Path) (before after : Disk) (lost : Nat) : Prop where
  bounded : lost ≤ excess
  counted : after.total paths + lost = before.total paths
  done : lost = excess ∨ ∀ path ∈ paths, after.size path ≤ 65536
  frame : ∀ path ∉ paths, after.node path = before.node path
  cuts : ∀ path, IsCut (before.node path) (after.node path)

/-- A file before the others loses `taken` bytes, or is small. -/
theorem Loop.cons {excess taken lost : Nat} {path : Path} {paths : List Path}
    {before between after : Disk} (apart : path ∉ paths) (enough : taken ≤ excess)
    (cut : between.size path + taken = before.size path)
    (small : taken = excess ∨ between.size path ≤ 65536)
    (others : ∀ other, other ≠ path → between.node other = before.node other)
    (isCut : IsCut (before.node path) (between.node path))
    (rest : Loop (excess - taken) paths between after lost) :
    Loop excess (path :: paths) before after (taken + lost) where
  bounded := by
    have bounded := rest.bounded
    omega
  counted := by
    have counted := rest.counted
    have same : between.total paths = before.total paths :=
      total_congr fun other member => others other fun isPath => apart (isPath ▸ member)
    have kept := size_of_node (rest.frame path apart)
    rw [total_cons, total_cons]
    omega
  done := by
    have bounded := rest.bounded
    rcases small with all | small
    · exact .inl (by omega)
    · rcases rest.done with all | smalls
      · exact .inl (by omega)
      · refine .inr fun other member => ?_
        rcases List.mem_cons.mp member with rfl | member
        · rw [size_of_node (rest.frame other apart)]
          exact small
        · exact smalls other member
  frame other outside := by
    rw [List.mem_cons, not_or] at outside
    rw [rest.frame other outside.2, others other outside.1]
  cuts other := by
    by_cases same : other = path
    · subst same
      rw [rest.frame other apart]
      exact isCut
    · rw [← others other same]
      exact rest.cuts other

theorem Loop.nothing (paths : List Path) (disk : Disk) : Loop 0 paths disk disk 0 where
  bounded := Nat.le_refl 0
  counted := rfl
  done := .inl rfl
  frame _ _ := rfl
  cuts _ := .inl rfl

theorem capLoop_spec (paths : List Path) (distinct : paths.Nodup) (excess : Nat) (disk : Disk) :
    ∃ lost, Loop excess paths disk (capLoop excess paths disk) lost := by
  induction paths generalizing excess disk with
  | nil => exact ⟨0, Nat.zero_le _, rfl, .inr (fun _ never => (List.not_mem_nil never).elim),
      fun _ _ => rfl, fun _ => .inl rfl⟩
  | cons path paths induction =>
      rw [List.nodup_cons] at distinct
      by_cases large : 65536 < disk.size path
      · have isRegular : disk.isRegular path = true := by
          by_contra absent
          rw [size_of_not_isRegular absent] at large
          omega
        have cut (keep : Nat) := size_capOne path keep disk
        have others (keep : Nat) := fun other => @node_capOne_other path keep disk other
        have isCut (keep : Nat) := isCut_capOne path keep disk path
        rw [capLoop, if_neg (not_not_intro isRegular), if_neg (not_not_intro large)]
        by_cases covers : disk.size path - 65536 ≤ excess
        · simp only [covers, if_true]
          have taken : (capOne path 65536 disk).size path + (disk.size path - 65536) =
              disk.size path := by
            rw [cut]
            omega
          have small : (capOne path 65536 disk).size path ≤ 65536 := by
            rw [cut]
            omega
          by_cases none' : excess - (disk.size path - 65536) = 0
          · rw [if_pos none']
            have rest : Loop (excess - (disk.size path - 65536)) paths (capOne path 65536 disk)
                (capOne path 65536 disk) 0 := by
              rw [none']
              exact Loop.nothing paths _
            exact ⟨_, Loop.cons distinct.1 covers taken (.inr small) (others 65536) (isCut 65536) rest⟩
          · rw [if_neg none']
            rcases induction distinct.2 (excess - (disk.size path - 65536))
              (capOne path 65536 disk) with ⟨lost, rest⟩
            exact ⟨_, Loop.cons distinct.1 covers taken (.inr small) (others 65536) (isCut 65536) rest⟩
        · simp only [covers, if_false, if_true]
          have taken : (capOne path (disk.size path - excess) disk).size path + excess =
              disk.size path := by
            rw [cut]
            omega
          have rest : Loop (excess - excess) paths (capOne path (disk.size path - excess) disk)
              (capOne path (disk.size path - excess) disk) 0 := by
            rw [Nat.sub_self]
            exact Loop.nothing paths _
          exact ⟨_, Loop.cons distinct.1 (Nat.le_refl excess) taken (.inl rfl)
            (others (disk.size path - excess)) (isCut (disk.size path - excess)) rest⟩
      · have skipped : capLoop excess (path :: paths) disk = capLoop excess paths disk := by
          rw [capLoop]
          by_cases absent : disk.isRegular path = true
          · rw [if_neg (not_not_intro absent), if_pos large]
          · rw [if_pos absent]
        rcases induction distinct.2 excess disk with ⟨lost, rest⟩
        rw [skipped]
        refine ⟨0 + lost, Loop.cons distinct.1 (Nat.zero_le excess) (Nat.add_zero _) ?_
          (fun _ _ => rfl) (.inl rfl) rest⟩
        exact .inr (Nat.le_of_not_lt large)

/-! ## The newest generation -/

/-- The other files of the newest generation. -/
def otherPaths : List Path :=
  (generationPaths 0).filter fun path => path ≠ session ∧ path ≠ next

theorem generationBytes_eq (disk : Disk) :
    disk.generationBytes = disk.size session + disk.size next + disk.total otherPaths := by
  have order : generationPaths 0 = otherPaths.take 4 ++ session :: next :: otherPaths.drop 4 := by
    decide +kernel
  rw [Disk.generationBytes, order]
  have split := congrArg disk.total (List.take_append_drop 4 otherPaths)
  simp only [Disk.total, List.map_append, List.sum_append, List.map_cons, List.sum_cons] at split ⊢
  omega

theorem session_ne_next : session ≠ next := by
  decide

/-- What is owed after `cap_generation`. -/
structure Capped (most : Nat) (before after : Disk) : Prop where
  bounded : after.generationBytes ≤ most ∨ after.size session ≤ 65536 ∧ after.size next ≤ 65536
  cuts : ∀ path, IsCut (before.node path) (after.node path)
  frame : ∀ path, path ≠ session → path ≠ next → after.node path = before.node path
  /-- Beyond the caps of the two files no more is lost than the excess. -/
  spares : (capFiles before).size session + (capFiles before).size next ≤
    after.size session + after.size next + ((capFiles before).generationBytes - most)

theorem isCut_capFiles (disk : Disk) (path : Path) :
    IsCut (disk.node path) ((capFiles disk).node path) :=
  (isCut_capOne session 1048576 disk path).trans
    (isCut_capOne next 1048576 (capOne session 1048576 disk) path)

theorem node_capFiles_other (disk : Disk) {path : Path} (notSession : path ≠ session)
    (notNext : path ≠ next) : (capFiles disk).node path = disk.node path :=
  (node_capOne_other next 1048576 _ notNext).trans (node_capOne_other session 1048576 disk notSession)

theorem capGeneration_capped (most : Nat) (disk : Disk) :
    Capped most disk (capGeneration most disk) := by
  rw [capGeneration]
  by_cases within : (capFiles disk).generationBytes ≤ most
  · simp only [within, if_true]
    exact ⟨.inl within, isCut_capFiles disk, fun path => node_capFiles_other disk,
      Nat.le_add_right _ _⟩
  · simp only [within, if_false]
    have distinct : [session, next].Nodup := by decide
    rcases capLoop_spec [session, next] distinct ((capFiles disk).generationBytes - most)
      (capFiles disk) with ⟨lost, loop⟩
    generalize capLoop _ _ (capFiles disk) = after at loop
    have total (other : Disk) : other.total [session, next] = other.size session + other.size next := by
      rw [total_cons, total_cons]
      rfl
    have counted := loop.counted
    have bounded := loop.bounded
    rw [total, total] at counted
    have others : after.total otherPaths = (capFiles disk).total otherPaths := by
      refine total_congr fun path member => loop.frame path ?_
      have apart := of_decide_eq_true (List.mem_filter.mp member).2
      simpa using apart
    refine ⟨?_, fun path => (isCut_capFiles disk path).trans (loop.cuts path), ?_, ?_⟩
    · rcases loop.done with all | small
      · left
        rw [generationBytes_eq] at within all ⊢
        omega
      · exact .inr ⟨small session (by simp), small next (by simp)⟩
    · intro path notSession notNext
      rw [loop.frame path (by simp [notSession, notNext]), node_capFiles_other disk notSession notNext]
    · omega

/-! ## What is deleted -/

def removeAll (paths : List Path) (disk : Disk) : Disk :=
  paths.foldl remove disk

/-- The deletions of `reclaim`: two generations, each as a whole, and one rotated log after the
other. -/
def Disk.steps (disk : Disk) : List (List Path) :=
  (generationPaths 4).filter disk.isRegular :: (generationPaths 3).filter disk.isRegular ::
    (disk.rotated.filter disk.isRegular).map ([·])

/-- One step after the other while the total is above its cap. -/
def untilWithin (most : Nat) : List (List Path) → Disk → Disk
  | [], disk => disk
  | step :: steps, disk =>
      if most < disk.ownedBytes then untilWithin most steps (removeAll step disk) else disk

theorem node_removeAll (paths : List Path) (disk : Disk) (path : Path) :
    (removeAll paths disk).node path = if path ∈ paths then none else disk.node path := by
  induction paths generalizing disk with
  | nil => rfl
  | cons first paths induction =>
      have later := induction (remove disk first)
      rw [removeAll, List.foldl_cons]
      refine later.trans ?_
      by_cases inside : path ∈ paths
      · simp only [inside, List.mem_cons, or_true, if_true]
      · by_cases same : path = first
        · subst same
          simp only [inside, List.mem_cons, true_or, if_true, if_false, remove, node_set_same]
        · simp only [inside, same, List.mem_cons, or_self, if_false, remove,
            node_set_other disk none same]

theorem removeAll_append (front back : List Path) (disk : Disk) :
    removeAll (front ++ back) disk = removeAll back (removeAll front disk) :=
  List.foldl_append ..

theorem rotated_removeAll (paths : List Path) (disk : Disk) :
    (removeAll paths disk).rotated = disk.rotated := by
  induction paths generalizing disk with
  | nil => rfl
  | cons path paths induction => exact induction (remove disk path)

theorem isRegular_removeAll {paths : List Path} {disk : Disk} {path : Path} (outside : path ∉ paths) :
    (removeAll paths disk).isRegular path = disk.isRegular path := by
  rw [Disk.isRegular, Disk.isRegular, node_removeAll, if_neg outside]

/-- The steps end at the first one after which the total is within its cap. -/
theorem untilWithin_spec (most : Nat) (steps : List (List Path)) (disk : Disk) :
    ∃ done rest, steps = done ++ rest ∧
      untilWithin most steps disk = removeAll done.flatten disk ∧
      (rest = [] ∨ (removeAll done.flatten disk).ownedBytes ≤ most) ∧
      ∀ front, front <+: done → front ≠ done →
        most < (removeAll front.flatten disk).ownedBytes := by
  induction steps generalizing disk with
  | nil =>
      refine ⟨[], [], rfl, rfl, .inl rfl, fun front begins proper => ?_⟩
      exact absurd (List.prefix_nil.mp begins) proper
  | cons step steps induction =>
      by_cases above : most < disk.ownedBytes
      · rcases induction (removeAll step disk) with ⟨done, rest, rfl, result, within, early⟩
        rw [← removeAll_append] at result within
        refine ⟨step :: done, rest, rfl, ?_, within, fun front begins proper => ?_⟩
        · rw [untilWithin, if_pos above]
          exact result
        · rcases front with _ | ⟨first, front⟩
          · exact above
          · rcases List.cons_prefix_cons.mp begins with ⟨rfl, later⟩
            rw [List.flatten_cons, removeAll_append]
            exact early front later fun same => proper (by rw [same])
      · refine ⟨[], step :: steps, rfl, ?_, .inr (Nat.le_of_not_lt above), fun front begins proper => ?_⟩
        · rw [untilWithin, if_neg above]
          rfl
        · exact absurd (List.prefix_nil.mp begins) proper

theorem untilWithin_of_within {most : Nat} {disk : Disk} (within : ¬most < disk.ownedBytes)
    (steps : List (List Path)) : untilWithin most steps disk = disk := by
  cases steps with
  | nil => rfl
  | cons step steps => rw [untilWithin, if_neg within]

theorem rotated_nodup (disk : Disk) : disk.rotated.Nodup := by
  have injective : Function.Injective Path.pak := fun _ _ same => Path.pak.inj same
  have globbed (suffix : String) : (disk.pakGlob suffix).Nodup :=
    List.Nodup.map injective (disk.distinct.filter _)
  refine List.nodup_append.mpr ⟨globbed ".log.2", globbed ".log.1", ?_⟩
  intro older inOlder newer inNewer same
  rw [Disk.pakGlob, List.mem_map] at inOlder inNewer
  rcases inOlder with ⟨name, second, rfl⟩
  rcases inNewer with ⟨other, first, isPath⟩
  cases injective (isPath.trans same.symm)
  have secondEnds := (Bool.and_eq_true_iff.mp (List.mem_filter.mp second).2).1
  have firstEnds := (Bool.and_eq_true_iff.mp (List.mem_filter.mp first).2).1
  rw [List.isSuffixOf_iff_suffix] at secondEnds firstEnds
  rcases List.suffix_or_suffix_of_suffix secondEnds firstEnds with nested | nested
  · revert nested
    decide
  · revert nested
    decide

/-- The loop over the rotated logs makes one step for each that is a regular file. -/
theorem dropRotated_eq (most : Nat) (paths : List Path) (distinct : paths.Nodup) (disk : Disk)
    (above : most < disk.ownedBytes) :
    dropRotated most paths disk =
      untilWithin most ((paths.filter disk.isRegular).map ([·])) disk := by
  induction paths generalizing disk with
  | nil => rfl
  | cons path paths induction =>
      rw [List.nodup_cons] at distinct
      rw [dropRotated]
      by_cases isRegular : disk.isRegular path = true
      · have later : paths.filter disk.isRegular = paths.filter (remove disk path).isRegular := by
          refine List.filter_congr fun other member => ?_
          have outside : other ∉ [path] := fun same =>
            distinct.1 (List.mem_singleton.mp same ▸ member)
          exact (isRegular_removeAll outside).symm
        rw [if_neg (not_not_intro isRegular), List.filter_cons_of_pos isRegular, List.map_cons,
          untilWithin, if_pos above, later]
        by_cases still : most < (remove disk path).ownedBytes
        · simp only [still, if_true]
          exact induction distinct.2 (remove disk path) still
        · simp only [still, if_false]
          exact (untilWithin_of_within still _).symm
      · rw [if_pos isRegular, List.filter_cons_of_neg isRegular]
        exact induction distinct.2 disk above

theorem mem_generationPaths {generation : Nat} {path : Path}
    (member : path ∈ generationPaths generation) :
    (∃ name ∈ snapshotNames, path = .snapshot generation name) ∨
      ∃ name ∈ serviceNames, path = .service generation name := by
  rw [generationPaths, List.mem_append, List.mem_map, List.mem_map] at member
  rcases member with ⟨name, known, rfl⟩ | ⟨name, known, rfl⟩
  · exact .inl ⟨name, known, rfl⟩
  · exact .inr ⟨name, known, rfl⟩

theorem generations_apart {path : Path} (third : path ∈ generationPaths 3) :
    path ∉ generationPaths 4 := by
  intro fourth
  rcases mem_generationPaths third with ⟨_, _, rfl⟩ | ⟨_, _, rfl⟩ <;>
    rcases mem_generationPaths fourth with ⟨_, _, same⟩ | ⟨_, _, same⟩ <;>
    cases same

theorem rotated_apart {disk : Disk} {path : Path} (member : path ∈ disk.rotated) (generation : Nat) :
    path ∉ generationPaths generation := by
  intro inside
  rw [Disk.rotated, List.mem_append, Disk.pakGlob, Disk.pakGlob, List.mem_map, List.mem_map] at member
  rcases member with ⟨_, _, rfl⟩ | ⟨_, _, rfl⟩ <;>
    rcases mem_generationPaths inside with ⟨_, _, same⟩ | ⟨_, _, same⟩ <;>
    cases same

theorem filter_removeAll {paths gone : List Path} {disk : Disk}
    (apart : ∀ path ∈ paths, path ∉ gone) :
    paths.filter (removeAll gone disk).isRegular = paths.filter disk.isRegular :=
  List.filter_congr fun path member => isRegular_removeAll (apart path member)

theorem reclaim_eq (most : Nat) (disk : Disk) :
    reclaim most disk = untilWithin most disk.steps disk := by
  have fourth : dropGenerationFiles 4 disk =
      removeAll ((generationPaths 4).filter disk.isRegular) disk := rfl
  rw [reclaim, Disk.steps, untilWithin]
  by_cases first : most < disk.ownedBytes
  · simp only [first, not_true_eq_false, if_false, if_true]
    rw [← fourth, untilWithin]
    by_cases second : most < (dropGenerationFiles 4 disk).ownedBytes
    · simp only [second, not_true_eq_false, if_false, if_true]
      have third : dropGenerationFiles 3 (dropGenerationFiles 4 disk) =
          removeAll ((generationPaths 3).filter disk.isRegular) (dropGenerationFiles 4 disk) := by
        have same : (generationPaths 3).filter (dropGenerationFiles 4 disk).isRegular =
            (generationPaths 3).filter disk.isRegular := by
          rw [fourth]
          exact filter_removeAll fun path member inside =>
            generations_apart member (List.mem_filter.mp inside).1
        rw [← same]
        rfl
      rw [← third]
      by_cases above : most < (dropGenerationFiles 3 (dropGenerationFiles 4 disk)).ownedBytes
      · have rotated : (dropGenerationFiles 3 (dropGenerationFiles 4 disk)).rotated = disk.rotated := by
          rw [third, rotated_removeAll, fourth, rotated_removeAll]
        have files : disk.rotated.filter
            (dropGenerationFiles 3 (dropGenerationFiles 4 disk)).isRegular =
              disk.rotated.filter disk.isRegular := by
          rw [third, fourth, filter_removeAll, filter_removeAll]
          · exact fun path member inside => rotated_apart member 4 (List.mem_filter.mp inside).1
          · exact fun path member inside => rotated_apart member 3 (List.mem_filter.mp inside).1
        simp only [above, not_true_eq_false, if_false]
        rw [dropRotated_eq most _ (rotated_nodup _) _ above, rotated, files]
      · simp only [above, not_false_eq_true, if_true]
        exact (untilWithin_of_within above _).symm
    · simp only [second, not_false_eq_true, if_true, if_false]
  · simp only [first, not_false_eq_true, if_true, if_false]

/-- A deletion is of a regular file of the two oldest generations, or of a rotated log. -/
theorem mem_steps {disk : Disk} {path : Path} (member : path ∈ disk.steps.flatten) :
    disk.isRegular path = true ∧ path ∈ disk.ownedPaths ∧
      (path ∈ generationPaths 4 ∨ path ∈ generationPaths 3 ∨ path ∈ disk.rotated) := by
  have singles (paths : List Path) : (paths.map ([·])).flatten = paths := by
    induction paths with
    | nil => rfl
    | cons path paths induction => simp [induction]
  rw [Disk.steps, List.flatten_cons, List.flatten_cons, singles, List.mem_append, List.mem_append,
    List.mem_filter, List.mem_filter, List.mem_filter] at member
  have generation {number : Nat} (small : number < 5) (inside : path ∈ generationPaths number) :
      path ∈ disk.ownedPaths := by
    simp only [Disk.ownedPaths, List.mem_append]
    exact .inl (.inl (.inl (List.mem_flatMap.mpr ⟨number, List.mem_range.mpr small, inside⟩)))
  rcases member with ⟨inside, isRegular⟩ | ⟨inside, isRegular⟩ | ⟨inside, isRegular⟩
  · exact ⟨isRegular, generation (by decide) inside, .inl inside⟩
  · exact ⟨isRegular, generation (by decide) inside, .inr (.inl inside)⟩
  · refine ⟨isRegular, ?_, .inr (.inr inside)⟩
    simp only [Disk.ownedPaths, List.mem_append]
    exact .inl (.inr inside)

/-- What is owed after `reclaim`. -/
structure Reclaimed (most : Nat) (before after : Disk) (done : List (List Path)) : Prop where
  ordered : done <+: before.steps
  deletes : ∀ path, after.node path = if path ∈ done.flatten then none else before.node path
  owned : ∀ path ∈ done.flatten, before.isRegular path = true ∧ path ∈ before.ownedPaths ∧
    (path ∈ generationPaths 4 ∨ path ∈ generationPaths 3 ∨ path ∈ before.rotated)
  stops : done = before.steps ∨ after.ownedBytes ≤ most
  /-- Before the last step the total was above its cap. -/
  needed : ∀ front, front <+: done → front ≠ done →
    most < (removeAll front.flatten before).ownedBytes

theorem reclaim_reclaimed (most : Nat) (disk : Disk) :
    ∃ done, Reclaimed most disk (reclaim most disk) done := by
  rcases untilWithin_spec most disk.steps disk with ⟨done, rest, order, result, within, early⟩
  have ordered : done <+: disk.steps := ⟨rest, order.symm⟩
  refine ⟨done, ordered, fun path => ?_, fun path member => ?_, ?_, early⟩
  · rw [reclaim_eq, result, node_removeAll]
  · have inside : path ∈ disk.steps.flatten := by
      rw [order, List.flatten_append]
      exact List.mem_append_left _ member
    exact mem_steps inside
  · rw [reclaim_eq, result]
    refine within.imp (fun none' => ?_) id
    rw [order, none', List.append_nil]

/-- The newest generation is cut to its cap where its two long files allow it, and the oldest
history goes step by step until the total is within its cap. -/
theorem budgets_kept (generationMost totalMost : Nat) (disk : Disk) :
    Capped generationMost disk (capGeneration generationMost disk) ∧
      ∃ done, Reclaimed totalMost disk (reclaim totalMost disk) done :=
  ⟨capGeneration_capped generationMost disk, reclaim_reclaimed totalMost disk⟩

/-- Two files in the oldest generation. -/
def twoOld : Disk where
  node path :=
    if path = .snapshot 4 (ascii "dmesg.txt") then some (.regular (ascii "12345"))
    else if path = .snapshot 4 (ascii "session.txt") then some (.regular (ascii "123456"))
    else none
  paks := []
  openbor := []
  distinct := List.nodup_nil

/-- The first file would have been enough, and the second one is deleted as well. -/
theorem generation_goes_whole :
    10 < twoOld.ownedBytes ∧
      (remove twoOld (.snapshot 4 (ascii "dmesg.txt"))).ownedBytes ≤ 10 ∧
      (reclaim 10 twoOld).node (.snapshot 4 (ascii "dmesg.txt")) = none ∧
      (reclaim 10 twoOld).node (.snapshot 4 (ascii "session.txt")) = none := by
  decide +kernel

end Zlyme.Logs.Budget
