import Zlyme.Foundation.ClusterVolume
import Zlyme.Foundation.Result
import Mathlib.Data.List.Nodup

/-! # The space of the boot volume

`install_boot` compares the new root with the free space and then copies the other
files of the update. The root itself is only copied by the initramfs, after the
reboot.
-/

namespace Zlyme.Ota.Space

open Foundation

/-! ## The update and the boot volume -/

/-- `ZLYME_DTB` of `device.conf`. -/
def zlymeDtb : String := "rk3566-miyoo-flip.dtb"

inductive Entry
  | file (size : Nat)
  | directory
  /-- A link or a device node, which the volume cannot hold. -/
  | other
  deriving DecidableEq, Repr

/-- A directory of the update, in the order of the walk of `cp -a`. -/
structure Tree where
  entries : List (VolumePath × Entry)
  below : ∀ entry ∈ entries, entry.1 ≠ []
  distinct : (entries.map Prod.fst).Nodup

/-- The pending directory: the sizes of its files. A file that is missing has no bytes. -/
structure Update where
  image : Nat
  dtb : Nat
  root : Nat
  version : Nat
  /-- Whether `check_squashfs_root` accepts the root. -/
  squashfs : Bool
  splash : Option Nat
  progress : Option Nat
  extlinux : Option Tree
  overlays : Option Tree

/-- What `install_boot` finds of the running system. -/
structure System where
  bootMounted : Bool
  /-- `zlyme-boot-write` is there, and opens and closes the volume. -/
  bootWrite : Bool

/-- The size of `zlyme` on the boot volume, 0 if there is none. -/
def liveRoot (boot : ClusterVolume) : Nat :=
  match boot.nodes ["zlyme"] with
  | some (.file size) => size
  | _ => 0

/-! ## The code -/

def verifyDir (dir : String) (update : Update) : Except String Unit := do
  raiseIf (update.dtb = 0) ("missing " ++ dir ++ "/" ++ zlymeDtb)
  raiseIf (update.root = 0) ("missing " ++ dir ++ "/zlyme")
  raiseIf (update.version = 0) ("missing " ++ dir ++ "/VERSION")
  raiseIf (update.image = 0) ("missing " ++ dir ++ "/Image.gz")
  raiseIf (update.squashfs = false) "root image: not a squashfs"

/-- `boot_free_bytes`: `df` counts whole blocks of 1024 bytes. -/
def bootFreeBytes (boot : ClusterVolume) : Except String Nat := do
  let avail := boot.freeBytes / 1024
  raiseIf (avail = 0) "cannot df /boot"
  return avail * 1024

/-- `squashfs_fits` -/
def squashfsFits (boot : ClusterVolume) (size : Nat) : Except String Unit := do
  let free ← bootFreeBytes boot
  let now := liveRoot boot
  raiseIf (free + now < size)
    (s!"squashfs ({size}) does not fit on /boot (free {free} + live {now})")

def entryStep (name : String) : VolumePath × Entry → FileStep
  | (path, .file size) => .copy (name :: path) size
  | (path, .directory) => .makeDirectory (name :: path)
  | (_, .other) => .unsupported

/-- `mkdir -p` and `cp -a SRC/name/. DST/name/`, if the update has the directory. -/
def treeSteps (name : String) : Option Tree → List FileStep
  | none => []
  | some tree => .makeDirectory [name] :: tree.entries.map (entryStep name)

/-- The command that `zlyme-boot-write` runs. -/
def bootSteps (update : Update) : List FileStep :=
  [.install "Image.gz" update.image, .remove ["Image"], .remove ["zlyme.update"],
    .install zlymeDtb update.dtb] ++
  update.splash.toList.map (.install "splash.anim") ++
  update.progress.toList.map (.install "progress.anim") ++
  treeSteps "extlinux" update.extlinux ++ treeSteps "overlays" update.overlays

/-- `install_boot`, as far as it goes for the boot volume. -/
def installBoot (tables : VolumePath → Nat) (system : System) (boot : ClusterVolume) (dir : String)
    (update : Update) : Except String ClusterVolume := do
  raiseIf (system.bootMounted = false) "/boot not mounted"
  verifyDir dir update
  squashfsFits boot update.root
  raiseIf (system.bootWrite = false) "zlyme-boot-write missing"
  orRaise (boot.run tables (bootSteps update)) "boot file copy failed"

/-- The copy of `commit_update`. -/
def commitUpdate (tables : VolumePath → Nat) (boot : ClusterVolume) (update : Update) :
    Option ClusterVolume :=
  boot.copyFile tables ["zlyme"] update.root

/-! ## The room for the root -/

/-- The free space and the live root cover the new root. -/
def CoversRoot (boot : ClusterVolume) (update : Update) : Prop :=
  update.root ≤ boot.freeBytes + liveRoot boot

instance (boot : ClusterVolume) (update : Update) : Decidable (CoversRoot boot update) :=
  inferInstanceAs (Decidable (_ ≤ _))

/-- The clusters that the other files of the update take more than the live files
they replace. -/
def growth (tables : VolumePath → Nat) (boot : ClusterVolume) (update : Update) : Int :=
  ((bootSteps update).map (boot.cost tables)).sum

theorem entryStep_footprint {name : String} {entry : VolumePath × Entry} {path : VolumePath}
    (inside : path ∈ (entryStep name entry).footprint) : path = name :: entry.1 := by
  rcases entry with ⟨entryPath, _ | _ | _⟩
  · exact List.mem_singleton.mp inside
  · exact List.mem_singleton.mp inside
  · cases inside

/-- The operations on a directory stay below it. -/
theorem treeSteps_below {name : String} {tree : Option Tree} {operation : FileStep}
    (member : operation ∈ treeSteps name tree) {path : VolumePath}
    (inside : path ∈ operation.footprint) : path.head? = some name := by
  cases tree with
  | none => cases member
  | some tree =>
      rcases List.mem_cons.mp member with rfl | member
      · cases List.mem_singleton.mp inside
        rfl
      · rcases List.mem_map.mp member with ⟨entry, _, rfl⟩
        rw [entryStep_footprint inside]
        rfl

/-- Two operations have no path in common. -/
def Apart (first second : FileStep) : Prop :=
  first.footprint.Disjoint second.footprint

theorem treeSteps_apart (name : String) (tree : Option Tree) :
    (treeSteps name tree).Pairwise Apart := by
  cases tree with
  | none => exact .nil
  | some tree =>
      rw [treeSteps, List.pairwise_cons]
      constructor
      · intro operation member path inside below
        rcases List.mem_map.mp member with ⟨entry, listed, rfl⟩
        cases List.mem_singleton.mp inside
        have empty := List.tail_eq_of_cons_eq (entryStep_footprint below)
        exact tree.below entry listed empty.symm
      · rw [List.pairwise_map]
        refine (List.pairwise_map.mp tree.distinct).imp fun differ path inFirst inSecond => ?_
        have same := (entryStep_footprint inFirst).symm.trans (entryStep_footprint inSecond)
        exact differ (List.tail_eq_of_cons_eq same)

/-- The first names of the paths that an operation touches. -/
theorem apart_of_heads {first second : FileStep} {one other : String} (differ : one ≠ other)
    (inOne : ∀ path ∈ first.footprint, path.head? = some one)
    (inOther : ∀ path ∈ second.footprint, path.head? = some other) : Apart first second := by
  intro path inFirst inSecond
  exact differ (Option.some.inj ((inOne path inFirst).symm.trans (inOther path inSecond)))

/-- The operations of the command with the name that each is about. -/
def namedSteps (update : Update) : List (String × List FileStep) :=
  [("Image.gz", [.install "Image.gz" update.image]), ("Image", [.remove ["Image"]]),
    ("zlyme.update", [.remove ["zlyme.update"]]), (zlymeDtb, [.install zlymeDtb update.dtb]),
    ("splash.anim", update.splash.toList.map (.install "splash.anim")),
    ("progress.anim", update.progress.toList.map (.install "progress.anim")),
    ("extlinux", treeSteps "extlinux" update.extlinux),
    ("overlays", treeSteps "overlays" update.overlays)]

theorem bootSteps_eq (update : Update) :
    bootSteps update = (namedSteps update).flatMap Prod.snd := by
  simp [bootSteps, namedSteps]

theorem install_below {name : String} {size : Nat} {path : VolumePath}
    (inside : path ∈ (FileStep.install name size).footprint) : path.head? = some name := by
  rcases List.mem_pair.mp inside with rfl | rfl <;> rfl

theorem installs_apart (name : String) (size : Option Nat) :
    (size.toList.map (FileStep.install name)).Pairwise Apart := by
  cases size with
  | none => exact .nil
  | some size => exact List.pairwise_singleton _ _

theorem namedSteps_below {update : Update} {name : String} {steps : List FileStep}
    (member : (name, steps) ∈ namedSteps update) {operation : FileStep} (listed : operation ∈ steps)
    {path : VolumePath} (inside : path ∈ operation.footprint) : path.head? = some name := by
  simp only [namedSteps, List.mem_cons, Prod.mk.injEq, List.not_mem_nil, or_false] at member
  rcases member with ⟨rfl, rfl⟩ | ⟨rfl, rfl⟩ | ⟨rfl, rfl⟩ | ⟨rfl, rfl⟩ | ⟨rfl, rfl⟩ | ⟨rfl, rfl⟩ |
    ⟨rfl, rfl⟩ | ⟨rfl, rfl⟩
  · cases List.mem_singleton.mp listed
    exact install_below inside
  · cases List.mem_singleton.mp listed
    cases List.mem_singleton.mp inside
    rfl
  · cases List.mem_singleton.mp listed
    cases List.mem_singleton.mp inside
    rfl
  · cases List.mem_singleton.mp listed
    exact install_below inside
  · rcases List.mem_map.mp listed with ⟨_, _, rfl⟩
    exact install_below inside
  · rcases List.mem_map.mp listed with ⟨_, _, rfl⟩
    exact install_below inside
  · exact treeSteps_below listed inside
  · exact treeSteps_below listed inside

theorem namedSteps_names (update : Update) : ((namedSteps update).map Prod.fst).Nodup := by
  have names : (namedSteps update).map Prod.fst = ["Image.gz", "Image", "zlyme.update", zlymeDtb,
      "splash.anim", "progress.anim", "extlinux", "overlays"] := rfl
  rw [names]
  decide

/-- No two operations of the command touch one path. -/
theorem bootSteps_apart (update : Update) : (bootSteps update).Pairwise Apart := by
  rw [bootSteps_eq, List.pairwise_flatMap]
  constructor
  · intro group member
    simp only [namedSteps, List.mem_cons, List.not_mem_nil, or_false] at member
    rcases member with rfl | rfl | rfl | rfl | rfl | rfl | rfl | rfl
    · exact List.pairwise_singleton _ _
    · exact List.pairwise_singleton _ _
    · exact List.pairwise_singleton _ _
    · exact List.pairwise_singleton _ _
    · exact installs_apart _ _
    · exact installs_apart _ _
    · exact treeSteps_apart _ _
    · exact treeSteps_apart _ _
  · have names := List.pairwise_map.mp (namedSteps_names update)
    refine names.imp_of_mem fun {first second} inFirst inSecond differ one isOne other isOther => ?_
    exact apart_of_heads differ (fun _ => namedSteps_below inFirst isOne)
      fun _ => namedSteps_below inSecond isOther

theorem root_untouched (update : Update) :
    ["zlyme"] ∉ (bootSteps update).flatMap FileStep.footprint := by
  intro touched
  rw [List.mem_flatMap] at touched
  rcases touched with ⟨operation, member, inside⟩
  rw [bootSteps_eq, List.mem_flatMap] at member
  rcases member with ⟨⟨name, steps⟩, listed, member⟩
  have isRoot : name = "zlyme" :=
    (Option.some.inj (namedSteps_below listed member inside)).symm
  have isName : name ∈ (namedSteps update).map Prod.fst := List.mem_map_of_mem listed
  have names : (namedSteps update).map Prod.fst = ["Image.gz", "Image", "zlyme.update", zlymeDtb,
      "splash.anim", "progress.anim", "extlinux", "overlays"] := rfl
  rw [names, isRoot] at isName
  exact absurd isName (by decide)

section Installed

variable {tables : VolumePath → Nat} {system : System} {boot after : ClusterVolume} {dir : String}
  {update : Update}

theorem installBoot_run (installed : installBoot tables system boot dir update = .ok after) :
    boot.run tables (bootSteps update) = some after := by
  simp only [installBoot, bind_eq_ok, orRaise_eq_ok] at installed
  rcases installed with ⟨_, _, _, _, _, _, _, _, ran⟩
  exact ran

theorem installBoot_root (installed : installBoot tables system boot dir update = .ok after) :
    after.nodes ["zlyme"] = boot.nodes ["zlyme"] :=
  (ClusterVolume.run_takes (installBoot_run installed) (bootSteps_apart update)).others _
    (root_untouched update)

theorem installBoot_free (installed : installBoot tables system boot dir update = .ok after) :
    (after.free : Int) + growth tables boot update = boot.free :=
  (ClusterVolume.run_takes (installBoot_run installed) (bootSteps_apart update)).free

theorem installBoot_cluster (installed : installBoot tables system boot dir update = .ok after) :
    after.cluster = boot.cluster :=
  (ClusterVolume.run_takes (installBoot_run installed) (bootSteps_apart update)).cluster

/-- The check before the copies: the root fits as long as they take nothing. -/
theorem installBoot_checked (installed : installBoot tables system boot dir update = .ok after) :
    update.root ≤ boot.freeBytes + liveRoot boot := by
  simp only [installBoot, squashfsFits, bootFreeBytes, bind_eq_ok, raiseIf_eq_ok] at installed
  rcases installed with ⟨_, _, _, _, _, ⟨free, ⟨_, _, isFree⟩, fits⟩, _⟩
  have counted : free ≤ boot.freeBytes := by
    cases isFree
    exact Nat.div_mul_le_self _ _
  omega

/-- With room for the root the copy of the initramfs succeeds. -/
theorem commitUpdate_of_covered {size : Nat} (live : after.nodes ["zlyme"] = some (.file size))
    (covered : CoversRoot after update) : (commitUpdate tables after update).isSome = true := by
  rw [CoversRoot, liveRoot, live] at covered
  exact ClusterVolume.copyFile_fits live covered

/-- The root fits after `install_boot` exactly if it did with the growth of the
other files taken off. -/
theorem root_covered (installed : installBoot tables system boot dir update = .ok after) :
    CoversRoot after update ↔
      (update.root : Int) ≤ (boot.free - growth tables boot update) * boot.cluster + liveRoot boot := by
  have free := installBoot_free installed
  have sameRoot : liveRoot after = liveRoot boot := by
    rw [liveRoot, liveRoot, installBoot_root installed]
  have freeBytes : ((after.freeBytes : Nat) : Int) =
      (boot.free - growth tables boot update) * boot.cluster := by
    rw [ClusterVolume.freeBytes, installBoot_cluster installed, Int.natCast_mul]
    congr 1
    omega
  rw [CoversRoot, sameRoot, ← freeBytes]
  omega

end Installed

/-- Clusters of 4 KiB, a kernel of four and a root of a thousand of them. -/
def smallBoot (free : Nat) : ClusterVolume where
  cluster := 4096
  positive := by decide
  free := free
  nodes path :=
    if path = ["Image.gz"] then some (.file 16384)
    else if path = [zlymeDtb] then some (.file 4096)
    else if path = ["zlyme"] then some (.file 4096000)
    else none

/-- A kernel of six clusters, and a root of a thousand and ten. -/
def largerUpdate : Update where
  image := 24576
  dtb := 4096
  root := 4136960
  version := 8
  squashfs := true
  splash := none
  progress := none
  extlinux := none
  overlays := none

def running : System := ⟨true, true⟩


/-- Two clusters more are free than the root needs: the kernel takes them. -/
theorem root_covered_larger : ∃ after,
    installBoot (fun _ => 0) running (smallBoot 12) "/storage/.update/pending" largerUpdate = .ok after ∧
      CoversRoot after largerUpdate := by
  have isOk : (installBoot (fun _ => 0) running (smallBoot 12) "/storage/.update/pending"
      largerUpdate).isOk = true := by decide
  cases installed : installBoot (fun _ => 0) running (smallBoot 12) "/storage/.update/pending"
      largerUpdate with
  | error message =>
      rw [installed] at isOk
      cases isOk
  | ok after => exact ⟨after, rfl, (root_covered installed).mpr (by decide)⟩

/-- The root fits exactly, and then the kernel takes two clusters of its room. -/
theorem root_not_covered : ∃ after,
    installBoot (fun _ => 0) running (smallBoot 10) "/storage/.update/pending" largerUpdate = .ok after ∧
      ¬CoversRoot after largerUpdate := by
  have computed : (installBoot (fun _ => 0) running (smallBoot 10) "/storage/.update/pending"
      largerUpdate).toOption.map (fun after => decide (CoversRoot after largerUpdate)) = some false := by
    decide
  cases installed : installBoot (fun _ => 0) running (smallBoot 10) "/storage/.update/pending"
      largerUpdate with
  | error message =>
      rw [installed] at computed
      cases computed
  | ok after =>
      rw [installed] at computed
      exact ⟨after, rfl, of_decide_eq_false (Option.some.inj computed)⟩

end Zlyme.Ota.Space
