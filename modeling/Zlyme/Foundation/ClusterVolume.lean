import Mathlib.Algebra.BigOperators.Group.List.Basic
import Mathlib.Data.List.Pairwise
import Mathlib.Logic.Function.Basic
import Mathlib.Algebra.Order.Group.Int
import Mathlib.Algebra.Ring.Int.Defs

/-! # A volume that is given out in clusters

What files and directories take of a volume, and what a list of file operations
leaves free.
-/

namespace Foundation

abbrev VolumePath : Type :=
  List String

inductive VolumeNode
  | file (size : Nat)
  | directory
  deriving DecidableEq, Repr

/-- Sizes are in bytes, the free space is in clusters. -/
structure ClusterVolume where
  cluster : Nat
  positive : 0 < cluster
  free : Nat
  nodes : VolumePath → Option VolumeNode

/-- A file operation of a script. -/
inductive FileStep
  | copy (path : VolumePath) (size : Nat)
  /-- A copy onto a name, or into the directory of that name. -/
  | install (name : String) (size : Nat)
  | makeDirectory (path : VolumePath)
  | remove (path : VolumePath)
  /-- What the volume cannot hold, such as a link. -/
  | unsupported
  deriving DecidableEq, Repr

namespace ClusterVolume

def freeBytes (volume : ClusterVolume) : Nat :=
  volume.free * volume.cluster

/-- The clusters of a file. -/
def clustersOf (volume : ClusterVolume) (size : Nat) : Nat :=
  (size + (volume.cluster - 1)) / volume.cluster

/-- The clusters of the file at a path. -/
def heldBy (volume : ClusterVolume) (path : VolumePath) : Nat :=
  match volume.nodes path with
  | some (.file size) => volume.clustersOf size
  | _ => 0

/-- Where a copy onto a name goes. -/
def target (volume : ClusterVolume) (name : String) : VolumePath :=
  if volume.nodes [name] = some .directory then [name, name] else [name]

/-- `tables path` is what the directories grow by for a new name. -/
def tableCost (tables : VolumePath → Nat) (volume : ClusterVolume) (path : VolumePath) : Nat :=
  if volume.nodes path = none then tables path else 0

/-- Takes clusters for a node, if there are enough. -/
def take (volume : ClusterVolume) (path : VolumePath) (node : VolumeNode) (returned needed : Nat) :
    Option ClusterVolume :=
  if needed ≤ volume.free + returned then
    some { volume with
      free := volume.free + returned - needed
      nodes := Function.update volume.nodes path (some node) }
  else none

section Steps

variable (tables : VolumePath → Nat)

/-- The file is emptied and written again. -/
def copyFile (volume : ClusterVolume) (path : VolumePath) (size : Nat) : Option ClusterVolume :=
  if volume.nodes path = some .directory then none
  else
    volume.take path (.file size) (volume.heldBy path)
      (volume.clustersOf size + volume.tableCost tables path)

def makeDirectory (volume : ClusterVolume) (path : VolumePath) : Option ClusterVolume :=
  match volume.nodes path with
  | some .directory => some volume
  | some (.file _) => none
  | none => volume.take path .directory 0 (1 + tables path)

/-- A name that is no file stays. -/
def removeFile (volume : ClusterVolume) (path : VolumePath) : ClusterVolume :=
  match volume.nodes path with
  | some (.file size) =>
      { volume with
        free := volume.free + volume.clustersOf size
        nodes := Function.update volume.nodes path none }
  | _ => volume

def step (volume : ClusterVolume) : FileStep → Option ClusterVolume
  | .copy path size => volume.copyFile tables path size
  | .install name size => volume.copyFile tables (volume.target name) size
  | .makeDirectory path => volume.makeDirectory tables path
  | .remove path => some (volume.removeFile path)
  | .unsupported => none

def run (volume : ClusterVolume) (steps : List FileStep) : Option ClusterVolume :=
  steps.foldlM (step tables) volume

/-! ## What an operation takes -/

/-- The clusters that a copy takes. -/
def copyCost (volume : ClusterVolume) (path : VolumePath) (size : Nat) : Int :=
  volume.clustersOf size + volume.tableCost tables path - volume.heldBy path

/-- The clusters that an operation takes; negative where it frees some. -/
def cost (volume : ClusterVolume) : FileStep → Int
  | .copy path size => volume.copyCost tables path size
  | .install name size => volume.copyCost tables (volume.target name) size
  | .makeDirectory path => if volume.nodes path = none then 1 + tables path else 0
  | .remove path => -volume.heldBy path
  | .unsupported => 0

end Steps

end ClusterVolume

/-- The paths that an operation reads and writes. -/
def FileStep.footprint : FileStep → List VolumePath
  | .copy path _ => [path]
  | .install name _ => [[name], [name, name]]
  | .makeDirectory path => [path]
  | .remove path => [path]
  | .unsupported => []

namespace ClusterVolume

variable {tables : VolumePath → Nat} {volume next : ClusterVolume}

/-- What an operation leaves: the free clusters are less by its cost, and the other
paths are as they were. -/
structure Takes (volume next : ClusterVolume) (cost : Int) (footprint : List VolumePath) : Prop where
  cluster : next.cluster = volume.cluster
  free : (next.free : Int) + cost = volume.free
  others : ∀ path ∉ footprint, next.nodes path = volume.nodes path

theorem take_takes {path : VolumePath} {node : VolumeNode} {returned needed : Nat}
    (taken : volume.take path node returned needed = some next) :
    Takes volume next (needed - returned) [path] := by
  rw [take] at taken
  split at taken
  · cases taken
    refine ⟨rfl, ?_, fun other elsewhere => ?_⟩
    · simp only
      omega
    · exact Function.update_of_ne (by simpa using elsewhere) _ _
  · cases taken

theorem copyFile_takes {path : VolumePath} {size : Nat}
    (copied : volume.copyFile tables path size = some next) :
    Takes volume next (volume.copyCost tables path size) [path] := by
  rw [copyFile] at copied
  split at copied
  · cases copied
  · have taken := take_takes copied
    rwa [Int.natCast_add] at taken

theorem target_mem_footprint (volume : ClusterVolume) (name : String) (size : Nat) :
    volume.target name ∈ (FileStep.install name size).footprint := by
  rw [target]
  split <;> simp [FileStep.footprint]

theorem step_takes {operation : FileStep} (done : volume.step tables operation = some next) :
    Takes volume next (volume.cost tables operation) operation.footprint := by
  cases operation with
  | copy path size => exact copyFile_takes done
  | install name size =>
      have taken := copyFile_takes done
      refine ⟨taken.cluster, taken.free, fun path elsewhere => taken.others path ?_⟩
      rintro inside
      cases List.mem_singleton.mp inside
      exact elsewhere (target_mem_footprint volume name size)
  | makeDirectory path =>
      rw [step, makeDirectory] at done
      rw [cost]
      split at done
      · rename_i isDirectory
        cases done
        exact ⟨rfl, by simp [isDirectory], fun _ _ => rfl⟩
      · cases done
      · rename_i absent
        rw [if_pos absent]
        simpa [FileStep.footprint] using take_takes done
  | remove path =>
      cases done
      rw [cost, heldBy, removeFile]
      split
      · refine ⟨rfl, by simp, fun other elsewhere => ?_⟩
        exact Function.update_of_ne (by simpa [FileStep.footprint] using elsewhere) _ _
      · exact ⟨rfl, by simp, fun _ _ => rfl⟩
  | unsupported => cases done

/-- The cost of an operation depends on its own paths only. -/
theorem cost_congr {other : ClusterVolume} {operation : FileStep} (cluster : other.cluster = volume.cluster)
    (same : ∀ path ∈ operation.footprint, other.nodes path = volume.nodes path) :
    other.cost tables operation = volume.cost tables operation := by
  have sizes : other.clustersOf = volume.clustersOf := by
    funext size
    rw [clustersOf, clustersOf, cluster]
  have copies : ∀ path size, other.nodes path = volume.nodes path →
      other.copyCost tables path size = volume.copyCost tables path size := by
    intro path size unchanged
    rw [copyCost, copyCost, tableCost, tableCost, heldBy, heldBy, unchanged, sizes]
  cases operation with
  | copy path size => exact copies path size (same path List.mem_cons_self)
  | install name size =>
      have sameTarget : other.target name = volume.target name := by
        rw [target, target, same [name] List.mem_cons_self]
      rw [cost, cost, sameTarget]
      exact copies _ size (same _ (target_mem_footprint volume name size))
  | makeDirectory path => rw [cost, cost, same path List.mem_cons_self]
  | remove path => rw [cost, cost, heldBy, heldBy, same path List.mem_cons_self, sizes]
  | unsupported => rfl

/-- Operations on different paths take, together, what each of them takes of the
volume as it was at first. -/
theorem run_takes {steps : List FileStep} (done : volume.run tables steps = some next)
    (apart : steps.Pairwise fun first second => first.footprint.Disjoint second.footprint) :
    Takes volume next (steps.map (volume.cost tables)).sum (steps.flatMap FileStep.footprint) := by
  induction steps generalizing volume with
  | nil =>
      cases done
      exact ⟨rfl, by simp, fun _ _ => rfl⟩
  | cons operation rest induction =>
      rw [run, List.foldlM_cons, Option.bind_eq_bind, Option.bind_eq_some_iff] at done
      rcases done with ⟨middle, first, later⟩
      rw [List.pairwise_cons] at apart
      have head := step_takes first
      have tail := induction later apart.2
      have sameCosts : rest.map (middle.cost tables) = rest.map (volume.cost tables) := by
        refine List.map_congr_left fun other member => cost_congr head.cluster fun path inside => ?_
        exact head.others path fun both => apart.1 other member both inside
      refine ⟨tail.cluster.trans head.cluster, ?_, fun path elsewhere => ?_⟩
      · have left := tail.free
        rw [sameCosts] at left
        rw [List.map_cons, List.sum_cons]
        have taken := head.free
        omega
      · rw [List.flatMap_cons, List.mem_append, not_or] at elsewhere
        exact (tail.others path elsewhere.2).trans (head.others path elsewhere.1)

/-- A file that is written over fits where its size is at most the free bytes and
its own. -/
theorem copyFile_fits {path : VolumePath} {old size : Nat} (isFile : volume.nodes path = some (.file old))
    (room : size ≤ volume.freeBytes + old) : (volume.copyFile tables path size).isSome = true := by
  have enough : volume.clustersOf size ≤ volume.free + volume.clustersOf old := by
    rw [clustersOf, clustersOf, add_comm volume.free, ← Nat.add_mul_div_right _ _ volume.positive]
    refine Nat.div_le_div_right ?_
    rw [freeBytes] at room
    omega
  simp [copyFile, take, heldBy, tableCost, isFile, enough]

end ClusterVolume

end Foundation
