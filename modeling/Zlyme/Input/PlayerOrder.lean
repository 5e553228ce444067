import Zlyme.Foundation.StableLast

/-! # The order of the players

`reconcile` of `zlyme-input.c` and `zlyme_order_builtin_last`: the pads that are
connected and the order that InputPlumber has stored become an order with the
built-in pad last.
-/

namespace Zlyme.Input

open Foundation

abbrev Text : Type :=
  List UInt8

def ascii (literal : String) : Text :=
  literal.toList.map Char.toUInt8

/-- `BUILTIN_NAME` -/
def builtinName : Text :=
  ascii "Miyoo Flip Gamepad"

/-! ## `zlyme_order_builtin_last` -/

section Order

variable {π : Type} [DecidableEq π]

/-- The two parallel arrays as one, of pointers that are compared as such. -/
def zlymeOrderBuiltinLast (entries : List (π × Option Text)) (builtinName : Text) : List π × Bool :=
  let isBuiltin := fun entry : π × Option Text => entry.2 == some builtinName
  let dst := ((entries.filter fun entry => !isBuiltin entry) ++ entries.filter isBuiltin).map Prod.fst
  if dst.length ≠ entries.length then (dst, false)
  else (dst, (dst.zip (entries.map Prod.fst)).any fun pair => pair.1 != pair.2)

end Order

/-! ## `reconcile` -/

/-- A composite device. -/
structure Device where
  path : Text
  name : Text
  deriving DecidableEq, Repr

/-- The managed objects are a dictionary by their paths. -/
structure Composites where
  devices : List Device
  distinct : (devices.map Device.path).Nodup

/-- A string of one of the arrays. No two of them have an address in common. -/
structure Ref where
  address : Nat
  text : Text
  deriving DecidableEq, Repr

/-- What comes of a call that sets the order. -/
inductive SetAnswer
  | done
  | refused
  /-- No reply in time. -/
  | unanswered (applied : Bool)
  deriving DecidableEq, Repr

/-- The answers of the bus and of the allocation. -/
structure Bus where
  lists : Bool
  gets : Bool
  allocates : Bool
  set : SetAnswer
  deriving DecidableEq, Repr

structure Outcome where
  /-- The order that is stored then. -/
  stored : List Text
  /-- Whether an order was sent. -/
  wrote : Bool
  code : Nat
  deriving DecidableEq, Repr

section Reconcile

variable (order : List Text) (composites : Composites)

def nameOf (path : Text) : Option Text :=
  (composites.devices.find? fun device => device.path == path).map Device.name

/-- The devices that are not in the order. -/
def newDevices : List Device :=
  composites.devices.filter fun device => !order.any fun path => path == device.path

/-- `paths` and `names` -/
def entries : List (Ref × Option Text) :=
  let known := order.map fun path => (path, some ((nameOf composites path).getD []))
  let found := (newDevices order composites).map fun device => (device.path, some device.name)
  (known ++ found).zipIdx.map fun entry => (⟨entry.2, entry.1.1⟩, entry.1.2)

/-- The order that the function makes of the extended one. -/
def ordered : List Text :=
  (zlymeOrderBuiltinLast (entries order composites) builtinName).1.map Ref.text

def changed : Bool :=
  (zlymeOrderBuiltinLast (entries order composites) builtinName).2

def reconcile (bus : Bus) : Outcome :=
  if !bus.lists then ⟨order, false, 1⟩
  else if !bus.gets then ⟨order, false, 1⟩
  else if !bus.allocates then ⟨order, false, 1⟩
  else if changed order composites then
    match bus.set with
    | .done => ⟨ordered order composites, true, 0⟩
    | .refused => ⟨order, true, 1⟩
    | .unanswered applied => ⟨if applied then ordered order composites else order, true, 1⟩
  else ⟨order, false, 0⟩

end Reconcile

/-! ## The function -/

section Order

variable {π : Type} [DecidableEq π]

def isBuiltin (name : Text) (entry : π × Option Text) : Bool :=
  entry.2 == some name

/-- The entries come in an order of their own, in which each kind keeps its order and
the built-in ones are last; the function leaves that order as it is. -/
def IsStableLast (entries : List (π × Option Text)) (name : Text) : Prop :=
  ∃ arranged : List (π × Option Text), (zlymeOrderBuiltinLast entries name).1 = arranged.map Prod.fst ∧
    arranged.Perm entries ∧
      arranged.filter (isBuiltin name) = entries.filter (isBuiltin name) ∧
        (arranged.filter fun entry => !isBuiltin name entry) =
          (entries.filter fun entry => !isBuiltin name entry) ∧
        (arranged.Pairwise fun first second =>
          isBuiltin name first = true → isBuiltin name second = true) ∧
          zlymeOrderBuiltinLast arranged name = (arranged.map Prod.fst, false)

theorem any_zip_ne {first second : List π} (same : first.length = second.length) :
    ((first.zip second).any fun pair => pair.1 != pair.2) = true ↔ first ≠ second := by
  induction first generalizing second with
  | nil =>
      cases second with
      | nil => simp
      | cons other rest => cases same
  | cons item rest induction =>
      cases second with
      | nil => cases same
      | cons other others =>
          have tail := induction (Nat.succ.inj same)
          rw [List.zip_cons_cons, List.any_cons, Bool.or_eq_true, tail, bne_iff_ne]
          simp only [ne_eq, List.cons.injEq]
          tauto

theorem zlymeOrderBuiltinLast_eq (entries : List (π × Option Text)) (name : Text) :
    zlymeOrderBuiltinLast entries name =
      ((putLast (isBuiltin name) entries).map Prod.fst,
        decide ((putLast (isBuiltin name) entries).map Prod.fst ≠ entries.map Prod.fst)) := by
  have whole : ((putLast (isBuiltin name) entries).map Prod.fst).length = entries.length := by
    rw [List.length_map, putLast_perm.length_eq]
  have lengths : ((putLast (isBuiltin name) entries).map Prod.fst).length = (entries.map Prod.fst).length :=
    whole.trans (List.length_map _).symm
  have differs := any_zip_ne lengths
  have isDst : ((entries.filter fun entry => !(entry.2 == some name)) ++
      entries.filter fun entry => entry.2 == some name) = putLast (isBuiltin name) entries := rfl
  unfold zlymeOrderBuiltinLast
  dsimp only
  rw [isDst, if_neg (not_not.mpr whole)]
  congr 1
  rw [Bool.eq_iff_iff, differs, decide_eq_true_eq]

theorem isStableLast (entries : List (π × Option Text)) (name : Text) : IsStableLast entries name := by
  refine ⟨putLast (isBuiltin name) entries, ?_, putLast_perm, filter_putLast.1, filter_putLast.2,
    pairwise_putLast, ?_⟩
  · rw [zlymeOrderBuiltinLast_eq]
  · rw [zlymeOrderBuiltinLast_eq, putLast_idem]
    simp

end Order

/-! ## The extended order -/

section Extended

variable (order : List Text) (composites : Composites)

/-- The stored order and the pads that it lacks. -/
def extended : List Text :=
  order ++ (newDevices order composites).map Device.path

def isBuiltinPath (path : Text) : Bool :=
  (nameOf composites path).getD [] == builtinName

/-- No built-in pad comes before another pad. -/
def BuiltinLast : Prop :=
  (extended order composites).Pairwise fun first second =>
    isBuiltinPath composites first = true → isBuiltinPath composites second = true

variable {order composites}

theorem nameOf_device {device : Device} (member : device ∈ composites.devices) :
    nameOf composites device.path = some device.name := by
  rw [nameOf]
  cases found : composites.devices.find? fun other => other.path == device.path with
  | none =>
      have missing := List.find?_eq_none.mp found device member
      simp at missing
  | some other =>
      have isPath := List.find?_some found
      have samePath : other.path = device.path := beq_iff_eq.mp isPath
      have same := List.inj_on_of_nodup_map composites.distinct (List.mem_of_find?_eq_some found) member
        samePath
      rw [same]
      rfl

/-- Each entry has the name of its path. -/
theorem entries_eq : entries order composites = (extended order composites).zipIdx.map fun entry =>
    (⟨entry.2, entry.1⟩, some ((nameOf composites entry.1).getD [])) := by
  have names : ((newDevices order composites).map fun device => (device.path, some device.name)) =
      ((newDevices order composites).map Device.path).map fun path =>
        (path, some ((nameOf composites path).getD [])) := by
    rw [List.map_map]
    apply List.map_congr_left
    intro device member
    rw [Function.comp_apply, nameOf_device (List.mem_filter.mp member).1]
    rfl
  rw [entries.eq_def]
  dsimp only
  rw [names, ← List.map_append, List.zipIdx_map, List.map_map, extended]
  rfl

theorem entries_text : (entries order composites).map (fun entry => entry.1.text) =
    extended order composites := by
  rw [entries_eq, List.map_map]
  exact List.zipIdx_map_fst 0 _

theorem entries_nodup : ((entries order composites).map Prod.fst).Nodup := by
  have addresses : (((entries order composites).map Prod.fst).map Ref.address).Nodup := by
    rw [entries_eq, List.map_map, List.map_map]
    show ((extended order composites).zipIdx.map Prod.snd).Nodup
    rw [List.zipIdx_map_snd]
    exact List.nodup_range'
  exact List.Nodup.of_map _ addresses

theorem isBuiltin_entry (entry : Text × Nat) :
    isBuiltin builtinName ((⟨entry.2, entry.1⟩ : Ref), some ((nameOf composites entry.1).getD [])) =
      isBuiltinPath composites entry.1 :=
  Option.some_beq_some

theorem ordered_eq : ordered order composites =
    putLast (isBuiltinPath composites) (extended order composites) := by
  have paths : putLast (isBuiltinPath composites) ((extended order composites).zipIdx.map Prod.fst) =
      (putLast (fun entry => isBuiltinPath composites entry.1) (extended order composites).zipIdx).map
        Prod.fst := putLast_map Prod.fst _
  rw [List.zipIdx_map_fst] at paths
  rw [ordered, zlymeOrderBuiltinLast_eq, paths, entries_eq, putLast_map]
  simp only [isBuiltin_entry, List.map_map]
  rfl

theorem changed_iff : changed order composites = true ↔ ¬BuiltinLast order composites := by
  have same : (putLast (isBuiltin builtinName) (entries order composites)).map Prod.fst =
      (entries order composites).map Prod.fst ↔ BuiltinLast order composites := by
    have paths := List.zipIdx_map_fst 0 (extended order composites)
    rw [map_eq_map_iff_of_perm putLast_perm entries_nodup, putLast_eq_self_iff, entries_eq,
      List.pairwise_map, BuiltinLast]
    nth_rewrite 2 [← paths]
    rw [List.pairwise_map]
    simp only [isBuiltin_entry]
  rw [changed, zlymeOrderBuiltinLast_eq, decide_eq_true_eq, ne_eq, same]

/-- An order that has the pads already is not extended. -/
theorem newDevices_eq_nil (has : ∀ device ∈ composites.devices, device.path ∈ order) :
    newDevices order composites = [] := by
  rw [newDevices, List.filter_eq_nil_iff]
  intro device member isNew
  have seen : (order.any fun path => path == device.path) = true :=
    List.any_eq_true.mpr ⟨device.path, has device member, beq_self_eq_true _⟩
  rw [seen] at isNew
  cases isNew

theorem mem_extended {device : Device} (member : device ∈ composites.devices) :
    device.path ∈ extended order composites := by
  rw [extended, List.mem_append]
  by_cases isOld : device.path ∈ order
  · exact .inl isOld
  · right
    refine List.mem_map.mpr ⟨device, List.mem_filter.mpr ⟨member, ?_⟩, rfl⟩
    rw [Bool.not_eq_true', List.any_eq_false]
    rintro path inOrder samePath
    exact isOld (beq_iff_eq.mp samePath ▸ inOrder)

end Extended

/-! ## What a run leaves -/

section Runs

variable {order : List Text} {composites : Composites}

theorem reconcile_done {bus : Bus} (done : (reconcile order composites bus).code = 0) :
    (reconcile order composites bus).stored =
      if changed order composites then ordered order composites else order := by
  unfold reconcile at done ⊢
  split at done
  · cases done
  · rename_i lists
    split at done
    · cases done
    · rename_i gets
      split at done
      · cases done
      · rename_i allocates
        rw [if_neg lists, if_neg gets, if_neg allocates]
        split at done
        · rename_i isChanged
          rw [if_pos isChanged, if_pos isChanged]
          split at done
          · rfl
          · cases done
          · cases done
        · rename_i unchanged
          rw [if_neg unchanged, if_neg unchanged]

theorem reconcile_unchanged (unchanged : changed order composites = false) (bus : Bus) :
    (reconcile order composites bus).stored = order ∧ (reconcile order composites bus).wrote = false := by
  unfold reconcile
  split
  · exact ⟨rfl, rfl⟩
  · split
    · exact ⟨rfl, rfl⟩
    · split
      · exact ⟨rfl, rfl⟩
      · rw [unchanged]
        exact ⟨rfl, rfl⟩

/-- The order that was made of the pads stays as it is. -/
theorem changed_ordered : changed (ordered order composites) composites = false := by
  have perm : (ordered order composites).Perm (extended order composites) := by
    rw [ordered_eq]
    exact putLast_perm
  have none : newDevices (ordered order composites) composites = [] :=
    newDevices_eq_nil fun device member => perm.mem_iff.mpr (mem_extended member)
  have whole : extended (ordered order composites) composites = ordered order composites := by
    rw [extended, none, List.map_nil, List.append_nil]
  have last : BuiltinLast (ordered order composites) composites := by
    rw [BuiltinLast, whole, ordered_eq]
    exact pairwise_putLast
  rw [Bool.eq_false_iff]
  exact fun isChanged => changed_iff.mp isChanged last

/-- What is said of a stored order and the pads that are connected. -/
structure Reconciled (order : List Text) (composites : Composites) : Prop where
  function : IsStableLast (entries order composites) builtinName
  leaves : ∀ bus, (reconcile order composites bus).code = 0 →
    (reconcile order composites bus).stored = ordered order composites
  settles : ∀ bus again, (reconcile order composites bus).code = 0 →
    (reconcile (reconcile order composites bus).stored composites again).stored =
        (reconcile order composites bus).stored ∧
      (reconcile (reconcile order composites bus).stored composites again).wrote = false

/-- A second run changes and writes nothing. -/
theorem reconcile_settles {bus : Bus} (again : Bus) (done : (reconcile order composites bus).code = 0) :
    (reconcile (reconcile order composites bus).stored composites again).stored =
        (reconcile order composites bus).stored ∧
      (reconcile (reconcile order composites bus).stored composites again).wrote = false := by
  apply reconcile_unchanged
  rw [reconcile_done done]
  cases isChanged : changed order composites with
  | true => exact changed_ordered
  | false => exact isChanged

/-- The order that is left is the one that was made exactly if no pad was missing in
the stored order, or a built-in pad came before another one. -/
theorem reconciled_iff (order : List Text) (composites : Composites) :
    Reconciled order composites ↔
      newDevices order composites = [] ∨ ¬BuiltinLast order composites := by
  constructor
  · intro reconciled
    by_contra neither
    rw [not_or, not_not] at neither
    have unchanged : changed order composites = false :=
      Bool.eq_false_iff.mpr fun isChanged => changed_iff.mp isChanged neither.2
    have left := reconciled.leaves ⟨true, true, true, .done⟩ (by simp [reconcile, unchanged])
    have kept := (reconcile_unchanged unchanged ⟨true, true, true, .done⟩).1
    rw [kept, ordered_eq, putLast_eq_self_iff.mpr neither.2, extended] at left
    have noMore := List.self_eq_append_right.mp left
    exact neither.1 (List.map_eq_nil_iff.mp noMore)
  · intro condition
    refine ⟨isStableLast _ _, ?_, fun _ again done => reconcile_settles again done⟩
    intro bus done
    rw [reconcile_done done]
    split
    · rfl
    · rename_i unchanged
      have last : BuiltinLast order composites := by
        by_contra notLast
        exact unchanged (changed_iff.mpr notLast)
      have none : newDevices order composites = [] := condition.resolve_right fun notLast => notLast last
      rw [ordered_eq, putLast_eq_self_iff.mpr last, extended, none, List.map_nil, List.append_nil]

end Runs

def externalPads : Composites where
  devices := [⟨ascii "/CompositeDevice1", ascii "External Gamepad"⟩,
    ⟨ascii "/CompositeDevice2", ascii "External Gamepad"⟩]
  distinct := by decide

/-- A second pad is not stored beside the first one. -/
theorem reconcile_forgets : ¬Reconciled [ascii "/CompositeDevice1"] externalPads := by
  intro reconciled
  have left := reconciled.leaves ⟨true, true, true, .done⟩ (by decide +kernel)
  revert left
  decide +kernel

end Zlyme.Input
