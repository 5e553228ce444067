import Zlyme.Bios.Layers

/-! # The view of all trees

Which entries a tree has, and when the union shows the last of them at every path.
-/

namespace Zlyme.Bios

open Foundation

/-! ## Entries of a tree -/

/-- An entry below a node that is no directory of its own. -/
inductive Below : Node → Path → Bool → Prop
  | file {children : Tree} {name : Name} (member : (name, Node.file) ∈ children) :
      Below (.dir children) [name] false
  | dirLink {children : Tree} {name : Name} (member : (name, Node.dirLink) ∈ children) :
      Below (.dir children) [name] true
  | inside {children : Tree} {name : Name} {node : Node} {path : Path} {isDir : Bool}
      (member : (name, node) ∈ children) (below : Below node path isDir) :
      Below (.dir children) (path ++ [name]) isDir

theorem Below.ne_nil {node : Node} {path : Path} {isDir : Bool} (below : Below node path isDir) :
    path ≠ [] := by
  cases below with
  | file => exact List.cons_ne_nil _ _
  | dirLink => exact List.cons_ne_nil _ _
  | inside => simp

theorem mem_leavesOf {rel : Path} {children : Tree} {leaf : Leaf} :
    leaf ∈ leavesOf rel children ↔
      (∃ name, (name, Node.dirLink) ∈ children ∧ leaf = ⟨name :: rel, true⟩) ∨
        ∃ name, (name, Node.file) ∈ children ∧ leaf = ⟨name :: rel, false⟩ := by
  rw [leavesOf, List.mem_append, List.mem_filterMap, List.mem_filterMap]
  refine or_congr ?_ ?_
  · constructor
    · rintro ⟨⟨name, node⟩, member, found⟩
      cases node with
      | dirLink => exact ⟨name, member, (Option.some.inj found).symm⟩
      | file => cases found
      | dir inner => cases found
    · rintro ⟨name, member, rfl⟩
      exact ⟨_, member, rfl⟩
  · constructor
    · rintro ⟨⟨name, node⟩, member, found⟩
      cases node with
      | file => exact ⟨name, member, (Option.some.inj found).symm⟩
      | dirLink => cases found
      | dir inner => cases found
    · rintro ⟨name, member, rfl⟩
      exact ⟨_, member, rfl⟩

mutual

/-- The walk finds the entries below a node. -/
theorem mem_walk {rel : Path} {leaf : Leaf} : (node : Node) →
    (leaf ∈ node.walk rel ↔ ∃ path, Below node path leaf.isDir ∧ leaf.path = path ++ rel)
  | .file => by
      rw [Node.walk]
      exact iff_of_false List.not_mem_nil fun ⟨_, below, _⟩ => nomatch below
  | .dirLink => by
      rw [Node.walk]
      exact iff_of_false List.not_mem_nil fun ⟨_, below, _⟩ => nomatch below
  | .dir children => by
      rw [Node.walk, List.mem_append, mem_leavesOf, mem_walkAll children]
      constructor
      · rintro ((⟨name, member, rfl⟩ | ⟨name, member, rfl⟩) | ⟨name, node, path, member, below, same⟩)
        · exact ⟨[name], .dirLink member, rfl⟩
        · exact ⟨[name], .file member, rfl⟩
        · exact ⟨path ++ [name], .inside member below, by rw [same, List.append_assoc]; rfl⟩
      · rintro ⟨path, below, same⟩
        rcases leaf with ⟨found, isDir⟩
        cases same
        cases below with
        | file member => exact .inl (.inr ⟨_, member, rfl⟩)
        | dirLink member => exact .inl (.inl ⟨_, member, rfl⟩)
        | inside member below =>
            exact .inr ⟨_, _, _, member, below, List.append_assoc _ _ _⟩

theorem mem_walkAll {rel : Path} {leaf : Leaf} : (children : List (Name × Node)) →
    (leaf ∈ walkAll rel children ↔ ∃ name node path, (name, node) ∈ children ∧
      Below node path leaf.isDir ∧ leaf.path = path ++ name :: rel)
  | [] => by
      rw [walkAll]
      exact iff_of_false List.not_mem_nil fun ⟨_, _, _, member, _⟩ => List.not_mem_nil member
  | (name, node) :: rest => by
      rw [walkAll, List.mem_append, mem_walk node, mem_walkAll rest]
      constructor
      · rintro (⟨path, below, same⟩ | ⟨other, found, path, member, below, same⟩)
        · exact ⟨name, node, path, List.mem_cons_self, below, same⟩
        · exact ⟨other, found, path, List.mem_cons_of_mem _ member, below, same⟩
      · rintro ⟨other, found, path, member, below, same⟩
        rcases List.mem_cons.mp member with first | later
        · cases first
          exact .inl ⟨path, below, same⟩
        · exact .inr ⟨other, found, path, later, below, same⟩

end

theorem Leaf.not_climbs (leaf : Leaf) : leaf.climbs = false := by
  rw [climbs, List.any_eq_false]
  intro name _ same
  exact name.named.2.2.1 (beq_iff_eq.mp same)

/-- A tree that is a directory has the entry. -/
def Has (tree : Option Tree) (path : Path) (isDir : Bool) : Prop :=
  ∃ children, tree = some children ∧ Below (.dir children) path isDir

/-! ## Rows of the trees -/

def rowsOf (root : Nat) : Option Tree → List Row
  | none => []
  | some children =>
      ((Node.dir children).walk []).map fun leaf =>
        (leaf.path, { root, path := leaf.path, isDir := leaf.isDir })

def allRows (root : Nat) : List (Option Tree) → List Row
  | [] => []
  | tree :: rest => rowsOf root tree ++ allRows (root + 1) rest

theorem addTree_eq (view : View) (root : Nat) (tree : Option Tree) :
    addTree view root tree = (rowsOf root tree).foldlM addRow view := by
  cases tree with
  | none => rfl
  | some children =>
      have all : ((Node.dir children).walk []).filter (fun leaf => !leaf.climbs) =
          (Node.dir children).walk [] := by
        rw [List.filter_eq_self]
        intro leaf _
        rw [leaf.not_climbs]
        rfl
      rw [addTree, all, rowsOf, List.foldlM_map]
      rfl

theorem addTrees_eq (root : Nat) (trees : List (Option Tree)) (view : View) :
    addTrees root trees view = (allRows root trees).foldlM addRow view := by
  induction trees generalizing root view with
  | nil => rfl
  | cons tree rest induction =>
      rw [addTrees, allRows, List.foldlM_append, addTree_eq]
      refine bind_congr fun added => ?_
      exact induction (root + 1) added

theorem mem_rowsOf {root : Nat} {tree : Option Tree} {row : Row} : row ∈ rowsOf root tree ↔
    ∃ isDir, Has tree row.1 isDir ∧ row.2 = ⟨root, row.1, isDir⟩ := by
  cases tree with
  | none => exact iff_of_false List.not_mem_nil fun ⟨_, ⟨_, absent, _⟩, _⟩ => nomatch absent
  | some children =>
      rw [rowsOf, List.mem_map]
      constructor
      · rintro ⟨leaf, member, rfl⟩
        rcases (mem_walk _).mp member with ⟨path, below, same⟩
        rw [List.append_nil] at same
        exact ⟨leaf.isDir, ⟨children, rfl, same ▸ below⟩, rfl⟩
      · rintro ⟨isDir, ⟨_, same, below⟩, target⟩
        cases same
        refine ⟨⟨row.1, isDir⟩, (mem_walk _).mpr ⟨row.1, below, (List.append_nil _).symm⟩, ?_⟩
        rw [← target]

/-- The rows are the entries of the trees. -/
theorem mem_allRows {root : Nat} {trees : List (Option Tree)} {row : Row} :
    row ∈ allRows root trees ↔ ∃ index tree isDir, trees[index]? = some tree ∧
      Has tree row.1 isDir ∧ row.2 = ⟨root + index, row.1, isDir⟩ := by
  induction trees generalizing root with
  | nil =>
      refine iff_of_false List.not_mem_nil ?_
      rintro ⟨index, tree, isDir, absent, _⟩
      cases absent
  | cons tree rest induction =>
      rw [allRows, List.mem_append, mem_rowsOf, induction]
      constructor
      · rintro (⟨isDir, has, target⟩ | ⟨index, other, isDir, found, has, target⟩)
        · exact ⟨0, tree, isDir, rfl, has, target⟩
        · refine ⟨index + 1, other, isDir, found, has, ?_⟩
          rw [target, Nat.add_assoc, Nat.add_comm 1]
      · rintro ⟨index, other, isDir, found, has, target⟩
        cases index with
        | zero =>
            cases found
            exact .inl ⟨isDir, has, target⟩
        | succ index =>
            refine .inr ⟨index, other, isDir, found, has, ?_⟩
            rw [target, Nat.add_assoc, Nat.add_comm 1]

/-- A later tree has the last word on a path. -/
def LastHas (trees : List (Option Tree)) (index : Nat) (path : Path) : Prop :=
  (∃ tree isDir, trees[index]? = some tree ∧ Has tree path isDir) ∧
    ∀ later tree isDir, index < later → trees[later]? = some tree → ¬Has tree path isDir

theorem last_append_list (front back : List Row) (path : Path) :
    last (front ++ back) path = (last back path).or (last front path) := by
  rw [last, last, last, List.reverse_append, List.lookup_append]

theorem mem_of_last {rows : List Row} {path : Path} {target : Target}
    (isLast : last rows path = some target) : (path, target) ∈ rows := by
  rcases List.lookup_eq_some_iff.mp isLast with ⟨front, back, split, _⟩
  rw [← List.mem_reverse, split]
  exact List.mem_append_right _ List.mem_cons_self

/-- The last row of a path is one of the last tree that has it. -/
theorem last_allRows (root : Nat) {trees : List (Option Tree)} {index : Nat} {path : Path}
    (lastHas : LastHas trees index path) : ∃ tree isDir, trees[index]? = some tree ∧
      Has tree path isDir ∧ last (allRows root trees) path = some ⟨root + index, path, isDir⟩ := by
  induction trees generalizing root index with
  | nil =>
      rcases lastHas.1 with ⟨tree, isDir, absent, _⟩
      cases absent
  | cons first rest induction =>
      rw [allRows, last_append_list]
      cases index with
      | zero =>
          have absent : last (allRows (root + 1) rest) path = none := by
            rw [last_eq_none]
            rintro row member rfl
            rcases mem_allRows.mp member with ⟨later, tree, isDir, found, has, _⟩
            exact lastHas.2 (later + 1) tree isDir (Nat.succ_pos later) found has
          rcases lastHas.1 with ⟨tree, isDir, found, has⟩
          cases found
          have member : (path, Target.mk root path isDir) ∈ rowsOf root first :=
            mem_rowsOf.mpr ⟨isDir, has, rfl⟩
          rcases Option.ne_none_iff_exists'.mp fun none => last_eq_none.mp none _ member rfl with
            ⟨target, isLast⟩
          rcases mem_rowsOf.mp (mem_of_last isLast) with ⟨kind, has, same⟩
          refine ⟨first, kind, rfl, has, ?_⟩
          rw [absent, Option.none_or, isLast]
          exact congrArg some same
      | succ index =>
          have later : LastHas rest index path :=
            ⟨lastHas.1, fun later tree isDir after found =>
              lastHas.2 (later + 1) tree isDir (Nat.succ_lt_succ after) found⟩
          rcases induction (root + 1) later with ⟨tree, isDir, found, has, isLast⟩
          refine ⟨tree, isDir, found, has, ?_⟩
          rw [isLast, Option.some_or, Nat.add_assoc, Nat.add_comm 1]

/-! ## Aliases -/

section Aliases

variable {view after : View}

theorem mem_namesIn {dir : Path} {name : Name} :
    name ∈ namesIn view dir ↔ (view.lookup (name :: dir)).isSome := by
  rw [List.lookup_isSome_iff, namesIn, List.mem_filterMap]
  constructor
  · rintro ⟨⟨path, entry⟩, member, found⟩
    cases path with
    | nil => cases found
    | cons other parent =>
        dsimp only at found
        split at found
        · rename_i same
          cases found
          exact ⟨_, member, by simp [same]⟩
        · cases found
  · rintro ⟨⟨path, entry⟩, member, same⟩
    rw [beq_iff_eq] at same
    cases same
    exact ⟨_, member, if_pos rfl⟩

/-- The view has gained aliases at its top level. -/
structure Aliased (view after : View) : Prop where
  kept : ∀ path entry, view.lookup path = some entry → after.lookup path = some entry
  added : ∀ path entry, view.lookup path = none → after.lookup path = some entry →
    ∃ fn name, path = [fn] ∧ entry = .relative [fn, name] ∧ view.lookup [name] = some .dir ∧
      (view.lookup [fn, name]).isSome

theorem aliased_refl (view : View) : Aliased view view where
  kept := fun _ _ found => found
  added := fun path entry absent found => by
    rw [absent] at found
    cases found

theorem Aliased.lookup_dir (aliased : Aliased view after) {path : Path} :
    after.lookup path = some .dir ↔ view.lookup path = some .dir := by
  refine ⟨fun found => ?_, aliased.kept path .dir⟩
  cases before : view.lookup path with
  | some entry =>
      rw [aliased.kept path entry before] at found
      exact found
  | none =>
      rcases aliased.added path .dir before found with ⟨_, _, _, same, _⟩
      cases same

theorem Aliased.lookup_inside (aliased : Aliased view after) {fn name : Name} :
    (after.lookup [fn, name]).isSome ↔ (view.lookup [fn, name]).isSome := by
  constructor
  · intro found
    rcases Option.isSome_iff_exists.mp found with ⟨entry, found⟩
    cases before : view.lookup [fn, name] with
    | some other => rfl
    | none =>
        rcases aliased.added _ entry before found with ⟨_, _, same, _⟩
        cases same
  · intro found
    rcases Option.isSome_iff_exists.mp found with ⟨entry, found⟩
    rw [aliased.kept _ entry found]
    rfl

/-- One alias is made where nothing is. -/
theorem Aliased.into (aliased : Aliased view after) {fn name : Name}
    (isDir : view.lookup [name] = some .dir) (inside : (view.lookup [fn, name]).isSome) :
    ∃ last, aliasInto name after fn = .ok last ∧ Aliased view last ∧ (last.lookup [fn]).isSome ∧
      ∀ other, (after.lookup [other]).isSome → (last.lookup [other]).isSome := by
  rw [aliasInto]
  cases there : after.lookup [fn] with
  | some entry => exact ⟨after, rfl, aliased, by rw [there]; rfl, fun _ found => found⟩
  | none =>
      have linked : link after [fn] (.relative [fn, name]) =
          .ok (after.set [fn] (.relative [fn, name])) := by
        change relink after fn [] _ = _
        rw [relink, place, there]
      refine ⟨_, linked, ⟨fun path entry found => ?_, fun path entry absent found => ?_⟩, ?_, ?_⟩
      · have before := aliased.kept path entry found
        rw [lookup_set, if_neg]
        · exact before
        · rintro rfl
          rw [there] at before
          cases before
      · rw [lookup_set] at found
        split at found
        · rename_i same
          cases found
          exact ⟨fn, name, same, rfl, isDir, inside⟩
        · exact aliased.added path entry absent found
      · rw [lookup_set, if_pos rfl]
        rfl
      · intro other found
        rw [lookup_set]
        split
        · rfl
        · exact found

/-- What is in a directory of the top level has its name at the top level. -/
def RootDone (view : View) (name : Name) (after : View) : Prop :=
  view.lookup [name] = some .dir → ∀ fn, (view.lookup [fn, name]).isSome →
    (after.lookup [fn]).isSome

theorem Aliased.root (aliased : Aliased view after) (listing : Listing) (name : Name) :
    ∃ last, aliasRoot listing after name = .ok last ∧ Aliased view last ∧
      RootDone view name last ∧
      ∀ other, (after.lookup [other]).isSome → (last.lookup [other]).isSome := by
  rw [aliasRoot]
  by_cases isDir : view.lookup [name] = some .dir
  · rw [if_pos (aliased.lookup_dir.mpr isDir)]
    have inside (fn : Name) : fn ∈ listing.order (namesIn after [name]) ↔
        (view.lookup [fn, name]).isSome := by
      rw [(listing.perm _).mem_iff, mem_namesIn, aliased.lookup_inside]
    have steps := foldlM_establishes (aliasInto name) (fun fn view => (view.lookup [fn]).isSome)
      (fun fn member _ aliased => aliased.into isDir ((inside fn).mp member)) aliased
    rcases steps with ⟨last, isLast, aliased, all, kept⟩
    exact ⟨last, isLast, aliased, fun _ fn found => all fn ((inside fn).mpr found), kept⟩
  · rw [if_neg (mt aliased.lookup_dir.mp isDir)]
    exact ⟨after, rfl, aliased, fun found => absurd found isDir, fun _ found => found⟩

/-- The aliases never fail. -/
theorem aliasRoots_spec (listing : Listing) (view : View) :
    ∃ last, aliasRoots listing view = .ok last ∧ Aliased view last ∧
      ∀ name, RootDone view name last := by
  have step (name : Name) (after : View) (aliased : Aliased view after) :
      ∃ last, aliasRoot listing after name = .ok last ∧ Aliased view last ∧
        RootDone view name last ∧
        ∀ other, RootDone view other after → RootDone view other last := by
    rcases aliased.root listing name with ⟨last, isLast, aliased, all, kept⟩
    exact ⟨last, isLast, aliased, all, fun other done isDir fn found => kept fn (done isDir fn found)⟩
  rcases foldlM_establishes (aliasRoot listing) (RootDone view)
    (fun name _ after aliased => step name after aliased) (aliased_refl view) with
    ⟨last, isLast, aliased, all, _⟩
  refine ⟨last, isLast, aliased, fun name isDir => all name ?_ isDir⟩
  rw [(listing.perm _).mem_iff, mem_namesIn, isDir]
  rfl

end Aliases

/-! ## The mark of a finished view -/

theorem openFollowing_some (view after : View) (entry : Entry) :
    openFollowing view (some entry) ≠ .ok after := by
  cases entry with
  | dir => exact nofun
  | ready => exact nofun
  | relative path => exact nofun
  | link target => cases isDir : target.isDir <;> simp [openFollowing, isDir]

/-- The mark can be written only where nothing is: a link there leads to a source tree. -/
theorem writeReady_eq_ok {view after : View} : writeReady view = .ok after ↔
    view.lookup [readyName] = none ∧ after = view.set [readyName] .ready := by
  rw [writeReady]
  cases view.lookup [readyName] with
  | none =>
      refine ⟨fun written => ⟨rfl, (Except.ok.inj written).symm⟩, ?_⟩
      rintro ⟨_, rfl⟩
      rfl
  | some entry =>
      refine iff_of_false ?_ fun both => nomatch both.1
      cases entry with
      | relative path =>
          dsimp only
          split
          · exact nofun
          · exact openFollowing_some view after _
      | dir => exact nofun
      | ready => exact nofun
      | link target => exact openFollowing_some view after (.link target)

/-! ## The union -/

/-- Some tree has the path as an entry. -/
def IsEntry (trees : List (Option Tree)) (path : Path) : Prop :=
  ∃ (index : Nat) (tree : Option Tree) (isDir : Bool), trees[index]? = some tree ∧ Has tree path isDir

/-- No entry of a tree is above an entry of a tree, and no name at the top or right below it
is that of the mark. -/
structure Compatible (trees : List (Option Tree)) : Prop where
  layered : ∀ path other, IsEntry trees path → IsEntry trees other → path <:+ other → path = other
  unmarked : ∀ path, IsEntry trees path → readyName ∉ path.reverse.take 2

/-- What a path leads to through the directories of the view. -/
def resolve (view : View) : Path → Option Entry
  | [] => some .dir
  | name :: parent => if place view parent = .dir then view.lookup (name :: parent) else none

/-- The union is built, without an exception or a write into a source tree, and every path
leads to the entry of the last tree that has it, or to a directory when an entry is below it. -/
def IsLayered (listing : Listing) (trees : List (Option Tree)) : Prop :=
  ∃ view, union listing trees = .ok view ∧
    (∀ index path, LastHas trees index path → ∃ tree isDir, trees[index]? = some tree ∧
      Has tree path isDir ∧ resolve view path = some (.link ⟨index, path, isDir⟩)) ∧
    ∀ path dir, IsEntry trees path → dir <:+ path → dir ≠ path → resolve view dir = some .dir

theorem isEntry_iff {trees : List (Option Tree)} {path : Path} :
    IsEntry trees path ↔ ∃ row ∈ allRows 0 trees, row.1 = path := by
  constructor
  · rintro ⟨index, tree, isDir, found, has⟩
    exact ⟨(path, ⟨0 + index, path, isDir⟩), mem_allRows.mpr ⟨index, tree, isDir, found, has, rfl⟩, rfl⟩
  · rintro ⟨row, member, rfl⟩
    rcases mem_allRows.mp member with ⟨index, tree, isDir, found, has, _⟩
    exact ⟨index, tree, isDir, found, has⟩

theorem layered_iff {trees : List (Option Tree)} : Layered (allRows 0 trees) ↔
    ∀ path other, IsEntry trees path → IsEntry trees other → path <:+ other → path = other := by
  constructor
  · intro layered path other isEntry isOther suffix
    rcases isEntry_iff.mp isEntry with ⟨row, member, rfl⟩
    rcases isEntry_iff.mp isOther with ⟨second, isSecond, rfl⟩
    exact layered row member second isSecond suffix
  · intro layered row member second isSecond suffix
    exact layered row.1 second.1 (isEntry_iff.mpr ⟨row, member, rfl⟩)
      (isEntry_iff.mpr ⟨second, isSecond, rfl⟩) suffix

theorem mem_top_two {name : Name} {path : Path} :
    name ∈ path.reverse.take 2 ↔ [name] <:+ path ∨ ∃ parent, [name, parent] <:+ path := by
  have turned (other : Path) : other <:+ path ↔ other.reverse <+: path.reverse :=
    List.reverse_prefix.symm
  simp only [turned]
  rcases path.reverse with _ | ⟨first, _ | ⟨second, rest⟩⟩
  · simp
  · simp [eq_comm]
  · simp only [List.take_succ_cons, List.take_zero, List.mem_cons, List.not_mem_nil, or_false,
      List.reverse_singleton, List.reverse_cons, List.reverse_nil, List.nil_append,
      List.singleton_append, List.cons_prefix_cons, List.nil_prefix, and_true]
    exact or_congr_right ⟨fun same => ⟨first, rfl, same⟩, fun ⟨_, _, same⟩ => same⟩

section Shows

variable {done : List Row} {view : View}

theorem Shows.isSome_iff (shows : Shows done view) {path : Path} (nonempty : path ≠ []) :
    (view.lookup path).isSome ↔ ∃ row ∈ done, path <:+ row.1 := by
  rw [shows.lookup path nonempty]
  cases isLast : last done path with
  | some target =>
      rw [expected_of_last isLast]
      exact iff_of_true rfl ⟨_, mem_of_last isLast, List.suffix_refl _⟩
  | none =>
      by_cases above : ∃ row ∈ done, path <:+ row.1
      · rw [expected_above isLast above]
        exact iff_of_true rfl above
      · rw [expected_none isLast fun row member suffix => above ⟨row, member, suffix⟩]
        exact iff_of_false Bool.false_ne_true above

/-- Above an entry there are directories. -/
theorem Shows.lookup_above (shows : Shows done view) {path : Path} {row : Row} (member : row ∈ done)
    (nonempty : path ≠ []) (above : path <:+ row.1) (different : path ≠ row.1) :
    view.lookup path = some .dir := by
  rw [shows.lookup path nonempty]
  refine expected_above ?_ ⟨row, member, above⟩
  rw [last_eq_none]
  rintro other isOther rfl
  exact different (shows.layered other isOther row member above)

theorem shows_nil : Shows [] [] where
  layered := fun _ member => absurd member List.not_mem_nil
  named := fun _ member => absurd member List.not_mem_nil
  lookup := fun path _ => (expected_none rfl fun _ member => absurd member List.not_mem_nil).symm

end Shows

theorem allRows_named {trees : List (Option Tree)} : ∀ row ∈ allRows 0 trees, row.1 ≠ [] := by
  intro row member
  rcases mem_allRows.mp member with ⟨_, _, _, _, ⟨_, _, below⟩, _⟩
  exact below.ne_nil

/-- The mark is written exactly when its name is not at the top nor right below it. -/
theorem unmarked_iff {trees : List (Option Tree)} {view after : View}
    (shows : Shows (allRows 0 trees) view) (aliased : Aliased view after)
    (done : ∀ name, RootDone view name after) : after.lookup [readyName] = none ↔
      ∀ path, IsEntry trees path → readyName ∉ path.reverse.take 2 := by
  constructor
  · intro absent path isEntry marked
    rcases isEntry_iff.mp isEntry with ⟨row, member, rfl⟩
    have found : (after.lookup [readyName]).isSome := by
      rcases mem_top_two.mp marked with top | ⟨parent, below⟩
      · have inView := (shows.isSome_iff (List.cons_ne_nil _ _)).mpr ⟨row, member, top⟩
        rcases Option.isSome_iff_exists.mp inView with ⟨entry, inView⟩
        rw [aliased.kept _ entry inView]
        rfl
      · have inView := (shows.isSome_iff (List.cons_ne_nil _ _)).mpr ⟨row, member, below⟩
        have above : [parent] <:+ row.1 := (List.suffix_cons readyName [parent]).trans below
        have different : [parent] ≠ row.1 := by
          intro same
          rw [← same] at below
          exact absurd below.length_le (Nat.not_succ_le_self 1)
        exact done parent (shows.lookup_above member (List.cons_ne_nil _ _) above different) readyName
          inView
    rw [absent] at found
    cases found
  · intro unmarked
    by_contra present
    rcases Option.ne_none_iff_exists'.mp present with ⟨entry, found⟩
    cases before : view.lookup [readyName] with
    | some other =>
        rcases (shows.isSome_iff (List.cons_ne_nil _ _)).mp (by rw [before]; rfl) with
          ⟨row, member, top⟩
        exact unmarked row.1 (isEntry_iff.mpr ⟨row, member, rfl⟩) (mem_top_two.mpr (.inl top))
    | none =>
        rcases aliased.added _ entry before found with ⟨fn, name, same, _, _, inside⟩
        cases same
        rcases (shows.isSome_iff (List.cons_ne_nil _ _)).mp inside with ⟨row, member, below⟩
        exact unmarked row.1 (isEntry_iff.mpr ⟨row, member, rfl⟩)
          (mem_top_two.mpr (.inr ⟨name, below⟩))

section Finished

variable {done : List Row} {view aliased : View} (shows : Shows done view)
  (gained : Aliased view aliased) (free : aliased.lookup [readyName] = none)

include gained free in
theorem finished_keeps {path : Path} {entry : Entry} (found : view.lookup path = some entry) :
    (aliased.set [readyName] .ready).lookup path = some entry := by
  have inAliased := gained.kept path entry found
  rw [lookup_set, if_neg]
  · exact inAliased
  · rintro rfl
    rw [free] at inAliased
    cases inAliased

include shows gained free

theorem finished_dirs {row : Row} (member : row ∈ done) {path : Path} (above : path <:+ row.1)
    (different : path ≠ row.1) : AllDirs (aliased.set [readyName] .ready) path := by
  intro dir nonempty suffix
  refine finished_keeps gained free (shows.lookup_above member nonempty (suffix.trans above) ?_)
  rintro rfl
  exact different (above.eq_of_length_le suffix.length_le)

/-- In a finished view every path leads to its last row. -/
theorem resolve_last {path : Path} {target : Target} (isLast : last done path = some target) :
    resolve (aliased.set [readyName] .ready) path = some (.link target) := by
  have member := mem_of_last isLast
  have named := shows.named _ member
  rcases path with _ | ⟨name, parent⟩
  · exact absurd rfl named
  have dirs := finished_dirs shows gained free member (List.suffix_cons name parent)
    (suffix_ne_cons (List.suffix_refl parent))
  rw [resolve, if_pos (place_eq_dir.mpr dirs)]
  apply finished_keeps gained free
  rw [shows.lookup _ named, expected_of_last isLast]

theorem resolve_above {row : Row} (member : row ∈ done) {path : Path} (above : path <:+ row.1)
    (different : path ≠ row.1) : resolve (aliased.set [readyName] .ready) path = some .dir := by
  have dirs := finished_dirs shows gained free member above different
  rcases path with _ | ⟨name, parent⟩
  · rfl
  · rw [resolve, if_pos (place_eq_dir.mpr dirs.parent)]
    exact dirs _ (List.cons_ne_nil _ _) (List.suffix_refl _)

end Finished

/-- The union is the layered lookup exactly when the trees are compatible. -/
theorem union_layered (listing : Listing) (trees : List (Option Tree)) :
    IsLayered listing trees ↔ Compatible trees := by
  constructor
  · rintro ⟨view, isUnion, _⟩
    rcases bind_eq_ok.mp isUnion with ⟨added, isAdded, rest⟩
    rcases bind_eq_ok.mp rest with ⟨aliased, isAliased, written⟩
    rw [addTrees_eq] at isAdded
    have layered := shows_nil.layered_of_addRows allRows_named isAdded
    rcases shows_nil.addRows allRows_named layered with ⟨other, isOther, shows⟩
    cases isOther.symm.trans isAdded
    rcases aliasRoots_spec listing added with ⟨last, isLast, gained, done⟩
    cases isLast.symm.trans isAliased
    exact ⟨layered_iff.mp layered,
      (unmarked_iff shows gained done).mp (writeReady_eq_ok.mp written).1⟩
  · intro compatible
    rcases shows_nil.addRows allRows_named (layered_iff.mpr compatible.layered) with
      ⟨added, isAdded, shows⟩
    rcases aliasRoots_spec listing added with ⟨aliased, isAliased, gained, done⟩
    have free := (unmarked_iff shows gained done).mpr compatible.unmarked
    refine ⟨aliased.set [readyName] .ready, ?_, fun index path lastHas => ?_,
      fun path dir isEntry above different => ?_⟩
    · rw [union, addTrees_eq, isAdded, ok_bind, isAliased, ok_bind]
      exact writeReady_eq_ok.mpr ⟨free, rfl⟩
    · rcases last_allRows 0 lastHas with ⟨tree, isDir, found, has, isLast⟩
      rw [Nat.zero_add] at isLast
      exact ⟨tree, isDir, found, has, resolve_last shows gained free isLast⟩
    · rcases isEntry_iff.mp isEntry with ⟨row, member, rfl⟩
      exact resolve_above shows gained free member above different

/-! ## Two trees -/

def biosName : Name where
  text := [0x78]
  named := by decide

def inOrder : Listing where
  order := id
  perm := fun _ => .refl _

/-- A file in the first tree is a directory in the second one. -/
def clashing : List (Option Tree) :=
  [some [(biosName, .file)], some [(biosName, .dir [(biosName, .file)])]]

theorem union_raises : ¬∀ (listing : Listing) (trees : List (Option Tree)),
    IsLayered listing trees := by
  intro all
  rcases all inOrder clashing with ⟨view, isUnion, _⟩
  have raises : union inOrder clashing = .error .raised := by rfl
  rw [raises] at isUnion
  cases isUnion

end Zlyme.Bios
