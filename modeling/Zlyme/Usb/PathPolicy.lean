import Zlyme.Foundation.Text
import Mathlib.Data.List.Infix

/-! # Paths that are never shared

`zlyme-usb-transfer` decides in shell which roots it exports, and `zlyme-usb-enter` checks them
again in C before it binds them into its namespace.
-/

namespace Zlyme.Usb

open Foundation.Text

abbrev Text : Type :=
  List UInt8

def ascii (literal : String) : Text :=
  literal.toList.map Char.toUInt8

def slash : UInt8 :=
  0x2f

/-! ## The helper -/

namespace Enter

/-- `strstr`: the rest of the string from the first occurrence on, with the byte before it. -/
def strstr (name : Text) : Option UInt8 → Text → Option (Option UInt8 × Text)
  | prev, [] => if name = [] then some (prev, []) else none
  | prev, byte :: rest =>
      if name.isPrefixOf (byte :: rest) then some (prev, byte :: rest)
      else strstr name (some byte) rest

/-- The loop of `component_is`, from a pointer on with the byte before it. -/
def componentLoop (name : Text) : Nat → Option UInt8 → Text → Bool
  | 0, _, _ => false
  | passes + 1, prev, p =>
      match strstr name prev p with
      | none => false
      | some (before, found) =>
          let after := found.drop name.length
          if (before = none ∨ before = some slash) ∧ (after.head? = some slash ∨ after = []) then true
          else componentLoop name passes name.getLast? after

/-- `component_is`. Each pass leaves less of the path. -/
def componentIs (path name : Text) : Bool :=
  componentLoop name (path.length + 1) none path

def pathForbidden (path : Text) : Bool :=
  (path == ascii "/dev" || (ascii "/dev/").isPrefixOf path) ||
    (path == ascii "/sys" || (ascii "/sys/").isPrefixOf path) ||
    (path == ascii "/proc" || (ascii "/proc/").isPrefixOf path) ||
    (path == ascii "/boot" || (ascii "/boot/").isPrefixOf path) ||
    (componentIs path (ascii ".config") || componentIs path (ascii ".update") ||
      componentIs path (ascii ".logs"))

end Enter

/-! ## The shell -/

/-- The patterns `*/name` and `*/name/*`. -/
def matchesComponent (path name : Text) : Bool :=
  (slash :: name).isSuffixOf path || decide (slash :: name ++ [slash] <:+: path)

/-- The patterns `root` and `root/*`. -/
def matchesRoot (path root : Text) : Bool :=
  path == root || (root ++ [slash]).isPrefixOf path

def pathForbidden (path : Text) : Bool :=
  (["/dev", "/sys", "/proc", "/boot"].any fun root => matchesRoot path (ascii root)) ||
    ([".config", ".update", ".logs"].any fun name => matchesComponent path (ascii name))

/-! ## Components -/

section Components

variable {name path : Text} {prev : Option UInt8}

/-- The byte before a text that stands after `front`. -/
def lastOf (prev : Option UInt8) (front : Text) : Option UInt8 :=
  front.getLast?.or prev

/-- The name stands between slashes or the ends of the path. -/
def HasComponent (name : Text) (prev : Option UInt8) (path : Text) : Prop :=
  ∃ front back, path = front ++ (name ++ back) ∧
    (lastOf prev front = none ∨ lastOf prev front = some slash) ∧
    (back.head? = some slash ∨ back = [])

theorem lastOf_append (prev : Option UInt8) (front back : Text) :
    lastOf prev (front ++ back) = lastOf (lastOf prev front) back := by
  simp [lastOf, List.getLast?_append, Option.or_assoc]

theorem strstr_eq_some {found : Text} {before : Option UInt8}
    (isFound : Enter.strstr name prev path = some (before, found)) :
    ∃ front, path = front ++ found ∧ before = lastOf prev front ∧ name <+: found ∧
      ∀ short back, path = short ++ (name ++ back) → front.length ≤ short.length := by
  induction path generalizing prev with
  | nil =>
      rw [Enter.strstr] at isFound
      split at isFound
      · rename_i isEmpty
        cases isFound
        exact ⟨[], rfl, rfl, isEmpty ▸ List.nil_prefix, fun _ _ _ => Nat.zero_le _⟩
      · cases isFound
  | cons byte rest induction =>
      rw [Enter.strstr] at isFound
      split at isFound
      · rename_i isPrefix
        cases isFound
        exact ⟨[], rfl, rfl, List.isPrefixOf_iff_prefix.mp isPrefix, fun _ _ _ => Nat.zero_le _⟩
      · rename_i isNot
        rcases induction isFound with ⟨front, rfl, isBefore, starts, first⟩
        refine ⟨byte :: front, rfl, ?_, starts, ?_⟩
        · rw [isBefore, ← List.singleton_append, lastOf_append]
          rfl
        · intro short back split
          cases short with
          | nil =>
              rw [List.nil_append] at split
              exact absurd (List.isPrefixOf_iff_prefix.mpr (split ▸ List.prefix_append name back)) isNot
          | cons head short =>
              rw [List.cons_append, List.cons.injEq] at split
              exact Nat.succ_le_succ (first short back split.2)

theorem strstr_eq_none (absent : Enter.strstr name prev path = none) :
    ∀ front back, path ≠ front ++ (name ++ back) := by
  induction path generalizing prev with
  | nil =>
      intro front back split
      rw [Enter.strstr] at absent
      have isEmpty : name = [] := by
        have empty := (List.append_eq_nil_iff.mp split.symm).2
        exact (List.append_eq_nil_iff.mp empty).1
      rw [if_pos isEmpty] at absent
      cases absent
  | cons byte rest induction =>
      intro front back split
      rw [Enter.strstr] at absent
      split at absent
      · cases absent
      · rename_i isNot
        cases front with
        | nil =>
            rw [List.nil_append] at split
            exact isNot (List.isPrefixOf_iff_prefix.mpr (split ▸ List.prefix_append name back))
        | cons head front =>
            rw [List.cons_append, List.cons.injEq] at split
            exact induction absent front back split.2

/-- After a name that is no component, the search goes on behind it: a name without slashes does
not start inside another one. -/
theorem hasComponent_behind {front after : Text} {last : UInt8} (isLast : name.getLast? = some last)
    (noSlash : slash ∉ name)
    (first : ∀ short back, front ++ (name ++ after) = short ++ (name ++ back) →
      front.length ≤ short.length)
    (isNot : ¬((lastOf prev front = none ∨ lastOf prev front = some slash) ∧
      (after.head? = some slash ∨ after = []))) :
    HasComponent name prev (front ++ (name ++ after)) ↔ HasComponent name name.getLast? after := by
  have behind : ∀ between, lastOf prev (front ++ name ++ between) = lastOf name.getLast? between := by
    intro between
    rw [lastOf_append, lastOf_append]
    simp [lastOf, isLast]
  constructor
  · rintro ⟨short, back, split, starts, ends⟩
    have longer := first short back split
    rcases List.append_eq_append_iff.mp split with ⟨between, rfl, inner⟩ | ⟨between, shorter, inner⟩
    · rcases List.append_eq_append_iff.mp inner with ⟨gap, rfl, isAfter⟩ | ⟨rest, isName, isBack⟩
      · rw [← List.append_assoc, behind] at starts
        exact ⟨gap, back, isAfter, starts, ends⟩
      · cases isEnd : between.getLast? with
        | none =>
            -- the component is the name that was found
            rw [List.getLast?_eq_none_iff] at isEnd
            subst isEnd
            rw [List.nil_append] at isName
            rw [List.append_nil] at starts
            rw [← isName, List.append_cancel_left_eq] at isBack
            rw [isBack] at ends
            exact absurd ⟨starts, ends⟩ isNot
        | some byte =>
            have isSlash : byte = slash := by
              simpa [lastOf_append, lastOf, isEnd] using starts
            have inName : byte ∈ name := by
              rw [isName]
              exact List.mem_append_left _ (List.mem_of_getLast? isEnd)
            exact absurd (isSlash ▸ inName) noSlash
    · have empty : between = [] := by
        have lengths := congrArg List.length shorter
        rw [List.length_append] at lengths
        exact List.eq_nil_of_length_eq_zero (by omega)
      subst empty
      rw [List.append_nil] at shorter
      rw [List.nil_append, List.append_cancel_left_eq] at inner
      rw [← shorter] at starts
      rw [inner] at ends
      exact absurd ⟨starts, ends⟩ isNot
  · rintro ⟨gap, back, rfl, starts, ends⟩
    refine ⟨front ++ name ++ gap, back, by simp, ?_, ends⟩
    rw [behind]
    exact starts

theorem componentLoop_iff {last : UInt8} (isLast : name.getLast? = some last) (noSlash : slash ∉ name)
    {passes : Nat} (enough : path.length < passes) :
    Enter.componentLoop name passes prev path = true ↔ HasComponent name prev path := by
  induction passes generalizing prev path with
  | zero => exact absurd enough (Nat.not_lt_zero _)
  | succ passes induction =>
      rw [Enter.componentLoop]
      cases found : Enter.strstr name prev path with
      | none =>
          have absent := strstr_eq_none found
          simp only [Bool.false_eq_true, false_iff]
          rintro ⟨front, back, split, -⟩
          exact absent front back split
      | some result =>
          rcases strstr_eq_some found with ⟨front, isPath, isBefore, ⟨after, isFound⟩, first⟩
          have isAfter : result.2.drop name.length = after := by
            rw [← isFound, List.drop_left]
          rw [← isFound] at isPath
          subst isPath
          simp only [isAfter, isBefore]
          split
          · rename_i component
            simp only [true_iff]
            exact ⟨front, after, rfl, component⟩
          · rename_i isNot
            have shorter : after.length < passes := by
              have named : 0 < name.length :=
                List.length_pos_of_mem (List.mem_of_getLast? isLast)
              rw [List.length_append, List.length_append] at enough
              omega
            rw [induction shorter, hasComponent_behind isLast noSlash first isNot]

theorem componentIs_iff {last : UInt8} (isLast : name.getLast? = some last) (noSlash : slash ∉ name) :
    Enter.componentIs path name = true ↔ HasComponent name none path :=
  componentLoop_iff isLast noSlash (Nat.lt_succ_self _)

/-- In an absolute path, a component that is not the first one follows a slash. -/
theorem matchesComponent_iff {last : UInt8} (isLast : name.getLast? = some last)
    (noSlash : slash ∉ name) (absolute : path.head? = some slash) :
    matchesComponent path name = true ↔ HasComponent name none path := by
  rw [matchesComponent, Bool.or_eq_true, List.isSuffixOf_iff_suffix, decide_eq_true_iff]
  constructor
  · rintro (⟨front, rfl⟩ | ⟨front, back, rfl⟩)
    · exact ⟨front ++ [slash], [], by simp, by simp [lastOf], .inr rfl⟩
    · exact ⟨front ++ [slash], slash :: back, by simp, by simp [lastOf], .inl rfl⟩
  · rintro ⟨front, back, rfl, starts, ends⟩
    rcases starts with isFirst | isSlash
    · have empty : front = [] := by simpa [lastOf] using isFirst
      subst empty
      cases name with
      | nil => cases isLast
      | cons head rest =>
          have isHead : head = slash := by simpa using absolute
          exact absurd (isHead ▸ List.mem_cons_self) noSlash
    · have ended : front.getLast? = some slash := by simpa [lastOf] using isSlash
      rcases List.getLast?_eq_some_iff.mp ended with ⟨before, rfl⟩
      cases back with
      | nil => exact .inl ⟨before, by simp⟩
      | cons head back =>
          have isHead : head = slash := by simpa using ends
          exact .inr ⟨before, back, by simp [isHead]⟩

end Components

/-- The helper and the shell forbid the same absolute paths. -/
theorem pathForbidden_eq {path : Text} (absolute : path.head? = some slash) :
    Enter.pathForbidden path = pathForbidden path := by
  have agree : ∀ (name : Text) (last : UInt8), name.getLast? = some last → slash ∉ name →
      Enter.componentIs path name = matchesComponent path name := by
    intro name last isLast noSlash
    rw [Bool.eq_iff_iff, componentIs_iff isLast noSlash, matchesComponent_iff isLast noSlash absolute]
  have config := agree (ascii ".config") 0x67 (by decide) (by decide)
  have update := agree (ascii ".update") 0x65 (by decide) (by decide)
  have logs := agree (ascii ".logs") 0x73 (by decide) (by decide)
  have roots : ∀ root : String, matchesRoot path (ascii root) =
      (path == ascii root || (ascii root ++ [slash]).isPrefixOf path) := fun _ => rfl
  rw [Enter.pathForbidden, config, update, logs, pathForbidden]
  simp only [List.any_cons, List.any_nil, roots, Bool.or_false, Bool.or_assoc]
  rfl

end Zlyme.Usb
