import Zlyme.Foundation.Decimal
import Zlyme.Foundation.KeyedRows
import Zlyme.Foundation.Text

/-! # The mount table as the cleanup reads it

The awk program of `pm_mountinfo_awk`: the reading of the table, and its four modes.
The kernel prints ids without leading zeros, so that awk compares two of them as their
texts.
-/

namespace Zlyme.Portmaster

open Foundation.Text Foundation.Decimal Foundation.KeyedRows

abbrev Text : Type :=
  List UInt8

def ascii (literal : String) : Text :=
  literal.toList.map Char.toUInt8

def slash : UInt8 :=
  0x2f

def backslash : UInt8 :=
  0x5c

def newline : UInt8 :=
  0x0a

/-! ## Fields -/

def isOctal (byte : UInt8) : Bool :=
  0x30 ≤ byte && byte ≤ 0x37

/-- A field without the escapes of the kernel. -/
def decode : Text → Text
  | first :: a :: b :: c :: rest =>
      if first = backslash ∧ isOctal a ∧ isOctal b ∧ isOctal c then
        UInt8.ofNat (digitValue a * 64 + digitValue b * 8 + digitValue c) :: decode rest
      else first :: decode (a :: b :: c :: rest)
  | first :: rest => first :: decode rest
  | [] => []

/-- `is_prefix`: one path is a directory above another one. -/
def isPrefix (pre path : Text) : Bool :=
  if pre = path then false
  else if pre = [slash] then true
  else (pre ++ [slash]).isPrefixOf path

def isBlank (byte : UInt8) : Bool :=
  byte = 0x20 || byte = 0x09

/-- `/^[0-9]+$/` -/
def isNumber (field : Text) : Bool :=
  !field.isEmpty && field.all isDigit

/-! ## The table -/

structure Row where
  id : Text
  parent : Text
  point : Text
  deriving DecidableEq, Repr

/-- The arrays of the program. A line that cannot be read makes the table bad. -/
structure Table where
  rows : List Row
  bad : Bool
  deriving DecidableEq, Repr

namespace Table

/-- `parent_of` -/
def parentOf (table : Table) (id : Text) : Option Text :=
  (lookup Row.id table.rows id).map Row.parent

/-- `mp_of` -/
def pointOf (table : Table) (id : Text) : Option Text :=
  (lookup Row.id table.rows id).map Row.point

/-- `at` -/
def idsAt (table : Table) (path : Text) : List Text :=
  (table.rows.filter fun row => row.point = path).map Row.id

/-- `paths` -/
def paths (table : Table) : List Text :=
  table.rows.map Row.point

def readLine (table : Table) (line : Text) : Table :=
  match words isBlank line with
  | [] => table
  | id :: parent :: _ :: _ :: point :: _ =>
      if isNumber id && isNumber parent && (table.parentOf id).isNone then
        { table with rows := table.rows ++ [⟨id, parent, decode point⟩] }
      else { table with bad := true }
  | _ => { table with bad := true }

def read (file : Text) : Table :=
  (lines (· == newline) file).foldl readLine ⟨[], false⟩

/-- The ids at a path that no other id there has for its parent. -/
def tops (table : Table) (path : Text) : List Text :=
  (table.idsAt path).filter fun id =>
    !(table.idsAt path).any fun other => other ≠ id && table.parentOf other = some id

/-- `top_count`, with `top_only` beside it. -/
def topCount (table : Table) (path : Text) : Nat × Text :=
  ((table.tops path).length, (table.tops path).getLast?.getD [])

/-- What `ancestor` answers: 0, 1 or -1. -/
inductive Ancestry
  | no
  | yes
  | unclear
  deriving DecidableEq, Repr

/-- The loop of `ancestor`. -/
def climb (table : Table) (target : Text) : Nat → List Text → Text → Ancestry
  | 0, _, _ => .unclear
  | guard + 1, seen, id =>
      match table.parentOf id with
      | none => .no
      | some parent =>
          if parent = target then .yes
          else if parent = id then .no
          else if parent ∈ seen then .unclear
          else climb table target guard (parent :: seen) parent

def ancestor (table : Table) (id target : Text) : Ancestry :=
  if id = target then .yes else table.climb target 64 [id] id

/-! ## Roles -/

inductive Role
  | visible
  | covered
  | hidden
  | absent
  | ambiguous
  deriving DecidableEq, Repr

def Role.word : Role → Text
  | .visible => ascii "visible"
  | .covered => ascii "covered"
  | .hidden => ascii "hidden"
  | .absent => ascii "absent"
  | .ambiguous => ascii "ambiguous"

section Order

-- what `for (q in paths)` visits, which awk may order as it likes
variable (order : List Text)

/-- The loop over the shorter paths, for an id that is the top of a path. -/
def roleBelow (table : Table) (held want : Text) : List Text → Role
  | [] => .visible
  | path :: rest =>
      if !isPrefix path want then roleBelow table held want rest
      else if (table.topCount path).1 ≠ 1 then .ambiguous
      else
        match table.ancestor held (table.topCount path).2 with
        | .unclear => .ambiguous
        | .no => .hidden
        | .yes => roleBelow table held want rest

def roleOf (table : Table) (id want : Text) : Role :=
  match table.pointOf id with
  | none => .absent
  | some point =>
      if point ≠ want then .ambiguous
      else if (table.topCount want).1 ≠ 1 then .ambiguous
      else if (table.topCount want).2 ≠ id then .covered
      else table.roleBelow id want order

/-- The mode `role`. A table that cannot be read whole answers nothing else. -/
def role (table : Table) (id want : Text) : Role :=
  if table.bad then .ambiguous else table.roleOf order id want

/-- The loop over the shorter paths of the mode `visible`. -/
def visibleBelow (table : Table) (held want : Text) : List Text → Bool
  | [] => true
  | path :: rest =>
      if !isPrefix path want then visibleBelow table held want rest
      else if (table.topCount path).1 ≠ 1 then false
      else
        match table.ancestor held (table.topCount path).2 with
        | .unclear => false
        | .no => false
        | .yes => visibleBelow table held want rest

def visible (table : Table) (want : Text) : Option Text :=
  if (table.topCount want).1 ≠ 1 then none
  else if table.visibleBelow (table.topCount want).2 want order then some (table.topCount want).2
  else none

/-- The longest path above. -/
def bestPrefix (want : Text) : Option Text → List Text → Option Text
  | best, [] => best
  | best, path :: rest =>
      if !isPrefix path want then bestPrefix want best rest
      else if best.all fun found => found.length < path.length then bestPrefix want (some path) rest
      else bestPrefix want best rest

def parent (table : Table) (want : Text) : Option Text :=
  if (table.topCount want).1 = 0 then
    match bestPrefix want none order with
    | none => some (ascii "1")
    | some best =>
        if (table.topCount best).1 ≠ 1 then none else some (table.topCount best).2
  else if (table.topCount want).1 ≠ 1 then none
  else some (table.topCount want).2

end Order

end Table

/-! ## Modes -/

inductive Mode
  | ids
  | role
  | visible
  | parent
  deriving DecidableEq, Repr

/-- The lines that are printed, or nothing when the status is 1. -/
def pmMountinfoAwk (order : List Text) (mode : Mode) (want id file : Text) :
    Option (List Text) :=
  let table := Table.read file
  match mode with
  | .role => some [(table.role order id want).word]
  | .ids => if table.bad then none else some (table.idsAt want)
  | .visible => if table.bad then none else (table.visible order want).map fun id => [id]
  | .parent => if table.bad then none else (table.parent order want).map fun id => [id]

end Zlyme.Portmaster
