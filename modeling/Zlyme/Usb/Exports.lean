import Zlyme.Foundation.BestSoFar
import Zlyme.Foundation.Decimal
import Zlyme.Usb.PathPolicy
import Mathlib.Data.List.DropRight
import Mathlib.Data.List.Nodup

/-! # The exports of a transfer

`build_exports` shares the main card, the second card and the other media, each as one mounted
filesystem root, as far as the mount table allows.
-/

namespace Zlyme.Usb

open Foundation Foundation.Decimal Foundation.Text

def newline : UInt8 :=
  0x0a

def tab : UInt8 :=
  0x09

def blank : UInt8 :=
  0x20

def backslash : UInt8 :=
  0x5c

/-! ## The mount table -/

/-- What the kernel prints for a byte that would break a line of the table. -/
def octal (byte : UInt8) : Text :=
  [backslash, 0x30 + byte / 64, 0x30 + byte / 8 % 8, 0x30 + byte % 8]

def mangle (escaped field : Text) : Text :=
  field.flatMap fun byte => if escaped.contains byte then octal byte else [byte]

/-- A mount, in the order of the table. The kernel shows `none` where there is no source. -/
structure Mount where
  source : Text
  path : Text
  fstype : Text
  opts : Text
  source_ne : source ≠ []
  rooted : path.head? = some slash

/-- `s/escape/byte/g` -/
def sedOctal (a b c byte : UInt8) : Text → Text
  | first :: x :: y :: z :: rest =>
      if first = backslash ∧ x = a ∧ y = b ∧ z = c then byte :: sedOctal a b c byte rest
      else first :: sedOctal a b c byte (x :: y :: z :: rest)
  | first :: rest => first :: sedOctal a b c byte rest
  | [] => []

/-- `decode_mount` -/
def decodeMount (field : Text) : Text :=
  sedOctal 0x31 0x33 0x34 backslash (sedOctal 0x30 0x31 0x31 tab (sedOctal 0x30 0x34 0x30 blank field))

namespace Mount

/-- The decoded first field of the line. -/
def dev (mount : Mount) : Text :=
  decodeMount (mangle [blank, tab, newline, backslash, 0x23] mount.source)

/-- The decoded second field. -/
def mp (mount : Mount) : Text :=
  decodeMount (mangle [blank, tab, newline, backslash] mount.path)

/-- A mount whose line is at the directory or above it. -/
def covers (path : Text) (mount : Mount) : Bool :=
  mount.mp != [] && (mount.mp == path || (mount.mp ++ [slash]).isPrefixOf path)

end Mount

/-! ## The code -/

def storage : Text :=
  ascii "/storage"

def sd2 : Text :=
  ascii "/mnt/sd2"

def media : Text :=
  ascii "/mnt/media"

def boot : Text :=
  ascii "/boot"

/-- What the script looks at. -/
structure System where
  mounts : List Mount
  /-- `libraries` -/
  libraries : Option Text
  jail : Bool
  /-- `ZLYME_BOOT_DEVICE` -/
  bootDevice : Text
  /-- A directory that is not a link. -/
  isRealDir : Text → Bool
  writable : Text → Bool
  readable : Text → Bool

def mountsHas (mounts : List Mount) (path : Text) : Bool :=
  mounts.any fun mount => mount.mp != [] && mount.mp == path

/-- `cover_mount`: the last of the longest ones. -/
def coverMount (mounts : List Mount) (path : Text) : Option Mount :=
  bestOf (Mount.covers path) (fun mount best => decide (best.mp.length ≤ mount.mp.length)) mounts

def nestedMount (mounts : List Mount) (path : Text) : Bool :=
  mounts.any fun mount => mount.mp != [] && (path ++ [slash]).isPrefixOf mount.mp

def optHas (opts opt : Text) : Bool :=
  decide (ascii "," ++ opt ++ ascii "," <:+: ascii "," ++ opts ++ ascii ",")

def fsAllowed (jail : Bool) (fstype : Text) : Bool :=
  fstype == ascii "exfat" || fstype == ascii "vfat" || (fstype == ascii "ext4" && jail)

def mountedRw (opts : Text) : Bool :=
  !optHas opts (ascii "ro") && optHas opts (ascii "rw")

def rootPathOk (system : System) (path : Text) : Bool :=
  let stripped := path.rdropWhile (· == slash)
  !(path.contains 0x22 || path.contains tab || path.contains 0x2a) && !pathForbidden path &&
    (stripped.head? == some slash) &&
    !(decide (ascii "/../" <:+: stripped) || (ascii "/..").isSuffixOf stripped ||
      decide (ascii "//" <:+: stripped)) &&
    system.isRealDir stripped

def isBootDev (system : System) (dev : Text) : Bool :=
  (match coverMount system.mounts boot with
    | some mount => mount.dev != [] && dev == mount.dev
    | none => false) ||
    (system.bootDevice != [] && dev == system.bootDevice)

def isBootPath (path : Text) : Bool :=
  matchesRoot path boot

/-- Why a root is not shared. -/
inductive Refusal
  | bootVolume
  | notMounted
  | notRoot
  | filesystem (fstype : Text)
  | nested
  | noSource
  | notExportable
  | notWritable
  | notReadable
  | overLimit
  deriving DecidableEq, Repr

/-- What `record_skip` writes. -/
def Refusal.skipped : Refusal → Text
  | .bootVolume => ascii "is the boot volume"
  | .notMounted => ascii "is not mounted"
  | .notRoot => ascii "is not the mounted filesystem root"
  | .filesystem fstype =>
      if fstype = ascii "ext4" then ascii "filesystem is ext4, which can contain symlinks"
      else ascii "filesystem is " ++ fstype ++ ascii ", which is not shared"
  | .nested => ascii "contains a nested mount"
  | .noSource => ascii "has no mount source"
  | .notExportable => ascii "is not an exportable directory"
  | .notWritable => ascii "is not writable"
  | .notReadable => ascii "is not readable"
  | .overLimit => ascii "exceeds the 16 storage limit"

/-- The checks of `add_mount_root`, with the mode of the share. -/
def checkRoot (system : System) (path : Text) : Except Refusal Text :=
  if isBootPath path then .error .bootVolume
  else if !mountsHas system.mounts path then .error .notMounted
  else
    match coverMount system.mounts path with
    | none => .error .notRoot
    | some cover =>
        if cover.mp ≠ path then .error .notRoot
        else if isBootDev system cover.dev then .error .bootVolume
        else if !fsAllowed system.jail cover.fstype then .error (.filesystem cover.fstype)
        else if nestedMount system.mounts path then .error .nested
        else if cover.dev = [] ∨ matchesRoot cover.dev path then .error .noSource
        else if !rootPathOk system path then .error .notExportable
        else if mountedRw cover.opts then
          if system.writable path then .ok (ascii "rw") else .error .notWritable
        else if system.readable path then .ok (ascii "ro") else .error .notReadable

/-- A line of the exports file. -/
structure Export where
  path : Text
  name : Text
  mode : Text
  deriving DecidableEq, Repr

/-- The files that the loop writes. -/
structure Built where
  exports : List Export
  skipped : List (Text × Text)
  truncated : Bool
  deriving DecidableEq, Repr

/-- The names that `add_export` tries in turn. -/
def tryName (name : Text) : Nat → Text
  | 0 => name
  | i + 1 => name ++ blank :: decimal (i + 2)

/-- `while name_taken "$_try"` -/
def freeName (taken : List Text) (name : Text) : Nat → Nat → Option Text
  | 0, _ => none
  | passes + 1, i =>
      if taken.contains (tryName name i) then freeName taken name passes (i + 1)
      else some (tryName name i)

def Built.skip (built : Built) (path : Text) (refusal : Refusal) : Built :=
  { built with skipped := built.skipped ++ [(path, refusal.skipped)] }

/-- `add_export`. One of so many names is free. -/
def Built.addExport (built : Built) (path name mode : Text) : Built :=
  if 16 ≤ built.exports.length then { built with truncated := true }.skip path .overLimit
  else
    match freeName (built.exports.map Export.name) name (built.exports.length + 1) 0 with
    | some free => { built with exports := built.exports ++ [⟨path, free, mode⟩] }
    | none => built

/-- A root that is tried, with its label. -/
structure Root where
  path : Text
  label : Text
  primary : Bool
  deriving DecidableEq, Repr

def libraryLines (system : System) : List Text :=
  lines (· == newline) (system.libraries.getD [])

/-- `add_mount_root`, or `none` where it fails. -/
def addMountRoot (system : System) (built : Built) (root : Root) : Option Built :=
  if !(libraryLines system).contains root.path && !root.primary then some built
  else if (built.exports.map Export.path).contains root.path then some built
  else
    match checkRoot system root.path with
    | .error refusal =>
        if root.primary && refusal != .notReadable then none
        else some (built.skip root.path refusal)
    | .ok mode =>
        some (built.addExport root.path root.label
          (if root.primary then mode else mode ++ ascii ",removable"))

/-- The lines that are roots of other media. -/
def isMediaLine (line : Text) : Bool :=
  line != [] && line != storage && line != sd2 &&
    ((media ++ [slash]).isPrefixOf line && !(line.drop (media.length + 1)).contains slash)

/-- The calls of `add_mount_root` that `build_exports` makes. -/
def roots (system : System) : List Root :=
  ⟨storage, ascii "SDCARD1", true⟩ ::
    ((if (libraryLines system).contains sd2 then [⟨sd2, ascii "SDCARD2", false⟩] else []) ++
      ((libraryLines system).filter isMediaLine).map fun line => ⟨line, ascii "OTG", false⟩)

/-- `build_exports`, or `none` where it fails. -/
def buildExports (system : System) : Option Built :=
  ((roots system).foldlM (addMountRoot system) ⟨[], [], false⟩).filter fun built =>
    built.exports != []

/-! ## What the table shows -/

section Decoding

variable {a b c byte : UInt8}

theorem sedOctal_cons {first : UInt8} (differs : first ≠ backslash) (rest : Text) :
    sedOctal a b c byte (first :: rest) = first :: sedOctal a b c byte rest := by
  rcases rest with _ | ⟨x, _ | ⟨y, _ | ⟨z, rest⟩⟩⟩
  · rfl
  · rfl
  · rfl
  · rw [sedOctal, if_neg fun escape => differs escape.1]

/-- A byte that is no backslash, or an escape of three digits. -/
inductive IsToken : Text → Prop
  | single {first : UInt8} (differs : first ≠ backslash) : IsToken [first]
  | escape {x y z : UInt8} (first : x ≠ backslash) (second : y ≠ backslash) (third : z ≠ backslash) :
      IsToken [backslash, x, y, z]

theorem sedOctal_token {token : Text} (isToken : IsToken token) (rest : Text) :
    sedOctal a b c byte (token ++ rest) =
      (if token = [backslash, a, b, c] then [byte] else token) ++ sedOctal a b c byte rest := by
  cases isToken with
  | single differs =>
      rw [if_neg (by simp)]
      exact sedOctal_cons differs rest
  | @escape x y z first second third =>
      rw [List.cons_append, List.cons_append, List.cons_append, List.cons_append, List.nil_append,
        sedOctal]
      by_cases same : x = a ∧ y = b ∧ z = c
      · simp [same]
      · rw [if_neg (by simpa using same), if_neg (by simpa using same), sedOctal_cons first,
          sedOctal_cons second, sedOctal_cons third]
        rfl

/-- Each escape is replaced where it stands, and nothing else. -/
theorem sedOctal_flatMap {print : UInt8 → Text} (tokens : ∀ item, IsToken (print item)) (text : Text) :
    sedOctal a b c byte (text.flatMap print) =
      text.flatMap fun item => if print item = [backslash, a, b, c] then [byte] else print item := by
  induction text with
  | nil => rfl
  | cons item rest induction =>
      rw [List.flatMap_cons, List.flatMap_cons, sedOctal_token (tokens item), induction]

theorem isToken_replaced {print : UInt8 → Text} (tokens : ∀ item, IsToken (print item))
    (differs : byte ≠ backslash) (item : UInt8) :
    IsToken (if print item = [backslash, a, b, c] then [byte] else print item) := by
  split
  · exact .single differs
  · exact tokens item

end Decoding

/-- What `decode_mount` makes of a byte of a path: a newline stays an escape. -/
def shownByte (byte : UInt8) : Text :=
  if byte = newline then [backslash, 0x30, 0x31, 0x32] else [byte]

def shown (path : Text) : Text :=
  path.flatMap shownByte

theorem mp_eq_shown (mount : Mount) : mount.mp = shown mount.path := by
  let print : UInt8 → Text := fun byte =>
    if [blank, tab, newline, backslash].contains byte then octal byte else [byte]
  have digits : ∀ byte ∈ [blank, tab, newline, backslash], IsToken (octal byte) := by
    simp only [List.forall_mem_cons]
    refine ⟨?_, ?_, ?_, ?_, by simp⟩ <;> exact .escape (by decide) (by decide) (by decide)
  have tokens : ∀ byte, IsToken (print byte) := by
    intro byte
    simp only [print]
    split
    · rename_i member
      exact digits byte (List.contains_iff_mem.mp member)
    · rename_i absent
      apply IsToken.single
      rintro rfl
      exact absent (by decide)
  have whole : mangle [blank, tab, newline, backslash] mount.path = mount.path.flatMap print := rfl
  rw [Mount.mp, decodeMount, whole, sedOctal_flatMap tokens,
    sedOctal_flatMap (isToken_replaced tokens (by decide)),
    sedOctal_flatMap (isToken_replaced (isToken_replaced tokens (by decide)) (by decide)), shown]
  congr 1
  funext byte
  by_cases isBlank : byte = blank
  · subst isBlank
    decide
  · by_cases isTab : byte = tab
    · subst isTab
      decide
    · by_cases isNewline : byte = newline
      · subst isNewline
        decide
      · by_cases isBackslash : byte = backslash
        · subst isBackslash
          decide
        · simp [print, shownByte, isBlank, isTab, isNewline, isBackslash]

theorem shown_append (front back : Text) : shown (front ++ back) = shown front ++ shown back :=
  List.flatMap_append

theorem shown_of_unbroken {path : Text} (unbroken : newline ∉ path) : shown path = path := by
  calc
    shown path = path.flatMap fun byte => [byte] := by
      apply List.flatMap_congr
      intro byte member
      have differs : byte ≠ newline := fun same => unbroken (same ▸ member)
      rw [shownByte, if_neg differs]
    _ = path := List.flatMap_singleton' path

/-- A path that is shown without a backslash is the one that is shown. -/
theorem eq_of_shown {path other : Text} (same : shown path = other) (plain : backslash ∉ other) :
    path = other := by
  have unbroken : newline ∉ path := by
    intro member
    apply plain
    rw [← same, shown, List.mem_flatMap]
    exact ⟨newline, member, by decide⟩
  rw [← same, shown_of_unbroken unbroken]

/-- The mount that is on top at a path. -/
def topAt (mounts : List Mount) (path : Text) : Option Mount :=
  mounts.reverse.find? fun mount => mount.path == path

/-- The last mount that the script sees at a path. -/
def lastShown (mounts : List Mount) (path : Text) : Option Mount :=
  mounts.reverse.find? fun mount => mount.mp == path

section Tops

variable {mounts : List Mount} {path : Text} {mount : Mount}

theorem mp_of_path (unbroken : newline ∉ path) (isPath : mount.path = path) : mount.mp = path := by
  rw [mp_eq_shown, isPath, shown_of_unbroken unbroken]

theorem lastShown_mp (isLast : lastShown mounts path = some mount) : mount.mp = path := by
  simpa using List.find?_some isLast

theorem topAt_path (isTop : topAt mounts path = some mount) : mount.path = path := by
  simpa using List.find?_some isTop

theorem mem_of_topAt (isTop : topAt mounts path = some mount) : mount ∈ mounts :=
  List.mem_reverse.mp (List.mem_of_find?_eq_some isTop)

/-- Where the last mount that is shown at a path is at it, it is on top. -/
theorem topAt_of_lastShown (unbroken : newline ∉ path) (isLast : lastShown mounts path = some mount)
    (isPath : mount.path = path) : topAt mounts path = some mount := by
  rcases List.find?_eq_some_iff_append.mp isLast with ⟨-, later, earlier, split, others⟩
  rw [topAt, List.find?_eq_some_iff_append]
  refine ⟨by simpa using isPath, later, earlier, split, ?_⟩
  intro other member
  have elsewhere := others other member
  have differs : other.path ≠ path := by
    intro same
    simp [mp_of_path unbroken same] at elsewhere
  simpa using differs

theorem lastShown_eq_topAt (unbroken : newline ∉ path) (plain : backslash ∉ path) :
    lastShown mounts path = topAt mounts path := by
  have same : ∀ mount : Mount, (mount.mp == path) = (mount.path == path) := by
    intro mount
    rw [Bool.eq_iff_iff, beq_iff_eq, beq_iff_eq]
    constructor
    · intro isShown
      rw [mp_eq_shown] at isShown
      exact eq_of_shown isShown plain
    · exact mp_of_path unbroken
  simp only [lastShown, topAt, same]

theorem length_lt_of_covers (covers : mount.covers path = true) (differs : mount.mp ≠ path) :
    mount.mp.length < path.length := by
  simp only [Mount.covers, Bool.and_eq_true, Bool.or_eq_true, beq_iff_eq] at covers
  rcases covers.2 with same | isPrefix
  · exact absurd same differs
  · have shorter := (List.isPrefixOf_iff_prefix.mp isPrefix).length_le
    rw [List.length_append, List.length_singleton] at shorter
    omega

/-- No mount above a path is longer than one at it, and the last of these wins. -/
theorem coverMount_of_lastShown (nonempty : path ≠ []) (isLast : lastShown mounts path = some mount) :
    coverMount mounts path = some mount := by
  induction mounts using List.reverseRecOn with
  | nil => cases isLast
  | append_singleton mounts last induction =>
      rw [lastShown, List.reverse_append, List.reverse_singleton, List.singleton_append,
        List.find?_cons] at isLast
      rw [coverMount, bestOf_concat, keepBest_eq_some]
      cases here : last.mp == path with
      | true =>
          rw [here] at isLast
          cases isLast
          rw [beq_iff_eq] at here
          refine .inl ⟨?_, rfl, ?_⟩
          · simp [Mount.covers, here, nonempty]
          · intro old isOld
            have covers := (mem_of_bestOf isOld).2
            by_cases same : old.mp = path
            · simp [same, here]
            · have shorter := length_lt_of_covers covers same
              rw [decide_eq_true_iff, here]
              omega
      | false =>
          rw [here] at isLast
          refine .inr ⟨induction isLast, ?_⟩
          intro covers
          have differs : last.mp ≠ path := by
            intro same
            simp [same] at here
          have shorter := length_lt_of_covers covers differs
          rw [decide_eq_false_iff_not, @lastShown_mp mounts _ _ isLast]
          omega

theorem lastShown_of_coverMount (isCover : coverMount mounts path = some mount)
    (isPath : mount.mp = path) : lastShown mounts path = some mount := by
  have member := (mem_of_bestOf isCover).1
  have covers := (mem_of_bestOf isCover).2
  have nonempty : path ≠ [] := by
    rintro rfl
    simp [Mount.covers, isPath] at covers
  have isSome : (lastShown mounts path).isSome = true := by
    rw [lastShown, List.find?_isSome]
    exact ⟨mount, List.mem_reverse.mpr member, by simpa using isPath⟩
  rcases Option.isSome_iff_exists.mp isSome with ⟨last, isLast⟩
  rw [coverMount_of_lastShown nonempty isLast] at isCover
  rw [isLast, isCover]

end Tops

/-! ## Names -/

theorem decimal_inj {n m : Nat} (same : decimal n = decimal m) : n = m := by
  rw [← value_decimal n, same, value_decimal]

theorem tryName_inj {name : Text} {i j : Nat} (same : tryName name i = tryName name j) : i = j := by
  cases i with
  | zero =>
      cases j with
      | zero => rfl
      | succ j => simp [tryName] at same
  | succ i =>
      cases j with
      | zero => simp [tryName] at same
      | succ j =>
          simp only [tryName, List.append_cancel_left_eq, List.cons.injEq, true_and] at same
          have number := decimal_inj same
          omega

/-- Among more names than there are taken ones, one is free. -/
theorem exists_free (taken : List Text) (name : Text) (i : Nat) :
    ∃ j, i ≤ j ∧ j < i + (taken.length + 1) ∧ tryName name j ∉ taken := by
  by_contra full
  push Not at full
  let tried := (List.range (taken.length + 1)).map fun k => tryName name (i + k)
  have distinct : tried.Nodup := by
    apply List.Nodup.map
    · intro first second same
      have number := tryName_inj same
      omega
    · exact List.nodup_range
  have inside : tried ⊆ taken := by
    intro free member
    rcases List.mem_map.mp member with ⟨k, isIndex, rfl⟩
    exact full (i + k) (by omega) (by have := List.mem_range.mp isIndex; omega)
  have few := List.Nodup.length_le_of_subset distinct inside
  rw [List.length_map, List.length_range] at few
  omega

theorem freeName_eq_some {taken : List Text} {name free : Text} {passes i : Nat}
    (isFree : freeName taken name passes i = some free) : free ∉ taken := by
  induction passes generalizing i with
  | zero => cases isFree
  | succ passes induction =>
      rw [freeName] at isFree
      split at isFree
      · exact induction isFree
      · rename_i absent
        cases isFree
        intro member
        exact absent (List.contains_iff_mem.mpr member)

theorem freeName_isSome {taken : List Text} {name : Text} {passes i j : Nat} (from_ : i ≤ j)
    (within : j < i + passes) (absent : tryName name j ∉ taken) :
    ∃ free, freeName taken name passes i = some free := by
  induction passes generalizing i with
  | zero => omega
  | succ passes induction =>
      rw [freeName]
      split
      · rename_i isTaken
        have differs : i ≠ j := by
          rintro rfl
          exact absent (List.contains_iff_mem.mp isTaken)
        exact induction (by omega) (by omega)
      · exact ⟨_, rfl⟩

theorem freeName_total (taken : List Text) (name : Text) :
    ∃ free, freeName taken name (taken.length + 1) 0 = some free ∧ free ∉ taken := by
  rcases exists_free taken name 0 with ⟨j, from_, within, absent⟩
  rcases freeName_isSome from_ within absent with ⟨free, isFree⟩
  exact ⟨free, isFree, freeName_eq_some isFree⟩

/-! ## The loop -/

section Loop

variable {system : System} {built next : Built} {root : Root} {path : Text}

/-- The paths after one more root: a new one that passes the checks is taken, up to sixteen. -/
def accept (system : System) (taken : List Text) (path : Text) : List Text :=
  if taken.contains path then taken
  else
    match checkRoot system path with
    | .ok _ => if 16 ≤ taken.length then taken else taken ++ [path]
    | .error _ => taken

/-- Whether the main card makes the start fail. -/
def primaryFails (system : System) : Bool :=
  match checkRoot system storage with
  | .ok _ => false
  | .error refusal => refusal != .notReadable

/-- The first sixteen roots that pass the checks of `add_mount_root`. -/
def accepted (system : System) : List Text :=
  if primaryFails system then []
  else ((roots system).map Root.path).foldl (accept system) []

structure Built.Distinct (built : Built) : Prop where
  paths : (built.exports.map Export.path).Nodup
  names : (built.exports.map Export.name).Nodup
  few : built.exports.length ≤ 16

theorem skip_exports (refusal : Refusal) : (built.skip path refusal).exports = built.exports := rfl

theorem addExport_cases (built : Built) (path name mode : Text) :
    (16 ≤ built.exports.length ∧ (built.addExport path name mode).exports = built.exports) ∨
      (built.exports.length < 16 ∧ ∃ free, free ∉ built.exports.map Export.name ∧
        (built.addExport path name mode).exports = built.exports ++ [⟨path, free, mode⟩]) := by
  rw [Built.addExport]
  split
  · rename_i full
    exact .inl ⟨full, rfl⟩
  · rename_i room
    rcases freeName_total (built.exports.map Export.name) name with ⟨free, isFree, absent⟩
    rw [List.length_map] at isFree
    rw [isFree]
    exact .inr ⟨Nat.lt_of_not_le room, free, absent, rfl⟩

theorem listed_of_mem_roots (member : root ∈ roots system) :
    (!(libraryLines system).contains root.path && !root.primary) = false := by
  simp only [roots, List.mem_cons, List.mem_append, List.mem_map, List.mem_filter] at member
  rcases member with rfl | inSecond | ⟨line, ⟨listed, -⟩, rfl⟩
  · simp
  · split at inSecond
    · rename_i listed
      cases List.mem_singleton.mp inSecond
      rw [listed]
      rfl
    · cases inSecond
  · rw [List.contains_iff_mem.mpr listed]
    rfl

/-- One call takes what `accept` takes, and keeps paths and names apart. -/
theorem addMountRoot_spec (member : root ∈ roots system)
    (added : addMountRoot system built root = some next) :
    next.exports.map Export.path = accept system (built.exports.map Export.path) root.path ∧
      (built.Distinct → next.Distinct) := by
  rw [addMountRoot, listed_of_mem_roots member, if_neg (by simp)] at added
  rw [accept]
  cases known : (built.exports.map Export.path).contains root.path with
  | true =>
      rw [known, if_pos rfl] at added
      cases added
      exact ⟨by simp, id⟩
  | false =>
      rw [known, if_neg (by simp)] at added
      rw [if_neg (by simp)]
      cases checked : checkRoot system root.path with
      | error refusal =>
          simp only [checked] at added
          split at added
          · cases added
          · cases added
            exact ⟨rfl, fun distinct => ⟨distinct.paths, distinct.names, distinct.few⟩⟩
      | ok mode =>
          simp only [checked, Option.some.injEq] at added
          have cases_ := addExport_cases built root.path root.label
            (if root.primary then mode else mode ++ ascii ",removable")
          rw [added] at cases_
          simp only [List.length_map]
          rcases cases_ with ⟨full, same⟩ | ⟨room, free, absent, grown⟩
          · rw [if_pos full, same]
            refine ⟨rfl, fun distinct => ?_⟩
            constructor
            · rw [same]
              exact distinct.paths
            · rw [same]
              exact distinct.names
            · rw [same]
              exact distinct.few
          · rw [if_neg (by omega), grown]
            refine ⟨by simp, fun distinct => ?_⟩
            have fresh : root.path ∉ built.exports.map Export.path := by
              intro isKnown
              rw [List.contains_iff_mem.mpr isKnown] at known
              cases known
            constructor
            · rw [grown, List.map_append, List.map_singleton, ← List.concat_eq_append]
              exact distinct.paths.concat fresh
            · rw [grown, List.map_append, List.map_singleton, ← List.concat_eq_append]
              exact distinct.names.concat absent
            · rw [grown, List.length_append, List.length_singleton]
              omega

/-- Only the main card can make the start fail. -/
theorem addMountRoot_isSome (fine : root.primary = true → root.path = storage ∧ primaryFails system = false) :
    (addMountRoot system built root).isSome = true := by
  rw [addMountRoot]
  split
  · rfl
  · split
    · rfl
    · cases checked : checkRoot system root.path with
      | ok mode => rfl
      | error refusal =>
          simp only
          split
          · rename_i fails
            rw [Bool.and_eq_true] at fails
            rcases fine fails.1 with ⟨isStorage, notFails⟩
            rw [primaryFails, ← isStorage, checked] at notFails
            simp only at notFails
            rw [notFails] at fails
            cases fails.2
          · rfl

theorem primary_of_mem_roots (member : root ∈ roots system) (primary : root.primary = true) :
    root.path = storage := by
  simp only [roots, List.mem_cons, List.mem_append, List.mem_map] at member
  rcases member with rfl | inSecond | ⟨line, -, rfl⟩
  · rfl
  · split at inSecond
    · cases List.mem_singleton.mp inSecond
      cases primary
    · cases inSecond
  · cases primary

theorem foldlM_spec {roots' : List Root} (isRoots : ∀ root ∈ roots', root ∈ roots system)
    (folded : roots'.foldlM (addMountRoot system) built = some next) :
    next.exports.map Export.path =
        (roots'.map Root.path).foldl (accept system) (built.exports.map Export.path) ∧
      (built.Distinct → next.Distinct) := by
  induction roots' generalizing built with
  | nil =>
      cases folded
      exact ⟨rfl, id⟩
  | cons root later induction =>
      rw [List.foldlM_cons] at folded
      rcases Option.bind_eq_some_iff.mp folded with ⟨middle, isMiddle, rest⟩
      have first := addMountRoot_spec (isRoots root List.mem_cons_self) isMiddle
      have tail := induction (fun other member => isRoots other (List.mem_cons_of_mem _ member)) rest
      rw [List.map_cons, List.foldl_cons, ← first.1]
      exact ⟨tail.1, tail.2 ∘ first.2⟩

theorem foldlM_isSome (notFails : primaryFails system = false) {roots' : List Root}
    (isRoots : ∀ root ∈ roots', root ∈ roots system) :
    (roots'.foldlM (addMountRoot system) built).isSome = true := by
  induction roots' generalizing built with
  | nil => rfl
  | cons root later induction =>
      have fine := @addMountRoot_isSome system built root fun primary =>
        ⟨primary_of_mem_roots (isRoots root List.mem_cons_self) primary, notFails⟩
      rcases Option.isSome_iff_exists.mp fine with ⟨middle, isMiddle⟩
      rw [List.foldlM_cons, isMiddle]
      exact induction fun other member => isRoots other (List.mem_cons_of_mem _ member)

theorem foldlM_none (fails : primaryFails system = true) :
    (roots system).foldlM (addMountRoot system) ⟨[], [], false⟩ = none := by
  rw [roots, List.foldlM_cons]
  have refused : addMountRoot system ⟨[], [], false⟩ ⟨storage, ascii "SDCARD1", true⟩ = none := by
    rw [addMountRoot, if_neg (by simp), if_neg (by simp)]
    rw [primaryFails] at fails
    cases checked : checkRoot system storage with
    | ok mode => simp [checked] at fails
    | error refusal =>
        simp only [checked] at fails
        simp [fails]
  rw [refused]
  rfl

/-- What `build_exports` shares is what the checks accept. -/
theorem buildExports_spec (isBuilt : buildExports system = some built) :
    built.exports.map Export.path = accepted system ∧ built.Distinct := by
  rcases Option.filter_eq_some_iff.mp isBuilt with ⟨folded, -⟩
  cases fails : primaryFails system with
  | true =>
      rw [foldlM_none fails] at folded
      cases folded
  | false =>
      have spec := foldlM_spec (fun _ member => member) folded
      rw [accepted, fails, if_neg (by simp)]
      exact ⟨spec.1, spec.2 ⟨List.nodup_nil, List.nodup_nil, Nat.zero_le _⟩⟩

theorem buildExports_isSome (member : path ∈ accepted system) :
    ∃ built, buildExports system = some built := by
  cases fails : primaryFails system with
  | true =>
      rw [accepted, fails] at member
      cases member
  | false =>
      have isSome := @foldlM_isSome system ⟨[], [], false⟩ fails _ fun _ inRoots => inRoots
      rcases Option.isSome_iff_exists.mp isSome with ⟨built, folded⟩
      have spec := foldlM_spec (fun _ inRoots => inRoots) folded
      rw [accepted, fails, if_neg (by simp)] at member
      have filled : built.exports ≠ [] := by
        intro isEmpty
        have paths : [] = ((roots system).map Root.path).foldl (accept system) [] := by
          rw [isEmpty] at spec
          exact spec.1
        rw [← paths] at member
        cases member
      exact ⟨built, Option.filter_eq_some_iff.mpr ⟨folded, by simpa using filled⟩⟩

end Loop

/-! ## The law -/

/-- The volume that `/boot` is on. -/
def bootVolume (mounts : List Mount) : Option Mount :=
  (topAt mounts boot).or (topAt mounts [slash])

/-- The root of a mount that may be shared, which is the one that the script has looked at. -/
def Shareable (system : System) (path : Text) : Prop :=
  ∃ mount, lastShown system.mounts path = some mount ∧ topAt system.mounts path = some mount ∧
    fsAllowed system.jail mount.fstype = true ∧ isBootPath path = false ∧
    (∀ volume, bootVolume system.mounts = some volume → volume.source ≠ mount.source) ∧
    ∀ other ∈ system.mounts, ¬path ++ [slash] <+: other.path

structure Sound (system : System) (exports : List Export) : Prop where
  shareable : ∀ share ∈ exports, Shareable system share.path
  paths : (exports.map Export.path).Nodup
  names : (exports.map Export.name).Nodup
  few : exports.length ≤ 16

/-- What the script sees last at a path is mounted there, and `/boot` is a mount of its own or
the root filesystem is another one. -/
def Clear (system : System) (path : Text) : Prop :=
  ∃ mount, lastShown system.mounts path = some mount ∧ mount.path = path ∧
    (topAt system.mounts boot = none →
      ∀ root, topAt system.mounts [slash] = some root → root.source ≠ mount.source)

section Law

variable {system : System} {path : Text}

theorem accept_subset {taken : List Text} {other : Text} (member : path ∈ accept system taken other) :
    path ∈ taken ∨ path = other ∧ ∃ mode, checkRoot system other = .ok mode := by
  unfold accept at member
  split at member
  · exact .inl member
  · split at member
    · rename_i mode checked
      split at member
      · exact .inl member
      · rcases List.mem_append.mp member with before | isLast
        · exact .inl before
        · exact .inr ⟨List.mem_singleton.mp isLast, mode, checked⟩
    · exact .inl member

theorem mem_foldl_accept {paths taken : List Text} (member : path ∈ paths.foldl (accept system) taken) :
    path ∈ taken ∨ path ∈ paths ∧ ∃ mode, checkRoot system path = .ok mode := by
  induction paths generalizing taken with
  | nil => exact .inl member
  | cons other later induction =>
      rcases induction member with before | ⟨inLater, checked⟩
      · rcases accept_subset before with inTaken | ⟨rfl, checked⟩
        · exact .inl inTaken
        · exact .inr ⟨List.mem_cons_self, checked⟩
      · exact .inr ⟨List.mem_cons_of_mem _ inLater, checked⟩

theorem accepted_checked (member : path ∈ accepted system) :
    newline ∉ path ∧ ∃ mode, checkRoot system path = .ok mode := by
  unfold accepted at member
  split at member
  · cases member
  · rcases mem_foldl_accept member with impossible | ⟨inRoots, checked⟩
    · cases impossible
    · refine ⟨?_, checked⟩
      rcases List.mem_map.mp inRoots with ⟨root, isRoot, rfl⟩
      simp only [roots, List.mem_cons, List.mem_append, List.mem_map, List.mem_filter] at isRoot
      rcases isRoot with rfl | inSecond | ⟨line, ⟨listed, -⟩, rfl⟩
      · decide
      · split at inSecond
        · cases List.mem_singleton.mp inSecond
          decide
        · cases inSecond
      · intro inside
        have unbroken := (mem_of_mem_lines listed inside).2
        simp at unbroken

/-- What the checks of `add_mount_root` find. -/
structure Checked (system : System) (path : Text) (mount : Mount) : Prop where
  cover : coverMount system.mounts path = some mount
  isRoot : mount.mp = path
  notBootPath : isBootPath path = false
  notBootDev : isBootDev system mount.dev = false
  allowed : fsAllowed system.jail mount.fstype = true
  notNested : nestedMount system.mounts path = false
  hasSource : mount.dev ≠ []

theorem checked_of_ok {mode : Text} (isOk : checkRoot system path = .ok mode) :
    ∃ mount, Checked system path mount := by
  unfold checkRoot at isOk
  split at isOk
  · cases isOk
  · rename_i notBootPath
    split at isOk
    · cases isOk
    · split at isOk
      · cases isOk
      · rename_i mount cover
        split at isOk
        · cases isOk
        · rename_i isRoot
          split at isOk
          · cases isOk
          · rename_i notBootDev
            split at isOk
            · cases isOk
            · rename_i allowed
              split at isOk
              · cases isOk
              · rename_i notNested
                split at isOk
                · cases isOk
                · rename_i hasSource
                  exact ⟨mount, cover, Decidable.of_not_not isRoot, by simpa using notBootPath,
                    by simpa using notBootDev, by simpa using allowed, by simpa using notNested,
                    (not_or.mp hasSource).1⟩

/-- A mount below a path is seen below it. -/
theorem Checked.no_nested {mount : Mount} (checked : Checked system path mount)
    (unbroken : newline ∉ path) :
    ∀ other ∈ system.mounts, ¬path ++ [slash] <+: other.path := by
  rintro other member ⟨rest, isPath⟩
  have isShown : other.mp = path ++ [slash] ++ shown rest := by
    have plain : newline ∉ path ++ [slash] := by
      rw [List.mem_append, not_or]
      exact ⟨unbroken, by decide⟩
    rw [mp_eq_shown, ← isPath, shown_append, shown_of_unbroken plain]
  have notNested := checked.notNested
  rw [nestedMount, List.any_eq_false] at notNested
  apply notNested other member
  simp [isShown]

/-- The volume at `/boot` is not the one of the root. -/
theorem Checked.not_boot {mount volume : Mount} (checked : Checked system path mount)
    (isTop : topAt system.mounts boot = some volume) : volume.source ≠ mount.source := by
  intro same
  have isLast : lastShown system.mounts boot = some volume := by
    rw [lastShown_eq_topAt (by decide) (by decide), isTop]
  have cover := coverMount_of_lastShown (by decide) isLast
  have dev : mount.dev = volume.dev := by rw [Mount.dev, Mount.dev, same]
  have notBootDev := checked.notBootDev
  rw [isBootDev, cover, Bool.or_eq_false_iff] at notBootDev
  have notEmpty : volume.dev ≠ [] := dev ▸ checked.hasSource
  simp [dev, notEmpty] at notBootDev

theorem shareable_iff_clear {mode : Text} (unbroken : newline ∉ path)
    (isOk : checkRoot system path = .ok mode) : Shareable system path ↔ Clear system path := by
  rcases checked_of_ok isOk with ⟨mount, checked⟩
  have isLast := lastShown_of_coverMount checked.cover checked.isRoot
  constructor
  · rintro ⟨other, otherLast, isTop, -, -, notBoot, -⟩
    refine ⟨other, otherLast, topAt_path isTop, ?_⟩
    intro noBoot root isRoot
    apply notBoot
    rw [bootVolume, noBoot, isRoot]
    rfl
  · rintro ⟨other, otherLast, isPath, apart⟩
    rw [isLast] at otherLast
    cases otherLast
    refine ⟨mount, isLast, topAt_of_lastShown unbroken isLast isPath, checked.allowed,
      checked.notBootPath, ?_, checked.no_nested unbroken⟩
    intro volume isVolume
    cases bootTop : topAt system.mounts boot with
    | some found =>
        rw [bootVolume, bootTop] at isVolume
        cases isVolume
        exact checked.not_boot bootTop
    | none =>
        rw [bootVolume, bootTop] at isVolume
        exact apart bootTop volume isVolume

theorem sound_iff_clear : (∀ built, buildExports system = some built → Sound system built.exports) ↔
    ∀ path ∈ accepted system, Clear system path := by
  constructor
  · intro sound path member
    rcases buildExports_isSome member with ⟨built, isBuilt⟩
    have spec := buildExports_spec isBuilt
    rw [← spec.1] at member
    rcases List.mem_map.mp member with ⟨share, isShare, rfl⟩
    have inAccepted : share.path ∈ accepted system := spec.1 ▸ member
    rcases accepted_checked inAccepted with ⟨unbroken, mode, isOk⟩
    exact (shareable_iff_clear unbroken isOk).mp ((sound built isBuilt).shareable share isShare)
  · intro clear built isBuilt
    have spec := buildExports_spec isBuilt
    refine ⟨?_, spec.2.paths, spec.2.names, spec.2.few⟩
    intro share isShare
    have inAccepted : share.path ∈ accepted system := by
      rw [← spec.1]
      exact List.mem_map_of_mem isShare
    rcases accepted_checked inAccepted with ⟨unbroken, mode, isOk⟩
    exact (shareable_iff_clear unbroken isOk).mpr (clear share.path inAccepted)

end Law

/-- The helper and the shell agree on absolute paths, and the exports are sound if and only if every
accepted root is clear. -/
theorem usb_exports_iff (path : Text) (system : System) :
    (path.head? = some slash → Enter.pathForbidden path = pathForbidden path) ∧
      ((∀ built, buildExports system = some built → Sound system built.exports) ↔
        ∀ root ∈ accepted system, Clear system root) :=
  ⟨pathForbidden_eq, sound_iff_clear⟩

/-- A directory whose name has the escape of a newline in it. -/
def escapedPath : Text :=
  ascii "/mnt/media/X\\012Y"

/-- A card is mounted at a path with a newline, and the directory with the escape is listed. -/
def newlineSystem : System where
  mounts := [
    ⟨ascii "/dev/mmcblk1p3", boot, ascii "vfat", ascii "rw", by decide, by decide⟩,
    ⟨ascii "/dev/mmcblk1p5", storage, ascii "ext4", ascii "rw", by decide, by decide⟩,
    ⟨ascii "/dev/sda1", ascii "/mnt/media/X\nY", ascii "vfat", ascii "rw", by decide, by decide⟩]
  libraries := some (storage ++ newline :: escapedPath ++ [newline])
  jail := true
  bootDevice := []
  isRealDir _ := true
  writable _ := true
  readable _ := true

theorem newline_is_exported : escapedPath ∈ accepted newlineSystem ∧
    topAt newlineSystem.mounts escapedPath = none ∧
    ¬∀ built, buildExports newlineSystem = some built → Sound newlineSystem built.exports := by
  have member : (accepted newlineSystem).contains escapedPath = true := by decide +kernel
  have isAccepted := List.contains_iff_mem.mp member
  have isNone : (topAt newlineSystem.mounts escapedPath).isNone = true := by decide +kernel
  have unmounted := Option.isNone_iff_eq_none.mp isNone
  refine ⟨isAccepted, unmounted, ?_⟩
  intro sound
  rcases sound_iff_clear.mp sound escapedPath isAccepted with ⟨mount, isLast, isPath, -⟩
  have mounted := topAt_of_lastShown (by decide) isLast isPath
  rw [unmounted] at mounted
  cases mounted

end Zlyme.Usb
