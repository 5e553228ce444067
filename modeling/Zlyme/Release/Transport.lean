import Zlyme.Release.Python

/-! # The transport of an update

The release job checks `release-manifest.json` and picks a reference transport; the
device checks the manifest again and picks the one that it downloads.
-/

namespace Zlyme.Release

open Foundation

def my355 : Text := "my355".toList

/-- A delta entry of the manifest, or the full image. -/
inductive Transport
  | delta (entry : Value)
  | full (entry : Value)

/-! ## The release job -/

/-- `^[0-9a-f]{64}$` -/
def lowerHex (char : Char) : Bool :=
  ('0' ≤ char && char ≤ '9') || ('a' ≤ char && char ≤ 'f')

/-- `_hex64` of `zlyme_release.py`. -/
def hex64 : Value → Bool
  | .str text => text.length == 64 && text.all lowerHex
  | _ => false

/-- `isinstance(size, int) and size >= 0`, which a Boolean passes too. -/
def isSize : Value → Bool
  | .int size => 0 ≤ size
  | .bool _ => true
  | _ => false

def validateDelta (item : Value) : Except PyError Unit := do
  raiseIf (item.isDict = false) (.releaseError "manifest delta")
  let _ ← parseVersion (item.get "from_version").orEmpty
  raiseIf (hex64 (item.get "from_sha256") = false ∨ (item.get "file").truthy = false)
    (.releaseError "manifest delta identity")
  raiseIf (hex64 (item.get "sha256") = false) (.releaseError "manifest delta sha")
  raiseIf (isSize (item.get "size") = false) (.releaseError "manifest delta size")

def validateManifest (device : Text) (data : Value) : Except PyError Value := do
  raiseIf (data.isDict = false) (.releaseError "manifest is not an object")
  raiseIf ((data.get "schema").isNumber 1 = false) (.releaseError "manifest schema")
  raiseIf ((data.get "device").isText device = false) (.releaseError "manifest device")
  let _ ← parseVersion (data.get "version").orEmpty
  raiseIf ((match data.get "source_sha" with | .str text => !text.isEmpty | _ => false) = false)
    (.releaseError "manifest source_sha")
  let root := data.get "root"
  raiseIf (root.isDict = false ∨ hex64 (root.get "sha256") = false)
    (.releaseError "manifest root")
  raiseIf (isSize (root.get "size") = false) (.releaseError "manifest root size")
  let full := data.get "full"
  raiseIf (full.isDict = false ∨ (full.get "file").truthy = false ∨
    hex64 (full.get "sha256") = false) (.releaseError "manifest full")
  raiseIf (isSize (full.get "size") = false) (.releaseError "manifest full size")
  match data.get "deltas" with
  | .list deltas =>
      forM deltas validateDelta
      return data
  | _ => throw (.releaseError "manifest deltas")

/-- `item["size"]` as a key of a sort. -/
def sizeKey (item : Value) : Except PyError Int :=
  match item.get "size" with
  | .int size => .ok size
  | .bool size => .ok (if size then 1 else 0)
  | _ => .error .typeError

/-- `item["from_sha256"].lower() == installed and installed` -/
def isBase (installed : Text) (item : Value) : Except PyError Bool :=
  match item.get "from_sha256" with
  | .str base => .ok (lower base == installed && !installed.isEmpty)
  | _ => .error .attributeError

/-- `choose_transport` of `zlyme_release.py`. -/
def referenceTransport (manifest : Value) (installedSha256 : Text) :
    Except PyError Transport := do
  let _ ← validateManifest my355 manifest
  let installed := lower installedSha256
  let deltas ← (manifest.get "deltas").items
  let matching ← deltas.filterM (isBase installed)
  match ← sortBy sizeKey matching with
  | first :: _ => return .delta first
  | [] => return .full (manifest.get "full")

/-! ## The device -/

/-- `_HEX64` of `github-release.py`. -/
def hexDigit (char : Char) : Bool :=
  lowerHex char || ('A' ≤ char && char ≤ 'F')

/-- `_HEX64.fullmatch(str(value or ""))` -/
def Python.isHash (python : Python) (value : Value) : Except PyError Bool := do
  let text ← python.str value.orEmpty
  return text.length == 64 && text.all hexDigit

def Python.deltaOk (python : Python) (item : Value) : Except PyError Bool := do
  if item.isDict = false then return false
  if (item.get "file").truthy = false then return false
  if (← python.isHash (item.get "from_sha256")) = false then return false
  return ← python.isHash (item.get "sha256")

/-- `manifest.get("deltas") or []` -/
def deltaItems (manifest : Value) : Except PyError (List Value) :=
  let deltas := manifest.get "deltas"
  if deltas.truthy then deltas.items else .ok []

/-- `value if isinstance(value, dict) else {}` -/
def dictOrEmpty (value : Value) : Value :=
  if value.isDict then value else .dict []

def Python.manifestOk (python : Python) (device : Text) (data : Value) :
    Except PyError Bool := do
  if data.isDict = false ∨ (data.get "schema").isNumber 1 = false then return false
  if (data.get "device").isText device = false then return false
  let root := dictOrEmpty (data.get "root")
  let full := dictOrEmpty (data.get "full")
  if (← python.isHash (root.get "sha256")) = false then return false
  if (full.get "file").truthy = false then return false
  if (← python.isHash (full.get "sha256")) = false then return false
  (← deltaItems data).allM python.deltaOk

/-- `str(item.get("from_sha256") or "").lower() == installed and installed` -/
def Python.isBase (python : Python) (installed : Text) (item : Value) :
    Except PyError Bool := do
  raiseIf (item.isDict = false) .attributeError
  let base ← python.str (item.get "from_sha256").orEmpty
  return lower base == installed && !installed.isEmpty

/-- `int(item.get("size") or 0)` -/
def sizeOrZero (item : Value) : Except PyError Int :=
  let size := item.get "size"
  if size.truthy then size.toInt else .ok 0

/-- `choose_transport` of `github-release.py`. -/
def Python.chooseTransport (python : Python) (manifest : Value) (installedSha : Text) :
    Except PyError Transport := do
  raiseIf (manifest.isDict = false) .attributeError
  let installed := lower installedSha
  let deltas ← deltaItems manifest
  let matching ← deltas.filterM (python.isBase installed)
  match ← sortBy sizeOrZero matching with
  | first :: _ => return .delta first
  | [] =>
      match manifest with
      | .dict fields =>
          match fields.lookup "full" with
          | some full => return .full full
          | none => throw .keyError
      | _ => throw .attributeError

/-! ## What a valid manifest has -/

/-- A `hexdigest()` of SHA-256. -/
structure IsHash (hash : Text) : Prop where
  length : hash.length = 64
  digits : ∀ char ∈ hash, lowerHex char = true

theorem hex64_eq_true {value : Value} :
    hex64 value = true ↔ ∃ hash, value = .str hash ∧ IsHash hash := by
  cases value with
  | str text =>
      simp only [hex64, Bool.and_eq_true, beq_iff_eq, List.all_eq_true, Value.str.injEq]
      exact ⟨fun ⟨length, digits⟩ => ⟨text, rfl, length, digits⟩,
        fun ⟨hash, same, isHash⟩ => same ▸ ⟨isHash.length, isHash.digits⟩⟩
  | _ => simp [hex64]

theorem toLower_of_lowerHex {char : Char} (isHex : lowerHex char = true) : char.toLower = char := by
  have notUpper : ¬(char.val ≥ 'A'.val ∧ char.val ≤ 'Z'.val) := by
    rintro ⟨lower, upper⟩
    simp only [lowerHex, Bool.or_eq_true, Bool.and_eq_true, decide_eq_true_eq] at isHex
    rcases isHex with ⟨_, digit⟩ | ⟨letter, _⟩
    · exact absurd (UInt32.le_trans lower digit) (by decide)
    · exact absurd (UInt32.le_trans letter upper) (by decide)
  exact dif_neg notUpper

theorem IsHash.lower_eq {hash : Text} (isHash : IsHash hash) : lower hash = hash := by
  rw [lower, List.map_congr_left fun char member => toLower_of_lowerHex (isHash.digits char member),
    List.map_id']

theorem Python.isHash_eq_ok (python : Python) {hash : Text} (isHash : IsHash hash) :
    python.isHash (.str hash) = .ok true := by
  have digits : hash.all hexDigit = true := by
    rw [List.all_eq_true]
    intro char member
    simp [hexDigit, isHash.digits char member]
  rw [Python.isHash, Value.orEmpty_str]
  simp [Python.str, isHash.length, digits, bind, Except.bind, pure, Except.pure]

/-- A delta entry that `validate_manifest` accepts. -/
structure ValidDelta (item : Value) : Prop where
  isDict : item.isDict = true
  file : (item.get "file").truthy = true
  base : ∃ hash, item.get "from_sha256" = .str hash ∧ IsHash hash
  hash : ∃ hash, item.get "sha256" = .str hash ∧ IsHash hash
  size : isSize (item.get "size") = true

theorem validateDelta_eq_ok {item : Value} (valid : validateDelta item = .ok ()) :
    ValidDelta item := by
  simp only [validateDelta, bind_eq_ok, raiseIf_eq_ok] at valid
  rcases valid with ⟨_, isDict, _, _, _, identity, _, hash, size⟩
  simp only [not_or, Bool.not_eq_false] at isDict identity hash size
  exact ⟨isDict, identity.2, hex64_eq_true.mp identity.1, hex64_eq_true.mp hash, size⟩

structure ValidManifest (device : Text) (data : Value) : Prop where
  isDict : data.isDict = true
  schema : (data.get "schema").isNumber 1 = true
  device : (data.get "device").isText device = true
  root : (data.get "root").isDict = true
  rootHash : ∃ hash, (data.get "root").get "sha256" = .str hash ∧ IsHash hash
  full : (data.get "full").isDict = true
  fullFile : ((data.get "full").get "file").truthy = true
  fullHash : ∃ hash, (data.get "full").get "sha256" = .str hash ∧ IsHash hash
  deltas : ∃ deltas, data.get "deltas" = .list deltas ∧ ∀ item ∈ deltas, ValidDelta item

theorem validateManifest_eq_ok {device : Text} {data accepted : Value}
    (valid : validateManifest device data = .ok accepted) : ValidManifest device data := by
  simp only [validateManifest, bind_eq_ok, raiseIf_eq_ok] at valid
  rcases valid with ⟨_, isDict, _, schema, _, isDevice, _, _, _, _, _, root, _, _, _, full, _, _, deltas⟩
  simp only [not_or, Bool.not_eq_false] at isDict schema isDevice root full
  split at deltas
  · rename_i items isList
    rcases bind_eq_ok.mp deltas with ⟨_, checked, _⟩
    exact ⟨isDict, schema, isDevice, root.1, hex64_eq_true.mp root.2, full.1, full.2.1,
      hex64_eq_true.mp full.2.2, items, isList,
      fun item member => validateDelta_eq_ok (forM_eq_ok.mp checked item member)⟩
  · cases deltas

theorem deltaItems_eq_ok {data : Value} {deltas : List Value}
    (isList : data.get "deltas" = .list deltas) : deltaItems data = .ok deltas := by
  rw [deltaItems, isList]
  cases deltas <;> rfl

theorem ValidDelta.deltaOk {item : Value} (valid : ValidDelta item) (python : Python) :
    python.deltaOk item = .ok true := by
  rcases valid.base with ⟨base, isBase, baseHash⟩
  rcases valid.hash with ⟨hash, isHash, hashHash⟩
  simp [Python.deltaOk, valid.isDict, valid.file, isBase, isHash, python.isHash_eq_ok baseHash,
    python.isHash_eq_ok hashHash, bind, Except.bind]

theorem ValidManifest.manifestOk {device : Text} {data : Value} (valid : ValidManifest device data)
    (python : Python) : python.manifestOk device data = .ok true := by
  rcases valid.rootHash with ⟨root, isRoot, rootHash⟩
  rcases valid.fullHash with ⟨full, isFull, fullHash⟩
  rcases valid.deltas with ⟨deltas, isList, validDeltas⟩
  have checked : deltas.allM python.deltaOk = .ok true :=
    allM_eq_ok fun item member => (validDeltas item member).deltaOk python
  simp [Python.manifestOk, valid.isDict, valid.schema, valid.device, dictOrEmpty, valid.root,
    valid.full, valid.fullFile, isRoot, isFull, python.isHash_eq_ok rootHash,
    python.isHash_eq_ok fullHash, deltaItems_eq_ok isList, checked, bind, Except.bind]

/-! ## The choice -/

/-- The base hash of a delta entry. -/
def baseOf (item : Value) : Text :=
  match item.get "from_sha256" with
  | .str base => base
  | _ => []

def sizeOf (item : Value) : Int :=
  match item.get "size" with
  | .int size => size
  | .bool true => 1
  | _ => 0

/-- Whether a delta applies to the installed root. -/
def matching (installed : Text) (item : Value) : Bool :=
  baseOf item == installed && !installed.isEmpty

/-- The transport that both choosers stand for. -/
def smallestTransport (deltas : List Value) (full : Value) (installed : Text) : Transport :=
  match (deltas.filter (matching installed)).mergeSort
      fun left right => sizeOf left ≤ sizeOf right with
  | first :: _ => .delta first
  | [] => .full full

namespace ValidDelta

variable {item : Value} (valid : ValidDelta item) (installed : Text)
include valid

theorem isBase_eq : isBase installed item = .ok (matching installed item) := by
  rcases valid.base with ⟨base, isBase, baseHash⟩
  simp [Release.isBase, matching, baseOf, isBase, baseHash.lower_eq]

theorem python_isBase_eq (python : Python) :
    python.isBase installed item = .ok (matching installed item) := by
  rcases valid.base with ⟨base, isBase, baseHash⟩
  simp [Python.isBase, matching, baseOf, isBase, baseHash.lower_eq, valid.isDict, raiseIf,
    Python.str, Value.orEmpty_str, bind, Except.bind, pure, Except.pure]

theorem sizeKey_eq : sizeKey item = .ok (sizeOf item) := by
  have size := valid.size
  rcases kind : item.get "size" with _ | (_ | _) | _ | _ | _ | _ | _ <;>
    simp_all [sizeKey, sizeOf, isSize]

theorem sizeOrZero_eq : sizeOrZero item = .ok (sizeOf item) := by
  have size := valid.size
  rcases kind : item.get "size" with _ | (_ | _) | number | _ | _ | _ | _ <;>
    simp_all [sizeOrZero, sizeOf, isSize, Value.truthy, Value.toInt]

end ValidDelta

theorem smallestTransport_delta {deltas : List Value} {full entry : Value} {installed : Text}
    (chosen : smallestTransport deltas full installed = .delta entry) :
    (entry ∈ deltas ∧ matching installed entry = true) ∧
      ∀ other ∈ deltas, matching installed other = true → sizeOf entry ≤ sizeOf other := by
  rw [smallestTransport] at chosen
  split at chosen
  · rename_i first rest sorted
    cases chosen
    rcases head_mergeSort sorted with ⟨member, least⟩
    exact ⟨List.mem_filter.mp member, fun other inside matches_ =>
      least other (List.mem_filter.mpr ⟨inside, matches_⟩)⟩
  · cases chosen

section Choosers

variable {data : Value} {deltas : List Value} (installed : Text)
  (isList : data.get "deltas" = .list deltas) (valid : ∀ item ∈ deltas, ValidDelta item)
include isList valid

theorem referenceTransport_eq (accepted : validateManifest my355 data = .ok data) :
    referenceTransport data installed =
      .ok (smallestTransport deltas (data.get "full") (lower installed)) := by
  have kept : deltas.filterM (isBase (lower installed)) =
      .ok (deltas.filter (matching (lower installed))) :=
    filterM_eq_ok fun item member => (valid item member).isBase_eq _
  have sorted := sortBy_eq_ok fun item (member : item ∈ deltas.filter (matching (lower installed))) =>
    (valid item (List.mem_filter.mp member).1).sizeKey_eq
  simp only [referenceTransport, accepted, isList, Value.items, kept, sorted, smallestTransport,
    bind, Except.bind]
  split <;> rfl

theorem Python.chooseTransport_eq (python : Python) (isFull : (data.get "full").isDict = true) :
    python.chooseTransport data installed =
      .ok (smallestTransport deltas (data.get "full") (lower installed)) := by
  have kept : deltas.filterM (python.isBase (lower installed)) =
      .ok (deltas.filter (matching (lower installed))) :=
    filterM_eq_ok fun item member => (valid item member).python_isBase_eq _ python
  have sorted := sortBy_eq_ok fun item (member : item ∈ deltas.filter (matching (lower installed))) =>
    (valid item (List.mem_filter.mp member).1).sizeOrZero_eq
  cases data with
  | dict fields =>
      rcases found : fields.lookup "full" with _ | full
      · simp [Value.get, found, Value.isDict] at isFull
      · refine bind_eq_ok.mpr ⟨(), raiseIf_eq_ok.mpr (by simp [Value.isDict]), ?_⟩
        refine bind_eq_ok.mpr ⟨deltas, deltaItems_eq_ok isList, ?_⟩
        refine bind_eq_ok.mpr ⟨_, kept, bind_eq_ok.mpr ⟨_, sorted, ?_⟩⟩
        simp only [smallestTransport, found, Value.get, Option.getD_some]
        split <;> rfl
  | _ => simp [Value.get, Value.isDict] at isFull

end Choosers

/-- The device accepts every manifest that the release job accepts and downloads the
transport that the job picks: the smallest delta from the installed root, if any. -/
theorem transport_agrees (python : Python) (data : Value) (installed : Text)
    (accepted : validateManifest my355 data = .ok data) :
    python.manifestOk my355 data = .ok true ∧
    ∃ transport, referenceTransport data installed = .ok transport ∧
      python.chooseTransport data installed = .ok transport ∧
      ∀ entry, transport = .delta entry →
        ∃ deltas, data.get "deltas" = .list deltas ∧ entry ∈ deltas ∧
          entry.get "from_sha256" = .str (lower installed) ∧
          (IsHash installed → entry.get "from_sha256" = .str installed) ∧
          ∀ other ∈ deltas, other.get "from_sha256" = .str (lower installed) →
            sizeOf entry ≤ sizeOf other := by
  have valid := validateManifest_eq_ok accepted
  rcases valid.deltas with ⟨deltas, isList, validDeltas⟩
  refine ⟨valid.manifestOk python, smallestTransport deltas (data.get "full") (lower installed),
    referenceTransport_eq installed isList validDeltas accepted,
    python.chooseTransport_eq installed isList validDeltas valid.full, ?_⟩
  intro entry chosen
  rcases smallestTransport_delta chosen with ⟨⟨member, isMatching⟩, least⟩
  rcases (validDeltas entry member).base with ⟨base, isBase, _⟩
  have same : base = lower installed ∧ (lower installed).isEmpty = false := by
    simpa [matching, baseOf, isBase] using isMatching
  rcases same with ⟨rfl, nonempty⟩
  refine ⟨deltas, isList, member, isBase, fun isHash => isHash.lower_eq ▸ isBase, ?_⟩
  intro other inside otherBase
  exact least other inside (by simp [matching, baseOf, otherBase, nonempty])

/-! ### A release with two deltas from one root -/

/-- No float, list or dictionary is printed here. -/
def samplePython : Python where
  repr _ := []
  repr_not_digits _ := rfl

def sampleHash (digit : Char) : Value :=
  .str (List.replicate 64 digit)

def sampleDelta (base : Char) (file : String) (size : Int) : Value :=
  .dict [("from_version", .str "zlyme43.1".toList), ("from_sha256", sampleHash base),
    ("file", .str file.toList), ("sha256", sampleHash 'd'), ("size", .int size)]

def sampleManifest : Value :=
  .dict [("schema", .int 1), ("device", .str my355), ("version", .str "zlyme43.2".toList),
    ("source_sha", .str "0123abc".toList),
    ("root", .dict [("sha256", sampleHash 'e'), ("size", .int 500)]),
    ("full", .dict [("file", .str "zlyme-43.2.tar".toList), ("sha256", sampleHash 'f'),
      ("size", .int 400)]),
    ("deltas", .list [sampleDelta 'c' "large.tar" 90, sampleDelta 'a' "other.tar" 10,
      sampleDelta 'c' "small.tar" 20])]

theorem sampleManifest_agrees :
    samplePython.manifestOk my355 sampleManifest = .ok true ∧
    ∃ transport, referenceTransport sampleManifest (List.replicate 64 'c') = .ok transport ∧
      samplePython.chooseTransport sampleManifest (List.replicate 64 'c') = .ok transport ∧
      ∀ entry, transport = .delta entry →
        ∃ deltas, sampleManifest.get "deltas" = .list deltas ∧ entry ∈ deltas ∧
          entry.get "from_sha256" = .str (lower (List.replicate 64 'c')) ∧
          (IsHash (List.replicate 64 'c') →
            entry.get "from_sha256" = .str (List.replicate 64 'c')) ∧
          ∀ other ∈ deltas, other.get "from_sha256" = .str (lower (List.replicate 64 'c')) →
            sizeOf entry ≤ sizeOf other :=
  transport_agrees samplePython sampleManifest (List.replicate 64 'c') rfl

end Zlyme.Release
