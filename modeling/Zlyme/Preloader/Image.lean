import Zlyme.Foundation.Bytes
import Zlyme.Foundation.Result

/-! # The preloader image

The image tests of `preloader_image.py`: two RKNS copies with two entries each,
and the device tree at the end of an SPL payload. A Python `str` is its UTF-8
text here.
-/

namespace Zlyme.Preloader

open Foundation Foundation.Bytes

/-! ## Python -/

/-- How a function of the script ends without a result: `raise SystemExit(…)`
with its message, or an exception that it does not catch. -/
inductive PyError
  | systemExit (message : String)
  | structError
  | valueError
  | unicodeDecodeError
  deriving DecidableEq, Repr

/-- `if condition: raise SystemExit(message)`. -/
def refuseIf (condition : Prop) [Decidable condition] (message : String) :
    Except PyError Unit :=
  if condition then .error (.systemExit message) else .ok ()

theorem refuseIf_eq_ok {condition : Prop} [Decidable condition] {message : String} {result : Unit}
    (passed : refuseIf condition message = .ok result) : ¬condition := by
  rw [refuseIf] at passed
  split at passed
  · cases passed
  · assumption

/-- The UTF-8 text of a Python string literal. -/
abbrev text (literal : String) : Bytes :=
  literal.toUTF8.toList

/-- `bytes(count)`. -/
abbrev zeros (count : Nat) : Bytes :=
  List.replicate count 0

/-- `format(value, "#x")`. -/
def hexText (value : Nat) : String :=
  "0x" ++ String.ofList (Nat.toDigits 16 value)

/-! ## Constants -/

/-- The positions that the script fixes for one image size. -/
structure Layout where
  size : Nat
  firstCopy : Nat
  secondCopy : Nat
  dtbOff : Nat
  bootCall : Nat
  /-- The entry table of one copy ends before the next copy and the image end. -/
  copies_apart : firstCopy + 0x128 ≤ secondCopy
  copies_inside : secondCopy + 0x128 ≤ size
  table_before_tree : 0x128 ≤ dtbOff
  call_before_tree : bootCall + 4 ≤ dtbOff

/-- `SIZE`, `COPIES`, `DTB_OFF` and `BOOT_CALL`. -/
def my355 : Layout where
  size := 2097152
  firstCopy := 131072
  secondCopy := 524288
  dtbOff := 0x3A5C0
  bootCall := 0x27D4
  copies_apart := by decide
  copies_inside := by decide
  table_before_tree := by decide
  call_before_tree := by decide

def entrySize : Nat := 0x58
def ddrIndex : Nat := 0
def splIndex : Nat := 1
def bootCallInsn : Bytes := [0x50, 0xf8, 0xff, 0x97]
def splBanner : Bytes := text "U-Boot SPL 2017.09 (Nov 02 2024 - 15:59:04)"
def fdtMagic : Bytes := [0xd0, 0x0d, 0xfe, 0xed]

theorem magic_length : (text "RKNS").length = 4 := by decide +kernel

theorem splBanner_length : splBanner.length = 43 := by decide +kernel

/-- `hashlib.sha256`, which is not part of this repository. -/
structure Sha256 where
  digest : Bytes → Bytes
  digest_length : ∀ bytes, (digest bytes).length = 32

/-! ## The two copies -/

def u16le (blob : Bytes) (off : Nat) : Nat :=
  fromLe (slice blob off (off + 2))

/-- One item of the list that `_parse` returns. -/
structure IdbEntry where
  copy : Nat
  index : Nat
  entry : Nat
  start : Nat
  payload : Bytes
  deriving DecidableEq, Repr

def parseEntry (sha : Sha256) (data : Bytes) (base i : Nat) : Except PyError IdbEntry := do
  let label := "IDB entry " ++ toString i ++ " at " ++ toString base
  let entry := base + 0x78 + i * entrySize
  let off := u16le data entry
  let count := u16le data (entry + 2)
  refuseIf (count ≤ 0) ("empty " ++ label)
  let start := base + off * 512
  let length := count * 512
  refuseIf (start + length > data.length) (label ++ " is out of range")
  let blob := slice data start (start + length)
  let want := slice data (entry + 0x18) (entry + 0x18 + 32)
  refuseIf (sha.digest blob ≠ want) (label ++ " fails its SHA-256")
  return { copy := base, index := i, entry := entry, start := start, payload := blob }

def parseCopy (sha : Sha256) (data : Bytes) (base : Nat) : Except PyError (List IdbEntry) := do
  refuseIf (slice data base (base + 4) ≠ text "RKNS") ("no RKNS magic at " ++ toString base)
  let ddr ← parseEntry sha data base ddrIndex
  let spl ← parseEntry sha data base splIndex
  return [ddr, spl]

def parse (layout : Layout) (sha : Sha256) (data : Bytes) : Except PyError (List IdbEntry) := do
  refuseIf (data.length ≠ layout.size)
    ("size " ++ toString data.length ++ " is not " ++ toString layout.size)
  let first ← parseCopy sha data layout.firstCopy
  let second ← parseCopy sha data layout.secondCopy
  return first ++ second

/-- The DDR payload and the two SPL entries. -/
def paired (layout : Layout) (sha : Sha256) (data : Bytes) :
    Except PyError (Bytes × IdbEntry × IdbEntry) := do
  let found ← parse layout sha data
  match (found.filter (·.index == ddrIndex)).map (·.payload) with
  | [ddr, other] =>
      refuseIf (ddr ≠ other) "DDR copies disagree"
      match found.filter (·.index == splIndex) with
      | [first, second] =>
          refuseIf (first.payload ≠ second.payload) "SPL copies disagree"
          return (ddr, first, second)
      | _ => throw (.systemExit "SPL copies disagree")
  | _ => throw (.systemExit "DDR copies disagree")

/-! ## The device tree of an SPL payload -/

/-- `needle in haystack` for byte strings. -/
def contains (needle : Bytes) : Bytes → Bool
  | [] => needle.isEmpty
  | byte :: rest => needle.isPrefixOf (byte :: rest) || contains needle rest

/-- The size word of the device tree in a payload. -/
def treeTotal (layout : Layout) (payload : Bytes) : Nat :=
  fromBe (slice payload (layout.dtbOff + 4) (layout.dtbOff + 8))

def fdt (layout : Layout) (payload : Bytes) : Except PyError Bytes := do
  let dtbOff := layout.dtbOff
  let bootCall := layout.bootCall
  refuseIf (payload.length < dtbOff + 40) "SPL payload is too small for a device tree"
  let off := fromLe (slice payload 0x10 0x14)
  refuseIf (off ≠ dtbOff) ("SPL device tree offset is " ++ hexText off)
  refuseIf (slice payload bootCall (bootCall + 4) ≠ bootCallInsn)
    "SPL boot-order call is not the Nov 02 instruction"
  refuseIf (contains splBanner (payload.take dtbOff) = false)
    "SPL banner is not the Nov 02 2024 Miyoo build"
  refuseIf (slice payload dtbOff (dtbOff + 4) ≠ fdtMagic) "SPL device tree magic is missing"
  let total := treeTotal layout payload
  refuseIf (dtbOff + total > payload.length) "SPL device tree overruns the payload"
  refuseIf (payload.drop (dtbOff + total) ≠ zeros (payload.length - dtbOff - total))
    "bytes after the SPL device tree are not zero"
  return slice payload dtbOff (dtbOff + total)

/-- The payload that `derive_bytes` rebuilds around an edited device tree. -/
def rebuildPayload (layout : Layout) (payload edited : Bytes) : Bytes :=
  payload.take layout.dtbOff ++ edited ++
    zeros (payload.length - layout.dtbOff - edited.length)

/-! ## What `_fdt` accepts -/

structure FdtFacts (layout : Layout) (payload blob : Bytes) : Prop where
  long : layout.dtbOff + 40 ≤ payload.length
  offset : fromLe (slice payload 0x10 0x14) = layout.dtbOff
  call : slice payload layout.bootCall (layout.bootCall + 4) = bootCallInsn
  banner : contains splBanner (payload.take layout.dtbOff) = true
  magic : slice payload layout.dtbOff (layout.dtbOff + 4) = fdtMagic
  inside : layout.dtbOff + treeTotal layout payload ≤ payload.length
  rest : payload.drop (layout.dtbOff + treeTotal layout payload) =
    zeros (payload.length - layout.dtbOff - treeTotal layout payload)
  tree : blob = slice payload layout.dtbOff (layout.dtbOff + treeTotal layout payload)

theorem refuseIf_of_not {condition : Prop} [Decidable condition] (passes : ¬condition)
    (message : String) : refuseIf condition message = .ok () :=
  if_neg passes

theorem fdt_eq_ok_iff {layout : Layout} {payload blob : Bytes} :
    fdt layout payload = .ok blob ↔ FdtFacts layout payload blob := by
  constructor
  · intro accepted
    rcases bind_eq_ok.mp accepted with ⟨_, long, accepted⟩
    rcases bind_eq_ok.mp accepted with ⟨_, offset, accepted⟩
    rcases bind_eq_ok.mp accepted with ⟨_, call, accepted⟩
    rcases bind_eq_ok.mp accepted with ⟨_, banner, accepted⟩
    rcases bind_eq_ok.mp accepted with ⟨_, magic, accepted⟩
    rcases bind_eq_ok.mp accepted with ⟨_, inside, accepted⟩
    rcases bind_eq_ok.mp accepted with ⟨_, rest, same⟩
    cases same
    exact {
      long := Nat.le_of_not_lt (refuseIf_eq_ok long)
      offset := Decidable.of_not_not (refuseIf_eq_ok offset)
      call := Decidable.of_not_not (refuseIf_eq_ok call)
      banner := by simpa using refuseIf_eq_ok banner
      magic := Decidable.of_not_not (refuseIf_eq_ok magic)
      inside := Nat.le_of_not_lt (refuseIf_eq_ok inside)
      rest := Decidable.of_not_not (refuseIf_eq_ok rest)
      tree := rfl }
  · intro facts
    have inside := facts.inside
    have rest := facts.rest
    rw [fdt]
    dsimp only
    rw [refuseIf_of_not (Nat.not_lt_of_le facts.long), refuseIf_of_not (not_not_intro facts.offset),
      refuseIf_of_not (not_not_intro facts.call), refuseIf_of_not (by simp [facts.banner]),
      refuseIf_of_not (not_not_intro facts.magic), refuseIf_of_not (Nat.not_lt_of_le inside),
      refuseIf_of_not (not_not_intro rest)]
    exact congrArg Except.ok facts.tree.symm

end Zlyme.Preloader
