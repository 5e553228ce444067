import Zlyme.Preloader.Image

/-! # Walking a flattened device tree

`_walk`, `_boot_order` and `_require_right_slot`. The walk is written on the
bytes from the current position on, so what one token means is a function of
these bytes and of the position alone.
-/

namespace Zlyme.Preloader

open Foundation Foundation.Bytes

/-! ## UTF-8 -/

/-- The ranges that must hold the bytes after a lead byte. -/
def utf8Tail (lead : UInt8) : Option (List (UInt8 × UInt8)) :=
  if lead < 0x80 then some []
  else if 0xc2 ≤ lead ∧ lead ≤ 0xdf then some [(0x80, 0xbf)]
  else if lead = 0xe0 then some [(0xa0, 0xbf), (0x80, 0xbf)]
  else if lead = 0xed then some [(0x80, 0x9f), (0x80, 0xbf)]
  else if 0xe1 ≤ lead ∧ lead ≤ 0xef then some [(0x80, 0xbf), (0x80, 0xbf)]
  else if lead = 0xf0 then some [(0x90, 0xbf), (0x80, 0xbf), (0x80, 0xbf)]
  else if 0xf1 ≤ lead ∧ lead ≤ 0xf3 then some [(0x80, 0xbf), (0x80, 0xbf), (0x80, 0xbf)]
  else if lead = 0xf4 then some [(0x80, 0x8f), (0x80, 0xbf), (0x80, 0xbf)]
  else none

def utf8Valid : List (UInt8 × UInt8) → Bytes → Bool
  | [], [] => true
  | _ :: _, [] => false
  | [], byte :: rest =>
      match utf8Tail byte with
      | none => false
      | some pending => utf8Valid pending rest
  | (low, high) :: pending, byte :: rest =>
      decide (low ≤ byte ∧ byte ≤ high) && utf8Valid pending rest

/-- `bytes.decode()`. -/
def decode (bytes : Bytes) : Except PyError Bytes :=
  if utf8Valid [] bytes then .ok bytes else .error .unicodeDecodeError

theorem decode_eq_ok {bytes text : Bytes} (decoded : decode bytes = .ok text) :
    text = bytes := by
  rw [decode] at decoded
  split at decoded
  · exact (Except.ok.inj decoded).symm
  · cases decoded

/-! ## Header -/

/-- The ten words that `_walk` unpacks, without the magic. -/
structure FdtHeader where
  total : Nat
  offStruct : Nat
  offStr : Nat
  rsv : Nat
  ver : Nat
  last : Nat
  cpu : Nat
  sizeStr : Nat
  sizeStruct : Nat
  deriving DecidableEq, Repr

def headerWord (blob : Bytes) (index : Nat) : Nat :=
  fromBe (slice blob (4 * index) (4 * index + 4))

def readHeader (blob : Bytes) : FdtHeader where
  total := headerWord blob 1
  offStruct := headerWord blob 2
  offStr := headerWord blob 3
  rsv := headerWord blob 4
  ver := headerWord blob 5
  last := headerWord blob 6
  cpu := headerWord blob 7
  sizeStr := headerWord blob 8
  sizeStruct := headerWord blob 9

/-! ## Tokens -/

/-- `value & ~3`. -/
def alignDown (value : Nat) : Nat :=
  value / 4 * 4

/-- `"/" + "/".join(part for part in stack if part)`. -/
def pathOf (stack : List Bytes) : Bytes :=
  text "/" ++ List.intercalate (text "/") (stack.filter fun part => !part.isEmpty)

/-- What a walk passes: the nodes, and the properties that `_walk` returns, each
with the position of its token. -/
inductive FdtItem
  | node (path : Bytes)
  | prop (path name value : Bytes) (pos : Nat)
  deriving DecidableEq, Repr

/-- One turn of the loop: go on at a position with a stack, or return. -/
inductive WalkStep
  | next (p : Nat) (stack : List Bytes) (item : Option FdtItem)
  | done
  deriving DecidableEq, Repr

/-- The name of a property, from the strings block. -/
def propName (strings : Bytes) (nameoff : Nat) : Except PyError Bytes :=
  if nameoff ≥ strings.length then
    .error (.systemExit "FDT property name is out of range")
  else
    match (strings.drop nameoff).idxOf? 0 with
    | none => .error .valueError
    | some length => decode ((strings.drop nameoff).take length)

/-- The token at position `p`, where `rest` is `blob[p:]`. -/
def walkStep (strings rest : Bytes) (p : Nat) (stack : List Bytes) :
    Except PyError WalkStep :=
  match unpackBe32 rest with
  | none => .error .structError
  | some 1 =>
      match (rest.drop 4).idxOf? 0 with
      | none => .error .valueError
      | some length => do
          let name ← decode ((rest.drop 4).take length)
          let stack := stack ++ [name]
          return .next (alignDown (p + 4 + length + 4)) stack (some (.node (pathOf stack)))
  | some 2 =>
      if stack.isEmpty then .error (.systemExit "FDT node nesting is invalid")
      else .ok (.next (p + 4) stack.dropLast none)
  | some 3 =>
      match unpackBe32 (rest.drop 4), unpackBe32 (rest.drop 8) with
      | some length, some nameoff => do
          let name ← propName strings nameoff
          let value := (rest.drop 12).take length
          return .next (alignDown (p + 12 + length + 3)) stack
            (some (.prop (pathOf stack) name value p))
      | _, _ => .error .structError
  | some 4 => .ok (.next (p + 4) stack none)
  | some 9 => .ok .done
  | some token => .error (.systemExit ("bad FDT token " ++ hexText token))

/-! ## The walk -/

/-- The `while` loop. Every turn moves on, so `stop - p` turns are enough. -/
def walkLoop (blob strings : Bytes) (stop : Nat) :
    Nat → Nat → List Bytes → Except PyError (List FdtItem)
  | 0, _, _ => .error (.systemExit "FDT structure has no end token")
  | turns + 1, p, stack =>
      if p < stop then do
        match ← walkStep strings (blob.drop p) p stack with
        | .done => return []
        | .next p stack item =>
            let items ← walkLoop blob strings stop turns p stack
            return item.toList ++ items
      else .error (.systemExit "FDT structure has no end token")

structure Walked where
  header : FdtHeader
  strings : Bytes
  items : List FdtItem
  deriving DecidableEq, Repr

def walk (blob : Bytes) : Except PyError Walked :=
  if blob.length < 40 ∨ blob.take 4 ≠ fdtMagic then
    .error (.systemExit "FDT magic is missing")
  else
    let header := readHeader blob
    if header.total ≠ blob.length ∨ header.offStruct + header.sizeStruct > blob.length ∨
        header.offStr + header.sizeStr > blob.length then
      .error (.systemExit "FDT header is out of range")
    else do
      let strings := slice blob header.offStr (header.offStr + header.sizeStr)
      let items ← walkLoop blob strings (header.offStruct + header.sizeStruct)
        header.sizeStruct header.offStruct []
      return { header, strings, items }

/-! ## The boot order -/

def chosenPath : Bytes := text "/chosen"
def bootOrderName : Bytes := text "u-boot,spl-boot-order"

def FdtItem.isBootOrder : FdtItem → Bool
  | .prop path name _ _ => path == chosenPath && name == bootOrderName
  | .node _ => false

/-- `data.split(b"\0")`. -/
def splitNul : Bytes → List Bytes
  | [] => [[]]
  | byte :: rest =>
      if byte = 0 then [] :: splitNul rest
      else
        match splitNul rest with
        | part :: parts => (byte :: part) :: parts
        | [] => [[byte]]

def stringlist (data : Bytes) : Except PyError (List Bytes) :=
  if data.getLast? ≠ some 0 then
    .error (.systemExit "boot-order property is not a terminated string list")
  else (splitNul data).dropLast.mapM decode

/-- The position and the value of the boot-order property, and its strings. -/
def bootOrder (blob : Bytes) : Except PyError (Nat × Bytes × List Bytes) := do
  let walked ← walk blob
  match walked.items.filter FdtItem.isBootOrder with
  | [.prop _ _ value pos] =>
      let order ← stringlist value
      return (pos, value, order)
  | _ => throw (.systemExit "SPL boot-order property is missing")

/-- The value that the dictionary `flags` ends up with for a name. -/
def lastValue (items : List FdtItem) (path name : Bytes) : Option Bytes :=
  items.foldl (fun found item =>
    match item with
    | .prop itemPath itemName value _ =>
        if itemPath = path ∧ itemName = name then some value else found
    | .node _ => found) none

def requireRightSlot (rightSlot blob : Bytes) : Except PyError Unit := do
  let walked ← walk blob
  let mmc1Alias := walked.items.filterMap fun item =>
    match item with
    | .prop path name value _ =>
        if path = text "/aliases" ∧ name = text "mmc1" then some value else none
    | .node _ => none
  refuseIf (mmc1Alias ≠ [rightSlot ++ [0]]) "mmc1 alias is not the right-hand slot"
  let status := (lastValue walked.items (text "/dwmmc@fe2b0000") (text "status")).getD []
  refuseIf (status.contains 0 = false ∨ status.takeWhile (· != 0) ≠ text "okay")
    "right-hand slot is not okay"
  refuseIf (lastValue walked.items (text "/dwmmc@fe2b0000") (text "u-boot,dm-spl") = none)
    "right-hand slot is not an SPL device"

end Zlyme.Preloader
