import Zlyme.Installer.BootOrderAwk
import Zlyme.Preloader.Derive

/-! # The image tools of the installer

`check-image.sh` and `apply-boot-order.sh` on the bytes of an image. `xxd` and `dd` read
ranges of it, and hashes are compared as bytes instead of text. The scripts fix the
positions of `my355`.
-/

namespace Zlyme.Installer

open Foundation Foundation.Bytes
open Preloader (Layout Sha256 zeros u16le)

/-! ## What both scripts share -/

/-- How a script ends early. -/
inductive ToolExit
  /-- `die`, with its message. -/
  | die (message : String)
  /-- `exit 2`. -/
  | already
  /-- The edit that awk makes is not the same in every awk. -/
  | unspecified
  deriving DecidableEq, Repr

abbrev Tool := Except ToolExit

/-- `[ … ] || die message`. -/
def orDie (condition : Prop) [Decidable condition] (message : String) : Tool Unit :=
  if condition then .ok () else .error (.die message)

/-- `u16le`, which dies when the field is cut off. -/
def readField (file : Bytes) (off : Nat) : Tool Nat := do
  orDie ((slice file off (off + 2)).length = 2) "short IDB field"
  return u16le file off

/-- A sector offset and count of an entry. -/
structure Extent where
  off : Nat
  cnt : Nat
  deriving DecidableEq, Repr

def Extent.length (extent : Extent) : Nat :=
  extent.cnt * 512

/-- Where the payload starts in the copy at a position. -/
def Extent.start (extent : Extent) (base : Nat) : Nat :=
  base + extent.off * 512

def entryInCopy (layout : Layout) (base : Nat) (extent : Extent) (limit : Nat) : Tool Unit := do
  orDie (1 ≤ extent.off) "IDB entry overlaps its header"
  orDie (extent.off < layout.size / 512) "IDB entry is outside the image"
  orDie (1 ≤ extent.cnt) "empty IDB entry"
  orDie (extent.cnt ≤ layout.size / 512) "IDB entry is outside the image"
  let start := extent.start base
  let stop := start + extent.length
  orDie (start < stop) "IDB entry length overflow"
  orDie (base ≤ start) "IDB entry is outside its copy"
  orDie (stop ≤ limit) "IDB entry is outside its copy"
  orDie (stop ≤ layout.size) "IDB entry is outside the image"

/-- `dd bs=512 skip=… count=…`, of a start and a length in bytes. -/
def sectors (file : Bytes) (start length : Nat) : Bytes :=
  slice file (start / 512 * 512) (start / 512 * 512 + length / 512 * 512)

/-- `sha_range`. -/
def shaRange (sha : Sha256) (file : Bytes) (start length : Nat) : Bytes :=
  sha.digest (sectors file start length)

/-- `stored_hash`. -/
def storedHash (file : Bytes) (entry : Nat) : Bytes :=
  slice file (entry + 0x18) (entry + 0x18 + 32)

/-- `e`. -/
def entryAt (base i : Nat) : Nat :=
  base + 0x78 + i * 0x58

def checkEntry (layout : Layout) (sha : Sha256) (file : Bytes) (base limit i : Nat) :
    Tool Extent := do
  let e := entryAt base i
  let off ← readField file e
  let cnt ← readField file (e + 2)
  let extent : Extent := { off, cnt }
  entryInCopy layout base extent limit
  orDie (storedHash file e = shaRange sha file (extent.start base) extent.length)
    ("IDB entry " ++ toString i ++ " at " ++ toString base ++ " fails its own SHA-256")
  return extent

def checkCopy (layout : Layout) (sha : Sha256) (file : Bytes) (base limit : Nat) :
    Tool (Extent × Extent) := do
  orDie (slice file base (base + 4) = Preloader.text "RKNS")
    ("no RKNS magic at " ++ toString base)
  let ddr ← checkEntry layout sha file base limit 0
  let spl ← checkEntry layout sha file base limit 1
  return (ddr, spl)

/-- `check_one`, which `apply-boot-order.sh` repeats: the DDR and the SPL entry. -/
def checkOne (layout : Layout) (sha : Sha256) (file : Bytes) : Tool (Extent × Extent) := do
  orDie (file.length = layout.size) ("input is not " ++ toString layout.size ++ " bytes")
  let (ddr, spl) ← checkCopy layout sha file layout.firstCopy layout.secondCopy
  let (ddrOther, splOther) ← checkCopy layout sha file layout.secondCopy layout.size
  orDie (ddr = ddrOther ∧ spl = splOther) "IDB copies disagree on entry geometry"
  orDie (¬(ddr.off < spl.off + spl.cnt ∧ spl.off < ddr.off + ddr.cnt))
    "DDR and SPL entries overlap"
  orDie (shaRange sha file (spl.start layout.firstCopy) spl.length =
    shaRange sha file (spl.start layout.secondCopy) spl.length) "SPL copies disagree"
  orDie (shaRange sha file (ddr.start layout.firstCopy) ddr.length =
    shaRange sha file (ddr.start layout.secondCopy) ddr.length) "DDR copies disagree"
  return (ddr, spl)

/-! ## `check-image.sh` -/

def checkImage (layout : Layout) (sha : Sha256) (file : Bytes) : Tool Unit := do
  let _ ← checkOne layout sha file

/-- `ddr_of`. -/
def ddrOf (layout : Layout) (file : Bytes) : Tool Bytes := do
  let base := layout.firstCopy
  let e := base + 0x78
  let off ← readField file e
  let cnt ← readField file (e + 2)
  orDie (0 < cnt) "empty DDR entry"
  return slice file ((base / 512 + off) * 512) ((base / 512 + off) * 512 + cnt * 512)

/-- `check-image.sh --ddr-cmp`. -/
def ddrCmp (layout : Layout) (sha : Sha256) (left right : Bytes) : Tool Unit := do
  let _ ← checkOne layout sha left
  let _ ← checkOne layout sha right
  let a ← ddrOf layout left
  let b ← ddrOf layout right
  orDie (a = b) "DDR payload differs"

/-! ## `apply-boot-order.sh` -/

/-- `TOTAL` and the file `old.dtb`, from the payload at `SPL` of `SPL_LEN` bytes. -/
def oldTree (layout : Layout) (file : Bytes) (spl length : Nat) : Tool (Nat × Bytes) := do
  orDie (slice file (spl + 16) (spl + 16 + 4) = (packBe32 layout.dtbOff).reverse)
    "SPL device tree offset is not the Nov 02 build"
  orDie (slice file (spl + layout.bootCall) (spl + layout.bootCall + 4) = Preloader.bootCallInsn)
    "SPL boot-order call is not the Nov 02 instruction"
  orDie (Preloader.contains Preloader.splBanner
      (slice file spl (spl + layout.dtbOff)) = true)
    "SPL banner is not the Nov 02 2024 Miyoo build"
  let tree := spl + layout.dtbOff
  orDie (slice file tree (tree + 4) = Preloader.fdtMagic) "SPL device tree magic is missing"
  let total := fromBe (slice file (tree + 4) (tree + 4 + 4))
  orDie (¬(total ≤ 0 ∨ tree + total > spl + length)) "device tree overruns its payload"
  orDie (((slice file (tree + total) (spl + length)).filter (· ≠ 0)).length = 0)
    "bytes after the SPL device tree are not zero"
  return (total, slice file tree (tree + total))

/-- The pipe from `xxd -p` through awk to `xxd -r -p`. -/
def awkTree (old : Bytes) : Tool Bytes :=
  match BootOrder.bootorder (Hex.ofBytes old) with
  | .ok text => .ok (Hex.toBytes text)
  | .error .already => .error .already
  | .error .unspecified => .error .unspecified
  | .error (.refused _) => .error (.die "boot-order edit failed")

/-- The file `new.dtb`. -/
def newTree (total : Nat) (old : Bytes) : Tool Bytes := do
  let new ← awkTree old
  orDie (new.length < total) "recovery device tree did not shrink"
  orDie (new.take 4 = Preloader.fdtMagic) "edited device tree lost its magic"
  return new

/-- The two `dd` of one copy: the new tree, and zeros up to the end of the old one. -/
def writeTree (out new : Bytes) (place total : Nat) : Bytes :=
  splice (splice out place new) (place + new.length) (zeros (total - new.length))

/-- The `dd` of the digest into the entry of one copy. -/
def writeHash (out hash : Bytes) (base : Nat) : Bytes :=
  splice out (base + 0x78 + 0x58 + 0x18) hash

/-- The loop that checks one entry of the output. -/
def verifyEntry (sha : Sha256) (out : Bytes) (base i : Nat) : Tool Unit := do
  let e := entryAt base i
  let off ← readField out e
  let cnt ← readField out (e + 2)
  orDie (storedHash out e = shaRange sha out (base + off * 512) (cnt * 512))
    ("output IDB entry " ++ toString i ++ " at " ++ toString base ++ " fails its SHA-256")

def applyBootOrder (layout : Layout) (sha : Sha256) (file : Bytes) : Tool Bytes := do
  let (ddr, splExtent) ← checkOne layout sha file
  let spl := splExtent.start layout.firstCopy
  let length := splExtent.length
  let (total, old) ← oldTree layout file spl length
  let new ← newTree total old
  let tree := spl + layout.dtbOff
  let other := tree + layout.secondCopy - layout.firstCopy
  let out := writeTree (writeTree file new tree total) new other total
  let hash := shaRange sha out spl length
  let out := writeHash (writeHash out hash layout.firstCopy) hash layout.secondCopy
  orDie (out.length = layout.size) "output changed size"
  verifyEntry sha out layout.firstCopy 0
  verifyEntry sha out layout.firstCopy 1
  verifyEntry sha out layout.secondCopy 0
  verifyEntry sha out layout.secondCopy 1
  let ddrStart := (layout.firstCopy / 512 + ddr.off) * 512
  orDie (sha.digest (slice file ddrStart (ddrStart + ddr.length)) =
    sha.digest (slice out ddrStart (ddrStart + ddr.length))) "the DDR blob changed"
  orDie (sha.digest (slice file spl (spl + layout.dtbOff)) =
    sha.digest (slice out spl (spl + layout.dtbOff))) "the SPL code changed"
  orDie (slice out (spl + layout.bootCall) (spl + layout.bootCall + 4) = Preloader.bootCallInsn)
    "the boot-order call changed"
  return out

end Zlyme.Installer
