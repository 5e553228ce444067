import Mathlib.Data.List.AList
import Zlyme.Preloader.Derive

/-! # The recovery manifest

What the manifest, the source backup and the prepared image must say before
`arm-recovery` and `disarm-recovery` go on. The manifest names hashes; the images
have to be derivatives of each other.
-/

namespace Zlyme.Preloader

open Foundation Foundation.Bytes

/-! ## Files -/

/-- The directories that the script keeps files in. -/
inductive Dir
  | boot
  | backups
  | recovery
  | share
  deriving DecidableEq, Repr

structure Path where
  dir : Dir
  name : String
  deriving DecidableEq, Repr

/-- The directory's own path. -/
def Dir.path : Dir → String
  | .boot => "/boot"
  | .backups => "/storage/.config/zlyme/preloader-backups"
  | .recovery => "/storage/.config/zlyme/preloader-recovery"
  | .share => "/usr/share/zlyme/recovery"

def Path.path (path : Path) : String :=
  path.dir.path ++ "/" ++ path.name

abbrev Storage : Type :=
  AList fun _ : Path => Bytes

/-- `_load`, with the error that its caller turns a missing file into. -/
def load (storage : Storage) (path : Path) (missing : String) : Except PyError Bytes :=
  match storage.lookup path with
  | some bytes => .ok bytes
  | none => .error (.systemExit missing)

/-! ## JSON -/

/-- A value of `json.loads`. A float carries the integer that it equals, if any. -/
inductive Json
  | null
  | bool (value : Bool)
  | int (value : Int)
  | float (integral : Option Int)
  | str (value : String)
  | arr (values : List Json)
  | obj (fields : List (String × Json))

/-- The integer that Python takes a value to be equal to. -/
def Json.integral : Json → Option Int
  | .bool value => some (if value then 1 else 0)
  | .int value => some value
  | .float integral => integral
  | _ => none

/-- `==` between a manifest field and any other value. -/
def Json.sameField : Json → Json → Bool
  | .str left, .str right => left == right
  | left, right => left.integral.isSome && left.integral == right.integral

def field (fields : List (String × Json)) (key : String) : Json :=
  (fields.lookup key).getD .null

/-- The Python installation: the layout constants, `hashlib` and `json`. The text
that `json.loads` reads is UTF-8 here. -/
structure Host where
  layout : Layout
  sha : Sha256
  loads : Bytes → Option Json

/-! ## Hashes -/

def hexByte (byte : UInt8) : List Char :=
  [Nat.digitChar (byte.toNat / 16), Nat.digitChar (byte.toNat % 16)]

/-- `hexdigest()`, which is also the first word that `sha256sum` prints. -/
def Host.shaText (host : Host) (bytes : Bytes) : String :=
  String.ofList ((host.sha.digest bytes).flatMap hexByte)

/-! ## The manifest -/

def manifestKeys : List String :=
  ["schema", "design", "device", "source_sha256", "recovery_sha256", "source_backup",
    "source_ddr_sha256", "spl_banner", "executable_sha256"]

def design : String := "right-sd-v1"
def splBannerText : String := "U-Boot SPL 2017.09 (Nov 02 2024 - 15:59:04)"

def hex64 (value : Json) (label : String) : Except PyError String :=
  match value with
  | .str digits =>
      if digits.length ≠ 64 ∨ ¬digits.toList.all ("0123456789abcdef".toList.contains ·) then
        .error (.systemExit ("recovery manifest " ++ label ++ " is not a sha256"))
      else .ok digits
  | _ => .error (.systemExit ("recovery manifest " ++ label ++ " is not a sha256"))

def Json.isStr (value : Json) (expected : String) : Bool :=
  value.sameField (.str expected)

/-- A manifest that `_manifest` has accepted. -/
structure Manifest where
  fields : List (String × Json)
  sourceSha256 : String
  recoverySha256 : String
  sourceDdrSha256 : String
  executableSha256 : String

/-- The name that the manifest must give the source backup. -/
def backupName (sha256 : String) : String :=
  "preloader-current-" ++ sha256 ++ ".img"

def Manifest.sourceBackup (doc : Manifest) : Path :=
  ⟨.backups, backupName doc.sourceSha256⟩

/-- The prepared image of the manifest. -/
def Manifest.prepared (doc : Manifest) : Path :=
  ⟨.recovery, "recovery-" ++ doc.recoverySha256 ++ ".img"⟩

def manifestPath : Path := ⟨.recovery, "manifest.json"⟩

def Host.manifest (host : Host) (storage : Storage) (path : Path) : Except PyError Manifest := do
  let raw ← load storage path "recovery manifest is malformed"
  match decode raw with
  | .error _ => throw (.systemExit "recovery manifest is malformed")
  | .ok raw =>
      match host.loads raw with
      | some (.obj fields) =>
          refuseIf ((fields.map Prod.fst).isPerm manifestKeys = false)
            "recovery manifest is malformed"
          refuseIf ((match field fields "schema" with | .int 1 => true | _ => false) = false)
            "recovery manifest schema is not supported"
          refuseIf ((field fields "design").isStr design = false)
            "recovery manifest design is not supported"
          refuseIf ((field fields "device").isStr "my355" = false)
            "recovery manifest device is not my355"
          let sourceSha256 ← hex64 (field fields "source_sha256") "source_sha256"
          let recoverySha256 ← hex64 (field fields "recovery_sha256") "recovery_sha256"
          let sourceDdrSha256 ← hex64 (field fields "source_ddr_sha256") "source_ddr_sha256"
          let executableSha256 ← hex64 (field fields "executable_sha256") "executable_sha256"
          refuseIf ((field fields "source_backup").isStr (backupName sourceSha256) = false)
            "recovery manifest source backup name is not the source sha"
          refuseIf ((field fields "spl_banner").isStr splBannerText = false)
            "recovery manifest SPL banner is not the Nov 02 build"
          return { fields, sourceSha256, recoverySha256, sourceDdrSha256, executableSha256 }
      | _ => throw (.systemExit "recovery manifest is malformed")

/-! ## Disarm -/

/-- The checks of two images that `bound_source` and `arm_bind` share: `image` has
the DDR and the executable of the source. -/
def Host.sameBuild (host : Host) (doc : Manifest) (source image : Bytes) :
    Except PyError Unit := do
  let dtbOff := host.layout.dtbOff
  let (sourceDdr, sourceSpl, _) ← paired host.layout host.sha source
  let (ddr, spl, _) ← paired host.layout host.sha image
  refuseIf (sourceDdr ≠ ddr ∨ host.shaText sourceDdr ≠ doc.sourceDdrSha256)
    "DDR payload does not match the source backup"
  refuseIf (contains splBanner (sourceSpl.payload.take dtbOff) = false)
    "source backup is a different SPL build"
  refuseIf (sourceSpl.payload.take dtbOff ≠ spl.payload.take dtbOff)
    "recovery image changed SPL executable bytes"
  refuseIf (host.shaText (sourceSpl.payload.take dtbOff) ≠ doc.executableSha256)
    "source executable sha does not match the manifest"

/-- The source backup that the live recovery image derives from. -/
def Host.boundSource (host : Host) (storage : Storage) (live : Bytes) : Except PyError Path := do
  let doc ← host.manifest storage manifestPath
  let _ ← paired host.layout host.sha live
  refuseIf (host.shaText live ≠ doc.recoverySha256)
    "live preloader is not the recovery image in the manifest"
  let source ← load storage doc.sourceBackup "source backup is missing"
  refuseIf (host.shaText source ≠ doc.sourceSha256)
    "source backup sha does not match the manifest"
  host.sameBuild doc source live
  match deriveBytes host.layout host.sha source with
  | .error (.systemExit message) =>
      throw (.systemExit ("source backup is a different SPL build: " ++ message))
  | .error error => throw error
  | .ok expected =>
      refuseIf (expected ≠ live)
        "live recovery image is not the derivative of the source backup"
      return doc.sourceBackup

/-! ## Arm -/

/-- The checks of the files on the boot volume. -/
def Host.publishedCopies (host : Host) (storage : Storage) (doc : Manifest) (source : Bytes) :
    Except PyError Unit := do
  let name := backupName doc.sourceSha256
  let fat ← load storage ⟨.boot, name⟩ "FAT source backup is missing"
  refuseIf (fat ≠ source ∨ host.shaText fat ≠ doc.sourceSha256)
    "FAT source backup does not match the source"
  let fatRaw ← load storage ⟨.boot, "preloader-recovery-manifest.json"⟩
    "FAT recovery manifest is missing"
  let fatRaw ← decode fatRaw
  let same :=
    match host.loads fatRaw with
    | some (.obj fields) =>
        (fields.map Prod.fst).isPerm (doc.fields.map Prod.fst) &&
          doc.fields.all fun entry => entry.2.sameField (field fields entry.1)
    | _ => false
  refuseIf (same = false) "FAT recovery manifest does not match"
  let note ← load storage ⟨.boot, "preloader-current-" ++ doc.sourceSha256 ++ ".txt"⟩
    "recovery note is missing"
  refuseIf (utf8Valid [] note = false) "recovery note is missing"
  refuseIf (contains (text doc.sourceSha256) note = false ∨
    contains (text "2097152") note = false) "recovery note does not identify the source"
  refuseIf (contains (text "Miyoo Flip") note = false ∧ contains (text "my355") note = false)
    "recovery note does not identify the device"
  refuseIf (contains (text "2207:350a") note = false)
    "recovery note does not name the xrock prerequisite"
  refuseIf (contains (text ("xrock flash write 0 " ++ name)) note = false)
    "recovery note does not name the xrock command"

/-- The prepared image and the hash of the source, after all checks. -/
def Host.armBind (host : Host) (storage : Storage) (live : Bytes) :
    Except PyError (Path × String) := do
  let doc ← host.manifest storage manifestPath
  let _ ← paired host.layout host.sha live
  let liveSha := host.shaText live
  refuseIf (liveSha = doc.recoverySha256 ∧ liveSha ≠ doc.sourceSha256)
    "live preloader is already the recovery image"
  refuseIf (liveSha ≠ doc.sourceSha256)
    "live preloader is not the source image in the manifest"
  let source ← load storage doc.sourceBackup "source backup is missing"
  refuseIf (host.shaText source ≠ doc.sourceSha256)
    "source backup sha does not match the manifest"
  refuseIf (source ≠ live) "source backup is not the live preloader"
  let prepared ← load storage doc.prepared "prepared recovery image is missing"
  refuseIf (host.shaText prepared ≠ doc.recoverySha256)
    "prepared recovery sha does not match the manifest"
  host.sameBuild doc source prepared
  let (_, spl, _) ← paired host.layout host.sha prepared
  let blob ← fdt host.layout spl.payload
  let (_, _, order) ← bootOrder blob
  refuseIf (order ≠ [rightSlotName] ∧ order.length ≠ 1)
    "recovery boot order has an extra boot device"
  refuseIf (order ≠ [rightSlotName]) "recovery boot order is not the right-hand slot"
  let derived ← deriveBytes host.layout host.sha source
  refuseIf (derived ≠ prepared ∨ host.shaText derived ≠ doc.recoverySha256)
    "prepared recovery image is not the derivative of the source backup"
  host.publishedCopies storage doc source
  return (doc.prepared, doc.sourceSha256)

/-! ## The DDR payload -/

/-- `_ddr`: the DDR payload that both copies hold. -/
def Host.ddr (host : Host) (data : Bytes) : Except PyError Bytes := do
  let found ← parse host.layout host.sha data
  match (found.filter (·.index == ddrIndex)).map (·.payload) with
  | [first, second] =>
      refuseIf (first ≠ second) "DDR copies disagree"
      return first
  | _ => throw (.systemExit "DDR copies disagree")

def Host.ddrSame (host : Host) (left right : Bytes) : Except PyError Unit := do
  let first ← host.ddr left
  let second ← host.ddr right
  refuseIf (first ≠ second) "DDR payload differs"

end Zlyme.Preloader
