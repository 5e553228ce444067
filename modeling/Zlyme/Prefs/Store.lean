import Zlyme.Foundation.KeyedRows
import Zlyme.Foundation.Text
import Mathlib.Data.List.DropRight

/-! # The preference store

`zlyme_prefs.c`: one file of tab-separated rows, read into a table and written
back as a whole. A text is the bytes before its NUL, and `MAX_PATH`, which other
code defines, is the parameter `maxPath`.
-/

namespace Zlyme.Prefs

open Foundation.Text

abbrev Text : Type :=
  List UInt8

def ascii (literal : String) : Text :=
  literal.toList.map Char.toUInt8

def slash : UInt8 :=
  0x2f

/-! ## Rows -/

/-- `Pref`, whose fields fit their arrays. -/
structure Pref where
  kind : Text
  tag : Text
  rel : Text
  governor : Text
  emu : Text
  deriving DecidableEq, Repr

abbrev Value : Type :=
  Text × Text

def prefsMax : Nat := 256

def kindSize : Nat := 8
def tagSize : Nat := 32
def governorSize : Nat := 16
def emuSize : Nat := 32

/-- `snprintf` of `%s` into `size` bytes, of which there is one at least. -/
def snprintf (size : Nat) (text : Text) : Text :=
  text.take (size - 1)

/-- The row that is built from five texts. -/
def makePref (maxPath : Nat) (kind tag rel gov emu : Text) : Pref where
  kind := snprintf kindSize kind
  tag := snprintf tagSize tag
  rel := snprintf maxPath rel
  governor := snprintf governorSize gov
  emu := snprintf emuSize emu

/-- `tolower` of the C locale. -/
def toLower (byte : UInt8) : UInt8 :=
  if 0x41 ≤ byte && byte ≤ 0x5a then byte + 0x20 else byte

/-- `strcasecmp` says that the texts are the same. -/
def sameCaseless (first second : Text) : Bool :=
  first.map toLower == second.map toLower

/-- The three comparisons of every search in the table. -/
def Pref.isFor (row : Pref) (kind tag rel : Text) : Bool :=
  row.kind == kind && sameCaseless row.tag tag && row.rel == rel

def isTrimmed (byte : UInt8) : Bool :=
  byte == 0x0a || byte == 0x0d || byte == 0x20 || byte == 0x09

def trimField (text : Text) : Text :=
  text.rdropWhile isTrimmed

/-- The fields of a line, of which the last may be missing. -/
def splitRow (maxPath : Nat) (line : Text) : Option Pref := do
  let (kind, rest) ← cut 0x09 line
  let (tag, rest) ← cut 0x09 rest
  let (rel, rest) ← cut 0x09 rest
  let (gov, emu) := (cut 0x09 rest).getD (rest, [])
  return makePref maxPath kind tag rel gov emu

/-- What the loop of `prefsReload` makes of one line. -/
def parseRow (maxPath : Nat) (read : Text) : Option Pref :=
  let line := trimField (read.takeWhile (· != 0))
  if line = [] ∨ line.head? = some 0x23 then none else splitRow maxPath line

/-- The rows of a file: `fgets` puts at most `sizeof(line) - 1` bytes into `line`. -/
def fileRows (maxPath : Nat) (text : Text) : List Pref :=
  (chunks (· == 0x0a) (maxPath * 2 - 1) (maxPath * 2 - 1) text).filterMap (parseRow maxPath)

/-- One line of the file, without its newline. -/
def Pref.line (row : Pref) : Text :=
  joined 0x09 [row.kind, row.tag, row.rel, row.governor, row.emu]

def formatRows (rows : List Pref) : Text :=
  unlines 0x0a (rows.map Pref.line)

/-! ## The process and its file -/

/-- What `stat` says of one version of the file. -/
structure Stamp where
  dev : Nat
  ino : Nat
  mtimeSec : Int
  mtimeNsec : Int
  size : Nat
  deriving DecidableEq, Repr

/-- The static variables. `seen` is `none` where `prefs_size` is negative. -/
structure Memory where
  rows : List Pref := []
  loaded : Bool := false
  overflow : Bool := false
  seen : Option Stamp := none
  locked : Bool := false
  deriving DecidableEq, Repr

structure World where
  file : Option (Text × Stamp) := none
  memory : Memory := {}
  deriving DecidableEq, Repr

/-- How far `prefs_write` comes: it fails before `rename`, after it, or not. -/
inductive WriteResult
  | failed
  | unsynced (stamp : Stamp)
  | written (stamp : Stamp)
  deriving DecidableEq, Repr

/-- What the system answers during one call. -/
structure Host where
  locks : Bool
  write : WriteResult
  deriving DecidableEq, Repr

def prefsLock (host : Host) (w : World) : Option World :=
  if w.memory.locked then some w
  else if host.locks then some { w with memory := { w.memory with locked := true } }
  else none

def prefsUnlock (w : World) : World :=
  { w with memory := { w.memory with locked := false } }

def prefsNoteStat (w : World) : World :=
  { w with memory := { w.memory with seen := w.file.map Prod.snd } }

def prefsReload (maxPath : Nat) (w : World) : World :=
  match w.file with
  | none =>
      prefsNoteStat
        { w with memory := { w.memory with rows := [], loaded := true, overflow := false } }
  | some (text, _) =>
      prefsNoteStat
        { w with memory := { w.memory with
            rows := (fileRows maxPath text).take prefsMax
            loaded := true
            overflow := decide (prefsMax < (fileRows maxPath text).length) } }

def prefsEnsure (maxPath : Nat) (w : World) : World :=
  match w.file with
  | some (_, stamp) =>
      if w.memory.loaded && w.memory.seen == some stamp then w else prefsReload maxPath w
  | none => if w.memory.loaded && w.memory.seen == none then w else prefsReload maxPath w

/-- The world after the write, and whether it returned 0. -/
def prefsWrite (host : Host) (w : World) : World × Bool :=
  if w.memory.overflow then (w, false)
  else
    match host.write with
    | .failed => (w, false)
    | .unsynced stamp => ({ w with file := some (formatRows w.memory.rows, stamp) }, false)
    | .written stamp =>
        (prefsNoteStat { w with file := some (formatRows w.memory.rows, stamp) }, true)

/-- The end of `prefsSave`, under the lock. -/
def writeRows (host : Host) (w : World) : World :=
  match prefsWrite host w with
  | (written, true) => written
  | (unwritten, false) => { unwritten with memory := { unwritten.memory with loaded := false } }

def prefsSave (maxPath : Nat) (host : Host) (w : World) : World :=
  if w.memory.locked then writeRows host w
  else
    match prefsLock host w with
    | none => w
    | some locked => prefsUnlock (writeRows host (prefsReload maxPath locked))

/-- A change of the table, saved. -/
def saveRows (maxPath : Nat) (host : Host) (w : World) (rows : List Pref) : World :=
  prefsUnlock (prefsSave maxPath host { w with memory := { w.memory with rows } })

/-- The governor and the emulator found for the key, each cut to its buffer. -/
def prefsGetExact (maxPath : Nat) (kind tag rel : Text) (gn en : Nat) (w : World) :
    World × Text × Text :=
  let w := prefsEnsure maxPath w
  match w.memory.rows.find? fun row => row.isFor kind tag rel with
  | some row => (w, snprintf gn row.governor, snprintf en row.emu)
  | none => (w, [], [])

def prefsSet (maxPath : Nat) (host : Host) (kind tag rel gov emu : Text) (w : World) : World :=
  match prefsLock host w with
  | none => w
  | some locked =>
      let w := prefsReload maxPath locked
      match w.memory.rows.findIdx? fun row => row.isFor kind tag rel with
      | some i =>
          saveRows maxPath host w (w.memory.rows.modify i fun row =>
            { row with governor := snprintf governorSize gov, emu := snprintf emuSize emu })
      | none =>
          if w.memory.rows.length ≥ prefsMax then prefsUnlock w
          else saveRows maxPath host w (w.memory.rows ++ [makePref maxPath kind tag rel gov emu])

def prefsClear (maxPath : Nat) (host : Host) (kind tag rel : Text) (w : World) : World :=
  match prefsLock host w with
  | none => w
  | some locked =>
      let w := prefsReload maxPath locked
      match w.memory.rows.findIdx? fun row => row.isFor kind tag rel with
      | some i =>
          saveRows maxPath host w (Foundation.KeyedRows.swapRemove w.memory.rows i)
      | none => prefsUnlock w

/-! ## Runs -/

inductive Call
  | set (kind tag rel gov emu : Text)
  | clear (kind tag rel : Text)
  | get (kind tag rel : Text)
  deriving DecidableEq, Repr

def Call.perform (maxPath : Nat) (host : Host) (w : World) : Call → World
  | .set kind tag rel gov emu => prefsSet maxPath host kind tag rel gov emu w
  | .clear kind tag rel => prefsClear maxPath host kind tag rel w
  | .get kind tag rel => (prefsGetExact maxPath kind tag rel governorSize emuSize w).1

def runFrom (maxPath : Nat) (w : World) (calls : List (Host × Call)) : World :=
  calls.foldl (fun w call => call.2.perform maxPath call.1 w) w

/-- From an absent file and a process that has read nothing. -/
def run (maxPath : Nat) (calls : List (Host × Call)) : World :=
  runFrom maxPath {} calls

end Zlyme.Prefs
