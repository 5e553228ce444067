import Zlyme.Prefs.Store

/-! # The preference file in the scripts

`zlyme-game-cleanup.sh` reads the file of the preference store line by line, and
writes back the lines that it keeps.
-/

namespace Zlyme.Games

open Foundation.Text
open Prefs (Text ascii)

/-! ## Lines -/

/-- The lines of a loop over `read`, to which `|| [ -n "$row" ]` adds a last line
without a newline. -/
def readLines (text : Text) : List Text :=
  lines (· == 0x0a) text

/-- The lines of a loop over `read` alone. -/
def readWholeLines (text : Text) : List Text :=
  match cutLast 0x0a text with
  | some (whole, _) => lines (· == 0x0a) (whole ++ [0x0a])
  | none => []

/-- Tag and path of a line that is a row of kind `rom`. -/
def romRow (line : Text) : Option (Text × Text) :=
  if line = [] ∨ line.head? = some 0x23 ∨ line.count 0x09 + 1 < 4 then none
  else do
    let (kind, rest) ← cut 0x09 line
    let (tag, rest) ← cut 0x09 rest
    let (rel, _) ← cut 0x09 rest
    if kind = ascii "rom" then some (tag, rel) else none

/-! ## Lines left out -/

/-- A loop that leaves lines out, under the lock, and `rewrite_prefs` where it left
out any: the file after it, and whether it succeeded. -/
def rewriteWithout (locks : Bool) (write : Prefs.WriteResult) (drops : Text → Bool)
    (text : Text) : Option Text × Bool :=
  let kept := (readLines text).filter fun line => !drops line
  if locks = false then (some text, false)
  else if (readLines text).all fun line => !drops line then (some text, true)
  else
    match write with
    | .failed => (some text, false)
    | .unsynced _ => (some (unlines 0x0a kept), false)
    | .written _ => (some (unlines 0x0a kept), true)

theorem readLines_kept (text : Text) (keep : Text → Bool) :
    readLines (unlines 0x0a ((readLines text).filter keep)) = (readLines text).filter keep := by
  refine lines_unlines ?_ rfl
  intro line isLine item inside
  exact (mem_of_mem_lines (List.mem_filter.mp isLine).1 inside).2

section Rewrite

variable {locks : Bool} {write : Prefs.WriteResult} {drops : Text → Bool} {text line : Text}

theorem rewriteWithout_gone (present : line ∈ readLines text)
    (gone : line ∉ readLines ((rewriteWithout locks write drops text).1.getD [])) :
    drops line = true := by
  by_contra isKept
  have kept : line ∈ (readLines text).filter fun line => !drops line :=
    List.mem_filter.mpr ⟨present, by simpa using isKept⟩
  apply gone
  unfold rewriteWithout
  split
  · exact present
  · split
    · exact present
    · cases write with
      | failed => exact present
      | unsynced stamp => exact (readLines_kept text _).symm ▸ kept
      | written stamp => exact (readLines_kept text _).symm ▸ kept

theorem rewriteWithout_dropped (dropped : (rewriteWithout locks write drops text).2 = true)
    (isDropped : drops line = true) :
    line ∉ readLines ((rewriteWithout locks write drops text).1.getD []) := by
  intro present
  unfold rewriteWithout at dropped present
  split at dropped
  · cases dropped
  · rename_i locked
    rw [if_neg locked] at present
    split at dropped
    · rename_i none
      rw [if_pos none] at present
      have isKept := List.all_eq_true.mp none line present
      rw [isDropped] at isKept
      cases isKept
    · rename_i some
      rw [if_neg some] at present
      cases write with
      | failed => cases dropped
      | unsynced stamp => cases dropped
      | written stamp =>
          dsimp only at present
          rw [Option.getD_some, readLines_kept] at present
          have isKept := (List.mem_filter.mp present).2
          rw [isDropped] at isKept
          cases isKept

end Rewrite

end Zlyme.Games
