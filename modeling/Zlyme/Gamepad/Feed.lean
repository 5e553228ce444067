import Zlyme.Foundation.FrameScanner
import Zlyme.Gamepad.BootCentre

/-! # The UART frame parser

`mf_feed` takes one byte, `mf_receive` one chunk. Both return, beside the pad,
the complete frames they handed to `mf_boot_note` and `mf_report_axes`.
-/

namespace Zlyme.Gamepad

/-! ## The functions -/

/-- The payload of a complete frame: `FF YL XL YR XR FE`. -/
def frameRaw (frame : List UInt8) : MfRaw
  | .xl => frame.getD 2 0
  | .yl => frame.getD 1 0
  | .xr => frame.getD 4 0
  | .yr => frame.getD 3 0

/-- The search for another start byte in a rejected frame, after its first
byte: the index that `mf_feed` calls `start`. -/
def frameRestart (frame : List UInt8) : Option Nat :=
  (frame.tail.findIdx? (· == mfFrameStart)).map (· + 1)

def mfFeed (kernel : Kernel) (now : Jiffies) (pad : MfPad) (byte : UInt8) :
    MfPad × Option (List UInt8) :=
  let counted := { pad with rxBytes := pad.rxBytes + 1 }
  if counted.frame.length = 0 then
    if byte = mfFrameStart then ({ counted with frame := [byte] }, none)
    else (counted, none)
  else
    let grown := { counted with frame := counted.frame ++ [byte] }
    if grown.frame.length < mfFrameLen then (grown, none)
    else if grown.frame.getD (mfFrameLen - 1) 0 = mfFrameEnd then
      let valid := { grown with validFrames := grown.validFrames + 1 }
      let raw := frameRaw valid.frame
      let reported := mfReportAxes kernel (mfBootNote kernel now valid raw) raw
      ({ reported with frame := [] }, some valid.frame)
    else
      let bad := { grown with badFrames := grown.badFrames + 1 }
      match frameRestart bad.frame with
      | none => ({ bad with frame := [] }, none)
      | some start => ({ bad with frame := bad.frame.drop start }, none)

/-- The loop of `mf_receive`. `jiffies` may advance while the lock is held, so
every byte carries the value its own call would read. -/
def mfFeedAll (kernel : Kernel) (pad : MfPad) :
    List (Jiffies × UInt8) → MfPad × List (List UInt8)
  | [] => (pad, [])
  | (now, byte) :: rest =>
      let fed := mfFeed kernel now pad byte
      let later := mfFeedAll kernel fed.1 rest
      (later.1, fed.2.toList ++ later.2)

def mfReceive (kernel : Kernel) (pad : MfPad) (buf : List (Jiffies × UInt8)) :
    MfPad × List (List UInt8) :=
  if pad.portOpen = false then (pad, []) else mfFeedAll kernel pad buf

/-- Chunks received one after the other. -/
def mfReceiveAll (kernel : Kernel) (pad : MfPad) :
    List (List (Jiffies × UInt8)) → MfPad × List (List UInt8)
  | [] => (pad, [])
  | chunk :: rest =>
      let received := mfReceive kernel pad chunk
      let later := mfReceiveAll kernel received.1 rest
      (later.1, received.2 ++ later.2)

/-- The bytes of a chunk without the times at which they are read. -/
def chunkBytes (chunk : List (Jiffies × UInt8)) : List UInt8 :=
  chunk.map Prod.snd

/-! ## The frame format -/

/-- Six bytes between `MF_FRAME_START` and `MF_FRAME_END`. -/
def frameFormat : Foundation.FrameFormat UInt8 where
  start := mfFrameStart
  stop := mfFrameEnd
  length := mfFrameLen
  two_le_length := by decide
  start_ne_stop := by decide

/-- The scanner that looks for the next `0xFF`, emits its 6-byte window when
that ends with `0xFE`, and otherwise goes on after the `0xFF`. -/
def referenceScan (stream : List UInt8) : List (List UInt8) :=
  frameFormat.scan stream

theorem referenceScan_eq (byte : UInt8) (rest : List UInt8) :
    referenceScan (byte :: rest) =
      if byte = 0xff ∧ 5 ≤ rest.length ∧ rest[4]? = some 0xfe then
        (byte :: rest).take 6 :: referenceScan ((byte :: rest).drop 6)
      else
        referenceScan rest := by
  have meaning : frameFormat.Complete ((byte :: rest).take frameFormat.length) ↔
      byte = 0xff ∧ 5 ≤ rest.length ∧ rest[4]? = some 0xfe := by
    change ((byte :: rest).take 6).length = 6 ∧
      ((byte :: rest).take 6).head? = some 0xff ∧
        ((byte :: rest).take 6).getLast? = some 0xfe ↔ _
    by_cases long : 5 ≤ rest.length
    · have full : ((byte :: rest).take 6).length = 6 := by
        rw [List.length_take, List.length_cons]
        omega
      have last : ((byte :: rest).take 6).getLast? = rest[4]? := by
        rw [List.getLast?_eq_getElem?, full, List.getElem?_take]
        simp
      rw [full, last]
      simp [long]
    · simp only [List.length_take, List.length_cons]
      omega
  by_cases complete : frameFormat.Complete ((byte :: rest).take frameFormat.length)
  · rw [if_pos (meaning.mp complete)]
    exact frameFormat.scan_of_complete complete
  · rw [if_neg fun holds => complete (meaning.mpr holds)]
    exact frameFormat.scan_cons_of_not_complete complete

/-! ## `mf_feed` runs the incremental receiver -/

/-- Between bytes the buffer is shorter than a frame and, if not empty, begins
with the start byte. -/
abbrev BufferOk (pad : MfPad) : Prop :=
  frameFormat.Unfinished pad.frame

theorem bufferOk_iff (pad : MfPad) :
    BufferOk pad ↔
      pad.frame.length < 6 ∧ (pad.frame ≠ [] → pad.frame.head? = some 0xff) :=
  ⟨fun unfinished => ⟨unfinished.short, unfinished.opened⟩,
    fun ⟨short, opened⟩ => ⟨short, opened⟩⟩

private theorem drop_findIdx?_succ (bytes : List UInt8) :
    (match (bytes.findIdx? (· == mfFrameStart)).map (· + 1) with
      | none => []
      | some start => bytes.drop (start - 1)) =
    bytes.dropWhile fun byte => decide (byte ≠ mfFrameStart) := by
  induction bytes with
  | nil => rfl
  | cons byte rest induction =>
      by_cases opens : byte = mfFrameStart
      · simp [List.findIdx?_cons, opens]
      · rw [List.dropWhile_cons, if_pos (by simpa using opens), ← induction,
          List.findIdx?_cons, if_neg (by simpa using opens)]
        cases rest.findIdx? (· == mfFrameStart) <;> rfl

/-- The shift after a rejected frame keeps what can still open a frame. -/
theorem frameRestart_resume (frame : List UInt8) (nonempty : frame ≠ []) :
    (match frameRestart frame with
      | none => []
      | some start => frame.drop start) = frameFormat.resume frame := by
  rcases List.exists_cons_of_ne_nil nonempty with ⟨head, tail, rfl⟩
  have shifted := drop_findIdx?_succ tail
  rw [frameRestart, Foundation.FrameFormat.resume, List.tail_cons]
  refine Eq.trans ?_ shifted
  cases tail.findIdx? (· == mfFrameStart) <;> rfl

@[simp] theorem mfBootNote_frame (kernel : Kernel) (now : Jiffies) (pad : MfPad)
    (raw : MfRaw) : (mfBootNote kernel now pad raw).frame = pad.frame := by
  simp only [mfBootNote, bootCollect, bootFinish, bootRelease, bootStart]
  split_ifs <;> rfl

@[simp] theorem mfBootNote_portOpen (kernel : Kernel) (now : Jiffies) (pad : MfPad)
    (raw : MfRaw) : (mfBootNote kernel now pad raw).portOpen = pad.portOpen := by
  simp only [mfBootNote, bootCollect, bootFinish, bootRelease, bootStart]
  split_ifs <;> rfl

@[simp] theorem mfFeed_portOpen (kernel : Kernel) (now : Jiffies) (pad : MfPad)
    (byte : UInt8) : (mfFeed kernel now pad byte).1.portOpen = pad.portOpen := by
  simp only [mfFeed]
  split_ifs <;> try rfl
  · simp
  · cases frameRestart (pad.frame ++ [byte]) <;> rfl

/-- One byte moves the buffer and emits a frame as the generic receiver does,
whatever the rest of the pad holds. -/
theorem mfFeed_refines (kernel : Kernel) (now : Jiffies) {pad : MfPad}
    (bufferOk : BufferOk pad) (byte : UInt8) :
    ((mfFeed kernel now pad byte).1.frame, (mfFeed kernel now pad byte).2) =
      frameFormat.feed pad.frame byte := by
  have short : pad.frame.length < 6 := bufferOk.short
  change _ = if pad.frame = [] then
      (if byte = mfFrameStart then [byte] else [], none)
    else if pad.frame.length + 1 < mfFrameLen then (pad.frame ++ [byte], none)
    else if byte = mfFrameEnd then ([], some (pad.frame ++ [byte]))
    else (frameFormat.resume (pad.frame ++ [byte]), none)
  simp only [mfFeed, List.length_eq_zero_iff, List.length_append, List.length_singleton]
  by_cases empty : pad.frame = []
  · rw [if_pos empty, if_pos empty]
    split_ifs
    · rfl
    · simp [empty]
  · rw [if_neg empty, if_neg empty]
    by_cases fits : pad.frame.length + 1 < mfFrameLen
    · rw [if_pos fits, if_pos fits]
    · have five : pad.frame.length = 5 := by
        change ¬pad.frame.length + 1 < 6 at fits
        omega
      have last : (pad.frame ++ [byte]).getD (mfFrameLen - 1) 0 = byte := by
        change (pad.frame ++ [byte]).getD 5 0 = byte
        rw [List.getD_eq_getElem?_getD, List.getElem?_append_right (by omega), five]
        rfl
      rw [if_neg fits, if_neg fits, last]
      by_cases stops : byte = mfFrameEnd
      · rw [if_pos stops, if_pos stops]
      · rw [if_neg stops, if_neg stops, ← frameRestart_resume _ (by simp)]
        cases frameRestart (pad.frame ++ [byte]) <;> rfl

theorem mfFeed_bufferOk (kernel : Kernel) (now : Jiffies) {pad : MfPad}
    (bufferOk : BufferOk pad) (byte : UInt8) :
    BufferOk (mfFeed kernel now pad byte).1 := by
  have refines := congrArg Prod.fst (mfFeed_refines kernel now bufferOk byte)
  simp only at refines
  rw [BufferOk, refines]
  exact frameFormat.feed_unfinished bufferOk byte

theorem mfFeedAll_refines (kernel : Kernel) {pad : MfPad} (bufferOk : BufferOk pad)
    (bytes : List (Jiffies × UInt8)) :
    ((mfFeedAll kernel pad bytes).1.frame, (mfFeedAll kernel pad bytes).2) =
      frameFormat.feedAll pad.frame (chunkBytes bytes) := by
  induction bytes generalizing pad with
  | nil => rfl
  | cons timed rest induction =>
      rcases timed with ⟨now, byte⟩
      have head := mfFeed_refines kernel now bufferOk byte
      have tail := induction (mfFeed_bufferOk kernel now bufferOk byte)
      have frameEqual := congrArg Prod.fst head
      have emitEqual := congrArg Prod.snd head
      simp only at frameEqual emitEqual
      rw [frameEqual] at tail
      change _ = ((frameFormat.feedAll (frameFormat.feed pad.frame byte).1
          (chunkBytes rest)).1, _ ++ (frameFormat.feedAll
            (frameFormat.feed pad.frame byte).1 (chunkBytes rest)).2)
      rw [← tail, ← emitEqual]
      rfl

@[simp] theorem mfFeedAll_portOpen (kernel : Kernel) (pad : MfPad)
    (bytes : List (Jiffies × UInt8)) :
    (mfFeedAll kernel pad bytes).1.portOpen = pad.portOpen := by
  induction bytes generalizing pad with
  | nil => rfl
  | cons timed rest induction =>
      rcases timed with ⟨now, byte⟩
      exact (induction _).trans (mfFeed_portOpen kernel now pad byte)

theorem mfFeedAll_append (kernel : Kernel) (pad : MfPad)
    (first second : List (Jiffies × UInt8)) :
    mfFeedAll kernel pad (first ++ second) =
      ((mfFeedAll kernel (mfFeedAll kernel pad first).1 second).1,
        (mfFeedAll kernel pad first).2 ++
          (mfFeedAll kernel (mfFeedAll kernel pad first).1 second).2) := by
  induction first generalizing pad with
  | nil => rfl
  | cons timed rest induction =>
      rcases timed with ⟨now, byte⟩
      simp [mfFeedAll, induction]

/-- On an open port, cutting a stream into chunks changes nothing. -/
theorem mfReceiveAll_eq_flatten (kernel : Kernel) {pad : MfPad}
    (isOpen : pad.portOpen = true) (chunks : List (List (Jiffies × UInt8))) :
    mfReceiveAll kernel pad chunks = mfFeedAll kernel pad chunks.flatten := by
  induction chunks generalizing pad with
  | nil => rfl
  | cons chunk rest induction =>
      have received : mfReceive kernel pad chunk = mfFeedAll kernel pad chunk := by
        rw [mfReceive, if_neg (by simp [isOpen])]
      have stillOpen : (mfFeedAll kernel pad chunk).1.portOpen = true := by
        rw [mfFeedAll_portOpen, isOpen]
      rw [mfReceiveAll, received, List.flatten_cons, mfFeedAll_append,
        induction stillOpen]

end Zlyme.Gamepad
