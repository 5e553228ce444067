import Zlyme.Gamepad.Invariant

/-! # What the parser makes of a byte stream

The results about the generic receiver, read for `mf_feed` and `mf_receive` in
the states that the driver reaches.
-/

namespace Zlyme.Gamepad

/-! ## The reference scanner -/

theorem mfFeedAll_emits (kernel : Kernel) {pad : MfPad} (bufferOk : BufferOk pad)
    (bytes : List (Jiffies × UInt8)) :
    (mfFeedAll kernel pad bytes).2 = referenceScan (pad.frame ++ chunkBytes bytes) :=
  (congrArg Prod.snd (mfFeedAll_refines kernel bufferOk bytes)).trans
    (frameFormat.feedAll_eq_scan bufferOk (chunkBytes bytes))

theorem mfFeedAll_bufferOk (kernel : Kernel) {pad : MfPad} (bufferOk : BufferOk pad)
    (bytes : List (Jiffies × UInt8)) : BufferOk (mfFeedAll kernel pad bytes).1 := by
  have kept : (mfFeedAll kernel pad bytes).1.frame =
      (frameFormat.feedAll pad.frame (chunkBytes bytes)).1 :=
    congrArg Prod.fst (mfFeedAll_refines kernel bufferOk bytes)
  rw [BufferOk, kept]
  exact frameFormat.feedAll_unfinished bufferOk (chunkBytes bytes)

theorem chunkBytes_flatten (chunks : List (List (Jiffies × UInt8))) :
    chunkBytes chunks.flatten = chunks.flatMap chunkBytes := by
  rw [chunkBytes, List.map_flatten, List.flatMap_def]
  rfl

/-- Opening the port and receiving any chunks emits the frames of the reference
scanner over the whole stream. After any bytes the buffer is shorter than a
frame and, if not empty, begins with `0xFF`. -/
theorem mfReceive_emits_referenceScan (kernel : Kernel) (pad : MfPad) :
    (∀ chunks : List (List (Jiffies × UInt8)),
      (mfReceiveAll kernel (mfPortOpen pad 0) chunks).2 =
        referenceScan (chunks.flatMap chunkBytes)) ∧
    ∀ received : List (Jiffies × UInt8),
      (mfFeedAll kernel (mfPortOpen pad 0) received).1.frame.length < 6 ∧
      ((mfFeedAll kernel (mfPortOpen pad 0) received).1.frame ≠ [] →
        (mfFeedAll kernel (mfPortOpen pad 0) received).1.frame.head? = some 0xff) := by
  have bufferOk : BufferOk (mfPortOpen pad 0) := emptyBuffer_ok
  have isOpen : (mfPortOpen pad 0).portOpen = true := rfl
  constructor
  · intro chunks
    rw [mfReceiveAll_eq_flatten kernel isOpen, mfFeedAll_emits kernel bufferOk,
      chunkBytes_flatten]
    rfl
  · intro received
    exact (bufferOk_iff _).mp (mfFeedAll_bufferOk kernel bufferOk received)

/-! ## Self-synchronisation -/

/-- The frame around four payload bytes. -/
def sentFrame (payload : List UInt8) : List UInt8 :=
  0xff :: (payload ++ [0xfe])

theorem sentFrame_eq_enclose : sentFrame = frameFormat.enclose := rfl

/-- In every state that a run reaches, a sequence of sent frames without `0xFF`
in their payloads is decoded exactly, except that one other frame may be
reported in place of the first. With an empty buffer, every sequence is decoded
exactly, whatever the payloads. -/
theorem mfFeed_synchronises (kernel : Kernel) (events : List MfEvent)
    (payloads : List (List UInt8)) (sized : ∀ payload ∈ payloads, payload.length = 4)
    (sent : List (Jiffies × UInt8)) (isSent : chunkBytes sent = payloads.flatMap sentFrame) :
    let pad := mfRun kernel mfProbePad events
    ((∀ payload ∈ payloads, 0xff ∉ payload) →
      (mfFeedAll kernel pad sent).2 = payloads.map sentFrame ∨
      ∃ bogus lost kept, payloads = lost :: kept ∧
        (mfFeedAll kernel pad sent).2 = bogus :: kept.map sentFrame) ∧
    (pad.frame = [] → (mfFeedAll kernel pad sent).2 = payloads.map sentFrame) := by
  have bufferOk := (mfRun_ok kernel mfProbePad_ok events).buffer
  have framed : ∀ payload ∈ payloads, payload.length + 2 = frameFormat.length := by
    intro payload member
    rw [sized payload member]
    rfl
  constructor
  · intro noStart
    have emitted := congrArg Prod.snd (mfFeedAll_refines kernel bufferOk sent)
    dsimp only at emitted
    rw [emitted, isSent, sentFrame_eq_enclose]
    refine frameFormat.feedAll_resynchronises bufferOk framed ?_
    rintro payload member symbol inside rfl
    exact noStart payload member inside
  · intro empty
    rw [mfFeedAll_emits kernel bufferOk, empty, isSent]
    exact frameFormat.scan_flatMap_enclose framed

/-- A stale `FF 01 02 03` is completed by the first frame, whose own payload
ends with `FE`; the second frame is decoded. -/
theorem mfFeed_synchronises_after_stale_prefix :
    let pad := mfRun hz1000Kernel mfProbePad
      [.portOpen 0, .receive [(0, 0xff), (0, 1), (0, 2), (0, 3)]]
    let sent := [0xff, 0xfe, 8, 7, 6, 0xfe, 0xff, 5, 4, 3, 2, 0xfe].map fun byte => (20, byte)
    (mfFeedAll hz1000Kernel pad sent).2 = [[0xfe, 8, 7, 6], [5, 4, 3, 2]].map sentFrame ∨
      ∃ bogus lost kept, [[0xfe, 8, 7, 6], [5, 4, 3, 2]] = lost :: kept ∧
        (mfFeedAll hz1000Kernel pad sent).2 = bogus :: kept.map sentFrame :=
  (mfFeed_synchronises hz1000Kernel _ [[0xfe, 8, 7, 6], [5, 4, 3, 2]] (by decide)
    _ (by decide)).1 (by decide)

end Zlyme.Gamepad
