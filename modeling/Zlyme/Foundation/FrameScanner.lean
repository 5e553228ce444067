import Mathlib.Tactic.SplitIfs

/-! # Delimited fixed-length frames

A frame is a window of `length` symbols that begins with `start` and ends with
`stop`. There is no escaping, so a payload may contain either delimiter. This
file relates a receiver that keeps only an unfinished window to a scanner that
sees the whole stream. Nothing here depends on a particular device.
-/

namespace Foundation

structure FrameFormat (α : Type u) where
  start : α
  stop : α
  length : Nat
  two_le_length : 2 ≤ length
  start_ne_stop : start ≠ stop

namespace FrameFormat

variable {α : Type u} [DecidableEq α] (format : FrameFormat α)

/-! ## The two receivers -/

/-- `window` is one complete frame. -/
def Complete (window : List α) : Prop :=
  window.length = format.length ∧ window.head? = some format.start ∧
    window.getLast? = some format.stop

instance (window : List α) : Decidable (format.Complete window) :=
  inferInstanceAs (Decidable (_ ∧ _ ∧ _))

/-- The reference scanner. Each start symbol opens a window. A complete window
is emitted and skipped; any other start symbol is passed over alone. -/
def scan : List α → List (List α)
  | [] => []
  | symbol :: rest =>
      if format.Complete ((symbol :: rest).take format.length) then
        (symbol :: rest).take format.length :: scan ((symbol :: rest).drop format.length)
      else
        scan rest
termination_by stream => stream.length
decreasing_by
  · have := format.two_le_length
    simp only [List.length_drop, List.length_cons]
    omega
  · simp

/-- The part of a rejected window that can still open a frame: everything from
the next start symbol after the first. -/
def resume (window : List α) : List α :=
  window.tail.dropWhile fun symbol => decide (symbol ≠ format.start)

/-- The incremental receiver. It keeps the unfinished window and returns the
window that `symbol` completed, if any. -/
def feed (buffer : List α) (symbol : α) : List α × Option (List α) :=
  if buffer = [] then
    (if symbol = format.start then [symbol] else [], none)
  else if buffer.length + 1 < format.length then
    (buffer ++ [symbol], none)
  else if symbol = format.stop then
    ([], some (buffer ++ [symbol]))
  else
    (format.resume (buffer ++ [symbol]), none)

/-- Feed a whole stream and collect the completed windows in order. -/
def feedAll (buffer : List α) : List α → List α × List (List α)
  | [] => (buffer, [])
  | symbol :: rest =>
      let fed := format.feed buffer symbol
      let later := feedAll fed.1 rest
      (later.1, fed.2.toList ++ later.2)

/-- An unfinished window: shorter than a frame and opened by a start symbol. -/
structure Unfinished (buffer : List α) : Prop where
  short : buffer.length < format.length
  opened : buffer ≠ [] → buffer.head? = some format.start

/-! ## Facts about the reference scanner -/

@[simp] theorem scan_nil : format.scan [] = [] := by
  rw [scan]

theorem scan_of_complete {stream : List α}
    (complete : format.Complete (stream.take format.length)) :
    format.scan stream =
      stream.take format.length :: format.scan (stream.drop format.length) := by
  cases stream with
  | nil =>
      have impossible := complete.1
      have := format.two_le_length
      simp at impossible
      omega
  | cons symbol rest => rw [scan, if_pos complete]

theorem scan_cons_of_not_complete {symbol : α} {rest : List α}
    (incomplete : ¬format.Complete ((symbol :: rest).take format.length)) :
    format.scan (symbol :: rest) = format.scan rest := by
  rw [scan, if_neg incomplete]

/-- A symbol that is not a start symbol opens no window. -/
theorem scan_cons_of_ne {symbol : α} {rest : List α} (other : symbol ≠ format.start) :
    format.scan (symbol :: rest) = format.scan rest := by
  apply format.scan_cons_of_not_complete
  intro complete
  have opened := complete.2.1
  have positive := format.two_le_length
  rw [List.head?_take] at opened
  simp only [show format.length ≠ 0 by omega, if_false, List.head?_cons,
    Option.some.injEq] at opened
  exact other opened

theorem scan_append_of_forall_ne {noise stream : List α}
    (noStart : ∀ symbol ∈ noise, symbol ≠ format.start) :
    format.scan (noise ++ stream) = format.scan stream := by
  induction noise with
  | nil => rfl
  | cons symbol rest induction =>
      rw [List.cons_append, format.scan_cons_of_ne (noStart symbol (by simp))]
      exact induction fun other member => noStart other (by simp [member])

/-- A stream shorter than one frame contains none. -/
theorem scan_of_short : ∀ {stream : List α}, stream.length < format.length →
    format.scan stream = []
  | [], _ => format.scan_nil
  | symbol :: rest, short => by
      have tailShort : rest.length < format.length := by
        simp only [List.length_cons] at short
        omega
      rw [format.scan_cons_of_not_complete, scan_of_short tailShort]
      intro complete
      have full := complete.1
      rw [List.take_of_length_le (Nat.le_of_lt short)] at full
      omega

/-- Dropping symbols that cannot open a frame does not change the scan. -/
theorem scan_dropWhile_append (noise stream : List α) :
    format.scan (noise.dropWhile (fun symbol => decide (symbol ≠ format.start)) ++ stream) =
      format.scan (noise ++ stream) := by
  induction noise with
  | nil => rfl
  | cons symbol rest induction =>
      by_cases opens : symbol = format.start
      · simp [opens]
      · rw [List.cons_append, format.scan_cons_of_ne opens, ← induction]
        simp [opens]

theorem scan_resume_append {window stream : List α} {head : α} {tail : List α}
    (split : window = head :: tail)
    (incomplete : ¬format.Complete ((window ++ stream).take format.length)) :
    format.scan (format.resume window ++ stream) = format.scan (window ++ stream) := by
  subst split
  rw [resume, List.tail_cons, format.scan_dropWhile_append]
  exact (format.scan_cons_of_not_complete incomplete).symm

/-! ## The receiver refines the scanner -/

omit [DecidableEq α] in
theorem Unfinished.nil : format.Unfinished ([] : List α) where
  short := by
    have := format.two_le_length
    simp only [List.length_nil]
    omega
  opened := fun nonempty => absurd rfl nonempty

theorem resume_unfinished {window : List α} (bounded : window.length ≤ format.length) :
    format.Unfinished (format.resume window) where
  short := by
    have suffix : (format.resume window).length ≤ window.tail.length :=
      (List.dropWhile_suffix _).length_le
    have := format.two_le_length
    rw [List.length_tail] at suffix
    omega
  opened := by
    intro nonempty
    rw [resume] at nonempty ⊢
    have stopped := List.head_dropWhile_not
      (fun symbol => decide (symbol ≠ format.start)) nonempty
    rw [List.head?_eq_some_head nonempty]
    simpa using stopped

/-- One symbol keeps the buffer unfinished. -/
theorem feed_unfinished {buffer : List α} (unfinished : format.Unfinished buffer)
    (symbol : α) : format.Unfinished (format.feed buffer symbol).1 := by
  have long := format.two_le_length
  unfold feed
  split_ifs with empty opens fits stops
  · exact ⟨by simp only [List.length_singleton]; omega, fun _ => by simp [opens]⟩
  · exact Unfinished.nil format
  · refine ⟨by simpa using fits, fun _ => ?_⟩
    rw [List.head?_append, unfinished.opened empty]
    rfl
  · exact Unfinished.nil format
  · apply format.resume_unfinished
    have := unfinished.short
    simp only [List.length_append, List.length_singleton]
    omega

/-- One symbol moves exactly the emitted window from the stream still to be
scanned to the output. -/
theorem scan_eq_feed {buffer : List α} (unfinished : format.Unfinished buffer)
    (symbol : α) (rest : List α) :
    format.scan (buffer ++ symbol :: rest) =
      (format.feed buffer symbol).2.toList ++
        format.scan ((format.feed buffer symbol).1 ++ rest) := by
  have long := format.two_le_length
  unfold feed
  split_ifs with empty opens fits stops
  · simp [empty]
  · subst empty
    rw [List.nil_append, format.scan_cons_of_ne opens]
    simp
  · simp
  · -- The window is full and closed, so the scanner emits it too.
    have full : (buffer ++ [symbol]).length = format.length := by
      have := unfinished.short
      simp only [List.length_append, List.length_singleton]
      omega
    have window : (buffer ++ symbol :: rest).take format.length = buffer ++ [symbol] := by
      rw [List.append_cons, ← full, List.take_left]
    have remaining : (buffer ++ symbol :: rest).drop format.length = rest := by
      rw [List.append_cons, ← full, List.drop_left]
    have complete : format.Complete ((buffer ++ symbol :: rest).take format.length) := by
      rw [window]
      refine ⟨full, ?_, by simp [stops]⟩
      rw [List.head?_append, unfinished.opened empty]
      rfl
    rw [format.scan_of_complete complete, window, remaining]
    simp
  · obtain ⟨head, tail, split⟩ := List.exists_cons_of_ne_nil empty
    have full : (buffer ++ [symbol]).length = format.length := by
      have := unfinished.short
      simp only [List.length_append, List.length_singleton]
      omega
    have opened : buffer ++ [symbol] = head :: (tail ++ [symbol]) := by
      rw [split, List.cons_append]
    have rejected :
        ¬format.Complete ((buffer ++ [symbol] ++ rest).take format.length) := by
      rw [← full, List.take_left]
      intro complete
      exact stops (by simpa using complete.2.2)
    simpa using (format.scan_resume_append opened rejected).symm

/-- For every stream the receiver emits exactly the frames that the scanner
finds in the kept window followed by the stream. -/
theorem feedAll_eq_scan {buffer : List α} (unfinished : format.Unfinished buffer)
    (stream : List α) :
    (format.feedAll buffer stream).2 = format.scan (buffer ++ stream) := by
  induction stream generalizing buffer with
  | nil => simpa [feedAll] using (format.scan_of_short unfinished.short).symm
  | cons symbol rest induction =>
      rw [format.scan_eq_feed unfinished, feedAll,
        induction (format.feed_unfinished unfinished symbol)]

theorem feedAll_unfinished {buffer : List α} (unfinished : format.Unfinished buffer)
    (stream : List α) : format.Unfinished (format.feedAll buffer stream).1 := by
  induction stream generalizing buffer with
  | nil => exact unfinished
  | cons symbol rest induction =>
      exact induction (format.feed_unfinished unfinished symbol)

/-! ## Self-synchronisation -/

/-- A well-formed frame around `payload`. -/
def enclose (payload : List α) : List α :=
  format.start :: (payload ++ [format.stop])

omit [DecidableEq α] in
theorem enclose_length {payload : List α} (sized : payload.length + 2 = format.length) :
    (format.enclose payload).length = format.length := by
  simp only [enclose, List.length_cons, List.length_append, List.length_nil]
  omega

omit [DecidableEq α] in
theorem enclose_complete {payload : List α} (sized : payload.length + 2 = format.length) :
    format.Complete (format.enclose payload) :=
  ⟨format.enclose_length sized, rfl, by simp [enclose, List.getLast?_cons]⟩

theorem scan_enclose_append {payload : List α}
    (sized : payload.length + 2 = format.length) (stream : List α) :
    format.scan (format.enclose payload ++ stream) =
      format.enclose payload :: format.scan stream := by
  have full := format.enclose_length sized
  have window : (format.enclose payload ++ stream).take format.length =
      format.enclose payload := by
    rw [← full, List.take_left]
  have remaining : (format.enclose payload ++ stream).drop format.length = stream := by
    rw [← full, List.drop_left]
  rw [format.scan_of_complete (by rw [window]; exact format.enclose_complete sized),
    window, remaining]

/-- An aligned sequence of frames is decoded exactly, whatever the payloads. -/
theorem scan_flatMap_enclose : ∀ {payloads : List (List α)},
    (∀ payload ∈ payloads, payload.length + 2 = format.length) →
    format.scan (payloads.flatMap format.enclose) = payloads.map format.enclose
  | [], _ => by simp
  | payload :: rest, sized => by
      rw [List.flatMap_cons, format.scan_enclose_append (sized payload (by simp)),
        scan_flatMap_enclose fun other member => sized other (by simp [member]),
        List.map_cons]

/-- A stale prefix shorter than a frame costs at most the first frame after it,
provided that frame's payload contains no start symbol. Either nothing is lost
or one window that was not sent replaces that frame. -/
theorem scan_stale_append_enclose {payload : List α}
    (sized : payload.length + 2 = format.length)
    (noStart : ∀ symbol ∈ payload, symbol ≠ format.start) (stream : List α) :
    ∀ {stale : List α}, stale.length < format.length →
      format.scan (stale ++ format.enclose payload ++ stream) =
          format.enclose payload :: format.scan stream ∨
        ∃ bogus, format.scan (stale ++ format.enclose payload ++ stream) =
          bogus :: format.scan stream
  | [], _ => .inl (format.scan_enclose_append sized stream)
  | symbol :: stale, short => by
      have tailShort : stale.length < format.length := by
        simp only [List.length_cons] at short
        omega
      by_cases complete : format.Complete
          ((symbol :: stale ++ format.enclose payload ++ stream).take format.length)
      · -- The window ends inside the frame, past its start symbol.
        right
        rw [format.scan_of_complete complete]
        refine ⟨_, congrArg _ ?_⟩
        rw [List.append_assoc, List.drop_append, List.drop_of_length_le (Nat.le_of_lt short),
          List.nil_append]
        obtain ⟨skipped, skip⟩ : ∃ skipped,
            format.length - (symbol :: stale).length = skipped + 1 :=
          ⟨format.length - (symbol :: stale).length - 1, by omega⟩
        have inside : skipped ≤ (payload ++ [format.stop]).length := by
          simp only [List.length_append, List.length_cons, List.length_nil] at skip ⊢
          omega
        rw [skip, enclose, List.cons_append, List.drop_succ_cons,
          List.drop_append_of_le_length inside]
        apply format.scan_append_of_forall_ne
        intro other member
        rcases List.mem_append.mp (List.mem_of_mem_drop member) with inPayload | atEnd
        · exact noStart other inPayload
        · rw [List.mem_singleton.mp atEnd]
          exact format.start_ne_stop.symm
      · rw [List.cons_append, List.cons_append] at complete ⊢
        rw [format.scan_cons_of_not_complete complete]
        exact scan_stale_append_enclose sized noStart stream tailShort

/-- Self-synchronisation: after any unfinished window a sequence of frames
without start symbols in their payloads is decoded exactly, except that one
window that was not sent may take the place of the first frame. -/
theorem feedAll_resynchronises {buffer : List α} (unfinished : format.Unfinished buffer)
    {payloads : List (List α)}
    (sized : ∀ payload ∈ payloads, payload.length + 2 = format.length)
    (noStart : ∀ payload ∈ payloads, ∀ symbol ∈ payload, symbol ≠ format.start) :
    (format.feedAll buffer (payloads.flatMap format.enclose)).2 =
        payloads.map format.enclose ∨
      ∃ bogus lost kept, payloads = lost :: kept ∧
        (format.feedAll buffer (payloads.flatMap format.enclose)).2 =
          bogus :: kept.map format.enclose := by
  rw [format.feedAll_eq_scan unfinished]
  cases payloads with
  | nil => exact .inl (by simpa using format.scan_of_short unfinished.short)
  | cons first rest =>
      have aligned : format.scan (rest.flatMap format.enclose) =
          rest.map format.enclose :=
        format.scan_flatMap_enclose fun payload member => sized payload (by simp [member])
      have first := format.scan_stale_append_enclose (sized first (by simp))
        (noStart first (by simp)) (rest.flatMap format.enclose) unfinished.short
      rw [List.append_assoc, ← List.flatMap_cons, aligned] at first
      rcases first with exact | ⟨bogus, replaced⟩
      · exact .inl exact
      · exact .inr ⟨bogus, _, rest, rfl, replaced⟩

end FrameFormat

end Foundation
