/-! # Lines and fields of a text

The reading of a text line by line and word by word, and the cut of a line at a
separator.
-/

namespace Foundation.Text

variable {α : Type}

/-! ## Lines -/

/-- A line ends at a break, and the last one at the end of the text. -/
def lines (isBreak : α → Bool) : List α → List (List α)
  | [] => []
  | item :: rest =>
      if isBreak item then
        [] :: lines isBreak rest
      else
        match lines isBreak rest with
        | [] => [[item]]
        | line :: later => (item :: line) :: later

def unlines (newline : α) (texts : List (List α)) : List α :=
  texts.flatMap (· ++ [newline])

@[simp] theorem unlines_nil (newline : α) : unlines newline [] = [] := rfl

@[simp] theorem unlines_cons (newline : α) (line : List α) (rest : List (List α)) :
    unlines newline (line :: rest) = line ++ newline :: unlines newline rest := by
  simp [unlines]

theorem mem_unlines {newline item : α} {texts : List (List α)} :
    item ∈ unlines newline texts → item = newline ∨ ∃ line ∈ texts, item ∈ line := by
  simp only [unlines, List.mem_flatMap, List.mem_append, List.mem_singleton]
  rintro ⟨line, member, inLine | isNewline⟩
  · exact .inr ⟨line, member, inLine⟩
  · exact .inl isNewline

section Lines

variable {isBreak : α → Bool}

theorem lines_append {line rest : List α} {newline : α}
    (unbroken : ∀ item ∈ line, isBreak item = false) (ends : isBreak newline = true) :
    lines isBreak (line ++ newline :: rest) = line :: lines isBreak rest := by
  induction line with
  | nil => simp [lines, ends]
  | cons item line induction =>
      have head := unbroken item List.mem_cons_self
      have tail := induction fun other member => unbroken other (List.mem_cons_of_mem _ member)
      simp [lines, head, tail]

theorem lines_unlines {texts : List (List α)} {newline : α}
    (unbroken : ∀ line ∈ texts, ∀ item ∈ line, isBreak item = false)
    (ends : isBreak newline = true) : lines isBreak (unlines newline texts) = texts := by
  induction texts with
  | nil => rfl
  | cons line rest induction =>
      rw [unlines_cons, lines_append (unbroken line List.mem_cons_self) ends,
        induction fun other member => unbroken other (List.mem_cons_of_mem _ member)]

theorem lines_congr {other : α → Bool} {text : List α}
    (same : ∀ item ∈ text, isBreak item = other item) : lines isBreak text = lines other text := by
  induction text with
  | nil => rfl
  | cons item rest induction =>
      rw [lines, lines, same item List.mem_cons_self,
        induction fun item member => same item (List.mem_cons_of_mem _ member)]

theorem mem_of_mem_lines {text line : List α} {item : α} (inText : line ∈ lines isBreak text)
    (inLine : item ∈ line) : item ∈ text ∧ isBreak item = false := by
  induction text generalizing line with
  | nil => cases inText
  | cons first rest induction =>
      rw [lines] at inText
      split at inText
      · rcases List.mem_cons.mp inText with rfl | later
        · cases inLine
        · exact (induction later inLine).imp_left (List.mem_cons_of_mem _)
      · rename_i unbroken
        split at inText
        · rename_i isLast
          cases List.mem_singleton.mp inText
          cases List.mem_singleton.mp inLine
          exact ⟨List.mem_cons_self, Bool.eq_false_iff.mpr unbroken⟩
        · rename_i next later found
          have inRest : ∀ line ∈ next :: later, item ∈ line → item ∈ rest ∧ isBreak item = false :=
            fun line member inside => induction (found ▸ member) inside
          rcases List.mem_cons.mp inText with rfl | inLater
          · rcases List.mem_cons.mp inLine with rfl | inNext
            · exact ⟨List.mem_cons_self, Bool.eq_false_iff.mpr unbroken⟩
            · exact (inRest next List.mem_cons_self inNext).imp_left (List.mem_cons_of_mem _)
          · exact (inRest line (List.mem_cons_of_mem _ inLater) inLine).imp_left
              (List.mem_cons_of_mem _)

theorem lines_of_unbroken {line : List α} (nonempty : line ≠ [])
    (unbroken : ∀ item ∈ line, isBreak item = false) : lines isBreak line = [line] := by
  induction line with
  | nil => exact absurd rfl nonempty
  | cons item rest induction =>
      rw [lines, unbroken item List.mem_cons_self]
      cases rest with
      | nil => rfl
      | cons next rest =>
          rw [induction (List.cons_ne_nil next rest) fun other member =>
            unbroken other (List.mem_cons_of_mem _ member)]
          rfl

end Lines

/-! ## Lines into a buffer -/

/-- A text read line by line into a buffer that takes `limit` items, where
`room` are left: a line keeps its break, and a longer one comes in pieces. -/
def chunks (isBreak : α → Bool) (limit : Nat) : Nat → List α → List (List α)
  | _, [] => []
  | room, item :: rest =>
      if isBreak item || decide (room ≤ 1) then
        [item] :: chunks isBreak limit limit rest
      else
        match chunks isBreak limit (room - 1) rest with
        | [] => [[item]]
        | piece :: later => (item :: piece) :: later

section Chunks

variable {isBreak : α → Bool} {newline : α} {limit : Nat}

theorem chunks_append {line : List α} (unbroken : ∀ item ∈ line, isBreak item = false)
    (ends : isBreak newline = true) {room : Nat} (fits : line.length < room) (rest : List α) :
    chunks isBreak limit room (line ++ newline :: rest) =
      (line ++ [newline]) :: chunks isBreak limit limit rest := by
  induction line generalizing room with
  | nil => simp [chunks, ends]
  | cons item line induction =>
      rw [List.length_cons] at fits
      have head := unbroken item List.mem_cons_self
      have tail := induction (fun other member => unbroken other (List.mem_cons_of_mem _ member))
        (by omega : line.length < room - 1)
      have roomy : ¬room ≤ 1 := by omega
      simp [chunks, head, roomy, tail]

theorem chunks_unlines {texts : List (List α)}
    (unbroken : ∀ line ∈ texts, ∀ item ∈ line, isBreak item = false)
    (ends : isBreak newline = true) (fits : ∀ line ∈ texts, line.length < limit) :
    chunks isBreak limit limit (unlines newline texts) = texts.map (· ++ [newline]) := by
  induction texts with
  | nil => rfl
  | cons line rest induction =>
      rw [unlines_cons, chunks_append (unbroken line List.mem_cons_self) ends
        (fits line List.mem_cons_self), List.map_cons,
        induction (fun other member => unbroken other (List.mem_cons_of_mem _ member))
          fun other member => fits other (List.mem_cons_of_mem _ member)]

end Chunks

/-! ## Words -/

/-- The runs between separators, without the empty ones. -/
def words (isSeparator : α → Bool) (text : List α) : List (List α) :=
  (lines isSeparator text).filter fun word => !word.isEmpty

def joined (separator : α) (texts : List (List α)) : List α :=
  (texts.intersperse [separator]).flatten

@[simp] theorem joined_single (separator : α) (word : List α) :
    joined separator [word] = word := by
  simp [joined]

@[simp] theorem joined_cons (separator : α) (word next : List α) (rest : List (List α)) :
    joined separator (word :: next :: rest) = word ++ separator :: joined separator (next :: rest) := by
  simp [joined]

theorem mem_joined {separator item : α} {texts : List (List α)}
    (member : item ∈ joined separator texts) : item = separator ∨ ∃ word ∈ texts, item ∈ word := by
  induction texts with
  | nil => cases member
  | cons word rest induction =>
      cases rest with
      | nil =>
          rw [joined_single] at member
          exact .inr ⟨word, List.mem_cons_self, member⟩
      | cons next rest =>
          rw [joined_cons, List.mem_append, List.mem_cons] at member
          rcases member with inWord | isSeparator | later
          · exact .inr ⟨word, List.mem_cons_self, inWord⟩
          · exact .inl isSeparator
          · rcases induction later with isSeparator | ⟨other, isOther, inOther⟩
            · exact .inl isSeparator
            · exact .inr ⟨other, List.mem_cons_of_mem _ isOther, inOther⟩

theorem joined_length_le {separator : α} {texts : List (List α)} {limit : Nat}
    (short : ∀ word ∈ texts, word.length ≤ limit) :
    (joined separator texts).length ≤ texts.length * (limit + 1) := by
  induction texts with
  | nil => simp [joined]
  | cons word rest induction =>
      have head := short word List.mem_cons_self
      have tail := induction fun other member => short other (List.mem_cons_of_mem _ member)
      cases rest with
      | nil =>
          rw [joined_single, List.length_singleton]
          omega
      | cons next rest =>
          rw [joined_cons, List.length_append, List.length_cons, List.length_cons (a := word),
            Nat.succ_mul]
          omega

theorem words_joined {isSeparator : α → Bool} {separator : α} {texts : List (List α)}
    (nonempty : ∀ word ∈ texts, word ≠ [])
    (unbroken : ∀ word ∈ texts, ∀ item ∈ word, isSeparator item = false)
    (separates : isSeparator separator = true) :
    words isSeparator (joined separator texts) = texts := by
  induction texts with
  | nil => rfl
  | cons word rest induction =>
      have filled : word.isEmpty = false := by simpa using nonempty word List.mem_cons_self
      have whole := unbroken word List.mem_cons_self
      cases rest with
      | nil =>
          rw [joined_single, words, lines_of_unbroken (nonempty word List.mem_cons_self) whole]
          simp [filled]
      | cons next rest =>
          have tail := induction (fun word member => nonempty word (List.mem_cons_of_mem _ member))
            fun word member => unbroken word (List.mem_cons_of_mem _ member)
          rw [words] at tail ⊢
          rw [joined_cons, lines_append whole separates, List.filter_cons]
          simp [filled, tail]

/-- The words before a separator are read whatever stands after it. -/
theorem words_joined_append {isSeparator : α → Bool} {separator last : α} {texts : List (List α)}
    {rest : List α} (nonempty : ∀ word ∈ texts, word ≠ [])
    (unbroken : ∀ word ∈ texts, ∀ item ∈ word, isSeparator item = false)
    (separates : isSeparator separator = true) (ends : isSeparator last = true) :
    words isSeparator (joined separator texts ++ last :: rest) = texts ++ words isSeparator rest := by
  induction texts with
  | nil => simp [joined, words, lines, ends]
  | cons word later induction =>
      have filled : word.isEmpty = false := by simpa using nonempty word List.mem_cons_self
      have whole := unbroken word List.mem_cons_self
      have tail := induction (fun word member => nonempty word (List.mem_cons_of_mem _ member))
        fun word member => unbroken word (List.mem_cons_of_mem _ member)
      cases later with
      | nil =>
          rw [joined_single, words, lines_append whole ends, List.filter_cons]
          simp [filled, words]
      | cons next later =>
          rw [words] at tail ⊢
          rw [joined_cons, List.append_assoc, List.cons_append, lines_append whole separates,
            List.filter_cons]
          simp [filled, tail]

/-! ## The cut at a separator -/

/-- What stands before the first separator and after it. -/
def cut [DecidableEq α] (separator : α) : List α → Option (List α × List α)
  | [] => none
  | item :: rest =>
      if item = separator then some ([], rest)
      else (cut separator rest).map fun parts => (item :: parts.1, parts.2)

theorem cut_append [DecidableEq α] {separator : α} {before : List α} (absent : separator ∉ before)
    (after : List α) : cut separator (before ++ separator :: after) = some (before, after) := by
  induction before with
  | nil => simp [cut]
  | cons item rest induction =>
      rw [List.mem_cons, not_or] at absent
      rw [List.cons_append, cut, if_neg (Ne.symm absent.1), induction absent.2]
      rfl

theorem cut_eq_none [DecidableEq α] {separator : α} {text : List α} (absent : separator ∉ text) :
    cut separator text = none := by
  induction text with
  | nil => rfl
  | cons item rest induction =>
      rw [List.mem_cons, not_or] at absent
      rw [cut, if_neg (Ne.symm absent.1), induction absent.2]
      rfl

theorem cut_eq_some [DecidableEq α] {separator : α} {text before after : List α} :
    cut separator text = some (before, after) ↔
      text = before ++ separator :: after ∧ separator ∉ before := by
  induction text generalizing before with
  | nil => simp [cut]
  | cons item rest induction =>
      rw [cut]
      split
      · rename_i isSeparator
        cases before with
        | nil => simp [isSeparator]
        | cons head before => simp_all [eq_comm]
      · rename_i differs
        cases before with
        | nil => simp_all
        | cons head before =>
            simp only [Option.map_eq_some_iff, Prod.exists, Prod.mk.injEq,
              List.cons_append, List.cons.injEq, List.mem_cons, not_or]
            constructor
            · rintro ⟨_, _, isCut, ⟨rfl, rfl⟩, rfl⟩
              rcases induction.mp isCut with ⟨isRest, absent⟩
              exact ⟨⟨rfl, isRest⟩, Ne.symm differs, absent⟩
            · rintro ⟨⟨rfl, isRest⟩, _, absent⟩
              exact ⟨_, _, induction.mpr ⟨isRest, absent⟩, ⟨rfl, rfl⟩, rfl⟩

/-! ## The cut at the last separator -/

section CutLast

variable [DecidableEq α] {separator : α} {text before after : List α}

theorem cut_eq_none_iff : cut separator text = none ↔ separator ∉ text := by
  constructor
  · intro uncut member
    induction text with
    | nil => cases member
    | cons item rest induction =>
        rw [cut] at uncut
        split at uncut
        · cases uncut
        · rename_i differs
          rw [Option.map_eq_none_iff] at uncut
          exact induction uncut ((List.mem_cons.mp member).resolve_left (Ne.symm differs))
  · exact cut_eq_none

/-- What stands before the last separator and after it. -/
def cutLast (separator : α) (text : List α) : Option (List α × List α) :=
  (cut separator text.reverse).map fun parts => (parts.2.reverse, parts.1.reverse)

theorem cutLast_eq_some :
    cutLast separator text = some (before, after) ↔
      text = before ++ separator :: after ∧ separator ∉ after := by
  simp only [cutLast, Option.map_eq_some_iff, Prod.exists, Prod.mk.injEq]
  constructor
  · rintro ⟨_, _, isCut, rfl, rfl⟩
    rcases cut_eq_some.mp isCut with ⟨isText, absent⟩
    refine ⟨?_, fun member => absent (List.mem_reverse.mp member)⟩
    rw [← List.reverse_reverse text, isText]
    simp
  · rintro ⟨rfl, absent⟩
    refine ⟨after.reverse, before.reverse, cut_eq_some.mpr ⟨by simp, ?_⟩, ?_, ?_⟩
    · exact fun member => absent (List.mem_reverse.mp member)
    · exact List.reverse_reverse before
    · exact List.reverse_reverse after

theorem cutLast_eq_none : cutLast separator text = none ↔ separator ∉ text := by
  rw [cutLast, Option.map_eq_none_iff, cut_eq_none_iff, List.mem_reverse]

theorem cutLast_length (isCut : cutLast separator text = some (before, after)) :
    before.length < text.length := by
  rw [(cutLast_eq_some.mp isCut).1, List.length_append, List.length_cons]
  omega

/-- What stands before each separator, the longest first. -/
def heads (separator : α) : List α → List (List α)
  | [] => []
  | item :: rest =>
      (heads separator rest).map (item :: ·) ++ if item = separator then [[]] else []

theorem heads_eq_nil (absent : separator ∉ text) : heads separator text = [] := by
  induction text with
  | nil => rfl
  | cons item rest induction =>
      rw [List.mem_cons, not_or] at absent
      rw [heads, induction absent.2, if_neg (Ne.symm absent.1)]
      rfl

theorem heads_of_cutLast (isCut : cutLast separator text = some (before, after)) :
    heads separator text = before :: heads separator before := by
  rcases cutLast_eq_some.mp isCut with ⟨rfl, absent⟩
  clear isCut
  induction before with
  | nil => simp [heads, heads_eq_nil absent]
  | cons item rest induction => simp [heads, induction]

theorem heads_ne_nil (member : separator ∈ text) : heads separator text ≠ [] := by
  cases isCut : cutLast separator text with
  | none => exact absurd member (cutLast_eq_none.mp isCut)
  | some parts =>
      rw [heads_of_cutLast isCut]
      exact List.cons_ne_nil _ _

theorem prefix_of_mem_heads {head : List α} (member : head ∈ heads separator text) :
    head <+: text := by
  induction text generalizing head with
  | nil => cases member
  | cons item rest induction =>
      rw [heads, List.mem_append, List.mem_map] at member
      rcases member with ⟨shorter, isHead, rfl⟩ | isEmpty
      · exact List.cons_prefix_cons.mpr ⟨rfl, induction isHead⟩
      · split at isEmpty
        · rw [List.mem_singleton.mp isEmpty]
          exact List.nil_prefix
        · cases isEmpty

end CutLast

/-! ## Texts of bytes -/

/-- Texts are compared byte by byte. -/
instance lawfulBEq_bytes : LawfulBEq (List UInt8) := inferInstance

end Foundation.Text
