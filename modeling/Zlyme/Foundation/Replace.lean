import Mathlib.Data.List.Infix
import Mathlib.Logic.Relation

/-! # Replaced pieces of a text

Search and replacement of one text inside another, the texts that no occurrence of a piece can
touch, and the way back from an edited text.
-/

namespace Foundation.Replace

variable {α : Type}

/-! ## Pieces apart -/

/-- No end of `left` and beginning of `right` agree, whatever stands around them. -/
def Apart (left right : List α) : Prop :=
  ∀ rest ∈ left.tails, rest ≠ [] → ¬ rest <+: right ∧ ¬ right <+: rest

/-- An occurrence of `piece` in `wall` and what follows shares the last item of `wall` at most. -/
def ApartBut (edge : α) (wall piece : List α) : Prop :=
  ∀ rest ∈ wall.tails, rest ≠ [] → rest ≠ [edge] → ¬ piece <+: rest ∧ ¬ rest <+: piece

/-- No occurrence of `piece` shares an item with `wall`. -/
def Clear (piece wall : List α) : Prop :=
  Apart piece wall ∧ Apart wall piece

section Decide

variable [DecidableEq α]

/-- One of the texts begins with the other. -/
def agree : (left right : List α) → Bool
  | [], _ => true
  | _, [] => true
  | item :: left, other :: right => decide (item = other) && agree left right

/-- No end of `left` but the allowed one agrees with the beginning of `right`. -/
def apart (allowed : List α) : (left right : List α) → Bool
  | [], _ => true
  | item :: left, right =>
      (!agree (item :: left) right || decide (item :: left = allowed)) && apart allowed left right

theorem agree_eq_true {left right : List α} :
    agree left right = true ↔ left <+: right ∨ right <+: left := by
  induction left generalizing right with
  | nil => simp [agree]
  | cons item left induction =>
      cases right with
      | nil => simp [agree]
      | cons other right =>
          rw [agree, Bool.and_eq_true, decide_eq_true_eq, induction, List.cons_prefix_cons,
            List.cons_prefix_cons]
          constructor
          · rintro ⟨rfl, shorter | longer⟩
            · exact .inl ⟨rfl, shorter⟩
            · exact .inr ⟨rfl, longer⟩
          · rintro (⟨rfl, shorter⟩ | ⟨rfl, longer⟩)
            · exact ⟨rfl, .inl shorter⟩
            · exact ⟨rfl, .inr longer⟩

theorem apart_eq_true {allowed left right : List α} :
    apart allowed left right = true ↔
      ∀ rest ∈ left.tails, rest ≠ [] → rest ≠ allowed → ¬ right <+: rest ∧ ¬ rest <+: right := by
  induction left with
  | nil => simp [apart]
  | cons item left induction =>
      rw [apart, Bool.and_eq_true, induction, List.tails_cons, List.forall_mem_cons]
      refine and_congr_left fun _ => ?_
      rw [Bool.or_eq_true, Bool.not_eq_true', ← Bool.not_eq_true, agree_eq_true, not_or,
        decide_eq_true_eq]
      constructor
      · rintro (disagree | isAllowed) _ other
        · exact disagree.symm
        · exact absurd isAllowed other
      · intro disagree
        by_cases isAllowed : item :: left = allowed
        · exact .inr isAllowed
        · exact .inl (disagree (List.cons_ne_nil item left) isAllowed).symm

instance (edge : α) (wall piece : List α) : Decidable (ApartBut edge wall piece) :=
  decidable_of_iff (apart [edge] wall piece = true) apart_eq_true

theorem apart_iff {left right : List α} : apart [] left right = true ↔ Apart left right := by
  rw [apart_eq_true]
  refine forall_congr' fun rest => forall_congr' fun _ => ?_
  constructor
  · exact fun distinct nonempty => (distinct nonempty nonempty).symm
  · exact fun distinct nonempty _ => (distinct nonempty).symm

instance (left right : List α) : Decidable (Apart left right) :=
  decidable_of_iff (apart [] left right = true) apart_iff

instance (piece wall : List α) : Decidable (Clear piece wall) :=
  inferInstanceAs (Decidable (_ ∧ _))

end Decide

theorem Apart.tail {item : α} {left right : List α} (apart : Apart (item :: left) right) :
    Apart left right := by
  intro rest isTail
  exact apart rest ((List.mem_tails rest (item :: left)).mpr
    (((List.mem_tails rest left).mp isTail).trans (List.suffix_cons item left)))

theorem Apart.not_prefix {item : α} {left right : List α} (apart : Apart (item :: left) right)
    (after : List α) : ¬ right <+: item :: (left ++ after) := by
  intro begins
  have alone := apart (item :: left) ((List.mem_tails _ _).mpr List.suffix_rfl)
    (List.cons_ne_nil item left)
  have both : item :: left <+: item :: (left ++ after) := ⟨after, rfl⟩
  rcases List.prefix_or_prefix_of_prefix begins both with shorter | longer
  · exact alone.2 shorter
  · exact alone.1 longer

theorem prefix_of_apart {piece wall before after : List α} (apart : Apart piece wall)
    (begins : piece <+: before ++ (wall ++ after)) : piece <+: before := by
  rcases List.prefix_or_prefix_of_prefix begins (List.prefix_append before _) with inside | longer
  · exact inside
  · obtain ⟨rest, rfl⟩ := longer
    cases rest with
    | nil => simp
    | cons item rest =>
        have entered := (List.prefix_append_right_inj before).mp begins
        have alone := apart (item :: rest) ((List.mem_tails _ _).mpr (List.suffix_append before _))
          (List.cons_ne_nil item rest)
        rcases List.prefix_or_prefix_of_prefix entered (List.prefix_append wall after) with
          shorter | longer
        · exact absurd shorter alone.1
        · exact absurd longer alone.2

theorem infix_of_apart {piece wall after : List α} (apart : Apart wall piece)
    (occurs : piece <:+: wall ++ after) : piece <:+: after := by
  induction wall with
  | nil => exact occurs
  | cons item wall induction =>
      rcases List.infix_cons_iff.mp occurs with begins | later
      · exact absurd begins (apart.not_prefix after)
      · exact induction apart.tail later

/-- A piece that cannot touch the wall stands on one side of it. -/
theorem infix_of_clear {piece wall before after : List α} (clear : Clear piece wall)
    (occurs : piece <:+: before ++ (wall ++ after)) : piece <:+: before ∨ piece <:+: after := by
  induction before with
  | nil => exact .inr (infix_of_apart clear.2 occurs)
  | cons item before induction =>
      rcases List.infix_cons_iff.mp occurs with begins | later
      · exact .inl (@prefix_of_apart α piece wall (item :: before) after clear.1 begins).isInfix
      · exact (induction later).imp_left fun inside =>
          inside.trans (List.suffix_cons item before).isInfix

/-! ## The first occurrence -/

section Decidable

variable [DecidableEq α]

/-- `text.find(piece)` -/
def find (piece : List α) : (text : List α) → Option Nat
  | [] => if piece = [] then some 0 else none
  | item :: rest =>
      if piece <+: item :: rest then some 0 else (find piece rest).map (· + 1)

theorem find_split {piece text : List α} {index : Nat} (found : find piece text = some index) :
    text = text.take index ++ (piece ++ text.drop (index + piece.length)) := by
  induction text generalizing index with
  | nil =>
      by_cases empty : piece = []
      · simp [empty]
      · simp [find, empty] at found
  | cons item rest induction =>
      rw [find] at found
      split at found
      · rename_i begins
        obtain ⟨after, split⟩ := begins
        cases found
        simp [← split]
      · obtain ⟨earlier, inRest, rfl⟩ := Option.map_eq_some_iff.mp found
        have later := induction inRest
        have shifted : earlier + 1 + piece.length = earlier + piece.length + 1 := by omega
        rw [List.take_succ_cons, shifted, List.drop_succ_cons, List.cons_append, ← later]

theorem infix_of_find {piece text : List α} {index : Nat} (found : find piece text = some index) :
    piece <:+: text :=
  ⟨text.take index, text.drop (index + piece.length), by
    rw [List.append_assoc]; exact (find_split found).symm⟩

theorem find_eq_none {piece text : List α} : find piece text = none ↔ ¬ piece <:+: text := by
  constructor
  · intro absent
    induction text with
    | nil =>
        intro occurs
        simp [find, List.eq_nil_of_infix_nil occurs] at absent
    | cons item rest induction =>
        rw [find] at absent
        split at absent
        · cases absent
        · rename_i notFirst
          intro occurs
          rcases List.infix_cons_iff.mp occurs with begins | later
          · exact notFirst begins
          · exact induction (Option.map_eq_none_iff.mp absent) later
  · intro absent
    cases found : find piece text with
    | none => rfl
    | some index => exact absurd (infix_of_find found) absent

/-- `text.replace(old, new, 1)` -/
def replaceFirst (old new text : List α) : List α :=
  match find old text with
  | none => text
  | some index => text.take index ++ (new ++ text.drop (index + old.length))

theorem replaceFirst_split {old text : List α} (new : List α) (occurs : old <:+: text) :
    ∃ before after, text = before ++ (old ++ after) ∧
      replaceFirst old new text = before ++ (new ++ after) := by
  cases found : find old text with
  | none => exact absurd occurs (find_eq_none.mp found)
  | some index =>
      refine ⟨text.take index, text.drop (index + old.length), find_split found, ?_⟩
      simp [replaceFirst, found]

/-! ## Every occurrence -/

/-- The replacement, with the items of the last occurrence that are still to skip. -/
def replaceFrom (old new : List α) : (skip : Nat) → (text : List α) → List α
  | _, [] => []
  | skip + 1, _ :: rest => replaceFrom old new skip rest
  | 0, item :: rest =>
      if old <+: item :: rest then
        new ++ replaceFrom old new (old.length - 1) rest
      else
        item :: replaceFrom old new 0 rest

/-- `text.replace(old, new)` -/
def replaceAll (old new text : List α) : List α :=
  replaceFrom old new 0 text

variable {old new : List α}

@[simp] theorem replaceAll_nil : replaceAll old new [] = [] := rfl

theorem replaceFrom_append (before after : List α) :
    replaceFrom old new before.length (before ++ after) = replaceAll old new after := by
  induction before with
  | nil => rfl
  | cons item before induction => exact induction

theorem replaceAll_append (nonempty : old ≠ []) (rest : List α) :
    replaceAll old new (old ++ rest) = new ++ replaceAll old new rest := by
  cases old with
  | nil => exact absurd rfl nonempty
  | cons item tail =>
      rw [replaceAll, List.cons_append, replaceFrom, if_pos ⟨rest, rfl⟩, List.length_cons,
        Nat.add_sub_cancel, replaceFrom_append]

theorem replaceAll_cons {item : α} {rest : List α} (notFirst : ¬ old <+: item :: rest) :
    replaceAll old new (item :: rest) = item :: replaceAll old new rest := by
  rw [replaceAll, replaceFrom, if_neg notFirst, replaceAll]

/-- The replacement passes over an occurrence or over one item. -/
theorem replace_induction {motive : List α → Prop} (nonempty : old ≠ []) (nil : motive [])
    (found : ∀ rest, motive rest → motive (old ++ rest))
    (passed : ∀ item rest, ¬ old <+: item :: rest → motive rest → motive (item :: rest))
    (text : List α) : motive text := by
  induction measured : text.length using Nat.strong_induction_on generalizing text with
  | _ size induction =>
      cases text with
      | nil => exact nil
      | cons item rest =>
          by_cases begins : old <+: item :: rest
          · obtain ⟨after, split⟩ := begins
            have positive : 0 < old.length := List.length_pos_iff.mpr nonempty
            have total : old.length + after.length = size := by
              rw [← List.length_append, split, measured]
            rw [← split]
            exact found after (induction after.length (by omega) after rfl)
          · refine passed item rest begins (induction rest.length ?_ rest rfl)
            rw [← measured, List.length_cons]
            omega

theorem replaceAll_of_absent (nonempty : old ≠ []) {text : List α} (absent : ¬ old <:+: text) :
    replaceAll old new text = text := by
  induction text using replace_induction nonempty with
  | nil => rfl
  | found rest _ => exact absurd (List.prefix_append old rest).isInfix absent
  | passed item rest notFirst induction =>
      rw [replaceAll_cons notFirst, induction fun later =>
        absent (later.trans (List.suffix_cons item rest).isInfix)]

theorem length_le_replaceAll (nonempty : old ≠ []) (longer : old.length ≤ new.length)
    (text : List α) : text.length ≤ (replaceAll old new text).length := by
  induction text using replace_induction nonempty with
  | nil => simp
  | found rest induction =>
      rw [replaceAll_append nonempty, List.length_append, List.length_append]
      omega
  | passed item rest notFirst induction =>
      rw [replaceAll_cons notFirst, List.length_cons, List.length_cons]
      omega

theorem length_lt_replaceAll (nonempty : old ≠ []) (longer : old.length < new.length)
    {text : List α} (occurs : old <:+: text) : text.length < (replaceAll old new text).length := by
  induction text using replace_induction nonempty with
  | nil => exact absurd (List.eq_nil_of_infix_nil occurs) nonempty
  | found rest _ =>
      have least := length_le_replaceAll nonempty longer.le rest
      rw [replaceAll_append nonempty, List.length_append, List.length_append]
      omega
  | passed item rest notFirst induction =>
      rcases List.infix_cons_iff.mp occurs with begins | later
      · exact absurd begins notFirst
      · rw [replaceAll_cons notFirst, List.length_cons, List.length_cons]
        have strict := induction later
        omega

/-! ## What a replacement keeps of other pieces -/

section Kept

variable {piece head core tail before : List α}

/-- A replacement that only brings a clear core brings no occurrence of the piece. -/
theorem infix_of_replaceAll (nonempty : old ≠ []) (clear : Clear piece core) (heads : head <+: old)
    (tails : tail <:+ old) {text : List α}
    (occurs : piece <:+: before ++ replaceAll old (head ++ (core ++ tail)) text) :
    piece <:+: before ++ text := by
  induction text using replace_induction nonempty generalizing before with
  | nil => exact occurs
  | found rest induction =>
      rw [replaceAll_append nonempty, List.append_assoc, List.append_assoc,
        ← List.append_assoc before] at occurs
      rcases infix_of_clear clear occurs with inHead | inTail
      · have begins : before ++ head <+: before ++ (old ++ rest) :=
          (List.prefix_append_right_inj before).mpr (heads.trans (List.prefix_append old rest))
        exact inHead.trans begins.isInfix
      · obtain ⟨start, rfl⟩ := tails
        exact (induction inTail).trans ⟨before ++ start, [], by simp⟩
  | passed item rest notFirst induction =>
      rw [replaceAll_cons notFirst, List.append_cons] at occurs
      rw [List.append_cons]
      exact induction occurs

/-- A replacement that only takes a clear core takes no occurrence of the piece. -/
theorem infix_replaceAll (nonempty : head ++ (core ++ tail) ≠ []) (clear : Clear piece core)
    (heads : head <+: new) (tails : tail <:+ new) {text : List α}
    (occurs : piece <:+: before ++ text) :
    piece <:+: before ++ replaceAll (head ++ (core ++ tail)) new text := by
  induction text using replace_induction nonempty generalizing before with
  | nil => exact occurs
  | found rest induction =>
      rw [replaceAll_append nonempty]
      rw [List.append_assoc, List.append_assoc, ← List.append_assoc before] at occurs
      rcases infix_of_clear clear occurs with inHead | inTail
      · obtain ⟨later, rfl⟩ := heads
        rw [List.append_assoc, ← List.append_assoc before]
        exact inHead.trans (List.prefix_append (before ++ head) _).isInfix
      · obtain ⟨start, rfl⟩ := tails
        exact (induction inTail).trans ⟨before ++ start, [], by simp⟩
  | passed item rest notFirst induction =>
      rw [replaceAll_cons notFirst, List.append_cons]
      rw [List.append_cons] at occurs
      exact induction occurs

theorem prefix_of_replaceAll (nonempty : old ≠ []) (apart : Apart piece core)
    (heads : head <+: old) {text : List α}
    (begins : piece <+: before ++ replaceAll old (head ++ (core ++ tail)) text) :
    piece <+: before ++ text := by
  induction text using replace_induction nonempty generalizing before with
  | nil => exact begins
  | found rest induction =>
      rw [replaceAll_append nonempty, List.append_assoc, List.append_assoc,
        ← List.append_assoc before] at begins
      have early := prefix_of_apart apart begins
      exact early.trans
        ((List.prefix_append_right_inj before).mpr (heads.trans (List.prefix_append old rest)))
  | passed item rest notFirst induction =>
      rw [replaceAll_cons notFirst, List.append_cons] at begins
      rw [List.append_cons]
      exact induction begins

end Kept

theorem infix_of_replaceAll_clear {piece text : List α} (nonempty : old ≠ [])
    (clear : Clear piece new) (occurs : piece <:+: replaceAll old new text) : piece <:+: text := by
  have plain : piece <:+: [] ++ replaceAll old ([] ++ (new ++ [])) text := by simpa using occurs
  exact infix_of_replaceAll nonempty clear List.nil_prefix List.nil_suffix plain

theorem infix_replaceAll_clear {piece text : List α} (nonempty : old ≠ [])
    (clear : Clear piece old) (occurs : piece <:+: text) : piece <:+: replaceAll old new text := by
  have kept := @infix_replaceAll α _ new piece [] old [] [] (by simpa using nonempty) clear
    List.nil_prefix List.nil_suffix text occurs
  simpa using kept

/-- Where the old piece cannot touch the new one, no occurrence is left. -/
theorem absent_replaceAll (nonempty : old ≠ []) (clear : Clear old new) (text : List α) :
    ¬ old <:+: replaceAll old new text := by
  induction text using replace_induction nonempty with
  | nil => exact fun occurs => nonempty (List.eq_nil_of_infix_nil occurs)
  | found rest induction =>
      rw [replaceAll_append nonempty]
      exact fun occurs => induction (infix_of_apart clear.2 occurs)
  | passed item rest notFirst induction =>
      rw [replaceAll_cons notFirst]
      intro occurs
      rcases List.infix_cons_iff.mp occurs with begins | later
      · have plain : old <+: [item] ++ replaceAll old ([] ++ (new ++ [])) rest := by
          simpa using begins
        exact notFirst (prefix_of_replaceAll nonempty clear.1 List.nil_prefix plain)
      · exact induction later

theorem replaceAll_append_of_unbegun {before after : List α}
    (unbegun : ∀ rest ∈ before.tails, rest ≠ [] → ¬ old <+: rest ++ after) :
    replaceAll old new (before ++ after) = before ++ replaceAll old new after := by
  induction before with
  | nil => rfl
  | cons item before induction =>
      have first := unbegun (item :: before) ((List.mem_tails _ _).mpr List.suffix_rfl)
        (List.cons_ne_nil item before)
      rw [List.cons_append] at first ⊢
      rw [replaceAll_cons first, induction, List.cons_append]
      intro rest isTail
      exact unbegun rest ((List.mem_tails _ _).mpr
        (((List.mem_tails _ _).mp isTail).trans (List.suffix_cons item before)))

end Decidable

/-! ## A piece that its last item can begin again -/

theorem ApartBut.tail {edge item : α} {wall piece : List α}
    (apart : ApartBut edge (item :: wall) piece) : ApartBut edge wall piece := by
  intro rest isTail
  exact apart rest ((List.mem_tails _ _).mpr
    (((List.mem_tails _ _).mp isTail).trans (List.suffix_cons item wall)))

theorem ApartBut.not_prefix {edge : α} {wall piece rest : List α}
    (apart : ApartBut edge wall piece) (isTail : rest <:+ wall) (nonempty : rest ≠ [])
    (notEdge : rest ≠ [edge]) (after : List α) : ¬ piece <+: rest ++ after := by
  intro begins
  have alone := apart rest ((List.mem_tails _ _).mpr isTail) nonempty notEdge
  rcases List.prefix_or_prefix_of_prefix begins (List.prefix_append rest after) with
    shorter | longer
  · exact alone.1 shorter
  · exact alone.2 longer

theorem infix_of_apartBut {edge : α} {wall piece after : List α} (apart : ApartBut edge wall piece)
    (occurs : piece <:+: wall ++ after) : piece <+: edge :: after ∨ piece <:+: after := by
  induction wall with
  | nil => exact .inr occurs
  | cons item wall induction =>
      rcases List.infix_cons_iff.mp occurs with begins | later
      · by_cases isEdge : item :: wall = [edge]
        · cases isEdge
          exact .inl begins
        · exact absurd begins
            (apart.not_prefix List.suffix_rfl (List.cons_ne_nil item wall) isEdge after)
      · exact induction apart.tail later

/-- A piece whose first item is its last one too. -/
def hinged (edge : α) (inner : List α) : List α :=
  edge :: (inner ++ [edge])

/-- The piece twice, on one hinge. -/
def doubled (edge : α) (inner : List α) : List α :=
  hinged edge inner ++ (inner ++ [edge])

/-- The piece and its replacement meet others at the hinge alone, and differ in a core that the
piece cannot touch. -/
structure Rejoins (edge : α) (inner head core tail : List α) : Prop where
  old_apart : ApartBut edge (inner ++ [edge]) (hinged edge inner)
  doubled_apart : ApartBut edge (inner ++ [edge]) (doubled edge inner)
  new_apart : ApartBut edge (head ++ (core ++ tail)) (hinged edge inner)
  core_apart : Apart (hinged edge inner) core
  heads : head <+: hinged edge inner
  begins : [edge] <+: head ++ (core ++ tail)
  ends : [edge] <:+ head ++ (core ++ tail)

section Rejoins

variable {edge : α} {inner head core tail : List α}

theorem Rejoins.doubled_infix (rejoins : Rejoins edge inner head core tail) {rest : List α} :
    doubled edge inner <:+: hinged edge inner ++ rest ↔
      inner ++ [edge] <+: rest ∨ doubled edge inner <:+: rest := by
  constructor
  · intro occurs
    rcases List.infix_cons_iff.mp occurs with begins | later
    · exact .inl ((List.prefix_append_right_inj (hinged edge inner)).mp begins)
    · refine (infix_of_apartBut rejoins.doubled_apart later).imp_left fun begins => ?_
      exact (List.prefix_cons_inj edge).mp ((List.prefix_append _ (inner ++ [edge])).trans begins)
  · rintro (begins | later)
    · exact ((List.prefix_append_right_inj (hinged edge inner)).mpr begins).isInfix
    · exact later.trans (List.suffix_append _ rest).isInfix

theorem Rejoins.hinged_infix (rejoins : Rejoins edge inner head core tail) {rest : List α} :
    hinged edge inner <:+: head ++ (core ++ tail) ++ rest ↔
      inner ++ [edge] <+: rest ∨ hinged edge inner <:+: rest := by
  constructor
  · intro occurs
    exact (infix_of_apartBut rejoins.new_apart occurs).imp_left (List.prefix_cons_inj edge).mp
  · rintro (begins | later)
    · obtain ⟨start, split⟩ := rejoins.ends
      rw [← split, List.append_assoc]
      exact ((List.prefix_cons_inj edge).mpr begins).isInfix.trans
        (List.suffix_append start _).isInfix
    · exact later.trans (List.suffix_append _ rest).isInfix

theorem hinged_ne_nil (edge : α) (inner : List α) : hinged edge inner ≠ [] :=
  List.cons_ne_nil edge (inner ++ [edge])

variable [DecidableEq α]

theorem Rejoins.head_replaceAll (rejoins : Rejoins edge inner head core tail) (after : List α) :
    [edge] <+: replaceAll (hinged edge inner) (head ++ (core ++ tail)) (edge :: after) := by
  by_cases begins : hinged edge inner <+: edge :: after
  · obtain ⟨later, split⟩ := begins
    rw [← split, replaceAll_append (hinged_ne_nil edge inner)]
    exact rejoins.begins.trans (List.prefix_append _ _)
  · rw [replaceAll_cons begins]
    exact List.prefix_append [edge] _

theorem Rejoins.prefix_replaceAll (rejoins : Rejoins edge inner head core tail) {rest : List α} :
    inner ++ [edge] <+: replaceAll (hinged edge inner) (head ++ (core ++ tail)) rest ↔
      inner ++ [edge] <+: rest := by
  constructor
  · intro begins
    exact @prefix_of_replaceAll α _ _ _ head core tail [] (hinged_ne_nil edge inner)
      rejoins.core_apart.tail rejoins.heads rest begins
  · rintro ⟨after, rfl⟩
    rw [List.append_assoc, List.singleton_append, replaceAll_append_of_unbegun]
    · exact (List.prefix_append_right_inj inner).mpr (rejoins.head_replaceAll after)
    · -- An occurrence that begins inside would share more than the hinge.
      intro other isTail nonempty
      rw [List.append_cons]
      refine rejoins.old_apart.not_prefix ?_ (by simp) (by simpa using nonempty) after
      obtain ⟨start, split⟩ := (List.mem_tails _ _).mp isTail
      exact ⟨start, by rw [← split, List.append_assoc]⟩

/-- After the replacement the piece is found again exactly where the text had it doubled. -/
theorem Rejoins.infix_replaceAll_iff (rejoins : Rejoins edge inner head core tail)
    (text : List α) :
    hinged edge inner <:+: replaceAll (hinged edge inner) (head ++ (core ++ tail)) text ↔
      doubled edge inner <:+: text := by
  have nonempty := hinged_ne_nil edge inner
  induction text using replace_induction nonempty with
  | nil => simp [hinged, doubled]
  | found rest induction =>
      rw [replaceAll_append nonempty, rejoins.hinged_infix, rejoins.prefix_replaceAll,
        rejoins.doubled_infix]
      exact or_congr_right induction
  | passed item rest notFirst induction =>
      rw [replaceAll_cons notFirst, List.infix_cons_iff, List.infix_cons_iff]
      constructor
      · rintro (begins | inside)
        · exact absurd (@prefix_of_replaceAll α _ _ _ head core tail [item] nonempty
            rejoins.core_apart rejoins.heads rest begins) notFirst
        · exact .inr (induction.mp inside)
      · rintro (begins | inside)
        · exact absurd ((List.prefix_append _ (inner ++ [edge])).trans begins) notFirst
        · exact .inr (induction.mpr inside)

end Rejoins

/-! ## The way back -/

/-- One inserted or replaced fragment is taken back. -/
inductive Undo (fragments : List (List α × List α)) : List α → List α → Prop
  | undo (before after : List α) {fragment : List α × List α} (listed : fragment ∈ fragments) :
      Undo fragments (before ++ (fragment.2 ++ after)) (before ++ (fragment.1 ++ after))

theorem Undo.inserted {fragments : List (List α × List α)} {fragment : List α}
    (before after : List α) (listed : ([], fragment) ∈ fragments) :
    Undo fragments (before ++ (fragment ++ after)) (before ++ after) :=
  .undo before after listed

/-- The edited text becomes the original one as its fragments are taken back. -/
def Undoes (fragments : List (List α × List α)) : (edited original : List α) → Prop :=
  Relation.ReflTransGen (Undo fragments)

theorem undoes_replaceAll [DecidableEq α] {fragments : List (List α × List α)} {old new : List α}
    (nonempty : old ≠ []) (listed : (old, new) ∈ fragments) (before text : List α) :
    Undoes fragments (before ++ replaceAll old new text) (before ++ text) := by
  induction text using replace_induction nonempty generalizing before with
  | nil => exact .refl
  | found rest induction =>
      rw [replaceAll_append nonempty]
      have first := Undo.undo before (replaceAll old new rest) listed
      have others := induction (before ++ old)
      rw [List.append_assoc, List.append_assoc] at others
      exact .head first others
  | passed item rest notFirst induction =>
      have others := induction (before ++ [item])
      rwa [replaceAll_cons notFirst, List.append_cons, List.append_cons before item rest]

end Foundation.Replace
