import Zlyme.Preloader.Walk

/-! # The walk as a relation

A walk is a chain of tokens. A token reads only the bytes that it passes, and
means the same at every position with the same alignment. So a walk can be
carried over to a tree that agrees before a property and is shifted after it.
-/

namespace Zlyme.Preloader

open Foundation Foundation.Bytes

/-! ## Tokens -/

/-- A token that moves the walk on, to the position, stack and item given last. -/
inductive Token (strings rest : Bytes) (p : Nat) (stack : List Bytes) :
    Nat → List Bytes → Option FdtItem → Prop
  | node {length : Nat} {name : Bytes} (token : unpackBe32 rest = some 1)
      (found : (rest.drop 4).idxOf? 0 = some length)
      (decoded : decode ((rest.drop 4).take length) = .ok name) :
      Token strings rest p stack (alignDown (p + 4 + length + 4)) (stack ++ [name])
        (some (.node (pathOf (stack ++ [name]))))
  | leave (token : unpackBe32 rest = some 2) (inside : stack ≠ []) :
      Token strings rest p stack (p + 4) stack.dropLast none
  | prop {length nameoff : Nat} {name : Bytes} (token : unpackBe32 rest = some 3)
      (lengthRead : unpackBe32 (rest.drop 4) = some length)
      (nameoffRead : unpackBe32 (rest.drop 8) = some nameoff)
      (named : propName strings nameoff = .ok name) :
      Token strings rest p stack (alignDown (p + 12 + length + 3)) stack
        (some (.prop (pathOf stack) name ((rest.drop 12).take length) p))
  | nop (token : unpackBe32 rest = some 4) : Token strings rest p stack (p + 4) stack none

theorem walkStep_eq_next_iff {strings rest : Bytes} {p next : Nat} {stack stack' : List Bytes}
    {item : Option FdtItem} :
    walkStep strings rest p stack = .ok (.next next stack' item) ↔
      Token strings rest p stack next stack' item := by
  constructor
  · intro stepped
    rw [walkStep] at stepped
    split at stepped
    · cases stepped
    · rename_i token
      split at stepped
      · cases stepped
      · rename_i length found
        cases decoded : decode ((rest.drop 4).take length) with
        | error error => rw [decoded] at stepped; cases stepped
        | ok name =>
            rw [decoded] at stepped
            cases stepped
            exact .node token found decoded
    · rename_i token
      split at stepped
      · cases stepped
      · rename_i inside
        cases stepped
        exact .leave token (by simpa using inside)
    · rename_i token
      split at stepped
      · rename_i length nameoff lengthRead nameoffRead
        cases named : propName strings nameoff with
        | error error => rw [named] at stepped; cases stepped
        | ok name =>
            rw [named] at stepped
            cases stepped
            exact .prop token lengthRead nameoffRead named
      · cases stepped
    · rename_i token
      cases stepped
      exact .nop token
    · cases stepped
    · cases stepped
  · intro token
    cases token with
    | node token found decoded =>
        simp only [walkStep, token, found, decoded]
        rfl
    | leave token inside =>
        simp only [walkStep, token]
        rw [if_neg (by simpa using inside)]
    | prop token lengthRead nameoffRead named =>
        simp only [walkStep, token, lengthRead, nameoffRead, named]
        rfl
    | nop token => simp only [walkStep, token]

theorem walkStep_eq_done_iff {strings rest : Bytes} {p : Nat} {stack : List Bytes} :
    walkStep strings rest p stack = .ok .done ↔ unpackBe32 rest = some 9 := by
  constructor
  · intro stepped
    rw [walkStep] at stepped
    split at stepped
    · cases stepped
    · split at stepped
      · cases stepped
      · rename_i length _
        cases decoded : decode ((rest.drop 4).take length) <;> rw [decoded] at stepped <;>
          cases stepped
    · split at stepped <;> cases stepped
    · split at stepped
      · rename_i nameoff _ _
        cases named : propName strings nameoff <;> rw [named] at stepped <;> cases stepped
      · cases stepped
    · cases stepped
    · assumption
    · cases stepped
  · intro token
    simp only [walkStep, token]

/-! ## Locality -/

theorem alignDown_mod (value : Nat) : alignDown value % 4 = 0 := by
  rw [alignDown]
  omega

/-- Alignment moves with a position of the same residue. -/
theorem alignDown_shift {p q : Nat} (same : p % 4 = q % 4) (extra : Nat) :
    alignDown (p + extra) + q = alignDown (q + extra) + p := by
  simp only [alignDown]
  omega

theorem idxOf?_append_of_lt {front rest : Bytes} {index : Nat} {byte : UInt8}
    (found : (front ++ rest).idxOf? byte = some index) (inside : index < front.length)
    (other : Bytes) : (front ++ other).idxOf? byte = some index := by
  simp only [List.idxOf?, List.findIdx?_append] at found ⊢
  cases early : front.findIdx? (· == byte) with
  | some first => simpa [early] using found
  | none =>
      rw [early, Option.none_or, Option.map_eq_some_iff] at found
      rcases found with ⟨later, _, equal⟩
      omega

section Locality

variable {strings shared tail : Bytes} {p next : Nat} {stack stack' : List Bytes}
  {item : Option FdtItem}

theorem Token.advances {rest : Bytes} (token : Token strings rest p stack next stack' item) :
    p + 4 ≤ next := by
  cases token with
  | node | prop => simp only [alignDown]; omega
  | leave | nop => exact Nat.le_refl _

theorem drop_append_left {front : Bytes} {count : Nat} (inside : count ≤ front.length)
    (rest : Bytes) : (front ++ rest).drop count = front.drop count ++ rest :=
  List.drop_append_of_le_length inside

theorem unpackBe32_congr {front : Bytes} (long : 4 ≤ front.length) {word : Nat}
    {rest : Bytes} (unpacked : unpackBe32 (front ++ rest) = some word) (other : Bytes) :
    unpackBe32 (front ++ other) = some word := by
  rw [unpackBe32_append long] at unpacked ⊢
  exact unpacked

/-- A token reads only the bytes that it passes. -/
theorem Token.local (token : Token strings (shared ++ tail) p stack next stack' item)
    (within : next ≤ p + shared.length) (other : Bytes) :
    Token strings (shared ++ other) p stack next stack' item := by
  have advances := token.advances
  have long : 4 ≤ shared.length := by omega
  cases token with
  | @node length name token found decoded =>
      have inside : length < (shared.drop 4).length := by
        rw [List.length_drop]
        simp only [alignDown] at within
        omega
      rw [drop_append_left long] at found decoded
      rw [List.take_append_of_le_length (Nat.le_of_lt inside)] at decoded
      refine .node (unpackBe32_congr long token other) ?_ ?_
      · rw [drop_append_left long]
        exact idxOf?_append_of_lt found inside other
      · rwa [drop_append_left long, List.take_append_of_le_length (Nat.le_of_lt inside)]
  | leave token inside => exact .leave (unpackBe32_congr long token other) inside
  | @prop length nameoff name token lengthRead nameoffRead named =>
      have room : 12 + length ≤ shared.length := by
        simp only [alignDown] at within
        omega
      rw [drop_append_left long] at lengthRead
      rw [drop_append_left (by omega)] at nameoffRead
      have value : ((shared ++ tail).drop 12).take length =
          ((shared ++ other).drop 12).take length := by
        rw [drop_append_left (by omega), drop_append_left (by omega),
          List.take_append_of_le_length (by rw [List.length_drop]; omega),
          List.take_append_of_le_length (by rw [List.length_drop]; omega)]
      rw [value]
      refine .prop (unpackBe32_congr long token other) ?_ ?_ named
      · rw [drop_append_left long]
        exact unpackBe32_congr (by rw [List.length_drop]; omega) lengthRead other
      · rw [drop_append_left (by omega)]
        exact unpackBe32_congr (by rw [List.length_drop]; omega) nameoffRead other
  | nop token => exact .nop (unpackBe32_congr long token other)

/-- What an item says, without its position. -/
def FdtItem.content : FdtItem → Bytes × Option (Bytes × Bytes)
  | .node path => (path, none)
  | .prop path name value _ => (path, some (name, value))

/-- A token means the same at another position with the same alignment. -/
theorem Token.shift {rest : Bytes} (token : Token strings rest p stack next stack' item)
    {q : Nat} (same : p % 4 = q % 4) :
    ∃ next' item', Token strings rest q stack next' stack' item' ∧ next + q = next' + p ∧
      item'.map FdtItem.content = item.map FdtItem.content := by
  cases token with
  | node token found decoded =>
      refine ⟨_, _, .node token found decoded, ?_, rfl⟩
      simpa only [Nat.add_assoc] using alignDown_shift same _
  | leave token inside => exact ⟨_, _, .leave token inside, by omega, rfl⟩
  | prop token lengthRead nameoffRead named =>
      refine ⟨_, _, .prop token lengthRead nameoffRead named, ?_, rfl⟩
      simpa only [Nat.add_assoc] using alignDown_shift same _
  | nop token => exact ⟨_, _, .nop token, by omega, rfl⟩

/-- Inside a node every position is aligned. -/
theorem Token.aligned {rest : Bytes} (token : Token strings rest p stack next stack' item)
    (aligned : stack ≠ [] → p % 4 = 0) : stack' ≠ [] → next % 4 = 0 := by
  intro nested
  cases token with
  | node | prop => exact alignDown_mod _
  | leave _ inside =>
      have := aligned inside
      omega
  | nop =>
      have := aligned nested
      omega

end Locality

/-! ## Walks -/

/-- The chain of tokens from a position to the end token. -/
inductive Walks (blob strings : Bytes) (stop : Nat) :
    Nat → List Bytes → List FdtItem → Prop
  | done {p : Nat} {stack : List Bytes} (inside : p < stop)
      (token : unpackBe32 (blob.drop p) = some 9) : Walks blob strings stop p stack []
  | next {p next : Nat} {stack stack' : List Bytes} {item : Option FdtItem}
      {items : List FdtItem} (inside : p < stop)
      (token : Token strings (blob.drop p) p stack next stack' item)
      (later : Walks blob strings stop next stack' items) :
      Walks blob strings stop p stack (item.toList ++ items)

theorem walkLoop_eq_ok_iff (blob strings : Bytes) (stop : Nat) :
    ∀ {turns p : Nat} {stack : List Bytes} {items : List FdtItem}, stop ≤ p + turns →
      (walkLoop blob strings stop turns p stack = .ok items ↔
        Walks blob strings stop p stack items)
  | 0, p, stack, items, enough => by
      constructor
      · intro looped
        cases looped
      · intro walks
        cases walks with
        | done inside | next inside => omega
  | turns + 1, p, stack, items, enough => by
      constructor
      · intro looped
        rw [walkLoop] at looped
        split at looped
        · rename_i inside
          cases stepped : walkStep strings (blob.drop p) p stack with
          | error error => rw [stepped] at looped; cases looped
          | ok step =>
              rw [stepped] at looped
              cases step with
              | done =>
                  cases looped
                  exact .done inside (walkStep_eq_done_iff.mp stepped)
              | next p' stack' item =>
                  have token := walkStep_eq_next_iff.mp stepped
                  cases later : walkLoop blob strings stop turns p' stack' with
                  | error error =>
                      simp only [bind, Except.bind, later] at looped
                      cases looped
                  | ok items' =>
                      simp only [bind, Except.bind, later] at looped
                      cases looped
                      have advances := token.advances
                      exact .next inside token
                        ((walkLoop_eq_ok_iff blob strings stop (by omega)).mp later)
        · cases looped
      · intro walks
        cases walks with
        | done inside token =>
            rw [walkLoop, if_pos inside, walkStep_eq_done_iff.mpr token]
            rfl
        | next inside token later =>
            have advances := token.advances
            have looped : walkLoop blob strings stop turns _ _ = _ :=
              (walkLoop_eq_ok_iff blob strings stop (by omega)).mpr later
            rw [walkLoop, if_pos inside, walkStep_eq_next_iff.mpr token]
            simp only [bind, Except.bind, looped]
            rfl

/-! ## Carrying a walk over -/

section Transfer

variable {blob strings : Bytes} {stop p : Nat} {stack : List Bytes} {items : List FdtItem}

theorem Token.item_pos {rest : Bytes} {next pos : Nat} {stack' : List Bytes}
    {item : Option FdtItem} {path name value : Bytes}
    (token : Token strings rest p stack next stack' item)
    (isProp : item = some (.prop path name value pos)) : pos = p := by
  cases token <;> cases isProp
  rfl

/-- A walk from `p` meets properties from `p` on. -/
theorem Walks.pos_ge (walks : Walks blob strings stop p stack items)
    {path name value : Bytes} {pos : Nat} (member : .prop path name value pos ∈ items) :
    p ≤ pos := by
  induction walks with
  | done => cases member
  | next inside token later induction =>
      rcases List.mem_append.mp member with here | afterwards
      · exact Nat.le_of_eq (token.item_pos (by simpa using here)).symm
      · exact Nat.le_trans (Nat.le_trans (Nat.le_add_right _ 4) token.advances)
          (induction afterwards)

/-- The walk after `p` depends on the bytes from there only, and shifts with them. -/
theorem Walks.shift (walks : Walks blob strings stop p stack items) {edited : Bytes}
    {q stop' : Nat} (sameTail : edited.drop q = blob.drop p) (sameAlign : p % 4 = q % 4)
    (sameStop : stop + q = stop' + p) :
    ∃ items', Walks edited strings stop' q stack items' ∧
      items'.map FdtItem.content = items.map FdtItem.content := by
  induction walks generalizing q with
  | done inside token =>
      exact ⟨[], .done (by omega) (by rwa [sameTail]), rfl⟩
  | @next p next stack stack' item items inside token later induction =>
      have advances := token.advances
      rcases token.shift sameAlign with ⟨next', item', token', moved, sameItem⟩
      have advances' := token'.advances
      have tail : edited.drop next' = blob.drop next := by
        have lengths : next' - q = next - p := by omega
        calc
          edited.drop next' = (edited.drop q).drop (next' - q) := by
            rw [List.drop_drop]; congr 1; omega
          _ = (blob.drop p).drop (next - p) := by rw [sameTail, lengths]
          _ = blob.drop next := by rw [List.drop_drop]; congr 1; omega
      rcases induction tail (by omega) (by omega) with ⟨items', walks', sameItems⟩
      refine ⟨item'.toList ++ items', .next (by omega) (sameTail ▸ token') walks', ?_⟩
      rw [List.map_append, List.map_append, sameItems]
      congr 1
      cases item <;> cases item' <;> simp_all

/-- A walk that meets a property splits there, and what comes before it stays the
same in every tree with the same bytes before the property. -/
theorem Walks.split (walks : Walks blob strings stop p stack items)
    (stopInside : stop ≤ blob.length) (aligned : stack ≠ [] → p % 4 = 0)
    {path name value : Bytes} {pos : Nat} (member : .prop path name value pos ∈ items) :
    ∃ before after inner next,
      items = before ++ .prop path name value pos :: after ∧
      (inner ≠ [] → pos % 4 = 0) ∧ pos < stop ∧
      Token strings (blob.drop pos) pos inner next inner (some (.prop path name value pos)) ∧
      Walks blob strings stop next inner after ∧
      ∀ edited stop', (∀ index, p ≤ index → index < pos → edited[index]? = blob[index]?) →
        pos < stop' → ∀ items', Walks edited strings stop' pos inner items' →
          Walks edited strings stop' p stack (before ++ items') := by
  induction walks with
  | done => cases member
  | @next p next stack stack' item items inside token later induction =>
      have advances := token.advances
      by_cases here : pos = p
      · -- The property is this token's own: a later one would stand further on.
        subst here
        rcases List.mem_append.mp member with own | afterwards
        · have isProp : item = some (.prop path name value pos) := by simpa using own
          subst isProp
          have same : stack' = stack := by cases token; rfl
          subst same
          refine ⟨[], items, stack', next, rfl, aligned, inside, token, later, ?_⟩
          intro edited stop' _ _ items' walks'
          exact walks'
        · have := later.pos_ge afterwards
          omega
      · have afterwards : FdtItem.prop path name value pos ∈ items := by
          rcases List.mem_append.mp member with own | afterwards
          · exact absurd (token.item_pos (by simpa using own)) here
          · exact afterwards
        have further := later.pos_ge afterwards
        rcases induction (token.aligned aligned) afterwards with
          ⟨before, after, inner, next', splits, alignedAt, beforeStop, propToken, walksAfter,
            transfer⟩
        refine ⟨item.toList ++ before, after, inner, next', by rw [splits, List.append_assoc],
          alignedAt, beforeStop, propToken, walksAfter, ?_⟩
        intro edited stop' agree stopAfter items' walks'
        have shared : slice edited p pos = slice blob p pos := slice_congr agree
        have sharedLength : (slice blob p pos).length = pos - p := slice_length (by omega)
        have split := drop_eq_slice_append blob (Nat.le_trans (Nat.le_add_right p 4)
          (Nat.le_trans advances further))
        rw [split] at token
        have token' := token.local (by omega) (edited.drop pos)
        rw [← shared, ← drop_eq_slice_append edited (by omega)] at token'
        rw [List.append_assoc]
        exact .next (by omega) token'
          (transfer edited stop' (fun index lower => agree index (by omega)) stopAfter
            items' walks')

end Transfer

end Zlyme.Preloader
