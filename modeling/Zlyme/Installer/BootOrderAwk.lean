import Zlyme.Foundation.Hex
import Zlyme.Preloader.EditedTree

/-! # The boot-order edit of the installer

`bootorder.awk` makes the edit of `_replace_boot_order` on hexadecimal text, with
checks of its own. A string of the program is a list of characters here, and a name
that it collects with `sprintf("%c", …)` a list of bytes.
-/

namespace Zlyme.Installer.BootOrder

open Foundation Foundation.Bytes

/-! ## The program -/

/-- How the program ends without a tree. -/
inductive AwkExit
  /-- `exit 1`, with its message. -/
  | refused (message : String)
  /-- `exit 2`. -/
  | already
  /-- `sprintf("%08x", …)` of a negative number, which is not the same in every awk. -/
  | unspecified
  deriving DecidableEq, Repr

abbrev Awk := Except AwkExit

def refuse {α : Type} (message : String) : Awk α :=
  .error (.refused message)

/-- `EXPECT`. -/
def expectHex : List Char :=
  ("2f64776d6d63406665326230303030002f7364686369406665333130303030002f6e616e646340666533333030" ++
    "3030002f7366634066653330303030302f666c6173684030002f7366634066653330303030302f666c617368" ++
    "403100").toList

/-- `ONLY`. -/
def onlyHex : List Char :=
  "2f64776d6d6340666532623030303000".toList

/-- One turn of the loop of `h2d`. -/
def addDigit (n : Nat) (c : Char) : Awk Nat :=
  match Hex.digitValue c with
  | none => refuse ("bad hex digit " ++ c.toString)
  | some v => .ok (n * 16 + v)

def h2d (s : List Char) : Awk Nat :=
  s.foldlM addDigit 0

def d2h : Int → Awk (List Char)
  | .ofNat n => .ok (Hex.word n)
  | .negSucc _ => .error .unspecified

def align4 (n : Nat) : Nat :=
  (n + 3) / 4 * 4

def hexat (H : List Char) (b n : Nat) : List Char :=
  (H.drop (2 * b)).take (2 * n)

def u32 (H : List Char) (b : Nat) : Awk Nat :=
  h2d (hexat H b 4)

def poke (hex : List Char) (b : Nat) (val : Int) : Awk (List Char) := do
  let word ← d2h val
  return hex.take (2 * b) ++ word ++ hex.drop (2 * b + 8)

/-- The `while (1)` of a name, where the text is `H` from `i` on: the bytes before the
first zero byte or the end, and how often `i++` ran. -/
def nameFrom : List Char → Awk (Bytes × Nat)
  | c :: d :: rest =>
      if c = '0' ∧ d = '0' then .ok ([], 0)
      else do
        let byte ← h2d [c, d]
        let (name, turns) ← nameFrom rest
        return (UInt8.ofNat byte :: name, turns + 1)
  | [c] => do
      let byte ← h2d [c]
      return ([UInt8.ofNat byte], 1)
  | [] => .ok ([], 0)

/-- The loop over `node[1]` to `node[depth]`. -/
def pathText (node : List Bytes) : Bytes :=
  node.foldl (fun path part =>
    if part ≠ [] then path ++ Preloader.text "/" ++ part else path) []

/-- `at` and `oldlen`, once the property is found. -/
abbrev Found := Option (Nat × Nat)

/-- One turn of the walk: go on at a position with a stack, or break. -/
inductive Turn
  | next (p : Nat) (node : List Bytes) (found : Found)
  | done
  deriving DecidableEq, Repr

def turn (H : List Char) (offStrings p : Nat) (node : List Bytes) (found : Found) : Awk Turn :=
  let tok := hexat H p 4
  if tok = "00000001".toList then do
    let (name, turns) ← nameFrom (H.drop (2 * (p + 4)))
    return .next (align4 (p + 4 + turns + 1)) (node ++ [name]) found
  else if tok = "00000002".toList then
    if node.length < 1 then refuse "FDT node nesting is invalid"
    else .ok (.next (p + 4) node.dropLast found)
  else if tok = "00000003".toList then do
    let len ← u32 H (p + 4)
    let nameoff ← u32 H (p + 8)
    let (pname, _) ← nameFrom (H.drop (2 * (offStrings + nameoff)))
    if pathText node = Preloader.chosenPath ∧ pname = Preloader.bootOrderName then
      if found ≠ none then refuse "SPL boot-order property is ambiguous"
      else return .next (align4 (p + 12 + len)) node (some (p, len))
    else return .next (align4 (p + 12 + len)) node found
  else if tok = "00000004".toList then .ok (.next (p + 4) node found)
  else if tok = "00000009".toList then .ok .done
  else refuse ("bad FDT token " ++ String.ofList tok)

/-- The walk. Every turn moves on, so `structEnd - p` turns are enough. -/
def findBootOrder (H : List Char) (offStrings structEnd : Nat) :
    Nat → Nat → List Bytes → Found → Awk Found
  | 0, _, _, found => .ok found
  | turns + 1, p, node, found =>
      if p < structEnd then do
        match ← turn H offStrings p node found with
        | .done => return found
        | .next p node found => findBootOrder H offStrings structEnd turns p node found
      else .ok found

/-- The program on one line. -/
def bootorder (H : List Char) : Awk (List Char) := do
  if H.take 8 ≠ "d00dfeed".toList then refuse "not a device tree" else
  let totalsize ← u32 H 4
  let offStruct ← u32 H 8
  let offStrings ← u32 H 12
  let sizeStrings ← u32 H 32
  let sizeStruct ← u32 H 36
  if offStrings + sizeStrings ≠ totalsize then refuse "strings block is not last" else
  let structEnd := offStruct + sizeStruct
  if offStrings ≠ structEnd then refuse "struct and strings are not adjacent" else
  match ← findBootOrder H offStrings structEnd sizeStruct offStruct [] none with
  | none => refuse "SPL boot-order property is missing"
  | some (at_, oldlen) =>
      let data := hexat H (at_ + 12) oldlen
      if data = onlyHex then .error .already
      else if data ≠ expectHex then refuse "SPL boot order is not the Nov 02 list"
      else
        let oldEnd := align4 (at_ + 12 + oldlen)
        let newEnd := align4 (at_ + 28)
        let delta : Int := (newEnd : Int) - oldEnd
        if delta ≥ 0 then refuse "recovery device tree did not shrink" else do
        let size ← d2h 16
        let prop := "00000003".toList ++ size ++ hexat H (at_ + 8) 4 ++ onlyHex
        let out := hexat H 0 at_ ++ prop ++ hexat H oldEnd (structEnd - oldEnd) ++
          hexat H offStrings sizeStrings
        let out ← poke out 4 (totalsize + delta)
        let out ← poke out 12 (offStrings + delta)
        let out ← poke out 36 (sizeStruct + delta)
        if (out.length : Int) ≠ 2 * (totalsize + delta) then
          refuse "rebuilt device tree size is inconsistent"
        else return out

/-! ## The text of a blob -/

theorem hexat_ofBytes (blob : Bytes) (b n : Nat) :
    hexat (Hex.ofBytes blob) b n = Hex.ofBytes (slice blob b (b + n)) :=
  Hex.slice_ofBytes blob b n

theorem addDigit_digitChar (n : Nat) {digit : Nat} (small : digit < 16) :
    addDigit n digit.digitChar = .ok (n * 16 + digit) := by
  rw [addDigit, Hex.digitValue_digitChar small]

theorem h2d_ofBytes (bytes : Bytes) : h2d (Hex.ofBytes bytes) = .ok (fromBe bytes) := by
  have general : ∀ n, (Hex.ofBytes bytes).foldlM addDigit n =
      .ok (bytes.foldl (fun value byte => 256 * value + byte.toNat) n) := by
    induction bytes with
    | nil => exact fun _ => rfl
    | cons byte rest induction =>
        intro n
        have halves := Hex.byte_halves byte
        have joined : (n * 16 + byte.toNat / 16) * 16 + byte.toNat % 16 =
            256 * n + byte.toNat := by omega
        rw [Hex.ofBytes_cons, List.foldlM_cons, addDigit_digitChar n halves.1, ok_bind,
          List.foldlM_cons, addDigit_digitChar _ halves.2, ok_bind, joined, induction,
          List.foldl_cons]
  exact general 0

theorem u32_ofBytes (blob : Bytes) (b : Nat) :
    u32 (Hex.ofBytes blob) b = .ok (fromBe (slice blob b (b + 4))) := by
  rw [u32, hexat_ofBytes, h2d_ofBytes]

theorem isZero_iff (byte : UInt8) :
    (byte.toNat / 16).digitChar = '0' ∧ (byte.toNat % 16).digitChar = '0' ↔ byte = 0 := by
  constructor
  · intro zero
    have same : Hex.ofBytes [byte] = Hex.ofBytes [0] := by
      rw [Hex.ofBytes_cons, zero.1, zero.2]
      rfl
    exact List.singleton_inj.mp (Hex.ofBytes_inj.mp same)
  · rintro rfl
    decide

theorem nameFrom_ofBytes {bytes : Bytes} {length : Nat} (found : bytes.idxOf? 0 = some length) :
    nameFrom (Hex.ofBytes bytes) = .ok (bytes.take length, length) := by
  induction bytes generalizing length with
  | nil => cases found
  | cons byte rest induction =>
      rw [Hex.ofBytes_cons, nameFrom]
      by_cases zero : byte = 0
      · subst zero
        rw [if_pos ((isZero_iff 0).mpr rfl)]
        cases found
        rfl
      · rw [if_neg (mt (isZero_iff byte).mp zero)]
        rw [List.idxOf?_cons, if_neg (by simpa using zero), Option.map_eq_some_iff] at found
        rcases found with ⟨length, later, rfl⟩
        have read : h2d [(byte.toNat / 16).digitChar, (byte.toNat % 16).digitChar] =
            .ok byte.toNat := (h2d_ofBytes [byte]).trans (by simp [fromBe])
        rw [read, induction later]
        dsimp only [bind, Except.bind]
        rw [UInt8.ofNat_toNat, List.take_succ_cons]
        rfl

theorem fromBe_of_unpackBe32 {bytes : Bytes} {word : Nat}
    (unpacked : unpackBe32 bytes = some word) : fromBe (bytes.take 4) = word := by
  match bytes, unpacked with
  | _ :: _ :: _ :: _ :: _, unpacked => exact Option.some.inj unpacked

theorem take_of_unpackBe32 {bytes : Bytes} {word : Nat} (unpacked : unpackBe32 bytes = some word) :
    bytes.take 4 = packBe32 word := by
  match bytes, unpacked with
  | b0 :: b1 :: b2 :: b3 :: rest, unpacked =>
      cases unpacked
      have h0 := b0.toNat_lt
      have h1 := b1.toNat_lt
      have h2 := b2.toNat_lt
      have h3 := b3.toNat_lt
      simp only [List.take_succ_cons, List.take_zero, packBe32, fromBe, List.foldl_cons,
        List.foldl_nil, List.cons.injEq, and_true]
      refine ⟨?_, ?_, ?_, ?_⟩ <;> apply UInt8.toNat_inj.mp <;> rw [UInt8.toNat_ofNat'] <;> omega

/-- The token at a position, in hexadecimal. -/
theorem tok_eq {blob : Bytes} {p word : Nat} (token : unpackBe32 (blob.drop p) = some word) :
    hexat (Hex.ofBytes blob) p 4 = Hex.ofBytes (packBe32 word) := by
  rw [hexat_ofBytes, slice, Nat.add_sub_cancel_left, take_of_unpackBe32 token]

theorem u32_of_unpackBe32 {blob : Bytes} {b word : Nat}
    (unpacked : unpackBe32 (blob.drop b) = some word) : u32 (Hex.ofBytes blob) b = .ok word := by
  rw [u32_ofBytes, slice, Nat.add_sub_cancel_left, fromBe_of_unpackBe32 unpacked]

theorem align4_eq (n : Nat) : align4 n = Preloader.alignDown (n + 3) := rfl

/-! ## The walk of a blob -/

theorem pathText_append (front : Bytes) (node : List Bytes) :
    node.foldl (fun path part =>
        if part ≠ [] then path ++ Preloader.text "/" ++ part else path) front =
      front ++ pathText node := by
  induction node generalizing front with
  | nil => exact (List.append_nil front).symm
  | cons part node induction =>
      rw [pathText, List.foldl_cons, List.foldl_cons]
      by_cases empty : part = []
      · rw [if_neg (not_not_intro empty), if_neg (not_not_intro empty), induction]
        rfl
      · rw [if_pos empty, if_pos empty, induction, induction ([] ++ _ ++ _), List.nil_append,
          List.append_assoc, List.append_assoc, List.append_assoc]

theorem pathText_cons (part : Bytes) (node : List Bytes) :
    pathText (part :: node) =
      (if part ≠ [] then Preloader.text "/" ++ part else []) ++ pathText node := by
  rw [← pathText_append, pathText, List.foldl_cons]
  rfl

/-- The two ways to join the names of a stack differ for the root only. -/
theorem pathText_eq (node : List Bytes) :
    pathText node =
      if node.filter (fun part => !part.isEmpty) = [] then [] else Preloader.pathOf node := by
  induction node with
  | nil => rfl
  | cons part node induction =>
      rw [pathText_cons, induction, Preloader.pathOf, Preloader.pathOf]
      by_cases empty : part = []
      · subst empty
        rfl
      · have kept : (!part.isEmpty) = true := by simpa using empty
        rw [if_pos empty, List.filter_cons, if_pos kept, if_neg (List.cons_ne_nil _ _)]
        cases parts : node.filter fun part => !part.isEmpty with
        | nil => simp
        | cons next parts => simp [List.intercalate_cons_cons]

theorem pathText_eq_chosen_iff (node : List Bytes) :
    pathText node = Preloader.chosenPath ↔ Preloader.pathOf node = Preloader.chosenPath := by
  rw [pathText_eq]
  split
  · rename_i root
    rw [Preloader.pathOf, root]
    decide +kernel
  · rfl

theorem nameFrom_of_propName {blob name : Bytes} {offStr sizeStr nameoff : Nat}
    (named : Preloader.propName (slice blob offStr (offStr + sizeStr)) nameoff = .ok name) :
    ∃ turns, nameFrom ((Hex.ofBytes blob).drop (2 * (offStr + nameoff))) = .ok (name, turns) := by
  rw [Preloader.propName] at named
  split at named
  · cases named
  · rename_i inside
    split at named
    · cases named
    · rename_i length found
      have text := Preloader.decode_eq_ok named
      have short : length < ((slice blob offStr (offStr + sizeStr)).drop nameoff).length :=
        (List.findIdx?_eq_some_iff_getElem.mp found).1
      have named : nameoff < sizeStr := by
        have strings := List.length_take_le sizeStr (blob.drop offStr)
        rw [slice, Nat.add_sub_cancel_left] at inside
        omega
      have split : blob.drop (offStr + nameoff) =
          (slice blob offStr (offStr + sizeStr)).drop nameoff ++
            blob.drop (offStr + sizeStr) := by
        rw [drop_eq_slice_append blob (show offStr + nameoff ≤ offStr + sizeStr by omega), slice,
          slice, List.drop_take, List.drop_drop, Nat.add_sub_cancel_left, Nat.add_sub_add_left]
      have found' : (blob.drop (offStr + nameoff)).idxOf? 0 = some length := by
        have alone :
            ((slice blob offStr (offStr + sizeStr)).drop nameoff ++ []).idxOf? 0 = some length := by
          rwa [List.append_nil]
        rw [split]
        exact Preloader.idxOf?_append_of_lt alone short _
      refine ⟨length, ?_⟩
      rw [Hex.drop_ofBytes, nameFrom_ofBytes found', text, split,
        List.take_append_of_le_length (Nat.le_of_lt short)]

/-- What a walked item does to `at` and `oldlen`. -/
def noted (blob : Bytes) (found : Found) : Preloader.FdtItem → Awk Found
  | .node _ => .ok found
  | .prop path name _ pos =>
      if path = Preloader.chosenPath ∧ name = Preloader.bootOrderName then
        if found ≠ none then refuse "SPL boot-order property is ambiguous"
        else .ok (some (pos, fromBe (slice blob (pos + 4) (pos + 8))))
      else .ok found

section Turn

variable {blob : Bytes} {offStr sizeStr p next : Nat} {stack stack' : List Bytes}
  {item : Option Preloader.FdtItem}

/-- A token of the walk is one turn of the loop. -/
theorem turn_of_token
    (token : Preloader.Token (slice blob offStr (offStr + sizeStr)) (blob.drop p) p stack next
      stack' item) (found : Found) :
    turn (Hex.ofBytes blob) offStr p stack found =
      (do let found ← item.toList.foldlM (noted blob) found
          return .next next stack' found) := by
  cases token with
  | @node length name token ended decoded =>
      rw [List.drop_drop] at ended decoded
      rw [turn, tok_eq token]
      dsimp only
      rw [if_pos (by decide), Hex.drop_ofBytes, nameFrom_ofBytes ended, ok_bind,
        ← Preloader.decode_eq_ok decoded, align4_eq]
      rfl
  | leave token inside =>
      rw [turn, tok_eq token]
      dsimp only
      rw [if_neg (by decide), if_pos (by decide),
        if_neg (by simpa [Nat.lt_one_iff] using inside)]
      rfl
  | @prop length nameoff name token lengthRead nameoffRead named =>
      rw [List.drop_drop] at lengthRead nameoffRead
      rcases nameFrom_of_propName named with ⟨turns, nameRead⟩
      have word := fromBe_of_unpackBe32 lengthRead
      rw [turn, tok_eq token]
      dsimp only
      rw [if_neg (by decide), if_neg (by decide), if_pos (by decide),
        u32_of_unpackBe32 lengthRead, ok_bind, u32_of_unpackBe32 nameoffRead, ok_bind, nameRead,
        ok_bind]
      simp only [pathText_eq_chosen_iff]
      rw [Option.toList_some, List.foldlM_cons, noted]
      split
      · split
        · rfl
        · rw [align4_eq, slice, Nat.add_sub_add_left, word]
          rfl
      · rw [align4_eq]
        rfl
  | nop token =>
      rw [turn, tok_eq token]
      dsimp only
      rw [if_neg (by decide), if_neg (by decide), if_neg (by decide), if_pos (by decide)]
      rfl

theorem turn_done (token : unpackBe32 (blob.drop p) = some 9) (found : Found) :
    turn (Hex.ofBytes blob) offStr p stack found = .ok .done := by
  rw [turn, tok_eq token]
  dsimp only
  rw [if_neg (by decide), if_neg (by decide), if_neg (by decide), if_neg (by decide),
    if_pos (by decide)]

/-- The whole walk notes its items in order. -/
theorem findBootOrder_of_walks {stop : Nat} {items : List Preloader.FdtItem}
    (walks : Preloader.Walks blob (slice blob offStr (offStr + sizeStr)) stop p stack items) :
    ∀ {turns : Nat} (found : Found), stop ≤ p + turns →
      findBootOrder (Hex.ofBytes blob) offStr stop turns p stack found =
        items.foldlM (noted blob) found := by
  induction walks with
  | @done p stack inside token =>
      intro turns found enough
      cases turns with
      | zero => omega
      | succ turns =>
          rw [findBootOrder, if_pos inside, turn_done token]
          rfl
  | @next p next stack stack' item items inside token later induction =>
      intro turns found enough
      have advances := token.advances
      cases turns with
      | zero => omega
      | succ turns =>
          rw [findBootOrder, if_pos inside, turn_of_token token, List.foldlM_append]
          cases item.toList.foldlM (noted blob) found with
          | error exit => rfl
          | ok found => exact induction found (by omega)

end Turn

theorem noted_of_other {item : Preloader.FdtItem} (other : item.isBootOrder = false)
    (blob : Bytes) (found : Found) : noted blob found item = .ok found := by
  cases item with
  | node path => rfl
  | prop path name value pos =>
      rw [noted, if_neg]
      simpa [Preloader.FdtItem.isBootOrder] using other

/-- Only the boot-order properties count. -/
theorem foldlM_noted_filter (blob : Bytes) (items : List Preloader.FdtItem) (found : Found) :
    items.foldlM (noted blob) found =
      (items.filter Preloader.FdtItem.isBootOrder).foldlM (noted blob) found := by
  induction items generalizing found with
  | nil => rfl
  | cons item items induction =>
      rw [List.foldlM_cons, List.filter_cons]
      split
      · rw [List.foldlM_cons]
        exact bind_congr fun found => induction found
      · rename_i other
        rw [noted_of_other (by simpa using other), ok_bind, induction]

/-! ## The edit of a blob -/

theorem splitNul_joined (data : Bytes) :
    (Preloader.splitNul data).flatMap (· ++ [0]) = data ++ [0] := by
  induction data with
  | nil => rfl
  | cons byte rest induction =>
      rw [Preloader.splitNul]
      split
      · rename_i zero
        rw [List.flatMap_cons, induction, zero]
        rfl
      · cases parts : Preloader.splitNul rest with
        | nil => exact absurd parts (Preloader.splitNul_ne_nil rest)
        | cons part parts' =>
            rw [parts, List.flatMap_cons] at induction
            simp only [List.flatMap_cons, List.cons_append, ← induction]

/-- A string list is its strings with a zero byte behind each. -/
theorem stringlist_eq {data : Bytes} {order : List Bytes}
    (split : Preloader.stringlist data = .ok order) : data = order.flatMap (· ++ [0]) := by
  rw [Preloader.stringlist] at split
  split at split
  · cases split
  · rename_i terminated
    have terminated := Decidable.of_not_not terminated
    rw [List.getLast?_eq_some_iff] at terminated
    rcases terminated with ⟨front, rfl⟩
    rw [Preloader.mapM_decode_eq_ok split, Preloader.splitNul_concat_nul, List.dropLast_concat,
      splitNul_joined]

theorem d2h_of_nat {n : Nat} (small : n < 2 ^ 32) : d2h n = .ok (Hex.ofBytes (packBe32 n)) := by
  rw [← Hex.word_eq small]
  rfl

theorem poke_ofBytes (blob : Bytes) (b : Nat) {n : Nat} (small : n < 2 ^ 32) :
    poke (Hex.ofBytes blob) b n = .ok (Hex.ofBytes (splice blob b (packBe32 n))) := by
  rw [poke, d2h_of_nat small, ok_bind, splice, Hex.ofBytes_append, Hex.ofBytes_append,
    ← Hex.take_ofBytes, ← Hex.drop_ofBytes, packBe32_length, Nat.mul_add]
  rfl

/-- What the token of a property says of the bytes behind it. -/
theorem property_bytes {blob strings path name value : Bytes} {pos next : Nat}
    {stack stack' : List Bytes}
    (token : Preloader.Token strings (blob.drop pos) pos stack next stack'
      (some (.prop path name value pos)))
    (inside : next ≤ blob.length) :
    slice blob pos (pos + 4) = packBe32 3 ∧
      fromBe (slice blob (pos + 4) (pos + 8)) = value.length ∧
      slice blob (pos + 12) (pos + 12 + value.length) = value := by
  cases token with
  | @prop length nameoff name token lengthRead nameoffRead named =>
      have full : pos + 12 + length ≤ blob.length := by
        simp only [Preloader.alignDown] at inside
        omega
      have sized : (((blob.drop pos).drop 12).take length).length = length := by
        rw [List.length_take, List.length_drop, List.length_drop]
        omega
      rw [sized, slice, slice, slice, Nat.add_sub_cancel_left, Nat.add_sub_add_left,
        Nat.add_sub_cancel_left, take_of_unpackBe32 token, ← List.drop_drop,
        fromBe_of_unpackBe32 lengthRead, List.drop_drop]
      exact ⟨rfl, rfl, rfl⟩

theorem newHead_eq {blob : Bytes} {pos : Nat}
    (isProp : slice blob pos (pos + 4) = packBe32 3) (new : Bytes) :
    Preloader.newHead blob pos new =
      packBe32 3 ++ packBe32 new.length ++ slice blob (pos + 8) (pos + 12) := by
  have front : (slice blob pos (pos + 12)).take 4 = slice blob pos (pos + 4) := by
    rw [slice, slice, List.take_take, Nat.add_sub_cancel_left, Nat.add_sub_cancel_left]
    rfl
  have back : (slice blob pos (pos + 12)).drop 8 = slice blob (pos + 8) (pos + 12) := by
    rw [slice, slice, List.drop_take, List.drop_drop, Nat.add_sub_cancel_left,
      Nat.add_sub_add_left]
  rw [Preloader.newHead, splice, packBe32_length, front, isProp, back]

/-- `ONLY` as bytes. -/
def onlyValue : Bytes :=
  Preloader.rightSlotName ++ [0]

/-- The two constants of the program are the orders of the Python tool. -/
theorem orders_hex : onlyHex = Hex.ofBytes onlyValue ∧
    expectHex = Hex.ofBytes (Preloader.sourceOrder.flatMap (· ++ [0])) ∧
    expectHex ≠ onlyHex ∧ onlyHex.length = 32 := by
  decide +kernel

theorem onlyValue_length : onlyValue.length = 16 := by
  have digits := orders_hex.2.2.2
  rw [orders_hex.1, Hex.ofBytes_length] at digits
  omega

section Source

variable {blob value : Bytes} {walked : Preloader.Walked} {pos : Nat} {order : List Bytes}
  (facts : Preloader.WalkFacts blob walked)
  (source : Preloader.BootOrderFacts walked pos value order)
include facts source

/-- The bytes of the boot-order property. -/
theorem source_property :
    slice blob pos (pos + 4) = packBe32 3 ∧
      fromBe (slice blob (pos + 4) (pos + 8)) = value.length ∧
      slice blob (pos + 12) (pos + 12 + value.length) = value := by
  have structInside := facts.structInside
  have located := Preloader.located facts source
  have beforeStop := located.before_stop
  rcases located.splits with ⟨before, after, inner, _, _, token, _⟩
  exact property_bytes token (by omega)

/-- The loop finds the property that the Python tool finds. -/
theorem findBootOrder_of_source :
    findBootOrder (Hex.ofBytes blob) walked.header.offStr
        (walked.header.offStruct + walked.header.sizeStruct) walked.header.sizeStruct
        walked.header.offStruct [] none = .ok (some (pos, value.length)) := by
  have walks := facts.walks
  rw [facts.strings] at walks
  rw [findBootOrder_of_walks walks none (Nat.le_refl _), foldlM_noted_filter, source.once,
    List.foldlM_cons, noted, if_pos ⟨rfl, rfl⟩, if_neg (not_not_intro rfl),
    (source_property facts source).2.1]
  rfl

omit source

/-- The header words that the program reads. -/
theorem header_text :
    (Hex.ofBytes blob).take 8 = "d00dfeed".toList ∧
      u32 (Hex.ofBytes blob) 4 = .ok walked.header.total ∧
      u32 (Hex.ofBytes blob) 8 = .ok walked.header.offStruct ∧
      u32 (Hex.ofBytes blob) 12 = .ok walked.header.offStr ∧
      u32 (Hex.ofBytes blob) 32 = .ok walked.header.sizeStr ∧
      u32 (Hex.ofBytes blob) 36 = .ok walked.header.sizeStruct := by
  have magic : (Hex.ofBytes blob).take (2 * 4) = "d00dfeed".toList := by
    rw [Hex.take_ofBytes, facts.magic]
    decide
  rw [facts.header]
  exact ⟨magic, u32_ofBytes blob 4, u32_ofBytes blob 8, u32_ofBytes blob 12, u32_ofBytes blob 32,
    u32_ofBytes blob 36⟩

end Source

section Edit

variable {blob edited : Bytes} (edit : Preloader.Edit Preloader.rightSlotName blob edited)
include edit

/-- The text that is put together is the tree before its header is written. -/
theorem body_text :
    hexat (Hex.ofBytes blob) 0 edit.pos ++
        ("00000003".toList ++ Hex.ofBytes (packBe32 16) ++
          hexat (Hex.ofBytes blob) (edit.pos + 8) 4 ++ onlyHex) ++
        hexat (Hex.ofBytes blob) (Preloader.valueEnd edit.pos edit.old)
          (edit.walked.header.offStruct + edit.walked.header.sizeStruct -
            Preloader.valueEnd edit.pos edit.old) ++
        hexat (Hex.ofBytes blob) edit.walked.header.offStr edit.walked.header.sizeStr =
      Hex.ofBytes (Preloader.rebuiltBody blob edit.walked edit.pos edit.old
        (Preloader.newHead blob edit.pos onlyValue) onlyValue) := by
  have facts := Preloader.walk_eq_ok edit.accepted
  have beforeStop := edit.located.before_stop
  have isProp : "00000003".toList = Hex.ofBytes (packBe32 3) := by decide
  have padding : Preloader.zeros ((4 - 16 % 4) % 4) = [] := rfl
  rw [Preloader.rebuiltBody, newHead_eq (source_property facts edit.source).1, onlyValue_length, padding,
    List.append_nil, facts.strings, orders_hex.1, isProp]
  simp only [hexat_ofBytes, ← Hex.ofBytes_append]
  rw [Nat.add_sub_cancel' (Nat.le_of_lt beforeStop), Nat.zero_add]
  simp only [List.append_assoc]
  rfl

/-- With the strings block behind the struct block, the text of the edited tree is
printed. -/
theorem bootorder_of_edit
    (follow : edit.walked.header.offStr =
      edit.walked.header.offStruct + edit.walked.header.sizeStruct) :
    bootorder (Hex.ofBytes blob) = .ok (Hex.ofBytes edited) := by
  have facts := Preloader.walk_eq_ok edit.accepted
  have ends := edit.ends
  have total := facts.total
  have oldLength := Preloader.sourceOrder_length edit.source.strings
  have property := source_property facts edit.source
  have oldEnd : align4 (edit.pos + 12 + 92) = Preloader.valueEnd edit.pos edit.old := by
    rw [align4_eq, Preloader.valueEnd, oldLength]
  have newEnd : align4 (edit.pos + 28) = Preloader.valueEnd edit.pos onlyValue := by
    rw [align4_eq, Preloader.valueEnd, onlyValue_length]
  have delta : (Preloader.valueEnd edit.pos onlyValue : Int) -
      Preloader.valueEnd edit.pos edit.old = Preloader.valueShift edit.pos edit.old onlyValue := rfl
  have shrinks : Preloader.valueShift edit.pos edit.old onlyValue < 0 := by
    rw [← delta, Preloader.valueEnd, Preloader.valueEnd, oldLength, onlyValue_length]
    simp only [Preloader.alignDown]
    omega
  have isSource : edit.old = Preloader.sourceOrder.flatMap (· ++ [0]) :=
    stringlist_eq edit.source.strings
  rcases header_text facts with ⟨magic, total4, offStruct8, offStr12, sizeStr32, sizeStruct36⟩
  rw [bootorder, if_neg (not_not_intro magic), total4, ok_bind, offStruct8, ok_bind, offStr12,
    ok_bind, sizeStr32, ok_bind, sizeStruct36, ok_bind, if_neg (by omega)]
  dsimp only
  rw [if_neg (by omega), findBootOrder_of_source facts edit.source, ok_bind]
  dsimp only
  rw [hexat_ofBytes, property.2.2, oldLength, isSource, ← orders_hex.2.1, if_neg orders_hex.2.2.1,
    if_neg (not_not_intro rfl), oldEnd, newEnd, delta, if_neg (by omega)]
  have size : d2h 16 = .ok (Hex.ofBytes (packBe32 16)) := d2h_of_nat (by decide)
  have totalIs : (edit.walked.header.total : Int) +
      Preloader.valueShift edit.pos edit.old onlyValue = edit.tree.total :=
    edit.tree.total_eq.symm
  have offStrIs : (edit.walked.header.offStr : Int) +
      Preloader.valueShift edit.pos edit.old onlyValue = edit.tree.offStr :=
    edit.tree.offStr_eq.symm
  have sizeStructIs : (edit.walked.header.sizeStruct : Int) +
      Preloader.valueShift edit.pos edit.old onlyValue = edit.tree.sizeStruct :=
    edit.tree.sizeStruct_eq.symm
  have editedLength := edit.edited_length
  have printed : edited = splice (splice (splice
      (Preloader.rebuiltBody blob edit.walked edit.pos edit.old
        (Preloader.newHead blob edit.pos onlyValue) onlyValue)
      4 (packBe32 edit.tree.total)) 12 (packBe32 edit.tree.offStr))
      36 (packBe32 edit.tree.sizeStruct) := edit.tree.edited_eq
  rw [size, ok_bind, body_text edit, totalIs, offStrIs, sizeStructIs,
    poke_ofBytes _ _ edit.tree.total_small, ok_bind, poke_ofBytes _ _ edit.tree.offStr_small,
    ok_bind, poke_ofBytes _ _ edit.tree.sizeStruct_small, ok_bind, ← printed, Hex.ofBytes_length,
    if_neg (by omega)]
  rfl

end Edit

/-- On its own output the program finds that there is nothing to do. -/
theorem bootorder_again {blob edited : Bytes}
    (edit : Preloader.Edit Preloader.rightSlotName blob edited)
    (inOrder : Preloader.BlocksInOrder blob) :
    bootorder (Hex.ofBytes edited) = .error .already := by
  have facts := Preloader.walk_eq_ok edit.accepted
  have ends := edit.ends
  have afterHeader := inOrder.after_header
  have follow := inOrder.strings_follow
  rw [← facts.header] at afterHeader follow
  have total := facts.total
  have totalIs := edit.tree.total_eq
  have offStrIs := edit.tree.offStr_eq
  have sizeStructIs := edit.tree.sizeStruct_eq
  rcases edit.rebuilt with ⟨pos, value, rebuilt⟩
  rcases Preloader.bootOrder_eq_ok rebuilt with ⟨walked, accepted, source⟩
  have facts' := Preloader.walk_eq_ok accepted
  have header : walked.header = _ := facts'.header.trans (edit.header afterHeader)
  have isOnly : value = onlyValue := by
    rw [stringlist_eq source.strings, onlyValue]
    exact List.append_nil _
  rcases header_text facts' with ⟨magic, total4, offStruct8, offStr12, sizeStr32, sizeStruct36⟩
  have found := findBootOrder_of_source facts' source
  have property := source_property facts' source
  rw [bootorder, if_neg (not_not_intro magic), total4, ok_bind, offStruct8, ok_bind, offStr12,
    ok_bind, sizeStr32, ok_bind, sizeStruct36, ok_bind,
    if_neg (by simp only [header]; omega)]
  dsimp only
  rw [if_neg (by simp only [header]; omega), found, ok_bind]
  dsimp only
  rw [hexat_ofBytes, property.2.2, isOnly, ← orders_hex.1, if_pos rfl]

/-- With the strings block elsewhere, the tree is refused. -/
theorem bootorder_refuses {blob edited : Bytes}
    (replaced : Preloader.replaceBootOrder Preloader.rightSlotName blob = .ok edited)
    (apart : (Preloader.readHeader blob).offStr ≠
      (Preloader.readHeader blob).offStruct + (Preloader.readHeader blob).sizeStruct) :
    bootorder (Hex.ofBytes blob) = .error (.refused "strings block is not last") := by
  rcases Preloader.replaceBootOrder_eq_ok replaced with ⟨edit⟩
  have facts := Preloader.walk_eq_ok edit.accepted
  have ends := edit.ends
  have total := facts.total
  rcases header_text facts with ⟨magic, total4, offStruct8, offStr12, sizeStr32, sizeStruct36⟩
  rw [← facts.header] at apart
  rw [bootorder, if_neg (not_not_intro magic), total4, ok_bind, offStruct8, ok_bind, offStr12,
    ok_bind, sizeStr32, ok_bind, sizeStruct36, ok_bind, if_pos (by omega)]
  rfl

end Zlyme.Installer.BootOrder
