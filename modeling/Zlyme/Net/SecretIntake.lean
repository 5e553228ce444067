import Mathlib.Data.List.DropRight
import Mathlib.Data.List.Infix
import Zlyme.Portmaster.MountInfo

/-! # The intake of secrets

`zlyme-ssh-auth set` and `zlyme-samba-auth set` read a password from a pipe with one read.
-/

namespace Zlyme.Net.SecretIntake

open Portmaster (Text ascii newline)

def carriageReturn : UInt8 :=
  0x0d

/-! ## The scripts -/

/-- What the writer of a pipe gives to one read after the other. -/
structure Pipe where
  pieces : List Text
  filled : ∀ piece ∈ pieces, piece ≠ []

/-- All that is written. -/
def Pipe.written (pipe : Pipe) : Text :=
  pipe.pieces.flatten

/-- `dd bs=258 count=1` -/
def Pipe.dd (pipe : Pipe) : Text :=
  (pipe.pieces.headD []).take 258

/-- `tr -d` and `wc -c` -/
def bytesWithout (byte : UInt8) (text : Text) : Nat :=
  (text.filter fun other => other ≠ byte).length

/-- `normalize_secret`, which is the same function in both scripts. -/
def normalizeSecret (text : Text) : Option Text :=
  let n := text.length
  if n ≠ bytesWithout 0 text then none
  else if n ≠ bytesWithout carriageReturn text then none
  else
    let nl := n - bytesWithout newline text
    if nl = 0 then
      if n ≤ 256 then some text else none
    else if nl = 1 then
      if ¬n ≤ 257 then none
      else if bytesWithout newline (text.drop (n - 1)) ≠ 0 then none
      else if n = 1 then some []
      else some (text.take (n - 1))
    else none

/-- The password that `zlyme-ssh-auth set` stores. An empty one removes the stored password. -/
def sshSecret : Text → Option Text :=
  normalizeSecret

/-- The password that `zlyme-samba-auth set` stores, which is not empty. -/
def sambaSecret (text : Text) : Option Text :=
  (normalizeSecret text).filter fun secret => !secret.isEmpty

def sshSet (pipe : Pipe) : Option Text :=
  sshSecret pipe.dd

def sambaSet (pipe : Pipe) : Option Text :=
  sambaSecret pipe.dd

/-- What a shell variable keeps of the output of a command. -/
def substitution (text : Text) : Text :=
  (text.filter fun byte => byte ≠ 0).rdropWhile (· == newline)

/-- What `apply_shadow` hands to `openssl` of the stored password. -/
def hashInput (stored : Text) : Option Text :=
  (normalizeSecret stored).map substitution

/-- What `feed_password` hands to `smbpasswd`. -/
def feedPassword (stored : Text) : Text :=
  stored ++ newline :: stored ++ [newline]

/-! ## Secrets -/

/-- The text without one newline at its end. -/
def body (text : Text) : Text :=
  if text.getLast? = some newline then text.dropLast else text

/-- The secret is at most 256 bytes long and has no NUL, no CR and no LF. -/
def IsSecret (secret : Text) : Prop :=
  secret.length ≤ 256 ∧ ∀ byte ∈ secret, byte ≠ 0 ∧ byte ≠ carriageReturn ∧ byte ≠ newline

instance (secret : Text) : Decidable (IsSecret secret) :=
  inferInstanceAs (Decidable (_ ∧ _))

/-- The secret that a text names, where the script accepts it. -/
def secretOf (allowed : Text → Bool) (text : Text) : Option Text :=
  if IsSecret (body text) ∧ allowed (body text) = true then some (body text) else none

def nonempty (secret : Text) : Bool :=
  !secret.isEmpty

theorem bytesWithout_eq_length {byte : UInt8} {text : Text} :
    text.length = bytesWithout byte text ↔ byte ∉ text := by
  rw [bytesWithout, eq_comm, List.length_filter_eq_length_iff]
  simp only [ne_eq, decide_eq_true_eq]
  exact ⟨fun absent member => absent byte member rfl, fun absent other member same =>
    absent (same ▸ member)⟩

theorem length_sub_bytesWithout (byte : UInt8) (text : Text) :
    text.length - bytesWithout byte text = text.count byte := by
  have split := List.length_eq_countP_add_countP (fun other => other = byte) (l := text)
  have counted : text.count byte = text.countP fun other => decide (other = byte) := by
    rw [List.count]
    congr 1
  rw [bytesWithout, ← List.countP_eq_length_filter, counted]
  simp only [ne_eq, decide_not, decide_eq_true_eq] at split ⊢
  omega

/-- The text is its body, or its body and a newline. -/
theorem body_cases (text : Text) : (text = body text ∧ text.getLast? ≠ some newline) ∨
    text = body text ++ [newline] := by
  unfold body
  split
  · rename_i ends
    right
    rcases List.getLast?_eq_some_iff.mp ends with ⟨front, rfl⟩
    rw [List.dropLast_concat]
  · rename_i open'
    exact .inl ⟨rfl, open'⟩

/-- A text that goes on after `first` has all of `first` in its body. -/
theorem body_append (first : Text) {rest : Text} (more : rest ≠ []) :
    ∃ tail, body (first ++ rest) = first ++ tail ∧
      (tail = rest ∨ rest = tail ++ [newline]) := by
  unfold body
  split
  · rename_i ends
    rcases List.eq_nil_or_concat' rest with rfl | ⟨tail, last, rfl⟩
    · exact absurd rfl more
    · rw [← List.append_assoc, List.getLast?_concat] at ends
      refine ⟨tail, ?_, .inr ?_⟩
      · rw [← List.append_assoc, List.dropLast_concat]
      · rw [Option.some.inj ends]
  · exact ⟨rest, rfl, .inl rfl⟩

theorem body_subset (text : Text) : body text ⊆ text := by
  intro byte member
  rcases body_cases text with ⟨same, _⟩ | ended
  · exact same ▸ member
  · rw [ended]
    exact List.mem_append_left _ member

/-- The script's counts, said of the text. -/
theorem normalizeSecret_cases (text : Text) : normalizeSecret text =
    if (0 : UInt8) ∈ text ∨ carriageReturn ∈ text then none
    else if text.count newline = 0 then
      if text.length ≤ 256 then some text else none
    else if text.count newline = 1 ∧ text.length ≤ 257 ∧ text.getLast? = some newline then
      some text.dropLast
    else none := by
  have last (front : Text) (final : UInt8) :
      bytesWithout newline ((front ++ [final]).drop ((front ++ [final]).length - 1)) = 0 ↔
        final = newline := by
    simp [bytesWithout]
  unfold normalizeSecret
  simp only [length_sub_bytesWithout, ne_eq, bytesWithout_eq_length, Decidable.not_not]
  rcases List.eq_nil_or_concat' text with rfl | ⟨front, final, rfl⟩
  · simp
  · by_cases zero : (0 : UInt8) ∈ front ++ [final]
    · simp only [zero, if_true, true_or]
    · by_cases carriage : carriageReturn ∈ front ++ [final]
      · simp only [zero, carriage, if_true, if_false, or_true]
      · simp only [zero, carriage, if_false, or_self, last, List.getLast?_concat,
          List.dropLast_concat, Option.some.injEq]
        by_cases none' : (front ++ [final]).count newline = 0
        · simp only [none', if_true]
        · by_cases single : (front ++ [final]).count newline = 1
          · simp only [single, if_true, true_and]
            by_cases short : (front ++ [final]).length ≤ 257
            · by_cases ended : final = newline
              · cases front <;> simp_all
              · simp [ended]
            · simp only [short, not_false_eq_true, if_true, false_and, if_false]
          · simp only [none', single, if_false, false_and]

theorem isSecret_iff (secret : Text) : IsSecret secret ↔ secret.length ≤ 256 ∧
    ((0 : UInt8) ∉ secret ∧ carriageReturn ∉ secret) ∧ secret.count newline = 0 := by
  rw [List.count_eq_zero, IsSecret]
  refine and_congr_right fun _ => ⟨fun clean => ?_, fun clean byte member => ?_⟩
  · exact ⟨⟨fun member => (clean 0 member).1 rfl, fun member => (clean _ member).2.1 rfl⟩,
      fun member => (clean _ member).2.2 rfl⟩
  · refine ⟨?_, ?_, ?_⟩ <;> rintro rfl
    · exact clean.1.1 member
    · exact clean.1.2 member
    · exact clean.2 member

/-- The script accepts the texts that name a secret. -/
theorem normalizeSecret_eq (text : Text) :
    normalizeSecret text = secretOf (fun _ => true) text := by
  simp only [normalizeSecret_cases, secretOf, and_true]
  rcases body_cases text with ⟨same, unended⟩ | ended
  · simp only [← same, isSecret_iff, unended, and_false, if_false]
    by_cases banned : (0 : UInt8) ∈ text ∨ carriageReturn ∈ text
    · simp only [banned, if_true, not_or.symm, not_true_eq_false, false_and, and_false, if_false]
    · by_cases plain : text.count newline = 0
      · simp only [banned, plain, if_true, if_false, not_or.symm, not_false_eq_true, and_true]
      · simp only [banned, plain, if_false, and_false]
  · generalize body text = secret at ended
    subst ended
    have zero : (0 : UInt8) ∈ secret ++ [newline] ↔ (0 : UInt8) ∈ secret := by
      simp [newline]
    have carriage : carriageReturn ∈ secret ++ [newline] ↔ carriageReturn ∈ secret := by
      simp [newline, carriageReturn]
    have lines : (secret ++ [newline]).count newline = secret.count newline + 1 := by
      rw [List.count_append, List.count_singleton_self]
    simp only [zero, carriage, lines, List.getLast?_concat, List.dropLast_concat, isSecret_iff,
      Nat.succ_ne_zero, if_false, List.length_append, List.length_singleton, and_true,
      Nat.add_eq_right]
    by_cases banned : (0 : UInt8) ∈ secret ∨ carriageReturn ∈ secret
    · simp only [banned, if_true, not_or.symm, not_true_eq_false, false_and, and_false, if_false]
    · simp only [banned, if_false, not_or.symm, not_false_eq_true, true_and]
      congr 1
      rw [eq_iff_iff]
      omega

theorem sambaSecret_eq (text : Text) :
    sambaSecret text = secretOf nonempty text := by
  rw [sambaSecret, normalizeSecret_eq, secretOf, secretOf]
  by_cases secret : IsSecret (body text)
  · by_cases empty : body text = [] <;> simp [nonempty, secret, empty]
  · simp [secret]

/-! ## One read -/

/-- The pipe hands over in its first read what decides, or the read is no secret. -/
def Pipe.Decides (allowed : Text → Bool) (pipe : Pipe) : Prop :=
  pipe.dd = pipe.written ∨
    (newline ∉ pipe.dd ∧ pipe.written = pipe.dd ++ [newline]) ∨
    ¬(IsSecret (body pipe.dd) ∧ allowed (body pipe.dd) = true)

theorem Pipe.dd_append (pipe : Pipe) : ∃ rest, pipe.written = pipe.dd ++ rest ∧
    (pipe.dd = [] → rest = []) := by
  rcases pipe with ⟨_ | ⟨piece, pieces⟩, filled⟩
  · exact ⟨[], rfl, fun _ => rfl⟩
  · refine ⟨piece.drop 258 ++ pieces.flatten, ?_, fun nothing => ?_⟩
    · simp only [Pipe.written, Pipe.dd, List.headD_cons, List.flatten_cons, ← List.append_assoc,
        List.take_append_drop]
    · simp only [Pipe.dd, List.headD_cons, List.take_eq_nil_iff] at nothing
      exact absurd (nothing.resolve_left (by decide)) (filled piece List.mem_cons_self)

/-- A rejected read that is not all of the text leaves the text rejected: what is wrong with
the read is in the body of the text. -/
theorem not_isSecret_append {first rest : Text} (more : rest ≠ [])
    (bad : ¬IsSecret (body first)) : ¬IsSecret (body (first ++ rest)) := by
  rcases body_append first more with ⟨tail, whole, _⟩
  rw [whole]
  intro secret
  refine bad ⟨?_, fun byte member => ?_⟩
  · have short := secret.1
    have inner : (body first).length ≤ first.length := by
      unfold body
      split
      · rw [List.length_dropLast]
        omega
      · exact Nat.le_refl _
    rw [List.length_append] at short
    omega
  · exact secret.2 byte (List.mem_append_left _ (body_subset first member))

/-- What follows an accepted read is nothing, or one newline after a read without one. -/
theorem rest_of_same_secret {first rest secret : Text} (more : rest ≠ [])
    (read : body first = secret) (whole : body (first ++ rest) = secret) :
    newline ∉ secret → newline ∉ first ∧ rest = [newline] := by
  intro plain
  rcases body_append first more with ⟨tail, goes, rests⟩
  rcases body_cases first with ⟨same, _⟩ | ended
  · have nothing : tail = [] := by
      have lengths := congrArg List.length (goes.symm.trans (whole.trans read.symm))
      rw [List.length_append, ← same] at lengths
      exact List.length_eq_zero_iff.mp (by omega)
    refine ⟨same.symm ▸ read ▸ plain, ?_⟩
    rcases rests with kept | cut
    · exact absurd (kept.symm.trans nothing) more
    · rw [cut, nothing, List.nil_append]
  · have inside : newline ∈ secret := by
      rw [← whole, goes, ended]
      exact List.mem_append_left _ (List.mem_append_right _ (List.mem_singleton_self _))
    exact absurd inside plain

/-- A newline that begins the read and that more text follows is in the body of the text. -/
theorem not_isSecret_of_empty {first rest : Text} (more : rest ≠ []) (some' : first ≠ [])
    (empty : body first = []) : ¬IsSecret (body (first ++ rest)) := by
  rcases body_append first more with ⟨tail, whole, _⟩
  rcases body_cases first with ⟨same, _⟩ | ended
  · exact absurd (same.trans empty) some'
  · rw [whole, ended, empty]
    intro secret
    exact (secret.2 newline (by simp)).2.2 rfl

/-- The read and the whole text name the same secret exactly when the pipe decides in its
first read. -/
theorem secretOf_dd_iff (pipe : Pipe) {allowed : Text → Bool}
    (refuses : ∀ secret, allowed secret = false → secret = []) :
    secretOf allowed pipe.dd = secretOf allowed pipe.written ↔ pipe.Decides allowed := by
  rcases pipe.dd_append with ⟨rest, whole, ends⟩
  unfold Pipe.Decides
  rw [whole, List.append_right_inj, List.self_eq_append_right]
  by_cases nothing : rest = []
  · simp only [nothing, List.append_nil, true_or]
  · simp only [nothing, false_or]
    have started : pipe.dd ≠ [] := fun empty => nothing (ends empty)
    by_cases accepted : IsSecret (body pipe.dd) ∧ allowed (body pipe.dd) = true
    · rw [or_iff_left (not_not_intro accepted), secretOf, if_pos accepted]
      constructor
      · intro same
        rw [secretOf] at same
        split at same
        · exact rest_of_same_secret nothing rfl (Option.some.inj same).symm
            fun member => (accepted.1.2 newline member).2.2 rfl
        · exact absurd same (Option.some_ne_none _)
      · rintro ⟨plain, rfl⟩
        have first : body pipe.dd = pipe.dd := by
          unfold body
          split
          · rename_i ended
            exact absurd (List.mem_of_getLast? ended) plain
          · rfl
        have all : body (pipe.dd ++ [newline]) = pipe.dd := by
          rw [body, if_pos List.getLast?_concat, List.dropLast_concat]
        rw [secretOf, all, first, if_pos (first ▸ accepted)]
    · simp only [accepted, not_false_eq_true, or_true, iff_true]
      have rejected : ¬(IsSecret (body (pipe.dd ++ rest)) ∧
          allowed (body (pipe.dd ++ rest)) = true) := by
        by_cases secret : IsSecret (body pipe.dd)
        · have empty : body pipe.dd = [] := by
            refine refuses _ ?_
            simpa [secret] using accepted
          exact fun both => not_isSecret_of_empty nothing started empty both.1
        · exact fun both => not_isSecret_append nothing secret both.1
      rw [secretOf, secretOf, if_neg accepted, if_neg rejected]

/-! ## What is passed on -/

/-- A secret goes through the shell variable and through the second reading as it is. -/
theorem hashInput_of_isSecret {secret : Text} (clean : IsSecret secret) :
    hashInput secret = some secret := by
  have unended : secret.getLast? ≠ some newline := fun ended =>
    (clean.2 newline (List.mem_of_getLast? ended)).2.2 rfl
  have whole : body secret = secret := if_neg unended
  have zero : secret.filter (fun byte => byte ≠ 0) = secret := by
    refine List.filter_eq_self.mpr fun byte member => ?_
    exact decide_eq_true (clean.2 byte member).1
  have kept : substitution secret = secret := by
    rw [substitution, zero, List.rdropWhile_eq_self_iff]
    intro nonempty ended
    rw [beq_iff_eq] at ended
    exact unended (ended ▸ List.getLast?_eq_some_getLast nonempty)
  rw [hashInput, normalizeSecret_eq, secretOf, whole, if_pos ⟨clean, rfl⟩, Option.map_some, kept]

theorem isSecret_of_secretOf {allowed : Text → Bool} {text secret : Text}
    (accepted : secretOf allowed text = some secret) : IsSecret secret := by
  rw [secretOf] at accepted
  split at accepted
  · rename_i holds
    exact Option.some.inj accepted ▸ holds.1
  · exact absurd accepted.symm (Option.some_ne_none _)

/-- `smbpasswd` reads the secret on two lines. -/
theorem feedPassword_splitOn {secret : Text} (clean : IsSecret secret) :
    (feedPassword secret).splitOn newline = [secret, secret, []] := by
  have whole : ∀ line ∈ [secret, secret, []], newline ∉ line := by
    have plain : newline ∉ secret := fun member => (clean.2 newline member).2.2 rfl
    simp [plain]
  have joined : feedPassword secret = [newline].intercalate [secret, secret, []] := by
    simp [feedPassword, List.intercalate]
  rw [joined, List.splitOn_intercalate newline whole (List.cons_ne_nil _ _)]

/-! ## Both scripts -/

/-- Both scripts take the secret of the whole text exactly when the pipe decides in its first
read, and what they take they pass on byte for byte. -/
theorem secret_taken_whole_iff (pipe : Pipe) :
    (sshSet pipe = secretOf (fun _ => true) pipe.written ↔ pipe.Decides fun _ => true) ∧
    (sambaSet pipe = secretOf nonempty pipe.written ↔ pipe.Decides nonempty) ∧
    (∀ secret, sshSet pipe = some secret → hashInput secret = some secret) ∧
    ∀ secret, sambaSet pipe = some secret →
      (feedPassword secret).splitOn newline = [secret, secret, []] := by
  have ssh : sshSet pipe = secretOf (fun _ => true) pipe.dd := normalizeSecret_eq pipe.dd
  have samba : sambaSet pipe = secretOf nonempty pipe.dd := sambaSecret_eq pipe.dd
  have refuses (secret : Text) (empty : nonempty secret = false) : secret = [] := by
    rwa [nonempty, Bool.not_eq_false', List.isEmpty_iff] at empty
  rw [ssh, samba]
  refine ⟨secretOf_dd_iff pipe fun _ never => absurd never nofun, secretOf_dd_iff pipe refuses,
    fun secret taken => ?_, fun secret taken => ?_⟩
  · exact hashInput_of_isSecret (isSecret_of_secretOf taken)
  · exact feedPassword_splitOn (isSecret_of_secretOf taken)

/-- A password that comes in two pieces. -/
def torn : Pipe where
  pieces := [ascii "abc", ascii "def\n"]
  filled := by decide

/-- Both scripts store the first piece of a torn password. -/
theorem torn_is_truncated :
    secretOf (fun _ => true) torn.written = some (ascii "abcdef") ∧
    secretOf nonempty torn.written = some (ascii "abcdef") ∧
    sshSet torn = some (ascii "abc") ∧ sambaSet torn = some (ascii "abc") := by
  decide +kernel

end Zlyme.Net.SecretIntake
