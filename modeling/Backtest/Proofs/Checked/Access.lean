import Backtest.Text.Bytes

/-!
Checked accesses. A result of none stands for an access that is not allowed: a difference below
zero, a slice out of range, a byte of a text that lies past its end or inside a character.
-/

namespace Backtest.Proofs.Checked

open Backtest.Text

section Outcome

variable {ε β γ : Type}

/-- The outcome of a computation all of whose accesses are allowed. -/
def allowed (outcome : Except ε β) : ExceptT ε Option β := some outcome

theorem allowed_bind {outcome : Except ε β} {next : β → Except ε γ}
    {checked : β → ExceptT ε Option γ} (h : ∀ value, checked value = allowed (next value)) :
    allowed outcome >>= checked = allowed (outcome >>= next) := by
  cases outcome with
  | error error => rfl
  | ok value => exact h value

theorem allowed_map (f : β → γ) (outcome : Except ε β) :
    f <$> allowed outcome = allowed (f <$> outcome) := by
  cases outcome <;> rfl

theorem allowed_bind_map {f : β → γ} {outcome : Except ε β} {checked : β → ExceptT ε Option γ}
    (h : ∀ value, checked value = allowed (.ok (f value))) :
    allowed outcome >>= checked = allowed (f <$> outcome) := by
  cases outcome with
  | error error => rfl
  | ok value => exact h value

theorem lift_bind (value : β) (checked : β → ExceptT ε Option γ) :
    ExceptT.lift (some value) >>= checked = checked value := rfl

end Outcome

/-- A difference that must not be negative. -/
def sub (a b : Nat) : Option Nat := if b ≤ a then some (a - b) else none

theorem sub_eq {a b : Nat} (h : b ≤ a) : sub a b = some (a - b) := if_pos h

theorem sub_add_self (a b : Nat) : sub (a + b) a = some b := by
  rw [sub_eq (Nat.le_add_right a b), Nat.add_sub_cancel_left]

def slice {α : Type} (xs : List α) (first last : Nat) : Option (List α) :=
  if first ≤ last ∧ last ≤ xs.length then some ((xs.take last).drop first) else none

theorem mapM_eq_map {β γ : Type} {f : β → Option γ} {g : β → γ} {xs : List β}
    (h : ∀ x ∈ xs, f x = some (g x)) : xs.mapM f = some (xs.map g) := by
  induction xs with
  | nil => rfl
  | cons x xs ih =>
      obtain ⟨hx, hxs⟩ := List.forall_mem_cons.mp h
      rw [List.mapM_cons, hx, ih hxs]
      rfl

def textFrom : List Char → Nat → Option (List Char)
  | text, 0 => some text
  | [], _ + 1 => none
  | c :: rest, byte + 1 => (sub (byte + 1) c.utf8Size).bind (textFrom rest)

def textBefore : List Char → Nat → Option (List Char)
  | _, 0 => some []
  | [], _ + 1 => none
  | c :: rest, byte + 1 => (sub (byte + 1) c.utf8Size).bind fun inner =>
    (textBefore rest inner).map (c :: ·)

def textBetween (text : List Char) (first last : Nat) : Option (List Char) := do
  let rest ← textFrom text first
  textBefore rest (← sub last first)

/-- The byte is on a boundary of a text, and the rest is what follows it. -/
def At (text : List Char) (byte : Nat) (rest : List Char) : Prop :=
  ∃ front, text = front ++ rest ∧ byte = byteLength front

theorem byteLength_append (front rest : List Char) :
    byteLength (front ++ rest) = byteLength front + byteLength rest := by
  induction front with
  | nil => exact (Nat.zero_add _).symm
  | cons c front ih => rw [List.cons_append, byteLength, byteLength, ih, Nat.add_assoc]

theorem exists_byteLength_cons (c : Char) (front : List Char) :
    ∃ byte, byteLength (c :: front) = byte + 1 :=
  Nat.exists_eq_succ_of_ne_zero
    (Nat.ne_of_gt (Nat.add_pos_left c.utf8Size_pos (byteLength front)))

theorem textFrom_append (front rest : List Char) :
    textFrom (front ++ rest) (byteLength front) = some rest := by
  induction front with
  | nil => rw [byteLength, textFrom]; rfl
  | cons c front ih =>
      obtain ⟨byte, hbyte⟩ := exists_byteLength_cons c front
      rw [hbyte, List.cons_append, textFrom, ← hbyte, byteLength, sub_add_self]
      exact ih

theorem textBefore_append (front rest : List Char) :
    textBefore (front ++ rest) (byteLength front) = some front := by
  induction front with
  | nil => rw [byteLength, textBefore]
  | cons c front ih =>
      obtain ⟨byte, hbyte⟩ := exists_byteLength_cons c front
      rw [hbyte, List.cons_append, textBefore, ← hbyte, byteLength, sub_add_self, Option.bind_some,
        ih, Option.map_some]

section At

variable {text lexeme rest : List Char} {byte : Nat}

theorem at_start (text : List Char) : At text 0 text := ⟨[], rfl, rfl⟩

theorem At.textFrom_eq (h : At text byte rest) : textFrom text byte = some rest := by
  obtain ⟨front, rfl, rfl⟩ := h
  exact textFrom_append front rest

theorem At.advance (h : At text byte (lexeme ++ rest)) :
    At text (byte + byteLength lexeme) rest := by
  obtain ⟨front, rfl, rfl⟩ := h
  exact ⟨front ++ lexeme, (List.append_assoc front lexeme rest).symm,
    (byteLength_append front lexeme).symm⟩

theorem At.textBetween_eq (h : At text byte (lexeme ++ rest)) :
    textBetween text byte (byte + byteLength lexeme) = some lexeme := by
  rw [textBetween, h.textFrom_eq, sub_add_self]
  exact textBefore_append lexeme rest

theorem at_of_textFrom (h : textFrom text byte = some rest) : At text byte rest := by
  induction text generalizing byte with
  | nil =>
      cases byte with
      | zero => exact ⟨[], Option.some.inj h, rfl⟩
      | succ byte => cases h
  | cons c text ih =>
      cases byte with
      | zero => exact ⟨[], Option.some.inj h, rfl⟩
      | succ byte =>
          rw [textFrom, sub] at h
          split at h
          · next hle =>
              obtain ⟨front, rfl, hfront⟩ := ih h
              refine ⟨c :: front, rfl, ?_⟩
              rw [byteLength, ← hfront]
              omega
          · cases h

theorem At.lt_byteLength {c : Char} (h : At text byte (c :: rest)) : byte < byteLength text := by
  obtain ⟨front, rfl, rfl⟩ := h
  have hpos := c.utf8Size_pos
  rw [byteLength_append, byteLength]
  omega

end At

end Backtest.Proofs.Checked
