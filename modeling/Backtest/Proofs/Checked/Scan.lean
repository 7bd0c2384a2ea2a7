import Backtest.Proofs.Checked.Access
import Backtest.Proofs.Spelling

namespace Backtest.Proofs.Checked

open Backtest.Rule
open Backtest.Text
open Backtest.Proofs.Scanner
open Backtest.Proofs.Spelling

/-- The first byte from another one on whose character does not satisfy a condition. -/
def passWhile (p : Char → Bool) (text : List Char) (byte : Nat) : Option Nat :=
  match _h : textFrom text byte with
  | none => none
  | some [] => some byte
  | some (c :: _) => if p c then passWhile p text (byte + c.utf8Size) else some byte
  termination_by byteLength text - byte
  decreasing_by
    have hlt := (at_of_textFrom _h).lt_byteLength
    have hpos := c.utf8Size_pos
    omega

def wordAt (text : List Char) (byte : Nat) : Option (Token × Nat) := do
  let stop ← passWhile Scan.isWordChar text byte
  let word ← textBetween text byte stop
  let rest ← textFrom text stop
  return (Scan.wordToken word rest, stop)

def numberEnd (text : List Char) (byte : Nat) : Option Nat := do
  let stop ← passWhile Char.isDigit text byte
  match ← textFrom text stop with
  | '.' :: c :: _ => if c.isDigit then passWhile Char.isDigit text (stop + 1) else return stop
  | _ => return stop

def numberAt (text : List Char) (byte : Nat) : Option (Token × Nat) := do
  let stop ← numberEnd text byte
  let literal ← textBetween text byte stop
  let value := Decimal.ofDigits (literal.takeWhile Char.isDigit)
    ((literal.dropWhile Char.isDigit).drop 1)
  return (.number value.toFloat, stop)

def symbolAt (text : List Char) (c : Char) (byte : Nat) : Option (Option (Option Token × Nat)) := do
  let rest ← textFrom text (byte + c.utf8Size)
  return (Scan.symbol? (c :: rest)).map fun piece =>
    (piece.token?, byte + byteLength piece.lexeme)

/-- The token of the piece at a byte, which is none for a blank and a comment, and the byte after
it. No piece starts with a character for which nothing is found. -/
def pieceAt (text : List Char) (c : Char) (byte : Nat) :
    Option (Option (Option Token × Nat)) :=
  if isBlank c then some (some (none, byte + c.utf8Size))
  else if c = '#' then (passWhile (· != '\n') text byte).map fun stop => some (none, stop)
  else if Scan.isWordStart c then
    (wordAt text byte).map fun (token, stop) => some (some token, stop)
  else if c.isDigit then
    (numberAt text byte).map fun (token, stop) => some (some token, stop)
  else symbolAt text c byte

/-- The tokens from a byte on. A piece has to lead on to a later byte. -/
def scanAt (text : List Char) (byte : Nat) : Option (Except ScanError (List Lexeme)) :=
  match _h : textFrom text byte with
  | none => none
  | some [] => some (.ok [⟨.stop, byte⟩])
  | some (c :: _) =>
    match pieceAt text c byte with
    | none => none
    | some none => some (.error ⟨c, byte⟩)
    | some (some (token?, next)) =>
      if byte < next then
        match token? with
        | some token => (scanAt text next).map (Except.map (⟨token, byte⟩ :: ·))
        | none => scanAt text next
      else none
  termination_by byteLength text - byte
  decreasing_by
    all_goals
      have hlt := (at_of_textFrom _h).lt_byteLength
      omega

section Scan

variable {text rest : List Char} {c : Char} {byte : Nat}

theorem At.tail (h : At text byte (c :: rest)) : At text (byte + c.utf8Size) rest := by
  have hfront : At text byte ([c] ++ rest) := h
  exact hfront.advance

theorem passWhile_nil (p : Char → Bool) (h : At text byte []) :
    passWhile p text byte = some byte := by
  rw [passWhile.eq_def]
  split
  · next hnone => cases h.textFrom_eq.symm.trans hnone
  · rfl
  · next hcons => cases h.textFrom_eq.symm.trans hcons

theorem passWhile_cons (p : Char → Bool) (h : At text byte (c :: rest)) :
    passWhile p text byte =
      if p c then passWhile p text (byte + c.utf8Size) else some byte := by
  rw [passWhile.eq_def]
  split
  · next hnone => cases h.textFrom_eq.symm.trans hnone
  · next hnil => cases h.textFrom_eq.symm.trans hnil
  · next hcons =>
      obtain ⟨rfl, -⟩ := List.cons.inj (Option.some.inj (h.textFrom_eq.symm.trans hcons))
      rfl

theorem passWhile_eq (p : Char → Bool) (h : At text byte rest) :
    passWhile p text byte = some (byte + byteLength (rest.takeWhile p)) := by
  induction rest generalizing byte with
  | nil => exact passWhile_nil p h
  | cons c rest ih =>
      rw [passWhile_cons p h, List.takeWhile_cons]
      split
      · rw [ih h.tail, byteLength, Nat.add_assoc]
      · rfl

theorem At.dropWhile (p : Char → Bool) (h : At text byte rest) :
    At text (byte + byteLength (rest.takeWhile p)) (rest.dropWhile p) := by
  rw [← List.takeWhile_append_dropWhile (p := p) (l := rest)] at h
  exact h.advance

theorem takeWhile_eq (p : Char → Bool) (h : At text byte rest) :
    textBetween text byte (byte + byteLength (rest.takeWhile p)) = some (rest.takeWhile p) := by
  rw [← List.takeWhile_append_dropWhile (p := p) (l := rest)] at h
  exact h.textBetween_eq

theorem wordAt_eq (h : At text byte rest) :
    wordAt text byte = some (Scan.wordToken (rest.takeWhile Scan.isWordChar)
        (rest.dropWhile Scan.isWordChar),
      byte + byteLength (rest.takeWhile Scan.isWordChar)) := by
  simp only [wordAt, passWhile_eq _ h, takeWhile_eq _ h, (h.dropWhile _).textFrom_eq,
    Option.bind_eq_bind, Option.bind_some]
  rfl

def HasFraction (after : List Char) : Prop :=
  ∃ c more, after = '.' :: c :: more ∧ c.isDigit = true

theorem hasFraction_iff {after : List Char} :
    HasFraction after ↔
      after.head? = some '.' ∧ (after.drop 1).takeWhile Char.isDigit ≠ [] := by
  constructor
  · rintro ⟨c, more, rfl, hdigit⟩
    exact ⟨rfl, Scan.takeWhile_cons_ne_nil hdigit⟩
  · rintro ⟨hpoint, hdigits⟩
    cases after with
    | nil => cases hpoint
    | cons point after =>
        obtain rfl := Option.some.inj hpoint
        cases after with
        | nil => exact absurd rfl hdigits
        | cons c more =>
            exact ⟨c, more, rfl, Decidable.byContradiction fun hdigit =>
              hdigits (List.takeWhile_cons_of_neg hdigit)⟩

theorem numberEnd_eq (h : At text byte rest) :
    numberEnd text byte = some (byte + byteLength (Scan.number rest).lexeme) := by
  have hafter := h.dropWhile Char.isDigit
  simp only [numberEnd, passWhile_eq _ h, hafter.textFrom_eq, Option.bind_eq_bind, Option.bind_some]
  by_cases hfraction : HasFraction (rest.dropWhile Char.isDigit)
  · rw [Scan.number, if_pos (hasFraction_iff.mp hfraction)]
    obtain ⟨c, more, hsplit, hdigit⟩ := hfraction
    rw [hsplit] at hafter ⊢
    split
    · next c' more' hcons =>
        obtain ⟨rfl, rfl⟩ := List.cons.inj (List.cons.inj hcons).2
        rw [if_pos hdigit]
        refine (passWhile_eq Char.isDigit hafter.tail).trans ?_
        rw [byteLength_append, byteLength, Nat.add_assoc, Nat.add_assoc]
        rfl
    · next hother => exact absurd rfl (hother c more)
  · rw [Scan.number, if_neg fun hboth => hfraction (hasFraction_iff.mpr hboth)]
    split
    · next c more hsplit =>
        rw [if_neg fun hdigit => hfraction ⟨c, more, hsplit, hdigit⟩]
        rfl
    · rfl

theorem number_token (rest : List Char) : (Scan.number rest).token? = some (.number
    (Decimal.ofDigits ((Scan.number rest).lexeme.takeWhile Char.isDigit)
      (((Scan.number rest).lexeme.dropWhile Char.isDigit).drop 1)).toFloat) := by
  have hdigits : ∀ c ∈ rest.takeWhile Char.isDigit, c.isDigit = true :=
    List.all_eq_true.mp List.all_takeWhile
  rw [Scan.number]
  split
  · have hpoint (more : List Char) : ∀ c ∈ ('.' :: more).head?, c.isDigit = false := by simp
    rw [(takeWhile_append_of_stops hdigits (hpoint _)).1,
      (takeWhile_append_of_stops hdigits (hpoint _)).2]
    rfl
  · rw [List.takeWhile_eq_self_iff.mpr hdigits, List.dropWhile_eq_nil_iff.mpr hdigits]
    rfl

theorem numberAt_eq (h : At text byte rest) :
    ∃ token, (Scan.number rest).token? = some token ∧
      numberAt text byte = some (token, byte + byteLength (Scan.number rest).lexeme) := by
  have hlexeme : At text byte ((Scan.number rest).lexeme ++ (Scan.number rest).rest) := by
    rwa [Scan.number_lexeme_append_rest]
  refine ⟨_, number_token rest, ?_⟩
  simp only [numberAt, numberEnd_eq h, hlexeme.textBetween_eq, Option.bind_eq_bind,
    Option.bind_some]
  rfl

theorem pieceAt_eq (h : At text byte (c :: rest)) :
    pieceAt text c byte = some ((Scan.next? c rest).map fun piece =>
      (piece.token?, byte + byteLength piece.lexeme)) := by
  rw [pieceAt, Scan.next?]
  split
  · rfl
  split
  · rw [passWhile_eq _ h]
    rfl
  split
  · rw [wordAt_eq h]
    rfl
  split
  · obtain ⟨token, htoken, hnumber⟩ := numberAt_eq h
    rw [hnumber, Option.map_some, Option.map_some, htoken]
  · simp only [symbolAt, h.tail.textFrom_eq, Option.bind_eq_bind, Option.bind_some]
    rfl

theorem scanAt_nil (h : At text byte []) : scanAt text byte = some (.ok [⟨.stop, byte⟩]) := by
  rw [scanAt.eq_def]
  split
  · next hnone => cases h.textFrom_eq.symm.trans hnone
  · rfl
  · next hcons => cases h.textFrom_eq.symm.trans hcons

theorem scanAt_cons (h : At text byte (c :: rest)) :
    scanAt text byte = match Scan.next? c rest with
      | none => some (.error ⟨c, byte⟩)
      | some piece =>
        match piece.token? with
        | some token => (scanAt text (byte + byteLength piece.lexeme)).map
            (Except.map (⟨token, byte⟩ :: ·))
        | none => scanAt text (byte + byteLength piece.lexeme) := by
  rw [scanAt.eq_def]
  split
  · next hnone => cases h.textFrom_eq.symm.trans hnone
  · next hnil => cases h.textFrom_eq.symm.trans hnil
  · next hcons =>
      obtain ⟨rfl, -⟩ := List.cons.inj (Option.some.inj (h.textFrom_eq.symm.trans hcons))
      rw [pieceAt_eq h]
      cases hpiece : Scan.next? c rest with
      | none => rfl
      | some piece =>
          obtain ⟨first, others, hlexeme⟩ := List.exists_cons_of_ne_nil (Scan.lexeme_ne_nil hpiece)
          obtain ⟨size, hsize⟩ := exists_byteLength_cons first others
          have hlater : byte < byte + byteLength piece.lexeme := by
            rw [hlexeme, hsize]
            omega
          dsimp only [Option.map_some]
          rw [if_pos hlater]

theorem At.piece {piece : Scan.Piece} (h : At text byte (c :: rest))
    (hpiece : Scan.next? c rest = some piece) :
    At text (byte + byteLength piece.lexeme) piece.rest := by
  rw [← Scan.lexeme_append_rest hpiece] at h
  exact h.advance

/-- The checked scanner scans what the scanner scans. -/
theorem scanAt_eq (h : At text byte rest) : scanAt text byte = some (Scan.scanFrom byte rest) := by
  fun_induction Scan.scanFrom byte rest with
  | case1 byte => exact scanAt_nil h
  | case2 byte c rest hnone => rw [scanAt_cons h, hnone]
  | case3 byte c rest piece hpiece following token htoken ih =>
      rw [scanAt_cons h, hpiece]
      dsimp only
      rw [htoken, ih (h.piece hpiece)]
      rfl
  | case4 byte c rest piece hpiece following htoken ih =>
      rw [scanAt_cons h, hpiece]
      dsimp only
      rw [htoken, ih (h.piece hpiece)]

end Scan

end Backtest.Proofs.Checked
