import Backtest.Proofs.NumberText

namespace Backtest.Proofs.NumeralReading

open Backtest.Binary64
open Backtest.Proofs.NumberText
open Backtest.Proofs.Representable
open Backtest.Proofs.Spelling

theorem splitSign_of_isDigit {c : Char} (hc : c.isDigit = true) (rest : List Char) :
    Decimal.splitSign (c :: rest) = (false, c :: rest) := by
  unfold Decimal.splitSign
  split
  · next h =>
      obtain ⟨rfl, -⟩ := List.cons.inj h
      exact absurd hc (by decide)
  · next h =>
      obtain ⟨rfl, -⟩ := List.cons.inj h
      exact absurd hc (by decide)
  · rfl

theorem ofUnsigned?_literal (negative : Bool) {whole fraction : List Char}
    (hwhole : IsDigits whole) (hfraction : ∀ c ∈ fraction, c.isDigit = true) :
    Decimal.ofUnsigned? negative (literal whole fraction) =
      some { Decimal.ofDigits whole fraction with negative } := by
  cases fraction with
  | nil =>
      have htake := List.takeWhile_eq_self_iff.mpr hwhole.digits
      have hdrop := List.dropWhile_eq_nil_iff.mpr hwhole.digits
      simp [Decimal.ofUnsigned?, literal, htake, hdrop, hwhole.nonempty, Decimal.exponentOf?]
  | cons c fraction =>
      have hpoint : ∀ d ∈ ('.' :: c :: fraction).head?, d.isDigit = false := by
        rintro d ⟨⟩
        rfl
      obtain ⟨htake, hdrop⟩ := takeWhile_append_of_stops hwhole.digits hpoint
      have htake' := List.takeWhile_eq_self_iff.mpr hfraction
      have hdrop' := List.dropWhile_eq_nil_iff.mpr hfraction
      simp [Decimal.ofUnsigned?, literal, htake, hdrop, htake', hdrop', hwhole.nonempty,
        Decimal.exponentOf?]

/-- What `readNumeral` makes of a text behind its sign. -/
def readUnsigned (negative : Bool) (text : List Char) : Except NumeralError Float :=
  match String.ofList (text.map Char.toLower) with
  | "nan" => .ok (0.0 / 0.0)
  | "inf" | "infinity" => .ok (ofSignBits negative infinityBits)
  | _ =>
    match Decimal.ofUnsigned? negative text with
    | some d => .ok d.toFloat
    | none => .error .malformed

theorem readNumeral_cons (c : Char) (rest : List Char) :
    readNumeral (c :: rest) =
      readUnsigned (Decimal.splitSign (c :: rest)).1 (Decimal.splitSign (c :: rest)).2 := rfl

theorem readUnsigned_literal (negative : Bool) {whole fraction : List Char}
    (hwhole : IsDigits whole) (hfraction : ∀ c ∈ fraction, c.isDigit = true) :
    readUnsigned negative (literal whole fraction) =
      .ok (ofSignBits negative (Decimal.ofDigits whole fraction).magnitudeBits) := by
  have hword {word : String} (hletter : ∃ c rest, word.toList = c :: rest ∧ c.isDigit = false)
      (h : String.ofList ((literal whole fraction).map Char.toLower) = word) : False := by
    obtain ⟨c, rest, hword, hc⟩ := hletter
    obtain ⟨d, tail, hliteral, hd⟩ := exists_literal_cons hwhole fraction
    have hlist := congrArg String.toList h
    rw [String.toList_ofList, hliteral, hword, List.map_cons] at hlist
    obtain ⟨rfl, -⟩ := List.cons.inj hlist
    have hrange := toNat_of_isDigit hd
    have hlower : d.toLower = d := Char.toLower_eq_of_not_isUpper fun hupper => by
      have hcapital : 65 ≤ d.toNat := by
        simp only [Char.isUpper, decide_eq_true_eq] at hupper
        exact UInt32.le_iff_toNat_le.mp hupper.1
      omega
    rw [hlower, hd] at hc
    exact nomatch hc
  unfold readUnsigned
  split
  · next h => exact (hword ⟨_, _, rfl, rfl⟩ h).elim
  · next h => exact (hword ⟨_, _, rfl, rfl⟩ h).elim
  · next h => exact (hword ⟨_, _, rfl, rfl⟩ h).elim
  · rw [ofUnsigned?_literal negative hwhole hfraction]
    rfl

theorem readNumeral_literal {whole fraction : List Char} (hwhole : IsDigits whole)
    (hfraction : ∀ c ∈ fraction, c.isDigit = true) :
    readNumeral (literal whole fraction) = .ok (Decimal.ofDigits whole fraction).toFloat := by
  have hread := readUnsigned_literal false hwhole hfraction
  obtain ⟨c, rest, hliteral, hc⟩ := exists_literal_cons hwhole fraction
  rw [hliteral] at hread ⊢
  rw [readNumeral_cons, splitSign_of_isDigit hc]
  exact hread

theorem readNumeral_shortestText (x : Float) : readNumeral (shortestText x).toList = .ok x := by
  cases hparts : parts x with
  | nan =>
      have htext : shortestText x = "NaN" := by simp [shortestText, hparts]
      rw [htext, eq_nan_of_parts hparts]
      rfl
  | infinite negative =>
      have htext : shortestText x = if negative then "-inf" else "inf" := by
        simp [shortestText, hparts]
      rw [htext, ← ofSignBits_of_infinite hparts]
      cases negative <;> rfl
  | finite negative mantissa exponent =>
      obtain ⟨whole, fraction, hwhole, hfraction, htext, hvalue⟩ := exists_literal hparts
      rw [htext]
      cases negative with
      | false => exact hvalue ▸ readNumeral_literal hwhole hfraction
      | true => exact hvalue ▸ readUnsigned_literal true hwhole hfraction

end Backtest.Proofs.NumeralReading
