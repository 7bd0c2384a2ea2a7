import Backtest.Proofs.Representable
import Backtest.Proofs.Spelling

namespace Backtest.Proofs.NumberText

open Backtest.Binary64
open Backtest.Proofs.Representable
open Backtest.Proofs.Spelling

theorem valueOf_append (front back : List Char) :
    Decimal.valueOf (front ++ back) = Nat.ofDigitChars 10 back (Decimal.valueOf front) := by
  rw [Nat.ofDigitChars_eq_foldl, Decimal.valueOf, List.foldl_append]
  rfl

theorem valueOf_eq_ofDigitChars (digits : List Char) :
    Decimal.valueOf digits = Nat.ofDigitChars 10 digits 0 :=
  valueOf_append [] digits

theorem valueOf_toDigits (n : Nat) : Decimal.valueOf (Nat.toDigits 10 n) = n := by
  rw [valueOf_eq_ofDigitChars, Nat.ofDigitChars_toDigits (by decide) (by decide)]

theorem valueOf_append_zeros (digits : List Char) (zeros : Nat) :
    Decimal.valueOf (digits ++ List.replicate zeros '0') =
      Decimal.valueOf digits * 10 ^ zeros := by
  rw [valueOf_append, Nat.ofDigitChars_replicate_zero, Nat.mul_comm]

theorem valueOf_zeros_append (zeros : Nat) (digits : List Char) :
    Decimal.valueOf (List.replicate zeros '0' ++ digits) = Decimal.valueOf digits := by
  rw [valueOf_append, valueOf_eq_ofDigitChars, Nat.ofDigitChars_replicate_zero, Nat.mul_zero,
    ← valueOf_eq_ofDigitChars]

theorem isDigits_toDigits (n : Nat) : IsDigits (Nat.toDigits 10 n) :=
  ⟨Nat.toDigits_ne_nil, fun _ hmem => Nat.isDigit_of_mem_toDigits (by decide) (by decide) hmem⟩

theorem isDigit_of_mem_zeros {c : Char} {zeros : Nat} (hmem : c ∈ List.replicate zeros '0') :
    c.isDigit = true := by
  rw [List.eq_of_mem_replicate hmem]
  rfl

theorem literal_of_ne_nil {whole fraction : List Char} (hnonempty : fraction ≠ []) :
    literal whole fraction = whole ++ '.' :: fraction := by
  cases fraction with
  | nil => exact absurd rfl hnonempty
  | cons c rest => rfl

theorem withPoint_eq_literal (places : Nat) {digits : List Char} (hdigits : IsDigits digits) :
    ∃ whole fraction, IsDigits whole ∧ (∀ c ∈ fraction, c.isDigit = true) ∧
      Decimal.withPoint places digits = literal whole fraction ∧
      fraction.length = places ∧
      Decimal.valueOf (whole ++ fraction) = Decimal.valueOf digits := by
  by_cases hnone : places = 0
  · refine ⟨digits, [], hdigits, nofun, ?_, hnone.symm, by rw [List.append_nil]⟩
    rw [Decimal.withPoint, if_pos hnone]
    rfl
  · obtain ⟨padded, hfill⟩ :
        ∃ padded, padded = List.replicate (places + 1 - digits.length) '0' ++ digits := ⟨_, rfl⟩
    have hlong : places < padded.length := by
      rw [hfill, List.length_append, List.length_replicate]
      omega
    have hall : ∀ c ∈ padded, c.isDigit = true := by
      intro c hmem
      rw [hfill] at hmem
      rcases List.mem_append.mp hmem with hmem | hmem
      · exact isDigit_of_mem_zeros hmem
      · exact hdigits.digits c hmem
    have hfractionLength : (padded.drop (padded.length - places)).length = places := by
      rw [List.length_drop]
      omega
    refine ⟨padded.take (padded.length - places), padded.drop (padded.length - places),
      ⟨?_, fun c hmem => hall c (List.mem_of_mem_take hmem)⟩,
      fun c hmem => hall c (List.mem_of_mem_drop hmem), ?_, hfractionLength, ?_⟩
    · apply List.ne_nil_of_length_pos
      rw [List.length_take]
      omega
    · rw [literal_of_ne_nil (List.ne_nil_of_length_pos (by omega)), Decimal.withPoint,
        if_neg hnone, hfill]
    · rw [List.take_append_drop, hfill, valueOf_zeros_append]

/-- The decimal with its power of ten multiplied out where it is not a fraction. -/
def expanded (d : Decimal) : Decimal where
  digits := d.digits * 10 ^ d.exponent.toNat
  exponent := min 0 d.exponent

theorem positional_eq_literal {d : Decimal} (hpositive : d.negative = false) :
    ∃ whole fraction, IsDigits whole ∧ (∀ c ∈ fraction, c.isDigit = true) ∧
      d.positional = literal whole fraction ∧
      Decimal.ofDigits whole fraction = expanded d := by
  have hdigits : IsDigits (Nat.toDigits 10 d.digits ++ List.replicate d.exponent.toNat '0') := by
    refine ⟨List.append_ne_nil_of_left_ne_nil Nat.toDigits_ne_nil _, fun c hmem => ?_⟩
    rcases List.mem_append.mp hmem with hmem | hmem
    · exact (isDigits_toDigits _).digits c hmem
    · exact isDigit_of_mem_zeros hmem
  obtain ⟨whole, fraction, hwhole, hfraction, htext, hplaces, hvalue⟩ :=
    withPoint_eq_literal (-d.exponent).toNat hdigits
  refine ⟨whole, fraction, hwhole, hfraction, ?_, ?_⟩
  · rw [← htext, Decimal.positional, hpositive]
    rfl
  · rw [Decimal.ofDigits, hvalue, valueOf_append_zeros, valueOf_toDigits, hplaces, expanded]
    congr 1
    omega

theorem magnitudeBits_le (d : Decimal) : d.magnitudeBits ≤ infinityBits := by
  unfold Decimal.magnitudeBits
  split
  · exact Nat.zero_le _
  · split
    · exact le_rfl
    · split
      · exact Nat.zero_le _
      · exact min_le_left _ _

theorem magnitudeBits_expanded {d : Decimal} (hfinite : d.magnitudeBits < infinityBits) :
    (expanded d).magnitudeBits = d.magnitudeBits := by
  obtain ⟨negative, digits, exponent⟩ := d
  rcases lt_or_ge exponent 0 with hfractional | hwhole
  · have hnone : exponent.toNat = 0 := by omega
    have hleast : min 0 exponent = exponent := by omega
    rw [expanded, hnone, hleast, pow_zero, mul_one]
    rfl
  · obtain ⟨k, rfl⟩ : ∃ k : Nat, exponent = k := ⟨exponent.toNat, by omega⟩
    have hleast : min 0 (k : Int) = 0 := by omega
    by_cases hzero : digits = 0
    · simp [expanded, Decimal.magnitudeBits, hzero]
    · have hsmall : ¬400 < (k : Int) := by
        intro hlarge
        simp [Decimal.magnitudeBits, hzero, hlarge] at hfinite
      have hnear (n : Nat) : ¬(k : Int) < -400 - n := by omega
      have hnear' (n : Nat) : ¬(0 : Int) < -400 - n := by omega
      have hpositive : digits * 10 ^ k ≠ 0 := by positivity
      simp only [expanded, Decimal.magnitudeBits, Int.toNat_natCast, hleast, if_neg hzero,
        if_neg hpositive, if_neg hsmall, if_neg (hnear _), if_neg (hnear' _), Nat.pow_eq]
      simp

theorem le_log2_mul_pow_five {m : Nat} (k : Nat) (hnonzero : 0 < m) :
    k ≤ (m * 5 ^ k).log2 := by
  rw [Nat.le_log2 (by positivity)]
  calc 2 ^ k ≤ 5 ^ k := Nat.pow_le_pow_left (by decide) k
    _ ≤ m * 5 ^ k := Nat.le_mul_of_pos_left _ hnonzero

theorem magnitudeBits_ofBinary {mantissa : Nat} {exponent : Int}
    (hcanonical : IsCanonical mantissa exponent) (hnonzero : 0 < mantissa) :
    (Decimal.ofBinary mantissa exponent).magnitudeBits = encode mantissa exponent := by
  obtain ⟨up, hupEq⟩ : ∃ up, up = exponent.toNat := ⟨_, rfl⟩
  obtain ⟨down, hdownEq⟩ : ∃ down, down = (-exponent).toNat := ⟨_, rfl⟩
  have hnone : (min 0 exponent).toNat = 0 := by omega
  have hplaces : (-min 0 exponent).toNat = down := by omega
  have hdigits : mantissa * 2 ^ up * 5 ^ down ≠ 0 := by positivity
  have hlong := le_log2_mul_pow_five down (by positivity : 0 < mantissa * 2 ^ up)
  have hsmall : ¬400 < min 0 exponent := by omega
  have hnear : ¬min 0 exponent < -400 - ((mantissa * 2 ^ up * 5 ^ down).log2 : Int) := by omega
  have hvalue : HasValue (mantissa * 2 ^ up * 5 ^ down) (10 ^ down) mantissa exponent := by
    unfold HasValue
    rw [← hupEq, ← hdownEq, show 10 = 5 * 2 from rfl, mul_pow]
    ring
  simp only [Decimal.ofBinary, Decimal.magnitudeBits, Nat.pow_eq, ← hupEq, ← hdownEq, hnone,
    hplaces, if_neg hdigits, if_neg hsmall, if_neg hnear, pow_zero, mul_one]
  exact nearestBits_eq hvalue (by positivity) hnonzero hcanonical

/-- The shortest decimal of a number is read as that number. -/
theorem magnitudeBits_shortest {mantissa : Nat} {exponent : Int}
    (hcanonical : IsCanonical mantissa exponent) :
    (Decimal.shortest mantissa exponent).magnitudeBits = encode mantissa exponent := by
  unfold Decimal.shortest
  split
  · next hzero =>
      subst hzero
      obtain rfl := hcanonical.normal.resolve_left (by decide)
      rfl
  · next hnonzero =>
      have hnonzero : 0 < mantissa := by omega
      have hvalue : HasValue (mantissa * 2 ^ exponent.toNat) (2 ^ (-exponent).toNat) mantissa
          exponent := by
        unfold HasValue
        ring
      have hbits := nearestBits_eq hvalue (by positivity) hnonzero hcanonical
      simp only [Nat.pow_eq, hbits]
      generalize hsearch : List.findSome? _ _ = found
      cases found with
      | none => exact magnitudeBits_ofBinary hcanonical hnonzero
      | some d =>
          obtain ⟨count, -, hhit⟩ := List.exists_of_findSome?_eq_some hsearch
          have hreads := List.find?_some hhit
          exact of_decide_eq_true hreads

theorem shortestText_of_infinite {x : Float} (hinfinite : parts x = .infinite false) :
    shortestText x = "inf" := by
  unfold shortestText
  rw [hinfinite]
  rfl

theorem exists_literal {x : Float} {negative : Bool} {mantissa : Nat} {exponent : Int}
    (hfinite : parts x = .finite negative mantissa exponent) :
    ∃ whole fraction, IsDigits whole ∧ (∀ c ∈ fraction, c.isDigit = true) ∧
      (shortestText x).toList =
        (if negative then '-' :: literal whole fraction else literal whole fraction) ∧
      ofSignBits negative (Decimal.ofDigits whole fraction).magnitudeBits = x := by
  obtain ⟨hcanonical, hsame⟩ := isCanonical_of_parts hfinite
  have hbits := magnitudeBits_shortest hcanonical
  obtain ⟨d, hchosen⟩ : ∃ d : Decimal, d =
      { Decimal.shortest mantissa exponent with negative := false } := ⟨_, rfl⟩
  have hbits' : d.magnitudeBits = encode mantissa exponent := by rw [hchosen, ← hbits]; rfl
  obtain ⟨whole, fraction, hwhole, hfraction, htext, hvalue⟩ :=
    positional_eq_literal (show d.negative = false by rw [hchosen])
  refine ⟨whole, fraction, hwhole, hfraction, ?_, ?_⟩
  · unfold shortestText
    rw [hfinite, ← htext, hchosen, String.toList_ofList]
    cases negative <;> rfl
  · rw [hvalue, magnitudeBits_expanded (hbits' ▸ encode_lt hcanonical), hbits', hsame]

theorem spells_shortestText {x : Float} {mantissa : Nat} {exponent : Int}
    (hfinite : parts x = .finite false mantissa exponent) :
    Spells (.number x) (shortestText x).toList := by
  obtain ⟨whole, fraction, hwhole, hfraction, hshown, hreading⟩ := exists_literal hfinite
  have hreading : (Decimal.ofDigits whole fraction).toFloat = x := hreading
  rw [hshown, ← hreading]
  exact .number hwhole hfraction

theorem parts_literal (whole fraction : List Char) :
    parts (Decimal.ofDigits whole fraction).toFloat = .infinite false ∨
      ∃ mantissa exponent,
        parts (Decimal.ofDigits whole fraction).toFloat = .finite false mantissa exponent :=
  parts_ofSignBits (magnitudeBits_le _)

/-- The number of a literal that did not overflow is written as another literal of it. -/
theorem spells_again {value : Float} {chars : List Char} (hspelled : Spells (.number value) chars)
    (hordinary : parts value ≠ .infinite false) :
    Spells (.number value) (shortestText value).toList := by
  cases hspelled with
  | @number whole fraction hwhole hdigits =>
      obtain ⟨mantissa, exponent, hfinite⟩ :=
        (parts_literal whole fraction).resolve_left hordinary
      exact spells_shortestText hfinite

end Backtest.Proofs.NumberText
