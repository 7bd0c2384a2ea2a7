import Backtest.Calendar.DateText
import Backtest.Proofs.FrameColumns
import Backtest.Proofs.NumberText
import Backtest.Proofs.Outcome

namespace Backtest.Proofs.DateReading

open Backtest.DateText
open Backtest.Proofs.FrameColumns
open Backtest.Proofs.NumberText
open Backtest.Proofs.Outcome
open Backtest.Proofs.Spelling

theorem isDigits_padded (width n : Nat) : IsDigits (padded width n).toList := by
  rw [padded, String.toList_ofList]
  refine ⟨List.append_ne_nil_of_right_ne_nil _ Nat.toDigits_ne_nil, fun c hc => ?_⟩
  rcases List.mem_append.mp hc with hc | hc
  · exact isDigit_of_mem_zeros hc
  · exact (isDigits_toDigits n).digits c hc

theorem valueOf_padded (width n : Nat) : Decimal.valueOf (padded width n).toList = n := by
  rw [padded, String.toList_ofList, valueOf_zeros_append, valueOf_toDigits]

theorem length_padded {width n : Nat} (hwidth : 0 < width) (hn : n < 10 ^ width) :
    (padded width n).toList.length = width := by
  have hlength : (Nat.toDigits 10 n).length ≤ width :=
    (Nat.length_toDigits_le_iff (by decide) hwidth).mpr hn
  rw [padded, String.toList_ofList, List.length_append, List.length_replicate]
  omega

variable {rest : List Char}

theorem readDigits_padded {most : Option Nat} (width n : Nat)
    (hmost : ∀ bound ∈ most, (padded width n).toList.length ≤ bound)
    (hrest : ∀ c ∈ rest.head?, c.isDigit = false) :
    readDigits most ((padded width n).toList ++ rest) = .ok (n, rest) := by
  have hdigits := isDigits_padded width n
  have hvalue := valueOf_padded width n
  generalize (padded width n).toList = digits at hmost hdigits hvalue
  obtain ⟨c, tail, rfl⟩ := List.exists_cons_of_ne_nil hdigits.nonempty
  obtain ⟨htake, -⟩ := takeWhile_append_of_stops hdigits.digits hrest
  have hfirst : c.isDigit = true := hdigits.digits c List.mem_cons_self
  rw [List.cons_append] at htake ⊢
  cases most with
  | none => simp only [readDigits, hfirst, if_true, htake, hvalue, List.length_cons,
      List.drop_succ_cons, List.drop_left]
  | some bound =>
      have hbound : (c :: tail).take bound = c :: tail := List.take_of_length_le (hmost bound rfl)
      simp only [readDigits, hfirst, if_true, htake, hbound, hvalue, List.length_cons,
        List.drop_succ_cons, List.drop_left]

theorem trimLeft_of_isDigit {c : Char} (hc : c.isDigit = true) :
    Text.trimLeft (c :: rest) = c :: rest := by
  have hrange := toNat_of_isDigit hc
  rw [Text.trimLeft, List.dropWhile_cons_of_neg]
  rw [isBlank_eq_false (by omega) (by omega)]
  exact Bool.false_ne_true

theorem trimLeft_padded (width n : Nat) :
    Text.trimLeft ((padded width n).toList ++ rest) = (padded width n).toList ++ rest := by
  have hdigits := isDigits_padded width n
  obtain ⟨c, tail, hsplit⟩ := List.exists_cons_of_ne_nil hdigits.nonempty
  rw [hsplit]
  exact trimLeft_of_isDigit (hdigits.digits c (hsplit ▸ List.mem_cons_self))

theorem readPart_padded {most n : Nat} (hn : 1 ≤ n ∧ n ≤ most) (hmost : most < 100)
    (hrest : ∀ c ∈ rest.head?, c.isDigit = false) :
    readPart most ((padded 2 n).toList ++ rest) = .ok (n, rest) := by
  have hlength : (padded 2 n).toList.length = 2 := length_padded (by decide) (by omega)
  have hread : readDigits (some 2) ((padded 2 n).toList ++ rest) = .ok (n, rest) :=
    readDigits_padded 2 n (by rintro _ ⟨⟩; exact hlength.le) hrest
  rw [readPart, trimLeft_padded, hread]
  exact if_pos hn

/-- The sign in front of a year: a minus before the year 0, a plus where four digits do not do. -/
def yearSign (year : Int) : String := if year < 0 then "-" else if 9999 < year then "+" else ""

theorem readHyphen_cons (rest : List Char) : readHyphen ('-' :: rest) = .ok rest := rfl

theorem signed_then_checked (f : Nat → Int) {read : Except DateError (Nat × List Char)} {n : Nat}
    (hread : read = .ok (n, rest)) (hyear : -262143 ≤ f n ∧ f n ≤ 262143) :
    (do
      let (n, rest) ← read
      let (year, rest) ← pure (f n, rest)
      if -2147483648 ≤ year ∧ year < 2147483648 then pure (year, rest) else throw .outOfRange) =
      Except.ok (f n, rest) := by
  have hpure : read = pure (n, rest) := hread
  simp only [hpure, pure_bind]
  exact if_pos (by omega)

theorem readYear_signed (negative : Bool) {text : List Char} {n : Nat} (hn : n ≤ 262143)
    (hread : readDigits none text = .ok (n, rest)) :
    readYear ((if negative then '-' else '+') :: text) =
      .ok (if negative then -(n : Int) else n, rest) := by
  cases negative with
  | true => exact signed_then_checked (fun n => -(n : Int)) hread (by omega)
  | false => exact signed_then_checked Nat.cast hread (by omega)

theorem readYear_digit {c : Char} (hc : c.isDigit = true) {text : List Char} {n : Nat}
    (hn : n ≤ 262143) (hread : readDigits (some 4) (c :: text) = .ok (n, rest)) :
    readYear (c :: text) = .ok ((n : Int), rest) := by
  have htrim : Text.trimLeft (c :: text) = c :: text := trimLeft_of_isDigit hc
  unfold readYear
  rw [htrim]
  split
  · next htext => exact absurd (List.cons.inj htext).1 (ne_of_isDigit hc rfl)
  · next htext => exact absurd (List.cons.inj htext).1 (ne_of_isDigit hc rfl)
  · exact signed_then_checked Nat.cast hread (by omega)

theorem readYear_padded {year : Int} (hyear : -262143 ≤ year ∧ year ≤ 262142)
    (hrest : ∀ c ∈ rest.head?, c.isDigit = false) :
    readYear ((yearSign year).toList ++ ((padded 4 year.natAbs).toList ++ rest)) =
      .ok (year, rest) := by
  have hn : year.natAbs ≤ 262143 := by omega
  have hlong : readDigits none ((padded 4 year.natAbs).toList ++ rest) = .ok (year.natAbs, rest) :=
    readDigits_padded 4 year.natAbs nofun hrest
  rcases lt_or_ge year 0 with hnegative | hnonneg
  · have hsign : (yearSign year).toList = ['-'] := by
      rw [yearSign, if_pos hnegative]
      rfl
    have habs : -(year.natAbs : Int) = year := by omega
    have hread := readYear_signed true hn hlong
    rw [hsign, List.singleton_append]
    rwa [if_pos rfl, if_pos rfl, habs] at hread
  · have habs : (year.natAbs : Int) = year := by omega
    by_cases hsigned : 9999 < year
    · have hsign : (yearSign year).toList = ['+'] := by
        rw [yearSign, if_neg (by omega), if_pos hsigned]
        rfl
      have hread := readYear_signed false hn hlong
      rw [hsign, List.singleton_append]
      rwa [if_neg Bool.false_ne_true, if_neg Bool.false_ne_true, habs] at hread
    · have hsign : (yearSign year).toList = [] := by
        rw [yearSign, if_neg (by omega), if_neg hsigned]
        rfl
      have hlength : (padded 4 year.natAbs).toList.length = 4 :=
        length_padded (by decide) (by omega)
      have hshort : readDigits (some 4) ((padded 4 year.natAbs).toList ++ rest) =
          .ok (year.natAbs, rest) :=
        readDigits_padded 4 year.natAbs (by rintro _ ⟨⟩; exact hlength.le) hrest
      have hdigits := isDigits_padded 4 year.natAbs
      obtain ⟨c, tail, hsplit⟩ := List.exists_cons_of_ne_nil hdigits.nonempty
      have hc : c.isDigit = true := hdigits.digits c (hsplit ▸ List.mem_cons_self)
      rw [hsign, List.nil_append]
      rw [hsplit, List.cons_append] at hshort ⊢
      have hread := readYear_digit hc hn hshort
      rwa [habs] at hread

theorem read_toText (d : Date) : Date.read d.toText.toList = .ok d := by
  obtain ⟨hyear, hmonth, hday⟩ := d.isDate
  have hdays : d.day ≤ 31 := hday.2.trans (daysInMonth_le d.year d.month)
  have hhyphen (rest : List Char) : ∀ c ∈ ('-' :: rest).head?, c.isDigit = false := by
    rintro c ⟨⟩
    rfl
  have htext : d.toText.toList =
      (yearSign d.year).toList ++ ((padded 4 d.year.natAbs).toList ++ '-' ::
        ((padded 2 d.month).toList ++ '-' :: ((padded 2 d.day).toList ++ []))) := by
    simp [Date.toText, yearSign]
  have hof : Date.of? d.year d.month d.day = some d := dif_pos d.isDate
  rw [htext]
  refine bind_eq_ok.mpr ⟨_, readYear_padded hyear (hhyphen _), ?_⟩
  refine bind_eq_ok.mpr ⟨_, readHyphen_cons _, ?_⟩
  refine bind_eq_ok.mpr ⟨_, readPart_padded hmonth (by decide) (hhyphen _), ?_⟩
  refine bind_eq_ok.mpr ⟨_, readHyphen_cons _, ?_⟩
  refine bind_eq_ok.mpr ⟨_, readPart_padded ⟨hday.1, hdays⟩ (by decide) (by simp), ?_⟩
  simp only [hof]
  rfl

end Backtest.Proofs.DateReading
