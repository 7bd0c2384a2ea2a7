import Mathlib.Order.Bounds.Basic
import Backtest.Proofs.FrameColumns
import Backtest.Proofs.MissingColumn

namespace Backtest.Proofs.FrameRefusal

open Backtest.Proofs.FrameColumns
open Backtest.Proofs.MissingColumn

variable {α : Type}

/-- The column is present with a number of values that is not the given one. -/
def Misaligned (columns : Columns α) (count : ℕ) (column : Column) : Prop :=
  ∃ values, columns column = some values ∧ values.length ≠ count

/-- The date at an index is not later than the one before it. -/
def Unordered (dates : List Date) (index : ℕ) : Prop :=
  ∃ before date, 0 < index ∧ dates[index - 1]? = some before ∧ dates[index]? = some date ∧
    ¬before < date

/-- The reason for which dates and columns make up no frame. -/
inductive Refused (dates : List Date) (columns : Columns α) : FrameError → Prop
  | closeMissing (hmissing : columns .close = none) : Refused dates columns (.missingColumn .close)
  | misaligned {column : Column} {values : List α} (hclose : (columns .close).isSome)
      (hfirst : FirstWith (Misaligned columns dates.length) Column.all column)
      (hpresent : columns column = some values) :
      Refused dates columns (.lengthMismatch column dates.length values.length)
  | unordered {index : ℕ} (hclose : (columns .close).isSome) (haligned : columns.Aligned dates)
      (hfirst : IsLeast {index | Unordered dates index} index) :
      Refused dates columns (.unorderedDates index)

section Dates

variable {dates : List Date} {start index : ℕ}

theorem not_unordered_of_pairwise (hincreasing : dates.Pairwise (· < ·)) :
    ¬Unordered dates index := by
  rintro ⟨before, date, hpositive, hfound, hfound', hnotLater⟩
  obtain ⟨hinside, rfl⟩ := List.getElem?_eq_some_iff.mp hfound
  obtain ⟨hinside', rfl⟩ := List.getElem?_eq_some_iff.mp hfound'
  exact hnotLater (List.pairwise_iff_getElem.mp hincreasing _ _ hinside hinside' (by omega))

theorem Unordered.take {count : ℕ} (h : Unordered dates index) (hinside : index < count) :
    Unordered (dates.take count) index := by
  obtain ⟨before, date, hpositive, hfound, hfound', hnotLater⟩ := h
  refine ⟨before, date, hpositive, ?_, ?_, hnotLater⟩
  · rw [List.getElem?_take_of_lt (by omega), hfound]
  · rw [List.getElem?_take_of_lt hinside, hfound']

/-- The search stops at a date that is not later than the one before it, and would go through the
dates before it to their end. -/
theorem exists_of_firstUnordered?_eq_some
    (hfound : Frame.firstUnordered? start dates = some index) :
    ∃ count, index = start + count ∧ Unordered dates count ∧
      Frame.firstUnordered? start (dates.take count) = none := by
  fun_induction Frame.firstUnordered? start dates with
  | case1 start a b rest hnotLater =>
      obtain rfl := Option.some.inj hfound
      exact ⟨1, rfl, ⟨a, b, Nat.one_pos, rfl, rfl, Int.not_lt.mpr hnotLater⟩, rfl⟩
  | case2 start a b rest hlater ih =>
      obtain ⟨count, rfl, ⟨before, date, hpositive, hfound, hfound', hnotLater⟩, hpassed⟩ :=
        ih hfound
      obtain ⟨count, rfl⟩ := Nat.exists_eq_succ_of_ne_zero hpositive.ne'
      refine ⟨count + 2, by omega, ⟨before, date, by omega, hfound, hfound', hnotLater⟩, ?_⟩
      rw [List.take_succ_cons, List.take_succ_cons, Frame.firstUnordered?, if_neg hlater]
      exact hpassed
  | case3 => cases hfound

theorem isLeast_unordered (hfound : Frame.firstUnordered? 0 dates = some index) :
    IsLeast {index | Unordered dates index} index ∧ (dates.take index).Pairwise (· < ·) := by
  obtain ⟨count, rfl, hunordered, hpassed⟩ := exists_of_firstUnordered?_eq_some hfound
  rw [Nat.zero_add]
  have hincreasing := Frame.pairwise_of_firstUnordered?_eq_none hpassed
  refine ⟨⟨hunordered, fun other hunordered' => ?_⟩, hincreasing⟩
  by_contra hearlier
  exact not_unordered_of_pairwise hincreasing (hunordered'.take (not_le.mp hearlier))

end Dates

theorem exists_firstWith_misaligned {columns : Columns α} {count : ℕ} {order : List Column}
    {error : FrameError} (hfound : Frame.firstMisaligned? columns count order = some error) :
    ∃ column values, FirstWith (Misaligned columns count) order column ∧
      columns column = some values ∧ error = .lengthMismatch column count values.length := by
  have hpassed {column : Column} {rest : List Column} (haligned : ¬Misaligned columns count column)
      (hlater : ∃ column values, FirstWith (Misaligned columns count) rest column ∧
        columns column = some values ∧ error = .lengthMismatch column count values.length) :
      ∃ first values, FirstWith (Misaligned columns count) (column :: rest) first ∧
        columns first = some values ∧ error = .lengthMismatch first count values.length := by
    obtain ⟨first, values, ⟨earlier, later, rfl, hmisaligned, hothers⟩, hpresent, rfl⟩ := hlater
    exact ⟨first, values, ⟨column :: earlier, later, rfl, hmisaligned,
      List.forall_mem_cons.mpr ⟨haligned, hothers⟩⟩, hpresent, rfl⟩
  induction order with
  | nil => cases hfound
  | cons column rest ih =>
      rw [Frame.firstMisaligned?] at hfound
      split at hfound
      · next values hpresent =>
        split at hfound
        · next haligned =>
          refine hpassed ?_ (ih hfound)
          rintro ⟨values', hpresent', hmisaligned⟩
          obtain rfl := Option.some.inj (hpresent.symm.trans hpresent')
          exact hmisaligned haligned
        · next hmisaligned =>
          obtain rfl := Option.some.inj hfound
          have hfirst : FirstWith (Misaligned columns count) (column :: rest) column :=
            ⟨[], rest, rfl, ⟨values, hpresent, hmisaligned⟩, List.forall_mem_nil _⟩
          exact ⟨column, values, hfirst, hpresent, rfl⟩
      · next habsent =>
        refine hpassed ?_ (ih hfound)
        rintro ⟨values, hpresent, -⟩
        cases habsent.symm.trans hpresent

theorem aligned_iff {columns : Columns α} {dates : List Date} :
    columns.Aligned dates ↔ ∀ column, ¬Misaligned columns dates.length column := by
  simp only [Columns.Aligned, Misaligned, not_exists, not_and, not_not]

section Refused

variable {dates : List Date} {columns : Columns α} {error error' : FrameError}

theorem Refused.unique (h : Refused dates columns error) (h' : Refused dates columns error') :
    error = error' := by
  have hcontradiction {column : Column} {P : Prop} (haligned : columns.Aligned dates)
      (hfirst : FirstWith (Misaligned columns dates.length) Column.all column) : P := by
    obtain ⟨_, _, -, hmisaligned, -⟩ := hfirst
    exact absurd hmisaligned (aligned_iff.mp haligned column)
  cases h with
  | closeMissing hmissing =>
      cases h' with
      | closeMissing => rfl
      | misaligned hclose => simp [hmissing] at hclose
      | unordered hclose => simp [hmissing] at hclose
  | misaligned hclose hfirst hpresent =>
      cases h' with
      | closeMissing hmissing => simp [hmissing] at hclose
      | misaligned hclose' hfirst' hpresent' =>
          obtain rfl := hfirst.unique hfirst'
          obtain rfl := Option.some.inj (hpresent.symm.trans hpresent')
          rfl
      | unordered hclose' haligned => exact hcontradiction haligned hfirst
  | unordered hclose haligned hfirst =>
      cases h' with
      | closeMissing hmissing => simp [hmissing] at hclose
      | misaligned hclose' hfirst' => exact hcontradiction haligned hfirst'
      | unordered hclose' haligned' hfirst' => rw [hfirst.unique hfirst']

theorem refused_of_ofColumns (hfailed : Frame.ofColumns dates columns = .error error) :
    Refused dates columns error ∧
      ∀ index, error = .unorderedDates index → (dates.take index).Pairwise (· < ·) := by
  unfold Frame.ofColumns at hfailed
  split at hfailed
  · next hclose =>
    split at hfailed
    · next hfound =>
      obtain rfl := Except.error.inj hfailed
      obtain ⟨column, values, hfirst, hpresent, rfl⟩ := exists_firstWith_misaligned hfound
      refine ⟨.misaligned hclose hfirst hpresent, ?_⟩
      rintro index ⟨⟩
    · next hfound =>
      have haligned : columns.Aligned dates := fun column _ hpresent =>
        Frame.length_eq_of_firstMisaligned?_eq_none hfound column.mem_all hpresent
      split at hfailed
      · next index hfound =>
        obtain rfl := Except.error.inj hfailed
        obtain ⟨hfirst, hincreasing⟩ := isLeast_unordered hfound
        refine ⟨.unordered hclose haligned hfirst, ?_⟩
        rintro _ ⟨⟩
        exact hincreasing
      · cases hfailed
  · next hclose =>
    obtain rfl := Except.error.inj hfailed
    refine ⟨.closeMissing (Option.not_isSome_iff_eq_none.mp hclose), ?_⟩
    rintro index ⟨⟩

theorem ofColumns_eq_error_iff :
    Frame.ofColumns dates columns = .error error ↔ Refused dates columns error := by
  refine ⟨fun hfailed => (refused_of_ofColumns hfailed).1, fun hrefused => ?_⟩
  cases houtcome : Frame.ofColumns dates columns with
  | error error' => rw [(refused_of_ofColumns houtcome).1.unique hrefused]
  | ok frame =>
      exfalso
      obtain ⟨⟨hclose, haligned, hincreasing⟩, -⟩ := ofColumns_eq_ok.mp houtcome
      cases hrefused with
      | closeMissing hmissing => simp [hmissing] at hclose
      | misaligned hclose' hfirst =>
          obtain ⟨_, _, -, hmisaligned, -⟩ := hfirst
          exact aligned_iff.mp haligned _ hmisaligned
      | unordered hclose' haligned' hfirst => exact not_unordered_of_pairwise hincreasing hfirst.1

end Refused

def valueAt? (frame : Frame α) (index : ℕ) (column : Column) : Option α :=
  (frame.column column).toOption.bind (·[index]?)

def barAt? (frame : Frame α) (index : ℕ) : Option (Bar α) := do
  return {
    date := ← frame.dates[index]?
    opening := ← valueAt? frame index .opening
    high := ← valueAt? frame index .high
    low := ← valueAt? frame index .low
    close := ← valueAt? frame index .close
    volume := ← valueAt? frame index .volume }

section Bars

variable {bars : List (Bar α)} {frame : Frame α} {error : FrameError}

theorem ofBars_eq_error_iff : Frame.ofBars bars = .error error ↔
    ∃ index, error = .unorderedDates index ∧
      IsLeast {index | Unordered (bars.map (·.date)) index} index := by
  have haligned : Columns.Aligned (fun column => some (bars.map (·.value column)))
      (bars.map (·.date)) := by
    rintro column values ⟨⟩
    rw [List.length_map, List.length_map]
  rw [Frame.ofBars, ofColumns_eq_error_iff]
  constructor
  · intro hrefused
    cases hrefused with
    | closeMissing hmissing => exact nomatch hmissing
    | misaligned hclose hfirst =>
        obtain ⟨_, _, -, hmisaligned, -⟩ := hfirst
        exact absurd hmisaligned (aligned_iff.mp haligned _)
    | unordered hclose haligned hfirst => exact ⟨_, rfl, hfirst⟩
  · rintro ⟨index, rfl, hfirst⟩
    exact .unordered rfl haligned hfirst

theorem barAt?_ofBars (hbuilt : Frame.ofBars bars = .ok frame) (index : ℕ) :
    barAt? frame index = bars[index]? := by
  obtain ⟨-, hdates, hcolumns⟩ := ofColumns_eq_ok.mp hbuilt
  have hdate : frame.dates[index]? = bars[index]?.map (·.date) := by
    rw [hdates, List.getElem?_map]
  have hvalue (column : Column) :
      valueAt? frame index column = bars[index]?.map (·.value column) := by
    rw [valueAt?, Frame.column, hcolumns]
    exact List.getElem?_map
  simp only [barAt?, hdate, hvalue]
  cases bars[index]? <;> rfl

end Bars

/-- Dates and columns make up a frame exactly if closing prices are present, each column has a value
for each date and the dates increase. Otherwise they are refused for the first reason that holds,
with the first column that has it or the first date out of order, before which all dates increase.
Bars are refused for their dates only, and a frame of bars has these bars. -/
theorem ofColumns_outcome (dates : List Date) (columns : Columns α) :
    ((∃ frame, Frame.ofColumns dates columns = .ok frame) ↔
      (columns .close).isSome ∧ columns.Aligned dates ∧ dates.Pairwise (· < ·)) ∧
    (∀ frame, Frame.ofColumns dates columns = .ok frame →
      frame.dates = dates ∧ frame.columns = columns) ∧
    (∀ error, Frame.ofColumns dates columns = .error error ↔ Refused dates columns error) ∧
    (∀ index, Frame.ofColumns dates columns = .error (.unorderedDates index) →
      (dates.take index).Pairwise (· < ·)) ∧
    ∀ bars : List (Bar α),
      (∀ error, Frame.ofBars bars = .error error ↔ ∃ index, error = .unorderedDates index ∧
        IsLeast {index | Unordered (bars.map (·.date)) index} index) ∧
      ∀ frame, Frame.ofBars bars = .ok frame → ∀ index, barAt? frame index = bars[index]? := by
  refine ⟨⟨?_, ?_⟩, fun frame hbuilt => (ofColumns_eq_ok.mp hbuilt).2,
    fun error => ofColumns_eq_error_iff, fun index hfailed => ?_,
    fun bars => ⟨fun error => ofBars_eq_error_iff, fun frame => barAt?_ofBars⟩⟩
  · rintro ⟨frame, hbuilt⟩
    exact (ofColumns_eq_ok.mp hbuilt).1
  · rintro ⟨hclose, haligned, hincreasing⟩
    exact ⟨⟨dates, columns, hclose, haligned, hincreasing⟩,
      ofColumns_eq_ok.mpr ⟨⟨hclose, haligned, hincreasing⟩, rfl, rfl⟩⟩
  · exact (refused_of_ofColumns hfailed).2 index rfl

def tiedBars : List (Bar ℕ) :=
  [⟨⟨2024, 1, 2, by decide⟩, 1, 3, 1, 2, 100⟩, ⟨⟨2024, 1, 5, by decide⟩, 2, 4, 2, 3, 50⟩,
    ⟨⟨2024, 1, 5, by decide⟩, 3, 3, 3, 3, 0⟩, ⟨⟨2024, 1, 3, by decide⟩, 5, 6, 4, 5, 70⟩]

theorem ofColumns_outcome_tiedBars :
    (∃ frame, Frame.ofBars (tiedBars.take 2) = .ok frame ∧
      ∀ index, barAt? frame index = (tiedBars.take 2)[index]?) ∧
    Frame.ofBars tiedBars = .error (.unorderedDates 2) ∧
    IsLeast {index | Unordered (tiedBars.map (·.date)) index} 2 ∧
    ((tiedBars.map (·.date)).take 2).Pairwise (· < ·) := by
  have hbuilt : ∃ frame, Frame.ofBars (tiedBars.take 2) = .ok frame := ⟨_, rfl⟩
  have hfailed : Frame.ofBars tiedBars = .error (.unorderedDates 2) := rfl
  obtain ⟨frame, hbuilt⟩ := hbuilt
  obtain ⟨-, -, -, hincreasing, hofBars⟩ := ofColumns_outcome (tiedBars.map (·.date))
    fun column => some (tiedBars.map (·.value column))
  obtain ⟨index, hsame, hfirst⟩ := ((hofBars tiedBars).1 _).mp hfailed
  obtain rfl := FrameError.unorderedDates.inj hsame
  exact ⟨⟨frame, hbuilt, (hofBars _).2 frame hbuilt⟩, hfailed, hfirst, hincreasing 2 hfailed⟩

end Backtest.Proofs.FrameRefusal
