import Mathlib.Data.List.Forall2
import Backtest.PriceFile
import Backtest.Proofs.FrameColumns

/-!
What it means to load a table of prices. A table is a header and rows of fields; it can be loaded
for a range of dates if every row is dated, the rows of the range hold a price in each named column,
and no two of these rows share a date. The frame then has one bar for each row of the range. Neither
depends on the order of the rows, and the frame of a range is the part in this range of the frame of
all rows.
-/

namespace Backtest.Proofs.PriceTable

open Backtest.PriceFile
open Backtest.Text (trim)
open Backtest.Proofs.FrameColumns

abbrev Fields := List (List Char)

def Names (field : List Char) (name : String) : Prop :=
  (trim field).map Char.toLower = name.toList

/-- The index is that of the first field of a header with a name. -/
def NamedAt (header : Fields) (name : String) (index : Nat) : Prop :=
  (∃ field, header[index]? = some field ∧ Names field name) ∧
    ∀ earlier < index, ∀ field, header[earlier]? = some field → ¬Names field name

def DateAt (index : Nat) (row : Fields) (date : Date) : Prop :=
  ∃ field, row[index]? = some field ∧ Date.read (trim field) = .ok date

def NumberAt (index : Nat) (row : Fields) (value : Float) : Prop :=
  ∃ field, row[index]? = some field ∧ readNumeral (trim field) = .ok value

/-- The number can stand in a column: it is finite, and not negative if it is a volume. -/
def IsPrice (column : Column) (value : Float) : Prop :=
  value.isFinite = true ∧ (column = .volume → ¬value < 0)

def Within (range : DateRange) (date : Date) : Prop :=
  (∀ first, range.first = some first → first ≤ date) ∧
    ∀ last, range.last = some last → date ≤ last

def InRange (range : DateRange) (dateIndex : Nat) (row : Fields) : Prop :=
  ∃ date, DateAt dateIndex row date ∧ Within range date

/-- The rows below a header can be loaded for a range. -/
structure Loadable (header : Fields) (rows : List Fields) (range : DateRange) (dateIndex : Nat) :
    Prop where
  date : NamedAt header "date" dateIndex
  close : ∃ index, NamedAt header "close" index
  dated : ∀ row ∈ rows, ∃ date, DateAt dateIndex row date
  priced : ∀ row ∈ rows, InRange range dateIndex row → ∀ column index,
    NamedAt header column.name index → ∃ value, NumberAt index row value ∧ IsPrice column value
  distinct : rows.Pairwise fun row row' => ∀ date, DateAt dateIndex row date →
    DateAt dateIndex row' date → ¬Within range date

/-- The frame has one bar for each row of a range, in the order of dates, and the columns that the
header names; each value of a bar is the number in its row. -/
structure Loaded (header : Fields) (rows : List Fields) (range : DateRange) (dateIndex : Nat)
    (bars : List Fields) (frame : Frame Float) : Prop where
  date : NamedAt header "date" dateIndex
  chosen : ∃ others, (bars ++ others).Perm rows ∧ (∀ row ∈ bars, InRange range dateIndex row) ∧
    ∀ row ∈ others, ¬InRange range dateIndex row
  dates : List.Forall₂ (DateAt dateIndex) bars frame.dates
  present : ∀ column index, NamedAt header column.name index →
    ∃ values, frame.columns column = some values ∧ List.Forall₂ (NumberAt index) bars values
  absent : ∀ column, (∀ index, ¬NamedAt header column.name index) → frame.columns column = none

theorem map_fst_filter_zip {α β : Type} (p : α → Bool) {keys : List α} {values : List β}
    (h : keys.length ≤ values.length) :
    ((keys.zip values).filter fun entry => p entry.1).map Prod.fst = keys.filter p := by
  conv_rhs => rw [← List.map_fst_zip h, List.filter_map]
  rfl

def within (frame : Frame Float) (range : DateRange) : Frame Float where
  dates := frame.dates.filter range.contains
  columns column := (frame.columns column).map fun values =>
    ((frame.dates.zip values).filter fun bar => range.contains bar.1).map Prod.snd
  close_isSome := by
    rw [Option.isSome_map]
    exact frame.close_isSome
  aligned := by
    intro column values h
    obtain ⟨all, hall, rfl⟩ := Option.map_eq_some_iff.mp h
    have hlength := frame.aligned column all hall
    rw [← map_fst_filter_zip range.contains (Nat.le_of_eq hlength.symm), List.length_map,
      List.length_map]
  increasing := frame.increasing.filter _

theorem NamedAt.unique {header : Fields} {name : String} {index index' : Nat}
    (h : NamedAt header name index) (h' : NamedAt header name index') : index = index' := by
  obtain ⟨⟨field, hfield, hnames⟩, hfirst⟩ := h
  obtain ⟨⟨field', hfield', hnames'⟩, hfirst'⟩ := h'
  rcases Nat.lt_trichotomy index index' with hlt | heq | hlt
  · exact absurd hnames (hfirst' index hlt field hfield)
  · exact heq
  · exact absurd hnames' (hfirst index' hlt field' hfield')

theorem DateAt.unique {index : Nat} {row : Fields} {date date' : Date} (h : DateAt index row date)
    (h' : DateAt index row date') : date = date' := by
  obtain ⟨field, hfield, hread⟩ := h
  obtain ⟨field', hfield', hread'⟩ := h'
  obtain rfl := Option.some.inj (hfield.symm.trans hfield')
  exact Except.ok.inj (hread.symm.trans hread')

theorem NumberAt.unique {index : Nat} {row : Fields} {value value' : Float}
    (h : NumberAt index row value) (h' : NumberAt index row value') : value = value' := by
  obtain ⟨field, hfield, hread⟩ := h
  obtain ⟨field', hfield', hread'⟩ := h'
  obtain rfl := Option.some.inj (hfield.symm.trans hfield')
  exact Except.ok.inj (hread.symm.trans hread')

theorem within_all (date : Date) : Within {} date :=
  ⟨fun _ h => (Option.some_ne_none _ h.symm).elim, fun _ h => (Option.some_ne_none _ h.symm).elim⟩

theorem contains_iff {range : DateRange} {date : Date} :
    range.contains date = true ↔ Within range date := by
  obtain ⟨first, last⟩ := range
  rw [DateRange.contains, Bool.and_eq_true, Within]
  refine and_congr ?_ ?_
  · cases first with
    | none => exact ⟨fun _ _ h => (Option.some_ne_none _ h.symm).elim, fun _ => rfl⟩
    | some first =>
        refine decide_eq_true_iff.trans ⟨fun h other hother => ?_, fun h => h first rfl⟩
        exact Option.some.inj hother ▸ h
  · cases last with
    | none => exact ⟨fun _ _ h => (Option.some_ne_none _ h.symm).elim, fun _ => rfl⟩
    | some last =>
        refine decide_eq_true_iff.trans ⟨fun h other hother => ?_, fun h => h last rfl⟩
        exact Option.some.inj hother ▸ h

theorem inRange_iff {range : DateRange} {dateIndex : Nat} {row : Fields} {date : Date}
    (h : DateAt dateIndex row date) : InRange range dateIndex row ↔ Within range date := by
  refine ⟨?_, fun hwithin => ⟨date, h, hwithin⟩⟩
  rintro ⟨date', h', hwithin⟩
  exact h'.unique h ▸ hwithin

section Loadable

variable {header : Fields} {rows rows' : List Fields} {range : DateRange} {dateIndex : Nat}

theorem Loadable.perm (h : Loadable header rows range dateIndex) (hperm : rows.Perm rows') :
    Loadable header rows' range dateIndex where
  date := h.date
  close := h.close
  dated := fun row hrow => h.dated row (hperm.mem_iff.mpr hrow)
  priced := fun row hrow => h.priced row (hperm.mem_iff.mpr hrow)
  distinct := hperm.pairwise h.distinct fun hdistinct date hdate hdate' =>
    hdistinct date hdate' hdate

theorem Loadable.restrict (h : Loadable header rows {} dateIndex) (range : DateRange) :
    Loadable header rows range dateIndex where
  date := h.date
  close := h.close
  dated := h.dated
  priced := by
    rintro row hrow ⟨date, hdate, -⟩
    exact h.priced row hrow ⟨date, hdate, within_all date⟩
  distinct := h.distinct.imp fun hdistinct date hdate hdate' =>
    absurd (within_all date) (hdistinct date hdate hdate')

end Loadable

section Loaded

variable {header : Fields} {rows rows' bars bars' : List Fields} {range : DateRange}
variable {dateIndex : Nat} {frame frame' : Frame Float}

open Classical in
theorem Loaded.perm_filter (h : Loaded header rows range dateIndex bars frame) :
    bars.Perm (rows.filter fun row => InRange range dateIndex row) := by
  obtain ⟨others, hperm, hbars, hothers⟩ := h.chosen
  have hsplit := hperm.filter fun row => decide (InRange range dateIndex row)
  have hkept : (bars.filter fun row => decide (InRange range dateIndex row)) = bars :=
    List.filter_eq_self.mpr fun row hrow => decide_eq_true (hbars row hrow)
  have hdropped : (others.filter fun row => decide (InRange range dateIndex row)) = [] :=
    List.filter_eq_nil_iff.mpr fun row hrow => by
      rw [decide_eq_true_iff]
      exact hothers row hrow
  rwa [List.filter_append, hkept, hdropped, List.append_nil] at hsplit

def Before (dateIndex : Nat) (row row' : Fields) : Prop :=
  ∃ date date', DateAt dateIndex row date ∧ DateAt dateIndex row' date' ∧ date < date'

theorem Before.asymm {row row' : Fields} (h : Before dateIndex row row') :
    ¬Before dateIndex row' row := by
  rintro ⟨date', date, hdate', hdate, hlt'⟩
  obtain ⟨date₁, date₂, hdate₁, hdate₂, hlt⟩ := h
  obtain rfl := hdate₁.unique hdate
  obtain rfl := hdate₂.unique hdate'
  exact Int.lt_asymm hlt hlt'

theorem pairwise_before {bars : List Fields} {dates : List Date}
    (h : List.Forall₂ (DateAt dateIndex) bars dates) (hdates : dates.Pairwise (· < ·)) :
    bars.Pairwise (Before dateIndex) := by
  induction h with
  | nil => exact .nil
  | @cons row date bars dates hrow hrest ih =>
      obtain ⟨hfirst, hdates⟩ := List.pairwise_cons.mp hdates
      refine .cons (fun row' hrow' => ?_) (ih hdates)
      obtain ⟨index, hindex, rfl⟩ := List.getElem_of_mem hrow'
      have hindex' : index < dates.length := hrest.length_eq ▸ hindex
      exact ⟨date, dates[index], hrow, hrest.get hindex hindex',
        hfirst _ (List.getElem_mem hindex')⟩

theorem Loaded.bars_eq (h : Loaded header rows range dateIndex bars frame)
    (h' : Loaded header rows' range dateIndex bars' frame') (hperm : rows.Perm rows') :
    bars = bars' := by
  classical
  have hbars : bars.Perm bars' :=
    h.perm_filter.trans ((hperm.filter _).trans h'.perm_filter.symm)
  exact hbars.eq_of_pairwise (fun row row' _ _ hlt hlt' => absurd hlt' hlt.asymm)
    (pairwise_before h.dates frame.increasing) (pairwise_before h'.dates frame'.increasing)

/-- The frame is determined by the rows, whatever their order. -/
theorem Loaded.frame_eq (h : Loaded header rows range dateIndex bars frame)
    (h' : Loaded header rows' range dateIndex bars' frame') (hperm : rows.Perm rows') :
    frame = frame' := by
  obtain rfl := h.bars_eq h' hperm
  refine frame_ext ?_ (funext fun column => ?_)
  · have hunique : Relator.RightUnique (DateAt dateIndex) := fun _ _ _ => DateAt.unique
    exact List.right_unique_forall₂' hunique h.dates h'.dates
  · by_cases hnamed : ∃ index, NamedAt header column.name index
    · obtain ⟨index, hindex⟩ := hnamed
      obtain ⟨values, hvalues, hnumbers⟩ := h.present column index hindex
      obtain ⟨values', hvalues', hnumbers'⟩ := h'.present column index hindex
      have hunique : Relator.RightUnique (NumberAt index) := fun _ _ _ => NumberAt.unique
      have heq : values = values' := List.right_unique_forall₂' hunique hnumbers hnumbers'
      rw [hvalues, hvalues', heq]
    · have hnone := not_exists.mp hnamed
      rw [h.absent column hnone, h'.absent column hnone]

theorem forall₂_zip_right {α β γ : Type} {r : α → β → Prop} {s : α → γ → Prop} {as : List α}
    {bs : List β} {cs : List γ} (h : List.Forall₂ r as bs) (h' : List.Forall₂ s as cs) :
    List.Forall₂ (fun a bc => r a bc.1 ∧ s a bc.2) as (bs.zip cs) := by
  induction h generalizing cs with
  | nil => exact .nil
  | cons hhead _ ih =>
      cases h' with
      | cons hhead' htail' => exact .cons ⟨hhead, hhead'⟩ (ih htail')

open Classical in
/-- The frame of all rows, cut down to a range, is a frame of this range. -/
theorem Loaded.restrict (h : Loaded header rows {} dateIndex bars frame) (range : DateRange) :
    Loaded header rows range dateIndex (bars.filter fun row => InRange range dateIndex row)
      (within frame range) where
  date := h.date
  chosen := by
    obtain ⟨others, hperm, -, hothers⟩ := h.chosen
    refine ⟨(bars.filter fun row => !decide (InRange range dateIndex row)) ++ others, ?_, ?_, ?_⟩
    · rw [← List.append_assoc]
      exact ((List.filter_append_perm _ bars).append_right others).trans hperm
    · intro row hrow
      exact of_decide_eq_true (List.mem_filter.mp hrow).2
    · intro row hrow hin
      rcases List.mem_append.mp hrow with hrow | hrow
      · have hout := (List.mem_filter.mp hrow).2
        rw [decide_eq_true hin] at hout
        cases hout
      · obtain ⟨date, hdate, -⟩ := hin
        exact hothers row hrow ⟨date, hdate, within_all date⟩
  dates := by
    refine List.rel_filter (fun row date hdate => ?_) h.dates
    exact decide_eq_true_iff.trans ((inRange_iff hdate).trans contains_iff.symm)
  present := by
    intro column index hindex
    obtain ⟨values, hvalues, hnumbers⟩ := h.present column index hindex
    refine ⟨_, congrArg (Option.map _) hvalues, List.forall₂_map_right_iff.mpr ?_⟩
    have hfilter := List.rel_filter
      (p := fun row => decide (InRange range dateIndex row))
      (q := fun bar => range.contains bar.1)
      (fun row bar hbar => decide_eq_true_iff.trans ((inRange_iff hbar.1).trans contains_iff.symm))
      (forall₂_zip_right h.dates hnumbers)
    exact hfilter.imp fun row bar hbar => hbar.2
  absent := fun column hnone => congrArg (Option.map _) (h.absent column hnone)

end Loaded

end Backtest.Proofs.PriceTable
