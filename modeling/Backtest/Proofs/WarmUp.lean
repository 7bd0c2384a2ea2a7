import Backtest.Proofs.SignalMeaning

namespace Backtest.Proofs.WarmUp

open Backtest.Rule
open Backtest.Series
open Backtest.Proofs.BarMeaning
open Backtest.Proofs.IndicatorMeaning
open Backtest.Proofs.SignalMeaning
open Backtest.Proofs.SignalCausality
open Backtest.Proofs.SignalShape

variable {α : Type}

/-- The number of bars before the first value of a term. -/
def warmUp : Term α → Nat
  | .column _ => 0
  | .constant _ => 0
  | .yesterday _ => 1
  | .indicator .sma source period => warmUp source + period - 1
  | .indicator .ema source period => warmUp source + period - 1
  | .indicator .rsi source period => warmUp source + period

def periods : Term α → List Nat
  | .indicator _ source period => period :: periods source
  | _ => []

/-- The frame holds the columns of the term, and the periods are at least 1. -/
structure Evaluable (frame : Frame α) (term : Term α) : Prop where
  columns : ∀ column, term.reads column = true → (frame.columns column).isSome
  positive : ∀ period ∈ periods term, 1 ≤ period

/-- Of the first bars, the values are undefined just before one of them. -/
def StartsAt (first count : Nat) (value : Nat → Option α) : Prop :=
  ∀ bar < count, value bar = none ↔ bar < first

variable {first count period : Nat} {value : Nat → Option α}

theorem valuesOn_eq_none_iff {bar size : Nat} :
    valuesOn value bar size = none ↔ ∃ gap, bar ≤ gap ∧ gap < bar + size ∧ value gap = none := by
  induction size generalizing bar with
  | zero =>
      constructor
      · nofun
      · rintro ⟨gap, hfirst, hlast, -⟩
        omega
  | succ size ih =>
      rw [valuesOn_cons]
      cases hvalue : value bar with
      | none => exact ⟨fun _ => ⟨bar, Nat.le_refl bar, by omega, hvalue⟩, fun _ => rfl⟩
      | some current =>
          rw [Option.bind_some, Option.map_eq_none_iff, ih]
          constructor
          · rintro ⟨gap, hfirst, hlast, hgap⟩
            exact ⟨gap, by omega, by omega, hgap⟩
          · rintro ⟨gap, hfirst, hlast, hgap⟩
            have hne : gap ≠ bar := by
              rintro rfl
              exact nomatch hvalue.symm.trans hgap
            exact ⟨gap, by omega, by omega, hgap⟩

namespace StartsAt

theorem valuesOn (h : StartsAt first count value) {bar size : Nat} (hsize : 0 < size)
    (hinside : bar + size ≤ count) : valuesOn value bar size = none ↔ bar < first := by
  rw [valuesOn_eq_none_iff]
  constructor
  · rintro ⟨gap, hfirst, hlast, hgap⟩
    have hbefore := (h gap (by omega)).mp hgap
    omega
  · intro hbar
    exact ⟨bar, Nat.le_refl bar, by omega, (h bar (by omega)).mpr hbar⟩

theorem exists_value (h : StartsAt first count value) (bar : Nat) (hfirst : first ≤ bar)
    (hbar : bar < count) : ∃ current, value bar = some current := by
  apply Option.ne_none_iff_exists'.mp
  intro hnone
  have hbefore := (h bar hbar).mp hnone
  omega

theorem before (h : StartsAt first count value) : StartsAt (first + 1) count (before value) := by
  intro bar hbar
  cases bar with
  | zero => simp [BarMeaning.before]
  | succ bar =>
      change value bar = none ↔ bar + 1 < first + 1
      rw [h bar (by omega), Nat.add_lt_add_iff_right]

theorem runStart (h : StartsAt first count value) (bar : Nat) (hfirst : first ≤ bar)
    (hbar : bar ≤ count) : runStart value bar = first := by
  induction bar with
  | zero =>
      obtain rfl : first = 0 := by omega
      rfl
  | succ bar ih =>
      rw [BarMeaning.runStart]
      by_cases hstart : first = bar + 1
      · have hnone : value bar = none := (h bar (by omega)).mpr (by omega)
        rw [hnone, hstart]
        rfl
      · obtain ⟨current, hvalue⟩ := h.exists_value bar (by omega) (by omega)
        rw [hvalue, ih (by omega) (by omega)]
        rfl

theorem overLast {f : List α → α} {size : Nat} (h : StartsAt first count value)
    (hsize : 1 ≤ size) : StartsAt (first + size - 1) count (overLast size f value) := by
  intro bar hbar
  rw [BarMeaning.overLast]
  by_cases hshort : bar + 1 < size
  · simp only [if_pos hshort, true_iff]
    omega
  · rw [if_neg hshort, Option.map_eq_none_iff, h.valuesOn (by omega) (by omega)]
    omega

variable [Scalar α]

theorem exists_averageAt_of_full (h : StartsAt first count value) (hperiod : 1 ≤ period) {bar : Nat}
    (hfull : bar + 1 = first + period) (hbar : bar < count) :
    ∃ average, averageAt period value bar = some average := by
  obtain ⟨current, hcurrent⟩ := h.exists_value bar (by omega) hbar
  have hstart := h.runStart bar (by omega) (by omega)
  have hdefined : BarMeaning.valuesOn value (BarMeaning.runStart value bar) period ≠ none := by
    rw [Ne, h.valuesOn (by omega) (by omega)]
    omega
  obtain ⟨values, hvalues⟩ := Option.ne_none_iff_exists'.mp hdefined
  exact ⟨_, averageAt_of_full hcurrent (by omega) hvalues⟩

theorem exists_averageAt (h : StartsAt first count value) (hperiod : 1 ≤ period) {bar : Nat}
    (hlong : first + period ≤ bar + 1) (hbar : bar < count) :
    ∃ average, averageAt period value bar = some average := by
  induction bar with
  | zero => exact h.exists_averageAt_of_full hperiod (by omega) hbar
  | succ previous ih =>
      by_cases hfull : previous + 1 + 1 = first + period
      · exact h.exists_averageAt_of_full hperiod hfull hbar
      · obtain ⟨average, haverage⟩ := ih (by omega) (by omega)
        obtain ⟨current, hcurrent⟩ := h.exists_value (previous + 1) (by omega) hbar
        have hstart := h.runStart (previous + 1) (by omega) (by omega)
        exact ⟨_, averageAt_of_long hcurrent (by omega) haverage⟩

theorem averageAt (h : StartsAt first count value) (hperiod : 1 ≤ period) :
    StartsAt (first + period - 1) count (averageAt period value) := by
  intro bar hbar
  by_cases hlong : first + period ≤ bar + 1
  · obtain ⟨average, haverage⟩ := h.exists_averageAt hperiod hlong hbar
    rw [haverage]
    constructor
    · nofun
    · intro hearly
      omega
  · have hnone : BarMeaning.averageAt period value bar = none := by
      by_cases hgap : bar < first
      · exact averageAt_eq_none_of_gap ((h bar hbar).mpr hgap)
      · have hstart := h.runStart bar (by omega) (by omega)
        exact averageAt_eq_none_of_short (by omega)
    simp only [hnone, true_iff]
    omega

end StartsAt

theorem startsAt_columnAt {frame : Frame α} {column : Column}
    (h : (frame.columns column).isSome) : StartsAt 0 frame.size (columnAt frame column) := by
  obtain ⟨values, hvalues⟩ := Option.isSome_iff_exists.mp h
  intro bar hbar
  rw [columnAt_eq hvalues, List.getElem?_eq_none_iff, length_values hvalues]
  omega

theorem le_warmUp_of_mem_periods {term : Term α} {period : Nat} (h : period ∈ periods term)
    (hpositive : ∀ period ∈ periods term, 1 ≤ period) : period ≤ warmUp term + 1 := by
  induction term with
  | indicator indicator source length ih =>
      have hlength : 1 ≤ length := hpositive length List.mem_cons_self
      have hwarmUp : warmUp source + length ≤ warmUp (.indicator indicator source length) + 1 := by
        cases indicator <;> simp only [warmUp] <;> omega
      rcases List.mem_cons.mp h with rfl | hsource
      · omega
      · have hinner := ih hsource fun inner hinner =>
          hpositive inner (List.mem_cons_of_mem length hinner)
        omega
  | _ => exact absurd h List.not_mem_nil

theorem size_le_max_warmUp {frame : Frame α} {left right : Term α}
    (hleft : Evaluable frame left) (hright : Evaluable frame right) {period : Nat}
    (hperiod : period ∈ periods left ++ periods right)
    (hlong : frame.size < period) : frame.size ≤ max (warmUp left) (warmUp right) := by
  rcases List.mem_append.mp hperiod with hmem | hmem
  · have hle := le_warmUp_of_mem_periods hmem hleft.positive
    omega
  · have hle := le_warmUp_of_mem_periods hmem hright.positive
    omega

variable [Scalar α]

/-- The values of a term start after its warm-up, by induction on the term. -/
theorem startsAt_valueAt {frame : Frame α} {term : Term α} (h : Evaluable frame term) :
    StartsAt (warmUp term) frame.size (valueAt frame term) := by
  induction term with
  | column column => exact startsAt_columnAt (h.columns column (by simp [Term.reads]))
  | yesterday column => exact (startsAt_columnAt (h.columns column (by simp [Term.reads]))).before
  | constant value => exact fun bar hbar => by simp [valueAt, warmUp]
  | indicator indicator source period ih =>
      have hsource : Evaluable frame source :=
        ⟨h.columns, fun inner hinner => h.positive inner (List.mem_cons_of_mem period hinner)⟩
      have hperiod : 1 ≤ period := h.positive period List.mem_cons_self
      have hmax : max 1 period = period := Nat.max_eq_right hperiod
      rw [valueAt, hmax]
      cases indicator with
      | sma => exact (ih hsource).overLast hperiod
      | ema => exact (ih hsource).averageAt hperiod
      | rsi => exact (ih hsource).overLast (Nat.succ_pos _)

theorem warmUp_le_of_value {frame : Frame α} {term : Term α} (h : Evaluable frame term) {bar : Nat}
    {current : α} (hbar : bar < frame.size) (hvalue : valueAt frame term bar = some current) :
    warmUp term ≤ bar := by
  apply Nat.le_of_not_lt
  intro hearly
  have hnone := (startsAt_valueAt h bar hbar).mpr hearly
  exact nomatch hvalue.symm.trans hnone

section Sides

variable {frame : Frame α} {left right : Term α}

theorem max_warmUp_le_of_compare (hleft : Evaluable frame left) (hright : Evaluable frame right)
    {op : CompareOp} {bar : Nat} (hbar : bar < frame.size)
    (h : HoldsAt frame (.compare op left right) bar) : max (warmUp left) (warmUp right) ≤ bar := by
  obtain ⟨a, b, ha, hb, -⟩ := h
  exact Nat.max_le.mpr ⟨warmUp_le_of_value hleft hbar ha, warmUp_le_of_value hright hbar hb⟩

theorem max_warmUp_lt_of_cross (hleft : Evaluable frame left) (hright : Evaluable frame right)
    {direction : Direction} {bar : Nat} (hbar : bar < frame.size)
    (h : HoldsAt frame (.cross direction left right) bar) :
    max (warmUp left) (warmUp right) < bar := by
  obtain ⟨previous, rfl, a, b, a', b', ha, hb, -⟩ := h
  have hprevious : previous < frame.size := by omega
  have hmax := Nat.max_le.mpr
    ⟨warmUp_le_of_value hleft hprevious ha, warmUp_le_of_value hright hprevious hb⟩
  omega

theorem exists_signal_eq_false {condition : Condition α} (hleft : Evaluable frame left)
    (hright : Evaluable frame right)
    (hreads : ∀ column, condition.reads column = (left.reads column || right.reads column))
    {silent : Nat → Prop}
    (hsilent : ∀ bar < frame.size, silent bar → ¬HoldsAt frame condition bar) :
    ∃ signal, condition.signal frame = .ok signal ∧ signal.length = frame.size ∧
      ∀ bar (hbar : bar < signal.length), silent bar → signal[bar] = false := by
  have hcolumns : ∀ column, condition.reads column = true →
      (frame.columns column).isSome := by
    intro column hread
    rw [hreads, Bool.or_eq_true] at hread
    exact hread.elim (hleft.columns column) (hright.columns column)
  obtain ⟨truth, hsignal, htruth⟩ := exists_truth hcolumns
  refine ⟨_, hsignal, by simp, fun bar hbar h => ?_⟩
  have hinside : bar < frame.size := by simpa using hbar
  have hfalse : ¬ truth bar = true := fun hholds => hsilent bar hinside h ((htruth bar).mp hholds)
  simpa using hfalse

theorem exists_signal_compare (hleft : Evaluable frame left) (hright : Evaluable frame right)
    (op : CompareOp) :
    ∃ signal, (Condition.compare op left right).signal frame = .ok signal ∧
      signal.length = frame.size ∧ ∀ bar (hbar : bar < signal.length),
        bar < max (warmUp left) (warmUp right) → signal[bar] = false := by
  apply exists_signal_eq_false hleft hright (fun column => rfl)
  intro bar hbar hearly hholds
  exact Nat.not_le_of_lt hearly (max_warmUp_le_of_compare hleft hright hbar hholds)

theorem exists_signal_cross (hleft : Evaluable frame left) (hright : Evaluable frame right)
    (direction : Direction) :
    ∃ signal, (Condition.cross direction left right).signal frame = .ok signal ∧
      signal.length = frame.size ∧ ∀ bar (hbar : bar < signal.length),
        bar ≤ max (warmUp left) (warmUp right) → signal[bar] = false := by
  apply exists_signal_eq_false hleft hright (fun column => rfl)
  intro bar hbar hearly hholds
  exact Nat.not_le_of_lt (max_warmUp_lt_of_cross hleft hright hbar hholds) hearly

end Sides

theorem eq_replicate_false {signal : List Bool} {size : Nat} (hlength : signal.length = size)
    (hfalse : ∀ bar (hbar : bar < signal.length), signal[bar] = false) :
    signal = List.replicate size false := by
  rw [List.eq_replicate_iff]
  refine ⟨hlength, fun value hvalue => ?_⟩
  obtain ⟨bar, hbar, rfl⟩ := List.getElem_of_mem hvalue
  exact hfalse bar hbar

/-- A term has no value exactly at the bars before its warm-up is over. So a comparison is false
while one of its sides warms up, a crossing also at the bar after that, and neither ever holds if a
period in one of its sides is longer than the data. -/
theorem undefined_iff_lt_warmUp (frame : Frame α) :
    (∀ term, Evaluable frame term → ∃ series, term.series frame = .ok series ∧
      series.length = frame.size ∧
      ∀ bar (hbar : bar < series.length), series[bar] = none ↔ bar < warmUp term) ∧
    ∀ left right, Evaluable frame left → Evaluable frame right →
      (∀ op, ∃ signal, (Condition.compare op left right).signal frame = .ok signal ∧
        signal.length = frame.size ∧ ∀ bar (hbar : bar < signal.length),
          bar < max (warmUp left) (warmUp right) → signal[bar] = false) ∧
      (∀ direction, ∃ signal, (Condition.cross direction left right).signal frame = .ok signal ∧
        signal.length = frame.size ∧ ∀ bar (hbar : bar < signal.length),
          bar ≤ max (warmUp left) (warmUp right) → signal[bar] = false) ∧
      ∀ period ∈ periods left ++ periods right, frame.size < period →
        (∀ op, (Condition.compare op left right).signal frame =
          .ok (List.replicate frame.size false)) ∧
        ∀ direction, (Condition.cross direction left right).signal frame =
          .ok (List.replicate frame.size false) := by
  constructor
  · intro term hterm
    refine ⟨_, series_eq_seriesOf hterm.columns, length_seriesOf _ _, fun bar hbar => ?_⟩
    have hinside : bar < frame.size := by simpa using hbar
    have hvalue : (seriesOf (valueAt frame term) frame.size)[bar] = valueAt frame term bar := by
      simp [seriesOf]
    rw [hvalue]
    exact startsAt_valueAt hterm bar hinside
  · intro left right hleft hright
    refine ⟨exists_signal_compare hleft hright, exists_signal_cross hleft hright, ?_⟩
    intro period hperiod hlong
    have hmax := size_le_max_warmUp hleft hright hperiod hlong
    constructor
    · intro op
      obtain ⟨signal, hsignal, hlength, hfalse⟩ := exists_signal_compare hleft hright op
      rw [hsignal, eq_replicate_false hlength fun bar hbar => hfalse bar hbar (by omega)]
    · intro direction
      obtain ⟨signal, hsignal, hlength, hfalse⟩ := exists_signal_cross hleft hright direction
      rw [hsignal, eq_replicate_false hlength fun bar hbar => hfalse bar hbar (by omega)]

def smoothedStrength : Term Float :=
  .indicator .ema (.indicator .rsi (.yesterday .close) 2) 2

def longMean : Term Float := .indicator .sma (.column .close) 8

theorem undefined_sevenBars :
    (Evaluable sevenBars smoothedStrength ∧ Evaluable sevenBars longMean) ∧
      (∃ series, smoothedStrength.series sevenBars = .ok series ∧ series.length = 7 ∧
        ∀ bar (hbar : bar < series.length), series[bar] = none ↔ bar < 4) ∧
      (Condition.compare .gt smoothedStrength longMean).signal sevenBars =
        .ok (List.replicate 7 false) := by
  have hcolumns {term : Term Float}
      (hreads : ∀ column, term.reads column = true → column = .close) :
      ∀ column, term.reads column = true → (sevenBars.columns column).isSome := by
    intro column hread
    obtain rfl := hreads column hread
    rfl
  have hsmoothed : Evaluable sevenBars smoothedStrength :=
    ⟨hcolumns (fun column => by cases column <;> decide), by decide⟩
  have hlong : Evaluable sevenBars longMean :=
    ⟨hcolumns (fun column => by cases column <;> decide), by decide⟩
  obtain ⟨hseries, hsignals⟩ := undefined_iff_lt_warmUp sevenBars
  obtain ⟨-, -, hsilent⟩ := hsignals smoothedStrength longMean hsmoothed hlong
  exact ⟨⟨hsmoothed, hlong⟩, hseries smoothedStrength hsmoothed,
    (hsilent 8 (by decide) (by decide)).1 .gt⟩

end Backtest.Proofs.WarmUp
