import Backtest.Proofs.FloatOrder
import Backtest.Proofs.MissingColumn
import Backtest.Proofs.SignalMeaning
import Backtest.Proofs.TradeSchedule

namespace Backtest.Proofs.CrossingEdges

open Backtest.Rule
open Backtest.Series
open Backtest.Proofs.BarMeaning
open Backtest.Proofs.FloatOrder
open Backtest.Proofs.IndicatorMeaning
open Backtest.Proofs.MissingColumn
open Backtest.Proofs.SeriesPrefix
open Backtest.Proofs.SignalCausality
open Backtest.Proofs.SignalMeaning
open Backtest.Proofs.SignalShape
open Backtest.Proofs.TradeSchedule

variable {α : Type}

def HasColumns (frame : Frame α) (left right : Term α) : Prop :=
  ∀ column, (left.reads column || right.reads column) = true → (frame.columns column).isSome

theorem holds_map_range {truth : Nat → Bool} {count bar : Nat} :
    Holds ((List.range count).map truth) bar ↔ bar < count ∧ truth bar = true := by
  rw [Holds, List.getD_eq_getElem?_getD, List.getElem?_map]
  by_cases hbar : bar < count
  · simp [hbar]
  · simp [hbar]

/-- Between a bar where one property holds and a later one where the other does, the one passes into
the other, if each bar has one of them. -/
theorem exists_edge {before after : Nat → Prop} {first last : Nat} (hlt : first < last)
    (hfirst : before first) (hlast : after last)
    (htotal : ∀ bar, first ≤ bar → bar ≤ last → before bar ∨ after bar) :
    ∃ previous, first ≤ previous ∧ previous < last ∧ before previous ∧ after (previous + 1) := by
  induction last, hlt using Nat.le_induction with
  | base => exact ⟨first, Nat.le_refl first, Nat.lt_succ_self first, hfirst, hlast⟩
  | succ last hle ih =>
      rcases htotal last (Nat.le_of_succ_le hle) (Nat.le_succ last) with hbefore | hafter
      · exact ⟨last, Nat.le_of_succ_le hle, Nat.lt_succ_self last, hbefore, hlast⟩
      · obtain ⟨previous, hprevious, hless, hedge⟩ := ih hafter fun bar hmin hmax =>
          htotal bar hmin (Nat.le_succ_of_le hmax)
        exact ⟨previous, hprevious, Nat.lt_succ_of_lt hless, hedge⟩

theorem crossed_swap (relation : α → α → α → α → Bool) (earlier later : Option α × Option α) :
    crossed relation earlier later =
      crossed (fun x y x' y' => relation y x y' x') earlier.swap later.swap := by
  obtain ⟨_ | x, _ | y⟩ := earlier <;> obtain ⟨_ | x', _ | y'⟩ := later <;> rfl

theorem crossings_swap (relation : α → α → α → α → Bool) (a b : Series α) :
    crossings relation a b = crossings (fun x y x' y' => relation y x y' x') b a := by
  apply List.ext_getElem
  · rw [length_crossings, length_crossings, Nat.min_comm]
  · intro bar hbar hbar'
    simp only [crossings, List.getElem_zipWith, List.getElem_zip]
    exact crossed_swap relation _ _

variable [Scalar α]

/-- The condition has a signal on the frame, and the signal holds at the bar. -/
def HoldsOn (frame : Frame α) (condition : Condition α) (bar : Nat) : Prop :=
  ∃ signal, condition.signal frame = .ok signal ∧ Holds signal bar

theorem columns_of_signal {frame : Frame α} {condition : Condition α} {signal : List Bool}
    (h : condition.signal frame = .ok signal) :
    ∀ column, condition.reads column = true → (frame.columns column).isSome := by
  intro column hread
  exact not_absent_iff.mp
    ((failsOn_signal frame condition).not_absent h column (condition_reads_iff.mp hread))

theorem holdsOn_iff {frame : Frame α} {condition : Condition α} {bar : Nat} :
    HoldsOn frame condition bar ↔
      (∀ column, condition.reads column = true → (frame.columns column).isSome) ∧
        bar < frame.size ∧ HoldsAt frame condition bar := by
  constructor
  · rintro ⟨signal, hsignal, hholds⟩
    have hcolumns := columns_of_signal hsignal
    obtain ⟨truth, htruth, hmeaning⟩ := exists_truth hcolumns
    obtain rfl := Except.ok.inj (hsignal.symm.trans htruth)
    obtain ⟨hbar, htrue⟩ := holds_map_range.mp hholds
    exact ⟨hcolumns, hbar, (hmeaning bar).mp htrue⟩
  · rintro ⟨hcolumns, hbar, hholds⟩
    obtain ⟨truth, htruth, hmeaning⟩ := exists_truth hcolumns
    exact ⟨_, htruth, holds_map_range.mpr ⟨hbar, (hmeaning bar).mpr hholds⟩⟩

section Crossing

variable (frame : Frame α) (left right : Term α)

theorem exists_crossing_iff :
    (∃ signal, (Condition.cross .above left right).signal frame = .ok signal) ↔
      HasColumns frame left right := by
  constructor
  · rintro ⟨signal, hsignal⟩
    exact columns_of_signal hsignal
  · exact fun hcolumns => exists_signal hcolumns

theorem holdsOn_above_iff (bar : Nat) :
    HoldsOn frame (.cross .above left right) bar ↔ ∃ previous, bar = previous + 1 ∧
      HoldsOn frame (.compare .le left right) previous ∧
        HoldsOn frame (.compare .gt left right) bar := by
  simp only [holdsOn_iff, HoldsAt]
  constructor
  · rintro ⟨hcolumns, hbar, previous, rfl, a, b, a', b', ha, hb, ha', hb', hle, hlt⟩
    exact ⟨previous, rfl, ⟨hcolumns, Nat.lt_of_succ_lt hbar, a, b, ha, hb, hle⟩,
      hcolumns, hbar, a', b', ha', hb', hlt⟩
  · rintro ⟨previous, rfl, ⟨hcolumns, -, a, b, ha, hb, hle⟩, -, hbar, a', b', ha', hb', hlt⟩
    exact ⟨hcolumns, hbar, previous, rfl, a, b, a', b', ha, hb, ha', hb', hle, hlt⟩

theorem signal_above_iff (signal : List Bool) :
    (Condition.cross .above left right).signal frame = .ok signal ↔
      (Condition.cross .below right left).signal frame = .ok signal := by
  have hswap (a b : Series α) : Direction.above.apply a b = Direction.below.apply b a :=
    crossings_swap _ a b
  simp only [signal_cross_eq_ok, hswap]
  constructor
  · rintro ⟨a, ha, b, hb, hsignal⟩
    exact ⟨b, hb, a, ha, hsignal⟩
  · rintro ⟨b, hb, a, ha, hsignal⟩
    exact ⟨a, ha, b, hb, hsignal⟩

end Crossing

def NumberOn (frame : Frame Float) (term : Term Float) (bar : Nat) : Prop :=
  ∃ series value, term.series frame = .ok series ∧ series[bar]? = some (some value) ∧
    value.isNaN = false

section Numbers

variable {frame : Frame Float} {left right : Term Float} {bar : Nat}

theorem NumberOn.valueAt {term : Term Float} (h : NumberOn frame term bar)
    (hcolumns : ∀ column, term.reads column = true → (frame.columns column).isSome) :
    bar < frame.size ∧ ∃ value, valueAt frame term bar = some value ∧ value.isNaN = false := by
  obtain ⟨series, value, hseries, hvalue, hnumber⟩ := h
  obtain rfl := Except.ok.inj (hseries.symm.trans (series_eq_seriesOf hcolumns))
  obtain ⟨hbar, -⟩ := List.getElem?_eq_some_iff.mp hvalue
  rw [length_seriesOf] at hbar
  rw [getElem?_seriesOf hbar] at hvalue
  exact ⟨hbar, value, Option.some.inj hvalue, hnumber⟩

theorem holdsOn_le_or_gt (hcolumns : HasColumns frame left right) (hleft : NumberOn frame left bar)
    (hright : NumberOn frame right bar) :
    HoldsOn frame (.compare .le left right) bar ∨ HoldsOn frame (.compare .gt left right) bar := by
  obtain ⟨hbar, a, ha, hnumber⟩ := hleft.valueAt fun column hread =>
    hcolumns column (by rw [hread, Bool.true_or])
  obtain ⟨-, b, hb, hnumber'⟩ := hright.valueAt fun column hread =>
    hcolumns column (by rw [hread, Bool.or_true])
  simp only [holdsOn_iff, HoldsAt]
  rcases le_or_lt hnumber hnumber' with hle | hlt
  · exact .inl ⟨hcolumns, hbar, a, b, ha, hb, decide_eq_true hle⟩
  · exact .inr ⟨hcolumns, hbar, a, b, ha, hb, decide_eq_true hlt⟩

theorem not_above_and_below (frame : Frame Float) (left right : Term Float) (bar : Nat) :
    ¬(HoldsOn frame (.cross .above left right) bar ∧
      HoldsOn frame (.cross .below left right) bar) := by
  simp only [holdsOn_iff, HoldsAt]
  rintro ⟨⟨-, -, -, -, -, -, x, y, -, -, hx, hy, -, habove⟩,
    -, -, -, -, -, -, x', y', -, -, hx', hy', -, hbelow⟩
  obtain rfl := Option.some.inj (hx.symm.trans hx')
  obtain rfl := Option.some.inj (hy.symm.trans hy')
  exact not_lt_of_lt (scalar_lt_iff.mp habove) (scalar_lt_iff.mp hbelow)

end Numbers

/-- A crossing is where a comparison turns from not greater to greater. The two directions mirror
and exclude each other, and there is a crossing wherever the comparison turns over a stretch of bars
with numbers on both sides. -/
theorem crossings_are_edges (frame : Frame Float) (left right : Term Float) :
    ((∃ signal, (Condition.cross .above left right).signal frame = .ok signal) ↔
      HasColumns frame left right) ∧
    (∀ bar, HoldsOn frame (.cross .above left right) bar ↔ ∃ previous, bar = previous + 1 ∧
      HoldsOn frame (.compare .le left right) previous ∧
        HoldsOn frame (.compare .gt left right) bar) ∧
    (∀ signal, (Condition.cross .above left right).signal frame = .ok signal ↔
      (Condition.cross .below right left).signal frame = .ok signal) ∧
    (∀ bar, ¬(HoldsOn frame (.cross .above left right) bar ∧
      HoldsOn frame (.cross .below left right) bar)) ∧
    ∀ first last, first < last → HoldsOn frame (.compare .le left right) first →
      HoldsOn frame (.compare .gt left right) last →
      (∀ bar, first ≤ bar → bar ≤ last → NumberOn frame left bar ∧ NumberOn frame right bar) →
      ∃ bar, first < bar ∧ bar ≤ last ∧ HoldsOn frame (.cross .above left right) bar := by
  refine ⟨exists_crossing_iff frame left right, holdsOn_above_iff frame left right,
    signal_above_iff frame left right, not_above_and_below frame left right, ?_⟩
  intro first last hlt hfirst hlast hnumbers
  have hcolumns : HasColumns frame left right := (holdsOn_iff.mp hfirst).1
  obtain ⟨previous, hmin, hmax, hbefore, hafter⟩ :=
    exists_edge hlt hfirst hlast fun bar hle hge =>
      holdsOn_le_or_gt hcolumns (hnumbers bar hle hge).1 (hnumbers bar hle hge).2
  exact ⟨previous + 1, Nat.lt_succ_of_le hmin, hmax,
    (holdsOn_above_iff frame left right (previous + 1)).mpr ⟨previous, rfl, hbefore, hafter⟩⟩

def shortMean : Term Float := .indicator .sma (.column .close) 2

theorem numberOn_sevenBars (bar : Nat) (hmin : 3 ≤ bar) (hmax : bar ≤ 5) :
    NumberOn sevenBars (.column .close) bar ∧ NumberOn sevenBars shortMean bar := by
  obtain rfl | rfl | rfl : bar = 3 ∨ bar = 4 ∨ bar = 5 := by omega
  all_goals exact ⟨⟨_, _, rfl, rfl, by decide⟩, _, _, rfl, rfl, by decide⟩

theorem crossings_are_edges_sevenBars :
    HoldsOn sevenBars (.compare .le (.column .close) shortMean) 3 ∧
      HoldsOn sevenBars (.compare .gt (.column .close) shortMean) 5 ∧
      (∀ bar, 3 ≤ bar → bar ≤ 5 →
        NumberOn sevenBars (.column .close) bar ∧ NumberOn sevenBars shortMean bar) ∧
      ∃ bar, 3 < bar ∧ bar ≤ 5 ∧
        HoldsOn sevenBars (.cross .above (.column .close) shortMean) bar := by
  have hfirst : HoldsOn sevenBars (.compare .le (.column .close) shortMean) 3 := ⟨_, rfl, rfl⟩
  have hlast : HoldsOn sevenBars (.compare .gt (.column .close) shortMean) 5 := ⟨_, rfl, rfl⟩
  obtain ⟨-, -, -, -, hcrossing⟩ := crossings_are_edges sevenBars (.column .close) shortMean
  exact ⟨hfirst, hlast, numberOn_sevenBars,
    hcrossing 3 5 (by decide) hfirst hlast numberOn_sevenBars⟩

end Backtest.Proofs.CrossingEdges
