import Backtest.Proofs.IndicatorMeaning
import Backtest.Proofs.SignalCausality

namespace Backtest.Proofs.SignalMeaning

open Backtest.Rule
open Backtest.Series
open Backtest.Proofs.BarMeaning
open Backtest.Proofs.IndicatorMeaning
open Backtest.Proofs.SignalCausality
open Backtest.Proofs.SignalShape

variable {α : Type}

theorem columnAt_eq {frame : Frame α} {column : Column} {values : List α}
    (h : frame.columns column = some values) :
    columnAt frame column = fun bar => values[bar]? := by
  funext bar
  rw [columnAt, h, Option.bind_some]

theorem crossings_seriesOf (relation : α → α → α → α → Bool) (left right : Nat → Option α)
    (count : Nat) :
    crossings relation (seriesOf left count) (seriesOf right count) =
      (List.range count).map fun bar =>
        crossed relation (before left bar, before right bar) (left bar, right bar) := by
  rw [crossings, shift_seriesOf, shift_seriesOf]
  simp only [seriesOf, List.zip_map', List.zipWith_map, List.zipWith_self]

theorem crossed_eq_true_iff {relation : α → α → α → α → Bool} {left right : Nat → Option α}
    {bar : Nat} :
    crossed relation (before left bar, before right bar) (left bar, right bar) = true ↔
      ∃ previous, bar = previous + 1 ∧ ∃ a b a' b', left previous = some a ∧
        right previous = some b ∧ left bar = some a' ∧ right bar = some b' ∧
          relation a b a' b' = true := by
  cases bar with
  | zero => simp [before, crossed]
  | succ previous =>
      simp only [before, Nat.add_right_cancel_iff, exists_eq_left']
      cases left previous <;> cases right previous <;> cases left (previous + 1) <;>
        cases right (previous + 1) <;> simp [crossed]

variable [Scalar α]

theorem apply_seriesOf (indicator : Indicator) (period : Nat) (value : Nat → Option α)
    (count : Nat) :
    indicator.apply period (seriesOf value count) =
      seriesOf (indicatorAt indicator (max 1 period) value) count := by
  cases indicator with
  | sma => exact sma_seriesOf period value count
  | ema => exact ema_seriesOf period value count
  | rsi => exact rsi_seriesOf period value count

/-- The values of a term at the bars, by induction on the term. -/
theorem series_eq_seriesOf {frame : Frame α} {term : Term α}
    (h : ∀ column, term.reads column = true → (frame.columns column).isSome) :
    term.series frame = .ok (seriesOf (valueAt frame term) frame.size) := by
  induction term with
  | column column =>
      obtain ⟨values, hvalues⟩ := Option.isSome_iff_exists.mp (h column (by simp [Term.reads]))
      refine series_column_eq_ok.mpr ⟨values, hvalues, ?_⟩
      rw [ofValues_eq_seriesOf, length_values hvalues, valueAt, columnAt_eq hvalues]
  | yesterday column =>
      obtain ⟨values, hvalues⟩ := Option.isSome_iff_exists.mp (h column (by simp [Term.reads]))
      refine series_yesterday_eq_ok.mpr ⟨values, hvalues, ?_⟩
      rw [ofValues_eq_seriesOf, shift_seriesOf, length_values hvalues, valueAt,
        columnAt_eq hvalues]
  | constant value =>
      have hconstant : valueAt frame (.constant value) = fun _ => some value := rfl
      rw [Term.series, seriesOf, hconstant, List.map_const', List.length_range]
  | indicator indicator source period ih =>
      exact series_indicator_eq_ok.mpr ⟨_, ih h, apply_seriesOf indicator period _ _⟩

theorem series_both_eq_seriesOf {frame : Frame α} {left right : Term α}
    (h : ∀ column, (left.reads column || right.reads column) = true →
      (frame.columns column).isSome) :
    left.series frame = .ok (seriesOf (valueAt frame left) frame.size) ∧
      right.series frame = .ok (seriesOf (valueAt frame right) frame.size) :=
  ⟨series_eq_seriesOf fun column hread => h column (by rw [hread, Bool.true_or]),
    series_eq_seriesOf fun column hread => h column (by rw [hread, Bool.or_true])⟩

theorem holdsDefined_eq_true_iff {op : CompareOp} {left right : Option α} :
    op.holdsDefined left right = true ↔
      ∃ a b, left = some a ∧ right = some b ∧ op.holds a b = true := by
  cases left <;> cases right <;> simp [CompareOp.holdsDefined]

theorem direction_apply_seriesOf (direction : Direction) (left right : Nat → Option α)
    (count : Nat) :
    ∃ relation : α → α → α → α → Bool,
      (∀ a b a' b', relation a b a' b' = true ↔ Passes direction a b a' b') ∧
        direction.apply (seriesOf left count) (seriesOf right count) =
          (List.range count).map fun bar =>
            crossed relation (before left bar, before right bar) (left bar, right bar) := by
  cases direction with
  | above => exact ⟨_, fun _ _ _ _ => Bool.and_eq_true_iff, crossings_seriesOf _ left right count⟩
  | below => exact ⟨_, fun _ _ _ _ => Bool.and_eq_true_iff, crossings_seriesOf _ left right count⟩

theorem exists_truth {frame : Frame α} {condition : Condition α}
    (h : ∀ column, condition.reads column = true → (frame.columns column).isSome) :
    ∃ truth : Nat → Bool, condition.signal frame = .ok ((List.range frame.size).map truth) ∧
      ∀ bar, truth bar = true ↔ HoldsAt frame condition bar := by
  induction condition with
  | compare op left right =>
      obtain ⟨hleft, hright⟩ := series_both_eq_seriesOf h
      refine ⟨fun bar => op.holdsDefined (valueAt frame left bar) (valueAt frame right bar),
        signal_compare_eq_ok.mpr ⟨_, hleft, _, hright, ?_⟩, fun bar => holdsDefined_eq_true_iff⟩
      rw [seriesOf, seriesOf, List.zipWith_map, List.zipWith_self]
  | cross direction left right =>
      obtain ⟨hleft, hright⟩ := series_both_eq_seriesOf h
      obtain ⟨relation, hrelation, hsignal⟩ :=
        direction_apply_seriesOf direction (valueAt frame left) (valueAt frame right) frame.size
      refine ⟨_, signal_cross_eq_ok.mpr ⟨_, hleft, _, hright, hsignal⟩, fun bar => ?_⟩
      rw [crossed_eq_true_iff]
      simp only [hrelation, HoldsAt]
  | logical op left right ihLeft ihRight =>
      obtain ⟨truth, hleft, htruth⟩ := ihLeft fun column hread =>
        h column (by simp [Condition.reads, hread])
      obtain ⟨truth', hright, htruth'⟩ := ihRight fun column hread =>
        h column (by simp [Condition.reads, hread])
      refine ⟨fun bar => op.apply (truth bar) (truth' bar),
        signal_logical_eq_ok.mpr ⟨_, hleft, _, hright, ?_⟩, fun bar => ?_⟩
      · rw [List.zipWith_map, List.zipWith_self]
      · cases op <;> simp [BoolOp.apply, HoldsAt, htruth, htruth']

def layeredRule : Condition Float :=
  .logical .and
    (.cross .above (.column .close) (.indicator .ema (.indicator .sma (.column .close) 2) 2))
    (.compare .lt (.indicator .rsi (.column .close) 2) (.constant 50))

set_option maxRecDepth 4000 in
example : layeredRule.signal sevenBars =
    .ok [false, false, false, false, true, false, false] := by rfl

end Backtest.Proofs.SignalMeaning
