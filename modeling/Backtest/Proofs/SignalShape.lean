import Backtest.Proofs.Outcome
import Backtest.Proofs.SeriesPrefix
import Backtest.Rule.Signal

namespace Backtest.Proofs.SignalShape

open Backtest.Rule
open Backtest.Proofs.Outcome
open Backtest.Proofs.SeriesPrefix

variable {α : Type}

theorem column_eq_ok {frame : Frame α} {column : Column} {values : List α} :
    frame.column column = .ok values ↔ frame.columns column = some values := by
  rw [Frame.column]
  split <;> simp_all

theorem length_values {frame : Frame α} {column : Column} {values : List α}
    (h : frame.columns column = some values) : values.length = frame.size :=
  frame.aligned column values h

theorem isEmpty_eq_false {frame : Frame α} : frame.isEmpty = false ↔ 0 < frame.size := by
  rw [Frame.isEmpty, Frame.size, List.isEmpty_eq_false_iff, List.length_pos_iff]

theorem mem_requiredColumns {rules : RuleSet (Condition α)} {column : Column} :
    column ∈ rules.requiredColumns ↔
      (∃ rule, rules.entry = some rule ∧ rule.reads column = true) ∨
        ∃ rule, rules.exit = some rule ∧ rule.reads column = true := by
  rw [RuleSet.requiredColumns, List.mem_filter, Bool.or_eq_true]
  cases rules.entry <;> cases rules.exit <;> simp [column.mem_all]

theorem firstMissing?_eq_none {frame : Frame α} {columns : List Column} :
    firstMissing? frame columns = none ↔
      ∀ column ∈ columns, (frame.columns column).isSome = true := by
  simp [firstMissing?, Option.isSome_iff_ne_none]

variable [Scalar α]

theorem series_column_eq_ok {frame : Frame α} {column : Column} {series : Series α} :
    (Term.column column).series frame = .ok series ↔
      ∃ values, frame.columns column = some values ∧ Series.ofValues values = series := by
  simp [Term.series, column_eq_ok]

theorem series_yesterday_eq_ok {frame : Frame α} {column : Column} {series : Series α} :
    (Term.yesterday column).series frame = .ok series ↔
      ∃ values, frame.columns column = some values ∧
        (Series.ofValues values).shift = series := by
  simp [Term.series, column_eq_ok]

theorem series_indicator_eq_ok {frame : Frame α} {indicator : Indicator} {source : Term α}
    {period : Nat} {series : Series α} :
    (Term.indicator indicator source period).series frame = .ok series ↔
      ∃ values, source.series frame = .ok values ∧ indicator.apply period values = series := by
  simp [Term.series]

theorem signal_compare_eq_ok {frame : Frame α} {op : CompareOp} {left right : Term α}
    {signal : List Bool} :
    (Condition.compare op left right).signal frame = .ok signal ↔
      ∃ a, left.series frame = .ok a ∧ ∃ b, right.series frame = .ok b ∧
        List.zipWith op.holdsDefined a b = signal := by
  simp [Condition.signal]

theorem signal_cross_eq_ok {frame : Frame α} {direction : Direction} {left right : Term α}
    {signal : List Bool} :
    (Condition.cross direction left right).signal frame = .ok signal ↔
      ∃ a, left.series frame = .ok a ∧ ∃ b, right.series frame = .ok b ∧
        direction.apply a b = signal := by
  simp [Condition.signal]

theorem signal_logical_eq_ok {frame : Frame α} {op : BoolOp} {left right : Condition α}
    {signal : List Bool} :
    (Condition.logical op left right).signal frame = .ok signal ↔
      ∃ a, left.signal frame = .ok a ∧ ∃ b, right.signal frame = .ok b ∧
        List.zipWith op.apply a b = signal := by
  simp [Condition.signal]

theorem length_apply (indicator : Indicator) (period : Nat) (series : Series α) :
    (indicator.apply period series).length = series.length := by
  cases indicator with
  | sma => exact length_sma period series
  | ema => exact length_ema period series
  | rsi => exact length_rsi period series

theorem length_direction_apply (direction : Direction) (left right : Series α) :
    (direction.apply left right).length = min left.length right.length := by
  cases direction with
  | above => exact length_crossings _ left right
  | below => exact length_crossings _ left right

theorem length_series {frame : Frame α} {term : Term α} {series : Series α}
    (h : term.series frame = .ok series) : series.length = frame.size := by
  induction term generalizing series with
  | column column =>
      obtain ⟨values, hvalues, rfl⟩ := series_column_eq_ok.mp h
      rw [length_ofValues, length_values hvalues]
  | yesterday column =>
      obtain ⟨values, hvalues, rfl⟩ := series_yesterday_eq_ok.mp h
      rw [length_shift, length_ofValues, length_values hvalues]
  | constant value =>
      obtain rfl := Except.ok.inj h
      exact List.length_replicate
  | indicator indicator source period ih =>
      obtain ⟨values, hvalues, rfl⟩ := series_indicator_eq_ok.mp h
      rw [length_apply, ih hvalues]

theorem length_signal {frame : Frame α} {condition : Condition α} {signal : List Bool}
    (h : condition.signal frame = .ok signal) : signal.length = frame.size := by
  induction condition generalizing signal with
  | compare op left right =>
      obtain ⟨a, ha, b, hb, rfl⟩ := signal_compare_eq_ok.mp h
      rw [List.length_zipWith, length_series ha, length_series hb, Nat.min_self]
  | cross direction left right =>
      obtain ⟨a, ha, b, hb, rfl⟩ := signal_cross_eq_ok.mp h
      rw [length_direction_apply, length_series ha, length_series hb, Nat.min_self]
  | logical op left right ihLeft ihRight =>
      obtain ⟨a, ha, b, hb, rfl⟩ := signal_logical_eq_ok.mp h
      rw [List.length_zipWith, ihLeft ha, ihRight hb, Nat.min_self]

theorem exists_series {frame : Frame α} {term : Term α}
    (h : ∀ column, term.reads column = true → (frame.columns column).isSome) :
    ∃ series, term.series frame = .ok series := by
  induction term with
  | column column =>
      obtain ⟨values, hvalues⟩ := Option.isSome_iff_exists.mp (h column (by simp [Term.reads]))
      exact ⟨_, series_column_eq_ok.mpr ⟨values, hvalues, rfl⟩⟩
  | yesterday column =>
      obtain ⟨values, hvalues⟩ := Option.isSome_iff_exists.mp (h column (by simp [Term.reads]))
      exact ⟨_, series_yesterday_eq_ok.mpr ⟨values, hvalues, rfl⟩⟩
  | constant value => exact ⟨_, rfl⟩
  | indicator indicator source period ih =>
      obtain ⟨values, hvalues⟩ := ih h
      exact ⟨_, series_indicator_eq_ok.mpr ⟨values, hvalues, rfl⟩⟩

theorem exists_series_both {frame : Frame α} {left right : Term α}
    (h : ∀ column, (left.reads column || right.reads column) = true →
      (frame.columns column).isSome) :
    ∃ a, left.series frame = .ok a ∧ ∃ b, right.series frame = .ok b := by
  obtain ⟨a, ha⟩ : ∃ a, left.series frame = .ok a :=
    exists_series fun column hread => h column (by rw [hread, Bool.true_or])
  obtain ⟨b, hb⟩ : ∃ b, right.series frame = .ok b :=
    exists_series fun column hread => h column (by rw [hread, Bool.or_true])
  exact ⟨a, ha, b, hb⟩

theorem exists_signal {frame : Frame α} {condition : Condition α}
    (h : ∀ column, condition.reads column = true → (frame.columns column).isSome) :
    ∃ signal, condition.signal frame = .ok signal := by
  induction condition with
  | compare op left right =>
      obtain ⟨a, ha, b, hb⟩ := exists_series_both h
      exact ⟨_, signal_compare_eq_ok.mpr ⟨a, ha, b, hb, rfl⟩⟩
  | cross direction left right =>
      obtain ⟨a, ha, b, hb⟩ := exists_series_both h
      exact ⟨_, signal_cross_eq_ok.mpr ⟨a, ha, b, hb, rfl⟩⟩
  | logical op left right ihLeft ihRight =>
      obtain ⟨a, ha⟩ := ihLeft fun column hread => h column (by simp [Condition.reads, hread])
      obtain ⟨b, hb⟩ := ihRight fun column hread => h column (by simp [Condition.reads, hread])
      exact ⟨_, signal_logical_eq_ok.mpr ⟨a, ha, b, hb, rfl⟩⟩

theorem length_blockSignal {frame : Frame α} {block : Option (Condition α)} {signal : List Bool}
    (h : blockSignal frame block = .ok signal) : signal.length = frame.size := by
  cases block with
  | none =>
      obtain rfl := Except.ok.inj h
      exact List.length_replicate
  | some condition => exact length_signal h

theorem exists_blockSignal {frame : Frame α} {block : Option (Condition α)}
    (h : ∀ rule, block = some rule →
      ∀ column, rule.reads column = true → (frame.columns column).isSome) :
    ∃ signal, blockSignal frame block = .ok signal := by
  cases block with
  | none => exact ⟨_, rfl⟩
  | some condition => exact exists_signal (h condition rfl)

theorem signals_eq_ok {frame : Frame α} {rules : RuleSet (Condition α)} {signals : Signals} :
    rules.signals frame = .ok signals ↔
      frame.isEmpty = false ∧ firstMissing? frame rules.requiredColumns = none ∧
        blockSignal frame rules.entry = .ok signals.entry ∧
          blockSignal frame rules.exit = .ok signals.exit := by
  rw [RuleSet.signals]
  cases frame.isEmpty with
  | true => simp [throw, throwThe, MonadExceptOf.throw]
  | false =>
      cases firstMissing? frame rules.requiredColumns with
      | some column => simp [throw, throwThe, MonadExceptOf.throw]
      | none =>
          simp only [Bool.false_eq_true, if_false, bind_pure_comp, bind_eq_ok, map_eq_ok, true_and]
          constructor
          · rintro ⟨entry, hentry, exit, hexit, rfl⟩
            exact ⟨hentry, hexit⟩
          · rintro ⟨hentry, hexit⟩
            exact ⟨_, hentry, _, hexit, rfl⟩

theorem length_signals {frame : Frame α} {rules : RuleSet (Condition α)} {signals : Signals}
    (h : rules.signals frame = .ok signals) :
    signals.entry.length = frame.size ∧ signals.exit.length = frame.size := by
  obtain ⟨-, -, hentry, hexit⟩ := signals_eq_ok.mp h
  exact ⟨length_blockSignal hentry, length_blockSignal hexit⟩

theorem exists_signals {frame : Frame α} {rules : RuleSet (Condition α)}
    (hframe : frame.isEmpty = false)
    (h : ∀ column ∈ rules.requiredColumns, (frame.columns column).isSome = true) :
    ∃ signals, rules.signals frame = .ok signals := by
  obtain ⟨entry, hentry⟩ : ∃ entry, blockSignal frame rules.entry = .ok entry :=
    exists_blockSignal fun rule hrule column hread =>
      h column (mem_requiredColumns.mpr (.inl ⟨rule, hrule, hread⟩))
  obtain ⟨exit, hexit⟩ : ∃ exit, blockSignal frame rules.exit = .ok exit :=
    exists_blockSignal fun rule hrule column hread =>
      h column (mem_requiredColumns.mpr (.inr ⟨rule, hrule, hread⟩))
  exact ⟨⟨entry, exit⟩, signals_eq_ok.mpr ⟨hframe, firstMissing?_eq_none.mpr h, hentry, hexit⟩⟩

end Backtest.Proofs.SignalShape
