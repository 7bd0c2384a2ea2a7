import Backtest.Proofs.SignalShape

namespace Backtest.Proofs.SignalCausality

open Backtest.Rule
open Backtest.Proofs.SeriesPrefix
open Backtest.Proofs.SignalShape

variable {α : Type}

/-- Both frames hold the column, with the same values at the first `count` bars. -/
def AgreeOn (count : Nat) (frame frame' : Frame α) (column : Column) : Prop :=
  ∃ values values', frame.columns column = some values ∧ frame'.columns column = some values' ∧
    values.take count = values'.take count

theorem AgreeOn.take_eq {count : Nat} {frame frame' : Frame α} {column : Column}
    {values values' : List α} (h : AgreeOn count frame frame' column)
    (hvalues : frame.columns column = some values)
    (hvalues' : frame'.columns column = some values') :
    values.take count = values'.take count := by
  obtain ⟨ys, ys', hys, hys', htake⟩ := h
  rwa [Option.some.inj (hvalues.symm.trans hys), Option.some.inj (hvalues'.symm.trans hys')]

def firstBars (frame : Frame α) (count : Nat) : Frame α where
  dates := frame.dates.take count
  columns := fun column => (frame.columns column).map (·.take count)
  close_isSome := by simpa using frame.close_isSome
  aligned := by
    intro column values hvalues
    obtain ⟨all, hall, rfl⟩ := Option.map_eq_some_iff.mp hvalues
    rw [List.length_take, List.length_take, frame.aligned column all hall]
  increasing := frame.increasing.take

theorem size_firstBars (frame : Frame α) {count : Nat} (h : count ≤ frame.size) :
    (firstBars frame count).size = count := by
  rw [Frame.size, firstBars, List.length_take]
  exact Nat.min_eq_left h

theorem columns_firstBars (frame : Frame α) (count : Nat) (column : Column) :
    (firstBars frame count).columns column = (frame.columns column).map (·.take count) := rfl

theorem agreeOn_firstBars {frame : Frame α} {column : Column}
    (h : (frame.columns column).isSome) (count : Nat) :
    AgreeOn count frame (firstBars frame count) column := by
  obtain ⟨values, hvalues⟩ := Option.isSome_iff_exists.mp h
  refine ⟨values, values.take count, hvalues, ?_, ?_⟩
  · rw [columns_firstBars, hvalues]
    rfl
  · rw [List.take_take, Nat.min_self]

variable [Scalar α]

theorem take_apply (indicator : Indicator) (period count : Nat) (series : Series α) :
    (indicator.apply period series).take count = indicator.apply period (series.take count) := by
  cases indicator with
  | sma => exact take_sma period count series
  | ema => exact take_ema period count series
  | rsi => exact take_rsi period count series

theorem take_direction_apply (direction : Direction) (count : Nat) (left right : Series α) :
    (direction.apply left right).take count =
      direction.apply (left.take count) (right.take count) := by
  cases direction with
  | above => exact take_crossings _ count left right
  | below => exact take_crossings _ count left right

theorem take_series {count : Nat} {frame frame' : Frame α} (hle : count ≤ frame.size)
    (hle' : count ≤ frame'.size) {term : Term α}
    (hagree : ∀ column, term.reads column = true → AgreeOn count frame frame' column)
    {series series' : Series α} (h : term.series frame = .ok series)
    (h' : term.series frame' = .ok series') : series.take count = series'.take count := by
  induction term generalizing series series' with
  | column column =>
      obtain ⟨values, hvalues, rfl⟩ := series_column_eq_ok.mp h
      obtain ⟨values', hvalues', rfl⟩ := series_column_eq_ok.mp h'
      have htake := (hagree column (by simp [Term.reads])).take_eq hvalues hvalues'
      rw [take_ofValues, take_ofValues, htake]
  | yesterday column =>
      obtain ⟨values, hvalues, rfl⟩ := series_yesterday_eq_ok.mp h
      obtain ⟨values', hvalues', rfl⟩ := series_yesterday_eq_ok.mp h'
      have htake := (hagree column (by simp [Term.reads])).take_eq hvalues hvalues'
      rw [take_shift, take_shift, take_ofValues, take_ofValues, htake]
  | constant value =>
      obtain rfl := Except.ok.inj h
      obtain rfl := Except.ok.inj h'
      rw [List.take_replicate, List.take_replicate, Nat.min_eq_left hle, Nat.min_eq_left hle']
  | indicator indicator source period ih =>
      obtain ⟨values, hvalues, rfl⟩ := series_indicator_eq_ok.mp h
      obtain ⟨values', hvalues', rfl⟩ := series_indicator_eq_ok.mp h'
      rw [take_apply, take_apply, ih hagree hvalues hvalues']

theorem take_series_both {count : Nat} {frame frame' : Frame α} (hle : count ≤ frame.size)
    (hle' : count ≤ frame'.size) {left right : Term α}
    (hagree : ∀ column, (left.reads column || right.reads column) = true →
      AgreeOn count frame frame' column)
    {a a' b b' : Series α} (ha : left.series frame = .ok a) (ha' : left.series frame' = .ok a')
    (hb : right.series frame = .ok b) (hb' : right.series frame' = .ok b') :
    a.take count = a'.take count ∧ b.take count = b'.take count := by
  constructor
  · refine take_series hle hle' (fun column hread => hagree column ?_) ha ha'
    rw [hread, Bool.true_or]
  · refine take_series hle hle' (fun column hread => hagree column ?_) hb hb'
    rw [hread, Bool.or_true]

theorem take_signal {count : Nat} {frame frame' : Frame α} (hle : count ≤ frame.size)
    (hle' : count ≤ frame'.size) {condition : Condition α}
    (hagree : ∀ column, condition.reads column = true → AgreeOn count frame frame' column)
    {signal signal' : List Bool} (h : condition.signal frame = .ok signal)
    (h' : condition.signal frame' = .ok signal') : signal.take count = signal'.take count := by
  induction condition generalizing signal signal' with
  | compare op left right =>
      obtain ⟨a, ha, b, hb, rfl⟩ := signal_compare_eq_ok.mp h
      obtain ⟨a', ha', b', hb', rfl⟩ := signal_compare_eq_ok.mp h'
      obtain ⟨hleft, hright⟩ := take_series_both hle hle' hagree ha ha' hb hb'
      rw [List.take_zipWith, List.take_zipWith, hleft, hright]
  | cross direction left right =>
      obtain ⟨a, ha, b, hb, rfl⟩ := signal_cross_eq_ok.mp h
      obtain ⟨a', ha', b', hb', rfl⟩ := signal_cross_eq_ok.mp h'
      obtain ⟨hleft, hright⟩ := take_series_both hle hle' hagree ha ha' hb hb'
      rw [take_direction_apply, take_direction_apply, hleft, hright]
  | logical op left right ihLeft ihRight =>
      obtain ⟨a, ha, b, hb, rfl⟩ := signal_logical_eq_ok.mp h
      obtain ⟨a', ha', b', hb', rfl⟩ := signal_logical_eq_ok.mp h'
      have hleft := ihLeft
        (fun column hread => hagree column (by simp [Condition.reads, hread])) ha ha'
      have hright := ihRight
        (fun column hread => hagree column (by simp [Condition.reads, hread])) hb hb'
      rw [List.take_zipWith, List.take_zipWith, hleft, hright]

theorem take_blockSignal {count : Nat} {frame frame' : Frame α} (hle : count ≤ frame.size)
    (hle' : count ≤ frame'.size) {block : Option (Condition α)}
    (hagree : ∀ rule, block = some rule →
      ∀ column, rule.reads column = true → AgreeOn count frame frame' column)
    {signal signal' : List Bool} (h : blockSignal frame block = .ok signal)
    (h' : blockSignal frame' block = .ok signal') :
    signal.take count = signal'.take count := by
  cases block with
  | none =>
      obtain rfl := Except.ok.inj h
      obtain rfl := Except.ok.inj h'
      rw [List.take_replicate, List.take_replicate, Nat.min_eq_left hle, Nat.min_eq_left hle']
  | some rule => exact take_signal hle hle' (hagree rule rfl) h h'

theorem take_signals {count : Nat} {frame frame' : Frame α} (hle : count ≤ frame.size)
    (hle' : count ≤ frame'.size) {rules : RuleSet (Condition α)}
    (hagree : ∀ column ∈ rules.requiredColumns, AgreeOn count frame frame' column)
    {signals signals' : Signals} (h : rules.signals frame = .ok signals)
    (h' : rules.signals frame' = .ok signals') :
    signals.entry.take count = signals'.entry.take count ∧
      signals.exit.take count = signals'.exit.take count := by
  obtain ⟨-, -, hentry, hexit⟩ := signals_eq_ok.mp h
  obtain ⟨-, -, hentry', hexit'⟩ := signals_eq_ok.mp h'
  constructor
  · refine take_blockSignal hle hle' (fun rule hrule column hread => hagree column ?_)
      hentry hentry'
    exact mem_requiredColumns.mpr (.inl ⟨rule, hrule, hread⟩)
  · refine take_blockSignal hle hle' (fun rule hrule column hread => hagree column ?_) hexit hexit'
    exact mem_requiredColumns.mpr (.inr ⟨rule, hrule, hread⟩)

theorem signals_firstBars {frame : Frame α} {rules : RuleSet (Condition α)} {signals : Signals}
    (h : rules.signals frame = .ok signals) {count : Nat} (hpos : 0 < count)
    (hle : count ≤ frame.size) :
    rules.signals (firstBars frame count) =
      .ok ⟨signals.entry.take count, signals.exit.take count⟩ := by
  have hcolumns := (signals_eq_ok.mp h).2.1
  have hsize := size_firstBars frame hle
  have hagree : ∀ column ∈ rules.requiredColumns,
      AgreeOn count frame (firstBars frame count) column := fun column hmem =>
    agreeOn_firstBars (firstMissing?_eq_none.mp hcolumns column hmem) count
  obtain ⟨signals', h'⟩ : ∃ signals', rules.signals (firstBars frame count) = .ok signals' := by
    apply exists_signals
    · rw [isEmpty_eq_false, hsize]
      exact hpos
    · intro column hmem
      obtain ⟨_, _, _, hvalues', _⟩ := hagree column hmem
      rw [hvalues']
      rfl
  obtain ⟨hentry, hexit⟩ := take_signals hle (Nat.le_of_eq hsize.symm) hagree h h'
  obtain ⟨hlength, hlength'⟩ := length_signals h'
  rw [hentry, hexit, List.take_of_length_le (by omega), List.take_of_length_le (by omega), h']

/-- The signals at the first bars of a frame depend on nothing but the first values of the columns
that the rules read. -/
theorem signals_causal (rules : RuleSet (Condition α)) (frame frame' : Frame α) (count : Nat)
    (hframe : frame.isEmpty = false) (hframe' : frame'.isEmpty = false)
    (hle : count ≤ frame.size) (hle' : count ≤ frame'.size)
    (hagree : ∀ column ∈ rules.requiredColumns, AgreeOn count frame frame' column) :
    ∃ signals signals', rules.signals frame = .ok signals ∧ rules.signals frame' = .ok signals' ∧
      signals.entry.take count = signals'.entry.take count ∧
      signals.exit.take count = signals'.exit.take count ∧
      ∀ n, 0 < n → n ≤ frame.size →
        rules.signals (firstBars frame n) = .ok ⟨signals.entry.take n, signals.exit.take n⟩ := by
  obtain ⟨signals, h⟩ := exists_signals hframe fun column hmem => by
    obtain ⟨_, _, hvalues, _⟩ := hagree column hmem
    rw [hvalues]
    rfl
  obtain ⟨signals', h'⟩ := exists_signals hframe' fun column hmem => by
    obtain ⟨_, _, _, hvalues', _⟩ := hagree column hmem
    rw [hvalues']
    rfl
  obtain ⟨hentry, hexit⟩ := take_signals hle hle' hagree h h'
  exact ⟨signals, signals', h, h', hentry, hexit, fun n => signals_firstBars h⟩

/-- Buys when the close rises above its mean over two bars and sells after the first fall. -/
def swingRules : RuleSet (Condition Float) where
  entry := some (.cross .above (.column .close) (.indicator .sma (.column .close) 2))
  exit := some (.compare .lt (.column .close) (.yesterday .close))

def sevenBars : Frame Float where
  dates := [⟨2024, 2, 27, by decide⟩, ⟨2024, 2, 28, by decide⟩, ⟨2024, 2, 29, by decide⟩,
    ⟨2024, 3, 1, by decide⟩, ⟨2024, 3, 4, by decide⟩, ⟨2024, 3, 5, by decide⟩,
    ⟨2024, 3, 6, by decide⟩]
  columns
    | .close => some [10, 9, 11, 8, 9, 12, 7]
    | _ => none
  close_isSome := rfl
  aligned := by
    intro column values h
    cases column with
    | close =>
        obtain rfl := Option.some.inj h
        rfl
    | _ => cases h
  increasing := by decide

def fourOtherBars : Frame Float where
  dates := [⟨2020, 1, 2, by decide⟩, ⟨2020, 1, 3, by decide⟩, ⟨2020, 1, 6, by decide⟩,
    ⟨2020, 1, 7, by decide⟩]
  columns
    | .close => some [10, 9, 11, 30]
    | .volume => some [1, 2, 3, 4]
    | _ => none
  close_isSome := rfl
  aligned := by
    intro column values h
    cases column with
    | close | volume =>
        obtain rfl := Option.some.inj h
        rfl
    | _ => cases h
  increasing := by decide

theorem signals_causal_sevenBars :
    (∀ column ∈ swingRules.requiredColumns, AgreeOn 3 sevenBars fourOtherBars column) ∧
      ∃ signals signals', swingRules.signals sevenBars = .ok signals ∧
        swingRules.signals fourOtherBars = .ok signals' ∧
        signals.entry.take 3 = signals'.entry.take 3 ∧
        signals.exit.take 3 = signals'.exit.take 3 ∧
        ∀ n, 0 < n → n ≤ sevenBars.size →
          swingRules.signals (firstBars sevenBars n) =
            .ok ⟨signals.entry.take n, signals.exit.take n⟩ := by
  have hagree : ∀ column ∈ swingRules.requiredColumns,
      AgreeOn 3 sevenBars fourOtherBars column := by
    have hcolumns : swingRules.requiredColumns = [.close] := by decide
    intro column hmem
    rw [hcolumns] at hmem
    obtain rfl := List.mem_singleton.mp hmem
    refine ⟨[10, 9, 11, 8, 9, 12, 7], [10, 9, 11, 30], rfl, rfl, ?_⟩
    simp only [List.take_succ_cons, List.take_zero]
  exact ⟨hagree, signals_causal swingRules sevenBars fourOtherBars 3 rfl rfl (by decide)
    (by decide) hagree⟩

end Backtest.Proofs.SignalCausality
