import Backtest.Proofs.SignalShape

namespace Backtest.Proofs.MissingColumn

open Backtest.Rule
open Backtest.Proofs.Outcome
open Backtest.Proofs.SignalShape

/-- The columns that a term reads, in the order of evaluation. -/
def termColumns {α : Type} : Term α → List Column
  | .column column => [column]
  | .yesterday column => [column]
  | .constant _ => []
  | .indicator _ source _ => termColumns source

def conditionColumns {α : Type} : Condition α → List Column
  | .compare _ left right => termColumns left ++ termColumns right
  | .cross _ left right => termColumns left ++ termColumns right
  | .logical _ left right => conditionColumns left ++ conditionColumns right

def Occurs {α : Type} (rules : RuleSet (Condition α)) (column : Column) : Prop :=
  ∃ side rule, rules.get side = some rule ∧ column ∈ conditionColumns rule

def Absent {α : Type} (frame : Frame α) (column : Column) : Prop := frame.columns column = none

/-- The column is the first of a list with a property. -/
def FirstWith (property : Column → Prop) (columns : List Column) (column : Column) : Prop :=
  ∃ earlier later, columns = earlier ++ column :: later ∧ property column ∧
    ∀ other ∈ earlier, ¬property other

section FirstWith

variable {property : Column → Prop} {columns columns' : List Column} {column column' : Column}

theorem firstWith_iff [DecidablePred property] :
    FirstWith property columns column ↔
      columns.find? (fun c => decide (property c)) = some column := by
  rw [List.find?_eq_some_iff_append]
  simp only [decide_eq_true_eq, Bool.not_eq_true', decide_eq_false_iff_not]
  constructor
  · rintro ⟨earlier, later, hsplit, hcolumn, hearlier⟩
    exact ⟨hcolumn, earlier, later, hsplit, hearlier⟩
  · rintro ⟨hcolumn, earlier, later, hsplit, hearlier⟩
    exact ⟨earlier, later, hsplit, hcolumn, hearlier⟩

theorem firstWith_singleton :
    FirstWith property [column'] column ↔ property column' ∧ column' = column := by
  classical
  by_cases hcolumn : property column' <;> simp [firstWith_iff, hcolumn]

theorem firstWith_append :
    FirstWith property (columns ++ columns') column ↔
      FirstWith property columns column ∨
        (∀ other ∈ columns, ¬property other) ∧ FirstWith property columns' column := by
  classical
  simp only [firstWith_iff, List.find?_append, Option.or_eq_some_iff, List.find?_eq_none,
    decide_eq_true_eq]

theorem exists_firstWith :
    (∃ column, FirstWith property columns column) ↔ ∃ column ∈ columns, property column := by
  classical
  simp only [firstWith_iff, ← Option.isSome_iff_exists, List.find?_isSome, decide_eq_true_eq]

theorem FirstWith.unique (h : FirstWith property columns column)
    (h' : FirstWith property columns column') : column = column' := by
  classical
  rw [firstWith_iff] at h h'
  exact Option.some.inj (h.symm.trans h')

end FirstWith

variable {α : Type}

theorem term_reads_iff {term : Term α} {column : Column} :
    term.reads column = true ↔ column ∈ termColumns term := by
  induction term with
  | column c | yesterday c =>
      rw [Term.reads, termColumns, List.mem_singleton, beq_iff_eq]
      exact eq_comm
  | constant value => simp [Term.reads, termColumns]
  | indicator indicator source period ih => exact ih

theorem condition_reads_iff {condition : Condition α} {column : Column} :
    condition.reads column = true ↔ column ∈ conditionColumns condition := by
  induction condition with
  | compare op left right | cross direction left right =>
      rw [Condition.reads, conditionColumns, Bool.or_eq_true, List.mem_append, term_reads_iff,
        term_reads_iff]
  | logical op left right ihLeft ihRight =>
      rw [Condition.reads, conditionColumns, Bool.or_eq_true, List.mem_append, ihLeft, ihRight]

theorem mem_requiredColumns_iff_occurs {rules : RuleSet (Condition α)} {column : Column} :
    column ∈ rules.requiredColumns ↔ Occurs rules column := by
  simp only [mem_requiredColumns, condition_reads_iff]
  constructor
  · rintro (⟨rule, hrule, hmem⟩ | ⟨rule, hrule, hmem⟩)
    · exact ⟨.entry, rule, hrule, hmem⟩
    · exact ⟨.exit, rule, hrule, hmem⟩
  · rintro ⟨side, rule, hrule, hmem⟩
    cases side with
    | entry => exact .inl ⟨rule, hrule, hmem⟩
    | exit => exact .inr ⟨rule, hrule, hmem⟩

theorem not_absent_iff {frame : Frame α} {column : Column} :
    ¬Absent frame column ↔ (frame.columns column).isSome = true :=
  Option.isSome_iff_ne_none.symm

theorem firstMissing?_eq_some {frame : Frame α} {rules : RuleSet (Condition α)}
    {column : Column} :
    firstMissing? frame rules.requiredColumns = some column ↔
      FirstWith (fun c => Occurs rules c ∧ Absent frame c) Column.all column := by
  classical
  have hrequired : rules.requiredColumns = Column.all.filter fun c => decide (Occurs rules c) := by
    rw [RuleSet.requiredColumns]
    apply List.filter_congr
    intro c _
    rw [Bool.eq_iff_iff, decide_eq_true_eq, ← mem_requiredColumns_iff_occurs,
      RuleSet.requiredColumns, List.mem_filter, and_iff_right c.mem_all]
  have hproperty : (fun c => decide (decide (Occurs rules c) = true ∧
      (frame.columns c).isNone = true)) = fun c => decide (Occurs rules c ∧ Absent frame c) := by
    funext c
    exact decide_eq_decide.mpr (and_congr decide_eq_true_iff Option.isNone_iff_eq_none)
  rw [firstMissing?, hrequired, List.find?_filter, hproperty, firstWith_iff]

/-- A computation fails exactly if the frame lacks one of some columns, and names the first. -/
def FailsOn {β : Type} (frame : Frame α) (columns : List Column) (outcome : Except FrameError β) :
    Prop :=
  ∀ error, outcome = .error error ↔
    ∃ column, error = .missingColumn column ∧ FirstWith (Absent frame) columns column

section FailsOn

variable {β γ δ : Type} {frame : Frame α} {columns columns' : List Column}
  {outcome : Except FrameError β} {outcome' : Except FrameError γ}

theorem failsOn_ok (value : β) : FailsOn frame [] (.ok value) := by
  intro error
  constructor
  · exact nofun
  · rintro ⟨column, -, hfirst⟩
    obtain ⟨_, hmem, -⟩ := exists_firstWith.mp ⟨column, hfirst⟩
    cases hmem

theorem failsOn_column (column : Column) : FailsOn frame [column] (frame.column column) := by
  intro error
  simp only [Frame.column, firstWith_singleton, Absent]
  cases frame.columns column with
  | none => simp [eq_comm]
  | some values => simp

theorem FailsOn.exists_error_iff (h : FailsOn frame columns outcome) :
    (∃ error, outcome = .error error) ↔ ∃ column ∈ columns, Absent frame column := by
  rw [← exists_firstWith]
  constructor
  · rintro ⟨error, herror⟩
    obtain ⟨column, -, hfirst⟩ := (h error).mp herror
    exact ⟨column, hfirst⟩
  · rintro ⟨column, hfirst⟩
    exact ⟨_, (h _).mpr ⟨column, rfl, hfirst⟩⟩

theorem FailsOn.not_absent (h : FailsOn frame columns outcome) {value : β}
    (hvalue : outcome = .ok value) : ∀ column ∈ columns, ¬Absent frame column := by
  intro column hmem habsent
  obtain ⟨error, herror⟩ := h.exists_error_iff.mpr ⟨column, hmem, habsent⟩
  cases hvalue.symm.trans herror

theorem FailsOn.map (h : FailsOn frame columns outcome) (f : β → γ) :
    FailsOn frame columns (f <$> outcome) := by
  intro error
  rw [map_eq_error]
  exact h error

theorem FailsOn.both (h : FailsOn frame columns outcome) (h' : FailsOn frame columns' outcome')
    (f : β → γ → δ) :
    FailsOn frame (columns ++ columns') (do
      let value ← outcome
      let value' ← outcome'
      return f value value') := by
  intro error
  have hright {value : β} : (outcome' >>= fun value' => (return f value value' :
      Except FrameError δ)) = .error error ↔ outcome' = .error error := by
    rw [bind_pure_comp, map_eq_error]
  simp only [firstWith_append, bind_eq_error, hright]
  constructor
  · rintro (hleft | ⟨value, hvalue, hright⟩)
    · obtain ⟨column, rfl, hfirst⟩ := (h error).mp hleft
      exact ⟨column, rfl, .inl hfirst⟩
    · obtain ⟨column, rfl, hfirst⟩ := (h' error).mp hright
      exact ⟨column, rfl, .inr ⟨h.not_absent hvalue, hfirst⟩⟩
  · rintro ⟨column, rfl, hfirst | ⟨hpresent, hfirst⟩⟩
    · exact .inl ((h _).mpr ⟨column, rfl, hfirst⟩)
    · cases hvalue : outcome with
      | error cause =>
          obtain ⟨other, hmem, habsent⟩ := h.exists_error_iff.mp ⟨cause, hvalue⟩
          exact absurd habsent (hpresent other hmem)
      | ok value => exact .inr ⟨value, rfl, (h' _).mpr ⟨column, rfl, hfirst⟩⟩

end FailsOn

variable [Scalar α]

theorem failsOn_series (frame : Frame α) (term : Term α) :
    FailsOn frame (termColumns term) (term.series frame) := by
  induction term with
  | column column => exact (failsOn_column column).map _
  | yesterday column => exact (failsOn_column column).map _
  | constant value => exact failsOn_ok _
  | indicator indicator source period ih => exact ih.map _

theorem failsOn_signal (frame : Frame α) (condition : Condition α) :
    FailsOn frame (conditionColumns condition) (condition.signal frame) := by
  induction condition with
  | compare op left right => exact (failsOn_series frame left).both (failsOn_series frame right) _
  | cross direction left right =>
      exact (failsOn_series frame left).both (failsOn_series frame right) _
  | logical op left right ihLeft ihRight => exact ihLeft.both ihRight _

theorem signals_cases (rules : RuleSet (Condition α)) (frame : Frame α) :
    (frame.size = 0 ∧ rules.signals frame = .error .noBars) ∨
      (0 < frame.size ∧ ∃ column,
        FirstWith (fun c => Occurs rules c ∧ Absent frame c) Column.all column ∧
          rules.signals frame = .error (.missingColumn column)) ∨
      (0 < frame.size ∧ (∀ column, Occurs rules column → ¬Absent frame column) ∧
        ∃ signals, rules.signals frame = .ok signals) := by
  cases hempty : frame.isEmpty with
  | true =>
      refine .inl ⟨?_, ?_⟩
      · simpa [Frame.isEmpty, Frame.size] using hempty
      · rw [RuleSet.signals, hempty]
        rfl
  | false =>
      have hsize := isEmpty_eq_false.mp hempty
      cases hmissing : firstMissing? frame rules.requiredColumns with
      | some column =>
          refine .inr (.inl ⟨hsize, column, firstMissing?_eq_some.mp hmissing, ?_⟩)
          rw [RuleSet.signals, hempty, hmissing]
          rfl
      | none =>
          have hpresent := firstMissing?_eq_none.mp hmissing
          refine .inr (.inr ⟨hsize, fun column hoccurs => ?_, exists_signals hempty hpresent⟩)
          exact not_absent_iff.mpr (hpresent column (mem_requiredColumns_iff_occurs.mpr hoccurs))

theorem signals_eq_noBars_iff (rules : RuleSet (Condition α)) (frame : Frame α) :
    rules.signals frame = .error .noBars ↔ frame.size = 0 := by
  rcases signals_cases rules frame with ⟨hsize, h⟩ | ⟨hsize, column, -, h⟩ | ⟨hsize, -, _, h⟩
  · exact ⟨fun _ => hsize, fun _ => h⟩
  · rw [h]
    exact ⟨nofun, fun hzero => by omega⟩
  · rw [h]
    exact ⟨nofun, fun hzero => by omega⟩

theorem signals_eq_missingColumn_iff (rules : RuleSet (Condition α)) (frame : Frame α)
    (column : Column) :
    rules.signals frame = .error (.missingColumn column) ↔ 0 < frame.size ∧
      FirstWith (fun c => Occurs rules c ∧ Absent frame c) Column.all column := by
  rcases signals_cases rules frame with ⟨hsize, h⟩ | ⟨hsize, first, hfirst, h⟩ |
    ⟨hsize, hpresent, _, h⟩
  · rw [h]
    exact ⟨nofun, fun hpos => by omega⟩
  · rw [h]
    constructor
    · rintro ⟨⟩
      exact ⟨hsize, hfirst⟩
    · rintro ⟨-, hcolumn⟩
      rw [hfirst.unique hcolumn]
  · rw [h]
    refine ⟨nofun, fun ⟨_, hcolumn⟩ => ?_⟩
    obtain ⟨other, -, hoccurs, habsent⟩ := exists_firstWith.mp ⟨column, hcolumn⟩
    exact absurd habsent (hpresent other hoccurs)

theorem exists_signals_iff (rules : RuleSet (Condition α)) (frame : Frame α) :
    (∃ signals, rules.signals frame = .ok signals) ↔
      0 < frame.size ∧ ∀ column, Occurs rules column → ¬Absent frame column := by
  rcases signals_cases rules frame with ⟨hsize, h⟩ | ⟨hsize, first, hfirst, h⟩ |
    ⟨hsize, hpresent, signals, h⟩
  · rw [h]
    exact ⟨nofun, fun hpos => by omega⟩
  · rw [h]
    refine ⟨nofun, fun ⟨_, hpresent⟩ => ?_⟩
    obtain ⟨other, -, hoccurs, habsent⟩ := exists_firstWith.mp ⟨first, hfirst⟩
    exact absurd habsent (hpresent other hoccurs)
  · exact ⟨fun _ => ⟨hsize, hpresent⟩, fun _ => ⟨signals, h⟩⟩

theorem blockSignal_none {frame : Frame α} {block : Option (Condition α)} {signal : List Bool}
    (hsignal : blockSignal frame block = .ok signal) (hnone : block = none) :
    signal = List.replicate frame.size false := by
  subst hnone
  exact (Except.ok.inj hsignal).symm

/-- A rule set is evaluated to two signals of one value for each bar, unless the frame has no bars
or lacks a column that occurs in the rules. A single condition fails on the columns that it reads
itself. -/
theorem signals_outcome (rules : RuleSet (Condition α)) (frame : Frame α) :
    (rules.signals frame = .error .noBars ↔ frame.size = 0) ∧
    (∀ column, rules.signals frame = .error (.missingColumn column) ↔ 0 < frame.size ∧
      FirstWith (fun c => Occurs rules c ∧ Absent frame c) Column.all column) ∧
    ((∃ signals, rules.signals frame = .ok signals) ↔
      0 < frame.size ∧ ∀ column, Occurs rules column → ¬Absent frame column) ∧
    (∀ signals, rules.signals frame = .ok signals →
      signals.entry.length = frame.size ∧ signals.exit.length = frame.size ∧
        (rules.entry = none → signals.entry = List.replicate frame.size false) ∧
        (rules.exit = none → signals.exit = List.replicate frame.size false)) ∧
    (∀ condition : Condition α,
      ((∃ error, condition.signal frame = .error error) ↔
        ∃ column ∈ conditionColumns condition, Absent frame column) ∧
      ∀ error, condition.signal frame = .error error ↔ ∃ column, error = .missingColumn column ∧
        FirstWith (Absent frame) (conditionColumns condition) column) := by
  refine ⟨signals_eq_noBars_iff rules frame, signals_eq_missingColumn_iff rules frame,
    exists_signals_iff rules frame, fun signals hsignals => ?_, fun condition => ?_⟩
  · obtain ⟨hentry, hexit⟩ := length_signals hsignals
    obtain ⟨-, -, hentry', hexit'⟩ := signals_eq_ok.mp hsignals
    exact ⟨hentry, hexit, blockSignal_none hentry', blockSignal_none hexit'⟩
  · have hfails := failsOn_signal frame condition
    exact ⟨hfails.exists_error_iff, hfails⟩

end Backtest.Proofs.MissingColumn
