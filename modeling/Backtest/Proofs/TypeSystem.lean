import Backtest.Proofs.Elaboration
import Backtest.Proofs.Period

namespace Backtest.Proofs.TypeSystem

open Backtest.Rule
open Backtest.Proofs.Elaboration
open Backtest.Proofs.Outcome
open Backtest.Proofs.Period

/-- The names are the same up to the case of ASCII letters. -/
def SameLetters (name name' : String) : Prop := name.toLower = name'.toLower

def columnNames : List String := ["open", "high", "low", "close", "volume"]

def indicatorNames : List String := ["SMA", "EMA", "RSI"]

def crossNames : List String := ["crosses_above", "crosses_below"]

inductive IsNumeric : Tree → Prop
  | column {name : String} (hknown : name ∈ columnNames) : IsNumeric (.identifier name)
  | yesterday {name : String} (hknown : name ∈ columnNames) :
      IsNumeric (.identifier ("yesterday_" ++ name))
  | number (value : Float) : IsNumeric (.number value)
  | indicator {name : String} {source : Tree}
      (hknown : ∃ indicator ∈ indicatorNames, SameLetters name indicator)
      (hnumeric : IsNumeric source) (literal : Float) :
      IsNumeric (.call name [source, .number literal])

inductive IsCondition : Tree → Prop
  | compare (op : CompareOp) {left right : Tree} (hnumeric : IsNumeric left)
      (hnumeric' : IsNumeric right) : IsCondition (.compare op left right)
  | cross {name : String} {left right : Tree}
      (hknown : ∃ cross ∈ crossNames, SameLetters name cross) (hnumeric : IsNumeric left)
      (hnumeric' : IsNumeric right) : IsCondition (.call name [left, right])
  | logical (op : BoolOp) {left right : Tree} (hcondition : IsCondition left)
      (hcondition' : IsCondition right) : IsCondition (.logical op left right)

inductive TermOf : Tree → Term Float → Prop
  | column (column : Column) : TermOf (.identifier column.name) (.column column)
  | yesterday (column : Column) :
      TermOf (.identifier ("yesterday_" ++ column.name)) (.yesterday column)
  | constant (value : Float) : TermOf (.number value) (.constant value)
  | indicator {name : String} {source : Tree} {term : Term Float} {literal : Float}
      {period : Nat} (indicator : Indicator) (hnamed : SameLetters name indicator.name)
      (hreading : TermOf source term) (htruncated : period = truncatedPeriod literal) :
      TermOf (.call name [source, .number literal]) (.indicator indicator term period)

inductive ConditionOf : Tree → Condition Float → Prop
  | compare (op : CompareOp) {left right : Tree} {term term' : Term Float}
      (hreading : TermOf left term) (hreading' : TermOf right term') :
      ConditionOf (.compare op left right) (.compare op term term')
  | cross {name : String} {left right : Tree} {term term' : Term Float} (direction : Direction)
      (hnamed : SameLetters name direction.name) (hreading : TermOf left term)
      (hreading' : TermOf right term') :
      ConditionOf (.call name [left, right]) (.cross direction term term')
  | logical (op : BoolOp) {left right : Tree} {condition condition' : Condition Float}
      (hreading : ConditionOf left condition) (hreading' : ConditionOf right condition') :
      ConditionOf (.logical op left right) (.logical op condition condition')

def ReadingOf (tree : Tree) : Typed → Prop
  | .term term => TermOf tree term
  | .condition condition => ConditionOf tree condition

theorem toUpper_toLower (name : String) : name.toLower.toUpper = name.toUpper := by
  apply String.toList_inj.mp
  simp [String.toLower, String.toUpper, Function.comp_def]

theorem toLower_toUpper (name : String) : name.toUpper.toLower = name.toLower := by
  apply String.toList_inj.mp
  simp [String.toLower, String.toUpper, Function.comp_def]

theorem sameLetters_iff {name name' : String} :
    SameLetters name name' ↔ name.toUpper = name'.toUpper := by
  constructor
  · intro hsame
    rw [← toUpper_toLower name, hsame, toUpper_toLower]
  · intro hsame
    rw [SameLetters, ← toLower_toUpper name, hsame, toLower_toUpper]

theorem ofName?_name (function : Function) : Function.ofName? function.name = some function := by
  cases function with
  | indicator indicator => cases indicator <;> decide +kernel
  | cross direction => cases direction <;> decide +kernel

theorem ofName?_eq_some {name : String} {function : Function} :
    Function.ofName? name = some function ↔ SameLetters name function.name := by
  rw [sameLetters_iff]
  constructor
  · intro hfound
    exact (eq_of_beq (List.find?_some hfound :)).symm
  · intro hsame
    rw [← ofName?_name function, Function.ofName?, Function.ofName?, hsame]

theorem identifierTerm_eq_ok {name : String} {term : Term Float} :
    identifierTerm name = .ok term ↔ TermOf (.identifier name) term := by
  constructor
  · intro hfound
    unfold identifierTerm at hfound
    split at hfound
    · next column hhit =>
        obtain rfl := eq_of_beq (List.find?_some hhit :)
        obtain rfl := Except.ok.inj hfound
        exact .column column
    · split at hfound
      · next column hhit =>
          obtain rfl := eq_of_beq (List.find?_some hhit :)
          obtain rfl := Except.ok.inj hfound
          exact .yesterday column
      · exact nomatch hfound
  · intro hreading
    cases hreading with
    | column column => cases column <;> rfl
    | yesterday column => cases column <;> rfl

theorem asTerm_eq_ok {typed : Typed} {term : Term Float} :
    typed.asTerm = .ok term ↔ typed = .term term := by
  cases typed <;> simp [Typed.asTerm]

theorem asCondition_eq_ok {typed : Typed} {condition : Condition Float} :
    typed.asCondition = .ok condition ↔ typed = .condition condition := by
  cases typed <;> simp [Typed.asCondition]

theorem literalPeriod_eq_ok {function : Function} {tree : Tree} {period : Nat} :
    literalPeriod function tree = .ok period ↔
      ∃ literal, tree = .number literal ∧ period = truncatedPeriod literal := by
  cases tree <;> simp [literalPeriod, ← periodOf_eq_truncatedPeriod, eq_comm]

theorem readingOf_of_elaborate {tree : Tree} {typed : Typed} (hdone : elaborate tree = .ok typed) :
    ReadingOf tree typed := by
  fun_induction elaborate tree generalizing typed with
  | case1 name =>
      obtain ⟨term, hfound, rfl⟩ := map_eq_ok.mp hdone
      exact identifierTerm_eq_ok.mp hfound
  | case2 value =>
      obtain rfl := Except.ok.inj hdone
      exact .constant value
  | case3 => cases hdone
  | case4 name indicator source period hnamed ih =>
      simp only [bind_eq_ok, asTerm_eq_ok, literalPeriod_eq_ok] at hdone
      obtain ⟨_, hdone, term, rfl, _, ⟨literal, rfl, htruncated⟩, ⟨⟩⟩ := hdone
      exact .indicator indicator (ofName?_eq_some.mp hnamed) (ih hdone) htruncated
  | case5 name direction left right hnamed ih ih' =>
      simp only [bind_eq_ok, asTerm_eq_ok] at hdone
      obtain ⟨_, hdone, term, rfl, _, hdone', term', rfl, ⟨⟩⟩ := hdone
      exact .cross direction (ofName?_eq_some.mp hnamed) (ih hdone) (ih' hdone')
  | case6 => cases hdone
  | case7 op left right ih ih' =>
      simp only [bind_eq_ok, asTerm_eq_ok] at hdone
      obtain ⟨_, hdone, term, rfl, _, hdone', term', rfl, ⟨⟩⟩ := hdone
      exact .compare op (ih hdone) (ih' hdone')
  | case8 op left right ih ih' =>
      simp only [bind_eq_ok, asCondition_eq_ok] at hdone
      obtain ⟨_, hdone, condition, rfl, _, hdone', condition', rfl, ⟨⟩⟩ := hdone
      exact .logical op (ih hdone) (ih' hdone')

theorem elaborate_of_termOf {tree : Tree} {term : Term Float} (hreading : TermOf tree term) :
    elaborate tree = .ok (.term term) := by
  induction hreading with
  | column column =>
      rw [elaborate, identifierTerm_eq_ok.mpr (.column column)]
      rfl
  | yesterday column =>
      rw [elaborate, identifierTerm_eq_ok.mpr (.yesterday column)]
      rfl
  | constant value => rw [elaborate]
  | @indicator name source term literal period indicator hnamed hreading htruncated ih =>
      have hfound : Function.ofName? name = some (.indicator indicator) :=
        ofName?_eq_some.mpr hnamed
      have hcount : literalPeriod (.indicator indicator) (.number literal) = .ok period :=
        literalPeriod_eq_ok.mpr ⟨literal, rfl, htruncated⟩
      unfold elaborate
      simp only [hfound, ih, hcount]
      rfl

theorem elaborate_of_conditionOf {tree : Tree} {condition : Condition Float}
    (hreading : ConditionOf tree condition) :
    elaborate tree = .ok (.condition condition) := by
  induction hreading with
  | compare op hreading hreading' =>
      rw [elaborate, elaborate_of_termOf hreading, elaborate_of_termOf hreading']
      rfl
  | @cross name left right term term' direction hnamed hreading hreading' =>
      have hfound : Function.ofName? name = some (.cross direction) :=
        ofName?_eq_some.mpr hnamed
      unfold elaborate
      simp only [hfound, elaborate_of_termOf hreading, elaborate_of_termOf hreading']
      rfl
  | logical op hreading hreading' ih ih' =>
      rw [elaborate, ih, ih']
      rfl

theorem conditionOf_iff {tree : Tree} {condition : Condition Float} :
    asCondition tree = .ok condition ↔ ConditionOf tree condition := by
  rw [(projected tree).asCondition_eq, bind_eq_ok]
  constructor
  · rintro ⟨typed, hdone, hfound⟩
    obtain rfl := asCondition_eq_ok.mp hfound
    exact readingOf_of_elaborate hdone
  · intro hreading
    exact ⟨_, elaborate_of_conditionOf hreading, rfl⟩

theorem mem_names {β : Type} {all : List β} (hcomplete : ∀ member, member ∈ all)
    {f : β → String} {name : String} : name ∈ all.map f ↔ ∃ member, f member = name := by
  simp [hcomplete]

theorem mem_columnNames {name : String} :
    name ∈ columnNames ↔ ∃ column : Column, column.name = name :=
  mem_names (f := Column.name) Column.mem_all

theorem mem_indicatorNames {name : String} :
    name ∈ indicatorNames ↔ ∃ indicator : Indicator, indicator.name = name := by
  have hcomplete (indicator : Indicator) : indicator ∈ [Indicator.sma, .ema, .rsi] := by
    cases indicator <;> decide
  exact mem_names (f := Indicator.name) hcomplete

theorem mem_crossNames {name : String} :
    name ∈ crossNames ↔ ∃ direction : Direction, direction.name = name := by
  have hcomplete (direction : Direction) : direction ∈ [Direction.above, .below] := by
    cases direction <;> decide
  exact mem_names (f := Direction.name) hcomplete

theorem isNumeric_iff {tree : Tree} : IsNumeric tree ↔ ∃ term, TermOf tree term := by
  constructor
  · intro hnumeric
    induction hnumeric with
    | column hknown =>
        obtain ⟨column, rfl⟩ := mem_columnNames.mp hknown
        exact ⟨_, .column column⟩
    | yesterday hknown =>
        obtain ⟨column, rfl⟩ := mem_columnNames.mp hknown
        exact ⟨_, .yesterday column⟩
    | number value => exact ⟨_, .constant value⟩
    | indicator hknown hnumeric literal ih =>
        obtain ⟨_, hknown, hnamed⟩ := hknown
        obtain ⟨indicator, rfl⟩ := mem_indicatorNames.mp hknown
        obtain ⟨term, hreading⟩ := ih
        exact ⟨_, .indicator indicator hnamed hreading (periodOf_eq_truncatedPeriod literal)⟩
  · rintro ⟨term, hreading⟩
    induction hreading with
    | column column => exact .column (mem_columnNames.mpr ⟨column, rfl⟩)
    | yesterday column => exact .yesterday (mem_columnNames.mpr ⟨column, rfl⟩)
    | constant value => exact .number value
    | indicator indicator hnamed hreading htruncated ih =>
        exact .indicator ⟨_, mem_indicatorNames.mpr ⟨indicator, rfl⟩, hnamed⟩ ih _

theorem isCondition_iff {tree : Tree} :
    IsCondition tree ↔ ∃ condition, ConditionOf tree condition := by
  constructor
  · intro hcondition
    induction hcondition with
    | compare op hnumeric hnumeric' =>
        obtain ⟨term, hreading⟩ := isNumeric_iff.mp hnumeric
        obtain ⟨term', hreading'⟩ := isNumeric_iff.mp hnumeric'
        exact ⟨_, .compare op hreading hreading'⟩
    | cross hknown hnumeric hnumeric' =>
        obtain ⟨_, hknown, hnamed⟩ := hknown
        obtain ⟨direction, rfl⟩ := mem_crossNames.mp hknown
        obtain ⟨term, hreading⟩ := isNumeric_iff.mp hnumeric
        obtain ⟨term', hreading'⟩ := isNumeric_iff.mp hnumeric'
        exact ⟨_, .cross direction hnamed hreading hreading'⟩
    | logical op hcondition hcondition' ih ih' =>
        obtain ⟨condition, hreading⟩ := ih
        obtain ⟨condition', hreading'⟩ := ih'
        exact ⟨_, .logical op hreading hreading'⟩
  · rintro ⟨condition, hreading⟩
    induction hreading with
    | compare op hreading hreading' =>
        exact .compare op (isNumeric_iff.mpr ⟨_, hreading⟩) (isNumeric_iff.mpr ⟨_, hreading'⟩)
    | cross direction hnamed hreading hreading' =>
        exact .cross ⟨_, mem_crossNames.mpr ⟨direction, rfl⟩, hnamed⟩
          (isNumeric_iff.mpr ⟨_, hreading⟩) (isNumeric_iff.mpr ⟨_, hreading'⟩)
    | logical op hreading hreading' ih ih' => exact .logical op ih ih'

def typedBlock : Option Tree → Except TypeError (Option (Condition Float))
  | some tree => some <$> asCondition tree
  | none => pure none

theorem typed_eq (rules : RuleSet Tree) :
    rules.typed = (do
      return { entry := ← typedBlock rules.entry, exit := ← typedBlock rules.exit }) :=
  rfl

theorem typedBlock_eq_ok {rule : Option Tree} {typed : Option (Condition Float)} :
    typedBlock rule = .ok typed ↔ Option.Rel ConditionOf rule typed := by
  cases rule with
  | none =>
      constructor
      · rintro ⟨⟩
        exact .none
      · rintro ⟨⟩
        rfl
  | some tree =>
      rw [typedBlock, map_eq_ok]
      constructor
      · rintro ⟨condition, hdone, rfl⟩
        exact .some (conditionOf_iff.mp hdone)
      · rintro ⟨hreading⟩
        exact ⟨_, conditionOf_iff.mpr hreading, rfl⟩

theorem typed_eq_ok {rules : RuleSet Tree} {typed : RuleSet (Condition Float)} :
    rules.typed = .ok typed ↔
      ∀ side, Option.Rel ConditionOf (rules.get side) (typed.get side) := by
  rw [typed_eq]
  simp only [bind_eq_ok, typedBlock_eq_ok]
  constructor
  · rintro ⟨entry, hfirst, exit, hsecond, ⟨⟩⟩ side
    cases side with
    | entry => exact hfirst
    | exit => exact hsecond
  · intro hall
    exact ⟨_, hall .entry, _, hall .exit, rfl⟩

theorem exists_reading_iff {rule : Option Tree} :
    (∃ typed, Option.Rel ConditionOf rule typed) ↔
      ∀ tree, rule = some tree → IsCondition tree := by
  constructor
  · rintro ⟨typed, hreading⟩ tree rfl
    obtain ⟨hreading⟩ := hreading
    exact isCondition_iff.mpr ⟨_, hreading⟩
  · intro hwellTyped
    cases rule with
    | none => exact ⟨none, .none⟩
    | some tree =>
        obtain ⟨condition, hreading⟩ := isCondition_iff.mp (hwellTyped tree rfl)
        exact ⟨some condition, .some hreading⟩

/-- A rule set is typed exactly if each of its blocks is a well-typed condition, and then every
block becomes its reading, with absent blocks left absent. -/
theorem typed_iff (rules : RuleSet Tree) :
    ((∃ typed, rules.typed = .ok typed) ↔
      ∀ side tree, rules.get side = some tree → IsCondition tree) ∧
    ∀ typed, rules.typed = .ok typed ↔
      ∀ side, Option.Rel ConditionOf (rules.get side) (typed.get side) := by
  refine ⟨⟨?_, ?_⟩, fun typed => typed_eq_ok⟩
  · rintro ⟨typed, hdone⟩ side
    exact exists_reading_iff.mp ⟨_, typed_eq_ok.mp hdone side⟩
  · intro hwellTyped
    obtain ⟨entry, hfirst⟩ := exists_reading_iff.mpr (hwellTyped .entry)
    obtain ⟨exit, hsecond⟩ := exists_reading_iff.mpr (hwellTyped .exit)
    refine ⟨⟨entry, exit⟩, typed_eq_ok.mpr fun side => ?_⟩
    cases side with
    | entry => exact hfirst
    | exit => exact hsecond

end Backtest.Proofs.TypeSystem
