import Backtest.Proofs.FullText
import Backtest.Proofs.TypeSystem
import Backtest.Strategy

namespace Backtest.Proofs.RuleText

open Backtest.Rule
open Backtest.Proofs.Outcome
open Backtest.Proofs.Scanner
open Backtest.Proofs.Spelling
open Backtest.Proofs.WrittenRule
open Backtest.Proofs.FullText
open Backtest.Proofs.NumberText
open Backtest.Proofs.Period
open Backtest.Proofs.TypeSystem

def termConstants : Term Float → List Float
  | .column _ | .yesterday _ => []
  | .constant value => [value]
  | .indicator _ source _ => termConstants source

def constants : Condition Float → List Float
  | .compare _ left right | .cross _ left right => termConstants left ++ termConstants right
  | .logical _ left right => constants left ++ constants right

def NoneOverflowed (values : List Float) : Prop :=
  ∀ value ∈ values, Binary64.parts value ≠ .infinite false

theorem spells_column (column : Column) :
    Spells (.identifier column.name) column.name.toList := by
  cases column <;> exact spells_identifier (isWord_of_all rfl rfl) (by decide +kernel)

theorem spells_yesterday (column : Column) :
    Spells (.identifier ("yesterday_" ++ column.name)) ("yesterday_" ++ column.name).toList := by
  cases column <;> exact spells_identifier (isWord_of_all rfl rfl) (by decide +kernel)

theorem spells_indicator (indicator : Indicator) :
    Spells (.function indicator.name) indicator.name.toList := by
  cases indicator <;> exact spells_function (isWord_of_all rfl rfl) (by decide +kernel)

theorem spells_direction (direction : Direction) :
    Spells (.function direction.name) direction.name.toList := by
  cases direction <;> exact spells_function (isWord_of_all rfl rfl) (by decide +kernel)

theorem spells_ofWhole (n : Nat) : Spells (.number (ofWhole n)) (toString n).toList := by
  have hdigits : (toString n).toList = literal (Nat.toDigits 10 n) [] := by
    rw [Nat.toString_eq_ofList_toDigits, String.toList_ofList]
    rfl
  rw [hdigits]
  exact .number (isDigits_toDigits n) nofun

theorem exists_source_term {tree : Tree} {term : Term Float} (hreading : TermOf tree term)
    (hreadable : IsReadable tree) (hordinary : NoneOverflowed (termConstants term)) :
    ∃ source, Shows source term.toText.toList ∧ TermOf source term := by
  induction hreading with
  | column column => exact ⟨_, .identifier (spells_column column), .column column⟩
  | yesterday column => exact ⟨_, .identifier (spells_yesterday column), .yesterday column⟩
  | constant value =>
      obtain ⟨chars, hspelled⟩ := hreadable (.number value) List.mem_cons_self
      have hagain := spells_again hspelled (hordinary value List.mem_cons_self)
      exact ⟨_, .number hagain, .constant value⟩
  | @indicator name tree term literal period indicator hnamed hreading htruncated ih =>
      obtain ⟨source, hshown, hreading⟩ := ih hreadable.arguments.1 hordinary
      -- the literal is forgotten; the digits of its period stand for the same period
      have harguments := ShowsAll.more hshown (.last (.number (spells_ofWhole period)))
      have hagain : (period : ℤ) = truncatedPeriod (ofWhole period) := by
        rw [← periodOf_eq_truncatedPeriod] at htruncated ⊢
        rw [Int.ofNat_inj.mp htruncated, periodOf_ofWhole_periodOf]
      refine ⟨.call indicator.name [source, .number (ofWhole period)], ?_,
        .indicator indicator rfl hreading hagain⟩
      simpa [Term.toText] using Shows.call (spells_indicator indicator) harguments

theorem exists_source_terms {left right : Tree} {term term' : Term Float}
    (hreading : TermOf left term) (hreading' : TermOf right term')
    (hreadable : IsReadable left ∧ IsReadable right)
    (hordinary : NoneOverflowed (termConstants term ++ termConstants term')) :
    (∃ source, Shows source term.toText.toList ∧ TermOf source term) ∧
      ∃ source, Shows source term'.toText.toList ∧ TermOf source term' := by
  obtain ⟨hordinary, hordinary'⟩ := List.forall_mem_append.mp hordinary
  exact ⟨exists_source_term hreading hreadable.1 hordinary,
    exists_source_term hreading' hreadable.2 hordinary'⟩

theorem exists_source_condition {tree : Tree} {condition : Condition Float}
    (hreading : ConditionOf tree condition) (hreadable : IsReadable tree)
    (hordinary : NoneOverflowed (constants condition)) :
    ∃ source, Shows source condition.toText.toList ∧ ConditionOf source condition := by
  induction hreading with
  | compare op hreading hreading' =>
      obtain ⟨⟨source, hshown, hreading⟩, source', hshown', hreading'⟩ :=
        exists_source_terms hreading hreading' hreadable.compare hordinary
      refine ⟨.compare op source source', ?_, .compare op hreading hreading'⟩
      simpa [Condition.toText] using Shows.compare hshown hshown'
  | cross direction hnamed hreading hreading' =>
      obtain ⟨⟨source, hshown, hreading⟩, source', hshown', hreading'⟩ :=
        exists_source_terms hreading hreading' hreadable.arguments hordinary
      refine ⟨.call direction.name [source, source'], ?_, .cross direction rfl hreading hreading'⟩
      have hcalled := Shows.call (spells_direction direction) (.more hshown (.last hshown'))
      simpa [Condition.toText] using hcalled
  | logical op hreading hreading' ih ih' =>
      obtain ⟨hordinary, hordinary'⟩ := List.forall_mem_append.mp hordinary
      obtain ⟨source, hshown, hreading⟩ := ih hreadable.logical.1 hordinary
      obtain ⟨source', hshown', hreading'⟩ := ih' hreadable.logical.2 hordinary'
      refine ⟨.logical op source source', ?_, .logical op hreading hreading'⟩
      simpa [Condition.toText] using Shows.logical hshown hshown'

def ConstantsFinite (rules : RuleSet (Condition Float)) : Prop :=
  ∀ side condition, rules.get side = some condition → NoneOverflowed (constants condition)

theorem compileRules_eq_ok {text : String} {typed : RuleSet (Condition Float)} :
    compileRules text = .ok typed ↔ ∃ trees, parse text = .ok trees ∧ trees.typed = .ok typed := by
  simp only [compileRules, bind_eq_ok, mapError_eq_ok]

theorem exists_source_block {rule : Option (Condition Float)} {tree : Option Tree}
    (hreading : Option.Rel ConditionOf tree rule)
    (hreadable : ∀ root, tree = some root → IsReadable root)
    (hordinary : ∀ condition, rule = some condition → NoneOverflowed (constants condition)) :
    ∃ source, Option.Rel (fun rule tree => Shows tree rule.toText.toList) rule source ∧
      Option.Rel ConditionOf source rule := by
  cases hreading with
  | none => exact ⟨none, .none, .none⟩
  | some hreading =>
      obtain ⟨source, hshown, hagain⟩ :=
        exists_source_condition hreading (hreadable _ rfl) (hordinary _ rfl)
      exact ⟨some source, .some hshown, .some hagain⟩

/-- The text of typed rules that were compiled from a text compiles to themselves, unless one of
their constants overflowed. -/
theorem compileRules_toText (text : String) (typed : RuleSet (Condition Float))
    (hcompiled : compileRules text = .ok typed) (hordinary : ConstantsFinite typed) :
    compileRules (typed.toText Condition.toText) = .ok typed := by
  obtain ⟨trees, hparsed, hdone⟩ := compileRules_eq_ok.mp hcompiled
  have hsource (side : Side) := exists_source_block (typed_eq_ok.mp hdone side)
    (fun _ hpresent => isReadable_of_parse hparsed hpresent) (hordinary side)
  obtain ⟨entry, hshown, hreading⟩ := hsource .entry
  obtain ⟨exit, hshown', hreading'⟩ := hsource .exit
  refine compileRules_eq_ok.mpr ⟨⟨entry, exit⟩, parse_shown fun side => ?_,
    typed_eq_ok.mpr fun side => ?_⟩
  · cases side with
    | entry => exact hshown
    | exit => exact hshown'
  · cases side with
    | entry => exact hreading
    | exit => exact hreading'

def longText : String := "ENTRY: SMA(close, 99999999999999999999) > 10"

def longNumber : Float := (Decimal.ofDigits (List.replicate 20 '9') []).toFloat

def longBound : Float := (Decimal.ofDigits ['1', '0'] []).toFloat

def longLexemes : List Lexeme :=
  [⟨.keyword .entry, 0⟩, ⟨.colon, 5⟩, ⟨.function "SMA", 7⟩, ⟨.leftParen, 10⟩,
    ⟨.identifier "close", 11⟩, ⟨.comma, 16⟩, ⟨.number longNumber, 18⟩, ⟨.rightParen, 38⟩,
    ⟨.operator .gt, 40⟩, ⟨.number longBound, 42⟩, ⟨.stop, 44⟩]

def longTree : Tree :=
  .compare .gt (.call "SMA" [.identifier "close", .number longNumber]) (.number longBound)

def longCondition : Condition Float :=
  .compare .gt (.indicator .sma (.column .close) 18446744073709551615) (.constant longBound)

def longRules : RuleSet (Condition Float) := { entry := some longCondition }

theorem scan_longText : scan longText = .ok longLexemes := by
  simp [longText, longLexemes, longNumber, longBound, scan, scanFrom_cons, scanFrom_nil,
    Scan.next?, Text.isBlank, Scan.isWordStart, Scan.isWordChar, Scan.word,
    Scan.wordToken, Scan.number, Scan.symbol?, Scan.opensCall, Text.trimLeft,
    Keyword.ofWord?, Keyword.all, Keyword.spelling, String.toUpper,
    String.map_eq_internal, Text.byteLength, Except.map, Char.utf8Size, List.replicate]

theorem parse_longText : parse longText = .ok ⟨some longTree, none⟩ := by
  rw [parse, scan_longText]
  rfl

theorem periodOf_longNumber : periodOf longNumber = 18446744073709551615 := by
  have hbits : (Decimal.ofDigits (List.replicate 20 '9') []).magnitudeBits =
      4906019910204099648 := by decide +kernel
  rw [longNumber, Decimal.toFloat, hbits]
  decide +kernel

theorem conditionOf_longTree : ConditionOf longTree longCondition := by
  have htruncated := periodOf_eq_truncatedPeriod longNumber
  rw [periodOf_longNumber] at htruncated
  exact .compare .gt (.indicator .sma rfl (.column .close) htruncated) (.constant longBound)

theorem compileRules_longText : compileRules longText = .ok longRules := by
  refine compileRules_eq_ok.mpr ⟨_, parse_longText, typed_eq_ok.mpr fun side => ?_⟩
  cases side with
  | entry => exact .some conditionOf_longTree
  | exit => exact .none

theorem parts_longBound : Binary64.parts longBound ≠ .infinite false := by
  have hbits : (Decimal.ofDigits ['1', '0'] []).magnitudeBits = 4621819117588971520 := by
    decide +kernel
  rw [longBound, Decimal.toFloat, hbits]
  decide +kernel

theorem constantsFinite_longRules : ConstantsFinite longRules := by
  intro side condition hpresent
  cases side with
  | entry =>
      obtain rfl := Option.some.inj hpresent
      exact List.forall_mem_singleton.mpr parts_longBound
  | exit => cases hpresent

theorem compileRules_toText_longText :
    compileRules longText = .ok longRules ∧ ConstantsFinite longRules ∧
      compileRules (longRules.toText Condition.toText) = .ok longRules :=
  ⟨compileRules_longText, constantsFinite_longRules,
    compileRules_toText longText longRules compileRules_longText constantsFinite_longRules⟩

end Backtest.Proofs.RuleText
