import Backtest.Proofs.ViablePrefix

namespace Backtest.Proofs.DerivationRun

open Backtest.Rule
open Backtest.Proofs.Grammar
open Backtest.Proofs.ViablePrefix
open Backtest.Proofs.ViablePrefix.ExpressionPrefix

theorem feedAll_firstArgument {enclosures : List EnclosurePrefix}
    {level : LevelPrefix} {name : String} {argument : List Token}
    {next : ExpressionPrefix} (hnonempty : argument ≠ [])
    (hrun : feedAll feed (operand (.call level name [] :: enclosures) {}) argument =
      some next) :
    feedAll feed (firstArgument enclosures level name) argument = some next := by
  obtain ⟨token, rest, rfl⟩ := List.exists_cons_of_ne_nil hnonempty
  rw [feedAll_cons] at hrun ⊢
  obtain ⟨middle, hstep, hrun⟩ := Option.bind_eq_some_iff.mp hrun
  have hfirst : (firstArgument enclosures level name).feed token = some middle := by
    cases token with
    | rightParen => exact nomatch hstep
    | _ => exact hstep
  rw [hfirst]
  exact hrun

mutual
theorem feedAll_operand (operand : Operand) (enclosures : List EnclosurePrefix)
    (level : LevelPrefix) :
    feedAll feed (ExpressionPrefix.operand enclosures level) operand.tokens =
      some (complete enclosures level operand) := by
  cases operand with
  | identifier name => rfl
  | number value => rfl
  | call name args =>
      rw [Operand.tokens, feedAll_cons, feed, feedOperand, Option.bind_some,
        feedAll_cons, feed, Option.bind_some]
      exact feedAll_arguments args enclosures level name
  | group inner =>
      obtain ⟨innerLevel, last, hrun, hclosed⟩ :=
        feedAll_expression inner (.group level :: enclosures)
      rw [Operand.tokens, feedAll_cons, feed, feedOperand, Option.bind_some,
        feedAll_append, hrun, Option.bind_some, ← hclosed]
      rfl

theorem feedAll_comparison (comparison : Comparison)
    (enclosures : List EnclosurePrefix) (alternatives : Option Expression)
    (conditions : Option Conjunct) :
    ∃ left last,
      feedAll feed (ExpressionPrefix.operand enclosures ⟨alternatives, conditions, none⟩)
          comparison.tokens =
        some (complete enclosures ⟨alternatives, conditions, left⟩ last) ∧
      (LevelPrefix.mk alternatives conditions left).compared last = comparison := by
  cases comparison with
  | single operand =>
      exact ⟨none, operand, feedAll_operand operand enclosures _, rfl⟩
  | compare left op right =>
      refine ⟨some (left, op), right, ?_, rfl⟩
      rw [Comparison.tokens, feedAll_append, feedAll_operand left, Option.bind_some,
        feedAll_cons, feed, feedComplete, Option.bind_some]
      exact feedAll_operand right enclosures _

theorem feedAll_conjunct (conjunct : Conjunct)
    (enclosures : List EnclosurePrefix) (alternatives : Option Expression) :
    ∃ conditions left last,
      feedAll feed (ExpressionPrefix.operand enclosures ⟨alternatives, none, none⟩)
          conjunct.tokens =
        some (complete enclosures ⟨alternatives, conditions, left⟩ last) ∧
      (LevelPrefix.mk alternatives conditions left).conjoined last = conjunct := by
  cases conjunct with
  | chain first rest =>
      obtain ⟨left, last, hrun, hcompared⟩ :=
        feedAll_comparison first enclosures alternatives none
      have hfront :
          (LevelPrefix.mk alternatives none left).conjoined last =
            .chain first [] := by
        rw [LevelPrefix.conjoined, hcompared, extendConjunct]
      rw [Conjunct.tokens, feedAll_append, hrun, Option.bind_some]
      exact feedAll_and rest first [] enclosures ⟨alternatives, none, left⟩ last hfront

theorem feedAll_expression (expression : Expression)
    (enclosures : List EnclosurePrefix) :
    ∃ level last,
      feedAll feed (ExpressionPrefix.operand enclosures {}) expression.tokens =
        some (complete enclosures level last) ∧
      level.closed last = expression := by
  cases expression with
  | chain first rest =>
      obtain ⟨conditions, left, last, hrun, hconjoined⟩ :=
        feedAll_conjunct first enclosures none
      have hfront :
          (LevelPrefix.mk none conditions left).closed last = .chain first [] := by
        rw [LevelPrefix.closed, hconjoined, extendExpression]
      rw [Expression.tokens, feedAll_append, hrun, Option.bind_some]
      exact feedAll_or rest first [] enclosures ⟨none, conditions, left⟩ last hfront

-- The chain so far is `first` and `done`, and the last operand still belongs to it; each round of
-- the tail closes one comparison and moves it from `rest` to `done`.
theorem feedAll_and (rest : List Comparison) (first : Comparison)
    (done : List Comparison) (enclosures : List EnclosurePrefix)
    (level : LevelPrefix) (last : Operand)
    (hfront : level.conjoined last = .chain first done) :
    ∃ conditions left final,
      feedAll feed (complete enclosures level last) (andTokens rest) =
        some (complete enclosures ⟨level.alternatives, conditions, left⟩ final) ∧
      (LevelPrefix.mk level.alternatives conditions left).conjoined final =
        .chain first (done ++ rest) := by
  cases rest with
  | nil =>
      rw [List.append_nil]
      exact ⟨level.conditions, level.comparison, last, rfl, hfront⟩
  | cons comparison rest =>
      obtain ⟨left, final, hrun, hcompared⟩ :=
        feedAll_comparison comparison enclosures level.alternatives
          (some (.chain first done))
      have hlonger :
          (LevelPrefix.mk level.alternatives (some (.chain first done))
              left).conjoined final = .chain first (done ++ [comparison]) := by
        rw [LevelPrefix.conjoined, hcompared, extendConjunct]
      rw [andTokens, feedAll_cons, feed, feedComplete, Option.bind_some, hfront,
        feedAll_append, hrun, Option.bind_some, List.append_cons]
      exact feedAll_and rest first (done ++ [comparison]) enclosures _ final hlonger

theorem feedAll_or (rest : List Conjunct) (first : Conjunct)
    (done : List Conjunct) (enclosures : List EnclosurePrefix)
    (level : LevelPrefix) (last : Operand)
    (hfront : level.closed last = .chain first done) :
    ∃ level' final,
      feedAll feed (complete enclosures level last) (orTokens rest) =
        some (complete enclosures level' final) ∧
      level'.closed final = .chain first (done ++ rest) := by
  cases rest with
  | nil =>
      rw [List.append_nil]
      exact ⟨level, last, rfl, hfront⟩
  | cons conjunct rest =>
      obtain ⟨conditions, left, final, hrun, hconjoined⟩ :=
        feedAll_conjunct conjunct enclosures (some (.chain first done))
      have hlonger :
          (LevelPrefix.mk (some (.chain first done)) conditions left).closed final =
            .chain first (done ++ [conjunct]) := by
        rw [LevelPrefix.closed, hconjoined, extendExpression]
      rw [orTokens, feedAll_cons, feed, feedComplete, Option.bind_some, hfront,
        feedAll_append, hrun, Option.bind_some, List.append_cons]
      exact feedAll_or rest first (done ++ [conjunct]) enclosures _ final hlonger

theorem feedAll_arguments (args : List Expression)
    (enclosures : List EnclosurePrefix) (level : LevelPrefix) (name : String) :
    feedAll feed (firstArgument enclosures level name)
        (argumentTokens args ++ [.rightParen]) =
      some (complete enclosures level (.call name args)) := by
  cases args with
  | nil => rfl
  | cons argument rest =>
      obtain ⟨inner, last, hrun, hclosed⟩ :=
        feedAll_expression argument (.call level name [] :: enclosures)
      have hfirst := feedAll_firstArgument argument.tokens_ne_nil hrun
      rw [argumentTokens, List.append_assoc, feedAll_append, hfirst, Option.bind_some]
      exact feedAll_commas rest argument [] enclosures level name inner last hclosed

-- As for a chain, but the last argument is closed by a comma or by the parenthesis.
theorem feedAll_commas (rest : List Expression) (argument : Expression)
    (done : List Expression) (enclosures : List EnclosurePrefix)
    (level : LevelPrefix) (name : String) (inner : LevelPrefix) (last : Operand)
    (hfront : inner.closed last = argument) :
    feedAll feed (complete (.call level name done :: enclosures) inner last)
        (commaTokens rest ++ [.rightParen]) =
      some (complete enclosures level (.call name (done ++ argument :: rest))) := by
  cases rest with
  | nil =>
      rw [← hfront]
      rfl
  | cons following rest =>
      obtain ⟨inner', last', hrun, hclosed⟩ :=
        feedAll_expression following
          (.call level name (done ++ [argument]) :: enclosures)
      rw [commaTokens, List.cons_append, feedAll_cons, feed, feedComplete, hfront,
        feedComma, Option.bind_some, List.append_assoc, feedAll_append, hrun,
        Option.bind_some, List.append_cons done argument (following :: rest)]
      exact feedAll_commas rest following (done ++ [argument]) enclosures level name
        inner' last' hclosed
end

/-- Tokens lead to a prefix that is an expression exactly if they are its tokens. -/
theorem feedAll_start_iff (tokens : List Token) (expression : Expression) :
    (∃ final, feedAll feed start tokens = some final ∧
        final.whole? = some expression) ↔
      expression.tokens = tokens := by
  constructor
  · rintro ⟨final, hrun, hwhole⟩
    rw [← tokens_whole? hwhole]
    exact tokens_feedAll tokens_feed hrun
  · rintro rfl
    obtain ⟨level, last, hrun, hclosed⟩ := feedAll_expression expression []
    exact ⟨complete [] level last, hrun, congrArg some hclosed⟩

theorem tokens_injective {first second : Expression}
    (hsame : first.tokens = second.tokens) : first = second := by
  obtain ⟨final, hrun, hwhole⟩ := (feedAll_start_iff _ first).mpr hsame
  obtain ⟨final', hrun', hwhole'⟩ := (feedAll_start_iff _ second).mpr rfl
  obtain rfl := Option.some.inj (hrun.symm.trans hrun')
  exact Option.some.inj (hwhole.symm.trans hwhole')

end Backtest.Proofs.DerivationRun
