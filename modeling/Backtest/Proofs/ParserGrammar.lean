import Backtest.Proofs.Scanner
import Backtest.Proofs.ViableProgram

namespace Backtest.Proofs.ParserGrammar

open Backtest.Rule
open Backtest.Proofs.Outcome
open Backtest.Proofs.Scanner
open Backtest.Proofs.Grammar
open Backtest.Proofs.ViablePrefix
open Backtest.Proofs.DerivationRun
open Backtest.Proofs.ViableProgram

/-- Running a state over tokens and the end feeds its prefix and asks whether it is whole. -/
theorem run_program {lexemes : List Lexeme} (front : ProgramPrefix)
    (hproper : ∀ lexeme ∈ lexemes, lexeme.token ≠ .stop) (last : Nat) :
    (front.state.run (lexemes ++ [⟨.stop, last⟩])).toOption =
      (feedAll ProgramPrefix.feed front (lexemes.map Lexeme.token)).bind fun final =>
        final.whole?.map Program.rules := by
  induction lexemes generalizing front with
  | nil => exact front.finish_state last
  | cons lexeme rest ih =>
      rw [List.forall_mem_cons] at hproper
      have hrun : front.state.run (lexeme :: rest ++ [⟨.stop, last⟩]) =
          front.state.feed lexeme >>= fun next =>
            next.run (rest ++ [⟨.stop, last⟩]) := by
        rw [List.cons_append, ProgramState.run]
        split
        · next hstop => exact absurd hstop hproper.1
        · rfl
      have hstep := front.feed_state lexeme
      rw [hrun, List.map_cons, feedAll_cons]
      cases houtcome : front.state.feed lexeme with
      | error error =>
          rw [houtcome] at hstep
          rw [Option.map_eq_none_iff.mp hstep.symm]
          rfl
      | ok next =>
          rw [houtcome] at hstep
          obtain ⟨next, hfed, rfl⟩ := Option.map_eq_some_iff.mp hstep.symm
          rw [hfed]
          exact ih next hproper.2

theorem run_expression {lexemes : List Lexeme} (front : ExpressionPrefix)
    (hproper : ∀ lexeme ∈ lexemes, lexeme.token ≠ .stop) (last : Nat) :
    (front.state.run (lexemes ++ [⟨.stop, last⟩])).toOption =
      (feedAll ExpressionPrefix.feed front (lexemes.map Lexeme.token)).bind fun final =>
        final.whole?.map Expression.tree := by
  induction lexemes generalizing front with
  | nil =>
      show (ExprState.run.finish front.state ⟨.stop, last⟩).toOption =
        front.whole?.map Expression.tree
      rw [← front.whole?_state, ExprState.run.finish]
      cases front.state.whole? <;> rfl
  | cons lexeme rest ih =>
      rw [List.forall_mem_cons] at hproper
      have hstep := front.feed_state lexeme.token
      rw [List.cons_append, ExprState.run, List.map_cons, feedAll_cons]
      split
      · next hstop => exact absurd hstop hproper.1
      · split
        · next next houtcome =>
            rw [houtcome] at hstep
            obtain ⟨next, hfed, rfl⟩ := Option.map_eq_some_iff.mp hstep.symm
            rw [hfed]
            exact ih next hproper.2
        · next op houtcome =>
            rw [houtcome] at hstep
            rw [Option.map_eq_none_iff.mp hstep.symm]
            rfl
        · next houtcome =>
            rw [houtcome] at hstep
            rw [Option.map_eq_none_iff.mp hstep.symm]
            rfl

/-- What a run of feeding and asking gives, if what is fed and whole has the tokens fed. -/
theorem eq_ok_iff_of_run {ε σ δ τ : Type} {feed : σ → Token → Option σ} {start : σ}
    {whole? : σ → Option δ} {tokensOf : δ → List Token} {treeOf : δ → τ} {tokens : List Token}
    {outcome : Except ε τ}
    (hrun : outcome.toOption =
      (feedAll feed start tokens).bind fun final => (whole? final).map treeOf)
    (hstart : ∀ derivation, (∃ final, feedAll feed start tokens = some final ∧
      whole? final = some derivation) ↔ tokensOf derivation = tokens) (tree : τ) :
    outcome = .ok tree ↔
      ∃ derivation, tokensOf derivation = tokens ∧ treeOf derivation = tree := by
  rw [← toOption_eq_some, hrun]
  constructor
  · intro hparsed
    obtain ⟨final, hfed, hresult⟩ := Option.bind_eq_some_iff.mp hparsed
    obtain ⟨derivation, hwhole, hsame⟩ := Option.map_eq_some_iff.mp hresult
    exact ⟨derivation, (hstart derivation).mp ⟨final, hfed, hwhole⟩, hsame⟩
  · rintro ⟨derivation, hderives, rfl⟩
    obtain ⟨final, hfed, hwhole⟩ := (hstart derivation).mpr hderives
    rw [hfed, Option.bind_some, hwhole]
    rfl

theorem run_eq_ok_program {lexemes : List Lexeme}
    (hproper : ∀ lexeme ∈ lexemes, lexeme.token ≠ .stop) (last : Nat)
    (rules : RuleSet Tree) :
    (ProgramState.header {}).run (lexemes ++ [⟨.stop, last⟩]) = .ok rules ↔
      ∃ program : Program, program.tokens = lexemes.map Lexeme.token ∧
        program.rules = rules :=
  eq_ok_iff_of_run (run_program ProgramPrefix.start hproper last)
    (ProgramPrefix.feedAll_start_iff _) rules

theorem run_eq_ok_expression {lexemes : List Lexeme}
    (hproper : ∀ lexeme ∈ lexemes, lexeme.token ≠ .stop) (last : Nat)
    (tree : Tree) :
    ExprState.start.run (lexemes ++ [⟨.stop, last⟩]) = .ok tree ↔
      ∃ expression : Expression, expression.tokens = lexemes.map Lexeme.token ∧
        expression.tree = tree :=
  eq_ok_iff_of_run (run_expression ExpressionPrefix.start hproper last) (feedAll_start_iff _) tree

/-- A scanned text is a rule set exactly if its tokens are those of a program, and then it is the
tree of that one program; likewise for an expression on its own. A tree keeps the words of its
expression in order. -/
theorem parse_grammar (text : String) (lexemes : List Lexeme)
    (hscanned : scan text = .ok lexemes) :
    (∀ rules, parse text = .ok rules ↔
      ∃ program : Program,
        program.tokens ++ [.stop] = lexemes.map Lexeme.token ∧
          program.rules = rules) ∧
    (∀ first second : Program,
      first.tokens = second.tokens → first = second) ∧
    (∀ tree, parseExpression text = .ok tree ↔
      ∃ expression : Expression,
        expression.tokens ++ [.stop] = lexemes.map Lexeme.token ∧
          expression.tree = tree) ∧
    (∀ first second : Expression,
      first.tokens = second.tokens → first = second) ∧
    (∀ expression : Expression,
      words expression.tree = expression.tokens.filter isWord) := by
  obtain ⟨front, last, rfl, hproper⟩ := scan_eq_append hscanned
  have hparsed (rules : RuleSet Tree) :
      parse text = .ok rules ↔
        (ProgramState.header {}).run (front ++ [⟨.stop, last⟩]) = .ok rules := by
    rw [parse, hscanned]
    exact mapError_eq_ok
  have hparsedExpression (tree : Tree) :
      parseExpression text = .ok tree ↔
        ExprState.start.run (front ++ [⟨.stop, last⟩]) = .ok tree := by
    rw [parseExpression, hscanned]
    exact mapError_eq_ok
  refine ⟨?_, fun _ _ => ProgramPrefix.tokens_injective, ?_,
    fun _ _ => tokens_injective, words_expression⟩
  · intro rules
    rw [hparsed, run_eq_ok_program hproper]
    simp only [List.map_append, List.map_singleton, List.append_cancel_right_eq]
  · intro tree
    rw [hparsedExpression, run_eq_ok_expression hproper]
    simp only [List.map_append, List.map_singleton, List.append_cancel_right_eq]

def exitText : String := "EXIT: a AND rsi(b, 14) < 30 OR (c)"

def exitNumber (digits : List Char) : Float :=
  (Decimal.ofDigits digits []).toFloat

def exitLexemes : List Lexeme :=
  [⟨.keyword .exit, 0⟩, ⟨.colon, 4⟩, ⟨.identifier "a", 6⟩, ⟨.keyword .and, 8⟩,
    ⟨.function "rsi", 12⟩, ⟨.leftParen, 15⟩, ⟨.identifier "b", 16⟩, ⟨.comma, 17⟩,
    ⟨.number (exitNumber ['1', '4']), 19⟩, ⟨.rightParen, 21⟩, ⟨.operator .lt, 23⟩,
    ⟨.number (exitNumber ['3', '0']), 25⟩, ⟨.keyword .or, 28⟩, ⟨.leftParen, 31⟩,
    ⟨.identifier "c", 32⟩, ⟨.rightParen, 33⟩, ⟨.stop, 34⟩]

def exitProgram : Program where
  blocks :=
    [⟨.exit, .chain
      (.chain (.single (.identifier "a"))
        [.compare
          (.call "rsi"
            [.chain (.chain (.single (.identifier "b")) []) [],
              .chain (.chain (.single (.number (exitNumber ['1', '4']))) []) []])
          .lt (.number (exitNumber ['3', '0']))])
      [.chain (.single (.group (.chain (.chain (.single (.identifier "c")) []) []))) []]⟩]
  distinct := List.pairwise_singleton _ _

theorem scan_exitText : scan exitText = .ok exitLexemes := by
  simp [exitText, exitLexemes, exitNumber, scan, scanFrom_cons, scanFrom_nil,
    Scan.next?, Text.isBlank, Scan.isWordStart, Scan.isWordChar, Scan.word,
    Scan.wordToken, Scan.number, Scan.symbol?, Scan.opensCall, Text.trimLeft,
    Keyword.ofWord?, Keyword.all, Keyword.spelling, String.toUpper,
    String.map_eq_internal, Text.byteLength, Except.map, Char.utf8Size]

theorem parse_exitText :
    scan exitText = .ok exitLexemes ∧
      parse exitText =
        .ok ⟨none, some
          (.logical .or
            (.logical .and (.identifier "a")
              (.compare .lt
                (.call "rsi" [.identifier "b", .number (exitNumber ['1', '4'])])
                (.number (exitNumber ['3', '0']))))
            (.identifier "c"))⟩ :=
  ⟨scan_exitText,
    ((parse_grammar exitText exitLexemes scan_exitText).1 _).mpr
      ⟨exitProgram, rfl, rfl⟩⟩

end Backtest.Proofs.ParserGrammar
