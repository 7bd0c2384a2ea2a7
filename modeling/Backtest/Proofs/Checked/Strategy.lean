import Backtest.Proofs.CallParenthesis
import Backtest.Proofs.Checked.Evaluation
import Backtest.Proofs.Checked.Parse
import Backtest.Proofs.Checked.Trading
import Backtest.Proofs.Checked.Typing
import Backtest.Strategy

namespace Backtest.Proofs.Checked

open Backtest.Rule
open Backtest.Proofs.Outcome
open Backtest.Proofs.CallParenthesis

def compileRules (source : String) : ExceptT CompileError Option (RuleSet (Condition Float)) := do
  let tree ← ExceptT.adapt CompileError.unreadable (parse source)
  ExceptT.adapt CompileError.illTyped (typed tree)

def compile (name description source : String) : ExceptT CompileError Option Strategy := do
  let rules ← compileRules source
  return { name, description, source, rules }

def run (strategy : Strategy) (frame : Frame Float) : ExceptT FrameError Option (Report Float) := do
  let signals ← signals strategy.rules frame
  ExceptT.lift (report frame signals.entry signals.exit)

theorem adapt_allowed {ε δ β : Type} (f : ε → δ) (outcome : Except ε β) :
    ExceptT.adapt f (allowed outcome) = allowed (outcome.mapError f) := rfl

theorem compileRules_eq (source : String) :
    compileRules source = allowed (Backtest.compileRules source) := by
  rw [compileRules, parse_eq, adapt_allowed]
  refine allowed_bind fun tree => ?_
  rw [typed_eq, adapt_allowed]

theorem compile_eq (name description source : String) :
    compile name description source = allowed (Strategy.compile name description source) := by
  rw [compile, compileRules_eq]
  exact allowed_bind_map fun rules => rfl

theorem run_eq (strategy : Strategy) (frame : Frame Float) :
    run strategy frame = allowed (strategy.run frame) := by
  rw [run, signals_eq]
  refine allowed_bind_map fun signals => ?_
  rw [report_eq]
  rfl

theorem compile_eq_error {name description source : String} {error : CompileError}
    (h : Strategy.compile name description source = .error error) :
    (∃ cause, error = .unreadable (.scan cause)) ∨ (∃ cause, error = .unreadable (.parse cause)) ∨
      ∃ cause, error = .illTyped cause := by
  have hrules : Backtest.compileRules source = .error error := map_eq_error.mp h
  rcases bind_eq_error.mp hrules with hparse | ⟨tree, -, htyped⟩
  · obtain ⟨cause, -, rfl⟩ := mapError_eq_error.mp hparse
    cases cause with
    | scan cause => exact .inl ⟨cause, rfl⟩
    | parse cause => exact .inr (.inl ⟨cause, rfl⟩)
  · obtain ⟨cause, -, rfl⟩ := mapError_eq_error.mp htyped
    exact .inr (.inr ⟨cause, rfl⟩)

/-- Compiling and running make no access that is not allowed, and a text that is not compiled is
refused with an error. -/
theorem compile_run_allowed (name description source : String) :
    compile name description source = some (Strategy.compile name description source) ∧
    (∀ lexemes, scan source = .ok lexemes → ∀ index called position,
      lexemes[index]? = some ⟨.function called, position⟩ →
        ∃ next, lexemes[index + 1]? = some ⟨.leftParen, next⟩) ∧
    (∀ found position,
      Rule.parse source ≠ .error (.parse ⟨.unexpected .leftParen found, position⟩)) ∧
    (∀ error, Strategy.compile name description source = .error error →
      (∃ cause, error = .unreadable (.scan cause)) ∨
        (∃ cause, error = .unreadable (.parse cause)) ∨ ∃ cause, error = .illTyped cause) ∧
    ∀ (strategy : Strategy) (frame : Frame Float),
      run strategy frame = some (strategy.run frame) :=
  ⟨compile_eq name description source,
    fun _ hscan _ _ _ hname => exists_leftParen hscan hname,
    fun _ _ => parse_ne_missing source,
    fun _ => compile_eq_error,
    run_eq⟩

end Backtest.Proofs.Checked
