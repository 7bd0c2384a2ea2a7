import Backtest.Proofs.CallParenthesis
import Backtest.Proofs.Checked.Scan

namespace Backtest.Proofs.Checked

open Backtest.Rule
open Backtest.Text
open Backtest.Proofs.Scanner
open Backtest.Proofs.CallParenthesis

/-- Feeds the tokens from an index on. -/
def runAt (lexemes : List Lexeme) (state : ProgramState) (index : Nat) :
    Option (Except ParseError (RuleSet Tree)) :=
  match _h : lexemes[index]? with
  | none => none
  | some lexeme =>
    match lexeme.token with
    | .stop => some (state.finish lexeme.position)
    | _ =>
      match state.feed lexeme with
      | .ok next => runAt lexemes next (index + 1)
      | .error error => some (.error error)
  termination_by lexemes.length - index
  decreasing_by
    have hlt := (List.getElem?_eq_some_iff.mp _h).1
    omega

def parse (text : String) : ExceptT SyntaxError Option (RuleSet Tree) := do
  let scanned ← ExceptT.lift (scanAt text.toList 0)
  let lexemes ← allowed (scanned.mapError .scan)
  let outcome ← ExceptT.lift (runAt lexemes (.header {}) 0)
  allowed (outcome.mapError .parse)

section Index

variable {lexemes front : List Lexeme} {lexeme : Lexeme} {index last : Nat}

theorem runAt_stop (hindex : lexemes[index]? = some ⟨.stop, last⟩) (state : ProgramState) :
    runAt lexemes state index = some (state.finish last) := by
  rw [runAt.eq_def]
  split
  · next hnone => cases hindex.symm.trans hnone
  · next hsome =>
      obtain rfl := Option.some.inj (hindex.symm.trans hsome)
      rfl

theorem runAt_feed (hindex : lexemes[index]? = some lexeme) (hproper : lexeme.token ≠ .stop)
    (state : ProgramState) :
    runAt lexemes state index = match state.feed lexeme with
      | .ok next => runAt lexemes next (index + 1)
      | .error error => some (.error error) := by
  rw [runAt.eq_def]
  split
  · next hnone => cases hindex.symm.trans hnone
  · next hsome =>
      obtain rfl := Option.some.inj (hindex.symm.trans hsome)
      split
      · next hstop => exact absurd hstop hproper
      · rfl

/-- No index is out of range, since the run ends with the text. -/
theorem runAt_eq (h : lexemes.drop index = front ++ [⟨.stop, last⟩])
    (hproper : ∀ lexeme ∈ front, lexeme.token ≠ .stop) (state : ProgramState) :
    runAt lexemes state index = some (state.run (front ++ [⟨.stop, last⟩])) := by
  induction front generalizing index state with
  | nil =>
      have hindex : lexemes[index]? = some ⟨.stop, last⟩ := by
        rw [← List.head?_drop, h]
        rfl
      exact runAt_stop hindex state
  | cons first front ih =>
      obtain ⟨hfirst, hproper⟩ := List.forall_mem_cons.mp hproper
      have hindex : lexemes[index]? = some first := by
        rw [← List.head?_drop, h]
        rfl
      have hrest : lexemes.drop (index + 1) = front ++ [⟨.stop, last⟩] := by
        rw [← List.tail_drop, h]
        rfl
      rw [runAt_feed hindex hfirst, List.cons_append, run_cons hfirst]
      cases state.feed first with
      | error error => rfl
      | ok next => exact ih hrest hproper next

end Index

theorem parse_eq (text : String) : parse text = allowed (Rule.parse text) := by
  rw [parse, scanAt_eq (at_start text.toList), lift_bind, Rule.parse, scan]
  cases hscan : Scan.scanFrom 0 text.toList with
  | error error => rfl
  | ok lexemes =>
      obtain ⟨front, last, rfl, hproper⟩ := scanFrom_eq_append hscan
      change ExceptT.lift (runAt _ _ 0) >>= _ = _
      rw [runAt_eq List.drop_zero hproper, lift_bind]
      rfl

end Backtest.Proofs.Checked
