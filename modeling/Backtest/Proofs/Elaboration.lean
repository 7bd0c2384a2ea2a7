import Backtest.Proofs.Outcome
import Backtest.Rule.Typing

namespace Backtest.Proofs.Elaboration

open Backtest.Rule

/-- A tree with its type. -/
inductive Typed
  | term (term : Term Float)
  | condition (condition : Condition Float)

def Typed.asTerm : Typed → Except TypeError (Term Float)
  | term t => .ok t
  | condition _ => .error (.typeMismatch .numeric .boolean)

def Typed.asCondition : Typed → Except TypeError (Condition Float)
  | condition c => .ok c
  | term _ => .error (.typeMismatch .boolean .numeric)

/-- Finds the type of a tree and the typed rule that it stands for, reading no tree again. -/
def elaborate : Tree → Except TypeError Typed
  | .identifier name => do return .term (← identifierTerm name)
  | .number value => .ok (.term (.constant value))
  | .call name args =>
    match Function.ofName? name, args with
    | none, _ => .error (.unknownFunction name)
    | some (.indicator indicator), [source, period] => do
      let source ← (← elaborate source).asTerm
      let period ← literalPeriod (.indicator indicator) period
      return .term (.indicator indicator source period)
    | some (.cross direction), [left, right] => do
      let left ← (← elaborate left).asTerm
      let right ← (← elaborate right).asTerm
      return .condition (.cross direction left right)
    | some function, args => .error (.arityMismatch function args.length)
  | .compare op left right => do
    let left ← (← elaborate left).asTerm
    let right ← (← elaborate right).asTerm
    return .condition (.compare op left right)
  | .logical op left right => do
    let left ← (← elaborate left).asCondition
    let right ← (← elaborate right).asCondition
    return .condition (.logical op left right)

theorem asTerm_call (name : String) (args : List Tree) :
    asTerm (.call name args) =
      match Function.ofName? name, args with
      | none, _ => .error (.unknownFunction name)
      | some (.indicator indicator), [source, period] => do
        let source ← asTerm source
        let period ← literalPeriod (.indicator indicator) period
        return .indicator indicator source period
      | some (.cross _), [left, right] => do
        let _ ← asCondition (.call name [left, right])
        .error (.typeMismatch .numeric .boolean)
      | some function, args => .error (.arityMismatch function args.length) := by
  rw [asTerm]
  split
  · next hname => simp only [hname]
  · next function hname =>
      simp only [hname]
      rcases args with _ | ⟨first, _ | ⟨second, _ | ⟨third, others⟩⟩⟩
      all_goals cases function <;> rfl

theorem asCondition_call (name : String) (args : List Tree) :
    asCondition (.call name args) =
      match Function.ofName? name, args with
      | none, _ => .error (.unknownFunction name)
      | some (.indicator _), [source, period] => do
        let _ ← asTerm (.call name [source, period])
        .error (.typeMismatch .boolean .numeric)
      | some (.cross direction), [left, right] => do
        let left ← asTerm left
        let right ← asTerm right
        return .cross direction left right
      | some function, args => .error (.arityMismatch function args.length) := by
  rw [asCondition]
  split
  · next hname => simp only [hname]
  · next function hname =>
      simp only [hname]
      rcases args with _ | ⟨first, _ | ⟨second, _ | ⟨third, others⟩⟩⟩
      all_goals cases function <;> rfl

/-- Both readings of a tree are projections of the pass. -/
structure Projected (tree : Tree) : Prop where
  asTerm_eq : asTerm tree = elaborate tree >>= Typed.asTerm
  asCondition_eq : asCondition tree = elaborate tree >>= Typed.asCondition

theorem projected_of_term {tree : Tree} (hpass : elaborate tree = .term <$> asTerm tree)
    (hother : asCondition tree = do
      let _ ← asTerm tree
      .error (.typeMismatch .boolean .numeric)) : Projected tree := by
  constructor
  · rw [hpass]
    cases asTerm tree <;> rfl
  · rw [hother, hpass]
    cases asTerm tree <;> rfl

theorem projected_of_condition {tree : Tree}
    (hpass : elaborate tree = .condition <$> asCondition tree)
    (hother : asTerm tree = do
      let _ ← asCondition tree
      .error (.typeMismatch .numeric .boolean)) : Projected tree := by
  constructor
  · rw [hother, hpass]
    cases asCondition tree <;> rfl
  · rw [hpass]
    cases asCondition tree <;> rfl

theorem projected_of_error {tree : Tree} {error : TypeError} (hpass : elaborate tree = .error error)
    (hterm : asTerm tree = .error error) (hcondition : asCondition tree = .error error) :
    Projected tree := by
  constructor
  · rw [hterm, hpass]
    rfl
  · rw [hcondition, hpass]
    rfl

/-- Where a reading starts with the other one, the projections agree on the error that this one
leaves, so the induction goes through both at once. -/
theorem projected (tree : Tree) : Projected tree := by
  induction tree using elaborate.induct with
  | case1 name =>
      apply projected_of_term
      · rw [elaborate, asTerm]
        rfl
      · rw [asCondition]
  | case2 value =>
      apply projected_of_term
      · rw [elaborate, asTerm]
        rfl
      · rw [asCondition]
  | case3 name args hname =>
      have hpass : elaborate (.call name args) = .error (.unknownFunction name) := by
        rw [elaborate.eq_def]
        simp only [hname]
      apply projected_of_error hpass
      · rw [asTerm_call, hname]
      · rw [asCondition_call, hname]
  | case4 name indicator source period hname ih =>
      apply projected_of_term
      · rw [asTerm_call, elaborate.eq_def]
        simp only [hname, ih.asTerm_eq, map_bind, map_pure, bind_assoc]
      · rw [asCondition_call, hname]
  | case5 name direction left right hname ih ih' =>
      apply projected_of_condition
      · rw [asCondition_call, elaborate.eq_def]
        simp only [hname, ih.asTerm_eq, ih'.asTerm_eq, map_bind, map_pure, bind_assoc]
      · rw [asTerm_call, hname]
  | case6 name function args hindicator hcross hname =>
      have hwrong : asTerm (.call name args) = .error (.arityMismatch function args.length) ∧
          asCondition (.call name args) = .error (.arityMismatch function args.length) ∧
          elaborate (.call name args) = .error (.arityMismatch function args.length) := by
        rw [asTerm_call, asCondition_call, elaborate.eq_def]
        dsimp only
        rw [hname]
        rcases args with _ | ⟨first, _ | ⟨second, _ | ⟨third, others⟩⟩⟩
        · cases function <;> exact ⟨rfl, rfl, rfl⟩
        · cases function <;> exact ⟨rfl, rfl, rfl⟩
        · cases function with
          | indicator => exact absurd rfl (hindicator _ _ _ rfl)
          | cross => exact absurd rfl (hcross _ _ _ rfl)
        · cases function <;> exact ⟨rfl, rfl, rfl⟩
      obtain ⟨hterm, hcondition, hpass⟩ := hwrong
      exact projected_of_error hpass hterm hcondition
  | case7 op left right ih ih' =>
      apply projected_of_condition
      · rw [asCondition, elaborate]
        simp only [ih.asTerm_eq, ih'.asTerm_eq, map_bind, map_pure, bind_assoc]
      · rw [asTerm]
  | case8 op left right ih ih' =>
      apply projected_of_condition
      · rw [asCondition, elaborate]
        simp only [ih.asCondition_eq, ih'.asCondition_eq, map_bind, map_pure, bind_assoc]
      · rw [asTerm]

end Backtest.Proofs.Elaboration
