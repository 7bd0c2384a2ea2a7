import Backtest.Proofs.Checked.Access
import Backtest.Proofs.TypeSystem

namespace Backtest.Proofs.Checked

open Backtest.Rule

mutual

def asTerm : Tree → ExceptT TypeError Option (Term Float)
  | .identifier name => allowed (identifierTerm name)
  | .number value => allowed (.ok (.constant value))
  | .call name args =>
    match _hname : Function.ofName? name with
    | none => allowed (.error (.unknownFunction name))
    | some function =>
      if args.length = Function.arity then
        match function with
        | .indicator indicator =>
          match _hfirst : args[0]?, args[1]? with
          | some first, some second => do
            let source ← asTerm first
            let period ← allowed (literalPeriod (.indicator indicator) second)
            return .indicator indicator source period
          | _, _ => ExceptT.mk none
        | .cross _ => do
          let _ ← asCondition (.call name args)
          allowed (.error (.typeMismatch .numeric .boolean))
      else allowed (.error (.arityMismatch function args.length))
  | .compare op left right => do
    let _ ← asCondition (.compare op left right)
    allowed (.error (.typeMismatch .numeric .boolean))
  | .logical op left right => do
    let _ ← asCondition (.logical op left right)
    allowed (.error (.typeMismatch .numeric .boolean))
  termination_by tree => (sizeOf tree, if tree.headType? = some .numeric then 0 else 1)
  decreasing_by
    all_goals first
    | apply Prod.Lex.left
      simp only [Tree.compare.sizeOf_spec, Tree.logical.sizeOf_spec]
      omega
    | apply Prod.Lex.right
      simp [Tree.headType?, _hname]
    | apply Prod.Lex.right
      simp [Tree.headType?]
    | have hfirst := List.sizeOf_lt_of_mem (List.mem_of_getElem? _hfirst)
      apply Prod.Lex.left
      simp only [Tree.call.sizeOf_spec]
      omega

def asCondition : Tree → ExceptT TypeError Option (Condition Float)
  | .compare op left right => do
    let left ← asTerm left
    let right ← asTerm right
    return .compare op left right
  | .logical op left right => do
    let left ← asCondition left
    let right ← asCondition right
    return .logical op left right
  | .call name args =>
    match _hname : Function.ofName? name with
    | none => allowed (.error (.unknownFunction name))
    | some function =>
      if args.length = Function.arity then
        match function with
        | .indicator _ => do
          let _ ← asTerm (.call name args)
          allowed (.error (.typeMismatch .boolean .numeric))
        | .cross direction =>
          match _hfirst : args[0]?, _hsecond : args[1]? with
          | some first, some second => do
            let left ← asTerm first
            let right ← asTerm second
            return .cross direction left right
          | _, _ => ExceptT.mk none
      else allowed (.error (.arityMismatch function args.length))
  | .identifier name => do
    let _ ← asTerm (.identifier name)
    allowed (.error (.typeMismatch .boolean .numeric))
  | .number value => do
    let _ ← asTerm (.number value)
    allowed (.error (.typeMismatch .boolean .numeric))
  termination_by tree => (sizeOf tree, if tree.headType? = some .boolean then 0 else 1)
  decreasing_by
    all_goals first
    | apply Prod.Lex.left
      simp only [Tree.compare.sizeOf_spec, Tree.logical.sizeOf_spec]
      omega
    | apply Prod.Lex.right
      simp [Tree.headType?, _hname]
    | apply Prod.Lex.right
      simp [Tree.headType?]
    | have hfirst := List.sizeOf_lt_of_mem (List.mem_of_getElem? _hfirst)
      have hsecond := List.sizeOf_lt_of_mem (List.mem_of_getElem? _hsecond)
      apply Prod.Lex.left
      simp only [Tree.call.sizeOf_spec]
      omega

end

def typedBlock : Option Tree → ExceptT TypeError Option (Option (Condition Float))
  | some tree => some <$> asCondition tree
  | none => allowed (.ok none)

def typed (rules : RuleSet Tree) : ExceptT TypeError Option (RuleSet (Condition Float)) := do
  let entry ← typedBlock rules.entry
  let exit ← typedBlock rules.exit
  return { entry, exit }

theorem asTerm_call (name : String) (args : List Tree) :
    asTerm (.call name args) =
      match Function.ofName? name, args with
      | none, _ => allowed (.error (.unknownFunction name))
      | some (.indicator indicator), [source, period] => do
        let source ← asTerm source
        let period ← allowed (literalPeriod (.indicator indicator) period)
        return .indicator indicator source period
      | some (.cross _), [left, right] => do
        let _ ← asCondition (.call name [left, right])
        allowed (.error (.typeMismatch .numeric .boolean))
      | some function, args => allowed (.error (.arityMismatch function args.length)) := by
  rw [asTerm]
  split
  · next hname => simp only [hname]
  · next function hname =>
      simp only [hname]
      rcases args with _ | ⟨first, _ | ⟨second, _ | ⟨third, others⟩⟩⟩
      all_goals cases function <;> rfl

theorem asCondition_call (name : String) (args : List Tree) :
    asCondition (.call name args) =
      match Function.ofName? name, args with
      | none, _ => allowed (.error (.unknownFunction name))
      | some (.indicator _), [source, period] => do
        let _ ← asTerm (.call name [source, period])
        allowed (.error (.typeMismatch .boolean .numeric))
      | some (.cross direction), [left, right] => do
        let left ← asTerm left
        let right ← asTerm right
        return .cross direction left right
      | some function, args => allowed (.error (.arityMismatch function args.length)) := by
  rw [asCondition]
  split
  · next hname => simp only [hname]
  · next function hname =>
      simp only [hname]
      rcases args with _ | ⟨first, _ | ⟨second, _ | ⟨third, others⟩⟩⟩
      all_goals cases function <;> rfl

/-- What is read again before it is refused is allowed if it was allowed before. -/
theorem reread_eq {β γ : Type} {checked : ExceptT TypeError Option β} {outcome : Except TypeError β}
    (hchecked : checked = allowed outcome) (refused : Except TypeError γ) :
    (do
      let _ ← checked
      allowed refused) = allowed (do
        let _ ← outcome
        refused) := by
  rw [hchecked]
  exact allowed_bind fun _ => rfl

/-- Both readings, by the induction that goes through the pass over a tree. -/
theorem readings_eq (tree : Tree) :
    asTerm tree = allowed (Rule.asTerm tree) ∧
      asCondition tree = allowed (Rule.asCondition tree) := by
  induction tree using Elaboration.elaborate.induct with
  | case1 name =>
      have hterm : asTerm (.identifier name) = allowed (Rule.asTerm (.identifier name)) := by
        rw [asTerm, Rule.asTerm]
      refine ⟨hterm, ?_⟩
      rw [asCondition, Rule.asCondition]
      exact reread_eq hterm _
  | case2 value =>
      have hterm : asTerm (.number value) = allowed (Rule.asTerm (.number value)) := by
        rw [asTerm, Rule.asTerm]
      refine ⟨hterm, ?_⟩
      rw [asCondition, Rule.asCondition]
      exact reread_eq hterm _
  | case3 name args hname =>
      constructor
      · rw [asTerm_call, Elaboration.asTerm_call, hname]
      · rw [asCondition_call, Elaboration.asCondition_call, hname]
  | case4 name indicator source period hname ih =>
      have hterm : asTerm (.call name [source, period]) =
          allowed (Rule.asTerm (.call name [source, period])) := by
        rw [asTerm_call, Elaboration.asTerm_call, hname]
        dsimp only
        rw [ih.1]
        exact allowed_bind fun source => allowed_bind fun period => rfl
      refine ⟨hterm, ?_⟩
      rw [asCondition_call, Elaboration.asCondition_call, hname]
      exact reread_eq hterm _
  | case5 name direction left right hname ih ih' =>
      have hcondition : asCondition (.call name [left, right]) =
          allowed (Rule.asCondition (.call name [left, right])) := by
        rw [asCondition_call, Elaboration.asCondition_call, hname]
        dsimp only
        rw [ih.1, ih'.1]
        exact allowed_bind fun left => allowed_bind fun right => rfl
      refine ⟨?_, hcondition⟩
      rw [asTerm_call, Elaboration.asTerm_call, hname]
      exact reread_eq hcondition _
  | case6 name function args hindicator hcross hname =>
      rw [asTerm_call, asCondition_call, Elaboration.asTerm_call, Elaboration.asCondition_call,
        hname]
      rcases args with _ | ⟨first, _ | ⟨second, _ | ⟨third, others⟩⟩⟩
      · cases function <;> exact ⟨rfl, rfl⟩
      · cases function <;> exact ⟨rfl, rfl⟩
      · cases function with
        | indicator => exact absurd rfl (hindicator _ _ _ rfl)
        | cross => exact absurd rfl (hcross _ _ _ rfl)
      · cases function <;> exact ⟨rfl, rfl⟩
  | case7 op left right ih ih' =>
      have hcondition : asCondition (.compare op left right) =
          allowed (Rule.asCondition (.compare op left right)) := by
        rw [asCondition, Rule.asCondition, ih.1, ih'.1]
        exact allowed_bind fun left => allowed_bind fun right => rfl
      refine ⟨?_, hcondition⟩
      rw [asTerm, Rule.asTerm]
      exact reread_eq hcondition _
  | case8 op left right ih ih' =>
      have hcondition : asCondition (.logical op left right) =
          allowed (Rule.asCondition (.logical op left right)) := by
        rw [asCondition, Rule.asCondition, ih.2, ih'.2]
        exact allowed_bind fun left => allowed_bind fun right => rfl
      refine ⟨?_, hcondition⟩
      rw [asTerm, Rule.asTerm]
      exact reread_eq hcondition _

theorem typedBlock_eq (rule : Option Tree) :
    typedBlock rule = allowed (TypeSystem.typedBlock rule) := by
  cases rule with
  | none => rfl
  | some tree =>
      rw [typedBlock, (readings_eq tree).2]
      exact allowed_map some _

theorem typed_eq (rules : RuleSet Tree) : typed rules = allowed rules.typed := by
  rw [typed, typedBlock_eq, typedBlock_eq, TypeSystem.typed_eq]
  exact allowed_bind fun entry => allowed_bind fun exit => rfl

end Backtest.Proofs.Checked
