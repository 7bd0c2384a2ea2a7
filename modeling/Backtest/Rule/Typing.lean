import Backtest.Number.Binary64
import Backtest.Rule.Typed

/-!
Trees to typed rules. `asTerm` and `asCondition` read a tree under one of the two types each. A tree
of the other type is read as that one first, so a mismatch is reported only for a tree that is well
typed by itself. Names of columns are matched as spelled, names of functions in any case.
-/

namespace Backtest.Rule

inductive ExprType
  | numeric
  | boolean
  deriving DecidableEq, Repr

namespace ExprType

def name : ExprType → String
  | numeric => "numeric"
  | boolean => "boolean"

end ExprType

inductive Function
  | indicator (indicator : Indicator)
  | cross (direction : Direction)
  deriving DecidableEq, Repr

namespace Function

def all : List Function :=
  [indicator .sma, indicator .ema, indicator .rsi, cross .above, cross .below]

def name : Function → String
  | indicator i => i.name
  | cross direction => direction.name

/-- The function that a name calls, in any mixture of cases. -/
def ofName? (name : String) : Option Function :=
  all.find? fun function => function.name.toUpper == name.toUpper

def arity : Nat := 2

end Function

inductive TypeError
  | unknownIdentifier (name : String)
  | unknownFunction (name : String)
  | arityMismatch (function : Function) (actual : Nat)
  | typeMismatch (expected found : ExprType)
  | periodNotLiteral (function : Function)
  deriving DecidableEq, Repr

namespace TypeError

def message : TypeError → String
  | unknownIdentifier name => "unknown identifier '" ++ name ++ "'"
  | unknownFunction name => "unknown function '" ++ name ++ "'"
  | arityMismatch function actual =>
    function.name ++ " expects " ++ toString Function.arity ++ " arguments, got " ++
      toString actual
  | typeMismatch expected found =>
    "type mismatch: expected " ++ expected.name ++ " expression, found " ++ found.name ++
      " expression"
  | periodNotLiteral function => function.name ++ " period must be a number literal"

end TypeError

def maxPeriod : Nat := Nat.pow 2 64 - 1

/-- The period that a literal stands for: its whole part, at least 1 and at most the largest. -/
def periodOf (value : Float) : Nat :=
  match Binary64.parts value with
  | .finite false mantissa exponent =>
    max 1 (min maxPeriod (mantissa * Nat.pow 2 exponent.toNat / Nat.pow 2 (-exponent).toNat))
  | .infinite false => maxPeriod
  | _ => 1

def identifierTerm (name : String) : Except TypeError (Term Float) :=
  match Column.ofName? name with
  | some column => .ok (.column column)
  | none =>
    match Column.all.find? fun column => yesterdayMark ++ column.name == name with
    | some column => .ok (.yesterday column)
    | none => .error (.unknownIdentifier name)

def literalPeriod (function : Function) : Tree → Except TypeError Nat
  | .number value => .ok (periodOf value)
  | _ => .error (.periodNotLiteral function)

/-- The type that the outermost symbol gives a tree, unless that calls no function. -/
def Tree.headType? : Tree → Option ExprType
  | .identifier _ => some .numeric
  | .number _ => some .numeric
  | .call name _ =>
    match Function.ofName? name with
    | some (.indicator _) => some .numeric
    | some (.cross _) => some .boolean
    | none => none
  | .compare _ _ _ => some .boolean
  | .logical _ _ _ => some .boolean

mutual

/-- Reads a tree as a term. The function and the count of arguments of a call are looked at before
the arguments, and these from left to right. A condition is first read as one, so that a mismatch is
only reported of a tree that is well typed by itself. -/
def asTerm : Tree → Except TypeError (Term Float)
  | .identifier name => identifierTerm name
  | .number value => .ok (.constant value)
  | .call name args =>
    match _hname : Function.ofName? name with
    | none => .error (.unknownFunction name)
    | some function =>
      match function, args with
      | .indicator indicator, [source, period] => do
        let source ← asTerm source
        let period ← literalPeriod (.indicator indicator) period
        return .indicator indicator source period
      | .cross _, [left, right] => do
        let _ ← asCondition (.call name [left, right])
        .error (.typeMismatch .numeric .boolean)
      | function, args => .error (.arityMismatch function args.length)
  | .compare op left right => do
    let _ ← asCondition (.compare op left right)
    .error (.typeMismatch .numeric .boolean)
  | .logical op left right => do
    let _ ← asCondition (.logical op left right)
    .error (.typeMismatch .numeric .boolean)
  termination_by tree => (sizeOf tree, if tree.headType? = some .numeric then 0 else 1)
  decreasing_by
    -- an operand, or the same tree under its own type
    all_goals first
    | apply Prod.Lex.left
      simp only [Tree.call.sizeOf_spec, Tree.compare.sizeOf_spec, Tree.logical.sizeOf_spec,
        List.cons.sizeOf_spec]
      omega
    | apply Prod.Lex.right
      simp [Tree.headType?, _hname]
    | apply Prod.Lex.right
      simp [Tree.headType?]

/-- Reads a tree as a condition. -/
def asCondition : Tree → Except TypeError (Condition Float)
  | .compare op left right => do
    let left ← asTerm left
    let right ← asTerm right
    return .compare op left right
  | .logical op left right => do
    let left ← asCondition left
    let right ← asCondition right
    return .logical op left right
  | .call name args =>
    match _hname : Function.ofName? name with
    | none => .error (.unknownFunction name)
    | some function =>
      match function, args with
      | .indicator _, [source, period] => do
        let _ ← asTerm (.call name [source, period])
        .error (.typeMismatch .boolean .numeric)
      | .cross direction, [left, right] => do
        let left ← asTerm left
        let right ← asTerm right
        return .cross direction left right
      | function, args => .error (.arityMismatch function args.length)
  | .identifier name => do
    let _ ← asTerm (.identifier name)
    .error (.typeMismatch .boolean .numeric)
  | .number value => do
    let _ ← asTerm (.number value)
    .error (.typeMismatch .boolean .numeric)
  termination_by tree => (sizeOf tree, if tree.headType? = some .boolean then 0 else 1)
  decreasing_by
    all_goals first
    | apply Prod.Lex.left
      simp only [Tree.call.sizeOf_spec, Tree.compare.sizeOf_spec, Tree.logical.sizeOf_spec,
        List.cons.sizeOf_spec]
      omega
    | apply Prod.Lex.right
      simp [Tree.headType?, _hname]
    | apply Prod.Lex.right
      simp [Tree.headType?]

end

/-- Types the blocks of a rule set, the entry first. -/
def RuleSet.typed (rules : RuleSet Tree) : Except TypeError (RuleSet (Condition Float)) := do
  let block : Option Tree → Except TypeError (Option (Condition Float))
    | some tree => some <$> asCondition tree
    | none => pure none
  return { entry := ← block rules.entry, exit := ← block rules.exit }

end Backtest.Rule
