import Backtest.Rule.SyntaxError

/-!
Tokens to trees, one token at a time. A state holds what has been read of an expression: the levels
of the open parentheses and, at the innermost level, the operands still waiting for their right-hand
sides. A token either leads to the next state or is refused; since every state can be completed, the
first refused token is the first that no rule could hold in its place.

```text
program    := block*                     (each of ENTRY and EXIT at most once)
block      := (ENTRY | EXIT) ':' expression
expression := conjunct {OR conjunct}
conjunct   := comparison {AND comparison}
comparison := operand [operator operand]
operand    := identifier | number | function '(' [expression {',' expression}] ')'
            | '(' expression ')'
```
-/

namespace Backtest.Rule

/-- What stands to the left of an operand at one level of parentheses: the alternatives read so far,
the conditions joined by AND since the last OR, and the left side of a comparison. -/
structure Level where
  alternatives : Option Tree := none
  conditions : Option Tree := none
  comparison : Option (Tree × CompareOp) := none

namespace Level

def join (op : BoolOp) : Option Tree → Tree → Tree
  | some left, right => .logical op left right
  | none, right => right

def compared (level : Level) (operand : Tree) : Tree :=
  match level.comparison with
  | some (left, op) => .compare op left operand
  | none => operand

/-- The chain of conditions that ends with an operand. -/
def conjoined (level : Level) (operand : Tree) : Tree :=
  join .and level.conditions (level.compared operand)

/-- The whole expression that ends with an operand. -/
def closed (level : Level) (operand : Tree) : Tree :=
  join .or level.alternatives (level.conjoined operand)

end Level

/-- An open parenthesis: around an expression, or around the arguments of a call. Either keeps the
level outside it, a call also the arguments already complete. -/
inductive Enclosure
  | group (outer : Level)
  | call (outer : Level) (name : String) (args : List Tree)

inductive ExprState
  /-- An operand has to follow. -/
  | operand (enclosures : List Enclosure) (level : Level)
  /-- After the name of a function, whose parenthesis has to follow. -/
  | calling (enclosures : List Enclosure) (level : Level) (name : String)
  /-- After the parenthesis of a call: the first argument or the closing parenthesis. -/
  | firstArgument (enclosures : List Enclosure) (level : Level) (name : String)
  /-- After an operand. -/
  | complete (enclosures : List Enclosure) (level : Level) (operand : Tree)

/-- How a token is refused: as a second comparison in a row, or as one that does not go on with the
expression. -/
inductive Refusal
  | chained (op : CompareOp)
  | foreign

namespace ExprState

def start : ExprState := operand [] {}

def feedOperand (enclosures : List Enclosure) (level : Level) :
    Token → Except Refusal ExprState
  | .identifier name => .ok (complete enclosures level (.identifier name))
  | .number value => .ok (complete enclosures level (.number value))
  | .function name => .ok (calling enclosures level name)
  | .leftParen => .ok (operand (.group level :: enclosures) {})
  | _ => .error .foreign

def feedRightParen (inner : Tree) : List Enclosure → Except Refusal ExprState
  | .group outer :: enclosures => .ok (complete enclosures outer inner)
  | .call outer name args :: enclosures =>
    .ok (complete enclosures outer (.call name (args ++ [inner])))
  | [] => .error .foreign

def feedComma (inner : Tree) : List Enclosure → Except Refusal ExprState
  | .call outer name args :: enclosures =>
    .ok (operand (.call outer name (args ++ [inner]) :: enclosures) {})
  | _ => .error .foreign

def feedComplete (enclosures : List Enclosure) (level : Level) (last : Tree) :
    Token → Except Refusal ExprState
  | .operator op =>
    match level.comparison with
    | none => .ok (operand enclosures { level with comparison := some (last, op) })
    | some _ => .error (.chained op)
  | .keyword .and =>
    .ok (operand enclosures
      { alternatives := level.alternatives, conditions := some (level.conjoined last) })
  | .keyword .or => .ok (operand enclosures { alternatives := some (level.closed last) })
  | .rightParen => feedRightParen (level.closed last) enclosures
  | .comma => feedComma (level.closed last) enclosures
  | _ => .error .foreign

def feed : ExprState → Token → Except Refusal ExprState
  | operand enclosures level, token => feedOperand enclosures level token
  | calling enclosures level name, .leftParen => .ok (firstArgument enclosures level name)
  | calling _ _ _, _ => .error .foreign
  | firstArgument enclosures level name, .rightParen =>
    .ok (complete enclosures level (.call name []))
  | firstArgument enclosures level name, token =>
    feedOperand (.call level name [] :: enclosures) {} token
  | complete enclosures level last, token => feedComplete enclosures level last token

/-- The expression read so far, where it could end. -/
def whole? : ExprState → Option Tree
  | complete [] level last => some (level.closed last)
  | _ => none

/-- What has to follow, where the expression could not end. -/
def expectation : ExprState → Expectation
  | calling _ _ _ => .leftParen
  | complete (.group _ :: _) _ _ => .rightParen
  | complete (.call _ _ _ :: _) _ _ => .commaOrRightParen
  | _ => .expression

end ExprState

inductive ProgramState
  /-- Before a block, with the blocks read so far. -/
  | header (done : RuleSet Tree)
  | colon (side : Side) (done : RuleSet Tree)
  | body (side : Side) (done : RuleSet Tree)
  | inside (side : Side) (done : RuleSet Tree) (state : ExprState)

namespace ProgramState

def refuse {α : Type} (expected : Expectation) (lexeme : Lexeme) : Except ParseError α :=
  .error ⟨.unexpected expected lexeme.token, lexeme.position⟩

def feedHeader (done : RuleSet Tree) (lexeme : Lexeme) : Except ParseError ProgramState :=
  let begin (side : Side) : Except ParseError ProgramState :=
    if (done.get side).isSome then .error ⟨.duplicateBlock side, lexeme.position⟩
    else .ok (colon side done)
  match lexeme.token with
  | .keyword .entry => begin .entry
  | .keyword .exit => begin .exit
  | _ => refuse (.block done.isEmpty) lexeme

/-- Reads on in the expression of a block. A token that does not go on with a whole expression has
to open the next block. -/
def feedInside (side : Side) (done : RuleSet Tree) (state : ExprState) (lexeme : Lexeme) :
    Except ParseError ProgramState :=
  match state.feed lexeme.token with
  | .ok next => .ok (inside side done next)
  | .error (.chained op) => .error ⟨.chainedComparison op, lexeme.position⟩
  | .error .foreign =>
    match state.whole? with
    | some tree => feedHeader (done.set side tree) lexeme
    | none => refuse state.expectation lexeme

def feed : ProgramState → Lexeme → Except ParseError ProgramState
  | header done, lexeme => feedHeader done lexeme
  | colon side done, lexeme =>
    match lexeme.token with
    | .colon => .ok (body side done)
    | _ => refuse (.colonAfter side) lexeme
  | body side done, lexeme =>
    match lexeme.token with
    | .keyword .entry | .keyword .exit => refuse (.bodyAfter side) lexeme
    | _ => feedInside side done ExprState.start lexeme
  | inside side done state, lexeme => feedInside side done state lexeme

def finish (state : ProgramState) (position : Nat) : Except ParseError (RuleSet Tree) :=
  let stop : Lexeme := ⟨.stop, position⟩
  match state with
  | header done => .ok done
  | colon side _ => refuse (.colonAfter side) stop
  | body side _ => refuse (.bodyAfter side) stop
  | inside side done state =>
    match state.whole? with
    | some tree => .ok (done.set side tree)
    | none => refuse state.expectation stop

def run (state : ProgramState) : List Lexeme → Except ParseError (RuleSet Tree)
  | [] => state.finish 0
  | lexeme :: rest =>
    match lexeme.token with
    | .stop => state.finish lexeme.position
    | _ => do (← state.feed lexeme).run rest

end ProgramState

namespace ExprState

def run (state : ExprState) : List Lexeme → Except ParseError Tree
  | [] => finish state ⟨.stop, 0⟩
  | lexeme :: rest =>
    match lexeme.token with
    | .stop => finish state lexeme
    | _ =>
      match state.feed lexeme.token with
      | .ok next => next.run rest
      | .error (.chained op) => .error ⟨.chainedComparison op, lexeme.position⟩
      | .error .foreign =>
        ProgramState.refuse (if state.whole?.isSome then .stop else state.expectation) lexeme
where
  finish (state : ExprState) (stop : Lexeme) : Except ParseError Tree :=
    match state.whole? with
    | some tree => .ok tree
    | none => ProgramState.refuse state.expectation stop

end ExprState

def parse (text : String) : Except SyntaxError (RuleSet Tree) := do
  let lexemes ← (scan text).mapError .scan
  ((ProgramState.header {}).run lexemes).mapError .parse

/-- Reads a text as one expression without a block around it. -/
def parseExpression (text : String) : Except SyntaxError Tree := do
  let lexemes ← (scan text).mapError .scan
  (ExprState.start.run lexemes).mapError .parse

end Backtest.Rule
