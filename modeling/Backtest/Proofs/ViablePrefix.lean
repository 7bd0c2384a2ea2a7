import Backtest.Proofs.Grammar
import Backtest.Rule.Tree.Parse

namespace Backtest.Proofs.ViablePrefix

open Backtest.Rule
open Backtest.Proofs.Grammar

def extendConjunct : Option Conjunct → Comparison → Conjunct
  | none, comparison => .chain comparison []
  | some (.chain first rest), comparison => .chain first (rest ++ [comparison])

def extendExpression : Option Expression → Conjunct → Expression
  | none, conjunct => .chain conjunct []
  | some (.chain first rest), conjunct => .chain first (rest ++ [conjunct])

structure LevelPrefix where
  alternatives : Option Expression := none
  conditions : Option Conjunct := none
  comparison : Option (Operand × CompareOp) := none

namespace LevelPrefix

def compared (level : LevelPrefix) (last : Operand) : Comparison :=
  match level.comparison with
  | some (left, op) => .compare left op last
  | none => .single last

def conjoined (level : LevelPrefix) (last : Operand) : Conjunct :=
  extendConjunct level.conditions (level.compared last)

def closed (level : LevelPrefix) (last : Operand) : Expression :=
  extendExpression level.alternatives (level.conjoined last)

def state (level : LevelPrefix) : Level where
  alternatives := level.alternatives.map Expression.tree
  conditions := level.conditions.map Conjunct.tree
  comparison := level.comparison.map fun pair => (pair.1.tree, pair.2)

/-- The tokens to the left of the operand that has to follow. -/
def tokens (level : LevelPrefix) : List Token :=
  (level.alternatives.elim [] fun left => left.tokens ++ [.keyword .or]) ++
  (level.conditions.elim [] fun left => left.tokens ++ [.keyword .and]) ++
  (level.comparison.elim [] fun pair => pair.1.tokens ++ [.operator pair.2])

end LevelPrefix

inductive EnclosurePrefix
  | group (outer : LevelPrefix)
  | call (outer : LevelPrefix) (name : String) (args : List Expression)

namespace EnclosurePrefix

def state : EnclosurePrefix → Enclosure
  | group outer => .group outer.state
  | call outer name args => .call outer.state name (argumentTrees args)

def tokens : EnclosurePrefix → List Token
  | group outer => outer.tokens ++ [.leftParen]
  | call outer name args =>
      outer.tokens ++ .function name :: .leftParen :: leadingTokens args

end EnclosurePrefix

def enclosureTokens : List EnclosurePrefix → List Token
  | [] => []
  | enclosure :: outer => enclosureTokens outer ++ enclosure.tokens

inductive ExpressionPrefix
  | operand (enclosures : List EnclosurePrefix) (level : LevelPrefix)
  | calling (enclosures : List EnclosurePrefix) (level : LevelPrefix)
      (name : String)
  | firstArgument (enclosures : List EnclosurePrefix) (level : LevelPrefix)
      (name : String)
  | complete (enclosures : List EnclosurePrefix) (level : LevelPrefix)
      (last : Operand)

namespace ExpressionPrefix

def state : ExpressionPrefix → ExprState
  | operand enclosures level =>
      .operand (enclosures.map EnclosurePrefix.state) level.state
  | calling enclosures level name =>
      .calling (enclosures.map EnclosurePrefix.state) level.state name
  | firstArgument enclosures level name =>
      .firstArgument (enclosures.map EnclosurePrefix.state) level.state name
  | complete enclosures level last =>
      .complete (enclosures.map EnclosurePrefix.state) level.state last.tree

def tokens : ExpressionPrefix → List Token
  | operand enclosures level => enclosureTokens enclosures ++ level.tokens
  | calling enclosures level name =>
      enclosureTokens enclosures ++ level.tokens ++ [.function name]
  | firstArgument enclosures level name =>
      enclosureTokens enclosures ++ level.tokens ++
        [.function name, .leftParen]
  | complete enclosures level last =>
      enclosureTokens enclosures ++ level.tokens ++ last.tokens

def start : ExpressionPrefix := operand [] {}

def feedOperand (enclosures : List EnclosurePrefix) (level : LevelPrefix) :
    Token → Option ExpressionPrefix
  | .identifier name => some (complete enclosures level (.identifier name))
  | .number value => some (complete enclosures level (.number value))
  | .function name => some (calling enclosures level name)
  | .leftParen => some (operand (.group level :: enclosures) {})
  | _ => none

def feedRightParen (inner : Expression) :
    List EnclosurePrefix → Option ExpressionPrefix
  | .group outer :: enclosures =>
      some (complete enclosures outer (.group inner))
  | .call outer name args :: enclosures =>
      some (complete enclosures outer (.call name (args ++ [inner])))
  | [] => none

def feedComma (inner : Expression) :
    List EnclosurePrefix → Option ExpressionPrefix
  | .call outer name args :: enclosures =>
      some (operand (.call outer name (args ++ [inner]) :: enclosures) {})
  | _ => none

def feedComplete (enclosures : List EnclosurePrefix) (level : LevelPrefix)
    (last : Operand) : Token → Option ExpressionPrefix
  | .operator op =>
      match level.comparison with
      | none =>
          some (operand enclosures { level with comparison := some (last, op) })
      | some _ => none
  | .keyword .and =>
      some (operand enclosures
        { alternatives := level.alternatives
          conditions := some (level.conjoined last) })
  | .keyword .or =>
      some (operand enclosures { alternatives := some (level.closed last) })
  | .rightParen => feedRightParen (level.closed last) enclosures
  | .comma => feedComma (level.closed last) enclosures
  | _ => none

def feed : ExpressionPrefix → Token → Option ExpressionPrefix
  | operand enclosures level, token => feedOperand enclosures level token
  | calling enclosures level name, .leftParen =>
      some (firstArgument enclosures level name)
  | calling _ _ _, _ => none
  | firstArgument enclosures level name, .rightParen =>
      some (complete enclosures level (.call name []))
  | firstArgument enclosures level name, token =>
      feedOperand (.call level name [] :: enclosures) {} token
  | complete enclosures level last, token =>
      feedComplete enclosures level last token

def whole? : ExpressionPrefix → Option Expression
  | complete [] level last => some (level.closed last)
  | _ => none

end ExpressionPrefix

theorem tree_extendConjunct (front : Option Conjunct) (last : Comparison) :
    (extendConjunct front last).tree =
      Level.join .and (front.map Conjunct.tree) last.tree := by
  rcases front with _ | ⟨first, rest⟩
  · rfl
  · simp [extendConjunct, Conjunct.tree, joinAnd_eq_foldl, Level.join]

theorem tree_extendExpression (front : Option Expression) (last : Conjunct) :
    (extendExpression front last).tree =
      Level.join .or (front.map Expression.tree) last.tree := by
  rcases front with _ | ⟨first, rest⟩
  · rfl
  · simp [extendExpression, Expression.tree, joinOr_eq_foldl, Level.join]

theorem compared_state (level : LevelPrefix) (last : Operand) :
    level.state.compared last.tree = (level.compared last).tree := by
  obtain ⟨alternatives, conditions, _ | ⟨left, op⟩⟩ := level <;> rfl

theorem conjoined_state (level : LevelPrefix) (last : Operand) :
    level.state.conjoined last.tree = (level.conjoined last).tree := by
  rw [Level.conjoined, compared_state, LevelPrefix.conjoined,
    tree_extendConjunct]
  rfl

theorem closed_state (level : LevelPrefix) (last : Operand) :
    level.state.closed last.tree = (level.closed last).tree := by
  rw [Level.closed, conjoined_state, LevelPrefix.closed,
    tree_extendExpression]
  rfl

theorem argumentTrees_append_singleton (args : List Expression)
    (last : Expression) :
    argumentTrees (args ++ [last]) = argumentTrees args ++ [last.tree] := by
  simp [argumentTrees_eq_map]

namespace ExpressionPrefix

theorem whole?_state (front : ExpressionPrefix) :
    front.state.whole? = front.whole?.map Expression.tree := by
  rcases front with _ | _ | _ | ⟨_ | _, level, last⟩
  case complete.nil =>
      exact congrArg some (closed_state level last)
  all_goals rfl

theorem feedOperand_state (enclosures : List EnclosurePrefix)
    (level : LevelPrefix) (token : Token) :
    (ExprState.feedOperand (enclosures.map EnclosurePrefix.state) level.state
        token).toOption =
      (feedOperand enclosures level token).map state := by
  cases token <;> rfl

theorem feedRightParen_state (inner : Expression)
    (enclosures : List EnclosurePrefix) :
    (ExprState.feedRightParen inner.tree
        (enclosures.map EnclosurePrefix.state)).toOption =
      (feedRightParen inner enclosures).map state := by
  rcases enclosures with _ | ⟨outer | ⟨outer, name, args⟩, enclosures⟩
  · rfl
  · rfl
  · simp [ExprState.feedRightParen, feedRightParen, EnclosurePrefix.state,
      state, Operand.tree, argumentTrees_append_singleton, Except.toOption]

theorem feedComma_state (inner : Expression)
    (enclosures : List EnclosurePrefix) :
    (ExprState.feedComma inner.tree
        (enclosures.map EnclosurePrefix.state)).toOption =
      (feedComma inner enclosures).map state := by
  rcases enclosures with _ | ⟨outer | ⟨outer, name, args⟩, enclosures⟩
  · rfl
  · rfl
  · simp [ExprState.feedComma, feedComma, EnclosurePrefix.state, state,
      argumentTrees_append_singleton, LevelPrefix.state, Except.toOption]

theorem feedComplete_state (enclosures : List EnclosurePrefix)
    (level : LevelPrefix) (last : Operand) (token : Token) :
    (ExprState.feedComplete (enclosures.map EnclosurePrefix.state) level.state
        last.tree token).toOption =
      (feedComplete enclosures level last token).map state := by
  cases token with
  | operator op =>
      obtain ⟨alternatives, conditions, _ | _⟩ := level <;> rfl
  | keyword word =>
      cases word with
      | and =>
          simp only [ExprState.feedComplete, feedComplete, conjoined_state]
          rfl
      | or =>
          simp only [ExprState.feedComplete, feedComplete, closed_state]
          rfl
      | entry => rfl
      | exit => rfl
  | rightParen =>
      simp only [ExprState.feedComplete, feedComplete, closed_state]
      exact feedRightParen_state _ _
  | comma =>
      simp only [ExprState.feedComplete, feedComplete, closed_state]
      exact feedComma_state _ _
  | _ => rfl

/-- A prefix and its state take the same steps. -/
theorem feed_state (front : ExpressionPrefix) (token : Token) :
    (front.state.feed token).toOption = (front.feed token).map state := by
  cases front with
  | operand enclosures level => exact feedOperand_state enclosures level token
  | calling enclosures level name => cases token <;> rfl
  | firstArgument enclosures level name => cases token <;> rfl
  | complete enclosures level last =>
      exact feedComplete_state enclosures level last token

end ExpressionPrefix

/-- Feeds tokens as long as none is refused. -/
def feedAll {σ : Type} (feed : σ → Token → Option σ) (front : σ) (tokens : List Token) :
    Option σ :=
  tokens.foldlM feed front

section FeedAll

variable {σ : Type} {feed : σ → Token → Option σ}

theorem feedAll_append (front : σ) (first second : List Token) :
    feedAll feed front (first ++ second) =
      (feedAll feed front first).bind fun next => feedAll feed next second :=
  List.foldlM_append

theorem feedAll_cons (front : σ) (token : Token) (rest : List Token) :
    feedAll feed front (token :: rest) =
      (feed front token).bind fun next => feedAll feed next rest :=
  List.foldlM_cons

/-- Steps that write a token each write all that they are fed. -/
theorem tokens_feedAll {written : σ → List Token}
    (hwrites : ∀ {front next : σ} {token : Token},
      feed front token = some next → written next = written front ++ [token])
    {front next : σ} {tokens : List Token} (hrun : feedAll feed front tokens = some next) :
    written next = written front ++ tokens := by
  induction tokens generalizing front with
  | nil =>
      obtain rfl := Option.some.inj hrun
      rw [List.append_nil]
  | cons token rest ih =>
      rw [feedAll_cons] at hrun
      obtain ⟨middle, hstep, hrun⟩ := Option.bind_eq_some_iff.mp hrun
      rw [ih hrun, hwrites hstep, List.append_assoc, List.singleton_append]

end FeedAll

theorem tokens_extendConjunct (front : Option Conjunct) (last : Comparison) :
    (extendConjunct front last).tokens =
      (front.elim [] fun left => left.tokens ++ [.keyword .and]) ++
        last.tokens := by
  rcases front with _ | ⟨first, rest⟩
  · simp [extendConjunct, Conjunct.tokens, andTokens]
  · simp [extendConjunct, Conjunct.tokens, andTokens, andTokens_append]

theorem tokens_extendExpression (front : Option Expression) (last : Conjunct) :
    (extendExpression front last).tokens =
      (front.elim [] fun left => left.tokens ++ [.keyword .or]) ++
        last.tokens := by
  rcases front with _ | ⟨first, rest⟩
  · simp [extendExpression, Expression.tokens, orTokens]
  · simp [extendExpression, Expression.tokens, orTokens, orTokens_append]

theorem tokens_closed (level : LevelPrefix) (last : Operand) :
    (level.closed last).tokens = level.tokens ++ last.tokens := by
  obtain ⟨alternatives, conditions, comparison⟩ := level
  rw [LevelPrefix.closed, tokens_extendExpression, LevelPrefix.conjoined,
    tokens_extendConjunct, LevelPrefix.tokens]
  rcases comparison with _ | ⟨left, op⟩ <;>
    simp [LevelPrefix.compared, Comparison.tokens]

namespace ExpressionPrefix

theorem tokens_feedOperand {enclosures : List EnclosurePrefix}
    {level : LevelPrefix} {token : Token} {next : ExpressionPrefix}
    (hstep : feedOperand enclosures level token = some next) :
    next.tokens = enclosureTokens enclosures ++ level.tokens ++ [token] := by
  cases token with
  | identifier name =>
      obtain rfl := Option.some.inj hstep
      rfl
  | number value =>
      obtain rfl := Option.some.inj hstep
      rfl
  | function name =>
      obtain rfl := Option.some.inj hstep
      rfl
  | leftParen =>
      obtain rfl := Option.some.inj hstep
      simp [tokens, enclosureTokens, EnclosurePrefix.tokens, LevelPrefix.tokens]
  | _ => exact nomatch hstep

theorem tokens_feedRightParen {inner : Expression}
    {enclosures : List EnclosurePrefix} {next : ExpressionPrefix}
    (hstep : feedRightParen inner enclosures = some next) :
    next.tokens = enclosureTokens enclosures ++ inner.tokens ++ [.rightParen] := by
  rcases enclosures with _ | ⟨outer | ⟨outer, name, args⟩, enclosures⟩
  · exact nomatch hstep
  · obtain rfl := Option.some.inj hstep
    simp [tokens, enclosureTokens, EnclosurePrefix.tokens, Operand.tokens]
  · obtain rfl := Option.some.inj hstep
    simp [tokens, enclosureTokens, EnclosurePrefix.tokens, Operand.tokens,
      argumentTokens_append_singleton]

theorem tokens_feedComma {inner : Expression}
    {enclosures : List EnclosurePrefix} {next : ExpressionPrefix}
    (hstep : feedComma inner enclosures = some next) :
    next.tokens = enclosureTokens enclosures ++ inner.tokens ++ [.comma] := by
  rcases enclosures with _ | ⟨outer | ⟨outer, name, args⟩, enclosures⟩
  · exact nomatch hstep
  · exact nomatch hstep
  · obtain rfl := Option.some.inj hstep
    simp [tokens, enclosureTokens, EnclosurePrefix.tokens, LevelPrefix.tokens,
      leadingTokens_append_singleton]

theorem tokens_feedComplete {enclosures : List EnclosurePrefix}
    {level : LevelPrefix} {last : Operand} {token : Token}
    {next : ExpressionPrefix}
    (hstep : feedComplete enclosures level last token = some next) :
    next.tokens =
      enclosureTokens enclosures ++ (level.closed last).tokens ++ [token] := by
  cases token with
  | operator op =>
      obtain ⟨alternatives, conditions, _ | _⟩ := level
      · obtain rfl := Option.some.inj hstep
        rw [tokens_closed]
        simp [tokens, LevelPrefix.tokens]
      · exact nomatch hstep
  | keyword word =>
      cases word with
      | and =>
          obtain rfl := Option.some.inj hstep
          rw [LevelPrefix.closed, tokens_extendExpression]
          simp [tokens, LevelPrefix.tokens]
      | or =>
          obtain rfl := Option.some.inj hstep
          simp [tokens, LevelPrefix.tokens]
      | entry => exact nomatch hstep
      | exit => exact nomatch hstep
  | rightParen => exact tokens_feedRightParen hstep
  | comma => exact tokens_feedComma hstep
  | _ => exact nomatch hstep

theorem tokens_feed {front next : ExpressionPrefix} {token : Token}
    (hstep : front.feed token = some next) :
    next.tokens = front.tokens ++ [token] := by
  cases front with
  | operand enclosures level => exact tokens_feedOperand hstep
  | calling enclosures level name =>
      cases token with
      | leftParen =>
          obtain rfl := Option.some.inj hstep
          simp [tokens]
      | _ => exact nomatch hstep
  | firstArgument enclosures level name =>
      by_cases hclosing : token = .rightParen
      · subst hclosing
        obtain rfl := Option.some.inj hstep
        simp [tokens, Operand.tokens, argumentTokens]
      · have hopening :
            feedOperand (.call level name [] :: enclosures) {} token =
              some next := by
          rw [← hstep]
          cases token <;> first | rfl | contradiction
        rw [tokens_feedOperand hopening]
        simp [tokens, enclosureTokens, EnclosurePrefix.tokens,
          LevelPrefix.tokens, leadingTokens]
  | complete enclosures level last =>
      rw [tokens_feedComplete hstep, tokens_closed, tokens, List.append_assoc _ level.tokens]

theorem tokens_whole? {front : ExpressionPrefix} {expression : Expression}
    (hwhole : front.whole? = some expression) :
    front.tokens = expression.tokens := by
  rcases front with _ | _ | _ | ⟨_ | _, level, last⟩
  case complete.nil =>
      obtain rfl := Option.some.inj hwhole
      rw [tokens_closed]
      rfl
  all_goals exact nomatch hwhole

end ExpressionPrefix

end Backtest.Proofs.ViablePrefix
