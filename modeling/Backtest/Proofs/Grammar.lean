import Backtest.Rule.Token
import Backtest.Rule.Tree

/-!
The grammar of the rule language, apart from any way of reading it. A derivation is a value of one
of the types below; it determines the tokens it derives and the tree they stand for. Brackets of the
grammar are list arguments, so a chain keeps its conditions in the order in which they are written.
-/

namespace Backtest.Proofs.Grammar

open Backtest.Rule

mutual
/-- An operand: a name, a number, a call or an expression in parentheses. -/
inductive Operand
  | identifier (name : String)
  | number (value : Float)
  | call (name : String) (args : List Expression)
  | group (inner : Expression)

/-- One operand, or two with an operator between them. -/
inductive Comparison
  | single (operand : Operand)
  | compare (left : Operand) (op : CompareOp) (right : Operand)

/-- Comparisons joined by AND. -/
inductive Conjunct
  | chain (first : Comparison) (rest : List Comparison)

/-- Conjuncts joined by OR. -/
inductive Expression
  | chain (first : Conjunct) (rest : List Conjunct)
end

mutual
def Operand.tokens : Operand → List Token
  | .identifier name => [.identifier name]
  | .number value => [.number value]
  | .call name args => .function name :: .leftParen :: (argumentTokens args ++ [.rightParen])
  | .group inner => .leftParen :: (inner.tokens ++ [.rightParen])

def Comparison.tokens : Comparison → List Token
  | .single operand => operand.tokens
  | .compare left op right => left.tokens ++ .operator op :: right.tokens

def Conjunct.tokens : Conjunct → List Token
  | .chain first rest => first.tokens ++ andTokens rest

def Expression.tokens : Expression → List Token
  | .chain first rest => first.tokens ++ orTokens rest

def andTokens : List Comparison → List Token
  | [] => []
  | comparison :: rest => .keyword .and :: (comparison.tokens ++ andTokens rest)

def orTokens : List Conjunct → List Token
  | [] => []
  | conjunct :: rest => .keyword .or :: (conjunct.tokens ++ orTokens rest)

def argumentTokens : List Expression → List Token
  | [] => []
  | argument :: rest => argument.tokens ++ commaTokens rest

def commaTokens : List Expression → List Token
  | [] => []
  | argument :: rest => .comma :: (argument.tokens ++ commaTokens rest)
end

mutual
def Operand.tree : Operand → Tree
  | .identifier name => .identifier name
  | .number value => .number value
  | .call name args => .call name (argumentTrees args)
  | .group inner => inner.tree

def Comparison.tree : Comparison → Tree
  | .single operand => operand.tree
  | .compare left op right => .compare op left.tree right.tree

def Conjunct.tree : Conjunct → Tree
  | .chain first rest => joinAnd first.tree rest

def Expression.tree : Expression → Tree
  | .chain first rest => joinOr first.tree rest

def joinAnd (left : Tree) : List Comparison → Tree
  | [] => left
  | comparison :: rest => joinAnd (.logical .and left comparison.tree) rest

def joinOr (left : Tree) : List Conjunct → Tree
  | [] => left
  | conjunct :: rest => joinOr (.logical .or left conjunct.tree) rest

def argumentTrees : List Expression → List Tree
  | [] => []
  | argument :: rest => argument.tree :: argumentTrees rest
end

theorem andTokens_append (front back : List Comparison) :
    andTokens (front ++ back) = andTokens front ++ andTokens back := by
  induction front with
  | nil => rw [List.nil_append, andTokens, List.nil_append]
  | cons comparison rest ih =>
      rw [List.cons_append, andTokens, andTokens, ih, List.cons_append,
        List.append_assoc]

theorem orTokens_append (front back : List Conjunct) :
    orTokens (front ++ back) = orTokens front ++ orTokens back := by
  induction front with
  | nil => rw [List.nil_append, orTokens, List.nil_append]
  | cons conjunct rest ih =>
      rw [List.cons_append, orTokens, orTokens, ih, List.cons_append,
        List.append_assoc]

theorem joinAnd_eq_foldl (left : Tree) (rest : List Comparison) :
    joinAnd left rest =
      (rest.map Comparison.tree).foldl (Tree.logical .and) left := by
  induction rest generalizing left with
  | nil => rfl
  | cons comparison rest ih => exact ih _

theorem joinOr_eq_foldl (left : Tree) (rest : List Conjunct) :
    joinOr left rest =
      (rest.map Conjunct.tree).foldl (Tree.logical .or) left := by
  induction rest generalizing left with
  | nil => rfl
  | cons conjunct rest ih => exact ih _

theorem argumentTrees_eq_map (args : List Expression) :
    argumentTrees args = args.map Expression.tree := by
  induction args with
  | nil => rfl
  | cons argument rest ih => rw [argumentTrees, ih, List.map_cons]

/-- The tokens of arguments that another argument has to follow. -/
def leadingTokens (args : List Expression) : List Token :=
  args.flatMap fun argument => argument.tokens ++ [.comma]

theorem leadingTokens_append_singleton (args : List Expression)
    (last : Expression) :
    leadingTokens (args ++ [last]) =
      leadingTokens args ++ last.tokens ++ [.comma] := by
  unfold leadingTokens
  rw [List.flatMap_append, List.flatMap_singleton, List.append_assoc]

theorem argumentTokens_append_singleton (args : List Expression)
    (last : Expression) :
    argumentTokens (args ++ [last]) = leadingTokens args ++ last.tokens := by
  have hcommas (args : List Expression) :
      commaTokens (args ++ [last]) = .comma :: (leadingTokens args ++ last.tokens) := by
    induction args with
    | nil => simp [commaTokens, leadingTokens]
    | cons argument rest ih => simp [commaTokens, leadingTokens, ih]
  cases args with
  | nil => simp [argumentTokens, commaTokens, leadingTokens]
  | cons argument rest => simp [argumentTokens, leadingTokens, hcommas]

theorem Operand.tokens_ne_nil (operand : Operand) : operand.tokens ≠ [] := by
  cases operand <;> simp [Operand.tokens]

theorem Comparison.tokens_ne_nil (comparison : Comparison) :
    comparison.tokens ≠ [] := by
  cases comparison with
  | single operand => exact operand.tokens_ne_nil
  | compare left op right => simp [Comparison.tokens]

theorem Conjunct.tokens_ne_nil (conjunct : Conjunct) : conjunct.tokens ≠ [] := by
  obtain ⟨first, rest⟩ := conjunct
  rw [Conjunct.tokens]
  exact List.append_ne_nil_of_left_ne_nil first.tokens_ne_nil _

theorem Expression.tokens_ne_nil (expression : Expression) :
    expression.tokens ≠ [] := by
  obtain ⟨first, rest⟩ := expression
  rw [Expression.tokens]
  exact List.append_ne_nil_of_left_ne_nil first.tokens_ne_nil _

def opKeyword : BoolOp → Keyword
  | .and => .and
  | .or => .or

def isWord : Token → Bool
  | .leftParen | .rightParen | .comma | .colon | .stop => false
  | _ => true

mutual
/-- The names, numbers and operators of a tree from left to right. -/
def words : Tree → List Token
  | .identifier name => [.identifier name]
  | .number value => [.number value]
  | .call name args => .function name :: wordsOfAll args
  | .compare op left right => words left ++ .operator op :: words right
  | .logical op left right =>
      words left ++ .keyword (opKeyword op) :: words right

def wordsOfAll : List Tree → List Token
  | [] => []
  | tree :: rest => words tree ++ wordsOfAll rest
end

mutual
theorem words_operand (operand : Operand) :
    words operand.tree = operand.tokens.filter isWord := by
  cases operand with
  | identifier name => rfl
  | number value => rfl
  | call name args =>
      rw [Operand.tree, Operand.tokens, words, words_arguments args,
        List.filter_cons_of_pos rfl, List.filter_cons_of_neg (by decide),
        List.filter_append]
      exact congrArg _ (List.append_nil _).symm
  | group inner =>
      rw [Operand.tree, Operand.tokens, words_expression inner,
        List.filter_cons_of_neg (by decide), List.filter_append]
      exact (List.append_nil _).symm

theorem words_comparison (comparison : Comparison) :
    words comparison.tree = comparison.tokens.filter isWord := by
  cases comparison with
  | single operand => exact words_operand operand
  | compare left op right =>
      rw [Comparison.tree, Comparison.tokens, words, List.filter_append,
        List.filter_cons_of_pos rfl, words_operand left, words_operand right]

theorem words_conjunct (conjunct : Conjunct) :
    words conjunct.tree = conjunct.tokens.filter isWord := by
  cases conjunct with
  | chain first rest =>
      rw [Conjunct.tree, Conjunct.tokens, List.filter_append,
        words_joinAnd rest, words_comparison first]

theorem words_expression (expression : Expression) :
    words expression.tree = expression.tokens.filter isWord := by
  cases expression with
  | chain first rest =>
      rw [Expression.tree, Expression.tokens, List.filter_append,
        words_joinOr rest, words_conjunct first]

theorem words_joinAnd (rest : List Comparison) (left : Tree) :
    words (joinAnd left rest) = words left ++ (andTokens rest).filter isWord := by
  cases rest with
  | nil => rw [joinAnd, andTokens, List.filter_nil, List.append_nil]
  | cons comparison rest =>
      rw [joinAnd, words_joinAnd rest, words, andTokens,
        List.filter_cons_of_pos rfl, List.filter_append,
        words_comparison comparison, List.append_assoc]
      rfl

theorem words_joinOr (rest : List Conjunct) (left : Tree) :
    words (joinOr left rest) = words left ++ (orTokens rest).filter isWord := by
  cases rest with
  | nil => rw [joinOr, orTokens, List.filter_nil, List.append_nil]
  | cons conjunct rest =>
      rw [joinOr, words_joinOr rest, words, orTokens,
        List.filter_cons_of_pos rfl, List.filter_append,
        words_conjunct conjunct, List.append_assoc]
      rfl

theorem words_arguments (args : List Expression) :
    wordsOfAll (argumentTrees args) = (argumentTokens args).filter isWord := by
  cases args with
  | nil => rfl
  | cons argument rest =>
      rw [argumentTrees, wordsOfAll, argumentTokens, List.filter_append,
        words_expression argument, words_commas rest]

theorem words_commas (args : List Expression) :
    wordsOfAll (argumentTrees args) = (commaTokens args).filter isWord := by
  cases args with
  | nil => rfl
  | cons argument rest =>
      rw [argumentTrees, wordsOfAll, commaTokens,
        List.filter_cons_of_neg (by decide), List.filter_append,
        words_expression argument, words_commas rest]
end

structure Block where
  side : Side
  body : Expression

def sideKeyword : Side → Keyword
  | .entry => .entry
  | .exit => .exit

def Block.tokens (block : Block) : List Token :=
  .keyword (sideKeyword block.side) :: .colon :: block.body.tokens

/-- Blocks in either order, no side twice. -/
structure Program where
  blocks : List Block
  distinct : (blocks.map Block.side).Nodup

namespace Program

def empty : Program := ⟨[], List.nodup_nil⟩

def sides (program : Program) : List Side := program.blocks.map Block.side

def tokens (program : Program) : List Token :=
  program.blocks.flatMap Block.tokens

def rule? (program : Program) (side : Side) : Option Tree :=
  (program.blocks.find? fun block => block.side = side).map
    fun block => block.body.tree

def rules (program : Program) : RuleSet Tree where
  entry := program.rule? .entry
  exit := program.rule? .exit

def add (program : Program) (side : Side) (hfresh : side ∉ program.sides)
    (body : Expression) : Program where
  blocks := program.blocks ++ [⟨side, body⟩]
  distinct := by
    rw [List.map_append, List.nodup_append]
    refine ⟨program.distinct, List.pairwise_singleton _ _, ?_⟩
    intro earlier hmem later hlast hsame
    rw [List.map_singleton, List.mem_singleton] at hlast
    subst hsame hlast
    exact hfresh hmem

theorem tokens_add (program : Program) (side : Side)
    (hfresh : side ∉ program.sides) (body : Expression) :
    (program.add side hfresh body).tokens =
      program.tokens ++ .keyword (sideKeyword side) :: .colon :: body.tokens := by
  unfold tokens add
  rw [List.flatMap_append, List.flatMap_singleton]
  rfl

theorem get_rules (program : Program) (side : Side) :
    program.rules.get side = program.rule? side := by
  cases side <;> rfl

theorem isSome_rule? (program : Program) (side : Side) :
    (program.rule? side).isSome ↔ side ∈ program.sides := by
  simp [rule?, sides]

theorem rule?_add_self (program : Program) (side : Side)
    (hfresh : side ∉ program.sides) (body : Expression) :
    (program.add side hfresh body).rule? side = some body.tree := by
  have habsent : (program.blocks.find? fun block => block.side = side) = none := by
    rw [List.find?_eq_none]
    intro block hmem hsame
    exact hfresh (List.mem_map.mpr ⟨block, hmem, of_decide_eq_true hsame⟩)
  unfold rule? add
  rw [List.find?_append, habsent]
  simp

theorem rule?_add_of_ne (program : Program) {side other : Side}
    (hfresh : side ∉ program.sides) (body : Expression) (hne : side ≠ other) :
    (program.add side hfresh body).rule? other = program.rule? other := by
  unfold rule? add
  simp [List.find?_append, hne]

theorem rules_add (program : Program) (side : Side)
    (hfresh : side ∉ program.sides) (body : Expression) :
    (program.add side hfresh body).rules = program.rules.set side body.tree := by
  cases side with
  | entry =>
      rw [rules, rule?_add_self, rule?_add_of_ne program hfresh body (by decide)]
      rfl
  | exit =>
      rw [rules, rule?_add_self, rule?_add_of_ne program hfresh body (by decide)]
      rfl

end Program

end Backtest.Proofs.Grammar
