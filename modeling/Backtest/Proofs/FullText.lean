import Backtest.Proofs.WrittenRule

namespace Backtest.Proofs.FullText

open Backtest.Rule
open Backtest.Proofs.Grammar
open Backtest.Proofs.Spelling
open Backtest.Proofs.WrittenRule

mutual
/-- The text shows the tree. -/
inductive Shows : Tree → List Char → Prop
  | identifier {name : String} {chars : List Char}
      (hspelled : Spells (.identifier name) chars) : Shows (.identifier name) chars
  | number {value : Float} {chars : List Char}
      (hspelled : Spells (.number value) chars) : Shows (.number value) chars
  | call {name : String} {args : List Tree} {chars inner : List Char}
      (hspelled : Spells (.function name) chars) (hshown : ShowsAll args inner) :
      Shows (.call name args) (chars ++ '(' :: (inner ++ [')']))
  | compare {op : CompareOp} {left right : Tree} {front back : List Char}
      (hshown : Shows left front) (hshown' : Shows right back) :
      Shows (.compare op left right)
        ('(' :: (front ++ ' ' :: (op.symbol.toList ++ ' ' :: (back ++ [')']))))
  | logical {op : BoolOp} {left right : Tree} {front back : List Char}
      (hshown : Shows left front) (hshown' : Shows right back) :
      Shows (.logical op left right)
        ('(' :: (front ++ ' ' :: (op.symbol.toList ++ ' ' :: (back ++ [')']))))

inductive ShowsAll : List Tree → List Char → Prop
  | none : ShowsAll [] []
  | last {tree : Tree} {text : List Char} (hshown : Shows tree text) : ShowsAll [tree] text
  | more {tree next : Tree} {rest : List Tree} {front back : List Char}
      (hshown : Shows tree front) (hshown' : ShowsAll (next :: rest) back) :
      ShowsAll (tree :: next :: rest) (front ++ ',' :: ' ' :: back)
end

def alone (operand : Operand) : Expression :=
  .chain (.chain (.single operand) []) []

def joined (left : Operand) : BoolOp → Operand → Expression
  | .and, right => .chain (.chain (.single left) [.single right]) []
  | .or, right => .chain (.chain (.single left) []) [.chain (.single right) []]

mutual
def operandOf : Tree → Operand
  | .identifier name => .identifier name
  | .number value => .number value
  | .call name args => .call name (argumentsOf args)
  | .compare op left right =>
      .group (.chain (.chain (.compare (operandOf left) op (operandOf right)) []) [])
  | .logical op left right => .group (joined (operandOf left) op (operandOf right))

def argumentsOf : List Tree → List Expression
  | [] => []
  | tree :: rest => alone (operandOf tree) :: argumentsOf rest
end

theorem tree_alone (operand : Operand) : (alone operand).tree = operand.tree := by
  simp [alone, Expression.tree, Conjunct.tree, Comparison.tree, joinAnd, joinOr]

theorem tokens_alone (operand : Operand) : (alone operand).tokens = operand.tokens := by
  simp [alone, Expression.tokens, Conjunct.tokens, Comparison.tokens, andTokens, orTokens]

theorem tree_joined (op : BoolOp) (left right : Operand) :
    (joined left op right).tree = .logical op left.tree right.tree := by
  cases op <;>
    simp [joined, Expression.tree, Conjunct.tree, Comparison.tree, joinAnd, joinOr]

theorem tokens_joined (op : BoolOp) (left right : Operand) :
    (joined left op right).tokens =
      left.tokens ++ .keyword (opKeyword op) :: right.tokens := by
  cases op <;>
    simp [joined, Expression.tokens, Conjunct.tokens, Comparison.tokens, andTokens, orTokens,
      opKeyword]

mutual
theorem tree_operandOf (tree : Tree) : (operandOf tree).tree = tree := by
  cases tree with
  | identifier name => simp [operandOf, Operand.tree]
  | number value => simp [operandOf, Operand.tree]
  | call name args => simp [operandOf, Operand.tree, trees_argumentsOf args]
  | compare op left right =>
      simp [operandOf, Operand.tree, Expression.tree, Conjunct.tree, Comparison.tree, joinAnd,
        joinOr, tree_operandOf left, tree_operandOf right]
  | logical op left right =>
      simp [operandOf, Operand.tree, tree_joined, tree_operandOf left, tree_operandOf right]

theorem trees_argumentsOf (trees : List Tree) :
    argumentTrees (argumentsOf trees) = trees := by
  cases trees with
  | nil => simp [argumentsOf, argumentTrees]
  | cons tree rest =>
      simp [argumentsOf, argumentTrees, tree_alone, tree_operandOf tree, trees_argumentsOf rest]
end

/-- Nothing that follows goes on with a name or a number. -/
def Closes (rest : List Char) : Prop :=
  ∀ c ∈ rest.head?, Scan.isWordChar c = false ∧ c ≠ '.'

theorem Closes.cons {c : Char} {rest : List Char} (hmark : Scan.isWordChar c = false)
    (hnoPoint : c ≠ '.') : Closes (c :: rest) := by
  rintro d ⟨⟩
  exact ⟨hmark, hnoPoint⟩

theorem Closes.delimits {rest : List Char} (hcloses : Closes rest) {token : Token}
    (hnotOperator : ∀ op, token ≠ .operator op) : Delimits token rest := by
  cases token with
  | keyword word | identifier name | function name => exact fun c hmem => (hcloses c hmem).1
  | number value =>
      refine fun c hmem => ⟨?_, (hcloses c hmem).2⟩
      have hmark := (hcloses c hmem).1
      simp only [Scan.isWordChar, Char.isAlphanum, Bool.or_eq_false_iff] at hmark
      exact hmark.1.2
  | operator op => exact absurd rfl (hnotOperator op)
  | _ => trivial

theorem Written.leftParen {tokens : List Token} {rest : List Char}
    (hwritten : Written tokens rest) : Written (.leftParen :: tokens) ('(' :: rest) :=
  .token .leftParen trivial hwritten

theorem Written.rightParen {tokens : List Token} {rest : List Char}
    (hwritten : Written tokens rest) : Written (.rightParen :: tokens) (')' :: rest) :=
  .token .rightParen trivial hwritten

theorem Written.space {tokens : List Token} {rest : List Char}
    (hwritten : Written tokens rest) : Written tokens (' ' :: rest) :=
  .blank rfl hwritten

theorem spells_boolOp (op : BoolOp) : Spells (.keyword (opKeyword op)) op.symbol.toList := by
  cases op with
  | and =>
      exact .keyword (isWord_of_all rfl rfl) (by decide +kernel)
  | or =>
      exact .keyword (isWord_of_all rfl rfl) (by decide +kernel)

mutual
theorem written_of_shows {tree : Tree} {text : List Char} (hshown : Shows tree text)
    {tokens : List Token} {rest : List Char} (hcloses : Closes rest)
    (hwritten : Written tokens rest) :
    Written ((operandOf tree).tokens ++ tokens) (text ++ rest) := by
  cases hshown with
  | identifier hspelled => exact .token hspelled (hcloses.delimits nofun) hwritten
  | number hspelled => exact .token hspelled (hcloses.delimits nofun) hwritten
  | @call name args chars inner hspelled hshown =>
      have hclosed := written_of_showsAll hshown (.cons rfl (by decide))
        (Written.rightParen hwritten)
      have hopened := Written.leftParen hclosed
      have hcalled : Delimits (.function name) ('(' :: (inner ++ ')' :: rest)) :=
        (Closes.cons rfl (by decide)).delimits nofun
      simpa [operandOf, Operand.tokens] using Written.token hspelled hcalled hopened
  | @compare op left right front back hshown hshown' =>
      have hclosed := written_of_shows hshown' (.cons rfl (by decide)) (Written.rightParen hwritten)
      have hcompared := Written.token (.operator op) (delimits_space (.operator op) _)
        (Written.space hclosed)
      have hopened := Written.leftParen
        (written_of_shows hshown (.cons rfl (by decide)) (Written.space hcompared))
      simpa [operandOf, Operand.tokens, Expression.tokens, Conjunct.tokens, Comparison.tokens,
        andTokens, orTokens] using hopened
  | @logical op left right front back hshown hshown' =>
      have hclosed := written_of_shows hshown' (.cons rfl (by decide)) (Written.rightParen hwritten)
      have hcombined := Written.token (spells_boolOp op) (delimits_space _ _)
        (Written.space hclosed)
      have hopened := Written.leftParen
        (written_of_shows hshown (.cons rfl (by decide)) (Written.space hcombined))
      simpa [operandOf, Operand.tokens, tokens_joined] using hopened

theorem written_of_showsAll {trees : List Tree} {text : List Char} (hshown : ShowsAll trees text)
    {tokens : List Token} {rest : List Char} (hcloses : Closes rest)
    (hwritten : Written tokens rest) :
    Written (argumentTokens (argumentsOf trees) ++ tokens) (text ++ rest) := by
  cases hshown with
  | none => exact hwritten
  | last hshown =>
      have halone := written_of_shows hshown hcloses hwritten
      simpa [argumentsOf, argumentTokens, commaTokens, tokens_alone] using halone
  | more hshown hshown' =>
      have hothers := written_of_showsAll hshown' hcloses hwritten
      have hseparated := Written.token .comma trivial (Written.space hothers)
      have hall := written_of_shows hshown (.cons rfl (by decide)) hseparated
      simpa [argumentsOf, argumentTokens, commaTokens, tokens_alone] using hall
end

/-- A text that shows a tree is read as that tree. -/
theorem parseExpression_shown {tree : Tree} {text : String} (hshown : Shows tree text.toList) :
    parseExpression text = .ok tree := by
  have hends : Closes [] := nofun
  have hwritten := written_of_shows hshown hends .done
  rw [List.append_nil, List.append_nil, ← tokens_alone] at hwritten
  have hparsed := parseExpression_written hwritten
  rwa [tree_alone, tree_operandOf] at hparsed

theorem spells_side (side : Side) :
    Spells (.keyword (sideKeyword side)) side.keyword.toList := by
  cases side with
  | entry =>
      exact .keyword (isWord_of_all rfl rfl) (by decide +kernel)
  | exit =>
      exact .keyword (isWord_of_all rfl rfl) (by decide +kernel)

def blockOf (side : Side) (tree : Tree) : Block := ⟨side, alone (operandOf tree)⟩

theorem written_block (side : Side) {tree : Tree} {text : List Char} (hshown : Shows tree text)
    {tokens : List Token} {rest : List Char} (hwritten : Written tokens rest) :
    Written ((blockOf side tree).tokens ++ tokens)
      (side.keyword.toList ++ ':' :: ' ' :: (text ++ '\n' :: rest)) := by
  have hended : Written tokens ('\n' :: rest) := .blank rfl hwritten
  have hbody := written_of_shows hshown (.cons rfl (by decide)) hended
  have hheaded := Written.token .colon trivial (Written.space hbody)
  have hopened : Delimits (.keyword (sideKeyword side)) (':' :: ' ' :: (text ++ '\n' :: rest)) :=
    (Closes.cons rfl (by decide)).delimits nofun
  simpa [blockOf, Block.tokens, tokens_alone] using Written.token (spells_side side) hopened hheaded

/-- The blocks that are present, the entry first. -/
def programOf (rules : RuleSet Tree) : Program where
  blocks := (rules.entry.map (blockOf .entry)).toList ++ (rules.exit.map (blockOf .exit)).toList
  distinct := by
    obtain ⟨_ | entry, _ | exit⟩ := rules <;> simp [blockOf]

theorem rules_programOf (rules : RuleSet Tree) : (programOf rules).rules = rules := by
  obtain ⟨_ | entry, _ | exit⟩ := rules <;>
    simp [Program.rules, Program.rule?, programOf, blockOf, tree_alone, tree_operandOf]

def blockTokens (side : Side) : Option Tree → List Token
  | none => []
  | some tree => (blockOf side tree).tokens

def blockText {β : Type} (render : β → String) (side : Side) : Option β → List Char
  | none => []
  | some rule => side.keyword.toList ++ ':' :: ' ' :: ((render rule).toList ++ ['\n'])

theorem tokens_programOf (rules : RuleSet Tree) :
    (programOf rules).tokens =
      blockTokens .entry rules.entry ++ blockTokens .exit rules.exit := by
  obtain ⟨_ | entry, _ | exit⟩ := rules <;> simp [Program.tokens, programOf, blockTokens]

theorem toList_toText {β : Type} (render : β → String) (rules : RuleSet β) :
    (rules.toText render).toList =
      blockText render .entry rules.entry ++ blockText render .exit rules.exit := by
  obtain ⟨_ | entry, _ | exit⟩ := rules <;>
    simp [RuleSet.toText, RuleSet.get, blockText]

theorem written_blockText {β : Type} {render : β → String} (side : Side) {rule : Option β}
    {tree : Option Tree}
    (hshown : Option.Rel (fun rule tree => Shows tree (render rule).toList) rule tree)
    {tokens : List Token} {rest : List Char} (hwritten : Written tokens rest) :
    Written (blockTokens side tree ++ tokens) (blockText render side rule ++ rest) := by
  cases hshown with
  | none => exact hwritten
  | some hshown => simpa [blockTokens, blockText] using written_block side hshown hwritten

theorem parse_shown {β : Type} {render : β → String} {rules : RuleSet β} {trees : RuleSet Tree}
    (hshown : ∀ side, Option.Rel (fun rule tree => Shows tree (render rule).toList)
      (rules.get side) (trees.get side)) :
    parse (rules.toText render) = .ok trees := by
  have hexit := written_blockText .exit (hshown .exit) .done
  have hboth := written_blockText .entry (hshown .entry) hexit
  rw [List.append_nil, List.append_nil] at hboth
  have hwritten : Written (programOf trees).tokens (rules.toText render).toList := by
    rw [tokens_programOf, toList_toText]
    exact hboth
  have hparsed := parse_written hwritten
  rwa [rules_programOf] at hparsed

end Backtest.Proofs.FullText
