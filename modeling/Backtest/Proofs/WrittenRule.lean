import Backtest.Proofs.ParserGrammar
import Backtest.Proofs.Viability

namespace Backtest.Proofs.WrittenRule

open Backtest.Rule
open Backtest.Proofs.Outcome
open Backtest.Proofs.Scanner
open Backtest.Proofs.Grammar
open Backtest.Proofs.ParserGrammar
open Backtest.Proofs.Spelling
open Backtest.Proofs.Viability

variable {text : String} {front : List Lexeme} {last : Nat}

theorem parse_eq_ok (hscanned : scan text = .ok (front ++ [⟨.stop, last⟩]))
    (hproper : ∀ lexeme ∈ front, lexeme.token ≠ .stop) (rules : RuleSet Tree) :
    parse text = .ok rules ↔
      ∃ program : Program, program.tokens = front.map Lexeme.token ∧
        program.rules = rules := by
  rw [← run_eq_ok_program hproper last, parse, hscanned]
  exact mapError_eq_ok

theorem parseExpression_eq_ok (hscanned : scan text = .ok (front ++ [⟨.stop, last⟩]))
    (hproper : ∀ lexeme ∈ front, lexeme.token ≠ .stop) (tree : Tree) :
    parseExpression text = .ok tree ↔
      ∃ expression : Expression, expression.tokens = front.map Lexeme.token ∧
        expression.tree = tree := by
  rw [← run_eq_ok_expression hproper last, parseExpression, hscanned]
  exact mapError_eq_ok

theorem scan_written {tokens : List Token} (hwritten : Written tokens text.toList)
    (hclassified : List.IsChain Classified (tokens ++ [.stop])) :
    ∃ front last, scan text = .ok (front ++ [⟨.stop, last⟩]) ∧
      front.map Lexeme.token = tokens ∧ ∀ lexeme ∈ front, lexeme.token ≠ .stop := by
  obtain ⟨front, last, hscanned, hsame⟩ := scanFrom_written hwritten hclassified 0
  obtain ⟨front', last', hsplit, hproper⟩ := scan_eq_append hscanned
  obtain ⟨rfl, -⟩ := List.append_inj' hsplit rfl
  exact ⟨front, last, hscanned, hsame, hproper⟩

theorem parse_written {program : Program} (hwritten : Written program.tokens text.toList) :
    parse text = .ok program.rules := by
  obtain ⟨front, last, hscanned, hsame, hproper⟩ :=
    scan_written hwritten (ProgramPrefix.isChain_tokens program)
  exact (parse_eq_ok hscanned hproper _).mpr ⟨program, hsame.symm, rfl⟩

theorem parseExpression_written {expression : Expression}
    (hwritten : Written expression.tokens text.toList) :
    parseExpression text = .ok expression.tree := by
  obtain ⟨front, last, hscanned, hsame, hproper⟩ :=
    scan_written hwritten (ExpressionPrefix.isChain_tokens expression)
  exact (parseExpression_eq_ok hscanned hproper _).mpr ⟨expression, hsame.symm, rfl⟩

theorem spelled_of_scan (hscanned : scan text = .ok (front ++ [⟨.stop, last⟩]))
    (hproper : ∀ lexeme ∈ front, lexeme.token ≠ .stop) :
    ∀ token ∈ front.map Lexeme.token, ∃ chars, Spells token chars := by
  rw [List.forall_mem_map]
  intro lexeme hmem
  exact (spelled_of_scanFrom hscanned lexeme (List.mem_append_left _ hmem)).resolve_left
    (hproper lexeme hmem)

theorem exists_program_of_parse {rules : RuleSet Tree} (hparsed : parse text = .ok rules) :
    ∃ program : Program, program.rules = rules ∧
      ∀ token ∈ program.tokens, ∃ chars, Spells token chars := by
  obtain ⟨lexemes, hscanned, -⟩ := bind_eq_ok.mp hparsed
  obtain ⟨front, last, rfl, hproper⟩ := scan_eq_append (mapError_eq_ok.mp hscanned)
  have hscanned := mapError_eq_ok.mp hscanned
  obtain ⟨program, hsame, htree⟩ := (parse_eq_ok hscanned hproper rules).mp hparsed
  exact ⟨program, htree, hsame ▸ spelled_of_scan hscanned hproper⟩

theorem exists_expression_of_parse {tree : Tree} (hparsed : parseExpression text = .ok tree) :
    ∃ expression : Expression, expression.tree = tree ∧
      ∀ token ∈ expression.tokens, ∃ chars, Spells token chars := by
  obtain ⟨lexemes, hscanned, -⟩ := bind_eq_ok.mp hparsed
  obtain ⟨front, last, rfl, hproper⟩ := scan_eq_append (mapError_eq_ok.mp hscanned)
  have hscanned := mapError_eq_ok.mp hscanned
  obtain ⟨expression, hsame, hderived⟩ := (parseExpression_eq_ok hscanned hproper tree).mp hparsed
  exact ⟨expression, hderived, hsame ▸ spelled_of_scan hscanned hproper⟩

/-- Each name and each number of the tree is one that a text can spell. -/
def IsReadable (tree : Tree) : Prop :=
  ∀ token ∈ words tree, ∃ chars, Spells token chars

theorem IsReadable.compare {op : CompareOp} {left right : Tree}
    (hreadable : IsReadable (.compare op left right)) : IsReadable left ∧ IsReadable right :=
  ⟨fun token hmem => hreadable token (List.mem_append_left _ hmem),
    fun token hmem => hreadable token (List.mem_append_right _ (List.mem_cons_of_mem _ hmem))⟩

theorem IsReadable.logical {op : BoolOp} {left right : Tree}
    (hreadable : IsReadable (.logical op left right)) : IsReadable left ∧ IsReadable right :=
  ⟨fun token hmem => hreadable token (List.mem_append_left _ hmem),
    fun token hmem => hreadable token (List.mem_append_right _ (List.mem_cons_of_mem _ hmem))⟩

theorem IsReadable.arguments {name : String} {left right : Tree}
    (hreadable : IsReadable (.call name [left, right])) : IsReadable left ∧ IsReadable right := by
  have hinner (token : Token) (hmem : token ∈ words left ++ (words right ++ [])) :
      ∃ chars, Spells token chars := hreadable token (List.mem_cons_of_mem _ hmem)
  rw [List.append_nil] at hinner
  exact List.forall_mem_append.mp hinner

theorem isReadable_tree {expression : Expression}
    (hspelled : ∀ token ∈ expression.tokens, ∃ chars, Spells token chars) :
    IsReadable expression.tree := by
  intro token hmem
  rw [words_expression] at hmem
  exact hspelled token (List.mem_filter.mp hmem).1

theorem isReadable_of_parse {rules : RuleSet Tree} (hparsed : parse text = .ok rules)
    {side : Side} {tree : Tree} (hpresent : rules.get side = some tree) : IsReadable tree := by
  obtain ⟨program, rfl, hspelled⟩ := exists_program_of_parse hparsed
  rw [program.get_rules, Program.rule?, Option.map_eq_some_iff] at hpresent
  obtain ⟨block, hfound, rfl⟩ := hpresent
  refine isReadable_tree fun token hmem => hspelled token ?_
  exact List.mem_flatMap.mpr ⟨block, List.mem_of_find?_eq_some hfound,
    List.mem_cons_of_mem _ (List.mem_cons_of_mem _ hmem)⟩

theorem isReadable_of_parseExpression {tree : Tree}
    (hparsed : parseExpression text = .ok tree) : IsReadable tree := by
  obtain ⟨expression, rfl, hspelled⟩ := exists_expression_of_parse hparsed
  exact isReadable_tree hspelled

end Backtest.Proofs.WrittenRule
