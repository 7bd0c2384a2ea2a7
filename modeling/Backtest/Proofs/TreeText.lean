import Backtest.Proofs.FullText
import Backtest.Proofs.NumberText

namespace Backtest.Proofs.TreeText

open Backtest.Rule
open Backtest.Proofs.Grammar
open Backtest.Proofs.ParserGrammar
open Backtest.Proofs.Spelling
open Backtest.Proofs.WrittenRule
open Backtest.Proofs.FullText
open Backtest.Proofs.NumberText

mutual
/-- The tree that the text of a tree is read as. -/
def reread : Tree → Tree
  | .identifier name => .identifier name
  | .number value =>
      if Binary64.parts value = .infinite false then .identifier "inf" else .number value
  | .call name args => .call name (rereadAll args)
  | .compare op left right => .compare op (reread left) (reread right)
  | .logical op left right => .logical op (reread left) (reread right)

def rereadAll : List Tree → List Tree
  | [] => []
  | tree :: rest => reread tree :: rereadAll rest
end

def NoneInfinite (tree : Tree) : Prop :=
  ∀ value, Token.number value ∈ words tree → Binary64.parts value ≠ .infinite false

theorem spells_inf : Spells (.identifier "inf") "inf".toList := by
  have hword : IsWord ['i', 'n', 'f'] := isWord_of_all rfl rfl
  exact spells_identifier hword (by decide +kernel)

theorem shows_number {value : Float} {chars : List Char}
    (hspelled : Spells (.number value) chars) :
    Shows (reread (.number value)) (shortestText value).toList := by
  rw [reread]
  split
  · next hinfinite =>
      rw [shortestText_of_infinite hinfinite]
      exact .identifier spells_inf
  · next hordinary => exact .number (spells_again hspelled hordinary)

theorem toList_of_spells_identifier {name : String} {chars : List Char}
    (hspelled : Spells (.identifier name) chars) : name.toList = chars := by
  cases hspelled
  exact String.toList_ofList

theorem toList_of_spells_function {name : String} {chars : List Char}
    (hspelled : Spells (.function name) chars) : name.toList = chars := by
  cases hspelled
  exact String.toList_ofList

mutual
theorem shows_toText (tree : Tree) (hreadable : IsReadable tree) :
    Shows (reread tree) tree.toText.toList := by
  cases tree with
  | identifier name =>
      obtain ⟨chars, hspelled⟩ := hreadable (.identifier name) List.mem_cons_self
      rw [reread, Tree.toText, toList_of_spells_identifier hspelled]
      exact .identifier hspelled
  | number value =>
      obtain ⟨chars, hspelled⟩ := hreadable (.number value) List.mem_cons_self
      rw [Tree.toText]
      exact shows_number hspelled
  | call name args =>
      obtain ⟨chars, hspelled⟩ := hreadable (.function name) List.mem_cons_self
      have hshown := showsAll_toText args fun token hmem =>
        hreadable token (List.mem_cons_of_mem _ hmem)
      have htext : (Tree.call name args).toText.toList =
          chars ++ '(' ::
            ([',', ' '].intercalate (args.map fun arg => arg.toText.toList) ++ [')']) := by
        rw [Tree.toText]
        simp [String.toList_intercalate, toList_of_spells_function hspelled, Function.comp_def]
      rw [reread, htext]
      exact .call hspelled hshown
  | compare op left right =>
      obtain ⟨hreadable, hreadable'⟩ := hreadable.compare
      have hshown := shows_toText left hreadable
      have hshown' := shows_toText right hreadable'
      rw [reread, Tree.toText]
      simpa using Shows.compare hshown hshown'
  | logical op left right =>
      obtain ⟨hreadable, hreadable'⟩ := hreadable.logical
      have hshown := shows_toText left hreadable
      have hshown' := shows_toText right hreadable'
      rw [reread, Tree.toText]
      simpa using Shows.logical hshown hshown'

theorem showsAll_toText (trees : List Tree)
    (hreadable : ∀ token ∈ wordsOfAll trees, ∃ chars, Spells token chars) :
    ShowsAll (rereadAll trees)
      ([',', ' '].intercalate (trees.map fun tree => tree.toText.toList)) := by
  cases trees with
  | nil => exact .none
  | cons tree rest =>
      have hshown := shows_toText tree fun token hmem =>
        hreadable token (List.mem_append_left _ hmem)
      have hothers := showsAll_toText rest fun token hmem =>
        hreadable token (List.mem_append_right _ hmem)
      cases rest with
      | nil => simpa [rereadAll] using ShowsAll.last hshown
      | cons next rest =>
          rw [rereadAll] at hothers
          simpa [rereadAll] using ShowsAll.more hshown hothers
end

theorem NoneInfinite.number {value : Float} :
    NoneInfinite (.number value) ↔ Binary64.parts value ≠ .infinite false := by
  constructor
  · exact fun hnone => hnone value List.mem_cons_self
  · rintro hordinary other hmem
    obtain rfl := Token.number.inj (List.mem_singleton.mp hmem)
    exact hordinary

theorem noneInfinite_append {front back : List Token} :
    (∀ value, Token.number value ∈ front ++ back → Binary64.parts value ≠ .infinite false) ↔
      (∀ value, Token.number value ∈ front → Binary64.parts value ≠ .infinite false) ∧
        ∀ value, Token.number value ∈ back → Binary64.parts value ≠ .infinite false := by
  simp only [List.mem_append, or_imp, forall_and]

theorem noneInfinite_cons {token : Token} {rest : List Token}
    (hother : ∀ value, Token.number value ≠ token) :
    (∀ value, Token.number value ∈ token :: rest → Binary64.parts value ≠ .infinite false) ↔
      ∀ value, Token.number value ∈ rest → Binary64.parts value ≠ .infinite false := by
  simp only [List.mem_cons, hother, false_or]

mutual
theorem reread_eq_self (tree : Tree) : reread tree = tree ↔ NoneInfinite tree := by
  cases tree with
  | identifier name =>
      rw [reread]
      exact ⟨fun _ value hmem => (nomatch List.mem_singleton.mp hmem), fun _ => rfl⟩
  | number value =>
      rw [NoneInfinite.number, reread]
      constructor
      · intro hsame hinfinite
        rw [if_pos hinfinite] at hsame
        exact nomatch hsame
      · exact fun hordinary => if_neg hordinary
  | call name args =>
      rw [reread, Tree.call.injEq, eq_self_iff_true, true_and, rereadAll_eq_self args]
      exact (noneInfinite_cons (by simp)).symm
  | compare op left right =>
      rw [reread, Tree.compare.injEq, eq_self_iff_true, true_and, reread_eq_self left,
        reread_eq_self right]
      unfold NoneInfinite
      rw [words, noneInfinite_append, noneInfinite_cons (by simp)]
  | logical op left right =>
      rw [reread, Tree.logical.injEq, eq_self_iff_true, true_and, reread_eq_self left,
        reread_eq_self right]
      unfold NoneInfinite
      rw [words, noneInfinite_append, noneInfinite_cons (by simp)]

theorem rereadAll_eq_self (trees : List Tree) :
    rereadAll trees = trees ↔
      ∀ value, Token.number value ∈ wordsOfAll trees →
        Binary64.parts value ≠ .infinite false := by
  cases trees with
  | nil => exact ⟨fun _ => nofun, fun _ => rfl⟩
  | cons tree rest =>
      rw [rereadAll, List.cons.injEq, reread_eq_self tree, rereadAll_eq_self rest, wordsOfAll,
        noneInfinite_append]
      rfl
end

def rereadRules (rules : RuleSet Tree) : RuleSet Tree where
  entry := rules.entry.map reread
  exit := rules.exit.map reread

theorem get_rereadRules (rules : RuleSet Tree) (side : Side) :
    (rereadRules rules).get side = (rules.get side).map reread := by
  cases side <;> rfl

theorem rereadRules_eq_self (rules : RuleSet Tree) :
    rereadRules rules = rules ↔
      ∀ side tree, rules.get side = some tree → NoneInfinite tree := by
  have hblock (rule : Option Tree) :
      rule.map reread = rule ↔ ∀ tree, rule = some tree → NoneInfinite tree := by
    cases rule with
    | none => exact ⟨fun _ => nofun, fun _ => rfl⟩
    | some tree =>
        rw [Option.map_some, Option.some.injEq, reread_eq_self]
        exact ⟨fun hnone _ hsame => Option.some.inj hsame ▸ hnone, fun hnone => hnone tree rfl⟩
  obtain ⟨entry, exit⟩ := rules
  rw [rereadRules, RuleSet.mk.injEq, hblock, hblock]
  constructor
  · rintro ⟨hfirst, hsecond⟩ side tree hpresent
    cases side with
    | entry => exact hfirst tree hpresent
    | exit => exact hsecond tree hpresent
  · exact fun hall => ⟨hall .entry, hall .exit⟩

theorem parse_rules_toText {text : String} {rules : RuleSet Tree}
    (hparsed : parse text = .ok rules) :
    parse (rules.toText Tree.toText) = .ok (rereadRules rules) := by
  refine parse_shown fun side => ?_
  rw [get_rereadRules]
  cases hpresent : rules.get side with
  | none => exact .none
  | some tree => exact .some (shows_toText tree (isReadable_of_parse hparsed hpresent))

theorem parseExpression_tree_toText {text : String} {tree : Tree}
    (hparsed : parseExpression text = .ok tree) :
    parseExpression tree.toText = .ok (reread tree) :=
  parseExpression_shown (shows_toText tree (isReadable_of_parseExpression hparsed))

/-- The text of what was read is read again, as the same exactly if none of its numbers overflowed;
likewise for an expression on its own. -/
theorem parse_toText_iff (text : String) :
    (∀ rules, parse text = .ok rules →
      (∃ again, parse (rules.toText Tree.toText) = .ok again) ∧
      (parse (rules.toText Tree.toText) = .ok rules ↔
        ∀ side tree, rules.get side = some tree → NoneInfinite tree)) ∧
    (∀ tree, parseExpression text = .ok tree →
      (∃ again, parseExpression tree.toText = .ok again) ∧
      (parseExpression tree.toText = .ok tree ↔ NoneInfinite tree)) := by
  constructor
  · intro rules hparsed
    have hagain := parse_rules_toText hparsed
    refine ⟨⟨_, hagain⟩, ?_⟩
    rw [hagain, Except.ok.injEq, rereadRules_eq_self]
  · intro tree hparsed
    have hagain := parseExpression_tree_toText hparsed
    refine ⟨⟨_, hagain⟩, ?_⟩
    rw [hagain, Except.ok.injEq, reread_eq_self]

def exitTree : Tree :=
  .logical .or
    (.logical .and (.identifier "a")
      (.compare .lt
        (.call "rsi" [.identifier "b", .number (exitNumber ['1', '4'])])
        (.number (exitNumber ['3', '0']))))
    (.identifier "c")

theorem parse_exitTree : parse exitText = .ok ⟨none, some exitTree⟩ := by
  rw [parse, scan_exitText]
  rfl

theorem noneInfinite_exitTree : NoneInfinite exitTree := by
  have hfourteen : Binary64.parts (exitNumber ['1', '4']) ≠ .infinite false := by decide +kernel
  have hthirty : Binary64.parts (exitNumber ['3', '0']) ≠ .infinite false := by decide +kernel
  intro value hmem
  simp only [exitTree, words, wordsOfAll, List.cons_append, List.nil_append, List.mem_cons,
    List.not_mem_nil, reduceCtorEq, Token.number.injEq, false_or, or_false] at hmem
  rcases hmem with rfl | rfl
  · exact hfourteen
  · exact hthirty

theorem parse_toText_iff_exitText :
    parse exitText = .ok ⟨none, some exitTree⟩ ∧
      parse (RuleSet.toText Tree.toText ⟨none, some exitTree⟩) = .ok ⟨none, some exitTree⟩ := by
  refine ⟨parse_exitTree, ?_⟩
  refine (((parse_toText_iff exitText).1 _ parse_exitTree).2).mpr fun side tree hpresent => ?_
  cases side with
  | entry => exact nomatch hpresent
  | exit => exact Option.some.inj hpresent ▸ noneInfinite_exitTree

end Backtest.Proofs.TreeText
