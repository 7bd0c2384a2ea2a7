import Backtest.Proofs.CallParenthesis
import Backtest.Proofs.LetterCase
import Backtest.Strategy

/-!
The names of functions in small letters. Writing them so in the tokens, in every state of the parser
and in the trees commutes with each step of the parser and with typing, which look names up in any
case. So a recased text is parsed and typed as the text itself is: as the same typed rules, or with
an error at the same place and for the same reason.
-/

namespace Backtest.Proofs.NameCase

open Backtest.Rule
open Backtest.Proofs.Elaboration
open Backtest.Proofs.Outcome
open Backtest.Proofs.Scanner
open Backtest.Proofs.Spelling
open Backtest.Proofs.CallParenthesis
open Backtest.Proofs.TypeSystem
open Backtest.Proofs.LetterCase

mutual
def foldTree : Tree → Tree
  | .identifier name => .identifier name
  | .number value => .number value
  | .call name args => .call name.toLower (foldTrees args)
  | .compare op left right => .compare op (foldTree left) (foldTree right)
  | .logical op left right => .logical op (foldTree left) (foldTree right)

def foldTrees : List Tree → List Tree
  | [] => []
  | tree :: rest => foldTree tree :: foldTrees rest
end

theorem foldTrees_append_singleton (trees : List Tree) (tree : Tree) :
    foldTrees (trees ++ [tree]) = foldTrees trees ++ [foldTree tree] := by
  induction trees with
  | nil => rfl
  | cons first rest ih => exact congrArg (foldTree first :: ·) ih

theorem length_foldTrees (trees : List Tree) : (foldTrees trees).length = trees.length := by
  induction trees with
  | nil => rfl
  | cons first rest ih => exact congrArg (· + 1) ih

def foldLevel (level : Level) : Level where
  alternatives := level.alternatives.map foldTree
  conditions := level.conditions.map foldTree
  comparison := level.comparison.map fun (left, op) => (foldTree left, op)

def foldEnclosure : Enclosure → Enclosure
  | .group outer => .group (foldLevel outer)
  | .call outer name args => .call (foldLevel outer) name.toLower (foldTrees args)

def foldExpr : ExprState → ExprState
  | .operand enclosures level => .operand (enclosures.map foldEnclosure) (foldLevel level)
  | .calling enclosures level name =>
      .calling (enclosures.map foldEnclosure) (foldLevel level) name.toLower
  | .firstArgument enclosures level name =>
      .firstArgument (enclosures.map foldEnclosure) (foldLevel level) name.toLower
  | .complete enclosures level operand =>
      .complete (enclosures.map foldEnclosure) (foldLevel level) (foldTree operand)

theorem join_foldTree (op : BoolOp) (left? : Option Tree) (right : Tree) :
    Level.join op (left?.map foldTree) (foldTree right) = foldTree (Level.join op left? right) := by
  cases left? <;> rfl

theorem conjoined_foldLevel (level : Level) (operand : Tree) :
    (foldLevel level).conjoined (foldTree operand) = foldTree (level.conjoined operand) := by
  have hcompared : (foldLevel level).compared (foldTree operand) =
      foldTree (level.compared operand) := by
    obtain ⟨alternatives, conditions, comparison⟩ := level
    cases comparison <;> rfl
  rw [Level.conjoined, Level.conjoined, hcompared, ← join_foldTree]
  rfl

theorem closed_foldLevel (level : Level) (operand : Tree) :
    (foldLevel level).closed (foldTree operand) = foldTree (level.closed operand) := by
  rw [Level.closed, Level.closed, conjoined_foldLevel, ← join_foldTree]
  rfl

theorem feedOperand_foldToken (enclosures : List Enclosure) (level : Level) (token : Token) :
    ExprState.feedOperand (enclosures.map foldEnclosure) (foldLevel level) (foldToken token) =
      (ExprState.feedOperand enclosures level token).map foldExpr := by
  cases token <;> rfl

theorem feedClosing_foldTree (inner : Tree) (enclosures : List Enclosure) :
    ExprState.feedRightParen (foldTree inner) (enclosures.map foldEnclosure) =
        (ExprState.feedRightParen inner enclosures).map foldExpr ∧
      ExprState.feedComma (foldTree inner) (enclosures.map foldEnclosure) =
        (ExprState.feedComma inner enclosures).map foldExpr := by
  rcases enclosures with _ | ⟨outer | ⟨outer, name, args⟩, enclosures⟩
  · exact ⟨rfl, rfl⟩
  · exact ⟨rfl, rfl⟩
  · have hargs := (foldTrees_append_singleton args inner).symm
    exact ⟨congrArg (fun args => Except.ok (ExprState.complete _ _ (.call _ args))) hargs,
      congrArg (fun args => Except.ok (ExprState.operand (.call _ _ args :: _) _)) hargs⟩

theorem feedComplete_foldToken (enclosures : List Enclosure) (level : Level) (last : Tree)
    (token : Token) :
    ExprState.feedComplete (enclosures.map foldEnclosure) (foldLevel level) (foldTree last)
        (foldToken token) =
      (ExprState.feedComplete enclosures level last token).map foldExpr := by
  cases token with
  | operator op =>
      obtain ⟨alternatives, conditions, comparison⟩ := level
      cases comparison <;> rfl
  | keyword word =>
      cases word with
      | and =>
          change Except.ok (ExprState.operand _
            ⟨(foldLevel level).alternatives, some ((foldLevel level).conjoined _), none⟩) = _
          rw [conjoined_foldLevel]
          rfl
      | or =>
          change Except.ok (ExprState.operand _ ⟨some ((foldLevel level).closed _), none, none⟩) = _
          rw [closed_foldLevel]
          rfl
      | _ => rfl
  | rightParen =>
      change ExprState.feedRightParen ((foldLevel level).closed _) _ = _
      rw [closed_foldLevel, (feedClosing_foldTree _ _).1]
      rfl
  | comma =>
      change ExprState.feedComma ((foldLevel level).closed _) _ = _
      rw [closed_foldLevel, (feedClosing_foldTree _ _).2]
      rfl
  | _ => rfl

theorem feed_foldExpr (state : ExprState) (token : Token) :
    (foldExpr state).feed (foldToken token) = (state.feed token).map foldExpr := by
  cases state with
  | operand enclosures level => exact feedOperand_foldToken enclosures level token
  | calling enclosures level name => cases token <;> rfl
  | firstArgument enclosures level name =>
      have hoperand := feedOperand_foldToken (.call level name [] :: enclosures) {} token
      cases token with
      | rightParen => rfl
      | _ => exact hoperand
  | complete enclosures level last => exact feedComplete_foldToken enclosures level last token

theorem whole?_foldExpr (state : ExprState) :
    (foldExpr state).whole? = state.whole?.map foldTree := by
  rcases state with _ | _ | _ | ⟨enclosures, level, operand⟩
  · rfl
  · rfl
  · rfl
  · cases enclosures with
    | nil => exact congrArg some (closed_foldLevel level operand)
    | cons enclosure enclosures => rfl

theorem expectation_foldExpr (state : ExprState) :
    (foldExpr state).expectation = state.expectation := by
  rcases state with _ | _ | _ | ⟨_ | ⟨outer | _, enclosures⟩, level, operand⟩ <;> rfl

def foldRules (rules : RuleSet Tree) : RuleSet Tree where
  entry := rules.entry.map foldTree
  exit := rules.exit.map foldTree

def foldProgram : ProgramState → ProgramState
  | .header done => .header (foldRules done)
  | .colon side done => .colon side (foldRules done)
  | .body side done => .body side (foldRules done)
  | .inside side done state => .inside side (foldRules done) (foldExpr state)

def foldCause : ParseCause → ParseCause
  | .unexpected expected found => .unexpected expected (foldToken found)
  | cause => cause

def foldParseError (error : ParseError) : ParseError where
  cause := foldCause error.cause
  position := error.position

def foldOutcome {β γ : Type} (f : β → γ) (outcome : Except ParseError β) : Except ParseError γ :=
  (outcome.map f).mapError foldParseError

theorem foldOutcome_bind {β β' γ γ' : Type} {f : β → β'} {g : γ → γ'}
    {next : β → Except ParseError γ} {next' : β' → Except ParseError γ'}
    (hsame : ∀ value, next' (f value) = foldOutcome g (next value))
    (outcome : Except ParseError β) :
    foldOutcome f outcome >>= next' = foldOutcome g (outcome >>= next) := by
  cases outcome with
  | error error => rfl
  | ok value => exact hsame value

theorem isSome_get_foldRules (rules : RuleSet Tree) (side : Side) :
    ((foldRules rules).get side).isSome = (rules.get side).isSome := by
  cases side <;> exact Option.isSome_map

theorem isEmpty_foldRules (rules : RuleSet Tree) : (foldRules rules).isEmpty = rules.isEmpty := by
  rw [RuleSet.isEmpty, RuleSet.isEmpty, foldRules, Option.isNone_map, Option.isNone_map]

theorem set_foldRules (rules : RuleSet Tree) (side : Side) (tree : Tree) :
    (foldRules rules).set side (foldTree tree) = foldRules (rules.set side tree) := by
  cases side <;> rfl

theorem feedHeader_foldLexeme (done : RuleSet Tree) (lexeme : Lexeme) :
    ProgramState.feedHeader (foldRules done) (foldLexeme lexeme) =
      foldOutcome foldProgram (ProgramState.feedHeader done lexeme) := by
  obtain ⟨token, position⟩ := lexeme
  have hrefused : (ProgramState.refuse (.block (foldRules done).isEmpty)
      (foldLexeme ⟨token, position⟩) : Except ParseError ProgramState) =
        foldOutcome foldProgram (ProgramState.refuse (.block done.isEmpty) ⟨token, position⟩) := by
    rw [isEmpty_foldRules]
    rfl
  have hopened (side : Side) : (if ((foldRules done).get side).isSome then
        Except.error (ParseError.mk (.duplicateBlock side) position)
      else .ok (ProgramState.colon side (foldRules done))) =
        foldOutcome foldProgram (if (done.get side).isSome then
          Except.error (ParseError.mk (.duplicateBlock side) position)
        else .ok (ProgramState.colon side done)) := by
    rw [isSome_get_foldRules]
    split <;> rfl
  cases token with
  | keyword word =>
      cases word with
      | entry => exact hopened .entry
      | exit => exact hopened .exit
      | and => exact hrefused
      | or => exact hrefused
  | _ => exact hrefused

theorem feedInside_foldLexeme (side : Side) (done : RuleSet Tree) (state : ExprState)
    (lexeme : Lexeme) :
    ProgramState.feedInside side (foldRules done) (foldExpr state) (foldLexeme lexeme) =
      foldOutcome foldProgram (ProgramState.feedInside side done state lexeme) := by
  rw [ProgramState.feedInside, ProgramState.feedInside, foldLexeme, feed_foldExpr,
    whole?_foldExpr, expectation_foldExpr]
  cases state.feed lexeme.token with
  | ok next => rfl
  | error refusal =>
      cases refusal with
      | chained op => rfl
      | foreign =>
          cases state.whole? with
          | none => rfl
          | some tree =>
              change ProgramState.feedHeader ((foldRules done).set side (foldTree tree)) _ = _
              rw [set_foldRules]
              exact feedHeader_foldLexeme _ lexeme

theorem feed_foldProgram (state : ProgramState) (lexeme : Lexeme) :
    (foldProgram state).feed (foldLexeme lexeme) = foldOutcome foldProgram (state.feed lexeme) := by
  cases state with
  | header done => exact feedHeader_foldLexeme done lexeme
  | colon side done =>
      obtain ⟨token, position⟩ := lexeme
      cases token <;> rfl
  | body side done =>
      have hinside := feedInside_foldLexeme side done ExprState.start lexeme
      obtain ⟨token, position⟩ := lexeme
      cases token with
      | keyword word =>
          cases word with
          | entry => rfl
          | exit => rfl
          | _ => exact hinside
      | _ => exact hinside
  | inside side done state => exact feedInside_foldLexeme side done state lexeme

theorem finish_foldProgram (state : ProgramState) (position : Nat) :
    (foldProgram state).finish position = foldOutcome foldRules (state.finish position) := by
  cases state with
  | inside side done state =>
      rw [foldProgram, ProgramState.finish, ProgramState.finish, whole?_foldExpr,
        expectation_foldExpr]
      cases state.whole? with
      | none => rfl
      | some tree => exact congrArg Except.ok (set_foldRules done side tree)
  | _ => rfl

/-- A run of the parser, by induction on the tokens. -/
theorem run_foldProgram (lexemes : List Lexeme) (state : ProgramState) :
    (foldProgram state).run (lexemes.map foldLexeme) =
      foldOutcome foldRules (state.run lexemes) := by
  induction lexemes generalizing state with
  | nil => exact finish_foldProgram state 0
  | cons lexeme rest ih =>
      by_cases hstop : lexeme.token = .stop
      · obtain ⟨token, position⟩ := lexeme
        subst hstop
        exact finish_foldProgram state position
      · have hstop' : (foldLexeme lexeme).token ≠ .stop := by
          obtain ⟨token, position⟩ := lexeme
          cases token with
          | stop => exact absurd rfl hstop
          | _ => exact nofun
        rw [List.map_cons, run_cons hstop', run_cons hstop, feed_foldProgram]
        exact foldOutcome_bind (fun next => ih next) (state.feed lexeme)

def foldTypeError : TypeError → TypeError
  | .unknownFunction name => .unknownFunction name.toLower
  | error => error

theorem ofName?_toLower (name : String) :
    Function.ofName? name.toLower = Function.ofName? name := by
  rw [Function.ofName?, Function.ofName?, toUpper_toLower]

theorem mapError_identifierTerm (name : String) :
    (identifierTerm name).mapError foldTypeError = identifierTerm name := by
  rw [identifierTerm]
  split
  · rfl
  · split <;> rfl

theorem mapError_asTerm (typed : Typed) : typed.asTerm.mapError foldTypeError = typed.asTerm := by
  cases typed <;> rfl

theorem mapError_asCondition (typed : Typed) :
    typed.asCondition.mapError foldTypeError = typed.asCondition := by
  cases typed <;> rfl

theorem literalPeriod_foldTree (function : Function) (tree : Tree) :
    literalPeriod function (foldTree tree) =
      (literalPeriod function tree).mapError foldTypeError := by
  cases tree <;> rfl

theorem elaborate_foldTree (tree : Tree) :
    elaborate (foldTree tree) = (elaborate tree).mapError foldTypeError := by
  fun_induction elaborate tree with
  | case1 name =>
      rw [mapError_bind, mapError_identifierTerm]
      rfl
  | case2 value => rfl
  | case3 name args hunknown =>
      conv_lhs => unfold foldTree elaborate
      simp only [ofName?_toLower, hunknown]
      rfl
  | case4 name indicator source period hnamed ih =>
      conv_lhs => unfold foldTree elaborate
      simp only [foldTrees, ofName?_toLower, hnamed, ih, mapError_bind, mapError_asTerm,
        literalPeriod_foldTree]
      rfl
  | case5 name direction left right hnamed ih ih' =>
      conv_lhs => unfold foldTree elaborate
      simp only [foldTrees, ofName?_toLower, hnamed, ih, ih', mapError_bind, mapError_asTerm]
      rfl
  | case6 name function args hindicators hcrosses hnamed =>
      conv_lhs => unfold foldTree elaborate
      simp only [ofName?_toLower, hnamed]
      rcases args with _ | ⟨left, _ | ⟨right, _ | ⟨third, rest⟩⟩⟩
      · cases function <;> rfl
      · cases function <;> rfl
      · cases function with
        | indicator indicator => exact (hindicators indicator left right rfl rfl).elim
        | cross direction => exact (hcrosses direction left right rfl rfl).elim
      · rw [← length_foldTrees]
        cases function <;> rfl
  | case7 op left right ih ih' =>
      simp only [foldTree, elaborate, ih, ih', mapError_bind, mapError_asTerm]
      rfl
  | case8 op left right ih ih' =>
      simp only [foldTree, elaborate, ih, ih', mapError_bind, mapError_asCondition]
      rfl

theorem asCondition_foldTree (tree : Tree) :
    asCondition (foldTree tree) = (asCondition tree).mapError foldTypeError := by
  simp only [(projected _).asCondition_eq, elaborate_foldTree, mapError_bind, mapError_asCondition]

theorem typedBlock_foldTree (rule : Option Tree) :
    typedBlock (rule.map foldTree) = (typedBlock rule).mapError foldTypeError := by
  cases rule with
  | none => rfl
  | some tree =>
      change some <$> asCondition (foldTree tree) = (some <$> asCondition tree).mapError _
      rw [asCondition_foldTree]
      cases asCondition tree <;> rfl

theorem typed_foldRules (rules : RuleSet Tree) :
    (foldRules rules).typed = rules.typed.mapError foldTypeError := by
  simp only [typed_eq, mapError_bind, ← typedBlock_foldTree]
  rfl

def foldSyntaxError : SyntaxError → SyntaxError
  | .scan error => .scan error
  | .parse error => .parse (foldParseError error)

def foldCompileError : CompileError → CompileError
  | .unreadable error => .unreadable (foldSyntaxError error)
  | .illTyped error => .illTyped (foldTypeError error)
  | .requestRefused reason => .requestRefused reason

theorem position_foldSyntaxError (error : SyntaxError) :
    (foldSyntaxError error).position = error.position := by
  cases error <;> rfl

def foldParsed (outcome : Except SyntaxError (RuleSet Tree)) :
    Except SyntaxError (RuleSet Tree) :=
  (outcome.map foldRules).mapError foldSyntaxError

theorem foldParsed_parse (text : String) :
    foldParsed (parse text) =
      ((scan text).map (List.map foldLexeme)).mapError SyntaxError.scan >>= fun lexemes =>
        ((ProgramState.header {}).run lexemes).mapError SyntaxError.parse := by
  rw [parse]
  cases scan text with
  | error error => rfl
  | ok lexemes =>
      have hrun := run_foldProgram lexemes (.header {})
      change foldParsed (((ProgramState.header {}).run lexemes).mapError SyntaxError.parse) =
        ((foldProgram (.header {})).run (lexemes.map foldLexeme)).mapError SyntaxError.parse
      rw [hrun]
      cases (ProgramState.header {}).run lexemes <;> rfl

theorem mapError_compileRules (text : String) :
    (compileRules text).mapError foldCompileError =
      (foldParsed (parse text)).mapError CompileError.unreadable >>= fun rules =>
        rules.typed.mapError CompileError.illTyped := by
  rw [compileRules]
  cases parse text with
  | error error => rfl
  | ok rules =>
      change (rules.typed.mapError CompileError.illTyped).mapError foldCompileError =
        (foldRules rules).typed.mapError CompileError.illTyped
      rw [typed_foldRules]
      cases rules.typed <;> rfl

section Recased

variable {text text' : String} (hrecased : Recased text.toList text'.toList)
include hrecased

theorem scan_recased :
    (scan text').map (List.map foldLexeme) = (scan text).map (List.map foldLexeme) :=
  scanFrom_recased hrecased 0

theorem parse_recased : foldParsed (parse text') = foldParsed (parse text) := by
  rw [foldParsed_parse, foldParsed_parse, scan_recased hrecased]

theorem mapError_compileRules_recased :
    (compileRules text').mapError foldCompileError =
      (compileRules text).mapError foldCompileError := by
  rw [mapError_compileRules, mapError_compileRules, parse_recased hrecased]

theorem parse_outcomes_recased :
    ((∃ rules, parse text = .ok rules) ∧ ∃ rules, parse text' = .ok rules) ∨
      ∃ error error', parse text = .error error ∧ parse text' = .error error' ∧
        error'.position = error.position := by
  have hsame := parse_recased hrecased
  cases hread : parse text with
  | ok rules =>
      cases hread' : parse text' with
      | ok rules' => exact .inl ⟨⟨rules, rfl⟩, rules', rfl⟩
      | error error' =>
          rw [hread, hread'] at hsame
          exact nomatch hsame
  | error error =>
      cases hread' : parse text' with
      | ok rules' =>
          rw [hread, hread'] at hsame
          exact nomatch hsame
      | error error' =>
          rw [hread, hread'] at hsame
          have hposition := congrArg SyntaxError.position (Except.error.inj hsame)
          rw [position_foldSyntaxError, position_foldSyntaxError] at hposition
          exact .inr ⟨error, error', rfl, rfl, hposition⟩

theorem compileRules_eq_ok_recased (rules : RuleSet (Condition Float)) :
    compileRules text' = .ok rules ↔ compileRules text = .ok rules := by
  rw [← mapError_eq_ok (f := foldCompileError), mapError_compileRules_recased hrecased,
    mapError_eq_ok]

theorem illTyped_recased {error : TypeError}
    (hfailed : compileRules text = .error (.illTyped error)) :
    ∃ error', compileRules text' = .error (.illTyped error') ∧
      foldTypeError error' = foldTypeError error := by
  have hsame := mapError_compileRules_recased hrecased
  rw [hfailed] at hsame
  obtain ⟨error', hfailed', hfolded⟩ := mapError_eq_error.mp hsame
  cases error' with
  | illTyped error' => exact ⟨error', hfailed', CompileError.illTyped.inj hfolded⟩
  | _ => exact nomatch hfolded

/-- The case of keywords and of names of functions does not matter. The recased text has the same
tokens at the same positions, up to the case of names of functions; it is read if the text is, and
otherwise refused at the same place; it has the same typed rules, or the same type error up to the
case of the name of an unknown function. -/
theorem compileRules_recased :
    (scan text').map (List.map foldLexeme) = (scan text).map (List.map foldLexeme) ∧
      (((∃ rules, parse text = .ok rules) ∧ ∃ rules, parse text' = .ok rules) ∨
        ∃ error error', parse text = .error error ∧ parse text' = .error error' ∧
          error'.position = error.position) ∧
      (∀ rules, compileRules text' = .ok rules ↔ compileRules text = .ok rules) ∧
      ∀ error, compileRules text = .error (.illTyped error) →
        ∃ error', compileRules text' = .error (.illTyped error') ∧
          foldTypeError error' = foldTypeError error :=
  ⟨scan_recased hrecased, parse_outcomes_recased hrecased, compileRules_eq_ok_recased hrecased,
    fun _ => illTyped_recased hrecased⟩

end Recased

def mixedText : String := "exit:Foo(close)"

def capitalText : String := "EXIT:FOO(close)"

theorem recased_mixedText : Recased mixedText.toList capitalText.toList := by
  have hexit : IsWord ['e', 'x', 'i', 't'] := isWord_of_all rfl rfl
  have hfoo : IsWord ['F', 'o', 'o'] := isWord_of_all rfl rfl
  have hclose : IsWord ['c', 'l', 'o', 's', 'e'] := isWord_of_all rfl rfl
  have hkeyword : (Keyword.ofWord? (String.ofList ['e', 'x', 'i', 't'])).isSome = true := by
    decide +kernel
  have hclosing : Recased [')'] [')'] := .mark rfl .done
  have hblock := Recased.otherWord hexit rfl ['E', 'X', 'I', 'T'] (.inl hkeyword) rfl <|
    .mark (c := ':') rfl <| .otherWord hfoo rfl ['F', 'O', 'O'] (.inr rfl) rfl <|
    .mark (c := '(') rfl <| .sameWord hclose rfl hclosing
  simpa [mixedText, capitalText] using hblock

theorem compileRules_mixedText :
    compileRules mixedText = .error (.illTyped (.unknownFunction "Foo")) := by
  have hscanned : scan mixedText = .ok [⟨.keyword .exit, 0⟩, ⟨.colon, 4⟩, ⟨.function "Foo", 5⟩,
      ⟨.leftParen, 8⟩, ⟨.identifier "close", 9⟩, ⟨.rightParen, 14⟩, ⟨.stop, 15⟩] := by
    simp [mixedText, scan, scanFrom_cons, scanFrom_nil, Scan.next?, Text.isBlank,
      Scan.isWordStart, Scan.isWordChar, Scan.word, Scan.wordToken, Scan.symbol?,
      Scan.opensCall, Text.trimLeft, Keyword.ofWord?, Keyword.all, Keyword.spelling,
      String.toUpper, String.map_eq_internal, Text.byteLength, Except.map, Char.utf8Size]
  have hunknown : Function.ofName? "Foo" = none := by decide +kernel
  rw [compileRules, parse, hscanned]
  change (RuleSet.typed ⟨none, some (.call "Foo" [.identifier "close"])⟩).mapError _ = _
  have hillTyped :
      asCondition (.call "Foo" [.identifier "close"]) = .error (.unknownFunction "Foo") := by
    rw [asCondition_call, hunknown]
  rw [typed_eq, typedBlock, typedBlock, hillTyped]
  rfl

theorem compileRules_recased_mixedText :
    Recased mixedText.toList capitalText.toList ∧
      (scan capitalText).map (List.map foldLexeme) = (scan mixedText).map (List.map foldLexeme) ∧
      compileRules mixedText = .error (.illTyped (.unknownFunction "Foo")) ∧
      ∃ error, compileRules capitalText = .error (.illTyped error) ∧
        foldTypeError error = .unknownFunction "Foo".toLower := by
  obtain ⟨hscanned, -, -, hillTyped⟩ := compileRules_recased recased_mixedText
  exact ⟨recased_mixedText, hscanned, compileRules_mixedText, hillTyped _ compileRules_mixedText⟩

end Backtest.Proofs.NameCase
