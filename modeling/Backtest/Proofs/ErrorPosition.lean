import Mathlib.Order.Bounds.Basic
import Backtest.Proofs.WrittenRule

/-!
The place that a parse error names. A run that fails has read some tokens and stands before one that
its state refuses; the error is placed at that token. What was read begins a derivation and goes on
to a text that is read, and no derivation begins with the refused token as well.
-/

namespace Backtest.Proofs.ErrorPosition

open Backtest.Rule
open Backtest.Proofs.Outcome
open Backtest.Proofs.Scanner
open Backtest.Proofs.Grammar
open Backtest.Proofs.ViablePrefix
open Backtest.Proofs.ViableProgram
open Backtest.Proofs.Spelling
open Backtest.Proofs.Viability
open Backtest.Proofs.WrittenRule

/-- The token that an error is about. -/
def offender : ParseCause → Token
  | .unexpected _ found => found
  | .duplicateBlock side => .keyword (sideKeyword side)
  | .chainedComparison op => .operator op

structure Blames (error : ParseError) (lexeme : Lexeme) : Prop where
  offender_eq : offender error.cause = lexeme.token
  position_eq : error.position = lexeme.position

theorem blames_refuse {α : Type} {reason : Expectation} {lexeme : Lexeme} {error : ParseError}
    (hfailed : (ProgramState.refuse reason lexeme : Except ParseError α) = .error error) :
    Blames error lexeme := by
  obtain rfl := Except.error.inj hfailed
  exact ⟨rfl, rfl⟩

theorem blames_feedHeader {done : RuleSet Tree} {lexeme : Lexeme} {error : ParseError}
    (hfailed : ProgramState.feedHeader done lexeme = .error error) : Blames error lexeme := by
  obtain ⟨token, position⟩ := lexeme
  have hopening (side : Side)
      (hfailed : (if (done.get side).isSome then
          Except.error (ParseError.mk (.duplicateBlock side) position)
        else .ok (ProgramState.colon side done)) = .error error) :
      Blames error ⟨.keyword (sideKeyword side), position⟩ := by
    split at hfailed
    · obtain rfl := Except.error.inj hfailed
      exact ⟨rfl, rfl⟩
    · cases hfailed
  cases token with
  | keyword word =>
      cases word with
      | entry => exact hopening .entry hfailed
      | exit => exact hopening .exit hfailed
      | and => exact blames_refuse hfailed
      | or => exact blames_refuse hfailed
  | _ => exact blames_refuse hfailed

theorem blames_feedInside {side : Side} {done : RuleSet Tree} {state : ExprState}
    {lexeme : Lexeme} {error : ParseError}
    (hfailed : ProgramState.feedInside side done state lexeme = .error error) :
    Blames error lexeme := by
  unfold ProgramState.feedInside at hfailed
  split at hfailed
  · cases hfailed
  · next op hchained =>
    obtain rfl := Except.error.inj hfailed
    exact ⟨(ProgramPrefix.eq_operator_of_chained hchained).symm, rfl⟩
  · split at hfailed
    · exact blames_feedHeader hfailed
    · exact blames_refuse hfailed

theorem blames_feed {state : ProgramState} {lexeme : Lexeme} {error : ParseError}
    (hfailed : state.feed lexeme = .error error) : Blames error lexeme := by
  cases state with
  | header done => exact blames_feedHeader hfailed
  | colon side done =>
      rw [ProgramState.feed] at hfailed
      split at hfailed
      · cases hfailed
      · exact blames_refuse hfailed
  | body side done =>
      rw [ProgramState.feed] at hfailed
      split at hfailed
      · exact blames_refuse hfailed
      · exact blames_refuse hfailed
      · exact blames_feedInside hfailed
  | inside side done state => exact blames_feedInside hfailed

theorem blames_finish {state : ProgramState} {position : Nat} {error : ParseError}
    (hfailed : state.finish position = .error error) : Blames error ⟨.stop, position⟩ := by
  cases state with
  | header done => cases hfailed
  | inside side done state =>
      rw [ProgramState.finish] at hfailed
      split at hfailed
      · cases hfailed
      · exact blames_refuse hfailed
  | _ => exact blames_refuse hfailed

/-- Feeding the tokens, the machine comes to one at the position that it does not take. At the end
of the text, this means that what it has read is not whole. -/
inductive Refuses {σ δ : Type} (feed : σ → Token → Option σ) (whole? : σ → Option δ) :
    σ → List Lexeme → Nat → Prop
  | here {front : σ} {lexeme : Lexeme} {rest : List Lexeme}
      (hrefused : feed front lexeme.token = none)
      (hunfinished : lexeme.token = .stop → whole? front = none) :
      Refuses feed whole? front (lexeme :: rest) lexeme.position
  | later {front next : σ} {lexeme : Lexeme} {rest : List Lexeme} {position : Nat}
      (hstep : feed front lexeme.token = some next)
      (hrefuses : Refuses feed whole? next rest position) :
      Refuses feed whole? front (lexeme :: rest) position

theorem refuses_program {lexemes : List Lexeme} (front : ProgramPrefix)
    (hproper : ∀ lexeme ∈ lexemes, lexeme.token ≠ .stop) {last : Nat} {error : ParseError}
    (hfailed : front.state.run (lexemes ++ [⟨.stop, last⟩]) = .error error) :
    Refuses ProgramPrefix.feed ProgramPrefix.whole? front
      (lexemes ++ [⟨.stop, last⟩]) error.position := by
  induction lexemes generalizing front with
  | nil =>
      have hunfinished : front.whole? = none := by
        have hfinished := front.finish_state last
        rw [show front.state.finish last = .error error from hfailed] at hfinished
        exact Option.map_eq_none_iff.mp hfinished.symm
      rw [(blames_finish hfailed).position_eq]
      exact .here (ProgramPrefix.feed_stop front) fun _ => hunfinished
  | cons lexeme rest ih =>
      rw [List.forall_mem_cons] at hproper
      have hrun : front.state.run (lexeme :: rest ++ [⟨.stop, last⟩]) =
          front.state.feed lexeme >>= fun next =>
            next.run (rest ++ [⟨.stop, last⟩]) := by
        rw [List.cons_append, ProgramState.run]
        split
        · next hstop => exact absurd hstop hproper.1
        · rfl
      have hstep := front.feed_state lexeme
      rw [hrun] at hfailed
      cases houtcome : front.state.feed lexeme with
      | error refusal =>
          rw [houtcome] at hstep hfailed
          obtain rfl := Except.error.inj hfailed
          rw [(blames_feed houtcome).position_eq]
          exact .here (Option.map_eq_none_iff.mp hstep.symm) fun hstop =>
            absurd hstop hproper.1
      | ok next =>
          rw [houtcome] at hstep hfailed
          obtain ⟨next, hfed, rfl⟩ := Option.map_eq_some_iff.mp hstep.symm
          exact .later hfed (ih next hproper.2 hfailed)

theorem refuses_expression {lexemes : List Lexeme} (front : ExpressionPrefix)
    (hproper : ∀ lexeme ∈ lexemes, lexeme.token ≠ .stop) {last : Nat} {error : ParseError}
    (hfailed : front.state.run (lexemes ++ [⟨.stop, last⟩]) = .error error) :
    Refuses ExpressionPrefix.feed ExpressionPrefix.whole? front
      (lexemes ++ [⟨.stop, last⟩]) error.position := by
  induction lexemes generalizing front with
  | nil =>
      change ExprState.run.finish front.state ⟨.stop, last⟩ = .error error at hfailed
      rw [ExprState.run.finish, front.whole?_state] at hfailed
      cases hwhole : front.whole? with
      | some expression =>
          rw [hwhole] at hfailed
          cases hfailed
      | none =>
          rw [hwhole] at hfailed
          obtain rfl := Except.error.inj hfailed
          exact .here (ExpressionPrefix.feed_stop front) fun _ => hwhole
  | cons lexeme rest ih =>
      rw [List.forall_mem_cons] at hproper
      have hstep := front.feed_state lexeme.token
      have hrefused (houtcome : (front.state.feed lexeme.token).toOption = none)
          (hplaced : error.position = lexeme.position) :
          Refuses ExpressionPrefix.feed ExpressionPrefix.whole? front
            (lexeme :: rest ++ [⟨.stop, last⟩]) error.position := by
        rw [houtcome] at hstep
        rw [hplaced]
        exact .here (Option.map_eq_none_iff.mp hstep.symm) fun hstop => absurd hstop hproper.1
      rw [List.cons_append, ExprState.run] at hfailed
      split at hfailed
      · next hstop => exact absurd hstop hproper.1
      · split at hfailed
        · next next houtcome =>
            rw [houtcome] at hstep
            obtain ⟨next, hfed, rfl⟩ := Option.map_eq_some_iff.mp hstep.symm
            exact .later hfed (ih next hproper.2 hfailed)
        · next op houtcome =>
            obtain rfl := Except.error.inj hfailed
            exact hrefused (by rw [houtcome]; rfl) rfl
        · next houtcome =>
            obtain rfl := Except.error.inj hfailed
            exact hrefused (by rw [houtcome]; rfl) rfl

theorem Refuses.exists_split {σ δ : Type} {feed : σ → Token → Option σ}
    {whole? : σ → Option δ} {front : σ} {lexemes : List Lexeme} {position : Nat}
    (hrefuses : Refuses feed whole? front lexemes position) :
    ∃ before refused after stuck, lexemes = before ++ refused :: after ∧
      refused.position = position ∧
      (before.map Lexeme.token).foldlM feed front = some stuck ∧
      feed stuck refused.token = none ∧ (refused.token = .stop → whole? stuck = none) := by
  induction hrefuses with
  | @here front lexeme rest hrefused hunfinished =>
      exact ⟨[], lexeme, rest, front, rfl, rfl, rfl, hrefused, hunfinished⟩
  | @later front next lexeme rest position hstep hrefuses ih =>
      obtain ⟨before, refused, after, stuck, rfl, hplaced, hrun, hstops⟩ := ih
      refine ⟨lexeme :: before, refused, after, stuck, rfl, hplaced, ?_, hstops⟩
      rw [List.map_cons, List.foldlM_cons, hstep]
      exact hrun

/-- The first place at which no derivation begins with the tokens up to there. -/
def IsFirstUnviable {δ : Type} (derived : δ → List Token) (tokens : List Token) (k : Nat) : Prop :=
  IsLeast {i | ¬Begins derived (tokens.take (i + 1))} k

/-- A refused token is the first one with which no derivation begins. -/
theorem Refuses.isFirstUnviable {σ δ : Type} {feed : σ → Token → Option σ}
    {whole? : σ → Option δ} {start : σ} {derived : δ → List Token}
    (haccepts : ∀ tokens derivation,
      (∃ final, tokens.foldlM feed start = some final ∧ whole? final = some derivation) ↔
        derived derivation = tokens)
    (hcompletes : ∀ front, ∃ rest final derivation, rest ⊆ fillers ∧
      rest.foldlM feed front = some final ∧ whole? final = some derivation)
    {lexemes : List Lexeme} {position : Nat}
    (hrefuses : Refuses feed whole? start lexemes position) :
    ∃ k, ∃ hinside : k < lexemes.length, lexemes[k].position = position ∧
      IsFirstUnviable derived (lexemes.map Lexeme.token) k ∧
      ∃ derivation rest, rest ⊆ fillers ∧
        derived derivation = (lexemes.map Lexeme.token).take k ++ rest := by
  obtain ⟨before, refused, after, stuck, rfl, hplaced, hrun, hstops, hunfinished⟩ :=
    hrefuses.exists_split
  obtain ⟨rest, final, derivation, hfills, hcompleted, hwhole⟩ := hcompletes stuck
  have htokens : (before ++ refused :: after).map Lexeme.token =
      before.map Lexeme.token ++ refused.token :: after.map Lexeme.token := List.map_append
  have hread : ((before ++ refused :: after).map Lexeme.token).take before.length =
      before.map Lexeme.token := by
    rw [htokens, List.take_left' (List.length_map _)]
  refine ⟨before.length, by simp, by simpa using hplaced, ⟨?_, ?_⟩, derivation, rest, hfills, ?_⟩
  · have hupTo : ((before ++ refused :: after).map Lexeme.token).take (before.length + 1) =
        before.map Lexeme.token ++ [refused.token] := by
      rw [htokens, List.append_cons, List.take_left' (by simp)]
    show ¬Begins derived _
    rw [hupTo]
    exact not_begins_of_refused haccepts hrun hstops hunfinished
  · intro i hunviable
    by_contra hearlier
    have hbegins := begins_of_completion haccepts hrun hcompleted hwhole
    rw [← hread] at hbegins
    exact hunviable (hbegins.of_prefix (List.take_prefix_take_left (by omega)))
  · rw [hread]
    refine (haccepts _ derivation).mp ⟨final, ?_, hwhole⟩
    rw [List.foldlM_append, hrun]
    exact hcompleted

theorem spelled_fillers : ∀ token ∈ fillers, ∃ chars, Spells token chars := by
  have hword : IsWord ['a'] := isWord_of_all rfl rfl
  have hfree : Keyword.ofWord? (String.ofList ['a']) = none := by decide +kernel
  intro token hmem
  simp only [fillers, List.mem_cons, List.not_mem_nil, or_false] at hmem
  rcases hmem with rfl | rfl | rfl | rfl
  · exact ⟨_, .identifier hword (ofWord?_eq_none_iff.mp hfree)⟩
  · exact ⟨_, .leftParen⟩
  · exact ⟨_, .rightParen⟩
  · exact ⟨_, .colon⟩

theorem exists_text {text : String} {lexemes : List Lexeme} {k : Nat} {rest : List Token}
    (hscanned : scan text = .ok lexemes) (hinside : k < lexemes.length) (hfills : rest ⊆ fillers) :
    ∃ text : String,
      Written ((lexemes.map Lexeme.token).take k ++ rest) text.toList := by
  obtain ⟨front, last, rfl, hproper⟩ := scan_eq_append hscanned
  rw [List.length_append, List.length_singleton] at hinside
  have hshort : k ≤ (front.map Lexeme.token).length := by
    rw [List.length_map]
    omega
  rw [List.map_append, List.take_append_of_le_length hshort]
  have hspelled : ∀ token ∈ (front.map Lexeme.token).take k ++ rest,
      ∃ chars, Spells token chars := by
    intro token hmem
    rcases List.mem_append.mp hmem with hmem | hmem
    · exact spelled_of_scan hscanned hproper token (List.mem_of_mem_take hmem)
    · exact spelled_fillers token (hfills hmem)
  obtain ⟨chars, hwritten⟩ := exists_written hspelled
  refine ⟨String.ofList chars, ?_⟩
  rw [String.toList_ofList]
  exact hwritten

theorem exists_scan {tokens rest : List Token} {text : String}
    (hwritten : Written (tokens ++ rest) text.toList)
    (hclassified : List.IsChain Classified (tokens ++ rest ++ [.stop])) :
    ∃ read, scan text = .ok read ∧ tokens <+: read.map Lexeme.token := by
  obtain ⟨front, last, hscanned, hsame, -⟩ := scan_written hwritten hclassified
  refine ⟨_, hscanned, ?_⟩
  rw [List.map_append, hsame, List.append_assoc]
  exact List.prefix_append _ _

/-- A scanned text that is no rule set fails at the first token with which no program begins, and
the tokens before that one go on to a text that is read; likewise for an expression on its own. -/
theorem parse_error_position (text : String) (lexemes : List Lexeme)
    (hscanned : scan text = .ok lexemes) :
    (∀ error, parse text = .error error →
      ∃ k, ∃ hinside : k < lexemes.length, ∃ cause,
        error = .parse ⟨cause, lexemes[k].position⟩ ∧
        IsFirstUnviable Program.tokens (lexemes.map Lexeme.token) k ∧
        ∃ completed read rules, scan completed = .ok read ∧
          (lexemes.map Lexeme.token).take k <+: read.map Lexeme.token ∧
          parse completed = .ok rules) ∧
    (∀ error, parseExpression text = .error error →
      ∃ k, ∃ hinside : k < lexemes.length, ∃ cause,
        error = .parse ⟨cause, lexemes[k].position⟩ ∧
        IsFirstUnviable Expression.tokens (lexemes.map Lexeme.token) k ∧
        ∃ completed read tree, scan completed = .ok read ∧
          (lexemes.map Lexeme.token).take k <+: read.map Lexeme.token ∧
          parseExpression completed = .ok tree) := by
  obtain ⟨front, last, rfl, hproper⟩ := scan_eq_append hscanned
  constructor
  · intro error hfailed
    rw [parse, hscanned] at hfailed
    obtain ⟨⟨cause, position⟩, hstopped, rfl⟩ :
        ∃ reason, (ProgramState.header {}).run (front ++ [⟨.stop, last⟩]) = .error reason ∧
          SyntaxError.parse reason = error := mapError_eq_error.mp hfailed
    obtain ⟨k, hinside, rfl, hunviable, program, rest, hfills, htokens⟩ :=
      (refuses_program ProgramPrefix.start hproper hstopped).isFirstUnviable
        ProgramPrefix.feedAll_start_iff Viability.ProgramPrefix.exists_completion
    obtain ⟨completed, hwritten⟩ := exists_text hscanned hinside hfills
    obtain ⟨read, hscanned', hbegun⟩ :=
      exists_scan hwritten (htokens ▸ Viability.ProgramPrefix.isChain_tokens program)
    exact ⟨k, hinside, cause, rfl, hunviable, completed, read, program.rules, hscanned', hbegun,
      parse_written (htokens ▸ hwritten)⟩
  · intro error hfailed
    rw [parseExpression, hscanned] at hfailed
    obtain ⟨⟨cause, position⟩, hstopped, rfl⟩ :
        ∃ reason, ExprState.start.run (front ++ [⟨.stop, last⟩]) = .error reason ∧
          SyntaxError.parse reason = error := mapError_eq_error.mp hfailed
    obtain ⟨k, hinside, rfl, hunviable, expression, rest, hfills, htokens⟩ :=
      (refuses_expression ExpressionPrefix.start hproper hstopped).isFirstUnviable
        DerivationRun.feedAll_start_iff Viability.ExpressionPrefix.exists_completion
    obtain ⟨completed, hwritten⟩ := exists_text hscanned hinside hfills
    obtain ⟨read, hscanned', hbegun⟩ :=
      exists_scan hwritten (htokens ▸ Viability.ExpressionPrefix.isChain_tokens expression)
    exact ⟨k, hinside, cause, rfl, hunviable, completed, read, expression.tree, hscanned', hbegun,
      parseExpression_written (htokens ▸ hwritten)⟩

def openText : String := "ENTRY: f(a, (b AND ) > c"

def openLexemes : List Lexeme :=
  [⟨.keyword .entry, 0⟩, ⟨.colon, 5⟩, ⟨.function "f", 7⟩, ⟨.leftParen, 8⟩,
    ⟨.identifier "a", 9⟩, ⟨.comma, 10⟩, ⟨.leftParen, 12⟩, ⟨.identifier "b", 13⟩,
    ⟨.keyword .and, 15⟩, ⟨.rightParen, 19⟩, ⟨.operator .gt, 21⟩, ⟨.identifier "c", 23⟩,
    ⟨.stop, 24⟩]

theorem scan_openText : scan openText = .ok openLexemes := by
  simp [openText, openLexemes, scan, scanFrom_cons, scanFrom_nil, Scan.next?,
    Text.isBlank, Scan.isWordStart, Scan.isWordChar, Scan.word, Scan.wordToken,
    Scan.symbol?, Scan.opensCall, Text.trimLeft, Keyword.ofWord?, Keyword.all,
    Keyword.spelling, String.toUpper, String.map_eq_internal, Text.byteLength,
    Except.map, Char.utf8Size]

theorem parse_openText :
    parse openText = .error (.parse ⟨.unexpected .expression .rightParen, 19⟩) := by
  rw [parse, scan_openText]
  rfl

theorem parse_error_position_openText :
    scan openText = .ok openLexemes ∧
      parse openText = .error (.parse ⟨.unexpected .expression .rightParen, 19⟩) ∧
      IsFirstUnviable Program.tokens (openLexemes.map Lexeme.token) 9 ∧
      ∃ completed read rules, scan completed = .ok read ∧
        (openLexemes.map Lexeme.token).take 9 <+: read.map Lexeme.token ∧
        parse completed = .ok rules := by
  refine ⟨scan_openText, parse_openText, ?_⟩
  obtain ⟨k, hinside, cause, hsame, hfound⟩ :=
    (parse_error_position openText openLexemes scan_openText).1 _ parse_openText
  have hplaced : openLexemes[k].position = 19 :=
    (congrArg ParseError.position (SyntaxError.parse.inj hsame)).symm
  have hunique : ∀ k, ∀ hinside : k < openLexemes.length,
      openLexemes[k].position = 19 → k = 9 := by decide
  obtain rfl := hunique k hinside hplaced
  exact hfound

end Backtest.Proofs.ErrorPosition
