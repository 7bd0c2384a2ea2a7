import Backtest.Proofs.Checked.Caret
import Backtest.Proofs.ErrorPosition
import Backtest.Proofs.Tiling

namespace Backtest.Proofs.ErrorContext

open Backtest.Rule
open Backtest.Text
open Backtest.Proofs.Checked (At at_start Cut caretBelow exists_cut byteLength_append)
open Backtest.Proofs.ErrorPosition
open Backtest.Proofs.LongestToken
open Backtest.Proofs.Outcome
open Backtest.Proofs.Scanner
open Backtest.Proofs.Spelling
open Backtest.Proofs.Tiling
open Backtest.Proofs.ViableProgram

theorem exists_blamed_program {front : List Lexeme} {last : Nat} {state : ProgramState}
    {error : ParseError} (hfailed : state.run (front ++ [⟨.stop, last⟩]) = .error error) :
    ∃ lexeme ∈ front ++ [⟨.stop, last⟩], Blames error lexeme := by
  induction front generalizing state with
  | nil => exact ⟨_, List.mem_singleton_self _, blames_finish hfailed⟩
  | cons lexeme rest ih =>
      rw [List.cons_append, ProgramState.run] at hfailed
      split at hfailed
      · next hstop =>
        obtain ⟨hoffenderEq, hpositionEq⟩ := blames_finish hfailed
        exact ⟨lexeme, List.mem_cons_self, hoffenderEq.trans hstop.symm, hpositionEq⟩
      · rcases bind_eq_error.mp hfailed with hrefused | ⟨next, -, hfailed⟩
        · exact ⟨lexeme, List.mem_cons_self, blames_feed hrefused⟩
        · obtain ⟨blamed, hmem, hblames⟩ := ih hfailed
          exact ⟨blamed, List.mem_cons_of_mem lexeme hmem, hblames⟩

theorem blames_finish_expression {state : ExprState} {lexeme : Lexeme} {error : ParseError}
    (hfailed : ExprState.run.finish state lexeme = .error error) : Blames error lexeme := by
  rw [ExprState.run.finish] at hfailed
  split at hfailed
  · cases hfailed
  · exact blames_refuse hfailed

theorem exists_blamed_expression {front : List Lexeme} {last : Nat} {state : ExprState}
    {error : ParseError} (hfailed : state.run (front ++ [⟨.stop, last⟩]) = .error error) :
    ∃ lexeme ∈ front ++ [⟨.stop, last⟩], Blames error lexeme := by
  induction front generalizing state with
  | nil => exact ⟨_, List.mem_singleton_self _, blames_finish_expression hfailed⟩
  | cons lexeme rest ih =>
      rw [List.cons_append, ExprState.run] at hfailed
      have hfirst (hblames : Blames error lexeme) :
          ∃ blamed ∈ lexeme :: (rest ++ [⟨.stop, last⟩]), Blames error blamed :=
        ⟨lexeme, List.mem_cons_self, hblames⟩
      split at hfailed
      · exact hfirst (blames_finish_expression hfailed)
      · split at hfailed
        · obtain ⟨blamed, hmem, hblames⟩ := ih hfailed
          exact ⟨blamed, List.mem_cons_of_mem lexeme hmem, hblames⟩
        · next op hchained =>
          obtain rfl := Except.error.inj hfailed
          exact hfirst ⟨(ProgramPrefix.eq_operator_of_chained hchained).symm, rfl⟩
        · exact hfirst (blames_refuse hfailed)

theorem scan_or_parse {text : String} {error : SyntaxError}
    (hfailed : parse text = .error error ∨ parseExpression text = .error error) :
    (∃ refused, scan text = .error refused ∧ error = .scan refused) ∨
      ∃ lexemes cause position, scan text = .ok lexemes ∧
        ⟨offender cause, position⟩ ∈ lexemes ∧ error = .parse ⟨cause, position⟩ := by
  cases hscanned : scan text with
  | error refused =>
      refine .inl ⟨refused, rfl, ?_⟩
      rw [parse, parseExpression, hscanned] at hfailed
      rcases hfailed with hfailed | hfailed <;> exact (Except.error.inj hfailed).symm
  | ok lexemes =>
      obtain ⟨front, last, rfl, -⟩ := scan_eq_append hscanned
      rw [parse, parseExpression, hscanned] at hfailed
      obtain ⟨⟨cause, position⟩, hblamed, ⟨token, place⟩, hmem, hblames⟩ :
          ∃ refused, SyntaxError.parse refused = error ∧
            ∃ lexeme ∈ front ++ [⟨.stop, last⟩], Blames refused lexeme := by
        rcases hfailed with hfailed | hfailed
        · obtain ⟨refused, hstopped, hsame⟩ := mapError_eq_error.mp hfailed
          exact ⟨refused, hsame, exists_blamed_program hstopped⟩
        · obtain ⟨refused, hstopped, hsame⟩ := mapError_eq_error.mp hfailed
          exact ⟨refused, hsame, exists_blamed_expression hstopped⟩
      obtain ⟨rfl, rfl⟩ := hblames
      exact .inr ⟨_, cause, position, rfl, hmem, hblamed.symm⟩

/-- The text goes on, from the place of an error, with what the error is about: the character that
starts nothing, the spelling of the refused token, or nothing if that is the end of the text. -/
inductive GoesOn (text : String) : SyntaxError → List Char → Prop
  | character {c : Char} {position : Nat} {after : List Char}
      (hrefused : scan text = .error ⟨c, position⟩) : GoesOn text (.scan ⟨c, position⟩) (c :: after)
  | token {lexemes : List Lexeme} {cause : ParseCause} {position : Nat} {c : Char}
      {chars after : List Char} (hscanned : scan text = .ok lexemes)
      (hmem : ⟨offender cause, position⟩ ∈ lexemes)
      (hspells : Spells (offender cause) (c :: chars)) :
      GoesOn text (.parse ⟨cause, position⟩) (c :: (chars ++ after))
  | stop {lexemes : List Lexeme} {cause : ParseCause} {position : Nat}
      (hscanned : scan text = .ok lexemes) (hmem : ⟨offender cause, position⟩ ∈ lexemes)
      (hended : offender cause = .stop) : GoesOn text (.parse ⟨cause, position⟩) []

theorem at_of_scan_error {text : String} {c : Char} {position : Nat}
    (hrefused : scan text = .error ⟨c, position⟩) :
    c ≠ '\n' ∧ ∃ after, At text.toList position (c :: after) := by
  obtain ⟨front, after, htiles, hnothing⟩ := scanFrom_eq_error_iff.mp hrefused
  refine ⟨?_, after, (htiles.spelled (at_start text.toList)).1⟩
  rintro rfl
  exact absurd hnothing.notBlank (by decide)

theorem at_of_scan {text : String} {lexemes : List Lexeme} (hscanned : scan text = .ok lexemes)
    {lexeme : Lexeme} (hmem : lexeme ∈ lexemes) :
    (lexeme.token = .stop ∧ At text.toList lexeme.position []) ∨
      ∃ c chars after, At text.toList lexeme.position (c :: (chars ++ after)) ∧
        Spells lexeme.token (c :: chars) ∧ c ≠ '\n' := by
  obtain ⟨front, stop, htiles, rfl⟩ := scanFrom_eq_ok_iff.mp hscanned
  obtain ⟨hended, hspelled⟩ := htiles.spelled (at_start text.toList)
  rcases List.mem_append.mp hmem with hmem | hmem
  · obtain ⟨chars, after, hplace, hspells, hlongest, hahead⟩ := hspelled lexeme hmem
    obtain ⟨c, chars, rfl⟩ := List.exists_cons_of_ne_nil (ne_nil_of_spells hspells)
    refine .inr ⟨c, chars, after, hplace, hspells, ?_⟩
    rintro rfl
    have hnext : Scan.next? '\n' (chars ++ after) =
        some ⟨some lexeme.token, '\n' :: chars, after⟩ :=
      next?_eq_some_iff.mpr ⟨rfl, hspells, hlongest, hahead⟩
    exact nomatch hnext
  · obtain rfl := List.mem_singleton.mp hmem
    exact .inl ⟨rfl, hended⟩

theorem exists_goesOn {text : String} {error : SyntaxError}
    (hfailed : parse text = .error error ∨ parseExpression text = .error error) :
    ∃ rest, At text.toList error.position rest ∧ GoesOn text error rest ∧
      ∀ c ∈ rest.head?, c ≠ '\n' := by
  rcases scan_or_parse hfailed with ⟨⟨c, position⟩, hrefused, rfl⟩ |
    ⟨lexemes, cause, position, hscanned, hmem, rfl⟩
  · obtain ⟨hnoFeed, after, hplace⟩ := at_of_scan_error hrefused
    refine ⟨_, hplace, .character hrefused, ?_⟩
    rintro _ ⟨⟩
    exact hnoFeed
  · rcases at_of_scan hscanned hmem with
      ⟨hended, hplace⟩ | ⟨c, chars, after, hplace, hspells, hnoFeed⟩
    · exact ⟨[], hplace, .stop hscanned hmem hended, nofun⟩
    · refine ⟨_, hplace, .token hscanned hmem hspells, ?_⟩
      rintro _ ⟨⟩
      exact hnoFeed

theorem isValid_of_at {text : String} {byte : Nat} {rest : List Char}
    (hplace : At text.toList byte rest) : String.Pos.Raw.IsValid text ⟨byte⟩ := by
  obtain ⟨front, hwhole, rfl⟩ := hplace
  refine String.Pos.Raw.isValid_iff_exists_append.mpr
    ⟨String.ofList front, String.ofList rest, ?_, ?_⟩
  · rw [← String.ofList_append, ← hwhole, String.ofList_toList]
  · rw [← String.toList_ofList (l := front), byteLength_toList, String.ofList_toList]
    rfl

/-- A text that is not read is shown in the line that holds the place of the error, with a caret
below it. The place is on a boundary of the text, so that all slices are allowed; what stands there
is what the error is about, and the line has it in the column of the caret. -/
theorem error_in_context (text : String) (error : SyntaxError)
    (hfailed : parse text = .error error ∨ parseExpression text = .error error) :
    ∃ above start finish below, Cut text.toList above start finish below ∧
      error.position = byteLength (above ++ start) ∧
      String.Pos.Raw.IsValid text ⟨error.position⟩ ∧
      Checked.pointAt text.toList error.position error.message = some (error.inContext text) ∧
      error.inContext text = caretBelow (start ++ finish) start.length error.message ∧
      GoesOn text error (finish ++ below) ∧
      (start ++ finish)[start.length]? = (finish ++ below).head? := by
  obtain ⟨rest, hplace, hgoesOn, hnoFeed⟩ := exists_goesOn hfailed
  obtain ⟨above, start, finish, below, hcut, hposition, rfl⟩ := exists_cut hplace
  have hshown : error.inContext text = caretBelow (start ++ finish) start.length error.message := by
    rw [SyntaxError.inContext, hposition]
    exact hcut.text_pointAt error.message
  have hchecked := hcut.pointAt_eq error.message
  rw [← hposition, ← hshown] at hchecked
  exact ⟨above, start, finish, below, hcut, hposition, isValid_of_at hplace, hchecked, hshown,
    hgoesOn, hcut.getElem?_column hnoFeed⟩

/-- A text whose second line, after a comment, begins with a character of three bytes. -/
def wideText : String := "ENTRY: # é\n\u3000a > )\nEXIT: b"

def wideLexemes : List Lexeme :=
  [⟨.keyword .entry, 0⟩, ⟨.colon, 5⟩, ⟨.identifier "a", 15⟩, ⟨.operator .gt, 17⟩, ⟨.rightParen, 19⟩,
    ⟨.keyword .exit, 21⟩, ⟨.colon, 25⟩, ⟨.identifier "b", 27⟩, ⟨.stop, 28⟩]

theorem scan_wideText : scan wideText = .ok wideLexemes := by
  simp [wideText, wideLexemes, scan, scanFrom_cons, scanFrom_nil, Scan.next?, isBlank,
    Scan.isWordStart, Scan.isWordChar, Scan.word, Scan.wordToken, Scan.symbol?, Scan.opensCall,
    trimLeft, Keyword.ofWord?, Keyword.all, Keyword.spelling, String.toUpper,
    String.map_eq_internal, byteLength, Except.map, Char.utf8Size]

def wideError : SyntaxError := .parse ⟨.unexpected .expression .rightParen, 19⟩

theorem parse_wideText : parse wideText = .error wideError := by
  rw [parse, scan_wideText]
  rfl

theorem error_in_context_wideText :
    parse wideText = .error wideError ∧
      wideError.inContext wideText =
        "\u3000a > )\n     ^\nparse error at position 19: expected expression, found ')'" ∧
      Checked.pointAt wideText.toList 19 wideError.message =
        some (wideError.inContext wideText) ∧
      ∃ above start finish below, Cut wideText.toList above start finish below ∧
        19 = byteLength (above ++ start) ∧ (start ++ finish)[start.length]? = some ')' := by
  obtain ⟨above, start, finish, below, hcut, hposition, -, hchecked, -, hgoesOn, hcolumn⟩ :=
    error_in_context wideText wideError (.inl parse_wideText)
  refine ⟨parse_wideText, by decide +kernel, hchecked, above, start, finish, below, hcut, hposition,
    ?_⟩
  rw [hcolumn]
  generalize finish ++ below = rest at hgoesOn
  cases hgoesOn with
  | token hscanned hmem hspells =>
      cases hspells
      rfl
  | stop hscanned hmem hended => exact nomatch hended

end Backtest.Proofs.ErrorContext
