import Mathlib.Data.List.Chain
import Backtest.Proofs.Spelling
import Backtest.Rule.Tree.Parse

namespace Backtest.Proofs.CallParenthesis

open Backtest.Rule
open Backtest.Text
open Backtest.Proofs.Outcome
open Backtest.Proofs.Scanner
open Backtest.Proofs.Spelling

variable {c : Char} {rest text : List Char} {piece : Scan.Piece} {byte : Nat}

/-- A parenthesis follows the name of a function. -/
def Opens (first second : Lexeme) : Prop :=
  ∀ name, first.token = .function name → second.token = .leftParen

theorem opensCall_cons (h : Scan.opensCall (c :: rest) = true) :
    isBlank c = true ∧ Scan.opensCall rest = true ∨ c = '(' := by
  cases hblank : isBlank c with
  | true => exact .inl ⟨rfl, by simpa [Scan.opensCall, trimLeft, hblank] using h⟩
  | false => exact .inr (by simpa [Scan.opensCall, trimLeft, hblank] using h)

/-- In a scanned text the name of a function stands before a parenthesis. -/
theorem isChain_scanFrom {lexemes : List Lexeme}
    (hscanned : Scan.scanFrom byte text = .ok lexemes) :
    lexemes.IsChain Opens ∧ (Scan.opensCall text = true →
      ∃ first ∈ lexemes.head?, first.token = .leftParen) := by
  fun_induction Scan.scanFrom byte text generalizing lexemes with
  | case1 byte =>
      cases hscanned
      exact ⟨List.isChain_singleton _, fun hcall => absurd hcall Bool.false_ne_true⟩
  | case2 byte c rest hnone => cases hscanned
  | case3 byte c rest piece hpiece following token htoken =>
      rename_i ih
      obtain ⟨tail, hfollowing, rfl⟩ := map_eq_ok.mp hscanned
      obtain ⟨hchain, hopens⟩ := ih hfollowing
      refine ⟨List.isChain_cons.mpr ⟨fun next hnext name hname => ?_, hchain⟩, fun hcall => ?_⟩
      · obtain rfl : token = .function name := hname
        obtain ⟨first, hfirst, hparen⟩ := hopens (opensCall_iff.mpr (callAhead_next? hpiece htoken))
        obtain rfl := Option.some.inj (hfirst.symm.trans hnext)
        exact hparen
      · refine ⟨_, rfl, ?_⟩
        rcases opensCall_cons hcall with ⟨hblank, -⟩ | rfl
        · rw [Scan.next?, if_pos hblank] at hpiece
          cases hpiece
          cases htoken
        · cases hpiece
          cases htoken
          rfl
  | case4 byte c rest piece hpiece following hblank =>
      rename_i ih
      obtain ⟨hchain, hopens⟩ := ih hscanned
      refine ⟨hchain, fun hcall => hopens ?_⟩
      rcases opensCall_cons hcall with ⟨hc, hrest⟩ | rfl
      · rw [Scan.next?, if_pos hc] at hpiece
        cases hpiece
        exact hrest
      · cases hpiece
        cases hblank

theorem exists_leftParen {source name : String} {lexemes : List Lexeme} {index position : Nat}
    (hscan : scan source = .ok lexemes)
    (hname : lexemes[index]? = some ⟨.function name, position⟩) :
    ∃ next, lexemes[index + 1]? = some ⟨.leftParen, next⟩ := by
  obtain ⟨hchain, -⟩ := isChain_scanFrom hscan
  obtain ⟨front, last, rfl, -⟩ := scan_eq_append hscan
  obtain ⟨hindex, hfirst⟩ := List.getElem?_eq_some_iff.mp hname
  have hinside : index < front.length := by
    rw [List.length_append, List.length_singleton] at hindex
    refine Nat.lt_of_le_of_ne (Nat.le_of_lt_succ hindex) fun hlast => ?_
    rw [List.getElem_append_right (Nat.le_of_eq hlast.symm)] at hfirst
    simp at hfirst
  have hnext : index + 1 < (front ++ [Lexeme.mk .stop last]).length := by
    rw [List.length_append, List.length_singleton]
    omega
  have hparen := List.isChain_iff_getElem.mp hchain index hnext name (congrArg Lexeme.token hfirst)
  rw [← hparen]
  exact ⟨_, List.getElem?_eq_getElem hnext⟩

def AwaitsCall (state : ProgramState) : Prop :=
  ∃ side done enclosures level name, state = .inside side done (.calling enclosures level name)

theorem function_of_feedOperand {enclosures enclosures' : List Enclosure} {level level' : Level}
    {name : String} {token : Token}
    (h : ExprState.feedOperand enclosures level token = .ok (.calling enclosures' level' name)) :
    ∃ name, token = .function name := by
  cases token with
  | function name => exact ⟨name, rfl⟩
  | _ => cases h

theorem function_of_feed {state : ExprState} {enclosures : List Enclosure} {level : Level}
    {name : String} {token : Token}
    (h : state.feed token = .ok (.calling enclosures level name)) :
    ∃ name, token = .function name := by
  unfold ExprState.feed at h
  split at h
  · exact function_of_feedOperand h
  · cases h
  · cases h
  · cases h
  · exact function_of_feedOperand h
  · -- after an operand, no token leads to a call
    unfold ExprState.feedComplete at h
    split at h
    · split at h <;> cases h
    · cases h
    · cases h
    · unfold ExprState.feedRightParen at h
      split at h <;> cases h
    · unfold ExprState.feedComma at h
      split at h <;> cases h
    · cases h

theorem feedHeader_cases (done : RuleSet Tree) (lexeme : Lexeme) :
    (∃ side, ProgramState.feedHeader done lexeme = .ok (.colon side done)) ∨
      (∃ side, ProgramState.feedHeader done lexeme =
        .error ⟨.duplicateBlock side, lexeme.position⟩) ∨
      ProgramState.feedHeader done lexeme =
        .error ⟨.unexpected (.block done.isEmpty) lexeme.token, lexeme.position⟩ := by
  unfold ProgramState.feedHeader
  dsimp only
  split
  · split
    · exact .inr (.inl ⟨_, rfl⟩)
    · exact .inl ⟨_, rfl⟩
  · split
    · exact .inr (.inl ⟨_, rfl⟩)
    · exact .inl ⟨_, rfl⟩
  · exact .inr (.inr rfl)

theorem not_awaitsCall_of_feedHeader {done : RuleSet Tree} {lexeme : Lexeme} {next : ProgramState}
    (h : ProgramState.feedHeader done lexeme = .ok next) : ¬AwaitsCall next := by
  rintro ⟨side, done', enclosures, level, name, rfl⟩
  rcases feedHeader_cases done lexeme with ⟨side', h'⟩ | ⟨side', h'⟩ | h'
  all_goals cases h.symm.trans h'

theorem function_of_feedInside {side : Side} {done : RuleSet Tree} {state : ExprState}
    {lexeme : Lexeme} {next : ProgramState}
    (h : ProgramState.feedInside side done state lexeme = .ok next) (hnext : AwaitsCall next) :
    ∃ name, lexeme.token = .function name := by
  unfold ProgramState.feedInside at h
  split at h
  · next inner hfeed =>
      obtain ⟨side', done', enclosures, level, name, rfl⟩ := hnext
      cases h
      exact function_of_feed hfeed
  · cases h
  · split at h
    · exact absurd hnext (not_awaitsCall_of_feedHeader h)
    · cases h

theorem function_of_awaitsCall {state next : ProgramState} {lexeme : Lexeme}
    (h : state.feed lexeme = .ok next) (hnext : AwaitsCall next) :
    ∃ name, lexeme.token = .function name := by
  cases state with
  | header done => exact absurd hnext (not_awaitsCall_of_feedHeader h)
  | colon side done =>
      rw [ProgramState.feed] at h
      split at h
      · cases h
        obtain ⟨_, _, _, _, _, hinside⟩ := hnext
        cases hinside
      · cases h
  | body side done =>
      rw [ProgramState.feed] at h
      split at h
      · cases h
      · cases h
      · exact function_of_feedInside h hnext
  | inside side done state => exact function_of_feedInside h hnext

variable {found : Token} {position : Nat}

theorem calling_of_refuse {β : Type} {state : ExprState} {lexeme : Lexeme}
    (h : (ProgramState.refuse state.expectation lexeme : Except ParseError β) =
      .error ⟨.unexpected .leftParen found, position⟩) :
    ∃ enclosures level name, state = .calling enclosures level name := by
  unfold ExprState.expectation at h
  split at h
  · exact ⟨_, _, _, rfl⟩
  · cases h
  · cases h
  · cases h

theorem feedHeader_ne_missing (done : RuleSet Tree) (lexeme : Lexeme) :
    ProgramState.feedHeader done lexeme ≠ .error ⟨.unexpected .leftParen found, position⟩ := by
  intro h
  rcases feedHeader_cases done lexeme with ⟨side, h'⟩ | ⟨side, h'⟩ | h'
  all_goals cases h.symm.trans h'

theorem awaitsCall_of_feedInside {side : Side} {done : RuleSet Tree} {state : ExprState}
    {lexeme : Lexeme} (h : ProgramState.feedInside side done state lexeme =
      .error ⟨.unexpected .leftParen found, position⟩) :
    AwaitsCall (.inside side done state) ∧ lexeme.token ≠ .leftParen := by
  unfold ProgramState.feedInside at h
  split at h
  · cases h
  · cases h
  · next hfeed =>
      split at h
      · exact absurd h (feedHeader_ne_missing _ lexeme)
      · obtain ⟨enclosures, level, name, rfl⟩ := calling_of_refuse h
        refine ⟨⟨_, _, _, _, _, rfl⟩, fun hparen => ?_⟩
        rw [hparen] at hfeed
        cases hfeed

theorem awaitsCall_of_feed {state : ProgramState} {lexeme : Lexeme}
    (h : state.feed lexeme = .error ⟨.unexpected .leftParen found, position⟩) :
    AwaitsCall state ∧ lexeme.token ≠ .leftParen := by
  cases state with
  | header done => exact absurd h (feedHeader_ne_missing done lexeme)
  | colon side done =>
      rw [ProgramState.feed] at h
      split at h <;> cases h
  | body side done =>
      rw [ProgramState.feed] at h
      split at h
      · cases h
      · cases h
      · obtain ⟨⟨_, _, _, _, _, hstart⟩, -⟩ := awaitsCall_of_feedInside h
        cases hstart
  | inside side done state => exact awaitsCall_of_feedInside h

theorem awaitsCall_of_finish {state : ProgramState} {last : Nat}
    (h : state.finish last = .error ⟨.unexpected .leftParen found, position⟩) :
    AwaitsCall state := by
  cases state with
  | header done => cases h
  | colon side done => cases h
  | body side done => cases h
  | inside side done state =>
      rw [ProgramState.finish] at h
      split at h
      · cases h
      · obtain ⟨enclosures, level, name, rfl⟩ := calling_of_refuse h
        exact ⟨_, _, _, _, _, rfl⟩

theorem run_cons {lexeme : Lexeme} (hproper : lexeme.token ≠ .stop) (state : ProgramState)
    (rest : List Lexeme) :
    state.run (lexeme :: rest) = state.feed lexeme >>= fun next => next.run rest := by
  rw [ProgramState.run]
  split
  · next hstop => exact absurd hstop hproper
  · rfl

/-- The invariant is that a parenthesis is next wherever the parser waits for one. -/
theorem run_ne_missing {front : List Lexeme} {last : Nat}
    (hchain : List.IsChain Opens (front ++ [⟨.stop, last⟩]))
    (hproper : ∀ lexeme ∈ front, lexeme.token ≠ .stop) {state : ProgramState}
    (hnext : AwaitsCall state →
      ∃ first ∈ List.head? (front ++ [⟨.stop, last⟩]), first.token = .leftParen) :
    state.run (front ++ [⟨.stop, last⟩]) ≠ .error ⟨.unexpected .leftParen found, position⟩ := by
  induction front generalizing state with
  | nil =>
      intro h
      obtain ⟨first, ⟨⟩, hparen⟩ := hnext (awaitsCall_of_finish h)
      cases hparen
  | cons lexeme front ih =>
      intro h
      obtain ⟨hfirst, hproper⟩ := List.forall_mem_cons.mp hproper
      obtain ⟨hopens, hchain⟩ := List.isChain_cons.mp hchain
      rw [List.cons_append, run_cons hfirst] at h
      rcases bind_eq_error.mp h with hfeed | ⟨next, hfeed, h⟩
      · obtain ⟨hawaits, hnot⟩ := awaitsCall_of_feed hfeed
        obtain ⟨first, hhead, hparen⟩ := hnext hawaits
        obtain rfl := Option.some.inj hhead
        exact hnot hparen
      · refine ih hchain hproper (fun hawaits => ?_) h
        obtain ⟨name, hname⟩ := function_of_awaitsCall hfeed hawaits
        obtain ⟨second, hsecond⟩ :
            ∃ second, List.head? (front ++ [⟨.stop, last⟩]) = some second := by
          cases front <;> exact ⟨_, rfl⟩
        exact ⟨second, hsecond, hopens second hsecond name hname⟩

theorem parse_ne_missing (source : String) :
    Rule.parse source ≠ .error (.parse ⟨.unexpected .leftParen found, position⟩) := by
  intro h
  rcases bind_eq_error.mp h with hscan | ⟨lexemes, hscan, h⟩
  · obtain ⟨cause, -, ⟨⟩⟩ := mapError_eq_error.mp hscan
  · obtain ⟨error, hrun, ⟨⟩⟩ := mapError_eq_error.mp h
    have hscanned := mapError_eq_ok.mp hscan
    obtain ⟨front, last, rfl, hproper⟩ := scan_eq_append hscanned
    refine run_ne_missing (isChain_scanFrom hscanned).1 hproper ?_ hrun
    rintro ⟨_, _, _, _, _, hheader⟩
    cases hheader

end Backtest.Proofs.CallParenthesis
