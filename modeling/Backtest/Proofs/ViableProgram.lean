import Backtest.Proofs.DerivationRun

namespace Backtest.Proofs.ViableProgram

open Backtest.Rule
open Backtest.Proofs.Grammar
open Backtest.Proofs.ViablePrefix
open Backtest.Proofs.DerivationRun

/-- A side stays fresh while its block is being read. -/
inductive ProgramPrefix
  | header (done : Program)
  | colon (done : Program) (side : Side) (hfresh : side ∉ done.sides)
  | body (done : Program) (side : Side) (hfresh : side ∉ done.sides)
  | inside (done : Program) (side : Side) (hfresh : side ∉ done.sides)
      (front : ExpressionPrefix)

namespace ProgramPrefix

def start : ProgramPrefix := header Program.empty

def state : ProgramPrefix → ProgramState
  | header done => .header done.rules
  | colon done side _ => .colon side done.rules
  | body done side _ => .body side done.rules
  | inside done side _ front => .inside side done.rules front.state

def tokens : ProgramPrefix → List Token
  | header done => done.tokens
  | colon done side _ => done.tokens ++ [.keyword (sideKeyword side)]
  | body done side _ => done.tokens ++ [.keyword (sideKeyword side), .colon]
  | inside done side _ front =>
      done.tokens ++ .keyword (sideKeyword side) :: .colon :: front.tokens

def whole? : ProgramPrefix → Option Program
  | header done => some done
  | inside done side hfresh front => front.whole?.map (done.add side hfresh)
  | _ => none

def begin (done : Program) (side : Side) : Option ProgramPrefix :=
  if hfresh : side ∉ done.sides then some (colon done side hfresh) else none

def feedHeader (done : Program) : Token → Option ProgramPrefix
  | .keyword .entry => begin done .entry
  | .keyword .exit => begin done .exit
  | _ => none

def feedInside (done : Program) (side : Side) (hfresh : side ∉ done.sides)
    (front : ExpressionPrefix) (token : Token) : Option ProgramPrefix :=
  match front.feed token with
  | some next => some (inside done side hfresh next)
  | none =>
      match front.whole? with
      | some expression => feedHeader (done.add side hfresh expression) token
      | none => none

def feed : ProgramPrefix → Token → Option ProgramPrefix
  | header done, token => feedHeader done token
  | colon done side hfresh, .colon => some (body done side hfresh)
  | colon _ _ _, _ => none
  | body done side hfresh, token =>
      feedInside done side hfresh ExpressionPrefix.start token
  | inside done side hfresh front, token =>
      feedInside done side hfresh front token

theorem finish_state (front : ProgramPrefix) (position : Nat) :
    (front.state.finish position).toOption =
      front.whole?.map Program.rules := by
  cases front with
  | header done => rfl
  | colon done side hfresh => rfl
  | body done side hfresh => rfl
  | inside done side hfresh front =>
      rw [state, ProgramState.finish, whole?, ExpressionPrefix.whole?_state]
      cases front.whole? with
      | none => rfl
      | some expression =>
          exact congrArg some (done.rules_add side hfresh expression).symm

theorem feedHeader_state (done : Program) (lexeme : Lexeme) :
    (ProgramState.feedHeader done.rules lexeme).toOption =
      (feedHeader done lexeme.token).map state := by
  have hopening (side : Side) :
      (if (done.rules.get side).isSome then
        Except.error (ParseError.mk (.duplicateBlock side) lexeme.position)
      else .ok (ProgramState.colon side done.rules)).toOption =
        (begin done side).map state := by
    rw [Program.get_rules]
    unfold begin
    by_cases hpresent : side ∈ done.sides
    · rw [if_pos ((done.isSome_rule? side).mpr hpresent), dif_neg (not_not_intro hpresent)]
      rfl
    · rw [if_neg (mt (done.isSome_rule? side).mp hpresent), dif_pos hpresent]
      rfl
  obtain ⟨token, position⟩ := lexeme
  cases token with
  | keyword word =>
      cases word with
      | entry => exact hopening .entry
      | exit => exact hopening .exit
      | and => rfl
      | or => rfl
  | _ => rfl

theorem eq_operator_of_chained {state : ExprState} {token : Token}
    {op : CompareOp} (hrefused : state.feed token = .error (.chained op)) :
    token = .operator op := by
  have hoperand (enclosures : List Enclosure) (level : Level) :
      ExprState.feedOperand enclosures level token ≠ .error (.chained op) := by
    cases token <;> intro hrefused <;> exact nomatch hrefused
  cases state with
  | operand enclosures level => exact absurd hrefused (hoperand enclosures level)
  | calling enclosures level name =>
      cases token <;> exact nomatch hrefused
  | firstArgument enclosures level name =>
      cases token with
      | rightParen => exact nomatch hrefused
      | _ => exact absurd hrefused (hoperand (.call level name [] :: enclosures) {})
  | complete enclosures level last =>
      cases token with
      | operator other =>
          obtain ⟨alternatives, conditions, _ | comparison⟩ := level
          · exact nomatch hrefused
          · obtain rfl := Refusal.chained.inj (Except.error.inj hrefused)
            rfl
      | keyword word => cases word <;> exact nomatch hrefused
      | rightParen =>
          rcases enclosures with _ | ⟨outer | outer, enclosures⟩ <;>
            exact nomatch hrefused
      | comma =>
          rcases enclosures with _ | ⟨outer | outer, enclosures⟩ <;>
            exact nomatch hrefused
      | _ => exact nomatch hrefused

theorem feedInside_state (done : Program) (side : Side)
    (hfresh : side ∉ done.sides) (front : ExpressionPrefix) (lexeme : Lexeme) :
    (ProgramState.feedInside side done.rules front.state lexeme).toOption =
      (feedInside done side hfresh front lexeme.token).map state := by
  have hstep := front.feed_state lexeme.token
  unfold ProgramState.feedInside feedInside
  cases houtcome : front.state.feed lexeme.token with
  | ok next =>
      rw [houtcome] at hstep
      obtain ⟨next', hfed, rfl⟩ := Option.map_eq_some_iff.mp hstep.symm
      rw [hfed]
      rfl
  | error refusal =>
      rw [houtcome] at hstep
      rw [Option.map_eq_none_iff.mp hstep.symm]
      cases refusal with
      | chained op =>
          -- an operator opens no block either, so what is whole makes no difference
          rw [eq_operator_of_chained houtcome]
          cases front.whole? <;> rfl
      | foreign =>
          simp only [ExpressionPrefix.whole?_state]
          cases front.whole? with
          | none => rfl
          | some expression =>
              have hheader :=
                feedHeader_state (done.add side hfresh expression) lexeme
              rw [Program.rules_add] at hheader
              exact hheader

theorem feed_state (front : ProgramPrefix) (lexeme : Lexeme) :
    (front.state.feed lexeme).toOption =
      (front.feed lexeme.token).map state := by
  cases front with
  | header done => exact feedHeader_state done lexeme
  | colon done side hfresh =>
      obtain ⟨token, position⟩ := lexeme
      cases token <;> rfl
  | body done side hfresh =>
      have hinner :=
        feedInside_state done side hfresh ExpressionPrefix.start lexeme
      obtain ⟨token, position⟩ := lexeme
      cases token with
      | keyword word =>
          cases word with
          | entry => rfl
          | exit => rfl
          | and => rfl
          | or => rfl
      | _ => exact hinner
  | inside done side hfresh front =>
      exact feedInside_state done side hfresh front lexeme

theorem tokens_feedHeader {done : Program} {token : Token}
    {next : ProgramPrefix} (hstep : feedHeader done token = some next) :
    next.tokens = done.tokens ++ [token] := by
  have hopening (side : Side) (hopened : begin done side = some next) :
      next.tokens = done.tokens ++ [.keyword (sideKeyword side)] := by
    unfold begin at hopened
    split at hopened
    · obtain rfl := Option.some.inj hopened
      rfl
    · exact nomatch hopened
  cases token with
  | keyword word =>
      cases word with
      | entry => exact hopening .entry hstep
      | exit => exact hopening .exit hstep
      | and => exact nomatch hstep
      | or => exact nomatch hstep
  | _ => exact nomatch hstep

theorem tokens_feedInside {done : Program} {side : Side}
    {hfresh : side ∉ done.sides} {front : ExpressionPrefix} {token : Token}
    {next : ProgramPrefix}
    (hstep : feedInside done side hfresh front token = some next) :
    next.tokens =
      done.tokens ++ .keyword (sideKeyword side) :: .colon :: front.tokens ++
        [token] := by
  unfold feedInside at hstep
  split at hstep
  · next inner hfed =>
      obtain rfl := Option.some.inj hstep
      simp [tokens, ExpressionPrefix.tokens_feed hfed]
  · split at hstep
    · next expression hwhole =>
        rw [tokens_feedHeader hstep, Program.tokens_add,
          ExpressionPrefix.tokens_whole? hwhole]
    · exact nomatch hstep

theorem tokens_feed {front next : ProgramPrefix} {token : Token}
    (hstep : front.feed token = some next) :
    next.tokens = front.tokens ++ [token] := by
  cases front with
  | header done => exact tokens_feedHeader hstep
  | colon done side hfresh =>
      cases token with
      | colon =>
          obtain rfl := Option.some.inj hstep
          simp [tokens]
      | _ => exact nomatch hstep
  | body done side hfresh => exact tokens_feedInside hstep
  | inside done side hfresh front => exact tokens_feedInside hstep

theorem tokens_whole? {front : ProgramPrefix} {program : Program}
    (hwhole : front.whole? = some program) : front.tokens = program.tokens := by
  cases front with
  | header done =>
      obtain rfl := Option.some.inj hwhole
      rfl
  | inside done side hfresh front =>
      obtain ⟨expression, hinner, rfl⟩ := Option.map_eq_some_iff.mp hwhole
      rw [Program.tokens_add, tokens, ExpressionPrefix.tokens_whole? hinner]
  | _ => exact nomatch hwhole

theorem feedAll_inside (done : Program) (side : Side)
    (hfresh : side ∉ done.sides) {front next : ExpressionPrefix}
    {tokens : List Token} (hrun : feedAll ExpressionPrefix.feed front tokens = some next) :
    feedAll feed (inside done side hfresh front) tokens =
      some (inside done side hfresh next) := by
  induction tokens generalizing front with
  | nil =>
      obtain rfl := Option.some.inj hrun
      rfl
  | cons token rest ih =>
      rw [feedAll_cons] at hrun
      obtain ⟨middle, hstep, hrun⟩ := Option.bind_eq_some_iff.mp hrun
      rw [feedAll_cons, feed, feedInside, hstep]
      exact ih hrun

theorem feed_sideKeyword {front : ProgramPrefix} {done : Program} {side : Side}
    (hwhole : front.whole? = some done) (hfresh : side ∉ done.sides) :
    front.feed (.keyword (sideKeyword side)) = some (colon done side hfresh) := by
  have hopening :
      feedHeader done (.keyword (sideKeyword side)) =
        some (colon done side hfresh) := by
    cases side <;> exact dif_pos hfresh
  cases front with
  | header earlier =>
      obtain rfl := Option.some.inj hwhole
      exact hopening
  | inside earlier side' hfresh' front =>
      obtain ⟨expression, hinner, rfl⟩ := Option.map_eq_some_iff.mp hwhole
      -- only a whole expression gives up the keyword to the next block
      have hrefused : front.feed (.keyword (sideKeyword side)) = none := by
        rcases front with _ | _ | _ | ⟨_ | _, level, last⟩
        case complete.nil => cases side <;> rfl
        all_goals exact nomatch hinner
      rw [feed, feedInside, hrefused, hinner]
      exact hopening
  | _ => exact nomatch hwhole

theorem feedAll_block {front : ProgramPrefix} {done : Program}
    (hwhole : front.whole? = some done) (block : Block)
    (hfresh : block.side ∉ done.sides) :
    ∃ next, feedAll feed front block.tokens = some next ∧
      next.whole? = some (done.add block.side hfresh block.body) := by
  obtain ⟨final, hrun, hinner⟩ := (DerivationRun.feedAll_start_iff _ block.body).mpr rfl
  refine ⟨inside done block.side hfresh final, ?_, ?_⟩
  · rw [Block.tokens, feedAll_cons, feed_sideKeyword hwhole hfresh,
      Option.bind_some, feedAll_cons, feed, Option.bind_some]
    obtain ⟨token, rest, hsplit⟩ :=
      List.exists_cons_of_ne_nil block.body.tokens_ne_nil
    rw [hsplit, feedAll_cons] at hrun
    obtain ⟨middle, hstep, hrun⟩ := Option.bind_eq_some_iff.mp hrun
    rw [hsplit, feedAll_cons, feed, feedInside, hstep]
    exact feedAll_inside done block.side hfresh hrun
  · rw [whole?, hinner]
    rfl

theorem feedAll_blocks {front : ProgramPrefix} {done : Program}
    (hwhole : front.whole? = some done) (blocks : List Block)
    (hdistinct : ((done.blocks ++ blocks).map Block.side).Nodup) :
    ∃ final, feedAll feed front (blocks.flatMap Block.tokens) = some final ∧
      final.whole? = some ⟨done.blocks ++ blocks, hdistinct⟩ := by
  induction blocks generalizing front done with
  | nil =>
      refine ⟨front, rfl, ?_⟩
      rw [hwhole]
      simp
  | cons block rest ih =>
      have hfresh : block.side ∉ done.sides := by
        intro hmem
        rw [List.map_append, List.nodup_append] at hdistinct
        exact hdistinct.2.2 _ hmem _ List.mem_cons_self rfl
      obtain ⟨next, hrun, hnextWhole⟩ := feedAll_block hwhole block hfresh
      have hsplit : done.blocks ++ block :: rest =
          (done.add block.side hfresh block.body).blocks ++ rest :=
        List.append_cons _ _ _
      simp only [hsplit] at hdistinct ⊢
      obtain ⟨final, hrun', hfinalWhole⟩ := ih hnextWhole hdistinct
      refine ⟨final, ?_, hfinalWhole⟩
      rw [List.flatMap_cons, feedAll_append, hrun]
      exact hrun'

theorem feedAll_start_iff (tokens : List Token) (program : Program) :
    (∃ final, feedAll feed start tokens = some final ∧
        final.whole? = some program) ↔
      program.tokens = tokens := by
  constructor
  · rintro ⟨final, hrun, hwhole⟩
    rw [← tokens_whole? hwhole]
    exact tokens_feedAll tokens_feed hrun
  · rintro rfl
    have hempty : start.whole? = some Program.empty := rfl
    exact feedAll_blocks hempty program.blocks program.distinct

theorem tokens_injective {first second : Program}
    (hsame : first.tokens = second.tokens) : first = second := by
  obtain ⟨final, hrun, hwhole⟩ := (feedAll_start_iff _ first).mpr hsame
  obtain ⟨final', hrun', hwhole'⟩ := (feedAll_start_iff _ second).mpr rfl
  obtain rfl := Option.some.inj (hrun.symm.trans hrun')
  exact Option.some.inj (hwhole.symm.trans hwhole')

end ProgramPrefix

end Backtest.Proofs.ViableProgram
