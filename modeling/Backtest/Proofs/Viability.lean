import Mathlib.Data.List.Infix
import Backtest.Proofs.Spelling
import Backtest.Proofs.ViableProgram

/-!
What the parser has read can always be completed, and what it refuses never can. A state that some
tokens lead to needs only an operand and closing parentheses to become whole, so these tokens begin
a derivation; if it refuses a token, no derivation goes on with that token. The tokens of a
derivation also classify its words: exactly the names of functions stand before parentheses.
-/

namespace Backtest.Proofs.Viability

open Backtest.Rule
open Backtest.Proofs.Grammar
open Backtest.Proofs.ViablePrefix
open Backtest.Proofs.ViableProgram
open Backtest.Proofs.Spelling

/-- Some derivation begins with the tokens. The end of the text counts as its last token. -/
def Begins {δ : Type} (derived : δ → List Token) (tokens : List Token) : Prop :=
  ∃ derivation, tokens <+: derived derivation ++ [.stop]

theorem Begins.of_prefix {δ : Type} {derived : δ → List Token} {front tokens : List Token}
    (hbegins : Begins derived tokens) (hshorter : front <+: tokens) : Begins derived front :=
  let ⟨derivation, hwritten⟩ := hbegins
  ⟨derivation, hshorter.trans hwritten⟩

section Machine

variable {σ δ : Type} {step : σ → Token → Option σ} {whole? : σ → Option δ} {start : σ}
  {derived : δ → List Token}

theorem begins_of_completion {tokens rest : List Token} {front final : σ} {derivation : δ}
    (haccepts : ∀ tokens derivation,
      (∃ final, tokens.foldlM step start = some final ∧ whole? final = some derivation) ↔
        derived derivation = tokens)
    (hrun : tokens.foldlM step start = some front)
    (hcompleted : rest.foldlM step front = some final)
    (hwhole : whole? final = some derivation) : Begins derived tokens := by
  refine ⟨derivation, ?_⟩
  have hall : (tokens ++ rest).foldlM step start = some final := by
    rw [List.foldlM_append, hrun]
    exact hcompleted
  rw [(haccepts _ derivation).mp ⟨final, hall, hwhole⟩, List.append_assoc]
  exact List.prefix_append _ _

theorem not_begins_of_refused {tokens : List Token} {token : Token} {front : σ}
    (haccepts : ∀ tokens derivation,
      (∃ final, tokens.foldlM step start = some final ∧ whole? final = some derivation) ↔
        derived derivation = tokens)
    (hrun : tokens.foldlM step start = some front) (hrefused : step front token = none)
    (hunfinished : token = .stop → whole? front = none) :
    ¬Begins derived (tokens ++ [token]) := by
  rintro ⟨derivation, hwritten⟩
  obtain ⟨final, hall, hwhole⟩ := (haccepts _ derivation).mpr rfl
  rcases List.prefix_concat_iff.mp hwritten with hsame | ⟨rest, hsame⟩
  · obtain ⟨hsame, hlast⟩ := List.append_inj' hsame rfl
    obtain rfl := Option.some.inj (hrun.symm.trans (hsame ▸ hall))
    exact nomatch hwhole.symm.trans (hunfinished (List.cons.inj hlast).1)
  · rw [← hsame, List.append_assoc, List.foldlM_append, hrun] at hall
    change (token :: rest).foldlM step front = some final at hall
    rw [List.foldlM_cons, hrefused] at hall
    exact nomatch hall

/-- Words that are classified where one token follows another are classified in a whole run. -/
theorem isChain_of_run
    (hsteps : ∀ {front next after : σ} {token following : Token},
      step front token = some next → step next following = some after →
        Classified token following)
    (hends : ∀ {front next : σ} {token : Token} {derivation : δ},
      step front token = some next → whole? next = some derivation →
        Classified token .stop)
    {tokens : List Token} {front final : σ} {derivation : δ}
    (hrun : tokens.foldlM step front = some final)
    (hwhole : whole? final = some derivation) :
    List.IsChain Classified (tokens ++ [.stop]) := by
  induction tokens generalizing front with
  | nil => exact List.isChain_singleton _
  | cons token rest ih =>
      rw [List.foldlM_cons] at hrun
      obtain ⟨next, hfirst, hrun⟩ := Option.bind_eq_some_iff.mp hrun
      have htail := ih hrun
      cases rest with
      | nil =>
          obtain rfl := Option.some.inj hrun
          exact List.isChain_pair.mpr (hends hfirst hwhole)
      | cons following rest =>
          rw [List.foldlM_cons] at hrun
          obtain ⟨after, hsecond, -⟩ := Option.bind_eq_some_iff.mp hrun
          exact List.isChain_cons_cons.mpr ⟨hsteps hfirst hsecond, htail⟩

end Machine

/-- Tokens that complete whatever has been read. -/
def fillers : List Token := [.identifier "a", .leftParen, .rightParen, .colon]

namespace ExpressionPrefix

open Backtest.Proofs.ViablePrefix.ExpressionPrefix

theorem feed_stop (front : ExpressionPrefix) : front.feed .stop = none := by
  cases front <;> rfl

theorem exists_closing (enclosures : List EnclosurePrefix) (level : LevelPrefix)
    (last : Operand) :
    ∃ rest final expression, rest ⊆ fillers ∧
      feedAll feed (complete enclosures level last) rest = some final ∧
      final.whole? = some expression := by
  induction enclosures generalizing level last with
  | nil => exact ⟨[], _, level.closed last, List.nil_subset _, rfl, rfl⟩
  | cons enclosure outer ih =>
      have hclosing : ∃ level' last',
          (complete (enclosure :: outer) level last).feed .rightParen =
            some (complete outer level' last') := by
        cases enclosure <;> exact ⟨_, _, rfl⟩
      obtain ⟨level', last', hclosing⟩ := hclosing
      obtain ⟨rest, final, expression, hfills, hrun, hwhole⟩ := ih level' last'
      refine ⟨.rightParen :: rest, final, expression, ?_, ?_, hwhole⟩
      · exact List.cons_subset.mpr ⟨by simp [fillers], hfills⟩
      · rw [feedAll_cons, hclosing]
        exact hrun

theorem exists_completion (front : ExpressionPrefix) :
    ∃ rest final expression, rest ⊆ fillers ∧
      feedAll feed front rest = some final ∧ final.whole? = some expression := by
  have hafter (first : List Token) (hfills : first ⊆ fillers)
      {enclosures : List EnclosurePrefix} {level : LevelPrefix} {last : Operand}
      (hrun : feedAll feed front first = some (complete enclosures level last)) :
      ∃ rest final expression, rest ⊆ fillers ∧
        feedAll feed front rest = some final ∧ final.whole? = some expression := by
    obtain ⟨rest, final, expression, hfills', hrun', hwhole⟩ :=
      exists_closing enclosures level last
    refine ⟨first ++ rest, final, expression, List.append_subset.mpr ⟨hfills, hfills'⟩,
      ?_, hwhole⟩
    rw [feedAll_append, hrun]
    exact hrun'
  cases front with
  | operand enclosures level =>
      exact hafter [.identifier "a"] (by simp [fillers]) rfl
  | calling enclosures level name =>
      exact hafter [.leftParen, .rightParen] (by simp [fillers]) rfl
  | firstArgument enclosures level name =>
      exact hafter [.rightParen] (by simp [fillers]) rfl
  | complete enclosures level last =>
      exact exists_closing enclosures level last

theorem eq_calling_of_feed {front next : ExpressionPrefix} {name : String}
    (hstep : front.feed (.function name) = some next) :
    ∃ enclosures level, next = calling enclosures level name := by
  cases front with
  | operand enclosures level => exact ⟨_, _, (Option.some.inj hstep).symm⟩
  | firstArgument enclosures level outer => exact ⟨_, _, (Option.some.inj hstep).symm⟩
  | _ => exact nomatch hstep

theorem eq_complete_of_feed {front next : ExpressionPrefix} {name : String}
    (hstep : front.feed (.identifier name) = some next) :
    ∃ enclosures level, next = complete enclosures level (.identifier name) := by
  cases front with
  | operand enclosures level => exact ⟨_, _, (Option.some.inj hstep).symm⟩
  | firstArgument enclosures level outer => exact ⟨_, _, (Option.some.inj hstep).symm⟩
  | _ => exact nomatch hstep

theorem classified_feed {front next after : ExpressionPrefix} {token following : Token}
    (hfirst : front.feed token = some next) (hsecond : next.feed following = some after) :
    Classified token following := by
  cases token with
  | function name =>
      obtain ⟨enclosures, level, rfl⟩ := eq_calling_of_feed hfirst
      cases following with
      | leftParen => rfl
      | _ => exact nomatch hsecond
  | identifier name =>
      obtain ⟨enclosures, level, rfl⟩ := eq_complete_of_feed hfirst
      rintro rfl
      exact nomatch hsecond
  | _ => trivial

theorem classified_whole? {front next : ExpressionPrefix} {token : Token}
    {expression : Expression} (hstep : front.feed token = some next)
    (hwhole : next.whole? = some expression) : Classified token .stop := by
  cases token with
  | function name =>
      obtain ⟨enclosures, level, rfl⟩ := eq_calling_of_feed hstep
      exact nomatch hwhole
  | identifier name => exact nofun
  | _ => trivial

theorem isChain_tokens (expression : Expression) :
    List.IsChain Classified (expression.tokens ++ [.stop]) := by
  obtain ⟨final, hrun, hwhole⟩ := (DerivationRun.feedAll_start_iff _ expression).mpr rfl
  exact isChain_of_run classified_feed classified_whole? hrun hwhole

end ExpressionPrefix

namespace ProgramPrefix

open Backtest.Proofs.ViableProgram.ProgramPrefix

theorem feed_stop (front : ProgramPrefix) : front.feed .stop = none := by
  cases front with
  | inside done side hfresh front =>
      rw [feed, feedInside, ExpressionPrefix.feed_stop]
      cases front.whole? <;> rfl
  | _ => rfl

theorem exists_completion (front : ProgramPrefix) :
    ∃ rest final program, rest ⊆ fillers ∧
      feedAll feed front rest = some final ∧ final.whole? = some program := by
  cases front with
  | header done => exact ⟨[], _, done, List.nil_subset _, rfl, rfl⟩
  | colon done side hfresh =>
      exact ⟨[.colon, .identifier "a"], _, _, by simp [fillers], rfl, rfl⟩
  | body done side hfresh =>
      exact ⟨[.identifier "a"], _, _, by simp [fillers], rfl, rfl⟩
  | inside done side hfresh front =>
      obtain ⟨rest, final, expression, hfills, hrun, hwhole⟩ :=
        ExpressionPrefix.exists_completion front
      refine ⟨rest, inside done side hfresh final, done.add side hfresh expression, hfills,
        feedAll_inside done side hfresh hrun, ?_⟩
      rw [whole?, hwhole]
      rfl

theorem eq_inside_of_feed {front next : ProgramPrefix} {token : Token}
    (hstep : front.feed token = some next) (hnotColon : token ≠ .colon)
    (hnotKeyword : ∀ word, token ≠ .keyword word) :
    ∃ done side hfresh inner, next = inside done side hfresh inner ∧
      ∃ earlier : ExpressionPrefix, earlier.feed token = some inner := by
  have hheader (done : Program) : feedHeader done token = none := by
    cases token with
    | keyword word => exact absurd rfl (hnotKeyword word)
    | _ => rfl
  have hreading {done : Program} {side : Side} {hfresh : side ∉ done.sides}
      {front : ExpressionPrefix}
      (hstep : feedInside done side hfresh front token = some next) :
      ∃ done side hfresh inner, next = inside done side hfresh inner ∧
        ∃ earlier : ExpressionPrefix, earlier.feed token = some inner := by
    unfold feedInside at hstep
    split at hstep
    · next inner hfed =>
        exact ⟨done, side, hfresh, inner, (Option.some.inj hstep).symm, front, hfed⟩
    · split at hstep
      · rw [hheader] at hstep
        cases hstep
      · cases hstep
  cases front with
  | header done =>
      rw [feed, hheader] at hstep
      cases hstep
  | colon done side hfresh =>
      cases token with
      | colon => exact absurd rfl hnotColon
      | _ => cases hstep
  | body done side hfresh => exact hreading hstep
  | inside done side hfresh front => exact hreading hstep

theorem classified_feed {front next after : ProgramPrefix} {token following : Token}
    (hfirst : front.feed token = some next) (hsecond : next.feed following = some after) :
    Classified token following := by
  cases token with
  | function name =>
      obtain ⟨done, side, hfresh, inner, rfl, earlier, hfed⟩ :=
        eq_inside_of_feed hfirst nofun nofun
      obtain ⟨enclosures, level, rfl⟩ := ExpressionPrefix.eq_calling_of_feed hfed
      cases following with
      | leftParen => rfl
      | _ => exact nomatch hsecond
  | identifier name =>
      obtain ⟨done, side, hfresh, inner, rfl, earlier, hfed⟩ :=
        eq_inside_of_feed hfirst nofun nofun
      obtain ⟨enclosures, level, rfl⟩ := ExpressionPrefix.eq_complete_of_feed hfed
      rintro rfl
      cases enclosures <;> exact nomatch hsecond
  | _ => trivial

theorem classified_whole? {front next : ProgramPrefix} {token : Token}
    {program : Program} (hstep : front.feed token = some next)
    (hwhole : next.whole? = some program) : Classified token .stop := by
  cases token with
  | function name =>
      obtain ⟨done, side, hfresh, inner, rfl, earlier, hfed⟩ :=
        eq_inside_of_feed hstep nofun nofun
      obtain ⟨enclosures, level, rfl⟩ := ExpressionPrefix.eq_calling_of_feed hfed
      exact nomatch hwhole
  | identifier name => exact nofun
  | _ => trivial

theorem isChain_tokens (program : Program) :
    List.IsChain Classified (program.tokens ++ [.stop]) := by
  obtain ⟨final, hrun, hwhole⟩ := (feedAll_start_iff _ program).mpr rfl
  exact isChain_of_run classified_feed classified_whole? hrun hwhole

end ProgramPrefix

end Backtest.Proofs.Viability
