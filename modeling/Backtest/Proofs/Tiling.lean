import Backtest.Proofs.CallParenthesis
import Backtest.Proofs.LongestToken
import Backtest.Proofs.NumeralReading

/-!
Texts as tiled by their tokens. Between the spellings of the tokens there are only white space and
comments, and each spelling is as long as the text allows. A text is scanned as the tokens that tile
it; the scan stops at the first character behind some tiles that starts nothing, and the text before
that character has the same tiles on its own.
-/

namespace Backtest.Proofs.Tiling

open Backtest.Rule
open Backtest.Text
open Backtest.Proofs.CallParenthesis
open Backtest.Proofs.Checked
open Backtest.Proofs.LongestToken
open Backtest.Proofs.NumeralReading
open Backtest.Proofs.Outcome
open Backtest.Proofs.Scanner
open Backtest.Proofs.Spelling

/-- White space and comments before the rest of a text. A comment runs to the end of its line. -/
inductive Gap : List Char → List Char → Prop
  | done (rest : List Char) : Gap [] rest
  | blank {c : Char} {gap rest : List Char} (hblank : isBlank c = true) (hgap : Gap gap rest) :
      Gap (c :: gap) rest
  | comment {line gap rest : List Char} (hline : ∀ c ∈ line, (c != '\n') = true)
      (hend : ∀ c ∈ (gap ++ rest).head?, (c != '\n') = false) (hgap : Gap gap rest) :
      Gap ('#' :: (line ++ gap)) rest

/-- From a position on, a text is the spellings of the tokens at their positions, each the longest
one where it stands, with gaps before them and a gap after the last one, up to another position and
the rest of the text. -/
inductive Tiles : Nat → List Char → List Lexeme → Nat → List Char → Prop
  | done {position : Nat} {gap rest : List Char} (hgap : Gap gap rest) :
      Tiles position (gap ++ rest) [] (position + byteLength gap) rest
  | token {position stop : Nat} {gap chars after rest : List Char} {token : Token}
      {front : List Lexeme} (hgap : Gap gap (chars ++ after)) (hspells : Spells token chars)
      (hlongest : IsLongest chars after) (hahead : CallAhead token after)
      (htiles : Tiles (position + byteLength gap + byteLength chars) after front stop rest) :
      Tiles position (gap ++ (chars ++ after)) (⟨token, position + byteLength gap⟩ :: front) stop
        rest

variable {c : Char} {text rest gap chars after : List Char} {token : Token}
variable {front lexemes : List Lexeme} {position stop : Nat}

theorem scanFrom_gap (hgap : Gap gap rest) (position : Nat) :
    Scan.scanFrom position (gap ++ rest) = Scan.scanFrom (position + byteLength gap) rest := by
  induction hgap generalizing position with
  | done rest => rfl
  | @blank c gap rest hblank hgap ih =>
      have hnext : Scan.next? c (gap ++ rest) = some ⟨none, [c], gap ++ rest⟩ := if_pos hblank
      rw [List.cons_append, scanFrom_cons, hnext]
      refine (ih _).trans ?_
      rw [byteLength, byteLength, byteLength, Nat.add_assoc, Nat.add_zero]
  | @comment line gap rest hline hend hgap ih =>
      have hnext : Scan.next? '#' (line ++ (gap ++ rest)) =
          some ⟨none, '#' :: line, gap ++ rest⟩ := by
        have hcomment : ∀ c ∈ '#' :: line, (c != '\n') = true :=
          List.forall_mem_cons.mpr ⟨rfl, hline⟩
        obtain ⟨htake, hdrop⟩ := takeWhile_append_of_stops hcomment hend
        rw [List.cons_append] at htake hdrop
        simp [Scan.next?, isBlank, htake, hdrop]
      rw [List.cons_append, List.append_assoc, scanFrom_cons, hnext]
      refine (ih _).trans ?_
      rw [byteLength, byteLength, byteLength_append, Nat.add_assoc, Nat.add_assoc]

theorem ne_nil_of_spells (hspells : Spells token chars) : chars ≠ [] := by
  have hword (hchars : IsWord chars) : chars ≠ [] := by
    obtain ⟨c, tail, rfl, -⟩ := hchars.start
    exact List.cons_ne_nil c tail
  cases hspells with
  | keyword hchars => exact hword hchars
  | identifier hchars => exact hword hchars
  | function hchars => exact hword hchars
  | @number whole fraction hwhole hfraction =>
      obtain ⟨c, tail, hliteral, -⟩ := exists_literal_cons hwhole fraction
      exact hliteral ▸ List.cons_ne_nil c tail
  | operator op => cases op <;> exact List.cons_ne_nil _ _
  | leftParen | rightParen | comma | colon => exact List.cons_ne_nil _ _

theorem scanFrom_tiles (htiles : Tiles position text front stop rest) :
    Scan.scanFrom position text = (front ++ ·) <$> Scan.scanFrom stop rest := by
  induction htiles with
  | @done position gap rest hgap =>
      rw [scanFrom_gap hgap]
      exact (id_map _).symm
  | @token position stop gap chars after rest token front hgap hspells hlongest hahead htiles ih =>
      obtain ⟨c, tail, rfl⟩ := List.exists_cons_of_ne_nil (ne_nil_of_spells hspells)
      have hnext : Scan.next? c (tail ++ after) = some ⟨some token, c :: tail, after⟩ :=
        next?_eq_some_iff.mpr ⟨rfl, hspells, hlongest, hahead⟩
      rw [scanFrom_gap hgap, List.cons_append, scanFrom_cons, hnext]
      dsimp only
      rw [ih]
      cases Scan.scanFrom stop rest <;> rfl

theorem gap_of_next? (hnext : Scan.next? c rest = some ⟨none, chars, gap ++ after⟩)
    (hgap : Gap gap after) : Gap (chars ++ gap) after := by
  rcases blank_or_comment hnext with ⟨hblank, rfl⟩ | ⟨line, rfl, hline, hend⟩
  · exact .blank hblank hgap
  · exact .comment hline hend hgap

theorem Tiles.passed (hnext : Scan.next? c rest = some ⟨none, chars, text⟩) {rest' : List Char}
    (htiles : Tiles (position + byteLength chars) text front stop rest') :
    Tiles position (chars ++ text) front stop rest' := by
  have hposition (gap : List Char) :
      position + byteLength chars + byteLength gap = position + byteLength (chars ++ gap) := by
    rw [byteLength_append, Nat.add_assoc]
  cases htiles with
  | done hgap =>
      rw [← List.append_assoc, hposition]
      exact .done (gap_of_next? hnext hgap)
  | token hgap hspells hlongest hahead htiles =>
      rw [hposition] at htiles ⊢
      rw [← List.append_assoc]
      exact .token (gap_of_next? hnext hgap) hspells hlongest hahead htiles

theorem exists_tiles (position : Nat) (text : List Char) :
    ∃ front stop rest, Tiles position text front stop rest ∧
      ∀ c after, rest = c :: after → StartsNothing c after := by
  fun_induction Scan.scanFrom position text with
  | case1 position =>
      refine ⟨[], _, [], .done (.done []), fun c after hcons => ?_⟩
      exact absurd hcons.symm (List.cons_ne_nil c after)
  | case2 position c rest hnone =>
      refine ⟨[], _, c :: rest, .done (.done (c :: rest)), ?_⟩
      rintro _ _ ⟨⟩
      exact next?_eq_none_iff.mp hnone
  | case3 position c rest piece hnext following token htoken =>
      rename_i ih
      obtain ⟨front, stop, rest', htiles, hstop⟩ := ih
      obtain ⟨_, chars, after⟩ := piece
      obtain rfl : _ = some token := htoken
      obtain ⟨htext, hspells, hlongest, hahead⟩ := next?_eq_some_iff.mp hnext
      rw [htext]
      exact ⟨_, stop, rest', .token (.done _) hspells hlongest hahead htiles, hstop⟩
  | case4 position c rest piece hnext following hnone =>
      rename_i ih
      obtain ⟨front, stop, rest', htiles, hstop⟩ := ih
      obtain ⟨_, chars, after⟩ := piece
      obtain rfl : _ = none := hnone
      have htext : chars ++ after = c :: rest := Scan.lexeme_append_rest hnext
      rw [← htext]
      exact ⟨front, stop, rest', htiles.passed hnext, hstop⟩

theorem scanFrom_of_startsNothing (hc : StartsNothing c after) (position : Nat) :
    Scan.scanFrom position (c :: after) = .error ⟨c, position⟩ := by
  rw [scanFrom_cons, next?_eq_none_iff.mpr hc]

theorem scanFrom_eq_ok_iff : Scan.scanFrom position text = .ok lexemes ↔
    ∃ front stop, Tiles position text front stop [] ∧ lexemes = front ++ [⟨.stop, stop⟩] := by
  constructor
  · intro hscan
    obtain ⟨front, stop, rest, htiles, hstop⟩ := exists_tiles position text
    rw [scanFrom_tiles htiles] at hscan
    cases rest with
    | nil =>
        rw [scanFrom_nil] at hscan
        exact ⟨front, stop, htiles, (Except.ok.inj hscan).symm⟩
    | cons c after =>
        rw [scanFrom_of_startsNothing (hstop c after rfl)] at hscan
        exact nomatch hscan
  · rintro ⟨front, stop, htiles, rfl⟩
    rw [scanFrom_tiles htiles, scanFrom_nil]
    rfl

theorem scanFrom_eq_error_iff : Scan.scanFrom position text = .error ⟨c, stop⟩ ↔
    ∃ front after, Tiles position text front stop (c :: after) ∧ StartsNothing c after := by
  constructor
  · intro hscan
    obtain ⟨front, stop', rest, htiles, hstop⟩ := exists_tiles position text
    rw [scanFrom_tiles htiles] at hscan
    cases rest with
    | nil =>
        rw [scanFrom_nil] at hscan
        exact nomatch hscan
    | cons c' after =>
        rw [scanFrom_of_startsNothing (hstop c' after rfl)] at hscan
        obtain ⟨⟩ := Except.error.inj hscan
        exact ⟨front, after, htiles, hstop c after rfl⟩
  · rintro ⟨front, after, htiles, hstop⟩
    rw [scanFrom_tiles htiles, scanFrom_of_startsNothing hstop]
    rfl

theorem byteLength_pos (hchars : chars ≠ []) : 0 < byteLength chars := by
  obtain ⟨c, tail, rfl⟩ := List.exists_cons_of_ne_nil hchars
  obtain ⟨byte, hbyte⟩ := exists_byteLength_cons c tail
  rw [hbyte]
  exact byte.succ_pos

theorem Tiles.ne_stop (htiles : Tiles position text front stop rest) :
    ∀ lexeme ∈ front, lexeme.token ≠ .stop := by
  induction htiles with
  | done hgap => exact nofun
  | token hgap hspells hlongest hahead htiles ih =>
      refine List.forall_mem_cons.mpr ⟨?_, ih⟩
      rintro ⟨⟩
      cases hspells

theorem Tiles.pairwise (htiles : Tiles position text front stop rest) :
    (∀ lexeme ∈ front ++ [⟨.stop, stop⟩], position ≤ lexeme.position) ∧
      List.Pairwise (fun first second : Lexeme => first.position < second.position)
        (front ++ [⟨.stop, stop⟩]) := by
  induction htiles with
  | @done position gap rest hgap => simp
  | @token position stop gap chars after rest token front hgap hspells hlongest hahead htiles ih =>
      obtain ⟨hlater, hpairwise⟩ := ih
      have hlength := byteLength_pos (ne_nil_of_spells hspells)
      refine ⟨List.forall_mem_cons.mpr ⟨Nat.le_add_right _ _, fun lexeme hlexeme => ?_⟩,
        List.pairwise_cons.mpr ⟨fun lexeme hlexeme => ?_, hpairwise⟩⟩
      · have hposition := hlater lexeme hlexeme
        omega
      · have hposition := hlater lexeme hlexeme
        dsimp only
        omega

theorem Tiles.spelled {whole : List Char} (htiles : Tiles position text front stop rest)
    (hat : At whole position text) :
    At whole stop rest ∧ ∀ lexeme ∈ front, ∃ chars after,
      At whole lexeme.position (chars ++ after) ∧ Spells lexeme.token chars ∧
        IsLongest chars after ∧ CallAhead lexeme.token after := by
  induction htiles with
  | done hgap => exact ⟨hat.advance, nofun⟩
  | token hgap hspells hlongest hahead htiles ih =>
      have htoken := hat.advance
      obtain ⟨hstop, hspelled⟩ := ih htoken.advance
      exact ⟨hstop, List.forall_mem_cons.mpr
        ⟨⟨_, _, htoken, hspells, hlongest, hahead⟩, hspelled⟩⟩

theorem Gap.before (hgap : Gap gap (chars ++ rest)) : Gap gap chars := by
  generalize htext : chars ++ rest = text at hgap
  induction hgap with
  | done text => exact .done chars
  | blank hblank hgap ih => exact .blank hblank (ih htext)
  | @comment line gap text hline hend hgap ih =>
      subst htext
      -- a comment that the cut leaves at the end of the text needs no line end
      refine .comment hline (fun c hc => hend c ?_) (ih rfl)
      rw [← List.append_assoc, List.head?_append, Option.mem_def.mp hc]
      rfl

theorem isLongest_before (hlongest : IsLongest chars (after ++ rest)) : IsLongest chars after := by
  intro token' chars' hspells hstart
  refine hlongest token' chars' hspells (hstart.trans ?_)
  rw [← List.append_assoc]
  exact List.prefix_append _ rest

theorem opensCall_before (hblank : isBlank c = false) (hparen : c ≠ '(') (chars after : List Char) :
    Scan.opensCall (chars ++ c :: after) = Scan.opensCall chars := by
  induction chars with
  | nil => simp [Scan.opensCall, trimLeft, hblank, hparen]
  | cons d chars ih =>
      cases hd : isBlank d with
      | true => simpa [Scan.opensCall, trimLeft, hd] using ih
      | false => simp [Scan.opensCall, trimLeft, hd]

theorem callAhead_before (hblank : isBlank c = false) (hparen : c ≠ '(')
    (hahead : CallAhead token (chars ++ c :: after)) : CallAhead token chars := by
  have hcall : OpensCall (chars ++ c :: after) ↔ OpensCall chars := by
    rw [← opensCall_iff, ← opensCall_iff, opensCall_before hblank hparen]
  cases token with
  | identifier name => exact hcall.not.mp hahead
  | function name => exact hcall.mp hahead
  | _ => trivial

/-- A text cut where a character starts nothing has the tiles that it had up to there. -/
theorem Tiles.before (hblank : isBlank c = false) (hparen : c ≠ '(')
    (htiles : Tiles position text front stop (c :: after)) :
    ∃ chars, text = chars ++ c :: after ∧ Tiles position chars front stop [] := by
  generalize hrest : c :: after = rest at htiles
  induction htiles with
  | @done position gap rest hgap =>
      subst hrest
      refine ⟨gap, rfl, ?_⟩
      have hcut : Gap gap ([] ++ c :: after) := hgap
      have hdone : Tiles position (gap ++ []) [] (position + byteLength gap) [] := .done hcut.before
      rwa [List.append_nil] at hdone
  | @token position stop gap chars after' rest token front hgap hspells hlongest hahead htiles ih =>
      obtain ⟨before, rfl, hbefore⟩ := ih hrest
      subst hrest
      refine ⟨gap ++ (chars ++ before), by simp, ?_⟩
      rw [← List.append_assoc] at hgap
      -- what the token needs to know of the text after it is settled before the cut
      exact .token hgap.before hspells (isLongest_before hlongest)
        (callAhead_before hblank hparen hahead) hbefore

theorem byteLength_toList (text : String) : byteLength text.toList = text.utf8ByteSize := by
  have hlist (chars : List Char) : byteLength chars = (String.ofList chars).utf8ByteSize := by
    rw [String.utf8ByteSize_ofList]
    induction chars with
    | nil => rfl
    | cons c chars ih => rw [byteLength, ih, String.utf8Len_cons, Nat.add_comm]
  rw [hlist, String.ofList_toList]

theorem readNumeral_of_spells {value : Float} (hspells : Spells (.number value) chars) :
    readNumeral chars = .ok value := by
  cases hspells with
  | number hwhole hfraction => exact readNumeral_literal hwhole hfraction

theorem function_iff (hspells : Spells token chars) (hahead : CallAhead token after)
    (hword : IsWord chars) : (∃ name, token = .function name) ↔
      (∀ word, ¬ SpellsKeyword chars word) ∧ OpensCall after := by
  rw [← ofWord?_eq_none_iff, ← opensCall_iff]
  rw [eq_of_callAhead hspells (spells_wordToken hword) hahead (callAhead_wordToken chars after)]
  cases hkeyword : Keyword.ofWord? (String.ofList chars) with
  | some word => simp [wordToken_keyword hkeyword]
  | none =>
      rw [wordToken_name hkeyword]
      cases Scan.opensCall after <;> simp

/-- The tokens of a text tile it: each is spelled at its position, as long as it can be, and there
is only white space and comments between them. The last one, and no other, is at the end. -/
theorem tokens_tile_text {source : String} (hscan : scan source = .ok lexemes) :
    ∃ front, lexemes = front ++ [⟨.stop, source.utf8ByteSize⟩] ∧
      (∀ lexeme ∈ front, lexeme.token ≠ .stop) ∧
      lexemes.Pairwise (fun first second => first.position < second.position) ∧
      Tiles 0 source.toList front source.utf8ByteSize [] ∧
      (∀ lexeme ∈ front, ∃ chars after, At source.toList lexeme.position (chars ++ after) ∧
        Spells lexeme.token chars ∧ IsLongest chars after ∧
        (∀ value, lexeme.token = .number value → readNumeral chars = .ok value) ∧
        (IsWord chars → ((∃ name, lexeme.token = .function name) ↔
          (∀ word, ¬ SpellsKeyword chars word) ∧ OpensCall after))) ∧
      lexemes.IsChain Opens := by
  have hchain := (isChain_scanFrom hscan).1
  obtain ⟨front, stop, htiles, rfl⟩ := scanFrom_eq_ok_iff.mp hscan
  obtain ⟨hstop, hspelled⟩ := htiles.spelled (at_start source.toList)
  obtain rfl : stop = source.utf8ByteSize := by
    obtain ⟨before, hbefore, rfl⟩ := hstop
    rw [← byteLength_toList, hbefore, List.append_nil]
  refine ⟨front, rfl, htiles.ne_stop, htiles.pairwise.2, htiles, fun lexeme hlexeme => ?_, hchain⟩
  obtain ⟨chars, after, hat, hspells, hlongest, hahead⟩ := hspelled lexeme hlexeme
  refine ⟨chars, after, hat, hspells, hlongest, fun value hvalue => ?_,
    function_iff hspells hahead⟩
  exact readNumeral_of_spells (hvalue ▸ hspells)

def callText : String := "# é\n\u3000rsi (x) >= 1.5"

def callLexemes : List Lexeme :=
  [⟨.function "rsi", 8⟩, ⟨.leftParen, 12⟩, ⟨.identifier "x", 13⟩, ⟨.rightParen, 14⟩,
    ⟨.operator .ge, 16⟩, ⟨.number (Decimal.ofDigits ['1'] ['5']).toFloat, 19⟩, ⟨.stop, 22⟩]

theorem scan_callText : scan callText = .ok callLexemes := by
  simp [callText, callLexemes, scan, scanFrom_cons, scanFrom_nil, Scan.next?, isBlank,
    Scan.isWordStart, Scan.isWordChar, Scan.word, Scan.wordToken, Scan.number, Scan.symbol?,
    Scan.opensCall, trimLeft, Keyword.ofWord?, Keyword.all, Keyword.spelling, String.toUpper,
    String.map_eq_internal, byteLength, Except.map, Char.utf8Size]

theorem tokens_tile_text_callText : scan callText = .ok callLexemes ∧
    ∃ front, callLexemes = front ++ [⟨.stop, 22⟩] ∧ Tiles 0 callText.toList front 22 [] := by
  obtain ⟨front, hlexemes, -, -, htiles, -⟩ := tokens_tile_text scan_callText
  exact ⟨scan_callText, front, hlexemes, htiles⟩

/-- A scan that fails names the first character that starts nothing, and the text before it is
scanned on its own as the tokens found up to there. Reading a number never fails. -/
theorem error_names_first_refused {source : String} (hscan : scan source = .error ⟨c, position⟩) :
    (∃ before after front, source.toList = before ++ c :: after ∧ position = byteLength before ∧
      Tiles 0 source.toList front position (c :: after) ∧
      scan (String.ofList before) = .ok (front ++ [⟨.stop, position⟩]) ∧ StartsNothing c after) ∧
    ∀ d digits, d.isDigit = true → ∃ value,
      (Scan.number (d :: digits)).token? = some (.number value) ∧
        readNumeral (Scan.number (d :: digits)).lexeme = .ok value := by
  constructor
  · obtain ⟨front, after, htiles, hnothing⟩ := scanFrom_eq_error_iff.mp hscan
    have hparen : c ≠ '(' := fun h => hnothing.notMark (h ▸ by decide)
    obtain ⟨before, htext, hbefore⟩ := htiles.before hnothing.notBlank hparen
    refine ⟨before, after, front, htext, ?_, htiles, ?_, hnothing⟩
    · obtain ⟨⟨before', hbefore', hposition⟩, -⟩ := hbefore.spelled (at_start before)
      rw [hbefore', List.append_nil, hposition]
    · rw [scan, String.toList_ofList]
      exact scanFrom_eq_ok_iff.mpr ⟨front, position, hbefore, rfl⟩
  · intro d digits hd
    have htoken := number_token (d :: digits)
    exact ⟨_, htoken, readNumeral_of_spells (spells_number hd htoken)⟩

theorem scan_dollar : scan "rsi $ (" = .error ⟨'$', 4⟩ := by
  simp [scan, scanFrom_cons, Scan.next?, isBlank, Scan.isWordStart, Scan.isWordChar, Scan.word,
    Scan.wordToken, Scan.symbol?, Scan.opensCall, trimLeft, Keyword.ofWord?, Keyword.all,
    Keyword.spelling, String.toUpper, String.map_eq_internal, byteLength, Except.map,
    Char.utf8Size]

theorem error_names_first_refused_dollar : scan "rsi $ (" = .error ⟨'$', 4⟩ ∧
    ∃ after front, Tiles 0 "rsi $ (".toList front 4 ('$' :: after) ∧ StartsNothing '$' after := by
  obtain ⟨⟨before, after, front, -, -, htiles, -, hnothing⟩, -⟩ :=
    error_names_first_refused scan_dollar
  exact ⟨scan_dollar, after, front, htiles, hnothing⟩

end Backtest.Proofs.Tiling
