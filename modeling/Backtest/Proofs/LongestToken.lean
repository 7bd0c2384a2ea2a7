import Backtest.Proofs.Checked.Scan
import Backtest.Proofs.LetterCase

namespace Backtest.Proofs.LongestToken

open Backtest.Rule
open Backtest.Text
open Backtest.Proofs.Checked
open Backtest.Proofs.LetterCase
open Backtest.Proofs.Spelling

variable {c : Char} {rest chars after : List Char} {token token' : Token}

/-- No other spelling of a token at the start of the text is longer. -/
def IsLongest (chars after : List Char) : Prop :=
  ∀ token' chars', Spells token' chars' → chars' <+: chars ++ after → chars'.length ≤ chars.length

theorem prefix_takeWhile {p : Char → Bool} {text : List Char} (hchars : ∀ c ∈ chars, p c = true)
    (hstart : chars <+: text) : chars <+: text.takeWhile p := by
  obtain ⟨more, rfl⟩ := hstart
  rw [List.takeWhile_append_of_pos hchars]
  exact List.prefix_append chars _

theorem length_literal_le {whole fraction text : List Char} (hwhole : IsDigits whole)
    (hfraction : ∀ c ∈ fraction, c.isDigit = true) (hstart : literal whole fraction <+: text) :
    (literal whole fraction).length ≤ (Scan.number text).lexeme.length := by
  cases fraction with
  | nil =>
      have hlength := (prefix_takeWhile hwhole.digits hstart).length_le
      unfold Scan.number
      dsimp only [literal]
      split
      · rw [List.length_append]
        omega
      · exact hlength
  | cons d fraction =>
      obtain ⟨more, rfl⟩ := hstart
      have hpoint : ∀ c ∈ ('.' :: d :: (fraction ++ more)).head?, c.isDigit = false := by
        rintro c ⟨⟩
        decide
      obtain ⟨htake, hdrop⟩ := takeWhile_append_of_stops hwhole.digits hpoint
      have hd : d.isDigit = true := hfraction d List.mem_cons_self
      have hdigits : fraction <+: (fraction ++ more).takeWhile Char.isDigit :=
        prefix_takeWhile (fun c hc => hfraction c (List.mem_cons_of_mem d hc)) ⟨more, rfl⟩
      have hlength := hdigits.length_le
      have htext : literal whole (d :: fraction) ++ more =
          whole ++ '.' :: d :: (fraction ++ more) := by
        simp [literal]
      rw [htext]
      simp [Scan.number, htake, hdrop, hd, literal, hlength]

/-- A text has a token in front, of at least so many characters. -/
def StartsToken (least : Nat) (c : Char) (rest : List Char) : Prop :=
  ∃ piece token, Scan.next? c rest = some piece ∧ piece.token? = some token ∧
    least ≤ piece.lexeme.length

def marks : List Char := ['(', ')', ',', ':', '<', '>']

theorem startsToken_of_mark (hc : c ∈ marks) (rest : List Char) : StartsToken 1 c rest := by
  have hsome {rest : List Char} {piece : Scan.Piece} {token : Token}
      (hnext : Scan.next? c rest = some piece) (htoken : piece.token? = some token) :
      StartsToken 1 c rest :=
    ⟨piece, token, hnext, htoken, List.length_pos_iff.mpr (Scan.lexeme_ne_nil hnext)⟩
  have hoperator (op : CompareOp) (hsymbol : op.symbol.toList = [c])
      (hequals : ∀ rest, StartsToken 1 c ('=' :: rest)) : StartsToken 1 c rest := by
    by_cases hrest : rest.head? = some '='
    · obtain ⟨rest, rfl⟩ := List.head?_eq_some_iff.mp hrest
      exact hequals rest
    · obtain ⟨d, tail, hop, hnext⟩ := next?_operator op hrest
      obtain ⟨rfl, rfl⟩ := List.cons.inj (hsymbol.symm.trans hop)
      exact hsome hnext rfl
  simp only [marks, List.mem_cons, List.not_mem_nil, or_false] at hc
  rcases hc with rfl | rfl | rfl | rfl | rfl | rfl
  · exact hsome rfl rfl
  · exact hsome rfl rfl
  · exact hsome rfl rfl
  · exact hsome rfl rfl
  · exact hoperator .lt rfl fun rest => hsome rfl rfl
  · exact hoperator .gt rfl fun rest => hsome rfl rfl

/-- A text that starts with a spelling has a token in front that is no shorter. -/
theorem startsToken_of_spells (hspells : Spells token chars) (hstart : chars <+: c :: rest) :
    StartsToken chars.length c rest := by
  have hword (hchars : IsWord chars) : StartsToken chars.length c rest := by
    obtain ⟨d, tail, rfl, hd⟩ := hchars.start
    obtain ⟨rfl, -⟩ := List.cons_prefix_cons.mp hstart
    exact ⟨_, _, next?_wordStart hd, rfl,
      (prefix_takeWhile hchars.wordChars hstart).length_le⟩
  have hmark {d : Char} (hd : d ∈ marks) (hchars : chars = [d]) :
      StartsToken chars.length c rest := by
    subst hchars
    obtain ⟨rfl, -⟩ := List.cons_prefix_cons.mp hstart
    exact startsToken_of_mark hd rest
  have hdouble {op : CompareOp} {d : Char} (hchars : chars = [d, '='])
      (hnext : ∀ rest, Scan.next? d ('=' :: rest) = some ⟨some (.operator op), chars, rest⟩) :
      StartsToken chars.length c rest := by
    rw [hchars] at hstart
    obtain ⟨rfl, more, rfl⟩ := List.cons_prefix_cons.mp hstart
    exact ⟨_, _, hnext more, rfl, le_rfl⟩
  cases hspells with
  | keyword hchars => exact hword hchars
  | identifier hchars => exact hword hchars
  | function hchars => exact hword hchars
  | @number whole fraction hwhole hfraction =>
      have hlength := length_literal_le hwhole hfraction hstart
      obtain ⟨d, tail, hliteral, hd⟩ := exists_literal_cons hwhole fraction
      obtain ⟨rfl, -⟩ := List.cons_prefix_cons.mp (hliteral ▸ hstart)
      exact ⟨_, _, next?_number hd, number_token _, hlength⟩
  | operator op =>
      cases op with
      | gt => exact hmark (d := '>') (by decide) rfl
      | lt => exact hmark (d := '<') (by decide) rfl
      | ge => exact hdouble rfl fun rest => rfl
      | le => exact hdouble rfl fun rest => rfl
      | eq => exact hdouble rfl fun rest => rfl
  | leftParen => exact hmark (d := '(') (by decide) rfl
  | rightParen => exact hmark (d := ')') (by decide) rfl
  | comma => exact hmark (d := ',') (by decide) rfl
  | colon => exact hmark (d := ':') (by decide) rfl

theorem eq_of_callAhead (hspells : Spells token chars) (hspells' : Spells token' chars)
    (hahead : CallAhead token after) (hahead' : CallAhead token' after) : token = token' := by
  -- a parenthesis or nothing in place of the rest settles the token alike and ends any spelling
  obtain ⟨stop, hcall, hdelimits⟩ : ∃ stop, (OpensCall stop ↔ OpensCall after) ∧
      ∀ token, Delimits token stop := by
    by_cases hcall : OpensCall after
    · refine ⟨['('], iff_of_true ⟨[], [], nofun, rfl⟩ hcall, fun token => ?_⟩
      cases token with
      | keyword word | identifier name | function name => rintro c ⟨⟩; decide
      | number value => rintro c ⟨⟩; decide
      | operator op => exact nofun
      | _ => trivial
    · refine ⟨[], iff_of_false (opensCall_iff.not.mp nofun) hcall, fun token => ?_⟩
      cases token with
      | keyword word | identifier name | function name | number value => exact nofun
      | operator op => exact nofun
      | _ => trivial
  have hsame {token : Token} (hahead : CallAhead token after) : CallAhead token stop := by
    cases token with
    | identifier name => exact hcall.not.mpr hahead
    | function name => exact hcall.mpr hahead
    | _ => trivial
  obtain ⟨c, tail, hchars, hnext⟩ := next?_spelled hspells (hdelimits token) (hsame hahead)
  obtain ⟨c', tail', hchars', hnext'⟩ :=
    next?_spelled hspells' (hdelimits token') (hsame hahead')
  obtain ⟨rfl, rfl⟩ := List.cons.inj (hchars.symm.trans hchars')
  rw [hnext] at hnext'
  cases hnext'
  rfl

theorem next?_eq_some_iff :
    Scan.next? c rest = some ⟨some token, chars, after⟩ ↔
      c :: rest = chars ++ after ∧ Spells token chars ∧ IsLongest chars after ∧
        CallAhead token after := by
  constructor
  · intro hnext
    have htext : chars ++ after = c :: rest := Scan.lexeme_append_rest hnext
    refine ⟨htext.symm, spells_next? hnext rfl, fun token' chars' hspells hstart => ?_,
      callAhead_next? hnext rfl⟩
    rw [htext] at hstart
    obtain ⟨piece, _, hpiece, -, hlength⟩ := startsToken_of_spells hspells hstart
    obtain rfl := Option.some.inj (hnext.symm.trans hpiece)
    exact hlength
  · rintro ⟨htext, hspells, hlongest, hahead⟩
    have hstart : chars <+: c :: rest := ⟨after, htext.symm⟩
    obtain ⟨⟨_, lexeme, after'⟩, token', hnext, rfl, hlength⟩ :=
      startsToken_of_spells hspells hstart
    have hlexeme : lexeme ++ after' = chars ++ after :=
      (Scan.lexeme_append_rest hnext).trans htext
    have hspells' := spells_next? hnext rfl
    have hlength' := hlongest token' lexeme hspells' ⟨after', hlexeme⟩
    obtain ⟨rfl, rfl⟩ := List.append_inj hlexeme (le_antisymm hlength' hlength)
    rw [hnext, eq_of_callAhead hspells hspells' hahead (callAhead_next? hnext rfl)]

/-- No token, blank or comment starts with the character before the rest. -/
structure StartsNothing (c : Char) (after : List Char) : Prop where
  notBlank : isBlank c = false
  notHash : c ≠ '#'
  notWord : Scan.isWordStart c = false
  notDigit : c.isDigit = false
  notMark : c ∉ marks
  notEquals : c = '=' → after.head? ≠ some '='

theorem next?_eq_none_iff : Scan.next? c rest = none ↔ StartsNothing c rest := by
  constructor
  · intro hnext
    have hmark : c ∉ marks := fun hc => by
      obtain ⟨piece, -, hpiece, -⟩ := startsToken_of_mark hc rest
      exact nomatch hnext.symm.trans hpiece
    have hequals : c = '=' → rest.head? ≠ some '=' := by
      rintro rfl hhead
      obtain ⟨rest, rfl⟩ := List.head?_eq_some_iff.mp hhead
      exact nomatch hnext
    unfold Scan.next? at hnext
    split at hnext
    · exact nomatch hnext
    split at hnext
    · exact nomatch hnext
    split at hnext
    · exact nomatch hnext
    split at hnext
    · exact nomatch hnext
    · next hblank hhash hword hdigit =>
        exact ⟨Bool.eq_false_iff.mpr hblank, hhash, Bool.eq_false_iff.mpr hword,
          Bool.eq_false_iff.mpr hdigit, hmark, hequals⟩
  · rintro ⟨hblank, hhash, hword, hdigit, hmark, hequals⟩
    simp only [Scan.next?, hblank, hhash, hword, hdigit, Bool.false_eq_true, if_false]
    by_cases hc : c = '='
    · subst hc
      have hhead := hequals rfl
      rcases rest with _ | ⟨d, rest⟩
      · rfl
      · have hd : d ≠ '=' := fun h => hhead (congrArg some h)
        simp [Scan.symbol?, hd]
    · refine symbol?_eq_none fun hstart => ?_
      simp only [marks, symbolStarts, List.mem_cons, List.not_mem_nil, or_false] at hmark hstart
      tauto

theorem blank_or_comment (hnext : Scan.next? c rest = some ⟨none, chars, after⟩) :
    (isBlank c = true ∧ chars = [c]) ∨ ∃ line, chars = '#' :: line ∧
      (∀ d ∈ line, (d != '\n') = true) ∧ ∀ d ∈ after.head?, (d != '\n') = false := by
  unfold Scan.next? at hnext
  split at hnext
  · next hblank =>
      cases hnext
      exact .inl ⟨hblank, rfl⟩
  split at hnext
  · next hhash =>
      cases hnext
      subst hhash
      refine .inr ⟨rest.takeWhile (· != '\n'), rfl, fun _ => List.mem_takeWhile_imp, fun d hd => ?_⟩
      have hstop := List.head?_dropWhile_not (· != '\n') ('#' :: rest)
      rwa [hd] at hstop
  split at hnext
  · cases hnext
  split at hnext
  · have htoken := number_token (c :: rest)
    rw [Option.some.inj hnext] at htoken
    exact nomatch htoken
  · unfold Scan.symbol? at hnext
    split at hnext <;> cases hnext

end Backtest.Proofs.LongestToken
