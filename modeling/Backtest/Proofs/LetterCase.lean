import Backtest.Proofs.Spelling
import Backtest.Proofs.TypeSystem

namespace Backtest.Proofs.LetterCase

open Backtest.Rule
open Backtest.Text
open Backtest.Proofs.Scanner
open Backtest.Proofs.Spelling
open Backtest.Proofs.TypeSystem

/-- The token comes from a word that may be spelled in any case. -/
def CaseFree : Token → Prop
  | .keyword _ | .function _ => True
  | _ => False

/-- The second text is the first one with letters in other cases, and this only in words that are
scanned as keywords or as names of functions. From a character on that starts no token, nothing is
scanned and so nothing changed. -/
inductive Recased : List Char → List Char → Prop
  | done : Recased [] []
  | stuck {c : Char} {rest : List Char} (hstuck : Scan.next? c rest = none) :
      Recased (c :: rest) (c :: rest)
  | kept {c : Char} {rest rest' : List Char} {piece : Scan.Piece}
      (hnext : Scan.next? c rest = some piece) (hrecased : Recased piece.rest rest') :
      Recased (c :: rest) (piece.lexeme ++ rest')
  | word {c : Char} {rest lexeme' rest' : List Char} {piece : Scan.Piece} {token : Token}
      (hnext : Scan.next? c rest = some piece) (hkind : piece.token? = some token)
      (hfree : CaseFree token) (hletters : lexeme'.map Char.toLower = piece.lexeme.map Char.toLower)
      (hrecased : Recased piece.rest rest') :
      Recased (c :: rest) (lexeme' ++ rest')

theorem Recased.map_toLower {text text' : List Char} (hrecased : Recased text text') :
    text'.map Char.toLower = text.map Char.toLower := by
  induction hrecased with
  | done => rfl
  | stuck => rfl
  | kept hnext hrecased ih =>
      rw [← Scan.lexeme_append_rest hnext, List.map_append, List.map_append, ih]
  | word hnext hkind hfree hletters hrecased ih =>
      rw [← Scan.lexeme_append_rest hnext, List.map_append, List.map_append, hletters, ih]

theorem Recased.mark {c : Char} {token : Token} {rest rest' : List Char}
    (hnext : Scan.next? c rest = some ⟨some token, [c], rest⟩) (hrecased : Recased rest rest') :
    Recased (c :: rest) (c :: rest') :=
  .kept hnext hrecased

section Word

variable {word rest rest' : List Char} {next : Char} (hword : IsWord word)
  (hstops : Scan.isWordChar next = false)
include hword hstops

theorem exists_next?_word (rest : List Char) :
    ∃ c tail, word = c :: tail ∧ Scan.next? c (tail ++ next :: rest) =
      some ⟨some (Scan.wordToken word (next :: rest)), word, next :: rest⟩ := by
  obtain ⟨c, tail, rfl, -⟩ := hword.start
  refine ⟨c, tail, rfl, next?_word hword ?_⟩
  rintro _ ⟨⟩
  exact hstops

theorem Recased.sameWord (hrecased : Recased (next :: rest) rest') :
    Recased (word ++ next :: rest) (word ++ rest') := by
  obtain ⟨c, tail, rfl, hfound⟩ := exists_next?_word hword hstops rest
  exact .kept hfound hrecased

theorem Recased.otherWord (word' : List Char)
    (hfree : (Keyword.ofWord? (String.ofList word)).isSome = true ∨
      Scan.opensCall (next :: rest) = true)
    (hletters : word'.map Char.toLower = word.map Char.toLower)
    (hrecased : Recased (next :: rest) rest') :
    Recased (word ++ next :: rest) (word' ++ rest') := by
  obtain ⟨c, tail, rfl, hfound⟩ := exists_next?_word hword hstops rest
  refine .word hfound rfl ?_ hletters hrecased
  rw [Scan.wordToken]
  rcases hfree with hkeyword | hcall
  · obtain ⟨keyword, hsame⟩ := Option.isSome_iff_exists.mp hkeyword
    rw [hsame]
    trivial
  · split
    · trivial
    · rw [if_pos hcall]
      trivial

end Word

theorem toNat_of_isAlpha {c : Char} (hletter : c.isAlpha = true) :
    65 ≤ c.toNat ∧ c.toNat ≤ 122 :=
  toNat_of_isWordStart (by rw [Scan.isWordStart, hletter, Bool.true_or])

theorem toLower_iff {p : Char → Prop} (houtside : ∀ c : Char, c.isAlpha = true → ¬p c) (c : Char) :
    p c.toLower ↔ p c := by
  by_cases hupper : c.isUpper = true
  · have hletter : c.isAlpha = true := by rw [Char.isAlpha, hupper, Bool.true_or]
    exact iff_of_false (houtside _ (c.isAlpha_toLower_eq_isAlpha.trans hletter))
      (houtside c hletter)
  · rw [Char.toLower_eq_of_not_isUpper hupper]

theorem toLower_eq_iff {d : Char} (houtside : d.isAlpha = false) (c : Char) :
    c.toLower = d ↔ c = d := by
  refine toLower_iff (p := (· = d)) ?_ c
  rintro c hletter rfl
  exact absurd hletter (by rw [houtside]; exact Bool.false_ne_true)

theorem isBlank_toLower (c : Char) : isBlank c.toLower = isBlank c := by
  rw [Bool.eq_iff_iff]
  refine toLower_iff (p := fun c => isBlank c = true) (fun c hletter => ?_) c
  have hrange := toNat_of_isAlpha hletter
  rw [isBlank_eq_false (by omega) (by omega)]
  exact Bool.false_ne_true

theorem isDigit_toLower (c : Char) : c.toLower.isDigit = c.isDigit := by
  rw [Bool.eq_iff_iff]
  refine toLower_iff (p := fun c => c.isDigit = true) (fun c hletter hdigit => ?_) c
  have hrange := toNat_of_isAlpha hletter
  have hrange' := toNat_of_isDigit hdigit
  omega

theorem isWordStart_toLower (c : Char) : Scan.isWordStart c.toLower = Scan.isWordStart c := by
  have hunderscore : (c.toLower == '_') = (c == '_') := by
    rw [Bool.eq_iff_iff, beq_iff_eq, beq_iff_eq]
    exact toLower_eq_iff rfl c
  rw [Scan.isWordStart, Scan.isWordStart, Char.isAlpha_toLower_eq_isAlpha, hunderscore]

theorem isWordChar_toLower (c : Char) : Scan.isWordChar c.toLower = Scan.isWordChar c := by
  have hparts (c : Char) : Scan.isWordChar c = (Scan.isWordStart c || c.isDigit) := by
    rw [Scan.isWordChar, Scan.isWordStart, Char.isAlphanum, Bool.or_assoc, Bool.or_assoc,
      Bool.or_comm c.isDigit]
  rw [hparts, hparts, isWordStart_toLower, isDigit_toLower]

theorem utf8Size_toLower (c : Char) : c.toLower.utf8Size = c.utf8Size := by
  have hsingle {c : Char} (hletter : c.isAlpha = true) : c.utf8Size = 1 := by
    have hrange := toNat_of_isAlpha hletter
    rw [Char.utf8Size_eq_one_iff, UInt32.le_iff_toNat_le]
    exact Nat.le_trans hrange.2 (by decide)
  by_cases hupper : c.isUpper = true
  · have hletter : c.isAlpha = true := by rw [Char.isAlpha, hupper, Bool.true_or]
    rw [hsingle hletter, hsingle (c.isAlpha_toLower_eq_isAlpha.trans hletter)]
  · rw [Char.toLower_eq_of_not_isUpper hupper]

theorem byteLength_map_toLower (text : List Char) :
    byteLength (text.map Char.toLower) = byteLength text := by
  induction text with
  | nil => rfl
  | cons c rest ih => rw [List.map_cons, byteLength, byteLength, utf8Size_toLower, ih]

section Split

variable {p : Char → Bool} (hcaseless : ∀ c : Char, p c.toLower = p c) (text : List Char)
include hcaseless

theorem takeWhile_map_toLower :
    (text.map Char.toLower).takeWhile p = (text.takeWhile p).map Char.toLower := by
  rw [List.takeWhile_map]
  exact congrArg (fun p => (text.takeWhile p).map Char.toLower) (funext hcaseless)

theorem dropWhile_map_toLower :
    (text.map Char.toLower).dropWhile p = (text.dropWhile p).map Char.toLower := by
  rw [List.dropWhile_map]
  exact congrArg (fun p => (text.dropWhile p).map Char.toLower) (funext hcaseless)

end Split

theorem map_toLower_digits {digits : List Char} (hall : ∀ c ∈ digits, c.isDigit = true) :
    digits.map Char.toLower = digits := by
  refine (List.map_congr_left fun c hmem => Char.toLower_eq_of_not_isUpper fun hupper => ?_).trans
    digits.map_id
  have hletter : c.isAlpha = true := by rw [Char.isAlpha, hupper, Bool.true_or]
  have hrange := toNat_of_isAlpha hletter
  have hrange' := toNat_of_isDigit (hall c hmem)
  omega

def lowerToken : Token → Token
  | .identifier name => .identifier name.toLower
  | .function name => .function name.toLower
  | token => token

def lowerPiece (piece : Scan.Piece) : Scan.Piece where
  token? := piece.token?.map lowerToken
  lexeme := piece.lexeme.map Char.toLower
  rest := piece.rest.map Char.toLower

theorem ofList_map_toLower (word : List Char) :
    String.ofList (word.map Char.toLower) = (String.ofList word).toLower := by
  apply String.toList_inj.mp
  simp [String.toLower]

theorem ofWord?_toLower (word : String) : Keyword.ofWord? word.toLower = Keyword.ofWord? word := by
  rw [Keyword.ofWord?, Keyword.ofWord?, toUpper_toLower]

theorem head?_map_toLower {d : Char} (houtside : d.isAlpha = false) (text : List Char) :
    (text.map Char.toLower).head? = some d ↔ text.head? = some d := by
  rw [List.head?_map, Option.map_eq_some_iff]
  constructor
  · rintro ⟨c, hhead, hlower⟩
    rw [hhead, (toLower_eq_iff houtside c).mp hlower]
  · exact fun hhead => ⟨d, hhead, (toLower_eq_iff houtside d).mpr rfl⟩

theorem opensCall_map_toLower (rest : List Char) :
    Scan.opensCall (rest.map Char.toLower) = Scan.opensCall rest := by
  rw [Scan.opensCall, Scan.opensCall, trimLeft, trimLeft, dropWhile_map_toLower isBlank_toLower,
    Bool.eq_iff_iff, beq_iff_eq, beq_iff_eq]
  exact head?_map_toLower rfl _

theorem wordToken_map_toLower (word rest : List Char) :
    Scan.wordToken (word.map Char.toLower) (rest.map Char.toLower) =
      lowerToken (Scan.wordToken word rest) := by
  rw [Scan.wordToken, Scan.wordToken, ofList_map_toLower, ofWord?_toLower, opensCall_map_toLower]
  split
  · rfl
  · split <;> rfl

theorem word_map_toLower (text : List Char) :
    Scan.word (text.map Char.toLower) = lowerPiece (Scan.word text) := by
  rw [Scan.word, Scan.word, takeWhile_map_toLower isWordChar_toLower,
    dropWhile_map_toLower isWordChar_toLower, wordToken_map_toLower]
  rfl

theorem number_map_toLower (text : List Char) :
    Scan.number (text.map Char.toLower) = lowerPiece (Scan.number text) := by
  have hdigits (text : List Char) :
      (text.takeWhile Char.isDigit).map Char.toLower = text.takeWhile Char.isDigit :=
    map_toLower_digits fun _ => List.mem_takeWhile_imp
  unfold Scan.number
  dsimp only
  rw [takeWhile_map_toLower isDigit_toLower, dropWhile_map_toLower isDigit_toLower, hdigits,
    ← List.map_drop, takeWhile_map_toLower isDigit_toLower, dropWhile_map_toLower isDigit_toLower,
    hdigits]
  simp only [head?_map_toLower (d := '.') rfl]
  split
  · rw [lowerPiece, List.map_append, List.map_cons, hdigits, hdigits]
    rfl
  · rw [lowerPiece, hdigits]
    rfl

def symbolStarts : List Char := ['>', '<', '=', '(', ')', ',', ':']

theorem symbol?_eq_none {c : Char} {rest : List Char} (hother : c ∉ symbolStarts) :
    Scan.symbol? (c :: rest) = none := by
  unfold Scan.symbol?
  split
  case h_10 => rfl
  all_goals
    rename_i hsame
    cases hsame
    exact absurd (by simp [symbolStarts]) hother

theorem symbol?_operator_map_toLower {c : Char} (hfirst : c ∈ ['>', '<', '=']) (rest : List Char) :
    Scan.symbol? (c :: rest.map Char.toLower) = (Scan.symbol? (c :: rest)).map lowerPiece := by
  simp only [List.mem_cons, List.not_mem_nil, or_false] at hfirst
  rcases rest with _ | ⟨d, rest⟩
  · rcases hfirst with rfl | rfl | rfl <;> rfl
  by_cases hequals : d = '='
  · subst hequals
    rcases hfirst with rfl | rfl | rfl <;> rfl
  · have hequals' : d.toLower ≠ '=' := fun hsame => hequals ((toLower_eq_iff rfl d).mp hsame)
    rcases hfirst with rfl | rfl | rfl <;>
      simp [Scan.symbol?, hequals, hequals', lowerPiece, lowerToken]

theorem symbol?_map_toLower (text : List Char) :
    Scan.symbol? (text.map Char.toLower) = (Scan.symbol? text).map lowerPiece := by
  have houtside : ∀ c ∈ symbolStarts, c.isAlpha = false := by
    simp [symbolStarts, Char.isAlpha, Char.isUpper, Char.isLower]
  cases text with
  | nil => rfl
  | cons c rest =>
      by_cases hstart : c ∈ symbolStarts
      · simp only [symbolStarts, List.mem_cons, List.not_mem_nil, or_false] at hstart
        rcases hstart with rfl | rfl | rfl | rfl | rfl | rfl | rfl
        · exact symbol?_operator_map_toLower (by simp) rest
        · exact symbol?_operator_map_toLower (by simp) rest
        · exact symbol?_operator_map_toLower (by simp) rest
        · rfl
        · rfl
        · rfl
        · rfl
      · have hstart' : c.toLower ∉ symbolStarts := by
          rwa [toLower_iff (p := (· ∈ symbolStarts)) fun c hletter hmem => by
            simp [houtside c hmem] at hletter]
        rw [List.map_cons, symbol?_eq_none hstart', symbol?_eq_none hstart]
        rfl

theorem next?_map_toLower (c : Char) (rest : List Char) :
    Scan.next? c.toLower (rest.map Char.toLower) = (Scan.next? c rest).map lowerPiece := by
  have hcomment (c : Char) : (c.toLower != '\n') = (c != '\n') := by
    rw [Bool.eq_iff_iff, bne_iff_ne, bne_iff_ne, not_iff_not]
    exact toLower_eq_iff rfl c
  rw [Scan.next?, Scan.next?, isBlank_toLower, isWordStart_toLower, isDigit_toLower,
    ← List.map_cons]
  simp only [toLower_eq_iff (d := '#') rfl]
  split
  · rfl
  split
  · rw [takeWhile_map_toLower hcomment, dropWhile_map_toLower hcomment]
    rfl
  split
  · rw [word_map_toLower]
    rfl
  split
  · rw [number_map_toLower]
    rfl
  · exact symbol?_map_toLower (c :: rest)

def foldToken : Token → Token
  | .function name => .function name.toLower
  | token => token

def foldLexeme (lexeme : Lexeme) : Lexeme where
  token := foldToken lexeme.token
  position := lexeme.position

theorem foldToken_of_caseFree {token token' : Token} (hfree : CaseFree token)
    (hsame : lowerToken token' = lowerToken token) : foldToken token' = foldToken token := by
  cases token with
  | keyword word => cases token' <;> cases hsame; rfl
  | function name => cases token' <;> first | exact hsame | cases hsame
  | _ => exact hfree.elim

theorem eq_of_spells {token token' : Token} {chars : List Char} (hspelled : Spells token chars)
    (hspelled' : Spells token' chars) (hsame : lowerToken token' = lowerToken token) :
    token' = token := by
  cases token with
  | identifier name =>
      cases token' with
      | identifier name' =>
          cases hspelled
          cases hspelled'
          rfl
      | _ => cases hsame
  | function name =>
      cases token' with
      | function name' =>
          cases hspelled
          cases hspelled'
          rfl
      | _ => cases hsame
  | _ => cases token' <;> first | exact hsame | cases hsame

/-- What takes the place of a piece in other cases is a piece again. -/
theorem exists_next?_recased {c : Char} {rest lexeme' rest' : List Char} {piece : Scan.Piece}
    (hnext : Scan.next? c rest = some piece)
    (hletters : lexeme'.map Char.toLower = piece.lexeme.map Char.toLower)
    (hrests : rest'.map Char.toLower = piece.rest.map Char.toLower) :
    ∃ c' tail token?, lexeme' = c' :: tail ∧
      Scan.next? c' (tail ++ rest') = some ⟨token?, lexeme', rest'⟩ ∧
      token?.map lowerToken = piece.token?.map lowerToken := by
  have hlength : lexeme'.length = piece.lexeme.length := by
    simpa using congrArg List.length hletters
  obtain ⟨c', tail, rfl⟩ : ∃ c' tail, lexeme' = c' :: tail := by
    refine List.exists_cons_of_ne_nil fun hempty => Scan.lexeme_ne_nil hnext ?_
    rw [hempty] at hlength
    exact List.eq_nil_of_length_eq_zero hlength.symm
  have htexts : (c' :: (tail ++ rest')).map Char.toLower = (c :: rest).map Char.toLower := by
    rw [← Scan.lexeme_append_rest hnext, ← List.cons_append, List.map_append, List.map_append,
      hletters, hrests]
  obtain ⟨hfirst, hothers⟩ := List.cons.inj htexts
  have hlowered : (Scan.next? c' (tail ++ rest')).map lowerPiece = some (lowerPiece piece) := by
    rw [← next?_map_toLower, hfirst, hothers, next?_map_toLower, hnext]
    rfl
  obtain ⟨⟨token?, lexeme, rest''⟩, hnext', hsame⟩ := Option.map_eq_some_iff.mp hlowered
  have hlength' : lexeme.length = (c' :: tail).length := by
    rw [hlength]
    simpa [lowerPiece] using congrArg List.length (congrArg Scan.Piece.lexeme hsame)
  obtain ⟨rfl, rfl⟩ := List.append_inj (Scan.lexeme_append_rest hnext') hlength'
  exact ⟨c', tail, token?, rfl, hnext', congrArg Scan.Piece.token? hsame⟩

theorem map_foldLexeme_cons (lexeme : Lexeme) (following : Except ScanError (List Lexeme)) :
    (following.map (lexeme :: ·)).map (List.map foldLexeme) =
      (following.map (List.map foldLexeme)).map (foldLexeme lexeme :: ·) := by
  cases following <;> rfl

theorem scanFrom_piece {c : Char} {rest lexeme' rest' : List Char} {piece : Scan.Piece}
    (hnext : Scan.next? c rest = some piece)
    (hletters : lexeme'.map Char.toLower = piece.lexeme.map Char.toLower)
    (hrests : rest'.map Char.toLower = piece.rest.map Char.toLower)
    (htokens : ∀ token token', piece.token? = some token → Spells token' lexeme' →
      lowerToken token' = lowerToken token → foldToken token' = foldToken token)
    (hscanned : ∀ position, (Scan.scanFrom position rest').map (List.map foldLexeme) =
      (Scan.scanFrom position piece.rest).map (List.map foldLexeme)) (position : Nat) :
    (Scan.scanFrom position (lexeme' ++ rest')).map (List.map foldLexeme) =
      (Scan.scanFrom position (c :: rest)).map (List.map foldLexeme) := by
  obtain ⟨c', tail, token?, rfl, hnext', hsame⟩ := exists_next?_recased hnext hletters hrests
  have hbytes : byteLength (c' :: tail) = byteLength piece.lexeme := by
    rw [← byteLength_map_toLower, hletters, byteLength_map_toLower]
  rw [List.cons_append, scanFrom_cons, scanFrom_cons, hnext, hnext']
  dsimp only
  rw [hbytes]
  cases hkind : piece.token? with
  | none =>
      obtain rfl := Option.map_eq_none_iff.mp (hsame.trans (congrArg _ hkind))
      exact hscanned _
  | some token =>
      obtain ⟨token', rfl, hlower⟩ := Option.map_eq_some_iff.mp (hsame.trans (congrArg _ hkind))
      have hfolded : foldToken token' = foldToken token :=
        htokens token token' hkind (spells_next? hnext' rfl) hlower
      dsimp only
      rw [map_foldLexeme_cons, map_foldLexeme_cons, foldLexeme, foldLexeme, hfolded, hscanned]

theorem scanFrom_recased {text text' : List Char} (hrecased : Recased text text')
    (position : Nat) :
    (Scan.scanFrom position text').map (List.map foldLexeme) =
      (Scan.scanFrom position text).map (List.map foldLexeme) := by
  induction hrecased generalizing position with
  | done => rfl
  | stuck => rfl
  | @kept c rest rest' piece hnext hrecased ih =>
      refine scanFrom_piece hnext rfl hrecased.map_toLower ?_ ih position
      intro token token' hkind hspelled' hsame
      rw [eq_of_spells (spells_next? hnext hkind) hspelled' hsame]
  | @word c rest lexeme' rest' piece token hnext hkind hfree hletters hrecased ih =>
      refine scanFrom_piece hnext hletters hrecased.map_toLower ?_ ih position
      intro token token' hkind' hspelled' hsame
      obtain rfl := Option.some.inj (hkind.symm.trans hkind')
      exact foldToken_of_caseFree hfree hsame

end Backtest.Proofs.LetterCase
