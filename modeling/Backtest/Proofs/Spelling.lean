import Mathlib.Data.List.Chain
import Mathlib.Data.List.TakeWhile
import Backtest.Proofs.Scanner

namespace Backtest.Proofs.Spelling

open Backtest.Rule
open Backtest.Text
open Backtest.Proofs.Outcome
open Backtest.Proofs.Scanner

structure IsWord (chars : List Char) : Prop where
  start : ∃ c rest, chars = c :: rest ∧ Scan.isWordStart c = true
  wordChars : ∀ c ∈ chars, Scan.isWordChar c = true

theorem isWord_of_all {c : Char} {rest : List Char} (hstart : Scan.isWordStart c = true)
    (hwordChars : (c :: rest).all Scan.isWordChar = true) : IsWord (c :: rest) :=
  ⟨⟨c, rest, rfl, hstart⟩, List.all_eq_true.mp hwordChars⟩

structure IsDigits (chars : List Char) : Prop where
  nonempty : chars ≠ []
  digits : ∀ c ∈ chars, c.isDigit = true

/-- Digits as a literal writes them, with a point before the fraction if there is one. -/
def literal (whole : List Char) : List Char → List Char
  | [] => whole
  | c :: fraction => whole ++ '.' :: c :: fraction

/-- The characters are the keyword's, up to the case of ASCII letters. -/
def SpellsKeyword (chars : List Char) (word : Keyword) : Prop :=
  chars.map Char.toUpper = word.spelling.toList

instance (chars : List Char) (word : Keyword) : Decidable (SpellsKeyword chars word) :=
  inferInstanceAs (Decidable (chars.map Char.toUpper = word.spelling.toList))

/-- The first character that is not white space is an opening parenthesis. -/
def OpensCall (rest : List Char) : Prop :=
  ∃ blanks after, (∀ c ∈ blanks, isBlank c = true) ∧ rest = blanks ++ '(' :: after

/-- The characters spell the token. -/
inductive Spells : Token → List Char → Prop
  | keyword {chars : List Char} {word : Keyword} (hword : IsWord chars)
      (hkeyword : SpellsKeyword chars word) : Spells (.keyword word) chars
  | identifier {chars : List Char} (hword : IsWord chars)
      (hfree : ∀ word, ¬ SpellsKeyword chars word) :
      Spells (.identifier (String.ofList chars)) chars
  | function {chars : List Char} (hword : IsWord chars)
      (hfree : ∀ word, ¬ SpellsKeyword chars word) :
      Spells (.function (String.ofList chars)) chars
  | number {whole fraction : List Char} (hwhole : IsDigits whole)
      (hdigits : ∀ c ∈ fraction, c.isDigit = true) :
      Spells (.number (Decimal.ofDigits whole fraction).toFloat)
        (literal whole fraction)
  | operator (op : CompareOp) : Spells (.operator op) op.symbol.toList
  | leftParen : Spells .leftParen ['(']
  | rightParen : Spells .rightParen [')']
  | comma : Spells .comma [',']
  | colon : Spells .colon [':']

theorem ofWord?_eq_some_iff {chars : List Char} {word : Keyword} :
    Keyword.ofWord? (String.ofList chars) = some word ↔ SpellsKeyword chars word := by
  have hupper : (String.ofList chars).toUpper.toList = chars.map Char.toUpper := by
    simp [String.toUpper]
  rw [SpellsKeyword, ← hupper, String.toList_inj]
  constructor
  · intro h
    exact (eq_of_beq (List.find?_some h :)).symm
  · intro h
    rw [Keyword.ofWord?, h]
    cases word <;> rfl

theorem ofWord?_eq_none_iff {chars : List Char} :
    Keyword.ofWord? (String.ofList chars) = none ↔ ∀ word, ¬ SpellsKeyword chars word := by
  simp only [Option.eq_none_iff_forall_ne_some, ne_eq, ofWord?_eq_some_iff]

theorem opensCall_iff {rest : List Char} : Scan.opensCall rest = true ↔ OpensCall rest := by
  rw [Scan.opensCall, beq_iff_eq]
  constructor
  · intro h
    obtain ⟨after, hafter⟩ := List.head?_eq_some_iff.mp h
    refine ⟨rest.takeWhile isBlank, after, fun _ => List.mem_takeWhile_imp, ?_⟩
    rw [← hafter, trimLeft, List.takeWhile_append_dropWhile]
  · rintro ⟨blanks, after, hblanks, rfl⟩
    rw [trimLeft, List.dropWhile_append_of_pos hblanks]
    rfl

theorem spells_identifier {name : String} (hword : IsWord name.toList)
    (hfree : Keyword.ofWord? name = none) : Spells (.identifier name) name.toList := by
  have hspelled := Spells.identifier hword (ofWord?_eq_none_iff.mp (by rwa [String.ofList_toList]))
  rwa [String.ofList_toList] at hspelled

theorem spells_function {name : String} (hword : IsWord name.toList)
    (hfree : Keyword.ofWord? name = none) : Spells (.function name) name.toList := by
  have hspelled := Spells.function hword (ofWord?_eq_none_iff.mp (by rwa [String.ofList_toList]))
  rwa [String.ofList_toList] at hspelled

/-- What follows the token's spelling is no part of it. -/
def Delimits : Token → List Char → Prop
  | .keyword _, rest | .identifier _, rest | .function _, rest =>
      ∀ c ∈ rest.head?, Scan.isWordChar c = false
  | .number _, rest => ∀ c ∈ rest.head?, c.isDigit = false ∧ c ≠ '.'
  | .operator _, rest => rest.head? ≠ some '='
  | _, _ => True

/-- The text spells the tokens one after the other, with blanks anywhere between them. -/
inductive Written : List Token → List Char → Prop
  | done : Written [] []
  | blank {c : Char} {tokens : List Token} {rest : List Char}
      (hblank : isBlank c = true) (hwritten : Written tokens rest) :
      Written tokens (c :: rest)
  | token {token : Token} {lexeme rest : List Char} {tokens : List Token}
      (hspelled : Spells token lexeme) (hdelimited : Delimits token rest)
      (hwritten : Written tokens rest) :
      Written (token :: tokens) (lexeme ++ rest)

/-- A parenthesis follows the name of a function and no other name. -/
def Classified : Token → Token → Prop
  | .function _, next => next = .leftParen
  | .identifier _, next => next ≠ .leftParen
  | _, _ => True

theorem isBlank_eq_false {c : Char} (hlow : 33 ≤ c.toNat) (hhigh : c.toNat ≤ 126) :
    isBlank c = false := by
  simp only [isBlank, Bool.or_eq_false_iff, Bool.and_eq_false_iff,
    decide_eq_false_iff_not, beq_eq_false_iff_ne]
  omega

theorem toNat_of_isWordStart {c : Char} (hstart : Scan.isWordStart c = true) :
    65 ≤ c.toNat ∧ c.toNat ≤ 122 := by
  change (decide (65 ≤ c.val ∧ c.val ≤ 90) || (decide (97 ≤ c.val) && decide (c.val ≤ 122)) ||
    c == '_') = true at hstart
  simp only [Bool.or_eq_true, Bool.and_eq_true, decide_eq_true_eq, beq_iff_eq,
    UInt32.le_iff_toNat_le] at hstart
  change ((65 ≤ c.toNat ∧ c.toNat ≤ 90) ∨ (97 ≤ c.toNat ∧ c.toNat ≤ 122)) ∨
    c = '_' at hstart
  rcases hstart with (hcapital | hsmall) | rfl
  · omega
  · omega
  · decide

theorem toNat_of_isDigit {c : Char} (hdigit : c.isDigit = true) :
    48 ≤ c.toNat ∧ c.toNat ≤ 57 := by
  simpa [Char.isDigit, UInt32.le_iff_toNat_le] using hdigit

theorem isWordStart_of_isDigit {c : Char} (hdigit : c.isDigit = true) :
    Scan.isWordStart c = false := by
  have hrange := toNat_of_isDigit hdigit
  cases hstart : Scan.isWordStart c with
  | false => rfl
  | true =>
      have hletter := toNat_of_isWordStart hstart
      omega

theorem ne_of_isWordStart {c d : Char} (hstart : Scan.isWordStart c = true)
    (hother : Scan.isWordStart d = false) : c ≠ d := by
  rintro rfl
  rw [hstart] at hother
  exact nomatch hother

theorem ne_of_isDigit {c d : Char} (hdigit : c.isDigit = true)
    (hother : d.isDigit = false) : c ≠ d := by
  rintro rfl
  rw [hdigit] at hother
  exact nomatch hother

theorem takeWhile_append_of_stops {p : Char → Bool} {front rest : List Char}
    (hfrontHolds : ∀ c ∈ front, p c = true)
    (hstops : ∀ c ∈ rest.head?, p c = false) :
    (front ++ rest).takeWhile p = front ∧ (front ++ rest).dropWhile p = rest := by
  rw [List.takeWhile_append_of_pos hfrontHolds, List.dropWhile_append_of_pos hfrontHolds]
  cases rest with
  | nil => exact ⟨List.append_nil _, rfl⟩
  | cons c rest =>
      have hstop : ¬p c = true := by simp [hstops c rfl]
      rw [List.takeWhile_cons_of_neg hstop, List.dropWhile_cons_of_neg hstop]
      exact ⟨List.append_nil _, rfl⟩

theorem next?_wordStart {c : Char} {text : List Char} (hstart : Scan.isWordStart c = true) :
    Scan.next? c text = some (Scan.word (c :: text)) := by
  have hrange := toNat_of_isWordStart hstart
  have hblank : isBlank c = false := isBlank_eq_false (by omega) (by omega)
  have hhash : c ≠ '#' := ne_of_isWordStart hstart (by decide)
  simp [Scan.next?, hblank, hhash, hstart]

theorem next?_word {c : Char} {chars rest : List Char} (hword : IsWord (c :: chars))
    (hstops : ∀ d ∈ rest.head?, Scan.isWordChar d = false) :
    Scan.next? c (chars ++ rest) =
      some ⟨some (Scan.wordToken (c :: chars) rest), c :: chars, rest⟩ := by
  obtain ⟨d, tail, hsame, hstart⟩ := hword.start
  obtain ⟨rfl, rfl⟩ := List.cons.inj hsame
  obtain ⟨htaken, hdropped⟩ := takeWhile_append_of_stops hword.wordChars hstops
  rw [next?_wordStart hstart, ← List.cons_append, Scan.word, htaken, hdropped]

theorem exists_literal_cons {whole : List Char} (hwhole : IsDigits whole)
    (fraction : List Char) :
    ∃ c tail, literal whole fraction = c :: tail ∧ c.isDigit = true := by
  obtain ⟨c, tail, rfl⟩ := List.exists_cons_of_ne_nil hwhole.nonempty
  have hdigit : c.isDigit = true := hwhole.digits c List.mem_cons_self
  cases fraction with
  | nil => exact ⟨c, tail, rfl, hdigit⟩
  | cons d fraction => exact ⟨c, _, rfl, hdigit⟩

theorem number_literal {whole fraction rest : List Char} (hwhole : IsDigits whole)
    (hdigits : ∀ c ∈ fraction, c.isDigit = true)
    (hstops : ∀ c ∈ rest.head?, c.isDigit = false ∧ c ≠ '.') :
    Scan.number (literal whole fraction ++ rest) =
      ⟨some (.number (Decimal.ofDigits whole fraction).toFloat),
        literal whole fraction, rest⟩ := by
  cases fraction with
  | nil =>
      obtain ⟨htaken, hdropped⟩ :=
        takeWhile_append_of_stops hwhole.digits fun c hmem => (hstops c hmem).1
      have hnoPoint : rest.head? ≠ some '.' := fun hpoint => (hstops '.' hpoint).2 rfl
      simp [Scan.number, literal, htaken, hdropped, hnoPoint]
  | cons c fraction =>
      have hpoint : ∀ d ∈ ('.' :: c :: fraction ++ rest).head?, d.isDigit = false := by
        rintro d ⟨⟩
        decide
      obtain ⟨htaken, hdropped⟩ := takeWhile_append_of_stops hwhole.digits hpoint
      obtain ⟨htaken', hdropped'⟩ :=
        takeWhile_append_of_stops hdigits fun d hmem => (hstops d hmem).1
      rw [List.cons_append, List.cons_append] at htaken hdropped
      rw [List.cons_append] at htaken' hdropped'
      simp [Scan.number, literal, htaken, hdropped, htaken', hdropped']

theorem next?_number {c : Char} {text : List Char} (hdigit : c.isDigit = true) :
    Scan.next? c text = some (Scan.number (c :: text)) := by
  have hrange := toNat_of_isDigit hdigit
  have hblank : isBlank c = false := isBlank_eq_false (by omega) (by omega)
  have hhash : c ≠ '#' := ne_of_isDigit hdigit (by decide)
  simp [Scan.next?, hblank, hhash, isWordStart_of_isDigit hdigit, hdigit]

theorem next?_operator (op : CompareOp) {rest : List Char}
    (hdelimited : rest.head? ≠ some '=') :
    ∃ c tail, op.symbol.toList = c :: tail ∧
      Scan.next? c (tail ++ rest) = some ⟨some (.operator op), c :: tail, rest⟩ := by
  cases op with
  | ge => exact ⟨'>', ['='], rfl, rfl⟩
  | le => exact ⟨'<', ['='], rfl, rfl⟩
  | eq => exact ⟨'=', ['='], rfl, rfl⟩
  | gt =>
      refine ⟨'>', [], rfl, ?_⟩
      rcases rest with _ | ⟨d, rest⟩
      · rfl
      · have hne : d ≠ '=' := fun hsame => hdelimited (congrArg some hsame)
        simp [Scan.next?, isBlank, Scan.isWordStart, Scan.symbol?, hne]
  | lt =>
      refine ⟨'<', [], rfl, ?_⟩
      rcases rest with _ | ⟨d, rest⟩
      · rfl
      · have hne : d ≠ '=' := fun hsame => hdelimited (congrArg some hsame)
        simp [Scan.next?, isBlank, Scan.isWordStart, Scan.symbol?, hne]

theorem wordToken_keyword {chars rest : List Char} {word : Keyword}
    (hfound : Keyword.ofWord? (String.ofList chars) = some word) :
    Scan.wordToken chars rest = .keyword word := by
  simp [Scan.wordToken, hfound]

theorem wordToken_name {chars rest : List Char}
    (hfree : Keyword.ofWord? (String.ofList chars) = none) :
    Scan.wordToken chars rest =
      if Scan.opensCall rest then .function (String.ofList chars)
      else .identifier (String.ofList chars) := by
  simp [Scan.wordToken, hfree]

/-- The rest opens a call where the token names a function and nowhere else. -/
def CallAhead : Token → List Char → Prop
  | .function _, rest => OpensCall rest
  | .identifier _, rest => ¬ OpensCall rest
  | _, _ => True

theorem next?_spelled {token : Token} {lexeme rest : List Char}
    (hspelled : Spells token lexeme) (hdelimited : Delimits token rest)
    (hahead : CallAhead token rest) :
    ∃ c tail, lexeme = c :: tail ∧
      Scan.next? c (tail ++ rest) = some ⟨some token, lexeme, rest⟩ := by
  cases hspelled with
  | keyword hword hfound =>
      obtain ⟨c, tail, rfl, hstart⟩ := hword.start
      refine ⟨c, tail, rfl, ?_⟩
      rw [next?_word hword hdelimited, wordToken_keyword (ofWord?_eq_some_iff.mpr hfound)]
  | identifier hword hfree =>
      obtain ⟨c, tail, rfl, hstart⟩ := hword.start
      refine ⟨c, tail, rfl, ?_⟩
      rw [next?_word hword hdelimited, wordToken_name (ofWord?_eq_none_iff.mpr hfree), if_neg]
      exact opensCall_iff.not.mpr hahead
  | function hword hfree =>
      obtain ⟨c, tail, rfl, hstart⟩ := hword.start
      refine ⟨c, tail, rfl, ?_⟩
      rw [next?_word hword hdelimited, wordToken_name (ofWord?_eq_none_iff.mpr hfree),
        if_pos (opensCall_iff.mpr hahead)]
  | @number whole fraction hwhole hdigits =>
      obtain ⟨c, tail, hlexeme, hdigit⟩ := exists_literal_cons hwhole fraction
      refine ⟨c, tail, hlexeme, ?_⟩
      rw [next?_number hdigit, ← List.cons_append, ← hlexeme,
        number_literal hwhole hdigits hdelimited]
  | operator op =>
      obtain ⟨c, tail, hsymbol, hnext⟩ := next?_operator op hdelimited
      exact ⟨c, tail, hsymbol, hsymbol ▸ hnext⟩
  | leftParen => exact ⟨'(', [], rfl, rfl⟩
  | rightParen => exact ⟨')', [], rfl, rfl⟩
  | comma => exact ⟨',', [], rfl, rfl⟩
  | colon => exact ⟨':', [], rfl, rfl⟩

theorem opensCall_spelled {token : Token} {lexeme rest : List Char}
    (hspelled : Spells token lexeme) :
    Scan.opensCall (lexeme ++ rest) = true ↔ token = .leftParen := by
  have hvisible {c : Char} {tail : List Char} (hblank : isBlank c = false) :
      Scan.opensCall (c :: tail) = true ↔ c = '(' := by
    simp [Scan.opensCall, trimLeft, hblank]
  have hletters {chars : List Char} (hword : IsWord chars) :
      ¬Scan.opensCall (chars ++ rest) = true := by
    obtain ⟨c, tail, rfl, hstart⟩ := hword.start
    have hrange := toNat_of_isWordStart hstart
    rw [List.cons_append, hvisible (isBlank_eq_false (by omega) (by omega))]
    exact ne_of_isWordStart hstart (by decide)
  cases hspelled with
  | keyword hword hfound => exact ⟨fun hopens => absurd hopens (hletters hword), nofun⟩
  | identifier hword hfree => exact ⟨fun hopens => absurd hopens (hletters hword), nofun⟩
  | function hword hfree => exact ⟨fun hopens => absurd hopens (hletters hword), nofun⟩
  | @number whole fraction hwhole hdigits =>
      obtain ⟨c, tail, hlexeme, hdigit⟩ := exists_literal_cons hwhole fraction
      have hrange := toNat_of_isDigit hdigit
      rw [hlexeme, List.cons_append, hvisible (isBlank_eq_false (by omega) (by omega))]
      exact ⟨fun hsame => absurd hsame (ne_of_isDigit hdigit (by decide)), nofun⟩
  | operator op =>
      cases op <;> exact ⟨fun hopens => (nomatch hopens), nofun⟩
  | leftParen => exact ⟨fun _ => rfl, fun _ => rfl⟩
  | rightParen => exact ⟨fun hopens => (nomatch hopens), nofun⟩
  | comma => exact ⟨fun hopens => (nomatch hopens), nofun⟩
  | colon => exact ⟨fun hopens => (nomatch hopens), nofun⟩

theorem opensCall_written {tokens : List Token} {text : List Char}
    (hwritten : Written tokens text) :
    Scan.opensCall text = true ↔ tokens.head? = some .leftParen := by
  induction hwritten with
  | done => exact ⟨nofun, nofun⟩
  | blank hblank hwritten ih =>
      rw [← ih]
      simp [Scan.opensCall, trimLeft, hblank]
  | token hspelled hdelimited hwritten ih =>
      rw [opensCall_spelled hspelled, List.head?_cons, Option.some.injEq]

theorem callAhead_written {token : Token} {tokens : List Token} {text : List Char}
    (hwritten : Written tokens text)
    (hclassified : List.IsChain Classified (token :: (tokens ++ [.stop]))) :
    CallAhead token text := by
  obtain ⟨next, rest, hsplit⟩ :
      ∃ next rest, tokens ++ [Token.stop] = next :: rest := by cases tokens <;> exact ⟨_, _, rfl⟩
  have hopens : Scan.opensCall text = true ↔ next = .leftParen := by
    rw [opensCall_written hwritten]
    cases tokens with
    | nil =>
        obtain ⟨rfl, -⟩ := List.cons.inj hsplit
        exact ⟨nofun, nofun⟩
    | cons first others =>
        obtain ⟨rfl, -⟩ := List.cons.inj hsplit
        rw [List.head?_cons, Option.some.injEq]
  rw [hsplit] at hclassified
  have hfollows := (List.isChain_cons_cons.mp hclassified).1
  cases token with
  | function name => exact opensCall_iff.mp (hopens.mpr hfollows)
  | identifier name => exact fun hcalled => hfollows (hopens.mp (opensCall_iff.mpr hcalled))
  | _ => trivial

/-- A written text is scanned as the tokens that it spells. -/
theorem scanFrom_written {tokens : List Token} {text : List Char}
    (hwritten : Written tokens text)
    (hclassified : List.IsChain Classified (tokens ++ [.stop])) (position : Nat) :
    ∃ front last, Scan.scanFrom position text = .ok (front ++ [⟨.stop, last⟩]) ∧
      front.map Lexeme.token = tokens := by
  induction hwritten generalizing position with
  | done => exact ⟨[], position, scanFrom_nil position, rfl⟩
  | @blank c tokens rest hblank hwritten ih =>
      obtain ⟨front, last, hscanned, htokens⟩ :=
        ih hclassified (position + byteLength [c])
      refine ⟨front, last, ?_, htokens⟩
      rw [scanFrom_cons]
      simp only [Scan.next?, hblank, if_true]
      exact hscanned
  | @token token lexeme rest tokens hspelled hdelimited hwritten ih =>
      obtain ⟨front, last, hscanned, hsame⟩ :=
        ih hclassified.tail (position + byteLength lexeme)
      obtain ⟨c, tail, rfl, hnext⟩ :=
        next?_spelled hspelled hdelimited (callAhead_written hwritten hclassified)
      refine ⟨⟨token, position⟩ :: front, last, ?_, congrArg (token :: ·) hsame⟩
      rw [List.cons_append, scanFrom_cons, hnext]
      simp only [hscanned]
      rfl

theorem delimits_space (token : Token) (rest : List Char) :
    Delimits token (' ' :: rest) := by
  cases token with
  | keyword word | identifier name | function name => rintro c ⟨⟩; decide
  | number value => rintro c ⟨⟩; decide
  | operator op => exact nofun
  | _ => trivial

theorem exists_written {tokens : List Token}
    (hspelled : ∀ token ∈ tokens, ∃ chars, Spells token chars) :
    ∃ text, Written tokens text := by
  induction tokens with
  | nil => exact ⟨[], .done⟩
  | cons token rest ih =>
      obtain ⟨⟨chars, hfirst⟩, hothers⟩ := List.forall_mem_cons.mp hspelled
      obtain ⟨text, hwritten⟩ := ih hothers
      exact ⟨chars ++ ' ' :: text,
        .token hfirst (delimits_space token text) (.blank rfl hwritten)⟩

theorem spells_wordToken {chars rest : List Char} (hword : IsWord chars) :
    Spells (Scan.wordToken chars rest) chars := by
  cases hfound : Keyword.ofWord? (String.ofList chars) with
  | some word =>
      exact wordToken_keyword hfound ▸ .keyword hword (ofWord?_eq_some_iff.mp hfound)
  | none =>
      rw [wordToken_name hfound]
      split
      · exact .function hword (ofWord?_eq_none_iff.mp hfound)
      · exact .identifier hword (ofWord?_eq_none_iff.mp hfound)

theorem spells_number {c : Char} {text : List Char} {token : Token}
    (hdigit : c.isDigit = true)
    (hkind : (Scan.number (c :: text)).token? = some token) :
    Spells token (Scan.number (c :: text)).lexeme := by
  have hwhole : IsDigits ((c :: text).takeWhile Char.isDigit) :=
    ⟨Scan.takeWhile_cons_ne_nil hdigit, fun _ => List.mem_takeWhile_imp⟩
  unfold Scan.number at hkind ⊢
  dsimp only at hkind ⊢
  split at hkind
  · next hfractional =>
      rw [if_pos hfractional]
      obtain rfl := Option.some.inj hkind
      obtain ⟨d, fraction, hsplit⟩ := List.exists_cons_of_ne_nil hfractional.2
      have hdigits : ∀ d ∈ (((c :: text).dropWhile Char.isDigit).drop 1).takeWhile
          Char.isDigit, d.isDigit = true := fun _ => List.mem_takeWhile_imp
      rw [hsplit] at hdigits ⊢
      exact .number hwhole hdigits
  · next hplain =>
      rw [if_neg hplain]
      obtain rfl := Option.some.inj hkind
      exact .number hwhole nofun

theorem spells_symbol? {text : List Char} {piece : Scan.Piece} {token : Token}
    (hfound : Scan.symbol? text = some piece) (hkind : piece.token? = some token) :
    Spells token piece.lexeme := by
  unfold Scan.symbol? at hfound
  split at hfound
  case h_1 => cases hfound; cases hkind; exact .operator .ge
  case h_2 => cases hfound; cases hkind; exact .operator .le
  case h_3 => cases hfound; cases hkind; exact .operator .eq
  case h_4 => cases hfound; cases hkind; exact .operator .gt
  case h_5 => cases hfound; cases hkind; exact .operator .lt
  case h_6 => cases hfound; cases hkind; exact .leftParen
  case h_7 => cases hfound; cases hkind; exact .rightParen
  case h_8 => cases hfound; cases hkind; exact .comma
  case h_9 => cases hfound; cases hkind; exact .colon
  case h_10 => exact nomatch hfound

theorem spells_next? {c : Char} {rest : List Char} {piece : Scan.Piece} {token : Token}
    (hfound : Scan.next? c rest = some piece) (hkind : piece.token? = some token) :
    Spells token piece.lexeme := by
  unfold Scan.next? at hfound
  split at hfound
  · cases hfound
    exact nomatch hkind
  · split at hfound
    · cases hfound
      exact nomatch hkind
    · split at hfound
      · next hstart =>
          cases hfound
          cases hkind
          have hfirst : Scan.isWordChar c = true := by
            simp only [Scan.isWordStart, Bool.or_eq_true] at hstart
            simp only [Scan.isWordChar, Char.isAlphanum, Bool.or_eq_true]
            exact hstart.imp_left .inl
          have hfront : (c :: rest).takeWhile Scan.isWordChar =
              c :: rest.takeWhile Scan.isWordChar := List.takeWhile_cons_of_pos hfirst
          exact spells_wordToken ⟨⟨c, _, hfront, hstart⟩, fun _ => List.mem_takeWhile_imp⟩
      · split at hfound
        · next hdigit =>
            cases hfound
            exact spells_number hdigit hkind
        · exact spells_symbol? hfound hkind

theorem callAhead_wordToken (word rest : List Char) :
    CallAhead (Scan.wordToken word rest) rest := by
  unfold Scan.wordToken
  dsimp only
  split
  · trivial
  · split
    · next hopens => exact opensCall_iff.mp hopens
    · next hclosed => exact opensCall_iff.not.mp hclosed

theorem callAhead_next? {c : Char} {rest : List Char} {piece : Scan.Piece} {token : Token}
    (hfound : Scan.next? c rest = some piece) (hkind : piece.token? = some token) :
    CallAhead token piece.rest := by
  unfold Scan.next? at hfound
  split at hfound
  · cases hfound
    exact nomatch hkind
  split at hfound
  · cases hfound
    exact nomatch hkind
  split at hfound
  · cases hfound
    cases hkind
    exact callAhead_wordToken _ _
  split at hfound
  · cases hfound
    unfold Scan.number at hkind
    dsimp only at hkind
    split at hkind <;> cases hkind <;> trivial
  · unfold Scan.symbol? at hfound
    split at hfound <;> cases hfound <;> cases hkind <;> trivial

theorem spelled_of_scanFrom {position : Nat} {text : List Char} {lexemes : List Lexeme}
    (hscanned : Scan.scanFrom position text = .ok lexemes) :
    ∀ lexeme ∈ lexemes, lexeme.token = .stop ∨ ∃ chars, Spells lexeme.token chars := by
  fun_induction Scan.scanFrom position text generalizing lexemes with
  | case1 position =>
      cases hscanned
      intro lexeme hmem
      rw [List.mem_singleton] at hmem
      exact .inl (congrArg Lexeme.token hmem)
  | case2 position c rest hnone => cases hscanned
  | case3 position c rest piece hfound following token hkind =>
      rename_i ih
      obtain ⟨tail, hinner, rfl⟩ := map_eq_ok.mp hscanned
      rw [List.forall_mem_cons]
      exact ⟨.inr ⟨piece.lexeme, spells_next? hfound hkind⟩, ih hinner⟩
  | case4 position c rest piece hfound following hblank =>
      rename_i ih
      exact ih hscanned

end Backtest.Proofs.Spelling
