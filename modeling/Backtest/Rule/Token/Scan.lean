import Backtest.Rule.Token
import Backtest.Text.Blank
import Backtest.Text.Bytes

namespace Backtest.Rule

open Text

structure ScanError where
  character : Char
  position : Nat
  deriving DecidableEq, Repr

namespace Scan

/-- The front of a text and what follows it. Blanks and comments have no token. -/
structure Piece where
  token? : Option Token
  lexeme : List Char
  rest : List Char

def isWordStart (c : Char) : Bool := c.isAlpha || c == '_'

def isWordChar (c : Char) : Bool := c.isAlphanum || c == '_'

/-- Whether the next character that is not blank opens a parenthesis. -/
def opensCall (rest : List Char) : Bool :=
  (trimLeft rest).head? == some '('

def wordToken (word rest : List Char) : Token :=
  let name := String.ofList word
  match Keyword.ofWord? name with
  | some keyword => .keyword keyword
  | none => if opensCall rest then .function name else .identifier name

def word (text : List Char) : Piece :=
  let lexeme := text.takeWhile isWordChar
  let rest := text.dropWhile isWordChar
  { token? := wordToken lexeme rest, lexeme, rest }

/-- Digits with a fraction where a point and another digit follow. -/
def number (text : List Char) : Piece :=
  let whole := text.takeWhile Char.isDigit
  let after := text.dropWhile Char.isDigit
  let fraction := (after.drop 1).takeWhile Char.isDigit
  if after.head? = some '.' ∧ fraction ≠ [] then
    { token? := some (.number (Decimal.ofDigits whole fraction).toFloat)
      lexeme := whole ++ '.' :: fraction
      rest := (after.drop 1).dropWhile Char.isDigit }
  else
    { token? := some (.number (Decimal.ofDigits whole []).toFloat)
      lexeme := whole
      rest := after }

/-- The operators and marks of punctuation, of two characters before those of one. -/
def symbol? : List Char → Option Piece
  | '>' :: '=' :: rest => some { token? := some (.operator .ge), lexeme := ['>', '='], rest }
  | '<' :: '=' :: rest => some { token? := some (.operator .le), lexeme := ['<', '='], rest }
  | '=' :: '=' :: rest => some { token? := some (.operator .eq), lexeme := ['=', '='], rest }
  | '>' :: rest => some { token? := some (.operator .gt), lexeme := ['>'], rest }
  | '<' :: rest => some { token? := some (.operator .lt), lexeme := ['<'], rest }
  | '(' :: rest => some { token? := some .leftParen, lexeme := ['('], rest }
  | ')' :: rest => some { token? := some .rightParen, lexeme := [')'], rest }
  | ',' :: rest => some { token? := some .comma, lexeme := [','], rest }
  | ':' :: rest => some { token? := some .colon, lexeme := [':'], rest }
  | _ => none

/-- The first piece of a text that is not empty; none if no token starts with its first
character. -/
def next? (c : Char) (rest : List Char) : Option Piece :=
  if isBlank c then some { token? := none, lexeme := [c], rest }
  else if c = '#' then
    some { token? := none
           lexeme := (c :: rest).takeWhile (· != '\n')
           rest := (c :: rest).dropWhile (· != '\n') }
  else if isWordStart c then some (word (c :: rest))
  else if c.isDigit then some (number (c :: rest))
  else symbol? (c :: rest)

theorem number_lexeme_append_rest (text : List Char) :
    (number text).lexeme ++ (number text).rest = text := by
  unfold number
  dsimp only
  split
  · rename_i h
    obtain ⟨r, hr⟩ : ∃ r, text.dropWhile Char.isDigit = '.' :: r := by
      cases hd : text.dropWhile Char.isDigit with
      | nil => simp [hd] at h
      | cons a r => simp [hd] at h; exact ⟨r, by rw [h.1]⟩
    have hsplit := List.takeWhile_append_dropWhile (p := Char.isDigit) (l := text)
    rw [hr] at hsplit ⊢
    simpa using hsplit
  · exact List.takeWhile_append_dropWhile

theorem symbol?_lexeme_append_rest {text : List Char} {piece : Piece}
    (h : symbol? text = some piece) : piece.lexeme ++ piece.rest = text := by
  unfold symbol? at h
  split at h <;> simp at h <;> subst h <;> rfl

theorem lexeme_append_rest {c : Char} {rest : List Char} {piece : Piece}
    (h : next? c rest = some piece) : piece.lexeme ++ piece.rest = c :: rest := by
  unfold next? at h
  split at h
  · simp at h; subst h; rfl
  · split at h
    · simp only [Option.some.injEq] at h; subst h; exact List.takeWhile_append_dropWhile
    · split at h
      · simp only [Option.some.injEq] at h; subst h; exact List.takeWhile_append_dropWhile
      · split at h
        · simp only [Option.some.injEq] at h; subst h; exact number_lexeme_append_rest _
        · exact symbol?_lexeme_append_rest h

theorem takeWhile_cons_ne_nil {p : Char → Bool} {c : Char} {rest : List Char} (h : p c = true) :
    (c :: rest).takeWhile p ≠ [] := by
  simp [h]

theorem lexeme_ne_nil {c : Char} {rest : List Char} {piece : Piece}
    (h : next? c rest = some piece) : piece.lexeme ≠ [] := by
  unfold next? at h
  split at h
  · simp at h; subst h; simp
  · split at h
    · rename_i hc
      simp only [Option.some.injEq] at h; subst h hc
      simp
    · split at h
      · rename_i hw
        simp only [Option.some.injEq] at h; subst h
        refine takeWhile_cons_ne_nil ?_
        simp only [isWordStart, Bool.or_eq_true] at hw
        rcases hw with hw | hw <;> simp [isWordChar, Char.isAlphanum, hw]
      · split at h
        · rename_i hd
          simp only [Option.some.injEq] at h; subst h
          have hne : (c :: rest).takeWhile Char.isDigit ≠ [] := takeWhile_cons_ne_nil hd
          unfold number
          dsimp only
          split
          · simp
          · exact hne
        · unfold symbol? at h
          split at h <;> simp at h <;> subst h <;> simp

theorem length_rest_lt {c : Char} {rest : List Char} {piece : Piece}
    (h : next? c rest = some piece) : piece.rest.length < (c :: rest).length := by
  have hlen := congrArg List.length (lexeme_append_rest h)
  have hpos := List.length_pos_iff.mpr (lexeme_ne_nil h)
  rw [List.length_append] at hlen
  omega

/-- The tokens of a text that starts at a position, each with its own position, and a last one at
the end. -/
def scanFrom (position : Nat) (text : List Char) : Except ScanError (List Lexeme) :=
  match text with
  | [] => .ok [⟨.stop, position⟩]
  | c :: rest =>
    match _h : next? c rest with
    | none => .error ⟨c, position⟩
    | some piece =>
      let following := scanFrom (position + byteLength piece.lexeme) piece.rest
      match piece.token? with
      | some token => following.map (⟨token, position⟩ :: ·)
      | none => following
  termination_by text.length
  decreasing_by exact length_rest_lt _h

end Scan

def scan (text : String) : Except ScanError (List Lexeme) :=
  Scan.scanFrom 0 text.toList

end Backtest.Rule
