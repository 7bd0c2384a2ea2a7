import Backtest.Proofs.Tiling
import Backtest.Proofs.WrittenRule

namespace Backtest.Proofs.BlankedComments

open Backtest.Rule
open Backtest.Text
open Backtest.Proofs.CallParenthesis
open Backtest.Proofs.Checked (byteLength_append)
open Backtest.Proofs.LongestToken
open Backtest.Proofs.Outcome
open Backtest.Proofs.Scanner
open Backtest.Proofs.Spelling
open Backtest.Proofs.Tiling
open Backtest.Proofs.Viability
open Backtest.Proofs.WrittenRule

/-- A space in place of every byte of the comments, one of which may reach into the text. -/
def blankFrom : Bool → List Char → List Char
  | _, [] => []
  | inside, c :: rest =>
      if c = '\n' then c :: blankFrom false rest
      else if inside || c == '#' then List.replicate c.utf8Size ' ' ++ blankFrom true rest
      else c :: blankFrom false rest

def withoutComments (text : String) : String := String.ofList (blankFrom false text.toList)

/-- A name before a parenthesis is that of a function. -/
def called : Token → Option Token → Token
  | .identifier name, some .leftParen => .function name
  | token, _ => token

def callNames : List Lexeme → List Lexeme
  | [] => []
  | ⟨token, position⟩ :: rest =>
      ⟨called token (rest.head?.map Lexeme.token), position⟩ :: callNames rest

variable {c : Char} {text rest gap chars after line : List Char} {token : Token}
variable {front lexemes : List Lexeme} {position stop : Nat}

theorem ne_hash_of_blank (hblank : isBlank c = true) : c ≠ '#' := by
  rintro rfl
  exact absurd hblank (by decide)

theorem blankFrom_cons (hc : c ≠ '#') (rest : List Char) :
    blankFrom false (c :: rest) = c :: blankFrom false rest := by
  by_cases hnewline : c = '\n' <;> simp [blankFrom, hnewline, hc]

theorem blankFrom_hash (rest : List Char) :
    blankFrom false ('#' :: rest) = ' ' :: blankFrom true rest := by
  rw [blankFrom, if_neg (by decide), if_pos (by decide)]
  rfl

theorem blankFrom_append (hchars : ∀ c ∈ chars, c ≠ '#') (rest : List Char) :
    blankFrom false (chars ++ rest) = chars ++ blankFrom false rest := by
  induction chars with
  | nil => rfl
  | cons c chars ih =>
      obtain ⟨hc, hchars⟩ := List.forall_mem_cons.mp hchars
      rw [List.cons_append, blankFrom_cons hc, ih hchars, List.cons_append]

theorem blankFrom_lineEnd (hend : ∀ c ∈ rest.head?, (c != '\n') = false) :
    blankFrom true rest = blankFrom false rest := by
  cases rest with
  | nil => rfl
  | cons c rest =>
      have hc : c = '\n' := by simpa using hend c rfl
      simp [blankFrom, hc]

theorem byteLength_spaces (count : Nat) : byteLength (List.replicate count ' ') = count := by
  induction count with
  | zero => rfl
  | succ count ih =>
      rw [List.replicate_succ, byteLength, ih, Nat.add_comm]
      rfl

theorem blankFrom_line (hline : ∀ c ∈ line, (c != '\n') = true)
    (hend : ∀ c ∈ rest.head?, (c != '\n') = false) :
    blankFrom true (line ++ rest) =
      List.replicate (byteLength line) ' ' ++ blankFrom false rest := by
  induction line with
  | nil => exact blankFrom_lineEnd hend
  | cons c line ih =>
      obtain ⟨hc, hline⟩ := List.forall_mem_cons.mp hline
      have hnewline : c ≠ '\n' := by simpa using hc
      rw [List.cons_append, blankFrom, if_neg hnewline, Bool.true_or, if_pos rfl, ih hline,
        byteLength, List.replicate_add, List.append_assoc]

theorem exists_blanks (hgap : Gap gap rest) :
    ∃ blanks, blankFrom false (gap ++ rest) = blanks ++ blankFrom false rest ∧
      byteLength blanks = byteLength gap ∧ ∀ c ∈ blanks, isBlank c = true := by
  induction hgap with
  | done rest => exact ⟨[], rfl, rfl, nofun⟩
  | @blank c gap rest hblank hgap ih =>
      obtain ⟨blanks, htext, hlength, hblanks⟩ := ih
      refine ⟨c :: blanks, ?_, ?_, List.forall_mem_cons.mpr ⟨hblank, hblanks⟩⟩
      · rw [List.cons_append, blankFrom_cons (ne_hash_of_blank hblank), htext, List.cons_append]
      · rw [byteLength, hlength, byteLength]
  | @comment line gap rest hline hend hgap ih =>
      obtain ⟨blanks, htext, hlength, hblanks⟩ := ih
      refine ⟨List.replicate (byteLength ('#' :: line)) ' ' ++ blanks, ?_, ?_, ?_⟩
      · have hcomment := blankFrom_line hline hend
        rw [htext] at hcomment
        rw [List.cons_append, List.append_assoc, blankFrom_hash, hcomment, byteLength,
          List.replicate_add, List.append_assoc, List.append_assoc]
        rfl
      · rw [byteLength_append, byteLength_spaces, hlength, ← byteLength_append, List.cons_append]
      · intro c hc
        obtain hc | hc := List.mem_append.mp hc
        · rw [List.eq_of_mem_replicate hc]
          rfl
        · exact hblanks c hc

theorem gap_of_blanks (hblanks : ∀ c ∈ chars, isBlank c = true) (rest : List Char) :
    Gap chars rest := by
  induction chars with
  | nil => exact .done rest
  | cons c chars ih =>
      obtain ⟨hc, hchars⟩ := List.forall_mem_cons.mp hblanks
      exact .blank hc (ih hchars)

theorem opensCall_blanks (hblanks : ∀ c ∈ chars, isBlank c = true) (rest : List Char) :
    Scan.opensCall (chars ++ rest) = Scan.opensCall rest := by
  rw [Scan.opensCall, trimLeft, List.dropWhile_append_of_pos hblanks]
  rfl

theorem plain_of_class {p : Char → Bool} (hhash : p '#' = false) (hspace : p ' ' = false)
    (hchars : ∀ c ∈ chars, p c = true) : ∀ c ∈ chars, c ≠ '#' ∧ c ≠ ' ' := by
  intro c hc
  have hclass := hchars c hc
  constructor
  · rintro rfl
    exact Bool.false_ne_true (hhash.symm.trans hclass)
  · rintro rfl
    exact Bool.false_ne_true (hspace.symm.trans hclass)

theorem plain_of_spells (hspells : Spells token chars) : ∀ c ∈ chars, c ≠ '#' ∧ c ≠ ' ' := by
  have hword (hchars : IsWord chars) : ∀ c ∈ chars, c ≠ '#' ∧ c ≠ ' ' :=
    plain_of_class (by decide) (by decide) hchars.wordChars
  cases hspells with
  | keyword hchars => exact hword hchars
  | identifier hchars => exact hword hchars
  | function hchars => exact hword hchars
  | @number whole fraction hwhole hfraction =>
      have hdigits := plain_of_class (by decide) (by decide) hwhole.digits
      have hdecimals := plain_of_class (by decide) (by decide) hfraction
      cases fraction with
      | nil => exact hdigits
      | cons d fraction =>
          refine List.forall_mem_append.mpr ⟨hdigits, ?_⟩
          exact List.forall_mem_cons.mpr ⟨by decide, hdecimals⟩
  | operator op => cases op <;> simp [CompareOp.symbol]
  | leftParen | rightParen | comma | colon => simp

theorem blankFrom_spelled (hspells : Spells token chars) (rest : List Char) :
    blankFrom false (chars ++ rest) = chars ++ blankFrom false rest :=
  blankFrom_append (fun c hc => (plain_of_spells hspells c hc).1) rest

theorem prefix_of_blanked (hchars : ∀ c ∈ chars, c ≠ ' ')
    (hstart : chars <+: blankFrom false text) : chars <+: text := by
  induction chars generalizing text with
  | nil => exact List.nil_prefix
  | cons c chars ih =>
      obtain ⟨hc, hchars⟩ := List.forall_mem_cons.mp hchars
      cases text with
      | nil => exact hstart
      | cons d rest =>
          by_cases hhash : d = '#'
          · subst hhash
            obtain ⟨hspace, -⟩ := List.cons_prefix_cons.mp hstart
            exact absurd hspace hc
          · rw [blankFrom_cons hhash] at hstart
            obtain ⟨rfl, hrest⟩ := List.cons_prefix_cons.mp hstart
            exact List.cons_prefix_cons.mpr ⟨rfl, ih hchars hrest⟩

theorem isLongest_blanked (hspells : Spells token chars) (hlongest : IsLongest chars after) :
    IsLongest chars (blankFrom false after) := by
  intro token' chars' hspells' hstart
  rw [← blankFrom_spelled hspells] at hstart
  have hspaceless : ∀ c ∈ chars', c ≠ ' ' := fun c hc => (plain_of_spells hspells' c hc).2
  exact hlongest token' chars' hspells' (prefix_of_blanked hspaceless hstart)

theorem startsNothing_blanked (hnothing : StartsNothing c after) :
    StartsNothing c (blankFrom false after) := by
  refine { hnothing with notEquals := fun hc hhead => hnothing.notEquals hc ?_ }
  obtain ⟨rest, hrest⟩ := List.head?_eq_some_iff.mp hhead
  have hstart : ['='] <+: blankFrom false after := ⟨rest, hrest.symm⟩
  have hequals : ∀ c ∈ ['='], c ≠ ' ' := List.forall_mem_singleton.mpr (by decide)
  obtain ⟨rest', rfl⟩ := prefix_of_blanked hequals hstart
  rfl

theorem opensCall_blanked (hopens : Scan.opensCall text = true) :
    Scan.opensCall (blankFrom false text) = true := by
  induction text with
  | nil => exact hopens
  | cons c rest ih =>
      obtain ⟨hblank, hrest⟩ | rfl := opensCall_cons hopens
      · have hskip : Scan.opensCall ([c] ++ blankFrom false rest) =
            Scan.opensCall (blankFrom false rest) :=
          opensCall_blanks (List.forall_mem_singleton.mpr hblank) _
        rw [blankFrom_cons (ne_hash_of_blank hblank)]
        exact hskip.trans (ih hrest)
      · rfl

/-- The rest of a text after its tiles is empty or refused. -/
def Ends (rest : List Char) : Prop := ∀ c after, rest = c :: after → StartsNothing c after

theorem opensCall_of_ends (hends : Ends rest) : Scan.opensCall (blankFrom false rest) = false := by
  cases rest with
  | nil => rfl
  | cons c after =>
      have hnothing := hends c after rfl
      have hparen : c ≠ '(' := by
        rintro rfl
        exact hnothing.notMark (by decide)
      rw [blankFrom_cons hnothing.notHash]
      simp [Scan.opensCall, trimLeft, hnothing.notBlank, hparen]

theorem opensCall_tiles (htiles : Tiles position text front stop rest) (hends : Ends rest) :
    Scan.opensCall (blankFrom false text) = true ↔
      front.head?.map Lexeme.token = some .leftParen := by
  cases htiles with
  | done hgap =>
      obtain ⟨blanks, htext, -, hblanks⟩ := exists_blanks hgap
      rw [htext, opensCall_blanks hblanks, opensCall_of_ends hends]
      exact ⟨nofun, nofun⟩
  | token hgap hspells hlongest hahead htiles =>
      obtain ⟨blanks, htext, -, hblanks⟩ := exists_blanks hgap
      rw [htext, opensCall_blanks hblanks, blankFrom_spelled hspells, opensCall_spelled hspells]
      simp

theorem spells_called (hspells : Spells token chars) (next : Option Token) :
    Spells (called token next) chars := by
  unfold called
  split
  · cases hspells with
    | identifier hword hfree => exact .function hword hfree
  · exact hspells

theorem callAhead_called {next : Option Token} (hahead : CallAhead token after)
    (hopens : Scan.opensCall (blankFrom false after) = true ↔ next = some .leftParen) :
    CallAhead (called token next) (blankFrom false after) := by
  unfold called
  split
  · exact opensCall_iff.mp (hopens.mpr rfl)
  · next hnot =>
      cases token with
      | identifier name => exact opensCall_iff.not.mp fun hcall => hnot name rfl (hopens.mp hcall)
      | function name => exact opensCall_iff.mp (opensCall_blanked (opensCall_iff.mpr hahead))
      | _ => trivial

theorem tiles_blanked (htiles : Tiles position text front stop rest) (hends : Ends rest) :
    Tiles position (blankFrom false text) (callNames front) stop (blankFrom false rest) := by
  induction htiles with
  | done hgap =>
      obtain ⟨blanks, htext, hlength, hblanks⟩ := exists_blanks hgap
      rw [htext, ← hlength]
      exact .done (gap_of_blanks hblanks _)
  | token hgap hspells hlongest hahead htiles ih =>
      obtain ⟨blanks, htext, hlength, hblanks⟩ := exists_blanks hgap
      have hopens := opensCall_tiles htiles hends
      rw [htext, blankFrom_spelled hspells]
      rw [← hlength] at ih ⊢
      exact .token (gap_of_blanks hblanks _) (spells_called hspells _)
        (isLongest_blanked hspells hlongest) (callAhead_called hahead hopens) (ih hends)

theorem callNames_concat (front : List Lexeme) (stop : Nat) :
    callNames (front ++ [⟨.stop, stop⟩]) = callNames front ++ [⟨.stop, stop⟩] := by
  induction front with
  | nil => rfl
  | cons first front ih =>
      have hcalled : called first.token ((front ++ [Lexeme.mk .stop stop]).head?.map Lexeme.token) =
          called first.token (front.head?.map Lexeme.token) := by
        cases front with
        | nil => cases first.token <;> rfl
        | cons next front => rfl
      rw [List.cons_append, callNames, ih, callNames, hcalled, List.cons_append]

theorem scanFrom_blanked (position : Nat) (text : List Char) :
    Scan.scanFrom position (blankFrom false text) = callNames <$> Scan.scanFrom position text := by
  obtain ⟨front, stop, rest, htiles, hends⟩ := exists_tiles position text
  rw [scanFrom_tiles htiles, scanFrom_tiles (tiles_blanked htiles hends)]
  cases rest with
  | nil =>
      rw [blankFrom, scanFrom_nil]
      exact congrArg Except.ok (callNames_concat front stop).symm
  | cons c after =>
      have hnothing := hends c after rfl
      rw [blankFrom_cons hnothing.notHash, scanFrom_of_startsNothing hnothing,
        scanFrom_of_startsNothing (startsNothing_blanked hnothing)]
      rfl

/-- No identifier stands before a parenthesis. -/
def Uncalled : Token → Token → Prop
  | .identifier _, next => next ≠ .leftParen
  | _, _ => True

theorem called_eq_iff {next : Option Token} :
    called token next = token ↔ ∀ following ∈ next, Uncalled token following := by
  unfold called
  split
  · exact ⟨nofun, fun hnext => absurd rfl (hnext _ rfl)⟩
  · next hnot =>
      refine ⟨fun _ following hnext => ?_, fun _ => rfl⟩
      cases token with
      | identifier name =>
          rintro rfl
          exact hnot name rfl hnext
      | _ => trivial

theorem callNames_eq_iff :
    callNames lexemes = lexemes ↔ (lexemes.map Lexeme.token).IsChain Uncalled := by
  induction lexemes with
  | nil => exact ⟨fun _ => .nil, fun _ => rfl⟩
  | cons first rest ih =>
      rw [List.map_cons, List.isChain_cons, List.head?_map, ← ih, ← called_eq_iff, callNames,
        List.cons.injEq, Lexeme.mk.injEq]
      simp

theorem scan_eq_callNames (text : String) :
    scan (withoutComments text) = callNames <$> scan text := by
  rw [scan, withoutComments, String.toList_ofList, scanFrom_blanked, scan]

theorem scan_eq_of_uncalled {text : String} (hscan : scan text = .ok lexemes)
    (hchain : (lexemes.map Lexeme.token).IsChain Uncalled) :
    scan (withoutComments text) = scan text := by
  rw [scan_eq_callNames, hscan]
  exact congrArg Except.ok (callNames_eq_iff.mpr hchain)

theorem scan_eq_of_classified {text : String} (hscan : scan text = .ok lexemes)
    (hchain : (lexemes.map Lexeme.token).IsChain Classified) :
    scan (withoutComments text) = scan text := by
  refine scan_eq_of_uncalled hscan (hchain.imp fun token following hclassified => ?_)
  cases token with
  | identifier name => exact hclassified
  | _ => trivial

theorem scan_eq_of_read {β : Type} {text : String} {read : List Lexeme → Except SyntaxError β}
    {result : β} (hread : (scan text).mapError .scan >>= read = .ok result)
    (hchain : ∀ front last, scan text = .ok (front ++ [⟨.stop, last⟩]) →
      (∀ lexeme ∈ front, lexeme.token ≠ .stop) →
        (front.map Lexeme.token ++ [.stop]).IsChain Classified) :
    scan (withoutComments text) = scan text := by
  obtain ⟨lexemes, hscan, -⟩ := bind_eq_ok.mp hread
  replace hscan := mapError_eq_ok.mp hscan
  obtain ⟨front, last, rfl, hproper⟩ := scan_eq_append hscan
  refine scan_eq_of_classified hscan ?_
  rw [List.map_append]
  exact hchain front last hscan hproper

/-- Spaces over the comments of a text leave its errors and the places of its tokens, and change no
token but an identifier before a parenthesis, which becomes the name of a function. No such
identifier stands in a rule that is read. -/
theorem scan_withoutComments (text : String) :
    scan (withoutComments text) = callNames <$> scan text ∧
    (scan (withoutComments text) = scan text ↔
      ∀ lexemes, scan text = .ok lexemes → (lexemes.map Lexeme.token).IsChain Uncalled) ∧
    (∀ rules, parse text = .ok rules → parse (withoutComments text) = .ok rules) ∧
    ∀ tree, parseExpression text = .ok tree →
      parseExpression (withoutComments text) = .ok tree := by
  refine ⟨scan_eq_callNames text, ⟨?_, ?_⟩, ?_, ?_⟩
  · intro hsame lexemes hscan
    rw [scan_eq_callNames, hscan] at hsame
    exact callNames_eq_iff.mp (Except.ok.inj hsame)
  · intro hchain
    cases hscan : scan text with
    | error error =>
        rw [scan_eq_callNames, hscan]
        rfl
    | ok lexemes => exact (scan_eq_of_uncalled hscan (hchain lexemes hscan)).trans hscan
  · intro rules hparse
    have hsame := scan_eq_of_read hparse fun front last hscan hproper => by
      obtain ⟨program, htokens, -⟩ := (parse_eq_ok hscan hproper rules).mp hparse
      exact htokens ▸ ProgramPrefix.isChain_tokens program
    rw [← hparse, parse, hsame, ← parse]
  · intro tree hparse
    have hsame := scan_eq_of_read hparse fun front last hscan hproper => by
      obtain ⟨expression, htokens, -⟩ := (parseExpression_eq_ok hscan hproper tree).mp hparse
      exact htokens ▸ ExpressionPrefix.isChain_tokens expression
    rw [← hparse, parseExpression, hsame, ← parseExpression]

/-- A rule with a comment between a name and its parenthesis. -/
def commentedCall : String := "ENTRY: f #\n(a) > b"

def commentedLexemes (name : Token) : List Lexeme :=
  [⟨.keyword .entry, 0⟩, ⟨.colon, 5⟩, ⟨name, 7⟩, ⟨.leftParen, 11⟩, ⟨.identifier "a", 12⟩,
    ⟨.rightParen, 13⟩, ⟨.operator .gt, 15⟩, ⟨.identifier "b", 17⟩, ⟨.stop, 18⟩]

theorem scan_commentedCall :
    scan commentedCall = .ok (commentedLexemes (.identifier "f")) := by
  simp [commentedCall, commentedLexemes, scan, scanFrom_cons, scanFrom_nil, Scan.next?, isBlank,
    Scan.isWordStart, Scan.isWordChar, Scan.word, Scan.wordToken, Scan.symbol?, Scan.opensCall,
    trimLeft, Keyword.ofWord?, Keyword.all, Keyword.spelling, String.toUpper,
    String.map_eq_internal, byteLength, Except.map, Char.utf8Size]

/-- With the comment the name is no function, and the rule is read only without it. -/
theorem comment_hides_call :
    scan commentedCall = .ok (commentedLexemes (.identifier "f")) ∧
      scan (withoutComments commentedCall) = .ok (commentedLexemes (.function "f")) ∧
      parse commentedCall = .error (.parse ⟨.unexpected (.block false) .leftParen, 11⟩) ∧
      parse (withoutComments commentedCall) =
        .ok { entry := some (.compare .gt (.call "f" [.identifier "a"]) (.identifier "b")) } := by
  have hscan : scan (withoutComments commentedCall) = .ok (commentedLexemes (.function "f")) := by
    rw [scan_eq_callNames, scan_commentedCall]
    rfl
  refine ⟨scan_commentedCall, hscan, ?_, ?_⟩
  · rw [parse, scan_commentedCall]
    rfl
  · rw [parse, hscan]
    rfl

end Backtest.Proofs.BlankedComments
