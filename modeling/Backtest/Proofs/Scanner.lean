import Backtest.Proofs.Outcome
import Backtest.Rule.Token.Scan

namespace Backtest.Proofs.Scanner

open Backtest.Rule
open Backtest.Text
open Backtest.Proofs.Outcome

theorem scanFrom_nil (position : Nat) :
    Scan.scanFrom position [] = .ok [⟨.stop, position⟩] := by
  rw [Scan.scanFrom.eq_def]

theorem scanFrom_cons (position : Nat) (c : Char) (rest : List Char) :
    Scan.scanFrom position (c :: rest) =
      match Scan.next? c rest with
      | none => .error ⟨c, position⟩
      | some piece =>
          let following :=
            Scan.scanFrom (position + byteLength piece.lexeme) piece.rest
          match piece.token? with
          | some token => following.map (⟨token, position⟩ :: ·)
          | none => following := by
  rw [Scan.scanFrom.eq_def]
  dsimp only
  -- the definition keeps the equation of its match for the termination, the statement does not
  split
  · next hnone => simp only [hnone]
  · next piece hpiece => cases htoken : piece.token? <;> simp only [hpiece, htoken]

theorem symbol?_ne_stop {text : List Char} {piece : Scan.Piece}
    (hfound : Scan.symbol? text = some piece) : piece.token? ≠ some .stop := by
  unfold Scan.symbol? at hfound
  split at hfound <;> cases hfound <;> exact nofun

theorem wordToken_ne_stop (word rest : List Char) :
    Scan.wordToken word rest ≠ .stop := by
  unfold Scan.wordToken
  dsimp only
  split
  · exact nofun
  · split <;> exact nofun

theorem next?_ne_stop {c : Char} {rest : List Char} {piece : Scan.Piece}
    (hfound : Scan.next? c rest = some piece) : piece.token? ≠ some .stop := by
  unfold Scan.next? at hfound
  split at hfound
  · cases hfound
    exact nofun
  · split at hfound
    · cases hfound
      exact nofun
    · split at hfound
      · cases hfound
        intro hstop
        exact wordToken_ne_stop _ _ (Option.some.inj hstop)
      · split at hfound
        · cases hfound
          unfold Scan.number
          dsimp only
          split <;> exact nofun
        · exact symbol?_ne_stop hfound

theorem scanFrom_eq_append {position : Nat} {text : List Char}
    {lexemes : List Lexeme} (hscanned : Scan.scanFrom position text = .ok lexemes) :
    ∃ front last, lexemes = front ++ [⟨.stop, last⟩] ∧
      ∀ lexeme ∈ front, lexeme.token ≠ .stop := by
  fun_induction Scan.scanFrom position text generalizing lexemes with
  | case1 position =>
      cases hscanned
      exact ⟨[], position, rfl, nofun⟩
  | case2 position c rest hnone => exact nomatch hscanned
  | case3 position c rest piece hfound following token hkind =>
      rename_i ih
      obtain ⟨tail, hinner, rfl⟩ := map_eq_ok.mp hscanned
      obtain ⟨front, last, rfl, hproper⟩ := ih hinner
      refine ⟨⟨token, position⟩ :: front, last, rfl, ?_⟩
      rw [List.forall_mem_cons]
      refine ⟨?_, hproper⟩
      rintro rfl
      exact next?_ne_stop hfound hkind
  | case4 position c rest piece hfound following hblank =>
      rename_i ih
      exact ih hscanned

theorem scan_eq_append {text : String} {lexemes : List Lexeme}
    (hscanned : scan text = .ok lexemes) :
    ∃ front last, lexemes = front ++ [⟨.stop, last⟩] ∧
      ∀ lexeme ∈ front, lexeme.token ≠ .stop :=
  scanFrom_eq_append hscanned

end Backtest.Proofs.Scanner
