import Backtest.Command
import Backtest.Files.Tree
import Backtest.Proofs.Outcome

namespace Backtest.Proofs.ScriptRun

open Backtest.Command
open Backtest.Proofs.Outcome

variable {α β ε : Type} {tree : FileTree}

/-- Runs a script on a tree of files, after what has been printed before it. -/
def exec (script : Script (StateM FileTree) α) (transcript : Transcript) (tree : FileTree) :
    (Except Stop α × Transcript) × FileTree :=
  (script.run.run transcript).run tree

theorem exec_bind_ok {script : Script (StateM FileTree) α}
    {next : α → Script (StateM FileTree) β} {transcript after : Transcript} {made : FileTree}
    {value : α} (hdone : exec script transcript tree = ((.ok value, after), made)) :
    exec (script >>= next) transcript tree = exec (next value) after made := by
  rw [exec, ExceptT.run_bind, StateT.run_bind, StateT.run_bind, ← exec, hdone]
  rfl

theorem exec_bind_error {script : Script (StateM FileTree) α}
    {next : α → Script (StateM FileTree) β} {transcript after : Transcript} {made : FileTree}
    {stop : Stop} (hstopped : exec script transcript tree = ((.error stop, after), made)) :
    exec (script >>= next) transcript tree = ((.error stop, after), made) := by
  rw [exec, ExceptT.run_bind, StateT.run_bind, StateT.run_bind, ← exec, hstopped]
  rfl

theorem exec_say (line : String) (transcript : Transcript) (tree : FileTree) :
    exec (say line) transcript tree =
      ((.ok (), { transcript with stderr := transcript.stderr ++ line ++ "\n" }), tree) :=
  rfl

theorem exec_print (text : String) (transcript : Transcript) (tree : FileTree) :
    exec (print text) transcript tree =
      ((.ok (), { transcript with stdout := transcript.stdout ++ text }), tree) :=
  rfl

theorem exec_orStop (stop : ε → Stop) (result : Except ε α) (transcript : Transcript)
    (tree : FileTree) :
    exec (orStop stop result) transcript tree = ((result.mapError stop, transcript), tree) := by
  cases result <;> rfl

theorem exec_ask (request : StateM FileTree α) (transcript : Transcript) (tree : FileTree) :
    exec (ask request) transcript tree =
      ((.ok (request.run tree).1, transcript), (request.run tree).2) :=
  rfl

/-- The script finds the value of an outcome or stops with the exit status of its failure. It leaves
the files as they are and prints no results. -/
def Finds (script : Script (StateM FileTree) α) (tree : FileTree) (outcome : Except Failure α) :
    Prop :=
  ∀ transcript, ∃ found log,
    exec script transcript tree =
      ((found, { transcript with stderr := transcript.stderr ++ log }), tree) ∧
    found.mapError Stop.status = outcome.mapError Failure.exitStatus

namespace Finds

theorem pure (value : α) : Finds (Pure.pure value) tree (.ok value) := by
  intro transcript
  refine ⟨.ok value, "", ?_, rfl⟩
  rw [String.append_empty]
  rfl

theorem say (line : String) : Finds (Command.say line) tree (.ok ()) := by
  intro transcript
  refine ⟨.ok (), line ++ "\n", ?_, rfl⟩
  rw [exec_say, String.append_assoc]

theorem orStop {stop : ε → Stop} {failure : ε → Failure}
    (hsame : ∀ error, (stop error).status = (failure error).exitStatus) (result : Except ε α) :
    Finds (Command.orStop stop result) tree (result.mapError failure) := by
  intro transcript
  refine ⟨result.mapError stop, "", ?_, ?_⟩
  · rw [exec_orStop, String.append_empty]
  · cases result with
    | ok value => rfl
    | error error => exact congrArg Except.error (hsame error)

theorem ask {request : StateM FileTree α} {value : α} (hanswer : request.run tree = (value, tree)) :
    Finds (Command.ask request) tree (.ok value) := by
  intro transcript
  refine ⟨.ok value, "", ?_, rfl⟩
  rw [exec_ask, hanswer, String.append_empty]

theorem bind {script : Script (StateM FileTree) α} {next : α → Script (StateM FileTree) β}
    {outcome : Except Failure α} {outcome' : α → Except Failure β}
    (hfirst : Finds script tree outcome)
    (hthen' : ∀ value, outcome = .ok value → Finds (next value) tree (outcome' value)) :
    Finds (script >>= next) tree (outcome >>= outcome') := by
  intro transcript
  obtain ⟨found, log, hdone, hsame⟩ := hfirst transcript
  cases found with
  | error stop =>
      obtain ⟨failure, rfl, hstatus⟩ := mapError_eq_error.mp hsame.symm
      exact ⟨.error stop, log, exec_bind_error hdone, congrArg Except.error hstatus.symm⟩
  | ok value =>
      obtain rfl : outcome = .ok value := mapError_eq_ok.mp hsame.symm
      obtain ⟨found', log', hdone', hsame'⟩ := hthen' value rfl
        { transcript with stderr := transcript.stderr ++ log }
      refine ⟨found', log ++ log', ?_, hsame'⟩
      rw [exec_bind_ok hdone, hdone', String.append_assoc]

theorem after {script : Script (StateM FileTree) α} {next : α → Script (StateM FileTree) β}
    {value : α} {outcome : Except Failure β} (hfirst : Finds script tree (.ok value))
    (hthen' : Finds (next value) tree outcome) : Finds (script >>= next) tree outcome :=
  bind hfirst fun _ hsame => Except.ok.inj hsame ▸ hthen'

theorem thenSay {script : Script (StateM FileTree) α} {outcome : Except Failure α}
    (hfound : Finds script tree outcome) (line : α → String) :
    Finds (do let value ← script; Command.say (line value); return value) tree outcome := by
  have hsaid : Finds (do let value ← script; Command.say (line value); return value) tree
      (outcome >>= Pure.pure) :=
    hfound.bind fun value _ => .after (.say (line value)) (.pure value)
  rwa [bind_pure] at hsaid

end Finds

end Backtest.Proofs.ScriptRun
