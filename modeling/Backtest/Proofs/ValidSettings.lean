import Backtest.Proofs.ScriptRun

namespace Backtest.Proofs.ValidSettings

open Backtest.Command
open Backtest.Text (isBlank allBlank trim trimLeft)
open Backtest.Proofs.Outcome
open Backtest.Proofs.ScriptRun

def NonBlank (value : String) : Prop := ∃ c ∈ value.toList, isBlank c = false

theorem nonBlank_iff {value : String} : NonBlank value ↔ Settings.isBlankValue value = false := by
  simp [NonBlank, Settings.isBlankValue, allBlank]

instance (value : String) : Decidable (NonBlank value) := decidable_of_iff _ nonBlank_iff.symm

theorem allBlank_trimLeft (text : List Char) : allBlank (trimLeft text) = allBlank text := by
  have hblank : (text.takeWhile isBlank).all isBlank = true := List.all_takeWhile
  calc (text.dropWhile isBlank).all isBlank
      = ((text.takeWhile isBlank).all isBlank && (text.dropWhile isBlank).all isBlank) := by
        rw [hblank, Bool.true_and]
    _ = text.all isBlank := by rw [← List.all_append, List.takeWhile_append_dropWhile]

theorem allBlank_trim (text : List Char) : allBlank (trim text) = allBlank text := by
  have hreversed (text : List Char) : allBlank text.reverse = allBlank text := List.all_reverse
  rw [trim, hreversed, allBlank_trimLeft, hreversed, allBlank_trimLeft]

theorem nonBlank_trim {value : String} (hnonBlank : NonBlank value) :
    NonBlank (String.ofList (trim value.toList)) := by
  rw [nonBlank_iff, Settings.isBlankValue] at hnonBlank ⊢
  rw [String.toList_ofList, allBlank_trim, hnonBlank]

variable {settings : Settings} {chosen? : Option String} {group key value : String}

theorem filter_eq_some {value? : Option String} :
    (value?.filter fun value => !Settings.isBlankValue value) = some value ↔
      value? = some value ∧ NonBlank value := by
  simp [Option.filter_eq_some_iff, nonBlank_iff]

theorem filter_eq_none {value? : Option String} :
    (value?.filter fun value => !Settings.isBlankValue value) = none ↔
      ∀ value, value? = some value → ¬NonBlank value := by
  simp [Option.filter_eq_none_iff, nonBlank_iff]

theorem filled?_eq_some :
    settings.filled? group key = some value ↔
      settings.get? group key = some value ∧ NonBlank value :=
  filter_eq_some

theorem filled?_eq_none :
    settings.filled? group key = none ↔
      ∀ value, settings.get? group key = some value → ¬NonBlank value :=
  filter_eq_none

theorem require_eq_ok : settings.require group key = .ok value ↔
    settings.get? group key = some value := by
  rw [Settings.require]
  cases settings.get? group key <;> simp

theorem requireFilled_eq_ok : settings.requireFilled group key = .ok value ↔
    settings.get? group key = some value ∧ NonBlank value := by
  rw [← filled?_eq_some, Settings.requireFilled]
  cases settings.filled? group key <;> simp

theorem exists_rulesFile (hvalid : settings.validateRules = .ok ())
    (hinPlace : settings.filled? "strategy" "rules" = none) :
    ∃ file, settings.get? "strategy" "rules_file" = some file ∧ NonBlank file := by
  rw [Settings.validateRules, hinPlace] at hvalid
  cases hgiven : settings.filled? "strategy" "rules_file" with
  | none => rw [hgiven] at hvalid; exact nomatch hvalid
  | some file => exact ⟨file, filled?_eq_some.mp hgiven⟩

theorem date?_isSome {date? : Option Date} (hread : settings.date? key = .ok date?) :
    date?.isSome = true ↔ ∃ value, settings.get? "data" key = some value ∧ NonBlank value := by
  simp only [← filled?_eq_some]
  rw [Settings.date?] at hread
  cases hgiven : settings.filled? "data" key with
  | none =>
      rw [hgiven] at hread
      obtain rfl := Except.ok.inj hread
      simp
  | some value =>
      rw [hgiven] at hread
      dsimp only at hread
      split at hread
      · obtain rfl := Except.ok.inj hread
        simp
      · exact nomatch hread

theorem dates_of_validateDates (hvalid : settings.validateDates = .ok ()) :
    ∃ first? last?, settings.date? "start_date" = .ok first? ∧
      settings.date? "end_date" = .ok last? ∧
      ∀ first last, first? = some first → last? = some last → first < last := by
  obtain ⟨first?, hstart, hvalid⟩ := bind_eq_ok.mp hvalid
  obtain ⟨last?, hstop, hvalid⟩ := bind_eq_ok.mp hvalid
  refine ⟨first?, last?, hstart, hstop, ?_⟩
  rintro first last rfl rfl
  by_cases hordered : first < last
  · exact hordered
  · dsimp only at hvalid
    rw [if_neg hordered] at hvalid
    exact nomatch hvalid

/-- What `validate` has checked. -/
structure Valid (settings : Settings) (chosen? : Option String) : Prop where
  rules : settings.validateRules = .ok ()
  directory : ∃ value, settings.get? "data" "path" = some value ∧ NonBlank value
  symbol : (∀ chosen, chosen? = some chosen → ¬NonBlank chosen) →
    ∃ value, settings.get? "data" "symbol" = some value ∧ NonBlank value
  dates : settings.validateDates = .ok ()

theorem valid_of_validate (hvalid : settings.validate chosen? = .ok ()) :
    Valid settings chosen? := by
  obtain ⟨_, hrules, hvalid⟩ := bind_eq_ok.mp hvalid
  obtain ⟨directory, hgiven, hvalid⟩ := bind_eq_ok.mp hvalid
  have hpath := requireFilled_eq_ok.mp hgiven
  cases hchosen : chosen?.filter fun symbol => !Settings.isBlankValue symbol with
  | none =>
      rw [hchosen] at hvalid
      obtain ⟨symbol, hgiven', hdates⟩ := bind_eq_ok.mp hvalid
      exact ⟨hrules, ⟨directory, hpath⟩, fun _ => ⟨symbol, requireFilled_eq_ok.mp hgiven'⟩, hdates⟩
  | some symbol =>
      rw [hchosen] at hvalid
      obtain ⟨hsame, hnonBlank⟩ := filter_eq_some.mp hchosen
      exact ⟨hrules, ⟨directory, hpath⟩, fun hblank => absurd hnonBlank (hblank symbol hsame),
        hvalid⟩

theorem symbolOf_chosen {chosen : String} (hnonBlank : NonBlank chosen) :
    symbolOf settings (some chosen) = .ok (String.ofList (trim chosen.toList)) := by
  rw [symbolOf, filter_eq_some.mpr ⟨rfl, hnonBlank⟩]

theorem symbolOf_settings (hblank : ∀ chosen, chosen? = some chosen → ¬NonBlank chosen) :
    symbolOf settings chosen? = settings.require "data" "symbol" := by
  rw [symbolOf, filter_eq_none.mpr hblank]

theorem Valid.exists_symbol (hvalid : Valid settings chosen?) :
    ∃ symbol, symbolOf settings chosen? = .ok symbol ∧ NonBlank symbol ∧
      ((∃ chosen, chosen? = some chosen ∧ NonBlank chosen ∧
          symbol = String.ofList (trim chosen.toList)) ∨
        (∀ chosen, chosen? = some chosen → ¬NonBlank chosen) ∧
          settings.get? "data" "symbol" = some symbol) := by
  by_cases hgiven : ∃ chosen, chosen? = some chosen ∧ NonBlank chosen
  · obtain ⟨chosen, rfl, hnonBlank⟩ := hgiven
    exact ⟨_, symbolOf_chosen hnonBlank, nonBlank_trim hnonBlank,
      .inl ⟨chosen, rfl, hnonBlank, rfl⟩⟩
  · have hblank : ∀ chosen, chosen? = some chosen → ¬NonBlank chosen :=
      fun chosen hsame hnonBlank => hgiven ⟨chosen, hsame, hnonBlank⟩
    obtain ⟨symbol, hthere, hnonBlank⟩ := hvalid.symbol hblank
    exact ⟨symbol, (symbolOf_settings hblank).trans (require_eq_ok.mpr hthere), hnonBlank,
      .inr ⟨hblank, hthere⟩⟩

/-- The failure of a file of rules, as a run reports it. -/
def unreadRules (path : String) (error : FileError) : Stop :=
  ⟨"failed to read " ++ path ++ ": " ++ error.message, (Failure.file error).exitStatus⟩

theorem exec_loadRules_inPlace {rules : String}
    (hgiven : settings.get? "strategy" "rules" = some rules) (hnonBlank : NonBlank rules)
    (path : String) (transcript : Transcript) (tree : FileTree) :
    exec (loadRules settings path) transcript tree = ((.ok rules, transcript), tree) := by
  rw [loadRules, filled?_eq_some.mpr ⟨hgiven, hnonBlank⟩]
  rfl

theorem exec_loadRules_file {file : String}
    (hblank : ∀ rules, settings.get? "strategy" "rules" = some rules → ¬NonBlank rules)
    (hgiven : settings.get? "strategy" "rules_file" = some file) (path : String)
    (transcript : Transcript) (tree : FileTree) :
    exec (loadRules settings path) transcript tree =
      (((tree.readText (resolve path file)).mapError (unreadRules (resolve path file)),
        { transcript with
          stderr := transcript.stderr ++ ("Loading rules from " ++ resolve path file) ++ "\n" }),
        tree) := by
  have hthere : exec (orStop settingsStop (settings.require "strategy" "rules_file")) transcript
      tree = ((.ok file, transcript), tree) := by
    rw [exec_orStop, require_eq_ok.mpr hgiven]
    rfl
  rw [loadRules, filled?_eq_none.mpr hblank]
  dsimp only
  rw [exec_bind_ok hthere, exec_bind_ok (exec_say _ _ _), readRules, exec_bind_ok (exec_ask _ _ _),
    exec_orStop]
  rfl

/-- Valid settings do not fail later. Rules in place are taken as they are; otherwise the file of
rules is read, and only the reading can fail. There is a symbol to run and a directory of prices,
neither of them blank. Each date is read, and there is one if its key is not blank; the first date
lies before the last one. -/
theorem validate_sufficient (hvalid : settings.validate chosen? = .ok ()) (path : String) :
    (∀ rules, settings.get? "strategy" "rules" = some rules → NonBlank rules →
        ∀ transcript tree,
          exec (loadRules settings path) transcript tree = ((.ok rules, transcript), tree)) ∧
      ((∀ rules, settings.get? "strategy" "rules" = some rules → ¬NonBlank rules) →
        ∃ file, settings.get? "strategy" "rules_file" = some file ∧ NonBlank file ∧
          ∀ transcript tree, exec (loadRules settings path) transcript tree =
            (((tree.readText (resolve path file)).mapError (unreadRules (resolve path file)),
              { transcript with
                stderr :=
                  transcript.stderr ++ ("Loading rules from " ++ resolve path file) ++ "\n" }),
              tree)) ∧
      (∃ symbol, symbolOf settings chosen? = .ok symbol ∧ NonBlank symbol ∧
        ((∃ chosen, chosen? = some chosen ∧ NonBlank chosen ∧
            symbol = String.ofList (trim chosen.toList)) ∨
          (∀ chosen, chosen? = some chosen → ¬NonBlank chosen) ∧
            settings.get? "data" "symbol" = some symbol)) ∧
      (∃ directory, settings.require "data" "path" = .ok directory ∧ NonBlank directory) ∧
      (∀ key, key = "start_date" ∨ key = "end_date" → ∃ date?, settings.date? key = .ok date? ∧
        (date?.isSome = true ↔
          ∃ value, settings.get? "data" key = some value ∧ NonBlank value)) ∧
      ∀ first last, settings.date? "start_date" = .ok (some first) →
        settings.date? "end_date" = .ok (some last) → first < last := by
  have hchecked := valid_of_validate hvalid
  obtain ⟨directory, hthere, hnonBlank⟩ := hchecked.directory
  obtain ⟨first?, last?, hstart, hstop, hordered⟩ := dates_of_validateDates hchecked.dates
  refine ⟨fun rules hgiven hfilled => exec_loadRules_inPlace hgiven hfilled path, ?_,
    hchecked.exists_symbol, ⟨directory, require_eq_ok.mpr hthere, hnonBlank⟩, ?_, ?_⟩
  · intro hblank
    obtain ⟨file, hgiven, hfilled⟩ := exists_rulesFile hchecked.rules (filled?_eq_none.mpr hblank)
    exact ⟨file, hgiven, hfilled, exec_loadRules_file hblank hgiven path⟩
  · rintro key (rfl | rfl)
    · exact ⟨first?, hstart, date?_isSome hstart⟩
    · exact ⟨last?, hstop, date?_isSome hstop⟩
  · intro first last hstart' hstop'
    exact hordered first last (Except.ok.inj (hstart.symm.trans hstart'))
      (Except.ok.inj (hstop.symm.trans hstop'))

def fileSettings : Settings where
  get?
    | "strategy", "rules" => some " \t"
    | "strategy", "rules_file" => some "entry.rules"
    | "data", "path" => some "prices"
    | "data", "start_date" => some "2024-02-27"
    | "data", "end_date" => some " 2024-03-01 "
    | _, _ => none

theorem validate_fileSettings : fileSettings.validate (some " CBA ") = .ok () :=
  toOption_eq_some.mp (by decide +kernel)

theorem validate_sufficient_fileSettings :
    fileSettings.validate (some " CBA ") = .ok () ∧
      (∃ file, fileSettings.get? "strategy" "rules_file" = some file ∧ NonBlank file) ∧
      (∃ symbol, symbolOf fileSettings (some " CBA ") = .ok symbol ∧ NonBlank symbol) ∧
      (∃ directory, fileSettings.require "data" "path" = .ok directory ∧ NonBlank directory) ∧
      ∃ first last, fileSettings.date? "start_date" = .ok (some first) ∧
        fileSettings.date? "end_date" = .ok (some last) ∧ first < last := by
  obtain ⟨-, hfile, ⟨symbol, hrun, hnonBlank, -⟩, hdirectory, hdates, hordered⟩ :=
    validate_sufficient validate_fileSettings "config.ini"
  have hblank : ∀ rules, fileSettings.get? "strategy" "rules" = some rules → ¬NonBlank rules := by
    rintro rules ⟨⟩
    decide
  obtain ⟨file, hgiven, hfilled, -⟩ := hfile hblank
  obtain ⟨first?, hstart, hsome⟩ := hdates "start_date" (.inl rfl)
  obtain ⟨last?, hstop, hsome'⟩ := hdates "end_date" (.inr rfl)
  obtain ⟨first, rfl⟩ := Option.isSome_iff_exists.mp (hsome.mpr ⟨_, rfl, by decide⟩)
  obtain ⟨last, rfl⟩ := Option.isSome_iff_exists.mp (hsome'.mpr ⟨_, rfl, by decide⟩)
  exact ⟨validate_fileSettings, ⟨file, hgiven, hfilled⟩, ⟨symbol, hrun, hnonBlank⟩, hdirectory,
    first, last, hstart, hstop, hordered first last hstart hstop⟩

end Backtest.Proofs.ValidSettings
