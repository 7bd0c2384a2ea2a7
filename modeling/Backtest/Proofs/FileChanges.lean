import Mathlib.Data.List.TakeWhile
import Backtest.Files.Tree
import Backtest.Proofs.Outcome

namespace Backtest.Proofs.FileChanges

open Backtest.Proofs.Outcome

variable {directories files : List String} {tree before middle after : FileTree}

/-- Where one part of a path leads from a directory. -/
def stepTo (location : Location) (part : String) : Except FileError Location :=
  if Path.isVoid part then .ok location
  else if part == ".." then .ok location.dropLast
  else if FileTree.maxName < part.utf8ByteSize then .error .nameTooLong
  else .ok (location ++ [part])

theorem walk_cons_eq_ok {location found : Location} {part : String} {rest : List String} :
    tree.walk location (part :: rest) = .ok found ↔
      tree.entry? location = some .directory ∧
        ∃ next, stepTo location part = .ok next ∧ tree.walk next rest = .ok found := by
  rw [FileTree.walk, stepTo]
  cases tree.entry? location with
  | none => simp
  | some entry =>
      cases entry with
      | file bytes => simp
      | directory =>
          dsimp only
          split
          · simp
          split
          · simp
          split
          · simp
          · simp

theorem walk_append_eq_ok {parts parts' : List String} {location found : Location} :
    tree.walk location (parts ++ parts') = .ok found ↔
      ∃ between, tree.walk location parts = .ok between ∧
        tree.walk between parts' = .ok found := by
  induction parts generalizing location with
  | nil => simp [FileTree.walk]
  | cons part rest ih =>
      simp only [List.cons_append, walk_cons_eq_ok, ih]
      constructor
      · rintro ⟨hthere, next, hstep, between, hleads, hleads'⟩
        exact ⟨between, ⟨hthere, next, hstep, hleads⟩, hleads'⟩
      · rintro ⟨between, ⟨hthere, next, hstep, hleads⟩, hleads'⟩
        exact ⟨hthere, next, hstep, between, hleads, hleads'⟩

theorem walk_empty {parts : List String} (hempty : ∀ part ∈ parts, part = "") {location : Location}
    (hthere : tree.entry? location = some .directory) :
    tree.walk location parts = .ok location := by
  induction parts with
  | nil => rfl
  | cons part rest ih =>
      obtain ⟨rfl, hothers⟩ := List.forall_mem_cons.mp hempty
      exact walk_cons_eq_ok.mpr ⟨hthere, location, rfl, ih hothers⟩

/-- The second tree has the directories of the first one, so that its paths lead where they led. -/
structure KeepsDirectories (before after : FileTree) : Prop where
  workingDirectory : after.workingDirectory = before.workingDirectory
  directory : ∀ location, before.entry? location = some .directory →
    after.entry? location = some .directory

namespace KeepsDirectories

variable (hkeeps : KeepsDirectories before after)
include hkeeps

theorem walk {parts : List String} {location found : Location}
    (hleads : before.walk location parts = .ok found) :
    after.walk location parts = .ok found := by
  induction parts generalizing location with
  | nil => exact hleads
  | cons part rest ih =>
      obtain ⟨hthere, next, hstep, hleads⟩ := walk_cons_eq_ok.mp hleads
      exact walk_cons_eq_ok.mpr ⟨hkeeps.directory location hthere, next, hstep, ih hleads⟩

theorem startOf (path : String) : after.startOf path = before.startOf path := by
  rw [FileTree.startOf, FileTree.startOf, hkeeps.workingDirectory]

theorem locate {path : String} {location : Location} (hleads : before.locate path = .ok location) :
    after.locate path = .ok location := by
  obtain ⟨nothing, hchecked, hleads⟩ := bind_eq_ok.mp hleads
  refine bind_eq_ok.mpr ⟨nothing, hchecked, ?_⟩
  rw [hkeeps.startOf]
  exact hkeeps.walk hleads

end KeepsDirectories

/-- How a location can differ after the paths `directories` were made and the paths `files` were
written. -/
inductive Changed (directories files : List String) (before after : FileTree)
    (location : Location) : Prop
  | same (hsame : after.entry? location = before.entry? location)
  | made {path : String} (hasked : path ∈ directories) (hleads : after.locate path = .ok location)
      (hmissing : before.entry? location = none) (hnow : after.entry? location = some .directory)
  | written {path : String} (hasked : path ∈ files) (hleads : after.locate path = .ok location)
      (hnoDirectory : before.entry? location ≠ some .directory) {bytes : ByteArray}
      (hnow : after.entry? location = some (.file bytes))

/-- The second tree is the first one after some of the paths `directories` were made and some of the
paths `files` were written. -/
structure Extends (directories files : List String) (before after : FileTree) : Prop where
  workingDirectory : after.workingDirectory = before.workingDirectory
  changed : ∀ location, Changed directories files before after location

theorem Extends.refl (directories files : List String) (tree : FileTree) :
    Extends directories files tree tree :=
  ⟨rfl, fun _ => .same rfl⟩

theorem Extends.mono {directories' files' : List String}
    (hextended : Extends directories files before after) (hmore : directories ⊆ directories')
    (hmore' : files ⊆ files') :
    Extends directories' files' before after where
  workingDirectory := hextended.workingDirectory
  changed location := by
    cases hextended.changed location with
    | same hsame => exact .same hsame
    | made hasked hleads hmissing hnow => exact .made (hmore hasked) hleads hmissing hnow
    | written hasked hleads hnoDirectory hnow =>
        exact .written (hmore' hasked) hleads hnoDirectory hnow

theorem Extends.keepsDirectories (hextended : Extends directories files before after) :
    KeepsDirectories before after where
  workingDirectory := hextended.workingDirectory
  directory location hthere := by
    cases hextended.changed location with
    | same hsame => rw [hsame, hthere]
    | made hasked hleads hmissing hnow => exact hnow
    | written hasked hleads hnoDirectory hnow => exact absurd hthere hnoDirectory

theorem Extends.trans (hextended : Extends directories files before middle)
    (hextended' : Extends directories files middle after) :
    Extends directories files before after where
  workingDirectory := hextended'.workingDirectory.trans hextended.workingDirectory
  changed location := by
    cases hextended'.changed location with
    | same hsame =>
        cases hextended.changed location with
        | same hsame' => exact .same (hsame.trans hsame')
        | made hasked hleads hmissing hnow =>
            exact .made hasked (hextended'.keepsDirectories.locate hleads) hmissing
              (hsame.trans hnow)
        | written hasked hleads hnoDirectory hnow =>
            exact .written hasked (hextended'.keepsDirectories.locate hleads) hnoDirectory
              (hsame.trans hnow)
    | made hasked hleads hmissing hnow =>
        cases hextended.changed location with
        | same hsame => exact .made hasked hleads (hsame ▸ hmissing) hnow
        | made _ _ _ hthere => exact absurd (hthere.symm.trans hmissing) nofun
        | written _ _ _ hthere => exact absurd (hthere.symm.trans hmissing) nofun
    | written hasked hleads hnoDirectory hnow =>
        cases hextended.changed location with
        | same hsame => exact .written hasked hleads (hsame ▸ hnoDirectory) hnow
        | made _ _ _ hthere => exact absurd hthere hnoDirectory
        | written _ _ hnoDirectory' _ => exact .written hasked hleads hnoDirectory' hnow

theorem entry?_set (tree : FileTree) {location : Location} (entry : Entry) (hinside : location ≠ [])
    (other : Location) :
    FileTree.entry? (tree.set location entry) other =
      if other = location then some entry else tree.entry? other := by
  unfold FileTree.entry? FileTree.set
  rw [List.lookup_cons]
  by_cases hsame : other = location
  · subst hsame
    simp [hinside]
  · simp [hsame, beq_false_of_ne hsame]

section Set

variable {location : Location} (hfree : tree.entry? location ≠ some .directory) (entry : Entry)
include hfree

theorem ne_root : location ≠ [] := by
  rintro rfl
  exact hfree rfl

theorem entry?_set_self : FileTree.entry? (tree.set location entry) location = some entry := by
  rw [entry?_set tree entry (ne_root hfree), if_pos rfl]

theorem entry?_set_of_ne {other : Location} (hne : other ≠ location) :
    FileTree.entry? (tree.set location entry) other = tree.entry? other := by
  rw [entry?_set tree entry (ne_root hfree), if_neg hne]

theorem keepsDirectories_set : KeepsDirectories tree (tree.set location entry) where
  workingDirectory := rfl
  directory other hthere := by
    rw [entry?_set_of_ne hfree entry, hthere]
    rintro rfl
    exact hfree hthere

end Set

theorem exists_eq_append_empty (parts : List String) :
    ∃ empty, parts = (parts.reverse.dropWhile (· == "")).reverse ++ empty ∧
      ∀ part ∈ empty, part = "" := by
  refine ⟨(parts.reverse.takeWhile (· == "")).reverse, ?_, fun part hmem => ?_⟩
  · rw [← List.reverse_append, List.takeWhile_append_dropWhile, List.reverse_reverse]
  · exact eq_of_beq (List.mem_takeWhile_imp (List.mem_reverse.mp hmem) :)

theorem createDirectory_eq_ok {path : String} (hdone : tree.createDirectory path = .ok after) :
    ∃ location, after = tree.set location .directory ∧ tree.entry? location = none ∧
      after.locate path = .ok location := by
  obtain ⟨nothing, hchecked, hdone⟩ := bind_eq_ok.mp hdone
  cases hshape : (Path.parts path).reverse.dropWhile (· == "") with
  | nil =>
      rw [hshape] at hdone
      exact nomatch hdone
  | cons last others =>
      rw [hshape] at hdone
      obtain ⟨location, hleads, hdone⟩ := bind_eq_ok.mp hdone
      cases hthere : tree.entry? location with
      | some entry =>
          rw [hthere] at hdone
          exact nomatch hdone
      | none =>
          rw [hthere] at hdone
          obtain rfl := Except.ok.inj hdone
          have hfree : tree.entry? location ≠ some .directory := by simp [hthere]
          obtain ⟨empty, hparts, hallEmpty⟩ := exists_eq_append_empty (Path.parts path)
          rw [hshape, List.reverse_cons] at hparts
          refine ⟨location, rfl, hthere, bind_eq_ok.mpr ⟨nothing, hchecked, ?_⟩⟩
          rw [hparts]
          exact walk_append_eq_ok.mpr ⟨location, (keepsDirectories_set hfree _).walk hleads,
            walk_empty hallEmpty (entry?_set_self hfree _)⟩

theorem extends_createDirectory {path : String} (hdone : tree.createDirectory path = .ok after) :
    Extends [path] [] tree after := by
  obtain ⟨location, rfl, hmissing, hleads⟩ := createDirectory_eq_ok hdone
  have hfree : tree.entry? location ≠ some .directory := by simp [hmissing]
  refine ⟨rfl, fun other => ?_⟩
  by_cases hsame : other = location
  · subst hsame
    exact .made (List.mem_singleton_self path) hleads hmissing (entry?_set_self hfree _)
  · exact .same (entry?_set_of_ne hfree _ hsame)

theorem writeBytes_eq_ok {path : String} {bytes : ByteArray}
    (hdone : tree.writeBytes path bytes = .ok after) :
    ∃ location, tree.locate path = .ok location ∧ tree.entry? location ≠ some .directory ∧
      after = tree.set location (.file bytes) := by
  obtain ⟨location, hleads, hdone⟩ := bind_eq_ok.mp hdone
  have hfree : tree.entry? location ≠ some .directory := by
    intro hthere
    rw [hthere] at hdone
    exact nomatch hdone
  refine ⟨location, hleads, hfree, ?_⟩
  split at hdone
  · exact absurd ‹_› hfree
  · exact (Except.ok.inj hdone).symm

theorem extends_writeBytes {path : String} {bytes : ByteArray}
    (hdone : tree.writeBytes path bytes = .ok after) : Extends [] [path] tree after := by
  obtain ⟨location, hleads, hfree, rfl⟩ := writeBytes_eq_ok hdone
  refine ⟨rfl, fun other => ?_⟩
  by_cases hsame : other = location
  · subst hsame
    exact .written (List.mem_singleton_self path) ((keepsDirectories_set hfree _).locate hleads)
      hfree
      (entry?_set_self hfree _)
  · exact .same (entry?_set_of_ne hfree _ hsame)

theorem extends_createChain (chain : List String) (tree : FileTree) :
    Extends chain [] tree (tree.createChain chain).1 := by
  induction chain with
  | nil => exact .refl [] [] tree
  | cons path parents ih =>
      have hunchanged := Extends.refl (path :: parents) [] tree
      have hfirst {before after : FileTree} (hdone : before.createDirectory path = .ok after) :
          Extends (path :: parents) [] before after :=
        (extends_createDirectory hdone).mono (by simp) (List.Subset.refl _)
      have habove := ih.mono (List.subset_cons_self path parents) (List.Subset.refl [])
      rw [FileTree.createChain]
      split
      · exact hunchanged
      cases hdone : tree.createDirectory path with
      | ok made => exact hfirst hdone
      | error error =>
          cases error with
          | notFound =>
              rcases hchain : tree.createChain parents with ⟨made, _ | _⟩
              · rw [hchain] at habove
                exact habove
              · rw [hchain] at habove
                dsimp only
                cases hdone' : made.createDirectory path with
                | ok whole => exact habove.trans (hfirst hdone')
                | error error => exact habove
          | _ => exact hunchanged

theorem extends_createDirectories (tree : FileTree) (path : String) :
    Extends (Path.ancestors path) [] tree (tree.createDirectories path).1 :=
  extends_createChain (Path.ancestors path) tree

/-- Whatever comes of it, the action only makes some of the paths `directories` and writes some of
the paths `files`. -/
def Writes {ε α : Type} (directories files : List String)
    (action : ExceptT ε (StateM FileTree) α) : Prop :=
  ∀ tree, Extends directories files tree (action.run.run tree).2

theorem Writes.bind {ε α β : Type} {action : ExceptT ε (StateM FileTree) α}
    {next : α → ExceptT ε (StateM FileTree) β} (hfirst : Writes directories files action)
    (hthen' : ∀ value, Writes directories files (next value)) :
    Writes directories files (action >>= next) := by
  intro tree
  rw [ExceptT.run_bind, StateT.run_bind]
  have hextended := hfirst tree
  generalize action.run.run tree = result at hextended ⊢
  obtain ⟨error | value, made⟩ := result
  · exact hextended
  · exact hextended.trans (hthen' value made)

theorem writes_createDirectories {path : String} (hasked : Path.ancestors path ⊆ directories) :
    Writes directories files (ExceptT.mk (Files.createDirectories path)) := fun tree =>
  (extends_createDirectories tree path).mono hasked (List.nil_subset files)

theorem run_writeText (path text : String) (tree : FileTree) :
    (Files.writeText path text : StateM FileTree (Except FileError Unit)).run tree =
      match tree.writeBytes path text.toUTF8 with
      | .ok written => (.ok (), written)
      | .error error => (.error error, tree) :=
  rfl

theorem writes_writeText {path : String} (hasked : path ∈ files) (text : String) :
    Writes directories files (ExceptT.mk (Files.writeText path text)) := by
  intro tree
  rw [ExceptT.run_mk, run_writeText]
  cases hdone : tree.writeBytes path text.toUTF8 with
  | error error => exact .refl directories files tree
  | ok written =>
      exact (extends_writeBytes hdone).mono (List.nil_subset directories)
        (List.cons_subset.mpr ⟨hasked, List.nil_subset files⟩)

end Backtest.Proofs.FileChanges
