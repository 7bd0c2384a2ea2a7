import Mathlib.Data.String.Basic
import Backtest.Proofs.FileChanges

namespace Backtest.Proofs.FileNames

open Backtest.Proofs.FileChanges
open Backtest.Proofs.Outcome

theorem splitOnAux_slash (text : String) (start index : String.Pos.Raw) (parts : List String) :
    text.splitOnAux "/" start index 0 parts = text.splitAux (· == '/') start index parts := by
  have hslash : String.Pos.Raw.get "/" 0 = '/' := rfl
  have hnext : String.Pos.Raw.next "/" 0 = ⟨1⟩ := rfl
  have hend : String.Pos.Raw.atEnd "/" ⟨1⟩ = true := rfl
  fun_induction String.splitAux text (· == '/') start index parts with
  | case1 start index parts hlast => rw [String.splitOnAux.eq_def, if_pos hlast]
  | case2 start index parts hlast hsize hfound next ih =>
      have hback : (index.next text).unoffsetBy ⟨1⟩ = index := by
        rw [String.Pos.Raw.next, eq_of_beq hfound]
        exact String.Pos.Raw.ext (Nat.add_sub_cancel _ _)
      rw [String.splitOnAux.eq_def, if_neg hlast, hslash, if_pos hfound]
      dsimp only
      rw [hnext, if_pos hend, hback]
      exact ih
  | case3 start index parts hlast hsize hother ih =>
      rw [String.splitOnAux.eq_def, if_neg hlast, hslash, if_neg hother]
      exact ih

theorem parts_eq (path : String) :
    Path.parts path = (path.toList.splitOnP (· == '/')).map String.ofList := by
  rw [← String.splitToList_of_valid]
  exact splitOnAux_slash path 0 0 []

theorem exists_splitOnP_append (p : Char → Bool) (front : List Char) :
    ∃ before last, ∀ name : List Char, (∀ c ∈ name, p c = false) →
      (front ++ name).splitOnP p = before ++ [last ++ name] := by
  induction front with
  | nil => exact ⟨[], [], fun name hname => List.splitOnP_eq_singleton hname⟩
  | cons c front ih =>
      obtain ⟨before, last, happend⟩ := ih
      cases hc : p c with
      | true =>
          refine ⟨[] :: before, last, fun name hname => ?_⟩
          rw [List.cons_append, List.splitOnP_cons_eq_if_modifyHead, if_pos hc,
            happend name hname, List.cons_append]
      | false =>
          cases before with
          | nil =>
              refine ⟨[], c :: last, fun name hname => ?_⟩
              simp [List.splitOnP_cons_eq_if_modifyHead, hc, happend name hname]
          | cons first before =>
              refine ⟨(c :: first) :: before, last, fun name hname => ?_⟩
              simp [List.splitOnP_cons_eq_if_modifyHead, hc, happend name hname]

/-- A name without a slash, and longer than the parts that are void or lead up. -/
structure IsFileName (name : String) : Prop where
  relative : Path.isAbsolute name = false
  plain : ∀ c ∈ name.toList, (c == '/') = false
  long : 2 < name.length

theorem exists_parts_join (directory : String) :
    ∃ before last, ∀ name, IsFileName name →
      Path.parts (Path.join directory name) = before ++ [last ++ name] := by
  obtain ⟨front, hjoin⟩ : ∃ front, ∀ name, IsFileName name →
      Path.join directory name = front ++ name := by
    by_cases hdirectory : (directory == "" || directory.endsWith "/") = true
    · refine ⟨directory, fun name hname => ?_⟩
      rw [Path.join, hname.relative, if_neg Bool.false_ne_true, if_pos hdirectory]
    · refine ⟨directory ++ "/", fun name hname => ?_⟩
      rw [Path.join, hname.relative, if_neg Bool.false_ne_true, if_neg hdirectory]
  obtain ⟨before, last, happend⟩ := exists_splitOnP_append (· == '/') front.toList
  refine ⟨before.map String.ofList, String.ofList last, fun name hname => ?_⟩
  rw [hjoin name hname, parts_eq, String.toList_append, happend _ hname.plain]
  simp

theorem stepTo_fileName {name : String} (hname : IsFileName name) (last : String)
    (location : Location) : stepTo location (last ++ name) =
      if FileTree.maxName < (last ++ name).utf8ByteSize then .error .nameTooLong
      else .ok (location ++ [last ++ name]) := by
  have hlength : 2 < (last ++ name).length := by
    have hlong := hname.long
    rw [String.length_append]
    omega
  have hother (short : String) (hshort : short.length ≤ 2) : (last ++ name == short) = false := by
    refine beq_false_of_ne ?_
    rintro rfl
    omega
  have hvoid : Path.isVoid (last ++ name) = false := by
    rw [Path.isVoid, hother "" (by decide), hother "." (by decide), Bool.or_false]
  rw [stepTo, hvoid, hother ".." (by decide), if_neg Bool.false_ne_true,
    if_neg Bool.false_ne_true]

theorem exists_last_part (directory : String) : ∃ last : String, ∀ name, IsFileName name →
    ∀ (tree : FileTree) (location : Location),
      tree.locate (Path.join directory name) = .ok location →
        location.getLast? = some (last ++ name) := by
  obtain ⟨before, last, hparts⟩ := exists_parts_join directory
  refine ⟨last, fun name hname tree location hlocate => ?_⟩
  obtain ⟨nothing, -, hwalk⟩ := bind_eq_ok.mp hlocate
  rw [hparts name hname] at hwalk
  obtain ⟨between, -, hlast⟩ := walk_append_eq_ok.mp hwalk
  obtain ⟨-, next, hstep, hwalk⟩ := walk_cons_eq_ok.mp hlast
  obtain rfl : next = location := Except.ok.inj hwalk
  rw [stepTo_fileName hname] at hstep
  split at hstep
  · exact nomatch hstep
  · rw [← Except.ok.inj hstep, List.getLast?_concat]

theorem locate_join_ne {directory name name' : String} (hname : IsFileName name)
    (hname' : IsFileName name') (hne : name ≠ name') {tree : FileTree} {location : Location}
    (hlocate : tree.locate (Path.join directory name) = .ok location) :
    tree.locate (Path.join directory name') ≠ .ok location := by
  intro hlocate'
  obtain ⟨last, hlast⟩ := exists_last_part directory
  have hparts := (hlast name hname tree location hlocate).symm.trans
    (hlast name' hname' tree location hlocate')
  exact hne ((String.append_right_inj last).mp (Option.some.inj hparts))

theorem locate_inRoot {tree : FileTree} (hroot : tree.workingDirectory = []) {name : String}
    (hname : IsFileName name) (hzero : name.contains '\x00' = false)
    (hsize : name.utf8ByteSize ≤ FileTree.maxName) : tree.locate name = .ok [name] := by
  have hempty : (name == "") = false := by
    refine beq_false_of_ne ?_
    rintro rfl
    exact absurd hname.long (by decide)
  have hpath : ¬FileTree.maxPath < name.utf8ByteSize :=
    Nat.not_lt.mpr (hsize.trans (by decide))
  have hchecked : FileTree.checkPath name = .ok () := by
    rw [FileTree.checkPath, hzero, hempty, if_neg Bool.false_ne_true, if_neg Bool.false_ne_true,
      if_neg hpath]
  have hparts : Path.parts name = [name] := by
    rw [parts_eq, List.splitOnP_eq_singleton hname.plain, List.map_singleton, String.ofList_toList]
  have hstep : stepTo [] name = .ok [name] := by
    have hstep := stepTo_fileName hname "" []
    rwa [String.empty_append, if_neg (Nat.not_lt.mpr hsize)] at hstep
  refine bind_eq_ok.mpr ⟨(), hchecked, ?_⟩
  rw [FileTree.startOf, hname.relative, if_neg Bool.false_ne_true, hroot, hparts]
  exact walk_cons_eq_ok.mpr ⟨rfl, [name], hstep, rfl⟩

end Backtest.Proofs.FileNames
