import Backtest.Calendar.Date
import Backtest.Column

namespace Backtest

inductive FrameError
  | noBars
  | missingColumn (column : Column)
  | lengthMismatch (column : Column) (expected actual : Nat)
  | unorderedDates (index : Nat)
  deriving DecidableEq, Repr

namespace FrameError

def message : FrameError → String
  | noBars => "no bars to evaluate"
  | missingColumn column => "column '" ++ column.name ++ "' is not present in the data"
  | lengthMismatch column expected actual =>
    "column '" ++ column.name ++ "' has " ++ toString actual ++ " values, expected " ++
      toString expected
  | unorderedDates index =>
    "bar dates are not strictly increasing at index " ++ toString index

end FrameError

abbrev Columns (α : Type) := Column → Option (List α)

/-- Whether every present column has as many values as there are dates. -/
def Columns.Aligned {α : Type} (columns : Columns α) (dates : List Date) : Prop :=
  ∀ column values, columns column = some values → values.length = dates.length

structure Frame (α : Type) where
  dates : List Date
  columns : Columns α
  close_isSome : (columns .close).isSome
  aligned : columns.Aligned dates
  increasing : dates.Pairwise (· < ·)

namespace Frame

variable {α : Type}

def size (frame : Frame α) : Nat := frame.dates.length

def isEmpty (frame : Frame α) : Bool := frame.dates.isEmpty

def close (frame : Frame α) : List α := (frame.columns .close).get frame.close_isSome

theorem length_close (frame : Frame α) : frame.close.length = frame.size :=
  frame.aligned .close frame.close (Option.some_get frame.close_isSome).symm

def column (frame : Frame α) (column : Column) : Except FrameError (List α) :=
  match frame.columns column with
  | some values => .ok values
  | none => .error (.missingColumn column)

/-- The index of the first date that is not later than the one before it, where the first date of
the list has the given index. -/
def firstUnordered? (index : Nat) : List Date → Option Nat
  | a :: b :: rest => if b ≤ a then some (index + 1) else firstUnordered? (index + 1) (b :: rest)
  | _ => none

/-- The first present column without one value for each of `count` dates. -/
def firstMisaligned? (columns : Columns α) (count : Nat) : List Column → Option FrameError
  | [] => none
  | column :: rest =>
    match columns column with
    | some values =>
      if values.length = count then firstMisaligned? columns count rest
      else some (.lengthMismatch column count values.length)
    | none => firstMisaligned? columns count rest

theorem pairwise_of_firstUnordered?_eq_none {index : Nat} {dates : List Date}
    (h : firstUnordered? index dates = none) : dates.Pairwise (· < ·) := by
  have hrankLt {a b : Date} : a < b ↔ a.rank < b.rank := Iff.rfl
  induction dates generalizing index with
  | nil => exact List.Pairwise.nil
  | cons a rest ih =>
    cases rest with
    | nil => exact List.pairwise_singleton _ _
    | cons b rest =>
      simp only [firstUnordered?] at h
      split at h
      · simp at h
      · rename_i hab
        have hlt : a.rank < b.rank := Int.not_le.mp hab
        have hrest := ih h
        refine List.pairwise_cons.mpr ⟨fun c hc => ?_, hrest⟩
        rcases List.mem_cons.mp hc with rfl | hc
        · exact hlt
        · exact Int.lt_trans hlt ((List.pairwise_cons.mp hrest).1 c hc)

theorem length_eq_of_firstMisaligned?_eq_none {columns : Columns α} {count : Nat}
    {order : List Column} (h : firstMisaligned? columns count order = none) {column : Column}
    (hmem : column ∈ order) {values : List α} (hvalues : columns column = some values) :
    values.length = count := by
  induction order with
  | nil => simp at hmem
  | cons first rest ih =>
    simp only [firstMisaligned?] at h
    rcases List.mem_cons.mp hmem with rfl | hmem
    · rw [hvalues] at h
      by_cases hlen : values.length = count
      · exact hlen
      · simp [hlen] at h
    · split at h
      · split at h
        · exact ih h hmem
        · simp at h
      · exact ih h hmem

/-- Builds a frame from its columns. A missing column of closing prices is found first, then the
first column of a wrong length, then the first date out of order. -/
def ofColumns (dates : List Date) (columns : Columns α) : Except FrameError (Frame α) :=
  if hclose : (columns .close).isSome then
    match haligned : firstMisaligned? columns dates.length Column.all with
    | some error => .error error
    | none =>
      match hincreasing : firstUnordered? 0 dates with
      | some index => .error (.unorderedDates index)
      | none => .ok
        { dates, columns
          close_isSome := hclose
          aligned := fun column _ hvalues =>
            length_eq_of_firstMisaligned?_eq_none haligned column.mem_all hvalues
          increasing := pairwise_of_firstUnordered?_eq_none hincreasing }
  else .error (.missingColumn .close)

end Frame

structure Bar (α : Type) where
  date : Date
  opening : α
  high : α
  low : α
  close : α
  volume : α

namespace Bar

variable {α : Type}

def value (bar : Bar α) : Column → α
  | .opening => bar.opening
  | .high => bar.high
  | .low => bar.low
  | .close => bar.close
  | .volume => bar.volume

end Bar

namespace Frame

variable {α : Type}

def ofBars (bars : List (Bar α)) : Except FrameError (Frame α) :=
  ofColumns (bars.map (·.date)) fun column => some (bars.map (·.value column))

end Frame

end Backtest
