import Backtest.Proofs.PriceReading

namespace Backtest.Proofs.PriceLoading

open Backtest.PriceFile
open Backtest.Proofs.Outcome
open Backtest.Proofs.FrameColumns
open Backtest.Proofs.PriceTable
open Backtest.Proofs.PriceReading

/-- The records of a text are a header and the rows of a table, with equally many fields. A text
without records has an empty header. -/
structure IsTable (text : String) (header : Fields) (table : List Fields) : Prop where
  first : ((Csv.records text).map Csv.Record.fields).headD [] = header
  below : ((Csv.records text).map Csv.Record.fields).tail = table
  equal : ∀ row ∈ table, row.length = header.length

variable {path text : String} {header : Fields} {table : List Fields} {range : DateRange}
variable {layout : Layout} {rows? : List (Option Row)}

def assemble (path : String) (layout : Layout) (rows : List Row) :
    Except PriceError (Frame Float) :=
  match firstDuplicate? (sorted rows) with
  | some date => .error (.duplicateDate date path)
  | none =>
    let frame := Frame.ofColumns ((sorted rows).map Row.date) (columnsOf layout (sorted rows))
    frame.mapError .badFrame

theorem read_eq (htable : IsTable text header table) (path : String) (range : DateRange) :
    ∃ records : List Csv.Record, records.map Csv.Record.fields = table ∧
      (∀ record ∈ records, record.fields.length = header.length) ∧
      read path text range = (do
        let layout ← Layout.ofHeader header
        let rows ← readRows layout range header.length 1 records
        assemble path layout rows) := by
  obtain ⟨hfirst, hbelow, hequal⟩ := htable
  have hlength {records : List Csv.Record} (hrecords : records.map Csv.Record.fields = table) :
      ∀ record ∈ records, record.fields.length = header.length := fun record hrecord =>
    hequal _ (hrecords ▸ List.mem_map_of_mem hrecord)
  unfold PriceFile.read
  cases hrecords : Csv.records text with
  | nil =>
      rw [hrecords] at hfirst hbelow
      exact ⟨[], hbelow, hlength hbelow, hfirst ▸ rfl⟩
  | cons first records =>
      rw [hrecords] at hfirst hbelow
      exact ⟨records, hbelow, hlength hbelow, hfirst ▸ rfl⟩

theorem exists_loaded (path : String) (hlayout : Layout.ofHeader header = .ok layout)
    (hrows : List.Forall₂ (Reads layout range) table rows?)
    (hnodup : (rows?.reduceOption.map Row.date).Nodup) :
    ∃ frame bars, assemble path layout rows?.reduceOption = .ok frame ∧
      Loaded header table range layout.date bars frame := by
  obtain ⟨hdate, ⟨closeIndex, hclose⟩, hcolumns⟩ := ofHeader_eq_ok.mp hlayout
  obtain ⟨bars, others, hperm, hbars, hothers, hread⟩ := exists_partition hrows
  have hnone := firstDuplicate?_sorted.mpr hnodup
  have hincreasing := pairwise_of_firstDuplicate?_eq_none (sorted_pairwise rows?.reduceOption) hnone
  obtain ⟨ordered, hordered, hsorted⟩ : Relation.Comp List.Perm (List.Forall₂ (RowAt layout)) bars
      (sorted rows?.reduceOption) := by
    rw [← List.forall₂_comp_perm_eq_perm_comp_forall₂]
    exact ⟨_, hread, (sorted_perm _).symm⟩
  have hpresent : ∀ column index, NamedAt header column.name index →
      ∃ values, columnsOf layout (sorted rows?.reduceOption) column = some values ∧
        List.Forall₂ (NumberAt index) ordered values := by
    intro column index hindex
    refine columnsOf_eq_some hsorted ?_
    rw [hcolumns, lookup_named, fieldNamed?_eq_some.mpr hindex]
  have habsent : ∀ column : Column, (∀ index, ¬NamedAt header column.name index) →
      columnsOf layout (sorted rows?.reduceOption) column = none := by
    intro column hcolumn
    refine columnsOf_eq_none ?_
    rw [hcolumns, lookup_named, fieldNamed?_eq_none.mpr hcolumn]
  have haligned : (columnsOf layout (sorted rows?.reduceOption)).Aligned
      ((sorted rows?.reduceOption).map Row.date) := by
    intro column values hvalues
    by_cases hnamed : ∃ index, NamedAt header column.name index
    · obtain ⟨index, hindex⟩ := hnamed
      obtain ⟨values', hvalues', hnumbers⟩ := hpresent column index hindex
      obtain rfl := Option.some.inj (hvalues.symm.trans hvalues')
      rw [List.length_map, ← hsorted.length_eq, hnumbers.length_eq]
    · cases hvalues.symm.trans (habsent column (not_exists.mp hnamed))
  obtain ⟨closes, hcloses, -⟩ := hpresent .close closeIndex hclose
  have hcloseSome : (columnsOf layout (sorted rows?.reduceOption) .close).isSome :=
    Option.isSome_of_eq_some hcloses
  refine ⟨⟨_, _, hcloseSome, haligned, hincreasing⟩, ordered, ?_, ?_⟩
  · rw [assemble, hnone]
    exact mapError_eq_ok.mpr (ofColumns_eq_ok.mpr ⟨⟨hcloseSome, haligned, hincreasing⟩, rfl, rfl⟩)
  · refine ⟨hdate, ⟨others, (hordered.symm.append_right others).trans hperm, ?_, hothers⟩, ?_,
      hpresent, habsent⟩
    · exact fun row hrow => hbars row (hordered.mem_iff.mpr hrow)
    · exact List.forall₂_map_right_iff.mpr (hsorted.imp fun _ _ hrow => hrow.1)

theorem read_eq_ok (htable : IsTable text header table) {frame : Frame Float} :
    read path text range = .ok frame ↔
      ∃ layout rows?, Layout.ofHeader header = .ok layout ∧
        List.Forall₂ (Reads layout range) table rows? ∧
        (rows?.reduceOption.map Row.date).Nodup ∧
        assemble path layout rows?.reduceOption = .ok frame := by
  obtain ⟨records, hrecords, hequal, hread⟩ := read_eq htable path range
  rw [hread]
  constructor
  · intro h
    obtain ⟨layout, hlayout, h⟩ := bind_eq_ok.mp h
    obtain ⟨rows, hrows, h⟩ := bind_eq_ok.mp h
    obtain ⟨rows?, hreads, rfl⟩ := (readRows_eq_ok hequal 1).mp hrows
    refine ⟨layout, rows?, hlayout, hrecords ▸ hreads, firstDuplicate?_sorted.mp ?_, h⟩
    rw [assemble] at h
    split at h
    · cases h
    · assumption
  · rintro ⟨layout, rows?, hlayout, hreads, -, h⟩
    exact bind_eq_ok.mpr ⟨layout, hlayout, bind_eq_ok.mpr ⟨_,
      (readRows_eq_ok hequal 1).mpr ⟨rows?, hrecords ▸ hreads, rfl⟩, h⟩⟩

theorem exists_reads_table_iff (hlayout : Layout.ofHeader header = .ok layout) :
    (∃ rows?, List.Forall₂ (Reads layout range) table rows? ∧
        (rows?.reduceOption.map Row.date).Nodup) ↔
      Loadable header table range layout.date := by
  obtain ⟨hdate, hclose, hcolumns⟩ := ofHeader_eq_ok.mp hlayout
  constructor
  · rintro ⟨rows?, hreads, hnodup⟩
    have hrows := exists_forall₂_iff.mp ⟨rows?, hreads⟩
    refine ⟨hdate, hclose, fun row hrow => ?_, fun row hrow hin column index hindex => ?_, ?_⟩
    · exact (exists_reads_iff.mp (hrows row hrow)).1
    · exact (exists_reads_iff.mp (hrows row hrow)).2 hin (column, index)
        (hcolumns ▸ mem_named.mpr hindex)
    · exact (nodup_dates_iff hreads).mp hnodup
  · rintro ⟨-, -, hdated, hpriced, hdistinct⟩
    obtain ⟨rows?, hreads⟩ : ∃ rows?, List.Forall₂ (Reads layout range) table rows? := by
      refine exists_forall₂_iff.mpr fun row hrow => exists_reads_iff.mpr ⟨hdated row hrow, ?_⟩
      rintro hin ⟨column, index⟩ hslot
      exact hpriced row hrow hin column index (mem_named.mp (hcolumns ▸ hslot))
    exact ⟨rows?, hreads, (nodup_dates_iff hreads).mpr hdistinct⟩

theorem ofHeader_named {dateIndex : Nat} (hdate : NamedAt header "date" dateIndex)
    (hclose : ∃ index, NamedAt header "close" index) :
    Layout.ofHeader header = .ok ⟨dateIndex, named header⟩ :=
  ofHeader_eq_ok.mpr ⟨hdate, hclose, rfl⟩

theorem exists_read_of_loadable (htable : IsTable text header table) (path : String)
    {dateIndex : Nat} (h : Loadable header table range dateIndex) :
    ∃ frame bars, read path text range = .ok frame ∧
      Loaded header table range dateIndex bars frame := by
  have hlayout := ofHeader_named h.date h.close
  obtain ⟨rows?, hreads, hnodup⟩ := (exists_reads_table_iff hlayout).mpr h
  obtain ⟨frame, bars, hframe, hloaded⟩ := exists_loaded path hlayout hreads hnodup
  exact ⟨frame, bars, (read_eq_ok htable).mpr ⟨_, rows?, hlayout, hreads, hnodup, hframe⟩, hloaded⟩

theorem loadable_of_read (htable : IsTable text header table) {frame : Frame Float}
    (h : read path text range = .ok frame) :
    ∃ dateIndex, Loadable header table range dateIndex ∧
      ∃ bars, Loaded header table range dateIndex bars frame := by
  obtain ⟨layout, rows?, hlayout, hreads, hnodup, hframe⟩ := (read_eq_ok htable).mp h
  refine ⟨layout.date, (exists_reads_table_iff hlayout).mp ⟨rows?, hreads, hnodup⟩, ?_⟩
  obtain ⟨frame', bars, hframe', hloaded⟩ := exists_loaded path hlayout hreads hnodup
  obtain rfl := Except.ok.inj (hframe.symm.trans hframe')
  exact ⟨bars, hloaded⟩

theorem read_of_perm {path path' text text' : String} {table' : List Fields}
    (htable : IsTable text header table) (htable' : IsTable text' header table')
    (hperm : table.Perm table') {frame : Frame Float} (h : read path text range = .ok frame) :
    read path' text' range = .ok frame := by
  obtain ⟨dateIndex, hloadable, bars, hloaded⟩ := loadable_of_read htable h
  obtain ⟨frame', bars', h', hloaded'⟩ :=
    exists_read_of_loadable htable' path' (hloadable.perm hperm)
  rw [h', hloaded.frame_eq hloaded' hperm]

theorem ofHeader_ne_badFrame (error : FrameError) :
    Layout.ofHeader header ≠ .error (.badFrame error) := by
  intro h
  rw [Layout.ofHeader] at h
  split at h
  · cases h
  · dsimp only at h
    split at h <;> cases h

theorem readValue_ne_badFrame (line : Nat) (column : Column) (field : List Char)
    (error : FrameError) : readValue line column field ≠ .error (.badFrame error) := by
  intro h
  rw [readValue] at h
  split at h
  · cases h
  · split at h
    · cases h
    · split at h <;> cases h

theorem readRow_ne_badFrame (record : Csv.Record) (error : FrameError) :
    readRow layout range record ≠ .error (.badFrame error) := by
  intro h
  rcases bind_eq_error.mp h with hdate | ⟨date, -, h⟩
  · obtain ⟨cause, -, ⟨⟩⟩ := mapError_eq_error.mp hdate
  · split at h
    · rcases bind_eq_error.mp h with hvalues | ⟨values, -, ⟨⟩⟩
      obtain ⟨slot, -, hslot⟩ := exists_of_mapM_eq_error hvalues
      rcases bind_eq_error.mp hslot with hvalue | ⟨value, -, ⟨⟩⟩
      exact readValue_ne_badFrame _ _ _ error hvalue
    · cases h

theorem readRows_ne_badFrame (count index : Nat) (records : List Csv.Record) (error : FrameError) :
    readRows layout range count index records ≠ .error (.badFrame error) := by
  induction records generalizing index with
  | nil => exact nofun
  | cons record records ih =>
      intro h
      rw [readRows] at h
      split at h
      · cases h
      · rcases bind_eq_error.mp h with hrow | ⟨row?, -, h⟩
        · exact readRow_ne_badFrame record error hrow
        · rcases bind_eq_error.mp h with hrows | ⟨rows, -, ⟨⟩⟩
          exact ih (index + 1) hrows

theorem read_ne_badFrame (htable : IsTable text header table) (path : String) (range : DateRange)
    (error : FrameError) : read path text range ≠ .error (.badFrame error) := by
  intro h
  obtain ⟨records, hrecords, hequal, hread⟩ := read_eq htable path range
  rw [hread] at h
  rcases bind_eq_error.mp h with hlayout | ⟨layout, hlayout, h⟩
  · exact ofHeader_ne_badFrame error hlayout
  rcases bind_eq_error.mp h with hrows | ⟨rows, hrows, h⟩
  · exact readRows_ne_badFrame _ _ _ error hrows
  obtain ⟨rows?, hreads, rfl⟩ := (readRows_eq_ok hequal 1).mp hrows
  by_cases hnodup : (rows?.reduceOption.map Row.date).Nodup
  · obtain ⟨frame, bars, hframe, -⟩ := exists_loaded path hlayout (hrecords ▸ hreads) hnodup
    cases hframe.symm.trans h
  · rw [assemble] at h
    split at h
    · cases h
    · next hnone => exact hnodup (firstDuplicate?_sorted.mp hnone)

/-- A table is read exactly if it can be loaded, and then as the frame of its rows in the range. The
order of the rows does not matter, and a range gives the part in it of the frame of all rows. -/
theorem read_table (htable : IsTable text header table) (path : String) (range : DateRange) :
    ((∃ frame, read path text range = .ok frame) ↔
      ∃ dateIndex, Loadable header table range dateIndex) ∧
    (∀ frame, read path text range = .ok frame → frame.dates.Pairwise (· < ·) ∧
      ∃ dateIndex bars, Loaded header table range dateIndex bars frame) ∧
    (∀ error, read path text range ≠ .error (.badFrame error)) ∧
    (∀ path' text' table', IsTable text' header table' → table.Perm table' → ∀ frame,
      (read path text range = .ok frame ↔ read path' text' range = .ok frame)) ∧
    ∀ frame, read path text {} = .ok frame → read path text range = .ok (within frame range) := by
  refine ⟨⟨?_, ?_⟩, fun frame h => ⟨frame.increasing, ?_⟩, read_ne_badFrame htable path range, ?_,
    ?_⟩
  · rintro ⟨frame, h⟩
    obtain ⟨dateIndex, hloadable, -⟩ := loadable_of_read htable h
    exact ⟨dateIndex, hloadable⟩
  · rintro ⟨dateIndex, hloadable⟩
    obtain ⟨frame, bars, h, -⟩ := exists_read_of_loadable htable path hloadable
    exact ⟨frame, h⟩
  · obtain ⟨dateIndex, -, hloaded⟩ := loadable_of_read htable h
    exact ⟨dateIndex, hloaded⟩
  · intro path' text' table' htable' hperm frame
    exact ⟨read_of_perm htable htable' hperm, read_of_perm htable' htable hperm.symm⟩
  · intro frame h
    obtain ⟨dateIndex, hloadable, bars, hloaded⟩ := loadable_of_read htable h
    obtain ⟨frame', bars', h', hloaded'⟩ :=
      exists_read_of_loadable htable path (hloadable.restrict range)
    rw [h', hloaded'.frame_eq (hloaded.restrict range) (.refl _)]

def thursday : Date := ⟨2024, 2, 1, by decide⟩

def friday : Date := ⟨2024, 2, 2, by decide⟩

def closesHeader : Fields := ["Date".toList, " close".toList]

def thursdayRow : Fields := ["2024-02-01".toList, "11".toList]

def fridayRow : Fields := ["2024-02-02".toList, "12.5".toList]

def fallingText : String := "Date, close\n2024-02-02,12.5\n2024-02-01,11\n"

def risingText : String := "Date, close\n2024-02-01,11\n2024-02-02,12.5\n"

theorem isTable_falling : IsTable fallingText closesHeader [fridayRow, thursdayRow] :=
  ⟨rfl, rfl, by decide⟩

theorem isTable_rising : IsTable risingText closesHeader [thursdayRow, fridayRow] :=
  ⟨rfl, rfl, by decide⟩

theorem dateAt_thursdayRow : DateAt 0 thursdayRow thursday := ⟨_, rfl, rfl⟩

theorem dateAt_fridayRow : DateAt 0 fridayRow friday := ⟨_, rfl, rfl⟩

theorem loadable_falling : Loadable closesHeader [fridayRow, thursdayRow] {} 0 where
  date := fieldNamed?_eq_some.mp rfl
  close := ⟨1, fieldNamed?_eq_some.mp rfl⟩
  dated := by
    intro row hrow
    rcases List.mem_pair.mp hrow with rfl | rfl
    · exact ⟨friday, dateAt_fridayRow⟩
    · exact ⟨thursday, dateAt_thursdayRow⟩
  priced := by
    intro row hrow _ column index hindex
    have hcolumn : column = .close ∧ index = 1 := by
      have hfield := fieldNamed?_eq_some.mpr hindex
      cases column with
      | close => exact ⟨rfl, (Option.some.inj hfield).symm⟩
      | opening => cases hfield
      | high => cases hfield
      | low => cases hfield
      | volume => cases hfield
    obtain ⟨rfl, rfl⟩ := hcolumn
    rcases List.mem_pair.mp hrow with rfl | rfl
    · exact ⟨_, ⟨_, rfl, rfl⟩, by decide +kernel, nofun⟩
    · exact ⟨_, ⟨_, rfl, rfl⟩, by decide +kernel, nofun⟩
  distinct := by
    refine List.pairwise_pair.mpr fun date hfriday hthursday => ?_
    have hsame := (dateAt_fridayRow.unique hfriday).trans (hthursday.unique dateAt_thursdayRow)
    exact absurd hsame (by decide)

theorem read_table_twoDays : ∃ frame, read "falling.csv" fallingText {} = .ok frame ∧
    read "rising.csv" risingText {} = .ok frame ∧
    read "falling.csv" fallingText { first := friday } =
      .ok (within frame { first := friday }) := by
  obtain ⟨hsucceeds, -, -, horder, -⟩ := read_table isTable_falling "falling.csv" {}
  obtain ⟨-, -, -, -, hrestricts⟩ :=
    read_table isTable_falling "falling.csv" { first := friday }
  obtain ⟨frame, hframe⟩ := hsucceeds.mpr ⟨0, loadable_falling⟩
  refine ⟨frame, hframe, ?_, hrestricts frame hframe⟩
  exact (horder "rising.csv" risingText _ isTable_rising (.swap _ _ _) frame).mp hframe

end Backtest.Proofs.PriceLoading
